import XoDos.StyleBits
import XoDos.TerminalEmulator

/-!
# What the parser issues

The numbers of a control sequence are checked while it is parsed.  A margin is
counted from 1, a colour is an index of the table or a 24-bit value, and a mode
that is restored is one that the terminal has a bit for.
-/

namespace XoDos

/-- The values that `TextStyle` has for a colour. -/
def TextStyle.IsStyleColor (color : BitVec 32) : Prop :=
  isTruecolor color = true ∨ color.toNat < numIndexedColors

/-- What holds of every control that is issued for another character than a backspace. -/
def Control.Proper : Control → Prop
  | .backspace => False
  | .setLeftRightMargins left _ => 1 ≤ left
  | .appearance (.extendedColor _ color) => TextStyle.IsStyleColor color
  | .restoreMode externalBit internalBit => mapDecSetBitToInternalBit externalBit = some internalBit
  | _ => True

namespace Parser

/-- Every issued control is proper. -/
abbrev IssuesProper (x : Issued) : Prop := Ensures (fun r => ∀ c ∈ r.2, c.Proper) x

variable (p : Parser) (b : Nat)

theorem proper_none : ∀ c ∈ ([] : List Control), c.Proper := by simp

theorem proper_one {c : Control} (h : c.Proper) : ∀ c' ∈ [c], c'.Proper := by simpa using h

theorem issueArg0_proper (defaultValue : Nat) {control : Nat → Control}
    (h : ∀ n, (control n).Proper) : IssuesProper (p.issueArg0 defaultValue control) :=
  .bind_any fun n => .ok (proper_one (h n))

/-- An argument whose default is 1 is not 0. -/
theorem getArg0_pos : Ensures (fun n => 1 ≤ n) (p.getArg0 1) := by
  unfold getArg0 getArg
  refine .bind (P := fun arg : Option Nat => ∀ n, arg = some n → 1 ≤ n) ?_ fun arg harg => .ok ?_
  · unfold findArg
    refine .bind_any fun result => .ok fun n hn => ?_
    split_ifs at hn with hdefault
    obtain rfl := Option.some.inj hn
    simp only [and_true] at hdefault
    omega
  · cases arg with
    | none => exact le_rfl
    | some n => exact harg n rfl

theorem parseArg_proper : IssuesProper (p.parseArg b) := by
  unfold parseArg
  refine .ite (fun _ => ?_) fun _ => ?_
  · exact .bind_any fun p₁ => .bind_any fun p₂ => .ok proper_none
  · exact .bind_any fun p₁ => .ok proper_none

/-! ## Strings -/

theorem doOscSetTextParameters_proper (terminator : JavaString) :
    IssuesProper (p.doOscSetTextParameters terminator) := by
  unfold doOscSetTextParameters
  split
  · exact .ok proper_none
  · exact .ok (proper_one trivial)

theorem doOsc_proper : IssuesProper (p.doOsc b) := by
  unfold doOsc
  refine .ite (fun _ => doOscSetTextParameters_proper p _) fun _ => .ite (fun _ => .ok proper_none) fun _ => ?_
  exact .bind_any fun p₁ => .ok proper_none

theorem doOscEsc_proper : IssuesProper (p.doOscEsc b) := by
  unfold doOscEsc
  refine .ite (fun _ => doOscSetTextParameters_proper p _) fun _ => ?_
  exact .bind_any fun p₁ => .bind_any fun p₂ => .ok proper_none

theorem doDeviceControl_proper : IssuesProper (p.doDeviceControl b) := by
  unfold doDeviceControl
  refine .ite (fun _ => .ok (proper_one trivial)) fun _ => .ite (fun _ => .ok proper_none) fun _ => ?_
  exact .bind_any fun text => .ok proper_none

/-! ## Modes and attributes -/

theorem setOrResetModes_proper (setting : Bool) : IssuesProper (p.setOrResetModes setting) := by
  unfold setOrResetModes
  refine .bind_any fun modes => .ok fun c hc => ?_
  obtain ⟨mode, -, rfl⟩ := List.mem_map.mp hc
  trivial

theorem saveOrRestoreMode_proper (save : Bool) (externalBit : Int) :
    ∀ c ∈ saveOrRestoreMode save externalBit, c.Proper := by
  unfold saveOrRestoreMode
  cases hbit : mapDecSetBitToInternalBit externalBit with
  | none => exact proper_none
  | some internalBit =>
    cases save with
    | true => exact proper_one trivial
    | false => exact proper_one hbit

theorem saveOrRestoreModes_proper (save : Bool) : IssuesProper (p.saveOrRestoreModes save) := by
  refine .bind_any fun modes => .ok fun c hc => ?_
  obtain ⟨mode, -, hmode⟩ := List.mem_flatMap.mp hc
  exact saveOrRestoreMode_proper save mode c hmode

theorem doSetMode_proper (newValue : Bool) : IssuesProper (p.doSetMode newValue) := by
  refine .bind_any fun modeBit => .ok ?_
  split_ifs
  · exact proper_one trivial
  · exact proper_none
  · exact proper_none

/-- A red, a green and a blue part under `0xff`. -/
theorem argbColor_proper (red green blue : BitVec 32) : TextStyle.IsStyleColor
    ((0xff000000 : BitVec 32) ||| red <<< 16 ||| green <<< 8 ||| blue) := by
  refine .inl (TextStyle.isTruecolor_iff.mpr fun i h₁ h₂ => ?_)
  simp only [BitVec.getLsbD_or, TextStyle.getLsbD_topByte h₂, decide_eq_true h₁, Bool.true_or]

theorem indexedColor_proper {color : Int} (h : 0 ≤ color ∧ color < TextStyle.numIndexedColors) :
    TextStyle.IsStyleColor (BitVec.ofInt 32 color) := by
  refine .inr ?_
  have hlarge : (TextStyle.numIndexedColors : Int) = 259 := rfl
  rw [BitVec.toNat_ofInt]
  omega

theorem extendedColor_proper (code i : Int) :
    Ensures (fun r => ∀ c ∈ r.1.2, c.Proper) (p.extendedColor code i) := by
  unfold extendedColor
  refine .ite (fun _ => .ok proper_none) fun _ => .bind_any fun firstArg =>
    .ite (fun _ => ?_) fun _ => ?_
  · refine .ite (fun _ => .ok proper_none) fun _ => .bind_any fun red => .bind_any fun green =>
      .bind_any fun blue => .ite (fun _ => .ok proper_none) fun _ => .ok ?_
    exact proper_one (argbColor_proper _ _ _)
  · refine .ite (fun _ => .bind_any fun color => ?_) fun _ => .ok proper_none
    exact .ite (fun hcolor => .ok (proper_one (indexedColor_proper hcolor))) fun _ => .ok proper_none

theorem sgrLoop_proper (n : Nat) (i : Int) : IssuesProper (sgrLoop n i p) := by
  induction n generalizing p i with
  | zero => exact .ok proper_none
  | succ n ih =>
    unfold sgrLoop
    refine .ite (fun _ => .ok proper_none) fun _ => .bind_any fun code => .ite (fun _ => ih p _) fun _ => ?_
    simp only
    refine .ite (fun _ => ?_) fun _ => ?_
    · refine .bind (extendedColor_proper p _ _) fun r hr => .bind (ih _ _) fun r' hr' => .ok fun c hc => ?_
      rcases List.mem_append.mp hc with h | h
      · exact hr c h
      · exact hr' c h
    · refine .bind (ih p _) fun r hr => .ok fun c hc => ?_
      rcases List.mem_cons.mp hc with rfl | h
      · trivial
      · exact hr c h

/-! ## Sequences -/

theorem doCsi_proper : IssuesProper (p.doCsi b) := by
  unfold doCsi
  repeat' with_reducible refine .ite (fun _ => ?_) fun _ => ?_
  all_goals
    first
      | exact .ok proper_none
      | exact issueArg0_proper p _ fun _ => trivial
      | exact .bind_any fun _ => .bind_any fun _ => .ok (proper_one trivial)
      | exact .bind (getArg0_pos p) fun _ hleft => .bind_any fun _ => .ok (proper_one hleft)
      | exact doSetMode_proper p _
      | exact sgrLoop_proper _ _ _
      | exact parseArg_proper p b
      | exact .ok (proper_one trivial)
      | exact .bind_any fun _ => .ok (by split_ifs <;> first | exact proper_none | exact proper_one trivial)

theorem doCsiQuestionMark_proper : IssuesProper (p.doCsiQuestionMark b) := by
  unfold doCsiQuestionMark
  refine .ite (fun _ => .bind_any fun arg => .ok (proper_one trivial)) fun _ =>
    .ite (fun _ => setOrResetModes_proper p _) fun _ => .ite (fun _ => .bind_any fun arg => .ok ?_)
    fun _ => .ite (fun _ => saveOrRestoreModes_proper p _) fun _ => .ite (fun _ => .ok proper_none)
    fun _ => parseArg_proper p b
  split_ifs
  · exact proper_one trivial
  · exact proper_none

theorem doCsiBiggerThan_proper : IssuesProper (p.doCsiBiggerThan b) := by
  unfold doCsiBiggerThan
  exact .ite (fun _ => .ok (proper_one trivial)) fun _ => .ite (fun _ => .ok proper_none) fun _ =>
    parseArg_proper p b

theorem doCsiDollar_proper : IssuesProper (p.doCsiDollar b) := by
  unfold doCsiDollar
  refine .ite (fun _ => ?_) fun _ => .ite (fun _ => ?_) fun _ => .ite (fun _ => ?_) fun _ =>
    .ok proper_none
  · iterate 6 refine .bind_any fun _ => ?_
    exact .ok (proper_one trivial)
  · simp only
    iterate 5 refine .bind_any fun _ => ?_
    exact .ok (proper_one trivial)
  · iterate 4 refine .bind_any fun _ => ?_
    exact .ite (fun _ => .bind_any fun codes => .ok (proper_one trivial)) fun _ => .ok proper_none

theorem doEsc_proper : IssuesProper (p.doEsc b) := by
  unfold doEsc
  repeat' with_reducible refine .ite (fun _ => ?_) fun _ => ?_
  all_goals
    first
      | exact .ok proper_none
      | exact .ok (proper_one trivial)
      | exact .ok (by simp [Control.Proper])

theorem doCsiDoubleQuote_proper : IssuesProper (p.doCsiDoubleQuote b) := by
  unfold doCsiDoubleQuote
  refine .ite (fun _ => .bind_any fun arg => .ok ?_) fun _ => .ok proper_none
  split_ifs
  · exact proper_one trivial
  · exact proper_one trivial
  · exact proper_none

theorem dispatch_proper : IssuesProper (p.dispatch b) := by
  unfold dispatch
  split
  · refine .ok ?_
    split_ifs
    · exact proper_one trivial
    · exact proper_none
  · exact doEsc_proper p b
  · exact .ite (fun _ => .ok (proper_one trivial)) fun _ => .ok proper_none
  · exact .ok (proper_one trivial)
  · exact .ok (proper_one trivial)
  · exact doCsi_proper p b
  · exact .ite (fun _ => .ok (proper_one trivial)) fun _ => .ok proper_none
  · exact doCsiQuestionMark_proper p b
  · exact doCsiBiggerThan_proper p b
  · exact doCsiDollar_proper p b
  · exact doCsiDoubleQuote_proper p b
  · exact .ite (fun _ => issueArg0_proper p _ fun _ => trivial) fun _ =>
      .ite (fun _ => issueArg0_proper p _ fun _ => trivial) fun _ => .ok proper_none
  · exact .ok proper_none
  · exact doOsc_proper p b
  · exact doOscEsc_proper p b
  · exact doDeviceControl_proper p b
  · exact .ite (fun _ => issueArg0_proper p _ fun _ => trivial) fun _ => .ok proper_none
  · exact .ite (fun _ => issueArg0_proper p _ fun _ => trivial) fun _ =>
      .ite (fun _ => .ok proper_none) fun _ => .ok proper_none
  · refine .bind_any fun extent => .ok ?_
    split_ifs
    · exact proper_one trivial
    · exact proper_none

/-- Whatever the parser has collected, it only issues proper controls. -/
theorem processCodePoint_proper (hb : b ≠ 8) : IssuesProper (p.processCodePoint b) := by
  have hdispatch : IssuesProper (Parser.dispatch { p with mContinueSequence := false } b >>= fun r =>
      .ok (if r.1.mContinueSequence then r.1 else r.1.finishSequence, r.2)) :=
    .bind (dispatch_proper _ b) fun r hr => .ok hr
  unfold processCodePoint
  refine .ite (fun _ => .ok proper_none) fun _ => .ite (fun _ => ?_) fun _ => ?_
  · exact .ite (fun _ => doOsc_proper p b) fun _ => .ok (proper_one trivial)
  refine .ite (fun h₈ => absurd h₈ hb) fun _ => ?_
  repeat' with_reducible refine .ite (fun _ => ?_) fun _ => ?_
  all_goals
    first
      | exact .ok proper_none
      | exact .ok (proper_one trivial)
      | exact doOsc_proper p b
      | exact hdispatch
      | exact .ok (by split_ifs <;> first | exact proper_none | exact proper_one trivial)

theorem processCodePoint_backspace : p.processCodePoint 8 = .ok (p, [.backspace]) := rfl

end Parser

end XoDos
