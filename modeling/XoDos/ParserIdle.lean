import XoDos.TerminalEmulator

/-!
# The parser and the decoder in front of it

The parser has the two counters of the UTF-8 decoder, which it writes only to reset them.  A decoder
with no sequence begun is left alone by every code point.
-/

namespace XoDos

namespace Parser

/-- No sequence is begun. -/
def Idle (p : Parser) : Prop := p.mUtf8ToFollow = 0 ∧ p.mUtf8Index = 0

/-- The parser that is returned is idle. -/
abbrev StaysIdle (x : Issued) : Prop := Ensures (fun r => Idle r.1) x

variable {p : Parser} (h : Idle p) (b : Nat)

include h

theorem issueArg0_idle (defaultValue : Nat) (control : Nat → Control) :
    StaysIdle (p.issueArg0 defaultValue control) :=
  .bind_any fun _ => .ok h

theorem parseArgByte_idle : Ensures Idle (p.parseArgByte b) := by
  unfold parseArgByte
  refine .ite (fun _ => .bind_any fun args => .ok ?_) fun _ => .ite (fun _ => .ok ?_) fun _ => .ok ?_
  · exact h
  · exact h
  · exact h

theorem parseArg_idle : StaysIdle (p.parseArg b) := by
  have hstart : Idle { p with mIsCSIStart := false } := h
  unfold parseArg
  refine .ite (fun _ => ?_) fun _ => ?_
  · exact .bind (parseArgByte_idle hstart _) fun p₁ h₁ =>
      .bind (parseArgByte_idle h₁ _) fun p₂ h₂ => .ok h₂
  · exact .bind (parseArgByte_idle hstart _) fun p₁ h₁ => .ok h₁

theorem collectOSCArgs_idle : Ensures Idle (p.collectOSCArgs b) := by
  unfold collectOSCArgs
  exact .ite (fun _ => .bind_any fun text => .ok h) fun _ => .ok h

theorem doOscSetTextParameters_idle (terminator : JavaString) :
    StaysIdle (p.doOscSetTextParameters terminator) := by
  unfold doOscSetTextParameters
  split
  · exact .ok h
  · exact .ok h

theorem doOsc_idle : StaysIdle (p.doOsc b) := by
  unfold doOsc
  refine .ite (fun _ => doOscSetTextParameters_idle h _) fun _ => .ite (fun _ => .ok h) fun _ => ?_
  exact .bind (collectOSCArgs_idle h b) fun p₁ h₁ => .ok h₁

theorem doOscEsc_idle : StaysIdle (p.doOscEsc b) := by
  unfold doOscEsc
  refine .ite (fun _ => doOscSetTextParameters_idle h _) fun _ => ?_
  exact .bind (collectOSCArgs_idle h 27) fun p₁ h₁ => .bind (collectOSCArgs_idle h₁ b) fun p₂ h₂ =>
    .ok h₂

theorem doDeviceControl_idle : StaysIdle (p.doDeviceControl b) := by
  unfold doDeviceControl
  exact .ite (fun _ => .ok h) fun _ => .ite (fun _ => .ok h) fun _ => .bind_any fun text => .ok h

theorem setOrResetModes_idle (setting : Bool) : StaysIdle (p.setOrResetModes setting) := by
  unfold setOrResetModes
  refine .bind_any fun modes => .ok ?_
  simp only
  split_ifs
  · exact h
  · exact h

theorem saveOrRestoreModes_idle (save : Bool) : StaysIdle (p.saveOrRestoreModes save) :=
  .bind_any fun _ => .ok h

theorem doSetMode_idle (newValue : Bool) : StaysIdle (p.doSetMode newValue) := by
  refine .bind_any fun modeBit => .ok ?_
  split_ifs
  · exact h
  · exact h
  · exact h

theorem extendedColor_idle (code i : Int) : Ensures (fun r => Idle r.1.1) (p.extendedColor code i) := by
  unfold extendedColor
  refine .ite (fun _ => .ok h) fun _ => .bind_any fun firstArg => .ite (fun _ => ?_) fun _ => ?_
  · refine .ite (fun _ => .ok h) fun _ => .bind_any fun red => .bind_any fun green =>
      .bind_any fun blue => .ite (fun _ => .ok h) fun _ => .ok h
  · refine .ite (fun _ => .bind_any fun color => ?_) fun _ => .ok h
    exact .ite (fun _ => .ok h) fun _ => .ok h

theorem sgrLoop_idle (n : Nat) (i : Int) : StaysIdle (sgrLoop n i p) := by
  induction n generalizing p i with
  | zero => exact .ok h
  | succ n ih =>
    unfold sgrLoop
    refine .ite (fun _ => .ok h) fun _ => .bind_any fun code => .ite (fun _ => ih h _) fun _ => ?_
    simp only
    refine .ite (fun _ => ?_) fun _ => ?_
    · exact .bind (extendedColor_idle h _ _) fun r hr => .bind (ih hr _) fun r' hr' => .ok hr'
    · exact .bind (ih h _) fun r hr => .ok hr

theorem doCsi_idle : StaysIdle (p.doCsi b) := by
  unfold doCsi
  repeat' with_reducible refine .ite (fun _ => ?_) fun _ => ?_
  all_goals
    first
      | exact .ok h
      | exact issueArg0_idle h _ _
      | exact .bind_any fun _ => .ok h
      | exact .bind_any fun _ => .bind_any fun _ => .ok h
      | exact doSetMode_idle h _
      | exact sgrLoop_idle (p := p.clampArgIndex) h _ _
      | exact parseArg_idle h b
      | exact .bind_any fun _ => .ok (by split_ifs <;> exact h)

theorem doCsiQuestionMark_idle : StaysIdle (p.doCsiQuestionMark b) := by
  unfold doCsiQuestionMark
  refine .ite (fun _ => .bind_any fun arg => .ok ?_) fun _ => .ite (fun _ => setOrResetModes_idle h _)
    fun _ => .ite (fun _ => .bind_any fun arg => .ok ?_) fun _ =>
    .ite (fun _ => saveOrRestoreModes_idle h _) fun _ => .ite (fun _ => .ok h) fun _ =>
    parseArg_idle h b
  · simp only
    split_ifs
    · exact h
    · exact h
  · split_ifs
    · exact h
    · exact h

theorem doCsiBiggerThan_idle : StaysIdle (p.doCsiBiggerThan b) := by
  unfold doCsiBiggerThan
  exact .ite (fun _ => .ok h) fun _ => .ite (fun _ => .ok h) fun _ => parseArg_idle h b

theorem doCsiDollar_idle : StaysIdle (p.doCsiDollar b) := by
  unfold doCsiDollar
  refine .ite (fun _ => ?_) fun _ => .ite (fun _ => ?_) fun _ => .ite (fun _ => ?_) fun _ => .ok h
  · iterate 6 refine .bind_any fun _ => ?_
    exact .ok h
  · simp only
    iterate 5 refine .bind_any fun _ => ?_
    exact .ok h
  · iterate 4 refine .bind_any fun _ => ?_
    exact .ite (fun _ => .bind_any fun codes => .ok h) fun _ => .ok h

theorem doEsc_idle : StaysIdle (p.doEsc b) := by
  unfold doEsc
  repeat' with_reducible refine .ite (fun _ => ?_) fun _ => ?_
  all_goals
    first
      | exact .ok h
      | exact .ok ⟨rfl, rfl⟩

theorem doCsiDoubleQuote_idle : StaysIdle (p.doCsiDoubleQuote b) := by
  unfold doCsiDoubleQuote
  exact .ite (fun _ => .bind_any fun arg => .ok (by split_ifs <;> exact h)) fun _ => .ok h

theorem dispatch_idle : StaysIdle (p.dispatch b) := by
  unfold dispatch
  split
  · exact .ok h
  · exact doEsc_idle h b
  · exact .ite (fun _ => .ok h) fun _ => .ok h
  · exact .ok h
  · exact .ok h
  · exact doCsi_idle h b
  · exact .ite (fun _ => .ok ⟨rfl, rfl⟩) fun _ => .ok h
  · exact doCsiQuestionMark_idle h b
  · exact doCsiBiggerThan_idle h b
  · exact doCsiDollar_idle h b
  · exact doCsiDoubleQuote_idle h b
  · exact .ite (fun _ => issueArg0_idle h _ _) fun _ => .ite (fun _ => issueArg0_idle h _ _) fun _ =>
      .ok h
  · exact .ok h
  · exact doOsc_idle h b
  · exact doOscEsc_idle h b
  · exact doDeviceControl_idle h b
  · exact .ite (fun _ => issueArg0_idle h _ _) fun _ => .ok h
  · exact .ite (fun _ => issueArg0_idle h _ _) fun _ => .ite (fun _ => .ok h) fun _ => .ok h
  · exact .bind_any fun arg => .ok (by split_ifs <;> exact h)

/-- A code point leaves an idle decoder idle. -/
theorem processCodePoint_idle : StaysIdle (p.processCodePoint b) := by
  have hdispatch : StaysIdle (Parser.dispatch { p with mContinueSequence := false } b >>= fun r =>
      .ok (if r.1.mContinueSequence then r.1 else r.1.finishSequence, r.2)) := by
    refine .bind (dispatch_idle (p := { p with mContinueSequence := false }) h b) fun r hr => .ok ?_
    simp only
    split_ifs
    · exact hr
    · exact hr
  unfold processCodePoint
  refine .ite (fun _ => .ok h) fun _ => .ite (fun _ => ?_) fun _ => ?_
  · exact .ite (fun _ => doOsc_idle h b) fun _ => .ok h
  repeat' with_reducible refine .ite (fun _ => ?_) fun _ => ?_
  all_goals
    first
      | exact .ok h
      | exact doOsc_idle h b
      | exact hdispatch
      | exact .ok (by split_ifs <;> exact h)

end Parser

namespace TerminalEmulator

variable [ShortStore] [Platform]

/-- The decoder between two sequences. -/
def Idle (e : TerminalEmulator) : Prop := e.toParser.Idle ∧ e.mUtf8InputBuffer.length = 4

theorem processCodePoint_idle {e : TerminalEmulator} (h : e.Idle) (b : Nat) :
    Ensures (fun e' => e'.Idle) (e.processCodePoint b) := by
  unfold processCodePoint Terminal.processCodePoint
  refine .bind (P := fun t => t.toParser.Idle) ?_ fun t ht => .ok ⟨ht, h.2⟩
  exact .bind (Parser.processCodePoint_idle h.1 b) fun r hr => .bind_any fun d => .ok hr

end TerminalEmulator

end XoDos
