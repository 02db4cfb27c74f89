import XoDos.DisplaySettings

/-!
# Saving and restoring modes

`CSI ? m s` keeps the modes that are set, and forgets that a mode was not: a bit of
`mSavedDecSetFlags` that has once been set stays set up to the next reset.  So
`CSI ? m r` sets the mode that was saved last.
-/

namespace XoDos

/-- What a terminal is given: code points, broken sequences of bytes and sizes. -/
inductive Given where
  | codePoint (c : Nat)
  | broken
  | size (columns rows : Int)

/-- Neither saves the mode of `bit` nor resets the terminal. -/
def Control.spares (bit : BitVec 32) : Control → Bool
  | .reset => false
  | .appearance (.saveMode bit') => bit' ≠ bit
  | _ => true

namespace Terminal

section

variable [ShortStore] [Platform]

def take (t : Terminal) : Given → Java Terminal
  | .codePoint c => t.processCodePoint c
  | .broken => do
    let d ← t.toDisplay.emitCodePoint unicodeReplacementChar
    return { t with toDisplay := d }
  | .size columns rows => do
    let d ← t.toDisplay.resize columns rows
    return { t with toDisplay := d }

/-- All controls that are issued spare the mode of `bit`. -/
def spares (bit : BitVec 32) (t : Terminal) : Given → Bool
  | .codePoint c =>
    match t.toParser.processCodePoint c with
    | .ok (_, controls) => controls.all (Control.spares bit)
    | .error _ => true
  | .broken => true
  | .size _ _ => true

/-- The state that `t` gets to without the mode of `bit` being saved, or the terminal being reset. -/
def leads (bit : BitVec 32) : Terminal → List Given → Option Terminal
  | t, [] => some t
  | t, given :: rest =>
    if t.spares bit given then
      match t.take given with
      | .ok t' => t'.leads bit rest
      | .error _ => none
    else none

end

/-- `CSI ? m` has been read. -/
structure Asked (m : Int) (t : Terminal) : Prop where
  state : t.mEscapeState = .csiQuestionmark
  index : t.mArgIndex = 0
  mode : arrayGet t.mArgs 0 = .ok m

end Terminal

/-! ## What is saved stays saved -/

namespace Display

variable {d : Display} {bit : BitVec 32}

/-- The saved modes include that of `bit`. -/
def Saved (bit : BitVec 32) (d : Display) : Prop := d.mSavedDecSetFlags &&& bit ≠ 0

theorem Saved.of_draws {d' : Display} (h : d.Saved bit) (hd : Draws d d') : d'.Saved bit := by
  have hsame : d'.mSavedDecSetFlags = d.mSavedDecSetFlags := congrArg Settings.mSavedDecSetFlags hd
  rw [Saved, hsame]
  exact h

theorem Saved.of_core {d' : Display} (h : d.Saved bit) (hd : d'.core = d.core) : d'.Saved bit := by
  have hsame : d'.mSavedDecSetFlags = d.mSavedDecSetFlags := congrArg Core.mSavedDecSetFlags hd
  rw [Saved, hsame]
  exact h

theorem Saved.ensures (h : d.Saved bit) {x : Java Display} (hx : Ensures (Draws d) x) :
    Ensures (Saved bit) x := hx.mono fun _ hd => h.of_draws hd

/-- More bits do no harm. -/
theorem or_and_ne_zero {x y : BitVec 32} (h : x &&& bit ≠ 0) : (x ||| y) &&& bit ≠ 0 := by
  intro hzero
  apply h
  apply BitVec.eq_of_getLsbD_eq
  intro i hi
  have hnone : (0 : BitVec 32).getLsbD i = false := BitVec.getLsbD_zero
  have hbit : ((x ||| y) &&& bit).getLsbD i = false := by
    rw [hzero, hnone]
  rw [BitVec.getLsbD_and, BitVec.getLsbD_or] at hbit
  rw [BitVec.getLsbD_and, hnone]
  cases hx : x.getLsbD i with
  | false => rfl
  | true =>
    rw [hx, Bool.true_or] at hbit
    exact hbit

section

variable [Platform]

theorem appearance_saved (h : d.Saved bit) (a : Appearance) : (a.run d).Saved bit := by
  by_cases hsave : ∃ bit', a = .saveMode bit'
  · obtain ⟨bit', rfl⟩ := hsave
    exact or_and_ne_zero h
  · exact h.of_core (appearance_core a fun bit' hbit => hsave ⟨bit', hbit⟩)

variable [ShortStore]

omit [Platform] in
theorem useScreen_saved (h : d.Saved bit) (setting : Bool) : Ensures (Saved bit) (d.useScreen setting) := by
  unfold useScreen
  refine .ite (fun _ => .ok h) fun _ => .ite (fun _ => ?_) fun _ => ?_
  · have hsaved : Saved bit { d.saveCursor with altActive := true } := h.of_draws saveCursor_draws
    refine .bind (P := Saved bit) (.ite (fun _ => ?_) fun _ => .ok hsaved) fun d₁ h₁ => ?_
    · exact hsaved.ensures resizeScreen_draws
    · exact h₁.ensures onScreen_draws
  · exact .ite (fun _ => .bind_any fun _ => .ok h) fun _ => .ok h

omit [Platform] in
theorem resetPage_saved (h : d.Saved bit) : Ensures (Saved bit) d.resetPage := by
  unfold resetPage
  refine .bind (P := Saved bit) ?_ fun d₁ h₁ => .ok h₁
  refine Saved.ensures ?_ blockClear_draws
  exact Saved.of_core (d := { d with
    mLeftMargin := 0
    mTopMargin := 0
    mBottomMargin := d.mRows
    mRightMargin := d.mColumns }) h (setDecsetinternalBit_core _ _)

theorem doDecSetOrReset_saved (h : d.Saved bit) (setting : Bool) (externalBit : Int) :
    Ensures (Saved bit) (d.doDecSetOrReset setting externalBit) := by
  unfold doDecSetOrReset
  extract_lets d₁
  have h₁ : d₁.Saved bit := by
    simp only [d₁]
    split
    · exact h.of_core (setDecsetinternalBit_core _ _)
    · exact h
  refine .ite (fun _ => resetPage_saved h₁) fun _ => .ite (fun _ => .ok ?_) fun _ => ?_
  · split_ifs
    · exact h₁
    · exact h₁
  refine .ite (fun _ => .ok ?_) fun _ => .ite (fun _ => .ok ?_) fun _ => ?_
  · split_ifs
    · exact h₁
    · exact h₁
  · split_ifs
    · exact h₁
    · exact h₁
  refine .ite (fun _ => .ok ?_) fun _ => .ite (fun _ => useScreen_saved h₁ setting) fun _ => .ok h₁
  split_ifs
  · exact h₁.of_draws saveCursor_draws
  · exact h₁

theorem control_saved (h : d.Saved bit) {c : Control} (hc : c ≠ .reset) :
    Ensures (Saved bit) (c.run d) := by
  cases c with
  | appearance a => exact .ok (appearance_saved h a)
  | motion m => cases m <;> exact .ok h
  | edit e => exact h.ensures (edit_draws e)
  | emit codePoint => exact h.ensures emitCodePoint_draws
  | repeatCharacter n => exact h.ensures repeatCharacter_draws
  | backspace => exact h.ensures backspace_draws
  | horizontalTab => exact .bind_any fun col => .ok h
  | forwardTab n => exact .bind_any fun col => .ok h
  | backwardTab n => exact .bind_any fun col => .ok h
  | setTabStop set => exact .bind_any fun stops => .ok h
  | clearTabStops => exact .bind_any fun stops => .ok h
  | lineFeed => exact h.ensures doLinefeed_draws
  | nextLine =>
    exact Saved.ensures (d := d.setCursorCol
      (if d.isDecsetInternalBitSet Decset.originMode then d.mLeftMargin else 0)) h doLinefeed_draws
  | reverseIndex => exact h.ensures reverseIndex_draws
  | backIndex => exact h.ensures backIndex_draws
  | forwardIndex => exact h.ensures forwardIndex_draws
  | saveCursor => exact .ok (h.of_draws saveCursor_draws)
  | restoreCursor => exact .ok h
  | setTopBottomMargins top bottom => exact .ok h
  | setLeftRightMargins left right =>
    exact .ite (fun _ => .ok h) fun _ => .ok (h.of_draws saveCursor_draws)
  | decSetOrReset setting externalBit => exact doDecSetOrReset_saved h setting externalBit
  | restoreMode externalBit internalBit => exact doDecSetOrReset_saved h _ externalBit
  | clearTranscript => exact .bind_any fun main => .ok h
  | eraseTranscript => exact .bind_any fun main => .ok h
  | setTextParameter value textParameter terminator =>
    exact (setTextParameter_core value textParameter terminator).mono fun _ hd => h.of_core hd
  | reset => exact absurd rfl hc

end

end Display

namespace Terminal

open Display (Saved)

section

variable [ShortStore] [Platform] {t t' : Terminal} {bit : BitVec 32}

omit [ShortStore] [Platform] in
theorem spares_ne_reset {c : Control} (h : c.spares bit = true) : c ≠ .reset := by
  rintro rfl
  cases h

theorem take_saved (h : t.toDisplay.Saved bit) (given : Given) (hspares : t.spares bit given = true) :
    Ensures (fun t' => t'.toDisplay.Saved bit) (t.take given) := by
  cases given with
  | codePoint c =>
    intro t' ht'
    obtain ⟨⟨p, controls⟩, hp, hrun⟩ := bind_eq_ok.mp ht'
    obtain ⟨d, hd, hlast⟩ := bind_eq_ok.mp hrun
    cases hlast
    rw [spares, hp] at hspares
    have hall := List.all_eq_true.mp hspares
    exact Ensures.foldlM (Q := Saved bit) controls (fun d c hc hs =>
      Display.control_saved hs (spares_ne_reset (hall c hc))) h d hd
  | broken => exact .bind (h.ensures Display.emitCodePoint_draws) fun d hd => .ok hd
  | size columns rows => exact .bind (h.ensures Display.resize_draws) fun d hd => .ok hd

theorem leads_saved {given : List Given} (h : t.toDisplay.Saved bit)
    (hleads : t.leads bit given = some t') : t'.toDisplay.Saved bit := by
  induction given generalizing t with
  | nil =>
    cases hleads
    exact h
  | cons first rest ih =>
    rw [leads] at hleads
    split_ifs at hleads with hspares
    cases hfirst : t.take first with
    | error x =>
      rw [hfirst] at hleads
      cases hleads
    | ok t₁ =>
      rw [hfirst] at hleads
      exact ih (take_saved h first hspares t₁ hfirst) hleads

/-! ## One mode -/

omit [ShortStore] [Platform] in
/-- What is issued for `CSI ? m s` and `CSI ? m r`. -/
theorem asked_issues {m : Int} (h : t.Asked m) (save : Bool) :
    ∃ p, t.toParser.processCodePoint (if save then 's'.toNat else 'r'.toNat) =
      .ok (p, Parser.saveOrRestoreMode save m) := by
  let p₀ : Parser := { t.toParser with mContinueSequence := false }
  obtain ⟨-, hget⟩ := arrayGet_eq_ok.mp h.mode
  have hlen : 0 < t.mArgs.length := (List.getElem?_eq_some_iff.mp hget).1
  have hclamp : p₀.clampArgIndex = p₀ := by
    have hindex : p₀.mArgIndex = 0 := h.index
    have hlt : ¬(p₀.mArgs.length : Int) ≤ p₀.mArgIndex := by
      change ¬(t.mArgs.length : Int) ≤ p₀.mArgIndex
      omega
    rw [Parser.clampArgIndex, if_neg hlt]
  have hgiven : p₀.givenArgs = .ok [m] := by
    have hindex : p₀.mArgIndex = 0 := h.index
    have hmode : arrayGet p₀.mArgs 0 = .ok m := h.mode
    rw [Parser.givenArgs, hindex]
    change [(0 : Int)].mapM (fun i => arrayGet p₀.mArgs i) = _
    rw [List.mapM_cons, hmode]
    rfl
  have hdispatch : p₀.dispatch (if save then 's'.toNat else 'r'.toNat) =
      .ok (p₀, Parser.saveOrRestoreMode save m) := by
    have hstate : p₀.mEscapeState = .csiQuestionmark := h.state
    have hmodes : p₀.saveOrRestoreModes save = .ok (p₀, Parser.saveOrRestoreMode save m) := by
      simp only [Parser.saveOrRestoreModes, hclamp, hgiven, ok_bind, List.flatMap_cons,
        List.flatMap_nil, List.append_nil]
      rfl
    unfold Parser.dispatch
    rw [hstate]
    cases save
    · exact hmodes
    · exact hmodes
  refine ⟨if p₀.mContinueSequence then p₀ else p₀.finishSequence, ?_⟩
  have hcontrol : t.toParser.processCodePoint (if save then 's'.toNat else 'r'.toNat) =
      (p₀.dispatch (if save then 's'.toNat else 'r'.toNat) >>= fun r =>
        .ok (if r.1.mContinueSequence then r.1 else r.1.finishSequence, r.2)) := by
    cases save <;> rfl
  rw [hcontrol, hdispatch]
  rfl

omit [ShortStore] [Platform] in
theorem internalBit_ne_zero {m : Int} (hm : mapDecSetBitToInternalBit m = some bit) : bit ≠ 0 := by
  unfold mapDecSetBitToInternalBit at hm
  split at hm <;> cases hm <;> decide

omit [ShortStore] [Platform] in
theorem setDecsetinternalBit_set {d : Display} (hbit : bit ≠ 0) (setting : Bool) :
    (d.setDecsetinternalBit bit setting).isDecsetInternalBitSet bit = setting := by
  unfold Display.setDecsetinternalBit Display.isDecsetInternalBitSet
  cases setting with
  | false =>
    simp only [Bool.false_eq_true, if_false, decide_eq_false_iff_not, not_not]
    apply BitVec.eq_of_getLsbD_eq
    intro i hi
    simp only [BitVec.getLsbD_and, BitVec.getLsbD_not]
    cases bit.getLsbD i <;> simp
  | true =>
    simp only [if_true, decide_eq_true_eq]
    rw [BitVec.or_comm]
    apply Display.or_and_ne_zero
    rw [BitVec.and_self]
    exact hbit

/-- Restoring a mode gives its bit the saved value. -/
theorem doDecSetOrReset_bit {d : Display} {m : Int} (hm : mapDecSetBitToInternalBit m = some bit)
    (setting : Bool) : ∃ d', d.doDecSetOrReset setting m = .ok d' ∧
      d'.isDecsetInternalBitSet bit = setting := by
  have hset := setDecsetinternalBit_set (d := d) (internalBit_ne_zero hm) setting
  have hnot {n : Int} (hn : mapDecSetBitToInternalBit n = none) : m ≠ n := by
    rintro rfl
    rw [hn] at hm
    cases hm
  unfold Display.doDecSetOrReset
  rw [hm]
  simp only [if_neg (hnot (n := 3) rfl), if_neg (hnot (n := 1048) rfl)]
  rw [if_neg (show ¬m ∈ [(47 : Int), 1047, 1049] by
    simp [hnot (n := 47) rfl, hnot (n := 1047) rfl, hnot (n := 1049) rfl])]
  split_ifs
  all_goals exact ⟨_, rfl, hset⟩

/-- `CSI ? m s` and `CSI ? m r`, with anything between them but a reset or another save of `m`, leave
the mode as it was when it was saved if and only if it was set then. -/
theorem restored_iff {m : Int} (hm : mapDecSetBitToInternalBit m = some bit) {t₀ t₁ t₂ t₃ : Terminal}
    {given : List Given} (hsave : t₀.Asked m) (h₁ : t₀.processCodePoint 's'.toNat = .ok t₁)
    (hleads : t₁.leads bit given = some t₂) (hrestore : t₂.Asked m)
    (h₃ : t₂.processCodePoint 'r'.toNat = .ok t₃) :
    t₃.isDecsetInternalBitSet bit = t₀.isDecsetInternalBitSet bit ↔
      t₀.isDecsetInternalBitSet bit = true := by
  have hbit := internalBit_ne_zero hm
  obtain ⟨p₁, hp₁⟩ := asked_issues hsave true
  obtain ⟨p₃, hp₃⟩ := asked_issues hrestore false
  simp only [if_true, Bool.false_eq_true, if_false] at hp₁ hp₃
  have hsaved : t₁.toDisplay.Saved bit := by
    unfold Terminal.processCodePoint at h₁
    rw [hp₁, ok_bind, Parser.saveOrRestoreMode, hm] at h₁
    cases h₁
    change (t₀.mSavedDecSetFlags ||| bit) &&& bit ≠ 0
    rw [BitVec.or_comm]
    apply Display.or_and_ne_zero
    rw [BitVec.and_self]
    exact hbit
  have hset : t₃.isDecsetInternalBitSet bit = true := by
    have hsaved₂ : decide (t₂.mSavedDecSetFlags &&& bit ≠ 0) = true :=
      decide_eq_true (leads_saved hsaved hleads)
    obtain ⟨d, hd, hbitset⟩ := doDecSetOrReset_bit (d := t₂.toDisplay) hm true
    unfold Terminal.processCodePoint at h₃
    rw [hp₃, ok_bind, Parser.saveOrRestoreMode, hm] at h₃
    simp only [Bool.false_eq_true, if_false, Display.perform, List.foldlM_cons, List.foldlM_nil,
      Control.run, bind_pure, hsaved₂, hd, ok_bind] at h₃
    cases h₃
    exact hbitset
  rw [hset]
  exact eq_comm

end

/-- A new terminal that reads `CSI ? m`, saves the mode, reads `CSI ? m` again and restores the mode,
with the states around both. -/
def saveRestore (bit : BitVec 32) (digit : Nat) : Java (Terminal × Terminal × Terminal × Terminal) := do
  let e ← @TerminalEmulator.new javaShort plainPlatform 4 4 (some 100)
  let e ← @TerminalEmulator.append javaShort plainPlatform e [0x1b, 0x5b, 0x3f, BitVec.ofNat 8 digit]
  let t₁ ← @Terminal.processCodePoint javaShort plainPlatform e.toTerminal 's'.toNat
  match @Terminal.leads javaShort plainPlatform bit t₁
    [.codePoint 0x1b, .codePoint 0x5b, .codePoint 0x3f, .codePoint digit] with
  | none => .error .illegalArgument
  | some t₂ => do
    let t₃ ← @Terminal.processCodePoint javaShort plainPlatform t₂ 'r'.toNat
    return (e.toTerminal, t₁, t₂, t₃)

/-- The states of such a run, by what is seen of them. -/
theorem saveRestore_states {bit : BitVec 32} {digit : Nat} {m : Int} {before after : Bool}
    (h : (saveRestore bit digit).map (fun (t₀, _, t₂, t₃) =>
      ((t₀.mEscapeState, t₀.mArgIndex, arrayGet t₀.mArgs 0),
        (t₂.mEscapeState, t₂.mArgIndex, arrayGet t₂.mArgs 0),
        t₀.isDecsetInternalBitSet bit, t₃.isDecsetInternalBitSet bit)) =
      .ok ((.csiQuestionmark, 0, .ok m), (.csiQuestionmark, 0, .ok m), before, after)) :
    ∃ (e : TerminalEmulator) (t₁ t₂ t₃ : Terminal) (given : List Given),
      (@TerminalEmulator.new javaShort plainPlatform 4 4 (some 100) >>= fun e =>
        @TerminalEmulator.append javaShort plainPlatform e [0x1b, 0x5b, 0x3f, BitVec.ofNat 8 digit]) =
        .ok e ∧
      e.toTerminal.Asked m ∧
      @Terminal.processCodePoint javaShort plainPlatform e.toTerminal 's'.toNat = .ok t₁ ∧
      @Terminal.leads javaShort plainPlatform bit t₁ given = some t₂ ∧ t₂.Asked m ∧
      @Terminal.processCodePoint javaShort plainPlatform t₂ 'r'.toNat = .ok t₃ ∧
      e.isDecsetInternalBitSet bit = before ∧ t₃.isDecsetInternalBitSet bit = after := by
  obtain ⟨⟨t₀, t₁, t₂, t₃⟩, hrun, hvalues⟩ := exists_of_map_eq_ok h
  unfold saveRestore at hrun
  obtain ⟨e₀, hnew, hrun⟩ := bind_eq_ok.mp hrun
  obtain ⟨e, hread, hrun⟩ := bind_eq_ok.mp hrun
  obtain ⟨t₁', h₁, hrun⟩ := bind_eq_ok.mp hrun
  cases h₂ : @Terminal.leads javaShort plainPlatform bit t₁'
      [.codePoint 0x1b, .codePoint 0x5b, .codePoint 0x3f, .codePoint digit] with
  | none =>
    rw [h₂] at hrun
    cases hrun
  | some t₂' =>
    rw [h₂] at hrun
    obtain ⟨t₃', h₃, hrun⟩ := bind_eq_ok.mp hrun
    cases hrun
    simp only [Prod.mk.injEq] at hvalues
    obtain ⟨⟨h₄, h₅, h₆⟩, ⟨h₇, h₈, h₉⟩, hbefore, hafter⟩ := hvalues
    refine ⟨e, t₁, t₂, t₃, _, ?_, ⟨h₄, h₅, h₆⟩, h₁, h₂, ⟨h₇, h₈, h₉⟩, h₃, hbefore, hafter⟩
    rw [hnew, ok_bind, hread]

/-- Autowrap is set when it is saved, and set again when it is restored. -/
theorem restored_iff_autowrap : ∃ (e : TerminalEmulator) (t₁ t₂ t₃ : Terminal) (given : List Given),
    e.toTerminal.Asked 7 ∧
    @Terminal.processCodePoint javaShort plainPlatform e.toTerminal 's'.toNat = .ok t₁ ∧
    @Terminal.leads javaShort plainPlatform Decset.autowrap t₁ given = some t₂ ∧ t₂.Asked 7 ∧
    @Terminal.processCodePoint javaShort plainPlatform t₂ 'r'.toNat = .ok t₃ ∧
    t₃.isDecsetInternalBitSet Decset.autowrap = e.isDecsetInternalBitSet Decset.autowrap := by
  obtain ⟨e, t₁, t₂, t₃, given, -, hsave, h₁, h₂, hrestore, h₃, hbefore, -⟩ :=
    @saveRestore_states Decset.autowrap 0x37 7 true true (by decide +kernel)
  exact ⟨e, t₁, t₂, t₃, given, hsave, h₁, h₂, hrestore, h₃,
    (@restored_iff javaShort plainPlatform Decset.autowrap 7 rfl _ _ _ _ _ hsave h₁ h₂ hrestore h₃).mpr
      hbefore⟩

/-- The application cursor keys of a new terminal are not set when they are saved, and set when they
are restored. -/
theorem reset_mode_restored_set : ∃ (e : TerminalEmulator) (t₁ t₂ t₃ : Terminal) (given : List Given),
    (@TerminalEmulator.new javaShort plainPlatform 4 4 (some 100) >>= fun e =>
      @TerminalEmulator.append javaShort plainPlatform e [0x1b, 0x5b, 0x3f, BitVec.ofNat 8 0x31]) =
      .ok e ∧
    e.toTerminal.Asked 1 ∧
    @Terminal.processCodePoint javaShort plainPlatform e.toTerminal 's'.toNat = .ok t₁ ∧
    @Terminal.leads javaShort plainPlatform Decset.applicationCursorKeys t₁ given = some t₂ ∧
    t₂.Asked 1 ∧ @Terminal.processCodePoint javaShort plainPlatform t₂ 'r'.toNat = .ok t₃ ∧
    t₃.isDecsetInternalBitSet Decset.applicationCursorKeys ≠
      e.isDecsetInternalBitSet Decset.applicationCursorKeys := by
  obtain ⟨e, t₁, t₂, t₃, given, hread, hsave, h₁, h₂, hrestore, h₃, hbefore, hafter⟩ :=
    @saveRestore_states Decset.applicationCursorKeys 0x31 1 false true (by decide +kernel)
  refine ⟨e, t₁, t₂, t₃, given, hread, hsave, h₁, h₂, hrestore, h₃, ?_⟩
  rw [hbefore, hafter]
  decide

end Terminal

end XoDos
