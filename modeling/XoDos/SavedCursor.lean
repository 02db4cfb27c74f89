import XoDos.CursorBounds
import XoDos.Runs

/-!
# Saved cursors and the other screen

A program may run on the alternate screen, or between DECSC and DECRC, for as long as it likes.  What it
does there leaves the saved cursor alone, and on the alternate screen also the main screen, unless it
saves a cursor itself, changes screens, resets the terminal or clears the history.
-/

namespace XoDos

namespace Geometry

variable {g g' g'' : Geometry}

/-- The size of the terminal, the choice of the screen, the saved cursors and, on the alternate screen,
the main screen are the same. -/
structure Untouched (g g' : Geometry) : Prop where
  rows : g'.mRows = g.mRows
  columns : g'.mColumns = g.mColumns
  altActive : g'.altActive = g.altActive
  savedMain : g'.mSavedStateMain = g.mSavedStateMain
  savedAlt : g'.mSavedStateAlt = g.mSavedStateAlt
  main : g.altActive = true → g'.mMainBuffer = g.mMainBuffer

instance (g : Geometry) : Decidable (Legal g) :=
  decidable_of_iff ((0 ≤ g.mCursorRow ∧ g.mCursorRow < g.mRows) ∧
      (0 ≤ g.mCursorCol ∧ g.mCursorCol < g.mColumns) ∧ 0 ≤ g.mTopMargin ∧
      (g.mTopMargin + 2 ≤ g.mBottomMargin ∧ g.mBottomMargin ≤ g.mRows) ∧ 0 ≤ g.mLeftMargin ∧
      (g.mLeftMargin < g.mRightMargin ∧ g.mRightMargin ≤ g.mColumns))
    ⟨fun h => ⟨h.1, h.2.1, h.2.2.1, h.2.2.2.1, h.2.2.2.2.1, h.2.2.2.2.2⟩,
      fun h => ⟨h.row, h.column, h.top, h.bottom, h.left, h.right⟩⟩

instance (g : Geometry) : Decidable (Fits g) := inferInstanceAs (Decidable (_ ∧ _))

theorem Untouched.refl (g : Geometry) : Untouched g g := ⟨rfl, rfl, rfl, rfl, rfl, fun _ => rfl⟩

theorem Untouched.of_eq (h : g' = g) : Untouched g g' := by
  rw [h]
  exact .refl g

theorem Untouched.trans (h : Untouched g g') (h' : Untouched g' g'') : Untouched g g'' where
  rows := h'.rows.trans h.rows
  columns := h'.columns.trans h.columns
  altActive := h'.altActive.trans h.altActive
  savedMain := h'.savedMain.trans h.savedMain
  savedAlt := h'.savedAlt.trans h.savedAlt
  main := fun ha => (h'.main (h.altActive.trans ha)).trans (h.main ha)

theorem Drawn.untouched (h : Drawn False g g') : Untouched g g' :=
  ⟨h.rows, h.columns, h.altActive, h.savedMain, h.savedAlt, h.main⟩

/-- The terminal shows the alternate screen, and `g` was left for it. -/
structure Aside (g g' : Geometry) : Prop where
  rows : g'.mRows = g.mRows
  columns : g'.mColumns = g.mColumns
  altActive : g'.altActive = true
  savedMain : g'.mSavedStateMain = g.mSavedStateMain
  main : g'.mMainBuffer = g.mMainBuffer

theorem Aside.untouched (h : Aside g g') (h' : Untouched g' g'') : Aside g g'' where
  rows := h'.rows.trans h.rows
  columns := h'.columns.trans h.columns
  altActive := h'.altActive.trans h.altActive
  savedMain := h'.savedMain.trans h.savedMain
  main := (h'.main h.altActive).trans h.main

end Geometry

/-- The modes that change screens. -/
def screenModes : List Int := [47, 1047, 1049]

namespace Control

/-- A control that saves no cursor, stays on its screen and neither resets the terminal nor clears the
history. -/
def Quiet (d : Display) : Control → Prop
  | saveCursor | clearTranscript | eraseTranscript | reset => False
  | setLeftRightMargins _ _ => d.isDecsetInternalBitSet Decset.leftrightMarginMode = true
  | decSetOrReset setting externalBit =>
    externalBit ∉ screenModes ∧ (setting = true → externalBit ≠ 1048)
  | restoreMode externalBit _ => externalBit ∉ screenModes ∧ externalBit ≠ 1048
  | _ => True

instance (d : Display) : DecidablePred (Quiet d) := by
  intro c
  cases c with
  | setLeftRightMargins left right =>
    exact inferInstanceAs (Decidable (d.isDecsetInternalBitSet Decset.leftrightMarginMode = true))
  | decSetOrReset setting externalBit =>
    exact inferInstanceAs (Decidable (externalBit ∉ screenModes ∧ (setting = true → externalBit ≠ 1048)))
  | restoreMode externalBit internalBit =>
    exact inferInstanceAs (Decidable (externalBit ∉ screenModes ∧ externalBit ≠ 1048))
  | saveCursor => exact .isFalse id
  | clearTranscript => exact .isFalse id
  | eraseTranscript => exact .isFalse id
  | reset => exact .isFalse id
  | _ => exact .isTrue trivial

/-- A control that does not leave the alternate screen and neither resets the terminal nor clears the
history. -/
def StaysOnAlternate : Control → Prop
  | clearTranscript | eraseTranscript | reset => False
  | decSetOrReset setting externalBit => setting = false → externalBit ∉ screenModes
  | restoreMode externalBit _ => externalBit ∉ screenModes
  | _ => True

instance : DecidablePred StaysOnAlternate := by
  intro c
  cases c with
  | decSetOrReset setting externalBit =>
    exact inferInstanceAs (Decidable (setting = false → externalBit ∉ screenModes))
  | restoreMode externalBit internalBit => exact inferInstanceAs (Decidable (externalBit ∉ screenModes))
  | clearTranscript => exact .isFalse id
  | eraseTranscript => exact .isFalse id
  | reset => exact .isFalse id
  | _ => exact .isTrue trivial

end Control

namespace Display

open XoDos.Geometry (Untouched Aside Drawn Edited Legal Fits)

variable {d : Display}

/-- What DECSC saves. -/
def toSave (d : Display) : SavedScreenState where
  mSavedCursorRow := d.mCursorRow
  mSavedCursorCol := d.mCursorCol
  mSavedEffect := d.mEffect
  mSavedForeColor := d.mForeColor
  mSavedBackColor := d.mBackColor
  mSavedDecFlags := d.mCurrentDecSetFlags
  mUseLineDrawingG0 := d.mUseLineDrawingG0
  mUseLineDrawingG1 := d.mUseLineDrawingG1
  mUseLineDrawingUsesG0 := d.mUseLineDrawingUsesG0

/-- The cursor is where it was, and what is typed next looks as it would have. -/
structure Restored (d d' : Display) : Prop where
  row : d'.mCursorRow = d.mCursorRow
  column : d'.mCursorCol = d.mCursorCol
  effect : d'.mEffect = d.mEffect
  foreColor : d'.mForeColor = d.mForeColor
  backColor : d'.mBackColor = d.mBackColor
  modes : ∀ bit ∈ [Decset.autowrap, Decset.originMode],
    d'.isDecsetInternalBitSet bit = d.isDecsetInternalBitSet bit
  lineDrawingG0 : d'.mUseLineDrawingG0 = d.mUseLineDrawingG0
  lineDrawingG1 : d'.mUseLineDrawingG1 = d.mUseLineDrawingG1
  lineDrawingUsesG0 : d'.mUseLineDrawingUsesG0 = d.mUseLineDrawingUsesG0

theorem backspace_untouched :
    Ensures (fun d' => Untouched d.toGeometry d'.toGeometry) d.backspace := by
  unfold backspace
  refine .ite (fun _ => .ite (fun _ => .bind_any fun wrapped => ?_) fun _ => .ok (.refl _)) fun _ =>
    .ok ⟨rfl, rfl, rfl, rfl, rfl, fun _ => rfl⟩
  refine .ite (fun _ => ?_) fun _ => .ok (.refl _)
  have hscreen : Upholds False (fun d' => Edited False d.toGeometry d'.toGeometry) fun _ =>
      d.onScreen fun b => b.clearLineWrap (d.mCursorRow - 1) :=
    onScreen_upholds (TerminalBuffer.putLineWrap_upholds False.elim False.elim)
  refine .bind (hscreen.ensures id) fun d₁ h₁ => .ok ?_
  exact (h₁.steps.trans (setCursorRowCol_steps d₁ _ _)).untouched

theorem resetPage_untouched :
    Ensures (fun d' => Untouched d.toGeometry d'.toGeometry) d.resetPage := by
  unfold resetPage
  extract_lets d₁ d₂
  have hfirst : Untouched d.toGeometry d₁.toGeometry := ⟨rfl, rfl, rfl, rfl, rfl, fun _ => rfl⟩
  have hmode : Untouched d₁.toGeometry d₂.toGeometry := .of_eq (setDecsetinternalBit_geometry _ _)
  have hclear : Upholds False (fun d' => Edited False d₂.toGeometry d'.toGeometry) fun _ =>
      d₂.blockClear 0 0 d₂.mColumns d₂.mRows := blockClear_edited False.elim False.elim
  refine .bind (hclear.ensures id) fun d₃ h₃ => .ok ?_
  exact (hfirst.trans hmode).trans (h₃.steps.trans (setCursorRowCol_steps d₃ 0 0)).untouched

variable [Platform]

theorem doDecSetOrReset_untouched {setting : Bool} {externalBit : Int}
    (hscreen : externalBit ∉ screenModes) (hsave : setting = true → externalBit ≠ 1048) :
    Ensures (fun d' => Untouched d.toGeometry d'.toGeometry) (d.doDecSetOrReset setting externalBit) := by
  unfold doDecSetOrReset
  extract_lets d₁
  have h₁ : Untouched d.toGeometry d₁.toGeometry := by
    simp only [d₁]
    split
    · exact .of_eq (setDecsetinternalBit_geometry _ _)
    · exact .refl _
  refine .ite (fun _ => resetPage_untouched.mono fun _ h₂ => h₁.trans h₂) fun _ =>
    .ite (fun _ => .ok ?_) fun _ => .ite (fun _ => .ok ?_) fun _ => .ite (fun _ => .ok ?_) fun _ =>
    .ite (fun h₁₀₄₈ => .ok ?_) fun _ => .ite (fun hmode => absurd hmode hscreen) fun _ => .ok h₁
  · split_ifs
    · exact h₁.trans (setCursorRowCol_steps d₁ _ _).untouched
    · exact h₁
  · split_ifs
    · exact h₁
    · exact h₁
  · split_ifs
    · exact h₁
    · exact h₁.trans ⟨rfl, rfl, rfl, rfl, rfl, fun _ => rfl⟩
  · rw [if_neg fun hset => hsave hset h₁₀₄₈]
    exact h₁.trans (restoreCursor_steps d₁).untouched

/-- What a quiet control leaves alone. -/
theorem control_untouched {c : Control} (hc : c.Quiet d) :
    Ensures (fun d' => Untouched d.toGeometry d'.toGeometry) (c.run d) := by
  have hmoved : ∀ d' : Display, d'.toGeometry = { d.toGeometry with
      mCursorCol := d'.mCursorCol, mAboutToAutoWrap := d'.mAboutToAutoWrap, mTabStop := d'.mTabStop } →
        Untouched d.toGeometry d'.toGeometry := by
    intro d' h
    rw [h]
    exact ⟨rfl, rfl, rfl, rfl, rfl, fun _ => rfl⟩
  -- The controls that could touch the saved cursor, or take history away, are not quiet.
  cases c with
  | appearance a => exact .ok (.of_eq (appearance_geometry a))
  | motion m => exact .ok (motion_steps d m).untouched
  | edit e =>
    exact ((edit_edited (S := False) False.elim e False.elim).ensures id).mono fun _ he => he.untouched
  | emit codePoint => exact (emitCodePoint_steps d codePoint).mono fun _ hd => hd.untouched
  | repeatCharacter n => exact (repeatCharacter_steps d n).mono fun _ hd => hd.untouched
  | backspace => exact backspace_untouched
  | horizontalTab => exact .bind_any fun col => .ok (hmoved _ rfl)
  | forwardTab n => exact .bind_any fun col => .ok (hmoved _ rfl)
  | backwardTab n => exact .bind_any fun col => .ok (hmoved _ rfl)
  | setTabStop set => exact .bind_any fun stops => .ok (hmoved _ rfl)
  | clearTabStops => exact .bind_any fun stops => .ok (hmoved _ rfl)
  | lineFeed => exact ((doLinefeed_steps False.elim).ensures id).mono fun _ hd => hd.1.untouched
  | nextLine =>
    simp only [Control.run]
    generalize (if d.isDecsetInternalBitSet Decset.originMode then d.mLeftMargin else 0) = col
    exact ((doLinefeed_steps (d := d.setCursorCol col) False.elim).ensures id).mono fun _ hd =>
      Untouched.trans (hmoved (d.setCursorCol col) rfl) hd.1.untouched
  | reverseIndex => exact ((reverseIndex_steps False.elim).ensures id).mono fun _ hd => hd.1.untouched
  | backIndex => exact ((backIndex_steps False.elim).ensures id).mono fun _ hd => hd.1.untouched
  | forwardIndex => exact ((forwardIndex_steps False.elim).ensures id).mono fun _ hd => hd.1.untouched
  | saveCursor => exact hc.elim
  | restoreCursor => exact .ok (restoreCursor_steps d).untouched
  | setTopBottomMargins top bottom => exact .ok ⟨rfl, rfl, rfl, rfl, rfl, fun _ => rfl⟩
  | setLeftRightMargins left right =>
    have hmode : d.isDecsetInternalBitSet Decset.leftrightMarginMode = true := hc
    rw [Control.run, if_pos hmode]
    exact .ok ⟨rfl, rfl, rfl, rfl, rfl, fun _ => rfl⟩
  | decSetOrReset setting externalBit => exact doDecSetOrReset_untouched hc.1 hc.2
  | restoreMode externalBit internalBit => exact doDecSetOrReset_untouched hc.1 fun _ => hc.2
  | clearTranscript => exact hc.elim
  | eraseTranscript => exact hc.elim
  | setTextParameter value textParameter terminator =>
    exact (setTextParameter_core value textParameter terminator).mono fun _ hd =>
      .of_eq (congrArg Core.geometry hd)
  | reset => exact hc.elim

/-! ## On the alternate screen -/

omit [Platform] in
theorem saveCursor_aside {g : Geometry} (h : Aside g d.toGeometry) : Aside g d.saveCursor.toGeometry := by
  unfold saveCursor
  rw [if_pos h.altActive]
  exact ⟨h.rows, h.columns, h.altActive, h.savedMain, h.main⟩

/-- The modes that change screens have no bit of their own. -/
theorem doDecSetOrReset_screen (d : Display) {setting : Bool} {m : Int} (hm : m ∈ screenModes) :
    d.doDecSetOrReset setting m = d.useScreen setting := by
  simp only [screenModes, List.mem_cons, List.not_mem_nil, or_false] at hm
  rcases hm with rfl | rfl | rfl <;> rfl

theorem doDecSetOrReset_aside {g : Geometry} (h : Aside g d.toGeometry) {setting : Bool} {externalBit : Int}
    (hscreen : setting = false → externalBit ∉ screenModes) :
    Ensures (fun d' => Aside g d'.toGeometry) (d.doDecSetOrReset setting externalBit) := by
  cases setting with
  | false =>
    have hstays := hscreen rfl
    exact (doDecSetOrReset_untouched hstays Bool.noConfusion).mono fun _ hd => h.untouched hd
  | true =>
    by_cases hmode : externalBit ∈ screenModes
    · -- The alternate screen is shown already.
      rw [doDecSetOrReset_screen d hmode, useScreen, if_pos h.altActive.symm]
      exact .ok h
    · by_cases hsave : externalBit = 1048
      · rw [hsave]
        exact .ok (saveCursor_aside h)
      · exact (doDecSetOrReset_untouched hmode fun _ => hsave).mono fun _ hd => h.untouched hd

/-- What is done on the alternate screen without leaving it. -/
theorem control_aside {g : Geometry} (h : Aside g d.toGeometry) {c : Control} (hc : c.StaysOnAlternate) :
    Ensures (fun d' => Aside g d'.toGeometry) (c.run d) := by
  by_cases hquiet : c.Quiet d
  · exact (control_untouched hquiet).mono fun _ hd => h.untouched hd
  · cases c with
    | saveCursor => exact .ok (saveCursor_aside h)
    | setLeftRightMargins left right =>
      have hmode : ¬d.isDecsetInternalBitSet Decset.leftrightMarginMode = true := hquiet
      rw [Control.run, if_neg hmode]
      exact .ok (saveCursor_aside h)
    | decSetOrReset setting externalBit => exact doDecSetOrReset_aside h hc
    | restoreMode externalBit internalBit => exact doDecSetOrReset_aside h fun _ => hc
    | clearTranscript => exact hc.elim
    | eraseTranscript => exact hc.elim
    | reset => exact hc.elim
    | _ => exact absurd trivial hquiet

/-! ## Restoring -/

omit [Platform] in
theorem saveCursor_saved (d : Display) :
    d.saveCursor.mRows = d.mRows ∧ d.saveCursor.mColumns = d.mColumns ∧
      d.saveCursor.altActive = d.altActive ∧
      (if d.saveCursor.altActive then d.saveCursor.mSavedStateAlt else d.saveCursor.mSavedStateMain) =
        d.toSave := by
  cases halt : d.altActive with
  | true => simp [saveCursor, halt, toSave]
  | false => simp [saveCursor, halt, toSave]

omit [Platform] in
theorem masked_bit (flags saved : BitVec 32) {bit mask : BitVec 32} (hbit : bit &&& mask = bit) :
    ((flags &&& ~~~mask) ||| (saved &&& mask)) &&& bit = saved &&& bit := by
  apply BitVec.eq_of_getLsbD_eq
  intro i hi
  have hi' : (bit.getLsbD i && mask.getLsbD i) = bit.getLsbD i := by
    rw [← BitVec.getLsbD_and, hbit]
  simp only [BitVec.getLsbD_and, BitVec.getLsbD_or, BitVec.getLsbD_not, hi, decide_true, Bool.true_and]
  revert hi'
  cases bit.getLsbD i <;> cases mask.getLsbD i <;> simp

omit [Platform] in
theorem restoreCursor_restores {d₀ d : Display} (hlegal : Legal d₀.toGeometry) (hrows : d.mRows = d₀.mRows)
    (hcolumns : d.mColumns = d₀.mColumns)
    (hsaved : (if d.altActive then d.mSavedStateAlt else d.mSavedStateMain) = d₀.toSave) :
    Restored d₀ d.restoreCursor := by
  have hrow := hlegal.row
  have hcol := hlegal.column
  unfold restoreCursor
  rw [hsaved]
  refine ⟨?_, ?_, rfl, rfl, rfl, ?_, rfl, rfl, rfl⟩
  · change max 0 (min d₀.mCursorRow (d.mRows - 1)) = d₀.mCursorRow
    omega
  · change max 0 (min d₀.mCursorCol (d.mColumns - 1)) = d₀.mCursorCol
    omega
  · intro bit hbit
    have hmask : bit &&& (Decset.autowrap ||| Decset.originMode) = bit := by
      simp only [List.mem_cons, List.not_mem_nil, or_false] at hbit
      rcases hbit with rfl | rfl <;> decide
    unfold isDecsetInternalBitSet
    simp only [toSave, masked_bit _ _ hmask]

omit [Platform] in
theorem saveCursor_main (hmain : d.altActive = false) :
    d.saveCursor.toGeometry = { d.toGeometry with mSavedStateMain := d.toSave } := by
  unfold saveCursor
  rw [if_neg (by rw [hmain]; decide)]
  rfl

omit [Platform] in
theorem resizeScreen_aside {g : Geometry} (h : Aside g d.toGeometry) :
    Ensures (fun d' => Aside g d'.toGeometry) d.resizeScreen := by
  have halt := h.altActive
  unfold resizeScreen
  refine .bind_any fun r => .ok ?_
  simp only [setScreen, halt, if_true]
  exact ⟨h.rows, h.columns, rfl, h.savedMain, h.main⟩

theorem enter_aside {m : Int} (hm : m ∈ screenModes) (hmain : d.altActive = false) :
    Ensures (fun d' => Aside d.saveCursor.toGeometry d'.toGeometry)
      ((Control.decSetOrReset true m).run d) := by
  have hentered : Aside d.saveCursor.toGeometry { d.saveCursor.toGeometry with altActive := true } :=
    ⟨rfl, rfl, rfl, rfl, rfl⟩
  rw [Control.run, doDecSetOrReset_screen d hm]
  unfold useScreen
  refine .ite (fun hsame => ?_) fun _ => .ite (fun _ => ?_) fun hset => absurd rfl hset
  · rw [hmain] at hsame
    cases hsame
  · refine .bind (P := fun d₁ => Aside d.saveCursor.toGeometry d₁.toGeometry)
      (.ite (fun _ => resizeScreen_aside hentered) fun _ => .ok hentered) fun d₁ h₁ => ?_
    have hclear : Upholds False (fun d' => Edited False d₁.toGeometry d'.toGeometry) fun _ =>
        d₁.onScreen fun b => b.blockSet 0 0 d₁.mColumns d₁.mRows 0x20 d₁.getStyle :=
      blockSet_edited False.elim False.elim False.elim
    exact (hclear.ensures id).mono fun _ h₂ => h₁.untouched h₂.untouched

theorem leave_restores {d₀ : Display} {m : Int} (hm : m ∈ screenModes) (hmain : d₀.altActive = false)
    (hlegal : Legal d₀.toGeometry) (hfits : Fits d₀.toGeometry)
    (h : Aside d₀.saveCursor.toGeometry d.toGeometry) :
    Ensures (fun d' => d'.altActive = false ∧ d'.mMainBuffer = d₀.mMainBuffer ∧ d'.mRows = d₀.mRows ∧
      d'.mColumns = d₀.mColumns ∧ d₀.Restored d') ((Control.decSetOrReset false m).run d) := by
  rw [saveCursor_main hmain] at h
  have hmainFits : d.mMainBuffer.mColumns = d.mColumns ∧ d.mMainBuffer.mScreenRows = d.mRows := by
    simp only [Fits, Geometry.mScreen, hmain, Bool.false_eq_true, if_false] at hfits
    rw [h.main, h.rows, h.columns]
    exact hfits
  rw [Control.run, doDecSetOrReset_screen d hm]
  unfold useScreen
  refine .ite (fun hsame => ?_) fun _ => .ite (fun hset => absurd hset Bool.false_ne_true) fun _ =>
    .ite (fun hresized => ?_) fun _ => .ok ?_
  · rw [h.altActive] at hsame
    cases hsame
  · rw [if_neg Bool.false_ne_true, decide_eq_true_eq] at hresized
    exact absurd hmainFits hresized
  · have hrestored := restoreCursor_restores (d := { d with altActive := false }) hlegal h.rows h.columns
      h.savedMain
    exact ⟨rfl, h.main, h.rows, h.columns, hrestored⟩

end Display

/-! ## Runs -/

namespace Terminal

open XoDos.Geometry (Untouched Aside Legal Fits)

variable [Platform] {t : Terminal}

/-- The controls that a code point issues. -/
def issues (t : Terminal) (b : Nat) : Java (List Control) :=
  t.toParser.processCodePoint b >>= fun r => .ok r.2

/-- All that a code point issues is admitted. -/
def Admits (ok : Display → Control → Prop) (t : Terminal) (b : Nat) : Prop :=
  match t.issues b with
  | .ok controls => Along (fun d c => c.run d) ok t.toDisplay controls
  | .error _ => True

instance (ok : Display → Control → Prop) [∀ d c, Decidable (ok d c)] (t : Terminal) (b : Nat) :
    Decidable (t.Admits ok b) := by
  unfold Admits
  cases t.issues b with
  | ok controls =>
    exact inferInstanceAs (Decidable (Along (fun d c => c.run d) ok t.toDisplay controls))
  | error _ => exact .isTrue trivial

omit [Platform] in
theorem issues_eq_ok {b : Nat} {controls : List Control} (h : t.issues b = .ok controls) :
    ∃ p, t.toParser.processCodePoint b = .ok (p, controls) := by
  obtain ⟨⟨p, controls'⟩, hp, heq⟩ := bind_eq_ok.mp h
  cases heq
  exact ⟨p, hp⟩

/-- A code point that issues one control. -/
theorem processCodePoint_one {b : Nat} {c : Control} (h : t.issues b = .ok [c]) {t' : Terminal}
    (ht : t.processCodePoint b = .ok t') : c.run t.toDisplay = .ok t'.toDisplay := by
  obtain ⟨p, hp⟩ := issues_eq_ok h
  rw [processCodePoint_issued hp, Display.perform_one] at ht
  obtain ⟨d, hd, heq⟩ := bind_eq_ok.mp ht
  cases heq
  exact hd

/-- What every admitted control keeps is kept by a code point. -/
theorem processCodePoint_along {Q : Display → Prop} {ok : Display → Control → Prop}
    (hrun : ∀ d c, Q d → ok d c → Ensures Q (c.run d)) {b : Nat} (ht : Q t.toDisplay) (hb : t.Admits ok b) :
    Ensures (fun t' => Q t'.toDisplay) (t.processCodePoint b) := by
  cases hissues : t.issues b with
  | error e =>
    intro t' ht'
    obtain ⟨r, hr, -⟩ := bind_eq_ok.mp ht'
    rw [issues, hr] at hissues
    cases hissues
  | ok controls =>
    obtain ⟨p, hp⟩ := issues_eq_ok hissues
    rw [Admits, hissues] at hb
    rw [processCodePoint_issued hp]
    exact .bind (.along hrun ht hb) fun d hd => .ok hd

/-- A text all of whose controls are admitted. -/
def Reads (ok : Display → Control → Prop) (t : Terminal) (text : List Nat) : Prop :=
  Along processCodePoint (Admits ok) t text

instance (ok : Display → Control → Prop) [∀ d c, Decidable (ok d c)] (t : Terminal) (text : List Nat) :
    Decidable (t.Reads ok text) :=
  inferInstanceAs (Decidable (Along processCodePoint (Admits ok) t text))

theorem reads_keeps {Q : Display → Prop} {ok : Display → Control → Prop}
    (hrun : ∀ d c, Q d → ok d c → Ensures Q (c.run d)) {text : List Nat} (ht : Q t.toDisplay)
    (htext : t.Reads ok text) :
    Ensures (fun t' => Q t'.toDisplay) (text.foldlM processCodePoint t) :=
  .along (fun _ _ hs hb => processCodePoint_along hrun hs hb) ht htext

/-- Going to the alternate screen, anything but a reset or a clearing of the history there, and coming
back leave the main screen with its history, the cursor and what is written with as they were. -/
theorem alternateScreen_isolated {t₀ t₁ t₂ t₃ : Terminal} {enter leave : Nat} {text : List Nat} {m m' : Int}
    (hm : m ∈ screenModes) (hm' : m' ∈ screenModes) (hmain : t₀.altActive = false)
    (hlegal : Legal t₀.toGeometry) (hfits : Fits t₀.toGeometry)
    (hentering : t₀.issues enter = .ok [.decSetOrReset true m]) (h₁ : t₀.processCodePoint enter = .ok t₁)
    (hreads : t₁.Reads (fun _ c => c.StaysOnAlternate) text) (h₂ : text.foldlM processCodePoint t₁ = .ok t₂)
    (hleaving : t₂.issues leave = .ok [.decSetOrReset false m'])
    (h₃ : t₂.processCodePoint leave = .ok t₃) :
    t₃.altActive = false ∧ t₃.mMainBuffer = t₀.mMainBuffer ∧ t₃.mRows = t₀.mRows ∧
      t₃.mColumns = t₀.mColumns ∧ t₀.toDisplay.Restored t₃.toDisplay := by
  have hentered : Aside t₀.toDisplay.saveCursor.toGeometry t₁.toGeometry :=
    Display.enter_aside hm hmain t₁.toDisplay (processCodePoint_one hentering h₁)
  have hstayed : Aside t₀.toDisplay.saveCursor.toGeometry t₂.toGeometry :=
    reads_keeps (Q := fun d => Aside t₀.toDisplay.saveCursor.toGeometry d.toGeometry)
      (fun d c hd hc => Display.control_aside hd hc) hentered hreads t₂ h₂
  exact Display.leave_restores hm' hmain hlegal hfits hstayed t₃.toDisplay
    (processCodePoint_one hleaving h₃)

/-- The only control switches the alternate screen on or off. -/
def switches (setting : Bool) : List Control → Bool
  | [.decSetOrReset setting' m] => setting' == setting && m == 1049
  | _ => false

/-- The only control saves the cursor, or restores it. -/
def keepsCursor (save : Bool) : List Control → Bool
  | [.saveCursor] => save
  | [.restoreCursor] => !save
  | _ => false

omit [Platform] in
theorem issues_of_switches {b : Nat} {setting : Bool}
    (h : (t.issues b).map (switches setting) = .ok true) :
    t.issues b = .ok [.decSetOrReset setting 1049] := by
  cases hissues : t.issues b with
  | error e =>
    rw [hissues] at h
    cases h
  | ok controls =>
    rw [hissues] at h
    have hswitches : switches setting controls = true := Except.ok.inj h
    unfold switches at hswitches
    split at hswitches
    · simp only [Bool.and_eq_true, beq_iff_eq] at hswitches
      rw [hswitches.1, hswitches.2]
    · exact absurd hswitches Bool.false_ne_true

omit [Platform] in
theorem issues_of_keepsCursor {b : Nat} {save : Bool} (h : (t.issues b).map (keepsCursor save) = .ok true) :
    t.issues b = .ok [if save then .saveCursor else .restoreCursor] := by
  cases hissues : t.issues b with
  | error e =>
    rw [hissues] at h
    cases h
  | ok controls =>
    rw [hissues] at h
    have hkeeps : keepsCursor save controls = true := Except.ok.inj h
    unfold keepsCursor at hkeeps
    split at hkeeps
    · rw [if_pos hkeeps]
    · rw [if_neg (by simpa using hkeeps)]
    · exact absurd hkeeps Bool.false_ne_true

/-- The states of a terminal before and after two code points with a text between them. -/
def stages (t₀ : Terminal) (first : Nat) (text : List Nat) (last : Nat) :
    Java (Terminal × Terminal × Terminal) := do
  let t₁ ← t₀.processCodePoint first
  let t₂ ← text.foldlM processCodePoint t₁
  let t₃ ← t₂.processCodePoint last
  return (t₁, t₂, t₃)

/-- A small new terminal that has read `text`. -/
def reading (text : List Nat) : Java Terminal :=
  @TerminalEmulator.new javaShort plainPlatform 4 2 (some 100) >>= fun e =>
    text.foldlM (@processCodePoint javaShort plainPlatform) e.toTerminal

/-- `CSI 31 m`, `A` and `ESC`. -/
def coloured : List Nat := [0x1b, 0x5b, 0x33, 0x31, 0x6d, 0x41, 0x1b]

/-- `CSI 2 ; 2 H`, `CSI 44 m`, a letter, a line feed and `ESC`. -/
def elsewhere : List Nat :=
  [0x1b, 0x5b, 0x32, 0x3b, 0x32, 0x48, 0x1b, 0x5b, 0x34, 0x34, 0x6d, 0x42, 0x0a, 0x1b]

/-- `ESC 7`, a colour, three letters and a line feed, and `CSI ? 1049`. -/
def drawnAside : List Nat :=
  [0x1b, 0x37, 0x1b, 0x5b, 0x33, 0x31, 0x6d, 0x42, 0x43, 0x0a, 0x44, 0x1b, 0x5b, 0x3f, 0x31, 0x30, 0x34, 0x39]

omit [Platform] in
/-- The states of a run, and what a decision about them says. -/
theorem stages_states (before : List Nat) (first : Nat) (text : List Nat) (last : Nat)
    (check : Terminal → Terminal × Terminal × Terminal → Bool)
    (h : (reading before >>= fun t₀ => @stages plainPlatform t₀ first text last >>= fun r =>
      .ok (check t₀ r)) = .ok true) :
    ∃ t₀ t₁ t₂ t₃ : Terminal, reading before = .ok t₀ ∧
      @processCodePoint javaShort plainPlatform t₀ first = .ok t₁ ∧
      text.foldlM (@processCodePoint javaShort plainPlatform) t₁ = .ok t₂ ∧
      @processCodePoint javaShort plainPlatform t₂ last = .ok t₃ ∧ check t₀ (t₁, t₂, t₃) = true := by
  obtain ⟨t₀, h₀, h⟩ := bind_eq_ok.mp h
  obtain ⟨r, hr, hcheck⟩ := bind_eq_ok.mp h
  obtain ⟨t₁, h₁, hr⟩ := bind_eq_ok.mp hr
  obtain ⟨t₂, h₂, hr⟩ := bind_eq_ok.mp hr
  obtain ⟨t₃, h₃, hr⟩ := bind_eq_ok.mp hr
  refine ⟨t₀, t₁, t₂, t₃, h₀, h₁, h₂, h₃, ?_⟩
  rw [Except.ok.inj hr]
  exact Except.ok.inj hcheck

/-- `A`, and `CSI ? 1049`. -/
def drawnMain : List Nat := [0x41, 0x1b, 0x5b, 0x3f, 0x31, 0x30, 0x34, 0x39]

omit [Platform] in
theorem alternateScreen_isolated_drawn : ∃ t₀ t₃ : Terminal, reading drawnMain = .ok t₀ ∧
    t₃.mMainBuffer = t₀.mMainBuffer ∧ t₀.toDisplay.Restored t₃.toDisplay := by
  obtain ⟨t₀, t₁, t₂, t₃, h₀, h₁, h₂, h₃, hcheck⟩ := stages_states drawnMain 0x68 drawnAside 0x6c
    (fun t₀ r => decide (t₀.altActive = false ∧ Legal t₀.toGeometry ∧ Fits t₀.toGeometry ∧
      (t₀.issues 0x68).map (switches true) = .ok true ∧
      @Reads plainPlatform (fun _ c => c.StaysOnAlternate) r.1 drawnAside ∧
      (r.2.1.issues 0x6c).map (switches false) = .ok true)) (by decide +kernel)
  obtain ⟨hmain, hlegal, hfits, hentering, hreads, hleaving⟩ := of_decide_eq_true hcheck
  obtain ⟨-, hbuffer, -, -, hrestored⟩ := @alternateScreen_isolated plainPlatform t₀ t₁ t₂ t₃ 0x68 0x6c
    drawnAside 1049 1049 (by decide) (by decide) hmain hlegal hfits (issues_of_switches hentering) h₁ hreads
    h₂ (issues_of_switches hleaving) h₃
  exact ⟨t₀, t₃, h₀, hbuffer, hrestored⟩

/-- What DECSC saves, DECRC restores, whatever is written between them, if no cursor is saved, the
screen is not changed and the terminal is not reset.  It moves the cursor and changes no screen. -/
theorem savedCursor_restored {t₀ t₁ t₂ t₃ : Terminal} {save restore : Nat} {text : List Nat}
    (hlegal : Legal t₀.toGeometry) (hsaving : t₀.issues save = .ok [.saveCursor])
    (h₁ : t₀.processCodePoint save = .ok t₁) (hreads : t₁.Reads Control.Quiet text)
    (h₂ : text.foldlM processCodePoint t₁ = .ok t₂) (hrestoring : t₂.issues restore = .ok [.restoreCursor])
    (h₃ : t₂.processCodePoint restore = .ok t₃) :
    t₀.toDisplay.Restored t₃.toDisplay ∧ t₃.altActive = t₀.altActive ∧
      t₃.mMainBuffer = t₂.mMainBuffer ∧ t₃.mAltBuffer = t₂.mAltBuffer := by
  have hsaved : t₁.toDisplay = t₀.toDisplay.saveCursor :=
    (Except.ok.inj (processCodePoint_one hsaving h₁)).symm
  have hkept : Untouched t₁.toGeometry t₂.toGeometry :=
    reads_keeps (Q := fun d => Untouched t₁.toGeometry d.toGeometry)
      (fun d c hd hc => (Display.control_untouched hc).mono fun _ hd' => hd.trans hd') (.refl _) hreads t₂ h₂
  have hrestored : t₃.toDisplay = t₂.toDisplay.restoreCursor :=
    (Except.ok.inj (processCodePoint_one hrestoring h₃)).symm
  obtain ⟨hrows, hcolumns, halt, hstate⟩ := Display.saveCursor_saved t₀.toDisplay
  rw [← hsaved] at hrows hcolumns halt hstate
  rw [hrestored]
  refine ⟨?_, hkept.altActive.trans halt, rfl, rfl⟩
  apply Display.restoreCursor_restores hlegal (hkept.rows.trans hrows) (hkept.columns.trans hcolumns)
  rw [hkept.altActive, hkept.savedMain, hkept.savedAlt]
  exact hstate

omit [Platform] in
theorem savedCursor_restored_coloured : ∃ t₀ t₃ : Terminal, reading coloured = .ok t₀ ∧
    t₀.toDisplay.Restored t₃.toDisplay := by
  obtain ⟨t₀, t₁, t₂, t₃, h₀, h₁, h₂, h₃, hcheck⟩ := stages_states coloured 0x37 elsewhere 0x38
    (fun t₀ r => decide (Legal t₀.toGeometry ∧ (t₀.issues 0x37).map (keepsCursor true) = .ok true ∧
      @Reads plainPlatform Control.Quiet r.1 elsewhere ∧
      (r.2.1.issues 0x38).map (keepsCursor false) = .ok true)) (by decide +kernel)
  obtain ⟨hlegal, hsaving, hreads, hrestoring⟩ := of_decide_eq_true hcheck
  obtain ⟨hrestored, -⟩ := @savedCursor_restored plainPlatform t₀ t₁ t₂ t₃ 0x37 0x38 elsewhere hlegal
    (issues_of_keepsCursor hsaving) h₁ hreads h₂ (issues_of_keepsCursor hrestoring) h₃
  exact ⟨t₀, t₃, h₀, hrestored⟩

end Terminal

end XoDos
