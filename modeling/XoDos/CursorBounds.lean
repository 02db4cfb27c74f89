import XoDos.DisplayWrite
import XoDos.ProperControls
import XoDos.ShownRows

/-!
# The cursor in every reachable state

The cursor stays on the screen, and the margins stay margins, until a backspace
is processed in column 0 with a left margin further right: then the cursor goes
to column -1.
-/

namespace XoDos

open WcWidth (width)

namespace Geometry

variable {S : Prop} {g g' : Geometry}

/-- Only what no inequality is about changes. -/
theorem Steps.of_eq (hrow : g'.mCursorRow = g.mCursorRow) (hcol : g'.mCursorCol = g.mCursorCol)
    (hd : Drawn False g g') : Steps False g g' :=
  ⟨hd, fun hs => hs.drawn hd (hrow ▸ hs.row) (hcol ▸ hs.column) False.elim⟩

theorem Steps.refl (g : Geometry) : Steps False g g := .of_eq rfl rfl (.refl g)

/-- What stays while cursor and margins are set anew. -/
structure Sized (g : Geometry) : Prop where
  rows : 2 ≤ g.mRows
  columns : 2 ≤ g.mColumns
  altTotal : g.mAltBuffer.mTotalRows = g.mAltBuffer.mScreenRows
  saved : g.altActive = true →
    (0 ≤ g.mSavedStateMain.mSavedCursorRow ∧
      g.mSavedStateMain.mSavedCursorRow < g.mMainBuffer.mScreenRows) ∧
    (0 ≤ g.mSavedStateMain.mSavedCursorCol ∧
      g.mSavedStateMain.mSavedCursorCol < g.mMainBuffer.mColumns)

/-- The current screen has the size of the terminal. -/
def Fits (g : Geometry) : Prop := g.mScreen.mColumns = g.mColumns ∧ g.mScreen.mScreenRows = g.mRows

/-- The margins have room between them. -/
structure Margins (g : Geometry) : Prop where
  top : 0 ≤ g.mTopMargin
  bottom : g.mTopMargin + 2 ≤ g.mBottomMargin ∧ g.mBottomMargin ≤ g.mRows
  left : 0 ≤ g.mLeftMargin
  right : g.mLeftMargin < g.mRightMargin ∧ g.mRightMargin ≤ g.mColumns
  room : g.mLeftMargin + 2 ≤ g.mColumns

theorem Sound.sized (h : Sound False g) : Sized g := by
  refine ⟨?_, ?_, h.altTotal, h.saved⟩
  · have := h.bounds
    omega
  · have := h.bounds
    omega

theorem Sound.fits (h : Sound False g) : Fits g := ⟨h.screenColumns, h.screenRows⟩

theorem Sized.sound (h : Sized g) (hm : Margins g) (hf : Fits g)
    (hrow : 0 ≤ g.mCursorRow ∧ g.mCursorRow < g.mRows)
    (hcol : 0 ≤ g.mCursorCol ∧ g.mCursorCol < g.mColumns) : Sound False g :=
  ⟨⟨hrow, hcol, hm.top, hm.bottom, hm.left, hm.right⟩, hm.room, hf.1, hf.2, h.altTotal, h.saved,
    False.elim⟩

/-- Margins that leave room between them. -/
theorem Sound.withMargins (h : Sound False g) {top bottom left right : Int}
    (hvertical : 0 ≤ top ∧ top + 2 ≤ bottom ∧ bottom ≤ g.mRows)
    (hhorizontal : 0 ≤ left ∧ left < right ∧ right ≤ g.mColumns ∧ left + 2 ≤ g.mColumns) :
    Sound False { g with
      mTopMargin := top, mBottomMargin := bottom, mLeftMargin := left, mRightMargin := right } := by
  have hsized := h.sized
  refine Sized.sound ⟨hsized.rows, hsized.columns, h.altTotal, h.saved⟩ ?_ h.fits h.row h.column
  exact ⟨hvertical.1, hvertical.2, hhorizontal.1, ⟨hhorizontal.2.1, hhorizontal.2.2.1⟩,
    hhorizontal.2.2.2⟩

end Geometry

namespace Display

open XoDos.Geometry (Sound Drawn Edited Steps Legal Sized Fits Margins)

variable {d : Display}

/-! ## Writing -/

theorem Advanced.steps {d' : Display} {codePoint : Nat} {autoWrap : Bool}
    (h : Advanced False d codePoint autoWrap d') : Steps False d.toGeometry d'.toGeometry := by
  refine ⟨h.toDrawn, fun hs => hs.drawn h.toDrawn (h.row ▸ hs.row) ?_ False.elim⟩
  have hwidth := WcWidth.width_nonneg codePoint
  have hbounds := hs.bounds
  rw [h.col]
  omega

theorem remember_steps (d : Display) (codePoint : Nat) :
    Steps False d.toGeometry (d.remember codePoint).toGeometry :=
  .of_eq rfl rfl (.of_eq rfl rfl rfl rfl rfl rfl rfl rfl rfl rfl rfl rfl)

/-- The code point is written, on the next line if it does not fit on this one. -/
theorem emitCodePoint_steps (d : Display) (codePoint : Nat) :
    Ensures (fun d' => Steps False d.toGeometry d'.toGeometry) (d.emitCodePoint codePoint) := by
  have hplace : ∀ (d' : Display) (c : Nat) (w : Bool),
      Ensures (fun d'' => Steps False d'.toGeometry d''.toGeometry) (d'.placeCodePoint c w) := by
    intro d' c w
    exact ((placeCodePoint_advanced False.elim False.elim).ensures id).mono fun _ h => h.steps
  have hremember := remember_steps d codePoint
  unfold emitCodePoint
  refine .ite (fun _ => ?_) fun _ => .ite (fun _ => .ok hremember) fun _ => ?_
  · refine .bind (P := fun d₁ => Steps False d.toGeometry d₁.toGeometry) ?_ fun d₁ h₁ =>
      (hplace d₁ _ _).mono fun _ h₂ => h₁.trans h₂
    refine .ite (fun _ => ?_) fun _ => .ok hremember
    exact ((wrapLine_steps False.elim).ensures id).mono fun _ h => hremember.trans h.1
  · exact (hplace _ _ _).mono fun _ h => hremember.trans h

theorem repeatCharacter_steps (d : Display) (n : Int) :
    Ensures (fun d' => Steps False d.toGeometry d'.toGeometry) (d.repeatCharacter n) := by
  unfold repeatCharacter
  cases d.mLastEmittedCodePoint with
  | none => exact .ok (.refl _)
  | some codePoint =>
    refine .forUp (fun _ d₁ _ _ h₁ => ?_) (.refl _)
    exact (emitCodePoint_steps d₁ codePoint).mono fun _ h₂ => h₁.trans h₂

/-! ## Backspace and tabs -/

/-- What a backspace does where the left margin keeps it from moving the cursor off the screen. -/
theorem backspace_steps (h : d.mCursorCol = 0 → d.mLeftMargin = 0) :
    Ensures (fun d' => Steps False d.toGeometry d'.toGeometry) d.backspace := by
  unfold backspace
  refine .ite (fun _ => .ite (fun _ => .bind_any fun wrapped => ?_) fun _ => .ok (.refl _)) fun hne => ?_
  · refine .ite (fun _ => ?_) fun _ => .ok (.refl _)
    have hscreen : Upholds False (fun d' => Edited False d.toGeometry d'.toGeometry) fun _ =>
        d.onScreen fun b => b.clearLineWrap (d.mCursorRow - 1) :=
      onScreen_upholds (TerminalBuffer.putLineWrap_upholds False.elim False.elim)
    refine .bind (hscreen.ensures id) fun d₁ h₁ => .ok ?_
    exact h₁.steps.trans (setCursorRowCol_steps d₁ _ _)
  · refine .ok (.moved fun hl => ⟨hl.row, ?_⟩)
    have := hl.column
    omega

/-- A tab stop that is found is on the screen. -/
theorem nextTabStopLoop_bounds (hl : Legal d.toGeometry) (n : Nat) {i : Int} (numTabs : Int)
    (h₀ : 0 ≤ i) (hn : i + n ≤ d.mColumns) :
    Ensures (fun col => 0 ≤ col ∧ col < d.mColumns) (d.nextTabStopLoop n i numTabs) := by
  have hleft := hl.left
  have hright := hl.right
  induction n generalizing i numTabs with
  | zero =>
    rw [nextTabStopLoop]
    exact .ok (by omega)
  | succ n ih =>
    push_cast at hn
    rw [nextTabStopLoop]
    refine .bind_any fun stop => .ite (fun _ => .ite (fun _ => .ok ?_) fun _ => ?_) fun _ => ?_
    · omega
    · exact ih _ (by omega) (by omega)
    · exact ih _ (by omega) (by omega)

theorem nextTabStop_bounds (hl : Legal d.toGeometry) (numTabs : Int) :
    Ensures (fun col => 0 ≤ col ∧ col < d.mColumns) (d.nextTabStop numTabs) := by
  have hcol := hl.column
  exact nextTabStopLoop_bounds hl _ numTabs (by omega) (by omega)

theorem previousTabStopLoop_bounds (hl : Legal d.toGeometry) (n : Nat) (numTabs : Int)
    (hn : n ≤ d.mColumns) :
    Ensures (fun col => 0 ≤ col ∧ col < d.mColumns) (d.previousTabStopLoop n numTabs) := by
  have hleft := hl.left
  have hright := hl.right
  induction n generalizing numTabs with
  | zero =>
    rw [previousTabStopLoop]
    exact .ok (by omega)
  | succ n ih =>
    push_cast at hn
    rw [previousTabStopLoop]
    refine .bind_any fun stop => .ite (fun _ => .ite (fun _ => .ok ?_) fun _ => ?_) fun _ => ?_
    · omega
    · exact ih _ (by omega)
    · exact ih _ (by omega)

/-- A control that sets the column of the cursor. -/
theorem sound_column (h : Sound False d.toGeometry) {col : Int} (w : Bool)
    (hcol : 0 ≤ col ∧ col < d.mColumns) :
    Sound False { d.toGeometry with mCursorCol := col, mAboutToAutoWrap := w } :=
  h.moved w h.row hcol

/-! ## Margins and saved cursors -/

theorem setCursorPosition_sound (h : Sound False d.toGeometry) (x y : Int) :
    Sound False (d.setCursorPosition x y).toGeometry :=
  (setCursorRowCol_steps d _ _).sound h

theorem setTopBottomMargins_sound (h : Sound False d.toGeometry) (top bottom : Int) :
    Sound False (d.setTopBottomMargins top bottom).toGeometry := by
  have hbounds := h.bounds
  exact (setCursorRowCol_steps _ _ _).sound (h.withMargins (by omega) (by omega))

theorem setLeftRightMargins_sound (h : Sound False d.toGeometry) {left : Int} (right : Int)
    (hleft : 1 ≤ left) : Sound False (d.setLeftRightMargins left right).toGeometry := by
  have hbounds := h.bounds
  exact (setCursorRowCol_steps _ _ _).sound (h.withMargins (by omega) (by omega))

theorem saveCursor_sound (h : Sound False d.toGeometry) : Sound False d.saveCursor.toGeometry := by
  have hsized := h.sized
  unfold saveCursor
  simp only
  split_ifs with halt
  · exact Sized.sound ⟨hsized.rows, hsized.columns, h.altTotal, h.saved⟩
      ⟨h.top, h.bottom, h.left, h.right, h.room⟩ h.fits h.row h.column
  · exact Sized.sound ⟨hsized.rows, hsized.columns, h.altTotal, fun ha => absurd ha halt⟩
      ⟨h.top, h.bottom, h.left, h.right, h.room⟩ h.fits h.row h.column

/-! ## Screens -/

/-- The current screen takes on the size of the terminal. -/
theorem resizeScreen_sound (h : Sized d.toGeometry) (hm : Margins d.toGeometry)
    (hcursor : d.mScreen.isFastResize d.mColumns d.mRows →
      d.mCursorCol < d.mScreen.mColumns ∧ d.mCursorRow < d.mScreen.mScreenRows) :
    Ensures (fun d' => Sound False d'.toGeometry) d.resizeScreen := by
  have hrows := h.rows
  have hcolumns := h.columns
  unfold resizeScreen
  refine .bind (TerminalBuffer.resize_size (by omega) (by omega) hcursor) fun p ⟨hp, hx, hy⟩ => .ok ?_
  have hmargins : Margins ({ d.setScreen p.1 with mCursorCol := p.2.1, mCursorRow := p.2.2 } :
      Display).toGeometry := ⟨hm.top, hm.bottom, hm.left, hm.right, hm.room⟩
  have hfits : Fits ({ d.setScreen p.1 with mCursorCol := p.2.1, mCursorRow := p.2.2 } :
      Display).toGeometry := by
    have hscreen := setScreen_mScreen d p.1
    refine ⟨?_, ?_⟩
    · change (d.setScreen p.1).mScreen.mColumns = d.mColumns
      rw [hscreen]
      exact hp.columns
    · change (d.setScreen p.1).mScreen.mScreenRows = d.mRows
      rw [hscreen]
      exact hp.screen
  refine Sized.sound ⟨h.rows, h.columns, ?_, ?_⟩ hmargins hfits ⟨hy, hp.cursorRow⟩ ⟨hx, hp.cursorColumn⟩
  · have htotal := hp.total
    have hscreen := hp.screen
    cases ha : d.altActive with
    | true =>
      simp only [ha, if_true] at htotal
      simp only [setScreen, ha, if_true]
      rw [htotal, hscreen]
    | false =>
      simp only [setScreen, ha, Bool.false_eq_true, if_false]
      exact h.altTotal
  · intro ha
    change d.altActive = true at ha
    simp only [setScreen, ha, if_true]
    exact h.saved ha

/-- Going to the other screen and coming back. -/
theorem useScreen_sound (h : Sound False d.toGeometry) (setting : Bool) :
    Ensures (fun d' => Sound False d'.toGeometry) (d.useScreen setting) := by
  have hsized := h.sized
  have hbounds := h.bounds
  unfold useScreen
  refine .ite (fun _ => .ok h) fun hne => .ite (fun hset => ?_) fun hset => ?_
  · have hactive : d.altActive = false := by
      rw [hset] at hne
      cases hd : d.altActive with
      | true => exact absurd hd.symm hne
      | false => rfl
    have hfits := h.fits
    simp only [Fits, Geometry.mScreen, hactive, Bool.false_eq_true, if_false] at hfits
    -- The cursor is saved on the main screen, which is left.
    obtain ⟨state, hsaved, hrow, hcol⟩ : ∃ state, d.saveCursor.toGeometry =
        { d.toGeometry with mSavedStateMain := state } ∧ state.mSavedCursorRow = d.mCursorRow ∧
          state.mSavedCursorCol = d.mCursorCol := by
      refine ⟨d.saveCursor.mSavedStateMain, ?_⟩
      simp [saveCursor, hactive]
    have hafter : Sized { d.saveCursor.toGeometry with altActive := true } := by
      rw [hsaved]
      refine ⟨hsized.rows, hsized.columns, h.altTotal, fun _ => ?_⟩
      simp only [hrow, hcol, hfits.1, hfits.2]
      exact ⟨h.row, h.column⟩
    have hmargins : Margins { d.saveCursor.toGeometry with altActive := true } := by
      rw [hsaved]
      exact ⟨h.top, h.bottom, h.left, h.right, h.room⟩
    refine .bind (P := fun d' => Sound False d'.toGeometry) ?_ fun d₁ h₁ => ?_
    · refine .ite (fun _ => ?_) fun hsame => .ok ?_
      · apply resizeScreen_sound (d := { d.saveCursor with altActive := true }) hafter hmargins
        intro hfast
        have htotal := h.altTotal
        simp only [TerminalBuffer.isFastResize, Geometry.mScreen, hsaved, if_true] at hfast ⊢
        omega
      · have hfit : d.mAltBuffer.mColumns = d.mColumns ∧ d.mAltBuffer.mScreenRows = d.mRows := by
          simpa [hset] using hsame
        refine hafter.sound hmargins ?_ ?_ ?_
        · simp only [Fits, Geometry.mScreen, hsaved, if_true]
          exact hfit
        · rw [hsaved]
          exact h.row
        · rw [hsaved]
          exact h.column
    · have hclear : Upholds False (fun d' => Edited False d₁.toGeometry d'.toGeometry) fun _ =>
          d₁.onScreen fun b => b.blockSet 0 0 d₁.mColumns d₁.mRows 0x20 d₁.getStyle :=
        blockSet_edited False.elim False.elim False.elim
      exact (hclear.ensures id).mono fun _ h₂ => h₁.edited h₂
  · have hactive : d.altActive = true := by
      cases hd : d.altActive with
      | true => rfl
      | false => exact absurd (by rw [hd]; simpa using hset) hne
    obtain ⟨hrow, hcol⟩ := h.saved hactive
    have hafter : Sized { d.toGeometry with altActive := false } :=
      ⟨hsized.rows, hsized.columns, h.altTotal, fun ha => Bool.noConfusion ha⟩
    refine .ite (fun _ => ?_) fun hsame => .ok ?_
    · apply resizeScreen_sound
      · exact ⟨hsized.rows, hsized.columns, h.altTotal, fun ha => Bool.noConfusion ha⟩
      · exact ⟨h.top, h.bottom, h.left, h.right, h.room⟩
      · intro _
        exact ⟨hcol.2, hrow.2⟩
    · have hfit : d.mMainBuffer.mColumns = d.mColumns ∧ d.mMainBuffer.mScreenRows = d.mRows := by
        simpa [hset] using hsame
      have hback : Sound False ({ d with altActive := false } : Display).toGeometry :=
        hafter.sound ⟨h.top, h.bottom, h.left, h.right, h.room⟩ hfit h.row h.column
      exact (restoreCursor_steps _).sound hback

/-! ## Modes -/

theorem blockClear_sound (h : Sound False d.toGeometry) (sx sy w h' : Int) :
    Ensures (fun d' => Sound False d'.toGeometry) (d.blockClear sx sy w h') := by
  have hclear : Upholds False (fun d' => Edited False d.toGeometry d'.toGeometry) fun _ =>
      d.blockClear sx sy w h' := blockClear_edited False.elim False.elim
  exact (hclear.ensures id).mono fun _ h₁ => h.edited h₁

theorem setDecsetinternalBit_sound (h : Sound False d.toGeometry) (internalBit : BitVec 32)
    (set : Bool) : Sound False (d.setDecsetinternalBit internalBit set).toGeometry := by
  rw [setDecsetinternalBit_geometry]
  exact h

theorem resetPage_sound (h : Sound False d.toGeometry) :
    Ensures (fun d' => Sound False d'.toGeometry) d.resetPage := by
  have hbounds := h.bounds
  unfold resetPage
  refine .bind (blockClear_sound ?_ _ _ _ _) fun d₁ h₁ => .ok ((setCursorRowCol_steps d₁ 0 0).sound h₁)
  exact setDecsetinternalBit_sound (d := { d with
    mLeftMargin := 0
    mTopMargin := 0
    mBottomMargin := d.mRows
    mRightMargin := d.mColumns }) (h.withMargins (by omega) (by omega)) _ _

variable [Platform]

theorem doDecSetOrReset_sound (h : Sound False d.toGeometry) (setting : Bool) (externalBit : Int) :
    Ensures (fun d' => Sound False d'.toGeometry) (d.doDecSetOrReset setting externalBit) := by
  unfold doDecSetOrReset
  extract_lets d₁
  have h₁ : Sound False d₁.toGeometry := by
    simp only [d₁]
    split
    · exact setDecsetinternalBit_sound h _ _
    · exact h
  have hbounds := h₁.bounds
  refine .ite (fun _ => resetPage_sound h₁) fun _ => .ite (fun _ => .ok ?_) fun _ => ?_
  · split_ifs
    · exact setCursorPosition_sound h₁ 0 0
    · exact h₁
  refine .ite (fun _ => .ok ?_) fun _ => .ite (fun _ => .ok ?_) fun _ => ?_
  · split_ifs
    · exact h₁
    · exact h₁
  · split_ifs
    · exact h₁
    · exact h₁.withMargins (by omega) (by omega)
  refine .ite (fun _ => .ok ?_) fun _ => .ite (fun _ => useScreen_sound h₁ setting) fun _ => .ok h₁
  split_ifs
  · exact saveCursor_sound h₁
  · exact (restoreCursor_steps d₁).sound h₁

/-! ## Reset and new sizes -/

theorem reset_sound (h : Sized d.toGeometry) (hfits : Fits d.toGeometry)
    (hrow : 0 ≤ d.mCursorRow ∧ d.mCursorRow < d.mRows)
    (hcol : 0 ≤ d.mCursorCol ∧ d.mCursorCol < d.mColumns) :
    Ensures (fun d' => Sound False d'.toGeometry) d.reset := by
  have hrows := h.rows
  have hcolumns := h.columns
  unfold reset setDefaultTabStops
  refine .bind (P := fun d₁ => Sound False d₁.toGeometry) (.bind_any fun stops => .ok ?_)
    fun d₁ h₁ => .ok ?_
  · refine Sized.sound ⟨h.rows, h.columns, h.altTotal, h.saved⟩ ?_ hfits hrow hcol
    exact ⟨le_rfl, ⟨by simpa using hrows, le_rfl⟩, le_rfl, ⟨by simp only; omega, le_rfl⟩,
      by simpa using hcolumns⟩
  · have hsized := h₁.sized
    refine Sized.sound ⟨hsized.rows, hsized.columns, h₁.altTotal, fun ha => ?_⟩
      ⟨h₁.top, h₁.bottom, h₁.left, h₁.right, h₁.room⟩ h₁.fits h₁.row h₁.column
    have hsaved := h₁.saved ha
    simp only [tell]
    omega

omit [Platform] in
theorem resize_sound (h : Sound False d.toGeometry) {columns rows : Int} :
    Ensures (fun d' => Sound False d'.toGeometry) (d.resize columns rows) := by
  have hbounds := h.bounds
  have hsized := h.sized
  have hscreen := h.fits
  unfold resize
  refine .ite (fun _ => .ok h) fun _ => .ite (fun _ => .error _) fun hsize => ?_
  generalize hd₁ : (if d.mRows ≠ rows then
    { d with mRows := rows, mTopMargin := 0, mBottomMargin := rows } else d) = d₁
  -- Rows, top and bottom are those of the new size, and the rest is still the old one.
  have h₁ : d₁.mRows = rows ∧ (0 ≤ d₁.mTopMargin ∧ d₁.mTopMargin + 2 ≤ d₁.mBottomMargin ∧
      d₁.mBottomMargin ≤ rows) ∧ d₁.toGeometry = { d.toGeometry with
        mRows := d₁.mRows, mTopMargin := d₁.mTopMargin, mBottomMargin := d₁.mBottomMargin } := by
    rw [← hd₁]
    split_ifs with hne
    · exact ⟨rfl, by simp only; omega, rfl⟩
    · exact ⟨by omega, by omega, rfl⟩
  obtain ⟨hrows, htop, hsame⟩ := h₁
  refine .bind (P := fun d₂ => ∃ stops left right, d₂.toGeometry = { d₁.toGeometry with
      mColumns := columns, mTabStop := stops, mLeftMargin := left, mRightMargin := right } ∧
        0 ≤ left ∧ left < right ∧ right ≤ columns ∧ left + 2 ≤ columns) ?_ ?_
  · refine .ite (fun hne => ?_) fun hne => .ok ?_
    · refine .bind_any fun stops => ?_
      unfold setDefaultTabStops
      refine .bind (P := fun d₂ => ∃ stops, d₂.toGeometry = { d₁.toGeometry with
        mColumns := columns, mTabStop := stops }) (.bind_any fun stops' => .ok ⟨stops', rfl⟩) ?_
      rintro d₂ ⟨stops', hd₂⟩
      refine .bind_any fun stops'' => .ok ⟨stops'', 0, columns, ?_, by omega⟩
      simp only [hd₂]
    · rw [hsame] at hne
      have hcolumns : d.mColumns = columns := not_not.mp hne
      refine ⟨d.mTabStop, d.mLeftMargin, d.mRightMargin, ?_, by omega⟩
      rw [hsame, ← hcolumns]
  · rintro d₂ ⟨stops, left, right, hd₂, hmargins⟩
    have hd : d₂.toGeometry = { d.toGeometry with
        mRows := rows, mTopMargin := d₁.mTopMargin, mBottomMargin := d₁.mBottomMargin
        mColumns := columns, mTabStop := stops, mLeftMargin := left, mRightMargin := right } := by
      rw [hd₂, hsame, hrows]
    apply resizeScreen_sound
    · rw [hd]
      exact ⟨by simp only; omega, by simp only; omega, h.altTotal, h.saved⟩
    · rw [hd]
      exact ⟨htop.1, htop.2, hmargins.1, ⟨hmargins.2.1, hmargins.2.2.1⟩, hmargins.2.2.2⟩
    · intro _
      have hmScreen : d₂.mScreen = d.mScreen := by
        rw [Geometry.mScreen, hd]
        rfl
      rw [hmScreen, hd, hscreen.1, hscreen.2]
      exact ⟨h.column.2, h.row.2⟩

/-! ## Controls -/

omit [Platform] in
/-- The clearing of the history, which is the main screen's. -/
theorem clearTranscript_sound (h : Sound False d.toGeometry) :
    Ensures (fun main => Sound False { d.toGeometry with mMainBuffer := main })
      d.mMainBuffer.clearTranscript := by
  have hsized := h.sized
  refine TerminalBuffer.clearTranscript_sameSize.mono fun main hmain => ?_
  refine Sized.sound ⟨hsized.rows, hsized.columns, h.altTotal, fun ha => ?_⟩
    ⟨h.top, h.bottom, h.left, h.right, h.room⟩ ?_ h.row h.column
  · have hsaved := h.saved ha
    simp only [hmain.screen, hmain.columns]
    exact hsaved
  · have hfits := h.fits
    unfold Fits Geometry.mScreen at hfits ⊢
    split_ifs at hfits ⊢
    · exact hfits
    · rw [hmain.columns, hmain.screen]
      exact hfits

/-- A control other than a backspace keeps the geometry sound. -/
theorem control_sound (h : Sound False d.toGeometry) {c : Control} (hc : c.Proper) :
    Ensures (fun d' => Sound False d'.toGeometry) (c.run d) := by
  have hcol := h.column
  have hgeometry : ∀ {d' : Display}, d'.toGeometry = d.toGeometry → Sound False d'.toGeometry := by
    intro d' heq
    rw [heq]
    exact h
  cases c with
  | appearance a => exact .ok (hgeometry (appearance_geometry a))
  | motion m => exact .ok ((motion_steps d m).sound h)
  | edit e =>
    exact ((edit_edited (S := False) False.elim e False.elim).ensures id).mono fun _ he => h.edited he
  | emit codePoint => exact (emitCodePoint_steps d codePoint).mono fun _ hd => hd.sound h
  | repeatCharacter n => exact (repeatCharacter_steps d n).mono fun _ hd => hd.sound h
  | backspace => exact hc.elim
  | horizontalTab => exact .bind (nextTabStop_bounds h.toLegal 1) fun col hcol => .ok (sound_column h _ hcol)
  | forwardTab n => exact .bind (nextTabStop_bounds h.toLegal n) fun col hcol => .ok (sound_column h _ hcol)
  | backwardTab n =>
    exact .bind (previousTabStopLoop_bounds h.toLegal _ n (by omega)) fun col hcol =>
      .ok (sound_column h _ hcol)
  | setTabStop set =>
    have hsized := h.sized
    exact .bind_any fun stops => .ok (Sized.sound ⟨hsized.rows, hsized.columns, h.altTotal, h.saved⟩
      ⟨h.top, h.bottom, h.left, h.right, h.room⟩ h.fits h.row h.column)
  | clearTabStops =>
    have hsized := h.sized
    exact .bind_any fun stops => .ok (Sized.sound ⟨hsized.rows, hsized.columns, h.altTotal, h.saved⟩
      ⟨h.top, h.bottom, h.left, h.right, h.room⟩ h.fits h.row h.column)
  | lineFeed => exact ((doLinefeed_steps False.elim).ensures id).mono fun _ hd => hd.1.sound h
  | nextLine =>
    simp only [Control.run]
    -- NEL goes to the left margin in origin mode, and to the first column else.
    have hmargin : 0 ≤ (if d.isDecsetInternalBitSet Decset.originMode then d.mLeftMargin else 0) ∧
        (if d.isDecsetInternalBitSet Decset.originMode then d.mLeftMargin else 0) < d.mColumns := by
      have hleft := h.left
      have hroom := h.room
      split_ifs <;> omega
    generalize (if d.isDecsetInternalBitSet Decset.originMode then d.mLeftMargin else 0) = col at hmargin ⊢
    have hstart : Sound False (d.setCursorCol col).toGeometry := sound_column h false hmargin
    exact ((doLinefeed_steps (d := d.setCursorCol col) False.elim).ensures id).mono fun _ hd =>
      hd.1.sound hstart
  | reverseIndex => exact ((reverseIndex_steps False.elim).ensures id).mono fun _ hd => hd.1.sound h
  | backIndex => exact ((backIndex_steps False.elim).ensures id).mono fun _ hd => hd.1.sound h
  | forwardIndex => exact ((forwardIndex_steps False.elim).ensures id).mono fun _ hd => hd.1.sound h
  | saveCursor => exact .ok (saveCursor_sound h)
  | restoreCursor => exact .ok ((restoreCursor_steps d).sound h)
  | setTopBottomMargins top bottom => exact .ok (setTopBottomMargins_sound h _ _)
  | setLeftRightMargins left right =>
    have hleft : (1 : Int) ≤ left := by exact_mod_cast hc
    exact .ite (fun _ => .ok (setLeftRightMargins_sound h _ hleft)) fun _ => .ok (saveCursor_sound h)
  | decSetOrReset setting externalBit => exact doDecSetOrReset_sound h setting externalBit
  | restoreMode externalBit internalBit => exact doDecSetOrReset_sound h _ externalBit
  | clearTranscript => exact .bind (clearTranscript_sound h) fun main hmain => .ok hmain
  | eraseTranscript =>
    exact .bind (clearTranscript_sound h) fun main hmain => .ok (hmain.moved false hmain.row hmain.column)
  | setTextParameter value textParameter terminator =>
    exact (setTextParameter_core value textParameter terminator).mono fun _ hd =>
      hgeometry (congrArg Core.geometry hd)
  | reset => exact reset_sound h.sized h.fits h.row h.column

end Display

/-! ## Runs -/

/-- One code point is parsed, and what it issues is carried out. -/
theorem Terminal.processCodePoint_issued [Platform] {t : Terminal} {b : Nat} {p : Parser}
    {controls : List Control} (h : t.toParser.processCodePoint b = .ok (p, controls)) :
    t.processCodePoint b = (t.toDisplay.perform controls >>= fun d =>
      .ok ({ toDisplay := d, toParser := p } : Terminal)) := by
  unfold processCodePoint
  rw [h]
  rfl

theorem Display.perform_one [Platform] (d : Display) (c : Control) : d.perform [c] = c.run d := by
  unfold perform
  rw [List.foldlM_cons]
  exact bind_pure _

/-- What a terminal is given: a code point of the output of a program, or a new size. -/
inductive TerminalInput where
  | codePoint (b : Nat)
  | resize (columns rows : Int)

namespace TerminalEmulator

open XoDos.Geometry (Sound Legal)

variable [Platform]

def take (e : TerminalEmulator) : TerminalInput → Java TerminalEmulator
  | .codePoint b => e.processCodePoint b
  | .resize columns rows => e.resize columns rows

/-- A new terminal that has been given `inputs`. -/
def started (columns rows : Int) (transcriptRows : Option Int) (inputs : List TerminalInput) :
    Java TerminalEmulator :=
  new columns rows transcriptRows >>= fun e => inputs.foldlM take e

/-- A backspace in column 0, which is left of the left margin. -/
def BackspaceOutside (e : TerminalEmulator) (input : TerminalInput) : Prop :=
  input = .codePoint 8 ∧ e.mCursorCol = 0 ∧ e.mLeftMargin ≠ 0

theorem new_sound {columns rows : Int} (hc : 2 ≤ columns) (hr : 2 ≤ rows) (transcriptRows : Option Int) :
    Ensures (fun e => Sound False e.toGeometry) (new columns rows transcriptRows) := by
  unfold new
  refine .bind TerminalBuffer.new_size fun main hmain => ?_
  refine .bind TerminalBuffer.new_size fun alt halt => .bind_any fun stops => ?_
  refine .bind (Display.reset_sound ⟨hr, hc, halt.2.2.trans halt.2.1.symm, fun ha => Bool.noConfusion ha⟩
    ⟨hmain.1, hmain.2.1⟩ ⟨le_rfl, ?_⟩ ⟨le_rfl, ?_⟩) fun d hd => .ok hd
  · simp only [initialDisplay]
    omega
  · simp only [initialDisplay]
    omega

theorem processCodePoint_sound {e : TerminalEmulator} (h : Sound False e.toGeometry) {b : Nat}
    (hb : b = 8 → e.mCursorCol = 0 → e.mLeftMargin = 0) :
    Ensures (fun e' => Sound False e'.toGeometry) (e.processCodePoint b) := by
  unfold processCodePoint Terminal.processCodePoint
  refine .bind (P := fun t => Sound False t.toGeometry) ?_ fun t ht => .ok ht
  by_cases h₈ : b = 8
  · rw [h₈, Parser.processCodePoint_backspace, ok_bind]
    refine .bind (P := fun d => Sound False d.toGeometry) ?_ fun d hd => .ok hd
    exact .bind (Display.backspace_steps (hb h₈)) fun d hd => .ok (hd.sound h)
  · refine .bind (Parser.processCodePoint_proper _ b h₈) fun r hr => ?_
    exact .bind (.foldlM r.2 (fun d c hc hd => Display.control_sound hd (hr c hc)) h) fun d hd => .ok hd

theorem take_sound {e : TerminalEmulator} (h : Sound False e.toGeometry) {input : TerminalInput}
    (hinput : ¬e.BackspaceOutside input) :
    Ensures (fun e' => Sound False e'.toGeometry) (e.take input) := by
  cases input with
  | codePoint b =>
    apply processCodePoint_sound h
    intro hb hcol
    by_contra hleft
    exact hinput ⟨by rw [hb], hcol, hleft⟩
  | resize columns rows =>
    exact .bind (Display.resize_sound h) fun d hd => .ok hd

/-- The cursor leaves the screen. -/
theorem take_outside {e : TerminalEmulator} {input : TerminalInput} (h : e.BackspaceOutside input) :
    ∃ e', e.take input = .ok e' ∧ e'.mCursorCol = -1 := by
  rcases h with ⟨rfl, hcol, hleft⟩
  have hback : e.toDisplay.backspace = .ok (e.toDisplay.setCursorCol (-1)) := by
    unfold Display.backspace
    rw [if_neg (by rw [hcol]; exact hleft), hcol]
    rfl
  refine ⟨{ e with toDisplay := e.toDisplay.setCursorCol (-1) }, ?_, rfl⟩
  change e.processCodePoint 8 = _
  unfold processCodePoint
  rw [Terminal.processCodePoint_issued (Parser.processCodePoint_backspace e.toParser), Display.perform_one,
    Control.run, hback]
  rfl

theorem started_concat (columns rows : Int) (transcriptRows : Option Int) (inputs : List TerminalInput)
    (input : TerminalInput) : started columns rows transcriptRows (inputs ++ [input]) =
      started columns rows transcriptRows inputs >>= fun e => e.take input := by
  unfold started
  rw [bind_assoc]
  congr 1
  funext e
  rw [List.foldlM_append]
  congr 1
  funext e'
  rw [List.foldlM_cons]
  exact bind_pure _

/-- No input of a run is a backspace left of the left margin. -/
def StaysInside (columns rows : Int) (transcriptRows : Option Int) (inputs : List TerminalInput) : Prop :=
  ∀ before input rest e, inputs = before ++ input :: rest →
    started columns rows transcriptRows before = .ok e → ¬e.BackspaceOutside input

theorem started_sound {columns rows : Int} (hc : 2 ≤ columns) (hr : 2 ≤ rows) (transcriptRows : Option Int)
    {inputs : List TerminalInput} (h : StaysInside columns rows transcriptRows inputs) :
    Ensures (fun e => Sound False e.toGeometry) (started columns rows transcriptRows inputs) := by
  induction inputs using List.reverseRecOn with
  | nil => exact .bind (new_sound hc hr transcriptRows) fun e he => .ok he
  | append_singleton inputs input ih =>
    have hbefore : StaysInside columns rows transcriptRows inputs := by
      intro before i rest e hsplit he
      exact h before i (rest ++ [input]) e (by rw [hsplit]; simp) he
    rw [started_concat]
    intro e' he'
    obtain ⟨e, he, htake⟩ := bind_eq_ok.mp he'
    exact take_sound (ih hbefore e he) (h inputs input [] e rfl he) e' htake

/-- Cursor and margins are legal in every state of a run if and only if no backspace comes in column 0
while the left margin is further right. -/
theorem cursor_legal_iff {columns rows : Int} (hc : 2 ≤ columns) (hr : 2 ≤ rows)
    (transcriptRows : Option Int) (inputs : List TerminalInput) :
    (∀ before rest e, inputs = before ++ rest → started columns rows transcriptRows before = .ok e →
      Legal e.toGeometry) ↔ StaysInside columns rows transcriptRows inputs := by
  constructor
  · intro h before input rest e hsplit he hout
    obtain ⟨e', he', hcol⟩ := take_outside hout
    have hlegal := h (before ++ [input]) rest e' (by rw [hsplit]; simp) (by
      rw [started_concat, he, ok_bind, he'])
    have hcolumn := hlegal.column
    omega
  · intro h before rest e hsplit he
    have hbefore : StaysInside columns rows transcriptRows before := by
      intro before' input rest' e' hsplit' he'
      exact h before' input (rest' ++ rest) e' (by rw [hsplit, hsplit']; simp) he'
    exact (started_sound hc hr transcriptRows hbefore e he).toLegal

/-- `CSI ? 69 h`, `CSI 2 s`. -/
def leftMarginTwo : List TerminalInput :=
  [0x1b, 0x5b, 0x3f, 0x36, 0x39, 0x68, 0x1b, 0x5b, 0x32, 0x73].map .codePoint

omit [Platform] in
theorem cursor_legal_iff_backspace :
    ¬∀ before rest e, leftMarginTwo ++ [.codePoint 8] = before ++ rest →
      @started plainPlatform 4 2 (some 100) before = .ok e → Legal e.toGeometry := by
  rw [@cursor_legal_iff plainPlatform 4 2 (by decide) (by decide)]
  intro h
  have hrun : (@started plainPlatform 4 2 (some 100) leftMarginTwo).map (fun e =>
      (e.mCursorCol, e.mLeftMargin)) = .ok (0, 1) := by
    decide +kernel
  cases hs : @started plainPlatform 4 2 (some 100) leftMarginTwo with
  | error _ =>
    rw [hs] at hrun
    cases hrun
  | ok e =>
    rw [hs] at hrun
    obtain ⟨hcol, hleft⟩ := Prod.mk.inj (Except.ok.inj hrun)
    exact @h leftMarginTwo (.codePoint 8) [] e rfl hs ⟨rfl, hcol, by rw [hleft]; decide⟩

end TerminalEmulator

end XoDos
