import XoDos.BufferUpholds
import XoDos.TerminalEmulator

/-!
# Geometry that stays in range

`Legal` says that the cursor is on the screen and that the margins are margins.
`Sound` adds what keeps it so: the buffers have the size of the screen, or will
be given it.  With `S` it also says what rules out exceptions.  `Drawn` and
`Edited` say what an operation leaves alone.
-/

namespace XoDos

open TerminalBuffer (Kept)

variable {S : Prop}

namespace Geometry

variable {g g' g'' : Geometry}

structure Legal (g : Geometry) : Prop where
  row : 0 ≤ g.mCursorRow ∧ g.mCursorRow < g.mRows
  column : 0 ≤ g.mCursorCol ∧ g.mCursorCol < g.mColumns
  top : 0 ≤ g.mTopMargin
  bottom : g.mTopMargin + 2 ≤ g.mBottomMargin ∧ g.mBottomMargin ≤ g.mRows
  left : 0 ≤ g.mLeftMargin
  right : g.mLeftMargin < g.mRightMargin ∧ g.mRightMargin ≤ g.mColumns

/-- What rules out exceptions. -/
structure Strict (g : Geometry) : Prop where
  main : g.mMainBuffer.Valid
  alt : g.mAltBuffer.Valid
  total : g.mRows ≤ g.mMainBuffer.mTotalRows
  tabs : g.mTabStop.length = g.mColumns
  last : ∀ c, g.mLastEmittedCodePoint = some c → isScalar c = true

structure Sound (S : Prop) (g : Geometry) : Prop extends Legal g where
  room : g.mLeftMargin + 2 ≤ g.mColumns
  screenColumns : g.mScreen.mColumns = g.mColumns
  screenRows : g.mScreen.mScreenRows = g.mRows
  altTotal : g.mAltBuffer.mTotalRows = g.mAltBuffer.mScreenRows
  /-- The cursor that is restored with the main screen was saved on it. -/
  saved : g.altActive = true →
    (0 ≤ g.mSavedStateMain.mSavedCursorRow ∧
      g.mSavedStateMain.mSavedCursorRow < g.mMainBuffer.mScreenRows) ∧
    (0 ≤ g.mSavedStateMain.mSavedCursorCol ∧
      g.mSavedStateMain.mSavedCursorCol < g.mMainBuffer.mColumns)
  strict : S → Strict g

/-- The inequalities of a sound geometry. -/
theorem Sound.bounds (h : Sound S g) :
    (0 ≤ g.mCursorRow ∧ g.mCursorRow < g.mRows) ∧ (0 ≤ g.mCursorCol ∧ g.mCursorCol < g.mColumns) ∧
      (0 ≤ g.mTopMargin ∧ g.mTopMargin + 2 ≤ g.mBottomMargin ∧ g.mBottomMargin ≤ g.mRows) ∧
      0 ≤ g.mLeftMargin ∧ g.mLeftMargin < g.mRightMargin ∧ g.mRightMargin ≤ g.mColumns ∧
      g.mLeftMargin + 2 ≤ g.mColumns :=
  ⟨h.row, h.column, ⟨h.top, h.bottom⟩, h.left, h.right.1, h.right.2, h.room⟩

theorem Sound.screen (h : Sound S g) (hS : S) : g.mScreen.Valid := by
  unfold mScreen
  split_ifs
  · exact (h.strict hS).alt
  · exact (h.strict hS).main

/-- The sizes and margins are those of `g`, and only the current screen of the two buffers has been
written to. -/
structure Drawn (S : Prop) (g g' : Geometry) : Prop where
  rows : g'.mRows = g.mRows
  columns : g'.mColumns = g.mColumns
  topMargin : g'.mTopMargin = g.mTopMargin
  bottomMargin : g'.mBottomMargin = g.mBottomMargin
  leftMargin : g'.mLeftMargin = g.mLeftMargin
  rightMargin : g'.mRightMargin = g.mRightMargin
  tabs : g'.mTabStop = g.mTabStop
  altActive : g'.altActive = g.altActive
  savedMain : g'.mSavedStateMain = g.mSavedStateMain
  savedAlt : g'.mSavedStateAlt = g.mSavedStateAlt
  screen : (S → g.mScreen.Valid) → Kept S g.mScreen g'.mScreen
  main : g.altActive = true → g'.mMainBuffer = g.mMainBuffer
  alt : g.altActive = false → g'.mAltBuffer = g.mAltBuffer

/-- Besides, the cursor has not moved. -/
structure Edited (S : Prop) (g g' : Geometry) : Prop extends Drawn S g g' where
  cursorRow : g'.mCursorRow = g.mCursorRow
  cursorCol : g'.mCursorCol = g.mCursorCol
  wrap : g'.mAboutToAutoWrap = true → g.mAboutToAutoWrap = true
  last : g'.mLastEmittedCodePoint = g.mLastEmittedCodePoint

/-- The same buffers, sizes and margins. -/
theorem Drawn.of_eq (hmain : g'.mMainBuffer = g.mMainBuffer) (halt : g'.mAltBuffer = g.mAltBuffer)
    (hrows : g'.mRows = g.mRows) (hcolumns : g'.mColumns = g.mColumns)
    (htop : g'.mTopMargin = g.mTopMargin) (hbottom : g'.mBottomMargin = g.mBottomMargin)
    (hleft : g'.mLeftMargin = g.mLeftMargin) (hright : g'.mRightMargin = g.mRightMargin)
    (htabs : g'.mTabStop = g.mTabStop) (hactive : g'.altActive = g.altActive)
    (hsavedMain : g'.mSavedStateMain = g.mSavedStateMain)
    (hsavedAlt : g'.mSavedStateAlt = g.mSavedStateAlt) : Drawn S g g' :=
  ⟨hrows, hcolumns, htop, hbottom, hleft, hright, htabs, hactive, hsavedMain, hsavedAlt,
    fun h => by
      have : g'.mScreen = g.mScreen := by rw [mScreen, mScreen, hactive, hmain, halt]
      rw [this]
      exact .refl h,
    fun _ => hmain, fun _ => halt⟩

theorem Drawn.refl (g : Geometry) : Drawn S g g :=
  .of_eq rfl rfl rfl rfl rfl rfl rfl rfl rfl rfl rfl rfl

theorem Drawn.trans (h : Drawn S g g') (h' : Drawn S g' g'') : Drawn S g g'' where
  rows := h'.rows.trans h.rows
  columns := h'.columns.trans h.columns
  topMargin := h'.topMargin.trans h.topMargin
  bottomMargin := h'.bottomMargin.trans h.bottomMargin
  leftMargin := h'.leftMargin.trans h.leftMargin
  rightMargin := h'.rightMargin.trans h.rightMargin
  tabs := h'.tabs.trans h.tabs
  altActive := h'.altActive.trans h.altActive
  savedMain := h'.savedMain.trans h.savedMain
  savedAlt := h'.savedAlt.trans h.savedAlt
  screen := fun hv => (h.screen hv).trans (h'.screen (h.screen hv).valid)
  main := fun ha => (h'.main (h.altActive.trans ha)).trans (h.main ha)
  alt := fun ha => (h'.alt (h.altActive.trans ha)).trans (h.alt ha)

theorem Edited.refl (g : Geometry) : Edited S g g := ⟨.refl g, rfl, rfl, id, rfl⟩

theorem Edited.trans (h : Edited S g g') (h' : Edited S g' g'') : Edited S g g'' :=
  ⟨h.toDrawn.trans h'.toDrawn, h'.cursorRow.trans h.cursorRow, h'.cursorCol.trans h.cursorCol,
    fun hw => h.wrap (h'.wrap hw), h'.last.trans h.last⟩

/-- The equations of an edit. -/
theorem Edited.same (h : Edited S g g') :
    g'.mCursorRow = g.mCursorRow ∧ g'.mCursorCol = g.mCursorCol ∧ g'.mRows = g.mRows ∧
      g'.mColumns = g.mColumns ∧ g'.mTopMargin = g.mTopMargin ∧ g'.mBottomMargin = g.mBottomMargin ∧
      g'.mLeftMargin = g.mLeftMargin ∧ g'.mRightMargin = g.mRightMargin :=
  ⟨h.cursorRow, h.cursorCol, h.rows, h.columns, h.topMargin, h.bottomMargin, h.leftMargin,
    h.rightMargin⟩

/-- Drawing keeps the geometry sound if the cursor stays on the screen. -/
theorem Sound.drawn (h : Sound S g) (hd : Drawn S g g')
    (hrow : 0 ≤ g'.mCursorRow ∧ g'.mCursorRow < g.mRows)
    (hcol : 0 ≤ g'.mCursorCol ∧ g'.mCursorCol < g.mColumns)
    (hlast : S → ∀ c, g'.mLastEmittedCodePoint = some c → isScalar c = true) : Sound S g' := by
  -- What is drawn goes to the buffer on the screen, and the other one stays as it is.
  have hk := hd.screen fun hS => h.screen hS
  have haltTotal : g'.mAltBuffer.mTotalRows = g'.mAltBuffer.mScreenRows := by
    cases ha : g.altActive with
    | true =>
      have ha' := hd.altActive.trans ha
      have htotal := h.altTotal
      simp only [mScreen, ha, ha', if_true] at hk
      rw [hk.total, hk.screen, htotal]
    | false => rw [hd.alt ha, h.altTotal]
  refine ⟨⟨hd.rows ▸ hrow, hd.columns ▸ hcol, ?_, ?_, ?_, ?_⟩, ?_, ?_, ?_, haltTotal, ?_, fun hS => ?_⟩
  · rw [hd.topMargin]
    exact h.top
  · rw [hd.topMargin, hd.bottomMargin, hd.rows]
    exact h.bottom
  · rw [hd.leftMargin]
    exact h.left
  · rw [hd.leftMargin, hd.rightMargin, hd.columns]
    exact h.right
  · rw [hd.leftMargin, hd.columns]
    exact h.room
  · rw [hk.columns, hd.columns, h.screenColumns]
  · rw [hk.screen, hd.rows, h.screenRows]
  · intro ha
    rw [hd.altActive] at ha
    rw [hd.savedMain, hd.main ha]
    exact h.saved ha
  · have hs := h.strict hS
    have hv := hk.valid hS
    cases ha : g.altActive with
    | true =>
      have ha' := hd.altActive.trans ha
      simp only [mScreen, ha', if_true] at hv
      exact ⟨hd.main ha ▸ hs.main, hv, by rw [hd.rows, hd.main ha]; exact hs.total,
        by rw [hd.tabs, hd.columns]; exact hs.tabs, hlast hS⟩
    | false =>
      have ha' := hd.altActive.trans ha
      have htotal := hk.total
      simp only [mScreen, ha, ha', Bool.false_eq_true, if_false] at hv htotal
      exact ⟨hv, hd.alt ha ▸ hs.alt, by rw [hd.rows, htotal]; exact hs.total,
        by rw [hd.tabs, hd.columns]; exact hs.tabs, hlast hS⟩

theorem Sound.edited (h : Sound S g) (hd : Edited S g g') : Sound S g' :=
  h.drawn hd.toDrawn (hd.cursorRow ▸ h.row) (hd.cursorCol ▸ h.column)
    fun hS c hc => (h.strict hS).last c (hd.last ▸ hc)

/-- Moving the cursor on the screen. -/
theorem Sound.moved (h : Sound S g) {row col : Int} (w : Bool) (hrow : 0 ≤ row ∧ row < g.mRows)
    (hcol : 0 ≤ col ∧ col < g.mColumns) :
    Sound S { g with mCursorRow := row, mCursorCol := col, mAboutToAutoWrap := w } :=
  h.drawn (.of_eq rfl rfl rfl rfl rfl rfl rfl rfl rfl rfl rfl rfl) hrow hcol
    fun hS => (h.strict hS).last

end Geometry

namespace Display

open XoDos.Geometry (Sound Drawn Edited)

variable {d d' : Display}

theorem clearWrap_edited (d : Display) : Edited S d.toGeometry d.clearWrap.toGeometry :=
  ⟨.of_eq rfl rfl rfl rfl rfl rfl rfl rfl rfl rfl rfl rfl, rfl, rfl, Bool.noConfusion, rfl⟩

/-- The scroll counter is not part of the geometry. -/
theorem countScroll_edited (d : Display) : Edited S d.toGeometry d.countScroll.toGeometry := .refl _

theorem setScreen_mScreen (d : Display) (b : TerminalBuffer) : (d.setScreen b).mScreen = b := by
  unfold Geometry.mScreen setScreen
  simp only
  split_ifs <;> rfl

/-- A method of the current screen. -/
theorem setScreen_edited {b : TerminalBuffer} (h : Kept S d.mScreen b) :
    Edited S d.toGeometry (d.setScreen b).toGeometry where
  rows := rfl
  columns := rfl
  topMargin := rfl
  bottomMargin := rfl
  leftMargin := rfl
  rightMargin := rfl
  tabs := rfl
  altActive := rfl
  savedMain := rfl
  savedAlt := rfl
  screen := fun _ => by
    rw [setScreen_mScreen]
    exact h
  main := fun ha => by simp [setScreen, ha]
  alt := fun ha => by simp [setScreen, ha]
  cursorRow := rfl
  cursorCol := rfl
  wrap := id
  last := rfl

theorem onScreen_upholds {f : ShortStore → TerminalBuffer → Java TerminalBuffer}
    (hf : Upholds S (Kept S d.mScreen) fun m => f m d.mScreen) :
    Upholds S (fun d' => Edited S d.toGeometry d'.toGeometry) fun m => d.onScreen (f m) := by
  simp only [onScreen]
  exact hf.bind fun b hb => .ok (setScreen_edited hb)

theorem blockSet_edited (h : S → Sound S d.toGeometry) {sx sy w h' : Int} {val : Nat} {style : Style}
    (hs : S → isScalar val = true ∧ WcWidth.width val = 1)
    (hrange : S → 0 ≤ sx ∧ sx + w ≤ d.mColumns ∧ 0 ≤ sy ∧ sy + h' ≤ d.mRows) :
    Upholds S (fun d' => Edited S d.toGeometry d'.toGeometry) fun _ =>
      d.onScreen fun b => b.blockSet sx sy w h' val style := by
  refine onScreen_upholds (TerminalBuffer.blockSet_upholds (fun hS => (h hS).screen hS) hs fun hS => ?_)
  rw [(h hS).screenColumns, (h hS).screenRows]
  exact hrange hS

theorem isScalar_space : isScalar 0x20 = true ∧ WcWidth.width 0x20 = 1 := ⟨rfl, WcWidth.width_space⟩

theorem blockClear_edited (h : S → Sound S d.toGeometry) {sx sy w h' : Int}
    (hrange : S → 0 ≤ sx ∧ sx + w ≤ d.mColumns ∧ 0 ≤ sy ∧ sy + h' ≤ d.mRows) :
    Upholds S (fun d' => Edited S d.toGeometry d'.toGeometry) fun _ => d.blockClear sx sy w h' :=
  blockSet_edited h (fun _ => isScalar_space) hrange

theorem blockCopy_edited (h : S → Sound S d.toGeometry) {sx sy w h' dx dy : Int}
    (hrange : S → 0 ≤ w ∧ 0 ≤ sx ∧ sx + w ≤ d.mColumns ∧ 0 ≤ sy ∧ sy + h' ≤ d.mRows ∧ 0 ≤ dx ∧
      dx + w ≤ d.mColumns ∧ 0 ≤ dy ∧ dy + h' ≤ d.mRows) :
    Upholds S (fun d' => Edited S d.toGeometry d'.toGeometry) fun _ =>
      d.onScreen fun b => b.blockCopy sx sy w h' dx dy := by
  refine onScreen_upholds (TerminalBuffer.blockCopy_upholds (fun hS => (h hS).screen hS) fun hS => ?_)
  have hroom := (h hS).room
  have hleft := (h hS).left
  rw [(h hS).screenColumns, (h hS).screenRows]
  exact ⟨by omega, hrange hS⟩

/-- An edit after an edit. -/
theorem edited_bind {f : ShortStore → Java Display} {f' : ShortStore → Display → Java Display}
    (hf : Upholds S (fun d' => Edited S d.toGeometry d'.toGeometry) f)
    (hf' : ∀ d₁ : Display, Edited S d.toGeometry d₁.toGeometry →
      Upholds S (fun d' => Edited S d₁.toGeometry d'.toGeometry) fun m => f' m d₁) :
    Upholds S (fun d' => Edited S d.toGeometry d'.toGeometry) fun m => f m >>= f' m :=
  hf.bind fun d₁ h₁ => (hf' d₁ h₁).mono fun _ h₂ => h₁.trans h₂

end Display

end XoDos
