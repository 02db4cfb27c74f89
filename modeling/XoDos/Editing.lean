import XoDos.Controls

/-!
# Control functions that edit the screen

Moving the cursor over the screen, and inserting, deleting, erasing, copying and
filling cells, once the parameters have been read.
-/

namespace XoDos

namespace Display

variable [ShortStore]

/-! ## Control characters -/

def backspace (d : Display) : Java Display := do
  if d.mLeftMargin = d.mCursorCol then
    -- Jump to previous line if it was auto-wrapped.
    let previousRow := d.mCursorRow - 1
    if 0 ≤ previousRow then
      let wrapped ← d.mScreen.getLineWrap previousRow
      if wrapped then
        let d ← d.onScreen fun b => b.clearLineWrap previousRow
        return d.setCursorRowCol previousRow (d.mRightMargin - 1)
      else return d
    else return d
  else return d.setCursorCol (d.mCursorCol - 1)

def horizontalTab (d : Display) : Java Display := do
  let col ← d.nextTabStop 1
  return { d with mCursorCol := col }

/-- CBT -/
def backwardTab (d : Display) (numberOfTabs : Int) : Java Display := do
  let col ← d.previousTabStopLoop d.mCursorCol.toNat numberOfTabs
  return { d with mCursorCol := col }

/-! ## Cells of a line -/

/-- ICH -/
def insertCharacters (d : Display) (n : Int) : Java Display := do
  let d := d.clearWrap
  let columnsAfterCursor := d.mColumns - d.mCursorCol
  let spacesToInsert := min n columnsAfterCursor
  let charsToMove := columnsAfterCursor - spacesToInsert
  let d ← d.onScreen fun b => b.blockCopy d.mCursorCol d.mCursorRow charsToMove 1
    (d.mCursorCol + spacesToInsert) d.mCursorRow
  d.blockClear d.mCursorCol d.mCursorRow spacesToInsert 1

/-- DCH -/
def deleteCharacters (d : Display) (n : Int) : Java Display := do
  let d := d.clearWrap
  let cellsAfterCursor := d.mColumns - d.mCursorCol
  let cellsToDelete := min n cellsAfterCursor
  let cellsToMove := cellsAfterCursor - cellsToDelete
  let d ← d.onScreen fun b => b.blockCopy (d.mCursorCol + cellsToDelete) d.mCursorRow cellsToMove 1
    d.mCursorCol d.mCursorRow
  d.blockClear (d.mCursorCol + cellsToMove) d.mCursorRow cellsToDelete 1

/-- ECH -/
def eraseCharacters (d : Display) (n : Int) : Java Display :=
  let d := d.clearWrap
  d.onScreen fun b => b.blockSet d.mCursorCol d.mCursorRow (min n (d.mColumns - d.mCursorCol)) 1 0x20
    d.getStyle

/-- ED 0, 1 and 2. -/
def eraseInDisplay (d : Display) (arg : Int) : Java Display := do
  let d ←
    (if arg = 0 then do
      let d ← d.blockClear d.mCursorCol d.mCursorRow (d.mColumns - d.mCursorCol) 1
      d.blockClear 0 (d.mCursorRow + 1) d.mColumns (d.mRows - (d.mCursorRow + 1))
    else if arg = 1 then do
      let d ← d.blockClear 0 0 d.mColumns d.mCursorRow
      d.blockClear 0 d.mCursorRow (d.mCursorCol + 1) 1
    else d.blockClear 0 0 d.mColumns d.mRows)
  return d.clearWrap

/-- EL 0, 1 and 2. -/
def eraseInLine (d : Display) (arg : Int) : Java Display := do
  let d ←
    (if arg = 0 then d.blockClear d.mCursorCol d.mCursorRow (d.mColumns - d.mCursorCol) 1
    else if arg = 1 then d.blockClear 0 d.mCursorRow (d.mCursorCol + 1) 1
    else d.blockClear 0 d.mCursorRow d.mColumns 1)
  return d.clearWrap

/-- REP -/
def repeatCharacter (d : Display) (numRepeat : Int) : Java Display :=
  match d.mLastEmittedCodePoint with
  | none => .ok d
  | some codePoint => forUp 0 numRepeat (fun _ d => d.emitCodePoint codePoint) d

/-! ## Lines -/

/-- IL -/
def insertLines (d : Display) (n : Int) : Java Display := do
  let linesAfterCursor := d.mBottomMargin - d.mCursorRow
  let linesToInsert := min n linesAfterCursor
  let linesToMove := linesAfterCursor - linesToInsert
  let d ← d.onScreen fun b => b.blockCopy 0 d.mCursorRow d.mColumns linesToMove 0
    (d.mCursorRow + linesToInsert)
  d.blockClear 0 d.mCursorRow d.mColumns linesToInsert

/-- DL -/
def deleteLines (d : Display) (n : Int) : Java Display := do
  let d := d.clearWrap
  let linesAfterCursor := d.mBottomMargin - d.mCursorRow
  let linesToDelete := min n linesAfterCursor
  let linesToMove := linesAfterCursor - linesToDelete
  let d ← d.onScreen fun b => b.blockCopy 0 (d.mCursorRow + linesToDelete) d.mColumns linesToMove 0
    d.mCursorRow
  d.blockClear 0 (d.mCursorRow + linesToMove) d.mColumns linesToDelete

/-- SU -/
def scrollUp (d : Display) (linesToScroll : Int) : Java Display :=
  forUp 0 linesToScroll (fun _ d => d.scrollDownOneLine) d

/-- SD -/
def scrollDown (d : Display) (linesToScrollArg : Int) : Java Display := do
  let linesBetweenTopAndBottomMargins := d.mBottomMargin - d.mTopMargin
  let linesToScroll := min linesBetweenTopAndBottomMargins linesToScrollArg
  let d ← d.onScreen fun b => b.blockCopy 0 d.mTopMargin d.mColumns
    (linesBetweenTopAndBottomMargins - linesToScroll) 0 (d.mTopMargin + linesToScroll)
  d.blockClear 0 d.mTopMargin d.mColumns linesToScroll

/-- RI -/
def reverseIndex (d : Display) : Java Display := do
  if d.mCursorRow ≤ d.mTopMargin then
    let d ← d.onScreen fun b => b.blockCopy 0 d.mTopMargin d.mColumns
      (d.mBottomMargin - (d.mTopMargin + 1)) 0 (d.mTopMargin + 1)
    d.blockClear 0 d.mTopMargin d.mColumns 1
  else return { d with mCursorRow := d.mCursorRow - 1 }

/-! ## Columns -/

/-- DECBI -/
def backIndex (d : Display) : Java Display := do
  if d.mLeftMargin < d.mCursorCol then return { d with mCursorCol := d.mCursorCol - 1 }
  else
  let rows := d.mBottomMargin - d.mTopMargin
  let d ← d.onScreen fun b => b.blockCopy d.mLeftMargin d.mTopMargin
    (d.mRightMargin - d.mLeftMargin - 1) rows (d.mLeftMargin + 1) d.mTopMargin
  d.onScreen fun b => b.blockSet d.mLeftMargin d.mTopMargin 1 rows 0x20
    (TextStyle.encode d.mForeColor d.mBackColor 0)

/-- DECFI -/
def forwardIndex (d : Display) : Java Display := do
  if d.mCursorCol < d.mRightMargin - 1 then return { d with mCursorCol := d.mCursorCol + 1 }
  else
  let rows := d.mBottomMargin - d.mTopMargin
  let d ← d.onScreen fun b => b.blockCopy (d.mLeftMargin + 1) d.mTopMargin
    (d.mRightMargin - d.mLeftMargin - 1) rows d.mLeftMargin d.mTopMargin
  d.onScreen fun b => b.blockSet (d.mRightMargin - 1) d.mTopMargin 1 rows 0x20
    (TextStyle.encode d.mForeColor d.mBackColor 0)

/-- DECIC -/
def insertColumns (d : Display) (n : Int) : Java Display := do
  let columnsAfterCursor := d.mRightMargin - d.mCursorCol
  let columnsToInsert := min n columnsAfterCursor
  let columnsToMove := columnsAfterCursor - columnsToInsert
  let d ← d.onScreen fun b => b.blockCopy d.mCursorCol 0 columnsToMove d.mRows
    (d.mCursorCol + columnsToInsert) 0
  d.blockClear d.mCursorCol 0 columnsToInsert d.mRows

/-- DECDC -/
def deleteColumns (d : Display) (n : Int) : Java Display :=
  let columnsAfterCursor := d.mRightMargin - d.mCursorCol
  let columnsToDelete := min n columnsAfterCursor
  let columnsToMove := columnsAfterCursor - columnsToDelete
  d.onScreen fun b => b.blockCopy (d.mCursorCol + columnsToDelete) 0 columnsToMove d.mRows
    d.mCursorCol 0

/-! ## Rectangles -/

/-- One cell of DECFRA, DECERA and DECSERA, and of DECSED and DECSEL. -/
def fillCell (fillChar : Nat) (style : Style) (selective keepVisualAttributes : Bool) (row col : Int)
    (b : TerminalBuffer) : Java TerminalBuffer := do
  let (b, isProtected) ←
    (if selective then do
      let (b, cell) ← b.getStyleAt row col
      return (b, decide (TextStyle.decodeEffect cell &&& TextStyle.attributeProtected ≠ 0))
    else .ok (b, false))
  if isProtected then return b
  else
  let (b, style) ← (if keepVisualAttributes then b.getStyleAt row col else .ok (b, style))
  b.setChar col row fillChar style

def fillCells (d : Display) (fillChar : Nat) (selective keepVisualAttributes : Bool)
    (startRow endRow startCol endCol : Int) : Java Display :=
  d.onScreen fun b =>
    forUp startRow endRow (fun row b =>
      forUp startCol endCol (fillCell fillChar d.getStyle selective keepVisualAttributes row) b) b

/-- DECSED, or DECSEL if `justRow`, with the arguments 0, 1 and 2. -/
def selectiveErase (d : Display) (justRow : Bool) (arg : Int) : Java Display :=
  let d := d.clearWrap
  if arg = 0 then
    d.fillCells 0x20 true false d.mCursorRow (if justRow then d.mCursorRow + 1 else d.mRows)
      d.mCursorCol d.mColumns
  else if arg = 1 then
    d.fillCells 0x20 true false (if justRow then d.mCursorRow else 0) (d.mCursorRow + 1) 0
      (d.mCursorCol + 1)
  else if arg = 2 then
    d.fillCells 0x20 true false (if justRow then d.mCursorRow else 0)
      (if justRow then d.mCursorRow + 1 else d.mRows) 0 d.mColumns
  else .ok d

/-- DECFRA, DECERA and DECSERA. -/
def fillRectangle (d : Display) (fillChar : Int) (selective : Bool) (top left bottom right : Int) :
    Java Display :=
  if (32 ≤ fillChar ∧ fillChar ≤ 126) ∨ (160 ≤ fillChar ∧ fillChar ≤ 255) then
    let top := min (top + d.effectiveTopMargin) (d.effectiveBottomMargin + 1)
    let left := min (left + d.effectiveLeftMargin) (d.effectiveRightMargin + 1)
    let bottom := min (bottom + d.effectiveTopMargin) d.effectiveBottomMargin
    let right := min (right + d.effectiveLeftMargin) d.effectiveRightMargin
    d.fillCells fillChar.toNat selective selective (top - 1) bottom (left - 1) right
  else .ok d

/-- DECCRA -/
def copyRectangle (d : Display) (top left bottom right destinationTop destinationLeft : Int) :
    Java Display :=
  let topSource := min (top - 1 + d.effectiveTopMargin) d.mRows
  let leftSource := min (left - 1 + d.effectiveLeftMargin) d.mColumns
  -- Inclusive, so do not subtract one:
  let bottomSource := min (max (bottom + d.effectiveTopMargin) topSource) d.mRows
  let rightSource := min (max (right + d.effectiveLeftMargin) leftSource) d.mColumns
  let destinationTop := min (destinationTop - 1 + d.effectiveTopMargin) d.mRows
  let destinationLeft := min (destinationLeft - 1 + d.effectiveLeftMargin) d.mColumns
  let heightToCopy := min (d.mRows - destinationTop) (bottomSource - topSource)
  let widthToCopy := min (d.mColumns - destinationLeft) (rightSource - leftSource)
  d.onScreen fun b => b.blockCopy leftSource topSource widthToCopy heightToCopy destinationLeft
    destinationTop

/-- The rectangle of DECCARA and DECRARA: top, left, bottom and right.  The margins of origin mode
are added after the bounds are taken. -/
def attributeRectangle (d : Display) (top left bottom right : Int) : Int × Int × Int × Int :=
  (min (top - 1) d.effectiveBottomMargin + d.effectiveTopMargin,
   min (left - 1) d.effectiveRightMargin + d.effectiveLeftMargin,
   min (bottom + 1) (d.effectiveBottomMargin - 1) + d.effectiveTopMargin,
   min (right + 1) (d.effectiveRightMargin - 1) + d.effectiveLeftMargin)

/-- The effect bits of an attribute of DECCARA and DECRARA, and whether they are set or cleared. -/
def attributeBits (code : Int) (reverse : Bool) : BitVec 32 × Bool :=
  if code = 0 then
    (TextStyle.attributeBold ||| TextStyle.attributeUnderline ||| TextStyle.attributeBlink |||
      TextStyle.attributeInverse, reverse)
  else if code = 1 then (TextStyle.attributeBold, true)
  else if code = 4 then (TextStyle.attributeUnderline, true)
  else if code = 5 then (TextStyle.attributeBlink, true)
  else if code = 7 then (TextStyle.attributeInverse, true)
  else if code = 22 then (TextStyle.attributeBold, false)
  else if code = 24 then (TextStyle.attributeUnderline, false)
  else if code = 25 then (TextStyle.attributeBlink, false)
  else if code = 27 then (TextStyle.attributeInverse, false)
  else (0, true)

/-- One attribute of DECCARA, or of DECRARA if `reverse`. -/
def changeAttribute (d : Display) (reverse : Bool) (rectangle : Int × Int × Int × Int)
    (code : Int) : Java Display :=
  let (top, left, bottom, right) := rectangle
  let (bits, setOrClear) := attributeBits code reverse
  -- Reverse attributes in rectangular area ignores non-(1,4,5,7) bits.
  if reverse ∧ setOrClear = false then .ok d
  else d.onScreen fun b => b.setOrClearEffect bits setOrClear reverse
    (d.isDecsetInternalBitSet Decset.rectangularChangeattribute) d.effectiveLeftMargin
    d.effectiveRightMargin top left bottom right

/-! ## Modes and margins -/

/-- DECCOLM, of which only the side effects are implemented. -/
def resetPage (d : Display) : Java Display := do
  let d := { d with
    mLeftMargin := 0
    mTopMargin := 0
    mBottomMargin := d.mRows
    mRightMargin := d.mColumns }
  let d := d.setDecsetinternalBit Decset.leftrightMarginMode false
  let d ← d.blockClear 0 0 d.mColumns d.mRows
  return d.setCursorRowCol 0 0

/-- DECSTBM -/
def setTopBottomMargins (d : Display) (top bottom : Int) : Display :=
  let topMargin := max 0 (min (top - 1) (d.mRows - 2))
  Display.setCursorPosition { d with
    mTopMargin := topMargin
    mBottomMargin := max (topMargin + 2) (min bottom d.mRows) } 0 0

/-- DECSLRM -/
def setLeftRightMargins (d : Display) (left right : Int) : Display :=
  let leftMargin := min (left - 1) (d.mColumns - 2)
  Display.setCursorPosition { d with
    mLeftMargin := leftMargin
    mRightMargin := max (leftMargin + 1) (min right d.mColumns) } 0 0

/-- The part of `reset` that concerns the display.  The cursor stays where it is. -/
def reset [Platform] (d : Display) : Java Display := do
  let style := if Platform.hasClient then Platform.getTerminalCursorStyle else none
  let flags := Decset.autowrap ||| Decset.cursorEnabled
  let saved (state : SavedScreenState) : SavedScreenState :=
    { state with
      mSavedForeColor := TextStyle.colorIndexForeground
      mSavedBackColor := TextStyle.colorIndexBackground
      mSavedCursorRow := 0
      mSavedCursorCol := 0
      mSavedEffect := 0
      mSavedDecFlags := flags }
  let d := { d with
    mCursorStyle := (style.bind CursorStyle.ofInt).getD .block
    mInsertMode := false
    mTopMargin := 0
    mLeftMargin := 0
    mBottomMargin := d.mRows
    mRightMargin := d.mColumns
    mAboutToAutoWrap := false
    mForeColor := TextStyle.colorIndexForeground
    mBackColor := TextStyle.colorIndexBackground }
  let d ← d.setDefaultTabStops
  return Display.tell { d with
    mUseLineDrawingG0 := false
    mUseLineDrawingG1 := false
    mUseLineDrawingUsesG0 := true
    mSavedStateMain := saved d.mSavedStateMain
    mSavedStateAlt := saved d.mSavedStateAlt
    mCurrentDecSetFlags := flags
    mSavedDecSetFlags := flags
    mColors := TerminalColors.reset } .onColorsChanged

end Display

end XoDos
