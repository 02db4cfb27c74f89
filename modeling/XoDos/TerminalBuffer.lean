import XoDos.RowInvariant

/-!
# `TerminalBuffer`

A circular buffer of `TerminalRow`s, part of which is the screen and part of
which is the history above it.  Rows are objects: `rows` holds every row that
was allocated, a reference is an index into it, and `mLines` is an array of
references or null.
-/

namespace XoDos

open WcWidth (width)

structure TerminalBuffer where
  rows : List TerminalRow
  mLines : List (Option Nat)
  mTotalRows : Int
  mScreenRows : Int
  mColumns : Int
  mActiveTranscriptRows : Int
  mScreenFirstRow : Int

namespace TerminalBuffer

/-- The row object behind a reference, which may be null. -/
def deref (b : TerminalBuffer) : Option Nat → Java TerminalRow
  | none => .error .nullPointer
  | some line =>
    match b.rows[line]? with
    | some r => .ok r
    | none => .error .nullPointer

/-- The state after a method of the row object `line` has left it as `r`. -/
def update (b : TerminalBuffer) (line : Nat) (r : TerminalRow) : TerminalBuffer :=
  { b with rows := b.rows.set line r }

/-- `internalRow % totalRows` -/
def modRows (internalRow totalRows : Int) : Java Int :=
  if totalRows = 0 then .error .arithmetic else .ok (internalRow.tmod totalRows)

/-- Convert a row from the external coordinate system, in which the screen starts at row 0 and the
history has negative rows, to an index of `mLines`. -/
def externalToInternalRow (b : TerminalBuffer) (externalRow : Int) : Java Int :=
  if externalRow < -b.mActiveTranscriptRows ∨ b.mScreenRows < externalRow then
    .error .illegalArgument
  else
    let internalRow := b.mScreenFirstRow + externalRow
    if internalRow < 0 then .ok (b.mTotalRows + internalRow) else modRows internalRow b.mTotalRows

/-- The reference in `mLines` at an external row. -/
def lineAt (b : TerminalBuffer) (externalRow : Int) : Java (Option Nat) := do
  let internalRow ← b.externalToInternalRow externalRow
  arrayGet b.mLines internalRow

/-- `mLines[externalToInternalRow(row)].mLineWrap = wrap` -/
def putLineWrap (b : TerminalBuffer) (row : Int) (wrap : Bool) : Java TerminalBuffer := do
  let line ← b.lineAt row
  let r ← b.deref line
  match line with
  | some line => return b.update line { r with mLineWrap := wrap }
  | none => return b

def setLineWrap (b : TerminalBuffer) (row : Int) : Java TerminalBuffer := b.putLineWrap row true

def clearLineWrap (b : TerminalBuffer) (row : Int) : Java TerminalBuffer := b.putLineWrap row false

def getLineWrap (b : TerminalBuffer) (row : Int) : Java Bool := do
  let line ← b.lineAt row
  let r ← b.deref line
  return r.mLineWrap

/-- The loop of `blockCopyLinesDown`, from `i` down to 0. -/
def copyLinesLoop (srcInternal totalRows : Int) : Nat → List (Option Nat) → Java (List (Option Nat))
  | 0, lines => .ok lines
  | i + 1, lines => do
    let source ← modRows (srcInternal + i) totalRows
    let line ← arrayGet lines source
    let target ← modRows (srcInternal + i + 1) totalRows
    let lines ← arraySet lines target line
    copyLinesLoop srcInternal totalRows i lines

def blockCopyLinesDown (b : TerminalBuffer) (srcInternal len : Int) : Java TerminalBuffer := do
  if len = 0 then return b
  else
  let start := len - 1
  -- Save away line to be overwritten.
  let last ← modRows (srcInternal + start + 1) b.mTotalRows
  let lineToBeOverWritten ← arrayGet b.mLines last
  -- Do the copy from bottom to top.
  let lines ← copyLinesLoop srcInternal b.mTotalRows (start + 1).toNat b.mLines
  -- Put back overwritten line, now above the block.
  let first ← modRows srcInternal b.mTotalRows
  let lines ← arraySet lines first lineToBeOverWritten
  return { b with mLines := lines }

/-- The end of `clearTranscript` is common to both of its branches. -/
def clearTranscript (b : TerminalBuffer) : Java TerminalBuffer := do
  let lines ←
    (if b.mScreenFirstRow < b.mActiveTranscriptRows then do
      let lines ← arraysFill b.mLines (b.mTotalRows + b.mScreenFirstRow - b.mActiveTranscriptRows)
        b.mTotalRows none
      arraysFill lines 0 b.mScreenFirstRow none
    else
      arraysFill b.mLines (b.mScreenFirstRow - b.mActiveTranscriptRows) b.mScreenFirstRow none)
  return { b with mLines := lines, mActiveTranscriptRows := 0 }

section

variable [ShortStore]

/-- Put a new row object into slot `i`. -/
def allocate (b : TerminalBuffer) (i : Int) (style : Style) : Java (TerminalBuffer × Nat) := do
  let r ← TerminalRow.new b.mColumns style
  let lines ← arraySet b.mLines i (some b.rows.length)
  return ({ b with rows := b.rows ++ [r], mLines := lines }, b.rows.length)

def allocateFullLineIfNecessary (b : TerminalBuffer) (row : Int) : Java (TerminalBuffer × Nat) := do
  let line ← arrayGet b.mLines row
  match line with
  | none => b.allocate row 0
  | some line => return (b, line)

def setChar (b : TerminalBuffer) (column row : Int) (codePoint : Nat) (style : Style) :
    Java TerminalBuffer := do
  if row < 0 ∨ b.mScreenRows ≤ row ∨ column < 0 ∨ b.mColumns ≤ column then .error .illegalArgument
  else
  let row ← b.externalToInternalRow row
  let (b, line) ← b.allocateFullLineIfNecessary row
  let r ← b.deref (some line)
  let r ← r.setChar column codePoint style
  return b.update line r

def getStyleAt (b : TerminalBuffer) (externalRow column : Int) : Java (TerminalBuffer × Style) := do
  let row ← b.externalToInternalRow externalRow
  let (b, line) ← b.allocateFullLineIfNecessary row
  let r ← b.deref (some line)
  let style ← r.getStyle column
  return (b, style)

def blockSet (b : TerminalBuffer) (sx sy w h : Int) (val : Nat) (style : Style) :
    Java TerminalBuffer :=
  if sx < 0 ∨ b.mColumns < sx + w ∨ sy < 0 ∨ b.mScreenRows < sy + h then .error .illegalArgument
  else
    forUp 0 h (fun y b => forUp 0 w (fun x b => b.setChar (sx + x) (sy + y) val style) b) b

/-- One row of `blockCopy`. -/
def copyRow (b : TerminalBuffer) (sx w dx source destination : Int) : Java TerminalBuffer := do
  let source ← b.externalToInternalRow source
  let (b, sourceLine) ← b.allocateFullLineIfNecessary source
  let destination ← b.externalToInternalRow destination
  let (b, line) ← b.allocateFullLineIfNecessary destination
  let sourceRow ← b.deref (some sourceLine)
  let r ← b.deref (some line)
  let r ← r.copyInterval sourceRow (sourceLine = line) sx (sx + w) dx
  return b.update line r

def blockCopy (b : TerminalBuffer) (sx sy w h dx dy : Int) : Java TerminalBuffer :=
  if w = 0 then .ok b
  else if sx < 0 ∨ b.mColumns < sx + w ∨ sy < 0 ∨ b.mScreenRows < sy + h ∨ dx < 0 ∨
      b.mColumns < dx + w ∨ dy < 0 ∨ b.mScreenRows < dy + h then .error .illegalArgument
  else
    let copyingUp := dy < sy
    forUp 0 h (fun y b =>
      let y2 := if copyingUp then y else h - (y + 1)
      b.copyRow sx w dx (sy + y2) (dy + y2)) b

def new (columns totalRows screenRows : Int) : Java TerminalBuffer := do
  let lines ← newArray totalRows none
  blockSet
    { rows := [], mLines := lines, mTotalRows := totalRows, mScreenRows := screenRows,
      mColumns := columns, mActiveTranscriptRows := 0, mScreenFirstRow := 0 }
    0 0 columns screenRows 0x20 TextStyle.normal

/-- The end of `scrollDownOneLine`: blank the newly revealed line. -/
def blankLine (b : TerminalBuffer) (blankRow : Int) (style : Style) : Java TerminalBuffer := do
  let line ← arrayGet b.mLines blankRow
  match line with
  | none => do
    let (b, _) ← b.allocate blankRow style
    return b
  | some line => do
    let r ← b.deref (some line)
    let r ← r.clear style
    return b.update line r

def scrollDownOneLine (b : TerminalBuffer) (topMargin bottomMargin : Int) (style : Style) :
    Java TerminalBuffer := do
  if bottomMargin - 1 < topMargin ∨ topMargin < 0 ∨ b.mScreenRows < bottomMargin then
    .error .illegalArgument
  else
  -- Copy the fixed topMargin lines one line down so that they remain on screen in same position.
  let b ← b.blockCopyLinesDown b.mScreenFirstRow topMargin
  -- Copy the fixed mScreenRows-bottomMargin lines one line down likewise.
  let below ← b.externalToInternalRow bottomMargin
  let b ← b.blockCopyLinesDown below (b.mScreenRows - bottomMargin)
  -- Update the screen location in the ring buffer.
  let screenFirstRow ← modRows (b.mScreenFirstRow + 1) b.mTotalRows
  let b := { b with
    mScreenFirstRow := screenFirstRow
    -- Note that the history has grown if not already full.
    mActiveTranscriptRows :=
      if b.mActiveTranscriptRows < b.mTotalRows - b.mScreenRows then b.mActiveTranscriptRows + 1
      else b.mActiveTranscriptRows }
  let blankRow ← b.externalToInternalRow (bottomMargin - 1)
  b.blankLine blankRow style

end

/-- The style of a cell with effect bits reversed, set or cleared. -/
def changeEffect (bits : BitVec 32) (setOrClear reverse : Bool) (currentStyle : Style) : Style :=
  let foreColor := TextStyle.decodeForeColor currentStyle
  let backColor := TextStyle.decodeBackColor currentStyle
  let effect := TextStyle.decodeEffect currentStyle
  let effect :=
    if reverse then (effect &&& ~~~bits) ||| (bits &&& ~~~effect)
    else if setOrClear then effect ||| bits
    else effect &&& ~~~bits
  TextStyle.encode foreColor backColor effect

/-- DECCARA and DECRARA -/
def setOrClearEffect (b : TerminalBuffer) (bits : BitVec 32) (setOrClear reverse rectangular : Bool)
    (leftMargin rightMargin top left bottom right : Int) : Java TerminalBuffer :=
  forUp top bottom (fun y b => do
    let line ← b.lineAt y
    let startOfLine := if rectangular ∨ y = top then left else leftMargin
    let endOfLine := if rectangular ∨ y + 1 = bottom then right else rightMargin
    forUp startOfLine endOfLine (fun x b => do
      let r ← b.deref line
      let currentStyle ← r.getStyle x
      let styles ← arraySet r.mStyle x (changeEffect bits setOrClear reverse currentStyle)
      match line with
      | some line => return b.update line { r with mStyle := styles }
      | none => return b) b) b

/-! ## Resizing -/

/-- Check if we can skip blank rows at bottom below cursor: the loop from row `i` down to row 1. -/
def skipBlankLoop (b : TerminalBuffer) (cursorRow : Int) : Nat → Int → Java Int
  | 0, shiftDownOfTopRow => .ok shiftDownOfTopRow
  | i + 1, shiftDownOfTopRow => do
    if (i : Int) + 1 ≤ cursorRow then return shiftDownOfTopRow
    else
    let line ← b.lineAt (i + 1)
    let blank ←
      (match line with
      | none => .ok true
      | some line => do
        let r ← b.deref (some line)
        r.isBlank)
    if blank then
      if shiftDownOfTopRow - 1 = 0 then return 0
      else skipBlankLoop b cursorRow i (shiftDownOfTopRow - 1)
    else skipBlankLoop b cursorRow i shiftDownOfTopRow

/-- The variables of the slow resize that live across old rows. -/
structure Reflow where
  buffer : TerminalBuffer
  newCursorRow : Int
  newCursorColumn : Int
  newCursorPlaced : Bool
  currentOutputExternalRow : Int
  currentOutputExternalColumn : Int
  skippedBlankLines : Int

/-- The variables that live across the characters of one old row. -/
structure LineCopy where
  out : Reflow
  currentOldCol : Int
  styleAtCol : Style

/-- What the slow resize knows about the old state. -/
structure OldState where
  buffer : TerminalBuffer
  oldCursorRow : Int
  oldCursorColumn : Int
  currentStyle : Style

def lastNonSpaceLoop (spaceUsed : Int) : List Nat → Int → Int → Java Int
  | rest, i, lastNonSpaceIndex =>
    if i < spaceUsed then
      match rest with
      | [] => .error .arrayIndexOutOfBounds
      | c :: rest =>
        lastNonSpaceLoop spaceUsed rest (i + 1) (if c ≠ 0x20 then i + 1 else lastNonSpaceIndex)
    else .ok lastNonSpaceIndex

section

variable [ShortStore]

/-- Go to the next output row, at the bottom of the screen by scrolling. -/
def Reflow.nextRow (s : Reflow) (old : OldState) (moveCursor : Bool) : Java Reflow := do
  if s.currentOutputExternalRow = s.buffer.mScreenRows - 1 then
    let buffer ← s.buffer.scrollDownOneLine 0 s.buffer.mScreenRows old.currentStyle
    return { s with
      buffer := buffer
      newCursorRow := if moveCursor ∧ s.newCursorPlaced then s.newCursorRow - 1 else s.newCursorRow
      currentOutputExternalColumn := 0 }
  else
    return { s with
      currentOutputExternalRow := s.currentOutputExternalRow + 1
      currentOutputExternalColumn := 0 }

/-- Copy one code point to the new screen.  The flag tells the loop to break. -/
def reflowChar (old : OldState) (externalOldRow : Int) (oldLine : TerminalRow) (justToCursor : Bool)
    (s : LineCopy) (codePoint : Nat) : Java (LineCopy × Bool) := do
  let displayWidth := width codePoint
  -- Use the last style if this is a zero-width character.
  let styleAtCol ← (if 0 < displayWidth then oldLine.getStyle s.currentOldCol else .ok s.styleAtCol)
  -- Line wrap as necessary.
  let out ←
    (if s.out.buffer.mColumns < s.out.currentOutputExternalColumn + displayWidth then do
      let buffer ← s.out.buffer.setLineWrap s.out.currentOutputExternalRow
      Reflow.nextRow { s.out with buffer := buffer } old true
    else .ok s.out)
  let offsetDueToCombiningChar :=
    if displayWidth ≤ 0 ∧ 0 < out.currentOutputExternalColumn then 1 else 0
  let outputColumn := out.currentOutputExternalColumn - offsetDueToCombiningChar
  let buffer ← out.buffer.setChar outputColumn out.currentOutputExternalRow codePoint styleAtCol
  let out := { out with buffer := buffer }
  if 0 < displayWidth then
    let out :=
      if old.oldCursorRow = externalOldRow ∧ old.oldCursorColumn = s.currentOldCol then
        { out with
          newCursorColumn := out.currentOutputExternalColumn
          newCursorRow := out.currentOutputExternalRow
          newCursorPlaced := true }
      else out
    let out := { out with
      currentOutputExternalColumn := out.currentOutputExternalColumn + displayWidth }
    return (⟨out, s.currentOldCol + displayWidth, styleAtCol⟩, justToCursor && out.newCursorPlaced)
  else return (⟨out, s.currentOldCol, styleAtCol⟩, false)

/-- The loop over the `char`s of an old row. -/
def reflowLoop (old : OldState) (externalOldRow : Int) (oldLine : TerminalRow)
    (justToCursor : Bool) (lastNonSpaceIndex : Int) :
    List Nat → Int → LineCopy → Java LineCopy
  | rest, i, s =>
    if i < lastNonSpaceIndex then
      match rest with
      | [] => .error .arrayIndexOutOfBounds
      | c :: rest =>
        if isHighSurrogate c then
          match rest with
          | [] => .error .arrayIndexOutOfBounds
          | low :: rest => do
            let (s, stop) ← reflowChar old externalOldRow oldLine justToCursor s (toCodePoint c low)
            if stop then return s
            else reflowLoop old externalOldRow oldLine justToCursor lastNonSpaceIndex rest (i + 2) s
        else do
          let (s, stop) ← reflowChar old externalOldRow oldLine justToCursor s c
          if stop then return s
          else reflowLoop old externalOldRow oldLine justToCursor lastNonSpaceIndex rest (i + 1) s
    else .ok s

/-- Copy an old row that is not skipped. -/
def reflowLine (old : OldState) (externalOldRow : Int) (oldLine : TerminalRow) (s : Reflow) :
    Java Reflow := do
  let cursorAtThisRow : Bool := externalOldRow = old.oldCursorRow
  -- After skipping some blank lines we encounter a non-blank line. Insert the skipped blank lines.
  let s ← forUp 0 s.skippedBlankLines (fun _ s => s.nextRow old false) s
  let s := { s with skippedBlankLines := 0 }
  let (lastNonSpaceIndex, justToCursor) ←
    (if cursorAtThisRow ∨ oldLine.mLineWrap then
      -- Take the whole line, either because of cursor on it, or if line wrapping.
      .ok (oldLine.getSpaceUsed, cursorAtThisRow)
    else do
      let last ← lastNonSpaceLoop oldLine.getSpaceUsed oldLine.mText 0 0
      return (last, false))
  let copied ← reflowLoop old externalOldRow oldLine justToCursor lastNonSpaceIndex oldLine.mText 0
    ⟨s, 0, 0⟩
  let s := copied.out
  -- Old row has been copied. Check if we need to insert newline if old line was not wrapping.
  if externalOldRow ≠ old.buffer.mScreenRows - 1 ∧ oldLine.mLineWrap = false then
    s.nextRow old true
  else return s

/-- One round of the loop over the old rows.  The old rows are never written to. -/
def reflowRow (old : OldState) (externalOldRow : Int) (s : Reflow) : Java Reflow := do
  -- Do what externalToInternalRow() does but for the old state.
  let internalOldRow := old.buffer.mScreenFirstRow + externalOldRow
  let internalOldRow ←
    (if internalOldRow < 0 then .ok (old.buffer.mTotalRows + internalOldRow)
    else modRows internalOldRow old.buffer.mTotalRows)
  let line ← arrayGet old.buffer.mLines internalOldRow
  match line with
  | none => return { s with skippedBlankLines := s.skippedBlankLines + 1 }
  | some line => do
    let oldLine ← old.buffer.deref (some line)
    -- The cursor may only be on a non-null line, which we should not skip.
    let blank ←
      (if !s.newCursorPlaced && externalOldRow = old.oldCursorRow then .ok false else oldLine.isBlank)
    if blank then return { s with skippedBlankLines := s.skippedBlankLines + 1 }
    else reflowLine old externalOldRow oldLine s

/-- Fast resize where just the rows changed. -/
def resizeRows (b : TerminalBuffer) (newRows newTotalRows : Int) (cursor : Int × Int)
    (currentStyle : Style) (altScreen : Bool) : Java (TerminalBuffer × (Int × Int)) := do
  let shiftDownOfTopRow := b.mScreenRows - newRows
  let (b, shiftDownOfTopRow) ←
    (if 0 < shiftDownOfTopRow ∧ shiftDownOfTopRow < b.mScreenRows then do
      let shift ← b.skipBlankLoop cursor.2 (b.mScreenRows - 1).toNat shiftDownOfTopRow
      return (b, shift)
    else if shiftDownOfTopRow < 0 then do
      -- Only move screen up if there is transcript to show.
      let actualShift := max shiftDownOfTopRow (-b.mActiveTranscriptRows)
      if shiftDownOfTopRow ≠ actualShift then
        -- The new lines revealed by the resizing are not all from the transcript. Blank these.
        let b ← forUp 0 (actualShift - shiftDownOfTopRow) (fun i b => do
          let row ← modRows (b.mScreenFirstRow + b.mScreenRows + i) b.mTotalRows
          let (b, line) ← b.allocateFullLineIfNecessary row
          let r ← b.deref (some line)
          let r ← r.clear currentStyle
          return b.update line r) b
        return (b, actualShift)
      else return (b, shiftDownOfTopRow)
    else .ok (b, shiftDownOfTopRow))
  let screenFirstRow := b.mScreenFirstRow + shiftDownOfTopRow
  let screenFirstRow ←
    (if screenFirstRow < 0 then .ok (screenFirstRow + b.mTotalRows)
    else modRows screenFirstRow b.mTotalRows)
  return ({ b with
    mScreenFirstRow := screenFirstRow
    mTotalRows := newTotalRows
    mActiveTranscriptRows :=
      if altScreen then 0 else max 0 (b.mActiveTranscriptRows + shiftDownOfTopRow)
    mScreenRows := newRows }, (cursor.1, cursor.2 - shiftDownOfTopRow))

/-- Slow resize, which copies every character to a new array of rows. -/
def resizeReflow (b : TerminalBuffer) (newColumns newRows newTotalRows : Int) (cursor : Int × Int)
    (currentStyle : Style) : Java (TerminalBuffer × (Int × Int)) := do
  let lines ← newArray newTotalRows (none : Option Nat)
  let rows ← (List.range lines.length).mapM fun _ => TerminalRow.new newColumns currentStyle
  let old : OldState := ⟨b, cursor.2, cursor.1, currentStyle⟩
  let s ← forUp (-b.mActiveTranscriptRows) b.mScreenRows (reflowRow old)
    { buffer :=
        { rows := rows, mLines := (List.range lines.length).map some, mTotalRows := newTotalRows,
          mScreenRows := newRows, mColumns := newColumns, mActiveTranscriptRows := 0,
          mScreenFirstRow := 0 }
      newCursorRow := -1
      newCursorColumn := -1
      newCursorPlaced := false
      currentOutputExternalRow := 0
      currentOutputExternalColumn := 0
      skippedBlankLines := 0 }
  return (s.buffer, (s.newCursorColumn, s.newCursorRow))

/-- `cursor` is the column and the row of the cursor. -/
def resize (b : TerminalBuffer) (newColumns newRows newTotalRows : Int) (cursor : Int × Int)
    (currentStyle : Style) (altScreen : Bool) : Java (TerminalBuffer × (Int × Int)) := do
  let (b, cursor) ←
    (if newColumns = b.mColumns ∧ newRows ≤ b.mTotalRows then
      b.resizeRows newRows newTotalRows cursor currentStyle altScreen
    else b.resizeReflow newColumns newRows newTotalRows cursor currentStyle)
  -- Handle cursor scrolling off screen.
  return (b, if cursor.1 < 0 ∨ cursor.2 < 0 then (0, 0) else cursor)

end

end TerminalBuffer

end XoDos
