import XoDos.WcWidth
import XoDos.TextStyle

/-!
# `TerminalRow`

A row of a fixed number of cells whose text is a `char` array.  A cell takes
one or more `char`s: a base character of width 1 or 2, then any number of
zero-width characters.  Where a cell starts is not stored; it is found by
scanning the text from the left.

The scanning loops walk down the rest of the array, next to the index that the
source advances.
-/

namespace XoDos

open WcWidth (width)

structure TerminalRow where
  mColumns : Int
  mText : List Nat
  /-- The number of `char`s of `mText` in use, a `short`. -/
  mSpaceUsed : Int
  mLineWrap : Bool
  mStyle : List Style
  mHasNonOneWidthOrSurrogateChars : Bool
deriving DecidableEq

namespace TerminalRow

def getSpaceUsed (r : TerminalRow) : Int := r.mSpaceUsed

def getStyle (r : TerminalRow) (column : Int) : Java Style := arrayGet r.mStyle column

/-- The inner loop of `findStartOfColumn`, which skips combining characters. -/
def skipCombining (spaceUsed : Int) : List Nat → Int → Java Int
  | rest, newCharIndex =>
    if newCharIndex < spaceUsed then
      match rest with
      | [] => .error .arrayIndexOutOfBounds
      | c :: rest =>
        if isHighSurrogate c then
          match rest with
          | [] => .error .arrayIndexOutOfBounds
          | low :: rest =>
            if width (toCodePoint c low) ≤ 0 then skipCombining spaceUsed rest (newCharIndex + 2)
            else .ok newCharIndex
        else if width c ≤ 0 then skipCombining spaceUsed rest (newCharIndex + 1)
        else .ok newCharIndex
    else .ok newCharIndex

/-- The outer loop of `findStartOfColumn`. -/
def findStartLoop (spaceUsed column : Int) : List Nat → Int → Int → Java Int
  | [], _, _ => .error .arrayIndexOutOfBounds
  | c :: rest, currentCharIndex, currentColumn =>
    if isHighSurrogate c then
      match rest with
      | [] => .error .arrayIndexOutOfBounds
      | low :: rest =>
        let wcwidth := width (toCodePoint c low)
        if 0 < wcwidth then
          if currentColumn + wcwidth = column then skipCombining spaceUsed rest (currentCharIndex + 2)
          -- Wide column going past end.
          else if column < currentColumn + wcwidth then .ok currentCharIndex
          else findStartLoop spaceUsed column rest (currentCharIndex + 2) (currentColumn + wcwidth)
        else findStartLoop spaceUsed column rest (currentCharIndex + 2) currentColumn
    else
      let wcwidth := width c
      if 0 < wcwidth then
        if currentColumn + wcwidth = column then skipCombining spaceUsed rest (currentCharIndex + 1)
        else if column < currentColumn + wcwidth then .ok currentCharIndex
        else findStartLoop spaceUsed column rest (currentCharIndex + 1) (currentColumn + wcwidth)
      else findStartLoop spaceUsed column rest (currentCharIndex + 1) currentColumn

/-- The column may be the second half of a wide character. -/
def findStartOfColumn (r : TerminalRow) (column : Int) : Java Int :=
  if column = r.mColumns then .ok r.getSpaceUsed
  else findStartLoop r.mSpaceUsed column r.mText 0 0

def wideLoop (spaceUsed column : Int) : List Nat → Int → Int → Java Bool
  | rest, currentCharIndex, currentColumn =>
    if currentCharIndex < spaceUsed then
      match rest with
      | [] => .error .arrayIndexOutOfBounds
      | c :: rest =>
        if isHighSurrogate c then
          match rest with
          | [] => .error .arrayIndexOutOfBounds
          | low :: rest =>
            let wcwidth := width (toCodePoint c low)
            if 0 < wcwidth then
              if currentColumn = column ∧ wcwidth = 2 then .ok true
              else if column < currentColumn + wcwidth then .ok false
              else wideLoop spaceUsed column rest (currentCharIndex + 2) (currentColumn + wcwidth)
            else wideLoop spaceUsed column rest (currentCharIndex + 2) currentColumn
        else
          let wcwidth := width c
          if 0 < wcwidth then
            if currentColumn = column ∧ wcwidth = 2 then .ok true
            else if column < currentColumn + wcwidth then .ok false
            else wideLoop spaceUsed column rest (currentCharIndex + 1) (currentColumn + wcwidth)
          else wideLoop spaceUsed column rest (currentCharIndex + 1) currentColumn
    else .ok false

def wideDisplayCharacterStartingAt (r : TerminalRow) (column : Int) : Java Bool :=
  wideLoop r.mSpaceUsed column r.mText 0 0

/-- `WcWidth.width(char[] chars, int index)` -/
def widthAt (chars : List Nat) (index : Int) : Java Int := do
  let c ← arrayGet chars index
  if isHighSurrogate c then
    let low ← arrayGet chars (index + 1)
    return width (toCodePoint c low)
  else return width c

def isBlank (r : TerminalRow) : Java Bool :=
  if (r.mText.take r.mSpaceUsed.toNat).all (· == 0x20) then
    if r.mSpaceUsed ≤ r.mText.length then .ok true else .error .arrayIndexOutOfBounds
  else .ok false

/-- Move the `char`s from `index` on to the right, into a larger array if this one is full. -/
def shiftRight (text : List Nat) (columns spaceUsed index distance : Int) : Java (List Nat) := do
  if text.length < spaceUsed + distance then
    -- We need to grow the array.
    let newText ← newArray (text.length + columns) 0
    let newText ← arraycopy text 0 newText 0 index
    arraycopy text index newText (index + distance) (spaceUsed - index)
  else arraycopy text index text (index + distance) (spaceUsed - index)

section

variable [ShortStore]

def clear (r : TerminalRow) (style : Style) : Java TerminalRow := do
  let spaceUsed ← ShortStore.store r.mColumns
  return { r with
    mText := List.replicate r.mText.length 0x20
    mStyle := List.replicate r.mStyle.length style
    mSpaceUsed := spaceUsed
    mHasNonOneWidthOrSurrogateChars := false }

/-- The constructor; `SPARE_CAPACITY_FACTOR` is 1.5. -/
def new (columns : Int) (style : Style) : Java TerminalRow := do
  let text ← newArray (columns * 3 / 2) 0
  let styles ← newArray columns 0
  clear
    { mColumns := columns, mText := text, mSpaceUsed := 0, mLineWrap := false, mStyle := styles,
      mHasNonOneWidthOrSurrogateChars := false } style

/-- The end of `setChar`, where the row gives up or takes back a column. -/
def settleWidth (r : TerminalRow) (columnToSet oldCodePointDisplayWidth newCodePointDisplayWidth : Int)
    (text : List Nat) (spaceUsed newNextColumnIndex : Int) : Java TerminalRow := do
  if oldCodePointDisplayWidth = 2 ∧ newCodePointDisplayWidth = 1 then
    -- Replace second half of wide char with a space.
    let text ← shiftRight text r.mColumns spaceUsed newNextColumnIndex 1
    let text ← arraySet text newNextColumnIndex 0x20
    let spaceUsed ← ShortStore.store (spaceUsed + 1)
    return { r with mText := text, mSpaceUsed := spaceUsed }
  else if oldCodePointDisplayWidth = 1 ∧ newCodePointDisplayWidth = 2 then
    if columnToSet = r.mColumns - 1 then .error .illegalArgument
    else if columnToSet = r.mColumns - 2 then
      -- Truncate the line to the second part of this wide char.
      let spaceUsed ← ShortStore.store newNextColumnIndex
      return { r with mText := text, mSpaceUsed := spaceUsed }
    else
      -- Overwrite the contents of the next column.
      let c ← arrayGet text newNextColumnIndex
      let nextLen := if isHighSurrogate c then 2 else 1
      let newNextNextColumnIndex := newNextColumnIndex + nextLen
      let text ← arraycopy text newNextNextColumnIndex text newNextColumnIndex
        (spaceUsed - newNextNextColumnIndex)
      let spaceUsed ← ShortStore.store (spaceUsed - nextLen)
      return { r with mText := text, mSpaceUsed := spaceUsed }
  else return { r with mText := text, mSpaceUsed := spaceUsed }

/-- The part of `setChar` below the treatment of half-overwritten wide characters. -/
def storeChar (r : TerminalRow) (columnToSet : Int) (codePoint : Nat) : Java TerminalRow := do
  let newCodePointDisplayWidth := width codePoint
  let newIsCombining := newCodePointDisplayWidth ≤ 0
  let oldStartOfColumnIndex ← r.findStartOfColumn columnToSet
  let oldCodePointDisplayWidth ← widthAt r.mText oldStartOfColumnIndex
  -- The number of elements in the mText array this column uses now.
  let nextColumnIndex ←
    (if columnToSet + oldCodePointDisplayWidth < r.mColumns then
      r.findStartOfColumn (columnToSet + oldCodePointDisplayWidth)
    else .ok r.mSpaceUsed)
  let oldCharactersUsedForColumn := nextColumnIndex - oldStartOfColumnIndex
  -- Combining characters are added to the contents of the column instead of overwriting them.
  let kept := if newIsCombining then oldCharactersUsedForColumn else 0
  let newCharactersUsedForColumn := charCount codePoint + kept
  let oldNextColumnIndex := oldStartOfColumnIndex + oldCharactersUsedForColumn
  let newNextColumnIndex := oldStartOfColumnIndex + newCharactersUsedForColumn
  let javaCharDifference := newCharactersUsedForColumn - oldCharactersUsedForColumn
  let text ←
    (if 0 < javaCharDifference then
      shiftRight r.mText r.mColumns r.mSpaceUsed oldNextColumnIndex javaCharDifference
    else if javaCharDifference < 0 then
      arraycopy r.mText oldNextColumnIndex r.mText newNextColumnIndex
        (r.mSpaceUsed - oldNextColumnIndex)
    else .ok r.mText)
  let spaceUsed ← ShortStore.store (r.mSpaceUsed + javaCharDifference)
  let text ← toCharsInto codePoint text (oldStartOfColumnIndex + kept)
  settleWidth r columnToSet oldCodePointDisplayWidth newCodePointDisplayWidth text spaceUsed
    newNextColumnIndex

/-- `setChar`, with a bound on the depth of its recursion. -/
def setCharLoop : Nat → TerminalRow → Int → Nat → Style → Java TerminalRow
  | 0, _, _, _, _ => .error .stackOverflow
  | depth + 1, r, columnToSet, codePoint, style => do
    if columnToSet < 0 ∨ r.mStyle.length ≤ columnToSet then .error .illegalArgument
    else
    let styles ← arraySet r.mStyle columnToSet style
    let newCodePointDisplayWidth := width codePoint
    -- Fast path when we don't have any chars with width != 1.
    if r.mHasNonOneWidthOrSurrogateChars = false ∧ codePoint < 0x10000 ∧
        newCodePointDisplayWidth = 1 then
      let text ← arraySet r.mText columnToSet codePoint
      return { r with mText := text, mStyle := styles }
    else
    let r := { r with mStyle := styles, mHasNonOneWidthOrSurrogateChars := true }
    let wasExtraColForWideChar ←
      (if 0 < columnToSet then r.wideDisplayCharacterStartingAt (columnToSet - 1) else .ok false)
    if newCodePointDisplayWidth ≤ 0 then
      -- When standing at second half of wide character and inserting combining.
      storeChar r (if wasExtraColForWideChar then columnToSet - 1 else columnToSet) codePoint
    else
    -- Check if we are overwriting the second half of a wide character starting at the
    -- previous column.
    let r ←
      (if wasExtraColForWideChar then setCharLoop depth r (columnToSet - 1) 0x20 style else .ok r)
    -- Check if we are overwriting the first half of a wide character starting at the next column.
    let overwritingWideCharInNextColumn ←
      (if newCodePointDisplayWidth = 2 then r.wideDisplayCharacterStartingAt (columnToSet + 1)
      else .ok false)
    let r ←
      (if overwritingWideCharInNextColumn then setCharLoop depth r (columnToSet + 1) 0x20 style
      else .ok r)
    storeChar r columnToSet codePoint

/-- A space recurs one column to the left only, so the depth is at most two more than the column. -/
def setChar (r : TerminalRow) (columnToSet : Int) (codePoint : Nat) (style : Style) :
    Java TerminalRow :=
  setCharLoop (columnToSet.toNat + 3) r columnToSet codePoint style

/-- The variables of the loop of `copyInterval`. -/
structure CopyState where
  row : TerminalRow
  latestNonCombiningWidth : Int
  sourceX1 : Int
  destinationX : Int

/-- Copy one code point; `same` tells whether source and destination are one object. -/
def copyStep (line : TerminalRow) (same : Bool) (s : CopyState) (codePoint : Nat) :
    Java CopyState := do
  let w := width codePoint
  let s :=
    if 0 < w then
      { s with
        destinationX := s.destinationX + s.latestNonCombiningWidth
        sourceX1 := s.sourceX1 + s.latestNonCombiningWidth
        latestNonCombiningWidth := w }
    else s
  let style ← (if same then s.row else line).getStyle s.sourceX1
  let row ← s.row.setChar s.destinationX codePoint style
  return { s with row := row }

/-- The loop of `copyInterval`; its first character is a space if only the second half of a wide
character is copied. -/
def copyLoop (line : TerminalRow) (same : Bool) (x2 : Int) :
    List Nat → Int → Bool → CopyState → Java CopyState
  | rest, i, startingFromSecondHalfOfWideChar, s =>
    if i < x2 then
      match rest with
      | [] => .error .arrayIndexOutOfBounds
      | c :: rest =>
        if isHighSurrogate c then
          match rest with
          | [] => .error .arrayIndexOutOfBounds
          | low :: rest => do
            let s ← copyStep line same s
              (if startingFromSecondHalfOfWideChar then 0x20 else toCodePoint c low)
            copyLoop line same x2 rest (i + 2) false s
        else do
          let s ← copyStep line same s (if startingFromSecondHalfOfWideChar then 0x20 else c)
          copyLoop line same x2 rest (i + 1) false s
    else .ok s

/-- The interval from `sourceX1` to `sourceX2`, exclusive, of `line`. -/
def copyInterval (r line : TerminalRow) (same : Bool) (sourceX1 sourceX2 destinationX : Int) :
    Java TerminalRow := do
  let r := { r with
    mHasNonOneWidthOrSurrogateChars :=
      r.mHasNonOneWidthOrSurrogateChars || line.mHasNonOneWidthOrSurrogateChars }
  let line := if same then r else line
  let x1 ← line.findStartOfColumn sourceX1
  let x2 ← line.findStartOfColumn sourceX2
  let startingFromSecondHalfOfWideChar ←
    (if 0 < sourceX1 then line.wideDisplayCharacterStartingAt (sourceX1 - 1) else .ok false)
  if x1 < 0 ∧ x1 < x2 then .error .arrayIndexOutOfBounds
  else
  let s ← copyLoop line same x2 (line.mText.drop x1.toNat) x1 startingFromSecondHalfOfWideChar
    { row := r, latestNonCombiningWidth := 0, sourceX1 := sourceX1, destinationX := destinationX }
  return s.row

end

end TerminalRow

end XoDos
