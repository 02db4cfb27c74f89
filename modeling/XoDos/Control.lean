import XoDos.Editing

/-!
# The controls that the parser issues

A code point makes the parser issue controls, which the display carries out.
They are sorted by what they can touch: an `Appearance` leaves the geometry
alone, a `Motion` only moves the cursor, and an `Edit` only redraws the current
screen.  Numbers are parameters of control sequences, after their defaults;
where the default is a size of the screen, `none` asks for it.
-/

namespace XoDos

/-- Modes, attributes and reports. -/
inductive Appearance where
  | bell
  | useG0 (g0 : Bool)
  | designateG0 (lineDrawing : Bool)
  | designateG1 (lineDrawing : Bool)
  | setMode (internalBit : BitVec 32) (set : Bool)
  | saveMode (internalBit : BitVec 32)
  | insertMode (newValue : Bool)
  | sgr (code : Int)
  | extendedColor (code : Int) (color : BitVec 32)
  | setProtected (set : Bool)
  | cursorShape (arg : Int)
  | reportStatus (arg : Int)
  | reportExtendedCursor
  | reportPrivateMode (mode : Int)
  | deviceAttributes
  | secondaryDeviceAttributes
  | manipulateWindow (arg : Int)
  | deviceControl (dcs : JavaString)

def Appearance.run [Platform] (d : Display) : Appearance → Display
  | bell => d.tell .onBell
  | useG0 g0 => { d with mUseLineDrawingUsesG0 := g0 }
  | designateG0 lineDrawing => { d with mUseLineDrawingG0 := lineDrawing }
  | designateG1 lineDrawing => { d with mUseLineDrawingG1 := lineDrawing }
  | setMode internalBit set => d.setDecsetinternalBit internalBit set
  | saveMode internalBit => { d with mSavedDecSetFlags := d.mSavedDecSetFlags ||| internalBit }
  | insertMode newValue => { d with mInsertMode := newValue }
  | sgr code => d.applySgr code
  | extendedColor code color => d.setExtendedColor code color
  | setProtected set =>
    if set then d.setEffect TextStyle.attributeProtected
    else d.clearEffect TextStyle.attributeProtected
  | cursorShape arg => d.setCursorShape arg
  | reportStatus arg => d.reportStatus arg
  | reportExtendedCursor => d.reply <|
    Display.joined [ascii "[?", formatDecimal (d.mCursorRow + 1), ascii ";",
      formatDecimal (d.mCursorCol + 1), ascii ";1R"]
  | reportPrivateMode mode => d.reportPrivateMode mode
  | deviceAttributes => d.reply (ascii "[?64;1;2;6;9;15;18;21;22c")
  | secondaryDeviceAttributes => d.reply (ascii "[>41;320;0c")
  | manipulateWindow arg => d.manipulateWindow arg
  | deviceControl dcs => d.finishDeviceControl dcs

/-- Cursor motions. -/
inductive Motion where
  | carriageReturn
  | up (n : Nat)
  | down (n : Nat)
  | forward (n : Nat)
  | backward (n : Nat)
  | nextLine (n : Nat)
  | previousLine (n : Nat)
  | column (n : Nat)
  | position (x y : Int)
  | columnAbsolute (n : Nat)
  | row (n : Nat)
  | rowRelative (n : Nat)
  | lowerLeft

def Motion.run (d : Display) : Motion → Display
  | carriageReturn => d.setCursorCol d.mLeftMargin
  | up n => d.setCursorRow (max 0 (d.mCursorRow - n))
  | down n => d.setCursorRow (min (d.mRows - 1) (d.mCursorRow + n))
  | forward n => d.setCursorCol (min (d.mRightMargin - 1) (d.mCursorCol + n))
  | backward n => d.setCursorCol (max d.mLeftMargin (d.mCursorCol - n))
  | nextLine n => d.setCursorPosition 0 (d.mCursorRow + n)
  | previousLine n => d.setCursorPosition 0 (d.mCursorRow - n)
  | column n => d.setCursorCol (min (max 1 (n : Int)) d.mColumns - 1)
  | position x y => d.setCursorPosition x y
  | columnAbsolute n => d.setCursorColRespectingOriginMode (n - 1)
  | row n => d.setCursorRow (min (max 1 (n : Int)) d.mRows - 1)
  | rowRelative n => d.setCursorPosition d.mCursorCol (d.mCursorRow + n)
  | lowerLeft => d.setCursorRowCol 0 (d.mBottomMargin - 1)

/-- Changes to the current screen.  The first row and column of a rectangle are counted from 0. -/
inductive Edit where
  | alignmentTest
  | eraseScreen
  | insertCharacters (n : Nat)
  | deleteCharacters (n : Nat)
  | eraseCharacters (n : Nat)
  | eraseInDisplay (arg : Int)
  | eraseInLine (arg : Int)
  | insertLines (n : Nat)
  | deleteLines (n : Nat)
  | scrollUp (n : Nat)
  | scrollDown (n : Nat)
  | insertColumns (n : Nat)
  | deleteColumns (n : Nat)
  | selectiveErase (justRow : Bool) (arg : Int)
  | fillRectangle (fillChar : Int) (selective : Bool) (top left : Nat) (bottom right : Option Nat)
  | copyRectangle (top left : Nat) (bottom right : Option Nat) (destinationTop destinationLeft : Nat)
  | changeAttributes (reverse : Bool) (top left : Nat) (bottom right : Option Nat) (codes : List Int)

/-- The rows of the screen where a parameter is missing. -/
def Display.orRows (d : Display) (n : Option Nat) : Int := (n.map fun n => (n : Int)).getD d.mRows

/-- The columns of the screen where a parameter is missing. -/
def Display.orColumns (d : Display) (n : Option Nat) : Int :=
  (n.map fun n => (n : Int)).getD d.mColumns

def Edit.run [ShortStore] (d : Display) : Edit → Java Display
  | alignmentTest => d.onScreen fun b => b.blockSet 0 0 d.mColumns d.mRows 'E'.toNat d.getStyle
  | eraseScreen => d.blockClear 0 0 d.mColumns d.mRows
  | insertCharacters n => d.insertCharacters n
  | deleteCharacters n => d.deleteCharacters n
  | eraseCharacters n => d.eraseCharacters n
  | eraseInDisplay arg => d.eraseInDisplay arg
  | eraseInLine arg => d.eraseInLine arg
  | insertLines n => d.insertLines n
  | deleteLines n => d.deleteLines n
  | scrollUp n => d.scrollUp n
  | scrollDown n => d.scrollDown n
  | insertColumns n => d.insertColumns n
  | deleteColumns n => d.deleteColumns n
  | selectiveErase justRow arg => d.selectiveErase justRow arg
  | fillRectangle fillChar selective top left bottom right =>
    d.fillRectangle fillChar selective (top + 1) (left + 1) (d.orRows bottom) (d.orColumns right)
  | copyRectangle top left bottom right destinationTop destinationLeft =>
    d.copyRectangle (top + 1) (left + 1) (d.orRows bottom) (d.orColumns right) (destinationTop + 1)
      (destinationLeft + 1)
  | changeAttributes reverse top left bottom right codes =>
    let rectangle := d.attributeRectangle (top + 1) (left + 1) (d.orRows bottom) (d.orColumns right)
    codes.foldlM (fun d code => d.changeAttribute reverse rectangle code) d

inductive Control where
  | appearance (a : Appearance)
  | motion (m : Motion)
  | edit (e : Edit)
  | emit (codePoint : Nat)
  | repeatCharacter (n : Nat)
  | backspace
  | horizontalTab
  | forwardTab (n : Nat)
  | backwardTab (n : Nat)
  | setTabStop (set : Bool)
  | clearTabStops
  | lineFeed
  | nextLine
  | reverseIndex
  | backIndex
  | forwardIndex
  | saveCursor
  | restoreCursor
  | setTopBottomMargins (top : Nat) (bottom : Option Nat)
  /-- DECSLRM, or save the cursor if left and right margins are disabled. -/
  | setLeftRightMargins (left : Nat) (right : Option Nat)
  | decSetOrReset (setting : Bool) (externalBit : Int)
  | restoreMode (externalBit : Int) (internalBit : BitVec 32)
  | clearTranscript
  /-- ED 3: clear the transcript and the pending wrap. -/
  | eraseTranscript
  | setTextParameter (value : Int) (textParameter terminator : JavaString)
  | reset

/-- `doDecSetOrReset`, apart from the log message for an unknown mode. -/
def Display.doDecSetOrReset [ShortStore] [Platform] (d : Display) (setting : Bool)
    (externalBit : Int) : Java Display :=
  let d :=
    match mapDecSetBitToInternalBit externalBit with
    | some internalBit => d.setDecsetinternalBit internalBit setting
    | none => d
  if externalBit = 3 then d.resetPage
  else if externalBit = 6 then .ok (if setting then d.setCursorPosition 0 0 else d)
  -- Only 25 is about the cursor, but the cases before it fall through.
  else if externalBit ∈ [7, 8, 9, 12, 25] then
    .ok (if Platform.hasClient then d.tell (.onTerminalCursorStateChange setting) else d)
  else if externalBit = 69 then
    .ok (if setting then d else { d with mLeftMargin := 0, mRightMargin := d.mColumns })
  else if externalBit = 1048 then .ok (if setting then d.saveCursor else d.restoreCursor)
  else if externalBit ∈ [47, 1047, 1049] then d.useScreen setting
  else .ok d

def Control.run [ShortStore] [Platform] (d : Display) : Control → Java Display
  | appearance a => .ok (a.run d)
  | motion m => .ok (m.run d)
  | edit e => e.run d
  | emit codePoint => d.emitCodePoint codePoint
  | repeatCharacter n => d.repeatCharacter n
  | backspace => d.backspace
  | horizontalTab => d.horizontalTab
  | forwardTab n => do
    let col ← d.nextTabStop n
    return d.setCursorCol col
  | backwardTab n => d.backwardTab n
  | setTabStop set => d.setTabStop set
  | clearTabStops => d.clearTabStops
  | lineFeed => d.doLinefeed
  | nextLine =>
    (d.setCursorCol (if d.isDecsetInternalBitSet Decset.originMode then d.mLeftMargin else 0)).doLinefeed
  | reverseIndex => d.reverseIndex
  | backIndex => d.backIndex
  | forwardIndex => d.forwardIndex
  | saveCursor => .ok d.saveCursor
  | restoreCursor => .ok d.restoreCursor
  | setTopBottomMargins top bottom => .ok (d.setTopBottomMargins top (d.orRows bottom))
  | setLeftRightMargins left right =>
    if d.isDecsetInternalBitSet Decset.leftrightMarginMode then
      .ok (d.setLeftRightMargins left (d.orColumns right))
    else .ok d.saveCursor
  | decSetOrReset setting externalBit => d.doDecSetOrReset setting externalBit
  | restoreMode externalBit internalBit =>
    d.doDecSetOrReset (d.mSavedDecSetFlags &&& internalBit ≠ 0) externalBit
  | clearTranscript => do
    let main ← d.mMainBuffer.clearTranscript
    return { d with mMainBuffer := main }
  | eraseTranscript => do
    let main ← d.mMainBuffer.clearTranscript
    return { d with mMainBuffer := main, mAboutToAutoWrap := false }
  | setTextParameter value textParameter terminator => d.setTextParameter value textParameter terminator
  | reset => d.reset

/-- Carry out controls one after the other. -/
def Display.perform [ShortStore] [Platform] (d : Display) (controls : List Control) : Java Display :=
  controls.foldlM (fun d c => c.run d) d

end XoDos
