import XoDos.BufferReflow
import XoDos.TerminalColors

/-!
# The display of `TerminalEmulator`

The fields of `TerminalEmulator` that the output side of the terminal works on:
the two screen buffers, cursor, margins, modes, attributes and colours, with the
methods that read and write nothing else.  `Geometry` has the part on which it
depends whether an index is in range.

What the emulator tells its session and its client is recorded in `events`.
-/

namespace XoDos

open WcWidth (width)

/-- Calls to `mSession` and `mClient`. -/
inductive Event where
  | write (data : JavaString)
  | writeBytes (data : List Byte)
  | onBell
  | onColorsChanged
  | titleChanged (oldTitle newTitle : Option JavaString)
  | onCopyTextToClipboard (text : JavaString)
  | onTerminalCursorStateChange (enabled : Bool)

inductive CursorStyle where
  | block
  | underline
  | bar
deriving DecidableEq, Repr

/-- `TERMINAL_CURSOR_STYLES_LIST` -/
def CursorStyle.ofInt : Int → Option CursorStyle
  | 0 => some .block
  | 1 => some .underline
  | 2 => some .bar
  | _ => none

/-! ## Mode bits -/

namespace Decset

def applicationCursorKeys : BitVec 32 := 1
def reverseVideo : BitVec 32 := 1 <<< 1
def originMode : BitVec 32 := 1 <<< 2
def autowrap : BitVec 32 := 1 <<< 3
def cursorEnabled : BitVec 32 := 1 <<< 4
def applicationKeypad : BitVec 32 := 1 <<< 5
def mouseTrackingPressRelease : BitVec 32 := 1 <<< 6
def mouseTrackingButtonEvent : BitVec 32 := 1 <<< 7
def sendFocusEvents : BitVec 32 := 1 <<< 8
def mouseProtocolSgr : BitVec 32 := 1 <<< 9
def bracketedPasteMode : BitVec 32 := 1 <<< 10
def leftrightMarginMode : BitVec 32 := 1 <<< 11
def rectangularChangeattribute : BitVec 32 := 1 <<< 12

end Decset

/-- The internal bit of a DEC private mode, `none` for -1. -/
def mapDecSetBitToInternalBit : Int → Option (BitVec 32)
  | 1 => some Decset.applicationCursorKeys
  | 5 => some Decset.reverseVideo
  | 6 => some Decset.originMode
  | 7 => some Decset.autowrap
  | 25 => some Decset.cursorEnabled
  | 66 => some Decset.applicationKeypad
  | 69 => some Decset.leftrightMarginMode
  | 1000 => some Decset.mouseTrackingPressRelease
  | 1002 => some Decset.mouseTrackingButtonEvent
  | 1004 => some Decset.sendFocusEvents
  | 1006 => some Decset.mouseProtocolSgr
  | 2004 => some Decset.bracketedPasteMode
  | _ => none

/-! ## State -/

/-- What DECSC saves. -/
structure SavedScreenState where
  mSavedCursorRow : Int := 0
  mSavedCursorCol : Int := 0
  mSavedEffect : BitVec 32 := 0
  mSavedForeColor : BitVec 32 := 0
  mSavedBackColor : BitVec 32 := 0
  mSavedDecFlags : BitVec 32 := 0
  mUseLineDrawingG0 : Bool := false
  mUseLineDrawingG1 : Bool := false
  mUseLineDrawingUsesG0 : Bool := true

structure Geometry where
  mRows : Int
  mColumns : Int
  mCursorRow : Int
  mCursorCol : Int
  mTopMargin : Int
  mBottomMargin : Int
  mLeftMargin : Int
  mRightMargin : Int
  /-- If the next character to be emitted will be automatically wrapped to the next line. -/
  mAboutToAutoWrap : Bool
  mTabStop : List Bool
  mMainBuffer : TerminalBuffer
  mAltBuffer : TerminalBuffer
  /-- Whether `mScreen` is `mAltBuffer`. -/
  altActive : Bool
  mSavedStateMain : SavedScreenState
  mSavedStateAlt : SavedScreenState
  /-- `none` for -1. -/
  mLastEmittedCodePoint : Option Nat

structure Display extends Geometry where
  mForeColor : BitVec 32
  mBackColor : BitVec 32
  mEffect : BitVec 32
  mCurrentDecSetFlags : BitVec 32
  mSavedDecSetFlags : BitVec 32
  mInsertMode : Bool
  mUseLineDrawingG0 : Bool
  mUseLineDrawingG1 : Bool
  mUseLineDrawingUsesG0 : Bool
  mCursorStyle : CursorStyle
  mScrollCounter : Int
  mTitle : Option JavaString
  /-- The top of the stack is the last element. -/
  mTitleStack : List (Option JavaString)
  mColors : TerminalColors
  events : List Event

/-- The current screen buffer. -/
def Geometry.mScreen (g : Geometry) : TerminalBuffer :=
  if g.altActive then g.mAltBuffer else g.mMainBuffer

namespace Display

/-- The state after a method of `mScreen` has left it as `b`. -/
def setScreen (d : Display) (b : TerminalBuffer) : Display :=
  { d with
    mMainBuffer := if d.altActive then d.mMainBuffer else b
    mAltBuffer := if d.altActive then b else d.mAltBuffer }

/-- Call a method of `mScreen`. -/
def onScreen (d : Display) (f : TerminalBuffer → Java TerminalBuffer) : Java Display := do
  let b ← f d.mScreen
  return d.setScreen b

def tell (d : Display) (event : Event) : Display := { d with events := d.events ++ [event] }

/-! ## Modes and attributes -/

def isDecsetInternalBitSet (d : Display) (bit : BitVec 32) : Bool :=
  d.mCurrentDecSetFlags &&& bit ≠ 0

def setDecsetinternalBit (d : Display) (internalBit : BitVec 32) (set : Bool) : Display :=
  let flags := d.mCurrentDecSetFlags
  if set then
    -- The mouse modes are mutually exclusive.
    let flags :=
      if internalBit = Decset.mouseTrackingPressRelease then
        flags &&& ~~~Decset.mouseTrackingButtonEvent
      else if internalBit = Decset.mouseTrackingButtonEvent then
        flags &&& ~~~Decset.mouseTrackingPressRelease
      else flags
    { d with mCurrentDecSetFlags := flags ||| internalBit }
  else { d with mCurrentDecSetFlags := flags &&& ~~~internalBit }

def getStyle (d : Display) : Style := TextStyle.encode d.mForeColor d.mBackColor d.mEffect

def setTitle (d : Display) (newTitle : Option JavaString) : Display :=
  let oldTitle := d.mTitle
  let d := { d with mTitle := newTitle }
  if oldTitle ≠ newTitle then d.tell (.titleChanged oldTitle newTitle) else d

/-! ## The cursor -/

def setCursorRow (d : Display) (row : Int) : Display :=
  { d with mCursorRow := row, mAboutToAutoWrap := false }

def setCursorCol (d : Display) (col : Int) : Display :=
  { d with mCursorCol := col, mAboutToAutoWrap := false }

/-- `mAboutToAutoWrap = false` -/
def clearWrap (d : Display) : Display := { d with mAboutToAutoWrap := false }

/-- Not regarding origin mode. -/
def setCursorRowCol (d : Display) (row col : Int) : Display :=
  { d with
    mCursorRow := max 0 (min row (d.mRows - 1))
    mCursorCol := max 0 (min col (d.mColumns - 1))
    mAboutToAutoWrap := false }

def effectiveTopMargin (d : Display) : Int :=
  if d.isDecsetInternalBitSet Decset.originMode then d.mTopMargin else 0

def effectiveBottomMargin (d : Display) : Int :=
  if d.isDecsetInternalBitSet Decset.originMode then d.mBottomMargin else d.mRows

def effectiveLeftMargin (d : Display) : Int :=
  if d.isDecsetInternalBitSet Decset.originMode then d.mLeftMargin else 0

def effectiveRightMargin (d : Display) : Int :=
  if d.isDecsetInternalBitSet Decset.originMode then d.mRightMargin else d.mColumns

/-- Respecting origin mode. -/
def setCursorPosition (d : Display) (x y : Int) : Display :=
  let newRow := max d.effectiveTopMargin (min (d.effectiveTopMargin + y) (d.effectiveBottomMargin - 1))
  let newCol := max d.effectiveLeftMargin (min (d.effectiveLeftMargin + x) (d.effectiveRightMargin - 1))
  d.setCursorRowCol newRow newCol

def setCursorColRespectingOriginMode (d : Display) (col : Int) : Display :=
  d.setCursorPosition col d.mCursorRow

def saveCursor (d : Display) : Display :=
  let state : SavedScreenState :=
    { mSavedCursorRow := d.mCursorRow
      mSavedCursorCol := d.mCursorCol
      mSavedEffect := d.mEffect
      mSavedForeColor := d.mForeColor
      mSavedBackColor := d.mBackColor
      mSavedDecFlags := d.mCurrentDecSetFlags
      mUseLineDrawingG0 := d.mUseLineDrawingG0
      mUseLineDrawingG1 := d.mUseLineDrawingG1
      mUseLineDrawingUsesG0 := d.mUseLineDrawingUsesG0 }
  if d.altActive then { d with mSavedStateAlt := state } else { d with mSavedStateMain := state }

def restoreCursor (d : Display) : Display :=
  let state := if d.altActive then d.mSavedStateAlt else d.mSavedStateMain
  let d := d.setCursorRowCol state.mSavedCursorRow state.mSavedCursorCol
  let mask := Decset.autowrap ||| Decset.originMode
  { d with
    mEffect := state.mSavedEffect
    mForeColor := state.mSavedForeColor
    mBackColor := state.mSavedBackColor
    mCurrentDecSetFlags := (d.mCurrentDecSetFlags &&& ~~~mask) ||| (state.mSavedDecFlags &&& mask)
    mUseLineDrawingG0 := state.mUseLineDrawingG0
    mUseLineDrawingG1 := state.mUseLineDrawingG1
    mUseLineDrawingUsesG0 := state.mUseLineDrawingUsesG0 }

/-! ## Tab stops -/

def setDefaultTabStops (d : Display) : Java Display := do
  let stops ← forUp 0 d.mColumns (fun i stops => arraySet stops i (decide (i % 8 = 0 ∧ i ≠ 0)))
    d.mTabStop
  return { d with mTabStop := stops }

/-- The loop of `nextTabStop` over the `n` columns from `i` on. -/
def nextTabStopLoop (d : Display) : Nat → Int → Int → Java Int
  | 0, _, _ => .ok (d.mRightMargin - 1)
  | n + 1, i, numTabs => do
    let stop ← arrayGet d.mTabStop i
    if stop then
      if numTabs - 1 = 0 then return min i d.mRightMargin
      else d.nextTabStopLoop n (i + 1) (numTabs - 1)
    else d.nextTabStopLoop n (i + 1) numTabs

def nextTabStop (d : Display) (numTabs : Int) : Java Int :=
  d.nextTabStopLoop (d.mColumns - (d.mCursorCol + 1)).toNat (d.mCursorCol + 1) numTabs

/-- The loop of CBT over the columns below `i`, downwards. -/
def previousTabStopLoop (d : Display) : Nat → Int → Java Int
  | 0, _ => .ok d.mLeftMargin
  | i + 1, numberOfTabs => do
    let stop ← arrayGet d.mTabStop i
    if stop then
      if numberOfTabs - 1 = 0 then return max i d.mLeftMargin
      else d.previousTabStopLoop i (numberOfTabs - 1)
    else d.previousTabStopLoop i numberOfTabs

/-- `mTabStop[mCursorCol] = set` -/
def setTabStop (d : Display) (set : Bool) : Java Display := do
  let stops ← arraySet d.mTabStop d.mCursorCol set
  return { d with mTabStop := stops }

/-- TBC 3. -/
def clearTabStops (d : Display) : Java Display := do
  let stops ← forUp 0 d.mColumns (fun i stops => arraySet stops i false) d.mTabStop
  return { d with mTabStop := stops }

/-! ## Writing -/

/-- The line drawing characters of the VT102. -/
def lineDrawing : List (Nat × Nat) :=
  [(0x5f, 0x20), (0x60, 0x25c6), (0x30, 0x2588), (0x61, 0x2592), (0x62, 0x2409), (0x63, 0x240c),
   (0x64, 0xd), (0x65, 0x240a), (0x66, 0xb0), (0x67, 0xb1), (0x68, 0xa), (0x69, 0x240b),
   (0x6a, 0x2518), (0x6b, 0x2510), (0x6c, 0x250c), (0x6d, 0x2514), (0x6e, 0x253c), (0x6f, 0x23ba),
   (0x70, 0x23bb), (0x71, 0x2500), (0x72, 0x23bc), (0x73, 0x23bd), (0x74, 0x251c), (0x75, 0x2524),
   (0x76, 0x2534), (0x77, 0x252c), (0x78, 0x2502), (0x79, 0x2264), (0x7a, 0x2265), (0x7b, 0x3c0),
   (0x7c, 0x2260), (0x7d, 0xa3), (0x7e, 0xb7)]

/-- The code point that is put on the screen for `codePoint`. -/
def graphic (d : Display) (codePoint : Nat) : Nat :=
  if (if d.mUseLineDrawingUsesG0 then d.mUseLineDrawingG0 else d.mUseLineDrawingG1) then
    (lineDrawing.lookup codePoint).getD codePoint
  else codePoint

section

variable [ShortStore]

def blockClear (d : Display) (sx sy w h : Int) : Java Display :=
  d.onScreen fun b => b.blockSet sx sy w h 0x20 d.getStyle

/-- `mScrollCounter++` -/
def countScroll (d : Display) : Display :=
  { d with mScrollCounter := toInt32 (d.mScrollCounter + 1) }

def scrollDownOneLine (d : Display) : Java Display := do
  let d := d.countScroll
  if d.mLeftMargin ≠ 0 ∨ d.mRightMargin ≠ d.mColumns then
    -- Do not put anything into scroll history, just move the non-margin part of the screen up.
    let d ← d.onScreen fun b => b.blockCopy d.mLeftMargin (d.mTopMargin + 1)
      (d.mRightMargin - d.mLeftMargin) (d.mBottomMargin - d.mTopMargin - 1) d.mLeftMargin d.mTopMargin
    -- .. and blank bottom row between margins, in a style that is the effect bits alone:
    d.onScreen fun b => b.blockSet d.mLeftMargin (d.mBottomMargin - 1)
      (d.mRightMargin - d.mLeftMargin) 1 0x20 (d.mEffect.signExtend 64)
  else d.onScreen fun b => b.scrollDownOneLine d.mTopMargin d.mBottomMargin d.getStyle

def doLinefeed (d : Display) : Java Display := do
  let newCursorRow := d.mCursorRow + 1
  if d.mBottomMargin ≤ d.mCursorRow then
    -- Move down (but not scroll) as long as we are above the last row.
    return if d.mCursorRow ≠ d.mRows - 1 then d.setCursorRow newCursorRow else d
  else if newCursorRow = d.mBottomMargin then do
    let d ← d.scrollDownOneLine
    return d.setCursorRow (d.mBottomMargin - 1)
  else return d.setCursorRow newCursorRow

/-- Go to the start of the next line before a character that does not fit on this one. -/
def wrapLine (d : Display) : Java Display := do
  let d ← d.onScreen fun b => b.setLineWrap d.mCursorRow
  let d := { d with mCursorCol := d.mLeftMargin }
  if d.mCursorRow + 1 < d.mBottomMargin then return { d with mCursorRow := d.mCursorRow + 1 }
  else d.scrollDownOneLine

/-- Put a code point at the cursor and advance. -/
def placeCodePoint (d : Display) (codePoint : Nat) (autoWrap : Bool) : Java Display := do
  let displayWidth := width codePoint
  let destCol := d.mCursorCol + displayWidth
  let d ←
    (if d.mInsertMode ∧ 0 < displayWidth ∧ destCol < d.mRightMargin then
      -- Move character to right one space.
      d.onScreen fun b => b.blockCopy d.mCursorCol d.mCursorRow (d.mRightMargin - destCol) 1 destCol
        d.mCursorRow
    else .ok d)
  let offsetDueToCombiningChar :=
    if displayWidth ≤ 0 ∧ 0 < d.mCursorCol ∧ d.mAboutToAutoWrap = false then 1 else 0
  let column := max 0 (d.mCursorCol - offsetDueToCombiningChar)
  let d ← d.onScreen fun b => b.setChar column d.mCursorRow codePoint d.getStyle
  return { d with
    mAboutToAutoWrap :=
      if autoWrap ∧ 0 < displayWidth then d.mCursorCol = d.mRightMargin - displayWidth
      else d.mAboutToAutoWrap
    mCursorCol := min (d.mCursorCol + displayWidth) (d.mRightMargin - 1) }

/-- `mLastEmittedCodePoint = codePoint` -/
def remember (d : Display) (codePoint : Nat) : Display :=
  { d with mLastEmittedCodePoint := some codePoint }

/-- Send a Unicode code point to the screen. -/
def emitCodePoint (d : Display) (codePoint : Nat) : Java Display := do
  let d := d.remember codePoint
  let codePoint := d.graphic codePoint
  let autoWrap := d.isDecsetInternalBitSet Decset.autowrap
  let displayWidth := width codePoint
  let cursorInLastColumn := d.mCursorCol = d.mRightMargin - 1
  if autoWrap then
    let d ←
      (if cursorInLastColumn ∧ ((d.mAboutToAutoWrap ∧ displayWidth = 1) ∨ displayWidth = 2) then
        d.wrapLine
      else .ok d)
    d.placeCodePoint codePoint autoWrap
  -- A wide character in the last column is ignored when autowrap is disabled.
  else if cursorInLastColumn ∧ displayWidth = 2 then return d
  else d.placeCodePoint codePoint autoWrap

/-! ## Screens -/

def resizeScreen (d : Display) : Java Display := do
  let newTotalRows := if d.altActive then d.mRows else d.mMainBuffer.mTotalRows
  let (b, cursor) ← d.mScreen.resize d.mColumns d.mRows newTotalRows (d.mCursorCol, d.mCursorRow)
    d.getStyle d.altActive
  return { d.setScreen b with mCursorCol := cursor.1, mCursorRow := cursor.2 }

def resize (d : Display) (columns rows : Int) : Java Display := do
  if d.mRows = rows ∧ d.mColumns = columns then return d
  else if columns < 2 ∨ rows < 2 then .error .illegalArgument
  else
  let d := if d.mRows ≠ rows then { d with mRows := rows, mTopMargin := 0, mBottomMargin := rows } else d
  let d ←
    (if d.mColumns ≠ columns then do
      let oldTabStop := d.mTabStop
      let stops ← newArray columns false
      let toTransfer := min d.mColumns columns
      let d ← Display.setDefaultTabStops { d with mColumns := columns, mTabStop := stops }
      let stops ← arraycopy oldTabStop 0 d.mTabStop 0 toTransfer
      return { d with mTabStop := stops, mLeftMargin := 0, mRightMargin := columns }
    else .ok d)
  d.resizeScreen

/-- DECSET 47, 1047 and 1049: save the cursor and use the alternate screen, clearing it first, or go
back to the main screen and restore the cursor. -/
def useScreen (d : Display) (setting : Bool) : Java Display := do
  if setting = d.altActive then return d
  else
  let newScreen := if setting then d.mAltBuffer else d.mMainBuffer
  let resized : Bool := ¬ (newScreen.mColumns = d.mColumns ∧ newScreen.mScreenRows = d.mRows)
  if setting then
    let d := { d.saveCursor with altActive := true }
    let d ← (if resized then d.resizeScreen else .ok d)
    d.onScreen fun b => b.blockSet 0 0 d.mColumns d.mRows 0x20 d.getStyle
  else
    let d := Display.restoreCursor { d with altActive := false }
    -- Restore cursor position _not_ clipped to current screen (let resizeScreen() handle that):
    if resized then
      Display.resizeScreen { d with
        mCursorCol := d.mSavedStateMain.mSavedCursorCol
        mCursorRow := d.mSavedStateMain.mSavedCursorRow }
    else return d

end

end Display

end XoDos
