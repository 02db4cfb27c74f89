import XoDos.Run
import XoDos.ShownRows

/-!
# `TerminalView`

The view shows the emulator of one session, from the row `mTopRow` down.  Output of
the other sessions goes on behind it, and their emulators count the rows that scroll.
A selection moves with the text when output to the shown session scrolls.
-/

namespace XoDos

/-- The emulator with the field that only the view reads. -/
structure Emulator extends TerminalEmulator where
  mAutoScrollDisabled : Bool

structure TerminalSession where
  mEmulator : Option Emulator
  mTranscriptRows : Option Int

namespace TerminalSession

variable [ShortStore] [Platform]

/-- `updateSize`, without the pseudo terminal and the threads. -/
def updateSize (session : TerminalSession) (columns rows : Int) : Java TerminalSession := do
  match session.mEmulator with
  | none =>
    let e ← TerminalEmulator.new columns rows session.mTranscriptRows
    return { session with mEmulator := some { e with mAutoScrollDisabled := false } }
  | some emulator =>
    let e ← emulator.toTerminalEmulator.resize columns rows
    return { session with mEmulator := some { emulator with toTerminalEmulator := e } }

end TerminalSession

def TerminalBuffer.getActiveRows (b : TerminalBuffer) : Int := b.mActiveTranscriptRows + b.mScreenRows

/-! ## The handles of a selection -/

structure TextSelectionCursorController where
  mIsSelectingText : Bool := false
  mSelX1 : Int := -1
  mSelX2 : Int := -1
  mSelY1 : Int := -1
  mSelY2 : Int := -1

namespace TextSelectionCursorController

/-- The loop of `getValidCurX` from the character at column `col`. -/
def validCurX (cx col : Int) : JavaString → Int
  | [] => cx
  | ch1 :: rest =>
    if ch1 = 0 then cx
    else
      match isHighSurrogate ch1, rest with
      | true, ch2 :: rest =>
        let cend := col + WcWidth.width (toCodePoint ch1 ch2)
        if col < cx ∧ cx < cend then cend
        else if cend = col then col
        else validCurX cx cend rest
      | _, rest =>
        let cend := col + WcWidth.width ch1
        if col < cx ∧ cx < cend then cend
        else if cend = col then col
        else validCurX cx cend rest

def getValidCurX (screen : TerminalBuffer) (cy cx : Int) : Java Int := do
  let line ← screen.getSelectedText 0 cy cx cy true false
  return validCurX cx 0 line

/-- While the cell to the left belongs to the word. -/
def expandLeft (screen : TerminalBuffer) (row : Int) : Nat → Java Int
  | 0 => .ok 0
  | column + 1 => do
    let text ← screen.getSelectedText column row column row true false
    if text ≠ [] then expandLeft screen row column else return column + 1

/-- While the cell to the right, of those up to the last column, belongs to the word. -/
def expandRight (screen : TerminalBuffer) (row : Int) : Nat → Int → Java Int
  | 0, column => .ok column
  | cells + 1, column => do
    let text ← screen.getSelectedText (column + 1) row (column + 1) row true false
    if text ≠ [] then expandRight screen row cells (column + 1) else return column

def setInitialTextSelectionPosition (c : TextSelectionCursorController) (e : Emulator)
    (column row : Int) : Java TextSelectionCursorController := do
  let screen := e.mScreen
  let text ← screen.getSelectedText column row column row true false
  let c := { c with mSelY1 := row, mSelY2 := row }
  if text = [0x20] then return { c with mSelX1 := column, mSelX2 := column }
  else
    -- Selecting something other than whitespace. Expand to word.
    let left ← (if 0 < column then expandLeft screen row column.toNat else .ok column)
    let right ← expandRight screen row (e.mColumns - 1 - column).toNat column
    return { c with mSelX1 := left, mSelX2 := right }

def showAt (c : TextSelectionCursorController) (e : Emulator) (column row : Int) :
    Java TextSelectionCursorController := do
  let c ← c.setInitialTextSelectionPosition e column row
  return { c with mIsSelectingText := true }

/-- `hide`, which does nothing for 300 milliseconds after `show`. -/
def hide (c : TextSelectionCursorController) (late : Bool) : TextSelectionCursorController :=
  if c.mIsSelectingText && late then {} else c

def decrementYTextSelectionCursors (c : TextSelectionCursorController) (decrement : Int) :
    TextSelectionCursorController :=
  { c with mSelY1 := toInt32 (c.mSelY1 - decrement), mSelY2 := toInt32 (c.mSelY2 - decrement) }

/-- A row of a handle, between the oldest row of the history and the last row of the screen. -/
def clampRow (e : Emulator) (y : Int) : Int :=
  let scrollRows := e.mScreen.getActiveRows - e.mRows
  if y < -scrollRows then -scrollRows else if e.mRows - 1 < y then e.mRows - 1 else y

/-- The view follows a handle that has been moved to the row `y`. -/
def followHandle (e : Emulator) (y topRow : Int) : Int :=
  let scrollRows := e.mScreen.getActiveRows - e.mRows
  if e.altActive then topRow
  else if y ≤ topRow then (if topRow - 1 < -scrollRows then -scrollRows else topRow - 1)
  else if topRow + e.mRows ≤ y then (if 0 < topRow + 1 then 0 else topRow + 1)
  else topRow

/-- `updatePosition`, with the cell that `getCursorX` and `getCursorY` make of the position: the
controller and the top row of the view. -/
def updatePosition (c : TextSelectionCursorController) (e : Emulator) (topRow : Int)
    (startHandle : Bool) (x y : Int) : Java (TextSelectionCursorController × Int) := do
  let x := if x < 0 then 0 else x
  let y := clampRow e y
  if startHandle then
    let y := if c.mSelY2 < y then c.mSelY2 else y
    let x := if y = c.mSelY2 ∧ c.mSelX2 < x then c.mSelX2 else x
    let x ← getValidCurX e.mScreen y x
    return ({ c with mSelX1 := x, mSelY1 := y }, followHandle e y topRow)
  else
    let y := if y < c.mSelY1 then c.mSelY1 else y
    let x := if c.mSelY1 = y ∧ x < c.mSelX1 then c.mSelX1 else x
    let x ← getValidCurX e.mScreen y x
    return ({ c with mSelX2 := x, mSelY2 := y }, followHandle e y topRow)

end TextSelectionCursorController

/-! ## The view -/

/-- Sessions are told apart by a number, and an emulator is that of its session. -/
structure TerminalView where
  mTopRow : Int := 0
  mTermSession : Option Nat := none
  mEmulator : Option Nat := none
  mTextSelectionCursorController : Option TextSelectionCursorController := none

namespace TerminalView

def isSelectingText (v : TerminalView) : Bool :=
  v.mTextSelectionCursorController.any (·.mIsSelectingText)

def getTextSelectionCursorController (v : TerminalView) : TextSelectionCursorController :=
  v.mTextSelectionCursorController.getD {}

def stopTextSelectionMode (v : TerminalView) (late : Bool) : TerminalView :=
  { v with mTextSelectionCursorController := some (v.getTextSelectionCursorController.hide late) }

def decrementYTextSelectionCursors (v : TerminalView) (decrement : Int) : TerminalView :=
  { v with
    mTextSelectionCursorController :=
      v.mTextSelectionCursorController.map (·.decrementYTextSelectionCursors decrement) }

/-- The first lines of `onScreenUpdated`: the history may have become shorter. -/
def clampTopRow (v : TerminalView) (e : Emulator) : TerminalView :=
  let rowsInHistory := e.mScreen.mActiveTranscriptRows
  if v.mTopRow < -rowsInHistory then { v with mTopRow := -rowsInHistory } else v

/-- Keep the view where it is in the text, and whether that skips scrolling. -/
def keepInPlace (v : TerminalView) (e : Emulator) (skipScrolling late : Bool) :
    TerminalView × Bool :=
  let rowsInHistory := e.mScreen.mActiveTranscriptRows
  let rowShift := e.mScrollCounter
  if rowsInHistory < toInt32 (-v.mTopRow + rowShift) then
    -- Hitting the end of history transcript: abort text selection and scroll to end.
    let v := if v.isSelectingText then v.stopTextSelectionMode late else v
    if e.mAutoScrollDisabled then ({ v with mTopRow := -rowsInHistory }, true)
    else (v, skipScrolling)
  else
    let v := { v with mTopRow := toInt32 (v.mTopRow - rowShift) }
    (v.decrementYTextSelectionCursors rowShift, true)

def onScreenUpdated (v : TerminalView) (e : Emulator) (skipScrolling late : Bool) :
    TerminalView × Emulator :=
  let v := v.clampTopRow e
  let (v, skipScrolling) :=
    if v.isSelectingText ∨ e.mAutoScrollDisabled then v.keepInPlace e skipScrolling late
    else (v, skipScrolling)
  let v := if !skipScrolling then { v with mTopRow := 0 } else v
  (v, { e with mScrollCounter := 0 })

def isMouseTrackingActive (e : Emulator) : Bool :=
  e.isDecsetInternalBitSet Decset.mouseTrackingPressRelease ||
    e.isDecsetInternalBitSet Decset.mouseTrackingButtonEvent

/-- One round of the loop of `doScroll` in the history. -/
def scrollRow (e : Emulator) (up : Bool) (mTopRow : Int) : Int :=
  min 0 (max (-e.mScreen.mActiveTranscriptRows) (mTopRow + (if up then -1 else 1)))

/-- `doScroll`; what it sends as mouse events or keys is left out. -/
def doScroll (v : TerminalView) (e : Emulator) (rowsDown : Int) : TerminalView :=
  if isMouseTrackingActive e then v
  else if e.altActive then v
  else { v with mTopRow := (scrollRow e (rowsDown < 0))^[rowsDown.natAbs] v.mTopRow }

end TerminalView

/-! ## Steps -/

namespace Viewing

/-- `failed` is the app after an exception. -/
structure State where
  sessions : Nat → TerminalSession
  view : TerminalView := {}
  failed : Bool := false

inductive Input
  /-- A batch that a session's emulator processes; for the shown one `onScreenUpdated` follows. -/
  | output (session : Nat) (bytes : List Byte) (skipScrolling late : Bool)
  | doScroll (rowsDown : Int)
  /-- With the columns and rows that fit, unless the view has no size. -/
  | updateSize (size : Option (Int × Int))
  | attachSession (session : Nat) (size : Option (Int × Int))
  | startTextSelectionMode (column row : Int)
  | updatePosition (startHandle : Bool) (x y : Int)
  | stopTextSelectionMode (late : Bool)
  | toggleAutoScrollDisabled

namespace State

variable [ShortStore] [Platform]

def emulator (s : State) (session : Nat) : Option Emulator := (s.sessions session).mEmulator

/-- The emulator that the view draws. -/
def shown (s : State) : Option Emulator := s.view.mEmulator.bind s.emulator

def setEmulator (s : State) (session : Nat) (e : Emulator) : State :=
  { s with
    sessions := Function.update s.sessions session { s.sessions session with mEmulator := some e } }

def output (s : State) (session : Nat) (bytes : List Byte) (skipScrolling late : Bool) :
    Java State := do
  match s.emulator session with
  | none => return s
  | some emulator =>
    let e ← emulator.toTerminalEmulator.append bytes
    let emulator := { emulator with toTerminalEmulator := e }
    if s.view.mEmulator = some session then
      let (view, emulator) := s.view.onScreenUpdated emulator skipScrolling late
      return { s.setEmulator session emulator with view := view }
    else return s.setEmulator session emulator

def updateSize (s : State) (size : Option (Int × Int)) : Java State := do
  match size, s.view.mTermSession with
  | some (columns, rows), some session =>
    let newColumns := max 4 columns
    let newRows := max 4 rows
    if s.shown.all fun e => newColumns ≠ e.mColumns ∨ newRows ≠ e.mRows then
      let updated ← (s.sessions session).updateSize newColumns newRows
      return { s with
        sessions := Function.update s.sessions session updated
        view := { s.view with mEmulator := some session, mTopRow := 0 } }
    else return s
  | _, _ => return s

def attachSession (s : State) (session : Nat) (size : Option (Int × Int)) : Java State :=
  if s.view.mTermSession = some session then .ok s
  else
    { s with
      view := { s.view with mTopRow := 0, mTermSession := some session, mEmulator := none } }.updateSize
        size

/-- Call a method of the view that needs its emulator. -/
def onEmulator (s : State) (f : Emulator → Java TerminalView) : Java State := do
  match s.shown with
  | none => .error .nullPointer
  | some e =>
    let view ← f e
    return { s with view := view }

def run (s : State) : Input → Java State
  | .output session bytes skipScrolling late => s.output session bytes skipScrolling late
  | .doScroll rowsDown => s.onEmulator fun e => .ok (s.view.doScroll e rowsDown)
  | .updateSize size => s.updateSize size
  | .attachSession session size => s.attachSession session size
  | .startTextSelectionMode column row => s.onEmulator fun e => do
    let c ← s.view.getTextSelectionCursorController.showAt e column row
    return { s.view with mTextSelectionCursorController := some c }
  | .updatePosition startHandle x y => s.onEmulator fun e => do
    let (c, topRow) ← s.view.getTextSelectionCursorController.updatePosition e s.view.mTopRow
      startHandle x y
    return { s.view with mTextSelectionCursorController := some c, mTopRow := topRow }
  | .stopTextSelectionMode late => .ok { s with view := s.view.stopTextSelectionMode late }
  | .toggleAutoScrollDisabled =>
    match s.view.mEmulator, s.shown with
    | some session, some e =>
      .ok (s.setEmulator session { e with mAutoScrollDisabled := !e.mAutoScrollDisabled })
    | _, _ => .ok s

def step (s : State) (input : Input) : State :=
  if s.failed then s
  else
    match s.run input with
    | .ok s' => s'
    | .error _ => { s with failed := true }

/-- Sessions that have not begun, and a view that shows none. -/
def start (mTranscriptRows : Nat → Option Int) : State where
  sessions k := { mEmulator := none, mTranscriptRows := mTranscriptRows k }

/-- The rows of the view are rows of the buffer. -/
structure Drawable (s : State) (e : Emulator) : Prop where
  history : -e.mScreen.mActiveTranscriptRows ≤ s.view.mTopRow
  screen : s.view.mTopRow ≤ 0
  accepted : ∀ row, s.view.mTopRow ≤ row → row < s.view.mTopRow + e.mRows →
    ∃ internalRow, e.mScreen.externalToInternalRow row = .ok internalRow

/-- Drawing does not throw. -/
def Draws (s : State) : Prop := s.failed = false → ∀ e, s.shown = some e → s.Drawable e

/-- When output moves the view with the text, the rows to move by fit an `int`, with those that
the view is already up, and do not lead below the screen. -/
def Counted (s : State) : Input → Prop
  | .output session bytes _ _ => s.failed = false → s.view.mEmulator = some session →
    ∀ emulator e, s.emulator session = some emulator →
      emulator.toTerminalEmulator.append bytes = .ok e →
      s.view.isSelectingText ∨ emulator.mAutoScrollDisabled →
      0 ≤ e.mScrollCounter + min (-s.view.mTopRow) e.mScreen.mActiveTranscriptRows ∧
        e.mScrollCounter + min (-s.view.mTopRow) e.mScreen.mActiveTranscriptRows < 2 ^ 31
  | _ => True

end State

end Viewing

end XoDos
