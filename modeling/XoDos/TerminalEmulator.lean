import XoDos.Terminal

/-!
# `TerminalEmulator`

The constructor, resizing, and the UTF-8 decoder in front of the state machine.
-/

namespace XoDos

def unicodeReplacementChar : Nat := 0xFFFD

def defaultTerminalTranscriptRows : Int := 2000

/-- The accepted setting, or the default.  `none` is null. -/
def getTerminalTranscriptRows (transcriptRows : Option Int) : Int :=
  match transcriptRows with
  | none => defaultTerminalTranscriptRows
  | some rows => if rows < 100 ∨ 50000 < rows then defaultTerminalTranscriptRows else rows

structure TerminalEmulator extends Terminal where
  mUtf8InputBuffer : List Byte

namespace TerminalEmulator

variable [ShortStore] [Platform]

/-- The fields of the display before `reset` is called. -/
def initialDisplay (columns rows : Int) (main alt : TerminalBuffer) (stops : List Bool) : Display where
  mRows := rows
  mColumns := columns
  mCursorRow := 0
  mCursorCol := 0
  mTopMargin := 0
  mBottomMargin := 0
  mLeftMargin := 0
  mRightMargin := 0
  mAboutToAutoWrap := false
  mTabStop := stops
  mMainBuffer := main
  mAltBuffer := alt
  altActive := false
  mSavedStateMain := {}
  mSavedStateAlt := {}
  mLastEmittedCodePoint := none
  mForeColor := 0
  mBackColor := 0
  mEffect := 0
  mCurrentDecSetFlags := 0
  mSavedDecSetFlags := 0
  mInsertMode := false
  mUseLineDrawingG0 := false
  mUseLineDrawingG1 := false
  mUseLineDrawingUsesG0 := true
  mCursorStyle := .block
  mScrollCounter := 0
  mTitle := none
  mTitleStack := []
  mColors := TerminalColors.reset
  events := []

def initialParser : Parser where
  mEscapeState := .none
  mContinueSequence := false
  mArgIndex := 0
  mArgs := List.replicate maxEscapeParameters 0
  mOSCOrDeviceControlArgs := []
  mIsCSIStart := false
  mLastCSIArg := none
  mUtf8ToFollow := 0
  mUtf8Index := 0

def new (columns rows : Int) (transcriptRows : Option Int) : Java TerminalEmulator := do
  let main ← TerminalBuffer.new columns (getTerminalTranscriptRows transcriptRows) rows
  let alt ← TerminalBuffer.new columns rows rows
  let stops ← newArray columns false
  let d ← (initialDisplay columns rows main alt stops).reset
  return { toDisplay := d, toParser := initialParser.reset, mUtf8InputBuffer := List.replicate 4 0 }

def resize (e : TerminalEmulator) (columns rows : Int) : Java TerminalEmulator := do
  let d ← e.toDisplay.resize columns rows
  return { e with toDisplay := d }

def processCodePoint (e : TerminalEmulator) (b : Nat) : Java TerminalEmulator := do
  let t ← e.toTerminal.processCodePoint b
  return { e with toTerminal := t }

/-- The code point of the first `n` bytes of `mUtf8InputBuffer`. -/
def decodeSequence (buffer : List Byte) (n : Int) : Java Nat := do
  let firstByteMask : Byte := if n = 2 then 0b00011111 else if n = 3 then 0b00001111 else 0b00000111
  let first ← arrayGet buffer 0
  forUp 1 n (fun i codePoint => do
    let next ← arrayGet buffer i
    return (codePoint <<< 6) ||| (next &&& 0b00111111).toNat) (first &&& firstByteMask).toNat

/-- The check for an overlong encoding of `n` bytes. -/
def isOverlong (codePoint : Nat) (n : Int) : Bool :=
  (codePoint ≤ 0b1111111 ∧ 1 < n) ∨ (codePoint < 0b11111111111 ∧ 2 < n) ∨
    (codePoint < 0b1111111111111111 ∧ 3 < n)

/-- What the decoder makes of a complete sequence: nothing for a C1 control character. -/
def decoded (codePoint : Nat) : Option Nat :=
  if 0x80 ≤ codePoint ∧ codePoint ≤ 0x9F then none
  else
    match Platform.getType codePoint with
    | .unassigned | .surrogate => some unicodeReplacementChar
    | .other => some codePoint

/-- `processByte` with no sequence begun. -/
def processFirstByte (e : TerminalEmulator) (byteToProcess : Byte) : Java TerminalEmulator := do
  if byteToProcess &&& 0b10000000 = 0 then e.processCodePoint byteToProcess.toNat
  else
    let start (toFollow : Int) : Java TerminalEmulator := do
      let buffer ← arraySet e.mUtf8InputBuffer e.mUtf8Index byteToProcess
      return { e with
        mUtf8ToFollow := toFollow
        mUtf8Index := e.mUtf8Index + 1
        mUtf8InputBuffer := buffer }
    if byteToProcess &&& 0b11100000 = 0b11000000 then start 1
    else if byteToProcess &&& 0b11110000 = 0b11100000 then start 2
    else if byteToProcess &&& 0b11111000 = 0b11110000 then start 3
    -- Not a valid UTF-8 sequence start, signal invalid data:
    else e.processCodePoint unicodeReplacementChar

def processByte (e : TerminalEmulator) (byteToProcess : Byte) : Java TerminalEmulator := do
  if 0 < e.mUtf8ToFollow then
    if byteToProcess &&& 0b11000000 = 0b10000000 then
      let buffer ← arraySet e.mUtf8InputBuffer e.mUtf8Index byteToProcess
      let e := { e with
        mUtf8InputBuffer := buffer
        mUtf8Index := e.mUtf8Index + 1
        mUtf8ToFollow := e.mUtf8ToFollow - 1 }
      if e.mUtf8ToFollow = 0 then
        let codePoint ← decodeSequence e.mUtf8InputBuffer e.mUtf8Index
        let codePoint :=
          if isOverlong codePoint e.mUtf8Index then unicodeReplacementChar else codePoint
        let e := { e with mUtf8Index := 0, mUtf8ToFollow := 0 }
        match decoded codePoint with
        | none => return e
        | some codePoint => e.processCodePoint codePoint
      else return e
    else
      -- Not a continuation byte: replace the sequence up to now with the replacement character, on
      -- the screen, and start again with this byte.
      let d ← e.toDisplay.emitCodePoint unicodeReplacementChar
      TerminalEmulator.processFirstByte
        { e with toDisplay := d, mUtf8Index := 0, mUtf8ToFollow := 0 } byteToProcess
  else e.processFirstByte byteToProcess

/-- `append`, which is given the bytes of the buffer up to the length. -/
def append (e : TerminalEmulator) (bytes : List Byte) : Java TerminalEmulator :=
  bytes.foldlM (fun e b => e.processByte b) e

end TerminalEmulator

end XoDos
