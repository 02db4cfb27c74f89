import XoDos.Control

/-!
# The escape sequence state machine

`Parser` has the fields of `TerminalEmulator` that escape sequences are
collected in.  The methods below are `processCodePoint` and what it calls, in
the order of the source.  None of them reads the display, so they return the new
parser together with the controls that are to be carried out.  Log messages are
left out.
-/

namespace XoDos

/-- The `ESC_*` constants. -/
inductive EscapeState where
  | none
  | esc
  | pound
  | selectLeftParen
  | selectRightParen
  | csi
  | csiQuestionmark
  | csiDollar
  | percent
  | osc
  | oscEsc
  | csiBiggerthan
  | p
  | csiQuestionmarkArgDollar
  | csiArgsSpace
  | csiArgsAsterix
  | csiDoubleQuote
  | csiSingleQuote
  | csiExclamation
deriving DecidableEq, Repr

def maxEscapeParameters : Nat := 16

def maxOscStringLength : Nat := 8192

structure Parser where
  mEscapeState : EscapeState
  /-- If the current escape sequence should continue.  Used when parsing a single character. -/
  mContinueSequence : Bool
  mArgIndex : Int
  mArgs : List Int
  mOSCOrDeviceControlArgs : JavaString
  mIsCSIStart : Bool
  mLastCSIArg : Option Nat
  mUtf8ToFollow : Int
  mUtf8Index : Int

/-- The parser after a code point, and the controls that it issues. -/
abbrev Issued := Java (Parser × List Control)

namespace Parser

def finishSequence (p : Parser) : Parser := { p with mEscapeState := .none }

def continueSequence (p : Parser) (state : EscapeState) : Parser :=
  { p with mEscapeState := state, mContinueSequence := true }

def unknownSequence (p : Parser) : Parser := p.finishSequence

def unknownParameter (p : Parser) : Parser := p.finishSequence

def unimplementedSequence (p : Parser) : Parser := p.finishSequence

def startEscapeSequence (p : Parser) : Parser :=
  { p with mEscapeState := .esc, mArgIndex := 0, mArgs := p.mArgs.map fun _ => -1 }

/-- `if (mArgIndex >= mArgs.length) mArgIndex = mArgs.length - 1` -/
def clampArgIndex (p : Parser) : Parser :=
  { p with mArgIndex := if p.mArgs.length ≤ p.mArgIndex then p.mArgs.length - 1 else p.mArgIndex }

/-- The part of `reset` that concerns the parser. -/
def reset (p : Parser) : Parser :=
  { p with
    mArgIndex := 0
    mContinueSequence := false
    mEscapeState := .none
    mUtf8Index := 0
    mUtf8ToFollow := 0 }

/-! ## Arguments -/

/-- Argument `index`, `none` where the default value is to be taken. -/
def findArg (p : Parser) (index : Int) (treatZeroAsDefault : Bool) : Java (Option Nat) := do
  let result ← arrayGet p.mArgs index
  return if result < 0 ∨ (result = 0 ∧ treatZeroAsDefault) then none else some result.toNat

def getArg (p : Parser) (index : Int) (defaultValue : Nat) (treatZeroAsDefault : Bool) : Java Nat := do
  let arg ← p.findArg index treatZeroAsDefault
  return arg.getD defaultValue

def getArg0 (p : Parser) (defaultValue : Nat) : Java Nat := p.getArg 0 defaultValue true

def getArg1 (p : Parser) (defaultValue : Nat) : Java Nat := p.getArg 1 defaultValue true

/-- Issue a control that takes one argument. -/
def issueArg0 (p : Parser) (defaultValue : Nat) (control : Nat → Control) : Issued := do
  let n ← p.getArg0 defaultValue
  return (p, [control n])

/-- One round of the loop of `parseArg`. -/
def parseArgByte (p : Parser) (b : Nat) : Java Parser := do
  if '0'.toNat ≤ b ∧ b ≤ '9'.toNat then
    let args ←
      (if p.mArgIndex < p.mArgs.length then do
        let oldValue ← arrayGet p.mArgs p.mArgIndex
        let thisDigit : Int := b - 0x30
        let value := if 0 ≤ oldValue then oldValue * 10 + thisDigit else thisDigit
        arraySet p.mArgs p.mArgIndex (if 9999 < value then 9999 else value)
      else .ok p.mArgs)
    let p := Parser.continueSequence { p with mArgs := args } p.mEscapeState
    return { p with mLastCSIArg := some b }
  else if b = ';'.toNat then
    let index := if p.mArgIndex < p.mArgs.length then p.mArgIndex + 1 else p.mArgIndex
    let p := Parser.continueSequence { p with mArgIndex := index } p.mEscapeState
    return { p with mLastCSIArg := some b }
  else return { p.unknownSequence with mLastCSIArg := some b }

def parseArg (p : Parser) (inputByte : Nat) : Issued := do
  -- A 0 is assumed if the sequence starts with a ; or contains sequential ; characters.
  let assumeZero := p.mEscapeState = .csi ∧ inputByte = ';'.toNat ∧
    (p.mIsCSIStart ∨ p.mLastCSIArg = some ';'.toNat)
  let p := { p with mIsCSIStart := false }
  if assumeZero then
    let p ← p.parseArgByte '0'.toNat
    let p ← p.parseArgByte ';'.toNat
    return (p, [])
  else
    let p ← p.parseArgByte inputByte
    return (p, [])

/-! ## Strings -/

def collectOSCArgs (p : Parser) (b : Nat) : Java Parser := do
  if p.mOSCOrDeviceControlArgs.length < maxOscStringLength then
    let text ← appendCodePoint p.mOSCOrDeviceControlArgs b
    return Parser.continueSequence { p with mOSCOrDeviceControlArgs := text } p.mEscapeState
  else return p.unknownSequence

/-- `terminator` is what ended the string, BEL or ST. -/
def doOscSetTextParameters (p : Parser) (terminator : JavaString) : Issued :=
  match Display.oscParameters p.mOSCOrDeviceControlArgs (-1) with
  | none => .ok (p.unknownSequence, [])
  | some (value, textParameter) =>
    .ok (p.finishSequence, [.setTextParameter value textParameter terminator])

def doOsc (p : Parser) (b : Nat) : Issued := do
  if b = 7 then p.doOscSetTextParameters [0x07]
  else if b = 27 then return (p.continueSequence .oscEsc, [])
  else
    let p ← p.collectOSCArgs b
    return (p, [])

def doOscEsc (p : Parser) (b : Nat) : Issued := do
  if b = 0x5c then p.doOscSetTextParameters [0x1b, 0x5c]
  else
    -- The ESC character was not followed by a \, so insert the ESC and the current character.
    let p ← p.collectOSCArgs 27
    let p ← p.collectOSCArgs b
    return (p.continueSequence .osc, [])

/-- When in a device control sequence. -/
def doDeviceControl (p : Parser) (b : Nat) : Issued := do
  if b = 0x5c then
    return (p.finishSequence, [.appearance (.deviceControl p.mOSCOrDeviceControlArgs)])
  else if maxOscStringLength < p.mOSCOrDeviceControlArgs.length then
    -- Too long.
    return (Parser.finishSequence { p with mOSCOrDeviceControlArgs := [] }, [])
  else
    let text ← appendCodePoint p.mOSCOrDeviceControlArgs b
    return (Parser.continueSequence { p with mOSCOrDeviceControlArgs := text } p.mEscapeState, [])

/-! ## Modes and attributes -/

/-- The modes that `doDecSetOrReset` has a case for. -/
def decModes : List Int :=
  [1, 3, 4, 5, 6, 7, 8, 9, 12, 25, 40, 45, 66, 69, 1000, 1001, 1002, 1003, 1004, 1005, 1006, 1015,
   1034, 1048, 47, 1047, 1049, 2004]

/-- The arguments up to `mArgIndex`. -/
def givenArgs (p : Parser) : Java (List Int) :=
  (List.range (p.mArgIndex + 1).toNat).mapM fun i => arrayGet p.mArgs i

/-- `CSI ? h` and `CSI ? l` -/
def setOrResetModes (p : Parser) (setting : Bool) : Issued := do
  let p := p.clampArgIndex
  let modes ← p.givenArgs
  let p := if modes.all (· ∈ decModes) then p else p.unknownParameter
  return (p, modes.map fun mode => .decSetOrReset setting mode)

/-- The control for one mode of `CSI ? s` and `CSI ? r`. -/
def saveOrRestoreMode (save : Bool) (externalBit : Int) : List Control :=
  match mapDecSetBitToInternalBit externalBit with
  | none => []
  | some internalBit =>
    if save then [.appearance (.saveMode internalBit)] else [.restoreMode externalBit internalBit]

/-- `CSI ? s` and `CSI ? r` -/
def saveOrRestoreModes (p : Parser) (save : Bool) : Issued := do
  let p := p.clampArgIndex
  let modes ← p.givenArgs
  return (p, modes.flatMap (saveOrRestoreMode save))

def doSetMode (p : Parser) (newValue : Bool) : Issued := do
  let modeBit ← p.getArg0 0
  return if modeBit = 4 then (p, [.appearance (.insertMode newValue)])
    else if modeBit = 34 then (p, [])
    else (p.unknownParameter, [])

/-- SGR 38 and 48, followed by a colour.  Also returns the index of the last argument of it. -/
def extendedColor (p : Parser) (code i : Int) : Java ((Parser × List Control) × Int) := do
  if p.mArgIndex < i + 2 then return ((p, []), i)
  else
  let firstArg ← arrayGet p.mArgs (i + 1)
  if firstArg = 2 then
    if p.mArgIndex < i + 4 then return ((p, []), i)
    else
    let red ← arrayGet p.mArgs (i + 2)
    let green ← arrayGet p.mArgs (i + 3)
    let blue ← arrayGet p.mArgs (i + 4)
    if red < 0 ∨ green < 0 ∨ blue < 0 ∨ 255 < red ∨ 255 < green ∨ 255 < blue then
      return ((p.finishSequence, []), i + 4)
    else
      let argbColor := (0xff000000 : BitVec 32) ||| BitVec.ofInt 32 red <<< 16 |||
        BitVec.ofInt 32 green <<< 8 ||| BitVec.ofInt 32 blue
      return ((p, [.appearance (.extendedColor code argbColor)]), i + 4)
  else if firstArg = 5 then
    let color ← arrayGet p.mArgs (i + 2)
    if 0 ≤ color ∧ color < TextStyle.numIndexedColors then
      return ((p, [.appearance (.extendedColor code (BitVec.ofInt 32 color))]), i + 2)
    else return ((p, []), i + 2)
  else return ((p.finishSequence, []), i)

/-- The loop of SGR from argument `i` on.  A round takes at least one of the `n` arguments that are
left. -/
def sgrLoop : Nat → Int → Parser → Issued
  | 0, _, p => .ok (p, [])
  | n + 1, i, p => do
    if p.mArgIndex < i then return (p, [])
    else
    let code ← arrayGet p.mArgs i
    if code < 0 ∧ 0 < p.mArgIndex then sgrLoop n (i + 1) p
    else
    let code := if code < 0 then 0 else code
    if code = 38 ∨ code = 48 then
      let ((p, controls), i) ← p.extendedColor code i
      let (p, rest) ← sgrLoop n (i + 1) p
      return (p, controls ++ rest)
    else
      let (p, rest) ← sgrLoop n (i + 1) p
      return (p, .appearance (.sgr code) :: rest)

def selectGraphicRendition (p : Parser) : Issued :=
  let p := p.clampArgIndex
  sgrLoop (p.mArgIndex + 1).toNat 0 p

/-! ## Control sequences -/

/-- Process a code point in the state `ESC [`. -/
def doCsi (p : Parser) (b : Nat) : Issued := do
  if b = '!'.toNat then return (p.continueSequence .csiExclamation, [])
  else if b = 0x22 then return (p.continueSequence .csiDoubleQuote, [])
  else if b = 0x27 then return (p.continueSequence .csiSingleQuote, [])
  else if b = '$'.toNat then return (p.continueSequence .csiDollar, [])
  else if b = '*'.toNat then return (p.continueSequence .csiArgsAsterix, [])
  else if b = '@'.toNat then p.issueArg0 1 fun n => .edit (.insertCharacters n)
  else if b = 'A'.toNat then p.issueArg0 1 fun n => .motion (.up n)
  else if b = 'B'.toNat then p.issueArg0 1 fun n => .motion (.down n)
  else if b = 'C'.toNat ∨ b = 'a'.toNat then p.issueArg0 1 fun n => .motion (.forward n)
  else if b = 'D'.toNat then p.issueArg0 1 fun n => .motion (.backward n)
  else if b = 'E'.toNat then p.issueArg0 1 fun n => .motion (.nextLine n)
  else if b = 'F'.toNat then p.issueArg0 1 fun n => .motion (.previousLine n)
  else if b = 'G'.toNat then p.issueArg0 1 fun n => .motion (.column n)
  else if b = 'H'.toNat ∨ b = 'f'.toNat then
    let x ← p.getArg1 1
    let y ← p.getArg0 1
    return (p, [.motion (.position (x - 1) (y - 1))])
  else if b = 'I'.toNat then p.issueArg0 1 fun n => .forwardTab n
  else if b = 'J'.toNat then
    let arg ← p.getArg0 0
    return if arg ≤ 2 then (p, [.edit (.eraseInDisplay arg)])
      else if arg = 3 then (p, [.eraseTranscript])
      else (p.unknownSequence, [])
  else if b = 'K'.toNat then
    let arg ← p.getArg0 0
    return if arg ≤ 2 then (p, [.edit (.eraseInLine arg)]) else (p.unknownSequence, [])
  else if b = 'L'.toNat then p.issueArg0 1 fun n => .edit (.insertLines n)
  else if b = 'M'.toNat then p.issueArg0 1 fun n => .edit (.deleteLines n)
  else if b = 'P'.toNat then p.issueArg0 1 fun n => .edit (.deleteCharacters n)
  else if b = 'S'.toNat then p.issueArg0 1 fun n => .edit (.scrollUp n)
  else if b = 'T'.toNat then
    if p.mArgIndex = 0 then p.issueArg0 1 fun n => .edit (.scrollDown n)
    else return (p.unimplementedSequence, [])
  else if b = 'X'.toNat then p.issueArg0 1 fun n => .edit (.eraseCharacters n)
  else if b = 'Z'.toNat then p.issueArg0 1 fun n => .backwardTab n
  else if b = '?'.toNat then return (p.continueSequence .csiQuestionmark, [])
  else if b = '>'.toNat then return (p.continueSequence .csiBiggerthan, [])
  else if b = 0x60 then p.issueArg0 1 fun n => .motion (.columnAbsolute n)
  else if b = 'b'.toNat then p.issueArg0 1 fun n => .repeatCharacter n
  else if b = 'c'.toNat then
    let arg ← p.getArg0 0
    return (p, if arg = 0 then [.appearance .deviceAttributes] else [])
  else if b = 'd'.toNat then p.issueArg0 1 fun n => .motion (.row n)
  else if b = 'e'.toNat then p.issueArg0 1 fun n => .motion (.rowRelative n)
  else if b = 'g'.toNat then
    let arg ← p.getArg0 0
    return (p, if arg = 0 then [.setTabStop false] else if arg = 3 then [.clearTabStops] else [])
  else if b = 'h'.toNat then p.doSetMode true
  else if b = 'l'.toNat then p.doSetMode false
  else if b = 'm'.toNat then p.selectGraphicRendition
  else if b = 'n'.toNat then p.issueArg0 0 fun n => .appearance (.reportStatus n)
  else if b = 'r'.toNat then
    let top ← p.getArg0 1
    let bottom ← p.findArg 1 true
    return (p, [.setTopBottomMargins top bottom])
  else if b = 's'.toNat then
    let left ← p.getArg0 1
    let right ← p.findArg 1 true
    return (p, [.setLeftRightMargins left right])
  else if b = 't'.toNat then p.issueArg0 0 fun n => .appearance (.manipulateWindow n)
  else if b = 'u'.toNat then return (p, [.restoreCursor])
  else if b = ' '.toNat then return (p.continueSequence .csiArgsSpace, [])
  else p.parseArg b

/-- Process a code point in the state `ESC [ ?`. -/
def doCsiQuestionMark (p : Parser) (b : Nat) : Issued := do
  if b = 'J'.toNat ∨ b = 'K'.toNat then
    let arg ← p.getArg0 0
    let p := if arg ≤ 2 then p else p.unknownSequence
    return (p, [.edit (.selectiveErase (b = 'K'.toNat) arg)])
  else if b = 'h'.toNat ∨ b = 'l'.toNat then p.setOrResetModes (b = 'h'.toNat)
  else if b = 'n'.toNat then
    let arg ← p.findArg 0 true
    return if arg = some 6 then (p, [.appearance .reportExtendedCursor]) else (p.finishSequence, [])
  else if b = 'r'.toNat ∨ b = 's'.toNat then p.saveOrRestoreModes (b = 's'.toNat)
  else if b = '$'.toNat then return (p.continueSequence .csiQuestionmarkArgDollar, [])
  else p.parseArg b

/-- Process a code point in the state `ESC [ >`. -/
def doCsiBiggerThan (p : Parser) (b : Nat) : Issued :=
  if b = 'c'.toNat then .ok (p, [.appearance .secondaryDeviceAttributes])
  else if b = 'm'.toNat then .ok (p, [])
  else p.parseArg b

/-- The attributes of DECCARA and DECRARA, which are the arguments from the fifth on. -/
def attributeCodes (p : Parser) : Java (List Int) :=
  (List.range (p.mArgIndex - 3).toNat).mapM fun i => do
    let code ← p.getArg (4 + i) 0 false
    return (code : Int)

/-- Process a code point in the state `ESC [ $`. -/
def doCsiDollar (p : Parser) (b : Nat) : Issued := do
  if b = 'v'.toNat then
    let top ← p.getArg 0 1 true
    let left ← p.getArg 1 1 true
    let bottom ← p.findArg 2 true
    let right ← p.findArg 3 true
    let destinationTop ← p.getArg 5 1 true
    let destinationLeft ← p.getArg 6 1 true
    return (p, [.edit (.copyRectangle (top - 1) (left - 1) bottom right (destinationTop - 1)
      (destinationLeft - 1))])
  else if b = 0x7b ∨ b = 'x'.toNat ∨ b = 'z'.toNat then
    let erase := b ≠ 'x'.toNat
    let selective := b = 0x7b
    let fillChar ← (if erase then .ok (some 0x20) else p.findArg 0 true)
    -- DECFRA has the character as its first argument, and -1 by default.
    let argIndex := if erase then 0 else 1
    let top ← p.getArg argIndex 1 true
    let left ← p.getArg (argIndex + 1) 1 true
    let bottom ← p.findArg (argIndex + 2) true
    let right ← p.findArg (argIndex + 3) true
    let fillChar : Int := (fillChar.map fun c => (c : Int)).getD (-1)
    return (p, [.edit (.fillRectangle fillChar selective (top - 1) (left - 1) bottom right)])
  else if b = 'r'.toNat ∨ b = 't'.toNat then
    let top ← p.getArg 0 1 true
    let left ← p.getArg 1 1 true
    let bottom ← p.findArg 2 true
    let right ← p.findArg 3 true
    if 4 ≤ p.mArgIndex then
      let p := p.clampArgIndex
      let codes ← p.attributeCodes
      return (p, [.edit (.changeAttributes (b = 't'.toNat) (top - 1) (left - 1) bottom right codes)])
    else return (p, [])
  else return (p.unknownSequence, [])

/-- Process a code point in the state `ESC`. -/
def doEsc (p : Parser) (b : Nat) : Issued :=
  if b = '#'.toNat then .ok (p.continueSequence .pound, [])
  else if b = '('.toNat then .ok (p.continueSequence .selectLeftParen, [])
  else if b = ')'.toNat then .ok (p.continueSequence .selectRightParen, [])
  else if b = '6'.toNat then .ok (p, [.backIndex])
  else if b = '7'.toNat then .ok (p, [.saveCursor])
  else if b = '8'.toNat then .ok (p, [.restoreCursor])
  else if b = '9'.toNat then .ok (p, [.forwardIndex])
  else if b = 'c'.toNat then
    .ok (p.reset, [.reset, .clearTranscript, .edit .eraseScreen, .motion (.position 0 0)])
  else if b = 'D'.toNat then .ok (p, [.lineFeed])
  else if b = 'E'.toNat then .ok (p, [.nextLine])
  else if b = 'F'.toNat then .ok (p, [.motion .lowerLeft])
  else if b = 'H'.toNat then .ok (p, [.setTabStop true])
  else if b = 'M'.toNat then .ok (p, [.reverseIndex])
  else if b = 'N'.toNat ∨ b = '0'.toNat then .ok (p, [])
  else if b = 'P'.toNat then
    .ok (Parser.continueSequence { p with mOSCOrDeviceControlArgs := [] } .p, [])
  else if b = '['.toNat then
    .ok ({ p.continueSequence .csi with mIsCSIStart := true, mLastCSIArg := none }, [])
  else if b = '='.toNat then .ok (p, [.appearance (.setMode Decset.applicationKeypad true)])
  else if b = ']'.toNat then
    .ok (Parser.continueSequence { p with mOSCOrDeviceControlArgs := [] } .osc, [])
  else if b = '>'.toNat then .ok (p, [.appearance (.setMode Decset.applicationKeypad false)])
  else .ok (p.unknownSequence, [])

/-! ## Code points -/

/-- The control of DECSCA. -/
def doCsiDoubleQuote (p : Parser) (b : Nat) : Issued := do
  if b = 'q'.toNat then
    let arg ← p.getArg0 0
    return if arg = 0 ∨ arg = 2 then (p, [.appearance (.setProtected false)])
      else if arg = 1 then (p, [.appearance (.setProtected true)])
      else (p.unknownSequence, [])
  else return (p.unknownSequence, [])

/-- A code point that is no control character, by the state of the escape sequence. -/
def dispatch (p : Parser) (b : Nat) : Issued :=
  match p.mEscapeState with
  | .none => .ok (p, if 32 ≤ b then [.emit b] else [])
  | .esc => p.doEsc b
  | .pound =>
    if b = '8'.toNat then .ok (p, [.edit .alignmentTest]) else .ok (p.unknownSequence, [])
  | .selectLeftParen => .ok (p, [.appearance (.designateG0 (b = '0'.toNat))])
  | .selectRightParen => .ok (p, [.appearance (.designateG1 (b = '0'.toNat))])
  | .csi => p.doCsi b
  | .csiExclamation =>
    -- DECSTR
    if b = 'p'.toNat then .ok (p.reset, [.reset]) else .ok (p.unknownSequence, [])
  | .csiQuestionmark => p.doCsiQuestionMark b
  | .csiBiggerthan => p.doCsiBiggerThan b
  | .csiDollar => p.doCsiDollar b
  | .csiDoubleQuote => p.doCsiDoubleQuote b
  | .csiSingleQuote =>
    if b = 0x7d then p.issueArg0 1 fun n => .edit (.insertColumns n)
    else if b = 0x7e then p.issueArg0 1 fun n => .edit (.deleteColumns n)
    else .ok (p.unknownSequence, [])
  | .percent => .ok (p, [])
  | .osc => p.doOsc b
  | .oscEsc => p.doOscEsc b
  | .p => p.doDeviceControl b
  | .csiQuestionmarkArgDollar =>
    -- DECRQM
    if b = 'p'.toNat then p.issueArg0 0 fun mode => .appearance (.reportPrivateMode mode)
    else .ok (p.unknownSequence, [])
  | .csiArgsSpace =>
    if b = 'q'.toNat then p.issueArg0 0 fun arg => .appearance (.cursorShape arg)
    else if b = 't'.toNat ∨ b = 'u'.toNat then .ok (p, [])
    else .ok (p.unknownSequence, [])
  | .csiArgsAsterix => do
    let attributeChangeExtent ← p.getArg0 0
    return if b = 'x'.toNat ∧ attributeChangeExtent ≤ 2 then
        (p, [.appearance (.setMode Decset.rectangularChangeattribute (attributeChangeExtent = 2))])
      else (p.unknownSequence, [])

def processCodePoint (p : Parser) (b : Nat) : Issued := do
  if b = 0 then return (p, [])
  else if b = 7 then
    if p.mEscapeState = .osc then p.doOsc b else return (p, [.appearance .bell])
  else if b = 8 then return (p, [.backspace])
  else if b = 9 then return (p, [.horizontalTab])
  else if b = 10 ∨ b = 11 ∨ b = 12 then return (p, [.lineFeed])
  else if b = 13 then return (p, [.motion .carriageReturn])
  else if b = 14 then return (p, [.appearance (.useG0 false)])
  else if b = 15 then return (p, [.appearance (.useG0 true)])
  else if b = 24 ∨ b = 26 then
    return if p.mEscapeState ≠ .none then (p.finishSequence, [.emit 127]) else (p, [])
  else if b = 27 then
    -- Ignore escape when reading a device control sequence, it may be part of the terminator.
    if p.mEscapeState = .p then return (p, [])
    else if p.mEscapeState ≠ .osc then return (p.startEscapeSequence, [])
    else p.doOsc b
  else
    let (p, controls) ← Parser.dispatch { p with mContinueSequence := false } b
    return (if p.mContinueSequence then p else p.finishSequence, controls)

end Parser

/-- The part of `TerminalEmulator` that a code point can change. -/
structure Terminal extends Display, Parser

/-- `processCodePoint`: parse, and carry out the controls. -/
def Terminal.processCodePoint [ShortStore] [Platform] (t : Terminal) (b : Nat) : Java Terminal := do
  let (p, controls) ← t.toParser.processCodePoint b
  let d ← t.toDisplay.perform controls
  return { toDisplay := d, toParser := p }

end XoDos
