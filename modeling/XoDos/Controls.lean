import XoDos.Display
import XoDos.KeyHandler

/-!
# Control functions

What the control characters and the control sequences do to the display, once
their parameters have been read.  The mnemonics are those of the source's
comments.
-/

namespace XoDos

namespace Display

/-! ## Attributes and reports -/

/-- DECSCUSR -/
def setCursorShape (d : Display) (arg : Int) : Display :=
  if arg = 0 ∨ arg = 1 ∨ arg = 2 then { d with mCursorStyle := .block }
  else if arg = 3 ∨ arg = 4 then { d with mCursorStyle := .underline }
  else if arg = 5 ∨ arg = 6 then { d with mCursorStyle := .bar }
  else d

def setEffect (d : Display) (bits : BitVec 32) : Display := { d with mEffect := d.mEffect ||| bits }

def clearEffect (d : Display) (bits : BitVec 32) : Display :=
  { d with mEffect := d.mEffect &&& ~~~bits }

/-- The SGR codes that stand alone. -/
def applySgr (d : Display) (code : Int) : Display :=
  if code = 0 then
    { d with
      mForeColor := TextStyle.colorIndexForeground
      mBackColor := TextStyle.colorIndexBackground
      mEffect := 0 }
  else if code = 1 then d.setEffect TextStyle.attributeBold
  else if code = 2 then d.setEffect TextStyle.attributeDim
  else if code = 3 then d.setEffect TextStyle.attributeItalic
  else if code = 4 then d.setEffect TextStyle.attributeUnderline
  else if code = 5 then d.setEffect TextStyle.attributeBlink
  else if code = 7 then d.setEffect TextStyle.attributeInverse
  else if code = 8 then d.setEffect TextStyle.attributeInvisible
  else if code = 9 then d.setEffect TextStyle.attributeStrikethrough
  else if code = 22 then d.clearEffect (TextStyle.attributeBold ||| TextStyle.attributeDim)
  else if code = 23 then d.clearEffect TextStyle.attributeItalic
  else if code = 24 then d.clearEffect TextStyle.attributeUnderline
  else if code = 25 then d.clearEffect TextStyle.attributeBlink
  else if code = 27 then d.clearEffect TextStyle.attributeInverse
  else if code = 28 then d.clearEffect TextStyle.attributeInvisible
  else if code = 29 then d.clearEffect TextStyle.attributeStrikethrough
  else if 30 ≤ code ∧ code ≤ 37 then { d with mForeColor := BitVec.ofInt 32 (code - 30) }
  else if code = 39 then { d with mForeColor := TextStyle.colorIndexForeground }
  else if 40 ≤ code ∧ code ≤ 47 then { d with mBackColor := BitVec.ofInt 32 (code - 40) }
  else if code = 49 then { d with mBackColor := TextStyle.colorIndexBackground }
  else if 90 ≤ code ∧ code ≤ 97 then { d with mForeColor := BitVec.ofInt 32 (code - 90 + 8) }
  else if 100 ≤ code ∧ code ≤ 107 then { d with mBackColor := BitVec.ofInt 32 (code - 100 + 8) }
  else d

/-- The colour of SGR 38 (foreground) or 48 (background). -/
def setExtendedColor (d : Display) (code : Int) (color : BitVec 32) : Display :=
  if code = 38 then { d with mForeColor := color } else { d with mBackColor := color }

/-- An answer that starts with ESC. -/
def reply (d : Display) (text : JavaString) : Display := d.tell (.write (0x1b :: text))

def joined (parts : List JavaString) : JavaString := parts.flatten

/-- Window manipulation. -/
def manipulateWindow (d : Display) (arg : Int) : Display :=
  let size (kind : String) (rows columns : Int) := d.reply <|
    joined [ascii "[", ascii kind, ascii ";", formatDecimal rows, ascii ";", formatDecimal columns,
      ascii "t"]
  if arg = 11 then d.reply (ascii "[1t")
  else if arg = 13 then d.reply (ascii "[3;0;0t")
  else if arg = 14 then size "4" (toInt32 (d.mRows * 12)) (toInt32 (d.mColumns * 12))
  else if arg = 18 then size "8" d.mRows d.mColumns
  else if arg = 19 then size "9" d.mRows d.mColumns
  else if arg = 20 then d.reply (ascii "]LIconLabel" ++ [0x1b, 0x5c])
  else if arg = 21 then d.reply (ascii "]l" ++ [0x1b, 0x5c])
  else if arg = 22 then
    let stack := d.mTitleStack ++ [d.mTitle]
    -- Limit size
    { d with mTitleStack := if 20 < stack.length then stack.drop 1 else stack }
  else if arg = 23 then
    match d.mTitleStack.getLast? with
    | some title => Display.setTitle { d with mTitleStack := d.mTitleStack.dropLast } title
    | none => d
  else d

/-- DSR -/
def reportStatus (d : Display) (arg : Int) : Display :=
  if arg = 5 then d.tell (.writeBytes [0x1b, 0x5b, 0x30, 0x6e])
  else if arg = 6 then d.reply <|
    joined [ascii "[", formatDecimal (d.mCursorRow + 1), ascii ";", formatDecimal (d.mCursorCol + 1),
      ascii "R"]
  else d

/-- DECRQM -/
def reportPrivateMode (d : Display) (mode : Int) : Display :=
  let value : Int :=
    if mode = 47 ∨ mode = 1047 ∨ mode = 1049 then if d.altActive then 1 else 2
    else
      match mapDecSetBitToInternalBit mode with
      | some internalBit => if d.isDecsetInternalBitSet internalBit then 1 else 2
      | none => 0
  d.reply <| joined [ascii "[?", formatDecimal mode, ascii ";", formatDecimal value, ascii "$y"]

section

variable [Platform]

/-- The name of a termcap or terminfo key, from the hexadecimal digits of its characters.  Pairs that
are not hexadecimal are left out. -/
def decodeName : JavaString → JavaString
  | c :: c' :: rest =>
    match Platform.digit c 16, Platform.digit c' 16 with
    | some high, some low => (high * 16 + low) :: decodeName rest
    | _, _ => decodeName rest
  | _ => []

/-- Answer one part of a request for termcap or terminfo strings. -/
def answerTermcap (d : Display) (part : JavaString) : Display :=
  if part.length % 2 = 0 then
    let trans := decodeName part
    let responseValue :=
      if trans = ascii "Co" ∨ trans = ascii "colors" then some (ascii "256")
      else if trans = ascii "TN" ∨ trans = ascii "name" then some (ascii "xterm")
      else KeyHandler.getCodeFromTermcap trans
        (d.isDecsetInternalBitSet Decset.applicationCursorKeys)
        (d.isDecsetInternalBitSet Decset.applicationKeypad)
    match responseValue with
    | none => d.reply (joined [ascii "P0+r", part, [0x1b, 0x5c]])
    | some value =>
      d.reply (joined [ascii "P1+r", part, ascii "=", value.flatMap (formatHex 2 true), [0x1b, 0x5c]])
  else d

/-- The end of a device control string. -/
def finishDeviceControl (d : Display) (dcs : JavaString) : Display :=
  if (ascii "$q").isPrefixOf dcs then
    -- DECRQSS
    if dcs = ascii "$q" ++ [0x22] ++ ascii "p" then
      d.reply (joined [ascii "P1$r", ascii "64;1" ++ [0x22] ++ ascii "p", [0x1b, 0x5c]])
    else d
  else if (ascii "+q").isPrefixOf dcs then (splitSemicolon (dcs.drop 2)).foldl answerTermcap d
  else d

/-! ## Operating system controls -/

def changeColors (d : Display) (f : TerminalColors → Java TerminalColors) : Java Display := do
  let colors ← f d.mColors
  return Display.tell { d with mColors := colors } .onColorsChanged

/-- The loop of OSC 4.  `spec` is the colour specification so far, if the colour index has been
passed.  It ends early in an unknown sequence. -/
def setColorsLoop : JavaString → Int → Option JavaString → Display → Java Display
  | rest, colorIndex, some spec, d =>
    match rest with
    | [] =>
      if colorIndex < 0 ∨ 255 < colorIndex then .ok d
      else d.changeColors fun c => c.tryParseColor colorIndex spec
    | b :: rest =>
      if b = ';'.toNat then
        if colorIndex < 0 ∨ 255 < colorIndex then .ok d
        else do
          let d ← d.changeColors fun c => c.tryParseColor colorIndex spec
          setColorsLoop rest (-1) none d
      else setColorsLoop rest colorIndex (some (spec ++ [b])) d
  | [], _, none, d => .ok d
  | b :: rest, colorIndex, none, d =>
    if b = ';'.toNat then setColorsLoop rest colorIndex (some []) d
    else if '0'.toNat ≤ b ∧ b ≤ '9'.toNat then
      setColorsLoop rest (toInt32 ((if colorIndex < 0 then 0 else colorIndex * 10) + (b - 0x30))) none d
    else .ok d

/-- Set or report one of the special colours of OSC 10, 11 and 12. -/
def setSpecialColor (d : Display) (value specialIndex : Int) (colorSpec terminator : JavaString) :
    Java Display := do
  if colorSpec = ascii "?" then
    -- Report current color in the same format xterm and gnome-terminal does.
    let rgb ← arrayGet d.mColors.mCurrentColors specialIndex
    let component (shift : Nat) := formatHex 4 false (65535 * (rgb >>> shift &&& 0xFF).toNat / 255)
    return d.reply <| joined [ascii "]", formatDecimal value, ascii ";rgb:", component 16, ascii "/",
      component 8, ascii "/", component 0, terminator]
  else d.changeColors fun c => c.tryParseColor specialIndex colorSpec

/-- The loop of OSC 10, 11 and 12.  `colorSpec` is the text since the last semicolon. -/
def specialColorsLoop (value : Int) (terminator : JavaString) :
    JavaString → JavaString → Int → Display → Java Display
  | colorSpec, [], specialIndex, d => d.setSpecialColor value specialIndex colorSpec terminator
  | colorSpec, b :: rest, specialIndex, d =>
    if b = ';'.toNat then do
      let d ← d.setSpecialColor value specialIndex colorSpec terminator
      if 258 < specialIndex + 1 then return d
      else
      match rest with
      | [] => return d
      | next :: rest => specialColorsLoop value terminator [next] rest (specialIndex + 1) d
    else specialColorsLoop value terminator (colorSpec ++ [b]) rest specialIndex d

/-- The loop of OSC 104.  `item` is the text from `lastIndex` to `charIndex`.  After an item that is
not a number the start of the item stays where it is, and at the end of the text `charIndex` goes on
past it. -/
def resetColorsLoop : JavaString → JavaString → Display → Java Display
  | item, [], d =>
    match parseInt item 10 with
    | some colorToReset => d.changeColors fun c => c.resetIndex colorToReset
    | none => .error .stringIndexOutOfBounds
  | item, b :: rest, d =>
    if b = ';'.toNat then
      match parseInt item 10 with
      | some colorToReset => do
        let d ← d.changeColors fun c => c.resetIndex colorToReset
        match rest with
        | [] => .error .stringIndexOutOfBounds
        | next :: rest => resetColorsLoop [next] rest d
      | none => resetColorsLoop (item ++ [b]) rest d
    else resetColorsLoop (item ++ [b]) rest d

/-- The initial number of an OSC string and the text behind the first semicolon, `none` if there is
anything else before it. -/
def oscParameters : JavaString → Int → Option (Int × JavaString)
  | [], value => some (value, [])
  | b :: rest, value =>
    if b = ';'.toNat then some (value, rest)
    else if '0'.toNat ≤ b ∧ b ≤ '9'.toNat then
      oscParameters rest (toInt32 ((if value < 0 then 0 else value * 10) + (b - 0x30)))
    else none

/-- What `doOscSetTextParameters` does for a number and a text. -/
def setTextParameter (d : Display) (value : Int) (textParameter terminator : JavaString) :
    Java Display :=
  if value = 0 ∨ value = 1 ∨ value = 2 then .ok (d.setTitle (some textParameter))
  else if value = 4 then setColorsLoop textParameter (-1) none d
  else if value = 10 ∨ value = 11 ∨ value = 12 then
    specialColorsLoop value terminator [] textParameter (256 + (value - 10)) d
  else if value = 52 then
    -- Skip the optional first selection parameter(s).
    let startIndex :=
      if ';'.toNat ∈ textParameter then textParameter.idxOf ';'.toNat + 1 else 0
    match Platform.decodeBase64 (textParameter.drop startIndex) with
    | some clipboardText => .ok (d.tell (.onCopyTextToClipboard clipboardText))
    | none => .ok d
  else if value = 104 then
    if textParameter.isEmpty then d.changeColors fun _ => .ok TerminalColors.reset
    else resetColorsLoop [] textParameter d
  else if value = 110 ∨ value = 111 ∨ value = 112 then
    d.changeColors fun c => c.resetIndex (256 + (value - 110))
  else .ok d

end

end Display

end XoDos
