import XoDos.Library

/-!
# `KeyHandler`

The escape sequences that keys send.  The terminal looks them up when an
application asks for a termcap or terminfo key with a device control string.
-/

namespace XoDos.KeyHandler

/-- The Android key codes with a sequence of their own. -/
inductive KeyCode where
  | dpadCenter | dpadUp | dpadDown | dpadRight | dpadLeft | moveHome | moveEnd
  | f1 | f2 | f3 | f4 | f5 | f6 | f7 | f8 | f9 | f10 | f11 | f12
  | sysrq | break_ | escape | back | insert | forwardDel | pageUp | pageDown | del
  | numLock | space | tab | enter
  | numpadEnter | numpadMultiply | numpadAdd | numpadComma | numpadDot | numpadSubtract
  | numpadDivide | numpad0 | numpad1 | numpad2 | numpad3 | numpad4 | numpad5 | numpad6 | numpad7
  | numpad8 | numpad9 | numpadEquals
  | other
deriving DecidableEq, Repr

def keymodAlt : BitVec 32 := 0x80000000
def keymodCtrl : BitVec 32 := 0x40000000
def keymodShift : BitVec 32 := 0x20000000
def keymodNumLock : BitVec 32 := 0x10000000

/-- The control sequence introducer. -/
def csi (s : String) : JavaString := 0x1b :: 0x5b :: ascii s

/-- A single shift three sequence. -/
def ss3 (s : String) : JavaString := 0x1b :: 0x4f :: ascii s

def transformForModifiers (start : JavaString) (keymod : BitVec 32) (lastChar : Char) : JavaString :=
  let withModifier (modifier : String) := start ++ ascii ";" ++ ascii modifier ++ [lastChar.toNat]
  if keymod = keymodShift then withModifier "2"
  else if keymod = keymodAlt then withModifier "3"
  else if keymod = keymodShift ||| keymodAlt then withModifier "4"
  else if keymod = keymodCtrl then withModifier "5"
  else if keymod = keymodShift ||| keymodCtrl then withModifier "6"
  else if keymod = keymodAlt ||| keymodCtrl then withModifier "7"
  else if keymod = keymodShift ||| keymodAlt ||| keymodCtrl then withModifier "8"
  else start ++ [lastChar.toNat]

/-- A cursor key, which sends SS3 in application mode and takes modifiers as a parameter. -/
def cursorKey (keyMode : BitVec 32) (cursorApp : Bool) (lastChar : Char) : JavaString :=
  if keyMode = 0 then
    if cursorApp then ss3 (String.singleton lastChar) else csi (String.singleton lastChar)
  else transformForModifiers (csi "1") keyMode lastChar

/-- One of the first four function keys. -/
def functionKey (keyMode : BitVec 32) (lastChar : Char) : JavaString :=
  if keyMode = 0 then ss3 (String.singleton lastChar)
  else transformForModifiers (csi "1") keyMode lastChar

/-- A key of the keypad, which sends SS3 in application mode and its character otherwise. -/
def keypadKey (keyMode : BitVec 32) (keypadApplication : Bool) (lastChar : Char) (plain : String) :
    JavaString :=
  if keypadApplication then transformForModifiers (ss3 "") keyMode lastChar else ascii plain

/-- The sequence of a key, or null if it goes through normal input processing. -/
def getCode (keyCode : KeyCode) (keyMode : BitVec 32) (cursorApp keypadApplication : Bool) :
    Option JavaString :=
  let numLockOn := keyMode &&& keymodNumLock ≠ 0
  let keyMode := keyMode &&& ~~~keymodNumLock
  let tilde (start : String) := transformForModifiers (csi start) keyMode '~'
  match keyCode with
  | .dpadCenter => some (ascii "\r")
  | .dpadUp => some (cursorKey keyMode cursorApp 'A')
  | .dpadDown => some (cursorKey keyMode cursorApp 'B')
  | .dpadRight => some (cursorKey keyMode cursorApp 'C')
  | .dpadLeft => some (cursorKey keyMode cursorApp 'D')
  | .moveHome => some (cursorKey keyMode cursorApp 'H')
  | .moveEnd => some (cursorKey keyMode cursorApp 'F')
  | .f1 => some (functionKey keyMode 'P')
  | .f2 => some (functionKey keyMode 'Q')
  | .f3 => some (functionKey keyMode 'R')
  | .f4 => some (functionKey keyMode 'S')
  | .f5 => some (tilde "15")
  | .f6 => some (tilde "17")
  | .f7 => some (tilde "18")
  | .f8 => some (tilde "19")
  | .f9 => some (tilde "20")
  | .f10 => some (tilde "21")
  | .f11 => some (tilde "23")
  | .f12 => some (tilde "24")
  | .sysrq => some (csi "32~")
  | .break_ => some (csi "34~")
  | .escape | .back => some [0x1b]
  | .insert => some (tilde "2")
  | .forwardDel => some (tilde "3")
  | .pageUp => some (tilde "5")
  | .pageDown => some (tilde "6")
  | .del =>
    some ((if keyMode &&& keymodAlt = 0 then [] else [0x1b]) ++
      if keyMode &&& keymodCtrl = 0 then [0x7f] else [0x08])
  | .numLock => if keypadApplication then some (ss3 "P") else none
  | .space => if keyMode &&& keymodCtrl = 0 then none else some [0]
  | .tab => some (if keyMode &&& keymodShift = 0 then ascii "\t" else csi "Z")
  | .enter => some (if keyMode &&& keymodAlt = 0 then ascii "\r" else 0x1b :: ascii "\r")
  | .numpadEnter => some (keypadKey keyMode keypadApplication 'M' "\n")
  | .numpadMultiply => some (keypadKey keyMode keypadApplication 'j' "*")
  | .numpadAdd => some (keypadKey keyMode keypadApplication 'k' "+")
  | .numpadComma => some (ascii ",")
  | .numpadDot =>
    some (if numLockOn then if keypadApplication then ss3 "n" else ascii "." else tilde "3")
  | .numpadSubtract => some (keypadKey keyMode keypadApplication 'm' "-")
  | .numpadDivide => some (keypadKey keyMode keypadApplication 'o' "/")
  | .numpad0 => some (if numLockOn then keypadKey keyMode keypadApplication 'p' "0" else tilde "2")
  | .numpad1 =>
    some (if numLockOn then keypadKey keyMode keypadApplication 'q' "1"
      else cursorKey keyMode cursorApp 'F')
  | .numpad2 =>
    some (if numLockOn then keypadKey keyMode keypadApplication 'r' "2"
      else cursorKey keyMode cursorApp 'B')
  | .numpad3 => some (if numLockOn then keypadKey keyMode keypadApplication 's' "3" else csi "6~")
  | .numpad4 =>
    some (if numLockOn then keypadKey keyMode keypadApplication 't' "4"
      else cursorKey keyMode cursorApp 'D')
  | .numpad5 => some (keypadKey keyMode keypadApplication 'u' "5")
  | .numpad6 =>
    some (if numLockOn then keypadKey keyMode keypadApplication 'v' "6"
      else cursorKey keyMode cursorApp 'C')
  | .numpad7 =>
    some (if numLockOn then keypadKey keyMode keypadApplication 'w' "7"
      else cursorKey keyMode cursorApp 'H')
  | .numpad8 =>
    some (if numLockOn then keypadKey keyMode keypadApplication 'x' "8"
      else cursorKey keyMode cursorApp 'A')
  | .numpad9 => some (if numLockOn then keypadKey keyMode keypadApplication 'y' "9" else csi "5~")
  | .numpadEquals => some (keypadKey keyMode keypadApplication 'X' "=")
  | .other => none

/-- `TERMCAP_TO_KEYCODE`: the key of a termcap name and whether it is shifted. -/
def termcapToKeycode : List (String × KeyCode × Bool) :=
  [("%i", .dpadRight, true), ("#2", .moveHome, true), ("#4", .dpadLeft, true),
   ("*7", .moveEnd, true), ("k1", .f1, false), ("k2", .f2, false), ("k3", .f3, false),
   ("k4", .f4, false), ("k5", .f5, false), ("k6", .f6, false), ("k7", .f7, false),
   ("k8", .f8, false), ("k9", .f9, false), ("k;", .f10, false), ("F1", .f11, false),
   ("F2", .f12, false), ("F3", .f1, true), ("F4", .f2, true), ("F5", .f3, true),
   ("F6", .f4, true), ("F7", .f5, true), ("F8", .f6, true), ("F9", .f7, true),
   ("FA", .f8, true), ("FB", .f9, true), ("FC", .f10, true), ("FD", .f11, true),
   ("FE", .f12, true), ("kb", .del, false), ("kd", .dpadDown, false), ("kh", .moveHome, false),
   ("kl", .dpadLeft, false), ("kr", .dpadRight, false), ("K1", .moveHome, false),
   ("K3", .pageUp, false), ("K4", .moveEnd, false), ("K5", .pageDown, false),
   ("ku", .dpadUp, false), ("kB", .tab, true), ("kD", .forwardDel, false),
   ("kDN", .dpadDown, true), ("kF", .dpadDown, true), ("kI", .insert, false),
   ("kN", .pageUp, false), ("kP", .pageDown, false), ("kR", .dpadUp, true),
   ("kUP", .dpadUp, true), ("@7", .moveEnd, false), ("@8", .numpadEnter, false)]

def getCodeFromTermcap (termcap : JavaString) (cursorKeysApplication keypadApplication : Bool) :
    Option JavaString :=
  match termcapToKeycode.find? fun entry => ascii entry.1 = termcap with
  | none => none
  | some (_, keyCode, shifted) =>
    getCode keyCode (if shifted then keymodShift else 0) cursorKeysApplication keypadApplication

end XoDos.KeyHandler
