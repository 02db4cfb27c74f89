import Mathlib.Tactic

/-!
# The keyboard of the X server

The description of the master keyboard and how a keysym is looked up in it.  A state
has the modifiers in its low byte and the group in the bits 13 and 14.

The functions of the X server that the lookup calls, and what the server does with
the queued events, are those of `XServer`.
-/

namespace XoDos.Xkb

abbrev KeySym := BitVec 32

abbrev KeyCode := BitVec 8

abbrev ModState := BitVec 32

def noSymbol : KeySym := 0

def shiftMask : ModState := 1

def lockMask : ModState := 2

/-- An entry of the map of a key type.  `preserve` is 0 when the type has no such list. -/
structure KTMapEntry where
  active : Bool
  level : Nat
  mask : BitVec 8
  preserve : BitVec 8

structure KeyType where
  mask : BitVec 8
  map : List KTMapEntry

inductive ActionType where
  | setMods
  | lockMods
  | other
deriving DecidableEq, Repr

structure Action where
  type : ActionType
  useModMapMods : Bool
  mask : BitVec 8

/-- What the description says about one keycode: the types by group, the symbols and the actions
by column. -/
structure Key where
  groupInfo : BitVec 8
  width : Nat
  types : BitVec 2 → KeyType
  syms : Nat → KeySym
  acts : Option (Nat → Action)
  modmap : BitVec 8
  name : List Char

structure XkbDesc where
  minKeyCode : KeyCode
  maxKeyCode : KeyCode
  hasNames : Bool
  key : KeyCode → Key

/-- The master of `lorieKeyboard`.  A key is down when its press has been processed. -/
structure Master where
  xkb : XkbDesc
  state : ModState
  isDown : KeyCode → Bool

/-! ## Queued events -/

inductive KeyEventType where
  | keyPress
  | keyRelease
deriving DecidableEq, Repr

/-- What an event is queued for. -/
inductive Role where
  | keycode
  | tempShift
  | tempLevelThreeShift
deriving DecidableEq, Repr

/-- A call of `QueueKeyboardEvents` for `lorieKeyboard`. -/
structure KeyEvent where
  type : KeyEventType
  code : KeyCode
  role : Role
deriving DecidableEq, Repr

/-- The functions of the X server. -/
class XServer where
  /-- The lower and the upper case of a keysym. -/
  convertCase : KeySym → KeySym × KeySym
  /-- `XkbChangeTypesOfKey` for one group of the alphabetic type. -/
  changeTypesOfKey : XkbDesc → KeyCode → XkbDesc
  /-- `mieqProcessInputEvents` -/
  processInputEvents : Master → List KeyEvent → Master

/-! ## Groups and levels -/

namespace Key

def numGroups (key : Key) : Nat := (key.groupInfo &&& 0x0f).toNat

def effectiveGroup (key : Key) (mods : ModState) : Nat :=
  let group := ((mods >>> 13) &&& 3).toNat
  if group < key.numGroups then group
  else if key.groupInfo &&& 0xc0 = 0x40 then key.numGroups - 1
  else if key.groupInfo &&& 0xc0 = 0x80 then
    let redirected := ((key.groupInfo &&& 0x30) >>> 4).toNat
    if redirected < key.numGroups then redirected else 0
  else group % key.numGroups

def keyType (key : Key) (group : Nat) : KeyType := key.types (BitVec.ofNat 2 group)

end Key

/-- The entry of the map that the modifiers select. -/
def KeyType.entry (type : KeyType) (mods : ModState) : Option KTMapEntry :=
  type.map.find? fun entry =>
    entry.active && mods &&& type.mask.setWidth 32 == entry.mask.setWidth 32

def Key.column (key : Key) (mods : ModState) : Nat :=
  let group := key.effectiveGroup mods
  group * key.width + (((key.keyType group).entry mods).elim 0 KTMapEntry.level)

namespace XkbDesc

def inRange (xkb : XkbDesc) (code : KeyCode) : Bool := xkb.minKeyCode ≤ code && code ≤ xkb.maxKeyCode

/-- The keycodes in the order of the loops. -/
def keycodes (xkb : XkbDesc) : List KeyCode :=
  (List.range' xkb.minKeyCode.toNat (xkb.maxKeyCode.toNat + 1 - xkb.minKeyCode.toNat)).map
    (BitVec.ofNat 8)

/-- The modifiers that may be consumed and the keysym. -/
def translateKeyCode (xkb : XkbDesc) (code : KeyCode) (mods : ModState) : ModState × KeySym :=
  let key := xkb.key code
  if ¬xkb.inRange code ∨ key.numGroups = 0 then (0, noSymbol)
  else
    let type := key.keyType (key.effectiveGroup mods)
    let preserve := (type.entry mods).elim 0 KTMapEntry.preserve
    (type.mask.setWidth 32 &&& ~~~preserve.setWidth 32, key.syms (key.column mods))

def keyActionPtr (xkb : XkbDesc) (code : KeyCode) (mods : ModState) : Option Action :=
  let key := xkb.key code
  match key.acts with
  | none => none
  | some acts =>
    if ¬xkb.inRange code ∨ key.numGroups = 0 then none else some (acts (key.column mods))

def keyEffectiveGroup (xkb : XkbDesc) (code : KeyCode) (mods : ModState) : Nat :=
  let key := xkb.key code
  if ¬xkb.inRange code ∨ key.numGroups = 0 then 0 else key.effectiveGroup mods

/-- The modifiers that the key sets when its action has the type. -/
def modifiersOf (xkb : XkbDesc) (type : ActionType) (code : KeyCode) (mods : ModState) :
    Option (BitVec 8) :=
  match xkb.keyActionPtr code mods with
  | none => none
  | some act =>
    if act.type ≠ type then none
    else some (if act.useModMapMods then (xkb.key code).modmap else act.mask)

end XkbDesc

/-! ## From a keysym to a keycode -/

def xkISOLevel3Shift : KeySym := 0xfe03

def xkModeSwitch : KeySym := 0xff7e

def xkNumLock : KeySym := 0xff7f

def xkTab : KeySym := 0xff09

def fakeKeys : List KeyCode := [92, 203, 204, 205, 206, 207]

/-- Keysyms which have the same meaning. -/
def altKeysym : List (KeySym × KeySym) :=
  [(0xffe1, 0xffe2), (0xffe3, 0xffe4), (0xffe7, 0xffe8), (0xffe9, 0xffea), (0xffeb, 0xffec),
    (0xffed, 0xffee), (0xff80, 0x0020), (0xff89, 0xff09), (0xff8d, 0xff0d), (0xff91, 0xffbe),
    (0xff92, 0xffbf), (0xff93, 0xffc0), (0xff94, 0xffc1), (0xff95, 0xff50), (0xff96, 0xff51),
    (0xff97, 0xff52), (0xff98, 0xff53), (0xff99, 0xff54), (0xff9a, 0xff55), (0xff9b, 0xff56),
    (0xff9c, 0xff57), (0xff9d, 0xff58), (0xff9e, 0xff63), (0xff9f, 0xffff), (0xffbd, 0x003d),
    (0xffaa, 0x002a), (0xffab, 0x002b), (0xffac, 0x002c), (0xffad, 0x002d), (0xffae, 0x002e),
    (0xffaf, 0x002f), (0xffb0, 0x0030), (0xffb1, 0x0031), (0xffb2, 0x0032), (0xffb3, 0x0033),
    (0xffb4, 0x0034), (0xffb5, 0x0035), (0xffb6, 0x0036), (0xffb7, 0x0037), (0xffb8, 0x0038),
    (0xffb9, 0x0039), (0xfe03, 0xff7e)]

/-- The alternatives in the order of the table. -/
def altKeysyms (keysym : KeySym) : List KeySym :=
  altKeysym.filterMap fun (a, b) =>
    if a = keysym then some b else if b = keysym then some a else none

section
variable [XServer]

/-- Whether the key gives the keysym in the state.  Caps Lock that the type does not consume
gives the upper case. -/
def XkbDesc.gives (xkb : XkbDesc) (keysym : KeySym) (state : ModState) (code : KeyCode) : Bool :=
  let (consumed, ks) := xkb.translateKeyCode code state
  if ks = noSymbol then false
  else if state &&& ~~~consumed &&& lockMask ≠ 0 then (XServer.convertCase ks).2 = keysym
  else ks = keysym

/-- The loop of `lorieKeysymToKeycode`.  Fake keys are used last. -/
def XkbDesc.scan (xkb : XkbDesc) (keysym : KeySym) (state : ModState) :
    KeyCode → List KeyCode → KeyCode
  | fallback, [] => fallback
  | fallback, code :: rest =>
    if ¬xkb.gives keysym state code then xkb.scan keysym state fallback rest
    else if code ∈ fakeKeys then
      xkb.scan keysym state (if fallback = 0 then code else fallback) rest
    else code

/-- `lorieKeysymToKeycode` without `new_state` -/
def XkbDesc.keycodeIn (xkb : XkbDesc) (keysym : KeySym) (state : ModState) : KeyCode :=
  xkb.scan keysym state 0 xkb.keycodes

namespace Master

/-- The key for ISO_Level3_Shift, or else for Mode_switch. -/
def levelThreeKeycode (m : Master) (state : ModState) : KeyCode :=
  let code := m.xkb.keycodeIn xkISOLevel3Shift state
  if code = 0 then m.xkb.keycodeIn xkModeSwitch state else code

def getLevelThreeMask (m : Master) : ModState :=
  let state := m.state &&& ~~~0xff
  let code := m.levelThreeKeycode state
  if code = 0 then 0
  else ((m.xkb.modifiersOf .setMods code state).getD 0).setWidth 32

/-- 0 when there is no such key or the modifier is set. -/
def pressShift (m : Master) : KeyCode :=
  if m.state &&& shiftMask ≠ 0 then 0
  else
    (m.xkb.keycodes.find? fun code =>
      ((m.xkb.modifiersOf .setMods code m.state).getD 0).setWidth 32 &&& shiftMask == shiftMask).getD 0

/-- The keys that are down and set one of the modifiers; none when they are too many. -/
def heldModifiers (m : Master) (mask : ModState) (maxKeys : Nat) : List KeyCode :=
  let keys := m.xkb.keycodes.filter fun code =>
    m.isDown code && ((m.xkb.modifiersOf .setMods code m.state).getD 0).setWidth 32 &&& mask != 0
  if maxKeys < keys.length then [] else keys

def releaseShift (m : Master) (maxKeys : Nat) : List KeyCode :=
  if m.state &&& shiftMask = 0 then [] else m.heldModifiers shiftMask maxKeys

def pressLevelThree (m : Master) : KeyCode :=
  let mask := m.getLevelThreeMask
  if mask = 0 ∨ m.state &&& mask ≠ 0 then 0
  else
    let code := m.levelThreeKeycode m.state
    if code = 0 ∨ m.xkb.modifiersOf .setMods code m.state = none then 0 else code

def releaseLevelThree (m : Master) (maxKeys : Nat) : List KeyCode :=
  let mask := m.getLevelThreeMask
  if mask = 0 ∨ m.state &&& mask = 0 then [] else m.heldModifiers mask maxKeys

/-- `state` with the modifiers of the mask the other way round: all of them set when none is. -/
def toggled (state mask : ModState) : ModState :=
  (state &&& ~~~mask) ||| (if state &&& mask ≠ 0 then 0 else mask)

/-- `lorieKeysymToKeycode` with the state that the keysym needs.  It tries the state itself, then
Shift, level three and both the other way round. -/
def keysymToKeycode (m : Master) (keysym : KeySym) (state : ModState) :
    Option (KeyCode × ModState) :=
  let levelThreeMask := m.getLevelThreeMask
  let states :=
    [state, toggled state shiftMask] ++
      (if levelThreeMask = 0 then []
      else
        [toggled state levelThreeMask,
          (state &&& ~~~(shiftMask ||| levelThreeMask)) |||
            (if state &&& shiftMask ≠ 0 then 0 else shiftMask) |||
            (if state &&& levelThreeMask ≠ 0 then 0 else levelThreeMask)])
  states.findSome? fun newState =>
    let code := m.xkb.keycodeIn keysym newState
    if code = 0 then none else some (code, newState)

/-- The modifier map is read at the key itself, not at Num_Lock. -/
def isAffectedByNumLock (m : Master) (code : KeyCode) : Bool :=
  let state := m.state &&& ~~~0xff
  let numlock := m.xkb.keycodeIn xkNumLock state
  if numlock = 0 then false
  else
    match m.xkb.keyActionPtr numlock state with
    | none => false
    | some act =>
      if act.type ≠ .lockMods then false
      else
        let mask := if act.useModMapMods then (m.xkb.key code).modmap else act.mask
        let type := (m.xkb.key code).keyType (m.xkb.keyEffectiveGroup code state)
        type.mask &&& mask != 0

end Master

end

end XoDos.Xkb
