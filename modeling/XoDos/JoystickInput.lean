import XoDos.ElementTouch
import XoDos.OverlayKeyboard
import XoDos.WinHandler

/-!
# Joysticks that press keys

`processJoystickInput` presses the binding of the direction in which an axis is, and releases the
bindings of both directions when it sees the axis in the dead zone.

An axis is a rational.  What is sent to the Wine helper is left out, and so is the timer that moves the
pointer.
-/

namespace XoDos

namespace Binding

def isMouse : Binding → Bool
  | .mouseLeftButton | .mouseMiddleButton | .mouseRightButton | .mouseMoveLeft | .mouseMoveRight
  | .mouseMoveUp | .mouseMoveDown | .mouseScrollUp | .mouseScrollDown => true
  | _ => false

/-- The name starts with `KEY_`, or it is `NONE`. -/
def isKeyboard (b : Binding) : Bool := !b.isMouse && !b.isGamepad

/-- The id of the `XKeycode` of that name.  `KEY_PG_UP` and `KEY_PG_DOWN` have other names there. -/
def keycode : Binding → OverlayKeyboard.Keycode
  | .keyUp => 111 | .keyRight => 114 | .keyDown => 116 | .keyLeft => 113 | .keyEnter => 36
  | .keyEsc => 9 | .keyBksp => 22 | .keyDel => 119 | .keyTab => 23 | .keySpace => 65
  | .keyCtrlL => 37 | .keyCtrlR => 105 | .keyShiftL => 50 | .keyShiftR => 62 | .keyAltL => 64
  | .keyAltR => 108 | .keyHome => 110 | .keyPrtscn => 107 | .keyPgUp => 112 | .keyPgDown => 117
  | .keyCapsLock => 66 | .keyNumLock => 77 | .key0 => 19 | .key1 => 10 | .key2 => 11
  | .key3 => 12 | .key4 => 13 | .key5 => 14 | .key6 => 15 | .key7 => 16 | .key8 => 17
  | .key9 => 18 | .keyA => 38 | .keyB => 56 | .keyC => 54 | .keyD => 40 | .keyE => 26
  | .keyF => 41 | .keyG => 42 | .keyH => 43 | .keyI => 31 | .keyJ => 44 | .keyK => 45
  | .keyL => 46 | .keyM => 58 | .keyN => 57 | .keyO => 32 | .keyP => 33 | .keyQ => 24
  | .keyR => 27 | .keyS => 39 | .keyT => 28 | .keyU => 30 | .keyV => 55 | .keyW => 25
  | .keyX => 53 | .keyY => 29 | .keyZ => 52 | .keyBracketLeft => 34 | .keyBracketRight => 35
  | .keyBackslash => 51 | .keySlash => 61 | .keySemicolon => 47 | .keyComma => 59
  | .keyPeriod => 60 | .keyApostrophe => 48 | .keyKpAdd => 86 | .keyMinus => 20 | .keyF1 => 67
  | .keyF2 => 68 | .keyF3 => 69 | .keyF4 => 70 | .keyF5 => 71 | .keyF6 => 72 | .keyF7 => 73
  | .keyF8 => 74 | .keyF9 => 75 | .keyF10 => 76 | .keyF11 => 95 | .keyF12 => 96 | .keyKp0 => 90
  | .keyKp1 => 87 | .keyKp2 => 88 | .keyKp3 => 89 | .keyKp4 => 83 | .keyKp5 => 84 | .keyKp6 => 85
  | .keyKp7 => 79 | .keyKp8 => 80 | .keyKp9 => 81
  | _ => 0

def getPointerButton : Binding → Option Pointer.Button
  | .mouseLeftButton => some .left
  | .mouseMiddleButton => some .middle
  | .mouseRightButton => some .right
  | .mouseScrollUp => some .scrollUp
  | .mouseScrollDown => some .scrollDown
  | _ => Option.none

theorem keycode_table : ∀ i < 131, ∀ j < i, (ofNat i).isKeyboard = true → (ofNat j).isKeyboard = true →
    (ofNat i).keycode ≠ (ofNat j).keycode := by
  decide +kernel

/-- Bindings of the keyboard have different keys. -/
theorem keycode_injective {b b' : Binding} (h : b.isKeyboard = true) (h' : b'.isKeyboard = true)
    (heq : b.keycode = b'.keycode) : b = b' := by
  have hofNat : ∀ b : Binding, ofNat b.ctorIdx = b ∧ b.ctorIdx < 131 := by
    intro b
    cases b <;> exact ⟨rfl, by decide⟩
  obtain ⟨hb, hlt⟩ := hofNat b
  obtain ⟨hb', hlt'⟩ := hofNat b'
  rcases Nat.lt_trichotomy b.ctorIdx b'.ctorIdx with hless | hsame | hless
  · have hne := keycode_table _ hlt' _ hless (by rwa [hb']) (by rwa [hb])
    rw [hb, hb'] at hne
    exact absurd heq.symm hne
  · rw [← hb, ← hb', hsame]
  · have hne := keycode_table _ hlt _ hless (by rwa [hb]) (by rwa [hb'])
    rw [hb, hb'] at hne
    exact absurd heq hne

end Binding

namespace GamepadState

/-- The buttons are a `short`. -/
def setPressed (g : GamepadState) (buttonIdx : Nat) (pressed : Bool) : GamepadState :=
  let flag : BitVec 16 := 1 <<< buttonIdx
  let buttons := BitVec.ofInt 16 g.buttons
  { g with buttons := if pressed then (buttons ||| flag).toInt else (buttons &&& ~~~flag).toInt }

def getDPadX (g : GamepadState) : ℚ := if g.dpad 1 then 1 else if g.dpad 3 then -1 else 0

def getDPadY (g : GamepadState) : ℚ := if g.dpad 0 then -1 else if g.dpad 2 then 1 else 0

/-- What a binding of the gamepad does. -/
def setBinding (g : GamepadState) (binding : Binding) (isActionDown : Bool) (offset : ℚ) :
    GamepadState :=
  let value := if isActionDown then offset else 0
  match binding with
  | .gamepadLeftThumbUp | .gamepadLeftThumbDown => { g with thumbLY := value }
  | .gamepadLeftThumbLeft | .gamepadLeftThumbRight => { g with thumbLX := value }
  | .gamepadRightThumbUp | .gamepadRightThumbDown => { g with thumbRY := value }
  | .gamepadRightThumbLeft | .gamepadRightThumbRight => { g with thumbRX := value }
  | .gamepadDpadUp => { g with dpad := Function.update g.dpad 0 isActionDown }
  | .gamepadDpadRight => { g with dpad := Function.update g.dpad 1 isActionDown }
  | .gamepadDpadDown => { g with dpad := Function.update g.dpad 2 isActionDown }
  | .gamepadDpadLeft => { g with dpad := Function.update g.dpad 3 isActionDown }
  | _ => g.setPressed (binding.ctorIdx - Binding.gamepadButtonA.ctorIdx) isActionDown

end GamepadState

/-- `ControlElement.STICK_DEAD_ZONE`, the `float` next to 0.15. -/
def stickDeadZone : ℚ := 5033165 / 33554432

structure ExternalControllerBinding where
  keyCode : Int
  binding : Binding

/-- The axes in the order of `processJoystickInput`. -/
inductive JoystickAxis where
  | x
  | y
  | z
  | rz
  | hatX
  | hatY
  deriving DecidableEq

namespace JoystickAxis

def all : List JoystickAxis := [x, y, z, rz, hatX, hatY]

theorem mem_all (a : JoystickAxis) : a ∈ all := by cases a <;> decide

def value (state : GamepadState) : JoystickAxis → ℚ
  | x => state.thumbLX
  | y => state.thumbLY
  | z => state.thumbRX
  | rz => state.thumbRY
  | hatX => state.getDPadX
  | hatY => state.getDPadY

/-- `getKeyCodeForAxis`, with the codes of the D-pad of `KeyEvent`. -/
def getKeyCodeForAxis (axis : JoystickAxis) (sign : ℚ) : Int :=
  match axis with
  | x => if 0 < sign then -2 else -1
  | y => if 0 < sign then -3 else -4
  | z => if 0 < sign then -6 else -5
  | rz => if 0 < sign then -7 else -8
  | hatX => if 0 < sign then 22 else 21
  | hatY => if 0 < sign then 20 else 19

end JoystickAxis

/-- What events for the on-screen controls change. -/
structure ControlsInput where
  keyboard : OverlayKeyboard
  pointer : Pointer
  mouseMoveOffset : ℚ × ℚ
  gamepadState : GamepadState

namespace ControlsInput

variable (s : ControlsInput) (bindings : List ExternalControllerBinding) (state : GamepadState)

/-- An offset of the pointer: 0 stands for a whole step. -/
def moveOffset (isActionDown : Bool) (offset step : ℚ) : ℚ :=
  if isActionDown then (if offset ≠ 0 then offset else step) else 0

def handleInputEvent (binding : Binding) (isActionDown : Bool) (offset : ℚ) : ControlsInput :=
  if binding.isGamepad then
    { s with gamepadState := s.gamepadState.setBinding binding isActionDown offset }
  else
    match binding with
    | .mouseMoveLeft =>
      { s with mouseMoveOffset := (moveOffset isActionDown offset (-1), s.mouseMoveOffset.2) }
    | .mouseMoveRight =>
      { s with mouseMoveOffset := (moveOffset isActionDown offset 1, s.mouseMoveOffset.2) }
    | .mouseMoveUp =>
      { s with mouseMoveOffset := (s.mouseMoveOffset.1, moveOffset isActionDown offset (-1)) }
    | .mouseMoveDown =>
      { s with mouseMoveOffset := (s.mouseMoveOffset.1, moveOffset isActionDown offset 1) }
    | binding =>
      match binding.getPointerButton with
      | some button => { s with pointer := (s.pointer.setButton button isActionDown).1 }
      | none =>
        { s with
          keyboard := if isActionDown then s.keyboard.setKeyPress binding.keycode 0
            else s.keyboard.setKeyRelease binding.keycode }

def getControllerBinding (keyCode : Int) : Option ExternalControllerBinding :=
  bindings.find? fun b => b.keyCode = keyCode

/-- The event for the binding of a direction, if there is one. -/
def handleDirection (axis : JoystickAxis) (sign : ℚ) (isActionDown : Bool) : ControlsInput :=
  match getControllerBinding bindings (axis.getKeyCodeForAxis sign) with
  | some controllerBinding =>
    s.handleInputEvent controllerBinding.binding isActionDown (axis.value state)
  | none => s

def processAxis (axis : JoystickAxis) : ControlsInput :=
  let value := axis.value state
  if stickDeadZone < |value| then s.handleDirection bindings state axis (Mathf.sign value) true
  else (s.handleDirection bindings state axis 1 false).handleDirection bindings state axis (-1) false

def processJoystickInput : ControlsInput :=
  JoystickAxis.all.foldl (fun s axis => s.processAxis bindings state axis) s

/-! ## Directions -/

/-- The axis is beyond the dead zone, on the positive side or on the negative one. -/
def Beyond (axis : JoystickAxis) (positive : Bool) : Prop :=
  if positive then stickDeadZone < axis.value state else axis.value state < -stickDeadZone

instance (axis : JoystickAxis) (positive : Bool) : Decidable (Beyond state axis positive) :=
  inferInstanceAs (Decidable (if positive then _ else _))

/-- The axis is in the dead zone. -/
def Centered (axis : JoystickAxis) : Prop := ∀ positive, ¬Beyond state axis positive

def directionSign (positive : Bool) : ℚ := if positive then 1 else -1

/-- The key of a direction. -/
def boundKey (axis : JoystickAxis) (positive : Bool) : OverlayKeyboard.Keycode :=
  match getControllerBinding bindings (axis.getKeyCodeForAxis (directionSign positive)) with
  | some controllerBinding => controllerBinding.binding.keycode
  | none => 0

/-- The directions of each axis have different bindings of the keyboard. -/
def KeyboardBound : Prop :=
  ∀ axis : JoystickAxis, ∃ positive negative,
    getControllerBinding bindings (axis.getKeyCodeForAxis 1) = some positive ∧
    getControllerBinding bindings (axis.getKeyCodeForAxis (-1)) = some negative ∧
    positive.binding.isKeyboard = true ∧ negative.binding.isKeyboard = true ∧
    positive.binding ≠ negative.binding

/-- Exactly the keys of the directions are held in which an axis is beyond the dead zone. -/
def DirectionsHeld : Prop :=
  ∀ axis positive, boundKey bindings axis positive ∈ s.keyboard.pressedKeys ↔
    Beyond state axis positive

/-- The axes that have a direction with the key. -/
def Bears (k : OverlayKeyboard.Keycode) (axis : JoystickAxis) : Prop :=
  ∃ positive, boundKey bindings axis positive = k

instance (k : OverlayKeyboard.Keycode) (axis : JoystickAxis) : Decidable (Bears bindings k axis) :=
  inferInstanceAs (Decidable (∃ _, _))

/-- How many of the axes have the key. -/
def bearers (k : OverlayKeyboard.Keycode) (axes : List JoystickAxis) : Nat :=
  axes.countP fun axis => Bears bindings k axis

/-- What a sample may do to the keys that are held: axes with the same key agree, no key is held of which
all axes are beyond the dead zone on the other side, and the key of a lock, which every press changes, is
on the right side before. -/
structure Steady : Prop where
  agree : ∀ axis positive axis' positive',
    boundKey bindings axis' positive' = boundKey bindings axis positive →
    (Beyond state axis' positive' ↔ Beyond state axis positive)
  released : ∀ axis positive, boundKey bindings axis positive ∈ s.keyboard.pressedKeys →
    OverlayKeyboard.isModifierSticky (boundKey bindings axis positive) = false →
    ¬Beyond state axis positive →
    ∃ axis', Bears bindings (boundKey bindings axis positive) axis' ∧ Centered state axis'
  lock : ∀ axis positive, OverlayKeyboard.isModifierSticky (boundKey bindings axis positive) = true →
    (Beyond state axis positive →
      (boundKey bindings axis positive ∈ s.keyboard.pressedKeys ↔
        Even (bearers bindings (boundKey bindings axis positive) JoystickAxis.all))) ∧
    (¬Beyond state axis positive → boundKey bindings axis positive ∉ s.keyboard.pressedKeys)

section Axis

variable {s : ControlsInput} {bindings : List ExternalControllerBinding} {state : GamepadState}
  {k : OverlayKeyboard.Keycode} {axis : JoystickAxis} {positive : Bool}

theorem stickDeadZone_pos : 0 < stickDeadZone := by
  rw [stickDeadZone]
  norm_num

theorem not_beyond_both (h : Beyond state axis positive) : ¬Beyond state axis !positive := by
  have hpos := stickDeadZone_pos
  unfold Beyond at *
  cases positive with
  | true =>
    simp only [if_true, Bool.not_true, Bool.false_eq_true, if_false] at *
    linarith
  | false =>
    simp only [if_true, Bool.not_false, Bool.false_eq_true, if_false] at *
    linarith

theorem handleInputEvent_keyboard {b : Binding} (hb : b.isKeyboard = true) (down : Bool) (offset : ℚ) :
    (s.handleInputEvent b down offset).keyboard =
      if down then s.keyboard.setKeyPress b.keycode 0 else s.keyboard.setKeyRelease b.keycode := by
  cases b <;> first | rfl | exact absurd hb (by decide)

theorem boundKey_eq (h : KeyboardBound bindings) (axis : JoystickAxis) (positive : Bool) :
    ∃ b, getControllerBinding bindings (axis.getKeyCodeForAxis (directionSign positive)) = some b ∧
      b.binding.isKeyboard = true ∧ boundKey bindings axis positive = b.binding.keycode := by
  obtain ⟨p, n, hp, hn, hkeyboard, hkeyboard', -⟩ := h axis
  cases positive with
  | true => exact ⟨p, hp, hkeyboard, by rw [boundKey, directionSign, if_pos rfl, hp]⟩
  | false => exact ⟨n, hn, hkeyboard', by rw [boundKey, directionSign, if_neg (by decide), hn]⟩

theorem boundKey_ne (h : KeyboardBound bindings) (axis : JoystickAxis) :
    boundKey bindings axis true ≠ boundKey bindings axis false := by
  obtain ⟨p, n, hp, hn, hkeyboard, hkeyboard', hne⟩ := h axis
  rw [boundKey, boundKey, directionSign, directionSign, if_pos rfl, if_neg (by decide), hp, hn]
  exact fun heq => hne (Binding.keycode_injective hkeyboard hkeyboard' heq)

theorem handleDirection_keyboard (h : KeyboardBound bindings) (down : Bool) :
    (s.handleDirection bindings state axis (directionSign positive) down).keyboard =
      if down then s.keyboard.setKeyPress (boundKey bindings axis positive) 0
      else s.keyboard.setKeyRelease (boundKey bindings axis positive) := by
  obtain ⟨b, hb, hkeyboard, hkey⟩ := boundKey_eq h axis positive
  rw [handleDirection, hb, hkey]
  exact handleInputEvent_keyboard hkeyboard down _

/-- A direction is pressed, or both are released. -/
theorem processAxis_keyboard (h : KeyboardBound bindings) :
    (s.processAxis bindings state axis).keyboard =
      if Beyond state axis true then s.keyboard.setKeyPress (boundKey bindings axis true) 0
      else if Beyond state axis false then s.keyboard.setKeyPress (boundKey bindings axis false) 0
      else (s.keyboard.setKeyRelease (boundKey bindings axis true)).setKeyRelease
        (boundKey bindings axis false) := by
  have hpos := stickDeadZone_pos
  have hbeyond : stickDeadZone < |axis.value state| ↔
      Beyond state axis true ∨ Beyond state axis false := by
    rw [lt_abs, lt_neg]
    rfl
  unfold processAxis
  dsimp only
  by_cases hright : Beyond state axis true
  · have hvalue : stickDeadZone < axis.value state := hright
    have hsign : Mathf.sign (axis.value state) = directionSign true := by
      rw [Mathf.sign, if_neg (by linarith), if_pos (by linarith)]
      rfl
    rw [if_pos (hbeyond.mpr (.inl hright)), if_pos hright, hsign]
    exact handleDirection_keyboard h true
  · rw [if_neg hright]
    by_cases hleft : Beyond state axis false
    · have hvalue : axis.value state < -stickDeadZone := hleft
      have hsign : Mathf.sign (axis.value state) = directionSign false := by
        rw [Mathf.sign, if_pos (by linarith)]
        rfl
      rw [if_pos (hbeyond.mpr (.inr hleft)), if_pos hleft, hsign]
      exact handleDirection_keyboard h true
    · rw [if_neg (by rw [hbeyond]; tauto), if_neg hleft]
      have hsecond := @handleDirection_keyboard (s.handleDirection bindings state axis 1 false) _ state
        axis false h false
      have hfirst := @handleDirection_keyboard s _ state axis true h false
      exact hsecond.trans (congrArg (OverlayKeyboard.setKeyRelease · _) hfirst)

end Axis

/-! ## One key -/

section Key

variable {s : ControlsInput} {bindings : List ExternalControllerBinding} {state : GamepadState}
  {k : OverlayKeyboard.Keycode} {axis : JoystickAxis} {positive : Bool}

theorem not_bears (hk : ¬Bears bindings k axis) (positive : Bool) : k ≠ boundKey bindings axis positive :=
  fun heq => hk ⟨positive, heq.symm⟩

/-- An axis without the key leaves it alone. -/
theorem mem_processAxis_other (h : KeyboardBound bindings) (hk : ¬Bears bindings k axis) :
    k ∈ (s.processAxis bindings state axis).keyboard.pressedKeys ↔ k ∈ s.keyboard.pressedKeys := by
  have htrue := not_bears hk true
  have hfalse := not_bears hk false
  rw [processAxis_keyboard h]
  split_ifs
  · rw [OverlayKeyboard.mem_setKeyPress, if_neg htrue]
  · rw [OverlayKeyboard.mem_setKeyPress, if_neg hfalse]
  · rw [OverlayKeyboard.mem_setKeyRelease, OverlayKeyboard.mem_setKeyRelease]
    tauto

/-- The direction of the key is pressed. -/
theorem mem_processAxis_beyond (h : KeyboardBound bindings)
    (hk : boundKey bindings axis positive = k) (hbeyond : Beyond state axis positive) :
    k ∈ (s.processAxis bindings state axis).keyboard.pressedKeys ↔
      (OverlayKeyboard.isModifierSticky k = true → k ∉ s.keyboard.pressedKeys) := by
  rw [processAxis_keyboard h]
  cases positive with
  | true => rw [if_pos hbeyond, OverlayKeyboard.mem_setKeyPress, if_pos hk.symm, hk]
  | false =>
    have hother : ¬Beyond state axis true := not_beyond_both hbeyond
    rw [if_neg hother, if_pos hbeyond, OverlayKeyboard.mem_setKeyPress, if_pos hk.symm, hk]

/-- The other direction is pressed, or the key is released. -/
theorem mem_processAxis_not_beyond (h : KeyboardBound bindings)
    (hk : boundKey bindings axis positive = k) (hbeyond : ¬Beyond state axis positive) :
    k ∈ (s.processAxis bindings state axis).keyboard.pressedKeys ↔
      k ∈ s.keyboard.pressedKeys ∧
        (Centered state axis → OverlayKeyboard.isModifierSticky k = true) := by
  have hne := boundKey_ne h axis
  rw [processAxis_keyboard h]
  cases positive with
  | true =>
    have hother : k ≠ boundKey bindings axis false := by
      rw [← hk]
      exact hne
    rw [if_neg hbeyond]
    -- Beyond the other side the key of this one is left alone; in the centre both are released.
    by_cases hleft : Beyond state axis false
    · have hcentered : ¬Centered state axis := fun hc => hc false hleft
      rw [if_pos hleft, OverlayKeyboard.mem_setKeyPress, if_neg hother]
      tauto
    · have hcentered : Centered state axis := by
        intro positive
        cases positive
        · exact hleft
        · exact hbeyond
      rw [if_neg hleft, OverlayKeyboard.mem_setKeyRelease, OverlayKeyboard.mem_setKeyRelease, hk]
      tauto
  | false =>
    have hother : k ≠ boundKey bindings axis true := by
      rw [← hk]
      exact hne.symm
    by_cases hright : Beyond state axis true
    · have hcentered : ¬Centered state axis := fun hc => hc true hright
      rw [if_pos hright, OverlayKeyboard.mem_setKeyPress, if_neg hother]
      tauto
    · have hcentered : Centered state axis := by
        intro positive
        cases positive
        · exact hbeyond
        · exact hright
      rw [if_neg hright, if_neg hbeyond, OverlayKeyboard.mem_setKeyRelease,
        OverlayKeyboard.mem_setKeyRelease, hk]
      tauto

/-- All axes with the key are beyond the dead zone on its side. -/
def AllBeyond (bindings : List ExternalControllerBinding) (state : GamepadState)
    (k : OverlayKeyboard.Keycode) (axes : List JoystickAxis) : Prop :=
  ∀ axis ∈ axes, ∀ positive, boundKey bindings axis positive = k → Beyond state axis positive

def NoneBeyond (bindings : List ExternalControllerBinding) (state : GamepadState)
    (k : OverlayKeyboard.Keycode) (axes : List JoystickAxis) : Prop :=
  ∀ axis ∈ axes, ∀ positive, boundKey bindings axis positive = k → ¬Beyond state axis positive

/-- Every axis with the key presses it. -/
theorem mem_foldl_beyond (h : KeyboardBound bindings) {axes : List JoystickAxis}
    (hall : AllBeyond bindings state k axes) :
    k ∈ (axes.foldl (fun s axis => s.processAxis bindings state axis) s).keyboard.pressedKeys ↔
      if OverlayKeyboard.isModifierSticky k = true then
        (k ∈ s.keyboard.pressedKeys ↔ Even (bearers bindings k axes))
      else k ∈ s.keyboard.pressedKeys ∨ ∃ axis ∈ axes, Bears bindings k axis := by
  induction axes generalizing s with
  | nil => split_ifs <;> simp [bearers]
  | cons axis axes ih =>
    rw [List.foldl_cons, ih fun a ha => hall a (List.mem_cons_of_mem axis ha)]
    simp only [List.mem_cons, exists_eq_or_imp]
    by_cases hk : Bears bindings k axis
    · obtain ⟨positive, hpositive⟩ := hk
      have hmem := mem_processAxis_beyond (s := s) h hpositive
        (hall axis List.mem_cons_self positive hpositive)
      have hbears : Bears bindings k axis := ⟨positive, hpositive⟩
      have hcount : bearers bindings k (axis :: axes) = bearers bindings k axes + 1 :=
        List.countP_cons_of_pos (decide_eq_true hbears)
      rw [hmem, hcount, Nat.even_add_one]
      split_ifs with hsticky <;> tauto
    · have hcount : bearers bindings k (axis :: axes) = bearers bindings k axes :=
        List.countP_cons_of_neg (by simpa using hk)
      rw [mem_processAxis_other h hk, hcount]
      split_ifs <;> tauto

/-- No axis presses the key, and one in the dead zone releases it. -/
theorem mem_foldl_not_beyond (h : KeyboardBound bindings) {axes : List JoystickAxis}
    (hall : NoneBeyond bindings state k axes) :
    k ∈ (axes.foldl (fun s axis => s.processAxis bindings state axis) s).keyboard.pressedKeys ↔
      k ∈ s.keyboard.pressedKeys ∧ (OverlayKeyboard.isModifierSticky k = true ∨
        ∀ axis ∈ axes, Bears bindings k axis → ¬Centered state axis) := by
  induction axes generalizing s with
  | nil => simp
  | cons axis axes ih =>
    rw [List.foldl_cons, ih fun a ha => hall a (List.mem_cons_of_mem axis ha)]
    simp only [List.forall_mem_cons]
    by_cases hk : Bears bindings k axis
    · obtain ⟨positive, hpositive⟩ := hk
      have hbears : Bears bindings k axis := ⟨positive, hpositive⟩
      rw [mem_processAxis_not_beyond h hpositive
        (hall axis List.mem_cons_self positive hpositive)]
      tauto
    · rw [mem_processAxis_other h hk]
      tauto

end Key

/-! ## Runs -/

section Runs

variable {s : ControlsInput} {bindings : List ExternalControllerBinding} {state : GamepadState}

/-- Axes with the same key agree on it. -/
def Agree (bindings : List ExternalControllerBinding) (state : GamepadState) : Prop :=
  ∀ axis positive axis' positive',
    boundKey bindings axis' positive' = boundKey bindings axis positive →
    (Beyond state axis' positive' ↔ Beyond state axis positive)

variable {axis : JoystickAxis} {positive : Bool}

theorem mem_process_beyond (h : KeyboardBound bindings) (hagree : Agree bindings state)
    (hbeyond : Beyond state axis positive) :
    boundKey bindings axis positive ∈
        (s.processJoystickInput bindings state).keyboard.pressedKeys ↔
      (OverlayKeyboard.isModifierSticky (boundKey bindings axis positive) = true →
        (boundKey bindings axis positive ∈ s.keyboard.pressedKeys ↔
          Even (bearers bindings (boundKey bindings axis positive) JoystickAxis.all))) := by
  have hall : AllBeyond bindings state (boundKey bindings axis positive) JoystickAxis.all :=
    fun axis' _ positive' hkey => (hagree axis positive axis' positive' hkey).mpr hbeyond
  have hself : ∃ axis' ∈ JoystickAxis.all, Bears bindings (boundKey bindings axis positive) axis' :=
    ⟨axis, axis.mem_all, positive, rfl⟩
  rw [processJoystickInput, mem_foldl_beyond h hall]
  split_ifs with hsticky
  · exact (imp_iff_right hsticky).symm
  · exact iff_of_true (.inr hself) fun hsticky' => absurd hsticky' hsticky

theorem mem_process_not_beyond (h : KeyboardBound bindings) (hagree : Agree bindings state)
    (hbeyond : ¬Beyond state axis positive) :
    boundKey bindings axis positive ∈
        (s.processJoystickInput bindings state).keyboard.pressedKeys ↔
      boundKey bindings axis positive ∈ s.keyboard.pressedKeys ∧
        (OverlayKeyboard.isModifierSticky (boundKey bindings axis positive) = true ∨
          ∀ axis', Bears bindings (boundKey bindings axis positive) axis' →
            ¬Centered state axis') := by
  have hall : NoneBeyond bindings state (boundKey bindings axis positive) JoystickAxis.all :=
    fun axis' _ positive' hkey => (hagree axis positive axis' positive' hkey).not.mpr hbeyond
  rw [processJoystickInput, mem_foldl_not_beyond h hall]
  simp only [JoystickAxis.mem_all, forall_true_left]

/-- After a sample the keys are right exactly if the sample met the condition. -/
theorem directionsHeld_iff (h : KeyboardBound bindings) :
    (s.processJoystickInput bindings state).DirectionsHeld bindings state ↔ s.Steady bindings state := by
  constructor
  · intro hheld
    have hagree : Agree bindings state := by
      intro axis positive axis' positive' hkey
      rw [← hheld axis' positive', hkey, hheld axis positive]
    constructor
    · exact hagree
    · intro axis positive hbefore hsticky hbeyond
      have hnot := (hheld axis positive).not.mpr hbeyond
      rw [mem_process_not_beyond h hagree hbeyond] at hnot
      by_contra hnone
      apply hnot
      exact ⟨hbefore, .inr fun axis' hbears hcentered => hnone ⟨axis', hbears, hcentered⟩⟩
    · intro axis positive hsticky
      constructor
      · intro hbeyond
        exact (mem_process_beyond h hagree hbeyond).mp ((hheld axis positive).mpr hbeyond) hsticky
      · intro hbeyond hbefore
        have hnot := (hheld axis positive).not.mpr hbeyond
        rw [mem_process_not_beyond h hagree hbeyond] at hnot
        exact hnot ⟨hbefore, .inl hsticky⟩
  · intro hsteady axis positive
    by_cases hbeyond : Beyond state axis positive
    · apply iff_of_true _ hbeyond
      rw [mem_process_beyond h hsteady.agree hbeyond]
      exact fun hsticky => (hsteady.lock axis positive hsticky).1 hbeyond
    · apply iff_of_false _ hbeyond
      rw [mem_process_not_beyond h hsteady.agree hbeyond]
      rintro ⟨hbefore, hfree⟩
      cases hsticky : OverlayKeyboard.isModifierSticky (boundKey bindings axis positive) with
      | true => exact (hsteady.lock axis positive hsticky).2 hbeyond hbefore
      | false =>
        obtain ⟨axis', hbears, hcentered⟩ := hsteady.released axis positive hbefore hsticky hbeyond
        exact (hfree.resolve_left (by simp [hsticky])) axis' hbears hcentered

/-- In a run the keys are right after every sample exactly if every sample meets the condition. -/
theorem directionsHeld_along_iff (bindings : List ExternalControllerBinding)
    (h : KeyboardBound bindings) (s : ControlsInput) (states : List GamepadState) :
    (∀ front state rest, states = front ++ state :: rest →
      (Run.after (fun s state => s.processJoystickInput bindings state) s
        (front ++ [state])).DirectionsHeld bindings state) ↔
    Run.Along (fun s state => s.processJoystickInput bindings state)
      (fun s state => s.Steady bindings state) s states := by
  induction states generalizing s with
  | nil =>
    apply iff_of_true _ trivial
    intro front state rest hsplit
    simp at hsplit
  | cons state states ih =>
    constructor
    · intro hall
      apply And.intro ((directionsHeld_iff h).mp (hall [] state states rfl))
      apply (ih _).mp
      intro front next rest hsplit
      exact hall (state :: front) next rest (by rw [hsplit, List.cons_append])
    · rintro ⟨hstep, hrest⟩ front next rest hsplit
      cases front with
      | nil =>
        cases hsplit
        exact (directionsHeld_iff h).mpr hstep
      | cons first front =>
        cases hsplit
        exact (ih _).mpr hrest front next rest rfl

end Runs

/-- Other keys for every direction. -/
def plainBindings : List ExternalControllerBinding :=
  [⟨-1, .keyA⟩, ⟨-2, .keyD⟩, ⟨-3, .keyS⟩, ⟨-4, .keyW⟩, ⟨-5, .keyJ⟩, ⟨-6, .keyL⟩, ⟨-7, .keyK⟩,
    ⟨-8, .keyI⟩, ⟨21, .keyLeft⟩, ⟨22, .keyRight⟩, ⟨20, .keyDown⟩, ⟨19, .keyUp⟩]

theorem plainBindings_bound : KeyboardBound plainBindings := by
  intro axis
  cases axis <;> exact ⟨_, _, rfl, rfl, rfl, rfl, by decide⟩

def plainInput : ControlsInput where
  keyboard := .new
  pointer := ⟨0, 0, 0, none, ⟨800, 600, 0, 0, 1, 1, 0, 0⟩⟩
  mouseMoveOffset := (0, 0)
  gamepadState := .new

def stickAt (x : ℚ) : GamepadState := { GamepadState.new with thumbLX := x }

theorem plainInput_steady (state : GamepadState) : plainInput.Steady plainBindings state := by
  constructor
  · intro axis positive axis' positive'
    cases axis <;> cases positive <;> cases axis' <;> cases positive' <;>
      first | exact fun _ => Iff.rfl | exact fun h => absurd h (by decide)
  · intro axis positive hheld
    exact absurd hheld (Finset.notMem_empty _)
  · intro axis positive hsticky
    cases axis <;> cases positive <;> exact absurd hsticky (by decide)

theorem directionsHeld_along_iff_right :
    (Run.after (fun s state => s.processJoystickInput plainBindings state) plainInput
      [stickAt 1]).DirectionsHeld plainBindings (stickAt 1) :=
  (directionsHeld_along_iff plainBindings plainBindings_bound plainInput [stickAt 1]).mpr
    ⟨plainInput_steady (stickAt 1), trivial⟩ [] (stickAt 1) [] rfl

/-- The stick goes from the right to the left at once. -/
theorem first_direction_stays :
    ¬(Run.after (fun s state => s.processJoystickInput plainBindings state) plainInput
      [stickAt 1, stickAt (-1)]).DirectionsHeld plainBindings (stickAt (-1)) := by
  intro h
  have hheld : boundKey plainBindings .x true ∈ (Run.after
      (fun s state => s.processJoystickInput plainBindings state) plainInput
      [stickAt 1, stickAt (-1)]).keyboard.pressedKeys := by
    decide +kernel
  exact absurd ((h .x true).mp hheld) (by decide +kernel)

end ControlsInput

end XoDos
