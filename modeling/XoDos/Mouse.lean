import XoDos.Run
import XoDos.Stylus

/-!
# The pointer of the overlay

`Pointer` remembers which buttons are held and tells `InputDeviceManager`, which
sends mouse events to the X server.  A mouse event is a motion or a button,
whichever its `detail` says.  Coordinates are rationals.

`InputDeviceManager` is the only listener of the pointer.
-/

namespace XoDos

/-- The member `mouse` of `lorieEvent`. -/
structure MouseEvent where
  x : ℚ
  y : ℚ
  detail : BitVec 8
  down : BitVec 8
  relative : BitVec 8
deriving DecidableEq

/-! ## The server -/

/-- The flags of `QueuePointerEvents` for the mouse. -/
inductive MouseFlag where
  | relative
  | accelerate
  | absolute
  | screen
  | noraw
deriving DecidableEq, Repr

/-- The valuators that are set, with their axes. -/
abbrev ValuatorMask := List (Nat × ℚ)

/-- `valuator_mask_set_double` -/
def ValuatorMask.set (mask : ValuatorMask) (axis : Nat) (value : ℚ) : ValuatorMask :=
  mask.filter (fun v => v.1 ≠ axis) ++ [(axis, value)]

/-- A call of `QueuePointerEvents` for `lorieMouse`. -/
inductive MouseCall where
  | motionNotify (flags : List MouseFlag) (mask : ValuatorMask)
  | button (type : ButtonType) (button : Nat)
deriving DecidableEq

namespace MouseEvent

/-- The size of the screen of the server. -/
structure Screen where
  width : Int
  height : Int

/-- `max(0, min(c, size))` -/
def clamp (c : ℚ) (size : Int) : ℚ := max 0 (min c size)

/-- BUTTON_SCROLL: one motion for each axis that is not 0. -/
def scrollCalls (e : MouseEvent) (mask : ValuatorMask) : ValuatorMask × List MouseCall :=
  let horizontal := ValuatorMask.set [] 2 (e.x / 120)
  let vertical := ValuatorMask.set [] 3 (e.y / 120)
  (if e.y ≠ 0 then vertical else if e.x ≠ 0 then horizontal else mask,
    (if e.x ≠ 0 then [.motionNotify [.relative] horizontal] else []) ++
      (if e.y ≠ 0 then [.motionNotify [.relative] vertical] else []))

/-- The case `EVENT_MOUSE` of `handleLorieEvents`.  The mask is that of the events that were read
before in the same call. -/
def handle (screen : Screen) (mask : ValuatorMask) (e : MouseEvent) : ValuatorMask × List MouseCall :=
  if e.detail = 0 then
    let flags : List MouseFlag :=
      if e.relative ≠ 0 then [.relative, .accelerate] else [.absolute, .screen, .noraw]
    let x := if e.relative = 0 then clamp e.x screen.width else e.x
    let y := if e.relative = 0 then clamp e.y screen.height else e.y
    let mask := (mask.set 0 x).set 1 y
    (mask, [.motionNotify flags mask])
  else if e.detail = 1 ∨ e.detail = 2 ∨ e.detail = 3 then
    (mask, [.button (if e.down ≠ 0 then .buttonPress else .buttonRelease) e.detail.toNat])
  else if e.detail = 4 then e.scrollCalls mask
  else (mask, [])

end MouseEvent

/-- Which buttons are down after the calls. -/
def pressedAfter (held : Nat → Bool) (calls : List MouseCall) : Nat → Bool :=
  calls.foldl (fun held call =>
    match call with
    | .motionNotify .. => held
    | .button type button => fun b => if b = button then type == .buttonPress else held b) held

/-! ## The overlay -/

namespace Pointer

inductive Button where
  | left
  | middle
  | right
  | scrollUp
  | scrollDown
  | scrollClickLeft
  | scrollClickRight
deriving DecidableEq, Repr

/-- `(byte) (ordinal() + 1)` -/
def Button.code : Button → Nat
  | left => 1
  | middle => 2
  | right => 3
  | scrollUp => 4
  | scrollDown => 5
  | scrollClickLeft => 6
  | scrollClickRight => 7

def maxButtons : Nat := 8

def Button.flag (button : Button) : BitVec 32 := 1 <<< (button.code + maxButtons)

end Pointer

/-- The screen as the view shows it, with the last cursor position. -/
structure ScreenInfo where
  imageWidth : Int
  imageHeight : Int
  offsetX : Int
  offsetY : Int
  scaleX : ℚ
  scaleY : ℚ
  cursorX : ℚ
  cursorY : ℚ

/-- Returns whether the cursor moved. -/
def ScreenInfo.setCursorPosition (info : ScreenInfo) (newX newY : Int) : ScreenInfo × Bool :=
  let x : ℚ := newX - info.offsetX
  let y : ℚ := newY - info.offsetY
  ({ info with cursorX := x, cursorY := y }, decide (x ≠ info.cursorX) || decide (y ≠ info.cursorY))

/-- `(int) q` -/
def truncate (q : ℚ) : Int := q.num.tdiv q.den

/-- The pointer, with the screen that it moves on. -/
structure Pointer where
  buttonMask : BitVec 32
  x : Int
  y : Int
  pointerButton : Option Pointer.Button
  screenInfo : ScreenInfo

namespace Pointer

def isButtonPressed (p : Pointer) (button : Button) : Bool := button.flag &&& p.buttonMask ≠ 0

def setX (p : Pointer) (x : Int) : Pointer :=
  if x < p.screenInfo.offsetX ∨ p.screenInfo.imageWidth + p.screenInfo.offsetX < x then p
  else { p with x := x }

def setY (p : Pointer) (y : Int) : Pointer :=
  if y < p.screenInfo.offsetY ∨ p.screenInfo.imageHeight + p.screenInfo.offsetY < y then p
  else { p with y := y }

/-! ### `InputDeviceManager` -/

/-- `sendMouseEvent`, on a connection that is open. -/
def sendMouseEvent (x y : ℚ) (whichButton : Nat) (buttonDown relative : Bool) : MouseEvent :=
  { x := x
    y := y
    detail := BitVec.ofNat 8 whichButton
    down := if buttonDown then 1 else 0
    relative := if relative then 1 else 0 }

def mouseWheelDelta : ℚ := 120

def onPointerButtonPress (button : Button) : MouseEvent :=
  if button = .scrollUp then sendMouseEvent 0 mouseWheelDelta 4 false true
  else if button = .scrollDown then sendMouseEvent 0 (-mouseWheelDelta) 4 false true
  else sendMouseEvent 0 0 button.code true true

def onPointerButtonRelease (button : Button) : MouseEvent :=
  sendMouseEvent 0 0 button.code false true

def onPointerMove (p : Pointer) (x y : Int) : MouseEvent :=
  match p.pointerButton with
  | some button => sendMouseEvent x y button.code false false
  | none => sendMouseEvent x y 0 false false

def onPointMoveDelta (dx dy : Int) : MouseEvent := sendMouseEvent dx dy 0 false true

/-! ### Calls -/

/-- Whether `moveTo` is accepted. -/
def moves (p : Pointer) (x y : Int) : Bool := (p.screenInfo.setCursorPosition x y).2

def moveTo (p : Pointer) (x y : Int) : Pointer × List MouseEvent :=
  let (info, cursorMoved) := p.screenInfo.setCursorPosition x y
  let p := { p with screenInfo := info }
  if cursorMoved then
    let p := (p.setX x).setY y
    (p, [p.onPointerMove (truncate ((p.x - info.offsetX) * info.scaleX))
      (truncate ((p.y - info.offsetY) * info.scaleY))])
  else (p, [])

def setButton (p : Pointer) (button : Button) (pressed : Bool) : Pointer × List MouseEvent :=
  let oldPressed := p.isButtonPressed button
  let mask := if pressed then p.buttonMask ||| button.flag else p.buttonMask &&& ~~~button.flag
  let p := { p with buttonMask := mask }
  if oldPressed ≠ pressed then
    if pressed then ({ p with pointerButton := some button }, [onPointerButtonPress button])
    else ({ p with pointerButton := none }, [onPointerButtonRelease button])
  else (p, [])

inductive Call where
  | setButton (button : Button) (pressed : Bool)
  | moveTo (x y : Int)
  | moveDelta (dx dy : Int)

def call (p : Pointer) : Call → Pointer × List MouseEvent
  | .setButton button pressed => p.setButton button pressed
  | .moveTo x y => p.moveTo x y
  | .moveDelta dx dy => (p, [onPointMoveDelta dx dy])

end Pointer

/-! ## Both sides together -/

/-- The pointer of the overlay, and what its events have done at the server. -/
structure Overlay where
  pointer : Pointer
  mask : ValuatorMask
  held : Nat → Bool
  /-- What the last call made the server queue. -/
  queued : List MouseCall

namespace Overlay

/-- A call, with the screen of the server at that time.  The event of the call may be the first
that `handleLorieEvents` reads. -/
structure Input where
  call : Pointer.Call
  screen : MouseEvent.Screen
  first : Bool

/-- The server handles events. -/
def serve (screen : MouseEvent.Screen) :
    ValuatorMask → List MouseEvent → ValuatorMask × List MouseCall
  | mask, [] => (mask, [])
  | mask, e :: events =>
    let (mask, calls) := e.handle screen mask
    let (mask, more) := serve screen mask events
    (mask, calls ++ more)

def step (s : Overlay) (i : Input) : Overlay :=
  let (pointer, events) := s.pointer.call i.call
  let (mask, queued) := serve i.screen (if i.first then [] else s.mask) events
  { pointer := pointer
    mask := mask
    held := pressedAfter s.held queued
    queued := queued }

/-- No button is held. -/
structure Fresh (s : Overlay) : Prop where
  buttonMask : s.pointer.buttonMask = 0
  pointerButton : s.pointer.pointerButton = none
  held : ∀ b, s.held b = false

/-- The server holds the buttons that the pointer holds. -/
def Agrees (s : Overlay) : Prop :=
  ∀ button : Pointer.Button, button.code ≤ 3 →
    s.held button.code = s.pointer.isButtonPressed button

/-- A call for one of the first three buttons, or a move. -/
def Input.ForMouse (i : Input) : Prop :=
  ∀ button pressed, i.call = .setButton button pressed → button.code ≤ 3

/-- The pointer is not moved while it remembers a button. -/
def Free (s : Overlay) (i : Input) : Prop :=
  ∀ x y, i.call = .moveTo x y → s.pointer.moves x y = true → s.pointer.pointerButton = none

end Overlay

/-! ### One call -/

namespace Pointer

variable {p : Pointer} {b b' : Button} {pressed : Bool}

theorem flag_eq (b : Button) : b.flag = BitVec.twoPow 32 (b.code + maxButtons) := by
  rw [BitVec.twoPow_eq]
  rfl

theorem code_lt (b : Button) : b.code + maxButtons < 32 := by
  cases b <;> decide

theorem code_inj : b.code = b'.code ↔ b = b' := by
  cases b <;> cases b' <;> decide

theorem isButtonPressed_eq : p.isButtonPressed b = p.buttonMask.getLsbD (b.code + maxButtons) := by
  have hlt := code_lt b
  unfold isButtonPressed
  rw [flag_eq, BitVec.twoPow_and]
  cases h : p.buttonMask.getLsbD (b.code + maxButtons) with
  | false => simp
  | true =>
    have hne : BitVec.twoPow 32 (b.code + maxButtons) ≠ 0#32 := by
      intro h0
      have hbit := congrArg (fun v => BitVec.getLsbD v (b.code + maxButtons)) h0
      simp [hlt] at hbit
    simpa using hne

theorem setButton_buttonMask :
    (p.setButton b pressed).1.buttonMask =
      if pressed then p.buttonMask ||| b.flag else p.buttonMask &&& ~~~b.flag := by
  unfold setButton
  dsimp only
  split_ifs <;> rfl

theorem setButton_pressed :
    (p.setButton b pressed).1.isButtonPressed b' =
      if b' = b then pressed else p.isButtonPressed b' := by
  have hlt := code_lt b'
  simp only [isButtonPressed_eq, setButton_buttonMask, flag_eq]
  by_cases hb : b' = b
  · subst hb
    cases pressed <;> simp [hlt]
  · have hcode : ¬b'.code = b.code := fun h => hb (code_inj.mp h)
    cases pressed <;> simp [hb, hcode, hlt]

theorem setButton_events :
    (p.setButton b pressed).2 =
      if p.isButtonPressed b = pressed then []
      else if pressed then [onPointerButtonPress b] else [onPointerButtonRelease b] := by
  unfold setButton
  by_cases h : p.isButtonPressed b = pressed
  · simp [h]
  · cases pressed <;> simp [h]

@[simp] theorem setX_pointerButton (x : Int) : (p.setX x).pointerButton = p.pointerButton := by
  unfold setX
  split_ifs <;> rfl

@[simp] theorem setY_pointerButton (y : Int) : (p.setY y).pointerButton = p.pointerButton := by
  unfold setY
  split_ifs <;> rfl

@[simp] theorem setX_buttonMask (x : Int) : (p.setX x).buttonMask = p.buttonMask := by
  unfold setX
  split_ifs <;> rfl

@[simp] theorem setY_buttonMask (y : Int) : (p.setY y).buttonMask = p.buttonMask := by
  unfold setY
  split_ifs <;> rfl

theorem moveTo_buttonMask (x y : Int) : (p.moveTo x y).1.buttonMask = p.buttonMask := by
  unfold moveTo
  dsimp only
  split_ifs <;> simp

/-- A move that is accepted sends one event, at a place that only matters to the motion. -/
theorem moveTo_events {x y : Int} (h : p.moves x y = true) :
    ∃ x' y' : Int, (p.moveTo x y).2 = [p.onPointerMove x' y'] := by
  unfold moves at h
  unfold moveTo
  dsimp only
  rw [if_pos h]
  simp only [onPointerMove, setX_pointerButton, setY_pointerButton]
  exact ⟨_, _, rfl⟩

theorem moveTo_rejected {x y : Int} (h : p.moves x y = false) : (p.moveTo x y).2 = [] := by
  unfold moves at h
  unfold moveTo
  dsimp only
  rw [if_neg (by simp [h])]

end Pointer

namespace Overlay

open Pointer

variable {s : Overlay} {i : Input} {screen : MouseEvent.Screen} {mask : ValuatorMask}

theorem serve_single (e : MouseEvent) : serve screen mask [e] = e.handle screen mask := by
  simp [serve]

theorem handle_button {b : Button} (hb : b.code ≤ 3) (down : Bool) :
    (sendMouseEvent 0 0 b.code down true).handle screen mask =
      (mask, [.button (if down then .buttonPress else .buttonRelease) b.code]) := by
  cases b <;> cases down <;> first | rfl | exact absurd hb (by decide)

theorem step_held (s : Overlay) (i : Input) :
    (s.step i).held = pressedAfter s.held (s.step i).queued := rfl

theorem step_pointer (s : Overlay) (i : Input) :
    (s.step i).pointer = (s.pointer.call i.call).1 := rfl

theorem step_queued (s : Overlay) (i : Input) :
    (s.step i).queued =
      (serve i.screen (if i.first then [] else s.mask) (s.pointer.call i.call).2).2 := rfl

theorem agrees_of_quiet (hs : s.Agrees) (hheld : (s.step i).held = s.held)
    (hmask : (s.step i).pointer.buttonMask = s.pointer.buttonMask) : (s.step i).Agrees := by
  intro button hbutton
  rw [hheld, isButtonPressed_eq, hmask, ← isButtonPressed_eq]
  exact hs button hbutton

theorem step_setButton {b : Button} {pressed : Bool} (hs : s.Agrees) (hb : b.code ≤ 3)
    (hi : i.call = .setButton b pressed) : (s.step i).Agrees := by
  intro button hbutton
  have hheld : (s.step i).held button.code =
      if button = b then pressed else s.held button.code := by
    rw [step_held, step_queued, hi]
    simp only [call, setButton_events]
    by_cases hp : s.pointer.isButtonPressed b = pressed
    · have hquiet : ∀ mask, pressedAfter s.held (serve i.screen mask []).2 = s.held := fun _ => rfl
      rw [if_pos hp, hquiet]
      split_ifs with h
      · rw [h]
        exact (hs b hb).trans hp
      · rfl
    · have hsent : (if pressed = true then [onPointerButtonPress b]
          else [onPointerButtonRelease b]) = [sendMouseEvent 0 0 b.code pressed true] := by
        cases pressed
        · rfl
        · cases b <;> first | rfl | exact absurd hb (by decide)
      rw [if_neg hp, hsent, serve_single, handle_button hb]
      simp only [pressedAfter, List.foldl_cons, List.foldl_nil, code_inj]
      cases pressed <;> rfl
  rw [hheld, step_pointer, hi, call, setButton_pressed]
  split_ifs with h
  · rfl
  · exact hs button hbutton

/-- A move that is accepted while no button is remembered is a motion at the server. -/
theorem step_moveTo_queued {x y : Int} (hi : i.call = .moveTo x y)
    (hmoves : s.pointer.moves x y = true) (hnone : s.pointer.pointerButton = none) :
    ∃ flags mask, (s.step i).queued = [.motionNotify flags mask] := by
  obtain ⟨x', y', hsent⟩ := moveTo_events hmoves
  rw [step_queued, hi, call, hsent, serve_single, onPointerMove, hnone]
  exact ⟨_, _, rfl⟩

theorem step_moveTo {x y : Int} (hs : s.Agrees) (hi : i.call = .moveTo x y) (hfree : s.Free i) :
    (s.step i).Agrees := by
  apply agrees_of_quiet hs
  · rw [step_held]
    cases hmoves : s.pointer.moves x y with
    | false =>
      rw [step_queued, hi, call, moveTo_rejected hmoves]
      rfl
    | true =>
      obtain ⟨flags, mask, hq⟩ := step_moveTo_queued hi hmoves (hfree x y hi hmoves)
      rw [hq]
      rfl
  · rw [step_pointer, hi, call, moveTo_buttonMask]

theorem step_moveDelta {dx dy : Int} (hs : s.Agrees) (hi : i.call = .moveDelta dx dy) :
    (s.step i).Agrees := by
  apply agrees_of_quiet hs
  · rw [step_held, step_queued, hi, call, serve_single]
    rfl
  · rw [step_pointer, hi, call]

/-- The buttons stay in step over a call. -/
theorem step_agrees (hs : s.Agrees) (hi : i.ForMouse ∧ s.Free i) : (s.step i).Agrees := by
  cases hcall : i.call with
  | setButton b pressed => exact step_setButton hs (hi.1 b pressed hcall) hcall
  | moveTo x y => exact step_moveTo hs hcall hi.2
  | moveDelta dx dy => exact step_moveDelta hs hcall

theorem Fresh.agrees (hs : s.Fresh) : s.Agrees := by
  intro button _
  rw [hs.held, isButtonPressed_eq, hs.buttonMask]
  simp

/-! ## Runs -/

/-- If the pointer is never moved while it remembers a button, the server holds at each time the
buttons that the pointer holds, and each move that is accepted is a motion at the server. -/
theorem server_agrees (hs : s.Fresh) {inputs : List Input}
    (h : Run.Along step (fun s i => i.ForMouse ∧ s.Free i) s inputs) :
    (∀ earlier later, inputs = earlier ++ later → (Run.after step s earlier).Agrees) ∧
      ∀ earlier i later x y, inputs = earlier ++ i :: later → i.call = .moveTo x y →
        (Run.after step s earlier).pointer.moves x y = true →
          ∃ flags mask, .motionNotify flags mask ∈ ((Run.after step s earlier).step i).queued := by
  constructor
  · intro earlier later hsplit
    subst hsplit
    exact h.everywhere (fun _ _ => step_agrees) hs.agrees
  · intro earlier i later x y hsplit hcall hmoves
    subst hsplit
    have hnone := h.condition.2 x y hcall hmoves
    obtain ⟨flags, mask, hq⟩ := step_moveTo_queued hcall hmoves hnone
    exact ⟨flags, mask, by simp [hq]⟩

/-- A screen of 100 × 100, shown as it is. -/
def start : Overlay :=
  { pointer :=
      { buttonMask := 0
        x := 0
        y := 0
        pointerButton := none
        screenInfo := ⟨100, 100, 0, 0, 1, 1, 0, 0⟩ }
    mask := []
    held := fun _ => false
    queued := [] }

theorem start_fresh : start.Fresh := ⟨rfl, rfl, fun _ => rfl⟩

def input (call : Pointer.Call) : Input := ⟨call, ⟨100, 100⟩, true⟩

/-- A move, then a click. -/
theorem server_agrees_click :
    (Run.after step start [input (.moveTo 3 4), input (.setButton .left true)]).Agrees ∧
      ∃ flags mask, .motionNotify flags mask ∈ (start.step (input (.moveTo 3 4))).queued := by
  have h : Run.Along step (fun s i => i.ForMouse ∧ s.Free i) start
      [input (.moveTo 3 4), input (.setButton .left true)] := by
    refine ⟨⟨?_, fun _ _ _ _ => rfl⟩, ⟨?_, ?_⟩, trivial⟩
    · intro button pressed hcall
      cases hcall
    · intro button pressed hcall
      cases hcall
      decide
    · intro x y hcall
      cases hcall
  have hall := server_agrees start_fresh h
  exact ⟨hall.1 _ [] rfl, hall.2 [] _ _ 3 4 rfl rfl (by decide +kernel)⟩

/-- The left button is pressed and the pointer dragged: the server has released the button, and
has not moved. -/
theorem drag_releases :
    let s := Run.after step start [input (.setButton .left true)]
    let s' := s.step (input (.moveTo 3 4))
    start.Fresh ∧ s.pointer.moves 3 4 = true ∧ ¬s'.Agrees ∧
      ¬∃ flags mask, .motionNotify flags mask ∈ s'.queued := by
  intro s s'
  have hqueued : s'.queued = [.button .buttonRelease 1] := by decide +kernel
  refine ⟨start_fresh, by decide +kernel, ?_, ?_⟩
  · intro hagrees
    have hleft := hagrees .left (by decide)
    exact absurd hleft (by decide +kernel)
  · simp [hqueued]

end Overlay

end XoDos
