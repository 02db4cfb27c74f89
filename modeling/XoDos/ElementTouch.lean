import XoDos.ControlElement
import XoDos.Mouse

/-!
# Touches of an element

An element is captured by the pointer that comes down on it and follows that pointer
until it goes up.  What it presses on the way is in its log.

Coordinates are rationals.  Where a stick is drawn is left out, and so is what the
scroller of a range button does with its calls.
-/

namespace XoDos

structure Point where
  x : ℚ
  y : ℚ
deriving DecidableEq

/-- A rectangle of pixels. -/
structure Rect where
  left : Int
  top : Int
  width : Int
  height : Int

def Rect.contains (box : Rect) (x y : Int) : Bool :=
  box.left ≤ x && x < box.left + box.width && box.top ≤ y && y < box.top + box.height

/-- The functions of floating point numbers, and the transformation of the touchpad. -/
class TouchMath where
  /-- The point at the radius in the direction of the offset. -/
  onCircle : (offsetX offsetY radius : ℚ) → ℚ × ℚ
  /-- The curve of the trackpad. -/
  getInterpolation : ℚ → ℚ
  xform : Fin 6 → ℚ

namespace Mathf

def clamp (x min max : ℚ) : ℚ := if x < min then min else if max < x then max else x

def sign (x : ℚ) : ℚ := if x < 0 then -1 else if 0 < x then 1 else 0

def roundPoint (x : ℚ) : Int := if x ≤ 0 then ⌊x⌋ else ⌈x⌉

end Mathf

/-- What an element calls. -/
inductive ElementCall where
  | handleInputEvent (binding : Binding) (isActionDown : Bool) (offset : ℚ)
  | sendText (text : String)
  | scrollerDown (point : Point)
  | scrollerMove (point : Point)
  | scrollerUp
  | injectPointerMoveDelta (dx dy : Int)
deriving DecidableEq

/-- An element on the screen, with the fields that touches change.  `followed` are the points of
the moves of its own pointer. -/
structure LiveElement where
  element : ControlElement
  boundingBox : Rect
  currentPointerId : Int
  selected : Bool
  touchTime : Option Int
  cheatCodePressed : Bool
  currentPosition : Option Point
  followed : List Point
  log : List ElementCall

namespace LiveElement

variable (e : LiveElement)

/-- D-pads, sticks and trackpads press their bindings as the pointer moves. -/
def isPad : Bool :=
  match e.element.type with
  | .dPad | .stick | .trackpad => true
  | _ => false

def containsPoint (point : Point) : Bool :=
  e.boundingBox.contains (truncate (point.x + 1 / 2)) (truncate (point.y + 1 / 2))

def isKeepButtonPressedAfterMinTime : Bool :=
  let binding := e.element.getBindingAt 0
  !e.element.toggleSwitch && (binding == .gamepadButtonL3 || binding == .gamepadButtonR3)

def call (c : ElementCall) : LiveElement := { e with log := e.log ++ [c] }

def handleInputEvent (binding : Binding) (isActionDown : Bool) (offset : ℚ) : LiveElement :=
  e.call (.handleInputEvent binding isActionDown offset)

def setState (i : Nat) (state : Bool) : LiveElement :=
  { e with element := { e.element with states := e.element.states.set i state } }

/-- Tells the state of the `i`-th binding and keeps it. -/
def tellState (i : Nat) (state : Bool) (offset : ℚ) : LiveElement :=
  (e.handleInputEvent (e.element.getBindingAt i) state offset).setState i state

/-! ## Moves -/

/-- Up, right, down, left. -/
def directions (deltaX deltaY zone : ℚ) (i : Nat) : Bool :=
  match i with
  | 0 => deltaY ≤ -zone
  | 1 => zone ≤ deltaX
  | 2 => zone ≤ deltaY
  | _ => deltaX ≤ -zone

/-- The bindings that move the mouse are told both directions of their axis. -/
def direction (binding : Binding) (states : Nat → Bool) (i : Nat) : Bool :=
  if binding.isMouseMove then states i || states ((i + 2) % 4) else states i

def axisValue (deltaX deltaY : ℚ) (i : Nat) : ℚ := if i = 1 ∨ i = 3 then deltaX else deltaY

/-- `states[i]` and `value` for one direction of a D-pad. -/
def moveDPad (deltaX deltaY : ℚ) (e : LiveElement) (i : Nat) : LiveElement :=
  let states := directions deltaX deltaY (3 / 10)
  e.tellState i (direction (e.element.getBindingAt i) states i) (axisValue deltaX deltaY i)

def moveStick (deltaX deltaY : ℚ) (e : LiveElement) (i : Nat) : LiveElement :=
  let states := directions deltaX deltaY (15 / 100)
  let value := axisValue deltaX deltaY i
  let binding := e.element.getBindingAt i
  if binding.isGamepad then
    e.tellState i true (Mathf.clamp (max 0 (|value| - 1 / 100) * Mathf.sign value * 3) (-1) 1)
  else e.tellState i (direction binding states i) value

section
variable [TouchMath]

def trackpadOffset (value : ℚ) : ℚ :=
  let value := if 4 < |value| then value * 3 else value
  let interpolated := TouchMath.getInterpolation (min 1 |value / 20|)
  Mathf.clamp (interpolated * Mathf.sign value) (-1) 1

/-- One direction of a trackpad, with the movement of the cursor. -/
def moveTrackpad (deltaX deltaY : ℚ) (s : LiveElement × Int × Int) (i : Nat) :
    LiveElement × Int × Int :=
  let (e, cursorDx, cursorDy) := s
  let states := directions deltaX deltaY (8 / 10)
  let value := axisValue deltaX deltaY i
  let binding := e.element.getBindingAt i
  if binding.isGamepad then (e.tellState i true (trackpadOffset value), cursorDx, cursorDy)
  else
    let value := if 6 < |value| then value * (5 / 4) else value
    match binding with
    | .mouseMoveLeft | .mouseMoveRight => (e, Mathf.roundPoint value, cursorDy)
    | .mouseMoveUp | .mouseMoveDown => (e, cursorDx, Mathf.roundPoint value)
    | _ => (e.tellState i (states i) value, cursorDx, cursorDy)

/-- How far the pointer is from the middle of a D-pad or a stick. -/
def padDelta (point : Point) : ℚ × ℚ :=
  let radius : ℚ := e.boundingBox.width * (1 / 2)
  let offsetX := point.x - e.boundingBox.left - radius
  let offsetY := point.y - e.boundingBox.top - radius
  let (offsetX, offsetY) :=
    if radius * radius < offsetX * offsetX + offsetY * offsetY then
      TouchMath.onCircle offsetX offsetY radius
    else (offsetX, offsetY)
  (Mathf.clamp (offsetX / radius) (-1) 1, Mathf.clamp (offsetY / radius) (-1) 1)

def transformPoint (point : Point) : ℚ × ℚ :=
  let xform := TouchMath.xform
  (xform 0 * point.x + xform 2 * point.y + xform 4, xform 1 * point.x + xform 3 * point.y + xform 5)

def computeDeltaPoint (last point : Point) : ℚ × ℚ :=
  ((transformPoint point).1 - (transformPoint last).1,
    (transformPoint point).2 - (transformPoint last).2)

/-- What a move does to an element that presses its bindings as the pointer moves. -/
def movePad (point : Point) : LiveElement :=
  match e.element.type with
  | .trackpad =>
    let (deltaX, deltaY) := computeDeltaPoint (e.currentPosition.getD ⟨0, 0⟩) point
    let (e, cursorDx, cursorDy) :=
      (List.range 4).foldl (moveTrackpad deltaX deltaY) ({ e with currentPosition := point }, 0, 0)
    if cursorDx ≠ 0 ∨ cursorDy ≠ 0 then e.call (.injectPointerMoveDelta cursorDx cursorDy) else e
  | .stick =>
    let (deltaX, deltaY) := e.padDelta point
    (List.range 4).foldl (moveStick deltaX deltaY) e
  | _ =>
    let (deltaX, deltaY) := e.padDelta point
    (List.range 4).foldl (moveDPad deltaX deltaY) e

/-- Returns whether the element has handled the event. -/
def handleTouchMove (pointerId : Int) (point : Point) : LiveElement × Bool :=
  if pointerId ≠ e.currentPointerId then (e, false)
  else
    let e := { e with followed := e.followed ++ [point] }
    if e.isPad then (e.movePad point, true)
    else if e.element.type = .rangeButton then (e.call (.scrollerMove point), true)
    else (e, false)

end

/-! ## Down and up -/

/-- Presses the bindings that are set, in their order. -/
def pressAll (e : LiveElement) (i : Nat) : LiveElement :=
  if e.element.getBindingAt i ≠ .none then e.handleInputEvent (e.element.getBindingAt i) true 0
  else e

def releaseAll (e : LiveElement) (i : Nat) : LiveElement :=
  if e.element.getBindingAt i ≠ .none then e.handleInputEvent (e.element.getBindingAt i) false 0
  else e

/-- Notes when a button that may be kept pressed was touched. -/
def noteTime (time : Int) : LiveElement :=
  if e.isKeepButtonPressedAfterMinTime then { e with touchTime := time } else e

def handleTouchDown [TouchMath] (pointerId : Int) (point : Point) (time : Int) :
    LiveElement × Bool :=
  if e.currentPointerId = -1 ∧ e.containsPoint point then
    let e := { e with currentPointerId := pointerId }
    match e.element.type with
    | .cheatCodeText =>
      (if e.cheatCodePressed then e
        else { e.call (.sendText e.element.cheatCodeText) with cheatCodePressed := true }, true)
    | .combineButton =>
      let e := e.noteTime time
      (if !e.element.toggleSwitch || !e.selected then
        (List.range e.element.states.length).foldl pressAll e else e, true)
    | .button =>
      let e := e.noteTime time
      (if !e.element.toggleSwitch || !e.selected then
        e.handleInputEvent (e.element.getBindingAt 0) true 0 else e, true)
    | .rangeButton =>
      ({ e with element := e.element.setBinding .none }.call (.scrollerDown point), true)
    | .trackpad => { e with currentPosition := point }.handleTouchMove pointerId point
    | _ => e.handleTouchMove pointerId point
  else (e, false)

/-- A button that goes up: `release` unless it is kept pressed. -/
def buttonUp (time : Int) (release : LiveElement → LiveElement) : LiveElement :=
  let e :=
    match e.touchTime with
    | some touchTime =>
      if e.isKeepButtonPressedAfterMinTime then
        let selected : Bool := 300 < time - touchTime
        let e := { e with selected := selected }
        { (if selected then e else release e) with touchTime := none }
      else if !e.element.toggleSwitch || e.selected then release e else e
    | none => if !e.element.toggleSwitch || e.selected then release e else e
  if e.element.toggleSwitch then { e with selected := !e.selected } else e

/-- Releases the `i`-th binding if it is pressed. -/
def releaseState (e : LiveElement) (i : Nat) : LiveElement :=
  if e.element.states.getD i false then e.tellState i false 0 else e.setState i false

/-- What an element that is captured does when its pointer goes up. -/
def goUp (time : Int) : LiveElement :=
  match e.element.type with
  | .cheatCodeText => { e with cheatCodePressed := false }
  | .combineButton =>
    e.buttonUp time fun e => (List.range e.element.states.length).reverse.foldl releaseAll e
  | .button => e.buttonUp time fun e => e.handleInputEvent (e.element.getBindingAt 0) false 0
  | .rangeButton =>
    { ((List.range e.element.states.length).foldl releaseState e).call .scrollerUp with
      currentPosition := none }
  | _ =>
    { (List.range e.element.states.length).foldl releaseState e with currentPosition := none }

def handleTouchUp (pointerId time : Int) : LiveElement × Bool :=
  if pointerId = e.currentPointerId then ({ e.goUp time with currentPointerId := -1 }, true)
  else (e, false)

end LiveElement

end XoDos
