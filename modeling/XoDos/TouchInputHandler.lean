import XoDos.Run
import XoDos.TapGestureDetector

/-!
# `TouchInputHandler`

The fingers on the screen are turned into clicks and drags of the mouse.  The button that a drag holds
is known to the strategy of the input mode only, and a click may come from a message that was posted by
an earlier tap.
-/

namespace XoDos.Gestures

inductive Button where
  | left
  | middle
  | right
deriving DecidableEq

/-- A call of `mInjector.sendMouseEvent` with a button. -/
structure MouseEvent where
  button : Button
  down : Bool
  relative : Bool
deriving DecidableEq

def sendMouseDown (button : Button) (relative : Bool) : List MouseEvent := [⟨button, true, relative⟩]

def sendMouseUp (button : Button) (relative : Bool) : List MouseEvent := [⟨button, false, relative⟩]

def sendMouseClick (button : Button) (relative : Bool) : List MouseEvent :=
  [⟨button, true, relative⟩, ⟨button, false, relative⟩]

/-! ## Strategies -/

inductive InputStrategy where
  | null
  | simulatedTouch (mHeldButton : Option Button)
  | trackpad (mHeldButton : Option Button)
deriving DecidableEq

namespace InputStrategy

def mHeldButton : InputStrategy → Option Button
  | .null => none
  | .simulatedTouch held => held
  | .trackpad held => held

def isTrackpad : InputStrategy → Bool
  | .trackpad _ => true
  | _ => false

def onTap (button : Button) : InputStrategy → List MouseEvent
  | .null => []
  | .simulatedTouch _ => sendMouseClick button false
  | .trackpad _ => sendMouseClick button true

/-- The strategy after the call, what it sends, and its answer. -/
def onPressAndHold (tapToMove : Bool) (button : Button) (force : Bool) :
    InputStrategy → InputStrategy × List MouseEvent × Bool
  | .null => (.null, [], false)
  | .simulatedTouch _ => (.simulatedTouch (some button), sendMouseDown button false, true)
  | .trackpad held =>
    if tapToMove && !force then (.trackpad held, [], false)
    else (.trackpad (some button), sendMouseDown button true, true)

def onMotionEvent (e : TouchForwarding.MotionEvent) : InputStrategy → InputStrategy × List MouseEvent
  | .simulatedTouch (some button) =>
    if e.action = .up then (.simulatedTouch none, sendMouseUp button false)
    else (.simulatedTouch (some button), [])
  | .trackpad (some button) =>
    if e.action = .up then (.trackpad none, sendMouseUp button true)
    else (.trackpad (some button), [])
  | strategy => (strategy, [])

end InputStrategy

/-! ## The handler -/

/-- What does not change: the slop of the detector, and which points lie outside the image. -/
structure Screen where
  mTouchSlopSquare : Int
  screenPointLiesOutsideImageBoundary : Int → Int → Bool

inductive InputMode where
  | trackpad
  | simulatedTouch
  | touch
deriving DecidableEq

structure TouchInputHandler where
  /-- The handler of a touchpad has no `mTouchpadHandler`. -/
  mTouchpadHandler : Bool
  mInputStrategy : InputStrategy
  mTapDetector : TapGestureDetector
  mIsDragging : Bool
  /-- The clicks of the left button in the queue of `mGestureListenerHandler`. -/
  delayed : Nat

def mouseButtonFromPointerCount : Nat → Option Button
  | 1 => some .left
  | 2 => some .right
  | 3 => some .middle
  | _ => none

namespace TouchInputHandler

variable (screen : Screen) (tapToMove : Bool) (h : TouchInputHandler)

def setInputMode (inputMode : InputMode) : TouchInputHandler :=
  { h with mInputStrategy :=
      if !h.mTouchpadHandler then .trackpad none
      else
        match inputMode with
        | .touch => .null
        | .simulatedTouch => .simulatedTouch none
        | .trackpad => .trackpad none }

/-- The constructor sets the mode before there is an `mTouchpadHandler`. -/
def new (isTouchpad : Bool) : TouchInputHandler where
  mTouchpadHandler := !isTouchpad
  mInputStrategy := .trackpad none
  mTapDetector := .new
  mIsDragging := false
  delayed := 0

def onTap (tap : Notification) : TouchInputHandler × List MouseEvent :=
  match mouseButtonFromPointerCount tap.pointerCount with
  | none => (h, [])
  | some button =>
    if !h.mInputStrategy.isTrackpad && screen.screenPointLiesOutsideImageBoundary tap.x tap.y then
      (h, [])
    else if button ≠ .left ∨ (tapToMove && h.mInputStrategy.isTrackpad) = false then
      (h, h.mInputStrategy.onTap button)
    else ({ h with delayed := h.delayed + 1 }, [])

/-- A press that the strategy takes is the begin of a drag. -/
def pressAndHold (button : Button) (force : Bool) : TouchInputHandler × List MouseEvent :=
  let (strategy, sent, handled) := h.mInputStrategy.onPressAndHold tapToMove button force
  ({ h with mInputStrategy := strategy, mIsDragging := h.mIsDragging || handled }, sent)

/-- `onDoubleTapEvent` for the down of the second tap. -/
def onDoubleTapDown : TouchInputHandler × List MouseEvent :=
  if tapToMove && h.mInputStrategy.isTrackpad then
    { h with delayed := 0 }.pressAndHold tapToMove .left true
  else (h, [])

def onLongPress (longPress : Notification) : TouchInputHandler × List MouseEvent :=
  match mouseButtonFromPointerCount longPress.pointerCount with
  | none => (h, [])
  | some button =>
    if !h.mInputStrategy.isTrackpad &&
        screen.screenPointLiesOutsideImageBoundary longPress.x longPress.y then (h, [])
    else h.pressAndHold tapToMove button false

/-- `doubleTap` says whether the gesture detector of Android takes a down for that of the second tap
of a double tap. -/
def handleTouchEvent (e : TouchForwarding.MotionEvent) (doubleTap : Bool) : Java (TouchInputHandler × List MouseEvent) := do
  let (strategy, released) := h.mInputStrategy.onMotionEvent e
  let h := { h with mInputStrategy := strategy }
  let (h, pressed) := if e.action = .down ∧ doubleTap then h.onDoubleTapDown tapToMove else (h, [])
  let (detector, tap) ← h.mTapDetector.onTouchEvent screen.mTouchSlopSquare e
  let h := { h with mTapDetector := detector }
  let (h, tapped) :=
    match tap with
    | some tap => h.onTap screen tapToMove tap
    | none => (h, [])
  let h := if e.action = .down then { h with mIsDragging := false } else h
  return (h, released ++ pressed ++ tapped)

/-- The message of a long press. -/
def handleLongPress : Java (TouchInputHandler × List MouseEvent) := do
  let (detector, longPress) ← h.mTapDetector.handleMessage
  let (h, pressed) := h.onLongPress screen tapToMove longPress
  return ({ h with mTapDetector := detector }, pressed)

/-- The message of a delayed click. -/
def handleDelayedTap : TouchInputHandler × List MouseEvent :=
  ({ h with delayed := h.delayed - 1 }, h.mInputStrategy.onTap .left)

end TouchInputHandler

/-! ## Runs -/

inductive Input where
  | touch (e : TouchForwarding.MotionEvent) (doubleTap : Bool)
  | longPress
  | delayedTap
  | setInputMode (inputMode : InputMode)
  | reloadPreferences (touchMode : InputMode) (tapToMove : Bool)

structure State where
  handler : TouchInputHandler
  /-- `mInjector.tapToMove` -/
  tapToMove : Bool
  /-- The ids of the fingers on the screen. -/
  fingers : List Nat
  /-- The mouse events so far. -/
  sent : List MouseEvent
  /-- An exception was thrown. -/
  failed : Bool

/-- The buttons that are down after one more mouse event. -/
def press (down : Button → Bool) (m : MouseEvent) : Button → Bool :=
  Function.update down m.button m.down

def downAfter (sent : List MouseEvent) : Button → Bool := Run.after press (fun _ => false) sent

/-- Each down is of a button that is up, and each up of one that is down. -/
def Alternate (sent : List MouseEvent) : Prop :=
  Run.Along press (fun down m => m.down ≠ down m.button) (fun _ => false) sent

namespace State

variable (screen : Screen) (s : State)

def start (isTouchpad tapToMove : Bool) : State := ⟨.new isTouchpad, tapToMove, [], [], false⟩

def down : Button → Bool := downAfter s.sent

def ids (e : TouchForwarding.MotionEvent) : List Nat := e.pointers.map (·.id)

/-- The fingers other than the one that the event is about. -/
def others (e : TouchForwarding.MotionEvent) : List Nat := (ids e).eraseIdx e.actionIndex

/-- The event goes on with the stream of the fingers on the screen. -/
def Fits (e : TouchForwarding.MotionEvent) : Prop :=
  match e.action with
  | .down => s.fingers = [] ∧ e.pointers.length = 1
  | .pointerDown => s.fingers ≠ [] ∧ others e = s.fingers ∧ e.active.id ∉ s.fingers
  | .move | .cancel => s.fingers ≠ [] ∧ ids e = s.fingers
  | .pointerUp => ids e = s.fingers ∧ 2 ≤ e.pointers.length
  | .up => ids e = s.fingers ∧ e.pointers.length = 1
  | _ => False

instance (e : TouchForwarding.MotionEvent) : Decidable (s.Fits e) := by
  unfold Fits
  cases e.action <;> exact inferInstance

/-- The fingers on the screen after the event. -/
def fingersAfter (e : TouchForwarding.MotionEvent) : List Nat :=
  match e.action with
  | .up | .cancel => []
  | .pointerUp => others e
  | _ => ids e

def take (result : Java (TouchInputHandler × List MouseEvent)) : State :=
  match result with
  | .ok (handler, sent) => { s with handler, sent := s.sent ++ sent }
  | .error _ => { s with failed := true }

/-- Touch events that do not fit, and messages that are not in a queue, do not come. -/
def step (s : State) : Input → State
  | .touch e doubleTap =>
    if s.Fits e then
      { s.take (s.handler.handleTouchEvent screen s.tapToMove e doubleTap) with
        fingers := fingersAfter e }
    else s
  | .longPress =>
    if s.handler.mTapDetector.posted then s.take (s.handler.handleLongPress screen s.tapToMove) else s
  | .delayedTap => if 0 < s.handler.delayed then s.take (.ok s.handler.handleDelayedTap) else s
  | .setInputMode inputMode => { s with handler := s.handler.setInputMode inputMode }
  | .reloadPreferences touchMode tapToMove =>
    { s with handler := s.handler.setInputMode touchMode, tapToMove := tapToMove }

/-- What holds after an input. -/
structure Releases (s : State) (input : Input) : Prop where
  alternate : Alternate (s.step screen input).sent
  released : (s.step screen input).fingers = [] → ∀ button, (s.step screen input).down button = false

/-- While a button is held no gesture is cancelled and no mode set; while the left one is held no delayed
click comes. -/
structure Calm (s : State) (input : Input) : Prop where
  cancel : ∀ e doubleTap, input = .touch e doubleTap → e.action = .cancel → s.Fits e →
    s.handler.mInputStrategy.mHeldButton = none
  delayedTap : input = .delayedTap → 0 < s.handler.delayed →
    s.handler.mInputStrategy.mHeldButton ≠ some .left
  mode : ∀ inputMode tapToMove, input = .setInputMode inputMode ∨
    input = .reloadPreferences inputMode tapToMove → s.handler.mInputStrategy.mHeldButton = none

end State

/-! ## Mouse events -/

section Mouse

variable {sent : List MouseEvent} {held : Option Button} {b : Button} {m : MouseEvent}

theorem downAfter_snoc : downAfter (sent ++ [m]) = press (downAfter sent) m := by
  rw [downAfter, Run.after_append]
  rfl

theorem alternate_snoc :
    Alternate (sent ++ [m]) ↔ Alternate sent ∧ m.down ≠ downAfter sent m.button := by
  rw [Alternate, Run.along_append]
  simp [Run.Along, Alternate, downAfter]

/-- The mouse events alternate, and just the held button is down. -/
structure Tidy (sent : List MouseEvent) (held : Option Button) : Prop where
  alternate : Alternate sent
  down : ∀ b, downAfter sent b = true ↔ held = some b

theorem Tidy.start : Tidy [] none := ⟨trivial, fun b => by simp [downAfter]⟩

theorem Tidy.press (h : Tidy sent none) (b : Button) (relative : Bool) :
    Tidy (sent ++ sendMouseDown b relative) (some b) := by
  have hup : downAfter sent b = false := by simpa using (h.down b).not.mpr (by simp)
  refine ⟨alternate_snoc.mpr ⟨h.alternate, by simp [hup]⟩, fun c => ?_⟩
  rw [sendMouseDown, downAfter_snoc, Gestures.press]
  by_cases hc : c = b
  · simp [hc]
  · rw [Function.update_of_ne hc, h.down c]
    simp [Ne.symm hc]

theorem Tidy.release (h : Tidy sent (some b)) (relative : Bool) :
    Tidy (sent ++ sendMouseUp b relative) none := by
  have hdown : downAfter sent b = true := (h.down b).mpr rfl
  refine ⟨alternate_snoc.mpr ⟨h.alternate, by simp [hdown]⟩, fun c => ?_⟩
  rw [sendMouseUp, downAfter_snoc, Gestures.press]
  by_cases hc : c = b
  · simp [hc]
  · rw [Function.update_of_ne hc, h.down c]
    simp [Ne.symm hc]

theorem Tidy.click (h : Tidy sent held) (hne : held ≠ some b) (relative : Bool) :
    Tidy (sent ++ sendMouseClick b relative) held := by
  have hup : downAfter sent b = false := by simpa using (h.down b).not.mpr hne
  have hlist : sent ++ sendMouseClick b relative = sent ++ [⟨b, true, relative⟩] ++ [⟨b, false, relative⟩] := by
    simp [sendMouseClick]
  rw [hlist]
  refine ⟨alternate_snoc.mpr ⟨alternate_snoc.mpr ⟨h.alternate, by simp [hup]⟩, ?_⟩, fun c => ?_⟩
  · simp [downAfter_snoc, Gestures.press]
  · rw [downAfter_snoc, downAfter_snoc, Gestures.press, Gestures.press]
    by_cases hc : c = b
    · simp [hc, hne]
    · rw [Function.update_of_ne hc, Function.update_of_ne hc, h.down c]

/-- A button that is down is not pressed again while the events alternate. -/
theorem not_alternate_down (hdown : downAfter sent b = true) {relative : Bool} {rest : List MouseEvent} :
    ¬Alternate (sent ++ ⟨b, true, relative⟩ :: rest) := by
  intro h
  have hsnoc : Alternate (sent ++ [⟨b, true, relative⟩]) := by
    rw [List.append_cons] at h
    exact (Run.along_append.mp h).1
  exact (alternate_snoc.mp hsnoc).2 hdown.symm

/-- The button is down and the strategy does not know. -/
structure Stuck (b : Button) (sent : List MouseEvent) (held : Option Button) : Prop where
  down : downAfter sent b = true
  held : held ≠ some b

theorem Stuck.press (h : Stuck b sent held) {c : Button} {relative : Bool}
    (halternate : Alternate (sent ++ sendMouseDown c relative)) :
    Stuck b (sent ++ sendMouseDown c relative) (some c) := by
  have hne : c ≠ b := by
    intro heq
    rw [heq] at halternate
    exact not_alternate_down h.down halternate
  refine ⟨?_, fun heq => hne (Option.some.inj heq)⟩
  rw [sendMouseDown, downAfter_snoc, Gestures.press, Function.update_of_ne hne.symm]
  exact h.down

theorem Stuck.release {c : Button} (h : Stuck b sent (some c)) (relative : Bool) :
    Stuck b (sent ++ sendMouseUp c relative) none := by
  have hne : b ≠ c := fun heq => h.held (by rw [heq])
  refine ⟨?_, by simp⟩
  rw [sendMouseUp, downAfter_snoc, Gestures.press, Function.update_of_ne hne]
  exact h.down

theorem Stuck.click (h : Stuck b sent held) {c : Button} {relative : Bool}
    (halternate : Alternate (sent ++ sendMouseClick c relative)) :
    Stuck b (sent ++ sendMouseClick c relative) held := by
  have hne : b ≠ c := by
    intro heq
    rw [← heq] at halternate
    exact not_alternate_down h.down halternate
  have hlist : sent ++ sendMouseClick c relative =
      sent ++ [⟨c, true, relative⟩] ++ [⟨c, false, relative⟩] := by
    simp [sendMouseClick]
  refine ⟨?_, h.held⟩
  rw [hlist, downAfter_snoc, downAfter_snoc, Gestures.press, Gestures.press,
    Function.update_of_ne hne, Function.update_of_ne hne]
  exact h.down

end Mouse

/-! ## What the handler does -/

namespace TouchInputHandler

variable {screen : Screen} {tapToMove : Bool} {h : TouchInputHandler}

def held (h : TouchInputHandler) : Option Button := h.mInputStrategy.mHeldButton

/-- A press changes the strategy, a click does not. -/
theorem pressAndHold_cases (button : Button) (force : Bool) :
    ((h.pressAndHold tapToMove button force).2 = [] ∧
        (h.pressAndHold tapToMove button force).1.mInputStrategy = h.mInputStrategy) ∨
      (((h.pressAndHold tapToMove button force).1.mInputStrategy.isTrackpad =
          h.mInputStrategy.isTrackpad) ∧
        (h.mInputStrategy.isTrackpad = true ∧ tapToMove = true → force = true) ∧
        (h.pressAndHold tapToMove button force).1.held = some button ∧
        ∃ relative, (h.pressAndHold tapToMove button force).2 = sendMouseDown button relative) := by
  unfold pressAndHold held
  cases hstrategy : h.mInputStrategy with
  | null => exact .inl ⟨rfl, rfl⟩
  | simulatedTouch held => exact .inr ⟨rfl, fun hno => absurd hno.1 (by simp [InputStrategy.isTrackpad]), rfl, _, rfl⟩
  | trackpad held =>
    rw [InputStrategy.onPressAndHold]
    by_cases hforce : (tapToMove && !force) = true
    · rw [if_pos hforce]
      exact .inl ⟨rfl, rfl⟩
    · rw [if_neg hforce]
      refine .inr ⟨rfl, fun hmove => ?_, rfl, _, rfl⟩
      simpa [hmove.2] using hforce

theorem onTap_click (button : Button) (strategy : InputStrategy) :
    strategy.onTap button = [] ∧ strategy = .null ∨
      ∃ relative, strategy.onTap button = sendMouseClick button relative := by
  cases strategy with
  | null => exact .inl ⟨rfl, rfl⟩
  | simulatedTouch held => exact .inr ⟨false, rfl⟩
  | trackpad held => exact .inr ⟨true, rfl⟩

theorem onTap_cases (tap : Notification) :
    (h.onTap screen tapToMove tap).1.mInputStrategy = h.mInputStrategy ∧
      ((h.onTap screen tapToMove tap).2 = [] ∨
        ∃ button relative, (h.onTap screen tapToMove tap).2 = sendMouseClick button relative) := by
  unfold onTap
  cases mouseButtonFromPointerCount tap.pointerCount with
  | none => exact ⟨rfl, .inl rfl⟩
  | some button =>
    simp only
    split_ifs
    · exact ⟨rfl, .inl rfl⟩
    · refine ⟨rfl, ?_⟩
      rcases onTap_click button h.mInputStrategy with ⟨hnone, -⟩ | ⟨relative, hclick⟩
      · exact .inl hnone
      · exact .inr ⟨button, relative, hclick⟩
    · exact ⟨rfl, .inl rfl⟩

theorem onLongPress_cases (longPress : Notification) :
    ((h.onLongPress screen tapToMove longPress).2 = [] ∧
        (h.onLongPress screen tapToMove longPress).1.mInputStrategy = h.mInputStrategy) ∨
      (¬(h.mInputStrategy.isTrackpad = true ∧ tapToMove = true) ∧
        ∃ button relative, (h.onLongPress screen tapToMove longPress).1.held = some button ∧
          (h.onLongPress screen tapToMove longPress).2 = sendMouseDown button relative) := by
  unfold onLongPress
  cases mouseButtonFromPointerCount longPress.pointerCount with
  | none => exact .inl ⟨rfl, rfl⟩
  | some button =>
    simp only
    split_ifs
    · exact .inl ⟨rfl, rfl⟩
    · rcases @pressAndHold_cases tapToMove h button false with
        hnone | ⟨-, hforce, hheld, relative, hsent⟩
      · exact .inl hnone
      · refine .inr ⟨fun hmove => ?_, button, relative, hheld, hsent⟩
        cases hforce hmove

/-- What the strategy does with an event: only an up releases. -/
theorem onMotionEvent_cases (e : TouchForwarding.MotionEvent) (strategy : InputStrategy) :
    (strategy.onMotionEvent e).1.isTrackpad = strategy.isTrackpad ∧
      ((e.action = .up ∧ (strategy.onMotionEvent e).1.mHeldButton = none ∧
          ((strategy.mHeldButton = none ∧ (strategy.onMotionEvent e).2 = []) ∨
            ∃ b relative, strategy.mHeldButton = some b ∧
              (strategy.onMotionEvent e).2 = sendMouseUp b relative)) ∨
        (e.action ≠ .up ∧ strategy.onMotionEvent e = (strategy, []))) := by
  rcases strategy with - | (- | b) | (- | b)
  · by_cases hup : e.action = .up
    · exact ⟨rfl, .inl ⟨hup, rfl, .inl ⟨rfl, rfl⟩⟩⟩
    · exact ⟨rfl, .inr ⟨hup, rfl⟩⟩
  · by_cases hup : e.action = .up
    · exact ⟨rfl, .inl ⟨hup, rfl, .inl ⟨rfl, rfl⟩⟩⟩
    · exact ⟨rfl, .inr ⟨hup, rfl⟩⟩
  · by_cases hup : e.action = .up
    · simp only [InputStrategy.onMotionEvent, if_pos hup]
      exact ⟨rfl, .inl ⟨hup, rfl, .inr ⟨b, false, rfl, rfl⟩⟩⟩
    · simp only [InputStrategy.onMotionEvent, if_neg hup]
      exact ⟨trivial, .inr ⟨hup, trivial⟩⟩
  · by_cases hup : e.action = .up
    · exact ⟨rfl, .inl ⟨hup, rfl, .inl ⟨rfl, rfl⟩⟩⟩
    · exact ⟨rfl, .inr ⟨hup, rfl⟩⟩
  · by_cases hup : e.action = .up
    · simp only [InputStrategy.onMotionEvent, if_pos hup]
      exact ⟨rfl, .inl ⟨hup, rfl, .inr ⟨b, true, rfl, rfl⟩⟩⟩
    · simp only [InputStrategy.onMotionEvent, if_neg hup]
      exact ⟨trivial, .inr ⟨hup, trivial⟩⟩

theorem onDoubleTapDown_cases :
    ((h.onDoubleTapDown tapToMove).2 = [] ∧
        (h.onDoubleTapDown tapToMove).1.mInputStrategy = h.mInputStrategy) ∨
      (h.mInputStrategy.isTrackpad = true ∧ tapToMove = true ∧
        (h.onDoubleTapDown tapToMove).1.mInputStrategy.isTrackpad = true ∧
        (h.onDoubleTapDown tapToMove).1.held = some .left ∧
        ∃ relative, (h.onDoubleTapDown tapToMove).2 = sendMouseDown .left relative) := by
  unfold onDoubleTapDown
  by_cases hmove : (tapToMove && h.mInputStrategy.isTrackpad) = true
  · rw [if_pos hmove]
    rw [Bool.and_eq_true] at hmove
    rcases @pressAndHold_cases tapToMove ({ h with delayed := 0 }) .left true with
      hnone | ⟨htrackpad, -, hheld, hsent⟩
    · exact .inl hnone
    · exact .inr ⟨hmove.2, hmove.1, htrackpad.trans hmove.2, hheld, hsent⟩
  · rw [if_neg hmove]
    exact .inl ⟨rfl, rfl⟩

theorem onTap_detector (tap : Notification) :
    (h.onTap screen tapToMove tap).1.mTapDetector = h.mTapDetector := by
  unfold onTap
  cases mouseButtonFromPointerCount tap.pointerCount with
  | none => rfl
  | some button =>
    simp only
    split_ifs
    · rfl
    · rfl
    · rfl

/-- What a handler does with an event: an up releases the held button and may tap, a down may press,
and no other event does anything to the mouse. -/
structure Handles (h : TouchInputHandler) (tapToMove : Bool) (e : TouchForwarding.MotionEvent)
    (h' : TouchInputHandler) (sent : List MouseEvent) : Prop where
  ready : h'.mTapDetector.Ready (e.action ≠ .up && e.action ≠ .cancel)
  posted : h'.mTapDetector.posted = true → h.mTapDetector.posted = true ∨ e.action = .down
  trackpad : h'.mInputStrategy.isTrackpad = h.mInputStrategy.isTrackpad
  up : e.action = .up → h'.held = none ∧ ∃ released tapped, sent = released ++ tapped ∧
    ((h.held = none ∧ released = []) ∨
      ∃ b relative, h.held = some b ∧ released = sendMouseUp b relative) ∧
    (tapped = [] ∨ ∃ b relative, tapped = sendMouseClick b relative)
  down : e.action = .down → (sent = [] ∧ h'.held = h.held) ∨
    (tapToMove = true ∧ h'.mInputStrategy.isTrackpad = true ∧ h'.held = some .left ∧
      ∃ relative, sent = sendMouseDown .left relative)
  other : e.action ≠ .up → e.action ≠ .down → sent = [] ∧ h'.held = h.held

theorem onDoubleTapDown_detector : (h.onDoubleTapDown tapToMove).1.mTapDetector = h.mTapDetector := by
  unfold onDoubleTapDown
  split_ifs
  · rfl
  · rfl

theorem handleTouchEvent_spec {touched : Bool} (hready : h.mTapDetector.Ready touched) (e : TouchForwarding.MotionEvent)
    (doubleTap : Bool) (hfits : e.action = .down ∨ touched = true) :
    ∃ h' sent, h.handleTouchEvent screen tapToMove e doubleTap = .ok (h', sent) ∧
      h.Handles tapToMove e h' sent := by
  obtain ⟨detector, tap, hdetector, hready', hposted, htap⟩ :=
    hready.onTouchEvent screen.mTouchSlopSquare e hfits
  obtain ⟨htrackpad, hmotion⟩ := onMotionEvent_cases e h.mInputStrategy
  unfold handleTouchEvent
  rcases hmotion with ⟨hup, hheld, hreleased⟩ | ⟨hup, hnone⟩
  · have hnot : ¬(e.action = .down ∧ doubleTap = true) := fun hdown => by
      rw [hup] at hdown
      cases hdown.1
    have hdown : ¬e.action = .down := fun hdown => by
      rw [hup] at hdown
      cases hdown
    simp only [if_neg hnot, if_neg hdown, hdetector, ok_bind, List.append_nil]
    cases tap with
    | none =>
      refine ⟨_, _, rfl, hready', hposted, htrackpad, fun _ => ⟨hheld, _, [], rfl, hreleased, .inl rfl⟩,
        fun hno => absurd hno hdown, fun hno => absurd hup hno⟩
    | some tap =>
      let h₁ : TouchInputHandler :=
        { h with mInputStrategy := (h.mInputStrategy.onMotionEvent e).1, mTapDetector := detector }
      obtain ⟨hstrategy, htapped⟩ := @onTap_cases screen tapToMove h₁ tap
      have hdetector' : (h₁.onTap screen tapToMove tap).1.mTapDetector = detector := onTap_detector tap
      refine ⟨(h₁.onTap screen tapToMove tap).1, _, rfl, ?_, ?_, ?_, fun _ => ⟨?_, _, _, rfl, hreleased, htapped⟩,
        fun hno => absurd hno hdown, fun hno => absurd hup hno⟩
      · rw [hdetector']
        exact hready'
      · rw [hdetector']
        exact hposted
      · rw [hstrategy]
        exact htrackpad
      · rw [held, hstrategy]
        exact hheld
  · have hno : tap = none := by
      cases tap with
      | none => rfl
      | some tap => exact absurd (htap rfl) hup
    subst hno
    simp only [hnone, List.nil_append]
    by_cases hpress : e.action = .down ∧ doubleTap = true
    · simp only [if_pos hpress, if_pos hpress.1, onDoubleTapDown_detector, hdetector, ok_bind]
      refine ⟨_, _, rfl, hready', hposted, ?_, fun hno => absurd hno hup, fun _ => ?_,
        fun _ hno => absurd hpress.1 hno⟩
      · rcases @onDoubleTapDown_cases tapToMove h with ⟨-, hsame⟩ | ⟨hbefore, -, hafter, -⟩
        · exact congrArg InputStrategy.isTrackpad hsame
        · exact hafter.trans hbefore.symm
      · rcases @onDoubleTapDown_cases tapToMove h with ⟨hsent, hsame⟩ | ⟨-, hpressed⟩
        · rw [List.append_nil]
          exact .inl ⟨hsent, congrArg InputStrategy.mHeldButton hsame⟩
        · rw [List.append_nil]
          exact .inr hpressed
    · simp only [if_neg hpress, hdetector, ok_bind]
      split_ifs with hdown
      · exact ⟨_, _, rfl, hready', hposted, rfl, fun hno => absurd hno hup, fun _ => .inl ⟨rfl, rfl⟩,
          fun _ _ => ⟨rfl, rfl⟩⟩
      · exact ⟨_, _, rfl, hready', hposted, rfl, fun hno => absurd hno hup, fun _ => .inl ⟨rfl, rfl⟩,
          fun _ _ => ⟨rfl, rfl⟩⟩

theorem handleLongPress_spec {touched : Bool} (hready : h.mTapDetector.Ready touched)
    (hposted : h.mTapDetector.posted = true) :
    ∃ h' sent, h.handleLongPress screen tapToMove = .ok (h', sent) ∧
      h'.mTapDetector.Ready touched ∧ h'.mTapDetector.posted = false ∧
      ((sent = [] ∧ h'.held = h.held) ∨
        (¬(h.mInputStrategy.isTrackpad = true ∧ tapToMove = true) ∧
          ∃ b relative, h'.held = some b ∧ sent = sendMouseDown b relative)) := by
  obtain ⟨detector, longPress, hdetector, hready', hposted'⟩ := hready.handleMessage hposted
  unfold handleLongPress
  simp only [hdetector, ok_bind]
  refine ⟨_, _, rfl, hready', hposted', ?_⟩
  rcases @onLongPress_cases screen tapToMove h longPress with
    ⟨hsent, hsame⟩ | ⟨hmove, b, relative, hheld, hsent⟩
  · exact .inl ⟨hsent, congrArg InputStrategy.mHeldButton hsame⟩
  · exact .inr ⟨hmove, b, relative, hheld, hsent⟩

theorem setInputMode_held (inputMode : InputMode) : (h.setInputMode inputMode).held = none := by
  unfold setInputMode held
  cases h.mTouchpadHandler with
  | false => rfl
  | true =>
    cases inputMode with
    | trackpad => rfl
    | simulatedTouch => rfl
    | touch => rfl

theorem handleDelayedTap_cases :
    (h.held = none ∧ h.handleDelayedTap.2 = []) ∨
      ∃ relative, h.handleDelayedTap.2 = sendMouseClick .left relative := by
  unfold handleDelayedTap
  rcases onTap_click .left h.mInputStrategy with ⟨hnone, hnull⟩ | hclick
  · exact .inl ⟨by rw [held, hnull]; rfl, hnone⟩
  · exact .inr hclick

end TouchInputHandler

/-! ## Steps -/

/-- What can happen to the buttons. -/
inductive Does : Option Button → List MouseEvent → Option Button → Prop where
  | nothing (held : Option Button) : Does held [] held
  | press (held : Option Button) (b : Button) (relative : Bool) :
    Does held (sendMouseDown b relative) (some b)
  | release (b : Button) (relative : Bool) : Does (some b) (sendMouseUp b relative) none
  | click (held : Option Button) (b : Button) (relative : Bool) : Does held (sendMouseClick b relative) held
  | mode (held : Option Button) : Does held [] none
  | trans {held held' held'' : Option Button} {sent sent' : List MouseEvent} :
    Does held sent held' → Does held' sent' held'' → Does held (sent ++ sent') held''

theorem Stuck.does {b : Button} {sent sent' : List MouseEvent} {held held' : Option Button}
    (h : Stuck b sent held) (hdoes : Does held sent' held') (halternate : Alternate (sent ++ sent')) :
    Stuck b (sent ++ sent') held' := by
  induction hdoes generalizing sent with
  | nothing held =>
    rw [List.append_nil]
    exact h
  | press held c relative => exact h.press halternate
  | release c relative => exact h.release relative
  | click held c relative => exact h.click halternate
  | mode held =>
    rw [List.append_nil]
    exact ⟨h.down, by simp⟩
  | trans _ _ ih ih' =>
    rw [← List.append_assoc] at halternate ⊢
    exact ih' (ih h (Run.along_append.mp halternate).1) halternate

namespace State

variable {screen : Screen} {s : State} {input : Input}

/-- The app runs, and the detector is ready for the fingers on the screen. -/
structure Inv (s : State) : Prop where
  running : s.failed = false
  ready : s.handler.mTapDetector.Ready (s.fingers ≠ [])

/-- The mouse is tidy, and a long press that is to come does not press while a button is held. -/
structure Clean (s : State) : Prop where
  tidy : Tidy s.sent s.handler.held
  idle : s.fingers = [] → s.handler.held = none
  posted : s.handler.mTapDetector.posted = true → s.handler.held = none ∨
    (s.handler.mInputStrategy.isTrackpad = true ∧ s.tapToMove = true)

theorem ids_ne_nil (e : TouchForwarding.MotionEvent) : ids e ≠ [] := by
  rw [ids, ne_eq, List.map_eq_nil_iff]
  intro hno
  have := e.actionIndex_lt
  simp [hno] at this

theorem Fits.touched {e : TouchForwarding.MotionEvent} (h : s.Fits e) : e.action = .down ∨ s.fingers ≠ [] := by
  unfold Fits at h
  cases haction : e.action with
  | down => exact .inl rfl
  | pointerDown =>
    simp only [haction] at h
    exact .inr h.1
  | move =>
    simp only [haction] at h
    exact .inr h.1
  | cancel =>
    simp only [haction] at h
    exact .inr h.1
  | pointerUp =>
    simp only [haction] at h
    exact .inr (h.1 ▸ ids_ne_nil e)
  | up =>
    simp only [haction] at h
    exact .inr (h.1 ▸ ids_ne_nil e)
  | hoverMove | hoverEnter | hoverExit | other =>
    simp only [haction] at h

theorem Fits.fingersAfter {e : TouchForwarding.MotionEvent} (h : s.Fits e) :
    (decide (fingersAfter e ≠ []) : Bool) = (e.action ≠ .up && e.action ≠ .cancel) := by
  unfold Fits at h
  unfold State.fingersAfter
  cases haction : e.action with
  | up => rfl
  | cancel => rfl
  | pointerUp =>
    simp only [haction] at h
    have hlen : (others e).length + 1 = e.pointers.length := by
      rw [others, List.length_eraseIdx, ids, List.length_map, if_pos e.actionIndex_lt]
      have := e.actionIndex_lt
      omega
    have hne : others e ≠ [] := by
      intro hno
      rw [hno] at hlen
      simp only [List.length_nil] at hlen
      omega
    simp [hne]
  | down | pointerDown | move | hoverMove | hoverEnter | hoverExit | other => simp [ids_ne_nil e]

/-- Every step of the handler returns. -/
theorem step_touch (h : s.Inv) {e : TouchForwarding.MotionEvent} {doubleTap : Bool} (hfits : s.Fits e) :
    ∃ h' sent, s.handler.Handles s.tapToMove e h' sent ∧
      s.step screen (.touch e doubleTap) =
        { s with handler := h', sent := s.sent ++ sent, fingers := fingersAfter e } := by
  obtain ⟨h', sent, hok, hhandles⟩ := @TouchInputHandler.handleTouchEvent_spec screen s.tapToMove
      _ _ h.ready e doubleTap (by simpa using hfits.touched)
  exact ⟨h', sent, hhandles, by rw [step, if_pos hfits, hok]; rfl⟩

theorem step_longPress (h : s.Inv) (hposted : s.handler.mTapDetector.posted = true) :
    ∃ h' sent, s.step screen .longPress = { s with handler := h', sent := s.sent ++ sent } ∧
      h'.mTapDetector.Ready (s.fingers ≠ []) ∧ h'.mTapDetector.posted = false ∧
      ((sent = [] ∧ h'.held = s.handler.held) ∨
        (¬(s.handler.mInputStrategy.isTrackpad = true ∧ s.tapToMove = true) ∧
          ∃ b relative, h'.held = some b ∧ sent = sendMouseDown b relative)) := by
  obtain ⟨h', sent, hok, hspec⟩ := @TouchInputHandler.handleLongPress_spec screen s.tapToMove _ _
      h.ready hposted
  exact ⟨h', sent, by rw [step, if_pos hposted, hok]; rfl, hspec⟩

theorem step_delayedTap (hdelayed : 0 < s.handler.delayed) :
    s.step screen .delayedTap = { s with
      handler := s.handler.handleDelayedTap.1
      sent := s.sent ++ s.handler.handleDelayedTap.2 } := by
  rw [step, if_pos hdelayed]
  rfl

theorem Inv.step (h : s.Inv) (input : Input) : (s.step screen input).Inv := by
  cases input with
  | touch e doubleTap =>
    by_cases hfits : s.Fits e
    · obtain ⟨h', sent, hhandles, hstep⟩ := @step_touch screen _ h _ doubleTap hfits
      rw [hstep]
      exact ⟨h.running, by rw [hfits.fingersAfter]; exact hhandles.ready⟩
    · rw [State.step, if_neg hfits]
      exact h
  | longPress =>
    by_cases hposted : s.handler.mTapDetector.posted = true
    · obtain ⟨h', sent, hstep, hready, -⟩ := @step_longPress screen _ h hposted
      rw [hstep]
      exact ⟨h.running, hready⟩
    · rw [State.step, if_neg hposted]
      exact h
  | delayedTap =>
    by_cases hdelayed : 0 < s.handler.delayed
    · rw [step_delayedTap hdelayed]
      exact ⟨h.running, h.ready⟩
    · rw [State.step, if_neg hdelayed]
      exact h
  | setInputMode inputMode => exact ⟨h.running, h.ready⟩
  | reloadPreferences touchMode tapToMove => exact ⟨h.running, h.ready⟩

/-- What a step does to the buttons. -/
theorem step_does (h : s.Inv) (input : Input) : ∃ sent, (s.step screen input).sent = s.sent ++ sent ∧
    Does s.handler.held sent (s.step screen input).handler.held := by
  have hidle : ∃ sent, s.sent = s.sent ++ sent ∧ Does s.handler.held sent s.handler.held :=
    ⟨[], (List.append_nil _).symm, .nothing _⟩
  have hmode : ∀ inputMode, ∃ sent, s.sent = s.sent ++ sent ∧
      Does s.handler.held sent (s.handler.setInputMode inputMode).held := fun inputMode =>
    ⟨[], (List.append_nil _).symm, by rw [TouchInputHandler.setInputMode_held]; exact .mode _⟩
  cases input with
  | touch e doubleTap =>
    by_cases hfits : s.Fits e
    · obtain ⟨h', sent, hhandles, hstep⟩ := @step_touch screen _ h _ doubleTap hfits
      rw [hstep]
      refine ⟨sent, rfl, ?_⟩
      -- Only UP does two things: it releases what is held, and then may click.
      by_cases hup : e.action = .up
      · obtain ⟨hheld, released, tapped, hsent, hreleased, htapped⟩ := hhandles.up hup
        have htap : Does none tapped none := by
          rcases htapped with hnone | ⟨b, relative, hclick⟩
          · rw [hnone]
            exact .nothing none
          · rw [hclick]
            exact .click none b relative
        rw [hheld, hsent]
        apply Does.trans _ htap
        rcases hreleased with ⟨hnone, hreleased⟩ | ⟨b, relative, hb, hreleased⟩
        · rw [hnone, hreleased]
          exact .nothing none
        · rw [hb, hreleased]
          exact .release b relative
      · by_cases hdown : e.action = .down
        · rcases hhandles.down hdown with ⟨hsent, hheld⟩ | ⟨-, -, hheld, relative, hsent⟩
          · rw [hsent, hheld]
            exact .nothing _
          · rw [hsent, hheld]
            exact .press _ .left relative
        · obtain ⟨hsent, hheld⟩ := hhandles.other hup hdown
          rw [hsent, hheld]
          exact .nothing _
    · rw [step, if_neg hfits]
      exact hidle
  | longPress =>
    by_cases hposted : s.handler.mTapDetector.posted = true
    · obtain ⟨h', sent, hstep, -, -, hpress⟩ := @step_longPress screen _ h hposted
      rw [hstep]
      refine ⟨sent, rfl, ?_⟩
      rcases hpress with ⟨hsent, hheld⟩ | ⟨-, b, relative, hheld, hsent⟩
      · rw [hsent, hheld]
        exact .nothing _
      · rw [hsent, hheld]
        exact .press _ b relative
    · rw [step, if_neg hposted]
      exact hidle
  | delayedTap =>
    by_cases hdelayed : 0 < s.handler.delayed
    · rw [step_delayedTap hdelayed]
      refine ⟨_, rfl, ?_⟩
      rcases TouchInputHandler.handleDelayedTap_cases (h := s.handler) with ⟨-, hnone⟩ | ⟨relative, hclick⟩
      · rw [hnone]
        exact .nothing _
      · rw [hclick]
        exact .click _ .left relative
    · rw [step, if_neg hdelayed]
      exact hidle
  | setInputMode inputMode => exact hmode inputMode
  | reloadPreferences touchMode tapToMove => exact hmode touchMode

theorem Clean.touch (h : s.Clean) (hinv : s.Inv) {e : TouchForwarding.MotionEvent} {doubleTap : Bool} (hfits : s.Fits e)
    (hcalm : s.Calm (.touch e doubleTap)) : (s.step screen (.touch e doubleTap)).Clean := by
  obtain ⟨h', sent, hhandles, hstep⟩ := @step_touch screen _ hinv _ doubleTap hfits
  rw [hstep]
  -- The fingers are gone after UP and CANCEL only.
  have hafter : fingersAfter e = [] → e.action = .up ∨ e.action = .cancel := by
    intro hnone
    have hend := hfits.fingersAfter
    rw [hnone] at hend
    by_contra hno
    rw [not_or] at hno
    simp [hno] at hend
  by_cases hup : e.action = .up
  · obtain ⟨hheld, released, tapped, hsent, hreleased, htapped⟩ := hhandles.up hup
    have hrel : Tidy (s.sent ++ released) none := by
      rcases hreleased with ⟨hnone, hreleased⟩ | ⟨b, relative, hb, hreleased⟩
      · rw [hreleased, List.append_nil, ← hnone]
        exact h.tidy
      · have htidy := h.tidy
        rw [hb] at htidy
        rw [hreleased]
        exact htidy.release relative
    refine ⟨?_, fun _ => hheld, fun _ => .inl hheld⟩
    change Tidy (s.sent ++ sent) h'.held
    rw [hsent, hheld, ← List.append_assoc]
    rcases htapped with hnone | ⟨b, relative, hclick⟩
    · rw [hnone, List.append_nil]
      exact hrel
    · rw [hclick]
      exact hrel.click (by simp) relative
  -- A double tap presses the button at its second DOWN, when nothing is held.
  · by_cases hdown : e.action = .down
    · have hnone : s.handler.held = none := by
        have hfits' := hfits
        rw [Fits, hdown] at hfits'
        exact h.idle hfits'.1
      have hbusy : fingersAfter e ≠ [] := by
        rw [fingersAfter, hdown]
        exact ids_ne_nil e
      rcases hhandles.down hdown with ⟨hsent, hheld⟩ | ⟨hmove, htrackpad, hheld, relative, hsent⟩
      · refine ⟨?_, fun hno => absurd hno hbusy, fun _ => .inl (hheld.trans hnone)⟩
        change Tidy (s.sent ++ sent) h'.held
        rw [hsent, hheld, List.append_nil]
        exact h.tidy
      · refine ⟨?_, fun hno => absurd hno hbusy, fun _ => .inr ⟨htrackpad, hmove⟩⟩
        change Tidy (s.sent ++ sent) h'.held
        have htidy := h.tidy
        rw [hnone] at htidy
        rw [hsent, hheld]
        exact htidy.press .left relative
    · obtain ⟨hsent, hheld⟩ := hhandles.other hup hdown
      refine ⟨?_, fun hno => ?_, fun hposted => ?_⟩
      · change Tidy (s.sent ++ sent) h'.held
        rw [hsent, hheld, List.append_nil]
        exact h.tidy
      · change h'.held = none
        rw [hheld]
        exact hcalm.cancel e doubleTap rfl ((hafter hno).resolve_left hup) hfits
      · change h'.held = none ∨ _
        rw [hheld, hhandles.trackpad]
        exact h.posted ((hhandles.posted hposted).resolve_right hdown)

theorem Clean.longPress (h : s.Clean) (hinv : s.Inv) : (s.step screen .longPress).Clean := by
  by_cases hposted : s.handler.mTapDetector.posted = true
  · obtain ⟨h', sent, hstep, -, hposted', hpress⟩ := @step_longPress screen _ hinv hposted
    have htouched : s.fingers ≠ [] := by simpa using (hinv.ready.posted hposted).1
    rw [hstep]
    refine ⟨?_, fun hno => absurd hno htouched, fun hno => ?_⟩
    · change Tidy (s.sent ++ sent) h'.held
      rcases hpress with ⟨hsent, hheld⟩ | ⟨hmove, b, relative, hheld, hsent⟩
      · rw [hsent, hheld, List.append_nil]
        exact h.tidy
      · have htidy := h.tidy
        rw [(h.posted hposted).resolve_right hmove] at htidy
        rw [hsent, hheld]
        exact htidy.press b relative
    · change h'.mTapDetector.posted = true at hno
      rw [hposted'] at hno
      cases hno
  · rw [State.step, if_neg hposted]
    exact h

theorem Clean.step (h : s.Clean) (hinv : s.Inv) (hcalm : s.Calm input) : (s.step screen input).Clean := by
  cases input with
  | touch e doubleTap =>
    by_cases hfits : s.Fits e
    · exact h.touch hinv hfits hcalm
    · rw [State.step, if_neg hfits]
      exact h
  | longPress => exact h.longPress hinv
  | delayedTap =>
    by_cases hdelayed : 0 < s.handler.delayed
    · rw [step_delayedTap hdelayed]
      refine ⟨?_, h.idle, h.posted⟩
      change Tidy (s.sent ++ s.handler.handleDelayedTap.2) s.handler.held
      rcases TouchInputHandler.handleDelayedTap_cases (h := s.handler) with ⟨-, hnone⟩ | ⟨relative, hclick⟩
      · rw [hnone, List.append_nil]
        exact h.tidy
      · rw [hclick]
        exact h.tidy.click (hcalm.delayedTap rfl hdelayed) relative
    · rw [State.step, if_neg hdelayed]
      exact h
  | setInputMode inputMode =>
    have hnone := TouchInputHandler.setInputMode_held (h := s.handler) inputMode
    refine ⟨?_, fun _ => hnone, fun _ => .inl hnone⟩
    have htidy := h.tidy
    rw [TouchInputHandler.held, hcalm.mode inputMode false (.inl rfl)] at htidy
    change Tidy s.sent (s.handler.setInputMode inputMode).held
    rw [hnone]
    exact htidy
  | reloadPreferences touchMode tapToMove =>
    have hnone := TouchInputHandler.setInputMode_held (h := s.handler) touchMode
    refine ⟨?_, fun _ => hnone, fun _ => .inl hnone⟩
    have htidy := h.tidy
    rw [TouchInputHandler.held, hcalm.mode touchMode tapToMove (.inr rfl)] at htidy
    change Tidy s.sent (s.handler.setInputMode touchMode).held
    rw [hnone]
    exact htidy

theorem Clean.releases (h : (s.step screen input).Clean) : Releases screen s input := by
  refine ⟨h.tidy.alternate, fun hnone b => ?_⟩
  have hup := (h.tidy.down b).not.mpr (by rw [h.idle hnone]; simp)
  simpa [down] using hup

/-- A button that the strategy has forgotten is never released, so that the gesture does not end well. -/
theorem not_ended_of_stuck {b : Button} {inputs : List Input} (hinv : s.Inv)
    (hstuck : Stuck b s.sent s.handler.held) (htouched : s.fingers ≠ [])
    (h : Run.Along (step screen) (Releases screen) s inputs) :
    (Run.after (step screen) s inputs).fingers ≠ [] := by
  induction inputs generalizing s with
  | nil => exact htouched
  | cons input inputs ih =>
    have hreleases : Releases screen s input := h.1
    obtain ⟨sent, hsent, hdoes⟩ := @step_does screen _ hinv input
    have halternate := hreleases.alternate
    rw [hsent] at halternate
    have hstuck' : Stuck b (s.step screen input).sent (s.step screen input).handler.held := by
      rw [hsent]
      exact hstuck.does hdoes halternate
    apply ih (hinv.step input) hstuck' _ h.2
    intro hnone
    have hup := hreleases.released hnone b
    rw [down, hstuck'.down] at hup
    cases hup

theorem Clean.forgets (h : s.Clean) {b : Button} (hb : s.handler.held = some b) (inputMode : InputMode) :
    Stuck b s.sent (s.handler.setInputMode inputMode).held ∧ s.fingers ≠ [] := by
  refine ⟨⟨(h.tidy.down b).mpr hb, ?_⟩, fun hno => ?_⟩
  · rw [TouchInputHandler.setInputMode_held]
    simp
  · rw [h.idle hno] at hb
    cases hb

/-- A step after which all is well is calm, or a button has been forgotten. -/
theorem Clean.calm_or_stuck (h : s.Clean) (hinv : s.Inv) (hreleases : Releases screen s input) :
    s.Calm input ∨ ∃ b, Stuck b (s.step screen input).sent (s.step screen input).handler.held ∧
      (s.step screen input).fingers ≠ [] := by
  -- Only CANCEL, a delayed tap and a change of the mode can leave a held button behind.
  cases input with
  | touch e doubleTap =>
    refine .inl ⟨?_, fun hno => (by cases hno), fun _ _ hno => hno.elim (fun h => by cases h) (fun h => by cases h)⟩
    intro e' doubleTap' heq hcancel hfits
    cases heq
    obtain ⟨h', sent, hhandles, hstep⟩ := @step_touch screen _ hinv _ doubleTap hfits
    obtain ⟨hsent, -⟩ := hhandles.other (by simp [hcancel]) (by simp [hcancel])
    have hreleased := hreleases.released
    rw [hstep, hsent] at hreleased
    simp only [down, List.append_nil] at hreleased
    have hnone : fingersAfter e = [] := by rw [fingersAfter, hcancel]
    cases hheld : s.handler.mInputStrategy.mHeldButton with
    | none => rfl
    | some b =>
      have hdown := (h.tidy.down b).mpr hheld
      rw [hreleased hnone b] at hdown
      cases hdown
  | longPress =>
    exact .inl ⟨fun _ _ hno => (by cases hno), fun hno => (by cases hno),
      fun _ _ hno => hno.elim (fun h => by cases h) (fun h => by cases h)⟩
  | delayedTap =>
    refine .inl ⟨fun _ _ hno => (by cases hno), fun _ hdelayed hheld => ?_,
      fun _ _ hno => hno.elim (fun h => by cases h) (fun h => by cases h)⟩
    have halternate := hreleases.alternate
    rw [step_delayedTap hdelayed] at halternate
    change Alternate (s.sent ++ s.handler.handleDelayedTap.2) at halternate
    rcases TouchInputHandler.handleDelayedTap_cases (h := s.handler) with ⟨hnone, -⟩ | ⟨relative, hclick⟩
    · rw [TouchInputHandler.held, hheld] at hnone
      cases hnone
    · rw [hclick] at halternate
      exact not_alternate_down ((h.tidy.down .left).mpr hheld) halternate
  | setInputMode inputMode =>
    cases hheld : s.handler.held with
    | none =>
      exact .inl ⟨fun _ _ hno => (by cases hno), fun hno => (by cases hno), fun _ _ _ => hheld⟩
    | some b => exact .inr ⟨b, h.forgets hheld inputMode⟩
  | reloadPreferences touchMode tapToMove =>
    cases hheld : s.handler.held with
    | none =>
      exact .inl ⟨fun _ _ hno => (by cases hno), fun hno => (by cases hno), fun _ _ _ => hheld⟩
    | some b => exact .inr ⟨b, h.forgets hheld touchMode⟩

theorem Clean.along_iff {inputs : List Input} (h : s.Clean) (hinv : s.Inv)
    (hended : (Run.after (State.step screen) s inputs).fingers = []) :
    Run.Along (State.step screen) (Releases screen) s inputs ↔ Run.Along (State.step screen) Calm s inputs := by
  induction inputs generalizing s with
  | nil => rfl
  | cons input inputs ih =>
    have hrest : s.Calm input → (Run.Along (State.step screen) (Releases screen) (s.step screen input) inputs ↔
        Run.Along (State.step screen) Calm (s.step screen input) inputs) := fun hcalm =>
      ih (h.step hinv hcalm) (hinv.step input) hended
    constructor
    · intro ⟨hreleases, hafter⟩
      rcases h.calm_or_stuck hinv hreleases with hcalm | ⟨b, hstuck, htouched⟩
      · exact ⟨hcalm, (hrest hcalm).mp hafter⟩
      · exact absurd hended (not_ended_of_stuck (s := s.step screen input) (hinv.step input) hstuck
          htouched hafter)
    · intro ⟨hcalm, hafter⟩
      exact ⟨(h.step hinv hcalm).releases, (hrest hcalm).mpr hafter⟩

theorem Inv.start (isTouchpad tapToMove : Bool) : (start isTouchpad tapToMove).Inv :=
  ⟨rfl, fun hno => absurd hno (by simp [State.start]), fun hno => by cases hno⟩

theorem Clean.start (isTouchpad tapToMove : Bool) : (start isTouchpad tapToMove).Clean :=
  ⟨Tidy.start, fun _ => rfl, fun hno => by cases hno⟩

/-- An event of one finger. -/
def oneFinger (action : TouchForwarding.Action) : TouchForwarding.MotionEvent :=
  ⟨action, [⟨0, 100, 100⟩], 0, by simp, by simp⟩

def plainScreen : Screen := ⟨64, fun _ _ => false⟩

end State

end XoDos.Gestures
