import XoDos.InputControls

/-!
# The touchpad

Taps and drags on the touchpad press the buttons of the pointer.  A button that was pressed
for a finger is released with a delay after that finger has gone up.

Coordinates are integers, as in the source; distances are compared by their squares.  Hover
events are handled as the touch events that they correspond to.  The touchpad is the only one
that presses the left and the right button.
-/

namespace XoDos

inductive TouchMode where
  | trackPad
  | touchScreen
deriving DecidableEq, Repr

/-- A finger object.  Objects are told apart by their names. -/
structure Finger where
  name : Nat
  x : Int
  y : Int
  startX : Int
  startY : Int
  lastX : Int
  lastY : Int
  touchTime : Int
deriving DecidableEq

namespace Finger

def new (name : Nat) (point : Point) (time : Int) : Finger :=
  let x := truncate point.x
  let y := truncate point.y
  ⟨name, x, y, x, y, x, y, time⟩

def update (f : Finger) (point : Point) : Finger :=
  { f with lastX := f.x, lastY := f.y, x := truncate point.x, y := truncate point.y }

/-- `travelDistance() < distance` -/
def travelsLess (f : Finger) (distance : Int) : Bool :=
  (f.x - f.startX) * (f.x - f.startX) + (f.y - f.startY) * (f.y - f.startY) < distance * distance

def isTap (f : Finger) (touchMode : TouchMode) (time : Int) : Bool :=
  match touchMode with
  | .touchScreen => decide (time - f.touchTime < 200 * 5) && f.travelsLess (10 * 5)
  | .trackPad => decide (time - f.touchTime < 200) && f.travelsLess 10

/-- How far the cursor is moved along one axis. -/
def cursorDelta (distance : Int) (sensitivity : ℚ) : Int :=
  let d : ℚ := distance * sensitivity
  Mathf.roundPoint (if 6 < |d| then d * (5 / 4) else d)

end Finger

/-- `posted` are the buttons that are to be released, `events` what the pointer has sent. -/
structure Touchpad where
  fingers : Fin 4 → Option Finger
  numFingers : Int
  sensitivity : ℚ
  pointerButtonLeftEnabled : Bool
  pointerButtonRightEnabled : Bool
  fingerPointerButtonLeft : Option Nat
  fingerPointerButtonRight : Option Nat
  scrollAccumY : ℚ
  scrolling : Bool
  fourFingersTapCallback : Bool
  touchMode : TouchMode
  /-- The shorter side of the screen. -/
  screenSide : Int
  pointer : Pointer
  posted : List Pointer.Button
  events : List MouseEvent
  /-- The name of the next finger. -/
  nextName : Nat

namespace Touchpad

variable (t : Touchpad)

def callPointer (call : Pointer.Call) : Touchpad :=
  let (pointer, events) := t.pointer.call call
  { t with pointer, events := t.events ++ events }

def isButtonPressed (button : Pointer.Button) : Bool := t.pointer.isButtonPressed button

def findSecondFinger (finger : Finger) : Option Finger :=
  (List.finRange 4).findSome? fun i => (t.fingers i).filter (·.name ≠ finger.name)

/-! ## Buttons -/

def pressPointerButtonLeft (finger : Finger) : Touchpad :=
  if t.pointerButtonLeftEnabled && !t.isButtonPressed .left then
    { t.callPointer (.setButton .left true) with fingerPointerButtonLeft := finger.name }
  else t

def pressPointerButtonRight (finger : Finger) : Touchpad :=
  if t.pointerButtonRightEnabled && !t.isButtonPressed .right then
    { t.callPointer (.setButton .right true) with fingerPointerButtonRight := finger.name }
  else t

def releasePointerButtonLeft (finger : Finger) : Touchpad :=
  if t.pointerButtonLeftEnabled && t.fingerPointerButtonLeft == some finger.name &&
      t.isButtonPressed .left then
    { t with posted := t.posted ++ [.left] }
  else t

def releasePointerButtonRight (finger : Finger) : Touchpad :=
  if t.pointerButtonRightEnabled && t.fingerPointerButtonRight == some finger.name &&
      t.isButtonPressed .right then
    { t with posted := t.posted ++ [.right] }
  else t

/-- A delayed release. -/
def runPosted (i : Nat) : Touchpad :=
  match t.posted[i]? with
  | none => t
  | some button =>
    let t := { t with posted := t.posted.eraseIdx i }.callPointer (.setButton button false)
    if button = .left then { t with fingerPointerButtonLeft := none }
    else { t with fingerPointerButtonRight := none }

/-! ## Fingers -/

/-- Four fingers are down and one of them is no tap: `handleFingerUp` returns early. -/
def returnsEarly (time : Int) : Bool :=
  t.numFingers == 4 && t.fourFingersTapCallback &&
    (List.finRange 4).any fun i => (t.fingers i).any fun f => !f.isTap t.touchMode time

/-- What a finger that goes up presses. -/
def pressForTap (finger1 : Finger) (time : Int) : Touchpad :=
  if t.numFingers = 1 then
    if finger1.isTap t.touchMode time then t.pressPointerButtonLeft finger1 else t
  else if t.numFingers = 2 then
    if (t.findSecondFinger finger1).isSome && finger1.isTap t.touchMode time then
      t.pressPointerButtonRight finger1
    else t
  else t

def handleFingerUp (finger1 : Finger) (time : Int) : Touchpad :=
  if t.returnsEarly time then t
  else
    ((t.pressForTap finger1 time).releasePointerButtonLeft finger1).releasePointerButtonRight finger1

def handlerFingerDown (finger1 : Finger) : Touchpad :=
  if t.touchMode = .touchScreen ∧ t.numFingers = 1 then t.callPointer (.moveTo finger1.x finger1.y)
  else t

/-- The distance of two fingers on the screen is less than 350. -/
def near (f g : Finger) : Bool :=
  let scale : ℚ := 1000 / t.screenSide
  ((f.x - g.x) * (f.x - g.x) + (f.y - g.y) * (f.y - g.y) : Int) * (scale * scale) < 350 * 350

/-- Two fingers that are near to each other scroll. -/
def scroll (f g : Finger) : Touchpad :=
  let accum := t.scrollAccumY + (((f.y + g.y : Int) : ℚ) / 2 - ((f.lastY + g.lastY : Int) : ℚ) / 2)
  let t :=
    if accum < -100 then
      { (t.callPointer (.setButton .scrollDown true)).callPointer (.setButton .scrollDown false) with
        scrollAccumY := 0 }
    else if 100 < accum then
      { (t.callPointer (.setButton .scrollUp true)).callPointer (.setButton .scrollUp false) with
        scrollAccumY := 0 }
    else { t with scrollAccumY := accum }
  { t with scrolling := true }

/-- What the second finger makes of a move, and whether the pointer is not to move. -/
def moveWithSecond (finger1 : Finger) (finger2 : Option Finger) : Touchpad × Bool :=
  match finger2 with
  | none => (t, false)
  | some finger2 =>
    if t.near finger1 finger2 then (t.scroll finger1 finger2, false)
    else if !t.isButtonPressed .left && finger2.travelsLess 10 then
      (t.pressPointerButtonLeft finger1, true)
    else (t, false)

def handleFingerMove (finger1 : Finger) : Touchpad :=
  let finger2 := if t.numFingers = 2 then t.findSecondFinger finger1 else none
  let (t, skipPointerMove) := t.moveWithSecond finger1 finger2
  if !t.scrolling && decide (t.numFingers ≤ 2) && !skipPointerMove && t.touchMode == .trackPad then
    t.callPointer (.moveDelta (Finger.cursorDelta (finger1.x - finger1.lastX) t.sensitivity)
      (Finger.cursorDelta (finger1.y - finger1.lastY) t.sensitivity))
  else t

/-! ## Events -/

def setFinger (i : Fin 4) (finger : Option Finger) : Touchpad :=
  { t with fingers := Function.update t.fingers i finger }

def fingerDown (pointerId : Fin 4) (point : Point) (time : Int) (fromMouse : Bool) : Touchpad :=
  let finger := Finger.new t.nextName point time
  let t := { t.setFinger pointerId (some finger) with
    scrollAccumY := 0
    scrolling := false
    numFingers := t.numFingers + 1
    nextName := t.nextName + 1 }
  if fromMouse then t.callPointer (.moveTo finger.x finger.y) else t.handlerFingerDown finger

/-- The finger in the slot has gone up. -/
def removeFinger (i : Fin 4) : Touchpad :=
  { t.setFinger i none with numFingers := t.numFingers - 1 }

/-- The round of the loop over the fingers for one slot. -/
def moveFinger (event : MotionEvent) (pointerId : Fin 4) (fromMouse : Bool) (t : Touchpad)
    (i : Fin 4) : Touchpad :=
  match t.fingers i with
  | none => t
  | some finger =>
    match event.pointers.find? (fun pointer => pointer.1 = i.val) with
    | some (_, point) =>
      let finger := finger.update point
      let t := t.setFinger i (some finger)
      if fromMouse then
        match t.fingers pointerId with
        | some first => t.callPointer (.moveTo first.x first.y)
        | none => t
      else t.handleFingerMove finger
    | none => (t.handleFingerUp finger event.time).removeFinger i

def fingerUp (pointerId : Fin 4) (point : Point) (time : Int) : Touchpad :=
  match t.fingers pointerId with
  | none => t
  | some finger =>
    let finger := finger.update point
    ((t.setFinger pointerId (some finger)).handleFingerUp finger time).removeFinger pointerId

def onTouchEvent (event : MotionEvent) (fromMouse : Bool) : Touchpad :=
  match event.pointers[event.actionIndex]? with
  | none => t
  | some (id, point) =>
    if h : id < 4 then
      match event.action with
      | .down | .pointerDown => t.fingerDown ⟨id, h⟩ point event.time fromMouse
      | .move => (List.finRange 4).foldl (moveFinger event ⟨id, h⟩ fromMouse) t
      | .up | .pointerUp => t.fingerUp ⟨id, h⟩ point event.time
      | .cancel => { t with fingers := fun _ => none, numFingers := 0 }
    else t

end Touchpad

/-! ## Streams -/

/-- The pointers that are down, and the touchpad. -/
structure PadState where
  pointers : List Nat
  pad : Touchpad

namespace PadState

inductive Input where
  | touch (event : MotionEvent) (fromMouse : Bool)
  /-- A delayed release runs. -/
  | run (i : Nat)
  | setPointerButtonLeftEnabled (enabled : Bool)
  | setPointerButtonRightEnabled (enabled : Bool)
  | setTouchMode (touchMode : TouchMode)

def step (s : PadState) : Input → PadState
  | .touch event fromMouse =>
    { pointers := TouchScreenState.pointersAfter s.pointers event
      pad := s.pad.onTouchEvent event fromMouse }
  | .run i => { s with pad := s.pad.runPosted i }
  | .setPointerButtonLeftEnabled enabled =>
    { s with pad := { s.pad with pointerButtonLeftEnabled := enabled } }
  | .setPointerButtonRightEnabled enabled =>
    { s with pad := { s.pad with pointerButtonRightEnabled := enabled } }
  | .setTouchMode touchMode => { s with pad := { s.pad with touchMode } }

/-- The touch events are those of a stream. -/
def Allowed (s : PadState) : Input → Prop
  | .touch event _ => TouchScreenState.Allowed s.pointers event
  | _ => True

/-- The number of fingers is right, and no button is left down. -/
structure Tidy (s : PadState) : Prop where
  count : s.pad.numFingers = ((List.finRange 4).countP fun i => (s.pad.fingers i).isSome : Nat)
  released : s.pointers = [] → s.pad.posted = [] →
    s.pad.isButtonPressed .left = false ∧ s.pad.isButtonPressed .right = false

/-- The finger in the slot holds the left button. -/
def HoldsLeft (t : Touchpad) (i : Fin 4) : Prop :=
  ∃ f, t.fingers i = some f ∧ t.fingerPointerButtonLeft = some f.name ∧
    t.isButtonPressed .left = true

/-- A finger that holds the left button goes up while the button is enabled and not as one of four
fingers of which one is no tap; and nothing is cancelled while the left button is held. -/
def Gentle (s : PadState) : Input → Prop
  | .touch event _ =>
    ∀ id point, event.pointers[event.actionIndex]? = some (id, point) →
      match event.action with
      | .up | .pointerUp => ∀ h : id < 4, HoldsLeft s.pad ⟨id, h⟩ →
        s.pad.pointerButtonLeftEnabled = true ∧
          ∀ f, s.pad.fingers ⟨id, h⟩ = some f →
            (s.pad.setFinger ⟨id, h⟩ (some (f.update point))).returnsEarly event.time = false
      | .cancel => (s.pad.isButtonPressed .left = true → .left ∈ s.pad.posted) ∧
        (4 ≤ id → ∀ other ∈ s.pointers, 4 ≤ other)
      | _ => True
  | _ => True

end PadState

namespace Touchpad

variable {t : Touchpad}

/-! ## Counting fingers -/

def fingerCount (fingers : Fin 4 → Option Finger) : Int :=
  ((List.finRange 4).countP fun i => (fingers i).isSome : Nat)

theorem fingerCount_eq (fingers : Fin 4 → Option Finger) :
    fingerCount fingers = ∑ i, if (fingers i).isSome then 1 else 0 := by
  have h : List.finRange 4 = [0, 1, 2, 3] := by decide
  simp only [fingerCount, h, List.countP_cons, List.countP_nil, Fin.sum_univ_four]
  push_cast
  ring

theorem fingerCount_update (fingers : Fin 4 → Option Finger) (i : Fin 4) (finger : Option Finger) :
    fingerCount (Function.update fingers i finger) =
      fingerCount fingers + (if finger.isSome then 1 else 0) -
        (if (fingers i).isSome then 1 else 0) := by
  rw [fingerCount_eq, fingerCount_eq, ← Finset.add_sum_erase _ _ (Finset.mem_univ i),
    ← Finset.add_sum_erase _ _ (Finset.mem_univ i)]
  have hrest : ∀ j ∈ Finset.univ.erase i,
      (if (Function.update fingers i finger j).isSome then (1 : Int) else 0) =
        if (fingers j).isSome then 1 else 0 := by
    intro j hj
    rw [Function.update_of_ne (Finset.ne_of_mem_erase hj)]
  rw [Finset.sum_congr rfl hrest, Function.update_self]
  ring

/-! ## Buttons -/

theorem pressed_setButton (b b' : Pointer.Button) (pressed : Bool) :
    (t.callPointer (.setButton b pressed)).isButtonPressed b' =
      if b' = b then pressed else t.isButtonPressed b' :=
  Pointer.setButton_pressed

theorem pressed_moveTo (x y : Int) (b : Pointer.Button) :
    (t.callPointer (.moveTo x y)).isButtonPressed b = t.isButtonPressed b := by
  simp only [callPointer, Pointer.call, isButtonPressed, Pointer.isButtonPressed,
    Pointer.moveTo_buttonMask]

/-- What a step of the touchpad does not change when no finger comes or goes. -/
structure SameFingers (t t' : Touchpad) : Prop where
  fingers : t'.fingers = t.fingers
  numFingers : t'.numFingers = t.numFingers
  posted : t'.posted = t.posted
  enabled : t'.pointerButtonLeftEnabled = t.pointerButtonLeftEnabled
  right : t'.isButtonPressed .right = t.isButtonPressed .right

theorem SameFingers.refl (t : Touchpad) : SameFingers t t := ⟨rfl, rfl, rfl, rfl, rfl⟩

/-- The left button is as it was, or the finger has pressed it. -/
def LeftBy (t t' : Touchpad) (finger : Finger) : Prop :=
  (t'.isButtonPressed .left = t.isButtonPressed .left ∧
    t'.fingerPointerButtonLeft = t.fingerPointerButtonLeft) ∨
  (t'.fingerPointerButtonLeft = some finger.name ∧ t.pointerButtonLeftEnabled = true)

theorem same_moveTo (x y : Int) : SameFingers t (t.callPointer (.moveTo x y)) :=
  ⟨rfl, rfl, rfl, rfl, pressed_moveTo x y _⟩

theorem same_scroll (f g : Finger) :
    SameFingers t (t.scroll f g) ∧
      (t.scroll f g).isButtonPressed .left = t.isButtonPressed .left ∧
      (t.scroll f g).fingerPointerButtonLeft = t.fingerPointerButtonLeft := by
  have hclick : ∀ b b' : Pointer.Button, b' ≠ b →
      ((t.callPointer (.setButton b true)).callPointer (.setButton b false)).isButtonPressed b' =
        t.isButtonPressed b' := by
    intro b b' hne
    rw [pressed_setButton, if_neg hne, pressed_setButton, if_neg hne]
  unfold scroll
  dsimp only
  split_ifs
  · exact ⟨⟨rfl, rfl, rfl, rfl, hclick .scrollDown .right nofun⟩, hclick .scrollDown .left nofun, rfl⟩
  · exact ⟨⟨rfl, rfl, rfl, rfl, hclick .scrollUp .right nofun⟩, hclick .scrollUp .left nofun, rfl⟩
  · exact ⟨⟨rfl, rfl, rfl, rfl, rfl⟩, rfl, rfl⟩

theorem same_pressLeft (finger : Finger) :
    SameFingers t (t.pressPointerButtonLeft finger) ∧
      LeftBy t (t.pressPointerButtonLeft finger) finger := by
  unfold pressPointerButtonLeft
  split_ifs with hpress
  · rw [Bool.and_eq_true] at hpress
    refine ⟨⟨rfl, rfl, rfl, rfl, ?_⟩, .inr ⟨rfl, hpress.1⟩⟩
    exact pressed_setButton (t := t) .left .right true
  · exact ⟨.refl t, .inl ⟨rfl, rfl⟩⟩

theorem moveWithSecond_same (finger1 : Finger) (finger2 : Option Finger) :
    SameFingers t (t.moveWithSecond finger1 finger2).1 ∧
      LeftBy t (t.moveWithSecond finger1 finger2).1 finger1 := by
  unfold moveWithSecond
  split
  · exact ⟨.refl t, .inl ⟨rfl, rfl⟩⟩
  · split_ifs
    · obtain ⟨hsame, hleft⟩ := same_scroll (t := t) finger1 _
      exact ⟨hsame, .inl hleft⟩
    · exact same_pressLeft finger1
    · exact ⟨.refl t, .inl ⟨rfl, rfl⟩⟩

theorem handleFingerMove_same (finger : Finger) :
    SameFingers t (t.handleFingerMove finger) ∧ LeftBy t (t.handleFingerMove finger) finger := by
  unfold handleFingerMove
  generalize (if t.numFingers = 2 then t.findSecondFinger finger else none) = second
  obtain ⟨hsame, hleft⟩ := moveWithSecond_same (t := t) finger second
  dsimp only
  split
  · exact ⟨⟨hsame.fingers, hsame.numFingers, hsame.posted, hsame.enabled, hsame.right⟩, hleft⟩
  · exact ⟨hsame, hleft⟩

/-! ## What is held -/

/-- A button that is pressed is to be released, or the left one is held by a finger. -/
structure Accounted (t : Touchpad) : Prop where
  left : t.isButtonPressed .left = true → .left ∈ t.posted ∨
    ∃ i f, t.fingers i = some f ∧ t.fingerPointerButtonLeft = some f.name
  right : t.isButtonPressed .right = true → .right ∈ t.posted

theorem Accounted.of_same {t' : Touchpad} {finger : Finger} {i : Fin 4} (h : t.Accounted)
    (hsame : SameFingers t t') (hleft : LeftBy t t' finger) (hi : t.fingers i = some finger) :
    t'.Accounted := by
  constructor
  · intro hpressed
    rw [hsame.posted, hsame.fingers]
    rcases hleft with ⟨hbefore, hfinger⟩ | ⟨hfinger, _⟩
    · rw [hfinger]
      exact h.left (hbefore ▸ hpressed)
    · exact .inr ⟨i, finger, hi, hfinger⟩
  · intro hpressed
    rw [hsame.posted]
    exact h.right (hsame.right ▸ hpressed)

/-- A finger keeps its name when it is updated. -/
theorem Accounted.update {i : Fin 4} {f g : Finger} (h : t.Accounted) (hi : t.fingers i = some f)
    (hname : g.name = f.name) : (t.setFinger i (some g)).Accounted where
  left hpressed := by
    rcases h.left hpressed with hposted | ⟨j, f', hj, hf'⟩
    · exact .inl hposted
    · right
      by_cases hij : j = i
      · subst hij
        rw [hi] at hj
        cases hj
        exact ⟨j, g, by simp [setFinger], hname ▸ hf'⟩
      · exact ⟨j, f', by simp [setFinger, hij, hj], hf'⟩
  right := h.right

/-- A finger that comes down takes a slot that is free. -/
theorem Accounted.occupy {i : Fin 4} {finger : Finger} (h : t.Accounted)
    (hi : t.fingers i = none) : (t.setFinger i (some finger)).Accounted where
  left hpressed := by
    rcases h.left hpressed with hposted | ⟨j, f, hj, hf⟩
    · exact .inl hposted
    · right
      refine ⟨j, f, ?_, hf⟩
      have hne : j ≠ i := by
        rintro rfl
        rw [hi] at hj
        cases hj
      simp [setFinger, hne, hj]
  right := h.right

theorem Accounted.moveTo {x y : Int} (h : t.Accounted) :
    (t.callPointer (.moveTo x y)).Accounted where
  left hpressed := h.left (pressed_moveTo x y _ ▸ hpressed)
  right hpressed := h.right (pressed_moveTo x y _ ▸ hpressed)

theorem Accounted.runPosted {i : Nat} (h : t.Accounted) : (t.runPosted i).Accounted := by
  unfold Touchpad.runPosted
  split
  · exact h
  · next button hbutton =>
    have hother : ∀ b : Pointer.Button, b ≠ button → b ∈ t.posted → b ∈ t.posted.eraseIdx i :=
      fun b hne hb => Run.mem_eraseIdx_of_ne hb hbutton hne
    have hpressed : ∀ b : Pointer.Button,
        (({ t with posted := t.posted.eraseIdx i } : Touchpad).callPointer
          (.setButton button false)).isButtonPressed b = true →
        b ≠ button ∧ t.isButtonPressed b = true := by
      intro b hb
      rw [pressed_setButton] at hb
      split_ifs at hb with hsame
      exact ⟨hsame, hb⟩
    dsimp only
    split_ifs with hbl
    · constructor
      · intro hl
        exact absurd hbl.symm (hpressed .left hl).1
      · intro hr
        obtain ⟨hne, hr'⟩ := hpressed .right hr
        exact hother _ hne (h.right hr')
    · constructor
      · intro hl
        obtain ⟨hne, hl'⟩ := hpressed .left hl
        rcases h.left hl' with hposted | hheld
        · exact .inl (hother _ hne hposted)
        · exact .inr hheld
      · intro hr
        obtain ⟨hne, hr'⟩ := hpressed .right hr
        exact hother _ hne (h.right hr')

/-! ## A finger that goes up -/

/-- What a tap presses. -/
theorem pressForTap_fields (finger : Finger) (time : Int) :
    (t.pressForTap finger time).fingers = t.fingers ∧
      (t.pressForTap finger time).numFingers = t.numFingers ∧
      (t.pressForTap finger time).posted = t.posted ∧
      (t.pressForTap finger time).pointerButtonLeftEnabled = t.pointerButtonLeftEnabled ∧
      LeftBy t (t.pressForTap finger time) finger ∧
      ((t.pressForTap finger time).isButtonPressed .right = true →
        t.isButtonPressed .right = true ∨
          ((t.pressForTap finger time).fingerPointerButtonRight = some finger.name ∧
            (t.pressForTap finger time).pointerButtonRightEnabled = true)) := by
  unfold pressForTap
  split_ifs
  · obtain ⟨hsame, hleft⟩ := same_pressLeft (t := t) finger
    refine ⟨hsame.fingers, hsame.numFingers, hsame.posted, hsame.enabled, hleft, fun hr => ?_⟩
    exact .inl (hsame.right ▸ hr)
  · exact ⟨rfl, rfl, rfl, rfl, .inl ⟨rfl, rfl⟩, .inl⟩
  · unfold pressPointerButtonRight
    split_ifs with hpress
    · rw [Bool.and_eq_true] at hpress
      refine ⟨rfl, rfl, rfl, rfl, .inl ⟨?_, rfl⟩, fun _ => .inr ⟨rfl, hpress.1⟩⟩
      exact pressed_setButton (t := t) .right .left true
    · exact ⟨rfl, rfl, rfl, rfl, .inl ⟨rfl, rfl⟩, .inl⟩
  · exact ⟨rfl, rfl, rfl, rfl, .inl ⟨rfl, rfl⟩, .inl⟩
  · exact ⟨rfl, rfl, rfl, rfl, .inl ⟨rfl, rfl⟩, .inl⟩

theorem releaseLeft_posts (t : Touchpad) (finger : Finger) :
    ∃ more, t.releasePointerButtonLeft finger = { t with posted := t.posted ++ more } ∧
      (t.pointerButtonLeftEnabled = true → t.fingerPointerButtonLeft = some finger.name →
        t.isButtonPressed .left = true → .left ∈ more) := by
  unfold releasePointerButtonLeft
  split_ifs with hpost
  · exact ⟨[.left], rfl, by simp⟩
  · refine ⟨[], by simp, fun h1 h2 h3 => absurd ?_ hpost⟩
    simp [h1, h2, h3]

theorem releaseRight_posts (t : Touchpad) (finger : Finger) :
    ∃ more, t.releasePointerButtonRight finger = { t with posted := t.posted ++ more } ∧
      (t.pointerButtonRightEnabled = true → t.fingerPointerButtonRight = some finger.name →
        t.isButtonPressed .right = true → .right ∈ more) := by
  unfold releasePointerButtonRight
  split_ifs with hpost
  · exact ⟨[.right], rfl, by simp⟩
  · refine ⟨[], by simp, fun h1 h2 h3 => absurd ?_ hpost⟩
    simp [h1, h2, h3]

/-- The releases only post. -/
theorem releases_fields (finger : Finger) :
    ∃ more, (t.releasePointerButtonLeft finger).releasePointerButtonRight finger =
      { t with posted := t.posted ++ more } ∧
    (t.pointerButtonLeftEnabled = true → t.fingerPointerButtonLeft = some finger.name →
      t.isButtonPressed .left = true → .left ∈ more) ∧
    (t.pointerButtonRightEnabled = true → t.fingerPointerButtonRight = some finger.name →
      t.isButtonPressed .right = true → .right ∈ more) := by
  obtain ⟨more, heq, hleft⟩ := releaseLeft_posts t finger
  rw [heq]
  obtain ⟨more', heq', hright⟩ :=
    releaseRight_posts { t with posted := t.posted ++ more } finger
  refine ⟨more ++ more', by rw [heq']; simp, fun h1 h2 h3 => ?_, fun h1 h2 h3 => ?_⟩
  · exact List.mem_append_left _ (hleft h1 h2 h3)
  · exact List.mem_append_right _ (hright h1 h2 h3)

/-- A finger may go up if it does not hold the left button, or if its release is not skipped. -/
def MayGoUp (t : Touchpad) (finger : Finger) (time : Int) : Prop :=
  t.fingerPointerButtonLeft = some finger.name → t.isButtonPressed .left = true →
    t.pointerButtonLeftEnabled = true ∧ t.returnsEarly time = false

theorem handleFingerUp_fields (finger : Finger) (time : Int) :
    (t.handleFingerUp finger time).fingers = t.fingers ∧
      (t.handleFingerUp finger time).numFingers = t.numFingers := by
  unfold handleFingerUp
  split_ifs
  · exact ⟨rfl, rfl⟩
  · obtain ⟨more, heq, _⟩ := releases_fields (t := t.pressForTap finger time) finger
    obtain ⟨hfingers, hnum, _⟩ := pressForTap_fields (t := t) finger time
    rw [heq]
    exact ⟨hfingers, hnum⟩

/-- The buttons are accounted for without the finger that has gone up. -/
theorem Accounted.fingerUp {i : Fin 4} {finger : Finger} {time : Int} (h : t.Accounted)
    (hi : t.fingers i = some finger) (hmay : MayGoUp t finger time) :
    ((t.handleFingerUp finger time).removeFinger i).Accounted := by
  have hother : ∀ j f, t.fingers j = some f → j ≠ i →
      ((t.handleFingerUp finger time).removeFinger i).fingers j = some f := by
    intro j f hj hne
    show Function.update (t.handleFingerUp finger time).fingers i none j = some f
    rw [Function.update_of_ne hne, (handleFingerUp_fields finger time).1, hj]
  -- When the handler returns early nothing is released, so the finger must not hold a button.
  by_cases hearly : t.returnsEarly time = true
  · have hsame : t.handleFingerUp finger time = t := by simp [handleFingerUp, hearly]
    rw [hsame] at hother ⊢
    constructor
    · intro hpressed
      rcases h.left hpressed with hposted | ⟨j, f, hj, hf⟩
      · exact .inl hposted
      · by_cases hji : j = i
        · rw [hji, hi] at hj
          cases hj
          have := (hmay hf hpressed).2
          rw [hearly] at this
          cases this
        · exact .inr ⟨j, f, hother j f hj hji, hf⟩
    · exact h.right
  · obtain ⟨more, heq, hleft, hright⟩ := releases_fields (t := t.pressForTap finger time) finger
    obtain ⟨hfingers, hnum, hposted, henabled, hby, hrp⟩ := pressForTap_fields (t := t) finger time
    have hup : t.handleFingerUp finger time =
        { t.pressForTap finger time with posted := (t.pressForTap finger time).posted ++ more } := by
      rw [handleFingerUp, if_neg hearly, heq]
    rw [hup] at hother ⊢
    constructor
    · intro hpressed
      have hpressed' : (t.pressForTap finger time).isButtonPressed .left = true := hpressed
      have hmore : (t.pressForTap finger time).pointerButtonLeftEnabled = true →
          (t.pressForTap finger time).fingerPointerButtonLeft = some finger.name →
          .left ∈ (t.pressForTap finger time).posted ++ more := by
        intro h1 h2
        exact List.mem_append_right _ (hleft h1 h2 hpressed')
      -- A button was pressed before, or the tap has just pressed it for this finger.
      rcases hby with ⟨hbefore, hfinger⟩ | ⟨hfinger, hen⟩
      · rcases h.left (hbefore ▸ hpressed') with hp | ⟨j, f, hj, hf⟩
        · exact .inl (List.mem_append_left _ (hposted ▸ hp))
        · by_cases hji : j = i
          · rw [hji, hi] at hj
            cases hj
            have hen := (hmay hf (hbefore ▸ hpressed')).1
            exact .inl (hmore (henabled ▸ hen) (hfinger ▸ hf))
          · exact .inr ⟨j, f, hother j f hj hji, hfinger ▸ hf⟩
      · exact .inl (hmore (henabled ▸ hen) hfinger)
    · intro hpressed
      have hpressed' : (t.pressForTap finger time).isButtonPressed .right = true := hpressed
      rcases hrp hpressed' with hbefore | ⟨h1, h2⟩
      · exact List.mem_append_left _ (hposted ▸ h.right hbefore)
      · exact List.mem_append_right _ (hright h2 h1 hpressed')

end Touchpad

namespace PadState

open Touchpad

/-! ## Pointers -/

theorem mem_ids_iff {ids : List Nat} {k id x : Nat} (hid : ids[k]? = some id) :
    x ∈ ids ↔ x = id ∨ x ∈ ids.eraseIdx k := by
  constructor
  · intro hx
    by_cases heq : x = id
    · exact .inl heq
    · exact .inr (Run.mem_eraseIdx_of_ne hx hid heq)
  · rintro (rfl | hx)
    · exact List.mem_of_getElem? hid
    · exact List.mem_of_mem_eraseIdx hx

theorem not_mem_eraseIdx {ids : List Nat} {k id : Nat} (hnodup : ids.Nodup)
    (hid : ids[k]? = some id) : id ∉ ids.eraseIdx k := by
  obtain ⟨hk, rfl⟩ := List.getElem?_eq_some_iff.mp hid
  have hperm := (List.getElem_cons_eraseIdx_perm hk).nodup_iff.mpr hnodup
  exact (List.nodup_cons.mp hperm).1

/-- A pointer that comes down was not down before. -/
theorem down_pointers {pointers : List Nat} {event : MotionEvent} {id : Nat}
    (h : TouchScreenState.Allowed pointers event)
    (haction : event.action = .down ∨ event.action = .pointerDown)
    (hid : event.ids[event.actionIndex]? = some id) :
    id ∉ pointers ∧
      ∀ x, x ∈ TouchScreenState.pointersAfter pointers event ↔ x = id ∨ x ∈ pointers := by
  obtain ⟨hnodup, _, _, hcase⟩ := h
  have hafter : TouchScreenState.pointersAfter pointers event = event.ids := by
    rcases haction with haction | haction <;> simp [TouchScreenState.pointersAfter, haction]
  have herase : event.ids.eraseIdx event.actionIndex = pointers := by
    rcases haction with haction | haction <;> simp only [haction] at hcase
    · obtain ⟨hnil, hone⟩ := hcase
      obtain ⟨x, hx⟩ := List.length_eq_one_iff.mp hone
      rw [hnil, hx]
      have hk : event.actionIndex = 0 := by
        have := (List.getElem?_eq_some_iff.mp hid).1
        omega
      simp [hk]
    · exact hcase.2
  refine ⟨herase ▸ not_mem_eraseIdx hnodup hid, fun x => ?_⟩
  rw [hafter, ← herase]
  exact mem_ids_iff hid

theorem up_pointers {pointers : List Nat} {event : MotionEvent} {id : Nat}
    (h : TouchScreenState.Allowed pointers event)
    (haction : event.action = .up ∨ event.action = .pointerUp)
    (hid : event.ids[event.actionIndex]? = some id) :
    ∀ x, x ∈ TouchScreenState.pointersAfter pointers event ↔ x ≠ id ∧ x ∈ pointers := by
  obtain ⟨hnodup, _, _, hcase⟩ := h
  have hids : event.ids = pointers := by
    rcases haction with haction | haction <;> simp only [haction] at hcase <;> exact hcase.1
  have hafter : TouchScreenState.pointersAfter pointers event =
      pointers.eraseIdx event.actionIndex := by
    rcases haction with haction | haction <;> simp [TouchScreenState.pointersAfter, haction]
  rw [hids] at hid hnodup
  intro x
  rw [hafter]
  have hnot := not_mem_eraseIdx hnodup hid
  constructor
  · intro hx
    refine ⟨?_, List.mem_of_mem_eraseIdx hx⟩
    rintro rfl
    exact hnot hx
  · rintro ⟨hne, hx⟩
    exact Run.mem_eraseIdx_of_ne hx hid hne

/-! ## The invariant -/

structure Inv (s : PadState) : Prop where
  count : s.pad.numFingers = fingerCount s.pad.fingers
  tracked : ∀ i : Fin 4, (s.pad.fingers i).isSome = true ↔ i.val ∈ s.pointers
  accounted : s.pad.Accounted

theorem Inv.tidy {s : PadState} (h : Inv s) : Tidy s where
  count := h.count
  released hpointers hposted := by
    have hnone : ∀ i, s.pad.fingers i = none := by
      intro i
      have := h.tracked i
      rw [hpointers] at this
      simpa using this
    constructor
    · by_contra hpressed
      rcases h.accounted.left (by simpa using hpressed) with hp | ⟨i, f, hi, _⟩
      · rw [hposted] at hp
        cases hp
      · rw [hnone i] at hi
        cases hi
    · by_contra hpressed
      have hp := h.accounted.right (by simpa using hpressed)
      rw [hposted] at hp
      cases hp

section
variable {s : PadState} {event : MotionEvent} {fromMouse : Bool}

/-- A finger that is not tracked changes no slot. -/
theorem Inv.untracked {pointers : List Nat} (h : Inv s)
    (hsame : ∀ x < 4, x ∈ pointers ↔ x ∈ s.pointers) : Inv { s with pointers } where
  count := h.count
  tracked i := (h.tracked i).trans (hsame i i.isLt).symm
  accounted := h.accounted

theorem fingerDown_accounted {t : Touchpad} {i : Fin 4} {point : Point} {time : Int}
    (h : t.Accounted) (hi : t.fingers i = none) :
    (t.fingerDown i point time fromMouse).Accounted ∧
      (t.fingerDown i point time fromMouse).fingers =
        Function.update t.fingers i (some (Finger.new t.nextName point time)) ∧
      (t.fingerDown i point time fromMouse).numFingers = t.numFingers + 1 := by
  have hocc := @Touchpad.Accounted.occupy _ _ (Finger.new t.nextName point time) h hi
  have h' : ({ t.setFinger i (some (Finger.new t.nextName point time)) with
      scrollAccumY := 0, scrolling := false, numFingers := t.numFingers + 1,
      nextName := t.nextName + 1 } : Touchpad).Accounted := ⟨hocc.left, hocc.right⟩
  unfold fingerDown handlerFingerDown
  dsimp only
  split_ifs
  · exact ⟨h'.moveTo, rfl, rfl⟩
  · exact ⟨h'.moveTo, rfl, rfl⟩
  · exact ⟨h', rfl, rfl⟩

theorem Inv.down {id : Nat} {point : Point} (h : Inv s)
    (hallowed : TouchScreenState.Allowed s.pointers event)
    (hpointer : event.pointers[event.actionIndex]? = some (id, point))
    (haction : event.action = .down ∨ event.action = .pointerDown) :
    Inv (s.step (.touch event fromMouse)) := by
  have hids : event.ids[event.actionIndex]? = some id := by simp [MotionEvent.ids, hpointer]
  obtain ⟨hnew, hafter⟩ := down_pointers hallowed haction hids
  by_cases hid : id < 4
  -- The slot of a new finger is free, as the pad tracks the pointers that are down.
  · have hfree : s.pad.fingers ⟨id, hid⟩ = none := by
      have := (h.tracked ⟨id, hid⟩).not.mpr hnew
      simpa using this
    have hpad : s.pad.onTouchEvent event fromMouse =
        s.pad.fingerDown ⟨id, hid⟩ point event.time fromMouse := by
      rcases haction with haction | haction <;> simp [onTouchEvent, hpointer, hid, haction]
    obtain ⟨haccounted, hfingers, hnum⟩ := @fingerDown_accounted fromMouse _ _ point event.time
        h.accounted hfree
    constructor
    · show (s.pad.onTouchEvent event fromMouse).numFingers = _
      simp only [step]
      rw [hpad, hfingers, hnum, fingerCount_update, hfree, h.count]
      simp
    · intro i
      simp only [step]
      rw [hpad, hfingers, hafter]
      by_cases hi : i = ⟨id, hid⟩
      · simp [hi]
      · rw [Function.update_of_ne hi, h.tracked i]
        have : i.val ≠ id := fun heq => hi (Fin.ext heq)
        simp [this]
    · simp only [step]
      rw [hpad]
      exact haccounted
  · have hpad : s.pad.onTouchEvent event fromMouse = s.pad := by
      simp [onTouchEvent, hpointer, hid]
    simp only [step, hpad]
    apply h.untracked
    intro x hx
    rw [hafter]
    have : x ≠ id := by omega
    simp [this]

/-- A finger that moves keeps its slot. -/
theorem Inv.update {i : Fin 4} {f g : Finger} (h : Inv s) (hi : s.pad.fingers i = some f)
    (hname : g.name = f.name) : Inv { s with pad := s.pad.setFinger i (some g) } where
  count := by
    show s.pad.numFingers = fingerCount (Function.update s.pad.fingers i (some g))
    rw [fingerCount_update, hi, h.count]
    simp
  tracked j := by
    show (Function.update s.pad.fingers i (some g) j).isSome = true ↔ _
    rw [← h.tracked j]
    by_cases hj : j = i
    · rw [hj, hi]
      simp
    · rw [Function.update_of_ne hj]
  accounted := h.accounted.update hi hname

theorem Inv.of_same {t' : Touchpad} (h : Inv s) (hsame : SameFingers s.pad t')
    (haccounted : t'.Accounted) : Inv { s with pad := t' } where
  count := by
    show t'.numFingers = fingerCount t'.fingers
    rw [hsame.numFingers, hsame.fingers]
    exact h.count
  tracked j := by
    show (t'.fingers j).isSome = true ↔ _
    rw [hsame.fingers]
    exact h.tracked j
  accounted := haccounted

theorem Inv.moveFinger {pointerId i : Fin 4} (h : Inv s) (hids : event.ids = s.pointers) :
    Inv { s with pad := moveFinger event pointerId fromMouse s.pad i } := by
  unfold Touchpad.moveFinger
  rcases hi : s.pad.fingers i with _ | f
  · exact h
  dsimp only
  split
  · next id point _ =>
    have h' := h.update (g := f.update point) hi rfl
    split_ifs
    · split
      · exact h'.of_same (same_moveTo _ _) h'.accounted.moveTo
      · exact h'
    · obtain ⟨hsame, hleft⟩ := handleFingerMove_same
        (t := s.pad.setFinger i (some (f.update point))) (f.update point)
      exact h'.of_same hsame
        (h'.accounted.of_same hsame hleft (i := i) (by simp [setFinger]))
  · next hfind =>
    -- the pointer is in the event, because it is down
    exfalso
    have hmem : i.val ∈ event.ids := by
      rw [hids, ← h.tracked i, hi]
      rfl
    obtain ⟨pointer, hpointer, hid⟩ := List.mem_map.mp hmem
    have := List.find?_eq_none.mp hfind pointer hpointer
    simp [hid] at this

theorem Inv.moves {pointerId : Fin 4} (h : Inv s) (hids : event.ids = s.pointers)
    (slots : List (Fin 4)) :
    Inv { s with pad := slots.foldl (Touchpad.moveFinger event pointerId fromMouse) s.pad } := by
  induction slots generalizing s with
  | nil => exact h
  | cons i slots ih =>
    exact @ih { s with pad := Touchpad.moveFinger event pointerId fromMouse s.pad i }
      (h.moveFinger hids) hids

theorem Inv.move {id : Nat} {point : Point} (h : Inv s)
    (hallowed : TouchScreenState.Allowed s.pointers event)
    (hpointer : event.pointers[event.actionIndex]? = some (id, point))
    (haction : event.action = .move) : Inv (s.step (.touch event fromMouse)) := by
  have hids : event.ids = s.pointers := by
    have := hallowed.2.2.2
    simp only [haction] at this
    exact this.1
  have hafter : TouchScreenState.pointersAfter s.pointers event = s.pointers := by
    simp [TouchScreenState.pointersAfter, haction]
  simp only [step, hafter, onTouchEvent, hpointer, haction]
  split_ifs
  · exact h.moves hids _
  · exact h

theorem fingerUp_accounted {t : Touchpad} {i : Fin 4} {f : Finger} {point : Point} {time : Int}
    (h : t.Accounted) (hi : t.fingers i = some f)
    (hmay : MayGoUp (t.setFinger i (some (f.update point))) (f.update point) time) :
    (t.fingerUp i point time).Accounted ∧
      (t.fingerUp i point time).fingers = Function.update t.fingers i none ∧
      (t.fingerUp i point time).numFingers = t.numFingers - 1 := by
  have h' := h.update (g := f.update point) hi rfl
  have hslot : (t.setFinger i (some (f.update point))).fingers i = some (f.update point) := by
    simp [setFinger]
  obtain ⟨hfingers, hnum⟩ := handleFingerUp_fields
    (t := t.setFinger i (some (f.update point))) (f.update point) time
  unfold Touchpad.fingerUp
  rw [hi]
  refine ⟨h'.fingerUp hslot hmay, ?_, ?_⟩
  · simp only [removeFinger, setFinger] at hfingers ⊢
    rw [hfingers]
    simp
  · simp only [removeFinger, setFinger] at hnum ⊢
    rw [hnum]

theorem Inv.up {id : Nat} {point : Point} (h : Inv s)
    (hallowed : TouchScreenState.Allowed s.pointers event)
    (hpointer : event.pointers[event.actionIndex]? = some (id, point))
    (haction : event.action = .up ∨ event.action = .pointerUp)
    (hgentle : ∀ hid : id < 4, HoldsLeft s.pad ⟨id, hid⟩ →
      s.pad.pointerButtonLeftEnabled = true ∧ ∀ f, s.pad.fingers ⟨id, hid⟩ = some f →
        (s.pad.setFinger ⟨id, hid⟩ (some (f.update point))).returnsEarly event.time = false) :
    Inv (s.step (.touch event fromMouse)) := by
  have hids : event.ids[event.actionIndex]? = some id := by simp [MotionEvent.ids, hpointer]
  have hafter := up_pointers hallowed haction hids
  have hdown : id ∈ s.pointers := by
    have hsame : event.ids = s.pointers := by
      have := hallowed.2.2.2
      rcases haction with haction | haction <;> simp only [haction] at this <;> exact this.1
    rw [← hsame]
    exact List.mem_of_getElem? hids
  by_cases hid : id < 4
  · obtain ⟨f, hf⟩ := Option.isSome_iff_exists.mp ((h.tracked ⟨id, hid⟩).mpr hdown)
    have hpad : s.pad.onTouchEvent event fromMouse =
        s.pad.fingerUp ⟨id, hid⟩ point event.time := by
      rcases haction with haction | haction <;> simp [onTouchEvent, hpointer, hid, haction]
    have hmay : MayGoUp (s.pad.setFinger ⟨id, hid⟩ (some (f.update point))) (f.update point)
        event.time := by
      intro hleft hpressed
      obtain ⟨hen, hearly⟩ := hgentle hid ⟨f, hf, hleft, hpressed⟩
      exact ⟨hen, hearly f hf⟩
    -- The coordinates are updated first, and then the finger goes up.
    obtain ⟨haccounted, hfingers, hnum⟩ := fingerUp_accounted h.accounted hf hmay
    constructor
    · simp only [step]
      rw [hpad, hfingers, hnum, fingerCount_update, hf, h.count]
      simp
    · intro i
      simp only [step]
      rw [hpad, hfingers, hafter]
      by_cases hi : i = ⟨id, hid⟩
      · simp [hi]
      · rw [Function.update_of_ne hi, h.tracked i]
        have : i.val ≠ id := fun heq => hi (Fin.ext heq)
        simp [this]
    · simp only [step]
      rw [hpad]
      exact haccounted
  -- The touchpad keeps four fingers, and does not look at a fifth.
  · have hpad : s.pad.onTouchEvent event fromMouse = s.pad := by
      simp [onTouchEvent, hpointer, hid]
    simp only [step, hpad]
    apply h.untracked
    intro x hx
    rw [hafter]
    have : x ≠ id := by omega
    simp [this]

theorem Inv.cancel {id : Nat} {point : Point} (h : Inv s)
    (hpointer : event.pointers[event.actionIndex]? = some (id, point))
    (haction : event.action = .cancel)
    (hleft : s.pad.isButtonPressed .left = true → .left ∈ s.pad.posted)
    (hothers : 4 ≤ id → ∀ other ∈ s.pointers, 4 ≤ other) :
    Inv (s.step (.touch event fromMouse)) := by
  have hafter : TouchScreenState.pointersAfter s.pointers event = [] := by
    simp [TouchScreenState.pointersAfter, haction]
  by_cases hid : id < 4
  · have hpad : s.pad.onTouchEvent event fromMouse =
        { s.pad with fingers := fun _ => none, numFingers := 0 } := by
      simp [onTouchEvent, hpointer, hid, haction]
    simp only [step, hpad, hafter]
    constructor
    · simp [fingerCount]
    · intro i
      simp
    · exact ⟨fun hpressed => .inl (hleft hpressed), h.accounted.right⟩
  · have hpad : s.pad.onTouchEvent event fromMouse = s.pad := by
      simp [onTouchEvent, hpointer, hid]
    simp only [step, hpad, hafter]
    apply h.untracked
    intro x hx
    have : x ∉ s.pointers := by
      intro hmem
      have := hothers (by omega) x hmem
      omega
    simp [this]

theorem Inv.step {input : Input} (h : Inv s) (hallowed : Allowed s input)
    (hgentle : Gentle s input) : Inv (s.step input) := by
  cases input with
  | touch event fromMouse =>
    have hallowed' : TouchScreenState.Allowed s.pointers event := hallowed
    obtain ⟨⟨id, point⟩, hpointer⟩ :
        ∃ pointer, event.pointers[event.actionIndex]? = some pointer :=
      ⟨_, List.getElem?_eq_getElem hallowed'.2.2.1⟩
    have hg := hgentle id point hpointer
    cases haction : event.action <;> simp only [haction] at hg
    case down => exact h.down hallowed' hpointer (.inl haction)
    case pointerDown => exact h.down hallowed' hpointer (.inr haction)
    case move => exact h.move hallowed' hpointer haction
    case up => exact h.up hallowed' hpointer (.inl haction) hg
    case pointerUp => exact h.up hallowed' hpointer (.inr haction) hg
    case cancel => exact h.cancel hpointer haction hg.1 hg.2
  | run i =>
    have hfields : (s.pad.runPosted i).fingers = s.pad.fingers ∧
        (s.pad.runPosted i).numFingers = s.pad.numFingers := by
      unfold runPosted
      split
      · exact ⟨rfl, rfl⟩
      · dsimp only
        split_ifs <;> exact ⟨rfl, rfl⟩
    constructor
    · show (s.pad.runPosted i).numFingers = fingerCount (s.pad.runPosted i).fingers
      rw [hfields.1, hfields.2]
      exact h.count
    · intro j
      show ((s.pad.runPosted i).fingers j).isSome = true ↔ _
      rw [hfields.1]
      exact h.tracked j
    · exact h.accounted.runPosted
  | setPointerButtonLeftEnabled enabled =>
    exact ⟨h.count, h.tracked, ⟨h.accounted.left, h.accounted.right⟩⟩
  | setPointerButtonRightEnabled enabled =>
    exact ⟨h.count, h.tracked, ⟨h.accounted.left, h.accounted.right⟩⟩
  | setTouchMode touchMode =>
    exact ⟨h.count, h.tracked, ⟨h.accounted.left, h.accounted.right⟩⟩

/-- A touchpad on which no finger has been. -/
structure Fresh (t : Touchpad) : Prop where
  fingers : ∀ i, t.fingers i = none
  numFingers : t.numFingers = 0
  left : t.isButtonPressed .left = false
  right : t.isButtonPressed .right = false

theorem inv_fresh {t : Touchpad} (h : Fresh t) : Inv ⟨[], t⟩ where
  count := by
    simp [h.numFingers, fingerCount, h.fingers]
  tracked i := by simp [h.fingers i]
  accounted := by
    constructor
    · intro hpressed
      rw [h.left] at hpressed
      cases hpressed
    · intro hpressed
      rw [h.right] at hpressed
      cases hpressed

theorem gentle_tidy {t : Touchpad} (ht : Fresh t) (inputs : List Input)
    (h : Run.Along PadState.step (fun s input => Allowed s input ∧ Gentle s input) ⟨[], t⟩ inputs) :
    ∀ earlier later, inputs = earlier ++ later →
      Tidy (Run.after PadState.step ⟨[], t⟩ earlier) := by
  intro earlier later heq
  rw [heq] at h
  have hinv := h.everywhere (I := Inv) (fun s input hs hok => hs.step hok.1 hok.2) (inv_fresh ht)
  exact hinv.tidy

/-! ## A drag that is cancelled -/

end

/-- A touchpad on a screen of 1000 by 1000 pixels. -/
def plainPad : Touchpad where
  fingers _ := none
  numFingers := 0
  sensitivity := 1
  pointerButtonLeftEnabled := true
  pointerButtonRightEnabled := true
  fingerPointerButtonLeft := none
  fingerPointerButtonRight := none
  scrollAccumY := 0
  scrolling := false
  fourFingersTapCallback := false
  touchMode := .touchScreen
  screenSide := 1000
  pointer := {
    buttonMask := 0
    x := 0
    y := 0
    pointerButton := none
    screenInfo := ⟨1000, 1000, 0, 0, 1, 1, 0, 0⟩ }
  posted := []
  events := []
  nextName := 0

theorem plainPad_fresh : Fresh plainPad where
  fingers _ := rfl
  numFingers := rfl
  left := by decide
  right := by decide

/-- Two fingers far from each other, of which the first moves. -/
def drag : List Input :=
  [.touch ⟨.down, 0, [(0, ⟨100, 100⟩)], 0⟩ false,
    .touch ⟨.pointerDown, 1, [(0, ⟨100, 100⟩), (1, ⟨600, 100⟩)], 100⟩ false,
    .touch ⟨.move, 0, [(0, ⟨120, 100⟩), (1, ⟨600, 100⟩)], 200⟩ false]

def cancelledDrag : List Input :=
  drag ++ [.touch ⟨.cancel, 0, [(0, ⟨120, 100⟩), (1, ⟨600, 100⟩)], 300⟩ false]

theorem cancelledDrag_allowed : Run.Along step Allowed ⟨[], plainPad⟩ cancelledDrag := by
  simp only [cancelledDrag, drag, List.cons_append, List.nil_append, Run.Along, Allowed,
    TouchScreenState.Allowed, MotionEvent.ids, step, TouchScreenState.pointersAfter]
  decide

/-- The left button stays down when a drag is cancelled. -/
theorem cancelled_drag_sticks :
    ¬∀ inputs, Run.Along step Allowed ⟨[], plainPad⟩ inputs →
      Tidy (Run.after step ⟨[], plainPad⟩ inputs) := by
  intro h
  have htidy := h cancelledDrag cancelledDrag_allowed
  have hreleased := (htidy.released (by decide +kernel) (by decide +kernel)).1
  revert hreleased
  decide +kernel

/-- The fingers of the drag go up and the delayed release runs. -/
def finishedDrag : List Input :=
  drag ++ [.touch ⟨.pointerUp, 0, [(0, ⟨120, 100⟩), (1, ⟨600, 100⟩)], 1500⟩ false,
    .touch ⟨.up, 0, [(1, ⟨600, 100⟩)], 1600⟩ false, .run 0]

theorem gentle_of_enabled {s : PadState} {event : MotionEvent} {fromMouse : Bool}
    (henabled : s.pad.pointerButtonLeftEnabled = true)
    (hcallback : s.pad.fourFingersTapCallback = false) (haction : event.action ≠ .cancel) :
    Gentle s (.touch event fromMouse) := by
  intro id point _
  have hearly : ∀ (h : id < 4) (f : Finger),
      (s.pad.setFinger ⟨id, h⟩ (some f)).returnsEarly event.time = false := by
    intro h f
    simp [returnsEarly, setFinger, hcallback]
  split
  · exact fun h _ => ⟨henabled, fun f _ => hearly h _⟩
  · exact fun h _ => ⟨henabled, fun f _ => hearly h _⟩
  · next hcancel => exact absurd hcancel haction
  · trivial

theorem finished_drag_tidy : Tidy (Run.after step ⟨[], plainPad⟩ finishedDrag) := by
  have hallowed : Run.Along step Allowed ⟨[], plainPad⟩ finishedDrag := by
    simp only [finishedDrag, drag, List.cons_append, List.nil_append, Run.Along, Allowed,
      TouchScreenState.Allowed, MotionEvent.ids, step, TouchScreenState.pointersAfter]
    decide
  obtain ⟨h₁, h₂, h₃, h₄, h₅, h₆, _⟩ := hallowed
  have hgentle : Run.Along step (fun s input => Allowed s input ∧ Gentle s input) ⟨[], plainPad⟩
      finishedDrag := by
    refine ⟨⟨h₁, gentle_of_enabled rfl rfl (by decide)⟩, ⟨h₂, gentle_of_enabled ?_ ?_ (by decide)⟩,
      ⟨h₃, gentle_of_enabled ?_ ?_ (by decide)⟩, ⟨h₄, gentle_of_enabled ?_ ?_ (by decide)⟩,
      ⟨h₅, gentle_of_enabled ?_ ?_ (by decide)⟩, ⟨h₆, trivial⟩, trivial⟩
    all_goals decide +kernel
  exact gentle_tidy plainPad_fresh finishedDrag hgentle finishedDrag [] (List.append_nil _).symm

end PadState

end XoDos
