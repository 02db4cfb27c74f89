import XoDos.TouchForwarding

/-!
# `TapGestureDetector`

Taps and long presses with one or more fingers.  A long press is a message that the first finger posts
and that every end of a finger, and every move beyond the slop, takes out of the queue.
-/

namespace XoDos.Gestures

structure PointF where
  x : Int
  y : Int
deriving DecidableEq

structure TapGestureDetector where
  /-- Where each pointer went down. -/
  mInitialPositions : Nat → Option PointF
  mPointerCount : Nat
  mInitialPoint : Option PointF
  mTapCancelled : Bool
  /-- The message of a long press is in the queue. -/
  posted : Bool

/-- A call of `onTap` or `onLongPress`. -/
structure Notification where
  pointerCount : Nat
  x : Int
  y : Int
deriving DecidableEq

namespace TapGestureDetector

variable (d : TapGestureDetector)

def new : TapGestureDetector := ⟨fun _ => none, 0, none, false, false⟩

def position (p : TouchForwarding.Pointer) : PointF := ⟨p.x, p.y⟩

/-- The pointer of an event: the first one, unless the event is about a further one. -/
def pointerOf (e : TouchForwarding.MotionEvent) (further : Bool) : TouchForwarding.Pointer :=
  if further then e.active else e.pointers.get ⟨0, Nat.zero_lt_of_lt e.actionIndex_lt⟩

def trackDownEvent (e : TouchForwarding.MotionEvent) : TapGestureDetector :=
  let p := pointerOf e (e.action = .pointerDown)
  { d with
    mInitialPositions := Function.update d.mInitialPositions p.id (some (position p))
    mInitialPoint := d.mInitialPoint.or (some (position p)) }

def trackUpEvent (e : TouchForwarding.MotionEvent) : TapGestureDetector :=
  let p := pointerOf e (e.action = .pointerUp)
  { d with mInitialPositions := Function.update d.mInitialPositions p.id none }

/-- The loop of `trackMoveEvent`, which stops at the first pointer that has moved too far. -/
def trackPointers (mTouchSlopSquare : Int) :
    List TouchForwarding.Pointer → (Nat → Option PointF) → (Nat → Option PointF) × Bool
  | [], positions => (positions, false)
  | p :: ps, positions =>
    match positions p.id with
    | none => trackPointers mTouchSlopSquare ps
        (Function.update positions p.id (some (position p)))
    | some downPoint =>
      let deltaX := p.x - downPoint.x
      let deltaY := p.y - downPoint.y
      if mTouchSlopSquare < deltaX * deltaX + deltaY * deltaY then (positions, true)
      else trackPointers mTouchSlopSquare ps positions

def trackMoveEvent (mTouchSlopSquare : Int) (e : TouchForwarding.MotionEvent) : TapGestureDetector × Bool :=
  let (positions, moved) := trackPointers mTouchSlopSquare e.pointers d.mInitialPositions
  ({ d with mInitialPositions := positions }, moved)

def cancelLongTouchNotification : TapGestureDetector := { d with posted := false }

def reset : TapGestureDetector :=
  { d.cancelLongTouchNotification with
    mPointerCount := 0
    mInitialPositions := fun _ => none
    mTapCancelled := false }

/-- `mInitialPoint.x` throws without a point. -/
def notification : Java Notification :=
  match d.mInitialPoint with
  | some p => .ok ⟨d.mPointerCount, p.x, p.y⟩
  | none => .error .nullPointer

/-- The detector after the event, and the tap that it reports. -/
def onTouchEvent (mTouchSlopSquare : Int) (e : TouchForwarding.MotionEvent) :
    Java (TapGestureDetector × Option Notification) :=
  match e.action with
  | .down => .ok ({ d.reset.trackDownEvent e with posted := true, mPointerCount := 1 }, none)
  | .pointerDown =>
    let d := d.trackDownEvent e
    .ok ({ d with mPointerCount := max d.mPointerCount e.pointers.length }, none)
  | .move =>
    if !d.mTapCancelled then
      let (d, moved) := d.trackMoveEvent mTouchSlopSquare e
      .ok (if moved then { d.cancelLongTouchNotification with mTapCancelled := true } else d, none)
    else .ok (d, none)
  | .up => do
    let d := d.cancelLongTouchNotification
    if !d.mTapCancelled then
      let tap ← d.notification
      return ({ d with mInitialPoint := none }, some tap)
    else
      return ({ d with mInitialPoint := none }, none)
  | .pointerUp => .ok (d.cancelLongTouchNotification.trackUpEvent e, none)
  | .cancel => .ok (d.cancelLongTouchNotification, none)
  | _ => .ok (d, none)

/-- `EventHandler.handleMessage`, with the long press that it reports. -/
def handleMessage : Java (TapGestureDetector × Notification) := do
  let d := { d with mTapCancelled := true, posted := false }
  let longPress ← d.notification
  return ({ d with mInitialPoint := none }, longPress)

/-- A gesture that may become a tap or a long press has its point; `touched` says whether a finger is on
the screen. -/
structure Ready (touched : Bool) : Prop where
  point : touched = true → d.mTapCancelled = false → d.mInitialPoint.isSome = true
  posted : d.posted = true → touched = true ∧ d.mTapCancelled = false

variable {d}

/-- An event neither throws nor posts a long press, unless it is the first finger; the last finger may
report a tap. -/
theorem Ready.onTouchEvent {touched : Bool} (h : d.Ready touched) (mTouchSlopSquare : Int)
    (e : TouchForwarding.MotionEvent) (hfits : e.action = .down ∨ touched = true) :
    ∃ d' tap, d.onTouchEvent mTouchSlopSquare e = .ok (d', tap) ∧
      d'.Ready (e.action ≠ .up && e.action ≠ .cancel) ∧
      (d'.posted = true → d.posted = true ∨ e.action = .down) ∧
      (tap.isSome = true → e.action = .up) := by
  unfold TapGestureDetector.onTouchEvent
  cases haction : e.action with
  | down =>
    refine ⟨_, _, rfl, ⟨fun _ _ => ?_, fun _ => ⟨rfl, rfl⟩⟩, fun _ => .inr rfl, fun hno => ?_⟩
    · simp [trackDownEvent]
    · cases hno
  | pointerDown =>
    have htouched : touched = true := by simpa [haction] using hfits
    refine ⟨_, _, rfl, ⟨fun _ _ => ?_, fun hposted => ⟨rfl, (h.posted hposted).2⟩⟩, .inl, fun hno => ?_⟩
    · simp [trackDownEvent]
    · cases hno
  | move =>
    have htouched : touched = true := by simpa [haction] using hfits
    simp only
    cases hcancelled : d.mTapCancelled with
    | true =>
      refine ⟨_, _, rfl, ⟨fun _ hno => ?_, fun hposted => ?_⟩, .inl, fun hno => ?_⟩
      · rw [hcancelled] at hno
        cases hno
      · rw [(h.posted hposted).2] at hcancelled
        cases hcancelled
      · cases hno
    | false =>
      simp only [Bool.not_false, if_true]
      cases hmoved : (trackMoveEvent d mTouchSlopSquare e).2 with
      | true =>
        refine ⟨_, _, rfl, ?_, ?_, fun hno => ?_⟩
        · simp only [if_true]
          exact ⟨fun _ hno => absurd hno (by simp), fun hno => absurd hno (by simp [cancelLongTouchNotification])⟩
        · simp [cancelLongTouchNotification]
        · cases hno
      | false =>
        refine ⟨_, _, rfl, ?_, ?_, fun hno => ?_⟩
        · simp only [Bool.false_eq_true, if_false]
          exact ⟨fun _ hno => h.point htouched hno, fun hposted => ⟨rfl, (h.posted hposted).2⟩⟩
        · simp only [Bool.false_eq_true, if_false]
          exact .inl
        · cases hno
  | up =>
    have htouched : touched = true := by simpa [haction] using hfits
    simp only
    cases hcancelled : d.mTapCancelled with
    | true =>
      refine ⟨{ d.cancelLongTouchNotification with mInitialPoint := none }, none, ?_, ?_, ?_, fun hno => ?_⟩
      · simp [cancelLongTouchNotification, hcancelled, pure, Except.pure]
      · exact ⟨fun hno => absurd hno (by simp), fun hno => absurd hno (by simp [cancelLongTouchNotification])⟩
      · simp [cancelLongTouchNotification]
      · cases hno
    | false =>
      -- Without a cancellation the first finger has been stored, so the report does not raise.
      obtain ⟨p, hp⟩ := Option.isSome_iff_exists.mp (h.point htouched hcancelled)
      refine ⟨{ d.cancelLongTouchNotification with mInitialPoint := none },
        some ⟨d.mPointerCount, p.x, p.y⟩, ?_, ?_, ?_, fun _ => trivial⟩
      · simp [cancelLongTouchNotification, hcancelled, notification, hp, pure, Except.pure]
      · exact ⟨fun hno => absurd hno (by simp), fun hno => absurd hno (by simp [cancelLongTouchNotification])⟩
      · simp [cancelLongTouchNotification]
  | pointerUp =>
    have htouched : touched = true := by simpa [haction] using hfits
    refine ⟨_, _, rfl, ⟨fun _ hno => h.point htouched hno, fun hno => ?_⟩, fun hno => ?_, fun hno => ?_⟩
    · cases hno
    · cases hno
    · cases hno
  | cancel =>
    refine ⟨_, _, rfl, ⟨fun hno => ?_, fun hno => ?_⟩, fun hno => ?_, fun hno => ?_⟩
    · simp at hno
    · cases hno
    · cases hno
    · cases hno
  | hoverMove | hoverEnter | hoverExit | other =>
    have htouched : touched = true := by simpa [haction] using hfits
    refine ⟨_, _, rfl, ⟨fun _ hno => h.point htouched hno, fun hposted => ⟨rfl, (h.posted hposted).2⟩⟩,
      .inl, fun hno => ?_⟩
    cases hno

/-- A posted long press is reported, and the gesture cannot become a tap any more. -/
theorem Ready.handleMessage {touched : Bool} (h : d.Ready touched) (hposted : d.posted = true) :
    ∃ d' longPress, d.handleMessage = .ok (d', longPress) ∧ d'.Ready touched ∧ d'.posted = false := by
  obtain ⟨htouched, hcancelled⟩ := h.posted hposted
  obtain ⟨p, hp⟩ := Option.isSome_iff_exists.mp (h.point htouched hcancelled)
  refine ⟨{ d with mTapCancelled := true, posted := false, mInitialPoint := none },
    ⟨d.mPointerCount, p.x, p.y⟩, ?_, ⟨fun _ hno => ?_, fun hno => ?_⟩, rfl⟩
  · simp [TapGestureDetector.handleMessage, notification, hp, pure, Except.pure]
  · cases hno
  · cases hno

end TapGestureDetector

end XoDos.Gestures
