import XoDos.Run
import XoDos.TapGestureDetector

/-!
# The reports of a gesture

A gesture begins with its first finger and ends when the last one goes up or when it is cancelled.  It is
reported at most once, with the largest number of its fingers.  A cancelled gesture leaves its point
behind, and the next gesture is reported there.
-/

namespace XoDos.Gestures

inductive TapInput where
  | touch (e : TouchForwarding.MotionEvent)
  /-- The message of the long press arrives. -/
  | longPress

/-- What the fingers have done in a gesture. -/
structure Gesture where
  /-- Where the first finger went down. -/
  start : PointF
  fingers : Nat
  largest : Nat
  reports : Nat
  /-- The point that the detector had before the gesture. -/
  found : Option PointF
  /-- The long press has been reported, and no finger has gone down since. -/
  cleared : Bool

structure Session where
  detector : TapGestureDetector
  gesture : Option Gesture

namespace Session

def new : Session := ⟨TapGestureDetector.new, none⟩

variable (mTouchSlopSquare : Int) (s : Session)

/-- The detector afterwards, and what it reports. -/
def respond : TapInput → Java (TapGestureDetector × Option Notification)
  | .touch e => s.detector.onTouchEvent mTouchSlopSquare e
  | .longPress => s.detector.handleMessage.map fun (d, n) => (d, some n)

/-- The gesture after an input. -/
def track : TapInput → Option Gesture
  | .touch e =>
    match e.action with
    | .down => some ⟨TapGestureDetector.position (TapGestureDetector.pointerOf e false), 1, 1, 0,
        s.detector.mInitialPoint, false⟩
    | .pointerDown => s.gesture.map fun g =>
        { g with
          fingers := e.pointers.length
          largest := max g.largest e.pointers.length
          cleared := false }
    | .pointerUp => s.gesture.map fun g => { g with fingers := g.fingers - 1 }
    | .up | .cancel => none
    | _ => s.gesture
  | .longPress => s.gesture.map fun g => { g with reports := g.reports + 1, cleared := true }

/-- A detector that throws stays as it is. -/
def next (input : TapInput) : Session :=
  match s.respond mTouchSlopSquare input with
  | .ok (d, _) => ⟨d, s.track input⟩
  | .error _ => s

/-- The inputs that come: the fingers of an event are those that are on the screen, and the message is in
the queue. -/
def Fits (s : Session) : TapInput → Prop
  | .touch e =>
    match e.action with
    | .down => s.gesture = none ∧ e.pointers.length = 1
    | .pointerDown => ∃ g, s.gesture = some g ∧ e.pointers.length = g.fingers + 1
    | .pointerUp => ∃ g, s.gesture = some g ∧ e.pointers.length = g.fingers ∧ 1 < g.fingers
    | .up => ∃ g, s.gesture = some g ∧ e.pointers.length = g.fingers ∧ g.fingers = 1
    | .move | .cancel => ∃ g, s.gesture = some g ∧ e.pointers.length = g.fingers
    | _ => True
  | .longPress => s.detector.posted = true

/-- Nothing is thrown, and what is reported is the first report of the gesture, with its first point and
the largest number of its fingers. -/
def Right (s : Session) (input : TapInput) : Prop :=
  ∃ d report, s.respond mTouchSlopSquare input = .ok (d, report) ∧
    ∀ n, report = some n → ∃ g, s.gesture = some g ∧ g.reports = 0 ∧ n = ⟨g.largest, g.start.x, g.start.y⟩

/-- The inputs with a report: the last finger of a tap, and the message. -/
def Reports (s : Session) : TapInput → Prop
  | .touch e => e.action = .up ∧ s.detector.mTapCancelled = false
  | .longPress => True

/-- A gesture that is reported found no point, or its own. -/
def Clean (s : Session) (input : TapInput) : Prop :=
  s.Reports input → ∀ g, s.gesture = some g → g.found = none ∨ g.found = some g.start

/-- A gesture is only cancelled between its long press and a further finger. -/
def Late (s : Session) : TapInput → Prop
  | .touch e => e.action = .cancel → ∃ g, s.gesture = some g ∧ g.cleared = true
  | .longPress => True

/-! ## What the detector knows about the gesture -/

/-- The detector follows a gesture. -/
structure Follows (d : TapGestureDetector) (g : Gesture) : Prop where
  count : d.mPointerCount = g.largest
  point : g.reports = 0 → d.mInitialPoint = g.found.or (some g.start)
  posted : d.posted = true → g.reports = 0
  cancelled : d.mTapCancelled = false → g.reports = 0

structure Tracked (s : Session) : Prop where
  idle : s.gesture = none → s.detector.posted = false
  follows : ∀ g, s.gesture = some g → Follows s.detector g

variable {mTouchSlopSquare s}

theorem tracked_new : Tracked new := ⟨fun _ => rfl, fun _ h => by cases h⟩

/-- The report of a gesture that the detector follows. -/
theorem Follows.notification {d : TapGestureDetector} {g : Gesture} (h : Follows d g)
    (hreports : g.reports = 0) :
    d.notification = .ok ⟨g.largest, (g.found.getD g.start).x, (g.found.getD g.start).y⟩ := by
  have hpoint : d.mInitialPoint = some (g.found.getD g.start) := by
    rw [h.point hreports]
    cases g.found <;> rfl
  rw [TapGestureDetector.notification, hpoint]
  dsimp only
  rw [h.count]

/-- It is right exactly when the point is that of the gesture. -/
theorem notification_eq_iff {g : Gesture} :
    (⟨g.largest, (g.found.getD g.start).x, (g.found.getD g.start).y⟩ : Notification) =
      ⟨g.largest, g.start.x, g.start.y⟩ ↔ g.found = none ∨ g.found = some g.start := by
  cases hfound : g.found with
  | none => simp
  | some p =>
    cases p
    cases g.start
    simp

/-! ## Steps -/

theorem next_eq {input : TapInput} {d : TapGestureDetector} {report : Option Notification}
    (h : s.respond mTouchSlopSquare input = .ok (d, report)) :
    s.next mTouchSlopSquare input = ⟨d, s.track input⟩ := by
  rw [next, h]

/-- Without a report there is nothing to be wrong. -/
theorem right_of_silent {input : TapInput} {d : TapGestureDetector}
    (h : s.respond mTouchSlopSquare input = .ok (d, none)) (hsilent : ¬s.Reports input) :
    s.Right mTouchSlopSquare input ↔ s.Clean input := by
  constructor
  · intro _ hreports
    exact absurd hreports hsilent
  · intro _
    exact ⟨d, none, h, fun _ hno => by cases hno⟩

/-- The report of a gesture is right when it found no other point. -/
theorem right_of_report {input : TapInput} {d : TapGestureDetector} {g : Gesture}
    (hg : s.gesture = some g) (hreports : g.reports = 0) (hreport : s.Reports input)
    (h : s.respond mTouchSlopSquare input =
      .ok (d, some ⟨g.largest, (g.found.getD g.start).x, (g.found.getD g.start).y⟩)) :
    s.Right mTouchSlopSquare input ↔ s.Clean input := by
  constructor
  · rintro ⟨d', report, hrespond, hright⟩ - g' hg'
    rw [h] at hrespond
    cases hrespond
    obtain ⟨g₀, hg₀, -, hequal⟩ := hright _ rfl
    rw [hg] at hg₀ hg'
    cases hg₀
    cases hg'
    exact notification_eq_iff.mp hequal
  · intro hclean
    refine ⟨d, _, h, ?_⟩
    rintro n hn
    cases hn
    exact ⟨g, hg, hreports, notification_eq_iff.mpr (hclean hreport g hg)⟩

/-- The long press. -/
theorem Tracked.longPress (h : Tracked s) (hfits : s.Fits .longPress) :
    Tracked (s.next mTouchSlopSquare .longPress) ∧
      (s.Right mTouchSlopSquare .longPress ↔ s.Clean .longPress) := by
  have hposted : s.detector.posted = true := hfits
  cases hg : s.gesture with
  | none =>
    rw [h.idle hg] at hposted
    cases hposted
  | some g =>
    have hfollows := h.follows g hg
    have hreports := hfollows.posted hposted
    have hnotification : TapGestureDetector.notification
        { s.detector with mTapCancelled := true, posted := false } =
        .ok ⟨g.largest, (g.found.getD g.start).x, (g.found.getD g.start).y⟩ :=
      hfollows.notification hreports
    have hrespond : s.respond mTouchSlopSquare .longPress = .ok
        ({ s.detector with mTapCancelled := true, posted := false, mInitialPoint := none },
          some ⟨g.largest, (g.found.getD g.start).x, (g.found.getD g.start).y⟩) := by
      rw [respond, TapGestureDetector.handleMessage]
      dsimp only
      rw [hnotification]
      rfl
    rw [next_eq hrespond]
    refine ⟨⟨fun hno => ?_, ?_⟩, right_of_report hg hreports trivial hrespond⟩
    · rw [track, hg] at hno
    · intro g' hg'
      rw [track, hg] at hg'
      cases hg'
      exact ⟨hfollows.count, fun hno => absurd hno (Nat.succ_ne_zero _), fun hno => (by cases hno),
        fun hno => (by cases hno)⟩

/-- The last finger. -/
theorem Tracked.up (h : Tracked s) {e : TouchForwarding.MotionEvent} (haction : e.action = .up)
    (hfits : s.Fits (.touch e)) :
    Tracked (s.next mTouchSlopSquare (.touch e)) ∧
      (s.Right mTouchSlopSquare (.touch e) ↔ s.Clean (.touch e)) := by
  simp only [Fits, haction] at hfits
  obtain ⟨g, hg, -⟩ := hfits
  have hfollows := h.follows g hg
  have htrack : s.track (.touch e) = none := by
    unfold track
    simp only [haction]
  have hended : ∀ d : TapGestureDetector, d.posted = false → Tracked ⟨d, none⟩ :=
    fun d hd => ⟨fun _ => hd, fun g' hg' => by cases hg'⟩
  -- A cancelled tap is silent, and any other reports the point that is stored and the largest count.
  cases hcancelled : s.detector.mTapCancelled with
  | true =>
    have hrespond : s.respond mTouchSlopSquare (.touch e) = .ok
        ({ s.detector.cancelLongTouchNotification with mInitialPoint := none }, none) := by
      unfold respond TapGestureDetector.onTouchEvent TapGestureDetector.cancelLongTouchNotification
      simp only [haction, hcancelled]
      rfl
    rw [next_eq hrespond, htrack]
    refine ⟨hended _ rfl, right_of_silent hrespond ?_⟩
    rintro ⟨-, hno⟩
    rw [hcancelled] at hno
    cases hno
  | false =>
    have hreports := hfollows.cancelled hcancelled
    have hnotification : s.detector.cancelLongTouchNotification.notification =
        .ok ⟨g.largest, (g.found.getD g.start).x, (g.found.getD g.start).y⟩ :=
      hfollows.notification hreports
    have hrespond : s.respond mTouchSlopSquare (.touch e) = .ok
        ({ s.detector.cancelLongTouchNotification with mInitialPoint := none },
          some ⟨g.largest, (g.found.getD g.start).x, (g.found.getD g.start).y⟩) := by
      unfold respond TapGestureDetector.onTouchEvent
      simp only [haction]
      rw [hnotification]
      unfold TapGestureDetector.cancelLongTouchNotification
      simp only [hcancelled]
      rfl
    rw [next_eq hrespond, htrack]
    exact ⟨hended _ rfl, right_of_report hg hreports ⟨haction, hcancelled⟩ hrespond⟩

/-- A detector that only forgets the message, or cancels, still follows a gesture of as many fingers. -/
theorem Follows.keep {d d' : TapGestureDetector} {g g' : Gesture} (h : Follows d g)
    (hcount : d'.mPointerCount = g'.largest) (hpoint : d'.mInitialPoint = d.mInitialPoint)
    (hposted : d'.posted = true → d.posted = true)
    (hcancelled : d'.mTapCancelled = false → d.mTapCancelled = false)
    (hg : g'.reports = g.reports ∧ g'.found = g.found ∧ g'.start = g.start) : Follows d' g' := by
  obtain ⟨hreports, hfound, hstart⟩ := hg
  refine ⟨hcount, ?_, ?_, ?_⟩
  · rw [hreports, hpoint, hfound, hstart]
    exact h.point
  · rw [hreports]
    exact fun hno => h.posted (hposted hno)
  · rw [hreports]
    exact fun hno => h.cancelled (hcancelled hno)

/-- The other events report nothing. -/
theorem Tracked.quiet (h : Tracked s) {e : TouchForwarding.MotionEvent} (hup : e.action ≠ .up)
    (hfits : s.Fits (.touch e)) : ∃ d, s.respond mTouchSlopSquare (.touch e) = .ok (d, none) ∧
      Tracked ⟨d, s.track (.touch e)⟩ := by
  cases haction : e.action with
  | up => exact absurd haction hup
  | down =>
    simp only [respond, TapGestureDetector.onTouchEvent, track, haction]
    refine ⟨_, rfl, fun hno => (by cases hno), ?_⟩
    intro g hg
    cases hg
    refine ⟨rfl, fun _ => ?_, fun _ => rfl, fun _ => rfl⟩
    simp only [TapGestureDetector.trackDownEvent, haction]
    rfl
  | pointerDown =>
    simp only [Fits, haction] at hfits
    obtain ⟨g, hg, -⟩ := hfits
    have hfollows := h.follows g hg
    simp only [respond, TapGestureDetector.onTouchEvent, track, haction, hg]
    refine ⟨_, rfl, fun hno => (by cases hno), ?_⟩
    intro g' hg'
    cases hg'
    refine ⟨?_, fun hreports => ?_, hfollows.posted, hfollows.cancelled⟩
    · simp only [TapGestureDetector.trackDownEvent, hfollows.count]
    · simp only [TapGestureDetector.trackDownEvent, hfollows.point hreports]
      cases g.found <;> rfl
  | move =>
    simp only [Fits, haction] at hfits
    obtain ⟨g, hg, -⟩ := hfits
    have hfollows := h.follows g hg
    simp only [respond, TapGestureDetector.onTouchEvent, track, haction]
    cases hcancelled : s.detector.mTapCancelled with
    | true => exact ⟨_, rfl, h⟩
    | false =>
      refine ⟨_, rfl, fun hno => ?_, ?_⟩
      · rw [hg] at hno
        cases hno
      · intro g' hg'
        rw [hg] at hg'
        cases hg'
        -- A finger that has moved too far cancels the tap, as it ends what may be reported.
        cases hmoved : (s.detector.trackMoveEvent mTouchSlopSquare e).2 with
        | true =>
          rw [if_pos rfl]
          exact hfollows.keep hfollows.count rfl (fun hno => by cases hno) (fun hno => by cases hno)
            ⟨rfl, rfl, rfl⟩
        | false =>
          rw [if_neg Bool.false_ne_true]
          exact hfollows.keep hfollows.count rfl id id ⟨rfl, rfl, rfl⟩
  | pointerUp =>
    simp only [Fits, haction] at hfits
    obtain ⟨g, hg, -⟩ := hfits
    have hfollows := h.follows g hg
    simp only [respond, TapGestureDetector.onTouchEvent, track, haction, hg]
    refine ⟨_, rfl, fun hno => (by cases hno), ?_⟩
    intro g' hg'
    cases hg'
    exact hfollows.keep hfollows.count rfl (fun hno => by cases hno) id ⟨rfl, rfl, rfl⟩
  | cancel =>
    simp only [respond, TapGestureDetector.onTouchEvent, track, haction]
    exact ⟨_, rfl, fun _ => rfl, fun g hg => by cases hg⟩
  | hoverMove | hoverEnter | hoverExit | other =>
    simp only [respond, TapGestureDetector.onTouchEvent, track, haction]
    exact ⟨_, rfl, h⟩

/-- Every input that fits is taken, and what it reports is as it should be exactly when the gesture found
no other point. -/
theorem Tracked.step (h : Tracked s) {input : TapInput} (hfits : s.Fits input) :
    Tracked (s.next mTouchSlopSquare input) ∧ (s.Right mTouchSlopSquare input ↔ s.Clean input) := by
  cases input with
  | longPress => exact h.longPress hfits
  | touch e =>
    by_cases hup : e.action = .up
    · exact h.up hup hfits
    have hsilent : ¬s.Reports (.touch e) := fun hreports => hup hreports.1
    obtain ⟨d, hrespond, htracked⟩ := h.quiet hup hfits
    rw [next_eq hrespond]
    exact ⟨htracked, right_of_silent hrespond hsilent⟩

/-! ## Runs -/

/-- No gesture has found a point, and none is left behind. -/
structure Fresh (s : Session) : Prop where
  idle : s.gesture = none → s.detector.mInitialPoint = none
  found : ∀ g, s.gesture = some g → g.found = none
  cleared : ∀ g, s.gesture = some g → g.cleared = true → s.detector.mInitialPoint = none

theorem fresh_new : Fresh new := ⟨fun _ => rfl, fun _ h => (by cases h), fun _ h => (by cases h)⟩

/-- The last finger and a long press clear the point, and only a finger that goes down sets it. -/
theorem respond_point {input : TapInput} {d : TapGestureDetector} {report : Option Notification}
    (h : s.respond mTouchSlopSquare input = .ok (d, report)) :
    match input with
    | .longPress => d.mInitialPoint = none
    | .touch e => (e.action = .up → d.mInitialPoint = none) ∧
      (e.action ≠ .up → e.action ≠ .down → e.action ≠ .pointerDown →
        d.mInitialPoint = s.detector.mInitialPoint) := by
  cases input with
  | longPress =>
    simp only [respond, TapGestureDetector.handleMessage] at h
    cases hnotification : TapGestureDetector.notification
        { s.detector with mTapCancelled := true, posted := false } with
    | error e =>
      rw [hnotification] at h
      cases h
    | ok n =>
      rw [hnotification] at h
      cases h
      rfl
  | touch e =>
    dsimp only
    simp only [respond, TapGestureDetector.onTouchEvent] at h
    cases haction : e.action with
    | up =>
      refine ⟨fun _ => ?_, fun hno => absurd rfl hno⟩
      simp only [haction] at h
      -- A cancelled tap clears the point as well; only its report is left out.
      cases hcancelled : s.detector.cancelLongTouchNotification.mTapCancelled with
      | true =>
        rw [hcancelled] at h
        cases h
        rfl
      | false =>
        rw [hcancelled] at h
        obtain ⟨n, -, hn⟩ := bind_eq_ok.mp h
        cases hn
        rfl
    | move =>
      refine ⟨fun hno => (by cases hno), fun _ _ _ => ?_⟩
      simp only [haction] at h
      cases hcancelled : s.detector.mTapCancelled with
      | true =>
        rw [hcancelled] at h
        cases h
        rfl
      | false =>
        rw [hcancelled] at h
        cases h
        cases (s.detector.trackMoveEvent mTouchSlopSquare e).2 <;> rfl
    | down => exact ⟨fun hno => (by cases hno), fun _ hno => absurd rfl hno⟩
    | pointerDown => exact ⟨fun hno => (by cases hno), fun _ _ hno => absurd rfl hno⟩
    | pointerUp | cancel | hoverMove | hoverEnter | hoverExit | other =>
      refine ⟨fun hno => (by cases hno), fun _ _ _ => ?_⟩
      simp only [haction] at h
      cases h
      rfl

/-- A gesture that is cancelled late leaves no point behind. -/
theorem Fresh.step (h : Fresh s) {input : TapInput} (hfits : s.Fits input) (hlate : s.Late input) :
    Fresh (s.next mTouchSlopSquare input) := by
  cases hrespond : s.respond mTouchSlopSquare input with
  | error e =>
    rw [next, hrespond]
    exact h
  | ok result =>
    obtain ⟨d, report⟩ := result
    have hpoint := respond_point hrespond
    rw [next_eq hrespond]
    cases input with
    | longPress =>
      refine ⟨fun _ => hpoint, ?_, fun _ _ _ => hpoint⟩
      intro g hg
      obtain ⟨g₀, hg₀, rfl⟩ := Option.map_eq_some_iff.mp hg
      exact h.found g₀ hg₀
    | touch e =>
      dsimp only at hpoint
      cases haction : e.action with
      | up =>
        have htrack : s.track (.touch e) = none := by simp only [track, haction]
        rw [htrack]
        exact ⟨fun _ => hpoint.1 haction, fun _ hno => (by cases hno), fun _ hno => (by cases hno)⟩
      | cancel =>
        have htrack : s.track (.touch e) = none := by simp only [track, haction]
        -- CANCEL keeps the stored point, so it must have been cleared before.
        obtain ⟨g, hg, hcleared⟩ := hlate haction
        have hsame := hpoint.2 (by rw [haction]; decide) (by rw [haction]; decide) (by rw [haction]; decide)
        rw [htrack]
        refine ⟨fun _ => ?_, fun _ hno => (by cases hno), fun _ hno => (by cases hno)⟩
        rw [hsame]
        exact h.cleared g hg hcleared
      | down =>
        simp only [Fits, haction] at hfits
        simp only [track, haction]
        refine ⟨fun hno => (by cases hno), fun g hg => ?_, fun g hg hcleared => ?_⟩
        · cases hg
          exact h.idle hfits.1
        · cases hg
          cases hcleared
      | pointerDown =>
        simp only [Fits, haction] at hfits
        obtain ⟨g₀, hg₀, -⟩ := hfits
        simp only [track, haction, hg₀]
        refine ⟨fun hno => (by cases hno), fun g hg => ?_, fun g hg hcleared => ?_⟩
        · cases hg
          exact h.found g₀ hg₀
        · cases hg
          cases hcleared
      | pointerUp =>
        have hsame := hpoint.2 (by rw [haction]; decide) (by rw [haction]; decide) (by rw [haction]; decide)
        simp only [Fits, haction] at hfits
        obtain ⟨g₀, hg₀, -⟩ := hfits
        simp only [track, haction, hg₀]
        refine ⟨fun hno => (by cases hno), fun g hg => ?_, fun g hg hcleared => ?_⟩
        · cases hg
          exact h.found g₀ hg₀
        · cases hg
          rw [hsame]
          exact h.cleared g₀ hg₀ hcleared
      | move | hoverMove | hoverEnter | hoverExit | other =>
        have htrack : s.track (.touch e) = s.gesture := by simp only [track, haction]
        have hsame := hpoint.2 (by rw [haction]; decide) (by rw [haction]; decide) (by rw [haction]; decide)
        rw [htrack]
        refine ⟨fun hno => ?_, h.found, fun g hg hcleared => ?_⟩
        · rw [hsame]
          exact h.idle hno
        · rw [hsame]
          exact h.cleared g hg hcleared

/-- In a run of inputs that fit, every report is right exactly when no gesture that is reported found the
point of an earlier one; and so it is when gestures are only cancelled late. -/
theorem reports_iff (mTouchSlopSquare : Int) (inputs : List TapInput)
    (hfits : Run.Along (next mTouchSlopSquare) Fits new inputs) :
    (Run.Along (next mTouchSlopSquare) (Right mTouchSlopSquare) new inputs ↔
      Run.Along (next mTouchSlopSquare) Clean new inputs) ∧
    (Run.Along (next mTouchSlopSquare) Late new inputs →
      Run.Along (next mTouchSlopSquare) (Right mTouchSlopSquare) new inputs) := by
  have hsame : Run.Along (next mTouchSlopSquare)
        (fun s i => s.Fits i ∧ s.Right mTouchSlopSquare i) new inputs ↔
      Run.Along (next mTouchSlopSquare) (fun s i => s.Fits i ∧ s.Clean i) new inputs := by
    apply Run.along_congr (I := Tracked)
    · intro s i hs
      apply and_congr_right
      intro hi
      exact (hs.step hi).2
    · intro s i hs hi
      exact (hs.step hi.1).1
    · exact tracked_new
  rw [Run.along_and, Run.along_and] at hsame
  have hiff : Run.Along (next mTouchSlopSquare) (Right mTouchSlopSquare) new inputs ↔
      Run.Along (next mTouchSlopSquare) Clean new inputs := by tauto
  refine ⟨hiff, fun hlate => hiff.mpr ?_⟩
  apply (Run.along_and.mpr ⟨hfits, hlate⟩).all (I := Fresh)
  · intro s i hs _ _ g hg
    exact Or.inl (hs.found g hg)
  · intro s i hs hi
    exact hs.step hi.1 hi.2
  · exact fresh_new

/-- A finger at a place. -/
def finger (action : TouchForwarding.Action) (x y : Int) : TouchForwarding.MotionEvent :=
  ⟨action, [⟨0, x, y⟩], 0, Nat.one_pos, by simp⟩

/-- Two taps. -/
def taps : List TapInput :=
  [.touch (finger .down 1 2), .touch (finger .up 1 2), .touch (finger .down 30 40),
    .touch (finger .up 30 40)]

theorem taps_right : Run.Along (next 64) (Right 64) new taps := by
  apply (reports_iff 64 taps _).2
  · refine ⟨?_, ?_, ?_, ?_, trivial⟩ <;> exact fun hno => absurd hno (by decide)
  · exact ⟨⟨rfl, rfl⟩, ⟨_, rfl, rfl, rfl⟩, ⟨rfl, rfl⟩, ⟨_, rfl, rfl, rfl⟩, trivial⟩

/-- A gesture that is cancelled, and a tap. -/
def cancelled : List TapInput :=
  [.touch (finger .down 1 2), .touch (finger .cancel 1 2), .touch (finger .down 30 40),
    .touch (finger .up 30 40)]

/-- The tap is reported where the cancelled gesture began. -/
theorem cancelled_wrong : Run.Along (next 64) Fits new cancelled ∧
    ¬Run.Along (next 64) (Right 64) new cancelled := by
  refine ⟨⟨⟨rfl, rfl⟩, ⟨_, rfl, rfl⟩, ⟨rfl, rfl⟩, ⟨_, rfl, rfl, rfl⟩, trivial⟩, ?_⟩
  rintro ⟨-, -, -, ⟨d, report, hrespond, hright⟩, -⟩
  have hreport : ((next 64 (next 64 (next 64 new (.touch (finger .down 1 2)))
      (.touch (finger .cancel 1 2))) (.touch (finger .down 30 40))).respond 64
      (.touch (finger .up 30 40))).map Prod.snd = .ok (some ⟨1, 1, 2⟩) := rfl
  rw [hrespond] at hreport
  cases hreport
  obtain ⟨g, hg, -, hequal⟩ := hright _ rfl
  cases hg
  cases hequal

end Session

end XoDos.Gestures
