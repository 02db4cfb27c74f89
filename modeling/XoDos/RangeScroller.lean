import XoDos.Run
import XoDos.ElementTouch

/-!
# The scroller of a range button

A touch that is held presses a key from a timer: the timer thread posts the press to the
main thread.  A tap presses the key when the finger goes up and posts the release with a
delay.  The main thread and the timer threads interleave in any way, and `cancel` does not
stop a task that has started.

Coordinates are rationals.
-/

namespace XoDos

/-- `a % b` of floating point numbers. -/
def floatRem (a b : ℚ) : ℚ := a - b * truncate (a / b)

namespace ElementRange

def max : ElementRange → Nat
  | .fromAToZ => 26
  | .from0To9 => 10
  | .fromF1ToF12 => 12
  | .fromNp0ToNp9 => 10

/-- The bindings in the order of their indices. -/
def bindings : ElementRange → List Binding
  | .fromAToZ =>
    [.keyA, .keyB, .keyC, .keyD, .keyE, .keyF, .keyG, .keyH, .keyI, .keyJ, .keyK, .keyL, .keyM,
      .keyN, .keyO, .keyP, .keyQ, .keyR, .keyS, .keyT, .keyU, .keyV, .keyW, .keyX, .keyY, .keyZ]
  | .from0To9 => [.key1, .key2, .key3, .key4, .key5, .key6, .key7, .key8, .key9, .key0]
  | .fromF1ToF12 =>
    [.keyF1, .keyF2, .keyF3, .keyF4, .keyF5, .keyF6, .keyF7, .keyF8, .keyF9, .keyF10, .keyF11,
      .keyF12]
  | .fromNp0ToNp9 =>
    [.keyKp1, .keyKp2, .keyKp3, .keyKp4, .keyKp5, .keyKp6, .keyKp7, .keyKp8, .keyKp9, .keyKp0]

end ElementRange

/-- What the scroller reads of its element. -/
structure RangeButton where
  boundingBox : Rect
  range : ElementRange
  horizontal : Bool
  bindingCount : Nat

/-- A call of `handleInputEvent` for a touch.  Touches are numbered. -/
structure KeyCall where
  touch : Nat
  binding : Binding
  isActionDown : Bool
deriving DecidableEq

/-- A runnable on the main thread. -/
inductive Posted where
  /-- Presses the binding that the scroller has when it runs. -/
  | press (touch : Nat)
  | release (touch : Nat) (binding : Binding)
deriving DecidableEq

/-- A task that a timer thread has started.  It tests `scrolling` before it posts. -/
structure HoldTask where
  touch : Nat
  tested : Bool
deriving DecidableEq

structure RangeScroller where
  button : RangeButton
  scrollOffset : ℚ
  currentOffset : ℚ
  lastPosition : ℚ
  touchTime : Int
  binding : Binding
  isActionDown : Bool
  scrolling : Bool
  /-- The task that the timer has not started. -/
  timer : Option Nat
  /-- The number of the last touch. -/
  touch : Nat
  tasks : List HoldTask
  posted : List Posted
  log : List KeyCall

namespace RangeScroller

def new (button : RangeButton) : RangeScroller where
  button := button
  scrollOffset := 0
  currentOffset := 0
  lastPosition := 0
  touchTime := 0
  binding := .none
  isActionDown := false
  scrolling := false
  timer := none
  touch := 0
  tasks := []
  posted := []
  log := []

variable (s : RangeScroller)

def getElementSize : ℚ :=
  (Max.max s.button.boundingBox.width s.button.boundingBox.height : ℚ) / s.button.bindingCount

def getScrollSize : ℚ := s.getElementSize * s.button.range.max

def getBindingByPosition (point : Point) : Binding :=
  let box := s.button.boundingBox
  let offset :=
    if s.button.horizontal then point.x - box.left - s.currentOffset
    else point.y - box.top - s.currentOffset
  let index := ⌊floatRem (offset / s.getElementSize) s.button.range.max⌋
  let index := if index < 0 then s.button.range.max + index else index
  s.button.range.bindings.getD index.toNat .none

def isTap (time : Int) : Bool := time - s.touchTime < 200

def position (point : Point) : ℚ := if s.button.horizontal then point.x else point.y

def handleInputEvent (touch : Nat) (binding : Binding) (isActionDown : Bool) : RangeScroller :=
  { s with log := s.log ++ [⟨touch, binding, isActionDown⟩] }

/-- Begins the next touch. -/
def handleTouchDown (point : Point) (time : Int) : RangeScroller :=
  { s with
    scrolling := false
    isActionDown := true
    binding := s.getBindingByPosition point
    touchTime := time
    lastPosition := s.position point
    touch := s.touch + 1
    timer := some (s.touch + 1) }

def handleTouchMove (point : Point) : RangeScroller :=
  if s.isActionDown then
    let position := s.position point
    let deltaPosition := position - s.lastPosition
    let s := if 10 ≤ |deltaPosition| then { s with scrolling := true, timer := none } else s
    if s.scrolling then
      let currentOffset := s.currentOffset + deltaPosition
      let scrollSize := s.getScrollSize
      let scrollOffset := floatRem (-currentOffset) scrollSize
      let scrollOffset := if scrollOffset < 0 then scrollSize + scrollOffset else scrollOffset
      { s with currentOffset, scrollOffset, lastPosition := position }
    else s
  else s

def handleTouchUp (time : Int) : RangeScroller :=
  if s.isActionDown then
    let s := { s with timer := none, isActionDown := false }
    if s.isTap time && !s.scrolling then
      let s := s.handleInputEvent s.touch s.binding true
      { s with posted := s.posted ++ [.release s.touch s.binding] }
    else s.handleInputEvent s.touch s.binding false
  else s

/-! ## Threads -/

/-- A step of one of the threads.  A task or a runnable is named by its place in the list. -/
inductive Input where
  | down (point : Point) (time : Int)
  | move (point : Point)
  | up (time : Int)
  /-- The timer starts its task. -/
  | fire
  /-- A task tests `scrolling`. -/
  | test (i : Nat)
  /-- A task posts the press and ends. -/
  | post (i : Nat)
  /-- The main thread runs a runnable. -/
  | run (i : Nat)

/-- A task that is to post. -/
def postTask (i : Nat) : RangeScroller :=
  match s.tasks[i]? with
  | some ⟨touch, true⟩ =>
    { s with tasks := s.tasks.eraseIdx i, posted := s.posted ++ [.press touch] }
  | _ => s

/-- A task that has not tested `scrolling` ends if it is set. -/
def testTask (i : Nat) : RangeScroller :=
  match s.tasks[i]? with
  | some ⟨touch, false⟩ =>
    { s with
      tasks := if s.scrolling then s.tasks.eraseIdx i else s.tasks.set i ⟨touch, true⟩ }
  | _ => s

def runPosted (i : Nat) : RangeScroller :=
  match s.posted[i]? with
  | some (.press touch) =>
    { s with posted := s.posted.eraseIdx i }.handleInputEvent touch s.binding true
  | some (.release touch binding) =>
    { s with posted := s.posted.eraseIdx i }.handleInputEvent touch binding false
  | none => s

/-- The element takes no second touch while it is captured. -/
def step (s : RangeScroller) : Input → RangeScroller
  | .down point time => if s.isActionDown then s else s.handleTouchDown point time
  | .move point => s.handleTouchMove point
  | .up time => s.handleTouchUp time
  | .fire =>
    match s.timer with
    | some touch => { s with timer := none, tasks := s.tasks ++ [⟨touch, false⟩] }
    | none => s
  | .test i => s.testTask i
  | .post i => s.postTask i
  | .run i => s.runPosted i

/-- The touch is over and nothing of it is pending. -/
def Settled (touch : Nat) : Prop :=
  (touch = s.touch → s.isActionDown = false) ∧ s.timer ≠ some touch ∧
    (∀ task ∈ s.tasks, task.touch ≠ touch) ∧
    ∀ p ∈ s.posted, p ≠ .press touch ∧ ∀ b, p ≠ .release touch b

/-- What a touch has pressed is released after it once the touch is settled. -/
def Releases : Prop :=
  ∀ touch, s.Settled touch → ∀ before b after, s.log = before ++ ⟨touch, b, true⟩ :: after →
    ∃ call ∈ after, call.binding = b ∧ call.isActionDown = false

/-- When a finger goes up, the press of its timer has run or will not be posted; when it comes
down, no task is left. -/
def Calm (s : RangeScroller) : Input → Prop
  | .up _ => s.isActionDown = true →
    (∀ touch, .press touch ∉ s.posted) ∧
      ∀ task ∈ s.tasks, task.tested = false ∧ s.scrolling = true
  | .down .. => s.tasks = []
  | _ => True

/-! ## One step -/

/-- A press that was logged before `after` is released, or will be. -/
def Answered (touch : Nat) (b : Binding) (after : List KeyCall) : Prop :=
  (∃ call ∈ after, call.binding = b ∧ call.isActionDown = false) ∨
    .release touch b ∈ s.posted ∨ (touch = s.touch ∧ s.isActionDown = true ∧ s.binding = b)

structure Inv : Prop where
  tasks : ∀ task ∈ s.tasks, task.touch = s.touch ∧
    (s.isActionDown = false → task.tested = false ∧ s.scrolling = true)
  presses : ∀ touch, .press touch ∈ s.posted → touch = s.touch ∧ s.isActionDown = true
  timer : ∀ touch, s.timer = some touch → touch = s.touch ∧ s.isActionDown = true
  answered : ∀ before touch b after, s.log = before ++ ⟨touch, b, true⟩ :: after →
    s.Answered touch b after

variable {s}

theorem inv_new (button : RangeButton) : (new button).Inv where
  tasks _ h := by cases h
  presses _ h := by cases h
  timer _ h := by cases h
  answered before touch b after h := by simp [new] at h

theorem Inv.releases (h : s.Inv) : s.Releases := by
  intro touch hsettled before b after hlog
  rcases h.answered before touch b after hlog with hreleased | hposted | ⟨htouch, hdown, _⟩
  · exact hreleased
  · exact absurd rfl ((hsettled.2.2.2 _ hposted).2 b)
  · rw [hsettled.1 htouch] at hdown
    cases hdown

/-- A split of a longer log is one at its last call, or one of the log before. -/
theorem split_snoc {log before after : List KeyCall} {call x : KeyCall}
    (h : log ++ [call] = before ++ x :: after) :
    (x = call ∧ after = []) ∨ ∃ after', after = after' ++ [call] ∧ log = before ++ x :: after' := by
  rcases List.eq_nil_or_concat after with hnil | ⟨after', last, hafter⟩
  · left
    rw [hnil] at h
    have hlast := (List.append_inj' h rfl).2
    exact ⟨(List.cons.inj hlast).1.symm, hnil⟩
  · right
    rw [hafter, List.concat_eq_append] at h
    rw [← List.cons_append, ← List.append_assoc] at h
    obtain ⟨hlog, hlast⟩ := List.append_inj' h rfl
    refine ⟨after', ?_, hlog⟩
    rw [hafter, List.concat_eq_append, (List.cons.inj hlast).1]

/-- It is enough to answer the last call and to keep the answers of the others. -/
theorem answered_snoc {s' : RangeScroller} {call : KeyCall} (h : s.Inv)
    (hlog : s'.log = s.log ++ [call])
    (hlast : call.isActionDown = true → s'.Answered call.touch call.binding [])
    (hkeep : ∀ touch b after, s.Answered touch b after → s'.Answered touch b (after ++ [call])) :
    ∀ before touch b after, s'.log = before ++ ⟨touch, b, true⟩ :: after →
      s'.Answered touch b after := by
  intro before touch b after hsplit
  rw [hlog] at hsplit
  rcases split_snoc hsplit with ⟨rfl, rfl⟩ | ⟨after', rfl, hbefore⟩
  · exact hlast rfl
  · exact hkeep touch b after' (h.answered before touch b after' hbefore)

theorem Inv.handleTouchDown {point : Point} {time : Int} (h : s.Inv) (htasks : s.tasks = [])
    (hfree : s.isActionDown = false) : (s.handleTouchDown point time).Inv where
  tasks task htask := by
    have : task ∈ s.tasks := htask
    rw [htasks] at this
    cases this
  presses touch hpress := by
    have := (h.presses touch hpress).2
    rw [hfree] at this
    cases this
  timer touch htimer := ⟨(Option.some.inj htimer).symm, rfl⟩
  answered before touch b after hlog := by
    rcases h.answered before touch b after hlog with hreleased | hposted | ⟨_, hdown, _⟩
    · exact .inl hreleased
    · exact .inr (.inl hposted)
    · rw [hfree] at hdown
      cases hdown

/-- A move may only set `scrolling` and cancel the timer. -/
theorem handleTouchMove_fields (point : Point) :
    (s.handleTouchMove point).tasks = s.tasks ∧ (s.handleTouchMove point).posted = s.posted ∧
      (s.handleTouchMove point).log = s.log ∧ (s.handleTouchMove point).touch = s.touch ∧
      (s.handleTouchMove point).isActionDown = s.isActionDown ∧
      (s.handleTouchMove point).binding = s.binding ∧
      ((s.handleTouchMove point).timer = s.timer ∨ (s.handleTouchMove point).timer = none) ∧
      (s.isActionDown = false → (s.handleTouchMove point).scrolling = s.scrolling) := by
  unfold handleTouchMove
  by_cases hdown : s.isActionDown = true
  · simp only [hdown, if_true]
    split_ifs <;> simp [hdown]
  · simp [hdown]

theorem Inv.handleTouchMove {point : Point} (h : s.Inv) : (s.handleTouchMove point).Inv := by
  obtain ⟨htasks, hposted, hlog, htouch, hdown, hbinding, htimer, hscrolling⟩ :=
    handleTouchMove_fields (s := s) point
  constructor
  · intro task htask
    rw [htasks] at htask
    obtain ⟨h1, h2⟩ := h.tasks task htask
    rw [htouch, hdown]
    refine ⟨h1, fun hfree => ?_⟩
    rw [hscrolling hfree]
    exact h2 hfree
  · intro touch hpress
    rw [hposted] at hpress
    rw [htouch, hdown]
    exact h.presses touch hpress
  · intro touch hsome
    rw [htouch, hdown]
    rcases htimer with hsame | hnone
    · exact h.timer touch (hsame ▸ hsome)
    · rw [hnone] at hsome
      cases hsome
  · intro before touch b after hsplit
    rw [hlog] at hsplit
    unfold Answered
    rw [hposted, htouch, hdown, hbinding]
    exact h.answered before touch b after hsplit

theorem Inv.handleTouchUp {time : Int} (h : s.Inv) (hcalm : Calm s (.up time)) :
    (s.handleTouchUp time).Inv := by
  unfold RangeScroller.handleTouchUp
  by_cases hdown : s.isActionDown = true
  · obtain ⟨hpresses, htasks⟩ := hcalm hdown
    simp only [hdown, if_true]
    split_ifs
    · refine ⟨?_, ?_, nofun, ?_⟩
      · intro task htask
        exact ⟨(h.tasks task htask).1, fun _ => htasks task htask⟩
      · intro touch hpress
        simp only [handleInputEvent, List.mem_append, List.mem_singleton] at hpress
        rcases hpress with hold | hnew
        · exact absurd hold (hpresses touch)
        · cases hnew
      · apply answered_snoc h rfl
        · intro _
          exact .inr (.inl (by simp [handleInputEvent]))
        · intro touch b after hanswered
          rcases hanswered with ⟨call, hcall, hb⟩ | hposted | ⟨rfl, _, rfl⟩
          · exact .inl ⟨call, by simp [hcall], hb⟩
          · exact .inr (.inl (by simp [handleInputEvent, hposted]))
          · exact .inr (.inl (by simp [handleInputEvent]))
    · refine ⟨?_, ?_, nofun, ?_⟩
      · intro task htask
        exact ⟨(h.tasks task htask).1, fun _ => htasks task htask⟩
      · intro touch hpress
        exact absurd hpress (hpresses touch)
      · apply answered_snoc h rfl
        · nofun
        · intro touch b after hanswered
          rcases hanswered with ⟨call, hcall, hb⟩ | hposted | ⟨rfl, _, rfl⟩
          · exact .inl ⟨call, by simp [hcall], hb⟩
          · exact .inr (.inl hposted)
          · exact .inl ⟨⟨s.touch, s.binding, false⟩, by simp, rfl, rfl⟩
  · rw [if_neg hdown]
    exact h

theorem Inv.fire {touch : Nat} (h : s.Inv) (htimer : s.timer = some touch) :
    ({ s with timer := none, tasks := s.tasks ++ [⟨touch, false⟩] } : RangeScroller).Inv where
  tasks task htask := by
    rcases List.mem_append.mp htask with hold | hnew
    · exact h.tasks task hold
    · obtain ⟨htouch, hdown⟩ := h.timer touch htimer
      rw [List.mem_singleton.mp hnew]
      refine ⟨htouch, fun hfree => ?_⟩
      rw [show s.isActionDown = false from hfree] at hdown
      cases hdown
  presses := h.presses
  timer := nofun
  answered := h.answered

theorem Inv.testTask {i : Nat} (h : s.Inv) : (s.testTask i).Inv := by
  unfold RangeScroller.testTask
  split
  · next touch htask =>
    obtain ⟨htouch, hfree⟩ := h.tasks _ (List.mem_of_getElem? htask)
    refine ⟨fun task hmem => ?_, h.presses, h.timer, h.answered⟩
    dsimp only at hmem ⊢
    split_ifs at hmem with hscrolling
    · exact h.tasks task (List.mem_of_mem_eraseIdx hmem)
    · rcases List.mem_or_eq_of_mem_set hmem with hold | rfl
      · exact h.tasks task hold
      · refine ⟨htouch, fun hup => ?_⟩
        exact absurd (hfree hup).2 hscrolling
  · exact h

theorem Inv.postTask {i : Nat} (h : s.Inv) : (s.postTask i).Inv := by
  unfold RangeScroller.postTask
  split
  · next touch htask =>
    obtain ⟨htouch, hfree⟩ := h.tasks _ (List.mem_of_getElem? htask)
    have hdown : s.isActionDown = true := by
      by_contra hup
      have := (hfree (by simpa using hup)).1
      cases this
    refine ⟨fun task hmem => h.tasks task (List.mem_of_mem_eraseIdx hmem), fun t hpress => ?_,
      h.timer, fun before t b after hlog => ?_⟩
    · rcases List.mem_append.mp hpress with hold | hnew
      · exact h.presses t hold
      · cases List.mem_singleton.mp hnew
        exact ⟨htouch, hdown⟩
    · rcases h.answered before t b after hlog with hreleased | hposted | hcurrent
      · exact .inl hreleased
      · exact .inr (.inl (List.mem_append_left _ hposted))
      · exact .inr (.inr hcurrent)
  · exact h

theorem Inv.runPosted {i : Nat} (h : s.Inv) : (s.runPosted i).Inv := by
  unfold RangeScroller.runPosted
  split
  · next touch hrun =>
    obtain ⟨htouch, hdown⟩ := h.presses touch (List.mem_of_getElem? hrun)
    refine ⟨h.tasks, fun t hpress => h.presses t (List.mem_of_mem_eraseIdx hpress), h.timer, ?_⟩
    apply answered_snoc h rfl
    · intro _
      exact .inr (.inr ⟨htouch, hdown, rfl⟩)
    · intro t b after hanswered
      rcases hanswered with ⟨call, hcall, hb⟩ | hposted | hcurrent
      · exact .inl ⟨call, by simp [hcall], hb⟩
      · exact .inr (.inl (Run.mem_eraseIdx_of_ne hposted hrun nofun))
      · exact .inr (.inr hcurrent)
  · next touch binding hrun =>
    refine ⟨h.tasks, fun t hpress => h.presses t (List.mem_of_mem_eraseIdx hpress), h.timer, ?_⟩
    apply answered_snoc h rfl
    · nofun
    · intro t b after hanswered
      rcases hanswered with ⟨call, hcall, hb⟩ | hposted | hcurrent
      · exact .inl ⟨call, by simp [hcall], hb⟩
      · by_cases hsame : (.release t b : Posted) = .release touch binding
        · obtain ⟨rfl, rfl⟩ := Posted.release.inj hsame
          exact .inl ⟨⟨t, b, false⟩, by simp, rfl, rfl⟩
        · exact .inr (.inl (Run.mem_eraseIdx_of_ne hposted hrun hsame))
      · exact .inr (.inr hcurrent)
  · exact h

theorem Inv.step {input : Input} (h : s.Inv) (hcalm : Calm s input) : (s.step input).Inv := by
  unfold RangeScroller.step
  cases input with
  | down point time =>
    dsimp only
    split_ifs with hdown
    · exact h
    · exact h.handleTouchDown hcalm (by simpa using hdown)
  | move point => exact h.handleTouchMove
  | up time => exact h.handleTouchUp hcalm
  | fire =>
    dsimp only
    split
    · next touch htimer => exact h.fire htimer
    · exact h
  | test i => exact h.testTask
  | post i => exact h.postTask
  | run i => exact h.runPosted

theorem calm_releases (button : RangeButton) (inputs : List Input)
    (h : Run.Along step Calm (new button) inputs) :
    ∀ earlier later, inputs = earlier ++ later →
      (Run.after step (new button) earlier).Releases := by
  intro earlier later heq
  rw [heq] at h
  have hinv := h.everywhere (I := Inv) (fun s input hs hok => hs.step hok) (inv_new button)
  exact hinv.releases

/-! ## A finger that goes up too early -/

/-- Five letters in a row. -/
def letters : RangeButton where
  boundingBox := ⟨0, 0, 500, 100⟩
  range := .fromAToZ
  horizontal := true
  bindingCount := 5

/-- The finger goes up after the press was posted and before it runs. -/
def upOvertakes : List Input :=
  [.down ⟨150, 50⟩ 0, .fire, .test 0, .post 0, .up 210, .run 0]

/-- B is pressed after it was released, and never released again. -/
theorem up_overtakes_press :
    ¬∀ inputs, (Run.after step (new letters) inputs).Releases := by
  intro h
  have hlog : (Run.after step (new letters) upOvertakes).log =
      [⟨1, .keyB, false⟩] ++ ⟨1, .keyB, true⟩ :: [] := by decide +kernel
  have hsettled : (Run.after step (new letters) upOvertakes).Settled 1 := by
    refine ⟨fun _ => by decide +kernel, by decide +kernel, by decide +kernel, ?_⟩
    have hnone : (Run.after step (new letters) upOvertakes).posted = [] := by decide +kernel
    rw [hnone]
    nofun
  obtain ⟨call, hcall, _⟩ := h upOvertakes 1 hsettled _ _ _ hlog
  cases hcall

/-- The finger goes up after the press has run. -/
def upFollows : List Input :=
  [.down ⟨150, 50⟩ 0, .fire, .test 0, .post 0, .run 0, .up 300]

theorem up_follows_press : (Run.after step (new letters) upFollows).Releases := by
  have hcalm : Run.Along step Calm (new letters) upFollows := by
    refine ⟨rfl, trivial, trivial, trivial, trivial, fun _ => ⟨?_, ?_⟩, trivial⟩
    · intro touch hpress
      have hnone : (Run.after step (new letters) (upFollows.take 5)).posted = [] := by
        decide +kernel
      exact absurd (hnone ▸ hpress) List.not_mem_nil
    · have hnone : (Run.after step (new letters) (upFollows.take 5)).tasks = [] := by
        decide +kernel
      intro task htask
      exact absurd (hnone ▸ htask) List.not_mem_nil
  exact calm_releases letters upFollows hcalm upFollows [] (List.append_nil _).symm

end RangeScroller

end XoDos
