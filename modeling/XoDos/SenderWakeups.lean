import XoDos.SendLoop

/-!
# Waking the sending thread

The sending thread tests `running`, enters the monitor, runs what is queued and waits.  What others
do inside the monitor is one step; `stop()` writes `running` in one step and notifies in another.
A waiting thread may also wake for no reason.
-/

namespace XoDos

namespace WinHandler

/-- The loop over the queue, of at most `n` rounds. -/
def drain (delivered : Nat → Bool) : Nat → WinHandler → WinHandler
  | 0, s => s
  | n + 1, s => drain delivered n (s.runAction (delivered n))

/-- Where the sending thread is. -/
inductive Sender where
  /-- Before it tests `running`. -/
  | testing
  /-- Between the test and the monitor. -/
  | entering
  | waiting
  /-- Notified, but not yet back in the monitor. -/
  | notified
  | ended
deriving DecidableEq, Repr

/-- `stops` are the calls of `stop()` that have written and are still to notify. -/
structure Threads where
  handler : WinHandler
  running : Bool
  sender : Sender
  stops : Nat

namespace Threads

variable (t : Threads)

def start (shown : ShownProfile) : Threads := ⟨.new shown, true, .testing, 0⟩

/-- `actions.notify()`: only the sending thread waits. -/
def notify : Threads := if t.sender = .waiting then { t with sender := .notified } else t

def test : Threads :=
  if t.sender = .testing then { t with sender := if t.running then .entering else .ended } else t

/-- The section between the test and the wait.  An exception ends the thread. -/
def enter (delivered : Nat → Bool) : Threads :=
  if t.sender = .entering then
    let handler := drain delivered t.handler.actions.length t.handler
    { t with handler, sender := if handler.exception.isNone then .waiting else .ended }
  else t

def wake : Threads :=
  if t.sender = .waiting ∨ t.sender = .notified then { t with sender := .testing } else t

def addAction (action : WinAction) : Threads :=
  { t with handler := t.handler.addAction action }.notify

/-- Whether a request ends with a notification. -/
def notifies (receiveData : List Nat) : Bool :=
  getByte receiveData 0 = RequestCodes.init || getByte receiveData 0 = RequestCodes.getGamepad ||
    getByte receiveData 0 = RequestCodes.getGamepadState

def request (receiveData : List Nat) (port : Int) (d : Devices) : Threads :=
  let t := { t with handler := t.handler.handleRequest receiveData port d }
  if notifies receiveData then t.notify else t

def stopWrites : Threads := { t with running := false, stops := t.stops + 1 }

def stopNotifies : Threads :=
  if 0 < t.stops then { t with stops := t.stops - 1 }.notify else t

inductive Move where
  | test
  | enter (delivered : Nat → Bool)
  | wake
  | addAction (action : WinAction)
  | request (receiveData : List Nat) (port : Int) (d : Devices)
  | stopWrites
  | stopNotifies

def step : Move → Threads
  | .test => t.test
  | .enter delivered => t.enter delivered
  | .wake => t.wake
  | .addAction action => t.addAction action
  | .request receiveData port d => t.request receiveData port d
  | .stopWrites => t.stopWrites
  | .stopNotifies => t.stopNotifies

/-- A waiting thread has nothing to do. -/
def Wakeful : Prop :=
  t.sender = .waiting →
    ¬(t.handler.initReceived = true ∧ t.handler.actions ≠ []) ∧ t.running = true

/-! ## The queue -/

section Queue

variable {s : WinHandler} {delivered : Nat → Bool}

theorem runAction_initReceived (d : Bool) : (s.runAction d).initReceived = s.initReceived := by
  unfold runAction
  split
  · split <;> rfl
  · rfl

theorem runAction_exception (d : Bool) (h : s.exception ≠ none) : s.runAction d = s := by
  unfold runAction
  split
  · contradiction
  · rfl

theorem drain_exception (n : Nat) (h : s.exception ≠ none) : drain delivered n s = s := by
  induction n with
  | zero => rfl
  | succ n ih => rw [drain, runAction_exception _ h, ih]

theorem drain_initReceived (n : Nat) : (drain delivered n s).initReceived = s.initReceived := by
  induction n generalizing s with
  | zero => rfl
  | succ n ih => rw [drain, ih, runAction_initReceived]

theorem runAction_length (d : Bool) (hinit : s.initReceived = true) (he : s.exception = none) :
    (s.runAction d).actions.length = s.actions.length - 1 := by
  unfold runAction
  cases ha : s.actions with
  | nil => simp [he, hinit, ha]
  | cons a rest =>
    simp only [he, hinit]
    split <;> simp

/-- A thread that gets through the loop leaves nothing behind. -/
theorem drain_actions {n : Nat} (hn : s.actions.length ≤ n)
    (he : (drain delivered n s).exception = none)
    (hinit : (drain delivered n s).initReceived = true) : (drain delivered n s).actions = [] := by
  induction n generalizing s with
  | zero => exact List.length_eq_zero_iff.mp (Nat.le_zero.mp hn)
  | succ n ih =>
    apply ih _ he hinit
    by_cases halive : s.exception = none
    · rw [drain_initReceived] at hinit
      rw [runAction_length _ hinit halive]
      omega
    · rw [drain_exception _ halive] at he
      exact absurd he halive

end Queue

/-! ## Steps -/

variable {t : Threads}

@[simp] theorem notify_running : t.notify.running = t.running := by
  unfold notify
  split_ifs <;> rfl

@[simp] theorem notify_stops : t.notify.stops = t.stops := by
  unfold notify
  split_ifs <;> rfl

theorem notify_ne_waiting : t.notify.sender ≠ .waiting := by
  unfold notify
  split_ifs with h
  · simp
  · exact h

theorem notify_entering (h : t.notify.sender = .entering) : t.sender = .entering := by
  unfold notify at h
  split_ifs at h
  exact h

/-- The queue of a waiting thread is empty, or the helper is not there. -/
def Idle (t : Threads) : Prop :=
  t.sender = .waiting → ¬(t.handler.initReceived = true ∧ t.handler.actions ≠ [])

theorem notify_idle : Idle t.notify := fun h => absurd h notify_ne_waiting

theorem Idle.enter (h : Idle t) (delivered : Nat → Bool) : Idle (t.enter delivered) := by
  unfold Threads.enter
  split_ifs with hs
  · intro hw
    have he : (drain delivered t.handler.actions.length t.handler).exception = none := by
      by_contra hne
      simp only at hw
      rw [if_neg (by simpa using hne)] at hw
      cases hw
    rintro ⟨hinit, hne⟩
    exact hne (drain_actions le_rfl he hinit)
  · exact h

theorem handleRequest_silent {s : WinHandler} {receiveData : List Nat} {port : Int} {d : Devices}
    (h : notifies receiveData = false) :
    (s.handleRequest receiveData port d).initReceived = s.initReceived ∧
      (s.handleRequest receiveData port d).actions = s.actions := by
  simp only [notifies, Bool.or_eq_false_iff, decide_eq_false_iff_not] at h
  obtain ⟨⟨h₁, h₂⟩, h₃⟩ := h
  simp only [handleRequest, if_neg h₁, if_neg h₂, if_neg h₃]
  split_ifs <;> exact ⟨rfl, rfl⟩

theorem Idle.step (h : Idle t) (m : Move) : Idle (t.step m) := by
  cases m with
  | test =>
    simp only [Threads.step, Threads.test]
    split_ifs
    · intro hw
      simp at hw
    · intro hw
      simp at hw
    · exact h
  | enter delivered => exact h.enter delivered
  | wake =>
    simp only [Threads.step, Threads.wake]
    split_ifs
    · intro hw
      cases hw
    · exact h
  | addAction action => exact notify_idle
  | request receiveData port d =>
    simp only [Threads.step, Threads.request]
    split_ifs with hn
    · exact notify_idle
    · obtain ⟨hinit, hactions⟩ := @handleRequest_silent t.handler receiveData port d (by simpa using hn)
      intro hw
      simp only [hinit, hactions]
      exact h hw
  | stopWrites => exact h
  | stopNotifies =>
    simp only [Threads.step, Threads.stopNotifies]
    split_ifs
    · exact notify_idle
    · exact h

/-- The thread is in or before the wait with `running` set, unless `excuse` holds of the number of
stops. -/
structure Attentive (excuse : Nat → Prop) (t : Threads) : Prop where
  entering : t.sender = .entering → t.running = true
  waiting : t.sender = .waiting → t.running = true ∨ excuse t.stops

variable {excuse : Nat → Prop}

theorem Attentive.notify (h : Attentive excuse t) : Attentive excuse t.notify := by
  refine ⟨fun he => ?_, fun hw => absurd hw notify_ne_waiting⟩
  rw [notify_running]
  exact h.entering (notify_entering he)

theorem Attentive.stopNotifies (h : Attentive excuse t) : Attentive excuse t.stopNotifies := by
  unfold Threads.stopNotifies
  split_ifs
  · refine ⟨fun he => ?_, fun hw => absurd hw notify_ne_waiting⟩
    rw [notify_running]
    exact h.entering (notify_entering (t := { t with stops := t.stops - 1 }) he)
  · exact h

theorem Attentive.test (h : Attentive excuse t) : Attentive excuse t.test := by
  unfold Threads.test
  split_ifs with _ hr
  · exact ⟨fun _ => hr, by simp⟩
  · exact ⟨by simp, by simp⟩
  · exact h

theorem Attentive.enter (h : Attentive excuse t) (delivered : Nat → Bool) :
    Attentive excuse (t.enter delivered) := by
  unfold Threads.enter
  split_ifs with hs
  · have hr := h.entering hs
    exact ⟨fun _ => hr, fun _ => .inl hr⟩
  · exact h

/-- Only a write of `stop()` needs care. -/
theorem Attentive.step (h : Attentive excuse t) {m : Move}
    (hstop : m = .stopWrites →
      t.sender ≠ .entering ∧ (t.sender = .waiting → excuse (t.stops + 1))) :
    Attentive excuse (t.step m) := by
  cases m with
  | test => exact h.test
  | enter delivered => exact h.enter delivered
  | wake =>
    simp only [Threads.step, Threads.wake]
    split_ifs
    · exact ⟨by simp, by simp⟩
    · exact h
  | addAction action =>
    exact Attentive.notify (t := { t with handler := t.handler.addAction action }) ⟨h.1, h.2⟩
  | request receiveData port d =>
    simp only [Threads.step, Threads.request]
    split_ifs
    · exact Attentive.notify (t := { t with handler := t.handler.handleRequest receiveData port d })
        ⟨h.1, h.2⟩
    · exact ⟨h.1, h.2⟩
  | stopWrites =>
    obtain ⟨hne, hwait⟩ := hstop rfl
    exact ⟨fun he => absurd he hne, fun hw => .inr (hwait hw)⟩
  | stopNotifies => exact h.stopNotifies

/-! ## Runs -/

/-- `stop()` does not write between the test and the monitor. -/
def Apart (t : Threads) (m : Move) : Prop := m = .stopWrites → t.sender ≠ .entering

/-- Nor does it write while the thread waits. -/
def Calm (t : Threads) (m : Move) : Prop :=
  m = .stopWrites → t.sender ≠ .entering ∧ t.sender ≠ .waiting

theorem idle_everywhere (shown : ShownProfile) (moves : List Move) :
    Idle (Run.after step (start shown) moves) := by
  apply Run.after_invariant (I := Idle)
  · exact fun t m ht => ht.step m
  · intro hw
    cases hw

theorem start_attentive (shown : ShownProfile) : Attentive excuse (start shown) :=
  ⟨by simp [start], by simp [start]⟩

/-- In calm runs the thread never waits for what has happened.  It is enough that `stop()` does not
write between the test and the monitor for the thread to wait at most until that `stop()`
notifies. -/
theorem sender_no_lost_wakeup (shown : ShownProfile) (moves : List Move) :
    (Run.Along step Calm (start shown) moves → ∀ earlier later, moves = earlier ++ later →
      Wakeful (Run.after step (start shown) earlier)) ∧
    (Run.Along step Apart (start shown) moves → ∀ earlier later, moves = earlier ++ later →
      (Run.after step (start shown) earlier).sender = .waiting →
        ¬((Run.after step (start shown) earlier).handler.initReceived = true ∧
          (Run.after step (start shown) earlier).handler.actions ≠ []) ∧
        ((Run.after step (start shown) earlier).running = false →
          0 < (Run.after step (start shown) earlier).stops)) := by
  constructor
  · intro h earlier later hmoves
    subst hmoves
    have hatt : Attentive (fun _ => False) (Run.after step (start shown) earlier) := by
      apply h.everywhere _ (start_attentive shown)
      intro t m ht hm
      exact ht.step fun hstop => ⟨(hm hstop).1, (hm hstop).2⟩
    intro hw
    exact ⟨idle_everywhere shown earlier hw, (hatt.waiting hw).resolve_right id⟩
  · intro h earlier later hmoves hw
    subst hmoves
    have hatt : Attentive (fun n => 0 < n) (Run.after step (start shown) earlier) := by
      apply h.everywhere _ (start_attentive shown)
      intro t m ht hm
      exact ht.step fun hstop => ⟨hm hstop, fun _ => Nat.succ_pos _⟩
    refine ⟨idle_everywhere shown earlier hw, fun hr => ?_⟩
    rcases hatt.waiting hw with h | h
    · rw [h] at hr
      cases hr
    · exact h

/-- The thread waits, and an action is added. -/
theorem sender_no_lost_wakeup_action :
    Wakeful (Run.after step (start noProfile)
      [.test, .enter fun _ => true, .addAction .listProcesses]) := by
  apply (sender_no_lost_wakeup noProfile _).1 _ _ [] (List.append_nil _).symm
  exact ⟨by simp [Calm], by simp [Calm], by simp [Calm], trivial⟩

/-- `stop()` runs between the test and the monitor, and nobody is left to notify. -/
theorem sender_misses_stop :
    ∃ (shown : ShownProfile) (moves : List Move),
      ¬Wakeful (Run.after step (start shown) moves) ∧
        (Run.after step (start shown) moves).stops = 0 := by
  refine ⟨noProfile, [.test, .stopWrites, .stopNotifies, .enter fun _ => true], ?_, by decide⟩
  intro h
  exact absurd (h (by decide)).2 (by decide)

end Threads

end WinHandler

end XoDos
