import XoDos.Run

/-!
# Vertical blanks

The Present extension asks for an event at a frame.  The requests wait in a list
until `lorieRedraw` counts their frame.  A flip counts a frame too.

The model numbers the requests in the order in which they come, and keeps those
that were aborted and the events that were sent.  Times of events are left out.
-/

namespace XoDos

/-- `struct vblank`, with the number of the request. -/
structure Vblank where
  id : BitVec 64
  msc : BitVec 64
  serial : Nat
deriving DecidableEq, Repr

/-- A call of `present_event_notify`, for a vertical blank or for a flip. -/
inductive Notice where
  | vblank (v : Vblank) (msc : BitVec 64)
  | flip (event_id msc : BitVec 64)
deriving DecidableEq, Repr

/-- The part of `pvfb` that Present uses. -/
structure Present where
  current_msc : BitVec 64
  vblank_queue : List Vblank
  /-- How many requests have come. -/
  queued : Nat
  aborted : List Vblank
  log : List Notice
deriving DecidableEq, Repr

namespace Present

/-- The list at the start. -/
def init (current_msc : BitVec 64) : Present := ⟨current_msc, [], 0, [], []⟩

/-- Returns `BadAlloc` without a change when there is no memory. -/
def loriePresentQueueVblank (p : Present) (event_id msc : BitVec 64) (memory : Bool) : Present :=
  if memory then
    { p with
      vblank_queue := ⟨event_id, msc, p.queued⟩ :: p.vblank_queue
      queued := p.queued + 1 }
  else p

/-- Takes the first element with the id out of the list. -/
def loriePresentAbortVblank (p : Present) (id : BitVec 64) : Present :=
  { p with
    vblank_queue := p.vblank_queue.eraseP (fun v => v.id = id)
    aborted := (p.vblank_queue.find? (fun v => v.id = id)).toList ++ p.aborted }

/-- The loop over the list: what stays in it, and what is notified. -/
def performVblanks (current_msc : BitVec 64) : List Vblank → List Vblank × List Vblank
  | [] => ([], [])
  | v :: rest =>
    let (kept, notified) := performVblanks current_msc rest
    if v.msc ≤ current_msc then (kept, v :: notified) else (v :: kept, notified)

def loriePerformVblanks (p : Present) : Present :=
  let (kept, notified) := performVblanks p.current_msc p.vblank_queue
  { p with
    vblank_queue := kept
    log := p.log ++ notified.map (fun v => .vblank v p.current_msc) }

/-- The part of `lorieRedraw` before it draws. -/
def lorieRedraw (p : Present) : Present :=
  { p with current_msc := p.current_msc + 1 }.loriePerformVblanks

def loriePresentAfterFlip (p : Present) (event_id target_msc : BitVec 64) : Present :=
  let current_msc := if p.current_msc + 1 < target_msc then p.current_msc + 1 else target_msc
  { p with current_msc := current_msc, log := p.log ++ [.flip event_id current_msc] }

inductive Call where
  | redraw
  | queueVblank (event_id msc : BitVec 64) (memory : Bool)
  | abortVblank (id : BitVec 64)
  | afterFlip (event_id target_msc : BitVec 64)
deriving DecidableEq, Repr

def step (p : Present) : Call → Present
  | .redraw => p.lorieRedraw
  | .queueVblank event_id msc memory => p.loriePresentQueueVblank event_id msc memory
  | .abortVblank id => p.loriePresentAbortVblank id
  | .afterFlip event_id target_msc => p.loriePresentAfterFlip event_id target_msc

/-- What the next redraw will notify, in this order. -/
def due (p : Present) : List Vblank := p.vblank_queue.filter (fun v => v.msc ≤ p.current_msc + 1)

/-- The vertical blanks that have been notified. -/
def notified (p : Present) : List Vblank :=
  p.log.filterMap (fun n => match n with
    | .vblank v _ => some v
    | .flip .. => none)

/-- The frame counter does not go back, and a redraw finds at most one request due. -/
def Orderly (p : Present) : Call → Prop
  | .redraw => p.current_msc + 1 ≠ 0 ∧ p.due.length ≤ 1
  | .afterFlip _ target_msc => p.current_msc + 1 ≠ 0 ∧ p.current_msc ≤ target_msc
  | _ => True

/-! ## One call -/

variable {p : Present} {c : Call} {v : Vblank}

theorem performVblanks_eq (current_msc : BitVec 64) (queue : List Vblank) :
    performVblanks current_msc queue =
      (queue.filter (fun v => !decide (v.msc ≤ current_msc)),
        queue.filter (fun v => v.msc ≤ current_msc)) := by
  induction queue with
  | nil => rfl
  | cons v rest ih =>
    simp only [performVblanks, ih]
    by_cases hv : v.msc ≤ current_msc
    · simp only [hv, if_true, List.filter_cons, decide_true, Bool.not_true, Bool.false_eq_true,
        if_false]
    · simp only [hv, if_true, List.filter_cons, decide_false, Bool.not_false, Bool.false_eq_true,
        if_false]

theorem redraw_queue :
    p.lorieRedraw.vblank_queue = p.vblank_queue.filter (fun v => !decide (v.msc ≤ p.current_msc + 1)) := by
  simp only [lorieRedraw, loriePerformVblanks, performVblanks_eq]

theorem redraw_log :
    p.lorieRedraw.log = p.log ++ p.due.map (fun v => .vblank v (p.current_msc + 1)) := by
  simp only [lorieRedraw, loriePerformVblanks, performVblanks_eq, due]

@[simp] theorem redraw_msc : p.lorieRedraw.current_msc = p.current_msc + 1 := rfl

@[simp] theorem redraw_aborted : p.lorieRedraw.aborted = p.aborted := rfl

theorem mem_due : v ∈ p.due ↔ v ∈ p.vblank_queue ∧ v.msc ≤ p.lorieRedraw.current_msc := by
  simp [due]

theorem notified_redraw : p.lorieRedraw.notified = p.notified ++ p.due := by
  unfold notified
  rw [redraw_log, List.filterMap_append, List.filterMap_map]
  congr 1
  exact List.filterMap_some

theorem notified_afterFlip (event_id target_msc : BitVec 64) :
    (p.loriePresentAfterFlip event_id target_msc).notified = p.notified := by
  simp [notified, loriePresentAfterFlip]

theorem le_add_one {n : BitVec 64} (h : n + 1 ≠ 0) : n ≤ n + 1 := by
  bv_omega

/-- The counter does not go back over a call. -/
theorem step_msc_le (h : p.Orderly c) : p.current_msc ≤ (p.step c).current_msc := by
  cases c with
  | redraw => exact le_add_one h.1
  | queueVblank event_id msc memory =>
    cases memory <;> exact BitVec.le_refl _
  | abortVblank id => exact BitVec.le_refl _
  | afterFlip event_id target_msc =>
    simp only [step, loriePresentAfterFlip]
    split_ifs
    · exact le_add_one h.1
    · exact h.2

/-! ## Where the requests are -/

/-- Every request that came: those that wait, were aborted or have been notified. -/
def requests (p : Present) : List Vblank := p.vblank_queue ++ p.aborted ++ p.notified

/-- Every request is in one place, once. -/
def Accounted (p : Present) : Prop :=
  (p.requests.map Vblank.serial).Perm (List.range p.queued)

theorem init_accounted (current_msc : BitVec 64) : (init current_msc).Accounted := by
  simp [Accounted, requests, init, notified]

theorem abort_perm (id : BitVec 64) (queue : List Vblank) :
    (queue.eraseP (fun v => v.id = id) ++ (queue.find? (fun v => v.id = id)).toList).Perm queue := by
  induction queue with
  | nil => simp
  | cons v rest ih =>
    by_cases hv : v.id = id
    · simp [hv]
    · simpa [hv] using ih

theorem redraw_perm (p : Present) : p.lorieRedraw.requests.Perm p.requests := by
  have hsplit := List.filter_append_perm (fun v : Vblank => decide (v.msc ≤ p.current_msc + 1))
    p.vblank_queue
  unfold requests
  rw [notified_redraw, redraw_queue, redraw_aborted, due]
  rw [← List.append_assoc]
  refine List.perm_append_comm.trans ?_
  rw [← List.append_assoc, ← List.append_assoc]
  exact (hsplit.append_right _).append_right _

theorem abort_requests (p : Present) (id : BitVec 64) :
    (p.loriePresentAbortVblank id).requests.Perm p.requests := by
  unfold requests loriePresentAbortVblank notified
  dsimp only
  rw [← List.append_assoc (p.vblank_queue.eraseP _)]
  exact ((abort_perm id p.vblank_queue).append_right _).append_right _

/-- Each call keeps the account. -/
theorem step_accounted (hp : p.Accounted) : (p.step c).Accounted := by
  cases c with
  | redraw => exact ((redraw_perm p).map _).trans hp
  | queueVblank event_id msc memory =>
    cases memory with
    | false => exact hp
    | true =>
      change (p.queued :: p.requests.map Vblank.serial).Perm (List.range (p.queued + 1))
      rw [List.range_succ]
      exact (hp.cons p.queued).trans (List.perm_append_singleton _ _).symm
  | abortVblank id => exact ((abort_requests p id).map _).trans hp
  | afterFlip event_id target_msc =>
    simp only [step, Accounted, requests, notified_afterFlip]
    exact hp

theorem accounted_nodup (hp : p.Accounted) : p.requests.Nodup :=
  List.Nodup.of_map _ (hp.nodup_iff.mpr List.nodup_range)

/-! ## Runs -/

/-- No redraw of the run counts the frame `msc` or a later one. -/
def Before (msc : BitVec 64) (p : Present) (calls : List Call) : Prop :=
  Run.Along step (fun p c => c = .redraw → (p.step c).current_msc < msc) p calls

theorem mem_abort {id : BitVec 64} (hp : p.requests.Nodup) :
    v ∈ (p.loriePresentAbortVblank id).vblank_queue ↔
      v ∈ p.vblank_queue ∧ v ∉ (p.loriePresentAbortVblank id).aborted := by
  have hmem : v ∈ p.vblank_queue ↔ v ∈ p.vblank_queue.eraseP (fun v => v.id = id) ++
      (p.vblank_queue.find? (fun v => v.id = id)).toList := (abort_perm id _).mem_iff.symm
  have hnodup := ((abort_requests p id).nodup_iff.mpr hp)
  unfold requests at hnodup
  have hdisjoint := (List.nodup_append'.mp (List.nodup_append'.mp hnodup).1).2.2
  constructor
  · intro h
    exact ⟨hmem.mpr (List.mem_append_left _ h), fun h' => hdisjoint h h'⟩
  · rintro ⟨h, hnot⟩
    rcases List.mem_append.mp (hmem.mp h) with h | h
    · exact h
    · exact absurd (List.mem_append_left _ h) hnot

/-- A request waits over a call unless the call aborts it or is a redraw that reaches its frame. -/
theorem mem_step (hp : p.Accounted) (hv : v.serial < p.queued) :
    v ∈ (p.step c).vblank_queue ↔
      v ∈ p.vblank_queue ∧ v ∉ (p.step c).aborted ∧
        (c = .redraw → (p.step c).current_msc < v.msc) := by
  have hnodup := accounted_nodup hp
  have hdisjoint : v ∈ p.vblank_queue → v ∉ p.aborted := fun h h' =>
    (List.nodup_append'.mp (List.nodup_append'.mp hnodup).1).2.2 h h'
  cases c with
  | redraw =>
    simp only [step, redraw_queue, List.mem_filter, redraw_aborted, redraw_msc, true_imp_iff]
    have hlt : (!decide (v.msc ≤ p.current_msc + 1)) = true ↔ p.current_msc + 1 < v.msc := by
      simp
    rw [hlt]
    tauto
  | queueVblank event_id msc memory =>
    cases memory with
    | false => simpa [step, loriePresentQueueVblank] using hdisjoint
    | true =>
      have hne : v ≠ ⟨event_id, msc, p.queued⟩ := fun h => by simp [h] at hv
      simpa [step, loriePresentQueueVblank, hne] using hdisjoint
  | abortVblank id =>
    simpa [step] using mem_abort hnodup
  | afterFlip event_id target_msc =>
    simpa [step, loriePresentAfterFlip] using hdisjoint

theorem step_queued_le : p.queued ≤ (p.step c).queued := by
  cases c with
  | queueVblank event_id msc memory => cases memory <;> simp [step, loriePresentQueueVblank]
  | _ => exact le_rfl

theorem step_aborted (h : v ∈ p.aborted) : v ∈ (p.step c).aborted := by
  cases c with
  | queueVblank event_id msc memory => cases memory <;> exact h
  | abortVblank id => exact List.mem_append_right _ h
  | _ => exact h

theorem after_accounted (hp : p.Accounted) (calls : List Call) :
    (Run.after step p calls).Accounted :=
  Run.after_invariant (fun _ _ => step_accounted) hp

theorem serial_lt (hp : p.Accounted) (hv : v ∈ p.vblank_queue) : v.serial < p.queued := by
  have hmem : v.serial ∈ p.requests.map Vblank.serial :=
    List.mem_map_of_mem (by simp [requests, hv])
  simpa using hp.mem_iff.mp hmem

theorem not_mem_aborted (hp : p.Accounted) (hv : v ∈ p.vblank_queue) : v ∉ p.aborted := fun h =>
  (List.nodup_append'.mp (List.nodup_append'.mp (accounted_nodup hp)).1).2.2 hv h

/-- A request waits as long as it is not aborted and no redraw has reached its frame. -/
theorem mem_after (hp : p.Accounted) (hv : v ∈ p.vblank_queue) (calls : List Call) :
    v ∈ (Run.after step p calls).vblank_queue ↔
      v ∉ (Run.after step p calls).aborted ∧ Before v.msc p calls := by
  -- The last call decides, so the run is taken apart at its end.
  induction calls using List.reverseRecOn with
  | nil => simp [Before, Run.Along, hv, not_mem_aborted hp hv]
  | append_singleton calls c ih =>
    beta_reduce at ih
    have hlt : v.serial < (Run.after step p calls).queued :=
      Run.after_invariant (I := fun p : Present => v.serial < p.queued)
        (fun p c h => lt_of_lt_of_le h step_queued_le) (serial_lt hp hv)
    have hstays := @step_aborted (Run.after step p calls) c v
    rw [Run.after_append, Run.after_cons, Run.after_nil, mem_step (after_accounted hp calls) hlt, ih]
    unfold Before
    rw [Run.along_append]
    simp only [Run.Along, and_true]
    tauto

/-- Requests are notified when their frame comes, and once.  If flips ask for no frame that has
passed and no redraw finds two requests due, the counter does not go back, and what a redraw
notifies is in the order in which it was asked for. -/
theorem vblanks_in_time {msc : BitVec 64} {calls : List Call}
    (h : Run.Along step Orderly (init msc) calls) :
    (∀ earlier later rest, calls = earlier ++ later ++ rest →
      (Run.after step (init msc) earlier).current_msc ≤
        (Run.after step (init msc) (earlier ++ later)).current_msc) ∧
    (∀ earlier id target between later,
      calls = earlier ++ .queueVblank id target true :: (between ++ .redraw :: later) →
      let p₀ := Run.after step (init msc) earlier
      let v : Vblank := ⟨id, target, p₀.queued⟩
      let p₁ := p₀.step (.queueVblank id target true)
      let p₂ := Run.after step p₁ between
      (p₂.step .redraw).log =
          p₂.log ++ p₂.due.map (fun v => .vblank v (p₂.step .redraw).current_msc) ∧
        (v ∈ p₂.due ↔ v ∉ p₂.aborted ∧ Before target p₁ between ∧
          target ≤ (p₂.step .redraw).current_msc)) ∧
    (∀ earlier later, calls = earlier ++ later →
      (Run.after step (init msc) earlier).notified.Nodup) ∧
    ∀ earlier later, calls = earlier ++ .redraw :: later →
      (Run.after step (init msc) earlier).due.Pairwise (fun v w => v.serial < w.serial) := by
  have hinit := init_accounted msc
  refine ⟨?_, ?_, ?_, ?_⟩
  · intro earlier later rest hsplit
    subst hsplit
    have hlater := (Run.along_append.mp (Run.along_append.mp h).1).2
    rw [Run.after_append]
    exact hlater.invariant
      (I := fun p => (Run.after step (init msc) earlier).current_msc ≤ p.current_msc)
      (fun p c hle hc => BitVec.le_trans hle (step_msc_le hc)) (BitVec.le_refl _)
  · intro earlier id target between later hsplit p₀ v p₁ p₂
    -- Behind the call the request is in the queue once, and no list but one holds its number.
    have hacc : p₁.Accounted := step_accounted (after_accounted hinit earlier)
    have hv : v ∈ p₁.vblank_queue := List.mem_cons_self
    refine ⟨redraw_log, ?_⟩
    rw [mem_due, mem_after hacc hv, and_assoc]
    rfl
  · intro earlier later hsplit
    exact (List.nodup_append'.mp (accounted_nodup (after_accounted hinit earlier))).2.1
  · intro earlier later hsplit
    subst hsplit
    have hshort := h.condition.2
    revert hshort
    generalize (Run.after step (init msc) earlier).due = due
    intro hshort
    match due, hshort with
    | [], _ => exact List.Pairwise.nil
    | [v], _ => exact List.pairwise_singleton _ v

/-- One request, which is notified at its frame. -/
theorem vblanks_in_time_once :
    (⟨7, 2, 0⟩ : Vblank) ∈
      (Run.after step (init 0) [.queueVblank 7 2 true, .redraw]).due := by
  have hrun : Run.Along step Orderly (init 0) [.queueVblank 7 2 true, .redraw, .redraw] :=
    ⟨trivial, ⟨by decide +kernel, by decide +kernel⟩, ⟨by decide +kernel, by decide +kernel⟩,
      trivial⟩
  exact ((vblanks_in_time hrun).2.1 [] 7 2 [.redraw] [] rfl).2.mpr
    ⟨by decide +kernel, ⟨fun _ => by decide +kernel, trivial⟩, by decide +kernel⟩

/-- Two requests for the same frame are notified in the wrong order, and a flip for frame 3 in
frame 5 sets the counter back. -/
theorem vblanks_reversed :
    ¬(Run.after step (init 0) [.queueVblank 1 1 true, .queueVblank 2 1 true]).due.Pairwise
        (fun v w => v.serial < w.serial) ∧
      ((init 5).step (.afterFlip 9 3)).current_msc < (init 5).current_msc := by
  decide +kernel

end Present

end XoDos
