import XoDos.QueueThreads

/-!
# No lost wake-up

`notify()` is called only when the queue stops being empty or full, and wakes
one thread.  The consumer waits only at an empty queue and the producer only at
a full one, so that never both of them wait, and that is enough.  But a write
that throws after it has stored bytes does not notify.
-/

namespace XoDos

namespace ByteQueue

namespace Threads

variable {legal : WriteCall → Prop} {n : Nat} {s s' : Threads}

/-- The sum that `write` checks against the length of the buffer does not overflow. -/
def NoOverflow (call : WriteCall) : Prop := call.length + call.offset ≤ 2147483647

/-- A part of an array. -/
def InArray (call : WriteCall) : Prop := 0 ≤ call.offset ∧ NoOverflow call

/-- A thread waits only while there is nothing to do for it. -/
structure Wakeful (legal : WriteCall → Prop) (n : Nat) (s : Threads) : Prop where
  consumer : ∀ buffer block, s.consumer = .inside buffer block .waiting →
    s.queue.mStoredBytes = 0 ∧ s.queue.mOpen = true
  producer : ∀ call offset length, s.producer = .inside call offset length .waiting →
    s.queue.mStoredBytes = n ∧ s.queue.mOpen = true
  legal : ∀ call offset length status, s.producer = .inside call offset length status →
    legal call ∧ call.offset + call.length ≤ call.buffer.length

/-- After a notification that one waiting thread needs, and no other thread can take. -/
theorem Notify.wakeful (h : Notify s s')
    (hc : ∀ buffer block, s.consumer = .inside buffer block .waiting →
      ∀ call offset length, s.producer ≠ .inside call offset length .waiting)
    (hl : ∀ call offset length status, s.producer = .inside call offset length status →
      legal call ∧ call.offset + call.length ≤ call.buffer.length) : Wakeful legal n s' := by
  cases h with
  | nobody hp hc => exact ⟨fun _ _ h => absurd h (hc _ _), fun _ _ _ h => absurd h (hp _ _ _), hl⟩
  | producer hp =>
    refine ⟨fun b k h => ?_, fun _ _ _ h => ?_, fun call offset length status h => ?_⟩
    · exact absurd hp (hc b k h _ _ _)
    · cases h
    · cases h
      exact hl _ _ _ _ hp
  | consumer hcons =>
    exact ⟨by simp, fun _ _ _ h => absurd h (hc _ _ hcons _ _ _), hl⟩

theorem WriteRound.wakeful {goesOn : Bool} (h : WriteRound s goesOn s') (hf : Fifo n s)
    (hs : Wakeful legal n s) : Wakeful legal n s' := by
  obtain ⟨hp, hround, hnotify⟩ := h
  rename_i call offset length left t outcome notifies
  have hleg := hs.legal _ _ _ _ hp
  have hacc := hf.producer
  rw [hp] at hacc
  obtain ⟨-, hl, hsum, hoff, -⟩ := hacc
  obtain ⟨rfl, rfl, rfl, hout⟩ | ⟨k, hk, hkl, hkf, rfl, hopen, rfl, hout⟩ :=
    writeRound_cases hf.queue hround
  · cases hnotify
    obtain ⟨-, rfl⟩ | ⟨hfull, hopen, rfl⟩ | ⟨-, rfl⟩ := hout
    · exact ⟨hs.consumer, by simp [producerAfter], by simp [producerAfter]⟩
    · refine ⟨hs.consumer, fun _ _ _ _ => ⟨hfull, hopen⟩, fun _ _ _ _ h => ?_⟩
      cases h
      exact hleg
    · exact ⟨hs.consumer, by simp [producerAfter], by simp [producerAfter]⟩
  · obtain ⟨e, hthrown, rfl, rfl⟩ | ⟨hthrown, rfl, rfl⟩ := hout
    · -- An exception leaves the queue as it was.
      cases hnotify
      have hq : (storeLoop call.buffer k.toNat s.queue offset k).queue = s.queue := by
        by_cases hneg : offset < 0
        · exact storeLoop_negative call.buffer k.toNat s.queue k hneg
        · exact (storeLoop_thrown k.toNat hf.queue hk.le hkf (by omega) (by omega)
            (by rw [hthrown]; simp)).1
      rw [hq]
      exact ⟨hs.consumer, by simp [producerAfter], by simp [producerAfter]⟩
    · have hleg' : ∀ c o l st, producerAfter call
          (storeLoop call.buffer k.toNat s.queue offset k) (length - k) none = .inside c o l st →
          legal c ∧ c.offset + c.length ≤ c.buffer.length := by
        intro c o l st h
        cases h
        exact hleg
      unfold NotifyIf at hnotify
      split_ifs at hnotify with hempty
      · exact Notify.wakeful hnotify (by simp [producerAfter]) hleg'
      · rw [hnotify]
        have hne : s.queue.mStoredBytes ≠ 0 := by simpa using hempty
        exact ⟨fun b c h => absurd (hs.consumer b c h).1 hne, by simp [producerAfter], hleg'⟩

theorem WriteSection.wakeful (h : WriteSection s s') (hf : Fifo n s) (hs : Wakeful legal n s) :
    Wakeful legal n s' := by
  induction h with
  | last h => exact h.wakeful hf hs
  | more h _ ih => exact ih (h.fifo hf) (h.wakeful hf hs)

theorem ReadSection.wakeful (h : ReadSection s s') (hf : Fifo n s) (hs : Wakeful legal n s) :
    Wakeful legal n s' := by
  obtain ⟨hc, hread, hnotify⟩ := h
  obtain ⟨rfl, rfl, hout⟩ | ⟨hopen, hne, hcopied, rfl, rfl⟩ := read_cases hf.queue hread
  · cases hnotify
    obtain ⟨hempty, hopen, rfl | rfl⟩ | ⟨-, rfl⟩ := hout
    · exact ⟨fun _ _ _ => ⟨hempty, hopen⟩, hs.producer, hs.legal⟩
    · exact ⟨by simp [consumerAfter], hs.producer, hs.legal⟩
    · exact ⟨by simp [consumerAfter], hs.producer, hs.legal⟩
  · unfold NotifyIf at hnotify
    split_ifs at hnotify with hfull
    · exact Notify.wakeful hnotify (by simp [consumerAfter]) hs.legal
    · rw [hnotify]
      have hnf : s.queue.mStoredBytes ≠ n := by simpa using hfull
      exact ⟨by simp [consumerAfter], fun _ _ _ h => absurd (hs.producer _ _ _ h).1 hnf, hs.legal⟩

theorem Step.wakeful (hlegal : ∀ call, legal call → NoOverflow call) (hn : 1 ≤ n)
    (h : Step legal s s') (hf : Fifo n s) (hs : Wakeful legal n s) :
    Wakeful legal n s' := by
  cases h with
  | callWrite buffer offset length hp hcall =>
    split_ifs with hrej
    · exact ⟨hs.consumer, by simp, by simp⟩
    · refine ⟨hs.consumer, by simp, fun _ _ _ _ h => ?_⟩
      cases h
      have hsum := hlegal _ hcall
      obtain ⟨hfits, -⟩ := not_writeRejects hrej
      refine ⟨hcall, ?_⟩
      unfold toInt32 at hfits
      simp only [NoOverflow] at hsum ⊢
      omega
  | callRead => exact ⟨by simp, hs.producer, hs.legal⟩
  | write h => exact h.wakeful hf hs
  | read h => exact h.wakeful hf hs
  | close h =>
    refine Notify.wakeful h (fun b c hc call offset length hp => ?_) hs.legal
    have h₁ := (hs.consumer b c hc).1
    have h₂ := (hs.producer _ _ _ hp).1
    omega
  | wakeProducer hp =>
    refine ⟨hs.consumer, by simp, fun _ _ _ _ h => ?_⟩
    cases h
    exact hs.legal _ _ _ _ hp
  | wakeConsumer => exact ⟨by simp, hs.producer, hs.legal⟩

theorem Reachable.wakeful (hlegal : ∀ call, legal call → NoOverflow call) (hn : 1 ≤ n)
    (hfits : n ≤ 2147483647) (h : Reachable legal n s) : Fifo n s ∧ Wakeful legal n s := by
  refine ⟨h.fifo hn hfits, ?_⟩
  induction h with
  | refl => exact ⟨by simp [new], by simp [new], by simp [new]⟩
  | tail h step ih => exact step.wakeful hlegal hn (Reachable.fifo hn hfits h) ih

/-- As long as no sum overflows, nobody waits, without having been notified, for what has already
happened. -/
theorem no_lost_wakeup (n : Nat) (hn : 1 ≤ n) (hfits : n ≤ 2147483647) (s : Threads)
    (h : Reachable NoOverflow n s) :
    (∀ buffer block, s.consumer = .inside buffer block .waiting →
      ¬ (0 < s.queue.mStoredBytes ∨ s.queue.mOpen = false)) ∧
    ∀ call offset length, s.producer = .inside call offset length .waiting →
      ¬ (s.queue.mStoredBytes < n ∨ s.queue.mOpen = false) := by
  obtain ⟨-, hs⟩ := h.wakeful (fun _ hcall => hcall) hn hfits
  refine ⟨fun b c hc => ?_, fun call offset length hp => ?_⟩
  · obtain ⟨h₁, h₂⟩ := hs.consumer b c hc
    simp [h₁, h₂]
  · obtain ⟨h₁, h₂⟩ := hs.producer _ _ _ hp
    simp [h₁, h₂]

/-- A consumer that has read a byte and waits for the next one. -/
def consumerWaits : Threads := { oneByteRead with consumer := .inside [0] true .waiting }

theorem consumerWaits_reachable {legal : WriteCall → Prop} (h : legal ⟨[7], 0, 1, []⟩) :
    Reachable legal 2 consumerWaits :=
  .tail (.tail (oneByteRead_reachable h) (.callRead [0] true rfl)) (.read (.mk rfl rfl rfl))

theorem no_lost_wakeup_consumerWaits :
    ¬ (0 < consumerWaits.queue.mStoredBytes ∨ consumerWaits.queue.mOpen = false) :=
  (no_lost_wakeup 2 (by decide) (by decide) consumerWaits
    (consumerWaits_reachable (by simp [NoOverflow]))).1 [0] true rfl

/-- A write from 1 on of a length that the array does not have stores the byte that is there, up to the
end of the queue, and throws at the next one. -/
theorem overflow_loses_wakeup : ∃ s, Reachable (fun _ => True) 2 s ∧
    s.consumer = .inside [0] true .waiting ∧ s.queue.mOpen = true ∧ s.queue.mStoredBytes = 1 := by
  let call : WriteCall := ⟨[8, 9], 1, 2147483647, [7]⟩
  have hround : writeRound consumerWaits.queue [8, 9] 1 2147483647 =
      (⟨⟨[7, 9], 1, 1, true⟩, [8, 9], 2, some .arrayIndexOutOfBounds⟩, 2147483645,
        some (.throws .arrayIndexOutOfBounds), false) := by
    simp [writeRound, storeLoop, arraycopy, toInt32, consumerWaits, oneByteRead]
  have hthrows : WriteRound { consumerWaits with producer := .inside call 1 2147483647 .ready } false
      ⟨⟨[7, 9], 1, 1, true⟩, .outside (some (call, .throws .arrayIndexOutOfBounds)),
        .inside [0] true .waiting, [7, 9], [7]⟩ :=
    @WriteRound.mk _ _ _ _ _ _ _ (some (.throws .arrayIndexOutOfBounds)) false rfl hround rfl
  exact ⟨_, .tail (.tail (consumerWaits_reachable trivial) (.callWrite [8, 9] 1 2147483647 rfl trivial))
    (.write (.last hthrows)), rfl, rfl, rfl⟩

end Threads

end ByteQueue

end XoDos
