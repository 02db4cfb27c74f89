import XoDos.ByteQueue
import Mathlib.Logic.Relation

/-!
# One producer, one consumer and their monitor

The threads around a `ByteQueue`.  A step is what a thread does from one wait
point to the next, while it holds the monitor.  A waiting thread that was
notified, or woke up spuriously, is ready to run again.  Anyone may close the
queue.

The history records the bytes that writes have accepted and those that reads
have returned.
-/

namespace XoDos

namespace ByteQueue

/-- A thread in the monitor runs when it gets the chance, or sits in `wait()`. -/
inductive Status where
  | ready
  | waiting
deriving DecidableEq

/-- The arguments of a call of `write`, with the bytes accepted before it. -/
structure WriteCall where
  buffer : List Byte
  offset : Int
  length : Int
  acceptedBefore : List Byte

inductive Producer where
  | outside (last : Option (WriteCall × Outcome Bool))
  /-- The local variables `offset` and `lengthToWrite`. -/
  | inside (call : WriteCall) (offset lengthToWrite : Int) (status : Status)

inductive Consumer where
  | outside
  | inside (buffer : List Byte) (block : Bool) (status : Status)

structure Threads where
  queue : ByteQueue
  producer : Producer
  consumer : Consumer
  accepted : List Byte
  returned : List Byte

namespace Threads

def new (n : Nat) : Threads := ⟨.new n, .outside none, .outside, [], []⟩

/-- `notify()` wakes one of the waiting threads, if there is one. -/
inductive Notify : Threads → Threads → Prop where
  | nobody {s : Threads} :
    (∀ call offset length, s.producer ≠ .inside call offset length .waiting) →
    (∀ buffer block, s.consumer ≠ .inside buffer block .waiting) → Notify s s
  | producer {s : Threads} {call : WriteCall} {offset length : Int} :
    s.producer = .inside call offset length .waiting →
    Notify s { s with producer := .inside call offset length .ready }
  | consumer {s : Threads} {buffer : List Byte} {block : Bool} :
    s.consumer = .inside buffer block .waiting →
    Notify s { s with consumer := .inside buffer block .ready }

/-- `if (flag) notify();` -/
def NotifyIf (flag : Bool) (s s' : Threads) : Prop := if flag then Notify s s' else s' = s

/-- Where the producer stands after a round of `write`. -/
def producerAfter (call : WriteCall) (t : Transfer) (left : Int) : Option (Outcome Bool) → Producer
  | none => .inside call t.offset left .ready
  | some .waits => .inside call t.offset left .waiting
  | some outcome => .outside (some (call, outcome))

/-- One round of the outer loop of `write`; the flag tells whether the loop goes on. -/
inductive WriteRound : Threads → Bool → Threads → Prop where
  | mk {s s' : Threads} {call : WriteCall} {offset length left : Int} {t : Transfer}
    {outcome : Option (Outcome Bool)} {notifies : Bool} :
    s.producer = .inside call offset length .ready →
    writeRound s.queue call.buffer offset length = (t, left, outcome, notifies) →
    NotifyIf notifies { s with
      queue := t.queue
      producer := producerAfter call t left outcome
      accepted := s.accepted ++ slice call.buffer offset (t.offset - offset) } s' →
    WriteRound s outcome.isNone s'

/-- `write`, until it returns or waits. -/
inductive WriteSection : Threads → Threads → Prop where
  | last {s s' : Threads} : WriteRound s false s' → WriteSection s s'
  | more {s s₁ s' : Threads} : WriteRound s true s₁ → WriteSection s₁ s' → WriteSection s s'

def consumerAfter (t : Transfer) (block : Bool) : Outcome Int → Consumer
  | .waits => .inside t.buffer block .waiting
  | _ => .outside

/-- The bytes that a call of `read` hands to its caller. -/
def bytesReturned (t : Transfer) : Outcome Int → List Byte
  | .returns count => t.buffer.take count.toNat
  | _ => []

/-- `read`, until it returns or waits. -/
inductive ReadSection : Threads → Threads → Prop where
  | mk {s s' : Threads} {buffer : List Byte} {block notifies : Bool} {t : Transfer}
    {outcome : Outcome Int} :
    s.consumer = .inside buffer block .ready →
    read s.queue buffer block = (t, outcome, notifies) →
    NotifyIf notifies { s with
      queue := t.queue
      consumer := consumerAfter t block outcome
      returned := s.returned ++ bytesReturned t outcome } s' →
    ReadSection s s'

/-- A step of the system, in which the calls of `write` satisfy `legal`. -/
inductive Step (legal : WriteCall → Prop) : Threads → Threads → Prop where
  | callWrite {s : Threads} {last : Option (WriteCall × Outcome Bool)} (buffer : List Byte)
    (offset length : Int) :
    s.producer = .outside last → legal ⟨buffer, offset, length, s.accepted⟩ →
    Step legal s { s with
      producer := if writeRejects buffer offset length then
        .outside (some (⟨buffer, offset, length, s.accepted⟩, .throws .illegalArgument))
      else .inside ⟨buffer, offset, length, s.accepted⟩ offset length .ready }
  | callRead {s : Threads} (buffer : List Byte) (block : Bool) :
    s.consumer = .outside → Step legal s { s with consumer := .inside buffer block .ready }
  | write {s s' : Threads} : WriteSection s s' → Step legal s s'
  | read {s s' : Threads} : ReadSection s s' → Step legal s s'
  | close {s s' : Threads} :
    Notify { s with queue := { s.queue with mOpen := false } } s' → Step legal s s'
  | wakeProducer {s : Threads} {call : WriteCall} {offset length : Int} :
    s.producer = .inside call offset length .waiting →
    Step legal s { s with producer := .inside call offset length .ready }
  | wakeConsumer {s : Threads} {buffer : List Byte} {block : Bool} :
    s.consumer = .inside buffer block .waiting →
    Step legal s { s with consumer := .inside buffer block .ready }

/-- The states of a system around a new queue of capacity `n`. -/
def Reachable (legal : WriteCall → Prop) (n : Nat) (s : Threads) : Prop :=
  Relation.ReflTransGen (Step legal) (new n) s

/-! ## First in, first out -/

/-- How much of a call of `write` has been accepted. -/
def Accepted (accepted : List Byte) : Producer → Prop
  | .outside (some (call, .returns true)) =>
    (0 ≤ call.offset ∧ call.offset + call.length ≤ call.buffer.length) ∧
      accepted = call.acceptedBefore ++ slice call.buffer call.offset call.length
  | .outside _ => True
  | .inside call offset length _ =>
    0 < call.length ∧ 0 ≤ length ∧ offset + length = call.offset + call.length ∧
      (offset = call.offset ∨
        (0 ≤ call.offset ∧ call.offset ≤ offset ∧ offset ≤ call.buffer.length)) ∧
      accepted = call.acceptedBefore ++ slice call.buffer call.offset (offset - call.offset)

structure Fifo (n : Nat) (s : Threads) : Prop where
  queue : Valid n s.queue
  order : s.returned ++ s.queue.contents = s.accepted
  producer : Accepted s.accepted s.producer

section Rounds

variable {n : Nat} {q : ByteQueue} {buffer : List Byte} {offset length left : Int} {t : Transfer}
  {notifies : Bool}

/-- Everything that a round of `write` can do. -/
theorem writeRound_cases {outcome : Option (Outcome Bool)} (hq : Valid n q)
    (h : writeRound q buffer offset length = (t, left, outcome, notifies)) :
    (t = ⟨q, buffer, offset, none⟩ ∧ left = length ∧ notifies = false ∧
      ((length ≤ 0 ∧ outcome = some (.returns true)) ∨
        (q.mStoredBytes = n ∧ q.mOpen = true ∧ outcome = some .waits) ∨
        (q.mOpen = false ∧ outcome = some (.returns false)))) ∨
    ∃ k, 0 < k ∧ k ≤ length ∧ k ≤ n - q.mStoredBytes ∧ left = length - k ∧ q.mOpen = true ∧
      t = storeLoop buffer k.toNat q offset k ∧
      ((∃ e, t.thrown = some e ∧ outcome = some (.throws e) ∧ notifies = false) ∨
        (t.thrown = none ∧ outcome = none ∧ notifies = decide (q.mStoredBytes = 0))) := by
  have hs := hq.stored
  unfold writeRound at h
  rw [hq.capacity] at h
  split_ifs at h with h₁ h₂ h₃
  · obtain ⟨rfl, rfl, rfl, rfl⟩ := by simpa using h
    exact .inl ⟨rfl, rfl, rfl, .inl ⟨h₁, rfl⟩⟩
  · obtain ⟨rfl, rfl, rfl, rfl⟩ := by simpa using h
    exact .inl ⟨rfl, rfl, rfl, .inr (.inl ⟨h₂.1.symm, h₂.2, rfl⟩)⟩
  · obtain ⟨rfl, rfl, rfl, rfl⟩ := by simpa using h
    exact .inl ⟨rfl, rfl, rfl, .inr (.inr ⟨h₃, rfl⟩)⟩
  · have hopen : q.mOpen = true := by simpa using h₃
    right
    refine ⟨min length (n - q.mStoredBytes), ?_, min_le_left _ _, min_le_right _ _, ?_⟩
    · have : (n : Int) ≠ q.mStoredBytes := fun he => h₂ ⟨he, hopen⟩
      omega
    · dsimp only at h
      split at h
      · rename_i e he
        obtain ⟨rfl, rfl, rfl, rfl⟩ := by simpa using h
        exact ⟨rfl, hopen, rfl, .inl ⟨e, he, rfl, rfl⟩⟩
      · rename_i he
        obtain ⟨rfl, rfl, rfl, rfl⟩ := by simpa using h
        exact ⟨rfl, hopen, rfl, .inr ⟨he, rfl, rfl⟩⟩

/-- Everything that `read` can do before it waits or returns. -/
theorem read_cases {block : Bool} {outcome : Outcome Int} (hq : Valid n q)
    (h : read q buffer block = (t, outcome, notifies)) :
    (t = ⟨q, buffer, 0, none⟩ ∧ notifies = false ∧
      ((q.mStoredBytes = 0 ∧ q.mOpen = true ∧ (outcome = .waits ∨ outcome = .returns 0)) ∨
        (q.mOpen = false ∧ outcome = .returns (-1)))) ∨
    (q.mOpen = true ∧ q.mStoredBytes ≠ 0 ∧
      Copied n q buffer 0 (min buffer.length q.mStoredBytes) t ∧
      outcome = .returns t.offset ∧ notifies = decide (q.mStoredBytes = n)) := by
  unfold read at h
  split_ifs at h with h₁ h₂ h₃
  · obtain ⟨rfl, rfl, rfl⟩ := by simpa using h
    exact .inl ⟨rfl, rfl, .inl ⟨h₁.1, h₁.2, .inl rfl⟩⟩
  · obtain ⟨rfl, rfl, rfl⟩ := by simpa using h
    exact .inl ⟨rfl, rfl, .inl ⟨h₁.1, h₁.2, .inr rfl⟩⟩
  · obtain ⟨rfl, rfl, rfl⟩ := by simpa using h
    exact .inl ⟨rfl, rfl, .inr ⟨h₃, rfl⟩⟩
  · have hopen : q.mOpen = true := by simpa using h₃
    have hcopied : Copied n q buffer 0 (min buffer.length q.mStoredBytes)
        (readLoop buffer.length q buffer buffer.length 0) :=
      readLoop_copied _ hq (by omega) le_rfl (by omega) le_rfl
    dsimp only at h
    rw [hcopied.thrown] at h
    obtain ⟨rfl, rfl, rfl⟩ := by simpa using h
    refine .inr ⟨hopen, fun hz => h₁ ⟨hz, hopen⟩, hcopied, rfl, ?_⟩
    rw [hq.capacity]
    exact decide_eq_decide.mpr eq_comm

end Rounds

section Fifo

variable {n : Nat} {s s' : Threads} {legal : WriteCall → Prop}

theorem Notify.fifo (h : Notify s s') (hs : Fifo n s) : Fifo n s' := by
  cases h with
  | nobody => exact hs
  | producer hp =>
    have := hs.producer
    rw [hp] at this
    exact ⟨hs.queue, hs.order, this⟩
  | consumer => exact ⟨hs.queue, hs.order, hs.producer⟩

theorem NotifyIf.fifo {flag : Bool} (h : NotifyIf flag s s') (hs : Fifo n s) : Fifo n s' := by
  unfold NotifyIf at h
  split_ifs at h
  · exact Notify.fifo h hs
  · rw [h]
    exact hs

theorem WriteRound.fifo {goesOn : Bool} (h : WriteRound s goesOn s') (hs : Fifo n s) : Fifo n s' := by
  obtain ⟨hp, hround, hnotify⟩ := h
  rename_i call offset length left t outcome notifies
  refine hnotify.fifo ?_
  have hacc := hs.producer
  rw [hp] at hacc
  obtain ⟨hcall, hl, hsum, hoff, hbytes⟩ := hacc
  obtain ⟨rfl, rfl, -, hout⟩ | ⟨k, hk, hkl, hkf, rfl, -, rfl, hout⟩ :=
    writeRound_cases hs.queue hround
  · -- Nothing was stored.
    refine ⟨hs.queue, by simpa using hs.order, ?_⟩
    obtain ⟨hl', rfl⟩ | ⟨-, -, rfl⟩ | ⟨-, rfl⟩ := hout
    · simp only [producerAfter, Accepted, sub_self, slice_zero, List.append_nil]
      refine ⟨by omega, ?_⟩
      rw [hbytes]
      congr 2
      omega
    · simpa [producerAfter, Accepted] using ⟨hcall, hl, hsum, hoff, hbytes⟩
    · exact trivial
  · have hst : Stored n s.queue offset k (storeLoop call.buffer k.toNat s.queue offset k) :=
      storeLoop_stored k.toNat hs.queue hk.le hkf (by omega)
    have hbuf := storeLoop_buffer call.buffer k.toNat s.queue offset k
    have hpr := hst.progress
    have hlegal := hst.legal
    rw [hbuf] at hlegal
    refine ⟨hst.valid, ?_, ?_⟩
    · simp only
      rw [hst.contents, ← List.append_assoc, hs.order, hbuf]
    · obtain ⟨e, -, rfl, -⟩ | ⟨hthrown, rfl, -⟩ := hout
      · exact trivial
      -- The bytes of this round come right behind those that the call has had accepted before.
      · have hdone := hst.complete hthrown
        refine ⟨hcall, by omega, by omega, by omega, ?_⟩
        simp only
        rw [hbytes, List.append_assoc]
        congr 1
        obtain rfl | ⟨h₀, h₁, -⟩ := hoff
        · simp
        · have := slice_add (b := call.buffer) (i := call.offset)
            (j := offset - call.offset) (k := k) h₀ (by omega) hk.le
          rw [show call.offset + (offset - call.offset) = offset by omega] at this
          rw [hdone, show offset + k - offset = k by omega, this]
          congr 1
          omega

theorem WriteSection.fifo (h : WriteSection s s') (hs : Fifo n s) : Fifo n s' := by
  induction h with
  | last h => exact h.fifo hs
  | more h _ ih => exact ih (h.fifo hs)

theorem ReadSection.fifo (h : ReadSection s s') (hs : Fifo n s) : Fifo n s' := by
  obtain ⟨-, hread, hnotify⟩ := h
  refine hnotify.fifo ?_
  obtain ⟨rfl, -, hout⟩ | ⟨-, -, hcopied, rfl, -⟩ := read_cases hs.queue hread
  · refine ⟨hs.queue, ?_, hs.producer⟩
    obtain ⟨-, -, rfl | rfl⟩ | ⟨-, rfl⟩ := hout <;> simpa [bytesReturned] using hs.order
  · refine ⟨hcopied.valid, ?_, hs.producer⟩
    simp only [bytesReturned]
    rw [hcopied.bytes, hcopied.contents, ← hs.order]
    simp

theorem Step.fifo (h : Step legal s s') (hs : Fifo n s) : Fifo n s' := by
  cases h with
  | callWrite buffer offset length _ _ =>
    refine ⟨hs.queue, hs.order, ?_⟩
    simp only
    split_ifs with hrej
    · exact trivial
    · have hlen := (not_writeRejects hrej).2
      exact ⟨hlen, hlen.le, rfl, .inl rfl, by simp⟩
  | callRead => exact ⟨hs.queue, hs.order, hs.producer⟩
  | write h => exact h.fifo hs
  | read h => exact h.fifo hs
  | close h => exact h.fifo ⟨⟨hs.queue.capacity, hs.queue.fits, hs.queue.head, hs.queue.stored⟩,
      hs.order, hs.producer⟩
  | wakeProducer hp =>
    have := hs.producer
    rw [hp] at this
    exact ⟨hs.queue, hs.order, this⟩
  | wakeConsumer => exact ⟨hs.queue, hs.order, hs.producer⟩

theorem Reachable.fifo (hn : 1 ≤ n) (hfits : n ≤ 2147483647) (h : Reachable legal n s) : Fifo n s := by
  induction h with
  | refl =>
    refine ⟨new_valid hn hfits, ?_, trivial⟩
    simp [new, ByteQueue.new, contents]
  | tail _ h ih => exact h.fifo ih

/-- Reads return the accepted bytes in order, what they have not returned is stored, and a write
that returns true has put all of its bytes behind those accepted before. -/
theorem queue_lossless (n : Nat) (hn : 1 ≤ n) (hfits : n ≤ 2147483647) (s : Threads)
    (h : Reachable (fun _ => True) n s) :
    s.returned ++ s.queue.contents = s.accepted ∧
      (0 ≤ s.queue.mHead ∧ s.queue.mHead < n) ∧
      (0 ≤ s.queue.mStoredBytes ∧ s.queue.mStoredBytes ≤ n) ∧
      ∀ call, s.producer = .outside (some (call, .returns true)) →
        (0 ≤ call.offset ∧ call.offset + call.length ≤ call.buffer.length) ∧
          s.accepted = call.acceptedBefore ++ slice call.buffer call.offset call.length := by
  have hs := h.fifo hn hfits
  refine ⟨hs.order, hs.queue.head, hs.queue.stored, fun call hcall => ?_⟩
  have := hs.producer
  rwa [hcall] at this

/-- A byte has been written into a queue of capacity two, and read. -/
def oneByteRead : Threads :=
  ⟨⟨[7, 0], 1, 0, true⟩, .outside (some (⟨[7], 0, 1, []⟩, .returns true)), .outside, [7], [7]⟩

theorem oneByteRead_reachable {legal : WriteCall → Prop} (h : legal ⟨[7], 0, 1, []⟩) :
    Reachable legal 2 oneByteRead := by
  have hstored : WriteRound { new 2 with producer := .inside ⟨[7], 0, 1, []⟩ 0 1 .ready } true
      ⟨⟨[7, 0], 0, 1, true⟩, .inside ⟨[7], 0, 1, []⟩ 1 0 .ready, .outside, [7], []⟩ :=
    @WriteRound.mk _ _ _ _ _ _ _ none true rfl rfl (.nobody (by simp [producerAfter]) (by simp [new]))
  have hreturned : WriteRound
      ⟨⟨[7, 0], 0, 1, true⟩, .inside ⟨[7], 0, 1, []⟩ 1 0 .ready, .outside, [7], []⟩ false
      ⟨⟨[7, 0], 0, 1, true⟩, .outside (some (⟨[7], 0, 1, []⟩, .returns true)), .outside, [7], []⟩ :=
    @WriteRound.mk _ _ _ _ _ _ _ (some (.returns true)) false rfl rfl rfl
  exact .tail (.tail (.tail (.tail .refl (.callWrite [7] 0 1 rfl h))
    (.write (.more hstored (.last hreturned)))) (.callRead [0] true rfl)) (.read (.mk rfl rfl rfl))

/-- Two more bytes, of which the second is stored at the front. -/
def wrappedWritten : Threads :=
  ⟨⟨[9, 8], 1, 2, true⟩, .outside (some (⟨[8, 9], 0, 2, [7]⟩, .returns true)), .outside, [7, 8, 9],
    [7]⟩

theorem wrappedWritten_reachable : Reachable (fun _ => True) 2 wrappedWritten := by
  have hstored : WriteRound { oneByteRead with producer := .inside ⟨[8, 9], 0, 2, [7]⟩ 0 2 .ready } true
      ⟨⟨[9, 8], 1, 2, true⟩, .inside ⟨[8, 9], 0, 2, [7]⟩ 2 0 .ready, .outside, [7, 8, 9], [7]⟩ :=
    @WriteRound.mk _ _ _ _ _ _ _ none true rfl rfl
      (.nobody (by simp [producerAfter]) (by simp [oneByteRead]))
  have hreturned : WriteRound
      ⟨⟨[9, 8], 1, 2, true⟩, .inside ⟨[8, 9], 0, 2, [7]⟩ 2 0 .ready, .outside, [7, 8, 9], [7]⟩ false
      wrappedWritten :=
    @WriteRound.mk _ _ _ _ _ _ _ (some (.returns true)) false rfl rfl rfl
  exact .tail (.tail (oneByteRead_reachable trivial) (.callWrite [8, 9] 0 2 rfl trivial))
    (.write (.more hstored (.last hreturned)))

theorem queue_lossless_wrapped :
    [7] ++ wrappedWritten.queue.contents = [7, 8, 9] ∧ [7, 8, 9] = [7] ++ slice [8, 9] 0 2 := by
  have h := queue_lossless 2 (by decide) (by decide) wrappedWritten wrappedWritten_reachable
  exact ⟨h.1, (h.2.2.2 _ rfl).2⟩

end Fifo

end Threads

end ByteQueue

end XoDos
