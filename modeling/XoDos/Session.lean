import XoDos.QueueWakeups

/-!
# `TerminalSession`

The threads that bring the output of a child process to the emulator.  The
reader thread moves bytes from the pty to `mProcessToTerminalIOQueue`, the
waiter thread reports the exit of the child, and the handler on the main thread
takes bytes from the queue and appends them to the emulator.

Messages carry no data.  The handler of any message first reads the queue once;
the message about the exit then closes the queue and appends a notice.
-/

namespace XoDos

open ByteQueue (Threads slice)

/-- The bytes of the current call of `write` that are not in the queue yet. -/
def ByteQueue.Producer.unwritten : ByteQueue.Producer → List Byte
  | .outside _ => []
  | .inside call offset length _ => slice call.buffer offset length

inductive Message where
  | newInput
  | processExited
deriving DecidableEq

inductive Reader where
  /-- Before or in `termIn.read(buffer)`. -/
  | reading
  /-- In `mProcessToTerminalIOQueue.write(buffer, 0, read)`, or just back from it. -/
  | writing
  | stopped
deriving DecidableEq

structure Session where
  /-- Every byte that the child has written to the pty. -/
  output : List Byte
  /-- Those that the reader has not read yet. -/
  pty : List Byte
  exited : Bool
  reader : Reader
  waiterSent : Bool
  /-- `mProcessToTerminalIOQueue`, with the reader as producer and the handler as consumer. -/
  io : Threads
  messages : List Message
  /-- The message whose handler has read the queue, but is not done. -/
  handling : Option Message
  /-- The bytes passed to `mEmulator.append`. -/
  appended : List Byte
  /-- Those passed before the notice was appended. -/
  notice : Option (List Byte)

namespace Session

/-- The size of `mProcessToTerminalIOQueue`, of the reader's and of the handler's buffer. -/
def bufferSize : Nat := 4096

theorem bufferSize_le : bufferSize ≤ 2 ^ 30 := by norm_num [bufferSize]

def start : Session where
  output := []
  pty := []
  exited := false
  reader := .reading
  waiterSent := false
  io := .new bufferSize
  messages := []
  handling := none
  appended := []
  notice := none

/-- No byte is on its way from the child to the queue: the pty is empty, and the reader has put what
it read into the queue. -/
def Quiet (s : Session) : Prop := s.pty = [] ∧ s.io.producer.unwritten = []

/-- `mProcessToTerminalIOQueue.read(mReceiveBuffer, false)`, by which the handler of any message
starts. -/
structure HandlerReads (s : Session) (message : Message) (s' : Session) : Prop where
  free : s.handling = none
  next : ∃ rest, s.messages = message :: rest ∧ ∃ buffer : List Byte, ∃ io,
    buffer.length = bufferSize ∧ s.io.consumer = .outside ∧
    Threads.ReadSection { s.io with consumer := .inside buffer false .ready } io ∧
    s' = { s with
      io := io
      messages := rest
      handling := some message
      appended := s.appended ++ io.returned.drop s.io.returned.length }

/-- A step of the system; `calm` restricts the states in which the handler takes the exit message. -/
inductive Step (calm : Session → Prop) : Session → Session → Prop where
  | childWrites {s : Session} (bytes : List Byte) :
    s.exited = false →
    Step calm s { s with output := s.output ++ bytes, pty := s.pty ++ bytes }
  | childExits {s : Session} : Step calm s { s with exited := true }
  /-- The reader gets at least one byte, in front of what the buffer held before, and calls
  `write`, which accepts its arguments. -/
  | readerReads {s : Session} (count : Nat) (stale : List Byte)
    {last : Option (ByteQueue.WriteCall × ByteQueue.Outcome Bool)} :
    s.reader = .reading → 0 < count → count ≤ s.pty.length → count ≤ bufferSize →
    stale.length = bufferSize - count → s.io.producer = .outside last →
    Step calm s { s with
      pty := s.pty.drop count
      reader := .writing
      io := { s.io with
        producer := .inside ⟨s.pty.take count ++ stale, 0, count, s.io.accepted⟩ 0 count .ready } }
  | readerWrites {s : Session} {io : Threads} :
    Threads.WriteSection s.io io → Step calm s { s with io := io }
  | readerWakes {s : Session} {call : ByteQueue.WriteCall} {offset length : Int} :
    s.io.producer = .inside call offset length .waiting →
    Step calm s { s with io := { s.io with producer := .inside call offset length .ready } }
  | readerSends {s : Session} {call : ByteQueue.WriteCall} :
    s.reader = .writing → s.io.producer = .outside (some (call, .returns true)) →
    Step calm s { s with reader := .reading, messages := s.messages ++ [.newInput] }
  /-- The pty is at its end, or was closed by `cleanupResources`. -/
  | readerEnds {s : Session} :
    s.reader = .reading → (s.exited = true ∧ s.pty = []) ∨ s.notice.isSome = true →
    Step calm s { s with reader := .stopped }
  /-- `write` returned false, or threw. -/
  | readerStops {s : Session} {call : ByteQueue.WriteCall} {outcome : ByteQueue.Outcome Bool} :
    s.reader = .writing → s.io.producer = .outside (some (call, outcome)) →
    outcome ≠ .returns true → Step calm s { s with reader := .stopped }
  | waiterSends {s : Session} :
    s.exited = true → s.waiterSent = false →
    Step calm s { s with waiterSent := true, messages := s.messages ++ [.processExited] }
  | handlerReads {s s' : Session} {message : Message} :
    HandlerReads s message s' → (message = .processExited → calm s) → Step calm s s'
  | inputHandled {s : Session} :
    s.handling = some .newInput → Step calm s { s with handling := none }
  /-- `cleanupResources`, after which the notice is appended. -/
  | exitHandled {s : Session} {io : Threads} :
    s.handling = some .processExited →
    Threads.Notify { s.io with queue := { s.io.queue with mOpen := false } } io →
    Step calm s { s with io := io, handling := none, notice := some s.appended }

def Reachable (calm : Session → Prop) (s : Session) : Prop :=
  Relation.ReflTransGen (Step calm) start s

/-! ## Bytes on their way through the queue -/

section Queue

variable {n : Nat} {s s' : Threads}

theorem Notify.same (h : Threads.Notify s s') :
    s'.queue = s.queue ∧ s'.accepted = s.accepted ∧ s'.returned = s.returned ∧
      s'.producer.unwritten = s.producer.unwritten := by
  cases h with
  | nobody => exact ⟨rfl, rfl, rfl, rfl⟩
  | producer hp => exact ⟨rfl, rfl, rfl, by rw [hp]; rfl⟩
  | consumer => exact ⟨rfl, rfl, rfl, rfl⟩

theorem NotifyIf.same {flag : Bool} (h : Threads.NotifyIf flag s s') :
    s'.queue = s.queue ∧ s'.accepted = s.accepted ∧ s'.returned = s.returned ∧
      s'.producer.unwritten = s.producer.unwritten := by
  unfold Threads.NotifyIf at h
  split_ifs at h
  · exact Notify.same h
  · rw [h]
    exact ⟨rfl, rfl, rfl, rfl⟩

/-- A round of `write` at an open queue only moves bytes from the caller to the queue. -/
theorem WriteRound.balance {goesOn : Bool} (h : Threads.WriteRound s goesOn s')
    (hf : Threads.Fifo n s) (hw : Threads.Wakeful Threads.InArray n s) (hn : n ≤ 2 ^ 30)
    (hopen : s.queue.mOpen = true) :
    s'.accepted ++ s'.producer.unwritten = s.accepted ++ s.producer.unwritten := by
  obtain ⟨hp, hround, hnotify⟩ := h
  rename_i call offset length left t outcome notifies
  obtain ⟨-, ha, -, hu⟩ := NotifyIf.same hnotify
  rw [ha, hu]
  obtain ⟨⟨hbegin, -⟩, hend⟩ := hw.legal _ _ _ _ hp
  have hacc := hf.producer
  rw [hp] at hacc ⊢
  obtain ⟨-, hl, hsum, hoff, -⟩ := hacc
  obtain ⟨rfl, rfl, -, hout⟩ | ⟨k, hk, hkl, hkf, rfl, -, rfl, hout⟩ :=
    Threads.writeRound_cases hf.queue hround
  · obtain ⟨hl', rfl⟩ | ⟨-, -, rfl⟩ | ⟨hclosed, -⟩ := hout
    · rw [show left = 0 by omega]
      simp [Threads.producerAfter, ByteQueue.Producer.unwritten]
    · simp [Threads.producerAfter, ByteQueue.Producer.unwritten]
    · rw [hopen] at hclosed
      cases hclosed
  · have hst : ByteQueue.Stored n s.queue offset k
        (ByteQueue.storeLoop call.buffer k.toNat s.queue offset k) :=
      ByteQueue.storeLoop_stored k.toNat hf.queue hk.le hkf (by omega)
    obtain ⟨e, hthrown, -, -⟩ | ⟨hthrown, rfl, -⟩ := hout
    · -- The sum of head and fill of such a queue is far from overflowing.
      have hover := (ByteQueue.storeLoop_thrown k.toNat hf.queue hk.le hkf (by omega)
        (by omega : offset + k ≤ call.buffer.length) (by rw [hthrown]; simp)).2
      have := hf.queue.head
      have := hf.queue.stored
      omega
    · have hadd := ByteQueue.slice_add (b := call.buffer) (i := offset) (j := k) (k := length - k)
        (by omega) hk.le (by omega)
      simp only [Threads.producerAfter, ByteQueue.Producer.unwritten, hst.complete hthrown,
        add_sub_cancel_left, List.append_assoc, hadd]
      rw [add_sub_cancel]

/-- What a step of the reader does not touch, whether or not the queue is open. -/
theorem WriteRound.frame {goesOn : Bool} (h : Threads.WriteRound s goesOn s')
    (hf : Threads.Fifo n s) (hc : s.consumer = .outside) :
    s'.returned = s.returned ∧ s'.queue.mOpen = s.queue.mOpen ∧ s'.consumer = .outside := by
  obtain ⟨-, hround, hnotify⟩ := h
  obtain ⟨hq, -, hr, -⟩ := NotifyIf.same hnotify
  refine ⟨hr, ?_, ?_⟩
  · rw [hq]
    obtain ⟨rfl, -⟩ | ⟨k, hk, -, hkf, -, -, rfl, -⟩ := Threads.writeRound_cases hf.queue hround
    · rfl
    · exact (ByteQueue.storeLoop_stored k.toNat hf.queue hk.le hkf (by omega)).isOpen
  unfold Threads.NotifyIf at hnotify
  split_ifs at hnotify
  · cases hnotify with
    | nobody => exact hc
    | producer => exact hc
    | consumer h =>
      rw [hc] at h
      cases h
  · rw [hnotify]
    exact hc

theorem WriteSection.balance (h : Threads.WriteSection s s') (hf : Threads.Fifo n s)
    (hw : Threads.Wakeful Threads.InArray n s) (hn : n ≤ 2 ^ 30) (hc : s.consumer = .outside)
    (hopen : s.queue.mOpen = true) :
    s'.accepted ++ s'.producer.unwritten = s.accepted ++ s.producer.unwritten := by
  induction h with
  | last h => exact WriteRound.balance h hf hw hn hopen
  | more h _ ih =>
    obtain ⟨-, h₂, h₃⟩ := WriteRound.frame h hf hc
    have := ih (h.fifo hf) (h.wakeful hf hw) h₃ (h₂.trans hopen)
    exact this.trans (WriteRound.balance h hf hw hn hopen)

theorem WriteSection.frame (h : Threads.WriteSection s s') (hf : Threads.Fifo n s)
    (hc : s.consumer = .outside) :
    s'.returned = s.returned ∧ s'.queue.mOpen = s.queue.mOpen ∧ s'.consumer = .outside := by
  induction h with
  | last h => exact WriteRound.frame h hf hc
  | more h _ ih =>
    obtain ⟨h₁, h₂, h₃⟩ := WriteRound.frame h hf hc
    obtain ⟨h₁', h₂', h₃'⟩ := ih (h.fifo hf) h₃
    exact ⟨h₁'.trans h₁, h₂'.trans h₂, h₃'⟩

/-- The handler does not wait. -/
theorem ReadSection.consumer {buffer : List Byte} (hf : Threads.Fifo n s)
    (h : Threads.ReadSection { s with consumer := .inside buffer false .ready } s') :
    s'.consumer = .outside := by
  obtain ⟨hc, hread, hnotify⟩ := h
  rename_i buffer' block notifies t outcome
  cases hc
  have hq : ByteQueue.Valid n s.queue := hf.queue
  have hout : Threads.consumerAfter t false outcome = .outside := by
    obtain ⟨-, -, ⟨hz, hopen, -⟩ | ⟨-, rfl⟩⟩ | ⟨-, -, -, rfl, -⟩ := Threads.read_cases hq hread
    · simp only [ByteQueue.read, hz, hopen, and_self, if_true] at hread
      obtain ⟨-, rfl, -⟩ := by simpa using hread
      rfl
    · rfl
    · rfl
  unfold Threads.NotifyIf at hnotify
  split_ifs at hnotify
  · cases hnotify with
    | nobody => exact hout
    | producer => exact hout
    | consumer h =>
      rw [hout] at h
      cases h
  · rw [hnotify]
    exact hout

/-- With a buffer of the size of the queue, one read takes everything. -/
theorem ReadSection.drains {buffer : List Byte} (hf : Threads.Fifo n s) (hb : buffer.length = n)
    (hopen : s.queue.mOpen = true)
    (h : Threads.ReadSection { s with consumer := .inside buffer false .ready } s') :
    s'.queue.mOpen = true ∧ s'.accepted = s.accepted ∧
      s'.producer.unwritten = s.producer.unwritten ∧ s'.returned = s.accepted := by
  obtain ⟨hc, hread, hnotify⟩ := h
  cases hc
  obtain ⟨hq, ha, hr, hu⟩ := NotifyIf.same hnotify
  rw [hq, ha, hr, hu]
  have hv : ByteQueue.Valid n s.queue := hf.queue
  obtain ⟨rfl, -, ⟨hz, -, hout⟩ | ⟨hclosed, -⟩⟩ | ⟨-, -, hcopied, rfl, -⟩ :=
    Threads.read_cases hv hread
  · have hnil : s.queue.contents = [] := by
      rw [← List.length_eq_zero_iff, hv.contents_length, hz]
      rfl
    refine ⟨hopen, rfl, rfl, ?_⟩
    rw [← hf.order, hnil]
    obtain rfl | rfl := hout <;> simp [Threads.bytesReturned]
  · rw [hopen] at hclosed
    cases hclosed
  · refine ⟨hcopied.isOpen.trans hopen, rfl, rfl, ?_⟩
    have hs := hv.stored
    simp only [Threads.bytesReturned]
    rw [hcopied.bytes, ← hf.order, hb, min_eq_right (by omega), Int.toNat_zero, List.take_zero,
      List.nil_append]
    congr 1
    exact List.take_of_length_le (by rw [hv.contents_length])

/-- A closed queue gives out nothing. -/
theorem ReadSection.closed {buffer : List Byte} (hf : Threads.Fifo n s)
    (hclosed : s.queue.mOpen = false)
    (h : Threads.ReadSection { s with consumer := .inside buffer false .ready } s') :
    s'.queue.mOpen = false ∧ s'.returned = s.returned := by
  obtain ⟨hc, hread, hnotify⟩ := h
  cases hc
  obtain ⟨hq, -, hr, -⟩ := NotifyIf.same hnotify
  rw [hq, hr]
  have hv : ByteQueue.Valid n s.queue := hf.queue
  obtain ⟨rfl, -, ⟨-, hopen, -⟩ | ⟨-, rfl⟩⟩ | ⟨hopen, -⟩ := Threads.read_cases hv hread
  · rw [hclosed] at hopen
    cases hopen
  · exact ⟨hclosed, by simp [Threads.bytesReturned]⟩
  · rw [hclosed] at hopen
    cases hopen

end Queue

/-! ## What a session keeps track of -/

section Runs

variable {calm : Session → Prop} {s s' : Session}

/-- The exit messages that were sent, wherever they are now. -/
def exits (s : Session) : Nat :=
  s.messages.count .processExited + (if s.handling = some .processExited then 1 else 0) +
    (if s.notice.isSome then 1 else 0)

structure Tracks (s : Session) : Prop where
  queue : Threads.Reachable Threads.InArray bufferSize s.io
  consumer : s.io.consumer = .outside
  appended : s.appended = s.io.returned
  intact : s.notice = none → s.io.queue.mOpen = true
  balance : s.io.queue.mOpen = true → s.io.accepted ++ s.io.producer.unwritten ++ s.pty = s.output
  exits : s.exits = if s.waiterSent then 1 else 0
  waiter : s.waiterSent = true → s.exited = true

theorem Tracks.queue_invariant (h : Tracks s) :
    Threads.Fifo bufferSize s.io ∧ Threads.Wakeful Threads.InArray bufferSize s.io :=
  h.queue.wakeful (fun _ hcall => hcall.2) (by decide) (by decide)

/-- While the exit message is to be handled, nobody has closed the queue. -/
theorem Tracks.open_of_message {rest : List Message} (h : Tracks s)
    (hm : s.messages = .processExited :: rest) : s.io.queue.mOpen = true := by
  refine h.intact ?_
  have := h.exits
  rw [Session.exits, hm, List.count_cons_self] at this
  cases hn : s.notice with
  | none => rfl
  | some x =>
    rw [hn] at this
    simp only [Option.isSome_some, if_true] at this
    split_ifs at this <;> omega

theorem HandlerReads.tracks {message : Message} (h : HandlerReads s message s') (hs : Tracks s) :
    Tracks s' := by
  obtain ⟨hfree, rest, hm, buffer, io, hb, hc, hread, rfl⟩ := h
  have hf := hs.queue_invariant.1
  have hout := ReadSection.consumer hf hread
  have hexits : ({ s with
      io := io
      messages := rest
      handling := some message
      appended := s.appended ++ io.returned.drop s.io.returned.length } : Session).exits =
        s.exits := by
    simp only [Session.exits, hm, hfree, List.count_cons]
    cases message <;> simp
  have hq : Threads.Reachable Threads.InArray bufferSize io :=
    (hs.queue.tail (.callRead buffer false hc)).tail (.read hread)
  cases hopen : s.io.queue.mOpen with
  | true =>
    obtain ⟨h₁, h₂, h₃, h₄⟩ := ReadSection.drains hf hb hopen hread
    refine ⟨hq, hout, ?_, fun _ => h₁, fun _ => ?_, hexits.trans hs.exits, hs.waiter⟩
    · simp only
      rw [hs.appended, h₄, ← hf.order, List.drop_left]
    · simp only
      rw [h₂, h₃]
      exact hs.balance hopen
  | false =>
    obtain ⟨h₁, h₂⟩ := ReadSection.closed hf hopen hread
    refine ⟨hq, hout, ?_, fun hn => ?_, fun ho => ?_, hexits.trans hs.exits, hs.waiter⟩
    · simp only
      rw [h₂, List.drop_length, List.append_nil]
      exact hs.appended
    · have := hs.intact hn
      rw [hopen] at this
      cases this
    · rw [h₁] at ho
      cases ho

theorem Step.tracks (h : Step calm s s') (hs : Tracks s) : Tracks s' := by
  obtain ⟨hf, hw⟩ := hs.queue_invariant
  cases h with
  | childWrites bytes =>
    refine ⟨hs.queue, hs.consumer, hs.appended, hs.intact, fun ho => ?_, hs.exits, hs.waiter⟩
    simp only
    rw [← hs.balance ho]
    simp
  | childExits =>
    exact ⟨hs.queue, hs.consumer, hs.appended, hs.intact, hs.balance, hs.exits, fun _ => rfl⟩
  | readerReads count stale hr hpos hcount hsize hstale hp =>
    have hlen : (s.pty.take count ++ stale).length = bufferSize := by
      rw [List.length_append, List.length_take]
      omega
    have hstep := @Threads.Step.callWrite Threads.InArray _ _ (s.pty.take count ++ stale) 0
      count hp ⟨le_rfl, by simp [Threads.NoOverflow, bufferSize] at hsize ⊢; omega⟩
    have hrej : ByteQueue.writeRejects (s.pty.take count ++ stale) 0 count = false := by
      have : bufferSize = 4096 := rfl
      simp only [ByteQueue.writeRejects, hlen, toInt32, decide_eq_false_iff_not]
      omega
    rw [hrej] at hstep
    refine ⟨hs.queue.tail hstep, hs.consumer, hs.appended, hs.intact, fun ho => ?_, hs.exits,
      hs.waiter⟩
    -- Behind `count` the buffer has bytes of earlier reads, which the queue does not take.
    have hslice : slice (s.pty.take count ++ stale) 0 count = s.pty.take count := by
      rw [slice, Int.toNat_zero, List.drop_zero, Int.toNat_natCast,
        List.take_append_of_le_length (by rw [List.length_take]; omega), List.take_take, min_self]
    have := hs.balance ho
    rw [hp] at this
    rw [← this]
    simp only [ByteQueue.Producer.unwritten, hslice, List.append_nil, List.append_assoc,
      List.take_append_drop]
  | readerWrites h =>
    obtain ⟨h₁, h₂, h₃⟩ := WriteSection.frame h hf hs.consumer
    refine ⟨hs.queue.tail (.write h), h₃, hs.appended.trans h₁.symm, fun hn => ?_, fun ho => ?_,
      hs.exits, hs.waiter⟩
    · exact h₂.trans (hs.intact hn)
    · have hopen := h₂.symm.trans ho
      simp only
      rw [WriteSection.balance h hf hw bufferSize_le hs.consumer hopen]
      exact hs.balance hopen
  | readerWakes hp =>
    refine ⟨hs.queue.tail (.wakeProducer hp), hs.consumer, hs.appended, hs.intact, fun ho => ?_,
      hs.exits, hs.waiter⟩
    have := hs.balance ho
    rw [hp] at this
    exact this
  | readerSends =>
    refine ⟨hs.queue, hs.consumer, hs.appended, hs.intact, hs.balance, ?_, hs.waiter⟩
    rw [← hs.exits]
    simp [Session.exits]
  | readerEnds =>
    exact ⟨hs.queue, hs.consumer, hs.appended, hs.intact, hs.balance, hs.exits, hs.waiter⟩
  | readerStops =>
    exact ⟨hs.queue, hs.consumer, hs.appended, hs.intact, hs.balance, hs.exits, hs.waiter⟩
  | waiterSends he hsent =>
    refine ⟨hs.queue, hs.consumer, hs.appended, hs.intact, hs.balance, ?_, fun _ => he⟩
    have := hs.exits
    simp only [Session.exits, hsent, Bool.false_eq_true, if_false] at this
    simp only [Session.exits, List.count_append, List.count_singleton_self, if_true]
    omega
  | handlerReads h => exact h.tracks hs
  | inputHandled hh =>
    refine ⟨hs.queue, hs.consumer, hs.appended, hs.intact, hs.balance, ?_, hs.waiter⟩
    rw [← hs.exits]
    simp [Session.exits, hh]
  | exitHandled hh hn =>
    obtain ⟨h₁, h₂, h₃, h₄⟩ := Notify.same hn
    refine ⟨hs.queue.tail (.close hn), ?_, hs.appended.trans h₃.symm, by simp, ?_, ?_, hs.waiter⟩
    · cases hn with
      | nobody => exact hs.consumer
      | producer => exact hs.consumer
      | consumer hc =>
        have := hs.consumer
        rw [this] at hc
        cases hc
    · intro ho
      simp only at ho
      rw [h₁] at ho
      cases ho
    · have := hs.exits
      simp only [Session.exits, hh, if_true, Option.isSome_some] at this ⊢
      rw [← this]
      split_ifs at this ⊢ <;> simp_all

theorem Reachable.tracks (h : Reachable calm s) : Tracks s := by
  induction h with
  | refl =>
    refine ⟨.refl, rfl, rfl, fun _ => rfl, fun _ => rfl, rfl, ?_⟩
    simp [start]
  | tail _ h ih => exact h.tracks ih

/-- The handler of the exit message passes on what was accepted by the queue, which is everything
exactly when nothing else is on its way. -/
theorem exit_read_complete_iff (hs : Tracks s) (h : HandlerReads s .processExited s') :
    s'.appended = s'.output ↔ Quiet s := by
  obtain ⟨hfree, rest, hm, buffer, io, hb, hc, hread, rfl⟩ := h
  have hf := hs.queue_invariant.1
  have hopen := hs.open_of_message hm
  have hdrain := (ReadSection.drains hf hb hopen hread).2.2.2
  have hall : s.appended ++ io.returned.drop s.io.returned.length = s.io.accepted := by
    rw [hs.appended, hdrain, ← hf.order, List.drop_left]
  simp only
  rw [hall, ← hs.balance hopen, List.append_assoc, List.self_eq_append_right,
    List.append_eq_nil_iff, Quiet, and_comm]

/-- What a run keeps in which the exit message is taken from the queue in quiet states only. -/
structure Complete (s : Session) : Prop where
  tracks : Tracks s
  handling : s.handling = some .processExited → s.appended = s.output
  notice : ∀ shown, s.notice = some shown → shown = s.output

/-- Once the exit message has been sent, the output is final. -/
theorem Tracks.exited (h : Tracks s)
    (hs : s.handling = some .processExited ∨ s.notice.isSome = true) : s.exited = true := by
  refine h.waiter ?_
  by_contra hc
  have := h.exits
  simp only [Session.exits, hc, if_false] at this
  obtain hs | hs := hs
  · rw [if_pos hs] at this
    omega
  · rw [if_pos hs] at this
    omega

theorem Step.complete (h : Step Quiet s s') (hs : Complete s) : Complete s' := by
  have htracks := h.tracks hs.tracks
  cases h with
  | childWrites bytes he =>
    have hrun (hd : s.handling = some .processExited ∨ s.notice.isSome = true) : False := by
      have := hs.tracks.exited hd
      rw [he] at this
      cases this
    exact ⟨htracks, fun hh => (hrun (.inl hh)).elim,
      fun x hx => (hrun (.inr (by simp only at hx; simp [hx]))).elim⟩
  | childExits => exact ⟨htracks, hs.handling, hs.notice⟩
  | readerReads => exact ⟨htracks, hs.handling, hs.notice⟩
  | readerWrites => exact ⟨htracks, hs.handling, hs.notice⟩
  | readerWakes => exact ⟨htracks, hs.handling, hs.notice⟩
  | readerSends => exact ⟨htracks, hs.handling, hs.notice⟩
  | readerEnds => exact ⟨htracks, hs.handling, hs.notice⟩
  | readerStops => exact ⟨htracks, hs.handling, hs.notice⟩
  | waiterSends => exact ⟨htracks, hs.handling, hs.notice⟩
  | handlerReads h hcalm =>
    rename_i message
    refine ⟨htracks, fun hh => ?_, ?_⟩
    · have hmsg : message = .processExited := by
        obtain ⟨-, rest, -, buffer, io, -, -, -, rfl⟩ := h
        simpa using hh
      subst hmsg
      exact (exit_read_complete_iff hs.tracks h).mpr (hcalm rfl)
    · obtain ⟨-, rest, -, buffer, io, -, -, -, rfl⟩ := h
      exact hs.notice
  | inputHandled => exact ⟨htracks, by simp, hs.notice⟩
  | exitHandled hh =>
    refine ⟨htracks, by simp, fun shown hshown => ?_⟩
    rw [← hs.handling hh]
    simpa using hshown.symm

theorem Reachable.complete (h : Reachable Quiet s) : Complete s := by
  induction h with
  | refl => exact ⟨Reachable.tracks (show Reachable Quiet start from .refl), by simp [start], by simp [start]⟩
  | tail _ h ih => exact h.complete ih

end Runs

/-- If the exit message is only ever taken from the message queue while no byte is on its way to
`mProcessToTerminalIOQueue`, then the notice comes after all of the output.  In any run, the read
that starts the handling of the exit message brings what was appended up to the whole output
exactly in that case. -/
theorem notice_after_output (s : Session) :
    (Reachable Quiet s → ∀ shown, s.notice = some shown → shown = s.output) ∧
      ∀ s', Reachable (fun _ => True) s → HandlerReads s .processExited s' →
        (s'.appended = s'.output ↔ Quiet s) :=
  ⟨fun h => h.complete.notice, fun _ hs h => exit_read_complete_iff hs.tracks h⟩

theorem exists_notifyIf (flag : Bool) (t : Threads) : ∃ t', Threads.NotifyIf flag t t' := by
  cases flag with
  | false => exact ⟨t, rfl⟩
  | true =>
    by_cases hp : ∃ call offset length, t.producer = .inside call offset length .waiting
    · obtain ⟨call, offset, length, hp⟩ := hp
      exact ⟨_, .producer hp⟩
    · by_cases hc : ∃ buffer block, t.consumer = .inside buffer block .waiting
      · obtain ⟨buffer, block, hc⟩ := hc
        exact ⟨_, .consumer hc⟩
      · exact ⟨t, .nobody (fun call offset length h => hp ⟨call, offset, length, h⟩)
          fun buffer block h => hc ⟨buffer, block, h⟩⟩

/-- The reader stores a byte in a new queue, and its call is done. -/
theorem exists_writeSection {n : Nat} (hn : 0 < n) (hle : n ≤ 2 ^ 30) (byte : Byte) (stale : List Byte) :
    ∃ io, Threads.WriteSection
        { Threads.new n with producer := .inside ⟨byte :: stale, 0, 1, []⟩ 0 1 .ready } io ∧
      io.producer.unwritten = [] ∧ io.consumer = .outside := by
  have hq : ByteQueue.Valid n (ByteQueue.new n) := ByteQueue.new_valid hn (by omega)
  obtain ⟨t, left, outcome, notifies, hround⟩ : ∃ t left outcome notifies,
      ByteQueue.writeRound (ByteQueue.new n) (byte :: stale) 0 1 = (t, left, outcome, notifies) :=
    ⟨_, _, _, _, rfl⟩
  obtain ⟨-, -, -, ⟨hnone, -⟩ | ⟨hfull, -⟩ | ⟨hclosed, -⟩⟩ | ⟨k, hk, hk₁, hkf, rfl, -, rfl, hout⟩ :=
    Threads.writeRound_cases hq hround
  · exact absurd hnone (by decide)
  · rw [show (ByteQueue.new n).mStoredBytes = 0 from rfl] at hfull
    omega
  · cases hclosed
  · obtain rfl : k = 1 := by omega
    obtain ⟨e, hthrown, -⟩ | ⟨-, rfl, rfl⟩ := hout
    · have hover := (ByteQueue.storeLoop_thrown 1 hq (by decide) hkf le_rfl
        (show (0 : Int) + 1 ≤ (byte :: stale).length by simp) fun hnone => by
          cases hthrown.symm.trans hnone).2
      exact absurd hover (by simp [ByteQueue.new])
    · -- In the second round there is nothing left to write.
      exact ⟨_, .more (@Threads.WriteRound.mk _ _ _ _ _ _ _ none true rfl hround
        (.nobody (by simp [Threads.producerAfter]) (by simp [Threads.new])))
        (.last (@Threads.WriteRound.mk _ _ _ _ _ _ _ (some (.returns true)) false rfl rfl rfl)), rfl, rfl⟩

/-- The child writes a byte, which is in the queue when the exit is handled. -/
theorem notice_after_output_quiet :
    ∃ s, Reachable Quiet s ∧ s.output = [0x41] ∧ s.notice = some [0x41] := by
  obtain ⟨io, hwrite, hunwritten, hconsumer⟩ := exists_writeSection (n := bufferSize) (by decide)
    bufferSize_le 0x41 (List.replicate (bufferSize - 1) 0)
  have hwritten : Reachable Quiet
      { start with output := [0x41], exited := true, waiterSent := true, reader := .writing, io := io
                   messages := [.processExited] } :=
    .tail (.tail (.tail (.tail (.tail .refl (.childWrites [0x41] rfl))
      (.readerReads 1 (List.replicate (bufferSize - 1) 0) rfl (by decide) (by decide) (by decide)
        List.length_replicate rfl)) (.readerWrites hwrite)) .childExits) (.waiterSends rfl rfl)
  obtain ⟨t, outcome, notifies, hread⟩ : ∃ t outcome notifies,
      ByteQueue.read io.queue (List.replicate bufferSize 0) false = (t, outcome, notifies) :=
    ⟨_, _, _, rfl⟩
  obtain ⟨io₁, hnotify⟩ := exists_notifyIf notifies { io with
    queue := t.queue
    consumer := Threads.consumerAfter t false outcome
    returned := io.returned ++ Threads.bytesReturned t outcome }
  obtain ⟨io₂, hclosed⟩ := exists_notifyIf true { io₁ with queue := { io₁.queue with mOpen := false } }
  have hreads := hwritten.tail (.handlerReads (show HandlerReads _ .processExited _ from
    ⟨rfl, [], rfl, List.replicate bufferSize 0, io₁, List.length_replicate, hconsumer,
      .mk rfl hread hnotify, rfl⟩) fun _ => ⟨rfl, hunwritten⟩)
  have hrun := hreads.tail (.exitHandled rfl hclosed)
  exact ⟨_, hrun, rfl, congrArg some ((notice_after_output _).1 hrun _ rfl)⟩

/-- The child writes a byte and exits, and its exit is handled before the reader gets to run. -/
def lostByte : Session :=
  { start with
    output := [0x41]
    pty := [0x41]
    exited := true
    waiterSent := true
    io := { Threads.new bufferSize with queue := { ByteQueue.new bufferSize with mOpen := false } }
    notice := some [] }

theorem lostByte_reachable : Reachable (fun _ => True) lostByte := by
  have h₁ : Reachable (fun _ => True)
      { start with output := [0x41], pty := [0x41], exited := true, waiterSent := true
                   messages := [.processExited] } :=
    .tail (.tail (.tail .refl (.childWrites [0x41] rfl)) .childExits) (.waiterSends rfl rfl)
  have h₂ : HandlerReads
      { start with output := [0x41], pty := [0x41], exited := true, waiterSent := true
                   messages := [.processExited] } .processExited
      { start with output := [0x41], pty := [0x41], exited := true, waiterSent := true
                   handling := some .processExited } :=
    ⟨rfl, [], rfl, List.replicate bufferSize 0, Threads.new bufferSize, List.length_replicate, rfl,
      .mk rfl rfl rfl, rfl⟩
  exact .tail (.tail h₁ (.handlerReads h₂ fun _ => trivial))
    (.exitHandled rfl (.nobody (by simp [start, Threads.new]) (by simp [start, Threads.new])))

/-- The notice can be appended before any of the output. -/
theorem notice_before_output :
    ∃ s, Reachable (fun _ => True) s ∧ s.output = [0x41] ∧ s.notice = some [] :=
  ⟨lostByte, lostByte_reachable, rfl, rfl⟩

end Session

end XoDos
