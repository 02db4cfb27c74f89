import XoDos.QueueThreads

/-!
# A call of `write`

What a call of `write` for a whole array does from its beginning to its end, while the other thread
reads: with no bytes it is refused, and otherwise it puts all of them into the queue as long as the
queue is open.  It can come to its end from wherever it is.
-/

namespace XoDos

namespace ByteQueue

namespace Threads

open Relation (ReflTransGen)

/-- A step that begins no other call of `write`. -/
abbrev Meanwhile : Threads → Threads → Prop := Step fun _ => False

/-- The call `write(buffer, 0, buffer.length)`. -/
def callOf (s : Threads) (buffer : List Byte) : WriteCall := ⟨buffer, 0, buffer.length, s.accepted⟩

def begun (s : Threads) (buffer : List Byte) : Producer :=
  if writeRejects buffer 0 buffer.length then
    .outside (some (s.callOf buffer, .throws .illegalArgument))
  else .inside (s.callOf buffer) 0 buffer.length .ready

theorem writeRejects_whole (buffer : List Byte) :
    writeRejects buffer 0 buffer.length = true ↔ buffer = [] := by
  have hle : toInt32 ((buffer.length : Int) + 0) ≤ buffer.length := by
    unfold toInt32
    omega
  rw [writeRejects, decide_eq_true_iff, ← List.length_eq_zero_iff]
  omega

theorem begun_nil (s : Threads) : s.begun [] = .outside (some (s.callOf [], .throws .illegalArgument)) := by
  simp only [begun, if_pos ((writeRejects_whole []).mpr rfl)]

theorem begun_of_ne_nil (s : Threads) {buffer : List Byte} (h : buffer ≠ []) :
    s.begun buffer = .inside (s.callOf buffer) 0 buffer.length .ready := by
  have hno : ¬writeRejects buffer 0 buffer.length = true := by rwa [writeRejects_whole]
  simp only [begun, if_neg hno]

attribute [irreducible] begun

def calling (s : Threads) (buffer : List Byte) : Threads := { s with producer := s.begun buffer }

section Fields

variable (s : Threads) (buffer : List Byte)

theorem calling_queue : (s.calling buffer).queue = s.queue := by
  cases s
  rfl

theorem calling_producer : (s.calling buffer).producer = s.begun buffer := by
  rw [calling]

theorem calling_accepted : (s.calling buffer).accepted = s.accepted := by
  cases s
  rfl

theorem calling_returned : (s.calling buffer).returned = s.returned := by
  cases s
  rfl

end Fields

/-- The call from its beginning to a state in which it has ended. -/
structure Call (buffer : List Byte) (s : Threads) (outcome : Outcome Bool) (s' : Threads) : Prop where
  idle : ∃ last, s.producer = .outside last
  run : ReflTransGen Meanwhile (s.calling buffer) s'
  ended : s'.producer = .outside (some (s.callOf buffer, outcome))

/-! ## Notifications -/

section Notify

variable {n : Nat} {s s' : Threads}

/-- Somebody can always be notified, or nobody waits. -/
theorem notify_exists (s : Threads) : ∃ s', Notify s s' := by
  by_cases hp : ∃ call offset length, s.producer = .inside call offset length .waiting
  · rcases hp with ⟨call, offset, length, hp⟩
    exact ⟨_, .producer hp⟩
  by_cases hc : ∃ buffer block, s.consumer = .inside buffer block .waiting
  · rcases hc with ⟨buffer, block, hc⟩
    exact ⟨_, .consumer hc⟩
  exact ⟨s, .nobody (fun call offset length h => hp ⟨call, offset, length, h⟩)
    fun buffer block h => hc ⟨buffer, block, h⟩⟩

theorem notifyIf_exists (flag : Bool) (s : Threads) : ∃ s', NotifyIf flag s s' := by
  cases flag with
  | false => exact ⟨s, rfl⟩
  | true => exact notify_exists s

/-- What a notification changes. -/
structure Woken (s s' : Threads) : Prop where
  queue : s'.queue = s.queue
  accepted : s'.accepted = s.accepted
  outside : ∀ last, s.producer = .outside last → s'.producer = .outside last
  inside : ∀ call offset length status, s.producer = .inside call offset length status →
    ∃ status', s'.producer = .inside call offset length status' ∧ (status = .ready → status' = .ready)
  consumer : s.consumer = .outside → s'.consumer = .outside

theorem Woken.refl (s : Threads) : Woken s s :=
  ⟨rfl, rfl, fun _ h => h, fun _ _ _ status h => ⟨status, h, id⟩, id⟩

theorem Notify.woken (h : Notify s s') : Woken s s' := by
  cases h with
  | nobody => exact .refl s
  | producer hp =>
    refine ⟨rfl, rfl, ?_, ?_, id⟩
    · intro last h
      rw [hp] at h
      cases h
    · intro call offset length status h
      rw [hp] at h
      cases h
      exact ⟨.ready, rfl, fun _ => rfl⟩
  | consumer hc =>
    refine ⟨rfl, rfl, fun _ h => h, fun _ _ _ status h => ⟨status, h, id⟩, ?_⟩
    intro h
    rw [hc] at h
    cases h

theorem NotifyIf.woken {flag : Bool} (h : NotifyIf flag s s') : Woken s s' := by
  cases flag with
  | false =>
    rw [show s' = s from h]
    exact .refl s
  | true => exact Notify.woken h

end Notify

/-! ## What a step leaves alone -/

section Frame

variable {n : Nat} {s s' : Threads}

theorem WriteRound.inside {goesOn : Bool} (h : WriteRound s goesOn s') :
    ∃ call offset length, s.producer = .inside call offset length .ready := by
  obtain ⟨hp, -, -⟩ := h
  exact ⟨_, _, _, hp⟩

theorem WriteSection.inside (h : WriteSection s s') :
    ∃ call offset length, s.producer = .inside call offset length .ready := by
  cases h with
  | last h => exact h.inside
  | more h => exact h.inside

theorem WriteRound.isOpen {goesOn : Bool} (h : WriteRound s goesOn s') (hf : Fifo n s) :
    s'.queue.mOpen = s.queue.mOpen := by
  obtain ⟨-, hround, hnotify⟩ := h
  rw [hnotify.woken.queue]
  rcases writeRound_cases hf.queue hround with ⟨rfl, -⟩ | ⟨k, hk, -, hfree, -, -, rfl, -⟩
  · rfl
  · exact (storeLoop_stored k.toNat hf.queue hk.le hfree (by omega)).isOpen

theorem WriteSection.isOpen (h : WriteSection s s') (hf : Fifo n s) :
    s'.queue.mOpen = s.queue.mOpen := by
  induction h with
  | last h => exact h.isOpen hf
  | more h _ ih => exact (ih (h.fifo hf)).trans (h.isOpen hf)

theorem ReadSection.isOpen (h : ReadSection s s') (hf : Fifo n s) :
    s'.queue.mOpen = s.queue.mOpen := by
  obtain ⟨-, hread, hnotify⟩ := h
  rw [hnotify.woken.queue]
  rcases read_cases hf.queue hread with ⟨rfl, -⟩ | ⟨-, -, hcopied, -⟩
  · rfl
  · exact hcopied.isOpen

/-- A queue that is open has been open before. -/
theorem Meanwhile.isOpen (h : Meanwhile s s') (hf : Fifo n s) (hopen : s'.queue.mOpen = true) :
    s.queue.mOpen = true := by
  cases h with
  | callWrite _ _ _ _ hno => exact hno.elim
  | callRead => exact hopen
  | write h => exact (h.isOpen hf).symm.trans hopen
  | read h => exact (h.isOpen hf).symm.trans hopen
  | close h =>
    rw [h.woken.queue] at hopen
    cases hopen
  | wakeProducer => exact hopen
  | wakeConsumer => exact hopen

/-- Without a call of `write`, nothing is accepted. -/
theorem Meanwhile.outside {last : Option (WriteCall × Outcome Bool)} (h : Meanwhile s s')
    (hp : s.producer = .outside last) : s'.producer = .outside last ∧ s'.accepted = s.accepted := by
  cases h with
  | callWrite _ _ _ _ hno => exact hno.elim
  | callRead => exact ⟨hp, rfl⟩
  | write h =>
    rcases h.inside with ⟨_, _, _, hin⟩
    rw [hp] at hin
    cases hin
  | read h =>
    obtain ⟨-, -, hnotify⟩ := h
    exact ⟨hnotify.woken.outside last hp, hnotify.woken.accepted⟩
  | close h => exact ⟨h.woken.outside last hp, h.woken.accepted⟩
  | wakeProducer hin =>
    rw [hp] at hin
    cases hin
  | wakeConsumer => exact ⟨hp, rfl⟩

theorem outside_run {last : Option (WriteCall × Outcome Bool)} (h : ReflTransGen Meanwhile s s')
    (hp : s.producer = .outside last) : s'.producer = .outside last ∧ s'.accepted = s.accepted := by
  induction h with
  | refl => exact ⟨hp, rfl⟩
  | tail _ hstep ih =>
    have hnext := Meanwhile.outside hstep ih.1
    exact ⟨hnext.1, hnext.2.trans ih.2⟩

end Frame

/-! ## A call that is under way -/

section Writing

variable {n : Nat} {s s' : Threads} {call : WriteCall} {offset length : Int} {status : Status}

/-- The producer is in the call, or has come back from it. -/
def OnCall (call : WriteCall) : Producer → Prop
  | .outside last => last = some (call, .returns true)
  | .inside call' _ _ _ => call' = call

structure Writing (n : Nat) (call : WriteCall) (s : Threads) : Prop where
  fifo : Fifo n s
  isOpen : s.queue.mOpen = true
  onCall : OnCall call s.producer

/-- The bytes are there. -/
def Whole (call : WriteCall) : Prop :=
  0 ≤ call.offset ∧ call.offset + call.length ≤ call.buffer.length

theorem Woken.onCall (h : Woken s s') (hp : OnCall call s.producer) : OnCall call s'.producer := by
  cases hs : s.producer with
  | outside last =>
    rw [h.outside last hs]
    rwa [hs] at hp
  | inside call' offset length status =>
    obtain ⟨status', hs', -⟩ := h.inside _ _ _ _ hs
    rw [hs']
    rwa [hs] at hp

/-- A round of `write` at a queue whose indices do not overflow throws nothing. -/
theorem round_ok {t : Transfer} {left : Int} {outcome : Option (Outcome Bool)} {notifies : Bool}
    (hw : Writing n call s) (hn : n ≤ 2 ^ 30) (hwhole : Whole call)
    (hp : s.producer = .inside call offset length .ready)
    (hround : writeRound s.queue call.buffer offset length = (t, left, outcome, notifies)) :
    (left = length ∧ t = ⟨s.queue, call.buffer, offset, none⟩ ∧ notifies = false ∧
      (length ≤ 0 ∧ outcome = some (.returns true) ∨
        s.queue.mStoredBytes = n ∧ outcome = some .waits)) ∨
    left < length ∧ outcome = none := by
  have hacc := hw.fifo.producer
  rw [hp] at hacc
  obtain ⟨hcall, hl, hsum, hoff, -⟩ := hacc
  unfold Whole at hwhole
  rcases writeRound_cases hw.fifo.queue hround with
    ⟨ht, hleft, hnotifies, hout | hout | hout⟩ | ⟨k, hk, hkl, hfree, hleft, -, ht, hout⟩
  · exact .inl ⟨hleft, ht, hnotifies, .inl hout⟩
  · exact .inl ⟨hleft, ht, hnotifies, .inr ⟨hout.1, hout.2.2⟩⟩
  · rw [hw.isOpen] at hout
    cases hout.1
  · rcases hout with ⟨e, hthrown, -⟩ | ⟨-, hnone, -⟩
    · have hover := (storeLoop_thrown k.toNat hw.fifo.queue hk.le hfree (by omega)
        (by omega : offset + k ≤ call.buffer.length) (by rw [← ht, hthrown]; simp)).2
      have hhead := hw.fifo.queue.head
      have hstored := hw.fifo.queue.stored
      omega
    · exact .inr ⟨by omega, hnone⟩

theorem WriteRound.writing {goesOn : Bool} (h : WriteRound s goesOn s') (hw : Writing n call s)
    (hn : n ≤ 2 ^ 30) (hwhole : Whole call) : Writing n call s' := by
  refine ⟨h.fifo hw.fifo, (h.isOpen hw.fifo).trans hw.isOpen, ?_⟩
  obtain ⟨hp, hround, hnotify⟩ := h
  have hcall := hw.onCall
  rw [hp] at hcall
  cases hcall
  apply hnotify.woken.onCall
  rcases round_ok hw hn hwhole hp hround with ⟨-, -, -, ⟨-, rfl⟩ | ⟨-, rfl⟩⟩ | ⟨-, rfl⟩
  · rfl
  · rfl
  · rfl

theorem WriteSection.writing (h : WriteSection s s') (hw : Writing n call s) (hn : n ≤ 2 ^ 30)
    (hwhole : Whole call) : Writing n call s' := by
  induction h with
  | last h => exact h.writing hw hn hwhole
  | more h _ ih => exact ih (h.writing hw hn hwhole)

theorem Meanwhile.writing (h : Meanwhile s s') (hopen : s'.queue.mOpen = true)
    (hw : Writing n call s) (hn : n ≤ 2 ^ 30) (hwhole : Whole call) : Writing n call s' := by
  refine ⟨h.fifo hw.fifo, hopen, ?_⟩
  cases h with
  | callWrite _ _ _ _ hno => exact hno.elim
  | callRead => exact hw.onCall
  | write h => exact (h.writing hw hn hwhole).onCall
  | read h =>
    obtain ⟨-, -, hnotify⟩ := h
    exact hnotify.woken.onCall hw.onCall
  | close h => exact h.woken.onCall hw.onCall
  | wakeProducer hp =>
    have hcall := hw.onCall
    rw [hp] at hcall
    exact hcall
  | wakeConsumer => exact hw.onCall

theorem fifo_run (h : ReflTransGen Meanwhile s s') (hf : Fifo n s) : Fifo n s' := by
  induction h with
  | refl => exact hf
  | tail _ hstep ih => exact Step.fifo hstep ih

theorem isOpen_run (h : ReflTransGen Meanwhile s s') (hf : Fifo n s)
    (hopen : s'.queue.mOpen = true) : s.queue.mOpen = true := by
  induction h with
  | refl => exact hopen
  | tail hrun hstep ih => exact ih (hstep.isOpen (fifo_run hrun hf) hopen)

theorem writing_run (h : ReflTransGen Meanwhile s s') (hopen : s'.queue.mOpen = true)
    (hf : Fifo n s) (hcall : OnCall call s.producer) (hn : n ≤ 2 ^ 30) (hwhole : Whole call) :
    Writing n call s' := by
  induction h with
  | refl => exact ⟨hf, hopen, hcall⟩
  | tail hrun hstep ih =>
    exact Meanwhile.writing hstep hopen (ih (hstep.isOpen (fifo_run hrun hf) hopen)) hn hwhole

end Writing

/-! ## Calls -/

section Calls

variable {n : Nat} {s s' : Threads} {buffer : List Byte} {outcome : Outcome Bool}

theorem whole_callOf (s : Threads) (buffer : List Byte) : Whole (s.callOf buffer) := by
  simp [Whole, callOf]

theorem calling_fifo (hf : Fifo n s) (buffer : List Byte) : Fifo n (s.calling buffer) := by
  constructor
  · rw [calling_queue]
    exact hf.queue
  · rw [calling_queue, calling_returned, calling_accepted]
    exact hf.order
  · rw [calling_producer, calling_accepted]
    by_cases hnil : buffer = []
    · rw [hnil, begun_nil]
      trivial
    · rw [begun_of_ne_nil s hnil]
      have hpos : 0 < buffer.length := List.length_pos_of_ne_nil hnil
      exact ⟨by simpa [callOf] using hpos, by omega, rfl, .inl rfl, by simp [callOf]⟩

theorem Call.fifo (h : Call buffer s outcome s') (hf : Fifo n s) : Fifo n s' :=
  fifo_run h.run (calling_fifo hf buffer)

/-- A queue that is open after a call was open before. -/
theorem Call.before (h : Call buffer s outcome s') (hf : Fifo n s) (hopen : s'.queue.mOpen = true) :
    s.queue.mOpen = true := by
  rw [← calling_queue s buffer]
  exact isOpen_run h.run (calling_fifo hf buffer) hopen

/-- A call without bytes is refused. -/
theorem Call.refused (h : Call [] s outcome s') :
    outcome = .throws .illegalArgument ∧ s'.accepted = s.accepted := by
  obtain ⟨hp', haccepted⟩ := outside_run h.run ((s.calling_producer []).trans (begun_nil s))
  rw [calling_accepted] at haccepted
  rw [h.ended] at hp'
  cases hp'
  exact ⟨rfl, haccepted⟩

/-- Any other call puts its bytes behind those that are there. -/
theorem Call.complete (h : Call buffer s outcome s') (hne : buffer ≠ []) (hf : Fifo n s)
    (hn : n ≤ 2 ^ 30) (hopen : s'.queue.mOpen = true) :
    outcome = .returns true ∧ s'.accepted = s.accepted ++ buffer := by
  have hon : OnCall (s.callOf buffer) (s.calling buffer).producer := by
    rw [calling_producer, begun_of_ne_nil s hne]
    rfl
  have hw := writing_run h.run hopen (calling_fifo hf buffer) hon hn (whole_callOf s buffer)
  have hcall := hw.onCall
  rw [h.ended] at hcall
  cases hcall
  have hacc := hw.fifo.producer
  rw [h.ended] at hacc
  refine ⟨rfl, hacc.2.trans ?_⟩
  simp [callOf, slice]

end Calls

/-! ## Coming to the end -/

section Progress

variable {n : Nat} {s s' : Threads} {call : WriteCall} {offset length : Int} {status : Status}

/-- From a round on, the section goes to the end of the call, or waits at a full queue. -/
theorem section_exists (hw : Writing n call s) (hn : n ≤ 2 ^ 30) (hwhole : Whole call)
    (hp : s.producer = .inside call offset length .ready) :
    ∃ s', WriteSection s s' ∧ (s'.producer = .outside (some (call, .returns true)) ∨
      ∃ offset' length', s'.producer = .inside call offset' length' .waiting ∧ length' ≤ length ∧
        (s.queue.mStoredBytes < n → length' < length)) := by
  obtain ⟨m, hm⟩ : ∃ m : Nat, length.toNat = m := ⟨_, rfl⟩
  induction m using Nat.strong_induction_on generalizing s offset length with
  | h m ih =>
    rcases hround : writeRound s.queue call.buffer offset length with ⟨t, left, outcome, notifies⟩
    obtain ⟨s₁, hnotify⟩ := notifyIf_exists notifies { s with
      queue := t.queue
      producer := producerAfter call t left outcome
      accepted := s.accepted ++ slice call.buffer offset (t.offset - offset) }
    have hstep := WriteRound.mk hp hround hnotify
    rcases round_ok hw hn hwhole hp hround with
      ⟨rfl, rfl, rfl, ⟨-, rfl⟩ | ⟨hfull, rfl⟩⟩ | ⟨hless, rfl⟩
    · rw [show s₁ = _ from hnotify] at hstep
      exact ⟨_, .last hstep, .inl rfl⟩
    · rw [show s₁ = _ from hnotify] at hstep
      exact ⟨_, .last hstep, .inr ⟨_, _, rfl, le_rfl, fun hlt => by omega⟩⟩
    · have hw₁ := hstep.writing hw hn hwhole
      obtain ⟨status, hp₁, hready⟩ := hnotify.woken.inside call t.offset left .ready rfl
      rw [hready rfl] at hp₁
      have hpos := hw₁.fifo.producer
      rw [hp₁] at hpos
      obtain ⟨-, hleft, -⟩ := hpos
      obtain ⟨s', hsection, hend⟩ := ih left.toNat (by omega) hw₁ hp₁ rfl
      refine ⟨s', .more hstep hsection, ?_⟩
      rcases hend with hend | ⟨offset', length', hend, hle, -⟩
      · exact .inl hend
      · exact .inr ⟨offset', length', hend, by omega, fun _ => by omega⟩

/-- A reader that is ready takes what its buffer holds. -/
theorem read_exists {buffer : List Byte} {block : Bool} (hw : Writing n call s)
    (hp : s.producer = .inside call offset length status) (hstored : s.queue.mStoredBytes ≠ 0)
    (hc : s.consumer = .inside buffer block .ready) :
    ∃ s' status', Meanwhile s s' ∧ Writing n call s' ∧
      s'.producer = .inside call offset length status' ∧ s'.consumer = .outside ∧
      s'.queue.mStoredBytes = s.queue.mStoredBytes - min (buffer.length : Int) s.queue.mStoredBytes := by
  rcases hread : read s.queue buffer block with ⟨t, outcome, notifies⟩
  obtain ⟨s₁, hnotify⟩ := notifyIf_exists notifies { s with
    queue := t.queue
    consumer := consumerAfter t block outcome
    returned := s.returned ++ bytesReturned t outcome }
  have hsection := ReadSection.mk hc hread hnotify
  obtain ⟨status', hp', -⟩ := hnotify.woken.inside call offset length status hp
  rcases read_cases hw.fifo.queue hread with
    ⟨-, -, ⟨hzero, -⟩ | ⟨hclosed, -⟩⟩ | ⟨-, -, hcopied, rfl, -⟩
  · exact absurd hzero hstored
  · rw [hw.isOpen] at hclosed
    cases hclosed
  · have hopen : s₁.queue.mOpen = true := by rw [hsection.isOpen hw.fifo, hw.isOpen]
    refine ⟨s₁, status', .read hsection, ⟨hsection.fifo hw.fifo, hopen, ?_⟩, hp',
      hnotify.woken.consumer rfl, ?_⟩
    · exact hnotify.woken.onCall hw.onCall
    · rw [hnotify.woken.queue]
      exact hcopied.stored

/-- The other thread can be made to read. -/
theorem reader_exists (s : Threads) :
    ∃ s' buffer block, ReflTransGen Meanwhile s s' ∧ s'.queue = s.queue ∧
      s'.producer = s.producer ∧ s'.accepted = s.accepted ∧ s'.returned = s.returned ∧
      s'.consumer = .inside buffer block .ready := by
  cases hc : s.consumer with
  | outside => exact ⟨_, [0], true, .single (.callRead [0] true hc), rfl, rfl, rfl, rfl, rfl⟩
  | inside buffer block status =>
    cases status with
    | ready => exact ⟨s, buffer, block, .refl, rfl, rfl, rfl, rfl, hc⟩
    | waiting => exact ⟨_, buffer, block, .single (.wakeConsumer hc), rfl, rfl, rfl, rfl, rfl⟩

/-- A producer that waits can come to a queue with room. -/
theorem room_exists (hpos : 1 ≤ n) (hw : Writing n call s)
    (hp : s.producer = .inside call offset length .waiting) :
    ∃ s', ReflTransGen Meanwhile s s' ∧ Writing n call s' ∧
      s'.producer = .inside call offset length .ready ∧ s'.queue.mStoredBytes < n := by
  have hroom : ∃ s' status', ReflTransGen Meanwhile s s' ∧ Writing n call s' ∧
      s'.producer = .inside call offset length status' ∧ s'.queue.mStoredBytes < n := by
    by_cases hlt : s.queue.mStoredBytes < n
    · exact ⟨s, .waiting, .refl, hw, hp, hlt⟩
    have hstored := hw.fifo.queue.stored
    obtain ⟨s₁, buffer, block, hrun, hq, hp₁, ha, hr, hc⟩ := reader_exists s
    have hw₁ : Writing n call s₁ :=
      ⟨⟨by rw [hq]; exact hw.fifo.queue, by rw [hq, hr, ha]; exact hw.fifo.order,
        by rw [hp₁, ha]; exact hw.fifo.producer⟩, by rw [hq, hw.isOpen], by rw [hp₁]; exact hw.onCall⟩
    obtain ⟨s₂, status₂, hstep₂, hw₂, hp₂, hc₂, hstored₂⟩ :=
      read_exists hw₁ (hp₁.trans hp) (by rw [hq]; omega) hc
    rw [hq] at hstored₂
    by_cases hlt₂ : s₂.queue.mStoredBytes < n
    · exact ⟨s₂, status₂, hrun.tail hstep₂, hw₂, hp₂, hlt₂⟩
    -- The buffer was empty.
    have hw₃ : Writing n call { s₂ with consumer := .inside [0] true .ready } :=
      ⟨⟨hw₂.fifo.queue, hw₂.fifo.order, hw₂.fifo.producer⟩, hw₂.isOpen, hw₂.onCall⟩
    obtain ⟨s₄, status₄, hstep₄, hw₄, hp₄, -, hstored₄⟩ :=
      read_exists hw₃ hp₂ (by dsimp only; omega) rfl
    refine ⟨s₄, status₄, ((hrun.tail hstep₂).tail (.callRead [0] true hc₂)).tail hstep₄, hw₄, hp₄, ?_⟩
    simp only [List.length_singleton] at hstored₄
    omega
  obtain ⟨s', status', hrun, hw', hp', hlt⟩ := hroom
  cases status' with
  | ready => exact ⟨s', hrun, hw', hp', hlt⟩
  | waiting =>
    have hacc := hw'.fifo.producer
    have hon := hw'.onCall
    rw [hp'] at hacc hon
    exact ⟨_, hrun.tail (.wakeProducer hp'), ⟨⟨hw'.fifo.queue, hw'.fifo.order, hacc⟩, hw'.isOpen, hon⟩,
      rfl, hlt⟩

/-- A producer that waits can come to the end of its call. -/
theorem end_exists (hpos : 1 ≤ n) (hn : n ≤ 2 ^ 30) (hwhole : Whole call) (hw : Writing n call s)
    (hp : s.producer = .inside call offset length .waiting) :
    ∃ s', ReflTransGen Meanwhile s s' ∧ Writing n call s' ∧
      s'.producer = .outside (some (call, .returns true)) := by
  obtain ⟨m, hm⟩ : ∃ m : Nat, length.toNat = m := ⟨_, rfl⟩
  induction m using Nat.strong_induction_on generalizing s offset length with
  | h m ih =>
    obtain ⟨s₁, hrun, hw₁, hp₁, hlt⟩ := room_exists hpos hw hp
    obtain ⟨s₂, hsection, hend⟩ := section_exists hw₁ hn hwhole hp₁
    have hw₂ := hsection.writing hw₁ hn hwhole
    rcases hend with hend | ⟨offset', length', hend, -, hless⟩
    · exact ⟨s₂, hrun.tail (.write hsection), hw₂, hend⟩
    · have hacc := hw₂.fifo.producer
      rw [hend] at hacc
      have hnonneg := hacc.2.1
      have hless := hless hlt
      obtain ⟨s', hrun', hw', hp'⟩ := ih length'.toNat (by omega) hw₂ hend rfl
      exact ⟨s', (hrun.tail (.write hsection)).trans hrun', hw', hp'⟩

/-- A call with bytes can come to its end, whatever is in the queue and wherever the reader is. -/
theorem call_exists (hpos : 1 ≤ n) (hn : n ≤ 2 ^ 30) (hf : Fifo n s) (hopen : s.queue.mOpen = true)
    {last : Option (WriteCall × Outcome Bool)} (hidle : s.producer = .outside last)
    {buffer : List Byte} (hne : buffer ≠ []) :
    ∃ s', Call buffer s (.returns true) s' ∧ Fifo n s' ∧ s'.queue.mOpen = true := by
  have hp : (s.calling buffer).producer = .inside (s.callOf buffer) 0 buffer.length .ready := by
    rw [calling_producer, begun_of_ne_nil s hne]
  have hwhole := whole_callOf s buffer
  have hw : Writing n (s.callOf buffer) (s.calling buffer) := by
    refine ⟨calling_fifo hf buffer, by rw [calling_queue, hopen], ?_⟩
    rw [hp]
    rfl
  obtain ⟨s₁, hsection, hend⟩ := section_exists hw hn hwhole hp
  have hw₁ := hsection.writing hw hn hwhole
  rcases hend with hend | ⟨offset', length', hend, -, -⟩
  · exact ⟨s₁, ⟨⟨last, hidle⟩, .single (.write hsection), hend⟩, hw₁.fifo, hw₁.isOpen⟩
  · obtain ⟨s', hrun, hw', hp'⟩ := end_exists hpos hn hwhole hw₁ hend
    exact ⟨s', ⟨⟨last, hidle⟩, .head (.write hsection) hrun, hp'⟩, hw'.fifo, hw'.isOpen⟩

end Progress

end Threads

end ByteQueue

end XoDos
