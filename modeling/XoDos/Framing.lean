import Mathlib.Tactic

/-!
# Messages on a stream socket

A stream socket keeps the order of what is written to it, but not where one
`write` ended and the next began.  `Socket` is such a stream at its reader: what
has not been read yet, and how much of it has arrived when each of the reads to
come is made.  A read returns what has arrived, up to the length it asks for;
it waits for at least one item.

A receiver takes one frame after the other off the socket.  `receive` logs, for
every frame, how much was unread when it began and the message it gave.  The
receiver is exact when each message is taken from the place where it was
written, and then nothing else is.
-/

namespace XoDos

variable {α μ ω : Type}

structure Socket (α : Type) where
  unread : List α
  /-- For each of the next reads, how much of `unread` has arrived; all of it after these. -/
  arrivals : List Nat

namespace Socket

/-- How much the next read can return. -/
def available (s : Socket α) : Nat :=
  match s.arrivals with
  | [] => s.unread.length
  | n :: _ => max 1 n

/-- A `read` of up to `k` items. -/
def read (s : Socket α) (k : Nat) : List α × Socket α :=
  if k = 0 then ([], s)
  else (s.unread.take (min k s.available), ⟨s.unread.drop (min k s.available), s.arrivals.tail⟩)

@[simp] theorem read_zero (s : Socket α) : s.read 0 = ([], s) := rfl

theorem read_unread (s : Socket α) (k : Nat) :
    (s.read k).2.unread = s.unread.drop (s.read k).1.length := by
  rw [read]
  split_ifs with h
  · rfl
  · simp

theorem read_suffix (s : Socket α) (k : Nat) : (s.read k).2.unread <:+ s.unread := by
  rw [read_unread]
  exact List.drop_suffix _ _

theorem available_pos {s : Socket α} (h : s.unread ≠ []) : 0 < s.available := by
  rw [available]
  split
  · exact List.length_pos_of_ne_nil h
  · omega

theorem length_read {s : Socket α} {k : Nat} (hk : k ≠ 0) :
    (s.read k).1.length = min (min k s.available) s.unread.length := by
  rw [read, if_neg hk]
  simp

theorem length_unread_lt {s : Socket α} {k : Nat} (hk : k ≠ 0) (h : s.unread ≠ []) :
    (s.read k).2.unread.length < s.unread.length := by
  have := available_pos h
  have := List.length_pos_of_ne_nil h
  rw [read_unread, List.length_drop, length_read hk]
  omega

/-- A block that has arrived in whole is read in whole. -/
theorem read_append {b rest : List α} {a : List Nat} (hb : b ≠ [])
    (h : b.length ≤ available ⟨b ++ rest, a⟩) :
    read ⟨b ++ rest, a⟩ b.length = (b, ⟨rest, a.tail⟩) := by
  have hlen : b.length ≠ 0 := by simpa using hb
  rw [read, if_neg hlen, Nat.min_eq_left h]
  simp

end Socket

/-- The blocks are there in whole when the reads for them are made. -/
def Arrives : List (List α) → List Nat → Prop
  | [], _ => True
  | _ :: _, [] => True
  | b :: blocks, n :: arrivals => b.length ≤ max 1 n ∧ Arrives blocks arrivals

theorem arrives_cons {b : List α} {blocks : List (List α)} {a : List Nat} (rest : List α) :
    Arrives (b :: blocks) a ↔
      b.length ≤ Socket.available ⟨b ++ rest, a⟩ ∧ Arrives blocks a.tail := by
  cases a with
  | nil => cases blocks <;> simp [Arrives, Socket.available]
  | cons n a => simp [Arrives, Socket.available]

theorem arrives_append {blocks blocks' : List (List α)} {a : List Nat} :
    Arrives (blocks ++ blocks') a ↔ Arrives blocks a ∧ Arrives blocks' (a.drop blocks.length) := by
  induction blocks generalizing a with
  | nil => simp [Arrives]
  | cons b blocks ih =>
    rw [List.cons_append, arrives_cons [], arrives_cons [], ih, and_assoc, List.length_cons,
      ← List.drop_one, List.drop_drop, Nat.add_comm 1]

theorem Arrives.read {b : List α} {blocks : List (List α)} {a : List Nat} (rest : List α)
    (hb : b ≠ []) (h : Arrives (b :: blocks) a) :
    Socket.read ⟨b ++ rest, a⟩ b.length = (b, ⟨rest, a.tail⟩) :=
  Socket.read_append hb ((arrives_cons rest).mp h).1

theorem Arrives.tail {b : List α} {blocks : List (List α)} {a : List Nat}
    (h : Arrives (b :: blocks) a) : Arrives blocks a.tail :=
  ((arrives_cons []).mp h).2

section Receive

variable (frame : Socket α → Option μ × Socket α)

/-- The frames that the receiver takes off the socket: what was unread before each, and what it
gave.  The fuel bounds their number. -/
def receive : Nat → Socket α → List (Nat × Option μ)
  | 0, _ => []
  | fuel + 1, s =>
    if s.unread.isEmpty then []
    else (s.unread.length, (frame s).1) :: receive fuel (frame s).2

variable (bytes : ω → List α) (message : ω → μ)

/-- How much is unread when the bytes of each message begin. -/
def places : List ω → List Nat
  | [] => []
  | w :: ws => (bytes w ++ ws.flatMap bytes).length :: places ws

/-- The log of a receiver that takes every message from where it was written. -/
def exactLog (ws : List ω) : List (Nat × Option μ) :=
  (places bytes ws).zip (ws.map fun w => some (message w))

/-- Frame by frame, the receiver takes the bytes of a message and gives the message. -/
def InStep : List ω → List Nat → Prop
  | [], _ => True
  | w :: ws, a =>
    (frame ⟨bytes w ++ ws.flatMap bytes, a⟩).1 = some (message w) ∧
      (frame ⟨bytes w ++ ws.flatMap bytes, a⟩).2.unread = ws.flatMap bytes ∧
        InStep ws (frame ⟨bytes w ++ ws.flatMap bytes, a⟩).2.arrivals

variable {frame bytes message}

theorem receive_nil (fuel : Nat) (a : List Nat) : receive frame fuel ⟨[], a⟩ = [] := by
  cases fuel <;> rfl

/-- If the log is exact from here on, what is unread is what remains to be taken. -/
theorem unread_of_exact {ws : List ω} {fuel : Nat} {s : Socket α} (hfuel : s.unread.length ≤ fuel)
    (h : receive frame fuel s = exactLog bytes message ws) :
    s.unread.length = (ws.flatMap bytes).length := by
  cases fuel with
  | zero =>
    cases ws with
    | nil => simpa using hfuel
    | cons w ws => simp [receive, exactLog, places] at h
  | succ fuel =>
    rw [receive] at h
    split_ifs at h with hempty
    · cases ws with
      | nil => simpa using hempty
      | cons w ws => simp [exactLog, places] at h
    · cases ws with
      | nil => simp [exactLog, places] at h
      | cons w ws =>
        simp only [exactLog, places, List.map_cons, List.zip_cons_cons, List.cons.injEq,
          Prod.mk.injEq] at h
        exact h.1.1

/-- A receiver is exact if and only if it goes in step with the messages. -/
theorem receive_iff (hbytes : ∀ w, bytes w ≠ [])
    (hframe : ∀ s : Socket α, s.unread ≠ [] →
      (frame s).2.unread <:+ s.unread ∧ (frame s).2.unread.length < s.unread.length)
    {ws : List ω} {fuel : Nat} {a : List Nat} (hfuel : (ws.flatMap bytes).length ≤ fuel) :
    receive frame fuel ⟨ws.flatMap bytes, a⟩ = exactLog bytes message ws ↔
      InStep frame bytes message ws a := by
  induction ws generalizing fuel a with
  | nil => simp [receive_nil, exactLog, places, InStep]
  | cons w ws ih =>
    have hw := List.length_pos_of_ne_nil (hbytes w)
    simp only [List.flatMap_cons] at hfuel ⊢
    obtain ⟨hsuffix, hless⟩ := hframe ⟨bytes w ++ ws.flatMap bytes, a⟩ (by simp [hbytes w])
    obtain ⟨fuel, rfl⟩ : ∃ f, fuel = f + 1 := by
      apply Nat.exists_eq_add_one_of_ne_zero
      simp only [List.length_append] at hfuel
      omega
    have hempty : (bytes w ++ ws.flatMap bytes).isEmpty = false := by simp [hbytes w]
    rw [InStep, receive, exactLog, places, List.map_cons, List.zip_cons_cons]
    simp only [hempty, Bool.false_eq_true, if_false, List.cons.injEq, Prod.mk.injEq, true_and]
    generalize frame ⟨bytes w ++ ws.flatMap bytes, a⟩ = taken at hsuffix hless ⊢
    obtain ⟨given, unread, arrivals⟩ := taken
    simp only [List.length_append] at hsuffix hless hfuel ⊢
    apply and_congr_right
    intro _
    constructor
    · intro h
      have hlength := unread_of_exact (show unread.length ≤ fuel by omega) h
      have hunread : unread = ws.flatMap bytes :=
        (List.suffix_of_suffix_length_le hsuffix (List.suffix_append _ _)
          hlength.le).eq_of_length hlength
      subst hunread
      exact ⟨rfl, (ih (by omega)).mp h⟩
    · intro ⟨hunread, hrest⟩
      subst hunread
      exact (ih (by omega)).mpr hrest

omit frame in
theorem length_places (ws : List ω) : (places bytes ws).length = ws.length := by
  induction ws with
  | nil => rfl
  | cons w ws ih => simp [places, ih]

/-- A log is exact when the frames begin at the right places and give the right messages. -/
theorem eq_zip_iff {log : List (Nat × Option μ)} {starts : List Nat} {messages : List μ}
    (h : starts.length = messages.length) :
    log = starts.zip (messages.map some) ↔
      log.map Prod.fst = starts ∧ log.filterMap Prod.snd = messages := by
  induction log generalizing starts messages with
  | nil =>
    cases starts with
    | nil => simp [List.length_eq_zero_iff.mp h.symm]
    | cons start starts =>
      cases messages with
      | nil => simp at h
      | cons m messages => simp
  | cons entry log ih =>
    obtain ⟨n, given⟩ := entry
    cases starts with
    | nil => simp
    | cons start starts =>
      cases messages with
      | nil => simp at h
      | cons m messages =>
        simp only [List.length_cons, Nat.add_right_cancel_iff] at h
        cases given with
        | none =>
          -- a frame without a message leaves too few for the rest
          have hlost : log.map Prod.fst = starts → log.filterMap Prod.snd ≠ m :: messages := by
            intro hstarts hmessages
            have := congrArg List.length hstarts
            have := congrArg List.length hmessages
            have := List.length_filterMap_le Prod.snd log
            simp only [List.length_map, List.length_cons] at *
            omega
          simpa using fun _ => hlost
        | some m' =>
          simp only [List.map_cons, List.zip_cons_cons, List.cons.injEq, Prod.mk.injEq,
            Option.some.injEq, List.filterMap_cons_some, ih h]
          tauto

theorem eq_exactLog_iff {log : List (Nat × Option μ)} {ws : List ω} :
    log = exactLog bytes message ws ↔
      log.map Prod.fst = places bytes ws ∧ log.filterMap Prod.snd = ws.map message := by
  rw [exactLog, ← eq_zip_iff (by simp [length_places]), List.map_map]
  rfl

end Receive

end XoDos
