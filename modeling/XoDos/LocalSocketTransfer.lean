import XoDos.LocalSocketNative

/-!
# Transfers over a local socket

A buffer is sent whole, whatever the kernel takes of it in each round.  It is filled within its bounds
exactly when no round stores more bytes than are left of it.
-/

namespace XoDos.LocalSocketNative

variable {call : Call}

/-! ## Reading -/

/-- The bytes of a round that comes in time and does not fail. -/
def Round.received (call : Call) (r : Round ReadAnswer) : Option (List Byte) :=
  if r.expired call then none
  else
    match r.answer with
    | .failed _ => none
    | .bytes got => some got

/-- The bytes of some rounds. -/
def stored (call : Call) (rounds : List (Round ReadAnswer)) : List Byte :=
  rounds.flatMap fun r => (r.received call).getD []

section Reading

variable {r : Round ReadAnswer} {rounds : List (Round ReadAnswer)} {data got : List Byte} {n k : Nat}

theorem stored_cons : stored call (r :: rounds) = (r.received call).getD [] ++ stored call rounds :=
  List.flatMap_cons

@[simp] theorem overwrite_nil (data : List Byte) (i : Nat) : overwrite data i [] = data := by
  simp [overwrite]

theorem length_overwrite (h : k + got.length ≤ data.length) : (overwrite data k got).length = data.length := by
  unfold overwrite
  simp only [List.length_append, List.length_take, List.length_drop]
  omega

theorem overwrite_append {got' : List Byte} (h : k + got.length ≤ data.length) :
    overwrite (overwrite data k got) (k + got.length) got' = overwrite data k (got ++ got') := by
  have hbegins : (data.take k ++ got).length = k + got.length := by
    rw [List.length_append, List.length_take]
    omega
  have hdrop : (data.take k ++ got ++ data.drop (k + got.length)).drop (k + got.length + got'.length) =
      data.drop (k + (got ++ got').length) := by
    rw [← List.drop_drop, List.drop_left' hbegins, List.drop_drop, List.length_append, Nat.add_assoc]
  unfold overwrite
  rw [List.take_left' hbegins, hdrop, List.append_assoc (data.take k)]

/-- A round without bytes ends the loop. -/
theorem readLoop_none (h : k < n) (hr : r.received call = none) :
    ∃ result, readLoop call n (r :: rounds) data k = .returned result data ∧ result.retval = -1 := by
  rw [readLoop, if_pos h]
  unfold Round.received at hr
  split_ifs at hr with hexpired
  · exact ⟨_, if_pos hexpired, rfl⟩
  · rw [if_neg hexpired]
    cases hanswer : r.answer with
    | failed errno => exact ⟨_, rfl, rfl⟩
    | bytes got =>
      rw [hanswer] at hr
      cases hr

theorem readLoop_some (h : k < n) (hr : r.received call = some got) :
    readLoop call n (r :: rounds) data k =
      if got = [] then .returned (success k) data
      else if k + got.length ≤ data.length then
        readLoop call n rounds (overwrite data k got) (k + got.length)
      else .outOfBounds := by
  rw [readLoop, if_pos h]
  unfold Round.received at hr
  split_ifs at hr with hexpired
  rw [if_neg hexpired]
  cases hanswer : r.answer with
  | failed errno =>
    rw [hanswer] at hr
    cases hr
  | bytes bytes =>
    rw [hanswer] at hr
    cases hr
    rfl

theorem readLoop_end (h : n ≤ k) : readLoop call n rounds data k = .returned (success k) data := by
  rw [readLoop.eq_def]
  exact if_neg (by omega)

/-- Some round stores more than is left. -/
def Exceeds (call : Call) (n k : Nat) (rounds : List (Round ReadAnswer)) : Prop :=
  ∃ before r after got, rounds = before ++ r :: after ∧
    (∀ q ∈ before, ∃ bytes, q.received call = some bytes ∧ bytes ≠ []) ∧
    k + (stored call before).length < n ∧ r.received call = some got ∧
    n < k + (stored call before).length + got.length

theorem exceeds_cons (hr : r.received call = some got) (hgot : got ≠ []) (hfits : k + got.length ≤ n) :
    Exceeds call n k (r :: rounds) ↔ Exceeds call n (k + got.length) rounds := by
  constructor
  · rintro ⟨before, q, after, bytes, hrounds, hbefore, hlt, hq, hgt⟩
    cases before with
    | nil =>
      rw [List.nil_append] at hrounds
      cases hrounds
      rw [hr] at hq
      cases hq
      simp only [stored, List.flatMap_nil, List.length_nil] at hgt
      omega
    | cons p before =>
      rw [List.cons_append] at hrounds
      cases hrounds
      rw [stored_cons, hr, Option.getD_some, List.length_append] at hlt hgt
      exact ⟨before, q, after, bytes, rfl, fun q hq => hbefore q (List.mem_cons_of_mem _ hq), by omega, hq,
        by omega⟩
  · rintro ⟨before, q, after, bytes, rfl, hbefore, hlt, hq, hgt⟩
    refine ⟨r :: before, q, after, bytes, rfl, ?_, ?_, hq, ?_⟩
    · intro p hp
      rcases List.mem_cons.mp hp with rfl | hp
      · exact ⟨got, hr, hgot⟩
      · exact hbefore p hp
    · rw [stored_cons, hr, Option.getD_some, List.length_append]
      omega
    · rw [stored_cons, hr, Option.getD_some, List.length_append]
      omega

/-- The loop leaves the array exactly when a round stores more than is left. -/
theorem readLoop_outOfBounds_iff (hdata : data.length = n) :
    readLoop call n rounds data k = .outOfBounds ↔ Exceeds call n k rounds := by
  induction rounds generalizing data k with
  | nil =>
    constructor
    · intro h
      rw [readLoop] at h
      split_ifs at h
    · rintro ⟨before, r, after, got, hrounds, -⟩
      simp at hrounds
  | cons r rounds ih =>
    by_cases hk : k < n
    swap
    · rw [readLoop_end (by omega)]
      constructor
      · intro h
        cases h
      · rintro ⟨before, q, after, got, -, -, hlt, -⟩
        omega
    cases hr : r.received call with
    | none =>
      obtain ⟨result, hloop, -⟩ := @readLoop_none call r rounds data n k hk hr
      rw [hloop]
      constructor
      · intro h
        cases h
      · rintro ⟨before, q, after, got, hrounds, hbefore, -, hq, -⟩
        cases before with
        | nil =>
          rw [List.nil_append] at hrounds
          cases hrounds
          rw [hr] at hq
          cases hq
        | cons p before =>
          rw [List.cons_append] at hrounds
          cases hrounds
          obtain ⟨bytes, hbytes, -⟩ := hbefore r (List.mem_cons_self ..)
          rw [hr] at hbytes
          cases hbytes
    | some got =>
      rw [readLoop_some hk hr]
      -- Behind the end of the stream no answer is read, so none is too long.
      by_cases hgot : got = []
      · rw [if_pos hgot]
        constructor
        · intro h
          cases h
        · rintro ⟨before, q, after, bytes, hrounds, hbefore, hlt, hq, hgt⟩
          cases before with
          | nil =>
            rw [List.nil_append] at hrounds
            cases hrounds
            rw [hr, hgot] at hq
            cases hq
            simp only [stored, List.flatMap_nil, List.length_nil] at hgt hlt
            omega
          | cons p before =>
            rw [List.cons_append] at hrounds
            cases hrounds
            obtain ⟨bytes', hbytes', hne⟩ := hbefore r (List.mem_cons_self ..)
            rw [hr, hgot] at hbytes'
            cases hbytes'
            exact absurd rfl hne
      rw [if_neg hgot]
      by_cases hfits : k + got.length ≤ data.length
      · rw [if_pos hfits, ih (by rw [length_overwrite hfits, hdata]),
          exceeds_cons hr hgot (by omega)]
      · rw [if_neg hfits]
        constructor
        · intro _
          refine ⟨[], r, rounds, got, rfl, fun q hq => (by cases hq), ?_, hr, ?_⟩
          · simp only [stored, List.flatMap_nil, List.length_nil]
            omega
          · simp only [stored, List.flatMap_nil, List.length_nil]
            omega
        · intro _
          rfl

/-- What a successful reading has used and stored. -/
theorem readLoop_success {result : JniResult} {data' : List Byte} (hdata : data.length = n) (hk : k ≤ n)
    (h : readLoop call n rounds data k = .returned result data') (hresult : result.retval = 0) :
    ∃ used rest, rounds = used ++ rest ∧ (∀ q ∈ used, (q.received call).isSome = true) ∧
      result.intData = ((k + (stored call used).length : Nat) : Int) ∧
      k + (stored call used).length ≤ n ∧ data' = overwrite data k (stored call used) ∧
      (k + (stored call used).length < n → ∃ init last, used = init ++ [last] ∧
        last.received call = some []) := by
  induction rounds generalizing data k with
  | nil =>
    have hend : n ≤ k := by
      by_contra hlt
      rw [readLoop, if_pos (by omega)] at h
      cases h
    rw [readLoop_end hend] at h
    cases h
    refine ⟨[], [], rfl, fun q hq => (by cases hq), rfl, ?_, (overwrite_nil _ _).symm, ?_⟩
    · simpa [stored] using hk
    · intro hlt
      simp only [stored, List.flatMap_nil, List.length_nil] at hlt
      omega
  | cons r rounds ih =>
    by_cases hlt : k < n
    swap
    · rw [readLoop_end (by omega)] at h
      cases h
      refine ⟨[], r :: rounds, rfl, fun q hq => (by cases hq), rfl, ?_, (overwrite_nil _ _).symm, ?_⟩
      · simpa [stored] using hk
      · intro hlt'
        simp only [stored, List.flatMap_nil, List.length_nil] at hlt'
        omega
    cases hr : r.received call with
    | none =>
      obtain ⟨result', hloop, hfailed⟩ := @readLoop_none call r rounds data n k hlt hr
      rw [hloop] at h
      cases h
      rw [hfailed] at hresult
      cases hresult
    | some got =>
      rw [readLoop_some hlt hr] at h
      have hone : stored call [r] = got := by
        rw [stored_cons, hr]
        simp [stored]
      -- An empty answer is the end of the stream, and the loop returns what it has.
      by_cases hgot : got = []
      · rw [if_pos hgot] at h
        cases h
        refine ⟨[r], rounds, rfl, ?_, ?_, ?_, ?_, ?_⟩
        · intro q hq
          rw [List.mem_singleton.mp hq, hr]
          rfl
        · rw [hone, hgot]
          rfl
        · rw [hone, hgot]
          simpa using hk
        · rw [hone, hgot, overwrite_nil]
        · intro _
          exact ⟨[], r, rfl, by rw [hr, hgot]⟩
      rw [if_neg hgot] at h
      by_cases hfits : k + got.length ≤ data.length
      swap
      · rw [if_neg hfits] at h
        cases h
      rw [if_pos hfits] at h
      obtain ⟨used, rest, hrounds, hused, hcount, hle, hdata', heof⟩ :=
        ih (by rw [length_overwrite hfits, hdata]) (by omega) h
      have hstored : stored call (r :: used) = got ++ stored call used := by
        rw [stored_cons, hr, Option.getD_some]
      have hsum : k + (stored call (r :: used)).length = k + got.length + (stored call used).length := by
        rw [hstored, List.length_append, Nat.add_assoc]
      refine ⟨r :: used, rest, by rw [hrounds, List.cons_append], ?_, ?_, ?_, ?_, ?_⟩
      · intro q hq
        rcases List.mem_cons.mp hq with rfl | hq
        · rw [hr]
          rfl
        · exact hused q hq
      · rw [hsum, hcount]
      · rw [hsum]
        exact hle
      · rw [hdata', hstored, overwrite_append hfits]
      · intro hlt'
        rw [hsum] at hlt'
        obtain ⟨init, last, hlast, hnone⟩ := heof hlt'
        exact ⟨r :: init, last, by rw [hlast, List.cons_append], hnone⟩

/-- Every round but the last stores a byte, so the loop ends. -/
theorem readLoop_ends (hdata : data.length = n) (hlength : n < k + rounds.length) :
    readLoop call n rounds data k ≠ .waiting := by
  induction rounds generalizing data k with
  | nil =>
    rw [readLoop_end (by simpa using hlength.le)]
    simp
  | cons r rounds ih =>
    rw [List.length_cons] at hlength
    by_cases hlt : k < n
    swap
    · rw [readLoop_end (by omega)]
      simp
    cases hr : r.received call with
    | none =>
      obtain ⟨result, hloop, -⟩ := @readLoop_none call r rounds data n k hlt hr
      rw [hloop]
      simp
    | some got =>
      rw [readLoop_some hlt hr]
      by_cases hgot : got = []
      · rw [if_pos hgot]
        simp
      rw [if_neg hgot]
      by_cases hfits : k + got.length ≤ data.length
      · have hpositive := List.length_pos_of_ne_nil hgot
        rw [if_pos hfits]
        exact ih (by rw [length_overwrite hfits, hdata]) (by omega)
      · rw [if_neg hfits]
        simp

end Reading

/-! ## Sending -/

/-- The bytes that a round takes that comes in time and does not fail. -/
def Round.accepted (call : Call) (r : Round SendAnswer) : Option Nat :=
  if r.expired call then none
  else
    match r.answer with
    | .failed _ => none
    | .sent count => some count

/-- The kernel takes at least one byte, and no more than it is given. -/
def Grants (call : Call) : Nat → List (Round SendAnswer) → Prop
  | _, [] => True
  | left, r :: rounds => ∀ count, r.accepted call = some count → 0 < left →
      (0 < count ∧ count ≤ left) ∧ Grants call (left - count) rounds

section Sending

variable {r : Round SendAnswer} {rounds : List (Round SendAnswer)} {data wire : List Byte}
  {left current count : Nat}

theorem sendLoop_none (h : 0 < left) (hr : r.accepted call = none) :
    ∃ result, sendLoop call data (r :: rounds) left current wire = .returned result wire ∧
      result.retval = -1 := by
  rw [sendLoop, if_pos (by omega)]
  unfold Round.accepted at hr
  split_ifs at hr with hexpired
  · exact ⟨_, if_pos hexpired, rfl⟩
  · rw [if_neg hexpired]
    cases hanswer : r.answer with
    | failed errno => exact ⟨_, rfl, rfl⟩
    | sent count =>
      rw [hanswer] at hr
      cases hr

theorem sendLoop_some (h : 0 < left) (hr : r.accepted call = some count)
    (hcount : current + count ≤ data.length) :
    sendLoop call data (r :: rounds) left current wire =
      sendLoop call data rounds (left - count) (current + count)
        (wire ++ (data.drop current).take count) := by
  rw [sendLoop, if_pos (by omega)]
  unfold Round.accepted at hr
  split_ifs at hr with hexpired
  rw [if_neg hexpired]
  cases hanswer : r.answer with
  | failed errno =>
    rw [hanswer] at hr
    cases hr
  | sent count' =>
    rw [hanswer] at hr
    cases hr
    exact if_pos hcount

theorem sendLoop_end : sendLoop call data rounds 0 current wire = .returned (success 0) wire := by
  rw [sendLoop.eq_def]
  exact if_neg (by omega)

/-- The loop stays in the array and sends what is left of it; every round that it waits for has sent a
byte. -/
theorem sendLoop_right (hgrants : Grants call left rounds) (hleft : current + left = data.length) :
    match sendLoop call data rounds left current (data.take current) with
    | .outOfBounds => False
    | .waiting => rounds.length < left
    | .returned result wire => result.retval = 0 → wire = data := by
  induction rounds generalizing left current with
  | nil =>
    rcases Nat.eq_zero_or_pos left with hzero | hpos
    · subst hzero
      rw [Nat.cast_zero, sendLoop_end]
      intro _
      exact List.take_of_length_le (by omega)
    · rw [sendLoop, if_pos (by omega)]
      exact hpos
  | cons r rounds ih =>
    rcases Nat.eq_zero_or_pos left with hzero | hpos
    · subst hzero
      rw [Nat.cast_zero, sendLoop_end]
      intro _
      exact List.take_of_length_le (by omega)
    cases hr : r.accepted call with
    | none =>
      obtain ⟨result, hloop, hfailed⟩ :=
        @sendLoop_none call r rounds data (data.take current) left current hpos hr
      rw [hloop]
      intro hresult
      rw [hfailed] at hresult
      cases hresult
    | some count =>
      obtain ⟨⟨hone, hle⟩, hrest⟩ := hgrants count hr hpos
      have hwire : data.take current ++ (data.drop current).take count = data.take (current + count) :=
        List.take_add.symm
      have hbytes : (left : Int) - count = ((left - count : Nat) : Int) := by omega
      rw [sendLoop_some hpos hr (by omega), hwire, hbytes]
      have hnext := ih hrest (show current + count + (left - count) = data.length by omega)
      revert hnext
      cases sendLoop call data rounds ((left - count : Nat) : Int) (current + count)
          (data.take (current + count)) with
      | waiting =>
        intro hlt
        change (r :: rounds).length < left
        rw [List.length_cons]
        change rounds.length < left - count at hlt
        omega
      | outOfBounds => exact id
      | returned result wire => exact id

end Sending

/-! ## Both functions -/

/-- The bytes that were stored are in the array, and their number is returned; there are fewer than the
array holds only at the end of the file. -/
def ReadRight (call : Call) (data : List Byte) (rounds : List (Round ReadAnswer)) : Outcome → Prop
  | .waiting => True
  | .outOfBounds => False
  | .returned result data' => result.retval = 0 → ∃ used rest, rounds = used ++ rest ∧
      (∀ q ∈ used, (q.received call).isSome = true) ∧
      result.intData = (stored call used).length ∧ (stored call used).length ≤ data.length ∧
      data' = stored call used ++ data.drop (stored call used).length ∧
      ((stored call used).length < data.length → ∃ init last, used = init ++ [last] ∧
        last.received call = some [])

/-- All bytes of the array have been sent, once and in order. -/
def SendRight (data : List Byte) : Outcome → Prop
  | .waiting => True
  | .outOfBounds => False
  | .returned result wire => result.retval = 0 → wire = data

/-- A buffer is read into within its bounds exactly when no round stores more than is left of it, and sent
whole; and neither loop goes on for more rounds than the buffer has bytes, but for the end of the file. -/
theorem transfer_iff (call : Call) (data : List Byte) :
    (∀ rounds, ReadRight call data rounds (readNative call data rounds) ↔
      call.fd < 0 ∨ ¬Exceeds call data.length 0 rounds) ∧
    (∀ rounds, data.length < rounds.length → readNative call data rounds ≠ .waiting) ∧
    ∀ rounds, Grants call data.length rounds → SendRight data (sendNative call data rounds) ∧
      (data.length ≤ rounds.length → sendNative call data rounds ≠ .waiting) := by
  by_cases hfd : call.fd < 0
  · refine ⟨fun rounds => ?_, fun rounds _ => ?_, fun rounds _ => ⟨?_, fun _ => ?_⟩⟩
    · rw [readNative, if_pos hfd]
      constructor
      · intro _
        exact Or.inl hfd
      · intro _ hno
        cases hno
    · rw [readNative, if_pos hfd]
      simp
    · rw [sendNative, if_pos hfd]
      intro hno
      cases hno
    · rw [sendNative, if_pos hfd]
      simp
  -- A descriptor that is open: reading within the bounds, ending, and sending.
  refine ⟨fun rounds => ?_, fun rounds hlength => ?_, fun rounds hgrants => ?_⟩
  · rw [readNative, if_neg hfd]
    have hbounds := @readLoop_outOfBounds_iff call rounds data data.length 0 rfl
    constructor
    · intro hright
      apply Or.inr
      intro hexceeds
      rw [hbounds.mpr hexceeds] at hright
      exact hright
    · rintro (hno | hfits)
      · exact absurd hno hfd
      cases hloop : readLoop call data.length rounds data 0 with
      | waiting => trivial
      | outOfBounds => exact absurd (hbounds.mp hloop) hfits
      | returned result data' =>
        intro hresult
        have hsuccess := readLoop_success rfl (Nat.zero_le _) hloop hresult
        simpa only [overwrite, List.take_zero, List.nil_append, Nat.zero_add] using hsuccess
  · rw [readNative, if_neg hfd]
    exact readLoop_ends rfl (by omega)
  · rw [sendNative, if_neg hfd]
    have hright := @sendLoop_right call rounds data data.length 0 hgrants (by omega)
    rw [List.take_zero] at hright
    cases hloop : sendLoop call data rounds data.length 0 [] with
    | waiting =>
      rw [hloop] at hright
      exact ⟨trivial, fun hle => absurd hright (by simpa using hle)⟩
    | outOfBounds =>
      rw [hloop] at hright
      exact hright.elim
    | returned result wire =>
      rw [hloop] at hright
      exact ⟨hright, fun _ => by simp⟩

/-- A call without a deadline. -/
def plain : Call := ⟨none, 5, 0, fun _ => []⟩

/-- Three bytes in two pieces. -/
theorem transfer_pieces :
    ReadRight plain [0, 0, 0] [⟨none, .bytes [7, 8]⟩, ⟨none, .bytes [9]⟩]
      (readNative plain [0, 0, 0] [⟨none, .bytes [7, 8]⟩, ⟨none, .bytes [9]⟩]) ∧
    SendRight [7, 8, 9] (sendNative plain [7, 8, 9] [⟨none, .sent 1⟩, ⟨none, .sent 2⟩]) := by
  refine ⟨((transfer_iff plain [0, 0, 0]).1 _).mpr (Or.inr ?_),
    ((transfer_iff plain [7, 8, 9]).2.2 _ ?_).1⟩
  · intro hexceeds
    have hloop := (@readLoop_outOfBounds_iff plain _ [0, 0, 0] 3 0 rfl).mpr hexceeds
    revert hloop
    decide
  · intro count hcount _
    cases hcount
    refine ⟨by decide, ?_⟩
    intro count hcount _
    cases hcount
    exact ⟨by decide, trivial⟩

/-- The second round is still asked for three bytes when one is left. -/
theorem second_read_exceeds :
    readNative plain [0, 0, 0] [⟨none, .bytes [7, 8]⟩, ⟨none, .bytes [9, 10, 11]⟩] = .outOfBounds ∧
    ¬ReadRight plain [0, 0, 0] [⟨none, .bytes [7, 8]⟩, ⟨none, .bytes [9, 10, 11]⟩]
      (readNative plain [0, 0, 0] [⟨none, .bytes [7, 8]⟩, ⟨none, .bytes [9, 10, 11]⟩]) :=
  ⟨by decide, id⟩

end XoDos.LocalSocketNative
