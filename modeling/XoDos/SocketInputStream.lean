import XoDos.LocalSocketTransfer
import XoDos.Run

/-!
# `SocketInputStream`

The bytes of the peer are read one by one or into arrays.  A byte is returned with its sign, so that the
byte 255 looks like the end of the stream.
-/

namespace XoDos

open LocalSocketNative

/-! ## The stream -/

structure SocketInputStream where
  call : Call
  /-- What the peer has sent and has not been read. -/
  rest : List Byte
  /-- The array of one byte. -/
  mBytes : List Byte

inductive SocketException where
  | ioException
  | indexOutOfBounds
  /-- The kernel stores bytes behind the array. -/
  | corrupted
  /-- The call has not returned. -/
  | waiting
deriving DecidableEq

namespace SocketInputStream

abbrev Result : Type → Type := Except SocketException

/-- The answers of the kernel to an array of `n` bytes.  It gives as many bytes as it likes, at least one
unless there are no more. -/
def answers (n : Nat) : List Nat → List Byte → List (Round ReadAnswer)
  | [], _ => []
  | size :: sizes, rest =>
    ⟨none, .bytes (rest.take (max 1 (min size n)))⟩ :: answers n sizes (rest.drop (max 1 (min size n)))

variable (s : SocketInputStream)

/-- `LocalClientSocket.read`: the array, and the number of bytes read. -/
def readSocket (data : List Byte) (sizes : List Nat) : Result (List Byte × Int) :=
  match readNative s.call data (answers data.length sizes s.rest) with
  | .returned result data => if result.retval ≠ 0 then .error .ioException else .ok (data, result.intData)
  | .outOfBounds => .error .corrupted
  | .waiting => .error .waiting

/-- `read()` -/
def read : Result (Int × SocketInputStream) := do
  let (mBytes, bytesRead) ← s.readSocket s.mBytes [1, 1]
  let s' := { s with rest := s.rest.drop bytesRead.toNat, mBytes }
  if bytesRead = 0 then return (-1, s')
  return ((mBytes.getD 0 0).toInt, s')

/-- `read(byte[] bytes)`, with the array afterwards. -/
def readArray (bytes : List Byte) (sizes : List Nat) : Result (Int × List Byte × SocketInputStream) := do
  let (bytes, bytesRead) ← s.readSocket bytes sizes
  let s' := { s with rest := s.rest.drop bytesRead.toNat }
  if bytesRead = 0 then return (-1, bytes, s')
  return (bytesRead, bytes, s')

/-- The loop of `InputStream.read(byte[], int, int)`, which stops at an exception. -/
def readRangeLoop (off : Nat) : Nat → Nat → List Byte → SocketInputStream →
    Result (Int × List Byte × SocketInputStream)
  | 0, i, b, s => .ok (i, b, s)
  | n + 1, i, b, s =>
    match s.read with
    | .error .ioException => .ok (i, b, s)
    | .error e => .error e
    | .ok (c, s) =>
      if c = -1 then .ok (i, b, s)
      else readRangeLoop off n (i + 1) (b.set (off + i) (BitVec.ofInt 8 c)) s

/-- `InputStream.read(byte[] b, int off, int len)` -/
def readRange (b : List Byte) (off len : Nat) : Result (Int × List Byte × SocketInputStream) := do
  if b.length < off + len then .error .indexOutOfBounds
  if len = 0 then return (0, b, s)
  let (c, s) ← s.read
  if c = -1 then return (-1, b, s)
  readRangeLoop off (len - 1) 1 (b.set off (BitVec.ofInt 8 c)) s

/-! ## Calls -/

inductive Input where
  | read
  | readArray (bytes : List Byte) (sizes : List Nat)
  | readRange (b : List Byte) (off len : Nat)

/-- What a call returns, its array and the stream afterwards. -/
def respond : Input → Result (Int × List Byte × SocketInputStream)
  | .read => do
    let (c, s) ← s.read
    return (c, [], s)
  | .readArray bytes sizes => s.readArray bytes sizes
  | .readRange b off len => s.readRange b off len

def next (input : Input) : SocketInputStream :=
  match s.respond input with
  | .ok (_, _, s) => s
  | .error _ => s

/-- The kernel answers often enough for the array, and the range is in the array. -/
def Fits (_ : SocketInputStream) : Input → Prop
  | .read => True
  | .readArray bytes sizes => bytes.length < sizes.length
  | .readRange b off len => off + len ≤ b.length

/-- `k` bytes of the peer have been stored in an array at `off`, and at least one if there was room. -/
def Stores (b b' : List Byte) (off len k : Nat) (s' : SocketInputStream) : Prop :=
  k ≤ len ∧ k ≤ s.rest.length ∧ (k = 0 → len = 0) ∧ b' = overwrite b off (s.rest.take k) ∧
    s'.rest = s.rest.drop k

/-- The next bytes of the peer are returned, or -1 if there are no more. -/
def Right (input : Input) : Prop :=
  ∃ v b' s', s.respond input = .ok (v, b', s') ∧
    ((s.rest = [] ∧ v = -1 ∧ s'.rest = []) ∨
      match input with
      | .read => ∃ c, s.rest = c :: s'.rest ∧ v = c.toNat
      | .readArray bytes _ => ∃ k : Nat, v = k ∧ s.Stores bytes b' 0 bytes.length k s'
      | .readRange b off len => ∃ k : Nat, v = k ∧ s.Stores b b' off len k s')

/-- The byte that is read alone is an ASCII one, an array has room for what the kernel gives, and there is
no byte 255 in what is read by an offset and a length. -/
def Clean : Input → Prop
  | .read => ∀ c ∈ s.rest.head?, c.toNat < 128
  | .readArray bytes sizes => (bytes = [] → s.rest = []) ∧
      ¬Exceeds s.call bytes.length 0 (answers bytes.length sizes s.rest)
  | .readRange _ _ len => (255 : Byte) ∉ s.rest.take len

/-- A stream of an open socket. -/
structure Open (s : SocketInputStream) : Prop where
  fd : 0 ≤ s.call.fd
  length : s.mBytes.length = 1

variable {s}

/-- A round that does not look at the clock gives its bytes. -/
theorem received_bytes (call : Call) (got : List Byte) :
    Round.received call ⟨none, .bytes got⟩ = some got := by
  have hexpired : Round.expired call (⟨none, .bytes got⟩ : Round ReadAnswer) = false := by
    simp [Round.expired]
  unfold Round.received
  rw [hexpired]
  rfl

theorem readNative_eq (h : Open s) (data : List Byte) (sizes : List Nat) :
    readNative s.call data (answers data.length sizes s.rest) =
      readLoop s.call data.length (answers data.length sizes s.rest) data 0 := by
  have hfd := h.fd
  rw [readNative, if_neg (by omega)]

theorem read_nil (h : Open s) (hrest : s.rest = []) : s.read = .ok (-1, s) := by
  have hnative : readNative s.call s.mBytes (answers s.mBytes.length [1, 1] s.rest) =
      .returned (success 0) s.mBytes := by
    rw [readNative_eq h, h.length, hrest, answers, readLoop_some Nat.one_pos (received_bytes _ _)]
    rfl
  unfold read readSocket
  rw [hnative]
  simp only [success]
  cases s
  cases hrest
  rfl

theorem read_cons (h : Open s) {c : Byte} {rest : List Byte} (hrest : s.rest = c :: rest) :
    s.read = .ok (c.toInt, { s with rest, mBytes := [c] }) := by
  obtain ⟨x, hx⟩ := List.length_eq_one_iff.mp h.length
  have hnative : readNative s.call s.mBytes (answers s.mBytes.length [1, 1] s.rest) =
      .returned (success 1) [c] := by
    rw [readNative_eq h, h.length, hrest, hx, answers,
      readLoop_some Nat.one_pos (received_bytes _ _), if_neg (by simp), if_pos (by simp),
      readLoop_end (by simp)]
    rfl
  unfold read readSocket
  rw [hnative, hrest]
  rfl

theorem Open.next_rest (h : Open s) {rest : List Byte} {c : Byte} :
    Open { s with rest, mBytes := [c] } := ⟨h.fd, rfl⟩

/-! ## One byte -/

theorem toInt_eq_toNat_iff (c : Byte) : c.toInt = c.toNat ↔ c.toNat < 128 := by
  rw [BitVec.toInt_eq_toNat_cond]
  split_ifs with hlow
  · constructor
    · intro _
      omega
    · intro _
      rfl
  · have hlt := c.isLt
    constructor
    · intro hno
      omega
    · intro hno
      omega

theorem toInt_eq_neg_one_iff (c : Byte) : c.toInt = -1 ↔ c = 255 := by
  revert c
  decide

theorem right_read_iff (h : Open s) : s.Right .read ↔ s.Clean .read := by
  unfold Right Clean respond
  cases hrest : s.rest with
  | nil =>
    rw [read_nil h hrest]
    constructor
    · intro _ c hc
      cases hc
    · intro _
      exact ⟨_, _, _, rfl, Or.inl ⟨rfl, rfl, hrest⟩⟩
  | cons c rest =>
    rw [read_cons h hrest]
    constructor
    · rintro ⟨v, b', s', hrespond, hright⟩ d hd
      cases hrespond
      cases hd
      rcases hright with ⟨hno, -⟩ | ⟨d, hd, hvalue⟩
      · cases hno
      · cases hd
        exact (toInt_eq_toNat_iff c).mp hvalue
    · intro hclean
      exact ⟨_, _, _, rfl, Or.inr ⟨c, rfl, (toInt_eq_toNat_iff c).mpr (hclean c rfl)⟩⟩

/-! ## Arrays -/

/-- The kernel gives the bytes of the peer in order, and an empty answer only when there are no more. -/
theorem stored_answers {call : Call} {n : Nat} {sizes : List Nat} {rest : List Byte}
    {used more : List (Round ReadAnswer)} (h : answers n sizes rest = used ++ more) :
    (∃ left, rest = stored call used ++ left) ∧
      ∀ init last, used = init ++ [last] → last.received call = some [] → rest = stored call used := by
  induction used generalizing sizes rest with
  | nil => exact ⟨⟨rest, rfl⟩, fun init last hno => absurd hno (by simp)⟩
  | cons q used ih =>
    cases sizes with
    | nil => cases h
    | cons size sizes =>
      rw [answers, List.cons_append, List.cons.injEq] at h
      obtain ⟨hq, hused⟩ := h
      obtain ⟨⟨left, hleft⟩, hlast⟩ := ih hused
      have hstored : stored call (q :: used) = rest.take (max 1 (min size n)) ++ stored call used := by
        rw [stored_cons, ← hq, received_bytes, Option.getD_some]
      have hsplit := List.take_append_drop (max 1 (min size n)) rest
      refine ⟨⟨left, ?_⟩, ?_⟩
      · rw [hstored, List.append_assoc, ← hleft, hsplit]
      · intro init last hinit hend
        cases init with
        | nil =>
          rw [List.nil_append, List.cons.injEq] at hinit
          rw [← hinit.1, ← hq, received_bytes, Option.some.injEq, List.take_eq_nil_iff] at hend
          have hnone : rest = [] := hend.resolve_left (by omega)
          rw [hstored, hinit.2, hnone]
          simp [stored]
        | cons p init =>
          rw [List.cons_append, List.cons.injEq] at hinit
          have hdrop := hlast init last hinit.2 hend
          rw [hstored, ← hdrop, hsplit]

theorem length_answers (n : Nat) (sizes : List Nat) (rest : List Byte) :
    (answers n sizes rest).length = sizes.length := by
  induction sizes generalizing rest with
  | nil => rfl
  | cons size sizes ih => rw [answers, List.length_cons, List.length_cons, ih]

/-- Without a failure of the kernel there is no error. -/
theorem readLoop_answers {call : Call} {n k : Nat} {sizes : List Nat} {rest data data' : List Byte}
    {result : JniResult} (h : readLoop call n (answers n sizes rest) data k = .returned result data') :
    result.retval = 0 := by
  induction sizes generalizing rest data k with
  | nil =>
    by_cases hk : k < n
    · rw [answers, readLoop, if_pos hk] at h
      cases h
    · rw [readLoop_end (by omega)] at h
      cases h
      rfl
  | cons size sizes ih =>
    by_cases hk : k < n
    swap
    · rw [readLoop_end (by omega)] at h
      cases h
      rfl
    rw [answers, readLoop_some hk (received_bytes _ _)] at h
    split_ifs at h
    · cases h
      rfl
    · exact ih h

theorem right_readArray_iff (h : Open s) {bytes : List Byte} {sizes : List Nat}
    (hfits : s.Fits (.readArray bytes sizes)) :
    s.Right (.readArray bytes sizes) ↔ s.Clean (.readArray bytes sizes) := by
  have hfits' : bytes.length < sizes.length := hfits
  unfold Right Clean respond readArray readSocket
  dsimp only
  rw [readNative_eq h]
  by_cases hexceeds : Exceeds s.call bytes.length 0 (answers bytes.length sizes s.rest)
  · rw [(readLoop_outOfBounds_iff rfl).mpr hexceeds]
    constructor
    · rintro ⟨v, b', s', hrespond, -⟩
      cases hrespond
    · rintro ⟨-, hno⟩
      exact absurd hexceeds hno
  cases hloop : readLoop s.call bytes.length (answers bytes.length sizes s.rest) bytes 0 with
  | waiting =>
    have hends := @readLoop_ends s.call (answers bytes.length sizes s.rest) bytes bytes.length 0 rfl
      (by rw [length_answers]; omega)
    exact absurd hloop hends
  | outOfBounds => exact absurd ((readLoop_outOfBounds_iff rfl).mp hloop) hexceeds
  | returned result data =>
    have hresult := readLoop_answers hloop
    obtain ⟨used, more, hused, -, hcount, hle, hdata, heof⟩ :=
      readLoop_success rfl (Nat.zero_le _) hloop hresult
    obtain ⟨⟨left, hleft⟩, hlast⟩ := stored_answers hused
    rw [Nat.zero_add] at hcount hle heof
    dsimp only
    rw [if_neg (by rw [hresult]; simp), ok_bind]
    dsimp only
    rw [hcount, Int.toNat_natCast]
    -- Nothing stored means the end of the stream, unless the array has no room at all.
    by_cases hzero : (stored s.call used).length = 0
    · have hnothing := List.eq_nil_of_length_eq_zero hzero
      rw [if_pos (by omega)]
      constructor
      · rintro ⟨v, b', s', hrespond, hright⟩
        cases hrespond
        refine ⟨fun _ => ?_, hexceeds⟩
        rcases hright with ⟨hrest, -⟩ | ⟨k, hk, -⟩
        · exact hrest
        · omega
      · rintro ⟨hempty, -⟩
        have hrest : s.rest = [] := by
          by_cases hbytes : bytes = []
          · exact hempty hbytes
          · have hpositive := List.length_pos_of_ne_nil hbytes
            obtain ⟨init, last, hinit, hend⟩ := heof (by omega)
            rw [hlast init last hinit hend, hnothing]
        refine ⟨_, _, _, rfl, Or.inl ⟨hrest, rfl, ?_⟩⟩
        dsimp only
        rw [hrest, List.drop_nil]
    · rw [if_neg (by omega)]
      have htake : s.rest.take (stored s.call used).length = stored s.call used := by
        conv_lhs => rw [hleft]
        exact List.take_left
      have hlength := congrArg List.length hleft
      rw [List.length_append] at hlength
      constructor
      · intro _
        refine ⟨fun hempty => ?_, hexceeds⟩
        rw [hempty] at hle
        exact absurd (Nat.le_zero.mp hle) hzero
      · intro _
        refine ⟨_, _, _, rfl, Or.inr ⟨_, rfl, hle, by omega, fun hno => absurd hno hzero, ?_, rfl⟩⟩
        rw [hdata, htake]

/-! ## Ranges -/

theorem set_eq_overwrite {b : List Byte} {i : Nat} (c : Byte) (h : i < b.length) :
    b.set i c = overwrite b i [c] := by
  rw [List.set_eq_take_append_cons_drop, if_pos h]
  simp [overwrite]

theorem ofInt_toInt (c : Byte) : BitVec.ofInt 8 c.toInt = c := BitVec.ofInt_toInt

/-- The loop stores bytes up to the end of the range or of the stream. -/
theorem readRangeLoop_clean {off n i : Nat} {b : List Byte} (h : Open s)
    (hclean : (255 : Byte) ∉ s.rest.take n) (hroom : off + i + n ≤ b.length) :
    ∃ s', readRangeLoop off n i b s =
        .ok (((i + (s.rest.take n).length : Nat) : Int), overwrite b (off + i) (s.rest.take n), s') ∧
      s'.rest = s.rest.drop n := by
  induction n generalizing i b s with
  | zero =>
    refine ⟨s, ?_, rfl⟩
    rw [List.take_zero, overwrite_nil]
    rfl
  | succ n ih =>
    rw [readRangeLoop]
    cases hrest : s.rest with
    | nil =>
      rw [read_nil h hrest, List.take_nil, overwrite_nil, List.drop_nil]
      exact ⟨s, rfl, hrest⟩
    | cons c rest =>
      rw [hrest, List.take_succ_cons, List.mem_cons, not_or] at hclean
      have hc : ¬c.toInt = -1 := fun hno => hclean.1 ((toInt_eq_neg_one_iff c).mp hno).symm
      rw [read_cons h hrest]
      dsimp only
      rw [if_neg hc, ofInt_toInt, set_eq_overwrite c (by omega), List.take_succ_cons,
        List.drop_succ_cons]
      have hone : off + i + [c].length ≤ b.length := by
        rw [List.length_singleton]
        omega
      obtain ⟨s', hs', hrest'⟩ := @ih { s with rest, mBytes := [c] } (i + 1) (overwrite b (off + i) [c])
        h.next_rest hclean.2 (by rw [length_overwrite hone]; omega)
      refine ⟨s', ?_, hrest'⟩
      rw [hs']
      have hcount : i + 1 + (rest.take n).length = i + (c :: rest.take n).length := by
        rw [List.length_cons]
        omega
      have hbytes := @overwrite_append b [c] (off + i) (rest.take n) hone
      rw [List.length_singleton, List.singleton_append] at hbytes
      rw [hcount, ← Nat.add_assoc, hbytes]

/-- A byte 255 is lost. -/
theorem readRangeLoop_dirty {off n i : Nat} {b : List Byte} (h : Open s)
    (hdirty : (255 : Byte) ∈ s.rest.take n) :
    ∃ (j : Nat) (b' : List Byte) (s' : SocketInputStream),
      readRangeLoop off n i b s = .ok (((i + j : Nat) : Int), b', s') ∧
      s'.rest.length + (j + 1) = s.rest.length := by
  induction n generalizing i b s with
  | zero =>
    rw [List.take_zero] at hdirty
    cases hdirty
  | succ n ih =>
    rw [readRangeLoop]
    cases hrest : s.rest with
    | nil =>
      rw [hrest, List.take_nil] at hdirty
      cases hdirty
    | cons c rest =>
      rw [hrest, List.take_succ_cons, List.mem_cons] at hdirty
      rw [read_cons h hrest]
      dsimp only
      by_cases hc : c = 255
      · rw [if_pos ((toInt_eq_neg_one_iff c).mpr hc)]
        exact ⟨0, b, _, rfl, rfl⟩
      · rw [if_neg (fun hno => hc ((toInt_eq_neg_one_iff c).mp hno))]
        obtain ⟨j, b', s', hs', hlength⟩ := @ih { s with rest, mBytes := [c] } (i + 1)
          (b.set (off + i) (BitVec.ofInt 8 c.toInt)) h.next_rest
          (hdirty.resolve_left fun hno => hc hno.symm)
        refine ⟨j + 1, b', s', ?_, ?_⟩
        · rw [hs']
          congr 3
          omega
        · rw [List.length_cons]
          change s'.rest.length + (j + 1) = rest.length at hlength
          omega

theorem right_readRange_iff (h : Open s) {b : List Byte} {off len : Nat}
    (hfits : s.Fits (.readRange b off len)) :
    s.Right (.readRange b off len) ↔ s.Clean (.readRange b off len) := by
  have hroom : off + len ≤ b.length := hfits
  unfold Right Clean respond readRange
  dsimp only
  rw [if_neg (by omega)]
  cases len with
  | zero =>
    rw [if_pos rfl]
    constructor
    · rintro - hno
      cases hno
    · intro _
      exact ⟨_, _, _, rfl, Or.inr ⟨0, rfl, le_rfl, Nat.zero_le _, fun _ => rfl,
        (overwrite_nil _ _).symm, rfl⟩⟩
  | succ n =>
    rw [if_neg (by omega)]
    cases hrest : s.rest with
    | nil =>
      rw [read_nil h hrest]
      constructor
      · rintro - hno
        cases hno
      · intro _
        exact ⟨_, _, _, rfl, Or.inl ⟨rfl, rfl, hrest⟩⟩
    | cons c rest =>
      rw [read_cons h hrest, ok_bind]
      dsimp only
      -- The first byte comes from `read()`, which gives 255 back as the end of the stream.
      by_cases hc : c = 255
      · rw [if_pos ((toInt_eq_neg_one_iff c).mpr hc)]
        constructor
        · rintro ⟨v, b', s', hrespond, hright⟩
          cases hrespond
          rcases hright with ⟨hno, -⟩ | ⟨k, hk, -⟩
          · cases hno
          · omega
        · intro hclean
          rw [hc, List.take_succ_cons] at hclean
          exact absurd (List.mem_cons_self ..) hclean
      rw [if_neg (fun hno => hc ((toInt_eq_neg_one_iff c).mp hno)), ofInt_toInt,
        set_eq_overwrite c (by omega), Nat.add_sub_cancel]
      have hone : off + [c].length ≤ b.length := by
        rw [List.length_singleton]
        omega
      -- The loop for the others takes a byte 255 off the socket and does not store it.
      by_cases hclean : (255 : Byte) ∈ rest.take n
      · obtain ⟨j, b', s', hs', hlength⟩ := @readRangeLoop_dirty { s with rest, mBytes := [c] } off n 1
          (overwrite b off [c]) h.next_rest hclean
        rw [hs']
        constructor
        · rintro ⟨v, b'', s'', hrespond, hright⟩
          cases hrespond
          rcases hright with ⟨hno, -⟩ | ⟨k, hk, hstores⟩
          · cases hno
          · have hdrop := congrArg List.length hstores.2.2.2.2
            have hle := hstores.2.1
            rw [hrest, List.length_cons] at hle
            rw [hrest, List.length_drop, List.length_cons] at hdrop
            change s'.rest.length + (j + 1) = rest.length at hlength
            omega
        · intro hno
          rw [List.take_succ_cons] at hno
          exact absurd (List.mem_cons_of_mem _ hclean) hno
      · obtain ⟨s', hs', hrest'⟩ := @readRangeLoop_clean { s with rest, mBytes := [c] } off n 1
          (overwrite b off [c]) h.next_rest hclean (by rw [length_overwrite hone]; omega)
        rw [hs']
        constructor
        · intro _ hno
          rw [List.take_succ_cons, List.mem_cons] at hno
          exact hno.elim (fun hno => hc hno.symm) hclean
        · intro _
          have hbytes := @overwrite_append b [c] off (rest.take n) hone
          rw [List.length_singleton, List.singleton_append] at hbytes
          have hlength : (rest.take n).length = min n rest.length := List.length_take
          refine ⟨_, _, _, rfl, Or.inr ⟨_, rfl, ?_, ?_, ?_, ?_, ?_⟩⟩
          · dsimp only
            omega
          · rw [hrest, List.length_cons]
            dsimp only
            omega
          · intro hno
            omega
          · dsimp only
            rw [hbytes, hrest, Nat.add_comm 1, List.take_succ_cons]
            congr 2
            rw [hlength]
            exact (List.take_eq_take_min ..)
          · rw [hrest, Nat.add_comm 1, List.drop_succ_cons, hrest']
            dsimp only
            rw [hlength]
            rcases Nat.le_total n rest.length with hle | hle
            · rw [min_eq_left hle]
            · rw [min_eq_right hle, List.drop_length, List.drop_eq_nil_of_le hle]

/-! ## Runs -/

theorem right_iff (h : Open s) {input : Input} (hfits : s.Fits input) :
    s.Right input ↔ s.Clean input := by
  cases input with
  | read => exact right_read_iff h
  | readArray bytes sizes => exact right_readArray_iff h hfits
  | readRange b off len => exact right_readRange_iff h hfits

/-- The byte that was read last. -/
theorem read_open (h : Open s) {c : Int} {s' : SocketInputStream} (hread : s.read = .ok (c, s')) :
    Open s' := by
  cases hrest : s.rest with
  | nil =>
    rw [read_nil h hrest] at hread
    cases hread
    exact h
  | cons c rest =>
    rw [read_cons h hrest] at hread
    cases hread
    exact h.next_rest

theorem readRangeLoop_open {off n i : Nat} {b b' : List Byte} {v : Int} {s' : SocketInputStream}
    (h : Open s) (hloop : readRangeLoop off n i b s = .ok (v, b', s')) : Open s' := by
  induction n generalizing i b s with
  | zero =>
    cases hloop
    exact h
  | succ n ih =>
    rw [readRangeLoop] at hloop
    cases hread : s.read with
    | error e =>
      rw [hread] at hloop
      cases e
      · cases hloop
        exact h
      · cases hloop
      · cases hloop
      · cases hloop
    | ok result =>
      obtain ⟨c, t⟩ := result
      have ht := read_open h hread
      rw [hread] at hloop
      dsimp only at hloop
      split_ifs at hloop
      · cases hloop
        exact ht
      · exact ih ht hloop

theorem Open.next (h : Open s) (input : Input) : Open (s.next input) := by
  unfold SocketInputStream.next
  cases hrespond : s.respond input with
  | error e => exact h
  | ok result =>
    obtain ⟨v, b', s'⟩ := result
    dsimp only
    cases input with
    | read =>
      obtain ⟨⟨c, t⟩, hread, ht⟩ := bind_eq_ok.mp hrespond
      cases ht
      exact read_open h hread
    | readArray bytes sizes =>
      obtain ⟨⟨data, count⟩, -, ht⟩ := bind_eq_ok.mp hrespond
      dsimp only at ht
      split_ifs at ht
      · cases ht
        exact ⟨h.fd, h.length⟩
      · cases ht
        exact ⟨h.fd, h.length⟩
    | readRange b off len =>
      simp only [respond, readRange] at hrespond
      by_cases hrange : b.length < off + len
      · rw [if_pos hrange] at hrespond
        cases hrespond
      rw [if_neg hrange] at hrespond
      by_cases hlen : len = 0
      · rw [if_pos hlen] at hrespond
        cases hrespond
        exact h
      rw [if_neg hlen] at hrespond
      obtain ⟨⟨c, t⟩, hread, ht⟩ := bind_eq_ok.mp hrespond
      dsimp only at ht
      split_ifs at ht
      · cases ht
        exact read_open h hread
      · exact readRangeLoop_open (read_open h hread) ht

/-- The stream of a socket whose peer sends these bytes. -/
def new (call : Call) (sent : List Byte) : SocketInputStream := ⟨call, sent, [0]⟩

/-- The calls return the bytes of the peer exactly when each of them finds bytes that it can return. -/
theorem reads_iff (call : Call) (hfd : 0 ≤ call.fd) (sent : List Byte) (inputs : List Input)
    (hfits : Run.Along SocketInputStream.next Fits (new call sent) inputs) :
    Run.Along SocketInputStream.next Right (new call sent) inputs ↔
      Run.Along SocketInputStream.next Clean (new call sent) inputs := by
  have hboth : Run.Along SocketInputStream.next (fun s i => s.Fits i ∧ s.Right i) (new call sent) inputs ↔
      Run.Along SocketInputStream.next (fun s i => s.Fits i ∧ s.Clean i) (new call sent) inputs := by
    apply Run.along_congr (I := Open)
    · intro s i hs
      apply and_congr_right
      intro hi
      exact right_iff hs hi
    · intro s i hs _
      exact hs.next i
    · exact ⟨hfd, rfl⟩
  rw [Run.along_and, Run.along_and] at hboth
  tauto

/-- Two bytes, read alone and into an array. -/
theorem reads_text : Run.Along SocketInputStream.next Right (new plain [65, 66])
    [.read, .readArray [0] [1, 1], .read] := by
  apply (reads_iff plain (by decide) [65, 66] _ _).mpr
  · refine ⟨?_, ⟨fun hno => (by cases hno), ?_⟩, ?_, trivial⟩
    · intro c hc
      cases hc
      decide
    · intro hexceeds
      have hloop := (@readLoop_outOfBounds_iff plain _ [0] 1 0 rfl).mpr hexceeds
      revert hloop
      decide
    · intro c hc
      cases hc
  · exact ⟨trivial, Nat.lt_succ_self 1, trivial, trivial⟩

/-- The byte 255 is returned as the end of the stream. -/
theorem byte_255_ends : ¬Run.Along SocketInputStream.next Right (new plain [255, 65]) [.read] := by
  rintro ⟨⟨v, b', s', hrespond, hright⟩, -⟩
  have hvalue : ((new plain [255, 65]).respond .read).map Prod.fst = .ok (-1) := by decide
  rw [hrespond] at hvalue
  cases hvalue
  rcases hright with ⟨hno, -⟩ | ⟨c, -, hc⟩
  · cases hno
  · omega

end SocketInputStream

end XoDos
