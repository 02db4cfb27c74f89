import XoDos.Java
import XoDos.Ring

/-!
# `ByteQueue`

A circular byte buffer for one producer and one consumer thread.  The methods
are synchronized, and give up the monitor only in `wait()`.  What happens from
one wait point to the next is a function here; `QueueThreads` puts the threads
around it.

An exception ends a call but not the queue, so the copying loops return the
queue as it then is.
-/

namespace XoDos

structure ByteQueue where
  mBuffer : List Byte
  mHead : Int
  mStoredBytes : Int
  mOpen : Bool

namespace ByteQueue

def new (size : Nat) : ByteQueue := ⟨List.replicate size 0, 0, 0, true⟩

/-- What a copying loop leaves behind. -/
structure Transfer where
  queue : ByteQueue
  /-- The buffer of the caller. -/
  buffer : List Byte
  offset : Int
  thrown : Option JavaException

/-- The copying loop of `read`; every round copies at least one byte. -/
def readLoop : Nat → ByteQueue → List Byte → Int → Int → Transfer
  | 0, q, buffer, _, offset => ⟨q, buffer, offset, none⟩
  | rounds + 1, q, buffer, length, offset =>
    if 0 < length ∧ 0 < q.mStoredBytes then
      let oneRun := min (q.mBuffer.length - q.mHead) q.mStoredBytes
      let bytesToCopy := min length oneRun
      match arraycopy q.mBuffer q.mHead buffer offset bytesToCopy with
      | .error e => ⟨q, buffer, offset, some e⟩
      | .ok buffer =>
        let head := q.mHead + bytesToCopy
        readLoop rounds
          { q with
            mHead := if q.mBuffer.length ≤ head then 0 else head
            mStoredBytes := q.mStoredBytes - bytesToCopy }
          buffer (length - bytesToCopy) (offset + bytesToCopy)
    else ⟨q, buffer, offset, none⟩

/-- The inner loop of `write`. -/
def storeLoop (buffer : List Byte) : Nat → ByteQueue → Int → Int → Transfer
  | 0, q, offset, _ => ⟨q, buffer, offset, none⟩
  | rounds + 1, q, offset, bytesToWriteBeforeWaiting =>
    if 0 < bytesToWriteBeforeWaiting then
      let bufferLength : Int := q.mBuffer.length
      let sum := toInt32 (q.mHead + q.mStoredBytes)
      let tail := if bufferLength ≤ sum then sum - bufferLength else sum
      let oneRun := if bufferLength ≤ sum then q.mHead - tail else toInt32 (bufferLength - tail)
      let bytesToCopy := min oneRun bytesToWriteBeforeWaiting
      match arraycopy buffer offset q.mBuffer tail bytesToCopy with
      | .error e => ⟨q, buffer, offset, some e⟩
      | .ok mBuffer =>
        storeLoop buffer rounds
          { q with mBuffer := mBuffer, mStoredBytes := q.mStoredBytes + bytesToCopy }
          (offset + bytesToCopy) (bytesToWriteBeforeWaiting - bytesToCopy)
    else ⟨q, buffer, offset, none⟩

/-- How the part of a call between two wait points ends. -/
inductive Outcome (α : Type) where
  | waits
  | returns (value : α)
  | throws (e : JavaException)
deriving DecidableEq

/-- `read`, from its start or from a wake-up to its end or the next `wait()`.  The flag tells
whether `notify()` was called. -/
def read (q : ByteQueue) (buffer : List Byte) (block : Bool) :
    Transfer × Outcome Int × Bool :=
  if q.mStoredBytes = 0 ∧ q.mOpen = true then
    (⟨q, buffer, 0, none⟩, if block then .waits else .returns 0, false)
  else if q.mOpen = false then (⟨q, buffer, 0, none⟩, .returns (-1), false)
  else
    let wasFull : Bool := q.mBuffer.length = q.mStoredBytes
    let t := readLoop buffer.length q buffer buffer.length 0
    match t.thrown with
    | some e => (t, .throws e, false)
    | none => (t, .returns t.offset, wasFull)

/-- The checks that `write` makes before it enters the monitor. -/
def writeRejects (buffer : List Byte) (offset lengthToWrite : Int) : Bool :=
  (buffer.length : Int) < toInt32 (lengthToWrite + offset) ∨ lengthToWrite ≤ 0

/-- One round of the outer loop of `write`.  Without an outcome the loop goes on, with the number of
bytes that are left to write. -/
def writeRound (q : ByteQueue) (buffer : List Byte) (offset lengthToWrite : Int) :
    Transfer × Int × Option (Outcome Bool) × Bool :=
  if lengthToWrite ≤ 0 then (⟨q, buffer, offset, none⟩, lengthToWrite, some (.returns true), false)
  else if q.mBuffer.length = q.mStoredBytes ∧ q.mOpen = true then
    (⟨q, buffer, offset, none⟩, lengthToWrite, some .waits, false)
  else if q.mOpen = false then
    (⟨q, buffer, offset, none⟩, lengthToWrite, some (.returns false), false)
  else
    let wasEmpty : Bool := q.mStoredBytes = 0
    let bytesToWriteBeforeWaiting := min lengthToWrite (q.mBuffer.length - q.mStoredBytes)
    let t := storeLoop buffer bytesToWriteBeforeWaiting.toNat q offset bytesToWriteBeforeWaiting
    match t.thrown with
    | some e => (t, lengthToWrite - bytesToWriteBeforeWaiting, some (.throws e), false)
    | none => (t, lengthToWrite - bytesToWriteBeforeWaiting, none, wasEmpty)

theorem not_writeRejects {buffer : List Byte} {offset lengthToWrite : Int}
    (h : ¬ writeRejects buffer offset lengthToWrite = true) :
    toInt32 (lengthToWrite + offset) ≤ buffer.length ∧ 0 < lengthToWrite := by
  simpa [writeRejects] using h

/-! ## The queue as a list of bytes -/

/-- The bytes stored, oldest first. -/
def contents (q : ByteQueue) : List Byte :=
  Ring.contents q.mBuffer q.mHead.toNat q.mStoredBytes.toNat

/-- A queue of capacity `n`, an `int`. -/
structure Valid (n : Nat) (q : ByteQueue) : Prop where
  capacity : q.mBuffer.length = n
  fits : n ≤ 2147483647
  head : 0 ≤ q.mHead ∧ q.mHead < n
  stored : 0 ≤ q.mStoredBytes ∧ q.mStoredBytes ≤ n

/-- The `k` bytes of a buffer from `offset` on. -/
def slice (buffer : List Byte) (offset k : Int) : List Byte :=
  (buffer.drop offset.toNat).take k.toNat

theorem slice_add {b : List Byte} {i j k : Int} (hi : 0 ≤ i) (hj : 0 ≤ j) (hk : 0 ≤ k) :
    slice b i j ++ slice b (i + j) k = slice b i (j + k) := by
  rw [slice, slice, slice, Int.toNat_add hj hk, Int.toNat_add hi hj, ← List.drop_drop,
    ← List.take_add]

@[simp] theorem slice_zero {buffer : List Byte} {offset : Int} : slice buffer offset 0 = [] := by
  simp [slice]

theorem new_valid {n : Nat} (hn : 1 ≤ n) (hfits : n ≤ 2147483647) : Valid n (new n) :=
  ⟨by simp [new], hfits, ⟨by simp [new], by simp [new]; omega⟩, ⟨by simp [new], by simp [new]⟩⟩

variable {n : Nat} {q : ByteQueue}

theorem Valid.contents_length (h : Valid n q) : q.contents.length = q.mStoredBytes.toNat :=
  Ring.contents_length (by have := h.stored; have := h.capacity; omega)

/-- `arraycopy` into the middle of an array, when it returns. -/
theorem arraycopy_eq_ok {α : Type} {src dst b : List α} {i j k : Int}
    (h : arraycopy src i dst j k = .ok b) :
    (0 ≤ i ∧ 0 ≤ j ∧ 0 ≤ k ∧ i + k ≤ src.length ∧ j + k ≤ dst.length) ∧
      b = dst.take j.toNat ++ (src.drop i.toNat).take k.toNat ++ dst.drop (j + k).toNat := by
  unfold arraycopy at h
  split_ifs at h with hc
  cases h
  exact ⟨by omega, rfl⟩

/-! ## Storing -/

/-- The index where the next byte goes and the length of the run that starts there, as the inner
loop of `write` computes them.  When the sum of two `int`s overflows, the run is negative. -/
theorem tail_cases (h : Valid n q) (hfree : q.mStoredBytes < n) {sum tail oneRun : Int}
    (hsum : sum = toInt32 (q.mHead + q.mStoredBytes))
    (htail : tail = if (n : Int) ≤ sum then sum - n else sum)
    (hrun : oneRun = if (n : Int) ≤ sum then q.mHead - tail else toInt32 (n - tail)) :
    (2147483647 < q.mHead + q.mStoredBytes ∧ oneRun < 0) ∨
      (q.mHead + q.mStoredBytes ≤ 2147483647 ∧ 0 < oneRun ∧ 0 ≤ tail ∧ tail + oneRun ≤ n ∧
        tail.toNat = (if q.mStoredBytes.toNat + q.mHead.toNat < n then
          q.mStoredBytes.toNat + q.mHead.toNat else q.mStoredBytes.toNat + q.mHead.toNat - n) ∧
        (oneRun = n - q.mStoredBytes ∨ q.mHead + q.mStoredBytes + oneRun = n)) := by
  obtain ⟨-, hf, hh, hs⟩ := h
  by_cases hover : 2147483647 < q.mHead + q.mStoredBytes
  · have hsum' : sum = q.mHead + q.mStoredBytes - 4294967296 := by
      unfold toInt32 at hsum
      omega
    rw [if_neg (by omega)] at htail hrun
    unfold toInt32 at hrun
    exact .inl ⟨hover, by omega⟩
  · have hsum' : sum = q.mHead + q.mStoredBytes := by
      unfold toInt32 at hsum
      omega
    right
    by_cases hwrap : (n : Int) ≤ sum
    · rw [if_pos hwrap] at htail hrun
      rw [if_neg (by omega)]
      omega
    · rw [if_neg hwrap] at htail hrun
      have hrun' : oneRun = n - tail := by
        unfold toInt32 at hrun
        omega
      rw [if_pos (by omega)]
      omega

/-- One round of the inner loop of `write`. -/
structure RunStored (n : Nat) (q : ByteQueue) (buffer : List Byte) (offset k : Int)
    (q' : ByteQueue) : Prop where
  legal : 0 ≤ offset ∧ offset + k ≤ buffer.length
  positive : 0 < k
  valid : Valid n q'
  head : q'.mHead = q.mHead
  isOpen : q'.mOpen = q.mOpen
  stored : q'.mStoredBytes = q.mStoredBytes + k
  contents : q'.contents = q.contents ++ slice buffer offset k

theorem run_stored (h : Valid n q) {buffer mBuffer : List Byte} {offset tail k oneRun : Int}
    (hk : k ≤ n - q.mStoredBytes) (hpos : 0 < k) (hkr : k ≤ oneRun) (ht : tail + oneRun ≤ n)
    (htail : tail.toNat = (if q.mStoredBytes.toNat + q.mHead.toNat < n then
      q.mStoredBytes.toNat + q.mHead.toNat else q.mStoredBytes.toNat + q.mHead.toNat - n))
    (hcopy : arraycopy buffer offset q.mBuffer tail k = .ok mBuffer) :
    RunStored n q buffer offset k
      { q with mBuffer := mBuffer, mStoredBytes := q.mStoredBytes + k } := by
  obtain ⟨⟨ho, htl, -, hsrc, -⟩, rfl⟩ := arraycopy_eq_ok hcopy
  obtain ⟨hc, hf, hh, hs⟩ := h
  have hlen : (slice buffer offset k).length = k.toNat := by
    rw [slice, List.length_take, List.length_drop]
    omega
  have hsplit : q.mBuffer.take tail.toNat ++ (buffer.drop offset.toNat).take k.toNat ++
      q.mBuffer.drop (tail + k).toNat = q.mBuffer.take tail.toNat ++ slice buffer offset k ++
      q.mBuffer.drop (tail.toNat + (slice buffer offset k).length) := by
    rw [hlen, Int.toNat_add htl hpos.le]
    rfl
  refine ⟨⟨ho, hsrc⟩, hpos, ⟨?_, hf, hh, by simp only; omega⟩, rfl, rfl, rfl, ?_⟩
  · simp only [hsplit, List.length_append, List.length_take, List.length_drop, hlen]
    omega
  · simp only [contents, hsplit, Int.toNat_add hs.1 hpos.le]
    rw [← hlen]
    exact Ring.contents_write (by omega) (by omega) (by omega) (by rw [hc]; exact htail) (by omega)

/-- What the inner loop of `write` stores, whether or not it throws. -/
structure Stored (n : Nat) (q : ByteQueue) (offset remaining : Int) (t : Transfer) : Prop where
  valid : Valid n t.queue
  isOpen : t.queue.mOpen = q.mOpen
  progress : offset ≤ t.offset ∧ t.offset ≤ offset + remaining
  stored : t.queue.mStoredBytes = q.mStoredBytes + (t.offset - offset)
  contents : t.queue.contents = q.contents ++ slice t.buffer offset (t.offset - offset)
  complete : t.thrown = none → t.offset = offset + remaining
  legal : t.offset = offset ∨ (0 ≤ offset ∧ t.offset ≤ t.buffer.length)

theorem storeLoop_buffer (buffer : List Byte) (rounds : Nat) (q : ByteQueue) (offset remaining : Int) :
    (storeLoop buffer rounds q offset remaining).buffer = buffer := by
  induction rounds generalizing q offset remaining with
  | zero => rfl
  | succ rounds ih =>
    rw [storeLoop]
    split_ifs with h
    · dsimp only
      split
      · rfl
      · exact ih _ _ _
    · rfl

theorem Stored.refl (h : Valid n q) {buffer : List Byte} {offset remaining : Int}
    {thrown : Option JavaException} (hr : 0 ≤ remaining) (ht : thrown = none → remaining = 0) :
    Stored n q offset remaining ⟨q, buffer, offset, thrown⟩ :=
  ⟨h, rfl, by simp; omega, by simp, by simp, fun h => by have := ht h; simp; omega, .inl rfl⟩

theorem storeLoop_stored {buffer : List Byte} (rounds : Nat) {offset remaining : Int}
    (h : Valid n q) (hr : 0 ≤ remaining) (hfree : remaining ≤ n - q.mStoredBytes)
    (hrounds : remaining ≤ rounds) :
    Stored n q offset remaining (storeLoop buffer rounds q offset remaining) := by
  induction rounds generalizing q offset remaining with
  | zero => exact .refl h hr fun _ => by omega
  | succ rounds ih =>
    rw [storeLoop]
    split_ifs with hpos
    swap
    · exact .refl h hr fun _ => by omega
    rw [h.capacity]
    dsimp only
    generalize hsum : toInt32 (q.mHead + q.mStoredBytes) = sum
    generalize htail : (if (n : Int) ≤ sum then sum - n else sum) = tail
    generalize hrun : (if (n : Int) ≤ sum then q.mHead - tail else toInt32 (n - tail)) = oneRun
    obtain ⟨-, hneg⟩ | ⟨-, hrun, htail, hfit, hpos', -⟩ :=
      tail_cases h (by omega) hsum.symm htail.symm hrun.symm
    · -- The sum overflows, and `arraycopy` rejects the negative length.
      split
      · exact .refl h hr (by simp)
      · rename_i b hb
        have := (arraycopy_eq_ok hb).1.2.2.1
        omega
    · split
      · exact .refl h hr (by simp)
      · rename_i b hb
        -- One run is stored up to the end of the buffer, or to the head; what remains comes in the next round.
        have hs := run_stored h (by omega) (by omega) (min_le_left _ _) hfit hpos' hb
        have hst := hs.stored
        have hp := hs.positive
        have := @ih _ (offset + min oneRun remaining) (remaining - min oneRun remaining) hs.valid
          (by omega) (by omega) (by omega)
        have hpr := this.progress
        have hlegal := hs.legal
        have hlegal' := this.legal
        rw [storeLoop_buffer] at hlegal'
        refine ⟨this.valid, this.isOpen.trans hs.isOpen, by omega, ?_, ?_, ?_, ?_⟩
        · rw [this.stored, hst]
          omega
        · rw [this.contents, hs.contents, storeLoop_buffer, List.append_assoc,
            slice_add hs.legal.1 hp.le (by omega)]
          congr 2
          omega
        · intro ht
          rw [this.complete ht]
          omega
        · rw [storeLoop_buffer]
          omega

theorem storeLoop_done {buffer : List Byte} (rounds : Nat) {offset : Int} :
    storeLoop buffer rounds q offset 0 = ⟨q, buffer, offset, none⟩ := by
  cases rounds with
  | zero => rfl
  | succ rounds => rw [storeLoop, if_neg (lt_irrefl _)]

/-- Nothing is stored from before the beginning of the array. -/
theorem storeLoop_negative (buffer : List Byte) (rounds : Nat) (q : ByteQueue)
    {offset : Int} (remaining : Int) (hneg : offset < 0) :
    (storeLoop buffer rounds q offset remaining).queue = q := by
  cases rounds with
  | zero => rfl
  | succ rounds =>
    rw [storeLoop]
    split_ifs
    · simp only [arraycopy, hneg, true_or, if_true]
    · rfl

/-- With a buffer that holds the bytes, the loop throws at its first round or not at all. -/
theorem storeLoop_thrown {buffer : List Byte} (rounds : Nat) {offset remaining : Int}
    (h : Valid n q) (hr : 0 ≤ remaining) (hfree : remaining ≤ n - q.mStoredBytes) (ho : 0 ≤ offset)
    (hbuf : offset + remaining ≤ buffer.length)
    (hthrown : (storeLoop buffer rounds q offset remaining).thrown ≠ none) :
    (storeLoop buffer rounds q offset remaining).queue = q ∧
      2147483647 < q.mHead + q.mStoredBytes := by
  induction rounds generalizing q offset remaining with
  | zero => exact absurd rfl hthrown
  | succ rounds ih =>
    rw [storeLoop] at hthrown ⊢
    split_ifs at hthrown ⊢ with hpos
    swap
    · exact absurd rfl hthrown
    rw [h.capacity] at hthrown ⊢
    dsimp only at hthrown ⊢
    generalize hsum : toInt32 (q.mHead + q.mStoredBytes) = sum at hthrown ⊢
    generalize htail : (if (n : Int) ≤ sum then sum - n else sum) = tail at hthrown ⊢
    generalize hrun : (if (n : Int) ≤ sum then q.mHead - tail else toInt32 (n - tail)) = oneRun
      at hthrown ⊢
    obtain ⟨hover, hneg⟩ | ⟨-, hrun, htail, hfit, hpos', hend⟩ :=
      tail_cases h (by omega) hsum.symm htail.symm hrun.symm
    · rw [arraycopy, if_pos (by omega)]
      exact ⟨rfl, hover⟩
    · have hcopy : arraycopy buffer offset q.mBuffer tail (min oneRun remaining) = .ok _ :=
        arraycopy_ok ho htail (by omega) (by omega) (by rw [h.capacity]; omega)
      rw [hcopy] at hthrown ⊢
      dsimp only at hthrown ⊢
      have hs := run_stored h (by omega) (by omega) (min_le_left _ _) hfit hpos' hcopy
      have hst := hs.stored
      have hp := hs.positive
      have := (ih hs.valid (by omega) (by omega) (by omega) (by omega) hthrown).2
      -- After a run that ends at the end of the array the sum is the capacity.
      have hhead := hs.head
      have := h.fits
      by_cases hdone : remaining ≤ oneRun
      · rw [min_eq_right hdone, sub_self, storeLoop_done] at hthrown
        exact absurd rfl hthrown
      · omega

/-! ## Reading -/

/-- What the loop of `read` does: it copies `k` bytes from the front of the queue. -/
structure Copied (n : Nat) (q : ByteQueue) (buffer : List Byte) (offset k : Int) (t : Transfer) :
    Prop where
  valid : Valid n t.queue
  isOpen : t.queue.mOpen = q.mOpen
  stored : t.queue.mStoredBytes = q.mStoredBytes - k
  contents : t.queue.contents = q.contents.drop k.toNat
  count : t.offset = offset + k
  bytes : t.buffer.take t.offset.toNat = buffer.take offset.toNat ++ q.contents.take k.toNat
  thrown : t.thrown = none

theorem Copied.refl (h : Valid n q) (buffer : List Byte) (offset : Int) :
    Copied n q buffer offset 0 ⟨q, buffer, offset, none⟩ :=
  ⟨h, rfl, by simp, by simp, by simp, by simp, rfl⟩

/-- Moving the head over `k` bytes, which do not reach around the end. -/
theorem run_read (h : Valid n q) {k : Int} (hk : 0 ≤ k) (hks : k ≤ q.mStoredBytes)
    (hend : q.mHead + k ≤ n) :
    Valid n { q with
      mHead := if (q.mBuffer.length : Int) ≤ q.mHead + k then 0 else q.mHead + k
      mStoredBytes := q.mStoredBytes - k } ∧
    contents { q with
      mHead := if (q.mBuffer.length : Int) ≤ q.mHead + k then 0 else q.mHead + k
      mStoredBytes := q.mStoredBytes - k } = q.contents.drop k.toNat := by
  obtain ⟨hc, hf, hh, hs⟩ := h
  refine ⟨⟨hc, hf, ?_, by simp only; omega⟩, ?_⟩
  · simp only
    split_ifs <;> omega
  · simp only [contents]
    rw [show (q.mStoredBytes - k).toNat = q.mStoredBytes.toNat - k.toNat by omega]
    refine Ring.contents_drop (by omega) (by omega) ?_
    split_ifs with hw
    · rw [show q.mHead.toNat + k.toNat = q.mBuffer.length by omega, Nat.mod_self]
      rfl
    · rw [Nat.mod_eq_of_lt (by omega)]
      omega

theorem readLoop_copied (rounds : Nat) {buffer : List Byte} {length offset : Int} (h : Valid n q)
    (hl : 0 ≤ length) (ho : 0 ≤ offset) (hbuf : offset + length = buffer.length)
    (hrounds : length ≤ rounds) :
    Copied n q buffer offset (min length q.mStoredBytes)
      (readLoop rounds q buffer length offset) := by
  induction rounds generalizing q buffer length offset with
  | zero =>
    have hs := h.stored
    rw [show min length q.mStoredBytes = 0 by omega]
    exact .refl h _ _
  | succ rounds ih =>
    have hs := h.stored
    rw [readLoop]
    split_ifs with hpos
    swap
    · rw [show min length q.mStoredBytes = 0 by omega]
      exact .refl h _ _
    dsimp only
    have hh := h.head
    have hc := h.capacity
    -- A round copies up to the end of the buffer, and the next one goes on at its start.
    generalize hk : min length (min (q.mBuffer.length - q.mHead) q.mStoredBytes) = k
    rw [arraycopy_ok hh.1 ho (by omega) (by omega) (by omega)]
    dsimp only
    obtain ⟨hv, hcont⟩ := run_read h (k := k) (by omega) (by omega) (by omega)
    have hrun : (q.mBuffer.drop q.mHead.toNat).take k.toNat = q.contents.take k.toNat :=
      (Ring.contents_take (by omega) (by omega) (by omega)).symm
    have hbl : (buffer.take offset.toNat ++ q.contents.take k.toNat).length = (offset + k).toNat := by
      rw [List.length_append, List.length_take, List.length_take, h.contents_length]
      omega
    rw [hrun]
    have := @ih { q with
        mHead := if (q.mBuffer.length : Int) ≤ q.mHead + k then 0 else q.mHead + k
        mStoredBytes := q.mStoredBytes - k }
      (buffer.take offset.toNat ++ q.contents.take k.toNat ++ buffer.drop (offset + k).toNat)
      (length - k) (offset + k) hv (by omega)
      (by omega) (by rw [List.length_append, hbl, List.length_drop]; omega) (by omega)
    refine ⟨this.valid, this.isOpen, ?_, ?_, ?_, ?_, this.thrown⟩
    · rw [this.stored]
      simp only
      omega
    · rw [this.contents, hcont, List.drop_drop]
      congr 1
      simp only
      omega
    · rw [this.count]
      simp only
      omega
    · rw [this.bytes, ← hbl, List.take_left, hcont, List.append_assoc, ← List.take_add]
      congr 2
      simp only
      omega

end ByteQueue

end XoDos
