import XoDos.Utf8Check

/-!
# Latin-1 and UTF-8 in the clipboard

`lorieUtf8ToLatin1` decodes a string that ends with a NUL.  Only the NUL stops the decoder, which
consumes the byte that breaks a sequence off, be it the NUL or not.

A pointer is the memory from it on, up to the NUL.  A `size_t` has 64 bits; the bytes that the decoder
has consumed are a number.
-/

namespace XoDos

namespace LorieClipboard

/-- An invalid sequence goes on to the end of its continuation bytes. -/
def skipTails : List (BitVec 8) → BitVec 64 → Nat → Except Fault Nat
  | [], max, consumed => if max = 0 then .ok consumed else .error .outOfBounds
  | b :: src, max, consumed =>
    if max = 0 then .ok consumed
    else if b &&& 0xc0 = 0x80 then skipTails src (max - 1) (consumed + 1)
    else .ok consumed

/-- The loop over `count` continuation bytes. -/
def readTails : Nat → List (BitVec 8) → BitVec 64 → Nat → BitVec 32 → Except Fault (Nat × BitVec 32)
  | 0, _, _, consumed, dst =>
    .ok (consumed, if 0xd800 ≤ dst ∧ dst < 0xe000 then 0xfffd else dst)
  | count + 1, src, max, consumed, dst =>
    if max = 0 then .ok (consumed + 1, 0xfffd)
    else
      match src with
      | [] => .error .outOfBounds
      | b :: src =>
        if b &&& 0xc0 ≠ 0x80 then .ok (consumed + 1, 0xfffd)
        else readTails count src (max - 1) (consumed + 1)
          ((dst <<< 6) ||| (b &&& 0x3f).setWidth 32)

/-- The bytes that were consumed, and the character. -/
def lorieUtf8ToUCS4 : List (BitVec 8) → BitVec 64 → Except Fault (Nat × BitVec 32)
  | [], max => if max = 0 then .ok (0, 0xfffd) else .error .outOfBounds
  | c :: src, max =>
    if max = 0 then .ok (0, 0xfffd)
    else if c &&& 0x80 = 0 then readTails 0 src (max - 1) 1 (c.setWidth 32)
    else if c &&& 0xe0 = 0xc0 then readTails 1 src (max - 1) 1 ((c &&& 0x1f).setWidth 32)
    else if c &&& 0xf0 = 0xe0 then readTails 2 src (max - 1) 1 ((c &&& 0x0f).setWidth 32)
    else if c &&& 0xf8 = 0xf0 then readTails 3 src (max - 1) 1 ((c &&& 0x07).setWidth 32)
    else (skipTails src (max - 1) 1).map (·, 0xfffd)

theorem skipTails_le {src : List (BitVec 8)} {max : BitVec 64} {consumed n : Nat}
    (h : skipTails src max consumed = .ok n) : consumed ≤ n := by
  induction src generalizing max consumed with
  | nil =>
    rw [skipTails] at h
    split_ifs at h
    cases h
    exact le_rfl
  | cons b src ih =>
    rw [skipTails] at h
    split_ifs at h
    · cases h
      exact le_rfl
    · have hle := ih h
      omega
    · cases h
      exact le_rfl

theorem readTails_le {count : Nat} {src : List (BitVec 8)} {max : BitVec 64} {consumed : Nat}
    {dst : BitVec 32} {r : Nat × BitVec 32} (h : readTails count src max consumed dst = .ok r) :
    consumed ≤ r.1 := by
  induction count generalizing src max consumed dst with
  | zero =>
    cases h
    exact le_rfl
  | succ count ih =>
    unfold readTails at h
    split_ifs at h
    · cases h
      exact Nat.le_succ _
    · cases src with
      | nil => cases h
      | cons b src =>
        dsimp only at h
        split_ifs at h
        · cases h
          exact Nat.le_succ _
        · have hle := ih h
          omega

/-- At least one byte is consumed. -/
theorem lorieUtf8ToUCS4_pos {src : List (BitVec 8)} {max : BitVec 64} (hmax : max ≠ 0)
    {r : Nat × BitVec 32} (h : lorieUtf8ToUCS4 src max = .ok r) : 0 < r.1 := by
  cases src with
  | nil =>
    rw [lorieUtf8ToUCS4, if_neg hmax] at h
    cases h
  | cons c src =>
    rw [lorieUtf8ToUCS4, if_neg hmax] at h
    split_ifs at h
    · exact readTails_le h
    · exact readTails_le h
    · exact readTails_le h
    · exact readTails_le h
    · cases hskip : skipTails src (max - 1) 1 with
      | error e =>
        rw [hskip] at h
        cases h
      | ok n =>
        rw [hskip] at h
        cases h
        exact skipTails_le hskip

/-- Both loops of `lorieUtf8ToLatin1`: the characters up to the NUL. -/
def decodeLoop (src : List (BitVec 8)) (in_len : BitVec 64) : Except Fault (List (BitVec 32)) :=
  if _hlen : in_len = 0 then .ok []
  else
    match src with
    | [] => .error .outOfBounds
    | c :: rest =>
      if c = 0 then .ok []
      else
        match _h : lorieUtf8ToUCS4 (c :: rest) in_len with
        | .error e => .error e
        | .ok (len, ucs) =>
          (decodeLoop ((c :: rest).drop len) (in_len - BitVec.ofNat 64 len)).map (ucs :: ·)
termination_by src.length
decreasing_by
  have hpos := lorieUtf8ToUCS4_pos _hlen _h
  rw [List.length_drop]
  simp only [List.length_cons]
  omega

/-- The byte for a character. -/
def latin1Byte (ucs : BitVec 32) : BitVec 8 := if 0xff < ucs then 0x3f else ucs.setWidth 8

/-- The bytes before the first NUL. -/
def strdup (out : List (BitVec 8)) : Except Fault (List (BitVec 8)) :=
  if 0 ∈ out then .ok (text out) else .error .outOfBounds

def lorieUtf8ToLatin1 (src : List (BitVec 8)) : Except Fault (List (BitVec 8)) := do
  let sz := (← decodeLoop src (-1)).length
  let bytes := (← decodeLoop src 4294967295).map latin1Byte
  if sz + 1 < bytes.length then .error .outOfBounds
  else strdup (bytes ++ List.replicate (sz + 1 - bytes.length) 0)

/-- What `lorieLatin1ToUTF8` writes. -/
def lorieLatin1ToUTF8 : List (BitVec 8) → Except Fault (List (BitVec 8))
  | [] => .error .outOfBounds
  | c :: rest =>
    if c = 0 then .ok []
    else if c < 128 then (lorieLatin1ToUTF8 rest).map (c :: ·)
    else
      (lorieLatin1ToUTF8 rest).map fun out =>
        (0xc2 + if 0xbf < c then 1 else 0) :: ((c &&& 0x3f) + 0x80) :: out

/-! ## Sequences -/

/-- The continuation bytes that a lead byte announces. -/
def announced (b : BitVec 8) : Option Nat :=
  if b.toNat < 0x80 then some 0
  else if b.toNat < 0xC0 then none
  else if b.toNat < 0xE0 then some 1
  else if b.toNat < 0xF0 then some 2
  else if b.toNat < 0xF8 then some 3
  else none

/-- The bits of a lead byte. -/
def leadBits (b : BitVec 8) : Nat :=
  if b.toNat < 0x80 then b.toNat
  else if b.toNat < 0xE0 then b.toNat - 0xC0
  else if b.toNat < 0xF0 then b.toNat - 0xE0
  else b.toNat - 0xF0

def replacement : Nat := 0xfffd

/-- A surrogate is replaced. -/
def scalar (c : Nat) : Nat := if 0xd800 ≤ c ∧ c < 0xe000 then replacement else c

def value (acc : Nat) (tails : List (BitVec 8)) : Nat :=
  tails.foldl (fun acc b => acc * 0x40 + (b.toNat - 0x80)) acc

/-- The continuation bytes in front. -/
def tailsOf (l : List (BitVec 8)) : List (BitVec 8) := l.takeWhile (fun b => decide (IsTail b))

/-- The character in front and its length.  A byte that breaks a sequence off belongs to it.  Nothing is
in front if the end breaks it off. -/
def front : List (BitVec 8) → Option (Nat × Nat)
  | [] => none
  | b :: l =>
    match announced b with
    | none => some (replacement, 1 + (tailsOf l).length)
    | some n =>
      if n ≤ (tailsOf l).length then some (scalar (value (leadBits b) (l.take n)), 1 + n)
      else if (tailsOf l).length < l.length then some (replacement, 2 + (tailsOf l).length)
      else none

/-- The characters of a text. -/
inductive Decodes : List (BitVec 8) → List Nat → Prop
  | nil : Decodes [] []
  | cons {l : List (BitVec 8)} {v n : Nat} {cs : List Nat} :
    front l = some (v, n) → Decodes (l.drop n) cs → Decodes l (v :: cs)

/-- The end breaks the last sequence off. -/
inductive CutOff : List (BitVec 8) → Prop
  | last {b : BitVec 8} {l : List (BitVec 8)} : front (b :: l) = none → CutOff (b :: l)
  | later {l : List (BitVec 8)} {v n : Nat} : front l = some (v, n) → CutOff (l.drop n) → CutOff l

section Decoder

variable {l : List (BitVec 8)} {max : BitVec 64} {consumed : Nat}

theorem pred_toNat (h : 0 < max.toNat) : (max - 1).toNat = max.toNat - 1 := by
  rw [BitVec.toNat_sub]
  have hlt := max.isLt
  simp
  omega

theorem ne_zero_of_toNat (h : 0 < max.toNat) : max ≠ 0 := by
  rintro rfl
  exact absurd h (by decide)

theorem tailsOf_cons {b : BitVec 8} (hb : IsTail b) : tailsOf (b :: l) = b :: tailsOf l :=
  List.takeWhile_cons_of_pos (decide_eq_true hb)

theorem tailsOf_stop {b : BitVec 8} (hb : ¬IsTail b) : tailsOf (b :: l) = [] :=
  List.takeWhile_cons_of_neg (by rw [decide_eq_true_eq]; exact hb)

/-- All continuation bytes are skipped; the NUL is none. -/
theorem skipTails_eq (hmax : l.length ≤ max.toNat) :
    skipTails (l ++ [0]) max consumed = .ok (consumed + (tailsOf l).length) := by
  induction l generalizing max consumed with
  | nil =>
    rw [List.nil_append, skipTails]
    split_ifs
    · rfl
    · rename_i h
      exact absurd h (by decide)
    · rfl
  | cons b l ih =>
    rw [List.length_cons] at hmax
    rw [List.cons_append, skipTails, if_neg (ne_zero_of_toNat (by omega))]
    by_cases hb : IsTail b
    · have hmask : b &&& 0xc0 = 0x80 := by
        by_contra hne
        exact (tail_mask b).mp hne hb
      rw [if_pos hmask, ih (by rw [pred_toNat (by omega)]; omega), tailsOf_cons hb, List.length_cons]
      exact congrArg Except.ok (by omega)
    · rw [if_neg ((tail_mask b).mpr hb), tailsOf_stop hb]
      rfl

/-- One more continuation byte. -/
theorem shift_toNat {dst : BitVec 32} {b : BitVec 8} (hb : IsTail b) (hdst : dst.toNat < 2 ^ 26) :
    ((dst <<< 6) ||| (b &&& 0x3f).setWidth 32).toNat = dst.toNat * 0x40 + (b.toNat - 0x80) := by
  have hlow : ((b &&& 0x3f).setWidth 32).toNat = b.toNat - 0x80 := by
    revert b
    decide
  have hshift : (dst <<< 6).toNat = dst.toNat * 0x40 := by
    rw [BitVec.toNat_shiftLeft, Nat.shiftLeft_eq]
    omega
  have hlt := hb.2
  rw [BitVec.toNat_or, hlow, hshift]
  rw [Nat.mul_comm]
  exact (Nat.two_pow_add_eq_or_of_lt (i := 6) (by omega) dst.toNat).symm

/-- A character and the bytes it takes. -/
def result (r : Nat × BitVec 32) : Nat × Nat := (r.2.toNat, r.1)

theorem surrogate_toNat (dst : BitVec 32) :
    (if 0xd800 ≤ dst ∧ dst < 0xe000 then 0xfffd else dst).toNat = scalar dst.toNat := by
  have hiff : (0xd800 ≤ dst ∧ dst < 0xe000) ↔ 0xd800 ≤ dst.toNat ∧ dst.toNat < 0xe000 := Iff.rfl
  unfold scalar
  split_ifs with h h' h'
  · rfl
  · exact absurd (hiff.mp h) h'
  · exact absurd (hiff.mpr h') h
  · rfl

theorem value_cons (acc : Nat) (b : BitVec 8) (l : List (BitVec 8)) :
    value acc (b :: l) = value (acc * 0x40 + (b.toNat - 0x80)) l := by
  rw [value, List.foldl_cons, value]

/-- The loop reads the continuation bytes, or one byte more than there are. -/
theorem readTails_eq {count : Nat} {dst : BitVec 32} (hmax : l.length ≤ max.toNat)
    (hdst : dst.toNat < 2 ^ (26 - 6 * count)) (hcount : count ≤ 3) :
    (readTails count (l ++ [0]) max consumed dst).map result =
      .ok (if count ≤ (tailsOf l).length then
        (scalar (value dst.toNat (l.take count)), consumed + count)
      else (replacement, consumed + (tailsOf l).length + 1)) := by
  induction count generalizing l max consumed dst with
  | zero =>
    rw [if_pos (Nat.zero_le _), List.take_zero]
    exact congrArg (fun v => Except.ok (v, consumed)) (surrogate_toNat dst)
  | succ count ih =>
    cases l with
    | nil =>
      rw [if_neg (by simp [tailsOf])]
      unfold readTails
      split_ifs <;> rfl
    | cons b l =>
      rw [List.length_cons] at hmax
      rw [List.cons_append, readTails, if_neg (ne_zero_of_toNat (by omega))]
      by_cases hb : IsTail b
      · have hlt : dst.toNat < 2 ^ 26 :=
          hdst.trans_le (Nat.pow_le_pow_right (by decide) (by omega))
        have hshift := shift_toNat hb hlt
        have hstep : ((dst <<< 6) ||| (b &&& 0x3f).setWidth 32).toNat < 2 ^ (26 - 6 * count) := by
          have hpow : 2 ^ (26 - 6 * count) = 2 ^ (26 - 6 * (count + 1)) * 64 := by
            rw [show 26 - 6 * count = 26 - 6 * (count + 1) + 6 by omega, Nat.pow_add]
          have hhigh := hb.2
          omega
        rw [if_neg (by rw [tail_mask]; exact not_not_intro hb),
          ih (by rw [pred_toNat (by omega)]; omega) hstep (by omega), hshift, tailsOf_cons hb,
          List.length_cons, List.take_succ_cons]
        by_cases hcond : count ≤ (tailsOf l).length
        · rw [if_pos hcond, if_pos (by omega), Nat.add_assoc consumed 1 count, Nat.add_comm 1 count,
            value_cons]
        · rw [if_neg hcond, if_neg (by omega), Nat.add_right_comm consumed 1]
          rfl
      · rw [if_pos ((tail_mask b).mpr hb), tailsOf_stop hb, if_neg (by simp)]
        rfl

theorem lead_masks (c : BitVec 8) : (c &&& 0x80 = 0 ↔ c.toNat < 0x80) ∧
    (c &&& 0xe0 = 0xc0 ↔ 0xC0 ≤ c.toNat ∧ c.toNat < 0xE0) ∧
    (c &&& 0xf0 = 0xe0 ↔ 0xE0 ≤ c.toNat ∧ c.toNat < 0xF0) ∧
    (c &&& 0xf8 = 0xf0 ↔ 0xF0 ≤ c.toNat ∧ c.toNat < 0xF8) := by
  revert c
  decide

theorem lead_bits (c : BitVec 8) : (c.setWidth 32).toNat = c.toNat ∧
    (0xC0 ≤ c.toNat ∧ c.toNat < 0xE0 → ((c &&& 0x1f).setWidth 32).toNat = c.toNat - 0xC0) ∧
    (0xE0 ≤ c.toNat ∧ c.toNat < 0xF0 → ((c &&& 0x0f).setWidth 32).toNat = c.toNat - 0xE0) ∧
    (0xF0 ≤ c.toNat ∧ c.toNat < 0xF8 → ((c &&& 0x07).setWidth 32).toNat = c.toNat - 0xF0) := by
  revert c
  decide

/-- After the lead byte. -/
theorem readTails_lead {b : BitVec 8} {count : Nat} {dst : BitVec 32} (hmax : l.length < max.toNat)
    (hcount : announced b = some count) (hbits : dst.toNat = leadBits b) (hle : count ≤ 3)
    (hdst : dst.toNat < 2 ^ 8) :
    (readTails count (l ++ [0]) (max - 1) 1 dst).map result =
      .ok ((front (b :: l)).getD (replacement, l.length + 2)) := by
  have hlt : dst.toNat < 2 ^ (26 - 6 * count) :=
    hdst.trans_le (Nat.pow_le_pow_right (by decide) (by omega))
  have hle' : (tailsOf l).length ≤ l.length := (List.takeWhile_sublist _).length_le
  rw [readTails_eq (by rw [pred_toNat (by omega)]; omega) hlt hle, front, hcount, hbits]
  dsimp only
  split_ifs with hcond hless
  · rfl
  · rw [Option.getD_some, Nat.add_right_comm]
  · have hall : (tailsOf l).length = l.length := by omega
    rw [Option.getD_none, hall, Nat.add_right_comm, Nat.add_comm]

/-- The decoder takes the front of a text, and the NUL too if the end breaks that off. -/
theorem lorieUtf8ToUCS4_eq {b : BitVec 8} (hmax : l.length < max.toNat) :
    (lorieUtf8ToUCS4 (b :: l ++ [0]) max).map result =
      .ok ((front (b :: l)).getD (replacement, l.length + 2)) := by
  obtain ⟨hone, htwo, hthree, hfour⟩ := lead_masks b
  obtain ⟨hbits, hbits₂, hbits₃, hbits₄⟩ := lead_bits b
  have hb := b.isLt
  rw [List.cons_append, lorieUtf8ToUCS4, if_neg (ne_zero_of_toNat (by omega))]
  split_ifs with h₁ h₂ h₃ h₄
  · rw [hone] at h₁
    apply readTails_lead hmax _ _ (by omega) (by omega)
    · rw [announced, if_pos h₁]
    · rw [leadBits, if_pos h₁, hbits]
  · rw [hone] at h₁
    rw [htwo] at h₂
    apply readTails_lead hmax _ _ (by omega) (by rw [hbits₂ h₂]; omega)
    · rw [announced, if_neg h₁, if_neg (by omega), if_pos h₂.2]
    · rw [leadBits, if_neg h₁, if_pos h₂.2, hbits₂ h₂]
  · rw [hone] at h₁
    rw [htwo] at h₂
    rw [hthree] at h₃
    apply readTails_lead hmax _ _ (by omega) (by rw [hbits₃ h₃]; omega)
    · rw [announced, if_neg h₁, if_neg (by omega), if_neg (by omega), if_pos h₃.2]
    · rw [leadBits, if_neg h₁, if_neg (by omega), if_pos h₃.2, hbits₃ h₃]
  · rw [hone] at h₁
    rw [htwo] at h₂
    rw [hthree] at h₃
    rw [hfour] at h₄
    apply readTails_lead hmax _ _ (by omega) (by rw [hbits₄ h₄]; omega)
    · rw [announced, if_neg h₁, if_neg (by omega), if_neg (by omega), if_neg (by omega), if_pos h₄.2]
    · rw [leadBits, if_neg h₁, if_neg (by omega), if_neg (by omega), hbits₄ h₄]
  · rw [hone] at h₁
    rw [htwo] at h₂
    rw [hthree] at h₃
    rw [hfour] at h₄
    have hnone : announced b = none := by
      unfold announced
      split_ifs <;> first | rfl | omega
    rw [skipTails_eq (by rw [pred_toNat (by omega)]; omega), front, hnone]
    rfl

end Decoder

section Loop

variable {l : List (BitVec 8)} {in_len : BitVec 64} {v n : Nat} {cs : List Nat}

/-- The front is a part of the text. -/
theorem front_bounds (h : front l = some (v, n)) : 0 < n ∧ n ≤ l.length := by
  cases l with
  | nil => cases h
  | cons b l =>
    have hle : (tailsOf l).length ≤ l.length := (List.takeWhile_sublist _).length_le
    rw [front] at h
    rw [List.length_cons]
    split at h
    · cases h
      omega
    · split_ifs at h
      · cases h
        omega
      · cases h
        omega

theorem decodeLoop_step {c : BitVec 8} {rest : List (BitVec 8)} {len : Nat} {ucs : BitVec 32}
    (hin : in_len ≠ 0) (hc : c ≠ 0) (h : lorieUtf8ToUCS4 (c :: rest) in_len = .ok (len, ucs)) :
    decodeLoop (c :: rest) in_len =
      (decodeLoop ((c :: rest).drop len) (in_len - BitVec.ofNat 64 len)).map (ucs :: ·) := by
  rw [decodeLoop, dif_neg hin, if_neg hc]
  split
  · rename_i e heq
    rw [h] at heq
    cases heq
  · rename_i len' ucs' heq
    rw [h] at heq
    cases heq
    rfl

theorem sub_toNat (h : n ≤ in_len.toNat) : (in_len - BitVec.ofNat 64 n).toNat = in_len.toNat - n := by
  have hlt := in_len.isLt
  rw [BitVec.toNat_sub, BitVec.toNat_ofNat]
  omega

/-- A step takes the front of the text, or everything and the NUL. -/
theorem decodeLoop_front {b : BitVec 8} (hb : b ≠ 0) (hin : l.length < in_len.toNat) :
    ∃ ucs : BitVec 32, ∃ len, (ucs.toNat, len) = (front (b :: l)).getD (replacement, l.length + 2) ∧
      decodeLoop (b :: l ++ [0]) in_len =
        (decodeLoop ((b :: l ++ [0]).drop len) (in_len - BitVec.ofNat 64 len)).map (ucs :: ·) := by
  have h := lorieUtf8ToUCS4_eq (b := b) hin
  cases hread : lorieUtf8ToUCS4 (b :: l ++ [0]) in_len with
  | error e =>
    rw [hread] at h
    cases h
  | ok r =>
    rw [hread] at h
    exact ⟨r.2, r.1, Except.ok.inj h, decodeLoop_step (ne_zero_of_toNat (by omega)) hb hread⟩

theorem map_map_cons {r : Except Fault (List (BitVec 32))} {ucs : BitVec 32}
    (h : r.map (List.map BitVec.toNat) = .ok cs) :
    (r.map (ucs :: ·)).map (List.map BitVec.toNat) = .ok (ucs.toNat :: cs) := by
  cases r with
  | error e => cases h
  | ok us =>
    cases h
    rfl

/-- The loop finds the characters of the text, if the limit is not below its length. -/
theorem decodeLoop_decodes (h : Decodes l cs) (hnul : 0 ∉ l) (hin : l.length ≤ in_len.toNat) :
    (decodeLoop (l ++ [0]) in_len).map (List.map BitVec.toNat) = .ok cs := by
  induction h generalizing in_len with
  | nil =>
    rw [List.nil_append, decodeLoop]
    split_ifs with hzero hnul
    · rfl
    · rfl
    · exact absurd rfl hnul
  | @cons l v n cs hfront _ ih =>
    obtain ⟨hpos, hle⟩ := front_bounds hfront
    cases l with
    | nil => cases hfront
    | cons b l =>
      have hb : b ≠ 0 := fun h => hnul (by simp [h])
      have hlen : l.length < in_len.toNat := by
        rw [List.length_cons] at hin
        omega
      obtain ⟨ucs, len, hresult, hstep⟩ := decodeLoop_front hb hlen
      rw [hfront] at hresult
      cases hresult
      rw [hstep, List.drop_append_of_le_length hle]
      apply map_map_cons
      apply ih
      · exact fun hmem => hnul (List.mem_of_mem_drop hmem)
      · rw [sub_toNat (by omega), List.length_drop]
        omega

/-- The loop runs past the NUL if the end breaks a sequence off. -/
theorem decodeLoop_cutOff (h : CutOff l) (hnul : 0 ∉ l) (hin : l.length + 1 < in_len.toNat) :
    decodeLoop (l ++ [0]) in_len = .error .outOfBounds := by
  induction h generalizing in_len with
  | @last b l hfront =>
    have hb : b ≠ 0 := fun h => hnul (by simp [h])
    rw [List.length_cons] at hin
    obtain ⟨ucs, len, hresult, hstep⟩ := decodeLoop_front hb (by omega : l.length < in_len.toNat)
    rw [hfront] at hresult
    have hall : len = l.length + 2 := congrArg Prod.snd hresult
    rw [hall] at hstep
    have hdrop : (b :: l ++ [0]).drop (l.length + 2) = [] := by
      apply List.drop_eq_nil_of_le
      simp
    have hrest : in_len - BitVec.ofNat 64 (l.length + 2) ≠ 0 := by
      apply ne_zero_of_toNat
      rw [sub_toNat (by omega)]
      omega
    rw [hstep, hdrop, decodeLoop, dif_neg hrest]
    rfl
  | @later l v n hfront _ ih =>
    obtain ⟨hpos, hle⟩ := front_bounds hfront
    cases l with
    | nil => cases hfront
    | cons b l =>
      have hb : b ≠ 0 := fun h => hnul (by simp [h])
      have hlen : l.length < in_len.toNat := by
        rw [List.length_cons] at hin
        omega
      obtain ⟨ucs, len, hresult, hstep⟩ := decodeLoop_front hb hlen
      rw [hfront] at hresult
      cases hresult
      rw [hstep, List.drop_append_of_le_length hle, ih]
      · rfl
      · exact fun hmem => hnul (List.mem_of_mem_drop hmem)
      · rw [sub_toNat (by omega), List.length_drop]
        omega

theorem cutOff_or_decodes (l : List (BitVec 8)) : CutOff l ∨ ∃ cs, Decodes l cs := by
  induction hn : l.length using Nat.strong_induction_on generalizing l with
  | _ n ih =>
  cases l with
  | nil => exact .inr ⟨[], .nil⟩
  | cons b l =>
    cases hfront : front (b :: l) with
    | none => exact .inl (.last hfront)
    | some r =>
      obtain ⟨v, k⟩ := r
      obtain ⟨hpos, hle⟩ := front_bounds hfront
      have hless : ((b :: l).drop k).length < n := by
        rw [List.length_drop]
        omega
      rcases ih _ hless _ rfl with hcut | ⟨cs, hcs⟩
      · exact .inl (.later hfront hcut)
      · exact .inr ⟨v :: cs, .cons hfront hcs⟩

theorem Decodes.unique {cs' : List Nat} (h : Decodes l cs) (h' : Decodes l cs') : cs = cs' := by
  induction h generalizing cs' with
  | nil =>
    cases h' with
    | nil => rfl
    | cons hfront => cases hfront
  | cons hfront _ ih =>
    cases h' with
    | nil => cases hfront
    | cons hfront' hrest =>
      cases hfront.symm.trans hfront'
      rw [ih hrest]

end Loop

section Conversion

variable {s t : List (BitVec 8)} {cs : List Nat}

def latin1Of (c : Nat) : Nat := if 0xff < c then 0x3f else c

theorem latin1Byte_toNat (ucs : BitVec 32) : (latin1Byte ucs).toNat = latin1Of ucs.toNat := by
  have hiff : 0xff < ucs ↔ 0xff < ucs.toNat := Iff.rfl
  unfold latin1Byte latin1Of
  split_ifs with h h' h'
  · rfl
  · exact absurd (hiff.mp h) h'
  · exact absurd (hiff.mpr h') h
  · rw [BitVec.toNat_setWidth]
    omega

theorem latin1Of_eq_zero {c : Nat} (h : latin1Of c = 0) : c = 0 := by
  unfold latin1Of at h
  split_ifs at h
  exact h

/-- No byte behind the NUL is read, and each character of the text gives one byte. -/
def ConvertsText (s : List (BitVec 8)) : Prop :=
  ∃ cs out, Decodes s cs ∧ lorieUtf8ToLatin1 (s ++ [0]) = .ok out ∧
    out.map BitVec.toNat = cs.map latin1Of

/-- The end breaks no sequence off, and no sequence is a long form of the NUL. -/
structure Convertible (s : List (BitVec 8)) : Prop where
  whole : ¬CutOff s
  noNul : ∀ cs, Decodes s cs → 0 ∉ cs

theorem text_append_nul (h : 0 ∉ s) (z : Nat) : text (s ++ List.replicate z 0) = s := by
  have hnil : text (List.replicate z 0) = [] := by
    cases z with
    | zero => rfl
    | succ z => rfl
  rw [text, List.takeWhile_append_of_pos, ← text, hnil, List.append_nil]
  intro b hb
  apply decide_eq_true
  rintro rfl
  exact h hb

theorem exists_of_map {r : Except Fault (List (BitVec 32))}
    (h : r.map (List.map BitVec.toNat) = .ok cs) :
    ∃ us, r = .ok us ∧ us.map BitVec.toNat = cs := by
  cases r with
  | error e => cases h
  | ok us => exact ⟨us, rfl, Except.ok.inj h⟩

/-- A text that is decoded is converted up to its first character 0. -/
theorem lorieUtf8ToLatin1_decodes (h : Decodes s cs) (hnul : 0 ∉ s) (hlen : s.length ≤ 4294967295) :
    ∃ bytes : List (BitVec 8), bytes.map BitVec.toNat = cs.map latin1Of ∧
      lorieUtf8ToLatin1 (s ++ [0]) = .ok (text (bytes ++ [0])) := by
  have hall : s.length ≤ (-1 : BitVec 64).toNat := hlen.trans (by decide)
  obtain ⟨us, hus, husmap⟩ := exists_of_map (decodeLoop_decodes h hnul hall)
  obtain ⟨us', hus', husmap'⟩ := exists_of_map
    (decodeLoop_decodes h hnul (show s.length ≤ (4294967295 : BitVec 64).toNat from hlen))
  have heq : us' = us := by
    apply List.map_injective_iff.mpr (fun a b => BitVec.eq_of_toNat_eq)
    rw [husmap, husmap']
  refine ⟨us.map latin1Byte, ?_, ?_⟩
  · rw [← husmap, List.map_map, List.map_map]
    exact List.map_congr_left fun ucs _ => latin1Byte_toNat ucs
  · simp only [lorieUtf8ToLatin1, hus, hus', heq, bind, Except.bind, List.length_map]
    rw [if_neg (by omega), Nat.add_sub_cancel_left]
    exact if_pos (by simp)

theorem convertsText_iff (hnul : 0 ∉ s) (hlen : s.length ≤ 4294967295) :
    ConvertsText s ↔ Convertible s := by
  constructor
  · rintro ⟨cs, out, hcs, hout, hmap⟩
    constructor
    -- A sequence that the end breaks off steps over the NUL, and the next read is out of bounds.
    · intro hcut
      have hall : s.length + 1 < (-1 : BitVec 64).toNat := by
        have hmax : (-1 : BitVec 64).toNat = 18446744073709551615 := by decide
        omega
      have hfault : lorieUtf8ToLatin1 (s ++ [0]) = .error .outOfBounds := by
        rw [lorieUtf8ToLatin1, decodeLoop_cutOff hcut hnul hall]
        rfl
      cases hfault.symm.trans hout
    · intro cs' hcs' hzero
      rw [← hcs.unique hcs'] at hzero
      obtain ⟨bytes, -, hbytes⟩ := lorieUtf8ToLatin1_decodes hcs hnul hlen
      have hzero' : 0 ∈ out.map BitVec.toNat := by
        rw [hmap]
        exact List.mem_map.mpr ⟨0, hzero, rfl⟩
      obtain ⟨b, hb, hbzero⟩ := List.mem_map.mp hzero'
      have hb0 : b = 0 := BitVec.eq_of_toNat_eq hbzero
      rw [hb0] at hb
      have htext : out = text (bytes ++ [0]) := Except.ok.inj (hout.symm.trans hbytes)
      rw [htext] at hb
      exact not_mem_text _ hb
  · intro h
    obtain hcut | ⟨cs, hcs⟩ := cutOff_or_decodes s
    · exact absurd hcut h.whole
    · obtain ⟨bytes, hmap, hout⟩ := lorieUtf8ToLatin1_decodes hcs hnul hlen
      have hbytes : 0 ∉ bytes := by
        intro hzero
        have hmem : 0 ∈ cs.map latin1Of := by
          rw [← hmap]
          exact List.mem_map.mpr ⟨0, hzero, rfl⟩
        obtain ⟨c, hc, hlatin⟩ := List.mem_map.mp hmem
        rw [latin1Of_eq_zero hlatin] at hc
        exact h.noNul cs hcs hc
      have htext : text (bytes ++ [0]) = bytes := text_append_nul hbytes 1
      rw [htext] at hout
      exact ⟨cs, bytes, hcs, hout, hmap⟩

def utf8Lead (c : BitVec 8) : BitVec 8 := 0xc2 + if 0xbf < c then 1 else 0

def utf8Tail (c : BitVec 8) : BitVec 8 := (c &&& 0x3f) + 0x80

/-- The bytes for one character of Latin-1. -/
def utf8Of (c : BitVec 8) : List (BitVec 8) := if c < 128 then [c] else [utf8Lead c, utf8Tail c]

theorem lorieLatin1ToUTF8_eq (ht : 0 ∉ t) : lorieLatin1ToUTF8 (t ++ [0]) = .ok (t.flatMap utf8Of) := by
  induction t with
  | nil => rfl
  | cons c t ih =>
    have hc : c ≠ 0 := fun h => ht (by simp [h])
    rw [List.cons_append, lorieLatin1ToUTF8, if_neg hc, ih fun h => ht (List.mem_cons_of_mem c h),
      List.flatMap_cons, utf8Of]
    by_cases hlow : c < 128
    · rw [if_pos hlow, if_pos hlow]
      rfl
    · rw [if_neg hlow, if_neg hlow]
      rfl

theorem utf8Of_length_le (t : List (BitVec 8)) : (t.flatMap utf8Of).length ≤ 2 * t.length := by
  induction t with
  | nil => exact le_rfl
  | cons c t ih =>
    have hc : (utf8Of c).length ≤ 2 := by
      unfold utf8Of
      split_ifs <;> simp
    rw [List.flatMap_cons, List.length_append, List.length_cons]
    omega

theorem utf8Of_ne_nul : ∀ c : BitVec 8, c ≠ 0 → 0 ∉ utf8Of c := by decide

theorem not_mem_utf8 (ht : 0 ∉ t) : 0 ∉ t.flatMap utf8Of := by
  intro h
  obtain ⟨c, hc, hmem⟩ := List.mem_flatMap.mp h
  exact utf8Of_ne_nul c (by rintro rfl; exact ht hc) hmem

/-- The two bytes for a character from 128 on. -/
theorem utf8Of_high : ∀ c : BitVec 8, ¬c < 128 → announced (utf8Lead c) = some 1 ∧
    IsTail (utf8Tail c) ∧ leadBits (utf8Lead c) * 0x40 + ((utf8Tail c).toNat - 0x80) = c.toNat := by
  decide

theorem front_utf8Of (c : BitVec 8) (rest : List (BitVec 8)) :
    front (utf8Of c ++ rest) = some (c.toNat, (utf8Of c).length) := by
  have hlt := c.isLt
  by_cases hc : c < 128
  · have hlow : c.toNat < 0x80 := hc
    rw [utf8Of, if_pos hc, List.singleton_append, front, announced, if_pos hlow]
    dsimp only
    rw [if_pos (Nat.zero_le _), List.take_zero, leadBits, if_pos hlow, value, List.foldl_nil, scalar,
      if_neg (by omega)]
    rfl
  · obtain ⟨hannounced, htail, hvalue⟩ := utf8Of_high c hc
    rw [utf8Of, if_neg hc, List.cons_append, List.cons_append, List.nil_append, front, hannounced]
    dsimp only
    rw [tailsOf_cons htail, if_pos (by simp), List.take_succ_cons, List.take_zero, value_cons, hvalue,
      value, List.foldl_nil, scalar, if_neg (by omega)]
    rfl

theorem decodes_utf8 (t : List (BitVec 8)) : Decodes (t.flatMap utf8Of) (t.map BitVec.toNat) := by
  induction t with
  | nil => exact .nil
  | cons c t ih =>
    rw [List.flatMap_cons, List.map_cons]
    apply Decodes.cons (front_utf8Of c _)
    rw [List.drop_left]
    exact ih

/-- The way back, within the limit of the second loop. -/
theorem lorieUtf8ToLatin1_utf8 (ht : 0 ∉ t) (hlen : (t.flatMap utf8Of).length ≤ 4294967295) :
    lorieUtf8ToLatin1 (t.flatMap utf8Of ++ [0]) = .ok t := by
  obtain ⟨bytes, hmap, hout⟩ := lorieUtf8ToLatin1_decodes (decodes_utf8 t) (not_mem_utf8 ht) hlen
  have hbytes : bytes = t := by
    apply List.map_injective_iff.mpr (fun a b => BitVec.eq_of_toNat_eq)
    rw [hmap, List.map_map]
    apply List.map_congr_left
    intro c _
    have hlt := c.isLt
    exact if_neg (by omega)
  have htext : text (t ++ [0]) = t := text_append_nul ht 1
  rw [hout, hbytes, htext]

/-- A character below 128 within any limit. -/
theorem lorieUtf8ToUCS4_low {c : BitVec 8} {rest : List (BitVec 8)} {in_len : BitVec 64} (hc : c < 128)
    (hin : in_len ≠ 0) : lorieUtf8ToUCS4 (c :: rest) in_len = .ok (1, c.setWidth 32) := by
  have hmasks : ∀ c : BitVec 8, c < 128 → c &&& 0x80 = 0 ∧
      ¬(0xd800 ≤ c.setWidth 32 ∧ c.setWidth 32 < 0xe000) := by decide
  obtain ⟨hlow, hsurrogate⟩ := hmasks c hc
  rw [lorieUtf8ToUCS4, if_neg hin, if_pos hlow, readTails, if_neg hsurrogate]

/-- The limit may be between the two bytes of a character from 128 on. -/
theorem lorieUtf8ToUCS4_high {c : BitVec 8} {rest : List (BitVec 8)} {in_len : BitVec 64}
    (hc : ¬c < 128) (hin : in_len ≠ 0) :
    lorieUtf8ToUCS4 (utf8Lead c :: utf8Tail c :: rest) in_len =
      .ok (2, if in_len - 1 = 0 then 0xfffd else c.setWidth 32) := by
  have hmasks : ∀ c : BitVec 8, ¬c < 128 → utf8Lead c &&& 0x80 ≠ 0 ∧ utf8Lead c &&& 0xe0 = 0xc0 ∧
      ¬(utf8Tail c &&& 0xc0 ≠ 0x80) ∧
      (((utf8Lead c &&& 0x1f).setWidth 32 : BitVec 32) <<< 6 |||
        (utf8Tail c &&& 0x3f).setWidth 32) = c.setWidth 32 ∧
      ¬(0xd800 ≤ c.setWidth 32 ∧ c.setWidth 32 < 0xe000) := by decide
  obtain ⟨hlead, htwo, htail, hvalue, hsurrogate⟩ := hmasks c hc
  rw [lorieUtf8ToUCS4, if_neg hin, if_neg hlead, if_pos htwo, readTails]
  split_ifs with hone
  · rfl
  · rw [readTails, hvalue, if_neg hsurrogate]

theorem ok_of_map {r : Except Fault (List (BitVec 32))} {ucs : BitVec 32} {us : List (BitVec 32)}
    (h : r.map (ucs :: ·) = .ok us) : ∃ us', r = .ok us' ∧ us = ucs :: us' := by
  cases r with
  | error e => cases h
  | ok us' =>
    cases h
    exact ⟨us', rfl, rfl⟩

theorem decodeLoop_zero (src : List (BitVec 8)) : decodeLoop src 0 = .ok [] := by
  unfold decodeLoop
  rfl

theorem text_cons {c : BitVec 8} (hc : c ≠ 0) (s : List (BitVec 8)) : text (c :: s) = c :: text s :=
  List.takeWhile_cons_of_pos (decide_eq_true hc)

theorem latin1Byte_setWidth (c : BitVec 8) : latin1Byte (c.setWidth 32) = c := by
  revert c
  decide

/-- What a loop finds within a limit below the length of the bytes is not the text they came from. -/
theorem decodeLoop_short {in_len : BitVec 64} {us : List (BitVec 32)} (ht : 0 ∉ t)
    (hin : in_len.toNat < (t.flatMap utf8Of).length)
    (h : decodeLoop (t.flatMap utf8Of ++ [0]) in_len = .ok us) (z : Nat) :
    text (us.map latin1Byte ++ List.replicate z 0) ≠ t := by
  -- The limit runs out inside the text, so one character at least is lost or becomes a question mark.
  induction t generalizing in_len us with
  | nil => exact absurd hin (Nat.not_lt_zero _)
  | cons c t ih =>
    have hc : c ≠ 0 := fun h => ht (by simp [h])
    have ht' : 0 ∉ t := fun h => ht (List.mem_cons_of_mem c h)
    by_cases hzero : in_len = 0
    · rw [hzero, decodeLoop_zero] at h
      cases h
      rw [List.map_nil, text_append_nul List.not_mem_nil]
      exact (List.cons_ne_nil c t).symm
    · have hpos : 0 < in_len.toNat := by
        by_contra hle
        exact hzero (BitVec.eq_of_toNat_eq (by simp; omega))
      rw [List.flatMap_cons, List.length_append] at hin
      rw [List.flatMap_cons, utf8Of] at h
      by_cases hlow : c < 128
      · rw [utf8Of, if_pos hlow, List.length_singleton] at hin
        rw [if_pos hlow, List.singleton_append, List.cons_append,
          decodeLoop_step hzero hc (lorieUtf8ToUCS4_low hlow hzero)] at h
        obtain ⟨us', hus', rfl⟩ := ok_of_map h
        have hne := ih ht' (by rw [sub_toNat (by omega)]; omega) hus'
        rw [List.map_cons, latin1Byte_setWidth, List.cons_append, text_cons hc]
        exact fun heq => hne (List.cons.inj heq).2
      · rw [utf8Of, if_neg hlow] at hin
        have hlead : utf8Lead c ≠ 0 := by
          intro hnul
          have hmem := utf8Of_ne_nul c hc
          rw [utf8Of, if_neg hlow, hnul] at hmem
          simp at hmem
        rw [if_neg hlow, List.cons_append, List.cons_append, List.cons_append, List.cons_append,
          decodeLoop_step hzero hlead (lorieUtf8ToUCS4_high hlow hzero)] at h
        obtain ⟨us', hus', rfl⟩ := ok_of_map h
        -- One byte of the two is within the limit: the lead byte alone is no character.
        by_cases hone : in_len - 1 = 0
        · have hmark : latin1Byte 0xfffd = 0x3f := by decide
          have hne : c ≠ 0x3f := by
            rintro rfl
            exact hlow (by decide)
          rw [if_pos hone, List.map_cons, hmark, List.cons_append, text_cons (by decide)]
          exact fun heq => hne (List.cons.inj heq).1.symm
        · have htwo : 2 ≤ in_len.toNat := by
            by_contra hle
            apply hone
            apply BitVec.eq_of_toNat_eq
            rw [pred_toNat hpos]
            simp
            omega
          have hne := ih ht' (by
            rw [sub_toNat htwo]
            simp only [List.length_cons, List.length_nil] at hin
            omega) hus'
          rw [if_neg hone, List.map_cons, latin1Byte_setWidth, List.cons_append, text_cons hc]
          exact fun heq => hne (List.cons.inj heq).2

/-- The way there and back, exactly within the limit of the second loop. -/
theorem roundTrip_iff (ht : 0 ∉ t) :
    lorieUtf8ToLatin1 (t.flatMap utf8Of ++ [0]) = .ok t ↔ (t.flatMap utf8Of).length ≤ 4294967295 := by
  constructor
  · intro h
    by_contra hlen
    have hlong : (4294967295 : BitVec 64).toNat < (t.flatMap utf8Of).length := by
      have hlimit : (4294967295 : BitVec 64).toNat = 4294967295 := rfl
      omega
    unfold lorieUtf8ToLatin1 at h
    cases hall : decodeLoop (t.flatMap utf8Of ++ [0]) (-1) with
    | error e =>
      rw [hall] at h
      cases h
    | ok all =>
      cases hus : decodeLoop (t.flatMap utf8Of ++ [0]) 4294967295 with
      | error e =>
        rw [hall, hus] at h
        cases h
      | ok us =>
        simp only [hall, hus, bind, Except.bind, strdup] at h
        split_ifs at h
        exact decodeLoop_short ht hlong hus _ (Except.ok.inj h)
  · exact lorieUtf8ToLatin1_utf8 ht

/-- A string is converted if its end breaks no sequence off and no sequence is a long NUL; Latin-1 grows
to no more than twice its length, and comes back if the second loop has room for it. -/
theorem textConversion_iff (s t : List (BitVec 8)) (hs : 0 ∉ s) (hlen : s.length ≤ 4294967295)
    (ht : 0 ∉ t) :
    (ConvertsText s ↔ Convertible s) ∧
      ∃ u, lorieLatin1ToUTF8 (t ++ [0]) = .ok u ∧ u.length ≤ 2 * t.length ∧
        (lorieUtf8ToLatin1 (u ++ [0]) = .ok t ↔ u.length ≤ 4294967295) :=
  ⟨convertsText_iff hs hlen, _, lorieLatin1ToUTF8_eq ht, utf8Of_length_le t, roundTrip_iff ht⟩

theorem convertible_letter : Convertible [0x61] := by
  have hfront : front [0x61] = some (0x61, 1) := by decide
  constructor
  · intro h
    cases h with
    | last hnone => exact absurd (hfront.symm.trans hnone) (by simp)
    | later hsome hcut =>
      cases hfront.symm.trans hsome
      cases hcut with
      | later hsome => cases hsome
  · intro cs h
    rw [h.unique (decodes_utf8 [0x61])]
    decide

theorem textConversion_iff_letter : ConvertsText [0x61] ∧
    ∃ u, lorieLatin1ToUTF8 [0xE9, 0] = .ok u ∧ u.length ≤ 2 ∧ lorieUtf8ToLatin1 (u ++ [0]) = .ok [0xE9] := by
  obtain ⟨hiff, u, hu, hlen, hback⟩ := textConversion_iff [0x61] [0xE9] (by decide) (by decide) (by decide)
  have hgrown : u.length ≤ 2 := hlen
  exact ⟨hiff.mpr convertible_letter, u, hu, hgrown, hback.mpr (by omega)⟩

/-- A lead byte in front of the NUL, and a long form of the NUL. -/
theorem lead_byte_and_long_nul : ¬ConvertsText [0xC3] ∧ ¬ConvertsText [0xC0, 0x80] := by
  constructor
  · intro h
    exact ((convertsText_iff (by decide) (by decide)).mp h).whole (.last (by decide))
  · intro h
    have hdecodes : Decodes [0xC0, 0x80] [0] :=
      .cons (show front [0xC0, 0x80] = some (0, 2) by decide) .nil
    exact ((convertsText_iff (by decide) (by decide)).mp h).noNul _ hdecodes (by decide)

end Conversion

end LorieClipboard

end XoDos
