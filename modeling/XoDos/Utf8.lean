import Mathlib.Tactic

/-!
# UTF-8

The encoding of code points, and the decoder that takes the first code point
off a list of bytes.  It accepts the shortest encoding of a scalar value only.
A byte is its value.
-/

namespace XoDos.Utf8

/-- A code point that is not a surrogate. -/
def IsScalar (c : Nat) : Prop := c < 0xD800 ∨ (0xDFFF < c ∧ c ≤ 0x10FFFF)

instance (c : Nat) : Decidable (IsScalar c) := inferInstanceAs (Decidable (_ ∨ _))

def encode (c : Nat) : List Nat :=
  if c < 0x80 then [c]
  else if c < 0x800 then [0xC0 + c / 0x40, 0x80 + c % 0x40]
  else if c < 0x10000 then [0xE0 + c / 0x1000, 0x80 + c / 0x40 % 0x40, 0x80 + c % 0x40]
  else [0xF0 + c / 0x40000, 0x80 + c / 0x1000 % 0x40, 0x80 + c / 0x40 % 0x40, 0x80 + c % 0x40]

/-- Adds the bits of `n` continuation bytes. -/
def continuations : Nat → Nat → List Nat → Option (Nat × List Nat)
  | 0, acc, bytes => some (acc, bytes)
  | _ + 1, _, [] => none
  | n + 1, acc, b :: bytes =>
    if 0x80 ≤ b ∧ b < 0xC0 then continuations n (acc * 0x40 + (b - 0x80)) bytes else none

/-- A scalar value that is not encoded longer than it has to be. -/
def checked (least : Nat) (result : Option (Nat × List Nat)) : Option (Nat × List Nat) :=
  result.filter (fun r => least ≤ r.1 ∧ IsScalar r.1)

/-- The first code point, and the bytes after it. -/
def decode : List Nat → Option (Nat × List Nat)
  | [] => none
  | b :: bytes =>
    if b < 0x80 then some (b, bytes)
    else if 0xC0 ≤ b ∧ b < 0xE0 then checked 0x80 (continuations 1 (b - 0xC0) bytes)
    else if 0xE0 ≤ b ∧ b < 0xF0 then checked 0x800 (continuations 2 (b - 0xE0) bytes)
    else if 0xF0 ≤ b ∧ b < 0xF8 then checked 0x10000 (continuations 3 (b - 0xF0) bytes)
    else none

variable {c least : Nat} {rest : List Nat}

theorem continuations_tail (n acc x : Nat) :
    continuations (n + 1) acc ((0x80 + x % 0x40) :: rest) =
      continuations n (acc * 0x40 + x % 0x40) rest := by
  have hx := Nat.mod_lt x (by decide : 0 < 0x40)
  rw [continuations, if_pos (by omega), Nat.add_sub_cancel_left]

theorem checked_some (hleast : least ≤ c) (hc : IsScalar c) :
    checked least (some (c, rest)) = some (c, rest) := by
  simp [checked, hleast, hc]

/-- What is encoded is decoded. -/
theorem decode_encode (hc : IsScalar c) (rest : List Nat) :
    decode (encode c ++ rest) = some (c, rest) := by
  have hmax : c ≤ 0x10FFFF := by
    unfold IsScalar at hc
    omega
  unfold encode
  split_ifs with h1 h2 h3
  · simp [decode, h1]
  · simp only [List.cons_append, List.nil_append, decode]
    rw [if_neg (by omega), if_pos (by omega), continuations_tail, continuations,
      Nat.add_sub_cancel_left, Nat.div_add_mod', checked_some (by omega) hc]
  · simp only [List.cons_append, List.nil_append, decode]
    rw [if_neg (by omega), if_neg (by omega), if_pos (by omega), continuations_tail,
      continuations_tail, continuations, Nat.add_sub_cancel_left]
    have hvalue : (c / 0x1000 * 0x40 + c / 0x40 % 0x40) * 0x40 + c % 0x40 = c := by omega
    rw [hvalue, checked_some (by omega) hc]
  · simp only [List.cons_append, List.nil_append, decode]
    rw [if_neg (by omega), if_neg (by omega), if_neg (by omega), if_pos (by omega),
      continuations_tail, continuations_tail, continuations_tail, continuations,
      Nat.add_sub_cancel_left]
    have hvalue : ((c / 0x40000 * 0x40 + c / 0x1000 % 0x40) * 0x40 + c / 0x40 % 0x40) * 0x40 +
        c % 0x40 = c := by omega
    rw [hvalue, checked_some (by omega) hc]

theorem encode_ne_nil (c : Nat) : encode c ≠ [] := by
  unfold encode
  split_ifs <;> simp

/-- Only the code point 0 is encoded with a byte 0 in front. -/
theorem encode_head (hc : c ≠ 0) : ∃ b bytes, encode c = b :: bytes ∧ b ≠ 0 := by
  unfold encode
  split_ifs
  · exact ⟨_, _, rfl, hc⟩
  · exact ⟨_, _, rfl, by omega⟩
  · exact ⟨_, _, rfl, by omega⟩
  · exact ⟨_, _, rfl, by omega⟩

end XoDos.Utf8
