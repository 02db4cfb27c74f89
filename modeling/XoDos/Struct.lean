import Mathlib.Tactic

/-!
# Images of C structures

A structure in memory is a function from offsets to bytes.  A field of `n`
bytes at `offset` is little-endian.  What is written to a field is read back
from it, and fields that do not overlap do not disturb each other.
-/

namespace XoDos

/-- The bytes of a structure, by offset. -/
def Image : Type := Nat → BitVec 8

namespace Image

/-- Memory as `calloc` and `= {0}` leave it. -/
def zero : Image := fun _ => 0

/-- The number in the `n` bytes from `offset` on. -/
def getNat (m : Image) : Nat → Nat → Nat
  | _, 0 => 0
  | offset, n + 1 => (m offset).toNat + 2 ^ 8 * m.getNat (offset + 1) n

def get (m : Image) (offset n : Nat) : BitVec (8 * n) := BitVec.ofNat (8 * n) (m.getNat offset n)

def put (m : Image) (offset n : Nat) (v : BitVec (8 * n)) : Image := fun i =>
  if offset ≤ i ∧ i < offset + n then BitVec.ofNat 8 (v.toNat / 2 ^ (8 * (i - offset))) else m i

theorem getNat_congr {m m' : Image} :
    ∀ {n offset : Nat}, (∀ i, offset ≤ i → i < offset + n → m i = m' i) →
      m.getNat offset n = m'.getNat offset n
  | 0, _, _ => rfl
  | n + 1, offset, h => by
    have hrest : m.getNat (offset + 1) n = m'.getNat (offset + 1) n :=
      getNat_congr fun i hi hin => h i (by omega) (by omega)
    simp only [getNat, h offset (le_refl _) (by omega), hrest]

theorem getNat_of_bytes {m : Image} :
    ∀ {n offset v : Nat}, (∀ i < n, m (offset + i) = BitVec.ofNat 8 (v / 2 ^ (8 * i))) →
      m.getNat offset n = v % 2 ^ (8 * n)
  | 0, _, v, _ => by simp [getNat, Nat.mod_one]
  | n + 1, offset, v, h => by
    have hfirst := h 0 (by omega)
    have hrest : m.getNat (offset + 1) n = v / 2 ^ 8 % 2 ^ (8 * n) := by
      apply getNat_of_bytes
      intro i hi
      rw [show offset + 1 + i = offset + (i + 1) by ring, h (i + 1) (by omega), Nat.div_div_eq_div_mul,
        ← pow_add, show 8 + 8 * i = 8 * (i + 1) by ring]
    simp only [Nat.add_zero, Nat.mul_zero, pow_zero, Nat.div_one] at hfirst
    rw [getNat, hfirst, hrest, BitVec.toNat_ofNat, show 8 * (n + 1) = 8 + 8 * n by ring, pow_add,
      Nat.mod_mul]

@[simp] theorem get_put_same (m : Image) (offset n : Nat) (v : BitVec (8 * n)) :
    (m.put offset n v).get offset n = v := by
  have hbytes : (m.put offset n v).getNat offset n = v.toNat % 2 ^ (8 * n) := by
    apply getNat_of_bytes
    intro i hi
    simp [put, hi]
  simp [get, hbytes]

theorem get_put_disjoint (m : Image) {offset n offset' n' : Nat} (v : BitVec (8 * n'))
    (h : offset + n ≤ offset' ∨ offset' + n' ≤ offset) :
    (m.put offset' n' v).get offset n = m.get offset n := by
  rw [get, get, getNat_congr]
  intro i hi hin
  rw [put, if_neg (by omega)]

/-- The first `size` bytes, as `write` takes them. -/
def bytes (m : Image) (size : Nat) : List (BitVec 8) := (List.range size).map fun i => m i

/-- The structure that `read` leaves in zeroed memory. -/
def ofBytes (bytes : List (BitVec 8)) : Image := fun i => bytes.getD i 0

@[simp] theorem length_bytes (m : Image) (size : Nat) : (m.bytes size).length = size := by
  simp [bytes]

theorem get_ofBytes (m : Image) {size offset n : Nat} (h : offset + n ≤ size) :
    (ofBytes (m.bytes size)).get offset n = m.get offset n := by
  rw [get, get, getNat_congr]
  intro i hi hin
  have hsize : i < size := by omega
  simp [ofBytes, bytes, List.getD, hsize]

end Image

end XoDos
