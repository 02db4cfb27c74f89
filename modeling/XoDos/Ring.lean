import Mathlib.Tactic

/-!
# Circular buffers

The contents of an array that is used in a circle: `stored` elements from index
`head` on.  The three lemmas say what happens to them when a run of elements is
written behind the last one, read at the front, or dropped from the front.

Then positions on a circle of `n` slots, numbered by all integers, and blocks of
slots whose elements move by one position.
-/

namespace XoDos.Ring

variable {α : Type} {buf : List α} {head stored : Nat}

/-- The `stored` elements from `head` on, around the end of the array. -/
def contents (buf : List α) (head stored : Nat) : List α := (buf.rotate head).take stored

theorem contents_length (h : stored ≤ buf.length) : (contents buf head stored).length = stored := by
  simp [contents, h]

@[simp] theorem contents_zero : contents buf head 0 = [] := by simp [contents]

theorem contents_getElem? {i : Nat} (hi : i < stored) (h : stored ≤ buf.length) :
    (contents buf head stored)[i]? = buf[(i + head) % buf.length]? := by
  have hlt : i < (buf.rotate head).length := by
    rw [List.length_rotate]
    omega
  have hmod : (i + head) % buf.length < buf.length := Nat.mod_lt _ (by omega)
  rw [contents, List.getElem?_take_of_lt hi, List.getElem?_eq_getElem hlt, List.getElem_rotate,
    List.getElem?_eq_getElem hmod]

/-- The position `i` places behind `head`, which lies before the end or wraps around once. -/
theorem position {i n : Nat} (hi : i < n) (hh : head < n) :
    (i + head) % n = if i + head < n then i + head else i + head - n := by
  split_ifs with h
  · exact Nat.mod_eq_of_lt h
  · rw [Nat.mod_eq_sub_mod (by omega), Nat.mod_eq_of_lt (by omega)]

theorem getElem?_overwrite {run : List α} {tail : Nat} (h : tail + run.length ≤ buf.length)
    (p : Nat) :
    (buf.take tail ++ run ++ buf.drop (tail + run.length))[p]? =
      if tail ≤ p ∧ p < tail + run.length then run[p - tail]? else buf[p]? := by
  have hlen : (buf.take tail).length = tail := by
    rw [List.length_take]
    omega
  by_cases h₁ : p < tail
  · rw [if_neg (by omega), List.append_assoc, List.getElem?_append_left (by omega),
      List.getElem?_take_of_lt h₁]
  · by_cases h₂ : p < tail + run.length
    · rw [if_pos (by omega), List.append_assoc, List.getElem?_append_right (by omega), hlen,
        List.getElem?_append_left (by omega)]
    · rw [if_neg (by omega), List.getElem?_append_right (by rw [List.length_append]; omega),
        List.getElem?_drop, List.length_append, hlen]
      congr 1
      omega

/-- A run of elements behind the last one is appended to the contents. -/
theorem contents_write {run : List α} {tail : Nat} (hh : head < buf.length)
    (hs : stored + run.length ≤ buf.length) (hpos : stored < buf.length)
    (ht : tail = if stored + head < buf.length then stored + head else stored + head - buf.length)
    (hrun : tail + run.length ≤ buf.length) :
    contents (buf.take tail ++ run ++ buf.drop (tail + run.length)) head (stored + run.length) =
      contents buf head stored ++ run := by
  have hlen : (buf.take tail ++ run ++ buf.drop (tail + run.length)).length = buf.length := by
    simp
    omega
  have hold : (contents buf head stored).length = stored := contents_length (by omega)
  apply List.ext_getElem?
  intro i
  by_cases hi : i < stored + run.length
  swap
  · rw [List.getElem?_eq_none, List.getElem?_eq_none]
    · rw [List.length_append, hold]
      omega
    · rw [contents_length (by omega)]
      omega
  have hpi := position (i := i) (by omega) hh
  rw [contents_getElem? hi (by omega), hlen, getElem?_overwrite hrun]
  by_cases h : i < stored
  · -- An element that was there before is not in the way of the run.
    rw [List.getElem?_append_left (by omega), contents_getElem? h (by omega), if_neg]
    split_ifs at ht hpi <;> omega
  · rw [List.getElem?_append_right (by omega), hold, if_pos]
    · congr 1
      split_ifs at ht hpi <;> omega
    · split_ifs at ht hpi <;> omega

/-- A run at the front that does not reach around the end is a piece of the array. -/
theorem contents_take {k : Nat} (hk : k ≤ stored) (hh : head ≤ buf.length)
    (hrun : head + k ≤ buf.length) : (contents buf head stored).take k = (buf.drop head).take k := by
  rw [contents, List.take_take, Nat.min_eq_left hk, List.rotate_eq_drop_append_take hh,
    List.take_append_of_le_length (by rw [List.length_drop]; omega)]

/-- Moving `head` over a run drops it from the contents. -/
theorem contents_drop {k head' : Nat} (hk : k ≤ stored) (hs : stored ≤ buf.length)
    (hh : head' = (head + k) % buf.length) :
    contents buf head' (stored - k) = (contents buf head stored).drop k := by
  apply List.ext_getElem?
  intro i
  rw [List.getElem?_drop]
  by_cases hi : i < stored - k
  · rw [contents_getElem? hi (by omega), contents_getElem? (by omega) hs, hh, Nat.add_mod_mod]
    congr 2
    omega
  · rw [List.getElem?_eq_none, List.getElem?_eq_none]
    · rw [contents_length hs]
      omega
    · rw [contents_length (by omega)]
      omega

/-! ## Positions on a circle -/

section Positions

variable {n x y a : Int}

/-- The slot of a position. -/
def index (n x : Int) : Nat := (x % n).toNat

theorem index_cast (hn : 0 < n) : (index n x : Int) = x % n :=
  Int.toNat_of_nonneg (Int.emod_nonneg _ (by omega))

theorem index_lt (hn : 0 < n) : (index n x : Int) < n := by
  rw [index_cast hn]
  exact Int.emod_lt_of_pos _ hn

theorem index_of_lt (hx : 0 ≤ x) (h : x < n) : index n x = x.toNat := by
  rw [index, Int.emod_eq_of_lt hx h]

/-- Slots repeat after `n` positions, not before. -/
theorem index_inj (hn : 0 < n) (h₁ : x - y < n) (h₂ : y - x < n) (h : index n x = index n y) :
    x = y := by
  have h' : x % n = y % n := by rw [← index_cast hn, ← index_cast hn, h]
  have hdvd : n ∣ x - y := Int.dvd_of_emod_eq_zero (Int.emod_eq_emod_iff_emod_sub_eq_zero.mp h')
  have := Int.eq_zero_of_abs_lt_dvd hdvd (abs_lt.mpr ⟨by omega, h₁⟩)
  omega

theorem index_index_add (hn : 0 < n) : index n (index n x + y) = index n (x + y) := by
  rw [index_cast hn, index, Int.emod_add_emod, index]

theorem index_add_self : index n (x + n) = index n x := by
  rw [index, index, Int.add_emod_right]

/-- Every slot has a position among any `n` successive ones. -/
theorem exists_position (hn : 0 < n) (a : Int) {j : Nat} (hj : (j : Int) < n) :
    ∃ x, a ≤ x ∧ x < a + n ∧ index n x = j := by
  refine ⟨a + (j - a) % n, ?_, ?_, ?_⟩
  · have := Int.emod_nonneg (j - a) (show n ≠ 0 by omega)
    omega
  · have := Int.emod_lt_of_pos (j - a) hn
    omega
  · rw [index, Int.add_emod_emod, add_sub_cancel, Int.emod_eq_of_lt (by omega) hj, Int.toNat_natCast]

/-- The block of positions from `a` to `a + len` has moved by one: its last element is now the first.
All else is as before. -/
structure Moved (n a len : Int) (l l' : List α) : Prop where
  length : l'.length = l.length
  first : l'[index n a]? = l[index n (a + len)]?
  block : ∀ x, a < x → x ≤ a + len → l'[index n x]? = l[index n (x - 1)]?
  rest : ∀ x, a + len < x → x < a + n → l'[index n x]? = l[index n x]?
  outside : ∀ j : Nat, n ≤ j → l'[j]? = l[j]?

theorem Moved.refl (l : List α) : Moved n a 0 l l :=
  ⟨rfl, by simp, fun x h₁ h₂ => by omega, fun _ _ _ => rfl, fun _ _ => rfl⟩

/-- The block may start at any position of its first slot. -/
theorem Moved.of_index {len : Int} {l l' : List α} (hn : 0 < n)
    (h : Moved n (index n a) len l l') : Moved n a len l l' := by
  -- Positions of the same slot, on either side.
  have key (x : Int) : index n (index n a + (x - a)) = index n x := by
    rw [index_index_add hn, add_sub_cancel]
  have hblock := fun x => h.block (index n a + (x - a))
  have hrest := fun x => h.rest (index n a + (x - a))
  refine ⟨h.length, ?_, fun x h₁ h₂ => ?_, fun x h₁ h₂ => ?_, h.outside⟩
  · have hfirst := h.first
    have hself := key a
    rw [sub_self, add_zero] at hself
    rwa [index_index_add hn, hself] at hfirst
  · have := hblock x (by omega) (by omega)
    rwa [key, add_sub_assoc, show x - a - 1 = x - 1 - a by omega, key] at this
  · have := hrest x (by omega) (by omega)
    rwa [key] at this

/-- A move only permutes the slots. -/
theorem Moved.injective {len : Int} {l l' : List α} (h : Moved n a len l l') (hn : 0 < n)
    (h₀ : 0 ≤ len) (hlen : len < n) :
    ∃ σ : Nat → Nat, Function.Injective σ ∧ ∀ j, l'[j]? = l[σ j]? := by
  -- The position from which an element comes.
  let τ : Int → Int := fun x => if x = a then a + len else if x ≤ a + len then x - 1 else x
  have hτ (x : Int) (h₁ : a ≤ x) (h₂ : x < a + n) :
      a ≤ τ x ∧ τ x < a + n ∧ l'[index n x]? = l[index n (τ x)]? := by
    simp only [τ]
    split_ifs with hx hx'
    · rw [hx]
      exact ⟨by omega, by omega, h.first⟩
    · exact ⟨by omega, by omega, h.block x (by omega) hx'⟩
    · exact ⟨by omega, by omega, h.rest x (by omega) h₂⟩
  have hτ_inj (x y : Int) (hx : a ≤ x) (hy : a ≤ y) (he : τ x = τ y) : x = y := by
    simp only [τ] at he
    split_ifs at he <;> omega
  choose! p hp₁ hp₂ hp₃ using fun (j : Nat) (hj : (j : Int) < n) => exists_position hn a hj
  have hpτ (j : Nat) (hj : (j : Int) < n) := hτ (p j) (hp₁ j hj) (hp₂ j hj)
  refine ⟨fun j => if (j : Int) < n then index n (τ (p j)) else j, fun i j hij => ?_, fun j => ?_⟩
  · have hi' := index_lt (x := τ (p i)) hn
    have hj' := index_lt (x := τ (p j)) hn
    simp only at hij
    split_ifs at hij with hi hj hj
    · have h₁ := hpτ i hi
      have h₂ := hpτ j hj
      have := hτ_inj _ _ (hp₁ i hi) (hp₁ j hj) (index_inj hn (by omega) (by omega) hij)
      rw [← hp₃ i hi, ← hp₃ j hj, this]
    · omega
    · omega
    · exact hij
  · simp only
    split_ifs with hj
    · rw [← (hpτ j hj).2.2, hp₃ j hj]
    · exact h.outside j (by omega)

end Positions

end XoDos.Ring
