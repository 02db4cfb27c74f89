import Mathlib.Tactic

/-!
# Copying element by element

A loop that copies `n` elements to position `d`, from left to right, either from
another array or within one.  Within one array the elements that it has written
are read again if the target starts inside the source, so that the first ones
are repeated.
-/

namespace XoDos.ElementCopy

variable {α : Type}

/-- Write `source[y]`, or what `l` itself has there, to position `x` of `l`. -/
def copyOne (inPlace : Bool) (source : List α) (y x : Nat) (l : List α) : List α :=
  match (if inPlace then l else source)[y]? with
  | some v => l.set x v
  | none => l

/-- Copy `n` elements from position `y` on to position `x` on. -/
def copyEach (inPlace : Bool) (source : List α) : Nat → Nat → Nat → List α → List α
  | _, _, 0, l => l
  | y, x, n + 1, l => copyEach inPlace source (y + 1) (x + 1) n (copyOne inPlace source y x l)

variable {inPlace : Bool} {source l : List α} {x y n : Nat}

theorem copyOne_eq {v : α} (h : (if inPlace then l else source)[y]? = some v) :
    copyOne inPlace source y x l = l.set x v := by
  rw [copyOne, h]

@[simp] theorem copyOne_length : (copyOne inPlace source y x l).length = l.length := by
  rw [copyOne]
  split
  · exact List.length_set
  · rfl

@[simp] theorem copyEach_length : (copyEach inPlace source y x n l).length = l.length := by
  induction n generalizing x y l with
  | zero => rfl
  | succ n ih => rw [copyEach, ih, copyOne_length]

/-- Nothing else changes. -/
theorem getElem?_copyOne_ne {p : Nat} (hp : p ≠ x) : (copyOne inPlace source y x l)[p]? = l[p]? := by
  rw [copyOne]
  split
  · exact List.getElem?_set_ne hp.symm
  · rfl

theorem getElem?_copyOne_self (hx : x < l.length)
    (hy : y < (if inPlace then l else source).length) :
    (copyOne inPlace source y x l)[x]? = (if inPlace then l else source)[y]? := by
  obtain ⟨v, hv⟩ : ∃ v, (if inPlace then l else source)[y]? = some v :=
    ⟨_, List.getElem?_eq_getElem hy⟩
  rw [copyOne_eq hv, hv]
  exact List.getElem?_set_self hx

theorem getElem?_copyEach_outside {p : Nat} (hp : p < x ∨ x + n ≤ p) :
    (copyEach inPlace source y x n l)[p]? = l[p]? := by
  induction n generalizing x y l with
  | zero => rfl
  | succ n ih =>
    rw [copyEach, ih (by omega)]
    exact getElem?_copyOne_ne (by omega)

/-- Where each element comes from. -/
theorem getElem?_copyEach (hx : x + n ≤ l.length)
    (hy : y + n ≤ (if inPlace then l else source).length) {i : Nat} (hi : i < n) :
    (copyEach inPlace source y x n l)[x + i]? =
      if inPlace = true ∧ y < x ∧ x ≤ y + i then (copyEach inPlace source y x n l)[y + i]?
      else (if inPlace then l else source)[y + i]? := by
  -- Copying goes upwards, so a source to the left of its target is read after it was written.
  induction n generalizing x y l i with
  | zero => omega
  | succ n ih =>
    have hself := getElem?_copyOne_self (show x < l.length by omega)
      (show y < (if inPlace then l else source).length by omega)
    have hfirst : (copyEach inPlace source y x (n + 1) l)[x]? =
        (if inPlace then l else source)[y]? := by
      rw [copyEach, getElem?_copyEach_outside (by omega), hself]
    cases i with
    | zero =>
      have hno : ¬(inPlace = true ∧ y < x ∧ x ≤ y + 0) := by omega
      rw [if_neg hno, add_zero, add_zero, hfirst]
    | succ j =>
      have hlen : (if inPlace then copyOne inPlace source y x l else source).length =
          (if inPlace then l else source).length := by
        split_ifs
        · exact copyOne_length
        · rfl
      have hrest := ih (l := copyOne inPlace source y x l) (x := x + 1) (y := y + 1) (i := j)
        (by rw [copyOne_length]; omega) (by omega) (by omega)
      rw [copyEach] at hfirst ⊢
      rw [show x + (j + 1) = x + 1 + j by omega, show y + (j + 1) = y + 1 + j by omega, hrest]
      cases inPlace with
      | false => simp
      | true =>
        simp only [true_and, if_true] at hfirst hself ⊢
        by_cases hread : y < x ∧ x ≤ y + 1 + j
        · rw [if_pos hread]
          by_cases hnext : x + 1 ≤ y + 1 + j
          · rw [if_pos (by omega)]
          · -- The element that was written first is the one that is read now.
            have hat : y + 1 + j = x := by omega
            rw [if_neg (by omega), hat, hfirst, hself]
        · rw [if_neg hread, if_neg (by omega)]
          exact getElem?_copyOne_ne (by omega)

/-- The copy is right just if it is not in place to the right, or the source repeats itself with
the distance of the two positions as a period. -/
theorem copyEach_right_iff (hx : x + n ≤ l.length)
    (hy : y + n ≤ (if inPlace then l else source).length) :
    (∀ i < n, (copyEach inPlace source y x n l)[x + i]? =
        (if inPlace then l else source)[y + i]?) ↔
      (inPlace = true → y < x → ∀ i, x - y + i < n → l[x + i]? = l[y + i]?) := by
  constructor
  · rintro hright rfl hlt i hi
    have hread : true = true ∧ y < x ∧ x ≤ y + (x - y + i) := ⟨rfl, hlt, by omega⟩
    have hcopied := hright (x - y + i) hi
    rw [getElem?_copyEach hx hy hi, if_pos hread, if_pos rfl,
      show y + (x - y + i) = x + i by omega] at hcopied
    rw [← hcopied, hright i (by omega), if_pos rfl]
  · intro hperiod i hi
    induction i using Nat.strong_induction_on with
    | _ i ih =>
      rw [getElem?_copyEach hx hy hi]
      split_ifs with hread hplace
      · rw [show y + i = x + (i - (x - y)) by omega, ih _ (by omega) (by omega), if_pos hplace]
        have hback := hperiod hread.1 hread.2.1 (i - (x - y)) (by omega)
        rw [hback]
      · exact absurd hread.1 hplace
      · rfl
      · rfl

end XoDos.ElementCopy
