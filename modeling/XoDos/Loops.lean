import XoDos.Outcome

/-!
# Counted loops that fill arrays

A loop that returns has gone through every round, and each of them found what the rounds before it
left.  An array that agrees with a target at some indices agrees at one more when the element there is
set to the target's.
-/

namespace XoDos

variable {ε α σ : Type}

/-- `for (i = b; i >= 0; i--) s = f(i, s)`. -/
def forDown (b : Int) (f : Int → σ → Except ε σ) (s : σ) : Except ε σ :=
  forUp 0 (b + 1) (fun i => f (b - i)) s

/-- What is left of a loop after some rounds. -/
theorem forUp_split {a i b : Int} (hai : a ≤ i) (hib : i ≤ b) (f : Int → σ → Except ε σ) (s : σ) :
    forUp a b f s = forUp a i f s >>= forUp i b f := by
  have hlength : (b - a).toNat = (i - a).toNat + (b - i).toNat := by omega
  unfold forUp
  rw [hlength, List.range_add, List.foldlM_append]
  congr 1
  funext t
  rw [List.foldlM_map]
  congr 1
  funext t k
  congr 1
  omega

theorem forUp_first {i b : Int} (hib : i < b) (f : Int → σ → Except ε σ) (s : σ) :
    forUp i b f s = f i s >>= forUp (i + 1) b f := by
  rw [forUp_split (show i ≤ i + 1 by omega) hib]
  have hone : (i + 1 - i).toNat = 1 := by omega
  have hround : forUp i (i + 1) f s = f i s := by
    rw [forUp, hone]
    simp
  rw [hround]

/-- Every round of a loop that returns has returned. -/
theorem forUp_round {a b i : Int} {f : Int → σ → Except ε σ} {s s' : σ} (h : forUp a b f s = .ok s')
    (hai : a ≤ i) (hib : i < b) : ∃ t t', forUp a i f s = .ok t ∧ f i t = .ok t' := by
  rw [forUp_split hai hib.le, bind_eq_ok] at h
  obtain ⟨t, ht, hrest⟩ := h
  rw [forUp_first hib, bind_eq_ok] at hrest
  obtain ⟨t', ht', -⟩ := hrest
  exact ⟨t, t', ht, ht'⟩

/-- What holds before a loop and is kept by each round that returns, with the index of the round. -/
theorem Ensures.forUp_index {I : Int → σ → Prop} {a b : Int} {f : Int → σ → Except ε σ} {s : σ}
    (hab : a ≤ b) (hf : ∀ i s, a ≤ i → i < b → I i s → Ensures (I (i + 1)) (f i s)) (hs : I a s) :
    Ensures (I b) (XoDos.forUp a b f s) := by
  obtain ⟨n, rfl⟩ : ∃ n : Nat, b = a + n := ⟨(b - a).toNat, by omega⟩
  induction n with
  | zero =>
    rw [Nat.cast_zero, add_zero, forUp_of_le le_rfl]
    exact Ensures.ok hs
  | succ n ih =>
    have hlast : a + ((n + 1 : Nat) : Int) = a + n + 1 := by
      push_cast
      ring
    rw [hlast, forUp_split (show a ≤ a + (n : Int) by omega) (by omega)]
    refine Ensures.bind (ih (by omega) fun i s h₁ h₂ => hf i s h₁ (by omega)) fun t ht => ?_
    rw [forUp_first (by omega)]
    refine Ensures.bind (hf _ t (by omega) (by omega) ht) fun t' ht' => ?_
    rw [forUp_of_le le_rfl]
    exact Ensures.ok ht'

/-! ## Arrays that are filled -/

/-- At these indices the array has the elements of the target. -/
def Agrees (target : Nat → α) (known : Nat → Prop) (a : List α) : Prop :=
  ∀ p, known p → a[p]? = some (target p)

theorem Agrees.set {target : Nat → α} {known known' : Nat → Prop} {a : List α} {p : Nat} {x : α}
    (h : Agrees target known a) (hp : p < a.length) (hx : x = target p)
    (hknown : ∀ q, known' q → known q ∨ q = p) : Agrees target known' (a.set p x) := by
  intro q hq
  by_cases heq : q = p
  · rw [heq, List.getElem?_set_self hp, hx]
  · rw [List.getElem?_set_ne (Ne.symm heq)]
    exact h q ((hknown q hq).resolve_right heq)

theorem Agrees.mono {target : Nat → α} {known known' : Nat → Prop} {a : List α}
    (h : Agrees target known a) (hknown : ∀ q, known' q → known q) : Agrees target known' a :=
  fun q hq => h q (hknown q hq)

end XoDos
