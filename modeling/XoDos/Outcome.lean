import Mathlib.Tactic

/-!
# Outcomes of fallible programs

Two judgements on `Except` programs.  `Ensures Q x` is partial correctness: a
value that `x` returns satisfies `Q`.  `Lockstep trap T E Q x y` compares two
runs of one program, `y` being the run on a machine that stops with `trap`
where `x` silently loses information.  Unless `y` traps, which only `T` admits,
both runs return the same value, which satisfies `Q`; an exception is admitted
only when `E` holds.
-/

namespace XoDos

variable {ε α β σ ι : Type}

/-- Partial correctness: a returned value satisfies `Q`. -/
def Ensures (Q : α → Prop) (x : Except ε α) : Prop := ∀ a, x = .ok a → Q a

/-- Unless `y` stops with `trap`, which `T` has to admit, the runs `x` and `y` agree, on a value
with `Q` or, where `E` admits it, on an exception. -/
def Lockstep (trap : ε) (T E : Prop) (Q : α → Prop) (x y : Except ε α) : Prop :=
  (T ∧ y = .error trap) ∨ (∃ a, x = .ok a ∧ y = .ok a ∧ Q a) ∨
    (E ∧ ∃ e, x = .error e ∧ y = .error e)

/-- `for (i = a; i < b; i++) s = f(i, s)`. -/
def forUp (a b : Int) (f : Int → σ → Except ε σ) (s : σ) : Except ε σ :=
  (List.range (b - a).toNat).foldlM (fun s (i : Nat) => f (a + (i : Int)) s) s

theorem bind_eq_ok {x : Except ε α} {f : α → Except ε β} {b : β} :
    (x >>= f) = .ok b ↔ ∃ a, x = .ok a ∧ f a = .ok b := by
  cases x with
  | error e => simp [bind, Except.bind]
  | ok a => simp [bind, Except.bind]

theorem exists_of_map_eq_ok {x : Except ε α} {f : α → β} {b : β} (h : x.map f = .ok b) :
    ∃ a, x = .ok a ∧ f a = b := by
  cases x with
  | error e => cases h
  | ok a => exact ⟨a, rfl, Except.ok.inj h⟩

theorem exists_of_isOk {x : Except ε α} (h : x.isOk = true) : ∃ a, x = .ok a := by
  cases x with
  | error e => cases h
  | ok a => exact ⟨a, rfl⟩

@[simp] theorem ok_bind (a : α) (f : α → Except ε β) : (Except.ok a >>= f) = f a := rfl

@[simp] theorem error_bind (e : ε) (f : α → Except ε β) :
    ((Except.error e : Except ε α) >>= f) = .error e := rfl

/-- A loop all of whose rounds return, with an invariant that depends on the index. -/
theorem forUp_returns {I : Int → σ → Prop} {a b : Int} {f : Int → σ → Except ε σ} {s : σ}
    (hab : a ≤ b) (hf : ∀ i s, a ≤ i → i < b → I i s → ∃ s', f i s = .ok s' ∧ I (i + 1) s')
    (hs : I a s) : ∃ s', forUp a b f s = .ok s' ∧ I b s' := by
  obtain ⟨n, rfl⟩ : ∃ n : Nat, b = a + n := ⟨(b - a).toNat, by omega⟩
  unfold forUp
  rw [add_sub_cancel_left, Int.toNat_natCast]
  induction n with
  | zero =>
    rw [Nat.cast_zero, add_zero]
    exact ⟨s, rfl, hs⟩
  | succ n ih =>
    obtain ⟨t, ht, hI⟩ := ih (by omega) fun i s h₁ h₂ => hf i s h₁ (by omega)
    obtain ⟨s', hs', hI'⟩ := hf (a + n) t (by omega) (by omega) hI
    refine ⟨s', ?_, ?_⟩
    · rw [List.range_succ, List.foldlM_append, ht, ok_bind, List.foldlM_cons, hs']
      rfl
    · rwa [show a + (n : Int) + 1 = a + ((n + 1 : Nat) : Int) by push_cast; omega] at hI'

/-- A loop without rounds. -/
theorem forUp_of_le {a b : Int} {f : Int → σ → Except ε σ} {s : σ} (h : b ≤ a) :
    forUp a b f s = .ok s := by
  rw [forUp, show (b - a).toNat = 0 by omega]
  rfl

namespace Ensures

theorem ok {Q : α → Prop} {a : α} (h : Q a) : Ensures Q (.ok a : Except ε α) := by
  intro b hb
  cases hb
  exact h

theorem error {Q : α → Prop} (e : ε) : Ensures Q (.error e : Except ε α) := by
  intro b hb
  cases hb

theorem mono {P Q : α → Prop} {x : Except ε α} (h : Ensures P x) (hPQ : ∀ a, P a → Q a) :
    Ensures Q x := fun a ha => hPQ a (h a ha)

theorem bind {P : α → Prop} {Q : β → Prop} {x : Except ε α} {f : α → Except ε β}
    (hx : Ensures P x) (hf : ∀ a, P a → Ensures Q (f a)) : Ensures Q (x >>= f) := by
  intro b hb
  obtain ⟨a, ha, hb⟩ := bind_eq_ok.mp hb
  exact hf a (hx a ha) b hb

/-- An intermediate value about which nothing is needed. -/
theorem bind_any {Q : β → Prop} {x : Except ε α} {f : α → Except ε β}
    (hf : ∀ a, Ensures Q (f a)) : Ensures Q (x >>= f) :=
  bind (P := fun _ => True) (fun _ _ => trivial) fun a _ => hf a

theorem ite {Q : α → Prop} {c : Prop} [Decidable c] {x y : Except ε α}
    (hx : c → Ensures Q x) (hy : ¬ c → Ensures Q y) : Ensures Q (if c then x else y) := by
  split_ifs with h
  · exact hx h
  · exact hy h

theorem foldlM {Q : σ → Prop} {f : σ → ι → Except ε σ} (l : List ι) {s : σ}
    (hf : ∀ s i, i ∈ l → Q s → Ensures Q (f s i)) (hs : Q s) : Ensures Q (l.foldlM f s) := by
  induction l generalizing s with
  | nil => exact ok hs
  | cons i l ih =>
    rw [List.foldlM_cons]
    exact bind (hf s i (by simp) hs) fun t ht => ih (fun s j hj => hf s j (by simp [hj])) ht

theorem mapM {P : β → Prop} {f : α → Except ε β} (l : List α) (hf : ∀ a ∈ l, Ensures P (f a)) :
    Ensures (fun l' => ∀ b ∈ l', P b) (l.mapM f) := by
  induction l with
  | nil => exact ok (by simp)
  | cons a l ih =>
    rw [List.mapM_cons]
    refine bind (hf a (by simp)) fun b hb => bind (ih fun a' ha' => hf a' (by simp [ha'])) ?_
    intro l' hl'
    exact ok (by simpa using ⟨hb, hl'⟩)

theorem forUp {Q : σ → Prop} {a b : Int} {f : Int → σ → Except ε σ} {s : σ}
    (hf : ∀ i s, a ≤ i → i < b → Q s → Ensures Q (f i s)) (hs : Q s) :
    Ensures Q (forUp a b f s) := by
  refine foldlM _ (fun s i hi h => hf _ s (by omega) ?_ h) hs
  have := List.mem_range.mp hi
  omega

end Ensures

namespace Lockstep

variable {trap : ε} {T E : Prop}

theorem ok {Q : α → Prop} {a : α} (h : Q a) : Lockstep trap T E Q (.ok a) (.ok a) :=
  .inr (.inl ⟨a, rfl, rfl, h⟩)

theorem error {Q : α → Prop} (hE : E) (e : ε) : Lockstep trap T E Q (.error e) (.error e) :=
  .inr (.inr ⟨hE, e, rfl, rfl⟩)

/-- A run that does not depend on the machine, where exceptions are admitted. -/
theorem of_ensures {Q : α → Prop} {x : Except ε α} (hE : E) (h : Ensures Q x) :
    Lockstep trap T E Q x x := by
  cases x with
  | error e => exact error hE e
  | ok a => exact ok (h a rfl)

theorem mono {P Q : α → Prop} {x y : Except ε α} (h : Lockstep trap T E P x y)
    (hPQ : ∀ a, P a → Q a) : Lockstep trap T E Q x y := by
  obtain h | ⟨a, hx, hy, ha⟩ | h := h
  · exact .inl h
  · exact .inr (.inl ⟨a, hx, hy, hPQ a ha⟩)
  · exact .inr (.inr h)

/-- A further fact about the returned value, known of one run. -/
theorem and_ensures {P Q : α → Prop} {x y : Except ε α} (h : Lockstep trap T E Q x y)
    (hx : Ensures P x) : Lockstep trap T E (fun a => Q a ∧ P a) x y := by
  obtain h | ⟨a, rfl, hy, ha⟩ | h := h
  · exact .inl h
  · exact .inr (.inl ⟨a, rfl, hy, ha, hx a rfl⟩)
  · exact .inr (.inr h)

/-- Two facts about the same runs. -/
theorem and {P Q : α → Prop} {x y : Except ε α} (h : Lockstep trap T E P x y)
    (h' : Lockstep trap T E Q x y) : Lockstep trap T E (fun a => P a ∧ Q a) x y := by
  rcases h with h | ⟨a, rfl, rfl, ha⟩ | h
  · exact .inl h
  · rcases h' with ⟨-, hy⟩ | ⟨a', hx, -, ha'⟩ | ⟨-, e, hx, -⟩
    · cases hy
    · cases hx
      exact .inr (.inl ⟨a, rfl, rfl, ha, ha'⟩)
    · cases hx
  · exact .inr (.inr h)

theorem bind {P : α → Prop} {Q : β → Prop} {x y : Except ε α} {f g : α → Except ε β}
    (hx : Lockstep trap T E P x y) (hf : ∀ a, P a → Lockstep trap T E Q (f a) (g a)) :
    Lockstep trap T E Q (x >>= f) (y >>= g) := by
  obtain ⟨hT, rfl⟩ | ⟨a, rfl, rfl, ha⟩ | ⟨hE, e, rfl, rfl⟩ := hx
  · exact .inl ⟨hT, rfl⟩
  · exact hf a ha
  · exact error hE e

theorem foldlM {Q : σ → Prop} {f g : σ → ι → Except ε σ} (l : List ι) {s : σ}
    (hf : ∀ s i, i ∈ l → Q s → Lockstep trap T E Q (f s i) (g s i)) (hs : Q s) :
    Lockstep trap T E Q (l.foldlM f s) (l.foldlM g s) := by
  induction l generalizing s with
  | nil => exact ok hs
  | cons i l ih =>
    rw [List.foldlM_cons, List.foldlM_cons]
    exact bind (hf s i (by simp) hs) fun t ht => ih (fun s j hj => hf s j (by simp [hj])) ht

theorem forUp {Q : σ → Prop} {a b : Int} {f g : Int → σ → Except ε σ} {s : σ}
    (hf : ∀ i s, a ≤ i → i < b → Q s → Lockstep trap T E Q (f i s) (g i s)) (hs : Q s) :
    Lockstep trap T E Q (forUp a b f s) (forUp a b g s) := by
  refine foldlM _ (fun s i hi h => hf _ s (by omega) ?_ h) hs
  have := List.mem_range.mp hi
  omega

/-- A loop whose invariant depends on the index. -/
theorem forUp_index {I : Int → σ → Prop} {a b : Int} {f g : Int → σ → Except ε σ} {s : σ}
    (hab : a ≤ b)
    (hf : ∀ i s, a ≤ i → i < b → I i s → Lockstep trap T E (I (i + 1)) (f i s) (g i s))
    (hs : I a s) :
    Lockstep trap T E (I b) (XoDos.forUp a b f s) (XoDos.forUp a b g s) := by
  obtain ⟨n, rfl⟩ : ∃ n : Nat, b = a + n := ⟨(b - a).toNat, by omega⟩
  unfold XoDos.forUp
  rw [add_sub_cancel_left, Int.toNat_natCast]
  induction n with
  | zero =>
    rw [Nat.cast_zero, add_zero]
    exact ok hs
  | succ n ih =>
    rw [List.range_succ, List.foldlM_append, List.foldlM_append]
    refine bind (ih (by omega) fun i s h₁ h₂ => hf i s h₁ (by omega)) fun t ht => ?_
    simp only [List.foldlM_cons, List.foldlM_nil, bind_pure]
    have := hf (a + n) t (by omega) (by omega) ht
    rwa [show a + (n : Int) + 1 = a + ((n + 1 : Nat) : Int) by push_cast; omega] at this

/-- Where neither is admitted, there is no trap and no exception. -/
theorem both_return {Q : α → Prop} {x y : Except ε α} (h : Lockstep trap False False Q x y) :
    ∃ a, x = .ok a ∧ y = .ok a ∧ Q a := by
  obtain h | h | h := h
  · exact h.1.elim
  · exact h
  · exact h.1.elim

/-- Without exceptions and without a trap, the silent run returns. -/
theorem returns {Q : α → Prop} {x y : Except ε α} (h : Lockstep trap T False Q x y)
    (hy : y ≠ .error trap) : ∃ a, x = .ok a ∧ Q a := by
  obtain h | ⟨a, hx, -, ha⟩ | ⟨h, -⟩ := h
  · exact absurd h.2 hy
  · exact ⟨a, hx, ha⟩
  · exact h.elim

/-- Without a trap, what the silent run returns satisfies the postcondition. -/
theorem ensures {Q : α → Prop} {x y : Except ε α} (h : Lockstep trap T E Q x y)
    (hy : y ≠ .error trap) : Ensures Q x := by
  intro b hb
  obtain h | ⟨a, hx, -, ha⟩ | ⟨-, e, hx, -⟩ := h
  · exact absurd h.2 hy
  · rw [hx] at hb
    cases hb
    exact ha
  · rw [hx] at hb
    cases hb

end Lockstep

end XoDos
