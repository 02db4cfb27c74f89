import XoDos.Outcome

/-!
# Runs of a fallible step

A machine is fed one input after the other and may stop with an exception.  `Along step ok s inputs` says
that every input finds the machine in a state where it is admitted; what is true of one such step is then
true of the whole run.
-/

namespace XoDos

variable {ε σ ι : Type} {step : σ → ι → Except ε σ} {ok : σ → ι → Prop}

/-- Every input of the run from `s` is admitted by the state that it finds. -/
def Along (step : σ → ι → Except ε σ) (ok : σ → ι → Prop) : σ → List ι → Prop
  | _, [] => True
  | s, i :: inputs =>
    ok s i ∧ match step s i with
      | .ok s' => Along step ok s' inputs
      | .error _ => True

instance Along.decidable [∀ s i, Decidable (ok s i)] :
    ∀ (s : σ) (inputs : List ι), Decidable (Along step ok s inputs)
  | _, [] => .isTrue trivial
  | s, i :: inputs =>
    haveI : Decidable (match step s i with
        | .ok s' => Along step ok s' inputs
        | .error _ => True) :=
      match step s i with
      | .ok s' => Along.decidable s' inputs
      | .error _ => .isTrue trivial
    instDecidableAnd

theorem Along.tail {s s' : σ} {i : ι} {inputs : List ι} (h : Along step ok s (i :: inputs))
    (hs : step s i = .ok s') : Along step ok s' inputs := by
  have hrest := h.2
  rw [hs] at hrest
  exact hrest

/-- What every admitted step keeps is kept by the run. -/
theorem Ensures.along {Q : σ → Prop} (hstep : ∀ s i, Q s → ok s i → Ensures Q (step s i)) {s : σ}
    {inputs : List ι} (hs : Q s) (h : Along step ok s inputs) : Ensures Q (inputs.foldlM step s) := by
  induction inputs generalizing s with
  | nil => exact .ok hs
  | cons i inputs ih =>
    rw [List.foldlM_cons]
    intro s'' hrun
    obtain ⟨s', hs', hrest⟩ := bind_eq_ok.mp hrun
    exact ih (hstep s i hs h.1 s' hs') (h.tail hs') s'' hrest

end XoDos
