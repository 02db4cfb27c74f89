import Mathlib.Tactic

/-!
# Runs of a state machine

A machine takes one input after the other.  `Along` asks of every input that it
meets a condition in the state in which it arrives.  An invariant that such
inputs preserve holds in every state of such a run.
-/

namespace XoDos.Run

variable {σ ι : Type} {step : σ → ι → σ} {ok ok' : σ → ι → Prop} {s : σ} {inputs rest : List ι}

/-- The state after the inputs. -/
def after (step : σ → ι → σ) (s : σ) (inputs : List ι) : σ := inputs.foldl step s

/-- Every input meets the condition when it arrives. -/
def Along (step : σ → ι → σ) (ok : σ → ι → Prop) : σ → List ι → Prop
  | _, [] => True
  | s, i :: rest => ok s i ∧ Along step ok (step s i) rest

@[simp] theorem after_nil : after step s [] = s := rfl

@[simp] theorem after_cons (i : ι) : after step s (i :: rest) = after step (step s i) rest := rfl

theorem after_append : after step s (inputs ++ rest) = after step (after step s inputs) rest :=
  List.foldl_append

theorem along_append :
    Along step ok s (inputs ++ rest) ↔
      Along step ok s inputs ∧ Along step ok (after step s inputs) rest := by
  induction inputs generalizing s with
  | nil => simp [Along]
  | cons i inputs ih => simp [Along, ih, and_assoc]

/-- What holds at the start and is preserved holds at the end. -/
theorem after_invariant {I : σ → Prop} (hstep : ∀ s i, I s → I (step s i)) (hs : I s) :
    I (after step s inputs) := by
  induction inputs generalizing s with
  | nil => exact hs
  | cons i inputs ih => exact ih (hstep s i hs)

/-- It is enough that it is preserved by inputs that meet the condition. -/
theorem Along.invariant {I : σ → Prop} (h : Along step ok s inputs)
    (hstep : ∀ s i, I s → ok s i → I (step s i)) (hs : I s) : I (after step s inputs) := by
  induction inputs generalizing s with
  | nil => exact hs
  | cons i inputs ih =>
    obtain ⟨hi, hrest⟩ := h
    exact ih hrest (hstep s i hs hi)

/-- The same in every state on the way. -/
theorem Along.everywhere {I : σ → Prop} (h : Along step ok s (inputs ++ rest))
    (hstep : ∀ s i, I s → ok s i → I (step s i)) (hs : I s) : I (after step s inputs) :=
  (along_append.mp h).1.invariant hstep hs

/-- An input meets its condition where it stands. -/
theorem Along.condition {i : ι} (h : Along step ok s (inputs ++ i :: rest)) :
    ok (after step s inputs) i :=
  (along_append.mp h).2.1

/-- An invariant may speak about what has come so far. -/
theorem Along.history {I : σ → List ι → Prop} {past : List ι} (h : Along step ok s inputs)
    (hstep : ∀ s past i, I s past → ok s i → I (step s i) (past ++ [i])) (hs : I s past) :
    I (after step s inputs) (past ++ inputs) := by
  induction inputs generalizing s past with
  | nil => simpa using hs
  | cons i inputs ih =>
    obtain ⟨hi, hrest⟩ := h
    simpa using ih hrest (hstep s past i hs hi)

theorem Along.of_mem {P : ι → Prop} (h : Along step ok s inputs) (hP : ∀ i ∈ inputs, P i) :
    Along step (fun s i => ok s i ∧ P i) s inputs := by
  induction inputs generalizing s with
  | nil => trivial
  | cons i inputs ih =>
    obtain ⟨hi, hrest⟩ := h
    exact ⟨⟨hi, hP i (by simp)⟩, ih hrest (fun j hj => hP j (by simp [hj]))⟩

/-- Two conditions that agree wherever an invariant holds are met by the same runs. -/
theorem along_congr {I : σ → Prop} (hiff : ∀ s i, I s → (ok s i ↔ ok' s i))
    (hstep : ∀ s i, I s → ok s i → I (step s i)) (hs : I s) :
    Along step ok s inputs ↔ Along step ok' s inputs := by
  induction inputs generalizing s with
  | nil => rfl
  | cons i inputs ih =>
    rw [Along, Along, hiff s i hs]
    apply and_congr_right
    intro hi
    exact ih (hstep s i hs ((hiff s i hs).mpr hi))

theorem along_and : Along step (fun s i => ok s i ∧ ok' s i) s inputs ↔
    Along step ok s inputs ∧ Along step ok' s inputs := by
  induction inputs generalizing s with
  | nil => simp [Along]
  | cons i inputs ih => simp [Along, ih, and_and_and_comm]

/-- In a run of inputs that meet a condition, what such inputs have under an invariant holds all along. -/
theorem Along.all {I : σ → Prop} (h : Along step ok s inputs)
    (hok : ∀ s i, I s → ok s i → ok' s i) (hstep : ∀ s i, I s → ok s i → I (step s i)) (hs : I s) :
    Along step ok' s inputs := by
  induction inputs generalizing s with
  | nil => trivial
  | cons i inputs ih =>
    obtain ⟨hi, hrest⟩ := h
    exact ⟨hok s i hs hi, ih hrest (hstep s i hs hi)⟩

/-- What is not taken out of a list stays in it. -/
theorem mem_eraseIdx_of_ne {α : Type} {l : List α} {i : Nat} {x y : α} (hx : x ∈ l)
    (hy : l[i]? = some y) (hne : x ≠ y) : x ∈ l.eraseIdx i := by
  obtain ⟨j, hj⟩ := List.mem_iff_getElem?.mp hx
  refine List.mem_eraseIdx_iff_getElem?.mpr ⟨j, ?_, hj⟩
  rintro rfl
  rw [hy] at hj
  exact hne (Option.some.inj hj).symm

end XoDos.Run
