import XoDos.ExecutionCommand

/-!
# The state of a command and its errors

The calls that change a command, in any order.  A result is processed when its command has
executed, an error when it has failed.
-/

namespace XoDos

namespace ExecutionCommand

inductive Call where
  | setState (newState : ExecutionState)
  | setStateFailed (type : Option JavaString) (code : Int) (message : Option JavaString)
      (stackTraces : List JavaString)
  /-- With the error of the delivery, if there is a delivery. -/
  | processResult (error : Option ResultError)
  | processError (error : Option ResultError)
deriving DecidableEq

/-- A command, and whether its result or error has been processed. -/
structure Life where
  command : ExecutionCommand
  processed : Bool
deriving DecidableEq

namespace Life

variable (s : Life)

def start (isPluginExecutionCommand : Bool) (resultConfig : ResultConfig) : Life :=
  ⟨.new isPluginExecutionCommand resultConfig, false⟩

def step : Call → Life
  | .setState newState => { s with command := (s.command.setState newState).2 }
  | .setStateFailed type code message stackTraces =>
    { s with command := (s.command.setStateFailed type code message stackTraces).2 }
  | .processResult error =>
    ⟨s.command.processPluginExecutionCommandResult error, s.processed || s.command.hasExecuted⟩
  | .processError error =>
    ⟨s.command.processPluginExecutionCommandError error, s.processed || s.command.isStateFailed⟩

/-- A success has no failed error, and what has been processed failed in both views or in none. -/
structure Agrees : Prop where
  success : s.command.currentState = .success → s.command.resultData.isStateFailed = false
  processed : s.processed = true →
    (s.command.currentState = .failed ↔ s.command.resultData.isStateFailed = true)

/-- The state does not go back and does not leave success. -/
def Forward (t : Life) : Prop :=
  s.command.currentState.getValue ≤ t.command.currentState.getValue ∧
    (s.command.currentState = .success → t.command.currentState = .success)

/-- The call writes a failure in both views or in none. -/
def Matched : Call → Prop
  | .setState newState =>
    newState = .failed → s.processed = true → s.command.currentState ≠ .success →
      s.command.resultData.isStateFailed = true
  | .setStateFailed _ _ _ _ => s.command.currentState ≠ .success
  | .processResult error =>
    s.command.hasExecuted = true →
      if s.command.isPluginExecutionCommandWithPendingResult = true ∧ error ≠ none then
        s.command.currentState = .failed
      else s.command.currentState = .failed → s.command.resultData.isStateFailed = true
  | .processError _ => True

/-! ## One call -/

variable {s} {call : Call} {error : Option ResultError}

/-- Errors mean failure; and once the result has been processed, failure means errors. -/
structure Inv (s : Life) : Prop where
  state : s.command.resultData.isStateFailed = true → s.command.currentState = .failed
  errors : s.processed = true → s.command.currentState = .failed →
    s.command.resultData.isStateFailed = true

theorem Inv.agrees (h : Inv s) : Agrees s := by
  refine ⟨fun hs => ?_, fun hp => ⟨h.errors hp, h.state⟩⟩
  by_contra hf
  rw [Bool.not_eq_false] at hf
  rw [h.state hf] at hs
  cases hs

/-- What processing a result does: nothing, an error more, or a transition. -/
theorem processResult_cases (c : ExecutionCommand) (error : Option ResultError) :
    (c.hasExecuted = false ∧ c.processPluginExecutionCommandResult error = c) ∨
      (c.hasExecuted = true ∧ c.isPluginExecutionCommandWithPendingResult = true ∧
        ∃ e, error = some e ∧ c.processPluginExecutionCommandResult error = c.addError e) ∨
      (c.hasExecuted = true ∧ ¬(c.isPluginExecutionCommandWithPendingResult = true ∧ error ≠ none) ∧
        c.processPluginExecutionCommandResult error =
          if c.isStateFailed then c else (c.setState .success).2) := by
  unfold processPluginExecutionCommandResult
  by_cases hx : c.hasExecuted = true
  · right
    rw [if_pos hx]
    by_cases hp : c.isPluginExecutionCommandWithPendingResult = true
    · rw [if_pos hp]
      cases error with
      | none => exact .inr ⟨hx, by simp, rfl⟩
      | some e => exact .inl ⟨hx, hp, e, rfl, rfl⟩
    · rw [if_neg hp]
      exact .inr ⟨hx, fun h => hp h.1, rfl⟩
  · rw [if_neg hx]
    exact .inl ⟨by simpa using hx, rfl⟩

theorem processError_cases (c : ExecutionCommand) (error : Option ResultError) :
    c.processPluginExecutionCommandError error = c ∨
      (c.isStateFailed = true ∧ ∃ e, c.processPluginExecutionCommandError error = c.addError e) := by
  unfold processPluginExecutionCommandError
  by_cases hf : c.isStateFailed = true
  · rw [if_pos hf]
    cases (if c.isPluginExecutionCommandWithPendingResult = true then error else none) with
    | none => exact .inl rfl
    | some e => exact .inr ⟨hf, e, rfl⟩
  · rw [if_neg hf]
    exact .inl rfl

theorem isStateFailed_iff {c : ExecutionCommand} :
    c.isStateFailed = true ↔ c.currentState = .failed ∧ c.resultData.isStateFailed = true := by
  simp [isStateFailed]

theorem addError_isStateFailed (c : ExecutionCommand) (e : ResultError) :
    (c.addError e).resultData.isStateFailed = true := setStateFailed_isStateFailed c.resultData

@[simp] theorem addError_currentState (c : ExecutionCommand) (e : ResultError) :
    (c.addError e).currentState = c.currentState := rfl

/-- Every call goes forward. -/
theorem forward_step (s : Life) (call : Call) : Forward s (s.step call) := by
  cases call with
  | setState newState => exact setState_forward
  | setStateFailed type code message stackTraces =>
    exact @setState_forward { s.command with
      resultData := (s.command.resultData.setStateFailed type code message stackTraces).2 } .failed
  | processResult error =>
    simp only [step, Forward]
    rcases processResult_cases s.command error with ⟨-, h⟩ | ⟨-, -, e, -, h⟩ | ⟨-, -, h⟩
    · rw [h]
      exact ⟨le_rfl, id⟩
    · rw [h]
      exact ⟨le_rfl, id⟩
    · rw [h]
      split_ifs
      · exact ⟨le_rfl, id⟩
      · exact setState_forward
  | processError error =>
    simp only [step, Forward]
    rcases processError_cases s.command error with h | ⟨-, e, h⟩
    · rw [h]
      exact ⟨le_rfl, id⟩
    · rw [h]
      exact ⟨le_rfl, id⟩

theorem Inv.step (h : Inv s) (hm : s.Matched call) : Inv (s.step call) := by
  cases call with
  | setState newState =>
    refine ⟨fun hf => ?_, fun hp hfailed => ?_⟩
    · simp only [Life.step, setState_resultData] at hf
      exact setState_of_failed (h.state hf)
    · simp only [Life.step, setState_resultData] at hp hfailed ⊢
      -- A refused change leaves the state, and one that is made may not hide an error.
      rcases setState_cases s.command newState with ⟨-, heq⟩ | ⟨-, hne, p, heq⟩
      · rw [heq] at hfailed
        exact h.errors hp hfailed
      · rw [heq] at hfailed
        exact hm hfailed hp hne
  | setStateFailed type code message stackTraces =>
    refine ⟨fun _ => ?_, fun _ _ => ?_⟩
    · exact (@setState_failed { s.command with
        resultData := (s.command.resultData.setStateFailed type code message stackTraces).2 } hm).1
    · simp only [Life.step, ExecutionCommand.setStateFailed, setState_resultData]
      exact setStateFailed_isStateFailed s.command.resultData
  | processResult error =>
    simp only [Matched] at hm
    rcases processResult_cases s.command error with ⟨hx, heq⟩ | ⟨hx, hp, e, he, heq⟩ | ⟨hx, hno, heq⟩
    · refine ⟨?_, ?_⟩
      · simp only [Life.step, heq]
        exact h.state
      · simp only [Life.step, heq, hx, Bool.or_false]
        exact h.errors
    · have hfailed := hm hx
      rw [if_pos ⟨hp, by simp [he]⟩] at hfailed
      refine ⟨fun _ => ?_, fun _ _ => ?_⟩
      · simp only [Life.step, heq, addError_currentState]
        exact hfailed
      · simp only [Life.step, heq]
        exact addError_isStateFailed _ e
    · have herrors := hm hx
      rw [if_neg hno] at herrors
      refine ⟨?_, fun _ => ?_⟩
      · simp only [Life.step, heq]
        split_ifs
        · exact h.state
        · intro hf
          rw [setState_resultData] at hf
          exact setState_of_failed (h.state hf)
      · simp only [Life.step, heq]
        split_ifs
        · exact herrors
        · intro hfailed
          rw [setState_resultData]
          rcases setState_cases s.command .success with ⟨-, hs⟩ | ⟨-, -, p, hs⟩
          · rw [hs] at hfailed
            exact herrors hfailed
          · rw [hs] at hfailed
            cases hfailed
  | processError error =>
    rcases processError_cases s.command error with heq | ⟨hf, e, heq⟩
    · refine ⟨?_, ?_⟩
      · simp only [Life.step, heq]
        exact h.state
      · simp only [Life.step, heq, Bool.or_eq_true]
        rintro (hp | hf) hfailed
        · exact h.errors hp hfailed
        · exact (isStateFailed_iff.mp hf).2
    · refine ⟨fun _ => ?_, fun _ _ => ?_⟩
      · simp only [Life.step, heq, addError_currentState]
        exact (isStateFailed_iff.mp hf).1
      · simp only [Life.step, heq]
        exact addError_isStateFailed _ e

/-- A call that leaves the views in agreement was matched. -/
theorem matched_of_agrees (ha : Agrees (s.step call)) : s.Matched call := by
  cases call with
  | setState newState =>
    intro hnew hp hne
    subst hnew
    have hboth := ha.processed hp
    simp only [Life.step, setState_resultData] at hboth
    exact hboth.mp (setState_failed hne).1
  | setStateFailed type code message stackTraces =>
    intro hs
    have hok := ha.success ((forward_step s _).2 hs)
    simp only [Life.step, ExecutionCommand.setStateFailed, setState_resultData] at hok
    rw [setStateFailed_isStateFailed] at hok
    cases hok
  | processResult error =>
    intro hx
    have hboth := ha.processed (by simp [Life.step, hx])
    rcases processResult_cases s.command error with ⟨hx', -⟩ | ⟨-, hp, e, he, heq⟩ | ⟨-, hno, heq⟩
    · rw [hx'] at hx
      cases hx
    · rw [if_pos ⟨hp, by simp [he]⟩]
      simp only [Life.step, heq, addError_currentState] at hboth
      exact hboth.mpr (addError_isStateFailed _ e)
    · rw [if_neg hno]
      intro hfailed
      simp only [Life.step, heq] at hboth
      split_ifs at hboth with hf
      · exact hboth.mp hfailed
      · rw [setState_resultData] at hboth
        exact hboth.mp (setState_of_failed hfailed)
  | processError error => trivial

/-! ## Runs -/

theorem inv_start (isPluginExecutionCommand : Bool) (resultConfig : ResultConfig) :
    Inv (start isPluginExecutionCommand resultConfig) := by
  refine ⟨fun h => ?_, fun h => ?_⟩
  · cases h
  · cases h

theorem Inv.along {calls : List Call} (h : Inv s)
    (ha : ∀ earlier later, calls = earlier ++ later → Agrees (Run.after Life.step s earlier)) :
    Run.Along Life.step Matched s calls := by
  induction calls generalizing s with
  | nil => trivial
  | cons call calls ih =>
    have hm : s.Matched call := matched_of_agrees (ha [call] calls rfl)
    refine ⟨hm, ih (h.step hm) fun earlier later heq => ?_⟩
    exact ha (call :: earlier) later (by rw [heq, List.cons_append])

/-- The state and the errors of a command agree, and the state goes forward, in every state of a run
exactly if every call of the run is matched. -/
theorem state_agrees_iff (isPluginExecutionCommand : Bool) (resultConfig : ResultConfig)
    (calls : List Call) :
    ((∀ earlier later, calls = earlier ++ later →
          Agrees (Run.after step (start isPluginExecutionCommand resultConfig) earlier)) ∧
        ∀ earlier call later, calls = earlier ++ call :: later →
          Forward (Run.after step (start isPluginExecutionCommand resultConfig) earlier)
            (Run.after step (start isPluginExecutionCommand resultConfig) (earlier ++ [call]))) ↔
      Run.Along step Matched (start isPluginExecutionCommand resultConfig) calls := by
  constructor
  · intro h
    exact (inv_start isPluginExecutionCommand resultConfig).along h.1
  · intro h
    refine ⟨fun earlier later heq => ?_, fun earlier call later _ => ?_⟩
    · rw [heq] at h
      exact (h.everywhere (fun _ _ hs hm => hs.step hm) (inv_start _ _)).agrees
    · rw [Run.after_append]
      exact forward_step _ call

/-- A result that cannot be delivered leaves a command that has executed, with an error. -/
theorem undelivered_disagrees :
    ¬∀ (isPluginExecutionCommand : Bool) (resultConfig : ResultConfig) (calls : List Call),
      ∀ earlier later, calls = earlier ++ later →
        Agrees (Run.after step (start isPluginExecutionCommand resultConfig) earlier) := by
  intro h
  have ha := h true ⟨true, none, none⟩ _ [.setState .executing, .setState .executed,
    .processResult (some ⟨Errno.errnoType, Errno.failed, none, []⟩)] [] rfl
  have hboth := ha.processed (by decide)
  exact absurd (hboth.mpr (by decide)) (by decide)

end Life

end ExecutionCommand

end XoDos
