import XoDos.Java
import XoDos.Run

/-!
# Commands and their results

An `ExecutionCommand` has a state, which only goes forward, and a `ResultData` with a list of
errors.  A failure is written in both.

An exception that comes with an error is the text of its stack trace.
-/

namespace XoDos

/-! ## Errors -/

namespace Errno

/-- The type of the errors of this class. -/
def errnoType : JavaString := ascii "Error"

/-- `Activity.RESULT_OK` -/
def success : Int := -1

/-- `Activity.RESULT_CANCELED` -/
def cancelled : Int := 0

/-- `Activity.RESULT_FIRST_USER + 1` -/
def failed : Int := 2

end Errno

structure ResultError where
  type : JavaString
  code : Int
  message : Option JavaString
  stackTraces : List JavaString
deriving DecidableEq, Repr

namespace ResultError

/-- The type of an error without one. -/
def typeOr (type : Option JavaString) (default : JavaString) : JavaString :=
  match type with
  | some type => if type = [] then default else type
  | none => default

/-- `new Error()` -/
def new : ResultError := ⟨Errno.errnoType, Errno.success, none, []⟩

/-- A code that is not that of a failure is replaced. -/
def setStateFailed (e : ResultError) (type : Option JavaString) (code : Int)
    (message : Option JavaString) (stackTraces : List JavaString) : Bool × ResultError :=
  if Errno.success < code then (true, ⟨typeOr type e.type, code, message, stackTraces⟩)
  else (false, ⟨typeOr type e.type, Errno.failed, message, stackTraces⟩)

def isStateFailed (e : ResultError) : Bool := decide (Errno.success < e.code)

end ResultError

/-! ## Results -/

structure ResultData where
  stdout : JavaString
  stderr : JavaString
  exitCode : Option Int
  errorsList : List ResultError
deriving DecidableEq, Repr

namespace ResultData

variable (d : ResultData)

def new : ResultData := ⟨[], [], none, []⟩

def setStateFailed (type : Option JavaString) (code : Int) (message : Option JavaString)
    (stackTraces : List JavaString) : Bool × ResultData :=
  let (done, error) := ResultError.new.setStateFailed type code message stackTraces
  (done, { d with errorsList := d.errorsList ++ [error] })

def isStateFailed : Bool := d.errorsList.any (·.isStateFailed)

def getErrCode : Int :=
  match d.errorsList.getLast? with
  | some error => error.code
  | none => Errno.success

end ResultData

/-- How the result is sent back. -/
structure ResultConfig where
  resultPendingIntent : Bool
  resultDirectoryPath : Option JavaString
  resultFilesSuffix : Option JavaString
deriving DecidableEq, Repr

def ResultConfig.isCommandWithPendingResult (c : ResultConfig) : Bool :=
  c.resultPendingIntent || c.resultDirectoryPath.isSome

/-! ## Commands -/

inductive ExecutionState where
  | preExecution
  | executing
  | executed
  | success
  | failed
deriving DecidableEq, Repr

def ExecutionState.getValue : ExecutionState → Nat
  | .preExecution => 0
  | .executing => 1
  | .executed => 2
  | .success => 3
  | .failed => 4

structure ExecutionCommand where
  currentState : ExecutionState
  previousState : ExecutionState
  isPluginExecutionCommand : Bool
  resultConfig : ResultConfig
  resultData : ResultData
  processingResultsAlreadyCalled : Bool
deriving DecidableEq, Repr

namespace ExecutionCommand

variable (c : ExecutionCommand)

def new (isPluginExecutionCommand : Bool) (resultConfig : ResultConfig) : ExecutionCommand :=
  ⟨.preExecution, .preExecution, isPluginExecutionCommand, resultConfig, .new, false⟩

def isPluginExecutionCommandWithPendingResult : Bool :=
  c.isPluginExecutionCommand && c.resultConfig.isCommandWithPendingResult

def setState (newState : ExecutionState) : Bool × ExecutionCommand :=
  if newState.getValue < c.currentState.getValue ∨ c.currentState = .success then (false, c)
  else
    let previousState := if c.currentState = .failed then c.previousState else c.currentState
    (true, { c with previousState, currentState := newState })

def hasExecuted : Bool := decide (ExecutionState.executed.getValue ≤ c.currentState.getValue)

def isExecuting : Bool := decide (c.currentState = .executing)

/-- The error is written whether or not the state is. -/
def setStateFailed (type : Option JavaString) (code : Int) (message : Option JavaString)
    (stackTraces : List JavaString) : Bool × ExecutionCommand :=
  { c with resultData := (c.resultData.setStateFailed type code message stackTraces).2 }.setState
    .failed

def shouldNotProcessResults : Bool × ExecutionCommand :=
  if c.processingResultsAlreadyCalled then (true, c)
  else (false, { c with processingResultsAlreadyCalled := true })

def isStateFailed : Bool := decide (c.currentState = .failed) && c.resultData.isStateFailed

/-- `resultData.setStateFailed(error)` -/
def addError (error : ResultError) : ExecutionCommand :=
  { c with
    resultData := (c.resultData.setStateFailed (some error.type) error.code error.message []).2 }

/-- The error is that of `sendCommandResultData`. -/
def processPluginExecutionCommandResult (error : Option ResultError) : ExecutionCommand :=
  if c.hasExecuted then
    match if c.isPluginExecutionCommandWithPendingResult then error else none with
    | some error => c.addError error
    | none => if c.isStateFailed then c else (c.setState .success).2
  else c

def processPluginExecutionCommandError (error : Option ResultError) : ExecutionCommand :=
  if c.isStateFailed then
    match if c.isPluginExecutionCommandWithPendingResult then error else none with
    | some error => c.addError error
    | none => c
  else c

/-! ## What one call does -/

variable {c} {newState : ExecutionState} {type message : Option JavaString} {code : Int}
  {stackTraces : List JavaString} {error : Option ResultError}

theorem setStateFailed_isStateFailed (d : ResultData) :
    (d.setStateFailed type code message stackTraces).2.isStateFailed = true := by
  have hfailed : ∀ e : ResultError,
      (e.setStateFailed type code message stackTraces).2.isStateFailed = true := by
    intro e
    unfold ResultError.setStateFailed
    split_ifs with h
    · simpa [ResultError.isStateFailed] using h
    · simp [ResultError.isStateFailed, Errno.success, Errno.failed]
  simp [ResultData.setStateFailed, ResultData.isStateFailed, hfailed]

/-- A transition is refused or made. -/
theorem setState_cases (c : ExecutionCommand) (newState : ExecutionState) :
    ((newState.getValue < c.currentState.getValue ∨ c.currentState = .success) ∧
        c.setState newState = (false, c)) ∨
      (c.currentState.getValue ≤ newState.getValue ∧ c.currentState ≠ .success ∧
        ∃ previousState, c.setState newState =
          (true, { c with previousState, currentState := newState })) := by
  by_cases h : newState.getValue < c.currentState.getValue ∨ c.currentState = .success
  · exact .inl ⟨h, by rw [setState, if_pos h]⟩
  · rw [not_or, not_lt] at h
    refine .inr ⟨h.1, h.2, ?_⟩
    rw [setState, if_neg (by rw [not_or, not_lt]; exact h)]
    exact ⟨_, rfl⟩

/-- The state goes forward, and stays at its end. -/
theorem setState_forward :
    c.currentState.getValue ≤ (c.setState newState).2.currentState.getValue ∧
      (c.currentState = .success → (c.setState newState).2.currentState = .success) := by
  rcases setState_cases c newState with ⟨-, h⟩ | ⟨hle, hne, p, h⟩
  · rw [h]
    exact ⟨le_rfl, id⟩
  · rw [h]
    exact ⟨hle, fun hs => absurd hs hne⟩

@[simp] theorem setState_resultData : (c.setState newState).2.resultData = c.resultData := by
  rcases setState_cases c newState with ⟨-, h⟩ | ⟨-, -, p, h⟩ <;> rw [h]

/-- What is not success can be made a failure. -/
theorem setState_failed (h : c.currentState ≠ .success) :
    (c.setState .failed).2.currentState = .failed ∧ (c.setState .failed).1 = true := by
  rcases setState_cases c .failed with ⟨hlt | hs, -⟩ | ⟨-, -, p, heq⟩
  · cases hc : c.currentState <;> rw [hc] at hlt <;> simp [ExecutionState.getValue] at hlt
  · exact absurd hs h
  · rw [heq]
    exact ⟨rfl, rfl⟩

/-- A failure stays one. -/
theorem setState_of_failed (h : c.currentState = .failed) :
    (c.setState newState).2.currentState = .failed := by
  rcases setState_cases c newState with ⟨-, heq⟩ | ⟨hle, -, p, heq⟩
  · rw [heq, h]
  · rw [h] at hle
    rw [heq]
    cases newState <;> simp [ExecutionState.getValue] at hle ⊢

end ExecutionCommand

end XoDos
