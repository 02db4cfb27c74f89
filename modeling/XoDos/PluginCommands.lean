import XoDos.AppShell
import XoDos.Run

/-!
# Commands of plugins

The service executes the commands of other apps and sends their results back.  Its main thread takes one intent,
runnable or callback after the other.  Only `killAllxodosExecutionCommands` is interleaved with the threads of the
shells, and these with each other.
-/

namespace XoDos

namespace PluginCommands

open AppShell (Worker Killer World)

/-- `R.string.error_execution_cancelled` -/
def cancelledMessage : JavaString :=
  ascii "Execution has been cancelled since execution service is being killed"

/-- What has become of an intent. -/
inductive Kind where
  /-- There is no such runner. -/
  | unsupported
  /-- The shell create mode cannot be followed. -/
  | refused
  /-- There is a shell with the name already. -/
  | attached
  | notStarted
  | task
  | session
deriving DecidableEq, Repr

/-- A command, the lists of the service that it is in, and how often its result has been sent.  A command that is not
executed by a shell has a thread that has ended. -/
structure Entry where
  kind : Kind
  command : ExecutionCommand
  pending : Bool := false
  task : Bool := false
  session : Bool := false
  worker : Worker := .ended
  killer : Option Killer := none
  /-- The runnables of `onAppShellExited` that have not run. -/
  posted : Nat := 0
  answers : Nat := 0
  /-- All commands have been killed since it came. -/
  stopped : Bool := false
deriving DecidableEq

inductive CreateMode where
  | always
  /-- `NO_SHELL_WITH_NAME`, with whether there is a name and whether a shell has it. -/
  | noShellWithName (named found : Bool)
  | other
deriving DecidableEq, Repr

inductive Start where
  | executableUnset
  | execFailed
  | executes
deriving DecidableEq, Repr

/-- An intent, with what it meets in the service.  `errmsg` is the text of the error that it leads to. -/
structure Intent where
  runnerKnown : Bool
  /-- `Runner.APP_SHELL` and not `Runner.TERMINAL_SESSION` -/
  appShell : Bool
  createMode : CreateMode
  resultConfig : ResultConfig
  start : Start
  errmsg : JavaString

namespace Entry

variable (e : Entry)

/-- The caller waits for the result. -/
def expects : Bool := e.command.isPluginExecutionCommandWithPendingResult

/-- `setStateFailed` with the error of the service. -/
def fail (errmsg : JavaString) : Entry :=
  { e with command := (e.command.setStateFailed none Errno.failed (some errmsg) []).2 }

/-- `shouldNotProcessResults` -/
def claim : Entry := { e with command := e.command.shouldNotProcessResults.2 }

/-- `processPluginExecutionCommandResult`, with the error of `sendCommandResultData` -/
def processResult (error : Option ResultError) : Entry :=
  { e with
    command := e.command.processPluginExecutionCommandResult error
    answers := e.answers + if e.command.hasExecuted && e.expects then 1 else 0 }

/-- `processPluginExecutionCommandError` -/
def processError (error : Option ResultError) : Entry :=
  { e with
    command := e.command.processPluginExecutionCommandError error
    answers := e.answers + if e.command.isStateFailed && e.expects then 1 else 0 }

/-- `createxodosTask` or `createxodosSession` of a pending command -/
def create (intent : Intent) (error : Option ResultError) : Entry :=
  let executing := { e with command := (e.command.setState .executing).2 }
  if intent.appShell then
    match intent.start with
    | .executableUnset => (({ e with kind := .notStarted }.fail intent.errmsg).claim).processError error
    | .execFailed => (({ executing with kind := .notStarted }.fail intent.errmsg).claim).processError error
    | .executes => { executing with kind := .task, worker := .starting, task := true, pending := false }
  else { executing with kind := .session, session := true, pending := false }

/-- `actionServiceExecute` -/
def execute (intent : Intent) (error : Option ResultError) : Entry :=
  if intent.runnerKnown then
    let e : Entry := { kind := .attached, command := .new true intent.resultConfig, pending := true }
    match intent.createMode with
    | .always => e.create intent error
    | .noShellWithName true true => e
    | .noShellWithName true false => e.create intent error
    | .noShellWithName false _ | .other => ({ e with kind := .refused }.fail intent.errmsg).processError error
  else
    -- The result configuration has not been read yet.
    (Entry.fail { kind := .unsupported, command := .new true ⟨false, none, none⟩ } intent.errmsg).processError error

def exited : AppShell.Effect → Entry
  | .exited => { e with posted := e.posted + 1 }
  | _ => e

/-- The thread of the shell goes on. -/
def work (world : World) : Entry :=
  let (worker, command, effect) := e.worker.step e.command world
  { e with worker, command }.exited effect

/-- `killIfExecuting` of a shell goes on. -/
def kill : Entry :=
  match e.killer with
  | none => e
  | some killer =>
    let (killer, command, effect) := killer.step e.command true
    { e with killer := some killer, command }.exited effect

/-- The runnable of `onAppShellExited` -/
def runnable (error : Option ResultError) : Entry :=
  if e.posted = 0 then e else { e.processResult error with posted := e.posted - 1, task := false }

/-- `onxodosSessionExited`, if the result has not been processed -/
def sessionExited (error : Option ResultError) : Entry :=
  if e.command.shouldNotProcessResults.1 then e.claim
  else { e.claim.processResult error with session := false }

/-- `finish` of a session in the list -/
def finish (exitCode : Int) (error : Option ResultError) : Entry :=
  if e.session = false ∨ e.command.isStateFailed then e
  else
    let e := { e with command := { e.command with resultData.exitCode := some exitCode } }
    let (done, command) := e.command.setState .executed
    if done then { e with command }.sessionExited error else { e with command }

/-- `killIfExecuting` of a session -/
def killSession (processResult : Bool) (error : Option ResultError) : Entry :=
  if e.command.hasExecuted then e
  else
    let (done, command) := e.command.setStateFailed none Errno.failed (some AppShell.sigkillMessage) []
    if done && processResult then
      { e with command := { command with resultData.exitCode := some 137 } }.sessionExited error
    else { e with command }

/-- The loops over the sessions and over the tasks that are not killed -/
def leave (mWantsToStop : Bool) (error : Option ResultError) : Entry :=
  if e.session then
    let processResult := mWantsToStop || e.expects
    let e := e.killSession processResult error
    if processResult then e else { e with session := false }
  else if e.task && !e.expects then { e with task := false }
  else e

/-- The loop over the pending commands -/
def cancel (error : Option ResultError) : Entry :=
  if e.pending then
    if e.command.shouldNotProcessResults.1 then e.claim
    else if e.expects then
      let (done, command) := e.claim.command.setStateFailed none Errno.cancelled (some cancelledMessage) []
      if done then { e with command }.processResult error else { e with command }
    else e.claim
  else e

end Entry

/-- The commands, and while all are killed the tasks whose turn has not come and that whose has. -/
structure Service where
  entries : List Entry
  killing : Option (List Nat)

inductive Action where
  | execute (intent : Intent) (error : Option ResultError)
  | work (i : Nat) (world : World)
  | runnable (i : Nat) (error : Option ResultError)
  | finish (i : Nat) (exitCode : Int) (error : Option ResultError)
  | stop (mWantsToStop : Bool) (errors : Nat → Option ResultError)
  | kill
  | cancel (errors : Nat → Option ResultError)

namespace Service

variable (s : Service)

def start : Service := ⟨[], none⟩

/-- The main thread goes on to the next task. -/
def turn (entries : List Entry) : List Nat → Service
  | [] => ⟨entries, some []⟩
  | i :: is => ⟨entries.modify i fun e => { e with killer := some .testing }, some (i :: is)⟩

/-- The tasks that are killed. -/
def tasksToKill : List Nat :=
  (List.range s.entries.length).filter fun i => s.entries[i]?.any fun e => e.task && e.expects

def step : Action → Service
  | .work i world => { s with entries := s.entries.modify i fun e => e.work world }
  | .kill =>
    match s.killing with
    | some (i :: is) =>
      if s.entries[i]?.any fun e => e.killer = some .returned then
        turn (s.entries.modify i fun e => { e with killer := none }) is
      else { s with entries := s.entries.modify i Entry.kill }
    | _ => s
  | .cancel errors =>
    match s.killing with
    | some [] => ⟨s.entries.mapIdx fun i e => { e.cancel (errors i) with stopped := true }, none⟩
    | _ => s
  | .execute intent error =>
    if s.killing.isSome then s else { s with entries := s.entries ++ [Entry.execute intent error] }
  | .runnable i error =>
    if s.killing.isSome then s else { s with entries := s.entries.modify i fun e => e.runnable error }
  | .finish i exitCode error =>
    if s.killing.isSome then s else { s with entries := s.entries.modify i fun e => e.finish exitCode error }
  | .stop mWantsToStop errors =>
    if s.killing.isSome then s
    else turn (s.entries.mapIdx fun i e => e.leave mWantsToStop (errors i)) s.tasksToKill

end Service

/-! ## What a call changes of a command -/

section Commands

variable (c : ExecutionCommand)

/-- The configuration of the result stays, and so does whether the results are processed. -/
structure Same (c c' : ExecutionCommand) : Prop where
  expects : c'.isPluginExecutionCommandWithPendingResult = c.isPluginExecutionCommandWithPendingResult
  claimed : c'.processingResultsAlreadyCalled = c.processingResultsAlreadyCalled

theorem Same.trans {c c' c'' : ExecutionCommand} (h : Same c c') (h' : Same c' c'') : Same c c'' :=
  ⟨h'.expects.trans h.expects, h'.claimed.trans h.claimed⟩

theorem setState_same (newState : ExecutionState) : Same c (c.setState newState).2 := by
  rcases ExecutionCommand.setState_cases c newState with ⟨-, h⟩ | ⟨-, -, previous, h⟩ <;> rw [h] <;> exact ⟨rfl, rfl⟩

theorem setStateFailed_same (type : Option JavaString) (code : Int) (message : Option JavaString)
    (stackTraces : List JavaString) : Same c (c.setStateFailed type code message stackTraces).2 :=
  (show Same c { c with resultData := (c.resultData.setStateFailed type code message stackTraces).2 } from
    ⟨rfl, rfl⟩).trans (setState_same _ .failed)

theorem processResult_same (error : Option ResultError) : Same c (c.processPluginExecutionCommandResult error) := by
  unfold ExecutionCommand.processPluginExecutionCommandResult
  split
  · split
    · exact ⟨rfl, rfl⟩
    · split
      · exact ⟨rfl, rfl⟩
      · exact setState_same c .success
  · exact ⟨rfl, rfl⟩

theorem processError_same (error : Option ResultError) : Same c (c.processPluginExecutionCommandError error) := by
  unfold ExecutionCommand.processPluginExecutionCommandError
  split
  · split <;> exact ⟨rfl, rfl⟩
  · exact ⟨rfl, rfl⟩

theorem claim_expects : c.shouldNotProcessResults.2.isPluginExecutionCommandWithPendingResult =
    c.isPluginExecutionCommandWithPendingResult := by
  unfold ExecutionCommand.shouldNotProcessResults
  split <;> rfl

theorem claim_claimed : c.shouldNotProcessResults.2.processingResultsAlreadyCalled = true := by
  unfold ExecutionCommand.shouldNotProcessResults
  split
  · assumption
  · rfl

theorem claim_state : c.shouldNotProcessResults.2.currentState = c.currentState := by
  unfold ExecutionCommand.shouldNotProcessResults
  split <;> rfl

theorem claim_first : c.shouldNotProcessResults.1 = c.processingResultsAlreadyCalled := by
  unfold ExecutionCommand.shouldNotProcessResults
  split
  · exact Eq.symm ‹_›
  · exact Eq.symm (Bool.eq_false_iff.mpr ‹_›)

/-- A failure is written, unless the command has succeeded. -/
theorem setStateFailed_state (type : Option JavaString) (code : Int) (message : Option JavaString)
    (stackTraces : List JavaString) :
    (c.currentState = .success ∧ (c.setStateFailed type code message stackTraces).1 = false ∧
        (c.setStateFailed type code message stackTraces).2.currentState = .success) ∨
      (c.currentState ≠ .success ∧ (c.setStateFailed type code message stackTraces).1 = true ∧
        (c.setStateFailed type code message stackTraces).2.currentState = .failed) := by
  by_cases hs : c.currentState = .success
  · left
    rw [ExecutionCommand.setStateFailed, ExecutionCommand.setState, if_pos (Or.inr hs)]
    exact ⟨hs, rfl, hs⟩
  · right
    have hfailed := @ExecutionCommand.setState_failed { c with
      resultData := (c.resultData.setStateFailed type code message stackTraces).2 } hs
    exact ⟨hs, hfailed.2, hfailed.1⟩

/-- `setState(EXECUTED)` -/
theorem setState_executed :
    ((c.currentState = .success ∨ c.currentState = .failed) ∧ c.setState .executed = (false, c)) ∨
      (c.currentState ≠ .success ∧ c.currentState ≠ .failed ∧ (c.setState .executed).1 = true ∧
        (c.setState .executed).2.currentState = .executed) := by
  rcases ExecutionCommand.setState_cases c .executed with ⟨h, heq⟩ | ⟨hle, hne, previous, heq⟩
  · left
    refine ⟨?_, heq⟩
    cases hc : c.currentState <;> simp [hc, ExecutionState.getValue] at h ⊢
  · right
    refine ⟨hne, ?_, by rw [heq], by rw [heq]⟩
    intro hc
    simp [hc, ExecutionState.getValue] at hle

theorem hasExecuted_iff : c.hasExecuted = true ↔
    c.currentState = .executed ∨ c.currentState = .success ∨ c.currentState = .failed := by
  cases hc : c.currentState <;> simp [ExecutionCommand.hasExecuted, hc, ExecutionState.getValue]

/-- What has executed stays so. -/
theorem processResult_executed (error : Option ResultError) (h : c.hasExecuted = true) :
    (c.processPluginExecutionCommandResult error).hasExecuted = true := by
  rw [ExecutionCommand.processPluginExecutionCommandResult, if_pos h]
  split
  · exact h
  · split
    · exact h
    · have hforward := (@ExecutionCommand.setState_forward c .success).1
      simp only [ExecutionCommand.hasExecuted, decide_eq_true_eq] at h ⊢
      omega

end Commands

/-! ## Tasks -/

/-- The thread is about to claim the results. -/
def lateWorker : Worker → Bool
  | .storingOne | .claimingFailure | .claiming => true
  | _ => false

/-- The thread is about to hand the results over. -/
def handingWorker : Worker → Bool
  | .handingFailure | .handing => true
  | _ => false

/-- The thread has nothing more to do with the results. -/
def doneWorker : Worker → Bool
  | .killing | .ended => true
  | _ => false

def lateKiller : Option Killer → Bool
  | some .storing | some .claiming => true
  | _ => false

def handingKiller : Option Killer → Bool
  | some .handing => true
  | _ => false

/-- The results of a shell are claimed by its thread or by the one that kills it, handed over once, and then sent
once. -/
structure Entry.Task (e : Entry) : Prop where
  pending : e.pending = false
  session : e.session = false
  listed : e.task = true ↔ e.answers = 0
  count : e.answers + e.posted + (handingWorker e.worker).toNat + (handingKiller e.killer).toNat =
    e.command.processingResultsAlreadyCalled.toNat
  executed : e.command.processingResultsAlreadyCalled = true ∨ lateWorker e.worker = true ∨
    lateKiller e.killer = true → e.command.hasExecuted = true
  failed : e.command.currentState = .failed →
    e.command.processingResultsAlreadyCalled = true ∨ lateWorker e.worker = true ∨ lateKiller e.killer = true
  success : e.command.currentState = .success → e.command.processingResultsAlreadyCalled = true
  done : doneWorker e.worker = true →
    e.command.processingResultsAlreadyCalled = true ∨ lateKiller e.killer = true

namespace Entry

variable {e : Entry}

/-- The threads go on without a change of the command's state. -/
theorem Task.moves (h : e.Task) (worker : Worker) (killer : Option Killer) (command : ExecutionCommand)
    (hstate : command.currentState = e.command.currentState)
    (hclaimed : command.processingResultsAlreadyCalled = e.command.processingResultsAlreadyCalled)
    (hlate : lateWorker worker = lateWorker e.worker) (hlate' : lateKiller killer = lateKiller e.killer)
    (hhanding : handingWorker worker = handingWorker e.worker)
    (hhanding' : handingKiller killer = handingKiller e.killer)
    (hdone : doneWorker worker = true → doneWorker e.worker = true ∨
      e.command.processingResultsAlreadyCalled = true ∨ lateKiller e.killer = true) :
    ({ e with worker, killer, command } : Entry).Task := by
  refine ⟨h.pending, h.session, h.listed, ?_, ?_, ?_, ?_, ?_⟩
  · simp only [hhanding, hhanding', hclaimed]
    exact h.count
  · simp only [hclaimed, hlate, hlate', hasExecuted_iff, hstate]
    rw [← hasExecuted_iff]
    exact h.executed
  · simp only [hclaimed, hlate, hlate', hstate]
    exact h.failed
  · simp only [hclaimed, hstate]
    exact h.success
  · simp only [hclaimed, hlate']
    intro hover
    rcases hdone hover with hold | hnow
    · exact h.done hold
    · exact hnow

/-- One of the threads claims the results, which have not been claimed. -/
theorem Task.claims (h : e.Task) (worker : Worker) (killer : Option Killer)
    (hlate : lateWorker e.worker = true ∨ lateKiller e.killer = true)
    (hfirst : e.command.processingResultsAlreadyCalled = false)
    (hhanding : (handingWorker worker).toNat + (handingKiller killer).toNat = 1) :
    ({ e with worker, killer, command := e.command.shouldNotProcessResults.2 } : Entry).Task := by
  have hclaimed := claim_claimed e.command
  have hexecuted := h.executed (Or.inr hlate)
  have hcount := h.count
  rw [hfirst, Bool.toNat_false] at hcount
  refine ⟨h.pending, h.session, h.listed, ?_, fun _ => ?_, fun _ => .inl hclaimed, fun _ => hclaimed, fun _ => .inl hclaimed⟩
  · simp only [hclaimed, Bool.toNat_true]
    omega
  · simp only [hasExecuted_iff, claim_state] at hexecuted ⊢
    exact hexecuted

/-- The results have been claimed by another thread. -/
theorem Task.yields (h : e.Task) (worker : Worker) (killer : Option Killer)
    (hclaimed : e.command.processingResultsAlreadyCalled = true)
    (hhanding : handingWorker worker = handingWorker e.worker)
    (hhanding' : handingKiller killer = handingKiller e.killer) :
    ({ e with worker, killer, command := e.command.shouldNotProcessResults.2 } : Entry).Task := by
  have hsame : e.command.shouldNotProcessResults.2 = e.command := by
    rw [ExecutionCommand.shouldNotProcessResults, if_pos hclaimed]
  rw [hsame]
  refine ⟨h.pending, h.session, h.listed, ?_, fun _ => h.executed (.inl hclaimed), fun _ => .inl hclaimed,
    fun _ => hclaimed, fun _ => .inl hclaimed⟩
  simp only [hhanding, hhanding']
  exact h.count

/-- One of the threads hands the results over. -/
theorem Task.hands (h : e.Task) (worker : Worker) (killer : Option Killer)
    (hhanding : (handingWorker worker).toNat + (handingKiller killer).toNat + 1 =
      (handingWorker e.worker).toNat + (handingKiller e.killer).toNat) :
    ({ e with worker, killer, posted := e.posted + 1 } : Entry).Task := by
  have hcount := h.count
  have hclaimed : e.command.processingResultsAlreadyCalled = true := by
    by_contra hnot
    rw [Bool.not_eq_true] at hnot
    rw [hnot, Bool.toNat_false] at hcount
    omega
  refine ⟨h.pending, h.session, h.listed, ?_, fun _ => h.executed (.inl hclaimed), fun _ => .inl hclaimed,
    fun _ => hclaimed, fun _ => .inl hclaimed⟩
  simp only
  omega

/-- One of the threads has changed the state, and is about to claim the results. -/
theorem Task.changes (h : e.Task) (worker : Worker) (killer : Option Killer) {command : ExecutionCommand}
    (hsame : Same e.command command) (hexecuted : command.hasExecuted = true)
    (hsuccess : command.currentState = .success → e.command.currentState = .success)
    (hlate : command.currentState = .failed →
      e.command.processingResultsAlreadyCalled = true ∨ lateWorker worker = true ∨ lateKiller killer = true)
    (hhanding : handingWorker worker = handingWorker e.worker)
    (hhanding' : handingKiller killer = handingKiller e.killer)
    (hdone : doneWorker worker = true → doneWorker e.worker = true)
    (hkiller : lateKiller e.killer = true → lateKiller killer = true) :
    ({ e with worker, killer, command } : Entry).Task := by
  refine ⟨h.pending, h.session, h.listed, ?_, fun _ => hexecuted, ?_, ?_, ?_⟩
  · simp only [hhanding, hhanding', hsame.claimed]
    exact h.count
  · simp only [hsame.claimed]
    exact hlate
  · simp only [hsame.claimed]
    exact fun hs => h.success (hsuccess hs)
  · simp only [hsame.claimed]
    intro hover
    rcases h.done (hdone hover) with hclaimed | hlate
    · exact .inl hclaimed
    · exact .inr (hkiller hlate)

theorem setStateFailed_executed (c : ExecutionCommand) (type : Option JavaString) (code : Int)
    (message : Option JavaString) (stackTraces : List JavaString) :
    (c.setStateFailed type code message stackTraces).2.hasExecuted = true ∧
      ((c.setStateFailed type code message stackTraces).2.currentState = .success → c.currentState = .success) := by
  rw [hasExecuted_iff]
  rcases setStateFailed_state c type code message stackTraces with ⟨hs, -, hs'⟩ | ⟨-, -, hf⟩
  · exact ⟨.inr (.inl hs'), fun _ => hs⟩
  · refine ⟨.inr (.inr hf), fun hs => ?_⟩
    rw [hf] at hs
    cases hs

theorem Task.work (h : e.Task) (world : World) : (e.work world).Task := by
  cases hw : e.worker with
  | starting =>
    simp only [Entry.work, hw, Worker.step, exited]
    refine h.moves _ _ _ ?_ ?_ ?_ ?_ ?_ ?_ ?_ <;> simp [hw, lateWorker, handingWorker, doneWorker]
  | writing =>
    cases hf : world.failure with
    | none =>
      simp only [Entry.work, hw, Worker.step, hf, exited]
      refine h.moves _ _ _ ?_ ?_ ?_ ?_ ?_ ?_ ?_ <;> simp [hw, lateWorker, handingWorker, doneWorker]
    | some failure =>
      simp only [Entry.work, hw, Worker.step, hf, exited]
      refine h.moves _ _ _ ?_ ?_ ?_ ?_ ?_ ?_ ?_ <;> simp [hw, lateWorker, handingWorker, doneWorker]
  | failing message stackTrace =>
    simp only [Entry.work, hw, Worker.step, exited]
    apply h.changes _ _ (setStateFailed_same ..) (setStateFailed_executed ..).1 (setStateFailed_executed ..).2 <;>
      simp [hw, lateWorker, handingWorker, doneWorker]
  | storingOne =>
    simp only [Entry.work, hw, Worker.step, exited]
    refine h.moves _ _ _ ?_ ?_ ?_ ?_ ?_ ?_ ?_ <;> simp [hw, lateWorker, handingWorker, doneWorker]
  | claimingFailure =>
    simp only [Entry.work, hw, Worker.step, exited, claim_first]
    cases hc : e.command.processingResultsAlreadyCalled with
    | false =>
      -- As long as nobody has claimed the command, the killer is not handing it over either.
      have hcount := h.count
      rw [hc] at hcount
      have hkiller : (handingKiller e.killer).toNat = 0 := by
        rw [Bool.toNat_false] at hcount
        omega
      exact h.claims _ _ (.inl (by rw [hw]; rfl)) hc (by rw [hkiller]; rfl)
    | true => exact h.yields _ _ hc (by rw [hw]; rfl) rfl
  | handingFailure =>
    simp only [Entry.work, hw, Worker.step, exited]
    exact h.hands _ _ (by rw [hw]; simp [handingWorker]; omega)
  | killing =>
    simp only [Entry.work, hw, Worker.step, exited]
    refine h.moves _ _ _ ?_ ?_ ?_ ?_ ?_ ?_ ?_ <;> simp [hw, lateWorker, handingWorker, doneWorker]
  | waiting =>
    simp only [Entry.work, hw, Worker.step, exited]
    refine h.moves _ _ _ ?_ ?_ ?_ ?_ ?_ ?_ ?_ <;> simp [hw, lateWorker, handingWorker, doneWorker]
  | checking exitCode =>
    simp only [Entry.work, hw, Worker.step, exited]
    -- A command that has failed under its worker is claimed, or its killer is about to claim it.
    by_cases hf : e.command.isStateFailed = true
    · have hstate : e.command.currentState = .failed := by
        simp only [ExecutionCommand.isStateFailed, Bool.and_eq_true, decide_eq_true_eq] at hf
        exact hf.1
      have hclaimed := h.failed hstate
      rw [hw] at hclaimed
      simp only [lateWorker, Bool.false_eq_true, false_or] at hclaimed
      rw [if_pos hf]
      refine h.moves _ _ _ ?_ ?_ ?_ ?_ ?_ ?_ ?_ <;> simp [hw, lateWorker, handingWorker, hclaimed]
    · rw [if_neg hf]
      refine h.moves _ _ _ ?_ ?_ ?_ ?_ ?_ ?_ ?_ <;> simp [hw, lateWorker, handingWorker, doneWorker]
  | storing exitCode =>
    simp only [Entry.work, hw, Worker.step, exited]
    refine h.moves _ _ _ ?_ ?_ ?_ ?_ ?_ ?_ ?_ <;> simp [hw, lateWorker, handingWorker, doneWorker]
  | executing =>
    simp only [Entry.work, hw, Worker.step, exited]
    rcases setState_executed e.command with ⟨hover, heq⟩ | ⟨-, -, hset, hstate⟩
    · have hclaimed : e.command.processingResultsAlreadyCalled = true ∨ lateKiller e.killer = true := by
        rcases hover with hs | hf
        · exact .inl (h.success hs)
        · have hlate := h.failed hf
          rw [hw] at hlate
          simpa [lateWorker] using hlate
      rw [heq, if_neg Bool.false_ne_true]
      refine h.moves _ _ _ ?_ ?_ ?_ ?_ ?_ ?_ ?_ <;> simp [hw, lateWorker, handingWorker, hclaimed]
    · rw [if_pos hset]
      apply h.changes _ _ (setState_same e.command .executed) <;>
        simp [hasExecuted_iff, hstate, hw, handingWorker, doneWorker]
  | claiming =>
    simp only [Entry.work, hw, Worker.step, exited, claim_first]
    cases hc : e.command.processingResultsAlreadyCalled with
    | false =>
      have hcount := h.count
      rw [hc] at hcount
      have hkiller : (handingKiller e.killer).toNat = 0 := by
        rw [Bool.toNat_false] at hcount
        omega
      exact h.claims _ _ (.inl (by rw [hw]; rfl)) hc (by rw [hkiller]; rfl)
    | true => exact h.yields _ _ hc (by rw [hw]; rfl) rfl
  | handing =>
    simp only [Entry.work, hw, Worker.step, exited]
    exact h.hands _ _ (by rw [hw]; simp [handingWorker]; omega)
  | ended =>
    simp only [Entry.work, hw, Worker.step, exited]
    refine h.moves _ _ _ ?_ ?_ ?_ ?_ ?_ ?_ ?_ <;> simp [hw, lateWorker, handingWorker, doneWorker]

theorem Task.kill (h : e.Task) : e.kill.Task := by
  unfold Entry.kill
  cases hk : e.killer with
  | none => exact h
  | some killer =>
    cases killer with
    | testing =>
      simp only [Killer.step, exited]
      split_ifs <;> refine h.moves _ _ _ ?_ ?_ ?_ ?_ ?_ ?_ ?_ <;> simp +contextual [hk, lateKiller, handingKiller]
    | failing =>
      simp only [Killer.step, exited, Bool.and_true]
      rcases setStateFailed_state e.command none Errno.failed (some AppShell.sigkillMessage) [] with
        ⟨-, hdone, hstate⟩ | ⟨-, hdone, -⟩
      · rw [hdone, if_neg Bool.false_ne_true]
        apply h.changes _ _ (setStateFailed_same ..) (setStateFailed_executed ..).1 (setStateFailed_executed ..).2 <;>
          simp [hstate, hk, lateKiller, handingKiller]
      · rw [hdone, if_pos rfl]
        apply h.changes _ _ (setStateFailed_same ..) (setStateFailed_executed ..).1 (setStateFailed_executed ..).2 <;>
          simp [hk, lateKiller, handingKiller]
    | storing =>
      simp only [Killer.step, exited]
      refine h.moves _ _ _ ?_ ?_ ?_ ?_ ?_ ?_ ?_ <;> simp +contextual [hk, lateKiller, handingKiller]
    | claiming =>
      simp only [Killer.step, exited, claim_first]
      cases hc : e.command.processingResultsAlreadyCalled with
      | false =>
        -- As in the worker: without a claim nobody is handing over.
        have hcount := h.count
        rw [hc] at hcount
        have hworker : (handingWorker e.worker).toNat = 0 := by
          rw [Bool.toNat_false] at hcount
          omega
        exact h.claims _ _ (.inr (by rw [hk]; rfl)) hc (by rw [hworker]; rfl)
      | true => exact h.yields _ _ hc rfl (by rw [hk]; rfl)
    | handing =>
      simp only [Killer.step, exited]
      exact h.hands _ _ (by rw [hk]; simp [handingKiller])
    | asking =>
      simp only [Killer.step, exited]
      split_ifs <;> refine h.moves _ _ _ ?_ ?_ ?_ ?_ ?_ ?_ ?_ <;> simp +contextual [hk, lateKiller, handingKiller]
    | killing =>
      simp only [Killer.step, exited]
      refine h.moves _ _ _ ?_ ?_ ?_ ?_ ?_ ?_ ?_ <;> simp +contextual [hk, lateKiller, handingKiller]
    | returned =>
      simp only [Killer.step, exited]
      refine h.moves _ _ _ ?_ ?_ ?_ ?_ ?_ ?_ ?_ <;> simp +contextual [hk, lateKiller, handingKiller]

/-- A runnable sends the results that have been handed over. -/
theorem Task.runnable (h : e.Task) (hexpects : e.expects = true) (error : Option ResultError) :
    (e.runnable error).Task := by
  unfold Entry.runnable
  split_ifs with hposted
  · exact h
  · have hcount := h.count
    have hclaimed : e.command.processingResultsAlreadyCalled = true := by
      by_contra hnot
      rw [Bool.not_eq_true] at hnot
      rw [hnot, Bool.toNat_false] at hcount
      omega
    have hexecuted := h.executed (.inl hclaimed)
    have hsame := processResult_same e.command error
    have hclaimed' := hsame.claimed.trans hclaimed
    refine ⟨h.pending, h.session, ?_, ?_, fun _ => processResult_executed e.command error hexecuted,
      fun _ => .inl hclaimed', fun _ => hclaimed', fun _ => .inl hclaimed'⟩
    · simp [Entry.processResult, hexecuted, hexpects]
    · simp only [Entry.processResult, hexecuted, hexpects, Bool.and_self, if_true, hsame.claimed]
      omega

/-- A task that is not killed can be killed, and no longer. -/
theorem Task.setKiller (h : e.Task) {killer : Option Killer} (hlate : lateKiller e.killer = false)
    (hhanding : handingKiller e.killer = false) (hlate' : lateKiller killer = false)
    (hhanding' : handingKiller killer = false) : ({ e with killer } : Entry).Task :=
  h.moves e.worker killer e.command rfl rfl rfl (hlate'.trans hlate.symm) rfl (hhanding'.trans hhanding.symm) .inl

end Entry

end PluginCommands

end XoDos
