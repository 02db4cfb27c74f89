import XoDos.ExecutionCommand

/-!
# Background shells

The thread of a shell waits for its process in `executeInner`, and another thread may call
`killIfExecuting`.  Every synchronized method of the command is one step, and so is every write to
its exit code outside of them.

The shell has a client.  What the process writes is left out.
-/

namespace XoDos

namespace AppShell

/-- `R.string.error_sending_sigkill_to_process` -/
def sigkillMessage : JavaString :=
  ascii "Sending SIGKILL to process on user request or because android is killing the execution service"

/-- What a step does besides changing the command. -/
inductive Effect where
  | nothing
  /-- `onAppShellExited` -/
  | exited
  /-- `Os.kill(pid, OsConstants.SIGKILL)` -/
  | sigkill
deriving DecidableEq, Repr

/-- Where the thread is in `executeInner`. -/
inductive Worker where
  | starting
  | writing
  /-- The input could not be written. -/
  | failing (message stackTrace : JavaString)
  | storingOne
  | claimingFailure
  | handingFailure
  | killing
  | waiting
  | checking (exitCode : Int)
  | storing (exitCode : Int)
  | executing
  | claiming
  | handing
  | ended
deriving DecidableEq, Repr

/-- What the thread meets outside: a failure of the write to the process, if it is not that of a
broken pipe, and the exit code. -/
structure World where
  failure : Option (JavaString × JavaString)
  exitCode : Int

/-- `executeInner`, and in it `processAppShellResult` -/
def Worker.step (w : Worker) (c : ExecutionCommand) (world : World) :
    Worker × ExecutionCommand × Effect :=
  match w with
  | .starting => (.writing, { c with resultData.exitCode := none }, .nothing)
  | .writing =>
    match world.failure with
    | some (message, stackTrace) => (.failing message stackTrace, c, .nothing)
    | none => (.waiting, c, .nothing)
  | .failing message stackTrace =>
    (.storingOne, (c.setStateFailed none Errno.failed (some message) [stackTrace]).2, .nothing)
  | .storingOne => (.claimingFailure, { c with resultData.exitCode := some 1 }, .nothing)
  | .claimingFailure =>
    (if c.shouldNotProcessResults.1 then .killing else .handingFailure,
      c.shouldNotProcessResults.2, .nothing)
  | .handingFailure => (.killing, c, .exited)
  | .killing => (.ended, c, .sigkill)
  | .waiting => (.checking world.exitCode, c, .nothing)
  | .checking exitCode => (if c.isStateFailed then .ended else .storing exitCode, c, .nothing)
  | .storing exitCode => (.executing, { c with resultData.exitCode := some exitCode }, .nothing)
  | .executing =>
    (if (c.setState .executed).1 then .claiming else .ended, (c.setState .executed).2, .nothing)
  | .claiming =>
    (if c.shouldNotProcessResults.1 then .ended else .handing, c.shouldNotProcessResults.2, .nothing)
  | .handing => (.ended, c, .exited)
  | .ended => (.ended, c, .nothing)

/-- Where another thread is in `killIfExecuting`. -/
inductive Killer where
  | testing
  | failing
  | storing
  | claiming
  | handing
  | asking
  | killing
  | returned
deriving DecidableEq, Repr

/-- `killIfExecuting` -/
def Killer.step (k : Killer) (c : ExecutionCommand) (processResult : Bool) :
    Killer × ExecutionCommand × Effect :=
  match k with
  | .testing => (if c.hasExecuted then .returned else .failing, c, .nothing)
  | .failing =>
    let (done, c) := c.setStateFailed none Errno.failed (some sigkillMessage) []
    (if done && processResult then .storing else .asking, c, .nothing)
  | .storing => (.claiming, { c with resultData.exitCode := some 137 }, .nothing)
  | .claiming =>
    (if c.shouldNotProcessResults.1 then .asking else .handing, c.shouldNotProcessResults.2, .nothing)
  | .handing => (.asking, c, .exited)
  | .asking => (if c.isExecuting then .killing else .returned, c, .nothing)
  | .killing => (.returned, c, .sigkill)
  | .returned => (.returned, c, .nothing)

end AppShell

end XoDos
