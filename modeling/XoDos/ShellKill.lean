import XoDos.AppShell

/-!
# Killing a background shell

One thread in `executeInner` and one call of `killIfExecuting`, in any order of their steps.
-/

namespace XoDos

namespace AppShell

/-- `foundExecuting` is set when `killIfExecuting` finds a command that has not executed, `waited` is
the exit code that `waitFor` has returned, and `handed` are the results that the client was
given. -/
structure Race where
  command : ExecutionCommand
  worker : Worker
  killer : Killer
  processResult : Bool
  foundExecuting : Bool
  waited : Option Int
  handed : List ResultData
  signalled : Bool
deriving DecidableEq

inductive Turn where
  | worker (world : World)
  | killer

namespace Race

variable (s : Race)

/-- The thread starts when the state has been set. -/
def start (isPluginExecutionCommand : Bool) (resultConfig : ResultConfig) (processResult : Bool) :
    Race :=
  ⟨((ExecutionCommand.new isPluginExecutionCommand resultConfig).setState .executing).2, .starting,
    .testing, processResult, false, none, [], false⟩

def effect (command : ExecutionCommand) : Effect → Race
  | .nothing => { s with command }
  | .exited => { s with command, handed := s.handed ++ [command.resultData] }
  | .sigkill => { s with command, signalled := true }

def step : Turn → Race
  | .worker world =>
    let (worker, command, effect) := s.worker.step s.command world
    let waited := if s.worker = .waiting then some world.exitCode else s.waited
    { s with worker, waited }.effect command effect
  | .killer =>
    let (killer, command, effect) := s.killer.step s.command s.processResult
    let foundExecuting := s.foundExecuting || decide (s.killer = .testing ∧ s.command.hasExecuted = false)
    { s with killer, foundExecuting }.effect command effect

/-- The exit code of the process, and no error. -/
def Normal (waited : Option Int) (d : ResultData) : Prop :=
  ∃ exitCode, waited = some exitCode ∧ d.exitCode = some exitCode ∧ d.errorsList = []

/-- The exit code of a killed process, and the error of the kill. -/
def Killed (d : ResultData) : Prop :=
  d.exitCode = some 137 ∧
    d.errorsList = [⟨Errno.errnoType, Errno.failed, some sigkillMessage, []⟩]

/-- A process that was to be killed has been sent the signal, and there is one outcome. -/
structure Decided : Prop where
  signal : s.killer = .returned → s.foundExecuting = true → s.signalled = true
  outcome : ∀ d ∈ s.handed, Normal s.waited d ∨ Killed d
  one : s.handed.length ≤ 1

/-- `killIfExecuting` finds a command that has executed, and the input of the process can be
written. -/
def Late : Turn → Prop
  | .worker world => s.worker = .writing → world.failure = none
  | .killer => s.killer = .testing → s.command.hasExecuted = true

/-! ## A call that comes late -/

variable {s}

/-- Nothing has been handed to the client. -/
structure Before (c : ExecutionCommand) (handed : List ResultData) : Prop where
  state : c.currentState = .executing
  errors : c.resultData.errorsList = []
  handed : handed = []

/-- The command has executed with the exit code of the process. -/
structure After (c : ExecutionCommand) (waited : Option Int) (handed : List ResultData) : Prop where
  state : c.currentState = .executed
  result : Normal waited c.resultData
  handed : handed = []

/-- How far the thread is. -/
def Progress (s : Race) : Prop :=
  match s.worker with
  | .starting | .writing | .waiting => Before s.command s.handed
  | .checking exitCode | .storing exitCode => Before s.command s.handed ∧ s.waited = some exitCode
  | .executing => Before s.command s.handed ∧ Normal s.waited s.command.resultData
  | .claiming | .handing => After s.command s.waited s.handed
  | .ended => ∀ d ∈ s.handed, Normal s.waited d
  | _ => False

/-- The call does nothing. -/
structure Undecided (s : Race) : Prop where
  progress : Progress s
  idle : s.killer = .testing ∨ s.killer = .returned
  notFound : s.foundExecuting = false
  one : s.handed.length ≤ 1

theorem Undecided.decided (h : Undecided s) : Decided s := by
  refine ⟨fun _ hf => ?_, fun d hd => .inl ?_, h.one⟩
  · rw [h.notFound] at hf
    cases hf
  · have hp := h.progress
    unfold Progress at hp
    have hnil : s.handed = [] → Normal s.waited d := by
      intro hn
      rw [hn] at hd
      cases hd
    cases hw : s.worker <;> simp only [hw] at hp
    · exact hnil hp.handed
    · exact hnil hp.handed
    · exact hnil hp.handed
    · exact hnil hp.1.handed
    · exact hnil hp.1.handed
    · exact hnil hp.1.handed
    · exact hnil hp.handed
    · exact hnil hp.handed
    · exact hp d hd

/-- The thread goes on as if there were no call. -/
theorem Progress.worker {world : World} (h : Progress s) (hlate : s.Late (.worker world)) :
    Progress (s.step (.worker world)) ∧ (s.handed.length ≤ 1 →
      (s.step (.worker world)).handed.length ≤ 1) := by
  -- As long as the call does nothing, the thread takes its steps in the order of the source.
  unfold Progress at h
  cases hw : s.worker <;> simp only [hw] at h
  case starting =>
    simp only [step, hw, Worker.step, effect]
    exact ⟨⟨h.state, h.errors, h.handed⟩, id⟩
  case writing =>
    have hworld := hlate hw
    simp only [step, hw, Worker.step, hworld, effect]
    exact ⟨⟨h.state, h.errors, h.handed⟩, id⟩
  case waiting =>
    simp only [step, hw, Worker.step, effect]
    exact ⟨⟨⟨h.state, h.errors, h.handed⟩, by simp⟩, id⟩
  case checking exitCode =>
    have hfailed : s.command.isStateFailed = false := by
      simp [ExecutionCommand.isStateFailed, h.1.state]
    simp only [step, hw, Worker.step, hfailed, effect]
    exact ⟨⟨⟨h.1.state, h.1.errors, h.1.handed⟩, by simpa using h.2⟩, id⟩
  case storing exitCode =>
    simp only [step, hw, Worker.step, effect]
    exact ⟨⟨⟨h.1.state, h.1.errors, h.1.handed⟩, exitCode, by simpa using h.2, rfl,
      h.1.errors⟩, id⟩
  case executing =>
    have hset : s.command.setState .executed =
        (true, { s.command with previousState := .executing, currentState := .executed }) := by
      simp [ExecutionCommand.setState, h.1.state, ExecutionState.getValue]
    simp only [step, hw, Worker.step, hset, effect]
    exact ⟨⟨rfl, by simpa using h.2, h.1.handed⟩, id⟩
  case claiming =>
    cases hb : s.command.processingResultsAlreadyCalled with
    | true =>
      have hclaim : s.command.shouldNotProcessResults = (true, s.command) := by
        simp [ExecutionCommand.shouldNotProcessResults, hb]
      simp only [step, hw, Worker.step, hclaim, effect]
      exact ⟨by simp [Progress, h.handed], id⟩
    | false =>
      have hclaim : s.command.shouldNotProcessResults =
          (false, { s.command with processingResultsAlreadyCalled := true }) := by
        simp [ExecutionCommand.shouldNotProcessResults, hb]
      simp only [step, hw, Worker.step, hclaim, effect]
      exact ⟨⟨h.state, by simpa using h.result, h.handed⟩, id⟩
  case handing =>
    simp only [step, hw, Worker.step, effect, h.handed]
    refine ⟨?_, fun _ => by simp⟩
    simpa [Progress] using h.result
  case ended =>
    simp only [step, hw, Worker.step, effect]
    exact ⟨by simpa [Progress, hw] using h, id⟩

theorem Undecided.step {turn : Turn} (h : Undecided s) (hlate : s.Late turn) :
    Undecided (s.step turn) := by
  cases turn with
  | worker world =>
    obtain ⟨hp, hone⟩ := h.progress.worker hlate
    have heffect : ∀ (r : Race) (c : ExecutionCommand) (e : Effect),
        (r.effect c e).killer = r.killer ∧ (r.effect c e).foundExecuting = r.foundExecuting := by
      intro r c e
      cases e <;> exact ⟨rfl, rfl⟩
    refine ⟨hp, ?_, ?_, hone h.one⟩
    · simp only [Race.step, (heffect _ _ _).1]
      exact h.idle
    · simp only [Race.step, (heffect _ _ _).2]
      exact h.notFound
  | killer =>
    have hkill : s.step .killer = { s with killer := .returned } := by
      rcases h.idle with hk | hk
      · have hx := hlate hk
        simp [Race.step, hk, Killer.step, hx, effect, h.notFound]
      · simp [Race.step, hk, Killer.step, effect, h.notFound]
    rw [hkill]
    exact ⟨h.progress, .inr rfl, h.notFound, h.one⟩

theorem undecided_start (isPluginExecutionCommand : Bool) (resultConfig : ResultConfig)
    (processResult : Bool) :
    Undecided (start isPluginExecutionCommand resultConfig processResult) := by
  exact ⟨⟨rfl, rfl, rfl⟩, .inl rfl, rfl, Nat.zero_le 1⟩

/-- A call that finds the command executed is harmless, whatever the order of the steps. -/
theorem late_kill_decided (isPluginExecutionCommand : Bool) (resultConfig : ResultConfig)
    (processResult : Bool) (turns : List Turn)
    (h : Run.Along step Late (start isPluginExecutionCommand resultConfig processResult) turns) :
    ∀ earlier later, turns = earlier ++ later →
      Decided (Run.after step (start isPluginExecutionCommand resultConfig processResult)
        earlier) := by
  intro earlier later heq
  rw [heq] at h
  exact (h.everywhere (fun _ _ hs hl => hs.step hl) (undecided_start _ _ _)).decided

/-- The killer gets its turn when the process has ended. -/
def lateKill : List Turn :=
  [.worker ⟨none, 0⟩, .worker ⟨none, 0⟩, .worker ⟨none, 3⟩, .worker ⟨none, 0⟩, .worker ⟨none, 0⟩,
    .worker ⟨none, 0⟩, .killer, .worker ⟨none, 0⟩, .worker ⟨none, 0⟩]

theorem late_kill_decided_run :
    Decided (Run.after step (start true ⟨true, none, none⟩ true) (lateKill.take 7)) ∧
      Decided (Run.after step (start true ⟨true, none, none⟩ true) lateKill) := by
  suffices hall : ∀ earlier later, lateKill = earlier ++ later →
      Decided (Run.after step (start true ⟨true, none, none⟩ true) earlier) from
    ⟨hall _ _ (List.take_append_drop 7 lateKill).symm, hall _ [] (List.append_nil _).symm⟩
  apply late_kill_decided true ⟨true, none, none⟩ true
  simp only [lateKill, Run.Along, Late]
  decide

/-! ## A call that comes early -/

/-- The input of the process can be written. -/
def Writes (s : Race) : Turn → Prop
  | .worker world => s.worker = .writing → world.failure = none
  | .killer => True

/-- The thread has not failed to write. -/
def Untroubled : Worker → Prop
  | .failing _ _ | .storingOne | .claimingFailure | .handingFailure | .killing => False
  | _ => True

/-- Once the state has been set to failed there is nothing to kill. -/
structure Unsignalled (s : Race) : Prop where
  signalled : s.signalled = false
  worker : Untroubled s.worker
  state : s.command.currentState ≠ .success
  killer : s.killer ≠ .killing
  failed : s.killer = .testing ∨ s.killer = .failing ∨ s.killer = .returned ∨
    s.command.currentState = .failed

theorem shouldNotProcessResults_state (c : ExecutionCommand) :
    c.shouldNotProcessResults.2.currentState = c.currentState := by
  unfold ExecutionCommand.shouldNotProcessResults
  split_ifs <;> rfl

/-- What the thread does to the state. -/
theorem worker_step (w : Worker) (c : ExecutionCommand) {world : World} (h : Untroubled w)
    (hwrites : w = .writing → world.failure = none) :
    Untroubled (w.step c world).1 ∧ (w.step c world).2.2 ≠ .sigkill ∧
      (c.currentState ≠ .success → (w.step c world).2.1.currentState ≠ .success) ∧
      (c.currentState = .failed → (w.step c world).2.1.currentState = .failed) := by
  cases w <;> simp only [Untroubled] at h
  case starting => exact ⟨trivial, by simp [Worker.step], id, id⟩
  case writing =>
    simp only [Worker.step, hwrites rfl]
    exact ⟨trivial, by simp, id, id⟩
  case waiting => exact ⟨trivial, by simp [Worker.step], id, id⟩
  case checking exitCode =>
    simp only [Worker.step]
    refine ⟨?_, by simp, id, id⟩
    split_ifs <;> trivial
  case storing exitCode => exact ⟨trivial, by simp [Worker.step], id, id⟩
  case executing =>
    simp only [Worker.step]
    refine ⟨?_, by simp, fun hne => ?_, ExecutionCommand.setState_of_failed⟩
    · split_ifs <;> trivial
    · rcases ExecutionCommand.setState_cases c .executed with ⟨-, heq⟩ | ⟨-, -, p, heq⟩
      · rw [heq]
        exact hne
      · rw [heq]
        simp
  case claiming =>
    simp only [Worker.step, shouldNotProcessResults_state]
    refine ⟨?_, by simp, id, id⟩
    split_ifs <;> trivial
  case handing => exact ⟨trivial, by simp [Worker.step], id, id⟩
  case ended => exact ⟨trivial, by simp [Worker.step], id, id⟩

theorem effect_fields (r : Race) (c : ExecutionCommand) {e : Effect} (he : e ≠ .sigkill) :
    (r.effect c e).signalled = r.signalled ∧ (r.effect c e).worker = r.worker ∧
      (r.effect c e).command = c ∧ (r.effect c e).killer = r.killer ∧
      (r.effect c e).foundExecuting = r.foundExecuting := by
  cases e with
  | nothing => exact ⟨rfl, rfl, rfl, rfl, rfl⟩
  | exited => exact ⟨rfl, rfl, rfl, rfl, rfl⟩
  | sigkill => exact absurd rfl he

theorem killer_step (k : Killer) (c : ExecutionCommand) (processResult : Bool) (hk : k ≠ .killing)
    (hstate : c.currentState ≠ .success)
    (hfailed : k = .testing ∨ k = .failing ∨ k = .returned ∨ c.currentState = .failed) :
    (k.step c processResult).1 ≠ .killing ∧ (k.step c processResult).2.2 ≠ .sigkill ∧
      (k.step c processResult).2.1.currentState ≠ .success ∧
      ((k.step c processResult).1 = .testing ∨ (k.step c processResult).1 = .failing ∨
        (k.step c processResult).1 = .returned ∨
        (k.step c processResult).2.1.currentState = .failed) := by
  -- Behind its first two steps the killer works on a command that has failed.
  have hstays : k ≠ .testing → k ≠ .failing → k ≠ .returned → c.currentState = .failed := by
    intro h₁ h₂ h₃
    rcases hfailed with h | h | h | h
    · exact absurd h h₁
    · exact absurd h h₂
    · exact absurd h h₃
    · exact h
  cases k with
  | testing =>
    simp only [Killer.step]
    split_ifs
    · exact ⟨by simp, by simp, hstate, by simp⟩
    · exact ⟨by simp, by simp, hstate, by simp⟩
  | failing =>
    have hset : (c.setStateFailed none Errno.failed (some sigkillMessage) []).2.currentState =
        .failed := (@ExecutionCommand.setState_failed { c with resultData :=
          (c.resultData.setStateFailed none Errno.failed (some sigkillMessage) []).2 } hstate).1
    simp only [Killer.step, hset]
    split_ifs
    · exact ⟨by simp, by simp, by simp, by simp⟩
    · exact ⟨by simp, by simp, by simp, by simp⟩
  | storing =>
    have hc := hstays (by simp) (by simp) (by simp)
    exact ⟨by simp [Killer.step], by simp [Killer.step], hstate, by simp [Killer.step, hc]⟩
  | claiming =>
    have hc := hstays (by simp) (by simp) (by simp)
    simp only [Killer.step, shouldNotProcessResults_state]
    split_ifs
    · exact ⟨by simp, by simp, hstate, by simp [hc]⟩
    · exact ⟨by simp, by simp, hstate, by simp [hc]⟩
  | handing =>
    have hc := hstays (by simp) (by simp) (by simp)
    exact ⟨by simp [Killer.step], by simp [Killer.step], hstate, by simp [Killer.step, hc]⟩
  | asking =>
    have hc := hstays (by simp) (by simp) (by simp)
    have hx : c.isExecuting = false := by simp [ExecutionCommand.isExecuting, hc]
    simp only [Killer.step, hx]
    exact ⟨by simp, by simp, hstate, by simp⟩
  | killing => exact absurd rfl hk
  | returned => exact ⟨by simp [Killer.step], by simp [Killer.step], hstate, by simp [Killer.step]⟩

theorem Unsignalled.step {turn : Turn} (h : Unsignalled s) (hwrites : s.Writes turn) :
    Unsignalled (s.step turn) := by
  cases turn with
  | worker world =>
    obtain ⟨hw, he, hstate, hfailed⟩ := worker_step s.worker s.command h.worker hwrites
    obtain ⟨h₁, h₂, h₃, h₄, -⟩ := effect_fields { s with
      worker := (s.worker.step s.command world).1
      waited := if s.worker = .waiting then some world.exitCode else s.waited }
      (s.worker.step s.command world).2.1 he
    refine ⟨h₁.trans h.signalled, ?_, ?_, ?_, ?_⟩
    · exact h₂ ▸ hw
    · exact h₃ ▸ hstate h.state
    · exact h₄ ▸ h.killer
    · rcases h.failed with hk | hk | hk | hk
      · exact .inl (h₄.trans hk)
      · exact .inr (.inl (h₄.trans hk))
      · exact .inr (.inr (.inl (h₄.trans hk)))
      · exact .inr (.inr (.inr (h₃ ▸ hfailed hk)))
  | killer =>
    obtain ⟨hk, he, hstate, hfailed⟩ := killer_step s.killer s.command s.processResult h.killer
      h.state h.failed
    obtain ⟨h₁, h₂, h₃, h₄, -⟩ := effect_fields { s with
      killer := (s.killer.step s.command s.processResult).1
      foundExecuting := s.foundExecuting ||
        decide (s.killer = .testing ∧ s.command.hasExecuted = false) }
      (s.killer.step s.command s.processResult).2.1 he
    refine ⟨h₁.trans h.signalled, ?_, ?_, ?_, ?_⟩
    · exact h₂ ▸ h.worker
    · exact h₃ ▸ hstate
    · exact h₄ ▸ hk
    · rw [Race.step, h₃, h₄]
      exact hfailed

/-- Whatever the order of the steps, `killIfExecuting` sends no signal. -/
theorem killIfExecuting_unsignalled (isPluginExecutionCommand : Bool) (resultConfig : ResultConfig)
    (processResult : Bool) (turns : List Turn)
    (h : Run.Along step Writes (start isPluginExecutionCommand resultConfig processResult) turns) :
    (Run.after step (start isPluginExecutionCommand resultConfig processResult) turns).signalled =
      false := by
  have hstart : Unsignalled (start isPluginExecutionCommand resultConfig processResult) :=
    ⟨rfl, trivial, by simp [start, ExecutionCommand.setState, ExecutionCommand.new,
      ExecutionState.getValue], by simp [start], .inl rfl⟩
  exact (h.invariant (fun _ _ hs hw => hs.step hw) hstart).signalled

/-- `killIfExecuting` makes a failure of a command that is executing, and then finds nothing to
kill. -/
theorem early_kill_undecided :
    ¬∀ (isPluginExecutionCommand : Bool) (resultConfig : ResultConfig) (processResult : Bool)
      (turns : List Turn), ∀ earlier later, turns = earlier ++ later →
        Decided (Run.after step (start isPluginExecutionCommand resultConfig processResult)
          earlier) := by
  intro h
  have hd := h true ⟨true, none, none⟩ true _
    [.worker ⟨none, 0⟩, .worker ⟨none, 0⟩, .killer, .killer, .killer, .killer, .killer, .killer] [] rfl
  exact absurd (hd.signal (by decide) (by decide)) (by decide)

end Race

end AppShell

end XoDos
