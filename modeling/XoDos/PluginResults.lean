import XoDos.PluginCommands

/-!
# The results of the commands of plugins

Every result is sent once, whatever the order in which the threads of the shells and the main thread go on.
-/

namespace XoDos

namespace PluginCommands

open AppShell (Worker Killer World)

namespace Entry

variable {e : Entry}

/-! ## All commands -/

/-- The results that have been claimed, without a thread. -/
abbrev claimed (e : Entry) : Bool := e.command.processingResultsAlreadyCalled

/-- How often the results of a command that is waited for have been sent. -/
def Accounted (e : Entry) : Prop :=
  match e.kind with
  | .unsupported => False
  | .refused => e.answers = 1 + e.claimed.toNat ∧ (e.claimed = false → e.command.currentState ≠ .success)
  | .attached => e.answers = e.claimed.toNat ∧ (e.claimed = false → e.command.currentState ≠ .success)
  | .notStarted => e.answers = 1 ∧ e.claimed = true
  | .task => e.Task
  | .session => e.answers = e.claimed.toNat ∧ (e.session = false → e.claimed = true)

/-- The lists that the command is in and the threads that it has. -/
structure Sound (e : Entry) : Prop where
  silent : e.expects = false → e.answers = 0
  accounted : e.expects = true → e.Accounted
  pending : e.pending = true ↔ e.kind = .refused ∨ e.kind = .attached ∨ e.kind = .notStarted
  task : e.task = true → e.kind = .task
  session : e.session = true → e.kind = .session ∧ e.claimed = false ∧ e.command.currentState = .executing
  idle : e.kind ≠ .task → e.worker = .ended ∧ e.posted = 0 ∧ e.killer = none
  stopped : e.stopped = true → e.expects = true → (e.pending = true → e.claimed = true) ∧ e.session = false

theorem processResult_expects (e : Entry) (error : Option ResultError) : (e.processResult error).expects = e.expects :=
  (processResult_same e.command error).expects

theorem setStateFailed_isStateFailed (c : ExecutionCommand) (type : Option JavaString) (code : Int)
    (message : Option JavaString) (stackTraces : List JavaString) (h : c.currentState ≠ .success) :
    (c.setStateFailed type code message stackTraces).2.isStateFailed = true := by
  have hstate := (ExecutionCommand.setState_failed
    (c := { c with resultData := (c.resultData.setStateFailed type code message stackTraces).2 }) h).1
  have hdata : (c.resultData.setStateFailed type code message stackTraces).2.isStateFailed = true :=
    ExecutionCommand.setStateFailed_isStateFailed c.resultData
  simp only [ExecutionCommand.isStateFailed, ExecutionCommand.setStateFailed, hstate,
    ExecutionCommand.setState_resultData, hdata, decide_true, Bool.and_self]

theorem Sound.of_task (hkind : e.kind = .task) (hpending : e.pending = false) (hsession : e.session = false)
    (hsilent : e.expects = false → e.answers = 0) (htask : e.expects = true → e.Task) : e.Sound where
  silent := hsilent
  accounted hexpects := by
    rw [Accounted, hkind]
    exact htask hexpects
  pending := by simp [hkind, hpending]
  task _ := hkind
  session hs := by
    rw [hsession] at hs
    cases hs
  idle hnot := absurd hkind hnot
  stopped _ _ := by simp [hpending, hsession]

/-- What is known of a task. -/
theorem Sound.of_kind (h : e.Sound) (hkind : e.kind = .task) :
    e.pending = false ∧ e.session = false ∧ (e.expects = true → e.Task) := by
  refine ⟨?_, ?_, ?_⟩
  · rw [← Bool.not_eq_true, h.pending, hkind]
    simp
  · rw [← Bool.not_eq_true]
    intro hs
    rw [(h.session hs).1] at hkind
    cases hkind
  · intro hexpects
    have haccounted := h.accounted hexpects
    rwa [Accounted, hkind] at haccounted

theorem Sound.setKiller (h : e.Sound) (hkind : e.kind = .task) {killer : Option Killer}
    (hlate : lateKiller e.killer = false) (hhanding : handingKiller e.killer = false)
    (hlate' : lateKiller killer = false) (hhanding' : handingKiller killer = false) :
    ({ e with killer } : Entry).Sound := by
  rcases h.of_kind hkind with ⟨hpending, hsession, htask⟩
  apply Sound.of_task
  · exact hkind
  · exact hpending
  · exact hsession
  · exact h.silent
  · exact fun hx => (htask hx).setKiller hlate hhanding hlate' hhanding'

theorem worker_expects (worker : Worker) (c : ExecutionCommand) (world : World) :
    (worker.step c world).2.1.isPluginExecutionCommandWithPendingResult =
      c.isPluginExecutionCommandWithPendingResult := by
  cases worker with
  | writing =>
    cases hf : world.failure <;> simp [Worker.step, hf]
  | failing message stackTrace => exact (setStateFailed_same ..).expects
  | claimingFailure => exact claim_expects c
  | executing => exact (setState_same ..).expects
  | claiming => exact claim_expects c
  | _ => rfl

theorem killer_expects (killer : Killer) (c : ExecutionCommand) :
    (killer.step c true).2.1.isPluginExecutionCommandWithPendingResult =
      c.isPluginExecutionCommandWithPendingResult := by
  cases killer with
  | failing => exact (setStateFailed_same ..).expects
  | claiming => exact claim_expects c
  | _ => rfl

@[simp] theorem exited_kind (effect : AppShell.Effect) : (e.exited effect).kind = e.kind := by cases effect <;> rfl

@[simp] theorem exited_pending (effect : AppShell.Effect) : (e.exited effect).pending = e.pending := by
  cases effect <;> rfl

@[simp] theorem exited_session (effect : AppShell.Effect) : (e.exited effect).session = e.session := by
  cases effect <;> rfl

@[simp] theorem exited_answers (effect : AppShell.Effect) : (e.exited effect).answers = e.answers := by
  cases effect <;> rfl

@[simp] theorem exited_expects (effect : AppShell.Effect) : (e.exited effect).expects = e.expects := by
  cases effect <;> rfl

theorem Sound.work (h : e.Sound) (world : World) : (e.work world).Sound := by
  by_cases hkind : e.kind = .task
  · have hexpects : (e.work world).expects = e.expects := by
      simp only [Entry.work, exited_expects]
      exact worker_expects e.worker e.command world
    rcases h.of_kind hkind with ⟨hpending, hsession, htask⟩
    apply Sound.of_task
    · simpa [Entry.work] using hkind
    · simpa [Entry.work] using hpending
    · simpa [Entry.work] using hsession
    · rw [hexpects]
      simpa [Entry.work] using h.silent
    · rw [hexpects]
      exact fun hx => (htask hx).work world
  · have hsame : e.work world = e := by
      rw [Entry.work, (h.idle hkind).1]
      cases e
      simpa [Worker.step, exited] using (h.idle hkind).1.symm
    rwa [hsame]

theorem Sound.kill (h : e.Sound) (hkind : e.kind = .task) : e.kill.Sound := by
  rcases h.of_kind hkind with ⟨hpending, hsession, htask⟩
  have hexpects : e.kill.expects = e.expects := by
    unfold Entry.kill
    split
    · rfl
    · simp only [exited_expects]
      exact killer_expects _ e.command
  have hrest : e.kill.kind = e.kind ∧ e.kill.pending = e.pending ∧ e.kill.session = e.session ∧
      e.kill.answers = e.answers := by
    unfold Entry.kill
    split <;> simp
  rcases hrest with ⟨hkind', hpending', hsession', hanswers⟩
  apply Sound.of_task (hkind'.trans hkind) (hpending'.trans hpending) (hsession'.trans hsession)
  · rw [hexpects, hanswers]
    exact h.silent
  · rw [hexpects]
    exact fun hx => (htask hx).kill

theorem Sound.runnable (h : e.Sound) (error : Option ResultError) : (e.runnable error).Sound := by
  by_cases hkind : e.kind = .task
  · rcases h.of_kind hkind with ⟨hpending, hsession, htask⟩
    have hexpects : (e.runnable error).expects = e.expects := by
      unfold Entry.runnable
      split
      · rfl
      · exact processResult_expects e error
    have hrest : (e.runnable error).kind = e.kind ∧ (e.runnable error).pending = e.pending ∧
        (e.runnable error).session = e.session := by
      unfold Entry.runnable
      split <;> exact ⟨rfl, rfl, rfl⟩
    rcases hrest with ⟨hkind', hpending', hsession'⟩
    apply Sound.of_task (hkind'.trans hkind) (hpending'.trans hpending) (hsession'.trans hsession)
    · rw [hexpects]
      intro hx
      have hzero := h.silent hx
      unfold Entry.runnable
      split
      · exact hzero
      · simp [Entry.processResult, hx, hzero]
    · rw [hexpects]
      exact fun hx => (htask hx).runnable hx error
  · have hsame : e.runnable error = e := by rw [Entry.runnable, if_pos (h.idle hkind).2.1]
    rwa [hsame]

/-- A session that is no longer in the list. -/
theorem Sound.close (h : e.Sound) (hsession : e.session = true) {command : ExecutionCommand} {answers : Nat}
    (hexpects : command.isPluginExecutionCommandWithPendingResult = e.expects)
    (hanswers : answers = if e.expects then 1 else 0)
    (hclaimed : e.expects = true → command.processingResultsAlreadyCalled = true) :
    ({ e with command, answers, session := false } : Entry).Sound := by
  rcases h.session hsession with ⟨hkind, -, -⟩
  have hpending : e.pending = false := by
    rw [← Bool.not_eq_true, h.pending, hkind]
    simp
  refine ⟨?_, ?_, h.pending, h.task, fun hs => absurd hs Bool.false_ne_true, h.idle, fun _ _ => ⟨fun hp => ?_, rfl⟩⟩
  · intro hx
    rw [hanswers, if_neg]
    rw [Bool.not_eq_true, ← hexpects]
    exact hx
  · intro hx
    have hx' : e.expects = true := hexpects.symm.trans hx
    simp [Accounted, hkind, hanswers, hx', claimed, hclaimed hx']
  · rw [hpending] at hp
    cases hp

/-- The results of a session that is in the list are sent. -/
theorem Sound.sessionExited (h : e.Sound) (hsession : e.session = true) {command : ExecutionCommand}
    (hsame : Same e.command command) (hexecuted : command.hasExecuted = true) (error : Option ResultError) :
    (({ e with command } : Entry).sessionExited error).Sound ∧
      (({ e with command } : Entry).sessionExited error).session = false := by
  rcases h.session hsession with ⟨hkind, hclaimed, -⟩
  have hfirst : command.shouldNotProcessResults.1 = false := (claim_first command).trans (hsame.claimed.trans hclaimed)
  have hexpects : command.shouldNotProcessResults.2.isPluginExecutionCommandWithPendingResult = e.expects :=
    (claim_expects command).trans hsame.expects
  have hexecuted' : command.shouldNotProcessResults.2.hasExecuted = true := by
    rw [hasExecuted_iff] at hexecuted ⊢
    rwa [claim_state]
  have hresult := processResult_same command.shouldNotProcessResults.2 error
  have hzero : e.answers = 0 := by
    by_cases hx : e.expects = true
    · have haccounted := h.accounted hx
      rw [Accounted, hkind] at haccounted
      rw [haccounted.1, hclaimed]
      rfl
    · exact h.silent (Bool.not_eq_true _ ▸ hx)
  rw [Entry.sessionExited, hfirst, if_neg Bool.false_ne_true]
  refine ⟨h.close hsession (hresult.expects.trans hexpects) ?_ fun _ => hresult.claimed.trans (claim_claimed command), rfl⟩
  show e.answers + (if command.shouldNotProcessResults.2.hasExecuted &&
    command.shouldNotProcessResults.2.isPluginExecutionCommandWithPendingResult then 1 else 0) = _
  rw [hzero, hexecuted', hexpects, Bool.true_and, Nat.zero_add]

theorem Sound.finish (h : e.Sound) (exitCode : Int) (error : Option ResultError) : (e.finish exitCode error).Sound := by
  unfold Entry.finish
  split_ifs with hskip
  · exact h
  · rw [not_or, Bool.not_eq_false] at hskip
    rcases h.session hskip.1 with ⟨-, -, hstate⟩
    have hset := setState_executed { e.command with resultData.exitCode := some exitCode }
    rcases hset with ⟨hover, -⟩ | ⟨-, -, hdone, hstate'⟩
    · simp [hstate] at hover
    · simp only [hdone, if_true]
      have hsame := setState_same { e.command with resultData.exitCode := some exitCode } .executed
      apply (h.sessionExited hskip.1 ⟨hsame.expects, hsame.claimed⟩ _ error).1
      rw [hasExecuted_iff]
      exact .inl hstate'

theorem Sound.leave (h : e.Sound) (mWantsToStop : Bool) (error : Option ResultError) :
    (e.leave mWantsToStop error).Sound ∧ (e.leave mWantsToStop error).session = false := by
  unfold Entry.leave
  by_cases hsession : e.session = true
  · rcases h.session hsession with ⟨hkind, -, hstate⟩
    have hnot : e.command.hasExecuted = false := by
      rw [← Bool.not_eq_true, hasExecuted_iff, hstate]
      simp
    have hsame := setStateFailed_same e.command none Errno.failed (some AppShell.sigkillMessage) []
    rcases setStateFailed_state e.command none Errno.failed (some AppShell.sigkillMessage) [] with
      ⟨hs, -, -⟩ | ⟨-, hdone, hfailed⟩
    · rw [hstate] at hs
      cases hs
    · rw [if_pos hsession]
      simp only [Entry.killSession, hnot, Bool.false_eq_true, if_false, hdone, Bool.true_and]
      -- The service takes the result of its session only if it wants to stop or somebody expects one.
      by_cases hprocess : (mWantsToStop || e.expects) = true
      · rw [if_pos hprocess, if_pos hprocess]
        apply h.sessionExited hsession _ _ error
        · exact hsame.trans ⟨rfl, rfl⟩
        · rw [hasExecuted_iff]
          exact .inr (.inr hfailed)
      · rw [if_neg hprocess, if_neg hprocess]
        have hexpects : e.expects = false := by
          rw [Bool.or_eq_true, not_or, Bool.not_eq_true, Bool.not_eq_true] at hprocess
          exact hprocess.2
        refine ⟨h.close hsession hsame.expects ?_ fun hx => ?_, rfl⟩
        · rw [h.silent hexpects, hexpects]
          rfl
        · rw [hexpects] at hx
          cases hx
  · rw [if_neg hsession]
    rw [Bool.not_eq_true] at hsession
    split_ifs with htask
    · rw [Bool.and_eq_true, Bool.not_eq_true'] at htask
      have hkind := h.task htask.1
      refine ⟨Sound.of_task hkind (h.of_kind hkind).1 hsession h.silent fun hx => ?_, hsession⟩
      have hx' : e.expects = true := hx
      rw [htask.2] at hx'
      cases hx'
    · exact ⟨h, hsession⟩

theorem Sound.stop (h : e.Sound) (hstopped : e.expects = true → (e.pending = true → e.claimed = true) ∧ e.session = false) :
    ({ e with stopped := true } : Entry).Sound := by
  refine ⟨h.silent, fun hx => ?_, h.pending, h.task, h.session, h.idle, fun _ => hstopped⟩
  have haccounted := h.accounted hx
  cases hkind : e.kind <;> simp only [Accounted, hkind] at haccounted ⊢
  case task =>
    exact ⟨haccounted.pending, haccounted.session, haccounted.listed, haccounted.count, haccounted.executed,
      haccounted.failed, haccounted.success, haccounted.done⟩
  all_goals exact haccounted

/-- A pending command that has been claimed stays pending. -/
theorem Sound.settle (h : e.Sound) (hpending : e.pending = true) (hsession : e.session = false)
    {command : ExecutionCommand} {answers : Nat}
    (hexpects : command.isPluginExecutionCommandWithPendingResult = e.expects)
    (hclaimed : command.processingResultsAlreadyCalled = true)
    (hsilent : e.expects = false → answers = 0)
    (hanswers : e.expects = true → answers = if e.kind = .refused then 2 else 1) :
    ({ e with command, answers, stopped := true } : Entry).Sound := by
  refine ⟨fun hx => hsilent (hexpects.symm.trans hx), fun hx => ?_, h.pending, h.task, fun hs => ?_, h.idle,
    fun _ _ => ⟨fun _ => hclaimed, hsession⟩⟩
  · have hcount := hanswers (hexpects.symm.trans hx)
    rcases h.pending.mp hpending with hkind | hkind | hkind <;> simp [Accounted, hkind, claimed, hclaimed, hcount]
  · have hs' : e.session = true := hs
    rw [hsession] at hs'
    cases hs'

theorem Sound.cancel (h : e.Sound) (hsession : e.session = false) (error : Option ResultError) :
    ({ e.cancel error with stopped := true } : Entry).Sound := by
  unfold Entry.cancel
  by_cases hpending : e.pending = true
  · rw [if_pos hpending, claim_first]
    have hclaimed := claim_claimed e.command
    -- Whoever claims first hands the result over; for the loser only the entry is settled.
    by_cases hfirst : e.command.processingResultsAlreadyCalled = true
    · rw [if_pos hfirst]
      refine h.settle hpending hsession (claim_expects e.command) hclaimed h.silent fun hx => ?_
      have haccounted := h.accounted hx
      rcases h.pending.mp hpending with hkind | hkind | hkind <;>
        simp [Accounted, hkind, claimed, hfirst] at haccounted ⊢ <;> exact haccounted
    · rw [if_neg hfirst]
      rw [Bool.not_eq_true] at hfirst
      by_cases hx : e.expects = true
      · have haccounted := h.accounted hx
        have hstate : e.command.currentState ≠ .success := by
          rcases h.pending.mp hpending with hkind | hkind | hkind <;> simp [Accounted, hkind, claimed, hfirst] at haccounted
          · exact haccounted.2
          · exact haccounted.2
        have hsame := setStateFailed_same e.claim.command none Errno.cancelled (some cancelledMessage) []
        -- Without a success the command takes the failure, so its result is sent.
        have hnot : e.claim.command.currentState ≠ .success := by
          rw [Entry.claim, claim_state]
          exact hstate
        rcases setStateFailed_state e.claim.command none Errno.cancelled (some cancelledMessage) [] with
          ⟨hs, -, -⟩ | ⟨-, hdone, hfailed⟩
        · exact absurd hs hnot
        · rw [if_pos hx]
          simp only [hdone, if_true]
          have hresult := processResult_same
            (e.claim.command.setStateFailed none Errno.cancelled (some cancelledMessage) []).2 error
          have hexpects : (e.claim.command.setStateFailed none Errno.cancelled
              (some cancelledMessage) []).2.isPluginExecutionCommandWithPendingResult = e.expects :=
            hsame.expects.trans (claim_expects e.command)
          have hexecuted := (hasExecuted_iff _).mpr (.inr (.inr hfailed))
          refine h.settle hpending hsession (hresult.expects.trans hexpects)
            (hresult.claimed.trans (hsame.claimed.trans hclaimed)) (fun hx' => ?_) fun _ => ?_
          · rw [hx] at hx'
            cases hx'
          · show e.answers + (if (e.claim.command.setStateFailed none Errno.cancelled
              (some cancelledMessage) []).2.hasExecuted && (e.claim.command.setStateFailed none Errno.cancelled
                (some cancelledMessage) []).2.isPluginExecutionCommandWithPendingResult then 1 else 0) = _
            rw [hexecuted, hexpects, hx, Bool.and_self, if_pos rfl]
            rcases h.pending.mp hpending with hkind | hkind | hkind <;>
              simp [Accounted, hkind, claimed, hfirst] at haccounted ⊢
            · rw [haccounted.1]
            · exact haccounted.1
      · rw [if_neg hx]
        rw [Bool.not_eq_true] at hx
        refine h.settle hpending hsession (claim_expects e.command) hclaimed h.silent fun hx' => ?_
        rw [hx] at hx'
        cases hx'
  · rw [if_neg hpending]
    exact h.stop fun _ => ⟨fun hp => absurd hp hpending, hsession⟩

/-- A command that has failed to start, and whose error has been sent. -/
theorem failed_sound {kind : Kind} {command : ExecutionCommand} (hkind : kind = .refused ∨ kind = .notStarted)
    (hfailed : command.isStateFailed = true)
    (hclaimed : command.processingResultsAlreadyCalled = decide (kind = .notStarted)) (error : Option ResultError) :
    (Entry.processError { kind, command, pending := true } error).Sound := by
  have hsame := processError_same command error
  have hclaimed' : (command.processPluginExecutionCommandError error).processingResultsAlreadyCalled =
      decide (kind = .notStarted) := hsame.claimed.trans hclaimed
  have hstate : (command.processPluginExecutionCommandError error).currentState ≠ .success := by
    have hsame' : (command.processPluginExecutionCommandError error).currentState = command.currentState := by
      rw [ExecutionCommand.processPluginExecutionCommandError, if_pos hfailed]
      split <;> rfl
    simp only [ExecutionCommand.isStateFailed, Bool.and_eq_true, decide_eq_true_eq] at hfailed
    rw [hsame', hfailed.1]
    simp
  have hanswers : (Entry.processError { kind, command, pending := true } error).answers =
      if command.isPluginExecutionCommandWithPendingResult then 1 else 0 := by
    simp [Entry.processError, hfailed, Entry.expects]
  refine ⟨fun hx => ?_, fun hx => ?_, ?_, fun ht => absurd ht Bool.false_ne_true,
    fun hs => absurd hs Bool.false_ne_true, fun _ => ⟨rfl, rfl, rfl⟩, fun hs => absurd hs Bool.false_ne_true⟩
  · rw [hanswers, ← hsame.expects, if_neg]
    rw [Bool.not_eq_true]
    exact hx
  · have hone : (Entry.processError { kind, command, pending := true } error).answers = 1 := by
      rw [hanswers, ← hsame.expects]
      exact if_pos hx
    rcases hkind with rfl | rfl
    · simp only [Accounted, Entry.processError, claimed, hclaimed'] at hone ⊢
      exact ⟨hone, fun _ => hstate⟩
    · simp only [Accounted, Entry.processError, claimed, hclaimed'] at hone ⊢
      exact ⟨hone, rfl⟩
  · rcases hkind with rfl | rfl <;> simp [Entry.processError]

theorem claim_isStateFailed (c : ExecutionCommand) : c.shouldNotProcessResults.2.isStateFailed = c.isStateFailed := by
  unfold ExecutionCommand.shouldNotProcessResults
  split <;> rfl

theorem new_setState (config : ResultConfig) : ((ExecutionCommand.new true config).setState .executing).2 =
    { ExecutionCommand.new true config with currentState := .executing } := rfl

/-- A command that no shell has been started for. -/
theorem new_sound {kind : Kind} {command : ExecutionCommand} {task session : Bool} {worker : Worker}
    (hkind : (kind = .task ∧ task = true ∧ session = false ∧ worker = .starting) ∨
      (kind = .session ∧ session = true ∧ task = false ∧ worker = .ended))
    (hstate : command.currentState = .executing) (hclaimed : command.processingResultsAlreadyCalled = false) :
    ({ kind, command, task, session, worker } : Entry).Sound := by
  rcases hkind with ⟨rfl, rfl, rfl, rfl⟩ | ⟨rfl, rfl, rfl, rfl⟩
  · apply Sound.of_task rfl rfl rfl fun _ => rfl
    intro _
    exact ⟨rfl, rfl, by simp, by simp [hclaimed, handingWorker, handingKiller],
      by simp [hclaimed, lateWorker, lateKiller], by simp [hstate], by simp [hstate], by simp [doneWorker]⟩
  · exact ⟨fun _ => rfl, fun _ => by simp [Accounted, claimed, hclaimed], by simp, by simp,
      fun _ => ⟨rfl, hclaimed, hstate⟩, fun _ => ⟨rfl, rfl, rfl⟩, by simp⟩

theorem sound_create (intent : Intent) (error : Option ResultError) :
    (Entry.create { kind := .attached, command := .new true intent.resultConfig, pending := true } intent error).Sound := by
  rw [Entry.create, new_setState]
  cases intent.appShell with
  | false => exact new_sound (.inr ⟨rfl, rfl, rfl, rfl⟩) rfl rfl
  | true =>
    rw [if_pos rfl]
    cases intent.start with
    | executableUnset =>
      apply failed_sound (.inr rfl)
      · rw [claim_isStateFailed]
        exact setStateFailed_isStateFailed _ _ _ _ _ (by simp [ExecutionCommand.new])
      · exact claim_claimed _
    | execFailed =>
      apply failed_sound (.inr rfl)
      · rw [claim_isStateFailed]
        exact setStateFailed_isStateFailed _ _ _ _ _ (by simp)
      · exact claim_claimed _
    | executes => exact new_sound (.inl ⟨rfl, rfl, rfl, rfl⟩) rfl rfl

theorem sound_execute (intent : Intent) (error : Option ResultError) : (Entry.execute intent error).Sound := by
  have hrefused : (Entry.processError (Entry.fail (Entry.mk .refused (.new true intent.resultConfig) true false false
      .ended none 0 0 false) intent.errmsg) error).Sound := by
    apply failed_sound (.inl rfl)
    · exact setStateFailed_isStateFailed _ _ _ _ _ (by simp [ExecutionCommand.new])
    · exact (setStateFailed_same ..).claimed
  unfold Entry.execute
  split
  · split
    · exact sound_create intent error
    · exact ⟨fun _ => rfl, fun _ => by simp [Accounted, claimed, ExecutionCommand.new], by simp, by simp, by simp,
        fun _ => ⟨rfl, rfl, rfl⟩, by simp⟩
    · exact sound_create intent error
    · exact hrefused
    · exact hrefused
  · have hsame := setStateFailed_same (.new true ⟨false, none, none⟩) none Errno.failed (some intent.errmsg) []
    have hexpects : (Entry.processError (Entry.fail (Entry.mk .unsupported (.new true ⟨false, none, none⟩) false false
        false .ended none 0 0 false) intent.errmsg) error).expects = false :=
      (processError_same _ error).expects.trans hsame.expects
    refine ⟨fun _ => ?_, fun hx => ?_, by simp [processError, Entry.fail], fun ht => absurd ht Bool.false_ne_true,
      fun hs => absurd hs Bool.false_ne_true, fun _ => ⟨rfl, rfl, rfl⟩, fun hs => absurd hs Bool.false_ne_true⟩
    · have hnot : (Entry.fail (Entry.mk .unsupported (.new true ⟨false, none, none⟩) false false false .ended none 0 0
        false) intent.errmsg).expects = false := hsame.expects
      simp only [processError, hnot, Bool.and_false]
      rfl
    · rw [hexpects] at hx
      cases hx

/-- A call that is not made by `killIfExecuting` of a shell. -/
structure Frame (e e' : Entry) : Prop where
  kind : e'.kind = e.kind
  killer : e'.killer = e.killer
  session : e.session = false → e'.session = false

@[simp] theorem exited_killer (effect : AppShell.Effect) : (e.exited effect).killer = e.killer := by
  cases effect <;> rfl

theorem work_frame (e : Entry) (world : World) : Frame e (e.work world) :=
  ⟨by simp [Entry.work], by simp [Entry.work], by simp [Entry.work]⟩

theorem runnable_frame (e : Entry) (error : Option ResultError) : Frame e (e.runnable error) := by
  unfold Entry.runnable
  split
  · exact ⟨rfl, rfl, id⟩
  · exact ⟨rfl, rfl, id⟩

theorem sessionExited_frame (e : Entry) (command : ExecutionCommand) (error : Option ResultError) :
    Frame e (({ e with command } : Entry).sessionExited error) := by
  unfold Entry.sessionExited
  split
  · exact ⟨rfl, rfl, id⟩
  · exact ⟨rfl, rfl, fun _ => rfl⟩

theorem finish_frame (e : Entry) (exitCode : Int) (error : Option ResultError) : Frame e (e.finish exitCode error) := by
  unfold Entry.finish
  split
  · exact ⟨rfl, rfl, id⟩
  · simp only
    split
    · exact sessionExited_frame e _ error
    · exact ⟨rfl, rfl, id⟩

theorem leave_frame (e : Entry) (mWantsToStop : Bool) (error : Option ResultError) :
    Frame e (e.leave mWantsToStop error) := by
  have hkill : ∀ processResult, Frame e (e.killSession processResult error) := by
    intro processResult
    unfold Entry.killSession
    split
    · exact ⟨rfl, rfl, id⟩
    · simp only
      split
      · exact sessionExited_frame e _ error
      · exact ⟨rfl, rfl, id⟩
  unfold Entry.leave
  split
  · have hframe := hkill (mWantsToStop || e.expects)
    simp only
    split
    · exact hframe
    · exact ⟨hframe.kind, hframe.killer, fun _ => rfl⟩
  · split
    · exact ⟨rfl, rfl, id⟩
    · exact ⟨rfl, rfl, id⟩

theorem cancel_frame (e : Entry) (error : Option ResultError) : Frame e (e.cancel error) := by
  unfold Entry.cancel
  split
  · split
    · exact ⟨rfl, rfl, id⟩
    · split
      · simp only
        split <;> exact ⟨rfl, rfl, id⟩
      · exact ⟨rfl, rfl, id⟩
  · exact ⟨rfl, rfl, id⟩

theorem kill_frame (e : Entry) : e.kill.kind = e.kind ∧ (e.session = false → e.kill.session = false) := by
  unfold Entry.kill
  split
  · exact ⟨rfl, id⟩
  · exact ⟨by simp, by simp⟩

theorem execute_killer (intent : Intent) (error : Option ResultError) : (Entry.execute intent error).killer = none := by
  unfold Entry.execute Entry.create
  split
  · split
    · split
      · split <;> rfl
      · rfl
    · rfl
    · split
      · split <;> rfl
      · rfl
    · rfl
    · rfl
  · rfl

end Entry

/-! ## The service -/

namespace Service

variable {s : Service}

/-- Every command is accounted for.  While all are killed, only the task whose turn it is has a second thread, and
there are no sessions. -/
structure Sound (s : Service) : Prop where
  entry : ∀ (j : Nat) (e : Entry), s.entries[j]? = some e → e.Sound
  killer : ∀ (j : Nat) (e : Entry), s.entries[j]? = some e → e.killer ≠ none → ∃ is, s.killing = some (j :: is)
  task : ∀ (j : Nat) (e : Entry), s.entries[j]? = some e → ∀ is, s.killing = some is → j ∈ is → e.kind = .task
  session : ∀ (j : Nat) (e : Entry), s.entries[j]? = some e → s.killing ≠ none → e.session = false

theorem getElem?_modify_cases {entries : List Entry} {i j : Nat} {f : Entry → Entry} {e' : Entry}
    (h : (entries.modify i f)[j]? = some e') : ∃ e, entries[j]? = some e ∧ (e' = e ∨ (i = j ∧ e' = f e)) := by
  rw [List.getElem?_modify] at h
  cases hj : entries[j]? with
  | none => simp [hj] at h
  | some e =>
    refine ⟨e, rfl, ?_⟩
    by_cases hij : i = j
    · right
      simpa [hj, hij, eq_comm] using h
    · left
      simpa [hj, hij, eq_comm] using h

theorem getElem?_mapIdx_cases {entries : List Entry} {j : Nat} {f : Nat → Entry → Entry} {e' : Entry}
    (h : (entries.mapIdx f)[j]? = some e') : ∃ e, entries[j]? = some e ∧ e' = f j e := by
  rw [List.getElem?_mapIdx, Option.map_eq_some_iff] at h
  rcases h with ⟨e, he, rfl⟩
  exact ⟨e, he, rfl⟩

theorem Sound.modify (h : s.Sound) (i : Nat) (f : Entry → Entry)
    (hf : ∀ e, s.entries[i]? = some e → (f e).Sound ∧ Entry.Frame e (f e)) :
    Sound { s with entries := s.entries.modify i f } := by
  have hget : ∀ j e', (s.entries.modify i f)[j]? = some e' →
      ∃ e, s.entries[j]? = some e ∧ (e' = e ∨ (i = j ∧ e' = f e)) := fun j e' => getElem?_modify_cases
  refine ⟨?_, ?_, ?_, ?_⟩
  · intro j e' he'
    rcases hget j e' he' with ⟨e, he, rfl | ⟨rfl, rfl⟩⟩
    · exact h.entry j e' he
    · exact (hf e he).1
  · intro j e' he' hk
    rcases hget j e' he' with ⟨e, he, rfl | ⟨rfl, rfl⟩⟩
    · exact h.killer j e' he hk
    · rw [(hf e he).2.killer] at hk
      exact h.killer i e he hk
  · intro j e' he' is his hj
    rcases hget j e' he' with ⟨e, he, rfl | ⟨rfl, rfl⟩⟩
    · exact h.task j e' he is his hj
    · rw [(hf e he).2.kind]
      exact h.task i e he is his hj
  · intro j e' he' hkilling
    rcases hget j e' he' with ⟨e, he, rfl | ⟨rfl, rfl⟩⟩
    · exact h.session j e' he hkilling
    · exact (hf e he).2.session (h.session i e he hkilling)

/-- The main thread goes on to the next task while no task is killed. -/
theorem sound_turn {entries : List Entry} {is : List Nat}
    (hentries : ∀ (j : Nat) (e : Entry), entries[j]? = some e → e.Sound ∧ e.killer = none ∧ e.session = false ∧
      (j ∈ is → e.kind = .task)) : (turn entries is).Sound := by
  cases is with
  | nil =>
    refine ⟨fun j e he => (hentries j e he).1, fun j e he hk => absurd (hentries j e he).2.1 hk, ?_,
      fun j e he _ => (hentries j e he).2.2.1⟩
    intro j e he is his hj
    cases his
    cases hj
  | cons i is =>
    have hget : ∀ j e', (turn entries (i :: is)).entries[j]? = some e' → ∃ e, entries[j]? = some e ∧
        (e' = e ∨ (i = j ∧ e' = { e with killer := some .testing })) := fun j e' => getElem?_modify_cases
    refine ⟨?_, ?_, ?_, ?_⟩
    · intro j e' he'
      rcases hget j e' he' with ⟨e, he, rfl | ⟨rfl, rfl⟩⟩
      · exact (hentries j e' he).1
      · rcases hentries i e he with ⟨hsound, hkiller, -, htask⟩
        apply hsound.setKiller (htask List.mem_cons_self) <;> simp [hkiller, lateKiller, handingKiller]
    · intro j e' he' hk
      rcases hget j e' he' with ⟨e, he, rfl | ⟨rfl, rfl⟩⟩
      · exact absurd (hentries j e' he).2.1 hk
      · exact ⟨is, rfl⟩
    · intro j e' he' is' his' hj
      cases his'
      rcases hget j e' he' with ⟨e, he, rfl | ⟨rfl, rfl⟩⟩
      · exact (hentries j e' he).2.2.2 hj
      · exact (hentries i e he).2.2.2 hj
    · intro j e' he' _
      rcases hget j e' he' with ⟨e, he, rfl | ⟨rfl, rfl⟩⟩
      · exact (hentries j e' he).2.2.1
      · exact (hentries i e he).2.2.1

theorem Sound.kill (h : s.Sound) : (s.step .kill).Sound := by
  rcases s with ⟨entries, killing⟩
  rcases killing with - | (- | ⟨i, is⟩)
  · exact h
  · exact h
  -- Only the entry at the head of the list is being killed.
  · have hothers : ∀ (j : Nat) (e : Entry), entries[j]? = some e → i ≠ j → e.killer = none := by
      intro j e he hij
      by_contra hk
      rcases h.killer j e he hk with ⟨is', his'⟩
      cases his'
      exact hij rfl
    have htask : ∀ (j : Nat) (e : Entry), entries[j]? = some e → j ∈ i :: is → e.kind = .task :=
      fun j e he hj => h.task j e he _ rfl hj
    have hsession : ∀ (j : Nat) (e : Entry), entries[j]? = some e → e.session = false :=
      fun j e he => h.session j e he (by simp)
    simp only [step]
    -- Either the killer has returned and the next task has its turn, or it takes a step of its own.
    split_ifs with hreturned
    · apply sound_turn
      intro j e' he'
      rw [List.getElem?_modify] at he'
      by_cases hij : i = j
      · subst hij
        cases he : entries[i]? with
        | none => simp [he] at he'
        | some e =>
          have hkiller : e.killer = some .returned := by simpa [he] using hreturned
          have heq : e' = { e with killer := none } := by simpa [he, eq_comm] using he'
          subst heq
          refine ⟨?_, rfl, hsession i e he, fun hj => htask i e he (List.mem_cons_of_mem i hj)⟩
          apply (h.entry i e he).setKiller (htask i e he List.mem_cons_self) <;>
            simp [hkiller, lateKiller, handingKiller]
      · have he : entries[j]? = some e' := by simpa [hij] using he'
        exact ⟨h.entry j e' he, hothers j e' he hij, hsession j e' he, fun hj => htask j e' he (List.mem_cons_of_mem i hj)⟩
    · refine ⟨?_, ?_, ?_, ?_⟩
      · intro j e' he'
        rcases getElem?_modify_cases he' with ⟨e, he, rfl | ⟨rfl, rfl⟩⟩
        · exact h.entry j e' he
        · exact (h.entry i e he).kill (htask i e he List.mem_cons_self)
      · intro j e' he' hk
        rcases getElem?_modify_cases he' with ⟨e, he, rfl | ⟨rfl, rfl⟩⟩
        · exact h.killer j e' he hk
        · exact ⟨is, rfl⟩
      · intro j e' he' is' his hj
        rcases getElem?_modify_cases he' with ⟨e, he, rfl | ⟨rfl, rfl⟩⟩
        · exact h.task j e' he is' his hj
        · exact e.kill_frame.1.trans (h.task i e he is' his hj)
      · intro j e' he' _
        rcases getElem?_modify_cases he' with ⟨e, he, rfl | ⟨rfl, rfl⟩⟩
        · exact hsession j e' he
        · exact e.kill_frame.2 (hsession i e he)

theorem Sound.idle (h : s.Sound) (hidle : s.killing = none ∨ s.killing = some []) (j : Nat) (e : Entry)
    (he : s.entries[j]? = some e) : e.killer = none := by
  by_contra hk
  rcases h.killer j e he hk with ⟨is, his⟩
  rcases hidle with hnone | hnil
  · rw [hnone] at his
    cases his
  · rw [hnil] at his
    cases his

theorem Sound.cancel (h : s.Sound) (errors : Nat → Option ResultError) : (s.step (.cancel errors)).Sound := by
  simp only [step]
  split
  case h_2 => exact h
  case h_1 hnil =>
    have hget := fun (j : Nat) (e' : Entry) (he' : (s.entries.mapIdx fun i e =>
      ({ e.cancel (errors i) with stopped := true } : Entry))[j]? = some e') => getElem?_mapIdx_cases he'
    refine ⟨?_, ?_, ?_, ?_⟩
    · intro j e' he'
      rcases hget j e' he' with ⟨e, he, rfl⟩
      exact (h.entry j e he).cancel (h.session j e he (by simp [hnil])) (errors j)
    · intro j e' he' hk
      rcases hget j e' he' with ⟨e, he, rfl⟩
      exact absurd ((e.cancel_frame (errors j)).killer.trans (h.idle (.inr hnil) j e he)) hk
    · intro j e' he' is his
      cases his
    · intro j e' he' hne
      exact absurd rfl hne

theorem Sound.step (h : s.Sound) (action : Action) : (s.step action).Sound := by
  cases action with
  | kill => exact h.kill
  | cancel errors => exact h.cancel errors
  | work i world => exact h.modify i _ fun e he => ⟨(h.entry i e he).work world, e.work_frame world⟩
  | runnable i error =>
    simp only [Service.step]
    split
    · exact h
    · exact h.modify i _ fun e he => ⟨(h.entry i e he).runnable error, e.runnable_frame error⟩
  | finish i exitCode error =>
    simp only [Service.step]
    split
    · exact h
    · exact h.modify i _ fun e he => ⟨(h.entry i e he).finish exitCode error, e.finish_frame exitCode error⟩
  | execute intent error =>
    simp only [Service.step]
    split
    case isTrue => exact h
    case isFalse hidle =>
      have hnone : s.killing = none := by simpa using hidle
      -- An execution appends its entry, and the others keep their places.
      have hget : ∀ (j : Nat) (e : Entry), (s.entries ++ [Entry.execute intent error])[j]? = some e →
          s.entries[j]? = some e ∨ e = Entry.execute intent error := by
        intro j e he
        rw [List.getElem?_append] at he
        split at he
        · exact .inl he
        · right
          simpa using (List.mem_of_getElem? he)
      refine ⟨?_, ?_, ?_, ?_⟩
      · intro j e he
        rcases hget j e he with he | rfl
        · exact h.entry j e he
        · exact Entry.sound_execute intent error
      · intro j e he hk
        rcases hget j e he with he | rfl
        · exact h.killer j e he hk
        · exact absurd (Entry.execute_killer intent error) hk
      · intro j e he is his
        rw [show s.killing = some is from his] at hnone
        cases hnone
      · intro j e he hne
        exact absurd hnone hne
  | stop mWantsToStop errors =>
    simp only [Service.step]
    split
    case isTrue => exact h
    case isFalse hidle =>
      have hnone : s.killing = none := by simpa using hidle
      apply sound_turn
      intro j e' he'
      rcases getElem?_mapIdx_cases he' with ⟨e, he, rfl⟩
      have hleave := (h.entry j e he).leave mWantsToStop (errors j)
      have hframe := e.leave_frame mWantsToStop (errors j)
      refine ⟨hleave.1, hframe.killer.trans (h.idle (.inl hnone) j e he), hleave.2, fun hj => hframe.kind.trans ?_⟩
      rw [tasksToKill, List.mem_filter, he] at hj
      have htask : e.task = true := by
        have := hj.2
        simp only [Option.any_some, Bool.and_eq_true] at this
        exact this.1
      exact (h.entry j e he).task htask

/-- How often the results of a command are sent. -/
def limit (kind : Kind) : Nat := if kind = .refused then 2 else 1

theorem toNat_le_one (b : Bool) : b.toNat ≤ 1 := by cases b <;> decide

theorem answers_le {e : Entry} (h : e.Sound) (hexpects : e.expects = true) : e.answers ≤ limit e.kind := by
  have hone := toNat_le_one e.claimed
  have haccounted := h.accounted hexpects
  cases hkind : e.kind <;> simp only [Entry.Accounted, hkind] at haccounted <;> simp only [limit, reduceCtorEq, if_true, if_false]
  case refused => omega
  case attached => omega
  case notStarted => omega
  case session => omega
  case task =>
    have hcount := haccounted.count
    have hle := toNat_le_one e.command.processingResultsAlreadyCalled
    omega

theorem answers_listed {e : Entry} (h : e.Sound) (hexpects : e.expects = true) (hanswers : e.answers ≠ 0) :
    e.task = false ∧ e.session = false := by
  have haccounted := h.accounted hexpects
  constructor
  · rw [← Bool.not_eq_true]
    intro htask
    rw [Entry.Accounted, h.task htask] at haccounted
    exact hanswers (haccounted.listed.mp htask)
  · rw [← Bool.not_eq_true]
    intro hsession
    rcases h.session hsession with ⟨hkind, hclaimed, -⟩
    rw [Entry.Accounted, hkind] at haccounted
    rw [hclaimed] at haccounted
    exact hanswers haccounted.1

theorem answers_settled {e : Entry} (h : e.Sound) (hexpects : e.expects = true) (hkiller : e.killer = none)
    (hstopped : e.stopped = true) (hworker : e.worker = .ended) (hposted : e.posted = 0) : e.answers = limit e.kind := by
  have haccounted := h.accounted hexpects
  rcases h.stopped hstopped hexpects with ⟨hpending, hsession⟩
  cases hkind : e.kind <;> simp only [Entry.Accounted, hkind] at haccounted <;> simp only [limit, reduceCtorEq, if_true, if_false]
  case refused =>
    have hclaimed := hpending (h.pending.mpr (.inl hkind))
    rw [hclaimed] at haccounted
    exact haccounted.1
  case attached =>
    have hclaimed := hpending (h.pending.mpr (.inr (.inl hkind)))
    rw [hclaimed] at haccounted
    exact haccounted.1
  case notStarted => exact haccounted.1
  case session =>
    rw [haccounted.2 hsession] at haccounted
    exact haccounted.1
  case task =>
    have hclaimed : e.command.processingResultsAlreadyCalled = true := by
      rcases haccounted.done (by rw [hworker]; rfl) with hclaimed | hlate
      · exact hclaimed
      · rw [hkiller] at hlate
        cases hlate
    have hcount := haccounted.count
    rw [hclaimed, hposted, hworker, hkiller] at hcount
    exact hcount

/-- The results of a command are sent only if they are waited for, and then at most once, and exactly once when
its shell has ended, its runnables have run and all commands have been killed.  The one exception is a command
whose shell create mode cannot be followed: it stays pending, so the error is sent, and then the cancellation.
A command whose results have been sent is in neither list of shells, but stays in the list of pending commands
if no shell was started for it. -/
theorem results_sent_once (actions : List Action) :
    ∀ e ∈ (Run.after step start actions).entries,
      (e.expects = false → e.answers = 0) ∧
      (e.expects = true → e.answers ≤ limit e.kind ∧ (e.answers ≠ 0 → e.task = false ∧ e.session = false) ∧
        ((Run.after step start actions).killing = none → e.stopped = true → e.worker = .ended → e.posted = 0 →
          e.answers = limit e.kind)) ∧
      (e.pending = true ↔ e.kind = .refused ∨ e.kind = .attached ∨ e.kind = .notStarted) := by
  have hsound : (Run.after step start actions).Sound := by
    refine Run.after_invariant (I := Sound) (fun s action hs => hs.step action) ?_
    exact ⟨fun j e he => by simp [start] at he, fun j e he => by simp [start] at he,
      fun j e he => by simp [start] at he, fun j e he => by simp [start] at he⟩
  intro e he
  rcases List.getElem?_of_mem he with ⟨j, hj⟩
  have h := hsound.entry j e hj
  refine ⟨h.silent, fun hexpects => ⟨answers_le h hexpects, answers_listed h hexpects, ?_⟩, h.pending⟩
  intro hidle hstopped hworker hposted
  exact answers_settled h hexpects (hsound.idle (.inl hidle) j e hj) hstopped hworker hposted

/-- An intent with an unknown shell create mode is answered, and answered again when the service is stopped. -/
theorem results_sent_once_refused :
    ∃ e ∈ (Run.after step start [.execute ⟨true, true, .other, ⟨true, none, none⟩, .executes, []⟩ none,
      .stop true fun _ => none, .cancel fun _ => none]).entries, e.kind = .refused ∧ e.answers = 2 := by
  have hmem := @List.head_mem _ (Run.after step start [.execute ⟨true, true, .other, ⟨true, none, none⟩, .executes, []⟩ none,
    .stop true fun _ => none, .cancel fun _ => none]).entries (by decide)
  have hlimit := ((results_sent_once _ _ hmem).2.1 (by decide)).2.2 (by decide) (by decide) (by decide) (by decide)
  exact ⟨_, hmem, by decide, hlimit.trans (by decide)⟩

end Service

end PluginCommands

end XoDos
