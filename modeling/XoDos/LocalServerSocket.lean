import XoDos.Ime
import XoDos.Run

/-!
# `LocalSocketManager` and `LocalServerSocket`

A local socket server is started and stopped.  The flag of the manager, the file descriptor in the run
config and the thread of the listener are changed one after the other, and what is called may fail.

The sockets that are created are numbered.  The accepting of clients is left out: the listener goes on
until it sees that it was interrupted, or that there is no file descriptor.
-/

namespace XoDos.LocalSocket

inductive LocalSocketErrno where
  | startLocalSocketLibLoadFailedWithException
  | serverSocketPathNullOrEmpty
  | serverSocketPathTooLong
  | serverSocketPathNotAbsolute
  | serverSocketBacklogInvalid
  | createServerSocketFailed
  | serverSocketFdInvalid
  | closeServerSocketFailedWithException
  /-- An error of `FileUtils` about the directory of the socket file. -/
  | parentDirectory
  /-- An error of `FileUtils.deleteSocketFile`. -/
  | deleteSocketFile
deriving DecidableEq

structure LocalSocketRunConfig where
  mPath : JavaString
  mAbstractNamespaceSocket : Bool
  getBacklog : Int
  /-- `FileUtils.getCanonicalPath` -/
  getCanonicalPath : JavaString → JavaString

/-- The path by which the socket is created. -/
def LocalSocketRunConfig.path (config : LocalSocketRunConfig) : JavaString :=
  if config.mAbstractNamespaceSocket then config.mPath else config.getCanonicalPath config.mPath

inductive CreateResult where
  | failed
  | negativeFd
  | created
deriving DecidableEq

/-- What becomes of the calls of a start. -/
structure StartCalls where
  loadLibrary : Bool
  validateParent : Bool
  deleteSocketFile : Bool
  createServerSocket : CreateResult
deriving DecidableEq

inductive Listener where
  | new
  | running
  /-- The loop is left, and the socket not closed yet. -/
  | leaving
  | terminated
deriving DecidableEq

/-- The last call of `start` or `stop`. -/
inductive Call where
  | none
  | started
  | startFailed
  | stopped
  | stopFailed
deriving DecidableEq

structure State where
  localSocketLibraryLoaded : Bool
  mIsRunning : Bool
  mFD : Option Nat
  mClientSocketListener : Listener
  interrupted : Bool
  /-- The number of sockets created. -/
  created : Nat
  isOpen : List Nat
  closed : List Nat
  last : Call
deriving DecidableEq

namespace State

/-- A manager whose library may have been loaded by another one. -/
def start (localSocketLibraryLoaded : Bool) : State where
  localSocketLibraryLoaded := localSocketLibraryLoaded
  mIsRunning := false
  mFD := none
  mClientSocketListener := .new
  interrupted := false
  created := 0
  isOpen := []
  closed := []
  last := .none

variable (config : LocalSocketRunConfig) (calls : StartCalls) (s : State)

/-- `mClientSocketListener.start()`, which throws if the thread was started before. -/
def startListener : State :=
  if s.mClientSocketListener = .new then { s with mClientSocketListener := .running } else s

/-- A created socket becomes that of the run config. -/
def setCreated : State :=
  { s with
    created := s.created + 1
    isOpen := s.created :: s.isOpen
    mFD := some s.created }

/-- `LocalServerSocket.start` -/
def startServer : State × Option LocalSocketErrno :=
  if config.mPath = [] then (s, some .serverSocketPathNullOrEmpty)
  else if 108 < (getBytes config.path).length then (s, some .serverSocketPathTooLong)
  else if config.getBacklog ≤ 0 then (s, some .serverSocketBacklogInvalid)
  else if ¬config.mAbstractNamespaceSocket ∧ config.path.head? ≠ some 0x2F then
    (s, some .serverSocketPathNotAbsolute)
  else if ¬config.mAbstractNamespaceSocket ∧ ¬calls.validateParent then (s, some .parentDirectory)
  else if ¬config.mAbstractNamespaceSocket ∧ ¬calls.deleteSocketFile then (s, some .deleteSocketFile)
  else
    match calls.createServerSocket with
    | .failed => (s, some .createServerSocketFailed)
    | .negativeFd => (s, some .serverSocketFdInvalid)
    | .created => (s.setCreated.startListener, none)

/-- `LocalSocketManager.start` -/
def startManager : State × Option LocalSocketErrno :=
  if ¬s.localSocketLibraryLoaded ∧ ¬calls.loadLibrary then
    (s, some .startLocalSocketLibLoadFailedWithException)
  else { s with localSocketLibraryLoaded := true, mIsRunning := true }.startServer config calls

/-- `LocalServerSocket.close` -/
def close (closeSocket : Bool) : State × Option LocalSocketErrno :=
  match s.mFD with
  | none => (s, none)
  | some fd =>
    if closeSocket then
      ({ s with mFD := none, isOpen := s.isOpen.erase fd, closed := s.closed ++ [fd] }, none)
    else (s, some .closeServerSocketFailedWithException)

/-- To interrupt a thread that was not started does nothing. -/
def interrupt : State := if s.mClientSocketListener = .new then s else { s with interrupted := true }

/-- `LocalServerSocket.stop` -/
def stopServer (closeSocket deleteSocketFile : Bool) : State × Option LocalSocketErrno :=
  let (s, error) := s.interrupt.close closeSocket
  match error with
  | some error => (s, some error)
  | none =>
    (s, if ¬config.mAbstractNamespaceSocket ∧ ¬deleteSocketFile then some .deleteSocketFile else none)

/-- `LocalSocketManager.stop` -/
def stopManager (closeSocket deleteSocketFile : Bool) : State × Option LocalSocketErrno :=
  if s.mIsRunning then
    { s with mIsRunning := false }.stopServer config closeSocket deleteSocketFile
  else (s, none)

end State

inductive Input where
  | start (calls : StartCalls)
  | stop (closeSocket deleteSocketFile : Bool)
  /-- The listener finds that it is to end. -/
  | leave
  /-- The `finally` of the listener. -/
  | closeAtEnd (closeSocket : Bool)
deriving DecidableEq

namespace State

variable (config : LocalSocketRunConfig) (s : State)

def step (config : LocalSocketRunConfig) (s : State) : Input → State
  | .start calls =>
    let (s', error) := s.startManager config calls
    { s' with last := if error.isSome then .startFailed else .started }
  | .stop closeSocket deleteSocketFile =>
    let (s', error) := s.stopManager config closeSocket deleteSocketFile
    { s' with last := if error.isSome then .stopFailed else .stopped }
  | .leave =>
    if s.mClientSocketListener = .running ∧ (s.interrupted = true ∨ s.mFD = none) then
      { s with mClientSocketListener := .leaving }
    else s
  | .closeAtEnd closeSocket =>
    if s.mClientSocketListener = .leaving then
      { (s.close closeSocket).1 with mClientSocketListener := .terminated }
    else s

/-- The listener accepts clients. -/
def Accepting : Prop := s.mClientSocketListener = .running ∧ s.interrupted = false

/-- A socket that is neither closed nor that of the run config is never closed. -/
structure Works (s : State) : Prop where
  started : s.last = .started → ∃ fd, s.isOpen = [fd] ∧ s.mFD = some fd ∧ s.Accepting
  ended : s.last = .startFailed ∨ s.last = .stopped → s.isOpen = [] ∧ s.mIsRunning = false
  once : s.closed.Nodup ∧ ∀ fd < s.created, fd ∈ s.closed ∨ s.mFD = some fd

/-- All that `LocalServerSocket.start` calls goes well, and the run config is valid. -/
structure Succeeds (config : LocalSocketRunConfig) (calls : StartCalls) : Prop where
  path : config.mPath ≠ []
  length : (getBytes config.path).length ≤ 108
  backlog : 0 < config.getBacklog
  file : config.mAbstractNamespaceSocket = false →
    config.path.head? = some 0x2F ∧ calls.validateParent = true ∧ calls.deleteSocketFile = true
  socket : calls.createServerSocket = .created

/-- The server is started only once, with success, unless the library cannot be loaded.  It is not
stopped again after its socket could not be closed. -/
def Calm (config : LocalSocketRunConfig) (s : State) : Input → Prop
  | .start calls =>
    (s.localSocketLibraryLoaded = false ∧ calls.loadLibrary = false) ∨
      (Succeeds config calls ∧ s.mClientSocketListener = .new)
  | .stop _ _ => s.mIsRunning = true ∨ s.mFD = none
  | _ => True

/-! ## Starts -/

variable {config} {s} {calls : StartCalls}

theorem startServer_succeeds (h : Succeeds config calls) :
    s.startServer config calls = (s.setCreated.startListener, none) := by
  obtain ⟨hpath, hlength, hbacklog, hfile, hsocket⟩ := h
  unfold startServer
  rw [if_neg hpath, if_neg (by omega), if_neg (by omega), hsocket]
  cases habstract : config.mAbstractNamespaceSocket with
  | true => simp
  | false =>
    obtain ⟨h₁, h₂, h₃⟩ := hfile habstract
    simp [h₁, h₂, h₃]

theorem startServer_fails (h : ¬Succeeds config calls) :
    ∃ error, s.startServer config calls = (s, some error) := by
  unfold startServer
  split_ifs with hpath hlength hbacklog habsolute hparent hdelete
  · exact ⟨_, rfl⟩
  · exact ⟨_, rfl⟩
  · exact ⟨_, rfl⟩
  · exact ⟨_, rfl⟩
  · exact ⟨_, rfl⟩
  · exact ⟨_, rfl⟩
  · cases hsocket : calls.createServerSocket with
    | failed => exact ⟨_, rfl⟩
    | negativeFd => exact ⟨_, rfl⟩
    | created =>
      refine absurd ⟨hpath, by omega, by omega, ?_, hsocket⟩ h
      intro hfile
      have hfile' : ¬config.mAbstractNamespaceSocket = true := by simp [hfile]
      refine ⟨?_, ?_, ?_⟩
      · by_contra hno
        exact habsolute ⟨hfile', hno⟩
      · by_contra hno
        exact hparent ⟨hfile', hno⟩
      · by_contra hno
        exact hdelete ⟨hfile', hno⟩

/-! ## The invariant -/

/-- The sockets: the one of the run config is open, and the others were closed once. -/
structure Ledger (mFD : Option Nat) (created : Nat) (isOpen closed : List Nat) : Prop where
  isOpen : isOpen = mFD.toList
  fresh : ∀ fd, fd ∈ closed ∨ mFD = some fd → fd < created
  apart : ∀ fd, mFD = some fd → fd ∉ closed
  once : closed.Nodup ∧ ∀ fd < created, fd ∈ closed ∨ mFD = some fd

theorem Ledger.close {fd created : Nat} {isOpen closed : List Nat}
    (h : Ledger (some fd) created isOpen closed) : Ledger none created [] (closed ++ [fd]) := by
  have hapart := h.apart fd rfl
  refine ⟨rfl, fun fd' hfd => ?_, fun fd' hfd => (by cases hfd), ?_, fun fd' hlt => .inl ?_⟩
  · rcases hfd with hfd | hfd
    · rcases List.mem_append.mp hfd with hfd | hfd
      · exact h.fresh fd' (.inl hfd)
      · rw [List.mem_singleton.mp hfd]
        exact h.fresh fd (.inr rfl)
    · cases hfd
  · apply List.nodup_append.mpr
    refine ⟨h.once.1, List.nodup_singleton fd, fun a ha b hb hab => ?_⟩
    rw [List.mem_singleton] at hb
    exact hapart (hb ▸ hab ▸ ha)
  · rcases h.once.2 fd' hlt with hfd | hfd
    · exact List.mem_append_left _ hfd
    · rw [Option.some.injEq] at hfd
      simp [hfd]

theorem Ledger.create {created : Nat} {isOpen closed : List Nat}
    (h : Ledger none created isOpen closed) :
    Ledger (some created) (created + 1) (created :: isOpen) closed := by
  refine ⟨by rw [h.isOpen]; rfl, fun fd hfd => ?_, fun fd hfd hno => ?_, h.once.1, fun fd hlt => ?_⟩
  · rcases hfd with hfd | hfd
    · exact Nat.lt_succ_of_lt (h.fresh fd (.inl hfd))
    · rw [← Option.some.inj hfd]
      exact Nat.lt_succ_self created
  · rw [← Option.some.inj hfd] at hno
    exact Nat.lt_irrefl _ (h.fresh _ (.inl hno))
  · by_cases heq : fd = created
    · exact .inr (by rw [heq])
    · rcases h.once.2 fd (by omega) with hfd | hfd
      · exact .inl hfd
      · cases hfd

structure Inv (s : State) : Prop where
  works : s.Works
  ledger : Ledger s.mFD s.created s.isOpen s.closed
  new : s.mClientSocketListener = .new → s.mFD = none ∧ s.mIsRunning = false ∧ s.interrupted = false
  loaded : s.localSocketLibraryLoaded = false → s.mClientSocketListener = .new
  running : s.mIsRunning = true ↔ s.last = .started
  accepting : s.Accepting → s.mFD ≠ none

theorem Inv.start (loaded : Bool) : (State.start loaded).Inv where
  works := ⟨fun h => (by cases h), fun h => (by rcases h with h | h <;> cases h), List.nodup_nil,
    fun fd h => absurd h (Nat.not_lt_zero fd)⟩
  ledger := ⟨rfl, fun fd h => (by rcases h with h | h <;> cases h), fun fd h => (by cases h),
    List.nodup_nil, fun fd h => absurd h (Nat.not_lt_zero fd)⟩
  new _ := ⟨rfl, rfl, rfl⟩
  loaded _ := rfl
  running := ⟨fun h => (by cases h), fun h => (by cases h)⟩
  accepting h := by cases h.1

theorem Inv.isOpen_nil (h : s.Inv) (hfd : s.mFD = none) : s.isOpen = [] := by
  rw [h.ledger.isOpen, hfd]
  rfl

/-- The library cannot be loaded. -/
theorem inv_start_unloaded (h : s.Inv) (hloaded : s.localSocketLibraryLoaded = false)
    (hcalls : calls.loadLibrary = false) : (s.step config (.start calls)).Inv := by
  have hstep : s.step config (.start calls) = { s with last := .startFailed } := by
    simp [step, startManager, hloaded, hcalls]
  obtain ⟨hfd, hrunning, -⟩ := h.new (h.loaded hloaded)
  rw [hstep]
  refine ⟨⟨fun hno => ?_, fun _ => ⟨h.isOpen_nil hfd, hrunning⟩, h.works.once⟩, h.ledger, h.new,
    h.loaded, ?_, h.accepting⟩
  · cases hno
  · constructor
    · intro hyes
      exact absurd (hrunning.symm.trans hyes) (by simp)
    · intro hno
      cases hno

theorem step_start_succeeds (hloaded : ¬(s.localSocketLibraryLoaded = false ∧ calls.loadLibrary = false))
    (h : Succeeds config calls) :
    s.step config (.start calls) =
      { ({ s with localSocketLibraryLoaded := true, mIsRunning := true } : State).setCreated.startListener
        with last := .started } := by
  have hno : ¬(¬s.localSocketLibraryLoaded = true ∧ ¬calls.loadLibrary = true) := by
    simpa using hloaded
  rw [step, startManager, if_neg hno, startServer_succeeds h]
  rfl

/-- The server is started for the first time. -/
theorem inv_start_new (h : s.Inv)
    (hloaded : ¬(s.localSocketLibraryLoaded = false ∧ calls.loadLibrary = false))
    (hsucceeds : Succeeds config calls) (hnew : s.mClientSocketListener = .new) :
    (s.step config (.start calls)).Inv := by
  obtain ⟨hfd, -, hinterrupted⟩ := h.new hnew
  have hledger := h.ledger
  rw [hfd] at hledger
  have hopen := h.isOpen_nil hfd
  rw [step_start_succeeds hloaded hsucceeds, startListener, if_pos (by exact hnew)]
  refine ⟨⟨fun _ => ⟨s.created, ?_, rfl, rfl, hinterrupted⟩, fun hno => ?_, hledger.create.once⟩,
    hledger.create, fun hno => (by cases hno), fun hno => (by cases hno), ⟨fun _ => rfl, fun _ => rfl⟩,
    fun _ hno => (by cases hno)⟩
  · simp [setCreated, hopen]
  · rcases hno with hno | hno <;> cases hno

/-- A second start leaves an open socket behind, or no thread that listens. -/
theorem not_works_start_again (h : s.Inv)
    (hloaded : ¬(s.localSocketLibraryLoaded = false ∧ calls.loadLibrary = false))
    (hsucceeds : Succeeds config calls) (hnew : s.mClientSocketListener ≠ .new) :
    ¬(s.step config (.start calls)).Works := by
  rw [step_start_succeeds hloaded hsucceeds, startListener, if_neg (by exact hnew)]
  intro hworks
  obtain ⟨fd, hopen, -, haccepting⟩ := hworks.started rfl
  have hone : s.isOpen = [] := (List.cons.inj hopen).2
  apply h.accepting haccepting
  rw [h.ledger.isOpen] at hone
  cases hfd : s.mFD with
  | none => rfl
  | some fd' =>
    rw [hfd] at hone
    cases hone

/-- A start that fails leaves the flag set. -/
theorem not_works_start_fails
    (hloaded : ¬(s.localSocketLibraryLoaded = false ∧ calls.loadLibrary = false))
    (hfails : ¬Succeeds config calls) : ¬(s.step config (.start calls)).Works := by
  have hno : ¬(¬s.localSocketLibraryLoaded = true ∧ ¬calls.loadLibrary = true) := by
    simpa using hloaded
  obtain ⟨error, herror⟩ := startServer_fails
    (s := { s with localSocketLibraryLoaded := true, mIsRunning := true }) hfails
  have hstep : s.step config (.start calls) =
      { s with localSocketLibraryLoaded := true, mIsRunning := true, last := .startFailed } := by
    rw [step, startManager, if_neg hno, herror]
    rfl
  rw [hstep]
  intro hworks
  have hrunning := (hworks.ended (.inl rfl)).2
  cases hrunning

/-! ## Stops and the end of the listener -/

/-- A socket is closed while the listener is not to go on. -/
theorem Inv.close {fd : Nat} {listener : Listener} {last : Call} (h : s.Inv) (hfd : s.mFD = some fd)
    (hlast : last ≠ .started) (hlistener : listener ≠ .new) (hloaded : s.localSocketLibraryLoaded = true)
    (interrupted : Bool) (haccepting : ¬(listener = .running ∧ interrupted = false)) :
    ({ s with
      mIsRunning := false
      mFD := none
      mClientSocketListener := listener
      interrupted := interrupted
      isOpen := []
      closed := s.closed ++ [fd]
      last := last } : State).Inv := by
  have hledger := h.ledger
  rw [hfd] at hledger
  refine ⟨⟨fun hno => absurd hno hlast, fun _ => ⟨rfl, rfl⟩, hledger.close.once⟩, hledger.close,
    fun hno => absurd hno hlistener, fun hno => ?_, ⟨fun hno => (by cases hno), fun hno => absurd hno hlast⟩,
    fun hno => absurd hno haccepting⟩
  exact absurd (hloaded.symm.trans hno) (by simp)

theorem Inv.loaded_of_listener (h : s.Inv) (hlistener : s.mClientSocketListener ≠ .new) :
    s.localSocketLibraryLoaded = true := by
  cases hloaded : s.localSocketLibraryLoaded with
  | false => exact absurd (h.loaded hloaded) hlistener
  | true => rfl

/-- The server is stopped while it runs. -/
theorem inv_stop_running (h : s.Inv) (hrunning : s.mIsRunning = true) (closeSocket deleteSocketFile : Bool) :
    (s.step config (.stop closeSocket deleteSocketFile)).Inv := by
  obtain ⟨fd, hopen, hfd, hlistener, -⟩ := h.works.started (h.running.mp hrunning)
  have hnew : s.mClientSocketListener ≠ .new := by
    rw [hlistener]
    decide
  have hinterrupt : ({ s with mIsRunning := false } : State).interrupt =
      { s with mIsRunning := false, interrupted := true } := by
    rw [interrupt, if_neg hnew]
  cases closeSocket with
  | false =>
    have hstep : s.step config (.stop false deleteSocketFile) =
        { s with mIsRunning := false, interrupted := true, last := .stopFailed } := by
      rw [step, stopManager, if_pos hrunning, stopServer, hinterrupt]
      simp [State.close, hfd]
    rw [hstep]
    refine ⟨⟨fun hno => (by cases hno), fun hno => (by rcases hno with hno | hno <;> cases hno),
      h.works.once⟩, h.ledger, fun hno => absurd hno hnew, h.loaded, ?_, fun hno => (by cases hno.2)⟩
    exact ⟨fun hno => (by cases hno), fun hno => (by cases hno)⟩
  | true =>
    obtain ⟨last, hlast, hstep⟩ : ∃ last, last ≠ Call.started ∧
        s.step config (.stop true deleteSocketFile) =
          { s with
            mIsRunning := false
            interrupted := true
            mFD := none
            isOpen := []
            closed := s.closed ++ [fd]
            last := last } := by
      rw [step, stopManager, if_pos hrunning, stopServer, hinterrupt]
      simp only [State.close, hfd, hopen, if_true, List.erase_cons_head]
      refine ⟨_, ?_, rfl⟩
      split_ifs <;> decide
    rw [hstep]
    exact h.close hfd hlast hnew (h.loaded_of_listener hnew) true (fun hno => (by cases hno.2))

theorem step_stop_idle (hidle : s.mIsRunning = false) (closeSocket deleteSocketFile : Bool) :
    s.step config (.stop closeSocket deleteSocketFile) = { s with last := .stopped } := by
  rw [step, stopManager, if_neg (by simp [hidle])]
  rfl

/-- The server is stopped while it does not run. -/
theorem inv_stop_idle (h : s.Inv) (hidle : s.mIsRunning = false) (hfd : s.mFD = none)
    (closeSocket deleteSocketFile : Bool) :
    (s.step config (.stop closeSocket deleteSocketFile)).Inv := by
  rw [step_stop_idle hidle]
  refine ⟨⟨fun hno => (by cases hno), fun _ => ⟨h.isOpen_nil hfd, hidle⟩, h.works.once⟩, h.ledger, h.new,
    h.loaded, ?_, h.accepting⟩
  constructor
  · intro hyes
    exact absurd (hidle.symm.trans hyes) (by decide)
  · intro hno
    cases hno

/-- The listener of a server that was started and not stopped does not end. -/
theorem Inv.not_started_of_ending (h : s.Inv)
    (hend : s.mClientSocketListener ≠ .running ∨ s.interrupted = true ∨ s.mFD = none) :
    s.last ≠ .started ∧ s.mIsRunning = false := by
  have hlast : s.last ≠ .started := by
    intro hstarted
    obtain ⟨fd, -, hfd, hlistener, hinterrupted⟩ := h.works.started hstarted
    rcases hend with hend | hend | hend
    · exact hend hlistener
    · exact absurd (hinterrupted.symm.trans hend) (by decide)
    · exact absurd (hfd.symm.trans hend) (by simp)
  refine ⟨hlast, ?_⟩
  cases hrunning : s.mIsRunning with
  | false => rfl
  | true => exact absurd (h.running.mp hrunning) hlast

theorem Inv.setListener {listener : Listener} (h : s.Inv) (hlast : s.last ≠ .started)
    (hold : s.mClientSocketListener ≠ .new) (hnew : listener ≠ .new) (hrunning : listener ≠ .running) :
    ({ s with mClientSocketListener := listener } : State).Inv := by
  refine ⟨⟨fun hno => absurd hno hlast, h.works.ended, h.works.once⟩, h.ledger,
    fun hno => absurd hno hnew, fun hno => ?_, h.running, fun hno => absurd hno.1 hrunning⟩
  exact absurd (h.loaded hno) hold

theorem Inv.leave (h : s.Inv) : (s.step config .leave).Inv := by
  rw [step]
  by_cases hend : s.mClientSocketListener = .running ∧ (s.interrupted = true ∨ s.mFD = none)
  · rw [if_pos hend]
    have hlast := (h.not_started_of_ending (.inr hend.2)).1
    exact h.setListener hlast (by rw [hend.1]; decide) (by decide) (by decide)
  · rw [if_neg hend]
    exact h

theorem Inv.closeAtEnd (h : s.Inv) (closeSocket : Bool) :
    (s.step config (.closeAtEnd closeSocket)).Inv := by
  rw [step]
  by_cases hleaving : s.mClientSocketListener = .leaving
  · have hold : s.mClientSocketListener ≠ .new := by
      rw [hleaving]
      decide
    obtain ⟨hlast, hrunning⟩ := h.not_started_of_ending (.inl (by rw [hleaving]; decide))
    have hsame := @LocalSocket.State.Inv.setListener _ .terminated h hlast hold (by decide)
        (by decide)
    rw [if_pos hleaving]
    cases hfd : s.mFD with
    | none =>
      have hclose : (s.close closeSocket).1 = s := by simp [State.close, hfd]
      rw [hclose]
      exact hsame
    | some fd =>
      cases closeSocket with
      | false =>
        have hclose : (s.close false).1 = s := by simp [State.close, hfd]
        rw [hclose]
        exact hsame
      | true =>
        have hclosed := @LocalSocket.State.Inv.close _ _ .terminated _ h hfd hlast (by decide)
            (h.loaded_of_listener hold) s.interrupted (fun hno => (by cases hno.1))
        rw [← hrunning] at hclosed
        have hopen : s.isOpen.erase fd = [] := by
          rw [h.ledger.isOpen, hfd]
          simp
        simp only [State.close, hfd, if_true, hopen]
        exact hclosed
  · rw [if_neg hleaving]
    exact h

/-! ## Runs -/

theorem works_iff (h : s.Inv) (input : Input) :
    (s.step config input).Works ↔ Calm config s input := by
  cases input with
  | start calls =>
    by_cases hloaded : s.localSocketLibraryLoaded = false ∧ calls.loadLibrary = false
    · exact iff_of_true (inv_start_unloaded h hloaded.1 hloaded.2).works (.inl hloaded)
    · by_cases hsucceeds : Succeeds config calls
      · by_cases hnew : s.mClientSocketListener = .new
        · exact iff_of_true (inv_start_new h hloaded hsucceeds hnew).works (.inr ⟨hsucceeds, hnew⟩)
        · exact iff_of_false (not_works_start_again h hloaded hsucceeds hnew)
            fun hcalm => hcalm.elim hloaded fun hcalm => hnew hcalm.2
      · exact iff_of_false (not_works_start_fails hloaded hsucceeds)
          fun hcalm => hcalm.elim hloaded fun hcalm => hsucceeds hcalm.1
  | stop closeSocket deleteSocketFile =>
    cases hrunning : s.mIsRunning with
    | true =>
      exact iff_of_true (inv_stop_running h hrunning closeSocket deleteSocketFile).works (.inl hrunning)
    | false =>
      cases hfd : s.mFD with
      | none =>
        exact iff_of_true (inv_stop_idle h hrunning hfd closeSocket deleteSocketFile).works (.inr hfd)
      | some fd =>
        apply iff_of_false
        · intro hworks
          rw [step_stop_idle hrunning] at hworks
          have hopen := (hworks.ended (.inr rfl)).1
          change s.isOpen = [] at hopen
          rw [h.ledger.isOpen, hfd] at hopen
          cases hopen
        · intro hcalm
          rcases hcalm with hcalm | hcalm
          · exact absurd (hrunning.symm.trans hcalm) (by decide)
          · exact absurd (hfd.symm.trans hcalm) (by simp)
  | leave => exact iff_of_true h.leave.works trivial
  | closeAtEnd closeSocket => exact iff_of_true (h.closeAtEnd closeSocket).works trivial

theorem Inv.step (h : s.Inv) {input : Input} (hcalm : Calm config s input) :
    (s.step config input).Inv := by
  cases input with
  | start calls =>
    by_cases hloaded : s.localSocketLibraryLoaded = false ∧ calls.loadLibrary = false
    · exact inv_start_unloaded h hloaded.1 hloaded.2
    · rcases hcalm with hcalm | ⟨hsucceeds, hnew⟩
      · exact absurd hcalm hloaded
      · exact inv_start_new h hloaded hsucceeds hnew
  | stop closeSocket deleteSocketFile =>
    cases hrunning : s.mIsRunning with
    | true => exact inv_stop_running h hrunning closeSocket deleteSocketFile
    | false =>
      rcases hcalm with hcalm | hfd
      · exact absurd (hrunning.symm.trans hcalm) (by decide)
      · exact inv_stop_idle h hrunning hfd closeSocket deleteSocketFile
  | leave => exact h.leave
  | closeAtEnd closeSocket => exact h.closeAtEnd closeSocket

/-- The server works after every call and every step of the listener exactly if the run is calm. -/
theorem along_works_iff (config : LocalSocketRunConfig) (localSocketLibraryLoaded : Bool)
    (inputs : List Input) :
    Run.Along (step config) (fun s input => (s.step config input).Works)
        (start localSocketLibraryLoaded) inputs ↔
      Run.Along (step config) (Calm config) (start localSocketLibraryLoaded) inputs :=
  Run.along_congr (fun _ input h => works_iff h input)
    (fun _ _ h hworks => h.step ((works_iff h _).mp hworks)) (Inv.start localSocketLibraryLoaded)

/-! ## Failing inputs -/

/-- A socket in the abstract namespace. -/
def sampleConfig : LocalSocketRunConfig where
  mPath := 0 :: ascii "am"
  mAbstractNamespaceSocket := true
  getBacklog := 50
  getCanonicalPath path := path

def sampleStart (result : CreateResult) : Input := .start ⟨true, true, true, result⟩

/-- A server is started, stopped and started again: no thread listens, and the old one closes the new
socket.  A server whose socket cannot be created counts as running.  A server is started twice: the
first socket stays open.  A server is stopped twice, and its socket could not be closed the first
time. -/
theorem server_left :
    (Run.after (step sampleConfig) (start true) [sampleStart .created, .stop true true,
        sampleStart .created]).mClientSocketListener = .running ∧
      ¬(Run.after (step sampleConfig) (start true) [sampleStart .created, .stop true true,
        sampleStart .created]).Accepting ∧
      (Run.after (step sampleConfig) (start true) [sampleStart .created, .stop true true,
        sampleStart .created, .leave, .closeAtEnd true]).isOpen = [] ∧
    ((Run.after (step sampleConfig) (start true) [sampleStart .failed]).last = .startFailed ∧
      (Run.after (step sampleConfig) (start true) [sampleStart .failed]).mIsRunning = true) ∧
    (Run.after (step sampleConfig) (start true)
      [sampleStart .created, sampleStart .created]).isOpen = [1, 0] ∧
    ((Run.after (step sampleConfig) (start true)
        [sampleStart .created, .stop false true, .stop true true]).last = .stopped ∧
      (Run.after (step sampleConfig) (start true)
        [sampleStart .created, .stop false true, .stop true true]).isOpen = [0]) := by
  unfold Accepting
  decide +kernel

end State

end XoDos.LocalSocket
