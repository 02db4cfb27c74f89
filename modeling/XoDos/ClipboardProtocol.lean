import XoDos.Clipboard

/-!
# Clients, the activity and the clipboard

Two systems around the clipboard of the server.  In the first, clients come and
go while their requests wait.  In the second, announcements, requests and texts
travel between the server and the activity.  The socket and the work queue of
the server keep the order of what the activity sends.
-/

namespace XoDos

variable {D : Type}

/-! ### Clients -/

/-- The server and its clients.  No client gets the number of an earlier one. -/
structure ClipboardServer (D : Type) where
  clients : List Nat
  nextClient : Nat
  clipboard : Clipboard Nat D

inductive ServerEvent (D : Type) where
  | openClient
  | closeClient (client : Nat)
  | convertSelection (client : Nat) (request : SelectionRequest) (dix : Dix Nat D)
  | clipboardAnnounce
  | clipboardData (data : D) (dix : Dix Nat D)
  | connectActivity (connected : Bool)

namespace ClipboardServer

def initial : ClipboardServer D := ⟨[], 0, ⟨none, [], false⟩⟩

/-- Only clients that are connected send requests, or leave. -/
def Possible (s : ClipboardServer D) : ServerEvent D → Prop
  | .closeClient client => client ∈ s.clients
  | .convertSelection client _ _ => client ∈ s.clients
  | _ => True

def step (s : ClipboardServer D) : ServerEvent D → ClipboardServer D × List (Effect Nat D)
  | .openClient =>
    ({ s with clients := s.nextClient :: s.clients, nextClient := s.nextClient + 1 }, [])
  | .closeClient client => ({ s with clients := s.clients.filter (· ≠ client) }, [])
  | .convertSelection client request dix =>
    let (_, clipboard, effects) := s.clipboard.lorieProcConvertSelection dix client request
    ({ s with clipboard }, effects)
  | .clipboardAnnounce =>
    let (clipboard, effects) := s.clipboard.lorieHandleClipboardAnnounce
    ({ s with clipboard }, effects)
  | .clipboardData data dix =>
    let (clipboard, effects) := s.clipboard.lorieHandleClipboardData dix data
    ({ s with clipboard }, effects)
  | .connectActivity connected =>
    ({ s with clipboard := { s.clipboard with connected } }, [])

/-- The states that runs reach whose steps are all `allowed`. -/
inductive Reachable (allowed : ClipboardServer D → ServerEvent D → Prop) :
    ClipboardServer D → Prop where
  | initial : Reachable allowed initial
  | step {s : ClipboardServer D} {e : ServerEvent D} : Reachable allowed s → s.Possible e →
    allowed s e → Reachable allowed (s.step e).1

/-- Those in the list are connected. -/
def PendingConnected (s : ClipboardServer D) : Prop :=
  ∀ t ∈ s.clipboard.pending, t.client ∈ s.clients

/-- Everyone in the list is there, gets one notification, and is taken from the list. -/
def Answers (s : ClipboardServer D) (data : D) (dix : Dix Nat D) : Prop :=
  s.PendingConnected ∧
    List.Forall₂ Clipboard.Notifies s.clipboard.pending
      (Clipboard.notifications (s.step (.clipboardData data dix)).2) ∧
    (s.step (.clipboardData data dix)).1.clipboard.pending = []

/-- Nobody leaves with a request in the list. -/
def LeavesNothing (s : ClipboardServer D) : ServerEvent D → Prop
  | .closeClient client => ∀ t ∈ s.clipboard.pending, t.client ≠ client
  | _ => True

theorem step_pendingConnected {s : ClipboardServer D} {e : ServerEvent D} (h : s.PendingConnected)
    (hpossible : s.Possible e) (hleaves : s.LeavesNothing e) : (s.step e).1.PendingConnected := by
  cases e with
  | openClient =>
    intro t ht
    exact List.mem_cons_of_mem _ (h t ht)
  | closeClient client =>
    intro t ht
    simp only [step, List.mem_filter, decide_eq_true_eq]
    exact ⟨h t ht, hleaves t ht⟩
  | convertSelection client request dix =>
    intro t ht
    rcases s.clipboard.lorieProcConvertSelection_clipboard dix client request with hsame | hnew
    · simp only [step, hsame] at ht
      exact h t ht
    · simp only [step, hnew, List.mem_cons] at ht
      rcases ht with rfl | ht
      · exact hpossible
      · exact h t ht
  | clipboardAnnounce => exact h
  | clipboardData data dix =>
    intro t ht
    simp [step, Clipboard.lorieHandleClipboardData] at ht
  | connectActivity connected => exact h

theorem reachable_pendingConnected {s : ClipboardServer D} (h : Reachable LeavesNothing s) :
    s.PendingConnected := by
  induction h with
  | initial =>
    intro t ht
    simp [initial] at ht
  | step _ hpossible hleaves ih => exact step_pendingConnected ih hpossible hleaves

/-- In every run in which nobody leaves with a request in the list, whenever a text arrives all
those in the list are connected, get one notification each, and the list is empty after it. -/
theorem clipboardData_answers {s : ClipboardServer D} (h : Reachable LeavesNothing s) (data : D)
    (dix : Dix Nat D) : s.Answers data dix :=
  ⟨reachable_pendingConnected h, Clipboard.answerPending_notifies dix _ data _, rfl⟩

end ClipboardServer

/-- A server that grants everything. -/
def Dix.granting {C : Type} : Dix C D where
  lookupWindow _ _ _ := .success
  lookupSelection _ _ _ := .success
  ownedByServer _ := true
  validAtom _ := true
  changeWindowProperty _ _ _ := .success
  calloc := true
  latin1 _ := true

def textRequest : SelectionRequest := ⟨1, .clipboard, .utf8String, .other 0, 0⟩

namespace ClipboardServer

/-- A client has asked for the text. -/
def oneWaiting : ClipboardServer (List Byte) :=
  ((initial.step .openClient).1.step (.convertSelection 0 textRequest .granting)).1

theorem oneWaiting_answers : oneWaiting.Answers [0x61] .granting := by
  apply clipboardData_answers
  apply Reachable.step
  · exact Reachable.step .initial trivial trivial
  · exact List.mem_cons_self
  · trivial

/-- It has gone when the text arrives. -/
theorem gone_client_answered :
    Reachable (fun _ _ => True) (oneWaiting.step (.closeClient 0)).1 ∧
      ¬ (oneWaiting.step (.closeClient 0)).1.Answers [0x61] .granting := by
  constructor
  · apply Reachable.step
    · apply Reachable.step
      · exact Reachable.step .initial trivial trivial
      · exact List.mem_cons_self
      · trivial
    · exact List.mem_cons_self
    · trivial
  · intro ⟨hconnected, _⟩
    exact absurd (hconnected ⟨0, textRequest⟩ List.mem_cons_self) (by decide)

end ClipboardServer

/-! ### The activity -/

/-- A client at the time of a request: `askedAt` announcements had been handled. -/
structure Asker where
  client : Nat
  askedAt : Nat
deriving DecidableEq

/-- A text that the activity sends for a request: that many announcements had been handled by the
server when it sent the request, and that many sent by the activity when it sent the text. -/
structure Reply where
  text : List Byte
  requestedAt : Nat
  sentAfter : Nat
deriving DecidableEq

/-- What the activity sends. -/
inductive Inbound where
  | announce
  | data (reply : Reply)
deriving DecidableEq

/-- The server, the activity and the socket between them. -/
structure ClipboardLink where
  clipboard : Clipboard Asker Reply
  /-- The announcements that the server has handled. -/
  handled : Nat
  /-- Those that the activity has sent. -/
  announced : Nat
  /-- The requests on their way to the activity. -/
  requests : List Nat
  /-- What is on its way to the server, the oldest first. -/
  inbound : List Inbound

inductive LinkEvent where
  | convertSelection (client : Nat) (request : SelectionRequest) (dix : Dix Asker Reply)
  /-- `checkForClipboardChange` finds a change. -/
  | announce
  /-- `requestClipboard` sends the text of the Android clipboard. -/
  | reply (text : List Byte)
  /-- `requestClipboard` finds the Android clipboard empty. -/
  | noReply
  /-- The server handles the next thing that the activity has sent. -/
  | receive (dix : Dix Asker Reply)

namespace ClipboardLink

def initial : ClipboardLink := ⟨⟨none, [], true⟩, 0, 0, [], []⟩

/-- A step, and the texts that clients are given in it. -/
def step (s : ClipboardLink) : LinkEvent → ClipboardLink × List (Asker × Reply)
  | .convertSelection client request dix =>
    let (_, clipboard, effects) :=
      s.clipboard.lorieProcConvertSelection dix ⟨client, s.handled⟩ request
    let requests :=
      if .requestClipboard ∈ effects then s.requests ++ [s.handled] else s.requests
    ({ s with clipboard, requests }, Clipboard.answers effects)
  | .announce => ({ s with announced := s.announced + 1, inbound := s.inbound ++ [.announce] }, [])
  | .reply text =>
    match s.requests with
    | [] => (s, [])
    | requestedAt :: requests =>
      ({ s with requests, inbound := s.inbound ++ [.data ⟨text, requestedAt, s.announced⟩] }, [])
  | .noReply => ({ s with requests := s.requests.tail }, [])
  | .receive dix =>
    match s.inbound with
    | [] => (s, [])
    | .announce :: inbound =>
      ({ s with
        clipboard := s.clipboard.lorieHandleClipboardAnnounce.1
        handled := s.handled + 1
        inbound }, [])
    | .data reply :: inbound =>
      let (clipboard, effects) := s.clipboard.lorieHandleClipboardData dix reply
      ({ s with clipboard, inbound }, Clipboard.answers effects)

inductive Reachable : ClipboardLink → Prop where
  | initial : Reachable initial
  | step {s : ClipboardLink} (e : LinkEvent) : Reachable s → Reachable (s.step e).1

/-- Every text on its way was sent after the announcements before it, of which `handled` have been
handled, and no others. -/
def InOrder (announced : Nat) : Nat → List Inbound → Prop
  | handled, [] => announced = handled
  | handled, .announce :: inbound => InOrder announced (handled + 1) inbound
  | handled, .data reply :: inbound => reply.sentAfter = handled ∧ InOrder announced handled inbound

theorem inOrder_announce {announced : Nat} {inbound : List Inbound} :
    ∀ {handled : Nat}, InOrder announced handled inbound →
      InOrder (announced + 1) handled (inbound ++ [.announce]) := by
  induction inbound with
  | nil =>
    intro handled h
    simpa [InOrder] using h
  | cons m inbound ih =>
    intro handled h
    cases m with
    | announce => exact ih h
    | data reply => exact ⟨h.1, ih h.2⟩

theorem inOrder_data {announced : Nat} {inbound : List Inbound} {reply : Reply}
    (hreply : reply.sentAfter = announced) :
    ∀ {handled : Nat}, InOrder announced handled inbound →
      InOrder announced handled (inbound ++ [.data reply]) := by
  induction inbound with
  | nil =>
    intro handled h
    simp only [InOrder] at h
    exact ⟨hreply.trans h, h⟩
  | cons m inbound ih =>
    intro handled h
    cases m with
    | announce => exact ih h
    | data reply => exact ⟨h.1, ih h.2⟩

/-- What is in the cache was sent after all announcements that have been handled, and those in the
list asked before any others. -/
structure Fresh (s : ClipboardLink) : Prop where
  inOrder : InOrder s.announced s.handled s.inbound
  cached : ∀ reply ∈ s.clipboard.cachedData, reply.sentAfter = s.handled
  asked : ∀ t ∈ s.clipboard.pending, t.client.askedAt ≤ s.handled

theorem step_fresh {s : ClipboardLink} (h : s.Fresh) (e : LinkEvent) : (s.step e).1.Fresh := by
  cases e with
  | convertSelection client request dix =>
    rcases s.clipboard.lorieProcConvertSelection_clipboard dix ⟨client, s.handled⟩ request
      with hsame | hnew
    · refine ⟨h.inOrder, ?_, ?_⟩
      · simpa only [step, hsame] using h.cached
      · simpa only [step, hsame] using h.asked
    · refine ⟨h.inOrder, ?_, ?_⟩
      · simpa only [step, hnew] using h.cached
      · simp only [step, hnew, List.mem_cons]
        rintro t (rfl | ht)
        · exact le_rfl
        · exact h.asked t ht
  | announce => exact ⟨inOrder_announce h.inOrder, h.cached, h.asked⟩
  | reply text =>
    rw [step]
    split
    · exact h
    · refine ⟨?_, h.cached, h.asked⟩
      apply inOrder_data
      · rfl
      · exact h.inOrder
  | noReply => exact ⟨h.inOrder, h.cached, h.asked⟩
  -- Messages come in the order they were sent: an announcement counts up, and data is of the last one.
  | receive dix =>
    have hinOrder := h.inOrder
    rw [step]
    split
    · exact h
    · rename_i inbound hinbound
      rw [hinbound] at hinOrder
      refine ⟨hinOrder, ?_, ?_⟩
      · intro reply hreply
        simp [Clipboard.lorieHandleClipboardAnnounce] at hreply
      · intro t ht
        exact (h.asked t ht).trans (Nat.le_succ _)
    · rename_i reply inbound hinbound
      rw [hinbound] at hinOrder
      refine ⟨hinOrder.2, ?_, ?_⟩
      · intro reply' hreply
        obtain rfl : reply = reply' := by simpa [Clipboard.lorieHandleClipboardData] using hreply
        exact hinOrder.1
      · intro t ht
        simp [Clipboard.lorieHandleClipboardData] at ht

theorem reachable_fresh {s : ClipboardLink} (h : Reachable s) : s.Fresh := by
  induction h with
  | initial =>
    refine ⟨rfl, ?_, ?_⟩
    · simp [initial]
    · simp [initial]
  | step e _ ih => exact step_fresh ih e

/-- In every run, a text that the activity sent before an announcement is not given to a client
that asked after the server had handled that announcement. -/
theorem answers_fresh {s : ClipboardLink} (h : Reachable s) (e : LinkEvent) (asker : Asker)
    (reply : Reply) (hgiven : (asker, reply) ∈ (s.step e).2) :
    asker.askedAt ≤ reply.sentAfter := by
  have hfresh := reachable_fresh h
  cases e with
  | convertSelection client request dix =>
    obtain ⟨hasker, hcached⟩ := Clipboard.mem_answers_lorieProcConvertSelection dix hgiven
    dsimp only at hasker hcached
    rw [hasker, hfresh.cached reply hcached]
  | announce => simp [step] at hgiven
  | reply text =>
    rw [step] at hgiven
    split at hgiven <;> simp at hgiven
  | noReply => simp [step] at hgiven
  | receive dix =>
    have hinOrder := hfresh.inOrder
    rw [step] at hgiven
    split at hgiven
    · simp at hgiven
    · simp at hgiven
    · rename_i reply' inbound hinbound
      rw [hinbound] at hinOrder
      obtain ⟨⟨t, ht, hasker⟩, hreply⟩ := Clipboard.mem_answers_answerPending dix hgiven
      have := hfresh.asked t ht
      dsimp only at hasker hreply
      rw [hasker, hreply, hinOrder.1]
      exact this

/-- The state after the steps. -/
def run (events : List LinkEvent) : ClipboardLink :=
  events.foldl (fun s e => (s.step e).1) initial

theorem reachable_run (events : List LinkEvent) : Reachable (run events) := by
  induction events using List.reverseRecOn with
  | nil => exact .initial
  | append_singleton events e ih =>
    rw [run, List.foldl_append]
    exact .step e ih

/-- Client 1 asks; the activity announces a new text and only then finds the request, to which it
replies.  Client 2 asks when the announcement has been handled. -/
def requestCrossesAnnouncement : ClipboardLink :=
  run [.convertSelection 1 textRequest .granting, .announce, .reply [0x61], .receive .granting,
    .convertSelection 2 textRequest .granting]

theorem crossing_answer_fresh :
    (⟨2, 1⟩, ⟨[0x61], 0, 1⟩) ∈ (requestCrossesAnnouncement.step (.receive .granting)).2 ∧
      (⟨2, 1⟩ : Asker).askedAt ≤ (⟨[0x61], 0, 1⟩ : Reply).sentAfter := by
  have hgiven : ((⟨2, 1⟩ : Asker), (⟨[0x61], 0, 1⟩ : Reply)) ∈
      (requestCrossesAnnouncement.step (.receive .granting)).2 := by
    decide +kernel
  exact ⟨hgiven, answers_fresh (reachable_run _) (.receive .granting) ⟨2, 1⟩ ⟨[0x61], 0, 1⟩ hgiven⟩

/-- Client 2 is given the text that was requested before the announcement. -/
theorem crossing_answer_requested_before :
    Reachable requestCrossesAnnouncement ∧
      ∃ asker reply, (asker, reply) ∈ (requestCrossesAnnouncement.step (.receive .granting)).2 ∧
        reply.requestedAt < asker.askedAt := by
  refine ⟨reachable_run _, ⟨2, 1⟩, ⟨[0x61], 0, 1⟩, ?_, ?_⟩
  · decide +kernel
  · decide

end ClipboardLink

end XoDos
