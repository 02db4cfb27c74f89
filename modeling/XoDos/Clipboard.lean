import XoDos.Java

/-!
# The clipboard of the X server

The server owns the selection `CLIPBOARD` on behalf of the activity.  A client
that asks for it is answered from `cachedData` if there is something in it; if
not, the request is kept in a list and the activity is asked.  When the text
arrives it goes to the cache and to everyone in the list.  An announcement of
the activity empties the cache.

Clients are of a type `C` and texts of a type `D`; the code does no more than
hand them on.  What the device-independent part of the server answers in a step
is a `Dix`.
-/

namespace XoDos

/-- The atoms that the code knows, and the others. -/
inductive Atom where
  | none
  | timestamp
  | text
  | clipboard
  | targets
  | string
  | utf8String
  | other (n : Nat)
deriving DecidableEq, Repr

inductive XStatus where
  | success
  | badAtom
  | badMatch
  | badAlloc
  | error (code : Nat)
deriving DecidableEq, Repr

inductive Access where
  | read
  | getAttr
  | setAttr
deriving DecidableEq

/-- `xConvertSelectionReq`. -/
structure SelectionRequest where
  requestor : Nat
  selection : Atom
  target : Atom
  property : Atom
  time : Nat
deriving DecidableEq, Repr

/-- `SelectionNotify`; a refusal has no property. -/
structure SelectionNotify where
  time : Nat
  requestor : Nat
  selection : Atom
  target : Atom
  property : Atom
deriving DecidableEq, Repr

def SelectionRequest.notify (r : SelectionRequest) (property : Atom) : SelectionNotify :=
  ⟨r.time, r.requestor, r.selection, r.target, property⟩

def SelectionRequest.realProperty (r : SelectionRequest) : Atom :=
  if r.property ≠ .none then r.property else r.target

structure LorieDataTarget (C : Type) where
  client : C
  request : SelectionRequest
deriving DecidableEq

/-- What is stored in a property, as which type. -/
inductive PropertyValue (D : Type) where
  | targets (atoms : List Atom)
  | timestamp
  | latin1 (data : D)
  | utf8 (data : D)
deriving DecidableEq

inductive Effect (C D : Type) where
  /-- A property is changed on behalf of a client. -/
  | changeWindowProperty (client : C) (window : Nat) (property : Atom) (value : PropertyValue D)
  | writeEvent (client : C) (event : SelectionNotify)
  | requestClipboard
  | ownSelection (selection : Atom)
  | origConvertSelection (client : C) (request : SelectionRequest)
deriving DecidableEq

/-- The answers of the rest of the server, and of `calloc`, in one step. -/
structure Dix (C D : Type) where
  lookupWindow : C → Nat → Access → XStatus
  lookupSelection : C → Atom → Access → XStatus
  /-- The owner of the selection is the server, with its root window. -/
  ownedByServer : Atom → Bool
  validAtom : Atom → Bool
  changeWindowProperty : Nat → Atom → PropertyValue D → XStatus
  /-- There is memory for another `LorieDataTarget`. -/
  calloc : Bool
  /-- `lorieUtf8ToLatin1` returned a string. -/
  latin1 : D → Bool

structure Clipboard (C D : Type) where
  cachedData : Option D
  /-- `lorieDataTargetHead`. -/
  pending : List (LorieDataTarget C)
  /-- `conn_fd != -1`. -/
  connected : Bool

namespace Clipboard

variable {C D : Type} (dix : Dix C D)

/-- Store a value in the property, and say so to the client. -/
def answer (client : C) (r : SelectionRequest) (value : PropertyValue D) :
    XStatus × List (Effect C D) :=
  let rc := dix.changeWindowProperty r.requestor r.realProperty value
  if rc ≠ .success then (rc, [])
  else
    (.success, [.changeWindowProperty client r.requestor r.realProperty value,
      .writeEvent client (r.notify r.property)])

/-- Keep the request, and ask the activity. -/
def enqueue (c : Clipboard C D) (client : C) (r : SelectionRequest) :
    XStatus × Clipboard C D × List (Effect C D) :=
  if r.target ≠ .string ∧ r.target ≠ .text ∧ r.target ≠ .utf8String then (.badMatch, c, [])
  else if dix.calloc = false then (.badAlloc, c, [])
  else
    (.success, { c with pending := ⟨client, r⟩ :: c.pending },
      if c.connected then [.requestClipboard] else [])

/-- The answer to a request for a text that is at hand. -/
def answerData (client : C) (r : SelectionRequest) (data : D) : XStatus × List (Effect C D) :=
  if r.target = .string ∨ r.target = .text then
    if dix.latin1 data then answer dix client r (.latin1 data) else (.badAlloc, [])
  else if r.target = .utf8String then answer dix client r (.utf8 data)
  else (.badMatch, [])

def lorieConvertSelection (c : Clipboard C D) (client : C) (r : SelectionRequest)
    (data : Option D) : XStatus × Clipboard C D × List (Effect C D) :=
  let rc := dix.lookupSelection client r.selection .getAttr
  if rc ≠ .success then (rc, c, [])
  else
    let rc := dix.lookupWindow client r.requestor .setAttr
    if rc ≠ .success then (rc, c, [])
    else if r.target = .targets then
      let (rc, effects) := answer dix client r
        (.targets [.targets, .timestamp, .string, .text, .utf8String])
      (rc, c, effects)
    else if r.target = .timestamp then
      let (rc, effects) := answer dix client r .timestamp
      (rc, c, effects)
    else
      match data with
      | none => enqueue dix c client r
      | some data =>
        let (rc, effects) := answerData dix client r data
        (rc, c, effects)

/-- The notification that a failed conversion ends with. -/
def refusal (rc : XStatus) (client : C) (r : SelectionRequest) : List (Effect C D) :=
  if rc ≠ .success then [.writeEvent client (r.notify .none)] else []

def lorieProcConvertSelection (c : Clipboard C D) (client : C) (r : SelectionRequest) :
    XStatus × Clipboard C D × List (Effect C D) :=
  let rc := dix.lookupWindow client r.requestor .setAttr
  if rc ≠ .success then (rc, c, [])
  else if ¬(dix.validAtom r.selection ∧ dix.validAtom r.target ∧
      (r.property = .none ∨ dix.validAtom r.property)) then (.badAtom, c, [])
  else if dix.lookupSelection client r.selection .read = .success ∧
      dix.ownedByServer r.selection then
    let (rc, c', effects) := lorieConvertSelection dix c client r c.cachedData
    (.success, c', effects ++ refusal rc client r)
  else (.success, c, [.origConvertSelection client r])

def lorieHandleClipboardAnnounce (c : Clipboard C D) : Clipboard C D × List (Effect C D) :=
  ({ c with cachedData := none }, [.ownSelection .clipboard])

/-- The loop of `lorieHandleClipboardData`.  With a text at hand the list is only taken from. -/
def answerPending (c : Clipboard C D) (data : D) : List (LorieDataTarget C) → List (Effect C D)
  | [] => []
  | t :: next =>
    let (rc, _, effects) := lorieConvertSelection dix c t.client t.request (some data)
    effects ++ refusal rc t.client t.request ++ answerPending c data next

def lorieHandleClipboardData (c : Clipboard C D) (data : D) :
    Clipboard C D × List (Effect C D) :=
  ({ c with cachedData := some data, pending := [] }, answerPending dix c data c.pending)

/-- The notifications among the effects. -/
def notifications (effects : List (Effect C D)) : List (C × SelectionNotify) :=
  effects.filterMap fun
    | .writeEvent client event => some (client, event)
    | _ => none

/-- The texts that clients are given. -/
def answers (effects : List (Effect C D)) : List (C × D) :=
  effects.filterMap fun
    | .changeWindowProperty client _ _ (.latin1 data) => some (client, data)
    | .changeWindowProperty client _ _ (.utf8 data) => some (client, data)
    | _ => none

/-- A notification for a request, granted or refused. -/
def Notifies (t : LorieDataTarget C) (n : C × SelectionNotify) : Prop :=
  n.1 = t.client ∧ ∃ property, n.2 = t.request.notify property

theorem notifications_append (effects effects' : List (Effect C D)) :
    notifications (effects ++ effects') = notifications effects ++ notifications effects' :=
  List.filterMap_append

theorem answers_append (effects effects' : List (Effect C D)) :
    answers (effects ++ effects') = answers effects ++ answers effects' :=
  List.filterMap_append

@[simp] theorem answers_refusal (rc : XStatus) (client : C) (r : SelectionRequest) :
    answers (refusal rc client r : List (Effect C D)) = [] := by
  rw [refusal]
  split_ifs <;> rfl

/-- A conversion either fails without effect or notifies its client. -/
theorem answer_notifies (client : C) (r : SelectionRequest) (value : PropertyValue D) :
    (answer dix client r value).1 ≠ .success ∧ (answer dix client r value).2 = [] ∨
      (answer dix client r value).1 = .success ∧
        notifications (answer dix client r value).2 = [(client, r.notify r.property)] := by
  rw [answer]
  split_ifs with h
  · exact .inl ⟨h, rfl⟩
  · exact .inr ⟨rfl, rfl⟩

theorem answerData_notifies (client : C) (r : SelectionRequest) (data : D) :
    (answerData dix client r data).1 ≠ .success ∧ (answerData dix client r data).2 = [] ∨
      (answerData dix client r data).1 = .success ∧
        notifications (answerData dix client r data).2 = [(client, r.notify r.property)] := by
  rw [answerData]
  split_ifs
  · exact answer_notifies dix client r _
  · exact .inl ⟨by simp, rfl⟩
  · exact answer_notifies dix client r _
  · exact .inl ⟨by simp, rfl⟩

/-- With a text at hand, a conversion does not touch the list, and it either fails without effect
or notifies its client. -/
theorem lorieConvertSelection_some (c : Clipboard C D) (client : C) (r : SelectionRequest)
    (data : D) :
    (lorieConvertSelection dix c client r (some data)).2.1 = c ∧
      ((lorieConvertSelection dix c client r (some data)).1 ≠ .success ∧
          (lorieConvertSelection dix c client r (some data)).2.2 = [] ∨
        (lorieConvertSelection dix c client r (some data)).1 = .success ∧
          notifications (lorieConvertSelection dix c client r (some data)).2.2 =
            [(client, r.notify r.property)]) := by
  rw [lorieConvertSelection]
  dsimp only
  split_ifs with hselection hwindow
  · exact ⟨rfl, .inl ⟨hselection, rfl⟩⟩
  · exact ⟨rfl, .inl ⟨hwindow, rfl⟩⟩
  · exact ⟨rfl, answer_notifies dix client r _⟩
  · exact ⟨rfl, answer_notifies dix client r _⟩
  · exact ⟨rfl, answerData_notifies dix client r data⟩

/-- Everyone in the list is notified once, in its order. -/
theorem answerPending_notifies (c : Clipboard C D) (data : D) (pending : List (LorieDataTarget C)) :
    List.Forall₂ Notifies pending (notifications (answerPending dix c data pending)) := by
  induction pending with
  | nil => exact .nil
  | cons t next ih =>
    rw [answerPending]
    dsimp only
    rw [notifications_append, notifications_append]
    obtain ⟨_, ⟨hrc, heffects⟩ | ⟨hrc, heffects⟩⟩ :=
      lorieConvertSelection_some dix c t.client t.request data
    · rw [heffects, refusal, if_pos hrc]
      exact .cons ⟨rfl, .none, rfl⟩ ih
    · rw [heffects, refusal, if_neg (by simpa using hrc)]
      exact .cons ⟨rfl, _, rfl⟩ ih

theorem mem_answers_answer {client : C} {r : SelectionRequest} {value : PropertyValue D}
    {given : C × D} (h : given ∈ answers (answer dix client r value).2) :
    given.1 = client ∧ (value = .latin1 given.2 ∨ value = .utf8 given.2) := by
  rw [answer] at h
  split_ifs at h
  · simp [answers] at h
  · cases value with
    | latin1 data =>
      obtain rfl : given = (client, data) := by simpa [answers] using h
      exact ⟨rfl, .inl rfl⟩
    | utf8 data =>
      obtain rfl : given = (client, data) := by simpa [answers] using h
      exact ⟨rfl, .inr rfl⟩
    | _ => simp [answers] at h

/-- A conversion gives its client the text at hand, or nothing. -/
theorem mem_answers_lorieConvertSelection {c : Clipboard C D} {client : C} {r : SelectionRequest}
    {data : Option D} {given : C × D}
    (h : given ∈ answers (lorieConvertSelection dix c client r data).2.2) :
    given.1 = client ∧ data = some given.2 := by
  unfold lorieConvertSelection at h
  dsimp only at h
  split_ifs at h
  · simp [answers] at h
  · simp [answers] at h
  · simpa using (mem_answers_answer dix h).2
  · simpa using (mem_answers_answer dix h).2
  · cases data with
    | none =>
      have hnone : answers (enqueue dix c client r).2.2 = [] := by
        rw [enqueue]
        split_ifs <;> rfl
      rw [hnone] at h
      exact absurd h List.not_mem_nil
    | some data =>
      dsimp only at h
      rw [answerData] at h
      split_ifs at h
      · have hgiven := mem_answers_answer dix h
        simpa using hgiven
      · simp [answers] at h
      · have hgiven := mem_answers_answer dix h
        simpa using hgiven
      · simp [answers] at h

theorem mem_answers_answerPending {c : Clipboard C D} {data : D}
    {pending : List (LorieDataTarget C)} {given : C × D}
    (h : given ∈ answers (answerPending dix c data pending)) :
    (∃ t ∈ pending, given.1 = t.client) ∧ given.2 = data := by
  induction pending with
  | nil => simp [answerPending, answers] at h
  | cons t next ih =>
    rw [answerPending] at h
    dsimp only at h
    rw [answers_append, answers_append, answers_refusal, List.append_nil, List.mem_append] at h
    rcases h with h | h
    · obtain ⟨hclient, hdata⟩ := mem_answers_lorieConvertSelection dix h
      exact ⟨⟨t, List.mem_cons_self, hclient⟩, (Option.some.inj hdata).symm⟩
    · obtain ⟨⟨t', hmem, hclient⟩, hdata⟩ := ih h
      exact ⟨⟨t', List.mem_cons_of_mem t hmem, hclient⟩, hdata⟩

theorem lorieConvertSelection_clipboard (c : Clipboard C D) (client : C) (r : SelectionRequest)
    (data : Option D) :
    (lorieConvertSelection dix c client r data).2.1 = c ∨
      (lorieConvertSelection dix c client r data).2.1 =
        { c with pending := ⟨client, r⟩ :: c.pending } := by
  unfold lorieConvertSelection
  dsimp only
  split_ifs
  · exact .inl rfl
  · exact .inl rfl
  · exact .inl rfl
  · exact .inl rfl
  · cases data with
    | none =>
      dsimp only
      rw [enqueue]
      split_ifs
      · exact .inl rfl
      · exact .inl rfl
      · exact .inr rfl
      · exact .inr rfl
    | some data => exact .inl rfl

/-- What a request does to the clipboard: nothing, or it is put in the list. -/
theorem lorieProcConvertSelection_clipboard (c : Clipboard C D) (client : C)
    (r : SelectionRequest) :
    (lorieProcConvertSelection dix c client r).2.1 = c ∨
      (lorieProcConvertSelection dix c client r).2.1 =
        { c with pending := ⟨client, r⟩ :: c.pending } := by
  rw [lorieProcConvertSelection]
  dsimp only
  split_ifs
  · exact .inl rfl
  · exact lorieConvertSelection_clipboard dix c client r c.cachedData
  · exact .inl rfl
  · exact .inl rfl

/-- A request is answered from the cache, or not yet. -/
theorem mem_answers_lorieProcConvertSelection {c : Clipboard C D} {client : C}
    {r : SelectionRequest} {given : C × D}
    (h : given ∈ answers (lorieProcConvertSelection dix c client r).2.2) :
    given.1 = client ∧ c.cachedData = some given.2 := by
  rw [lorieProcConvertSelection] at h
  dsimp only at h
  split_ifs at h
  · simp [answers] at h
  · rw [answers_append, answers_refusal, List.append_nil] at h
    exact mem_answers_lorieConvertSelection dix h
  · simp [answers] at h
  · simp [answers] at h

end Clipboard

end XoDos
