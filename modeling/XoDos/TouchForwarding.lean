import XoDos.Java
import XoDos.Run

/-!
# Touches that are sent on

`InputEventSender.sendTouchEvent` sends the touches of the screen on as they come.  The ends that
Android does not report are made up for by an array with a flag for each pointer id.
-/

namespace XoDos.TouchForwarding

inductive TouchType where
  | touchBegin
  | touchUpdate
  | touchEnd
deriving DecidableEq

/-- A call of `mInjector.sendTouchEvent`. -/
structure Message where
  type : TouchType
  id : Nat
  x : Int
  y : Int
deriving DecidableEq

/-- `getActionMasked` -/
inductive Action where
  | down
  | pointerDown
  | move
  | hoverMove
  | hoverEnter
  | hoverExit
  | pointerUp
  | up
  | cancel
  /-- Outside, scroll, and the buttons of a mouse. -/
  | other
deriving DecidableEq

/-- The position is that on the screen of the server, before it is clamped. -/
structure Pointer where
  id : Nat
  x : Int
  y : Int
deriving DecidableEq

structure MotionEvent where
  action : Action
  pointers : List Pointer
  /-- `getActionIndex` -/
  actionIndex : Nat
  actionIndex_lt : actionIndex < pointers.length
  /-- Android numbers pointers from 0 to 31. -/
  id_lt : ∀ p ∈ pointers, p.id < 32

structure RenderData where
  screenWidth : Int
  screenHeight : Int

namespace MotionEvent

variable (e : MotionEvent)

def active : Pointer := e.pointers.get ⟨e.actionIndex, e.actionIndex_lt⟩

def Has (id : Nat) : Prop := ∃ p ∈ e.pointers, p.id = id

instance (id : Nat) : Decidable (e.Has id) := inferInstanceAs (Decidable (∃ p ∈ _, _))

/-- The actions that `sendTouchEvent` takes for moves. -/
def isMove : Bool :=
  e.action = .move || e.action = .hoverMove || e.action = .hoverEnter || e.action = .hoverExit

end MotionEvent

/-- `MathUtils.clamp` -/
def clamp (x min max : Int) : Int := if x < min then min else if max < x then max else x

def message (renderData : RenderData) (type : TouchType) (p : Pointer) : Message where
  type := type
  id := p.id
  x := clamp p.x 0 renderData.screenWidth
  y := clamp p.y 0 renderData.screenHeight

/-- A touch that ends without a report. -/
def lost (id : Nat) : Message := ⟨.touchEnd, id, 0, 0⟩

/-- `pointers[event.getPointerId(p)] = value` for each pointer -/
def setPointers (value : Bool) (pointers : List Bool) (ps : List Pointer) : Java (List Bool) :=
  ps.foldlM (fun pointers p => arraySet pointers p.id value) pointers

/-- The array `pointers` after the call, and what is sent. -/
def sendTouchEvent (renderData : RenderData) (pointers : List Bool) (e : MotionEvent) :
    Java (List Bool × List Message) :=
  if e.isMove then do
    let pointers ← setPointers false pointers e.pointers
    let (pointers, messages) ← e.pointers.foldlM (fun (pointers, messages) p => do
      let pointers ← arraySet pointers p.id true
      return (pointers, messages ++ [message renderData .touchUpdate p])) (pointers, [])
    let messages ← (List.range 10).foldlM (fun messages (p : Nat) => do
      let touched ← arrayGet pointers p
      return if touched then messages else messages ++ [lost p]) messages
    return (pointers, messages)
  else if e.action = .down ∨ e.action = .pointerDown then
    .ok (pointers, [message renderData .touchBegin e.active])
  else
    .ok (pointers, [message renderData .touchUpdate e.active, message renderData .touchEnd e.active])

/-! ## Runs -/

structure State where
  pointers : List Bool
  /-- What was sent last for each touch id. -/
  last : Nat → Option TouchType
  /-- An exception was thrown. -/
  failed : Bool

namespace State

variable (s : State)

def start : State := ⟨List.replicate 10 false, fun _ => none, false⟩

/-- What was sent last is a begin or an update. -/
def Down (id : Nat) : Prop := s.last id = some .touchBegin ∨ s.last id = some .touchUpdate

instance (id : Nat) : Decidable (s.Down id) := inferInstanceAs (Decidable (_ ∨ _))

def deliver (last : Nat → Option TouchType) (m : Message) : Nat → Option TouchType :=
  Function.update last m.id (some m.type)

/-- After an exception nothing is sent any more. -/
def step (renderData : RenderData) (s : State) (e : MotionEvent) : State :=
  if s.failed then s
  else
    match sendTouchEvent renderData s.pointers e with
    | .error _ => { s with failed := true }
    | .ok (pointers, messages) => { s with pointers, last := messages.foldl deliver s.last }

/-- What the touches of the server are to be after the event: those on the screen, and none after the
last of them is gone. -/
structure Tracks (e : MotionEvent) (s' : State) : Prop where
  returns : s'.failed = false
  move : e.action = .move → ∀ id, s'.Down id ↔ e.Has id
  up : (e.action = .up ∧ e.pointers.length = 1) ∨ e.action = .cancel → ∀ id, ¬s'.Down id

/-- The pointers of a move have a place in the array, and no other touch is down that has none there
or whose flag is set; a gesture does not end with other touches than the last one. -/
structure Sound (s : State) (e : MotionEvent) : Prop where
  place : e.isMove = true → ∀ p ∈ e.pointers, p.id < 10
  move : e.action = .move → ∀ id, s.Down id → 10 ≤ id ∨ s.pointers[id]? = some true → e.Has id
  up : (e.action = .up ∧ e.pointers.length = 1) ∨ e.action = .cancel →
    ∀ id, s.Down id → id = e.active.id

end State

/-! ## Moves -/

section Moves

variable {renderData : RenderData} {ps : List Pointer} {flags : List Bool} {value : Bool}

theorem setPointers_ok (hlen : flags.length = 10) (hps : ∀ p ∈ ps, p.id < 10) :
    ∃ flags', setPointers value flags ps = .ok flags' ∧ flags'.length = 10 ∧
      ∀ id < 10, flags'[id]? = some value ↔ (∃ p ∈ ps, p.id = id) ∨ flags[id]? = some value := by
  induction ps generalizing flags with
  | nil => exact ⟨flags, rfl, hlen, by simp⟩
  | cons p ps ih =>
    have hp := hps p List.mem_cons_self
    have hset : arraySet flags p.id value = .ok (flags.set p.id value) := by
      rw [arraySet_ok value (by omega) (by omega), Int.toNat_natCast]
    obtain ⟨flags', hrest, hlen', hflags⟩ := @ih (flags.set p.id value)
      (by rw [List.length_set, hlen]) (fun q hq => hps q (List.mem_cons_of_mem p hq))
    refine ⟨flags', ?_, hlen', ?_⟩
    · rw [setPointers, List.foldlM_cons, hset]
      exact hrest
    · intro id hid
      rw [hflags id hid, List.exists_mem_cons_iff]
      by_cases heq : p.id = id
      · simp [heq, hlen, hid]
      · rw [List.getElem?_set_ne heq]
        simp [heq]

/-- A pointer that has no place in the array. -/
theorem setPointers_error (hlen : flags.length = 10) (hps : ¬∀ p ∈ ps, p.id < 10) :
    ∃ x, setPointers value flags ps = .error x := by
  induction ps generalizing flags with
  | nil => exact absurd (by simp) hps
  | cons p ps ih =>
    by_cases hp : p.id < 10
    · have hset : arraySet flags p.id value = .ok (flags.set p.id value) := by
        rw [arraySet_ok value (by omega) (by omega), Int.toNat_natCast]
      have hrest : ¬∀ q ∈ ps, q.id < 10 := by
        intro h
        apply hps
        intro q hq
        rcases List.mem_cons.mp hq with rfl | hq
        · exact hp
        · exact h q hq
      obtain ⟨x, hx⟩ := @ih (flags.set p.id value) (by rw [List.length_set, hlen]) hrest
      refine ⟨x, ?_⟩
      rw [setPointers, List.foldlM_cons, hset]
      exact hx
    · refine ⟨.arrayIndexOutOfBounds, ?_⟩
      rw [setPointers, List.foldlM_cons, arraySet, if_neg (by omega)]
      rfl

/-- The second loop sets the flags, and sends an update for each pointer. -/
theorem updates_eq (messages : List Message) :
    ps.foldlM (fun (pointers, messages) p => do
      let pointers ← arraySet pointers p.id true
      return (pointers, messages ++ [message renderData .touchUpdate p])) (flags, messages) = (do
        let flags' ← setPointers true flags ps
        return (flags', messages ++ ps.map (message renderData .touchUpdate))) := by
  induction ps generalizing flags messages with
  | nil => simp [setPointers]
  | cons p ps ih =>
    unfold setPointers at ih ⊢
    rw [List.foldlM_cons, List.foldlM_cons]
    simp only
    cases hset : arraySet flags p.id true with
    | error x => rfl
    | ok flags' =>
      simp only [ok_bind, pure_bind]
      rw [ih]
      simp

/-- The ends that are made up for. -/
def ends (flags : List Bool) : List Message :=
  ((List.range 10).filter fun p => flags[p]? = some false).map lost

theorem ends_eq (hlen : flags.length = 10) (messages : List Message) :
    (List.range 10).foldlM (fun messages (p : Nat) => do
      let touched ← arrayGet flags p
      return if touched then messages else messages ++ [lost p]) messages =
        (.ok (messages ++ ends flags) : Java (List Message)) := by
  have hloop : ∀ ids : List Nat, (∀ id ∈ ids, id < 10) → ∀ messages : List Message,
      ids.foldlM (fun messages (p : Nat) => do
        let touched ← arrayGet flags p
        return if touched then messages else messages ++ [lost p]) messages =
          (.ok (messages ++ (ids.filter fun p => flags[p]? = some false).map lost) :
            Java (List Message)) := by
    intro ids hids
    induction ids with
    | nil =>
      intro messages
      simp
      rfl
    | cons id ids ih =>
      intro messages
      have hid := hids id List.mem_cons_self
      obtain ⟨touched, htouched⟩ : ∃ touched, flags[id]? = some touched :=
        ⟨flags[id], List.getElem?_eq_getElem (by omega)⟩
      have hget : arrayGet flags id = .ok touched := arrayGet_ok (by omega) htouched
      rw [List.foldlM_cons, hget]
      simp only [ok_bind]
      cases touched with
      | true =>
        simp only [if_true, pure_bind]
        rw [ih (fun q hq => hids q (List.mem_cons_of_mem id hq)), List.filter_cons_of_neg]
        simp [htouched]
      | false =>
        simp only [Bool.false_eq_true, if_false, pure_bind]
        rw [ih (fun q hq => hids q (List.mem_cons_of_mem id hq)), List.filter_cons_of_pos]
        · simp
        · simp [htouched]
  exact hloop (List.range 10) (fun id hid => List.mem_range.mp hid) messages

/-- What is sent last for an id. -/
theorem last_of_deliver (last : Nat → Option TouchType) (messages : List Message) (type : TouchType)
    (htype : ∀ m ∈ messages, m.type = type) (id : Nat) :
    messages.foldl State.deliver last id =
      if ∃ m ∈ messages, m.id = id then some type else last id := by
  induction messages generalizing last with
  | nil => simp
  | cons m messages ih =>
    rw [List.foldl_cons, ih _ (fun q hq => htype q (List.mem_cons_of_mem m hq))]
    have hcons : (∃ q ∈ m :: messages, q.id = id) ↔ m.id = id ∨ ∃ q ∈ messages, q.id = id :=
      List.exists_mem_cons_iff _ _ _
    by_cases hrest : ∃ q ∈ messages, q.id = id
    · rw [if_pos hrest, if_pos (hcons.mpr (.inr hrest))]
    · rw [if_neg hrest, State.deliver]
      by_cases hm : m.id = id
      · rw [if_pos (hcons.mpr (.inl hm)), ← hm, Function.update_self, htype m List.mem_cons_self]
      · rw [if_neg (by rw [hcons]; simp [hm, hrest]), Function.update_of_ne (fun h => hm h.symm)]

theorem mem_ends (hlen : flags.length = 10) (id : Nat) :
    (∃ m ∈ ends flags, m.id = id) ↔ id < 10 ∧ ¬flags[id]? = some true := by
  have hflag : id < 10 → (flags[id]? = some false ↔ ¬flags[id]? = some true) := by
    intro hid
    rw [List.getElem?_eq_getElem (by omega)]
    simp
  simp only [ends, List.mem_map, List.mem_filter, List.mem_range, decide_eq_true_eq]
  constructor
  · intro ⟨m, ⟨p, ⟨hp, hfalse⟩, hm⟩, hid⟩
    subst hm
    change p = id at hid
    subst hid
    exact ⟨hp, (hflag hp).mp hfalse⟩
  · intro ⟨hid, hfalse⟩
    exact ⟨lost id, ⟨id, ⟨hid, (hflag hid).mpr hfalse⟩, rfl⟩, rfl⟩

end Moves

namespace State

variable {renderData : RenderData} {s : State} {e : MotionEvent}

structure Ready (s : State) : Prop where
  running : s.failed = false
  length : s.pointers.length = 10

/-- After a move the pointers of it are down, and those that were down before and are not known to be
gone. -/
theorem step_move (h : s.Ready) (hmove : e.isMove = true) (hplace : ∀ p ∈ e.pointers, p.id < 10) :
    (s.step renderData e).Ready ∧ ∀ id, (s.step renderData e).Down id ↔
      e.Has id ∨ (s.Down id ∧ (10 ≤ id ∨ s.pointers[id]? = some true)) := by
  obtain ⟨flags, hclear, hlen, hflags⟩ := @setPointers_ok _ _ false h.length hplace
  obtain ⟨flags', hset, hlen', hflags'⟩ := @setPointers_ok _ _ true hlen hplace
  have hcall : sendTouchEvent renderData s.pointers e =
      .ok (flags', e.pointers.map (message renderData .touchUpdate) ++ ends flags') := by
    rw [sendTouchEvent, if_pos hmove, hclear]
    simp only [ok_bind]
    rw [updates_eq, hset]
    simp only [ok_bind, pure_bind, List.nil_append]
    rw [ends_eq hlen']
    rfl
  have htouched : ∀ id < 10, flags'[id]? = some true ↔ e.Has id ∨ s.pointers[id]? = some true := by
    intro id hid
    have h₁ := hflags id hid
    have hflag : flags[id]? = some true ↔ ¬flags[id]? = some false := by
      rw [List.getElem?_eq_getElem (by omega)]
      simp
    have hold : s.pointers[id]? = some true ↔ ¬s.pointers[id]? = some false := by
      rw [List.getElem?_eq_getElem (by have := h.length; omega)]
      simp
    rw [hflags' id hid, hflag, h₁, hold]
    by_cases hhas : e.Has id
    · exact ⟨fun _ => .inl hhas, fun _ => .inl hhas⟩
    · constructor
      · intro hid
        exact .inr fun hold => hid.elim hhas fun hflag => hflag (.inr hold)
      · intro hid
        exact .inr fun hflag => hflag.elim hhas fun hold => hid.elim hhas fun hnew => hnew hold
  have hstep : s.step renderData e = { s with
      pointers := flags'
      last := (e.pointers.map (message renderData .touchUpdate) ++ ends flags').foldl deliver s.last } := by
    rw [step, h.running, hcall]
    rfl
  -- The ends are sent last, so they decide for the fingers that have one.
  have hlast : ∀ id, (s.step renderData e).last id =
      if id < 10 ∧ ¬flags'[id]? = some true then some .touchEnd
      else if e.Has id then some .touchUpdate else s.last id := by
    intro id
    rw [hstep]
    simp only
    rw [List.foldl_append, last_of_deliver _ _ .touchEnd (by
      intro m hm
      obtain ⟨p, -, rfl⟩ := List.mem_map.mp hm
      rfl), last_of_deliver _ _ .touchUpdate (by
      intro m hm
      obtain ⟨p, -, rfl⟩ := List.mem_map.mp hm
      rfl)]
    simp only [mem_ends hlen', List.mem_map, exists_exists_and_eq_and]
    rfl
  refine ⟨by rw [hstep]; exact ⟨h.running, hlen'⟩, fun id => ?_⟩
  rw [Down, hlast id]
  by_cases hid : id < 10
  · have htouched := htouched id hid
    by_cases hhas : e.Has id
    · rw [if_neg (fun hend => hend.2 (htouched.mpr (.inl hhas))), if_pos hhas]
      simp [hhas]
    · by_cases hflag : s.pointers[id]? = some true
      · rw [if_neg (fun hend => hend.2 (htouched.mpr (.inr hflag))), if_neg hhas]
        simp [hhas, hflag, Down]
      · rw [if_pos ⟨hid, fun hend => (htouched.mp hend).elim hhas hflag⟩]
        simp [hhas, hflag, hid]
  · have hnot : ¬e.Has id := by
      intro ⟨p, hp, hpid⟩
      exact hid (hpid ▸ hplace p hp)
    have hle : 10 ≤ id := by omega
    simp [hid, hnot, hle, Down]

theorem step_move_failed (h : s.Ready) (hmove : e.isMove = true)
    (hplace : ¬∀ p ∈ e.pointers, p.id < 10) : (s.step renderData e).failed = true := by
  obtain ⟨x, hx⟩ := @setPointers_error _ _ false h.length hplace
  have hcall : sendTouchEvent renderData s.pointers e = .error x := by
    rw [sendTouchEvent, if_pos hmove, hx]
    rfl
  rw [step, h.running, hcall]
  rfl

/-- Any other event is about one pointer. -/
theorem step_single (h : s.Ready) (hmove : e.isMove = false) :
    (s.step renderData e).Ready ∧
      ((e.action = .up ∨ e.action = .cancel) →
        ∀ id, (s.step renderData e).Down id ↔ s.Down id ∧ id ≠ e.active.id) := by
  by_cases hdown : e.action = .down ∨ e.action = .pointerDown
  · constructor
    · rw [step, h.running, sendTouchEvent, hmove]
      simp only [Bool.false_eq_true, if_false, if_pos hdown]
      exact ⟨rfl, h.length⟩
    · intro hend
      rcases hdown with hd | hd <;> rcases hend with he | he <;> rw [hd] at he <;> cases he
  · have hstep : s.step renderData e = { s with
        last := Function.update (Function.update s.last e.active.id (some .touchUpdate))
          e.active.id (some .touchEnd) } := by
      rw [step, h.running, sendTouchEvent, hmove]
      simp only [Bool.false_eq_true, if_false, if_neg hdown]
      rfl
    refine ⟨by rw [hstep]; exact ⟨h.running, h.length⟩, fun _ id => ?_⟩
    rw [Down, hstep]
    simp only [Function.update_idem]
    by_cases hid : id = e.active.id
    · rw [hid, Function.update_self]
      simp
    · rw [Function.update_of_ne hid]
      simp [hid, Down]

/-- An event is handled as it should be exactly if it is sound. -/
theorem tracks_iff (h : s.Ready) : Tracks e (s.step renderData e) ↔ Sound s e := by
  cases hmove : e.isMove with
  | true =>
    have hup : ¬((e.action = .up ∧ e.pointers.length = 1) ∨ e.action = .cancel) := by
      intro hup
      rcases hup with ⟨hup, -⟩ | hup <;> simp [MotionEvent.isMove, hup] at hmove
    -- A pointer without a place in the array of ten ends the loop with an exception.
    by_cases hplace : ∀ p ∈ e.pointers, p.id < 10
    · obtain ⟨hready, hdown⟩ := @step_move renderData _ _ h hmove hplace
      constructor
      · intro htracks
        refine ⟨fun _ => hplace, fun hm id hid hflag => ?_, fun hu => absurd hu hup⟩
        exact (htracks.move hm id).mp ((hdown id).mpr (.inr ⟨hid, hflag⟩))
      · intro hsound
        refine ⟨hready.running, fun hm id => ?_, fun hu => absurd hu hup⟩
        rw [hdown id]
        constructor
        · intro hid
          rcases hid with hid | ⟨hid, hflag⟩
          · exact hid
          · exact hsound.move hm id hid hflag
        · exact .inl
    · constructor
      · intro htracks
        have hfailed := @step_move_failed renderData _ _ h hmove hplace
        rw [htracks.returns] at hfailed
        cases hfailed
      · intro hsound
        exact absurd (hsound.place hmove) hplace
  | false =>
    have hnot : e.action ≠ .move := by
      intro hm
      simp [MotionEvent.isMove, hm] at hmove
    obtain ⟨hready, hend⟩ := @step_single renderData _ _ h hmove
    constructor
    · intro htracks
      refine ⟨fun hm => absurd (hmove.symm.trans hm) (by simp), fun hm => absurd hm hnot,
        fun hu id hid => ?_⟩
      by_contra hne
      exact htracks.up hu id ((hend (hu.imp And.left fun h => h) id).mpr ⟨hid, hne⟩)
    · intro hsound
      refine ⟨hready.running, fun hm => absurd hm hnot, fun hu id hid => ?_⟩
      obtain ⟨hold, hne⟩ := (hend (hu.imp And.left fun h => h) id).mp hid
      exact hne (hsound.up hu id hold)

theorem ready_start : start.Ready := ⟨rfl, rfl⟩

theorem ready_step (h : s.Ready) (htracks : Tracks e (s.step renderData e)) :
    (s.step renderData e).Ready := by
  cases hmove : e.isMove with
  | true => exact (step_move h hmove (((tracks_iff h).mp htracks).place hmove)).1
  | false => exact (step_single h hmove).1

/-- The touches of the server are those on the screen after every event exactly if every event is
sound when it comes. -/
theorem along_tracks_iff (renderData : RenderData) (events : List MotionEvent) :
    Run.Along (step renderData) (fun s e => Tracks e (s.step renderData e)) start events ↔
      Run.Along (step renderData) Sound start events :=
  Run.along_congr (fun _ _ h => tracks_iff h) (fun _ _ h htracks => ready_step h htracks) ready_start

/-! ## Failing inputs -/

/-- An event whose pointers stay where they are. -/
def sampleEvent (action : Action) (ids : List Nat) (h : 0 < ids.length) (hids : ∀ id ∈ ids, id < 32) :
    MotionEvent where
  action := action
  pointers := ids.map fun id => ⟨id, 0, 0⟩
  actionIndex := 0
  actionIndex_lt := by simpa using h
  id_lt := by simpa using hids

/-- A finger with the id 10 that moves; two fingers that move, of which one goes without an event;
and two fingers whose gesture is cancelled. -/
theorem touches_left :
    (start.step ⟨100, 100⟩ (sampleEvent .move [10] (by decide) (by decide))).failed = true ∧
    (Run.after (step ⟨100, 100⟩) start [sampleEvent .move [0, 1] (by decide) (by decide),
      sampleEvent .move [0] (by decide) (by decide)]).Down 1 ∧
    (Run.after (step ⟨100, 100⟩) start [sampleEvent .down [0] (by decide) (by decide),
      sampleEvent .pointerDown [1, 0] (by decide) (by decide),
      sampleEvent .cancel [0, 1] (by decide) (by decide)]).Down 1 := by
  decide +kernel

end State

end XoDos.TouchForwarding
