import XoDos.Run

/-!
# Touch events

`handleTouchEvent` turns the messages of the activity into touch events of the
X server.  An update of a touch that has not begun begins it, and an update that
repeats the position of the touch is dropped.

Coordinates are rationals.  The server knows of each touch that is active the
values of the last event that was queued for it.
-/

namespace XoDos

inductive TouchType where
  | touchBegin
  | touchUpdate
  | touchEnd
deriving DecidableEq, Repr

/-- The member `touch` of `lorieEvent`. -/
structure TouchEvent where
  type : TouchType
  id : BitVec 16
  x : BitVec 16
  y : BitVec 16
deriving DecidableEq, Repr

structure TouchScreen where
  width : Nat
  height : Nat
  width_pos : 0 < width
  height_pos : 0 < height

/-- A call of `QueueTouchEvents`. -/
structure TouchCall where
  type : TouchType
  id : BitVec 16
  x : ℚ
  y : ℚ
deriving DecidableEq

namespace TouchEvent

/-- `max(min(c, size), 0)` -/
def clamp (c : BitVec 16) (size : Nat) : ℚ := max (min (c.toNat : ℚ) size) 0

/-- `c * 0xFFFF / size` -/
def scale (c : ℚ) (size : Nat) : ℚ := c * 0xFFFF / size

/-- The position that is compared with that of the touch. -/
def clamped (e : TouchEvent) (screen : TouchScreen) : ℚ × ℚ :=
  (clamp e.x screen.width, clamp e.y screen.height)

/-- The position that is queued. -/
def position (e : TouchEvent) (screen : TouchScreen) : ℚ × ℚ :=
  (scale (clamp e.x screen.width) screen.width, scale (clamp e.y screen.height) screen.height)

end TouchEvent

/-- The server's touches, and what has been queued. -/
structure Touches where
  /-- The valuators of the touches that are active. -/
  active : BitVec 16 → Option (ℚ × ℚ)
  log : List TouchCall

namespace Touches

/-- No touch yet. -/
def none : Touches := ⟨fun _ => Option.none, []⟩

/-- `QueueTouchEvents` -/
def queueTouchEvents (t : Touches) (call : TouchCall) : Touches :=
  { active := Function.update t.active call.id
      (if call.type = .touchEnd then Option.none else some (call.x, call.y))
    log := t.log ++ [call] }

/-- A message, with the screen when it is handled. -/
structure Message where
  event : TouchEvent
  screen : TouchScreen

namespace Message

def id (m : Message) : BitVec 16 := m.event.id

def clamped (m : Message) : ℚ × ℚ := m.event.clamped m.screen

def position (m : Message) : ℚ × ℚ := m.event.position m.screen

end Message

def handleTouchEvent (t : Touches) (m : Message) : Touches :=
  let touch := t.active m.id
  if m.event.type = .touchUpdate ∧ touch = some m.clamped then t
  else
    let type :=
      if m.event.type = .touchUpdate ∧ touch = Option.none then .touchBegin else m.event.type
    if type = .touchEnd ∧ touch = Option.none then t
    else t.queueTouchEvents ⟨type, m.id, m.position.1, m.position.2⟩

/-! ## What the events should be -/

/-- Whether a touch is active after an event, if the event may come. -/
def follow : Bool → TouchType → Option Bool
  | false, .touchBegin => some true
  | true, .touchUpdate => some true
  | true, .touchEnd => some false
  | _, _ => Option.none

/-- Runs Begin Update* End, of which the last may be unfinished. -/
def WellFormed (types : List TouchType) : Prop := (types.foldlM follow false).isSome = true

def eventsOf (t : Touches) (id : BitVec 16) : List TouchCall := t.log.filter (fun c => c.id = id)

/-- The last message for a touch. -/
def lastFor (received : List Message) (id : BitVec 16) : Option Message :=
  (received.filter (fun m => m.id = id)).getLast?

/-- A touch begins once, and its position in server coordinates is not met by a message at another
position. -/
def Orderly (t : Touches) (m : Message) : Prop :=
  (m.event.type = .touchBegin → t.active m.id = Option.none) ∧
    (m.event.type = .touchUpdate → t.active m.id = some m.clamped → m.position = m.clamped)

/-! ## One message -/

variable {t : Touches} {m : Message} {id : BitVec 16} {call : TouchCall}

/-- What holds of one touch. -/
structure Faithful (t : Touches) (received : List Message) (id : BitVec 16) : Prop where
  follows : ((t.eventsOf id).map TouchCall.type).foldlM follow false = some (t.active id).isSome
  last : ∀ pos, t.active id = some pos →
    ∃ call, (t.eventsOf id).getLast? = some call ∧ (call.x, call.y) = pos
  received : ∀ pos, t.active id = some pos →
    ∃ m, lastFor received id = some m ∧ m.position = pos

theorem lastFor_snoc_of_ne {received : List Message} (h : m.id ≠ id) :
    lastFor (received ++ [m]) id = lastFor received id := by
  simp [lastFor, h]

theorem lastFor_snoc (received : List Message) : lastFor (received ++ [m]) m.id = some m := by
  simp [lastFor]

theorem eventsOf_queue_of_ne (h : call.id ≠ id) :
    (t.queueTouchEvents call).eventsOf id = t.eventsOf id := by
  simp [eventsOf, queueTouchEvents, h]

theorem eventsOf_queue : (t.queueTouchEvents call).eventsOf call.id = t.eventsOf call.id ++ [call] := by
  simp [eventsOf, queueTouchEvents]

/-- What the handler does with a message: nothing, or one event. -/
theorem handle_cases (h : t.Orderly m) :
    t.handleTouchEvent m = t ∧
        (∀ pos, t.active m.id = some pos → m.position = pos) ∨
      ∃ type, t.handleTouchEvent m = t.queueTouchEvents ⟨type, m.id, m.position.1, m.position.2⟩ ∧
        follow (t.active m.id).isSome type = some (decide (type ≠ .touchEnd)) := by
  obtain ⟨hbegin, hupdate⟩ := h
  unfold handleTouchEvent
  dsimp only
  cases hactive : t.active m.id with
  | none =>
    cases htype : m.event.type with
    | touchBegin => exact .inr ⟨.touchBegin, by simp, rfl⟩
    | touchUpdate => exact .inr ⟨.touchBegin, by simp, rfl⟩
    | touchEnd => exact .inl ⟨by simp, by simp⟩
  | some pos =>
    cases htype : m.event.type with
    | touchBegin =>
      rw [hbegin htype] at hactive
      cases hactive
    | touchUpdate =>
      by_cases hpos : pos = m.clamped
      · subst hpos
        refine .inl ⟨by simp, ?_⟩
        rintro pos ⟨⟩
        exact hupdate htype hactive
      · exact .inr ⟨.touchUpdate, by simp [hpos], rfl⟩
    | touchEnd => exact .inr ⟨.touchEnd, by simp, rfl⟩

theorem faithful_of_ne {received : List Message} (h : Faithful t received id) (hne : m.id ≠ id)
    (hm : t.Orderly m) : Faithful (t.handleTouchEvent m) (received ++ [m]) id := by
  have hframe : (t.handleTouchEvent m).active id = t.active id ∧
      (t.handleTouchEvent m).eventsOf id = t.eventsOf id := by
    rcases handle_cases hm with ⟨hsame, -⟩ | ⟨type, hqueue, -⟩
    · rw [hsame]
      exact ⟨rfl, rfl⟩
    · rw [hqueue]
      exact ⟨Function.update_of_ne hne.symm _ _, eventsOf_queue_of_ne hne⟩
  constructor
  · rw [hframe.1, hframe.2]
    exact h.follows
  · rw [hframe.1, hframe.2]
    exact h.last
  · rw [hframe.1, lastFor_snoc_of_ne hne]
    exact h.received

theorem faithful_self {received : List Message} (h : Faithful t received m.id)
    (hm : t.Orderly m) : Faithful (t.handleTouchEvent m) (received ++ [m]) m.id := by
  rcases handle_cases hm with ⟨hsame, hpos⟩ | ⟨type, hqueue, hfollow⟩
  · rw [hsame]
    exact ⟨h.follows, h.last, fun pos hactive => ⟨m, lastFor_snoc received, hpos pos hactive⟩⟩
  · rw [hqueue]
    have hevents : (t.queueTouchEvents ⟨type, m.id, m.position.1, m.position.2⟩).eventsOf m.id =
        t.eventsOf m.id ++ [⟨type, m.id, m.position.1, m.position.2⟩] := eventsOf_queue
    have hactive : (t.queueTouchEvents ⟨type, m.id, m.position.1, m.position.2⟩).active m.id =
        if type = .touchEnd then Option.none else some m.position := Function.update_self ..
    constructor
    · rw [hevents, hactive, List.map_append, List.foldlM_append, h.follows]
      simp only [List.map_cons, List.map_nil, List.foldlM_cons, List.foldlM_nil, Option.bind_eq_bind,
        Option.bind_some, hfollow]
      split_ifs with hend <;> simp [hend]
    · intro pos hpos
      rw [hactive] at hpos
      rw [hevents]
      split_ifs at hpos
      cases hpos
      exact ⟨_, List.getLast?_concat, rfl⟩
    · intro pos hpos
      rw [hactive] at hpos
      split_ifs at hpos
      cases hpos
      exact ⟨m, lastFor_snoc received, rfl⟩

/-! ## Runs -/

theorem none_faithful (id : BitVec 16) : Faithful none [] id :=
  ⟨rfl, fun _ h => (by cases h), fun _ h => (by cases h)⟩

/-- If no touch begins twice and no message at another position meets the values of its touch, the
events of each touch are runs, and the last one is at the position of the last message. -/
theorem touches_lossless {messages : List Message}
    (h : Run.Along handleTouchEvent Orderly none messages) (id : BitVec 16) :
    WellFormed (((Run.after handleTouchEvent none messages).eventsOf id).map TouchCall.type) ∧
      ((Run.after handleTouchEvent none messages).active id ≠ Option.none →
        ∃ call m, ((Run.after handleTouchEvent none messages).eventsOf id).getLast? = some call ∧
          lastFor messages id = some m ∧ (call.x, call.y) = m.position) := by
  have hfaithful := h.history (I := fun t received => ∀ id, Faithful t received id)
    (fun t past m ht hm id => by
      by_cases hid : m.id = id
      · subst hid
        exact faithful_self (ht m.id) hm
      · exact faithful_of_ne (ht id) hid hm) none_faithful id
  rw [List.nil_append] at hfaithful
  constructor
  · unfold WellFormed
    rw [hfaithful.follows]
    rfl
  · intro hactive
    obtain ⟨pos, hpos⟩ := Option.ne_none_iff_exists'.mp hactive
    obtain ⟨call, hlast, hcall⟩ := hfaithful.last pos hpos
    obtain ⟨m, hm, hposition⟩ := hfaithful.received pos hpos
    exact ⟨call, m, hlast, hm, hcall.trans hposition.symm⟩

def onScreen (type : TouchType) (x : BitVec 16) : Message :=
  ⟨⟨type, 0, x, 0⟩, ⟨1285, 720, by decide, by decide⟩⟩

/-- A touch begins and moves. -/
theorem touches_lossless_move :
    let messages := [onScreen .touchBegin 1, onScreen .touchUpdate 2]
    ((Run.after handleTouchEvent none messages).eventsOf 0).getLast?.map (fun call => call.x) =
      some 102 := by
  intro messages
  have hrun : Run.Along handleTouchEvent Orderly none messages :=
    ⟨⟨fun _ => rfl, fun h => (by cases h)⟩,
      ⟨fun h => (by cases h), fun _ h => absurd h (by decide +kernel)⟩, trivial⟩
  obtain ⟨call, m, hlast, hm, hposition⟩ :=
    (touches_lossless hrun 0).2 (by decide +kernel)
  have hm' : m = onScreen .touchUpdate 2 := by
    have : lastFor messages 0 = some (onScreen .touchUpdate 2) := rfl
    exact Option.some.inj (hm.symm.trans this)
  have hx : call.x = m.position.1 := congrArg Prod.fst hposition
  rw [hlast, Option.map_some, hx, hm']
  decide +kernel

/-- A touch begins at 1, which is 51 for the server, and moves to 51: the update is lost. -/
theorem update_lost :
    let messages := [onScreen .touchBegin 1, onScreen .touchUpdate 51]
    ((Run.after handleTouchEvent none messages).eventsOf 0).map (fun call => (call.type, call.x)) =
        [(.touchBegin, 51)] ∧
      (Run.after handleTouchEvent none messages).active 0 ≠ Option.none ∧
      (lastFor messages 0).map (fun m => m.position.1) = some 2601 := by
  decide +kernel

end Touches

/-! ## Narrowing -/

namespace TouchEvent

/-- The message of `sendTouchEvent(action, id, x, y)`, whose numbers are stored in 16 bits. -/
def send (type : TouchType) (id x y : BitVec 32) : TouchEvent :=
  ⟨type, id.setWidth 16, x.setWidth 16, y.setWidth 16⟩

/-- What `max(min(c, size), 0)` is to be: the coordinate itself, held within the screen. -/
def withinScreen (c : BitVec 32) (size : Nat) : ℚ := (max 0 (min c.toInt size) : ℤ)

/-- The low 16 bits of a coordinate lie on the same side of the screen as the coordinate, or are the
coordinate. -/
def KeepsSide (c : BitVec 32) (size : Nat) : Prop :=
  if c.toInt < 0 then 65536 ∣ c.toInt else c.toInt < 65536 ∨ size ≤ c.toInt % 65536

theorem toNat_narrow (c : BitVec 32) : ((c.setWidth 16).toNat : ℤ) = c.toInt % 65536 := by
  rw [BitVec.toNat_setWidth, BitVec.toInt_eq_toNat_cond]
  have hlt := c.isLt
  split_ifs <;> push_cast <;> omega

theorem clamp_narrow (c : BitVec 32) (size : Nat) :
    clamp (c.setWidth 16) size = (min (c.toInt % 65536) size : ℤ) := by
  have hmin : (0 : ℤ) ≤ min (c.toInt % 65536) size := by omega
  have hcast : ((c.setWidth 16).toNat : ℚ) = (c.toInt % 65536 : ℤ) := by
    exact_mod_cast congrArg (Int.cast : ℤ → ℚ) (toNat_narrow c)
  rw [clamp, hcast, max_eq_left]
  · push_cast
    rfl
  · exact le_min (by exact_mod_cast Int.emod_nonneg _ (by decide)) (Nat.cast_nonneg size)

theorem clamp_narrow_eq_iff (c : BitVec 32) {size : Nat} (hpos : 0 < size) (hsize : size ≤ 65535) :
    clamp (c.setWidth 16) size = withinScreen c size ↔ KeepsSide c size := by
  rw [clamp_narrow, withinScreen, Int.cast_inj, KeepsSide]
  split_ifs with hneg
  · omega
  · omega

/-- The clamped position is that of the coordinates exactly if both keep their side. -/
theorem clamped_send_iff (type : TouchType) (id x y : BitVec 32) (screen : TouchScreen)
    (hsize : screen.width ≤ 65535 ∧ screen.height ≤ 65535) :
    (send type id x y).clamped screen =
        (withinScreen x screen.width, withinScreen y screen.height) ↔
      KeepsSide x screen.width ∧ KeepsSide y screen.height := by
  rw [clamped, Prod.mk.injEq]
  exact and_congr (clamp_narrow_eq_iff x screen.width_pos hsize.1)
    (clamp_narrow_eq_iff y screen.height_pos hsize.2)

/-- A touch far below a screen of 1280 by 720. -/
theorem clamped_send_iff_below :
    (send .touchUpdate 0 100 1000).clamped ⟨1280, 720, by decide, by decide⟩ = (100, 720) :=
  ((clamped_send_iff .touchUpdate 0 100 1000 ⟨1280, 720, by decide, by decide⟩
    (by decide)).mpr (by unfold KeepsSide; decide)).trans (by decide +kernel)

/-- A finger one pixel to the left of the screen is at its right edge. -/
theorem left_edge_wraps :
    ¬((send .touchUpdate 0 (-1) 100).clamped ⟨1280, 720, by decide, by decide⟩ =
      (withinScreen (-1) 1280, withinScreen 100 720)) := by
  decide +kernel

end TouchEvent

end XoDos
