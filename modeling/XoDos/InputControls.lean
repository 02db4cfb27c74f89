import XoDos.ElementTidy

/-!
# Touches of the on-screen controls

`InputControlsView` hands the pointers of a touch event to all elements of its profile.
What no element handles goes to the touchpad.

The profile is not being edited, and the events are not those of a mouse.
-/

namespace XoDos

inductive MotionAction where
  | down
  | pointerDown
  | move
  | up
  | pointerUp
  | cancel
deriving DecidableEq, Repr

/-- A touch event: the pointers with their ids and positions, in the order of their indices. -/
structure MotionEvent where
  action : MotionAction
  actionIndex : Nat
  pointers : List (Nat × Point)
  time : Int

def MotionEvent.ids (event : MotionEvent) : List Nat := event.pointers.map Prod.fst

/-- What the view calls on its touchpad. -/
inductive TouchpadCall where
  | setPointerButtonLeftEnabled (enabled : Bool)
  | onTouchEvent (event : MotionEvent)

structure ControlsView where
  elements : List LiveElement
  touchpad : List TouchpadCall

namespace ControlsView

section
variable [TouchMath]

def handleDown (v : ControlsView) (event : MotionEvent) (pointerId : Nat) (point : Point) :
    ControlsView × Bool :=
  let results := v.elements.map fun e => e.handleTouchDown pointerId point event.time
  let handled := results.any Prod.snd
  let disabled := results.filter fun r => r.2 && r.1.element.getBindingAt 0 == .mouseLeftButton
  ({ elements := results.map Prod.fst
     touchpad := v.touchpad ++ [.setPointerButtonLeftEnabled true] ++
      disabled.map (fun _ => .setPointerButtonLeftEnabled false) ++
      (if handled then [] else [.onTouchEvent event]) }, handled)

/-- A move of the pointer with the index: the index is passed where the elements expect the id. -/
def handleMove (event : MotionEvent) (s : ControlsView × Bool) (pointer : (Nat × Point) × Nat) :
    ControlsView × Bool :=
  let results := s.1.elements.map fun e => e.handleTouchMove pointer.2 pointer.1.2
  let handled := results.any Prod.snd
  ({ elements := results.map Prod.fst
     touchpad := s.1.touchpad ++ (if handled then [] else [.onTouchEvent event]) }, handled)

end

/-- The pointer that goes up is told once for every pointer of the event. -/
def handleUp (event : MotionEvent) (pointerId : Nat) (s : ControlsView × Bool)
    (_pointer : (Nat × Point) × Nat) : ControlsView × Bool :=
  let results := s.1.elements.map fun e => e.handleTouchUp pointerId event.time
  let handled := s.2 || results.any Prod.snd
  ({ elements := results.map Prod.fst
     touchpad := s.1.touchpad ++ (if handled then [] else [.onTouchEvent event]) }, handled)

/-- `for (byte i = 0, count = (byte) event.getPointerCount(); i < count; i++)` -/
def loop (event : MotionEvent) : List ((Nat × Point) × Nat) :=
  event.pointers.zipIdx.take (BitVec.ofNat 8 event.pointers.length).toInt.toNat

def handleTouchEvent [TouchMath] (v : ControlsView) (event : MotionEvent) : ControlsView × Bool :=
  match event.pointers[event.actionIndex]? with
  | none => (v, false)
  | some (pointerId, point) =>
    match event.action with
    | .down | .pointerDown => v.handleDown event pointerId point
    | .move => (loop event).foldl (handleMove event) (v, false)
    | .up | .pointerUp | .cancel => (loop event).foldl (handleUp event pointerId) (v, false)

end ControlsView

/-! ## Streams of events -/

/-- The pointers that are down, in the order of their indices, and the view. -/
structure TouchScreenState where
  pointers : List Nat
  view : ControlsView

namespace TouchScreenState

def pointersAfter (pointers : List Nat) (event : MotionEvent) : List Nat :=
  match event.action with
  | .down | .pointerDown => event.ids
  | .move => pointers
  | .up | .pointerUp => pointers.eraseIdx event.actionIndex
  | .cancel => []

def step [TouchMath] (s : TouchScreenState) (event : MotionEvent) : TouchScreenState where
  pointers := pointersAfter s.pointers event
  view := (s.view.handleTouchEvent event).1

/-- An event that may come while the pointers are down. -/
def Allowed (pointers : List Nat) (event : MotionEvent) : Prop :=
  event.ids.Nodup ∧ (∀ id ∈ event.ids, id < 32) ∧ event.actionIndex < event.pointers.length ∧
    match event.action with
    | .down => pointers = [] ∧ event.ids.length = 1
    | .pointerDown => pointers ≠ [] ∧ event.ids.eraseIdx event.actionIndex = pointers
    | .move => event.ids = pointers ∧ event.actionIndex = 0
    | .up => event.ids = pointers ∧ pointers.length = 1
    | .pointerUp => event.ids = pointers ∧ 2 ≤ pointers.length
    | .cancel => event.ids = pointers ∧ event.actionIndex = 0

/-- The pointer that has captured the element is the one that the event is about. -/
def CancelsPointer (event : MotionEvent) (e : LiveElement) : Prop :=
  event.action = .cancel → ∀ id : Nat, e.currentPointerId = id → event.ids[event.actionIndex]? = some id

/-- The element gets the position of the pointer, once, and no other. -/
def Follows [TouchMath] (v : ControlsView) (event : MotionEvent) (k : Nat) (e : LiveElement) (id : Nat) :
    Prop :=
  ∃ point e', (id, point) ∈ event.pointers ∧
    (v.handleTouchEvent event).1.elements[k]? = some e' ∧ e'.followed = e.followed ++ [point]

/-- Every element that is captured follows its pointer. -/
def FollowsPointers [TouchMath] (v : ControlsView) (event : MotionEvent) : Prop :=
  ∀ (k : Nat) (e : LiveElement) (id : Nat), v.elements[k]? = some e → e.currentPointerId = id →
    Follows v event k e id

/-- No element is captured, and none has pressed what it has not released. -/
def NothingHeld (v : ControlsView) : Prop :=
  ∀ e ∈ v.elements, e.currentPointerId = -1 ∧
    ((e.element.type = .dPad ∨ e.element.type = .stick ∨
        (e.isButton = true ∧ e.element.toggleSwitch = false)) →
      ∀ b, e.pressed b = false)

/-- The element is not captured, and has released what it has pressed, unless it is a button that is kept
pressed after a long touch. -/
def ReleasedOrKept (e : LiveElement) : Prop :=
  e.currentPointerId = -1 ∧
    ((e.element.type = .dPad ∨ e.element.type = .stick ∨
        (e.isButton = true ∧ e.element.toggleSwitch = false)) →
      ∀ b, e.pressed b = true → e.isButton = true ∧ e.Kept)

/-! ## One event -/

/-- A loop over the pointers of which each round maps all elements. -/
theorem foldl_elements {X : Type} {f : ControlsView × Bool → X → ControlsView × Bool}
    {g : LiveElement → X → LiveElement}
    (hf : ∀ s x, (f s x).1.elements = s.1.elements.map fun e => g e x) (xs : List X)
    (s : ControlsView × Bool) :
    (xs.foldl f s).1.elements = s.1.elements.map fun e => xs.foldl g e := by
  induction xs generalizing s with
  | nil => simp
  | cons x xs ih => rw [List.foldl_cons, ih, hf, List.map_map]; rfl

theorem length_le_of_allowed {pointers : List Nat} {event : MotionEvent}
    (h : Allowed pointers event) : event.pointers.length ≤ 32 := by
  have hsub : event.ids ⊆ List.range 32 := by
    intro id hid
    exact List.mem_range.mpr (h.2.1 id hid)
  have hlen := (h.1.subperm hsub).length_le
  simpa [MotionEvent.ids] using hlen

theorem loop_eq {pointers : List Nat} {event : MotionEvent} (h : Allowed pointers event) :
    ControlsView.loop event = event.pointers.zipIdx := by
  have hlen := length_le_of_allowed h
  have hcount : (BitVec.ofNat 8 event.pointers.length).toInt.toNat = event.pointers.length := by
    rw [BitVec.toInt_eq_toNat_of_lt (by rw [BitVec.toNat_ofNat]; omega), BitVec.toNat_ofNat]
    omega
  rw [ControlsView.loop, hcount]
  apply List.take_of_length_le
  simp

section
variable [TouchMath] {s : TouchScreenState} {event : MotionEvent} {e : LiveElement}

/-- An element through the moves of the pointers. -/
def movesOf (pointers : List ((Nat × Point) × Nat)) (e : LiveElement) : LiveElement :=
  pointers.foldl (fun e pointer => (e.handleTouchMove pointer.2 pointer.1.2).1) e

theorem elements_move (h : Allowed s.pointers event) (haction : event.action = .move) :
    (s.view.handleTouchEvent event).1.elements =
      s.view.elements.map (movesOf event.pointers.zipIdx) := by
  obtain ⟨pointer, hpointer⟩ : ∃ pointer, event.pointers[event.actionIndex]? = some pointer :=
    ⟨_, List.getElem?_eq_getElem h.2.2.1⟩
  simp only [ControlsView.handleTouchEvent, hpointer, haction, loop_eq h]
  apply foldl_elements
  intro s x
  simp [ControlsView.handleMove]

theorem elements_down {pointerId : Nat} {point : Point}
    (hpointer : event.pointers[event.actionIndex]? = some (pointerId, point))
    (haction : event.action = .down ∨ event.action = .pointerDown) :
    (s.view.handleTouchEvent event).1.elements =
      s.view.elements.map fun e => (e.handleTouchDown pointerId point event.time).1 := by
  rcases haction with haction | haction <;>
    simp [ControlsView.handleTouchEvent, hpointer, haction, ControlsView.handleDown]

theorem elements_up {pointerId : Nat} {point : Point} (h : Allowed s.pointers event)
    (hpointer : event.pointers[event.actionIndex]? = some (pointerId, point))
    (haction : event.action = .up ∨ event.action = .pointerUp ∨ event.action = .cancel) :
    (s.view.handleTouchEvent event).1.elements =
      s.view.elements.map fun e => (e.handleTouchUp pointerId event.time).1 := by
  have hfold : (s.view.handleTouchEvent event).1.elements = s.view.elements.map fun e =>
      event.pointers.zipIdx.foldl (fun e _ => (e.handleTouchUp pointerId event.time).1) e := by
    rcases haction with haction | haction | haction <;>
      simp only [ControlsView.handleTouchEvent, hpointer, haction, loop_eq h] <;>
      apply foldl_elements <;> intro s x <;> simp [ControlsView.handleUp]
  have hnone : ∀ (e : LiveElement) (xs : List ((Nat × Point) × Nat)),
      (pointerId : Int) ≠ e.currentPointerId →
      xs.foldl (fun e _ => (e.handleTouchUp pointerId event.time).1) e = e := by
    intro e xs hne
    induction xs with
    | nil => rfl
    | cons x xs ih => rw [List.foldl_cons, LiveElement.handleTouchUp_of_ne hne, ih]
  -- the first round already sets `currentPointerId` to -1
  rw [hfold]
  apply List.map_congr_left
  intro e _
  rcases hzip : event.pointers.zipIdx with _ | ⟨x, xs⟩
  · have : event.pointers = [] := by simpa using hzip
    simp [this] at hpointer
  · rw [List.foldl_cons]
    apply hnone
    by_cases hown : (pointerId : Int) = e.currentPointerId
    · rw [LiveElement.handleTouchUp_own hown]
      omega
    · rw [LiveElement.handleTouchUp_of_ne hown]
      exact hown

theorem movesOf_cons (x : (Nat × Point) × Nat) (pointers : List ((Nat × Point) × Nat)) :
    movesOf (x :: pointers) e = movesOf pointers (e.handleTouchMove x.2 x.1.2).1 :=
  rfl

theorem movesOf_tidy (pointers : List ((Nat × Point) × Nat)) (h : e.Tidy) :
    (movesOf pointers e).Tidy ∧ (movesOf pointers e).currentPointerId = e.currentPointerId := by
  induction pointers generalizing e with
  | nil => exact ⟨h, rfl⟩
  | cons x pointers ih =>
    have h' : (e.handleTouchMove x.2 x.1.2).1.Tidy := h.handleTouchMove (by omega)
    obtain ⟨htidy, hpointer⟩ := ih h'
    exact ⟨htidy, hpointer.trans h.move_pointer⟩

/-- An element follows the pointer whose index is the id that it was captured with. -/
theorem movesOf_followed {id : Nat} (h : e.Tidy) (hid : e.currentPointerId = id)
    (pointers : List (Nat × Point)) (k : Nat) :
    (movesOf (pointers.zipIdx k) e).followed =
      e.followed ++ if k ≤ id then (pointers[id - k]?.map Prod.snd).toList else [] := by
  induction pointers generalizing e k with
  | nil => simp [movesOf]
  | cons q pointers ih =>
    rw [List.zipIdx_cons, movesOf_cons]
    have h' : (e.handleTouchMove k q.2).1.Tidy := h.handleTouchMove (by omega)
    have hid' : (e.handleTouchMove k q.2).1.currentPointerId = id := h.move_pointer.trans hid
    rw [ih h' hid' (k + 1)]
    rcases lt_trichotomy k id with hlt | heq | hgt
    · rw [LiveElement.handleTouchMove_of_ne (by omega), if_pos (by omega), if_pos hlt.le]
      have : id - k = id - (k + 1) + 1 := by omega
      rw [this, List.getElem?_cons_succ]
    · rw [(h.move_fields (by omega)).2, if_neg (by omega), if_pos heq.le]
      simp [heq]
    · rw [LiveElement.handleTouchMove_of_ne (by omega), if_neg (by omega), if_neg (by omega)]

/-- The element is free, or its pointer is down. -/
def HeldDown (pointers : List Nat) (e : LiveElement) : Prop :=
  e.currentPointerId = -1 ∨ ∃ id ∈ pointers, e.currentPointerId = (id : Nat)

/-- What an event makes of an element. -/
structure Taken (s : TouchScreenState) (event : MotionEvent) (e e' : LiveElement) : Prop where
  tidy : e'.Tidy
  held : HeldDown s.pointers e → CancelsPointer event e → HeldDown (s.step event).pointers e'
  follows : event.action = .move → ∀ id : Nat, e.currentPointerId = id → event.ids[id]? = some id →
    ∃ point, (id, point) ∈ event.pointers ∧ e'.followed = e.followed ++ [point]

theorem taken_down {pointerId : Nat} {point : Point} (h : e.Tidy)
    (hpointer : event.pointers[event.actionIndex]? = some (pointerId, point))
    (haction : event.action = .down ∨ event.action = .pointerDown) (hsub : s.pointers ⊆ event.ids) :
    Taken s event e (e.handleTouchDown pointerId point event.time).1 := by
  have hpointers : (s.step event).pointers = event.ids := by
    rcases haction with haction | haction <;> simp [step, pointersAfter, haction]
  have hid : pointerId ∈ event.ids :=
    List.mem_map.mpr ⟨_, List.mem_of_getElem? hpointer, rfl⟩
  refine ⟨h.handleTouchDown (by omega), fun hheld _ => ?_, fun hmove => ?_⟩
  · rw [hpointers]
    rcases @LiveElement.Tidy.down_pointer _ _ pointerId event.time point h
      (show (pointerId : Int) ≠ -1 by omega) with hnew | hold
    · exact .inr ⟨pointerId, hid, hnew⟩
    · rw [HeldDown, hold]
      exact hheld.imp_right fun ⟨id, hid, heq⟩ => ⟨id, hsub hid, heq⟩
  · rw [hmove] at haction
    rcases haction with haction | haction <;> cases haction

theorem taken_move (h : e.Tidy) (haction : event.action = .move) :
    Taken s event e (movesOf event.pointers.zipIdx e) := by
  refine ⟨(movesOf_tidy _ h).1, fun hheld _ => ?_, fun _ id hid hindex => ?_⟩
  · have hpointers : (s.step event).pointers = s.pointers := by simp [step, pointersAfter, haction]
    rw [hpointers, HeldDown, (movesOf_tidy _ h).2]
    exact hheld
  · obtain ⟨⟨id', point⟩, hpoint, rfl⟩ : ∃ q, event.pointers[id]? = some q ∧ q.1 = id := by
      simpa [MotionEvent.ids] using hindex
    refine ⟨point, List.mem_of_getElem? hpoint, ?_⟩
    rw [movesOf_followed h hid]
    simp [hpoint]

/-- The pointer that goes up leaves its elements; those of other pointers that stay down are as
they were. -/
theorem taken_up {pointerId : Nat} (h : e.Tidy)
    (haction : event.action = .up ∨ event.action = .pointerUp ∨ event.action = .cancel)
    (hothers : CancelsPointer event e → ∀ id ∈ s.pointers, e.currentPointerId = (id : Nat) →
      id ≠ pointerId → id ∈ (s.step event).pointers) :
    Taken s event e (e.handleTouchUp pointerId event.time).1 := by
  refine ⟨h.handleTouchUp, fun hheld hcancel => ?_, fun hmove => ?_⟩
  · by_cases hown : (pointerId : Int) = e.currentPointerId
    · exact .inl (LiveElement.handleTouchUp_own hown)
    · rw [LiveElement.handleTouchUp_of_ne hown]
      rcases hheld with hfree | ⟨id, hid, heq⟩
      · exact .inl hfree
      · exact .inr ⟨id, hothers hcancel id hid heq (by omega), heq⟩
  · rw [hmove] at haction
    rcases haction with haction | haction | haction <;> cases haction

/-- An event maps the elements. -/
theorem elements_taken (hallowed : Allowed s.pointers event) : ∃ f : LiveElement → LiveElement,
    (s.step event).view.elements = s.view.elements.map f ∧ ∀ e : LiveElement, e.Tidy → Taken s event e (f e) := by
  obtain ⟨⟨pointerId, point⟩, hpointer⟩ :
      ∃ pointer, event.pointers[event.actionIndex]? = some pointer :=
    ⟨_, List.getElem?_eq_getElem hallowed.2.2.1⟩
  have hids : event.ids[event.actionIndex]? = some pointerId := by
    simp [MotionEvent.ids, hpointer]
  have hcase := hallowed.2.2.2
  cases haction : event.action <;> simp only [haction] at hcase
  case down =>
    refine ⟨_, elements_down hpointer (.inl haction), fun e h => taken_down h hpointer (.inl haction) ?_⟩
    rw [hcase.1]
    exact List.nil_subset _
  case pointerDown =>
    refine ⟨_, elements_down hpointer (.inr haction), fun e h => taken_down h hpointer (.inr haction) ?_⟩
    rw [← hcase.2]
    exact (List.eraseIdx_sublist _ _).subset
  case move => exact ⟨_, elements_move hallowed haction, fun e h => taken_move h haction⟩
  case cancel =>
    refine ⟨_, elements_up hallowed hpointer (.inr (.inr haction)), fun e h =>
      taken_up h (.inr (.inr haction)) fun hcancel id _ heq hne => ?_⟩
    have hfirst := hcancel haction id heq
    rw [hids] at hfirst
    exact absurd (Option.some.inj hfirst).symm hne
  case up =>
    refine ⟨_, elements_up hallowed hpointer (.inl haction), fun e h =>
      taken_up h (.inl haction) fun _ id hid _ hne => ?_⟩
    simp only [TouchScreenState.step, pointersAfter, haction]
    exact Run.mem_eraseIdx_of_ne hid (hcase.1 ▸ hids) hne
  case pointerUp =>
    refine ⟨_, elements_up hallowed hpointer (.inr (.inl haction)), fun e h =>
      taken_up h (.inr (.inl haction)) fun _ id hid _ hne => ?_⟩
    simp only [TouchScreenState.step, pointersAfter, haction]
    exact Run.mem_eraseIdx_of_ne hid (hcase.1 ▸ hids) hne

/-! ## Whole streams -/

/-- The elements are tidy. -/
def Tidy (s : TouchScreenState) : Prop := ∀ e ∈ s.view.elements, e.Tidy

theorem Tidy.step (h : s.Tidy) (hallowed : Allowed s.pointers event) : (s.step event).Tidy := by
  obtain ⟨f, helements, htaken⟩ := elements_taken hallowed
  intro e' he'
  rw [helements] at he'
  obtain ⟨e, he, rfl⟩ := List.mem_map.mp he'
  exact (htaken e (h e he)).tidy

/-- The elements are tidy, and the `k`-th is free or its pointer is down. -/
structure Holding (k : Nat) (s : TouchScreenState) : Prop where
  tidy : s.Tidy
  held : ∀ e, s.view.elements[k]? = some e → HeldDown s.pointers e

theorem Holding.step {k : Nat} (h : Holding k s) (hallowed : Allowed s.pointers event)
    (hcancel : ∀ e, s.view.elements[k]? = some e → CancelsPointer event e) :
    Holding k (s.step event) := by
  refine ⟨h.tidy.step hallowed, fun e' he' => ?_⟩
  obtain ⟨f, helements, htaken⟩ := elements_taken hallowed
  rw [helements, List.getElem?_map, Option.map_eq_some_iff] at he'
  obtain ⟨e, he, rfl⟩ := he'
  exact (htaken e (h.tidy e (List.mem_of_getElem? he))).held (h.held e he) (hcancel e he)

theorem follows_of_tidy {k id : Nat} (h : s.Tidy) (hallowed : Allowed s.pointers event)
    (haction : event.action = .move) (he : s.view.elements[k]? = some e) (hid : e.currentPointerId = id)
    (hindex : event.ids[id]? = some id) : Follows s.view event k e id := by
  obtain ⟨f, helements, htaken⟩ := elements_taken hallowed
  obtain ⟨point, hpoint, hfollowed⟩ :=
    (htaken e (h e (List.mem_of_getElem? he))).follows haction id hid hindex
  refine ⟨point, f e, hpoint, ?_, hfollowed⟩
  have hmapped : (s.step event).view.elements[k]? = some (f e) := by
    rw [helements, List.getElem?_map, he, Option.map_some]
  exact hmapped

omit [TouchMath] in
theorem Holding.releasedOrKept {k : Nat} (h : Holding k s) (hpointers : s.pointers = [])
    (he : s.view.elements[k]? = some e) : ReleasedOrKept e := by
  have hfree : e.currentPointerId = -1 := by
    rcases h.held e he with hfree | ⟨id, hid, _⟩
    · exact hfree
    · rw [hpointers] at hid
      cases hid
  refine ⟨hfree, fun htype b hb => ?_⟩
  obtain ⟨hpad, hkept⟩ := (h.tidy e (List.mem_of_getElem? he)).free hfree hb
  rcases htype with htype | htype | ⟨hbutton, htoggle⟩
  · simp [LiveElement.isPad, htype] at hpad
  · simp [LiveElement.isPad, htype] at hpad
  · exact ⟨hbutton, hkept hbutton htoggle⟩

end

end TouchScreenState

/-! ## Profiles -/

namespace ControlElement

/-- There is a state for each of at least four bindings, and none is set. -/
structure Rests (e : ControlElement) : Prop where
  bindings : 4 ≤ e.bindings.length
  states : 4 ≤ e.states.length
  idle : ∀ i, e.states.getD i false = false

theorem getD_replicate (n i : Nat) : (List.replicate n false).getD i false = false := by
  by_cases hi : i < n <;> simp [hi]

theorem Rests.setBindingAt {e e' : ControlElement} {j : Nat} {binding : Binding} (h : e.Rests)
    (hj : j ≤ e.bindings.length) (hset : e.setBindingAt j binding = .ok e') :
    e'.Rests ∧ j + 1 ≤ e'.bindings.length := by
  rcases hj.lt_or_eq with hlt | heq
  · rw [setBindingAt_lt hlt] at hset
    cases hset
    exact ⟨⟨by simpa using h.bindings, h.states, h.idle⟩, by simpa using hlt⟩
  · have hne : e.bindings ≠ [] := by
      intro hnil
      have := h.bindings
      simp [hnil] at this
    rw [heq, setBindingAt_length hne] at hset
    cases hset
    have := h.bindings
    exact ⟨⟨by simp; omega, by simp; omega, getD_replicate _⟩, by simp; omega⟩

theorem Rests.loadBindings {e e' : ControlElement} {j : Nat} {names : List Binding.Name}
    (h : e.Rests) (hj : j ≤ e.bindings.length) (hload : e.loadBindings j names = .ok e') :
    e'.Rests := by
  induction names generalizing e j with
  | nil =>
    cases hload
    exact h
  | cons name names ih =>
    obtain ⟨e₁, hset, hrest⟩ := bind_eq_ok.mp hload
    obtain ⟨h₁, hj₁⟩ := h.setBindingAt hj hset
    exact ih h₁ hj₁ hrest

/-- An element that is loaded rests. -/
theorem loadElement_rests {json : Json} {e : ControlElement} (h : loadElement json = .ok e) :
    e.Rests := by
  obtain ⟨e₁, htype, hload⟩ := bind_eq_ok.mp h
  obtain ⟨four, hfour, hnew⟩ := new_setType json.type
  rw [hnew] at htype
  cases htype
  rw [loadFields_eq] at hload
  refine Rests.loadBindings ⟨hfour.ge, by simp [new], fun i => ?_⟩ (Nat.zero_le _) hload
  exact getD_replicate 4 i

end ControlElement

/-- An element of a profile that was loaded, with its place on the screen.  The loops over its
states count in a byte. -/
structure PlacedElement where
  element : ControlElement
  boundingBox : Rect
  loaded : ∃ json, ControlElement.loadElement json = .ok element
  short : element.states.length < 128

def PlacedElement.live (p : PlacedElement) : LiveElement where
  element := p.element
  boundingBox := p.boundingBox
  currentPointerId := -1
  selected := false
  touchTime := none
  cheatCodePressed := false
  currentPosition := none
  followed := []
  log := []

theorem PlacedElement.live_tidy (p : PlacedElement) : p.live.Tidy := by
  obtain ⟨json, hload⟩ := p.loaded
  have hrests := ControlElement.loadElement_rests hload
  have hnone : ∀ b, p.live.pressed b = false := fun _ => rfl
  constructor
  · exact fun _ => hrests.states
  · intro b hb
    rw [hnone b] at hb
    cases hb
  · exact fun _ _ => hrests.idle

namespace TouchScreenState

def start (profile : List PlacedElement) : TouchScreenState where
  pointers := []
  view := ⟨profile.map PlacedElement.live, []⟩

theorem holding_start (profile : List PlacedElement) (k : Nat) : Holding k (start profile) where
  tidy e he := by
    obtain ⟨p, _, rfl⟩ := List.mem_map.mp he
    exact p.live_tidy
  held e he := by
    obtain ⟨p, _, rfl⟩ := List.mem_map.mp (List.mem_of_getElem? he)
    exact .inl rfl

section
variable [TouchMath]

/-- Every element follows its own pointer through the stream. -/
def AlwaysFollows (profile : List PlacedElement) (events : List MotionEvent) : Prop :=
  ∀ earlier event later, events = earlier ++ event :: later → event.action = .move →
    FollowsPointers (Run.after step (start profile) earlier).view event

end

/-! ## Streams that are not followed -/

/-- Points inside of a pad are not moved to its circle. -/
@[reducible] def plainMath : TouchMath where
  onCircle x y _ := (x, y)
  getInterpolation x := x
  xform i := if i.val = 0 ∨ i.val = 3 then 1 else 0

/-- A button for the left stick of a gamepad. -/
def l3Button : PlacedElement where
  element := { ControlElement.new with bindings := [.gamepadButtonL3, .none, .none, .none] }
  boundingBox := ⟨0, 0, 100, 100⟩
  loaded := ⟨({ ControlElement.new with bindings :=
    [.gamepadButtonL3, .none, .none, .none] } : ControlElement).toJSONObject, rfl⟩
  short := by decide

def dPad : PlacedElement where
  element := { ControlElement.new with type := .dPad, bindings := [.keyW, .keyD, .keyS, .keyA] }
  boundingBox := ⟨200, 0, 100, 100⟩
  loaded := ⟨({ ControlElement.new with type := .dPad, bindings :=
    [.keyW, .keyD, .keyS, .keyA] } : ControlElement).toJSONObject, rfl⟩
  short := by decide

/-- The button is held for a second. -/
def longTouch : List MotionEvent :=
  [⟨.down, 0, [(0, ⟨50, 50⟩)], 0⟩, ⟨.up, 0, [(0, ⟨50, 50⟩)], 1000⟩]

/-- The second finger moves on the D-pad after the first one has left. -/
def firstLeaves : List MotionEvent :=
  [⟨.down, 0, [(0, ⟨150, 50⟩)], 0⟩, ⟨.pointerDown, 1, [(0, ⟨150, 50⟩), (1, ⟨250, 50⟩)], 10⟩,
    ⟨.pointerUp, 0, [(0, ⟨150, 50⟩), (1, ⟨250, 50⟩)], 20⟩, ⟨.move, 0, [(1, ⟨250, 20⟩)], 30⟩]

/-- Two fingers are cancelled. -/
def cancelled : List MotionEvent :=
  [⟨.down, 0, [(0, ⟨150, 50⟩)], 0⟩, ⟨.pointerDown, 1, [(0, ⟨150, 50⟩), (1, ⟨250, 20⟩)], 10⟩,
    ⟨.cancel, 0, [(0, ⟨150, 50⟩), (1, ⟨250, 20⟩)], 20⟩]

/-- The stream is one that may come. -/
def Stream (profile : List PlacedElement) (events : List MotionEvent) : Prop :=
  Run.Along (@step plainMath) (fun s event => Allowed s.pointers event) (start profile) events

theorem streams_may_come :
    Stream [l3Button] longTouch ∧ Stream [dPad] firstLeaves ∧ Stream [dPad] cancelled := by
  refine ⟨?_, ?_, ?_⟩ <;>
    simp only [Stream, Run.Along, Allowed, longTouch, firstLeaves, cancelled, MotionEvent.ids,
      step, pointersAfter, start] <;>
    decide

/-- The D-pad keeps the point where the second finger came down. -/
theorem second_finger_lost :
    let v := (Run.after (@step plainMath) (start [dPad]) (firstLeaves.take 3)).view
    let moved := (@ControlsView.handleTouchEvent plainMath v ⟨.move, 0, [(1, ⟨250, 20⟩)], 30⟩).1
    v.elements[0]?.map (fun e => (e.currentPointerId, e.followed)) = some (1, [⟨250, 50⟩]) ∧
      moved.elements[0]?.map LiveElement.followed = some [⟨250, 50⟩] := by
  decide +kernel

/-- The second finger moves on the D-pad, also after the first one has left, and leaves. -/
def secondFinger : List MotionEvent :=
  [⟨.down, 0, [(0, ⟨150, 50⟩)], 0⟩, ⟨.pointerDown, 1, [(0, ⟨150, 50⟩), (1, ⟨250, 50⟩)], 10⟩,
    ⟨.move, 0, [(0, ⟨150, 50⟩), (1, ⟨250, 20⟩)], 20⟩,
    ⟨.pointerUp, 0, [(0, ⟨150, 50⟩), (1, ⟨250, 20⟩)], 30⟩, ⟨.move, 0, [(1, ⟨220, 50⟩)], 40⟩,
    ⟨.up, 0, [(1, ⟨220, 50⟩)], 50⟩]

end TouchScreenState

end XoDos
