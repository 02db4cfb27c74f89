import XoDos.Run
import XoDos.ElementTouch

/-!
# What an element has pressed

A pad has pressed the bindings of the states that are set.  A button that is no toggle
switch has pressed its bindings while it is captured, or because it is kept pressed after a
long touch.  The handlers preserve this.
-/

namespace XoDos.LiveElement

variable (e : LiveElement)

/-! ## Reasons -/

/-- Which bindings are pressed after a call. -/
def hold (held : Binding → Bool) : ElementCall → Binding → Bool
  | .handleInputEvent binding isActionDown _ => Function.update held binding isActionDown
  | _ => held

/-- Which bindings the element has pressed and not released. -/
def pressed : Binding → Bool := Run.after hold (fun _ => false) e.log

/-- A button that stays pressed after a long touch. -/
def Kept : Prop := e.isKeepButtonPressedAfterMinTime = true ∧ e.selected = true

/-- The binding is that of a state that is set. -/
def ByState (b : Binding) : Prop :=
  ∃ i, e.element.states.getD i false = true ∧ e.element.getBindingAt i = b

/-- The binding is one that the button presses. -/
def ByButton (b : Binding) : Prop :=
  match e.element.type with
  | .combineButton => b ≠ .none ∧ ∃ i < e.element.states.length, e.element.getBindingAt i = b
  | _ => e.element.getBindingAt 0 = b

/-- Why the element may have pressed the binding. -/
def Accounts (b : Binding) : Prop :=
  match e.element.type with
  | .dPad | .stick | .trackpad => e.ByState b
  | .button | .combineButton =>
    e.element.toggleSwitch = true ∨ ((e.currentPointerId ≠ -1 ∨ e.Kept) ∧ e.ByButton b)
  | .rangeButton | .cheatCodeText => True

/-- Buttons and combined buttons. -/
def isButton : Bool :=
  match e.element.type with
  | .button | .combineButton => true
  | _ => false

/-- An element that can say why each of its bindings is pressed. -/
structure Tidy : Prop where
  wide : e.isPad = true → 4 ≤ e.element.states.length
  accounts : ∀ b, e.pressed b = true → e.Accounts b
  idle : e.isPad = true → e.currentPointerId = -1 → ∀ i, e.element.states.getD i false = false

variable {e}

theorem pressed_call (c : ElementCall) : (e.call c).pressed = hold e.pressed c :=
  Run.after_append

theorem pressed_handleInputEvent (b : Binding) (down : Bool) (offset : ℚ) :
    (e.handleInputEvent b down offset).pressed = Function.update e.pressed b down :=
  pressed_call _

theorem pressed_tellState (i : Nat) (state : Bool) (offset : ℚ) :
    (e.tellState i state offset).pressed =
      Function.update e.pressed (e.element.getBindingAt i) state :=
  pressed_call _

/-! ## Pads -/

/-- What a pad does not change while it tells its states. -/
structure SamePad (e e' : LiveElement) : Prop where
  element : ∃ states, states.length = e.element.states.length ∧
    e'.element = { e.element with states := states }
  currentPointerId : e'.currentPointerId = e.currentPointerId
  followed : e'.followed = e.followed

theorem SamePad.refl (e : LiveElement) : SamePad e e := ⟨⟨_, rfl, rfl⟩, rfl, rfl⟩

theorem SamePad.trans {e e' e'' : LiveElement} (h : SamePad e e') (h' : SamePad e' e'') :
    SamePad e e'' := by
  obtain ⟨states, hlen, helem⟩ := h.element
  obtain ⟨states', hlen', helem'⟩ := h'.element
  refine ⟨⟨states', ?_, ?_⟩, h'.currentPointerId.trans h.currentPointerId,
    h'.followed.trans h.followed⟩
  · rw [hlen', helem]
    exact hlen
  · rw [helem', helem]

theorem samePad_tellState (i : Nat) (state : Bool) (offset : ℚ) :
    SamePad e (e.tellState i state offset) :=
  ⟨⟨_, List.length_set, rfl⟩, rfl, rfl⟩

theorem samePad_setState (i : Nat) (state : Bool) : SamePad e (e.setState i state) :=
  ⟨⟨_, List.length_set, rfl⟩, rfl, rfl⟩

/-- Every binding that is pressed is that of a state. -/
def Covered (e : LiveElement) : Prop := ∀ b, e.pressed b = true → e.ByState b

theorem covered_tellState {i : Nat} {state : Bool} {offset : ℚ} (h : Covered e)
    (hi : i < e.element.states.length) : Covered (e.tellState i state offset) := by
  intro b hb
  rw [pressed_tellState] at hb
  by_cases hbi : b = e.element.getBindingAt i
  · rw [hbi, Function.update_self] at hb
    refine ⟨i, ?_, hbi.symm⟩
    show (e.element.states.set i state).getD i false = true
    simp [hi, hb]
  · rw [Function.update_of_ne hbi] at hb
    obtain ⟨j, hj, hjb⟩ := h b hb
    have hne : i ≠ j := by
      intro heq
      exact hbi (by rw [heq, hjb])
    refine ⟨j, ?_, hjb⟩
    show (e.element.states.set i state).getD j false = true
    simpa [List.getElem?_set_ne hne] using hj

theorem covered_setState {i : Nat} (h : Covered e) (hi : e.element.states.getD i false = false) :
    Covered (e.setState i false) := by
  intro b hb
  obtain ⟨j, hj, hjb⟩ := h b hb
  have hne : i ≠ j := by
    intro heq
    rw [← heq, hi] at hj
    cases hj
  refine ⟨j, ?_, hjb⟩
  show (e.element.states.set i false).getD j false = true
  simpa [List.getElem?_set_ne hne] using hj

/-- A loop over directions each of which tells its state or does nothing. -/
theorem foldl_tells {σ : Type} (π : σ → LiveElement) {f : σ → Nat → σ}
    (hf : ∀ s i, π (f s i) = π s ∨ ∃ state offset, π (f s i) = (π s).tellState i state offset)
    (is : List Nat) (s : σ) (h : Covered (π s)) (his : ∀ i ∈ is, i < (π s).element.states.length) :
    SamePad (π s) (π (is.foldl f s)) ∧ Covered (π (is.foldl f s)) := by
  induction is generalizing s with
  | nil => exact ⟨.refl _, h⟩
  | cons i is ih =>
    have hstep : SamePad (π s) (π (f s i)) ∧ Covered (π (f s i)) := by
      rcases hf s i with heq | ⟨state, offset, heq⟩ <;> rw [heq]
      · exact ⟨.refl _, h⟩
      · exact ⟨samePad_tellState i state offset, covered_tellState h (his i (by simp))⟩
    obtain ⟨states, hlen, helem⟩ := hstep.1.element
    have hrest := ih (f s i) hstep.2 (by
      intro j hj
      rw [helem]
      show j < states.length
      rw [hlen]
      exact his j (by simp [hj]))
    exact ⟨hstep.1.trans hrest.1, hrest.2⟩

theorem moveDPad_tells (deltaX deltaY : ℚ) (e : LiveElement) (i : Nat) :
    ∃ state offset, moveDPad deltaX deltaY e i = e.tellState i state offset :=
  ⟨_, _, rfl⟩

theorem moveStick_tells (deltaX deltaY : ℚ) (e : LiveElement) (i : Nat) :
    ∃ state offset, moveStick deltaX deltaY e i = e.tellState i state offset := by
  unfold moveStick
  dsimp only
  split_ifs <;> exact ⟨_, _, rfl⟩

theorem moveTrackpad_tells [TouchMath] (deltaX deltaY : ℚ) (s : LiveElement × Int × Int) (i : Nat) :
    (moveTrackpad deltaX deltaY s i).1 = s.1 ∨
      ∃ state offset, (moveTrackpad deltaX deltaY s i).1 = s.1.tellState i state offset := by
  obtain ⟨e, cursorDx, cursorDy⟩ := s
  unfold moveTrackpad
  dsimp only
  split_ifs
  · exact .inr ⟨_, _, rfl⟩
  all_goals
    split
    · exact .inl rfl
    · exact .inl rfl
    · exact .inl rfl
    · exact .inl rfl
    · exact .inr ⟨_, _, rfl⟩

theorem samePad_call (c : ElementCall) : SamePad e (e.call c) := ⟨⟨_, rfl, rfl⟩, rfl, rfl⟩

theorem movePad_covered [TouchMath] (point : Point) (h : Covered e)
    (hwide : 4 ≤ e.element.states.length) :
    SamePad e (e.movePad point) ∧ Covered (e.movePad point) := by
  have his : ∀ i ∈ List.range 4, i < e.element.states.length := by
    intro i hi
    exact (List.mem_range.mp hi).trans_le hwide
  unfold movePad
  split
  · have htells := foldl_tells Prod.fst
      (moveTrackpad_tells (computeDeltaPoint (e.currentPosition.getD ⟨0, 0⟩) point).1
        (computeDeltaPoint (e.currentPosition.getD ⟨0, 0⟩) point).2) (List.range 4)
      ({ e with currentPosition := some point }, 0, 0) h his
    have hpos : SamePad e { e with currentPosition := some point } := ⟨⟨_, rfl, rfl⟩, rfl, rfl⟩
    dsimp only
    -- Only what is known of the loop counts, not what it computes.
    revert htells
    generalize (List.range 4).foldl (moveTrackpad (computeDeltaPoint (e.currentPosition.getD ⟨0, 0⟩) point).1
      (computeDeltaPoint (e.currentPosition.getD ⟨0, 0⟩) point).2)
      ({ e with currentPosition := some point }, 0, 0) = moved
    intro htells
    split_ifs
    · refine ⟨(hpos.trans htells.1).trans (samePad_call _), fun b hb => ?_⟩
      rw [pressed_call] at hb
      exact htells.2 b hb
    · exact ⟨hpos.trans htells.1, htells.2⟩
  · exact foldl_tells id (fun e i => .inr (moveStick_tells _ _ e i)) (List.range 4) e h his
  · exact foldl_tells id (fun e i => .inr (moveDPad_tells _ _ e i)) (List.range 4) e h his

theorem releaseState_states (i : Nat) :
    (e.releaseState i).element.states = e.element.states.set i false := by
  unfold releaseState
  split_ifs <;> rfl

theorem samePad_foldl_releaseState (is : List Nat) : SamePad e (is.foldl releaseState e) := by
  induction is generalizing e with
  | nil => exact .refl _
  | cons i is ih =>
    have hstep : SamePad e (e.releaseState i) := by
      unfold releaseState
      split_ifs
      · exact samePad_tellState i false 0
      · exact samePad_setState i false
    exact hstep.trans ih

theorem covered_releaseState {i : Nat} (h : Covered e) (hi : i < e.element.states.length) :
    Covered (e.releaseState i) := by
  unfold releaseState
  split_ifs with hstate
  · exact covered_tellState h hi
  · exact covered_setState h (by simpa using hstate)

theorem covered_foldl_releaseState (is : List Nat) (h : Covered e)
    (his : ∀ i ∈ is, i < e.element.states.length) : Covered (is.foldl releaseState e) := by
  induction is generalizing e with
  | nil => exact h
  | cons i is ih =>
    apply ih (covered_releaseState h (his i (by simp)))
    intro j hj
    rw [releaseState_states, List.length_set]
    exact his j (by simp [hj])

theorem foldl_releaseState_states (is : List Nat) (j : Nat)
    (h : j ∈ is ∨ e.element.states.getD j false = false) :
    (is.foldl releaseState e).element.states.getD j false = false := by
  induction is generalizing e with
  | nil => simpa using h
  | cons i is ih =>
    apply ih
    rw [releaseState_states]
    by_cases hij : i = j
    · right
      by_cases hlen : i < e.element.states.length <;> simp [hij] at hlen ⊢ <;> simp [hlen]
    · simpa [Ne.symm hij, List.getElem?_set_ne hij] using h

/-- After the loop of `handleTouchUp` no state is set. -/
theorem releaseStates_idle (i : Nat) :
    ((List.range e.element.states.length).foldl releaseState e).element.states.getD i false =
      false := by
  apply foldl_releaseState_states
  by_cases hi : i < e.element.states.length
  · exact .inl (List.mem_range.mpr hi)
  · right
    simp [not_lt.mp hi]

/-! ## Buttons -/

/-- A loop that only calls leaves the rest of the element as it is. -/
theorem foldl_onlyLog {f : LiveElement → Nat → LiveElement}
    (hf : ∀ e i, ∃ log, f e i = { e with log := log }) (is : List Nat) :
    ∃ log, is.foldl f e = { e with log := log } := by
  induction is generalizing e with
  | nil => exact ⟨e.log, rfl⟩
  | cons i is ih =>
    obtain ⟨log, hlog⟩ := hf e i
    obtain ⟨log', hlog'⟩ := @ih (f e i)
    refine ⟨log', ?_⟩
    rw [List.foldl_cons, hlog', hlog]

theorem pressAll_onlyLog (e : LiveElement) (i : Nat) :
    ∃ log, e.pressAll i = { e with log := log } := by
  unfold pressAll
  split_ifs
  · exact ⟨_, rfl⟩
  · exact ⟨e.log, rfl⟩

theorem releaseAll_onlyLog (e : LiveElement) (i : Nat) :
    ∃ log, e.releaseAll i = { e with log := log } := by
  unfold releaseAll
  split_ifs
  · exact ⟨_, rfl⟩
  · exact ⟨e.log, rfl⟩

theorem pressed_pressAll {i : Nat} {b : Binding} (h : (e.pressAll i).pressed b = true) :
    e.pressed b = true ∨ (b ≠ .none ∧ e.element.getBindingAt i = b) := by
  unfold pressAll at h
  split_ifs at h with hnone
  · rw [pressed_handleInputEvent] at h
    by_cases hb : b = e.element.getBindingAt i
    · exact .inr ⟨hb ▸ hnone, hb.symm⟩
    · rw [Function.update_of_ne hb] at h
      exact .inl h
  · exact .inl h

theorem pressed_releaseAll {i : Nat} {b : Binding} (h : (e.releaseAll i).pressed b = true) :
    e.pressed b = true ∧ (b ≠ .none → e.element.getBindingAt i ≠ b) := by
  unfold releaseAll at h
  split_ifs at h with hnone
  · rw [pressed_handleInputEvent] at h
    by_cases hb : b = e.element.getBindingAt i
    · rw [hb, Function.update_self] at h
      cases h
    · rw [Function.update_of_ne hb] at h
      exact ⟨h, fun _ heq => hb heq.symm⟩
  · refine ⟨h, fun hb heq => hb ?_⟩
    rw [← heq]
    simpa using hnone

theorem pressed_foldl_pressAll (is : List Nat) {b : Binding}
    (h : (is.foldl pressAll e).pressed b = true) :
    e.pressed b = true ∨ (b ≠ .none ∧ ∃ i ∈ is, e.element.getBindingAt i = b) := by
  induction is generalizing e with
  | nil => exact .inl h
  | cons i is ih =>
    obtain ⟨log, hlog⟩ := pressAll_onlyLog e i
    rcases ih h with hpressed | ⟨hb, j, hj, hjb⟩
    · rcases pressed_pressAll hpressed with hold | ⟨hb, hib⟩
      · exact .inl hold
      · exact .inr ⟨hb, i, by simp, hib⟩
    · rw [hlog] at hjb
      exact .inr ⟨hb, j, by simp [hj], hjb⟩

theorem pressed_foldl_releaseAll (is : List Nat) {b : Binding}
    (h : (is.foldl releaseAll e).pressed b = true) :
    e.pressed b = true ∧ (b ≠ .none → ∀ i ∈ is, e.element.getBindingAt i ≠ b) := by
  induction is generalizing e with
  | nil => exact ⟨h, by simp⟩
  | cons i is ih =>
    obtain ⟨log, hlog⟩ := releaseAll_onlyLog e i
    obtain ⟨hpressed, hrest⟩ := ih h
    obtain ⟨hold, hib⟩ := pressed_releaseAll hpressed
    refine ⟨hold, fun hb j hj => ?_⟩
    rcases List.mem_cons.mp hj with rfl | hj
    · exact hib hb
    · have := hrest hb j hj
      rwa [hlog] at this

section
variable {time : Int} {release : LiveElement → LiveElement}

theorem release_element (hrelease : ∀ e, ∃ log, release e = { e with log := log })
    (e : LiveElement) : (release e).element = e.element := by
  obtain ⟨log, hlog⟩ := hrelease e
  rw [hlog]

theorem buttonUp_element (hrelease : ∀ e, ∃ log, release e = { e with log := log }) :
    (e.buttonUp time release).element = e.element := by
  have helement := release_element hrelease
  unfold buttonUp
  split <;> dsimp only <;> split_ifs <;> simp [helement]

/-- A button that goes up and is no toggle switch is kept pressed or released. -/
theorem buttonUp_cases (hrelease : ∀ e, ∃ log, release e = { e with log := log })
    (htoggle : e.element.toggleSwitch = false) :
    (e.isKeepButtonPressedAfterMinTime = true ∧ (e.buttonUp time release).selected = true ∧
        (e.buttonUp time release).log = e.log) ∨
      ∃ selected, (e.buttonUp time release).log = (release { e with selected := selected }).log := by
  have helement := release_element hrelease
  unfold buttonUp
  split
  · next touchTime _ =>
    by_cases hkeep : e.isKeepButtonPressedAfterMinTime = true
    · by_cases hlong : 300 < time - touchTime
      · simp [hkeep, hlong, htoggle]
      · simp only [hkeep, hlong, decide_false, if_true, helement, htoggle, Bool.false_eq_true,
          if_false]
        exact .inr ⟨false, rfl⟩
    · simp only [hkeep, Bool.not_false, Bool.true_or, if_true, if_false, helement, htoggle,
        Bool.false_eq_true]
      exact .inr ⟨e.selected, rfl⟩
  · simp only [Bool.not_false, Bool.true_or, if_true, helement, htoggle, Bool.false_eq_true,
      if_false]
    exact .inr ⟨e.selected, rfl⟩

end

/-! ## The three handlers -/

theorem accounts_pad (h : e.isPad = true) (b : Binding) : e.Accounts b ↔ e.ByState b := by
  unfold isPad at h
  unfold Accounts
  split at h <;> simp_all

theorem Tidy.covered (h : e.Tidy) (hpad : e.isPad = true) : Covered e := by
  intro b hb
  exact (accounts_pad hpad b).mp (h.accounts b hb)

theorem SamePad.isPad {e' : LiveElement} (h : SamePad e e') : e'.isPad = e.isPad := by
  obtain ⟨states, _, helem⟩ := h.element
  simp only [LiveElement.isPad, helem]

theorem SamePad.length {e' : LiveElement} (h : SamePad e e') :
    e'.element.states.length = e.element.states.length := by
  obtain ⟨states, hlen, helem⟩ := h.element
  rw [helem]
  exact hlen

/-- A pad is tidy when its states tell what is pressed. -/
theorem tidy_of_covered (hpad : e.isPad = true) (hwide : 4 ≤ e.element.states.length)
    (hcov : Covered e)
    (hidle : e.currentPointerId = -1 → ∀ i, e.element.states.getD i false = false) : e.Tidy where
  wide _ := hwide
  accounts b hb := (accounts_pad hpad b).mpr (hcov b hb)
  idle _ := hidle

/-- Nothing is asked of range buttons and cheat codes. -/
theorem tidy_of_type (h : e.element.type = .rangeButton ∨ e.element.type = .cheatCodeText) :
    e.Tidy := by
  have hpad : e.isPad = false := by rcases h with h | h <;> simp [LiveElement.isPad, h]
  have haccounts : ∀ b, e.Accounts b := by
    intro b
    rcases h with h | h <;> simp [Accounts, h]
  exact ⟨fun h => by simp [hpad] at h, fun b _ => haccounts b, fun h => by simp [hpad] at h⟩

theorem Tidy.movePad [TouchMath] {point : Point} (h : e.Tidy) (hpad : e.isPad = true)
    (hcaptured : e.currentPointerId ≠ -1) : (e.movePad point).Tidy := by
  obtain ⟨hsame, hcov⟩ := movePad_covered point (h.covered hpad) (h.wide hpad)
  apply tidy_of_covered _ _ hcov
  · intro hfree
    exact absurd (hsame.currentPointerId ▸ hfree) hcaptured
  · rw [hsame.isPad, hpad]
  · rw [hsame.length]
    exact h.wide hpad

theorem Tidy.handleTouchMove [TouchMath] {pointerId : Int} {point : Point} (h : e.Tidy)
    (hpointer : pointerId ≠ -1) : (e.handleTouchMove pointerId point).1.Tidy := by
  unfold LiveElement.handleTouchMove
  split_ifs with hother
  · exact h
  · have hcaptured : e.currentPointerId ≠ -1 := not_not.mp hother ▸ hpointer
    have h' : ({ e with followed := e.followed ++ [point] } : LiveElement).Tidy :=
      ⟨h.wide, h.accounts, h.idle⟩
    dsimp only
    split_ifs with hpad hrange
    · exact h'.movePad hpad hcaptured
    · exact tidy_of_type (.inl hrange)
    · exact h'

theorem accounts_button (h : e.isButton = true) (b : Binding) :
    e.Accounts b ↔
      (e.element.toggleSwitch = true ∨ ((e.currentPointerId ≠ -1 ∨ e.Kept) ∧ e.ByButton b)) := by
  unfold isButton at h
  unfold Accounts
  split at h <;> simp_all

theorem isPad_eq_false (h : e.isButton = true) : e.isPad = false := by
  unfold isButton at h
  unfold isPad
  split at h <;> simp_all

/-- A button is tidy when it can say why its bindings are pressed. -/
theorem tidy_of_button (h : e.isButton = true)
    (haccounts : ∀ b, e.pressed b = true →
      e.element.toggleSwitch = true ∨ ((e.currentPointerId ≠ -1 ∨ e.Kept) ∧ e.ByButton b)) :
    e.Tidy where
  wide hpad := by simp [isPad_eq_false h] at hpad
  accounts b hb := (accounts_button h b).mpr (haccounts b hb)
  idle hpad := by simp [isPad_eq_false h] at hpad

theorem accounts_capture {pointerId : Int} {b : Binding} (h : e.Accounts b)
    (hpointer : pointerId ≠ -1) : { e with currentPointerId := pointerId }.Accounts b := by
  cases htype : e.element.type <;> simp only [Accounts, htype] at h ⊢
  case button => exact h.imp_right fun h => ⟨.inl hpointer, h.2⟩
  case combineButton => exact h.imp_right fun h => ⟨.inl hpointer, h.2⟩
  all_goals exact h

theorem Tidy.capture {pointerId : Int} (h : e.Tidy) (hpointer : pointerId ≠ -1) :
    { e with currentPointerId := pointerId }.Tidy where
  wide := h.wide
  accounts b hb := accounts_capture (h.accounts b hb) hpointer
  idle _ hfree := absurd hfree hpointer

theorem Tidy.noteTime {time : Int} (h : e.Tidy) : (e.noteTime time).Tidy := by
  unfold LiveElement.noteTime
  split_ifs
  · exact ⟨h.wide, h.accounts, h.idle⟩
  · exact h

theorem noteTime_fields (time : Int) :
    (e.noteTime time).element = e.element ∧
      (e.noteTime time).currentPointerId = e.currentPointerId := by
  unfold noteTime
  split_ifs <;> exact ⟨rfl, rfl⟩

/-- A button that is captured may press its bindings. -/
theorem Tidy.press {log : List ElementCall} (h : e.Tidy) (hbutton : e.isButton = true)
    (hcaptured : e.currentPointerId ≠ -1)
    (hpressed : ∀ b, Run.after hold (fun _ => false) log b = true →
      e.pressed b = true ∨ e.ByButton b) : { e with log := log }.Tidy := by
  refine tidy_of_button (e := { e with log := log }) hbutton ?_
  intro b hb
  rcases hpressed b hb with hold | hown
  · exact (accounts_button hbutton b).mp (h.accounts b hold)
  · exact .inr ⟨.inl hcaptured, hown⟩

theorem Tidy.pressAll (h : e.Tidy) (htype : e.element.type = .combineButton)
    (hcaptured : e.currentPointerId ≠ -1) :
    ((List.range e.element.states.length).foldl LiveElement.pressAll e).Tidy := by
  have hpressed := @pressed_foldl_pressAll e (List.range e.element.states.length)
  obtain ⟨log, hlog⟩ := foldl_onlyLog (e := e) pressAll_onlyLog (List.range e.element.states.length)
  rw [hlog] at hpressed ⊢
  apply h.press (by simp [isButton, htype]) hcaptured
  intro b hb
  rcases hpressed hb with hold | ⟨hnone, i, hi, hib⟩
  · exact .inl hold
  · right
    simp only [ByButton, htype]
    exact ⟨hnone, i, List.mem_range.mp hi, hib⟩

theorem Tidy.pressButton (h : e.Tidy) (htype : e.element.type = .button)
    (hcaptured : e.currentPointerId ≠ -1) :
    (e.handleInputEvent (e.element.getBindingAt 0) true 0).Tidy := by
  apply h.press (by simp [isButton, htype]) hcaptured
  intro b hb
  by_cases hbind : b = e.element.getBindingAt 0
  · right
    simp only [ByButton, htype]
    exact hbind.symm
  · left
    have hupdate := pressed_handleInputEvent (e := e) (e.element.getBindingAt 0) true 0
    have := congrFun hupdate b
    rw [Function.update_of_ne hbind] at this
    rw [← this]
    exact hb

theorem Tidy.handleTouchDown [TouchMath] {pointerId time : Int} {point : Point} (h : e.Tidy)
    (hpointer : pointerId ≠ -1) : (e.handleTouchDown pointerId point time).1.Tidy := by
  unfold LiveElement.handleTouchDown
  split_ifs with hcapture
  · have h' := h.capture hpointer
    dsimp only
    split
    · next htype =>
      apply tidy_of_type (.inr _)
      split_ifs <;> exact htype
    · next htype =>
      have hnote := noteTime_fields (e := { e with currentPointerId := pointerId }) time
      dsimp only
      split_ifs
      · exact (h'.noteTime).pressAll (by rw [hnote.1]; exact htype) (by rw [hnote.2]; exact hpointer)
      · exact h'.noteTime
    · next htype =>
      have hnote := noteTime_fields (e := { e with currentPointerId := pointerId }) time
      dsimp only
      split_ifs
      · exact (h'.noteTime).pressButton (by rw [hnote.1]; exact htype)
          (by rw [hnote.2]; exact hpointer)
      · exact h'.noteTime
    · next htype => exact tidy_of_type (.inl htype)
    · have h'' : ({ e with currentPointerId := pointerId, currentPosition := some point } :
          LiveElement).Tidy := ⟨h'.wide, h'.accounts, h'.idle⟩
      exact h''.handleTouchMove hpointer
    · exact h'.handleTouchMove hpointer
  · exact h

/-- A button that goes up is kept pressed, or releases what it has pressed. -/
theorem Tidy.buttonUp {time : Int} {release : LiveElement → LiveElement} (h : e.Tidy)
    (hbutton : e.isButton = true) (hrelease : ∀ e, ∃ log, release e = { e with log := log })
    (hclears : ∀ selected b, (release { e with selected := selected }).pressed b = true →
      e.pressed b = true ∧ ¬e.ByButton b) :
    { e.buttonUp time release with currentPointerId := -1 }.Tidy := by
  have helement := @buttonUp_element e time _ hrelease
  refine tidy_of_button (e := { e.buttonUp time release with currentPointerId := -1 }) ?_ ?_
  · simpa only [isButton, helement] using hbutton
  intro b hb
  by_cases htoggle : e.element.toggleSwitch = true
  · left
    show (e.buttonUp time release).element.toggleSwitch = true
    rw [helement, htoggle]
  have hown : e.pressed b = true → e.ByButton b := by
    intro hpressed
    have := (accounts_button hbutton b).mp (h.accounts b hpressed)
    exact (this.resolve_left htoggle).2
  rcases @buttonUp_cases _ time _ hrelease (by simpa using htoggle) with
    ⟨hkeep, hselected, hlog⟩ | ⟨selected, hlog⟩
  · right
    have hpressed : e.pressed b = true := by
      rw [pressed, ← hlog]
      exact hb
    constructor
    · right
      constructor
      · simpa only [isKeepButtonPressedAfterMinTime, helement] using hkeep
      · exact hselected
    · simpa only [ByButton, helement] using hown hpressed
  · have hpressed : (release { e with selected := selected }).pressed b = true := by
      rw [pressed, ← hlog]
      exact hb
    obtain ⟨hbefore, hnot⟩ := hclears selected b hpressed
    exact absurd (hown hbefore) hnot

theorem releaseAll_clears (htype : e.element.type = .combineButton) (selected : Bool) (b : Binding)
    (hb : ((List.range e.element.states.length).reverse.foldl releaseAll
      { e with selected := selected }).pressed b = true) : e.pressed b = true ∧ ¬e.ByButton b := by
  obtain ⟨hpressed, hnot⟩ := pressed_foldl_releaseAll _ hb
  refine ⟨hpressed, fun hown => ?_⟩
  simp only [ByButton, htype] at hown
  obtain ⟨hnone, i, hi, hib⟩ := hown
  exact hnot hnone i (by simpa using hi) hib

theorem releaseButton_clears (htype : e.element.type = .button) (selected : Bool) (b : Binding)
    (hb : (handleInputEvent { e with selected := selected } (e.element.getBindingAt 0) false
      0).pressed b = true) : e.pressed b = true ∧ ¬e.ByButton b := by
  rw [pressed_handleInputEvent] at hb
  by_cases hbind : b = e.element.getBindingAt 0
  · rw [hbind, Function.update_self] at hb
    cases hb
  · rw [Function.update_of_ne hbind] at hb
    refine ⟨hb, fun hown => hbind ?_⟩
    simp only [ByButton, htype] at hown
    exact hown.symm

/-- A pad that goes up has no state set, so nothing is pressed. -/
theorem Tidy.padUp (h : e.Tidy) (hpad : e.isPad = true) :
    { (List.range e.element.states.length).foldl releaseState e with
      currentPosition := none, currentPointerId := -1 }.Tidy := by
  have hsame := samePad_foldl_releaseState (e := e) (List.range e.element.states.length)
  apply tidy_of_covered
  · exact hsame.isPad.trans hpad
  · show 4 ≤ ((List.range e.element.states.length).foldl releaseState e).element.states.length
    rw [hsame.length]
    exact h.wide hpad
  · exact covered_foldl_releaseState _ (h.covered hpad) (fun i hi => List.mem_range.mp hi)
  · intro _
    exact releaseStates_idle

theorem Tidy.goUp {time : Int} (h : e.Tidy) : { e.goUp time with currentPointerId := -1 }.Tidy := by
  unfold LiveElement.goUp
  cases htype : e.element.type <;> dsimp only
  case cheatCodeText => exact tidy_of_type (.inr htype)
  case combineButton =>
    apply h.buttonUp (by simp [isButton, htype])
    · intro e
      exact foldl_onlyLog releaseAll_onlyLog _
    · exact releaseAll_clears htype
  case button =>
    apply h.buttonUp (by simp [isButton, htype])
    · intro e
      exact ⟨_, rfl⟩
    · exact releaseButton_clears htype
  case rangeButton =>
    obtain ⟨states, _, helem⟩ :=
      (samePad_foldl_releaseState (e := e) (List.range e.element.states.length)).element
    apply tidy_of_type (.inl _)
    show ((List.range e.element.states.length).foldl releaseState e).element.type = _
    rw [helem]
    exact htype
  all_goals exact h.padUp (by simp [isPad, htype])

theorem Tidy.handleTouchUp {pointerId time : Int} (h : e.Tidy) :
    (e.handleTouchUp pointerId time).1.Tidy := by
  unfold LiveElement.handleTouchUp
  split_ifs
  · exact h.goUp
  · exact h

/-! ## Pointers -/

theorem handleTouchMove_of_ne [TouchMath] {pointerId : Int} {point : Point}
    (h : pointerId ≠ e.currentPointerId) : (e.handleTouchMove pointerId point).1 = e := by
  simp [handleTouchMove, h]

/-- A move of its own pointer is followed. -/
theorem Tidy.move_fields [TouchMath] {pointerId : Int} {point : Point} (h : e.Tidy)
    (hown : pointerId = e.currentPointerId) :
    (e.handleTouchMove pointerId point).1.currentPointerId = e.currentPointerId ∧
      (e.handleTouchMove pointerId point).1.followed = e.followed ++ [point] := by
  unfold LiveElement.handleTouchMove
  rw [if_neg (not_not.mpr hown)]
  dsimp only
  split_ifs with hpad
  · have h' : ({ e with followed := e.followed ++ [point] } : LiveElement).Tidy :=
      ⟨h.wide, h.accounts, h.idle⟩
    obtain ⟨hsame, _⟩ := movePad_covered point (h'.covered hpad) (h'.wide hpad)
    exact ⟨hsame.currentPointerId, hsame.followed⟩
  · exact ⟨rfl, rfl⟩
  · exact ⟨rfl, rfl⟩

theorem Tidy.move_pointer [TouchMath] {pointerId : Int} {point : Point} (h : e.Tidy) :
    (e.handleTouchMove pointerId point).1.currentPointerId = e.currentPointerId := by
  by_cases hown : pointerId = e.currentPointerId
  · exact (h.move_fields hown).1
  · rw [handleTouchMove_of_ne hown]

/-- An element is captured by the pointer that comes down, or stays as it is. -/
theorem Tidy.down_pointer [TouchMath] {pointerId time : Int} {point : Point} (h : e.Tidy)
    (hpointer : pointerId ≠ -1) :
    (e.handleTouchDown pointerId point time).1.currentPointerId = pointerId ∨
      (e.handleTouchDown pointerId point time).1.currentPointerId = e.currentPointerId := by
  unfold LiveElement.handleTouchDown
  split_ifs with hcapture
  · left
    have h' := h.capture hpointer
    have hnote := noteTime_fields (e := { e with currentPointerId := pointerId }) time
    dsimp only
    split
    · split_ifs <;> rfl
    · dsimp only
      split_ifs
      · obtain ⟨log, hlog⟩ := foldl_onlyLog
          (e := LiveElement.noteTime { e with currentPointerId := pointerId } time)
          pressAll_onlyLog (List.range (LiveElement.noteTime
            { e with currentPointerId := pointerId } time).element.states.length)
        rw [hlog]
        exact hnote.2
      · exact hnote.2
    · dsimp only
      split_ifs <;> exact hnote.2
    · rfl
    · have h'' : ({ e with currentPointerId := pointerId, currentPosition := some point } :
          LiveElement).Tidy := ⟨h'.wide, h'.accounts, h'.idle⟩
      exact h''.move_pointer
    · exact h'.move_pointer
  · exact .inr rfl

theorem handleTouchUp_of_ne {pointerId time : Int} (h : pointerId ≠ e.currentPointerId) :
    (e.handleTouchUp pointerId time).1 = e := by
  simp [handleTouchUp, h]

theorem handleTouchUp_own {pointerId time : Int} (h : pointerId = e.currentPointerId) :
    (e.handleTouchUp pointerId time).1.currentPointerId = -1 := by
  simp [handleTouchUp, h]

/-- What a tidy element may hold when no pointer is on it. -/
theorem Tidy.free (h : e.Tidy) (hfree : e.currentPointerId = -1) {b : Binding}
    (hb : e.pressed b = true) :
    e.isPad = false ∧ (e.isButton = true → e.element.toggleSwitch = false → e.Kept) := by
  have haccounts := h.accounts b hb
  constructor
  · by_contra hpad
    have hpad' : e.isPad = true := by simpa using hpad
    obtain ⟨i, hi, _⟩ := (accounts_pad hpad' b).mp haccounts
    rw [h.idle hpad' hfree i] at hi
    cases hi
  · intro hbutton htoggle
    rcases (accounts_button hbutton b).mp haccounts with htrue | ⟨hcaptured | hkept, _⟩
    · rw [htoggle] at htrue
      cases htrue
    · exact absurd hfree hcaptured
    · exact hkept

end XoDos.LiveElement
