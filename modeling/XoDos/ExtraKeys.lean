import XoDos.Java
import XoDos.Run

/-!
# `ExtraKeysView`

The buttons of the extra keys.  A button is clicked when it is touched, repeats its key or locks its
state while it is held, and shows a popup with another key on a swipe up.  The fields for this belong
to the view, and all its buttons use them.
-/

namespace XoDos.ExtraKeys

/-- A popup has no popup of its own. -/
structure ExtraKeyButton where
  key : JavaString
  popup : Option JavaString
deriving DecidableEq

structure SpecialButtonState where
  isCreated : Bool
  isActive : Bool
  isLocked : Bool
deriving DecidableEq

structure ExtraKeysView where
  mRepetitiveKeys : List JavaString
  /-- The special buttons, by their keys. -/
  mSpecialButtons : JavaString → Option SpecialButtonState
  mLongPressCount : Nat
  /-- The key on the popup. -/
  mPopupWindow : Option JavaString
  /-- The button whose key it repeats. -/
  mScheduledExecutor : Option ExtraKeyButton
  /-- The key of the special button that it is for. -/
  mSpecialButtonsLongHoldRunnable : Option JavaString
  /-- The handler has not run it yet. -/
  posted : Bool
  /-- The clicks so far: the calls of the client, and the special buttons that were toggled. -/
  clicks : List JavaString

namespace ExtraKeysView

variable (v : ExtraKeysView)

def isSpecialButton (key : JavaString) : Bool := (v.mSpecialButtons key).isSome

def setSpecialButton (key : JavaString) (state : SpecialButtonState) : ExtraKeysView :=
  { v with mSpecialButtons := Function.update v.mSpecialButtons key (some state) }

def onExtraKeyButtonClick (key : JavaString) : ExtraKeysView := { v with clicks := v.clicks ++ [key] }

/-- A lock goes with the activity. -/
def toggled (state : SpecialButtonState) : SpecialButtonState :=
  if state.isActive then { state with isActive := false, isLocked := false }
  else { state with isActive := true }

def onAnyExtraKeyButtonClick (key : JavaString) : ExtraKeysView :=
  match v.mSpecialButtons key with
  | some state =>
    if 0 < v.mLongPressCount then v
    else { v.setSpecialButton key (toggled state) with clicks := v.clicks ++ [key] }
  | none => v.onExtraKeyButtonClick key

def stopScheduledExecutors : ExtraKeysView :=
  { v with mScheduledExecutor := none, mSpecialButtonsLongHoldRunnable := none, posted := false }

def startScheduledExecutors (b : ExtraKeyButton) : ExtraKeysView :=
  let v := { v.stopScheduledExecutors with mLongPressCount := 0 }
  if b.key ∈ v.mRepetitiveKeys then { v with mScheduledExecutor := some b }
  else if v.isSpecialButton b.key then
    { v with mSpecialButtonsLongHoldRunnable := some b.key, posted := true }
  else v

/-- A round of the executor. -/
def repeatKey : ExtraKeysView :=
  match v.mScheduledExecutor with
  | some b => { v with mLongPressCount := v.mLongPressCount + 1 }.onExtraKeyButtonClick b.key
  | none => v

/-- `SpecialButtonsLongHoldRunnable.run`, which takes the activity of the button before as its lock. -/
def longHold : ExtraKeysView :=
  match v.posted, v.mSpecialButtonsLongHoldRunnable.bind v.mSpecialButtons,
      v.mSpecialButtonsLongHoldRunnable with
  | true, some state, some key =>
    { v.setSpecialButton key { state with isLocked := !state.isActive, isActive := !state.isActive } with
      mLongPressCount := v.mLongPressCount + 1
      posted := false }
  | _, _, _ => v

/-- A special button is created for a popup with its key. -/
def showPopup (popup : JavaString) : ExtraKeysView :=
  match v.mSpecialButtons popup with
  | some state => { v.setSpecialButton popup { state with isCreated := true } with
      mPopupWindow := some popup }
  | none => { v with mPopupWindow := some popup }

def dismissPopup : ExtraKeysView := { v with mPopupWindow := none }

def onMove (b : ExtraKeyButton) (y : Int) : ExtraKeysView :=
  match b.popup with
  | none => v
  | some popup =>
    let v := if v.mPopupWindow = none ∧ y < 0 then v.stopScheduledExecutors.showPopup popup else v
    if v.mPopupWindow ≠ none ∧ 0 < y then v.dismissPopup else v

def onUp (b : ExtraKeyButton) : ExtraKeysView :=
  let v := v.stopScheduledExecutors
  if v.mLongPressCount = 0 ∨ v.mPopupWindow ≠ none then
    if v.mPopupWindow ≠ none then
      match b.popup with
      | some popup => v.dismissPopup.onAnyExtraKeyButtonClick popup
      | none => v.dismissPopup
    else v.onAnyExtraKeyButtonClick b.key
  else v

def readSpecialButton (key : JavaString) (autoSetInActive : Bool) : ExtraKeysView × Option Bool :=
  match v.mSpecialButtons key with
  | none => (v, none)
  | some state =>
    if !state.isCreated || !state.isActive then (v, some false)
    else if autoSetInActive && !state.isLocked then
      (v.setSpecialButton key { state with isActive := false }, some true)
    else (v, some true)

/-- A special button that is locked is active. -/
def LockedActive : Prop :=
  ∀ key state, v.mSpecialButtons key = some state → state.isLocked = true → state.isActive = true

end ExtraKeysView

/-! ## Runs -/

inductive Input where
  | down (b : ExtraKeyButton)
  | move (y : Int)
  | cancel
  | up
  /-- Another touch event. -/
  | other
  | repeatKey
  | longHold
  | readSpecialButton (key : JavaString) (autoSetInActive : Bool)
deriving DecidableEq

structure State where
  view : ExtraKeysView
  /-- The button that is touched. -/
  touched : Option ExtraKeyButton
  /-- The key has been repeated or the lock toggled since the button was touched. -/
  acted : Bool

namespace State

variable (s : State)

/-- The special buttons are those with a value, which tells whether they are created. -/
def start (mRepetitiveKeys : List JavaString) (specialButtons : JavaString → Option Bool) : State where
  view := {
    mRepetitiveKeys := mRepetitiveKeys
    mSpecialButtons := fun key => (specialButtons key).map fun isCreated => ⟨isCreated, false, false⟩
    mLongPressCount := 0
    mPopupWindow := none
    mScheduledExecutor := none
    mSpecialButtonsLongHoldRunnable := none
    posted := false
    clicks := [] }
  touched := none
  acted := false

/-- One button is touched at a time: a touch event that does not fit does not come. -/
def step (s : State) : Input → State
  | .down b =>
    match s.touched with
    | none => ⟨s.view.startScheduledExecutors b, some b, false⟩
    | some _ => s
  | .move y =>
    match s.touched with
    | some b => { s with view := s.view.onMove b y }
    | none => s
  | .cancel =>
    match s.touched with
    | some _ => { s with view := s.view.stopScheduledExecutors, touched := none }
    | none => s
  | .up =>
    match s.touched with
    | some b => { s with view := s.view.onUp b, touched := none }
    | none => s
  | .other => s
  | .repeatKey =>
    { s with view := s.view.repeatKey, acted := s.acted || s.view.mScheduledExecutor.isSome }
  | .longHold => { s with view := s.view.longHold, acted := s.acted || s.view.posted }
  | .readSpecialButton key autoSetInActive =>
    { s with view := (s.view.readSpecialButton key autoSetInActive).1 }

/-- The clicks that an up of the button is to make. -/
def expected (b : ExtraKeyButton) : List JavaString :=
  if s.view.mPopupWindow = b.popup ∧ b.popup.isSome then b.popup.toList
  else if s.acted then [] else [b.key]

/-- What holds after an input. -/
structure Works (s : State) (input : Input) : Prop where
  locked : (s.step input).view.LockedActive
  up : input = .up → ∀ b, s.touched = some b →
    (s.step input).view.clicks = s.view.clicks ++ s.expected b
  ended : input = .up ∨ input = .cancel → s.touched ≠ none →
    (s.step input).view.mPopupWindow = none

/-- No touch is cancelled while its popup is showing, and no popup with a special button is released
after a long press. -/
structure Plain (s : State) (input : Input) : Prop where
  cancel : input = .cancel → s.touched ≠ none → s.view.mPopupWindow = none
  up : input = .up → ∀ popup, s.view.mPopupWindow = some popup →
    s.view.isSpecialButton popup = true → s.view.mLongPressCount = 0

/-! ## The invariant -/

structure Inv (s : State) : Prop where
  locked : s.view.LockedActive
  idle : s.touched = none → s.view.mPopupWindow = none ∧ s.view.mScheduledExecutor = none ∧
    s.view.posted = false
  popup : ∀ b popup, s.touched = some b → s.view.mPopupWindow = some popup → b.popup = some popup
  acted : s.touched ≠ none → (s.acted = true ↔ 0 < s.view.mLongPressCount)
  runnable : s.view.posted = true → ∃ key, s.view.mSpecialButtonsLongHoldRunnable = some key ∧
    s.view.isSpecialButton key = true

end State

/-! ## Locks -/

namespace ExtraKeysView

variable {v : ExtraKeysView} {key : JavaString} {state : SpecialButtonState}

theorem LockedActive.set (h : v.LockedActive) (hstate : state.isLocked = true → state.isActive = true) :
    (v.setSpecialButton key state).LockedActive := by
  intro key' state' hkey
  rw [setSpecialButton] at hkey
  by_cases heq : key' = key
  · rw [heq] at hkey
    simp only [Function.update_self, Option.some.injEq] at hkey
    rw [← hkey]
    exact hstate
  · simp only [Function.update_of_ne heq] at hkey
    exact h key' state' hkey

theorem toggled_locked (state : SpecialButtonState) :
    (toggled state).isLocked = true → (toggled state).isActive = true := by
  unfold toggled
  split_ifs with hactive
  · intro hno
    cases hno
  · exact fun _ => rfl

theorem LockedActive.onAnyExtraKeyButtonClick (h : v.LockedActive) (key : JavaString) :
    (v.onAnyExtraKeyButtonClick key).LockedActive := by
  unfold ExtraKeysView.onAnyExtraKeyButtonClick
  cases v.mSpecialButtons key with
  | none => exact h
  | some state =>
    simp only
    split_ifs
    · exact h
    · exact h.set (toggled_locked state)

theorem LockedActive.startScheduledExecutors (h : v.LockedActive) (b : ExtraKeyButton) :
    (v.startScheduledExecutors b).LockedActive := by
  unfold ExtraKeysView.startScheduledExecutors
  simp only
  split_ifs
  · exact h
  · exact h
  · exact h

theorem LockedActive.repeatKey (h : v.LockedActive) : v.repeatKey.LockedActive := by
  unfold ExtraKeysView.repeatKey
  cases v.mScheduledExecutor with
  | none => exact h
  | some b => exact h

theorem LockedActive.longHold (h : v.LockedActive) : v.longHold.LockedActive := by
  unfold ExtraKeysView.longHold
  split
  · exact h.set fun hlocked => hlocked
  · exact h

theorem LockedActive.showPopup (h : v.LockedActive) (popup : JavaString) :
    (v.showPopup popup).LockedActive := by
  unfold ExtraKeysView.showPopup
  cases hstate : v.mSpecialButtons popup with
  | none => exact h
  | some state => exact h.set (h popup state hstate)

theorem LockedActive.onMove (h : v.LockedActive) (b : ExtraKeyButton) (y : Int) :
    (v.onMove b y).LockedActive := by
  unfold ExtraKeysView.onMove
  cases b.popup with
  | none => exact h
  | some popup =>
    have hshow : (v.stopScheduledExecutors.showPopup popup).LockedActive :=
      LockedActive.showPopup (v := v.stopScheduledExecutors) h popup
    simp only
    split_ifs
    · exact hshow
    · exact hshow
    · exact h
    · exact h

theorem LockedActive.onUp (h : v.LockedActive) (b : ExtraKeyButton) : (v.onUp b).LockedActive := by
  unfold ExtraKeysView.onUp
  simp only
  split_ifs
  · cases b.popup with
    | none => exact h
    | some popup =>
      exact LockedActive.onAnyExtraKeyButtonClick (v := v.stopScheduledExecutors.dismissPopup) h popup
  · exact LockedActive.onAnyExtraKeyButtonClick (v := v.stopScheduledExecutors) h b.key
  · exact h

theorem LockedActive.readSpecialButton (h : v.LockedActive) (key : JavaString)
    (autoSetInActive : Bool) : (v.readSpecialButton key autoSetInActive).1.LockedActive := by
  unfold ExtraKeysView.readSpecialButton
  cases v.mSpecialButtons key with
  | none => exact h
  | some state =>
    simp only
    split_ifs with hactive hauto
    · exact h
    · apply h.set
      intro hlocked
      simp only [Bool.and_eq_true, Bool.not_eq_true'] at hauto
      rw [hauto.2] at hlocked
      cases hlocked
    · exact h

end ExtraKeysView

namespace State

variable {s : State} {input : Input}

theorem locked_step (h : s.view.LockedActive) (input : Input) : (s.step input).view.LockedActive := by
  cases input with
  | down b =>
    rw [step]
    cases s.touched with
    | none => exact h.startScheduledExecutors b
    | some b' => exact h
  | move y =>
    rw [step]
    cases s.touched with
    | none => exact h
    | some b => exact h.onMove b y
  | cancel =>
    rw [step]
    cases s.touched with
    | none => exact h
    | some b => exact h
  | up =>
    rw [step]
    cases s.touched with
    | none => exact h
    | some b => exact h.onUp b
  | other => exact h
  | repeatKey => exact h.repeatKey
  | longHold => exact h.longHold
  | readSpecialButton key autoSetInActive => exact h.readSpecialButton key autoSetInActive

/-! ## Ups and cancels -/

theorem onAnyExtraKeyButtonClick_clicks {v : ExtraKeysView} {key : JavaString}
    (h : v.isSpecialButton key = true → v.mLongPressCount = 0) :
    (v.onAnyExtraKeyButtonClick key).clicks = v.clicks ++ [key] := by
  unfold ExtraKeysView.onAnyExtraKeyButtonClick
  cases hstate : v.mSpecialButtons key with
  | none => rfl
  | some state =>
    have hcount := h (by simp [ExtraKeysView.isSpecialButton, hstate])
    simp only
    rw [if_neg (by omega)]

/-- A special button is not clicked after a long press. -/
theorem onAnyExtraKeyButtonClick_swallowed {v : ExtraKeysView} {key : JavaString}
    (hspecial : v.isSpecialButton key = true) (h : 0 < v.mLongPressCount) :
    (v.onAnyExtraKeyButtonClick key).clicks = v.clicks := by
  unfold ExtraKeysView.onAnyExtraKeyButtonClick
  obtain ⟨state, hstate⟩ := Option.isSome_iff_exists.mp hspecial
  rw [hstate]
  simp only
  rw [if_pos h]

theorem onAnyExtraKeyButtonClick_popup (v : ExtraKeysView) (key : JavaString) :
    (v.onAnyExtraKeyButtonClick key).mPopupWindow = v.mPopupWindow := by
  unfold ExtraKeysView.onAnyExtraKeyButtonClick
  cases v.mSpecialButtons key with
  | none => rfl
  | some state =>
    simp only
    split_ifs
    · rfl
    · rfl

theorem onUp_popup (v : ExtraKeysView) (b : ExtraKeyButton) : (v.onUp b).mPopupWindow = none := by
  unfold ExtraKeysView.onUp
  simp only
  split_ifs with hany hpopup
  · cases b.popup with
    | none => rfl
    | some popup => exact onAnyExtraKeyButtonClick_popup _ popup
  · rw [onAnyExtraKeyButtonClick_popup]
    exact not_not.mp hpopup
  · rw [not_or, not_not] at hany
    exact hany.2

/-- The clicks of an up are as expected exactly if no popup with a special button is released after a
long press. -/
theorem onUp_clicks (h : s.Inv) {b : ExtraKeyButton} (hb : s.touched = some b) :
    (s.view.onUp b).clicks = s.view.clicks ++ s.expected b ↔
      ∀ popup, s.view.mPopupWindow = some popup → s.view.isSpecialButton popup = true →
        s.view.mLongPressCount = 0 := by
  have hacted := h.acted (by rw [hb]; exact Option.some_ne_none b)
  unfold ExtraKeysView.onUp expected
  cases hpopup : s.view.mPopupWindow with
  | some popup =>
    have hbutton := h.popup b popup hb hpopup
    have hshown : s.view.stopScheduledExecutors.mPopupWindow ≠ none := by
      rw [ExtraKeysView.stopScheduledExecutors, hpopup]
      exact Option.some_ne_none popup
    rw [if_pos (.inr hshown), if_pos hshown, hbutton]
    simp only [Option.isSome_some, and_self, if_true, Option.toList_some]
    constructor
    · intro hclicks popup' hpopup' hspecial
      rw [Option.some.injEq] at hpopup'
      subst hpopup'
      -- A long press that has been counted swallows the click on a modifier in the popup.
      by_contra hcount
      rw [onAnyExtraKeyButtonClick_swallowed (v := s.view.stopScheduledExecutors.dismissPopup) hspecial
        (Nat.pos_of_ne_zero hcount)] at hclicks
      have hlength := congrArg List.length hclicks
      simp [ExtraKeysView.stopScheduledExecutors, ExtraKeysView.dismissPopup] at hlength
    · intro hplain
      exact onAnyExtraKeyButtonClick_clicks (v := s.view.stopScheduledExecutors.dismissPopup)
        (hplain popup rfl)
  | none =>
    have hnone : ¬s.view.stopScheduledExecutors.mPopupWindow ≠ none := by
      rw [ExtraKeysView.stopScheduledExecutors, hpopup]
      exact fun hno => hno rfl
    have hplain : ¬(none = b.popup ∧ b.popup.isSome = true) := by
      rintro ⟨h₁, h₂⟩
      rw [← h₁] at h₂
      cases h₂
    rw [if_neg hplain]
    refine iff_of_true ?_ (fun _ hno => absurd hno (by simp))
    by_cases hcount : s.view.mLongPressCount = 0
    · have hno : ¬s.acted = true := by
        rw [hacted]
        omega
      rw [if_pos (.inl hcount), if_neg hnone, if_neg hno]
      exact onAnyExtraKeyButtonClick_clicks (v := s.view.stopScheduledExecutors) (fun _ => hcount)
    · have hany : ¬(s.view.stopScheduledExecutors.mLongPressCount = 0 ∨
          s.view.stopScheduledExecutors.mPopupWindow ≠ none) := not_or.mpr ⟨hcount, hnone⟩
      rw [if_neg hany, if_pos (hacted.mpr (Nat.pos_of_ne_zero hcount))]
      exact (List.append_nil _).symm

/-- An input works exactly if it is plain. -/
theorem works_iff (h : s.Inv) : s.Works input ↔ s.Plain input := by
  constructor
  · intro hworks
    constructor
    · rintro rfl htouched
      have hended := hworks.ended (.inr rfl) htouched
      obtain ⟨b, hb⟩ := Option.ne_none_iff_exists'.mp htouched
      rw [step, hb] at hended
      exact hended
    · rintro rfl popup hpopup
      cases hb : s.touched with
      | none =>
        rw [(h.idle hb).1] at hpopup
        cases hpopup
      | some b =>
        have hclicks := hworks.up rfl b hb
        rw [step, hb] at hclicks
        exact (onUp_clicks h hb).mp hclicks popup hpopup
  · intro hplain
    refine ⟨locked_step h.locked input, ?_, ?_⟩
    · rintro rfl b hb
      rw [step, hb]
      exact (onUp_clicks h hb).mpr (hplain.up rfl)
    · intro hend htouched
      obtain ⟨b, hb⟩ := Option.ne_none_iff_exists'.mp htouched
      rcases hend with rfl | rfl
      · rw [step, hb]
        exact onUp_popup s.view b
      · rw [step, hb]
        exact hplain.cancel rfl htouched

/-! ## The invariant is kept -/

theorem isSpecialButton_set {v : ExtraKeysView} {key key' : JavaString} {state : SpecialButtonState}
    (h : v.isSpecialButton key' = true) : (v.setSpecialButton key state).isSpecialButton key' = true := by
  unfold ExtraKeysView.isSpecialButton ExtraKeysView.setSpecialButton at *
  by_cases heq : key' = key
  · simp [heq]
  · simp [Function.update_of_ne heq, h]

/-- What a move can do to the popup and to the runnable. -/
theorem onMove_fields (v : ExtraKeysView) (b : ExtraKeyButton) (y : Int) :
    ((v.onMove b y).mPopupWindow = v.mPopupWindow ∨ (v.onMove b y).mPopupWindow = none ∨
        (v.onMove b y).mPopupWindow = b.popup) ∧
      (v.onMove b y).mLongPressCount = v.mLongPressCount ∧
      ((v.onMove b y).posted = true → v.posted = true ∧
        (v.onMove b y).mSpecialButtonsLongHoldRunnable = v.mSpecialButtonsLongHoldRunnable ∧
        (v.onMove b y).mSpecialButtons = v.mSpecialButtons) := by
  unfold ExtraKeysView.onMove
  cases hb : b.popup with
  | none => exact ⟨.inl rfl, rfl, fun h => ⟨h, rfl, rfl⟩⟩
  | some popup =>
    have hshow : (v.stopScheduledExecutors.showPopup popup).mPopupWindow = some popup ∧
        (v.stopScheduledExecutors.showPopup popup).mLongPressCount = v.mLongPressCount ∧
        (v.stopScheduledExecutors.showPopup popup).posted = false := by
      unfold ExtraKeysView.showPopup
      cases v.stopScheduledExecutors.mSpecialButtons popup with
      | none => exact ⟨rfl, rfl, rfl⟩
      | some state => exact ⟨rfl, rfl, rfl⟩
    obtain ⟨h₁, h₂, h₃⟩ := hshow
    simp only
    by_cases hup : v.mPopupWindow = none ∧ y < 0
    · rw [if_pos hup, if_neg (by omega)]
      exact ⟨.inr (.inr h₁), h₂, fun h => absurd (h₃.symm.trans h) (by simp)⟩
    · rw [if_neg hup]
      split_ifs
      · exact ⟨.inr (.inl rfl), rfl, fun h => ⟨h, rfl, rfl⟩⟩
      · exact ⟨.inl rfl, rfl, fun h => ⟨h, rfl, rfl⟩⟩

theorem onUp_stopped (v : ExtraKeysView) (b : ExtraKeyButton) :
    (v.onUp b).mScheduledExecutor = none ∧ (v.onUp b).posted = false := by
  have hclick : ∀ (w : ExtraKeysView) (key : JavaString),
      (w.onAnyExtraKeyButtonClick key).mScheduledExecutor = w.mScheduledExecutor ∧
        (w.onAnyExtraKeyButtonClick key).posted = w.posted := by
    intro w key
    unfold ExtraKeysView.onAnyExtraKeyButtonClick
    cases w.mSpecialButtons key with
    | none => exact ⟨rfl, rfl⟩
    | some state =>
      simp only
      split_ifs
      · exact ⟨rfl, rfl⟩
      · exact ⟨rfl, rfl⟩
  unfold ExtraKeysView.onUp
  simp only
  split_ifs
  · cases b.popup with
    | none => exact ⟨rfl, rfl⟩
    | some popup => exact hclick v.stopScheduledExecutors.dismissPopup popup
  · exact hclick v.stopScheduledExecutors b.key
  · exact ⟨rfl, rfl⟩

theorem Inv.down (h : s.Inv) (b : ExtraKeyButton) : (s.step (.down b)).Inv := by
  have hlocked := locked_step h.locked (.down b)
  rw [step] at hlocked ⊢
  cases htouched : s.touched with
  | some b' => exact h
  | none =>
    rw [htouched] at hlocked
    obtain ⟨hpopup, -, -⟩ := h.idle htouched
    refine ⟨hlocked, fun hno => absurd hno (by simp), ?_, ?_, ?_⟩
    · intro b' popup _ hshown
      have hsame : (s.view.startScheduledExecutors b).mPopupWindow = s.view.mPopupWindow := by
        unfold ExtraKeysView.startScheduledExecutors
        simp only
        split_ifs
        · rfl
        · rfl
        · rfl
      change (s.view.startScheduledExecutors b).mPopupWindow = some popup at hshown
      rw [hsame, hpopup] at hshown
      cases hshown
    · intro _
      have hcount : (s.view.startScheduledExecutors b).mLongPressCount = 0 := by
        unfold ExtraKeysView.startScheduledExecutors
        simp only
        split_ifs
        · rfl
        · rfl
        · rfl
      simp [hcount]
    · unfold ExtraKeysView.startScheduledExecutors
      simp only
      split_ifs with hrepeat hspecial
      · intro hno
        cases hno
      · intro _
        exact ⟨b.key, rfl, hspecial⟩
      · intro hno
        cases hno

theorem Inv.move (h : s.Inv) (y : Int) : (s.step (.move y)).Inv := by
  have hlocked := locked_step h.locked (.move y)
  rw [step] at hlocked ⊢
  cases htouched : s.touched with
  | none => exact h
  | some b =>
    rw [htouched] at hlocked
    obtain ⟨hpopup, hcount, hposted⟩ := onMove_fields s.view b y
    refine ⟨hlocked, fun hno => absurd hno (by simp), ?_, ?_, ?_⟩
    · intro b' popup hb' hshown
      change some b = some b' at hb'
      change (s.view.onMove b y).mPopupWindow = some popup at hshown
      rcases hpopup with hsame | hnone | hnew
      · exact h.popup b' popup (htouched.trans hb') (hsame.symm.trans hshown)
      · rw [hnone] at hshown
        cases hshown
      · rw [Option.some.injEq] at hb'
        rw [← hb', ← hnew]
        exact hshown
    · intro _
      simp only [hcount]
      exact h.acted (by rw [htouched]; exact Option.some_ne_none b)
    · intro hpost
      obtain ⟨hold, hrunnable, hbuttons⟩ := hposted hpost
      obtain ⟨key, hkey, hspecial⟩ := h.runnable hold
      refine ⟨key, hrunnable.trans hkey, ?_⟩
      unfold ExtraKeysView.isSpecialButton at hspecial ⊢
      rw [hbuttons]
      exact hspecial

/-- After an up or a cancel the view waits for the next touch. -/
theorem Inv.ended (h : s.Inv) (hworks : s.Works input) (hend : input = .up ∨ input = .cancel) :
    (s.step input).Inv := by
  have hlocked := locked_step h.locked input
  cases htouched : s.touched with
  | none =>
    have hsame : s.step input = s := by
      rcases hend with rfl | rfl
      · rw [step, htouched]
      · rw [step, htouched]
    rw [hsame]
    exact h
  | some b =>
    have hpopup := hworks.ended hend (by rw [htouched]; exact Option.some_ne_none b)
    have hnone : (s.step input).touched = none := by
      rcases hend with rfl | rfl
      · rw [step, htouched]
      · rw [step, htouched]
    have hstopped : (s.step input).view.mScheduledExecutor = none ∧
        (s.step input).view.posted = false := by
      rcases hend with rfl | rfl
      · rw [step, htouched]
        exact onUp_stopped s.view b
      · rw [step, htouched]
        exact ⟨rfl, rfl⟩
    refine ⟨hlocked, fun _ => ⟨hpopup, hstopped⟩, ?_, fun hno => absurd hnone hno, ?_⟩
    · intro b' popup hno
      rw [hnone] at hno
      cases hno
    · intro hpost
      rw [hstopped.2] at hpost
      cases hpost

theorem Inv.repeatKey (h : s.Inv) : (s.step .repeatKey).Inv := by
  have hlocked := locked_step h.locked .repeatKey
  rw [step] at hlocked ⊢
  unfold ExtraKeysView.repeatKey at hlocked ⊢
  cases hexecutor : s.view.mScheduledExecutor with
  | none =>
    simp only [Option.isSome_none, Bool.or_false]
    exact h
  | some b =>
    simp only [hexecutor] at hlocked
    refine ⟨hlocked, fun hno => ?_, h.popup, fun _ => ?_, h.runnable⟩
    · rw [(h.idle hno).2.1] at hexecutor
      cases hexecutor
    · simp [ExtraKeysView.onExtraKeyButtonClick]

theorem Inv.longHold (h : s.Inv) : (s.step .longHold).Inv := by
  have hlocked := locked_step h.locked .longHold
  rw [step] at hlocked ⊢
  unfold ExtraKeysView.longHold at hlocked ⊢
  cases hposted : s.view.posted with
  | false =>
    simp only [Bool.or_false]
    exact h
  | true =>
    obtain ⟨key, hkey, hspecial⟩ := h.runnable hposted
    obtain ⟨state, hstate⟩ := Option.isSome_iff_exists.mp hspecial
    simp only [hposted, hkey, Option.bind_some, hstate] at hlocked ⊢
    refine ⟨hlocked, fun hno => ?_, h.popup, fun _ => ?_, fun hno => absurd hno (by simp)⟩
    · rw [(h.idle hno).2.2] at hposted
      cases hposted
    · simp

theorem Inv.readSpecialButton (h : s.Inv) (key : JavaString) (autoSetInActive : Bool) :
    (s.step (.readSpecialButton key autoSetInActive)).Inv := by
  have hlocked := locked_step h.locked (.readSpecialButton key autoSetInActive)
  rw [step] at hlocked ⊢
  unfold ExtraKeysView.readSpecialButton at hlocked ⊢
  cases hstate : s.view.mSpecialButtons key with
  | none => exact h
  | some state =>
    simp only [hstate] at hlocked ⊢
    split_ifs at hlocked ⊢
    · exact h
    · refine ⟨hlocked, h.idle, h.popup, h.acted, fun hpost => ?_⟩
      obtain ⟨key', hkey', hspecial⟩ := h.runnable hpost
      exact ⟨key', hkey', isSpecialButton_set hspecial⟩
    · exact h

theorem Inv.step (h : s.Inv) (hworks : s.Works input) : (s.step input).Inv := by
  cases input with
  | down b => exact h.down b
  | move y => exact h.move y
  | cancel => exact h.ended hworks (.inr rfl)
  | up => exact h.ended hworks (.inl rfl)
  | other => exact h
  | repeatKey => exact h.repeatKey
  | longHold => exact h.longHold
  | readSpecialButton key autoSetInActive => exact h.readSpecialButton key autoSetInActive

theorem Inv.start (mRepetitiveKeys : List JavaString) (specialButtons : JavaString → Option Bool) :
    (State.start mRepetitiveKeys specialButtons).Inv := by
  refine ⟨?_, fun _ => ⟨rfl, rfl, rfl⟩, fun b popup hno => ?_, fun hno => absurd rfl hno, fun hno => ?_⟩
  · intro key state hstate hlocked
    obtain ⟨isCreated, -, rfl⟩ := Option.map_eq_some_iff.mp hstate
    cases hlocked
  · cases hno
  · cases hno

/-- Every input of a run works exactly if every input is plain. -/
theorem along_clicks_iff (mRepetitiveKeys : List JavaString) (specialButtons : JavaString → Option Bool)
    (inputs : List Input) :
    Run.Along step Works (start mRepetitiveKeys specialButtons) inputs ↔
      Run.Along step Plain (start mRepetitiveKeys specialButtons) inputs :=
  Run.along_congr (fun _ _ h => works_iff h) (fun _ _ h hworks => h.step hworks)
    (Inv.start mRepetitiveKeys specialButtons)

/-! ## Failing inputs -/

/-- `-`, with `|` on its popup. -/
def minus : ExtraKeyButton := ⟨ascii "-", some (ascii "|")⟩

/-- `UP` repeats, with `CTRL` on its popup. -/
def upKey : ExtraKeyButton := ⟨ascii "UP", some (ascii "CTRL")⟩

/-- A touch is cancelled while its popup is showing: the popup stays, and the next button, without a
popup, is not clicked.  And the popup of a key that has been repeated is released: its special button
is not clicked. -/
theorem popup_left :
    ((Run.after step (start [] fun _ => none) [.down minus, .move (-1), .cancel]).view.mPopupWindow =
        some (ascii "|") ∧
      (Run.after step (start [] fun _ => none) [.down minus, .move (-1), .cancel,
        .down ⟨ascii "/", none⟩, .up]).view.clicks = []) ∧
    (Run.after step (start [ascii "UP"] fun key => if key = ascii "CTRL" then some true else none)
      [.down upKey, .repeatKey, .move (-1), .up]).view.clicks = [ascii "UP"] := by
  decide

end State

end XoDos.ExtraKeys
