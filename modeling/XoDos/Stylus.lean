import XoDos.LorieEvent

/-!
# Stylus events

`handleLorieEvents` turns a stylus event into pointer events of the device it is
addressed to: the mouse, the eraser or the pen.  Which buttons went up or down is
found by comparison with the buttons of the stylus event before, whatever device
that one was for.

Coordinates are of any type `F` into which the integers go.
-/

namespace XoDos

inductive PointerDevice where
  | lorieMouse
  | lorieEraser
  | loriePen
deriving DecidableEq, Repr

inductive ButtonType where
  | buttonPress
  | buttonRelease
deriving DecidableEq, Repr

/-- The flags of `QueuePointerEvents`. -/
inductive PointerFlag where
  | relative
  | absolute
  | noraw
  | desktop
deriving DecidableEq, Repr

/-- A call of `QueuePointerEvents`. -/
inductive PointerEvent (F : Type) where
  | motionNotify (device : PointerDevice) (flags : List PointerFlag) (valuators : List F)
  | button (device : PointerDevice) (type : ButtonType) (button : Nat) (flags : List PointerFlag)
deriving DecidableEq, Repr

namespace StylusEvent

variable {F : Type}

/-- The device that an event is addressed to. -/
def device (e : StylusEvent F) : PointerDevice :=
  if e.mouse ≠ 0 then .lorieMouse else if e.eraser ≠ 0 then .lorieEraser else .loriePen

/-- The loop over the buttons, from the `i`-th on. -/
def buttonLoop (device : PointerDevice) :
    Nat → Nat → BitVec 32 → BitVec 32 → List (PointerEvent F)
  | 0, _, _, _ => []
  | n + 1, i, released, pressed =>
    (if released &&& 0x1 ≠ 0 then [.button device .buttonRelease (i + 1) [.relative]] else []) ++
      (if pressed &&& 0x1 ≠ 0 then [.button device .buttonPress (i + 1) [.relative]] else []) ++
        buttonLoop device n (i + 1) (released >>> 1) (pressed >>> 1)

/-- What differs from the buttons of the event before. -/
def buttonEvents (device : PointerDevice) (buttons_prev buttons : BitVec 32) :
    List (PointerEvent F) :=
  let diff := buttons_prev ^^^ buttons
  let released := diff &&& ~~~buttons
  let pressed := diff &&& buttons
  buttonLoop device 3 0 released pressed

/-- The size of the screen, and the devices that exist. -/
structure Screen where
  width : Int
  height : Int
  present : PointerDevice → Bool

/-- `buttons_prev`, and what has been queued. -/
structure Input (F : Type) where
  buttons_prev : BitVec 32
  queue : List (PointerEvent F)

variable [Min F] [Max F] [IntCast F]

/-- `max(min(c, size), 0)`. -/
def clamp (c : F) (size : Int) : F := max (min c (size : F)) ((0 : Int) : F)

def motion (screen : Screen) (e : StylusEvent F) : PointerEvent F :=
  let position := [clamp e.x screen.width, clamp e.y screen.height]
  if e.device = .lorieMouse then
    .motionNotify e.device [.absolute, .desktop, .noraw] position
  else
    .motionNotify e.device [.absolute, .desktop]
      (position ++ [((e.pressure.toNat : Int) : F), (e.tilt_x.toInt : F), (e.tilt_y.toInt : F),
        (e.orientation.toInt : F)])

/-- The case `EVENT_STYLUS`. -/
def handle (screen : Screen) (s : Input F) (e : StylusEvent F) : Input F :=
  if screen.present e.device then
    { buttons_prev := e.buttons.setWidth 32
      queue := s.queue ++ motion screen e ::
        buttonEvents e.device s.buttons_prev (e.buttons.setWidth 32) }
  else s

/-- The state after the events. -/
def run (screen : Screen) (events : List (StylusEvent F)) : Input F :=
  events.foldl (handle screen) ⟨0, []⟩

end StylusEvent

/-- Which buttons of which devices are down. -/
def Held : Type := PointerDevice → Nat → Bool

namespace Held

variable {F : Type}

def none : Held := fun _ _ => false

def after (h : Held) : PointerEvent F → Held
  | .motionNotify .. => h
  | .button device type button _ => fun d b =>
    if d = device ∧ b = button then type == .buttonPress else h d b

/-- What is down after a queue of events. -/
def run (h : Held) (queue : List (PointerEvent F)) : Held := queue.foldl after h

/-- Only what is down is released. -/
def Releases (h : Held) : List (PointerEvent F) → Prop
  | [] => True
  | .motionNotify .. :: queue => Releases h queue
  | .button device type button flags :: queue =>
    (type = .buttonRelease → h device button = true) ∧
      Releases (h.after (.button device type button flags : PointerEvent F)) queue

@[simp] theorem after_motion (h : Held) (device : PointerDevice) (flags : List PointerFlag)
    (valuators : List F) : h.after (.motionNotify device flags valuators) = h := rfl

theorem after_button (h : Held) (device d : PointerDevice) (type : ButtonType) (button b : Nat)
    (flags : List PointerFlag) :
    h.after (.button device type button flags : PointerEvent F) d b =
      if d = device ∧ b = button then type == .buttonPress else h d b := rfl

@[simp] theorem run_nil (h : Held) : h.run ([] : List (PointerEvent F)) = h := rfl

@[simp] theorem run_cons (h : Held) (e : PointerEvent F) (queue : List (PointerEvent F)) :
    h.run (e :: queue) = (h.after e).run queue := rfl

theorem run_append (h : Held) (queue queue' : List (PointerEvent F)) :
    h.run (queue ++ queue') = (h.run queue).run queue' :=
  List.foldl_append

theorem releases_append (h : Held) (queue queue' : List (PointerEvent F)) :
    h.Releases (queue ++ queue') ↔ h.Releases queue ∧ (h.run queue).Releases queue' := by
  induction queue generalizing h with
  | nil => simp [Releases]
  | cons e queue ih =>
    cases e with
    | motionNotify device flags valuators => exact ih h
    | button device type button flags =>
      simp only [List.cons_append, Releases, ih, and_assoc]
      rfl

end Held

namespace StylusEvent

variable {F : Type}

theorem and_one_ne_zero_iff (x : BitVec 32) : x &&& 0x1 ≠ 0 ↔ x.getLsbD 0 = true := by
  have h := BitVec.and_one_eq_setWidth_ofBool_getLsbD (x := x)
  simp only [BitVec.ofNat_eq_ofNat] at h ⊢
  rw [h]
  cases x.getLsbD 0 <;> decide

/-- One round of the loop leaves its button down or up as the bits say, and as it was if they say
nothing. -/
theorem run_round (device d : PointerDevice) (b i : Nat) (h : Held) (released pressed : BitVec 32) :
    ((h.run (F := F) (if released &&& 0x1 ≠ 0 then
        [.button device .buttonRelease (i + 1) [.relative]] else [])).run (F := F)
      (if pressed &&& 0x1 ≠ 0 then [.button device .buttonPress (i + 1) [.relative]] else [])) d b =
      if d = device ∧ b = i + 1 then pressed.getLsbD 0 || (!released.getLsbD 0 && h d b)
      else h d b := by
  simp only [and_one_ne_zero_iff]
  generalize released.getLsbD 0 = r
  generalize pressed.getLsbD 0 = p
  cases r <;> cases p <;> by_cases hb : d = device ∧ b = i + 1 <;>
    simp [Held.after_button, hb]

theorem run_buttonLoop (device d : PointerDevice) (b n : Nat) :
    ∀ (h : Held) (i : Nat) (released pressed : BitVec 32),
      h.run (buttonLoop (F := F) device n i released pressed) d b =
        if d = device ∧ i < b ∧ b ≤ i + n then
          pressed.getLsbD (b - i - 1) || (!released.getLsbD (b - i - 1) && h d b)
        else h d b := by
  induction n with
  | zero =>
    intro h i released pressed
    rw [buttonLoop, Held.run_nil, if_neg (by omega)]
  | succ n ih =>
    intro h i released pressed
    rw [buttonLoop, Held.run_append, ih, Held.run_append, run_round]
    by_cases hb : b = i + 1
    · subst hb
      simp
    · have hrange : i + 1 < b ∧ b ≤ i + 1 + n ↔ i < b ∧ b ≤ i + (n + 1) := by omega
      simp only [hb, and_false, if_false, hrange, BitVec.getLsbD_ushiftRight]
      split_ifs with hin
      · rw [show 1 + (b - (i + 1) - 1) = b - i - 1 by omega]
      · rfl

/-- The loop releases only what is down if that holds of the bits. -/
theorem releases_buttonLoop (device : PointerDevice) (n : Nat) :
    ∀ (h : Held) (i : Nat) (released pressed : BitVec 32),
      h.Releases (buttonLoop (F := F) device n i released pressed) ↔
        ∀ k < n, released.getLsbD k = true → h device (i + k + 1) = true := by
  induction n with
  | zero => simp [buttonLoop, Held.Releases]
  | succ n ih =>
    intro h i released pressed
    have hround : h.Releases (F := F) ((if released &&& 0x1 ≠ 0 then
          [.button device .buttonRelease (i + 1) [.relative]] else []) ++
        (if pressed &&& 0x1 ≠ 0 then [.button device .buttonPress (i + 1) [.relative]] else [])) ↔
        (released.getLsbD 0 = true → h device (i + 1) = true) := by
      simp only [and_one_ne_zero_iff]
      generalize released.getLsbD 0 = r
      generalize pressed.getLsbD 0 = p
      cases r <;> cases p <;> simp [Held.Releases]
    rw [buttonLoop, Held.releases_append, hround, ih, Held.run_append]
    simp only [run_round, BitVec.getLsbD_ushiftRight]
    constructor
    · intro ⟨hfirst, hrest⟩ k hk hr
      cases k with
      | zero => exact hfirst hr
      | succ k =>
        have := hrest k (by omega) (by rwa [Nat.add_comm 1])
        rw [if_neg (by omega)] at this
        rwa [show i + (k + 1) + 1 = i + 1 + k + 1 by omega]
    · intro h
      refine ⟨h 0 (by omega), fun k hk hr => ?_⟩
      rw [if_neg (by omega), show i + 1 + k + 1 = i + (k + 1) + 1 by omega]
      exact h (k + 1) (by omega) (by rwa [Nat.add_comm k])

/-- Button `b` in the bits of an event, from 1 on. -/
def isDown (buttons : BitVec 8) (b : Nat) : Bool := buttons.getLsbD (b - 1)

/-- The button bits of the last event for a device, if there was one. -/
def lastButtons (d : PointerDevice) (events : List (StylusEvent F)) : BitVec 8 :=
  ((events.filter fun e => e.device = d).getLast?.map StylusEvent.buttons).getD 0

/-- The button bits of the last event, for whatever device. -/
def previousButtons (events : List (StylusEvent F)) : BitVec 8 :=
  (events.getLast?.map StylusEvent.buttons).getD 0

/-- The buttons held down are those of the last event for each device, and only held buttons have
been released. -/
def ButtonsMatch (queue : List (PointerEvent F)) (events : List (StylusEvent F)) : Prop :=
  (∀ d b, 1 ≤ b → b ≤ 3 → Held.none.run queue d b = isDown (lastButtons d events) b) ∧
    Held.none.Releases queue

/-- Each button is in the event before `e` as in the last one for the device of `e`, unless `e`
presses it. -/
def HandsOver (events : List (StylusEvent F)) (e : StylusEvent F) : Prop :=
  ∀ b, 1 ≤ b → b ≤ 3 →
    isDown (previousButtons events) b = isDown (lastButtons e.device events) b ∨
      (isDown (previousButtons events) b = false ∧ isDown e.buttons b = true)

theorem lastButtons_concat (d : PointerDevice) (events : List (StylusEvent F)) (e : StylusEvent F) :
    lastButtons d (events ++ [e]) = if e.device = d then e.buttons else lastButtons d events := by
  by_cases h : e.device = d <;> simp [lastButtons, h]

/-- The bits that the loop gets, in terms of the buttons before and now. -/
theorem run_buttonEvents (device d : PointerDevice) (b : Nat) (h : Held) (prev now : BitVec 8)
    (hb : 1 ≤ b) (hb3 : b ≤ 3) :
    h.run (buttonEvents (F := F) device (prev.setWidth 32) (now.setWidth 32)) d b =
      if d = device then
        (!isDown prev b && isDown now b) || (!(isDown prev b && !isDown now b) && h d b)
      else h d b := by
  rw [buttonEvents, run_buttonLoop]
  have hrange : 0 < b ∧ b ≤ 0 + 3 := by omega
  have h32 : b - 1 < 32 := by omega
  simp only [hrange, and_true, and_self, Nat.sub_zero, BitVec.getLsbD_and, BitVec.getLsbD_xor,
    BitVec.getLsbD_not, BitVec.getLsbD_setWidth, h32, decide_true, Bool.true_and, isDown]
  generalize prev.getLsbD (b - 1) = p
  generalize now.getLsbD (b - 1) = n
  cases p <;> cases n <;> simp

theorem releases_buttonEvents (device : PointerDevice) (h : Held) (prev now : BitVec 8) :
    h.Releases (buttonEvents (F := F) device (prev.setWidth 32) (now.setWidth 32)) ↔
      ∀ b, 1 ≤ b → b ≤ 3 → isDown prev b = true → isDown now b = false → h device b = true := by
  rw [buttonEvents, releases_buttonLoop]
  have hbit : ∀ k < 3, ((prev.setWidth 32 ^^^ now.setWidth 32) &&& ~~~now.setWidth 32).getLsbD k =
      (prev.getLsbD k && !now.getLsbD k) := by
    intro k hk
    have h32 : k < 32 := by omega
    simp only [BitVec.getLsbD_and, BitVec.getLsbD_xor, BitVec.getLsbD_not, BitVec.getLsbD_setWidth,
      h32, decide_true, Bool.true_and]
    generalize prev.getLsbD k = p
    generalize now.getLsbD k = n
    cases p <;> cases n <;> rfl
  constructor
  · intro h b hb hb3 hprev hnow
    have := h (b - 1) (by omega) (by rw [hbit _ (by omega)]; simp_all [isDown])
    rwa [show 0 + (b - 1) + 1 = b by omega] at this
  · intro h k hk hr
    rw [hbit k hk, Bool.and_eq_true, Bool.not_eq_true'] at hr
    rw [show 0 + k + 1 = k + 1 by omega]
    exact h (k + 1) (by omega) (by omega) hr.1 hr.2

variable [Min F] [Max F] [IntCast F] {screen : Screen}

/-- While all devices exist, the events are compared each with the one before. -/
theorem run_concat (hpresent : ∀ d, screen.present d = true) (events : List (StylusEvent F))
    (e : StylusEvent F) :
    run screen (events ++ [e]) =
      { buttons_prev := e.buttons.setWidth 32
        queue := (run screen events).queue ++ motion screen e ::
          buttonEvents e.device ((previousButtons events).setWidth 32)
            (e.buttons.setWidth 32) } := by
  have hprev : (run screen events).buttons_prev = (previousButtons events).setWidth 32 := by
    cases events using List.reverseRecOn with
    | nil => rfl
    | append_singleton events e => simp [run, handle, hpresent, previousButtons]
  simp [run, handle, hpresent, ← hprev]

theorem buttonsMatch_concat_iff (hpresent : ∀ d, screen.present d = true)
    (events : List (StylusEvent F)) (e : StylusEvent F)
    (h : ButtonsMatch (run screen events).queue events) :
    ButtonsMatch (run screen (events ++ [e])).queue (events ++ [e]) ↔ HandsOver events e := by
  obtain ⟨hheld, hreleases⟩ := h
  have hmotion : ∀ h : Held, h.after (motion screen e) = h := by
    intro h
    rw [motion]
    split_ifs <;> rfl
  have hmotion' : ∀ (h : Held) queue, h.Releases (motion screen e :: queue) ↔ h.Releases queue := by
    intro h queue
    rw [motion]
    split_ifs <;> rfl
  -- A button is compared in three places: before, at the same device before, and now.
  rw [ButtonsMatch, run_concat hpresent, Held.releases_append, hmotion', releases_buttonEvents]
  simp only [Held.run_append, Held.run_cons, hmotion, lastButtons_concat, hreleases, true_and]
  constructor
  · intro ⟨hdown, hup⟩ b hb hb3
    have hdown := hdown e.device b hb hb3
    have hup := hup b hb hb3
    rw [run_buttonEvents _ _ _ _ _ _ hb hb3, if_pos rfl, if_pos rfl, hheld _ b hb hb3] at hdown
    rw [hheld _ b hb hb3] at hup
    revert hdown hup
    generalize isDown (previousButtons events) b = p
    generalize isDown (lastButtons e.device events) b = l
    generalize isDown e.buttons b = n
    cases p <;> cases l <;> cases n <;> simp
  · intro hover
    constructor
    · intro d b hb hb3
      rw [run_buttonEvents _ _ _ _ _ _ hb hb3, hheld _ b hb hb3]
      by_cases hd : d = e.device
      · subst hd
        rw [if_pos rfl, if_pos rfl]
        have hover := hover b hb hb3
        revert hover
        generalize isDown (previousButtons events) b = p
        generalize isDown (lastButtons e.device events) b = l
        generalize isDown e.buttons b = n
        cases p <;> cases l <;> cases n <;> simp
      · rw [if_neg hd, if_neg (Ne.symm hd)]
    · intro b hb hb3 hprev hnow
      rw [hheld _ b hb hb3]
      rcases hover b hb hb3 with hsame | ⟨_, hpress⟩
      · rw [← hsame, hprev]
      · rw [hpress] at hnow
        exact absurd hnow (by decide)

/-- For all stylus events, with all three devices there: after every one of them the buttons match,
if and only if every event finds its buttons handed over. -/
theorem buttons_match_iff (hpresent : ∀ d, screen.present d = true)
    (events : List (StylusEvent F)) :
    (∀ seen, seen <+: events → ButtonsMatch (run screen seen).queue seen) ↔
      ∀ seen e, seen ++ [e] <+: events → HandsOver seen e := by
  induction events using List.reverseRecOn with
  | nil =>
    simp only [List.prefix_nil, forall_eq]
    simp [ButtonsMatch, run, lastButtons, isDown, Held.none, Held.Releases]
  | append_singleton events e ih =>
    simp only [List.prefix_concat_iff]
    constructor
    · intro hmatch seen e' hprefix
      rcases hprefix with heq | hprefix
      · obtain ⟨rfl, rfl⟩ : seen = events ∧ e' = e := by simpa using heq
        exact (buttonsMatch_concat_iff hpresent _ _ (hmatch _ (.inr (List.prefix_refl _)))).mp
          (hmatch _ (.inl rfl))
      · exact ih.mp (fun seen h => hmatch seen (.inr h)) seen e' hprefix
    · intro hover seen hprefix
      have hbefore := ih.mpr fun seen e' h => hover seen e' (.inr h)
      rcases hprefix with rfl | hprefix
      · exact (buttonsMatch_concat_iff hpresent _ _ (hbefore _ (List.prefix_refl _))).mpr
          (hover _ _ (.inl rfl))
      · exact hbefore seen hprefix

def allDevices : Screen := ⟨1, 1, fun _ => true⟩

/-- An event that tells no more than its device and its buttons. -/
def ofButtons (eraser buttons : BitVec 8) : StylusEvent Int := ⟨0, 0, 0, 0, 0, 0, buttons, eraser, 0⟩

/-- A pen that touches the screen and leaves it. -/
theorem pen_stroke_matches :
    ButtonsMatch (run allDevices [ofButtons 0 1]).queue [ofButtons 0 1] ∧
      ButtonsMatch (run allDevices [ofButtons 0 1, ofButtons 0 0]).queue
        [ofButtons 0 1, ofButtons 0 0] := by
  suffices hall : ∀ seen, seen <+: [ofButtons 0 1, ofButtons 0 0] →
      ButtonsMatch (run allDevices seen).queue seen from
    ⟨hall _ (List.prefix_append _ _), hall _ (List.prefix_refl _)⟩
  apply (@buttons_match_iff _ _ _ _ allDevices (fun _ => rfl) [ofButtons 0 1, ofButtons 0 0]).mpr
  intro seen e hprefix b hb hb3
  left
  rw [show [ofButtons 0 1, ofButtons 0 0] = ([] ++ [ofButtons 0 1]) ++ [ofButtons 0 0] from rfl,
    List.prefix_concat_iff, List.prefix_concat_iff] at hprefix
  rcases hprefix with h | h | h
  · obtain ⟨rfl, rfl⟩ : seen = [ofButtons 0 1] ∧ e = ofButtons 0 0 := by
      simpa using List.append_inj' h rfl
    rfl
  · obtain ⟨rfl, rfl⟩ : seen = [] ∧ e = ofButtons 0 1 := by
      simpa using List.append_inj' h rfl
    rfl
  · simp at h

/-- The tip goes down as a pen, and is then an eraser. -/
theorem eraser_press_missed :
    ¬ ButtonsMatch (run allDevices [ofButtons 0 1, ofButtons 1 1]).queue
      [ofButtons 0 1, ofButtons 1 1] := by
  intro ⟨hheld, _⟩
  exact absurd (hheld .lorieEraser 1 (by decide) (by decide)) (by decide)

end StylusEvent

end XoDos
