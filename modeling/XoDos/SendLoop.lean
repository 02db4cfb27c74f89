import XoDos.Run
import XoDos.WinHandler

/-!
# The sending thread stays alive

The thread survives as long as what is written fits into the buffer and no controller is taken away
from an answer that is still to be sent.
-/

namespace XoDos

namespace GamepadState

open ByteBuffer

theorem puts_writeTo (g : GamepadState) : Puts 11 g.writeTo :=
  ((puts_putShort _).next <| (puts_putByte _).next <| (puts_putShort _).next <|
    (puts_putShort _).next <| (puts_putShort _).next (puts_putShort _))

end GamepadState

namespace Captured

/-- The answer is read from the controller. -/
def readsController (c : Captured) : Bool := c.enabled && !c.useVirtualGamepad

/-- The answer is read from a profile. -/
def readsProfile (c : Captured) : Bool := c.enabled && c.useVirtualGamepad

end Captured

namespace WinAction

def captured : WinAction → Option Captured
  | .getGamepad c => some c
  | .getGamepadState c _ => some c
  | .sendGamepadState c => some c
  | _ => none

/-- The action fails without a controller. -/
def readsController (a : WinAction) : Bool := a.captured.any Captured.readsController

/-- The strings of a call fit into the message. -/
def Fits : WinAction → Prop
  | .exec filename parameters => (getBytes filename).length + (getBytes parameters).length ≤ 51
  | .killProcess processName => (getBytes processName).length ≤ 59
  | .setProcessAffinityOf processName _ => (getBytes processName).length ≤ 50
  | .bringToFront processName _ => (getBytes processName).length ≤ 51
  | _ => True

end WinAction

/-- A name that fits into the description of a gamepad. -/
def ShortName (name : JavaString) : Prop := (getBytes name).length ≤ 54

/-- The action describes a gamepad whose name fits. -/
def WinAction.NameFits (shown : ShownProfile) (controller : Option ExternalController) :
    WinAction → Prop
  | .getGamepad c =>
    (c.readsProfile = true → ∀ p ∈ c.profile, ShortName (shown.profiles p).name) ∧
      (c.readsController = true → ∀ e ∈ controller, ShortName e.name)
  | _ => True

namespace WinHandler

open ByteBuffer

variable {s : WinHandler} {a : WinAction} {c : Captured}

/-- What an action needs to return. -/
structure Safe (s : WinHandler) (a : WinAction) : Prop where
  fits : a.Fits
  name : a.NameFits s.shown s.currentController
  controller : a.readsController = true → s.currentController.isSome
  profile : ∀ c ∈ a.captured, c.useVirtualGamepad = true → c.profile.isSome

/-! ## An action returns -/

/-- An enabled answer finds its gamepad. -/
theorem source_cases (hp : c.useVirtualGamepad = true → c.profile.isSome)
    (hc : c.readsController = true → s.currentController.isSome) (he : c.enabled = true) :
    (c.useVirtualGamepad = true ∧ ∃ p, c.profile = some p) ∨
      (c.useVirtualGamepad = false ∧ ∃ e, s.currentController = some e) := by
  cases hv : c.useVirtualGamepad with
  | true => exact .inl ⟨rfl, Option.isSome_iff_exists.mp (hp hv)⟩
  | false =>
    refine .inr ⟨rfl, Option.isSome_iff_exists.mp (hc ?_)⟩
    simp [Captured.readsController, he, hv]

theorem puts_writeState
    (h : (c.useVirtualGamepad = true ∧ ∃ p, c.profile = some p) ∨
      (c.useVirtualGamepad = false ∧ ∃ e, s.currentController = some e)) :
    Puts 11 (s.writeState c) := by
  obtain ⟨hv, p, hp⟩ | ⟨hv, e, he⟩ := h
  · apply Puts.value (a := (s.shown.profiles p).gamepadState) _ (GamepadState.puts_writeTo _)
    simp [gamepadState, hv, hp, deref]
  · apply Puts.value (a := e.state) _ (GamepadState.puts_writeTo _)
    simp [gamepadState, hv, he, deref]

theorem puts_gamepadId
    (h : (c.useVirtualGamepad = true ∧ ∃ p, c.profile = some p) ∨
      (c.useVirtualGamepad = false ∧ ∃ e, s.currentController = some e)) :
    Puts 4 fun b => s.gamepadId c >>= fun id => putInt id b := by
  obtain ⟨hv, p, hp⟩ | ⟨hv, e, he⟩ := h
  · apply Puts.value (a := (s.shown.profiles p).id) _ (puts_putInt _)
    simp [gamepadId, hv, hp, deref]
  · apply Puts.value (a := e.deviceId) _ (puts_putInt _)
    simp [gamepadId, hv, he, deref]

/-- The name of the gamepad, which fits. -/
theorem gamepadName_short (h : Safe s (.getGamepad c)) (he : c.enabled = true) :
    ∃ name, s.gamepadName c = .ok name ∧ ShortName name := by
  obtain ⟨hprof, hctrl⟩ := h.name
  obtain ⟨hv, p, hp⟩ | ⟨hv, e, hc⟩ := source_cases (h.profile c rfl) h.controller he
  · refine ⟨(s.shown.profiles p).name, by simp [gamepadName, hv, hp, deref], ?_⟩
    exact hprof (by simp [Captured.readsProfile, he, hv]) p hp
  · refine ⟨e.name, by simp [gamepadName, hv, hc, deref], ?_⟩
    exact hctrl (by simp [Captured.readsController, he, hv]) e hc

/-- The message of a safe action has at most 64 bytes. -/
theorem Safe.puts (h : Safe s a) : ∃ n, n ≤ 64 ∧ Puts n (s.write a) := by
  -- The fields in front of a text have a fixed size, and the rest of the 64 bytes bounds the text.
  cases a with
  | exec filename parameters =>
    have hfits : (getBytes filename).length + (getBytes parameters).length ≤ 51 := h.fits
    refine ⟨_, ?_, (puts_putByte _).next <| (puts_putInt _).next <| (puts_putInt _).next <|
      (puts_putInt _).next <| (puts_put _).next (puts_put _)⟩
    omega
  | killProcess processName =>
    have hfits : (getBytes processName).length ≤ 59 := h.fits
    refine ⟨_, ?_, (puts_putByte _).next <| (puts_putInt _).next (puts_put _)⟩
    omega
  | listProcesses => exact ⟨_, by omega, (puts_putByte _).next (puts_putInt _)⟩
  | setProcessAffinityOf processName affinityMask =>
    have hfits : (getBytes processName).length ≤ 50 := h.fits
    refine ⟨_, ?_, (puts_putByte _).next <| (puts_putInt _).next <| (puts_putInt _).next <|
      (puts_putInt _).next <| (puts_putByte _).next (puts_put _)⟩
    omega
  | setProcessAffinity pid affinityMask =>
    exact ⟨_, by omega, (puts_putByte _).next <| (puts_putInt _).next <| (puts_putInt _).next <|
      (puts_putInt _).next (puts_putByte _)⟩
  | mouseEvent flags dx dy wheelDelta =>
    exact ⟨_, by omega, (puts_putByte _).next <| (puts_putInt _).next <| (puts_putInt _).next <|
      (puts_putShort _).next <| (puts_putShort _).next <| (puts_putShort _).next (puts_putByte _)⟩
  | keyboardEvent vkey flags =>
    exact ⟨_, by omega, (puts_putByte _).next <| (puts_putByte _).next (puts_putInt _)⟩
  | bringToFront processName handle =>
    have hfits : (getBytes processName).length ≤ 51 := h.fits
    refine ⟨_, ?_, (puts_putByte _).next <| (puts_putInt _).next <| (puts_put _).next
      (puts_putLong _)⟩
    omega
  | getGamepad c =>
    cases he : c.enabled with
    | false =>
      simp only [write, he, Bool.false_eq_true, if_false]
      exact ⟨_, by omega, (puts_putByte _).next (puts_putInt _)⟩
    | true =>
      obtain ⟨name, hname, hshort⟩ := gamepadName_short h he
      have hsource := source_cases (h.profile c rfl) h.controller he
      simp only [write, he, if_true]
      refine ⟨_, ?_, (puts_putByte _).next <| (puts_gamepadId hsource).next <|
        (puts_putByte _).next (Puts.value hname ((puts_putInt _).next (puts_put _)))⟩
      unfold ShortName at hshort
      omega
  | getGamepadState c gamepadId =>
    cases he : c.enabled with
    | false =>
      simp only [write, he, Bool.false_eq_true, if_false]
      exact ⟨_, by omega, (puts_putByte _).next (puts_putByte _)⟩
    | true =>
      have hsource := source_cases (h.profile c rfl) h.controller he
      simp only [write, he, if_true]
      exact ⟨_, by omega, (puts_putByte _).next <| (puts_putByte _).next <| (puts_putInt _).next
        (puts_writeState hsource)⟩
  | sendGamepadState c =>
    cases he : c.enabled with
    | false =>
      simp only [write, he, Bool.false_eq_true, if_false]
      exact ⟨_, by omega, (puts_putByte _).next (puts_putByte _)⟩
    | true =>
      have hsource := source_cases (h.profile c rfl) h.controller he
      simp only [write, he, if_true]
      exact ⟨_, by omega, (puts_putByte _).next <| (puts_putByte _).next <|
        (puts_gamepadId hsource).next (puts_writeState hsource)⟩

/-- What an action needs depends on the controller and the profiles only. -/
theorem Safe.congr {t : WinHandler} (h : Safe s a) (hs : t.shown = s.shown)
    (hc : t.currentController = s.currentController) : Safe t a := by
  refine ⟨h.fits, ?_, ?_, h.profile⟩
  · rw [hs, hc]
    exact h.name
  · rw [hc]
    exact h.controller

/-! ## The invariant -/

/-- The thread is alive, and whatever is queued will return. -/
structure Inv (s : WinHandler) : Prop where
  alive : s.exception = none
  length : s.sendData.array.length = 64
  safe : ∀ a ∈ s.actions, Safe s a

theorem Inv.new (shown : ShownProfile) : Inv (.new shown) :=
  ⟨rfl, by simp [WinHandler.new, allocate], by simp [WinHandler.new]⟩

/-- Safe actions are queued. -/
theorem Inv.queue (hs : Inv s) (more : List WinAction) (h : ∀ a ∈ more, Safe s a) :
    Inv { s with actions := s.actions ++ more } := by
  refine ⟨hs.alive, hs.length, fun a ha => ?_⟩
  rcases List.mem_append.mp ha with ha | ha
  · exact (hs.safe a ha).congr rfl rfl
  · exact (h a ha).congr rfl rfl

theorem Inv.add (hs : Inv s) (h : Safe s a) : Inv (s.addAction a) :=
  hs.queue [a] (by simpa using h)

/-- A call whose strings fit needs nothing else. -/
theorem Safe.of_call (hfits : a.Fits) (hcall : a.captured = none) (hname : ∀ c, a ≠ .getGamepad c) :
    Safe s a := by
  refine ⟨hfits, ?_, by simp [WinAction.readsController, hcall], by simp [hcall]⟩
  cases a with
  | getGamepad c => exact absurd rfl (hname c)
  | _ => trivial

theorem captured_profile (port : Int) (h : (s.captured port).useVirtualGamepad = true) :
    (s.captured port).profile.isSome := by
  revert h
  simp only [captured, ShownProfile.useVirtualGamepad]
  cases s.shown.profile <;> simp

theorem captured_controller (port : Int) (h : (s.captured port).readsController = true) :
    s.currentController.isSome := by
  simp only [Captured.readsController, captured, enabled, Bool.and_eq_true, Bool.or_eq_true,
    Bool.not_eq_true'] at h
  obtain ⟨h | h, hv⟩ := h
  · exact h
  · rw [hv] at h
    cases h

/-! ## The sending thread -/

/-- The thread runs the first action, which returns. -/
theorem Inv.runAction (hs : Inv s) (hinit : s.initReceived = true) {rest : List WinAction}
    (ha : s.actions = a :: rest) (delivered : Bool) :
    Inv (s.runAction delivered) ∧ (s.runAction delivered).actions = rest ∧
      (s.runAction delivered).ran = s.ran ++ [a] ∧
      (s.runAction delivered).initReceived = true := by
  obtain ⟨n, hn, hputs⟩ := (hs.safe a (by simp [ha])).puts
  obtain ⟨b, hb, -, hlen⟩ := hputs s.sendData.rewind (by simp [rewind, hs.length, hn])
  simp only [WinHandler.runAction, hs.alive, hinit, ha, hb]
  refine ⟨⟨rfl, ?_, fun a' ha' => ?_⟩, trivial, trivial, trivial⟩
  · simpa [rewind, hs.length] using hlen
  · exact (hs.safe a' (by simp [ha, show a' ∈ rest from ha'])).congr rfl rfl

theorem Inv.run (hs : Inv s) (delivered : Bool) : Inv (s.runAction delivered) := by
  cases hinit : s.initReceived with
  | false => simpa [WinHandler.runAction, hs.alive, hinit] using hs
  | true =>
    cases ha : s.actions with
    | nil => simpa [WinHandler.runAction, hs.alive, hinit, ha] using hs
    | cons a rest => exact (hs.runAction hinit ha delivered).1

/-- Given as many rounds as there are actions, the thread runs them all. -/
def Drains (s : WinHandler) : Prop :=
  s.initReceived = true → ∀ deliveries : List Bool, deliveries.length = s.actions.length →
    (Run.after step s (deliveries.map .run)).exception = none ∧
      (Run.after step s (deliveries.map .run)).actions = [] ∧
      (Run.after step s (deliveries.map .run)).ran = s.ran ++ s.actions

theorem Inv.drains (hs : Inv s) : Drains s := by
  intro hinit deliveries hlen
  induction deliveries generalizing s with
  | nil =>
    have hnil : s.actions = [] := by simpa using hlen.symm
    simp [hs.alive, hnil]
  | cons d deliveries ih =>
    cases ha : s.actions with
    | nil => simp [ha] at hlen
    | cons a rest =>
      obtain ⟨hinv, hrest, hran, hinit'⟩ := hs.runAction hinit ha d
      have hall := ih hinv hinit' (by rw [hrest]; simpa [ha] using hlen)
      rw [hran, hrest, List.append_assoc] at hall
      exact hall

/-! ## Runs -/

/-- A queued answer reads the controller. -/
def ControllerRead (s : WinHandler) : Prop := ∃ a ∈ s.actions, a.readsController = true

/-- The request leaves a controller to the answers that read it, and a gamepad that is described has
a name that fits. -/
def OrderlyRequest (s : WinHandler) (receiveData : List Nat) (port : Int) (d : Devices) : Prop :=
  (getByte receiveData 0 = RequestCodes.getGamepad →
    (s.ControllerRead → (s.chosenController d).isSome) ∧
      ∀ a ∈ s.actions ++ [.getGamepad
        (captured { s with currentController := s.chosenController d } port)],
        a.NameFits s.shown (s.chosenController d)) ∧
  (getByte receiveData 0 = RequestCodes.getGamepadState →
    s.otherGamepad (getInt receiveData 1) = true →
      s.shown.useVirtualGamepad = true ∧ ¬s.ControllerRead) ∧
  (getByte receiveData 0 = RequestCodes.releaseGamepad → ¬s.ControllerRead)

def Orderly (s : WinHandler) : Input → Prop
  | .exec command =>
    trim command ≠ [] →
      (WinAction.exec (splitCommand (trim command)).1 (splitCommand (trim command)).2).Fits
  | .killProcess processName => (WinAction.killProcess processName).Fits
  | .setProcessAffinityOf processName mask => (WinAction.setProcessAffinityOf processName mask).Fits
  | .bringToFront processName handle => (WinAction.bringToFront processName handle).Fits
  | .request receiveData port d => s.OrderlyRequest receiveData port d
  | .profiles shown => ∀ a ∈ s.actions, a.NameFits shown s.currentController
  | _ => True

/-- The controller goes away while no queued answer reads it. -/
theorem Safe.release (h : Safe s a) (hr : a.readsController = false) :
    Safe { s with currentController := none } a := by
  refine ⟨h.fits, ?_, by simp [hr], h.profile⟩
  have hname := h.name
  cases a with
  | getGamepad c => exact ⟨hname.1, by simp⟩
  | _ => trivial

theorem Inv.release (hs : Inv s) (hr : ¬s.ControllerRead) :
    Inv { s with currentController := none } := by
  refine ⟨hs.alive, hs.length, fun a ha => (hs.safe a ha).release ?_⟩
  by_contra h
  exact hr ⟨a, ha, by simpa using h⟩

theorem Inv.getGamepad (hs : Inv s) (receiveData : List Nat) {port : Int} {d : Devices}
    (hread : s.ControllerRead → (s.chosenController d).isSome)
    (hname : ∀ a ∈ s.actions ++ [.getGamepad
        (captured { s with currentController := s.chosenController d } port)],
        a.NameFits s.shown (s.chosenController d)) :
    Inv (s.getGamepad receiveData port d) := by
  apply Inv.add
  · refine ⟨hs.alive, hs.length, fun a ha => ⟨(hs.safe a ha).fits, ?_, ?_, (hs.safe a ha).profile⟩⟩
    · exact hname a (List.mem_append_left _ ha)
    · exact fun hr => hread ⟨a, ha, hr⟩
  · refine ⟨trivial, hname _ (by simp), ?_, ?_⟩
    · exact captured_controller (s := { s with currentController := s.chosenController d }) port
    · intro c hc
      cases hc
      exact captured_profile port

theorem Inv.getGamepadState (hs : Inv s) (receiveData : List Nat) (port : Int)
    (hother : s.otherGamepad (getInt receiveData 1) = true →
      s.shown.useVirtualGamepad = true ∧ ¬s.ControllerRead) :
    Inv (s.getGamepadState receiveData port) := by
  have hprofile : ∀ c ∈ (WinAction.getGamepadState (s.captured port)
      (getInt receiveData 1)).captured, c.useVirtualGamepad = true → c.profile.isSome := by
    intro c hc
    cases hc
    exact captured_profile port
  simp only [WinHandler.getGamepadState]
  split_ifs with h
  · obtain ⟨hv, hr⟩ := hother h
    apply (hs.release hr).add
    -- The answer is about the profile, not about the controller that is dropped.
    refine ⟨trivial, trivial, ?_, hprofile⟩
    simp [WinAction.readsController, WinAction.captured, Captured.readsController, captured, hv]
  · exact hs.add ⟨trivial, trivial, captured_controller port, hprofile⟩

theorem Inv.request (hs : Inv s) {receiveData : List Nat} {port : Int} {d : Devices}
    (h : s.OrderlyRequest receiveData port d) : Inv (s.handleRequest receiveData port d) := by
  obtain ⟨hget, hstate, hrelease⟩ := h
  simp only [handleRequest]
  split_ifs with h₁ h₂ h₃ h₄
  · exact ⟨hs.alive, hs.length, fun a ha => (hs.safe a ha).congr rfl rfl⟩
  · exact hs.getGamepad receiveData (hget h₂).1 (hget h₂).2
  · exact hs.getGamepadState receiveData port (hstate h₃)
  · exact ⟨hs.alive, hs.length, fun a ha => ((hs.release (hrelease h₄)).safe a ha).congr rfl rfl⟩
  · exact hs

theorem Inv.sendGamepadState (hs : Inv s) : Inv s.sendGamepadState := by
  unfold WinHandler.sendGamepadState
  split_ifs
  · apply hs.queue
    intro a ha
    obtain ⟨port, -, rfl⟩ := List.mem_map.mp ha
    refine ⟨trivial, trivial, captured_controller port, ?_⟩
    intro c hc
    cases hc
    exact captured_profile port
  · exact hs

/-- A controller that is moved keeps its name. -/
theorem Inv.controllerMoves (hs : Inv s) (state : GamepadState) :
    Inv (s.step (.controllerMoves state)) := by
  refine ⟨hs.alive, hs.length, fun a ha => ?_⟩
  obtain ⟨hfits, hname, hctrl, hprof⟩ := hs.safe a ha
  refine ⟨hfits, ?_, fun hr => by simpa [step] using hctrl hr, hprof⟩
  cases a with
  | getGamepad c =>
    refine ⟨hname.1, fun hr e he => ?_⟩
    obtain ⟨e', he', rfl⟩ := Option.map_eq_some_iff.mp he
    exact hname.2 hr e' he'
  | _ => trivial

theorem Inv.profiles (hs : Inv s) {shown : ShownProfile}
    (h : ∀ a ∈ s.actions, a.NameFits shown s.currentController) : Inv { s with shown } := by
  refine ⟨hs.alive, hs.length, fun a ha => ?_⟩
  exact ⟨(hs.safe a ha).fits, h a ha, (hs.safe a ha).controller, (hs.safe a ha).profile⟩

theorem Inv.step (hs : Inv s) {i : Input} (h : s.Orderly i) : Inv (s.step i) := by
  cases i with
  | exec command =>
    simp only [WinHandler.step, WinHandler.exec]
    split_ifs with hempty
    · exact hs
    · exact hs.add (.of_call (h hempty) rfl (by simp))
  | killProcess processName => exact hs.add (.of_call h rfl (by simp))
  | listProcesses => exact hs.add (.of_call trivial rfl (by simp))
  | setProcessAffinityOf processName mask => exact hs.add (.of_call h rfl (by simp))
  | setProcessAffinity pid mask => exact hs.add (.of_call trivial rfl (by simp))
  | mouseEvent flags dx dy wheelDelta =>
    simp only [WinHandler.step, WinHandler.mouseEvent]
    split_ifs
    · exact hs.add (.of_call trivial rfl (by simp))
    · exact hs
  | keyboardEvent vkey flags =>
    simp only [WinHandler.step, WinHandler.keyboardEvent]
    split_ifs
    · exact hs.add (.of_call trivial rfl (by simp))
    · exact hs
  | bringToFront processName handle => exact hs.add (.of_call h rfl (by simp))
  | sendGamepadState => exact hs.sendGamepadState
  | request receiveData port d => exact hs.request h
  | controllerMoves state => exact hs.controllerMoves state
  | profiles shown => exact hs.profiles h
  | run delivered => exact hs.run delivered

/-- In an orderly run no action raises, and what is queued is executed. -/
theorem sender_survives (shown : ShownProfile) (inputs : List Input)
    (h : Run.Along step Orderly (new shown) inputs) :
    ∀ earlier later, inputs = earlier ++ later →
      (Run.after step (new shown) earlier).exception = none ∧
        Drains (Run.after step (new shown) earlier) := by
  intro earlier later hin
  subst hin
  have hinv := h.everywhere (fun s i hs hi => Inv.step hs hi) (Inv.new shown)
  exact ⟨hinv.alive, hinv.drains⟩

/-- A view without a profile. -/
def noProfile : ShownProfile := ⟨none, fun _ => ⟨0, [], false, .new⟩⟩

/-- The helper says that it is there, and a process is to be killed. -/
def killRun (processName : JavaString) : List Input :=
  [.request [1] 7946 ⟨false, none⟩, .killProcess processName, .run true]

theorem sender_survives_kill :
    (Run.after step (new noProfile) (killRun [0x61])).exception = none ∧
      Drains (Run.after step (new noProfile) (killRun [0x61])) := by
  apply sender_survives noProfile (killRun [0x61]) _ (killRun [0x61]) [] rfl
  refine ⟨⟨?_, ?_, ?_⟩, ?_, trivial, trivial⟩
  · intro h
    exact absurd h (by decide)
  · intro h
    exact absurd h (by decide)
  · intro h
    exact absurd h (by decide)
  · exact (by decide : (getBytes [0x61]).length ≤ 59)

/-- A name of 60 bytes ends the thread. -/
theorem sender_dies :
    ¬∀ (shown : ShownProfile) (inputs : List Input),
      (Run.after step (new shown) inputs).exception = none ∧
        Drains (Run.after step (new shown) inputs) := by
  intro h
  exact absurd (h noProfile (killRun (List.replicate 60 0x61))).1 (by decide +kernel)

end WinHandler

end XoDos
