import XoDos.Run
import XoDos.Xkb

/-!
# Typing keysyms

`lorieKeysymKeyboardEvent` finds a key that gives the keysym, fakes Shift and level three
around its press, and remembers in `pressedKeys` which key to release later.
-/

namespace XoDos.Xkb

/-- A keysym that was added to the keymap. -/
structure AddedKeySym where
  keysym : KeySym
  keycode : KeyCode
deriving DecidableEq

/-- `addedKeysyms` has the most recently used key in front.  `queue` is what the server has not
processed, `queued` all that was ever queued. -/
structure Keyboard where
  master : Master
  addedKeysyms : List AddedKeySym
  pressedKeys : KeyCode → KeySym
  queue : List KeyEvent
  queued : List KeyEvent

/-! ## Keysyms that the keymap does not have -/

/-- `vncOnKeyUsed` -/
def onKeyUsed (added : List AddedKeySym) (used : KeyCode) : List AddedKeySym :=
  match added.find? (·.keycode = used) with
  | none => added
  | some it => it :: added.eraseP (·.keycode = used)

/-- No one else has modified the key. -/
def XkbDesc.stillAdded (xkb : XkbDesc) (last : AddedKeySym) : Bool :=
  let key := xkb.key last.keycode
  decide (0 < key.numGroups) && key.syms 0 == last.keysym &&
    (!xkb.hasNames || key.name.head? == some 'T')

/-- The loop of `getReusableKeycode`, with the oldest item in front. -/
def XkbDesc.reuse (xkb : XkbDesc) : List AddedKeySym → KeyCode × List AddedKeySym
  | [] => (0, [])
  | last :: rest => if xkb.stillAdded last then (last.keycode, rest) else xkb.reuse rest

def XkbDesc.getReusableKeycode (xkb : XkbDesc) (added : List AddedKeySym) :
    KeyCode × List AddedKeySym :=
  let (code, rest) := xkb.reuse added.reverse
  (code, rest.reverse)

def XkbDesc.setName (xkb : XkbDesc) (code : KeyCode) : XkbDesc :=
  let digit (d : Nat) : Char := Char.ofNat (48 + code.toNat / d % 10)
  let key := { xkb.key code with name := ['T', digit 100, digit 10, digit 1] }
  { xkb with key := Function.update xkb.key code key }

def XkbDesc.setSyms (xkb : XkbDesc) (code : KeyCode) (lower upper : KeySym) : XkbDesc :=
  let syms := Function.update (Function.update (xkb.key code).syms 0 lower) 1 upper
  let key := { xkb.key code with syms }
  { xkb with key := Function.update xkb.key code key }

namespace Keyboard

variable [XServer]

/-- `lorieAddKeysym`: an unused key, or else the oldest of the added ones. -/
def addKeysym (s : Keyboard) (keysym : KeySym) : Keyboard × KeyCode :=
  let xkb := s.master.xkb
  let (code, added) :=
    match xkb.keycodes.reverse.find? (fun code => (xkb.key code).numGroups == 0) with
    | some code => (code, s.addedKeysyms)
    | none => xkb.getReusableKeycode s.addedKeysyms
  if code = 0 then ({ s with addedKeysyms := added }, 0)
  else
    let xkb := if xkb.hasNames then xkb.setName code else xkb
    let (lower, upper) := XServer.convertCase keysym
    let xkb := (XServer.changeTypesOfKey xkb code).setSyms code lower upper
    ({ s with master := { s.master with xkb }, addedKeysyms := ⟨lower, code⟩ :: added }, code)

/-- The key and the state that the keysym needs, if there is one. -/
def findKeycode (s : Keyboard) (keysym : KeySym) : Keyboard × Option (KeyCode × ModState) :=
  let state := s.master.state
  let alternatives := keysym :: altKeysyms keysym
  match alternatives.findSome? fun sym => s.master.keysymToKeycode sym state with
  | some found => (s, some found)
  | none =>
    let (s, code) := s.addKeysym keysym
    (s, if code = 0 then none else s.master.keysymToKeycode keysym state)

end Keyboard

/-! ## Fake modifiers -/

namespace Master

variable [XServer]

/-- Whether the key would need a fake Shift that Num Lock makes unnecessary. -/
def needsNumpadShift (m : Master) (found : KeyCode × ModState) : Bool :=
  m.state &&& shiftMask != found.2 &&& shiftMask && m.isAffectedByNumLock found.1

/-- An alternative keysym that avoids the fake Shift on the numeric pad. -/
def avoidNumpadShift (m : Master) (keysym : KeySym) (found : KeyCode × ModState) :
    KeyCode × ModState :=
  if m.needsNumpadShift found then
    ((altKeysyms keysym).findSome? fun sym =>
      (m.keysymToKeycode sym m.state).filter (fun other => !m.needsNumpadShift other)).getD found
  else found

/-- Shift is not cleared for Tab. -/
def keepShiftedTab (m : Master) (keysym : KeySym) (newState : ModState) : ModState :=
  if keysym = xkTab ∧ m.state &&& shiftMask ≠ 0 then newState ||| shiftMask else newState

/-- The events before the press and those that undo them, for the modifiers of the mask.  There
are none when no key is found. -/
def fakes (m : Master) (role : Role) (mask newState : ModState) (press : KeyCode)
    (release : List KeyCode) : Option (List KeyEvent × List KeyEvent) :=
  if m.state &&& mask = 0 ∧ newState &&& mask ≠ 0 then
    if press = 0 then none else some ([⟨.keyPress, press, role⟩], [⟨.keyRelease, press, role⟩])
  else if m.state &&& mask ≠ 0 ∧ newState &&& mask = 0 then
    if release = [] then none
    else some (release.map (⟨.keyRelease, ·, role⟩), release.map (⟨.keyPress, ·, role⟩))
  else some ([], [])

def shiftFakes (m : Master) (newState : ModState) : Option (List KeyEvent × List KeyEvent) :=
  m.fakes .tempShift shiftMask newState m.pressShift (m.releaseShift 8)

def levelThreeFakes (m : Master) (newState : ModState) : Option (List KeyEvent × List KeyEvent) :=
  let mask :=
    if newState &&& ~~~shiftMask ≠ m.state &&& ~~~shiftMask then m.getLevelThreeMask else 0
  m.fakes .tempLevelThreeShift mask newState m.pressLevelThree (m.releaseLevelThree 8)

end Master

/-! ## `lorieKeysymKeyboardEvent` -/

namespace Keyboard

/-- `QueueKeyboardEvents` -/
def queueEvents (s : Keyboard) (events : List KeyEvent) : Keyboard :=
  { s with queue := s.queue ++ events, queued := s.queued ++ events }

/-- The key that is remembered for the keysym, and no other. -/
def remember (pressedKeys : KeyCode → KeySym) (code : KeyCode) (keysym : KeySym) :
    KeyCode → KeySym :=
  fun i => if i = code then keysym else if pressedKeys i = keysym then noSymbol else pressedKeys i

section
variable [XServer]

/-- `mieqProcessInputEvents` -/
def processInputEvents (s : Keyboard) : Keyboard :=
  { s with master := XServer.processInputEvents s.master s.queue, queue := [] }

/-- What is found for a press that arrives now. -/
def selectKey (s : Keyboard) (keysym : KeySym) : Keyboard × Option (KeyCode × ModState) :=
  let (s, found) := s.processInputEvents.findKeycode keysym
  (s, found.map (s.master.avoidNumpadShift keysym))

def press (s : Keyboard) (keysym : KeySym) : Keyboard :=
  match s.selectKey keysym with
  | (s, none) => s
  | (s, some (code, newState)) =>
    let newState := s.master.keepShiftedTab keysym newState
    match s.master.shiftFakes newState with
    | none => s
    | some (shift, undoShift) =>
      match s.master.levelThreeFakes newState with
      -- the fake Shift is left as it is
      | none => s.queueEvents shift
      | some (levelThree, undoLevelThree) =>
        let s := s.queueEvents (shift ++ levelThree ++ [⟨.keyPress, code, .keycode⟩])
        let s := { s with
          addedKeysyms := onKeyUsed s.addedKeysyms code
          pressedKeys := remember s.pressedKeys code keysym }
        (s.queueEvents (undoLevelThree ++ undoShift)).processInputEvents

/-- The keycodes in the order of `pressedKeys`. -/
def allKeycodes : List KeyCode := (List.range 256).map (BitVec.ofNat 8)

def release (s : Keyboard) (keysym : KeySym) : Keyboard :=
  match allKeycodes.find? (fun i => s.pressedKeys i = keysym) with
  | none => s
  | some i =>
    ({ s with pressedKeys := Function.update s.pressedKeys i noSymbol }.queueEvents
      [⟨.keyRelease, i, .keycode⟩]).processInputEvents

/-- A call of `lorieKeysymKeyboardEvent`, or a change of the modifiers or of the keymap by other
parts of the server. -/
inductive Input where
  | keysymEvent (keysym : KeySym) (down : Bool)
  | change (master : Master)

def step (s : Keyboard) : Input → Keyboard
  | .keysymEvent keysym true => s.press keysym
  | .keysymEvent keysym false => s.release keysym
  | .change master => { s with master }

end

def start (master : Master) : Keyboard where
  master := master
  addedKeysyms := []
  pressedKeys _ := noSymbol
  queue := []
  queued := []

/-! ## Which keys are held -/

/-- Which keys are held because of their keysym. -/
def hold (held : KeyCode → Bool) (e : KeyEvent) : KeyCode → Bool :=
  if e.role = .keycode then Function.update held e.code (e.type == .keyPress) else held

def heldAfter (events : List KeyEvent) : KeyCode → Bool := Run.after hold (fun _ => false) events

/-- A release of a key finds it held. -/
def FindsHeld (held : KeyCode → Bool) (e : KeyEvent) : Prop :=
  e.role = .keycode → e.type = .keyRelease → held e.code = true

/-- The events are only faked modifiers. -/
def Temporary (events : List KeyEvent) : Prop := ∀ e ∈ events, e.role ≠ .keycode

theorem Temporary.after_hold {events : List KeyEvent} (h : Temporary events)
    (held : KeyCode → Bool) : Run.after hold held events = held := by
  induction events generalizing held with
  | nil => rfl
  | cons e events ih =>
    have he : hold held e = held := if_neg (h e (by simp))
    rw [Run.after_cons, he]
    exact ih (fun e' he' => h e' (by simp [he'])) held

theorem Temporary.findsHeld {events : List KeyEvent} (h : Temporary events)
    (held : KeyCode → Bool) : Run.Along hold FindsHeld held events := by
  induction events generalizing held with
  | nil => trivial
  | cons e events ih =>
    constructor
    · intro hrole
      exact absurd hrole (h e (by simp))
    · exact ih (fun e' he' => h e' (by simp [he'])) _

theorem Temporary.append {events rest : List KeyEvent} (h : Temporary events)
    (hrest : Temporary rest) : Temporary (events ++ rest) := by
  intro e he
  rcases List.mem_append.mp he with h' | h'
  · exact h e h'
  · exact hrest e h'

theorem fakes_temporary {m : Master} {role : Role} {mask newState : ModState} {press : KeyCode}
    {release : List KeyCode} {before after : List KeyEvent} (hrole : role ≠ .keycode)
    (h : m.fakes role mask newState press release = some (before, after)) :
    Temporary before ∧ Temporary after := by
  unfold Master.fakes at h
  split_ifs at h <;> cases h <;> constructor <;> intro e he <;> simp at he <;> grind

section
variable [XServer]

/-! ## What a call does -/

theorem addKeysym_frame (s : Keyboard) (keysym : KeySym) :
    (s.addKeysym keysym).1.pressedKeys = s.pressedKeys ∧
      (s.addKeysym keysym).1.queued = s.queued := by
  unfold addKeysym
  simp only
  split_ifs <;> exact ⟨rfl, rfl⟩

theorem selectKey_frame (s : Keyboard) (keysym : KeySym) :
    (s.selectKey keysym).1.pressedKeys = s.pressedKeys ∧
      (s.selectKey keysym).1.queued = s.queued := by
  unfold selectKey findKeycode
  simp only
  split
  · exact ⟨rfl, rfl⟩
  · exact addKeysym_frame s.processInputEvents keysym

/-- A press either gives up, or it presses the key that was selected and remembers it. -/
theorem press_cases (s : Keyboard) (keysym : KeySym) :
    (∃ temp, Temporary temp ∧ (s.press keysym).queued = s.queued ++ temp ∧
      (s.press keysym).pressedKeys = s.pressedKeys) ∨
    ∃ code newState before after, (s.selectKey keysym).2 = some (code, newState) ∧
      Temporary before ∧ Temporary after ∧
      (s.press keysym).queued = s.queued ++ (before ++ [⟨.keyPress, code, .keycode⟩] ++ after) ∧
      (s.press keysym).pressedKeys = remember s.pressedKeys code keysym := by
  have hframe := selectKey_frame s keysym
  unfold press
  rcases hsel : s.selectKey keysym with ⟨s', _ | ⟨code, newState⟩⟩ <;>
    rw [hsel] at hframe <;> obtain ⟨hkeys, hqueued⟩ := hframe <;> dsimp only at hkeys hqueued ⊢
  · left
    exact ⟨[], by simp [Temporary], by simp [hqueued], hkeys⟩
  · rcases hshift : s'.master.shiftFakes (s'.master.keepShiftedTab keysym newState) with
      _ | ⟨shift, undoShift⟩
    · left
      exact ⟨[], by simp [Temporary], by simp [hqueued], hkeys⟩
    · obtain ⟨hshift1, hshift2⟩ := fakes_temporary (by decide) hshift
      rcases hthree : s'.master.levelThreeFakes (s'.master.keepShiftedTab keysym newState) with
        _ | ⟨levelThree, undoLevelThree⟩
      · left
        exact ⟨shift, hshift1, by simp [queueEvents, hqueued], hkeys⟩
      · obtain ⟨hthree1, hthree2⟩ := fakes_temporary (by decide) hthree
        right
        exact ⟨code, newState, shift ++ levelThree, undoLevelThree ++ undoShift, rfl,
          hshift1.append hthree1, hthree2.append hshift2,
          by simp [queueEvents, processInputEvents, hqueued],
          by simp [queueEvents, processInputEvents, hkeys]⟩

omit [XServer] in
theorem mem_allKeycodes (code : KeyCode) : code ∈ allKeycodes := by
  apply List.mem_map.mpr
  exact ⟨code.toNat, List.mem_range.mpr code.isLt, by simp⟩

/-- A release either finds nothing, or it releases a key of the keysym and forgets it. -/
theorem release_cases (s : Keyboard) (keysym : KeySym) :
    ((∀ i, s.pressedKeys i ≠ keysym) ∧ s.release keysym = s) ∨
    ∃ i, s.pressedKeys i = keysym ∧
      (s.release keysym).queued = s.queued ++ [⟨.keyRelease, i, .keycode⟩] ∧
      (s.release keysym).pressedKeys = Function.update s.pressedKeys i noSymbol := by
  unfold release
  rcases hfind : allKeycodes.find? (fun i => s.pressedKeys i = keysym) with _ | i
  · left
    refine ⟨fun i hi => ?_, rfl⟩
    have := List.find?_eq_none.mp hfind i (mem_allKeycodes i)
    simp [hi] at this
  · right
    exact ⟨i, by simpa using List.find?_some hfind, rfl, rfl⟩

end

/-! ## Whole runs -/

/-- The last call for the keysym. -/
def lastCall (inputs : List Input) (keysym : KeySym) : Option Bool :=
  inputs.foldl (fun last input =>
    match input with
    | .keysymEvent k down => if k = keysym then some down else last
    | .change _ => last) none

/-- No key is stuck after the inputs. -/
structure NothingStuck (s : Keyboard) (inputs : List Input) : Prop where
  unique : ∀ i j, s.pressedKeys i ≠ noSymbol → s.pressedKeys i = s.pressedKeys j → i = j
  matched : ∀ before code after,
    s.queued = before ++ ⟨.keyRelease, code, .keycode⟩ :: after → heldAfter before code = true
  settled : (∀ keysym, lastCall inputs keysym ≠ some true) →
    ∀ code, heldAfter s.queued code = false

/-- A keysym that is held is pressed through the same key again. -/
def Orderly [XServer] (s : Keyboard) : Input → Prop
  | .keysymEvent keysym true =>
    keysym ≠ noSymbol ∧
      ∀ i code newState, s.pressedKeys i = keysym →
        (s.selectKey keysym).2 = some (code, newState) → code = i
  | .keysymEvent keysym false => keysym ≠ noSymbol
  | .change _ => True

/-- `pressedKeys` and the events agree. -/
structure InStep (s : Keyboard) (inputs : List Input) : Prop where
  unique : ∀ i j, s.pressedKeys i ≠ noSymbol → s.pressedKeys i = s.pressedKeys j → i = j
  finds : Run.Along hold FindsHeld (fun _ => false) s.queued
  held : ∀ i, heldAfter s.queued i = true ↔ s.pressedKeys i ≠ noSymbol
  last : ∀ i, s.pressedKeys i ≠ noSymbol → lastCall inputs (s.pressedKeys i) = some true

theorem heldAfter_append (events rest : List KeyEvent) :
    heldAfter (events ++ rest) = Run.after hold (heldAfter events) rest :=
  Run.after_append

theorem lastCall_keysymEvent (inputs : List Input) (k keysym : KeySym) (down : Bool) :
    lastCall (inputs ++ [.keysymEvent k down]) keysym =
      if k = keysym then some down else lastCall inputs keysym := by
  simp [lastCall]

theorem lastCall_change (inputs : List Input) (m : Master) (keysym : KeySym) :
    lastCall (inputs ++ [.change m]) keysym = lastCall inputs keysym := by
  simp [lastCall]

theorem inStep_start (master : Master) : InStep (start master) [] where
  unique i j hi := absurd rfl hi
  finds := trivial
  held i := by simp [start, heldAfter]
  last i hi := absurd rfl hi

theorem InStep.nothingStuck {s : Keyboard} {inputs : List Input} (h : InStep s inputs) :
    NothingStuck s inputs where
  unique := h.unique
  matched before code after hq := by
    have := h.finds
    rw [hq] at this
    exact this.condition rfl rfl
  settled hlast code := by
    by_contra hheld
    have hi := (h.held code).mp (by simpa using hheld)
    exact hlast _ (h.last code hi)

section
variable {s : Keyboard} {inputs : List Input} {keysym : KeySym}

/-- A press that gives up leaves everything as it is. -/
theorem InStep.of_temporary {s' : Keyboard} {temp : List KeyEvent} (h : InStep s inputs)
    (htemp : Temporary temp) (hq : s'.queued = s.queued ++ temp)
    (hkeys : s'.pressedKeys = s.pressedKeys) :
    InStep s' (inputs ++ [.keysymEvent keysym true]) where
  unique := by
    rw [hkeys]
    exact h.unique
  finds := by
    rw [hq, Run.along_append]
    exact ⟨h.finds, htemp.findsHeld _⟩
  held i := by
    rw [hq, heldAfter_append, htemp.after_hold, hkeys]
    exact h.held i
  last i := by
    rw [hkeys, lastCall_keysymEvent]
    intro hi
    split_ifs
    · rfl
    · exact h.last i hi

theorem remember_ne {pressedKeys : KeyCode → KeySym} {code i : KeyCode}
    (hsame : ∀ j, pressedKeys j = keysym → code = j) (hi : i ≠ code) :
    remember pressedKeys code keysym i = pressedKeys i := by
  have : pressedKeys i ≠ keysym := by
    intro heq
    exact hi (hsame i heq).symm
  simp [remember, hi, this]

theorem remember_self (pressedKeys : KeyCode → KeySym) (code : KeyCode) :
    remember pressedKeys code keysym code = keysym := by
  simp [remember]

variable [XServer]

theorem InStep.press (h : InStep s inputs) (hok : Orderly s (.keysymEvent keysym true)) :
    InStep (s.press keysym) (inputs ++ [.keysymEvent keysym true]) := by
  obtain ⟨hne, hsame⟩ := hok
  rcases press_cases s keysym with ⟨temp, htemp, hq, hkeys⟩ |
    ⟨code, newState, before, after, hsel, hbefore, hafter, hq, hkeys⟩
  · exact h.of_temporary htemp hq hkeys
  -- A keysym that is remembered keeps its keycode, so no second entry for it comes about.
  have hsame' : ∀ j, s.pressedKeys j = keysym → code = j := fun j hj => hsame j code newState hj hsel
  have hheld : heldAfter (s.press keysym).queued = Function.update (heldAfter s.queued) code true := by
    rw [hq, heldAfter_append, Run.after_append, Run.after_append, hbefore.after_hold,
      hafter.after_hold]
    rfl
  constructor
  · intro i j
    rw [hkeys]
    by_cases hi : i = code <;> by_cases hj : j = code
    · simp [hi, hj]
    · rw [hi, remember_self, remember_ne hsame' hj]
      intro _ heq
      exact hsame' j heq.symm
    · rw [hj, remember_self, remember_ne hsame' hi]
      intro _ heq
      exact (hsame' i heq).symm
    · rw [remember_ne hsame' hi, remember_ne hsame' hj]
      exact h.unique i j
  · rw [hq, Run.along_append, Run.along_append, Run.along_append]
    refine ⟨h.finds, ⟨hbefore.findsHeld _, ?_, trivial⟩, hafter.findsHeld _⟩
    intro _ hrelease
    cases hrelease
  · intro i
    rw [hheld, hkeys]
    by_cases hi : i = code
    · rw [hi, remember_self]
      simp [hne]
    · rw [remember_ne hsame' hi, Function.update_of_ne hi]
      exact h.held i
  · intro i
    rw [hkeys, lastCall_keysymEvent]
    by_cases hi : i = code
    · simp [hi, remember_self]
    · rw [remember_ne hsame' hi]
      intro hi'
      split_ifs
      · rfl
      · exact h.last i hi'

theorem InStep.release (h : InStep s inputs) (hne : keysym ≠ noSymbol) :
    InStep (s.release keysym) (inputs ++ [.keysymEvent keysym false]) := by
  rcases release_cases s keysym with ⟨hnone, heq⟩ | ⟨i, hi, hq, hkeys⟩
  · rw [heq]
    refine ⟨h.unique, h.finds, h.held, fun j hj => ?_⟩
    rw [lastCall_keysymEvent, if_neg (hnone j).symm]
    exact h.last j hj
  have hheld : heldAfter (s.release keysym).queued =
      Function.update (heldAfter s.queued) i false := by
    rw [hq, heldAfter_append]
    rfl
  have hpressed : s.pressedKeys i ≠ noSymbol := hi ▸ hne
  constructor
  · intro j k
    rw [hkeys]
    by_cases hj : j = i
    · simp [hj]
    · by_cases hk : k = i
      · rw [hk, Function.update_self, Function.update_of_ne hj]
        exact fun hj' heq => absurd heq hj'
      · rw [Function.update_of_ne hj, Function.update_of_ne hk]
        exact h.unique j k
  · rw [hq, Run.along_append]
    exact ⟨h.finds, fun _ _ => (h.held i).mpr hpressed, trivial⟩
  · intro j
    rw [hheld, hkeys]
    by_cases hj : j = i
    · simp [hj]
    · rw [Function.update_of_ne hj, Function.update_of_ne hj]
      exact h.held j
  · intro j
    rw [hkeys, lastCall_keysymEvent]
    by_cases hj : j = i
    · simp [hj]
    · rw [Function.update_of_ne hj]
      intro hj'
      -- the keysym was at `i` only
      have hother : keysym ≠ s.pressedKeys j := by
        intro heq
        exact hj (h.unique j i hj' (by rw [← heq, hi]))
      rw [if_neg hother]
      exact h.last j hj'

theorem InStep.step {input : Input} (h : InStep s inputs) (hok : Orderly s input) :
    InStep (s.step input) (inputs ++ [input]) := by
  rcases input with ⟨keysym, _ | _⟩ | master
  · exact h.release hok
  · exact h.press hok
  · refine ⟨h.unique, h.finds, h.held, fun i hi => ?_⟩
    rw [lastCall_change]
    exact h.last i hi

/-! ## Code points -/

/-- `EVENT_UNICODE` presses a keysym and releases it at once. -/
inductive Typed : List Input → Prop where
  | nil : Typed []
  | unicode (keysym : KeySym) {rest : List Input} (hne : keysym ≠ noSymbol) (hrest : Typed rest) :
      Typed (.keysymEvent keysym true :: .keysymEvent keysym false :: rest)
  | change (master : Master) {rest : List Input} (hrest : Typed rest) :
      Typed (.change master :: rest)

theorem press_from_empty (keysym : KeySym) (h : ∀ i, s.pressedKeys i = noSymbol) :
    (∀ i, (s.press keysym).pressedKeys i = noSymbol) ∨
      ∃ code, (s.press keysym).pressedKeys = Function.update (fun _ => noSymbol) code keysym := by
  rcases press_cases s keysym with ⟨_, _, _, hkeys⟩ | ⟨code, _, _, _, _, _, _, _, hkeys⟩
  · left
    simpa [hkeys] using h
  · right
    use code
    rw [hkeys]
    funext i
    by_cases hi : i = code <;> simp [remember, hi, h i]

theorem press_release_empty (h : ∀ i, s.pressedKeys i = noSymbol) :
    ∀ i, ((s.press keysym).release keysym).pressedKeys i = noSymbol := by
  intro i
  rcases release_cases (s.press keysym) keysym with ⟨hnone, heq⟩ | ⟨j, hj, _, hkeys⟩
  · rw [heq]
    rcases press_from_empty keysym h with hempty | ⟨code, hcode⟩
    · exact hempty i
    · exact absurd (by simp [hcode]) (hnone code)
  · rw [hkeys]
    rcases press_from_empty keysym h with hempty | ⟨code, hcode⟩
    · by_cases hi : i = j <;> simp [hi, hempty]
    · rw [hcode] at hj ⊢
      by_cases hjc : j = code
      · by_cases hi : i = code <;> simp [hi, hjc]
      · rw [Function.update_of_ne hjc] at hj
        by_cases hi : i = j <;> simp [hi, ← hj]

theorem Typed.orderly (h : Typed inputs) (hs : ∀ i, s.pressedKeys i = noSymbol) :
    Run.Along step Orderly s inputs := by
  induction h generalizing s with
  | nil => trivial
  | unicode keysym hne _ ih =>
    refine ⟨⟨hne, fun i _ _ hi => ?_⟩, hne, ih (press_release_empty hs)⟩
    rw [hs i] at hi
    exact absurd hi.symm hne
  | change master _ ih => exact ⟨trivial, ih hs⟩

theorem orderly_nothingStuck (master : Master) (inputs : List Input)
    (h : Run.Along step Orderly (start master) inputs) :
    ∀ earlier later, inputs = earlier ++ later →
      NothingStuck (Run.after step (start master) earlier) earlier := by
  intro earlier later heq
  rw [heq] at h
  have hstep := (Run.along_append.mp h).1.history
    (I := InStep) (fun s past i hs hi => hs.step hi) (inStep_start master)
  exact hstep.nothingStuck

end

/-! ## A layout with a key for `<` and `>` -/

/-- A server without locks and latches. -/
@[reducible] def plainServer : XServer where
  convertCase keysym := (keysym, keysym)
  changeTypesOfKey xkb _ := xkb
  processInputEvents m events :=
    events.foldl (fun m e =>
      let isDown := Function.update m.isDown e.code (e.type == .keyPress)
      let mods := (m.xkb.keycodes.filter isDown).foldl (fun mods code =>
        mods ||| (m.xkb.modifiersOf .setMods code m.state).getD 0) 0
      { m with isDown, state := (m.state &&& ~~~0xff) ||| mods.setWidth 32 }) m

def twoLevel : KeyType where
  mask := 1
  map := [⟨true, 1, 1, 0⟩]

/-- A key of one group. -/
def plainKey (lower upper : KeySym) (mods : Option (BitVec 8)) : Key where
  groupInfo := 1
  width := 2
  types _ := twoLevel
  syms column := if column = 0 then lower else upper
  acts := mods.map fun mask _ => ⟨.setMods, false, mask⟩
  modmap := mods.getD 0
  name := []

def unusedKey : Key where
  groupInfo := 0
  width := 0
  types _ := twoLevel
  syms _ := noSymbol
  acts := none
  modmap := 0
  name := []

/-- The keys Shift, comma and the one between Shift and Z of a keyboard with 105 keys. -/
def pc105 : Master where
  xkb := {
    minKeyCode := 8
    maxKeyCode := 255
    hasNames := true
    key := fun code =>
      if code = 50 then plainKey 0xffe1 0xffe1 (some 1)
      else if code = 59 then plainKey 0x2c 0x3c none
      else if code = 94 then plainKey 0x3c 0x3e none
      else unusedKey }
  state := 0
  isDown _ := false

/-- `<` is pressed, pressed again with Shift, and released. -/
def shiftedLess : List Input :=
  [.keysymEvent 0x3c true, .keysymEvent 0xffe1 true, .keysymEvent 0x3c true,
    .keysymEvent 0x3c false, .keysymEvent 0xffe1 false]

/-- The second press of `<` goes through the comma key, and key 94 is never released. -/
theorem shifted_less_sticks :
    ¬∀ (master : Master) (inputs : List Input),
      NothingStuck (Run.after (@step plainServer) (start master) inputs) inputs := by
  intro h
  have hsettled := (h pc105 shiftedLess).settled (by
    intro keysym
    simp only [lastCall, shiftedLess, List.foldl]
    split_ifs <;> simp) 94
  revert hsettled
  decide +kernel

/-- `<` is typed, and once more while Shift is held. -/
def typedLess : List Input :=
  [.keysymEvent 0x3c true, .keysymEvent 0x3c false, .change { pc105 with state := 1 },
    .keysymEvent 0x3c true, .keysymEvent 0x3c false]

theorem typed_less_nothingStuck :
    NothingStuck (Run.after (@step plainServer) (start pc105) typedLess) typedLess :=
  @orderly_nothingStuck plainServer pc105 typedLess
    (@Typed.orderly _ _ plainServer (.unicode _ (by decide) (.change _ (.unicode _ (by decide) .nil)))
      (fun _ => rfl)) typedLess [] (List.append_nil _).symm

end Keyboard

end XoDos.Xkb
