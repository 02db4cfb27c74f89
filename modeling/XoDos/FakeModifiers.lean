import XoDos.Keysym

/-!
# Fake modifiers

A press of a keysym that needs other modifiers than those that are set fakes them, and undoes that
afterwards.  The level three modifier is looked for when Shift is already faked, and a press that
does not find it gives up there.
-/

namespace XoDos.Xkb

namespace KeyEvent

/-- The event that undoes this one. -/
def opposite (e : KeyEvent) : KeyEvent :=
  { e with type := if e.type = .keyPress then .keyRelease else .keyPress }

theorem opposite_type_ne (e : KeyEvent) : e.opposite.type ≠ e.type := by
  rcases e with ⟨_ | _, _, _⟩
  · exact KeyEventType.noConfusion
  · exact KeyEventType.noConfusion

end KeyEvent

/-- The events are at most one press of the target key, and events for modifiers of which some come
first and the others undo them. -/
structure FakesUndone (events : List KeyEvent) : Prop where
  target : events.filter (fun e => e.role = .keycode) = [] ∨
    ∃ code, events.filter (fun e => e.role = .keycode) = [⟨.keyPress, code, .keycode⟩]
  undone : ∃ before after, events.filter (fun e => e.role ≠ .keycode) = before ++ after ∧
    after.Perm (before.map KeyEvent.opposite)

/-- A modifier of the mask has to be faked. -/
def Master.Differs (m : Master) (mask newState : ModState) : Prop :=
  ¬(m.state &&& mask = 0 ↔ newState &&& mask = 0)

/-- There is a key to press if the modifiers are to be set, and a key to release if they are to be
cleared. -/
def Master.Fakeable (m : Master) (mask newState : ModState) (press : KeyCode)
    (release : List KeyCode) : Prop :=
  (m.state &&& mask = 0 → newState &&& mask ≠ 0 → press ≠ 0) ∧
    (m.state &&& mask ≠ 0 → newState &&& mask = 0 → release ≠ [])

/-- The mask with which level three is faked: none if only Shift differs. -/
def Master.levelThreeMaskFor [XServer] (m : Master) (newState : ModState) : ModState :=
  if newState &&& ~~~shiftMask ≠ m.state &&& ~~~shiftMask then m.getLevelThreeMask else 0

/-! ## What is queued before and after the press -/

section Fakes

variable {m : Master} {role : Role} {mask newState : ModState} {press : KeyCode}
  {release : List KeyCode} {before after : List KeyEvent}

theorem fakes_opposite (h : m.fakes role mask newState press release = some (before, after)) :
    after = before.map KeyEvent.opposite := by
  unfold Master.fakes at h
  split_ifs at h <;> cases h
  · rfl
  · rw [List.map_map]
    rfl
  · rfl

theorem fakes_eq_none : m.fakes role mask newState press release = none ↔
    ¬m.Fakeable mask newState press release := by
  unfold Master.fakes Master.Fakeable
  split_ifs with hset hpress hclear hrelease
  · exact iff_of_true rfl fun h => h.1 hset.1 hset.2 hpress
  · refine iff_of_false (by simp) ?_
    rw [not_not]
    exact ⟨fun _ _ => hpress, fun hno => absurd hset.1 hno⟩
  · exact iff_of_true rfl fun h => h.2 hclear.1 hclear.2 hrelease
  · refine iff_of_false (by simp) ?_
    rw [not_not]
    exact ⟨fun h => absurd h hclear.1, fun _ _ => hrelease⟩
  · refine iff_of_false (by simp) ?_
    rw [not_not]
    exact ⟨fun h h' => absurd ⟨h, h'⟩ hset, fun h h' => absurd ⟨h, h'⟩ hclear⟩

theorem fakes_ne_nil (h : m.fakes role mask newState press release = some (before, after)) :
    before ≠ [] ↔ m.Differs mask newState := by
  unfold Master.fakes at h
  unfold Master.Differs
  split_ifs at h with hset hpress hclear hrelease
  · cases h
    exact iff_of_true (by simp) fun hiff => hset.2 (hiff.mp hset.1)
  · cases h
    exact iff_of_true (by simpa using hrelease) fun hiff => hclear.1 (hiff.mpr hclear.2)
  · cases h
    refine iff_of_false (by simp) ?_
    rw [not_not]
    constructor
    · exact fun h => by_contra fun h' => hset ⟨h, h'⟩
    · exact fun h => by_contra fun h' => hclear ⟨h', h⟩

/-- The events before the press are all presses or all releases. -/
theorem fakes_type (h : m.fakes role mask newState press release = some (before, after)) :
    ∃ type, ∀ e ∈ before, e.type = type := by
  unfold Master.fakes at h
  split_ifs at h <;> cases h
  · exact ⟨.keyPress, by simp⟩
  · exact ⟨.keyRelease, by simp⟩
  · exact ⟨.keyPress, by simp⟩

theorem Temporary.filter_eq {events : List KeyEvent} (h : Keyboard.Temporary events) :
    events.filter (fun e => e.role = .keycode) = [] ∧
      events.filter (fun e => e.role ≠ .keycode) = events := by
  constructor
  · apply List.filter_eq_nil_iff.mpr
    intro e he
    simp [h e he]
  · apply List.filter_eq_self.mpr
    intro e he
    simp [h e he]

/-- Events of one type do not undo each other. -/
theorem undone_of_type {events : List KeyEvent} {type : KeyEventType}
    (htype : ∀ e ∈ events, e.type = type) (h : events = before ++ after)
    (hperm : after.Perm (before.map KeyEvent.opposite)) : events = [] := by
  cases before with
  | nil =>
    rw [h, List.nil_append]
    exact List.perm_nil.mp (by simpa using hperm)
  | cons e before =>
    have hmem : e.opposite ∈ after := hperm.symm.subset (by simp)
    have hopposite := htype e.opposite (by rw [h]; simp [hmem])
    have he := htype e (by rw [h]; simp)
    exact absurd (hopposite.trans he.symm) e.opposite_type_ne

end Fakes

namespace Keyboard

variable [XServer]

/-- The events that a press queues. -/
def queuedBy (s : Keyboard) (keysym : KeySym) : List KeyEvent :=
  (s.press keysym).queued.drop s.queued.length

/-- If Shift has to be faked for the key that is selected, and can be, so can level three where that
has to be faked. -/
def LevelThreeFound (s : Keyboard) (keysym : KeySym) : Prop :=
  ∀ code selected, (s.selectKey keysym).2 = some (code, selected) →
    let m := (s.selectKey keysym).1.master
    let newState := m.keepShiftedTab keysym selected
    m.Differs shiftMask newState → m.Fakeable shiftMask newState m.pressShift (m.releaseShift 8) →
      m.Fakeable (m.levelThreeMaskFor newState) newState m.pressLevelThree (m.releaseLevelThree 8)

variable {s s' : Keyboard} {keysym : KeySym} {code : KeyCode} {newState : ModState}
  {shift undoShift levelThree undoLevelThree : List KeyEvent}

theorem queuedBy_of_queued {events : List KeyEvent}
    (h : (s.press keysym).queued = s.queued ++ events) : s.queuedBy keysym = events := by
  rw [queuedBy, h, List.drop_left]

/-- A press without a key, or without a key for Shift. -/
theorem queuedBy_none (hselect : s.selectKey keysym = (s', none)) : s.queuedBy keysym = [] := by
  have hqueued := (selectKey_frame s keysym).2
  rw [hselect] at hqueued
  apply queuedBy_of_queued
  rw [press, hselect, List.append_nil]
  exact hqueued

theorem queuedBy_noShift (hselect : s.selectKey keysym = (s', some (code, newState)))
    (hshift : s'.master.shiftFakes (s'.master.keepShiftedTab keysym newState) = none) :
    s.queuedBy keysym = [] := by
  have hqueued := (selectKey_frame s keysym).2
  rw [hselect] at hqueued
  apply queuedBy_of_queued
  rw [press, hselect, List.append_nil]
  simp only [hshift]
  exact hqueued

/-- A press that gives up when it looks for level three. -/
theorem queuedBy_noLevelThree (hselect : s.selectKey keysym = (s', some (code, newState)))
    (hshift : s'.master.shiftFakes (s'.master.keepShiftedTab keysym newState) =
      some (shift, undoShift))
    (hthree : s'.master.levelThreeFakes (s'.master.keepShiftedTab keysym newState) = none) :
    s.queuedBy keysym = shift := by
  have hqueued := (selectKey_frame s keysym).2
  rw [hselect] at hqueued
  apply queuedBy_of_queued
  rw [press, hselect]
  simp only [hshift, hthree, queueEvents]
  rw [hqueued]

theorem queuedBy_press (hselect : s.selectKey keysym = (s', some (code, newState)))
    (hshift : s'.master.shiftFakes (s'.master.keepShiftedTab keysym newState) =
      some (shift, undoShift))
    (hthree : s'.master.levelThreeFakes (s'.master.keepShiftedTab keysym newState) =
      some (levelThree, undoLevelThree)) :
    s.queuedBy keysym = shift ++ levelThree ++ [⟨.keyPress, code, .keycode⟩] ++
      (undoLevelThree ++ undoShift) := by
  have hqueued := (selectKey_frame s keysym).2
  rw [hselect] at hqueued
  apply queuedBy_of_queued
  rw [press, hselect]
  simp only [hshift, hthree, queueEvents, processInputEvents]
  rw [hqueued]
  simp only [List.append_assoc]

omit [XServer] in
theorem fakesUndone_nil : FakesUndone [] := ⟨.inl rfl, [], [], rfl, .refl _⟩

/-- A whole press. -/
theorem fakesUndone_press
    (hshift : s'.master.shiftFakes newState = some (shift, undoShift))
    (hthree : s'.master.levelThreeFakes newState = some (levelThree, undoLevelThree)) :
    FakesUndone (shift ++ levelThree ++ [⟨.keyPress, code, .keycode⟩] ++
      (undoLevelThree ++ undoShift)) := by
  obtain ⟨hs₁, hs₂⟩ := fakes_temporary (by decide) hshift
  obtain ⟨ht₁, ht₂⟩ := fakes_temporary (by decide) hthree
  have hbefore := Temporary.filter_eq (hs₁.append ht₁)
  have hafter := Temporary.filter_eq (ht₂.append hs₂)
  constructor
  · right
    use code
    rw [List.filter_append, List.filter_append, hbefore.1, hafter.1]
    rfl
  · refine ⟨shift ++ levelThree, undoLevelThree ++ undoShift, ?_, ?_⟩
    · rw [List.filter_append, List.filter_append, hbefore.2, hafter.2]
      simp
    · rw [fakes_opposite hshift, fakes_opposite hthree, List.map_append]
      exact List.perm_append_comm

/-- Fake modifiers are undone exactly if level three is found whenever Shift has been faked. -/
theorem fakesUndone_iff (s : Keyboard) (keysym : KeySym) :
    FakesUndone (s.queuedBy keysym) ↔ s.LevelThreeFound keysym := by
  rcases hselect : s.selectKey keysym with ⟨s', _ | ⟨code, newState⟩⟩
  · rw [queuedBy_none hselect]
    refine iff_of_true fakesUndone_nil ?_
    intro code newState hfound
    rw [hselect] at hfound
    cases hfound
  have hfound : s.LevelThreeFound keysym ↔
      (s'.master.Differs shiftMask (s'.master.keepShiftedTab keysym newState) →
        s'.master.shiftFakes (s'.master.keepShiftedTab keysym newState) ≠ none →
          s'.master.levelThreeFakes (s'.master.keepShiftedTab keysym newState) ≠ none) := by
    rw [LevelThreeFound, hselect, Master.shiftFakes, Master.levelThreeFakes, Ne, Ne, fakes_eq_none,
      fakes_eq_none, not_not, not_not]
    constructor
    · exact fun h => h code newState rfl
    · rintro h _ _ heq
      cases heq
      exact h
  -- Faking needs a key for both modifiers; without one for the third level Shift is not undone.
  rw [hfound]
  rcases hshift : s'.master.shiftFakes (s'.master.keepShiftedTab keysym newState) with
    _ | ⟨shift, undoShift⟩
  · rw [queuedBy_noShift hselect hshift]
    exact iff_of_true fakesUndone_nil fun _ h => absurd rfl h
  rw [← fakes_ne_nil hshift]
  rcases hthree : s'.master.levelThreeFakes (s'.master.keepShiftedTab keysym newState) with
    _ | ⟨levelThree, undoLevelThree⟩
  · rw [queuedBy_noLevelThree hselect hshift hthree]
    obtain ⟨type, htype⟩ := fakes_type hshift
    constructor
    · rintro ⟨-, before, after, hevents, hperm⟩ hne
      rw [(Temporary.filter_eq (fakes_temporary (by decide) hshift).1).2] at hevents
      exact absurd (undone_of_type htype hevents hperm) hne
    · intro h
      have hnil : shift = [] := by
        by_contra hne
        exact h hne (by simp) rfl
      rw [hnil]
      exact fakesUndone_nil
  · rw [queuedBy_press hselect hshift hthree]
    exact iff_of_true (fakesUndone_press hshift hthree) fun _ _ => by simp

end Keyboard

namespace Keyboard

/-! ## A layout with level three -/

def fourLevel : KeyType where
  mask := 0x81
  map := [⟨true, 1, 0x01, 0⟩, ⟨true, 2, 0x80, 0⟩, ⟨true, 3, 0x81, 0⟩]

/-- The keys Q, Shift and AltGr, with level three locked. -/
def lockedLevelThree : Master where
  xkb := {
    minKeyCode := 8
    maxKeyCode := 255
    hasNames := true
    key := fun code =>
      if code = 24 then
        { plainKey 0x71 0x51 none with
          width := 4
          types := fun _ => fourLevel
          syms := fun column => [0x71, 0x51, 0x40, 0x7d9].getD column noSymbol }
      else if code = 50 then plainKey 0xffe1 0xffe1 (some 1)
      else if code = 108 then plainKey xkISOLevel3Shift xkISOLevel3Shift (some 0x80)
      else unusedKey }
  state := 0x80
  isDown _ := false

/-- For a capital Q Shift is pressed, and then no key is held that could be released. -/
theorem locked_level_three_sticks :
    ¬∀ (s : Keyboard) (keysym : KeySym), FakesUndone (@queuedBy plainServer s keysym) := by
  intro h
  have hundone := (h (start lockedLevelThree) 0x51).undone
  rw [show @queuedBy plainServer (start lockedLevelThree) 0x51 = [⟨.keyPress, 50, .tempShift⟩] by
    decide +kernel] at hundone
  obtain ⟨before, after, hevents, hperm⟩ := hundone
  have hnil := @undone_of_type _ _ _ .keyPress (by simp) hevents hperm
  cases hnil

end Keyboard

end XoDos.Xkb
