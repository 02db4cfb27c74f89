import XoDos.Keysym

/-!
# Looking for a keysym

`lorieKeysymToKeycode` tries the four states that differ from the given one in Shift and level three.
It finds a key whenever one of them has one, in a state with as few changes as possible.
-/

namespace XoDos.Xkb

/-! ## One state -/

namespace XkbDesc

variable {xkb : XkbDesc} {keysym : KeySym} {state : ModState} {code fallback : KeyCode}
  {codes : List KeyCode}

/-- Keycodes below 8 are not legal. -/
def Legal (xkb : XkbDesc) : Prop := 8 ≤ xkb.minKeyCode

theorem mem_keycodes : code ∈ xkb.keycodes ↔ xkb.inRange code = true := by
  have hcode := code.isLt
  simp only [keycodes, inRange, List.mem_map, List.mem_range', Bool.and_eq_true, decide_eq_true_eq,
    BitVec.le_def]
  constructor
  · rintro ⟨n, ⟨i, hi, rfl⟩, rfl⟩
    have hmax := xkb.maxKeyCode.isLt
    rw [BitVec.toNat_ofNat, Nat.mod_eq_of_lt (by omega)]
    omega
  · rintro ⟨hmin, hmax⟩
    exact ⟨code.toNat, ⟨code.toNat - xkb.minKeyCode.toNat, by omega, by omega⟩, by simp⟩

theorem Legal.ne_zero (h : xkb.Legal) (hcode : code ∈ xkb.keycodes) : code ≠ 0 := by
  rintro rfl
  have hrange := mem_keycodes.mp hcode
  simp only [inRange, Bool.and_eq_true, decide_eq_true_eq] at hrange
  have hle : (8 : KeyCode) ≤ 0 := BitVec.le_trans h hrange.1
  exact absurd hle (by decide)

section
variable [XServer]

/-- What the loop ends with is the fallback or a key that gives the keysym. -/
theorem scan_cases (xkb : XkbDesc) (keysym : KeySym) (state : ModState) (fallback : KeyCode)
    (codes : List KeyCode) :
    xkb.scan keysym state fallback codes = fallback ∨
      xkb.scan keysym state fallback codes ∈ codes ∧
        xkb.gives keysym state (xkb.scan keysym state fallback codes) = true := by
  induction codes generalizing fallback with
  | nil => exact .inl rfl
  | cons code rest ih =>
    rw [scan]
    split_ifs with hgives hfake hzero
    · rcases ih code with heq | h
      · rw [heq]
        exact .inr ⟨List.mem_cons_self, hgives⟩
      · exact .inr ⟨List.mem_cons_of_mem _ h.1, h.2⟩
    · exact (ih fallback).imp_right fun h => ⟨List.mem_cons_of_mem _ h.1, h.2⟩
    · exact .inr ⟨List.mem_cons_self, hgives⟩
    · exact (ih fallback).imp_right fun h => ⟨List.mem_cons_of_mem _ h.1, h.2⟩

/-- A loop that has a fallback does not end without a key. -/
theorem scan_ne_zero (hfallback : fallback ≠ 0) (hne : ∀ code ∈ codes, code ≠ 0) :
    xkb.scan keysym state fallback codes ≠ 0 := by
  rcases scan_cases xkb keysym state fallback codes with heq | ⟨hmem, -⟩
  · rwa [heq]
  · exact hne _ hmem

theorem scan_ne_zero_of_gives (hne : ∀ code ∈ codes, code ≠ 0) (hcode : code ∈ codes)
    (hgives : xkb.gives keysym state code = true) : xkb.scan keysym state fallback codes ≠ 0 := by
  induction codes generalizing fallback with
  | nil => cases hcode
  | cons c rest ih =>
    have hrest : ∀ code ∈ rest, code ≠ 0 := fun code hmem => hne code (List.mem_cons_of_mem _ hmem)
    have hc : c ≠ 0 := hne c List.mem_cons_self
    rw [scan]
    split_ifs with hnot hfake hzero
    · exact scan_ne_zero hc hrest
    · exact scan_ne_zero hzero hrest
    · exact hc
    · rcases List.mem_cons.mp hcode with rfl | hmem
      · exact absurd hgives hnot
      · exact ih hrest hmem

theorem keycodeIn_gives (h : xkb.keycodeIn keysym state ≠ 0) :
    xkb.inRange (xkb.keycodeIn keysym state) = true ∧
      xkb.gives keysym state (xkb.keycodeIn keysym state) = true := by
  rcases scan_cases xkb keysym state 0 xkb.keycodes with heq | ⟨hmem, hgives⟩
  · exact absurd heq h
  · exact ⟨mem_keycodes.mp hmem, hgives⟩

theorem Legal.not_gives (hlegal : xkb.Legal) (h : xkb.keycodeIn keysym state = 0) :
    ∀ code, xkb.inRange code = true → xkb.gives keysym state code = false := by
  intro code hrange
  by_contra hgives
  rw [Bool.not_eq_false] at hgives
  exact scan_ne_zero_of_gives (fun _ => hlegal.ne_zero) (mem_keycodes.mpr hrange) hgives h

end

end XkbDesc

/-! ## Four states -/

namespace Master

/-- The state with Shift, level three or both the other way round. -/
def combination (state levelThreeMask : ModState) (shift levelThree : Bool) : ModState :=
  (state &&& ~~~((if shift then shiftMask else 0) ||| (if levelThree then levelThreeMask else 0))) |||
    (if shift ∧ state &&& shiftMask = 0 then shiftMask else 0) |||
    (if levelThree ∧ state &&& levelThreeMask = 0 then levelThreeMask else 0)

/-- How many of the two are changed. -/
def changes (shift levelThree : Bool) : Nat := shift.toNat + levelThree.toNat

section Combinations

variable (state mask : ModState)

theorem combination_none : combination state mask false false = state := by
  have hones : state &&& 4294967295#32 = state := BitVec.and_allOnes
  simp [combination, hones]

theorem combination_shift : combination state mask true false = toggled state shiftMask := by
  unfold combination toggled
  by_cases h : state &&& shiftMask = 0 <;> simp [h]

theorem combination_levelThree : combination state mask false true = toggled state mask := by
  unfold combination toggled
  by_cases h : state &&& mask = 0 <;> simp [h]

theorem combination_both : combination state mask true true =
    (state &&& ~~~(shiftMask ||| mask)) ||| (if state &&& shiftMask ≠ 0 then 0 else shiftMask) |||
      (if state &&& mask ≠ 0 then 0 else mask) := by
  unfold combination
  by_cases h : state &&& shiftMask = 0 <;> by_cases h' : state &&& mask = 0 <;> simp [h, h']

theorem combination_zero (shift levelThree : Bool) :
    combination state 0 shift levelThree = combination state 0 shift false := by
  cases levelThree <;> simp [combination]

/-- Other modifiers stay as they are. -/
theorem combination_frame (shift levelThree : Bool) :
    combination state mask shift levelThree &&& ~~~(shiftMask ||| mask) =
      state &&& ~~~(shiftMask ||| mask) := by
  unfold combination
  apply BitVec.eq_of_getLsbD_eq
  intro i hi
  simp only [BitVec.getLsbD_and, BitVec.getLsbD_or, BitVec.getLsbD_not, hi, decide_true, Bool.true_and]
  cases hs : shiftMask.getLsbD i <;> cases hm : mask.getLsbD i <;> cases shift <;>
    cases levelThree <;> simp [hs, hm] <;> split_ifs <;> simp [hs, hm]

end Combinations

variable [XServer]

/-- A key gives the keysym in the combination. -/
def Yields (m : Master) (keysym : KeySym) (state : ModState) (shift levelThree : Bool) : Prop :=
  ∃ code, m.xkb.inRange code = true ∧
    m.xkb.gives keysym (combination state m.getLevelThreeMask shift levelThree) code = true

/-- The key gives the keysym in the new state, which has nothing but Shift and level three changed,
and not more of them than necessary. -/
structure Suits (m : Master) (keysym : KeySym) (state : ModState) (code : KeyCode)
    (newState : ModState) : Prop where
  ne_zero : code ≠ 0
  inRange : m.xkb.inRange code = true
  gives : m.xkb.gives keysym newState code = true
  frame : newState &&& ~~~(shiftMask ||| m.getLevelThreeMask) =
    state &&& ~~~(shiftMask ||| m.getLevelThreeMask)
  least : ∃ shift levelThree, newState = combination state m.getLevelThreeMask shift levelThree ∧
    ∀ shift' levelThree', m.Yields keysym state shift' levelThree' →
      changes shift levelThree ≤ changes shift' levelThree'

/-- What `lorieKeysymToKeycode` is to find. -/
structure Finds (m : Master) (keysym : KeySym) (state : ModState)
    (found : Option (KeyCode × ModState)) : Prop where
  sound : ∀ code newState, found = some (code, newState) → m.Suits keysym state code newState
  complete : found = none → ∀ shift levelThree, ¬m.Yields keysym state shift levelThree

variable {m : Master} {keysym : KeySym} {state : ModState}

/-- A combination that is tried in vain. -/
theorem not_yields (hlegal : m.xkb.Legal) {shift levelThree : Bool}
    (h : m.xkb.keycodeIn keysym (combination state m.getLevelThreeMask shift levelThree) = 0) :
    ¬m.Yields keysym state shift levelThree := by
  rintro ⟨code, hrange, hgives⟩
  rw [hlegal.not_gives h code hrange] at hgives
  cases hgives

/-- A combination with a key, when no combination with fewer changes has one. -/
theorem finds_combination {shift levelThree : Bool}
    (h : m.xkb.keycodeIn keysym (combination state m.getLevelThreeMask shift levelThree) ≠ 0)
    (hleast : ∀ shift' levelThree', m.Yields keysym state shift' levelThree' →
      changes shift levelThree ≤ changes shift' levelThree') :
    m.Finds keysym state
      (some (m.xkb.keycodeIn keysym (combination state m.getLevelThreeMask shift levelThree),
        combination state m.getLevelThreeMask shift levelThree)) := by
  obtain ⟨hrange, hgives⟩ := XkbDesc.keycodeIn_gives h
  constructor
  · rintro code newState heq
    cases heq
    exact ⟨h, hrange, hgives, combination_frame _ _ _ _, shift, levelThree, rfl, hleast⟩
  · intro hnone
    cases hnone

/-- Without a level three modifier, changing it changes nothing. -/
theorem yields_of_zero (hmask : m.getLevelThreeMask = 0) (shift levelThree : Bool) :
    m.Yields keysym state shift levelThree ↔ m.Yields keysym state shift false := by
  rw [Yields, Yields, hmask, combination_zero]

/-- The lookup in one combination. -/
def attempt (m : Master) (keysym : KeySym) (newState : ModState) : Option (KeyCode × ModState) :=
  if m.xkb.keycodeIn keysym newState = 0 then none
  else some (m.xkb.keycodeIn keysym newState, newState)

theorem keysymToKeycode_eq (m : Master) (keysym : KeySym) (state : ModState) :
    m.keysymToKeycode keysym state =
      ([combination state m.getLevelThreeMask false false,
          combination state m.getLevelThreeMask true false] ++
        if m.getLevelThreeMask = 0 then []
        else
          [combination state m.getLevelThreeMask false true,
            combination state m.getLevelThreeMask true true]).findSome? (m.attempt keysym) := by
  rw [combination_none, combination_shift, combination_levelThree, combination_both]
  rfl

theorem attempt_eq_none {newState : ModState} :
    m.attempt keysym newState = none ↔ m.xkb.keycodeIn keysym newState = 0 := by
  unfold attempt
  split_ifs with h
  · exact iff_of_true rfl h
  · exact iff_of_false (by simp) h

/-- `lorieKeysymToKeycode` finds a key in one of the four states if there is one, with as few changes
as possible. -/
theorem keysymToKeycode_finds (m : Master) (hlegal : m.xkb.Legal) (keysym : KeySym)
    (state : ModState) : m.Finds keysym state (m.keysymToKeycode keysym state) := by
  rw [keysymToKeycode_eq, List.findSome?_append]
  -- The combinations are tried in the order of their cost, so the first that yields is the least.
  by_cases h₀ : m.xkb.keycodeIn keysym (combination state m.getLevelThreeMask false false) = 0
  swap
  · rw [List.findSome?_cons, attempt, if_neg h₀]
    exact finds_combination h₀ fun _ _ _ => Nat.zero_le _
  have hno₀ := not_yields hlegal h₀
  by_cases h₁ : m.xkb.keycodeIn keysym (combination state m.getLevelThreeMask true false) = 0
  swap
  · rw [List.findSome?_cons, attempt_eq_none.mpr h₀, List.findSome?_cons, attempt, if_neg h₁]
    refine finds_combination h₁ fun shift levelThree hyields => ?_
    cases shift <;> cases levelThree
    · exact absurd hyields hno₀
    all_goals decide
  have hno₁ := not_yields hlegal h₁
  rw [List.findSome?_cons, attempt_eq_none.mpr h₀, List.findSome?_cons, attempt_eq_none.mpr h₁,
    List.findSome?_nil, Option.none_or]
  -- Without a key for the third level its mask is empty, and two combinations are all there are.
  by_cases hmask : m.getLevelThreeMask = 0
  · rw [if_pos hmask]
    refine ⟨fun _ _ h => (by cases h), fun _ => ?_⟩
    rintro (_ | _) levelThree
    · rwa [yields_of_zero hmask]
    · rwa [yields_of_zero hmask]
  rw [if_neg hmask]
  by_cases h₂ : m.xkb.keycodeIn keysym (combination state m.getLevelThreeMask false true) = 0
  swap
  · rw [List.findSome?_cons, attempt, if_neg h₂]
    refine finds_combination h₂ fun shift levelThree hyields => ?_
    cases shift <;> cases levelThree
    · exact absurd hyields hno₀
    all_goals decide
  have hno₂ := not_yields hlegal h₂
  by_cases h₃ : m.xkb.keycodeIn keysym (combination state m.getLevelThreeMask true true) = 0
  swap
  · rw [List.findSome?_cons, attempt_eq_none.mpr h₂, List.findSome?_cons, attempt, if_neg h₃]
    refine finds_combination h₃ fun shift levelThree hyields => ?_
    cases shift <;> cases levelThree
    · exact absurd hyields hno₀
    · exact absurd hyields hno₂
    · exact absurd hyields hno₁
    · decide
  have hno₃ := not_yields hlegal h₃
  rw [List.findSome?_cons, attempt_eq_none.mpr h₂, List.findSome?_cons, attempt_eq_none.mpr h₃,
    List.findSome?_nil]
  refine ⟨fun _ _ h => (by cases h), fun _ => ?_⟩
  rintro (_ | _) (_ | _)
  · exact hno₀
  · exact hno₂
  · exact hno₁
  · exact hno₃

omit [XServer] in
/-- The greater sign needs Shift on the key between Shift and Z. -/
theorem keysymToKeycode_finds_greater :
    @Finds Keyboard.plainServer Keyboard.pc105 0x3e 0 (some (94, 1)) := by
  have hfound : @keysymToKeycode Keyboard.plainServer Keyboard.pc105 0x3e 0 = some (94, 1) := by decide +kernel
  have hfinds := @keysymToKeycode_finds Keyboard.plainServer Keyboard.pc105 (by unfold XkbDesc.Legal; decide)
    0x3e 0
  rwa [hfound] at hfinds

end Master

end XoDos.Xkb
