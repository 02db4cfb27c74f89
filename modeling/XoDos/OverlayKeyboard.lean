import XoDos.Run

/-!
# The keyboard of the overlay

`Keyboard` remembers which keys are held and the modifiers among them, and tells its listeners.  Two
keys share the bit of a modifier, and the keys of the locks change with every press.

The listeners are told the same, in an order that does not matter.
-/

namespace XoDos

namespace OverlayKeyboard

/-- The id of an `XKeycode`. -/
abbrev Keycode := BitVec 8

def keyShiftL : Keycode := 50

def keyShiftR : Keycode := 62

def keyCtrlL : Keycode := 37

def keyCtrlR : Keycode := 105

def keyAltL : Keycode := 64

def keyAltR : Keycode := 108

def keyCapsLock : Keycode := 66

def keyNumLock : Keycode := 77

def isModifier (keycode : Keycode) : Bool :=
  keycode = keyShiftL || keycode = keyShiftR || keycode = keyCtrlL || keycode = keyCtrlR ||
    keycode = keyAltL || keycode = keyAltR || keycode = keyCapsLock || keycode = keyNumLock

def getModifierFlag (keycode : Keycode) : BitVec 32 :=
  if keycode = keyShiftL ∨ keycode = keyShiftR then 1
  else if keycode = keyCapsLock then 2
  else if keycode = keyCtrlL ∨ keycode = keyCtrlR then 4
  else if keycode = keyAltL ∨ keycode = keyAltR then 8
  else if keycode = keyNumLock then 16
  else 0

def isModifierSticky (keycode : Keycode) : Bool := keycode = keyCapsLock || keycode = keyNumLock

/-- What the listeners are told. -/
inductive Notification where
  | keyPress (keycode : Keycode) (keysym : BitVec 32)
  | keyRelease (keycode : Keycode)
  deriving DecidableEq

namespace Notification

def keycode : Notification → Keycode
  | keyPress keycode _ => keycode
  | keyRelease keycode => keycode

def isPress : Notification → Bool
  | keyPress .. => true
  | keyRelease _ => false

end Notification

/-- `Bitmask.isSet` -/
def isSet (bits flag : BitVec 32) : Bool := flag &&& bits ≠ 0

end OverlayKeyboard

open OverlayKeyboard in
structure OverlayKeyboard where
  modifiersMask : BitVec 32
  pressedKeys : Finset Keycode
  notified : List Notification

namespace OverlayKeyboard

def new : OverlayKeyboard := ⟨0, ∅, []⟩

variable (s : OverlayKeyboard)

/-- The key is added and the listeners are told. -/
def add (mask : BitVec 32) (keycode : Keycode) (keysym : BitVec 32) : OverlayKeyboard where
  modifiersMask := mask
  pressedKeys := insert keycode s.pressedKeys
  notified := s.notified ++ [.keyPress keycode keysym]

def remove (mask : BitVec 32) (keycode : Keycode) : OverlayKeyboard where
  modifiersMask := mask
  pressedKeys := s.pressedKeys.erase keycode
  notified := s.notified ++ [.keyRelease keycode]

def set (flag : BitVec 32) : BitVec 32 := s.modifiersMask ||| flag

def unset (flag : BitVec 32) : BitVec 32 := s.modifiersMask &&& ~~~flag

def setKeyPress (keycode : Keycode) (keysym : BitVec 32) : OverlayKeyboard :=
  if isModifierSticky keycode then
    if keycode ∈ s.pressedKeys then s.remove (s.unset (getModifierFlag keycode)) keycode
    else s.add (s.set (getModifierFlag keycode)) keycode keysym
  else if keycode ∉ s.pressedKeys then
    s.add (if isModifier keycode then s.set (getModifierFlag keycode) else s.modifiersMask) keycode
      keysym
  else s

def setKeyRelease (keycode : Keycode) : OverlayKeyboard :=
  if !isModifierSticky keycode ∧ keycode ∈ s.pressedKeys then
    s.remove (if isModifier keycode then s.unset (getModifierFlag keycode) else s.modifiersMask) keycode
  else s

inductive Call where
  | press (keycode : Keycode) (keysym : BitVec 32)
  | release (keycode : Keycode)

def step : Call → OverlayKeyboard
  | .press keycode keysym => s.setKeyPress keycode keysym
  | .release keycode => s.setKeyRelease keycode

/-! ## What the state says -/

/-- What the listeners were told about a key: presses and releases. -/
def told (k : Keycode) : List Bool :=
  s.notified.filterMap fun n => if n.keycode = k then some n.isPress else none

/-- Presses and releases in turn, the first a press. -/
def Alternates (l : List Bool) : Prop := ∀ i b, l[i]? = some b → (b = true ↔ i % 2 = 0)

/-- The keys that are held are those that were pressed last. -/
structure KeysAgree : Prop where
  alternates : ∀ k, Alternates (s.told k)
  pressed : ∀ k, k ∈ s.pressedKeys ↔ (s.told k).getLast? = some true

/-- A modifier is set exactly if one of its keys is held. -/
def MaskAgrees : Prop :=
  ∀ k, isModifier k = true → (isSet s.modifiersMask (getModifierFlag k) = true ↔
    ∃ k' ∈ s.pressedKeys, isModifier k' = true ∧ getModifierFlag k' = getModifierFlag k)

structure Consistent : Prop where
  keys : s.KeysAgree
  mask : s.MaskAgrees

/-- No key of a modifier is released while the other one is held. -/
def LastOfModifier : Call → Prop
  | .press .. => True
  | .release k => k ∈ s.pressedKeys → isModifier k = true → ∀ k' ∈ s.pressedKeys, k' ≠ k →
    getModifierFlag k' ≠ getModifierFlag k

/-- The mask with the modifier of a key. -/
def maskWith (k : Keycode) : BitVec 32 :=
  if isModifier k then s.set (getModifierFlag k) else s.modifiersMask

/-- The mask without the modifier of a key. -/
def maskWithout (k : Keycode) : BitVec 32 :=
  if isModifier k then s.unset (getModifierFlag k) else s.modifiersMask

theorem isModifier_of_sticky : ∀ k, isModifierSticky k = true → isModifier k = true := by decide

/-- A call adds a key, takes one away, or changes nothing. -/
theorem step_cases (call : Call) :
    s.step call = s ∨
    (∃ k keysym, call = .press k keysym ∧ k ∉ s.pressedKeys ∧
      s.step call = s.add (s.maskWith k) k keysym) ∨
    (∃ k, (call = .release k ∨ isModifierSticky k = true) ∧ k ∈ s.pressedKeys ∧
      s.step call = s.remove (s.maskWithout k) k) := by
  cases call with
  | press k keysym =>
    unfold step setKeyPress maskWith maskWithout
    dsimp only
    by_cases hsticky : isModifierSticky k = true
    · have hmodifier := isModifier_of_sticky k hsticky
      rw [if_pos hsticky]
      by_cases hk : k ∈ s.pressedKeys
      · rw [if_pos hk]
        exact .inr (.inr ⟨k, .inr hsticky, hk, by rw [if_pos hmodifier]⟩)
      · rw [if_neg hk]
        exact .inr (.inl ⟨k, keysym, rfl, hk, by rw [if_pos hmodifier]⟩)
    · rw [if_neg hsticky]
      by_cases hk : k ∈ s.pressedKeys
      · rw [if_neg (not_not_intro hk)]
        exact .inl rfl
      · rw [if_pos hk]
        exact .inr (.inl ⟨k, keysym, rfl, hk, rfl⟩)
  | release k =>
    unfold step setKeyRelease maskWithout
    dsimp only
    by_cases hk : (!isModifierSticky k) = true ∧ k ∈ s.pressedKeys
    · rw [if_pos hk]
      exact .inr (.inr ⟨k, .inl rfl, hk.2, rfl⟩)
    · rw [if_neg hk]
      exact .inl rfl

/-- A key that is pressed is held then, unless it is of a lock and was held before. -/
theorem mem_setKeyPress {k k' : Keycode} {keysym : BitVec 32} :
    k' ∈ (s.setKeyPress k keysym).pressedKeys ↔
      if k' = k then isModifierSticky k = true → k ∉ s.pressedKeys else k' ∈ s.pressedKeys := by
  by_cases hsticky : isModifierSticky k = true
  · by_cases hk : k ∈ s.pressedKeys
    · rw [setKeyPress, if_pos hsticky, if_pos hk, remove, Finset.mem_erase]
      grind
    · rw [setKeyPress, if_pos hsticky, if_neg hk, add, Finset.mem_insert]
      grind
  · by_cases hk : k ∈ s.pressedKeys
    · rw [setKeyPress, if_neg hsticky, if_neg (not_not_intro hk)]
      grind
    · rw [setKeyPress, if_neg hsticky, if_pos hk, add, Finset.mem_insert]
      grind

/-- A key that is released is held only if it is of a lock and was held before. -/
theorem mem_setKeyRelease {k k' : Keycode} :
    k' ∈ (s.setKeyRelease k).pressedKeys ↔
      k' ∈ s.pressedKeys ∧ (k' = k → isModifierSticky k = true) := by
  by_cases hk : (!isModifierSticky k) = true ∧ k ∈ s.pressedKeys
  · rw [setKeyRelease, if_pos hk, remove, Finset.mem_erase]
    grind
  · rw [setKeyRelease, if_neg hk]
    grind

/-! ## The listeners -/

section Keys

variable {s : OverlayKeyboard} {mask : BitVec 32} {k keycode : Keycode} {keysym : BitVec 32}

theorem told_add : (s.add mask keycode keysym).told k =
    s.told k ++ if keycode = k then [true] else [] := by
  unfold told add
  rw [List.filterMap_append]
  congr 1
  by_cases h : keycode = k <;> simp [Notification.keycode, Notification.isPress, h]

theorem told_remove : (s.remove mask keycode).told k =
    s.told k ++ if keycode = k then [false] else [] := by
  unfold told remove
  rw [List.filterMap_append]
  congr 1
  by_cases h : keycode = k <;> simp [Notification.keycode, Notification.isPress, h]

theorem Alternates.append {l : List Bool} {b : Bool} (h : Alternates l)
    (hb : b = true ↔ l.length % 2 = 0) : Alternates (l ++ [b]) := by
  intro i c hc
  rcases Nat.lt_trichotomy i l.length with hi | hi | hi
  · rw [List.getElem?_append_left hi] at hc
    exact h i c hc
  · rw [hi, List.getElem?_concat_length] at hc
    cases hc
    rw [hi]
    exact hb
  · rw [List.getElem?_eq_none (by simp; omega)] at hc
    cases hc

theorem Alternates.getLast?_iff {l : List Bool} (h : Alternates l) :
    l.getLast? = some true ↔ l.length % 2 = 1 := by
  rw [List.getLast?_eq_getElem?]
  cases l with
  | nil => simp
  | cons b l =>
    have hlt : (b :: l).length - 1 < (b :: l).length := by simp
    rw [List.getElem?_eq_getElem hlt, Option.some_inj,
      h _ _ (List.getElem?_eq_getElem hlt), List.length_cons]
    omega

/-- The same with the number of notifications. -/
def Counted (s : OverlayKeyboard) : Prop :=
  ∀ k, Alternates (s.told k) ∧ (k ∈ s.pressedKeys ↔ (s.told k).length % 2 = 1)

theorem Counted.add (h : s.Counted) (hk : keycode ∉ s.pressedKeys) :
    (s.add mask keycode keysym).Counted := by
  intro k
  obtain ⟨halternates, hpressed⟩ := h k
  rw [told_add]
  by_cases heq : keycode = k
  · rw [heq] at hk
    have heven : (s.told k).length % 2 = 0 := by
      have hnot : ¬(s.told k).length % 2 = 1 := fun hodd => hk (hpressed.mpr hodd)
      omega
    rw [if_pos heq, List.length_append, List.length_singleton]
    apply And.intro (halternates.append (by simp [heven]))
    apply iff_of_true
    · rw [heq]
      exact Finset.mem_insert_self k _
    · omega
  · rw [if_neg heq, List.append_nil, ← hpressed]
    exact ⟨halternates, Finset.mem_insert.trans (or_iff_right (Ne.symm heq))⟩

theorem Counted.remove (h : s.Counted) (hk : keycode ∈ s.pressedKeys) :
    (s.remove mask keycode).Counted := by
  intro k
  obtain ⟨halternates, hpressed⟩ := h k
  rw [told_remove]
  by_cases heq : keycode = k
  · rw [heq] at hk
    have hodd := hpressed.mp hk
    rw [if_pos heq, List.length_append, List.length_singleton]
    apply And.intro (halternates.append (by simp [hodd]))
    apply iff_of_false
    · rw [heq]
      exact Finset.notMem_erase k _
    · omega
  · rw [if_neg heq, List.append_nil, ← hpressed]
    exact ⟨halternates, Finset.mem_erase.trans (and_iff_right (Ne.symm heq))⟩

theorem Counted.step (h : s.Counted) (call : Call) : (s.step call).Counted := by
  rcases step_cases s call with hsame | ⟨k, keysym, -, hk, hadd⟩ | ⟨k, -, hk, hremove⟩
  · rw [hsame]
    exact h
  · rw [hadd]
    exact h.add hk
  · rw [hremove]
    exact h.remove hk

theorem Counted.keysAgree (h : s.Counted) : s.KeysAgree :=
  ⟨fun k => (h k).1, fun k => (h k).2.trans (h k).1.getLast?_iff.symm⟩

theorem new_counted : new.Counted := by
  intro k
  exact ⟨nofun, by simp [new, told]⟩

end Keys

/-! ## The mask -/

section Mask

variable {s : OverlayKeyboard} {k k' : Keycode} {keysym : BitVec 32}

/-- The bit of a modifier. -/
def modifierBit (k : Keycode) : Nat :=
  if k = keyShiftL ∨ k = keyShiftR then 0
  else if k = keyCapsLock then 1
  else if k = keyCtrlL ∨ k = keyCtrlR then 2
  else if k = keyAltL ∨ k = keyAltR then 3
  else 4

theorem flag_eq : ∀ k, isModifier k = true → getModifierFlag k = BitVec.twoPow 32 (modifierBit k) := by
  decide

theorem isModifier_iff : ∀ k, isModifier k = true ↔ getModifierFlag k ≠ 0 := by decide

theorem modifierBit_lt : ∀ k, modifierBit k < 32 := by decide

theorem flag_injective (h : isModifier k = true) (h' : isModifier k' = true) :
    getModifierFlag k' = getModifierFlag k ↔ modifierBit k' = modifierBit k := by
  rw [flag_eq k h, flag_eq k' h']
  constructor
  · intro heq
    have hbit := congrArg (BitVec.getLsbD · (modifierBit k')) heq
    simpa [BitVec.getLsbD_twoPow, modifierBit_lt] using hbit
  · intro heq
    rw [heq]

theorem isSet_flag (bits : BitVec 32) (h : isModifier k = true) :
    isSet bits (getModifierFlag k) = bits.getLsbD (modifierBit k) := by
  unfold isSet
  rw [flag_eq k h, BitVec.and_comm, BitVec.and_twoPow]
  cases hbit : bits.getLsbD (modifierBit k) with
  | false => simp
  | true =>
    have hne : BitVec.twoPow 32 (modifierBit k) ≠ 0 := by
      intro hzero
      have hlsb := congrArg (BitVec.getLsbD · (modifierBit k)) hzero
      simp [modifierBit_lt] at hlsb
    simpa using hne

/-- Adding a flag. -/
theorem isSet_set (h : isModifier k = true) (h' : isModifier k' = true) :
    isSet (s.set (getModifierFlag k')) (getModifierFlag k) = true ↔
      isSet s.modifiersMask (getModifierFlag k) = true ∨ getModifierFlag k' = getModifierFlag k := by
  rw [isSet_flag _ h, isSet_flag _ h, flag_injective h h', set, BitVec.getLsbD_or, flag_eq k' h',
    Bool.or_eq_true, BitVec.getLsbD_twoPow]
  simp [modifierBit_lt]

/-- Taking a flag away. -/
theorem isSet_unset (h : isModifier k = true) (h' : isModifier k' = true) :
    isSet (s.unset (getModifierFlag k')) (getModifierFlag k) = true ↔
      isSet s.modifiersMask (getModifierFlag k) = true ∧ getModifierFlag k' ≠ getModifierFlag k := by
  rw [isSet_flag _ h, isSet_flag _ h, Ne, flag_injective h h', unset, BitVec.getLsbD_and,
    BitVec.getLsbD_not, flag_eq k' h', Bool.and_eq_true, BitVec.getLsbD_twoPow]
  simp [modifierBit_lt]

/-- No other key has the modifier of a lock. -/
theorem sticky_alone : ∀ k, isModifierSticky k = true → ∀ k', isModifier k' = true →
    getModifierFlag k' = getModifierFlag k → k' = k := by
  decide

theorem MaskAgrees.add (h : s.MaskAgrees) : (s.add (s.maskWith k) k keysym).MaskAgrees := by
  intro m hm
  have hold := h m hm
  simp only [OverlayKeyboard.add, Finset.mem_insert, exists_eq_or_imp]
  unfold maskWith
  by_cases hk : isModifier k = true
  · rw [if_pos hk, isSet_set hm hk, hold, or_comm]
    exact or_congr_left (and_iff_right hk).symm
  · rw [if_neg hk, hold]
    exact (or_iff_right fun hand => hk hand.1).symm

/-- The modifier of a key that goes stays right exactly if no other key that is held has it. -/
theorem maskAgrees_remove_iff (h : s.MaskAgrees) (hk : k ∈ s.pressedKeys) :
    (s.remove (s.maskWithout k) k).MaskAgrees ↔
      (isModifier k = true → ∀ k' ∈ s.pressedKeys, k' ≠ k →
        getModifierFlag k' ≠ getModifierFlag k) := by
  constructor
  · intro hafter hmodifier k' hk' hne hflag
    have hmodifier' : isModifier k' = true := by
      rw [isModifier_iff, hflag, ← isModifier_iff]
      exact hmodifier
    have hset := (hafter k hmodifier).mpr ⟨k', Finset.mem_erase.mpr ⟨hne, hk'⟩, hmodifier', hflag⟩
    rw [OverlayKeyboard.remove, maskWithout, if_pos hmodifier] at hset
    exact ((isSet_unset hmodifier hmodifier).mp hset).2 rfl
  · intro halone m hm
    have hold := h m hm
    simp only [OverlayKeyboard.remove, Finset.mem_erase]
    unfold maskWithout
    by_cases hmodifier : isModifier k = true
    · rw [if_pos hmodifier, isSet_unset hm hmodifier, hold]
      constructor
      · rintro ⟨⟨k', hk', hm', hflag⟩, hne⟩
        exact ⟨k', ⟨by rintro rfl; exact hne hflag, hk'⟩, hm', hflag⟩
      · rintro ⟨k', ⟨hne, hk'⟩, hm', hflag⟩
        exact ⟨⟨k', hk', hm', hflag⟩, fun heq => halone hmodifier k' hk' hne (hflag.trans heq.symm)⟩
    · rw [if_neg hmodifier, hold]
      constructor
      · rintro ⟨k', hk', hm', hflag⟩
        exact ⟨k', ⟨by rintro rfl; exact hmodifier hm', hk'⟩, hm', hflag⟩
      · rintro ⟨k', ⟨-, hk'⟩, hm', hflag⟩
        exact ⟨k', hk', hm', hflag⟩

theorem maskAgrees_step_iff (h : s.MaskAgrees) (call : Call) :
    (s.step call).MaskAgrees ↔ s.LastOfModifier call := by
  have hsticky : ∀ k, isModifierSticky k = true → isModifier k = true → ∀ k' ∈ s.pressedKeys,
      k' ≠ k → getModifierFlag k' ≠ getModifierFlag k := by
    intro k hk hmodifier k' _ hne hflag
    apply hne
    apply sticky_alone k hk k' _ hflag
    rw [isModifier_iff, hflag, ← isModifier_iff]
    exact hmodifier
  cases call with
  | press k keysym =>
    apply iff_of_true _ trivial
    rcases step_cases s (.press k keysym) with hsame | ⟨k, keysym, -, -, hadd⟩ | ⟨k, hk, hmem, hremove⟩
    · rw [hsame]
      exact h
    · rw [hadd]
      exact h.add
    · rw [hremove, maskAgrees_remove_iff h hmem]
      exact hsticky k (hk.resolve_left nofun)
  | release k =>
    unfold step setKeyRelease
    dsimp only
    by_cases hk : (!isModifierSticky k) = true ∧ k ∈ s.pressedKeys
    · rw [if_pos hk]
      exact (maskAgrees_remove_iff h hk.2).trans (imp_iff_right hk.2).symm
    · rw [if_neg hk]
      apply iff_of_true h
      intro hmem
      apply hsticky k
      by_contra hnot
      exact hk ⟨by simpa using hnot, hmem⟩

end Mask

section Runs

variable {s : OverlayKeyboard}

theorem new_maskAgrees : new.MaskAgrees := by
  intro k _
  apply iff_of_false
  · simp [new, isSet]
  · rintro ⟨k', hk', -⟩
    exact absurd hk' (Finset.notMem_empty k')

/-- From a state in which all is right, it is right in every state on the way exactly if every call meets
the condition. -/
theorem consistent_along_iff (hkeys : s.Counted) (hmask : s.MaskAgrees) (calls : List Call) :
    (∀ front rest, calls = front ++ rest → (Run.after step s front).Consistent) ↔
      Run.Along step LastOfModifier s calls := by
  induction calls generalizing s with
  | nil =>
    apply iff_of_true _ trivial
    intro front rest h
    rw [(List.append_eq_nil_iff.mp h.symm).1]
    exact ⟨hkeys.keysAgree, hmask⟩
  | cons call calls ih =>
    constructor
    · intro h
      have hstep : (s.step call).MaskAgrees := (h [call] calls rfl).mask
      apply And.intro ((maskAgrees_step_iff hmask call).mp hstep)
      apply (ih (hkeys.step call) hstep).mp
      intro front rest hsplit
      exact h (call :: front) rest (by rw [hsplit, List.cons_append])
    · rintro ⟨hcall, hrest⟩ front rest h
      cases front with
      | nil => exact ⟨hkeys.keysAgree, hmask⟩
      | cons c front =>
        rw [List.cons_append, List.cons.injEq] at h
        rw [← h.1]
        exact (ih (hkeys.step call) ((maskAgrees_step_iff hmask call).mpr hcall)).mpr hrest front rest h.2

/-- In every run the listeners are told of each key in turn and the held keys are right; the mask is right
in every state exactly if no key of a modifier is released while the other one is held. -/
theorem keyboard_consistent_iff (calls : List Call) :
    (Run.after step new calls).KeysAgree ∧
      ((∀ front rest, calls = front ++ rest → (Run.after step new front).Consistent) ↔
        Run.Along step LastOfModifier new calls) := by
  have hkeys : (Run.after step new calls).Counted :=
    Run.after_invariant (fun s call (h : s.Counted) => h.step call) new_counted
  exact ⟨hkeys.keysAgree, consistent_along_iff new_counted new_maskAgrees calls⟩

/-- Both shift keys are pressed and one is released. -/
theorem shift_lost : ¬(Run.after step new
    [.press keyShiftL 0, .press keyShiftR 0, .release keyShiftL]).Consistent := by
  intro h
  have hset := (h.mask keyShiftR (by decide)).mpr ⟨keyShiftR, by decide, by decide, rfl⟩
  exact absurd hset (by decide)

end Runs

end OverlayKeyboard

end XoDos
