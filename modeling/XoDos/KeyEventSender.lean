import XoDos.Ime
import XoDos.Run

/-!
# Keys that are sent on

`InputEventSender.sendKeyEvent` sends what is typed as text or as keys, and decides for every event
which.  It remembers by key code which keys were sent.

The keycode of X is computed by the native `sendKeyEvent`.
-/

namespace XoDos.KeyEventSender

/-! ## Events -/

inductive KeyAction where
  | down
  | up
  | multiple
deriving DecidableEq

def KEYCODE_2 : Int := 9
def KEYCODE_3 : Int := 10
def KEYCODE_8 : Int := 15
def KEYCODE_STAR : Int := 17
def KEYCODE_POUND : Int := 18
def KEYCODE_ALT_RIGHT : Int := 58
def KEYCODE_SHIFT_LEFT : Int := 59
def KEYCODE_ENTER : Int := 66
def KEYCODE_EQUALS : Int := 70
def KEYCODE_AT : Int := 77
def KEYCODE_PLUS : Int := 81

def META_ALT_ON : BitVec 32 := 0x02
def META_ALT_RIGHT_ON : BitVec 32 := 0x20
def META_CTRL_ON : BitVec 32 := 0x1000
def META_META_ON : BitVec 32 := 0x10000

/-- An event of Android, with the key of the keyboard that it is of. -/
structure KeyEvent where
  key : Nat
  action : KeyAction
  /-- `FLAG_CANCELED` is set. -/
  canceled : Bool
  keyCode : Int
  metaState : BitVec 32
  characters : Option JavaString
  unicodeChar : Int
  scanCode : Int
  repeatCount : Int
deriving DecidableEq

namespace KeyEvent

variable (e : KeyEvent)

def pressed : Bool := e.action = .down

def isAltPressed : Bool := e.metaState &&& META_ALT_ON ≠ 0
def isCtrlPressed : Bool := e.metaState &&& META_CTRL_ON ≠ 0
def isMetaPressed : Bool := e.metaState &&& META_META_ON ≠ 0

/-- AltGr -/
def altRight : Bool := e.metaState &&& META_ALT_RIGHT_ON ≠ 0

def no_modifiers : Bool :=
  (!e.isAltPressed && !e.isCtrlPressed && !e.isMetaPressed) ||
    (e.altRight && (e.characters.isSome || e.unicodeChar ≠ 0))

/-- `(char) getUnicodeChar()` -/
def unicodeUnit : Nat := (e.unicodeChar % 0x10000).toNat

def unicode : Nat := if e.keyCode ≠ KEYCODE_ENTER then e.unicodeUnit else 0

def scancode (preferScancodes : Bool) : Int :=
  if preferScancodes || !e.no_modifiers then e.scanCode else 0

end KeyEvent

/-- The keys that have a character of their own, with the key that it is typed by. -/
def chars : List (Int × Nat × Int) :=
  [(KEYCODE_AT, 0x40, KEYCODE_2), (KEYCODE_POUND, 0x23, KEYCODE_3), (KEYCODE_STAR, 0x2A, KEYCODE_8),
    (KEYCODE_PLUS, 0x2B, KEYCODE_EQUALS)]

/-- The key by which such a key is sent, together with shift. -/
def KeyEvent.replaced (e : KeyEvent) : Option Int :=
  (chars.find? fun i => e.keyCode = i.1 ∧
    (e.characters = some [i.2.1] ∨ e.unicodeChar = i.2.1)).map fun i => i.2.2

/-! ## The sender -/

/-- What `mInjector` is called for. -/
inductive Call where
  | sendKeyEvent (scanCode keyCode : Int) (keyDown : Bool)
  | sendTextEvent (text : List Nat)
deriving DecidableEq

structure Sender where
  preferScancodes : Bool
  mPressedTextKeys : Finset Int
  mPressedKeys : Finset Int

/-- A press that is sent as text. -/
def Sender.isText (s : Sender) (e : KeyEvent) : Bool :=
  !s.preferScancodes && e.pressed && e.unicode ≠ 0 && e.no_modifiers

/-- The release of a key that was sent as text. -/
def Sender.isTextUp (s : Sender) (e : KeyEvent) : Bool :=
  !s.preferScancodes && !e.pressed && e.keyCode ∈ s.mPressedTextKeys

/-- A repetition of a key that is known to be pressed. -/
def Sender.isRepeat (s : Sender) (e : KeyEvent) : Bool :=
  0 < e.repeatCount && e.keyCode ∈ s.mPressedKeys

def Sender.sendKeyEvent (s : Sender) (e : KeyEvent) : Sender × List Call :=
  if e.canceled then (s, [])
  else if e.action = .multiple then
    match e.characters with
    | some characters => (s, [.sendTextEvent (getBytes characters)])
    | none =>
      (s, if e.unicodeChar ≠ 0 then [.sendTextEvent (getBytes [e.unicodeUnit])] else [])
  else if s.isText e then
    ({ s with mPressedTextKeys := insert e.keyCode s.mPressedTextKeys },
      -- For layouts with AltGr
      if e.altRight then
        [.sendKeyEvent 0 KEYCODE_ALT_RIGHT false, .sendTextEvent (getBytes [e.unicode]),
          .sendKeyEvent 0 KEYCODE_ALT_RIGHT true]
      else [.sendTextEvent (getBytes [e.unicode])])
  else if s.isTextUp e then
    ({ s with mPressedTextKeys := s.mPressedTextKeys.erase e.keyCode }, [])
  else
    match e.replaced with
    | some key =>
      (s, [.sendKeyEvent 0 KEYCODE_SHIFT_LEFT e.pressed, .sendKeyEvent 0 key e.pressed])
    | none =>
      if s.isRepeat e then (s, [])
      else
        ({ s with mPressedKeys :=
            if e.pressed then insert e.keyCode s.mPressedKeys else s.mPressedKeys.erase e.keyCode },
          [.sendKeyEvent (e.scancode s.preferScancodes) e.keyCode e.pressed])

/-! ## The keys of X -/

abbrev XKeycode := BitVec 16

/-- `android_to_linux_keycode`, with some of its entries. -/
structure KeycodeTable where
  code : Int → Int
  code_2 : code KEYCODE_2 = 3
  code_3 : code KEYCODE_3 = 4
  code_8 : code KEYCODE_8 = 9
  code_equals : code KEYCODE_EQUALS = 13
  code_shift_left : code KEYCODE_SHIFT_LEFT = 42

variable (table : KeycodeTable)

/-- The native `sendKeyEvent` -/
def KeycodeTable.keycode (scan_code key_code : Int) : XKeycode :=
  BitVec.ofInt 16 ((if scan_code ≠ 0 then scan_code else table.code key_code) + 8)

def KeycodeTable.shift : XKeycode := table.keycode 0 KEYCODE_SHIFT_LEFT

def KeycodeTable.altRight : XKeycode := table.keycode 0 KEYCODE_ALT_RIGHT

/-- The keycodes that are pressed, each with the keys of the keyboard that have it pressed. -/
structure Keys where
  held : List (XKeycode × Nat)
  /-- A keycode was released that was not pressed. -/
  stray : Bool

namespace Keys

def Pressed (held : List (XKeycode × Nat)) (c : XKeycode) : Prop := ∃ k, (c, k) ∈ held

instance (held : List (XKeycode × Nat)) (c : XKeycode) : Decidable (Pressed held c) :=
  decidable_of_iff (∃ h ∈ held, h.1 = c)
    ⟨fun ⟨h, hh, hc⟩ => ⟨h.2, hc ▸ hh⟩, fun ⟨k, hk⟩ => ⟨(c, k), hk, rfl⟩⟩

/-- What a call does to the keys.  A keycode that the event has released before is given back to those
that had it pressed. -/
def call (key : Nat) (before : List (XKeycode × Nat)) (keys : Keys) : Call → Keys
  | .sendTextEvent _ => keys
  | .sendKeyEvent scanCode keyCode true =>
    let c := table.keycode scanCode keyCode
    if Pressed before c ∧ ¬Pressed keys.held c then
      { keys with held := before.filter (fun h => h.1 = c) ++ keys.held }
    else { keys with held := (c, key) :: keys.held }
  | .sendKeyEvent scanCode keyCode false =>
    let c := table.keycode scanCode keyCode
    { held := keys.held.filter (fun h => h.1 ≠ c)
      stray := keys.stray || !decide (Pressed keys.held c) }

end Keys

/-! ## Runs -/

/-- How a key that is down was sent when it went down. -/
inductive How where
  | up
  | text
  /-- Together with shift. -/
  | replaced (key : Int)
  | key (c : XKeycode)
deriving DecidableEq

structure State where
  sender : Sender
  keys : Keys
  how : Nat → How

/-- The keycodes that a key has pressed. -/
def How.codes : How → List XKeycode
  | .up | .text => []
  | .replaced code => [table.shift, table.keycode 0 code]
  | .key c => [c]

namespace State

variable {table} (s : State) (e : KeyEvent)

def start (preferScancodes : Bool) : State where
  sender := ⟨preferScancodes, ∅, ∅⟩
  keys := ⟨[], false⟩
  how _ := .up

/-- How an event is sent that is not ignored. -/
def route (table : KeycodeTable) : How :=
  if s.sender.isText e || s.sender.isTextUp e then .text
  else
    match e.replaced with
    | some key => .replaced key
    | none => .key (table.keycode (e.scancode s.sender.preferScancodes) e.keyCode)

/-- Android's repetition of a key is not sent. -/
def ignored : Bool :=
  !(s.sender.isText e || s.sender.isTextUp e) && e.replaced.isNone && s.sender.isRepeat e

def step (table : KeycodeTable) (s : State) (e : KeyEvent) : State where
  sender := (s.sender.sendKeyEvent e).1
  keys := (s.sender.sendKeyEvent e).2.foldl (Keys.call table e.key s.keys.held) s.keys
  how := Function.update s.how e.key
    (if e.action = .up then .up
    else if s.how e.key = .up then s.route e table else s.how e.key)

/-- A key goes down, is repeated, and goes up. -/
structure Typed (s : State) (e : KeyEvent) : Prop where
  canceled : e.canceled = false
  action : e.action = .down ∨ (e.action = .up ∧ s.how e.key ≠ .up)

/-- What the event is to leave: no keycode was released that was not pressed, and none stays pressed by
a key that goes up. -/
structure Released (e : KeyEvent) (s' : State) : Prop where
  stray : s'.keys.stray = false
  up : e.action = .up → ∀ c, (c, e.key) ∉ s'.keys.held

/-- The events of a key are sent in one way from its down to its up, by keycodes that no other key has
pressed.  Text is typed with AltGr when X has it pressed. -/
structure Steady (table : KeycodeTable) (s : State) (e : KeyEvent) : Prop where
  altRight : s.route e table = .text → e.pressed = true → e.altRight = true →
    Keys.Pressed s.keys.held table.altRight
  first : s.how e.key = .up → s.ignored e = false ∧
    ∀ c ∈ (s.route e table).codes table, ¬Keys.Pressed s.keys.held c
  later : s.how e.key ≠ .up →
    s.route e table = s.how e.key ∨ (e.pressed = true ∧ s.ignored e = true)
  release : e.pressed = false → s.ignored e = false

end State

/-! ## Calls -/

section Calls

variable {table} {key : Nat} {before : List (XKeycode × Nat)} {keys : Keys} {scanCode keyCode : Int}

theorem shift_ne_replaced {e : KeyEvent} {code : Int} (h : e.replaced = some code) :
    table.shift ≠ table.keycode 0 code := by
  obtain ⟨i, hi, rfl⟩ := Option.map_eq_some_iff.mp h
  have hmem := List.mem_of_find?_eq_some hi
  have hshift : table.shift = 50#16 := by
    simp [KeycodeTable.shift, KeycodeTable.keycode, table.code_shift_left]
  rw [hshift]
  simp only [chars, List.mem_cons, List.not_mem_nil, or_false] at hmem
  rcases hmem with rfl | rfl | rfl | rfl
  · simp [KeycodeTable.keycode, table.code_2]
  · simp [KeycodeTable.keycode, table.code_3]
  · simp [KeycodeTable.keycode, table.code_8]
  · simp [KeycodeTable.keycode, table.code_equals]

/-- A press of a keycode that the event has not released. -/
theorem mem_press (h : Keys.Pressed before (table.keycode scanCode keyCode) →
      Keys.Pressed keys.held (table.keycode scanCode keyCode)) (x : XKeycode × Nat) :
    (x ∈ (Keys.call table key before keys (.sendKeyEvent scanCode keyCode true)).held ↔
      x = (table.keycode scanCode keyCode, key) ∨ x ∈ keys.held) ∧
    (Keys.call table key before keys (.sendKeyEvent scanCode keyCode true)).stray = keys.stray := by
  have hnot : ¬(Keys.Pressed before (table.keycode scanCode keyCode) ∧
      ¬Keys.Pressed keys.held (table.keycode scanCode keyCode)) := fun hno => hno.2 (h hno.1)
  simp only [Keys.call]
  rw [if_neg hnot]
  exact ⟨List.mem_cons, rfl⟩

theorem mem_release (x : XKeycode × Nat) :
    x ∈ (Keys.call table key before keys (.sendKeyEvent scanCode keyCode false)).held ↔
      x ∈ keys.held ∧ x.1 ≠ table.keycode scanCode keyCode := by
  simp [Keys.call]

theorem stray_release (h : Keys.Pressed keys.held (table.keycode scanCode keyCode)) :
    (Keys.call table key before keys (.sendKeyEvent scanCode keyCode false)).stray = keys.stray := by
  simp [Keys.call, h]

/-- AltGr is released for the text, and pressed again by the keys that had it pressed. -/
theorem mem_altRight {text : List Nat} (h : Keys.Pressed keys.held table.altRight)
    (x : XKeycode × Nat) :
    let calls : List Call := [.sendKeyEvent 0 KEYCODE_ALT_RIGHT false, .sendTextEvent text,
      .sendKeyEvent 0 KEYCODE_ALT_RIGHT true]
    (x ∈ (calls.foldl (Keys.call table key keys.held) keys).held ↔ x ∈ keys.held) ∧
      (calls.foldl (Keys.call table key keys.held) keys).stray = keys.stray := by
  have hgone : ¬Keys.Pressed (keys.held.filter fun h => h.1 ≠ table.altRight) table.altRight := by
    intro ⟨k, hk⟩
    simp at hk
  have hpressed : Keys.Pressed keys.held (table.keycode 0 KEYCODE_ALT_RIGHT) := h
  simp only [List.foldl_cons, List.foldl_nil, Keys.call]
  rw [if_pos ⟨hpressed, hgone⟩]
  constructor
  · simp only [List.mem_append, List.mem_filter, decide_eq_true_eq]
    by_cases hx : x.1 = table.keycode 0 KEYCODE_ALT_RIGHT
    · simp [hx]
    · simp [hx]
  · simp [hpressed]

end Calls

namespace State

variable {table : KeycodeTable} {s : State} {e : KeyEvent}

/-- What is called for an event, by the way it is sent. -/
def calls (table : KeycodeTable) (s : State) (e : KeyEvent) : List Call :=
  match s.route e table with
  | .up => []
  | .text =>
    if e.pressed then
      if e.altRight then
        [.sendKeyEvent 0 KEYCODE_ALT_RIGHT false, .sendTextEvent (getBytes [e.unicode]),
          .sendKeyEvent 0 KEYCODE_ALT_RIGHT true]
      else [.sendTextEvent (getBytes [e.unicode])]
    else []
  | .replaced key =>
    [.sendKeyEvent 0 KEYCODE_SHIFT_LEFT e.pressed, .sendKeyEvent 0 key e.pressed]
  | .key _ =>
    if s.ignored e then []
    else [.sendKeyEvent (e.scancode s.sender.preferScancodes) e.keyCode e.pressed]

theorem sendKeyEvent_calls (h : s.Typed e) : (s.sender.sendKeyEvent e).2 = s.calls table e := by
  have hmultiple : e.action ≠ .multiple := by
    rcases h.action with h | ⟨h, -⟩ <;> rw [h] <;> decide
  unfold Sender.sendKeyEvent calls route ignored
  rw [h.canceled, if_neg (by decide), if_neg hmultiple]
  cases htext : s.sender.isText e with
  | true =>
    have hpressed : e.pressed = true := by
      simp only [Sender.isText, Bool.and_eq_true] at htext
      exact htext.1.1.2
    simp [hpressed]
  | false =>
    cases hup : s.sender.isTextUp e with
    | true =>
      have hpressed : e.pressed = false := by
        simp only [Sender.isTextUp, Bool.and_eq_true, Bool.not_eq_true'] at hup
        exact hup.1.2
      simp [hpressed]
    | false =>
      cases hrep : e.replaced with
      | some key => simp
      | none =>
        cases hrepeat : s.sender.isRepeat e with
        | true => simp
        | false => simp

theorem step_keys (h : s.Typed e) :
    (s.step table e).keys = (s.calls table e).foldl (Keys.call table e.key s.keys.held) s.keys := by
  rw [← sendKeyEvent_calls h]
  rfl

/-- An event that is ignored. -/
theorem keys_ignored (h : s.Typed e) (hignored : s.ignored e = true) :
    (s.step table e).keys = s.keys := by
  have hcalls : s.calls table e = [] := by
    unfold ignored at hignored
    simp only [Bool.and_eq_true, Bool.not_eq_true', Option.isNone_iff_eq_none] at hignored
    unfold calls route ignored
    simp [hignored.1.1, hignored.1.2, hignored.2]
  rw [step_keys h, hcalls]
  rfl

/-- A press adds the keycodes that it is sent by. -/
theorem keys_press (h : s.Typed e) (hpressed : e.pressed = true) (hignored : s.ignored e = false)
    (halt : s.route e table = .text → e.altRight = true → Keys.Pressed s.keys.held table.altRight)
    (x : XKeycode × Nat) :
    (x ∈ (s.step table e).keys.held ↔
      x ∈ s.keys.held ∨ (x.2 = e.key ∧ x.1 ∈ (s.route e table).codes table)) ∧
      (s.step table e).keys.stray = s.keys.stray := by
  rw [step_keys h]
  unfold calls
  cases hroute : s.route e table with
  | up => simp [How.codes]
  | text =>
    rw [hroute] at halt
    simp only [hpressed, if_true, How.codes, List.not_mem_nil, and_false, or_false]
    by_cases haltRight : e.altRight = true
    · rw [if_pos haltRight]
      exact mem_altRight (halt rfl haltRight) x
    · rw [if_neg haltRight]
      exact ⟨Iff.rfl, rfl⟩
  | replaced code =>
    simp only [hpressed, List.foldl_cons, List.foldl_nil]
    -- Shift goes down first, and then the key that it changes.
    have hfirst := @mem_press table e.key s.keys.held s.keys 0 KEYCODE_SHIFT_LEFT (fun h => h)
    have hsecond := @mem_press table e.key s.keys.held
        (Keys.call table e.key s.keys.held s.keys (.sendKeyEvent 0 KEYCODE_SHIFT_LEFT true)) 0
        code (fun ⟨k, hk⟩ => ⟨k, ((hfirst _).1).mpr (.inr hk)⟩)
    refine ⟨?_, (hsecond x).2.trans (hfirst x).2⟩
    rw [(hsecond x).1, (hfirst x).1]
    simp only [How.codes, List.mem_cons, List.not_mem_nil, or_false, Prod.ext_iff, KeycodeTable.shift]
    tauto
  | key c =>
    have hcode : c = table.keycode (e.scancode s.sender.preferScancodes) e.keyCode := by
      unfold route at hroute
      split_ifs at hroute
      split at hroute
      · cases hroute
      · exact (How.key.inj hroute).symm
    simp only [hignored, hpressed, Bool.false_eq_true, if_false, List.foldl_cons, List.foldl_nil]
    have hcall := @mem_press table e.key s.keys.held s.keys (e.scancode s.sender.preferScancodes)
        e.keyCode (fun h => h)
    refine ⟨?_, (hcall x).2⟩
    rw [(hcall x).1, ← hcode]
    simp only [How.codes, List.mem_singleton, Prod.ext_iff]
    tauto

/-- A release takes the keycodes away that it is sent by. -/
theorem keys_release (h : s.Typed e) (hpressed : e.pressed = false) (hignored : s.ignored e = false)
    (hheld : ∀ c ∈ (s.route e table).codes table, Keys.Pressed s.keys.held c) (x : XKeycode × Nat) :
    (x ∈ (s.step table e).keys.held ↔
      x ∈ s.keys.held ∧ x.1 ∉ (s.route e table).codes table) ∧
      (s.step table e).keys.stray = s.keys.stray := by
  rw [step_keys h]
  unfold calls
  cases hroute : s.route e table with
  | up => simp [How.codes]
  | text => simp [hpressed, How.codes]
  | replaced code =>
    rw [hroute] at hheld
    have hreplaced : e.replaced = some code := by
      unfold route at hroute
      split_ifs at hroute
      split at hroute
      · rw [How.replaced.injEq] at hroute
        rw [← hroute]
        assumption
      · cases hroute
    have hne := @shift_ne_replaced table _ _ hreplaced
    simp only [hpressed, List.foldl_cons, List.foldl_nil]
    have hshift : Keys.Pressed s.keys.held table.shift := hheld _ (by simp [How.codes])
    obtain ⟨k, hk⟩ := hheld (table.keycode 0 code) (by simp [How.codes])
    -- Shift goes up first, and the other key is still held then.
    have hcode : Keys.Pressed (Keys.call table e.key s.keys.held s.keys
        (.sendKeyEvent 0 KEYCODE_SHIFT_LEFT false)).held (table.keycode 0 code) :=
      ⟨k, (mem_release _).mpr ⟨hk, fun heq => hne heq.symm⟩⟩
    refine ⟨?_, (stray_release hcode).trans (stray_release hshift)⟩
    rw [mem_release, mem_release]
    simp only [How.codes, List.mem_cons, List.not_mem_nil, or_false, not_or, KeycodeTable.shift]
    exact and_assoc
  | key c =>
    rw [hroute] at hheld
    have hcode : c = table.keycode (e.scancode s.sender.preferScancodes) e.keyCode := by
      unfold route at hroute
      split_ifs at hroute
      split at hroute
      · cases hroute
      · exact (How.key.inj hroute).symm
    have hpress := hheld c (by simp [How.codes])
    simp only [hignored, hpressed, Bool.false_eq_true, if_false, List.foldl_cons, List.foldl_nil]
    rw [hcode] at hpress
    refine ⟨?_, stray_release hpress⟩
    rw [mem_release, ← hcode]
    simp [How.codes]

/-! ## The invariant -/

/-- A key that is down has the keycodes pressed that it was sent by, and no other key has. -/
structure Inv (table : KeycodeTable) (s : State) : Prop where
  stray : s.keys.stray = false
  held : ∀ c k, (c, k) ∈ s.keys.held ↔ c ∈ (s.how k).codes table
  own : ∀ c k k', (c, k) ∈ s.keys.held → (c, k') ∈ s.keys.held → k = k'

theorem Inv.start (preferScancodes : Bool) : Inv table (State.start preferScancodes) :=
  ⟨rfl, fun c k => by simp [State.start, How.codes], fun c k k' h => by simp [State.start] at h⟩

/-- Nothing changes if neither the keys nor what they were sent by do. -/
theorem Inv.same (h : Inv table s) {s' : State} (hkeys : s'.keys.stray = s.keys.stray)
    (hheld : ∀ x, x ∈ s'.keys.held ↔ x ∈ s.keys.held) (hhow : s'.how = s.how) : Inv table s' := by
  refine ⟨hkeys.trans h.stray, fun c k => ?_, fun c k k' hk hk' => ?_⟩
  · rw [hheld, hhow]
    exact h.held c k
  · exact h.own c k k' ((hheld _).mp hk) ((hheld _).mp hk')

theorem step_how_other {k : Nat} (h : k ≠ e.key) : (s.step table e).how k = s.how k :=
  Function.update_of_ne h _ _

theorem step_how_self : (s.step table e).how e.key =
    if e.action = .up then .up
    else if s.how e.key = .up then s.route e table else s.how e.key :=
  Function.update_self _ _ _

/-- A key goes down. -/
theorem Inv.first (h : Inv table s) (htyped : s.Typed e) (hsteady : s.Steady table e)
    (hup : s.how e.key = .up) : Inv table (s.step table e) := by
  have hdown : e.action = .down := by
    rcases htyped.action with h | ⟨-, h⟩
    · exact h
    · exact absurd hup h
  have hpressed : e.pressed = true := by simp [KeyEvent.pressed, hdown]
  obtain ⟨hignored, hfree⟩ := hsteady.first hup
  have hkeys := keys_press htyped hpressed hignored (fun ht ha => hsteady.altRight ht hpressed ha)
  have hnone : ∀ c, (c, e.key) ∉ s.keys.held := by
    intro c hc
    have := (h.held c e.key).mp hc
    rw [hup] at this
    cases this
  refine ⟨(hkeys (0, 0)).2.trans h.stray, fun c k => ?_, fun c k k' hk hk' => ?_⟩
  · rw [(hkeys (c, k)).1]
    by_cases hkey : k = e.key
    · subst hkey
      rw [step_how_self, if_neg (by rw [hdown]; decide), if_pos hup]
      simp [hnone]
    · rw [step_how_other hkey, h.held c k]
      simp [hkey]
  · rcases (hkeys (c, k)).1.mp hk with hold | ⟨hkey, hcode⟩
    · rcases (hkeys (c, k')).1.mp hk' with hold' | ⟨-, hcode'⟩
      · exact h.own c k k' hold hold'
      · exact absurd ⟨k, hold⟩ (hfree c hcode')
    · rcases (hkeys (c, k')).1.mp hk' with hold' | ⟨hkey', -⟩
      · exact absurd ⟨k', hold'⟩ (hfree c hcode)
      · exact hkey.trans hkey'.symm

/-- A key that is down is repeated. -/
theorem Inv.again (h : Inv table s) (htyped : s.Typed e) (hsteady : s.Steady table e)
    (hdown : e.action = .down) (hlater : s.how e.key ≠ .up) : Inv table (s.step table e) := by
  have hpressed : e.pressed = true := by simp [KeyEvent.pressed, hdown]
  have hhow : (s.step table e).how = s.how := by
    funext k
    by_cases hkey : k = e.key
    · subst hkey
      rw [step_how_self, if_neg (by rw [hdown]; decide), if_neg hlater]
    · exact step_how_other hkey
  cases hignored : s.ignored e with
  | true =>
    have hkeys := @keys_ignored table _ _ htyped hignored
    exact h.same (by rw [hkeys]) (fun x => by rw [hkeys]) hhow
  | false =>
    have hroute : s.route e table = s.how e.key := by
      rcases hsteady.later hlater with hroute | ⟨-, hno⟩
      · exact hroute
      · rw [hignored] at hno
        cases hno
    have hkeys := keys_press htyped hpressed hignored (fun ht ha => hsteady.altRight ht hpressed ha)
    apply h.same (hkeys (0, 0)).2 _ hhow
    intro x
    rw [(hkeys x).1, hroute]
    constructor
    · intro hx
      rcases hx with hx | ⟨hkey, hcode⟩
      · exact hx
      · have hmem := (h.held x.1 e.key).mpr hcode
        rw [← hkey] at hmem
        exact hmem
    · exact .inl

/-- A key goes up. -/
theorem Inv.last (h : Inv table s) (htyped : s.Typed e) (hsteady : s.Steady table e)
    (hup : e.action = .up) (hlater : s.how e.key ≠ .up) : Inv table (s.step table e) := by
  have hpressed : e.pressed = false := by simp [KeyEvent.pressed, hup]
  have hignored := hsteady.release hpressed
  have hroute : s.route e table = s.how e.key := by
    rcases hsteady.later hlater with hroute | ⟨hno, -⟩
    · exact hroute
    · rw [hpressed] at hno
      cases hno
  have hheld : ∀ c ∈ (s.route e table).codes table, (c, e.key) ∈ s.keys.held := by
    intro c hc
    rw [hroute] at hc
    exact (h.held c e.key).mpr hc
  have hkeys := keys_release htyped hpressed hignored (fun c hc => ⟨e.key, hheld c hc⟩)
  refine ⟨(hkeys (0, 0)).2.trans h.stray, fun c k => ?_, fun c k k' hk hk' => ?_⟩
  · rw [(hkeys (c, k)).1]
    by_cases hkey : k = e.key
    · subst hkey
      rw [step_how_self, if_pos hup, h.held c e.key, hroute]
      simp [How.codes]
    · rw [step_how_other hkey, ← h.held c k]
      constructor
      · exact And.left
      · intro hk
        exact ⟨hk, fun hc => hkey (h.own c k e.key hk (hheld c hc))⟩
  · exact h.own c k k' ((hkeys (c, k)).1.mp hk).1 ((hkeys (c, k')).1.mp hk').1

theorem Inv.step (h : Inv table s) (htyped : s.Typed e) (hsteady : s.Steady table e) :
    Inv table (s.step table e) := by
  by_cases hfirst : s.how e.key = .up
  · exact h.first htyped hsteady hfirst
  · rcases htyped.action with hdown | ⟨hup, -⟩
    · exact h.again htyped hsteady hdown hfirst
    · exact h.last htyped hsteady hup hfirst

theorem Inv.released (h : Inv table (s.step table e)) : Released e (s.step table e) := by
  refine ⟨h.stray, fun hup c hc => ?_⟩
  have hcode := (h.held c e.key).mp hc
  rw [step_how_self, if_pos hup] at hcode
  cases hcode

/-- If every key is sent in one way from its down to its up, no keycode stays pressed after the up of
the key that pressed it, and none is released that is not pressed. -/
theorem released_of_steady (table : KeycodeTable) (preferScancodes : Bool) (events : List KeyEvent)
    (h : Run.Along (step table) (fun s e => s.Typed e ∧ s.Steady table e) (start preferScancodes)
      events) :
    ∀ earlier e later, events = earlier ++ e :: later →
      Released e (Run.after (step table) (start preferScancodes) (earlier ++ [e])) := by
  rintro earlier e later rfl
  have hinv : Inv table (Run.after (step table) (start preferScancodes) earlier) :=
    h.everywhere (fun _ _ hs hi => hs.step hi.1 hi.2) (Inv.start preferScancodes)
  obtain ⟨htyped, hsteady⟩ := h.condition
  rw [Run.after_append]
  exact (hinv.step htyped hsteady).released

/-! ## Examples -/

/-- The key A -/
def keyA (action : KeyAction) (metaState : BitVec 32) (scanCode repeatCount : Int) : KeyEvent where
  key := 0
  action := action
  canceled := false
  keyCode := 29
  metaState := metaState
  characters := none
  unicodeChar := if metaState = 0 then 0x61 else 0
  scanCode := scanCode
  repeatCount := repeatCount

/-- The entries of the table that are needed. -/
def sampleTable : KeycodeTable where
  code c :=
    if c = KEYCODE_2 then 3 else if c = KEYCODE_3 then 4 else if c = KEYCODE_8 then 9
    else if c = KEYCODE_EQUALS then 13 else if c = KEYCODE_SHIFT_LEFT then 42
    else if c = KEYCODE_ALT_RIGHT then 100 else if c = 29 then 30 else 0
  code_2 := rfl
  code_3 := rfl
  code_8 := rfl
  code_equals := rfl
  code_shift_left := rfl

/-- Ctrl and A, with control held until A is up. -/
theorem released_of_steady_control :
    Released (keyA .up META_CTRL_ON 30 0) (Run.after (step sampleTable) (start false)
      ([keyA .down META_CTRL_ON 30 0] ++ [keyA .up META_CTRL_ON 30 0])) := by
  apply released_of_steady sampleTable false
    [keyA .down META_CTRL_ON 30 0, keyA .up META_CTRL_ON 30 0] _ [keyA .down META_CTRL_ON 30 0] _ [] rfl
  refine ⟨⟨⟨rfl, .inl rfl⟩, ⟨fun h => absurd h (by decide), fun _ => ⟨by decide, ?_⟩,
    fun h => absurd rfl h, fun h => absurd h (by decide)⟩⟩, ⟨⟨rfl, .inr ⟨rfl, by decide⟩⟩,
    ⟨fun h => absurd h (by decide), fun h => absurd h (by decide), fun _ => .inl (by decide),
      fun _ => by decide⟩⟩, trivial⟩
  intro c _ ⟨k, hk⟩
  cases hk

/-- A is typed as text; a repetition of it with control is sent as a key, and its up is not.  And a key
whose scan code is not that of the table is pressed with control, and goes up without. -/
theorem key_stuck :
    (Run.Along (step sampleTable) Typed (start false)
      [keyA .down 0 30 0, keyA .down META_CTRL_ON 30 1, keyA .up META_CTRL_ON 30 0] ∧
      ¬Released (keyA .up META_CTRL_ON 30 0) (Run.after (step sampleTable) (start false)
        [keyA .down 0 30 0, keyA .down META_CTRL_ON 30 1, keyA .up META_CTRL_ON 30 0])) ∧
    (Run.Along (step sampleTable) Typed (start false)
      [keyA .down META_CTRL_ON 16 0, keyA .up 0 16 0] ∧
      ¬Released (keyA .up 0 16 0) (Run.after (step sampleTable) (start false)
        [keyA .down META_CTRL_ON 16 0, keyA .up 0 16 0])) := by
  refine ⟨⟨⟨⟨rfl, .inl rfl⟩, ⟨rfl, .inl rfl⟩, ⟨rfl, .inr ⟨rfl, by decide⟩⟩, trivial⟩, fun h => ?_⟩,
    ⟨⟨⟨rfl, .inl rfl⟩, ⟨rfl, .inr ⟨rfl, by decide⟩⟩, trivial⟩, fun h => ?_⟩⟩
  · exact h.up rfl 38 (by decide)
  · exact h.up rfl 24 (by decide)

end State

end XoDos.KeyEventSender
