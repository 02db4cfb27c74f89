import XoDos.Profiles

/-!
# Elements of the on-screen controls

A `ControlElement` is edited with setters, some of which change more than their
field.  A profile is saved as a JSON object for each element, in which some
fields are left out, and loaded by calling the setters on new elements.

Names of enumerators stand for their strings.  Position and scale are left out.
-/

namespace XoDos

inductive Binding where
  | none | mouseLeftButton | mouseMiddleButton | mouseRightButton | mouseMoveLeft
  | mouseMoveRight | mouseMoveUp | mouseMoveDown | mouseScrollUp | mouseScrollDown | keyUp
  | keyRight | keyDown | keyLeft | keyEnter | keyEsc | keyBksp | keyDel | keyTab | keySpace
  | keyCtrlL | keyCtrlR | keyShiftL | keyShiftR | keyAltL | keyAltR | keyHome | keyPrtscn
  | keyPgUp | keyPgDown | keyCapsLock | keyNumLock | key0 | key1 | key2 | key3 | key4 | key5
  | key6 | key7 | key8 | key9 | keyA | keyB | keyC | keyD | keyE | keyF | keyG | keyH | keyI
  | keyJ | keyK | keyL | keyM | keyN | keyO | keyP | keyQ | keyR | keyS | keyT | keyU | keyV
  | keyW | keyX | keyY | keyZ | keyBracketLeft | keyBracketRight | keyBackslash | keySlash
  | keySemicolon | keyComma | keyPeriod | keyApostrophe | keyKpAdd | keyMinus | keyF1 | keyF2
  | keyF3 | keyF4 | keyF5 | keyF6 | keyF7 | keyF8 | keyF9 | keyF10 | keyF11 | keyF12 | keyKp0
  | keyKp1 | keyKp2 | keyKp3 | keyKp4 | keyKp5 | keyKp6 | keyKp7 | keyKp8 | keyKp9
  | gamepadButtonA | gamepadButtonB | gamepadButtonX | gamepadButtonY | gamepadButtonL1
  | gamepadButtonR1 | gamepadButtonSelect | gamepadButtonStart | gamepadButtonL3
  | gamepadButtonR3 | gamepadButtonL2 | gamepadButtonR2 | gamepadLeftThumbUp
  | gamepadLeftThumbRight | gamepadLeftThumbDown | gamepadLeftThumbLeft | gamepadRightThumbUp
  | gamepadRightThumbRight | gamepadRightThumbDown | gamepadRightThumbLeft | gamepadDpadUp
  | gamepadDpadRight | gamepadDpadDown | gamepadDpadLeft
deriving DecidableEq, Repr

namespace Binding

def isGamepad : Binding → Bool
  | .gamepadButtonA | .gamepadButtonB | .gamepadButtonX | .gamepadButtonY | .gamepadButtonL1
  | .gamepadButtonR1 | .gamepadButtonSelect | .gamepadButtonStart | .gamepadButtonL3
  | .gamepadButtonR3 | .gamepadButtonL2 | .gamepadButtonR2 | .gamepadLeftThumbUp
  | .gamepadLeftThumbRight | .gamepadLeftThumbDown | .gamepadLeftThumbLeft
  | .gamepadRightThumbUp | .gamepadRightThumbRight | .gamepadRightThumbDown
  | .gamepadRightThumbLeft | .gamepadDpadUp | .gamepadDpadRight | .gamepadDpadDown
  | .gamepadDpadLeft => true
  | _ => false

def isMouseMove : Binding → Bool
  | .mouseMoveUp | .mouseMoveRight | .mouseMoveDown | .mouseMoveLeft => true
  | _ => false

/-- A string that `fromString` accepts. -/
inductive Name where
  | of (b : Binding)
  | keyCtrl
  | keyShift
  | keyAlt
deriving DecidableEq, Repr

def fromString : Name → Binding
  | .keyCtrl => .keyCtrlL
  | .keyShift => .keyShiftL
  | .keyAlt => .keyAltL
  | .of b => b

end Binding

inductive ElementType where
  | button
  | dPad
  | rangeButton
  | stick
  | trackpad
  | combineButton
  | cheatCodeText
deriving DecidableEq, Repr

inductive ElementShape where
  | circle
  | rect
  | roundRect
  | square
deriving DecidableEq, Repr

inductive ElementRange where
  | fromAToZ
  | from0To9
  | fromF1ToF12
  | fromNp0ToNp9
deriving DecidableEq, Repr

structure ControlElement where
  type : ElementType
  shape : ElementShape
  bindings : List Binding
  states : List Bool
  toggleSwitch : Bool
  text : String
  iconId : BitVec 8
  range : Option ElementRange
  orientation : BitVec 8
  cheatCodeText : String
  customIconId : Option String
  backgroundColor : BitVec 32
deriving DecidableEq, Repr

namespace ControlElement

/-- A new element. -/
def new : ControlElement :=
  { type := .button
    shape := .circle
    bindings := List.replicate 4 .none
    states := List.replicate 4 false
    toggleSwitch := false
    text := ""
    iconId := 0
    range := none
    orientation := 0
    cheatCodeText := "None"
    customIconId := none
    backgroundColor := 0 }

/-! ## Setters -/

def setBinding (e : ControlElement) (binding : Binding) : ControlElement :=
  { e with bindings := List.replicate e.bindings.length binding }

/-- Assigns the first four bindings. -/
def assignFour (bindings : List Binding) (b₀ b₁ b₂ b₃ : Binding) : Java (List Binding) := do
  let bindings ← arraySet bindings 0 b₀
  let bindings ← arraySet bindings 1 b₁
  let bindings ← arraySet bindings 2 b₂
  arraySet bindings 3 b₃

def reset (e : ControlElement) : Java ControlElement := do
  let e := e.setBinding .none
  let bindings ←
    match e.type with
    | .dPad | .stick => assignFour e.bindings .keyW .keyD .keyS .keyA
    | .trackpad =>
      assignFour e.bindings .mouseMoveUp .mouseMoveRight .mouseMoveDown .mouseMoveLeft
    | _ => pure e.bindings
  return { e with bindings := bindings, text := "", iconId := 0, range := none }

def setType (e : ControlElement) (type : ElementType) : Java ControlElement :=
  { e with type := type }.reset

def setBindingCount (e : ControlElement) (bindingCount : Int) : Java ControlElement := do
  let bindings ← newArray bindingCount Binding.none
  let states ← newArray bindingCount false
  return { e with bindings := bindings, states := states }

def setShape (e : ControlElement) (shape : ElementShape) : ControlElement := { e with shape := shape }

def getRange (e : ControlElement) : ElementRange := e.range.getD .fromAToZ

def setRange (e : ControlElement) (range : Option ElementRange) : ControlElement :=
  { e with range := range }

def setOrientation (e : ControlElement) (orientation : BitVec 8) : ControlElement :=
  { e with orientation := orientation }

def setToggleSwitch (e : ControlElement) (toggleSwitch : Bool) : ControlElement :=
  { e with toggleSwitch := toggleSwitch }

def getBindingAt (e : ControlElement) (index : Nat) : Binding := e.bindings.getD index .none

/-- The array is filled from the last binding that it had.  `copyOf` adds nulls, which are all
overwritten. -/
def setBindingAt (e : ControlElement) (index : Int) (binding : Binding) : Java ControlElement := do
  let e ←
    if (e.bindings.length : Int) ≤ index then do
      let oldLength := e.bindings.length
      let bindings := e.bindings ++ List.replicate (index.toNat + 1 - oldLength) .none
      let bindings ← arraysFill bindings (oldLength - 1) bindings.length .none
      pure { e with bindings := bindings, states := List.replicate bindings.length false }
    else pure e
  let bindings ← arraySet e.bindings index binding
  return { e with bindings := bindings }

def setText (e : ControlElement) (text : Option String) : ControlElement :=
  { e with text := text.getD "" }

/-- `(byte) iconId` -/
def setIconId (e : ControlElement) (iconId : BitVec 32) : ControlElement :=
  { e with iconId := iconId.setWidth 8 }

def setCheatCodeText (e : ControlElement) (cct : String) : ControlElement :=
  { e with cheatCodeText := cct }

def setCustomIconId (e : ControlElement) (icId : Option String) : ControlElement :=
  { e with customIconId := icId }

def setBackgroundColor (e : ControlElement) (color : BitVec 32) : ControlElement :=
  { e with backgroundColor := color }

/-- What the editor does to an element. -/
inductive Edit where
  | setType (type : ElementType)
  | setShape (shape : ElementShape)
  | setBindingAt (index : Int) (binding : Binding)
  | setBindingCount (bindingCount : Int)
  | setRange (range : Option ElementRange)
  | setOrientation (orientation : BitVec 8)
  | setText (text : Option String)
  | setIconId (iconId : BitVec 32)
  | setCheatCodeText (cct : String)
  | setCustomIconId (icId : Option String)
  | setToggleSwitch (toggleSwitch : Bool)
  | setBackgroundColor (color : BitVec 32)
deriving DecidableEq, Repr

def edit (e : ControlElement) : Edit → Java ControlElement
  | .setType type => e.setType type
  | .setShape shape => pure (e.setShape shape)
  | .setBindingAt index binding => e.setBindingAt index binding
  | .setBindingCount bindingCount => e.setBindingCount bindingCount
  | .setRange range => pure (e.setRange range)
  | .setOrientation orientation => pure (e.setOrientation orientation)
  | .setText text => pure (e.setText text)
  | .setIconId iconId => pure (e.setIconId iconId)
  | .setCheatCodeText cct => pure (e.setCheatCodeText cct)
  | .setCustomIconId icId => pure (e.setCustomIconId icId)
  | .setToggleSwitch toggleSwitch => pure (e.setToggleSwitch toggleSwitch)
  | .setBackgroundColor color => pure (e.setBackgroundColor color)

/-- An element that was made in the editor. -/
def build (edits : List Edit) : Java ControlElement := edits.foldlM edit new

/-! ## Saving and loading -/

/-- The JSON object of an element. -/
structure Json where
  type : ElementType
  shape : ElementShape
  bindings : List Binding.Name
  toggleSwitch : Bool
  text : String
  iconId : BitVec 32
  cheatCodeText : Option String
  customIconId : Option String
  backgroundColor : Option (BitVec 32)
  range : Option ElementRange
  orientation : Option (BitVec 32)
deriving DecidableEq, Repr

def toJSONObject (e : ControlElement) : Json :=
  { type := e.type
    shape := e.shape
    bindings := e.bindings.map .of
    toggleSwitch := e.toggleSwitch
    text := e.text
    iconId := e.iconId.signExtend 32
    cheatCodeText := if e.cheatCodeText.isEmpty then none else some e.cheatCodeText
    customIconId := e.customIconId.filter (fun id => !id.isEmpty)
    backgroundColor := if 0 < e.backgroundColor.toInt then some e.backgroundColor else none
    range := if e.type = .rangeButton then e.range else none
    orientation :=
      if e.type = .rangeButton ∧ e.range.isSome ∧ e.orientation ≠ 0 then
        some (e.orientation.signExtend 32)
      else none }

/-- The loop over the bindings, from the `j`-th on. -/
def loadBindings (e : ControlElement) (j : Nat) : List Binding.Name → Java ControlElement
  | [] => pure e
  | name :: names => do
    let e ← e.setBindingAt j (Binding.fromString name)
    loadBindings e (j + 1) names

/-- The setters that `loadElements` calls before the bindings. -/
def loadFields (e : ControlElement) (json : Json) : ControlElement :=
  let e := e.setShape json.shape
  let e := e.setToggleSwitch json.toggleSwitch
  let e := e.setText json.text
  let e := e.setIconId json.iconId
  let e := match json.cheatCodeText with
    | some cct => e.setCheatCodeText cct
    | none => e
  let e := match json.customIconId with
    | some icId => e.setCustomIconId icId
    | none => e
  let e := match json.backgroundColor with
    | some color => e.setBackgroundColor color
    | none => e
  let e := match json.range with
    | some range => e.setRange range
    | none => e
  match json.orientation with
  | some orientation => e.setOrientation (orientation.setWidth 8)
  | none => e

def loadElement (json : Json) : Java ControlElement := do
  let e ← new.setType json.type
  (e.loadFields json).loadBindings 0 json.bindings

/-- Whether the bindings of an element make a virtual gamepad. -/
def Json.hasGamepadBinding (json : Json) : Bool :=
  json.bindings.all (fun name => (Binding.fromString name).isGamepad)

/-- `loadElements`: the elements, and `virtualGamepad`. -/
def loadElements {J : Type} (file : Option (ProfileFile Json J)) : Java (List ControlElement × Bool) :=
  match file.bind ProfileFile.elements with
  | none => pure ([], false)
  | some elements => do
    let loaded ← elements.mapM loadElement
    return (loaded, elements.any Json.hasGamepadBinding)

/-! ## What comes back -/

/-- The fields in which an element and the element that is loaded for it should agree. -/
structure Same (e e' : ControlElement) : Prop where
  type : e'.type = e.type
  shape : e'.shape = e.shape
  bindings : e'.bindings = e.bindings
  toggleSwitch : e'.toggleSwitch = e.toggleSwitch
  text : e'.text = e.text
  iconId : e'.iconId = e.iconId
  cheatCodeText : e'.cheatCodeText = e.cheatCodeText
  customIconId : e'.customIconId = e.customIconId
  range : e'.getRange = e.getRange
  orientation : e'.orientation = e.orientation

/-- Of more than four bindings only the first three and the last may be set. -/
def BindingsSurvive (bindings : List Binding) : Prop :=
  4 ≤ bindings.length ∧ ∀ i, 3 ≤ i → i + 1 < bindings.length → bindings[i]? = some .none

/-- What an element must be like to be loaded as it was saved. -/
structure Survives (e : ControlElement) : Prop where
  bindings : BindingsSurvive e.bindings
  cheatCodeText : e.cheatCodeText ≠ ""
  customIconId : e.customIconId ≠ some ""
  range : e.type = .rangeButton ∧ e.range ≠ none ∨ e.getRange = .fromAToZ ∧ e.orientation = 0

variable {e : ControlElement} {binding : Binding}

theorem setBindingAt_lt {index : Nat} (h : index < e.bindings.length) :
    e.setBindingAt index binding = .ok { e with bindings := e.bindings.set index binding } := by
  unfold setBindingAt
  rw [if_neg (by omega)]
  have hset : arraySet e.bindings (index : Int) binding = .ok (e.bindings.set index binding) :=
    arraySet_ok binding (by omega) (by omega)
  simp only [pure_bind, hset]
  rfl

theorem fill_last (bs : List Binding) (b c : Binding) :
    arraysFill (bs ++ [b, c]) bs.length (bs ++ [b, c]).length .none = .ok (bs ++ [.none, .none]) := by
  unfold arraysFill
  have hlen : (bs ++ [b, c]).length = bs.length + 2 := by simp
  rw [if_neg (by omega), if_neg (by omega), hlen]
  have hcount : (((bs.length + 2 : Nat) : Int) - bs.length).toNat = 2 := by omega
  simp only [hcount, Int.toNat_natCast]
  rw [List.take_left, List.drop_eq_nil_of_le (by simp)]
  simp [List.replicate]

/-- A binding after the last one replaces the last one by NONE. -/
theorem setBindingAt_length (h : e.bindings ≠ []) :
    e.setBindingAt e.bindings.length binding = .ok { e with
      bindings := e.bindings.dropLast ++ [.none, binding]
      states := List.replicate (e.bindings.length + 1) false } := by
  obtain ⟨bs, b, hbs⟩ := List.eq_nil_or_concat e.bindings |>.resolve_left h
  have hlen : e.bindings.length = bs.length + 1 := by simp [hbs]
  have hgrown : e.bindings ++ List.replicate (e.bindings.length + 1 - e.bindings.length) .none =
      bs ++ [b, .none] := by
    simp [hbs]
  have hstart : ((e.bindings.length : Int) - 1) = (bs.length : Int) := by omega
  have hset : arraySet (bs ++ [Binding.none, .none]) (e.bindings.length : Int) binding =
      .ok (bs ++ [.none, binding]) := by
    rw [arraySet_ok binding (by omega) (by simp [hlen]), hlen]
    simp
  unfold setBindingAt
  rw [if_pos le_rfl]
  simp only [Int.toNat_natCast, hgrown, hstart, fill_last, ok_bind, pure_bind, hset]
  simp [hbs, pure, Except.pure]

theorem loadBindings_fill (names : List Binding) (j : Nat) (h : j + names.length ≤ e.bindings.length) :
    e.loadBindings j (names.map .of) = .ok { e with
      bindings := e.bindings.take j ++ names ++ e.bindings.drop (j + names.length) } := by
  induction names generalizing e j with
  | nil => simp [loadBindings, pure, Except.pure]
  | cons b names ih =>
    simp only [List.length_cons] at h
    simp only [List.map_cons, loadBindings, Binding.fromString]
    rw [setBindingAt_lt (by omega), ok_bind, ih (j + 1) (by simp; omega)]
    have hj : j < e.bindings.length := by omega
    have htake : (e.bindings.set j b).take (j + 1) = e.bindings.take j ++ [b] := by
      rw [List.take_succ_eq_append_getElem (by simpa using hj), List.take_set_of_le le_rfl,
        List.getElem_set_self]
    have hdrop : (e.bindings.set j b).drop (j + 1 + names.length) =
        e.bindings.drop (j + (names.length + 1)) := by
      rw [List.drop_set_of_lt (by omega)]
      congr 1
      omega
    simp only [htake, hdrop, List.length_cons, List.append_assoc, List.cons_append,
      List.nil_append]

theorem loadBindings_grow (names : List Binding) (last : Binding) (h : e.bindings ≠ []) :
    ∃ states, e.loadBindings e.bindings.length ((names ++ [last]).map .of) = .ok { e with
      bindings := e.bindings.dropLast ++ List.replicate (names.length + 1) .none ++ [last]
      states := states } := by
  induction names generalizing e with
  | nil =>
    refine ⟨List.replicate (e.bindings.length + 1) false, ?_⟩
    simp only [List.nil_append, List.map_cons, List.map_nil, loadBindings, Binding.fromString]
    rw [setBindingAt_length h, ok_bind]
    simp [pure, Except.pure]
  | cons b names ih =>
    simp only [List.cons_append, List.map_cons, loadBindings, Binding.fromString]
    rw [setBindingAt_length h, ok_bind]
    obtain ⟨states, hstates⟩ := @ih { e with
      bindings := e.bindings.dropLast ++ [.none, b]
      states := List.replicate (e.bindings.length + 1) false } (by simp)
    have hlen : (e.bindings.dropLast ++ [Binding.none, b]).length = e.bindings.length + 1 := by
      have := List.length_pos_iff.mpr h
      simp
      omega
    refine ⟨states, ?_⟩
    rw [hlen] at hstates
    rw [hstates]
    have hdrop : (e.bindings.dropLast ++ [Binding.none, b]).dropLast =
        e.bindings.dropLast ++ [.none] := by
      rw [List.dropLast_append_of_ne_nil (by simp)]
      rfl
    simp only [hdrop, List.length_cons, List.append_assoc, List.nil_append,
      List.replicate_succ, List.cons_append]

theorem loadBindings_append (names names' : List Binding.Name) (j : Nat) :
    e.loadBindings j (names ++ names') =
      e.loadBindings j names >>= fun e' => e'.loadBindings (j + names.length) names' := by
  induction names generalizing e j with
  | nil => rfl
  | cons name names ih =>
    simp only [List.cons_append, loadBindings, List.length_cons, bind_assoc]
    congr 1
    funext e'
    rw [ih]
    congr 1
    funext e''
    congr 1
    omega

/-- Between the first three bindings and the last there is only NONE. -/
theorem bindingsSurvive_iff {three between : List Binding} {last : Binding}
    (hthree : three.length = 3) (hbetween : between ≠ []) :
    BindingsSurvive (three ++ between ++ [last]) ↔
      between = List.replicate between.length .none := by
  have hpos := List.length_pos_iff.mpr hbetween
  have hget : ∀ k, k < between.length →
      (three ++ between ++ [last])[3 + k]? = between[k]? := by
    intro k hk
    rw [List.append_assoc, List.getElem?_append_right (by omega), hthree,
      List.getElem?_append_left (by omega)]
    congr 1
    omega
  unfold BindingsSurvive
  simp only [List.length_append, hthree, List.length_singleton]
  rw [List.eq_replicate_iff]
  constructor
  · rintro ⟨-, h⟩
    refine ⟨rfl, fun b hb => ?_⟩
    obtain ⟨k, hk⟩ := List.mem_iff_getElem?.mp hb
    have hlt : k < between.length := (List.getElem?_eq_some_iff.mp hk).1
    have hnone := h (3 + k) (by omega) (by omega)
    rw [hget k hlt, hk] at hnone
    exact Option.some.inj hnone
  · rintro ⟨-, h⟩
    refine ⟨by omega, fun i hi hlt => ?_⟩
    obtain ⟨k, rfl⟩ := Nat.exists_eq_add_of_le hi
    have hk : k < between.length := by omega
    rw [hget k hk, List.getElem?_eq_getElem hk, h _ (List.getElem_mem hk)]

theorem exists_split {bs : List Binding} (h : 4 < bs.length) :
    ∃ three x names last, three.length = 3 ∧ bs = (three ++ [x]) ++ (names ++ [last]) := by
  have hrest : bs.drop 4 ≠ [] := fun hnil => by
    have := List.drop_eq_nil_iff.mp hnil
    omega
  obtain ⟨names, last, hnames⟩ := List.eq_nil_or_concat (bs.drop 4) |>.resolve_left hrest
  refine ⟨bs.take 3, bs[3], names, last, by simp; omega, ?_⟩
  rw [← @List.concat_eq_append _ names, ← hnames,
    ← List.take_succ_eq_append_getElem (by omega), List.take_append_drop]

theorem loadBindings_long (h : e.bindings.length = 4) {three names : List Binding} {x last : Binding}
    (hthree : three.length = 3) :
    ∃ states, e.loadBindings 0 (((three ++ [x]) ++ (names ++ [last])).map .of) = .ok { e with
      bindings := three ++ List.replicate (names.length + 1) .none ++ [last]
      states := states } := by
  have hfour : (three ++ [x]).length = 4 := by simp [hthree]
  have hfill := @loadBindings_fill e (three ++ [x]) 0 (by omega)
  rw [List.take_zero, List.nil_append, Nat.zero_add, hfour, List.drop_eq_nil_of_le (by omega),
    List.append_nil] at hfill
  obtain ⟨states, hgrow⟩ := @loadBindings_grow { e with bindings := three ++ [x] } names last
    (by simp)
  refine ⟨states, ?_⟩
  rw [List.map_append, loadBindings_append, hfill, ok_bind, List.length_map, Nat.zero_add, hgrow]
  simp only [List.dropLast_concat]

/-- Loading bindings into an element that has four. -/
theorem loadBindings_four (h : e.bindings.length = 4) (bs : List Binding) :
    ∃ bindings states, e.loadBindings 0 (bs.map .of) =
        .ok { e with bindings := bindings, states := states } ∧
      (bindings = bs ↔ BindingsSurvive bs) := by
  rcases Nat.lt_or_ge 4 bs.length with hlong | hshort
  · obtain ⟨three, x, names, last, hthree, rfl⟩ := exists_split hlong
    obtain ⟨states, hload⟩ := @loadBindings_long e h three names x last hthree
    refine ⟨_, states, hload, ?_⟩
    have hbs : (three ++ [x]) ++ (names ++ [last]) = three ++ (x :: names) ++ [last] := by simp
    rw [hbs, bindingsSurvive_iff hthree (by simp)]
    simp only [List.append_assoc, List.append_cancel_left_eq, List.append_cancel_right_eq,
      List.length_cons]
    exact eq_comm
  · have hfill := @loadBindings_fill e bs 0 (by omega)
    refine ⟨_, e.states, hfill, ?_⟩
    simp only [List.take_zero, List.nil_append, Nat.zero_add, List.append_right_eq_self,
      List.drop_eq_nil_iff, h]
    unfold BindingsSurvive
    constructor
    · intro h4
      exact ⟨h4, fun i hi hlt => by omega⟩
    · exact fun h4 => h4.1

theorem new_setType (type : ElementType) :
    ∃ four, four.length = 4 ∧ new.setType type = .ok { new with type := type, bindings := four } := by
  cases type <;> exact ⟨_, rfl, rfl⟩

theorem loadFields_eq (e : ControlElement) (json : Json) :
    e.loadFields json = { e with
      shape := json.shape
      toggleSwitch := json.toggleSwitch
      text := json.text
      iconId := json.iconId.setWidth 8
      cheatCodeText := json.cheatCodeText.getD e.cheatCodeText
      customIconId := json.customIconId.or e.customIconId
      backgroundColor := json.backgroundColor.getD e.backgroundColor
      range := json.range.or e.range
      orientation := (json.orientation.map (BitVec.setWidth 8)).getD e.orientation } := by
  obtain ⟨type, shape, bindings, toggleSwitch, text, iconId, cheatCodeText, customIconId,
    backgroundColor, range, orientation⟩ := json
  cases cheatCodeText <;> cases customIconId <;> cases backgroundColor <;> cases range <;>
    cases orientation <;> rfl

theorem cheatCodeText_survives (cct : String) :
    (if cct.isEmpty then none else some cct).getD "None" = cct ↔ cct ≠ "" := by
  by_cases h : cct = ""
  · subst h
    decide
  · simp [h]

theorem customIconId_survives (icId : Option String) :
    (icId.filter (fun id => !id.isEmpty)).or none = icId ↔ icId ≠ some "" := by
  cases icId with
  | none => simp
  | some id =>
    by_cases h : id = ""
    · subst h
      decide
    · simp [h]

theorem byte_survives (b : BitVec 8) : (b.signExtend 32).setWidth 8 = b := by
  ext i hi
  have hi' : i < 32 := by omega
  rw [BitVec.getElem_setWidth, BitVec.getLsbD_signExtend]
  simp [hi, hi', BitVec.getLsbD_eq_getElem]

theorem orientation_survives (e : ControlElement) :
    (e.toJSONObject.orientation.map (BitVec.setWidth 8)).getD 0 =
      if e.type = .rangeButton ∧ e.range.isSome then e.orientation else 0 := by
  unfold toJSONObject
  dsimp only
  by_cases hrange : e.type = .rangeButton ∧ e.range.isSome
  · rw [if_pos hrange]
    by_cases hzero : e.orientation = 0
    · rw [if_neg (fun h => h.2.2 hzero), hzero]
      rfl
    · rw [if_pos ⟨hrange.1, hrange.2, hzero⟩]
      exact byte_survives _
  · rw [if_neg hrange, if_neg (fun h => hrange ⟨h.1, h.2.1⟩)]
    rfl

theorem range_survives (e : ControlElement) :
    ((e.toJSONObject.range.or none).getD .fromAToZ = e.getRange ∧
        (e.toJSONObject.orientation.map (BitVec.setWidth 8)).getD 0 = e.orientation) ↔
      e.type = .rangeButton ∧ e.range ≠ none ∨ e.getRange = .fromAToZ ∧ e.orientation = 0 := by
  rw [orientation_survives]
  unfold toJSONObject getRange
  dsimp only
  by_cases htype : e.type = .rangeButton
  · cases hrange : e.range with
    | none =>
      simp only [htype, if_true, Option.or_none, Option.getD_none, Option.isSome_none,
        Bool.false_eq_true, and_false, if_false, ne_eq, not_true_eq_false, true_and, false_or]
      exact eq_comm
    | some range => simp [htype]
  · simp only [htype, if_false, Option.or_none, Option.getD_none, false_and, false_or]
    exact and_congr eq_comm eq_comm

/-- The element that is loaded for a saved one. -/
theorem load_save (e : ControlElement) :
    ∃ e', loadElement e.toJSONObject = .ok e' ∧ (Same e e' ↔ Survives e) := by
  obtain ⟨four, hfour, hnew⟩ := new_setType e.type
  have hbase := loadFields_eq { new with type := e.type, bindings := four } e.toJSONObject
  obtain ⟨bindings, states, hload, hbindings⟩ :=
    @loadBindings_four ({ new with type := e.type, bindings := four }.loadFields e.toJSONObject)
      (by rw [hbase]; exact hfour) e.bindings
  unfold loadElement
  rw [show new.setType e.toJSONObject.type = _ from hnew, ok_bind]
  refine ⟨_, hload, ?_⟩
  rw [hbase]
  constructor
  · intro h
    exact ⟨hbindings.mp h.bindings, (cheatCodeText_survives _).mp h.cheatCodeText,
      (customIconId_survives _).mp h.customIconId, (range_survives e).mp ⟨h.range, h.orientation⟩⟩
  · intro h
    obtain ⟨hrange, horientation⟩ := (range_survives e).mpr h.range
    exact ⟨rfl, rfl, hbindings.mpr h.bindings, rfl, rfl, byte_survives _,
      (cheatCodeText_survives _).mpr h.cheatCodeText,
      (customIconId_survives _).mpr h.customIconId, hrange, horientation⟩

/-! ## Profiles -/

theorem mapM_load (elements : List ControlElement) :
    ∃ loaded, (elements.map toJSONObject).mapM loadElement = .ok loaded ∧
      (List.Forall₂ Same elements loaded ↔ ∀ e ∈ elements, Survives e) := by
  induction elements with
  | nil => exact ⟨[], rfl, by simp⟩
  | cons e elements ih =>
    obtain ⟨e', he', hiff⟩ := load_save e
    obtain ⟨loaded, hloaded, hall⟩ := ih
    refine ⟨e' :: loaded, ?_, ?_⟩
    · rw [List.map_cons, List.mapM_cons, he', ok_bind, hloaded]
      rfl
    · rw [List.forall₂_cons, hiff, hall, List.forall_mem_cons]

variable {J : Type}

/-- The file of a profile after it has been saved. -/
theorem saveFile_elements {file : Option (ProfileFile Json J)} {p : Profile}
    {c : ProfileContents Json J} {speed : J} (hspeed : c.cursorSpeed = some speed)
    (hloaded : c.elementsLoaded = true ∨ file = none) :
    ∃ saved, ProfileManager.saveFile file p c = some saved ∧ saved.elements = some c.elements := by
  have helements : ProfileManager.elementsToSave file c = some c.elements := by
    unfold ProfileManager.elementsToSave
    cases file with
    | none => rfl
    | some file =>
      obtain hloaded | hnone := hloaded
      · simp [hloaded]
      · cases hnone
  unfold ProfileManager.saveFile
  rw [hspeed, helements]
  exact ⟨_, rfl, rfl⟩

/-- A profile that is saved and loaded has the same elements exactly when each of them survives. -/
theorem profile_survives_iff {file : Option (ProfileFile Json J)} {p : Profile}
    {c : ProfileContents Json J} {speed : J} (hspeed : c.cursorSpeed = some speed)
    (hloaded : c.elementsLoaded = true ∨ file = none) (elements : List ControlElement)
    (helements : c.elements = elements.map toJSONObject) :
    ∃ loaded virtualGamepad,
      loadElements (ProfileManager.saveFile file p c) = .ok (loaded, virtualGamepad) ∧
        (List.Forall₂ Same elements loaded ↔ ∀ e ∈ elements, Survives e) := by
  obtain ⟨saved, hsaved, hfile⟩ := @saveFile_elements J file p c speed hspeed hloaded
  obtain ⟨loaded, hmap, hiff⟩ := mapM_load elements
  refine ⟨loaded, (elements.map toJSONObject).any Json.hasGamepadBinding, ?_, hiff⟩
  unfold loadElements
  rw [hsaved, Option.bind_some, hfile, helements]
  simp only [hmap, ok_bind]
  rfl

def contents (elements : List ControlElement) : ProfileContents Json Nat :=
  ⟨some 1, true, elements.map toJSONObject, false, []⟩

/-- A button with the binding A. -/
theorem profile_survives_button :
    ∃ e loaded virtualGamepad, build [.setBindingAt 0 .keyA] = .ok e ∧
      loadElements (ProfileManager.saveFile none ⟨0, 1, "a"⟩ (contents [e])) =
        .ok (loaded, virtualGamepad) ∧ List.Forall₂ Same [e] loaded := by
  obtain ⟨e, he⟩ : ∃ e, build [.setBindingAt 0 .keyA] = .ok e := ⟨_, rfl⟩
  obtain ⟨loaded, virtualGamepad, hload, hiff⟩ :=
    @profile_survives_iff Nat none ⟨0, 1, "a"⟩ (contents [e]) 1 rfl (.inr rfl) [e] rfl
  refine ⟨e, loaded, virtualGamepad, he, hload, hiff.mpr fun e' he' => ?_⟩
  rw [List.mem_singleton.mp he']
  cases he
  refine ⟨⟨by decide, fun i hi hlt => ?_⟩, by decide, by decide, .inr ⟨rfl, rfl⟩⟩
  have hlt' : i + 1 < 4 := hlt
  omega

/-- A button that combines five keys loses the fourth. -/
theorem combine_button_loses :
    ∃ e e', build [.setType .combineButton, .setBindingCount 5, .setBindingAt 3 .keyA] = .ok e ∧
      loadElement e.toJSONObject = .ok e' ∧ ¬Same e e' := by
  obtain ⟨e, he⟩ : ∃ e,
      build [.setType .combineButton, .setBindingCount 5, .setBindingAt 3 .keyA] = .ok e := ⟨_, rfl⟩
  obtain ⟨e', hload, hiff⟩ := load_save e
  refine ⟨e, e', he, hload, fun hsame => ?_⟩
  have hfourth := (hiff.mp hsame).bindings.2 3 (by decide)
  cases he
  exact absurd (hfourth (by decide)) (by decide)

end ControlElement

end XoDos
