import XoDos.TerminalColors

/-!
# `TerminalColorScheme`

The built-in colours, and `updateWith`, which overrides them with the entries of a
properties file.  The table is reset first and then filled entry by entry, so what
an entry that is refused leaves behind depends on the entries before it.
-/

namespace XoDos

open TextStyle (numIndexedColors)

/-- A key or a value of a `Properties` object, which need not be a string. -/
inductive PropertyObject where
  | string (s : JavaString)
  | other (identity : Nat)
deriving DecidableEq, Repr

/-- The entries of a `Properties` object, in the order of its iteration. -/
structure Properties where
  entrySet : List (PropertyObject × PropertyObject)
  nodup : (entrySet.map Prod.fst).Nodup

structure TerminalColorScheme where
  mDefaultColors : List (BitVec 32)
  length_eq : mDefaultColors.length = numIndexedColors
deriving DecidableEq

namespace TerminalColorScheme

def defaultColorscheme : List (BitVec 32) :=
  [0xff000000, 0xffcd0000, 0xff00cd00, 0xffcdcd00, 0xff6495ed, 0xffcd00cd, 0xff00cdcd, 0xffe5e5e5,
   0xff7f7f7f, 0xffff0000, 0xff00ff00, 0xffffff00, 0xff5c5cff, 0xffff00ff, 0xff00ffff, 0xffffffff,
   0xff000000, 0xff00005f, 0xff000087, 0xff0000af, 0xff0000d7, 0xff0000ff,
   0xff005f00, 0xff005f5f, 0xff005f87, 0xff005faf, 0xff005fd7, 0xff005fff,
   0xff008700, 0xff00875f, 0xff008787, 0xff0087af, 0xff0087d7, 0xff0087ff,
   0xff00af00, 0xff00af5f, 0xff00af87, 0xff00afaf, 0xff00afd7, 0xff00afff,
   0xff00d700, 0xff00d75f, 0xff00d787, 0xff00d7af, 0xff00d7d7, 0xff00d7ff,
   0xff00ff00, 0xff00ff5f, 0xff00ff87, 0xff00ffaf, 0xff00ffd7, 0xff00ffff,
   0xff5f0000, 0xff5f005f, 0xff5f0087, 0xff5f00af, 0xff5f00d7, 0xff5f00ff,
   0xff5f5f00, 0xff5f5f5f, 0xff5f5f87, 0xff5f5faf, 0xff5f5fd7, 0xff5f5fff,
   0xff5f8700, 0xff5f875f, 0xff5f8787, 0xff5f87af, 0xff5f87d7, 0xff5f87ff,
   0xff5faf00, 0xff5faf5f, 0xff5faf87, 0xff5fafaf, 0xff5fafd7, 0xff5fafff,
   0xff5fd700, 0xff5fd75f, 0xff5fd787, 0xff5fd7af, 0xff5fd7d7, 0xff5fd7ff,
   0xff5fff00, 0xff5fff5f, 0xff5fff87, 0xff5fffaf, 0xff5fffd7, 0xff5fffff,
   0xff870000, 0xff87005f, 0xff870087, 0xff8700af, 0xff8700d7, 0xff8700ff,
   0xff875f00, 0xff875f5f, 0xff875f87, 0xff875faf, 0xff875fd7, 0xff875fff,
   0xff878700, 0xff87875f, 0xff878787, 0xff8787af, 0xff8787d7, 0xff8787ff,
   0xff87af00, 0xff87af5f, 0xff87af87, 0xff87afaf, 0xff87afd7, 0xff87afff,
   0xff87d700, 0xff87d75f, 0xff87d787, 0xff87d7af, 0xff87d7d7, 0xff87d7ff,
   0xff87ff00, 0xff87ff5f, 0xff87ff87, 0xff87ffaf, 0xff87ffd7, 0xff87ffff,
   0xffaf0000, 0xffaf005f, 0xffaf0087, 0xffaf00af, 0xffaf00d7, 0xffaf00ff,
   0xffaf5f00, 0xffaf5f5f, 0xffaf5f87, 0xffaf5faf, 0xffaf5fd7, 0xffaf5fff,
   0xffaf8700, 0xffaf875f, 0xffaf8787, 0xffaf87af, 0xffaf87d7, 0xffaf87ff,
   0xffafaf00, 0xffafaf5f, 0xffafaf87, 0xffafafaf, 0xffafafd7, 0xffafafff,
   0xffafd700, 0xffafd75f, 0xffafd787, 0xffafd7af, 0xffafd7d7, 0xffafd7ff,
   0xffafff00, 0xffafff5f, 0xffafff87, 0xffafffaf, 0xffafffd7, 0xffafffff,
   0xffd70000, 0xffd7005f, 0xffd70087, 0xffd700af, 0xffd700d7, 0xffd700ff,
   0xffd75f00, 0xffd75f5f, 0xffd75f87, 0xffd75faf, 0xffd75fd7, 0xffd75fff,
   0xffd78700, 0xffd7875f, 0xffd78787, 0xffd787af, 0xffd787d7, 0xffd787ff,
   0xffd7af00, 0xffd7af5f, 0xffd7af87, 0xffd7afaf, 0xffd7afd7, 0xffd7afff,
   0xffd7d700, 0xffd7d75f, 0xffd7d787, 0xffd7d7af, 0xffd7d7d7, 0xffd7d7ff,
   0xffd7ff00, 0xffd7ff5f, 0xffd7ff87, 0xffd7ffaf, 0xffd7ffd7, 0xffd7ffff,
   0xffff0000, 0xffff005f, 0xffff0087, 0xffff00af, 0xffff00d7, 0xffff00ff,
   0xffff5f00, 0xffff5f5f, 0xffff5f87, 0xffff5faf, 0xffff5fd7, 0xffff5fff,
   0xffff8700, 0xffff875f, 0xffff8787, 0xffff87af, 0xffff87d7, 0xffff87ff,
   0xffffaf00, 0xffffaf5f, 0xffffaf87, 0xffffafaf, 0xffffafd7, 0xffffafff,
   0xffffd700, 0xffffd75f, 0xffffd787, 0xffffd7af, 0xffffd7d7, 0xffffd7ff,
   0xffffff00, 0xffffff5f, 0xffffff87, 0xffffffaf, 0xffffffd7, 0xffffffff,
   0xff080808, 0xff121212, 0xff1c1c1c, 0xff262626, 0xff303030, 0xff3a3a3a,
   0xff444444, 0xff4e4e4e, 0xff585858, 0xff626262, 0xff6c6c6c, 0xff767676,
   0xff808080, 0xff8a8a8a, 0xff949494, 0xff9e9e9e, 0xffa8a8a8, 0xffb2b2b2,
   0xffbcbcbc, 0xffc6c6c6, 0xffd0d0d0, 0xffdadada, 0xffe4e4e4, 0xffeeeeee,
   0xffffffff, 0xff000000, 0xffffffff]

theorem defaultColorscheme_length : defaultColorscheme.length = numIndexedColors := by
  decide +kernel

/-- `reset()`, which the constructor calls. -/
def reset : TerminalColorScheme := ⟨defaultColorscheme, defaultColorscheme_length⟩

def withColor (s : TerminalColorScheme) (index : Nat) (color : BitVec 32) : TerminalColorScheme :=
  ⟨s.mDefaultColors.set index color, by rw [List.length_set, s.length_eq]⟩

/-- `mDefaultColors[index] = color` -/
def set (s : TerminalColorScheme) (index : Int) (color : BitVec 32) : Java TerminalColorScheme :=
  if 0 ≤ index ∧ index < numIndexedColors then .ok (s.withColor index.toNat color)
  else .error .arrayIndexOutOfBounds

/-! ## Entries -/

/-- The cast `(String)`. -/
def asString : PropertyObject → Java JavaString
  | .string s => .ok s
  | .other _ => .error .classCast

section Entries

variable [Platform]

def colorIndex (key : JavaString) : Java Int :=
  if key = ascii "foreground" then .ok 256
  else if key = ascii "background" then .ok 257
  else if key = ascii "cursor" then .ok 258
  else if (ascii "color").isPrefixOf key then
    match parseInt (key.drop 5) 10 with
    | some index => .ok index
    | none => .error .illegalArgument
  else .error .illegalArgument

/-- What the loop reads from an entry: the key, the index and the colour. -/
def readEntry (entry : PropertyObject × PropertyObject) :
    Java (JavaString × Int × BitVec 32) := do
  let key ← asString entry.1
  let value ← asString entry.2
  let index ← colorIndex key
  let colorValue := TerminalColors.parse value
  if colorValue = 0 then .error .illegalArgument else .ok (key, index, colorValue)

/-- One turn of the loop, on the table and `cursorPropExists`. -/
def putEntry (s : TerminalColorScheme × Bool) (entry : PropertyObject × PropertyObject) :
    Java (TerminalColorScheme × Bool) := do
  let (key, index, colorValue) ← readEntry entry
  let scheme ← s.1.set index colorValue
  return (scheme, s.2 || key = ascii "cursor")

/-- The loop.  An exception leaves the table as it is then. -/
def putEntries (s : TerminalColorScheme × Bool) :
    List (PropertyObject × PropertyObject) → (TerminalColorScheme × Bool) × Option JavaException
  | [] => (s, none)
  | entry :: entries =>
    match putEntry s entry with
    | .ok s' => putEntries s' entries
    | .error e => (s, some e)

end Entries

/-! ## The cursor -/

/-- `getPerceivedBrightnessOfColor`, in doubles. -/
def perceivedBrightness (color : BitVec 32) : Int :=
  let square (shift : Nat) (weight : ℚ) : ℚ :=
    Binary64.round ((((color >>> shift) &&& 0xff).toNat : ℚ) ^ 2 * Binary64.round weight)
  ⌊Binary64.sqrt (Binary64.round (Binary64.round (square 16 0.241 + square 8 0.691) +
    square 0 0.068))⌋

/-- The cursor that shows on the background, unless that is black. -/
def visibleCursor (background : BitVec 32) : Option (BitVec 32) :=
  let brightness := perceivedBrightness background
  if 0 < brightness then some (if brightness < 130 then 0xffffffff else 0xff000000) else none

def backgroundColor (s : TerminalColorScheme) : BitVec 32 := s.mDefaultColors.getD 257 0

def withCursorColor (s : TerminalColorScheme) : Option (BitVec 32) → TerminalColorScheme
  | some color => s.withColor 258 color
  | none => s

def setCursorColorForBackground (s : TerminalColorScheme) : TerminalColorScheme :=
  s.withCursorColor (visibleCursor s.backgroundColor)

/-- What comes after the loop. -/
def finish : (TerminalColorScheme × Bool) × Option JavaException →
    TerminalColorScheme × Option JavaException
  | ((s, _), some e) => (s, some e)
  | ((s, true), none) => (s, none)
  | ((s, false), none) => (s.setCursorColorForBackground, none)

/-- `updateWith(props)`: the table afterwards, and the exception if there is one. -/
def updateWith [Platform] (_ : TerminalColorScheme) (props : Properties) :
    TerminalColorScheme × Option JavaException :=
  finish (putEntries (reset, false) props.entrySet)

/-! ## What a properties file asks for -/

/-- The colours with some of them overridden, in order. -/
def overriding (writes : List (Nat × BitVec 32)) (colors : Nat → BitVec 32) : Nat → BitVec 32 :=
  writes.foldl (fun colors w => Function.update colors w.1 w.2) colors

def builtIn (i : Nat) : BitVec 32 := defaultColorscheme.getD i 0

def cursorColored (colors : Nat → BitVec 32) : Option (BitVec 32) → Nat → BitVec 32
  | some color => Function.update colors 258 color
  | none => colors

/-- If no cursor colour is listed, the cursor has to show on the background. -/
def withCursor (cursorListed : Bool) (colors : Nat → BitVec 32) : Nat → BitVec 32 :=
  if cursorListed then colors else cursorColored colors (visibleCursor (colors 257))

/-- The table holds these colours. -/
def Holds (s : TerminalColorScheme) (colors : Nat → BitVec 32) : Prop :=
  ∀ i < numIndexedColors, s.mDefaultColors[i]? = some (colors i)

def isCursor (entry : PropertyObject × PropertyObject) : Bool :=
  entry.1 = .string (ascii "cursor")

section Specification

variable [Platform]

/-- `foreground`, `background`, `cursor` or `colorN` with `0 <= N < 256`. -/
def listedIndex (key : JavaString) : Option Nat :=
  if key = ascii "foreground" then some 256
  else if key = ascii "background" then some 257
  else if key = ascii "cursor" then some 258
  else if (ascii "color").isPrefixOf key then
    (parseInt (key.drop 5) 10).bind fun n => if 0 ≤ n ∧ n < 256 then some n.toNat else none
  else none

/-- The index and the colour of a listed entry. -/
def listed : PropertyObject × PropertyObject → Option (Nat × BitVec 32)
  | (.string key, .string value) =>
    if TerminalColors.parse value = 0 then none
    else (listedIndex key).map fun i => (i, TerminalColors.parse value)
  | _ => none

/-- The defaults overridden by the listed entries. -/
def installed (props : Properties) : Nat → BitVec 32 :=
  withCursor (props.entrySet.any isCursor) (overriding (props.entrySet.filterMap listed) builtIn)

/-- The new colours are installed, or the exception leaves the old ones. -/
def AllOrNothing (s : TerminalColorScheme) (props : Properties) : Prop :=
  (∃ s', s.updateWith props = (s', none) ∧ s'.Holds (installed props)) ∨
    s.updateWith props = (s, some .illegalArgument)

/-- The index and the colour of an entry that is not refused. -/
def accepted (entry : PropertyObject × PropertyObject) : Option (Nat × BitVec 32) :=
  match readEntry entry with
  | .ok (_, index, color) =>
    if 0 ≤ index ∧ index < numIndexedColors then some (index.toNat, color) else none
  | .error _ => none

/-- Keys such as `color257`, which are not listed, do not change what the last listed entry gives. -/
def NoAlias (props : Properties) : Prop :=
  let all := overriding (props.entrySet.filterMap accepted) builtIn
  let named := overriding (props.entrySet.filterMap listed) builtIn
  all 256 = named 256 ∧ all 257 = named 257 ∧
    (props.entrySet.any isCursor ∨ visibleCursor (named 257) = none → all 258 = named 258)

/-- The first entry that is refused is refused as it should, and the old table happens to be the
built-in one overridden by the entries before it. -/
def RefusedInPlace (s : TerminalColorScheme) (props : Properties) : Prop :=
  ∃ before entry after, props.entrySet = before ++ entry :: after ∧
    (∀ e ∈ before, accepted e ≠ none) ∧ readEntry entry = .error .illegalArgument ∧
    s.Holds (overriding (before.filterMap accepted) builtIn)

end Specification

/-! ## Tables -/

section Tables

variable {s s' : TerminalColorScheme} {f g : Nat → BitVec 32}

theorem holds_reset : reset.Holds builtIn := by
  intro i hi
  have hlt : i < defaultColorscheme.length := by rwa [defaultColorscheme_length]
  simp only [reset, builtIn, List.getD_eq_getElem?_getD, List.getElem?_eq_getElem hlt,
    Option.getD_some]

theorem Holds.eq_iff (h : s.Holds f) : s.Holds g ↔ ∀ i < numIndexedColors, f i = g i := by
  constructor
  · intro h' i hi
    exact Option.some.inj ((h i hi).symm.trans (h' i hi))
  · intro heq i hi
    rw [h i hi, heq i hi]

theorem Holds.ext (h : s.Holds f) (h' : s'.Holds f) : s = s' := by
  have heq : s.mDefaultColors = s'.mDefaultColors := by
    apply List.ext_getElem?
    intro i
    by_cases hi : i < numIndexedColors
    · rw [h i hi, h' i hi]
    · rw [List.getElem?_eq_none (by rw [s.length_eq]; omega),
        List.getElem?_eq_none (by rw [s'.length_eq]; omega)]
  cases s
  cases s'
  cases heq
  rfl

theorem holds_withColor {i : Nat} (h : s.Holds f) (color : BitVec 32) (hi : i < numIndexedColors) :
    (s.withColor i color).Holds (Function.update f i color) := by
  intro j hj
  have hlt : i < s.mDefaultColors.length := by rwa [s.length_eq]
  simp only [withColor, List.getElem?_set]
  by_cases hij : i = j
  · rw [if_pos hij, ← hij, if_pos hlt, Function.update_self]
  · rw [if_neg hij, h j hj, Function.update_of_ne (Ne.symm hij)]

theorem withCursor_true (f : Nat → BitVec 32) : withCursor true f = f := if_pos rfl

theorem setCursor_holds (h : s.Holds f) : s.setCursorColorForBackground.Holds (withCursor false f) := by
  have hbackground : s.backgroundColor = f 257 := by
    rw [backgroundColor, List.getD_eq_getElem?_getD, h 257 (by decide), Option.getD_some]
  rw [setCursorColorForBackground, hbackground, withCursor, if_neg Bool.false_ne_true]
  cases visibleCursor (f 257) with
  | none => exact h
  | some color => exact holds_withColor h color (by decide)

/-- Two tables that agree on the indices below 256. -/
theorem withCursor_eq_iff (b : Bool) (hlow : ∀ i < 256, f i = g i) :
    (∀ i < numIndexedColors, withCursor b f i = withCursor b g i) ↔
      f 256 = g 256 ∧ f 257 = g 257 ∧ (b ∨ visibleCursor (g 257) = none → f 258 = g 258) := by
  have hne : ∀ f i, i ≠ 258 → withCursor b f i = f i := by
    intro f i hi
    cases b with
    | true => rw [withCursor_true]
    | false =>
      rw [withCursor, if_neg Bool.false_ne_true]
      cases visibleCursor (f 257) with
      | none => rfl
      | some color => exact Function.update_of_ne hi color f
  have hcursor : f 257 = g 257 → (withCursor b f 258 = withCursor b g 258 ↔
      (b ∨ visibleCursor (g 257) = none → f 258 = g 258)) := by
    intro hbackground
    rw [withCursor, withCursor, hbackground]
    cases b <;> cases visibleCursor (g 257) <;> simp [cursorColored]
  constructor
  · intro h
    have h256 := h 256 (by decide)
    have h257 := h 257 (by decide)
    rw [hne _ _ (by decide), hne _ _ (by decide)] at h256 h257
    exact ⟨h256, h257, (hcursor h257).mp (h 258 (by decide))⟩
  · rintro ⟨h256, h257, h258⟩ i hi
    by_cases hi' : i = 258
    · rw [hi']
      exact (hcursor h257).mpr h258
    · rw [hne _ _ hi', hne _ _ hi']
      have hcases : i < 256 ∨ i = 256 ∨ i = 257 := by
        have hnum : numIndexedColors = 259 := rfl
        omega
      rcases hcases with hlt | rfl | rfl
      · exact hlow i hlt
      · exact h256
      · exact h257

end Tables

/-! ## The loop -/

section Loop

variable [Platform] {s : TerminalColorScheme} {f g : Nat → BitVec 32} {b : Bool}
  {entry : PropertyObject × PropertyObject} {entries : List (PropertyObject × PropertyObject)}

/-- An entry that is not refused. -/
theorem putEntry_accepted {i : Nat} {color : BitVec 32} (h : accepted entry = some (i, color))
    (hs : s.Holds f) :
    ∃ s', putEntry (s, b) entry = .ok (s', b || isCursor entry) ∧
      s'.Holds (Function.update f i color) := by
  obtain ⟨key, value⟩ := entry
  unfold accepted at h
  cases hread : readEntry (key, value) with
  | error e => simp [hread] at h
  | ok r =>
    obtain ⟨text, index, color'⟩ := r
    simp only [hread] at h
    split_ifs at h with hindex
    obtain ⟨rfl, rfl⟩ := Prod.mk.inj (Option.some.inj h)
    have hkey : key = .string text := by
      cases key with
      | other n => simp [readEntry, asString, bind, Except.bind] at hread
      | string k =>
        simp only [readEntry, asString, ok_bind, bind_eq_ok] at hread
        rcases hread with ⟨v, -, j, -, hread⟩
        split_ifs at hread
        cases hread
        rfl
    refine ⟨s.withColor index.toNat color', ?_, holds_withColor hs color' (by omega)⟩
    rw [hkey] at hread
    simp [putEntry, hread, set, hindex, isCursor, hkey, pure, Except.pure]

theorem putEntry_refused (h : accepted entry = none) :
    ∃ e, putEntry (s, b) entry = .error e ∧
      (e = .illegalArgument ↔ readEntry entry = .error .illegalArgument) := by
  unfold accepted at h
  cases hread : readEntry entry with
  | error e => exact ⟨e, by rw [putEntry, hread, error_bind], by simp⟩
  | ok r =>
    obtain ⟨text, index, color⟩ := r
    simp only [hread] at h
    split_ifs at h with hindex
    exact ⟨.arrayIndexOutOfBounds, by simp [putEntry, hread, set, hindex], by simp⟩

/-- A run of entries that are not refused. -/
theorem putEntries_accepted (rest : List (PropertyObject × PropertyObject))
    (h : ∀ e ∈ entries, accepted e ≠ none) (hs : s.Holds f) :
    ∃ s', putEntries (s, b) (entries ++ rest) = putEntries (s', b || entries.any isCursor) rest ∧
      s'.Holds (overriding (entries.filterMap accepted) f) := by
  induction entries generalizing s f b with
  | nil => exact ⟨s, by simp, hs⟩
  | cons entry entries ih =>
    obtain ⟨⟨i, color⟩, hw⟩ := Option.ne_none_iff_exists'.mp (h entry (by simp))
    obtain ⟨s₁, hput, hs₁⟩ := putEntry_accepted (b := b) hw hs
    obtain ⟨s₂, hrun, hs₂⟩ := ih (b := b || isCursor entry) (fun e he => h e (by simp [he])) hs₁
    refine ⟨s₂, ?_, ?_⟩
    · rw [List.cons_append, putEntries, hput]
      simpa [Bool.or_assoc] using hrun
    · rw [List.filterMap_cons_some hw]
      exact hs₂

/-- An entry that is accepted is a listed one, or has an index from 256 on. -/
theorem accepted_cases (entry : PropertyObject × PropertyObject) :
    accepted entry = listed entry ∨
      listed entry = none ∧ ∃ i color, accepted entry = some (i, color) ∧ 256 ≤ i := by
  rcases entry with ⟨key | n, value | n⟩
  · simp only [accepted, readEntry, asString, listed, ok_bind]
    generalize TerminalColors.parse value = color
    have hnum : numIndexedColors = 259 := rfl
    by_cases hcolor : color = 0
    · left
      cases colorIndex key <;> simp [hcolor]
    · simp only [if_neg hcolor, colorIndex, listedIndex]
      split_ifs
      · left; rfl
      · left; rfl
      · left; rfl
      · cases parseInt (key.drop 5) 10 with
        | none => left; rfl
        | some index =>
          simp only [ok_bind, Option.bind_some]
          by_cases hlow : 0 ≤ index ∧ index < 256
          · left
            rw [if_pos hlow, if_pos (by omega), Option.map_some]
          · rw [if_neg hlow, Option.map_none]
            split_ifs with hindex
            · exact .inr ⟨rfl, _, _, rfl, by omega⟩
            · exact .inl rfl
      · left; rfl
  · exact .inl rfl
  · exact .inl rfl
  · exact .inl rfl

/-- Below 256 only the listed entries count. -/
theorem overriding_eq {i : Nat} (hi : i < 256) (hfg : f i = g i) :
    overriding (entries.filterMap accepted) f i = overriding (entries.filterMap listed) g i := by
  induction entries generalizing f g with
  | nil => exact hfg
  | cons entry entries ih =>
    rcases accepted_cases entry with heq | ⟨hnone, j, color, hj, hle⟩
    · cases hw : listed entry with
      | none =>
        rw [List.filterMap_cons_none (heq.trans hw), List.filterMap_cons_none hw]
        exact ih hfg
      | some w =>
        rw [List.filterMap_cons_some (heq.trans hw), List.filterMap_cons_some hw]
        apply ih
        simp only [Function.update_apply, hfg]
    · rw [List.filterMap_cons_some hj, List.filterMap_cons_none hnone]
      apply ih
      have hne : i ≠ j := by omega
      exact (Function.update_of_ne hne color f).trans hfg

/-- Either all entries are accepted, or there is a first one that is not. -/
theorem first_refused (entries : List (PropertyObject × PropertyObject)) :
    (∀ e ∈ entries, accepted e ≠ none) ∨
      ∃ before entry after, entries = before ++ entry :: after ∧
        (∀ e ∈ before, accepted e ≠ none) ∧ accepted entry = none := by
  induction entries with
  | nil => exact .inl (by simp)
  | cons entry entries ih =>
    by_cases hentry : accepted entry = none
    · exact .inr ⟨[], entry, entries, rfl, by simp, hentry⟩
    · rcases ih with hall | ⟨before, e, after, rfl, hbefore, he⟩
      · exact .inl (by simpa [hentry] using hall)
      · exact .inr ⟨entry :: before, e, after, rfl, by simpa [hentry] using hbefore, he⟩

theorem first_refused_unique {before before' after after' : List (PropertyObject × PropertyObject)}
    {entry' : PropertyObject × PropertyObject}
    (h : before ++ entry :: after = before' ++ entry' :: after')
    (hbefore : ∀ e ∈ before, accepted e ≠ none) (hentry : accepted entry = none)
    (hbefore' : ∀ e ∈ before', accepted e ≠ none) (hentry' : accepted entry' = none) :
    before = before' ∧ entry = entry' := by
  rcases List.append_eq_append_iff.mp h with ⟨mid, rfl, hmid⟩ | ⟨mid, rfl, hmid⟩
  · cases mid with
    | nil => exact ⟨(List.append_nil _).symm, (List.cons.inj hmid).1⟩
    | cons e mid =>
      cases hmid
      exact absurd hentry (hbefore' entry (by simp))
  · cases mid with
    | nil => exact ⟨List.append_nil _, (List.cons.inj hmid).1.symm⟩
    | cons e mid =>
      cases hmid
      exact absurd hentry' (hbefore entry' (by simp))

end Loop

/-! ## The whole update -/

section Update

variable [Platform] {s : TerminalColorScheme} {props : Properties}

theorem updateWith_accepted (h : ∀ e ∈ props.entrySet, accepted e ≠ none) :
    ∃ s', s.updateWith props = (s', none) ∧
      s'.Holds (withCursor (props.entrySet.any isCursor)
        (overriding (props.entrySet.filterMap accepted) builtIn)) := by
  obtain ⟨s', hrun, hs'⟩ := putEntries_accepted (b := false) [] h holds_reset
  rw [List.append_nil, Bool.false_or, putEntries] at hrun
  rw [updateWith, hrun]
  cases props.entrySet.any isCursor with
  | true => exact ⟨s', rfl, by rwa [withCursor_true]⟩
  | false => exact ⟨_, rfl, setCursor_holds hs'⟩

theorem updateWith_refused {before after : List (PropertyObject × PropertyObject)}
    {entry : PropertyObject × PropertyObject} (hprops : props.entrySet = before ++ entry :: after)
    (h : ∀ e ∈ before, accepted e ≠ none) (hentry : accepted entry = none) :
    ∃ s' e, s.updateWith props = (s', some e) ∧
      s'.Holds (overriding (before.filterMap accepted) builtIn) ∧
      (e = .illegalArgument ↔ readEntry entry = .error .illegalArgument) := by
  obtain ⟨s', hrun, hs'⟩ := putEntries_accepted (b := false) (entry :: after) h holds_reset
  obtain ⟨e, hput, he⟩ := putEntry_refused (s := s') (b := false || before.any isCursor) hentry
  rw [putEntries, hput] at hrun
  rw [updateWith, hprops, hrun]
  exact ⟨s', e, rfl, hs', he⟩

/-- If no entry is refused, the update is as it should be unless a key such as `color257` takes the
place of a listed one. -/
theorem allOrNothing_accepted (h : ∀ e ∈ props.entrySet, accepted e ≠ none) :
    AllOrNothing s props ↔ NoAlias props := by
  obtain ⟨s', hupdate, hs'⟩ := updateWith_accepted (s := s) h
  have hiff := withCursor_eq_iff (props.entrySet.any isCursor)
    (fun i hi => @overriding_eq _ builtIn builtIn props.entrySet i hi rfl)
  rw [NoAlias, ← hiff]
  constructor
  · rintro (⟨t, ht, hholds⟩ | ht)
    · rw [hupdate] at ht
      cases ht
      exact hs'.eq_iff.mp hholds
    · rw [hupdate] at ht
      cases ht
  · intro heq
    exact .inl ⟨s', hupdate, hs'.eq_iff.mpr heq⟩

/-- An update is all or nothing exactly if it refuses no entry, and has no entry for another name of
one of the three special colours that makes a difference, or if the entry refused first is refused
properly and the table was as the entries before it make it. -/
theorem allOrNothing_iff (s : TerminalColorScheme) (props : Properties) :
    AllOrNothing s props ↔
      (∀ e ∈ props.entrySet, accepted e ≠ none) ∧ NoAlias props ∨ RefusedInPlace s props := by
  rcases first_refused props.entrySet with hall | ⟨before, entry, after, hprops, hbefore, hentry⟩
  · rw [allOrNothing_accepted hall]
    constructor
    · exact fun h => .inl ⟨hall, h⟩
    · rintro (⟨-, h⟩ | ⟨before, entry, after, hprops, -, herror, -⟩)
      · exact h
      · apply absurd (hall entry (by simp [hprops]))
        simp [accepted, herror]
  · obtain ⟨s', e, hupdate, hs', he⟩ := updateWith_refused (s := s) hprops hbefore hentry
    constructor
    · rintro (⟨t, ht, -⟩ | ht)
      · rw [hupdate] at ht
        cases ht
      · rw [hupdate] at ht
        obtain ⟨rfl, hsome⟩ := Prod.mk.inj ht
        exact .inr ⟨before, entry, after, hprops, hbefore, he.mp (Option.some.inj hsome), hs'⟩
    · rintro (⟨hall, -⟩ | ⟨before', entry', after', hprops', hbefore', herror, hs⟩)
      · exact absurd hentry (hall entry (by simp [hprops]))
      · have hnone : accepted entry' = none := by simp [accepted, herror]
        obtain ⟨rfl, rfl⟩ := first_refused_unique (hprops.symm.trans hprops') hbefore hentry hbefore' hnone
        obtain rfl := hs'.ext hs
        exact .inr (by rw [hupdate, he.mpr herror])

end Update

/-- A theme with `color1`, and then one that has only an unknown key: the exception resets the
theme. -/
theorem unknown_key_resets :
    let theme : Properties :=
      ⟨[(.string (ascii "color1"), .string (ascii "#fefefe"))], by decide⟩
    let unknown : Properties := ⟨[(.string (ascii "foo"), .string (ascii "bar"))], by decide⟩
    ¬@AllOrNothing plainPlatform (@updateWith plainPlatform reset theme).1 unknown := by
  intro theme unknown
  have hexception : (@updateWith plainPlatform (@updateWith plainPlatform reset theme).1 unknown).2 ≠
      none := by decide +kernel
  have hred : (@updateWith plainPlatform (@updateWith plainPlatform reset theme).1
      unknown).1.mDefaultColors[1]? ≠
      (@updateWith plainPlatform reset theme).1.mDefaultColors[1]? := by decide +kernel
  rintro (⟨s', hs', -⟩ | hs')
  · exact hexception (congrArg Prod.snd hs')
  · apply hred
    rw [hs']

end TerminalColorScheme

end XoDos
