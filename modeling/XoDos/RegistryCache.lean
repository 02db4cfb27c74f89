import XoDos.RegistryWrite
import XoDos.Run

/-!
# The position of the parent key

`lastParentKeyPosition` is the position of the first line that starts like the parent of a key, and
the next search under the same parent starts there.  It is taken down by every search, while
`lastParentKey` is changed by `setRawValue` only.

The lines of the file end with LF.
-/

namespace XoDos

namespace WineRegistryEditor

/-- The start of the lines of a key and of everything below it. -/
def parentText (parent : JavaString) : JavaString := 0x5B :: escape parent

/-- The start of the lines of the keys below it. -/
def childText (parent : JavaString) : JavaString := 0x5B :: escape (parent ++ [0x5C])

theorem parentText_childText (parent : JavaString) : parentText parent <+: childText parent :=
  ⟨escape [0x5C], by simp [parentText, childText]⟩

theorem childText_isPrefix {key parent : JavaString} (h : parentKey key = some parent)
    (keyAsPrefix : Bool) : childText parent <+: keyText key keyAsPrefix := by
  obtain ⟨rest, rfl, -⟩ := parentKey_some h
  refine ⟨escape rest ++ if keyAsPrefix then [] else [0x5D], ?_⟩
  have hrest : escape (0x5C :: rest) = escape [0x5C] ++ escape rest := escape_append [0x5C] rest
  simp [keyText, childText, hrest]

/-! ## Positions -/

/-- The position is the start of a line, and no line before it starts with the text. -/
def Clear (file : JavaString) (position : Nat) (text : JavaString) : Prop :=
  ∃ skipped rest, file = unlines skipped ++ rest ∧ position = (unlines skipped).length ∧
    ∀ l ∈ skipped, OneLine l ∧ ¬text <+: l

variable {file key parent text : JavaString} {position : Nat} {keyAsPrefix : Bool}

theorem clear_zero (file text : JavaString) : Clear file 0 text := ⟨[], file, rfl, rfl, by simp⟩

theorem Clear.le_length (h : Clear file position text) : position ≤ file.length := by
  obtain ⟨skipped, rest, rfl, rfl, -⟩ := h
  simp

/-- A search from such a position finds what a search from the start finds. -/
theorem Clear.getKeyLocation (h : Clear file position (childText parent))
    (hparent : parentKey key = some parent) (keyAsPrefix : Bool) :
    (getKeyLocation file position key keyAsPrefix).1 = (getKeyLocation file 0 key keyAsPrefix).1 := by
  obtain ⟨skipped, rest, rfl, rfl, hskipped⟩ := h
  have hone : ∀ l ∈ skipped, OneLine l := fun l hl => (hskipped l hl).1
  have hno : ∀ l ∈ skipped, ¬keyText key keyAsPrefix <+: l := fun l hl hp =>
    (hskipped l hl).2 ((childText_isPrefix hparent keyAsPrefix).trans hp)
  rw [getKeyLocation_fst, linesOf_unlines hone, keyLoop_skip hno, Nat.zero_add]
  by_cases hzero : (unlines skipped).length = 0
  · have hnil : unlines skipped = [] := List.length_eq_zero_iff.mp hzero
    rw [hzero, getKeyLocation_fst, hnil, List.nil_append]
  · simp only [WineRegistryEditor.getKeyLocation, if_neg hzero, List.drop_left]
    exact keyLoop_position _ _ _

/-- The first line of the parent, if there is one, is the position that a search takes down. -/
theorem getKeyLocation_zero_snd (file : JavaString) (hparent : parentKey key = some parent) :
    ((∀ l ∈ linesOf file, ¬parentText parent <+: l) ∧
        (getKeyLocation file 0 key keyAsPrefix).2 = 0) ∨
      ∃ pre line post, linesOf file = pre ++ line :: post ∧ parentText parent <+: line ∧
        (∀ l ∈ pre, ¬parentText parent <+: l) ∧
        (getKeyLocation file 0 key keyAsPrefix).2 = (unlines pre).length := by
  simp only [getKeyLocation, if_true, hparent, Option.map_some, List.drop_zero]
  have h := @keyLoop_parent_snd (keyText key keyAsPrefix) (parentText parent) 0 0 (linesOf file)
  simp only [Nat.zero_add] at h
  exact h

theorem getKeyLocation_zero_none (file : JavaString) (hparent : parentKey key = none) :
    (getKeyLocation file 0 key keyAsPrefix).2 = 0 := by
  simp only [getKeyLocation, if_true, hparent, Option.map_none]
  exact keyLoop_none_snd _ _

theorem getKeyLocation_pos_snd (file : JavaString) (hpos : position ≠ 0) :
    (getKeyLocation file position key keyAsPrefix).2 = position := by
  simp only [getKeyLocation, if_neg hpos]
  exact keyLoop_none_snd _ _

/-- Whole lines before a line of the file. -/
theorem clear_at_line (hcr : 0x0D ∉ file) {pre post : List JavaString} {line : JavaString}
    (hlines : linesOf file = pre ++ line :: post) (hno : ∀ l ∈ pre, ¬text <+: l) :
    Clear file (unlines pre).length text := by
  obtain ⟨tail, htext, -⟩ := text_at_line hcr hlines
  refine ⟨pre, line ++ tail, htext, rfl, fun l hl => ⟨?_, hno l hl⟩⟩
  exact (unlines_linesOf hcr).1 l (by simp [hlines, hl])

/-- A search keeps the position clear of a text that starts like the parent of the key. -/
theorem Clear.search (h : Clear file position text) (hcr : 0x0D ∉ file)
    (htext : ∀ parent, parentKey key = some parent → parentText parent <+: text) :
    Clear file (WineRegistryEditor.getKeyLocation file position key keyAsPrefix).2 text := by
  by_cases hpos : position = 0
  · subst hpos
    cases hparent : parentKey key with
    | none => rwa [getKeyLocation_zero_none file hparent]
    | some parent =>
      rcases @getKeyLocation_zero_snd key parent keyAsPrefix file hparent with
        ⟨-, hzero⟩ | ⟨pre, line, post, hlines, -, hno, hsnd⟩
      · rwa [hzero]
      · rw [hsnd]
        exact clear_at_line hcr hlines fun l hl hp => hno l hl ((htext parent hparent).trans hp)
  · rwa [getKeyLocation_pos_snd file hpos]

/-! ## Places behind a position -/

theorem sectionStop_ge (total blanks : Nat) (lines : List JavaString) :
    total - blanks - 1 ≤ sectionStop total blanks lines := by
  induction lines generalizing total blanks with
  | nil => simp only [sectionStop]; omega
  | cons line lines ih =>
    rw [sectionStop]
    split_ifs with h₁ h₂
    · exact le_rfl
    · have := ih (total + line.length + 1) (blanks + 1)
      omega
    · have := ih (total + line.length + 1) 0
      omega

/-- What is found is not before the position that is taken down. -/
theorem keyLoop_ge {key : JavaString} {parent : Option JavaString} {position total : Nat}
    {lines : List JavaString} {location : Location} (hpos : position ≤ total)
    (h : (keyLoop key parent position total lines).1 = some location) :
    (keyLoop key parent position total lines).2 < location.start ∧
      location.start ≤ location.stop + 1 := by
  induction lines generalizing parent position total with
  | nil => simp [keyLoop] at h
  | cons line lines ih =>
    rw [keyLoop] at h ⊢
    split_ifs at h ⊢ with h₁ h₂ h₂
    · cases h
      have := sectionStop_ge (total + line.length + 1) 0 lines
      exact ⟨by simp only; omega, by simp only; omega⟩
    · exact ih (by omega) h
    · cases h
      have := sectionStop_ge (total + line.length + 1) 0 lines
      exact ⟨by simp only; omega, by simp only; omega⟩
    · exact ih (by omega) h

theorem getKeyLocation_ge {location : Location}
    (h : (getKeyLocation file position key keyAsPrefix).1 = some location) :
    (getKeyLocation file position key keyAsPrefix).2 < location.start ∧
      location.start ≤ location.stop + 1 :=
  keyLoop_ge le_rfl h

theorem valueLoop_offset {name : JavaString} {length total : Nat} {lines : List JavaString}
    {location : Location} (h : valueLoop name length total lines = some location) :
    -1 ≤ location.offset := by
  induction lines generalizing total with
  | nil => simp [valueLoop] at h
  | cons line lines ih =>
    rw [valueLoop] at h
    simp only at h
    split_ifs at h
    · cases h
      simp only
      omega
    · exact ih h

theorem getValueLocation_ge {keyLocation location : Location} {name : Option JavaString}
    (h : getValueLocation file keyLocation name = some location) :
    (keyLocation.start : Int) - 1 ≤ location.offset ∧ keyLocation.start ≤ location.start := by
  unfold getValueLocation at h
  split_ifs at h
  obtain ⟨l, hl, rfl⟩ := Option.map_eq_some_iff.mp h
  have := valueLoop_offset hl
  exact ⟨by simp only; omega, by simp only; omega⟩

/-! ## Edits behind a position -/

/-- An edit behind a clear position leaves it clear. -/
theorem Clear.edit (h : Clear file position text) (hp : Paired file) {count : Nat}
    (hcount : position ≤ count) (more : JavaString) :
    Clear (rewritten ((copy file count).written ++ more)) position text := by
  obtain ⟨skipped, rest, rfl, rfl, hskipped⟩ := h
  obtain ⟨x, hx⟩ := copy_prefix (unlines skipped ++ rest) count
  have htake : (unlines skipped ++ rest).take count =
      unlines skipped ++ rest.take (count - (unlines skipped).length) := by
    rw [List.take_append, List.take_of_length_le hcount]
  refine ⟨skipped, rewritten (rest.take (count - (unlines skipped).length) ++ x ++ more), ?_, rfl,
    hskipped⟩
  rw [← hx, htake, List.append_assoc, List.append_assoc, hp.of_unlines.1.rewritten_append,
    List.append_assoc]

/-- An edit adds no carriage return. -/
theorem edit_plain (hcr : 0x0D ∉ file) (count skip : Nat) {more : JavaString}
    (hmore : 0x0D ∉ more) :
    0x0D ∉ rewritten ((copy file count).written ++ more ++ (copy file count).rest.drop skip) := by
  obtain ⟨hw, hr⟩ := @copy_mem (· ≠ 0x0D) file count (fun u hu h => hcr (h ▸ hu)) (by decide)
  intro h
  rcases mem_rewritten h with h | h
  · cases h
  · rw [List.mem_append, List.mem_append] at h
    rcases h with (h | h) | h
    · exact hw _ h rfl
    · exact hmore h
    · exact hr _ (List.mem_of_mem_drop h) rfl

/-! ## Ancestors -/

theorem intercalate_append (s : Nat) {l m : List JavaString} (hl : l ≠ []) (hm : m ≠ []) :
    [s].intercalate (l ++ m) = [s].intercalate l ++ s :: [s].intercalate m := by
  induction l with
  | nil => exact absurd rfl hl
  | cons x l ih =>
    obtain ⟨y, m', rfl⟩ := List.exists_cons_of_ne_nil hm
    cases l with
    | nil => simp [List.intercalate]
    | cons z l =>
      have h := ih (by simp)
      simp only [List.cons_append, List.intercalate_cons_cons] at h ⊢
      rw [h]
      simp

/-- The keys that `getParentKeyLocation` looks for end before a backslash of the key. -/
theorem stack_ancestor {key : JavaString} {stack : List JavaString} (hne : stack ≠ [])
    (h : stack <:+ (splitKey key).dropLast.reverse) :
    ∃ rest, key = [0x5C].intercalate stack.reverse ++ 0x5C :: rest := by
  unfold splitKey at h
  split_ifs at h with hmem
  · have hparts := List.rdropWhile_append_rtakeWhile (p := (· = [])) (l := key.splitOn 0x5C)
    obtain ⟨parts, hp⟩ : ∃ parts, parts = (key.splitOn 0x5C).rdropWhile (· = []) := ⟨_, rfl⟩
    rw [← hp] at h hparts
    have hpre : stack.reverse <+: parts.dropLast := by
      simpa using List.reverse_prefix.mpr (by simpa using h : stack.reverse.reverse <:+
        parts.dropLast.reverse)
    obtain ⟨more, hmore⟩ := hpre
    have hpartsNe : parts ≠ [] := by
      rintro rfl
      simp at hmore
      exact hne hmore.1
    have hlast := List.dropLast_append_getLast hpartsNe
    rw [← hlast, ← hmore, List.append_assoc, List.append_assoc] at hparts
    have hkey : [0x5C].intercalate (key.splitOn 0x5C) = key := List.intercalate_splitOn 0x5C
    rw [← hparts, intercalate_append 0x5C (by simpa using hne) (by simp)] at hkey
    exact ⟨_, hkey.symm⟩
  · simp at h
    exact absurd h hne

/-- Looking for ancestors keeps the position clear of the parent, and finds nothing before it. -/
theorem Clear.parentLoop (hcr : 0x0D ∉ file) (htext : ∀ ancestor rest,
      key = ancestor ++ 0x5C :: rest → parentText ancestor <+: text) (stack : List JavaString)
    (hstack : stack <:+ (splitKey key).dropLast.reverse) (h : Clear file position text) :
    Clear file (parentLoop file position stack).2 text ∧
      ∀ location, (WineRegistryEditor.parentLoop file position stack).1 = some location →
        (WineRegistryEditor.parentLoop file position stack).2 ≤ location.stop := by
  induction stack generalizing position with
  | nil => exact ⟨h, by simp [WineRegistryEditor.parentLoop]⟩
  | cons part stack ih =>
    obtain ⟨rest, hrest⟩ := stack_ancestor (List.cons_ne_nil part stack) hstack
    have hsearch : Clear file (WineRegistryEditor.getKeyLocation file position
        ([0x5C].intercalate (part :: stack).reverse) true).2 text := by
      apply h.search hcr
      intro parent hparent
      obtain ⟨r, hr, -⟩ := parentKey_some hparent
      apply htext parent (r ++ 0x5C :: rest)
      rw [hrest, hr]
      simp
    rw [WineRegistryEditor.parentLoop]
    cases hr : WineRegistryEditor.getKeyLocation file position
        ([0x5C].intercalate (part :: stack).reverse) true with
    | mk location position' =>
      rw [hr] at hsearch
      cases location with
      | none => exact ih (List.IsSuffix.trans (List.suffix_cons part stack) hstack) hsearch
      | some location =>
        refine ⟨hsearch, fun l hl => ?_⟩
        have hge := @getKeyLocation_ge file _ position true location (by rw [hr])
        rw [hr] at hge
        cases hl
        simp only at hge ⊢
        omega

/-! ## Operations -/

inductive Operation where
  | get (key : JavaString) (name : Option JavaString)
  | set (now : Nat) (key : JavaString) (name : Option JavaString) (value : JavaString)
  | removeValue (key : JavaString) (name : Option JavaString)
  | removeKey (key : JavaString) (tree : Bool)

/-- What an operation returns. -/
inductive Reply where
  | value (value : Option JavaString)
  | done
  | removed (removed : Bool)
  | raised (exception : JavaException)
deriving DecidableEq

/-- An exception of `createKey` leaves the file as it is. -/
def perform (e : WineRegistryEditor) : Operation → Reply × WineRegistryEditor
  | .get key name => (.value (e.getRawValue key name).1, (e.getRawValue key name).2)
  | .set now key name value =>
    match e.setRawValue now key name value with
    | .ok e' => (.done, e')
    | .error x =>
      (.raised x, { e.resetLastParentKeyPositionIfNeed key with lastParentKeyPosition := 0 })
  | .removeValue key name => (.done, e.removeValue key name)
  | .removeKey key tree => (.removed (e.removeKey key tree).1, (e.removeKey key tree).2)

def step (e : WineRegistryEditor) (operation : Operation) : WineRegistryEditor :=
  (e.perform operation).2

/-- The editor without its position. -/
def forgetful (e : WineRegistryEditor) : WineRegistryEditor := { e with lastParentKeyPosition := 0 }

/-- The operation returns and writes what it would without the position. -/
def Transparent (e : WineRegistryEditor) (operation : Operation) : Prop :=
  (e.perform operation).1 = (e.forgetful.perform operation).1 ∧
    (e.perform operation).2.cloneFile = (e.forgetful.perform operation).2.cloneFile

/-- The section of a key is found by a set, and not created again. -/
def FindsKey (e : WineRegistryEditor) (key : JavaString) : Prop :=
  (∃ l ∈ linesOf e.cloneFile, keyText key false <+: l) →
    (getKeyLocation e.cloneFile (e.resetLastParentKeyPositionIfNeed key).lastParentKeyPosition key
      false).1 ≠ none

variable {e : WineRegistryEditor}

/-- The position is that of the last parent key. -/
structure Cached (e : WineRegistryEditor) : Prop where
  plain : 0x0D ∉ e.cloneFile
  paired : Paired e.cloneFile
  clear : Clear e.cloneFile e.lastParentKeyPosition (childText e.lastParentKey)

theorem reset_cloneFile (key : JavaString) :
    (e.resetLastParentKeyPositionIfNeed key).cloneFile = e.cloneFile ∧
      (e.resetLastParentKeyPositionIfNeed key).createKeyIfNotExist = e.createKeyIfNotExist := by
  unfold resetLastParentKeyPositionIfNeed
  cases parentKey key <;> exact ⟨rfl, rfl⟩

/-- The parent of the key becomes the last parent key. -/
theorem reset_parent (h : parentKey key = some parent) :
    (e.resetLastParentKeyPositionIfNeed key).lastParentKey = parent := by
  simp [resetLastParentKeyPositionIfNeed, h]

theorem Cached.reset (h : Cached e) (key : JavaString) :
    Cached (e.resetLastParentKeyPositionIfNeed key) := by
  unfold resetLastParentKeyPositionIfNeed
  cases parentKey key with
  | none => exact ⟨h.plain, h.paired, clear_zero _ _⟩
  | some parent =>
    refine ⟨h.plain, h.paired, ?_⟩
    simp only
    split_ifs with heq
    · rw [heq]
      exact h.clear
    · exact clear_zero _ _

/-- A set finds the section that a search from the start of the file finds. -/
theorem Cached.reset_getKeyLocation (h : Cached e) (key : JavaString) :
    (getKeyLocation e.cloneFile (e.resetLastParentKeyPositionIfNeed key).lastParentKeyPosition key
      false).1 = (getKeyLocation e.cloneFile 0 key false).1 := by
  have hclear := (h.reset key).clear
  rw [(reset_cloneFile key).1] at hclear
  cases hparent : parentKey key with
  | none => simp [resetLastParentKeyPositionIfNeed, hparent]
  | some parent =>
    rw [reset_parent hparent] at hclear
    exact hclear.getKeyLocation hparent false

/-- What `createKey` does does not depend on the position. -/
theorem createKey_congr {e e' : WineRegistryEditor} (hfile : e.cloneFile = e'.cloneFile)
    (now : Nat) (key : JavaString) :
    (e.createKey now key).map (fun r => (r.1.cloneFile, r.2)) =
      (e'.createKey now key).map fun r => (r.1.cloneFile, r.2) := by
  unfold createKey
  rw [hfile]
  cases getParentKeyLocation e'.cloneFile 0 key <;> rfl

theorem writeValue_congr {e e' : WineRegistryEditor} (hfile : e.cloneFile = e'.cloneFile)
    (location : Location) (name : Option JavaString) (value : JavaString) :
    (e.writeValue location name value).cloneFile = (e'.writeValue location name value).cloneFile := by
  unfold writeValue
  rw [hfile]
  cases getValueLocation e'.cloneFile location name <;> rfl

theorem Cached.forgetful (h : Cached e) : Cached e.forgetful :=
  ⟨h.plain, h.paired, clear_zero _ _⟩

/-- The editor after the search of a set. -/
def searched (e : WineRegistryEditor) (key : JavaString) : WineRegistryEditor :=
  ⟨e.cloneFile, e.createKeyIfNotExist, (getKeyLocation e.cloneFile
    (e.resetLastParentKeyPositionIfNeed key).lastParentKeyPosition key false).2,
    (e.resetLastParentKeyPositionIfNeed key).lastParentKey⟩

/-- A set, by what its search finds. -/
theorem setRawValue_found {location : Location} (now : Nat) (key : JavaString)
    (name : Option JavaString) (value : JavaString)
    (h : (getKeyLocation e.cloneFile (e.resetLastParentKeyPositionIfNeed key).lastParentKeyPosition
      key false).1 = some location) :
    e.setRawValue now key name value = .ok ((e.searched key).writeValue location name value) := by
  simp only [setRawValue, (reset_cloneFile (e := e) key).1, (reset_cloneFile (e := e) key).2, h]
  rfl

theorem setRawValue_missing (now : Nat) (key : JavaString) (name : Option JavaString)
    (value : JavaString)
    (h : (getKeyLocation e.cloneFile (e.resetLastParentKeyPositionIfNeed key).lastParentKeyPosition
      key false).1 = none) :
    e.setRawValue now key name value =
      if e.createKeyIfNotExist then
        ((e.searched key).createKey now key).map fun r => r.1.writeValue r.2 name value
      else .ok (e.searched key) := by
  simp only [setRawValue, (reset_cloneFile (e := e) key).1, (reset_cloneFile (e := e) key).2, h]
  split_ifs
  · rw [searched]
    cases createKey _ now key <;> rfl
  · rfl

theorem Cached.set_transparent (h : Cached e) (now : Nat) (key : JavaString)
    (name : Option JavaString) (value : JavaString) : Transparent e (.set now key name value) := by
  have hloc := h.reset_getKeyLocation key
  have hloc' := h.forgetful.reset_getKeyLocation key
  have hfile : e.forgetful.cloneFile = e.cloneFile := rfl
  simp only [Transparent, perform]
  -- The search from the cached position finds what one from the start of the file does.
  cases hfound : (getKeyLocation e.cloneFile 0 key false).1 with
  | some location =>
    rw [setRawValue_found now key name value (hloc.trans hfound),
      setRawValue_found now key name value (hloc'.trans hfound)]
    exact ⟨rfl, @writeValue_congr (e.searched key) (e.forgetful.searched key) rfl location name value⟩
  | none =>
    rw [setRawValue_missing now key name value (hloc.trans hfound),
      setRawValue_missing now key name value (hloc'.trans hfound)]
    have hcreate := @createKey_congr (e.searched key) (e.forgetful.searched key) rfl now key
    rw [show e.forgetful.createKeyIfNotExist = e.createKeyIfNotExist from rfl]
    split_ifs
    · cases hc : (e.searched key).createKey now key with
      | error x =>
        cases hc' : (e.forgetful.searched key).createKey now key with
        | error x' =>
          rw [hc, hc'] at hcreate
          cases hcreate
          refine ⟨rfl, ?_⟩
          simp only [Except.map, (reset_cloneFile _).1, hfile]
        | ok r =>
          rw [hc, hc'] at hcreate
          cases hcreate
      | ok r =>
        cases hc' : (e.forgetful.searched key).createKey now key with
        | error x' =>
          rw [hc, hc'] at hcreate
          cases hcreate
        | ok r' =>
          rw [hc, hc'] at hcreate
          simp only [Except.map, Except.ok.injEq, Prod.mk.injEq] at hcreate
          refine ⟨rfl, ?_⟩
          simp only [Except.map, hcreate.2]
          exact writeValue_congr hcreate.1 _ _ _
    · exact ⟨rfl, rfl⟩

theorem Cached.transparent (h : Cached e) (operation : Operation) : Transparent e operation := by
  cases operation with
  | get key name => exact ⟨rfl, rfl⟩
  | set now key name value => exact h.set_transparent now key name value
  | removeValue key name => exact ⟨rfl, rfl⟩
  | removeKey key tree => exact ⟨rfl, rfl⟩

theorem Cached.findsKey (h : Cached e) (key : JavaString) : FindsKey e key := by
  rintro ⟨l, hl, hp⟩ hnone
  rw [h.reset_getKeyLocation key, getKeyLocation_fst] at hnone
  exact keyLoop_fst_none _ _ hnone l hl hp

/-! ## What a set leaves -/

/-- The strings of a set have no carriage return. -/
def Plain (key : JavaString) (name : Option JavaString) (value : JavaString) : Prop :=
  0x0D ∉ key ∧ (∀ n ∈ name, 0x0D ∉ n) ∧ 0x0D ∉ value

theorem escape_plain (h : 0x0D ∉ text) : 0x0D ∉ escape text := by
  intro hmem
  exact h ((mem_escape hmem).resolve_left (by decide))

theorem valueText_plain {name : Option JavaString} (h : ∀ n ∈ name, 0x0D ∉ n) :
    0x0D ∉ nameText name := by
  cases name with
  | none => decide
  | some n =>
    have := escape_plain (h n rfl)
    simpa [nameText] using this

theorem newSection_plain (now : Nat) (h : 0x0D ∉ key) :
    0x0D ∉ 0x0A :: unlines (newSection now key) := by
  have hkey := escape_plain h
  have hstamp : 0x0D ∉ RegistryFile.stamp now := fun hmem => by
    have := RegistryFile.mem_stamp hmem
    omega
  have htime : 0x0D ∉ RegistryFile.timeLine now := fun hmem => by
    have := RegistryFile.mem_timeLine hmem
    omega
  rw [RegistryFile.newSection_eq now key []]
  simp [RegistrySection.head, hkey, hstamp, htime]

theorem Cached.writeValue (h : Cached e) {location : Location}
    (hstart : e.lastParentKeyPosition ≤ location.start)
    (hstop : e.lastParentKeyPosition ≤ location.stop) {name : Option JavaString} {value : JavaString}
    (hname : ∀ n ∈ name, 0x0D ∉ n) (hvalue : 0x0D ∉ value) :
    Cached (e.writeValue location name value) := by
  unfold WineRegistryEditor.writeValue
  cases hloc : getValueLocation e.cloneFile location name with
  | none =>
    have hline : 0x0D ∉ 0x0A :: (nameText name ++ 0x3D :: value) := by
      simp [valueText_plain hname, hvalue]
    refine ⟨?_, paired_rewritten _, ?_⟩
    · simpa using edit_plain h.plain location.stop 0 hline
    · simp only
      rw [List.append_assoc]
      exact h.clear.edit h.paired hstop _
  | some l =>
    refine ⟨edit_plain h.plain l.start (l.stop - l.start) hvalue, paired_rewritten _, ?_⟩
    simp only
    rw [List.append_assoc]
    exact h.clear.edit h.paired (hstart.trans (getValueLocation_ge hloc).2) _

theorem Cached.searched (h : Cached e) (key : JavaString) : Cached (e.searched key) := by
  refine ⟨h.plain, h.paired, ?_⟩
  have hclear := (h.reset key).clear
  rw [(reset_cloneFile key).1] at hclear
  apply hclear.search h.plain
  intro parent hparent
  rw [reset_parent hparent]
  exact parentText_childText parent

/-- The parent of the key is the last parent key after the search. -/
theorem searched_parent (h : parentKey key = some parent) :
    (e.searched key).lastParentKey = parent := reset_parent h

theorem Cached.createKey (h : Cached e) (hparent : ∀ parent, parentKey key = some parent →
      e.lastParentKey = parent) {now : Nat} (hkey : 0x0D ∉ key) {e' : WineRegistryEditor}
    {location : Location} (hcreate : e.createKey now key = .ok (e', location)) :
    Cached e' ∧ e'.lastParentKeyPosition ≤ location.start ∧
      e'.lastParentKeyPosition ≤ location.stop := by
  -- An ancestor of the key is its parent or one of the parent, so its text begins that of the parent.
  have htext : ∀ ancestor rest, key = ancestor ++ 0x5C :: rest →
      parentText ancestor <+: childText e.lastParentKey := by
    intro ancestor rest hrest
    have hmem : 0x5C ∈ key := by rw [hrest]; simp
    obtain ⟨parent, hp⟩ : ∃ parent, parentKey key = some parent := by
      rw [parentKey, if_pos hmem]
      exact ⟨_, rfl⟩
    rw [hparent parent hp]
    obtain ⟨more, rfl⟩ := parentKey_longest hp hrest
    exact ⟨escape (more ++ [0x5C]), by simp [parentText, childText]⟩
  unfold WineRegistryEditor.createKey getParentKeyLocation at hcreate
  cases hsplit : splitKey key with
  | nil =>
    rw [hsplit] at hcreate
    cases hcreate
  | cons part parts =>
    rw [hsplit] at hcreate
    obtain ⟨hclear, hge⟩ := Clear.parentLoop h.plain htext ((part :: parts).dropLast.reverse)
      (by rw [hsplit]) (clear_zero e.cloneFile (childText e.lastParentKey))
    have hcount : (parentLoop e.cloneFile 0 (part :: parts).dropLast.reverse).2 ≤
        newPlace e.cloneFile (parentLoop e.cloneFile 0 (part :: parts).dropLast.reverse).1 := by
      cases hl : (parentLoop e.cloneFile 0 (part :: parts).dropLast.reverse).1 with
      | none => exact hclear.le_length.trans (length_le_getBytes _)
      | some l =>
        have := hge l hl
        simp only [newPlace]
        omega
    cases hcreate
    refine ⟨⟨?_, paired_rewritten _, ?_⟩, ?_, ?_⟩
    · simpa using edit_plain h.plain (newPlace e.cloneFile (parentLoop e.cloneFile 0
        (part :: parts).dropLast.reverse).1) 0 (newSection_plain now hkey)
    · simp only
      rw [List.append_assoc]
      exact hclear.edit h.paired hcount _
    · simp only [List.length_cons]
      omega
    · simp only [List.length_cons]
      omega

theorem Cached.set (h : Cached e) (now : Nat) {name : Option JavaString} {value : JavaString}
    (hplain : Plain key name value) : Cached (e.step (.set now key name value)) := by
  obtain ⟨hkey, hname, hvalue⟩ := hplain
  have hsearched := h.searched key
  simp only [step, perform]
  cases hloc : (getKeyLocation e.cloneFile
      (e.resetLastParentKeyPositionIfNeed key).lastParentKeyPosition key false).1 with
  | some location =>
    obtain ⟨hge, hge'⟩ := getKeyLocation_ge hloc
    rw [setRawValue_found now key name value hloc]
    apply hsearched.writeValue _ _ hname hvalue
    · exact hge.le
    · exact Nat.lt_succ_iff.mp (hge.trans_le hge')
  | none =>
    rw [setRawValue_missing now key name value hloc]
    split_ifs
    · cases hcreate : (e.searched key).createKey now key with
      | error x => exact ⟨(h.reset key).plain, (h.reset key).paired, clear_zero _ _⟩
      | ok r =>
        obtain ⟨hc, hs₁, hs₂⟩ := hsearched.createKey (fun parent hp => searched_parent hp) hkey hcreate
        exact hc.writeValue hs₁ hs₂ hname hvalue
    · exact hsearched

/-! ## What the other operations leave -/

/-- The first line of the parent of the key, if there is one, does not come behind the line of a
key below the last parent key. -/
def KeepsCache (e : WineRegistryEditor) (key : JavaString) : Prop :=
  ∀ parent, parentKey key = some parent → ∀ pre line post,
    linesOf e.cloneFile = pre ++ line :: post → parentText parent <+: line →
    (∀ l ∈ pre, ¬parentText parent <+: l) → ∀ l ∈ pre, ¬childText e.lastParentKey <+: l

/-- That line is not removed, unless a single section is removed from the start of the file. -/
def KeepsLine (e : WineRegistryEditor) (key : JavaString) (tree : Bool) : Prop :=
  ∀ parent, parentKey key = some parent → ∀ pre line post,
    linesOf e.cloneFile = pre ++ line :: post → parentText parent <+: line →
    (∀ l ∈ pre, ¬parentText parent <+: l) → tree = true ∨ pre ≠ [] → ¬keyText key tree <+: line

/-- The editor after the search of a read or a removal. -/
def looked (e : WineRegistryEditor) (key : JavaString) (keyAsPrefix : Bool) : WineRegistryEditor :=
  { e with lastParentKeyPosition := (getKeyLocation e.cloneFile 0 key keyAsPrefix).2 }

theorem Cached.looked (h : Cached e) (hkeeps : KeepsCache e key) :
    Cached (e.looked key keyAsPrefix) := by
  refine ⟨h.plain, h.paired, ?_⟩
  simp only [WineRegistryEditor.looked]
  cases hparent : parentKey key with
  | none =>
    rw [getKeyLocation_zero_none e.cloneFile hparent]
    exact clear_zero _ _
  | some parent =>
    rcases @getKeyLocation_zero_snd key parent keyAsPrefix e.cloneFile hparent with
      ⟨-, hzero⟩ | ⟨pre, line, post, hlines, hline, hno, hsnd⟩
    · rw [hzero]
      exact clear_zero _ _
    · rw [hsnd]
      exact clear_at_line h.plain hlines (hkeeps parent hparent pre line post hlines hline hno)

/-- A region behind the position is removed. -/
theorem Cached.removeRegion (h : Cached e) {location : Location}
    (hoffset : (e.lastParentKeyPosition : Int) ≤ location.offset ∨ e.lastParentKeyPosition = 0) :
    Cached (e.removeRegion location) := by
  refine ⟨?_, paired_rewritten _, ?_⟩
  · intro hmem
    apply edit_plain h.plain location.offset.toNat _ (List.not_mem_nil (a := 0x0D))
    rw [List.append_nil]
    exact hmem
  · exact h.clear.edit h.paired (by omega) _

theorem Cached.removeValue (h : Cached e) (hkeeps : KeepsCache e key) (name : Option JavaString) :
    Cached (e.removeValue key name) := by
  have hlooked := @WineRegistryEditor.Cached.looked _ false _ h hkeeps
  unfold WineRegistryEditor.removeValue
  cases hloc : getKeyLocation e.cloneFile 0 key false with
  | mk found position =>
    rw [WineRegistryEditor.looked, hloc] at hlooked
    cases found with
    | none => exact hlooked
    | some keyLocation =>
      obtain ⟨hge, -⟩ := @getKeyLocation_ge e.cloneFile key 0 false keyLocation (by rw [hloc])
      rw [hloc] at hge
      simp only at hge ⊢
      cases hvalue : getValueLocation e.cloneFile keyLocation name with
      | none => exact hlooked
      | some location =>
        apply hlooked.removeRegion
        left
        have := (getValueLocation_ge hvalue).1
        simp only
        omega

/-- A key that is found behind the line of its parent. -/
theorem keyLoop_behind {kt line : JavaString} {position total : Nat} {post : List JavaString}
    {location : Location} (hline : ¬kt <+: line)
    (h : (keyLoop kt none position total (line :: post)).1 = some location) :
    ∃ pre key' rest, post = pre ++ key' :: rest ∧ kt <+: key' ∧
      location = ⟨(total + line.length + 1 + (unlines pre).length : Nat) - 1,
        total + line.length + 1 + (unlines pre).length + key'.length + 1,
        sectionStop (total + line.length + 1 + (unlines pre).length + key'.length + 1) 0 rest⟩ := by
  have hl : ∀ l ∈ [line], ¬kt <+: l := by simpa using hline
  rw [← List.singleton_append, keyLoop_skip hl] at h
  obtain ⟨pre, key', rest, hpost, hkey', -, hloc⟩ := keyLoop_fst_some h
  refine ⟨pre, key', rest, hpost, hkey', ?_⟩
  simpa [Nat.add_assoc] using hloc

theorem Cached.removeSection (h : Cached e) (hkeeps : KeepsCache e key)
    (hline : KeepsLine e key false) : Cached (e.removeKey key false).2 := by
  have hlooked := @WineRegistryEditor.Cached.looked _ false _ h hkeeps
  have hfst := getKeyLocation_fst e.cloneFile key false
  simp only [removeKey, Bool.false_eq_true, if_false]
  cases hloc : getKeyLocation e.cloneFile 0 key false with
  | mk found position =>
    rw [WineRegistryEditor.looked, hloc] at hlooked
    cases found with
    | none => exact hlooked
    | some location =>
      apply hlooked.removeRegion
      simp only
      by_cases hzero : position = 0
      · exact .inr hzero
      · left
        cases hparent : parentKey key with
        | none =>
          have := @getKeyLocation_zero_none key false e.cloneFile hparent
          rw [hloc] at this
          exact absurd this hzero
        | some parent =>
          rcases @getKeyLocation_zero_snd key parent false e.cloneFile hparent with
            ⟨-, hz⟩ | ⟨pre, line, post, hlines, hl, hno, hsnd⟩
          · rw [hloc] at hz
            exact absurd hz hzero
          · rw [hloc] at hsnd hfst
            simp only at hsnd hfst
            have hpre : pre ≠ [] := by
              rintro rfl
              exact hzero (by simpa using hsnd)
            have hnokey : ∀ l ∈ pre, ¬keyText key false <+: l := fun l hl' hp =>
              hno l hl' ((parentText_isPrefix hparent false).trans hp)
            rw [hlines, keyLoop_skip hnokey] at hfst
            obtain ⟨p, k, r, -, -, rfl⟩ := keyLoop_behind
              (hline parent hparent pre line post hlines hl hno (.inr hpre)) hfst.symm
            simp only
            omega

/-! ## Removing a tree -/

/-- Nothing follows the line, or its end. -/
def EndsLine (tail : JavaString) : Prop := tail = [] ∨ ∃ t, tail = 0x0A :: t

/-- The first line of the parent stays where it is while the tree is removed. -/
structure Anchored (e : WineRegistryEditor) (key parent : JavaString) (skipped : List JavaString)
    (line : JavaString) : Prop where
  file : ∃ tail, e.cloneFile = unlines skipped ++ (line ++ tail) ∧ EndsLine tail
  oneLine : OneLine line ∧ ∀ l ∈ skipped, OneLine l
  parent : parentText parent <+: line ∧ ∀ l ∈ skipped, ¬parentText parent <+: l
  other : ∀ l ∈ skipped, ¬childText e.lastParentKey <+: l
  notKey : ¬keyText key true <+: line
  position : e.lastParentKeyPosition = 0 ∨ e.lastParentKeyPosition = (unlines skipped).length

variable {skipped : List JavaString} {line : JavaString}

theorem Anchored.line_ne_nil (h : Anchored e key parent skipped line) : line ≠ [] := by
  rintro rfl
  have := h.parent.1
  simp [parentText] at this

/-- The line and the lines behind it. -/
theorem Anchored.linesOf_rest (h : Anchored e key parent skipped line) {tail : JavaString}
    (htail : EndsLine tail) :
    (tail = [] ∧ linesOf (line ++ tail) = [line]) ∨
      ∃ t, tail = 0x0A :: t ∧ linesOf (line ++ tail) = line :: linesOf t := by
  rcases htail with rfl | ⟨t, rfl⟩
  · left
    rw [List.append_nil, linesOf_last h.oneLine.1, if_neg h.line_ne_nil]
    exact ⟨rfl, rfl⟩
  · exact .inr ⟨t, rfl, linesOf_cons h.oneLine.1 t⟩

/-- Every search of the tree starts at that line. -/
theorem Anchored.getKeyLocation (h : Anchored e key parent skipped line)
    (hparent : parentKey key = some parent) {tail : JavaString}
    (hfile : e.cloneFile = unlines skipped ++ (line ++ tail)) {more : List JavaString}
    (hmore : linesOf (line ++ tail) = line :: more) :
    getKeyLocation e.cloneFile e.lastParentKeyPosition key true =
      keyLoop (keyText key true) none (unlines skipped).length (unlines skipped).length
        (line :: more) := by
  have hzero : WineRegistryEditor.getKeyLocation e.cloneFile 0 key true =
      keyLoop (keyText key true) none (unlines skipped).length (unlines skipped).length
        (line :: more) := by
    simp only [WineRegistryEditor.getKeyLocation, if_true, hparent, Option.map_some, List.drop_zero]
    rw [hfile, linesOf_unlines h.oneLine.2, hmore]
    have hskip := @keyLoop_skip_parent (keyText key true) skipped (line :: more) (parentText parent)
      h.parent.2 0 0
    rw [Nat.zero_add] at hskip
    exact hskip.trans (keyLoop_parent_hit h.parent.1 0 _)
  rcases h.position with hpos | hpos
  · rw [hpos, hzero]
  · by_cases hnil : (unlines skipped).length = 0
    · rw [hpos, hnil, hzero, hnil]
    · rw [hpos]
      simp only [WineRegistryEditor.getKeyLocation, if_neg hnil]
      rw [hfile, List.drop_left, hmore]

/-- What is left of the file when a section behind the line is removed. -/
theorem removed_text {t k : JavaString} {pre post : List JavaString}
    (hcr : 0x0D ∉ unlines skipped ++ (line ++ 0x0A :: t)) (hline : OneLine line ∧ line ≠ [])
    (hskipped : ∀ l ∈ skipped, OneLine l) (hlines : linesOf t = pre ++ k :: post)
    {location : Location}
    (hoffset : location.offset = ((unlines skipped).length + line.length + (unlines pre).length : Nat))
    (hstop : location.stop = sectionStop ((unlines skipped).length + line.length + 1 +
      (unlines pre).length + k.length + 1) 0 post)
    (he : e.cloneFile = unlines skipped ++ (line ++ 0x0A :: t)) :
    ∃ tail, (e.removeRegion location).cloneFile =
      rewritten (unlines skipped ++ (line ++ tail)) ∧ EndsLine tail := by
  have hcrt : 0x0D ∉ t := fun hmem => hcr (by simp [hmem])
  obtain ⟨tail, rfl, -⟩ := text_at_line hcrt hlines
  have hlast := unlines_dropLast (List.cons_ne_nil [] pre)
  obtain ⟨x, hx⟩ : ∃ x, x = (unlines ([] :: pre)).dropLast := ⟨_, rfl⟩
  have hxlen : x.length = (unlines pre).length := by rw [hx]; simp
  have hfile : e.cloneFile = (unlines skipped ++ (line ++ x)) ++ 0x0A :: (k ++ tail) := by
    have hstart : 0x0A :: unlines pre = x ++ [0x0A] := by
      rw [hx, hlast]
      rfl
    rw [he, ← List.cons_append, hstart]
    simp
  have hcount : location.offset.toNat = (unlines skipped ++ (line ++ x)).length := by
    rw [hoffset, Int.toNat_natCast]
    simp only [List.length_append, hxlen]
    omega
  obtain ⟨hw, hr⟩ := @copy_exact e.cloneFile location.offset.toNat (by rw [hfile, hcount]; simp)
  simp only [removeRegion, hw, hr]
  rw [hcount]
  have htake : e.cloneFile.take (unlines skipped ++ (line ++ x)).length =
      unlines skipped ++ (line ++ x) := by rw [hfile, List.take_left]
  rw [htake]
  refine ⟨x ++ _, by rw [List.append_assoc, List.append_assoc], ?_⟩
  cases pre with
  | cons first pre =>
    right
    rw [hx, unlines_cons, List.nil_append, List.dropLast_cons_of_ne_nil (by simp), List.cons_append]
    exact ⟨_, rfl⟩
  | nil =>
    -- The section follows the line, whose end is now that of the section.
    have hxnil : x = [] := by rw [hx]; simp
    have hbuffer : (copy e.cloneFile (unlines skipped ++ (line ++ x)).length).buffer[(copy e.cloneFile
        (unlines skipped ++ (line ++ x)).length).length - 1]? ≠ some 0x0A := by
      have hpos := List.length_pos_of_ne_nil hline.2
      rw [copy_last (by simp only [List.length_append]; omega) (by rw [hfile]; simp), htake, hxnil,
        List.append_nil, List.getLast?_append_of_ne_nil _ hline.2]
      intro hlast
      exact (hline.1 _ (List.mem_of_getLast? hlast)).1 rfl
    obtain ⟨body, rest, hpost, hbody⟩ := sectionStop_lines ((unlines skipped).length + line.length + 1 +
      (unlines []).length + k.length + 1) post
    have hall : linesOf e.cloneFile = (skipped ++ line :: k :: body) ++ rest := by
      rw [he, linesOf_unlines hskipped, linesOf_cons hline.1, hlines, hpost]
      simp
    have hdrop := drop_lines (by rw [he]; exact hcr) hall (by simp)
    have hskip : (if (decide (1 < (copy e.cloneFile (unlines skipped ++ (line ++ x)).length).length) &&
        (copy e.cloneFile (unlines skipped ++ (line ++ x)).length).buffer[(copy e.cloneFile
          (unlines skipped ++ (line ++ x)).length).length - 1]? == some 0x0A) = true
        then (1 : Int) else 0) = 0 := by
      apply if_neg
      intro hb
      rw [Bool.and_eq_true, beq_iff_eq] at hb
      exact hbuffer hb.2
    rw [hskip, hxnil, List.nil_append, List.drop_drop]
    have hsum : (unlines skipped ++ (line ++ [])).length +
        ((location.stop : Int) - location.offset + 0).toNat =
        (unlines (skipped ++ line :: k :: body)).length - 1 := by
      rw [hstop, hbody, hoffset]
      simp only [List.length_append, unlines_append, unlines_cons, unlines_nil, List.length_cons,
        List.length_nil, Nat.add_zero, List.append_nil]
      omega
    rw [hsum]
    exact hdrop

theorem EndsLine.rewritten {tail : JavaString} (h : EndsLine tail) : EndsLine (rewritten tail) := by
  rcases h with rfl | ⟨t, rfl⟩
  · exact .inl rfl
  · exact .inr ⟨XoDos.rewritten t, rewritten_cons (by decide) t⟩

theorem Anchored.clear (h : Anchored e key parent skipped line) :
    Clear e.cloneFile e.lastParentKeyPosition (childText e.lastParentKey) := by
  obtain ⟨tail, hfile, -⟩ := h.file
  rcases h.position with hpos | hpos
  · rw [hpos]
    exact clear_zero _ _
  · exact ⟨skipped, line ++ tail, hfile, hpos, fun l hl => ⟨h.oneLine.2 l hl, h.other l hl⟩⟩

/-- The search takes the position of the line down. -/
theorem Anchored.found (h : Anchored e key parent skipped line) :
    Anchored { e with lastParentKeyPosition := (unlines skipped).length } key parent skipped line :=
  { h with position := .inr rfl }

theorem Anchored.removeRegion (h : Anchored e key parent skipped line) (hcr : 0x0D ∉ e.cloneFile)
    (hp : Paired e.cloneFile) {t : JavaString}
    (hfile : e.cloneFile = unlines skipped ++ (line ++ 0x0A :: t)) {location : Location}
    {position : Nat}
    (hfound : (keyLoop (keyText key true) none position (unlines skipped).length
      (line :: linesOf t)).1 = some location) :
    Anchored (e.removeRegion location) key parent skipped line := by
  obtain ⟨pre, k, post, hlines, -, hloc⟩ := keyLoop_behind h.notKey hfound
  have hoffset : location.offset =
      ((unlines skipped).length + line.length + (unlines pre).length : Nat) := by
    rw [hloc]
    simp only
    omega
  have hstop : location.stop = sectionStop ((unlines skipped).length + line.length + 1 +
      (unlines pre).length + k.length + 1) 0 post := by rw [hloc]
  rw [hfile] at hcr hp
  obtain ⟨tail, htext, htail⟩ := removed_text hcr ⟨h.oneLine.1, h.line_ne_nil⟩ h.oneLine.2 hlines
    hoffset hstop hfile
  have hskipped := hp.of_unlines.1
  have hline := (paired_newline.mp hp.of_unlines.2).1
  rw [hskipped.rewritten_append, hline.rewritten_append] at htext
  exact ⟨⟨rewritten tail, htext, htail.rewritten⟩, h.oneLine, h.parent, h.other, h.notKey,
    h.position⟩

/-- However often a section is removed, the position stays that of the line. -/
theorem Anchored.removeTree (hparent : parentKey key = some parent) (fuel : Nat)
    (h : Anchored e key parent skipped line) (hcr : 0x0D ∉ e.cloneFile) (hp : Paired e.cloneFile) :
    Cached (removeTree key fuel e).2 := by
  induction fuel generalizing e with
  | zero => exact ⟨hcr, hp, h.clear⟩
  | succ fuel ih =>
    have hcached : Cached { e with lastParentKeyPosition := (unlines skipped).length } :=
      ⟨hcr, hp, h.found.clear⟩
    obtain ⟨tail, hfile, htail⟩ := h.file
    rw [WineRegistryEditor.removeTree]
    rcases h.linesOf_rest htail with ⟨rfl, hlines⟩ | ⟨t, rfl, hlines⟩
    · have hnone : keyLoop (keyText key true) none (unlines skipped).length (unlines skipped).length
          [line] = (none, (unlines skipped).length) := by
        have hl : ∀ l ∈ [line], ¬keyText key true <+: l := by simpa using h.notKey
        rw [← List.append_nil [line], keyLoop_skip hl]
        rfl
      rw [h.getKeyLocation hparent hfile hlines, hnone]
      exact hcached
    · rw [h.getKeyLocation hparent hfile hlines]
      have hsnd := @keyLoop_none_snd (keyText key true) (line :: linesOf t)
        (unlines skipped).length (unlines skipped).length
      cases hr : keyLoop (keyText key true) none (unlines skipped).length (unlines skipped).length
          (line :: linesOf t) with
      | mk found position =>
        rw [hr] at hsnd
        simp only at hsnd
        subst hsnd
        cases found with
        | none => exact hcached
        | some location =>
          have hregion := h.found.removeRegion hcr hp hfile (by rw [hr])
          have hoffset : ((unlines skipped).length : Int) ≤ location.offset := by
            obtain ⟨pre, k, post, -, -, hloc⟩ := keyLoop_behind h.notKey (by rw [hr])
            rw [hloc]
            simp only
            omega
          have hkept := hcached.removeRegion (.inl hoffset)
          exact ih hregion hkept.plain hkept.paired

/-- A key without a parent leaves no position. -/
theorem Cached.removeRoots (hparent : parentKey key = none) (fuel : Nat) (h : Cached e)
    (hzero : e.lastParentKeyPosition = 0) : Cached (removeTree key fuel e).2 := by
  induction fuel generalizing e with
  | zero => exact h
  | succ fuel ih =>
    have hsnd := @getKeyLocation_zero_none key true e.cloneFile hparent
    rw [WineRegistryEditor.removeTree, hzero]
    cases hr : WineRegistryEditor.getKeyLocation e.cloneFile 0 key true with
    | mk found position =>
      rw [hr] at hsnd
      simp only at hsnd
      subst hsnd
      cases found with
      | none => exact ⟨h.plain, h.paired, clear_zero _ _⟩
      | some location => exact ih (h.forgetful.removeRegion (.inr rfl)) rfl

theorem Cached.removeAll (h : Cached e) (hkeeps : KeepsCache e key) (hline : KeepsLine e key true) :
    Cached (e.removeKey key true).2 := by
  simp only [removeKey, if_true]
  cases hparent : parentKey key with
  | none => exact h.forgetful.removeRoots hparent _ rfl
  | some parent =>
    rcases @getKeyLocation_zero_snd key parent true e.cloneFile hparent with
      ⟨hno, hsnd⟩ | ⟨pre, line, post, hlines, hl, hno, -⟩
    · -- Nothing starts like the parent, and so nothing is below it.
      have hfst : (WineRegistryEditor.getKeyLocation e.cloneFile 0 key true).1 = none := by
        rw [getKeyLocation_fst]
        have hkey : ∀ l ∈ linesOf e.cloneFile, ¬keyText key true <+: l := fun l hl hp =>
          hno l hl ((parentText_isPrefix hparent true).trans hp)
        rw [← List.append_nil (linesOf e.cloneFile), keyLoop_skip hkey]
        rfl
      have hpair : WineRegistryEditor.getKeyLocation e.cloneFile 0 key true = (none, 0) :=
        Prod.ext hfst hsnd
      cases hn : e.cloneFile.length with
      | zero => exact h.forgetful
      | succ n =>
        rw [WineRegistryEditor.removeTree, hpair]
        exact h.forgetful
    · obtain ⟨tail, hfile, htail⟩ := text_at_line h.plain hlines
      obtain ⟨hone, -⟩ := unlines_linesOf h.plain
      refine @Anchored.removeTree _ _ _ pre line hparent _ ?_ h.plain h.paired
      exact ⟨⟨tail, hfile, htail⟩, ⟨hone line (by simp [hlines]), fun l hl' => hone l (by
        simp [hlines, hl'])⟩, ⟨hl, hno⟩, hkeeps parent hparent pre line post hlines hl hno,
        hline parent hparent pre line post hlines hl hno (.inl rfl), .inl rfl⟩

/-! ## Runs -/

/-- The operation leaves the position of the last parent key, or none. -/
def Undisturbed (e : WineRegistryEditor) : Operation → Prop
  | .get key _ => KeepsCache e key
  | .set _ key name value => Plain key name value
  | .removeValue key _ => KeepsCache e key
  | .removeKey key tree => KeepsCache e key ∧ KeepsLine e key tree

theorem Cached.step (h : Cached e) {operation : Operation} (hop : Undisturbed e operation) :
    Cached (e.step operation) := by
  cases operation with
  | get key name => exact h.looked hop
  | set now key name value => exact h.set now hop
  | removeValue key name => exact h.removeValue hop name
  | removeKey key tree =>
    cases tree with
    | false => exact h.removeSection hop.1 hop.2
    | true => exact h.removeAll hop.1 hop.2

/-- A file as it is opened. -/
def opened (file : JavaString) (createKeyIfNotExist : Bool) : WineRegistryEditor :=
  { WineRegistryEditor.new file with createKeyIfNotExist }

/-- While no operation disturbs the position, every operation does what it would without it, and
no key that is there is created again. -/
theorem position_transparent (file : JavaString) (createKeyIfNotExist : Bool) (hcr : 0x0D ∉ file)
    (hpaired : Paired file) (operations : List Operation)
    (h : Run.Along step Undisturbed (opened file createKeyIfNotExist) operations) :
    ∀ earlier later, operations = earlier ++ later →
      (∀ operation, Transparent (Run.after step (opened file createKeyIfNotExist) earlier) operation) ∧
        ∀ key, FindsKey (Run.after step (opened file createKeyIfNotExist) earlier) key := by
  intro earlier later heq
  rw [heq] at h
  have hcached : Cached (Run.after step (opened file createKeyIfNotExist) earlier) :=
    h.everywhere (fun s i hs hi => hs.step hi) ⟨hcr, hpaired, clear_zero _ _⟩
  exact ⟨hcached.transparent, hcached.findsKey⟩

/-- Two keys with a parent of their own each. -/
def twoParents : JavaString :=
  ascii "WINE REGISTRY Version 2\n\n[P\\\\a] 1\n\"x\"=\"1\"\n\n[Q\\\\b] 1\n\"y\"=\"1\"\n"

theorem keepsCache_same (h : parentKey key = some e.lastParentKey) : KeepsCache e key := by
  intro parent hparent pre line post hlines hline hno l hl hp
  rw [h, Option.some.injEq] at hparent
  rw [hparent] at hp
  exact hno l hl ((parentText_childText parent).trans hp)

/-- The operations of a run that keeps the cache. -/
def mixture : List Operation :=
  [.set 0 (ascii "P\\a") (some (ascii "x")) (ascii "\"2\""),
    .get (ascii "P\\a") (some (ascii "x")), .set 0 (ascii "P\\c") (some (ascii "z")) (ascii "\"3\""),
    .removeValue (ascii "P\\a") (some (ascii "x"))]

theorem position_transparent_sets :
    Transparent (Run.after step (opened twoParents true) (mixture.take 2))
        (.set 0 (ascii "P\\c") (some (ascii "z")) (ascii "\"3\"")) ∧
      FindsKey (Run.after step (opened twoParents true) mixture) (ascii "Q\\b") := by
  suffices hall : ∀ earlier later, mixture = earlier ++ later →
      (∀ operation, Transparent (Run.after step (opened twoParents true) earlier) operation) ∧
        ∀ key, FindsKey (Run.after step (opened twoParents true) earlier) key from
    ⟨(hall _ _ (List.take_append_drop 2 mixture).symm).1 _, (hall _ [] (List.append_nil _).symm).2 _⟩
  apply position_transparent twoParents true (by decide) (by decide)
  refine ⟨by unfold Undisturbed Plain; decide, keepsCache_same ?_, by unfold Undisturbed Plain; decide,
    keepsCache_same ?_, trivial⟩
  · decide +kernel
  · decide +kernel

/-- A read between two sets leaves the position behind the key, which is then created again. -/
theorem position_misleads :
    ¬∀ (file : JavaString) (createKeyIfNotExist : Bool) (operations : List Operation),
      ∀ earlier operation later, operations = earlier ++ operation :: later →
        Transparent (Run.after step (opened file createKeyIfNotExist) earlier) operation ∧
          ∀ key, FindsKey (Run.after step (opened file createKeyIfNotExist) earlier) key := by
  intro h
  obtain ⟨-, hfinds⟩ := h twoParents true _
    [.set 0 (ascii "P\\a") (some (ascii "x")) (ascii "\"2\""), .get (ascii "Q\\b") (some (ascii "y"))]
    (.set 0 (ascii "P\\a") (some (ascii "x")) (ascii "\"3\"")) [] rfl
  apply hfinds (ascii "P\\a")
  · decide +kernel
  · decide +kernel

end WineRegistryEditor

end XoDos
