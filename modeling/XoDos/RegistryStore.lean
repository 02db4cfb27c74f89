import XoDos.RegistryWrite

/-!
# The registry as a store

After a value is set it is read back, and every other value is what it was, as long as the lines of
the values are told apart.  The line of a default value is not taken for the line of a value by
`lineHasName`, so that it continues the value before it.
-/

namespace XoDos

open WineRegistryEditor

namespace RegistryFile

/-! ## Lines of a section -/

theorem takeWhile_stop {lines rest : List JavaString} {line : JavaString}
    (h : (∀ l ∈ lines, continues l = true) → continues line = false) :
    (lines ++ line :: rest).takeWhile continues = lines.takeWhile continues := by
  induction lines with
  | nil => simp [h (by simp)]
  | cons first lines ih =>
    by_cases hc : continues first = true
    · rw [List.cons_append, List.takeWhile_cons_of_pos hc, List.takeWhile_cons_of_pos hc, ih]
      intro hall
      exact h (by simpa using ⟨hc, hall⟩)
    · rw [List.cons_append, List.takeWhile_cons_of_neg hc, List.takeWhile_cons_of_neg hc]

theorem continues_of_lineHasName {line : JavaString} (h : lineHasName line = true) :
    continues line = false := by
  simp [continues, h]

/-- The value of one line. -/
theorem lookup_line {name value : JavaString} {rest : List JavaString}
    (h : rest.takeWhile continues = []) : lookup name ((name ++ value) :: rest) = some value := by
  rw [lookup_hit (List.prefix_append _ _), h]
  simp

theorem takeWhile_dropWhile_blanks {lines blanks : List JavaString} (h : ∀ l ∈ blanks, l = []) :
    (lines.dropWhile continues ++ blanks).takeWhile continues = [] := by
  rw [takeWhile_blanks h]
  induction lines with
  | nil => rfl
  | cons line lines ih =>
    by_cases hc : continues line = true
    · rw [List.dropWhile_cons_of_pos hc, ih]
    · rw [List.dropWhile_cons_of_neg hc, List.takeWhile_cons_of_neg hc]

/-- The value with a name on one of the lines goes on to their end. -/
def RunsOn (lines : List JavaString) : Prop :=
  ∃ pre line post, lines = pre ++ line :: post ∧ (∃ name, valueText (some name) <+: line) ∧
    ∀ l ∈ post, continues l = true

section Body

variable {name other : Option JavaString} {value : JavaString} {pre post blanks : List JavaString}
  {line : JavaString}

/-- Another line in place of the lines of a value. -/
theorem lookup_replaced (hother : other ≠ name) (hpre : ∀ l ∈ pre, ¬valueText name <+: l)
    (hline : valueText name <+: line)
    (hnamed : ∀ l ∈ post.takeWhile continues, ¬valueText other <+: l)
    (hruns : (∃ p l q, pre = p ++ l :: q ∧ valueText other <+: l ∧ ∀ c ∈ q, continues c = true) →
      continues line = false ∧ continues (valueText name ++ value) = false) :
    lookup (valueText other)
        (pre ++ (valueText name ++ value) :: (post.dropWhile continues ++ blanks)) =
      lookup (valueText other) (pre ++ line :: post ++ blanks) := by
  rw [List.append_assoc, List.cons_append]
  rcases split_at_first (valueText other) pre with hnone | ⟨p, l, q, rfl, hl, hp⟩
  · have h₁ : ¬valueText other <+: line := fun h => hother (valueText_unique h hline)
    have h₂ : ¬valueText other <+: valueText name ++ value := fun h =>
      hother (valueText_unique h (List.prefix_append _ _))
    rw [lookup_miss hnone, lookup_miss hnone, lookup, if_neg h₂, lookup, if_neg h₁]
    conv_rhs => rw [← List.takeWhile_append_dropWhile (p := continues) (l := post),
      List.append_assoc, lookup_miss hnamed]
  · rw [List.append_assoc, List.append_assoc, lookup_miss hp, lookup_miss hp, List.cons_append,
      List.cons_append, lookup_hit hl, lookup_hit hl, takeWhile_stop, takeWhile_stop]
    · intro hall
      exact (hruns ⟨p, l, q, rfl, hl, hall⟩).1
    · intro hall
      exact (hruns ⟨p, l, q, rfl, hl, hall⟩).2

/-- A line behind the lines of a section. -/
theorem lookup_added {lines : List JavaString} (hother : other ≠ name)
    (hblanks : ∀ l ∈ blanks, l = [])
    (hruns : (∃ p l q, lines = p ++ l :: q ∧ valueText other <+: l ∧ ∀ c ∈ q, continues c = true) →
      continues (valueText name ++ value) = false) :
    lookup (valueText other) (lines ++ (valueText name ++ value) :: blanks) =
      lookup (valueText other) (lines ++ blanks) := by
  rcases split_at_first (valueText other) lines with hnone | ⟨p, l, q, rfl, hl, hp⟩
  · have h₂ : ¬valueText other <+: valueText name ++ value := fun h =>
      hother (valueText_unique h (List.prefix_append _ _))
    rw [lookup_miss hnone, lookup_miss hnone, lookup, if_neg h₂]
  · rw [List.append_assoc, List.append_assoc, lookup_miss hp, lookup_miss hp, List.cons_append,
      List.cons_append, lookup_hit hl, lookup_hit hl, takeWhile_blanks hblanks, takeWhile_stop]
    intro hall
    exact hruns ⟨p, l, q, rfl, hl, hall⟩

end Body

/-! ## Sections of a file -/

theorem valueIn_cons (s : RegistrySection) (rest : List RegistrySection) (key : JavaString)
    (name : Option JavaString) :
    valueIn (s :: rest) key name =
      if s.path = escape key then lookup (valueText name) s.body else valueIn rest key name := by
  simp only [valueIn, findSection]
  split_ifs <;> rfl

/-- Sections in front do not matter for a change behind. -/
theorem valueIn_append {rest rest' : List RegistrySection} {key : JavaString}
    {name : Option JavaString} (h : valueIn rest key name = valueIn rest' key name)
    (before : List RegistrySection) :
    valueIn (before ++ rest) key name = valueIn (before ++ rest') key name := by
  induction before with
  | nil => exact h
  | cons s before ih => rw [List.cons_append, List.cons_append, valueIn_cons, valueIn_cons, ih]

/-- Nor do sections of other keys. -/
theorem valueIn_skip {before : List RegistrySection} {key : JavaString}
    (h : ∀ s ∈ before, s.path ≠ escape key) (rest : List RegistrySection)
    (name : Option JavaString) : valueIn (before ++ rest) key name = valueIn rest key name := by
  rw [valueIn, valueIn, findSection_append h]

/-- What the value is read as depends on the text of it only. -/
theorem WellFormed.getStringValue_text {f : RegistryFile} (hf : f.WellFormed)
    (e : WineRegistryEditor) (he : e.cloneFile = f.text) (key : JavaString)
    (name : Option JavaString) :
    e.getStringValue key name =
      match f.rawValue key name with
      | some raw => (unquote (unescape raw)).map some
      | none => .ok none := by
  rw [getStringValue, hf.getRawValue_text e he]
  cases f.rawValue key name <;> rfl

theorem unquote_quoted (value : JavaString) :
    unquote (unescape (0x22 :: escape value ++ [0x22])) = .ok value := by
  rw [unescape_quoted, unquote, if_neg (by simp)]
  simp

/-! ## Setting a value -/

/-- The value that is set and the values around it are told apart: a default value does not continue
another value and is not continued by the value that is set. -/
structure Separate (s : RegistrySection) (last : Bool) (name : Option JavaString)
    (value : JavaString) : Prop where
  /-- No default value among the lines of a named value that is replaced. -/
  named : name ≠ none → ∀ pre line post, valueLines s last = pre ++ line :: post →
    (∀ l ∈ pre, ¬valueText name <+: l) → valueText name <+: line →
    ∀ l ∈ post.takeWhile continues, ¬valueText none <+: l
  /-- A default value that is replaced does not continue another value. -/
  replaced : name = none → ∀ pre line post, valueLines s last = pre ++ line :: post →
    (∀ l ∈ pre, ¬valueText none <+: l) → valueText none <+: line → RunsOn pre →
    lineHasName line = true ∧ 0x3D ∈ value
  /-- Nor does one that is added. -/
  added : name = none → (∀ l ∈ valueLines s last, ¬valueText none <+: l) →
    RunsOn (valueLines s last) → 0x3D ∈ value

/-- What the editor needs to set a value. -/
structure Editable (f : RegistryFile) (key : JavaString) (name : Option JavaString)
    (value : JavaString) : Prop where
  bracket : 0x5D ∉ key
  paired : Paired key ∧ Paired value ∧ ∀ n ∈ name, Paired n
  /-- A new key does not consist of backslashes only. -/
  parts : findSection key f.sections = none → splitKey key ≠ []
  /-- A new key without a parent comes to a file in ASCII. -/
  place : findSection key f.sections = none →
    (parentLoop f.text 0 (splitKey key).dropLast.reverse).1 = none → ∀ c ∈ f.text, c < 0x80
  separate : ∀ s last, findSection key f.sections = some (s, last) → Separate s last name value

variable {f : RegistryFile} {key value : JavaString} {name : Option JavaString}

/-- The text of a string as a value. -/
def quoted (value : JavaString) : JavaString := 0x22 :: escape value ++ [0x22]

theorem oneLine_quoted (h : OneLine value) : OneLine (quoted value) := by
  intro c hc
  simp only [quoted, List.cons_append, List.mem_cons, List.mem_append, List.not_mem_nil,
    or_false] at hc
  rcases hc with rfl | hc | rfl
  · decide
  · exact oneLine_escape h c hc
  · decide

theorem paired_quoted (h : Paired value) : Paired (quoted value) :=
  paired_cons (by decide) ((paired_escape h).append rfl)

theorem valueText_not_bracket (rest : JavaString) : ¬[0x5B] <+: valueText name ++ rest := by
  cases name <;> simp [valueText, nameText]

/-- The text of the value is found, and the other texts are what they were. -/
def Stored (f g : RegistryFile) (key : JavaString) (name : Option JavaString) (raw : JavaString) :
    Prop :=
  g.rawValue key name = some raw ∧
    ∀ key' name', (key', name') ≠ (key, name) → g.rawValue key' name' = f.rawValue key' name'

/-- A change of the body of the section of the key. -/
theorem stored_withBody {before after : List RegistrySection} {s : RegistrySection}
    {body : List JavaString} {raw : JavaString} (hs : f.sections = before ++ s :: after)
    (hpath : s.path = escape key) (hbefore : ∀ t ∈ before, t.path ≠ escape key)
    (hself : lookup (valueText name) body = some raw)
    (hother : ∀ other, other ≠ name →
      lookup (valueText other) body = lookup (valueText other) s.body) :
    Stored f (f.withBody before s body after) key name raw := by
  constructor
  · rw [rawValue, withBody, valueIn_skip hbefore, valueIn_cons, if_pos (by exact hpath), hself]
  · intro key' name' hne
    rw [rawValue, rawValue, hs, withBody]
    apply valueIn_append
    rw [valueIn_cons, valueIn_cons]
    by_cases hk : s.path = escape key'
    · have hkey : key' = key := escape_injective (hk.symm.trans hpath)
      subst hkey
      rw [if_pos hk, if_pos hk]
      apply hother
      intro h
      exact hne (by rw [h])
    · rw [if_neg hk, if_neg hk]

theorem not_continues_named {line : JavaString} {n : JavaString}
    (h : valueText (some n) <+: line) : continues line = false :=
  continues_of_lineHasName (lineHasName_of_value h)

/-- A line that continues a value is not the line of a named value. -/
theorem not_value_of_continues {other : Option JavaString} {line : JavaString}
    (hother : other ≠ none) (h : continues line = true) : ¬valueText other <+: line := by
  intro hp
  cases other with
  | none => exact hother rfl
  | some n =>
    rw [not_continues_named hp] at h
    cases h

section Existing

variable {before after : List RegistrySection} {s : RegistrySection}

theorem stored_found (hs : f.sections = before ++ s :: after) (hpath : s.path = escape key)
    (hbefore : ∀ t ∈ before, t.path ≠ escape key)
    (hsep : Separate s after.isEmpty name value) {pre post : List JavaString} {line : JavaString}
    (hv : valueLines s after.isEmpty = pre ++ line :: post)
    (hpre : ∀ l ∈ pre, ¬valueText name <+: l) (hline : valueText name <+: line) :
    Stored f (f.withBody before s (pre ++ (valueText name ++ quoted value) ::
      (post.dropWhile continues ++ blankLines s after.isEmpty)) after) key name (quoted value) := by
  have hblanks : ∀ l ∈ blankLines s after.isEmpty, l = [] := fun l hl => blankLines_blank hl
  apply stored_withBody hs hpath hbefore
  · rw [lookup_miss hpre, lookup_line (takeWhile_dropWhile_blanks hblanks)]
  · intro other hother
    rw [← valueLines_append s after.isEmpty, hv]
    apply lookup_replaced hother hpre hline
    · intro l hl
      by_cases h : other = none
      · subst h
        exact hsep.named (Ne.symm hother) pre line post hv hpre hline l hl
      · exact not_value_of_continues h (List.mem_takeWhile_imp hl)
    · rintro ⟨p, l, q, hsplit, hl, hq⟩
      cases name with
      | some n =>
        exact ⟨not_continues_named hline, not_continues_named (List.prefix_append _ _)⟩
      | none =>
        cases other with
        | none => exact absurd rfl hother
        | some m =>
          obtain ⟨hold, heq⟩ := hsep.replaced rfl pre line post hv hpre hline
            ⟨p, l, q, hsplit, ⟨m, hl⟩, hq⟩
          exact ⟨continues_of_lineHasName hold,
            continues_of_lineHasName ((lineHasName_default value).mpr heq)⟩

theorem stored_missing (hs : f.sections = before ++ s :: after) (hpath : s.path = escape key)
    (hbefore : ∀ t ∈ before, t.path ≠ escape key)
    (hsep : Separate s after.isEmpty name value)
    (hnone : ∀ l ∈ valueLines s after.isEmpty, ¬valueText name <+: l) :
    Stored f (f.withBody before s (valueLines s after.isEmpty ++ (valueText name ++ quoted value) ::
      blankLines s after.isEmpty) after) key name (quoted value) := by
  have hblanks : ∀ l ∈ blankLines s after.isEmpty, l = [] := fun l hl => blankLines_blank hl
  have hstop : (blankLines s after.isEmpty).takeWhile continues = [] := by
    simpa using @takeWhile_dropWhile_blanks [] _ hblanks
  apply stored_withBody hs hpath hbefore
  · rw [lookup_miss hnone, lookup_line hstop]
  · intro other hother
    conv_rhs => rw [← valueLines_append s after.isEmpty]
    apply lookup_added hother hblanks
    rintro ⟨p, l, q, hsplit, hl, hq⟩
    cases name with
    | some n => exact not_continues_named (List.prefix_append _ _)
    | none =>
      cases other with
      | none => exact absurd rfl hother
      | some m =>
        have heq := hsep.added rfl hnone ⟨p, l, q, hsplit, ⟨m, hl⟩, hq⟩
        exact continues_of_lineHasName ((lineHasName_default value).mpr heq)

/-- The file stays well formed. -/
theorem WellFormed.withBody (hf : f.WellFormed) (hs : f.sections = before ++ s :: after)
    {body : List JavaString} (hbody : ∀ l ∈ body, OneLine l ∧ Paired l ∧ ¬[0x5B] <+: l) :
    (f.withBody before s body after).WellFormed := by
  have hlines := lines_of_split hs
  have hold : ∀ t ∈ (f.withBody before s body after).sections,
      t ∈ f.sections ∨ t = { s with body } := by
    intro t ht
    simp only [RegistryFile.withBody, List.mem_append, List.mem_cons] at ht
    rw [hs]
    rcases ht with ht | ht | ht
    · exact .inl (List.mem_append_left _ ht)
    · exact .inr ht
    · exact .inl (by simp [ht])
  refine ⟨fun l hl => ?_, hf.preamble, fun t ht l hl => ?_, fun t ht => ?_⟩
  · rw [lines_withBody] at hl
    simp only [List.mem_append, List.mem_cons] at hl
    rcases hl with hl | rfl | hl | hl
    · exact hf.line l (by rw [hlines]; exact List.mem_append_left _ hl)
    · exact hf.line s.head (by simp [hlines])
    · exact ⟨(hbody l hl).1, (hbody l hl).2.1⟩
    · exact hf.line l (by simp [hlines, linesAfter, hl])
  · rcases hold t ht with ht | rfl
    · exact hf.body t ht l hl
    · exact (hbody l hl).2.2
  · rcases hold t ht with ht | rfl
    · exact hf.path t ht
    · exact hf.path s (by simp [hs])

/-- A line of a section is a line of a well-formed file. -/
theorem WellFormed.body_line (hf : f.WellFormed) (hs : f.sections = before ++ s :: after)
    {l : JavaString} (hl : l ∈ s.body) : OneLine l ∧ Paired l ∧ ¬[0x5B] <+: l := by
  have hmem : l ∈ f.lines := by
    rw [← valueLines_append s after.isEmpty, List.mem_append] at hl
    rw [lines_of_split hs, linesAfter]
    rcases hl with hl | hl
    · simp [hl]
    · simp [hl]
  exact ⟨(hf.line l hmem).1, (hf.line l hmem).2, hf.body s (by simp [hs]) l hl⟩

end Existing

/-! ## Creating a key -/

/-- The new section, with the blank lines that come behind it. -/
def created (now : Nat) (key line : JavaString) (blanks : List JavaString) : RegistrySection :=
  ⟨escape key, stamp now, timeLine now :: line :: blanks⟩

theorem lookup_created {now : Nat} {raw : JavaString} {blanks : List JavaString}
    (hblanks : ∀ l ∈ blanks, l = []) (other : Option JavaString) :
    lookup (valueText other) (created now key (valueText name ++ raw) blanks).body =
      if other = name then some raw else none := by
  have htime : ¬valueText other <+: timeLine now := by
    obtain ⟨rest, hrest⟩ := timeLine_head now
    rw [hrest]
    cases other <;> simp [valueText, nameText]
  have hno : ∀ l ∈ blanks, ¬valueText other <+: l := by
    intro l hl hp
    rw [hblanks l hl, List.prefix_nil] at hp
    exact valueText_ne_nil other hp
  have hstop : blanks.takeWhile continues = [] := by
    simpa using @takeWhile_dropWhile_blanks [] _ hblanks
  rw [created, lookup, if_neg htime]
  split_ifs with h
  · subst h
    exact lookup_line hstop
  · rw [lookup, if_neg, lookup_none hno]
    intro hp
    exact h (valueText_unique hp (List.prefix_append _ _))

theorem created_path {now : Nat} {line : JavaString} {blanks : List JavaString} :
    (created now key line blanks).path = escape key := rfl

/-- A section is added to a file that stays well formed. -/
theorem WellFormed.insert (hf : f.WellFormed) {before after : List RegistrySection}
    (hs : f.sections = before ++ after) {s : RegistrySection}
    (hhead : OneLine s.head ∧ Paired s.head)
    (hbody : ∀ l ∈ s.body, OneLine l ∧ Paired l ∧ ¬[0x5B] <+: l)
    (hpath : closedPath s.path = true ∧ 0x5D ∉ s.stamp) :
    WellFormed { f with sections := before ++ s :: after } := by
  refine ⟨fun l hl => ?_, hf.preamble, fun t ht l hl => ?_, fun t ht => ?_⟩
  · simp only [lines, sectionLines, List.flatMap_append, List.flatMap_cons, RegistrySection.lines,
      List.mem_append, List.mem_cons] at hl
    have hold : l ∈ f.preamble ∨ l ∈ sectionLines before ∨ l ∈ sectionLines after →
        OneLine l ∧ Paired l := by
      intro h
      apply hf.line
      rw [lines, hs, sectionLines, List.flatMap_append]
      simp only [List.mem_append]
      exact h
    rcases hl with hl | hl | (rfl | hl) | hl
    · exact hold (.inl hl)
    · exact hold (.inr (.inl hl))
    · exact hhead
    · exact ⟨(hbody l hl).1, (hbody l hl).2.1⟩
    · exact hold (.inr (.inr hl))
  · simp only [List.mem_append, List.mem_cons] at ht
    rcases ht with ht | rfl | ht
    · exact hf.body t (by simp [hs, ht]) l hl
    · exact (hbody l hl).2.2
    · exact hf.body t (by simp [hs, ht]) l hl
  · simp only [List.mem_append, List.mem_cons] at ht
    rcases ht with ht | rfl | ht
    · exact hf.path t (by simp [hs, ht])
    · exact hpath
    · exact hf.path t (by simp [hs, ht])

/-- What the section of a new key needs to stand in a file. -/
theorem WellFormed.insert_created (hf : f.WellFormed) {before after : List RegistrySection}
    (hs : f.sections = before ++ after) (now : Nat) {line : JavaString} {blanks : List JavaString}
    (hkey : OneLine key ∧ Paired key) (hbracket : 0x5D ∉ key)
    (hline : OneLine line ∧ Paired line ∧ ¬[0x5B] <+: line) (hblanks : ∀ l ∈ blanks, l = []) :
    WellFormed { f with sections := before ++ created now key line blanks :: after } := by
  apply hf.insert hs
  · exact ⟨oneLine_head hkey.1 _, paired_head hkey.2 _⟩
  · intro l hl
    rcases List.mem_cons.mp hl with rfl | hl
    · obtain ⟨rest, hrest⟩ := timeLine_head now
      exact ⟨oneLine_timeLine now, paired_timeLine now, by rw [hrest]; simp⟩
    · rcases List.mem_cons.mp hl with rfl | hl
      · exact hline
      · rw [hblanks l hl]
        exact ⟨by simp [OneLine], rfl, by simp⟩
  · refine ⟨closedPath_escape hbracket, fun hmem => ?_⟩
    have := mem_stamp hmem
    omega

/-- A new section in a file without sections. -/
theorem created_first (hf : f.WellFormed) (hs : f.sections = []) (now : Nat) {raw : JavaString}
    (hkey : OneLine key ∧ Paired key) (hbracket : 0x5D ∉ key)
    (hline : OneLine (valueText name ++ raw) ∧ Paired (valueText name ++ raw)) :
    ∃ g : RegistryFile, g.WellFormed ∧ Stored f g key name raw ∧
      g.text = unlines (f.preamble ++ [] :: newSection now key ++ [valueText name ++ raw]) := by
  have hlines : f.lines = f.preamble := by simp [lines, hs, sectionLines]
  have hempty : WellFormed ⟨f.preamble ++ [[]], []⟩ := by
    have hblank : ∀ l ∈ f.preamble ++ [[]], OneLine l ∧ Paired l ∧ ¬[0x5B] <+: l := by
      intro l hl
      rcases List.mem_append.mp hl with hl | hl
      · have hmem := hf.line l (by rwa [hlines])
        exact ⟨hmem.1, hmem.2, hf.preamble l hl⟩
      · rw [List.mem_singleton.mp hl]
        exact ⟨by simp [OneLine], rfl, by simp⟩
    refine ⟨fun l hl => ?_, fun l hl => (hblank l hl).2.2, by simp, by simp⟩
    have hl' : l ∈ f.preamble ++ [[]] := by simpa [lines, sectionLines] using hl
    exact ⟨(hblank l hl').1, (hblank l hl').2.1⟩
  refine ⟨_, hempty.insert_created (List.nil_append []).symm now hkey hbracket
    ⟨hline.1, hline.2, valueText_not_bracket raw⟩ (by simp : ∀ l ∈ [], l = []), ⟨?_, ?_⟩, ?_⟩
  · rw [rawValue, List.nil_append, valueIn_cons, if_pos created_path, lookup_created (by simp),
      if_pos rfl]
  · intro key' name' hne
    rw [rawValue, rawValue, hs, List.nil_append, valueIn_cons, created_path]
    split_ifs with hk
    · rw [lookup_created (by simp), if_neg]
      · rfl
      · intro h
        exact hne (by rw [escape_injective hk, h])
    · rfl
  · simp [text, lines, sectionLines, RegistrySection.lines, created,
      newSection_eq now key (timeLine now :: [valueText name ++ raw])]

/-- A new section behind another one. -/
theorem created_behind (hf : f.WellFormed) {before after : List RegistrySection}
    {s : RegistrySection} (hs : f.sections = before ++ s :: after)
    (hmissing : ∀ t ∈ f.sections, t.path ≠ escape key) (now : Nat) {raw : JavaString}
    (hkey : OneLine key ∧ Paired key) (hbracket : 0x5D ∉ key)
    (hline : OneLine (valueText name ++ raw) ∧ Paired (valueText name ++ raw)) :
    ∃ g : RegistryFile, g.WellFormed ∧ Stored f g key name raw ∧
      g.text = unlines (f.linesBefore before ++ s.head :: valueLines s after.isEmpty ++
        [] :: newSection now key ++ (valueText name ++ raw) :: linesAfter s after) := by
  obtain ⟨s', hs'⟩ : ∃ s' : RegistrySection,
      s' = { s with body := valueLines s after.isEmpty ++ [[]] } := ⟨_, rfl⟩
  have hpath' : s'.path = s.path := by rw [hs']
  have hblanks : ∀ l ∈ blankLines s after.isEmpty, l = [] := fun l hl => blankLines_blank hl
  have hbody : ∀ l ∈ valueLines s after.isEmpty ++ [[]], OneLine l ∧ Paired l ∧ ¬[0x5B] <+: l := by
    intro l hl
    rcases List.mem_append.mp hl with hl | hl
    · apply hf.body_line hs
      rw [← valueLines_append s after.isEmpty]
      exact List.mem_append_left _ hl
    · rw [List.mem_singleton.mp hl]
      exact ⟨by simp [OneLine], rfl, by simp⟩
  have hsections : (f.withBody before s (valueLines s after.isEmpty ++ [[]]) after).sections =
      (before ++ [s']) ++ after := by simp [withBody, hs']
  refine ⟨_, (hf.withBody hs hbody).insert_created hsections now hkey hbracket
    ⟨hline.1, hline.2, valueText_not_bracket raw⟩ hblanks, ⟨?_, ?_⟩, ?_⟩
  -- The key is new, so the search passes every section up to the one that was made.
  · have hother : ∀ t ∈ before ++ [s'], t.path ≠ escape key := by
      intro t ht
      rcases List.mem_append.mp ht with ht | ht
      · exact hmissing t (by simp [hs, ht])
      · rw [List.mem_singleton.mp ht, hpath']
        exact hmissing s (by simp [hs])
    rw [rawValue, valueIn_skip hother, valueIn_cons, if_pos created_path, lookup_created hblanks,
      if_pos rfl]
  · intro key' name' hne
    rw [rawValue, rawValue, hs, List.append_assoc]
    apply valueIn_append
    rw [List.singleton_append, valueIn_cons s', valueIn_cons s, hpath']
    -- A value of the section in front keeps its line, as blank lines alone are moved.
    by_cases hk : s.path = escape key'
    · have hbody' : s'.body = valueLines s after.isEmpty ++ [[]] := by rw [hs']
      rw [if_pos hk, if_pos hk, hbody', lookup_blanks (valueText_ne_nil name') (by simp),
        ← lookup_valueLines s after.isEmpty]
    · rw [if_neg hk, if_neg hk, valueIn_cons, created_path]
      by_cases hk' : escape key = escape key'
      · have hkk := escape_injective hk'
        subst hkk
        have hnone : valueIn after key name' = none := by
          rw [valueIn, findSection_none.mpr fun t ht => hmissing t (by simp [hs, ht])]
          rfl
        rw [if_pos rfl, lookup_created hblanks, hnone, if_neg]
        intro h
        exact hne (by rw [h])
      · rw [if_neg hk']
  · simp [text, lines, withBody, sectionLines, RegistrySection.lines, created, linesBefore, linesAfter,
      hs', RegistrySection.head, newSection_eq now key []]

/-- A new section wherever it comes. -/
theorem WellFormed.created (hf : f.WellFormed) {lines rest : List JavaString}
    (hgap : f.Gap lines rest) (hmissing : ∀ t ∈ f.sections, t.path ≠ escape key) (now : Nat)
    {raw : JavaString} (hkey : OneLine key ∧ Paired key) (hbracket : 0x5D ∉ key)
    (hline : OneLine (valueText name ++ raw) ∧ Paired (valueText name ++ raw)) :
    ∃ g : RegistryFile, g.WellFormed ∧ Stored f g key name raw ∧
      g.text = unlines (lines ++ [] :: newSection now key ++ (valueText name ++ raw) :: rest) := by
  rcases hgap with ⟨hs, rfl, rfl⟩ | ⟨before, s, after, hs, rfl, rfl⟩
  · exact created_first hf hs now hkey hbracket hline
  · exact created_behind hf hs hmissing now hkey hbracket hline

/-! ## The store -/

/-- The text of the file after a value was set. -/
theorem WellFormed.setStringValue_text (hf : f.WellFormed) (now : Nat) (hkey : OneLine key)
    (hname : ∀ n ∈ name, OneLine n) (hvalue : OneLine value) (h : Editable f key name value) :
    ∃ e' g, (WineRegistryEditor.new f.text).setStringValue now key name (some value) = .ok e' ∧
      g.WellFormed ∧ Stored f g key name (quoted value) ∧ e'.cloneFile = g.text := by
  obtain ⟨hbracket, ⟨hpk, hpv, hpn⟩, hparts, hplace, hsep⟩ := h
  have hline : OneLine (valueText name ++ quoted value) ∧ Paired (valueText name ++ quoted value) := by
    refine ⟨fun c hc => ?_, (paired_valueText hpn).append (paired_quoted hpv)⟩
    rcases List.mem_append.mp hc with hc | hc
    · exact oneLine_valueText hname c hc
    · exact oneLine_quoted hvalue c hc
  -- A new editor searches from the start of the file.
  have hreset : ((WineRegistryEditor.new f.text).resetLastParentKeyPositionIfNeed
      key).lastParentKeyPosition = 0 ∧ ((WineRegistryEditor.new
        f.text).resetLastParentKeyPositionIfNeed key).cloneFile = f.text ∧
      ((WineRegistryEditor.new f.text).resetLastParentKeyPositionIfNeed
        key).createKeyIfNotExist = true := by
    unfold resetLastParentKeyPositionIfNeed WineRegistryEditor.new
    cases parentKey key <;> simp
  obtain ⟨hpos, hclone, hcreate⟩ := hreset
  simp only [setStringValue, setRawValue, Option.getD_some, hpos, hclone, hcreate, if_true]
  rw [show (0x22 :: escape value ++ [0x22] : JavaString) = quoted value from rfl]
  cases hloc : getKeyLocation f.text 0 key false with
  | mk location position =>
    have hloc₁ : (getKeyLocation f.text 0 key false).1 = location := by rw [hloc]
    cases location with
    | some location =>
      obtain ⟨before, s, after, hs, hpath, hbefore, rfl⟩ := hf.key_found hloc₁
      have hsep' := hsep s after.isEmpty (by rw [hs, findSection_hit hbefore hpath])
      rcases split_at_first (valueText name) (valueLines s after.isEmpty) with
        hnone | ⟨pre, line, post, hv, hfirst, hpre⟩
      · refine ⟨_, _, rfl, ?_, stored_missing hs hpath hbefore hsep' hnone,
          hf.writeValue_missing rfl hs hnone (paired_valueText hpn) (paired_quoted hpv)⟩
        apply hf.withBody hs
        intro l hl
        rw [List.mem_append, List.mem_cons] at hl
        rcases hl with hl | rfl | hl
        · exact hf.body_line hs (by rw [← valueLines_append s after.isEmpty]; simp [hl])
        · exact ⟨hline.1, hline.2, valueText_not_bracket _⟩
        · exact hf.body_line hs (by rw [← valueLines_append s after.isEmpty]; simp [hl])
      · refine ⟨_, _, rfl, ?_, stored_found hs hpath hbefore hsep' hv hpre hfirst,
          hf.writeValue_found rfl hs hv hpre hfirst (paired_valueText hpn) (paired_quoted hpv)⟩
        apply hf.withBody hs
        intro l hl
        simp only [List.mem_append, List.mem_cons] at hl
        rcases hl with hl | rfl | hl | hl
        · exact hf.body_line hs (by rw [← valueLines_append s after.isEmpty, hv]; simp [hl])
        · exact ⟨hline.1, hline.2, valueText_not_bracket _⟩
        · have hmem := List.dropWhile_subset _ hl
          exact hf.body_line hs (by rw [← valueLines_append s after.isEmpty, hv]; simp [hmem])
        · exact hf.body_line hs (by rw [← valueLines_append s after.isEmpty]; simp [hl])
    | none =>
      have hmissing := hf.key_missing hloc₁
      have hfind := findSection_none.mpr hmissing
      obtain ⟨e', location, lines, rest, hcreated, hgap, hclone', hstart, hstop⟩ :=
        hf.createKey_text (e := ⟨f.text, true, position, ((WineRegistryEditor.new
          f.text).resetLastParentKeyPositionIfNeed key).lastParentKey⟩) rfl now hpk (hparts hfind)
          (hplace hfind)
      simp only
      rw [hcreated, ok_bind]
      have hpaired : Paired (unlines (lines ++ [] :: newSection now key ++
          (valueText name ++ quoted value) :: rest)) := by
        have hinsert := @WellFormed.paired_insert f key hf lines rest hgap.lines_eq hpk now
          [valueText name ++ quoted value] (by simpa using hline.2)
        simpa only [List.append_assoc, List.singleton_append] using hinsert
      have hwritten := writeValue_new (by simp) hclone' hstart hstop hpaired
      obtain ⟨g, hg, hstored, htext⟩ := hf.created hgap hmissing now ⟨hkey, hpk⟩ hbracket hline
      exact ⟨_, g, rfl, hg, hstored, by rw [hwritten, htext]⟩

/-- Setting a value and reading values, on a file in which the values are told apart. -/
theorem setStringValue_stores (f : RegistryFile) (hf : f.WellFormed) (now : Nat)
    (key value : JavaString) (name : Option JavaString) (hkey : OneLine key)
    (hname : ∀ n ∈ name, OneLine n) (hvalue : OneLine value) (h : Editable f key name value) :
    ∃ e', (WineRegistryEditor.new f.text).setStringValue now key name (some value) = .ok e' ∧
      e'.getStringValue key name = .ok (some value) ∧
      ∀ key' name', (key', name') ≠ (key, name) →
        e'.getStringValue key' name' =
          (WineRegistryEditor.new f.text).getStringValue key' name' := by
  obtain ⟨e', g, hset, hg, hstored, htext⟩ := hf.setStringValue_text now hkey hname hvalue h
  refine ⟨e', hset, ?_, fun key' name' hne => ?_⟩
  · rw [hg.getStringValue_text e' htext, hstored.1]
    simp only [quoted, unquote_quoted]
    rfl
  · rw [hg.getStringValue_text e' htext, hf.getStringValue_text (WineRegistryEditor.new f.text) rfl,
      hstored.2 key' name' hne]

/-- A key with one value. -/
def oneValue : RegistryFile :=
  ⟨[ascii "WINE REGISTRY Version 2", []], [⟨ascii "A", ascii " 1", [ascii "\"x\"=\"1\""]⟩]⟩

theorem oneValue_wellFormed : oneValue.WellFormed :=
  ⟨by decide, by decide, by decide, by decide⟩

theorem setStringValue_stores_second :
    ∃ e', (WineRegistryEditor.new oneValue.text).setStringValue 0 (ascii "A") (some (ascii "y"))
        (some (ascii "2")) = .ok e' ∧
      e'.getStringValue (ascii "A") (some (ascii "y")) = .ok (some (ascii "2")) ∧
      ∀ key' name', (key', name') ≠ (ascii "A", some (ascii "y")) →
        e'.getStringValue key' name' =
          (WineRegistryEditor.new oneValue.text).getStringValue key' name' := by
  apply setStringValue_stores oneValue oneValue_wellFormed 0 (ascii "A") (ascii "2")
    (some (ascii "y")) (by decide) (by decide) (by decide)
  refine ⟨by decide, by decide, by decide, by decide, fun s last hs => ?_⟩
  have hs' : (⟨ascii "A", ascii " 1", [ascii "\"x\"=\"1\""]⟩, true) = (s, last) :=
    Option.some.inj hs
  cases hs'
  refine ⟨fun _ pre line post hv hpre hline => ?_, by simp, by simp⟩
  have hno : ∀ l ∈ [ascii "\"x\"=\"1\""], ¬valueText (some (ascii "y")) <+: l := by decide
  exact absurd hline (hno line (by
    have hmem : line ∈ pre ++ line :: post := by simp
    rw [← hv] at hmem
    exact hmem))

/-- A default value that is set behind another value is read as part of it. -/
theorem setStringValue_breaks :
    ¬∀ (f : RegistryFile), f.WellFormed → ∀ (now : Nat) (key value : JavaString)
      (name : Option JavaString), OneLine key → (∀ n ∈ name, OneLine n) → OneLine value →
      ∃ e', (WineRegistryEditor.new f.text).setStringValue now key name (some value) = .ok e' ∧
        e'.getStringValue key name = .ok (some value) ∧
        ∀ key' name', (key', name') ≠ (key, name) →
          e'.getStringValue key' name' =
            (WineRegistryEditor.new f.text).getStringValue key' name' := by
  intro h
  obtain ⟨e', hset, -, hother⟩ := h oneValue oneValue_wellFormed 0 (ascii "A") (ascii "2") none
    (by decide) (by simp) (by decide)
  have hx := hother (ascii "A") (some (ascii "x")) (by simp)
  have hold : (WineRegistryEditor.new oneValue.text).getStringValue (ascii "A") (some (ascii "x")) =
      .ok (some (ascii "1")) := by decide +kernel
  have hnew : ((WineRegistryEditor.new oneValue.text).setStringValue 0 (ascii "A") none
      (some (ascii "2"))).bind (·.getStringValue (ascii "A") (some (ascii "x"))) =
      .ok (some (ascii "1\"\n@=\"2")) := by decide +kernel
  rw [hset] at hnew
  rw [hold] at hx
  have hboth : (Except.ok (some (ascii "1")) : Java (Option JavaString)) =
      .ok (some (ascii "1\"\n@=\"2")) := hx.symm.trans hnew
  exact absurd hboth (by decide)

end RegistryFile

end XoDos
