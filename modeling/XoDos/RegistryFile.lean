import XoDos.RegistrySearch

/-!
# Registry files

A registry file has lines of its own and then a section for each key.  What the editor reads from
such a file is said here in terms of the sections and their lines.
-/

namespace XoDos

open WineRegistryEditor

/-- The line of a section is its path in brackets and a time stamp. -/
structure RegistrySection where
  path : JavaString
  stamp : JavaString
  body : List JavaString

namespace RegistrySection

def head (s : RegistrySection) : JavaString := 0x5B :: s.path ++ 0x5D :: s.stamp

def lines (s : RegistrySection) : List JavaString := s.head :: s.body

theorem bracket_head (s : RegistrySection) : [0x5B] <+: s.head := by simp [head]

end RegistrySection

/-- The lines of many sections. -/
def sectionLines (sections : List RegistrySection) : List JavaString :=
  sections.flatMap RegistrySection.lines

structure RegistryFile where
  preamble : List JavaString
  sections : List RegistrySection

namespace RegistryFile

def lines (f : RegistryFile) : List JavaString := f.preamble ++ sectionLines f.sections

def text (f : RegistryFile) : JavaString := unlines f.lines

/-- Only the lines of sections start with a bracket, and in a path a bracket stands behind a
backslash.  Of several sections of a key the first one counts. -/
structure WellFormed (f : RegistryFile) : Prop where
  line : ∀ l ∈ f.lines, OneLine l ∧ Paired l
  preamble : ∀ l ∈ f.preamble, ¬[0x5B] <+: l
  body : ∀ s ∈ f.sections, ∀ l ∈ s.body, ¬[0x5B] <+: l
  path : ∀ s ∈ f.sections, closedPath s.path = true ∧ 0x5D ∉ s.stamp

/-- The first section of the key, and whether it is the last of the file. -/
def findSection (key : JavaString) : List RegistrySection → Option (RegistrySection × Bool)
  | [] => none
  | s :: rest => if s.path = escape key then some (s, rest.isEmpty) else findSection key rest

/-- The text of a value, with the lines that continue it. -/
def lookup (name : JavaString) : List JavaString → Option JavaString
  | [] => none
  | line :: rest =>
    if name <+: line then
      some (unlines (line.drop name.length :: rest.takeWhile continues)).dropLast
    else lookup name rest

/-- The text of a value of a key. -/
def valueIn (sections : List RegistrySection) (key : JavaString) (name : Option JavaString) :
    Option JavaString :=
  (findSection key sections).bind fun s => lookup (valueText name) s.1.body

def rawValue (f : RegistryFile) (key : JavaString) (name : Option JavaString) : Option JavaString :=
  valueIn f.sections key name

/-- The lines of a section behind which a value is added: without the blank ones at its end, unless
the section is the last one. -/
def valueLines (s : RegistrySection) (last : Bool) : List JavaString :=
  if last then s.body else trimmed s.body

/-- The blank lines that come behind. -/
def blankLines (s : RegistrySection) (last : Bool) : List JavaString :=
  if last then [] else blanksOf s.body

theorem valueLines_append (s : RegistrySection) (last : Bool) :
    valueLines s last ++ blankLines s last = s.body := by
  cases last with
  | true => simp [valueLines, blankLines]
  | false => simp [valueLines, blankLines, trimmed_append_blanksOf]

theorem blankLines_blank {s : RegistrySection} {last : Bool} {l : JavaString}
    (h : l ∈ blankLines s last) : l = [] := by
  cases last with
  | true => simp [blankLines] at h
  | false => exact blanksOf_blank (by simpa [blankLines] using h)

/-! ## Finding sections -/

theorem findSection_none {key : JavaString} {sections : List RegistrySection} :
    findSection key sections = none ↔ ∀ s ∈ sections, s.path ≠ escape key := by
  induction sections with
  | nil => simp [findSection]
  | cons s rest ih =>
    by_cases h : s.path = escape key
    · simp [findSection, h]
    · simp [findSection, h, ih]

theorem findSection_append {key : JavaString} {before : List RegistrySection}
    (h : ∀ s ∈ before, s.path ≠ escape key) (rest : List RegistrySection) :
    findSection key (before ++ rest) = findSection key rest := by
  induction before with
  | nil => rfl
  | cons s before ih =>
    rw [List.cons_append, findSection, if_neg (h s (by simp)), ih fun t ht => h t (by simp [ht])]

theorem findSection_hit {key : JavaString} {before after : List RegistrySection}
    {s : RegistrySection} (h : ∀ t ∈ before, t.path ≠ escape key) (hs : s.path = escape key) :
    findSection key (before ++ s :: after) = some (s, after.isEmpty) := by
  rw [findSection_append h, findSection, if_pos hs]

/-- A line that starts with a bracket is the line of a section. -/
theorem sectionLines_split {sections : List RegistrySection}
    (hbody : ∀ s ∈ sections, ∀ l ∈ s.body, ¬[0x5B] <+: l) {pre post : List JavaString}
    {line : JavaString} (hlines : sectionLines sections = pre ++ line :: post)
    (hline : [0x5B] <+: line) :
    ∃ before s after, sections = before ++ s :: after ∧ pre = sectionLines before ∧
      line = s.head ∧ post = s.body ++ sectionLines after := by
  induction sections generalizing pre with
  | nil => simp [sectionLines] at hlines
  | cons s sections ih =>
    rw [sectionLines, List.flatMap_cons, RegistrySection.lines, List.cons_append] at hlines
    cases pre with
    | nil =>
      rw [List.nil_append, List.cons_eq_cons] at hlines
      exact ⟨[], s, sections, rfl, rfl, hlines.1.symm, hlines.2.symm⟩
    | cons first pre =>
      rw [List.cons_append, List.cons_eq_cons] at hlines
      obtain ⟨hfirst, hlines⟩ := hlines
      -- The line is in front of the end of this section's body, or behind it.
      rcases List.append_eq_append_iff.mp hlines with ⟨as, has, hrest⟩ | ⟨as, has, hrest⟩
      · obtain ⟨before, t, after, rfl, rfl, hl, hp⟩ :=
          ih (fun t ht => hbody t (by simp [ht])) hrest
        refine ⟨s :: before, t, after, rfl, ?_, hl, hp⟩
        rw [has, ← hfirst]
        rfl
      · -- The line would be one of the body of `s`.
        cases as with
        | nil =>
          rw [List.append_nil] at has
          rw [List.nil_append] at hrest
          obtain ⟨before, t, after, rfl, hpre, hl, hp⟩ :=
            ih (fun t ht => hbody t (by simp [ht])) (show sectionLines sections = [] ++ line :: post
              from hrest.symm)
          refine ⟨s :: before, t, after, rfl, ?_, hl, hp⟩
          rw [← hfirst, ← has]
          simp only [sectionLines, List.flatMap_cons, RegistrySection.lines] at hpre ⊢
          rw [← hpre, List.append_nil]
        | cons a as =>
          rw [List.cons_append, List.cons_eq_cons] at hrest
          have hmem : line ∈ s.body := by
            rw [has, hrest.1]
            simp
          exact absurd hline (hbody s (by simp) line hmem)

variable {f : RegistryFile}

theorem WellFormed.split (hf : f.WellFormed) {pre post : List JavaString} {line : JavaString}
    (hlines : f.lines = pre ++ line :: post) (hline : [0x5B] <+: line) :
    ∃ before s after, f.sections = before ++ s :: after ∧ pre = f.preamble ++ sectionLines before ∧
      line = s.head ∧ post = s.body ++ sectionLines after := by
  unfold lines at hlines
  rcases List.append_eq_append_iff.mp hlines with ⟨as, has, hrest⟩ | ⟨as, has, hrest⟩
  · obtain ⟨before, s, after, hs, rfl, hl, hp⟩ := sectionLines_split hf.body hrest hline
    exact ⟨before, s, after, hs, has, hl, hp⟩
  · cases as with
    | nil =>
      rw [List.append_nil] at has
      obtain ⟨before, s, after, hs, hpre, hl, hp⟩ :=
        sectionLines_split hf.body (show sectionLines f.sections = [] ++ line :: post
          from hrest.symm) hline
      exact ⟨before, s, after, hs, by rw [← hpre, List.append_nil, has], hl, hp⟩
    | cons a as =>
      rw [List.cons_append, List.cons_eq_cons] at hrest
      have hmem : line ∈ f.preamble := by
        rw [has, hrest.1]
        simp
      exact absurd hline (hf.preamble line hmem)

/-- Behind whole lines the other lines are read. -/
theorem WellFormed.linesOf_drop (hf : f.WellFormed) {skipped lines : List JavaString}
    (h : f.lines = skipped ++ lines) :
    linesOf (f.text.drop (unlines skipped).length) = lines := by
  have hone : ∀ l ∈ lines, OneLine l := fun l hl => (hf.line l (by simp [h, hl])).1
  have hread := linesOf_unlines hone []
  rw [List.append_nil] at hread
  rw [text, h, unlines_append, List.drop_left, hread]
  simp [linesOf, linesFrom]

theorem WellFormed.linesOf_text (hf : f.WellFormed) : linesOf f.text = f.lines := by
  simpa using hf.linesOf_drop (List.nil_append f.lines).symm

/-- The lines before a section. -/
def linesBefore (f : RegistryFile) (before : List RegistrySection) : List JavaString :=
  f.preamble ++ sectionLines before

/-- Where the editor finds a section. -/
def place (f : RegistryFile) (before : List RegistrySection) (s : RegistrySection) (last : Bool) :
    Location :=
  ⟨((unlines (f.linesBefore before)).length : Int) - 1,
    (unlines (f.linesBefore before ++ [s.head])).length,
    (unlines (f.linesBefore before ++ s.head :: valueLines s last)).length - 1⟩

/-- The end of a section. -/
theorem WellFormed.sectionStop_eq (hf : f.WellFormed) {before after : List RegistrySection}
    {s : RegistrySection} (hs : f.sections = before ++ s :: after) (total : Nat) (ht : 1 ≤ total) :
    sectionStop total 0 (s.body ++ sectionLines after) =
      total + (unlines (valueLines s after.isEmpty)).length - 1 := by
  have hbody : ∀ l ∈ s.body, ¬[0x5B] <+: l := hf.body s (by simp [hs])
  cases after with
  | nil => simpa [sectionLines, valueLines] using sectionStop_open hbody total 0
  | cons next after =>
    have hlines : sectionLines (next :: after) = next.head :: (next.body ++ sectionLines after) := by
      simp [sectionLines, RegistrySection.lines]
    rw [hlines, sectionStop_next hbody next.bracket_head]
    simp only [valueLines, List.isEmpty_cons, Bool.false_eq_true, if_false, length_trimmed]
    have hle := trailingBlanks_le s.body
    omega

/-- Whatever the editor finds by a bracket is a section. -/
theorem WellFormed.place_of_keyLoop (hf : f.WellFormed) {skipped lines : List JavaString}
    (hlines : f.lines = skipped ++ lines) {key : JavaString} (hkey : [0x5B] <+: key)
    {position : Nat} {location : Location}
    (h : (keyLoop key none position (unlines skipped).length lines).1 = some location) :
    ∃ before s after pre, f.sections = before ++ s :: after ∧ key <+: s.head ∧
      f.linesBefore before = skipped ++ pre ∧ (∀ l ∈ pre, ¬key <+: l) ∧
      location = f.place before s after.isEmpty := by
  obtain ⟨pre, line, post, rfl, hline, hpre, rfl⟩ := keyLoop_fst_some h
  rw [← List.append_assoc] at hlines
  obtain ⟨before, s, after, hs, hbefore, rfl, rfl⟩ := hf.split hlines (hkey.trans hline)
  refine ⟨before, s, after, pre, hs, hline, hbefore.symm, hpre, ?_⟩
  rw [hf.sectionStop_eq hs _ (by omega), place, linesBefore, ← hbefore]
  simp only [unlines_append, unlines_cons, unlines_nil, List.length_append, List.length_cons,
    List.length_nil, Location.mk.injEq]
  refine ⟨by simp, ?_, ?_⟩ <;> omega

/-- The section that a key has is found. -/
theorem WellFormed.key_found (hf : f.WellFormed) {key : JavaString} {location : Location}
    (h : (getKeyLocation f.text 0 key false).1 = some location) :
    ∃ before s after, f.sections = before ++ s :: after ∧ s.path = escape key ∧
      (∀ t ∈ before, t.path ≠ escape key) ∧ location = f.place before s after.isEmpty := by
  rw [getKeyLocation_fst, hf.linesOf_text] at h
  obtain ⟨before, s, after, pre, hs, hhead, hpre, hno, hloc⟩ :=
    hf.place_of_keyLoop (List.nil_append _).symm (by simp [keyText]) h
  have hpath : ∀ t ∈ f.sections, keyText key false <+: t.head ↔ t.path = escape key := by
    intro t ht
    exact keyText_iff (hf.path t ht).1 (hf.path t ht).2 key
  refine ⟨before, s, after, hs, (hpath s (by simp [hs])).mp hhead, fun t ht heq => ?_, hloc⟩
  refine hno t.head ?_ ((hpath t (by simp [hs, ht])).mpr heq)
  rw [List.nil_append] at hpre
  rw [← hpre, linesBefore, sectionLines]
  exact List.mem_append_right _ (List.mem_flatMap.mpr ⟨t, ht, by simp [RegistrySection.lines]⟩)

theorem WellFormed.key_missing (hf : f.WellFormed) {key : JavaString}
    (h : (getKeyLocation f.text 0 key false).1 = none) : ∀ s ∈ f.sections, s.path ≠ escape key := by
  rw [getKeyLocation_fst, hf.linesOf_text] at h
  intro s hs heq
  have hno := keyLoop_fst_none _ _ h s.head (by
    rw [lines, sectionLines]
    exact List.mem_append_right _ (List.mem_flatMap.mpr ⟨s, hs, by simp [RegistrySection.lines]⟩))
  exact hno ((keyText_iff (hf.path s hs).1 (hf.path s hs).2 key).mpr heq)

/-! ## Finding values -/

theorem lookup_miss {name : JavaString} {lines : List JavaString} (h : ∀ l ∈ lines, ¬name <+: l)
    (rest : List JavaString) : lookup name (lines ++ rest) = lookup name rest := by
  induction lines with
  | nil => rfl
  | cons line lines ih =>
    rw [List.cons_append, lookup, if_neg (h line (by simp)), ih fun l hl => h l (by simp [hl])]

theorem lookup_hit {name line : JavaString} (h : name <+: line) (post : List JavaString) :
    lookup name (line :: post) =
      some (unlines (line.drop name.length :: post.takeWhile continues)).dropLast := by
  rw [lookup, if_pos h]

theorem lookup_none {name : JavaString} {lines : List JavaString} (h : ∀ l ∈ lines, ¬name <+: l) :
    lookup name lines = none := by
  simpa [lookup] using lookup_miss h []

theorem takeWhile_blanks {lines blanks : List JavaString} (h : ∀ l ∈ blanks, l = []) :
    (lines ++ blanks).takeWhile continues = lines.takeWhile continues := by
  induction lines with
  | nil =>
    cases blanks with
    | nil => rfl
    | cons l blanks =>
      rw [h l (by simp)]
      rfl
  | cons line lines ih =>
    by_cases hc : continues line = true
    · rw [List.cons_append, List.takeWhile_cons_of_pos hc, List.takeWhile_cons_of_pos hc, ih]
    · rw [List.cons_append, List.takeWhile_cons_of_neg hc, List.takeWhile_cons_of_neg hc]

/-- Blank lines at the end have no values. -/
theorem lookup_blanks {name : JavaString} (hname : name ≠ []) {lines blanks : List JavaString}
    (h : ∀ l ∈ blanks, l = []) : lookup name (lines ++ blanks) = lookup name lines := by
  have hno : ∀ l ∈ blanks, ¬name <+: l := by
    intro l hl hp
    rw [h l hl, List.prefix_nil] at hp
    exact hname hp
  rcases split_at_first name lines with hnone | ⟨pre, line, post, rfl, hline, hpre⟩
  · rw [lookup_miss hnone, lookup_none hno, lookup_none hnone]
  · rw [List.append_assoc, lookup_miss hpre, lookup_miss hpre, List.cons_append, lookup_hit hline,
      lookup_hit hline, takeWhile_blanks h]

theorem lookup_valueLines (s : RegistrySection) (last : Bool) (name : Option JavaString) :
    lookup (valueText name) s.body = lookup (valueText name) (valueLines s last) := by
  have hblank : ∀ l ∈ blankLines s last, l = [] := fun l hl => blankLines_blank hl
  conv_lhs => rw [← valueLines_append s last]
  exact lookup_blanks (valueText_ne_nil name) hblank

/-- The lines behind the line of a section. -/
def linesAfter (s : RegistrySection) (after : List RegistrySection) : List JavaString :=
  blankLines s after.isEmpty ++ sectionLines after

theorem lines_of_split {before after : List RegistrySection} {s : RegistrySection}
    (hs : f.sections = before ++ s :: after) :
    f.lines = f.linesBefore before ++ s.head :: (valueLines s after.isEmpty ++ linesAfter s after) := by
  rw [linesAfter, ← List.append_assoc (valueLines s _), valueLines_append, lines, hs]
  simp [sectionLines, linesBefore, RegistrySection.lines]

section Values

variable {before after : List RegistrySection} {s : RegistrySection} {name : Option JavaString}

/-- The search for a value sees the lines of its section. -/
theorem WellFormed.getValueLocation_eq (hf : f.WellFormed) (hs : f.sections = before ++ s :: after) :
    getValueLocation f.text (f.place before s after.isEmpty) name =
      (valueLoop (valueText name) (0 + (unlines (valueLines s after.isEmpty)).length - 1) 0
        (valueLines s after.isEmpty ++ linesAfter s after)).map fun l =>
          ⟨(unlines (f.linesBefore before ++ [s.head])).length + l.offset,
            (unlines (f.linesBefore before ++ [s.head])).length + l.start,
            (unlines (f.linesBefore before ++ [s.head])).length + l.stop⟩ := by
  have hsplit : f.lines = (f.linesBefore before ++ [s.head]) ++
      (valueLines s after.isEmpty ++ linesAfter s after) := by simp [lines_of_split hs]
  have hdrop := hf.linesOf_drop hsplit
  have hlength : (f.place before s after.isEmpty).stop - (f.place before s after.isEmpty).start =
      0 + (unlines (valueLines s after.isEmpty)).length - 1 := by
    simp only [place, unlines_append, unlines_cons, unlines_nil, List.length_append,
      List.length_cons, List.length_nil]
    omega
  unfold getValueLocation
  split_ifs with heq
  · -- One blank line: there is no value.
    have hone : (unlines (valueLines s after.isEmpty)).length = 1 := by
      simp only [place, unlines_append, unlines_cons, unlines_nil, List.length_append,
        List.length_cons, List.length_nil] at heq
      omega
    have hmiss : ∀ l ∈ valueLines s after.isEmpty, ¬valueText name <+: l := by
      intro l hl hp
      have hlen : l.length + 1 ≤ (unlines (valueLines s after.isEmpty)).length := by
        obtain ⟨x, y, hxy⟩ := List.append_of_mem hl
        rw [hxy]
        simp only [unlines_append, unlines_cons, List.length_append, List.length_cons]
        omega
      have hpos := List.length_pos_of_ne_nil (valueText_ne_nil name)
      have hle := hp.length_le
      omega
    rw [valueLoop_miss hmiss]
    rfl
  · rw [hlength]
    simp only [place, hdrop]
    rfl

theorem WellFormed.value_missing (hf : f.WellFormed) (hs : f.sections = before ++ s :: after)
    (h : ∀ l ∈ valueLines s after.isEmpty, ¬valueText name <+: l) :
    getValueLocation f.text (f.place before s after.isEmpty) name = none := by
  rw [hf.getValueLocation_eq hs, valueLoop_miss h]
  rfl

/-- The lines up to the value. -/
def linesTo (f : RegistryFile) (before : List RegistrySection) (s : RegistrySection)
    (pre : List JavaString) : List JavaString :=
  f.linesBefore before ++ s.head :: pre

theorem WellFormed.value_found (hf : f.WellFormed) (hs : f.sections = before ++ s :: after)
    {pre post : List JavaString} {line : JavaString}
    (hv : valueLines s after.isEmpty = pre ++ line :: post)
    (hpre : ∀ l ∈ pre, ¬valueText name <+: l) (hline : valueText name <+: line) :
    getValueLocation f.text (f.place before s after.isEmpty) name =
      some ⟨((unlines (f.linesTo before s pre)).length : Int) - 1,
        (unlines (f.linesTo before s pre)).length + (valueText name).length,
        (unlines (f.linesTo before s pre)).length + line.length +
          (unlines (post.takeWhile continues)).length⟩ := by
  rw [hf.getValueLocation_eq hs, hv, valueLoop_hit (valueText_ne_nil name) hpre hline]
  simp only [linesTo, Option.map_some, unlines_append, unlines_cons, unlines_nil,
    List.length_append, List.length_cons, List.length_nil, Option.some.injEq, Location.mk.injEq]
  refine ⟨by push_cast; ring, ?_, ?_⟩ <;> omega

end Values

theorem lines_of_value {before after : List RegistrySection} {s : RegistrySection}
    (hs : f.sections = before ++ s :: after) {pre post : List JavaString} {line : JavaString}
    (hv : valueLines s after.isEmpty = pre ++ line :: post) :
    f.lines = f.linesTo before s pre ++ line :: (post ++ linesAfter s after) := by
  rw [lines_of_split hs, hv, linesTo]
  simp

/-- The lines that continue a value, and the ones that come next. -/
theorem text_of_value {before after : List RegistrySection} {s : RegistrySection}
    (hs : f.sections = before ++ s :: after) {pre post : List JavaString} {name rest : JavaString}
    (hv : valueLines s after.isEmpty = pre ++ (name ++ rest) :: post) :
    f.text = unlines (f.linesTo before s pre) ++ name ++ (rest ++ 0x0A ::
      (unlines (post.takeWhile continues) ++
        unlines (post.dropWhile continues ++ linesAfter s after))) := by
  rw [text, lines_of_value hs hv, unlines_append, unlines_cons, ← unlines_append,
    ← List.append_assoc (post.takeWhile continues), List.takeWhile_append_dropWhile]
  simp

/-- A value is read with the lines that continue it. -/
theorem WellFormed.getRawValue_text (hf : f.WellFormed) (e : WineRegistryEditor)
    (he : e.cloneFile = f.text) (key : JavaString) (name : Option JavaString) :
    (e.getRawValue key name).1 = (f.rawValue key name).map unescape := by
  simp only [getRawValue, he]
  cases hloc : (getKeyLocation f.text 0 key false).1 with
  | none =>
    rw [rawValue, valueIn, findSection_none.mpr (hf.key_missing hloc)]
    rfl
  | some location =>
    obtain ⟨before, s, after, hs, hpath, hbefore, rfl⟩ := hf.key_found hloc
    rw [rawValue, valueIn, hs, findSection_hit hbefore hpath]
    simp only [Option.bind_some, Option.bind_eq_bind]
    rw [lookup_valueLines s after.isEmpty]
    rcases split_at_first (valueText name) (valueLines s after.isEmpty) with
      hnone | ⟨pre, line, post, hv, hline, hpre⟩
    · rw [hf.value_missing hs hnone, lookup_none hnone]
      rfl
    · rw [hf.value_found hs hv hpre hline, hv, lookup_miss hpre, lookup_hit hline]
      obtain ⟨rest, rfl⟩ := hline
      have hlen : (rest ++ 0x0A :: unlines (post.takeWhile continues)).dropLast.length =
          rest.length + (unlines (post.takeWhile continues)).length := by
        simp
      have hbuffer : (f.text.drop ((unlines (f.linesTo before s pre)).length +
          (valueText name).length)).take (rest.length + (unlines (post.takeWhile continues)).length)
          = (rest ++ 0x0A :: unlines (post.takeWhile continues)).dropLast := by
        rw [text_of_value hs hv, List.drop_left' (by simp), ← List.cons_append, ← List.append_assoc,
          List.take_append_of_le_length (by simp), List.dropLast_eq_take]
        simp
      have hcount : (unlines (f.linesTo before s pre)).length + (valueText name ++ rest).length +
          (unlines (post.takeWhile continues)).length -
          ((unlines (f.linesTo before s pre)).length + (valueText name).length) =
          rest.length + (unlines (post.takeWhile continues)).length := by
        rw [List.length_append]
        omega
      simp only [Option.bind_some, readValue, hcount, hbuffer, hlen, if_true, List.drop_left,
        unlines_cons, Option.map_some]

end RegistryFile

end XoDos
