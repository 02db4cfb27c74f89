import XoDos.RegistryFile

/-!
# Removing a region from a registry file

A region starts at the end of a line and goes up to another one, and a blank line before it may go
with it.  What is left has the sections that it had, up to blank lines at their ends.
-/

namespace XoDos

namespace WineRegistryEditor

variable {e : WineRegistryEditor} {location : Location}

/-! ## The text around a region -/

/-- The length of the last round of a copy. -/
theorem copyLoop_length (fuel count : Nat) (c : Copy) (hfuel : count ≤ fuel) :
    (copyLoop fuel count c).length =
      if count = 0 then c.length else (count - 1) % bufferSize + 1 := by
  induction fuel generalizing count c with
  | zero =>
    have hzero : count = 0 := by omega
    rw [if_pos hzero]
    rfl
  | succ fuel ih =>
    rw [copyLoop]
    split_ifs with h
    · rfl
    · have hb : 0 < bufferSize := by decide
      rw [ih _ _ (by omega)]
      by_cases hlast : count ≤ bufferSize
      · rw [min_eq_right hlast, if_pos (by omega), Nat.mod_eq_of_lt (by omega)]
        simp only [Copy.round]
        omega
      · rw [min_eq_left (by omega), if_neg (by omega)]
        have hmod := Nat.mod_eq_sub_mod (a := count - 1) (b := bufferSize) (by omega)
        have hcomm : count - bufferSize - 1 = count - 1 - bufferSize := by omega
        rw [hmod, hcomm]

/-- The last unit before a region is the end of a line that goes with it.  A unit that is a round of
the copy by itself does not. -/
def TakesUnit (text : JavaString) : Prop :=
  text.getLast? = some 0x0A ∧ (text.length - 1) % bufferSize ≠ 0

instance (text : JavaString) : Decidable (TakesUnit text) :=
  inferInstanceAs (Decidable (_ ∧ _))

theorem TakesUnit.ne_nil {text : JavaString} (h : TakesUnit text) : text ≠ [] := by
  intro hnil
  have hlast := h.1
  rw [hnil] at hlast
  cases hlast

theorem removeRegion_eq {before behind : JavaString} (he : e.cloneFile = before ++ behind)
    (hoffset : location.offset.toNat = before.length) :
    (e.removeRegion location).cloneFile = rewritten (before ++
      behind.drop (location.stop - location.offset + if TakesUnit before then 1 else 0).toNat) := by
  obtain ⟨hw, hr⟩ := @copy_exact e.cloneFile before.length (by rw [he]; simp)
  have htake : e.cloneFile.take before.length = before := by rw [he, List.take_left]
  have hdrop : e.cloneFile.drop before.length = behind := by rw [he, List.drop_left]
  have hlength := copyLoop_length before.length before.length
    ⟨[], List.replicate bufferSize 0, e.cloneFile, 0⟩ le_rfl
  have hskip : (decide (1 < (copy e.cloneFile before.length).length) &&
      (copy e.cloneFile before.length).buffer[(copy e.cloneFile before.length).length - 1]? ==
        some 0x0A) = decide (TakesUnit before) := by
    rcases Nat.eq_zero_or_pos before.length with hzero | hpos
    · rw [hzero] at hlength ⊢
      have hnil := List.length_eq_zero_iff.mp hzero
      subst hnil
      simp [copy, copyLoop, TakesUnit]
    · have hlast := @copy_last e.cloneFile before.length hpos (by rw [he]; simp)
      rw [htake] at hlast
      rw [hlast]
      rw [if_neg (by omega)] at hlength
      have hlong : 1 < (copy e.cloneFile before.length).length ↔
          (before.length - 1) % bufferSize ≠ 0 := by
        rw [copy, hlength]
        omega
      rw [Bool.eq_iff_iff, Bool.and_eq_true, decide_eq_true_eq, decide_eq_true_eq, beq_iff_eq, hlong]
      exact and_comm
  unfold removeRegion
  simp only [hoffset, hw, hr, htake, hdrop, hskip, decide_eq_true_eq]

/-- What is left before a region that starts at the end of a line. -/
def cutText (text : JavaString) : JavaString :=
  if TakesUnit text.dropLast then text.dropLast else text

@[simp] theorem cutText_nil : cutText [] = [] := rfl

/-- The end of a line, from the back. -/
theorem dropLast_append_newline {text : JavaString} (h : text.getLast? = some 0x0A) :
    text.dropLast ++ [0x0A] = text :=
  List.dropLast_append_getLast? 0x0A h

/-- A section goes, with the end of the last line before it, but for its own end of line. -/
theorem removeRegion_section {before region behind : JavaString}
    (he : e.cloneFile = before ++ (region ++ behind))
    (hbefore : before = [] ∨ before.getLast? = some 0x0A) (hregion : region.getLast? = some 0x0A)
    (hoffset : location.offset = (before.length : Int) - 1)
    (hstop : location.stop = before.length + region.length - 1) :
    (e.removeRegion location).cloneFile = rewritten (cutText before ++ behind) := by
  have hpos : 0 < region.length := by
    apply List.length_pos_of_ne_nil
    intro hnil
    rw [hnil] at hregion
    cases hregion
  -- The offset is the newline in front of the section, or -1 at the start of the file.
  rcases hbefore with hnil | hlast
  · subst hnil
    rw [@removeRegion_eq _ _ [] _ he (by rw [hoffset]; rfl)]
    have hcount : ((location.stop : Int) - location.offset + if TakesUnit [] then 1 else 0).toNat =
        region.length := by
      have htakes : ¬TakesUnit [] := fun h => h.ne_nil rfl
      rw [if_neg htakes, hoffset, hstop, List.length_nil]
      omega
    rw [hcount, List.drop_left]
    rfl
  · have hsplit := dropLast_append_newline hlast
    have hlen : before.length = before.dropLast.length + 1 := by
      conv_lhs => rw [← hsplit]
      simp
    have hfile : e.cloneFile = before.dropLast ++ (0x0A :: (region ++ behind)) := by
      rw [he]
      conv_lhs => rw [← hsplit]
      simp
    rw [removeRegion_eq hfile (by rw [hoffset]; omega), cutText]
    split_ifs with htakes
    · have hcount : ((location.stop : Int) - location.offset + 1).toNat = region.length + 1 := by
        rw [hoffset, hstop]
        omega
      rw [hcount, List.drop_succ_cons, List.drop_left]
    · have hcount : ((location.stop : Int) - location.offset + 0).toNat = region.length := by
        rw [hoffset, hstop]
        omega
      -- Where that newline stays, the one at the end of the region goes instead, and the text is the same.
      have hends := dropLast_append_newline hregion
      have hshift : 0x0A :: (region ++ behind) =
          (0x0A :: region.dropLast) ++ (0x0A :: behind) := by
        conv_lhs => rw [← hends]
        simp
      have hcut : region.length = (0x0A :: region.dropLast).length := by
        simp only [List.length_cons, List.length_dropLast]
        omega
      rw [hcount, hshift, hcut, List.drop_left]
      conv_rhs => rw [← hsplit]
      simp

/-- A section that is found one unit behind its start goes up to its end. -/
theorem removeRegion_inside {before region behind : JavaString}
    (he : e.cloneFile = before ++ (region ++ behind)) (hbefore : TakesUnit before)
    (hregion : 0 < region.length) (hoffset : location.offset = before.length)
    (hstop : location.stop = before.length + region.length - 1) :
    (e.removeRegion location).cloneFile = rewritten (before ++ behind) := by
  rw [removeRegion_eq he (by rw [hoffset]; rfl), if_pos hbefore]
  have hcount : ((location.stop : Int) - location.offset + 1).toNat = region.length := by
    rw [hoffset, hstop]
    omega
  rw [hcount, List.drop_left]

end WineRegistryEditor

open WineRegistryEditor

/-! ## Files that differ in blank lines -/

/-- A section without the blank lines at its end. -/
def RegistrySection.stripped (s : RegistrySection) : RegistrySection :=
  { s with body := trimmed s.body }

@[simp] theorem RegistrySection.stripped_path (s : RegistrySection) : s.stripped.path = s.path := rfl

theorem trimmed_append_blanks (lines : List JavaString) (count : Nat) :
    trimmed (lines ++ List.replicate count []) = trimmed lines := by
  induction count with
  | zero => simp
  | succ count ih =>
    rw [List.replicate_succ', ← List.append_assoc, trimmed, List.rdropWhile_concat_pos _ _ _ (by simp)]
    exact ih

/-- All lines but the blank ones at the end are kept. -/
theorem mem_of_trimmed {lines lines' : List JavaString} (h : trimmed lines = trimmed lines')
    {l : JavaString} (hl : l ∈ lines) : l ∈ lines' ∨ l = [] := by
  rw [← trimmed_append_blanksOf lines, List.mem_append] at hl
  rcases hl with hl | hl
  · rw [h] at hl
    have hmem : l ∈ trimmed lines' ++ blanksOf lines' := List.mem_append_left _ hl
    rw [trimmed_append_blanksOf] at hmem
    exact .inl hmem
  · exact .inr (blanksOf_blank hl)

namespace RegistryFile

variable {f g h : RegistryFile}

/-- The same sections, up to blank lines at the ends. -/
structure Alike (g f : RegistryFile) : Prop where
  preamble : trimmed g.preamble = trimmed f.preamble
  sections : g.sections.map RegistrySection.stripped = f.sections.map RegistrySection.stripped

theorem Alike.refl (f : RegistryFile) : Alike f f := ⟨rfl, rfl⟩

theorem Alike.trans (hg : Alike h g) (hf : Alike g f) : Alike h f :=
  ⟨hg.preamble.trans hf.preamble, hg.sections.trans hf.sections⟩

/-- More sections behind. -/
theorem Alike.append (h : Alike g f) (rest : List RegistrySection) :
    Alike ⟨g.preamble, g.sections ++ rest⟩ ⟨f.preamble, f.sections ++ rest⟩ := by
  refine ⟨h.preamble, ?_⟩
  rw [List.map_append, List.map_append, h.sections]

/-- The section that stands in its place. -/
theorem Alike.section (h : Alike g f) {s : RegistrySection} (hs : s ∈ g.sections) :
    ∃ t ∈ f.sections, s.stripped = t.stripped := by
  have hmem := List.mem_map_of_mem (f := RegistrySection.stripped) hs
  rw [h.sections, List.mem_map] at hmem
  obtain ⟨t, ht, heq⟩ := hmem
  exact ⟨t, ht, heq.symm⟩

theorem stripped_eq {s t : RegistrySection} (h : s.stripped = t.stripped) :
    s.path = t.path ∧ s.stamp = t.stamp ∧ trimmed s.body = trimmed t.body := by
  simpa [RegistrySection.stripped] using h

theorem mem_lines {l : JavaString} : l ∈ f.lines ↔
    l ∈ f.preamble ∨ ∃ s ∈ f.sections, l = s.head ∨ l ∈ s.body := by
  simp [lines, sectionLines, RegistrySection.lines]

/-- Such a file is well formed as well. -/
theorem WellFormed.alike (hf : f.WellFormed) (h : Alike g f) : g.WellFormed := by
  have hblank : ¬[0x5B] <+: ([] : JavaString) := by simp
  refine ⟨?_, ?_, ?_, ?_⟩
  · intro l hl
    have hnil : OneLine [] ∧ Paired [] := ⟨by decide, rfl⟩
    rcases mem_lines.mp hl with hl | ⟨s, hs, hl⟩
    · rcases mem_of_trimmed h.preamble hl with hl | rfl
      · exact hf.line l (mem_lines.mpr (.inl hl))
      · exact hnil
    · obtain ⟨t, ht, heq⟩ := h.section hs
      obtain ⟨hpath, hstamp, hbody⟩ := stripped_eq heq
      rcases hl with hl | hl
      · have hhead : s.head = t.head := by rw [RegistrySection.head, hpath, hstamp]; rfl
        exact hf.line l (mem_lines.mpr (.inr ⟨t, ht, .inl (hl.trans hhead)⟩))
      · rcases mem_of_trimmed hbody hl with hl | rfl
        · exact hf.line l (mem_lines.mpr (.inr ⟨t, ht, .inr hl⟩))
        · exact hnil
  · intro l hl
    rcases mem_of_trimmed h.preamble hl with hl | rfl
    · exact hf.preamble l hl
    · exact hblank
  · intro s hs l hl
    obtain ⟨t, ht, heq⟩ := h.section hs
    rcases mem_of_trimmed (stripped_eq heq).2.2 hl with hl | rfl
    · exact hf.body t ht l hl
    · exact hblank
  · intro s hs
    obtain ⟨t, ht, heq⟩ := h.section hs
    obtain ⟨hpath, hstamp, -⟩ := stripped_eq heq
    rw [hpath, hstamp]
    exact hf.path t ht

/-- Some of the sections. -/
theorem WellFormed.sublist (hf : f.WellFormed) {kept : List RegistrySection}
    (h : kept.Sublist f.sections) : WellFormed ⟨f.preamble, kept⟩ := by
  refine ⟨?_, hf.preamble, fun s hs => hf.body s (h.subset hs), fun s hs => hf.path s (h.subset hs)⟩
  intro l hl
  rcases mem_lines.mp hl with hl | ⟨s, hs, hl⟩
  · exact hf.line l (mem_lines.mpr (.inl hl))
  · exact hf.line l (mem_lines.mpr (.inr ⟨s, h.subset hs, hl⟩))

/-- Blank lines are added at the end. -/
theorem exists_append_blanks (f : RegistryFile) (count : Nat) :
    ∃ g, g.lines = f.lines ++ List.replicate count [] ∧ Alike g f := by
  rcases List.eq_nil_or_concat f.sections with hnil | ⟨sections, s, hs⟩
  · refine ⟨⟨f.preamble ++ List.replicate count [], []⟩, ?_, trimmed_append_blanks _ _, ?_⟩
    · simp [lines, hnil, sectionLines]
    · rw [hnil]
  · rw [List.concat_eq_append] at hs
    refine ⟨⟨f.preamble, sections ++ [{ s with body := s.body ++ List.replicate count [] }]⟩, ?_, rfl,
      ?_⟩
    · simp [lines, hs, sectionLines, RegistrySection.lines, RegistrySection.head]
    · simp [hs, RegistrySection.stripped, trimmed_append_blanks]

/-- A blank line at the end is taken away. -/
theorem exists_drop_blank (f : RegistryFile) {rest : List JavaString} (h : f.lines = rest ++ [[]]) :
    ∃ g, g.lines = rest ∧ Alike g f := by
  have htrimmed : ∀ lines : List JavaString, trimmed lines = trimmed (lines ++ [[]]) := fun lines =>
    (trimmed_append_blanks lines 1).symm
  rcases List.eq_nil_or_concat f.sections with hnil | ⟨sections, s, hs⟩
  · have hpreamble : f.preamble = rest ++ [[]] := by simpa [lines, hnil, sectionLines] using h
    refine ⟨⟨rest, []⟩, by simp [lines, sectionLines], ?_, ?_⟩
    · rw [hpreamble]
      exact htrimmed rest
    · rw [hnil]
  · rw [List.concat_eq_append] at hs
    have hlines : (f.preamble ++ sectionLines sections ++ [s.head]) ++ s.body = rest ++ [[]] := by
      rw [← h, lines, hs]
      simp [sectionLines, RegistrySection.lines]
    rcases List.eq_nil_or_concat s.body with hbody | ⟨body, l, hbody⟩
    · -- The line of a section is not blank.
      rw [hbody, List.append_nil] at hlines
      have hhead := (List.append_inj' hlines rfl).2
      simp [RegistrySection.head] at hhead
    · rw [List.concat_eq_append] at hbody
      rw [hbody, ← List.append_assoc] at hlines
      obtain ⟨hrest, hl⟩ := List.append_inj' hlines rfl
      rw [List.singleton_inj] at hl
      subst hl
      refine ⟨⟨f.preamble, sections ++ [{ s with body }]⟩, ?_, rfl, ?_⟩
      · rw [← hrest]
        simp [lines, sectionLines, RegistrySection.lines, RegistrySection.head]
      · simp [hs, hbody, RegistrySection.stripped, ← htrimmed]

theorem unlines_blanks (count : Nat) :
    unlines (List.replicate count []) = List.replicate count 0x0A := by
  induction count with
  | zero => rfl
  | succ count ih => rw [List.replicate_succ, unlines_cons, ih, List.nil_append, List.replicate_succ]

theorem text_append_blanks (f : RegistryFile) (count : Nat) :
    ∃ g : RegistryFile, g.text = f.text ++ List.replicate count 0x0A ∧ Alike g f := by
  obtain ⟨g, hg, halike⟩ := exists_append_blanks f count
  refine ⟨g, ?_, halike⟩
  rw [text, hg, unlines_append, unlines_blanks]
  rfl

/-- Behind whole lines there is the end of one. -/
theorem getLast?_unlines {lines : List JavaString} (h : lines ≠ []) :
    (unlines lines).getLast? = some 0x0A := by
  rw [← unlines_dropLast h]
  simp

/-- The lines before a region are whole lines that remain. -/
theorem WellFormed.text_cut (hf : f.WellFormed) (count : Nat) :
    ∃ g : RegistryFile, g.text = cutText f.text ++ List.replicate count 0x0A ∧ Alike g f := by
  unfold cutText
  split_ifs with htakes
  · rcases List.eq_nil_or_concat f.lines with hnil | ⟨rest, l, hlines⟩
    · rw [text, hnil] at htakes
      exact absurd rfl htakes.ne_nil
    · rw [List.concat_eq_append] at hlines
      have htext : f.text.dropLast = unlines rest ++ l := by
        rw [text, hlines, unlines_append, unlines_cons, unlines_nil, ← List.append_assoc,
          List.dropLast_concat]
      have hl : l = [] := by
        by_contra hne
        have hlast := htakes.1
        rw [htext, List.getLast?_append_of_ne_nil _ hne] at hlast
        exact ((hf.line l (by simp [hlines])).1 _ (List.mem_of_getLast? hlast)).1 rfl
      subst hl
      obtain ⟨g, hg, halike⟩ := exists_drop_blank f hlines
      obtain ⟨g', hg', halike'⟩ := text_append_blanks g count
      refine ⟨g', ?_, halike'.trans halike⟩
      rw [hg', htext, text, hg, List.append_nil]
  · exact text_append_blanks f count

/-! ## One reading of a file -/

theorem head_injective {s t : RegistrySection} (hs : 0x5D ∉ s.stamp) (ht : 0x5D ∉ t.stamp)
    (h : s.head = t.head) : s.path = t.path ∧ s.stamp = t.stamp := by
  simp only [RegistrySection.head, List.cons_append, List.cons_eq_cons, true_and] at h
  rcases List.append_eq_append_iff.mp h with ⟨as, has, hrest⟩ | ⟨as, has, hrest⟩
  · cases as with
    | nil => exact ⟨by simpa using has.symm, by simpa using hrest⟩
    | cons a as =>
      rw [List.cons_append, List.cons_eq_cons] at hrest
      exact absurd (by rw [hrest.2]; simp) hs
  · cases as with
    | nil => exact ⟨by simpa using has, by simpa using hrest.symm⟩
    | cons a as =>
      rw [List.cons_append, List.cons_eq_cons] at hrest
      exact absurd (by rw [hrest.2]; simp) ht

/-- The lines up to the next section. -/
theorem takeWhile_body {body : List JavaString} (hbody : ∀ l ∈ body, ¬[0x5B] <+: l)
    (sections : List RegistrySection) :
    (body ++ sectionLines sections).takeWhile (fun l => !decide ([0x5B] <+: l)) = body := by
  have hstop : (sectionLines sections).takeWhile (fun l => !decide ([0x5B] <+: l)) = [] := by
    cases sections with
    | nil => rfl
    | cons s sections =>
      rw [sectionLines, List.flatMap_cons, RegistrySection.lines, List.cons_append,
        List.takeWhile_cons_of_neg (by simp [s.bracket_head])]
  rw [List.takeWhile_append_of_pos fun l hl => by simp [hbody l hl], hstop, List.append_nil]

theorem sectionLines_injective {sections sections' : List RegistrySection}
    (hbody : ∀ s ∈ sections, ∀ l ∈ s.body, ¬[0x5B] <+: l)
    (hbody' : ∀ s ∈ sections', ∀ l ∈ s.body, ¬[0x5B] <+: l)
    (hstamp : ∀ s ∈ sections, 0x5D ∉ s.stamp) (hstamp' : ∀ s ∈ sections', 0x5D ∉ s.stamp)
    (h : sectionLines sections = sectionLines sections') : sections = sections' := by
  induction sections generalizing sections' with
  | nil =>
    cases sections' with
    | nil => rfl
    | cons t rest => simp [sectionLines, RegistrySection.lines] at h
  | cons s sections ih =>
    cases sections' with
    | nil => simp [sectionLines, RegistrySection.lines] at h
    | cons t rest =>
      have hlines : s.head :: (s.body ++ sectionLines sections) =
          t.head :: (t.body ++ sectionLines rest) := by
        simpa [sectionLines, RegistrySection.lines] using h
      obtain ⟨hhead, htail⟩ := List.cons_eq_cons.mp hlines
      have hbodies := congrArg (List.takeWhile fun l => !decide ([0x5B] <+: l)) htail
      rw [takeWhile_body (hbody s (by simp)), takeWhile_body (hbody' t (by simp))] at hbodies
      rw [hbodies] at htail
      obtain ⟨hpath, hst⟩ := head_injective (hstamp s (by simp)) (hstamp' t (by simp)) hhead
      have hs : s = t := by
        cases s
        cases t
        simp only [RegistrySection.mk.injEq]
        exact ⟨hpath, hst, hbodies⟩
      rw [hs, ih (fun u hu => hbody u (by simp [hu])) (fun u hu => hbody' u (by simp [hu]))
        (fun u hu => hstamp u (by simp [hu])) (fun u hu => hstamp' u (by simp [hu]))
        (List.append_cancel_left htail)]

/-- A text is that of one well-formed file only. -/
theorem WellFormed.text_injective (hf : f.WellFormed) (hg : g.WellFormed) (h : f.text = g.text) :
    f = g := by
  have hlines : f.lines = g.lines := by rw [← hf.linesOf_text, ← hg.linesOf_text, h]
  unfold lines at hlines
  have hpreamble := congrArg (List.takeWhile fun l => !decide ([0x5B] <+: l)) hlines
  rw [takeWhile_body hf.preamble, takeWhile_body hg.preamble] at hpreamble
  rw [hpreamble] at hlines
  have hsections := sectionLines_injective hf.body hg.body (fun s hs => (hf.path s hs).2)
    (fun s hs => (hg.path s hs).2) (List.append_cancel_left hlines)
  cases f
  cases g
  simp only [RegistryFile.mk.injEq]
  exact ⟨hpreamble, hsections⟩

/-! ## Values in such files -/

theorem valueIn_trimmed (s : RegistrySection) (rest : List RegistrySection) (key : JavaString)
    (name : Option JavaString) : valueIn (s :: rest) key name =
      if s.path = escape key then lookup (valueText name) (trimmed s.body)
      else valueIn rest key name := by
  unfold valueIn
  rw [findSection]
  split_ifs with hpath
  · exact lookup_valueLines s false name
  · rfl

theorem valueIn_congr {sections sections' : List RegistrySection}
    (h : sections.map RegistrySection.stripped = sections'.map RegistrySection.stripped)
    (key : JavaString) (name : Option JavaString) :
    valueIn sections key name = valueIn sections' key name := by
  induction sections generalizing sections' with
  | nil =>
    rw [List.map_nil, eq_comm, List.map_eq_nil_iff] at h
    rw [h]
  | cons s sections ih =>
    cases sections' with
    | nil => simp at h
    | cons t rest =>
      rw [List.map_cons, List.map_cons, List.cons_eq_cons] at h
      obtain ⟨hpath, -, hbody⟩ := stripped_eq h.1
      rw [valueIn_trimmed, valueIn_trimmed, hpath, hbody, ih h.2]

/-- The values of a key do not depend on the other sections. -/
theorem valueIn_filter {sections : List RegistrySection} {key : JavaString}
    {p : RegistrySection → Bool} (h : ∀ s ∈ sections, s.path = escape key → p s = true)
    (name : Option JavaString) : valueIn (sections.filter p) key name = valueIn sections key name := by
  induction sections with
  | nil => rfl
  | cons s sections ih =>
    have hrest := ih fun t ht => h t (by simp [ht])
    by_cases hpath : s.path = escape key
    · rw [List.filter_cons_of_pos (h s (by simp) hpath), valueIn_trimmed, valueIn_trimmed, if_pos hpath,
        if_pos hpath]
    · rw [valueIn_trimmed, if_neg hpath, ← hrest, List.filter_cons]
      split_ifs
      · rw [valueIn_trimmed, if_neg hpath]
      · rfl

end RegistryFile

end XoDos
