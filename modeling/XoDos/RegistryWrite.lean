import XoDos.RegistryFile

/-!
# Writing values to registry files

Setting a value changes one section of the file or adds one.
-/

namespace XoDos

open WineRegistryEditor

namespace RegistryFile

variable {f : RegistryFile} {e : WineRegistryEditor} {before after : List RegistrySection}
  {s : RegistrySection} {key value : JavaString} {name : Option JavaString}

/-! ## Lines -/

/-- A line is added behind whole lines, before the last end of line. -/
theorem copy_insert {lines : List JavaString} (h : lines ≠ []) (rest : List JavaString)
    (line : JavaString) :
    (copy (unlines (lines ++ rest)) ((unlines lines).length - 1)).written ++ 0x0A :: line ++
        (copy (unlines (lines ++ rest)) ((unlines lines).length - 1)).rest =
      unlines (lines ++ line :: rest) := by
  have hlast := unlines_dropLast h
  have hlen : (unlines lines).length - 1 = (unlines lines).dropLast.length := by simp
  have htext : unlines (lines ++ rest) = (unlines lines).dropLast ++ 0x0A :: unlines rest := by
    rw [unlines_append, ← hlast]
    simp
  obtain ⟨hw, hr⟩ := @copy_exact (unlines (lines ++ rest)) ((unlines lines).length - 1) (by
    rw [unlines_append, List.length_append]
    omega)
  rw [hw, hr, hlen, htext, List.take_left, List.drop_left, unlines_append, unlines_cons]
  conv_rhs => rw [← hlast]
  simp

/-- Whole lines are copied. -/
theorem copy_lines (lines rest : List JavaString) :
    (copy (unlines (lines ++ rest)) (unlines lines).length).written = unlines lines ∧
      (copy (unlines (lines ++ rest)) (unlines lines).length).rest = unlines rest := by
  rw [unlines_append]
  obtain ⟨hw, hr⟩ := @copy_exact (unlines lines ++ unlines rest) (unlines lines).length (by simp)
  rw [hw, hr, List.take_left, List.drop_left]
  exact ⟨rfl, rfl⟩

theorem paired_valueText (h : ∀ n ∈ name, Paired n) : Paired (valueText name) := by
  cases name with
  | none => rfl
  | some n =>
    rw [valueText_some]
    exact paired_cons (by decide) ((paired_escape (h n rfl)).append rfl)

theorem oneLine_valueText (h : ∀ n ∈ name, OneLine n) : OneLine (valueText name) := by
  cases name with
  | none =>
    intro c hc
    simp only [valueText, nameText, List.singleton_append, List.mem_cons, List.not_mem_nil,
      or_false] at hc
    rcases hc with rfl | rfl
    · decide
    · decide
  | some n =>
    rw [valueText_some]
    intro c hc
    simp only [List.mem_cons, List.mem_append, List.not_mem_nil, or_false] at hc
    rcases hc with rfl | hc | rfl | rfl
    · decide
    · exact oneLine_escape (h n rfl) c hc
    · decide
    · decide

/-! ## A section that exists -/

/-- The file with another text in the section. -/
def withBody (f : RegistryFile) (before : List RegistrySection) (s : RegistrySection)
    (body : List JavaString) (after : List RegistrySection) : RegistryFile :=
  { f with sections := before ++ { s with body } :: after }

theorem lines_withBody (body : List JavaString) :
    (f.withBody before s body after).lines =
      f.linesBefore before ++ s.head :: (body ++ sectionLines after) := by
  simp [withBody, lines, linesBefore, sectionLines, RegistrySection.lines, RegistrySection.head]

/-- The value is there: its lines are replaced. -/
theorem WellFormed.writeValue_found (hf : f.WellFormed) (he : e.cloneFile = f.text)
    (hs : f.sections = before ++ s :: after) {pre post : List JavaString} {line : JavaString}
    (hv : valueLines s after.isEmpty = pre ++ line :: post)
    (hpre : ∀ l ∈ pre, ¬valueText name <+: l) (hline : valueText name <+: line)
    (hname : Paired (valueText name)) (hvalue : Paired value) :
    (e.writeValue (f.place before s after.isEmpty) name value).cloneFile =
      (f.withBody before s (pre ++ (valueText name ++ value) ::
        (post.dropWhile continues ++ blankLines s after.isEmpty)) after).text := by
  have hloc := hf.value_found hs hv hpre hline
  obtain ⟨rest, rfl⟩ := hline
  have htext := text_of_value hs hv
  have hnew : (f.withBody before s (pre ++ (valueText name ++ value) ::
      (post.dropWhile continues ++ blankLines s after.isEmpty)) after).text =
      unlines (f.linesTo before s pre ++ (valueText name ++ value) ::
        (post.dropWhile continues ++ linesAfter s after)) := by
    rw [text, lines_withBody, linesTo, linesAfter]
    simp
  have hpaired : Paired (unlines (f.linesTo before s pre ++ (valueText name ++ value) ::
      (post.dropWhile continues ++ linesAfter s after))) := by
    apply paired_unlines
    intro l hl
    have hold := lines_of_value hs hv
    simp only [List.mem_append, List.mem_cons] at hl
    rcases hl with hl | rfl | hl | hl
    · exact (hf.line l (by rw [hold]; exact List.mem_append_left _ hl)).2
    · exact hname.append hvalue
    · have hmem := List.dropWhile_subset _ hl
      exact (hf.line l (by simp [hold, hmem])).2
    · exact (hf.line l (by simp [hold, hl])).2
  -- Behind the old value its last line still has to end.
  have hold : rest ++ 0x0A :: (unlines (post.takeWhile continues) ++
      unlines (post.dropWhile continues ++ linesAfter s after)) =
      rest ++ (unlines ([] :: post.takeWhile continues)).dropLast ++ 0x0A ::
        unlines (post.dropWhile continues ++ linesAfter s after) := by
    have hlast := unlines_dropLast (List.cons_ne_nil [] (post.takeWhile continues))
    rw [← List.cons_append, ← List.nil_append (0x0A :: unlines (post.takeWhile continues)),
      ← unlines_cons, ← hlast]
    simp
  have hskip : (unlines (f.linesTo before s pre)).length + (valueText name ++ rest).length +
      (unlines (post.takeWhile continues)).length -
      ((unlines (f.linesTo before s pre)).length + (valueText name).length) =
      (rest ++ (unlines ([] :: post.takeWhile continues)).dropLast).length := by
    simp only [List.length_append, List.length_dropLast, unlines_cons, List.nil_append,
      List.length_cons]
    omega
  obtain ⟨hw, hr⟩ := @copy_exact f.text ((unlines (f.linesTo before s pre)).length +
    (valueText name).length) (by rw [htext]; simp only [List.length_append]; omega)
  have hwritten : f.text.take ((unlines (f.linesTo before s pre)).length +
      (valueText name).length) ++ value ++ (f.text.drop
        ((unlines (f.linesTo before s pre)).length + (valueText name).length)).drop
        (rest ++ (unlines ([] :: post.takeWhile continues)).dropLast).length =
      unlines (f.linesTo before s pre ++ (valueText name ++ value) ::
        (post.dropWhile continues ++ linesAfter s after)) := by
    rw [htext, hold, List.take_left' (by simp), List.drop_left' (by simp), List.drop_left]
    simp
  simp only [writeValue, he, hloc, hw, hr, hskip]
  rw [hwritten, hpaired, hnew]

/-- The value is not there: a line is added. -/
theorem WellFormed.writeValue_missing (hf : f.WellFormed) (he : e.cloneFile = f.text)
    (hs : f.sections = before ++ s :: after)
    (hnone : ∀ l ∈ valueLines s after.isEmpty, ¬valueText name <+: l)
    (hname : Paired (valueText name)) (hvalue : Paired value) :
    (e.writeValue (f.place before s after.isEmpty) name value).cloneFile =
      (f.withBody before s (valueLines s after.isEmpty ++ (valueText name ++ value) ::
        blankLines s after.isEmpty) after).text := by
  have hlines : f.lines = (f.linesBefore before ++ s.head :: valueLines s after.isEmpty) ++
      linesAfter s after := by simp [lines_of_split hs]
  have hnew : (f.withBody before s (valueLines s after.isEmpty ++ (valueText name ++ value) ::
      blankLines s after.isEmpty) after).text =
      unlines ((f.linesBefore before ++ s.head :: valueLines s after.isEmpty) ++
        (valueText name ++ value) :: linesAfter s after) := by
    rw [text, lines_withBody, linesAfter]
    simp
  have hpaired : Paired (unlines ((f.linesBefore before ++ s.head :: valueLines s after.isEmpty) ++
      (valueText name ++ value) :: linesAfter s after)) := by
    apply paired_unlines
    intro l hl
    rw [List.mem_append, List.mem_cons] at hl
    rcases hl with hl | rfl | hl
    · exact (hf.line l (by rw [hlines]; exact List.mem_append_left _ hl)).2
    · exact hname.append hvalue
    · exact (hf.line l (by rw [hlines]; exact List.mem_append_right _ hl)).2
  have hinsert := copy_insert (by simp : f.linesBefore before ++ s.head ::
    valueLines s after.isEmpty ≠ []) (linesAfter s after) (valueText name ++ value)
  rw [← hlines] at hinsert
  have hvt : nameText name ++ 0x3D :: value = valueText name ++ value := by simp [valueText]
  simp only [writeValue, he, hf.value_missing hs hnone, hvt]
  rw [hnew, ← hpaired, ← hinsert]
  rfl

/-! ## A new section -/

theorem WellFormed.getKeyLocation_boundary (hf : f.WellFormed) {skipped rest : List JavaString}
    (h : f.lines = skipped ++ rest) (key : JavaString) :
    (∀ location, (getKeyLocation f.text (unlines skipped).length key true).1 = some location →
      ∃ before s after, f.sections = before ++ s :: after ∧
        location = f.place before s after.isEmpty) ∧
    ∃ skipped' rest', f.lines = skipped' ++ rest' ∧
      (getKeyLocation f.text (unlines skipped).length key true).2 = (unlines skipped').length := by
  simp only [getKeyLocation, hf.linesOf_drop h]
  have hbracket : [0x5B] <+: keyText key true := by simp [keyText]
  have hnone : ∀ location, (keyLoop (keyText key true) none (unlines skipped).length
      (unlines skipped).length rest).1 = some location → ∃ before s after,
      f.sections = before ++ s :: after ∧ location = f.place before s after.isEmpty := by
    intro location hloc
    obtain ⟨before, s, after, -, hs, -, -, -, hl⟩ := hf.place_of_keyLoop h hbracket hloc
    exact ⟨before, s, after, hs, hl⟩
  cases hp : (if (unlines skipped).length = 0 then (parentKey key).map (0x5B :: escape ·)
      else none) with
  | none => exact ⟨hnone, skipped, rest, h, keyLoop_none_snd _ _⟩
  | some parent =>
    have hparent : parent <+: keyText key true := by
      split_ifs at hp
      obtain ⟨p, hp', rfl⟩ := Option.map_eq_some_iff.mp hp
      exact parentText_isPrefix hp' true
    rw [keyLoop_parent_fst hparent]
    refine ⟨hnone, ?_⟩
    rcases @keyLoop_parent_snd (keyText key true) parent (unlines skipped).length
      (unlines skipped).length rest with ⟨-, h'⟩ | ⟨pre, line, post, hsplit, -, -, h'⟩
    · exact ⟨skipped, rest, h, h'⟩
    · refine ⟨skipped ++ pre, line :: post, by rw [h, hsplit, List.append_assoc], ?_⟩
      rw [h', unlines_append, List.length_append]

/-- A parent that is found is a section of the file. -/
theorem WellFormed.parentLoop_place (hf : f.WellFormed) (stack : List JavaString)
    {skipped rest : List JavaString} (h : f.lines = skipped ++ rest) {location : Location}
    (hloc : (parentLoop f.text (unlines skipped).length stack).1 = some location) :
    ∃ before s after, f.sections = before ++ s :: after ∧
      location = f.place before s after.isEmpty := by
  induction stack generalizing skipped rest with
  | nil => simp [parentLoop] at hloc
  | cons part stack ih =>
    obtain ⟨hplace, skipped', rest', h', hpos⟩ :=
      hf.getKeyLocation_boundary h ([0x5C].intercalate (part :: stack).reverse)
    rw [parentLoop] at hloc
    cases hr : getKeyLocation f.text (unlines skipped).length
        ([0x5C].intercalate (part :: stack).reverse) true with
    | mk found position =>
      rw [hr] at hloc hplace hpos
      cases found with
      | some l =>
        simp only [Option.some.injEq] at hloc
        exact hplace location (by rw [hloc])
      | none =>
        simp only at hloc hpos
        rw [hpos] at hloc
        exact ih h' hloc

/-- A place between two sections: behind the lines of a section, or of a file without sections. -/
def Gap (f : RegistryFile) (lines rest : List JavaString) : Prop :=
  (f.sections = [] ∧ lines = f.preamble ∧ rest = []) ∨
    ∃ before s after, f.sections = before ++ s :: after ∧
      lines = f.linesBefore before ++ s.head :: valueLines s after.isEmpty ∧
      rest = linesAfter s after

theorem Gap.lines_eq {lines rest : List JavaString} (h : f.Gap lines rest) :
    f.lines = lines ++ rest := by
  rcases h with ⟨hs, rfl, rfl⟩ | ⟨before, s, after, hs, rfl, rfl⟩
  · simp [RegistryFile.lines, hs, sectionLines]
  · simp [lines_of_split hs]

/-- The end of the file is such a place. -/
theorem gap_end (f : RegistryFile) : f.Gap f.lines [] := by
  rcases List.eq_nil_or_concat f.sections with hs | ⟨before, s, hs⟩
  · exact .inl ⟨hs, by simp [lines, hs, sectionLines], rfl⟩
  · rw [List.concat_eq_append] at hs
    refine .inr ⟨before, s, [], hs, ?_, by simp [linesAfter, blankLines, sectionLines]⟩
    simpa [linesAfter, blankLines, sectionLines] using lines_of_split hs

/-! ### The lines of a new section -/

theorem mem_digits {base n c : Nat} (hb : 1 < base) (hb' : base ≤ 16) (h : c ∈ digits base n) :
    0x30 ≤ c ∧ c ≤ 0x39 ∨ 0x61 ≤ c ∧ c ≤ 0x66 := by
  unfold digits at h
  split_ifs at h with hn
  · rw [List.mem_singleton.mp h]
    decide
  · obtain ⟨d, hd, rfl⟩ := List.mem_map.mp h
    have hlt := Nat.digits_lt_base hb (List.mem_reverse.mp hd)
    split_ifs <;> omega

def stamp (now : Nat) : JavaString := 0x20 :: digits 10 (now / 1000)

def timeLine (now : Nat) : JavaString :=
  let currentTime := now + 86400 * (369 * 365 + 89) * 10000000
  ascii "#time=" ++ digits 16 (currentTime / 4294967296) ++
    (digits 16 (currentTime % 4294967296)).leftpad 8 0x30

theorem newSection_eq (now : Nat) (key : JavaString) (body : List JavaString) :
    newSection now key = [(⟨escape key, stamp now, body⟩ : RegistrySection).head, timeLine now] :=
  rfl

theorem mem_stamp {now c : Nat} (h : c ∈ stamp now) : c = 0x20 ∨ 0x30 ≤ c ∧ c ≤ 0x39 ∨
    0x61 ≤ c ∧ c ≤ 0x66 := by
  rcases List.mem_cons.mp h with h | h
  · exact .inl h
  · exact .inr (mem_digits (by decide) (by decide) h)

theorem mem_timeLine {now c : Nat} (h : c ∈ timeLine now) : 0x20 < c ∧ c < 0x80 := by
  simp only [timeLine, List.mem_append] at h
  rcases h with (h | h) | h
  · have hall : ∀ d ∈ ascii "#time=", 0x20 < d ∧ d < 0x80 := by decide
    exact hall c h
  · have := mem_digits (by decide) (by decide) h
    omega
  · rw [List.leftpad, List.mem_append] at h
    rcases h with h | h
    · rw [(List.mem_replicate.mp h).2]
      decide
    · have := mem_digits (by decide) (by decide) h
      omega

theorem timeLine_head (now : Nat) : ∃ rest, timeLine now = 0x23 :: rest := ⟨_, rfl⟩

theorem oneLine_timeLine (now : Nat) : OneLine (timeLine now) := by
  intro c hc
  have := mem_timeLine hc
  omega

theorem paired_timeLine (now : Nat) : Paired (timeLine now) :=
  paired_of_ascii fun _ hc => (mem_timeLine hc).2

theorem oneLine_head {now : Nat} (hkey : OneLine key) (body : List JavaString) :
    OneLine (⟨escape key, stamp now, body⟩ : RegistrySection).head := by
  intro c hc
  simp only [RegistrySection.head, List.cons_append, List.mem_cons, List.mem_append] at hc
  rcases hc with rfl | hc | rfl | hc
  · decide
  · exact oneLine_escape hkey c hc
  · decide
  · have := mem_stamp hc
    omega

theorem paired_head {now : Nat} (hkey : Paired key) (body : List JavaString) :
    Paired (⟨escape key, stamp now, body⟩ : RegistrySection).head := by
  rw [RegistrySection.head, List.cons_append]
  refine paired_cons (by decide) ((paired_escape hkey).append (paired_cons (by decide) ?_))
  apply paired_of_ascii
  intro c hc
  have := mem_stamp hc
  omega

/-! ### Creating it -/

/-- The lines of the file with those of the new section. -/
theorem WellFormed.paired_insert (hf : f.WellFormed) {lines rest : List JavaString}
    (h : f.lines = lines ++ rest) (hkey : Paired key) (now : Nat) {more : List JavaString}
    (hmore : ∀ l ∈ more, Paired l) :
    Paired (unlines (lines ++ [] :: newSection now key ++ more ++ rest)) := by
  apply paired_unlines
  intro l hl
  rw [newSection_eq now key []] at hl
  simp only [List.mem_append, List.mem_cons, List.not_mem_nil, or_false] at hl
  rcases hl with ((hl | rfl | rfl | rfl) | hl) | hl
  · exact (hf.line l (by simp [h, hl])).2
  · exact paired_nil
  · exact paired_head hkey []
  · exact paired_timeLine now
  · exact hmore l hl
  · exact (hf.line l (by simp [h, hl])).2

/-- How much of the file comes before the new section. -/
theorem createKey_gap {location : Option Location}
    (hplace : ∀ l, location = some l → ∃ before s after, f.sections = before ++ s :: after ∧
      l = f.place before s after.isEmpty)
    (hascii : location = none → ∀ c ∈ f.text, c < 0x80) :
    ∃ lines rest, f.Gap lines rest ∧ newPlace f.text location = (unlines lines).length := by
  cases location with
  | none =>
    refine ⟨f.lines, [], f.gap_end, ?_⟩
    exact length_getBytes_ascii (hascii rfl)
  | some l =>
    obtain ⟨before, s, after, hs, rfl⟩ := hplace l rfl
    refine ⟨_, _, .inr ⟨before, s, after, hs, rfl, rfl⟩, ?_⟩
    simp only [newPlace, place, unlines_append, unlines_cons, List.length_append, List.length_cons]
    omega

theorem WellFormed.createKey_text (hf : f.WellFormed) (he : e.cloneFile = f.text) (now : Nat)
    (hkey : Paired key) (hparts : splitKey key ≠ [])
    (hascii : (parentLoop f.text 0 (splitKey key).dropLast.reverse).1 = none →
      ∀ c ∈ f.text, c < 0x80) :
    ∃ e' location lines rest, e.createKey now key = .ok (e', location) ∧ f.Gap lines rest ∧
      e'.cloneFile = unlines (lines ++ [] :: newSection now key ++ rest) ∧
      location.start = location.stop ∧
      location.stop = (unlines (lines ++ [] :: newSection now key)).length - 1 := by
  have hparent : getParentKeyLocation f.text 0 key =
      .ok (parentLoop f.text 0 (splitKey key).dropLast.reverse) := by
    unfold getParentKeyLocation
    split
    · contradiction
    · rfl
  have hplace : ∀ l, (parentLoop f.text 0 (splitKey key).dropLast.reverse).1 = some l →
      ∃ before s after, f.sections = before ++ s :: after ∧ l = f.place before s after.isEmpty := by
    intro l hl
    exact hf.parentLoop_place _ (List.nil_append f.lines).symm hl
  obtain ⟨lines, rest, hgap, hcount⟩ := createKey_gap hplace hascii
  have hlines := hgap.lines_eq
  have htext : f.text = unlines (lines ++ rest) := by rw [text, hlines]
  obtain ⟨hw, hr⟩ := copy_lines lines rest
  have hpaired := @WellFormed.paired_insert f key hf lines rest hlines hkey now [] (by simp)
  rw [List.append_nil] at hpaired
  simp only [createKey, he, hparent, ok_bind]
  refine ⟨_, _, lines, rest, rfl, hgap, ?_, rfl, ?_⟩
  · rw [← hpaired]
    simp only [hcount]
    rw [htext, hw, hr]
    simp
  · simp only [hcount, unlines_append, unlines_cons, List.length_append, List.length_cons,
      List.nil_append]

/-- The value of a new section. -/
theorem writeValue_new {lines rest : List JavaString} {location : Location} (h : lines ≠ [])
    (he : e.cloneFile = unlines (lines ++ rest)) (hstart : location.start = location.stop)
    (hstop : location.stop = (unlines lines).length - 1)
    (hpaired : Paired (unlines (lines ++ (valueText name ++ value) :: rest))) :
    (e.writeValue location name value).cloneFile =
      unlines (lines ++ (valueText name ++ value) :: rest) := by
  have hnone : getValueLocation e.cloneFile location name = none := by
    rw [getValueLocation, if_pos hstart]
  have hvt : nameText name ++ 0x3D :: value = valueText name ++ value := by simp [valueText]
  simp only [writeValue, hnone, hvt]
  rw [← hpaired, ← copy_insert h, he, hstop]

end RegistryFile

end XoDos
