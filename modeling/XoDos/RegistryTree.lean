import XoDos.RegistryRegion

/-!
# Removing the tree of a key

The search for the next section of the tree starts where the line of the parent was.  That line may
be removed itself, together with a blank line before it, and then the search starts one unit too far.
Where it starts depends on the blank lines of the sections alone.
-/

namespace XoDos

namespace RegistryTree

open WineRegistryEditor RegistryFile

/-- What the search knows before a section: no line of the parent so far, with the lines that came
before; a position that does not move against the lines; or one that is a unit behind so many, with
so many blank lines left between there and the section. -/
inductive Scan where
  | seeking (before : List JavaString)
  | fixed
  | loose (units blanks : Nat)

namespace Scan

/-- A key without a parent is searched for from the start of the file. -/
def start (key : JavaString) (f : RegistryFile) : Scan :=
  if parentKey key = none then fixed else seeking f.preamble

/-- What the search compares with the start of the key. -/
def line (s : RegistrySection) : Scan → JavaString
  | loose _ 0 => s.head.tail
  | _ => s.head

/-- The search comes to the section. -/
def Hits (key : JavaString) (scan : Scan) (s : RegistrySection) : Prop :=
  keyText key true <+: scan.line s

instance (key : JavaString) (scan : Scan) (s : RegistrySection) : Decidable (scan.Hits key s) :=
  inferInstanceAs (Decidable (_ <+: _))

/-- After the section is removed, with so many blank lines at its end that stay. -/
def removed (count : Nat) : Scan → Scan
  | seeking before =>
    if before = [] then seeking (List.replicate count [])
    else if TakesUnit (unlines before).dropLast then loose ((unlines before).length - 1) count
    else fixed
  | fixed => fixed
  | loose units blanks =>
    loose units ((if (units + blanks - 2) % bufferSize = 0 then blanks else blanks - 1) + count)

/-- The section stays. -/
def passed (key : JavaString) (s : RegistrySection) : Scan → Scan
  | seeking before =>
    if (parentKey key).any fun parent => 0x5B :: escape parent <+: s.head then fixed
    else seeking (before ++ s.lines)
  | _ => fixed

def next (key : JavaString) (scan : Scan) (s : RegistrySection) : Scan :=
  if scan.Hits key s then scan.removed (blanksOf s.body).length else scan.passed key s

/-- The sections that the search does not come to. -/
def remaining (key : JavaString) : Scan → List RegistrySection → List RegistrySection
  | _, [] => []
  | scan, s :: rest =>
    if scan.Hits key s then remaining key (scan.next key s) rest
    else s :: remaining key (scan.next key s) rest

/-- What is left of the lines before a section that is removed. -/
def left (text : JavaString) : Scan → JavaString
  | loose _ 0 => text
  | _ => cutText text

end Scan

/-! ## Searching -/

variable {key text skipped : JavaString} {ahead : List JavaString} {position : Nat}

theorem bracket_keyText (key : JavaString) (keyAsPrefix : Bool) : [0x5B] <+: keyText key keyAsPrefix := by
  simp [keyText]

/-- The search takes up the lines ahead, none of which it is for. -/
structure Passes (key : JavaString) (position : Nat) (text skipped : JavaString)
    (ahead : List JavaString) : Prop where
  text_eq : text = skipped ++ unlines ahead
  other : ∀ l ∈ ahead, OneLine l ∧ ¬keyText key true <+: l
  position_eq : position = skipped.length ∧ (skipped ≠ [] ∨ parentKey key = none) ∨
    position = 0 ∧ ∃ parent lines line rest, parentKey key = some parent ∧
      skipped = unlines lines ∧ ahead = line :: rest ∧
      (∀ l ∈ lines, OneLine l ∧ ¬0x5B :: escape parent <+: l) ∧ 0x5B :: escape parent <+: line

theorem getKeyLocation_noParent {file : JavaString} (h : position ≠ 0 ∨ parentKey key = none) :
    getKeyLocation file position key true =
      keyLoop (keyText key true) none position position (linesOf (file.drop position)) := by
  unfold getKeyLocation
  rcases h with h | h
  · rw [if_neg h]
  · simp [h]

theorem getKeyLocation_parent {file parent : JavaString} (h : parentKey key = some parent) :
    getKeyLocation file 0 key true =
      keyLoop (keyText key true) (some (0x5B :: escape parent)) 0 0 (linesOf file) := by
  simp [getKeyLocation, h]

theorem linesOf_all {lines : List JavaString} (h : ∀ l ∈ lines, OneLine l) :
    linesOf (unlines lines) = lines := by
  have hread := linesOf_unlines h []
  rw [List.append_nil] at hread
  rw [hread]
  simp [linesOf, linesFrom]

theorem Passes.search (h : Passes key position text skipped ahead) {lines : List JavaString}
    (hlines : ∀ l ∈ lines, OneLine l) :
    getKeyLocation (text ++ unlines lines) position key true =
      keyLoop (keyText key true) none skipped.length text.length lines := by
  have hlength : text.length = skipped.length + (unlines ahead).length := by
    rw [h.text_eq, List.length_append]
  have hfile : text ++ unlines lines = skipped ++ unlines (ahead ++ lines) := by
    rw [h.text_eq, unlines_append, List.append_assoc]
  have hone : ∀ l ∈ ahead ++ lines, OneLine l := by
    intro l hl
    rcases List.mem_append.mp hl with hl | hl
    · exact (h.other l hl).1
    · exact hlines l hl
  have hskip := @keyLoop_skip (keyText key true) ahead lines (fun l hl => (h.other l hl).2)
    skipped.length skipped.length
  rw [hlength, ← hskip, hfile]
  rcases h.position_eq with ⟨hpos, hparent⟩ | ⟨hpos, parent, before, line, rest, hparent, hskipped,
    hahead, hbefore, hline⟩
  · rw [hpos, getKeyLocation_noParent (by rwa [Ne, List.length_eq_zero_iff]), List.drop_left,
      linesOf_all hone]
  · have hall : ∀ l ∈ before ++ (ahead ++ lines), OneLine l := by
      intro l hl
      rcases List.mem_append.mp hl with hl | hl
      · exact (hbefore l hl).1
      · exact hone l hl
    rw [hpos, getKeyLocation_parent hparent, hskipped, ← unlines_append, linesOf_all hall,
      keyLoop_skip_parent fun l hl => (hbefore l hl).2, hahead, List.cons_append,
      keyLoop_parent_hit hline, Nat.zero_add]

/-- The lines ahead are cut at their end only. -/
theorem Passes.cut (h : Passes key position text skipped ahead)
    (hkeeps : cutText skipped = skipped ∨ ∃ l ∈ ahead, l ≠ []) (count : Nat) :
    ∃ ahead', Passes key skipped.length (cutText text ++ List.replicate count 0x0A) skipped ahead' ∧
      (cutText skipped = skipped ∨ ∃ l ∈ ahead', l ≠ []) := by
  -- It is enough to know which lines are left.
  suffices hcut : ∃ ahead', cutText text = skipped ++ unlines ahead' ∧ (∀ l ∈ ahead', l ∈ ahead) ∧
      (∀ l rest, ahead = l :: rest → l ≠ [] → ∃ rest', ahead' = l :: rest') ∧
      (cutText skipped = skipped ∨ ∃ l ∈ ahead', l ≠ []) by
    obtain ⟨ahead', htext, hsub, hfirst, hkeeps'⟩ := hcut
    refine ⟨ahead' ++ List.replicate count [], ⟨?_, ?_, ?_⟩, ?_⟩
    · rw [htext, unlines_append, unlines_blanks, List.append_assoc]
    · intro l hl
      rcases List.mem_append.mp hl with hl | hl
      · exact h.other l (hsub l hl)
      · rw [(List.mem_replicate.mp hl).2]
        exact ⟨by decide, by simp [keyText]⟩
    · rcases h.position_eq with ⟨-, hparent⟩ | ⟨-, parent, lines, line, rest, hparent, hskipped, hahead,
        hlines, hline⟩
      · exact .inl ⟨rfl, hparent⟩
      · by_cases hnil : skipped = []
        · have hne : line ≠ [] := by
            intro hnil
            simp [hnil] at hline
          obtain ⟨rest', hahead'⟩ := hfirst line rest hahead hne
          refine .inr ⟨by rw [hnil]; rfl, parent, lines, line, rest' ++ List.replicate count [],
            hparent, hskipped, ?_, hlines, hline⟩
          rw [hahead', List.cons_append]
        · exact .inl ⟨rfl, .inl hnil⟩
    · rcases hkeeps' with hkeeps' | ⟨l, hl, hne⟩
      · exact .inl hkeeps'
      · exact .inr ⟨l, List.mem_append_left _ hl, hne⟩
  rcases List.eq_nil_or_concat ahead with hnil | ⟨init, last, hahead⟩
  · subst hnil
    have htext : text = skipped := by simpa using h.text_eq
    have hkeep : cutText skipped = skipped := by
      rcases hkeeps with hkeeps | ⟨l, hl, -⟩
      · exact hkeeps
      · cases hl
    exact ⟨[], by simp [htext, hkeep], by simp, by simp, .inl hkeep⟩
  · rw [List.concat_eq_append] at hahead
    subst hahead
    by_cases htakes : TakesUnit text.dropLast
    · have hdrop : text.dropLast = skipped ++ (unlines init ++ last) := by
        rw [h.text_eq, unlines_append, unlines_cons, unlines_nil, ← List.append_assoc,
          ← List.append_assoc, List.dropLast_concat, List.append_assoc]
      have hlast : last = [] := by
        by_contra hne
        have hunit := htakes.1
        rw [hdrop, List.getLast?_append_of_ne_nil _ (by simp [hne]),
          List.getLast?_append_of_ne_nil _ hne] at hunit
        exact ((h.other last (by simp)).1 _ (List.mem_of_getLast? hunit)).1 rfl
      subst hlast
      refine ⟨init, ?_, fun l hl => by simp [hl], ?_, ?_⟩
      · rw [cutText, if_pos htakes, hdrop, List.append_nil]
      · intro l rest heq hne
        cases init with
        | nil =>
          rw [List.nil_append, List.cons_eq_cons] at heq
          exact absurd heq.1.symm hne
        | cons first init =>
          rw [List.cons_append, List.cons_eq_cons] at heq
          exact ⟨init, by rw [heq.1]⟩
      · rcases hkeeps with hkeeps | ⟨l, hl, hne⟩
        · exact .inl hkeeps
        · rcases List.mem_append.mp hl with hl | hl
          · exact .inr ⟨l, hl, hne⟩
          · exact absurd (List.mem_singleton.mp hl) hne
    · exact ⟨init ++ [last], by rw [cutText, if_neg htakes, h.text_eq], fun l hl => hl,
        fun l rest heq _ => ⟨rest, heq⟩, hkeeps⟩

/-! ## What the search knows -/

/-- The text before a section and the position are those of the scan. -/
def Matches (key : JavaString) (text : JavaString) (position : Nat) : Scan → Prop
  | .seeking before => text = unlines before ∧ position = 0 ∧ ∃ parent, parentKey key = some parent ∧
      ∀ l ∈ before, OneLine l ∧ ¬0x5B :: escape parent <+: l
  | .fixed => ∃ skipped ahead, Passes key position text skipped ahead ∧
      (cutText skipped = skipped ∨ ∃ l ∈ ahead, l ≠ [])
  | .loose units blanks => ∃ line : JavaString,
      text = line ++ 0x0A :: List.replicate blanks 0x0A ∧ units = line.length + 1 ∧
        position = units + 1 ∧ line.length % bufferSize ≠ 0

variable {scan : Scan} {s : RegistrySection}

/-- Behind the first of the blank lines that are left. -/
theorem passes_loose {line : JavaString} {blanks : Nat} :
    Passes key (line.length + 1 + 1) (line ++ 0x0A :: List.replicate (blanks + 1) 0x0A)
      (line ++ [0x0A, 0x0A]) (List.replicate blanks []) := by
  refine ⟨?_, ?_, .inl ⟨by simp, .inl (by simp)⟩⟩
  · rw [unlines_blanks, List.replicate_succ]
    simp
  · intro l hl
    rw [(List.mem_replicate.mp hl).2]
    exact ⟨by decide, by simp [keyText]⟩

/-- Without more sections the search comes to an end. -/
theorem Matches.finished (h : Matches key text position scan) :
    (getKeyLocation text position key true).1 = none := by
  have hpasses : ∀ {position : Nat} {text skipped : JavaString} {ahead : List JavaString},
      Passes key position text skipped ahead → (getKeyLocation text position key true).1 = none := by
    intro position text skipped ahead hp
    have hsearch := @Passes.search _ _ _ _ _ hp [] (by simp)
    rw [unlines_nil, List.append_nil] at hsearch
    rw [hsearch]
    rfl
  cases scan with
  | seeking before =>
    obtain ⟨rfl, rfl, parent, hparent, hbefore⟩ := h
    have hskip := @keyLoop_skip_parent (keyText key true) before [] (0x5B :: escape parent)
      (fun l hl => (hbefore l hl).2) 0 0
    rw [List.append_nil] at hskip
    rw [getKeyLocation_parent hparent, linesOf_all fun l hl => (hbefore l hl).1, hskip]
    rfl
  | fixed =>
    obtain ⟨skipped, ahead, hp, -⟩ := h
    exact hpasses hp
  | loose units blanks =>
    obtain ⟨line, rfl, rfl, rfl, -⟩ := h
    cases blanks with
    | zero =>
      rw [getKeyLocation_noParent (.inl (by omega)), List.drop_eq_nil_of_le (by simp)]
      rfl
    | succ blanks => exact hpasses passes_loose

/-- The lines of a section in which no line but the first one has a bracket. -/
structure Lines (s : RegistrySection) : Prop where
  oneLine : ∀ l ∈ s.lines, OneLine l
  body : ∀ l ∈ s.body, ¬[0x5B] <+: l

theorem Lines.other (h : Lines s) {start : JavaString} (hstart : [0x5B] <+: start) :
    ∀ l ∈ s.body, OneLine l ∧ ¬start <+: l := fun l hl =>
  ⟨h.oneLine l (List.mem_cons_of_mem _ hl), fun hp => h.body l hl (hstart.trans hp)⟩

theorem Lines.head (h : Lines s) : OneLine s.head := h.oneLine _ (List.mem_cons_self ..)

/-- A section is passed over. -/
theorem Matches.passed (h : Matches key text position scan) (hs : Lines s)
    (hhits : ¬scan.Hits key s) :
    Matches key (text ++ unlines s.lines) position (scan.passed key s) := by
  have hbody := hs.other (bracket_keyText key true)
  have hne : s.head ≠ [] := by simp [RegistrySection.head]
  cases scan with
  | seeking before =>
    obtain ⟨rfl, rfl, parent, hparent, hbefore⟩ := h
    have hnext : (Scan.seeking before).passed key s = if 0x5B :: escape parent <+: s.head then .fixed
        else .seeking (before ++ s.lines) := by
      simp [Scan.passed, hparent]
    rw [hnext]
    split_ifs with hp
    · refine ⟨unlines before, s.lines, ⟨rfl, ?_, ?_⟩, .inr ⟨s.head, List.mem_cons_self .., hne⟩⟩
      · intro l hl
        rcases List.mem_cons.mp hl with rfl | hl
        · exact ⟨hs.head, hhits⟩
        · exact hbody l hl
      · exact .inr ⟨rfl, parent, before, s.head, s.body, hparent, rfl, rfl, hbefore, hp⟩
    · refine ⟨by rw [unlines_append], rfl, parent, hparent, fun l hl => ?_⟩
      rcases List.mem_append.mp hl with hl | hl
      · exact hbefore l hl
      · rcases List.mem_cons.mp hl with rfl | hl
        · exact ⟨hs.head, hp⟩
        · exact hs.other (by simp) l hl
  | fixed =>
    obtain ⟨skipped, ahead, hp, -⟩ := h
    refine ⟨skipped, ahead ++ s.lines, ⟨?_, ?_, ?_⟩, .inr ⟨s.head, by
      simp [RegistrySection.lines], hne⟩⟩
    · rw [hp.text_eq, unlines_append, List.append_assoc]
    · intro l hl
      rcases List.mem_append.mp hl with hl | hl
      · exact hp.other l hl
      · rcases List.mem_cons.mp hl with rfl | hl
        · exact ⟨hs.head, hhits⟩
        · exact hbody l hl
    · rcases hp.position_eq with hpos | ⟨hpos, parent, lines, line, rest, hparent, hskipped, rfl, hline⟩
      · exact .inl hpos
      · exact .inr ⟨hpos, parent, lines, line, rest ++ s.lines, hparent, hskipped, rfl, hline⟩
  | loose units blanks =>
    obtain ⟨line, rfl, rfl, rfl, -⟩ := h
    cases blanks with
    | zero =>
      -- The position is behind the bracket of the section.
      refine ⟨line ++ [0x0A, 0x5B], s.head.tail :: s.body, ⟨?_, ?_, .inl ⟨by simp, .inl (by simp)⟩⟩,
        .inr ⟨s.head.tail, List.mem_cons_self .., by simp [RegistrySection.head]⟩⟩
      · simp [RegistrySection.lines, RegistrySection.head]
      · intro l hl
        rcases List.mem_cons.mp hl with rfl | hl
        · exact ⟨fun c hc => hs.head c (List.mem_of_mem_tail hc), hhits⟩
        · exact hbody l hl
    | succ blanks =>
      have hp := @passes_loose key line blanks
      refine ⟨line ++ [0x0A, 0x0A], List.replicate blanks [] ++ s.lines, ⟨?_, ?_, hp.position_eq.imp
        id fun h => absurd h.1 (by omega)⟩, .inr ⟨s.head, by simp [RegistrySection.lines], hne⟩⟩
      · rw [hp.text_eq, unlines_append, List.append_assoc]
      · intro l hl
        rcases List.mem_append.mp hl with hl | hl
        · exact hp.other l hl
        · rcases List.mem_cons.mp hl with rfl | hl
          · exact ⟨hs.head, hhits⟩
          · exact hbody l hl

/-! ## Removing a section -/

section Removing

variable {values more : List JavaString}

theorem getLast?_region (line : JavaString) (values : List JavaString) :
    (unlines (line :: values)).getLast? = some 0x0A := getLast?_unlines (List.cons_ne_nil _ _)

/-- The section that the search comes to, and what is left without it. -/
theorem hit_region (hline : keyText key true <+: s.head)
    (hends : text = [] ∨ text.getLast? = some 0x0A)
    (hstop : ∀ total, 1 ≤ total →
      sectionStop total 0 (values ++ more) = total + (unlines values).length - 1) :
    ∃ location, (∀ position, keyLoop (keyText key true) none position text.length
        (s.head :: (values ++ more)) = (some location, position)) ∧
      ∀ e : WineRegistryEditor, e.cloneFile = text ++ unlines (s.head :: (values ++ more)) →
        (e.removeRegion location).cloneFile = rewritten (cutText text ++ unlines more) := by
  refine ⟨_, fun position => keyLoop_hit hline position text.length, fun e he => ?_⟩
  have hfile : e.cloneFile = text ++ (unlines (s.head :: values) ++ unlines more) := by
    rw [he, ← unlines_append, List.cons_append]
  apply removeRegion_section hfile hends (getLast?_region _ _) rfl
  simp only
  rw [hstop _ (by omega), unlines_cons, List.length_append, List.length_cons]
  omega

/-- The search comes to a section, and what it knows then holds without it. -/
theorem Matches.removed (h : Matches key text position scan) (hhits : scan.Hits key s)
    (hends : text = [] ∨ text.getLast? = some 0x0A)
    (hone : ∀ l ∈ s.head :: (values ++ more), OneLine l)
    (hstop : ∀ total, 1 ≤ total →
      sectionStop total 0 (values ++ more) = total + (unlines values).length - 1) :
    ∃ location position', getKeyLocation (text ++ unlines (s.head :: (values ++ more))) position key
        true = (some location, position') ∧
      (∀ e : WineRegistryEditor, e.cloneFile = text ++ unlines (s.head :: (values ++ more)) →
        (e.removeRegion location).cloneFile = rewritten (scan.left text ++ unlines more)) ∧
      ∀ count, Matches key (scan.left text ++ List.replicate count 0x0A) position'
        (scan.removed count) := by
  cases scan with
  | seeking before =>
    obtain ⟨rfl, rfl, parent, hparent, hbefore⟩ := h
    obtain ⟨location, hloc, hregion⟩ := hit_region hhits hends hstop
    have hparentLine : 0x5B :: escape parent <+: s.head :=
      (parentText_isPrefix hparent true).trans hhits
    have hall : ∀ l ∈ before ++ s.head :: (values ++ more), OneLine l := by
      intro l hl
      rcases List.mem_append.mp hl with hl | hl
      · exact (hbefore l hl).1
      · exact hone l hl
    refine ⟨location, (unlines before).length, ?_, hregion, fun count => ?_⟩
    · rw [getKeyLocation_parent hparent, ← unlines_append, linesOf_all hall,
        keyLoop_skip_parent fun l hl => (hbefore l hl).2, keyLoop_parent_hit hparentLine,
        Nat.zero_add, hloc]
    · simp only [Scan.removed, Scan.left]
      split_ifs with hnil htakes
      · subst hnil
        refine ⟨(unlines_blanks count).symm, rfl, parent, hparent, fun l hl => ?_⟩
        rw [(List.mem_replicate.mp hl).2]
        exact ⟨by decide, by simp⟩
      · have hsplit := dropLast_append_newline (getLast?_unlines hnil)
        have hsplit' := dropLast_append_newline htakes.1
        have hlen : (unlines before).length = (unlines before).dropLast.dropLast.length + 1 + 1 := by
          conv_lhs => rw [← hsplit, ← hsplit']
          simp
        refine ⟨(unlines before).dropLast.dropLast, ?_, by omega, by omega, ?_⟩
        · rw [cutText, if_pos htakes]
          conv_lhs => rw [← hsplit']
          simp
        · have hmod := htakes.2
          rw [List.length_dropLast] at hmod
          have heq : (unlines before).dropLast.dropLast.length = (unlines before).length - 1 - 1 := by
            omega
          rwa [heq]
      · have hkeep : cutText (unlines before) = unlines before := by rw [cutText, if_neg htakes]
        have hne : unlines before ≠ [] := by
          intro hnil'
          have hlast := getLast?_unlines hnil
          rw [hnil'] at hlast
          cases hlast
        refine ⟨unlines before, List.replicate count [], ⟨?_, ?_, .inl ⟨rfl, .inl hne⟩⟩, .inl hkeep⟩
        · rw [hkeep, unlines_blanks]
        · intro l hl
          rw [(List.mem_replicate.mp hl).2]
          exact ⟨by decide, by simp [keyText]⟩
  | fixed =>
    obtain ⟨skipped, ahead, hp, hkeeps⟩ := h
    obtain ⟨location, hloc, hregion⟩ := hit_region hhits hends hstop
    refine ⟨location, skipped.length, ?_, hregion, fun count => ?_⟩
    · rw [hp.search hone, hloc]
    · obtain ⟨ahead', hp', hkeeps'⟩ := hp.cut hkeeps count
      exact ⟨skipped, ahead', hp', hkeeps'⟩
  | loose units blanks =>
    obtain ⟨line, rfl, rfl, rfl, hmod⟩ := h
    cases blanks with
    | zero =>
      -- The line is read without its bracket.
      have htail : s.head = 0x5B :: s.head.tail := rfl
      have htext : line ++ 0x0A :: List.replicate 0 0x0A = line ++ [0x0A] := rfl
      have hread : ∀ l ∈ s.head.tail :: (values ++ more), OneLine l := by
        intro l hl
        rcases List.mem_cons.mp hl with rfl | hl
        · exact fun c hc => hone _ (List.mem_cons_self ..) c (List.mem_of_mem_tail hc)
        · exact hone l (List.mem_cons_of_mem _ hl)
      have hdrop : (line ++ [0x0A] ++ unlines (s.head :: (values ++ more))).drop
          (line.length + 1 + 1) = unlines (s.head.tail :: (values ++ more)) := by
        have hshift : line ++ [0x0A] ++ unlines (s.head :: (values ++ more)) =
            (line ++ [0x0A, 0x5B]) ++ unlines (s.head.tail :: (values ++ more)) := by
          rw [unlines_cons, htail]
          simp
        rw [hshift]
        exact List.drop_left' (by simp)
      have hsearch : getKeyLocation (line ++ 0x0A :: List.replicate 0 0x0A ++
          unlines (s.head :: (values ++ more))) (line.length + 1 + 1) key true =
          keyLoop (keyText key true) none (line.length + 1 + 1) (line.length + 1 + 1)
            (s.head.tail :: (values ++ more)) := by
        rw [htext, getKeyLocation_noParent (.inl (by omega)), hdrop, linesOf_all hread]
      have hline : keyText key true <+: s.head.tail := hhits
      refine ⟨_, _, hsearch.trans (keyLoop_hit hline _ _), fun e he => ?_, fun count => ?_⟩
      · have hfile : e.cloneFile = (line ++ [0x0A]) ++
            (unlines (s.head :: values) ++ unlines more) := by
          rw [he, ← unlines_append, List.cons_append]
          rfl
        rw [Scan.left, htext]
        apply removeRegion_inside hfile ⟨by simp, by simpa using hmod⟩
        · simp
        · simp
        · simp only
          rw [hstop _ (by omega), unlines_cons, htail]
          simp only [List.length_append, List.length_cons, List.length_nil, List.tail_cons]
          omega
      · refine ⟨line, ?_, rfl, rfl, hmod⟩
        simp [Scan.left]
    | succ blanks =>
      obtain ⟨location, hloc, hregion⟩ := hit_region hhits hends hstop
      have hp := @passes_loose key line blanks
      refine ⟨location, line.length + 1 + 1, ?_, hregion, fun count => ?_⟩
      · rw [hp.search hone, hloc]
        simp
      · have hdrop : (line ++ 0x0A :: List.replicate (blanks + 1) 0x0A).dropLast =
            line ++ 0x0A :: List.replicate blanks 0x0A := by
          rw [List.replicate_succ', ← List.cons_append, ← List.append_assoc, List.dropLast_concat]
        have htakes : TakesUnit (line ++ 0x0A :: List.replicate blanks 0x0A) ↔
            ¬(line.length + 1 + (blanks + 1) - 2) % bufferSize = 0 := by
          have hlast : (line ++ 0x0A :: List.replicate blanks 0x0A).getLast? = some 0x0A := by
            rw [← List.replicate_succ, List.replicate_succ', ← List.append_assoc]
            simp
          have hlength : (line ++ 0x0A :: List.replicate blanks 0x0A).length - 1 =
              line.length + 1 + (blanks + 1) - 2 := by
            simp
            omega
          rw [TakesUnit, hlength]
          simp [hlast]
        refine ⟨line, ?_, rfl, rfl, hmod⟩
        simp only [Scan.left, cutText, hdrop, htakes]
        split_ifs with hzero
        · simp
        · simp

end Removing

/-! ## All rounds -/

variable {f g : RegistryFile} {e : WineRegistryEditor}

theorem lines_of_wellFormed (hf : f.WellFormed) (hs : s ∈ f.sections) : Lines s := by
  refine ⟨fun l hl => (hf.line l (mem_lines.mpr (.inr ⟨s, hs, ?_⟩))).1, hf.body s hs⟩
  rcases List.mem_cons.mp hl with rfl | hl
  · exact .inl rfl
  · exact .inr hl

theorem sectionLines_cons (s : RegistrySection) (rest : List RegistrySection) :
    sectionLines (s :: rest) = s.head :: (valueLines s rest.isEmpty ++ linesAfter s rest) := by
  rw [linesAfter, ← List.append_assoc, valueLines_append]
  simp [sectionLines, RegistrySection.lines]

theorem text_append (g : RegistryFile) (rest : List RegistrySection) :
    g.text ++ unlines (sectionLines rest) = RegistryFile.text ⟨g.preamble, g.sections ++ rest⟩ := by
  simp [RegistryFile.text, RegistryFile.lines, sectionLines]

theorem text_ends (g : RegistryFile) : g.text = [] ∨ g.text.getLast? = some 0x0A := by
  rw [RegistryFile.text]
  rcases List.eq_nil_or_concat g.lines with hnil | ⟨init, l, hlines⟩
  · left
    rw [hnil]
    rfl
  · right
    exact getLast?_unlines (by rw [hlines, List.concat_eq_append]; simp)

theorem paired_text (hf : f.WellFormed) : rewritten f.text = f.text :=
  paired_unlines fun l hl => (hf.line l hl).2

/-- A file without one of its sections, of which the blank lines stay. -/
theorem exists_without (hwf : WellFormed ⟨g.preamble, g.sections ++ s :: rest⟩)
    {kept : JavaString} (hkept : kept = g.text ∨ kept = cutText g.text) :
    ∃ g' : RegistryFile,
      g'.text = kept ++ List.replicate (blankLines s rest.isEmpty).length 0x0A ∧ Alike g' g ∧
        WellFormed ⟨g'.preamble, g'.sections ++ rest⟩ ∧
        rewritten (kept ++ unlines (linesAfter s rest)) = g'.text ++ unlines (sectionLines rest) := by
  have hg : WellFormed ⟨g.preamble, g.sections⟩ := hwf.sublist (List.sublist_append_left ..)
  have hrest : WellFormed ⟨g.preamble, g.sections ++ rest⟩ :=
    hwf.sublist (List.Sublist.append_left (List.sublist_cons_self s rest) _)
  obtain ⟨g', hg', halike⟩ : ∃ g' : RegistryFile,
      g'.text = kept ++ List.replicate (blankLines s rest.isEmpty).length 0x0A ∧ Alike g' g := by
    rcases hkept with rfl | rfl
    · exact text_append_blanks g _
    · exact hg.text_cut _
  have hwf' : WellFormed ⟨g'.preamble, g'.sections ++ rest⟩ := hrest.alike (halike.append rest)
  refine ⟨g', hg', halike, hwf', ?_⟩
  have hblanks : unlines (blankLines s rest.isEmpty) =
      List.replicate (blankLines s rest.isEmpty).length 0x0A := by
    rw [← unlines_blanks]
    congr 1
    exact List.eq_replicate_of_mem fun l hl => blankLines_blank hl
  rw [linesAfter, unlines_append, hblanks, ← List.append_assoc, ← hg', text_append, paired_text hwf']

/-- The rounds of a removal, which come to an end, remove what the search comes to. -/
theorem removeTree_run (rest : List RegistrySection)
    (hwf : WellFormed ⟨g.preamble, g.sections ++ rest⟩)
    (he : e.cloneFile = g.text ++ unlines (sectionLines rest))
    (hm : Matches key g.text e.lastParentKeyPosition scan) :
    ∃ r, (∀ fuel, rest.length < fuel → removeTree key fuel e = r) ∧
      ∃ h : RegistryFile, r.2.cloneFile = h.text ∧
        Alike h ⟨g.preamble, g.sections ++ scan.remaining key rest⟩ := by
  induction rest generalizing g scan e with
  | nil =>
    have hfile : e.cloneFile = g.text := by simpa [sectionLines] using he
    have hnone := hm.finished
    rw [← hfile] at hnone
    refine ⟨(false, { e with lastParentKeyPosition :=
      (getKeyLocation e.cloneFile e.lastParentKeyPosition key true).2 }), fun fuel hfuel => ?_, g,
      hfile, ?_⟩
    · cases fuel with
      | zero => omega
      | succ fuel =>
        rw [removeTree]
        simp only [hnone]
    · rw [Scan.remaining, List.append_nil]
      exact Alike.refl g
  | cons s rest ih =>
    have hlines := @lines_of_wellFormed s _ hwf (by simp)
    by_cases hhits : scan.Hits key s
    · have hcons := sectionLines_cons s rest
      have hone : ∀ l ∈ s.head :: (valueLines s rest.isEmpty ++ linesAfter s rest), OneLine l := by
        intro l hl
        rw [← hcons] at hl
        exact (hwf.line l (by
          simp only [RegistryFile.lines, sectionLines, List.flatMap_append, List.mem_append] at hl ⊢
          exact .inr (.inr hl))).1
      have hstop : ∀ total, 1 ≤ total →
          sectionStop total 0 (valueLines s rest.isEmpty ++ linesAfter s rest) =
            total + (unlines (valueLines s rest.isEmpty)).length - 1 := by
        intro total ht
        have h := @WellFormed.sectionStop_eq _ hwf g.sections _ _ rfl total ht
        rwa [← valueLines_append s rest.isEmpty, List.append_assoc] at h
      obtain ⟨location, position', hsearch, hregion, hnext⟩ :=
        hm.removed hhits (text_ends g) hone hstop
      rw [← hcons, ← he] at hsearch
      -- Cutting the section out also cuts the newline off the text in front, if there is one.
      have hleft : scan.left g.text = g.text ∨ scan.left g.text = cutText g.text := by
        unfold Scan.left
        split
        · exact .inl rfl
        · exact .inr rfl
      obtain ⟨g', hg', halike, hwf', hfile⟩ := exists_without hwf hleft
      have he' : ({ e with lastParentKeyPosition := position' }.removeRegion location).cloneFile =
          g'.text ++ unlines (sectionLines rest) := by
        rw [hregion _ (by rw [← hcons]; exact he), hfile]
      have hm' := hnext (blankLines s rest.isEmpty).length
      rw [← hg'] at hm'
      obtain ⟨r, hr, h, hh, halike'⟩ := @ih _ g' _ hwf' he' hm'
      refine ⟨(true, r.2), fun fuel hfuel => ?_, h, hh, ?_⟩
      · cases fuel with
        | zero => omega
        | succ fuel =>
          rw [removeTree]
          simp only [hsearch]
          rw [hr fuel (by simpa using hfuel)]
      · -- Behind the last section nothing is left to be known.
        have hremaining : scan.remaining key (s :: rest) =
            (scan.removed (blankLines s rest.isEmpty).length).remaining key rest := by
          rw [Scan.remaining, if_pos hhits, Scan.next, if_pos hhits]
          cases rest with
          | nil => rfl
          | cons t rest => rfl
        rw [hremaining]
        exact halike'.trans (halike.append _)
    · have hm' := hm.passed hlines hhits
      -- A section that is passed by joins the ones in front, and the search goes on behind it.
      have htext : g.text ++ unlines s.lines = RegistryFile.text ⟨g.preamble, g.sections ++ [s]⟩ := by
        rw [← text_append]
        simp [sectionLines]
      rw [htext] at hm'
      have hfile : e.cloneFile = RegistryFile.text ⟨g.preamble, g.sections ++ [s]⟩ ++
          unlines (sectionLines rest) := by
        rw [he, ← htext]
        simp [sectionLines]
      obtain ⟨r, hr, h, hh, halike⟩ := @ih _ ⟨g.preamble, g.sections ++ [s]⟩ _ (by simpa using hwf)
        hfile hm'
      refine ⟨r, fun fuel hfuel => hr fuel (by simp at hfuel; omega), h, hh, ?_⟩
      rw [Scan.remaining, if_neg hhits, Scan.next, if_neg hhits]
      simpa using halike

/-! ## Keys and their trees -/

/-- The path of the key, or that of a key below it. -/
def Named (key : JavaString) (tree : Bool) (path : JavaString) : Prop :=
  path = escape key ∨ tree = true ∧ escape (key ++ [0x5C]) <+: path

instance (key : JavaString) (tree : Bool) (path : JavaString) : Decidable (Named key tree path) :=
  inferInstanceAs (Decidable (_ ∨ _))

/-- The sections that a removal does not name. -/
def others (f : RegistryFile) (key : JavaString) (tree : Bool) : List RegistrySection :=
  f.sections.filter fun s => ¬Named key tree s.path

/-- The rounds come to an end, the sections that are left are the others, and the others have their
values. -/
structure RemovesExactly (f : RegistryFile) (e : WineRegistryEditor) (key : JavaString)
    (tree : Bool) : Prop where
  ends : tree = true → ∀ fuel, e.cloneFile.length ≤ fuel →
    removeTree key fuel { e with lastParentKeyPosition := 0 } = e.removeKey key tree
  sections : ∃ g : RegistryFile, g.WellFormed ∧ (e.removeKey key tree).2.cloneFile = g.text ∧
    Alike g ⟨f.preamble, others f key tree⟩
  values : ∀ other name, ¬Named key tree (escape other) →
    ((e.removeKey key tree).2.getRawValue other name).1 = (e.getRawValue other name).1

/-- Of a tree the search comes to what is named.  Without the tree there is at most one section to
come to. -/
def Clean (f : RegistryFile) (key : JavaString) : Bool → Prop
  | true => ∀ before s after, f.sections = before ++ s :: after →
      ((before.foldl (Scan.next key) (Scan.start key f)).Hits key s ↔ Named key true s.path)
  | false => (f.sections.filter fun s => s.path = escape key).length ≤ 1

theorem remaining_sublist (scan : Scan) (sections : List RegistrySection) :
    (scan.remaining key sections).Sublist sections := by
  induction sections generalizing scan with
  | nil => exact List.Sublist.refl _
  | cons s sections ih =>
    rw [Scan.remaining]
    split_ifs
    · exact (ih _).cons s
    · exact (ih _).cons_cons s

/-- What is kept of a list is what its elements are all kept for. -/
theorem sublist_filter {α : Type} {kept all : List α} {p : α → Bool} (h : kept.Sublist all)
    (hp : ∀ x ∈ kept, p x = true) : kept.Sublist (all.filter p) := by
  have hfilter := h.filter p
  rwa [List.filter_eq_self.mpr hp] at hfilter

/-- Up to blank lines the sections that are left are the others only if they are the others. -/
theorem alike_others {tree : Bool} {kept : List RegistrySection} (hkept : kept.Sublist f.sections)
    (h : kept.map RegistrySection.stripped = (others f key tree).map RegistrySection.stripped) :
    kept = others f key tree := by
  have hall : ∀ s ∈ kept, decide (¬Named key tree s.path) = true := by
    intro s hs
    have hmem := List.mem_map_of_mem (f := RegistrySection.stripped) hs
    rw [h, List.mem_map] at hmem
    obtain ⟨t, ht, heq⟩ := hmem
    have hnot := (List.mem_filter.mp ht).2
    rwa [(stripped_eq heq).1] at hnot
  have hlength := congrArg List.length h
  rw [List.length_map, List.length_map] at hlength
  exact (sublist_filter hkept hall).eq_of_length hlength

/-- The sections that remain are the others when the search comes to those that are named. -/
theorem remaining_eq_iff (scan : Scan) (sections : List RegistrySection) :
    scan.remaining key sections = sections.filter (fun s => ¬Named key true s.path) ↔
      ∀ before s after, sections = before ++ s :: after →
        ((before.foldl (Scan.next key) scan).Hits key s ↔ Named key true s.path) := by
  induction sections generalizing scan with
  | nil => simp [Scan.remaining]
  | cons s sections ih =>
    have hsplit : (∀ before t after, s :: sections = before ++ t :: after →
        ((before.foldl (Scan.next key) scan).Hits key t ↔ Named key true t.path)) ↔
        (scan.Hits key s ↔ Named key true s.path) ∧
          (scan.next key s).remaining key sections =
            sections.filter fun s => ¬Named key true s.path := by
      rw [ih]
      constructor
      · intro h
        refine ⟨h [] s sections rfl, fun before t after heq => ?_⟩
        exact h (s :: before) t after (by rw [heq, List.cons_append])
      · rintro ⟨hs, hrest⟩ before t after heq
        cases before with
        | nil =>
          rw [List.nil_append, List.cons_eq_cons] at heq
          rw [← heq.1]
          exact hs
        | cons first before =>
          rw [List.cons_append, List.cons_eq_cons] at heq
          rw [← heq.1]
          exact hrest before t after heq.2
    rw [hsplit, Scan.remaining]
    by_cases hhits : scan.Hits key s <;> by_cases hnamed : Named key true s.path
    · simp [hhits, hnamed]
    · -- A section more is gone, and the others that remain are too few.
      simp only [hhits, hnamed, if_true, iff_false, not_true, false_and]
      intro heq
      rw [List.filter_cons_of_pos (by simpa using hnamed)] at heq
      have hall : ∀ t ∈ (scan.next key s).remaining key sections,
          decide (¬Named key true t.path) = true := by
        intro t ht
        rw [heq] at ht
        rcases List.mem_cons.mp ht with rfl | ht
        · simpa using hnamed
        · exact (List.mem_filter.mp ht).2
      have hle := (sublist_filter (remaining_sublist _ _) hall).length_le
      rw [heq, List.length_cons] at hle
      omega
    · simp only [hhits, hnamed, if_false, false_iff, not_true, false_and, iff_false]
      intro heq
      have hmem : s ∈ (s :: sections).filter fun s => ¬Named key true s.path := by
        rw [← heq]
        exact List.mem_cons_self ..
      exact absurd hnamed (by simpa using (List.mem_filter.mp hmem).2)
    · simp [hhits, hnamed]

/-! ## Removing a key -/

section Key

variable {tree : Bool}

/-- The removal is right when the others are left. -/
theorem removesExactly_iff_kept (hf : f.WellFormed) (he : e.cloneFile = f.text)
    (hends : tree = true → ∀ fuel, e.cloneFile.length ≤ fuel →
      removeTree key fuel { e with lastParentKeyPosition := 0 } = e.removeKey key tree)
    {kept : List RegistrySection} (hkept : kept.Sublist f.sections)
    (hfile : (e.removeKey key tree).2.cloneFile = g.text) (halike : Alike g ⟨f.preamble, kept⟩) :
    RemovesExactly f e key tree ↔ kept = others f key tree := by
  have hg : g.WellFormed := (hf.sublist hkept).alike halike
  constructor
  · intro h
    obtain ⟨g', hg', hfile', halike'⟩ := h.sections
    have heq : g = g' := hg.text_injective hg' (hfile.symm.trans hfile')
    subst heq
    exact alike_others hkept (halike.sections.symm.trans halike'.sections)
  · intro h
    rw [h] at halike
    refine ⟨hends, ⟨g, hg, hfile, halike⟩, fun other name hother => ?_⟩
    have hvalue : g.rawValue other name = f.rawValue other name := by
      unfold RegistryFile.rawValue
      rw [valueIn_congr halike.sections]
      apply valueIn_filter
      intro s _ hpath
      rw [hpath]
      simpa using hother
    rw [hg.getRawValue_text _ hfile, hf.getRawValue_text e he, hvalue]

theorem start_matches (hf : f.WellFormed) (key : JavaString) :
    Matches key (unlines f.preamble) 0 (Scan.start key f) := by
  have hother : ∀ start : JavaString, [0x5B] <+: start →
      ∀ l ∈ f.preamble, OneLine l ∧ ¬start <+: l := fun start hstart l hl =>
    ⟨(hf.line l (mem_lines.mpr (.inl hl))).1, fun hp => hf.preamble l hl (hstart.trans hp)⟩
  unfold Scan.start
  split_ifs with hparent
  · exact ⟨[], f.preamble, ⟨rfl, hother _ (bracket_keyText key true), .inl ⟨rfl, .inr hparent⟩⟩,
      .inl rfl⟩
  · obtain ⟨parent, hsome⟩ := Option.ne_none_iff_exists'.mp hparent
    exact ⟨rfl, rfl, parent, hsome, hother _ (by simp)⟩

/-- A file has more units than sections. -/
theorem length_sections (sections : List RegistrySection) :
    2 * sections.length ≤ (unlines (sectionLines sections)).length := by
  induction sections with
  | nil => exact le_rfl
  | cons s sections ih =>
    have hcons : sectionLines (s :: sections) = s.head :: (s.body ++ sectionLines sections) := by
      simp [sectionLines, RegistrySection.lines]
    rw [hcons]
    simp only [unlines_cons, unlines_append, List.length_append, List.length_cons,
      RegistrySection.head]
    omega

/-- The tree is removed in as many rounds as the file has units, or fewer. -/
theorem removeKey_tree (hf : f.WellFormed) (he : e.cloneFile = f.text) (key : JavaString) :
    (∀ fuel, e.cloneFile.length ≤ fuel →
        removeTree key fuel { e with lastParentKeyPosition := 0 } = e.removeKey key true) ∧
      ∃ g : RegistryFile, (e.removeKey key true).2.cloneFile = g.text ∧
        Alike g ⟨f.preamble, (Scan.start key f).remaining key f.sections⟩ := by
  obtain ⟨r, hr, g, hg, halike⟩ := @removeTree_run key (Scan.start key f) ⟨f.preamble, []⟩
    { e with lastParentKeyPosition := 0 } f.sections hf
    (by rw [text_append]; exact he) (by
      have htext : RegistryFile.text ⟨f.preamble, []⟩ = unlines f.preamble := by
        simp [RegistryFile.text, RegistryFile.lines, sectionLines]
      rw [htext]
      exact start_matches hf key)
  have hfuel : ∀ fuel, e.cloneFile.length ≤ fuel →
      removeTree key fuel { e with lastParentKeyPosition := 0 } = r := by
    intro fuel hle
    rcases Nat.lt_or_ge f.sections.length fuel with hlt | hge
    · exact hr fuel hlt
    · -- There is nothing in the file.
      have hlength := length_sections f.sections
      have htext : f.text.length = (unlines f.preamble).length +
          (unlines (sectionLines f.sections)).length := by
        rw [RegistryFile.text, RegistryFile.lines, unlines_append, List.length_append]
      rw [he] at hle
      have hnil : e.cloneFile = [] := by
        rw [he, ← List.length_eq_zero_iff]
        omega
      have hzero : fuel = 0 := by omega
      rw [hzero, ← hr (f.sections.length + 1) (by omega), removeTree, removeTree]
      simp [hnil, getKeyLocation, linesOf, linesFrom, keyLoop]
  have hremove : e.removeKey key true = r := hfuel _ le_rfl
  refine ⟨fun fuel hle => by rw [hfuel fuel hle, hremove], g, by rw [hremove]; exact hg, ?_⟩
  simpa using halike

/-- Without the tree it is the first section of the key that goes, if there is one. -/
theorem removeKey_section (hf : f.WellFormed) (he : e.cloneFile = f.text) (key : JavaString) :
    ((∀ s ∈ f.sections, s.path ≠ escape key) ∧ (e.removeKey key false).2.cloneFile = f.text) ∨
      ∃ before s after, f.sections = before ++ s :: after ∧ s.path = escape key ∧
        (∀ t ∈ before, t.path ≠ escape key) ∧ ∃ g : RegistryFile,
          (e.removeKey key false).2.cloneFile = g.text ∧ Alike g ⟨f.preamble, before ++ after⟩ := by
  simp only [removeKey, Bool.false_eq_true, if_false]
  cases hloc : (getKeyLocation e.cloneFile 0 key false).1 with
  | none =>
    rw [he] at hloc
    exact .inl ⟨hf.key_missing hloc, he⟩
  | some location =>
    rw [he] at hloc
    obtain ⟨before, s, after, hs, hpath, hbefore, rfl⟩ := hf.key_found hloc
    refine .inr ⟨before, s, after, hs, hpath, hbefore, ?_⟩
    have htext : RegistryFile.text ⟨f.preamble, before⟩ = unlines (f.linesBefore before) := rfl
    have hwf : WellFormed ⟨f.preamble, before ++ s :: after⟩ := by
      rw [← hs]
      exact hf
    obtain ⟨g, -, halike, -, hfile⟩ := @exists_without s ⟨f.preamble, before⟩ after hwf _ (.inr rfl)
    refine ⟨⟨g.preamble, g.sections ++ after⟩, ?_, halike.append after⟩
    rw [← text_append, ← hfile]
    apply removeRegion_section _ (text_ends _)
      (getLast?_region s.head (valueLines s after.isEmpty)) rfl
    · simp only [place, htext, unlines_append, unlines_cons, List.length_append]
    · rw [htext, ← unlines_append, ← unlines_append]
      simp only
      rw [he, RegistryFile.text, lines_of_split hs]
      simp

/-- A removal without the tree is right when there is one section at most. -/
theorem kept_eq_others_iff {before after : List RegistrySection}
    (hs : f.sections = before ++ s :: after) (hpath : s.path = escape key)
    (hbefore : ∀ t ∈ before, t.path ≠ escape key) :
    before ++ after = others f key false ↔ Clean f key false := by
  have hnamed : ∀ t : RegistrySection, Named key false t.path ↔ t.path = escape key := by
    intro t
    simp [Named]
  have hfirst : before.filter (fun t => ¬Named key false t.path) = before := by
    apply List.filter_eq_self.mpr
    intro t ht
    simpa [hnamed] using hbefore t ht
  have hnone : before.filter (fun t => t.path = escape key) = [] := by
    apply List.filter_eq_nil_iff.mpr
    intro t ht
    simpa using hbefore t ht
  have hothers : others f key false = before ++ after.filter (fun t => ¬Named key false t.path) := by
    rw [others, hs, List.filter_append, hfirst, List.filter_cons_of_neg (by simpa using (hnamed s).mpr hpath)]
  have hclean : Clean f key false ↔ (after.filter fun t => t.path = escape key).length = 0 := by
    rw [Clean, hs, List.filter_append, hnone, List.filter_cons_of_pos (by simpa using hpath)]
    simp
  rw [hothers, hclean, List.append_cancel_left_eq, eq_comm, List.filter_eq_self,
    List.length_eq_zero_iff, List.filter_eq_nil_iff]
  simp [hnamed]

end Key

/-- A removal does what it names exactly when the file is clean for it. -/
theorem removeKey_exact_iff (hf : f.WellFormed) (he : e.cloneFile = f.text) (key : JavaString)
    (tree : Bool) : RemovesExactly f e key tree ↔ Clean f key tree := by
  cases tree with
  | true =>
    obtain ⟨hends, g, hfile, halike⟩ := removeKey_tree hf he key
    rw [removesExactly_iff_kept hf he (fun _ => hends) (remaining_sublist _ _) hfile halike]
    exact remaining_eq_iff _ _
  | false =>
    have hends : false = true → ∀ fuel, e.cloneFile.length ≤ fuel →
        removeTree key fuel { e with lastParentKeyPosition := 0 } = e.removeKey key false :=
      fun h => by cases h
    rcases removeKey_section hf he key with
      ⟨hnone, hfile⟩ | ⟨before, s, after, hs, hpath, hbefore, g, hfile, halike⟩
    · rw [removesExactly_iff_kept hf he hends (List.Sublist.refl _) hfile (Alike.refl f)]
      have hothers : f.sections = others f key false := by
        symm
        apply List.filter_eq_self.mpr
        intro s hs
        simpa [Named] using hnone s hs
      have hclean : Clean f key false := by
        have hnil : f.sections.filter (fun s => s.path = escape key) = [] := by
          apply List.filter_eq_nil_iff.mpr
          intro s hs
          simpa using hnone s hs
        rw [Clean, hnil]
        simp
      exact iff_of_true hothers hclean
    · have hkept : (before ++ after).Sublist f.sections := by
        rw [hs]
        exact List.Sublist.append_left (List.sublist_cons_self s after) _
      rw [removesExactly_iff_kept hf he hends hkept hfile halike]
      exact kept_eq_others_iff hs hpath hbefore

/-- A key with one below it, and another key. -/
def family (other : JavaString) : RegistryFile :=
  ⟨[], [⟨ascii "A", ascii " 1", [[]]⟩, ⟨ascii "A\\\\B", ascii " 2", [[]]⟩,
    ⟨other, ascii " 3", [ascii "@=\"x\""]⟩]⟩

theorem family_wellFormed {other : JavaString}
    (h : ∀ l ∈ (family other).lines, OneLine l ∧ Paired l) (hpath : closedPath other = true) :
    (family other).WellFormed := by
  have heach : ∀ s ∈ (family other).sections,
      (∀ l ∈ s.body, ¬[0x5B] <+: l) ∧ 0x5D ∉ s.stamp ∧
        (s.path = other ∨ closedPath s.path = true) := by
    intro s hs
    simp only [family, List.mem_cons, List.not_mem_nil, or_false] at hs
    rcases hs with rfl | rfl | rfl
    · exact ⟨by decide, by decide, .inr (by decide)⟩
    · exact ⟨by decide, by decide, .inr (by decide)⟩
    · exact ⟨show ∀ l ∈ [ascii "@=\"x\""], ¬[0x5B] <+: l by decide,
        show 0x5D ∉ ascii " 3" by decide, .inl rfl⟩
  refine ⟨h, by simp [family], fun s hs => (heach s hs).1, fun s hs => ⟨?_, (heach s hs).2.1⟩⟩
  rcases (heach s hs).2.2 with heq | hclosed
  · rw [heq]
    exact hpath
  · exact hclosed

/-- The other key is left. -/
theorem removeKey_exact_family :
    RemovesExactly (family (ascii "B")) (WineRegistryEditor.new (family (ascii "B")).text)
      (ascii "A") true := by
  apply (removeKey_exact_iff (family_wellFormed (by decide) (by decide)) rfl _ true).mpr
  exact (remaining_eq_iff _ _).mp rfl

/-- A key that starts like the name of the tree goes with it. -/
theorem removes_sibling :
    ¬∀ (f : RegistryFile) (e : WineRegistryEditor), f.WellFormed → e.cloneFile = f.text →
      ∀ key tree, RemovesExactly f e key tree := by
  intro h
  have hremoves := h (family (ascii "AB")) (WineRegistryEditor.new (family (ascii "AB")).text)
    (family_wellFormed (by decide) (by decide)) rfl (ascii "A") true
  have hvalue := hremoves.values (ascii "AB") none (by decide)
  revert hvalue
  decide +kernel

/-! ## Files with blank lines between the sections -/

/-- The search does not stand inside the line of the section. -/
def Outside : Scan → Prop
  | .loose _ blanks => blanks ≠ 0
  | _ => True

theorem Outside.line (h : Outside scan) (s : RegistrySection) : scan.line s = s.head := by
  cases scan with
  | seeking before => rfl
  | fixed => rfl
  | loose units blanks =>
    cases blanks with
    | zero => exact absurd rfl h
    | succ blanks => rfl

/-- Blank lines that stay keep the search outside. -/
theorem outside_next (scan : Scan) (hblanks : blanksOf s.body ≠ []) : Outside (scan.next key s) := by
  have hpos := List.length_pos_of_ne_nil hblanks
  unfold Scan.next
  split_ifs
  · cases scan with
    | seeking before =>
      simp only [Scan.removed]
      split_ifs
      · trivial
      · exact Nat.ne_of_gt hpos
      · trivial
    | fixed => trivial
    | loose units blanks =>
      simp only [Scan.removed, Outside]
      omega
  · cases scan with
    | seeking before =>
      simp only [Scan.passed]
      split_ifs <;> trivial
    | fixed => trivial
    | loose units blanks => trivial

theorem outside_scan (before : List RegistrySection) (hblanks : ∀ s ∈ before, blanksOf s.body ≠ []) :
    Outside (before.foldl (Scan.next key) (Scan.start key f)) := by
  induction before using List.reverseRecOn with
  | nil =>
    simp only [List.foldl_nil, Scan.start]
    split_ifs <;> trivial
  | append_singleton before s ih =>
    rw [List.foldl_append]
    exact outside_next _ (hblanks s (by simp))

theorem keyText_of_named {tree : Bool} (h : Named key tree s.path) : keyText key true <+: s.head := by
  rcases h with h | ⟨-, x, hx⟩
  · exact ⟨0x5D :: s.stamp, by simp [keyText, RegistrySection.head, h]⟩
  · refine ⟨escape [0x5C] ++ x ++ 0x5D :: s.stamp, ?_⟩
    rw [RegistrySection.head, ← hx]
    simp [keyText]

/-- With a blank line behind every section but the last, a tree is removed exactly when no other line
starts with the key. -/
theorem clean_iff_of_blanks (hblanks : ∀ s ∈ f.sections.dropLast, blanksOf s.body ≠ []) :
    Clean f key true ↔ ∀ s ∈ f.sections, keyText key true <+: s.head → Named key true s.path := by
  have hline : ∀ before s after, f.sections = before ++ s :: after →
      ((before.foldl (Scan.next key) (Scan.start key f)).Hits key s ↔ keyText key true <+: s.head) := by
    intro before s after hs
    have houtside : Outside (before.foldl (Scan.next key) (Scan.start key f)) := by
      apply outside_scan
      intro t ht
      apply hblanks
      rw [hs, List.dropLast_append_of_ne_nil (by simp)]
      exact List.mem_append_left _ ht
    rw [Scan.Hits, houtside.line]
  constructor
  · intro h s hs hhits
    obtain ⟨before, after, heq⟩ := List.append_of_mem hs
    exact (h before s after heq).mp ((hline before s after heq).mpr hhits)
  · intro h before s after heq
    rw [hline before s after heq]
    exact ⟨h s (by rw [heq]; simp), keyText_of_named⟩

end RegistryTree

end XoDos
