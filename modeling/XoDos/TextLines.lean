import XoDos.Ime

/-!
# Text files

A text file is read in lines and written as UTF-8.  Offsets into it count code units; a line and
its end take one unit more than the line has.
-/

namespace XoDos

/-! ## Lines -/

/-- The lines that `readLine` returns, with the start of the first one given. -/
def linesFrom (line : JavaString) : JavaString → List JavaString
  | [] => if line = [] then [] else [line]
  | 0x0A :: rest => line :: linesFrom [] rest
  | 0x0D :: 0x0A :: rest => line :: linesFrom [] rest
  | 0x0D :: rest => line :: linesFrom [] rest
  | c :: rest => linesFrom (line ++ [c]) rest

def linesOf (text : JavaString) : List JavaString := linesFrom [] text

/-- Every line with its end. -/
def unlines (lines : List JavaString) : JavaString := lines.flatMap (· ++ [0x0A])

/-- A text without an end of line. -/
def OneLine (line : JavaString) : Prop := ∀ c ∈ line, c ≠ 0x0A ∧ c ≠ 0x0D

instance (line : JavaString) : Decidable (OneLine line) :=
  inferInstanceAs (Decidable (∀ c ∈ line, c ≠ 0x0A ∧ c ≠ 0x0D))

@[simp] theorem unlines_nil : unlines [] = [] := rfl

@[simp] theorem unlines_cons (line : JavaString) (lines : List JavaString) :
    unlines (line :: lines) = line ++ 0x0A :: unlines lines := by
  simp [unlines]

@[simp] theorem unlines_append (l m : List JavaString) :
    unlines (l ++ m) = unlines l ++ unlines m := List.flatMap_append

theorem linesFrom_oneLine {line : JavaString} (h : OneLine line) (start rest : JavaString) :
    linesFrom start (line ++ 0x0A :: rest) = (start ++ line) :: linesOf rest := by
  induction line generalizing start with
  | nil => simp [linesFrom, linesOf]
  | cons c line ih =>
    obtain ⟨h₁, h₂⟩ := h c (by simp)
    have hline : OneLine line := fun d hd => h d (by simp [hd])
    rw [List.cons_append, linesFrom, ih hline, List.append_assoc, List.singleton_append]
    · exact fun h => h₁ h
    · exact fun _ h _ => h₂ h
    · exact fun h => h₂ h

/-- A whole line is read. -/
theorem linesOf_cons {line : JavaString} (h : OneLine line) (rest : JavaString) :
    linesOf (line ++ 0x0A :: rest) = line :: linesOf rest := by
  exact linesFrom_oneLine h [] rest

/-- Whole lines are read one after the other. -/
theorem linesOf_unlines {lines : List JavaString} (h : ∀ l ∈ lines, OneLine l)
    (rest : JavaString) : linesOf (unlines lines ++ rest) = lines ++ linesOf rest := by
  induction lines with
  | nil => rfl
  | cons line lines ih =>
    rw [unlines_cons, List.append_assoc, List.cons_append, linesOf_cons (h line (by simp)),
      ih fun l hl => h l (by simp [hl]), List.cons_append]

/-- The last line ends as well. -/
theorem unlines_dropLast {lines : List JavaString} (h : lines ≠ []) :
    (unlines lines).dropLast ++ [0x0A] = unlines lines := by
  induction lines using List.reverseRecOn with
  | nil => exact absurd rfl h
  | append_singleton lines line ih =>
    rw [unlines_append, unlines_cons, unlines_nil, ← List.append_assoc, List.dropLast_concat,
      List.append_assoc]

theorem linesFrom_last {line : JavaString} (h : OneLine line) (start : JavaString) :
    linesFrom start line = if start ++ line = [] then [] else [start ++ line] := by
  induction line generalizing start with
  | nil => simp [linesFrom]
  | cons c line ih =>
    obtain ⟨h₁, h₂⟩ := h c (by simp)
    rw [linesFrom, ih fun d hd => h d (by simp [hd]), List.append_assoc, List.singleton_append]
    · exact fun h => h₁ h
    · exact fun _ h _ => h₂ h
    · exact fun h => h₂ h

/-- A last line that does not end. -/
theorem linesOf_last {line : JavaString} (h : OneLine line) :
    linesOf line = if line = [] then [] else [line] := linesFrom_last h []

theorem first_line {text : JavaString} (h : 0x0D ∉ text) :
    OneLine text ∨ ∃ line rest, OneLine line ∧ text = line ++ 0x0A :: rest := by
  induction text with
  | nil => exact .inl (by simp [OneLine])
  | cons c text ih =>
    rw [List.mem_cons, not_or] at h
    by_cases hc : c = 0x0A
    · exact .inr ⟨[], text, by simp [OneLine], by rw [hc]; rfl⟩
    · have hone : ∀ line, OneLine line → OneLine (c :: line) := by
        intro line hline d hd
        rcases List.mem_cons.mp hd with rfl | hd
        · exact ⟨hc, Ne.symm h.1⟩
        · exact hline d hd
      rcases ih h.2 with ih | ⟨line, rest, hline, rfl⟩
      · exact .inl (hone text ih)
      · exact .inr ⟨c :: line, rest, hone line hline, rfl⟩

/-- The lines of a text make it up, but for the end of the last one. -/
theorem unlines_linesOf {text : JavaString} (h : 0x0D ∉ text) :
    (∀ l ∈ linesOf text, OneLine l) ∧
      (text = unlines (linesOf text) ∨ text ++ [0x0A] = unlines (linesOf text)) := by
  induction hn : text.length using Nat.strong_induction_on generalizing text with
  | _ n ih =>
    rcases first_line h with hone | ⟨line, rest, hline, rfl⟩
    · rw [linesOf_last hone]
      split_ifs with hnil
      · simp [hnil]
      · simpa using hone
    · have hlen : rest.length < n := by
        rw [← hn]
        simp
        omega
      obtain ⟨hall, heq⟩ := ih rest.length hlen (fun hc => h (by simp [hc])) rfl
      rw [linesOf_cons hline]
      refine ⟨by simpa using ⟨hline, hall⟩, ?_⟩
      rcases heq with heq | heq
      · exact .inl (by rw [unlines_cons, ← heq])
      · exact .inr (by rw [unlines_cons, ← heq]; simp)

/-- Where a line of the text stands. -/
theorem text_at_line {text : JavaString} (h : 0x0D ∉ text) {pre post : List JavaString}
    {line : JavaString} (hlines : linesOf text = pre ++ line :: post) :
    ∃ tail, text = unlines pre ++ (line ++ tail) ∧ (tail = [] ∨ ∃ t, tail = 0x0A :: t) := by
  obtain ⟨-, heq⟩ := unlines_linesOf h
  rw [hlines, unlines_append, unlines_cons] at heq
  rcases heq with heq | heq
  · exact ⟨0x0A :: unlines post, heq, .inr ⟨_, rfl⟩⟩
  · cases post with
    | nil =>
      refine ⟨[], ?_, .inl rfl⟩
      rw [unlines_nil, ← List.append_assoc] at heq
      rw [List.append_nil]
      exact List.append_cancel_right heq
    | cons next post =>
      have hlast := unlines_dropLast (List.cons_ne_nil next post)
      refine ⟨0x0A :: (unlines (next :: post)).dropLast, ?_, .inr ⟨_, rfl⟩⟩
      rw [← hlast] at heq
      apply @List.append_cancel_right _ _ [0x0A]
      rw [heq]
      simp

/-- Behind whole lines, but for the last end of line, there is that end or nothing. -/
theorem drop_lines {text : JavaString} (h : 0x0D ∉ text) {lines rest : List JavaString}
    (hlines : linesOf text = lines ++ rest) (hne : lines ≠ []) :
    text.drop ((unlines lines).length - 1) = [] ∨
      ∃ t, text.drop ((unlines lines).length - 1) = 0x0A :: t := by
  obtain ⟨pre, line, rfl⟩ := (List.eq_nil_or_concat lines).resolve_left hne
  rw [List.concat_eq_append] at hlines ⊢
  rw [List.append_assoc, List.singleton_append] at hlines
  obtain ⟨tail, rfl, htail⟩ := text_at_line h hlines
  have hdrop : (unlines pre ++ (line ++ tail)).drop ((unlines (pre ++ [line])).length - 1) = tail := by
    rw [← List.append_assoc]
    apply List.drop_left'
    simp only [unlines_append, unlines_cons, unlines_nil, List.length_append, List.length_cons,
      List.length_nil]
    omega
  rw [hdrop]
  exact htail

/-! ## Half pairs -/

/-- What a text becomes that is written and read again: half a pair becomes a question mark. -/
def rewritten : JavaString → JavaString
  | [] => []
  | [u] => [if isSurrogate u then 0x3F else u]
  | u :: l :: rest =>
    if isHighSurrogate u ∧ isSurrogate l ∧ ¬isHighSurrogate l then u :: l :: rewritten rest
    else (if isSurrogate u then 0x3F else u) :: rewritten (l :: rest)

/-- Every half of a pair has its other half. -/
def Paired (text : JavaString) : Prop := rewritten text = text

instance (text : JavaString) : Decidable (Paired text) :=
  inferInstanceAs (Decidable (rewritten text = text))

theorem isSurrogate_of_high {u : Nat} (h : isHighSurrogate u = true) : isSurrogate u = true := by
  simp only [isHighSurrogate, isSurrogate, Bool.and_eq_true, decide_eq_true_eq] at h ⊢
  omega

/-- A unit that is not half a pair is written as it is. -/
theorem rewritten_cons {u : Nat} (h : isSurrogate u = false) (rest : JavaString) :
    rewritten (u :: rest) = u :: rewritten rest := by
  cases rest with
  | nil => simp [rewritten, h]
  | cons l rest =>
    have hhigh : ¬(isHighSurrogate u = true ∧ isSurrogate l = true ∧ ¬isHighSurrogate l = true) := by
      intro hc
      rw [isSurrogate_of_high hc.1] at h
      cases h
    rw [rewritten, if_neg hhigh, if_neg (by simp [h])]

theorem unit_fixed {u : Nat} (h : (if isSurrogate u then 0x3F else u) = u) :
    isSurrogate u = false := by
  by_contra hs
  rw [Bool.not_eq_false] at hs
  rw [if_pos hs] at h
  subst h
  exact absurd hs (by decide)

/-- Whole pairs stay what they are whatever comes next. -/
theorem Paired.rewritten_append {text : JavaString} (h : Paired text) (rest : JavaString) :
    rewritten (text ++ rest) = text ++ rewritten rest := by
  induction text using rewritten.induct with
  | case1 => rfl
  | case2 u =>
    have hu : isSurrogate u = false := unit_fixed (by simpa [Paired, rewritten] using h)
    exact rewritten_cons hu rest
  | case3 u l tail hpair ih =>
    have htail : Paired tail := by simpa [Paired, rewritten, hpair] using h
    rw [List.cons_append, List.cons_append, rewritten, if_pos hpair, ih htail]
    rfl
  | case4 u l tail hpair ih =>
    unfold Paired at h
    rw [rewritten, if_neg hpair, List.cons_eq_cons] at h
    rw [List.cons_append, rewritten_cons (unit_fixed h.1), ih h.2]
    rfl

theorem Paired.append {text rest : JavaString} (h : Paired text) (h' : Paired rest) :
    Paired (text ++ rest) := by
  rw [Paired, h.rewritten_append, h']

theorem paired_nil : Paired [] := rfl

theorem paired_cons {u : Nat} (hu : isSurrogate u = false) {text : JavaString} (h : Paired text) :
    Paired (u :: text) := by
  rw [Paired, rewritten_cons hu, h]

theorem paired_of_ascii {text : JavaString} (h : ∀ c ∈ text, c < 0x80) : Paired text := by
  induction text with
  | nil => rfl
  | cons c text ih =>
    have hc := h c (by simp)
    refine paired_cons ?_ (ih fun d hd => h d (by simp [hd]))
    simp only [isSurrogate, Bool.and_eq_false_iff, decide_eq_false_iff_not]
    omega

theorem paired_unlines {lines : List JavaString} (h : ∀ l ∈ lines, Paired l) :
    Paired (unlines lines) := by
  induction lines with
  | nil => rfl
  | cons line lines ih =>
    rw [unlines_cons]
    exact (h line (by simp)).append
      (paired_cons (by decide) (ih fun l hl => h l (by simp [hl])))

theorem length_rewritten (text : JavaString) : (rewritten text).length = text.length := by
  induction text using rewritten.induct with
  | case1 => rfl
  | case2 u => rfl
  | case3 u l rest hpair ih => simp [rewritten, hpair, ih]
  | case4 u l rest hpair ih => rw [rewritten, if_neg hpair, List.length_cons, ih]; rfl

theorem mem_rewritten {c : Nat} {text : JavaString} (h : c ∈ rewritten text) :
    c = 0x3F ∨ c ∈ text := by
  induction text using rewritten.induct with
  | case1 => simp [rewritten] at h
  | case2 u =>
    rw [rewritten, List.mem_singleton] at h
    split_ifs at h
    · exact .inl h
    · exact .inr (by simp [h])
  | case3 u l rest hpair ih =>
    rw [rewritten, if_pos hpair, List.mem_cons, List.mem_cons] at h
    rcases h with h | h | h
    · exact .inr (by simp [h])
    · exact .inr (by simp [h])
    · exact (ih h).imp id fun h => by simp [h]
  | case4 u l rest hpair ih =>
    rw [rewritten, if_neg hpair, List.mem_cons] at h
    rcases h with h | h
    · split_ifs at h
      · exact .inl h
      · exact .inr (by simp [h])
    · exact (ih h).imp id fun h => List.mem_cons_of_mem _ h

theorem paired_rewritten (text : JavaString) : Paired (rewritten text) := by
  induction text using rewritten.induct with
  | case1 => rfl
  | case2 u =>
    rw [rewritten]
    split_ifs with h
    · decide
    · exact paired_cons (by simpa using h) paired_nil
  | case3 u l rest hpair ih =>
    rw [rewritten, if_pos hpair, Paired, rewritten, if_pos hpair, ih]
  | case4 u l rest hpair ih =>
    rw [rewritten, if_neg hpair]
    refine paired_cons ?_ ih
    split_ifs with h
    · decide
    · simpa using h

/-- A text is rewritten before and behind an end of line. -/
theorem rewritten_newline (text rest : JavaString) :
    rewritten (text ++ 0x0A :: rest) = rewritten text ++ 0x0A :: rewritten rest := by
  induction text using rewritten.induct with
  | case1 => exact rewritten_cons (by decide) rest
  | case2 u =>
    have hpair : ¬(isHighSurrogate u = true ∧ isSurrogate 0x0A = true ∧
        ¬isHighSurrogate 0x0A = true) := fun h => absurd h.2.1 (by decide)
    have hone : rewritten [u] = [if isSurrogate u then 0x3F else u] := rfl
    rw [List.singleton_append, hone, rewritten, if_neg hpair, rewritten_cons (by decide)]
    rfl
  | case3 u l tail hpair ih =>
    rw [List.cons_append, List.cons_append, rewritten, if_pos hpair, ih, rewritten, if_pos hpair]
    rfl
  | case4 u l tail hpair ih =>
    rw [List.cons_append, List.cons_append, rewritten, if_neg hpair, ← List.cons_append, ih,
      rewritten, if_neg hpair]
    rfl

theorem paired_newline {text rest : JavaString} :
    Paired (text ++ 0x0A :: rest) ↔ Paired text ∧ Paired rest := by
  constructor
  · intro h
    rw [Paired, rewritten_newline] at h
    obtain ⟨h₁, h₂⟩ := List.append_inj h (length_rewritten text)
    exact ⟨h₁, (List.cons_eq_cons.mp h₂).2⟩
  · rintro ⟨h₁, h₂⟩
    exact h₁.append (paired_cons (by decide) h₂)

/-- Whole lines of a text are paired as the text is. -/
theorem Paired.of_unlines {lines : List JavaString} {rest : JavaString}
    (h : Paired (unlines lines ++ rest)) : Paired (unlines lines) ∧ Paired rest := by
  induction lines with
  | nil => exact ⟨rfl, h⟩
  | cons line lines ih =>
    rw [unlines_cons, List.append_assoc, List.cons_append, paired_newline] at h
    rw [unlines_cons, paired_newline]
    exact ⟨⟨h.1, (ih h.2).1⟩, (ih h.2).2⟩

/-- ASCII takes one byte a unit. -/
theorem length_getBytes_ascii {text : JavaString} (h : ∀ c ∈ text, c < 0x80) :
    (getBytes text).length = text.length := by
  induction text using getBytes.induct with
  | case1 => rfl
  | case2 u =>
    have hu := h u (by simp)
    have hs : isSurrogate u = false := by simp [isSurrogate]; omega
    simp [getBytes, encodeUnit, hs, Utf8.encode, hu]
  | case3 u l rest hpair ih =>
    have hu := h u (by simp)
    have hh := hpair.1
    simp only [isHighSurrogate, Bool.and_eq_true, decide_eq_true_eq] at hh
    omega
  | case4 u l rest hpair ih =>
    have hu := h u (by simp)
    have hs : isSurrogate u = false := by simp [isSurrogate]; omega
    rw [getBytes, if_neg hpair, List.length_append, ih fun c hc => h c (by simp [hc])]
    simp [encodeUnit, hs, Utf8.encode, hu]
    omega

/-- No text takes fewer bytes than it has units. -/
theorem length_le_getBytes (text : JavaString) : text.length ≤ (getBytes text).length := by
  have hencode : ∀ c, 1 ≤ (Utf8.encode c).length := by
    intro c
    unfold Utf8.encode
    split_ifs <;> simp
  have hunit : ∀ u, 1 ≤ (encodeUnit u).length := by
    intro u
    unfold encodeUnit
    split_ifs
    · simp
    · exact hencode u
  induction text using getBytes.induct with
  | case1 => exact le_rfl
  | case2 u => exact hunit u
  | case3 u l rest hpair ih =>
    have hpairBytes : (Utf8.encode (toCodePoint u l)).length = 4 := by
      have h₁ := hpair.1
      have h₂ := hpair.2.1
      have h₃ := hpair.2.2
      simp only [isHighSurrogate, isSurrogate, Bool.and_eq_true, decide_eq_true_eq] at h₁ h₂ h₃
      unfold Utf8.encode toCodePoint
      rw [if_neg (by omega), if_neg (by omega), if_neg (by omega)]
      rfl
    rw [getBytes, if_pos hpair, List.length_append, hpairBytes]
    simp only [List.length_cons]
    omega
  | case4 u l rest hpair ih =>
    have hu := hunit u
    rw [getBytes, if_neg hpair, List.length_append]
    simp only [List.length_cons] at ih ⊢
    omega

end XoDos
