import XoDos.Cells

/-!
# Scanning a row

What `findStartOfColumn` and `wideDisplayCharacterStartingAt` compute on a row
that spells cells.  Each loop is first described on one code point, then on the
zero-width characters of a cell, then by induction on the cells it passes.
-/

namespace XoDos

open WcWidth (width)

namespace TerminalRow

/-! ## Skipping combining characters -/

theorem skipCombining_zero {m : Nat} (hm : isScalar m = true) (hw : width m = 0) {su i : Int}
    (hi : i < su) (rest : List Nat) :
    skipCombining su (toChars m ++ rest) i = skipCombining su rest (i + charCount m) := by
  obtain ⟨h, hh, hc⟩ | ⟨hi', lo, h, hh, hcp, hc⟩ := toChars_cases hm
  · rw [h, hc, List.singleton_append, skipCombining.eq_def]
    simp [hi, hh, hw]
  · rw [h, hc, List.cons_append, List.singleton_append, skipCombining.eq_def]
    simp [hi, hh, hcp, hw]

theorem skipCombining_marks {marks : List Nat} (h : ∀ m ∈ marks, isScalar m = true ∧ width m = 0)
    {su i : Int} (hi : i + (spell marks).length ≤ su) (rest : List Nat) :
    skipCombining su (spell marks ++ rest) i = skipCombining su rest (i + (spell marks).length) := by
  induction marks generalizing i with
  | nil => simp
  | cons m marks ih =>
    have hm := h m (by simp)
    have := charCount_pos m
    simp only [spell_cons, List.length_append, toChars_length, Nat.cast_add] at hi ⊢
    rw [List.append_assoc, skipCombining_zero hm.1 hm.2 (by omega),
      ih (fun n hn => h n (by simp [hn])) (by omega), add_assoc]

theorem skipCombining_stop {c : Nat} (hc : isScalar c = true) (hw : 0 < width c) {su i : Int}
    (rest : List Nat) : skipCombining su (toChars c ++ rest) i = .ok i := by
  rw [skipCombining.eq_def]
  by_cases hi : i < su
  · obtain ⟨h, hh, -⟩ | ⟨hi', lo, h, hh, hcp, -⟩ := toChars_cases hc
    · simp [hi, h, hh, not_le.mpr hw]
    · simp [hi, h, hh, hcp, not_le.mpr hw]
  · simp [hi]

/-- After the marks of a cell the scan stops, at the next cell or at the end of the text. -/
theorem skipCombining_cell {marks : List Nat} (h : ∀ m ∈ marks, isScalar m = true ∧ width m = 0)
    (post : List Cell) (slack : List Nat) {su i : Int}
    (hsu : su = i + (spell marks).length + (encode post).length) :
    skipCombining su (spell marks ++ (encode post ++ slack)) i =
      .ok (i + (spell marks).length) := by
  rw [skipCombining_marks h (by omega)]
  cases post with
  | nil =>
    rw [skipCombining.eq_def]
    dsimp only
    rw [if_neg]
    simp only [encode_nil, List.length_nil] at hsu
    omega
  | cons c post =>
    rw [encode_cons, Cell.chars, List.append_assoc, List.append_assoc]
    exact skipCombining_stop c.base_isScalar c.base_width _

/-! ## Finding a column -/

theorem findStartLoop_codePoint {c : Nat} (hc : isScalar c = true) (su column i col : Int)
    (rest : List Nat) :
    findStartLoop su column (toChars c ++ rest) i col =
      if 0 < width c then
        if col + width c = column then skipCombining su rest (i + charCount c)
        else if column < col + width c then .ok i
        else findStartLoop su column rest (i + charCount c) (col + width c)
      else findStartLoop su column rest (i + charCount c) col := by
  obtain ⟨h, hh, hcc⟩ | ⟨hi, lo, h, hh, hcp, hcc⟩ := toChars_cases hc
  · rw [h, hcc, List.singleton_append, findStartLoop.eq_def]
    simp [hh]
  · rw [h, hcc, List.cons_append, List.singleton_append, findStartLoop.eq_def]
    simp [hh, hcp]

theorem findStartLoop_marks {marks : List Nat} (h : ∀ m ∈ marks, isScalar m = true ∧ width m = 0)
    (su column i col : Int) (rest : List Nat) :
    findStartLoop su column (spell marks ++ rest) i col =
      findStartLoop su column rest (i + (spell marks).length) col := by
  induction marks generalizing i with
  | nil => simp
  | cons m marks ih =>
    have hm := h m (by simp)
    rw [spell_cons, List.append_assoc, findStartLoop_codePoint hm.1, if_neg (by omega),
      ih (fun n hn => h n (by simp [hn]))]
    simp only [List.length_append, toChars_length, Nat.cast_add, add_assoc]

/-- The scan passes a cell that ends before the column sought. -/
theorem findStartLoop_cell (c : Cell) {su column i col : Int} (h : col + c.columns < column)
    (rest : List Nat) :
    findStartLoop su column (c.chars ++ rest) i col =
      findStartLoop su column rest (i + c.chars.length) (col + c.columns) := by
  have hw := c.base_width
  have hc : c.columns = width c.base := rfl
  rw [Cell.chars, List.append_assoc, findStartLoop_codePoint c.base_isScalar, if_pos hw,
    if_neg (by omega), if_neg (by omega), findStartLoop_marks c.marks_zero]
  simp only [List.length_append, toChars_length, Nat.cast_add, add_assoc, hc]

/-- The scan for the first column of a cell ends where that cell starts. -/
theorem findStartLoop_boundary (pre : List Cell) {post : List Cell} (hpost : pre = [] → post ≠ [])
    (slack : List Nat) {su column i col : Int} (hcol : col + totalColumns pre = column)
    (hsu : su = i + (encode pre).length + (encode post).length) :
    findStartLoop su column (encode pre ++ (encode post ++ slack)) i col =
      .ok (i + (encode pre).length) := by
  induction pre generalizing i col with
  | nil =>
    obtain ⟨c, post, rfl⟩ := List.exists_cons_of_ne_nil (hpost rfl)
    have hw := c.base_width
    simp only [totalColumns_nil] at hcol
    rw [encode_nil, List.nil_append, encode_cons, Cell.chars, List.append_assoc, List.append_assoc,
      findStartLoop_codePoint c.base_isScalar, if_pos hw, if_neg (by omega), if_pos (by omega)]
    simp
  | cons c pre ih =>
    simp only [totalColumns_cons] at hcol
    simp only [encode_cons, List.length_append, Nat.cast_add] at hsu ⊢
    rw [List.append_assoc]
    by_cases hpre : pre = []
    · subst hpre
      have hw := c.base_width
      have hc : c.columns = width c.base := rfl
      simp only [totalColumns_nil, encode_nil, List.length_nil, Nat.cast_zero, add_zero] at hcol hsu ⊢
      have hl : (c.chars.length : Int) = charCount c.base + (spell c.marks).length := by
        simp [Cell.chars]
      rw [Cell.chars, List.append_assoc, findStartLoop_codePoint c.base_isScalar, if_pos hw,
        if_pos (by omega), List.nil_append, skipCombining_cell c.marks_zero post slack (by omega)]
      simp only [List.length_append, toChars_length, Nat.cast_add, add_assoc]
    · have := totalColumns_pos hpre
      rw [findStartLoop_cell c (by omega), ih (fun h => absurd h hpre) (by omega) (by omega), add_assoc]

/-- The scan for the second column of a wide cell ends where that cell starts. -/
theorem findStartLoop_second (pre : List Cell) {c : Cell} (hc : c.columns = 2) (rest : List Nat)
    {su column i col : Int} (hcol : col + totalColumns pre + 1 = column) :
    findStartLoop su column (encode pre ++ (c.chars ++ rest)) i col =
      .ok (i + (encode pre).length) := by
  induction pre generalizing i col with
  | nil =>
    have hw : width c.base = 2 := hc
    simp only [totalColumns_nil, add_zero] at hcol
    rw [encode_nil, List.nil_append, Cell.chars, List.append_assoc,
      findStartLoop_codePoint c.base_isScalar, if_pos (by omega), if_neg (by omega),
      if_pos (by omega)]
    simp
  | cons d pre ih =>
    simp only [totalColumns_cons] at hcol
    have := totalColumns_nonneg pre
    simp only [encode_cons, List.length_append, Nat.cast_add]
    rw [List.append_assoc, findStartLoop_cell d (by omega), ih (by omega), add_assoc]

/-! ## Finding wide characters -/

theorem wideLoop_codePoint {c : Nat} (hc : isScalar c = true) {su i : Int} (hi : i < su)
    (column col : Int) (rest : List Nat) :
    wideLoop su column (toChars c ++ rest) i col =
      if 0 < width c then
        if col = column ∧ width c = 2 then .ok true
        else if column < col + width c then .ok false
        else wideLoop su column rest (i + charCount c) (col + width c)
      else wideLoop su column rest (i + charCount c) col := by
  obtain ⟨h, hh, hcc⟩ | ⟨hi', lo, h, hh, hcp, hcc⟩ := toChars_cases hc
  · rw [h, hcc, List.singleton_append, wideLoop.eq_def]
    simp [hi, hh]
  · rw [h, hcc, List.cons_append, List.singleton_append, wideLoop.eq_def]
    simp [hi, hh, hcp]

theorem wideLoop_marks {marks : List Nat} (h : ∀ m ∈ marks, isScalar m = true ∧ width m = 0)
    {su i : Int} (hi : i + (spell marks).length ≤ su) (column col : Int) (rest : List Nat) :
    wideLoop su column (spell marks ++ rest) i col =
      wideLoop su column rest (i + (spell marks).length) col := by
  induction marks generalizing i with
  | nil => simp
  | cons m marks ih =>
    have hm := h m (by simp)
    have := charCount_pos m
    simp only [spell_cons, List.length_append, toChars_length, Nat.cast_add] at hi ⊢
    rw [List.append_assoc, wideLoop_codePoint hm.1 (by omega), if_neg (by omega),
      ih (fun n hn => h n (by simp [hn])) (by omega), add_assoc]

/-- On a row of cells the loop answers whether a wide cell starts at the column. -/
theorem wideLoop_eq (cells : List Cell) (slack : List Nat) {su column i col : Int}
    (hcol : col ≤ column) (hsu : su = i + (encode cells).length) :
    ∃ b, wideLoop su column (encode cells ++ slack) i col = .ok b ∧
      (b = true ↔ ∃ pre c post, cells = pre ++ c :: post ∧ c.columns = 2 ∧
        col + totalColumns pre = column) := by
  induction cells generalizing i col with
  | nil =>
    refine ⟨false, ?_, by simp⟩
    rw [wideLoop.eq_def]
    dsimp only
    rw [if_neg]
    simp only [encode_nil, List.length_nil] at hsu
    omega
  | cons c cells ih =>
    have hw := c.base_width
    have hl : (c.chars.length : Int) = charCount c.base + (spell c.marks).length := by
      simp [Cell.chars]
    have hcc := charCount_pos c.base
    have hcw : c.columns = width c.base := rfl
    simp only [encode_cons, List.length_append, Nat.cast_add] at hsu
    rw [encode_cons, List.append_assoc, Cell.chars, List.append_assoc,
      wideLoop_codePoint c.base_isScalar (by omega), if_pos hw]
    by_cases h₁ : col = column ∧ width c.base = 2
    · rw [if_pos h₁]
      exact ⟨true, rfl, fun _ => ⟨[], c, cells, rfl, h₁.2, by simpa using h₁.1⟩, fun _ => rfl⟩
    rw [if_neg h₁]
    by_cases h₂ : column < col + width c.base
    · rw [if_pos h₂]
      refine ⟨false, rfl, ?_⟩
      simp only [Bool.false_eq_true, false_iff]
      rintro ⟨pre, d, post, he, hd, hp⟩
      -- A cell that starts at `column` can only be the one we stand on.
      cases pre with
      | nil =>
        rw [List.nil_append, List.cons.injEq] at he
        obtain ⟨rfl, -⟩ := he
        exact h₁ ⟨by simpa using hp, hd⟩
      | cons e pre =>
        rw [List.cons_append, List.cons.injEq] at he
        obtain ⟨rfl, -⟩ := he
        have := totalColumns_nonneg pre
        rw [totalColumns_cons] at hp
        omega
    · rw [if_neg h₂, wideLoop_marks c.marks_zero (by omega)]
      obtain ⟨b, hb, hiff⟩ := @ih (i + charCount c.base + (spell c.marks).length)
        (col + width c.base) (by omega) (by omega)
      refine ⟨b, hb, hiff.trans ⟨?_, ?_⟩⟩
      · rintro ⟨pre, d, post, rfl, hd, hp⟩
        exact ⟨c :: pre, d, post, rfl, hd, by rw [totalColumns_cons]; omega⟩
      · rintro ⟨pre, d, post, he, hd, hp⟩
        cases pre with
        | nil =>
          rw [List.nil_append, List.cons.injEq] at he
          obtain ⟨rfl, -⟩ := he
          exact absurd ⟨by simpa using hp, hd⟩ h₁
        | cons e pre =>
          rw [List.cons_append, List.cons.injEq] at he
          obtain ⟨rfl, rfl⟩ := he
          rw [totalColumns_cons] at hp
          exact ⟨pre, d, post, rfl, hd, by omega⟩

/-! ## The scan for a column to the right goes further -/

section

variable {su k k' i a b col : Int} {rest : List Nat}

/-- Either scan takes one code point of width `w` in `d` units, or runs out of the array. -/
theorem scan_cases (rest : List Nat) :
    (∀ su k i col, findStartLoop su k rest i col = .error .arrayIndexOutOfBounds) ∨
      ∃ (w d : Int) (rest' : List Nat), 0 < d ∧ rest'.length < rest.length ∧
        (∀ su k i col, findStartLoop su k rest i col =
          if 0 < w then
            if col + w = k then skipCombining su rest' (i + d)
            else if k < col + w then .ok i
            else findStartLoop su k rest' (i + d) (col + w)
          else findStartLoop su k rest' (i + d) col) ∧
        (∀ su i, skipCombining su rest i =
          if i < su then if w ≤ 0 then skipCombining su rest' (i + d) else .ok i else .ok i) := by
  cases rest with
  | nil => exact .inl fun _ _ _ _ => rfl
  | cons c rest =>
    by_cases hc : isHighSurrogate c = true
    · cases rest with
      | nil => exact .inl fun _ _ _ _ => by simp [findStartLoop, hc]
      | cons low rest =>
        refine .inr ⟨width (toCodePoint c low), 2, rest, by simp, by simp, fun su k i col => ?_,
          fun su i => ?_⟩
        · rw [findStartLoop.eq_def]
          simp [hc]
        · rw [skipCombining.eq_def]
          simp [hc]
    · refine .inr ⟨width c, 1, rest, by simp, by simp, fun su k i col => ?_, fun su i => ?_⟩
      · rw [findStartLoop.eq_def]
        simp [hc]
      · rw [skipCombining.eq_def]
        simp [hc]

theorem skipCombining_ge (h : skipCombining su rest i = .ok a) : i ≤ a := by
  fun_induction skipCombining su rest i <;> grind

theorem findStartLoop_ge (h : findStartLoop su k rest i col = .ok a) : i ≤ a := by
  fun_induction findStartLoop su k rest i col <;> grind [→ skipCombining_ge]

/-- The combining characters are also passed on the way to a column further right. -/
theorem skipCombining_le (ha : skipCombining su rest i = .ok a)
    (hb : findStartLoop su k rest i col = .ok b) : a ≤ b := by
  induction hn : rest.length using Nat.strong_induction_on generalizing rest i col with
  | _ n ih =>
    have hge := findStartLoop_ge hb
    obtain herr | ⟨w, d, rest', hd, hlt, hfind, hskip⟩ := scan_cases rest
    · rw [herr] at hb
      cases hb
    rw [hskip] at ha
    split_ifs at ha with hi hw
    · rw [hfind, if_neg (by omega)] at hb
      exact ih _ (by omega) ha hb rfl
    · cases ha
      exact hge
    · cases ha
      exact hge

theorem findStartLoop_mono (hk : k ≤ k') (ha : findStartLoop su k rest i col = .ok a)
    (hb : findStartLoop su k' rest i col = .ok b) : a ≤ b := by
  induction hn : rest.length using Nat.strong_induction_on generalizing rest i col with
  | _ n ih =>
    have hge := findStartLoop_ge hb
    obtain herr | ⟨w, d, rest', hd, hlt, hfind, -⟩ := scan_cases rest
    · rw [herr] at hb
      cases hb
    rw [hfind] at ha hb
    by_cases hw : 0 < w
    swap
    · rw [if_neg hw] at ha hb
      exact ih _ (by omega) ha hb rfl
    rw [if_pos hw] at ha hb
    obtain hlt' | heq | hgt := lt_trichotomy k (col + w)
    · rw [if_neg (by omega), if_pos hlt'] at ha
      cases ha
      exact hge
    · rw [if_pos heq.symm] at ha
      by_cases hk' : col + w = k'
      · rw [if_pos hk', ha] at hb
        cases hb
        exact le_rfl
      · rw [if_neg hk', if_neg (by omega)] at hb
        exact skipCombining_le ha hb
    · rw [if_neg (by omega), if_neg (by omega)] at ha hb
      exact ih _ (by omega) ha hb rfl

end

/-! ## The two queries on a represented row -/

variable {r : TerminalRow}

theorem findStartOfColumn_boundary {pre post : List Cell} (h : Represents r (pre ++ post)) :
    r.findStartOfColumn (totalColumns pre) = .ok (encode pre).length := by
  obtain ⟨slack, ht⟩ := h.text
  have hs := h.space
  have hc := h.columns
  rw [totalColumns_append] at hc
  unfold findStartOfColumn
  split_ifs with hk
  · have hpost : post = [] := by
      by_contra hne
      have := totalColumns_pos hne
      omega
    subst hpost
    simp [getSpaceUsed, hs]
  · have hpost : post ≠ [] := by
      rintro rfl
      simp at hc
      omega
    rw [ht, encode_append, List.append_assoc,
      findStartLoop_boundary pre (fun _ => hpost) slack (by omega) (by simp [hs])]
    simp

/-- The code's shortcut for the end of the row gives what the scan would give. -/
theorem findStartOfColumn_eq_loop {cells : List Cell} (h : Represents r cells) (hc : 0 < r.mColumns)
    (k : Int) : r.findStartOfColumn k = findStartLoop r.mSpaceUsed k r.mText 0 0 := by
  unfold findStartOfColumn
  split_ifs with hk
  · obtain ⟨slack, ht⟩ := h.text
    have hne : cells ≠ [] := by
      rintro rfl
      have := h.columns
      simp only [totalColumns_nil] at this
      omega
    have hloop : findStartLoop r.mSpaceUsed k (encode cells ++ (encode [] ++ slack)) 0 0 =
        .ok (0 + (encode cells).length) :=
      findStartLoop_boundary cells (fun h => absurd h hne) slack (by rw [h.columns]; omega)
        (by rw [h.space]; simp)
    rw [ht, ← List.nil_append slack, ← encode_nil, hloop, getSpaceUsed, h.space]
    simp
  · rfl

theorem findStartOfColumn_mono {cells : List Cell} (h : Represents r cells) (hc : 0 < r.mColumns)
    {k k' a b : Int} (hk : k ≤ k') (ha : r.findStartOfColumn k = .ok a)
    (hb : r.findStartOfColumn k' = .ok b) : a ≤ b := by
  rw [findStartOfColumn_eq_loop h hc] at ha hb
  exact findStartLoop_mono hk ha hb

theorem findStartOfColumn_second {pre post : List Cell} {c : Cell}
    (h : Represents r (pre ++ c :: post)) (hc : c.columns = 2) :
    r.findStartOfColumn (totalColumns pre + 1) = .ok (encode pre).length := by
  obtain ⟨slack, ht⟩ := h.text
  have hcol := h.columns
  have := totalColumns_nonneg post
  rw [totalColumns_append, totalColumns_cons] at hcol
  rw [findStartOfColumn, if_neg (by omega), ht, encode_append, encode_cons, List.append_assoc,
    List.append_assoc, findStartLoop_second pre hc _ (by omega)]
  simp

theorem wideDisplayCharacterStartingAt_eq {cells : List Cell} (h : Represents r cells) {k : Int}
    (hk : 0 ≤ k) :
    ∃ b, r.wideDisplayCharacterStartingAt k = .ok b ∧
      (b = true ↔ ∃ pre c post, cells = pre ++ c :: post ∧ c.columns = 2 ∧
        totalColumns pre = k) := by
  obtain ⟨slack, ht⟩ := h.text
  obtain ⟨b, hb, hiff⟩ := wideLoop_eq cells slack hk
    (show r.mSpaceUsed = 0 + ((encode cells).length : Int) by rw [h.space]; omega)
  exact ⟨b, by rw [wideDisplayCharacterStartingAt, ht, hb], by simpa using hiff⟩

end TerminalRow

end XoDos
