import XoDos.RowInvariant

/-!
# `setChar` on the row of cells

What `setChar` is for: one cell takes the place of the cells that cover its
columns, or a zero-width character joins the cell that covers its column.  The
code does this but for a wide character over two narrow cells, which keeps the
marks of the second one unless that is the last cell of the row.
-/

namespace XoDos

open WcWidth (width)

/-! ## A row spells one list of cells -/

theorem toChars_append_inj {c d : Nat} {s t : List Nat} (hc : isScalar c = true)
    (hd : isScalar d = true) (h : toChars c ++ s = toChars d ++ t) : c = d ∧ s = t := by
  obtain ⟨hc', hch, -⟩ | ⟨hi, lo, hc', hch, hcp, -⟩ := toChars_cases hc
  · obtain ⟨hd', hdh, -⟩ | ⟨hi', lo', hd', hdh, -, -⟩ := toChars_cases hd
    · rw [hc', hd'] at h
      injection h with h₁ h₂
      exact ⟨h₁, h₂⟩
    · rw [hc', hd'] at h
      injection h with h₁ h₂
      rw [h₁, hdh] at hch
      cases hch
  · obtain ⟨hd', hdh, -⟩ | ⟨hi', lo', hd', hdh, hdp, -⟩ := toChars_cases hd
    · rw [hc', hd'] at h
      injection h with h₁ h₂
      rw [h₁, hdh] at hch
      cases hch
    · rw [hc', hd'] at h
      injection h with h₁ h₂
      injection h₂ with h₂ h₃
      exact ⟨by rw [← hcp, ← hdp, h₁, h₂], h₃⟩

/-- The marks end where the next character of positive width begins. -/
theorem spell_marks_inj {marks marks' : List Nat} {cells cells' : List Cell}
    (hm : ∀ m ∈ marks, isScalar m = true ∧ width m = 0)
    (hm' : ∀ m ∈ marks', isScalar m = true ∧ width m = 0)
    (h : spell marks ++ encode cells = spell marks' ++ encode cells') :
    marks = marks' ∧ encode cells = encode cells' := by
  -- A mark is not the start of a cell.
  have hstart {m : Nat} {marks : List Nat} {cells cells' : List Cell}
      (hm : isScalar m = true ∧ width m = 0) :
      spell (m :: marks) ++ encode cells ≠ encode cells' := by
    intro he
    cases cells' with
    | nil =>
      have hpos := charCount_pos m
      have hlen := congrArg List.length he
      simp only [spell_cons, List.length_append, toChars_length, encode_nil, List.length_nil] at hlen
      omega
    | cons c cells' =>
      rw [spell_cons, encode_cons, Cell.chars, List.append_assoc, List.append_assoc] at he
      have hbase := c.base_width
      rw [← (toChars_append_inj hm.1 c.base_isScalar he).1, hm.2] at hbase
      omega
  induction marks generalizing marks' with
  | nil =>
    cases marks' with
    | nil => exact ⟨rfl, by simpa using h⟩
    | cons m' marks' => exact absurd h.symm (hstart (hm' m' (by simp)))
  | cons m marks ih =>
    cases marks' with
    | nil => exact absurd h (hstart (hm m (by simp)))
    | cons m' marks' =>
      rw [spell_cons, spell_cons, List.append_assoc, List.append_assoc] at h
      obtain ⟨hmm, hrest⟩ := toChars_append_inj (hm m (by simp)).1 (hm' m' (by simp)).1 h
      obtain ⟨hmarks, hcells⟩ := ih (fun a ha => hm a (by simp [ha]))
        (fun a ha => hm' a (by simp [ha])) hrest
      exact ⟨by rw [hmm, hmarks], hcells⟩

theorem encode_inj {cells cells' : List Cell} (h : encode cells = encode cells') :
    cells = cells' := by
  induction cells generalizing cells' with
  | nil =>
    cases cells' with
    | nil => rfl
    | cons c cells' =>
      have hpos := encode_length_pos (List.cons_ne_nil c cells')
      rw [← h] at hpos
      cases hpos
  | cons c cells ih =>
    cases cells' with
    | nil =>
      have hpos := encode_length_pos (List.cons_ne_nil c cells)
      rw [h] at hpos
      cases hpos
    | cons d cells' =>
      rw [encode_cons, encode_cons, Cell.chars, Cell.chars, List.append_assoc,
        List.append_assoc] at h
      obtain ⟨hbase, hchars⟩ := toChars_append_inj c.base_isScalar d.base_isScalar h
      obtain ⟨hmarks, hcells⟩ := spell_marks_inj c.marks_zero d.marks_zero hchars
      obtain ⟨b, m, _, _, _⟩ := c
      obtain ⟨b', m', _, _, _⟩ := d
      simp only at hbase hmarks
      subst hbase hmarks
      rw [ih hcells]

theorem Represents.text_eq {r : TerminalRow} {cells : List Cell} (h : Represents r cells) :
    r.mText.take r.mSpaceUsed.toNat = encode cells := by
  obtain ⟨slack, ht⟩ := h.text
  rw [ht, h.space, Int.toNat_natCast, List.take_left]

theorem Represents.space_le {r : TerminalRow} {cells : List Cell} (h : Represents r cells) :
    r.mSpaceUsed ≤ r.mText.length := by
  obtain ⟨slack, ht⟩ := h.text
  rw [ht, h.space, List.length_append]
  omega

theorem Represents.unique {r : TerminalRow} {cells cells' : List Cell} (h : Represents r cells)
    (h' : Represents r cells') : cells = cells' :=
  encode_inj (h.text_eq.symm.trans h'.text_eq)

namespace TerminalRow

variable {r : TerminalRow} {cells : List Cell} {column : Int} {codePoint : Nat} {style : Style}

/-- The row of cells that `setChar` is meant to leave. -/
def cellsAfter (codePoint : Nat) (hs : isScalar codePoint = true) (column : Int)
    (cells : List Cell) : List Cell :=
  if hw : 0 < width codePoint then
    takeColumns column cells ++ newCell codePoint [] hs hw Cell.no_marks ::
      dropColumns (column + width codePoint) cells
  else
    markAt codePoint hs (by have := WcWidth.width_cases codePoint; omega) column cells

/-- A narrow cell in the column behind `column` has no marks, unless it is the last one. -/
def NextUnmarked (column : Int) (cells : List Cell) : Prop :=
  ∀ pre d post, cells = pre ++ d :: post → totalColumns pre = column + 1 → d.columns = 1 →
    post ≠ [] → d.marks = []

/-- The marks that a wide character inherits are those of that cell. -/
theorem inheritedMarks_eq_nil_iff (h₀ : 0 ≤ column) (hcol : column < totalColumns cells) :
    inheritedMarks (dropColumns column cells) = [] ↔ NextUnmarked column cells := by
  obtain ⟨pre, c, post, rfl, hp⟩ := exists_cell_at h₀ hcol
  -- Either way a cell of one column is in front of those that follow.
  have key (pre₁ : List Cell) (b : Cell) (rest : List Cell)
      (hp₁ : totalColumns pre₁ = column + 1)
      (hb : ∀ d e post', rest = d :: e :: post' → b.columns = 1)
      (hdrop : dropColumns column (pre ++ c :: post) = b :: rest)
      (hcells : pre ++ c :: post = pre₁ ++ rest) :
      inheritedMarks (dropColumns column (pre ++ c :: post)) = [] ↔
        NextUnmarked column (pre ++ c :: post) := by
    rw [hdrop, hcells]
    constructor
    · intro hnil pre' d post' he hp' hd hne
      cases rest with
      | nil =>
        have hlen := congrArg totalColumns he
        have hpos := d.columns_pos
        have hpost := totalColumns_nonneg post'
        simp only [totalColumns_append, totalColumns_cons, totalColumns_nil] at hlen
        omega
      | cons d' rest =>
        obtain ⟨-, rfl, rfl⟩ := cell_at_unique he (hp₁.trans hp'.symm)
        obtain ⟨e, post', rfl⟩ := List.exists_cons_of_ne_nil hne
        rw [inheritedMarks, if_pos ⟨hb d' e post' rfl, hd⟩] at hnil
        exact hnil
    · intro hclear
      rw [inheritedMarks.eq_def]
      split
      · rename_i b' d e post' heq
        injection heq with hbb heq
        split_ifs with hnarrow
        · exact hclear pre₁ d (e :: post') (by rw [heq]) hp₁ hnarrow.2 (List.cons_ne_nil _ _)
        · rfl
      · rfl
  obtain hstart | ⟨hc, hsecond⟩ := hp
  · have hdrop := dropColumns_append le_rfl pre (c :: post)
    rw [add_zero, dropColumns_zero, hstart] at hdrop
    obtain hc | hc := c.columns_cases
    · exact key (pre ++ [c]) c post (by simp [hstart, hc]) (fun _ _ _ _ => hc) hdrop (by simp)
    · -- A wide cell starts at `column`, so no cell starts behind it.
      rw [hdrop]
      constructor
      · intro _ pre' d post' he hp' hd
        have hne := @no_wide_before pre' (d :: post') pre post _ he.symm hc
        omega
      · intro _
        rw [inheritedMarks.eq_def]
        split
        · rename_i heq
          injection heq with heq
          rw [if_neg (by rw [← heq]; omega)]
        · rfl
  · have hdrop := dropColumns_append (show (0 : Int) ≤ 1 by decide) pre (c :: post)
    rw [hsecond, dropColumns, if_neg (by omega), if_neg (by omega)] at hdrop
    exact key (pre ++ [c]) Cell.blank post (by simp; omega) (fun _ _ _ _ => Cell.blank_columns) hdrop
      (by simp)

/-- The cells of a row of positive width. -/
theorem represents_overwritten_iff {r' : TerminalRow} (hs : isScalar codePoint = true)
    (hw : 0 < width codePoint) (hr : Represents r' (overwritten codePoint hs hw column cells)) :
    Represents r' (cellsAfter codePoint hs column cells) ↔
      (width codePoint = 2 → inheritedMarks (dropColumns column cells) = []) := by
  rw [cellsAfter, dif_pos hw]
  constructor
  · intro hr' hw₂
    have hlen := hr.space.symm.trans hr'.space
    simp only [overwritten, writtenCell, if_pos hw₂, encode_append, encode_cons, newCell_chars,
      List.length_append, spell_nil, List.length_nil] at hlen
    have hzero : (spell (inheritedMarks (dropColumns column cells))).length = 0 := by omega
    cases hmarks : inheritedMarks (dropColumns column cells) with
    | nil => rfl
    | cons m marks =>
      have hpos := charCount_pos m
      rw [hmarks, spell_cons, List.length_append, toChars_length] at hzero
      omega
  · intro hclear
    rw [← @writtenCell_plain _ hs hw _ hclear]
    exact hr

/-- `setChar` leaves the cells it is meant to leave just if the character is not wide, or the narrow
cell behind its first column has no marks or is the last one. -/
theorem setChar_refines_iff (h : Represents r cells) (h₀ : 0 ≤ column) (hcol : column < r.mColumns)
    (hs : isScalar codePoint = true) (hfits : width codePoint = 2 → column + 2 ≤ r.mColumns)
    (hroom : width codePoint = 0 → r.mSpaceUsed + charCount codePoint ≤ r.mText.length + r.mColumns)
    (htrap : @setChar trapShort r column codePoint style ≠ .error .shortOverflow) :
    ∃ r', r.setChar column codePoint style = .ok r' ∧
      (Represents r' (cellsAfter codePoint hs column cells) ↔
        (width codePoint = 2 → NextUnmarked column cells)) := by
  have hcw := WcWidth.width_cases codePoint
  by_cases hw : 0 < width codePoint
  · obtain ⟨r', hr', hcells⟩ := (setChar_overwrites (T := True) (E := False) h h₀ hcol hs hw
      (fun h₁ h₂ => by have := hfits h₁; omega) fun _ => trivial).returns htrap
    refine ⟨r', hr', (represents_overwritten_iff hs hw hcells.cells).trans ?_⟩
    rw [inheritedMarks_eq_nil_iff h₀ (by rw [h.columns]; exact hcol)]
  · have hw₀ : width codePoint = 0 := by omega
    obtain ⟨r', hr', hcells⟩ := (setChar_marks (T := True) (E := False) h h₀ hcol hs hw₀
      (.inl (hroom hw₀)) fun _ => trivial).returns htrap
    refine ⟨r', hr', fun _ hw₂ => by omega, fun _ => ?_⟩
    rw [cellsAfter, dif_neg hw]
    exact hcells.cells

/-- The letter b with an acute accent. -/
def accentedCell : Cell where
  base := 0x62
  marks := [0x301]
  base_isScalar := by decide
  base_width := by decide +kernel
  marks_zero := by decide +kernel

/-- A row of four columns with `accentedCell` in the second one. -/
def accentedRow : TerminalRow where
  mColumns := 4
  mText := [0x20, 0x62, 0x301, 0x20, 0x20, 0x20]
  mSpaceUsed := 5
  mLineWrap := false
  mStyle := [0, 0, 0, 0]
  mHasNonOneWidthOrSurrogateChars := true

theorem accentedRow_represents :
    Represents accentedRow [Cell.blank, accentedCell, Cell.blank, Cell.blank] where
  text := ⟨[0x20], rfl⟩
  space := rfl
  columns := by decide +kernel
  styles := rfl
  simple := by simp [accentedRow]

/-- A wide character in the second and third columns takes the place of the letter with its accent. -/
theorem setChar_refines_iff_accented : ∃ r', accentedRow.setChar 1 0x4e00 0 = .ok r' ∧
    Represents r' (cellsAfter 0x4e00 (by decide) 1 [Cell.blank, accentedCell, Cell.blank, Cell.blank]) := by
  obtain ⟨r', hr', hiff⟩ := setChar_refines_iff accentedRow_represents (show (0 : Int) ≤ 1 by decide)
    (by decide) (show isScalar 0x4e00 = true by decide) (by decide +kernel) (by decide +kernel)
    (show @setChar trapShort accentedRow 1 0x4e00 0 ≠ .error .shortOverflow by decide +kernel)
  refine ⟨r', hr', hiff.mpr fun _ => ?_⟩
  rw [← inheritedMarks_eq_nil_iff (by decide) (by decide +kernel)]
  decide +kernel

/-- A wide character in the first two columns takes over the accent. -/
theorem accent_left_behind : ∃ r', accentedRow.setChar 0 0x4e00 0 = .ok r' ∧
    r'.mText.take r'.mSpaceUsed.toNat = [0x4e00, 0x301, 0x20, 0x20] ∧
    ¬Represents r' (cellsAfter 0x4e00 (by decide) 0
      [Cell.blank, accentedCell, Cell.blank, Cell.blank]) := by
  have hrun : (accentedRow.setChar 0 0x4e00 0).map (fun r' =>
      (r'.mText.take r'.mSpaceUsed.toNat, r'.mSpaceUsed)) = .ok ([0x4e00, 0x301, 0x20, 0x20], 4) := by
    decide +kernel
  obtain ⟨r', hr', hvalues⟩ := exists_of_map_eq_ok hrun
  obtain ⟨htext, hused⟩ := Prod.mk.inj hvalues
  refine ⟨r', hr', htext, fun hcells => ?_⟩
  have hspace := hcells.space
  rw [hused] at hspace
  have hlen : (encode (cellsAfter 0x4e00 (by decide) 0
      [Cell.blank, accentedCell, Cell.blank, Cell.blank])).length = 3 := by
    decide +kernel
  omega

end TerminalRow

end XoDos
