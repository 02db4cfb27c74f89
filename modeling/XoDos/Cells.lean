import XoDos.TerminalRow

/-!
# A row as a list of cells

The purpose of a `TerminalRow` is to hold cells, each a base character of width
1 or 2 with the zero-width characters that modify it.  `Represents r cells`
says that the used part of the `char` array spells `cells`.
-/

namespace XoDos

open WcWidth (width)

/-- A cell; only well-formed ones can be built. -/
structure Cell where
  base : Nat
  marks : List Nat
  base_isScalar : isScalar base = true
  base_width : 0 < width base
  marks_zero : ∀ m ∈ marks, isScalar m = true ∧ width m = 0

/-- The `char`s of a list of code points. -/
def spell (codePoints : List Nat) : List Nat := codePoints.flatMap toChars

namespace Cell

def chars (c : Cell) : List Nat := toChars c.base ++ spell c.marks

def columns (c : Cell) : Int := width c.base

/-- A cell that the fast path of `setChar` can write. -/
def Simple (c : Cell) : Prop := c.base < 0x10000 ∧ c.columns = 1 ∧ c.marks = []

theorem no_marks : ∀ m ∈ ([] : List Nat), isScalar m = true ∧ width m = 0 := by simp

def blank : Cell where
  base := 0x20
  marks := []
  base_isScalar := by decide
  base_width := by simp
  marks_zero := by simp

theorem columns_pos (c : Cell) : 0 < c.columns := c.base_width

theorem columns_cases (c : Cell) : c.columns = 1 ∨ c.columns = 2 := by
  have h := c.base_width
  have := WcWidth.width_cases c.base
  unfold columns
  omega

@[simp] theorem blank_columns : blank.columns = 1 := WcWidth.width_space

@[simp] theorem blank_chars : blank.chars = [0x20] := rfl

theorem blank_simple : blank.Simple := ⟨by decide, blank_columns, rfl⟩

theorem Simple.chars_eq {c : Cell} (h : c.Simple) : c.chars = [c.base] := by
  rw [chars, h.2.2, toChars, if_pos h.1]
  rfl

end Cell

/-- The text of a row of cells. -/
def encode (cells : List Cell) : List Nat := cells.flatMap Cell.chars

/-- The number of columns that a row of cells fills. -/
def totalColumns (cells : List Cell) : Int := (cells.map Cell.columns).sum

@[simp] theorem spell_nil : spell [] = [] := rfl

@[simp] theorem spell_cons (c : Nat) (l : List Nat) : spell (c :: l) = toChars c ++ spell l := rfl

@[simp] theorem spell_append (l l' : List Nat) : spell (l ++ l') = spell l ++ spell l' :=
  List.flatMap_append

@[simp] theorem encode_nil : encode [] = [] := rfl

@[simp] theorem encode_cons (c : Cell) (l : List Cell) : encode (c :: l) = c.chars ++ encode l := rfl

@[simp] theorem encode_append (l l' : List Cell) : encode (l ++ l') = encode l ++ encode l' :=
  List.flatMap_append

@[simp] theorem totalColumns_nil : totalColumns [] = 0 := rfl

@[simp] theorem totalColumns_cons (c : Cell) (l : List Cell) :
    totalColumns (c :: l) = c.columns + totalColumns l := by
  simp [totalColumns]

@[simp] theorem totalColumns_append (l l' : List Cell) :
    totalColumns (l ++ l') = totalColumns l + totalColumns l' := by
  simp [totalColumns]

theorem totalColumns_nonneg (l : List Cell) : 0 ≤ totalColumns l := by
  induction l with
  | nil => simp
  | cons c l ih =>
    have := c.columns_pos
    rw [totalColumns_cons]
    omega

theorem totalColumns_pos {l : List Cell} (h : l ≠ []) : 0 < totalColumns l := by
  obtain ⟨c, l, rfl⟩ := List.exists_cons_of_ne_nil h
  have := c.columns_pos
  have := totalColumns_nonneg l
  rw [totalColumns_cons]
  omega

theorem Cell.chars_length_pos (c : Cell) : 0 < c.chars.length := by
  have := charCount_pos c.base
  simp only [Cell.chars, List.length_append, toChars_length]
  omega

theorem encode_length_pos {l : List Cell} (h : l ≠ []) : 0 < (encode l).length := by
  obtain ⟨c, l, rfl⟩ := List.exists_cons_of_ne_nil h
  have := c.chars_length_pos
  simp only [encode_cons, List.length_append]
  omega

/-- The fast path keeps one `char` for each column. -/
theorem encode_simple {l : List Cell} (h : ∀ c ∈ l, c.Simple) :
    encode l = l.map Cell.base ∧ totalColumns l = l.length := by
  induction l with
  | nil => simp
  | cons c l ih =>
    obtain ⟨h₁, h₂⟩ := ih fun d hd => h d (by simp [hd])
    have hc := h c (by simp)
    refine ⟨by rw [encode_cons, hc.chars_eq, h₁]; rfl, ?_⟩
    rw [totalColumns_cons, hc.2.1, h₂, List.length_cons]
    omega

/-- Every column is the first column of a cell, or the second one of a wide cell. -/
theorem exists_cell_at {cells : List Cell} {k : Int} (h₀ : 0 ≤ k) (h : k < totalColumns cells) :
    ∃ pre c post, cells = pre ++ c :: post ∧
      (totalColumns pre = k ∨ (c.columns = 2 ∧ totalColumns pre + 1 = k)) := by
  induction cells generalizing k with
  | nil => simp at h; omega
  | cons c l ih =>
    rw [totalColumns_cons] at h
    by_cases hk : k < c.columns
    · refine ⟨[], c, l, rfl, ?_⟩
      have := c.columns_cases
      simp only [totalColumns_nil]
      omega
    · obtain ⟨pre, d, post, rfl, hd⟩ := ih (k := k - c.columns) (by omega) (by omega)
      refine ⟨c :: pre, d, post, rfl, ?_⟩
      rw [totalColumns_cons]
      omega

/-! ## Columns of a row of cells -/

/-- The first `k` columns; a wide cell that is cut leaves a blank. -/
def takeColumns : Int → List Cell → List Cell
  | _, [] => []
  | k, c :: cells =>
    if k ≤ 0 then []
    else if c.columns ≤ k then c :: takeColumns (k - c.columns) cells
    else [Cell.blank]

/-- What is right of the first `k` columns; a wide cell that is cut leaves a blank. -/
def dropColumns : Int → List Cell → List Cell
  | _, [] => []
  | k, c :: cells =>
    if k ≤ 0 then c :: cells
    else if c.columns ≤ k then dropColumns (k - c.columns) cells
    else Cell.blank :: cells

/-- Whether a wide cell starts at column `k`. -/
def wideAt : Int → List Cell → Bool
  | _, [] => false
  | k, c :: cells =>
    if k < c.columns then decide (k = 0 ∧ c.columns = 2) else wideAt (k - c.columns) cells

theorem takeColumns_append {k : Int} (hk : 0 ≤ k) (pre post : List Cell) :
    takeColumns (totalColumns pre + k) (pre ++ post) = pre ++ takeColumns k post := by
  induction pre with
  | nil => simp
  | cons c pre ih =>
    have hpos := c.columns_pos
    have hpre := totalColumns_nonneg pre
    rw [List.cons_append, totalColumns_cons, takeColumns, if_neg (by omega), if_pos (by omega),
      show c.columns + totalColumns pre + k - c.columns = totalColumns pre + k by omega, ih,
      List.cons_append]

theorem dropColumns_append {k : Int} (hk : 0 ≤ k) (pre post : List Cell) :
    dropColumns (totalColumns pre + k) (pre ++ post) = dropColumns k post := by
  induction pre with
  | nil => simp
  | cons c pre ih =>
    have hpos := c.columns_pos
    have hpre := totalColumns_nonneg pre
    rw [List.cons_append, totalColumns_cons, dropColumns, if_neg (by omega), if_pos (by omega),
      show c.columns + totalColumns pre + k - c.columns = totalColumns pre + k by omega, ih]

theorem wideAt_append {k : Int} (hk : 0 ≤ k) (pre post : List Cell) :
    wideAt (totalColumns pre + k) (pre ++ post) = wideAt k post := by
  induction pre with
  | nil => simp
  | cons c pre ih =>
    have hpre := totalColumns_nonneg pre
    rw [List.cons_append, totalColumns_cons, wideAt, if_neg (by omega),
      show c.columns + totalColumns pre + k - c.columns = totalColumns pre + k by omega, ih]

@[simp] theorem takeColumns_zero (cells : List Cell) : takeColumns 0 cells = [] := by
  cases cells with
  | nil => rfl
  | cons c cells => rw [takeColumns, if_pos le_rfl]

@[simp] theorem dropColumns_zero (cells : List Cell) : dropColumns 0 cells = cells := by
  cases cells with
  | nil => rfl
  | cons c cells => rw [dropColumns, if_pos le_rfl]

theorem wideAt_neg {k : Int} (hk : k < 0) (cells : List Cell) : wideAt k cells = false := by
  cases cells with
  | nil => rfl
  | cons c cells =>
    have hpos := c.columns_pos
    rw [wideAt, if_pos (by omega)]
    exact decide_eq_false fun h => by omega

theorem wideAt_iff {k : Int} (hk : 0 ≤ k) {cells : List Cell} : wideAt k cells = true ↔
    ∃ pre c post, cells = pre ++ c :: post ∧ c.columns = 2 ∧ totalColumns pre = k := by
  constructor
  · intro h
    induction cells generalizing k with
    | nil => cases h
    | cons c cells ih =>
      rw [wideAt] at h
      split_ifs at h with hlt
      · have hc := of_decide_eq_true h
        exact ⟨[], c, cells, rfl, hc.2, hc.1.symm⟩
      · obtain ⟨pre, d, post, rfl, hd, hp⟩ := ih (by omega) h
        refine ⟨c :: pre, d, post, rfl, hd, ?_⟩
        rw [totalColumns_cons, hp]
        omega
  · rintro ⟨pre, c, post, rfl, hc, rfl⟩
    have h := wideAt_append le_rfl pre (c :: post)
    rw [add_zero] at h
    rw [h, wideAt, if_pos (by omega)]
    exact decide_eq_true ⟨rfl, hc⟩

/-- Columns may be dropped in two steps. -/
theorem dropColumns_dropColumns {a b : Int} (ha : 0 ≤ a) (hb : 0 ≤ b) (cells : List Cell) :
    dropColumns b (dropColumns a cells) = dropColumns (a + b) cells := by
  induction cells generalizing a with
  | nil => rfl
  | cons c cells ih =>
    have hcases := c.columns_cases
    by_cases ha₀ : a = 0
    · rw [ha₀, dropColumns_zero, zero_add]
    · rw [dropColumns.eq_2 a, if_neg (by omega)]
      by_cases hle : c.columns ≤ a
      · rw [if_pos hle, ih (by omega), dropColumns.eq_2 (a + b), if_neg (by omega), if_pos (by omega)]
        congr 1
        omega
      · -- The first cell is wide and cut in two.
        rw [if_neg hle, dropColumns.eq_2 (a + b), if_neg (by omega), dropColumns, Cell.blank_columns]
        by_cases hb₀ : b = 0
        · rw [if_pos (by omega), if_neg (by omega)]
        · rw [if_neg (by omega), if_pos (by omega), if_pos (by omega)]
          congr 1
          omega

/-- `r` spells `cells`, of which there are as many columns as the row has. -/
structure Represents (r : TerminalRow) (cells : List Cell) : Prop where
  text : ∃ slack, r.mText = encode cells ++ slack
  space : r.mSpaceUsed = (encode cells).length
  columns : totalColumns cells = r.mColumns
  styles : r.mStyle.length = r.mColumns
  simple : r.mHasNonOneWidthOrSurrogateChars = false → ∀ c ∈ cells, c.Simple

theorem Represents.columns_pos {r : TerminalRow} {pre post : List Cell} {c : Cell}
    (h : Represents r (pre ++ c :: post)) : 0 < r.mColumns := by
  rw [← h.columns]
  exact totalColumns_pos (by simp)

/-- `r` has `columns` columns and spells cells. -/
def TerminalRow.Spells (columns : Int) (r : TerminalRow) : Prop :=
  r.mColumns = columns ∧ ∃ cells, Represents r cells

/-- The rows that the emulator works with.  There is always room for a line of spaces. -/
structure TerminalRow.Valid (columns : Int) (r : TerminalRow) : Prop where
  spells : r.Spells columns
  room : columns ≤ r.mText.length

end XoDos
