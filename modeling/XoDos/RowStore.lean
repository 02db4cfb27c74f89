import XoDos.RowScan

/-!
# Storing a character

The array surgery of `storeChar` on a row that spells `pre ++ c :: post`, with
the character put at the column where `c` starts.  Each lemma names the values
that are assigned to `mSpaceUsed`.
-/

namespace XoDos

open WcWidth (width)

section Arrays

variable {α : Type}

/-- Copying a block to the left over a gap. -/
theorem arraycopy_left {A G H B S : List α} {i j n : Int} (hi : i = (A ++ G ++ H).length)
    (hj : j = (A ++ G).length) (hn : n = B.length) :
    ∃ S', arraycopy (A ++ (G ++ (H ++ (B ++ S)))) i (A ++ (G ++ (H ++ (B ++ S)))) j n =
      .ok (A ++ (G ++ (B ++ S'))) := by
  subst hi hj hn
  rw [arraycopy_ok (by omega) (by omega) (by omega) (by simp; omega) (by simp; omega)]
  have h₁ : (A ++ (G ++ (H ++ (B ++ S)))).take (A ++ G).length = A ++ G := by
    rw [← List.append_assoc, List.take_left']
    rfl
  have h₂ : ((A ++ (G ++ (H ++ (B ++ S)))).drop (A ++ G ++ H).length).take B.length = B := by
    rw [← List.append_assoc, ← List.append_assoc, List.drop_left, List.take_left]
  simp only [Int.toNat_natCast, h₁, h₂]
  exact ⟨_, by rw [List.append_assoc, List.append_assoc]⟩

/-- Copying a block to the right, within the array. -/
theorem arraycopy_right {A B S : List α} {i j n : Int} (d : Nat) (hi : i = A.length)
    (hj : j = A.length + d) (hn : n = B.length) (hd : d ≤ S.length) :
    ∃ gap S', gap.length = d ∧
      arraycopy (A ++ (B ++ S)) i (A ++ (B ++ S)) j n = .ok (A ++ (gap ++ (B ++ S'))) := by
  subst hi hj hn
  rw [arraycopy_ok (by omega) (by omega) (by omega) (by simp) (by simp; omega)]
  have h₂ : ((A ++ (B ++ S)).drop A.length).take B.length = B := by
    rw [List.drop_left, List.take_left]
  have h₁ : (A ++ (B ++ S)).take (A.length + (d : Int)).toNat = A ++ (B ++ S).take d := by
    rw [show (A.length + (d : Int)).toNat = A.length + d by omega, List.take_length_add_append]
  simp only [Int.toNat_natCast, h₁, h₂]
  exact ⟨(B ++ S).take d, _, by simp; omega, by rw [List.append_assoc, List.append_assoc]⟩

end Arrays

namespace TerminalRow

/-- `shiftRight` opens a gap, growing the array when it has to. -/
theorem shiftRight_eq {A B S : List Nat} {w n i : Int} (d : Nat) (hi : i = A.length)
    (hs : n = (A ++ B).length) (hw : 0 ≤ w) (hd : d ≤ S.length + w) :
    ∃ gap S', gap.length = d ∧
      shiftRight (A ++ (B ++ S)) w n i d = .ok (A ++ (gap ++ (B ++ S'))) := by
  unfold shiftRight
  split_ifs with h
  · subst hi hs
    simp only [List.length_append, Nat.cast_add] at h
    have hlen : ((A ++ (B ++ S)).length : Int) + w =
        ((A.length + B.length + S.length + w.toNat : Nat) : Int) := by
      simp only [List.length_append]
      omega
    rw [hlen, newArray, if_neg (by omega)]
    simp only [ok_bind, Int.toNat_natCast]
    rw [arraycopy_ok (by omega) (by omega) (by omega) (by simp; omega) (by simp; omega)]
    simp only [ok_bind, Int.toNat_natCast, Int.toNat_zero, List.take_zero, List.drop_zero, zero_add,
      List.nil_append, List.take_left, List.drop_replicate]
    rw [show ((A ++ B).length : Int) - A.length = B.length by simp,
      arraycopy_ok (by omega) (by omega) (by omega) (by simp) (by simp; omega)]
    simp only [Int.toNat_natCast, List.drop_left, List.take_left]
    rw [show (A.length + (d : Int)).toNat = A.length + d by omega, List.take_length_add_append]
    refine ⟨(List.replicate (A.length + B.length + S.length + w.toNat - A.length) 0).take d,
      _, ?_, by rw [List.append_assoc, List.append_assoc]⟩
    rw [List.length_take, List.length_replicate]
    omega
  · obtain ⟨gap, S', hg, he⟩ := arraycopy_right (A := A) (B := B) (S := S) d hi
      (j := i + d) (n := n - i) (by omega) (by simp only [hs, hi, List.length_append]; omega)
      (by simp only [hs, List.length_append, Nat.cast_add] at h; omega)
    exact ⟨gap, S', hg, he⟩

/-- Growing by the number of columns may not be enough, in a row of one column. -/
theorem shiftRight_fails {A B S : List Nat} {w n i : Int} (d : Nat) (hi : i = A.length)
    (hs : n = (A ++ B).length) (hw : 0 ≤ w) (hd : S.length + w < d) :
    shiftRight (A ++ (B ++ S)) w n i d = .error .arrayIndexOutOfBounds := by
  subst hi hs
  simp only [List.length_append, Nat.cast_add]
  rw [shiftRight, if_pos (by simp; omega), newArray, if_neg (by simp; omega), ok_bind,
    arraycopy_ok (by omega) (by omega) (by omega) (by simp; omega) (by simp; omega), ok_bind,
    arraycopy, if_pos]
  simp
  omega

/-- `Character.toChars` writes a code point over a gap of its own length. -/
theorem toCharsInto_gap {c : Nat} (hc : isScalar c = true) {A G B : List Nat} {i : Int}
    (hi : i = A.length) (hG : G.length = charCount c) :
    toCharsInto c (A ++ (G ++ B)) i = .ok (A ++ (toChars c ++ B)) := by
  subst hi
  rw [isScalar_iff] at hc
  by_cases h : c < 0x10000
  · obtain ⟨g, rfl⟩ := List.length_eq_one_iff.mp (hG.trans (by simp [charCount]; omega))
    rw [toCharsInto, if_pos h, arraySet_ok _ (by omega) (by simp), toChars, if_pos h]
    simp
  · obtain ⟨g, g', rfl⟩ := List.length_eq_two.mp (hG.trans (by simp [charCount]; omega))
    rw [toCharsInto, if_neg h, if_pos (by omega), arraySet_ok _ (by omega) (by simp), ok_bind,
      arraySet_ok _ (by omega) (by simp; omega), toChars, if_neg h]
    rw [show ((A.length : Int) + 1).toNat = A.length + 1 by omega]
    simp

/-- The width at the index where a cell starts. -/
theorem widthAt_cell (A : List Nat) (c : Cell) (B : List Nat) :
    widthAt (A ++ (c.chars ++ B)) A.length = .ok c.columns := by
  unfold widthAt
  obtain ⟨h, hh, -⟩ | ⟨hi, lo, h, hh, hcp, -⟩ := toChars_cases c.base_isScalar
  · rw [arrayGet_ok (x := c.base) (by omega) (by simp [Cell.chars, h]), ok_bind]
    simp only [hh, Bool.false_eq_true, if_false]
    rfl
  · rw [arrayGet_ok (x := hi) (by omega) (by simp [Cell.chars, h]), ok_bind]
    simp only [hh, if_true]
    rw [arrayGet_ok (x := lo) (by omega), ok_bind, hcp]
    · rfl
    · rw [show ((A.length : Int) + 1).toNat = A.length + 1 by omega]
      simp [Cell.chars, h]

/-! ## The row after the store -/

/-- `r'` is `r` with the text of `cells`. -/
structure Stored (r : TerminalRow) (cells : List Cell) (r' : TerminalRow) : Prop where
  columns : r'.mColumns = r.mColumns
  lineWrap : r'.mLineWrap = r.mLineWrap
  style : r'.mStyle = r.mStyle
  flag : r'.mHasNonOneWidthOrSurrogateChars = r.mHasNonOneWidthOrSurrogateChars
  cells : Represents r' cells

/-- Once a character needed the slow path, only the text and the columns matter. -/
theorem Stored.of_flag {r : TerminalRow} {cells : List Cell} {t S : List Nat} {n : Int}
    (hflag : r.mHasNonOneWidthOrSurrogateChars = true) (hst : r.mStyle.length = r.mColumns)
    (ht : t = encode cells ++ S) (hs : n = (encode cells).length)
    (hc : totalColumns cells = r.mColumns) :
    Stored r cells { r with mText := t, mSpaceUsed := n } where
  columns := rfl
  lineWrap := rfl
  style := rfl
  flag := rfl
  cells := {
    text := ⟨S, ht⟩
    space := hs
    columns := hc
    styles := hst
    simple := by simp [hflag] }

/-- A program that ends by storing a text with its length. -/
theorem stored_runs {T E : Prop} {r : TerminalRow} {cells : List Cell} {t S : List Nat}
    {n : Int} {program : ShortStore → Java TerminalRow}
    (hp : ∀ m : ShortStore, program m =
      (m.store n >>= fun k => .ok { r with mText := t, mSpaceUsed := k }))
    (hT : 32767 < n → T) (hflag : r.mHasNonOneWidthOrSurrogateChars = true)
    (hst : r.mStyle.length = r.mColumns) (ht : t = encode cells ++ S)
    (hs : n = (encode cells).length) (hc : totalColumns cells = r.mColumns) :
    Runs T E (Stored r cells) program :=
  runs_of_store hp (by omega) hT fun _ => Stored.of_flag hflag hst ht hs hc

/-- A cell with one more mark. -/
def addMark (c : Cell) (codePoint : Nat) (hs : isScalar codePoint = true)
    (hw : width codePoint = 0) : Cell :=
  { c with
    marks := c.marks ++ [codePoint]
    marks_zero := by
      intro m hm
      obtain hm | hm := List.mem_append.mp hm
      · exact c.marks_zero m hm
      · rw [List.mem_singleton.mp hm]
        exact ⟨hs, hw⟩ }

/-- The cell that `setChar` makes of a character of positive width. -/
def newCell (codePoint : Nat) (marks : List Nat) (hs : isScalar codePoint = true)
    (hw : 0 < width codePoint) (hm : ∀ m ∈ marks, isScalar m = true ∧ width m = 0) : Cell :=
  ⟨codePoint, marks, hs, hw, hm⟩

@[simp] theorem newCell_chars {codePoint : Nat} {marks : List Nat} (hs : isScalar codePoint = true)
    (hw : 0 < width codePoint) (hm : ∀ m ∈ marks, isScalar m = true ∧ width m = 0) :
    (newCell codePoint marks hs hw hm).chars = toChars codePoint ++ spell marks := rfl

@[simp] theorem newCell_columns {codePoint : Nat} {marks : List Nat}
    (hs : isScalar codePoint = true) (hw : 0 < width codePoint)
    (hm : ∀ m ∈ marks, isScalar m = true ∧ width m = 0) :
    (newCell codePoint marks hs hw hm).columns = width codePoint := rfl

section

variable {T E : Prop} {r : TerminalRow} {pre post : List Cell} {c : Cell} {codePoint : Nat}

/-- The indices that `storeChar` computes before it changes anything. -/
theorem storeChar_scan (h : Represents r (pre ++ c :: post)) :
    r.findStartOfColumn (totalColumns pre) = .ok (encode pre).length ∧
    widthAt r.mText (encode pre).length = .ok c.columns ∧
    (if totalColumns pre + c.columns < r.mColumns then
        r.findStartOfColumn (totalColumns pre + c.columns)
      else .ok r.mSpaceUsed) = .ok ((encode pre).length + c.chars.length) := by
  obtain ⟨slack, ht⟩ := h.text
  refine ⟨findStartOfColumn_boundary h, ?_, ?_⟩
  · rw [ht, encode_append, encode_cons, List.append_assoc, List.append_assoc]
    exact widthAt_cell _ _ _
  · split_ifs with hlt
    · have h' : Represents r ((pre ++ [c]) ++ post) := by simpa using h
      have := findStartOfColumn_boundary h'
      simpa using this
    · have hcol := h.columns
      rw [totalColumns_append, totalColumns_cons] at hcol
      have hpost : post = [] := by
        by_contra hne
        have := totalColumns_pos hne
        omega
      simp [h.space, hpost]

/-- A zero-width character first gets a gap behind the marks of its cell. -/
theorem storeChar_gap (h : Represents r (pre ++ c :: post)) (hw : width codePoint = 0) (m : ShortStore) :
    r.storeChar (totalColumns pre) codePoint =
      (shiftRight r.mText r.mColumns r.mSpaceUsed ((encode pre).length + c.chars.length)
        (charCount codePoint) >>= fun text => do
        let spaceUsed ← m.store (r.mSpaceUsed + charCount codePoint)
        let text ← toCharsInto codePoint text ((encode pre).length + c.chars.length)
        settleWidth r (totalColumns pre) c.columns 0 text spaceUsed
          ((encode pre).length + (charCount codePoint + c.chars.length))) := by
  obtain ⟨h₁, h₂, h₃⟩ := storeChar_scan h
  have hpos := charCount_pos codePoint
  unfold storeChar
  simp only [h₁, h₂, h₃, ok_bind, hw, le_refl, if_true]
  rw [show ((encode pre).length : Int) + ((encode pre).length + c.chars.length -
      (encode pre).length) = (encode pre).length + c.chars.length by omega,
    show (charCount codePoint : Int) + ((encode pre).length + c.chars.length -
      (encode pre).length) - ((encode pre).length + c.chars.length - (encode pre).length) =
      charCount codePoint by omega, if_pos (by omega), add_sub_cancel_left]

section Mark

variable {slack : List Nat} (h : Represents r (pre ++ c :: post))
  (ht : r.mText = encode (pre ++ c :: post) ++ slack)

include h ht

theorem mark_text : r.mText = (encode pre ++ c.chars) ++ (encode post ++ slack) ∧
    r.mSpaceUsed = ((encode pre ++ c.chars) ++ encode post).length := by
  constructor
  · rw [ht]
    simp only [encode_append, encode_cons, List.append_assoc]
  · rw [h.space]
    simp only [encode_append, encode_cons, List.append_assoc]

/-- With room in the array it is written there, whatever the counter can hold. -/
theorem storeChar_mark (hs : isScalar codePoint = true) (hw : width codePoint = 0)
    (hfree : (charCount codePoint : Int) ≤ slack.length + r.mColumns) :
    ∃ slack', ∀ m : ShortStore, r.storeChar (totalColumns pre) codePoint =
      (m.store (r.mSpaceUsed + charCount codePoint) >>= fun k => .ok { r with
        mText := encode pre ++ c.chars ++ (toChars codePoint ++ (encode post ++ slack')), mSpaceUsed := k }) := by
  obtain ⟨htext, hsp⟩ := mark_text h ht
  have hpos' := h.columns_pos
  obtain ⟨gap, slack', hgap, hshift⟩ := shiftRight_eq (A := encode pre ++ c.chars) (B := encode post)
    (S := slack) (w := r.mColumns) (n := r.mSpaceUsed)
    (i := (encode pre).length + c.chars.length) (charCount codePoint) (by simp) hsp (by omega) hfree
  refine ⟨slack', fun m => ?_⟩
  rw [storeChar_gap h hw m, htext, hshift, ok_bind]
  simp only [toCharsInto_gap hs (show ((encode pre).length : Int) + c.chars.length =
    (encode pre ++ c.chars).length by simp) hgap, ok_bind, settleWidth]
  simp
  rfl

end Mark

/-- A zero-width character goes behind the marks of its cell. -/
theorem storeChar_combining (h : Represents r (pre ++ c :: post))
    (hroom : r.mSpaceUsed + charCount codePoint ≤ r.mText.length + r.mColumns ∨ E)
    (hflag : r.mHasNonOneWidthOrSurrogateChars = true)
    (hs : isScalar codePoint = true) (hw : width codePoint = 0)
    (hT : 32767 < r.mSpaceUsed + charCount codePoint → T) :
    Runs T E (Stored r (pre ++ addMark c codePoint hs hw :: post))
      fun _ => r.storeChar (totalColumns pre) codePoint := by
  obtain ⟨slack, ht⟩ := h.text
  obtain ⟨htext, hsp⟩ := mark_text h ht
  have := charCount_le_two codePoint
  have hpos' := h.columns_pos
  have hlen : (r.mText.length : Int) = r.mSpaceUsed + slack.length := by
    rw [htext, hsp]
    simp only [List.length_append]
    omega
  by_cases hfree : (charCount codePoint : Int) ≤ slack.length + r.mColumns
  swap
  · refine runs_congr (storeChar_gap h hw) ?_
    rw [htext, shiftRight_fails _ (by simp) hsp (by omega) (by omega)]
    exact Lockstep.error (hroom.resolve_left (by omega)) _
  obtain ⟨slack', hmark⟩ := storeChar_mark h ht hs hw hfree
  refine stored_runs (S := slack') hmark hT hflag h.styles ?_ ?_ ?_
  · simp [Cell.chars, addMark]
  · rw [hsp]
    simp [Cell.chars, addMark]
    omega
  · have hc := h.columns
    simp only [totalColumns_append, totalColumns_cons, Cell.columns] at hc ⊢
    exact hc

/-- A character of positive width takes the place of the cell; the widths are settled after it. -/
theorem storeChar_written (h : Represents r (pre ++ c :: post)) (hs : isScalar codePoint = true)
    (hw : 0 < width codePoint) :
    ∃ slack, ∀ m : ShortStore, r.storeChar (totalColumns pre) codePoint =
      (m.store ((encode pre).length + charCount codePoint + (encode post).length) >>=
        fun spaceUsed => settleWidth r (totalColumns pre) c.columns (width codePoint)
          (encode pre ++ (toChars codePoint ++ (encode post ++ slack))) spaceUsed
          ((encode pre).length + charCount codePoint)) := by
  obtain ⟨slack, ht⟩ := h.text
  obtain ⟨h₁, h₂, h₃⟩ := storeChar_scan h
  have hsp : r.mSpaceUsed = (encode pre).length + c.chars.length + (encode post).length := by
    rw [h.space]
    simp
    omega
  have htext : r.mText = encode pre ++ (c.chars ++ (encode post ++ slack)) := by
    rw [ht]
    simp only [encode_append, encode_cons, List.append_assoc]
  have hcc := charCount_le_two codePoint
  have hpos := charCount_pos codePoint
  have hc := c.chars_length_pos
  have hcols := h.columns_pos
  -- Whatever the length of the old cell, the array ends up with room for the new character.
  obtain ⟨G, slack', hG, hroom⟩ : ∃ G slack', G.length = charCount codePoint ∧
      (if 0 < (charCount codePoint : Int) - c.chars.length then
        shiftRight r.mText r.mColumns r.mSpaceUsed ((encode pre).length + c.chars.length)
          (charCount codePoint - c.chars.length)
      else if (charCount codePoint : Int) - c.chars.length < 0 then
        arraycopy r.mText ((encode pre).length + c.chars.length) r.mText
          ((encode pre).length + charCount codePoint)
          (r.mSpaceUsed - ((encode pre).length + c.chars.length))
      else .ok r.mText) = .ok (encode pre ++ (G ++ (encode post ++ slack'))) := by
    split_ifs with hlt hgt
    · obtain ⟨gap, slack', hgap, he⟩ := shiftRight_eq (A := encode pre ++ c.chars)
        (B := encode post) (S := slack) (w := r.mColumns) (n := r.mSpaceUsed)
        (i := (encode pre).length + c.chars.length) (charCount codePoint - c.chars.length) (by simp)
        (by rw [hsp]; simp [add_assoc]) (by omega) (by omega)
      refine ⟨c.chars ++ gap, slack', by rw [List.length_append]; omega, ?_⟩
      rw [htext, ← List.append_assoc (encode pre), show (charCount codePoint : Int) - c.chars.length =
        ((charCount codePoint - c.chars.length : Nat) : Int) by omega, he]
      simp only [List.append_assoc]
    · obtain ⟨slack', he⟩ := arraycopy_left (A := encode pre)
        (G := c.chars.take (charCount codePoint)) (H := c.chars.drop (charCount codePoint))
        (B := encode post) (S := slack) (i := (encode pre).length + c.chars.length)
        (j := (encode pre).length + charCount codePoint)
        (n := r.mSpaceUsed - ((encode pre).length + c.chars.length))
        (by rw [List.append_assoc, List.take_append_drop]; simp) (by simp; omega) (by omega)
      refine ⟨c.chars.take (charCount codePoint), slack', by simp; omega, ?_⟩
      have hsplit : r.mText = encode pre ++ (c.chars.take (charCount codePoint) ++
          (c.chars.drop (charCount codePoint) ++ (encode post ++ slack))) := by
        rw [htext, ← List.append_assoc (c.chars.take _), List.take_append_drop]
      rw [hsplit, he]
    · exact ⟨c.chars, slack, by omega, by rw [htext]⟩
  refine ⟨slack', fun m => ?_⟩
  unfold storeChar
  simp only [h₁, h₂, h₃, ok_bind, not_le.mpr hw, if_false, add_zero]
  rw [show ((encode pre).length : Int) + c.chars.length - (encode pre).length = c.chars.length by
    omega, hroom, ok_bind, hsp,
    show ((encode pre).length : Int) + c.chars.length + (encode post).length +
      (charCount codePoint - c.chars.length) =
      (encode pre).length + charCount codePoint + (encode post).length by omega]
  simp only [toCharsInto_gap hs rfl hG, ok_bind]

end

/-! ## Settling the widths -/

section

variable {T E : Prop} {r : TerminalRow} {pre post : List Cell} {codePoint : Nat}
  (hs : isScalar codePoint = true) (hw : 0 < width codePoint) {slack : List Nat}

theorem settleWidth_same {c : Cell} (hcol : totalColumns (pre ++ c :: post) = r.mColumns)
    (hst : r.mStyle.length = r.mColumns) (hflag : r.mHasNonOneWidthOrSurrogateChars = true)
    (hc : c.columns = width codePoint) :
    Runs T E (Stored r (pre ++ newCell codePoint [] hs hw (by simp) :: post)) fun _ =>
      settleWidth r (totalColumns pre) c.columns (width codePoint)
        (encode pre ++ (toChars codePoint ++ (encode post ++ slack)))
        ((encode pre).length + charCount codePoint + (encode post).length)
        ((encode pre).length + charCount codePoint) := by
  have key (m : ShortStore) : settleWidth r (totalColumns pre) c.columns (width codePoint)
      (encode pre ++ (toChars codePoint ++ (encode post ++ slack)))
      ((encode pre).length + charCount codePoint + (encode post).length)
      ((encode pre).length + charCount codePoint) = .ok { r with
        mText := encode pre ++ (toChars codePoint ++ (encode post ++ slack))
        mSpaceUsed := (encode pre).length + charCount codePoint + (encode post).length } := by
    rw [settleWidth, if_neg (by omega), if_neg (by omega)]
    rfl
  refine runs_of_eq key (Stored.of_flag hflag hst (S := slack) (by simp) ?_ ?_)
  · simp [add_assoc]
  · simpa [hc] using hcol

/-- A narrow character in place of a wide one leaves a space behind it. -/
theorem settleWidth_narrow {c : Cell} (hcol : totalColumns (pre ++ c :: post) = r.mColumns)
    (hst : r.mStyle.length = r.mColumns) (hflag : r.mHasNonOneWidthOrSurrogateChars = true)
    (hc : c.columns = 2) (hw₁ : width codePoint = 1)
    (hT : 32767 < ((encode pre).length + charCount codePoint + (encode post).length + 1 : Int) → T) :
    Runs T E (Stored r (pre ++ newCell codePoint [] hs hw (by simp) :: Cell.blank :: post))
      fun _ => settleWidth r (totalColumns pre) c.columns (width codePoint)
        (encode pre ++ (toChars codePoint ++ (encode post ++ slack)))
        ((encode pre).length + charCount codePoint + (encode post).length)
        ((encode pre).length + charCount codePoint) := by
  have hpre := totalColumns_nonneg pre
  have hpost := totalColumns_nonneg post
  have hcols : 2 ≤ r.mColumns := by
    rw [← hcol, totalColumns_append, totalColumns_cons]
    omega
  obtain ⟨gap, slack', hgap, hshift⟩ := shiftRight_eq (A := encode pre ++ toChars codePoint)
    (B := encode post) (S := slack) (w := r.mColumns)
    (n := (encode pre).length + charCount codePoint + (encode post).length)
    (i := (encode pre).length + charCount codePoint) 1 (by simp) (by simp [add_assoc]) (by omega)
    (by omega)
  rw [Nat.cast_one] at hshift
  obtain ⟨g, rfl⟩ := List.length_eq_one_iff.mp hgap
  have hset : arraySet (encode pre ++ toChars codePoint ++ ([g] ++ (encode post ++ slack')))
      ((encode pre).length + charCount codePoint) 0x20 =
      .ok (encode pre ++ toChars codePoint ++ ([0x20] ++ (encode post ++ slack'))) := by
    rw [arraySet_ok _ (by omega) (by simp; omega),
      show (((encode pre).length : Int) + charCount codePoint).toNat =
        (encode pre ++ toChars codePoint).length by simp; omega, List.set_append_right _ _ (le_refl _)]
    simp
  refine stored_runs (S := slack')
    (t := encode pre ++ toChars codePoint ++ ([0x20] ++ (encode post ++ slack')))
    (fun m => ?_) hT hflag hst (by simp) ?_ ?_
  · rw [settleWidth, if_pos ⟨hc, hw₁⟩, ← List.append_assoc (encode pre), hshift, ok_bind, hset,
      ok_bind]
    rfl
  · simp
    omega
  · simp only [totalColumns_append, totalColumns_cons, Cell.blank_columns, newCell_columns] at hcol ⊢
    omega

/-- A wide character in the last two columns cuts off what was in the last one. -/
theorem settleWidth_last {c d : Cell} (hcol : totalColumns (pre ++ [c, d]) = r.mColumns)
    (hst : r.mStyle.length = r.mColumns) (hflag : r.mHasNonOneWidthOrSurrogateChars = true)
    (hc : c.columns = 1) (hd : d.columns = 1) (hw₂ : width codePoint = 2)
    (hT : 32767 < ((encode pre).length + charCount codePoint : Int) → T) :
    Runs T E (Stored r (pre ++ [newCell codePoint [] hs hw (by simp)])) fun _ =>
      settleWidth r (totalColumns pre) c.columns (width codePoint)
        (encode pre ++ (toChars codePoint ++ (encode [d] ++ slack)))
        ((encode pre).length + charCount codePoint + (encode [d]).length)
        ((encode pre).length + charCount codePoint) := by
  simp only [totalColumns_append, totalColumns_cons, totalColumns_nil] at hcol
  refine stored_runs (S := encode [d] ++ slack)
    (t := encode pre ++ (toChars codePoint ++ (encode [d] ++ slack)))
    (fun m => ?_) hT hflag hst (by simp) (by simp) ?_
  · rw [settleWidth, if_neg (by omega), if_pos ⟨hc, hw₂⟩, if_neg (by omega), if_pos (by omega)]
    rfl
  · simp only [totalColumns_append, totalColumns_cons, totalColumns_nil, newCell_columns]
    omega

/-- A wide character elsewhere removes the base character of the next cell, whose marks it
inherits. -/
theorem settleWidth_widen {c d e : Cell} (hcol : totalColumns (pre ++ c :: d :: e :: post) = r.mColumns)
    (hst : r.mStyle.length = r.mColumns) (hflag : r.mHasNonOneWidthOrSurrogateChars = true)
    (hc : c.columns = 1) (hd : d.columns = 1) (hw₂ : width codePoint = 2)
    (hT : 32767 < ((encode pre).length + charCount codePoint + (spell d.marks).length +
      (encode (e :: post)).length : Int) → T) :
    Runs T E (Stored r (pre ++ newCell codePoint d.marks hs hw d.marks_zero :: e :: post)) fun _ =>
      settleWidth r (totalColumns pre) c.columns (width codePoint)
        (encode pre ++ (toChars codePoint ++ (encode (d :: e :: post) ++ slack)))
        ((encode pre).length + charCount codePoint + (encode (d :: e :: post)).length)
        ((encode pre).length + charCount codePoint) := by
  have he := e.columns_pos
  have hpost := totalColumns_nonneg post
  simp only [totalColumns_append, totalColumns_cons] at hcol
  -- The next character is a pair exactly when two `char`s are to be removed.
  obtain ⟨x, hget, hlen⟩ : ∃ x, arrayGet (encode pre ++ (toChars codePoint ++
      (encode (d :: e :: post) ++ slack))) ((encode pre).length + charCount codePoint) = .ok x ∧
      (if isHighSurrogate x then (2 : Int) else 1) = charCount d.base := by
    have hidx (y : Nat) (rest : List Nat) : (encode pre ++ (toChars codePoint ++ (y :: rest)))[
        (((encode pre).length : Int) + charCount codePoint).toNat]? = some y := by
      rw [show (((encode pre).length : Int) + charCount codePoint).toNat =
        (encode pre ++ toChars codePoint).length by simp; omega, ← List.append_assoc]
      simp
    obtain ⟨h, hh, hcc⟩ | ⟨hi, lo, h, hh, -, hcc⟩ := toChars_cases d.base_isScalar
    · refine ⟨d.base, arrayGet_ok (by omega) ?_, by simp [hh, hcc]⟩
      rw [encode_cons, Cell.chars, h]
      exact hidx _ _
    · refine ⟨hi, arrayGet_ok (by omega) ?_, by simp [hh, hcc]⟩
      rw [encode_cons, Cell.chars, h]
      exact hidx _ _
  obtain ⟨slack', hcopy⟩ := arraycopy_left (A := encode pre) (G := toChars codePoint)
    (H := toChars d.base) (B := spell d.marks ++ encode (e :: post)) (S := slack)
    (i := (encode pre).length + charCount codePoint + charCount d.base)
    (j := (encode pre).length + charCount codePoint)
    (n := (encode pre).length + charCount codePoint + (encode (d :: e :: post)).length -
      ((encode pre).length + charCount codePoint + charCount d.base))
    (by simp [add_assoc]) (by simp) (by simp [Cell.chars])
  refine stored_runs (S := slack')
    (t := encode pre ++ (toChars codePoint ++ (spell d.marks ++ encode (e :: post) ++ slack')))
    (fun m => ?_) hT hflag hst (by simp) ?_ ?_
  · rw [settleWidth, if_neg (by omega), if_pos ⟨hc, hw₂⟩, if_neg (by omega), if_neg (by omega), hget,
      ok_bind]
    simp only [hlen]
    rw [show encode pre ++ (toChars codePoint ++ (encode (d :: e :: post) ++ slack)) =
      encode pre ++ (toChars codePoint ++ (toChars d.base ++ ((spell d.marks ++ encode (e :: post)) ++
        slack))) by simp [Cell.chars], hcopy, ok_bind,
    show ((encode pre).length : Int) + charCount codePoint + (encode (d :: e :: post)).length -
      charCount d.base = (encode pre).length + charCount codePoint + (spell d.marks).length +
      (encode (e :: post)).length by simp [Cell.chars]; omega]
    rfl
  · simp
    omega
  · simp only [totalColumns_append, totalColumns_cons, newCell_columns]
    omega

end

end TerminalRow

end XoDos
