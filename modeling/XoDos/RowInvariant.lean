import XoDos.RowCopy

/-!
# The representation invariant of a row

What holds of a row after any sequence of calls, in terms of its fields alone.
The number of used `char`s is kept in a `short`, so the invariant is lost when
the number of columns does not fit into one.
-/

namespace XoDos

open WcWidth (width)

namespace TerminalRow

/-- The used text is a sequence of code points of the width of the row. -/
structure RowInvariant (columns : Int) (r : TerminalRow) : Prop where
  space : 0 ≤ r.mSpaceUsed ∧ r.mSpaceUsed ≤ r.mText.length
  codePoints : ∃ codePoints, r.mText.take r.mSpaceUsed.toNat = spell codePoints ∧
    (∀ c ∈ codePoints, isScalar c = true) ∧ (∃ c ∈ codePoints.head?, 0 < width c) ∧
    (codePoints.map width).sum = columns
  simple : r.mHasNonOneWidthOrSurrogateChars = false →
    r.mSpaceUsed = columns ∧ ∀ c ∈ r.mText.take r.mSpaceUsed.toNat,
      c < 0x10000 ∧ isSurrogate c = false ∧ width c = 1

/-- The code points of a row of cells. -/
def codePointsOf (cells : List Cell) : List Nat := cells.flatMap fun c => c.base :: c.marks

theorem spell_codePointsOf (cells : List Cell) : spell (codePointsOf cells) = encode cells := by
  induction cells with
  | nil => rfl
  | cons c cells ih =>
    have : codePointsOf (c :: cells) = (c.base :: c.marks) ++ codePointsOf cells := rfl
    rw [this, spell_append, ih]
    rfl

theorem sum_codePointsOf (cells : List Cell) :
    ((codePointsOf cells).map width).sum = totalColumns cells := by
  induction cells with
  | nil => rfl
  | cons c cells ih =>
    have hmarks : (c.marks.map width).sum = 0 := by
      refine List.sum_eq_zero fun w hw => ?_
      obtain ⟨m, hm, rfl⟩ := List.mem_map.mp hw
      exact (c.marks_zero m hm).2
    have : codePointsOf (c :: cells) = (c.base :: c.marks) ++ codePointsOf cells := rfl
    rw [this, List.map_append, List.sum_append, ih, List.map_cons, List.sum_cons, hmarks,
      totalColumns_cons]
    simp [Cell.columns]

theorem isScalar_codePointsOf {cells : List Cell} : ∀ c ∈ codePointsOf cells, isScalar c = true := by
  intro m hm
  obtain ⟨c, -, hc⟩ := List.mem_flatMap.mp hm
  obtain rfl | hc := List.mem_cons.mp hc
  · exact c.base_isScalar
  · exact (c.marks_zero m hc).1

/-- A row that spells cells satisfies the invariant. -/
theorem RowInvariant.of_spells {columns : Int} {r : TerminalRow} (hcols : 2 ≤ columns)
    (h : r.Spells columns) : RowInvariant columns r := by
  obtain ⟨rfl, cells, h⟩ := h
  obtain ⟨slack, ht⟩ := h.text
  have hs := h.space
  have htake : r.mText.take r.mSpaceUsed.toNat = encode cells := by
    rw [ht, hs, Int.toNat_natCast, List.take_left]
  refine ⟨⟨by omega, ?_⟩, ⟨codePointsOf cells, ?_, isScalar_codePointsOf, ?_, ?_⟩, fun hflag => ?_⟩
  · rw [hs, ht, List.length_append]
    omega
  · rw [htake, spell_codePointsOf]
  · cases cells with
    | nil =>
      have := h.columns
      rw [totalColumns_nil] at this
      omega
    | cons c cells => exact ⟨c.base, rfl, c.base_width⟩
  · rw [sum_codePointsOf, h.columns]
  · obtain ⟨he, hn⟩ := encode_simple (h.simple hflag)
    refine ⟨by rw [hs, he, List.length_map, ← hn, h.columns], ?_⟩
    rw [htake, he]
    intro c hc
    obtain ⟨cell, hcell, rfl⟩ := List.mem_map.mp hc
    have hsimple := h.simple hflag cell hcell
    have := isScalar_iff.mp cell.base_isScalar
    refine ⟨hsimple.1, ?_, hsimple.2.1⟩
    simp [isSurrogate]
    omega

/-- The rows that a sequence of calls can lead to, as long as `mSpaceUsed` stays below 32765.
During a copy, which calls `setChar` many times, it is enough that `mSpaceUsed` does not
overflow. -/
inductive Reachable (columns : Int) : TerminalRow → Prop where
  | new {style : Style} {r : TerminalRow} :
    new columns style = .ok r → r.mSpaceUsed < 32765 → Reachable columns r
  | clear {style : Style} {r r' : TerminalRow} :
    Reachable columns r → r.clear style = .ok r' → r'.mSpaceUsed < 32765 → Reachable columns r'
  | setChar {column : Int} {codePoint : Nat} {style : Style} {r r' : TerminalRow} :
    Reachable columns r → 0 ≤ column → column < columns → isScalar codePoint = true →
    (width codePoint = 2 → column ≤ columns - 2) →
    r.setChar column codePoint style = .ok r' → r'.mSpaceUsed < 32765 → Reachable columns r'
  | copyInterval {sourceX1 sourceX2 destinationX : Int} {same : Bool} {line r r' : TerminalRow} :
    Reachable columns r → Reachable columns line → (same = true → line = r) →
    0 ≤ sourceX1 → sourceX1 ≤ sourceX2 → sourceX2 ≤ columns → 0 ≤ destinationX →
    destinationX + (sourceX2 - sourceX1) ≤ columns →
    @copyInterval trapShort r line same sourceX1 sourceX2 destinationX ≠ .error .shortOverflow →
    r.copyInterval line same sourceX1 sourceX2 destinationX = .ok r' → r'.mSpaceUsed < 32765 →
    Reachable columns r'

section

variable {columns : Int} {r : TerminalRow}

theorem Reachable.space (h : Reachable columns r) : r.mSpaceUsed < 32765 := by
  cases h <;> assumption

/-- A legal `setChar` returns, and keeps the row valid. -/
theorem setChar_returns {column : Int} {codePoint : Nat} {style : Style} (h : Valid columns r)
    (hspace : r.mSpaceUsed < 32765) (hcols : 2 ≤ columns) (h₀ : 0 ≤ column) (hcol : column < columns)
    (hs : isScalar codePoint = true) (hw : width codePoint = 2 → column ≤ columns - 2) :
    ∃ r', r.setChar column codePoint style = .ok r' ∧ Valid columns r' := by
  have hrun : Runs False False (Valid columns) fun _ => r.setChar column codePoint style :=
    setChar_runs h (fun _ h => by omega) h₀ hcol hs (fun h₁ h₂ => by have := hw h₁; omega) (fun h => by omega)
  obtain ⟨r', hr', -, hv⟩ := hrun.both_return
  exact ⟨r', hr', hv⟩

/-- A legal `copyInterval` returns, unless a `short` overflows, and keeps the row valid. -/
theorem copyInterval_returns {x₁ x₂ x : Int} {same : Bool} {line : TerminalRow}
    (h : Valid columns r) (hcols : 2 ≤ columns) (hline : Valid columns line)
    (hsame : same = true → line = r) (h₁ : 0 ≤ x₁) (h₂ : x₁ ≤ x₂) (h₃ : x₂ ≤ columns) (hx : 0 ≤ x)
    (hx' : x + (x₂ - x₁) ≤ columns)
    (htrap : @copyInterval trapShort r line same x₁ x₂ x ≠ .error .shortOverflow) :
    ∃ r', r.copyInterval line same x₁ x₂ x = .ok r' ∧ Valid columns r' :=
  (copyInterval_runs (E := False) h (fun h => by omega) hline hsame h₁ h₂ h₃ hx hx').returns htrap

theorem Reachable.valid (hcols : 2 ≤ columns) (hfit : columns ≤ 32767) (h : Reachable columns r) :
    Valid columns r := by
  induction h with
  | new hr _ =>
    obtain ⟨r', hr', -, hv, -⟩ := (new_runs (T := False) (E := False) (by omega : 0 ≤ columns)
      (fun h => by omega)).both_return
    cases hr.symm.trans hr'
    exact hv
  | clear _ hr _ ih =>
    obtain ⟨r', hr', -, hv, -⟩ := (ih.clear_runs (T := False) (E := False) (by omega)
      (fun h => by omega)).both_return
    cases hr.symm.trans hr'
    exact hv
  | setChar h h₀ hcol hs hw hr _ ih =>
    obtain ⟨r', hr', hv⟩ := setChar_returns ih h.space hcols h₀ hcol hs hw
    cases hr.symm.trans hr'
    exact hv
  | copyInterval _ _ hsame h₁ h₂ h₃ hx hx' htrap hr _ ih ihline =>
    obtain ⟨r', hr', hv⟩ := copyInterval_returns ih hcols ihline hsame h₁ h₂ h₃ hx hx' htrap
    cases hr.symm.trans hr'
    exact hv

/-- What the constructor returns, however many columns there are. -/
theorem new_eq (hcols : 0 ≤ columns) (style : Style) : new columns style = .ok
    { mColumns := columns, mText := List.replicate (columns * 3 / 2).toNat 0x20
      mSpaceUsed := toShort columns, mLineWrap := false
      mStyle := List.replicate columns.toNat style
      mHasNonOneWidthOrSurrogateChars := false } := by
  rw [new, newArray, if_neg (by omega), ok_bind, newArray, if_neg (by omega), ok_bind, clear,
    javaShort_store, ok_bind]
  simp only [List.length_replicate]
  rfl

theorem sum_width_le (l : List Nat) : (l.map width).sum ≤ 2 * (spell l).length := by
  induction l with
  | nil => simp
  | cons c l ih =>
    have := WcWidth.width_le_two c
    have := charCount_pos c
    simp only [List.map_cons, List.sum_cons, spell_cons, List.length_append, toChars_length]
    push_cast
    omega

/-- A `short` cannot count the `char`s of more than 32767 columns. -/
theorem not_rowInvariant_of_wide (h : 32767 < columns) (hspace : r.mSpaceUsed = toShort columns) :
    ¬ RowInvariant columns r := by
  rintro ⟨⟨h₀, -⟩, ⟨l, hl, -, -, hsum⟩, -⟩
  have hle := sum_width_le l
  rw [hsum, ← hl, List.length_take] at hle
  rw [hspace] at h₀ hle
  unfold toShort at h₀ hle
  omega

/-- The invariant holds in every row that calls can lead to exactly when the number of columns fits
into a `short`, or is so large that not even a new row reports less than 32765 `char`s. -/
theorem rowInvariant_iff (columns : Int) (hcols : 2 ≤ columns) :
    (∀ r, Reachable columns r → RowInvariant columns r) ↔
      columns ≤ 32767 ∨ 32765 ≤ toShort columns := by
  constructor
  · intro h
    by_contra hc
    push Not at hc
    have hnew := new_eq (by omega : 0 ≤ columns) 0
    exact not_rowInvariant_of_wide hc.1 rfl (h _ (.new hnew hc.2))
  · rintro hfit r hr
    obtain hfit | hbig := hfit
    · exact .of_spells hcols (hr.valid hcols hfit).spells
    · by_cases hfit : columns ≤ 32767
      · exact .of_spells hcols (hr.valid hcols hfit).spells
      · exfalso
        -- The first row of any sequence of calls already breaks the bound.
        induction hr with
        | new hr hs =>
          cases hr.symm.trans (new_eq (by omega) _)
          exact absurd hbig (by simpa using hs)
        | clear _ _ _ ih => exact ih
        | setChar _ _ _ _ _ _ _ ih => exact ih
        | copyInterval _ _ _ _ _ _ _ _ _ _ _ ih _ => exact ih

theorem rowInvariant_eighty :
    2 ≤ (80 : Int) ∧ ∀ r, Reachable 80 r → RowInvariant 80 r :=
  ⟨by decide, (rowInvariant_iff 80 (by decide)).mpr (.inl (by decide))⟩

/-- A row of 32768 columns starts with a negative number of used `char`s. -/
theorem not_rowInvariant_32768 :
    ∃ r, Reachable 32768 r ∧ r.mSpaceUsed = -32768 ∧ ¬ RowInvariant 32768 r :=
  ⟨_, .new (new_eq (by decide) 0) (by decide), by decide, not_rowInvariant_of_wide (by decide) rfl⟩

end

end TerminalRow

end XoDos
