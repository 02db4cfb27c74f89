import XoDos.RowInvariant

/-!
# The counter of a row

`mSpaceUsed` is a `short`, and the text of a row is as long as the zero-width characters that a program puts
on its columns.  The counter is right as long as everything that is stored fits into it.
-/

namespace XoDos.TerminalRow

open WcWidth (width)

/-! ## Sequences of calls -/

/-- A call of `setChar` with a Unicode scalar value. -/
structure SetChar where
  column : Int
  codePoint : Nat
  style : Style
  isScalar : isScalar codePoint = true

theorem width_pos {codePoint : Nat} (h : width codePoint ≠ 0) : 0 < width codePoint := by
  have hcw := WcWidth.width_cases codePoint
  omega

/-- The cells after a call. -/
def SetChar.cells (call : SetChar) (cells : List Cell) : List Cell :=
  if hw : width call.codePoint = 0 then markAt call.codePoint call.isScalar hw call.column cells
  else overwritten call.codePoint call.isScalar (width_pos hw) call.column cells

def setChars (r : TerminalRow) (calls : List SetChar) : Java TerminalRow :=
  calls.foldlM (fun r call => r.setChar call.column call.codePoint call.style) r

/-- The cells after several calls. -/
def cellsAfterCalls (cells : List Cell) (calls : List SetChar) : List Cell :=
  calls.foldl (fun cells call => call.cells cells) cells

/-- Every call finds cells for which its `char`s fit. -/
def CallsFit : List Cell → List SetChar → Prop
  | _, [] => True
  | cells, call :: calls => CharsFit call.codePoint call.column cells ∧ CallsFit (call.cells cells) calls

/-! ## Counting -/

section Counting

variable {r r' : TerminalRow} {cells : List Cell} {call : SetChar} {calls : List SetChar}

/-- A call outside of the row does not return. -/
theorem setChar_column {column : Int} {codePoint : Nat} {style : Style}
    (h : r.setChar column codePoint style = .ok r') : 0 ≤ column ∧ column < r.mStyle.length := by
  by_contra hout
  rw [setChar, setCharLoop, if_pos (by omega)] at h
  cases h

theorem of_runs {Q : TerminalRow → Prop} {program : ShortStore → Java TerminalRow}
    (h : Runs False True Q program) (hr : program javaShort = .ok r) : Q r := by
  rcases h with ⟨himpossible, -⟩ | ⟨a, ha, -, hq⟩ | ⟨-, e, he, -⟩
  · exact himpossible.elim
  · cases ha.symm.trans hr
    exact hq
  · cases he.symm.trans hr

/-- A call that fits leaves the row with its cells. -/
theorem setChar_represents (h : Represents r cells) (hfit : CharsFit call.codePoint call.column cells)
    (hr : r.setChar call.column call.codePoint call.style = .ok r') :
    Represents r' (call.cells cells) ∧ r'.mColumns = r.mColumns := by
  obtain ⟨h₀, hcol⟩ := setChar_column hr
  rw [h.styles] at hcol
  rw [SetChar.cells]
  by_cases hw : width call.codePoint = 0
  · rw [dif_pos hw]
    have hcells := of_runs (setChar_marks (T := False) (E := True) h h₀ hcol call.isScalar hw
      (Or.inr trivial) fun hn => hn hfit) hr
    exact ⟨hcells.cells, hcells.columns⟩
  · rw [dif_neg hw]
    have hcells := of_runs (setChar_overwrites (T := False) (E := True) h h₀ hcol call.isScalar
      (width_pos hw) (fun _ _ => trivial) fun hn => hn hfit) hr
    exact ⟨hcells.cells, hcells.columns⟩

theorem setChars_represents (h : Represents r cells) (hfit : CallsFit cells calls)
    (hr : setChars r calls = .ok r') : Represents r' (cellsAfterCalls cells calls) := by
  induction calls generalizing r cells with
  | nil =>
    cases hr
    exact h
  | cons call calls ih =>
    rw [setChars, List.foldlM_cons, bind_eq_ok] at hr
    obtain ⟨next, hnext, hrest⟩ := hr
    exact ih (setChar_represents h hfit.1 hnext).1 hfit.2 hrest

/-- A new row is as many blanks as it has columns. -/
theorem new_represents {columns : Int} {style : Style} (hfit : columns ≤ 32767)
    (hr : new columns style = .ok r) : Represents r (List.replicate columns.toNat Cell.blank) := by
  have h₀ : 0 ≤ columns := by
    by_contra hneg
    rw [new, newArray, if_pos (by omega)] at hr
    cases hr
  rw [new_eq h₀] at hr
  cases hr
  have hcount : columns.toNat ≤ (columns * 3 / 2).toNat := by omega
  exact {
    text := by
      refine ⟨List.replicate ((columns * 3 / 2).toNat - columns.toNat) 0x20, ?_⟩
      rw [encode_blanks, List.replicate_append_replicate, Nat.add_sub_cancel' hcount]
    space := by
      rw [encode_blanks, List.length_replicate]
      exact (toShort_eq_self (by omega) hfit).trans (Int.toNat_of_nonneg h₀).symm
    columns := (totalColumns_blanks _).trans (Int.toNat_of_nonneg h₀)
    styles := by simp [h₀]
    simple := fun _ c hc => (List.eq_of_mem_replicate hc) ▸ Cell.blank_simple }

/-- While everything fits, the counter is the number of `char`s of the text. -/
theorem spaceUsed_counts (columns : Int) (style : Style) (calls : List SetChar) (hcolumns : columns ≤ 32767)
    (hfit : CallsFit (List.replicate columns.toNat Cell.blank) calls) (r : TerminalRow)
    (hr : (new columns style >>= fun r => setChars r calls) = .ok r) :
    (∃ slack, r.mText =
        encode (cellsAfterCalls (List.replicate columns.toNat Cell.blank) calls) ++ slack) ∧
      r.mSpaceUsed =
        (encode (cellsAfterCalls (List.replicate columns.toNat Cell.blank) calls)).length ∧
      0 ≤ r.mSpaceUsed ∧ r.mSpaceUsed ≤ r.mText.length := by
  obtain ⟨first, hfirst, hrest⟩ := bind_eq_ok.mp hr
  have h := setChars_represents (new_represents hcolumns hfirst) hfit hrest
  obtain ⟨slack, htext⟩ := h.text
  refine ⟨⟨slack, htext⟩, h.space, ?_, ?_⟩
  · rw [h.space]
    exact Int.natCast_nonneg _
  · rw [h.space, htext, List.length_append]
    omega

/-! ## Marks without end -/

/-- What a zero-width character leaves in the counter, whether it fits or not. -/
theorem setChar_mark (h : Represents r cells) {column : Int} {codePoint : Nat} {style : Style}
    (h₀ : 0 ≤ column) (hcol : column < r.mColumns) (hs : XoDos.isScalar codePoint = true)
    (hw : width codePoint = 0) (hroom : 2 ≤ r.mColumns) :
    ∃ r', r.setChar column codePoint style = .ok r' ∧
      r'.mSpaceUsed = toShort (r.mSpaceUsed + charCount codePoint) := by
  have hst := h.styles
  have hcc := charCount_le_two codePoint
  have ht := touched_slow h column style
  have hslow := @setCharLoop_slow r codePoint _ (column.toNat + 2) column style h₀ (by omega)
    (.inr (.inr (by omega)))
  obtain ⟨pre, c, post, rfl, hp⟩ := exists_cell_at h₀ (by rw [h.columns]; exact hcol)
  obtain ⟨slack, htext⟩ := ht.cells.text
  obtain ⟨slack', hmark⟩ := storeChar_mark ht.cells htext hs hw (by
    rw [ht.columns]
    omega)
  have hpath {k : Int} {extra : Bool} (hk : (if extra then k - 1 else k) = totalColumns pre) :
      slowPath (column.toNat + 2) (touched r column style) k codePoint style extra =
        storeChar (touched r column style) (totalColumns pre) codePoint := by
    rw [slowPath, if_pos hw.le, hk]
  rw [setChar, hslow]
  rcases hp with rfl | ⟨hc, rfl⟩
  · rw [wasExtraCol_eq ht.cells, ok_bind, hpath (by simp), hmark]
    exact ⟨_, rfl, rfl⟩
  · rw [wasExtraCol_second ht.cells hc, ok_bind, hpath (by simp), hmark]
    exact ⟨_, rfl, rfl⟩

theorem setChars_replicate_succ {first : TerminalRow} {n : Nat}
    (h : setChars first (List.replicate n call) = .ok r)
    (hr : r.setChar call.column call.codePoint call.style = .ok r') :
    setChars first (List.replicate (n + 1) call) = .ok r' := by
  rw [setChars] at h
  rw [List.replicate_succ', setChars, List.foldlM_append, h, ok_bind, List.foldlM_cons, hr, ok_bind]
  rfl

/-- An acute accent for the first column.  Its width is not to be looked up in passing. -/
@[irreducible] def acute : SetChar := ⟨0, 0x301, 0, by decide⟩

theorem acute_width : width acute.codePoint = 0 := by decide +kernel

theorem acute_step (h : Represents r cells) (hcolumns : r.mColumns = 2) :
    ∃ r', r.setChar acute.column acute.codePoint acute.style = .ok r' ∧
      r'.mSpaceUsed = toShort (r.mSpaceUsed + 1) := by
  have hcc : charCount acute.codePoint = 1 := by decide +kernel
  have hmark := @setChar_mark r cells h acute.column acute.codePoint acute.style (by decide +kernel)
    (by rw [hcolumns]; decide +kernel) acute.isScalar acute_width hcolumns.ge
  rwa [hcc] at hmark

theorem acute_fits (h : Represents r cells) (hspace : r.mSpaceUsed < 32767) :
    CharsFit acute.codePoint acute.column cells := by
  have hcc : charCount acute.codePoint = 1 := by decide +kernel
  have hlength := h.space
  rw [CharsFit, if_pos acute_width, hcc]
  omega

/-- Accents are counted up to the end of the counter. -/
theorem acutes_run {first : TerminalRow} (hfirst : new 2 0 = .ok first) (n : Nat) (hn : n ≤ 32765) :
    ∃ r cells, setChars first (List.replicate n acute) = .ok r ∧ Represents r cells ∧ r.mColumns = 2 ∧
      r.mSpaceUsed = 2 + n := by
  induction n with
  | zero =>
    have h := new_represents (by decide) hfirst
    refine ⟨first, _, rfl, h, ?_, ?_⟩
    · rw [← h.columns]
      rfl
    · rw [h.space]
      rfl
  | succ n ih =>
    obtain ⟨r, cells, hr, h, hcolumns, hspace⟩ := ih (by omega)
    obtain ⟨r', hr', hspace'⟩ := acute_step h hcolumns
    obtain ⟨hnext, hsame⟩ := setChar_represents h (acute_fits h (by omega)) hr'
    refine ⟨r', _, setChars_replicate_succ hr hr', hnext, hsame.trans hcolumns, ?_⟩
    rw [hspace', hspace, toShort_eq_self (by omega) (by omega)]
    push_cast
    ring

/-- A row of two columns with an accent. -/
theorem acute_counts : ∃ r, (new 2 0 >>= fun r => setChars r [acute]) = .ok r ∧
    (∃ slack, r.mText =
        encode (cellsAfterCalls (List.replicate (Int.toNat 2) Cell.blank) [acute]) ++ slack) ∧
      r.mSpaceUsed =
        (encode (cellsAfterCalls (List.replicate (Int.toNat 2) Cell.blank) [acute])).length ∧
      0 ≤ r.mSpaceUsed ∧ r.mSpaceUsed ≤ r.mText.length := by
  obtain ⟨first, hfirst⟩ : ∃ first, new 2 0 = .ok first := ⟨_, rfl⟩
  obtain ⟨r, -, hr, -⟩ := acutes_run hfirst 1 (by decide)
  have hrun : (new 2 0 >>= fun r => setChars r [acute]) = .ok r := by
    rw [hfirst, ok_bind]
    exact hr
  exact ⟨r, hrun, spaceUsed_counts 2 0 [acute] (by decide) ⟨by decide +kernel, trivial⟩ r hrun⟩

/-- After so many accents the counter is negative. -/
theorem acutes_wrap :
    ∃ r, (new 2 0 >>= fun r => setChars r (List.replicate 32766 acute)) = .ok r ∧ r.mSpaceUsed = -32768 := by
  obtain ⟨first, hfirst⟩ : ∃ first, new 2 0 = .ok first := ⟨_, rfl⟩
  obtain ⟨r, cells, hr, h, hcolumns, hspace⟩ := acutes_run hfirst 32765 le_rfl
  obtain ⟨r', hr', hspace'⟩ := acute_step h hcolumns
  refine ⟨r', ?_, by rw [hspace', hspace]; rfl⟩
  rw [hfirst, ok_bind]
  exact setChars_replicate_succ hr hr'

end Counting

end XoDos.TerminalRow
