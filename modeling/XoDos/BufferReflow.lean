import XoDos.BufferResize

/-!
# The slow resize

Every character of the old rows is put on the new screen, which wraps and
scrolls as it fills.  The old rows are read code point by code point; the new
buffer stays valid, and the cursor stays on the screen.
-/

namespace XoDos

namespace TerminalBuffer

open WcWidth (width)

variable {b : TerminalBuffer} {E : Prop} {newColumns newRows newTotalRows : Int}

/-- What holds of the variables of the slow resize. -/
structure Reflowing (newColumns newRows newTotalRows : Int) (s : Reflow) : Prop where
  valid : Valid s.buffer
  columns : s.buffer.mColumns = newColumns
  screen : s.buffer.mScreenRows = newRows
  total : s.buffer.mTotalRows = newTotalRows
  row : 0 ≤ s.currentOutputExternalRow ∧ s.currentOutputExternalRow < newRows
  column : 0 ≤ s.currentOutputExternalColumn
  cursorColumn : s.newCursorColumn < newColumns
  cursorRow : s.newCursorRow < newRows

variable {s : Reflow} {old : OldState}

theorem Reflowing.keeps {b' : TerminalBuffer} (h : Reflowing newColumns newRows newTotalRows s)
    (hk : Keeps s.buffer b') : Reflowing newColumns newRows newTotalRows { s with buffer := b' } :=
  ⟨hk.valid, hk.grown.columns.trans h.columns, hk.grown.screen.trans h.screen,
    hk.grown.total.trans h.total, h.row, h.column, h.cursorColumn, h.cursorRow⟩

theorem nextRow_runs (h : Reflowing newColumns newRows newTotalRows s) (moveCursor : Bool) :
    Runs True E (fun s' => Reflowing newColumns newRows newTotalRows s' ∧
      s'.currentOutputExternalColumn = 0) fun _ => s.nextRow old moveCursor := by
  have hscreen := h.screen
  have hpos := h.valid.screen
  have hrow := h.row
  have hcursor := h.cursorRow
  simp only [Reflow.nextRow]
  by_cases hlast : s.currentOutputExternalRow = s.buffer.mScreenRows - 1
  · simp only [if_pos hlast]
    refine runs_bind (scrollDownOneLine_runs h.valid (by omega) fun _ => trivial) ?_
    rintro b' ⟨hv, hc, hs, ht⟩
    refine Lockstep.ok ⟨⟨hv, hc.trans h.columns, hs.trans h.screen, ht.trans h.total, hrow, le_rfl,
      h.cursorColumn, ?_⟩, rfl⟩
    simp only
    split_ifs <;> omega
  · simp only [if_neg hlast]
    exact Lockstep.ok ⟨⟨h.valid, h.columns, hscreen, h.total, by simp only; omega, le_rfl,
      h.cursorColumn, hcursor⟩, rfl⟩

/-! ## One code point -/

/-- The line wraps before a character that does not fit. -/
theorem wrapLine_runs (h : Reflowing newColumns newRows newTotalRows s) (w : Int) :
    Runs True E (fun s' => Reflowing newColumns newRows newTotalRows s' ∧
        (s'.currentOutputExternalColumn = 0 ∨ s'.currentOutputExternalColumn + w ≤ newColumns))
      (fun _ => if s.buffer.mColumns < s.currentOutputExternalColumn + w then do
          let buffer ← s.buffer.setLineWrap s.currentOutputExternalRow
          Reflow.nextRow { s with buffer := buffer } old true
        else .ok s) := by
  have hcolumns := h.columns
  have hscreen := h.screen
  have hrow := h.row
  have hhist := h.valid.history
  by_cases hwrap : s.buffer.mColumns < s.currentOutputExternalColumn + w
  · simp only [if_pos hwrap]
    refine runs_bind (putLineWrap_keeps h.valid (by omega)) fun b' hb' => ?_
    refine runs_mono ?_ (nextRow_runs (h.keeps hb') true)
    rintro s' ⟨hs', hcol⟩
    exact ⟨hs', .inl hcol⟩
  · simp only [if_neg hwrap]
    exact Lockstep.ok ⟨h, .inr (by omega)⟩

theorem reflowChar_runs {externalOldRow : Int} {oldLine : TerminalRow} {justToCursor : Bool}
    {t : LineCopy} {codePoint : Nat} {n : Int} (hE : newColumns = 1 → E)
    (h : Reflowing newColumns newRows newTotalRows t.out) (hline : TerminalRow.Valid n oldLine)
    (hs : isScalar codePoint = true) (h₀ : 0 ≤ t.currentOldCol)
    (hn : t.currentOldCol + width codePoint ≤ n) :
    Runs True E (fun p => Reflowing newColumns newRows newTotalRows p.1.out ∧
        p.1.currentOldCol = t.currentOldCol + width codePoint)
      fun _ => reflowChar old externalOldRow oldLine justToCursor t codePoint := by
  have hwidth := WcWidth.width_cases codePoint
  obtain ⟨⟨hcols, cells, hcells⟩, -⟩ := hline
  have hstyles := hcells.styles
  -- A combining character takes the style of the column in front, so the array is not read for it.
  obtain ⟨style, hstyle⟩ : ∃ style, (if 0 < width codePoint then oldLine.getStyle t.currentOldCol
      else .ok t.styleAtCol) = .ok style := by
    by_cases hw : 0 < width codePoint
    · obtain ⟨style, -, hget⟩ := arrayGet_returns (a := oldLine.mStyle) h₀ (by omega)
      exact ⟨style, by rw [if_pos hw]; exact hget⟩
    · exact ⟨t.styleAtCol, if_neg hw⟩
  simp only [reflowChar, hstyle, ok_bind]
  refine runs_bind (wrapLine_runs h _) ?_
  rintro s ⟨hs₁, hcol⟩
  have hcolumns := hs₁.columns
  have hscreen := hs₁.screen
  have hpos := hs₁.valid.columns
  have hrow := hs₁.row
  have hcol₀ := hs₁.column
  obtain ⟨k, hk⟩ : ∃ k, k = s.currentOutputExternalColumn -
      (if width codePoint ≤ 0 ∧ 0 < s.currentOutputExternalColumn then 1 else 0) := ⟨_, rfl⟩
  simp only [← hk]
  -- A wide character does not fit a screen of one column; that is the only way to raise here.
  refine runs_bind (setChar_keeps hs₁.valid hs (fun _ h => hE (by omega)) (fun hr => ?_)
    fun hw hk' => hE ?_) fun b' hb' => ?_
  · exfalso
    split_ifs at hk <;> omega
  · split_ifs at hk <;> omega
  have h' := hs₁.keeps hb'
  by_cases hw : 0 < width codePoint
  · simp only [if_pos hw]
    by_cases hcur : old.oldCursorRow = externalOldRow ∧ old.oldCursorColumn = t.currentOldCol
    · simp only [if_pos hcur]
      exact Lockstep.ok ⟨⟨h'.valid, h'.columns, h'.screen, h'.total, h'.row, by simp only; omega,
        by simp only; omega, hrow.2⟩, rfl⟩
    · simp only [if_neg hcur]
      exact Lockstep.ok ⟨⟨h'.valid, h'.columns, h'.screen, h'.total, h'.row, by simp only; omega,
        h'.cursorColumn, h'.cursorRow⟩, rfl⟩
  · simp only [if_neg hw]
    exact Lockstep.ok ⟨h', by simp only; omega⟩

/-! ## One row -/

section

variable [ShortStore] {externalOldRow : Int} {oldLine : TerminalRow} {justToCursor : Bool}
  {last i : Int} {t : LineCopy}

theorem reflowLoop_codePoint {c : Nat} (hc : isScalar c = true) (hi : i < last) (rest : List Nat) :
    reflowLoop old externalOldRow oldLine justToCursor last (toChars c ++ rest) i t =
      (reflowChar old externalOldRow oldLine justToCursor t c >>= fun p =>
        if p.2 then .ok p.1
        else reflowLoop old externalOldRow oldLine justToCursor last rest (i + charCount c) p.1) := by
  obtain ⟨h, hh, hcc⟩ | ⟨hi', lo, h, hh, hcp, hcc⟩ := toChars_cases hc
  · rw [h, hcc, List.singleton_append, reflowLoop.eq_def]
    simp only [if_pos hi, hh, Bool.false_eq_true, if_false]
    rfl
  · rw [h, hcc, List.cons_append, List.singleton_append, reflowLoop.eq_def]
    simp only [if_pos hi, hh, if_true, hcp]
    rfl

theorem reflowLoop_done (hi : last ≤ i) (rest : List Nat) :
    reflowLoop old externalOldRow oldLine justToCursor last rest i t = .ok t := by
  rw [reflowLoop.eq_def]
  exact if_neg (by omega)

end

/-- The code points of a row fill its columns. -/
theorem reflowLoop_runs {externalOldRow : Int} {oldLine : TerminalRow} {justToCursor : Bool}
    {last i n : Int} {t : LineCopy} {codePoints slack : List Nat} (hE : newColumns = 1 → E)
    (hline : TerminalRow.Valid n oldLine) (hs : ∀ c ∈ codePoints, isScalar c = true)
    (h : Reflowing newColumns newRows newTotalRows t.out) (h₀ : 0 ≤ t.currentOldCol)
    (hn : t.currentOldCol + (codePoints.map width).sum ≤ n)
    (hlast : last ≤ i + (spell codePoints).length) :
    Runs True E (fun t' => Reflowing newColumns newRows newTotalRows t'.out) fun _ =>
      reflowLoop old externalOldRow oldLine justToCursor last (spell codePoints ++ slack) i t := by
  induction codePoints generalizing i t with
  | nil =>
    simp only [spell_nil, List.length_nil] at hlast
    exact runs_of_eq (fun m => reflowLoop_done (by omega) _) h
  | cons c codePoints ih =>
    by_cases hi : i < last
    swap
    · exact runs_of_eq (fun m => reflowLoop_done (by omega) _) h
    have hc := hs c (by simp)
    have hwidths : 0 ≤ (codePoints.map width).sum := by
      apply List.sum_nonneg
      intro w hw
      obtain ⟨d, -, rfl⟩ := List.mem_map.mp hw
      have := WcWidth.width_cases d
      omega
    have hwidth := WcWidth.width_cases c
    simp only [List.map_cons, List.sum_cons, spell_cons, List.length_append, toChars_length,
      Nat.cast_add] at hn hlast
    simp only [spell_cons, List.append_assoc]
    refine runs_congr (fun m => reflowLoop_codePoint hc hi _) ?_
    refine runs_bind (reflowChar_runs hE h hline hc h₀ (by omega)) ?_
    rintro ⟨t', stop⟩ ⟨h', hcol⟩
    simp only at h' hcol
    cases stop with
    | true => exact Lockstep.ok h'
    | false =>
      simp only [Bool.false_eq_true, if_false]
      exact ih (fun d hd => hs d (by simp [hd])) h' (by omega) (by omega) (by omega)

theorem lastNonSpaceLoop_returns {spaceUsed i last : Int} {rest : List Nat}
    (hrest : spaceUsed ≤ i + rest.length) (hlast : last ≤ spaceUsed) :
    ∃ k, lastNonSpaceLoop spaceUsed rest i last = .ok k ∧ k ≤ spaceUsed := by
  induction rest generalizing i last with
  | nil =>
    refine ⟨last, ?_, hlast⟩
    simp only [List.length_nil] at hrest
    rw [lastNonSpaceLoop, if_neg (by omega)]
  | cons c rest ih =>
    rw [lastNonSpaceLoop]
    by_cases hi : i < spaceUsed
    · simp only [if_pos hi]
      simp only [List.length_cons] at hrest
      refine ih (by push_cast at hrest; omega) ?_
      split_ifs <;> omega
    · exact ⟨last, if_neg hi, hlast⟩

theorem reflowLine_runs {externalOldRow n : Int} {oldLine : TerminalRow} (hE : newColumns = 1 → E)
    (hline : TerminalRow.Valid n oldLine) (h : Reflowing newColumns newRows newTotalRows s) :
    Runs True E (Reflowing newColumns newRows newTotalRows) fun _ =>
      reflowLine old externalOldRow oldLine s := by
  obtain ⟨⟨hcols, cells, hcells⟩, -⟩ := id hline
  obtain ⟨slack, htext⟩ := hcells.text
  have hspace := hcells.space
  simp only [reflowLine]
  refine runs_bind (P := Reflowing newColumns newRows newTotalRows) (runs_forUp (fun i s hi hi' hs =>
    runs_mono (fun _ hs' => hs'.1) (nextRow_runs hs false)) h) fun s₁ h₁ => ?_
  refine runs_bind (P := fun p : Int × Bool => p.1 ≤ oldLine.mSpaceUsed) ?_ ?_
  · by_cases hwhole : decide (externalOldRow = old.oldCursorRow) = true ∨ oldLine.mLineWrap = true
    · simp only [if_pos hwhole]
      exact Lockstep.ok le_rfl
    · simp only [if_neg hwhole]
      obtain ⟨k, hk, hle⟩ := @lastNonSpaceLoop_returns oldLine.mSpaceUsed 0 0 oldLine.mText
        (by rw [hspace, htext, List.length_append]; omega) (by omega)
      simp only [TerminalRow.getSpaceUsed, hk, ok_bind]
      exact Lockstep.ok hle
  · rintro ⟨last, justToCursor⟩ hlast
    simp only at hlast
    simp only [htext, ← TerminalRow.spell_codePointsOf cells]
    refine runs_bind (P := fun t => Reflowing newColumns newRows newTotalRows t.out)
      (reflowLoop_runs hE hline TerminalRow.isScalar_codePointsOf ?_ le_rfl ?_ ?_) ?_
    · exact ⟨h₁.valid, h₁.columns, h₁.screen, h₁.total, h₁.row, h₁.column, h₁.cursorColumn,
        h₁.cursorRow⟩
    · rw [TerminalRow.sum_codePointsOf, hcells.columns]
      simp only
      omega
    · rw [TerminalRow.spell_codePointsOf]
      omega
    · intro t ht
      by_cases hnew : externalOldRow ≠ old.buffer.mScreenRows - 1 ∧ oldLine.mLineWrap = false
      · simp only [if_pos hnew]
        exact runs_mono (fun _ hs' => hs'.1) (nextRow_runs ht true)
      · simp only [if_neg hnew]
        exact Lockstep.ok ht

theorem reflowRow_runs {externalOldRow : Int} (hE : newColumns = 1 → E) (hold : Valid old.buffer)
    (hx : -old.buffer.mActiveTranscriptRows ≤ externalOldRow)
    (hx' : externalOldRow < old.buffer.mScreenRows)
    (h : Reflowing newColumns newRows newTotalRows s) :
    Runs True E (Reflowing newColumns newRows newTotalRows) fun _ => reflowRow old externalOldRow s := by
  obtain ⟨line, r, -, hline, hr, hv⟩ := hold.lineAt hx hx'
  have hinternal : (if old.buffer.mScreenFirstRow + externalOldRow < 0 then
      .ok (old.buffer.mTotalRows + (old.buffer.mScreenFirstRow + externalOldRow))
      else modRows (old.buffer.mScreenFirstRow + externalOldRow) old.buffer.mTotalRows) =
      .ok (old.buffer.slot externalOldRow : Int) := by
    have hin : ¬ (externalOldRow < -old.buffer.mActiveTranscriptRows ∨
        old.buffer.mScreenRows < externalOldRow) := by omega
    rw [← externalToInternalRow_eq hold.toShape hx hx'.le, externalToInternalRow, if_neg hin]
  simp only [reflowRow, hinternal, ok_bind, arrayGet_slot hline, deref_eq hr]
  obtain ⟨blank, hblank⟩ : ∃ blank, (if !s.newCursorPlaced && decide (externalOldRow = old.oldCursorRow)
      then .ok false else r.isBlank) = .ok blank := by
    split_ifs
    · exact ⟨false, rfl⟩
    · exact isBlank_returns hv
  simp only [hblank, ok_bind]
  cases blank with
  | true =>
    exact Lockstep.ok ⟨h.valid, h.columns, h.screen, h.total, h.row, h.column, h.cursorColumn,
      h.cursorRow⟩
  | false => exact reflowLine_runs hE hv h

/-! ## The new array of rows -/

theorem fresh_valid {rows : List TerminalRow} (hc : 1 ≤ newColumns) (h₁ : 1 ≤ newRows)
    (hN : newRows ≤ newTotalRows) (hlen : rows.length = newTotalRows.toNat)
    (hrows : ∀ r ∈ rows, TerminalRow.Valid newColumns r) :
    Valid {
      rows := rows, mLines := (List.range newTotalRows.toNat).map some, mTotalRows := newTotalRows
      mScreenRows := newRows, mColumns := newColumns, mActiveTranscriptRows := 0
      mScreenFirstRow := 0 } := by
  have hget (j : Nat) (hj : j < newTotalRows.toNat) :
      ((List.range newTotalRows.toNat).map some)[j]? = some (some j) := by
    rw [List.getElem?_map, List.getElem?_range hj, Option.map_some]
  have hline (j line : Nat) (hj : ((List.range newTotalRows.toNat).map some)[j]? = some (some line)) :
      j = line ∧ line < newTotalRows.toNat := by
    have hlt : j < newTotalRows.toNat := by
      have := (List.getElem?_eq_some_iff.mp hj).1
      simpa using this
    rw [hget j hlt] at hj
    simp only [Option.some.injEq] at hj
    exact ⟨hj, hj ▸ hlt⟩
  refine ⟨⟨hc, h₁, le_rfl, by simp only; omega, by simp, by simp; omega, ?_, ?_⟩, fun x hx hx' => ?_⟩
  · intro j line hj
    obtain ⟨-, hlt⟩ := hline j line hj
    have hr : line < rows.length := by omega
    exact ⟨rows[line], List.getElem?_eq_getElem hr, hrows _ (List.getElem_mem hr)⟩
  · intro i j line hi hj
    rw [(hline i line hi).1, (hline j line hj).1]
  · have hlt := Ring.index_lt (n := newTotalRows) (x := 0 + x) (by omega)
    exact ⟨_, hget _ (by simp only [slot]; omega)⟩

theorem resizeReflow_runs (h : Valid b) {cursor : Int × Int} {style : Style} (hc : 1 ≤ newColumns)
    (hE : newColumns = 1 → E) (h₁ : 1 ≤ newRows) (hN : newRows ≤ newTotalRows) :
    Runs True E (Resized b newColumns newRows newTotalRows cursor) fun _ =>
      b.resizeReflow newColumns newRows newTotalRows cursor style := by
  simp only [resizeReflow, newArray, if_neg (show ¬ newTotalRows < 0 by omega), ok_bind,
    List.length_replicate]
  refine runs_bind (runs_mapM _ fun _ => TerminalRow.new_runs (by omega) fun _ => trivial) ?_
  rintro rows ⟨hlen, hrows⟩
  rw [List.length_range] at hlen
  have hvalid := fresh_valid hc h₁ hN hlen fun r hr => (hrows r hr).1
  refine runs_bind (P := Reflowing newColumns newRows newTotalRows) (runs_forUp
    (fun i s hi hi' hs => reflowRow_runs hE h hi hi' hs) ⟨hvalid, rfl, rfl, rfl, by simp only; omega,
      le_rfl, by simp only; omega, by simp only; omega⟩) fun s hs => ?_
  exact Lockstep.ok ⟨hs.valid, hs.columns, hs.screen, hs.total, fun _ => hs.cursorColumn,
    fun _ => hs.cursorRow⟩

/-! ## Both -/

/-- Whether `resize` only moves the origin of the ring. -/
def isFastResize (b : TerminalBuffer) (newColumns newRows : Int) : Prop :=
  newColumns = b.mColumns ∧ newRows ≤ b.mTotalRows

theorem resize_runs (h : Valid b) {cursor : Int × Int} {style : Style} {altScreen : Bool}
    (hc : 1 ≤ newColumns) (hE : newColumns = 1 → E) (h₁ : 1 ≤ newRows) (hN : newRows ≤ newTotalRows)
    (hfits : b.isFastResize newColumns newRows → FastResizeFits b newTotalRows altScreen) :
    Runs True E (fun p => Resized b newColumns newRows newTotalRows cursor p ∧
        (0 ≤ p.2.1 ∧ 0 ≤ p.2.2)) fun _ =>
      b.resize newColumns newRows newTotalRows cursor style altScreen := by
  simp only [resize]
  refine runs_bind (P := Resized b newColumns newRows newTotalRows cursor) ?_ ?_
  · by_cases hfast : newColumns = b.mColumns ∧ newRows ≤ b.mTotalRows
    · simp only [if_pos hfast]
      obtain ⟨rfl, hT⟩ := id hfast
      exact resizeRows_runs h h₁ hN hT (hfits hfast)
    · simp only [if_neg hfast]
      exact resizeReflow_runs h hc hE h₁ hN
  · rintro ⟨b', cursor'⟩ hr
    refine Lockstep.ok ⟨⟨hr.valid, hr.columns, hr.screen, hr.total, fun hx => ?_, fun hx => ?_⟩, ?_⟩
    · have := hr.cursorColumn hx
      simp only at this ⊢
      split_ifs <;> omega
    · have := hr.cursorRow hx
      simp only at this ⊢
      split_ifs <;> omega
    · simp only
      split_ifs <;> omega

end TerminalBuffer

end XoDos
