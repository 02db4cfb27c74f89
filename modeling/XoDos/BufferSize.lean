import XoDos.BufferReflow

/-!
# The size of a buffer

The operations on cells leave the size of a buffer alone, and a resize gives it
the size that was asked for and a cursor on the new screen.  This holds for any
buffer, valid or not, whenever the operation returns.
-/

namespace XoDos

namespace TerminalBuffer

open WcWidth (width)

variable [ShortStore] {b b' : TerminalBuffer}

structure SameSize (b b' : TerminalBuffer) : Prop where
  columns : b'.mColumns = b.mColumns
  screen : b'.mScreenRows = b.mScreenRows
  total : b'.mTotalRows = b.mTotalRows

omit [ShortStore] in
theorem SameSize.refl (b : TerminalBuffer) : SameSize b b := ⟨rfl, rfl, rfl⟩

omit [ShortStore] in
theorem SameSize.trans {b'' : TerminalBuffer} (h : SameSize b b') (h' : SameSize b' b'') :
    SameSize b b'' :=
  ⟨h'.columns.trans h.columns, h'.screen.trans h.screen, h'.total.trans h.total⟩

omit [ShortStore] in
theorem update_sameSize (line : Nat) (r : TerminalRow) : SameSize b (b.update line r) := ⟨rfl, rfl, rfl⟩

/-! ## Cells -/

theorem allocateFullLine_sameSize (row : Int) :
    Ensures (fun p => SameSize b p.1) (b.allocateFullLineIfNecessary row) := by
  unfold allocateFullLineIfNecessary
  refine .bind_any fun line => ?_
  cases line with
  | none =>
    unfold allocate
    exact .bind_any fun r => .bind_any fun lines => .ok ⟨rfl, rfl, rfl⟩
  | some line => exact .ok (.refl b)

/-- `setChar` only returns for a cell of the screen. -/
theorem setChar_sameSize {column row : Int} {codePoint : Nat} {style : Style} :
    Ensures (fun b' => SameSize b b' ∧
      0 ≤ row ∧ row < b.mScreenRows ∧ 0 ≤ column ∧ column < b.mColumns)
      (b.setChar column row codePoint style) := by
  unfold setChar
  refine .ite (fun _ => .error _) fun hrange => .bind_any fun internalRow => ?_
  refine .bind (allocateFullLine_sameSize internalRow) fun p hp => ?_
  refine .bind_any fun r => .bind_any fun r' => .ok ⟨hp.trans (update_sameSize _ _), ?_⟩
  omega

theorem blockSet_sameSize {sx sy w h : Int} {val : Nat} {style : Style} :
    Ensures (SameSize b) (b.blockSet sx sy w h val style) := by
  unfold blockSet
  refine .ite (fun _ => .error _) fun _ => ?_
  refine .forUp (fun y b₁ _ _ h₁ => ?_) (.refl b)
  refine .forUp (fun x b₂ _ _ h₂ => ?_) h₁
  exact setChar_sameSize.mono fun b₃ h₃ => h₂.trans h₃.1

theorem copyRow_sameSize {sx w dx source destination : Int} :
    Ensures (SameSize b) (b.copyRow sx w dx source destination) := by
  unfold copyRow
  refine .bind_any fun row => .bind (allocateFullLine_sameSize row) fun p hp => ?_
  refine .bind_any fun row' => .bind (allocateFullLine_sameSize row') fun q hq => ?_
  refine .bind_any fun r => .bind_any fun r' => .bind_any fun r'' => ?_
  exact .ok ((hp.trans hq).trans (update_sameSize _ _))

theorem blockCopy_sameSize {sx sy w h dx dy : Int} :
    Ensures (SameSize b) (b.blockCopy sx sy w h dx dy) := by
  unfold blockCopy
  refine .ite (fun _ => .ok (.refl b)) fun _ => .ite (fun _ => .error _) fun _ => ?_
  exact .forUp (fun y b₁ _ _ h₁ => copyRow_sameSize.mono fun b₂ h₂ => h₁.trans h₂) (.refl b)

omit [ShortStore] in
theorem putLineWrap_sameSize {row : Int} {wrap : Bool} :
    Ensures (SameSize b) (b.putLineWrap row wrap) := by
  unfold putLineWrap
  refine .bind_any fun line => .bind_any fun r => ?_
  cases line with
  | none => exact .ok (.refl b)
  | some line => exact .ok (update_sameSize _ _)

theorem getStyleAt_sameSize {row column : Int} :
    Ensures (fun p => SameSize b p.1) (b.getStyleAt row column) := by
  unfold getStyleAt
  refine .bind_any fun row => .bind (allocateFullLine_sameSize row) fun p hp => ?_
  exact .bind_any fun r => .bind_any fun style => .ok hp

omit [ShortStore] in
theorem setOrClearEffect_sameSize {bits : BitVec 32} {setOrClear reverse rect : Bool}
    {leftMargin rightMargin top left bottom right : Int} :
    Ensures (SameSize b) (b.setOrClearEffect bits setOrClear reverse rect leftMargin rightMargin top
      left bottom right) := by
  unfold setOrClearEffect
  refine .forUp (fun y b₁ _ _ h₁ => .bind_any fun line => ?_) (.refl b)
  refine .forUp (fun x b₂ _ _ h₂ => ?_) h₁
  refine .bind_any fun r => .bind_any fun style => .bind_any fun styles => ?_
  cases line with
  | none => exact .ok h₂
  | some line => exact .ok (h₂.trans (update_sameSize _ _))

/-! ## Lines -/

omit [ShortStore] in
theorem clearTranscript_sameSize : Ensures (SameSize b) b.clearTranscript := by
  unfold clearTranscript
  exact .bind_any fun lines => .ok ⟨rfl, rfl, rfl⟩

omit [ShortStore] in
theorem blockCopyLinesDown_sameSize {srcInternal len : Int} :
    Ensures (SameSize b) (b.blockCopyLinesDown srcInternal len) := by
  unfold blockCopyLinesDown
  refine .ite (fun _ => .ok (.refl b)) fun _ => ?_
  refine .bind_any fun last => .bind_any fun line => .bind_any fun lines => ?_
  exact .bind_any fun first => .bind_any fun lines' => .ok ⟨rfl, rfl, rfl⟩

theorem blankLine_sameSize {blankRow : Int} {style : Style} :
    Ensures (SameSize b) (b.blankLine blankRow style) := by
  unfold blankLine
  refine .bind_any fun line => ?_
  cases line with
  | none =>
    unfold allocate
    refine .bind (P := fun p => SameSize b p.1) ?_ fun p hp => .ok hp
    exact .bind_any fun r => .bind_any fun lines => .ok ⟨rfl, rfl, rfl⟩
  | some line => exact .bind_any fun r => .bind_any fun r' => .ok (update_sameSize _ _)

theorem scrollDownOneLine_sameSize {topMargin bottomMargin : Int} {style : Style} :
    Ensures (SameSize b) (b.scrollDownOneLine topMargin bottomMargin style) := by
  unfold scrollDownOneLine
  refine .ite (fun _ => .error _) fun _ => ?_
  refine .bind blockCopyLinesDown_sameSize fun b₁ h₁ => .bind_any fun below => ?_
  refine .bind blockCopyLinesDown_sameSize fun b₂ h₂ => .bind_any fun first => .bind_any fun row => ?_
  exact blankLine_sameSize.mono fun b₃ h₃ =>
    ⟨h₃.columns.trans (h₁.trans h₂).columns, h₃.screen.trans (h₁.trans h₂).screen,
      h₃.total.trans (h₁.trans h₂).total⟩

theorem new_size {columns totalRows screenRows : Int} :
    Ensures (fun b => b.mColumns = columns ∧ b.mScreenRows = screenRows ∧ b.mTotalRows = totalRows)
      (new columns totalRows screenRows) := by
  unfold new
  refine .bind_any fun lines => blockSet_sameSize.mono fun b hb => ?_
  exact ⟨hb.columns, hb.screen, hb.total⟩

/-! ## Resizing -/

/-- The size and the cursor that a resize leaves behind. -/
structure ResizedTo (newColumns newRows newTotalRows : Int) (p : TerminalBuffer × (Int × Int)) :
    Prop where
  columns : p.1.mColumns = newColumns
  screen : p.1.mScreenRows = newRows
  total : p.1.mTotalRows = newTotalRows
  cursorColumn : p.2.1 < newColumns
  cursorRow : p.2.2 < newRows

omit [ShortStore] in
/-- Rows below the cursor are skipped, each at most once. -/
theorem skipBlankLoop_le {cursorRow : Int} (n : Nat) (shift : Int) :
    Ensures (fun k => shift - max 0 (n - cursorRow) ≤ k) (b.skipBlankLoop cursorRow n shift) := by
  induction n generalizing shift with
  | zero =>
    unfold skipBlankLoop
    exact .ok (by omega)
  | succ n ih =>
    unfold skipBlankLoop
    push_cast
    refine .ite (fun _ => .ok (by omega)) fun hn => .bind_any fun line => .bind_any fun blank => ?_
    refine .ite (fun _ => ?_) fun _ => ?_
    · refine .ite (fun _ => .ok (by omega)) fun _ => (ih (shift - 1)).mono fun k hk => ?_
      omega
    · refine (ih shift).mono fun k hk => ?_
      omega

theorem resizeRows_size {newRows newTotalRows : Int} {cursor : Int × Int} {style : Style}
    {altScreen : Bool} (h₁ : 1 ≤ newRows) (hcolumn : cursor.1 < b.mColumns)
    (hrow : cursor.2 < b.mScreenRows) :
    Ensures (ResizedTo b.mColumns newRows newTotalRows)
      (b.resizeRows newRows newTotalRows cursor style altScreen) := by
  unfold resizeRows
  refine .bind (P := fun p => p.1.mColumns = b.mColumns ∧ cursor.2 - p.2 < newRows) ?_ ?_
  · refine .ite (fun _ => ?_) fun hshrink => .ite (fun _ => ?_) fun _ => .ok ⟨rfl, ?_⟩
    · refine .bind (skipBlankLoop_le _ _) fun k hk => .ok ⟨rfl, ?_⟩
      simp only
      omega
    · refine .ite (fun _ => ?_) fun _ => .ok ⟨rfl, by simp only; omega⟩
      refine .bind (P := fun b' => b'.mColumns = b.mColumns) ?_ fun b' hb' => .ok ⟨hb', ?_⟩
      · refine .forUp (fun i b₁ _ _ h₁ => .bind_any fun row => ?_) rfl
        refine .bind (allocateFullLine_sameSize row) fun p hp => ?_
        exact .bind_any fun r => .bind_any fun r' => .ok (hp.columns.trans h₁)
      · simp only
        omega
    · simp only
      omega
  · rintro ⟨b', shift⟩ ⟨hb', hs⟩
    refine .bind_any fun first => .ok ⟨hb', rfl, rfl, hcolumn, hs⟩

/-- What the slow resize keeps: the output has the new size, and the cursor, where it has been
placed, is inside. -/
structure ReflowTo (newColumns newRows newTotalRows : Int) (s : Reflow) : Prop where
  columns : s.buffer.mColumns = newColumns
  screen : s.buffer.mScreenRows = newRows
  total : s.buffer.mTotalRows = newTotalRows
  cursorColumn : s.newCursorColumn < newColumns
  cursorRow : s.newCursorRow < newRows

variable {newColumns newRows newTotalRows : Int}

omit [ShortStore] in
theorem ReflowTo.redraw {s : Reflow} (h : ReflowTo newColumns newRows newTotalRows s)
    {buffer : TerminalBuffer} (hb : SameSize s.buffer buffer) :
    ReflowTo newColumns newRows newTotalRows { s with buffer := buffer } :=
  ⟨hb.columns.trans h.columns, hb.screen.trans h.screen, hb.total.trans h.total, h.cursorColumn,
    h.cursorRow⟩

theorem ReflowTo.nextRow {s : Reflow} (h : ReflowTo newColumns newRows newTotalRows s)
    {old : OldState} {moveCursor : Bool} :
    Ensures (ReflowTo newColumns newRows newTotalRows) (s.nextRow old moveCursor) := by
  have hrow := h.cursorRow
  unfold Reflow.nextRow
  refine .ite (fun _ => .bind scrollDownOneLine_sameSize fun buffer hb => .ok ?_) fun _ => .ok ?_
  · refine ⟨hb.columns.trans h.columns, hb.screen.trans h.screen, hb.total.trans h.total,
      h.cursorColumn, ?_⟩
    simp only
    split_ifs <;> omega
  · exact ⟨h.columns, h.screen, h.total, h.cursorColumn, h.cursorRow⟩

theorem reflowChar_size {old : OldState} {row : Int} {line : TerminalRow} {justToCursor : Bool}
    {s : LineCopy} {codePoint : Nat} (h : ReflowTo newColumns newRows newTotalRows s.out) :
    Ensures (fun p => ReflowTo newColumns newRows newTotalRows p.1.out)
      (reflowChar old row line justToCursor s codePoint) := by
  unfold reflowChar
  refine .bind_any fun style => .bind (P := ReflowTo newColumns newRows newTotalRows) ?_ ?_
  · refine .ite (fun _ => ?_) fun _ => .ok h
    exact .bind putLineWrap_sameSize fun buffer hb => (h.redraw hb).nextRow
  intro out hout
  refine .bind setChar_sameSize fun buffer ⟨hb, hrow⟩ => ?_
  have hout' := hout.redraw hb
  refine .ite (fun hw => .ok ?_) fun _ => .ok hout'
  -- The cell of the cursor has just been written, so it is on the screen.
  rw [if_neg (by omega), hout.columns, hout.screen] at hrow
  simp only
  split_ifs
  · exact ⟨hout'.columns, hout'.screen, hout'.total, by simp only; omega, by simp only; omega⟩
  · exact ⟨hout'.columns, hout'.screen, hout'.total, hout'.cursorColumn, hout'.cursorRow⟩

theorem reflowLoop_size {old : OldState} {row : Int} {line : TerminalRow} {justToCursor : Bool}
    {last : Int} (rest : List Nat) (i : Int) (s : LineCopy)
    (h : ReflowTo newColumns newRows newTotalRows s.out) :
    Ensures (fun s' => ReflowTo newColumns newRows newTotalRows s'.out)
      (reflowLoop old row line justToCursor last rest i s) := by
  induction rest, i, s using reflowLoop.induct last with
  | case1 i s hi =>
    rw [reflowLoop.eq_def]
    simp only [if_pos hi]
    exact .error _
  | case2 i s hi c hc =>
    rw [reflowLoop.eq_def]
    simp only [if_pos hi, if_pos hc]
    exact .error _
  | case3 i s hi c hc low rest ih =>
    rw [reflowLoop.eq_def]
    simp only [if_pos hi, if_pos hc]
    refine .bind (reflowChar_size h) fun p hp => ?_
    exact .ite (fun _ => .ok hp) fun _ => ih p.1 hp
  | case4 i s hi c rest hc ih =>
    rw [reflowLoop.eq_def]
    simp only [if_pos hi, if_neg hc]
    refine .bind (reflowChar_size h) fun p hp => ?_
    exact .ite (fun _ => .ok hp) fun _ => ih p.1 hp
  | case5 rest i s hi =>
    rw [reflowLoop.eq_def]
    simp only [if_neg hi]
    exact .ok h

theorem reflowLine_size {old : OldState} {row : Int} {line : TerminalRow} {s : Reflow}
    (h : ReflowTo newColumns newRows newTotalRows s) :
    Ensures (ReflowTo newColumns newRows newTotalRows) (reflowLine old row line s) := by
  unfold reflowLine
  refine .bind (.forUp (fun _ s _ _ hs => hs.nextRow) h) fun s₁ h₁ => ?_
  have h₂ : ReflowTo newColumns newRows newTotalRows { s₁ with skippedBlankLines := 0 } :=
    ⟨h₁.columns, h₁.screen, h₁.total, h₁.cursorColumn, h₁.cursorRow⟩
  refine .bind_any fun p => .bind (reflowLoop_size _ _ ⟨_, 0, 0⟩ h₂) fun copied hcopied => ?_
  exact .ite (fun _ => hcopied.nextRow) fun _ => .ok hcopied

theorem reflowRow_size {old : OldState} {row : Int} {s : Reflow}
    (h : ReflowTo newColumns newRows newTotalRows s) :
    Ensures (ReflowTo newColumns newRows newTotalRows) (reflowRow old row s) := by
  have hskip : ReflowTo newColumns newRows newTotalRows
      { s with skippedBlankLines := s.skippedBlankLines + 1 } :=
    ⟨h.columns, h.screen, h.total, h.cursorColumn, h.cursorRow⟩
  unfold reflowRow
  refine .bind_any fun internalRow => .bind_any fun line => ?_
  cases line with
  | none => exact .ok hskip
  | some line =>
    refine .bind_any fun r => .bind_any fun blank => ?_
    exact .ite (fun _ => .ok hskip) fun _ => reflowLine_size h

theorem resizeReflow_size {cursor : Int × Int} {style : Style} (hc : 1 ≤ newColumns)
    (h₁ : 1 ≤ newRows) :
    Ensures (ResizedTo newColumns newRows newTotalRows)
      (b.resizeReflow newColumns newRows newTotalRows cursor style) := by
  unfold resizeReflow
  refine .bind_any fun lines => .bind_any fun rows => ?_
  refine .bind (P := ReflowTo newColumns newRows newTotalRows)
    (.forUp (fun _ _ _ _ hs => reflowRow_size hs) ?_) fun s hs => .ok ?_
  · exact ⟨rfl, rfl, rfl, by simp only; omega, by simp only; omega⟩
  · exact ⟨hs.columns, hs.screen, hs.total, hs.cursorColumn, hs.cursorRow⟩

/-- A cursor that the fast resize is given has to be on the old screen. -/
theorem resize_size {cursor : Int × Int} {style : Style} {altScreen : Bool} (hc : 1 ≤ newColumns)
    (h₁ : 1 ≤ newRows)
    (hcursor : b.isFastResize newColumns newRows → cursor.1 < b.mColumns ∧ cursor.2 < b.mScreenRows) :
    Ensures (fun p => ResizedTo newColumns newRows newTotalRows p ∧ 0 ≤ p.2.1 ∧ 0 ≤ p.2.2)
      (b.resize newColumns newRows newTotalRows cursor style altScreen) := by
  unfold resize
  refine .bind (P := ResizedTo newColumns newRows newTotalRows) ?_ ?_
  · refine .ite (fun hfast => ?_) fun _ => resizeReflow_size hc h₁
    obtain ⟨hcolumn, hrow⟩ := hcursor hfast
    rw [hfast.1]
    exact resizeRows_size h₁ hcolumn hrow
  · rintro ⟨b', cursor'⟩ ⟨hcol, hscreen, htotal, hx, hy⟩
    simp only at hx hy
    refine .ok ⟨⟨hcol, hscreen, htotal, ?_, ?_⟩, ?_⟩ <;> simp only <;> split_ifs <;> omega

/-! ## Slots -/

omit [ShortStore] in
theorem externalToInternalRow_cases {x j : Int} (hT : b.mTotalRows ≠ 0)
    (hj : b.externalToInternalRow x = .ok j) :
    (b.mScreenFirstRow + x < 0 ∧ j = b.mTotalRows + (b.mScreenFirstRow + x)) ∨
      (0 ≤ b.mScreenFirstRow + x ∧ j = (b.mScreenFirstRow + x) % b.mTotalRows) := by
  simp only [externalToInternalRow, modRows, if_neg hT] at hj
  split_ifs at hj with hrange hneg <;> cases hj
  · exact .inl ⟨hneg, rfl⟩
  · exact .inr ⟨by omega, Int.tmod_eq_emod_of_nonneg (by omega)⟩

omit [ShortStore] in
/-- Rows of a screen that fits into the ring have slots of their own. -/
theorem externalToInternalRow_inj (h : b.mScreenRows ≤ b.mTotalRows) {x y j : Int} (hx : 0 ≤ x)
    (hx' : x < b.mScreenRows) (hy : 0 ≤ y) (hy' : y < b.mScreenRows)
    (hxj : b.externalToInternalRow x = .ok j) (hyj : b.externalToInternalRow y = .ok j) : x = y := by
  obtain ⟨hx₁, hx₂⟩ | ⟨hx₁, hx₂⟩ := externalToInternalRow_cases (by omega) hxj <;>
    obtain ⟨hy₁, hy₂⟩ | ⟨hy₁, hy₂⟩ := externalToInternalRow_cases (by omega) hyj
  · omega
  · rw [Int.emod_eq_of_lt hy₁ (by omega)] at hy₂
    omega
  · rw [Int.emod_eq_of_lt hx₁ (by omega)] at hx₂
    omega
  · have hdvd := Int.emod_eq_emod_iff_emod_sub_eq_zero.mp (hx₂.symm.trans hy₂)
    have hzero := Int.eq_zero_of_abs_lt_dvd (Int.dvd_of_emod_eq_zero hdvd) (by
      rw [abs_lt]
      omega)
    omega

end TerminalBuffer

end XoDos
