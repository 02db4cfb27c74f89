import XoDos.BufferInvariant
import XoDos.BufferRows

/-!
# Changing the number of rows

The fast resize moves the origin of the ring by a shift that is known before:
the rows that the screen loses, less the blank ones below the cursor, or as many
rows as the history can give back.  Where the size of the ring stays, this moves
the screen over the rows.  Where it changes, as it does for the alternate buffer,
the rows behind the new origin are looked up modulo another number.
-/

namespace XoDos

namespace TerminalBuffer

variable {b b' : TerminalBuffer} {newRows newTotalRows : Int} {cursor : Int × Int} {style : Style}
  {altScreen : Bool}

/-! ## How far the screen moves -/

/-- Whether the row at `x` is blank. -/
def blankAt (b : TerminalBuffer) (x : Int) : Bool :=
  match b.rowAt x >>= TerminalRow.isBlank with
  | .ok blank => blank
  | .error _ => false

/-- How many of the rows from 1 up to `n` are blank and below row `y`. -/
def blankBelow (b : TerminalBuffer) (y : Int) (n : Nat) : Nat :=
  (List.range n).countP fun i : Nat => decide (y < i + 1) && b.blankAt (i + 1)

theorem blankBelow_succ (b : TerminalBuffer) (y : Int) (n : Nat) :
    b.blankBelow y (n + 1) =
      b.blankBelow y n + if y < n + 1 ∧ b.blankAt (n + 1) = true then 1 else 0 := by
  rw [blankBelow, List.range_succ, List.countP_append, List.countP_singleton, blankBelow]
  simp only [Bool.and_eq_true, decide_eq_true_eq]

theorem blankBelow_of_le (b : TerminalBuffer) {y : Int} {n : Nat} (h : (n : Int) ≤ y) :
    b.blankBelow y n = 0 := by
  apply List.countP_eq_zero.mpr
  intro i hi
  have hlt := List.mem_range.mp hi
  simp only [Bool.and_eq_true, decide_eq_true_eq, not_and]
  omega

theorem Valid.blankAt_eq (h : Valid b) {x : Int} (h₁ : -b.mActiveTranscriptRows ≤ x)
    (h₂ : x < b.mScreenRows) {line : Nat} {r : TerminalRow} (hat : b.lineAt x = .ok (some line))
    (hr : b.rows[line]? = some r) : r.isBlank = .ok (b.blankAt x) := by
  obtain ⟨r', hr', hv⟩ := h.rowAt h₁ h₂
  have hsame := hr'
  rw [TerminalBuffer.rowAt, hat, ok_bind, deref_eq hr] at hsame
  cases hsame
  obtain ⟨blank, hblank⟩ := isBlank_returns hv
  rw [blankAt, hr', ok_bind, hblank]

/-- The loop takes one off the shift for each blank row below the cursor. -/
theorem skipBlankLoop_eq (h : Valid b) {y shift : Int} {n : Nat} (hn : n < b.mScreenRows)
    (hshift : 0 < shift) : b.skipBlankLoop y n shift = .ok (max 0 (shift - b.blankBelow y n)) := by
  induction n generalizing shift with
  | zero =>
    rw [blankBelow, List.range_zero, List.countP_nil, Nat.cast_zero, sub_zero, max_eq_right hshift.le]
    rfl
  | succ n ih =>
    rw [skipBlankLoop]
    by_cases hy : (n : Int) + 1 ≤ y
    · rw [if_pos hy, blankBelow_of_le b (by push_cast; exact hy), Nat.cast_zero, sub_zero,
        max_eq_right hshift.le]
      rfl
    have hhist := h.history
    push_cast at hn
    obtain ⟨line, r, hat, -, hr, -⟩ := h.lineAt (x := (n : Int) + 1) (by omega) hn
    have hblank := h.blankAt_eq (by omega) hn hat hr
    simp only [if_neg hy, hat, ok_bind, deref_eq hr, hblank, blankBelow_succ]
    by_cases hb : b.blankAt (n + 1) = true
    · have hcount : y < n + 1 ∧ b.blankAt (n + 1) = true := ⟨by omega, hb⟩
      rw [if_pos hb, if_pos hcount]
      by_cases hz : shift - 1 = 0
      · rw [if_pos hz, max_eq_left (by push_cast; omega)]
        rfl
      · rw [if_neg hz, ih (by omega) (by omega)]
        congr 2
        push_cast
        omega
    · have hcount : ¬(y < n + 1 ∧ b.blankAt (n + 1) = true) := fun hc => hb hc.2
      rw [if_neg hb, if_neg hcount, ih (by omega) hshift]
      rfl

/-- How many rows the fast resize moves the screen down, for a cursor on row `y`. -/
def rowShift (b : TerminalBuffer) (newRows y : Int) : Int :=
  if newRows < b.mScreenRows then
    max 0 (b.mScreenRows - newRows - b.blankBelow y (b.mScreenRows - 1).toNat)
  else max (b.mScreenRows - newRows) (-b.mActiveTranscriptRows)

theorem rowShift_low (h : Shape b) (y : Int) : -b.mActiveTranscriptRows ≤ b.rowShift newRows y := by
  have hhist := h.history
  rw [rowShift]
  split_ifs <;> omega

theorem rowShift_high (h : Shape b) (y : Int) :
    b.rowShift newRows y ≤ max 0 (b.mScreenRows - newRows) := by
  have hhist := h.history
  rw [rowShift]
  split_ifs <;> omega

/-! ## Slots -/

/-- The row object in a slot of the ring. -/
def rowIn (b : TerminalBuffer) (j : Nat) : Java TerminalRow := do
  let line ← arrayGet b.mLines j
  b.deref line

theorem rowIn_eq {j line : Nat} {r : TerminalRow} (hline : b.mLines[j]? = some (some line))
    (hr : b.rows[line]? = some r) : b.rowIn j = .ok r := by
  rw [rowIn, arrayGet_slot hline, ok_bind, deref_eq hr]

theorem Shape.rowAt_eq (h : Shape b) {x : Int} (h₁ : -b.mActiveTranscriptRows ≤ x)
    (h₂ : x < b.mScreenRows) : b.rowAt x = b.rowIn (b.slot x) := by
  rw [rowAt, lineAt, externalToInternalRow_eq h h₁ h₂.le, ok_bind]
  rfl

/-- A row of the screen, where little is known of the ring. -/
theorem lineAt_screen (hact : 0 ≤ b.mActiveTranscriptRows) (hfirst : 0 ≤ b.mScreenFirstRow)
    (hT : 0 < b.mTotalRows) {x : Int} (h₀ : 0 ≤ x) (h₁ : x < b.mScreenRows) :
    b.lineAt x = arrayGet b.mLines (b.slot x) := by
  have hin : ¬(x < -b.mActiveTranscriptRows ∨ b.mScreenRows < x) := by omega
  have hpos : ¬b.mScreenFirstRow + x < 0 := by omega
  rw [lineAt, externalToInternalRow, if_neg hin]
  simp only [if_neg hpos]
  rw [modRows_eq (by omega) hT, ok_bind, slot]

/-- A row of so many columns, with a style for each. -/
structure Fitting (columns : Int) (r : TerminalRow) : Prop where
  size : r.mColumns = columns
  styles : r.mStyle.length = columns

/-- The references point to different rows that fit. -/
structure Linked (b : TerminalBuffer) : Prop where
  row : ∀ j line : Nat, b.mLines[j]? = some (some line) → ∃ r, b.rows[line]? = some r ∧ Fitting b.mColumns r
  distinct : ∀ i j line : Nat, b.mLines[i]? = some (some line) → b.mLines[j]? = some (some line) →
    i = j

theorem Shape.linked (h : Shape b) : Linked b where
  row j line hj := by
    obtain ⟨r, hr, ⟨hc, cells, hcells⟩, -⟩ := h.objects.valid j line hj
    exact ⟨r, hr, hc, by rw [hcells.styles, hc]⟩
  distinct := h.objects.distinct

theorem fitting_of_blank (hc : 0 ≤ b.mColumns) {style : Style} {r : TerminalRow}
    (h : TerminalRow.Blank b.mColumns style r) : Fitting b.mColumns r :=
  ⟨h.size, by rw [h.styles, List.length_replicate, Int.toNat_of_nonneg hc]⟩

/-- Clear the row in slot `j`, as the fast resize does with the rows that it reveals. -/
def clearSlot (b : TerminalBuffer) (j : Int) (style : Style) : Java TerminalBuffer := do
  let (b, line) ← b.allocateFullLineIfNecessary j
  let r ← b.deref (some line)
  let r ← r.clear style
  return b.update line r

/-- What clearing slot `j` does. -/
structure Cleared (b : TerminalBuffer) (j : Nat) (style : Style) (b' : TerminalBuffer) : Prop where
  linked : Linked b'
  grown : Grown b b'
  blank : ∃ r, b'.rowIn j = .ok r ∧ TerminalRow.Blank b.mColumns style r
  other : ∀ i : Nat, i ≠ j → b'.rowIn i = b.rowIn i

theorem rowIn_congr {i : Nat} (hl : b'.mLines[i]? = b.mLines[i]?)
    (hr : ∀ line : Nat, b.mLines[i]? = some (some line) → b'.rows[line]? = b.rows[line]?) :
    b'.rowIn i = b.rowIn i := by
  simp only [rowIn, arrayGet, if_pos (Int.natCast_nonneg i), Int.toNat_natCast, hl]
  cases hi : b.mLines[i]? with
  | none => rfl
  | some line =>
    cases line with
    | none => rfl
    | some line => simp only [ok_bind, deref, hr line hi]

/-- A method of the row object in slot `j`. -/
theorem Linked.update (h : Linked b) {j line : Nat} {r r' : TerminalRow}
    (hline : b.mLines[j]? = some (some line)) (hr : b.rows[line]? = some r)
    (hr' : Fitting b.mColumns r') :
    Linked (b.update line r') ∧ Grown b (b.update line r') ∧ (b.update line r').rowIn j = .ok r' ∧
      ∀ i : Nat, i ≠ j → (b.update line r').rowIn i = b.rowIn i := by
  have hlt : line < b.rows.length := (List.getElem?_eq_some_iff.mp hr).1
  have hself : (b.update line r').rows[line]? = some r' := List.getElem?_set_self hlt
  have hrest (l : Nat) (hl : l ≠ line) : (b.update line r').rows[l]? = b.rows[l]? :=
    List.getElem?_set_ne hl.symm
  refine ⟨⟨fun i l hi => ?_, h.distinct⟩, ⟨rfl, rfl, rfl, rfl, rfl, rfl, fun _ _ hi => hi⟩,
    rowIn_eq hline hself, fun i hij => rowIn_congr rfl fun l hl => hrest l ?_⟩
  · by_cases hl : l = line
    · exact ⟨r', hl ▸ hself, hr'⟩
    · rw [hrest l hl]
      exact h.row i l hi
  · rintro rfl
    exact hij (h.distinct _ _ _ hl hline)

theorem Linked.allocate (h : Linked b) (hc : 0 ≤ b.mColumns) {j : Nat}
    (hnull : b.mLines[j]? = some none) :
    ∃ b' r, b.allocate j 0 = .ok (b', b.rows.length) ∧ Linked b' ∧ Grown b b' ∧
      b'.mLines[j]? = some (some b.rows.length) ∧ b'.rows[b.rows.length]? = some r ∧
      ∀ i : Nat, i ≠ j → b'.rowIn i = b.rowIn i := by
  obtain ⟨r, hnew, hblank⟩ := TerminalRow.new_blank 0 hc
  have hj : j < b.mLines.length := (List.getElem?_eq_some_iff.mp hnull).1
  have hlines (i : Nat) (hij : i ≠ j) :
      (b.mLines.set j (some b.rows.length))[i]? = b.mLines[i]? := List.getElem?_set_ne hij.symm
  -- The new row is the last of the heap, and no other slot refers to it.
  have hold (i line : Nat) (hi : b.mLines[i]? = some (some line)) :
      line ≠ b.rows.length ∧ (b.rows ++ [r])[line]? = b.rows[line]? := by
    obtain ⟨s, hs, -⟩ := h.row i line hi
    have hlt := (List.getElem?_eq_some_iff.mp hs).1
    exact ⟨by omega, List.getElem?_append_left hlt⟩
  have hself : (b.mLines.set j (some b.rows.length))[j]? = some (some b.rows.length) :=
    List.getElem?_set_self hj
  have hfresh : (b.rows ++ [r])[b.rows.length]? = some r := by simp
  refine ⟨{ b with rows := b.rows ++ [r], mLines := b.mLines.set j (some b.rows.length) }, r, ?_,
    ⟨fun i line hi => ?_, fun i k line hi hk => ?_⟩, ⟨rfl, rfl, rfl, rfl, rfl, by simp,
      fun i line hi => ?_⟩, hself, hfresh, fun i hij => ?_⟩
  · rw [TerminalBuffer.allocate, hnew, ok_bind, arraySet_ok _ (by omega) (by omega), ok_bind,
      Int.toNat_natCast]
    rfl
  · simp only at hi ⊢
    by_cases hij : i = j
    · rw [hij, hself] at hi
      cases hi
      exact ⟨r, hfresh, fitting_of_blank hc hblank⟩
    · rw [hlines i hij] at hi
      rw [(hold i line hi).2]
      exact h.row i line hi
  · simp only at hi hk
    by_cases hij : i = j
    · by_cases hkj : k = j
      · rw [hij, hkj]
      · rw [hij, hself] at hi
        cases hi
        rw [hlines k hkj] at hk
        exact absurd rfl (hold k _ hk).1
    · rw [hlines i hij] at hi
      by_cases hkj : k = j
      · rw [hkj, hself] at hk
        cases hk
        exact absurd rfl (hold i _ hi).1
      · rw [hlines k hkj] at hk
        exact h.distinct i k line hi hk
  · simp only
    rw [hlines i (by rintro rfl; rw [hnull] at hi; cases hi)]
    exact hi
  · exact rowIn_congr (hlines i hij) fun line hi => (hold i line hi).2

theorem Linked.clearSlot (h : Linked b) (hc : 0 ≤ b.mColumns) {j : Nat} (hj : j < b.mLines.length)
    (style : Style) : ∃ b', b.clearSlot j style = .ok b' ∧ Cleared b j style b' := by
  -- The object that is cleared, which may have to be allocated before.
  have hline : ∃ b₁ line r, b.allocateFullLineIfNecessary j = .ok (b₁, line) ∧ Linked b₁ ∧
      Grown b b₁ ∧ b₁.mLines[j]? = some (some line) ∧ b₁.rows[line]? = some r ∧
      ∀ i : Nat, i ≠ j → b₁.rowIn i = b.rowIn i := by
    obtain ⟨line, hline⟩ : ∃ line, b.mLines[j]? = some line := ⟨_, List.getElem?_eq_getElem hj⟩
    rw [allocateFullLineIfNecessary, arrayGet_slot hline, ok_bind]
    cases line with
    | none =>
      obtain ⟨b₁, r, hb₁, hl, hg, hj₁, hr, hother⟩ := h.allocate hc hline
      exact ⟨b₁, _, r, hb₁, hl, hg, hj₁, hr, hother⟩
    | some line =>
      obtain ⟨r, hr, -⟩ := h.row j line hline
      exact ⟨b, line, r, rfl, h, .refl b, hline, hr, fun _ _ => rfl⟩
  obtain ⟨b₁, line, r, hb₁, h₁, hg, hj₁, hr, hother⟩ := hline
  obtain ⟨r₀, hr₀, hcols, hst⟩ := h₁.row j line hj₁
  rw [hr] at hr₀
  cases hr₀
  obtain ⟨r', hr', hblank⟩ := TerminalRow.clear_blank style hcols hst
  obtain ⟨h₂, hg₂, hself, hrest⟩ := h₁.update hj₁ hr (fitting_of_blank (hg.columns ▸ hc) hblank)
  refine ⟨b₁.update line r', ?_, h₂, hg.trans hg₂, ⟨r', hself, hg.columns ▸ hblank⟩,
    fun i hij => (hrest i hij).trans (hother i hij)⟩
  rw [TerminalBuffer.clearSlot, hb₁, ok_bind]
  simp only [deref_eq hr, ok_bind, hr']
  rfl

theorem Shape.slot_ne (h : Shape b) {x y : Int} (hxy : x < y) (hT : y - x < b.mTotalRows) :
    b.slot x ≠ b.slot y := by
  intro he
  have := Ring.index_inj h.total_pos (by omega) (by omega) he
  omega

/-- The `n` rows behind the screen have been blanked. -/
structure Revealed (b : TerminalBuffer) (n : Int) (style : Style) (b' : TerminalBuffer) : Prop where
  grown : Grown b b'
  blank : ∀ x, b.mScreenRows ≤ x → x < b.mScreenRows + n →
    ∃ r, b'.rowIn (b.slot x) = .ok r ∧ TerminalRow.Blank b.mColumns style r
  kept : ∀ x, b.mScreenRows + n - b.mTotalRows ≤ x → x < b.mScreenRows →
    b'.rowIn (b.slot x) = b.rowIn (b.slot x)

theorem Revealed.nothing (b : TerminalBuffer) (style : Style) : Revealed b 0 style b :=
  ⟨.refl b, fun x h₁ h₂ => by omega, fun _ _ _ => rfl⟩

theorem clearBelow_eq (h : Shape b) {n : Int} (h₀ : 0 ≤ n) (hn : n ≤ b.mTotalRows) (style : Style) :
    ∃ b', forUp 0 n (fun i b => do
        let row ← modRows (b.mScreenFirstRow + b.mScreenRows + i) b.mTotalRows
        let (b, line) ← b.allocateFullLineIfNecessary row
        let r ← b.deref (some line)
        let r ← r.clear style
        return b.update line r) b = .ok b' ∧ Revealed b n style b' := by
  have hT := h.total_pos
  have hfirst := h.first
  have hs := h.screen
  have hc := h.columns
  have hstart : Linked b ∧ Revealed b 0 style b := ⟨h.linked, .nothing b style⟩
  have hstep (i : Int) (b₁ : TerminalBuffer) (hi : 0 ≤ i) (hin : i < n)
      (hI : Linked b₁ ∧ Revealed b i style b₁) :
      ∃ b₂, (modRows (b₁.mScreenFirstRow + b₁.mScreenRows + i) b₁.mTotalRows >>= fun row =>
          b₁.clearSlot row style) = .ok b₂ ∧ Linked b₂ ∧ Revealed b (i + 1) style b₂ := by
    obtain ⟨hl, hg, hblank, hkept⟩ := hI
    have hrow : modRows (b₁.mScreenFirstRow + b₁.mScreenRows + i) b₁.mTotalRows =
        .ok (b.slot (b.mScreenRows + i)) := by
      rw [hg.first, hg.screen, hg.total, modRows_eq (by omega) hT, add_assoc, slot]
    have hlt : b.slot (b.mScreenRows + i) < b₁.mLines.length := hg.lines ▸ h.slot_lt _
    have hc₁ : 0 ≤ b₁.mColumns := by
      rw [hg.columns]
      omega
    obtain ⟨b₂, hb₂, hcl⟩ := hl.clearSlot hc₁ hlt style
    refine ⟨b₂, by rw [hrow, ok_bind, hb₂], hcl.linked, hg.trans hcl.grown, fun x hx hx' => ?_,
      fun x hx hx' => ?_⟩
    · by_cases hxi : x = b.mScreenRows + i
      · rw [hxi, ← hg.columns]
        exact hcl.blank
      · rw [hcl.other _ (h.slot_ne (by omega) (by omega))]
        exact hblank x hx (by omega)
    · rw [hcl.other _ (h.slot_ne (by omega) (by omega))]
      exact hkept x (by omega) hx'
  obtain ⟨b', hb', -, hrev⟩ := forUp_returns h₀ hstep hstart
  exact ⟨b', hb', hrev⟩

/-! ## What the fast resize returns -/

/-- The screen starts `shift` rows further down, and has another size. -/
def moveScreen (b : TerminalBuffer) (shift newRows newTotalRows : Int) (altScreen : Bool) :
    TerminalBuffer :=
  { b with
    mScreenFirstRow := Ring.index b.mTotalRows (b.mScreenFirstRow + shift)
    mTotalRows := newTotalRows
    mActiveTranscriptRows := if altScreen then 0 else max 0 (b.mActiveTranscriptRows + shift)
    mScreenRows := newRows }

theorem resizeRows_eq (h : Valid b) (h₁ : 1 ≤ newRows) (hT : newRows ≤ b.mTotalRows) :
    ∃ b₁, Revealed b (max 0 (newRows + b.rowShift newRows cursor.2 - b.mScreenRows)) style b₁ ∧
      (newRows ≤ b.mScreenRows → b₁ = b) ∧
      b.resizeRows newRows newTotalRows cursor style altScreen =
        .ok (b₁.moveScreen (b.rowShift newRows cursor.2) newRows newTotalRows altScreen,
          (cursor.1, cursor.2 - b.rowShift newRows cursor.2)) := by
  have hs := h.screen
  have hhist := h.history
  have hfits := h.fits
  have hlow := @rowShift_low _ newRows h.toShape cursor.2
  -- The buffer and the shift before the origin moves.
  suffices hsuff : ∃ b₁, Revealed b (max 0 (newRows + b.rowShift newRows cursor.2 - b.mScreenRows))
      style b₁ ∧ (newRows ≤ b.mScreenRows → b₁ = b) ∧
      (if 0 < b.mScreenRows - newRows ∧ b.mScreenRows - newRows < b.mScreenRows then do
        let shift ← b.skipBlankLoop cursor.2 (b.mScreenRows - 1).toNat (b.mScreenRows - newRows)
        return (b, shift)
      else if b.mScreenRows - newRows < 0 then do
        let actualShift := max (b.mScreenRows - newRows) (-b.mActiveTranscriptRows)
        if b.mScreenRows - newRows ≠ actualShift then
          let b ← forUp 0 (actualShift - (b.mScreenRows - newRows)) (fun i b => do
            let row ← modRows (b.mScreenFirstRow + b.mScreenRows + i) b.mTotalRows
            let (b, line) ← b.allocateFullLineIfNecessary row
            let r ← b.deref (some line)
            let r ← r.clear style
            return b.update line r) b
          return (b, actualShift)
        else return (b, b.mScreenRows - newRows)
      else .ok (b, b.mScreenRows - newRows) : Java (TerminalBuffer × Int)) =
        .ok (b₁, b.rowShift newRows cursor.2) by
    obtain ⟨b₁, hrev, hsame, heq⟩ := hsuff
    refine ⟨b₁, hrev, hsame, ?_⟩
    have hg := hrev.grown
    have horigin := screenFirstRow_eq h.toShape hlow
    rw [← hg.first, ← hg.total] at horigin
    simp only [resizeRows]
    rw [heq]
    simp only [ok_bind, horigin]
    rfl
  obtain hlt | heq | hgt := lt_trichotomy (b.mScreenRows - newRows) 0
  · have hgrow : ¬(0 < b.mScreenRows - newRows ∧ b.mScreenRows - newRows < b.mScreenRows) := by omega
    have hshift : b.rowShift newRows cursor.2 =
        max (b.mScreenRows - newRows) (-b.mActiveTranscriptRows) := by
      rw [rowShift, if_neg (by omega)]
    simp only [if_neg hgrow, if_pos hlt, ← hshift]
    by_cases hne : b.mScreenRows - newRows ≠ b.rowShift newRows cursor.2
    · obtain ⟨b₁, hb₁, hrev⟩ := clearBelow_eq h.toShape
        (n := b.rowShift newRows cursor.2 - (b.mScreenRows - newRows)) (by omega) (by omega) style
      refine ⟨b₁, ?_, fun hle => by omega, ?_⟩
      · rwa [show max 0 (newRows + b.rowShift newRows cursor.2 - b.mScreenRows) =
          b.rowShift newRows cursor.2 - (b.mScreenRows - newRows) by omega]
      · rw [if_pos hne, hb₁]
        rfl
    · refine ⟨b, ?_, fun _ => rfl, ?_⟩
      · rw [show max 0 (newRows + b.rowShift newRows cursor.2 - b.mScreenRows) = 0 by omega]
        exact .nothing b style
      · rw [if_neg hne, not_not.mp hne]
        rfl
  · have hshift : b.rowShift newRows cursor.2 = 0 := by
      rw [rowShift, if_neg (by omega)]
      omega
    refine ⟨b, ?_, fun _ => rfl, ?_⟩
    · rw [hshift, show max 0 (newRows + 0 - b.mScreenRows) = 0 by omega]
      exact .nothing b style
    · rw [heq, hshift]
      simp
  · have hshrink : 0 < b.mScreenRows - newRows ∧ b.mScreenRows - newRows < b.mScreenRows := by omega
    have hshift : b.rowShift newRows cursor.2 =
        max 0 (b.mScreenRows - newRows - b.blankBelow cursor.2 (b.mScreenRows - 1).toNat) := by
      rw [rowShift, if_pos (by omega)]
    refine ⟨b, ?_, fun _ => rfl, ?_⟩
    · rw [show max 0 (newRows + b.rowShift newRows cursor.2 - b.mScreenRows) = 0 by omega]
      exact .nothing b style
    · rw [if_pos hshrink, skipBlankLoop_eq h (by omega) hgt, hshift]
      rfl

theorem resize_eq (h : Valid b) (h₁ : 1 ≤ newRows) (hT : newRows ≤ b.mTotalRows) :
    ∃ b₁, Revealed b (max 0 (newRows + b.rowShift newRows cursor.2 - b.mScreenRows)) style b₁ ∧
      (newRows ≤ b.mScreenRows → b₁ = b) ∧
      b.resize b.mColumns newRows newTotalRows cursor style altScreen =
        .ok (b₁.moveScreen (b.rowShift newRows cursor.2) newRows newTotalRows altScreen,
          if cursor.1 < 0 ∨ cursor.2 - b.rowShift newRows cursor.2 < 0 then (0, 0)
          else (cursor.1, cursor.2 - b.rowShift newRows cursor.2)) := by
  have hfast : b.mColumns = b.mColumns ∧ newRows ≤ b.mTotalRows := ⟨rfl, hT⟩
  obtain ⟨b₁, hrev, hsame, heq⟩ := resizeRows_eq h h₁ hT
  refine ⟨b₁, hrev, hsame, ?_⟩
  rw [resize, if_pos hfast, heq]
  rfl

/-! ## Shrinking -/

/-- The row object that was seen at `x` is still on the screen or in the history. -/
def StillActive (b b' : TerminalBuffer) (x : Int) : Prop :=
  ∃ y, -b'.mActiveTranscriptRows ≤ y ∧ y < b'.mScreenRows ∧ b'.lineAt y = b.lineAt x ∧
    b'.rowAt y = b.rowAt x

theorem moveScreen_stillActive_iff (h : Valid b) {shift : Int} (h₁ : 1 ≤ newRows) (h₀ : 0 ≤ shift)
    (hle : newRows + shift ≤ b.mScreenRows) {x : Int} (hx : -b.mActiveTranscriptRows ≤ x)
    (hx' : x < b.mScreenRows) :
    b.StillActive (b.moveScreen shift newRows b.mTotalRows false) x ↔ x < newRows + shift := by
  have hhist := h.history
  have hfits := h.fits
  have hT := h.total_pos
  have hvalid : Valid (b.moveScreen shift newRows b.mTotalRows false) :=
    shiftScreen_valid h h.toShape (.refl b) h₁ (by omega) (by omega) (.inl rfl) (by omega) (by omega)
      fun x h₁ h₂ => by omega
  have hactive : (b.moveScreen shift newRows b.mTotalRows false).mActiveTranscriptRows =
      b.mActiveTranscriptRows + shift := by
    simp only [moveScreen, Bool.false_eq_true, if_false]
    omega
  have hscreen : (b.moveScreen shift newRows b.mTotalRows false).mScreenRows = newRows := rfl
  -- The external rows have other numbers, the slots hold what they held.
  have hat (y : Int) (hy : -(b.mActiveTranscriptRows + shift) ≤ y) (hy' : y < newRows) :
      (b.moveScreen shift newRows b.mTotalRows false).lineAt y = b.lineAt (y + shift) := by
    rw [lineAt, lineAt, externalToInternalRow_eq hvalid.toShape (by omega) (by omega),
      externalToInternalRow_eq h.toShape (by omega) (by omega), slot, slot, moveScreen]
    simp only
    rw [Ring.index_index_add hT, add_assoc, add_comm shift y]
  constructor
  · rintro ⟨y, hy, hy', hline, -⟩
    rw [hactive] at hy
    rw [hscreen] at hy'
    rw [hat y hy hy'] at hline
    obtain ⟨line, -, hat₁, hslot₁, -, -⟩ := h.lineAt (x := y + shift) (by omega) (by omega)
    obtain ⟨line', -, hat₂, hslot₂, -, -⟩ := h.lineAt hx hx'
    rw [hat₁, hat₂] at hline
    cases hline
    have hslot := h.objects.distinct _ _ _ hslot₁ hslot₂
    have := Ring.index_inj hT (by omega) (by omega) hslot
    omega
  · intro hlt
    have hline := hat (x - shift) (by omega) (by omega)
    rw [sub_add_cancel] at hline
    refine ⟨x - shift, by omega, by omega, hline, ?_⟩
    rw [rowAt, rowAt, hline]
    rfl

/-- Shrinking the screen keeps the rows with text just if the rows that it cuts off at the bottom,
as many as there are blank rows below the cursor, are the blank ones. -/
theorem shrinking_keeps_iff (h : Valid b) (h₂ : 2 ≤ newRows) (hlt : newRows < b.mScreenRows)
    (cursor : Int × Int) (style : Style) :
    ∃ b' cursor', b.resize b.mColumns newRows b.mTotalRows cursor style false = .ok (b', cursor') ∧
      ((∀ x, 0 ≤ x → x < b.mScreenRows → b.blankAt x = false → b.StillActive b' x) ↔
        ∀ x, b.mScreenRows -
            min (b.mScreenRows - newRows) (b.blankBelow cursor.2 (b.mScreenRows - 1).toNat) ≤ x →
          x < b.mScreenRows → b.blankAt x = true) := by
  have hhist := h.history
  have hfits := h.fits
  obtain ⟨b₁, -, hsame, heq⟩ := @resize_eq _ _ b.mTotalRows cursor style false h
      (show 1 ≤ newRows by omega) (by omega)
  obtain rfl := hsame hlt.le
  refine ⟨_, _, heq, ?_⟩
  have hshift : b₁.rowShift newRows cursor.2 =
      max 0 (b₁.mScreenRows - newRows - b₁.blankBelow cursor.2 (b₁.mScreenRows - 1).toNat) := by
    rw [rowShift, if_pos hlt]
  have hactive (x : Int) (hx : 0 ≤ x) (hx' : x < b₁.mScreenRows) :=
    @moveScreen_stillActive_iff _ newRows h (b₁.rowShift newRows cursor.2) (by omega) (by omega)
        (by omega) x (by omega) hx'
  constructor
  · intro hkeeps x hx hx'
    by_contra hblank
    have hkept := (hactive x (by omega) hx').mp
      (hkeeps x (by omega) hx' (Bool.not_eq_true _ ▸ hblank))
    omega
  · intro hblank x hx hx' htext
    apply (hactive x hx hx').mpr
    by_contra hlow
    rw [hblank x (by omega) hx'] at htext
    cases htext

/-- Four rows, with text on the first and the third one. -/
def textOnTwoRows [ShortStore] : Java TerminalBuffer :=
  script 2 6 4 [.setChar 0 0 0x78 0, .setChar 0 2 0x79 0]

/-- With the cursor on the third row, the first one goes into the history. -/
theorem shrinking_keeps_iff_scrolled :
    ∃ b : TerminalBuffer, textOnTwoRows = .ok b ∧ b.blankAt 0 = false ∧ b.blankAt 2 = false ∧
      ∃ b' cursor', b.resize b.mColumns 2 b.mTotalRows (0, 2) 0 false = .ok (b', cursor') ∧
        b.StillActive b' 0 ∧ b.StillActive b' 2 := by
  have hfacts : (@textOnTwoRows javaShort).map (fun b => (b.mScreenRows, b.blankBelow 2 3, b.blankAt 0,
      b.blankAt 2, b.blankAt 3)) = .ok (4, 1, false, false, true) := by
    decide +kernel
  obtain ⟨b, hb, hvalues⟩ := exists_of_map_eq_ok hfacts
  simp only [Prod.mk.injEq] at hvalues
  obtain ⟨hs, hbelow, hfirst, hthird, hlast⟩ := hvalues
  have hv := script_valid (by decide) (by decide) (by decide)
    (by simp [Operation.Legal, Operation.Fits, isScalar, isSurrogate]) (by decide +kernel) hb
  obtain ⟨b', cursor', heq, hiff⟩ :=
    shrinking_keeps_iff hv (by decide : (2 : Int) ≤ 2) (by omega) (0, 2) 0
  have hkept := hiff.mpr fun x hx hx' => by
    rw [hs, show ((4 : Int) - 1).toNat = 3 from rfl, hbelow] at hx
    rw [show x = 3 by omega, hlast]
  exact ⟨b, hb, hfirst, hthird, b', cursor', heq, hkept 0 (by decide) (by omega) hfirst,
    hkept 2 (by decide) (by omega) hthird⟩

/-- Four rows of which the last one has text, the cursor being on the first one. -/
def textOnLastRow [ShortStore] : Java TerminalBuffer := script 2 4 4 [.setChar 0 3 0x78 0]

/-- Two blank rows below the cursor are counted, the last row is cut off. -/
theorem last_row_discarded :
    ∃ b : TerminalBuffer, textOnLastRow = .ok b ∧ Valid b ∧ b.mScreenRows = 4 ∧
      ∃ b' cursor', b.resize b.mColumns 2 b.mTotalRows (0, 0) 0 false = .ok (b', cursor') ∧
        b.blankAt 3 = false ∧ ¬b.StillActive b' 3 := by
  have hfacts : (@textOnLastRow javaShort).map (fun b => (b.mScreenRows, b.mTotalRows,
      b.blankBelow 0 3, b.blankAt 3)) = .ok (4, 4, 2, false) := by
    decide +kernel
  obtain ⟨b, hb, hvalues⟩ := exists_of_map_eq_ok hfacts
  simp only [Prod.mk.injEq] at hvalues
  obtain ⟨hs, hT, hbelow, htext⟩ := hvalues
  have hv := script_valid (by decide) (by decide) (by decide)
    (by simp [Operation.Legal, Operation.Fits, isScalar, isSurrogate]) (by decide +kernel) hb
  have hshift : b.rowShift 2 0 = 0 := by
    rw [rowShift, if_pos (by omega), hs, show ((4 : Int) - 1).toNat = 3 from rfl, hbelow]
    decide
  obtain ⟨b₁, -, hsame, heq⟩ := @resize_eq _ 2 b.mTotalRows ((0, 0)) 0 false hv (by decide)
      (by omega)
  obtain rfl := hsame (by omega)
  have hhist := hv.history
  have hlost := @moveScreen_stillActive_iff _ 2 hv (b₁.rowShift 2 0) (by decide) (by omega)
      (by omega) 3 (by omega) (by omega)
  refine ⟨b₁, hb, hv, hs, _, _, heq, htext, fun hkept => ?_⟩
  have := hlost.mp hkept
  omega

/-! ## The screen as a window -/

/-- Two rows with the same text in the same styles. -/
def SameLook (x y : Java TerminalRow) : Prop :=
  ∃ r s, x = .ok r ∧ y = .ok s ∧ r.mText.take r.mSpaceUsed.toNat = s.mText.take s.mSpaceUsed.toNat ∧
    r.mStyle = s.mStyle

/-- The screen of `b'` shows the rows of `b` from `shift` on, and blank rows where `b` has none. -/
def ShowsShifted (b b' : TerminalBuffer) (shift : Int) (style : Style) : Prop :=
  ∀ i, 0 ≤ i → i < b'.mScreenRows →
    (-b.mActiveTranscriptRows ≤ i + shift ∧ i + shift < b.mScreenRows →
      SameLook (b'.rowAt i) (b.rowAt (i + shift))) ∧
    (¬(-b.mActiveTranscriptRows ≤ i + shift ∧ i + shift < b.mScreenRows) →
      ∃ r, b'.rowAt i = .ok r ∧ TerminalRow.Blank b.mColumns style r)

theorem moveScreen_rowAt {shift : Int} (h₀ : 0 < newTotalRows) {i : Int} (hi : 0 ≤ i)
    (hi' : i < newRows) :
    (b.moveScreen shift newRows newTotalRows altScreen).rowAt i =
      b.rowIn (Ring.index newTotalRows
        (Ring.index b.mTotalRows (b.mScreenFirstRow + shift) + i)) := by
  have hactive : 0 ≤ (b.moveScreen shift newRows newTotalRows altScreen).mActiveTranscriptRows := by
    simp only [moveScreen]
    split_ifs <;> omega
  rw [rowAt, lineAt_screen hactive (by simp [moveScreen]) h₀ hi hi']
  rfl

/-- Where the ring keeps its size, the rows are found where they were. -/
theorem showsShifted_main (h : Valid b) (hT : newRows ≤ b.mTotalRows) {y : Int}
    {b₁ : TerminalBuffer}
    (hrev : Revealed b (max 0 (newRows + b.rowShift newRows y - b.mScreenRows)) style b₁) :
    b.ShowsShifted (b₁.moveScreen (b.rowShift newRows y) newRows b.mTotalRows false)
      (b.rowShift newRows y) style := by
  have hlow := @rowShift_low _ newRows h.toShape y
  have hfits := h.fits
  have hT₀ := h.total_pos
  intro i hi hi'
  have hlt : i < newRows := hi'
  have hrow : (b₁.moveScreen (b.rowShift newRows y) newRows b.mTotalRows false).rowAt i =
      b₁.rowIn (b.slot (i + b.rowShift newRows y)) := by
    rw [moveScreen_rowAt hT₀ hi hlt, hrev.grown.total, hrev.grown.first, Ring.index_index_add hT₀,
      add_assoc, add_comm _ i, slot]
  rw [hrow]
  constructor
  · rintro ⟨hact, hscreen⟩
    obtain ⟨r, hr, -⟩ := h.rowAt hact hscreen
    rw [hrev.kept _ (by omega) hscreen, ← h.toShape.rowAt_eq hact hscreen, hr]
    exact ⟨r, r, rfl, rfl, rfl, rfl⟩
  · intro hout
    exact hrev.blank _ (by omega) (by omega)

/-- Where the ring is cut to the size of the screen, they are looked up in other slots. -/
theorem showsShifted_alt_iff (h : Valid b) (h₁ : 1 ≤ newRows) (hT : newRows ≤ b.mTotalRows)
    (hring : b.mTotalRows = b.mScreenRows) (y : Int) :
    b.ShowsShifted (b.moveScreen (b.rowShift newRows y) newRows newRows true)
        (b.rowShift newRows y) style ↔
      ∀ i, 0 ≤ i → i < newRows →
        SameLook (b.rowIn (Ring.index newRows (b.slot (b.rowShift newRows y) + i)))
          (b.rowIn (Ring.index b.mTotalRows (b.slot (b.rowShift newRows y) + i))) := by
  have hlow := @rowShift_low _ newRows h.toShape y
  have hhigh := @rowShift_high _ newRows h.toShape y
  have hhist := h.history
  have hfits := h.fits
  have hrow (i : Int) (hi : 0 ≤ i) (hi' : i < newRows) :=
    @moveScreen_rowAt b _ _ true (b.rowShift newRows y) (show 0 < newRows by omega) _ hi hi'
  have hold (i : Int) (hi : 0 ≤ i) (hi' : i < newRows) : b.rowAt (i + b.rowShift newRows y) =
      b.rowIn (Ring.index b.mTotalRows (b.slot (b.rowShift newRows y) + i)) := by
    rw [h.toShape.rowAt_eq (by omega) (by omega), slot, slot, Ring.index_index_add h.total_pos,
      add_assoc, add_comm i]
  constructor
  · intro hshows i hi hi'
    have hlook := (hshows i hi hi').1 (by omega)
    rwa [hrow i hi hi', hold i hi hi'] at hlook
  · intro hlook i hi hi'
    have hlt : i < newRows := hi'
    refine ⟨fun _ => ?_, fun hout => by omega⟩
    rw [hrow i hi hi', hold i hi hi']
    exact hlook i hi hi'

/-- The fast resize moves the window over the rows just if the ring keeps its size, or the rows
that are found in the smaller ring look like those that were there. -/
theorem resize_window_iff (h : Valid b) (h₁ : 1 ≤ newRows) (hT : newRows ≤ b.mTotalRows)
    (hcall : (altScreen = false ∧ newTotalRows = b.mTotalRows) ∨
      (altScreen = true ∧ newTotalRows = newRows ∧ b.mTotalRows = b.mScreenRows))
    (cursor : Int × Int) (style : Style) :
    ∃ b', b.resize b.mColumns newRows newTotalRows cursor style altScreen =
        .ok (b', if cursor.1 < 0 ∨ cursor.2 - b.rowShift newRows cursor.2 < 0 then (0, 0)
          else (cursor.1, cursor.2 - b.rowShift newRows cursor.2)) ∧ b'.mScreenRows = newRows ∧
      (b.ShowsShifted b' (b.rowShift newRows cursor.2) style ↔
        altScreen = false ∨ ∀ i, 0 ≤ i → i < newRows →
          SameLook (b.rowIn (Ring.index newRows (b.slot (b.rowShift newRows cursor.2) + i)))
            (b.rowIn (Ring.index b.mTotalRows (b.slot (b.rowShift newRows cursor.2) + i)))) := by
  obtain ⟨b₁, hrev, hsame, heq⟩ := @resize_eq _ _ newTotalRows cursor style altScreen h h₁ hT
  refine ⟨_, heq, rfl, ?_⟩
  obtain ⟨rfl, rfl⟩ | ⟨rfl, rfl, hring⟩ := hcall
  · exact ⟨fun _ => .inl rfl, fun _ => showsShifted_main h hT hrev⟩
  · obtain rfl := hsame (by omega)
    simp only [Bool.true_eq_false, false_or]
    exact showsShifted_alt_iff h h₁ hT hring cursor.2

/-- An alternate buffer of three rows after its first row has scrolled away. -/
def scrolledAlternate [ShortStore] : Java TerminalBuffer :=
  script 2 3 3 [.scrollDownOneLine 0 3 0, .setChar 0 0 0x61 0, .setChar 0 1 0x62 0,
    .setChar 0 2 0x63 0]

theorem scrolledAlternate_valid {b : TerminalBuffer} (hb : scrolledAlternate = .ok b) : Valid b :=
  script_valid (by decide) (by decide) (by decide)
    (by simp [Operation.Legal, Operation.Fits, isScalar, isSurrogate]) (by decide +kernel) hb

/-- A main buffer with a history shows the rows from the second one on.  The last row of an alternate one is
still the last if nothing else is left, and is not if there is another. -/
theorem resize_window_iff_scrolled :
    (∃ b b' : TerminalBuffer, scrolledLetters = .ok b ∧
      b.resize b.mColumns 3 b.mTotalRows (0, 3) 7 false = .ok (b', (0, 2)) ∧ b.ShowsShifted b' 1 7) ∧
    ∃ b one two : TerminalBuffer, scrolledAlternate = .ok b ∧
      (b.resize b.mColumns 1 1 (0, 2) 7 true = .ok (one, (0, 0)) ∧ b.ShowsShifted one 2 7) ∧
      b.resize b.mColumns 2 2 (0, 2) 7 true = .ok (two, (0, 1)) ∧ ¬b.ShowsShifted two 1 7 := by
  constructor
  · have hfacts : scrolledLetters.map (fun b => (b.mTotalRows, b.rowShift 3 3)) = .ok (6, 1) := by
      decide +kernel
    obtain ⟨b, hb, hvalues⟩ := exists_of_map_eq_ok hfacts
    obtain ⟨htotal, hshift⟩ := Prod.mk.inj hvalues
    obtain ⟨b', hresize, -, hiff⟩ := resize_window_iff (scrolledLetters_valid hb)
      (show (1 : Int) ≤ 3 by decide) (by rw [htotal]; decide) (.inl ⟨show false = false from rfl, rfl⟩)
      (0, 3) 7
    simp only [hshift] at hresize hiff
    exact ⟨b, b', hb, hresize, hiff.mpr (.inl trivial)⟩
  · have hfacts : scrolledAlternate.map (fun b => ((b.mScreenRows, b.mTotalRows),
        (b.rowShift 1 2, b.slot 2), b.rowShift 2 2, b.slot 1)) = .ok ((3, 3), (2, 0), 1, 2) := by
      decide +kernel
    have hrows : scrolledAlternate.map (fun b => [b.rowIn 0, b.rowIn 2].map (Except.map fun r =>
        r.mText.take r.mSpaceUsed.toNat)) = .ok [.ok [0x63, 0x20], .ok [0x62, 0x20]] := by
      decide +kernel
    obtain ⟨b, hb, hvalues⟩ := exists_of_map_eq_ok hfacts
    simp only [Prod.mk.injEq] at hvalues
    obtain ⟨⟨hscreen, htotal⟩, ⟨hshift, hslot⟩, hshift', hslot'⟩ := hvalues
    rw [hb] at hrows
    simp only [Except.map, List.map_cons, List.map_nil, Except.ok.injEq, List.cons.injEq, and_true] at hrows
    obtain ⟨hlast, hother⟩ := hrows
    have hv := scrolledAlternate_valid hb
    have hring : b.mTotalRows = b.mScreenRows := by omega
    obtain ⟨one, hone, -, hiff⟩ := resize_window_iff hv (show (1 : Int) ≤ 1 by decide) (by omega)
      (.inr ⟨rfl, rfl, hring⟩) (0, 2) 7
    obtain ⟨two, htwo, -, hiff'⟩ := resize_window_iff hv (show (1 : Int) ≤ 2 by decide) (by omega)
      (.inr ⟨rfl, rfl, hring⟩) (0, 2) 7
    simp only [hshift, hslot, htotal] at hone hiff
    simp only [hshift', hslot', htotal] at htwo hiff'
    -- To one row, the slot asked for is the one that is meant; to two rows, it is another.
    refine ⟨b, one, two, hb, ⟨hone, hiff.mpr (.inr fun i hi hi' => ?_)⟩, htwo, fun hshown => ?_⟩
    · obtain rfl : i = 0 := by omega
      cases hr : b.rowIn 0 with
      | error e =>
        rw [hr] at hlast
        cases hlast
      | ok r => exact ⟨r, r, hr, hr, rfl, rfl⟩
    · obtain hno | hsame := hiff'.mp hshown
      · exact absurd hno (by decide)
      · obtain ⟨r, s, hr, hs, htext, -⟩ := hsame 0 le_rfl (by decide)
        rw [show b.rowIn 0 = .ok r from hr] at hlast
        rw [show b.rowIn 2 = .ok s from hs] at hother
        rw [Except.ok.inj hlast, Except.ok.inj hother] at htext
        exact absurd htext (by decide)

/-- The cursor moves up by one row, but the screen shows the last and the first of the old rows. -/
theorem alternate_rows_moved :
    ∃ b b' : TerminalBuffer, @scrolledAlternate javaShort = .ok b ∧ Valid b ∧
      b.mTotalRows = b.mScreenRows ∧ b.resize b.mColumns 2 2 (0, 2) 0 true = .ok (b', (0, 1)) ∧
      ∀ shift, 2 - shift = 1 → ¬b.ShowsShifted b' shift 0 := by
  have hfacts : (@scrolledAlternate javaShort).map (fun b => (b.mScreenRows, b.mTotalRows,
      b.mColumns, b.mActiveTranscriptRows)) = .ok (3, 3, 2, 0) := by
    decide +kernel
  have hcursor : (@scrolledAlternate javaShort >>= fun b =>
      (@resize javaShort b 2 2 2 (0, 2) 0 true).map fun p => (p.2, p.1.mScreenRows)) =
        .ok ((0, 1), 2) := by
    decide +kernel
  have hold : (@scrolledAlternate javaShort >>= fun b => b.rowAt 1).map
      (fun r => r.mText.take r.mSpaceUsed.toNat) = .ok [0x62, 0x20] := by
    decide +kernel
  have hnew : (@scrolledAlternate javaShort >>= fun b =>
      @resize javaShort b 2 2 2 (0, 2) 0 true >>= fun p => p.1.rowAt 0).map
      (fun r => r.mText.take r.mSpaceUsed.toNat) = .ok [0x63, 0x20] := by
    decide +kernel
  obtain ⟨b, hb, hvalues⟩ := exists_of_map_eq_ok hfacts
  simp only [Prod.mk.injEq] at hvalues
  obtain ⟨hs, hT, hc, hact⟩ := hvalues
  rw [hb, ok_bind] at hcursor hold hnew
  obtain ⟨⟨b', cursor'⟩, hr, hresized⟩ := exists_of_map_eq_ok hcursor
  simp only [Prod.mk.injEq] at hresized
  obtain ⟨rfl, hs'⟩ := hresized
  refine ⟨b, b', hb, scrolledAlternate_valid hb, by rw [hs, hT], by rw [hc, hr],
    fun shift hshift hshows => ?_⟩
  obtain rfl : shift = 1 := by omega
  obtain ⟨r, s, hr', hs₁, htext, -⟩ := (hshows 0 le_rfl (by omega)).1 (by omega)
  rw [hr, ok_bind, hr'] at hnew
  rw [show (1 : Int) = 0 + 1 from rfl, hs₁] at hold
  simp only [Except.map, Except.ok.injEq] at hnew hold
  rw [hnew, hold] at htext
  cases htext

end TerminalBuffer

end XoDos
