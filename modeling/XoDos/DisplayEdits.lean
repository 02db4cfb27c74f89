import XoDos.Geometry

/-!
# Edits of a sound display

Every `Edit` only redraws the current screen.  With `S`, on a sound display, its
arguments to the buffer are in range, except that DECCARA and DECRARA can be
given a rectangle that leaves the screen in origin mode.
-/

namespace XoDos

open TerminalBuffer (Kept)

variable {S : Prop}

namespace Display

open XoDos.Geometry (Sound Drawn Edited)

variable {d : Display}

/-- What `blockClear` and `blockCopy` need of an edited display. -/
theorem sound_edited {d₁ : Display} (h : S → Sound S d.toGeometry)
    (h₁ : Edited S d.toGeometry d₁.toGeometry) : S → Sound S d₁.toGeometry :=
  fun hS => (h hS).edited h₁

/-! ## Cells of a line -/

theorem insertCharacters_edited (h : S → Sound S d.toGeometry) {n : Int} (hn : 0 ≤ n) :
    Upholds S (fun d' => Edited S d.toGeometry d'.toGeometry) fun _ => d.insertCharacters n := by
  simp only [insertCharacters]
  refine Upholds.mono ?_ fun _ => (clearWrap_edited d).trans
  replace h := sound_edited h (clearWrap_edited d)
  generalize d.clearWrap = d at h ⊢
  refine edited_bind (blockCopy_edited h fun hS => ?_) fun d₁ h₁ =>
    blockClear_edited (sound_edited h h₁) fun hS => ?_
  · have := (h hS).bounds
    omega
  · have := (h hS).bounds
    have := h₁.same
    omega

theorem deleteCharacters_edited (h : S → Sound S d.toGeometry) {n : Int} (hn : 0 ≤ n) :
    Upholds S (fun d' => Edited S d.toGeometry d'.toGeometry) fun _ => d.deleteCharacters n := by
  simp only [deleteCharacters]
  refine Upholds.mono ?_ fun _ => (clearWrap_edited d).trans
  replace h := sound_edited h (clearWrap_edited d)
  generalize d.clearWrap = d at h ⊢
  refine edited_bind (blockCopy_edited h fun hS => ?_) fun d₁ h₁ =>
    blockClear_edited (sound_edited h h₁) fun hS => ?_
  · have := (h hS).bounds
    omega
  · have := (h hS).bounds
    have := h₁.same
    omega

theorem eraseCharacters_edited (h : S → Sound S d.toGeometry) {n : Int} :
    Upholds S (fun d' => Edited S d.toGeometry d'.toGeometry) fun _ => d.eraseCharacters n := by
  simp only [eraseCharacters]
  refine Upholds.mono ?_ fun _ => (clearWrap_edited d).trans
  replace h := sound_edited h (clearWrap_edited d)
  refine blockSet_edited h (fun _ => isScalar_space) fun hS => ?_
  have := (h hS).bounds
  omega

/-- Erasing ends by clearing the pending wrap. -/
theorem clearWrap_bind {f : ShortStore → Java Display}
    (hf : Upholds S (fun d' => Edited S d.toGeometry d'.toGeometry) f) :
    Upholds S (fun d' => Edited S d.toGeometry d'.toGeometry) fun m => do
      let d ← f m
      return d.clearWrap :=
  hf.bind fun d₁ h₁ => .ok (h₁.trans (clearWrap_edited d₁))

theorem eraseInDisplay_edited (h : S → Sound S d.toGeometry) {arg : Int} :
    Upholds S (fun d' => Edited S d.toGeometry d'.toGeometry) fun _ => d.eraseInDisplay arg := by
  simp only [eraseInDisplay]
  refine clearWrap_bind (.ite (fun _ => ?_) fun _ => .ite (fun _ => ?_) fun _ => ?_)
  · refine edited_bind (blockClear_edited h fun hS => ?_) fun d₁ h₁ =>
      blockClear_edited (sound_edited h h₁) fun hS => ?_
    · have := (h hS).bounds
      omega
    · have := (sound_edited h h₁ hS).bounds
      omega
  · refine edited_bind (blockClear_edited h fun hS => ?_) fun d₁ h₁ =>
      blockClear_edited (sound_edited h h₁) fun hS => ?_
    · have := (h hS).bounds
      omega
    · have := (sound_edited h h₁ hS).bounds
      omega
  · exact blockClear_edited h fun hS => by omega

theorem eraseInLine_edited (h : S → Sound S d.toGeometry) {arg : Int} :
    Upholds S (fun d' => Edited S d.toGeometry d'.toGeometry) fun _ => d.eraseInLine arg := by
  simp only [eraseInLine]
  refine clearWrap_bind (.ite (fun _ => ?_) fun _ => .ite (fun _ => ?_) fun _ => ?_)
  all_goals
    refine blockClear_edited h fun hS => ?_
    have := (h hS).bounds
    omega

/-! ## Lines and columns -/

theorem insertLines_edited (h : S → Sound S d.toGeometry) {n : Int} (hn : 0 ≤ n) :
    Upholds S (fun d' => Edited S d.toGeometry d'.toGeometry) fun _ => d.insertLines n := by
  simp only [insertLines]
  -- Below the bottom margin the number of lines is negative, and nothing is moved or cleared.
  refine edited_bind (blockCopy_edited h fun hS => ?_) fun d₁ h₁ =>
    blockClear_edited (sound_edited h h₁) fun hS => ?_
  · have := (h hS).bounds
    omega
  · have := (h hS).bounds
    have := h₁.same
    omega

theorem deleteLines_edited (h : S → Sound S d.toGeometry) {n : Int} (hn : 0 ≤ n) :
    Upholds S (fun d' => Edited S d.toGeometry d'.toGeometry) fun _ => d.deleteLines n := by
  simp only [deleteLines]
  refine Upholds.mono ?_ fun _ => (clearWrap_edited d).trans
  replace h := sound_edited h (clearWrap_edited d)
  generalize d.clearWrap = d at h ⊢
  refine edited_bind (blockCopy_edited h fun hS => ?_) fun d₁ h₁ =>
    blockClear_edited (sound_edited h h₁) fun hS => ?_
  · have := (h hS).bounds
    omega
  · have := (h hS).bounds
    have := h₁.same
    omega

theorem scrollDown_edited (h : S → Sound S d.toGeometry) {n : Int} (hn : 0 ≤ n) :
    Upholds S (fun d' => Edited S d.toGeometry d'.toGeometry) fun _ => d.scrollDown n := by
  simp only [scrollDown]
  refine edited_bind (blockCopy_edited h fun hS => ?_) fun d₁ h₁ =>
    blockClear_edited (sound_edited h h₁) fun hS => ?_
  · have := (h hS).bounds
    omega
  · have := (h hS).bounds
    have := h₁.same
    omega

theorem insertColumns_edited (h : S → Sound S d.toGeometry) {n : Int} (hn : 0 ≤ n) :
    Upholds S (fun d' => Edited S d.toGeometry d'.toGeometry) fun _ => d.insertColumns n := by
  simp only [insertColumns]
  refine edited_bind (blockCopy_edited h fun hS => ?_) fun d₁ h₁ =>
    blockClear_edited (sound_edited h h₁) fun hS => ?_
  · have := (h hS).bounds
    omega
  · have := (h hS).bounds
    have := h₁.same
    omega

theorem deleteColumns_edited (h : S → Sound S d.toGeometry) {n : Int} (hn : 0 ≤ n) :
    Upholds S (fun d' => Edited S d.toGeometry d'.toGeometry) fun _ => d.deleteColumns n := by
  simp only [deleteColumns]
  refine blockCopy_edited h fun hS => ?_
  have := (h hS).bounds
  omega

theorem scrollDownOneLine_edited (h : S → Sound S d.toGeometry) :
    Upholds S (fun d' => Edited S d.toGeometry d'.toGeometry) fun _ => d.scrollDownOneLine := by
  simp only [scrollDownOneLine]
  refine Upholds.mono ?_ fun _ => (countScroll_edited d).trans
  replace h := sound_edited h (countScroll_edited d)
  generalize d.countScroll = d at h ⊢
  refine .ite (fun _ => ?_) fun _ => ?_
  · refine edited_bind (blockCopy_edited h fun hS => ?_) fun d₁ h₁ =>
      blockSet_edited (sound_edited h h₁) (fun _ => isScalar_space) fun hS => ?_
    · have := (h hS).bounds
      omega
    · have := (sound_edited h h₁ hS).bounds
      omega
  · refine onScreen_upholds (TerminalBuffer.scrollDownOneLine_upholds
      (fun hS => (h hS).screen hS) fun hS => ?_)
    have := (h hS).bounds
    have := (h hS).screenRows
    omega

theorem scrollUp_edited (h : S → Sound S d.toGeometry) {n : Int} :
    Upholds S (fun d' => Edited S d.toGeometry d'.toGeometry) fun _ => d.scrollUp n := by
  simp only [scrollUp]
  refine .forUp (fun _ d₁ _ _ h₁ => ?_) (.refl d.toGeometry)
  exact (scrollDownOneLine_edited (sound_edited h h₁)).mono fun _ h₂ => h₁.trans h₂

/-! ## Rectangles -/

theorem fillCell_kept {b : TerminalBuffer} (h : S → b.Valid) {fillChar : Nat} {style : Style}
    {selective keepVisualAttributes : Bool} {row col : Int}
    (hs : S → isScalar fillChar = true ∧ WcWidth.width fillChar = 1 ∧ 2 ≤ b.mColumns)
    (hrange : S → 0 ≤ row ∧ row < b.mScreenRows ∧ 0 ≤ col ∧ col < b.mColumns) :
    Upholds S (Kept S b) fun _ =>
      fillCell fillChar style selective keepVisualAttributes row col b := by
  simp only [fillCell]
  refine Upholds.bind (P := fun p => Kept S b p.1) (.ite (fun _ => ?_) fun _ => .ok (.refl h)) ?_
  · exact (TerminalBuffer.getStyleAt_upholds h hrange).bind fun p hp => .ok hp
  rintro ⟨b₁, isProtected⟩ h₁
  simp only at h₁ ⊢
  refine .ite (fun _ => .ok h₁) fun _ => ?_
  refine Upholds.bind (P := fun p => Kept S b p.1) (.ite (fun _ => ?_) fun _ => .ok h₁) ?_
  · refine (TerminalBuffer.getStyleAt_upholds h₁.valid fun hS => ?_).mono fun _ h₂ => h₁.trans h₂
    rw [h₁.screen, h₁.columns]
    exact hrange hS
  rintro ⟨b₂, style'⟩ h₂
  simp only at h₂ ⊢
  refine (TerminalBuffer.setChar_upholds h₂.valid (fun hS => ⟨(hs hS).1, ?_⟩) (fun hS => ?_)
    fun hS hw => ?_).mono fun _ h₃ => h₂.trans h₃
  · rw [h₂.columns]
    exact (hs hS).2.2
  · rw [h₂.screen, h₂.columns]
    exact hrange hS
  · have := (hs hS).2.1
    omega

theorem fillCells_edited (h : S → Sound S d.toGeometry) {fillChar : Nat}
    {selective keepVisualAttributes : Bool} {startRow endRow startCol endCol : Int}
    (hs : S → isScalar fillChar = true ∧ WcWidth.width fillChar = 1)
    (hrange : S → 0 ≤ startRow ∧ endRow ≤ d.mRows ∧ 0 ≤ startCol ∧ endCol ≤ d.mColumns) :
    Upholds S (fun d' => Edited S d.toGeometry d'.toGeometry) fun _ =>
      d.fillCells fillChar selective keepVisualAttributes startRow endRow startCol endCol := by
  simp only [fillCells]
  refine onScreen_upholds (.forUp (fun row b₁ hr hr' h₁ => ?_) (.refl fun hS => (h hS).screen hS))
  refine .forUp (fun col b₂ hc hc' h₂ => ?_) h₁
  refine (fillCell_kept h₂.valid (fun hS => ?_) fun hS => ?_).mono fun _ h₃ => h₂.trans h₃
  · have hroom := (h hS).room
    have hleft := (h hS).left
    rw [h₂.columns, (h hS).screenColumns]
    exact ⟨(hs hS).1, (hs hS).2, by omega⟩
  · have := hrange hS
    rw [h₂.columns, h₂.screen, (h hS).screenColumns, (h hS).screenRows]
    omega

theorem selectiveErase_edited (h : S → Sound S d.toGeometry) {justRow : Bool} {arg : Int} :
    Upholds S (fun d' => Edited S d.toGeometry d'.toGeometry) fun _ => d.selectiveErase justRow arg := by
  simp only [selectiveErase]
  refine Upholds.mono ?_ fun _ => (clearWrap_edited d).trans
  replace h := sound_edited h (clearWrap_edited d)
  refine .ite (fun _ => ?_) fun _ => .ite (fun _ => ?_) fun _ => .ite (fun _ => ?_) fun _ =>
    .ok (.refl _)
  all_goals
    refine fillCells_edited h (fun _ => isScalar_space) fun hS => ?_
    have := (h hS).bounds
    split_ifs <;> omega

theorem effectiveMargins (h : Sound S d.toGeometry) :
    (0 ≤ d.effectiveTopMargin ∧ d.effectiveTopMargin < d.effectiveBottomMargin ∧
      d.effectiveBottomMargin ≤ d.mRows) ∧
    (0 ≤ d.effectiveLeftMargin ∧ d.effectiveLeftMargin < d.effectiveRightMargin ∧
      d.effectiveRightMargin ≤ d.mColumns) := by
  have := h.bounds
  unfold effectiveTopMargin effectiveBottomMargin effectiveLeftMargin effectiveRightMargin
  split_ifs <;> omega

theorem fillRectangle_edited (h : S → Sound S d.toGeometry) {fillChar : Int} {selective : Bool}
    {top left bottom right : Int} (ht : 1 ≤ top) (hl : 1 ≤ left) :
    Upholds S (fun d' => Edited S d.toGeometry d'.toGeometry) fun _ =>
      d.fillRectangle fillChar selective top left bottom right := by
  simp only [fillRectangle]
  refine .ite (fun hchar => fillCells_edited h (fun _ => ?_) fun hS => ?_) fun _ => .ok (.refl _)
  · exact ⟨isScalar_iff.mpr (by omega), WcWidth.width_latin1 (by omega)⟩
  · have := effectiveMargins (h hS)
    omega

theorem copyRectangle_edited (h : S → Sound S d.toGeometry)
    {top left bottom right destinationTop destinationLeft : Int} (ht : 1 ≤ top) (hl : 1 ≤ left)
    (hdt : 1 ≤ destinationTop) (hdl : 1 ≤ destinationLeft) :
    Upholds S (fun d' => Edited S d.toGeometry d'.toGeometry) fun _ =>
      d.copyRectangle top left bottom right destinationTop destinationLeft := by
  simp only [copyRectangle]
  refine blockCopy_edited h fun hS => ?_
  have hm := effectiveMargins (h hS)
  omega

/-- The rectangle of DECCARA and DECRARA, if it has rows, ends on the screen. -/
def AttributesFit (d : Display) (top left bottom right : Int) : Prop :=
  let (top, _, bottom, right) := d.attributeRectangle top left bottom right
  top < bottom → bottom ≤ d.mRows ∧ right ≤ d.mColumns

theorem changeAttribute_edited (h : S → Sound S d.toGeometry) {reverse : Bool}
    {top left bottom right code : Int}
    (hrange : S → top < bottom → 0 ≤ top ∧ bottom ≤ d.mRows ∧ 0 ≤ left ∧ right ≤ d.mColumns) :
    Upholds S (fun d' => Edited S d.toGeometry d'.toGeometry) fun _ =>
      d.changeAttribute reverse (top, left, bottom, right) code := by
  simp only [changeAttribute]
  refine .ite (fun _ => .ok (.refl _)) fun _ => ?_
  refine onScreen_upholds (TerminalBuffer.setOrClearEffect_upholds (fun hS => (h hS).screen hS)
    fun hS htop => ?_)
  have hm := effectiveMargins (h hS)
  have hr := hrange hS htop
  rw [(h hS).screenColumns, (h hS).screenRows]
  omega

theorem changeAttributes_edited (h : S → Sound S d.toGeometry) {reverse : Bool}
    {top left bottom right : Int} (codes : List Int) (ht : 1 ≤ top) (hl : 1 ≤ left)
    (hfit : S → d.AttributesFit top left bottom right) :
    Upholds S (fun d' => Edited S d.toGeometry d'.toGeometry) fun _ =>
      codes.foldlM (fun d' code => d'.changeAttribute reverse
        (d.attributeRectangle top left bottom right) code) d := by
  refine .foldlM codes (fun d₁ code _ h₁ => ?_) (.refl _)
  refine (changeAttribute_edited (sound_edited h h₁) fun hS htop => ?_).mono fun _ h₂ => h₁.trans h₂
  have hf := hfit hS htop
  have hm := effectiveMargins (h hS)
  have he := h₁.same
  omega

/-- What an edit needs with `S`. -/
def EditFits (d : Display) : Edit → Prop
  | .changeAttributes _ top left bottom right _ =>
    d.AttributesFit (top + 1) (left + 1) (d.orRows bottom) (d.orColumns right)
  | _ => True

theorem edit_edited (h : S → Sound S d.toGeometry) (e : Edit) (hfits : S → d.EditFits e) :
    Upholds S (fun d' => Edited S d.toGeometry d'.toGeometry) fun _ => e.run d := by
  cases e with
  | alignmentTest =>
    exact blockSet_edited h (fun _ => ⟨rfl, WcWidth.width_latin1 (by decide)⟩) fun hS => by omega
  | eraseScreen => exact blockClear_edited h fun hS => by omega
  | insertCharacters n => exact insertCharacters_edited h (by omega)
  | deleteCharacters n => exact deleteCharacters_edited h (by omega)
  | eraseCharacters n => exact eraseCharacters_edited h
  | eraseInDisplay arg => exact eraseInDisplay_edited h
  | eraseInLine arg => exact eraseInLine_edited h
  | insertLines n => exact insertLines_edited h (by omega)
  | deleteLines n => exact deleteLines_edited h (by omega)
  | scrollUp n => exact scrollUp_edited h
  | scrollDown n => exact scrollDown_edited h (by omega)
  | insertColumns n => exact insertColumns_edited h (by omega)
  | deleteColumns n => exact deleteColumns_edited h (by omega)
  | selectiveErase justRow arg => exact selectiveErase_edited h
  | fillRectangle fillChar selective top left bottom right =>
    exact fillRectangle_edited h (by omega) (by omega)
  | copyRectangle top left bottom right destinationTop destinationLeft =>
    exact copyRectangle_edited h (by omega) (by omega) (by omega) (by omega)
  | changeAttributes reverse top left bottom right codes =>
    exact changeAttributes_edited h codes (by omega) (by omega) hfits

end Display

end XoDos
