import XoDos.DisplayEdits

/-!
# Moving the cursor and writing

Control functions that draw on the current screen and move the cursor.  Each
lemma says where the cursor ends up, and from that whether a sound geometry
stays sound and whether a pending wrap stays at the right margin.
-/

namespace XoDos

open TerminalBuffer (Kept)
open WcWidth (width)

variable {S : Prop}

namespace Geometry

variable {g g' g'' : Geometry}

/-- Drawing that leaves the cursor on the screen. -/
structure Steps (S : Prop) (g g' : Geometry) : Prop extends Drawn S g g' where
  sound : Sound S g → Sound S g'

/-- A wrap is only pending at the right margin. -/
def Wraps (g : Geometry) : Prop := g.mAboutToAutoWrap = true → g.mCursorCol = g.mRightMargin - 1

theorem Steps.trans (h : Steps S g g') (h' : Steps S g' g'') : Steps S g g'' :=
  ⟨h.toDrawn.trans h'.toDrawn, fun hs => h'.sound (h.sound hs)⟩

theorem Edited.steps (h : Edited S g g') : Steps S g g' := ⟨h.toDrawn, fun hs => hs.edited h⟩

theorem Edited.wraps (h : Edited S g g') (hw : Wraps g) : Wraps g' := fun hp => by
  rw [h.cursorCol, h.rightMargin]
  exact hw (h.wrap hp)

/-- A cursor that is only moved. -/
theorem Steps.moved {row col : Int} {w : Bool}
    (h : Legal g → (0 ≤ row ∧ row < g.mRows) ∧ (0 ≤ col ∧ col < g.mColumns)) :
    Steps S g { g with mCursorRow := row, mCursorCol := col, mAboutToAutoWrap := w } :=
  ⟨.of_eq rfl rfl rfl rfl rfl rfl rfl rfl rfl rfl rfl rfl,
    fun hs => hs.moved w (h hs.toLegal).1 (h hs.toLegal).2⟩

end Geometry

namespace Display

open XoDos.Geometry (Sound Drawn Edited Steps Wraps Legal)

variable {d : Display}

/-! ## Motions -/

theorem setCursorRowCol_steps (d : Display) (row col : Int) :
    Steps S d.toGeometry (d.setCursorRowCol row col).toGeometry :=
  .moved fun h => by
    have := h.row
    have := h.column
    omega

theorem motion_steps (d : Display) (m : Motion) : Steps S d.toGeometry (m.run d).toGeometry := by
  have hposition : ∀ x y, Steps S d.toGeometry (d.setCursorPosition x y).toGeometry :=
    fun x y => setCursorRowCol_steps d _ _
  -- A motion is cut off at the screen or at the margins, whatever its argument.
  cases m with
  | carriageReturn =>
    refine .moved fun h => ⟨h.row, ?_⟩
    have := h.left
    have := h.right
    omega
  | up n =>
    refine .moved fun h => ⟨?_, h.column⟩
    have := h.row
    omega
  | down n =>
    refine .moved fun h => ⟨?_, h.column⟩
    have := h.row
    omega
  | forward n =>
    refine .moved fun h => ⟨h.row, ?_⟩
    have := h.column
    have := h.left
    have := h.right
    omega
  | backward n =>
    refine .moved fun h => ⟨h.row, ?_⟩
    have := h.column
    have := h.left
    have := h.right
    omega
  | nextLine n => exact hposition _ _
  | previousLine n => exact hposition _ _
  | column n =>
    refine .moved fun h => ⟨h.row, ?_⟩
    have := h.column
    omega
  | position x y => exact hposition _ _
  | columnAbsolute n => exact hposition _ _
  | row n =>
    refine .moved fun h => ⟨?_, h.column⟩
    have := h.row
    omega
  | rowRelative n => exact hposition _ _
  | lowerLeft => exact setCursorRowCol_steps d _ _

theorem restoreCursor_steps (d : Display) : Steps S d.toGeometry d.restoreCursor.toGeometry :=
  setCursorRowCol_steps d _ _

/-! ## Lines -/

theorem doLinefeed_steps (h : S → Sound S d.toGeometry) :
    Upholds S (fun d' => Steps S d.toGeometry d'.toGeometry ∧
      (Wraps d.toGeometry → Wraps d'.toGeometry)) fun _ => d.doLinefeed := by
  have hmove : ∀ (d : Display) (row : Int), (Legal d.toGeometry → 0 ≤ row ∧ row < d.mRows) →
      Steps S d.toGeometry (d.setCursorRow row).toGeometry :=
    fun d row hr => .moved fun hl => ⟨hr hl, hl.column⟩
  have hclear : ∀ (d : Display) (row : Int), Wraps (d.setCursorRow row).toGeometry :=
    fun d row hp => Bool.noConfusion hp
  simp only [doLinefeed]
  refine .ite (fun hbelow => .ok ?_) fun habove => .ite (fun hlast => ?_) fun hinside => .ok ?_
  · split_ifs with hrow
    · refine ⟨hmove _ _ fun hl => ?_, fun _ => hclear _ _⟩
      have := hl.row
      omega
    · exact ⟨(Edited.refl _).steps, id⟩
  · refine (scrollDownOneLine_edited h).bind fun d₁ h₁ => .ok ⟨h₁.steps.trans (hmove _ _ fun hl => ?_),
      fun _ => hclear _ _⟩
    have := hl.top
    have := hl.bottom
    omega
  · refine ⟨hmove _ _ fun hl => ?_, fun _ => hclear _ _⟩
    have := hl.row
    have := hl.bottom
    omega

theorem reverseIndex_steps (h : S → Sound S d.toGeometry) :
    Upholds S (fun d' => Steps S d.toGeometry d'.toGeometry ∧
      (Wraps d.toGeometry → Wraps d'.toGeometry)) fun _ => d.reverseIndex := by
  simp only [reverseIndex]
  refine .ite (fun htop => ?_) fun htop => .ok ⟨.moved fun hl => ⟨?_, hl.column⟩, id⟩
  · refine Upholds.mono (edited_bind (blockCopy_edited h fun hS => ?_) fun d₁ h₁ =>
      blockClear_edited (sound_edited h h₁) fun hS => ?_) fun _ he => ⟨he.steps, he.wraps⟩
    · have := (h hS).bounds
      omega
    · have := (sound_edited h h₁ hS).bounds
      omega
  · have := hl.row
    have := hl.top
    omega

/-! ## Columns -/

/-- DECBI moves the cursor and leaves a pending wrap behind, unless it is at the left margin. -/
theorem backIndex_steps (h : S → Sound S d.toGeometry) :
    Upholds S (fun d' => Steps S d.toGeometry d'.toGeometry ∧
      ((d.mLeftMargin < d.mCursorCol → d.mAboutToAutoWrap = false) → Wraps d.toGeometry →
        Wraps d'.toGeometry)) fun _ => d.backIndex := by
  simp only [backIndex]
  refine .ite (fun hleft => .ok ⟨.moved fun hl => ⟨hl.row, ?_⟩, ?_⟩) fun hleft => ?_
  · have := hl.left
    have := hl.column
    omega
  · intro hwrap _ hp
    exact absurd (hwrap hleft) (by simpa using hp)
  · refine Upholds.mono (edited_bind (blockCopy_edited h fun hS => ?_) fun d₁ h₁ =>
      blockSet_edited (sound_edited h h₁) (fun _ => isScalar_space) fun hS => ?_)
      fun _ he => ⟨he.steps, fun _ => he.wraps⟩
    · have := (h hS).bounds
      omega
    · have := (h hS).bounds
      have := h₁.same
      omega

theorem forwardIndex_steps (h : S → Sound S d.toGeometry) :
    Upholds S (fun d' => Steps S d.toGeometry d'.toGeometry ∧
      (Wraps d.toGeometry → Wraps d'.toGeometry)) fun _ => d.forwardIndex := by
  simp only [forwardIndex]
  refine .ite (fun hright => .ok ⟨.moved fun hl => ⟨hl.row, ?_⟩, ?_⟩) fun hright => ?_
  · have := hl.right
    have := hl.column
    omega
  · intro hw hp
    have := hw hp
    omega
  · refine Upholds.mono (edited_bind (blockCopy_edited h fun hS => ?_) fun d₁ h₁ =>
      blockSet_edited (sound_edited h h₁) (fun _ => isScalar_space) fun hS => ?_)
      fun _ he => ⟨he.steps, he.wraps⟩
    · have := (h hS).bounds
      omega
    · have := (h hS).bounds
      have := h₁.same
      omega

end Display

end XoDos
