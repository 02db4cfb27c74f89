import XoDos.DisplayCursor

/-!
# Writing a code point

`emitCodePoint` goes to the next line if it has to, writes into the current
screen and advances the cursor.  With `S`, a wide character in the last column
of the screen has to be kept away from a right margin that is further left:
there it is not moved to the next line, and the row has no room for it.
-/

namespace XoDos

open WcWidth (width)

variable {S : Prop}

namespace Display

open XoDos.Geometry (Sound Drawn Edited Steps Wraps Legal)

variable {d : Display} {codePoint : Nat} {autoWrap : Bool}

/-- Where the cursor is when a code point has been put at it. -/
structure Advanced (S : Prop) (d : Display) (codePoint : Nat) (autoWrap : Bool) (d' : Display) :
    Prop extends Drawn S d.toGeometry d'.toGeometry where
  row : d'.mCursorRow = d.mCursorRow
  col : d'.mCursorCol = min (d.mCursorCol + width codePoint) (d.mRightMargin - 1)
  last : d'.mLastEmittedCodePoint = d.mLastEmittedCodePoint
  wrap : d'.mAboutToAutoWrap = true →
    if autoWrap ∧ 0 < width codePoint then d.mCursorCol = d.mRightMargin - width codePoint
    else d.mAboutToAutoWrap = true

theorem placeCodePoint_advanced (h : S → Sound S d.toGeometry)
    (hfits : S → isScalar codePoint = true ∧ (width codePoint = 2 → d.mCursorCol + 1 ≠ d.mColumns)) :
    Upholds S (Advanced S d codePoint autoWrap) fun _ => d.placeCodePoint codePoint autoWrap := by
  have hwidth := WcWidth.width_nonneg codePoint
  simp only [placeCodePoint]
  refine Upholds.bind (P := fun d₁ => Edited S d.toGeometry d₁.toGeometry) ?_ fun d₁ h₁ => ?_
  · refine .ite (fun hinsert => blockCopy_edited h fun hS => ?_) fun _ => .ok (.refl _)
    have := (h hS).bounds
    omega
  have hs := sound_edited h h₁
  refine Upholds.bind (P := fun d₂ => Edited S d₁.toGeometry d₂.toGeometry) ?_ fun d₂ h₂ => .ok ?_
  · refine onScreen_upholds (TerminalBuffer.setChar_upholds (fun hS => (hs hS).screen hS)
      (fun hS => ⟨(hfits hS).1, ?_⟩) (fun hS => ?_) fun hS hw => ?_)
    · rw [(hs hS).screenColumns]
      have := (hs hS).bounds
      omega
    · rw [(hs hS).screenColumns, (hs hS).screenRows]
      have := (hs hS).bounds
      split_ifs <;> omega
    · have hcol := (hfits hS).2 hw
      have := h₁.same
      rw [(hs hS).screenColumns, if_neg (by omega)]
      have := (hs hS).bounds
      omega
  · have he := h₁.trans h₂
    refine ⟨he.toDrawn.trans (.of_eq rfl rfl rfl rfl rfl rfl rfl rfl rfl rfl rfl rfl), he.cursorRow,
      ?_, he.last, fun hp => ?_⟩
    · simp only [he.cursorCol, he.rightMargin]
    · simp only [he.cursorCol, he.rightMargin] at hp
      split_ifs at hp ⊢
      · exact of_decide_eq_true hp
      · exact he.wrap hp

/-- The next line starts at the left margin. -/
theorem wrapLine_steps (h : S → Sound S d.toGeometry) :
    Upholds S (fun d' => Steps S d.toGeometry d'.toGeometry ∧ d'.mCursorCol = d'.mLeftMargin)
      fun _ => d.wrapLine := by
  simp only [wrapLine]
  refine Upholds.bind (P := fun d₁ => Edited S d.toGeometry d₁.toGeometry) ?_ fun d₁ h₁ => ?_
  · refine onScreen_upholds (TerminalBuffer.putLineWrap_upholds (fun hS => (h hS).screen hS)
      fun hS => ?_)
    rw [(h hS).screenRows]
    exact (h hS).row
  have hmove : Steps S d₁.toGeometry { d₁.toGeometry with mCursorCol := d₁.mLeftMargin } := by
    refine .moved fun hl => ⟨hl.row, ?_⟩
    have := hl.left
    have := hl.right
    omega
  refine .ite (fun hrow => .ok ⟨h₁.steps.trans (.moved fun hl => ?_), rfl⟩) fun hrow => ?_
  · have := hl.row
    have := hl.bottom
    have := hl.left
    have := hl.right
    omega
  · refine (scrollDownOneLine_edited fun hS => ?_).mono fun d₂ h₂ => ⟨?_, ?_⟩
    · exact hmove.sound (sound_edited h h₁ hS)
    · exact h₁.steps.trans (hmove.trans h₂.steps)
    · rw [h₂.cursorCol, h₂.leftMargin]

end Display

end XoDos
