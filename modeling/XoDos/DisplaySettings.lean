import XoDos.TerminalEmulator

/-!
# What drawing leaves alone

The settings of a display are its fields beside geometry, scroll counter and
events.  All that writes on the screen or moves the cursor keeps them.
-/

namespace XoDos

/-- Attributes, modes, character sets, title and colours. -/
structure Settings where
  mForeColor : BitVec 32
  mBackColor : BitVec 32
  mEffect : BitVec 32
  mCurrentDecSetFlags : BitVec 32
  mSavedDecSetFlags : BitVec 32
  mInsertMode : Bool
  mUseLineDrawingG0 : Bool
  mUseLineDrawingG1 : Bool
  mUseLineDrawingUsesG0 : Bool
  mCursorStyle : CursorStyle
  mTitle : Option JavaString
  mTitleStack : List (Option JavaString)
  mColors : TerminalColors

def Display.settings (d : Display) : Settings where
  mForeColor := d.mForeColor
  mBackColor := d.mBackColor
  mEffect := d.mEffect
  mCurrentDecSetFlags := d.mCurrentDecSetFlags
  mSavedDecSetFlags := d.mSavedDecSetFlags
  mInsertMode := d.mInsertMode
  mUseLineDrawingG0 := d.mUseLineDrawingG0
  mUseLineDrawingG1 := d.mUseLineDrawingG1
  mUseLineDrawingUsesG0 := d.mUseLineDrawingUsesG0
  mCursorStyle := d.mCursorStyle
  mTitle := d.mTitle
  mTitleStack := d.mTitleStack
  mColors := d.mColors

namespace Display

variable {d : Display}

/-- `d'` has the settings of `d`. -/
def Draws (d d' : Display) : Prop := d'.settings = d.settings

theorem Draws.trans {d' d'' : Display} (h : Draws d d') (h' : Draws d' d'') : Draws d d'' :=
  Eq.trans h' h

theorem onScreen_draws {f : TerminalBuffer → Java TerminalBuffer} : Ensures (Draws d) (d.onScreen f) :=
  .bind_any fun _ => .ok rfl

/-- Two operations one after the other. -/
theorem bind_draws {x : Java Display} {f : Display → Java Display} (hx : Ensures (Draws d) x)
    (hf : ∀ d', Ensures (Draws d') (f d')) : Ensures (Draws d) (x >>= f) :=
  .bind hx fun d' h => (hf d').mono fun _ h' => h.trans h'

variable [ShortStore]

/-! ## Writing -/

theorem scrollDownOneLine_draws : Ensures (Draws d) d.scrollDownOneLine := by
  unfold scrollDownOneLine
  apply Ensures.ite
  · intro _
    exact bind_draws (d := d.countScroll) onScreen_draws fun _ => onScreen_draws
  · intro _
    exact onScreen_draws (d := d.countScroll)

theorem doLinefeed_draws : Ensures (Draws d) d.doLinefeed := by
  unfold doLinefeed
  refine .ite (fun _ => .ok ?_) fun _ => .ite (fun _ => ?_) fun _ => .ok rfl
  · split_ifs <;> rfl
  · exact bind_draws scrollDownOneLine_draws fun _ => .ok rfl

theorem wrapLine_draws : Ensures (Draws d) d.wrapLine := by
  unfold wrapLine
  refine bind_draws onScreen_draws fun d₁ => .ite (fun _ => .ok rfl) fun _ => ?_
  exact scrollDownOneLine_draws (d := { d₁ with mCursorCol := d₁.mLeftMargin })

theorem placeCodePoint_draws {codePoint : Nat} {autoWrap : Bool} :
    Ensures (Draws d) (d.placeCodePoint codePoint autoWrap) := by
  unfold placeCodePoint
  refine bind_draws (.ite (fun _ => onScreen_draws) fun _ => .ok rfl) fun d₁ => ?_
  exact bind_draws onScreen_draws fun _ => .ok rfl

theorem emitCodePoint_draws {codePoint : Nat} : Ensures (Draws d) (d.emitCodePoint codePoint) := by
  have hplace (d' : Display) (c : Nat) (w : Bool) : Ensures (Draws d') (d'.placeCodePoint c w) :=
    placeCodePoint_draws
  unfold emitCodePoint
  refine .ite (fun _ => ?_) fun _ => .ite (fun _ => .ok rfl) fun _ => hplace (d.remember codePoint) _ _
  refine bind_draws (d := d.remember codePoint) ?_ fun d₁ => hplace d₁ _ _
  exact .ite (fun _ => wrapLine_draws) fun _ => .ok rfl

theorem repeatCharacter_draws {n : Int} : Ensures (Draws d) (d.repeatCharacter n) := by
  unfold repeatCharacter
  cases d.mLastEmittedCodePoint with
  | none => exact .ok rfl
  | some codePoint =>
    exact .forUp (Q := Draws d) (fun _ _ _ _ h => emitCodePoint_draws.mono fun _ h' => h.trans h') rfl

/-! ## Editing -/

theorem blockClear_draws {sx sy w h : Int} : Ensures (Draws d) (d.blockClear sx sy w h) :=
  onScreen_draws

theorem edit_draws (e : Edit) : Ensures (Draws d) (e.run d) := by
  -- An edit works on the buffer and on the pending wrap, which are no settings.
  cases e with
  | alignmentTest =>
    simp only [Edit.run]
    exact onScreen_draws
  | eraseScreen => exact blockClear_draws
  | insertCharacters n => exact bind_draws (d := d.clearWrap) onScreen_draws fun _ => blockClear_draws
  | deleteCharacters n => exact bind_draws (d := d.clearWrap) onScreen_draws fun _ => blockClear_draws
  | eraseCharacters n =>
    simp only [Edit.run, eraseCharacters]
    exact onScreen_draws (d := d.clearWrap)
  | eraseInDisplay arg =>
    refine bind_draws (.ite (fun _ => ?_) fun _ => .ite (fun _ => ?_) fun _ => ?_) fun _ => .ok rfl
    · exact bind_draws blockClear_draws fun _ => blockClear_draws
    · exact bind_draws blockClear_draws fun _ => blockClear_draws
    · exact blockClear_draws
  | eraseInLine arg =>
    refine bind_draws (.ite (fun _ => ?_) fun _ => .ite (fun _ => ?_) fun _ => ?_) fun _ => .ok rfl
    · exact blockClear_draws
    · exact blockClear_draws
    · exact blockClear_draws
  | insertLines n => exact bind_draws onScreen_draws fun _ => blockClear_draws
  | deleteLines n => exact bind_draws (d := d.clearWrap) onScreen_draws fun _ => blockClear_draws
  | scrollUp n =>
    exact .forUp (Q := Draws d) (fun _ _ _ _ h => scrollDownOneLine_draws.mono fun _ h' => h.trans h') rfl
  | scrollDown n => exact bind_draws onScreen_draws fun _ => blockClear_draws
  | insertColumns n => exact bind_draws onScreen_draws fun _ => blockClear_draws
  | deleteColumns n =>
    simp only [Edit.run, deleteColumns]
    exact onScreen_draws
  | selectiveErase justRow arg =>
    refine .ite (fun _ => ?_) fun _ => .ite (fun _ => ?_) fun _ => .ite (fun _ => ?_) fun _ => .ok rfl
    · exact onScreen_draws (d := d.clearWrap)
    · exact onScreen_draws (d := d.clearWrap)
    · exact onScreen_draws (d := d.clearWrap)
  | fillRectangle fillChar selective top left bottom right =>
    exact .ite (fun _ => onScreen_draws) fun _ => .ok rfl
  | copyRectangle top left bottom right destinationTop destinationLeft =>
    simp only [Edit.run, copyRectangle]
    exact onScreen_draws
  | changeAttributes reverse top left bottom right codes =>
    refine .foldlM codes (fun d' code _ h => ?_) rfl
    exact .ite (fun _ => .ok h) fun _ => onScreen_draws.mono fun _ h' => h.trans h'

/-! ## Cursor and screens -/

omit [ShortStore] in
theorem backspace_draws : Ensures (Draws d) d.backspace := by
  unfold backspace
  refine .ite (fun _ => .ite (fun _ => .bind_any fun wrapped => ?_) fun _ => .ok rfl) fun _ => .ok rfl
  exact .ite (fun _ => bind_draws onScreen_draws fun _ => .ok rfl) fun _ => .ok rfl

theorem reverseIndex_draws : Ensures (Draws d) d.reverseIndex :=
  .ite (fun _ => bind_draws onScreen_draws fun _ => blockClear_draws) fun _ => .ok rfl

theorem backIndex_draws : Ensures (Draws d) d.backIndex :=
  .ite (fun _ => .ok rfl) fun _ => bind_draws onScreen_draws fun _ => onScreen_draws

theorem forwardIndex_draws : Ensures (Draws d) d.forwardIndex :=
  .ite (fun _ => .ok rfl) fun _ => bind_draws onScreen_draws fun _ => onScreen_draws

omit [ShortStore] in
theorem saveCursor_draws : Draws d d.saveCursor := by
  unfold saveCursor
  simp only
  split_ifs <;> rfl

theorem resizeScreen_draws : Ensures (Draws d) d.resizeScreen :=
  .bind_any fun _ => .ok rfl

theorem resize_draws {columns rows : Int} : Ensures (Draws d) (d.resize columns rows) := by
  unfold resize
  refine .ite (fun _ => .ok rfl) fun _ => .ite (fun _ => .error _) fun _ => ?_
  refine bind_draws ?_ fun _ => resizeScreen_draws
  generalize hd₁ : (if d.mRows ≠ rows then
    { d with mRows := rows, mTopMargin := 0, mBottomMargin := rows } else d) = d₁
  have h₁ : Draws d d₁ := by
    rw [← hd₁]
    split_ifs <;> rfl
  unfold setDefaultTabStops
  refine .ite (fun _ => .bind_any fun stops => ?_) fun _ => .ok h₁
  exact .bind (P := Draws d) (.bind_any fun _ => .ok h₁) fun _ h₂ => .bind_any fun _ => .ok h₂

end Display

/-! ## What attributes, titles and colours leave alone -/

/-- The geometry, the scroll counter and the saved modes. -/
structure Core where
  geometry : Geometry
  mScrollCounter : Int
  mSavedDecSetFlags : BitVec 32

def Display.core (d : Display) : Core where
  geometry := d.toGeometry
  mScrollCounter := d.mScrollCounter
  mSavedDecSetFlags := d.mSavedDecSetFlags

namespace Display

variable {d : Display}

theorem ite_core {c : Prop} [Decidable c] {d₁ d₂ : Display} {g : Core}
    (h₁ : d₁.core = g) (h₂ : d₂.core = g) : (if c then d₁ else d₂).core = g := by
  split_ifs
  · exact h₁
  · exact h₂

theorem setTitle_core (title : Option JavaString) : (d.setTitle title).core = d.core := by
  unfold setTitle
  exact ite_core rfl rfl

theorem setDecsetinternalBit_core (internalBit : BitVec 32) (set : Bool) :
    (d.setDecsetinternalBit internalBit set).core = d.core := by
  unfold setDecsetinternalBit
  exact ite_core rfl rfl

theorem applySgr_core (code : Int) : (d.applySgr code).core = d.core := by
  unfold applySgr
  -- One branch for each code, none of which is about the core.
  repeat refine ite_core rfl ?_
  rfl

theorem manipulateWindow_core (arg : Int) : (d.manipulateWindow arg).core = d.core := by
  unfold manipulateWindow
  refine ite_core rfl (ite_core rfl (ite_core rfl (ite_core rfl (ite_core rfl ?_))))
  refine ite_core rfl (ite_core rfl (ite_core rfl (ite_core ?_ rfl)))
  cases d.mTitleStack.getLast? with
  | none => rfl
  | some title => exact setTitle_core title

theorem changeColors_core {f : TerminalColors → Java TerminalColors} :
    Ensures (fun d' => d'.core = d.core) (d.changeColors f) := by
  unfold changeColors
  exact .bind_any fun colors => .ok rfl

variable [Platform]

theorem finishDeviceControl_core (dcs : JavaString) :
    (d.finishDeviceControl dcs).core = d.core := by
  have hanswer : ∀ (parts : List JavaString) (d : Display),
      (parts.foldl answerTermcap d).core = d.core := by
    intro parts
    induction parts with
    | nil => exact fun _ => rfl
    | cons part parts ih =>
      intro d
      rw [List.foldl_cons, ih]
      unfold answerTermcap
      split_ifs
      · simp only
        split
        · rfl
        · rfl
      · rfl
  unfold finishDeviceControl
  split_ifs
  · rfl
  · rfl
  · exact hanswer _ d
  · rfl

theorem appearance_core (a : Appearance) (h : ∀ bit, a ≠ .saveMode bit) : (a.run d).core = d.core := by
  cases a with
  | saveMode internalBit => exact absurd rfl (h internalBit)
  | setMode internalBit set => exact setDecsetinternalBit_core internalBit set
  | sgr code => exact applySgr_core code
  | manipulateWindow arg => exact manipulateWindow_core arg
  | deviceControl dcs => exact finishDeviceControl_core dcs
  | extendedColor code color => exact ite_core rfl rfl
  | setProtected set => exact ite_core rfl rfl
  | cursorShape arg => exact ite_core rfl (ite_core rfl (ite_core rfl rfl))
  | reportStatus arg => exact ite_core rfl (ite_core rfl rfl)
  | bell | useG0 _ | designateG0 _ | designateG1 _ | insertMode _ | reportExtendedCursor
  | reportPrivateMode _ | deviceAttributes | secondaryDeviceAttributes => rfl

theorem setColorsLoop_core (rest : JavaString) (colorIndex : Int) (spec : Option JavaString)
    (d : Display) :
    Ensures (fun d' => d'.core = d.core) (setColorsLoop rest colorIndex spec d) := by
  induction rest generalizing colorIndex spec d with
  | nil =>
    cases spec with
    | none =>
      rw [setColorsLoop]
      exact .ok rfl
    | some spec =>
      rw [setColorsLoop]
      exact .ite (fun _ => .ok rfl) fun _ => changeColors_core
  | cons b rest ih =>
    cases spec with
    | none =>
      rw [setColorsLoop]
      refine .ite (fun _ => ih _ _ d) fun _ => .ite (fun _ => ih _ _ d) fun _ => .ok rfl
    | some spec =>
      rw [setColorsLoop]
      refine .ite (fun _ => .ite (fun _ => .ok rfl) fun _ => ?_) fun _ => ih _ _ d
      exact .bind changeColors_core fun d₁ h₁ => (ih _ _ d₁).mono fun _ h₂ => h₂.trans h₁

theorem setSpecialColor_core {value specialIndex : Int} {colorSpec terminator : JavaString} :
    Ensures (fun d' => d'.core = d.core)
      (d.setSpecialColor value specialIndex colorSpec terminator) := by
  unfold setSpecialColor
  exact .ite (fun _ => .bind_any fun _ => .ok rfl) fun _ => changeColors_core

theorem specialColorsLoop_core (value : Int) (terminator colorSpec rest : JavaString)
    (specialIndex : Int) (d : Display) :
    Ensures (fun d' => d'.core = d.core)
      (specialColorsLoop value terminator colorSpec rest specialIndex d) := by
  induction colorSpec, rest, specialIndex, d using specialColorsLoop.induct with
  | case1 colorSpec specialIndex d =>
    rw [specialColorsLoop]
    exact setSpecialColor_core
  | case2 colorSpec rest specialIndex d ih =>
    rw [specialColorsLoop, if_pos rfl]
    refine .bind setSpecialColor_core fun d₁ h₁ => .ite (fun _ => .ok h₁) fun _ => ?_
    cases rest with
    | nil => exact .ok h₁
    | cons next rest => exact (ih d₁).mono fun _ h₂ => h₂.trans h₁
  | case3 colorSpec b rest specialIndex d hb ih =>
    rw [specialColorsLoop, if_neg hb]
    exact ih

theorem resetColorsLoop_core (item rest : JavaString) (d : Display) :
    Ensures (fun d' => d'.core = d.core) (resetColorsLoop item rest d) := by
  induction item, rest, d using resetColorsLoop.induct with
  | case1 item d colorToReset hparse =>
    rw [resetColorsLoop, hparse]
    exact changeColors_core
  | case2 item d hparse =>
    rw [resetColorsLoop, hparse]
    exact .error _
  | case3 item rest d colorToReset hparse ih =>
    rw [resetColorsLoop, if_pos rfl, hparse]
    refine .bind changeColors_core fun d₁ h₁ => ?_
    cases rest with
    | nil => exact .error _
    | cons next rest => exact (ih d₁).mono fun _ h₂ => h₂.trans h₁
  | case4 item rest d hparse ih =>
    rw [resetColorsLoop, if_pos rfl, hparse]
    exact ih
  | case5 item b rest d hb ih =>
    rw [resetColorsLoop, if_neg hb]
    exact ih

theorem setTextParameter_core (value : Int) (textParameter terminator : JavaString) :
    Ensures (fun d' => d'.core = d.core)
      (d.setTextParameter value textParameter terminator) := by
  unfold setTextParameter
  refine .ite (fun _ => .ok (setTitle_core _)) fun _ => ?_
  refine .ite (fun _ => setColorsLoop_core _ _ _ d) fun _ => ?_
  refine .ite (fun _ => specialColorsLoop_core _ _ _ _ _ d) fun _ => ?_
  refine .ite (fun _ => ?_) fun _ => .ite (fun _ => ?_) fun _ => ?_
  · simp only
    split
    · exact .ok rfl
    · exact .ok rfl
  · exact .ite (fun _ => changeColors_core) fun _ => resetColorsLoop_core _ _ d
  · exact .ite (fun _ => changeColors_core) fun _ => .ok rfl

end Display

end XoDos
