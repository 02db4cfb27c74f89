import XoDos.CellStyles
import XoDos.CursorBounds

/-!
# The styles on the screen

The colours and effects that are selected always fit into a style, so that a style shows them again.  All
cells of both screens and of the history have such styles: what they are drawn with is what was selected when
they were written.
-/

namespace XoDos

namespace TextStyle

/-- Effect bits alone. -/
def IsEffect (effect : BitVec 32) : Prop := ∀ i, 9 ≤ i → effect.getLsbD i = false

/-- A style of proper colours. -/
def IsStyle (style : Style) : Prop :=
  ∃ foreColor backColor effect, IsStyleColor foreColor ∧ IsStyleColor backColor ∧
    style = encode foreColor backColor effect

theorem getLsbD_of_lt {color : BitVec 32} {n : Nat} (h : color.toNat < 2 ^ n) {i : Nat} (hi : n ≤ i) :
    color.getLsbD i = false := by
  rw [BitVec.getLsbD]
  exact Nat.testBit_lt_two_pow (h.trans_le (Nat.pow_le_pow_right (by decide) hi))

theorem IsStyleColor.isColor {color : BitVec 32} (h : IsStyleColor color) : IsColor color := by
  rcases h with htrue | hindex
  · exact .inl htrue
  · refine .inr fun i hi => getLsbD_of_lt (n := 9) ?_ hi
    exact hindex.trans (by decide)

/-- Only the nine low bits of an effect get into a style. -/
theorem encode_congr {foreColor backColor effect effect' : BitVec 32}
    (h : ∀ i < 9, effect.getLsbD i = effect'.getLsbD i) :
    encode foreColor backColor effect = encode foreColor backColor effect' := by
  apply BitVec.eq_of_getLsbD_eq
  intro i hi
  rw [getLsbD_encode _ _ _ hi, getLsbD_encode _ _ _ hi]
  by_cases h₉ : i < 9
  · rw [h i h₉]
  · rw [decide_eq_false h₉, Bool.false_and, Bool.false_and]

/-- The effect bits without the flags of 24-bit colours. -/
theorem getLsbD_decodeEffect_encode {foreColor backColor effect : BitVec 32} {i : Nat} (hi : i < 9) :
    (decodeEffect (encode foreColor backColor effect)).getLsbD i = effect.getLsbD i := by
  rw [getLsbD_decodeEffect (by omega), encode_effect _ _ _ hi, decide_eq_true (by omega), Bool.true_and]

/-- The three parts of a style make the style again. -/
theorem IsStyle.encode_decode {style : Style} (h : IsStyle style) :
    IsStyleColor (decodeForeColor style) ∧ IsStyleColor (decodeBackColor style) ∧
      encode (decodeForeColor style) (decodeBackColor style) (decodeEffect style) = style := by
  obtain ⟨foreColor, backColor, effect, hfore, hback, rfl⟩ := h
  rw [decodeForeColor_encode _ hfore.isColor, decodeBackColor_encode _ hback.isColor]
  exact ⟨hfore, hback, encode_congr fun i hi => getLsbD_decodeEffect_encode hi⟩

theorem isStyle_encode {foreColor backColor effect : BitVec 32} (hfore : IsStyleColor foreColor)
    (hback : IsStyleColor backColor) : IsStyle (encode foreColor backColor effect) :=
  ⟨foreColor, backColor, effect, hfore, hback, rfl⟩

theorem isStyle_zero : IsStyle 0 := by
  have hzero : (0 : Style) = encode 0 0 0 := by decide
  rw [hzero]
  exact isStyle_encode (.inr (by decide)) (.inr (by decide))

theorem isStyle_normal : IsStyle normal := isStyle_encode (.inr (by decide)) (.inr (by decide))

/-- A style that is made of effect bits alone has two colours of index 0. -/
theorem isStyle_effect {effect : BitVec 32} (h : IsEffect effect) : IsStyle (effect.signExtend 64) := by
  have heffect : effect &&& 0b111111111 = effect := by
    apply BitVec.eq_of_getLsbD_eq
    intro i hi
    have hmask : ∀ j : Fin 32, (0b111111111 : BitVec 32).getLsbD j = decide ((j : Nat) < 9) := by decide
    rw [BitVec.getLsbD_and, hmask ⟨i, hi⟩]
    by_cases h₉ : i < 9
    · rw [decide_eq_true (p := i < 9) h₉, Bool.and_true]
    · rw [h i (by omega), Bool.false_and]
  have hencode : effect.signExtend 64 = encode 0 0 effect := by
    have hindex : isTruecolor 0 = false := by decide
    have hfield : ((0 : BitVec 32).signExtend 64 &&& 0b111111111) <<< 40 = 0#64 := by decide
    have hfield' : ((0 : BitVec 32).signExtend 64 &&& 0b111111111) <<< 16 = 0#64 := by decide
    simp only [encode, hindex, Bool.false_eq_true, if_false, hfield, hfield', heffect, BitVec.or_zero]
  rw [hencode]
  exact isStyle_encode (.inr (by decide)) (.inr (by decide))

end TextStyle

open TextStyle (IsStyle IsStyleColor IsEffect)

theorem TerminalBuffer.changeEffect_isStyle (bits : BitVec 32) (setOrClear reverse : Bool) {style : Style}
    (h : IsStyle style) : IsStyle (changeEffect bits setOrClear reverse style) := by
  obtain ⟨hfore, hback, -⟩ := h.encode_decode
  exact TextStyle.isStyle_encode hfore hback

/-! ## What has styles -/

/-- Colours and effects, selected or saved. -/
structure Pen where
  foreColor : BitVec 32
  backColor : BitVec 32
  effect : BitVec 32

structure Pen.Proper (p : Pen) : Prop where
  foreColor : IsStyleColor p.foreColor
  backColor : IsStyleColor p.backColor
  effect : IsEffect p.effect

/-- All that holds colours and effects. -/
structure Styles where
  pen : Pen
  savedMain : Pen
  savedAlt : Pen
  main : TerminalBuffer
  alt : TerminalBuffer

structure Styles.Proper (s : Styles) : Prop where
  pen : s.pen.Proper
  savedMain : s.savedMain.Proper
  savedAlt : s.savedAlt.Proper
  main : s.main.AllStyles IsStyle
  alt : s.alt.AllStyles IsStyle

def SavedScreenState.pen (s : SavedScreenState) : Pen := ⟨s.mSavedForeColor, s.mSavedBackColor, s.mSavedEffect⟩

namespace Display

variable {d : Display}

def pen (d : Display) : Pen := ⟨d.mForeColor, d.mBackColor, d.mEffect⟩

def styles (d : Display) : Styles where
  pen := d.pen
  savedMain := d.mSavedStateMain.pen
  savedAlt := d.mSavedStateAlt.pen
  main := d.mMainBuffer
  alt := d.mAltBuffer

def Styled (d : Display) : Prop := d.styles.Proper

theorem Styled.style (h : d.Styled) : IsStyle d.getStyle :=
  TextStyle.isStyle_encode h.pen.foreColor h.pen.backColor

theorem onScreen_styled (h : d.Styled) {f : TerminalBuffer → Java TerminalBuffer}
    (hf : ∀ b : TerminalBuffer, b.AllStyles IsStyle → Ensures (TerminalBuffer.AllStyles IsStyle) (f b)) :
    Ensures Styled (d.onScreen f) := by
  unfold onScreen
  have hscreen : d.mScreen.AllStyles IsStyle := by
    unfold Geometry.mScreen
    split_ifs
    · exact h.alt
    · exact h.main
  refine .bind (hf _ hscreen) fun b hb => .ok ?_
  refine ⟨h.pen, h.savedMain, h.savedAlt, ?_, ?_⟩
  · simp only [styles, setScreen]
    split_ifs
    · exact h.main
    · exact hb
  · simp only [styles, setScreen]
    split_ifs
    · exact hb
    · exact h.alt

theorem saveCursor_styled (h : d.Styled) : d.saveCursor.Styled := by
  unfold saveCursor
  simp only
  split_ifs
  · exact ⟨h.pen, h.savedMain, h.pen, h.main, h.alt⟩
  · exact ⟨h.pen, h.pen, h.savedAlt, h.main, h.alt⟩

theorem restoreCursor_styled (h : d.Styled) : d.restoreCursor.Styled := by
  refine ⟨?_, h.savedMain, h.savedAlt, h.main, h.alt⟩
  simp only [restoreCursor, styles, pen]
  split_ifs
  · exact h.savedAlt
  · exact h.savedMain

theorem backspace_styled (h : d.Styled) : Ensures Styled d.backspace := by
  unfold backspace
  refine .ite (fun _ => .ite (fun _ => .bind_any fun wrapped => ?_) fun _ => .ok h) fun _ => .ok h
  refine .ite (fun _ => ?_) fun _ => .ok h
  exact .bind (onScreen_styled h fun b hb => TerminalBuffer.putLineWrap_styles hb) fun d₁ h₁ => .ok h₁

variable [ShortStore]

theorem blockSet_styled (h : d.Styled) {style : Style} (hs : IsStyle style) {sx sy w h' : Int} {val : Nat} :
    Ensures Styled (d.onScreen fun b => b.blockSet sx sy w h' val style) :=
  onScreen_styled h fun _ hb => TerminalBuffer.blockSet_styles TextStyle.isStyle_zero hb hs

theorem blockClear_styled (h : d.Styled) {sx sy w h' : Int} : Ensures Styled (d.blockClear sx sy w h') :=
  blockSet_styled h h.style

theorem blockCopy_styled (h : d.Styled) {sx sy w h' dx dy : Int} :
    Ensures Styled (d.onScreen fun b => b.blockCopy sx sy w h' dx dy) :=
  onScreen_styled h fun _ hb => TerminalBuffer.blockCopy_styles TextStyle.isStyle_zero hb

/-! ## Writing -/

theorem scrollDownOneLine_styled (h : d.Styled) : Ensures Styled d.scrollDownOneLine := by
  have hcounted : d.countScroll.Styled := h
  unfold scrollDownOneLine
  refine .ite (fun _ => ?_) fun _ => ?_
  · exact .bind (blockCopy_styled hcounted) fun d₁ h₁ => blockSet_styled h₁ (TextStyle.isStyle_effect h₁.pen.effect)
  · exact onScreen_styled hcounted fun b hb => TerminalBuffer.scrollDownOneLine_styles hb hcounted.style

theorem doLinefeed_styled (h : d.Styled) : Ensures Styled d.doLinefeed := by
  unfold doLinefeed
  refine .ite (fun _ => .ok ?_) fun _ => .ite (fun _ => ?_) fun _ => .ok h
  · split_ifs <;> exact h
  · exact .bind (scrollDownOneLine_styled h) fun d₁ h₁ => .ok h₁

theorem wrapLine_styled (h : d.Styled) : Ensures Styled d.wrapLine := by
  unfold wrapLine
  refine .bind (onScreen_styled h fun b hb => TerminalBuffer.putLineWrap_styles hb) fun d₁ h₁ => ?_
  have hmoved : Styled { d₁ with mCursorCol := d₁.mLeftMargin } := h₁
  exact .ite (fun _ => .ok h₁) fun _ => scrollDownOneLine_styled hmoved

theorem placeCodePoint_styled (h : d.Styled) {codePoint : Nat} {autoWrap : Bool} :
    Ensures Styled (d.placeCodePoint codePoint autoWrap) := by
  unfold placeCodePoint
  refine .bind (P := Styled) (.ite (fun _ => blockCopy_styled h) fun _ => .ok h) fun d₁ h₁ => ?_
  refine .bind (onScreen_styled h₁ fun b hb => ?_) fun d₂ h₂ => .ok h₂
  exact TerminalBuffer.setChar_styles TextStyle.isStyle_zero hb h₁.style

theorem emitCodePoint_styled (h : d.Styled) {codePoint : Nat} : Ensures Styled (d.emitCodePoint codePoint) := by
  have hremembered : (d.remember codePoint).Styled := h
  unfold emitCodePoint
  refine .ite (fun _ => ?_) fun _ => .ite (fun _ => .ok hremembered) fun _ => placeCodePoint_styled hremembered
  refine .bind (P := Styled) (.ite (fun _ => wrapLine_styled hremembered) fun _ => .ok hremembered) fun d₁ h₁ => ?_
  exact placeCodePoint_styled h₁

theorem repeatCharacter_styled (h : d.Styled) {n : Int} : Ensures Styled (d.repeatCharacter n) := by
  unfold repeatCharacter
  cases d.mLastEmittedCodePoint with
  | none => exact .ok h
  | some codePoint => exact .forUp (fun _ d₁ _ _ h₁ => emitCodePoint_styled h₁) h

/-! ## Editing -/

theorem fillCells_styled (h : d.Styled) {fillChar : Nat} {selective keepVisualAttributes : Bool}
    {startRow endRow startCol endCol : Int} :
    Ensures Styled (d.fillCells fillChar selective keepVisualAttributes startRow endRow startCol endCol) := by
  have h₀ := TextStyle.isStyle_zero
  refine onScreen_styled h fun b hb => .forUp (fun row b₁ _ _ h₁ => .forUp (fun col b₂ _ _ h₂ => ?_) h₁) hb
  unfold fillCell
  refine .bind (P := fun p : TerminalBuffer × Bool => p.1.AllStyles IsStyle) (.ite (fun _ => ?_) fun _ => .ok h₂)
    fun p hp => .ite (fun _ => .ok hp) fun _ => ?_
  · exact .bind (TerminalBuffer.getStyleAt_styles h₀ h₂) fun q hq => .ok hq.1
  · refine .bind (P := fun p : TerminalBuffer × Style => p.1.AllStyles IsStyle ∧ IsStyle p.2)
      (.ite (fun _ => TerminalBuffer.getStyleAt_styles h₀ hp) fun _ => .ok ⟨hp, h.style⟩) fun q hq => ?_
    exact TerminalBuffer.setChar_styles h₀ hq.1 hq.2

theorem edit_styled (h : d.Styled) (e : Edit) : Ensures Styled (e.run d) := by
  have hcleared : d.clearWrap.Styled := h
  have hclear : ∀ d' : Display, d'.Styled → ∀ sx sy w h', Ensures Styled (d'.blockClear sx sy w h') :=
    fun d' hd' _ _ _ _ => blockClear_styled hd'
  cases e with
  | alignmentTest => exact blockSet_styled h h.style
  | eraseScreen => exact blockClear_styled h
  | insertCharacters n =>
    exact .bind (blockCopy_styled hcleared) fun d₁ h₁ => hclear d₁ h₁ _ _ _ _
  | deleteCharacters n =>
    exact .bind (blockCopy_styled hcleared) fun d₁ h₁ => hclear d₁ h₁ _ _ _ _
  | eraseCharacters n => exact blockSet_styled hcleared h.style
  | eraseInDisplay arg =>
    refine .bind (P := Styled) (.ite (fun _ => ?_) fun _ => .ite (fun _ => ?_) fun _ => hclear d h _ _ _ _)
      fun d₁ h₁ => .ok h₁
    · exact .bind (hclear d h _ _ _ _) fun d₁ h₁ => hclear d₁ h₁ _ _ _ _
    · exact .bind (hclear d h _ _ _ _) fun d₁ h₁ => hclear d₁ h₁ _ _ _ _
  | eraseInLine arg =>
    exact .bind (P := Styled) (.ite (fun _ => hclear d h _ _ _ _) fun _ => .ite
      (fun _ => hclear d h _ _ _ _) fun _ => hclear d h _ _ _ _) fun d₁ h₁ => .ok h₁
  | insertLines n => exact .bind (blockCopy_styled h) fun d₁ h₁ => hclear d₁ h₁ _ _ _ _
  | deleteLines n => exact .bind (blockCopy_styled hcleared) fun d₁ h₁ => hclear d₁ h₁ _ _ _ _
  | scrollUp n => exact .forUp (fun _ d₁ _ _ h₁ => scrollDownOneLine_styled h₁) h
  | scrollDown n => exact .bind (blockCopy_styled h) fun d₁ h₁ => hclear d₁ h₁ _ _ _ _
  | insertColumns n => exact .bind (blockCopy_styled h) fun d₁ h₁ => hclear d₁ h₁ _ _ _ _
  | deleteColumns n => exact blockCopy_styled h
  | selectiveErase justRow arg =>
    exact .ite (fun _ => fillCells_styled hcleared) fun _ => .ite (fun _ => fillCells_styled hcleared) fun _ =>
      .ite (fun _ => fillCells_styled hcleared) fun _ => .ok hcleared
  | fillRectangle fillChar selective top left bottom right =>
    exact .ite (fun _ => fillCells_styled h) fun _ => .ok h
  | copyRectangle top left bottom right destinationTop destinationLeft => exact blockCopy_styled h
  | changeAttributes reverse top left bottom right codes =>
    refine .foldlM codes (fun d₁ code _ h₁ => ?_) h
    refine .ite (fun _ => .ok h₁) fun _ => onScreen_styled h₁ fun b hb => ?_
    exact TerminalBuffer.setOrClearEffect_styles hb fun s hs => TerminalBuffer.changeEffect_isStyle _ _ _ hs

theorem reverseIndex_styled (h : d.Styled) : Ensures Styled d.reverseIndex :=
  .ite (fun _ => .bind (blockCopy_styled h) fun _ h₁ => blockClear_styled h₁) fun _ => .ok h

theorem backIndex_styled (h : d.Styled) : Ensures Styled d.backIndex :=
  .ite (fun _ => .ok h) fun _ => .bind (blockCopy_styled h) fun _ h₁ =>
    blockSet_styled h₁ (TextStyle.isStyle_encode h₁.pen.foreColor h₁.pen.backColor)

theorem forwardIndex_styled (h : d.Styled) : Ensures Styled d.forwardIndex :=
  .ite (fun _ => .ok h) fun _ => .bind (blockCopy_styled h) fun _ h₁ =>
    blockSet_styled h₁ (TextStyle.isStyle_encode h₁.pen.foreColor h₁.pen.backColor)

/-! ## Screens -/

theorem resizeScreen_styled (h : d.Styled) : Ensures Styled d.resizeScreen := by
  have hscreen : d.mScreen.AllStyles IsStyle := by
    unfold Geometry.mScreen
    split_ifs
    · exact h.alt
    · exact h.main
  unfold resizeScreen
  refine .bind (TerminalBuffer.resize_styles TextStyle.isStyle_zero hscreen h.style) fun r hr => .ok ?_
  refine ⟨h.pen, h.savedMain, h.savedAlt, ?_, ?_⟩
  · simp only [styles, setScreen]
    split_ifs
    · exact h.main
    · exact hr
  · simp only [styles, setScreen]
    split_ifs
    · exact hr
    · exact h.alt

theorem resize_styled (h : d.Styled) {columns rows : Int} : Ensures Styled (d.resize columns rows) := by
  unfold resize
  refine .ite (fun _ => .ok h) fun _ => .ite (fun _ => .error _) fun _ => ?_
  generalize hd₁ : (if d.mRows ≠ rows then
    { d with mRows := rows, mTopMargin := 0, mBottomMargin := rows } else d) = d₁
  have h₁ : d₁.Styled := by
    rw [← hd₁]
    split_ifs <;> exact h
  refine .bind (P := Styled) (.ite (fun _ => .bind_any fun stops => ?_) fun _ => .ok h₁) fun d₂ h₂ =>
    resizeScreen_styled h₂
  unfold setDefaultTabStops
  exact .bind (P := Styled) (.bind_any fun _ => .ok h₁) fun _ h₂ => .bind_any fun _ => .ok h₂

theorem useScreen_styled (h : d.Styled) (setting : Bool) : Ensures Styled (d.useScreen setting) := by
  unfold useScreen
  refine .ite (fun _ => .ok h) fun _ => .ite (fun _ => ?_) fun _ => ?_
  · have hsaved : Styled { d.saveCursor with altActive := true } := saveCursor_styled h
    exact .bind (P := Styled) (.ite (fun _ => resizeScreen_styled hsaved) fun _ => .ok hsaved) fun d₁ h₁ =>
      blockSet_styled h₁ h₁.style
  · have hrestored : Styled (Display.restoreCursor { d with altActive := false }) :=
      restoreCursor_styled (d := { d with altActive := false }) h
    exact .ite (fun _ => resizeScreen_styled hrestored) fun _ => .ok hrestored

omit [ShortStore] in
theorem setDecsetinternalBit_styled (h : d.Styled) (internalBit : BitVec 32) (set : Bool) :
    (d.setDecsetinternalBit internalBit set).Styled := by
  unfold setDecsetinternalBit
  split_ifs <;> exact h

theorem resetPage_styled (h : d.Styled) : Ensures Styled d.resetPage := by
  unfold resetPage
  refine .bind (P := Styled) (blockClear_styled ?_) fun d₁ h₁ => .ok h₁
  exact setDecsetinternalBit_styled (d := { d with
    mLeftMargin := 0
    mTopMargin := 0
    mBottomMargin := d.mRows
    mRightMargin := d.mColumns }) h _ _

/-! ## Attributes -/

omit [ShortStore] in
theorem setEffect_styled (h : d.Styled) {bits : BitVec 32} (hbits : IsEffect bits) :
    (d.setEffect bits).Styled := by
  refine ⟨⟨h.pen.foreColor, h.pen.backColor, fun i hi => ?_⟩, h.savedMain, h.savedAlt, h.main, h.alt⟩
  change (d.mEffect ||| bits).getLsbD i = false
  rw [BitVec.getLsbD_or, hbits i hi, Bool.or_false]
  exact h.pen.effect i hi

omit [ShortStore] in
theorem clearEffect_styled (h : d.Styled) (bits : BitVec 32) : (d.clearEffect bits).Styled := by
  refine ⟨⟨h.pen.foreColor, h.pen.backColor, fun i hi => ?_⟩, h.savedMain, h.savedAlt, h.main, h.alt⟩
  have heffect : d.mEffect.getLsbD i = false := h.pen.effect i hi
  change (d.mEffect &&& ~~~bits).getLsbD i = false
  rw [BitVec.getLsbD_and, heffect, Bool.false_and]

omit [ShortStore] in
theorem foreColor_styled (h : d.Styled) {color : BitVec 32} (hcolor : IsStyleColor color) :
    Styled { d with mForeColor := color } :=
  ⟨⟨hcolor, h.pen.backColor, h.pen.effect⟩, h.savedMain, h.savedAlt, h.main, h.alt⟩

omit [ShortStore] in
theorem backColor_styled (h : d.Styled) {color : BitVec 32} (hcolor : IsStyleColor color) :
    Styled { d with mBackColor := color } :=
  ⟨⟨h.pen.foreColor, hcolor, h.pen.effect⟩, h.savedMain, h.savedAlt, h.main, h.alt⟩

omit [ShortStore] in
/-- The 16 colours of SGR 30 to 37, 40 to 47, 90 to 97 and 100 to 107. -/
theorem isStyleColor_basic {n : Int} (h : 0 ≤ n ∧ n < 16) : IsStyleColor (BitVec.ofInt 32 n) :=
  Parser.indexedColor_proper ⟨h.1, h.2.trans (by decide)⟩

omit [ShortStore] in
theorem ite_styled {c : Prop} [Decidable c] {d₁ d₂ : Display} (h₁ : c → d₁.Styled) (h₂ : ¬c → d₂.Styled) :
    (if c then d₁ else d₂).Styled := by
  split_ifs with hc
  · exact h₁ hc
  · exact h₂ hc

omit [ShortStore] in
theorem applySgr_styled (h : d.Styled) (code : Int) : (d.applySgr code).Styled := by
  have hdefault : IsStyleColor TextStyle.colorIndexForeground := .inr (by decide)
  have hdefault' : IsStyleColor TextStyle.colorIndexBackground := .inr (by decide)
  have hset : ∀ bits : BitVec 32, bits.toNat < 2 ^ 9 → (d.setEffect bits).Styled := fun bits hbits =>
    setEffect_styled h fun i hi => TextStyle.getLsbD_of_lt hbits hi
  have hclear : ∀ bits : BitVec 32, (d.clearEffect bits).Styled := clearEffect_styled h
  unfold applySgr
  refine ite_styled (fun _ => ?_) fun _ => ?_
  · exact foreColor_styled (d := { d with mBackColor := TextStyle.colorIndexBackground, mEffect := 0 })
      ⟨⟨h.pen.foreColor, hdefault', fun i _ => BitVec.getLsbD_zero⟩, h.savedMain, h.savedAlt, h.main, h.alt⟩
      hdefault
  refine ite_styled (fun _ => hset _ (by decide)) fun _ => ite_styled (fun _ => hset _ (by decide)) fun _ =>
    ite_styled (fun _ => hset _ (by decide)) fun _ => ite_styled (fun _ => hset _ (by decide)) fun _ =>
    ite_styled (fun _ => hset _ (by decide)) fun _ => ite_styled (fun _ => hset _ (by decide)) fun _ =>
    ite_styled (fun _ => hset _ (by decide)) fun _ => ite_styled (fun _ => hset _ (by decide)) fun _ => ?_
  refine ite_styled (fun _ => hclear _) fun _ => ite_styled (fun _ => hclear _) fun _ => ite_styled (fun _ => hclear _) fun _ =>
    ite_styled (fun _ => hclear _) fun _ => ite_styled (fun _ => hclear _) fun _ => ite_styled (fun _ => hclear _) fun _ =>
    ite_styled (fun _ => hclear _) fun _ => ?_
  refine ite_styled (fun hc => foreColor_styled h (isStyleColor_basic (by omega))) fun _ =>
    ite_styled (fun _ => foreColor_styled h hdefault) fun _ =>
    ite_styled (fun hc => backColor_styled h (isStyleColor_basic (by omega))) fun _ =>
    ite_styled (fun _ => backColor_styled h hdefault') fun _ =>
    ite_styled (fun hc => foreColor_styled h (isStyleColor_basic (by omega))) fun _ =>
    ite_styled (fun hc => backColor_styled h (isStyleColor_basic (by omega))) fun _ => h

/-! ## Titles, colour tables and reports -/

omit [ShortStore] in
theorem changeColors_styled (h : d.Styled) {f : TerminalColors → Java TerminalColors} :
    Ensures Styled (d.changeColors f) :=
  .bind_any fun _ => .ok h

omit [ShortStore] in
theorem setTitle_styled (h : d.Styled) (title : Option JavaString) : (d.setTitle title).Styled := by
  unfold setTitle
  simp only
  split_ifs <;> exact h

omit [ShortStore] in
theorem manipulateWindow_styled (h : d.Styled) (arg : Int) : (d.manipulateWindow arg).Styled := by
  have hreply : ∀ text, (d.reply text).Styled := fun _ => h
  unfold manipulateWindow
  refine ite_styled (fun _ => hreply _) fun _ => ite_styled (fun _ => hreply _) fun _ =>
    ite_styled (fun _ => hreply _) fun _ => ite_styled (fun _ => hreply _) fun _ =>
    ite_styled (fun _ => hreply _) fun _ => ite_styled (fun _ => hreply _) fun _ =>
    ite_styled (fun _ => hreply _) fun _ => ite_styled (fun _ => h) fun _ => ite_styled (fun _ => ?_) fun _ => h
  cases d.mTitleStack.getLast? with
  | none => exact h
  | some title => exact setTitle_styled (d := { d with mTitleStack := d.mTitleStack.dropLast }) h title

variable [Platform]

omit [ShortStore]

theorem setColorsLoop_styled (rest : JavaString) (colorIndex : Int) (spec : Option JavaString)
    (h : d.Styled) : Ensures Styled (setColorsLoop rest colorIndex spec d) := by
  induction rest generalizing colorIndex spec d with
  | nil =>
    cases spec with
    | none =>
      rw [setColorsLoop]
      exact .ok h
    | some spec =>
      rw [setColorsLoop]
      exact .ite (fun _ => .ok h) fun _ => changeColors_styled h
  | cons b rest ih =>
    cases spec with
    | none =>
      rw [setColorsLoop]
      exact .ite (fun _ => ih _ _ h) fun _ => .ite (fun _ => ih _ _ h) fun _ => .ok h
    | some spec =>
      rw [setColorsLoop]
      refine .ite (fun _ => .ite (fun _ => .ok h) fun _ => ?_) fun _ => ih _ _ h
      exact .bind (changeColors_styled h) fun d₁ h₁ => ih _ _ h₁

theorem setSpecialColor_styled (h : d.Styled) {value specialIndex : Int} {colorSpec terminator : JavaString} :
    Ensures Styled (d.setSpecialColor value specialIndex colorSpec terminator) := by
  unfold setSpecialColor
  exact .ite (fun _ => .bind_any fun _ => .ok h) fun _ => changeColors_styled h

theorem specialColorsLoop_styled (value : Int) (terminator colorSpec rest : JavaString) (specialIndex : Int)
    (h : d.Styled) : Ensures Styled (specialColorsLoop value terminator colorSpec rest specialIndex d) := by
  induction colorSpec, rest, specialIndex, d using specialColorsLoop.induct with
  | case1 colorSpec specialIndex d =>
    rw [specialColorsLoop]
    exact setSpecialColor_styled h
  | case2 colorSpec rest specialIndex d ih =>
    rw [specialColorsLoop, if_pos rfl]
    refine .bind (setSpecialColor_styled h) fun d₁ h₁ => .ite (fun _ => .ok h₁) fun _ => ?_
    cases rest with
    | nil => exact .ok h₁
    | cons next rest => exact ih d₁ h₁
  | case3 colorSpec b rest specialIndex d hb ih =>
    rw [specialColorsLoop, if_neg hb]
    exact ih h

theorem resetColorsLoop_styled (item rest : JavaString) (h : d.Styled) :
    Ensures Styled (resetColorsLoop item rest d) := by
  induction item, rest, d using resetColorsLoop.induct with
  | case1 item d colorToReset hparse =>
    rw [resetColorsLoop, hparse]
    exact changeColors_styled h
  | case2 item d hparse =>
    rw [resetColorsLoop, hparse]
    exact .error _
  | case3 item rest d colorToReset hparse ih =>
    rw [resetColorsLoop, if_pos rfl, hparse]
    refine .bind (changeColors_styled h) fun d₁ h₁ => ?_
    cases rest with
    | nil => exact .error _
    | cons next rest => exact ih d₁ h₁
  | case4 item rest d hparse ih =>
    rw [resetColorsLoop, if_pos rfl, hparse]
    exact ih h
  | case5 item b rest d hb ih =>
    rw [resetColorsLoop, if_neg hb]
    exact ih h

theorem setTextParameter_styled (h : d.Styled) (value : Int) (textParameter terminator : JavaString) :
    Ensures Styled (d.setTextParameter value textParameter terminator) := by
  unfold setTextParameter
  refine .ite (fun _ => .ok (setTitle_styled h _)) fun _ => .ite (fun _ => setColorsLoop_styled _ _ _ h)
    fun _ => .ite (fun _ => specialColorsLoop_styled _ _ _ _ _ h) fun _ => .ite (fun _ => ?_) fun _ => ?_
  · simp only
    split
    · exact .ok h
    · exact .ok h
  · exact .ite (fun _ => .ite (fun _ => changeColors_styled h) fun _ => resetColorsLoop_styled _ _ h) fun _ =>
      .ite (fun _ => changeColors_styled h) fun _ => .ok h

theorem finishDeviceControl_styled (h : d.Styled) (dcs : JavaString) : (d.finishDeviceControl dcs).Styled := by
  have hanswer : ∀ (parts : List JavaString) (d : Display), d.Styled → (parts.foldl answerTermcap d).Styled := by
    intro parts
    induction parts with
    | nil => exact fun d hd => hd
    | cons part parts ih =>
      intro d hd
      rw [List.foldl_cons]
      apply ih
      unfold answerTermcap
      split_ifs
      · simp only
        split <;> exact hd
      · exact hd
  unfold finishDeviceControl
  split_ifs
  · exact h
  · exact h
  · exact hanswer _ d h
  · exact h

/-! ## Controls -/

theorem appearance_styled (h : d.Styled) {a : Appearance} (ha : (Control.appearance a).Proper) :
    (a.run d).Styled := by
  cases a with
  | setMode internalBit set => exact setDecsetinternalBit_styled h internalBit set
  | sgr code => exact applySgr_styled h code
  | extendedColor code color =>
    simp only [Appearance.run, setExtendedColor]
    split_ifs
    · exact foreColor_styled h ha
    · exact backColor_styled h ha
  | setProtected set =>
    simp only [Appearance.run]
    split_ifs
    · exact setEffect_styled h fun i hi => TextStyle.getLsbD_of_lt (n := 9) (by decide) hi
    · exact clearEffect_styled h _
  | manipulateWindow arg => exact manipulateWindow_styled h arg
  | deviceControl dcs => exact finishDeviceControl_styled h dcs
  | cursorShape arg =>
    simp only [Appearance.run, setCursorShape]
    split_ifs <;> exact h
  | reportStatus arg =>
    simp only [Appearance.run, reportStatus]
    split_ifs <;> exact h
  | bell | useG0 _ | designateG0 _ | designateG1 _ | saveMode _ | insertMode _ | reportExtendedCursor
  | reportPrivateMode _ | deviceAttributes | secondaryDeviceAttributes => exact h

/-- A reset selects and saves the default colours, and clears the saved effects.  The selected effects stay. -/
theorem reset_styled (heffect : IsEffect d.mEffect) (hmain : d.mMainBuffer.AllStyles IsStyle)
    (halt : d.mAltBuffer.AllStyles IsStyle) : Ensures Styled d.reset := by
  have hdefault : IsStyleColor TextStyle.colorIndexForeground := .inr (by decide)
  have hdefault' : IsStyleColor TextStyle.colorIndexBackground := .inr (by decide)
  have hsaved : Pen.Proper ⟨TextStyle.colorIndexForeground, TextStyle.colorIndexBackground, 0⟩ :=
    ⟨hdefault, hdefault', fun i _ => BitVec.getLsbD_zero⟩
  unfold reset setDefaultTabStops
  refine .bind (P := fun d' => d'.mMainBuffer = d.mMainBuffer ∧ d'.mAltBuffer = d.mAltBuffer ∧
    d'.pen = ⟨TextStyle.colorIndexForeground, TextStyle.colorIndexBackground, d.mEffect⟩)
    (.bind_any fun stops => .ok ⟨rfl, rfl, rfl⟩) ?_
  rintro d' ⟨hmain', halt', hpen⟩
  refine .ok ⟨?_, hsaved, hsaved, ?_, ?_⟩
  · change d'.pen.Proper
    rw [hpen]
    exact ⟨hdefault, hdefault', heffect⟩
  · change d'.mMainBuffer.AllStyles IsStyle
    rw [hmain']
    exact hmain
  · change d'.mAltBuffer.AllStyles IsStyle
    rw [halt']
    exact halt

variable [ShortStore]

theorem doDecSetOrReset_styled (h : d.Styled) (setting : Bool) (externalBit : Int) :
    Ensures Styled (d.doDecSetOrReset setting externalBit) := by
  unfold doDecSetOrReset
  extract_lets d₁
  have h₁ : d₁.Styled := by
    simp only [d₁]
    split
    · exact setDecsetinternalBit_styled h _ _
    · exact h
  refine .ite (fun _ => resetPage_styled h₁) fun _ => .ite (fun _ => .ok ?_) fun _ => ?_
  · split_ifs <;> exact h₁
  refine .ite (fun _ => .ok ?_) fun _ => .ite (fun _ => .ok ?_) fun _ => ?_
  · split_ifs <;> exact h₁
  · split_ifs <;> exact h₁
  refine .ite (fun _ => .ok ?_) fun _ => .ite (fun _ => useScreen_styled h₁ setting) fun _ => .ok h₁
  split_ifs
  · exact saveCursor_styled h₁
  · exact restoreCursor_styled h₁

theorem control_styled (h : d.Styled) {c : Control} (hc : c = .backspace ∨ c.Proper) :
    Ensures Styled (c.run d) := by
  cases c with
  | appearance a => exact .ok (appearance_styled h (hc.resolve_left (by simp)))
  | motion m => cases m <;> exact .ok h
  | edit e => exact edit_styled h e
  | emit codePoint => exact emitCodePoint_styled h
  | repeatCharacter n => exact repeatCharacter_styled h
  | backspace => exact backspace_styled h
  | horizontalTab => exact .bind_any fun col => .ok h
  | forwardTab n => exact .bind_any fun col => .ok h
  | backwardTab n => exact .bind_any fun col => .ok h
  | setTabStop set => exact .bind_any fun stops => .ok h
  | clearTabStops => exact .bind_any fun stops => .ok h
  | lineFeed => exact doLinefeed_styled h
  | nextLine =>
    exact doLinefeed_styled (d := d.setCursorCol
      (if d.isDecsetInternalBitSet Decset.originMode then d.mLeftMargin else 0)) h
  | reverseIndex => exact reverseIndex_styled h
  | backIndex => exact backIndex_styled h
  | forwardIndex => exact forwardIndex_styled h
  | saveCursor => exact .ok (saveCursor_styled h)
  | restoreCursor => exact .ok (restoreCursor_styled h)
  | setTopBottomMargins top bottom => exact .ok h
  | setLeftRightMargins left right => exact .ite (fun _ => .ok h) fun _ => .ok (saveCursor_styled h)
  | decSetOrReset setting externalBit => exact doDecSetOrReset_styled h setting externalBit
  | restoreMode externalBit internalBit => exact doDecSetOrReset_styled h _ externalBit
  | clearTranscript =>
    exact .bind (TerminalBuffer.clearTranscript_styles h.main) fun main hmain =>
      .ok ⟨h.pen, h.savedMain, h.savedAlt, hmain, h.alt⟩
  | eraseTranscript =>
    exact .bind (TerminalBuffer.clearTranscript_styles h.main) fun main hmain =>
      .ok ⟨h.pen, h.savedMain, h.savedAlt, hmain, h.alt⟩
  | setTextParameter value textParameter terminator => exact setTextParameter_styled h value textParameter terminator
  | reset => exact reset_styled h.pen.effect h.main h.alt

end Display

/-! ## Runs -/

namespace TerminalEmulator

variable [Platform]

theorem new_styled (columns rows : Int) (transcriptRows : Option Int) :
    Ensures (fun e => e.Styled) (new columns rows transcriptRows) := by
  have hbuffer : ∀ columns totalRows screenRows,
      Ensures (TerminalBuffer.AllStyles IsStyle) (TerminalBuffer.new columns totalRows screenRows) := by
    intro columns totalRows screenRows
    exact TerminalBuffer.new_styles TextStyle.isStyle_zero TextStyle.isStyle_normal
  unfold new
  refine .bind (hbuffer _ _ _) fun main hmain => .bind (hbuffer _ _ _) fun alt halt => .bind_any fun stops => ?_
  refine .bind (Display.reset_styled ?_ hmain halt) fun d hd => .ok hd
  exact fun i _ => BitVec.getLsbD_zero

theorem take_styled {e : TerminalEmulator} (h : e.Styled) (input : TerminalInput) :
    Ensures (fun e' => e'.Styled) (e.take input) := by
  cases input with
  | codePoint b =>
    have hissued : Ensures (fun r => ∀ c ∈ r.2, c = .backspace ∨ c.Proper) (e.toParser.processCodePoint b) := by
      by_cases hb : b = 8
      · rw [hb, Parser.processCodePoint_backspace]
        refine .ok fun c hc => .inl ?_
        rw [List.mem_singleton.mp hc]
      · exact (Parser.processCodePoint_proper _ b hb).mono fun r hr c hc => .inr (hr c hc)
    unfold take processCodePoint Terminal.processCodePoint
    refine .bind (P := fun t : Terminal => t.Styled) ?_ fun t ht => .ok ht
    refine .bind hissued fun r hr => ?_
    exact .bind (.foldlM (Q := Display.Styled) r.2 (fun d c hc hd => Display.control_styled hd (hr c hc)) h)
      fun d hd => .ok hd
  | resize columns rows => exact .bind (Display.resize_styled h) fun d hd => .ok hd

/-- Whatever a new terminal is given, the selected colours and effects are what the style shows that is drawn
with, and the style of every cell on both screens and in the history is made again from its three parts. -/
theorem styles_faithful (columns rows : Int) (transcriptRows : Option Int) (inputs : List TerminalInput) :
    Ensures (fun e =>
      (TextStyle.decodeForeColor e.getStyle = e.mForeColor ∧ TextStyle.decodeBackColor e.getStyle = e.mBackColor ∧
        ∀ i, e.mEffect.getLsbD i = (decide (i < 9) && (TextStyle.decodeEffect e.getStyle).getLsbD i)) ∧
      ∀ b ∈ [e.mMainBuffer, e.mAltBuffer], ∀ r ∈ b.rows, ∀ style ∈ r.mStyle,
        IsStyleColor (TextStyle.decodeForeColor style) ∧ IsStyleColor (TextStyle.decodeBackColor style) ∧
          TextStyle.encode (TextStyle.decodeForeColor style) (TextStyle.decodeBackColor style)
            (TextStyle.decodeEffect style) = style)
      (started columns rows transcriptRows inputs) := by
  have hstyled : Ensures (fun e => e.Styled) (started columns rows transcriptRows inputs) :=
    .bind (new_styled columns rows transcriptRows) fun e he =>
      .foldlM inputs (fun e input _ he => take_styled he input) he
  refine hstyled.mono fun e he => ⟨⟨?_, ?_, fun i => ?_⟩, ?_⟩
  · exact TextStyle.decodeForeColor_encode _ he.pen.foreColor.isColor
  · exact TextStyle.decodeBackColor_encode _ he.pen.backColor.isColor
  · by_cases hi : i < 9
    · rw [decide_eq_true hi, Bool.true_and]
      exact (TextStyle.getLsbD_decodeEffect_encode hi).symm
    · rw [decide_eq_false hi, Bool.false_and]
      exact he.pen.effect i (by omega)
  · intro b hb r hr style hstyle
    simp only [List.mem_cons, List.not_mem_nil, or_false] at hb
    rcases hb with rfl | rfl
    · exact (he.main r hr style hstyle).encode_decode
    · exact (he.alt r hr style hstyle).encode_decode

end TerminalEmulator

end XoDos
