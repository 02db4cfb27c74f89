import XoDos.TextStyle

/-!
# The bits of a style

Where `TextStyle.encode` puts the bits of colours and effects, and where the
decoders find them.
-/

namespace XoDos.TextStyle

theorem getLsbD_mask9 {i : Nat} (hi : i < 64) : (0b111111111 : BitVec 64).getLsbD i = decide (i < 9) :=
  (by decide : ∀ i : Fin 64, (0b111111111 : BitVec 64).getLsbD i = decide ((i : Nat) < 9)) ⟨i, hi⟩

theorem getLsbD_mask24 {i : Nat} (hi : i < 64) : (0x00ffffff : BitVec 64).getLsbD i = decide (i < 24) :=
  (by decide : ∀ i : Fin 64, (0x00ffffff : BitVec 64).getLsbD i = decide ((i : Nat) < 24)) ⟨i, hi⟩

theorem getLsbD_mask11 {i : Nat} (hi : i < 64) : (0b11111111111 : BitVec 64).getLsbD i = decide (i < 11) :=
  (by decide : ∀ i : Fin 64, (0b11111111111 : BitVec 64).getLsbD i = decide ((i : Nat) < 11)) ⟨i, hi⟩

theorem getLsbD_topByte {i : Nat} (hi : i < 32) : (0xff000000 : BitVec 32).getLsbD i = decide (24 ≤ i) :=
  (by decide : ∀ i : Fin 32, (0xff000000 : BitVec 32).getLsbD i = decide (24 ≤ (i : Nat))) ⟨i, hi⟩

theorem getLsbD_truecolorForeground {i : Nat} (hi : i < 64) :
    attributeTruecolorForeground.getLsbD i = decide (i = 9) :=
  (by decide : ∀ i : Fin 64, attributeTruecolorForeground.getLsbD i = decide ((i : Nat) = 9)) ⟨i, hi⟩

theorem getLsbD_truecolorBackground {i : Nat} (hi : i < 64) :
    attributeTruecolorBackground.getLsbD i = decide (i = 10) :=
  (by decide : ∀ i : Fin 64, attributeTruecolorBackground.getLsbD i = decide ((i : Nat) = 10)) ⟨i, hi⟩

/-- The colour field that starts at bit `shift`. -/
theorem getLsbD_colorField (color : BitVec 32) (mask : BitVec 64) {n shift i : Nat} (hi : i < 64)
    (hn : n ≤ 32) (hmask : ∀ j < 64, mask.getLsbD j = decide (j < n)) :
    ((color.signExtend 64 &&& mask) <<< shift).getLsbD i =
      (decide (shift ≤ i ∧ i < shift + n) && color.getLsbD (i - shift)) := by
  rw [BitVec.getLsbD_shiftLeft, BitVec.getLsbD_and, BitVec.getLsbD_signExtend]
  by_cases hs : shift ≤ i
  · by_cases hlt : i - shift < n
    · rw [hmask _ (by omega), decide_eq_true (p := i - shift < n) hlt, if_pos (by omega)]
      simp [hi, hs, show i < shift + n by omega, show i - shift < 64 by omega]
    · by_cases h64 : i - shift < 64
      · rw [hmask _ h64]
        simp [hs, hlt, show ¬ i < shift + n by omega]
      · omega
  · simp [hs, show i < shift by omega]

/-- The bits of a style. -/
theorem getLsbD_encode (foreColor backColor effect : BitVec 32) {i : Nat} (hi : i < 64) :
    (encode foreColor backColor effect).getLsbD i =
      ((decide (i < 9) && effect.getLsbD i) || (decide (i = 9) && isTruecolor foreColor) ||
        (decide (i = 10) && isTruecolor backColor) ||
        (decide (16 ≤ i ∧ i < 16 + (if isTruecolor backColor then 24 else 9)) &&
          backColor.getLsbD (i - 16)) ||
        (decide (40 ≤ i ∧ i < 40 + (if isTruecolor foreColor then 24 else 9)) &&
          foreColor.getLsbD (i - 40))) := by
  have hmask9 : ∀ j < 64, (0b111111111 : BitVec 64).getLsbD j = decide (j < 9) := fun j hj => getLsbD_mask9 hj
  have hmask24 : ∀ j < 64, (0x00ffffff : BitVec 64).getLsbD j = decide (j < 24) :=
    fun j hj => getLsbD_mask24 hj
  have heffect : ((effect &&& 0b111111111).signExtend 64).getLsbD i =
      (decide (i < 9) && effect.getLsbD i) := by
    have hmask : ∀ j : Fin 32, (0b111111111 : BitVec 32).getLsbD j = decide ((j : Nat) < 9) := by decide
    rw [BitVec.getLsbD_signExtend]
    by_cases h32 : i < 32
    · rw [if_pos h32, BitVec.getLsbD_and, hmask ⟨i, h32⟩, decide_eq_true hi, Bool.true_and,
        Bool.and_comm]
    · rw [if_neg h32, BitVec.msb_eq_getLsbD_last, BitVec.getLsbD_and, hmask ⟨31, by decide⟩]
      simp [show ¬ i < 9 by omega]
  simp only [encode]
  cases isTruecolor foreColor <;> cases isTruecolor backColor <;>
    simp only [Bool.false_eq_true, if_true, if_false, BitVec.getLsbD_or, heffect,
      getLsbD_colorField _ _ hi (by decide) hmask9, getLsbD_colorField _ _ hi (by decide) hmask24,
      getLsbD_truecolorForeground hi, getLsbD_truecolorBackground hi, Bool.and_true, Bool.and_false,
      Bool.or_false, Bool.or_assoc]
  all_goals ac_rfl

/-- A colour as the decoders return it: an index of nine bits, or a 24-bit value under `0xff`. -/
def IsColor (color : BitVec 32) : Prop :=
  isTruecolor color = true ∨ ∀ i, 9 ≤ i → color.getLsbD i = false

theorem isTruecolor_iff {color : BitVec 32} :
    isTruecolor color = true ↔ ∀ i, 24 ≤ i → i < 32 → color.getLsbD i = true := by
  rw [isTruecolor, beq_iff_eq]
  constructor
  · intro h i h₁ h₂
    have hbit := congrArg (fun c => c.getLsbD i) h
    simp only [BitVec.getLsbD_and, getLsbD_topByte h₂, decide_eq_true h₁, Bool.and_true] at hbit
    exact hbit
  · intro h
    apply BitVec.eq_of_getLsbD_eq
    intro i hi
    rw [BitVec.getLsbD_and, getLsbD_topByte hi]
    by_cases h₁ : 24 ≤ i
    · rw [h i h₁ hi, Bool.true_and]
    · rw [decide_eq_false h₁, Bool.and_false]

theorem not_isTruecolor {color : BitVec 32} (h : ∀ i, 9 ≤ i → color.getLsbD i = false) :
    isTruecolor color = false := by
  rw [Bool.eq_false_iff]
  intro ht
  have := isTruecolor_iff.mp ht 24 le_rfl (by decide)
  rw [h 24 (by decide)] at this
  cases this

/-- Both decoders of colours. -/
def decodeColor (style : Style) (flag : BitVec 64) (shift : Nat) : BitVec 32 :=
  if style &&& flag == 0 then ((style >>> shift) &&& 0b111111111).setWidth 32
  else 0xff000000 ||| ((style >>> shift) &&& 0x00ffffff).setWidth 32

theorem and_flag_eq_zero {style flag : BitVec 64} {k : Nat} (hk : k < 64)
    (hflag : ∀ i < 64, flag.getLsbD i = decide (i = k)) :
    (style &&& flag == 0) = !style.getLsbD k := by
  cases hbit : style.getLsbD k with
  | false =>
    rw [Bool.not_false, beq_iff_eq]
    apply BitVec.eq_of_getLsbD_eq
    intro i hi
    rw [BitVec.getLsbD_and, hflag i hi]
    by_cases h : i = k
    · rw [h, hbit]
      simp
    · simp [h]
  | true =>
    rw [Bool.not_true, beq_eq_false_iff_ne]
    intro h
    have h' := congrArg (fun c => c.getLsbD k) h
    simp only [BitVec.getLsbD_and, hbit, hflag k hk] at h'
    simp at h'

theorem getLsbD_decodeColor {style flag : BitVec 64} {k shift i : Nat} (hk : k < 64) (hi : i < 32)
    (hflag : ∀ i < 64, flag.getLsbD i = decide (i = k)) :
    (decodeColor style flag shift).getLsbD i =
      if style.getLsbD k then decide (24 ≤ i) || style.getLsbD (shift + i)
      else decide (i < 9) && style.getLsbD (shift + i) := by
  rw [decodeColor, and_flag_eq_zero hk hflag]
  cases style.getLsbD k with
  | false =>
    rw [Bool.not_false, if_pos rfl, if_neg (by decide), BitVec.getLsbD_setWidth, BitVec.getLsbD_and,
      BitVec.getLsbD_ushiftRight, getLsbD_mask9 (by omega), decide_eq_true hi, Bool.true_and,
      Bool.and_comm]
  | true =>
    rw [Bool.not_true, if_neg (by decide), if_pos rfl, BitVec.getLsbD_or, BitVec.getLsbD_setWidth,
      BitVec.getLsbD_and, BitVec.getLsbD_ushiftRight, getLsbD_mask24 (by omega),
      getLsbD_topByte hi, decide_eq_true hi, Bool.true_and]
    by_cases h : 24 ≤ i
    · simp [h]
    · simp [h, show i < 24 by omega]

theorem decodeForeColor_eq (style : Style) :
    decodeForeColor style = decodeColor style attributeTruecolorForeground 40 := rfl

theorem decodeBackColor_eq (style : Style) :
    decodeBackColor style = decodeColor style attributeTruecolorBackground 16 := rfl

theorem isColor_decodeColor {style flag : BitVec 64} {k shift : Nat} (hk : k < 64)
    (hflag : ∀ i < 64, flag.getLsbD i = decide (i = k)) :
    IsColor (decodeColor style flag shift) ∧
      isTruecolor (decodeColor style flag shift) = style.getLsbD k := by
  cases hbit : style.getLsbD k with
  | false =>
    have hbits : ∀ i, 9 ≤ i → (decodeColor style flag shift).getLsbD i = false := by
      intro i h₉
      by_cases hi : i < 32
      · rw [getLsbD_decodeColor hk hi hflag, hbit, if_neg (by decide),
          decide_eq_false (by omega), Bool.false_and]
      · exact BitVec.getLsbD_of_ge _ _ (by omega)
    exact ⟨.inr hbits, not_isTruecolor hbits⟩
  | true =>
    have htrue : isTruecolor (decodeColor style flag shift) = true := by
      rw [isTruecolor_iff]
      intro i h₁ h₂
      rw [getLsbD_decodeColor hk h₂ hflag, hbit, if_pos rfl, decide_eq_true h₁, Bool.true_or]
    exact ⟨.inl htrue, htrue⟩

/-- A colour comes back from the field in which it was put. -/
theorem decodeColor_of_field {style flag : BitVec 64} {color : BitVec 32} {k shift : Nat}
    (hk : k < 64) (hflag : ∀ i < 64, flag.getLsbD i = decide (i = k)) (h : IsColor color)
    (htrue : style.getLsbD k = isTruecolor color)
    (hfield : ∀ i < 24, style.getLsbD (shift + i) =
      (decide (i < if isTruecolor color then 24 else 9) && color.getLsbD i)) :
    decodeColor style flag shift = color := by
  apply BitVec.eq_of_getLsbD_eq
  intro i hi
  rw [getLsbD_decodeColor hk hi hflag, htrue]
  obtain h | h := h
  · rw [h, if_pos rfl]
    by_cases h₂₄ : 24 ≤ i
    · rw [isTruecolor_iff.mp h i h₂₄ hi, decide_eq_true h₂₄, Bool.true_or]
    · rw [hfield i (by omega), h, if_pos rfl, decide_eq_false h₂₄, decide_eq_true (by omega),
        Bool.false_or, Bool.true_and]
  · rw [not_isTruecolor h, if_neg (by decide)]
    by_cases h₉ : i < 9
    · rw [hfield i (by omega), not_isTruecolor h, if_neg (by decide), decide_eq_true h₉,
        Bool.true_and, Bool.true_and]
    · rw [decide_eq_false h₉, Bool.false_and, h i (by omega)]

section Fields

variable (foreColor backColor effect : BitVec 32)

theorem encode_foreground_flag :
    (encode foreColor backColor effect).getLsbD 9 = isTruecolor foreColor := by
  rw [getLsbD_encode _ _ _ (by decide)]
  simp

theorem encode_background_flag :
    (encode foreColor backColor effect).getLsbD 10 = isTruecolor backColor := by
  rw [getLsbD_encode _ _ _ (by decide)]
  simp

theorem encode_foreground {i : Nat} (hi : i < 24) :
    (encode foreColor backColor effect).getLsbD (40 + i) =
      (decide (i < if isTruecolor foreColor then 24 else 9) && foreColor.getLsbD i) := by
  have hback : ¬ (40 + i < 16 + (if isTruecolor backColor then 24 else 9)) := by
    split_ifs <;> omega
  rw [getLsbD_encode _ _ _ (by omega)]
  simp [show ¬ 40 + i < 9 by omega, show 40 + i ≠ 9 by omega, show 40 + i ≠ 10 by omega, hback]

theorem encode_background {i : Nat} (hi : i < 24) :
    (encode foreColor backColor effect).getLsbD (16 + i) =
      (decide (i < if isTruecolor backColor then 24 else 9) && backColor.getLsbD i) := by
  rw [getLsbD_encode _ _ _ (by omega)]
  simp [show ¬ 16 + i < 9 by omega, show 16 + i ≠ 9 by omega, show 16 + i ≠ 10 by omega,
    show ¬ 40 ≤ 16 + i by omega]

theorem encode_effect {i : Nat} (hi : i < 9) :
    (encode foreColor backColor effect).getLsbD i = effect.getLsbD i := by
  rw [getLsbD_encode _ _ _ (by omega)]
  simp [hi, show i ≠ 9 by omega, show i ≠ 10 by omega, show ¬ 16 ≤ i by omega,
    show ¬ 40 ≤ i by omega]

variable {foreColor backColor}

theorem decodeForeColor_encode (h : IsColor foreColor) :
    decodeForeColor (encode foreColor backColor effect) = foreColor := by
  rw [decodeForeColor_eq]
  exact decodeColor_of_field (by decide) (fun j hj => getLsbD_truecolorForeground hj) h
    (encode_foreground_flag _ _ _) fun i hi => encode_foreground _ _ _ hi

theorem decodeBackColor_encode (h : IsColor backColor) :
    decodeBackColor (encode foreColor backColor effect) = backColor := by
  rw [decodeBackColor_eq]
  exact decodeColor_of_field (by decide) (fun j hj => getLsbD_truecolorBackground hj) h
    (encode_background_flag _ _ _) fun i hi => encode_background _ _ _ hi

end Fields

theorem getLsbD_decodeEffect {style : Style} {i : Nat} (hi : i < 32) :
    (decodeEffect style).getLsbD i = (decide (i < 11) && style.getLsbD i) := by
  rw [decodeEffect, BitVec.getLsbD_setWidth, BitVec.getLsbD_and, getLsbD_mask11 (by omega),
    decide_eq_true hi, Bool.true_and, Bool.and_comm]

/-- A style whose colours were decoded from `style` has the flags of `style`, so that any change to
the nine effect bits is seen by `decodeEffect` as it was made. -/
theorem decodeEffect_encode_decoded (style : Style) (effect : BitVec 32)
    (h : ∀ i, 9 ≤ i → effect.getLsbD i = (decodeEffect style).getLsbD i) :
    decodeEffect (encode (decodeForeColor style) (decodeBackColor style) effect) = effect := by
  have hfore := (@isColor_decodeColor style attributeTruecolorForeground 9 40 (by decide)
    (fun j hj => getLsbD_truecolorForeground hj)).2
  have hback := (@isColor_decodeColor style attributeTruecolorBackground 10 16 (by decide)
    (fun j hj => getLsbD_truecolorBackground hj)).2
  rw [← decodeForeColor_eq] at hfore
  rw [← decodeBackColor_eq] at hback
  apply BitVec.eq_of_getLsbD_eq
  intro i hi
  rw [getLsbD_decodeEffect hi]
  obtain h₉ | rfl | rfl | h₁₁ : i < 9 ∨ i = 9 ∨ i = 10 ∨ 11 ≤ i := by omega
  · rw [encode_effect _ _ _ h₉, decide_eq_true (by omega), Bool.true_and]
  · rw [encode_foreground_flag, hfore, h 9 le_rfl, getLsbD_decodeEffect (by decide)]
  · rw [encode_background_flag, hback, h 10 (by decide), getLsbD_decodeEffect (by decide)]
  · rw [h i (by omega), getLsbD_decodeEffect hi, decide_eq_false (by omega), Bool.false_and,
      Bool.false_and]

end XoDos.TextStyle
