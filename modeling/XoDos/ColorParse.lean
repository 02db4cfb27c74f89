import XoDos.TerminalColors

/-!
# Colour specifications

`parse` cuts a specification at computed positions and leaves the digits to
`Integer.parseInt`.  It takes what the grammar allows, and besides signs, digits
of other scripts, longer components, and any separators.  A component is scaled
to eight bits with a product of doubles, which is exact enough to come out as the
quotient of the integers.
-/

namespace XoDos.TerminalColors

/-! ## Scaling -/

/-- The factor is a little above the quotient for which it stands. -/
theorem mult_bounds {n : Nat} (h : 1 ≤ n ∧ n ≤ 4) :
    (255 : ℚ) / (16 ^ n - 1) ≤ mult n ∧ mult n ≤ (255 : ℚ) / (16 ^ n - 1) * (1 + 1 / 2 ^ 50) := by
  have hall : ∀ n : Fin 4, (255 : ℚ) / (16 ^ ((n : Nat) + 1) - 1) ≤ mult (n + 1) ∧
      mult (n + 1) ≤ (255 : ℚ) / (16 ^ ((n : Nat) + 1) - 1) * (1 + 1 / 2 ^ 50) := by
    decide +kernel
  obtain ⟨k, rfl⟩ : ∃ k, n = k + 1 := ⟨n - 1, by omega⟩
  exact hall ⟨k, by omega⟩

/-- A factor that is a little above `255 / M` cannot take a multiple of it to the next integer. -/
theorem floor_round_mul {M v : ℤ} {m : ℚ} (hM : 0 < M ∧ M ≤ 65535) (hv : 0 < v ∧ v ≤ M)
    (hlow : (255 : ℚ) / M ≤ m) (hhigh : m ≤ (255 : ℚ) / M * (1 + 1 / 2 ^ 50)) :
    Binary64.toInt (Binary64.round (v * m)) = 255 * v / M := by
  have hMq : (0 : ℚ) < M ∧ (M : ℚ) ≤ 65535 := ⟨by exact_mod_cast hM.1, by exact_mod_cast hM.2⟩
  have hvq : (0 : ℚ) < v ∧ (v : ℚ) ≤ M := ⟨by exact_mod_cast hv.1, by exact_mod_cast hv.2⟩
  obtain ⟨q, hq⟩ : ∃ q, q = 255 * v / M := ⟨_, rfl⟩
  have hdiv := Int.mul_ediv_add_emod (255 * v) M
  have hmod := Int.emod_lt_of_pos (255 * v) hM.1
  have hmod' := Int.emod_nonneg (255 * v) hM.1.ne'
  rw [← hq] at hdiv ⊢
  -- The exact value, which is less than `q + 1` by at least `1 / M`.
  obtain ⟨e, he⟩ : ∃ e : ℚ, e = 255 * v / M := ⟨_, rfl⟩
  have hmul : e * M = 255 * v := by rw [he, div_mul_cancel₀ _ hMq.1.ne']
  have hqe : (q : ℚ) ≤ e := by
    rw [he, le_div_iff₀ hMq.1]
    exact_mod_cast (by linarith : q * M ≤ 255 * v)
  have heq : e + 1 / 65535 ≤ q + 1 := by
    have hnext : (255 * v + 1 : ℚ) ≤ (q + 1) * M := by
      exact_mod_cast (by linarith : 255 * v + 1 ≤ (q + 1) * M)
    have hinv : (1 : ℚ) / 65535 ≤ 1 / M := one_div_le_one_div_of_le hMq.1 hMq.2
    have hsum : e + 1 / M ≤ q + 1 := by
      rw [he, ← add_div, div_le_iff₀ hMq.1]
      exact hnext
    linarith
  have he255 : e ≤ 255 := by
    rw [he, div_le_iff₀ hMq.1]
    linarith [hvq.2]
  have hepos : 0 < e := by
    rw [he]
    exact div_pos (by linarith [hvq.1]) hMq.1
  -- The product, and what is left of it after rounding.
  obtain ⟨x, hx⟩ : ∃ x : ℚ, x = v * m := ⟨_, rfl⟩
  have hex : e ≤ x := by
    have h := mul_le_mul_of_nonneg_left hlow hvq.1.le
    rw [hx, he]
    calc 255 * (v : ℚ) / M = v * (255 / M) := by ring
      _ ≤ v * m := h
  have hxe : x ≤ e * (1 + 1 / 2 ^ 50) := by
    have h := mul_le_mul_of_nonneg_left hhigh hvq.1.le
    rw [hx, he]
    calc (v : ℚ) * m ≤ v * (255 / M * (1 + 1 / 2 ^ 50)) := h
      _ = 255 * v / M * (1 + 1 / 2 ^ 50) := by ring
  have hxpos : 0 < x := hepos.trans_le hex
  have hround := Binary64.round_le hxpos
  have hfloor : (q : ℚ) ≤ Binary64.round x := by
    apply Binary64.le_round hxpos
    · norm_num at hxe ⊢
      linarith
    · exact hqe.trans hex
  have hup : Binary64.round x < q + 1 := by
    norm_num at hround hxe heq ⊢
    linarith
  rw [← hx, Binary64.toInt_eq_floor]
  · exact Int.floor_eq_iff.mpr ⟨hfloor, hup⟩
  · have hqpos : (0 : ℚ) ≤ q := by
      exact_mod_cast hq ▸ Int.ediv_nonneg (by omega) hM.1.le
    linarith
  · norm_num at hround hxe ⊢
    linarith

/-- The product of doubles is truncated to the quotient of the integers. -/
theorem scaleComponent_eq {n : Nat} (hn : 1 ≤ n ∧ n ≤ 4) {v : Nat} (hv : v < 16 ^ n) :
    scaleComponent v n = 255 * v / (16 ^ n - 1) := by
  obtain ⟨hlow, hhigh⟩ := mult_bounds hn
  have hM : 0 < (16 : ℤ) ^ n - 1 ∧ (16 : ℤ) ^ n - 1 ≤ 65535 := by
    obtain ⟨h₁, h₄⟩ := hn
    interval_cases n <;> norm_num
  unfold scaleComponent
  by_cases hzero : v = 0
  · rw [hzero]
    simp [Binary64.toInt]
  · have hvM : (v : ℤ) < 16 ^ n := by exact_mod_cast hv
    have hfloor := @floor_round_mul (16 ^ n - 1) v (mult n) hM (by omega)
    push_cast at hfloor
    exact hfloor hlow hhigh

/-! ## Digits -/

def IsHexDigit (c : Nat) : Prop := (asciiDigit c 16).isSome

/-- The value of a string of hexadecimal digits. -/
def hexValue (s : JavaString) : Nat := s.foldl (fun n c => n * 16 + (asciiDigit c 16).getD 0) 0

/-- A component of a colour: the value of the group as a fraction of the greatest one, rounded to
eight bits. -/
def scaled (group : JavaString) : Int := round ((255 * hexValue group : ℚ) / (16 ^ group.length - 1))

/-- What is dropped to get the integer part is less than a half. -/
def RoundsDown (group : JavaString) : Prop :=
  2 * (255 * (hexValue group : Int) % (16 ^ group.length - 1)) < 16 ^ group.length - 1

instance (group : JavaString) : Decidable (RoundsDown group) := by
  unfold RoundsDown
  infer_instance

/-- `0xff000000 | r << 16 | g << 8 | b` -/
def color (r g b : Int) : BitVec 32 :=
  (0xFF000000 : BitVec 32) ||| BitVec.ofInt 32 r <<< 16 ||| BitVec.ofInt 32 g <<< 8 ||| BitVec.ofInt 32 b

theorem asciiDigit_lt {c d : Nat} (h : asciiDigit c 16 = some d) : d < 16 := by
  unfold asciiDigit at h
  simp only at h
  split_ifs at h <;> cases h <;> omega

theorem isHexDigit_lt {c : Nat} (h : IsHexDigit c) : c < 0x80 := by
  unfold IsHexDigit asciiDigit at h
  simp only at h
  split_ifs at h <;> simp at h <;> omega

variable [Platform]

/-- The digits of a hexadecimal number are read as such. -/
theorem foldlM_hexDigits {s : JavaString} (h : ∀ c ∈ s, IsHexDigit c) (n : Nat) :
    (s.foldlM (fun n c => do
      let d ← Platform.digit c 16
      return n * 16 + d) n : Option Nat) =
      some (s.foldl (fun n c => n * 16 + (asciiDigit c 16).getD 0) n) ∧
    s.foldl (fun n c => n * 16 + (asciiDigit c 16).getD 0) n < (n + 1) * 16 ^ s.length := by
  induction s generalizing n with
  | nil => exact ⟨rfl, by simp⟩
  | cons c s ih =>
    have hc := h c List.mem_cons_self
    obtain ⟨d, hd⟩ := Option.isSome_iff_exists.mp hc
    have hlt := asciiDigit_lt hd
    have hdigit : Platform.digit c 16 = some d := by
      rw [Platform.digit_ascii c 16 (isHexDigit_lt hc), hd]
    obtain ⟨heq, hbound⟩ := ih (fun x hx => h x (List.mem_cons_of_mem c hx)) (n * 16 + d)
    rw [List.foldlM_cons, List.foldl_cons, hdigit, hd, Option.getD_some]
    refine ⟨heq, hbound.trans_le ?_⟩
    rw [List.length_cons, pow_succ, ← mul_assoc, mul_right_comm]
    exact Nat.mul_le_mul_right _ (by omega)

theorem parseInt_hex {s : JavaString} (hlen : 1 ≤ s.length ∧ s.length ≤ 4)
    (h : ∀ c ∈ s, IsHexDigit c) : parseInt s 16 = some (hexValue s : Int) ∧ hexValue s < 16 ^ s.length := by
  obtain ⟨heq, hbound⟩ := foldlM_hexDigits h 0
  rw [zero_add, one_mul] at hbound
  refine ⟨?_, hbound⟩
  have hdigits : parseDigits 16 s = some (hexValue s) := by
    cases s with
    | nil => simp at hlen
    | cons c s => exact heq
  cases s with
  | nil => simp at hlen
  | cons c s =>
    have hc := h c List.mem_cons_self
    have hminus : c ≠ '-'.toNat := fun hc' => absurd (hc' ▸ hc) (by unfold IsHexDigit; decide)
    have hplus : c ≠ '+'.toNat := fun hc' => absurd (hc' ▸ hc) (by unfold IsHexDigit; decide)
    have hsmall : hexValue (c :: s) < 2 ^ 31 := by
      apply hbound.trans_le
      calc 16 ^ (c :: s).length ≤ 16 ^ 4 := Nat.pow_le_pow_right (by omega) hlen.2
        _ ≤ 2 ^ 31 := by norm_num
    rw [parseInt]
    simp only [if_neg hminus, if_neg hplus, hdigits]
    exact if_pos hsmall

/-! ## Rounding -/

omit [Platform] in
theorem round_div {a M : ℤ} (hM : 0 < M) :
    round ((a : ℚ) / M) = if 2 * (a % M) < M then a / M else a / M + 1 := by
  have hMq : (0 : ℚ) < M := by exact_mod_cast hM
  have hdiv := Int.mul_ediv_add_emod a M
  have hmod := Int.emod_lt_of_pos a hM
  have hmod' := Int.emod_nonneg a hM.ne'
  have hcast : (a : ℚ) = M * (a / M : ℤ) + (a % M : ℤ) := by exact_mod_cast hdiv.symm
  have hsplit : (a : ℚ) / M + 1 / 2 = (a / M : ℤ) + (2 * (a % M : ℤ) + M) / (2 * M) := by
    field_simp
    linarith
  have hrest : (0 : ℚ) ≤ (a % M : ℤ) := by exact_mod_cast hmod'
  have hless : ((a % M : ℤ) : ℚ) + 1 ≤ M := by exact_mod_cast hmod
  rw [round_eq, Int.floor_eq_iff, hsplit]
  split_ifs with hcase
  · have hcase' : 2 * ((a % M : ℤ) : ℚ) < M := by exact_mod_cast hcase
    have h₁ : (0 : ℚ) ≤ (2 * (a % M : ℤ) + M) / (2 * M) := by positivity
    have h₂ : (2 * ((a % M : ℤ) : ℚ) + M) / (2 * M) < 1 := by
      rw [div_lt_one (by linarith)]
      linarith
    constructor <;> linarith
  · have hcase' : (M : ℚ) ≤ 2 * ((a % M : ℤ) : ℚ) := by exact_mod_cast not_lt.mp hcase
    have h₁ : (1 : ℚ) ≤ (2 * ((a % M : ℤ) : ℚ) + M) / (2 * M) := by
      rw [one_le_div (by linarith)]
      linarith
    have h₂ : (2 * ((a % M : ℤ) : ℚ) + M) / (2 * M) < 2 := by
      rw [div_lt_iff₀ (by linarith)]
      linarith
    push_cast
    constructor <;> linarith

/-! ## Positions -/

/-- The three groups of digits lie where `parse` looks for them.  It passes over `x` and `y`. -/
structure Cut (c r g b : JavaString) : Prop where
  length_g : g.length = r.length
  length_b : b.length = r.length
  text : c = ascii "#" ++ r ++ g ++ b ∨ ∃ x y, c = ascii "rgb:" ++ r ++ [x] ++ g ++ [y] ++ b

/-- What `parse` makes of three groups. -/
def components (r g b : JavaString) : BitVec 32 :=
  match parseInt r 16, parseInt g 16, parseInt b 16 with
  | some r', some g', some b' =>
    color (scaleComponent r' r.length) (scaleComponent g' r.length) (scaleComponent b' r.length)
  | _, _, _ => 0

theorem parseComponents_eq {c r g b : JavaString} {skipInitial skipBetween : Nat}
    (hlen : c.length = skipInitial + 2 * skipBetween + 3 * r.length)
    (hcut : cutComponents c skipInitial skipBetween r.length = (r, g, b)) :
    parseComponents c skipInitial skipBetween = components r g b := by
  have hchars : (c.length : Int) - skipInitial - 2 * skipBetween = 3 * (r.length : Int) := by omega
  unfold parseComponents
  simp only [hchars, Int.mul_tmod_right, ne_eq, not_true_eq_false, if_false]
  rw [Int.mul_tdiv_cancel_left _ (by decide), Int.toNat_natCast, hcut]
  rfl

omit [Platform] in
theorem cutComponents_append {first r s g s' b : JavaString} (hg : g.length = r.length)
    (hb : b.length = r.length) (hs : s'.length = s.length) :
    cutComponents (first ++ (r ++ (s ++ (g ++ (s' ++ b))))) first.length s.length r.length = (r, g, b) := by
  have hr : (first ++ (r ++ (s ++ (g ++ (s' ++ b))))).drop first.length = r ++ (s ++ (g ++ (s' ++ b))) :=
    List.drop_left
  have hsecond : (first ++ (r ++ (s ++ (g ++ (s' ++ b))))).drop (first.length + r.length + s.length) =
      g ++ (s' ++ b) := by
    rw [← List.drop_drop, ← List.drop_drop, hr, List.drop_left, List.drop_left]
  have hthird : (first ++ (r ++ (s ++ (g ++ (s' ++ b))))).drop
      (first.length + r.length + s.length + r.length + s.length) = b := by
    rw [← List.drop_drop, ← List.drop_drop, hsecond, ← hg, List.drop_left, ← hs, List.drop_left]
  simp only [cutComponents, hr, hsecond, hthird, Prod.mk.injEq]
  refine ⟨List.take_left, ?_, ?_⟩
  · rw [← hg, List.take_left]
  · rw [← hb, List.take_length]

theorem parse_of_cut {c r g b : JavaString} (h : Cut c r g b) : parse c = components r g b := by
  have hg := h.length_g
  have hb := h.length_b
  rcases h.text with htext | ⟨x, y, htext⟩
  · have hc : c = [0x23] ++ (r ++ ([] ++ (g ++ ([] ++ b)))) := by
      rw [htext]
      simp [ascii]
    rw [parse, if_pos (by rw [hc]; rfl)]
    apply parseComponents_eq
    · rw [hc]
      simp only [List.length_append, List.length_nil, List.length_singleton]
      omega
    · rw [hc]
      exact @cutComponents_append [0x23] _ [] _ _ _ hg hb rfl
  · have hc : c = ascii "rgb:" ++ (r ++ ([x] ++ (g ++ ([y] ++ b)))) := by
      rw [htext]
      simp
    have hhead : c.head? ≠ some '#'.toNat := by
      rw [hc, show ascii "rgb:" = 0x72 :: ascii "gb:" from rfl, List.cons_append, List.head?_cons]
      decide
    have hprefix : (ascii "rgb:").isPrefixOf c = true := by
      rw [hc, List.isPrefixOf_iff_prefix]
      exact List.prefix_append _ _
    rw [parse, if_neg hhead, if_pos hprefix]
    apply parseComponents_eq
    · rw [hc]
      simp only [List.length_append, List.length_singleton]
      have : (ascii "rgb:").length = 4 := rfl
      omega
    · rw [hc]
      exact @cutComponents_append (ascii "rgb:") _ [x] _ _ _ hg hb rfl

omit [Platform] in
/-- A text that is long enough for three groups. -/
theorem exists_groups {c : JavaString} {k n : Nat} (h : c.length = 2 * k + 3 * n) :
    ∃ r s g s' b : JavaString, c = r ++ (s ++ (g ++ (s' ++ b))) ∧ r.length = n ∧ g.length = n ∧
      b.length = n ∧ s.length = k ∧ s'.length = k := by
  refine ⟨c.take n, (c.drop n).take k, ((c.drop n).drop k).take n, (((c.drop n).drop k).drop n).take k,
    (((c.drop n).drop k).drop n).drop k, ?_, ?_, ?_, ?_, ?_, ?_⟩
  · rw [List.take_append_drop, List.take_append_drop, List.take_append_drop, List.take_append_drop]
  all_goals simp only [List.length_take, List.length_drop]; omega

/-- Without the positions for three groups, the result is 0. -/
theorem exists_cut {c : JavaString} (h : parse c ≠ 0) : ∃ r g b, Cut c r g b := by
  have hlength {skipInitial skipBetween : Nat}
      (hne : parseComponents c skipInitial skipBetween ≠ 0)
      (hle : skipInitial ≤ c.length) (hbetween : skipBetween ≤ 1) :
      ∃ n, (c.drop skipInitial).length = 2 * skipBetween + 3 * n := by
    have hmod : ((c.length : Int) - skipInitial - 2 * skipBetween).tmod 3 = 0 := by
      by_contra hno
      rw [parseComponents, if_pos hno] at hne
      exact hne rfl
    refine ⟨(((c.length : Int) - skipInitial - 2 * skipBetween) / 3).toNat, ?_⟩
    have hdvd := Int.dvd_of_tmod_eq_zero hmod
    rw [List.length_drop]
    omega
  rw [parse] at h
  split_ifs at h with hhash hrgb
  · obtain ⟨rest, hc⟩ : ∃ rest, c = 0x23 :: rest := by
      cases c with
      | nil => cases hhash
      | cons x rest =>
        rw [List.head?_cons, Option.some.injEq] at hhash
        exact ⟨rest, by rw [hhash]; rfl⟩
    obtain ⟨n, hn⟩ := hlength h (by rw [hc]; simp) (by omega)
    obtain ⟨r, s, g, s', b, heq, hr, hg, hb, hs, hs'⟩ := exists_groups hn
    rw [List.length_eq_zero_iff] at hs hs'
    refine ⟨r, g, b, hg.trans hr.symm, hb.trans hr.symm, .inl ?_⟩
    rw [hc, List.drop_one, List.tail_cons] at heq
    rw [hc, heq, hs, hs']
    simp [ascii]
  · obtain ⟨rest, hc⟩ := List.isPrefixOf_iff_prefix.mp hrgb
    obtain ⟨n, hn⟩ := hlength h (by rw [← hc, List.length_append]; exact Nat.le_add_right _ _) (by omega)
    obtain ⟨r, s, g, s', b, heq, hr, hg, hb, hs, hs'⟩ := exists_groups hn
    obtain ⟨x, hx⟩ := List.length_eq_one_iff.mp hs
    obtain ⟨y, hy⟩ := List.length_eq_one_iff.mp hs'
    refine ⟨r, g, b, hg.trans hr.symm, hb.trans hr.symm, .inr ⟨x, y, ?_⟩⟩
    rw [← hc, show (4 : Nat) = (ascii "rgb:").length from rfl, List.drop_left] at heq
    rw [← hc, heq, hx, hy]
    simp
  · exact absurd rfl h

/-! ## Colours -/

omit [Platform] in
theorem color_ne_zero (r g b : Int) : color r g b ≠ 0 := by
  intro h
  have hbit := congrArg (fun c => c.getLsbD 31) h
  simp [color] at hbit

omit [Platform] in
theorem testBit_byte {n i : Nat} (h : n < 256) (hi : 8 ≤ i) : n.testBit i = false :=
  Nat.testBit_lt_two_pow (h.trans_le (Nat.pow_le_pow_right (show 2 > 0 by decide) hi))

omit [Platform] in
/-- Three bytes side by side. -/
theorem getLsbD_color {r g b : Nat} (hg : g < 256) (hb : b < 256) {i : Nat} (hi : i < 8) :
    (color r g b).getLsbD (16 + i) = r.testBit i ∧ (color r g b).getLsbD (8 + i) = g.testBit i ∧
      (color r g b).getLsbD i = b.testBit i := by
  have halpha : ∀ j < 24, (0xFF000000 : BitVec 32).getLsbD j = false := by decide
  have hcolor (j : Nat) : (color r g b).getLsbD j = ((0xFF000000 : BitVec 32).getLsbD j ||
      (decide (j < 32) && !decide (j < 16) && (decide (j - 16 < 32) && r.testBit (j - 16))) ||
      (decide (j < 32) && !decide (j < 8) && (decide (j - 8 < 32) && g.testBit (j - 8))) ||
      (decide (j < 32) && b.testBit j)) := by
    simp only [color, BitVec.getLsbD_or, BitVec.getLsbD_shiftLeft, BitVec.ofInt_natCast,
      BitVec.getLsbD_ofNat]
  refine ⟨?_, ?_, ?_⟩
  · rw [hcolor, halpha _ (by omega), Nat.add_sub_cancel_left, testBit_byte hg (by omega : 8 ≤ 16 + i - 8),
      testBit_byte hb (by omega : 8 ≤ 16 + i)]
    simp [show 16 + i < 32 by omega, show i < 32 by omega]
  · rw [hcolor, halpha _ (by omega), Nat.add_sub_cancel_left, testBit_byte hb (by omega : 8 ≤ 8 + i)]
    simp [show 8 + i < 32 by omega, show 8 + i < 16 by omega, show i < 32 by omega]
  · rw [hcolor, halpha _ (by omega)]
    simp [show i < 32 by omega, show i < 16 by omega, hi]

omit [Platform] in
theorem eq_of_testBit {n m : Nat} (hn : n < 256) (hm : m < 256)
    (h : ∀ i < 8, n.testBit i = m.testBit i) : n = m := by
  apply Nat.eq_of_testBit_eq
  intro i
  by_cases hi : i < 8
  · exact h i hi
  · rw [testBit_byte hn (by omega), testBit_byte hm (by omega)]

omit [Platform] in
theorem color_inj {r g b r' g' b' : Int} (hr : 0 ≤ r ∧ r < 256) (hg : 0 ≤ g ∧ g < 256)
    (hb : 0 ≤ b ∧ b < 256) (hr' : 0 ≤ r' ∧ r' < 256) (hg' : 0 ≤ g' ∧ g' < 256)
    (hb' : 0 ≤ b' ∧ b' < 256) : color r g b = color r' g' b' ↔ r = r' ∧ g = g' ∧ b = b' := by
  lift r to ℕ using hr.1
  lift g to ℕ using hg.1
  lift b to ℕ using hb.1
  lift r' to ℕ using hr'.1
  lift g' to ℕ using hg'.1
  lift b' to ℕ using hb'.1
  norm_cast at hr hg hb hr' hg' hb'
  constructor
  · intro h
    have hbits {i : Nat} (hi : i < 8) := getLsbD_color (r := r) hg.2 hb.2 hi
    have hbits' {i : Nat} (hi : i < 8) := getLsbD_color (r := r') hg'.2 hb'.2 hi
    rw [h] at hbits
    refine ⟨congrArg _ (eq_of_testBit hr.2 hr'.2 fun i hi => ?_),
      congrArg _ (eq_of_testBit hg.2 hg'.2 fun i hi => ?_),
      congrArg _ (eq_of_testBit hb.2 hb'.2 fun i hi => ?_)⟩
    · exact (hbits hi).1.symm.trans (hbits' hi).1
    · exact (hbits hi).2.1.symm.trans (hbits' hi).2.1
    · exact (hbits hi).2.2.symm.trans (hbits' hi).2.2
  · rintro ⟨hr, hg, hb⟩
    rw [hr, hg, hb]

/-! ## The grammar -/

/-- `#` and three groups of one to four hexadecimal digits, or `rgb:` and such groups separated by
slashes. -/
structure Spelled (c r g b : JavaString) : Prop where
  length : 1 ≤ r.length ∧ r.length ≤ 4
  length_g : g.length = r.length
  length_b : b.length = r.length
  digits : ∀ x ∈ r ++ g ++ b, IsHexDigit x
  text : c = ascii "#" ++ r ++ g ++ b ∨ c = ascii "rgb:" ++ r ++ ascii "/" ++ g ++ ascii "/" ++ b

omit [Platform] in
theorem Spelled.cut {c r g b : JavaString} (h : Spelled c r g b) : Cut c r g b :=
  ⟨h.length_g, h.length_b, h.text.imp_right fun htext => ⟨0x2f, 0x2f, htext⟩⟩

/-- The integer part of the scaled value. -/
def scaledDown (group : JavaString) : Int := 255 * (hexValue group : Int) / (16 ^ group.length - 1)

omit [Platform] in
theorem greatest_pos {group : JavaString} (h : 1 ≤ group.length) : (0 : Int) < 16 ^ group.length - 1 := by
  have h16 : (16 : Int) ^ 1 ≤ 16 ^ group.length := pow_le_pow_right₀ (by decide) h
  omega

omit [Platform] in
theorem scaled_eq {group : JavaString} (h : 1 ≤ group.length) :
    scaled group = if RoundsDown group then scaledDown group else scaledDown group + 1 := by
  have hround := @round_div (255 * (hexValue group : Int)) _ (greatest_pos h)
  push_cast at hround
  rw [scaled, hround]
  rfl

omit [Platform] in
theorem scaledDown_range {group : JavaString} (h : 1 ≤ group.length)
    (hv : hexValue group < 16 ^ group.length) :
    (0 ≤ scaledDown group ∧ scaledDown group < 256) ∧ 0 ≤ scaled group ∧ scaled group < 256 := by
  have hpos := greatest_pos h
  have hvM : (hexValue group : Int) < 16 ^ group.length := by exact_mod_cast hv
  have hle : 255 * (hexValue group : Int) ≤ 255 * (16 ^ group.length - 1) := by omega
  have hdown : scaledDown group ≤ 255 := by
    rw [scaledDown]
    exact Int.ediv_le_of_le_mul hpos hle
  have hnonneg : 0 ≤ scaledDown group := Int.ediv_nonneg (by omega) hpos.le
  have hup : ¬RoundsDown group → scaledDown group + 1 ≤ 255 := by
    intro hno
    by_contra hlarge
    have hdiv := Int.mul_ediv_add_emod (255 * (hexValue group : Int)) (16 ^ group.length - 1)
    have hq : 255 * (hexValue group : Int) / (16 ^ group.length - 1) = 255 := by
      rw [← scaledDown]
      omega
    rw [hq] at hdiv
    apply hno
    rw [RoundsDown]
    omega
  rw [scaled_eq h]
  refine ⟨⟨hnonneg, by omega⟩, ?_⟩
  split_ifs with hcase
  · omega
  · have := hup hcase
    omega

omit [Platform] in
/-- With one or two digits nothing is dropped. -/
theorem roundsDown_of_le_two {group : JavaString} (h : 1 ≤ group.length ∧ group.length ≤ 2) :
    RoundsDown group := by
  unfold RoundsDown
  obtain hone | htwo : group.length = 1 ∨ group.length = 2 := by omega
  · rw [hone]
    omega
  · rw [htwo]
    omega

/-- What `parse` makes of a text of the grammar. -/
theorem parse_of_spelled {c r g b : JavaString} (h : Spelled c r g b) :
    parse c = color (scaledDown r) (scaledDown g) (scaledDown b) ∧
      (parse c = color (scaled r) (scaled g) (scaled b) ↔
        RoundsDown r ∧ RoundsDown g ∧ RoundsDown b) := by
  have hlen := h.length
  have hgroup {s : JavaString} (hs : s.length = r.length) (hdigits : ∀ x ∈ s, IsHexDigit x) :
      (∃ v, parseInt s 16 = some v ∧ scaleComponent v r.length = scaledDown s) ∧
        ((0 ≤ scaledDown s ∧ scaledDown s < 256) ∧ 0 ≤ scaled s ∧ scaled s < 256) ∧
        (scaledDown s = scaled s ↔ RoundsDown s) := by
    obtain ⟨hparse, hv⟩ := parseInt_hex (hs ▸ hlen) hdigits
    refine ⟨⟨_, hparse, ?_⟩, scaledDown_range (by omega) hv, ?_⟩
    · rw [← hs, scaleComponent_eq (hs ▸ hlen) hv, scaledDown]
    · rw [scaled_eq (by omega)]
      split_ifs with hcase
      · exact iff_of_true rfl hcase
      · exact iff_of_false (by omega) hcase
  obtain ⟨⟨vr, hpr, hsr⟩, hr, hir⟩ := hgroup rfl fun x hx => h.digits x (by simp [hx])
  obtain ⟨⟨vg, hpg, hsg⟩, hg, hig⟩ := hgroup h.length_g fun x hx => h.digits x (by simp [hx])
  obtain ⟨⟨vb, hpb, hsb⟩, hb, hib⟩ := hgroup h.length_b fun x hx => h.digits x (by simp [hx])
  have heq : parse c = color (scaledDown r) (scaledDown g) (scaledDown b) := by
    rw [parse_of_cut h.cut, components]
    simp only [hpr, hpg, hpb, hsr, hsg, hsb]
  refine ⟨heq, ?_⟩
  rw [heq, color_inj hr.1 hg.1 hb.1 hr.2 hg.2 hb.2, hir, hig, hib]

/-- Every text of the grammar is a colour, with rounded components and full opacity, and nothing else
is. -/
def ParsesExactly (c : JavaString) : Prop :=
  (∀ r g b, Spelled c r g b → parse c = color (scaled r) (scaled g) (scaled b)) ∧
    ((∀ r g b, ¬Spelled c r g b) → parse c = 0)

/-- `Integer.parseInt` takes what lies where the groups are looked for. -/
def Readable (c : JavaString) : Prop :=
  ∃ r g b, Cut c r g b ∧ (parseInt r 16).isSome ∧ (parseInt g 16).isSome ∧ (parseInt b 16).isSome

theorem parse_ne_zero_iff (c : JavaString) : parse c ≠ 0 ↔ Readable c := by
  have hcut {r g b : JavaString} (h : Cut c r g b) :
      parse c ≠ 0 ↔ (parseInt r 16).isSome ∧ (parseInt g 16).isSome ∧ (parseInt b 16).isSome := by
    rw [parse_of_cut h, components]
    cases parseInt r 16 <;> cases parseInt g 16 <;> cases parseInt b 16 <;> try simp
    exact color_ne_zero _ _ _
  constructor
  · intro h
    obtain ⟨r, g, b, hc⟩ := exists_cut h
    exact ⟨r, g, b, hc, (hcut hc).mp h⟩
  · rintro ⟨r, g, b, hc, hsome⟩
    exact (hcut hc).mpr hsome

/-- Components are truncated, so they are right when less than a half is dropped; and a text outside
the grammar must not be one that `Integer.parseInt` takes all the same. -/
theorem parsesExactly_iff (c : JavaString) :
    ParsesExactly c ↔
      (∀ r g b, Spelled c r g b → RoundsDown r ∧ RoundsDown g ∧ RoundsDown b) ∧
        ((∃ r g b, Spelled c r g b) ∨ ¬Readable c) := by
  apply and_congr
  · apply forall_congr'
    intro r
    apply forall_congr'
    intro g
    apply forall_congr'
    intro b
    exact forall_congr' fun h => (parse_of_spelled h).2
  · rw [← parse_ne_zero_iff, not_not]
    constructor
    · intro h
      by_cases hs : ∃ r g b, Spelled c r g b
      · exact .inl hs
      · exact .inr (h fun r g b hspelled => hs ⟨r, g, b, hspelled⟩)
    · intro h hno
      apply h.resolve_left
      rintro ⟨r, g, b, hspelled⟩
      exact hno r g b hspelled

omit [Platform] in
/-- Signs are no digits. -/
theorem signs_accepted : ¬@ParsesExactly plainPlatform (ascii "#+f+f+f") := by
  intro ⟨_, hnone⟩
  have hzero := hnone fun r g b h => ?_
  · revert hzero
    decide +kernel
  · rcases h.text with htext | htext
    · have hmem : '+'.toNat ∈ r ++ g ++ b := by
        have hrest : ascii "+f+f+f" = r ++ g ++ b := by simpa [ascii] using htext
        rw [← hrest]
        decide
      exact absurd (h.digits _ hmem) (by unfold IsHexDigit; decide)
    · have hhead := congrArg List.head? htext
      simp [ascii] at hhead

end XoDos.TerminalColors
