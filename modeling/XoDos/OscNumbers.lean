import XoDos.Terminal
import Mathlib.Data.List.TakeWhile

/-!
# Numbers of operating system controls

The number of an OSC string and the colour indices of OSC 4 are read digit by digit into an `int`, without a
limit.  A product that overflows to a negative number makes the next digit start a new number.
-/

namespace XoDos

namespace Osc

/-! ## Digits -/

def isDigit (b : Nat) : Bool := '0'.toNat ≤ b ∧ b ≤ '9'.toNat

/-- The number that digits stand for. -/
def number (digits : JavaString) : Nat := digits.foldl (fun n b => n * 10 + (b - 0x30)) 0

/-- One more digit, as both parsers take it. -/
def accumulate (value : Int) (b : Nat) : Int :=
  toInt32 ((if value < 0 then 0 else value * 10) + (b - 0x30))

/-- Digits that are the decimal numeral of a number. -/
def IsNumeral (text : JavaString) : Prop := text ≠ [] ∧ text.all isDigit

instance : DecidablePred IsNumeral := fun text =>
  inferInstanceAs (Decidable (text ≠ [] ∧ text.all isDigit))

/-- The digits behind the last one at which the number so far, which had begun behind such a digit as well, had
the sign bit of an `int`. -/
def lastBlock (block : JavaString) : JavaString → JavaString
  | [] => block
  | b :: digits =>
    if 2 ^ 31 ≤ number block % 2 ^ 32 then lastBlock [b] digits else lastBlock (block ++ [b]) digits

section Digits

variable {digits block : JavaString} {b : Nat}

theorem isDigit_iff : isDigit b = true ↔ '0'.toNat ≤ b ∧ b ≤ '9'.toNat := decide_eq_true_iff

theorem number_concat : number (digits ++ [b]) = number digits * 10 + (b - 0x30) := by
  rw [number, List.foldl_append]
  rfl

theorem number_le (digits rest : JavaString) : number digits ≤ number (digits ++ rest) := by
  induction rest using List.reverseRecOn with
  | nil => rw [List.append_nil]
  | append_singleton rest b ih =>
    rw [← List.append_assoc, number_concat]
    omega

theorem toInt32_neg_iff (n : Nat) : toInt32 n < 0 ↔ 2 ^ 31 ≤ n % 2 ^ 32 := by
  unfold toInt32
  omega

theorem toInt32_index {n : Nat} : (0 ≤ toInt32 n ∧ toInt32 n ≤ 255) ↔ n % 2 ^ 32 ≤ 255 := by
  unfold toInt32
  omega

theorem toInt32_digit (n : Int) (d : Int) : toInt32 (toInt32 n * 10 + d) = toInt32 (n * 10 + d) := by
  unfold toInt32
  omega

theorem lastBlock_cons : lastBlock block (b :: digits) =
    lastBlock (if 2 ^ 31 ≤ number block % 2 ^ 32 then [b] else block ++ [b]) digits := by
  rw [lastBlock]
  by_cases hsign : 2 ^ 31 ≤ number block % 2 ^ 32
  · rw [if_pos hsign, if_pos hsign]
  · rw [if_neg hsign, if_neg hsign]

/-- One digit more of a block, or the first one of the next. -/
theorem accumulate_number (hb : isDigit b = true) :
    accumulate (toInt32 (number block)) b =
      toInt32 (number (if 2 ^ 31 ≤ number block % 2 ^ 32 then [b] else block ++ [b])) := by
  have hdigit : 0x30 ≤ b ∧ b ≤ 0x39 := isDigit_iff.mp hb
  have hcast : ((b - 0x30 : Nat) : Int) = (b : Int) - 0x30 := by omega
  rw [accumulate]
  by_cases hneg : 2 ^ 31 ≤ number block % 2 ^ 32
  · rw [if_pos ((toInt32_neg_iff _).mpr hneg), if_pos hneg]
    have hsingle : number [b] = b - 0x30 := Nat.zero_add _
    rw [hsingle, hcast, zero_add]
  · rw [if_neg (fun h => hneg ((toInt32_neg_iff _).mp h)), if_neg hneg, toInt32_digit, number_concat]
    push_cast
    rw [hcast]

/-- The parsers compute the last block. -/
theorem foldl_accumulate (hdigits : ∀ b ∈ digits, isDigit b = true) :
    digits.foldl accumulate (toInt32 (number block)) = toInt32 (number (lastBlock block digits)) := by
  induction digits generalizing block with
  | nil => rw [List.foldl_nil, lastBlock]
  | cons b digits ih =>
    have hb := hdigits b List.mem_cons_self
    have hrest := fun c hc => hdigits c (List.mem_cons_of_mem b hc)
    rw [List.foldl_cons, accumulate_number hb, ih hrest, lastBlock_cons]

/-- A number that fits is its only block. -/
theorem lastBlock_eq (h : number (block ++ digits) < 2 ^ 31) : lastBlock block digits = block ++ digits := by
  induction digits generalizing block with
  | nil => rw [lastBlock, List.append_nil]
  | cons b digits ih =>
    have hle := number_le block (b :: digits)
    have hsmall : ¬2 ^ 31 ≤ number block % 2 ^ 32 := by
      rw [Nat.mod_eq_of_lt (by omega)]
      omega
    rw [lastBlock, if_neg hsmall, ih, List.append_assoc]
    · rfl
    · rwa [List.append_assoc]

/-- What digits are read as from the start. -/
theorem foldl_accumulate_start (h : IsNumeral digits) :
    digits.foldl accumulate (-1) = toInt32 (number (lastBlock [] digits)) := by
  obtain ⟨hne, hall⟩ := h
  rw [List.all_eq_true] at hall
  rw [← foldl_accumulate hall]
  cases digits with
  | nil => exact absurd rfl hne
  | cons b digits =>
    have hzero : toInt32 (number []) = 0 := by norm_num [toInt32, number]
    have hfirst : accumulate (-1) b = accumulate 0 b := by
      rw [accumulate, accumulate, if_pos (by decide), if_neg (by decide), zero_mul]
    rw [hzero, List.foldl_cons, List.foldl_cons, hfirst]

/-- An `int` is the number exactly when the number fits. -/
theorem foldl_accumulate_eq_iff (h : IsNumeral digits) :
    digits.foldl accumulate (-1) = number digits ↔ number digits < 2 ^ 31 := by
  rw [foldl_accumulate_start h]
  constructor
  · intro heq
    have hrange : toInt32 (number (lastBlock [] digits)) < 2 ^ 31 := by
      unfold toInt32
      omega
    omega
  · intro hfit
    rw [lastBlock_eq (by simpa using hfit), List.nil_append, toInt32]
    omega

end Digits

/-! ## The number of the control -/

/-- The digits that a body begins with. -/
def digitsOf (body : JavaString) : JavaString := body.takeWhile isDigit

/-- What follows them is a semicolon or the end. -/
def EndsNumber (body : JavaString) : Prop :=
  body.dropWhile isDigit = [] ∨ (body.dropWhile isDigit).head? = some ';'.toNat

/-- The number that a string is dispatched on is the one that it begins with, or -1 for none. -/
def DispatchesExactly (p : Parser) : Prop :=
  ∀ terminator p' controls (value : Int) text t, p.doOscSetTextParameters terminator = .ok (p', controls) →
    .setTextParameter value text t ∈ controls →
      if digitsOf p.mOSCOrDeviceControlArgs = [] then value = -1
      else value = number (digitsOf p.mOSCOrDeviceControlArgs) ∧ EndsNumber p.mOSCOrDeviceControlArgs

section Number

theorem oscParameters_eq (body : JavaString) (value : Int) :
    Display.oscParameters body value =
      match body.dropWhile isDigit with
      | [] => some ((digitsOf body).foldl accumulate value, [])
      | b :: rest =>
        if b = ';'.toNat then some ((digitsOf body).foldl accumulate value, rest) else none := by
  induction body generalizing value with
  | nil => rfl
  | cons b body ih =>
    rw [Display.oscParameters]
    by_cases hb : isDigit b = true
    · have hrange := isDigit_iff.mp hb
      have hsemicolon : b ≠ ';'.toNat := by
        rintro rfl
        revert hrange
        decide
      rw [if_neg hsemicolon, if_pos hrange, ih, List.dropWhile_cons_of_pos hb, digitsOf, digitsOf,
        List.takeWhile_cons_of_pos hb]
      rfl
    · have hrange : ¬('0'.toNat ≤ b ∧ b ≤ '9'.toNat) := fun h => hb (isDigit_iff.mpr h)
      rw [if_neg hrange, List.dropWhile_cons_of_neg hb, digitsOf, List.takeWhile_cons_of_neg hb]
      rfl

theorem isNumeral_digitsOf {body : JavaString} (h : digitsOf body ≠ []) : IsNumeral (digitsOf body) :=
  ⟨h, List.all_eq_true.mpr fun _ hb => List.mem_takeWhile_imp hb⟩

/-- What a string issues. -/
theorem doOscSetTextParameters_cases (p : Parser) (terminator : JavaString) :
    (EndsNumber p.mOSCOrDeviceControlArgs ∧ ∃ p' text, p.doOscSetTextParameters terminator =
      .ok (p', [.setTextParameter ((digitsOf p.mOSCOrDeviceControlArgs).foldl accumulate (-1)) text
        terminator])) ∨
    (¬EndsNumber p.mOSCOrDeviceControlArgs ∧ ∃ p', p.doOscSetTextParameters terminator = .ok (p', [])) := by
  rw [Parser.doOscSetTextParameters, oscParameters_eq, EndsNumber]
  cases p.mOSCOrDeviceControlArgs.dropWhile isDigit with
  | nil => exact Or.inl ⟨Or.inl rfl, _, _, rfl⟩
  | cons b rest =>
    by_cases hb : b = ';'.toNat
    · left
      refine ⟨Or.inr (congrArg some hb), p.finishSequence, rest, ?_⟩
      simp only [if_pos hb]
    · right
      refine ⟨?_, p.unknownSequence, ?_⟩
      · simpa using hb
      · simp only [if_neg hb]

/-- The number is exact as long as it fits into an `int`. -/
theorem dispatchesExactly_iff (p : Parser) :
    DispatchesExactly p ↔
      (EndsNumber p.mOSCOrDeviceControlArgs → number (digitsOf p.mOSCOrDeviceControlArgs) < 2 ^ 31) := by
  by_cases hdigits : digitsOf p.mOSCOrDeviceControlArgs = []
  · apply iff_of_true
    · intro terminator p' controls value text t hissued hmem
      rw [if_pos hdigits]
      rcases doOscSetTextParameters_cases p terminator with ⟨-, q, text', hq⟩ | ⟨-, q, hq⟩
      · cases hq.symm.trans hissued
        cases List.mem_singleton.mp hmem
        rw [hdigits]
        rfl
      · cases hq.symm.trans hissued
        cases hmem
    · intro _
      rw [hdigits]
      exact Nat.two_pow_pos 31
  · have hnumeral := isNumeral_digitsOf hdigits
    constructor
    · intro hexact hends
      rcases doOscSetTextParameters_cases p [] with ⟨-, q, text, hq⟩ | ⟨hno, -⟩
      · have hvalue := hexact [] q _ _ text [] hq (List.mem_singleton_self _)
        rw [if_neg hdigits] at hvalue
        exact (foldl_accumulate_eq_iff hnumeral).mp hvalue.1
      · exact absurd hends hno
    · intro hfit terminator p' controls value text t hissued hmem
      rw [if_neg hdigits]
      rcases doOscSetTextParameters_cases p terminator with ⟨hends, q, text', hq⟩ | ⟨-, q, hq⟩
      · cases hq.symm.trans hissued
        cases List.mem_singleton.mp hmem
        exact ⟨(foldl_accumulate_eq_iff hnumeral).mpr (hfit hends), hends⟩
      · cases hq.symm.trans hissued
        cases hmem

end Number

/-! ## Colour indices -/

/-- The colours that the loop of OSC 4 sets, with their specifications. -/
def colorSettings : JavaString → Int → Option JavaString → List (Int × JavaString)
  | [], colorIndex, some spec => if 0 ≤ colorIndex ∧ colorIndex ≤ 255 then [(colorIndex, spec)] else []
  | [], _, none => []
  | b :: rest, colorIndex, some spec =>
    if b = ';'.toNat then
      if 0 ≤ colorIndex ∧ colorIndex ≤ 255 then (colorIndex, spec) :: colorSettings rest (-1) none else []
    else colorSettings rest colorIndex (some (spec ++ [b]))
  | b :: rest, colorIndex, none =>
    if b = ';'.toNat then colorSettings rest colorIndex (some [])
    else if isDigit b then colorSettings rest (accumulate colorIndex b) none
    else []

/-- Two items at a time. -/
def itemPairs : List JavaString → List (JavaString × JavaString)
  | index :: spec :: items => (index, spec) :: itemPairs items
  | _ => []

/-- The pairs of an OSC 4 text. -/
def colorPairs (text : JavaString) : List (JavaString × JavaString) := itemPairs (text.splitOn ';'.toNat)

/-- The numeral of an index of the table. -/
def IsColorIndex (item : JavaString) : Prop := IsNumeral item ∧ number item ≤ 255

instance : DecidablePred IsColorIndex := fun item =>
  inferInstanceAs (Decidable (IsNumeral item ∧ number item ≤ 255))

/-- The pairs up to the first one whose index is not one of the table. -/
def validPairs (pairs : List (JavaString × JavaString)) : List (JavaString × JavaString) :=
  pairs.takeWhile fun pair => IsColorIndex pair.1

/-- The colours that are set are those of these pairs. -/
def SetsExactly (text : JavaString) : Prop :=
  colorSettings text (-1) none = (validPairs (colorPairs text)).map fun pair => ((number pair.1 : Int), pair.2)

/-- A numeral that is too large for the table, but the last block of it is not. -/
def Aliases (item : JavaString) : Prop :=
  IsNumeral item ∧ 255 < number item ∧ number (lastBlock [] item) % 2 ^ 32 ≤ 255

instance : DecidablePred Aliases := fun item =>
  inferInstanceAs (Decidable (IsNumeral item ∧ 255 < number item ∧ number (lastBlock [] item) % 2 ^ 32 ≤ 255))

section Colors

variable {text item rest spec : JavaString} {index : Int}

/-- The settings are what the loop does. -/
theorem setColorsLoop_eq [Platform] (text : JavaString) (index : Int) (spec : Option JavaString) (d : Display) :
    Display.setColorsLoop text index spec d =
      (colorSettings text index spec).foldlM
        (fun d setting => d.changeColors fun c => c.tryParseColor setting.1 setting.2) d := by
  have hrange (n : Int) : (n < 0 ∨ 255 < n) ↔ ¬(0 ≤ n ∧ n ≤ 255) := by omega
  induction text generalizing index spec d with
  | nil =>
    cases spec with
    | none => rfl
    | some spec =>
      rw [Display.setColorsLoop, colorSettings]
      by_cases hin : 0 ≤ index ∧ index ≤ 255
      · rw [if_neg (mt (hrange index).mp (not_not.mpr hin)), if_pos hin, List.foldlM_cons]
        simp only [List.foldlM_nil, bind_pure]
      · rw [if_pos ((hrange index).mpr hin), if_neg hin]
        rfl
  | cons b rest ih =>
    cases spec with
    | none =>
      rw [Display.setColorsLoop, colorSettings]
      by_cases hb : b = ';'.toNat
      · rw [if_pos hb, if_pos hb, ih]
      · rw [if_neg hb, if_neg hb]
        by_cases hdigit : isDigit b = true
        · rw [if_pos (isDigit_iff.mp hdigit), if_pos hdigit, ih]
          rfl
        · rw [if_neg fun h => hdigit (isDigit_iff.mpr h), if_neg hdigit]
          rfl
    | some spec =>
      rw [Display.setColorsLoop, colorSettings]
      by_cases hb : b = ';'.toNat
      · rw [if_pos hb, if_pos hb]
        by_cases hin : 0 ≤ index ∧ index ≤ 255
        · rw [if_neg (mt (hrange index).mp (not_not.mpr hin)), if_pos hin, List.foldlM_cons]
          simp only [ih]
        · rw [if_pos ((hrange index).mpr hin), if_neg hin]
          rfl
      · rw [if_neg hb, if_neg hb, ih]

/-- A specification goes up to the next semicolon. -/
theorem colorSettings_spec (hspec : ';'.toNat ∉ item) (before : JavaString) :
    colorSettings item index (some before) =
      if 0 ≤ index ∧ index ≤ 255 then [(index, before ++ item)] else [] := by
  induction item generalizing before with
  | nil => rw [colorSettings, List.append_nil]
  | cons b item ih =>
    rw [List.mem_cons, not_or] at hspec
    rw [colorSettings, if_neg (Ne.symm hspec.1), ih hspec.2, List.append_assoc]
    rfl

theorem colorSettings_spec_cons (hspec : ';'.toNat ∉ item) (before : JavaString) :
    colorSettings (item ++ ';'.toNat :: rest) index (some before) =
      if 0 ≤ index ∧ index ≤ 255 then (index, before ++ item) :: colorSettings rest (-1) none else [] := by
  induction item generalizing before with
  | nil => rw [List.nil_append, colorSettings, if_pos rfl, List.append_nil]
  | cons b item ih =>
    rw [List.mem_cons, not_or] at hspec
    rw [List.cons_append, colorSettings, if_neg (Ne.symm hspec.1), ih hspec.2, List.append_assoc]
    rfl

/-- Without a semicolon nothing is set. -/
theorem colorSettings_index (hindex : ';'.toNat ∉ item) : colorSettings item index none = [] := by
  induction item generalizing index with
  | nil => rfl
  | cons b item ih =>
    rw [List.mem_cons, not_or] at hindex
    rw [colorSettings, if_neg (Ne.symm hindex.1)]
    split
    · exact ih hindex.2
    · rfl

theorem colorSettings_index_cons (hindex : ';'.toNat ∉ item) :
    colorSettings (item ++ ';'.toNat :: rest) index none =
      if item.all isDigit then colorSettings rest (item.foldl accumulate index) (some []) else [] := by
  induction item generalizing index with
  | nil =>
    rw [List.nil_append, colorSettings, if_pos rfl]
    rfl
  | cons b item ih =>
    rw [List.mem_cons, not_or] at hindex
    rw [List.cons_append, colorSettings, if_neg (Ne.symm hindex.1), List.all_cons]
    by_cases hb : isDigit b = true
    · rw [if_pos hb, ih hindex.2, hb, Bool.true_and]
      rfl
    · rw [if_neg hb, if_neg (by simp [hb])]

/-- The settings, pair by pair. -/
def pairSettings : List (JavaString × JavaString) → List (Int × JavaString)
  | [] => []
  | (item, spec) :: pairs =>
    if item.all isDigit ∧ 0 ≤ item.foldl accumulate (-1) ∧ item.foldl accumulate (-1) ≤ 255 then
      (item.foldl accumulate (-1), spec) :: pairSettings pairs
    else []

theorem exists_items (text : JavaString) :
    (';'.toNat ∉ text ∧ text.splitOn ';'.toNat = [text]) ∨
    ∃ item rest, text = item ++ ';'.toNat :: rest ∧ ';'.toNat ∉ item ∧
      text.splitOn ';'.toNat = item :: rest.splitOn ';'.toNat := by
  by_cases h : ';'.toNat ∈ text
  · obtain ⟨item, rest, rfl, hitem⟩ := List.eq_append_cons_of_mem h
    exact Or.inr ⟨item, rest, rfl, hitem, List.splitOn_append_cons_self_of_not_mem hitem rest⟩
  · exact Or.inl ⟨h, List.splitOn_eq_singleton h⟩

theorem colorSettings_eq (text : JavaString) :
    colorSettings text (-1) none = pairSettings (colorPairs text) := by
  rw [colorPairs]
  rcases exists_items text with ⟨hone, hsplit⟩ | ⟨item, rest, htext, hitem, hsplit⟩
  · rw [hsplit, colorSettings_index hone]
    rfl
  · rw [hsplit, htext, colorSettings_index_cons hitem]
    rcases exists_items rest with ⟨hlast, hrest⟩ | ⟨spec, others, hothers, hspec, hrest⟩
    · rw [hrest, itemPairs, pairSettings, colorSettings_spec hlast, List.nil_append]
      by_cases hall : item.all isDigit = true
      · rw [if_pos hall]
        simp only [hall, true_and]
        rfl
      · rw [if_neg hall, if_neg fun h => hall h.1]
    · have hshorter : others.length < text.length := by
        rw [htext, hothers]
        simp only [List.length_append, List.length_cons]
        omega
      rw [hrest, itemPairs, pairSettings, hothers, colorSettings_spec_cons hspec, List.nil_append,
        colorSettings_eq others, colorPairs]
      by_cases hall : item.all isDigit = true
      · rw [if_pos hall]
        simp only [hall, true_and]
      · rw [if_neg hall, if_neg fun h => hall h.1]
termination_by text.length

/-- An item whose pair is set. -/
theorem settable_iff : (item.all isDigit = true ∧ 0 ≤ item.foldl accumulate (-1) ∧
      item.foldl accumulate (-1) ≤ 255) ↔
    IsNumeral item ∧ number (lastBlock [] item) % 2 ^ 32 ≤ 255 := by
  by_cases hempty : item = []
  · subst hempty
    constructor
    · rintro ⟨-, hneg, -⟩
      exact absurd hneg (by decide)
    · rintro ⟨⟨hne, -⟩, -⟩
      exact absurd rfl hne
  · constructor
    · rintro ⟨hall, hpos, hle⟩
      have hnumeral : IsNumeral item := ⟨hempty, hall⟩
      rw [foldl_accumulate_start hnumeral] at hpos hle
      exact ⟨hnumeral, toInt32_index.mp ⟨hpos, hle⟩⟩
    · rintro ⟨hnumeral, hle⟩
      rw [foldl_accumulate_start hnumeral]
      exact ⟨hnumeral.2, toInt32_index.mpr hle⟩

/-- An index of the table is set as it is. -/
theorem IsColorIndex.settable (h : IsColorIndex item) :
    number (lastBlock [] item) % 2 ^ 32 ≤ 255 ∧ item.foldl accumulate (-1) = number item := by
  have hfit : number item < 2 ^ 31 := by
    have hle := h.2
    omega
  have hblock : lastBlock [] item = item := lastBlock_eq hfit
  constructor
  · rw [hblock, Nat.mod_eq_of_lt (by omega)]
    exact h.2
  · exact (foldl_accumulate_eq_iff h.1).mpr hfit

/-- The settings are those of the valid pairs. -/
def Exact (pairs : List (JavaString × JavaString)) : Prop :=
  pairSettings pairs = (validPairs pairs).map fun pair => ((number pair.1 : Int), pair.2)

/-- No index that is reached is an alias. -/
def NoAlias (pairs : List (JavaString × JavaString)) : Prop :=
  ∀ before pair, before ++ [pair] <+: pairs → (∀ p ∈ before, IsColorIndex p.1) → ¬Aliases pair.1

section Pairs

variable {p : JavaString × JavaString} {pairs : List (JavaString × JavaString)}

theorem validPairs_cons (h : IsColorIndex p.1) : validPairs (p :: pairs) = p :: validPairs pairs :=
  List.takeWhile_cons_of_pos (decide_eq_true h)

theorem validPairs_of_not (h : ¬IsColorIndex p.1) : validPairs (p :: pairs) = [] :=
  List.takeWhile_cons_of_neg (by simpa using h)

theorem exact_cons_iff (h : IsColorIndex p.1) : Exact (p :: pairs) ↔ Exact pairs := by
  have hsettings : pairSettings (p :: pairs) = ((number p.1 : Int), p.2) :: pairSettings pairs := by
    rw [pairSettings, if_pos (settable_iff.mpr ⟨h.1, h.settable.1⟩), h.settable.2]
  rw [Exact, hsettings, validPairs_cons h, List.map_cons, List.cons_inj_right, Exact]

theorem noAlias_cons_iff (h : IsColorIndex p.1) : NoAlias (p :: pairs) ↔ NoAlias pairs := by
  constructor
  · intro hno before pair hbegins hindices
    exact hno (p :: before) pair (List.cons_prefix_cons.mpr ⟨rfl, hbegins⟩)
      (List.forall_mem_cons.mpr ⟨h, hindices⟩)
  · intro hno before pair hbegins hindices
    cases before with
    | nil =>
      obtain ⟨rfl, -⟩ := List.cons_prefix_cons.mp hbegins
      intro halias
      exact absurd h.2 (not_le.mpr halias.2.1)
    | cons q before =>
      obtain ⟨-, hrest⟩ := List.cons_prefix_cons.mp hbegins
      exact hno before pair hrest fun r hr => hindices r (List.mem_cons_of_mem q hr)

/-- The settings are right exactly as long as no alias is reached. -/
theorem exact_iff : Exact pairs ↔ NoAlias pairs := by
  induction pairs with
  | nil =>
    apply iff_of_true
    · rfl
    · intro before pair hbegins
      simp at hbegins
  | cons p pairs ih =>
    by_cases hindex : IsColorIndex p.1
    · rw [exact_cons_iff hindex, noAlias_cons_iff hindex, ih]
    · by_cases hset : IsNumeral p.1 ∧ number (lastBlock [] p.1) % 2 ^ 32 ≤ 255
      · -- The pair is set, with an index that is not its numeral.
        have hlarge : 255 < number p.1 := by
          by_contra hle
          exact hindex ⟨hset.1, not_lt.mp hle⟩
        apply iff_of_false
        · rw [Exact, pairSettings, if_pos (settable_iff.mpr hset), validPairs_of_not hindex]
          intro heq
          cases heq
        · intro hno
          exact hno [] p (List.cons_prefix_cons.mpr ⟨rfl, List.nil_prefix⟩) (by simp)
            ⟨hset.1, hlarge, hset.2⟩
      · -- The loop ends here.
        apply iff_of_true
        · rw [Exact, pairSettings, if_neg fun h => hset (settable_iff.mp h), validPairs_of_not hindex]
          rfl
        · intro before pair hbegins hindices halias
          cases before with
          | nil =>
            obtain ⟨rfl, -⟩ := List.cons_prefix_cons.mp hbegins
            exact hset ⟨halias.1, halias.2.2⟩
          | cons q before =>
            obtain ⟨rfl, -⟩ := List.cons_prefix_cons.mp hbegins
            exact hindex (hindices q List.mem_cons_self)

end Pairs

/-- The number 4294967300 is read as 4. -/
example : colorSettings (ascii "4294967300;#fff") (-1) none = [(4, ascii "#fff")] := by decide +kernel

end Colors

end Osc

end XoDos
