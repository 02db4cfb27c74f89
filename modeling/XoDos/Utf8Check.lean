import Mathlib.Data.List.TakeWhile
import XoDos.Utf8

/-!
# The check of clipboard text

`lorieCheckUTF8` compares the bytes of a property with the bit patterns of UTF-8.  The property need
not end with a NUL, and the patterns admit more than UTF-8.

A position is an `int`, and reading outside of the property is a fault.
-/

namespace XoDos

namespace LorieClipboard

inductive Fault where
  | outOfBounds
  | overflow
  deriving DecidableEq

/-- `utf[i]`, where `i` is a sum of `int`s. -/
def readInt (utf : List (BitVec 8)) (i : Nat) : Except Fault (BitVec 8) :=
  if i < 2 ^ 31 then
    match utf[i]? with
    | some b => .ok b
    | none => .error .outOfBounds
  else .error .overflow

/-- The loop of `lorieCheckUTF8`. -/
def checkFrom (utf : List (BitVec 8)) (ix : Nat) : Except Fault Bool := do
  let c ← readInt utf ix
  if h : c ≠ 0 ∧ ix < utf.length then
    if c &&& 0x80 ≠ 0 then
      if (← readInt utf (ix + 1)) &&& 0xc0 ≠ 0x80 then return false
      if c &&& 0xe0 = 0xe0 then
        if (← readInt utf (ix + 2)) &&& 0xc0 ≠ 0x80 then return false
        if c &&& 0xf0 = 0xf0 then
          if c &&& 0xf8 ≠ 0xf0 then return false
          if (← readInt utf (ix + 3)) &&& 0xc0 ≠ 0x80 then return false
          checkFrom utf (ix + 4)
        else checkFrom utf (ix + 3)
      else checkFrom utf (ix + 2)
    else checkFrom utf (ix + 1)
  else return true
termination_by utf.length - ix

def lorieCheckUTF8 (utf : List (BitVec 8)) : Except Fault Bool := checkFrom utf 0

/-! ## Patterns -/

/-- A continuation byte. -/
def IsTail (b : BitVec 8) : Prop := 0x80 ≤ b.toNat ∧ b.toNat < 0xC0

instance (b : BitVec 8) : Decidable (IsTail b) := inferInstanceAs (Decidable (_ ∧ _))

/-- Bytes other than NUL, with as many continuation bytes after each other byte as its upper bits say,
before what `P` says.  A continuation byte in front counts as the first byte of two. -/
inductive Sequences (P : List (BitVec 8) → Prop) : List (BitVec 8) → Prop
  | done {l : List (BitVec 8)} : P l → Sequences P l
  | one {a : BitVec 8} {l : List (BitVec 8)} : a ≠ 0 → a.toNat < 0x80 → Sequences P l →
    Sequences P (a :: l)
  | two {a b : BitVec 8} {l : List (BitVec 8)} : 0x80 ≤ a.toNat → a.toNat < 0xE0 → IsTail b →
    Sequences P l → Sequences P (a :: b :: l)
  | three {a b c : BitVec 8} {l : List (BitVec 8)} : 0xE0 ≤ a.toNat → a.toNat < 0xF0 → IsTail b →
    IsTail c → Sequences P l → Sequences P (a :: b :: c :: l)
  | four {a b c d : BitVec 8} {l : List (BitVec 8)} : 0xF0 ≤ a.toNat → a.toNat < 0xF8 → IsTail b →
    IsTail c → IsTail d → Sequences P l → Sequences P (a :: b :: c :: d :: l)

/-- Bytes that have the patterns to the end. -/
def Patterned (bytes : List (BitVec 8)) : Prop := Sequences (· = []) bytes

/-- The end of the bytes, or a sequence that they cut short.  From `0xF8` on no sequence is possible, but
the bytes may end before that matters. -/
inductive CutShort : List (BitVec 8) → Prop
  | nil : CutShort []
  | one {a : BitVec 8} : 0x80 ≤ a.toNat → CutShort [a]
  | two {a b : BitVec 8} : 0xE0 ≤ a.toNat → IsTail b → CutShort [a, b]
  | three {a b c : BitVec 8} : 0xF0 ≤ a.toNat → a.toNat < 0xF8 → IsTail b → IsTail c →
    CutShort [a, b, c]

/-- Bytes that end before a NUL, and before they leave the patterns. -/
def Unfinished (bytes : List (BitVec 8)) : Prop := Sequences CutShort bytes

def WellFormed (bytes : List (BitVec 8)) : Prop :=
  ∃ t : List Nat, (∀ c ∈ t, Utf8.IsScalar c) ∧ bytes.map BitVec.toNat = t.flatMap Utf8.encode

theorem lead_mask (c : BitVec 8) : c &&& 0x80 ≠ 0 ↔ 0x80 ≤ c.toNat := by
  revert c
  decide

theorem tail_mask (c : BitVec 8) : c &&& 0xc0 ≠ 0x80 ↔ ¬IsTail c := by
  revert c
  decide

theorem three_mask (c : BitVec 8) : c &&& 0xe0 = 0xe0 ↔ 0xE0 ≤ c.toNat := by
  revert c
  decide

theorem four_mask (c : BitVec 8) : c &&& 0xf0 = 0xf0 ↔ 0xF0 ≤ c.toNat := by
  revert c
  decide

theorem five_mask (c : BitVec 8) (h : 0xF0 ≤ c.toNat) : c &&& 0xf8 ≠ 0xf0 ↔ 0xF8 ≤ c.toNat := by
  revert c
  decide

/-- UTF-8 has the patterns. -/
theorem WellFormed.patterned {bytes : List (BitVec 8)} (h : WellFormed bytes) (hnul : 0 ∉ bytes) :
    Patterned bytes := by
  obtain ⟨t, ht, hbytes⟩ := h
  induction t generalizing bytes with
  | nil =>
    rw [List.flatMap_nil, List.map_eq_nil_iff] at hbytes
    rw [hbytes]
    exact .done rfl
  | cons c t ih =>
    have hc : c ≤ 0x10FFFF := by
      have hscalar := ht c (by simp)
      unfold Utf8.IsScalar at hscalar
      omega
    have hrest := fun {l : List (BitVec 8)} (h : 0 ∉ l) => ih h fun d hd => ht d (by simp [hd])
    rw [List.flatMap_cons] at hbytes
    unfold Utf8.encode at hbytes
    split_ifs at hbytes
    · rw [List.cons_append, List.nil_append, List.map_eq_cons_iff] at hbytes
      obtain ⟨a, l, rfl, ha, hl⟩ := hbytes
      exact .one (by rintro rfl; simp at hnul) (by omega) (hrest (by simp_all) hl)
    · simp only [List.cons_append, List.nil_append, List.map_eq_cons_iff] at hbytes
      obtain ⟨a, l, rfl, ha, b, l, rfl, hb, hl⟩ := hbytes
      exact .two (by omega) (by omega) ⟨by omega, by omega⟩ (hrest (by simp_all) hl)
    · simp only [List.cons_append, List.nil_append, List.map_eq_cons_iff] at hbytes
      obtain ⟨a, l, rfl, ha, b, l, rfl, hb, d, l, rfl, hd, hl⟩ := hbytes
      exact .three (by omega) (by omega) ⟨by omega, by omega⟩ ⟨by omega, by omega⟩
        (hrest (by simp_all) hl)
    · simp only [List.cons_append, List.nil_append, List.map_eq_cons_iff] at hbytes
      obtain ⟨a, l, rfl, ha, b, l, rfl, hb, d, l, rfl, hd, e, l, rfl, he, hl⟩ := hbytes
      exact .four (by omega) (by omega) ⟨by omega, by omega⟩ ⟨by omega, by omega⟩
        ⟨by omega, by omega⟩ (hrest (by simp_all) hl)

section Sequences

variable {P : List (BitVec 8) → Prop} {a b c d : BitVec 8} {l : List (BitVec 8)}

theorem sequences_one (hP : ¬P (a :: l)) (ha : a ≠ 0) (ha' : a.toNat < 0x80) :
    Sequences P (a :: l) ↔ Sequences P l := by
  constructor
  · intro h
    cases h with
    | done h => exact absurd h hP
    | one _ _ h => exact h
    | two | three | four => omega
  · exact .one ha ha'

theorem sequences_two (hP : ¬P (a :: b :: l)) (ha : 0x80 ≤ a.toNat) (ha' : a.toNat < 0xE0)
    (hb : IsTail b) : Sequences P (a :: b :: l) ↔ Sequences P l := by
  constructor
  · intro h
    cases h with
    | done h => exact absurd h hP
    | two _ _ _ h => exact h
    | one | three | four => omega
  · exact .two ha ha' hb

theorem sequences_three (hP : ¬P (a :: b :: c :: l)) (ha : 0xE0 ≤ a.toNat) (ha' : a.toNat < 0xF0)
    (hb : IsTail b) (hc : IsTail c) : Sequences P (a :: b :: c :: l) ↔ Sequences P l := by
  constructor
  · intro h
    cases h with
    | done h => exact absurd h hP
    | three _ _ _ _ h => exact h
    | one | two | four => omega
  · exact .three ha ha' hb hc

theorem sequences_four (hP : ¬P (a :: b :: c :: d :: l)) (ha : 0xF0 ≤ a.toNat) (ha' : a.toNat < 0xF8)
    (hb : IsTail b) (hc : IsTail c) (hd : IsTail d) :
    Sequences P (a :: b :: c :: d :: l) ↔ Sequences P l := by
  constructor
  · intro h
    cases h with
    | done h => exact absurd h hP
    | four _ _ _ _ _ h => exact h
    | one | two | three => omega
  · exact .four ha ha' hb hc hd

/-- What the bytes are when the loop has ended at them. -/
def Explains (l : List (BitVec 8)) : Except Fault Bool → Prop
  | .ok true => Sequences (fun l => l.head? = some 0) l
  | .ok false => ¬Sequences (fun l => l.head? = some 0) l ∧ ¬Sequences CutShort l
  | .error _ => Sequences CutShort l

/-- A sequence of which all bytes have been read. -/
theorem Explains.sequence {s : List (BitVec 8)} {r : Except Fault Bool} (h : Explains l r)
    (hs : ∀ P : List (BitVec 8) → Prop, ¬P (s ++ l) → (Sequences P (s ++ l) ↔ Sequences P l))
    (hnul : (s ++ l).head? ≠ some 0) (hcut : ¬CutShort (s ++ l)) : Explains (s ++ l) r := by
  have haccepted := hs (fun l => l.head? = some 0) hnul
  have hunfinished := hs CutShort hcut
  rcases r with e | found
  · exact hunfinished.mpr h
  · cases found with
    | true => exact haccepted.mpr h
    | false => exact ⟨fun hl => h.1 (haccepted.mp hl), fun hl => h.2 (hunfinished.mp hl)⟩

/-- Bytes that leave the patterns. -/
theorem explains_false (hs : ∀ P : List (BitVec 8) → Prop, ¬P l → ¬Sequences P l)
    (hnul : l.head? ≠ some 0) (hcut : ¬CutShort l) : Explains l (.ok false) :=
  ⟨hs _ hnul, hs _ hcut⟩

theorem not_sequences_two (hP : ¬P (a :: b :: l)) (ha : 0x80 ≤ a.toNat) (hb : ¬IsTail b) :
    ¬Sequences P (a :: b :: l) := by
  intro h
  cases h with
  | done h => exact hP h
  | one => omega
  | two _ _ h => exact hb h
  | three _ _ h => exact hb h
  | four _ _ h => exact hb h

theorem not_sequences_three (hP : ¬P (a :: b :: c :: l)) (ha : 0xE0 ≤ a.toNat) (hc : ¬IsTail c) :
    ¬Sequences P (a :: b :: c :: l) := by
  intro h
  cases h with
  | done h => exact hP h
  | one | two => omega
  | three _ _ _ h => exact hc h
  | four _ _ _ h => exact hc h

theorem not_sequences_four (hP : ¬P (a :: b :: c :: d :: l)) (ha : 0xF0 ≤ a.toNat) (hd : ¬IsTail d) :
    ¬Sequences P (a :: b :: c :: d :: l) := by
  intro h
  cases h with
  | done h => exact hP h
  | one | two | three => omega
  | four _ _ _ _ h => exact hd h

theorem not_sequences_five (hP : ¬P (a :: l)) (ha : 0xF8 ≤ a.toNat) : ¬Sequences P (a :: l) := by
  intro h
  cases h with
  | done h => exact hP h
  | one | two | three | four => omega

theorem cutShort_lead (h : CutShort (a :: l)) : 0x80 ≤ a.toNat := by
  cases h with
  | one | two | three => omega

theorem cutShort_second (h : CutShort (a :: b :: l)) : 0xE0 ≤ a.toNat ∧ IsTail b := by
  cases h with
  | two ha hb => exact ⟨ha, hb⟩
  | three ha _ hb => exact ⟨by omega, hb⟩

theorem cutShort_third (h : CutShort (a :: b :: c :: l)) :
    0xF0 ≤ a.toNat ∧ a.toNat < 0xF8 ∧ IsTail c := by
  cases h with
  | three ha ha' _ hc => exact ⟨ha, ha', hc⟩

theorem not_cutShort_four : ¬CutShort (a :: b :: c :: d :: l) := nofun

end Sequences

/-! ## The loop -/

section Loop

variable (utf : List (BitVec 8))

/-- The bytes that an `int` can index. -/
def window : List (BitVec 8) := utf.take (2 ^ 31)

/-- A position is read, or there are no bytes from it on. -/
theorem readInt_cases (i : Nat) :
    (∃ b, readInt utf i = .ok b ∧ i < utf.length ∧
      (window utf).drop i = b :: (window utf).drop (i + 1)) ∨
    ∃ e, readInt utf i = .error e ∧ (window utf).drop i = [] := by
  by_cases hi : i < (window utf).length
  · left
    have hlength : i < 2 ^ 31 ∧ i < utf.length := by
      rw [window, List.length_take] at hi
      omega
    refine ⟨(window utf)[i], ?_, hlength.2, List.drop_eq_getElem_cons hi⟩
    have hget : (window utf)[i] = utf.get ⟨i, hlength.2⟩ := List.getElem_take
    rw [readInt, if_pos hlength.1, hget, List.getElem?_eq_getElem hlength.2]
    rfl
  · right
    have hnil : (window utf).drop i = [] := List.drop_eq_nil_of_le (by omega)
    rw [window, List.length_take] at hi
    unfold readInt
    split_ifs with hint
    · have hnone : utf[i]? = none := List.getElem?_eq_none (by omega)
      rw [hnone]
      exact ⟨_, rfl, hnil⟩
    · exact ⟨_, rfl, hnil⟩

theorem head_ne {c : BitVec 8} (hc : c ≠ 0) (l : List (BitVec 8)) : (c :: l).head? ≠ some 0 := by
  simpa using hc

/-- A continuation byte is read after some bytes of a sequence. -/
theorem explains_readTail {i : Nat} {s : List (BitVec 8)} {next : Except Fault Bool} (hcut : CutShort s)
    (hfalse : ∀ b l, ¬IsTail b → Explains (s ++ b :: l) (.ok false))
    (hnext : ∀ b, IsTail b → (window utf).drop i = b :: (window utf).drop (i + 1) →
      Explains (s ++ (window utf).drop i) next) :
    Explains (s ++ (window utf).drop i)
      (readInt utf i >>= fun b => if b &&& 0xc0 ≠ 0x80 then .ok false else next) := by
  obtain ⟨b, hread, -, hdrop⟩ | ⟨e, hread, hdrop⟩ := readInt_cases utf i
  · simp only [hread, bind, Except.bind]
    by_cases htail : IsTail b
    · rw [if_neg (by rw [tail_mask]; exact not_not_intro htail)]
      exact hnext b htail hdrop
    · rw [if_pos ((tail_mask b).mpr htail), hdrop]
      exact hfalse b _ htail
  · simp only [hread, bind, Except.bind]
    rw [hdrop, List.append_nil]
    exact .done hcut

/-- The loop from a position on finds the patterns of the bytes from there on. -/
theorem checkFrom_explains (ix : Nat) : Explains ((window utf).drop ix) (checkFrom utf ix) := by
  -- The check goes on behind each sequence, so the induction is on what is left of the array.
  induction hn : utf.length - ix using Nat.strong_induction_on generalizing ix with
  | _ n ih =>
  have hnext : ∀ k, 0 < k → ix < utf.length →
      Explains ((window utf).drop (ix + k)) (checkFrom utf (ix + k)) :=
    fun k hk hix => ih _ (by omega) (ix + k) rfl
  rw [checkFrom]
  obtain ⟨c, hread, hix, hdrop⟩ | ⟨e, hread, hdrop⟩ := readInt_cases utf ix
  · simp only [hread, bind, Except.bind]
    by_cases hc : c = 0
    · rw [dif_neg (by simp [hc]), hdrop, hc]
      exact .done rfl
    · have hnul := head_ne hc
      rw [dif_pos ⟨hc, hix⟩, hdrop]
      by_cases hlead : 0x80 ≤ c.toNat
      · rw [if_pos ((lead_mask c).mpr hlead)]
        apply explains_readTail utf (s := [c]) (.one hlead)
        · exact fun b l hb => explains_false (fun P hP => not_sequences_two hP hlead hb) (hnul _)
            fun hcut => hb (cutShort_second hcut).2
        intro c₁ h₁ hdrop₁
        by_cases hthree : 0xE0 ≤ c.toNat
        · rw [if_pos ((three_mask c).mpr hthree), hdrop₁]
          apply explains_readTail utf (s := [c, c₁]) (.two hthree h₁)
          · exact fun b l hb => explains_false (fun P hP => not_sequences_three hP hthree hb) (hnul _)
              fun hcut => hb (cutShort_third hcut).2.2
          intro c₂ h₂ hdrop₂
          by_cases hfour : 0xF0 ≤ c.toNat
          · rw [if_pos ((four_mask c).mpr hfour), hdrop₂]
            -- Five and more leading ones begin no sequence.
            by_cases hfive : 0xF8 ≤ c.toNat
            · rw [if_pos ((five_mask c hfour).mpr hfive)]
              apply explains_false (fun P hP => not_sequences_five hP hfive) (hnul _)
              intro hcut
              have hlt := (cutShort_third hcut).2.1
              omega
            · rw [if_neg (by rw [five_mask c hfour]; exact hfive)]
              apply explains_readTail utf (s := [c, c₁, c₂]) (.three hfour (by omega) h₁ h₂)
              · exact fun b l hb => explains_false (fun P hP => not_sequences_four hP hfour hb)
                  (hnul _) not_cutShort_four
              intro c₃ h₃ hdrop₃
              rw [hdrop₃]
              exact (hnext 4 (by omega) hix).sequence (s := [c, c₁, c₂, c₃])
                (fun P hP => sequences_four hP hfour (by omega) h₁ h₂ h₃) (hnul _) not_cutShort_four
          · rw [if_neg (by rw [four_mask]; exact hfour), hdrop₂]
            exact (hnext 3 (by omega) hix).sequence (s := [c, c₁, c₂])
              (fun P hP => sequences_three hP hthree (by omega) h₁ h₂) (hnul _)
              fun hcut => hfour (cutShort_third hcut).1
        · rw [if_neg (by rw [three_mask]; exact hthree), hdrop₁]
          exact (hnext 2 (by omega) hix).sequence (s := [c, c₁])
            (fun P hP => sequences_two hP hlead (by omega) h₁) (hnul _)
            fun hcut => hthree (cutShort_second hcut).1
      · rw [if_neg (by rw [lead_mask]; exact hlead)]
        exact (hnext 1 (by omega) hix).sequence (s := [c])
          (fun P hP => sequences_one hP hc (by omega)) (hnul _) fun hcut => hlead (cutShort_lead hcut)
  · simp only [hread, bind, Except.bind]
    rw [hdrop]
    exact .done .nil

end Loop

section Meets

/-- The bytes up to the first NUL or the end. -/
def text (utf : List (BitVec 8)) : List (BitVec 8) := utf.takeWhile (· ≠ 0)

/-- The check reads no other byte, and tells whether the text is UTF-8. -/
def ChecksUTF8 (utf : List (BitVec 8)) : Prop :=
  ∃ found, lorieCheckUTF8 utf = .ok found ∧ (found = true ↔ WellFormed (text utf))

/-- The bytes have a NUL or leave the patterns, and a text that has the patterns is UTF-8. -/
structure Checkable (utf : List (BitVec 8)) : Prop where
  finished : ¬Unfinished (window utf)
  wellFormed : 0 ∈ window utf → Patterned (text utf) → WellFormed (text utf)

variable {utf l m : List (BitVec 8)}

theorem not_mem_cons {a : BitVec 8} (ha : 0x80 ≤ a.toNat) (h : 0 ∉ l) : 0 ∉ a :: l := by
  apply List.not_mem_cons_of_ne_of_not_mem _ h
  rintro rfl
  exact absurd ha (by decide)

theorem accepted_split (h : Sequences (fun l => l.head? = some 0) l) :
    ∃ pre rest, l = pre ++ 0 :: rest ∧ 0 ∉ pre ∧ Patterned pre := by
  induction h with
  | @done l h =>
    cases l with
    | nil => cases h
    | cons b l =>
      cases h
      exact ⟨[], l, rfl, List.not_mem_nil, .done rfl⟩
  | one ha ha' _ ih =>
    obtain ⟨pre, rest, rfl, hnul, hpre⟩ := ih
    exact ⟨_, rest, rfl, List.not_mem_cons_of_ne_of_not_mem ha.symm hnul, .one ha ha' hpre⟩
  | two ha ha' hb _ ih =>
    obtain ⟨pre, rest, rfl, hnul, hpre⟩ := ih
    exact ⟨_, rest, rfl, not_mem_cons ha (not_mem_cons hb.1 hnul), .two ha ha' hb hpre⟩
  | three ha ha' hb hc _ ih =>
    obtain ⟨pre, rest, rfl, hnul, hpre⟩ := ih
    exact ⟨_, rest, rfl, not_mem_cons (by omega) (not_mem_cons hb.1 (not_mem_cons hc.1 hnul)),
      .three ha ha' hb hc hpre⟩
  | four ha ha' hb hc hd _ ih =>
    obtain ⟨pre, rest, rfl, hnul, hpre⟩ := ih
    exact ⟨_, rest, rfl,
      not_mem_cons (by omega) (not_mem_cons hb.1 (not_mem_cons hc.1 (not_mem_cons hd.1 hnul))),
      .four ha ha' hb hc hd hpre⟩

/-- Whatever follows a text that has the patterns. -/
theorem Patterned.append {P : List (BitVec 8) → Prop} (h : Patterned l) (hm : P m) :
    Sequences P (l ++ m) := by
  induction h with
  | done h =>
    rw [h]
    exact .done hm
  | one ha ha' _ ih => exact .one ha ha' ih
  | two ha ha' hb _ ih => exact .two ha ha' hb ih
  | three ha ha' hb hc _ ih => exact .three ha ha' hb hc ih
  | four ha ha' hb hc hd _ ih => exact .four ha ha' hb hc hd ih

/-- The front of a text that has the patterns. -/
theorem Patterned.front (h : Patterned (l ++ m)) : Unfinished l := by
  -- A front ends between two sequences, or inside the last one that it has begun.
  generalize ht : l ++ m = t at h
  induction h generalizing l with
  | done h =>
    rw [h] at ht
    rw [List.append_eq_nil_iff.mp ht |>.1]
    exact .done .nil
  | one ha ha' _ ih =>
    match l, ht with
    | [], _ => exact .done .nil
    | _ :: _, ht =>
      cases ht
      exact .one ha ha' (ih rfl)
  | two ha ha' hb _ ih =>
    match l, ht with
    | [], _ => exact .done .nil
    | [_], ht =>
      cases ht
      exact .done (.one ha)
    | _ :: _ :: _, ht =>
      cases ht
      exact .two ha ha' hb (ih rfl)
  | three ha ha' hb hc _ ih =>
    match l, ht with
    | [], _ => exact .done .nil
    | [_], ht =>
      cases ht
      exact .done (.one (by omega))
    | [_, _], ht =>
      cases ht
      exact .done (.two ha hb)
    | _ :: _ :: _ :: _, ht =>
      cases ht
      exact .three ha ha' hb hc (ih rfl)
  | four ha ha' hb hc hd _ ih =>
    match l, ht with
    | [], _ => exact .done .nil
    | [_], ht =>
      cases ht
      exact .done (.one (by omega))
    | [_, _], ht =>
      cases ht
      exact .done (.two (by omega) hb)
    | [_, _, _], ht =>
      cases ht
      exact .done (.three ha ha' hb hc)
    | _ :: _ :: _ :: _ :: _, ht =>
      cases ht
      exact .four ha ha' hb hc hd (ih rfl)

/-- A text with a NUL. -/
theorem text_split {pre rest : List (BitVec 8)} (h : window utf = pre ++ 0 :: rest) (hnul : 0 ∉ pre) :
    text utf = pre := by
  have hutf : utf = pre ++ 0 :: (rest ++ utf.drop (2 ^ 31)) := by
    calc utf = window utf ++ utf.drop (2 ^ 31) := (List.take_append_drop _ _).symm
      _ = pre ++ 0 :: (rest ++ utf.drop (2 ^ 31)) := by rw [h, List.append_assoc, List.cons_append]
  rw [text, hutf, List.takeWhile_append_of_pos]
  · simp
  · intro b hb
    apply decide_eq_true
    rintro rfl
    exact hnul hb

/-- A text whose NUL, if any, is too far away. -/
theorem text_window (h : 0 ∉ window utf) : text utf = window utf ++ text (utf.drop (2 ^ 31)) := by
  calc text utf = text (window utf ++ utf.drop (2 ^ 31)) := by rw [window, List.take_append_drop]
    _ = window utf ++ text (utf.drop (2 ^ 31)) := by
      rw [text, List.takeWhile_append_of_pos, text]
      intro b hb
      apply decide_eq_true
      rintro rfl
      exact h hb

theorem not_mem_text (utf : List (BitVec 8)) : 0 ∉ text utf := by
  intro h
  simpa using List.mem_takeWhile_imp h

theorem Unfinished.not_mem (h : Unfinished l) : 0 ∉ l := by
  induction h with
  | done h =>
    cases h with
    | nil => exact List.not_mem_nil
    | one ha => exact not_mem_cons ha List.not_mem_nil
    | two ha hb => exact not_mem_cons (by omega) (not_mem_cons hb.1 List.not_mem_nil)
    | three ha _ hb hc =>
      exact not_mem_cons (by omega) (not_mem_cons hb.1 (not_mem_cons hc.1 List.not_mem_nil))
  | one ha _ _ ih => exact List.not_mem_cons_of_ne_of_not_mem ha.symm ih
  | two ha _ hb _ ih => exact not_mem_cons ha (not_mem_cons hb.1 ih)
  | three ha _ hb hc _ ih =>
    exact not_mem_cons (by omega) (not_mem_cons hb.1 (not_mem_cons hc.1 ih))
  | four ha _ hb hc hd _ ih =>
    exact not_mem_cons (by omega) (not_mem_cons hb.1 (not_mem_cons hc.1 (not_mem_cons hd.1 ih)))

/-- The check reads no byte outside and recognises UTF-8 exactly if the bytes do not end unfinished, and
the patterns do not admit more. -/
theorem checksUTF8_iff (utf : List (BitVec 8)) : ChecksUTF8 utf ↔ Checkable utf := by
  have hexplains := checkFrom_explains utf 0
  rw [List.drop_zero] at hexplains
  unfold ChecksUTF8 lorieCheckUTF8
  generalize checkFrom utf 0 = r at hexplains
  rcases r with e | found
  · apply iff_of_false
    · rintro ⟨found, herror, -⟩
      cases herror
    · exact fun h => h.finished hexplains
  · cases found with
    | true =>
      obtain ⟨pre, rest, hwindow, hnul, hpre⟩ := accepted_split hexplains
      have htext := text_split hwindow hnul
      have hmem : 0 ∈ window utf := by simp [hwindow]
      constructor
      · rintro ⟨found, hfound, hiff⟩
        cases hfound
        exact ⟨fun h => h.not_mem hmem, fun _ _ => hiff.mp rfl⟩
      · intro h
        exact ⟨true, rfl, iff_of_true rfl (h.wellFormed hmem (by rwa [htext]))⟩
    | false =>
      have hpatterned : ¬Patterned (text utf) := by
        intro h
        by_cases hmem : 0 ∈ window utf
        · obtain ⟨pre, rest, hwindow, hnul⟩ := List.eq_append_cons_of_mem hmem
          rw [text_split hwindow hnul] at h
          apply hexplains.1
          rw [hwindow]
          exact h.append rfl
        · rw [text_window hmem] at h
          exact hexplains.2 h.front
      have hwellFormed : ¬WellFormed (text utf) := fun h => hpatterned (h.patterned (not_mem_text utf))
      apply iff_of_true
      · exact ⟨false, rfl, iff_of_false (by decide) hwellFormed⟩
      · exact ⟨hexplains.2, fun _ h => absurd h hpatterned⟩

/-- A continuation byte does not begin a text. -/
theorem WellFormed.head {a : BitVec 8} (h : WellFormed (a :: l)) : ¬IsTail a := by
  obtain ⟨t, -, ht⟩ := h
  cases t with
  | nil => cases ht
  | cons c t =>
    rw [List.map_cons, List.flatMap_cons] at ht
    unfold Utf8.encode at ht
    intro ha
    split_ifs at ht <;> simp only [List.cons_append, List.cons.injEq] at ht <;>
      · have hlow := ha.1
        have hhigh := ha.2
        omega

/-- A letter without a NUL, and two stray continuation bytes. -/
theorem letter_and_stray_bytes : ¬ChecksUTF8 [0x61] ∧ ¬ChecksUTF8 [0x80, 0x80, 0] := by
  constructor
  · rintro ⟨found, hfound, -⟩
    rw [lorieCheckUTF8, checkFrom] at hfound
    have hend : checkFrom [0x61] 1 = .error .outOfBounds := by
      rw [checkFrom]
      rfl
    exact absurd (hend.symm.trans hfound) (by simp)
  · rintro ⟨found, hfound, hiff⟩
    have hend : checkFrom [0x80, 0x80, 0] 2 = .ok true := by
      rw [checkFrom]
      rfl
    rw [lorieCheckUTF8, checkFrom] at hfound
    have htrue : found = true := by simpa using (hend.symm.trans hfound).symm
    exact (hiff.mp htrue).head (by decide)

end Meets

end LorieClipboard

end XoDos
