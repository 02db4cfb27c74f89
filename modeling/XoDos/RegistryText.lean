import XoDos.WineRegistryEditor

/-!
# Names and values in the registry

What is escaped is found again, with its closing quote or bracket, and nothing else is: in an
escaped text a quote always follows an odd number of backslashes.
-/

namespace XoDos

namespace WineRegistryEditor

/-! ## Escaping -/

def escapeUnit (c : Nat) : JavaString :=
  if c = 0x5C then [0x5C, 0x5C] else if c = 0x22 then [0x5C, 0x22] else [c]

theorem escape_eq (text : JavaString) : escape text = text.flatMap escapeUnit := by
  rw [escape, replace_single, replace_single, List.flatMap_assoc]
  congr 1
  funext c
  unfold escapeUnit
  split_ifs with h₁ h₂
  · rfl
  · simp [h₂]
  · simp [h₂]

@[simp] theorem escape_nil : escape [] = [] := rfl

@[simp] theorem escape_cons (c : Nat) (text : JavaString) :
    escape (c :: text) = escapeUnit c ++ escape text := by
  simp [escape_eq]

@[simp] theorem escape_append (text rest : JavaString) :
    escape (text ++ rest) = escape text ++ escape rest := by
  simp [escape_eq]

/-- An escaped text does not start with a quote. -/
theorem escape_head (c : Nat) (text rest : JavaString) :
    ¬[0x22] <+: escape (c :: text) ++ rest := by
  rw [escape_cons, escapeUnit]
  split_ifs with h₁ h₂
  · simp
  · simp
  · simpa using Ne.symm h₂

/-- Escaping adds backslashes only. -/
theorem mem_escape {c : Nat} {text : JavaString} (h : c ∈ escape text) : c = 0x5C ∨ c ∈ text := by
  rw [escape_eq, List.mem_flatMap] at h
  obtain ⟨d, hd, hc⟩ := h
  unfold escapeUnit at hc
  split_ifs at hc with h₁ h₂
  · left
    simpa using hc
  · rcases List.mem_pair.mp hc with hc | hc
    · exact .inl hc
    · exact .inr (hc ▸ h₂ ▸ hd)
  · right
    rw [List.mem_singleton.mp hc]
    exact hd

theorem oneLine_escape {text : JavaString} (h : OneLine text) : OneLine (escape text) := by
  intro c hc
  rcases mem_escape hc with hc | hc
  · subst hc
    exact ⟨by decide, by decide⟩
  · exact h c hc

theorem isSurrogate_escapeUnit {c : Nat} (h : isSurrogate c = false) (rest : JavaString)
    (hr : Paired rest) : Paired (escapeUnit c ++ rest) := by
  unfold escapeUnit
  split_ifs
  · exact paired_cons (by decide) (paired_cons (by decide) hr)
  · exact paired_cons (by decide) (paired_cons (by decide) hr)
  · exact paired_cons h hr

theorem escapeUnit_surrogate {c : Nat} (h : isSurrogate c = true) : escapeUnit c = [c] := by
  simp only [isSurrogate, Bool.and_eq_true, decide_eq_true_eq] at h
  rw [escapeUnit, if_neg (by omega), if_neg (by omega)]

theorem paired_escape {text : JavaString} (h : Paired text) : Paired (escape text) := by
  induction text using rewritten.induct with
  | case1 => rfl
  | case2 u =>
    have hu : isSurrogate u = false := unit_fixed (by simpa [Paired, rewritten] using h)
    simpa using isSurrogate_escapeUnit hu [] paired_nil
  | case3 u l tail hpair ih =>
    have htail : Paired tail := by simpa [Paired, rewritten, hpair] using h
    rw [escape_cons, escape_cons, escapeUnit_surrogate (isSurrogate_of_high hpair.1),
      escapeUnit_surrogate hpair.2.1, Paired]
    simp only [List.cons_append, List.nil_append]
    rw [rewritten, if_pos hpair, ih htail]
  | case4 u l tail hpair ih =>
    unfold Paired at h
    rw [rewritten, if_neg hpair, List.cons_eq_cons] at h
    rw [escape_cons]
    exact isSurrogate_escapeUnit (unit_fixed h.1) _ (ih h.2)

/-- A quoted text is read as it was written.  Without its quote a backslash at the end would not
be: `unescape` takes one of the two for the sign before the closing quote, and leaves the other
one alone. -/
theorem unescape_quoted (text : JavaString) :
    unescape (0x22 :: escape text ++ [0x22]) = 0x22 :: text ++ [0x22] := by
  have hrest : unescape (escape text ++ [0x22]) = text ++ [0x22] := by
    unfold unescape
    induction text with
    | nil => rfl
    | cons c text ih =>
      rw [escape_cons, escapeUnit]
      split_ifs with h₁ h₂
      · subst h₁
        cases text with
        | nil => rfl
        | cons d text =>
          simp only [List.cons_append, List.nil_append]
          rw [replace_pair_miss _ (by simp), replace_pair_miss _ fun _ => escape_head d text _,
            replace_pair_hit, ih]
          rfl
      · subst h₂
        simp only [List.cons_append, List.nil_append]
        rw [replace_pair_hit, List.singleton_append, replace_pair_miss _ (by simp), ih]
      · simp only [List.cons_append, List.nil_append]
        rw [replace_pair_miss _ fun h => absurd h h₁, replace_pair_miss _ fun h => absurd h h₁, ih]
  unfold unescape at hrest ⊢
  rw [List.cons_append, replace_pair_miss _ (by simp), replace_pair_miss _ (by simp), hrest]
  rfl

/-! ## Reading an escaped text -/

/-- Escaped units are told apart by their first units. -/
theorem escapeUnit_cancel {c d : Nat} {x y : JavaString}
    (h : escapeUnit c ++ x = escapeUnit d ++ y) : c = d ∧ x = y := by
  unfold escapeUnit at h
  split_ifs at h <;> simp_all

/-- The closing quote ends the text. -/
theorem escape_quote_cancel {a b x y : JavaString}
    (h : escape a ++ 0x22 :: x = escape b ++ 0x22 :: y) : a = b ∧ x = y := by
  induction a generalizing b with
  | nil =>
    cases b with
    | nil => simpa using h
    | cons d b =>
      have hhead := escape_head d b (0x22 :: y)
      rw [← h] at hhead
      exact absurd (by simp) hhead
  | cons c a ih =>
    cases b with
    | nil =>
      have hhead := escape_head c a (0x22 :: x)
      rw [h] at hhead
      exact absurd (by simp) hhead
    | cons d b =>
      rw [escape_cons, escape_cons, List.append_assoc, List.append_assoc] at h
      obtain ⟨hc, hrest⟩ := escapeUnit_cancel h
      obtain ⟨hab, hxy⟩ := ih hrest
      exact ⟨by rw [hc, hab], hxy⟩

theorem escape_injective {a b : JavaString} (h : escape a = escape b) : a = b :=
  (escape_quote_cancel (x := []) (y := []) (by rw [h])).1

/-- The start of the line of a value. -/
def valueText (name : Option JavaString) : JavaString := nameText name ++ [0x3D]

theorem valueText_some (name : JavaString) :
    valueText (some name) = 0x22 :: (escape name ++ [0x22, 0x3D]) := by
  simp [valueText, nameText]

theorem valueText_ne_nil (name : Option JavaString) : valueText name ≠ [] := by
  simp [valueText]

/-- A line is that of one value only. -/
theorem valueText_unique {n m : Option JavaString} {line : JavaString}
    (hn : valueText n <+: line) (hm : valueText m <+: line) : n = m := by
  obtain ⟨x, hx⟩ := hn
  obtain ⟨y, hy⟩ := hm
  rw [← hx] at hy
  cases n with
  | none =>
    cases m with
    | none => rfl
    | some m => simp [valueText, nameText] at hy
  | some n =>
    cases m with
    | none => simp [valueText, nameText] at hy
    | some m =>
      simp only [valueText_some, List.cons_append, List.append_assoc, List.cons_eq_cons,
        true_and] at hy
      rw [(escape_quote_cancel hy).1]

/-- The line of a named value has a name. -/
theorem lineHasName_of_value {name line : JavaString} (h : valueText (some name) <+: line) :
    lineHasName line = true := by
  obtain ⟨x, rfl⟩ := h
  simp [lineHasName, valueText_some]

/-- The line of a string as default value has one if there is an equals sign in the string. -/
theorem lineHasName_default (value : JavaString) :
    lineHasName (valueText none ++ (0x22 :: escape value ++ [0x22])) = true ↔ 0x3D ∈ value := by
  have hmem : 0x3D ∈ escape value ↔ 0x3D ∈ value := by
    constructor
    · intro h
      exact (mem_escape h).resolve_left (by decide)
    · intro h
      rw [escape_eq, List.mem_flatMap]
      exact ⟨0x3D, h, by simp [escapeUnit]⟩
  simp [lineHasName, valueText, nameText, hmem]

/-! ## Paths of keys -/

/-- No bracket in the path of a key but behind a backslash. -/
def closedPath : JavaString → Bool
  | [] => true
  | [c] => decide (c ≠ 0x5D)
  | c :: d :: rest => if c = 0x5C then closedPath rest else decide (c ≠ 0x5D) && closedPath (d :: rest)

theorem closedPath_cons {c : Nat} (h : c ≠ 0x5C) (rest : JavaString) :
    closedPath (c :: rest) = (decide (c ≠ 0x5D) && closedPath rest) := by
  cases rest with
  | nil => simp [closedPath]
  | cons d rest => rw [closedPath, if_neg h]

theorem closedPath_escapeUnit (c : Nat) (rest : JavaString) :
    closedPath (escapeUnit c ++ rest) = (decide (c ≠ 0x5D) && closedPath rest) := by
  unfold escapeUnit
  split_ifs with h₁ h₂
  · simp [closedPath, h₁]
  · simp [closedPath, h₂]
  · exact closedPath_cons h₁ rest

/-- In such a path no bracket ends an escaped text. -/
theorem not_closedPath (text rest : JavaString) : closedPath (escape text ++ 0x5D :: rest) = false := by
  induction text with
  | nil => simp [closedPath_cons]
  | cons c text ih => rw [escape_cons, List.append_assoc, closedPath_escapeUnit, ih, Bool.and_false]

theorem closedPath_escape {key : JavaString} (h : 0x5D ∉ key) : closedPath (escape key) = true := by
  induction key with
  | nil => rfl
  | cons c key ih =>
    rw [List.mem_cons, not_or] at h
    rw [escape_cons, closedPath_escapeUnit, ih h.2]
    simpa using Ne.symm h.1

/-- The line of a section is that of one key only. -/
theorem keyText_iff {path stamp : JavaString} (hpath : closedPath path = true)
    (hstamp : 0x5D ∉ stamp) (key : JavaString) :
    keyText key false <+: 0x5B :: path ++ 0x5D :: stamp ↔ path = escape key := by
  constructor
  · rintro ⟨x, hx⟩
    simp only [keyText, Bool.false_eq_true, if_false, List.cons_append, List.append_assoc,
      List.cons_eq_cons, true_and, List.nil_append] at hx
    rcases List.append_eq_append_iff.mp hx with ⟨as, has, hrest⟩ | ⟨as, has, hrest⟩
    · cases as with
      | nil => simpa using has
      | cons a as =>
        rw [List.cons_append, List.cons_eq_cons] at hrest
        rw [has, ← hrest.1, not_closedPath] at hpath
        cases hpath
    · cases as with
      | nil => simpa using has.symm
      | cons a as =>
        rw [List.cons_append, List.cons_eq_cons] at hrest
        exact absurd (by rw [hrest.2]; simp) hstamp
  · intro h
    subst h
    exact ⟨stamp, by simp [keyText]⟩

/-! ## The parent of a key -/

theorem parentKey_some {key parent : JavaString} (h : parentKey key = some parent) :
    ∃ rest, key = parent ++ 0x5C :: rest ∧ 0x5C ∉ rest := by
  unfold parentKey at h
  split_ifs at h with hmem
  rw [Option.some.injEq] at h
  have hsplit := List.takeWhile_append_dropWhile (p := (· ≠ 0x5C)) (l := key.reverse)
  cases hdrop : key.reverse.dropWhile (· ≠ 0x5C) with
  | nil =>
    have hall := List.dropWhile_eq_nil_iff.mp hdrop 0x5C (List.mem_reverse.mpr hmem)
    simp at hall
  | cons c rest =>
    have hc : c = 0x5C := by
      have := List.head?_dropWhile_not (· ≠ 0x5C) key.reverse
      rw [hdrop] at this
      simpa using this
    rw [hdrop] at h hsplit
    subst h hc
    refine ⟨(key.reverse.takeWhile (· ≠ 0x5C)).reverse, ?_, fun hmem => ?_⟩
    · have := congrArg List.reverse hsplit
      simp only [List.reverse_append, List.reverse_cons, List.reverse_reverse] at this
      exact this.symm.trans (by simp)
    · simpa using List.mem_takeWhile_imp (List.mem_reverse.mp hmem)

/-- The parent is the longest part before a backslash. -/
theorem parentKey_longest {key parent ancestor rest : JavaString} (h : parentKey key = some parent)
    (hkey : key = ancestor ++ 0x5C :: rest) : ancestor <+: parent := by
  obtain ⟨name, hname, hno⟩ := parentKey_some h
  rw [hkey] at hname
  rcases List.append_eq_append_iff.mp hname with ⟨as, has, -⟩ | ⟨as, has, hrest⟩
  · exact ⟨as, has.symm⟩
  · cases as with
    | nil => exact ⟨[], by simpa using has⟩
    | cons a as =>
      rw [List.cons_append, List.cons_eq_cons] at hrest
      exact absurd (by rw [hrest.2]; simp) hno

/-- The line of a key starts like that of its parent. -/
theorem parentText_isPrefix {key parent : JavaString} (h : parentKey key = some parent)
    (keyAsPrefix : Bool) : 0x5B :: escape parent <+: keyText key keyAsPrefix := by
  obtain ⟨rest, rfl, -⟩ := parentKey_some h
  exact ⟨escape (0x5C :: rest) ++ if keyAsPrefix then [] else [0x5D], by simp [keyText]⟩

end WineRegistryEditor

end XoDos
