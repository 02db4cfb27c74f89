import XoDos.Java
import XoDos.CommonMark

/-!
# Literal text in Markdown

A string is put between runs of backticks that are longer than any of its own, and spaces keep its backticks
apart from them.  They are added at each end by itself, and Markdown takes them away only in pairs.
-/

namespace XoDos.MarkdownUtils

open CommonMark

/-! ## Counting backticks -/

/-- What `backticksPattern` matches behind the backticks `run`. -/
def backticksMatches (run : JavaString) : JavaString → List JavaString
  | [] => if run = [] then [] else [run]
  | c :: rest =>
    if c = backtick then backticksMatches (c :: run) rest
    else if run = [] then backticksMatches [] rest
    else run :: backticksMatches [] rest

def getMaxConsecutiveBackTicksCount : Option JavaString → Nat
  | none => 0
  | some string =>
    (backticksMatches [] string).foldl
      (fun maxCount found => if maxCount < found.length then found.length else maxCount) 0

section Counting

variable {j k n : Nat} {string rest : JavaString} {found : List JavaString}

/-- The count is not below its value before, nor below any match. -/
theorem le_foldl_count :
    n ≤ found.foldl (fun maxCount m => if maxCount < m.length then m.length else maxCount) n ∧
      ∀ m ∈ found,
        m.length ≤ found.foldl (fun maxCount m => if maxCount < m.length then m.length else maxCount) n := by
  induction found generalizing n with
  | nil => simp
  | cons m found ih =>
    rw [List.foldl_cons]
    have hnext := ih (n := if n < m.length then m.length else n)
    constructor
    · apply le_trans _ hnext.1
      split <;> omega
    · intro m' hm'
      rcases List.mem_cons.mp hm' with rfl | hm'
      · apply le_trans _ hnext.1
        split <;> omega
      · exact hnext.2 m' hm'

/-- Backticks before another unit do not go on behind it. -/
theorem replicate_infix {c : Nat} (hc : c ≠ backtick)
    (h : List.replicate k backtick <:+: List.replicate j backtick ++ c :: rest) :
    k ≤ j ∨ List.replicate k backtick <:+: rest := by
  rcases List.infix_append_iff.mp h with hbefore | hbehind | ⟨left, right, heq, hleft, hright⟩
  · left
    simpa using hbefore.length_le
  · apply (List.infix_cons_iff.mp hbehind).imp_left
    intro hbegins
    have hnil := prefix_eq_nil hc hbegins (by simp)
    have hk : k = 0 := by simpa using hnil
    omega
  · left
    have hnil : right = [] := by
      apply prefix_eq_nil hc hright
      intro t ht
      have hmem : t ∈ List.replicate k backtick := by
        rw [heq]
        exact List.mem_append_right _ ht
      exact (List.mem_replicate.mp hmem).2
    rw [hnil, List.append_nil] at heq
    rw [← heq] at hleft
    simpa using hleft.length_le

/-- Any backticks in a row are within a match. -/
theorem exists_match
    (h : List.replicate k backtick <:+: List.replicate j backtick ++ string) :
    k = 0 ∨ ∃ m ∈ backticksMatches (List.replicate j backtick) string, k ≤ m.length := by
  induction string generalizing j with
  | nil =>
    have hk : k ≤ j := by
      have hlength := h.length_le
      simpa using hlength
    cases j with
    | zero => exact Or.inl (Nat.le_zero.mp hk)
    | succ j =>
      right
      rw [backticksMatches, if_neg (by simp)]
      exact ⟨_, List.mem_singleton_self _, by simpa using hk⟩
  | cons c rest ih =>
    rw [backticksMatches]
    by_cases hc : c = backtick
    · subst hc
      rw [if_pos rfl, ← List.replicate_succ]
      apply ih
      rwa [List.replicate_succ', List.append_assoc]
    · rw [if_neg hc]
      rcases replicate_infix hc h with hk | hrest
      · cases j with
        | zero => exact Or.inl (Nat.le_zero.mp hk)
        | succ j =>
          right
          rw [if_neg (by simp)]
          exact ⟨_, List.mem_cons_self, by simpa using hk⟩
      · apply (ih (j := 0) (by simpa using hrest)).imp_right
        rintro ⟨m, hm, hle⟩
        refine ⟨m, ?_, hle⟩
        split
        · exact hm
        · exact List.mem_cons_of_mem _ hm

/-- The string has no run of more backticks. -/
theorem runsBelow_count (h : getMaxConsecutiveBackTicksCount (some string) < n) : RunsBelow n string := by
  intro k hk
  rcases exists_match (j := 0) (by simpa using hk) with rfl | ⟨m, hm, hle⟩
  · omega
  · exact (hle.trans (le_foldl_count.2 m hm)).trans_lt h

end Counting

/-! ## The code -/

def getMarkdownCodeForString (string : Option JavaString) (codeBlock : Bool) : Option JavaString :=
  match string with
  | none => none
  | some [] => some []
  | some string =>
    let maxConsecutiveBackTicksCount := getMaxConsecutiveBackTicksCount (some string)
    let backticksCountToUse :=
      if codeBlock then maxConsecutiveBackTicksCount + 3 else maxConsecutiveBackTicksCount + 1
    let backticksToUse := List.replicate backticksCountToUse backtick
    if codeBlock then some (backticksToUse ++ ascii "\n" ++ string ++ ascii "\n" ++ backticksToUse)
    else
      let string := if ascii "`" <+: string then ascii " " ++ string else string
      let string := if ascii "`" <:+ string then string ++ ascii " " else string
      some (backticksToUse ++ string ++ backticksToUse)

section Code

variable {n : Nat} {string : JavaString}

/-- The string has backticks at both ends or at none, and Markdown takes no spaces from it. -/
def Balanced (string : JavaString) : Prop :=
  (string.head? = some backtick ↔ string.getLast? = some backtick) ∧
    ¬(string.head? = some space ∧ string.getLast? = some space ∧ ¬string.all (· = space))

instance : DecidablePred Balanced := fun string =>
  inferInstanceAs (Decidable ((string.head? = some backtick ↔ string.getLast? = some backtick) ∧
    ¬(string.head? = some space ∧ string.getLast? = some space ∧ ¬string.all (· = space))))

/-- What stands between the backticks of inline code. -/
def padded (string : JavaString) : JavaString :=
  (if string.head? = some backtick then [space] else []) ++
    (string ++ if string.getLast? = some backtick then [space] else [])

theorem startsWith_backtick : ascii "`" <+: string ↔ string.head? = some backtick := by
  cases string with
  | nil => simp [ascii]
  | cons c rest =>
    simp [ascii, backtick, eq_comm]

theorem endsWith_backtick : ascii "`" <:+ string ↔ string.getLast? = some backtick := by
  rw [← List.reverse_prefix, ← List.head?_reverse, ← startsWith_backtick]
  rfl

theorem inline_eq (hstring : string ≠ []) :
    getMarkdownCodeForString (some string) false =
      some (List.replicate (getMaxConsecutiveBackTicksCount (some string) + 1) backtick ++ (padded string ++
        List.replicate (getMaxConsecutiveBackTicksCount (some string) + 1) backtick)) := by
  have hspace : ascii " " = [space] := rfl
  have hlast : (space :: string).getLast? = string.getLast? := by
    cases string with
    | nil => exact absurd rfl hstring
    | cons c rest => rw [List.getLast?_cons_cons]
  rw [getMarkdownCodeForString.eq_3 _ _ (by simpa using hstring)]
  simp only [startsWith_backtick, endsWith_backtick, hspace, padded]
  by_cases hbegin : string.head? = some backtick
  · by_cases hend : string.getLast? = some backtick
    · simp [hbegin, hend, hlast]
    · simp [hbegin, hend, hlast]
  · by_cases hend : string.getLast? = some backtick
    · simp [hbegin, hend]
    · simp [hbegin, hend]

theorem padded_ne_nil (hstring : string ≠ []) : padded string ≠ [] := by
  rw [padded]
  simp [hstring]

theorem head?_padded (hstring : string ≠ []) : (padded string).head? ≠ some backtick := by
  rw [padded]
  by_cases hbegin : string.head? = some backtick
  · rw [if_pos hbegin]
    simp [space, backtick]
  · rw [if_neg hbegin, List.nil_append, List.head?_append]
    cases string with
    | nil => exact absurd rfl hstring
    | cons c rest => exact hbegin

theorem getLast?_padded (hstring : string ≠ []) : (padded string).getLast? ≠ some backtick := by
  rw [padded]
  by_cases hend : string.getLast? = some backtick
  · rw [if_pos hend, ← List.append_assoc, List.getLast?_append]
    simp [space, backtick]
  · rw [if_neg hend, List.append_nil, List.getLast?_append]
    rw [List.getLast?_eq_some_getLast hstring] at hend ⊢
    exact hend

theorem runsBelow_padded (hn : 0 < n) (h : RunsBelow n string) : RunsBelow n (padded string) := by
  have hother : space ≠ backtick := by decide
  rw [padded]
  by_cases hend : string.getLast? = some backtick
  · rw [if_pos hend]
    split
    · exact (h.concat hn hother).cons hn hother
    · exact h.concat hn hother
  · rw [if_neg hend, List.append_nil]
    split
    · exact h.cons hn hother
    · exact h

/-- The spaces around the string are taken away again exactly when it is balanced. -/
theorem stripSpaces_padded_iff (hstring : string ≠ []) :
    stripSpaces (padded string) = string ↔ Balanced string := by
  have hpos : 0 < string.length := List.length_pos_iff.mpr hstring
  -- A single space is not taken off, as the parser takes one off at both ends or none.
  have hodd : (padded string).length = string.length + 1 → stripSpaces (padded string) ≠ string := by
    intro hlength heq
    have hsame := congrArg List.length heq
    rcases stripSpaces_eq (padded string) with h | h
    · rw [h] at hsame
      omega
    · omega
  by_cases hbegin : string.head? = some backtick
  · by_cases hend : string.getLast? = some backtick
    · have hother : ¬(string.all (· = space)) := by
        intro hall
        have hspace := List.all_eq_true.mp hall _ (List.mem_of_head? hbegin)
        cases hspace
      have hlast : (space :: (string ++ [space])).getLast? = some space := by
        rw [← List.cons_append, List.getLast?_concat]
      rw [padded, if_pos hbegin, if_pos hend, List.singleton_append, stripSpaces,
        if_pos ⟨List.head?_cons, hlast, by simp [hother]⟩, List.tail_cons, List.dropLast_concat]
      simp [Balanced, hbegin, hend, space, backtick]
    · have hlength : (padded string).length = string.length + 1 := by
        rw [padded, if_pos hbegin, if_neg hend, List.append_nil]
        rfl
      simp [Balanced, hodd hlength, hbegin, hend]
  · by_cases hend : string.getLast? = some backtick
    · have hlength : (padded string).length = string.length + 1 := by
        rw [padded, if_neg hbegin, if_pos hend, List.nil_append, List.length_append]
        rfl
      simp [Balanced, hodd hlength, hbegin, hend]
    · have hpadded : padded string = string := by
        rw [padded, if_neg hbegin, if_neg hend, List.nil_append, List.append_nil]
      rw [hpadded]
      constructor
      · intro heq
        refine ⟨by simp [hbegin, hend], ?_⟩
        intro hspaces
        have hsame := congrArg List.length heq
        rw [stripSpaces, if_pos hspaces, List.length_dropLast, List.length_tail] at hsame
        omega
      · intro hbalanced
        rw [stripSpaces, if_neg hbalanced.2]

/-- A code block is read as the string.  Inline code is, exactly when the string is balanced. -/
theorem code_iff (string : JavaString) (hstring : string ≠ []) :
    ((getMarkdownCodeForString (some string) false).bind codeSpan = some (string, []) ↔ Balanced string) ∧
      (getMarkdownCodeForString (some string) true).bind fencedCode = some (string ++ ascii "\n", []) := by
  constructor
  · have hruns : RunsBelow (getMaxConsecutiveBackTicksCount (some string) + 1) string :=
      runsBelow_count (Nat.lt_succ_self _)
    rw [inline_eq hstring, Option.bind_some, codeSpan_between (Nat.succ_pos _)
      (runsBelow_padded (Nat.succ_pos _) hruns) (padded_ne_nil hstring) (head?_padded hstring)
      (getLast?_padded hstring), ← stripSpaces_padded_iff hstring]
    simp
  · have hruns : RunsBelow (getMaxConsecutiveBackTicksCount (some string) + 3) (string ++ [0x0A]) :=
      (runsBelow_count (by omega)).concat (by omega) (by decide)
    have hcode : getMarkdownCodeForString (some string) true =
        some (List.replicate (getMaxConsecutiveBackTicksCount (some string) + 3) backtick ++
          0x0A :: (string ++ [0x0A] ++
            List.replicate (getMaxConsecutiveBackTicksCount (some string) + 3) backtick)) := by
      have hnewline : ascii "\n" = [0x0A] := rfl
      rw [getMarkdownCodeForString.eq_3 _ _ (by simpa using hstring)]
      simp [hnewline]
    rw [hcode, Option.bind_some, fencedCode_between (by omega) (Or.inr List.getLast?_concat) hruns]
    rfl

/-- Backticks within the string, and backticks in front of it that none are behind. -/
theorem code_inner :
    ((getMarkdownCodeForString (some (ascii "a``b")) false).bind codeSpan = some (ascii "a``b", []) ∧
      (getMarkdownCodeForString (some (ascii "a``b")) true).bind fencedCode =
        some (ascii "a``b" ++ ascii "\n", [])) ∧
    (getMarkdownCodeForString (some (ascii "``ab")) false).bind codeSpan ≠ some (ascii "``ab", []) := by
  obtain ⟨hinline, hfenced⟩ := code_iff (ascii "a``b") (by decide)
  obtain ⟨hleading, -⟩ := code_iff (ascii "``ab") (by decide)
  exact ⟨⟨hinline.mpr (by decide), hfenced⟩, fun h => absurd (hleading.mp h) (by decide)⟩

/-- The space before the backtick is left, for there is none at the other end. -/
theorem backtick_not_code :
    ¬∀ string : JavaString, string ≠ [] → 0x0A ∉ string →
      (getMarkdownCodeForString (some string) false).bind codeSpan = some (string, []) := by
  intro h
  have hticks := h (ascii "`a") (by decide) (by decide)
  revert hticks
  decide

end Code

end XoDos.MarkdownUtils
