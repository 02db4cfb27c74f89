import Mathlib.Data.List.TakeWhile

/-!
# Code in CommonMark

The two rules for literal text between backticks: code spans within a line, and fenced code of whole lines.
The units are those of UTF-16.
-/

namespace XoDos.CommonMark

def backtick : Nat := 0x60

def space : Nat := 0x20

/-- The length of the run of backticks that a text begins with. -/
def runLength (text : List Nat) : Nat := (text.takeWhile (· = backtick)).length

/-- No run of backticks has `n` of them. -/
def RunsBelow (n : Nat) (text : List Nat) : Prop :=
  ∀ k, List.replicate k backtick <:+: text → k < n

/-! ## Code spans -/

/-- The text before the next run of exactly `n` backticks, and the text behind the run.  `inside` says that
the unit before was a backtick. -/
def closeSpan (n : Nat) : Bool → List Nat → Option (List Nat × List Nat)
  | _, [] => none
  | inside, c :: rest =>
    if c = backtick ∧ inside = false ∧ runLength (c :: rest) = n then some ([], (c :: rest).drop n)
    else (closeSpan n (c = backtick) rest).map fun (content, rest) => (c :: content, rest)

/-- One space is taken from both ends, unless there is nothing else. -/
def stripSpaces (content : List Nat) : List Nat :=
  if content.head? = some space ∧ content.getLast? = some space ∧ ¬content.all (· = space) then
    content.tail.dropLast
  else content

/-- The code span that a line begins with, and what follows it. -/
def codeSpan (text : List Nat) : Option (List Nat × List Nat) :=
  if runLength text = 0 then none
  else (closeSpan (runLength text) false (text.drop (runLength text))).map fun (content, rest) =>
    (stripSpaces content, rest)

/-! ## Fenced code -/

/-- The first line, with what ends it, and the other lines. -/
def splitLine : List Nat → List Nat × List Nat
  | [] => ([], [])
  | c :: rest =>
    if c = 0x0A then ([c], rest)
    else if c = 0x0D then
      if rest.head? = some 0x0A then ([c, 0x0A], rest.tail) else ([c], rest)
    else (c :: (splitLine rest).1, (splitLine rest).2)

/-- A line that may close a fence of `n` backticks: indented by at most three spaces, and nothing behind
the backticks. -/
def closes (n : Nat) (line : List Nat) : Bool :=
  let indent := line.takeWhile (· = space)
  let fence := line.dropWhile (· = space)
  indent.length ≤ 3 ∧ n ≤ runLength fence ∧
    (fence.dropWhile (· = backtick)).all fun c => c = space ∨ c = 0x09 ∨ c = 0x0A ∨ c = 0x0D

/-- The lines before the first one that closes the fence, and the lines behind it.  The end of the text
closes the fence as well. -/
def closeFence (n : Nat) : Nat → List Nat → List Nat × List Nat
  | _, [] => ([], [])
  | 0, _ => ([], [])
  | fuel + 1, text =>
    if closes n (splitLine text).1 then ([], (splitLine text).2)
    else ((splitLine text).1 ++ (closeFence n fuel (splitLine text).2).1,
      (closeFence n fuel (splitLine text).2).2)

/-- The fenced code that a text begins with, and what follows it.  There is no info string. -/
def fencedCode (text : List Nat) : Option (List Nat × List Nat) :=
  let opening := (splitLine text).1
  if 3 ≤ runLength opening ∧ (opening.drop (runLength opening)).all fun c => c = space ∨ c = 0x0A then
    some (closeFence (runLength opening) text.length (splitLine text).2)
  else none

/-! ## Runs -/

section Runs

variable {n k : Nat} {text line rest : List Nat}

theorem runLength_replicate_append (h : rest.head? ≠ some backtick) :
    runLength (List.replicate k backtick ++ rest) = k := by
  have hrest : rest.takeWhile (· = backtick) = [] := by
    cases rest with
    | nil => rfl
    | cons c rest =>
      rw [List.takeWhile_cons_of_neg]
      simpa using h
  rw [runLength, List.takeWhile_append_of_pos (by simp), hrest, List.append_nil, List.length_replicate]

theorem runLength_replicate : runLength (List.replicate k backtick) = k := by
  have h := @runLength_replicate_append k [] (by simp)
  rwa [List.append_nil] at h

theorem takeWhile_backtick : text.takeWhile (· = backtick) = List.replicate (runLength text) backtick := by
  rw [List.eq_replicate_iff]
  apply And.intro rfl
  intro c hc
  simpa using List.mem_takeWhile_imp hc

theorem RunsBelow.runLength_lt (h : RunsBelow n text) : runLength text < n := by
  apply h
  rw [← takeWhile_backtick]
  exact (List.takeWhile_prefix _).isInfix

theorem RunsBelow.within (h : RunsBelow n text) (hline : line <:+: text) : RunsBelow n line :=
  fun k hk => h k (hk.trans hline)

/-- Backticks do not begin at another unit. -/
theorem prefix_eq_nil {c : Nat} (hc : c ≠ backtick) {ticks : List Nat} (h : ticks <+: c :: text)
    (hticks : ∀ t ∈ ticks, t = backtick) : ticks = [] := by
  cases ticks with
  | nil => rfl
  | cons t ticks =>
    have ht := (List.cons_prefix_cons.mp h).1
    exact absurd (ht ▸ hticks t List.mem_cons_self) hc

theorem RunsBelow.cons {c : Nat} (hn : 0 < n) (h : RunsBelow n text) (hc : c ≠ backtick) :
    RunsBelow n (c :: text) := by
  intro k hk
  rcases List.infix_cons_iff.mp hk with hbegins | hinfix
  · have hnil := prefix_eq_nil hc hbegins fun t ht => (List.mem_replicate.mp ht).2
    have hzero : k = 0 := by simpa using hnil
    omega
  · exact h k hinfix

theorem RunsBelow.reverse (h : RunsBelow n text) : RunsBelow n text.reverse := by
  intro k hk
  apply h
  rwa [← List.reverse_infix, List.reverse_replicate]

theorem RunsBelow.concat {c : Nat} (hn : 0 < n) (h : RunsBelow n text) (hc : c ≠ backtick) :
    RunsBelow n (text ++ [c]) := by
  have hcons := (h.reverse.cons hn hc).reverse
  rwa [List.reverse_cons, List.reverse_reverse] at hcons

/-- A text that does not end with a backtick keeps its first run. -/
theorem runLength_append (htext : text ≠ []) (hlast : text.getLast? ≠ some backtick) :
    runLength (text ++ rest) = runLength text := by
  have hother : (text.takeWhile (· = backtick)).length ≠ text.length := by
    intro hlength
    apply hlast
    have hsame := (List.takeWhile_prefix (· = backtick)).eq_of_length hlength
    rw [List.getLast?_eq_some_getLast htext]
    have hmem : text.getLast htext ∈ text.takeWhile (· = backtick) := by
      rw [hsame]
      exact List.getLast_mem htext
    simpa using List.mem_takeWhile_imp hmem
  rw [runLength, List.takeWhile_append, if_neg hother, runLength]

theorem stripSpaces_eq (content : List Nat) :
    stripSpaces content = content ∨ (stripSpaces content).length = content.length - 2 := by
  rw [stripSpaces]
  split
  · right
    simp
    omega
  · exact Or.inl rfl

/-- The span goes on to the run of its length. -/
theorem closeSpan_append {inside : Bool} (hn : 0 < n) (hruns : RunsBelow n text)
    (hlast : text.getLast? ≠ some backtick) (hinside : text = [] → inside = false) :
    closeSpan n inside (text ++ List.replicate n backtick) = some (text, []) := by
  induction text generalizing inside with
  | nil =>
    obtain ⟨m, rfl⟩ : ∃ m, n = m + 1 := ⟨n - 1, by omega⟩
    rw [List.nil_append, List.replicate_succ, closeSpan, ← List.replicate_succ, runLength_replicate,
      if_pos ⟨rfl, hinside rfl, rfl⟩, List.drop_eq_nil_of_le (by simp)]
  | cons c text ih =>
    have hrun : runLength (c :: (text ++ List.replicate n backtick)) ≠ n := by
      rw [← List.cons_append, runLength_append (by simp) hlast]
      exact hruns.runLength_lt.ne
    have htail : text.getLast? ≠ some backtick := by
      cases text with
      | nil => simp
      | cons d text => rwa [List.getLast?_cons_cons] at hlast
    have hempty : text = [] → decide (c = backtick) = false := by
      rintro rfl
      simpa using hlast
    rw [List.cons_append, closeSpan, if_neg fun h => hrun h.2.2,
      ih (hruns.within (List.suffix_cons c text).isInfix) htail hempty]
    rfl

/-- A text between two runs of a length that it does not have is the whole span. -/
theorem codeSpan_between (hn : 0 < n) (hruns : RunsBelow n text) (htext : text ≠ [])
    (hhead : text.head? ≠ some backtick) (hlast : text.getLast? ≠ some backtick) :
    codeSpan (List.replicate n backtick ++ (text ++ List.replicate n backtick)) =
      some (stripSpaces text, []) := by
  have hopen : runLength (List.replicate n backtick ++ (text ++ List.replicate n backtick)) = n := by
    apply runLength_replicate_append
    rw [List.head?_append]
    cases text with
    | nil => exact absurd rfl htext
    | cons c text => exact hhead
  have hdrop : (List.replicate n backtick ++ (text ++ List.replicate n backtick)).drop n =
      text ++ List.replicate n backtick := List.drop_left' (by simp)
  rw [codeSpan, hopen, if_neg hn.ne', hdrop, closeSpan_append hn hruns hlast fun _ => rfl]
  rfl

end Runs

/-! ## Lines -/

section Lines

variable {n : Nat} {text line rest : List Nat}

/-- A text that is empty or ends with a line. -/
def Whole (text : List Nat) : Prop := text = [] ∨ text.getLast? = some 0x0A

theorem Whole.tail {c : Nat} (h : Whole (c :: text)) : Whole text := by
  cases text with
  | nil => exact Or.inl rfl
  | cons d text =>
    rcases h with h | h
    · cases h
    · rw [List.getLast?_cons_cons] at h
      exact Or.inr h

theorem Whole.ne_nil {c : Nat} (h : Whole (c :: text)) (hc : c ≠ 0x0A) : text ≠ [] := by
  rintro rfl
  rcases h with h | h
  · cases h
  · exact hc (Option.some.inj h)

/-- The first line of whole lines is not changed by what follows them. -/
theorem splitLine_append (h : Whole text) (htext : text ≠ []) :
    ∃ line others, splitLine (text ++ rest) = (line, others ++ rest) ∧ line ++ others = text ∧ line ≠ [] ∧
      Whole others := by
  induction text with
  | nil => exact absurd rfl htext
  | cons c text ih =>
    rw [List.cons_append, splitLine]
    by_cases hfeed : c = 0x0A
    · rw [if_pos hfeed]
      exact ⟨[c], text, rfl, rfl, by simp, h.tail⟩
    · have hrest := h.ne_nil hfeed
      rw [if_neg hfeed]
      by_cases hreturn : c = 0x0D
      · rw [if_pos hreturn]
        cases text with
        | nil => exact absurd rfl hrest
        | cons d text =>
          by_cases hd : d = 0x0A
          · subst hd
            rw [List.cons_append, List.head?_cons, if_pos rfl]
            exact ⟨[c, 0x0A], text, rfl, rfl, by simp, h.tail.tail⟩
          · rw [List.cons_append, List.head?_cons, if_neg (by simpa using hd)]
            exact ⟨[c], d :: text, rfl, rfl, by simp, h.tail⟩
      · obtain ⟨line, others, hsplit, happend, -, hwhole⟩ := ih h.tail hrest
        rw [if_neg hreturn, hsplit]
        exact ⟨c :: line, others, rfl, by rw [List.cons_append, happend], by simp, hwhole⟩

theorem splitLine_replicate : splitLine (List.replicate n backtick) = (List.replicate n backtick, []) := by
  induction n with
  | zero => rfl
  | succ n ih =>
    rw [List.replicate_succ, splitLine, if_neg (by decide), if_neg (by decide), ih]

theorem splitLine_fence : splitLine (List.replicate n backtick ++ 0x0A :: rest) =
    (List.replicate n backtick ++ [0x0A], rest) := by
  induction n with
  | zero => rfl
  | succ n ih =>
    rw [List.replicate_succ, List.cons_append, splitLine, if_neg (by decide), if_neg (by decide), ih]
    rfl

theorem closes_fence : closes n (List.replicate n backtick) = true := by
  have hindent : (List.replicate n backtick).takeWhile (· = space) = [] := by
    cases n <;> rfl
  have hfence : (List.replicate n backtick).dropWhile (· = space) = List.replicate n backtick := by
    cases n <;> rfl
  have hbehind : (List.replicate n backtick).dropWhile (· = backtick) = [] := by simp
  simp only [closes, hindent, hfence, hbehind, runLength_replicate]
  simp

/-- A line with shorter runs does not close the fence. -/
theorem not_closes (h : RunsBelow n line) : closes n line = false := by
  have hfence : line.dropWhile (· = space) <:+: line := (List.dropWhile_suffix _).isInfix
  have hshort := (h.within hfence).runLength_lt
  simp only [closes, decide_eq_false_iff_not]
  intro hcloses
  omega

/-- Lines with shorter runs are all of the code. -/
theorem closeFence_append {fuel : Nat} (hn : 0 < n) (h : Whole text) (hruns : RunsBelow n text)
    (hfuel : text.length < fuel) :
    closeFence n fuel (text ++ List.replicate n backtick) = (text, []) := by
  induction fuel generalizing text with
  | zero => cases hfuel
  | succ fuel ih =>
    have hne : text ++ List.replicate n backtick ≠ [] := by
      simp [hn.ne']
    rw [closeFence.eq_3 _ _ _ hne]
    by_cases htext : text = []
    · rw [htext, List.nil_append, splitLine_replicate, if_pos closes_fence]
    · obtain ⟨line, others, hsplit, happend, hline, hwhole⟩ :=
        @splitLine_append text (List.replicate n backtick) h htext
      have hlength : line.length + others.length = text.length := by
        rw [← List.length_append, happend]
      have hpos : 0 < line.length := List.length_pos_iff.mpr hline
      have hfirst : RunsBelow n line := hruns.within ⟨[], others, by rw [List.nil_append, happend]⟩
      have hothers : RunsBelow n others := hruns.within ⟨line, [], by rw [List.append_nil, happend]⟩
      rw [hsplit]
      dsimp only
      rw [not_closes hfirst, if_neg (by simp), ih hwhole hothers (by omega), happend]

/-- Lines between two fences that they do not have are the whole code. -/
theorem fencedCode_between (hn : 3 ≤ n) (h : Whole text) (hruns : RunsBelow n text) :
    fencedCode (List.replicate n backtick ++ 0x0A :: (text ++ List.replicate n backtick)) =
      some (text, []) := by
  have hopen : runLength (List.replicate n backtick ++ [0x0A]) = n :=
    runLength_replicate_append (by simp [backtick])
  have hinfo : (List.replicate n backtick ++ [0x0A]).drop n = [0x0A] := List.drop_left' (by simp)
  rw [fencedCode, splitLine_fence]
  dsimp only
  rw [hopen, hinfo, if_pos ⟨hn, rfl⟩, closeFence_append (by omega) h hruns]
  simp only [List.length_append, List.length_cons]
  omega

end Lines

end XoDos.CommonMark
