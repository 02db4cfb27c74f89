import XoDos.RegistryText

/-!
# Searching and copying in lines

The sums over lines that the editor computes are lengths of what these lines make up, and the copy
through the buffer is the copy of as many units, as long as the file has them.
-/

namespace XoDos

namespace WineRegistryEditor

variable {key : JavaString} {lines rest : List JavaString}

/-! ## Keys -/

/-- Lines without the key are passed over. -/
theorem keyLoop_skip (h : ∀ l ∈ lines, ¬key <+: l) (position total : Nat) :
    keyLoop key none position total (lines ++ rest) =
      keyLoop key none position (total + (unlines lines).length) rest := by
  induction lines generalizing total with
  | nil => rfl
  | cons line lines ih =>
    have hline : ¬key <+: line := h line (by simp)
    rw [List.cons_append, keyLoop]
    simp only [Option.any_none, Bool.false_eq_true, if_false, Option.isNone_none, Bool.true_and,
      decide_eq_true_eq, if_neg hline]
    rw [ih fun l hl => h l (by simp [hl])]
    congr 1
    simp only [unlines_cons, List.length_append, List.length_cons]
    omega

theorem keyLoop_hit {line : JavaString} (h : key <+: line) (position total : Nat) :
    keyLoop key none position total (line :: rest) =
      (some ⟨(total : Int) - 1, total + line.length + 1,
        sectionStop (total + line.length + 1) 0 rest⟩, position) := by
  simp [keyLoop, h]

/-- Lines without the parent are passed over. -/
theorem keyLoop_skip_parent {parent : JavaString} (h : ∀ l ∈ lines, ¬parent <+: l)
    (position total : Nat) :
    keyLoop key (some parent) position total (lines ++ rest) =
      keyLoop key (some parent) position (total + (unlines lines).length) rest := by
  induction lines generalizing total with
  | nil => rfl
  | cons line lines ih =>
    have hline : ¬parent <+: line := h line (by simp)
    rw [List.cons_append, keyLoop]
    simp only [Option.any_some, hline, decide_false, Bool.false_eq_true, if_false,
      Option.isNone_some, Bool.false_and]
    rw [ih fun l hl => h l (by simp [hl])]
    congr 1
    simp only [unlines_cons, List.length_append, List.length_cons]
    omega

/-- At the parent's line its position is taken down, and the search goes on for the key alone. -/
theorem keyLoop_parent_hit {parent line : JavaString} (h : parent <+: line)
    (position total : Nat) :
    keyLoop key (some parent) position total (line :: rest) =
      keyLoop key none total total (line :: rest) := by
  simp [keyLoop, h]

/-- The position that is handed through does not matter for the place. -/
theorem keyLoop_position (position position' total : Nat) :
    (keyLoop key none position total lines).1 = (keyLoop key none position' total lines).1 := by
  induction lines generalizing total with
  | nil => rfl
  | cons line lines ih =>
    by_cases hk : key <+: line
    · simp [keyLoop_hit hk]
    · have hl : ∀ l ∈ [line], ¬key <+: l := by simpa using hk
      rw [← List.singleton_append, keyLoop_skip hl, keyLoop_skip hl]
      exact ih _

theorem keyLoop_none_snd (position total : Nat) :
    (keyLoop key none position total lines).2 = position := by
  induction lines generalizing total with
  | nil => rfl
  | cons line lines ih =>
    by_cases hk : key <+: line
    · simp [keyLoop_hit hk]
    · have hl : ∀ l ∈ [line], ¬key <+: l := by simpa using hk
      rw [← List.singleton_append, keyLoop_skip hl]
      exact ih _

/-- The lines up to the first one that starts with `text`, or all of them. -/
theorem split_at_first (text : JavaString) (lines : List JavaString) :
    (∀ l ∈ lines, ¬text <+: l) ∨
      ∃ pre line post, lines = pre ++ line :: post ∧ text <+: line ∧ ∀ l ∈ pre, ¬text <+: l := by
  induction lines with
  | nil => exact .inl (by simp)
  | cons line lines ih =>
    by_cases h : text <+: line
    · exact .inr ⟨[], line, lines, rfl, h, by simp⟩
    · rcases ih with hall | ⟨pre, first, post, rfl, hfirst, hpre⟩
      · left
        simpa using ⟨h, hall⟩
      · right
        refine ⟨line :: pre, first, post, rfl, hfirst, ?_⟩
        simpa using ⟨h, hpre⟩

/-- Waiting for the parent does not change what is found. -/
theorem keyLoop_parent_fst {parent : JavaString} (hkey : parent <+: key) (position total : Nat) :
    (keyLoop key (some parent) position total lines).1 =
      (keyLoop key none position total lines).1 := by
  rcases split_at_first parent lines with hnone | ⟨pre, line, post, rfl, hline, hpre⟩
  · have hnokey : ∀ l ∈ lines, ¬key <+: l := fun l hl hp => hnone l hl (hkey.trans hp)
    have h₁ := @keyLoop_skip_parent key lines [] parent hnone position total
    have h₂ := @keyLoop_skip key lines [] hnokey position total
    rw [List.append_nil] at h₁ h₂
    rw [h₁, h₂]
    rfl
  · have hnokey : ∀ l ∈ pre, ¬key <+: l := fun l hl hp => hpre l hl (hkey.trans hp)
    rw [keyLoop_skip_parent hpre, keyLoop_skip hnokey, keyLoop_parent_hit hline]
    exact keyLoop_position _ _ _

/-- The position that is taken down is that of the first line of the parent. -/
theorem keyLoop_parent_snd (parent : JavaString) (position total : Nat) (lines : List JavaString) :
    ((∀ l ∈ lines, ¬parent <+: l) ∧
        (keyLoop key (some parent) position total lines).2 = position) ∨
      ∃ pre line post, lines = pre ++ line :: post ∧ parent <+: line ∧ (∀ l ∈ pre, ¬parent <+: l) ∧
        (keyLoop key (some parent) position total lines).2 = total + (unlines pre).length := by
  rcases split_at_first parent lines with hnone | ⟨pre, line, post, rfl, hline, hpre⟩
  · left
    have h := @keyLoop_skip_parent key lines [] parent hnone position total
    rw [List.append_nil] at h
    rw [h]
    exact ⟨hnone, rfl⟩
  · right
    refine ⟨pre, line, post, rfl, hline, hpre, ?_⟩
    rw [keyLoop_skip_parent hpre, keyLoop_parent_hit hline, keyLoop_none_snd]

/-- The line with the key, if there is one. -/
theorem keyLoop_fst_none (position total : Nat)
    (h : (keyLoop key none position total lines).1 = none) : ∀ l ∈ lines, ¬key <+: l := by
  rcases split_at_first key lines with hnone | ⟨pre, line, post, rfl, hline, hpre⟩
  · exact hnone
  · rw [keyLoop_skip hpre, keyLoop_hit hline] at h
    cases h

theorem keyLoop_fst_some {position total : Nat} {location : Location}
    (h : (keyLoop key none position total lines).1 = some location) :
    ∃ pre line post, lines = pre ++ line :: post ∧ key <+: line ∧ (∀ l ∈ pre, ¬key <+: l) ∧
      location = ⟨(total + (unlines pre).length : Nat) - 1,
        total + (unlines pre).length + line.length + 1,
        sectionStop (total + (unlines pre).length + line.length + 1) 0 post⟩ := by
  rcases split_at_first key lines with hnone | ⟨pre, line, post, rfl, hline, hpre⟩
  · have hskip := @keyLoop_skip key lines [] hnone position total
    rw [List.append_nil] at hskip
    rw [hskip] at h
    cases h
  · rw [keyLoop_skip hpre, keyLoop_hit hline] at h
    refine ⟨pre, line, post, rfl, hline, hpre, ?_⟩
    simpa using h.symm

/-- From the start of the file the parent does not matter. -/
theorem getKeyLocation_fst (file key : JavaString) (keyAsPrefix : Bool) :
    (getKeyLocation file 0 key keyAsPrefix).1 =
      (keyLoop (keyText key keyAsPrefix) none 0 0 (linesOf file)).1 := by
  simp only [getKeyLocation, if_true, List.drop_zero]
  cases hp : parentKey key with
  | none => rfl
  | some parent => exact keyLoop_parent_fst (parentText_isPrefix hp keyAsPrefix) 0 0

/-! ## Ends of sections -/

/-- The blank lines at the end, after as many before. -/
def trailingBlanks (before : Nat) (lines : List JavaString) : Nat :=
  lines.foldl (fun n line => if line = [] then n + 1 else 0) before

theorem sectionStop_open (h : ∀ l ∈ lines, ¬[0x5B] <+: l) (total blanks : Nat) :
    sectionStop total blanks lines = total + (unlines lines).length - 1 := by
  induction lines generalizing total blanks with
  | nil => rfl
  | cons line lines ih =>
    rw [sectionStop, if_neg (h line (by simp)), ih fun l hl => h l (by simp [hl])]
    simp only [unlines_cons, List.length_append, List.length_cons]
    omega

theorem sectionStop_next {next : JavaString} (h : ∀ l ∈ lines, ¬[0x5B] <+: l)
    (hnext : [0x5B] <+: next) (total blanks : Nat) :
    sectionStop total blanks (lines ++ next :: rest) =
      total + (unlines lines).length - trailingBlanks blanks lines - 1 := by
  induction lines generalizing total blanks with
  | nil => simp [sectionStop, hnext, trailingBlanks]
  | cons line lines ih =>
    rw [List.cons_append, sectionStop, if_neg (h line (by simp)), ih fun l hl => h l (by simp [hl])]
    simp only [unlines_cons, List.length_append, List.length_cons, trailingBlanks, List.foldl_cons]
    omega

/-- The lines without the blank ones at the end. -/
def trimmed (lines : List JavaString) : List JavaString := lines.rdropWhile (· = [])

/-- The blank ones at the end. -/
def blanksOf (lines : List JavaString) : List JavaString := lines.rtakeWhile (· = [])

theorem trimmed_append_blanksOf (lines : List JavaString) :
    trimmed lines ++ blanksOf lines = lines := List.rdropWhile_append_rtakeWhile

theorem blanksOf_blank {l : JavaString} (h : l ∈ blanksOf lines) : l = [] := by
  simpa using List.mem_rtakeWhile_imp h

theorem trailingBlanks_le (lines : List JavaString) :
    trailingBlanks 0 lines ≤ (unlines lines).length := by
  induction lines using List.reverseRecOn with
  | nil => exact le_rfl
  | append_singleton lines line ih =>
    simp only [trailingBlanks, List.foldl_append, List.foldl_cons, List.foldl_nil, unlines_append,
      List.length_append, unlines_cons, unlines_nil, List.length_cons]
    unfold trailingBlanks at ih
    split_ifs <;> omega

theorem length_trimmed (lines : List JavaString) :
    (unlines (trimmed lines)).length = (unlines lines).length - trailingBlanks 0 lines := by
  induction lines using List.reverseRecOn with
  | nil => rfl
  | append_singleton lines line ih =>
    have hlines := trailingBlanks_le lines
    by_cases hline : line = []
    · subst hline
      simp only [trimmed, trailingBlanks, List.rdropWhile_concat_pos (· = []) lines [] (by simp),
        List.foldl_append, List.foldl_cons, List.foldl_nil, if_true] at ih hlines ⊢
      rw [ih]
      simp only [unlines_append, unlines_cons, unlines_nil, List.length_append, List.length_cons,
        List.length_nil]
      omega
    · have hneg : ¬decide (line = []) = true := by simpa using hline
      simp only [trimmed, trailingBlanks, List.rdropWhile_concat_neg (· = []) lines line hneg,
        List.foldl_append, List.foldl_cons, List.foldl_nil, if_neg hline]
      omega

/-- A section ends with whole lines. -/
theorem sectionStop_lines (total : Nat) (lines : List JavaString) :
    ∃ body rest, lines = body ++ rest ∧
      sectionStop total 0 lines = total + (unlines body).length - 1 := by
  rcases split_at_first [0x5B] lines with hnone | ⟨pre, line, post, rfl, hline, hpre⟩
  · exact ⟨lines, [], (List.append_nil _).symm, sectionStop_open hnone total 0⟩
  · refine ⟨trimmed pre, blanksOf pre ++ line :: post, ?_, ?_⟩
    · rw [← List.append_assoc, trimmed_append_blanksOf]
    · rw [sectionStop_next hpre hline, length_trimmed]
      have := trailingBlanks_le pre
      omega

/-! ## Values -/

/-- The line continues the value before. -/
def continues (line : JavaString) : Bool := !(decide (line = []) || lineHasName line)

theorem valueStop_eq (lines rest : List JavaString) (total : Nat) (ht : 1 ≤ total) :
    valueStop (total + (unlines lines).length - 1) total (lines ++ rest) =
      total + (unlines (lines.takeWhile continues)).length - 1 := by
  induction lines generalizing total with
  | nil =>
    cases rest with
    | nil => rfl
    | cons line rest =>
      rw [List.nil_append, valueStop, if_neg (by simp only [unlines_nil, List.length_nil]; omega)]
      rfl
  | cons line lines ih =>
    have hlen : total + (unlines (line :: lines)).length - 1 =
        total + line.length + 1 + (unlines lines).length - 1 := by
      simp only [unlines_cons, List.length_append, List.length_cons]
      omega
    rw [List.cons_append, valueStop, hlen]
    by_cases hc : continues line = true
    · have hne : line ≠ [] := by
        rintro rfl
        simp [continues] at hc
      have hpos := List.length_pos_of_ne_nil hne
      have hno : ¬(decide (line = []) || lineHasName line) = true := by simpa [continues] using hc
      rw [if_pos (by omega), if_neg hno, ih _ (by omega), List.takeWhile_cons_of_pos hc]
      simp only [unlines_cons, List.length_append, List.length_cons]
      omega
    · have hyes : (decide (line = []) || lineHasName line) = true := by
        simpa only [continues, Bool.not_eq_true', Bool.not_eq_false] using hc
      rw [List.takeWhile_cons_of_neg hc, if_pos hyes]
      simp

/-- The place of the value in the lines of its section. -/
theorem valueLoop_hit {name line : JavaString} {pre post : List JavaString} (hname : name ≠ [])
    (hpre : ∀ l ∈ pre, ¬name <+: l) (hline : name <+: line) (rest : List JavaString) (total : Nat) :
    valueLoop name (total + (unlines (pre ++ line :: post)).length - 1) total
        (pre ++ line :: post ++ rest) =
      some ⟨(total + (unlines pre).length : Nat) - 1, total + (unlines pre).length + name.length,
        total + (unlines pre).length + line.length +
          (unlines (post.takeWhile continues)).length⟩ := by
  have hpos : 0 < line.length := (List.length_pos_of_ne_nil hname).trans_le hline.length_le
  induction pre generalizing total with
  | nil =>
    have hlen : total + (unlines ([] ++ line :: post)).length - 1 =
        total + line.length + 1 + (unlines post).length - 1 := by
      simp only [List.nil_append, unlines_cons, List.length_append, List.length_cons]
      omega
    rw [List.nil_append, List.cons_append, valueLoop]
    rw [List.nil_append] at hlen
    rw [hlen, if_pos (by omega)]
    simp only [if_pos hline]
    rw [valueStop_eq post rest _ (by omega)]
    simp
  | cons first pre ih =>
    have hfirst : ¬name <+: first := hpre first (by simp)
    have hlen : total + (unlines (first :: pre ++ line :: post)).length - 1 =
        total + first.length + 1 + (unlines (pre ++ line :: post)).length - 1 := by
      simp only [List.cons_append, unlines_cons, List.length_append, List.length_cons]
      omega
    have hlong : total < total + first.length + 1 + (unlines (pre ++ line :: post)).length - 1 := by
      simp only [unlines_append, unlines_cons, List.length_append, List.length_cons]
      omega
    rw [hlen, List.cons_append, List.cons_append, valueLoop, if_pos hlong]
    simp only [if_neg hfirst]
    rw [ih (fun l hl => hpre l (by simp [hl]))]
    simp only [unlines_cons, List.length_append, List.length_cons]
    congr 2
    · push_cast
      ring
    · omega
    · omega

theorem valueLoop_miss {name : JavaString} (h : ∀ l ∈ lines, ¬name <+: l)
    (rest : List JavaString) (total : Nat) :
    valueLoop name (total + (unlines lines).length - 1) total (lines ++ rest) = none := by
  induction lines generalizing total with
  | nil =>
    cases rest with
    | nil => rfl
    | cons line rest =>
      rw [List.nil_append, valueLoop, if_neg (by simp only [unlines_nil, List.length_nil]; omega)]
  | cons line lines ih =>
    have hlen : total + (unlines (line :: lines)).length - 1 =
        total + line.length + 1 + (unlines lines).length - 1 := by
      simp only [unlines_cons, List.length_append, List.length_cons]
      omega
    rw [List.cons_append, valueLoop, hlen]
    simp only [if_neg (h line (by simp))]
    rw [ih fun l hl => h l (by simp [hl])]
    split_ifs <;> rfl

/-! ## Copying -/

theorem copyLoop_exact (fuel count : Nat) (c : Copy) (hfuel : count ≤ fuel)
    (hcount : count ≤ c.rest.length) :
    (copyLoop fuel count c).written = c.written ++ c.rest.take count ∧
      (copyLoop fuel count c).rest = c.rest.drop count := by
  induction fuel generalizing count c with
  | zero =>
    have : count = 0 := by omega
    subst this
    simp [copyLoop]
  | succ fuel ih =>
    rw [copyLoop]
    split_ifs with h
    · subst h
      simp
    · have hb : 0 < bufferSize := by decide
      obtain ⟨n, hn⟩ : ∃ n, n = min bufferSize count := ⟨_, rfl⟩
      rw [← hn]
      have hround : (c.round n).written = c.written ++ c.rest.take n := by
        simp only [Copy.round]
        rw [List.take_append_of_le_length (by simp; omega), List.take_take, min_self]
      obtain ⟨hw, hr⟩ := ih (count - n) (c.round n) (by omega)
        (by simp only [Copy.round, List.length_drop]; omega)
      rw [hw, hr, hround]
      simp only [Copy.round]
      rw [List.append_assoc, ← List.take_add, List.drop_drop]
      have hsum : n + (count - n) = count := by omega
      rw [hsum]
      exact ⟨rfl, rfl⟩

/-- As many units are copied as are asked for, if the file has them. -/
theorem copy_exact (file : JavaString) {count : Nat} (h : count ≤ file.length) :
    (copy file count).written = file.take count ∧ (copy file count).rest = file.drop count := by
  simpa [copy] using copyLoop_exact count count ⟨[], List.replicate bufferSize 0, file, 0⟩ le_rfl h

/-- What a copy holds comes from the file or from the buffer. -/
theorem copyLoop_mem {p : Nat → Prop} (fuel count : Nat) (c : Copy) (hw : ∀ u ∈ c.written, p u)
    (hb : ∀ u ∈ c.buffer, p u) (hr : ∀ u ∈ c.rest, p u) :
    (∀ u ∈ (copyLoop fuel count c).written, p u) ∧ ∀ u ∈ (copyLoop fuel count c).rest, p u := by
  induction fuel generalizing count c with
  | zero => exact ⟨hw, hr⟩
  | succ fuel ih =>
    rw [copyLoop]
    split_ifs
    · exact ⟨hw, hr⟩
    · have hbuffer : ∀ u ∈ (c.round (min bufferSize count)).buffer, p u := by
        intro u hu
        simp only [Copy.round, List.mem_append] at hu
        rcases hu with hu | hu
        · exact hr u (List.mem_of_mem_take hu)
        · exact hb u (List.mem_of_mem_drop hu)
      apply ih
      · intro u hu
        simp only [Copy.round, List.mem_append] at hu
        rcases hu with hu | hu
        · exact hw u hu
        · exact hbuffer u (List.mem_of_mem_take hu)
      · exact hbuffer
      · intro u hu
        exact hr u (List.mem_of_mem_drop hu)

theorem copy_mem {p : Nat → Prop} {file : JavaString} (count : Nat) (h : ∀ u ∈ file, p u)
    (hzero : p 0) : (∀ u ∈ (copy file count).written, p u) ∧ ∀ u ∈ (copy file count).rest, p u := by
  apply copyLoop_mem
  · simp
  · intro u hu
    rw [(List.mem_replicate.mp hu).2]
    exact hzero
  · exact h

/-- The file comes first in a copy of more units than it has. -/
theorem copyLoop_prefix (fuel count : Nat) (c : Copy) (hfuel : count ≤ fuel) :
    c.written ++ c.rest.take count <+: (copyLoop fuel count c).written := by
  induction fuel generalizing count c with
  | zero =>
    have : count = 0 := by omega
    subst this
    simp [copyLoop]
  | succ fuel ih =>
    rw [copyLoop]
    split_ifs with h
    · subst h
      simp
    · have hb : 0 < bufferSize := by decide
      obtain ⟨n, hn⟩ : ∃ n, n = min bufferSize count := ⟨_, rfl⟩
      rw [← hn]
      have hround := ih (count - n) (c.round n) (by omega)
      by_cases hlong : n ≤ c.rest.length
      · have hw : (c.round n).written = c.written ++ c.rest.take n := by
          simp only [Copy.round]
          rw [List.take_append_of_le_length (by simp; omega), List.take_take, min_self]
        have hsum : n + (count - n) = count := by omega
        rw [hw, List.append_assoc] at hround
        simp only [Copy.round] at hround
        rw [← List.take_add, hsum] at hround
        exact hround
      · have hall : c.rest.take count = c.rest := List.take_of_length_le (by omega)
        have htake : c.rest.take n = c.rest := List.take_of_length_le (by omega)
        refine List.IsPrefix.trans ?_ ((List.prefix_append _ _).trans hround)
        rw [hall]
        simp only [Copy.round, htake]
        rw [List.prefix_append_right_inj, List.take_append]
        rw [List.take_of_length_le (by omega)]
        exact List.prefix_append _ _

theorem copy_prefix (file : JavaString) (count : Nat) :
    file.take count <+: (copy file count).written := by
  simpa [copy] using copyLoop_prefix count count ⟨[], List.replicate bufferSize 0, file, 0⟩ le_rfl

/-- The last unit of the last round is the last one that was copied. -/
theorem copyLoop_last (fuel count : Nat) (c : Copy) (hfuel : count ≤ fuel) (hcount : 0 < count)
    (hle : count ≤ c.rest.length) :
    (copyLoop fuel count c).buffer[(copyLoop fuel count c).length - 1]? =
      (c.rest.take count).getLast? := by
  induction fuel generalizing count c with
  | zero => omega
  | succ fuel ih =>
    rw [copyLoop, if_neg (by omega)]
    have hb : 0 < bufferSize := by decide
    obtain ⟨n, hn⟩ : ∃ n, n = min bufferSize count := ⟨_, rfl⟩
    rw [← hn]
    by_cases hlast : count = n
    · have hzero : count - n = 0 := by omega
      have hdone : copyLoop fuel (count - n) (c.round n) = c.round n := by
        rw [hzero]
        cases fuel <;> simp [copyLoop]
      rw [hdone, ← hlast]
      simp only [Copy.round]
      rw [List.getElem?_append_left (by simp; omega), List.getLast?_eq_getElem?]
      congr 1
      simp
      omega
    · rw [ih (count - n) (c.round n) (by omega) (by omega)
        (by simp only [Copy.round, List.length_drop]; omega)]
      simp only [Copy.round]
      rw [List.getLast?_eq_getElem?, List.getLast?_eq_getElem?, List.getElem?_take, List.getElem?_take,
        List.getElem?_drop]
      simp only [List.length_take, List.length_drop]
      rw [if_pos (by omega), if_pos (by omega)]
      congr 1
      omega

theorem copy_last {file : JavaString} {count : Nat} (hcount : 0 < count)
    (hle : count ≤ file.length) :
    (copy file count).buffer[(copy file count).length - 1]? = (file.take count).getLast? :=
  copyLoop_last count count ⟨[], List.replicate bufferSize 0, file, 0⟩ le_rfl hcount hle

end WineRegistryEditor

end XoDos
