import XoDos.JavaText

/-!
# Splitting a command

`splitCommand` cuts a command line at its spaces.  A space behind a backslash or between quotes does
not cut, a closing quote does, and what is read last is only kept if the last unit is one that stands
for itself.
-/

namespace XoDos

namespace ProcessHelper

/-- The loop of `splitCommand`, with what it still has to read.  A backslash and the space behind it
are taken in one round. -/
def splitLoop : Bool → JavaString → List JavaString → JavaString → List JavaString
  | _, _, result, [] => result
  | true, value, result, c :: rest =>
    if c = 0x22 then
      if value ≠ [] then splitLoop false [] (result ++ [value ++ [0x22]]) rest
      else splitLoop false value result rest
    else splitLoop true (value ++ [c]) result rest
  | false, value, result, 0x5C :: 0x20 :: rest => splitLoop false (value ++ [0x20]) result rest
  | false, value, result, c :: rest =>
    if c = 0x22 then splitLoop true (value ++ [0x22]) result rest
    else if c = 0x20 then
      if value ≠ [] then splitLoop false [] (result ++ [value]) rest
      else splitLoop false value result rest
    else if rest = [] then splitLoop false [] (result ++ [value ++ [c]]) rest
    else splitLoop false (value ++ [c]) result rest

def splitCommand (command : JavaString) : List JavaString := splitLoop false [] [] command

end ProcessHelper

/-- The variables in the order of their `LinkedHashMap`. -/
structure EnvVars where
  data : List (JavaString × JavaString)

namespace EnvVars

/-- An argument with its spaces behind backslashes. -/
def escapeSpaces (text : JavaString) : JavaString := replace [0x20] [0x5C, 0x20] text

def toEscapedString (vars : EnvVars) : JavaString :=
  vars.data.foldl (fun result e =>
    (if result ≠ [] then result ++ [0x20] else result) ++ (e.1 ++ 0x3D :: escapeSpaces e.2)) []

/-- Arguments with one space between two of them. -/
def joinEscaped (args : List JavaString) : JavaString :=
  [0x20].intercalate (args.map escapeSpaces)

theorem escapeSpaces_eq (text : JavaString) :
    escapeSpaces text = text.flatMap fun c => if c = 0x20 then [0x5C, 0x20] else [c] :=
  replace_single _ _ _

@[simp] theorem escapeSpaces_append (text rest : JavaString) :
    escapeSpaces (text ++ rest) = escapeSpaces text ++ escapeSpaces rest := by
  simp [escapeSpaces_eq]

theorem joinEscaped_cons (arg : JavaString) (args : List JavaString) :
    joinEscaped (arg :: args) =
      escapeSpaces arg ++ args.flatMap fun arg => 0x20 :: escapeSpaces arg := by
  induction args generalizing arg with
  | nil => simp [joinEscaped]
  | cons next args ih =>
    have hnext := ih next
    rw [joinEscaped] at hnext ⊢
    rw [List.map_cons, List.map_cons, List.intercalate_cons_cons, ← List.map_cons, hnext]
    simp

/-- The variables are joined as arguments, if there is no space in their names. -/
theorem toEscapedString_eq (vars : EnvVars) (h : ∀ e ∈ vars.data, 0x20 ∉ e.1) :
    vars.toEscapedString = joinEscaped (vars.data.map fun e => e.1 ++ 0x3D :: e.2) := by
  have hitem : ∀ e ∈ vars.data, e.1 ++ 0x3D :: escapeSpaces e.2 = escapeSpaces (e.1 ++ 0x3D :: e.2) := by
    intro e he
    have hname : escapeSpaces e.1 = e.1 := by
      rw [escapeSpaces_eq]
      conv_rhs => rw [← List.flatMap_singleton' e.1]
      apply List.flatMap_congr
      intro c hc
      rw [if_neg]
      rintro rfl
      exact h e he hc
    rw [escapeSpaces_append, hname]
    simp [escapeSpaces_eq]
  have hfold : ∀ (entries : List (JavaString × JavaString)) (result : JavaString), result ≠ [] →
      entries.foldl (fun result e => (if result ≠ [] then result ++ [0x20] else result) ++
        (e.1 ++ 0x3D :: escapeSpaces e.2)) result =
      result ++ entries.flatMap fun e => 0x20 :: (e.1 ++ 0x3D :: escapeSpaces e.2) := by
    intro entries
    induction entries with
    | nil => simp
    | cons e entries ih =>
      intro result hne
      rw [List.foldl_cons, if_pos hne, ih _ (by simp)]
      simp
  rw [toEscapedString]
  cases hdata : vars.data with
  | nil => rfl
  | cons e entries =>
    rw [hdata] at hitem
    rw [List.foldl_cons, hfold _ _ (by simp), List.map_cons, joinEscaped_cons, ← hitem e (by simp),
      List.flatMap_map]
    have hrest : ∀ x ∈ entries, (0x20 :: (x.1 ++ 0x3D :: escapeSpaces x.2) : JavaString) =
        0x20 :: escapeSpaces (x.1 ++ 0x3D :: x.2) := fun x hx => by rw [hitem x (by simp [hx])]
    rw [List.flatMap_congr hrest]
    simp

end EnvVars

namespace ProcessHelper

open EnvVars

variable {value rest : JavaString} {result : List JavaString} {c : Nat}

/-! ## Arguments that were escaped -/

/-- A unit that stands for itself. -/
theorem splitLoop_plain (hquote : c ≠ 0x22) (hslash : c ≠ 0x5C) (hspace : c ≠ 0x20) :
    splitLoop false value result (c :: rest) =
      if rest = [] then result ++ [value ++ [c]] else splitLoop false (value ++ [c]) result rest := by
  rw [splitLoop, if_neg hquote, if_neg hspace]
  · split_ifs with h
    · rw [h, splitLoop]
    · rfl
  · exact fun _ h _ => absurd h hslash

/-- An argument is read up to what comes behind it. -/
theorem splitLoop_argument {arg tail : JavaString} (h : ∀ c ∈ arg, c ≠ 0x22 ∧ c ≠ 0x5C)
    (htail : tail ≠ []) :
    splitLoop false value result (escapeSpaces arg ++ tail) =
      splitLoop false (value ++ arg) result tail := by
  induction arg generalizing value with
  | nil => simp [escapeSpaces_eq]
  | cons c arg ih =>
    obtain ⟨hquote, hslash⟩ := h c (by simp)
    have hrest := @ih (value ++ [c]) fun d hd => h d (by simp [hd])
    rw [List.append_assoc, List.singleton_append] at hrest
    rw [← hrest, escapeSpaces_eq, List.flatMap_cons, ← escapeSpaces_eq]
    split_ifs with hspace
    · subst hspace
      rfl
    · rw [List.singleton_append, List.cons_append, splitLoop_plain hquote hslash hspace,
        if_neg (by simp [htail])]

/-- The last argument is not kept if it ends in a space. -/
theorem splitLoop_last {arg : JavaString} (hne : arg ≠ []) (h : ∀ c ∈ arg, c ≠ 0x22 ∧ c ≠ 0x5C) :
    splitLoop false [] result (escapeSpaces arg) =
      if arg.getLast? = some 0x20 then result else result ++ [arg] := by
  obtain ⟨init, c, rfl⟩ := (List.eq_nil_or_concat arg).resolve_left hne
  rw [List.concat_eq_append] at h ⊢
  obtain ⟨hquote, hslash⟩ := h c (by simp)
  have hinit : ∀ d ∈ init, d ≠ 0x22 ∧ d ≠ 0x5C := fun d hd => h d (by simp [hd])
  have hlast : escapeSpaces [c] ≠ [] := by
    rw [escapeSpaces_eq]
    by_cases hspace : c = 0x20 <;> simp [hspace]
  rw [escapeSpaces_append, splitLoop_argument hinit hlast, List.nil_append, List.getLast?_concat,
    escapeSpaces_eq, List.flatMap_singleton]
  by_cases hspace : c = 0x20
  · rw [hspace]
    rfl
  · rw [if_neg hspace, if_neg (by simpa using hspace), splitLoop_plain hquote hslash hspace,
      if_pos rfl]

/-- All arguments are found again but for a last one that ends in a space. -/
theorem splitLoop_joinEscaped {arg : JavaString} {args : List JavaString}
    (h : ∀ a ∈ arg :: args, a ≠ [] ∧ ∀ c ∈ a, c ≠ 0x22 ∧ c ≠ 0x5C) :
    splitLoop false [] result (joinEscaped (arg :: args)) =
      result ++ if (arg :: args).getLast?.bind List.getLast? = some 0x20
        then (arg :: args).dropLast else arg :: args := by
  induction args generalizing arg result with
  | nil =>
    obtain ⟨hne, hunits⟩ := h arg (by simp)
    rw [joinEscaped_cons, List.flatMap_nil, List.append_nil, splitLoop_last hne hunits]
    by_cases hlast : arg.getLast? = some 0x20 <;> simp [hlast]
  | cons next args ih =>
    obtain ⟨hne, hunits⟩ := h arg (by simp)
    have hjoin : joinEscaped (arg :: next :: args) =
        escapeSpaces arg ++ 0x20 :: joinEscaped (next :: args) := by
      rw [joinEscaped_cons, joinEscaped_cons, List.flatMap_cons, List.cons_append]
    have hspace : splitLoop false arg result (0x20 :: joinEscaped (next :: args)) =
        splitLoop false [] (result ++ [arg]) (joinEscaped (next :: args)) := by
      rw [splitLoop]
      · simp [hne]
      · simp
    rw [hjoin, splitLoop_argument hunits (by simp), List.nil_append, hspace,
      ih fun a ha => h a (by simp [ha])]
    rw [List.getLast?_cons_cons, List.dropLast_cons_cons]
    split_ifs <;> simp

/-! ## Units outside quotes -/

/-- How a command is read. -/
inductive Piece where
  | blank
  | escaped
  | plain (c : Nat)
  | opening
  | quoted (c : Nat)
  | closing
deriving DecidableEq

def pieces : Bool → JavaString → List Piece
  | _, [] => []
  | true, c :: rest => if c = 0x22 then .closing :: pieces false rest else .quoted c :: pieces true rest
  | false, 0x5C :: 0x20 :: rest => .escaped :: pieces false rest
  | false, c :: rest =>
    if c = 0x22 then .opening :: pieces true rest
    else if c = 0x20 then .blank :: pieces false rest
    else .plain c :: pieces false rest

/-- The units of a command that are neither spaces nor in quotes.  A backslash before a space belongs
to the space. -/
def plainUnits (command : List Piece) : JavaString :=
  command.filterMap fun
    | .plain c => some c
    | _ => none

/-- The units of a text that are neither spaces nor in quotes. -/
def outside : Bool → JavaString → JavaString
  | _, [] => []
  | quotes, c :: rest =>
    if c = 0x22 then outside (!quotes) rest
    else if quotes = true ∨ c = 0x20 then outside quotes rest
    else c :: outside quotes rest

/-- Whether a text ends in quotes. -/
def inQuotes : Bool → JavaString → Bool
  | quotes, [] => quotes
  | quotes, c :: rest => inQuotes (if c = 0x22 then !quotes else quotes) rest

/-- No unit outside quotes is lost. -/
def NothingLost (command : JavaString) : Prop :=
  (splitCommand command).flatMap (outside false) = plainUnits (pieces false command)

/-- Behind the last space and the last closing quote there is a unit outside quotes, and the command
does not end with such a unit. -/
def losesEnd : Bool → List Piece → Bool
  | seen, [] => seen
  | _, [.plain _] => false
  | _, .plain _ :: rest => losesEnd true rest
  | _, .blank :: rest => losesEnd false rest
  | _, .closing :: rest => losesEnd false rest
  | seen, _ :: rest => losesEnd seen rest

theorem losesEnd_plain {command : List Piece} (h : command ≠ []) (seen : Bool) (c : Nat) :
    losesEnd seen (.plain c :: command) = losesEnd true command := by
  cases command with
  | nil => exact absurd rfl h
  | cons p command => rfl

theorem outside_append (quotes : Bool) (text rest : JavaString) :
    outside quotes (text ++ rest) = outside quotes text ++ outside (inQuotes quotes text) rest := by
  induction text generalizing quotes with
  | nil => rfl
  | cons c text ih =>
    rw [List.cons_append, outside, outside, inQuotes]
    split_ifs <;> simp [ih]

theorem inQuotes_append (quotes : Bool) (text : JavaString) (c : Nat) :
    inQuotes quotes (text ++ [c]) =
      if c = 0x22 then !inQuotes quotes text else inQuotes quotes text := by
  induction text generalizing quotes with
  | nil => rfl
  | cons d text ih => rw [List.cons_append, inQuotes, ih, inQuotes]

theorem outside_concat (text : JavaString) (c : Nat) :
    outside false (text ++ [c]) = outside false text ++
      if c = 0x22 ∨ inQuotes false text = true ∨ c = 0x20 then [] else [c] := by
  rw [outside_append, outside, outside, outside]
  split_ifs <;> simp_all

theorem pieces_ne_nil (h : rest ≠ []) : pieces false rest ≠ [] := by
  unfold pieces
  split
  · exact absurd rfl h
  · simp at *
  · simp
  · split_ifs <;> simp

theorem pieces_blank (rest : JavaString) :
    pieces false (0x20 :: rest) = .blank :: pieces false rest := by
  rw [pieces]
  · rfl
  · simp

theorem pieces_plain (hquote : c ≠ 0x22) (hspace : c ≠ 0x20)
    (hnot : ∀ tail, c = 0x5C → rest = 0x20 :: tail → False) :
    pieces false (c :: rest) = .plain c :: pieces false rest := by
  rw [pieces, if_neg hquote, if_neg hspace]
  exact hnot

/-- What is outside quotes is in the result or in the value that is still being read. -/
theorem splitLoop_outside (quotes : Bool) (value : JavaString) (result : List JavaString)
    (text : JavaString) (hquotes : inQuotes false value = quotes)
    (hvalue : quotes = true → value ≠ []) :
    ∃ pending, (splitLoop quotes value result text).flatMap (outside false) ++
        outside false pending = result.flatMap (outside false) ++
          (outside false value ++ plainUnits (pieces quotes text)) ∧
      (outside false pending ≠ [] ↔
        losesEnd (decide (outside false value ≠ [])) (pieces quotes text) = true) := by
  -- The cases follow the branches of the loop: a quote, a blank, the last character, any other.
  fun_induction splitLoop quotes value result text with
  | case1 quotes value result => exact ⟨value, by simp [pieces, plainUnits], by simp [pieces, losesEnd]⟩
  | case2 value result rest hne ih =>
    obtain ⟨pending, heq, hiff⟩ := ih rfl (by simp)
    refine ⟨pending, ?_, ?_⟩
    · rw [heq]
      simp [outside_concat, pieces, plainUnits, outside]
    · rw [hiff]
      simp [pieces, losesEnd, outside]
  | case3 value result rest hnil => exact absurd (hvalue rfl) hnil
  | case4 value result c rest hc ih =>
    obtain ⟨pending, heq, hiff⟩ := ih (by rw [inQuotes_append, if_neg hc, hquotes]) (by simp)
    have hsame : outside false (value ++ [c]) = outside false value := by
      simp [outside_concat, hquotes]
    rw [hsame] at heq hiff
    refine ⟨pending, ?_, ?_⟩
    · rw [heq, pieces, if_neg hc]
      rfl
    · rw [hiff, pieces, if_neg hc]
      rfl
  | case5 value result rest ih =>
    obtain ⟨pending, heq, hiff⟩ := ih (by rw [inQuotes_append, hquotes]; rfl) (by simp)
    have hsame : outside false (value ++ [0x20]) = outside false value := by
      simp [outside_concat]
    rw [hsame] at heq hiff
    exact ⟨pending, heq, hiff⟩
  | case6 value result rest _ ih =>
    obtain ⟨pending, heq, hiff⟩ := ih (by rw [inQuotes_append, hquotes]; rfl) (by simp)
    have hsame : outside false (value ++ [0x22]) = outside false value := by
      simp [outside_concat]
    rw [hsame] at heq hiff
    refine ⟨pending, ?_, ?_⟩
    · rw [heq]
      simp [pieces, plainUnits]
    · rw [hiff]
      simp [pieces, losesEnd]
  | case7 value result rest hne _ _ ih =>
    obtain ⟨pending, heq, hiff⟩ := ih rfl (by simp)
    refine ⟨pending, ?_, ?_⟩
    · rw [heq]
      simp [pieces_blank, plainUnits, outside]
    · rw [hiff, pieces_blank]
      simp [losesEnd, outside]
  | case8 value result rest hnil _ _ ih =>
    rw [not_not] at hnil
    subst hnil
    obtain ⟨pending, heq, hiff⟩ := ih rfl (by simp)
    refine ⟨pending, ?_, ?_⟩
    · rw [heq]
      simp [pieces_blank, plainUnits]
    · rw [hiff, pieces_blank]
      simp [losesEnd, outside]
  | case9 value result c hc hspace hnot ih =>
    have hpieces : pieces false [c] = [.plain c] := by rw [pieces_plain hc hspace hnot, pieces]
    refine ⟨[], ?_, ?_⟩
    · rw [splitLoop, hpieces]
      simp [outside_concat, hquotes, hc, hspace, plainUnits, outside]
    · rw [hpieces]
      simp [losesEnd, outside]
  | case10 value result c rest hnot hc hspace hrest ih =>
    obtain ⟨pending, heq, hiff⟩ := ih (by rw [inQuotes_append, if_neg hc, hquotes]) (by simp)
    have hmore : outside false (value ++ [c]) = outside false value ++ [c] := by
      simp [outside_concat, hquotes, hc, hspace]
    rw [hmore] at heq hiff
    refine ⟨pending, ?_, ?_⟩
    · rw [heq, pieces_plain hc hspace hnot]
      simp [plainUnits]
    · rw [hiff, pieces_plain hc hspace hnot, losesEnd_plain (pieces_ne_nil hrest)]
      simp

/-- Nothing is lost of a command exactly when its end is not. -/
theorem nothingLost_iff (command : JavaString) :
    NothingLost command ↔ losesEnd false (pieces false command) = false := by
  obtain ⟨pending, heq, hiff⟩ := splitLoop_outside false [] [] command rfl (by simp)
  have hlost : outside false pending ≠ [] ↔ losesEnd false (pieces false command) = true := hiff
  rw [← Bool.not_eq_true, ← hlost, not_not, NothingLost]
  have hall : (splitCommand command).flatMap (outside false) ++ outside false pending =
      plainUnits (pieces false command) := heq
  rw [← hall]
  simp

/-- Escaped arguments are found again unless the last one ends in a space, and nothing of a command
is lost unless its end is. -/
theorem splitCommand_iff (args : List JavaString) (hne : args ≠ [])
    (hargs : ∀ arg ∈ args, arg ≠ [] ∧ ∀ c ∈ arg, c ≠ 0x22 ∧ c ≠ 0x5C) (command : JavaString) :
    (splitCommand (joinEscaped args) = args ↔ args.getLast?.bind List.getLast? ≠ some 0x20) ∧
      (NothingLost command ↔ losesEnd false (pieces false command) = false) := by
  refine ⟨?_, nothingLost_iff command⟩
  cases args with
  | nil => exact absurd rfl hne
  | cons arg args =>
    rw [splitCommand, splitLoop_joinEscaped hargs, List.nil_append]
    split_ifs with hlast
    · refine iff_of_false (fun h => ?_) (fun h => h hlast)
      have hlength := congrArg List.length h
      simp at hlength
    · exact iff_of_true rfl hlast

/-- A path with a space, and a command with quotes. -/
theorem splitCommand_path :
    splitCommand (joinEscaped [ascii "a b", ascii "c"]) = [ascii "a b", ascii "c"] ∧
      NothingLost (ascii "a\\ b \"c d\"") := by
  obtain ⟨hargs, hcommand⟩ := splitCommand_iff [ascii "a b", ascii "c"] (by simp) (by decide)
    (ascii "a\\ b \"c d\"")
  exact ⟨hargs.mpr (by decide), hcommand.mpr (by decide)⟩

/-- A last argument that ends in a space is lost, and what stands before a quote that is not closed. -/
theorem end_lost :
    (¬∀ args : List JavaString, args ≠ [] →
      (∀ arg ∈ args, arg ≠ [] ∧ ∀ c ∈ arg, c ≠ 0x22 ∧ c ≠ 0x5C) →
        splitCommand (joinEscaped args) = args) ∧ ¬∀ command, NothingLost command := by
  constructor
  · intro h
    exact absurd (h [ascii "a "] (by simp) (by decide)) (by decide)
  · intro h
    exact absurd ((nothingLost_iff _).mp (h (ascii "a\"b"))) (by decide)

end ProcessHelper

end XoDos
