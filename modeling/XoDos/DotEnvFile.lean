import XoDos.ResultSender
import Mathlib.Data.List.Sort

/-!
# `.env` files

The variables of an environment are written as lines `export NAME="value"`, sorted by name.  The shell reads
them again by its rules for double quotes.
-/

namespace XoDos

/-! ## Writing -/

structure ShellEnvironmentVariable where
  name : JavaString
  value : Option JavaString
  escaped : Bool
deriving DecidableEq

namespace ShellEnvironmentUtils

/-- `[a-zA-Z_]` -/
def nameStart (c : Nat) : Bool := (0x61 ≤ c ∧ c ≤ 0x7A) ∨ (0x41 ≤ c ∧ c ≤ 0x5A) ∨ c = 0x5F

/-- `[a-zA-Z0-9_]` -/
def namePart (c : Nat) : Bool := nameStart c ∨ (0x30 ≤ c ∧ c ≤ 0x39)

def isValidEnvironmentVariableName : Option JavaString → Bool
  | none => false
  | some [] => false
  | some (c :: rest) => (0 : Nat) ∉ c :: rest ∧ nameStart c ∧ rest.all namePart

def isValidEnvironmentVariableValue : Option JavaString → Bool
  | none => false
  | some value => (0 : Nat) ∉ value

def isValidEnvironmentVariableNameValuePair (name value : Option JavaString) : Bool :=
  isValidEnvironmentVariableName name && isValidEnvironmentVariableValue value

/-- The characters `"`, `` ` ``, `\` and `$`. -/
def special (c : Nat) : Bool := c = 0x22 ∨ c = 0x60 ∨ c = 0x5C ∨ c = 0x24

/-- `value.replaceAll("([\"`\\\\$])", "\\\\$1")` -/
def escape (value : JavaString) : JavaString :=
  value.flatMap fun c => if special c then [0x5C, c] else [c]

def variableLine (v : ShellEnvironmentVariable) : JavaString :=
  match v.value with
  | some value =>
    if isValidEnvironmentVariableNameValuePair (some v.name) (some value) then
      ascii "export " ++ v.name ++ ascii "=\"" ++ (if v.escaped then value else escape value) ++
        ascii "\"\n"
    else []
  | none => []

/-- The order of `ShellEnvironmentVariable.compareTo`. -/
def before (a b : ShellEnvironmentVariable) : Prop := a.name ≤ b.name

instance : DecidableRel before := fun a b => inferInstanceAs (Decidable (a.name ≤ b.name))

def convertEnvironmentListToDotEnvFile (environmentList : List ShellEnvironmentVariable) : JavaString :=
  (environmentList.insertionSort before).flatMap variableLine

/-- The entries of a map, in the order of its keys. -/
def convertEnvironmentMapToEnvironmentVariableList (environmentMap : List (JavaString × Option JavaString)) :
    List ShellEnvironmentVariable :=
  environmentMap.map fun (name, value) => ⟨name, value, false⟩

def convertEnvironmentToDotEnvFile (environmentMap : List (JavaString × Option JavaString)) : JavaString :=
  convertEnvironmentListToDotEnvFile (convertEnvironmentMapToEnvironmentVariableList environmentMap)

end ShellEnvironmentUtils

/-! ## Reading -/

namespace Shell

open ShellEnvironmentUtils

/-- What is between double quotes, and what follows them.  There must be no expansion. -/
def readQuoted : JavaString → Option (JavaString × JavaString)
  | [] => none
  | c :: rest =>
    if c = 0x22 then some ([], rest)
    else if c = 0x24 ∨ c = 0x60 then none
    else if c = 0x5C then
      match rest with
      | [] => none
      | d :: rest =>
        if d = 0x0A then readQuoted rest
        else (readQuoted rest).map fun (value, rest) =>
          ((if special d then [d] else [c, d]) ++ value, rest)
    else (readQuoted rest).map fun (value, rest) => (c :: value, rest)

/-- A line `export NAME="..."`. -/
def readLine (text : JavaString) : Option ((JavaString × JavaString) × JavaString) := do
  guard (ascii "export " <+: text)
  let text := text.drop 7
  let name := text.takeWhile (· ≠ 0x3D)
  guard (isValidEnvironmentVariableName (some name))
  let text := text.drop name.length
  guard (ascii "=\"" <+: text)
  let (value, text) ← readQuoted (text.drop 2)
  guard (ascii "\n" <+: text)
  return ((name, value), text.drop 1)

/-- At most `n` lines. -/
def readLines : Nat → JavaString → Option (List (JavaString × JavaString))
  | _, [] => some []
  | 0, _ => none
  | n + 1, text => do
    let (assignment, text) ← readLine text
    let assignments ← readLines n text
    return assignment :: assignments

/-- The assignments of a file that is nothing but such lines. -/
def readDotEnvFile (text : JavaString) : Option (List (JavaString × JavaString)) :=
  readLines text.length text

end Shell

namespace ShellEnvironmentUtils

open Shell

/-- What is escaped is read as it was. -/
theorem readQuoted_escape (value rest : JavaString) :
    readQuoted (escape value ++ 0x22 :: rest) = some (value, rest) := by
  induction value with
  | nil =>
    rw [readQuoted.eq_def]
    rfl
  | cons c value ih =>
    unfold escape at ih ⊢
    rw [List.flatMap_cons, List.append_assoc]
    by_cases hspecial : special c
    · have hne : c ≠ 0x0A := by
        rintro rfl
        cases hspecial
      rw [if_pos hspecial, List.cons_append, List.singleton_append, readQuoted]
      simp [hne, hspecial, ih]
    · have hplain : ¬c = 0x22 ∧ ¬c = 0x60 ∧ ¬c = 0x5C ∧ ¬c = 0x24 := by
        simpa [special] using hspecial
      obtain ⟨hquote, hback, hslash, hdollar⟩ := hplain
      rw [if_neg hspecial, List.singleton_append, readQuoted.eq_def]
      simp [hquote, hback, hslash, hdollar, ih]

theorem guard_bind {α : Type} {p : Prop} [Decidable p] (h : p) (f : Unit → Option α) :
    (guard p >>= f) = f () := by
  rw [guard, if_pos h]
  rfl

section Names

variable {name value rest : JavaString}

/-- There is no `=` in a name. -/
theorem notMem_name (h : isValidEnvironmentVariableName (some name) = true) : ∀ c ∈ name, c ≠ 0x3D := by
  cases name with
  | nil => simp
  | cons d name =>
    obtain ⟨-, hstart, hrest⟩ : (0 : Nat) ∉ d :: name ∧ nameStart d = true ∧ name.all namePart = true := by
      simpa [isValidEnvironmentVariableName] using h
    intro c hc
    rcases List.mem_cons.mp hc with rfl | hc
    · rintro rfl
      cases hstart
    · rintro rfl
      have hpart := List.all_eq_true.mp hrest _ hc
      cases hpart

theorem variableLine_eq {v : ShellEnvironmentVariable} (hvalue : v.value = some value)
    (hescaped : v.escaped = false)
    (h : isValidEnvironmentVariableNameValuePair (some v.name) (some value) = true) :
    variableLine v = ascii "export " ++ (v.name ++ (ascii "=\"" ++ (escape value ++ ascii "\"\n"))) := by
  rw [variableLine, hvalue]
  dsimp only
  rw [if_pos h, hescaped, if_neg (by simp)]
  simp only [List.append_assoc]

/-- A line is read as the variable that it was written from. -/
theorem readLine_line (h : isValidEnvironmentVariableName (some name) = true) :
    readLine (ascii "export " ++ (name ++ (ascii "=\"" ++ (escape value ++ ascii "\"\n"))) ++ rest) =
      some ((name, value), rest) := by
  have hexport : (ascii "export ").length = 7 := rfl
  have hequals : ascii "=\"" = [0x3D, 0x22] := rfl
  have hend : ascii "\"\n" = [0x22, 0x0A] := rfl
  have hname : (name ++ (0x3D :: 0x22 :: (escape value ++ 0x22 :: 0x0A :: rest))).takeWhile (· ≠ 0x3D) =
      name := by
    rw [List.takeWhile_append_of_pos (by simpa using notMem_name h)]
    simp
  have htext : ascii "export " ++ (name ++ (ascii "=\"" ++ (escape value ++ ascii "\"\n"))) ++ rest =
      ascii "export " ++ (name ++ (0x3D :: 0x22 :: (escape value ++ 0x22 :: 0x0A :: rest))) := by
    rw [hequals, hend]
    simp
  rw [htext, readLine, guard_bind (List.prefix_append _ _)]
  dsimp only
  rw [List.drop_left' hexport, hname, guard_bind h]
  have hopen : ascii "=\"" <+: 0x3D :: 0x22 :: (escape value ++ 0x22 :: 0x0A :: rest) := ⟨_, rfl⟩
  rw [List.drop_left, guard_bind hopen]
  have hnewline : ascii "\n" <+: 0x0A :: rest := ⟨rest, rfl⟩
  rw [List.drop_succ_cons, List.drop_succ_cons, List.drop_zero, readQuoted_escape,
    Option.bind_eq_bind, Option.bind_some]
  dsimp only
  rw [guard_bind hnewline]
  rfl

/-- The lines of some variables are read one after the other. -/
theorem readLines_lines {entries : List (JavaString × JavaString)} {n : Nat}
    (h : ∀ e ∈ entries, isValidEnvironmentVariableNameValuePair (some e.1) (some e.2) = true)
    (hn : entries.length ≤ n) :
    readLines n (entries.flatMap fun e => variableLine ⟨e.1, some e.2, false⟩) = some entries := by
  induction entries generalizing n with
  | nil => cases n <;> rfl
  | cons e entries ih =>
    cases n with
    | zero => cases hn
    | succ n =>
      have he := h e (List.mem_cons_self ..)
      have hname : isValidEnvironmentVariableName (some e.1) = true := by
        rw [isValidEnvironmentVariableNameValuePair, Bool.and_eq_true] at he
        exact he.1
      have hrest := ih (fun e' he' => h e' (List.mem_cons_of_mem _ he')) (Nat.le_of_succ_le_succ hn)
      rw [List.flatMap_cons, variableLine_eq rfl rfl he]
      have hline := @readLine_line e.1 e.2
        (entries.flatMap fun e => variableLine ⟨e.1, some e.2, false⟩) hname
      obtain ⟨c, text, htext⟩ : ∃ c text, ascii "export " ++ (e.1 ++ (ascii "=\"" ++
          (escape e.2 ++ ascii "\"\n"))) ++ (entries.flatMap fun e => variableLine ⟨e.1, some e.2, false⟩) =
          c :: text := ⟨_, _, rfl⟩
      rw [htext, readLines.eq_3 _ _ (by simp), ← htext, hline, Option.bind_eq_bind, Option.bind_some]
      dsimp only
      rw [hrest]
      rfl

end Names

theorem length_lines {entries : List (JavaString × JavaString)}
    (h : ∀ e ∈ entries, isValidEnvironmentVariableNameValuePair (some e.1) (some e.2) = true) :
    entries.length ≤ (entries.flatMap fun e => variableLine ⟨e.1, some e.2, false⟩).length := by
  induction entries with
  | nil => exact Nat.zero_le _
  | cons e entries ih =>
    have hrest := ih fun e' he' => h e' (List.mem_cons_of_mem _ he')
    have hexport : (ascii "export ").length = 7 := rfl
    rw [List.flatMap_cons, variableLine_eq rfl rfl (h e (List.mem_cons_self ..)), List.length_cons,
      List.length_append, List.length_append, hexport]
    omega

/-- Sorted variables are those of the sorted entries. -/
theorem exists_sorted (environmentMap : List (JavaString × JavaString)) :
    ∃ entries : List (JavaString × JavaString), entries.Perm environmentMap ∧
      (environmentMap.map fun e => (⟨e.1, some e.2, false⟩ : ShellEnvironmentVariable)).insertionSort before =
        entries.map fun e => ⟨e.1, some e.2, false⟩ := by
  have hperm := List.perm_insertionSort before
    (environmentMap.map fun e => (⟨e.1, some e.2, false⟩ : ShellEnvironmentVariable))
  refine ⟨((environmentMap.map fun e => (⟨e.1, some e.2, false⟩ : ShellEnvironmentVariable)).insertionSort
    before).map fun v => (v.name, v.value.getD []), ?_, ?_⟩
  · have hmap := hperm.map fun v => (v.name, v.value.getD [])
    rwa [List.map_map, show ((fun v : ShellEnvironmentVariable => (v.name, v.value.getD [])) ∘
      fun e : JavaString × JavaString => ⟨e.1, some e.2, false⟩) = id from rfl, List.map_id] at hmap
  · rw [List.map_map]
    symm
    apply (List.map_congr_left _).trans (List.map_id _)
    intro v hv
    obtain ⟨e, -, rfl⟩ := List.mem_map.mp (hperm.mem_iff.mp hv)
    rfl

/-- The file of a map of valid variables is read as exactly its entries, each of them once. -/
theorem dotEnvFile_read (environmentMap : List (JavaString × JavaString))
    (hkeys : (environmentMap.map Prod.fst).Nodup)
    (h : ∀ e ∈ environmentMap, isValidEnvironmentVariableNameValuePair (some e.1) (some e.2) = true) :
    ∃ assignments, readDotEnvFile (convertEnvironmentToDotEnvFile
        (environmentMap.map fun e => (e.1, some e.2))) = some assignments ∧
      assignments.Perm environmentMap ∧ (assignments.map Prod.fst).Nodup := by
  obtain ⟨entries, hperm, hsorted⟩ := exists_sorted environmentMap
  have hvalid : ∀ e ∈ entries,
      isValidEnvironmentVariableNameValuePair (some e.1) (some e.2) = true :=
    fun e he => h e (hperm.mem_iff.mp he)
  refine ⟨entries, ?_, hperm, (hperm.map Prod.fst).nodup_iff.mpr hkeys⟩
  have htext : convertEnvironmentToDotEnvFile (environmentMap.map fun e => (e.1, some e.2)) =
      entries.flatMap fun e => variableLine ⟨e.1, some e.2, false⟩ := by
    rw [convertEnvironmentToDotEnvFile, convertEnvironmentListToDotEnvFile,
      convertEnvironmentMapToEnvironmentVariableList, List.map_map]
    change ((environmentMap.map fun e =>
      (⟨e.1, some e.2, false⟩ : ShellEnvironmentVariable)).insertionSort before).flatMap variableLine = _
    rw [hsorted, List.flatMap_map]
  rw [htext]
  exact readLines_lines hvalid (length_lines hvalid)

/-- A value of all the characters that the shell looks at. -/
theorem dotEnvFile_special :
    ∃ assignments, readDotEnvFile (convertEnvironmentToDotEnvFile
        [(ascii "B", some (ascii "\\\"$`\\\n")), (ascii "A", some [])]) = some assignments ∧
      assignments.Perm [(ascii "B", ascii "\\\"$`\\\n"), (ascii "A", [])] ∧
      (assignments.map Prod.fst).Nodup :=
  dotEnvFile_read [(ascii "B", ascii "\\\"$`\\\n"), (ascii "A", [])] (by decide) (by decide)

end ShellEnvironmentUtils

end XoDos
