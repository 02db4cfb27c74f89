import XoDos.DirectoryTree
import XoDos.JavaText
import Mathlib.Data.List.DropRight

/-!
# Paths in directories

`isPathInDirPaths` compares texts: the canonical path is to begin with the text of the directory, which has been
normalised by three replacements.  The names in the paths are compared here.
-/

namespace XoDos

open PathText

namespace DirPaths

def dot : Nat := 0x2E

/-- `replaceAll("/+", "/")` -/
def collapse : JavaString → JavaString
  | [] => []
  | c :: rest => if c = slash ∧ rest.head? = some slash then collapse rest else c :: collapse rest

/-- `replaceAll("/+$", "")` of a text that ends with a slash. -/
def dropTrailing (text : JavaString) : JavaString := text.rdropWhile (· = slash)

def normalizePath : Option JavaString → Option JavaString
  | none => none
  | some path =>
    let path := collapse path
    let path := replace [dot, slash] [] path
    some (if path.getLast? = some slash then dropTrailing path else path)

/-- A string that is concatenated. -/
def concatenated (text : Option JavaString) : JavaString := text.getD (ascii "null")

section

variable (getCanonicalPath : JavaString → Option JavaString)

/-- `getCanonicalPath` is none where it throws. -/
def isPathInDirPaths (path : Option JavaString) (dirPaths : Option (List (Option JavaString))) (ensureUnder : Bool) :
    Bool :=
  match path, dirPaths with
  | some (c :: text), some dirPaths =>
    match getCanonicalPath (c :: text) with
    | none => false
    | some path => dirPaths.any fun dirPath =>
      let normalizedDirPath := normalizePath dirPath
      if ensureUnder then
        some path ≠ normalizedDirPath ∧ FileTree.startsWith path (concatenated normalizedDirPath ++ [slash])
      else FileTree.startsWith path (concatenated normalizedDirPath ++ [slash])
  | _, _ => false

def isPathInDirPath (path dirPath : Option JavaString) (ensureUnder : Bool) : Bool :=
  isPathInDirPaths getCanonicalPath path (some [dirPath]) ensureUnder

end

/-! ## Names of a text -/

/-- What a text has before, between and behind its slashes. -/
def fields : JavaString → List JavaString
  | [] => [[]]
  | c :: rest =>
    if c = slash then [] :: fields rest
    else match fields rest with
      | [] => [[c]]
      | field :: more => (c :: field) :: more

theorem fields_ne_nil (text : JavaString) : fields text ≠ [] := by
  cases text with
  | nil => simp [fields]
  | cons c rest =>
    rw [fields]
    split_ifs
    · simp
    · split <;> simp

theorem render_fields (text : JavaString) : render (fields text) = slash :: text := by
  induction text with
  | nil => rfl
  | cons c rest ih =>
    rw [fields]
    split_ifs with hc
    · rw [render_cons, ih, hc, List.nil_append]
    · rcases hfields : fields rest with - | ⟨field, more⟩
      · exact absurd hfields (fields_ne_nil rest)
      · rw [hfields, render_cons] at ih
        simp only [render_cons, List.cons_append, (List.cons.inj ih).2]

theorem fields_noSlash (text : JavaString) : ∀ field ∈ fields text, slash ∉ field := by
  induction text with
  | nil => simp [fields]
  | cons c rest ih =>
    rw [fields]
    split_ifs with hc
    · simpa using ih
    · rcases hfields : fields rest with - | ⟨field, more⟩
      · simp [Ne.symm hc]
      · rw [hfields] at ih
        intro f hf
        rcases List.mem_cons.mp hf with rfl | hf
        · have hfield := ih field List.mem_cons_self
          simp [Ne.symm hc, hfield]
        · exact ih f (List.mem_cons_of_mem field hf)

/-- The names of the components of an absolute path, but for those that mean the directory itself. -/
def components (path : JavaString) : List JavaString := (fields path).filter fun field => field ≠ [] ∧ field ≠ [dot]

/-- No name in front of a slash ends in a dot, unless it is one, and the last name is no dot. -/
def Plain (path : JavaString) : Prop :=
  (∀ field ∈ (fields path).dropLast, field ≠ [dot] → field.getLast? ≠ some dot) ∧ (fields path).getLast? ≠ some [dot]

/-! ## Normalising -/

theorem collapse_name {name : JavaString} (hname : slash ∉ name) (rest : JavaString) :
    collapse (name ++ rest) = name ++ collapse rest := by
  induction name with
  | nil => rfl
  | cons c name ih =>
    rw [List.mem_cons, not_or] at hname
    rw [List.cons_append, collapse, if_neg (fun h => hname.1 h.1.symm), ih hname.2]
    rfl

/-- Runs of slashes are collapsed: the empty fields are left out, but for the last one. -/
theorem collapse_render {init : List JavaString} {last : JavaString} (hinit : ∀ field ∈ init, slash ∉ field)
    (hlast : slash ∉ last) :
    collapse (render init ++ slash :: last) = render (init.filter (· ≠ [])) ++ slash :: last := by
  induction init with
  | nil =>
    have hhead : last.head? ≠ some slash := fun h => hlast (List.mem_of_mem_head? h)
    have hname := collapse_name hlast []
    rw [List.append_nil, collapse, List.append_nil] at hname
    rw [List.filter_nil, render_nil, List.nil_append, collapse, if_neg (fun h => hhead h.2), hname]
  | cons field init ih =>
    have hfield := hinit field List.mem_cons_self
    have ih := ih (fun f hf => hinit f (List.mem_cons_of_mem field hf))
    by_cases hnil : field = []
    · subst hnil
      have hnext : (render init ++ slash :: last).head? = some slash := by
        rcases init with - | ⟨f, init⟩
        · rfl
        · rfl
      rw [List.filter_cons_of_neg (by simp), render_cons, List.nil_append, List.cons_append, collapse,
        if_pos ⟨rfl, hnext⟩, ih]
    · have hhead : (field ++ (render init ++ slash :: last)).head? ≠ some slash := by
        rcases field with - | ⟨c, field⟩
        · exact absurd rfl hnil
        · rw [List.cons_append, List.head?_cons]
          intro h
          rw [Option.some.inj h] at hfield
          exact hfield List.mem_cons_self
      rw [List.filter_cons_of_pos (by simpa using hnil), render_cons, render_cons, List.cons_append,
        List.append_assoc, collapse, if_neg (fun h => hhead h.2), collapse_name hfield, ih]
      simp

/-- A name that does not end in a dot is kept with the slash behind it. -/
theorem undot_name {name : JavaString} (hname : slash ∉ name) (hdot : name.getLast? ≠ some dot) (rest : JavaString) :
    replace [dot, slash] [] (name ++ slash :: rest) = name ++ replace [dot, slash] [] (slash :: rest) := by
  induction name with
  | nil => rfl
  | cons c name ih =>
    rw [List.mem_cons, not_or] at hname
    rw [List.cons_append, replace_pair_miss]
    · rcases name with - | ⟨d, name⟩
      · rfl
      · rw [ih hname.2 (by rwa [List.getLast?_cons_cons] at hdot)]
        rfl
    · rintro rfl hbegins
      rcases name with - | ⟨d, name⟩
      · exact hdot rfl
      · rw [List.cons_append, List.cons_prefix_cons] at hbegins
        exact hname.2 (by rw [hbegins.1]; exact List.mem_cons_self)

theorem undot_slash (rest : JavaString) :
    replace [dot, slash] [] (slash :: rest) = slash :: replace [dot, slash] [] rest :=
  replace_pair_miss [] (fun h => absurd h (by decide))

theorem undot_last {last : JavaString} (hlast : slash ∉ last) : replace [dot, slash] [] last = last := by
  induction last with
  | nil => rfl
  | cons c last ih =>
    rw [List.mem_cons, not_or] at hlast
    rw [replace_pair_miss, ih hlast.2]
    rintro - hbegins
    exact hlast.2 (hbegins.subset (List.mem_singleton_self slash))

/-- The names that are dots are left out. -/
theorem undot_render {names : List JavaString} {last : JavaString} (hnames : ∀ name ∈ names, slash ∉ name)
    (hdot : ∀ name ∈ names, name ≠ [dot] → name.getLast? ≠ some dot) (hlast : slash ∉ last) :
    replace [dot, slash] [] (render names ++ slash :: last) = render (names.filter (· ≠ [dot])) ++ slash :: last := by
  induction names with
  | nil => rw [render_nil, List.nil_append, undot_slash, undot_last hlast, List.filter_nil, render_nil, List.nil_append]
  | cons name names ih =>
    have ih := ih (fun n hn => hnames n (List.mem_cons_of_mem name hn))
      (fun n hn => hdot n (List.mem_cons_of_mem name hn))
    have hrest : ∃ rest, render names ++ slash :: last = slash :: rest := by
      rcases names with - | ⟨n, names⟩
      · exact ⟨last, rfl⟩
      · exact ⟨_, rfl⟩
    rcases hrest with ⟨rest, hrest⟩
    rw [render_cons, List.cons_append, List.append_assoc, undot_slash]
    by_cases hname : name = [dot]
    · rw [List.filter_cons_of_neg (by simpa using hname), ← ih, hrest, hname, List.cons_append, List.nil_append,
        replace_pair_hit, List.nil_append, undot_slash]
    · rw [List.filter_cons_of_pos (by simpa using hname), hrest,
        undot_name (hnames name List.mem_cons_self) (hdot name List.mem_cons_self hname), ← hrest, ih, render_cons]
      simp

theorem getLast_render {names : List JavaString} (hnames : Names names) : (render names).getLast? ≠ some slash := by
  rcases List.eq_nil_or_concat' names with rfl | ⟨init, name, rfl⟩
  · simp
  · have hname := hnames name (by simp)
    rw [render_append, render_cons, render_nil, List.append_nil, List.getLast?_append_of_ne_nil _ (by simp)]
    rcases List.eq_nil_or_concat' name with rfl | ⟨chars, c, rfl⟩
    · exact absurd rfl hname.ne_nil
    · rw [← List.cons_append, List.getLast?_concat]
      intro h
      exact hname.noSlash (by simp [Option.some.inj h])

theorem dropTrailing_render {names : List JavaString} (hnames : Names names) :
    dropTrailing (render names ++ [slash]) = render names := by
  rw [dropTrailing, List.rdropWhile_concat_pos _ _ _ (by simp), List.rdropWhile_eq_self_iff]
  intro hne hlast
  apply getLast_render hnames
  rw [List.getLast?_eq_some_getLast hne, of_decide_eq_true hlast]

theorem names_components (path : JavaString) : Names (components path) := by
  intro name hname
  rw [components, List.mem_filter, decide_eq_true_eq] at hname
  exact ⟨hname.2.1, fields_noSlash path name hname.1⟩

/-- The normalised text of a directory is that of its components. -/
theorem normalizePath_eq {path : JavaString} (h : Plain (slash :: path)) :
    normalizePath (some (slash :: path)) = some (render (components (slash :: path))) := by
  rcases List.eq_nil_or_concat' (fields path) with hnil | ⟨init, last, hfields⟩
  · exact absurd hnil (fields_ne_nil path)
  · have hall : fields (slash :: path) = ([] :: init) ++ [last] := by
      rw [fields, if_pos rfl, hfields]
      rfl
    have hslash := fields_noSlash path
    rw [hfields] at hslash
    have htext : slash :: path = render init ++ slash :: last := by
      rw [← render_fields, hfields, render_append, render_cons, render_nil, List.append_nil]
    rw [Plain, hall, List.dropLast_concat, List.getLast?_concat] at h
    have hcollapsed : collapse (slash :: path) = render (init.filter (· ≠ [])) ++ slash :: last := by
      rw [htext]
      exact collapse_render (fun f hf => hslash f (by simp [hf])) (hslash last (by simp))
    -- `./` is taken out of the text, not of its components: that is right only if no name ends in a dot.
    have hreplaced : replace [dot, slash] [] (collapse (slash :: path)) =
        render ((init.filter (· ≠ [])).filter (· ≠ [dot])) ++ slash :: last := by
      rw [hcollapsed]
      apply undot_render
      · intro name hname
        exact hslash name (by simp [(List.mem_filter.mp hname).1])
      · intro name hname
        exact h.1 name (List.mem_cons_of_mem _ (List.mem_filter.mp hname).1)
      · exact hslash last (by simp)
    have hcomponents : components (slash :: path) = ((init.filter (· ≠ [])).filter (· ≠ [dot])) ++
        if last = [] then [] else [last] := by
      have hlast : last ≠ [dot] := fun heq => h.2 (congrArg some heq)
      rw [components, hall, List.filter_append, List.filter_cons_of_neg (by simp), List.filter_filter]
      congr 1
      · apply List.filter_congr
        intro f _
        simp [Bool.and_comm]
      · by_cases hnil : last = []
        · simp [hnil]
        · simp [hnil, hlast]
    have hnames := names_components (slash :: path)
    rw [hcomponents] at hnames ⊢
    rw [normalizePath, hreplaced]
    by_cases hnil : last = []
    · subst hnil
      rw [if_pos rfl, List.append_nil] at hnames
      rw [if_pos (by simp), if_pos rfl, List.append_nil, dropTrailing_render hnames]
    · rw [if_neg hnil] at hnames
      have hrender : render ((init.filter (· ≠ [])).filter (· ≠ [dot])) ++ slash :: last =
          render (((init.filter (· ≠ [])).filter (· ≠ [dot])) ++ [last]) := by
        rw [render_append, render_cons, render_nil, List.append_nil]
      rw [if_neg hnil, hrender, if_neg (getLast_render hnames)]

/-- A path is below a directory, or both are the root. -/
def InDirectory (directory path : List JavaString) : Prop :=
  (directory <+: path ∧ directory ≠ path) ∨ (directory = [] ∧ path = [])

theorem startsWith_iff {directory path : List JavaString} (hdirectory : Names directory) (hpath : Names path) :
    FileTree.startsWith (absolute path) (render directory ++ [slash]) = true ↔ InDirectory directory path := by
  rw [FileTree.startsWith, List.isPrefixOf_iff_prefix, InDirectory]
  by_cases hroot : directory = []
  · subst hroot
    by_cases hnil : path = []
    · subst hnil
      simp [absolute]
    · rcases path with - | ⟨name, path⟩
      · exact absurd rfl hnil
      · simp [absolute, render_cons]
  · rw [← absolute_of_ne_nil hroot, absolute_prefix_iff hroot hdirectory hpath]
    simp [hroot]

/-- A canonical path is in one of the directories if and only if its components begin with those of the directory
and are more, whether or not it is to be under the directory.  Only the root is in itself. -/
theorem isPathInDirPaths_iff {getCanonicalPath : JavaString → Option JavaString} {path : JavaString}
    {names : List JavaString} (hpath : path ≠ []) (hnames : Names names)
    (hcanonical : getCanonicalPath path = some (absolute names)) {dirPaths : List JavaString}
    (hdirs : ∀ d ∈ dirPaths, Plain (slash :: d)) (ensureUnder : Bool) :
    isPathInDirPaths getCanonicalPath (some path) (some (dirPaths.map fun d => some (slash :: d))) ensureUnder = true ↔
      ∃ d ∈ dirPaths, InDirectory (components (slash :: d)) names := by
  rcases List.exists_cons_of_ne_nil hpath with ⟨c, text, rfl⟩
  rw [isPathInDirPaths, hcanonical]
  simp only [List.any_map, List.any_eq_true, Function.comp_apply]
  apply exists_congr
  intro d
  refine and_congr_right (fun hd => ?_)
  have hstarts := startsWith_iff (names_components (slash :: d)) hnames
  rw [normalizePath_eq (hdirs d hd), concatenated, Option.getD_some]
  cases ensureUnder with
  | false => simpa using hstarts
  | true =>
    rw [if_pos rfl, decide_eq_true_eq, hstarts, and_iff_right_iff_imp]
    intro hin heq
    rw [← hstarts, ← Option.some.inj heq, FileTree.startsWith, List.isPrefixOf_iff_prefix] at hin
    have hle := hin.length_le
    simp at hle

/-- A directory with a dot for a component, an empty one and a slash at the end has `/a/b` in it, and not `/ab`. -/
theorem isPathInDirPaths_iff_dots :
    isPathInDirPaths some (some (absolute [ascii "a", ascii "b"]))
        (some ([ascii ".//a/./"].map fun d => some (slash :: d))) true = true ∧
      isPathInDirPaths some (some (absolute [ascii "ab"]))
        (some ([ascii ".//a/./"].map fun d => some (slash :: d))) true = false := by
  have hnames : Names [ascii "a", ascii "b"] := by
    intro n hn
    fin_cases hn <;> exact ⟨by decide, by decide⟩
  have hlonger : Names [ascii "ab"] := by
    intro n hn
    obtain rfl := List.mem_singleton.mp hn
    exact ⟨by decide, by decide⟩
  have hplain : ∀ d ∈ [ascii ".//a/./"], Plain (slash :: d) := by
    intro d hd
    obtain rfl := List.mem_singleton.mp hd
    exact ⟨by decide, by decide⟩
  constructor
  · refine (isPathInDirPaths_iff (absolute_ne_nil _) hnames rfl hplain true).mpr ?_
    exact ⟨_, List.mem_singleton_self _, .inl ⟨by decide, by decide⟩⟩
  · rw [← Bool.not_eq_true, isPathInDirPaths_iff (absolute_ne_nil _) hlonger rfl hplain true]
    rintro ⟨d, hd, hin⟩
    obtain rfl := List.mem_singleton.mp hd
    rcases hin with ⟨hpre, -⟩ | ⟨hnil, -⟩
    · revert hpre
      decide
    · revert hnil
      decide

/-- A dot at the end of a name is lost with the slash behind it. -/
example : isPathInDirPath (fun path => some path) (some (ascii "/ab/c")) (some (ascii "/a./b")) true = true := by decide

end DirPaths

end XoDos
