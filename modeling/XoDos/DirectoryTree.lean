import XoDos.Java
import XoDos.PathText

/-!
# Directories that count as empty

`validateDirectoryFileEmptyOrOnlyContainsSpecificFiles` goes through a tree of files.  What it asks of every file
is compared with what is to hold of the leaves.
-/

namespace XoDos

open PathText

/-- The file types that the check tells apart. -/
inductive FileType where
  | noExist
  | directory
  | other
deriving DecidableEq, Repr

/-- The `Errno`s of the check. -/
inductive DirectoryErrno where
  | nullOrEmptyParameter
  | nonDirectoryFileFound
  | fileNotFoundAtPath
  | nonEmptyDirectoryFile
deriving DecidableEq, Repr

/-- An error with the arguments of its message, and with its label. -/
structure DirectoryError where
  errno : DirectoryErrno
  arguments : List JavaString
  label : Option JavaString := none
deriving DecidableEq, Repr

namespace FileTree

mutual

/-- A file as `lstat` sees it.  A symlink has the paths below it that lead to a file, and a directory that cannot
be read cannot be listed. -/
inductive Node where
  | file
  | symlink (below : List JavaString → Bool)
  | directory (readable : Bool) (subFiles : Forest)

/-- The files of a directory with their names, in the order of `listFiles`. -/
inductive Forest where
  | nil
  | cons (name : JavaString) (node : Node) (others : Forest)

end

/-- `getFileType(path, false)` -/
def fileType : Option Node → FileType
  | none => .noExist
  | some (.directory _ _) => .directory
  | some _ => .other

mutual

/-- Whether there is a file at a path below this one. -/
def Node.existsAt : Node → List JavaString → Bool
  | _, [] => true
  | .directory _ subFiles, name :: rest => subFiles.existsAt name rest
  | .symlink below, names => below names
  | .file, _ => false

def Forest.existsAt : Forest → JavaString → List JavaString → Bool
  | .nil, _, _ => false
  | .cons name node others, name', rest =>
    if name = name' then node.existsAt rest else others.existsAt name' rest

end

def Forest.names : Forest → List JavaString
  | .nil => []
  | .cons name _ others => name :: others.names

mutual

/-- Every directory has its files under different names. -/
def Node.WellFormed : Node → Prop
  | .directory _ subFiles => subFiles.WellFormed
  | _ => True

def Forest.WellFormed : Forest → Prop
  | .nil => True
  | .cons name node others => Name name ∧ name ∉ others.names ∧ node.WellFormed ∧ others.WellFormed

end

mutual

/-- The files that can be found and have nothing below them that can be, with their paths. -/
def Node.leaves : Node → List (List JavaString × Node)
  | .directory true (.cons name node others) => (Forest.cons name node others).leaves
  | node => [([], node)]

def Forest.leaves : Forest → List (List JavaString × Node)
  | .nil => []
  | .cons name node others => (node.leaves.map fun leaf => (name :: leaf.1, leaf.2)) ++ others.leaves

end

/-! ## The code -/

section

variable (fileExists : JavaString → Bool) (ignoredSubFilePaths : List JavaString)

/-- The path of a file of a directory. -/
def subFilePath (directory name : JavaString) : JavaString :=
  (if directory = [slash] then [] else directory) ++ slash :: name

/-- `startsWith` -/
def startsWith (text start : JavaString) : Bool := start.isPrefixOf text

/-- Whether the sub file is ignored or a parent of an ignored file that exists. -/
def passes (path : JavaString) : Bool :=
  ignoredSubFilePaths.contains path ||
    ignoredSubFilePaths.any fun ignored => startsWith ignored (path ++ [slash]) && fileExists ignored

mutual

def Forest.nonIgnoredSubFileExists (directory : JavaString) : Forest → Bool
  | .nil => false
  | .cons name node others =>
    if passes fileExists ignoredSubFilePaths (subFilePath directory name) then
      node.nonIgnoredBelow (subFilePath directory name) || others.nonIgnoredSubFileExists directory
    else true

/-- The same for the files of a sub file, if it is a directory.  `listFiles` returns null where it cannot read. -/
def Node.nonIgnoredBelow (path : JavaString) : Node → Bool
  | .directory true subFiles => subFiles.nonIgnoredSubFileExists path
  | _ => false

end

/-- `listFiles`, or null. -/
def Node.listFiles : Node → Option Forest
  | .directory true subFiles => some subFiles
  | _ => none

/-- `root` is what there is at the path. -/
def validateDirectoryFileEmptyOrOnlyContainsSpecificFiles (label filePath : Option JavaString)
    (ignoredSubFilePaths : Option (List JavaString)) (ignoreNonExistentFile : Bool) (root : Option Node) :
    Option DirectoryError :=
  let label := match label with
    | none | some [] => []
    | some label => label ++ ascii " "
  match filePath with
  | none | some [] =>
    some ⟨.nullOrEmptyParameter, [label ++ ascii "file path", ascii "isDirectoryFileEmptyOrOnlyContainsSpecificFiles"], none⟩
  | some filePath =>
    match root with
    | none =>
      if ignoreNonExistentFile then none
      else
        let label := label ++ ascii "directory to check if is empty or only contains specific files"
        some ⟨.fileNotFoundAtPath, [label, filePath], some label⟩
    | some node =>
      if fileType root ≠ .directory then
        some ⟨.nonDirectoryFileFound, [label ++ ascii "directory", filePath], some (label ++ ascii "directory")⟩
      else
        match node.listFiles with
        | none | some .nil => none
        | some subFiles =>
          match ignoredSubFilePaths with
          | none | some [] => some ⟨.nonEmptyDirectoryFile, [label, filePath], none⟩
          | some ignored =>
            if subFiles.nonIgnoredSubFileExists fileExists ignored filePath then
              some ⟨.nonEmptyDirectoryFile, [label, filePath], none⟩
            else none

end

/-! ## Leaves -/

/-- A leaf that is ignored, or through which an ignored file can be reached: a symlink or a directory that cannot
be listed. -/
def Harmless (ignored : List (List JavaString)) (path : List JavaString) (leaf : Node) : Prop :=
  path ∈ ignored ∨ ∃ rest, rest ≠ [] ∧ path ++ rest ∈ ignored ∧ leaf.existsAt rest = true

theorem Node.existsAt_nil (node : Node) : node.existsAt [] = true := by
  cases node <;> rfl

theorem Forest.existsAt_of_notMem (forest : Forest) {name : JavaString} (h : name ∉ forest.names)
    (rest : List JavaString) : forest.existsAt name rest = false := by
  cases forest with
  | nil => rfl
  | cons n node others =>
    rw [Forest.names, List.mem_cons, not_or] at h
    rw [Forest.existsAt, if_neg (fun heq => h.1 heq.symm)]
    exact Forest.existsAt_of_notMem others h.2 rest

mutual

theorem Node.leaves_ne_nil : (node : Node) → node.leaves ≠ []
  | .file => by simp [Node.leaves]
  | .symlink below => by simp [Node.leaves]
  | .directory true .nil => by simp [Node.leaves]
  | .directory false subFiles => by simp [Node.leaves]
  | .directory true (.cons name node others) => by
    have h := Node.leaves_ne_nil node
    simp [Node.leaves, Forest.leaves, h]

end

mutual

/-- A leaf is found at its path. -/
theorem Node.existsAt_leaf : (node : Node) → node.WellFormed → ∀ leaf ∈ node.leaves, ∀ rest,
    node.existsAt (leaf.1 ++ rest) = leaf.2.existsAt rest
  | .file => by simp [Node.leaves]
  | .symlink below => by simp [Node.leaves]
  | .directory true .nil => by simp [Node.leaves]
  | .directory false subFiles => by simp [Node.leaves]
  | .directory true (.cons name node others) => by
    intro h leaf hleaf rest
    rcases Forest.existsAt_leaf (.cons name node others) h leaf hleaf with ⟨name', path, hpath, -, hexists⟩
    rw [hpath, List.cons_append, Node.existsAt, hexists]

theorem Forest.existsAt_leaf : (forest : Forest) → forest.WellFormed → ∀ leaf ∈ forest.leaves,
    ∃ name path, leaf.1 = name :: path ∧ name ∈ forest.names ∧
      ∀ rest, forest.existsAt name (path ++ rest) = leaf.2.existsAt rest
  | .nil => by simp [Forest.leaves]
  | .cons name node others => by
    rintro ⟨-, hname, hnode, hothers⟩ leaf hleaf
    rw [Forest.leaves, List.mem_append, List.mem_map] at hleaf
    rcases hleaf with ⟨leaf, hleaf, rfl⟩ | hleaf
    · refine ⟨name, leaf.1, rfl, List.mem_cons_self, ?_⟩
      intro rest
      rw [Forest.existsAt, if_pos rfl, Node.existsAt_leaf node hnode leaf hleaf]
    · rcases Forest.existsAt_leaf others hothers leaf hleaf with ⟨name', path, hpath, hmem, hexists⟩
      refine ⟨name', path, hpath, List.mem_cons_of_mem name hmem, ?_⟩
      intro rest
      have hne : name ≠ name' := by
        rintro rfl
        exact hname hmem
      rw [Forest.existsAt, if_neg hne, hexists]

end

section

variable {fileExists : JavaString → Bool} {ignored : List (List JavaString)}

theorem subFilePath_absolute (base : List JavaString) (name : JavaString) (hbase : Names base) :
    subFilePath (absolute base) name = absolute (base ++ [name]) := by
  rw [absolute_of_ne_nil (by simp : base ++ [name] ≠ []), render_append, subFilePath]
  by_cases hnil : base = []
  · subst hnil
    simp [absolute, render]
  · rw [absolute_of_ne_nil hnil, if_neg (render_ne_slash hbase)]
    simp [render]

theorem passes_iff {path : List JavaString} (hignored : ∀ i ∈ ignored, Names i) (hne : path ≠ []) (hpath : Names path) :
    passes fileExists (ignored.map absolute) (absolute path) = true ↔ path ∈ ignored ∨
      ∃ rest, rest ≠ [] ∧ path ++ rest ∈ ignored ∧ fileExists (absolute (path ++ rest)) = true := by
  have hmem : absolute path ∈ ignored.map absolute ↔ path ∈ ignored := by
    constructor
    · intro h
      rcases List.mem_map.mp h with ⟨i, hi, heq⟩
      rwa [← absolute_injective (hignored i hi) hpath heq]
    · exact List.mem_map_of_mem
  rw [passes, Bool.or_eq_true, List.contains_iff_mem, hmem, List.any_map, List.any_eq_true]
  apply or_congr_right
  constructor
  · rintro ⟨i, hi, hboth⟩
    rw [Function.comp_apply, Bool.and_eq_true, startsWith, List.isPrefixOf_iff_prefix,
      absolute_prefix_iff hne hpath (hignored i hi)] at hboth
    rcases hboth with ⟨⟨⟨rest, rfl⟩, hnot⟩, hexists⟩
    refine ⟨rest, ?_, hi, hexists⟩
    rintro rfl
    exact hnot (List.append_nil path).symm
  · rintro ⟨rest, hrest, hi, hexists⟩
    refine ⟨path ++ rest, hi, ?_⟩
    rw [Function.comp_apply, Bool.and_eq_true, startsWith, List.isPrefixOf_iff_prefix,
      absolute_prefix_iff hne hpath (hignored _ hi)]
    refine ⟨⟨List.prefix_append path rest, ?_⟩, hexists⟩
    intro heq
    exact hrest (List.self_eq_append_right.mp heq)

mutual

/-- A file is passed and so is all that is below it, if and only if its leaves are harmless. -/
theorem Node.nonIgnoredBelow_iff (hignored : ∀ i ∈ ignored, Names i) : (node : Node) → node.WellFormed →
    ∀ base, Names base → (∀ rest, rest ≠ [] → base ++ rest ∈ ignored →
      fileExists (absolute (base ++ rest)) = node.existsAt rest) →
    ((Harmless ignored base node ∧
      node.nonIgnoredBelow fileExists (ignored.map absolute) (absolute base) = false) ↔
        ∀ leaf ∈ node.leaves, Harmless ignored (base ++ leaf.1) leaf.2)
  | .file => by
    intros
    simp [Node.leaves, Node.nonIgnoredBelow]
  | .symlink below => by
    intros
    simp [Node.leaves, Node.nonIgnoredBelow]
  | .directory true .nil => by
    intros
    simp [Node.leaves, Node.nonIgnoredBelow, Forest.nonIgnoredSubFileExists]
  | .directory false subFiles => by
    intros
    simp [Node.leaves, Node.nonIgnoredBelow]
  | .directory true (.cons name node others) => by
    intro h base hbase hexists
    have hforest := Forest.nonIgnoredSubFileExists_iff hignored (.cons name node others) h base hbase
      (fun name' _ rest hi => hexists (name' :: rest) (List.cons_ne_nil _ _) hi)
    rw [Node.leaves, Node.nonIgnoredBelow, ← hforest, and_iff_right_iff_imp, hforest]
    intro hleaves
    -- A directory that can be listed has a leaf below it.
    rcases List.exists_mem_of_ne_nil _ (Node.leaves_ne_nil (.directory true (.cons name node others))) with ⟨leaf, hleaf⟩
    have hbelow := Node.existsAt_leaf (.directory true (.cons name node others)) h leaf hleaf
    rw [Node.leaves] at hleaf
    rcases Forest.existsAt_leaf (.cons name node others) h leaf hleaf with ⟨name', path, hpath, -, -⟩
    rcases hleaves leaf hleaf with hi | ⟨rest, hrest, hi, hleafRest⟩
    · refine Or.inr ⟨leaf.1, by simp [hpath], hi, ?_⟩
      have hself := hbelow []
      rwa [List.append_nil, Node.existsAt_nil] at hself
    · refine Or.inr ⟨leaf.1 ++ rest, by simp [hrest], by rwa [← List.append_assoc], ?_⟩
      rw [hbelow, hleafRest]

theorem Forest.nonIgnoredSubFileExists_iff (hignored : ∀ i ∈ ignored, Names i) : (forest : Forest) →
    forest.WellFormed → ∀ base, Names base →
    (∀ name ∈ forest.names, ∀ rest, base ++ name :: rest ∈ ignored →
      fileExists (absolute (base ++ name :: rest)) = forest.existsAt name rest) →
    (forest.nonIgnoredSubFileExists fileExists (ignored.map absolute) (absolute base) = false ↔
      ∀ leaf ∈ forest.leaves, Harmless ignored (base ++ leaf.1) leaf.2)
  | .nil => by
    intros
    simp [Forest.leaves, Forest.nonIgnoredSubFileExists]
  | .cons name node others => by
    rintro ⟨hname, hnot, hnode, hothers⟩ base hbase hexists
    have hcons : ∀ rest, base ++ [name] ++ rest = base ++ name :: rest := by simp
    have hone : Names [name] := by
      intro n hn
      rwa [List.mem_singleton.mp hn]
    have hnodeExists : ∀ rest, base ++ [name] ++ rest ∈ ignored →
        fileExists (absolute (base ++ [name] ++ rest)) = node.existsAt rest := by
      intro rest hi
      rw [hcons] at hi ⊢
      rw [hexists name List.mem_cons_self rest hi, Forest.existsAt, if_pos rfl]
    have hothersExist : ∀ name' ∈ others.names, ∀ rest, base ++ name' :: rest ∈ ignored →
        fileExists (absolute (base ++ name' :: rest)) = others.existsAt name' rest := by
      intro name' hmem rest hi
      have hne : name ≠ name' := by
        rintro rfl
        exact hnot hmem
      rw [hexists name' (List.mem_cons_of_mem name hmem) rest hi, Forest.existsAt, if_neg hne]
    -- The search goes below a file that is not ignored, or that has an ignored one somewhere below it.
    have hpasses : passes fileExists (ignored.map absolute) (absolute (base ++ [name])) = true ↔
        Harmless ignored (base ++ [name]) node := by
      rw [passes_iff hignored (by simp) (hbase.append hone), Harmless]
      apply or_congr_right
      apply exists_congr
      intro rest
      refine and_congr_right (fun _ => and_congr_right (fun hi => ?_))
      rw [hnodeExists rest hi]
    have hnodeIff := Node.nonIgnoredBelow_iff hignored node hnode (base ++ [name]) (hbase.append hone)
      (fun rest _ hi => hnodeExists rest hi)
    have hothersIff := Forest.nonIgnoredSubFileExists_iff hignored others hothers base hbase hothersExist
    have hleaves : (∀ leaf ∈ (Forest.cons name node others).leaves, Harmless ignored (base ++ leaf.1) leaf.2) ↔
        (∀ leaf ∈ node.leaves, Harmless ignored (base ++ [name] ++ leaf.1) leaf.2) ∧
          ∀ leaf ∈ others.leaves, Harmless ignored (base ++ leaf.1) leaf.2 := by
      simp only [Forest.leaves, List.forall_mem_append, List.forall_mem_map, hcons]
    rw [hleaves, ← hnodeIff, ← hothersIff, ← hpasses, Forest.nonIgnoredSubFileExists, subFilePath_absolute base name hbase]
    split_ifs with hpass
    · simp [hpass]
    · simp [hpass]

end

/-- A directory passes as empty if and only if each leaf that can be found in it is ignored, or is a symlink or a
directory that cannot be listed through which an ignored file is reached.  A directory that cannot be listed
itself always passes. -/
theorem emptyDirectory_iff (label : Option JavaString) (ignoreNonExistentFile readable : Bool) {subFiles : Forest}
    {base : List JavaString} (hbase : Names base) (hfiles : subFiles.WellFormed) (hignored : ∀ i ∈ ignored, Names i)
    (hexists : ∀ rest, base ++ rest ∈ ignored →
      fileExists (absolute (base ++ rest)) = (Node.directory readable subFiles).existsAt rest) :
    validateDirectoryFileEmptyOrOnlyContainsSpecificFiles fileExists label (some (absolute base))
        (some (ignored.map absolute)) ignoreNonExistentFile (some (.directory readable subFiles)) = none ↔
      ∀ leaf ∈ if readable then subFiles.leaves else [], Harmless ignored (base ++ leaf.1) leaf.2 := by
  have htext : ∃ c text, absolute base = c :: text := List.exists_cons_of_ne_nil (absolute_ne_nil base)
  rcases htext with ⟨c, text, htext⟩
  have hforest := Forest.nonIgnoredSubFileExists_iff hignored subFiles hfiles base hbase
    (fun name _ rest hi => hexists (name :: rest) hi)
  rw [htext] at hforest
  cases readable with
  | false => simp [validateDirectoryFileEmptyOrOnlyContainsSpecificFiles, htext, fileType, Node.listFiles]
  | true =>
    rw [if_pos rfl, ← hforest]
    cases subFiles with
    | nil =>
      simp [validateDirectoryFileEmptyOrOnlyContainsSpecificFiles, htext, fileType, Node.listFiles,
        Forest.nonIgnoredSubFileExists]
    | cons name node others =>
      rcases ignored with - | ⟨i, ignored⟩
      · simp [validateDirectoryFileEmptyOrOnlyContainsSpecificFiles, htext, fileType, Node.listFiles,
          Forest.nonIgnoredSubFileExists, passes]
      · simp [validateDirectoryFileEmptyOrOnlyContainsSpecificFiles, htext, fileType, Node.listFiles]

end

/-- A directory `a` with a directory `b` and a file `c` in it. -/
def smallForest : Forest := .cons (ascii "b") (.directory true (.cons (ascii "c") .file .nil)) .nil

/-- The files of the small tree. -/
def smallFiles : List (List JavaString) :=
  [[ascii "a"], [ascii "a", ascii "b"], [ascii "a", ascii "b", ascii "c"]]

theorem smallForest_wellFormed : smallForest.WellFormed :=
  ⟨⟨by decide, by decide⟩, by simp [Forest.names],
    ⟨⟨by decide, by decide⟩, by simp [Forest.names], trivial, trivial⟩, trivial⟩

/-- The file in the tree is ignored. -/
theorem emptyDirectory_iff_small :
    validateDirectoryFileEmptyOrOnlyContainsSpecificFiles (fun path => (smallFiles.map absolute).contains path) none
      (some (ascii "/a")) (some [ascii "/a/b/c"]) false (some (.directory true smallForest)) = none := by
  have hnames : Names [ascii "a", ascii "b", ascii "c"] := by
    intro n hn
    fin_cases hn <;> exact ⟨by decide, by decide⟩
  have hbase : Names [ascii "a"] := fun n hn => hnames n (by simp_all)
  have hignored : ∀ i ∈ [[ascii "a", ascii "b", ascii "c"]], Names i := by simpa using hnames
  refine (emptyDirectory_iff none false true hbase smallForest_wellFormed hignored ?_).mpr ?_
  · intro rest hrest
    obtain rfl : rest = [ascii "b", ascii "c"] := by simpa using hrest
    decide
  · intro leaf hleaf
    left
    fin_cases hleaf
    decide

end FileTree

end XoDos
