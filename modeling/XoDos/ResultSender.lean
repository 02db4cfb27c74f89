import XoDos.ExecutionCommand

/-!
# Result files

The result of a command is written to files of a directory, one for each part of it that is not
empty, and last a file with its error code, which the caller waits for.

The directory has regular files only.  An operation on it succeeds, or fails and changes nothing.
-/

namespace XoDos

/-! ## Texts of errors -/

/-- `String.valueOf(n)` -/
def decimal (n : Int) : JavaString := ascii (toString n)

namespace ResultError

variable (e : ResultError)

def getCodeString : JavaString := ascii "Error Code: `" ++ decimal e.code ++ ascii "`"

def getTypeAndMessageLogString : JavaString :=
  let label :=
    if e.type = Errno.errnoType then ascii "Error Message"
    else ascii "Error Message (" ++ e.type ++ ascii ")"
  match e.message with
  | some message => label ++ ascii ":\n```\n" ++ message ++ ascii "\n```\n"
  | none => label ++ ascii ": -"

/-- The stack traces have numbers if there are several. -/
def geStackTracesLogString : JavaString :=
  ascii "StackTraces:" ++ e.stackTraces.zipIdx.flatMap fun (trace, i) =>
    (if 1 < e.stackTraces.length then ascii "\n\nStacktrace " ++ decimal (i + 1) else []) ++
      ascii "\n```\n" ++ trace ++ ascii "\n```\n"

def getErrorLogString : JavaString :=
  e.getCodeString ++ ascii "\n" ++ e.getTypeAndMessageLogString ++
    if e.stackTraces = [] then [] else ascii "\n" ++ e.geStackTracesLogString

end ResultError

namespace ResultData

/-- The failed errors, one after the other. -/
def getErrorsListLogString (d : ResultData) : JavaString :=
  d.errorsList.foldl (fun logString error =>
    if error.isStateFailed then
      (if logString = [] then [] else logString ++ ascii "\n") ++ error.getErrorLogString
    else logString) []

end ResultData

/-! ## The directory -/

/-- The texts of the files. -/
abbrev Directory := JavaString → Option JavaString

inductive FileOperation where
  | write (name text : JavaString)
  | move (source target : JavaString)
deriving DecidableEq

namespace FileOperation

/-- `writeTextToFile` and `moveRegularFile`, when they succeed -/
def apply (d : Directory) : FileOperation → Directory
  | .write name text => Function.update d name (some text)
  | .move source target => Function.update (Function.update d target (d source)) source none

/-- The name that gets a new file. -/
def target : FileOperation → JavaString
  | .write name _ => name
  | .move _ target => target

end FileOperation

/-- The file as a reader gets it for whom a missing file is empty. -/
def readFile (d : Directory) (name : JavaString) : JavaString := (d name).getD []

namespace ResultSender

/-- Which operations fail, and whether the directory can be used. -/
structure World where
  directory : Option ResultError
  operation : FileOperation → Option ResultError

/-- What has been done, and the error that is returned. -/
structure Sending where
  directory : Directory
  operations : List FileOperation
  error : Option ResultError

/-- Nothing is done after an error. -/
def Sending.perform (world : World) (s : Sending) (operation : FileOperation) : Sending :=
  if s.error.isSome then s
  else
    match world.operation operation with
    | some error => { s with error := some error }
    | none =>
      { s with directory := operation.apply s.directory, operations := s.operations ++ [operation] }

/-- A part of the result, if it is not empty. -/
def Sending.writePart (world : World) (s : Sending) (file : JavaString × JavaString) : Sending :=
  if file.2 = [] then s else s.perform world (.write file.1 file.2)

/-- The message is that of the failed errors, or empty. -/
def errmsg (d : ResultData) : JavaString :=
  if d.isStateFailed then d.getErrorsListLogString else []

/-- The parts of the result that have a file of their own. -/
def resultFiles (suffix : JavaString) (d : ResultData) : List (JavaString × JavaString) :=
  [(ascii "stdout" ++ suffix, d.stdout), (ascii "stderr" ++ suffix, d.stderr),
    (ascii "exit_code" ++ suffix, (d.exitCode.map decimal).getD []),
    (ascii "errmsg" ++ suffix, errmsg d)]

def errName (suffix : JavaString) : JavaString := ascii "err" ++ suffix

def tempName (timeStamp suffix : JavaString) : JavaString :=
  ascii "err" ++ ascii "-" ++ timeStamp ++ if suffix = [] then [] else ascii "-" ++ suffix

/-- The message of the parameter that is missing. -/
def parameterError : ResultError :=
  ⟨ascii "Function Error", 100, some (ascii "The context, resultConfig, resultData or " ++
    ascii "resultConfig.resultDirectoryPath parameter passed to " ++
    ascii "\"sendCommandResultDataToDirectory\" is null or empty."), []⟩

def suffixError (suffix : JavaString) : ResultError :=
  ⟨ascii "ResultSender Error", 101, some (ascii "The result files suffix \"" ++ suffix ++
    ascii "\" contains forward slashes \"/\"."), []⟩

/-- With several files. -/
def sendCommandResultDataToDirectory (world : World) (timeStamp : JavaString)
    (resultConfig : ResultConfig) (resultData : ResultData) (directory : Directory) : Sending :=
  let start : Sending := ⟨directory, [], none⟩
  let suffix := resultConfig.resultFilesSuffix.getD []
  if resultConfig.resultDirectoryPath.getD [] = [] then { start with error := some parameterError }
  else if world.directory.isSome then { start with error := world.directory }
  else if 0x2F ∈ suffix then { start with error := some (suffixError suffix) }
  else
    let written := (resultFiles suffix resultData).foldl (Sending.writePart world) start
    let temp := written.perform world
      (.write (tempName timeStamp suffix) (decimal resultData.getErrCode))
    temp.perform world (.move (tempName timeStamp suffix) (errName suffix))

/-! ## What is done -/

section Plan

variable (suffix timeStamp : JavaString) (d : ResultData)

/-- The parts that are written. -/
def partWrites (files : List (JavaString × JavaString)) : List FileOperation :=
  (files.filter (·.2 ≠ [])).map fun file => .write file.1 file.2

/-- Everything but the move. -/
def writes : List FileOperation :=
  partWrites (resultFiles suffix d) ++
    [.write (tempName timeStamp suffix) (decimal d.getErrCode)]

/-- All operations, if none fails. -/
def plan : List FileOperation :=
  writes suffix timeStamp d ++ [.move (tempName timeStamp suffix) (errName suffix)]

variable {suffix timeStamp d} {world : World} {s : Sending}

theorem foldl_writePart (files : List (JavaString × JavaString)) (s : Sending) :
    files.foldl (Sending.writePart world) s =
      (partWrites files).foldl (Sending.perform world) s := by
  induction files generalizing s with
  | nil => rfl
  | cons file files ih =>
    by_cases h : file.2 = []
    · simp only [List.foldl_cons, Sending.writePart, if_pos h, ih]
      simp [partWrites, h]
    · simp only [List.foldl_cons, Sending.writePart, if_neg h, ih]
      simp [partWrites, h]

theorem perform_error (h : s.error.isSome) (operations : List FileOperation) :
    operations.foldl (Sending.perform world) s = s := by
  induction operations with
  | nil => rfl
  | cons operation operations ih => rw [List.foldl_cons, Sending.perform, if_pos h, ih]

/-- The operations are done up to the first that fails. -/
theorem foldl_perform (hs : s.error = none) (operations : List FileOperation) :
    ∃ done rest, operations = done ++ rest ∧
      (operations.foldl (Sending.perform world) s).operations = s.operations ++ done ∧
      (operations.foldl (Sending.perform world) s).directory =
        done.foldl FileOperation.apply s.directory ∧
      ((operations.foldl (Sending.perform world) s).error = none ↔ rest = []) := by
  induction operations generalizing s with
  | nil => exact ⟨[], [], rfl, by simp, rfl, by simp [hs]⟩
  | cons operation operations ih =>
    rw [List.foldl_cons]
    cases hw : world.operation operation with
    | some error =>
      have hfail : s.perform world operation = { s with error := some error } := by
        simp [Sending.perform, hs, hw]
      rw [hfail, perform_error rfl]
      exact ⟨[], operation :: operations, rfl, by simp, rfl, by simp⟩
    | none =>
      have hdone : s.perform world operation =
          { s with
            directory := operation.apply s.directory, operations := s.operations ++ [operation] } := by
        simp [Sending.perform, hs, hw]
      rw [hdone]
      obtain ⟨done, rest, h₁, h₂, h₃, h₄⟩ := @ih { s with
        directory := operation.apply s.directory, operations := s.operations ++ [operation] } hs
      refine ⟨operation :: done, rest, by rw [h₁]; rfl, ?_, h₃, h₄⟩
      rw [h₂]
      simp

/-- No operation fails where none can. -/
theorem foldl_perform_none (hs : s.error = none) (hworld : ∀ operation, world.operation operation = none)
    (operations : List FileOperation) :
    (operations.foldl (Sending.perform world) s).error = none := by
  induction operations generalizing s with
  | nil => exact hs
  | cons operation operations ih =>
    apply ih
    simp [Sending.perform, hs, hworld]

end Plan

/-! ## Names -/

section Names

variable (suffix timeStamp : JavaString) (d : ResultData)

theorem resultFiles_nodup : ((resultFiles suffix d).map Prod.fst).Nodup := by
  simp only [resultFiles, List.map_cons, List.map_nil, List.nodup_cons, List.mem_cons,
    List.append_left_inj, List.not_mem_nil, or_false, not_false_eq_true, List.nodup_nil, and_true]
  decide

/-- The temporary name is none of the others. -/
theorem tempName_ne {file : JavaString × JavaString} (h : file ∈ resultFiles suffix d) :
    file.1 ≠ tempName timeStamp suffix ∧ file.1 ≠ errName suffix := by
  simp only [resultFiles, List.mem_cons, List.not_mem_nil, or_false] at h
  rcases h with rfl | rfl | rfl | rfl
  all_goals
    refine ⟨?_, ?_⟩
    · simp [tempName, ascii]
    · rw [errName, ne_eq, List.append_left_inj]
      decide

theorem tempName_ne_errName : tempName timeStamp suffix ≠ errName suffix := by
  intro h
  have hlength := congrArg List.length h
  simp only [tempName, errName, List.length_append] at hlength
  by_cases hs : suffix = []
  · rw [if_pos hs, hs] at hlength
    simp [ascii] at hlength
    omega
  · rw [if_neg hs] at hlength
    simp [ascii] at hlength
    omega

end Names

/-! ## What the caller finds -/

section Publish

variable {suffix timeStamp : JavaString} {d : ResultData} {directory : Directory}

/-- Other files stay as they are. -/
theorem foldl_apply_other {name : JavaString} {operations : List FileOperation}
    (h : ∀ operation ∈ operations, ∃ n t, operation = .write n t ∧ n ≠ name) :
    (operations.foldl FileOperation.apply directory) name = directory name := by
  induction operations generalizing directory with
  | nil => rfl
  | cons operation operations ih =>
    obtain ⟨n, t, rfl, hne⟩ := h operation (by simp)
    rw [List.foldl_cons, ih fun o ho => h o (by simp [ho])]
    exact Function.update_of_ne (Ne.symm hne) _ _

theorem mem_partWrites {files : List (JavaString × JavaString)} {operation : FileOperation} :
    operation ∈ partWrites files ↔ ∃ file ∈ files, file.2 ≠ [] ∧ operation = .write file.1 file.2 := by
  simp only [partWrites, List.mem_map, List.mem_filter, decide_eq_true_eq]
  constructor
  · rintro ⟨file, ⟨hmem, hne⟩, rfl⟩
    exact ⟨file, hmem, hne, rfl⟩
  · rintro ⟨file, hmem, hne, rfl⟩
    exact ⟨file, ⟨hmem, hne⟩, rfl⟩

/-- Every part that is not empty is in its file, and the file of an empty part is what it was. -/
theorem foldl_partWrites {files : List (JavaString × JavaString)}
    (hnodup : (files.map Prod.fst).Nodup) {file : JavaString × JavaString} (h : file ∈ files) :
    ((partWrites files).foldl FileOperation.apply directory) file.1 =
      if file.2 = [] then directory file.1 else some file.2 := by
  induction files generalizing directory with
  | nil => cases h
  | cons first files ih =>
    rw [List.map_cons, List.nodup_cons] at hnodup
    have hne : ∀ f ∈ files, f.1 ≠ first.1 := fun f hf heq =>
      hnodup.1 (by rw [← heq]; exact List.mem_map_of_mem hf)
    have hfirst : ((partWrites files).foldl FileOperation.apply directory) first.1 =
        directory first.1 := by
      apply foldl_apply_other
      intro operation ho
      obtain ⟨f, hf, -, rfl⟩ := mem_partWrites.mp ho
      exact ⟨f.1, f.2, rfl, hne f hf⟩
    by_cases hempty : first.2 = []
    · have hsame : partWrites (first :: files) = partWrites files := by simp [partWrites, hempty]
      rw [hsame]
      rcases List.mem_cons.mp h with rfl | hmem
      · rw [if_pos hempty, hfirst]
      · exact ih hnodup.2 hmem
    · have hcons : partWrites (first :: files) =
          .write first.1 first.2 :: partWrites files := by simp [partWrites, hempty]
      rw [hcons, List.foldl_cons]
      rcases List.mem_cons.mp h with rfl | hmem
      · rw [if_neg hempty, foldl_apply_other]
        · exact Function.update_self _ _ _
        · intro operation ho
          obtain ⟨f, hf, -, rfl⟩ := mem_partWrites.mp ho
          exact ⟨f.1, f.2, rfl, hne f hf⟩
      · rw [ih hnodup.2 hmem]
        simp only [FileOperation.apply, Function.update_of_ne (hne file hmem)]

/-- The file of the error code comes last and only without an error, and what the caller then reads
is the result of this command. -/
structure Published (directory : Directory) (suffix : JavaString) (d : ResultData) (s : Sending) :
    Prop where
  last : ∀ before operation after, s.operations = before ++ operation :: after →
    operation.target = errName suffix → ∀ file ∈ resultFiles suffix d, file.2 ≠ [] →
      (before.foldl FileOperation.apply directory) file.1 = some file.2
  unpublished : s.error ≠ none → ∀ operation ∈ s.operations, operation.target ≠ errName suffix
  read : s.error = none → ∀ file ∈ resultFiles suffix d, readFile s.directory file.1 = file.2

/-- An earlier command has left nothing in the file of a part that is empty. -/
def Fresh (directory : Directory) (suffix : JavaString) (d : ResultData) : Prop :=
  ∀ file ∈ resultFiles suffix d, file.2 = [] → readFile directory file.1 = []

/-- Only the last operation makes the file of the error code. -/
theorem target_ne_errName {operation : FileOperation}
    (h : operation ∈ writes suffix timeStamp d) : operation.target ≠ errName suffix := by
  rw [writes, List.mem_append, List.mem_singleton] at h
  rcases h with h | rfl
  · obtain ⟨file, hfile, -, rfl⟩ := mem_partWrites.mp h
    exact (tempName_ne suffix timeStamp d hfile).2
  · exact tempName_ne_errName suffix timeStamp

/-- The files of the parts when all but the last operation have been done. -/
theorem written_parts {file : JavaString × JavaString} (h : file ∈ resultFiles suffix d) :
    ((writes suffix timeStamp d).foldl FileOperation.apply directory) file.1 =
      if file.2 = [] then directory file.1 else some file.2 := by
  rw [writes, List.foldl_append, List.foldl_cons, List.foldl_nil]
  simp only [FileOperation.apply,
    Function.update_of_ne (tempName_ne suffix timeStamp d h).1]
  exact foldl_partWrites (resultFiles_nodup suffix d) h

/-- The files of the parts when everything has been done. -/
theorem moved_parts {file : JavaString × JavaString} (h : file ∈ resultFiles suffix d) :
    ((plan suffix timeStamp d).foldl FileOperation.apply directory) file.1 =
      if file.2 = [] then directory file.1 else some file.2 := by
  obtain ⟨htemp, herr⟩ := tempName_ne suffix timeStamp d h
  rw [plan, List.foldl_append, List.foldl_cons, List.foldl_nil]
  rw [FileOperation.apply, Function.update_of_ne htemp, Function.update_of_ne herr]
  exact written_parts h

/-- What is done of the plan comes before its last operation, or is all of it. -/
theorem done_cases {done rest : List FileOperation} (h : plan suffix timeStamp d = done ++ rest) :
    (rest = [] ∧ done = plan suffix timeStamp d) ∨
      (rest ≠ [] ∧ ∀ operation ∈ done, operation.target ≠ errName suffix) := by
  by_cases hrest : rest = []
  · left
    rw [hrest, List.append_nil] at h
    exact ⟨hrest, h.symm⟩
  · right
    refine ⟨hrest, fun operation ho => ?_⟩
    apply @target_ne_errName suffix timeStamp d
    have hdrop := congrArg List.dropLast h
    rw [plan, List.dropLast_concat, List.dropLast_append_of_ne_nil hrest] at hdrop
    rw [hdrop]
    exact List.mem_append_left _ ho

end Publish

section Send

variable {world : World} {timeStamp : JavaString} {resultConfig : ResultConfig}
  {resultData : ResultData} {directory : Directory}

/-- A request that fails whatever the directory is. -/
def Rejected (resultConfig : ResultConfig) : Prop :=
  resultConfig.resultDirectoryPath.getD [] = [] ∨ 0x2F ∈ resultConfig.resultFilesSuffix.getD []

/-- What was sent, if the directory can be used and the request is not rejected. -/
theorem send_eq (hworld : world.directory = none) (h : ¬Rejected resultConfig) :
    sendCommandResultDataToDirectory world timeStamp resultConfig resultData directory =
      (plan (resultConfig.resultFilesSuffix.getD []) timeStamp resultData).foldl
        (Sending.perform world) ⟨directory, [], none⟩ := by
  rw [Rejected, not_or] at h
  simp only [sendCommandResultDataToDirectory]
  rw [if_neg h.1, hworld, if_neg (by simp), if_neg h.2, foldl_writePart, plan, writes, List.foldl_append, List.foldl_append]
  rfl

/-- Otherwise nothing is done. -/
theorem send_rejected (h : world.directory ≠ none ∨ Rejected resultConfig) :
    (sendCommandResultDataToDirectory world timeStamp resultConfig resultData directory).error ≠
        none ∧
      (sendCommandResultDataToDirectory world timeStamp resultConfig resultData
        directory).operations = [] := by
  simp only [sendCommandResultDataToDirectory]
  split_ifs with h₁ h₂ h₃
  · exact ⟨by simp, rfl⟩
  · exact ⟨by simpa [Option.isSome_iff_ne_none] using h₂, rfl⟩
  · exact ⟨by simp, rfl⟩
  · rcases h with h | h | h
    · exact absurd (Option.isSome_iff_ne_none.mpr h) h₂
    · exact absurd h h₁
    · exact absurd h h₃

theorem published_of_rejected (suffix : JavaString)
    (h : world.directory ≠ none ∨ Rejected resultConfig) :
    Published directory suffix resultData
      (sendCommandResultDataToDirectory world timeStamp resultConfig resultData directory) := by
  obtain ⟨herror, hnil⟩ := @send_rejected world timeStamp resultConfig resultData directory h
  refine ⟨fun before operation after heq => ?_, fun _ operation ho => ?_, fun hno => ?_⟩
  · rw [hnil] at heq
    simp at heq
  · rw [hnil] at ho
    cases ho
  · exact absurd hno herror

/-- The order of the files is right whatever fails; only the files of empty parts may be old. -/
theorem published_of_fresh (hworld : world.directory = none) (h : ¬Rejected resultConfig)
    (hfresh : Fresh directory (resultConfig.resultFilesSuffix.getD []) resultData) :
    Published directory (resultConfig.resultFilesSuffix.getD []) resultData
      (sendCommandResultDataToDirectory world timeStamp resultConfig resultData directory) := by
  rw [send_eq hworld h]
  obtain ⟨done, rest, hplan, hops, hdir, herror⟩ := @foldl_perform world ⟨directory, [], none⟩ rfl
    (plan (resultConfig.resultFilesSuffix.getD []) timeStamp resultData)
  rw [List.nil_append] at hops
  rcases done_cases hplan with ⟨hrest, hdone⟩ | ⟨hrest, hnone⟩
  · refine ⟨fun before operation after heq htarget file hfile hne => ?_, fun hno => ?_,
      fun _ file hfile => ?_⟩
    · -- Everything before the move is a write.
      rw [hops, hdone, plan] at heq
      rcases List.eq_nil_or_concat after with rfl | ⟨init, last, rfl⟩
      · have hbefore := List.append_inj_left' heq rfl
        rw [← hbefore, written_parts hfile, if_neg hne]
      · rw [List.concat_eq_append, ← List.cons_append, ← List.append_assoc] at heq
        have hbefore := List.append_inj_left' heq rfl
        exact absurd htarget (@target_ne_errName _ timeStamp resultData _ (by
          rw [hbefore]
          simp))
    · exact absurd (herror.mpr hrest) hno
    · rw [readFile, hdir, hdone, moved_parts hfile]
      split_ifs with hempty
      · rw [hempty]
        exact hfresh file hfile hempty
      · rfl
  · refine ⟨fun before operation after heq htarget => ?_, fun _ operation ho => ?_, fun hno => ?_⟩
    · rw [hops] at heq
      exact absurd htarget (hnone operation (by simp [heq]))
    · rw [hops] at ho
      exact hnone operation ho
    · exact absurd (herror.mp hno) hrest

/-- Whatever operations fail, the result is published as it should be exactly if the request is
rejected or no earlier command has left a file for a part of the result that is empty. -/
theorem published_iff (timeStamp : JavaString) (resultConfig : ResultConfig)
    (resultData : ResultData) (directory : Directory) :
    (∀ world, Published directory (resultConfig.resultFilesSuffix.getD []) resultData
        (sendCommandResultDataToDirectory world timeStamp resultConfig resultData directory)) ↔
      Rejected resultConfig ∨
        Fresh directory (resultConfig.resultFilesSuffix.getD []) resultData := by
  constructor
  · intro h
    by_cases hrejected : Rejected resultConfig
    · exact .inl hrejected
    · right
      intro file hfile hempty
      have hread := (h ⟨none, fun _ => none⟩).read
      rw [send_eq rfl hrejected] at hread
      have hok := @foldl_perform_none ⟨none, fun _ => none⟩ ⟨directory, [], none⟩ rfl (fun _ => rfl)
        (plan (resultConfig.resultFilesSuffix.getD []) timeStamp resultData)
      obtain ⟨done, rest, hplan, -, hdir, herror⟩ := @foldl_perform ⟨none, fun _ => none⟩
        ⟨directory, [], none⟩ rfl (plan (resultConfig.resultFilesSuffix.getD []) timeStamp resultData)
      have hfile' := hread hok file hfile
      rw [herror.mp hok, List.append_nil] at hplan
      rw [readFile, hdir, ← hplan, moved_parts hfile, if_pos hempty, hempty] at hfile'
      exact hfile'
  · intro h world
    by_cases hw : world.directory = none
    · rcases h with h | h
      · exact published_of_rejected _ (.inr h)
      · by_cases hrejected : Rejected resultConfig
        · exact published_of_rejected _ (.inr hrejected)
        · exact published_of_fresh hw hrejected h
    · exact published_of_rejected _ (.inl hw)

/-- The output of an earlier command is read as that of one without output. -/
theorem stale_file_read :
    ¬∀ (world : World) (timeStamp : JavaString) (resultConfig : ResultConfig)
      (resultData : ResultData) (directory : Directory),
      Published directory (resultConfig.resultFilesSuffix.getD []) resultData
        (sendCommandResultDataToDirectory world timeStamp resultConfig resultData directory) := by
  intro h
  have hread := (h ⟨none, fun _ => none⟩ (ascii "2024-01-01_00.00.00.000")
    ⟨false, some (ascii "/results"), none⟩ ⟨[], [], some 0, []⟩
    (fun name => if name = ascii "stdout" then some (ascii "old") else none)).read (by decide +kernel)
  have hfile := hread (ascii "stdout", []) (by decide +kernel)
  exact absurd hfile (by decide +kernel)

end Send

end ResultSender

end XoDos
