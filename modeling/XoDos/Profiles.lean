import XoDos.Java
import XoDos.Run

/-!
# Profiles

`InputControlsManager` keeps the profiles of the on-screen controls in a list,
and each one in a file that is named by its id.

Objects have a number, as Java compares them by identity.  The elements of a
profile are of any type `E`, and other JSON values of any type `J`.  Files are written and
read without errors; whether a file can be deleted is an input.
-/

namespace XoDos

/-- A field of a JSON object, as a reader takes it that expects a value of some type. -/
inductive JsonField (α : Type) where
  | missing
  /-- There is a value, but of another type. -/
  | refused
  | value (a : α)

/-- The JSON object in a profile file.  A name of `none` is no string and no number, whose digits would be the
name. -/
structure ProfileFile (E J : Type) where
  id : Int
  name : Option String
  cursorSpeed : JsonField J
  elements : Option (List E)
  controllers : Option (List J)
  template : Bool

/-- A `ControlsProfile` object. -/
structure Profile where
  ref : Nat
  id : Int
  name : String
deriving DecidableEq, Repr

/-- The other fields of a `ControlsProfile`.  A `cursorSpeed` of `none` is NaN. -/
structure ProfileContents (E J : Type) where
  cursorSpeed : Option J
  elementsLoaded : Bool
  elements : List E
  controllersLoaded : Bool
  controllers : List J

/-- The object that is passed to `importProfile`. -/
structure ProfileImport (E J : Type) where
  id : Option Int
  name : JsonField String
  cursorSpeed : JsonField J
  elements : Option (List E)
  controllers : Option (List J)
  template : Bool

structure ProfileManager (E J : Type) where
  /-- The files of the directory, by the id in their names. -/
  dir : Int → Option (ProfileFile E J)
  profiles : List Profile
  maxProfileId : Int
  /-- The objects that callers may have. -/
  known : List Profile
  /-- How many objects there have been. -/
  created : Nat

namespace Profile

def isTemplate (name : String) : Bool := decide ("template".toList <:+: name.toLower.toList)

end Profile

namespace ProfileManager

variable {E J : Type}

/-! ## Loading -/

/-- The new object has the number `ref`.  `none` when the reader throws. -/
def loadProfile (file : ProfileFile E J) (ref : Nat) : Option Profile :=
  match file.cursorSpeed with
  | .refused => none
  | _ => file.name.map fun name => ⟨ref, file.id, name⟩

/-- `listing` is the order in which `listFiles` returns the files. -/
def loadObjects (dir : Int → Option (ProfileFile E J)) (listing : List Int) : Option (List Profile) :=
  (listing.filterMap dir).zipIdx.mapM fun (file, n) => loadProfile file n

def loadProfiles (dir : Int → Option (ProfileFile E J)) (listing : List Int)
    (ignoreTemplates : Bool) : Option (ProfileManager E J) := do
  let objects ← loadObjects dir listing
  let profiles := (objects.filter
    (fun p => !(ignoreTemplates && Profile.isTemplate p.name))).mergeSort (fun p q => p.id ≤ q.id)
  return {
    dir := dir
    profiles := profiles
    maxProfileId := objects.foldl (fun m p => max m p.id) 0
    known := profiles
    created := objects.length }

/-! ## Saving -/

/-- `none` when the file has no elements, which is a JSONException. -/
def elementsToSave (file : Option (ProfileFile E J)) (c : ProfileContents E J) : Option (List E) :=
  match file with
  | some file => if c.elementsLoaded then some c.elements else file.elements
  | none => some c.elements

def controllersToSave (file : Option (ProfileFile E J)) (c : ProfileContents E J) : List J :=
  match file with
  | some file => if c.controllersLoaded then c.controllers else file.controllers.getD []
  | none => c.controllers

/-- What `save` writes.  `none` when there is a JSONException. -/
def saveFile (file : Option (ProfileFile E J)) (p : Profile) (c : ProfileContents E J) :
    Option (ProfileFile E J) := do
  let cursorSpeed ← c.cursorSpeed
  let elements ← elementsToSave file c
  let controllers := controllersToSave file c
  return {
    id := p.id
    name := some p.name
    cursorSpeed := .value cursorSpeed
    elements := some elements
    controllers := if controllers.isEmpty then none else some controllers
    template := false }

def save (m : ProfileManager E J) (p : Profile) (c : ProfileContents E J) : ProfileManager E J :=
  match saveFile (m.dir p.id) p c with
  | none => m
  | some file => { m with dir := Function.update m.dir p.id (some file) }

/-! ## The other operations -/

/-- `++maxProfileId` -/
def nextId (m : ProfileManager E J) : Int := toInt32 (m.maxProfileId + 1)

/-- A new object. -/
def register (m : ProfileManager E J) (p : Profile) : ProfileManager E J :=
  { m with known := m.known ++ [p], created := m.created + 1 }

def createProfile [One J] (m : ProfileManager E J) (name : String) : ProfileManager E J :=
  let m := { m with maxProfileId := m.nextId }
  let p : Profile := ⟨m.created, m.maxProfileId, name⟩
  let m := (m.register p).save p ⟨some 1, false, [], false, []⟩
  { m with profiles := m.profiles ++ [p] }

def copyName (name : String) (i : Nat) : String := name ++ " (" ++ Nat.repr i ++ ")"

theorem copyName_injective (name : String) : Function.Injective (copyName name) := by
  intro i j h
  have hlist := congrArg String.toList h
  simp only [copyName, String.toList_append, List.append_assoc, List.append_cancel_left_eq,
    List.append_cancel_right_eq, String.toList_inj] at hlist
  rw [← @Nat.ofDigitChars_toDigits 10 i (by decide) (by decide), ← Nat.toList_repr, hlist,
    Nat.toList_repr, Nat.ofDigitChars_toDigits (by decide) (by decide)]

theorem exists_copyName (name : String) (names : List String) :
    ∃ i, 1 ≤ i ∧ copyName name i ∉ names := by
  have hinj : Function.Injective (fun i => copyName name (i + 1)) := fun i j h => by
    simpa using copyName_injective name h
  obtain ⟨i, hi⟩ := (Set.infinite_range_of_injective hinj).exists_notMem_finset names.toFinset
  obtain ⟨⟨n, rfl⟩, hn⟩ := hi
  exact ⟨n + 1, by omega, by simpa using hn⟩

/-- The loop over `i` that looks for a name that no profile has. -/
def freeName (name : String) (names : List String) : String :=
  copyName name (Nat.find (exists_copyName name names))

/-- If the source has no file, reading it throws, after the id has been counted, and if the copy cannot be
loaded, after it has been written. -/
def duplicateProfile (m : ProfileManager E J) (source : Profile) : ProfileManager E J :=
  let newName := freeName source.name (m.profiles.map Profile.name)
  let m := { m with maxProfileId := m.nextId }
  match m.dir source.id with
  | none => m
  | some data =>
    let file := { data with id := m.maxProfileId, name := some newName, template := false }
    let m := { m with dir := Function.update m.dir m.maxProfileId (some file) }
    match loadProfile file m.created with
    | none => m
    | some p => { m.register p with profiles := m.profiles ++ [p] }

/-- `deleted` is what `delete` returns. -/
def removeProfile (m : ProfileManager E J) (p : Profile) (deleted : Bool) : ProfileManager E J :=
  if (m.dir p.id).isSome && deleted then
    { m with
      dir := Function.update m.dir p.id none
      profiles := m.profiles.erase p }
  else m

/-- `has` and the value, if it is a string or a number. -/
def importedName (name : JsonField String) : Option (Option String) :=
  match name with
  | .missing => none
  | .refused => some none
  | .value name => some (some name)

/-- The first profile with the name of the new one is replaced.  The file is written before it is known
whether it can be loaded. -/
def importProfile (m : ProfileManager E J) (data : ProfileImport E J) : ProfileManager E J :=
  match data.id, importedName data.name with
  | some _, some name =>
    let m := { m with maxProfileId := m.nextId }
    let file : ProfileFile E J :=
      ⟨m.maxProfileId, name, data.cursorSpeed, data.elements, data.controllers, data.template⟩
    let m := { m with dir := Function.update m.dir m.maxProfileId (some file) }
    match loadProfile file m.created with
    | none => m
    | some p =>
      let profiles :=
        match m.profiles.findIdx? (fun q => q.name = p.name) with
        | some foundIndex => m.profiles.set foundIndex p
        | none => m.profiles ++ [p]
      { m.register p with profiles := profiles }
  | _, _ => m

inductive Call (E J : Type) where
  | create (name : String)
  | duplicate (source : Profile)
  | importProfile (data : ProfileImport E J)
  | save (p : Profile) (contents : ProfileContents E J)
  | remove (p : Profile) (deleted : Bool)

def step [One J] (m : ProfileManager E J) : Call E J → ProfileManager E J
  | .create name => m.createProfile name
  | .duplicate source => m.duplicateProfile source
  | .importProfile data => m.importProfile data
  | .save p contents => m.save p contents
  | .remove p deleted => m.removeProfile p deleted

/-- The object that a call is given is one that the caller can have. -/
def Known (m : ProfileManager E J) : Call E J → Prop
  | .duplicate p | .save p _ | .remove p _ => p ∈ m.known
  | _ => True

/-- The object can be loaded, under a name that no profile has. -/
structure Importable (m : ProfileManager E J) (data : ProfileImport E J) : Prop where
  name : ∃ name, data.name = .value name ∧ ∀ p ∈ m.profiles, p.name ≠ name
  cursorSpeed : data.cursorSpeed ≠ .refused

/-- Ids do not run out, no profile is imported that cannot be loaded or whose name is taken, and no profile is
saved after it was removed. -/
def Sound (m : ProfileManager E J) : Call E J → Prop
  | .create _ | .duplicate _ => m.maxProfileId < 2 ^ 31 - 1
  | .importProfile data => data.id ≠ none → data.name ≠ .missing →
      m.maxProfileId < 2 ^ 31 - 1 ∧ m.Importable data
  | .save p _ => m.dir p.id ≠ none
  | .remove .. => True

/-! ## The list and the directory -/

/-- The profiles of the list are those in the directory, apart from the files that are hidden. -/
structure Mirrors (hidden : Int → Prop) (m : ProfileManager E J) : Prop where
  files : ∀ id file, m.dir id = some file →
    file.id = id ∧ (hidden id ∨ ∃ p ∈ m.profiles, p.id = id ∧ some p.name = file.name)
  profiles : ∀ p ∈ m.profiles, ¬hidden p.id ∧ ∃ file, m.dir p.id = some file ∧ file.name = some p.name
  ids : (m.profiles.map Profile.id).Nodup

/-- What holds of the ids and of the objects besides. -/
structure Kept (hidden : Int → Prop) (m : ProfileManager E J) : Prop extends Mirrors hidden m where
  speeds : ∀ id file, m.dir id = some file → file.cursorSpeed ≠ .refused
  bound : ∀ id file, m.dir id = some file → id ≤ m.maxProfileId
  hiddenBound : ∀ id, hidden id → id ≤ m.maxProfileId
  knownBound : ∀ p ∈ m.known, p.id ≤ m.maxProfileId
  listed : ∀ p ∈ m.profiles, p ∈ m.known
  gone : ∀ p ∈ m.known, p ∉ m.profiles → m.dir p.id = none
  refs : ∀ p ∈ m.known, p.ref < m.created
  distinct : ∀ p ∈ m.known, ∀ q ∈ m.known, p.ref = q.ref → p = q
  range : 0 ≤ m.maxProfileId ∧ m.maxProfileId ≤ 2 ^ 31 - 1

variable {hidden : Int → Prop} {m : ProfileManager E J} {p : Profile} {file : ProfileFile E J}

theorem nextId_eq (hm : m.Kept hidden) (h : m.maxProfileId < 2 ^ 31 - 1) :
    m.nextId = m.maxProfileId + 1 := by
  have := hm.range
  unfold nextId toInt32
  omega

theorem dir_nextId (hm : m.Kept hidden) : m.dir (m.maxProfileId + 1) = none := by
  cases hdir : m.dir (m.maxProfileId + 1) with
  | none => rfl
  | some file =>
    have := hm.bound _ _ hdir
    omega

/-- The id has been counted. -/
def count (m : ProfileManager E J) : ProfileManager E J := { m with maxProfileId := m.maxProfileId + 1 }

/-- A file and a profile with the next id. -/
def add (m : ProfileManager E J) (file : ProfileFile E J) (name : String) : ProfileManager E J :=
  let p : Profile := ⟨m.created, m.maxProfileId + 1, name⟩
  { dir := Function.update m.dir (m.maxProfileId + 1) (some file)
    profiles := m.profiles ++ [p]
    maxProfileId := m.maxProfileId + 1
    known := m.known ++ [p]
    created := m.created + 1 }

theorem count_kept (hm : m.Kept hidden) (h : m.maxProfileId < 2 ^ 31 - 1) :
    m.count.Kept hidden := by
  have hrange := hm.range
  refine ⟨⟨hm.files, hm.profiles, hm.ids⟩, hm.speeds, ?_, ?_, ?_, hm.listed, hm.gone, hm.refs,
    hm.distinct, ?_⟩
  · intro id file hdir
    exact (hm.bound id file hdir).trans (Int.le.intro 1 rfl)
  · intro id hid
    exact (hm.hiddenBound id hid).trans (Int.le.intro 1 rfl)
  · intro p hp
    exact (hm.knownBound p hp).trans (Int.le.intro 1 rfl)
  · change 0 ≤ m.maxProfileId + 1 ∧ m.maxProfileId + 1 ≤ 2 ^ 31 - 1
    omega

/-- What is added has the next id and can be loaded. -/
structure Fresh (m : ProfileManager E J) (file : ProfileFile E J) (name : String) : Prop where
  id : file.id = m.maxProfileId + 1
  name : file.name = some name
  cursorSpeed : file.cursorSpeed ≠ .refused

theorem Fresh.load {name : String} (h : m.Fresh file name) :
    loadProfile file m.created = some ⟨m.created, m.maxProfileId + 1, name⟩ := by
  unfold loadProfile
  rw [h.name, h.id]
  cases hspeed : file.cursorSpeed with
  | refused => exact absurd hspeed h.cursorSpeed
  | missing => rfl
  | value speed => rfl

theorem add_kept {name : String} (hm : m.Kept hidden) (h : m.maxProfileId < 2 ^ 31 - 1)
    (hfile : m.Fresh file name) : (m.add file name).Kept hidden := by
  -- The new id is above every known one, so the other files and profiles stay as they are.
  have hrange := hm.range
  have hold : ∀ {id}, id ≤ m.maxProfileId → (m.add file name).dir id = m.dir id := fun {id} hid =>
    Function.update_of_ne (by omega) _ _
  have hnew : (m.add file name).dir (m.maxProfileId + 1) = some file := Function.update_self ..
  have hlisted : ∀ q ∈ m.profiles, q.id ≤ m.maxProfileId := fun q hq =>
    hm.knownBound q (hm.listed q hq)
  refine ⟨⟨?_, ?_, ?_⟩, ?_, ?_, ?_, ?_, ?_, ?_, ?_, ?_, ?_⟩
  · intro id f hdir
    by_cases hid : id = m.maxProfileId + 1
    · subst hid
      rw [hnew] at hdir
      cases hdir
      exact ⟨hfile.id, .inr ⟨_, List.mem_append_right _ (List.mem_singleton_self _), rfl, hfile.name.symm⟩⟩
    · have hdir' : m.dir id = some f := by
        rwa [show (m.add file name).dir id = m.dir id from Function.update_of_ne hid _ _] at hdir
      obtain ⟨hfid, hor⟩ := hm.files id f hdir'
      refine ⟨hfid, hor.imp_right ?_⟩
      rintro ⟨q, hq, hqid, hqname⟩
      exact ⟨q, by simp [add, hq], hqid, hqname⟩
  · intro q hq
    rcases List.mem_append.mp hq with hq | hq
    · obtain ⟨hshown, f, hf, hname⟩ := hm.profiles q hq
      exact ⟨hshown, f, (hold (hlisted q hq)).trans hf, hname⟩
    · rw [List.mem_singleton.mp hq]
      refine ⟨fun hhidden => ?_, file, hnew, hfile.name⟩
      have hle : m.maxProfileId + 1 ≤ m.maxProfileId := hm.hiddenBound _ hhidden
      omega
  · have hfresh : m.maxProfileId + 1 ∉ m.profiles.map Profile.id := by
      intro hmem
      obtain ⟨q, hq, hqid⟩ := List.mem_map.mp hmem
      have := hlisted q hq
      omega
    simpa [add, List.nodup_append, hm.ids] using hfresh
  · intro id f hdir
    by_cases hid : id = m.maxProfileId + 1
    · rw [hid, hnew] at hdir
      cases hdir
      exact hfile.cursorSpeed
    · have hdir' : m.dir id = some f := by
        rwa [show (m.add file name).dir id = m.dir id from Function.update_of_ne hid _ _] at hdir
      exact hm.speeds id f hdir'
  · intro id f hdir
    by_cases hid : id = m.maxProfileId + 1
    · exact hid.le
    · have hdir' : m.dir id = some f := by
        rwa [show (m.add file name).dir id = m.dir id from Function.update_of_ne hid _ _] at hdir
      exact (hm.bound id f hdir').trans (Int.le.intro 1 rfl)
  · intro id hid
    exact (hm.hiddenBound id hid).trans (Int.le.intro 1 rfl)
  · intro q hq
    rcases List.mem_append.mp hq with hq | hq
    · exact (hm.knownBound q hq).trans (Int.le.intro 1 rfl)
    · rw [List.mem_singleton.mp hq]
      exact le_rfl
  · intro q hq
    rcases List.mem_append.mp hq with hq | hq
    · exact List.mem_append_left _ (hm.listed q hq)
    · exact List.mem_append_right _ hq
  · intro q hq hnot
    rcases List.mem_append.mp hq with hq | hq
    · exact (hold (hm.knownBound q hq)).trans
        (hm.gone q hq fun h => hnot (List.mem_append_left _ h))
    · exact absurd (List.mem_append_right _ hq) hnot
  · intro q hq
    rcases List.mem_append.mp hq with hq | hq
    · exact (hm.refs q hq).trans (Nat.lt_succ_self _)
    · rw [List.mem_singleton.mp hq]
      exact Nat.lt_succ_self _
  · intro q hq q' hq' href
    rcases List.mem_append.mp hq with hq | hq <;> rcases List.mem_append.mp hq' with hq' | hq'
    · exact hm.distinct q hq q' hq' href
    · rw [List.mem_singleton.mp hq'] at href
      exact absurd href (hm.refs q hq).ne
    · rw [List.mem_singleton.mp hq] at href
      exact absurd href.symm (hm.refs q' hq').ne
    · rw [List.mem_singleton.mp hq, List.mem_singleton.mp hq']
  · change 0 ≤ m.maxProfileId + 1 ∧ m.maxProfileId + 1 ≤ 2 ^ 31 - 1
    omega

/-! ## One operation -/

section

variable [One J]

theorem create_eq (hm : m.Kept hidden) (h : m.maxProfileId < 2 ^ 31 - 1) (name : String) :
    m.createProfile name =
      m.add ⟨m.maxProfileId + 1, some name, .value 1, some [], none, false⟩ name := by
  unfold createProfile save
  simp only [nextId_eq hm h, register, saveFile, dir_nextId hm]
  rfl

end

theorem duplicate_cases (hm : m.Kept hidden) (h : m.maxProfileId < 2 ^ 31 - 1) (source : Profile) :
    m.duplicateProfile source = m.count ∨
      ∃ file name, m.Fresh file name ∧ m.duplicateProfile source = m.add file name := by
  unfold duplicateProfile
  simp only [nextId_eq hm h]
  cases hdata : m.dir source.id with
  | none => exact .inl rfl
  | some data =>
    have hfresh : m.Fresh { data with
        id := m.maxProfileId + 1
        name := some (freeName source.name (m.profiles.map Profile.name))
        template := false } (freeName source.name (m.profiles.map Profile.name)) :=
      ⟨rfl, rfl, hm.speeds _ data hdata⟩
    refine .inr ⟨_, _, hfresh, ?_⟩
    simp only [hfresh.load]
    rfl

theorem import_cases (hm : m.Kept hidden) {data : ProfileImport E J}
    (h : data.id ≠ none → data.name ≠ .missing → m.maxProfileId < 2 ^ 31 - 1 ∧ m.Importable data) :
    m.importProfile data = m ∨
      m.maxProfileId < 2 ^ 31 - 1 ∧
        ∃ file name, m.Fresh file name ∧ m.importProfile data = m.add file name := by
  unfold importProfile
  cases hid : data.id with
  | none => exact .inl rfl
  | some id =>
    cases hname : data.name with
    | missing => exact .inl rfl
    | refused =>
      obtain ⟨name, hvalue, -⟩ := (h (by simp [hid]) (by simp [hname])).2.name
      rw [hname] at hvalue
      cases hvalue
    | value name =>
      obtain ⟨hmax, ⟨name', hvalue, hfree⟩, hspeed⟩ := h (by simp [hid]) (by simp [hname])
      rw [hname] at hvalue
      cases hvalue
      have hfind : m.profiles.findIdx? (fun q => q.name = name) = none := by
        simpa using hfree
      have hfresh : m.Fresh ⟨m.maxProfileId + 1, some name, data.cursorSpeed, data.elements,
          data.controllers, data.template⟩ name := ⟨rfl, rfl, hspeed⟩
      refine .inr ⟨hmax, _, name, hfresh, ?_⟩
      simp only [importedName, nextId_eq hm hmax, hfresh.load, hfind]
      rfl

/-- A profile that has a file is in the list. -/
theorem Kept.mem (hm : m.Kept hidden) (hp : p ∈ m.known) (hfile : m.dir p.id ≠ none) :
    p ∈ m.profiles := by
  by_contra hnot
  exact hfile (hm.gone p hp hnot)

theorem Kept.eq_of_id (hm : m.Kept hidden) {q : Profile} (hp : p ∈ m.profiles)
    (hq : q ∈ m.profiles) (h : p.id = q.id) : p = q :=
  List.inj_on_of_nodup_map hm.ids hp hq h

theorem save_kept (hm : m.Kept hidden) {contents : ProfileContents E J} (hp : p ∈ m.known)
    (hfile : m.dir p.id ≠ none) : (m.save p contents).Kept hidden := by
  have hmem := hm.mem hp hfile
  unfold save
  cases hsave : saveFile (m.dir p.id) p contents with
  | none => exact hm
  | some file =>
    have hwritten : file.id = p.id ∧ file.name = some p.name ∧ file.cursorSpeed ≠ .refused := by
      unfold saveFile at hsave
      simp only [Option.bind_eq_bind, Option.pure_def, Option.bind_eq_some_iff] at hsave
      obtain ⟨speed, -, elements, -, hfile⟩ := hsave
      cases hfile
      exact ⟨rfl, rfl, by simp⟩
    dsimp only
    refine ⟨⟨?_, ?_, hm.ids⟩, ?_, ?_, hm.hiddenBound, hm.knownBound, hm.listed, ?_, hm.refs,
      hm.distinct, hm.range⟩
    · intro id f hdir
      change Function.update m.dir p.id _ id = some f at hdir
      by_cases hid : id = p.id
      · subst hid
        rw [Function.update_self] at hdir
        cases hdir
        exact ⟨hwritten.1, .inr ⟨p, hmem, rfl, hwritten.2.1.symm⟩⟩
      · rw [Function.update_of_ne hid] at hdir
        exact hm.files id f hdir
    · intro q hq
      refine ⟨(hm.profiles q hq).1, ?_⟩
      -- Two listed profiles do not share an id, so the file that is written is this one's alone.
      by_cases hid : q.id = p.id
      · have hqp := hm.eq_of_id hq hmem hid
        exact ⟨file, hqp ▸ Function.update_self .., by rw [hqp, hwritten.2.1]⟩
      · obtain ⟨f, hf, hname⟩ := (hm.profiles q hq).2
        exact ⟨f, (Function.update_of_ne hid _ _).trans hf, hname⟩
    · intro id f hdir
      change Function.update m.dir p.id _ id = some f at hdir
      by_cases hid : id = p.id
      · rw [hid, Function.update_self] at hdir
        cases hdir
        exact hwritten.2.2
      · rw [Function.update_of_ne hid] at hdir
        exact hm.speeds id f hdir
    · intro id f hdir
      change Function.update m.dir p.id _ id = some f at hdir
      by_cases hid : id = p.id
      · exact hid ▸ hm.knownBound p hp
      · rw [Function.update_of_ne hid] at hdir
        exact hm.bound id f hdir
    · intro q hq hnot
      have hid : q.id ≠ p.id := by
        intro hid
        have hnone := hm.gone q hq hnot
        rw [hid] at hnone
        exact hfile hnone
      exact (Function.update_of_ne hid _ _).trans (hm.gone q hq hnot)

theorem remove_kept (hm : m.Kept hidden) {deleted : Bool} (hp : p ∈ m.known) :
    (m.removeProfile p deleted).Kept hidden := by
  unfold removeProfile
  split_ifs with hdeleted
  · have hfile : m.dir p.id ≠ none := by
      intro hnone
      simp [hnone] at hdeleted
    have hmem := hm.mem hp hfile
    have hnodup : m.profiles.Nodup := List.Nodup.of_map _ hm.ids
    have hstays : ∀ {q}, q ∈ m.profiles.erase p ↔ q ≠ p ∧ q ∈ m.profiles := hnodup.mem_erase_iff
    have hother : ∀ {q}, q ∈ m.profiles → q ≠ p → q.id ≠ p.id := fun hq hne hid =>
      hne (hm.eq_of_id hq hmem hid)
    -- A file that is left was there before, and is of another profile.
    have hleft : ∀ {id f}, Function.update m.dir p.id none id = some f → m.dir id = some f := by
      intro id f hdir
      by_cases hid : id = p.id
      · simp [hid] at hdir
      · rwa [Function.update_of_ne hid] at hdir
    refine ⟨⟨?_, ?_, ?_⟩, fun id f hdir => hm.speeds id f (hleft hdir),
      fun id f hdir => hm.bound id f (hleft hdir), hm.hiddenBound, hm.knownBound, ?_, ?_, hm.refs,
      hm.distinct, hm.range⟩
    · intro id f hdir
      change Function.update m.dir p.id _ id = some f at hdir
      by_cases hid : id = p.id
      · subst hid
        simp at hdir
      · rw [Function.update_of_ne hid] at hdir
        obtain ⟨hfid, hor⟩ := hm.files id f hdir
        refine ⟨hfid, hor.imp_right ?_⟩
        rintro ⟨q, hq, hqid, hqname⟩
        exact ⟨q, hstays.mpr ⟨fun h => hid (by rw [← hqid, h]), hq⟩, hqid, hqname⟩
    · intro q hq
      obtain ⟨hne, hq⟩ := hstays.mp hq
      obtain ⟨hshown, f, hf, hname⟩ := hm.profiles q hq
      exact ⟨hshown, f, (Function.update_of_ne (hother hq hne) _ _).trans hf, hname⟩
    · exact hm.ids.sublist (List.erase_sublist.map _)
    · intro q hq
      exact hm.listed q (hstays.mp hq).2
    · intro q hq hnot
      change Function.update m.dir p.id none q.id = none
      by_cases hid : q.id = p.id
      · simp [hid]
      · rw [Function.update_of_ne hid]
        refine hm.gone q hq fun hin => hnot (hstays.mpr ⟨?_, hin⟩)
        intro hqp
        exact hid (congrArg Profile.id hqp)
  · exact hm

theorem step_kept [One J] {c : Call E J} (hm : m.Kept hidden) (hc : m.Known c ∧ m.Sound c) :
    (m.step c).Kept hidden := by
  obtain ⟨hknown, hsound⟩ := hc
  cases c with
  | create name =>
    rw [step, create_eq hm hsound]
    exact add_kept hm hsound ⟨rfl, rfl, by simp⟩
  | duplicate source =>
    rw [step]
    obtain heq | ⟨file, name, hfile, heq⟩ := duplicate_cases hm hsound source
    · rw [heq]
      exact count_kept hm hsound
    · rw [heq]
      exact add_kept hm hsound hfile
  | importProfile data =>
    rw [step]
    obtain heq | ⟨hmax, file, name, hfile, heq⟩ := import_cases hm hsound
    · rw [heq]
      exact hm
    · rw [heq]
      exact add_kept hm hmax hfile
  | save p contents => exact save_kept hm hknown hsound
  | remove p deleted => exact remove_kept hm hknown

/-- A call that makes a new profile. -/
def Call.Makes : Call E J → Prop
  | .create _ | .duplicate _ | .importProfile _ => True
  | _ => False

/-- A new profile leaves the files alone that are there. -/
theorem step_keeps_files [One J] {c : Call E J} (hm : m.Kept hidden) (hc : m.Sound c) (hmakes : c.Makes)
    {id : Int} (hfile : m.dir id = some file) : (m.step c).dir id = some file := by
  have hid : id ≠ m.maxProfileId + 1 := by
    have := hm.bound id file hfile
    omega
  have hadd : ∀ file' name, (m.add file' name).dir id = some file := fun file' name =>
    (Function.update_of_ne hid _ _).trans hfile
  cases c with
  | create name =>
    rw [step, create_eq hm hc]
    exact hadd _ _
  | duplicate source =>
    rw [step]
    obtain heq | ⟨file', name, -, heq⟩ := duplicate_cases hm hc source
    · rw [heq]
      exact hfile
    · rw [heq]
      exact hadd file' name
  | importProfile data =>
    rw [step]
    obtain heq | ⟨-, file', name, -, heq⟩ := import_cases hm hc
    · rw [heq]
      exact hfile
    · rw [heq]
      exact hadd file' name
  | save p contents => exact hmakes.elim
  | remove p deleted => exact hmakes.elim

/-! ## Loading -/

/-- A directory of profile files, each named by its id, in the order of `listFiles`. -/
structure Directory (dir : Int → Option (ProfileFile E J)) (listing : List Int) : Prop where
  nodup : listing.Nodup
  complete : ∀ id, id ∈ listing ↔ ∃ file, dir id = some file
  ids : ∀ id file, dir id = some file → file.id = id ∧ -2 ^ 31 ≤ id ∧ id ≤ 2 ^ 31 - 1
  wellFormed : ∀ id file, dir id = some file → file.name ≠ none ∧ file.cursorSpeed ≠ .refused

/-- The templates, when they are ignored. -/
def Hidden (dir : Int → Option (ProfileFile E J)) (ignoreTemplates : Bool) (id : Int) : Prop :=
  ignoreTemplates = true ∧
    ∃ file name, dir id = some file ∧ file.name = some name ∧ Profile.isTemplate name = true

variable {dir : Int → Option (ProfileFile E J)} {listing : List Int} {objects : List Profile}

theorem loadProfile_fields {ref : Nat} (h : loadProfile file ref = some p) :
    p.ref = ref ∧ p.id = file.id ∧ file.name = some p.name ∧ file.cursorSpeed ≠ .refused := by
  unfold loadProfile at h
  cases hspeed : file.cursorSpeed with
  | refused =>
    rw [hspeed] at h
    cases h
  | _ =>
    rw [hspeed] at h
    obtain ⟨name, hname, rfl⟩ := Option.map_eq_some_iff.mp h
    exact ⟨rfl, rfl, hname, by simp⟩

theorem getElem?_of_mapM {α β : Type} {f : α → Option β} {l : List α} {l' : List β}
    (h : l.mapM f = some l') : l'.length = l.length ∧ ∀ n : Nat, l'[n]? = l[n]?.bind f := by
  induction l generalizing l' with
  | nil =>
    cases h
    simp
  | cons x l ih =>
    rw [List.mapM_cons] at h
    simp only [Option.pure_def, Option.bind_eq_bind, Option.bind_eq_some_iff, Option.some.injEq] at h
    obtain ⟨y, hy, ys, hys, rfl⟩ := h
    obtain ⟨hlength, hget⟩ := ih hys
    refine ⟨by simp [hlength], fun n => ?_⟩
    cases n with
    | zero => simp [hy]
    | succ n => simpa using hget n

/-- The objects are those of the files. -/
theorem getElem?_loadObjects (h : loadObjects dir listing = some objects) (n : Nat) :
    objects[n]? = (listing.filterMap dir)[n]?.bind fun file => loadProfile file n := by
  obtain ⟨-, hget⟩ := getElem?_of_mapM h
  rw [hget, List.getElem?_zipIdx, Option.bind_map]
  simp

theorem mem_loadObjects (h : loadObjects dir listing = some objects) (hp : p ∈ objects) :
    ∃ file, (listing.filterMap dir)[p.ref]? = some file ∧ p.id = file.id ∧ file.name = some p.name := by
  obtain ⟨n, hn⟩ := List.mem_iff_getElem?.mp hp
  rw [getElem?_loadObjects h, Option.bind_eq_some_iff] at hn
  obtain ⟨file, hfile, hload⟩ := hn
  obtain ⟨href, hid, hname, -⟩ := loadProfile_fields hload
  exact ⟨file, href ▸ hfile, hid, hname⟩

/-- Each file is loaded. -/
theorem exists_loadObjects (h : loadObjects dir listing = some objects) {n : Nat}
    (hfile : (listing.filterMap dir)[n]? = some file) :
    ∃ p, objects[n]? = some p ∧ p.id = file.id ∧ file.name = some p.name := by
  have hlength : objects.length = (listing.filterMap dir).length := by
    simpa using (getElem?_of_mapM h).1
  obtain ⟨hlt, -⟩ := List.getElem?_eq_some_iff.mp hfile
  have hp := List.getElem?_eq_getElem (hlength.symm ▸ hlt)
  have hload := hp
  rw [getElem?_loadObjects h, hfile, Option.bind_some] at hload
  obtain ⟨-, hid, hname, -⟩ := loadProfile_fields hload
  exact ⟨_, hp, hid, hname⟩

theorem loadObjects_file (hdir : Directory dir listing) (h : loadObjects dir listing = some objects)
    (hp : p ∈ objects) : ∃ file, dir p.id = some file ∧ file.name = some p.name := by
  obtain ⟨file, hfile, hid, hname⟩ := mem_loadObjects h hp
  obtain ⟨id, -, hdirid⟩ := List.mem_filterMap.mp (List.mem_of_getElem? hfile)
  have := (hdir.ids id file hdirid).1
  exact ⟨file, by rw [hid, this, hdirid], hname⟩

theorem loadObjects_of_file (hdir : Directory dir listing) (h : loadObjects dir listing = some objects)
    {id : Int} (hfile : dir id = some file) :
    ∃ p ∈ objects, p.id = id ∧ file.name = some p.name := by
  have hmem : file ∈ listing.filterMap dir :=
    List.mem_filterMap.mpr ⟨id, (hdir.complete id).mpr ⟨file, hfile⟩, hfile⟩
  obtain ⟨n, hn⟩ := List.mem_iff_getElem?.mp hmem
  obtain ⟨p, hp, hid, hname⟩ := exists_loadObjects h hn
  exact ⟨p, List.mem_of_getElem? hp, hid.trans (hdir.ids id file hfile).1, hname⟩

theorem loadObjects_ids (hdir : Directory dir listing) (h : loadObjects dir listing = some objects) :
    (objects.map Profile.id).Nodup := by
  have hids : objects.map Profile.id = (listing.filterMap dir).map ProfileFile.id := by
    apply List.ext_getElem?
    intro n
    rw [List.getElem?_map, List.getElem?_map]
    cases hfile : (listing.filterMap dir)[n]? with
    | none => rw [getElem?_loadObjects h, hfile, Option.bind_none, Option.map_none, Option.map_none]
    | some file =>
      obtain ⟨p, hp, hid, -⟩ := exists_loadObjects h hfile
      rw [hp, Option.map_some, Option.map_some, hid]
  rw [hids, List.map_filterMap]
  refine hdir.nodup.filterMap ?_
  intro id id' n hn hn'
  simp only [Option.mem_def, Option.map_eq_some_iff] at hn hn'
  obtain ⟨file, hfile, rfl⟩ := hn
  obtain ⟨file', hfile', heq⟩ := hn'
  rw [← (hdir.ids id file hfile).1, ← (hdir.ids id' file' hfile').1, heq]

theorem loadObjects_exists (hdir : Directory dir listing) :
    ∃ objects, loadObjects dir listing = some objects := by
  have hall : ∀ files : List (ProfileFile E J × Nat), (∀ q ∈ files, ∃ id, dir id = some q.1) →
      ∃ objects, (files.mapM fun q => loadProfile q.1 q.2) = some objects := by
    intro files hfiles
    induction files with
    | nil => exact ⟨[], rfl⟩
    | cons q files ih =>
      obtain ⟨objects, hobjects⟩ := ih fun q' hq' => hfiles q' (List.mem_cons_of_mem _ hq')
      obtain ⟨id, hid⟩ := hfiles q (List.mem_cons_self ..)
      obtain ⟨hname, hspeed⟩ := hdir.wellFormed id q.1 hid
      obtain ⟨name, hname⟩ := Option.ne_none_iff_exists'.mp hname
      refine ⟨⟨q.2, q.1.id, name⟩ :: objects, ?_⟩
      have hload : loadProfile q.1 q.2 = some ⟨q.2, q.1.id, name⟩ := by
        unfold loadProfile
        rw [hname]
        cases hcursor : q.1.cursorSpeed with
        | refused => exact absurd hcursor hspeed
        | _ => rfl
      rw [List.mapM_cons, hload, hobjects]
      rfl
  refine hall _ fun q hq => ?_
  obtain ⟨id, -, hid⟩ := List.mem_filterMap.mp (List.fst_mem_of_mem_zipIdx hq)
  exact ⟨id, hid⟩

theorem foldl_max_bounds (objects : List Profile) (n : Int) :
    n ≤ objects.foldl (fun m p => max m p.id) n ∧
      (∀ p ∈ objects, p.id ≤ objects.foldl (fun m p => max m p.id) n) ∧
        ∀ b, n ≤ b → (∀ p ∈ objects, p.id ≤ b) → objects.foldl (fun m p => max m p.id) n ≤ b := by
  induction objects generalizing n with
  | nil => simp
  | cons q objects ih =>
    obtain ⟨h1, h2, h3⟩ := ih (max n q.id)
    refine ⟨(le_max_left _ _).trans h1, ?_, ?_⟩
    · intro p hp
      rcases List.mem_cons.mp hp with rfl | hp
      · exact (le_max_right _ _).trans h1
      · exact h2 p hp
    · intro b hn hb
      exact h3 b (max_le hn (hb q (by simp))) (fun p hp => hb p (by simp [hp]))

/-- What is loaded is made of the objects. -/
theorem loadProfiles_eq {ignoreTemplates : Bool} (h : loadProfiles dir listing ignoreTemplates = some m) :
    ∃ objects, loadObjects dir listing = some objects ∧ m.dir = dir ∧ m.known = m.profiles ∧
      m.created = objects.length ∧ m.maxProfileId = objects.foldl (fun m p => max m p.id) 0 ∧
        m.profiles.Perm (objects.filter fun p => !(ignoreTemplates && Profile.isTemplate p.name)) := by
  unfold loadProfiles at h
  simp only [Option.pure_def, Option.bind_eq_bind, Option.bind_eq_some_iff, Option.some.injEq] at h
  obtain ⟨objects, hobjects, rfl⟩ := h
  exact ⟨objects, hobjects, rfl, rfl, rfl, rfl, List.mergeSort_perm ..⟩

theorem loadProfiles_exists (hdir : Directory dir listing) (ignoreTemplates : Bool) :
    ∃ m, loadProfiles dir listing ignoreTemplates = some m := by
  obtain ⟨objects, hobjects⟩ := loadObjects_exists hdir
  simp [loadProfiles, hobjects]

theorem load_kept (hdir : Directory dir listing) {ignoreTemplates : Bool}
    (h : loadProfiles dir listing ignoreTemplates = some m) : m.Kept (Hidden dir ignoreTemplates) := by
  obtain ⟨objects, hobjects, rfl, hknown, hcreated, hmaxid, hperm⟩ := loadProfiles_eq h
  obtain ⟨hzero, hmax, hleast⟩ := foldl_max_bounds objects 0
  rw [← hmaxid] at hzero hmax hleast
  -- A template is loaded and counted, but not listed if templates are to be ignored.
  have hlisted : ∀ {p}, p ∈ m.profiles ↔
      p ∈ objects ∧ ¬(ignoreTemplates = true ∧ Profile.isTemplate p.name = true) := by
    intro p
    rw [hperm.mem_iff, List.mem_filter]
    cases ignoreTemplates <;> cases Profile.isTemplate p.name <;> simp
  have hbound : ∀ id file, m.dir id = some file → id ≤ m.maxProfileId := by
    intro id file hfile
    obtain ⟨p, hp, hpid, -⟩ := loadObjects_of_file hdir hobjects hfile
    exact hpid ▸ hmax p hp
  refine ⟨⟨?_, ?_, ?_⟩, fun id file hfile => (hdir.wellFormed id file hfile).2, hbound, ?_, ?_,
    fun p hp => hknown ▸ hp, fun p hp hnot => absurd (hknown ▸ hp) hnot, ?_, ?_, ?_⟩
  · intro id file hfile
    refine ⟨(hdir.ids id file hfile).1, ?_⟩
    obtain ⟨p, hp, hpid, hname⟩ := loadObjects_of_file hdir hobjects hfile
    by_cases hhidden : ignoreTemplates = true ∧ Profile.isTemplate p.name = true
    · exact .inl ⟨hhidden.1, file, p.name, hfile, hname, hhidden.2⟩
    · exact .inr ⟨p, hlisted.mpr ⟨hp, hhidden⟩, hpid, hname.symm⟩
  · intro p hp
    obtain ⟨hobject, hshown⟩ := hlisted.mp hp
    obtain ⟨file, hfile, hname⟩ := loadObjects_file hdir hobjects hobject
    refine ⟨?_, file, hfile, hname⟩
    rintro ⟨hignore, file', name, hfile', hname', htemplate⟩
    rw [hfile] at hfile'
    cases hfile'
    rw [hname] at hname'
    cases hname'
    exact hshown ⟨hignore, htemplate⟩
  · exact ((hperm.map Profile.id).nodup_iff).mpr
      ((loadObjects_ids hdir hobjects).sublist (List.filter_sublist.map _))
  · rintro id ⟨-, file, -, hfile, -⟩
    exact hbound id file hfile
  · intro p hp
    exact hmax p (hlisted.mp (hknown ▸ hp)).1
  · intro p hp
    obtain ⟨file, hfile, -⟩ := mem_loadObjects hobjects (hlisted.mp (hknown ▸ hp)).1
    obtain ⟨q, hq, -⟩ := exists_loadObjects hobjects hfile
    obtain ⟨hlt, -⟩ := List.getElem?_eq_some_iff.mp hq
    rwa [hcreated]
  · intro p hp q hq href
    obtain ⟨file, hfile, hid, hname⟩ := mem_loadObjects hobjects (hlisted.mp (hknown ▸ hp)).1
    obtain ⟨file', hfile', hid', hname'⟩ := mem_loadObjects hobjects (hlisted.mp (hknown ▸ hq)).1
    rw [href, hfile'] at hfile
    cases hfile
    cases p
    cases q
    simp_all
  · refine ⟨hzero, hleast _ (by decide) fun p hp => ?_⟩
    obtain ⟨file, hfile, -⟩ := loadObjects_file hdir hobjects hp
    exact (hdir.ids _ file hfile).2.2

/-! ## Runs -/

/-- One file, with id 1. -/
def oneFile : Int → Option (ProfileFile Unit Nat) := fun id =>
  if id = 1 then some ⟨1, some "a", .value 1, some [], none, false⟩ else none

theorem oneFile_directory : Directory oneFile [1] := by
  refine ⟨by decide, fun id => ?_, fun id file hfile => ?_, fun id file hfile => ?_⟩
  · by_cases hid : id = 1 <;> simp [oneFile, hid]
  · unfold oneFile at hfile
    split_ifs at hfile with hid
    cases hfile
    subst hid
    decide
  · unfold oneFile at hfile
    split_ifs at hfile
    cases hfile
    simp

/-- What is loaded from it. -/
def oneProfile : ProfileManager Unit Nat := ⟨oneFile, [⟨0, 1, "a"⟩], 1, [⟨0, 1, "a"⟩], 1⟩

theorem oneFile_loaded : loadProfiles oneFile [1] false = some oneProfile := by
  simp [loadProfiles, loadObjects, loadProfile, oneFile, oneProfile]

def importNamed (name : JsonField String) : Call Unit Nat :=
  .importProfile ⟨some 7, name, .missing, some [], none, false⟩

end ProfileManager

end XoDos
