import Mathlib.Data.List.DropRight
import XoDos.JavaText
import XoDos.TextLines

/-!
# The editor of the Wine registry

The registry is a text file with a section for each key.  An edit finds the place by adding up the
lengths of lines, and copies the file up to there through a buffer.

Reading and writing do not fail here, and the offsets are natural numbers.
-/

namespace XoDos

/-- A place in the file.  The offset is that of the end of the line before. -/
structure Location where
  offset : Int
  start : Nat
  stop : Nat
deriving DecidableEq, Repr

structure WineRegistryEditor where
  cloneFile : JavaString
  createKeyIfNotExist : Bool
  lastParentKeyPosition : Nat
  lastParentKey : JavaString
deriving DecidableEq, Repr

namespace WineRegistryEditor

def new (file : JavaString) : WineRegistryEditor := ⟨file, true, 0, []⟩

def escape (text : JavaString) : JavaString :=
  replace [0x22] [0x5C, 0x22] (replace [0x5C] [0x5C, 0x5C] text)

def unescape (text : JavaString) : JavaString :=
  replace [0x5C, 0x5C] [0x5C] (replace [0x5C, 0x22] [0x22] text)

/-- The second search for a quote starts at the quote that the first one has found. -/
def lineHasName (line : JavaString) : Bool :=
  decide (0x22 ∈ line) && decide (0x3D ∈ line.dropWhile (· ≠ 0x22))

/-- What comes before the last backslash. -/
def parentKey (key : JavaString) : Option JavaString :=
  if 0x5C ∈ key then some ((key.reverse.dropWhile (· ≠ 0x5C)).drop 1).reverse else none

/-! ## Searching -/

/-- Where the section ends that is being read. -/
def sectionStop (total emptyLines : Nat) : List JavaString → Nat
  | [] => total - 1
  | line :: rest =>
    if [0x5B] <+: line then total - emptyLines - 1
    else sectionStop (total + line.length + 1) (if line = [] then emptyLines + 1 else 0) rest

/-- The loop of `getKeyLocation`: where the section is, and the position of its parent. -/
def keyLoop (key : JavaString) (parent : Option JavaString) (position total : Nat) :
    List JavaString → Option Location × Nat
  | [] => (none, position)
  | line :: rest =>
    let found := parent.any fun p => decide (p <+: line)
    let position := if found then total else position
    let parent := if found then none else parent
    let start := total + line.length + 1
    if parent.isNone && decide (key <+: line) then
      (some ⟨(total : Int) - 1, start, sectionStop start 0 rest⟩, position)
    else keyLoop key parent position start rest

/-- The text with which the line of a section starts. -/
def keyText (key : JavaString) (keyAsPrefix : Bool) : JavaString :=
  0x5B :: escape key ++ if keyAsPrefix then [] else [0x5D]

/-- The second result is the new `lastParentKeyPosition`. -/
def getKeyLocation (file : JavaString) (lastParentKeyPosition : Nat) (key : JavaString)
    (keyAsPrefix : Bool) : Option Location × Nat :=
  let parent := if lastParentKeyPosition = 0 then (parentKey key).map (0x5B :: escape ·) else none
  keyLoop (keyText key keyAsPrefix) parent lastParentKeyPosition lastParentKeyPosition
    (linesOf (file.drop lastParentKeyPosition))

/-- `key.split("\\\\")`, without the empty strings at the end. -/
def splitKey (key : JavaString) : List JavaString :=
  if 0x5C ∈ key then (key.splitOn 0x5C).rdropWhile (· = []) else [key]

/-- The loop of `getParentKeyLocation`.  The last part of the stack comes first. -/
def parentLoop (file : JavaString) : Nat → List JavaString → Option Location × Nat
  | position, [] => (none, position)
  | position, part :: stack =>
    let currentKey := [0x5C].intercalate (part :: stack).reverse
    match getKeyLocation file position currentKey true with
    | (some location, position) => (some location, position)
    | (none, position) => parentLoop file position stack

/-- A key of backslashes only has no parts, and `subList` raises. -/
def getParentKeyLocation (file : JavaString) (lastParentKeyPosition : Nat) (key : JavaString) :
    Java (Option Location × Nat) :=
  match splitKey key with
  | [] => .error .illegalArgument
  | parts => .ok (parentLoop file lastParentKeyPosition parts.dropLast.reverse)

/-- Where the value ends that is being read. -/
def valueStop (length total : Nat) : List JavaString → Nat
  | [] => total - 1
  | line :: rest =>
    if total < length then
      if line = [] || lineHasName line then total - 1
      else valueStop length (total + line.length + 1) rest
    else total - 1

/-- The loop of `getValueLocation`, with offsets from the start of the section. -/
def valueLoop (name : JavaString) (length total : Nat) : List JavaString → Option Location
  | [] => none
  | line :: rest =>
    if total < length then
      let next := total + line.length + 1
      if name <+: line then
        some ⟨(total : Int) - 1, total + name.length, valueStop length next rest⟩
      else valueLoop name length next rest
    else none

/-- The name of a value with its quotes, or the sign for the default value. -/
def nameText (name : Option JavaString) : JavaString :=
  match name with
  | some name => 0x22 :: escape name ++ [0x22]
  | none => [0x40]

def getValueLocation (file : JavaString) (keyLocation : Location) (name : Option JavaString) :
    Option Location :=
  if keyLocation.start = keyLocation.stop then none
  else
    (valueLoop (nameText name ++ [0x3D]) (keyLocation.stop - keyLocation.start) 0
      (linesOf (file.drop keyLocation.start))).map fun l =>
        ⟨keyLocation.start + l.offset, keyLocation.start + l.start, keyLocation.start + l.stop⟩

/-! ## Copying -/

def bufferSize : Nat := 65536

/-- What was written, the buffer, what is still to be read, and the length of the last round. -/
structure Copy where
  written : JavaString
  buffer : JavaString
  rest : JavaString
  length : Nat

/-- One round: what the file no longer has is taken from the buffer as it was. -/
def Copy.round (c : Copy) (length : Nat) : Copy :=
  let buffer := c.rest.take length ++ c.buffer.drop (min length c.rest.length)
  ⟨c.written ++ buffer.take length, buffer, c.rest.drop length, length⟩

/-- The loop that copies the first `count` units. -/
def copyLoop : Nat → Nat → Copy → Copy
  | 0, _, c => c
  | fuel + 1, count, c =>
    if count = 0 then c
    else copyLoop fuel (count - min bufferSize count) (c.round (min bufferSize count))

def copy (file : JavaString) (count : Nat) : Copy :=
  copyLoop count count ⟨[], List.replicate bufferSize 0, file, 0⟩

/-! ## Keys -/

variable (e : WineRegistryEditor)

def resetLastParentKeyPositionIfNeed (newKey : JavaString) : WineRegistryEditor :=
  match parentKey newKey with
  | none => { e with lastParentKeyPosition := 0, lastParentKey := [] }
  | some parent =>
    let lastParentKeyPosition := if parent = e.lastParentKey then e.lastParentKeyPosition else 0
    { e with lastParentKeyPosition, lastParentKey := parent }

/-- The digits of a number, the highest first. -/
def digits (base n : Nat) : JavaString :=
  if n = 0 then [0x30]
  else (Nat.digits base n).reverse.map fun d => if d < 10 then 0x30 + d else 0x57 + d

/-- The head of a new section, without the end of its last line. -/
def newSection (now : Nat) (key : JavaString) : List JavaString :=
  let currentTime := now + 86400 * (369 * 365 + 89) * 10000000
  [0x5B :: escape key ++ 0x5D :: 0x20 :: digits 10 (now / 1000),
    ascii "#time=" ++ digits 16 (currentTime / 4294967296) ++
      (digits 16 (currentTime % 4294967296)).leftpad 8 0x30]

/-- Where a new section goes.  Without a parent it is the end of the file, whose length counts
bytes. -/
def newPlace (file : JavaString) : Option Location → Nat
  | some location => location.stop + 1
  | none => (getBytes file).length

def createKey (now : Nat) (key : JavaString) : Java (WineRegistryEditor × Location) := do
  let (location, lastParentKeyPosition) ← getParentKeyLocation e.cloneFile 0 key
  let count := newPlace e.cloneFile location
  let c := copy e.cloneFile count
  let content := 0x0A :: unlines (newSection now key)
  let stop := count + content.length - 1
  let cloneFile := rewritten (c.written ++ content ++ c.rest)
  return ({ e with cloneFile, lastParentKeyPosition }, ⟨count, stop, stop⟩)

/-! ## Values -/

/-- What `setRawValue` does with the section of the key. -/
def writeValue (keyLocation : Location) (name : Option JavaString) (value : JavaString) :
    WineRegistryEditor :=
  match getValueLocation e.cloneFile keyLocation name with
  | none =>
    let c := copy e.cloneFile keyLocation.stop
    let cloneFile := rewritten (c.written ++ 0x0A :: (nameText name ++ 0x3D :: value) ++ c.rest)
    { e with cloneFile }
  | some location =>
    let c := copy e.cloneFile location.start
    let cloneFile := rewritten (c.written ++ value ++ c.rest.drop (location.stop - location.start))
    { e with cloneFile }

def setRawValue (now : Nat) (key : JavaString) (name : Option JavaString) (value : JavaString) :
    Java WineRegistryEditor := do
  let e := e.resetLastParentKeyPositionIfNeed key
  let (keyLocation, lastParentKeyPosition) :=
    getKeyLocation e.cloneFile e.lastParentKeyPosition key false
  let e := { e with lastParentKeyPosition }
  match keyLocation with
  | some keyLocation => return e.writeValue keyLocation name value
  | none =>
    if e.createKeyIfNotExist then
      let (e, keyLocation) ← e.createKey now key
      return e.writeValue keyLocation name value
    else return e

def setStringValue (now : Nat) (key : JavaString) (name value : Option JavaString) :
    Java WineRegistryEditor :=
  e.setRawValue now key name (0x22 :: escape (value.getD []) ++ [0x22])

/-- The value, if it is there as a whole. -/
def readValue (file : JavaString) (location : Location) : Option JavaString :=
  let buffer := (file.drop location.start).take (location.stop - location.start)
  if buffer.length = location.stop - location.start then some (unescape buffer) else none

def getRawValue (key : JavaString) (name : Option JavaString) :
    Option JavaString × WineRegistryEditor :=
  let (keyLocation, lastParentKeyPosition) := getKeyLocation e.cloneFile 0 key false
  let value := do
    let location ← getValueLocation e.cloneFile (← keyLocation) name
    readValue e.cloneFile location
  (value, { e with lastParentKeyPosition })

/-- `substring(1, length() - 1)` -/
def unquote (value : JavaString) : Java JavaString :=
  if value.length < 2 then .error .stringIndexOutOfBounds else .ok ((value.drop 1).dropLast)

/-- The string that is read, or null, or an exception. -/
def getStringValue (key : JavaString) (name : Option JavaString) : Java (Option JavaString) :=
  match (e.getRawValue key name).1 with
  | some value => (unquote value).map some
  | none => .ok none

/-! ## Removals -/

/-- A blank line before the region goes with it. -/
def removeRegion (location : Location) : WineRegistryEditor :=
  let c := copy e.cloneFile location.offset.toNat
  let skipLine := decide (1 < c.length) && c.buffer[c.length - 1]? == some 0x0A
  let count := location.stop - location.offset + if skipLine then 1 else 0
  { e with cloneFile := rewritten (c.written ++ c.rest.drop count.toNat) }

def removeValue (key : JavaString) (name : Option JavaString) : WineRegistryEditor :=
  let (keyLocation, lastParentKeyPosition) := getKeyLocation e.cloneFile 0 key false
  let e := { e with lastParentKeyPosition }
  match keyLocation with
  | none => e
  | some keyLocation =>
    match getValueLocation e.cloneFile keyLocation name with
    | none => e
    | some location => e.removeRegion location

/-- The loop of `removeKey` over a tree, of at most as many rounds as the file has units. -/
def removeTree (key : JavaString) : Nat → WineRegistryEditor → Bool × WineRegistryEditor
  | 0, e => (false, e)
  | fuel + 1, e =>
    let (location, lastParentKeyPosition) :=
      getKeyLocation e.cloneFile e.lastParentKeyPosition key true
    let e := { e with lastParentKeyPosition }
    match location with
    | none => (false, e)
    | some location => (true, (removeTree key fuel (e.removeRegion location)).2)

def removeKey (key : JavaString) (tree : Bool) : Bool × WineRegistryEditor :=
  let e := { e with lastParentKeyPosition := 0 }
  if tree then removeTree key e.cloneFile.length e
  else
    let (location, lastParentKeyPosition) := getKeyLocation e.cloneFile 0 key false
    let e := { e with lastParentKeyPosition }
    match location with
    | none => (false, e)
    | some location => (true, e.removeRegion location)

end WineRegistryEditor

end XoDos
