import XoDos.TextStyle

/-!
# The library underneath

What the terminal uses of the Java and Android libraries.  Number parsing and
formatting are modelled.  The character database, Base64, the colour scheme and
the client that the application installs are parameters, gathered in the class
`Platform` with what their documentation promises.
-/

namespace XoDos

/-- The results of `Character.getType` that the terminal tells apart. -/
inductive CharacterType where
  | unassigned
  | surrogate
  | other
deriving DecidableEq, Repr

/-- The value of an ASCII digit or letter in some radix. -/
def asciiDigit (c radix : Nat) : Option Nat :=
  let value :=
    if 0x30 ≤ c ∧ c ≤ 0x39 then c - 0x30
    else if 0x41 ≤ c ∧ c ≤ 0x5a then c - 0x41 + 10
    else if 0x61 ≤ c ∧ c ≤ 0x7a then c - 0x61 + 10
    else radix
  if value < radix then some value else none

class Platform where
  /-- `Character.getType(codePoint)` -/
  getType : Nat → CharacterType
  getType_surrogate : ∀ c, getType c = .surrogate ↔ isSurrogate c = true
  getType_noncharacter : ∀ c, 0xFFFE ≤ c % 0x10000 → getType c = .unassigned
  getType_outside : ∀ c, 0x10FFFF < c → getType c = .unassigned
  /-- `Character.digit(char, radix)`, `none` for -1 -/
  digit : Nat → Nat → Option Nat
  digit_ascii : ∀ c radix, c < 0x80 → digit c radix = asciiDigit c radix
  /-- `new String(Base64.decode(text, 0), UTF_8)`, `none` for an exception -/
  decodeBase64 : JavaString → Option JavaString
  /-- `TerminalColors.COLOR_SCHEME.mDefaultColors` -/
  defaultColors : List (BitVec 32)
  defaultColors_length : defaultColors.length = TextStyle.numIndexedColors
  /-- Whether `mClient` is not null. -/
  hasClient : Bool
  /-- `mClient.getTerminalCursorStyle()`, `none` for null -/
  getTerminalCursorStyle : Option Int

theorem surrogate_of_noncharacter {c : Nat} (h : 0xFFFE ≤ c % 0x10000) : isSurrogate c = false := by
  simp only [isSurrogate, Bool.and_eq_false_iff, decide_eq_false_iff_not]
  omega

theorem surrogate_of_outside {c : Nat} (h : 0x10FFFF < c) : isSurrogate c = false := by
  simp only [isSurrogate, Bool.and_eq_false_iff, decide_eq_false_iff_not]
  omega

/-- A platform on which every scalar value but the noncharacters is assigned. -/
@[reducible] def plainPlatform : Platform where
  getType c :=
    if isSurrogate c then .surrogate
    else if 0x10FFFF < c ∨ 0xFFFE ≤ c % 0x10000 then .unassigned
    else .other
  getType_surrogate c := by
    cases isSurrogate c <;> simp
    split_ifs <;> simp
  getType_noncharacter c h := by
    simp [surrogate_of_noncharacter h, h]
  getType_outside c h := by
    simp [surrogate_of_outside h, h]
  digit := asciiDigit
  digit_ascii _ _ _ := rfl
  decodeBase64 _ := none
  defaultColors := List.replicate TextStyle.numIndexedColors 0xff000000
  defaultColors_length := List.length_replicate
  hasClient := false
  getTerminalCursorStyle := none

variable [Platform]

/-! ## Numbers -/

/-- The value of a non-empty string of digits. -/
def parseDigits (radix : Nat) : JavaString → Option Nat
  | [] => none
  | s => s.foldlM (fun n c => do
    let d ← Platform.digit c radix
    return n * radix + d) 0

/-- `Integer.parseInt(s, radix)`, `none` for a `NumberFormatException` -/
def parseInt (s : JavaString) (radix : Nat) : Option Int :=
  match s with
  | [] => none
  | c :: rest =>
    if c = '-'.toNat then do
      let n ← parseDigits radix rest
      if n ≤ 2 ^ 31 then some (-n) else none
    else do
      let n ← parseDigits radix (if c = '+'.toNat then rest else c :: rest)
      if n < 2 ^ 31 then some n else none

/-- The format `%d`. -/
def formatDecimal (n : Int) : JavaString := ascii (toString n)

/-- The formats `%0<width>x` and `%0<width>X`. -/
def formatHex (width : Nat) (upper : Bool) (n : Nat) : JavaString :=
  let digits := (Nat.toDigits 16 n).map fun c => (if upper then c.toUpper else c).toNat
  List.replicate (width - digits.length) 0x30 ++ digits

/-! ## Strings -/

/-- `s.split(";")`, which drops empty strings at the end. -/
def splitSemicolon (s : JavaString) : List JavaString :=
  if 0x3b ∈ s then ((s.splitOn 0x3b).reverse.dropWhile List.isEmpty).reverse else [s]

/-- `StringBuilder.appendCodePoint` -/
def appendCodePoint (s : JavaString) (codePoint : Nat) : Java JavaString :=
  if codePoint ≤ 0x10FFFF then .ok (s ++ toChars codePoint) else .error .illegalArgument

end XoDos
