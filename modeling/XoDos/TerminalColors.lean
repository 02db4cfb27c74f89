import XoDos.Binary64
import XoDos.Library

/-!
# `TerminalColors`

The table of indexed colours, which the OSC 4, 10, 11, 12 and 104 sequences
change and reset.
-/

namespace XoDos

open TextStyle (numIndexedColors)

structure TerminalColors where
  mCurrentColors : List (BitVec 32)
  length_eq : mCurrentColors.length = numIndexedColors

namespace TerminalColors

variable [Platform]

/-- `reset()`: all colours of the theme. -/
def reset : TerminalColors := ⟨Platform.defaultColors, Platform.defaultColors_length⟩

def set (c : TerminalColors) (index : Int) (color : BitVec 32) : Java TerminalColors :=
  if 0 ≤ index ∧ index < numIndexedColors then
    .ok ⟨c.mCurrentColors.set index.toNat color, by rw [List.length_set, c.length_eq]⟩
  else .error .arrayIndexOutOfBounds

/-- `reset(index)`: one colour of the theme. -/
def resetIndex (c : TerminalColors) (index : Int) : Java TerminalColors := do
  let color ← arrayGet Platform.defaultColors index
  c.set index color

/-- The three components of `parse`, with `skipBetween` characters between them.  They end where the
text ends, so that no index is out of bounds. -/
def cutComponents (c : JavaString) (skipInitial skipBetween componentLength : Nat) :
    JavaString × JavaString × JavaString :=
  let second := skipInitial + componentLength + skipBetween
  let third := second + componentLength + skipBetween
  ((c.drop skipInitial).take componentLength, (c.drop second).take componentLength,
    (c.drop third).take componentLength)

/-- `255 / (Math.pow(2, componentLength * 4) - 1)`.  The power is infinite from 1024 on.  With no
digits at all the quotient is of no use: the components are no numbers then. -/
def mult (componentLength : Nat) : ℚ :=
  if 256 ≤ componentLength then 0
  else Binary64.round (255 / Binary64.round (2 ^ (componentLength * 4) - 1))

/-- `(int) (value * mult)` -/
def scaleComponent (value : Int) (componentLength : Nat) : Int :=
  Binary64.toInt (Binary64.round (value * mult componentLength))

/-- The value of `parse` once the form of the text is known, 0 for an exception. -/
def parseComponents (c : JavaString) (skipInitial skipBetween : Nat) : BitVec 32 :=
  let charsForColors : Int := (c.length : Int) - skipInitial - 2 * skipBetween
  if charsForColors.tmod 3 ≠ 0 then 0
  else
    let componentLength := (charsForColors.tdiv 3).toNat
    let (r, g, b) := cutComponents c skipInitial skipBetween componentLength
    match parseInt r 16, parseInt g 16, parseInt b 16 with
    | some r, some g, some b =>
      let component (v : Int) := BitVec.ofInt 32 (scaleComponent v componentLength)
      (0xFF000000 : BitVec 32) ||| component r <<< 16 ||| component g <<< 8 ||| component b
    | _, _, _ => 0

/-- Parse `#RGB` and its longer forms, or `rgb:<red>/<green>/<blue>`.  0 if failed. -/
def parse (c : JavaString) : BitVec 32 :=
  if c.head? = some '#'.toNat then parseComponents c 1 0
  else if (ascii "rgb:").isPrefixOf c then parseComponents c 4 1
  else 0

/-- Try parse a color from a text parameter and into a specified index. -/
def tryParseColor (c : TerminalColors) (intoIndex : Int) (textParameter : JavaString) :
    Java TerminalColors :=
  let color := parse textParameter
  if color ≠ 0 then c.set intoIndex color else .ok c

end TerminalColors

end XoDos
