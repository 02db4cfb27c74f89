import XoDos.Java

/-!
# Cell attributes

`TextStyle` packs the effect bits, the foreground and the background colour of
a cell into 64 bits.  A colour is an index, or a 24-bit value whose top byte is
`0xff`.
-/

namespace XoDos

/-- The `long` in which the style of a cell is stored. -/
abbrev Style := BitVec 64

namespace TextStyle

def attributeBold : BitVec 32 := 1
def attributeItalic : BitVec 32 := 1 <<< 1
def attributeUnderline : BitVec 32 := 1 <<< 2
def attributeBlink : BitVec 32 := 1 <<< 3
def attributeInverse : BitVec 32 := 1 <<< 4
def attributeInvisible : BitVec 32 := 1 <<< 5
def attributeStrikethrough : BitVec 32 := 1 <<< 6
/-- Set by DECSCA; the selective erase functions leave such characters alone. -/
def attributeProtected : BitVec 32 := 1 <<< 7
def attributeDim : BitVec 32 := 1 <<< 8
def attributeTruecolorForeground : BitVec 64 := 1 <<< 9
def attributeTruecolorBackground : BitVec 64 := 1 <<< 10

def colorIndexForeground : BitVec 32 := 256
def colorIndexBackground : BitVec 32 := 257
def colorIndexCursor : BitVec 32 := 258
def numIndexedColors : Nat := 259

/-- A truecolor value has its top byte set. -/
def isTruecolor (color : BitVec 32) : Bool := color &&& 0xff000000 == 0xff000000

def encode (foreColor backColor effect : BitVec 32) : Style :=
  let result := (effect &&& 0b111111111).signExtend 64
  let result :=
    if isTruecolor foreColor then
      result ||| (attributeTruecolorForeground ||| ((foreColor.signExtend 64 &&& 0x00ffffff) <<< 40))
    else result ||| ((foreColor.signExtend 64 &&& 0b111111111) <<< 40)
  if isTruecolor backColor then
    result ||| (attributeTruecolorBackground ||| ((backColor.signExtend 64 &&& 0x00ffffff) <<< 16))
  else result ||| ((backColor.signExtend 64 &&& 0b111111111) <<< 16)

/-- `NORMAL`: default colours and no effects. -/
def normal : Style := encode colorIndexForeground colorIndexBackground 0

def decodeForeColor (style : Style) : BitVec 32 :=
  if style &&& attributeTruecolorForeground == 0 then
    ((style >>> 40) &&& 0b111111111).setWidth 32
  else 0xff000000 ||| ((style >>> 40) &&& 0x00ffffff).setWidth 32

def decodeBackColor (style : Style) : BitVec 32 :=
  if style &&& attributeTruecolorBackground == 0 then
    ((style >>> 16) &&& 0b111111111).setWidth 32
  else 0xff000000 ||| ((style >>> 16) &&& 0x00ffffff).setWidth 32

def decodeEffect (style : Style) : BitVec 32 := (style &&& 0b11111111111).setWidth 32

end TextStyle
end XoDos
