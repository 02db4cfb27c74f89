import XoDos.Java
import XoDos.Loops

/-!
# BMP files

A bitmap is written with a header of 54 bytes and its rows from the bottom up, and read again.  The
reader takes the width and the height from the file.

The position in the file only moves while there are bytes, so it does not wrap.
-/

namespace XoDos

inductive BitmapException where
  | bufferUnderflow
  | bufferOverflow
  | indexOutOfBounds
  | illegalArgument
  | negativeArraySize
deriving DecidableEq, Repr

/-- A bitmap whose pixels are read and written as ARGB. -/
structure Bitmap where
  width : Nat
  height : Nat
  pixels : List (BitVec 32)
  width_pos : 0 < width
  height_pos : 0 < height
  width_lt : width < 2 ^ 31
  height_lt : height < 2 ^ 31
  length_eq : pixels.length = width * height
deriving DecidableEq

namespace MSBitmap

abbrev Result : Type → Type := Except BitmapException

/-! ## Buffers -/

/-- `ByteBuffer.allocate(n)` -/
def allocate (n : Int) : Result (List Byte) :=
  if n < 0 then .error .illegalArgument else .ok (List.replicate n.toNat 0)

/-- `data.get(i)` -/
def get (data : List Byte) (i : Int) : Result Byte :=
  if 0 ≤ i then
    match data[i.toNat]? with
    | some b => .ok b
    | none => .error .indexOutOfBounds
  else .error .indexOutOfBounds

/-- `buffer.put(i, b)` -/
def put (buffer : List Byte) (i : Int) (b : Byte) : Result (List Byte) :=
  if 0 ≤ i ∧ i < buffer.length then .ok (buffer.set i.toNat b) else .error .indexOutOfBounds

/-- The number in some bytes, the low one first. -/
def ofBytes : List Byte → Nat
  | [] => 0
  | b :: rest => b.toNat + 256 * ofBytes rest

/-- The `n` bytes of a number. -/
def toBytes : Nat → Int → List Byte
  | 0, _ => []
  | n + 1, v => BitVec.ofInt 8 v :: toBytes n (v / 256)

/-- The next `n` bytes at a position. -/
def take (data : List Byte) (position n : Nat) : Result Nat :=
  if position + n ≤ data.length then .ok (ofBytes ((data.drop position).take n))
  else .error .bufferUnderflow

/-- `data.getShort()` -/
def getShort (data : List Byte) (position : Nat) : Result Int :=
  (take data position 2).map fun n => toShort n

/-- `data.getInt()` -/
def getInt (data : List Byte) (position : Nat) : Result Int :=
  (take data position 4).map fun n => toInt32 n

/-! ## Reading -/

/-- Red, green and blue. -/
abbrev Color : Type := Byte × Byte × Byte

/-- What the loops of `open` change: the position, the pixels, the first colour and whether all
colours were that one. -/
structure Reading where
  i : Int
  pixels : List Byte
  first : Option Color
  blank : Bool

def readPixel (data : List Byte) (width line x : Int) (s : Reading) : Result Reading := do
  let j := toInt32 (toInt32 (toInt32 (line * width) * 4) + toInt32 (x * 4))
  let b ← get data s.i
  let g ← get data (s.i + 1)
  let r ← get data (s.i + 2)
  let pixels ← put s.pixels (toInt32 (j + 2)) b
  let pixels ← put pixels (toInt32 (j + 1)) g
  let pixels ← put pixels j r
  let pixels ← put pixels (toInt32 (j + 3)) 255
  return ⟨s.i + 3, pixels, some (s.first.getD (r, g, b)),
    s.blank && decide (s.first.getD (r, g, b) = (r, g, b))⟩

/-- A row, and the bytes that fill it up. -/
def readRow (data : List Byte) (width line : Int) (s : Reading) : Result Reading := do
  let s ← forUp 0 width (readPixel data width line) s
  return { s with i := s.i + width.tmod 4 }

/-- The pixel of four bytes. -/
def argb (pixels : List Byte) (k : Nat) : BitVec 32 :=
  pixels.getD (4 * k + 3) 0 ++ pixels.getD (4 * k) 0 ++ pixels.getD (4 * k + 1) 0 ++
    pixels.getD (4 * k + 2) 0

/-- `Bitmap.createBitmap` and `copyPixelsFromBuffer`. -/
def createBitmap (width height : Int) (pixels : List Byte) : Result Bitmap :=
  if h : (0 < width ∧ width < 2 ^ 31) ∧ (0 < height ∧ height < 2 ^ 31) ∧
      4 * (width * height) ≤ pixels.length then
    .ok ⟨width.toNat, height.toNat, (List.range (width.toNat * height.toNat)).map (argb pixels),
      by omega, by omega, by omega, by omega, by simp⟩
  else .error .illegalArgument

/-- What `open` does behind the header. -/
def readBitmap (data : List Byte) (width height : Int) : Result (Option Bitmap) := do
  if width = 0 ∨ height = 0 then return none
  let invertY := decide (0 ≤ height)
  let height := if height < 0 then toInt32 (height * -1) else height
  let pixels ← allocate (toInt32 (toInt32 (width * height) * 4))
  let s ← forDown (toInt32 (height - 1)) (fun y =>
    readRow data width (if invertY then y else toInt32 (toInt32 (height - 1) - y)))
    ⟨54, pixels, none, true⟩
  if s.blank then return none
  return some (← createBitmap width height s.pixels)

/-- `open`, of the bytes of a file. -/
def openFile (data : List Byte) : Result (Option Bitmap) := do
  if (← getShort data 0) ≠ 0x4d42 then return none
  let fileSize ← getInt data 2
  if data.length < fileSize then return none
  let _ ← getInt data 6
  let _dataOffset ← getInt data 10
  let _infoHeaderSize ← getInt data 14
  let width ← getInt data 18
  let height ← getInt data 22
  let _planes ← getShort data 26
  let _bitCount ← getShort data 28
  let _compression ← getInt data 30
  let _imageSize ← getInt data 34
  let _hr ← getInt data 38
  let _vr ← getInt data 42
  let _colorsUsed ← getInt data 46
  let _colorsImportant ← getInt data 50
  readBitmap data width height

/-! ## Writing -/

def dataOffset : Int := 54

def blue (pixel : BitVec 32) : Byte := pixel.extractLsb' 0 8

def green (pixel : BitVec 32) : Byte := pixel.extractLsb' 8 8

def red (pixel : BitVec 32) : Byte := pixel.extractLsb' 16 8

def alpha (pixel : BitVec 32) : Byte := pixel.extractLsb' 24 8

/-- `bitmap.getPixels(new int[width * height], ...)` -/
def getPixels (bitmap : Bitmap) : Result (List (BitVec 32)) :=
  if toInt32 (bitmap.width * bitmap.height) < 0 then .error .negativeArraySize
  else if toInt32 (bitmap.width * bitmap.height) < bitmap.width * bitmap.height then
    .error .indexOutOfBounds
  else .ok bitmap.pixels

/-- The header of a file. -/
def header (width height imageSize : Int) : List Byte :=
  toBytes 2 0x4d42 ++ toBytes 4 (dataOffset + imageSize) ++ toBytes 4 0 ++ toBytes 4 dataOffset ++
    toBytes 4 40 ++ toBytes 4 width ++ toBytes 4 height ++ toBytes 2 1 ++ toBytes 2 24 ++
    toBytes 4 0 ++ toBytes 4 imageSize ++ toBytes 4 0 ++ toBytes 4 0 ++ toBytes 4 0 ++ toBytes 4 0

/-- The header is put at the start of a buffer that has room for it. -/
def putHeader (buffer : List Byte) (width height imageSize : Int) : Result (List Byte) :=
  if buffer.length < 54 then .error .bufferOverflow
  else .ok (header width height imageSize ++ buffer.drop 54)

/-- The state of the loops of `create`. -/
structure Writing where
  i : Nat
  buffer : List Byte

def writePixel (pixels : List (BitVec 32)) (rowBytes y x : Int) (s : Writing) : Result Writing := do
  let j := toInt32 (toInt32 (dataOffset + toInt32 (y * rowBytes)) + toInt32 (x * 3))
  let pixel ← match pixels[s.i]? with
    | some pixel => .ok pixel
    | none => .error .indexOutOfBounds
  let buffer ← put s.buffer j (blue pixel)
  let buffer ← put buffer (toInt32 (j + 1)) (green pixel)
  let buffer ← put buffer (toInt32 (j + 2)) (red pixel)
  return ⟨s.i + 1, buffer⟩

def writeRow (pixels : List (BitVec 32)) (width extraBytes rowBytes y : Int) (s : Writing) :
    Result Writing := do
  let s ← forUp 0 width (writePixel pixels rowBytes y) s
  let fillOffset := toInt32 (toInt32 (dataOffset + toInt32 (y * rowBytes)) + toInt32 (width * 3))
  let buffer ← forUp fillOffset (toInt32 (fillOffset + extraBytes)) (fun j b => put b j 255) s.buffer
  return { s with buffer }

/-- The bytes that `create` writes to the file. -/
def create (bitmap : Bitmap) : Result (List Byte) := do
  let width : Int := bitmap.width
  let height : Int := bitmap.height
  let pixels ← getPixels bitmap
  let extraBytes := width.tmod 4
  let rowBytes := toInt32 (toInt32 (3 * width) + extraBytes)
  let imageSize := toInt32 (height * rowBytes)
  let buffer ← allocate (toInt32 (dataOffset + imageSize))
  let buffer ← putHeader buffer width height imageSize
  let s ← forDown (toInt32 (height - 1)) (writeRow pixels width extraBytes rowBytes) ⟨0, buffer⟩
  return s.buffer

end MSBitmap

end XoDos
