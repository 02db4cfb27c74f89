import XoDos.Java
import XoDos.Struct

/-!
# `lorieEvent`

The union that the activity and the X server send each other over the socket.
It occupies 24 bytes on the little-endian platforms the program runs on; its
first byte, common to all members, is the type.  The offsets below are those of
the structures in `lorie.h`.  A `float` is its bit pattern.

The pointer in `screenSize` means nothing to the receiver and is left out.
-/

namespace XoDos

inductive EventType where
  | unknown
  | sharedServerState
  | addBuffer
  | removeBuffer
  | screenSize
  | touch
  | mouse
  | key
  | stylus
  | stylusEnable
  | unicode
  | clipboardEnable
  | clipboardAnnounce
  | clipboardRequest
  | clipboardSend
  | windowFocusChanged
deriving DecidableEq, Repr

namespace EventType

/-- The value of the enumerator. -/
def code : EventType → Byte
  | .unknown => 0
  | .sharedServerState => 1
  | .addBuffer => 2
  | .removeBuffer => 3
  | .screenSize => 4
  | .touch => 5
  | .mouse => 6
  | .key => 7
  | .stylus => 8
  | .stylusEnable => 9
  | .unicode => 10
  | .clipboardEnable => 11
  | .clipboardAnnounce => 12
  | .clipboardRequest => 13
  | .clipboardSend => 14
  | .windowFocusChanged => 15

def all : List EventType :=
  [.sharedServerState, .addBuffer, .removeBuffer, .screenSize, .touch, .mouse, .key, .stylus,
    .stylusEnable, .unicode, .clipboardEnable, .clipboardAnnounce, .clipboardRequest,
    .clipboardSend, .windowFocusChanged]

/-- The case of the `switch` that a type byte selects. -/
def ofCode (b : Byte) : EventType := (all.find? fun t => t.code == b).getD .unknown

@[simp] theorem ofCode_code (t : EventType) : ofCode t.code = t := by
  cases t <;> decide

end EventType

/-- The member `stylus`, over a type `F` of coordinates. -/
structure StylusEvent (F : Type) where
  x : F
  y : F
  pressure : BitVec 16
  tilt_x : BitVec 8
  tilt_y : BitVec 8
  orientation : BitVec 16
  buttons : BitVec 8
  eraser : BitVec 8
  mouse : BitVec 8
deriving DecidableEq, Repr

inductive LorieEvent where
  | sharedServerState
  | addBuffer
  | removeBuffer (id : BitVec 64)
  | screenSize (width height framerate : BitVec 16) (name_size : BitVec 64)
  | touch (type id x y : BitVec 16)
  | mouse (x y : BitVec 32) (detail down relative : BitVec 8)
  | key (key : BitVec 16) (state : BitVec 8)
  | stylus (s : StylusEvent (BitVec 32))
  | stylusEnable (enable : BitVec 8)
  | unicode (code : BitVec 32)
  | clipboardEnable (enable : BitVec 8)
  | clipboardAnnounce
  | clipboardRequest
  | clipboardSend (count : BitVec 32)
  | windowFocusChanged
deriving DecidableEq, Repr

namespace LorieEvent

/-- `sizeof(lorieEvent)`. -/
def size : Nat := 24

/-- The image of an event of which only the type is set. -/
def header (t : EventType) : Image := Image.zero.put 0 1 t.code

def image : LorieEvent → Image
  | .sharedServerState => header .sharedServerState
  | .addBuffer => header .addBuffer
  | .removeBuffer id => (header .removeBuffer).put 8 8 id
  | .screenSize width height framerate name_size =>
    ((((header .screenSize).put 2 2 width).put 4 2 height).put 6 2 framerate).put 8 8 name_size
  | .touch type id x y => ((((header .touch).put 2 2 type).put 4 2 id).put 6 2 x).put 8 2 y
  | .mouse x y detail down relative =>
    (((((header .mouse).put 4 4 x).put 8 4 y).put 12 1 detail).put 13 1 down).put 14 1 relative
  | .key k state => ((header .key).put 2 2 k).put 4 1 state
  | .stylus s =>
    (((((((((header .stylus).put 4 4 s.x).put 8 4 s.y).put 12 2 s.pressure).put 14 1 s.tilt_x).put
      15 1 s.tilt_y).put 16 2 s.orientation).put 18 1 s.buttons).put 19 1 s.eraser).put 20 1 s.mouse
  | .stylusEnable enable => (header .stylusEnable).put 1 1 enable
  | .unicode code => (header .unicode).put 4 4 code
  | .clipboardEnable enable => (header .clipboardEnable).put 1 1 enable
  | .clipboardAnnounce => header .clipboardAnnounce
  | .clipboardRequest => header .clipboardRequest
  | .clipboardSend count => (header .clipboardSend).put 4 4 count
  | .windowFocusChanged => header .windowFocusChanged

/-- The event that a receiver finds in `e`, through the member that its type selects. -/
def ofImage (m : Image) : Option LorieEvent :=
  match EventType.ofCode (m.get 0 1) with
  | .unknown => none
  | .sharedServerState => some .sharedServerState
  | .addBuffer => some .addBuffer
  | .removeBuffer => some (.removeBuffer (m.get 8 8))
  | .screenSize => some (.screenSize (m.get 2 2) (m.get 4 2) (m.get 6 2) (m.get 8 8))
  | .touch => some (.touch (m.get 2 2) (m.get 4 2) (m.get 6 2) (m.get 8 2))
  | .mouse => some (.mouse (m.get 4 4) (m.get 8 4) (m.get 12 1) (m.get 13 1) (m.get 14 1))
  | .key => some (.key (m.get 2 2) (m.get 4 1))
  | .stylus => some (.stylus
    { x := m.get 4 4, y := m.get 8 4, pressure := m.get 12 2, tilt_x := m.get 14 1,
      tilt_y := m.get 15 1, orientation := m.get 16 2, buttons := m.get 18 1,
      eraser := m.get 19 1, mouse := m.get 20 1 })
  | .stylusEnable => some (.stylusEnable (m.get 1 1))
  | .unicode => some (.unicode (m.get 4 4))
  | .clipboardEnable => some (.clipboardEnable (m.get 1 1))
  | .clipboardAnnounce => some .clipboardAnnounce
  | .clipboardRequest => some .clipboardRequest
  | .clipboardSend => some (.clipboardSend (m.get 4 4))
  | .windowFocusChanged => some .windowFocusChanged

/-- `write(conn_fd, &e, sizeof(e))`. -/
def bytes (e : LorieEvent) : List Byte := e.image.bytes size

/-- What `read(fd, &e, sizeof(e))` leaves in `e`. -/
def ofBytes (bytes : List Byte) : Option LorieEvent := ofImage (Image.ofBytes bytes)

@[simp] theorem length_bytes (e : LorieEvent) : e.bytes.length = size :=
  Image.length_bytes e.image size

theorem ofImage_congr {m m' : Image}
    (h : ∀ offset n, offset + n ≤ size → m.get offset n = m'.get offset n) :
    ofImage m = ofImage m' := by
  simp only [ofImage]
  rw [h 0 1 (by decide), h 1 1 (by decide), h 2 2 (by decide), h 4 1 (by decide),
    h 4 2 (by decide), h 4 4 (by decide), h 6 2 (by decide), h 8 2 (by decide), h 8 4 (by decide),
    h 8 8 (by decide), h 12 1 (by decide), h 12 2 (by decide), h 13 1 (by decide),
    h 14 1 (by decide), h 15 1 (by decide), h 16 2 (by decide), h 18 1 (by decide),
    h 19 1 (by decide), h 20 1 (by decide)]

theorem ofImage_image (e : LorieEvent) : ofImage e.image = some e := by
  cases e <;>
    simp (disch := decide) [ofImage, image, header, Image.get_put_disjoint, EventType.ofCode_code]

/-- Every event survives the wire. -/
@[simp] theorem ofBytes_bytes (e : LorieEvent) : ofBytes e.bytes = some e := by
  rw [ofBytes, ← ofImage_image e]
  apply ofImage_congr
  intro offset n h
  exact Image.get_ofBytes e.image h

end LorieEvent

end XoDos
