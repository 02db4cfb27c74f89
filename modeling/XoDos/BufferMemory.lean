import XoDos.LorieBuffer

/-!
# The memory of shared buffers

A buffer is allocated, or made around a descriptor that a client sends with a stride and an offset of
its own.  The receiver of a buffer maps its memory from the start, and the sizes are products of `int`s,
which wrap, so both are right only for some of what clients may send.

What the system calls return is a parameter.
-/

namespace XoDos

namespace LorieBuffer

/-- The arguments in which calls of `mmap` differ. -/
structure Mmap where
  size : BitVec 64
  fd : BitVec 32
  offset : BitVec 64

/-- What `AHardwareBuffer_describe` stores. -/
structure HardwareDesc where
  width : BitVec 32
  height : BitVec 32
  stride : BitVec 32
  format : BitVec 8

/-- What the system gives the server. -/
structure System where
  pageSize : BitVec 64
  dup : BitVec 32 → BitVec 32
  aSharedMemory_create : BitVec 64 → BitVec 32
  memfd_create : BitVec 32
  /-- `/dev/ashmem` with a name and a size, or a negative number. -/
  openAshmem : BitVec 64 → BitVec 32
  calloc : BitVec 64 → Address
  mmap : Mmap → Address
  /-- `AHardwareBuffer_allocate` for a width, a height and a format; NULL is a failure. -/
  allocateHardware : BitVec 32 → BitVec 32 → BitVec 8 → Address
  describe : Address → HardwareDesc
  /-- The hardware buffer that arrives over a socket; NULL is a failure. -/
  recvHardware : BitVec 32 → Address
  /-- Whether `CreatePixmap` returns a pixmap. -/
  createsPixmap : Bool

/-- What is behind `desc.data`. -/
inductive Memory where
  | heap (size : BitVec 64)
  | mapping (call : Mmap)
  | hardware

namespace Memory

/-- The size that was allocated or mapped. -/
def size : Memory → BitVec 64
  | .heap size => size
  | .mapping call => call.size
  | .hardware => 0

end Memory

structure Allocated where
  buffer : LorieBuffer
  memory : Memory

def formatR8G8B8X8 : BitVec 8 := 2

def formatB8G8R8A8 : BitVec 8 := 5

def isPixelFormat (format : BitVec 8) : Bool := format = formatB8G8R8A8 || format = formatR8G8B8X8

/-- A negative `int`. -/
def isNegative (n : BitVec 32) : Bool := n.slt 0

/-- `sizeof(struct LorieBuffer)` -/
def structSize : BitVec 64 := 120

/-- `size_t` of the product of two `int`s and the size of a pixel. -/
def productSize (a b : BitVec 32) : BitVec 64 := (a * b).signExtend 64 * 4

namespace System

variable (s : System)

def alignToPage (size : BitVec 64) : BitVec 64 :=
  (size + s.pageSize - 1) &&& ~~~(s.pageSize - 1)

/-- `LorieBuffer_createRegion`.  A failure of the first function is returned at once. -/
def createRegion (size : BitVec 64) : BitVec 32 :=
  let fd := s.aSharedMemory_create size
  if fd ≠ 0 then fd else if s.memfd_create ≠ 0 then s.memfd_create else s.openAshmem size

/-- The copy of the struct on the heap. -/
def store (b : LorieBuffer) (memory : Memory) : Option Allocated :=
  let ret := s.calloc structSize
  if ret = 0 then none
  else some ⟨{ b with link := XorgList.init (ret + linkOffset) }, memory⟩

/-- `allocate`, with the number of the buffer. -/
def allocate (id : BitVec 64) (width stride height : BitVec 32) (format : BitVec 8)
    (type : BufferType) (buf : Address) (fd : BitVec 32) (size offset : BitVec 64) (takeFd : Bool) :
    Option Allocated :=
  let acceptable := isPixelFormat format && (0 : BitVec 32).slt width && (0 : BitVec 32).slt height
  let b : LorieBuffer :=
    { refcount := 1
      desc := ⟨width, height, stride, format, type, id, buf, 0⟩
      locked := 0
      lockedData := 0
      fd := if takeFd then fd else s.dup fd
      size := size
      offset := offset
      id := 0
      image := 0
      link := ⟨0, 0⟩ }
  if type ≠ .aHardwareBuffer ∧ ¬acceptable then none
  else
    match type with
    | .regular =>
      let data := s.calloc (productSize stride height)
      if data = 0 then none
      else
        s.store { b with desc := { b.desc with data := data } } (.heap (productSize stride height))
    | .fd =>
      if isNegative b.fd then none
      else
        let call : Mmap := ⟨b.size, b.fd, b.offset⟩
        let data := s.mmap call
        if data = 0 ∨ data = mapFailed then none
        else s.store { b with desc := { b.desc with data := data } } (.mapping call)
    | .aHardwareBuffer =>
      if buf = 0 then none
      else
        let desc := s.describe buf
        s.store { b with
          desc := { b.desc with
            width := desc.width
            height := desc.height
            stride := desc.stride
            format := desc.format } } .hardware
    | .unknown => none

/-- `LorieBuffer_allocate` -/
def allocateNew (id : BitVec 64) (width height : BitVec 32) (format : BitVec 8)
    (type : BufferType) : Option Allocated :=
  match type with
  | .fd =>
    let size := s.alignToPage (productSize width height)
    let fd := s.createRegion size
    if isNegative fd then none
    else s.allocate id width width height format type 0 fd size 0 true
  | .aHardwareBuffer =>
    s.allocate id width width height format type (s.allocateHardware width height format) (-1) 0 0 true
  | _ => s.allocate id width width height format type 0 (-1) 0 0 true

def wrapFileDescriptor (id : BitVec 64) (width stride height : BitVec 32) (format : BitVec 8)
    (fd : BitVec 32) (offset : BitVec 64) : Option Allocated :=
  s.allocate id width stride height format .fd 0 fd (productSize stride height) offset false

def wrapAHardwareBuffer (id : BitVec 64) (buffer : Address) : Option Allocated :=
  s.allocate id 0 0 0 0 .aHardwareBuffer buffer (-1) 0 0 false

/-- `LorieBuffer_convert`.  The pixels, which are copied, are left out. -/
def convert (a : Allocated) (type : BufferType) (format : BitVec 8) : Allocated :=
  let desc := a.buffer.desc
  if desc.type ≠ .regular ∨ ¬isPixelFormat format then a
  else
    match type with
    | .fd =>
      let size := s.alignToPage (productSize desc.stride desc.height)
      let fd := s.createRegion size
      if isNegative fd then a
      else
        let call : Mmap := ⟨size, fd, 0⟩
        let data := s.mmap call
        if data = 0 ∨ data = mapFailed then a
        else
          ⟨{ a.buffer with
            desc := { desc with type, format, data }
            fd, size, offset := 0, lockedData := 0, locked := 0 }, .mapping call⟩
    | .aHardwareBuffer =>
      let buffer := s.allocateHardware desc.width desc.height format
      if buffer = 0 then a
      else
        ⟨{ a.buffer with
          desc := { desc with type, format, stride := (s.describe buffer).stride, buffer, data := 0 }
          lockedData := 0, locked := 0 }, .hardware⟩
    | _ => a

def rawMmappableFd : BitVec 64 := 1274

def hardwareSocketFd : BitVec 64 := 1255

def hardwareFlippedSocketFd : BitVec 64 := 1256

/-- `DRM_FORMAT_MOD_INVALID` -/
def modInvalid : BitVec 64 := 0x00ffffffffffffff

/-- The buffer of the pixmap that `loriePixmapFromFds` makes. -/
def pixmapFromFds (id : BitVec 64) (numFds : BitVec 8) (fd : BitVec 32) (width height : BitVec 16)
    (stride offset : BitVec 32) (modifier : BitVec 64) : Option Allocated :=
  if 1 < numFds then none
  else if modifier ∉ [rawMmappableFd, hardwareSocketFd, hardwareFlippedSocketFd, modInvalid] then none
  else if ¬s.createsPixmap then none
  else if modifier = modInvalid ∨ modifier = rawMmappableFd then
    s.wrapFileDescriptor id (width.setWidth 32) (stride / 4) (height.setWidth 32) formatB8G8R8A8 fd
      (offset.setWidth 64)
  else
    let buffer := s.recvHardware fd
    if buffer = 0 then none
    -- 1 stands for `R8G8B8A8`
    else if ¬isPixelFormat (s.describe buffer).format ∧ (s.describe buffer).format ≠ 1 then none
    else s.wrapAHardwareBuffer id buffer

end System

/-! ## What is mapped -/

section Mapped

variable {s : System} {a : Allocated}

/-- The place of a pixel in the memory object that is mapped. -/
def Mmap.position (call : Mmap) (desc : BufferDesc) (x y : Nat) : Int :=
  call.offset.toInt + 4 * (y * desc.stride.toInt + x)

/-- A pixel of the buffer. -/
def HasPixel (desc : BufferDesc) (x y : Nat) : Prop :=
  x < desc.width.toInt ∧ y < desc.height.toInt

/-- The data of a buffer in shared memory are mapped from its offset on. -/
structure Maps (s : System) (a : Allocated) (call : Mmap) : Prop where
  memory : a.memory = .mapping call
  data : a.buffer.desc.data = s.mmap call
  offset : call.offset = a.buffer.offset

/-- The buffers in shared memory. -/
inductive Shared (s : System) : Allocated → Prop
  | allocated {id : BitVec 64} {width height : BitVec 32} {format : BitVec 8} {a : Allocated} :
    s.allocateNew id width height format .fd = some a → Shared s a
  | wrapped {id : BitVec 64} {width stride height : BitVec 32} {format : BitVec 8} {fd : BitVec 32}
    {offset : BitVec 64} {a : Allocated} :
    s.wrapFileDescriptor id width stride height format fd offset = some a → Shared s a
  | converted {id : BitVec 64} {width height : BitVec 32} {format format' : BitVec 8} {a : Allocated} :
    s.allocateNew id width height format .regular = some a →
    (s.convert a .fd format').buffer.desc.type = .fd → Shared s (s.convert a .fd format')

theorem store_eq {b : LorieBuffer} {memory : Memory} (h : s.store b memory = some a) :
    a.memory = memory ∧ a.buffer.desc = b.desc ∧ a.buffer.offset = b.offset := by
  unfold System.store at h
  dsimp only at h
  split_ifs at h
  cases h
  exact ⟨rfl, rfl, rfl⟩

/-- What `allocate` returns has the size that was asked for, and pixels. -/
structure Sized (a : Allocated) (width stride height : BitVec 32) : Prop where
  width_eq : a.buffer.desc.width = width
  stride_eq : a.buffer.desc.stride = stride
  height_eq : a.buffer.desc.height = height
  width_pos : 0 < width.toInt
  height_pos : 0 < height.toInt

variable {id : BitVec 64} {width stride height : BitVec 32} {format : BitVec 8} {buf : Address}
  {fd : BitVec 32} {size offset : BitVec 64} {takeFd : Bool}

theorem acceptable_pos
    (h : (isPixelFormat format && (0 : BitVec 32).slt width && (0 : BitVec 32).slt height) = true) :
    0 < width.toInt ∧ 0 < height.toInt := by
  simp only [Bool.and_eq_true, BitVec.slt_iff_toInt_lt] at h
  exact ⟨h.1.2, h.2⟩

theorem allocate_fd
    (h : s.allocate id width stride height format .fd buf fd size offset takeFd = some a) :
    Sized a width stride height ∧ a.buffer.desc.type = .fd ∧ ∃ call, Maps s a call ∧
      call.size = size ∧ call.offset = offset ∧ s.mmap call ≠ mapFailed := by
  unfold System.allocate at h
  simp only [ne_eq, reduceCtorEq, not_false_eq_true, true_and] at h
  generalize (if takeFd = true then fd else s.dup fd) = own at h
  split_ifs at h with hok hfd hdata
  obtain ⟨hmemory, hdesc, hoffset⟩ := store_eq h
  obtain ⟨hwidth, hheight⟩ := acceptable_pos hok
  refine ⟨?_, by rw [hdesc], _, ⟨hmemory, by rw [hdesc], hoffset.symm⟩, rfl, rfl,
    fun hfailed => hdata (.inr hfailed)⟩
  constructor
  · rw [hdesc]
  · rw [hdesc]
  · rw [hdesc]
  · exact hwidth
  · exact hheight

theorem allocate_regular
    (h : s.allocate id width stride height format .regular buf fd size offset takeFd = some a) :
    Sized a width stride height ∧ a.buffer.desc.type = .regular ∧
      a.memory = .heap (productSize stride height) ∧ s.calloc (productSize stride height) ≠ 0 := by
  unfold System.allocate at h
  simp only [ne_eq, reduceCtorEq, not_false_eq_true, true_and] at h
  generalize (if takeFd = true then fd else s.dup fd) = own at h
  split_ifs at h with hok hdata
  obtain ⟨hmemory, hdesc, -⟩ := store_eq h
  obtain ⟨hwidth, hheight⟩ := acceptable_pos hok
  refine ⟨?_, by rw [hdesc], hmemory, hdata⟩
  constructor
  · rw [hdesc]
  · rw [hdesc]
  · rw [hdesc]
  · exact hwidth
  · exact hheight

theorem allocateNew_fd (h : s.allocateNew id width height format .fd = some a) :
    Sized a width width height ∧ a.buffer.desc.type = .fd ∧ ∃ call, Maps s a call ∧
      call.size = s.alignToPage (productSize width height) ∧ call.offset = 0 ∧
      s.mmap call ≠ mapFailed := by
  unfold System.allocateNew at h
  dsimp only at h
  split_ifs at h
  exact allocate_fd h

theorem allocateNew_regular (h : s.allocateNew id width height format .regular = some a) :
    Sized a width width height ∧ a.buffer.desc.type = .regular ∧
      a.memory = .heap (productSize width height) ∧ s.calloc (productSize width height) ≠ 0 :=
  allocate_regular h

/-- A regular buffer that has been converted keeps its size. -/
theorem convert_fd {format' : BitVec 8} (ha : a.buffer.desc.type = .regular)
    (h : (s.convert a .fd format').buffer.desc.type = .fd) :
    (s.convert a .fd format').buffer.desc.width = a.buffer.desc.width ∧
      (s.convert a .fd format').buffer.desc.stride = a.buffer.desc.stride ∧
      (s.convert a .fd format').buffer.desc.height = a.buffer.desc.height ∧
      ∃ call, Maps s (s.convert a .fd format') call ∧ call.offset = 0 := by
  have hne : ¬a.buffer.desc.type = .fd := by simp [ha]
  unfold System.convert at h ⊢
  dsimp only at h ⊢
  split_ifs at h ⊢
  · exact absurd h hne
  · exact absurd h hne
  · exact absurd h hne
  · exact ⟨rfl, rfl, rfl, _, ⟨rfl, rfl, rfl⟩, rfl⟩

/-- A buffer in shared memory has pixels, and is mapped from its offset on. -/
theorem Shared.maps (h : Shared s a) : a.buffer.desc.type = .fd ∧ HasPixel a.buffer.desc 0 0 ∧
    ∃ call, Maps s a call := by
  have hpixel : ∀ {a : Allocated} {width stride height : BitVec 32}, Sized a width stride height →
      HasPixel a.buffer.desc 0 0 := by
    intro a width stride height hsized
    rw [HasPixel, hsized.width_eq, hsized.height_eq]
    exact ⟨hsized.width_pos, hsized.height_pos⟩
  cases h with
  | allocated h =>
    obtain ⟨hsized, htype, call, hmaps, -⟩ := allocateNew_fd h
    exact ⟨htype, hpixel hsized, call, hmaps⟩
  | wrapped h =>
    obtain ⟨hsized, htype, call, hmaps, -⟩ := allocate_fd h
    exact ⟨htype, hpixel hsized, call, hmaps⟩
  | @converted _ _ _ _ _ old hnew htype =>
    obtain ⟨hsized, hregular, -⟩ := allocateNew_regular hnew
    obtain ⟨hwidth, -, hheight, call, hmaps, -⟩ := convert_fd hregular htype
    refine ⟨htype, ?_, call, hmaps⟩
    rw [HasPixel, hwidth, hheight]
    exact hpixel hsized

/-- A buffer that no client has sent is mapped from the start. -/
theorem Shared.offset_eq_zero (h : Shared s a)
    (hown : ∀ id width stride height format fd offset,
      s.wrapFileDescriptor id width stride height format fd offset ≠ some a) :
    a.buffer.offset = 0 := by
  cases h with
  | allocated h =>
    obtain ⟨-, -, call, hmaps, -, hoffset, -⟩ := allocateNew_fd h
    exact hmaps.offset.symm.trans hoffset
  | wrapped h => exact absurd h (hown _ _ _ _ _ _ _)
  | converted hnew htype =>
    obtain ⟨-, -, -, call, hmaps, hoffset⟩ := convert_fd (allocateNew_regular hnew).2.1 htype
    exact hmaps.offset.symm.trans hoffset

end Mapped

/-! ## Both sides -/

section Sides

variable {s : System} {a : Allocated}

/-- What the system gives a receiver, whose calls of `mmap` have an offset. -/
structure Peer where
  ancil_recv_fd : BitVec 32 → BitVec 32
  mmap : Mmap → Address
  recvHandle : Address → Address
  calloc : Address

namespace Peer

/-- The receiver calls `mmap` with the offset 0. -/
def receiver (p : Peer) : Receiver where
  ancil_recv_fd := p.ancil_recv_fd
  mmap size fd := p.mmap ⟨size, fd, 0⟩
  recvHandle := p.recvHandle
  calloc := p.calloc

/-- The mapping of a buffer that arrives. -/
def mapping (p : Peer) (b : LorieBuffer) : Mmap := ⟨b.mapSize, p.ancil_recv_fd b.fd, 0⟩

end Peer

/-- The pixels of both mappings are at the same places of the memory object. -/
def SamePixels (call : Mmap) (desc : BufferDesc) (call' : Mmap) (desc' : BufferDesc) : Prop :=
  ∀ x y, HasPixel desc x y → call.position desc x y = call'.position desc' x y

theorem samePixels_iff {call call' : Mmap} {desc desc' : BufferDesc}
    (hstride : desc'.stride = desc.stride) (hpixel : HasPixel desc 0 0) :
    SamePixels call desc call' desc' ↔ call.offset = call'.offset := by
  rw [← BitVec.toInt_inj]
  constructor
  · intro h
    have h0 := h 0 0 hpixel
    simp only [Mmap.position, hstride] at h0
    omega
  · intro h x y _
    rw [Mmap.position, Mmap.position, h, hstride]

/-- The receiver's data are what it maps. -/
theorem recv_maps (p : Peer) (htype : a.buffer.desc.type = .fd)
    (hp : p.receiver.Delivers a.buffer) {socketFd socketFd' : Int} (hfd : 0 ≤ socketFd)
    (hfd' : 0 ≤ socketFd') :
    ∃ b', recvHandleFromUnixSocket p.receiver socketFd' true
        (a.buffer.sendHandleToUnixSocket socketFd) = some (p.calloc, b') ∧
      SameDescription a.buffer b' ∧ b'.desc.data = p.mmap (p.mapping a.buffer) := by
  obtain ⟨hcalloc, hdelivers⟩ := hp
  obtain ⟨hrecv, hnull, hfailed⟩ := hdelivers htype
  unfold recvHandleFromUnixSocket sendHandleToUnixSocket
  rw [if_neg (by omega), if_neg (by omega)]
  have hmap : ¬(p.receiver.mmap a.buffer.mapSize (p.receiver.ancil_recv_fd a.buffer.fd) = 0 ∨
      p.receiver.mmap a.buffer.mapSize (p.receiver.ancil_recv_fd a.buffer.fd) = mapFailed) :=
    not_or.mpr ⟨hnull, hfailed⟩
  have hmem : p.receiver.recvMemory { a.buffer with image := 0 } a.buffer.sendMemory =
      some { a.buffer with
        image := 0
        fd := p.ancil_recv_fd a.buffer.fd
        desc := { a.buffer.desc with data := p.mmap (p.mapping a.buffer) } } := by
    unfold Receiver.recvMemory sendMemory
    dsimp only
    rw [htype]
    exact (if_neg hrecv).trans (if_neg hmap)
  simp only [read, hmem, if_true]
  rw [if_neg hcalloc]
  exact ⟨_, rfl, ⟨rfl, rfl, rfl, rfl, rfl, rfl⟩, rfl⟩

/-- Server and receiver see the same pixels of a shared buffer exactly if it has no offset. -/
theorem samePixels_received_iff (h : Shared s a) (p : Peer) (hp : p.receiver.Delivers a.buffer)
    {socketFd socketFd' : Int} (hfd : 0 ≤ socketFd) (hfd' : 0 ≤ socketFd') :
    ∃ call b', Maps s a call ∧
      recvHandleFromUnixSocket p.receiver socketFd' true
        (a.buffer.sendHandleToUnixSocket socketFd) = some (p.calloc, b') ∧
      b'.desc.data = p.mmap (p.mapping a.buffer) ∧
      (SamePixels call a.buffer.desc (p.mapping a.buffer) b'.desc ↔ a.buffer.offset = 0) := by
  obtain ⟨htype, hpixel, call, hmaps⟩ := h.maps
  obtain ⟨b', hrecv, hsame, hdata⟩ := recv_maps p htype hp hfd hfd'
  refine ⟨call, b', hmaps, hrecv, hdata, ?_⟩
  rw [samePixels_iff hsame.stride hpixel, hmaps.offset]
  rfl

end Sides

/-- Memory that can be had up to a terabyte. -/
def plainSystem : System where
  pageSize := 4096
  dup fd := fd
  aSharedMemory_create _ := 9
  memfd_create := 10
  openAshmem _ := -1
  calloc size := if size.toNat < 2 ^ 40 then 0x6000 else 0
  mmap call := if 0 < call.size.toNat ∧ call.size.toNat < 2 ^ 40 then 0x5000 else mapFailed
  allocateHardware _ _ _ := 0
  describe _ := ⟨0, 0, 0, 0⟩
  recvHardware _ := 0
  createsPixmap := true

def plainPeer : Peer where
  ancil_recv_fd _ := 30
  mmap _ := 0x7000
  recvHandle buffer := buffer
  calloc := 0x8000

theorem plainPeer_delivers (b : LorieBuffer) : plainPeer.receiver.Delivers b := by
  refine ⟨by decide, fun _ => ⟨?_, ?_, ?_⟩⟩ <;> simp [Peer.receiver, plainPeer, mapFailed]

theorem samePixels_received_iff_allocated :
    ∃ a call b', plainSystem.allocateNew 7 2 2 5 .fd = some a ∧ Maps plainSystem a call ∧
      recvHandleFromUnixSocket plainPeer.receiver 3 true (a.buffer.sendHandleToUnixSocket 4) =
        some (plainPeer.calloc, b') ∧
      SamePixels call a.buffer.desc (plainPeer.mapping a.buffer) b'.desc := by
  obtain ⟨a, ha⟩ : ∃ a, plainSystem.allocateNew 7 2 2 5 .fd = some a := ⟨_, rfl⟩
  obtain ⟨call, b', hmaps, hrecv, -, hiff⟩ := samePixels_received_iff (.allocated ha) plainPeer
    (plainPeer_delivers a.buffer) (by decide : (0 : Int) ≤ 4) (by decide : (0 : Int) ≤ 3)
  have hoffset : a.buffer.offset = 0 := by
    obtain ⟨-, -, call', hmaps', -, hzero, -⟩ := allocateNew_fd ha
    exact hmaps'.offset.symm.trans hzero
  exact ⟨a, call, b', ha, hmaps, hrecv, hiff.mpr hoffset⟩

/-- A client's buffer that begins at the second page of its memory. -/
theorem client_offset_lost :
    ∃ a call b', plainSystem.wrapFileDescriptor 7 2 2 2 5 12 4096 = some a ∧
      Maps plainSystem a call ∧
      recvHandleFromUnixSocket plainPeer.receiver 3 true (a.buffer.sendHandleToUnixSocket 4) =
        some (plainPeer.calloc, b') ∧
      ¬SamePixels call a.buffer.desc (plainPeer.mapping a.buffer) b'.desc := by
  obtain ⟨a, ha⟩ : ∃ a, plainSystem.wrapFileDescriptor 7 2 2 2 5 12 4096 = some a := ⟨_, rfl⟩
  obtain ⟨htype, hpixel, call, hmaps⟩ := (Shared.wrapped ha).maps
  obtain ⟨-, -, call', hmaps', -, hoffset, -⟩ := allocate_fd ha
  obtain ⟨b', hrecv, hsame, -⟩ := recv_maps plainPeer htype (plainPeer_delivers a.buffer)
    (by decide : (0 : Int) ≤ 4) (by decide : (0 : Int) ≤ 3)
  refine ⟨a, call, b', ha, hmaps, hrecv, ?_⟩
  rw [samePixels_iff hsame.stride hpixel, hmaps.offset, ← hmaps'.offset, hoffset]
  exact fun h => absurd (show (4096 : BitVec 64) = 0 from h) (by decide)

/-! ## Sizes -/

/-- What a client can ask for. -/
inductive Request where
  | allocate (width height : BitVec 16) (format : BitVec 8) (type : BufferType)
  | fromFds (numFds : BitVec 8) (fd : BitVec 32) (width height : BitVec 16)
    (stride offset : BitVec 32) (modifier : BitVec 64)

def System.make (s : System) (id : BitVec 64) : Request → Option Allocated
  | .allocate width height format type =>
    s.allocateNew id (width.setWidth 32) (height.setWidth 32) format type
  | .fromFds numFds fd width height stride offset modifier =>
    s.pixmapFromFds id numFds fd width height stride offset modifier

/-- The stride of a client is not less than the width, and the area is no more than an `int` can hold. -/
def Request.Fits : Request → Prop
  | .allocate .. => True
  | .fromFds _ _ width height stride _ _ =>
    width.toNat ≤ stride.toNat / 4 ∧ stride.toNat / 4 * height.toNat < 2 ^ 31

/-- The system's functions for memory fail from `2 ^ 63` bytes on. -/
structure System.Documented (s : System) : Prop where
  page_pos : 0 < s.pageSize.toNat
  page_le : s.pageSize.toNat ≤ 2 ^ 16
  calloc : ∀ size, 2 ^ 63 ≤ size.toNat → s.calloc size = 0
  mmap : ∀ call, 2 ^ 63 ≤ call.size.toNat → s.mmap call = mapFailed

structure BigEnough (a : Allocated) : Prop where
  stride : a.buffer.desc.width.toInt ≤ a.buffer.desc.stride.toInt
  pixels : ∀ x y : Nat, HasPixel a.buffer.desc x y →
    4 * (y * a.buffer.desc.stride.toInt + x) + 4 ≤ a.memory.size.toNat
  product_exact : (a.buffer.desc.stride * a.buffer.desc.height).toInt =
    a.buffer.desc.stride.toInt * a.buffer.desc.height.toInt
  size_exact : (a.buffer.mapSize.toNat : Int) =
    4 * (a.buffer.desc.stride.toInt * a.buffer.desc.height.toInt)
  aligned : a.buffer.mapSize.toNat ≤ a.memory.size.toNat

section Sizes

variable {s : System} {id : BitVec 64} {a : Allocated} {width height stride : BitVec 32}

theorem toInt_of_lt (h : stride.toNat < 2 ^ 31) : stride.toInt = stride.toNat := by
  rw [BitVec.toInt_eq_toNat_cond, if_pos (by omega)]

/-- An area that is no negative `int`. -/
theorem productSize_small (h : stride.toNat * height.toNat < 2 ^ 31) :
    (productSize stride height).toNat = 4 * (stride.toNat * height.toNat) ∧
      (stride * height).toInt = stride.toNat * height.toNat := by
  have hmul : (stride * height).toNat = stride.toNat * height.toNat := by
    rw [BitVec.toNat_mul, Nat.mod_eq_of_lt (by omega)]
  have hint : (stride * height).toInt = stride.toNat * height.toNat := by
    rw [toInt_of_lt (by omega), hmul]
    push_cast
    rfl
  refine ⟨?_, hint⟩
  have hext : ((stride * height).signExtend 64).toNat = stride.toNat * height.toNat := by
    have hcast : ((stride * height).signExtend 64).toInt = stride.toNat * height.toNat := by
      rw [BitVec.toInt_signExtend_of_le (by decide), hint]
    rw [BitVec.toInt_eq_toNat_cond] at hcast
    have hlt := ((stride * height).signExtend 64).isLt
    have hnonneg : (0 : Int) ≤ (stride.toNat : Int) * height.toNat := by positivity
    split_ifs at hcast with hcond
    · exact_mod_cast hcast
    · omega
  rw [productSize, BitVec.toNat_mul, hext]
  simp
  omega

/-- An area that is a negative `int`. -/
theorem productSize_large (h : 2 ^ 31 ≤ stride.toNat * height.toNat)
    (h' : stride.toNat * height.toNat < 2 ^ 32) :
    (productSize stride height).toNat = 2 ^ 64 - 4 * (2 ^ 32 - stride.toNat * height.toNat) := by
  have hmul : (stride * height).toNat = stride.toNat * height.toNat := by
    rw [BitVec.toNat_mul, Nat.mod_eq_of_lt h']
  have hext : ((stride * height).signExtend 64).toNat =
      2 ^ 64 - (2 ^ 32 - stride.toNat * height.toNat) := by
    have hcast : ((stride * height).signExtend 64).toInt =
        (stride * height).toNat - (2 ^ 32 : Int) := by
      rw [BitVec.toInt_signExtend_of_le (by decide), BitVec.toInt_eq_toNat_cond, if_neg (by omega)]
      rfl
    rw [BitVec.toInt_eq_toNat_cond, hmul] at hcast
    have hlt := ((stride * height).signExtend 64).isLt
    generalize stride.toNat * height.toNat = area at *
    split_ifs at hcast with hcond <;> omega
  rw [productSize, BitVec.toNat_mul, hext]
  simp
  omega

/-- Aligning a size that is not near the end of the range makes it no smaller. -/
theorem le_alignToPage (hs : s.Documented) {size : BitVec 64} (h : size.toNat + 2 ^ 16 ≤ 2 ^ 64) :
    size.toNat ≤ (s.alignToPage size).toNat := by
  have hpos := hs.page_pos
  have hle := hs.page_le
  have hmask : (s.pageSize - 1).toNat = s.pageSize.toNat - 1 := by
    rw [BitVec.toNat_sub]
    simp
    omega
  have hsum : (size + s.pageSize - 1).toNat = size.toNat + s.pageSize.toNat - 1 := by
    rw [BitVec.toNat_sub, BitVec.toNat_add]
    simp
    omega
  have hsplit : ((size + s.pageSize - 1) &&& ~~~(s.pageSize - 1)).toNat +
      ((size + s.pageSize - 1) &&& (s.pageSize - 1)).toNat = (size + s.pageSize - 1).toNat := by
    generalize size + s.pageSize - 1 = v
    generalize s.pageSize - 1 = m
    have hdisjoint : (v &&& ~~~m) &&& (v &&& m) = 0#64 := by
      ext i hi
      simp
      grind
    have hor : (v &&& ~~~m) ||| (v &&& m) = v := by
      ext i hi
      simp
      grind
    rw [← BitVec.toNat_add_of_and_eq_zero hdisjoint, BitVec.add_eq_or_of_and_eq_zero _ _ hdisjoint, hor]
  have hlow : ((size + s.pageSize - 1) &&& (s.pageSize - 1)).toNat ≤ (s.pageSize - 1).toNat := by
    rw [BitVec.toNat_and]
    exact Nat.and_le_right
  rw [System.alignToPage]
  omega

theorem mapSize_eq (b : LorieBuffer) : b.mapSize = productSize b.desc.stride b.desc.height := rfl

/-- The area fits an `int`, and the memory is no smaller than the product. -/
theorem bigEnough_of (hsized : Sized a width stride height) (hstride : stride.toNat < 2 ^ 31)
    (hheight : height.toNat < 2 ^ 31) (hwidth : width.toNat ≤ stride.toNat)
    (harea : stride.toNat * height.toNat < 2 ^ 31)
    (hmemory : (productSize stride height).toNat ≤ a.memory.size.toNat) : BigEnough a := by
  obtain ⟨hsize, hproduct⟩ := productSize_small harea
  have hw : width.toInt = width.toNat := toInt_of_lt (by omega)
  have hs := toInt_of_lt hstride
  have hh := toInt_of_lt hheight
  constructor
  · rw [hsized.width_eq, hsized.stride_eq, hw, hs]
    exact_mod_cast hwidth
  · intro x y hpixel
    rw [HasPixel, hsized.width_eq, hsized.height_eq, hw, hh] at hpixel
    rw [hsized.stride_eq, hs]
    have hx : x + 1 ≤ stride.toNat := by omega
    have hy : y + 1 ≤ height.toNat := by omega
    have hrow : y * stride.toNat + x + 1 ≤ stride.toNat * height.toNat := by
      calc y * stride.toNat + x + 1 ≤ y * stride.toNat + stride.toNat := by omega
        _ = (y + 1) * stride.toNat := by ring
        _ ≤ height.toNat * stride.toNat := Nat.mul_le_mul_right _ hy
        _ = stride.toNat * height.toNat := Nat.mul_comm _ _
    have hbytes : 4 * (y * stride.toNat + x) + 4 ≤ a.memory.size.toNat := by omega
    exact_mod_cast hbytes
  · rw [hsized.stride_eq, hsized.height_eq, hproduct, hs, hh]
  · rw [mapSize_eq, hsized.stride_eq, hsized.height_eq, hsize, hs, hh]
    push_cast
    rfl
  · rw [mapSize_eq, hsized.stride_eq, hsized.height_eq]
    exact hmemory

theorem toNat_setWidth (w : BitVec 16) : (w.setWidth 32).toNat = w.toNat := by
  rw [BitVec.toNat_setWidth]
  have hlt := w.isLt
  omega

/-- A buffer of the server's own is big enough. -/
theorem allocate_bigEnough (hs : s.Documented) {width height : BitVec 16} {format : BitVec 8}
    {type : BufferType} (htype : type = .regular ∨ type = .fd)
    (h : s.allocateNew id (width.setWidth 32) (height.setWidth 32) format type = some a) :
    BigEnough a := by
  have hw := toNat_setWidth width
  have hh := toNat_setWidth height
  have hwlt := width.isLt
  have hhlt := height.isLt
  have harea : (width.setWidth 32).toNat * (height.setWidth 32).toNat ≤ 65535 * 65535 := by
    rw [hw, hh]
    exact Nat.mul_le_mul (by omega) (by omega)
  -- An area from `2 ^ 31` on is a huge size.
  have hlarge : 2 ^ 31 ≤ (width.setWidth 32).toNat * (height.setWidth 32).toNat →
      2 ^ 63 ≤ (productSize (width.setWidth 32) (height.setWidth 32)).toNat ∧
        (productSize (width.setWidth 32) (height.setWidth 32)).toNat + 2 ^ 16 ≤ 2 ^ 64 := by
    intro hle
    rw [productSize_large hle (by omega)]
    omega
  rcases htype with rfl | rfl
  · obtain ⟨hsized, -, hmemory, hcalloc⟩ := allocateNew_regular h
    have hsmall : (width.setWidth 32).toNat * (height.setWidth 32).toNat < 2 ^ 31 := by
      by_contra hle
      exact hcalloc (hs.calloc _ (hlarge (by omega)).1)
    exact bigEnough_of hsized (by omega) (by omega) le_rfl hsmall (by rw [hmemory]; rfl)
  · obtain ⟨hsized, -, call, hmaps, hsize, -, hmmap⟩ := allocateNew_fd h
    have hsmall : (width.setWidth 32).toNat * (height.setWidth 32).toNat < 2 ^ 31 := by
      by_contra hle
      obtain ⟨hhuge, hend⟩ := hlarge (by omega)
      apply hmmap (hs.mmap _ _)
      rw [hsize]
      exact hhuge.trans (le_alignToPage hs hend)
    apply bigEnough_of hsized (by omega) (by omega) le_rfl hsmall
    rw [hmaps.memory, Memory.size, hsize]
    apply le_alignToPage hs
    rw [(productSize_small hsmall).1]
    omega

/-- A buffer around a client's descriptor. -/
theorem wrap_bigEnough_iff {width height : BitVec 16} {stride : BitVec 32} {format : BitVec 8}
    {fd : BitVec 32} {offset : BitVec 64}
    (h : s.wrapFileDescriptor id (width.setWidth 32) (stride / 4) (height.setWidth 32) format fd
      offset = some a) :
    BigEnough a ↔
      width.toNat ≤ stride.toNat / 4 ∧ stride.toNat / 4 * height.toNat < 2 ^ 31 := by
  obtain ⟨hsized, -, call, hmaps, hsize, -⟩ := allocate_fd h
  have hdiv : (stride / 4).toNat = stride.toNat / 4 := BitVec.toNat_udiv
  have hw := toNat_setWidth width
  have hh := toNat_setWidth height
  have hwlt := width.isLt
  have hhlt := height.isLt
  have hslt := stride.isLt
  constructor
  · intro hbig
    have hwide := hbig.stride
    have hproduct := hbig.product_exact
    have hmax := BitVec.toInt_lt (x := a.buffer.desc.stride * a.buffer.desc.height)
    rw [hproduct] at hmax
    rw [hsized.width_eq, hsized.stride_eq, toInt_of_lt (by omega), toInt_of_lt (by omega), hw,
      hdiv] at hwide
    rw [hsized.stride_eq, hsized.height_eq, toInt_of_lt (by omega), toInt_of_lt (by omega), hh,
      hdiv] at hmax
    exact ⟨by exact_mod_cast hwide, by exact_mod_cast hmax⟩
  · rintro ⟨hwide, harea⟩
    apply bigEnough_of hsized (by omega) (by omega) (by omega) (by rw [hdiv, hh]; exact harea)
    rw [hmaps.memory, Memory.size, hsize]

theorem allocate_hardware {width stride height : BitVec 32} {format : BitVec 8} {buf : Address}
    {fd : BitVec 32} {size offset : BitVec 64} {takeFd : Bool}
    (h : s.allocate id width stride height format .aHardwareBuffer buf fd size offset takeFd =
      some a) :
    a.buffer.desc.type = .aHardwareBuffer := by
  unfold System.allocate at h
  simp only [ne_eq, not_true_eq_false, false_and, if_false] at h
  split_ifs at h <;> rw [(store_eq h).2.1]

theorem allocate_unknown {width stride height : BitVec 32} {format : BitVec 8} {buf : Address}
    {fd : BitVec 32} {size offset : BitVec 64} {takeFd : Bool} :
    s.allocate id width stride height format .unknown buf fd size offset takeFd ≠ some a := by
  unfold System.allocate
  dsimp only
  split_ifs <;> simp

/-- What `loriePixmapFromFds` makes is a buffer around the descriptor, or in hardware. -/
theorem pixmapFromFds_cases {numFds : BitVec 8} {fd : BitVec 32} {width height : BitVec 16}
    {stride offset : BitVec 32} {modifier : BitVec 64}
    (h : s.pixmapFromFds id numFds fd width height stride offset modifier = some a) :
    s.wrapFileDescriptor id (width.setWidth 32) (stride / 4) (height.setWidth 32)
        formatB8G8R8A8 fd (offset.setWidth 64) = some a ∨
      a.buffer.desc.type = .aHardwareBuffer := by
  unfold System.pixmapFromFds at h
  dsimp only at h
  split_ifs at h
  · exact .inl h
  · exact .inr (allocate_hardware h)

/-- Every buffer that is made is big enough, if the client's stride fits. -/
theorem bigEnough_iff (hs : s.Documented) (id : BitVec 64) (request : Request) (a : Allocated)
    (h : s.make id request = some a)
    (htype : a.buffer.desc.type = .regular ∨ a.buffer.desc.type = .fd) :
    BigEnough a ↔ request.Fits := by
  cases request with
  | allocate width height format type =>
    apply iff_of_true _ trivial
    cases type with
    | regular => exact allocate_bigEnough hs (.inl rfl) h
    | fd => exact allocate_bigEnough hs (.inr rfl) h
    | aHardwareBuffer => simp [allocate_hardware h] at htype
    | unknown =>
      change s.allocate id (width.setWidth 32) (width.setWidth 32) (height.setWidth 32) format .unknown
        0 (-1) 0 0 true = some a at h
      exact absurd h allocate_unknown
  | fromFds numFds fd width height stride offset modifier =>
    rcases pixmapFromFds_cases h with hwrap | hhardware
    · exact wrap_bigEnough_iff hwrap
    · simp [hhardware] at htype

end Sizes

theorem plainSystem_documented : plainSystem.Documented := by
  constructor
  · decide
  · decide
  · intro size h
    exact if_neg (by omega)
  · intro call h
    exact if_neg (by omega)

theorem bigEnough_iff_allocated :
    ∃ a, plainSystem.make 7 (.allocate 2 2 5 .regular) = some a ∧ BigEnough a := by
  obtain ⟨a, ha⟩ : ∃ a, plainSystem.make 7 (.allocate 2 2 5 .regular) = some a := ⟨_, rfl⟩
  have htype := (allocateNew_regular (show plainSystem.allocateNew 7 2 2 5 .regular = some a from
    ha)).2.1
  exact ⟨a, ha, (bigEnough_iff plainSystem_documented 7 _ a ha (.inl htype)).mpr trivial⟩

/-- A client's buffer that is wider than its stride. -/
theorem narrow_stride_accepted :
    ∃ a, plainSystem.make 7 (.fromFds 1 12 100 2 4 0 1274) = some a ∧ a.buffer.desc.type = .fd ∧
      a.buffer.desc.stride.toInt < a.buffer.desc.width.toInt ∧ ¬BigEnough a := by
  obtain ⟨a, ha⟩ : ∃ a, plainSystem.make 7 (.fromFds 1 12 100 2 4 0 1274) = some a := ⟨_, rfl⟩
  obtain ⟨hsized, htype, -⟩ := allocate_fd (show plainSystem.wrapFileDescriptor 7 100 1 2 5 12 0 =
    some a from ha)
  have hless : a.buffer.desc.stride.toInt < a.buffer.desc.width.toInt := by
    rw [hsized.stride_eq, hsized.width_eq]
    decide
  exact ⟨a, ha, htype, hless, fun hbig => absurd hbig.stride (by omega)⟩

end LorieBuffer

end XoDos
