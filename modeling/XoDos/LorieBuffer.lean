import Mathlib.Tactic

/-!
# Shared buffers

A `LorieBuffer` is sent to another process as the bytes of its struct, followed
by the handle of its memory.  The receiver maps the memory and keeps the struct.

A pointer is an address, and NULL is 0.  What the system calls of the receiver
return is a parameter.
-/

namespace XoDos

abbrev Address := BitVec 64

inductive BufferType where
  | unknown
  | regular
  | fd
  | aHardwareBuffer
deriving DecidableEq, Repr

/-- `LorieBuffer_Desc` -/
structure BufferDesc where
  width : BitVec 32
  height : BitVec 32
  stride : BitVec 32
  format : BitVec 8
  type : BufferType
  id : BitVec 64
  buffer : Address
  data : Address
deriving DecidableEq

/-- `struct xorg_list` -/
structure XorgList where
  next : Address
  prev : Address
deriving DecidableEq

structure LorieBuffer where
  refcount : BitVec 16
  desc : BufferDesc
  locked : BitVec 8
  lockedData : Address
  fd : BitVec 32
  size : BitVec 64
  offset : BitVec 64
  id : BitVec 32
  image : Address
  link : XorgList
deriving DecidableEq

/-- `xorg_list_init` of the list at an address. -/
def XorgList.init (list : Address) : XorgList := ⟨list, list⟩

namespace LorieBuffer

/-- Drops a reference, and tells whether the buffer is freed. -/
def release (b : LorieBuffer) : LorieBuffer × Bool :=
  ({ b with refcount := b.refcount - 1 }, b.refcount = 1)

/-- Where `link` is in the struct. -/
def linkOffset : Address := 104

/-! ## Over a socket -/

/-- What goes over the socket. -/
inductive Datum where
  | struct (b : LorieBuffer)
  | descriptor (fd : BitVec 32)
  | handle (buffer : Address)
deriving DecidableEq

/-- What is sent after the struct. -/
def sendMemory (b : LorieBuffer) : List Datum :=
  match b.desc.type with
  | .fd => [.descriptor b.fd]
  | .aHardwareBuffer => [.handle b.desc.buffer]
  | _ => []

def sendHandleToUnixSocket (b : LorieBuffer) (socketFd : Int) : List Datum :=
  if socketFd < 0 then [] else .struct b :: b.sendMemory

/-- What the system gives the receiver. -/
structure Receiver where
  /-- The descriptor under which a descriptor of the sender arrives, or −1. -/
  ancil_recv_fd : BitVec 32 → BitVec 32
  mmap : BitVec 64 → BitVec 32 → Address
  /-- What `AHardwareBuffer_recvHandleFromUnixSocket` stores. -/
  recvHandle : Address → Address
  calloc : Address

def mapFailed : Address := -1

/-- `buffer` as it is before `read`. -/
def blank : LorieBuffer :=
  { refcount := 1
    desc := ⟨0, 0, 0, 0, .unknown, 0, 0, 0⟩
    locked := 0
    lockedData := 0
    fd := -1
    size := 0
    offset := 0
    id := 0
    image := 0
    link := ⟨0, 0⟩ }

/-- `read` of a struct.  It leaves the memory alone when there is none to read. -/
def read (buffer : LorieBuffer) : List Datum → LorieBuffer × List Datum
  | .struct b :: rest => (b, rest)
  | socket => (buffer, socket)

/-- The fd that the next message carries. -/
def Receiver.recvFd (r : Receiver) : List Datum → BitVec 32
  | .descriptor fd :: _ => r.ancil_recv_fd fd
  | _ => -1

/-- `desc.buffer` after the handle has been received. -/
def Receiver.recvBuffer (r : Receiver) (old : Address) : List Datum → Address
  | .handle buffer :: _ => r.recvHandle buffer
  | _ => old

/-- The size that is mapped. -/
def mapSize (b : LorieBuffer) : BitVec 64 := (b.desc.stride * b.desc.height).signExtend 64 * 4

/-- The handle of the memory. `none` when it does not arrive. -/
def Receiver.recvMemory (r : Receiver) (buffer : LorieBuffer) (socket : List Datum) :
    Option LorieBuffer :=
  match buffer.desc.type with
  | .fd =>
    let fd := r.recvFd socket
    if fd = -1 then none
    else
      let data := r.mmap buffer.mapSize fd
      if data = 0 ∨ data = mapFailed then none
      else some { buffer with fd := fd, desc := { buffer.desc with data := data } }
  | .aHardwareBuffer =>
    some { buffer with desc := { buffer.desc with buffer := r.recvBuffer buffer.desc.buffer socket } }
  | _ => some buffer

/-- The buffer that is stored in `*outBuffer`, with its address. -/
def recvHandleFromUnixSocket (r : Receiver) (socketFd : Int) (outBuffer : Bool)
    (socket : List Datum) : Option (Address × LorieBuffer) :=
  if socketFd < 0 then none
  else
    let (buffer, socket) := blank.read socket
    let buffer := { buffer with image := 0 }
    match r.recvMemory buffer socket with
    | none => none
    | some buffer =>
      let ret := if outBuffer then r.calloc else 0
      if ret = 0 then none
      else some (ret, { buffer with link := XorgList.init (ret + linkOffset) })

/-! ## What arrives -/

variable {b b' : LorieBuffer} {r : Receiver} {ret : Address}

/-- The descriptor or handle of the buffer arrives, and there is memory. -/
def Receiver.Delivers (r : Receiver) (b : LorieBuffer) : Prop :=
  r.calloc ≠ 0 ∧
    (b.desc.type = .fd → r.ancil_recv_fd b.fd ≠ -1 ∧
      r.mmap b.mapSize (r.ancil_recv_fd b.fd) ≠ 0 ∧
        r.mmap b.mapSize (r.ancil_recv_fd b.fd) ≠ mapFailed)

/-- The fields of the description that mean the same in both processes. -/
structure SameDescription (b b' : LorieBuffer) : Prop where
  width : b'.desc.width = b.desc.width
  height : b'.desc.height = b.desc.height
  stride : b'.desc.stride = b.desc.stride
  format : b'.desc.format = b.desc.format
  type : b'.desc.type = b.desc.type
  id : b'.desc.id = b.desc.id

/-- A buffer at `ret` that its process alone owns and has not touched. -/
structure FreshAt (ret : Address) (b : LorieBuffer) : Prop where
  refcount : b.refcount = 1
  locked : b.locked = 0
  lockedData : b.lockedData = 0
  link : b.link = XorgList.init (ret + linkOffset)
  freed : b.release.2 = true

theorem release_frees : b.release.2 = true ↔ b.refcount = 1 := by
  simp [release]

/-- The fields that the receiver does not set. -/
structure Kept (b b' : LorieBuffer) : Prop extends SameDescription b b' where
  refcount : b'.refcount = b.refcount
  locked : b'.locked = b.locked
  lockedData : b'.lockedData = b.lockedData

theorem recvMemory_kept (hr : r.Delivers b) :
    ∃ b', r.recvMemory { b with image := 0 } b.sendMemory = some b' ∧ Kept b b' := by
  unfold Receiver.recvMemory sendMemory
  dsimp only
  cases htype : b.desc.type with
  | fd =>
    obtain ⟨hfd, hnull, hfailed⟩ := hr.2 htype
    dsimp only [Receiver.recvFd]
    have hmap : ¬(r.mmap b.mapSize (r.ancil_recv_fd b.fd) = 0 ∨
        r.mmap b.mapSize (r.ancil_recv_fd b.fd) = mapFailed) := not_or.mpr ⟨hnull, hfailed⟩
    exact ⟨_, (if_neg hfd).trans (if_neg hmap),
      ⟨⟨rfl, rfl, rfl, rfl, htype.symm, rfl⟩, rfl, rfl, rfl⟩⟩
  | aHardwareBuffer =>
    exact ⟨_, rfl, ⟨⟨rfl, rfl, rfl, rfl, htype.symm, rfl⟩, rfl, rfl, rfl⟩⟩
  | _ => exact ⟨_, rfl, ⟨⟨rfl, rfl, rfl, rfl, rfl, rfl⟩, rfl, rfl, rfl⟩⟩

/-- The receiver gets the fields of the sender, and a link of its own. -/
theorem recv_send (hr : r.Delivers b) {socketFd socketFd' : Int} (hfd : 0 ≤ socketFd)
    (hfd' : 0 ≤ socketFd') :
    ∃ b', recvHandleFromUnixSocket r socketFd' true (b.sendHandleToUnixSocket socketFd) =
        some (r.calloc, b') ∧
      Kept b b' ∧ b'.link = XorgList.init (r.calloc + linkOffset) := by
  obtain ⟨m, hm, hkept⟩ := recvMemory_kept hr
  unfold recvHandleFromUnixSocket sendHandleToUnixSocket
  rw [if_neg (by omega), if_neg (by omega)]
  simp only [read, hm, if_true, hr.1, if_false]
  exact ⟨_, rfl, ⟨⟨hkept.width, hkept.height, hkept.stride, hkept.format, hkept.type, hkept.id⟩,
    hkept.refcount, hkept.locked, hkept.lockedData⟩, rfl⟩

/-- A buffer that is sent arrives with its description.  It arrives fresh exactly when the sender
holds the only reference to it and has not locked it. -/
theorem received_fresh_iff (hr : r.Delivers b) {socketFd socketFd' : Int} (hfd : 0 ≤ socketFd)
    (hfd' : 0 ≤ socketFd') :
    ∃ ret b', recvHandleFromUnixSocket r socketFd' true (b.sendHandleToUnixSocket socketFd) =
        some (ret, b') ∧
      ((FreshAt ret b' ∧ SameDescription b b') ↔
        b.refcount = 1 ∧ b.locked = 0 ∧ b.lockedData = 0) := by
  obtain ⟨b', hrecv, hkept, hlink⟩ := recv_send hr hfd hfd'
  refine ⟨_, b', hrecv, ?_, ?_⟩
  · rintro ⟨hfresh, -⟩
    exact ⟨hkept.refcount ▸ hfresh.refcount, hkept.locked ▸ hfresh.locked,
      hkept.lockedData ▸ hfresh.lockedData⟩
  · rintro ⟨hone, hlocked, hdata⟩
    have hone' := hkept.refcount.trans hone
    exact ⟨⟨hone', hkept.locked.trans hlocked, hkept.lockedData.trans hdata, hlink,
      release_frees.mpr hone'⟩, hkept.toSameDescription⟩

/-- A buffer of 2 × 2 pixels in shared memory. -/
def sample (refcount : BitVec 16) (locked : BitVec 8) (lockedData : Address) : LorieBuffer :=
  { refcount := refcount
    desc := ⟨2, 2, 2, 5, .fd, 7, 0, 0x7000⟩
    locked := locked
    lockedData := lockedData
    fd := 12
    size := 4096
    offset := 0
    id := 0
    image := 0
    link := ⟨0x9000, 0x9000⟩ }

def receiver : Receiver :=
  { ancil_recv_fd := fun _ => 30
    mmap := fun _ _ => 0x5000
    recvHandle := fun buffer => buffer
    calloc := 0x6000 }

theorem receiver_delivers (b : LorieBuffer) : receiver.Delivers b :=
  by
  refine ⟨by decide, fun _ => ⟨?_, ?_, ?_⟩⟩ <;> simp [receiver, mapFailed]

theorem received_fresh_sample :
    ∃ ret b', recvHandleFromUnixSocket receiver 3 true ((sample 1 0 0).sendHandleToUnixSocket 4) =
        some (ret, b') ∧ FreshAt ret b' := by
  obtain ⟨ret, b', hrecv, hiff⟩ :=
    received_fresh_iff (receiver_delivers (sample 1 0 0)) (by decide : (0 : Int) ≤ 4)
      (by decide : (0 : Int) ≤ 3)
  exact ⟨ret, b', hrecv, (hiff.mpr ⟨rfl, rfl, rfl⟩).1⟩

/-- The sender has locked its buffer and holds two references: so does the receiver, and its
release does not free the buffer. -/
theorem received_locked :
    ∃ ret b', recvHandleFromUnixSocket receiver 3 true
          ((sample 2 1 0x7000).sendHandleToUnixSocket 4) = some (ret, b') ∧
      ¬FreshAt ret b' ∧ b'.release.2 = false := by
  obtain ⟨b', hrecv, hkept, -⟩ :=
    recv_send (receiver_delivers (sample 2 1 0x7000)) (by decide : (0 : Int) ≤ 4)
      (by decide : (0 : Int) ≤ 3)
  have hfreed : b'.release.2 = false := by
    have href : b'.refcount = 2 := hkept.refcount
    simp [release, href]
  refine ⟨_, b', hrecv, ?_, hfreed⟩
  intro hfresh
  rw [hfresh.freed] at hfreed
  cases hfreed

end LorieBuffer

end XoDos
