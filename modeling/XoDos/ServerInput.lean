import XoDos.Framing
import XoDos.LorieEvent

/-!
# From the activity to the X server

The native methods of `LorieView` write events to the socket, and
`handleLorieEvents` of the server reads them.  Two members of the union announce
a block of bytes behind it: `screenSize` the name of the display and
`clipboardSend` the text.  Both sides write and read the union and the block
separately.

After an event `handleLorieEvents` goes on with the next one if `FIONREAD` says
that there is one, and otherwise returns; the input thread calls it again as
long as the socket is readable.  Either way the next `read` is of a union, so
the frames are what matters.
-/

namespace XoDos

namespace LorieEvent

/-- The length of the block behind the union. -/
def payloadSize : LorieEvent → Nat
  | .screenSize _ _ _ name_size => name_size.toNat
  | .clipboardSend count => count.toNat
  | _ => 0

/-- The types that `handleLorieEvents` has a case for. -/
def forServer : LorieEvent → Bool
  | .screenSize .. | .touch .. | .stylus _ | .stylusEnable _ | .mouse .. | .key .. | .unicode _
  | .clipboardEnable _ | .clipboardAnnounce | .clipboardSend _ => true
  | .sharedServerState | .addBuffer | .removeBuffer _ | .clipboardRequest
  | .windowFocusChanged => false

end LorieEvent

/-- An event with the block behind it. -/
structure Packet where
  event : LorieEvent
  payload : List Byte
  size_eq : payload.length = event.payloadSize
  forServer_eq : event.forServer = true

namespace Packet

@[ext] theorem ext {p q : Packet} (he : p.event = q.event) (hp : p.payload = q.payload) : p = q := by
  cases p
  cases q
  cases he
  cases hp
  rfl

/-- What one side writes: the union and, if there is one, the block. -/
def blocks (p : Packet) : List (List Byte) :=
  p.event.bytes :: if p.payload = [] then [] else [p.payload]

def bytes (p : Packet) : List Byte := p.event.bytes ++ p.payload

def plain (event : LorieEvent) (hsize : event.payloadSize = 0 := by rfl)
    (hserver : event.forServer = true := by rfl) : Packet :=
  ⟨event, [], hsize.symm, hserver⟩

theorem bytes_ne_nil (p : Packet) : p.bytes ≠ [] := by
  intro h
  have := congrArg List.length h
  simp [bytes, LorieEvent.size] at this

end Packet

/-- The bytes of a `jbyteArray`, whose length is a `jsize`. -/
structure JByteArray where
  bytes : List Byte
  length_lt : bytes.length < 2 ^ 31

/-- What `GetStringUTFChars` returns; `strlen` is the length. -/
structure JString where
  bytes : List Byte
  length_lt : bytes.length < 2 ^ 64
  nonzero : 0 ∉ bytes

/-- A call of a native method of `LorieView` with the socket connected.  A `jint` is an integer, a
`jfloat` its bit pattern, and a reference may be null. -/
inductive ActivityCall where
  | setClipboardSyncEnabled (enable : BitVec 8)
  | sendClipboardAnnounce
  | sendClipboardEvent (text : Option JByteArray)
  | sendWindowChange (width height framerate : Int) (jname : Option JString)
  | sendMouseEvent (x y : BitVec 32) (which_button : Int) (button_down relative : BitVec 8)
  | sendTouchEvent (action id x y : Int)
  | sendStylusEvent (x y : BitVec 32) (pressure tilt_x tilt_y orientation buttons : Int)
    (eraser mouse : BitVec 8)
  | requestStylusEnabled (enabled : BitVec 8)
  | sendKeyEvent (scan_code key_code : Int) (key_down : BitVec 8)
  | sendTextEvent (text : Option JByteArray)

/-- The parts of the C library and the tables that the methods use. -/
structure ActivityLibrary where
  /-- The character at the start of the bytes and its length; nothing for an error. -/
  mbrtowc : List Byte → Option (BitVec 32 × Nat)
  android_to_linux_keycode : Int → Int

namespace ActivityCall

def clipboardPacket (text : JByteArray) : Packet where
  event := .clipboardSend (BitVec.ofNat 32 text.bytes.length)
  payload := text.bytes
  size_eq := by
    have := text.length_lt
    simp only [LorieEvent.payloadSize, BitVec.toNat_ofNat]
    omega
  forServer_eq := rfl

def screenPacket (width height framerate : BitVec 16) (name : JString) : Packet where
  event := .screenSize width height framerate (BitVec.ofNat 64 name.bytes.length)
  payload := name.bytes
  size_eq := by
    have := name.length_lt
    simp only [LorieEvent.payloadSize, BitVec.toNat_ofNat]
    omega
  forServer_eq := rfl

/-- The loop of `sendTextEvent` from `p` on; every round takes at least one byte. -/
def sendTextLoop (library : ActivityLibrary) : Nat → List Byte → List Packet
  | 0, _ => []
  | fuel + 1, p =>
    if p.headD 0 = 0 then []
    else
      match library.mbrtowc p with
      | none => []
      | some (wc, len) =>
        if len = 0 then []
        else .plain (.unicode wc) :: sendTextLoop library fuel (p.drop len)

/-- The packets that a call writes. -/
def writes (library : ActivityLibrary) : ActivityCall → List Packet
  | .setClipboardSyncEnabled enable => [.plain (.clipboardEnable enable)]
  | .sendClipboardAnnounce => [.plain .clipboardAnnounce]
  | .sendClipboardEvent none => []
  | .sendClipboardEvent (some text) => [clipboardPacket text]
  | .sendWindowChange width height framerate jname =>
    let name := if width ≤ 0 ∨ height ≤ 0 then none else jname
    [screenPacket (BitVec.ofInt 16 width) (BitVec.ofInt 16 height) (BitVec.ofInt 16 framerate)
      (name.getD ⟨[], by norm_num, by simp⟩)]
  | .sendMouseEvent x y which_button button_down relative =>
    [.plain (.mouse x y (BitVec.ofInt 8 which_button) button_down relative)]
  | .sendTouchEvent action id x y =>
    if action = -1 then []
    else [.plain (.touch (BitVec.ofInt 16 action) (BitVec.ofInt 16 id) (BitVec.ofInt 16 x)
      (BitVec.ofInt 16 y))]
  | .sendStylusEvent x y pressure tilt_x tilt_y orientation buttons eraser mouse =>
    [.plain (.stylus
      { x, y, pressure := BitVec.ofInt 16 pressure, tilt_x := BitVec.ofInt 8 tilt_x,
        tilt_y := BitVec.ofInt 8 tilt_y, orientation := BitVec.ofInt 16 orientation,
        buttons := BitVec.ofInt 8 buttons, eraser, mouse })]
  | .requestStylusEnabled enabled => [.plain (.stylusEnable enabled)]
  | .sendKeyEvent scan_code key_code key_down =>
    let code := if scan_code = 0 then library.android_to_linux_keycode key_code else scan_code
    [.plain (.key (BitVec.ofInt 16 (code + 8)) key_down)]
  | .sendTextEvent none => []
  | .sendTextEvent (some text) => sendTextLoop library text.bytes.length text.bytes

end ActivityCall

/-- The block in memory that `calloc` has zeroed, after a read that returned `data`. -/
def zeroFilled (size : Nat) (data : List Byte) : List Byte :=
  data.take size ++ List.replicate (size - data.length) 0

theorem length_zeroFilled (size : Nat) (data : List Byte) :
    (zeroFilled size data).length = size := by
  simp only [zeroFilled, List.length_append, List.length_take, List.length_replicate]
  omega

theorem zeroFilled_self (data : List Byte) : zeroFilled data.length data = data := by
  simp [zeroFilled]

/-- One round of `handleLorieEvents`, and what it dispatches.  A union that is not read in whole is
dropped.  The length of the block that is read is not looked at. -/
def handleLorieEvents (s : Socket Byte) : Option Packet × Socket Byte :=
  let (e, s) := s.read LorieEvent.size
  if e.length = LorieEvent.size then
    match LorieEvent.ofBytes e with
    | none => (none, s)
    | some event =>
      if h : event.forServer = true then
        let (data, s) := s.read event.payloadSize
        (some ⟨event, zeroFilled event.payloadSize data, length_zeroFilled _ _, h⟩, s)
      else (none, s)
  else (none, s)

theorem handleLorieEvents_consumes (s : Socket Byte) (h : s.unread ≠ []) :
    (handleLorieEvents s).2.unread <:+ s.unread ∧
      (handleLorieEvents s).2.unread.length < s.unread.length := by
  have hsuffix := s.read_suffix LorieEvent.size
  have hless := Socket.length_unread_lt (k := LorieEvent.size) (by decide) h
  rw [handleLorieEvents]
  generalize s.read LorieEvent.size = taken at hsuffix hless ⊢
  obtain ⟨e, s₁⟩ := taken
  dsimp only at hsuffix hless ⊢
  split
  · split
    · exact ⟨hsuffix, hless⟩
    · split
      · have hpayload := s₁.read_suffix (LorieEvent.payloadSize ‹_›)
        exact ⟨hpayload.trans hsuffix, hpayload.length_le.trans_lt hless⟩
      · exact ⟨hsuffix, hless⟩
  · exact ⟨hsuffix, hless⟩

namespace Packet

variable (p : Packet) (rest : List Byte) (a : List Nat)

/-- What is left once the union has been read. -/
theorem read_event (h : LorieEvent.size ≤ Socket.available ⟨p.bytes ++ rest, a⟩) :
    Socket.read ⟨p.bytes ++ rest, a⟩ LorieEvent.size =
      (p.event.bytes, ⟨p.payload ++ rest, a.tail⟩) := by
  have hread := @Socket.read_append _ p.event.bytes (p.payload ++ rest) a
  simp only [LorieEvent.length_bytes, ← List.append_assoc] at hread
  apply hread
  · intro h
    simpa [LorieEvent.size] using congrArg List.length h
  · exact h

theorem arrives_blocks_iff :
    Arrives p.blocks a ↔ LorieEvent.size ≤ Socket.available ⟨p.bytes ++ rest, a⟩ ∧
      (p.payload ≠ [] → p.payload.length ≤ Socket.available ⟨p.payload ++ rest, a.tail⟩) := by
  rw [blocks, arrives_cons (p.payload ++ rest), LorieEvent.length_bytes, bytes, List.append_assoc]
  apply and_congr_right
  intro _
  split_ifs with h
  · simp [Arrives, h]
  · rw [arrives_cons rest]
    simp [Arrives, h]

/-- The round that reads the union of `p` in whole. -/
theorem handleLorieEvents_eq (h : LorieEvent.size ≤ Socket.available ⟨p.bytes ++ rest, a⟩) :
    handleLorieEvents ⟨p.bytes ++ rest, a⟩ =
      (some ⟨p.event, zeroFilled p.event.payloadSize
          (Socket.read ⟨p.payload ++ rest, a.tail⟩ p.event.payloadSize).1,
          length_zeroFilled _ _, p.forServer_eq⟩,
        (Socket.read ⟨p.payload ++ rest, a.tail⟩ p.event.payloadSize).2) := by
  simp [handleLorieEvents, read_event p rest a h, p.forServer_eq]

/-- A packet whose blocks are there in whole is dispatched as it is. -/
theorem handleLorieEvents_of_arrives (h : Arrives p.blocks a) :
    handleLorieEvents ⟨p.bytes ++ rest, a⟩ = (some p, ⟨rest, a.drop p.blocks.length⟩) := by
  obtain ⟨hevent, hpayload⟩ := (arrives_blocks_iff p rest a).mp h
  rw [handleLorieEvents_eq p rest a hevent]
  by_cases hnil : p.payload = []
  · have hsize : p.event.payloadSize = 0 := by rw [← p.size_eq, hnil, List.length_nil]
    simp only [hsize, Socket.read_zero, hnil, List.nil_append, blocks, if_true]
    congr 2
    · apply Packet.ext
      · rfl
      · simp [zeroFilled, hnil]
    · simp
  · have hread := Socket.read_append hnil (hpayload hnil)
    simp only [← p.size_eq, hread, zeroFilled_self, blocks, hnil, if_false]
    congr 2
    cases a with
    | nil => rfl
    | cons n a => cases a <;> rfl

/-- The server stays in step with a packet exactly when its blocks are there in whole. -/
theorem handleLorieEvents_iff :
    ((handleLorieEvents ⟨p.bytes ++ rest, a⟩).1 = some p ∧
      (handleLorieEvents ⟨p.bytes ++ rest, a⟩).2.unread = rest) ↔ Arrives p.blocks a := by
  constructor
  · intro ⟨hgiven, hunread⟩
    by_cases hevent : LorieEvent.size ≤ Socket.available ⟨p.bytes ++ rest, a⟩
    · refine (arrives_blocks_iff p rest a).mpr ⟨hevent, fun hnil => ?_⟩
      rw [handleLorieEvents_eq p rest a hevent] at hunread
      have hsize : p.event.payloadSize ≠ 0 := by
        rw [← p.size_eq]
        simpa using hnil
      have hlength := congrArg List.length hunread
      rw [Socket.read_unread, List.length_drop, Socket.length_read hsize, ← p.size_eq] at hlength
      simp only [List.length_append] at hlength
      have := List.length_pos_of_ne_nil hnil
      omega
    · -- the union is cut short and dropped
      have hshort : (Socket.read ⟨p.bytes ++ rest, a⟩ LorieEvent.size).1.length ≠
          LorieEvent.size := by
        rw [Socket.length_read (by decide)]
        omega
      simp [handleLorieEvents, hshort] at hgiven
  · intro h
    rw [handleLorieEvents_of_arrives p rest a h]
    exact ⟨rfl, rfl⟩

theorem inStep_iff (packets : List Packet) (a : List Nat) :
    InStep handleLorieEvents bytes id packets a ↔ Arrives (packets.flatMap blocks) a := by
  induction packets generalizing a with
  | nil => simp [InStep, Arrives]
  | cons p packets ih =>
    rw [InStep, List.flatMap_cons, arrives_append, ← and_assoc, id, handleLorieEvents_iff]
    apply and_congr_right
    intro h
    rw [handleLorieEvents_of_arrives p _ a h]
    exact ih _

end Packet

/-- What the server takes off the socket on which the packets were written, the bytes coming out of
it as `arrivals` says. -/
def serverLog (packets : List Packet) (arrivals : List Nat) : List (Nat × Option Packet) :=
  receive handleLorieEvents (packets.flatMap Packet.bytes).length
    ⟨packets.flatMap Packet.bytes, arrivals⟩

/-- For all calls of the activity and all pieces in which their bytes come out of the socket: the
events dispatched are those written, each from where it was written, if and only if every read
finds the block it is for in whole. -/
theorem handleLorieEvents_exact_iff (library : ActivityLibrary) (calls : List ActivityCall)
    (arrivals : List Nat) :
    ((serverLog (calls.flatMap (ActivityCall.writes library)) arrivals).filterMap Prod.snd =
        calls.flatMap (ActivityCall.writes library) ∧
      (serverLog (calls.flatMap (ActivityCall.writes library)) arrivals).map Prod.fst =
        places Packet.bytes (calls.flatMap (ActivityCall.writes library))) ↔
      Arrives ((calls.flatMap (ActivityCall.writes library)).flatMap Packet.blocks) arrivals := by
  rw [← Packet.inStep_iff, ← receive_iff Packet.bytes_ne_nil handleLorieEvents_consumes le_rfl,
    eq_exactLog_iff, List.map_id, and_comm]
  rfl

/-- A block that is cut short is dispatched with zeros for what has not arrived. -/
theorem dispatched_ne_of_short (p : Packet) (n m : Nat) (hn : LorieEvent.size ≤ max 1 n)
    (hm : max 1 m < p.payload.length) (hzero : 0 ∉ p.payload) :
    (serverLog [p] [n, m]).filterMap Prod.snd ≠ [p] := by
  have hne : p.payload ≠ [] := by
    intro h
    simp [h] at hm
  have hsize : p.event.payloadSize ≠ 0 := by
    rw [← p.size_eq]
    simpa using hne
  intro h
  obtain ⟨fuel, hfuel⟩ := Nat.exists_eq_add_one_of_ne_zero
    (List.length_pos_of_ne_nil p.bytes_ne_nil).ne'
  have hnonempty : p.bytes.isEmpty = false := by simpa using p.bytes_ne_nil
  have hround := Packet.handleLorieEvents_eq p [] [n, m] (by simpa [Socket.available] using hn)
  simp only [List.append_nil] at hround
  simp only [serverLog, List.flatMap_cons, List.flatMap_nil, List.append_nil, hfuel, receive,
    hnonempty, Bool.false_eq_true, if_false, hround, List.filterMap_cons, List.cons.injEq] at h
  have hpayload := congrArg Packet.payload h.1
  dsimp only at hpayload
  apply hzero
  rw [← hpayload, zeroFilled, List.mem_append, List.mem_replicate, Socket.length_read hsize,
    ← p.size_eq]
  right
  simp only [List.tail_cons, Socket.available, and_true]
  omega

/-- 200000 bytes are more than the socket takes at once. -/
def longText : JByteArray := ⟨List.replicate 200000 0x61, by rw [List.length_replicate]; norm_num⟩

/-- The union of a long clipboard text comes whole, but its block in two pieces. -/
theorem sendClipboardEvent_cut_short :
    (serverLog ([ActivityCall.sendClipboardEvent (some longText)].flatMap
        (ActivityCall.writes ⟨fun _ => none, fun _ => 0⟩)) [24, 131072]).filterMap Prod.snd ≠
      [ActivityCall.sendClipboardEvent (some longText)].flatMap
        (ActivityCall.writes ⟨fun _ => none, fun _ => 0⟩) := by
  apply dispatched_ne_of_short (ActivityCall.clipboardPacket longText) 24 131072
  · decide
  · rw [ActivityCall.clipboardPacket, longText, List.length_replicate]
    norm_num
  · rw [ActivityCall.clipboardPacket, longText, List.mem_replicate]
    decide

end XoDos
