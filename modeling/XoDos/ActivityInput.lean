import Mathlib.Data.List.TakeWhile
import XoDos.Framing
import XoDos.LorieEvent

/-!
# From the X server to the activity

The server writes events to the socket, some of them with more behind the
union: a text, an open file, or a shared buffer.  `xcallback` of the activity
reads them.  An open file travels as ancillary data of one byte.

As in `ServerInput`, whether `xcallback` goes on by itself or is called again by
the looper makes no difference to the frames.

How a hardware buffer travels is up to Android; here it is a parameter.
-/

namespace XoDos

/-- A byte on the socket, and the open file that comes with it. -/
structure Octet where
  value : Byte
  rights : Option Nat
deriving DecidableEq

/-- Bytes as `write` sends them. -/
def octets (bytes : List Byte) : List Octet := bytes.map fun b => ⟨b, none⟩

@[simp] theorem length_octets (bytes : List Byte) : (octets bytes).length = bytes.length := by
  simp [octets]

@[simp] theorem map_value_octets (bytes : List Byte) : (octets bytes).map Octet.value = bytes := by
  simp [octets, Function.comp_def]

@[simp] theorem octets_eq_nil {bytes : List Byte} : octets bytes = [] ↔ bytes = [] := by
  simp [octets]

/-- `AHardwareBuffer_sendHandleToUnixSocket` and `AHardwareBuffer_recvHandleFromUnixSocket`, for
handles of type `H`.  What is received is what was sent, once it has arrived. -/
structure HardwareBuffers (H : Type) where
  send : H → List Octet
  recv : Socket Octet → Option H × Socket Octet
  send_ne_nil : ∀ h, send h ≠ []
  recv_suffix : ∀ s, (recv s).2.unread <:+ s.unread
  recv_send : ∀ h rest a, (send h).length ≤ Socket.available ⟨send h ++ rest, a⟩ →
    recv ⟨send h ++ rest, a⟩ = (some h, ⟨rest, a.tail⟩)

/-- `ancil_send_fd`. -/
def ancilSendFd (fd : Nat) : List Octet := [⟨0x21, some fd⟩]

/-- `ancil_recv_fd`; nothing stands for -1. -/
def ancilRecvFd (s : Socket Octet) : Option Nat × Socket Octet :=
  let (octet, s) := s.read 1
  (octet.head?.bind Octet.rights, s)

/-- The part of `LorieBuffer_Desc` that means the same in both processes. -/
structure SentDesc where
  width : BitVec 32
  height : BitVec 32
  stride : BitVec 32
  format : BitVec 8
  type : BitVec 8
  id : BitVec 64
deriving DecidableEq

/-- What backs a buffer. -/
inductive Backing (H : Type) where
  /-- `LORIEBUFFER_REGULAR`. -/
  | regular
  /-- `LORIEBUFFER_FD`. -/
  | fd (file : Nat)
  /-- `LORIEBUFFER_AHARDWAREBUFFER`. -/
  | hardware (handle : H)
deriving DecidableEq

namespace SentDesc

/-- `sizeof(LorieBuffer)`. -/
def size : Nat := 120

/-- The description in the image of a `LorieBuffer`. -/
def ofImage (m : Image) : SentDesc where
  width := m.get 8 4
  height := m.get 12 4
  stride := m.get 16 4
  format := m.get 20 1
  type := m.get 21 1
  id := m.get 24 8

theorem ofImage_ofBytes (m : Image) : ofImage (Image.ofBytes (m.bytes size)) = ofImage m := by
  simp only [ofImage]
  rw [Image.get_ofBytes m (by decide), Image.get_ofBytes m (by decide),
    Image.get_ofBytes m (by decide), Image.get_ofBytes m (by decide),
    Image.get_ofBytes m (by decide), Image.get_ofBytes m (by decide)]

end SentDesc

/-- A `LorieBuffer` of the server.  All of its bytes are sent, though only the description is of
use to the receiver. -/
structure SentBuffer (H : Type) where
  image : Image
  backing : Backing H
  type_eq : (SentDesc.ofImage image).type =
    match backing with
    | .regular => 1
    | .fd _ => 2
    | .hardware _ => 3

/-- A string without its terminator. -/
structure CString where
  bytes : List Byte
  nonzero : 0 ∉ bytes

/-- What the server writes. -/
inductive ServerWrite (H : Type) where
  | lorieRequestClipboard
  | lorieSendClipboardData (data : CString)
  | lorieSendSharedServerState (memfd : Nat)
  | lorieRegisterBuffer (buffer : SentBuffer H)
  | lorieUnregisterBuffer (id : BitVec 64)
  | ddxNotifyFocusChanged

/-- What the activity makes of it. -/
inductive ServerMessage (H : Type) where
  | clipboardRequest
  | clipboardSend (text : List Byte)
  | sharedServerState (fd : Nat)
  | addBuffer (desc : SentDesc) (backing : Backing H)
  | removeBuffer (id : BitVec 64)
  | windowFocusChanged
deriving DecidableEq

section Wire

variable {H : Type} (hardware : HardwareBuffers H)

/-- `LorieBuffer_sendHandleToUnixSocket`. -/
def SentBuffer.sendHandle (b : SentBuffer H) : List (List Octet) :=
  octets (b.image.bytes SentDesc.size) ::
    match b.backing with
    | .regular => []
    | .fd file => [ancilSendFd file]
    | .hardware handle => [hardware.send handle]

/-- `LorieBuffer_recvHandleFromUnixSocket`, where mapping the memory succeeds. -/
def recvHandle (s : Socket Octet) : Option (SentDesc × Backing H) × Socket Octet :=
  let (buffer, s) := s.read SentDesc.size
  let desc := SentDesc.ofImage (Image.ofBytes (buffer.map Octet.value))
  if desc.type = 2 then
    let (fd, s) := ancilRecvFd s
    (fd.map fun fd => (desc, .fd fd), s)
  else if desc.type = 3 then
    let (handle, s) := hardware.recv s
    (handle.map fun handle => (desc, .hardware handle), s)
  else (some (desc, .regular), s)

namespace ServerWrite

def event : ServerWrite H → LorieEvent
  | .lorieRequestClipboard => .clipboardRequest
  | .lorieSendClipboardData data => .clipboardSend (BitVec.ofNat 32 data.bytes.length)
  | .lorieSendSharedServerState _ => .sharedServerState
  | .lorieRegisterBuffer _ => .addBuffer
  | .lorieUnregisterBuffer id => .removeBuffer id
  | .ddxNotifyFocusChanged => .windowFocusChanged

/-- The blocks behind the union. -/
def payload : ServerWrite H → List (List Octet)
  | .lorieSendClipboardData data => if data.bytes = [] then [] else [octets data.bytes]
  | .lorieSendSharedServerState memfd => [ancilSendFd memfd]
  | .lorieRegisterBuffer buffer => buffer.sendHandle hardware
  | _ => []

def blocks (w : ServerWrite H) : List (List Octet) := octets w.event.bytes :: w.payload hardware

def bytes (w : ServerWrite H) : List Octet := (w.blocks hardware).flatten

def message : ServerWrite H → ServerMessage H
  | .lorieRequestClipboard => .clipboardRequest
  | .lorieSendClipboardData data => .clipboardSend data.bytes
  | .lorieSendSharedServerState memfd => .sharedServerState memfd
  | .lorieRegisterBuffer buffer => .addBuffer (SentDesc.ofImage buffer.image) buffer.backing
  | .lorieUnregisterBuffer id => .removeBuffer id
  | .ddxNotifyFocusChanged => .windowFocusChanged

end ServerWrite

/-- The string in `clipboard[count + 1]` after a read and `clipboard[count] = 0`. -/
def clipboardText (count : Nat) (clipboard : List Byte) : List Byte :=
  (clipboard.take count).takeWhile (· != 0)

/-- The `switch` of `xcallback`.  An empty text is recognised, but not passed on.  For any other,
the size of the array, and with it the length of the read, is one more than the text has. -/
def onServerEvent (e : LorieEvent) (s : Socket Octet) : Option (ServerMessage H) × Socket Octet :=
  match e with
  | .clipboardSend count =>
    if count = 0 then (some (.clipboardSend []), s)
    else
      let (clipboard, s) := s.read (count + 1).toNat
      (some (.clipboardSend (clipboardText count.toNat (clipboard.map Octet.value))), s)
  | .clipboardRequest => (some .clipboardRequest, s)
  | .sharedServerState =>
    let (stateFd, s) := ancilRecvFd s
    (stateFd.map .sharedServerState, s)
  | .addBuffer =>
    let (buffer, s) := recvHandle hardware s
    (buffer.map fun b => .addBuffer b.1 b.2, s)
  | .removeBuffer id => (some (.removeBuffer id), s)
  | .windowFocusChanged => (some .windowFocusChanged, s)
  | .screenSize .. | .touch .. | .mouse .. | .key .. | .stylus _ | .stylusEnable _ | .unicode _
  | .clipboardEnable _ | .clipboardAnnounce => (none, s)

/-- One round of `xcallback`. -/
def xcallback (s : Socket Octet) : Option (ServerMessage H) × Socket Octet :=
  let (e, s) := s.read LorieEvent.size
  if e.length = LorieEvent.size then
    match LorieEvent.ofBytes (e.map Octet.value) with
    | some event => onServerEvent hardware event s
    | none => (none, s)
  else (none, s)

theorem ancilRecvFd_suffix (s : Socket Octet) : (ancilRecvFd s).2.unread <:+ s.unread :=
  s.read_suffix 1

theorem recvHandle_suffix (s : Socket Octet) :
    (recvHandle hardware s).2.unread <:+ s.unread := by
  have hbuffer := s.read_suffix SentDesc.size
  rw [recvHandle]
  dsimp only
  split_ifs
  · exact (ancilRecvFd_suffix _).trans hbuffer
  · exact (hardware.recv_suffix _).trans hbuffer
  · exact hbuffer

theorem onServerEvent_suffix (e : LorieEvent) (s : Socket Octet) :
    (onServerEvent hardware e s).2.unread <:+ s.unread := by
  cases e with
  | clipboardSend count =>
    simp only [onServerEvent]
    split_ifs
    · exact List.suffix_refl _
    · exact s.read_suffix _
  | sharedServerState =>
    simp only [onServerEvent]
    exact ancilRecvFd_suffix s
  | addBuffer =>
    simp only [onServerEvent]
    exact recvHandle_suffix hardware s
  | _ =>
    simp only [onServerEvent]
    exact List.suffix_refl _

theorem xcallback_consumes (s : Socket Octet) (h : s.unread ≠ []) :
    (xcallback hardware s).2.unread <:+ s.unread ∧
      (xcallback hardware s).2.unread.length < s.unread.length := by
  have hsuffix := s.read_suffix LorieEvent.size
  have hless := Socket.length_unread_lt (k := LorieEvent.size) (by decide) h
  rw [xcallback]
  generalize s.read LorieEvent.size = taken at hsuffix hless ⊢
  obtain ⟨e, s₁⟩ := taken
  dsimp only at hsuffix hless ⊢
  split
  · split
    · have hevent := onServerEvent_suffix hardware ‹_› s₁
      exact ⟨hevent.trans hsuffix, hevent.length_le.trans_lt hless⟩
    · exact ⟨hsuffix, hless⟩
  · exact ⟨hsuffix, hless⟩

variable {a : List Nat} {rest : List Octet}

omit hardware in
theorem tail_tail_eq_drop : a.tail.tail = a.drop 2 := by
  rw [← List.drop_one, ← List.drop_one, List.drop_drop]

theorem xcallback_event {e : LorieEvent} {blocks : List (List Octet)}
    (h : Arrives (octets e.bytes :: blocks) a) :
    xcallback hardware ⟨octets e.bytes ++ rest, a⟩ = onServerEvent hardware e ⟨rest, a.tail⟩ := by
  have hne : octets e.bytes ≠ [] := by
    intro h
    simpa [LorieEvent.size] using congrArg List.length h
  have hread := h.read rest hne
  rw [length_octets, LorieEvent.length_bytes] at hread
  simp [xcallback, hread]

theorem ancilRecvFd_send {fd : Nat} {blocks : List (List Octet)}
    (h : Arrives (ancilSendFd fd :: blocks) a) :
    ancilRecvFd ⟨ancilSendFd fd ++ rest, a⟩ = (some fd, ⟨rest, a.tail⟩) := by
  have hread := h.read rest (by simp [ancilSendFd])
  rw [ancilRecvFd, show 1 = (ancilSendFd fd).length from rfl, hread]
  rfl

theorem recvHandle_send (b : SentBuffer H) (h : Arrives (b.sendHandle hardware) a) :
    recvHandle hardware ⟨(b.sendHandle hardware).flatten ++ rest, a⟩ =
      (some (SentDesc.ofImage b.image, b.backing),
        ⟨rest, a.drop (b.sendHandle hardware).length⟩) := by
  have hne : octets (b.image.bytes SentDesc.size) ≠ [] := by
    intro h
    simpa [SentDesc.size] using congrArg List.length h
  have htype := b.type_eq
  rw [SentBuffer.sendHandle] at h ⊢
  have hread := h.read ((match b.backing with
    | .regular => []
    | .fd file => [ancilSendFd file]
    | .hardware handle => [hardware.send handle]).flatten ++ rest) hne
  rw [length_octets, Image.length_bytes] at hread
  rw [recvHandle, List.flatten_cons, List.append_assoc, hread]
  dsimp only
  rw [map_value_octets, SentDesc.ofImage_ofBytes]
  have hrest := h.tail
  cases hbacking : b.backing with
  | regular =>
    simp only [hbacking] at htype ⊢
    simp [htype]
  | fd file =>
    simp only [hbacking] at htype hrest ⊢
    simp only [htype, if_true, List.flatten_cons, List.flatten_nil, List.append_nil,
      ancilRecvFd_send hrest]
    simp [tail_tail_eq_drop]
  | hardware handle =>
    simp only [hbacking] at htype hrest ⊢
    have hhandle := hardware.recv_send handle rest a.tail ((arrives_cons rest).mp hrest).1
    simp [htype, hhandle, tail_tail_eq_drop]

namespace ServerWrite

/-- Nothing of what is behind the text has arrived when the text is read, and `count + 1` does not
overflow.  Other messages ask for nothing. -/
def Alone (w : ServerWrite H) (rest : List Octet) (a : List Nat) : Prop :=
  match w with
  | .lorieSendClipboardData data =>
    data.bytes ≠ [] → data.bytes.length + 1 < 2 ^ 32 ∧
      (rest = [] ∨ Socket.available ⟨octets data.bytes ++ rest, a.tail⟩ = data.bytes.length)
  | _ => True

theorem bytes_ne_nil (w : ServerWrite H) : w.bytes hardware ≠ [] := by
  intro h
  have := congrArg List.length h
  simp [bytes, blocks, LorieEvent.size] at this

theorem xcallback_write (w : ServerWrite H) (h : Arrives (w.blocks hardware) a) :
    xcallback hardware ⟨w.bytes hardware ++ rest, a⟩ =
      onServerEvent hardware w.event ⟨(w.payload hardware).flatten ++ rest, a.tail⟩ := by
  rw [bytes, blocks, List.flatten_cons, List.append_assoc]
  exact xcallback_event hardware h

section Text

variable {data : CString} (hne : data.bytes ≠ []) {s : Socket Octet}
  (hs : s.unread = octets data.bytes ++ rest) (harrived : data.bytes.length ≤ s.available)

include hne hs harrived

/-- The text is decoded if nothing behind it has arrived. -/
theorem onServerEvent_text (hlength : data.bytes.length + 1 < 2 ^ 32)
    (hrest : rest = [] ∨ s.available = data.bytes.length) :
    onServerEvent hardware (.clipboardSend (BitVec.ofNat 32 data.bytes.length)) s =
      (some (.clipboardSend data.bytes), ⟨rest, s.arrivals.tail⟩) := by
  have hpos := List.length_pos_of_ne_nil hne
  have hcount : BitVec.ofNat 32 data.bytes.length ≠ 0 := by
    intro h
    have := congrArg BitVec.toNat h
    simp only [BitVec.ofNat_eq_ofNat, BitVec.toNat_ofNat] at this
    omega
  have hsize : (BitVec.ofNat 32 data.bytes.length + 1).toNat = data.bytes.length + 1 := by
    simp only [BitVec.ofNat_eq_ofNat, BitVec.toNat_add, BitVec.toNat_ofNat]
    omega
  have hread : s.read (data.bytes.length + 1) = (octets data.bytes, ⟨rest, s.arrivals.tail⟩) := by
    rw [Socket.read, if_neg (by omega), hs]
    rcases hrest with rfl | havailable
    · rw [List.append_nil, List.take_of_length_le (by rw [length_octets]; omega),
        List.drop_eq_nil_of_le (by rw [length_octets]; omega)]
    · rw [havailable, Nat.min_eq_right (by omega), ← length_octets]
      simp
  have htext : data.bytes.takeWhile (· != 0) = data.bytes := by
    apply List.takeWhile_eq_self_iff.mpr
    intro b hb
    rw [bne_iff_ne]
    intro h0
    exact data.nonzero (h0 ▸ hb)
  have hmod : data.bytes.length % 2 ^ 32 = data.bytes.length := Nat.mod_eq_of_lt (by omega)
  simp only [onServerEvent, if_neg hcount, hsize, hread, map_value_octets, clipboardText,
    BitVec.toNat_ofNat, hmod, List.take_length, htext]

/-- Otherwise the read takes more than the text, or less. -/
theorem alone_of_unread
    (h : (onServerEvent hardware (.clipboardSend (BitVec.ofNat 32 data.bytes.length)) s).2.unread =
      rest) :
    data.bytes.length + 1 < 2 ^ 32 ∧ (rest = [] ∨ s.available = data.bytes.length) := by
  have hpos := List.length_pos_of_ne_nil hne
  have hunread := congrArg List.length hs
  have hrest : rest = [] ↔ rest.length = 0 := List.length_eq_zero_iff.symm
  rw [List.length_append, length_octets] at hunread
  simp only [onServerEvent] at h
  split_ifs at h with hcount
  · rw [h] at hunread
    omega
  · by_cases hzero : (BitVec.ofNat 32 data.bytes.length + 1).toNat = 0
    · rw [hzero, Socket.read_zero] at h
      rw [h] at hunread
      omega
    · have hlength := congrArg List.length h
      dsimp only at hlength
      rw [Socket.read_unread, List.length_drop, Socket.length_read hzero, hunread] at hlength
      simp only [BitVec.ofNat_eq_ofNat, BitVec.toNat_add, BitVec.toNat_ofNat] at hlength hzero
      rw [hrest]
      omega

end Text

/-- The activity decodes a message that is alone, and is then at the next one. -/
theorem xcallback_of_alone (w : ServerWrite H) (h : Arrives (w.blocks hardware) a)
    (halone : w.Alone rest a) :
    xcallback hardware ⟨w.bytes hardware ++ rest, a⟩ =
      (some w.message, ⟨rest, a.drop (w.blocks hardware).length⟩) := by
  rw [xcallback_write hardware w h]
  have htail := h.tail
  cases w with
  | lorieSendClipboardData data =>
    by_cases hne : data.bytes = []
    · simp [event, payload, onServerEvent, hne, message, blocks]
    · obtain ⟨hlength, hrest⟩ := halone hne
      simp only [payload, hne, if_false] at htail
      have harrived := ((arrives_cons rest).mp htail).1
      rw [length_octets] at harrived
      simp only [event, payload, hne, if_false, List.flatten_cons, List.flatten_nil,
        List.append_nil, onServerEvent_text hardware hne rfl harrived hlength hrest, message, blocks]
      simp [tail_tail_eq_drop]
  | lorieSendSharedServerState memfd =>
    simp only [event, payload, List.flatten_cons, List.flatten_nil, List.append_nil, onServerEvent,
      ancilRecvFd_send htail, message, blocks]
    simp [tail_tail_eq_drop]
  | lorieRegisterBuffer buffer =>
    have hrecv := @recvHandle_send _ hardware _ rest buffer htail
    simp only [event, payload, onServerEvent, hrecv, message, blocks, Option.map_some]
    simp [Nat.add_comm]
  | _ => simp [event, payload, onServerEvent, message, blocks]

theorem xcallback_iff (w : ServerWrite H) (h : Arrives (w.blocks hardware) a) :
    ((xcallback hardware ⟨w.bytes hardware ++ rest, a⟩).1 = some w.message ∧
      (xcallback hardware ⟨w.bytes hardware ++ rest, a⟩).2.unread = rest) ↔ w.Alone rest a := by
  constructor
  · intro ⟨_, hunread⟩
    cases w with
    | lorieSendClipboardData data =>
      intro hne
      rw [xcallback_write hardware _ h] at hunread
      have htail := h.tail
      simp only [payload, hne, if_false, event, List.flatten_cons, List.flatten_nil,
        List.append_nil] at htail hunread
      have harrived := ((arrives_cons rest).mp htail).1
      rw [length_octets] at harrived
      exact alone_of_unread hardware hne rfl harrived hunread
    | _ => trivial
  · intro halone
    rw [xcallback_of_alone hardware w h halone]
    exact ⟨rfl, rfl⟩

end ServerWrite

/-- No text is read with more behind it. -/
def NothingBehind : List (ServerWrite H) → List Nat → Prop
  | [], _ => True
  | w :: ws, a =>
    w.Alone (ws.flatMap (ServerWrite.bytes hardware)) a ∧
      NothingBehind ws (a.drop (w.blocks hardware).length)

theorem ServerWrite.inStep_iff (ws : List (ServerWrite H)) (a : List Nat)
    (h : Arrives (ws.flatMap (blocks hardware)) a) :
    InStep (xcallback hardware) (bytes hardware) message ws a ↔ NothingBehind hardware ws a := by
  induction ws generalizing a with
  | nil => simp [InStep, NothingBehind]
  | cons w ws ih =>
    rw [List.flatMap_cons, arrives_append] at h
    rw [InStep, NothingBehind, ← and_assoc, xcallback_iff hardware w h.1]
    apply and_congr_right
    intro halone
    rw [xcallback_of_alone hardware w h.1 halone]
    exact ih _ h.2

/-- What the activity takes off the socket. -/
def activityLog (ws : List (ServerWrite H)) (arrivals : List Nat) :
    List (Nat × Option (ServerMessage H)) :=
  receive (xcallback hardware) (ws.flatMap (ServerWrite.bytes hardware)).length
    ⟨ws.flatMap (ServerWrite.bytes hardware), arrivals⟩

/-- For all messages of the server, and all ways in which every block of theirs is there in whole
when it is read: the activity decodes the messages written, each from where it was written, if and
only if no text is read with more behind it. -/
theorem xcallback_exact_iff (ws : List (ServerWrite H)) (arrivals : List Nat)
    (h : Arrives (ws.flatMap (ServerWrite.blocks hardware)) arrivals) :
    ((activityLog hardware ws arrivals).filterMap Prod.snd = ws.map ServerWrite.message ∧
      (activityLog hardware ws arrivals).map Prod.fst = places (ServerWrite.bytes hardware) ws) ↔
      NothingBehind hardware ws arrivals := by
  rw [← ServerWrite.inStep_iff hardware ws arrivals h,
    ← receive_iff (ServerWrite.bytes_ne_nil hardware) (xcallback_consumes hardware) le_rfl,
    eq_exactLog_iff, and_comm]
  rfl

/-- Handles that travel like open files. -/
def plainHandles : HardwareBuffers Nat where
  send := ancilSendFd
  recv := ancilRecvFd
  send_ne_nil := by simp [ancilSendFd]
  recv_suffix := ancilRecvFd_suffix
  recv_send := by
    intro handle rest a h
    apply @ancilRecvFd_send _ _ _ []
    exact (arrives_cons rest).mpr ⟨h, trivial⟩

/-- A text, and behind it a request. -/
def textAndRequest : List (ServerWrite Nat) :=
  [.lorieSendClipboardData ⟨[0x61], by decide⟩, .lorieRequestClipboard]

/-- If the request comes once the text has been read, both are decoded. -/
theorem textAndRequest_decoded :
    (activityLog plainHandles textAndRequest [24, 1, 24]).filterMap Prod.snd =
        textAndRequest.map ServerWrite.message ∧
      (activityLog plainHandles textAndRequest [24, 1, 24]).map Prod.fst =
        places (ServerWrite.bytes plainHandles) textAndRequest := by
  apply (xcallback_exact_iff plainHandles textAndRequest [24, 1, 24] ?_).mpr
  · refine ⟨fun _ => ⟨by decide, .inr rfl⟩, trivial, trivial⟩
  · simp [textAndRequest, Arrives, ServerWrite.blocks, ServerWrite.payload,
      LorieEvent.size]

/-- If it is there already, it is lost. -/
theorem request_behind_text_lost :
    Arrives (textAndRequest.flatMap (ServerWrite.blocks plainHandles)) [] ∧
      (activityLog plainHandles textAndRequest []).filterMap Prod.snd ≠
        textAndRequest.map ServerWrite.message := by
  constructor
  · simp [textAndRequest, Arrives, ServerWrite.blocks]
  · decide +kernel

end Wire

end XoDos
