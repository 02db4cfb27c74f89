import XoDos.ByteBuffer
import XoDos.Ime
import XoDos.Mouse

/-!
# Messages to the Wine helper

Calls and requests queue actions, which one thread runs.  An action writes a message of at most 64
bytes.  An exception ends the thread, and with it all that is queued later.

What an answer about a gamepad says is decided when it is queued, but the controller and the
profile are read when it is sent.  A profile is an object whose name may change in between; a
controller keeps its name.  The listener for processes is not part of the model.
-/

namespace XoDos

/-- Axes are rational numbers.  `dpad` are the directions up, right, down and left. -/
structure GamepadState where
  thumbLX : ℚ
  thumbLY : ℚ
  thumbRX : ℚ
  thumbRY : ℚ
  dpad : Fin 4 → Bool
  buttons : Int

namespace GamepadState

open ByteBuffer

def new : GamepadState := ⟨0, 0, 0, 0, fun _ => false, 0⟩

/-- The D-pad has four directions. -/
local instance directions : NeZero 4 := ⟨by decide⟩

def getPovHat (g : GamepadState) : Int :=
  if g.dpad 0 && g.dpad 1 then 1
  else if g.dpad 1 && g.dpad 2 then 3
  else if g.dpad 2 && g.dpad 3 then 5
  else if g.dpad 3 && g.dpad 0 then 7
  else if g.dpad 0 then 0
  else if g.dpad 1 then 2
  else if g.dpad 2 then 4
  else if g.dpad 3 then 6
  else -1

def writeAxis (q : ℚ) : Writer := putShort (toShort (truncate (q * 32767)))

def writeTo (g : GamepadState) : Writer :=
  putShort g.buttons >=> putByte g.getPovHat >=> writeAxis g.thumbLX >=> writeAxis g.thumbLY >=>
    writeAxis g.thumbRX >=> writeAxis g.thumbRY

end GamepadState

structure ExternalController where
  deviceId : Int
  name : JavaString
  state : GamepadState

/-- What a `ControlsProfile` tells about its gamepad. -/
structure GamepadProfile where
  id : Int
  name : JavaString
  virtualGamepad : Bool
  gamepadState : GamepadState

/-- The profile objects, and which of them the view shows. -/
structure ShownProfile where
  profile : Option Nat
  profiles : Nat → GamepadProfile

namespace ShownProfile

def useVirtualGamepad (v : ShownProfile) : Bool :=
  match v.profile with
  | none => false
  | some p => (v.profiles p).virtualGamepad

end ShownProfile

/-- What a closure about a gamepad has captured. -/
structure Captured where
  port : Int
  enabled : Bool
  useVirtualGamepad : Bool
  profile : Option Nat
deriving DecidableEq

inductive WinAction where
  | exec (filename parameters : JavaString)
  | killProcess (processName : JavaString)
  | listProcesses
  | setProcessAffinityOf (processName : JavaString) (affinityMask : Int)
  | setProcessAffinity (pid affinityMask : Int)
  | mouseEvent (flags dx dy wheelDelta : Int)
  | keyboardEvent (vkey flags : Int)
  | bringToFront (processName : JavaString) (handle : Int)
  | getGamepad (c : Captured)
  | getGamepadState (c : Captured) (gamepadId : Int)
  | sendGamepadState (c : Captured)
deriving DecidableEq

namespace RequestCodes

def init : Int := 1
def exec : Int := 2
def killProcess : Int := 3
def listProcesses : Int := 4
def setProcessAffinity : Int := 6
def mouseEvent : Int := 7
def getGamepad : Int := 8
def getGamepadState : Int := 9
def releaseGamepad : Int := 10
def keyboardEvent : Int := 11
def bringToFront : Int := 12

end RequestCodes

/-- Reading a field of an object that may be null. -/
def deref {α β : Type} (o : Option α) (f : α → β) : Except BufferException β :=
  match o with
  | none => .error .nullPointer
  | some a => .ok (f a)

/-- `sent` are the packets with their ports, `ran` the actions that returned.  `exception` is what
ended the sending thread. -/
structure WinHandler where
  sendData : ByteBuffer
  actions : List WinAction
  initReceived : Bool
  currentController : Option ExternalController
  dinputMapperType : Int
  gamepadClients : List Int
  shown : ShownProfile
  sent : List (Int × List Nat)
  ran : List WinAction
  exception : Option BufferException

namespace WinHandler

open ByteBuffer

def new (shown : ShownProfile) : WinHandler :=
  ⟨.allocate 64, [], false, none, 1, [], shown, [], [], none⟩

variable (s : WinHandler)

/-! ## Actions -/

/-- The number by which a gamepad is known to the clients. -/
def gamepadId (c : Captured) : Except BufferException Int :=
  if c.useVirtualGamepad then deref c.profile fun p => (s.shown.profiles p).id
  else deref s.currentController (·.deviceId)

def gamepadName (c : Captured) : Except BufferException JavaString :=
  if c.useVirtualGamepad then deref c.profile fun p => (s.shown.profiles p).name
  else deref s.currentController (·.name)

def gamepadState (c : Captured) : Except BufferException GamepadState :=
  if c.useVirtualGamepad then deref c.profile fun p => (s.shown.profiles p).gamepadState
  else deref s.currentController (·.state)

def writeState (c : Captured) : Writer := fun b => do
  let state ← s.gamepadState c
  state.writeTo b

/-- The message of an action. -/
def write : WinAction → Writer
  | .exec filename parameters =>
    let filenameBytes := getBytes filename
    let parametersBytes := getBytes parameters
    putByte RequestCodes.exec >=> putInt (filenameBytes.length + parametersBytes.length + 8) >=>
      putInt filenameBytes.length >=> putInt parametersBytes.length >=> put filenameBytes >=>
      put parametersBytes
  | .killProcess processName =>
    let bytes := getBytes processName
    putByte RequestCodes.killProcess >=> putInt bytes.length >=> put bytes
  | .listProcesses => putByte RequestCodes.listProcesses >=> putInt 0
  | .setProcessAffinityOf processName affinityMask =>
    let bytes := getBytes processName
    putByte RequestCodes.setProcessAffinity >=> putInt (9 + bytes.length) >=> putInt 0 >=>
      putInt affinityMask >=> putByte bytes.length >=> put bytes
  | .setProcessAffinity pid affinityMask =>
    putByte RequestCodes.setProcessAffinity >=> putInt 9 >=> putInt pid >=> putInt affinityMask >=>
      putByte 0
  | .mouseEvent flags dx dy wheelDelta =>
    putByte RequestCodes.mouseEvent >=> putInt 10 >=> putInt flags >=> putShort dx >=>
      putShort dy >=> putShort wheelDelta >=> putByte (if flags % 2 = 0 then 0 else 1)
  | .keyboardEvent vkey flags =>
    putByte RequestCodes.keyboardEvent >=> putByte vkey >=> putInt flags
  | .bringToFront processName handle =>
    let bytes := getBytes processName
    putByte RequestCodes.bringToFront >=> putInt bytes.length >=> put bytes >=> putLong handle
  | .getGamepad c =>
    putByte RequestCodes.getGamepad >=>
      if c.enabled then
        (fun b => s.gamepadId c >>= fun id => putInt id b) >=> putByte s.dinputMapperType >=>
          fun b => s.gamepadName c >>= fun name =>
            (putInt (getBytes name).length >=> put (getBytes name)) b
      else putInt 0
  | .getGamepadState c gamepadId =>
    putByte RequestCodes.getGamepadState >=>
      if c.enabled then putByte 1 >=> putInt gamepadId >=> s.writeState c else putByte 0
  | .sendGamepadState c =>
    putByte RequestCodes.getGamepadState >=>
      if c.enabled then
        putByte 1 >=> (fun b => s.gamepadId c >>= fun id => putInt id b) >=> s.writeState c
      else putByte 0

/-- The port that the packet is sent to. -/
def port : WinAction → Int
  | .getGamepad c => c.port
  | .getGamepadState c _ => c.port
  | .sendGamepadState c => c.port
  | _ => 7946

/-- One round of the inner loop of the sending thread.  The packet is the whole array, and it may be
lost. -/
def runAction (delivered : Bool) : WinHandler :=
  match s.exception, s.initReceived, s.actions with
  | none, true, action :: rest =>
    match s.write action s.sendData.rewind with
    | .error e => { s with actions := rest, exception := some e }
    | .ok b =>
      let sent := if delivered then s.sent ++ [(port action, b.array)] else s.sent
      { s with actions := rest, sendData := b, ran := s.ran ++ [action], sent }
  | _, _, _ => s

/-! ## Calls -/

def addAction (action : WinAction) : WinHandler := { s with actions := s.actions ++ [action] }

/-- `trim()` takes off what is not greater than a blank. -/
def trim (text : JavaString) : JavaString :=
  ((text.dropWhile (· ≤ 0x20)).reverse.dropWhile (· ≤ 0x20)).reverse

/-- `split(" ", 2)` -/
def splitCommand (command : JavaString) : JavaString × JavaString :=
  (command.takeWhile (· ≠ 0x20), (command.dropWhile (· ≠ 0x20)).drop 1)

def exec (command : JavaString) : WinHandler :=
  let command := trim command
  if command = [] then s
  else s.addAction (.exec (splitCommand command).1 (splitCommand command).2)

def mouseEvent (flags dx dy wheelDelta : Int) : WinHandler :=
  if s.initReceived then s.addAction (.mouseEvent flags dx dy wheelDelta) else s

def keyboardEvent (vkey flags : Int) : WinHandler :=
  if s.initReceived then s.addAction (.keyboardEvent vkey flags) else s

/-- A gamepad can be read. -/
def enabled : Bool := s.currentController.isSome || s.shown.useVirtualGamepad

/-- What a closure captures now. -/
def captured (port : Int) : Captured :=
  ⟨port, s.enabled, s.shown.useVirtualGamepad, s.shown.profile⟩

def sendGamepadState : WinHandler :=
  if s.initReceived then
    { s with actions := s.actions ++ s.gamepadClients.map fun p => .sendGamepadState (s.captured p) }
  else s

/-! ## Requests -/

/-- A byte of the received packet, which `get` reads as signed. -/
def getByte (receiveData : List Nat) (i : Nat) : Int :=
  (receiveData.getD i 0 + 128) % 256 - 128

def getInt (receiveData : List Nat) (i : Nat) : Int :=
  toInt32 (receiveData.getD i 0 + 256 * receiveData.getD (i + 1) 0 +
    65536 * receiveData.getD (i + 2) 0 + 16777216 * receiveData.getD (i + 3) 0)

/-- The devices: whether the current controller is connected, and what `getController(0)` finds. -/
structure Devices where
  isConnected : Bool
  first : Option ExternalController

/-- The controller after a request for a gamepad. -/
def chosenController (d : Devices) : Option ExternalController :=
  if !s.shown.useVirtualGamepad && (s.currentController.isNone || !d.isConnected) then d.first
  else s.currentController

def getGamepad (receiveData : List Nat) (port : Int) (d : Devices) : WinHandler :=
  let notify := getByte receiveData 2 == 1
  let s := { s with currentController := s.chosenController d }
  let gamepadClients :=
    if s.enabled && notify then
      if s.gamepadClients.contains port then s.gamepadClients else s.gamepadClients ++ [port]
    else s.gamepadClients.erase port
  { s with gamepadClients }.addAction (.getGamepad (s.captured port))

/-- Whether the current controller is another one than the client asks for. -/
def otherGamepad (gamepadId : Int) : Bool :=
  s.currentController.any (·.deviceId ≠ gamepadId)

def getGamepadState (receiveData : List Nat) (port : Int) : WinHandler :=
  let gamepadId := getInt receiveData 1
  let captured := s.captured port
  let currentController := if s.otherGamepad gamepadId then none else s.currentController
  { s with currentController }.addAction (.getGamepadState captured gamepadId)

def releaseGamepad : WinHandler := { s with currentController := none, gamepadClients := [] }

/-- The other requests do not touch what is sent. -/
def handleRequest (receiveData : List Nat) (port : Int) (d : Devices) : WinHandler :=
  let requestCode := getByte receiveData 0
  if requestCode = RequestCodes.init then { s with initReceived := true }
  else if requestCode = RequestCodes.getGamepad then s.getGamepad receiveData port d
  else if requestCode = RequestCodes.getGamepadState then s.getGamepadState receiveData port
  else if requestCode = RequestCodes.releaseGamepad then s.releaseGamepad
  else s

/-! ## Runs -/

/-- Besides calls, requests and rounds of the sending thread: the controller is moved, and the view
shows another profile or a profile changes. -/
inductive Input where
  | exec (command : JavaString)
  | killProcess (processName : JavaString)
  | listProcesses
  | setProcessAffinityOf (processName : JavaString) (affinityMask : Int)
  | setProcessAffinity (pid affinityMask : Int)
  | mouseEvent (flags dx dy wheelDelta : Int)
  | keyboardEvent (vkey flags : Int)
  | bringToFront (processName : JavaString) (handle : Int)
  | sendGamepadState
  | request (receiveData : List Nat) (port : Int) (d : Devices)
  | controllerMoves (state : GamepadState)
  | profiles (shown : ShownProfile)
  | run (delivered : Bool)

def step : Input → WinHandler
  | .exec command => s.exec command
  | .killProcess processName => s.addAction (.killProcess processName)
  | .listProcesses => s.addAction .listProcesses
  | .setProcessAffinityOf processName affinityMask =>
    s.addAction (.setProcessAffinityOf processName affinityMask)
  | .setProcessAffinity pid affinityMask => s.addAction (.setProcessAffinity pid affinityMask)
  | .mouseEvent flags dx dy wheelDelta => s.mouseEvent flags dx dy wheelDelta
  | .keyboardEvent vkey flags => s.keyboardEvent vkey flags
  | .bringToFront processName handle => s.addAction (.bringToFront processName handle)
  | .sendGamepadState => s.sendGamepadState
  | .request receiveData port d => s.handleRequest receiveData port d
  | .controllerMoves state =>
    { s with currentController := s.currentController.map ({ · with state }) }
  | .profiles shown => { s with shown }
  | .run delivered => s.runAction delivered

end WinHandler

end XoDos
