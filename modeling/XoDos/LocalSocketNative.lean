import XoDos.ResultSender

/-!
# `readNative` and `sendNative`

The loops that fill a buffer from a local socket and send a buffer to it.  The kernel and the clock answer
once in every round.

That the elements of an array cannot be got, and exceptions of the JNI, are left out.
-/

namespace XoDos.LocalSocketNative

structure JniResult where
  retval : Int
  errno : Int
  errmsg : JavaString
  intData : Int
deriving DecidableEq

/-- The arguments of a call, and the texts of the system. -/
structure Call where
  logTitle : Option JavaString
  fd : Int
  deadline : Int
  strerror : Int → JavaString

/-- What `read` gives: the bytes that it stores, none at the end of the file. -/
inductive ReadAnswer where
  | failed (errno : Int)
  | bytes (got : List Byte)

/-- What `send` gives: the number of bytes that it has sent. -/
inductive SendAnswer where
  | failed (errno : Int)
  | sent (count : Nat)

/-- A round of a loop: the time in milliseconds, unless the clock fails, and the answer of the kernel. -/
structure Round (α : Type) where
  time : Option Int
  answer : α

/-- A function returns its result and the bytes that it has stored in the array or sent. -/
inductive Outcome where
  /-- The kernel has not answered yet. -/
  | waiting
  /-- The kernel accesses what is behind the array. -/
  | outOfBounds
  | returned (result : JniResult) (data : List Byte)
deriving DecidableEq

variable (call : Call)

/-! ## Results -/

def getTitleAndMessage (message : JavaString) : JavaString :=
  match call.logTitle with
  | some title => title ++ ascii ": " ++ message
  | none => message

/-- `getJniResult(env, title, retval, errmsg)` -/
def failure (errmsg : JavaString) : JniResult := ⟨-1, 0, getTitleAndMessage call errmsg, 0⟩

/-- `getJniResult(env, title, retval, errno, errmsgPrefix)` -/
def failureOf (errno : Int) (errmsgPrefix : JavaString) : JniResult :=
  ⟨-1, errno, getTitleAndMessage call (errmsgPrefix ++ ascii ": " ++ call.strerror errno), 0⟩

/-- `getJniResult(env, title, intData)` -/
def success (intData : Int) : JniResult := ⟨0, 0, [], intData⟩

def invalidFd (function : String) : JniResult :=
  failure call (ascii function ++ ascii "(): Invalid fd \"" ++ decimal call.fd ++ ascii "\" passed")

def timeout (function : String) : JniResult :=
  failure call (ascii function ++ ascii "(): Deadline \"" ++ decimal call.deadline ++
    ascii "\" timeout")

/-! ## The loops -/

/-- The time is greater than that of the deadline. -/
def Round.expired {α : Type} (r : Round α) : Bool :=
  0 < call.deadline ∧ r.time.any (call.deadline < ·)

/-- `data` with other bytes from an index on. -/
def overwrite (data : List Byte) (i : Nat) (got : List Byte) : List Byte :=
  data.take i ++ got ++ data.drop (i + got.length)

/-- Every round asks for as many bytes as the array has. -/
def readLoop (bytes : Nat) : List (Round ReadAnswer) → List Byte → Nat → Outcome
  | rounds, data, bytesRead =>
    if bytesRead < bytes then
      match rounds with
      | [] => .waiting
      | r :: rounds =>
        if r.expired call then .returned (timeout call "readNative") data
        else
          match r.answer with
          | .failed errno => .returned (failureOf call errno
              (ascii "readNative(): Failed to read on fd " ++ decimal call.fd)) data
          | .bytes got =>
            if got = [] then .returned (success bytesRead) data
            else if bytesRead + got.length ≤ data.length then
              readLoop bytes rounds (overwrite data bytesRead got) (bytesRead + got.length)
            else .outOfBounds
    else .returned (success bytesRead) data

def readNative (data : List Byte) (rounds : List (Round ReadAnswer)) : Outcome :=
  if call.fd < 0 then .returned (invalidFd call "readNative") data
  else readLoop call data.length rounds data 0

/-- `wire` is what has been sent. -/
def sendLoop (data : List Byte) : List (Round SendAnswer) → Int → Nat → List Byte → Outcome
  | rounds, bytes, current, wire =>
    if 0 < bytes then
      match rounds with
      | [] => .waiting
      | r :: rounds =>
        if r.expired call then .returned (timeout call "sendNative") wire
        else
          match r.answer with
          | .failed errno => .returned (failureOf call errno
              (ascii "sendNative(): Failed to send on fd " ++ decimal call.fd)) wire
          | .sent count =>
            if current + count ≤ data.length then
              sendLoop data rounds (bytes - count) (current + count)
                (wire ++ (data.drop current).take count)
            else .outOfBounds
    else .returned (success 0) wire

def sendNative (data : List Byte) (rounds : List (Round SendAnswer)) : Outcome :=
  if call.fd < 0 then .returned (invalidFd call "sendNative") []
  else sendLoop call data rounds data.length 0 []

end XoDos.LocalSocketNative
