import XoDos.Ime
import XoDos.ResultSender

/-!
# `AmSocketServer`

A client sends an am command, and is sent the exit code and the output of the command, in the format
`exit_code\0stdout\0stderr\0`.

The activity manager library, the tokenizer and the decoder of the input stream are parameters.  The
socket accepts all that is written to it.
-/

namespace XoDos

/-! ## Texts -/

/-- Whether a line ends with the code unit. -/
def endsLine (c : Nat) (rest : JavaString) : Bool :=
  c = 0x0A ∨ c = 0x85 ∨ c = 0x2028 ∨ c = 0x2029 ∨ (c = 0x0D ∧ rest.head? ≠ some 0x0A)

/-- `replaceAll("(?m)^", indent)` -/
def indentLines (indent : JavaString) : Bool → JavaString → JavaString
  | _, [] => []
  | lineStart, c :: rest =>
    (if lineStart then indent else []) ++ c :: indentLines indent (endsLine c rest) rest

def getSpaceIndentedString (string : JavaString) : JavaString := indentLines (ascii "    ") true string

/-- `%2$s` of a text that may be null -/
def formatted (text : Option JavaString) : JavaString := text.getD (ascii "null")

/-- `Arrays.toString` -/
def arraysToString (array : List JavaString) : JavaString :=
  ascii "[" ++ (ascii ", ").intercalate array ++ ascii "]"

/-! ## The socket -/

/-- A Java exception: its message and its stack trace. -/
structure Thrown where
  message : Option JavaString
  stackTrace : JavaString

/-- How the characters of the input stream end. -/
inductive StreamEnd where
  | endOfStream
  | ioException (message : Option JavaString)
  | exception (e : Thrown)

structure ClientSocket where
  /-- The bytes that the client sends. -/
  received : List Byte
  /-- The bytes sent to the client. -/
  sent : List Nat

/-- How the command of a client is run: the library is called with the arguments. -/
inductive AmRun where
  | returns (stdout stderr : JavaString)
  | throws (e : Thrown)

structure AmServer where
  /-- `mLocalSocketRunConfig.getTitle()` -/
  title : JavaString
  /-- The characters that an `InputStreamReader` makes of the bytes. -/
  inputStreamReader : List Byte → JavaString × StreamEnd
  /-- `ArgumentTokenizer.tokenize` -/
  tokenize : JavaString → Except Thrown (List JavaString)
  /-- `new Am(…).run` -/
  am : List JavaString → AmRun
  shouldCheckDisplayOverAppsPermission : Bool
  /-- What comes of it if the permission is missing. -/
  validateDisplayOverOtherAppsPermission : Except Thrown Unit

namespace ClientSocket

def getReadError (title text : JavaString) (stackTraces : List JavaString) : ResultError where
  type := ascii "LocalSocket Error"
  code := 203
  message := some (ascii "Read data from \"" ++ title ++
    ascii "\" client socket input stream failed.\n" ++ text)
  stackTraces := stackTraces

/-- The characters up to a null or to the end of the stream, or an error. -/
def readDataOnInputStream (server : AmServer) (s : ClientSocket) : Except ResultError JavaString :=
  let (chars, streamEnd) := server.inputStreamReader s.received
  let data := chars.takeWhile (0 < ·)
  if data.length < chars.length then .ok data
  else
    match streamEnd with
    | .endOfStream => .ok data
    | .ioException message =>
      .error (getReadError server.title (formatted (message.map getSpaceIndentedString)) [])
    | .exception e => .error (getReadError server.title (formatted e.message) [e.stackTrace])

/-- To close the output stream does nothing to the socket. -/
def sendDataToOutputStream (s : ClientSocket) (data : JavaString) : ClientSocket :=
  { s with sent := s.sent ++ getBytes data }

end ClientSocket

namespace AmServer

variable (server : AmServer)

def sanitizeExitCode (exitCode : Int) : Int := if exitCode < 0 ∨ 255 < exitCode then 1 else exitCode

def sendResultToClient (s : ClientSocket) (exitCode : Int) (stdout stderr : Option JavaString) :
    ClientSocket :=
  s.sendDataToOutputStream (decimal (sanitizeExitCode exitCode) ++ [0] ++ stdout.getD [] ++ [0] ++
    stderr.getD [])

def parseAmCommand (amCommandString : JavaString) : Except ResultError (List JavaString) :=
  if amCommandString = [] then .ok []
  else
    match server.tokenize amCommandString with
    | .ok amCommandList => .ok amCommandList
    | .error e => .error {
        type := ascii "AmSocketServer Error"
        code := 100
        message := some (ascii "Parse am command \x60" ++ amCommandString ++
          ascii "\x60 failed.\nException: " ++ formatted e.message)
        stackTraces := [e.stackTrace] }

/-- The body of the `try` of `runAmCommand`. -/
def tryRun (amCommandArray : List JavaString) : AmRun :=
  let checks := server.shouldCheckDisplayOverAppsPermission ∧
    (amCommandArray.head? = some (ascii "start") ∨ amCommandArray.head? = some (ascii "startservice"))
  if checks then
    match server.validateDisplayOverOtherAppsPermission with
    | .ok () => server.am amCommandArray
    | .error e => .throws e
  else server.am amCommandArray

/-- The texts of `stdout` and `stderr` are set if nothing is thrown. -/
def runAmCommand (amCommandArray : List JavaString) :
    Option ResultError × JavaString × JavaString :=
  match server.tryRun amCommandArray with
  | .returns stdout stderr => (none, stdout, stderr)
  | .throws e => (some {
        type := ascii "AmSocketServer Error"
        code := 101
        message := some (ascii "Run am command \x60" ++ arraysToString amCommandArray ++
          ascii "\x60 failed.\nException: " ++ formatted e.message)
        stackTraces := [e.stackTrace] }, [], [])

def processAmClient (s : ClientSocket) : ClientSocket :=
  match s.readDataOnInputStream server with
  | .error error => sendResultToClient s 1 none (some error.getErrorLogString)
  | .ok amCommandString =>
    match server.parseAmCommand amCommandString with
    | .error error => sendResultToClient s 1 none (some error.getErrorLogString)
    | .ok amCommandList =>
      let (error, stdout, stderr) := server.runAmCommand amCommandList
      let s :=
        match error with
        | some error =>
          sendResultToClient s 1 (some stdout) (some (if stderr ≠ [] then
            stderr ++ ascii "\n\n" ++ error.getErrorLogString else error.getErrorLogString))
        | none => s
      -- This is reached after an error as well.
      sendResultToClient s 0 (some stdout) (some stderr)

/-! ## Replies -/

/-- What the client is to be told. -/
structure Reply where
  exitCode : Int
  stdout : JavaString
  stderr : JavaString

/-- The format that is documented. -/
def Reply.bytes (r : Reply) : List Nat :=
  getBytes (decimal r.exitCode ++ [0] ++ r.stdout ++ [0] ++ r.stderr ++ [0])

/-- The output of a command that is read, parsed and run without an error. -/
def output (s : ClientSocket) : Option (JavaString × JavaString) :=
  match s.readDataOnInputStream server with
  | .error _ => none
  | .ok amCommandString =>
    match server.parseAmCommand amCommandString with
    | .error _ => none
    | .ok amCommandList =>
      match server.tryRun amCommandList with
      | .returns stdout stderr => some (stdout, stderr)
      | .throws _ => none

/-- The client is sent one reply, which can be read in one way only.  Its exit code tells whether
there was an error, and without one it has the output of the command. -/
def Replies (s : ClientSocket) : Prop :=
  ∃ r : Reply, (server.processAmClient s).sent = s.sent ++ r.bytes ∧
    (∀ r' : Reply, r'.bytes = r.bytes → r' = r) ∧
    (r.exitCode = 0 ↔ (server.output s).isSome) ∧
    ∀ stdout stderr, server.output s = some (stdout, stderr) → r.stdout = stdout ∧ r.stderr = stderr

end AmServer

/-! ## Bytes of texts -/

section Bytes

theorem encode_zero : Utf8.encode 0 = [0] := rfl

theorem zero_mem_getBytes {t : JavaString} (h : 0 ∈ getBytes t) : 0 ∈ t :=
  mem_of_mem_getBytes (by decide) (by decide) h

/-- What stands before the first null. -/
theorem append_zero_inj {a b x y : List Nat} (ha : 0 ∉ a) (hb : 0 ∉ b)
    (h : a ++ 0 :: x = b ++ 0 :: y) : a = b ∧ x = y := by
  induction a generalizing b with
  | nil =>
    cases b with
    | nil => exact ⟨rfl, (List.cons.inj h).2⟩
    | cons z b =>
      rw [List.nil_append, List.cons_append, List.cons.injEq] at h
      exact absurd (h.1 ▸ List.mem_cons_self) hb
  | cons w a ih =>
    cases b with
    | nil =>
      rw [List.nil_append, List.cons_append, List.cons.injEq] at h
      exact absurd (h.1 ▸ List.mem_cons_self) ha
    | cons z b =>
      rw [List.cons_append, List.cons_append, List.cons.injEq] at h
      obtain ⟨h₁, h₂⟩ := ih (fun hm => ha (List.mem_cons_of_mem _ hm))
        (fun hm => hb (List.mem_cons_of_mem _ hm)) h.2
      exact ⟨by rw [h.1, h₁], h₂⟩

theorem digit_ne_zero {c : Char} (h : c.isDigit = true) : c.toNat ≠ 0 := by
  intro hzero
  have hc : c = Char.ofNat 0 := by
    rw [← hzero, Char.ofNat_toNat]
  rw [hc] at h
  exact absurd h (by decide)

theorem repr_ne_zero (m : Nat) : ∀ c ∈ m.repr.toList, c.toNat ≠ 0 := by
  intro c hc
  rw [Nat.repr, String.toList_ofList] at hc
  exact digit_ne_zero (Nat.isDigit_of_mem_toDigits (by decide) (by decide) hc)

theorem zero_notMem_decimal (n : Int) : 0 ∉ decimal n := by
  intro h
  obtain ⟨c, hc, hzero⟩ := List.mem_map.mp h
  cases n with
  | ofNat m => exact repr_ne_zero m c hc hzero
  | negSucc m =>
    have hsplit : c ∈ ("-" ++ (m + 1).repr).toList := hc
    rw [String.toList_append, List.mem_append] at hsplit
    rcases hsplit with hminus | hdigits
    · rw [List.mem_singleton.mp hminus] at hzero
      exact absurd hzero (by decide)
    · exact repr_ne_zero (m + 1) c hdigits hzero

end Bytes

namespace AmServer

variable (server : AmServer)

theorem getBytes_append_zero (t rest : JavaString) :
    getBytes (t ++ 0 :: rest) = getBytes t ++ 0 :: getBytes rest := by
  rw [getBytes_append t rfl, getBytes_cons rfl, encode_zero]
  rfl

theorem Reply.bytes_eq (r : Reply) :
    r.bytes = getBytes (decimal r.exitCode) ++ 0 :: (getBytes r.stdout ++ 0 ::
      (getBytes r.stderr ++ [0])) := by
  have htext : decimal r.exitCode ++ [0] ++ r.stdout ++ [0] ++ r.stderr ++ [0] =
      decimal r.exitCode ++ 0 :: (r.stdout ++ 0 :: (r.stderr ++ 0 :: [])) := by simp
  rw [Reply.bytes, htext, getBytes_append_zero, getBytes_append_zero, getBytes_append_zero]
  rfl

/-- What is sent has no null at its end. -/
theorem sendResultToClient_sent (s : ClientSocket) (exitCode : Int) (stdout stderr : Option JavaString) :
    (sendResultToClient s exitCode stdout stderr).sent = s.sent ++
      (getBytes (decimal (sanitizeExitCode exitCode)) ++ 0 :: (getBytes (stdout.getD []) ++ 0 ::
        getBytes (stderr.getD []))) := by
  have htext : decimal (sanitizeExitCode exitCode) ++ [0] ++ stdout.getD [] ++ [0] ++ stderr.getD [] =
      decimal (sanitizeExitCode exitCode) ++ 0 :: (stdout.getD [] ++ 0 :: stderr.getD []) := by simp
  rw [sendResultToClient, ClientSocket.sendDataToOutputStream, htext, getBytes_append_zero,
    getBytes_append_zero]

def EndsWithNewline (t : JavaString) : Prop := ∃ text, t = text ++ [0x0A]

theorem EndsWithNewline.append {t : JavaString} (h : EndsWithNewline t) (front : JavaString) :
    EndsWithNewline (front ++ t) := by
  obtain ⟨text, rfl⟩ := h
  exact ⟨front ++ text, (List.append_assoc _ _ _).symm⟩

theorem fence_ends : EndsWithNewline (ascii "\n```\n") := ⟨ascii "\n```", by decide⟩

/-- The text of an error ends with a line break. -/
theorem getErrorLogString_ends (e : ResultError) {message : JavaString}
    (hmessage : e.message = some message)
    (htraces : e.stackTraces = [] ∨ ∃ trace, e.stackTraces = [trace]) :
    EndsWithNewline e.getErrorLogString := by
  unfold ResultError.getErrorLogString
  rcases htraces with hnil | ⟨trace, hone⟩
  · rw [if_pos hnil, List.append_nil]
    apply EndsWithNewline.append
    rw [ResultError.getTypeAndMessageLogString, hmessage]
    exact fence_ends.append _
  · rw [if_neg (by simp [hone])]
    apply EndsWithNewline.append
    apply EndsWithNewline.append
    rw [ResultError.geStackTracesLogString, hone]
    apply EndsWithNewline.append
    simp only [List.zipIdx_cons, List.zipIdx_nil, List.flatMap_cons, List.flatMap_nil, List.append_nil]
    exact fence_ends.append _

/-- Such a text is no reply. -/
theorem bytes_ne_of_ends {r : Reply} {t : JavaString} (ht : EndsWithNewline t) (front : List Nat) :
    front ++ getBytes t ≠ r.bytes := by
  obtain ⟨text, rfl⟩ := ht
  rw [Reply.bytes, getBytes_append text rfl, getBytes_append _ rfl]
  intro h
  rw [← List.append_assoc] at h
  have hlast := (List.append_inj' h rfl).2
  exact absurd hlast (by decide)

theorem readDataOnInputStream_error {s : ClientSocket} {error : ResultError}
    (h : s.readDataOnInputStream server = .error error) : EndsWithNewline error.getErrorLogString := by
  unfold ClientSocket.readDataOnInputStream at h
  simp only at h
  split_ifs at h
  cases hend : (server.inputStreamReader s.received).2 with
  | endOfStream =>
    rw [hend] at h
    cases h
  | ioException message =>
    rw [hend] at h
    cases h
    exact getErrorLogString_ends _ rfl (.inl rfl)
  | exception e =>
    rw [hend] at h
    cases h
    exact getErrorLogString_ends _ rfl (.inr ⟨_, rfl⟩)

theorem parseAmCommand_error {command : JavaString} {error : ResultError}
    (h : server.parseAmCommand command = .error error) : EndsWithNewline error.getErrorLogString := by
  unfold parseAmCommand at h
  split_ifs at h
  cases htokens : server.tokenize command with
  | ok list =>
    rw [htokens] at h
    cases h
  | error e =>
    rw [htokens] at h
    cases h
    exact getErrorLogString_ends _ rfl (.inr ⟨_, rfl⟩)

theorem getBytes_code_zero : getBytes (decimal 0) = [0x30] := by decide

/-- Two results, one after the other, can be read as a reply in two ways. -/
theorem two_results (err : JavaString) :
    ∃ r r' : Reply, r ≠ r' ∧ r.bytes = r'.bytes ∧
      r.bytes = getBytes (decimal 1) ++ 0 :: (getBytes [] ++ 0 :: getBytes err) ++
        (getBytes (decimal 0) ++ 0 :: (getBytes [] ++ 0 :: getBytes [])) := by
  have hzero : decimal 0 = [0x30] := by decide
  have h₁ : getBytes (err ++ [0x30, 0]) = getBytes err ++ [0x30, 0] := by
    rw [getBytes_append err rfl]
    rfl
  have h₂ : getBytes (0 :: (err ++ [0x30])) = 0 :: (getBytes err ++ [0x30]) := by
    rw [getBytes_cons rfl, getBytes_append err rfl]
    rfl
  have hfirst : (⟨1, [], err ++ [0x30, 0]⟩ : Reply).bytes =
      getBytes (decimal 1) ++ 0 :: (getBytes [] ++ 0 :: getBytes err) ++
        (getBytes (decimal 0) ++ 0 :: (getBytes [] ++ 0 :: getBytes [])) := by
    rw [Reply.bytes_eq]
    simp only [h₁, getBytes_code_zero, getBytes]
    simp
  have hsecond : (⟨1, 0 :: (err ++ [0x30]), []⟩ : Reply).bytes =
      getBytes (decimal 1) ++ 0 :: (getBytes [] ++ 0 :: getBytes err) ++
        (getBytes (decimal 0) ++ 0 :: (getBytes [] ++ 0 :: getBytes [])) := by
    rw [Reply.bytes_eq]
    simp only [h₂, getBytes_code_zero, getBytes]
    simp
  refine ⟨_, _, fun h => ?_, hfirst.trans hsecond.symm, hfirst⟩
  injection h with _ hout _
  cases hout

/-- The output of a command is sent without the null at the end. -/
theorem not_replies_output {s : ClientSocket} {stdout stderr : JavaString}
    (h : server.output s = some (stdout, stderr))
    (hsent : (server.processAmClient s).sent = (sendResultToClient s 0 (some stdout) (some stderr)).sent) :
    ¬server.Replies s := by
  intro hreplies
  obtain ⟨r, hreply, -, -, houtput⟩ := hreplies
  obtain ⟨hout, herr⟩ := houtput stdout stderr h
  rw [hsent, sendResultToClient_sent, List.append_cancel_left_eq, Reply.bytes_eq, hout, herr] at hreply
  have hrest := (append_zero_inj (fun h => zero_notMem_decimal _ (zero_mem_getBytes h))
    (fun h => zero_notMem_decimal _ (zero_mem_getBytes h)) hreply).2
  have hlength := congrArg List.length hrest
  simp at hlength

/-- So is the text of an error. -/
theorem not_replies_error {s : ClientSocket} {text : JavaString} (htext : EndsWithNewline text)
    (hsent : (server.processAmClient s).sent = (sendResultToClient s 1 none (some text)).sent) :
    ¬server.Replies s := by
  intro hreplies
  obtain ⟨r, hreply, -⟩ := hreplies
  rw [hsent, sendResultToClient_sent, List.append_cancel_left_eq] at hreply
  apply bytes_ne_of_ends (r := r) htext (getBytes (decimal 1) ++ 0 :: (getBytes [] ++ [0]))
  rw [← hreply]
  simp [sanitizeExitCode]

/-- After an error of the command a second result follows. -/
theorem not_replies_twice {s : ClientSocket} {text : JavaString}
    (hsent : (server.processAmClient s).sent =
      (sendResultToClient (sendResultToClient s 1 (some []) (some text)) 0 (some []) (some [])).sent) :
    ¬server.Replies s := by
  intro hreplies
  obtain ⟨r, hreply, hunique, -⟩ := hreplies
  rw [hsent, sendResultToClient_sent, sendResultToClient_sent, List.append_assoc,
    List.append_cancel_left_eq] at hreply
  obtain ⟨r₁, r₂, hne, heq, hbytes⟩ := two_results text
  have hr : r₁.bytes = r.bytes := by
    rw [hbytes, ← hreply]
    rfl
  apply hne
  rw [hunique r₁ hr, hunique r₂ (heq.symm.trans hr)]

/-- No client is sent one reply. -/
theorem not_replies (s : ClientSocket) : ¬server.Replies s := by
  cases hread : s.readDataOnInputStream server with
  | error error =>
    apply server.not_replies_error (server.readDataOnInputStream_error hread)
    simp only [processAmClient, hread]
  | ok command =>
    cases hparse : server.parseAmCommand command with
    | error error =>
      apply server.not_replies_error (server.parseAmCommand_error hparse)
      simp only [processAmClient, hread, hparse]
    | ok list =>
      cases hrun : server.tryRun list with
      | returns stdout stderr =>
        apply @AmServer.not_replies_output server _ stdout stderr
        · simp only [output, hread, hparse, hrun]
        · simp only [processAmClient, hread, hparse, runAmCommand, hrun]
      | throws e =>
        apply server.not_replies_twice
        simp only [processAmClient, hread, hparse, runAmCommand, hrun]
        rfl

/-! ## Failing inputs -/

/-- A server whose library runs `pm` and fails for all other commands. -/
def sample : AmServer where
  title := ascii "am"
  inputStreamReader bytes := (bytes.map BitVec.toNat, .endOfStream)
  tokenize command := .ok [command]
  am args := if args = [ascii "pm"] then .returns (ascii "ok") [] else .throws ⟨none, ascii "E"⟩
  shouldCheckDisplayOverAppsPermission := false
  validateDisplayOverOtherAppsPermission := .ok ()

/-- `pm` is answered by `0\0ok\0` without the last null, and `x` by a result with the code 1 and
another with the code 0. -/
theorem reply_not_terminated :
    (sample.processAmClient ⟨[0x70#8, 0x6D#8], []⟩).sent = getBytes (ascii "0\x00ok\x00") ∧
      ¬sample.Replies ⟨[0x70#8, 0x6D#8], []⟩ ∧
      (∃ error, (sample.processAmClient ⟨[0x78#8], []⟩).sent =
        getBytes (ascii "1\x00\x00" ++ error) ++ getBytes (ascii "0\x00\x00")) := by
  refine ⟨by decide, ?_, ?_⟩
  · apply @AmServer.not_replies_output sample _ (ascii "ok") []
    · rfl
    · rfl
  · exact ⟨_, rfl⟩

end AmServer

end XoDos
