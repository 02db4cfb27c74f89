import XoDos.Ime
import XoDos.QueueCalls
import XoDos.TerminalEmulator

/-!
# Pasting

`paste` takes the escape character and the C1 controls out of a text, makes all line ends carriage
returns, and writes the text to the session, between delimiters if the application wants them.  A
text of which nothing is left is written too, and the queue refuses a write of no bytes.
-/

namespace XoDos

open ByteQueue (Threads)

/-! ## The text -/

/-- The escape character or a C1 control: `(\u001B|[\u0080-\u009F])`. -/
def isPasteControl (u : Nat) : Bool := u = 0x1B || (0x80 ≤ u && u ≤ 0x9F)

/-- `replaceAll("\r?\n", "\r")` -/
def replaceNewlines : JavaString → JavaString
  | [] => []
  | 0x0D :: 0x0A :: rest => 0x0D :: replaceNewlines rest
  | u :: rest => (if u = 0x0A then 0x0D else u) :: replaceNewlines rest

def sanitized (text : JavaString) : JavaString :=
  replaceNewlines (text.filter fun u => !isPasteControl u)

def openingDelimiter : JavaString := 0x1B :: ascii "[200~"

def closingDelimiter : JavaString := 0x1B :: ascii "[201~"

/-- `paste(text)`: the strings that are written to the session. -/
def Display.paste (d : Display) (text : JavaString) : List JavaString :=
  let bracketed := d.isDecsetInternalBitSet Decset.bracketedPasteMode
  (if bracketed then [openingDelimiter] else []) ++ [sanitized text] ++
    if bracketed then [closingDelimiter] else []

/-- What the process is to read. -/
def Display.pasted (d : Display) (text : JavaString) : JavaString :=
  if d.isDecsetInternalBitSet Decset.bracketedPasteMode then
    openingDelimiter ++ sanitized text ++ closingDelimiter
  else sanitized text

theorem replaceNewlines_eq_nil {text : JavaString} : replaceNewlines text = [] ↔ text = [] := by
  fun_cases replaceNewlines text <;> simp

theorem mem_replaceNewlines {text : JavaString} {u : Nat} (h : u ∈ replaceNewlines text) :
    u ∈ text ∨ u = 0x0D := by
  fun_induction replaceNewlines text with
  | case1 => exact .inl h
  | case2 rest ih =>
    rcases List.mem_cons.mp h with rfl | h
    · exact .inr rfl
    · exact (ih h).imp_left fun h => List.mem_cons_of_mem _ (List.mem_cons_of_mem _ h)
  | case3 v rest hno ih =>
    rcases List.mem_cons.mp h with rfl | h
    · split_ifs
      · exact .inr rfl
      · exact .inl List.mem_cons_self
    · exact (ih h).imp_left fun h => List.mem_cons_of_mem _ h

theorem escape_notMem_sanitized (text : JavaString) : 0x1B ∉ sanitized text := by
  intro h
  rcases mem_replaceNewlines h with h | h
  · have hkept := (List.mem_filter.mp h).2
    simp [isPasteControl] at hkept
  · cases h

theorem sanitized_eq_nil {text : JavaString} :
    sanitized text = [] ↔ ∀ u ∈ text, isPasteControl u = true := by
  rw [sanitized, replaceNewlines_eq_nil, List.filter_eq_nil_iff]
  simp

theorem getBytes_delimited (text : JavaString) :
    getBytes (openingDelimiter ++ text ++ closingDelimiter) =
      getBytes openingDelimiter ++ getBytes text ++ getBytes closingDelimiter := by
  have hopening : ∀ rest, getBytes (openingDelimiter ++ rest) =
      getBytes openingDelimiter ++ getBytes rest := by
    intro rest
    rw [show openingDelimiter = [0x1B, 0x5B, 0x32, 0x30, 0x30, 0x7E] by decide]
    simp [getBytes_cons, isSurrogate, getBytes_eq_nil]
  rw [List.append_assoc, hopening, closingDelimiter, getBytes_append text (by decide), List.append_assoc]

/-! ## The session -/

namespace TerminalSession

/-- The array that `write(String)` passes on. -/
def bytesOf (data : JavaString) : List Byte := (getBytes data).map (BitVec.ofNat 8)

/-- One `mSession.write(data)` after the other, until there is an exception.  The session passes them
to `mTerminalToProcessIOQueue` if there is a shell. -/
inductive Written (mShellPid : Int) :
    List JavaString → Threads → Option JavaException → Threads → Prop
  | done {s : Threads} : Written mShellPid [] s none s
  | noShell {data : JavaString} {rest : List JavaString} {s s' : Threads} {e : Option JavaException} :
    mShellPid ≤ 0 → Written mShellPid rest s e s' → Written mShellPid (data :: rest) s e s'
  | returns {data : JavaString} {rest : List JavaString} {s s₁ s' : Threads}
    {e : Option JavaException} {all : Bool} :
    0 < mShellPid → Threads.Call (bytesOf data) s (.returns all) s₁ →
    Written mShellPid rest s₁ e s' → Written mShellPid (data :: rest) s e s'
  | throws {data : JavaString} {rest : List JavaString} {s s' : Threads} {e : JavaException} :
    0 < mShellPid → Threads.Call (bytesOf data) s (.throws e) s' →
    Written mShellPid (data :: rest) s (some e) s'

/-- A session whose shell runs and whose main thread is not in a write. -/
structure Running (mShellPid : Int) (s : Threads) : Prop where
  shell : 0 < mShellPid
  reachable : Threads.Reachable (fun _ => True) 4096 s
  isOpen : s.queue.mOpen = true
  idle : ∃ last, s.producer = .outside last

/-- A paste can come to its end, and when it does, without the shell having ended meanwhile, there
was no exception and the queue got the text. -/
def PastesExactly (mShellPid : Int) (s : Threads) (d : Display) (text : JavaString) : Prop :=
  (∃ e s', Written mShellPid (d.paste text) s e s' ∧ s'.queue.mOpen = true) ∧
    (∀ e s', Written mShellPid (d.paste text) s e s' → s'.queue.mOpen = true →
      e = none ∧ s'.accepted = s.accepted ++ bytesOf (d.pasted text)) ∧
    0x1B ∉ getBytes (sanitized text)

section Paste

variable {mShellPid : Int} {s s' : Threads} {strings : List JavaString} {e : Option JavaException}

theorem bytesOf_eq_nil {data : JavaString} : bytesOf data = [] ↔ data = [] := by
  rw [bytesOf, List.map_eq_nil_iff, getBytes_eq_nil]

/-- A session that is running at the end has been running before. -/
theorem Written.before (h : Written mShellPid strings s e s') (hf : Threads.Fifo 4096 s)
    (hopen : s'.queue.mOpen = true) : s.queue.mOpen = true := by
  induction h with
  | done => exact hopen
  | noShell _ _ ih => exact ih hf hopen
  | returns _ hcall _ ih => exact hcall.before hf (ih (hcall.fifo hf) hopen)
  | throws _ hcall => exact hcall.before hf hopen

/-- Strings that are not empty are queued one after the other. -/
theorem Written.queued (h : Written mShellPid strings s e s') (hpid : 0 < mShellPid)
    (hf : Threads.Fifo 4096 s) (hopen : s'.queue.mOpen = true) (hne : ∀ data ∈ strings, data ≠ []) :
    e = none ∧ s'.accepted = s.accepted ++ strings.flatMap bytesOf := by
  induction h with
  | done => exact ⟨rfl, by simp⟩
  | noShell hno => omega
  | @returns data rest s s₁ s' e all _ hcall hrest ih =>
    have hdata : bytesOf data ≠ [] := fun h => hne data (by simp) (bytesOf_eq_nil.mp h)
    have hf₁ := hcall.fifo hf
    obtain ⟨-, haccepted⟩ := hcall.complete hdata hf (by norm_num) (hrest.before hf₁ hopen)
    obtain ⟨hnone, hend⟩ := ih hf₁ hopen fun d hd => hne d (by simp [hd])
    exact ⟨hnone, by rw [hend, haccepted, List.flatMap_cons, List.append_assoc]⟩
  | @throws data rest s s' x _ hcall =>
    have hdata : bytesOf data ≠ [] := fun h => hne data (by simp) (bytesOf_eq_nil.mp h)
    exact absurd (hcall.complete hdata hf (by norm_num) hopen).1 (by simp)

/-- An empty string is an exception. -/
theorem Written.throws_of_nil (h : Written mShellPid strings s e s') (hpid : 0 < mShellPid)
    (hnil : [] ∈ strings) : e ≠ none := by
  induction h with
  | done => cases hnil
  | noShell hno => omega
  | returns _ hcall _ ih =>
    rcases List.mem_cons.mp hnil with rfl | hnil
    · have hout := hcall.refused.1
      cases hout
    · exact ih hnil
  | throws => simp

theorem written_exists (hpid : 0 < mShellPid) (hf : Threads.Fifo 4096 s)
    (hopen : s.queue.mOpen = true) (hidle : ∃ last, s.producer = .outside last)
    (hne : ∀ data ∈ strings, data ≠ []) :
    ∃ s', Written mShellPid strings s none s' ∧ s'.queue.mOpen = true := by
  induction strings generalizing s with
  | nil => exact ⟨s, .done, hopen⟩
  | cons data rest ih =>
    have hdata : bytesOf data ≠ [] := fun h => hne data (by simp) (bytesOf_eq_nil.mp h)
    obtain ⟨last, hlast⟩ := hidle
    obtain ⟨s₁, hcall, hf₁, hopen₁⟩ :=
      Threads.call_exists (by decide) (by norm_num) hf hopen hlast hdata
    obtain ⟨s', hrest, hopen'⟩ := ih hf₁ hopen₁ ⟨_, hcall.ended⟩ fun d hd => hne d (by simp [hd])
    exact ⟨s', .returns hpid hcall hrest, hopen'⟩

end Paste

theorem flatMap_paste (d : Display) (text : JavaString) :
    (d.paste text).flatMap bytesOf = bytesOf (d.pasted text) := by
  unfold Display.paste Display.pasted
  cases d.isDecsetInternalBitSet Decset.bracketedPasteMode with
  | true =>
    have hbytes : bytesOf (openingDelimiter ++ sanitized text ++ closingDelimiter) =
        bytesOf openingDelimiter ++ bytesOf (sanitized text) ++ bytesOf closingDelimiter := by
      rw [bytesOf, getBytes_delimited]
      simp [bytesOf]
    rw [if_pos rfl, hbytes]
    simp
  | false => simp

theorem mem_paste_ne_nil {d : Display} {text : JavaString} (h : sanitized text ≠ []) :
    ∀ data ∈ d.paste text, data ≠ [] := by
  unfold Display.paste
  cases d.isDecsetInternalBitSet Decset.bracketedPasteMode with
  | true => simpa [openingDelimiter, closingDelimiter] using h
  | false => simpa using h

/-- A paste is as it should be exactly if something is left of the text. -/
theorem pastesExactly_iff {mShellPid : Int} {s : Threads} (hs : Running mShellPid s) (d : Display)
    (text : JavaString) :
    PastesExactly mShellPid s d text ↔ ∃ u ∈ text, isPasteControl u = false := by
  have hfifo := hs.reachable.fifo (by decide) (by decide)
  have hsome : (∃ u ∈ text, isPasteControl u = false) ↔ sanitized text ≠ [] := by
    rw [Ne, sanitized_eq_nil]
    push Not
    simp
  rw [hsome]
  constructor
  · rintro ⟨⟨e, s', hwritten, hopen⟩, hall, -⟩ hnil
    apply hwritten.throws_of_nil hs.shell
    · rw [← hnil]
      simp [Display.paste]
    · exact (hall e s' hwritten hopen).1
  · intro hne
    refine ⟨?_, ?_, ?_⟩
    · obtain ⟨s', hwritten, hopen⟩ :=
        written_exists hs.shell hfifo hs.isOpen hs.idle (mem_paste_ne_nil (d := d) hne)
      exact ⟨none, s', hwritten, hopen⟩
    · intro e s' hwritten hopen
      rw [← flatMap_paste]
      exact hwritten.queued hs.shell hfifo hopen (mem_paste_ne_nil hne)
    · intro hmem
      exact escape_notMem_sanitized text (mem_of_mem_getBytes (by decide) (by decide) hmem)

/-- A new terminal that has read `ESC [?2004h`. -/
def bracketing : Java Terminal := do
  let e ← @TerminalEmulator.new javaShort plainPlatform 4 4 (some 100)
  (0x1B :: ascii "[?2004h").foldlM (@Terminal.processCodePoint javaShort plainPlatform) e.toTerminal

theorem bracketing_ok : ∃ t, bracketing = .ok t := by
  cases ht : bracketing with
  | ok t => exact ⟨t, rfl⟩
  | error e =>
    have hok : bracketing.toOption.isSome = true := by decide +kernel
    rw [ht] at hok
    cases hok

theorem new_running : Running 1 (.new 4096) := ⟨by decide, .refl, rfl, ⟨none, rfl⟩⟩

/-- One letter. -/
theorem pastesExactly_iff_letter :
    ∃ t, bracketing = .ok t ∧ PastesExactly 1 (.new 4096) t.toDisplay (ascii "a") := by
  obtain ⟨t, ht⟩ := bracketing_ok
  exact ⟨t, ht, (pastesExactly_iff new_running t.toDisplay (ascii "a")).mpr ⟨0x61, by decide, by decide⟩⟩

/-- The empty text. -/
theorem empty_paste_throws :
    ∃ t, bracketing = .ok t ∧ ¬PastesExactly 1 (.new 4096) t.toDisplay [] := by
  obtain ⟨t, ht⟩ := bracketing_ok
  refine ⟨t, ht, ?_⟩
  rintro ⟨⟨e, s', hwritten, hopen⟩, hall, -⟩
  apply hwritten.throws_of_nil (by decide)
  · simp [Display.paste, sanitized, replaceNewlines]
  · exact (hall e s' hwritten hopen).1

end TerminalSession

end XoDos
