import XoDos.Utf8Input

/-!
# `TerminalSession.writeCodePoint`

The session encodes what is typed, and the emulator decodes what it is sent.  Both keep a buffer
between calls.
-/

namespace XoDos

namespace TerminalSession

/-- Stores the bytes one after the other, as `mUtf8InputBuffer[bufferPosition++] = …` does. -/
def store (buffer : List Byte) (bufferPosition : Int) : List Byte → Java (List Byte × Int)
  | [] => .ok (buffer, bufferPosition)
  | b :: bytes => do
    let buffer ← arraySet buffer bufferPosition b
    store buffer (bufferPosition + 1) bytes

/-- The bytes that are stored for a code point that is not negative or of seven bits. -/
def encoding (codePoint : Nat) : List Byte :=
  if codePoint ≤ 0b11111111111 then
    [BitVec.ofNat 8 (0b11000000 ||| (codePoint >>> 6)),
      BitVec.ofNat 8 (0b10000000 ||| (codePoint &&& 0b111111))]
  else if codePoint ≤ 0b1111111111111111 then
    [BitVec.ofNat 8 (0b11100000 ||| (codePoint >>> 12)),
      BitVec.ofNat 8 (0b10000000 ||| ((codePoint >>> 6) &&& 0b111111)),
      BitVec.ofNat 8 (0b10000000 ||| (codePoint &&& 0b111111))]
  else
    [BitVec.ofNat 8 (0b11110000 ||| (codePoint >>> 18)),
      BitVec.ofNat 8 (0b10000000 ||| ((codePoint >>> 12) &&& 0b111111)),
      BitVec.ofNat 8 (0b10000000 ||| ((codePoint >>> 6) &&& 0b111111)),
      BitVec.ofNat 8 (0b10000000 ||| (codePoint &&& 0b111111))]

/-- The buffer after the call, and the bytes that are written. -/
def writeCodePoint (mUtf8InputBuffer : List Byte) (prependEscape : Bool) (codePoint : Int) :
    Java (List Byte × List Byte) :=
  if 1114111 < codePoint ∨ (0xD800 ≤ codePoint ∧ codePoint ≤ 0xDFFF) then .error .illegalArgument
  else do
    let (buffer, bufferPosition) ← store mUtf8InputBuffer 0 (if prependEscape then [27#8] else [])
    let (buffer, bufferPosition) ← store buffer bufferPosition
      (if codePoint ≤ 0b1111111 then [BitVec.ofInt 8 codePoint] else encoding codePoint.toNat)
    return (buffer, buffer.take bufferPosition.toNat)

/-- `writeCodePoint(false, c)` for each of the code points, and all that is written. -/
def writeCodePoints (buffer : List Byte) : List Nat → Java (List Byte × List Byte)
  | [] => .ok (buffer, [])
  | c :: cs => do
    let (buffer, bytes) ← writeCodePoint buffer false c
    let (buffer, more) ← writeCodePoints buffer cs
    return (buffer, bytes ++ more)

/-! ## The bytes of a code point -/

theorem or_add {high low bits : Nat} (h : low < 2 ^ bits) (hdvd : 2 ^ bits ∣ high) :
    high ||| low = high + low := by
  obtain ⟨k, rfl⟩ := hdvd
  rw [Nat.mul_comm, ← Nat.shiftLeft_eq, Nat.shiftLeft_add_eq_or_of_lt h]

theorem continuation_eq (c : Nat) : 0b10000000 ||| (c &&& 0b111111) = 0x80 + c % 0x40 := by
  have hand : c &&& 0b111111 = c % 0x40 := Nat.and_two_pow_sub_one_eq_mod c 6
  rw [hand]
  exact @or_add _ _ 6 (Nat.mod_lt c (by decide)) (by decide)

/-- The session encodes a scalar value as UTF-8 does. -/
theorem encoding_eq {c : Nat} (hlow : 0x7F < c) (hhigh : c ≤ 0x10FFFF) :
    encoding c = (Utf8.encode c).map (BitVec.ofNat 8) := by
  unfold encoding Utf8.encode
  simp only [continuation_eq, Nat.shiftRight_eq_div_pow]
  rw [if_neg (by omega : ¬c < 0x80)]
  by_cases h₂ : c ≤ 0b11111111111
  · rw [if_pos h₂, if_pos (by omega : c < 0x800), @or_add _ _ 6 (by omega) (by decide)]
    rfl
  · rw [if_neg h₂, if_neg (by omega : ¬c < 0x800)]
    by_cases h₃ : c ≤ 0b1111111111111111
    · rw [if_pos h₃, if_pos (by omega : c < 0x10000), @or_add _ _ 5 (by omega) (by decide)]
      rfl
    · rw [if_neg h₃, if_neg (by omega : ¬c < 0x10000), @or_add _ _ 4 (by omega) (by decide)]
      rfl

theorem store_eq {buffer : List Byte} (start : Nat) (bytes : List Byte)
    (h : start + bytes.length ≤ buffer.length) :
    ∃ buffer', store buffer start bytes = .ok (buffer', (start + bytes.length : Nat)) ∧
      buffer'.length = buffer.length ∧
      buffer'.take (start + bytes.length) = buffer.take start ++ bytes := by
  induction bytes generalizing buffer start with
  | nil => exact ⟨buffer, rfl, rfl, by simp⟩
  | cons b bytes ih =>
    rw [List.length_cons] at h
    have hset : arraySet buffer start b = .ok (buffer.set start b) := by
      rw [arraySet_ok b (by omega) (by omega), Int.toNat_natCast]
    obtain ⟨buffer', hstore, hlen, htake⟩ := @ih (buffer.set start b) (start + 1)
      (by rw [List.length_set]; omega)
    refine ⟨buffer', ?_, by rw [hlen, List.length_set], ?_⟩
    · rw [store, hset, ok_bind]
      rw [List.length_cons, Nat.add_comm bytes.length 1, ← Nat.add_assoc, ← hstore]
      norm_cast
    · rw [List.length_cons, Nat.add_comm bytes.length 1, ← Nat.add_assoc, htake,
        Utf8Input.Decoder.take_set (by omega)]
      simp

theorem encode_length (c : Nat) : (Utf8.encode c).length ≤ 4 := by
  unfold Utf8.encode
  split_ifs <;> simp

/-- What is written for a scalar value is its encoding, whatever the buffer was used for before. -/
theorem writeCodePoint_eq {buffer : List Byte} (hbuffer : buffer.length = 5) {c : Nat}
    (hc : Utf8.IsScalar c) :
    ∃ buffer', writeCodePoint buffer false c =
      .ok (buffer', (Utf8.encode c).map (BitVec.ofNat 8)) ∧ buffer'.length = 5 := by
  have hmax : c ≤ 0x10FFFF := by
    rcases hc with h | h <;> omega
  have hbytes : (if (c : Int) ≤ 0b1111111 then [BitVec.ofInt 8 (c : Int)] else encoding (c : Int).toNat) =
      (Utf8.encode c).map (BitVec.ofNat 8) := by
    split_ifs with h
    · rw [Utf8.encode, if_pos (by omega)]
      simp
    · rw [Int.toNat_natCast, encoding_eq (by omega) hmax]
  have hlength := encode_length c
  obtain ⟨buffer', hstore, hlen, htake⟩ := @store_eq buffer 0
      ((Utf8.encode c).map (BitVec.ofNat 8)) (by rw [List.length_map]; omega)
  refine ⟨buffer', ?_, hlen.trans hbuffer⟩
  have hvalid : ¬(1114111 < (c : Int) ∨ (0xD800 ≤ (c : Int) ∧ (c : Int) ≤ 0xDFFF)) := by
    rcases hc with h | h <;> omega
  rw [writeCodePoint, if_neg hvalid, hbytes]
  simp only [Bool.false_eq_true, if_false, store, ok_bind]
  rw [Nat.cast_zero] at hstore
  rw [hstore, ok_bind]
  simp only [Int.toNat_natCast, htake]
  rfl

end TerminalSession

/-! ## Decoding -/

namespace Utf8Input

open Decoder TerminalSession
open TerminalEmulator (decoded isOverlong)

section Bytes

theorem toNat_ofNat {n : Nat} (h : n < 256) : (BitVec.ofNat 8 n).toNat = n := by
  rw [BitVec.toNat_ofNat, Nat.mod_eq_of_lt h]

theorem isContinuation_ofNat (c : Nat) : isContinuation (BitVec.ofNat 8 (0x80 + c % 0x40)) = true := by
  have hmod := Nat.mod_lt c (by decide : 0 < 0x40)
  rw [isContinuation_iff, toNat_ofNat (by omega)]
  omega

/-- What kind of byte begins a sequence. -/
theorem sequenceLength_of (b : Byte) :
    (0xC0 ≤ b.toNat ∧ b.toNat < 0xE0 → sequenceLength b = some 2) ∧
    (0xE0 ≤ b.toNat ∧ b.toNat < 0xF0 → sequenceLength b = some 3) ∧
    (0xF0 ≤ b.toNat ∧ b.toNat < 0xF8 → sequenceLength b = some 4) ∧
    (b.toNat < 0x80 → isAscii b = true) :=
  forall_byte (P := fun b => (0xC0 ≤ b.toNat ∧ b.toNat < 0xE0 → sequenceLength b = some 2) ∧
    (0xE0 ≤ b.toNat ∧ b.toNat < 0xF0 → sequenceLength b = some 3) ∧
    (0xF0 ≤ b.toNat ∧ b.toNat < 0xF8 → sequenceLength b = some 4) ∧
    (b.toNat < 0x80 → isAscii b = true)) (by decide +kernel) b

theorem isAscii_of_sequenceLength {b : Byte} {n : Nat} (h : sequenceLength b = some n) :
    isAscii b = false := by
  by_contra hascii
  rw [Bool.not_eq_false] at hascii
  rw [((kinds b).1 hascii).1] at h
  cases h

/-- The encoding of a scalar value of more than seven bits is a sequence that stands for it, and that
is not too long. -/
theorem encode_sequence {c : Nat} (hlow : 0x80 ≤ c) (hc : Utf8.IsScalar c) :
    Begun ((Utf8.encode c).map (BitVec.ofNat 8)) ((Utf8.encode c).map (BitVec.ofNat 8)).length ∧
      value ((Utf8.encode c).map (BitVec.ofNat 8)) = c ∧
      isOverlong c ((Utf8.encode c).map (BitVec.ofNat 8)).length = false := by
  have hmax : c ≤ 0x10FFFF := by
    rcases hc with h | h <;> omega
  have hcont := isContinuation_ofNat
  have hbyte : ∀ n, (BitVec.ofNat 8 (0x80 + n % 0x40)).toNat = 0x80 + n % 0x40 := by
    intro n
    exact toNat_ofNat (by omega)
  unfold Utf8.encode
  rw [if_neg (by omega : ¬c < 0x80)]
  by_cases h₂ : c < 0x800
  · have hlead : (BitVec.ofNat 8 (0xC0 + c / 0x40)).toNat = 0xC0 + c / 0x40 := toNat_ofNat (by omega)
    have hlen := (sequenceLength_of (BitVec.ofNat 8 (0xC0 + c / 0x40))).1 (by omega)
    rw [if_pos h₂]
    refine ⟨⟨_, _, rfl, hlen, by simp [hcont]⟩, ?_, ?_⟩
    · simp only [List.map_cons, List.map_nil]
      rw [value_two hlen (hcont c), hlead, hbyte]
      omega
    · simp [isOverlong]
      omega
  · rw [if_neg h₂]
    by_cases h₃ : c < 0x10000
    · have hlead : (BitVec.ofNat 8 (0xE0 + c / 0x1000)).toNat = 0xE0 + c / 0x1000 :=
        toNat_ofNat (by omega)
      have hlen := (sequenceLength_of (BitVec.ofNat 8 (0xE0 + c / 0x1000))).2.1 (by omega)
      rw [if_pos h₃]
      refine ⟨⟨_, _, rfl, hlen, by simp [hcont]⟩, ?_, ?_⟩
      · simp only [List.map_cons, List.map_nil]
        rw [value_three hlen (hcont _) (hcont c), hlead, hbyte, hbyte]
        omega
      · simp [isOverlong]
        omega
    · have hlead : (BitVec.ofNat 8 (0xF0 + c / 0x40000)).toNat = 0xF0 + c / 0x40000 :=
        toNat_ofNat (by omega)
      have hlen := (sequenceLength_of (BitVec.ofNat 8 (0xF0 + c / 0x40000))).2.2.1 (by omega)
      rw [if_neg h₃]
      refine ⟨⟨_, _, rfl, hlen, by simp [hcont]⟩, ?_, ?_⟩
      · simp only [List.map_cons, List.map_nil]
        rw [value_four hlen (hcont _) (hcont _) (hcont c), hlead, hbyte, hbyte, hbyte]
        omega
      · simp [isOverlong]
        omega

end Bytes

variable [Platform]

/-- A complete sequence leaves nothing behind. -/
theorem run_sequence {buffer bytes : List Byte} (hbuffer : buffer.length = 4)
    (h : Begun bytes bytes.length) :
    ∃ buffer', (idle buffer).run bytes = (idle buffer', [complete bytes]) ∧ buffer'.length = 4 := by
  obtain ⟨w, x, y, z, rfl⟩ : ∃ w x y z, buffer = [w, x, y, z] := by
    match buffer, hbuffer with
    | [w, x, y, z], _ => exact ⟨w, x, y, z, rfl⟩
  rcases begun_cases h with ⟨a, b, rfl, ha, hb⟩ | ⟨a, b, c, rfl, ha, hb, hc⟩ |
    ⟨a, b, c, d, rfl, ha, hb, hc, hd⟩
  · exact ⟨[a, b, y, z], by simp [run, step, first, idle, ha, hb, isAscii_of_sequenceLength ha], rfl⟩
  · exact ⟨[a, b, c, z], by simp [run, step, first, idle, ha, hb, hc, isAscii_of_sequenceLength ha], rfl⟩
  · exact ⟨[a, b, c, d],
      by simp [run, step, first, idle, ha, hb, hc, hd, isAscii_of_sequenceLength ha], rfl⟩

/-- What the emulator is given for a scalar value: a C1 control character is dropped, and what is
not assigned is replaced. -/
def delivered (c : Nat) : Option Nat :=
  if 0x80 ≤ c ∧ c ≤ 0x9F then none
  else if Platform.getType c = .unassigned then some unicodeReplacementChar
  else some c

/-- What the decoder does for a scalar value. -/
def event (c : Nat) : Event :=
  match delivered c with
  | none => .ignore ((Utf8.encode c).map (BitVec.ofNat 8))
  | some codePoint => .process ((Utf8.encode c).map (BitVec.ofNat 8)) codePoint

section Assigned

variable (hascii : ∀ c < 0x80, Platform.getType c ≠ .unassigned)

theorem decoded_scalar {c : Nat} (hc : Utf8.IsScalar c) : decoded c = delivered c := by
  unfold decoded delivered
  split_ifs with hc1 hun
  · rfl
  · rw [hun]
  · have hs : Platform.getType c ≠ .surrogate := by
      intro hsur
      have hrange := (Platform.getType_surrogate c).mp hsur
      simp only [isSurrogate, Bool.and_eq_true, decide_eq_true_eq] at hrange
      rcases hc with h | h <;> omega
    cases ht : Platform.getType c with
    | unassigned => exact absurd ht hun
    | surrogate => exact absurd ht hs
    | other => rfl

include hascii in
/-- The encoding of a scalar value is decoded, and leaves nothing behind. -/
theorem run_encode {buffer : List Byte} (hbuffer : buffer.length = 4) {c : Nat}
    (hc : Utf8.IsScalar c) :
    ∃ buffer', (idle buffer).run ((Utf8.encode c).map (BitVec.ofNat 8)) = (idle buffer', [event c]) ∧
      buffer'.length = 4 := by
  by_cases hlow : c < 0x80
  · have hbyte : (BitVec.ofNat 8 c).toNat = c := toNat_ofNat (by omega)
    have hkind := (sequenceLength_of (BitVec.ofNat 8 c)).2.2.2 (by omega)
    have hdelivered : delivered c = some c := by
      rw [delivered, if_neg (by omega), if_neg (hascii c hlow)]
    refine ⟨buffer, ?_, hbuffer⟩
    rw [event, hdelivered, Utf8.encode, if_pos hlow]
    simp only [List.map_cons, List.map_nil, run, step, idle]
    rw [if_neg (by decide), first, if_pos hkind, hbyte]
    rfl
  · obtain ⟨hbegun, hvalue, hshort⟩ := encode_sequence (by omega : 0x80 ≤ c) hc
    obtain ⟨buffer', hrun, hlen⟩ := run_sequence hbuffer hbegun
    refine ⟨buffer', ?_, hlen⟩
    rw [hrun, complete, hvalue, hshort, if_neg (by decide), decoded_scalar hc]
    rfl

include hascii in
theorem run_encodes {buffer : List Byte} (hbuffer : buffer.length = 4) {cs : List Nat}
    (hcs : ∀ c ∈ cs, Utf8.IsScalar c) :
    ∃ buffer', (idle buffer).run (cs.flatMap fun c => (Utf8.encode c).map (BitVec.ofNat 8)) =
      (idle buffer', cs.map event) ∧ buffer'.length = 4 := by
  induction cs generalizing buffer with
  | nil => exact ⟨buffer, rfl, hbuffer⟩
  | cons c cs ih =>
    obtain ⟨buffer₁, hfirst, hlen₁⟩ := run_encode hascii hbuffer (hcs c List.mem_cons_self)
    obtain ⟨buffer₂, hrest, hlen₂⟩ := ih hlen₁ (fun x hx => hcs x (List.mem_cons_of_mem c hx))
    refine ⟨buffer₂, ?_, hlen₂⟩
    rw [List.flatMap_cons, run_append, hfirst, hrest]
    rfl

omit [Platform] in
/-- All that the session writes for a list of scalar values. -/
theorem writeCodePoints_eq {buffer : List Byte} (hbuffer : buffer.length = 5) {cs : List Nat}
    (hcs : ∀ c ∈ cs, Utf8.IsScalar c) :
    ∃ buffer', writeCodePoints buffer cs =
      .ok (buffer', cs.flatMap fun c => (Utf8.encode c).map (BitVec.ofNat 8)) := by
  induction cs generalizing buffer with
  | nil => exact ⟨buffer, rfl⟩
  | cons c cs ih =>
    obtain ⟨buffer₁, hfirst, hlen₁⟩ := writeCodePoint_eq hbuffer (hcs c List.mem_cons_self)
    obtain ⟨buffer₂, hrest⟩ := ih hlen₁ (fun x hx => hcs x (List.mem_cons_of_mem c hx))
    refine ⟨buffer₂, ?_⟩
    rw [writeCodePoints, hfirst, ok_bind]
    simp only [hrest, ok_bind]
    rfl

variable [ShortStore]

theorem foldlM_event (e : TerminalEmulator) (cs : List Nat) :
    (cs.map event).foldlM Event.deliver e =
      (cs.filterMap delivered).foldlM TerminalEmulator.processCodePoint e := by
  induction cs generalizing e with
  | nil => rfl
  | cons c cs ih =>
    rw [List.map_cons, List.foldlM_cons]
    cases hd : delivered c with
    | none =>
      rw [List.filterMap_cons_none hd]
      simp only [event, hd, Event.deliver, ok_bind]
      exact ih e
    | some codePoint =>
      rw [List.filterMap_cons_some hd, List.foldlM_cons]
      simp only [event, hd, Event.deliver]
      congr 1
      funext e'
      exact ih e'

/-- What the session writes for a list of scalar values has an idle emulator process these scalar
values, and the decoder is idle again. -/
theorem append_writeCodePoints (e : TerminalEmulator) (he : e.Idle) (buffer : List Byte)
    (hbuffer : buffer.length = 5) (hascii : ∀ c < 0x80, Platform.getType c ≠ .unassigned)
    (cs : List Nat) (hcs : ∀ c ∈ cs, Utf8.IsScalar c) :
    ∃ buffer₁ bytes buffer₂, writeCodePoints buffer cs = .ok (buffer₁, bytes) ∧
      buffer₂.length = 4 ∧
      e.append bytes = do
        let e' ← (cs.filterMap delivered).foldlM TerminalEmulator.processCodePoint e
        return { e' with mUtf8ToFollow := 0, mUtf8Index := 0, mUtf8InputBuffer := buffer₂ } := by
  obtain ⟨buffer₁, hwrite⟩ := writeCodePoints_eq hbuffer hcs
  obtain ⟨buffer₂, hrun, hlen⟩ := run_encodes hascii he.2 hcs
  refine ⟨buffer₁, _, buffer₂, hwrite, hlen, ?_⟩
  have happend := append_eq he (valid_idle he.2)
    (cs.flatMap fun c => (Utf8.encode c).map (BitVec.ofNat 8))
  rw [setDecoder_self he, hrun, foldlM_event] at happend
  exact happend

end Assigned

omit [Platform] in
/-- An `a` and a U+00E4. -/
theorem append_writeCodePoints_umlaut :
    ∃ e, @TerminalEmulator.new javaShort plainPlatform 2 2 (some 100) = .ok e ∧
      ∃ buffer₁ bytes buffer₂, writeCodePoints [0, 0, 0, 0, 0] [0x61, 0xE4] = .ok (buffer₁, bytes) ∧
        buffer₂.length = 4 ∧
        @TerminalEmulator.append javaShort plainPlatform e bytes = do
          let e' ← ([0x61, 0xE4].filterMap (@delivered plainPlatform)).foldlM
            (@TerminalEmulator.processCodePoint javaShort plainPlatform) e
          return { e' with mUtf8ToFollow := 0, mUtf8Index := 0, mUtf8InputBuffer := buffer₂ } := by
  have hreturns : (@TerminalEmulator.new javaShort plainPlatform 2 2 (some 100)).isOk = true := by
    decide +kernel
  obtain ⟨e, hnew⟩ := exists_of_isOk hreturns
  have he := @new_idle plainPlatform javaShort 2 2 (some 100) e hnew
  exact ⟨e, hnew, @append_writeCodePoints plainPlatform javaShort e he [0, 0, 0, 0, 0] rfl
    (by decide) [0x61, 0xE4] (by decide)⟩

end Utf8Input

end XoDos
