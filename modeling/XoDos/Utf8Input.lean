import XoDos.ParserIdle
import XoDos.Utf8

/-!
# The UTF-8 decoder

`processByte` collects the bytes of a sequence and passes what they decode to to
`processCodePoint`.  The decoder is separated from the rest here: what it passes on does not
depend on what is done with it.
-/

namespace XoDos

namespace Utf8Input

open TerminalEmulator (decodeSequence isOverlong decoded)

/-! ## Bytes -/

theorem forall_byte {P : Byte → Prop} (h : ∀ n : Fin 256, P (BitVec.ofFin n)) (b : Byte) : P b := h b.toFin

variable (b : Byte)

def isAscii : Bool := b &&& 0b10000000 = 0

def isContinuation : Bool := b &&& 0b11000000 = 0b10000000

/-- The number of bytes of a sequence that the byte begins. -/
def sequenceLength : Option Nat :=
  if b &&& 0b11100000 = 0b11000000 then some 2
  else if b &&& 0b11110000 = 0b11100000 then some 3
  else if b &&& 0b11111000 = 0b11110000 then some 4
  else none

theorem isContinuation_iff : isContinuation b = true ↔ 0x80 ≤ b.toNat ∧ b.toNat < 0xC0 :=
  forall_byte (P := fun b => isContinuation b = true ↔ 0x80 ≤ b.toNat ∧ b.toNat < 0xC0)
    (by decide +kernel) b

theorem continuation_bits : isContinuation b = true → (b &&& 0b00111111).toNat = b.toNat - 0x80 :=
  forall_byte (P := fun b => isContinuation b = true → (b &&& 0b00111111).toNat = b.toNat - 0x80)
    (by decide +kernel) b

theorem sequenceLength_two : sequenceLength b = some 2 →
    0xC0 ≤ b.toNat ∧ b.toNat < 0xE0 ∧ (b &&& 0b00011111).toNat = b.toNat - 0xC0 :=
  forall_byte (P := fun b => sequenceLength b = some 2 →
    0xC0 ≤ b.toNat ∧ b.toNat < 0xE0 ∧ (b &&& 0b00011111).toNat = b.toNat - 0xC0)
    (by decide +kernel) b

theorem sequenceLength_three : sequenceLength b = some 3 →
    0xE0 ≤ b.toNat ∧ b.toNat < 0xF0 ∧ (b &&& 0b00001111).toNat = b.toNat - 0xE0 :=
  forall_byte (P := fun b => sequenceLength b = some 3 →
    0xE0 ≤ b.toNat ∧ b.toNat < 0xF0 ∧ (b &&& 0b00001111).toNat = b.toNat - 0xE0)
    (by decide +kernel) b

theorem sequenceLength_four : sequenceLength b = some 4 →
    0xF0 ≤ b.toNat ∧ b.toNat < 0xF8 ∧ (b &&& 0b00000111).toNat = b.toNat - 0xF0 :=
  forall_byte (P := fun b => sequenceLength b = some 4 →
    0xF0 ≤ b.toNat ∧ b.toNat < 0xF8 ∧ (b &&& 0b00000111).toNat = b.toNat - 0xF0)
    (by decide +kernel) b

/-- A byte of one kind is not of another. -/
theorem kinds : (isAscii b = true → sequenceLength b = none ∧ isContinuation b = false) ∧
    (isContinuation b = true → sequenceLength b = none ∧ isAscii b = false) :=
  forall_byte (P := fun b => (isAscii b = true → sequenceLength b = none ∧ isContinuation b = false) ∧
    (isContinuation b = true → sequenceLength b = none ∧ isAscii b = false)) (by decide +kernel) b

theorem sequenceLength_cases {n : Nat} (h : sequenceLength b = some n) : n = 2 ∨ n = 3 ∨ n = 4 := by
  unfold sequenceLength at h
  split_ifs at h
  · exact .inl (Option.some.inj h).symm
  · exact .inr (.inl (Option.some.inj h).symm)
  · exact .inr (.inr (Option.some.inj h).symm)

/-! ## The decoder -/

/-- What the decoder does, with the bytes that it does it for. -/
inductive Event where
  /-- `processCodePoint` -/
  | process (bytes : List Byte) (codePoint : Nat)
  /-- `emitCodePoint(UNICODE_REPLACEMENT_CHAR)`, for a sequence that is broken off. -/
  | emit (bytes : List Byte)
  /-- A C1 control character is ignored. -/
  | ignore (bytes : List Byte)
deriving DecidableEq

structure Decoder where
  mUtf8ToFollow : Int
  mUtf8Index : Int
  mUtf8InputBuffer : List Byte
deriving DecidableEq

/-- The code point of a sequence. -/
def value : List Byte → Nat
  | [] => 0
  | first :: rest =>
    let mask : Byte :=
      if rest.length = 1 then 0b00011111 else if rest.length = 2 then 0b00001111 else 0b00000111
    rest.foldl (fun codePoint next => (codePoint <<< 6) ||| (next &&& 0b00111111).toNat)
      (first &&& mask).toNat

namespace Decoder

variable (d : Decoder)

/-- The bytes of the sequence that is begun. -/
def pending : List Byte := d.mUtf8InputBuffer.take d.mUtf8Index.toNat

/-- The bytes begin a sequence of `n` bytes. -/
def Begun (bytes : List Byte) (n : Nat) : Prop :=
  ∃ lead rest, bytes = lead :: rest ∧ sequenceLength lead = some n ∧
    ∀ c ∈ rest, isContinuation c = true

/-- Between two sequences, or in one. -/
structure Valid (d : Decoder) : Prop where
  buffer : d.mUtf8InputBuffer.length = 4
  state : (d.mUtf8ToFollow = 0 ∧ d.mUtf8Index = 0) ∨
    ∃ n : Nat, 0 < d.mUtf8ToFollow ∧ 0 < d.mUtf8Index ∧ d.mUtf8Index + d.mUtf8ToFollow = n ∧
      Begun d.pending n

def idle (buffer : List Byte) : Decoder := ⟨0, 0, buffer⟩

theorem valid_idle {buffer : List Byte} (h : buffer.length = 4) : Valid (idle buffer) :=
  ⟨h, .inl ⟨rfl, rfl⟩⟩

end Decoder

variable [Platform]

/-- What becomes of a complete sequence. -/
def complete (bytes : List Byte) : Event :=
  match decoded (if isOverlong (value bytes) bytes.length then unicodeReplacementChar
    else value bytes) with
  | none => .ignore bytes
  | some codePoint => .process bytes codePoint

namespace Decoder

variable (d : Decoder)

def first : Decoder × List Event :=
  if isAscii b then (d, [.process [b] b.toNat])
  else
    match sequenceLength b with
    | some n =>
      (⟨n - 1, d.mUtf8Index + 1, d.mUtf8InputBuffer.set d.mUtf8Index.toNat b⟩, [])
    | none => (d, [.process [b] unicodeReplacementChar])

def step : Decoder × List Event :=
  if 0 < d.mUtf8ToFollow then
    if isContinuation b then
      let buffer := d.mUtf8InputBuffer.set d.mUtf8Index.toNat b
      if d.mUtf8ToFollow - 1 = 0 then
        (⟨0, 0, buffer⟩, [complete (buffer.take (d.mUtf8Index + 1).toNat)])
      else (⟨d.mUtf8ToFollow - 1, d.mUtf8Index + 1, buffer⟩, [])
    else
      let (d', events) := first b ⟨0, 0, d.mUtf8InputBuffer⟩
      (d', .emit d.pending :: events)
  else d.first b

/-- The decoder after the bytes, and what it has done. -/
def run (d : Decoder) : List Byte → Decoder × List Event
  | [] => (d, [])
  | b :: bytes => ((run (d.step b).1 bytes).1, (d.step b).2 ++ (run (d.step b).1 bytes).2)

theorem run_append (d : Decoder) (bytes more : List Byte) :
    d.run (bytes ++ more) =
      (((d.run bytes).1.run more).1, (d.run bytes).2 ++ ((d.run bytes).1.run more).2) := by
  induction bytes generalizing d with
  | nil => simp [run]
  | cons b bytes ih =>
    rw [List.cons_append, run, ih]
    simp [run]

end Decoder

/-! ## Sequences -/

section Sequences

omit [Platform]

open Decoder (Begun)

theorem join_bits (c : Nat) {b : Byte} (h : isContinuation b = true) :
    (c <<< 6) ||| (b &&& 0b00111111).toNat = c * 0x40 + (b.toNat - 0x80) := by
  obtain ⟨h₁, h₂⟩ := (isContinuation_iff b).mp h
  rw [continuation_bits b h, ← Nat.shiftLeft_add_eq_or_of_lt (by omega), Nat.shiftLeft_eq]

theorem value_two {a b : Byte} (ha : sequenceLength a = some 2) (hb : isContinuation b = true) :
    value [a, b] = (a.toNat - 0xC0) * 0x40 + (b.toNat - 0x80) := by
  simp only [value, List.length_cons, List.length_nil, List.foldl_cons, List.foldl_nil]
  rw [if_pos trivial, join_bits _ hb, (sequenceLength_two a ha).2.2]

theorem value_three {a b c : Byte} (ha : sequenceLength a = some 3) (hb : isContinuation b = true)
    (hc : isContinuation c = true) :
    value [a, b, c] = ((a.toNat - 0xE0) * 0x40 + (b.toNat - 0x80)) * 0x40 + (c.toNat - 0x80) := by
  simp only [value, List.length_cons, List.length_nil, List.foldl_cons, List.foldl_nil]
  rw [if_neg (by decide), if_pos trivial, join_bits _ hb, join_bits _ hc, (sequenceLength_three a ha).2.2]

theorem value_four {a b c d : Byte} (ha : sequenceLength a = some 4) (hb : isContinuation b = true)
    (hc : isContinuation c = true) (hd : isContinuation d = true) :
    value [a, b, c, d] = (((a.toNat - 0xF0) * 0x40 + (b.toNat - 0x80)) * 0x40 +
      (c.toNat - 0x80)) * 0x40 + (d.toNat - 0x80) := by
  simp only [value, List.length_cons, List.length_nil, List.foldl_cons, List.foldl_nil]
  rw [if_neg (by decide), if_neg (by decide), join_bits _ hb, join_bits _ hc, join_bits _ hd,
    (sequenceLength_four a ha).2.2]

/-- The bytes of a complete sequence. -/
theorem begun_cases {bytes : List Byte} (h : Begun bytes bytes.length) :
    (∃ a b, bytes = [a, b] ∧ sequenceLength a = some 2 ∧ isContinuation b = true) ∨
      (∃ a b c, bytes = [a, b, c] ∧ sequenceLength a = some 3 ∧ isContinuation b = true ∧
        isContinuation c = true) ∨
      ∃ a b c d, bytes = [a, b, c, d] ∧ sequenceLength a = some 4 ∧ isContinuation b = true ∧
        isContinuation c = true ∧ isContinuation d = true := by
  obtain ⟨lead, rest, rfl, hlead, hrest⟩ := h
  rw [List.length_cons] at hlead
  rcases sequenceLength_cases lead hlead with hn | hn | hn
  · obtain ⟨b, rfl⟩ := List.length_eq_one_iff.mp (by omega : rest.length = 1)
    exact .inl ⟨lead, b, rfl, hlead, hrest b (by simp)⟩
  · obtain ⟨b, c, rfl⟩ := List.length_eq_two.mp (by omega : rest.length = 2)
    exact .inr (.inl ⟨lead, b, c, rfl, hlead, hrest b (by simp), hrest c (by simp)⟩)
  · obtain ⟨b, c, d, rfl⟩ := List.length_eq_three.mp (by omega : rest.length = 3)
    exact .inr (.inr ⟨lead, b, c, d, rfl, hlead, hrest b (by simp), hrest c (by simp),
      hrest d (by simp)⟩)

/-- More bytes than the shortest encoding has. -/
def Overlong (bytes : List Byte) : Prop := (Utf8.encode (value bytes)).length < bytes.length

/-- A code point that a sequence is decoded to has that sequence as its shortest encoding, and an
overlong sequence is replaced. -/
def Shortest : Event → Prop
  | .process bytes codePoint => 2 ≤ bytes.length →
    (codePoint ≠ unicodeReplacementChar →
      bytes.map BitVec.toNat = Utf8.encode codePoint ∧ Utf8.IsScalar codePoint) ∧
    (Overlong bytes → codePoint = unicodeReplacementChar)
  | .emit _ => True
  | .ignore bytes => ¬Overlong bytes

end Sequences

theorem decoded_cases (c : Nat) :
    (decoded c = none ∧ c ≤ 0x9F) ∨ decoded c = some unicodeReplacementChar ∨
      (decoded c = some c ∧ Platform.getType c = .other) := by
  unfold decoded
  split_ifs with hc
  · exact .inl ⟨rfl, hc.2⟩
  · right
    cases ht : Platform.getType c with
    | unassigned => exact .inl rfl
    | surrogate => exact .inl rfl
    | other => exact .inr ⟨rfl, rfl⟩

theorem decoded_replacement : decoded unicodeReplacementChar = some unicodeReplacementChar := by
  rcases decoded_cases unicodeReplacementChar with ⟨-, h⟩ | h | ⟨h, -⟩
  · exact absurd h (by decide)
  · exact h
  · exact h

theorem isScalar_of_other {c : Nat} (h : Platform.getType c = .other) : Utf8.IsScalar c := by
  by_contra hc
  rw [Utf8.IsScalar, not_or, not_and_or, not_lt, not_lt, not_le] at hc
  rcases hc.2 with hle | hgt
  · have hs : isSurrogate c = true := by
      simp only [isSurrogate, Bool.and_eq_true, decide_eq_true_eq]
      omega
    rw [(Platform.getType_surrogate c).mpr hs] at h
    cases h
  · rw [Platform.getType_outside c hgt] at h
    cases h

/-- A sequence that passes the check, and is the shortest or decodes to nothing that is known. -/
theorem complete_shortest_of {bytes : List Byte}
    (hcheck : isOverlong (value bytes) bytes.length = false)
    (h : bytes.map BitVec.toNat = Utf8.encode (value bytes) ∨
      (Platform.getType (value bytes) ≠ .other ∧ 0x9F < value bytes)) :
    Shortest (complete bytes) := by
  have hlength : bytes.map BitVec.toNat = Utf8.encode (value bytes) → ¬Overlong bytes := by
    intro heq hlong
    rw [Overlong, ← heq, List.length_map] at hlong
    omega
  rw [complete, hcheck, if_neg (by simp)]
  rcases decoded_cases (value bytes) with ⟨hd, hle⟩ | hd | ⟨hd, hother⟩
  · rw [hd]
    rcases h with h | h
    · exact hlength h
    · omega
  · rw [hd]
    exact fun _ => ⟨fun hne => absurd rfl hne, fun _ => rfl⟩
  · rw [hd]
    rcases h with h | h
    · exact fun _ => ⟨fun _ => ⟨h, isScalar_of_other hother⟩, fun hlong => absurd hlong (hlength h)⟩
    · exact absurd hother h.1

theorem complete_overlong {bytes : List Byte}
    (hcheck : isOverlong (value bytes) bytes.length = true) :
    complete bytes = .process bytes unicodeReplacementChar := by
  rw [complete, if_pos hcheck, decoded_replacement]

/-- The sequence that the check lets through. -/
def unchecked : List Byte := [0xE0#8, 0x9F#8, 0xBF#8]

theorem complete_shortest {bytes : List Byte} (hseq : Decoder.Begun bytes bytes.length)
    (h : bytes ≠ unchecked ∨ Platform.getType 0x7FF ≠ .other) : Shortest (complete bytes) := by
  cases hcheck : isOverlong (value bytes) bytes.length with
  | true =>
    rw [complete_overlong hcheck]
    exact fun _ => ⟨fun hne => absurd rfl hne, fun _ => rfl⟩
  | false =>
    apply complete_shortest_of hcheck
    simp only [isOverlong, decide_eq_false_iff_not, not_or, not_and_or, not_le, not_lt] at hcheck
    rcases begun_cases hseq with ⟨a, b, rfl, ha, hb⟩ | ⟨a, b, c, rfl, ha, hb, hc⟩ |
      ⟨a, b, c, d, rfl, ha, hb, hc, hd⟩
    · have hv := value_two ha hb
      obtain ⟨ha₁, ha₂, -⟩ := sequenceLength_two a ha
      obtain ⟨hb₁, hb₂⟩ := (isContinuation_iff b).mp hb
      left
      have hlow : 0x80 ≤ value [a, b] := by
        rcases hcheck.1 with h | h
        · exact h
        · exact absurd h (by simp)
      rw [Utf8.encode, if_neg (by omega), if_pos (by omega)]
      simp only [List.map_cons, List.map_nil, List.cons.injEq, and_true]
      omega
    · have hv := value_three ha hb hc
      obtain ⟨ha₁, ha₂, -⟩ := sequenceLength_three a ha
      obtain ⟨hb₁, hb₂⟩ := (isContinuation_iff b).mp hb
      obtain ⟨hc₁, hc₂⟩ := (isContinuation_iff c).mp hc
      have hlow : 0x7FF ≤ value [a, b, c] := by
        rcases hcheck.2.1 with h | h
        · exact h
        · exact absurd h (by simp)
      -- The bound is one short: this value passes although two bytes spell it.
      by_cases heq : value [a, b, c] = 0x7FF
      · right
        rw [heq]
        refine ⟨h.resolve_left fun hne => hne ?_, by decide⟩
        have h₁ : a = 0xE0#8 := BitVec.eq_of_toNat_eq (by simp; omega)
        have h₂ : b = 0x9F#8 := BitVec.eq_of_toNat_eq (by simp; omega)
        have h₃ : c = 0xBF#8 := BitVec.eq_of_toNat_eq (by simp; omega)
        rw [h₁, h₂, h₃, unchecked]
      · left
        rw [Utf8.encode, if_neg (by omega), if_neg (by omega), if_pos (by omega)]
        simp only [List.map_cons, List.map_nil, List.cons.injEq, and_true]
        omega
    · have hv := value_four ha hb hc hd
      obtain ⟨ha₁, ha₂, -⟩ := sequenceLength_four a ha
      obtain ⟨hb₁, hb₂⟩ := (isContinuation_iff b).mp hb
      obtain ⟨hc₁, hc₂⟩ := (isContinuation_iff c).mp hc
      obtain ⟨hd₁, hd₂⟩ := (isContinuation_iff d).mp hd
      have hlow : 0xFFFF ≤ value [a, b, c, d] := by
        rcases hcheck.2.2 with h | h
        · exact h
        · exact absurd h (by simp)
      -- This bound is one short as well, but a noncharacter is replaced.
      by_cases heq : value [a, b, c, d] = 0xFFFF
      · right
        rw [heq, Platform.getType_noncharacter 0xFFFF (by decide)]
        exact ⟨by simp, by decide⟩
      · left
        rw [Utf8.encode, if_neg (by omega), if_neg (by omega), if_neg (by omega)]
        simp only [List.map_cons, List.map_nil, List.cons.injEq, and_true]
        omega

theorem complete_unchecked (h : Platform.getType 0x7FF = .other) :
    complete unchecked = .process unchecked 0x7FF := by
  have hv : value unchecked = 0x7FF := by decide
  have hcheck : isOverlong 0x7FF unchecked.length = false := by decide
  have hdecoded : decoded 0x7FF = some 0x7FF := by
    unfold decoded
    rw [if_neg (by decide), h]
  rw [complete, hv, hcheck, if_neg (by simp), hdecoded]

/-! ## Runs of the decoder -/

namespace Decoder

variable {b} {d : Decoder}

/-- What an event can be, with the bytes that it is for among those given. -/
def Origin (input : List Byte) (event : Event) : Prop :=
  (∃ bytes, Begun bytes bytes.length ∧ event = complete bytes ∧ bytes <:+: input) ∨
    (∃ c codePoint, event = .process [c] codePoint) ∨ ∃ bytes, event = .emit bytes

theorem Origin.mono {input more : List Byte} {event : Event} (h : Origin input event)
    (hmore : input <:+: more) : Origin more event := by
  rcases h with ⟨bytes, h₁, h₂, h₃⟩ | h | h
  · exact .inl ⟨bytes, h₁, h₂, h₃.trans hmore⟩
  · exact .inr (.inl h)
  · exact .inr (.inr h)

omit [Platform] in
theorem take_set {l : List Byte} {n : Nat} (h : n < l.length) (b : Byte) :
    (l.set n b).take (n + 1) = l.take n ++ [b] := by
  rw [List.take_add_one, List.take_set_of_le (le_refl n)]
  simp [h]

/-- The first byte of a sequence, or a byte of its own. -/
theorem first_valid (hbuffer : d.mUtf8InputBuffer.length = 4) (hfollow : d.mUtf8ToFollow = 0)
    (hindex : d.mUtf8Index = 0) :
    Valid (d.first b).1 ∧ (d.first b).1.pending <:+ [b] ∧
      ∀ event ∈ (d.first b).2, Origin [b] event := by
  have hnil : d.pending <:+ [b] := by
    simp [pending, hindex]
  unfold first
  split_ifs with hascii
  · refine ⟨⟨hbuffer, .inl ⟨hfollow, hindex⟩⟩, hnil, fun event he => ?_⟩
    rw [List.mem_singleton] at he
    exact .inr (.inl ⟨b, b.toNat, he⟩)
  · cases hlen : sequenceLength b with
    | none =>
      refine ⟨⟨hbuffer, .inl ⟨hfollow, hindex⟩⟩, hnil, fun event he => ?_⟩
      rw [List.mem_singleton] at he
      exact .inr (.inl ⟨b, _, he⟩)
    | some n =>
      have hn := sequenceLength_cases b hlen
      have hpending : (⟨n - 1, d.mUtf8Index + 1, d.mUtf8InputBuffer.set d.mUtf8Index.toNat b⟩ :
          Decoder).pending = [b] := by
        simp only [pending, hindex, Int.zero_add, Int.toNat_one, Int.toNat_zero]
        rw [take_set (by omega)]
        rfl
      refine ⟨⟨by simp [hbuffer], .inr ⟨n, ?_, ?_, ?_, ?_⟩⟩, ?_, by simp⟩
      · simp only
        omega
      · simp only
        omega
      · simp only
        omega
      · rw [hpending]
        exact ⟨b, [], rfl, hlen, by simp⟩
      · rw [hpending]

theorem step_valid (h : Valid d) (b : Byte) :
    Valid (d.step b).1 ∧ (d.step b).1.pending <:+ d.pending ++ [b] ∧
      ∀ event ∈ (d.step b).2, Origin (d.pending ++ [b]) event := by
  rcases h.state with ⟨hfollow, hindex⟩ | ⟨n, hfollow, hindex, hn, hbegun⟩
  · obtain ⟨hv, hp, he⟩ := first_valid (b := b) h.buffer hfollow hindex
    rw [step, if_neg (by omega)]
    refine ⟨hv, hp.trans (List.suffix_append _ _), fun event hev => ?_⟩
    exact (he event hev).mono (List.suffix_append _ _).isInfix
  · obtain ⟨lead, rest, hpending, hlead, hrest⟩ := hbegun
    have hfour : n ≤ 4 := by
      rcases sequenceLength_cases lead hlead with h | h | h <;> omega
    have hlt : d.mUtf8Index.toNat < d.mUtf8InputBuffer.length := by
      rw [h.buffer]
      omega
    have htake : (d.mUtf8InputBuffer.set d.mUtf8Index.toNat b).take (d.mUtf8Index + 1).toNat =
        d.pending ++ [b] := by
      rw [show (d.mUtf8Index + 1).toNat = d.mUtf8Index.toNat + 1 by omega, take_set hlt]
      rfl
    rw [step, if_pos hfollow]
    by_cases hcont : isContinuation b = true
    · have hmore : Begun (d.pending ++ [b]) n := by
        refine ⟨lead, rest ++ [b], by rw [hpending]; rfl, hlead, fun c hc => ?_⟩
        rw [List.mem_append, List.mem_singleton] at hc
        rcases hc with hc | rfl
        · exact hrest c hc
        · exact hcont
      rw [if_pos hcont]
      -- The last byte makes the sequence an event, and any other is kept behind the ones before.
      by_cases hlast : d.mUtf8ToFollow - 1 = 0
      · have hlength : (d.pending ++ [b]).length = n := by
          rw [List.length_append, pending, List.length_take, List.length_singleton]
          omega
        simp only [if_pos hlast, htake]
        refine ⟨valid_idle (by simp [h.buffer]), ?_, fun event he => ?_⟩
        · simp [pending]
        · rw [List.mem_singleton] at he
          exact .inl ⟨d.pending ++ [b], hlength.symm ▸ hmore, he, List.infix_rfl⟩
      · simp only [if_neg hlast]
        refine ⟨⟨by simp [h.buffer], .inr ⟨n, ?_, ?_, ?_, ?_⟩⟩, ?_, by simp⟩
        · simp only
          omega
        · simp only
          omega
        · simp only
          omega
        · rw [pending, htake]
          exact hmore
        · rw [pending, htake]
    · obtain ⟨hv, hp, he⟩ := first_valid (b := b) (d := ⟨0, 0, d.mUtf8InputBuffer⟩)
        h.buffer rfl rfl
      rw [if_neg hcont]
      refine ⟨hv, hp.trans (List.suffix_append _ _), fun event hev => ?_⟩
      rcases List.mem_cons.mp hev with rfl | hev
      · exact .inr (.inr ⟨_, rfl⟩)
      · exact (he event hev).mono (List.suffix_append _ _).isInfix

theorem run_valid (h : Valid d) (bytes : List Byte) :
    Valid (d.run bytes).1 ∧ ∀ event ∈ (d.run bytes).2, Origin (d.pending ++ bytes) event := by
  induction bytes generalizing d with
  | nil => exact ⟨h, by simp [run]⟩
  | cons b bytes ih =>
    obtain ⟨hv, hp, he⟩ := step_valid h b
    obtain ⟨hv', he'⟩ := ih hv
    refine ⟨hv', fun event hev => ?_⟩
    have hsplit : d.pending ++ b :: bytes = d.pending ++ [b] ++ bytes := by simp
    rw [hsplit]
    rw [run, List.mem_append] at hev
    rcases hev with hev | hev
    · exact (he event hev).mono (List.prefix_append _ _).isInfix
    · obtain ⟨front, hfront⟩ := hp
      apply (he' event hev).mono
      rw [← hfront, List.append_assoc]
      exact (List.suffix_append _ _).isInfix

/-- Wherever the decoder is, the three bytes are taken as a sequence. -/
theorem run_unchecked (h : Valid d) :
    complete unchecked ∈ (d.run unchecked).2 := by
  have hlead : isContinuation 0xE0#8 = false ∧ isAscii 0xE0#8 = false ∧
      sequenceLength 0xE0#8 = some 3 ∧ isContinuation 0x9F#8 = true ∧
      isContinuation 0xBF#8 = true := by decide
  obtain ⟨h₁, h₂, h₃, h₄, h₅⟩ := hlead
  have hstart : ∃ buffer : List Byte, (d.step 0xE0#8).1 = ⟨2, 1, buffer.set 0 0xE0#8⟩ ∧
      buffer.length = 4 := by
    refine ⟨d.mUtf8InputBuffer, ?_, h.buffer⟩
    rcases h.state with ⟨hfollow, hindex⟩ | ⟨n, hfollow, -, -, -⟩
    · rw [step, if_neg (by omega)]
      simp [first, h₂, h₃, hindex]
    · rw [step, if_pos hfollow, if_neg (by simp [h₁])]
      simp [first, h₂, h₃]
  obtain ⟨buffer, hbuffer, hlen⟩ := hstart
  obtain ⟨w, x, y, z, rfl⟩ : ∃ w x y z, buffer = [w, x, y, z] := by
    match buffer, hlen with
    | [w, x, y, z], _ => exact ⟨w, x, y, z, rfl⟩
  simp only [unchecked, run, hbuffer]
  rw [List.mem_append]
  right
  simp [step, h₄, h₅]

/-- Every sequence is treated as it should be exactly if the three bytes do not come, or what they
decode to is not known. -/
theorem shortest_iff (buffer bytes : List Byte) (hbuffer : buffer.length = 4) :
    (∀ event ∈ ((idle buffer).run bytes).2, Shortest event) ↔
      ¬unchecked <:+: bytes ∨ Platform.getType 0x7FF ≠ .other := by
  have hidle := valid_idle hbuffer
  constructor
  · intro h
    by_contra hno
    rw [not_or, not_not, not_not] at hno
    obtain ⟨⟨front, back, rfl⟩, hother⟩ := hno
    have hmem : complete unchecked ∈ ((idle buffer).run (front ++ unchecked ++ back)).2 := by
      rw [run_append, run_append, List.mem_append, List.mem_append]
      exact .inl (.inr (run_unchecked (run_valid hidle front).1))
    have hbad := h _ hmem
    rw [complete_unchecked hother] at hbad
    have hlong := (hbad (by decide)).2 (by unfold Overlong; decide)
    exact absurd hlong (by decide)
  · intro h event hevent
    rcases (run_valid hidle bytes).2 event hevent with ⟨seq, hseq, rfl, hin⟩ | ⟨c, cp, rfl⟩ | ⟨bs, rfl⟩
    · apply complete_shortest hseq
      rcases h with h | h
      · left
        rintro rfl
        exact h hin
      · exact .inr h
    · intro hlen
      simp at hlen
    · trivial

end Decoder

/-! ## The decoder of the emulator -/

section Emulator

open Decoder

variable [ShortStore]

/-- What the emulator does for an event. -/
def Event.deliver (e : TerminalEmulator) : Event → Java TerminalEmulator
  | .process _ codePoint => e.processCodePoint codePoint
  | .emit _ => do
    let display ← e.toDisplay.emitCodePoint unicodeReplacementChar
    return { e with toDisplay := display }
  | .ignore _ => .ok e

def setDecoder (e : TerminalEmulator) (d : Decoder) : TerminalEmulator :=
  { e with
    mUtf8ToFollow := d.mUtf8ToFollow
    mUtf8Index := d.mUtf8Index
    mUtf8InputBuffer := d.mUtf8InputBuffer }

variable {e : TerminalEmulator} {d : Decoder} {b : Byte}

omit [Platform] [ShortStore] in
theorem decodeSequence_eq {buffer : List Byte} (h : buffer.length = 4) {n : Int} (h₂ : 2 ≤ n)
    (h₄ : n ≤ 4) : decodeSequence buffer n = .ok (value (buffer.take n.toNat)) := by
  obtain ⟨w, x, y, z, rfl⟩ : ∃ w x y z, buffer = [w, x, y, z] := by
    match buffer, h with
    | [w, x, y, z], _ => exact ⟨w, x, y, z, rfl⟩
  obtain rfl | rfl | rfl : n = 2 ∨ n = 3 ∨ n = 4 := by omega
  · rfl
  · rfl
  · rfl

theorem Event.deliver_idle (he : e.Idle) (event : Event) :
    Ensures (fun e' => e'.Idle) (event.deliver e) := by
  cases event with
  | process bytes codePoint => exact TerminalEmulator.processCodePoint_idle he codePoint
  | emit bytes => exact .bind_any fun display => .ok he
  | ignore bytes => exact .ok he

omit [Platform] [ShortStore] in
/-- An idle emulator differs from one with an idle decoder by its buffer at most. -/
theorem setDecoder_idle (he : e.Idle) (buffer : List Byte) :
    setDecoder e ⟨0, 0, buffer⟩ = { e with mUtf8InputBuffer := buffer } := by
  obtain ⟨⟨h₁, h₂⟩, -⟩ := he
  obtain ⟨⟨display, parser⟩, buffer'⟩ := e
  cases parser
  simp only at h₁ h₂
  subst h₁ h₂
  rfl

/-- The buffer of the decoder does not matter to a code point. -/
theorem processCodePoint_buffer (he : e.Idle) (buffer : List Byte) (codePoint : Nat) :
    (setDecoder e ⟨0, 0, buffer⟩).processCodePoint codePoint = (do
      let e' ← e.processCodePoint codePoint
      return setDecoder e' ⟨0, 0, buffer⟩) := by
  have hidle := TerminalEmulator.processCodePoint_idle he codePoint
  rw [setDecoder_idle he]
  unfold TerminalEmulator.processCodePoint at hidle ⊢
  cases ht : e.toTerminal.processCodePoint codePoint with
  | error x => rfl
  | ok t =>
    rw [ht] at hidle
    have h' := setDecoder_idle (hidle _ rfl) buffer
    simp only [ok_bind, pure, Except.pure] at h' ⊢
    rw [h']

/-- The first byte of a sequence, or a byte of its own. -/
theorem processFirstByte_eq (he : e.Idle) {buffer : List Byte} (hbuffer : buffer.length = 4)
    (b : Byte) :
    (setDecoder e ⟨0, 0, buffer⟩).processFirstByte b = (do
      let e' ← (first b ⟨0, 0, buffer⟩).2.foldlM Event.deliver e
      return setDecoder e' (first b ⟨0, 0, buffer⟩).1) := by
  have hset : arraySet buffer 0 b = .ok (buffer.set 0 b) := by
    simp [arraySet, hbuffer]
  have hbuf : (setDecoder e ⟨0, 0, buffer⟩).mUtf8InputBuffer = buffer := rfl
  have hidx : (setDecoder e ⟨0, 0, buffer⟩).mUtf8Index = 0 := rfl
  unfold TerminalEmulator.processFirstByte first
  by_cases hascii : isAscii b = true
  · have hmask : b &&& 0b10000000 = 0 := by simpa [isAscii] using hascii
    rw [if_pos hmask, if_pos hascii, processCodePoint_buffer he]
    simp [Event.deliver]
  · have hmask : ¬b &&& 0b10000000 = 0 := by simpa [isAscii] using hascii
    rw [if_neg hmask, if_neg hascii]
    simp only [hbuf, hidx, hset, ok_bind]
    unfold sequenceLength
    split_ifs with h₂ h₃ h₄
    · rfl
    · rfl
    · rfl
    · rw [processCodePoint_buffer he]
      simp [Event.deliver]

/-- What a byte does is what the decoder has the emulator do. -/
theorem processByte_eq (he : e.Idle) (hd : Valid d) (b : Byte) :
    (setDecoder e d).processByte b = (do
      let e' ← (d.step b).2.foldlM Event.deliver e
      return setDecoder e' (d.step b).1) := by
  have hfollow : (setDecoder e d).mUtf8ToFollow = d.mUtf8ToFollow := rfl
  have hindex : (setDecoder e d).mUtf8Index = d.mUtf8Index := rfl
  have hbuffer : (setDecoder e d).mUtf8InputBuffer = d.mUtf8InputBuffer := rfl
  rcases hd.state with ⟨hf, hi⟩ | ⟨n, hf, hi, hn, lead, rest, hpending, hlead, hrest⟩
  · have hidle : d = ⟨0, 0, d.mUtf8InputBuffer⟩ := by
      cases d
      simp_all
    rw [TerminalEmulator.processByte, hfollow, step, if_neg (by omega), if_neg (by omega)]
    rw [hidle]
    exact processFirstByte_eq he hd.buffer b
  · have hfour : n ≤ 4 := by
      rcases sequenceLength_cases lead hlead with h | h | h <;> omega
    rw [TerminalEmulator.processByte, hfollow, step, if_pos hf, if_pos hf, hindex, hbuffer]
    -- A byte that is no continuation ends the sequence with a replacement, and begins anew.
    by_cases hcont : isContinuation b = true
    · have hmask : b &&& 0b11000000 = 0b10000000 := by simpa [isContinuation] using hcont
      have hset : arraySet d.mUtf8InputBuffer d.mUtf8Index b =
          .ok (d.mUtf8InputBuffer.set d.mUtf8Index.toNat b) := by
        rw [arraySet, if_pos ⟨by omega, by rw [hd.buffer]; omega⟩]
      rw [if_pos hmask, if_pos hcont, hset]
      simp only [ok_bind]
      by_cases hlast : d.mUtf8ToFollow - 1 = 0
      · have hlen : (d.mUtf8InputBuffer.set d.mUtf8Index.toNat b).length = 4 := by
          rw [List.length_set, hd.buffer]
        rw [if_pos hlast, if_pos hlast, decodeSequence_eq hlen (by omega) (by omega)]
        simp only [ok_bind]
        have hlength : ((d.mUtf8InputBuffer.set d.mUtf8Index.toNat b).take
            (d.mUtf8Index + 1).toNat).length = (d.mUtf8Index + 1).toNat := by
          rw [List.length_take, hlen]
          omega
        have hcast : (((d.mUtf8Index + 1).toNat : Nat) : Int) = d.mUtf8Index + 1 := by omega
        have hcomplete : complete ((d.mUtf8InputBuffer.set d.mUtf8Index.toNat b).take
            (d.mUtf8Index + 1).toNat) = match decoded (if isOverlong (value
              ((d.mUtf8InputBuffer.set d.mUtf8Index.toNat b).take (d.mUtf8Index + 1).toNat))
              (d.mUtf8Index + 1) then unicodeReplacementChar else value
              ((d.mUtf8InputBuffer.set d.mUtf8Index.toNat b).take (d.mUtf8Index + 1).toNat)) with
            | none => .ignore ((d.mUtf8InputBuffer.set d.mUtf8Index.toNat b).take
                (d.mUtf8Index + 1).toNat)
            | some codePoint => .process ((d.mUtf8InputBuffer.set d.mUtf8Index.toNat b).take
                (d.mUtf8Index + 1).toNat) codePoint := by
          rw [complete, hlength, hcast]
        rw [hcomplete]
        cases decoded (if isOverlong (value ((d.mUtf8InputBuffer.set d.mUtf8Index.toNat b).take
            (d.mUtf8Index + 1).toNat)) (d.mUtf8Index + 1) then unicodeReplacementChar else value
            ((d.mUtf8InputBuffer.set d.mUtf8Index.toNat b).take (d.mUtf8Index + 1).toNat)) with
        | none => rfl
        | some codePoint =>
          simp only [List.foldlM_cons, List.foldlM_nil, Event.deliver, bind_pure]
          exact processCodePoint_buffer he _ codePoint
      · rw [if_neg hlast, if_neg hlast]
        rfl
    · have hmask : ¬b &&& 0b11000000 = 0b10000000 := by simpa [isContinuation] using hcont
      rw [if_neg hmask, if_neg hcont]
      simp only [List.foldlM_cons, Event.deliver]
      cases hemit : e.toDisplay.emitCodePoint unicodeReplacementChar with
      | error x =>
        have hemit' : (setDecoder e d).toDisplay.emitCodePoint unicodeReplacementChar = .error x := hemit
        rw [hemit']
        rfl
      | ok display =>
        have hemit' : (setDecoder e d).toDisplay.emitCodePoint unicodeReplacementChar = .ok display :=
          hemit
        rw [hemit']
        exact processFirstByte_eq (e := { e with toDisplay := display }) he hd.buffer b

/-- What bytes do is what the decoder has the emulator do. -/
theorem append_eq (he : e.Idle) (hd : Valid d) (bytes : List Byte) :
    (setDecoder e d).append bytes = (do
      let e' ← (d.run bytes).2.foldlM Event.deliver e
      return setDecoder e' (d.run bytes).1) := by
  induction bytes generalizing e d with
  | nil => rfl
  | cons b bytes ih =>
    have hidle : Ensures (fun e' => e'.Idle) ((d.step b).2.foldlM Event.deliver e) :=
      Ensures.foldlM _ (fun e' event _ h => Event.deliver_idle h event) he
    unfold TerminalEmulator.append at ih ⊢
    rw [List.foldlM_cons, processByte_eq he hd, run, List.foldlM_append]
    cases hstep : (d.step b).2.foldlM Event.deliver e with
    | error x => rfl
    | ok e' => exact ih (hidle e' hstep) (step_valid hd b).1

omit [Platform] [ShortStore] in
theorem setDecoder_self (he : e.Idle) : setDecoder e (idle e.mUtf8InputBuffer) = e :=
  setDecoder_idle he e.mUtf8InputBuffer

theorem new_idle (columns rows : Int) (transcriptRows : Option Int) :
    Ensures (fun e => e.Idle) (TerminalEmulator.new columns rows transcriptRows) := by
  unfold TerminalEmulator.new
  apply Ensures.bind_any
  intro main
  apply Ensures.bind_any
  intro alt
  apply Ensures.bind_any
  intro stops
  apply Ensures.bind_any
  intro display
  exact .ok ⟨⟨rfl, rfl⟩, rfl⟩

/-- From an idle decoder, bytes do what the events of the decoder do, and the decoder takes the
shortest form of a scalar value only, exactly if the three bytes that its check lets through do not
come, or what they decode to is not assigned. -/
theorem append_shortest_iff (e : TerminalEmulator) (he : e.Idle) (bytes : List Byte) :
    (e.append bytes = do
      let e' ← ((idle e.mUtf8InputBuffer).run bytes).2.foldlM Event.deliver e
      return setDecoder e' ((idle e.mUtf8InputBuffer).run bytes).1) ∧
    ((∀ event ∈ ((idle e.mUtf8InputBuffer).run bytes).2, Shortest event) ↔
      ¬unchecked <:+: bytes ∨ Platform.getType 0x7FF ≠ .other) := by
  constructor
  · have happend := append_eq he (valid_idle he.2) bytes
    rw [setDecoder_self he] at happend
    exact happend
  · exact shortest_iff e.mUtf8InputBuffer bytes he.2

end Emulator

omit [Platform] in
/-- `C3 A4` is U+00E4. -/
theorem append_shortest_iff_umlaut :
    ∃ e, @TerminalEmulator.new javaShort plainPlatform 2 2 (some 100) = .ok e ∧ e.Idle ∧
      ∀ event ∈ (@Decoder.run plainPlatform (.idle e.mUtf8InputBuffer) [0xC3#8, 0xA4#8]).2,
        Shortest event := by
  have hreturns : (@TerminalEmulator.new javaShort plainPlatform 2 2 (some 100)).isOk = true := by
    decide +kernel
  obtain ⟨e, hnew⟩ := exists_of_isOk hreturns
  have he := @new_idle plainPlatform javaShort 2 2 (some 100) e hnew
  have hiff := @append_shortest_iff plainPlatform javaShort e he [0xC3#8, 0xA4#8]
  exact ⟨e, hnew, he, hiff.2.mpr (.inl (by decide))⟩

omit [Platform] in
/-- `E0 9F BF` is passed on as U+07FF, whose shortest form is `DF BF`. -/
theorem overlong_accepted :
    (@TerminalEmulator.new javaShort plainPlatform 2 2 (some 100) >>= fun e =>
        @TerminalEmulator.append javaShort plainPlatform e unchecked).map
      (fun e => e.mLastEmittedCodePoint) = .ok (some 0x7FF) ∧
    (@Decoder.run plainPlatform (.idle [0, 0, 0, 0]) unchecked).2 = [.process unchecked 0x7FF] ∧
      Overlong unchecked ∧ ¬Shortest (.process unchecked 0x7FF) := by
  refine ⟨by decide +kernel, by decide +kernel, by unfold Overlong; decide, fun h => ?_⟩
  have hlong := (h (by decide)).2 (by unfold Overlong; decide)
  exact absurd hlong (by decide)

end Utf8Input

end XoDos
