import XoDos.WriteCodePoint

/-!
# Text from the keyboard

`sendTextToTerminal` takes a text apart into code points.  It turns a control character into the letter that is
typed for it, `inputCodePoint` turns the letter back, and the session encodes what is left.
-/

namespace XoDos

open TerminalSession (writeCodePoint writeCodePoints)

/-- The client of the view, with its own state. -/
structure TerminalViewClient (σ : Type) where
  readShiftKey : σ → Bool × σ
  readControlKey : σ → Bool × σ
  readAltKey : σ → Bool × σ
  /-- Whether the client takes the code point for itself. -/
  onCodePoint : Int → Bool → σ → Bool × σ
  /-- `Character.toUpperCase` -/
  toUpperCase : Int → Int

namespace TerminalViewClient

/-- No modifier key is held, and the client takes nothing. -/
structure Passive {σ : Type} (client : TerminalViewClient σ) : Prop where
  shift : ∀ s, (client.readShiftKey s).1 = false
  control : ∀ s, (client.readControlKey s).1 = false
  alt : ∀ s, (client.readAltKey s).1 = false
  codePoint : ∀ c down s, (client.onCodePoint c down s).1 = false

end TerminalViewClient

namespace InputConnection

/-- `KEY_EVENT_SOURCE_SOFT_KEYBOARD` -/
def softKeyboard : Int := 0

/-- What a code point stands for while the control key is down. -/
def controlled (codePoint : Int) : Int :=
  if 97 ≤ codePoint ∧ codePoint ≤ 122 then codePoint - 97 + 1
  else if 65 ≤ codePoint ∧ codePoint ≤ 90 then codePoint - 65 + 1
  else if codePoint = 32 ∨ codePoint = 50 then 0
  else if codePoint = 91 ∨ codePoint = 51 then 27
  else if codePoint = 92 ∨ codePoint = 52 then 28
  else if codePoint = 93 ∨ codePoint = 53 then 29
  else if codePoint = 94 ∨ codePoint = 54 then 30
  else if codePoint = 95 ∨ codePoint = 55 ∨ codePoint = 47 then 31
  else if codePoint = 56 then 127
  else codePoint

/-- The ASCII characters for what bluetooth keyboards send instead. -/
def plainAccent (codePoint : Int) : Int :=
  if codePoint = 0x02DC then 0x7E
  else if codePoint = 0x02CB then 0x60
  else if codePoint = 0x02C6 then 0x5E
  else codePoint

/-- The letter that is typed with the control key for a control character. -/
def letterOf (codePoint : Int) : Int :=
  if codePoint = 31 then 95
  else if codePoint = 30 then 94
  else if codePoint = 29 then 93
  else if codePoint = 28 then 92
  else codePoint + 96

variable {σ : Type} (client : TerminalViewClient σ)

/-- `a || b()` -/
def orRead (a : Bool) (read : σ → Bool × σ) (s : σ) : Bool × σ := if a then (true, s) else read s

/-- The state of the client, `mUtf8InputBuffer` and the bytes written. -/
abbrev Sent (σ : Type) := σ × List Byte × List Byte

def inputCodePoint (eventSource codePoint : Int) (controlDownFromEvent leftAltDownFromEvent : Bool)
    (s : σ) (buffer : List Byte) : Java (Sent σ) :=
  let (controlDown, s) := orRead controlDownFromEvent client.readControlKey s
  let (altDown, s) := orRead leftAltDownFromEvent client.readAltKey s
  let (taken, s) := client.onCodePoint codePoint controlDown s
  if taken then .ok (s, buffer, [])
  else
    let codePoint := if controlDown then controlled codePoint else codePoint
    if -1 < codePoint then do
      let codePoint := if softKeyboard < eventSource then plainAccent codePoint else codePoint
      -- If left alt, send escape before the code point.
      let (buffer, bytes) ← writeCodePoint buffer altDown codePoint
      return (s, buffer, bytes)
    else .ok (s, buffer, [])

/-- One code point of the text. -/
def sendCodePoint (codePoint : Int) (s : σ) (buffer : List Byte) : Java (Sent σ) :=
  let (shift, s) := client.readShiftKey s
  let codePoint := if shift then client.toUpperCase codePoint else codePoint
  if codePoint ≤ 31 ∧ codePoint ≠ 27 then
    let codePoint := if codePoint = 10 then 13 else codePoint
    inputCodePoint client softKeyboard (letterOf codePoint) true false s buffer
  else inputCodePoint client softKeyboard codePoint false false s buffer

/-- What a second call writes, after what the first one wrote. -/
def andThen (first : Java (Sent σ)) (next : σ → List Byte → Java (Sent σ)) : Java (Sent σ) := do
  let (s, buffer, bytes) ← first
  let (s, buffer, more) ← next s buffer
  return (s, buffer, bytes ++ more)

def sendTextToTerminal : JavaString → σ → List Byte → Java (Sent σ)
  | [], s, buffer => .ok (s, buffer, [])
  | [u], s, buffer =>
    -- At end of string, with no low surrogate following the high:
    sendCodePoint client (if isHighSurrogate u then unicodeReplacementChar else u : Nat) s buffer
  | u :: l :: rest, s, buffer =>
    if isHighSurrogate u then
      andThen (sendCodePoint client (toCodePoint u l) s buffer) (sendTextToTerminal rest)
    else andThen (sendCodePoint client u s buffer) (sendTextToTerminal (l :: rest))

/-! ## What is written -/

/-- What a code point has become when it is written. -/
def written (c : Nat) : Nat := if c = 0 then 0x60 else if c = 10 then 13 else c

/-- The code points that are written for a text. -/
def typed : JavaString → List Nat
  | [] => []
  | [u] => [if isHighSurrogate u then unicodeReplacementChar else written u]
  | u :: l :: rest =>
    if isHighSurrogate u then toCodePoint u l :: typed rest else written u :: typed (l :: rest)

/-- A code point of the text as the shell is to receive it. -/
def expected (c : Nat) : Nat := if isSurrogate c then unicodeReplacementChar else if c = 10 then 13 else c

/-- The text as the shell is to receive it: only LF and unpaired surrogates are replaced. -/
def received : JavaString → List Nat
  | [] => []
  | [u] => [expected u]
  | u :: l :: rest =>
    if isHighSurrogate u ∧ isSurrogate l ∧ ¬isHighSurrogate l then toCodePoint u l :: received rest
    else expected u :: received (l :: rest)

/-- A text without NUL whose surrogates are paired.  The last one may be a high one that is not. -/
def Sendable : JavaString → Prop
  | [] => True
  | [u] => u ≠ 0 ∧ (isSurrogate u → isHighSurrogate u)
  | u :: l :: rest =>
    if isHighSurrogate u then isSurrogate l ∧ ¬isHighSurrogate l ∧ Sendable rest
    else u ≠ 0 ∧ ¬isSurrogate u ∧ Sendable (l :: rest)

/-- Letters stand for all control characters but NUL and ESC. -/
theorem controlled_letterOf {c : Nat} (h : c ≤ 31) (hesc : c ≠ 27) :
    controlled (letterOf ((if (c : Int) = 10 then 13 else c : Int))) = (written c : Nat) := by
  interval_cases c <;> first | rfl | exact absurd rfl hesc

variable {client}

theorem sendCodePoint_eq (hclient : client.Passive) (c : Nat) (s : σ) (buffer : List Byte) :
    ∃ s', sendCodePoint client c s buffer = do
      let (buffer, bytes) ← writeCodePoint buffer false (written c : Nat)
      return (s', buffer, bytes) := by
  have hinput : ∀ (codePoint : Int) (down : Bool) (s : σ),
      (if down then controlled codePoint else codePoint) = (written c : Nat) →
        ∃ s', inputCodePoint client softKeyboard codePoint down false s buffer = do
          let (buffer, bytes) ← writeCodePoint buffer false (written c : Nat)
          return (s', buffer, bytes) := by
    intro codePoint down s hcode
    have hcontrol : (orRead down client.readControlKey s).1 = down := by
      cases down with
      | false => exact hclient.control s
      | true => rfl
    refine ⟨(client.onCodePoint codePoint down (orRead false client.readAltKey
      (orRead down client.readControlKey s).2).2).2, ?_⟩
    have halt : ∀ s, (orRead false client.readAltKey s).1 = false := hclient.alt
    simp only [inputCodePoint, hcontrol, halt, hclient.codePoint, hcode]
    rw [if_neg Bool.false_ne_true, if_pos (by omega), if_neg (by decide)]
  simp only [sendCodePoint, hclient.shift, Bool.false_eq_true, if_false]
  by_cases hlow : c ≤ 31 ∧ c ≠ 27
  · rw [if_pos (by omega)]
    exact hinput _ true _ (controlled_letterOf hlow.1 hlow.2)
  · rw [if_neg (by omega)]
    have hsame : written c = c := by
      rw [written, if_neg (by omega), if_neg (by omega)]
    apply hinput _ false _
    rw [if_neg Bool.false_ne_true, hsame]

theorem written_of_large {c : Nat} (h : 10 < c) : written c = c := by
  rw [written, if_neg (by omega), if_neg (by omega)]

theorem toCodePoint_large (u l : Nat) : 10 < toCodePoint u l := by
  unfold toCodePoint
  omega

/-- One code point is written, and then the others. -/
theorem andThen_eq (hclient : client.Passive) (c : Nat) {rest : List Nat} {next : σ → List Byte → Java (Sent σ)}
    (hnext : ∀ s buffer, ∃ s', next s buffer = do
      let (buffer, bytes) ← writeCodePoints buffer rest
      return (s', buffer, bytes)) (s : σ) (buffer : List Byte) :
    ∃ s', andThen (sendCodePoint client c s buffer) next = do
      let (buffer, bytes) ← writeCodePoints buffer (written c :: rest)
      return (s', buffer, bytes) := by
  rcases sendCodePoint_eq hclient c s buffer with ⟨s₁, hfirst⟩
  cases hwrite : writeCodePoint buffer false (written c : Nat) with
  | error e => exact ⟨s, by rw [andThen, hfirst, writeCodePoints, hwrite]; rfl⟩
  | ok done =>
    rcases hnext s₁ done.1 with ⟨s₂, hrest⟩
    refine ⟨s₂, ?_⟩
    rw [andThen, hfirst, writeCodePoints, hwrite, ok_bind, ok_bind]
    simp only [ok_bind, pure, Except.pure, hrest]
    cases writeCodePoints done.1 rest <;> rfl

/-- The text is written code point after code point. -/
theorem sendTextToTerminal_eq (hclient : client.Passive) (text : JavaString) (s : σ) (buffer : List Byte) :
    ∃ s', sendTextToTerminal client text s buffer = do
      let (buffer, bytes) ← writeCodePoints buffer (typed text)
      return (s', buffer, bytes) := by
  fun_induction typed text generalizing s buffer with
  | case1 => exact ⟨s, rfl⟩
  | case2 u =>
    have hsingle : written (if isHighSurrogate u then unicodeReplacementChar else u) =
        if isHighSurrogate u then unicodeReplacementChar else written u := by
      split_ifs
      · exact written_of_large (by decide)
      · rfl
    rcases sendCodePoint_eq hclient (if isHighSurrogate u then unicodeReplacementChar else u) s buffer with ⟨s', hs⟩
    refine ⟨s', ?_⟩
    rw [sendTextToTerminal, hs, hsingle, writeCodePoints]
    cases writeCodePoint buffer false ((if isHighSurrogate u then unicodeReplacementChar else written u : Nat) : Int) with
    | error e => rfl
    | ok done => simp [writeCodePoints, ok_bind, pure, Except.pure]
  | case3 u l rest hhigh ih =>
    rw [sendTextToTerminal, if_pos hhigh]
    have hsend := andThen_eq hclient (toCodePoint u l) ih s buffer
    rw [written_of_large (toCodePoint_large u l)] at hsend
    exact hsend
  | case4 u l rest hhigh ih =>
    rw [sendTextToTerminal, if_neg hhigh]
    exact andThen_eq hclient u ih s buffer

/-! ## What arrives -/

theorem isScalar_replacement : Utf8.IsScalar unicodeReplacementChar := by decide

theorem not_isSurrogate {u : Nat} (hu : u < 0x10000) : ¬isSurrogate u ↔ Utf8.IsScalar u := by
  unfold Utf8.IsScalar
  simp only [isSurrogate, Bool.and_eq_true, decide_eq_true_eq]
  omega

theorem isScalar_pair {u l : Nat} (hu : isHighSurrogate u = true) (hl : isSurrogate l = true) :
    Utf8.IsScalar (toCodePoint u l) := by
  simp only [isHighSurrogate, isSurrogate, Bool.and_eq_true, decide_eq_true_eq] at hu hl
  unfold Utf8.IsScalar toCodePoint
  omega

theorem isScalar_expected {u : Nat} (hu : u < 0x10000) : Utf8.IsScalar (expected u) := by
  unfold expected
  split_ifs with hs hlf
  · exact isScalar_replacement
  · decide
  · exact (not_isSurrogate hu).mp hs

theorem isScalar_received {text : JavaString} (htext : ∀ u ∈ text, u < 0x10000) :
    ∀ c ∈ received text, Utf8.IsScalar c := by
  fun_induction received text with
  | case1 => simp
  | case2 u => simpa using isScalar_expected (htext u (by simp))
  | case3 u l rest hpair ih =>
    intro c hc
    rcases List.mem_cons.mp hc with rfl | hc
    · exact isScalar_pair hpair.1 hpair.2.1
    · exact ih (fun v hv => htext v (by simp [hv])) c hc
  | case4 u l rest hpair ih =>
    intro c hc
    rcases List.mem_cons.mp hc with rfl | hc
    · exact isScalar_expected (htext u (by simp))
    · exact ih (fun v hv => htext v (List.mem_cons_of_mem u hv)) c hc

/-- A low surrogate in front of a text is written as it is. -/
theorem typed_low {l : Nat} (rest : JavaString) (hl : ¬isHighSurrogate l) :
    ∃ more, typed (l :: rest) = written l :: more := by
  cases rest with
  | nil => exact ⟨[], by rw [typed, if_neg hl]⟩
  | cons m rest => exact ⟨typed (m :: rest), by rw [typed, if_neg hl]⟩

theorem written_surrogate {l : Nat} (hl : isSurrogate l = true) : ¬Utf8.IsScalar (written l) := by
  simp only [isSurrogate, Bool.and_eq_true, decide_eq_true_eq] at hl
  rw [written_of_large (by omega)]
  unfold Utf8.IsScalar
  omega

/-- A code unit in front of a text is received alone, unless it is half of a pair. -/
theorem received_cons (l : Nat) {rest : JavaString}
    (h : isHighSurrogate l → ∀ m ∈ rest.head?, isHighSurrogate m ∨ ¬isSurrogate m) :
    received (l :: rest) = expected l :: received rest := by
  cases rest with
  | nil => rfl
  | cons m rest =>
    rw [received, if_neg]
    rintro ⟨hl, hm, hlow⟩
    rcases h hl m rfl with hm' | hm'
    · exact hlow hm'
    · exact hm' hm

/-- No more code points are written than are to be received, if all of them can be encoded. -/
theorem typed_length_le {text : JavaString} (h : ∀ c ∈ typed text, Utf8.IsScalar c) :
    (typed text).length ≤ (received text).length ∧
      ∀ u l rest, text = u :: l :: rest → isHighSurrogate u → ¬(isSurrogate l ∧ ¬isHighSurrogate l) →
        (typed text).length < (received text).length := by
  fun_induction typed text with
  | case1 => simp
  | case2 u => simp [received]
  | case3 u l rest hhigh ih =>
    rcases ih (fun c hc => h c (List.mem_cons_of_mem _ hc)) with ⟨hle, -⟩
    by_cases hpair : isSurrogate l ∧ ¬isHighSurrogate l
    · rw [received, if_pos ⟨hhigh, hpair⟩]
      refine ⟨Nat.succ_le_succ hle, ?_⟩
      rintro u' l' rest' htext - hnot
      cases htext
      exact absurd hpair hnot
    · have hrest : isHighSurrogate l → ∀ m ∈ rest.head?, isHighSurrogate m ∨ ¬isSurrogate m := by
        intro _ m hm
        by_contra! hlow
        rcases rest with - | ⟨m', rest⟩
        · cases hm
        · cases hm
          rcases typed_low rest hlow.1 with ⟨more, hmore⟩
          exact written_surrogate hlow.2 (h _ (List.mem_cons_of_mem _ (by rw [hmore]; exact List.mem_cons_self)))
      rw [received, if_neg (fun hboth => hpair hboth.2), received_cons l hrest]
      simp only [List.length_cons]
      refine ⟨by omega, ?_⟩
      intros
      omega
  | case4 u l rest hhigh ih =>
    rcases ih (fun c hc => h c (List.mem_cons_of_mem _ hc)) with ⟨hle, -⟩
    rw [received, if_neg (fun hboth => hhigh hboth.1)]
    refine ⟨Nat.succ_le_succ hle, ?_⟩
    rintro u' l' rest' htext hhigh'
    cases htext
    exact absurd hhigh' hhigh

theorem written_eq_expected {u : Nat} : written u = expected u ↔ u ≠ 0 ∧ ¬isSurrogate u := by
  by_cases hs : isSurrogate u = true
  · have hrange := hs
    simp only [isSurrogate, Bool.and_eq_true, decide_eq_true_eq] at hrange
    rw [expected, if_pos hs, written_of_large (by omega)]
    simp only [hs, not_true, and_false, iff_false]
    unfold unicodeReplacementChar
    omega
  · rw [expected, if_neg hs, written]
    simp only [hs, Bool.false_eq_true, not_false_eq_true, and_true]
    split_ifs <;> omega

theorem typed_scalar {text : JavaString} (htext : ∀ u ∈ text, u < 0x10000) (h : typed text = received text) :
    ∀ c ∈ typed text, Utf8.IsScalar c := by
  rw [h]
  exact isScalar_received htext

/-- What is written for a text is what is to be received, if and only if the text can be sent. -/
theorem typed_eq_iff {text : JavaString} (htext : ∀ u ∈ text, u < 0x10000) :
    typed text = received text ↔ Sendable text := by
  fun_induction typed text with
  | case1 => simp [received, Sendable]
  | case2 u =>
    rw [received, Sendable]
    by_cases hhigh : isHighSurrogate u = true
    · have hrange := hhigh
      simp only [isHighSurrogate, Bool.and_eq_true, decide_eq_true_eq] at hrange
      have hs : isSurrogate u = true := by
        simp only [isSurrogate, Bool.and_eq_true, decide_eq_true_eq]
        omega
      rw [if_pos hhigh, expected, if_pos hs]
      simp only [hhigh, implies_true, and_true, true_iff]
      omega
    · rw [if_neg hhigh, List.cons_eq_cons, written_eq_expected]
      simp [hhigh]
  | case3 u l rest hhigh ih =>
    have ih := ih (fun v hv => htext v (by simp [hv]))
    rw [Sendable, if_pos hhigh]
    by_cases hpair : isSurrogate l ∧ ¬isHighSurrogate l
    · rw [received, if_pos ⟨hhigh, hpair⟩, List.cons_eq_cons, ih]
      simp [hpair]
    · constructor
      · intro h
        have htyped : typed (u :: l :: rest) = received (u :: l :: rest) := by rw [typed, if_pos hhigh, h]
        have hlt := (typed_length_le (typed_scalar htext htyped)).2 u l rest rfl hhigh hpair
        rw [htyped] at hlt
        exact absurd hlt (lt_irrefl _)
      · rintro ⟨hl, hlow, -⟩
        exact absurd ⟨hl, hlow⟩ hpair
  | case4 u l rest hhigh ih =>
    have ih := ih (fun v hv => htext v (List.mem_cons_of_mem u hv))
    rw [Sendable, if_neg hhigh, received, if_neg (fun hboth => hhigh hboth.1), List.cons_eq_cons, ih,
      written_eq_expected, and_assoc]

/-! ## The bytes -/

def utf8 (cs : List Nat) : List Byte := cs.flatMap fun c => (Utf8.encode c).map (BitVec.ofNat 8)

theorem encode_lt {c b : Nat} (hc : Utf8.IsScalar c) (hb : b ∈ Utf8.encode c) : b < 256 := by
  have hmax : c ≤ 0x10FFFF := by
    unfold Utf8.IsScalar at hc
    omega
  unfold Utf8.encode at hb
  split_ifs at hb <;> simp at hb <;> omega

/-- Scalar values can be read back from their bytes. -/
theorem utf8_injective {cs ds : List Nat} (hcs : ∀ c ∈ cs, Utf8.IsScalar c) (hds : ∀ d ∈ ds, Utf8.IsScalar d)
    (h : utf8 cs = utf8 ds) : cs = ds := by
  have hbytes : ∀ l : List Nat, (∀ c ∈ l, Utf8.IsScalar c) → (utf8 l).map BitVec.toNat = l.flatMap Utf8.encode := by
    intro l hl
    rw [utf8, List.map_flatMap]
    apply List.flatMap_congr
    intro c hc
    rw [List.map_map]
    conv_rhs => rw [← List.map_id (Utf8.encode c)]
    apply List.map_congr_left
    intro b hb
    exact Utf8Input.toNat_ofNat (encode_lt (hl c hc) hb)
  replace h : cs.flatMap Utf8.encode = ds.flatMap Utf8.encode := by
    rw [← hbytes cs hcs, ← hbytes ds hds, h]
  induction cs generalizing ds with
  | nil =>
    rcases ds with - | ⟨d, ds⟩
    · rfl
    · simp [Utf8.encode_ne_nil] at h
  | cons c cs ih =>
    rcases ds with - | ⟨d, ds⟩
    · simp [Utf8.encode_ne_nil] at h
    · rw [List.flatMap_cons, List.flatMap_cons] at h
      have hdecode := Utf8.decode_encode (hcs c List.mem_cons_self) (cs.flatMap Utf8.encode)
      rw [h, Utf8.decode_encode (hds d List.mem_cons_self)] at hdecode
      rcases Prod.mk.inj (Option.some.inj hdecode) with ⟨hhead, htail⟩
      rw [hhead, ih (fun x hx => hcs x (List.mem_cons_of_mem c hx)) (fun x hx => hds x (List.mem_cons_of_mem d hx))
        htail.symm]

theorem writeCodePoint_scalar {buffer : List Byte} {c : Nat} {done : List Byte × List Byte}
    (h : writeCodePoint buffer false c = .ok done) : Utf8.IsScalar c := by
  by_contra hscalar
  unfold Utf8.IsScalar at hscalar
  rw [writeCodePoint, if_pos (by omega)] at h
  cases h

theorem writeCodePoints_scalar {buffer : List Byte} {cs : List Nat} {done : List Byte × List Byte}
    (h : writeCodePoints buffer cs = .ok done) : ∀ c ∈ cs, Utf8.IsScalar c := by
  induction cs generalizing buffer done with
  | nil => simp
  | cons c cs ih =>
    rw [writeCodePoints] at h
    rcases bind_eq_ok.mp h with ⟨first, hfirst, hmore⟩
    rcases bind_eq_ok.mp hmore with ⟨more, hrest, -⟩
    intro d hd
    rcases List.mem_cons.mp hd with rfl | hd
    · exact writeCodePoint_scalar hfirst
    · exact ih hrest d hd

/-- With a passive client, the bytes written are those of the text as it is to be received. -/
def SendsExactly (text : JavaString) : Prop :=
  ∀ (σ : Type) (client : TerminalViewClient σ), client.Passive → ∀ (s : σ) (buffer : List Byte), buffer.length = 5 →
    ∃ s' buffer', sendTextToTerminal client text s buffer = .ok (s', buffer', utf8 (received text))

/-- A client that does nothing. -/
def idleClient : TerminalViewClient Unit where
  readShiftKey s := (false, s)
  readControlKey s := (false, s)
  readAltKey s := (false, s)
  onCodePoint _ _ s := (false, s)
  toUpperCase c := c

theorem idleClient_passive : idleClient.Passive where
  shift _ := rfl
  control _ := rfl
  alt _ := rfl
  codePoint _ _ _ := rfl

/-- A text is sent exactly if and only if it has no NUL and its surrogates are paired, but for a high one at the
end. -/
theorem sendsExactly_iff {text : JavaString} (htext : ∀ u ∈ text, u < 0x10000) :
    SendsExactly text ↔ Sendable text := by
  rw [← typed_eq_iff htext]
  constructor
  · intro h
    rcases h Unit idleClient idleClient_passive () (List.replicate 5 0) rfl with ⟨s', buffer', hsent⟩
    rcases sendTextToTerminal_eq idleClient_passive text () (List.replicate 5 0) with ⟨s₁, heq⟩
    rw [heq] at hsent
    rcases bind_eq_ok.mp hsent with ⟨done, hwrite, hdone⟩
    have hscalar := writeCodePoints_scalar hwrite
    have hbuffer : (List.replicate 5 (0 : Byte)).length = 5 := rfl
    rcases Utf8Input.writeCodePoints_eq hbuffer hscalar with ⟨buffer₁, hbytes⟩
    rw [hwrite] at hbytes
    obtain rfl := Except.ok.inj hbytes
    have hsame := (Prod.mk.inj (Prod.mk.inj (Except.ok.inj hdone)).2).2
    exact utf8_injective hscalar (isScalar_received htext) hsame
  · intro h σ client hclient s buffer hbuffer
    rcases sendTextToTerminal_eq hclient text s buffer with ⟨s', heq⟩
    rcases Utf8Input.writeCodePoints_eq hbuffer (typed_scalar htext h) with ⟨buffer', hwrite⟩
    refine ⟨s', buffer', ?_⟩
    rw [heq, hwrite, h]
    rfl

/-- ESC, LF, a control character that is typed with a sign, and a character of two units. -/
theorem sendsExactly_iff_control : SendsExactly [0x1B, 0x0A, 0x1F, 0xD83D, 0xDE00] :=
  (sendsExactly_iff (by decide)).mpr (by simp [Sendable, isHighSurrogate, isSurrogate])

end InputConnection

end XoDos
