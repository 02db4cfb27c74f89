import XoDos.Java
import XoDos.Run
import XoDos.Utf8

/-!
# Composing text

The X server knows no composing text, so `replaceText` types the text as it is
composed and deletes it again.  What is typed goes through UTF-8 to the native
`sendTextEvent`, which sends a code point at a time.

The client is a text: what is sent is appended to it, and the delete key removes
its last code point.
-/

namespace XoDos

/-- A well-formed string, as its code points. -/
structure Text where
  codePoints : List Nat
  scalar : ∀ c ∈ codePoints, isScalar c = true

namespace Text

def empty : Text := ⟨[], by simp⟩

/-- The code units of the string. -/
def chars (t : Text) : JavaString := t.codePoints.flatMap toChars

end Text

/-- A code unit that is encoded alone.  Half a pair becomes a question mark. -/
def encodeUnit (u : Nat) : List Nat := if isSurrogate u then [0x3F] else Utf8.encode u

/-- `getBytes(UTF_8)` -/
def getBytes : JavaString → List Nat
  | [] => []
  | [u] => encodeUnit u
  | u :: l :: rest =>
    if isHighSurrogate u ∧ isSurrogate l ∧ ¬isHighSurrogate l then
      Utf8.encode (toCodePoint u l) ++ getBytes rest
    else encodeUnit u ++ getBytes (l :: rest)

theorem getBytes_cons {u : Nat} (hu : isSurrogate u = false) (rest : JavaString) :
    getBytes (u :: rest) = Utf8.encode u ++ getBytes rest := by
  have hhigh : isHighSurrogate u = false := by
    simp only [isSurrogate, isHighSurrogate, Bool.and_eq_false_iff, decide_eq_false_iff_not] at hu ⊢
    omega
  cases rest with
  | nil => simp [getBytes, encodeUnit, hu]
  | cons l rest =>
    rw [getBytes, if_neg (by simp [hhigh]), encodeUnit, hu]
    rfl

/-- A code unit that is no half of a pair parts a text. -/
theorem getBytes_append (t : JavaString) {u : Nat} (hu : isSurrogate u = false) (rest : JavaString) :
    getBytes (t ++ u :: rest) = getBytes t ++ getBytes (u :: rest) := by
  fun_induction getBytes t with
  | case1 => rfl
  | case2 v =>
    rw [List.cons_append, List.nil_append, getBytes, if_neg (by simp [hu])]
  | case3 v l more hpair ih =>
    rw [List.cons_append, List.cons_append, getBytes, if_pos hpair, ih, List.append_assoc]
  | case4 v l more hpair ih =>
    rw [List.cons_append, List.cons_append, getBytes, if_neg hpair, ← List.cons_append, ih,
      List.append_assoc]

theorem mem_encode {b c : Nat} (hb : b < 0x80) (h : b ∈ Utf8.encode c) : c = b := by
  unfold Utf8.encode at h
  split_ifs at h <;> simp at h <;> omega

/-- The bytes below 0x80 are characters of the text, but for the question marks. -/
theorem mem_of_mem_getBytes {t : JavaString} {b : Nat} (hb : b < 0x80) (hmark : b ≠ 0x3F)
    (h : b ∈ getBytes t) : b ∈ t := by
  have hunit : ∀ u, b ∈ encodeUnit u → u = b := by
    intro u hu
    unfold encodeUnit at hu
    split_ifs at hu
    · exact absurd (List.mem_singleton.mp hu) hmark
    · exact mem_encode hb hu
  fun_induction getBytes t with
  | case1 => exact h
  | case2 u =>
    rw [hunit u h]
    exact List.mem_singleton.mpr rfl
  | case3 u l more hpair ih =>
    rcases List.mem_append.mp h with h | h
    · have hascii := mem_encode hb h
      simp only [toCodePoint] at hascii
      omega
    · exact List.mem_cons_of_mem _ (List.mem_cons_of_mem _ (ih h))
  | case4 u l more hpair ih =>
    rcases List.mem_append.mp h with h | h
    · rw [hunit u h]
      exact List.mem_cons_self
    · exact List.mem_cons_of_mem _ (ih h)

theorem getBytes_eq_nil {t : JavaString} : getBytes t = [] ↔ t = [] := by
  have hunit : ∀ u, encodeUnit u ≠ [] := by
    intro u
    unfold encodeUnit
    split_ifs
    · simp
    · exact Utf8.encode_ne_nil u
  fun_cases getBytes t with
  | case1 => simp
  | case2 u => simp [hunit u]
  | case3 u l more hpair => simp [Utf8.encode_ne_nil]
  | case4 u l more hpair => simp [hunit u]

/-- The loop of the native `sendTextEvent`: the code points that it sends. -/
def sendLoop : Nat → List Nat → List Nat
  | 0, _ => []
  | _ + 1, [] => []
  | n + 1, b :: bytes =>
    if b = 0 then []
    else
      match Utf8.decode (b :: bytes) with
      | none => []
      | some (wc, rest) => wc :: sendLoop n rest

def sendTextEvent (text : List Nat) : List Nat := sendLoop text.length text

/-- The delete key, `n` times. -/
def sendDeletes : Nat → List Nat → List Nat
  | 0, client => client
  | n + 1, client => sendDeletes n client.dropLast

structure Ime where
  currentComposingText : Option Text
  client : List Nat
  /-- What was committed or finished so far. -/
  committed : List Nat

namespace Ime

/-- The composing text, or no text. -/
def composing (s : Ime) : Text := s.currentComposingText.getD .empty

/-- One of the texts starts with the other, and none is empty. -/
def continues (oldText newText : JavaString) : Bool :=
  0 < oldText.length && 0 < newText.length &&
    (newText.isPrefixOf oldText || oldText.isPrefixOf newText)

/-- What `replaceText` makes of the client. -/
def replaced (client : List Nat) (oldText newText : JavaString) : List Nat :=
  if continues oldText newText then
    (newText.drop oldText.length).foldl (fun client u => client ++ sendTextEvent (getBytes [u]))
      (sendDeletes (oldText.length - newText.length) client)
  else sendDeletes oldText.length client ++ sendTextEvent (getBytes newText)

def replaceText (s : Ime) (newText : Text) (reuse : Bool) : Ime :=
  { s with
    client := replaced s.client s.composing.chars newText.chars
    currentComposingText := if reuse then some newText else none }

def setComposingText (s : Ime) (text : Text) : Ime := s.replaceText text true

def commitText (s : Ime) (text : Text) : Ime :=
  { s.replaceText text false with committed := s.committed ++ text.codePoints }

def finishComposingText (s : Ime) : Ime :=
  { s with
    currentComposingText := none
    committed := s.committed ++ s.composing.codePoints }

inductive Call where
  | setComposingText (text : Text)
  | commitText (text : Text)
  | finishComposingText

def step (s : Ime) : Call → Ime
  | .setComposingText text => s.setComposingText text
  | .commitText text => s.commitText text
  | .finishComposingText => s.finishComposingText

/-- The client shows what was composed. -/
def Shows (s : Ime) : Prop := s.client = s.committed ++ s.composing.codePoints

/-- Only code points of one unit. -/
def Basic (codePoints : List Nat) : Prop := ∀ c ∈ codePoints, c < 0x10000

/-- The condition on a new text: it has no U+0000, no code point of two units is deleted unless
there is no other text to delete, and none is appended. -/
def Replaceable (s : Ime) (text : Text) : Prop :=
  0 ∉ text.codePoints ∧
    if continues s.composing.chars text.chars then
      Basic (s.composing.codePoints.drop text.codePoints.length) ∧
        Basic (text.codePoints.drop s.composing.codePoints.length)
    else s.committed = [] ∨ Basic s.composing.codePoints

def Sound (s : Ime) : Call → Prop
  | .setComposingText text | .commitText text => s.Replaceable text
  | .finishComposingText => True

/-! ## Strings -/

variable {c : Nat} {t t' : List Nat}

theorem encodeUnit_of_scalar (hc : isScalar c = true) : encodeUnit c = Utf8.encode c := by
  have hnot : isSurrogate c = false := by
    rw [isScalar_iff] at hc
    simp [isSurrogate]
    omega
  simp [encodeUnit, hnot]

/-- The units of a code point, before other units. -/
theorem getBytes_toChars (hc : isScalar c = true) (rest : JavaString) :
    getBytes (toChars c ++ rest) = Utf8.encode c ++ getBytes rest := by
  have hrange := isScalar_iff.mp hc
  unfold toChars
  split_ifs with hbasic
  · have hhigh : isHighSurrogate c = false := by
      simp [isHighSurrogate]
      omega
    cases rest with
    | nil => simp [getBytes, encodeUnit_of_scalar hc]
    | cons l rest => simp [getBytes, hhigh, encodeUnit_of_scalar hc]
  · have hhigh : isHighSurrogate (0xD800 + (c - 0x10000) / 0x400) = true := by
      simp [isHighSurrogate]
      omega
    have hlow : isSurrogate (0xDC00 + (c - 0x10000) % 0x400) = true ∧
        ¬isHighSurrogate (0xDC00 + (c - 0x10000) % 0x400) = true := by
      simp [isSurrogate, isHighSurrogate]
      omega
    have hpair : toCodePoint (0xD800 + (c - 0x10000) / 0x400) (0xDC00 + (c - 0x10000) % 0x400) =
        c := by
      unfold toCodePoint
      omega
    simp only [List.cons_append, List.nil_append, getBytes]
    rw [if_pos ⟨hhigh, hlow⟩, hpair]

theorem getBytes_spell (ht : ∀ c ∈ t, isScalar c = true) :
    getBytes (t.flatMap toChars) = t.flatMap Utf8.encode := by
  induction t with
  | nil => rfl
  | cons c t ih =>
    rw [List.flatMap_cons, List.flatMap_cons, getBytes_toChars (ht c (by simp)),
      ih fun x hx => ht x (by simp [hx])]

theorem sendLoop_encoded (ht : ∀ c ∈ t, isScalar c = true) (hzero : 0 ∉ t) (n : Nat)
    (hn : (t.flatMap Utf8.encode).length ≤ n) : sendLoop n (t.flatMap Utf8.encode) = t := by
  induction t generalizing n with
  | nil => cases n <;> rfl
  | cons c t ih =>
    obtain ⟨b, bytes, hencode, hb⟩ := Utf8.encode_head (c := c) (by rintro rfl; simp at hzero)
    have hdecode := Utf8.decode_encode (isScalar_iff.mp (ht c (by simp))) (t.flatMap Utf8.encode)
    rw [List.flatMap_cons] at hn ⊢
    rw [hencode, List.cons_append] at hn hdecode ⊢
    simp only [List.length_cons, List.length_append] at hn
    obtain ⟨n, rfl⟩ : ∃ m, n = m + 1 := ⟨n - 1, by omega⟩
    rw [sendLoop, if_neg hb, hdecode]
    simp only
    rw [ih (fun x hx => ht x (by simp [hx])) (fun h => hzero (by simp [h])) n (by omega)]

/-- A text without U+0000 arrives as it is. -/
theorem sendTextEvent_spell (ht : ∀ c ∈ t, isScalar c = true) (hzero : 0 ∉ t) :
    sendTextEvent (getBytes (t.flatMap toChars)) = t := by
  rw [getBytes_spell ht]
  exact sendLoop_encoded ht hzero _ le_rfl

theorem toChars_basic (hc : c < 0x10000) : toChars c = [c] := by
  simp [toChars, hc]

theorem spell_basic (ht : Basic t) : t.flatMap toChars = t := by
  induction t with
  | nil => rfl
  | cons c t ih =>
    rw [List.flatMap_cons, toChars_basic (ht c (by simp)), ih fun x hx => ht x (by simp [hx])]
    rfl

theorem sendDeletes_eq (n : Nat) (client : List Nat) :
    sendDeletes n client = client.take (client.length - n) := by
  induction n generalizing client with
  | zero => simp [sendDeletes]
  | succ n ih =>
    rw [sendDeletes, ih, List.length_dropLast, List.dropLast_eq_take, List.take_take]
    congr 1
    omega

theorem sendDeletes_append (client deleted : List Nat) :
    sendDeletes deleted.length (client ++ deleted) = client := by
  rw [sendDeletes_eq]
  simp

/-- The units of a string tell where its code points end. -/
theorem toChars_prefix {c' : Nat} {rest rest' : JavaString} (hc : isScalar c = true)
    (hc' : isScalar c' = true) (h : toChars c ++ rest <+: toChars c' ++ rest') :
    c = c' ∧ rest <+: rest' := by
  rcases toChars_cases hc with ⟨hone, hlow, -⟩ | ⟨hi, lo, hpair, hhigh, hcode, -⟩ <;>
    rcases toChars_cases hc' with ⟨hone', hlow', -⟩ | ⟨hi', lo', hpair', hhigh', hcode', -⟩
  · rw [hone, hone'] at h
    exact List.cons_prefix_cons.mp h
  · rw [hone, hpair'] at h
    have heq := (List.cons_prefix_cons.mp h).1
    rw [heq, hhigh'] at hlow
    cases hlow
  · rw [hpair, hone'] at h
    have heq := (List.cons_prefix_cons.mp h).1
    rw [← heq, hhigh] at hlow'
    cases hlow'
  · rw [hpair, hpair'] at h
    obtain ⟨hhi, htail⟩ := List.cons_prefix_cons.mp h
    obtain ⟨hlo, hrest⟩ := List.cons_prefix_cons.mp htail
    rw [hhi, hlo, hcode'] at hcode
    exact ⟨hcode.symm, hrest⟩

theorem spell_isPrefix (ht : ∀ c ∈ t, isScalar c = true) (ht' : ∀ c ∈ t', isScalar c = true) :
    t.flatMap toChars <+: t'.flatMap toChars ↔ t <+: t' := by
  constructor
  · intro h
    induction t generalizing t' with
    | nil => exact List.nil_prefix
    | cons c t ih =>
      cases t' with
      | nil =>
        have hlen := h.length_le
        have := charCount_pos c
        simp at hlen
        omega
      | cons c' t' =>
        rw [List.flatMap_cons, List.flatMap_cons] at h
        obtain ⟨hsame, htail⟩ := toChars_prefix (ht c (by simp)) (ht' c' (by simp)) h
        exact List.cons_prefix_cons.mpr ⟨hsame, ih (fun x hx => ht x (by simp [hx]))
          (fun x hx => ht' x (by simp [hx])) htail⟩
  · rintro ⟨rest, rfl⟩
    rw [List.flatMap_append]
    exact List.prefix_append _ _

/-! ## One call -/

theorem foldl_send (ht : ∀ c ∈ t, isScalar c = true) (hzero : 0 ∉ t) (hbasic : Basic t)
    (client : List Nat) :
    t.foldl (fun client u => client ++ sendTextEvent (getBytes [u])) client = client ++ t := by
  induction t generalizing client with
  | nil => simp
  | cons c t ih =>
    have hone : sendTextEvent (getBytes [c]) = [c] := by
      have hsend := @sendTextEvent_spell [c] (fun x hx => ht x (by simp_all))
        (fun h => hzero (by simp_all))
      rwa [spell_basic fun x hx => hbasic x (by simp_all)] at hsend
    rw [List.foldl_cons, hone, ih (fun x hx => ht x (by simp [hx])) (fun h => hzero (by simp [h]))
      (fun x hx => hbasic x (by simp [hx]))]
    simp

variable {s : Ime} {text : Text}

theorem length_le_spell (t : List Nat) : t.length ≤ (t.flatMap toChars).length := by
  induction t with
  | nil => simp
  | cons c t ih =>
    have := charCount_pos c
    simp only [List.flatMap_cons, List.length_cons, List.length_append, toChars_length]
    omega

/-- The client shows the new text after what was there before the old one. -/
theorem replaced_shows (hs : s.Shows) (h : s.Replaceable text) :
    replaced s.client s.composing.chars text.chars = s.committed ++ text.codePoints := by
  obtain ⟨hzero, hrest⟩ := h
  unfold replaced
  rw [show s.client = s.committed ++ s.composing.codePoints from hs]
  split_ifs at hrest ⊢ with hcontinues
  · obtain ⟨hdeleted, hadded⟩ := hrest
    simp only [continues, Bool.and_eq_true, Bool.or_eq_true, List.isPrefixOf_iff_prefix] at hcontinues
    unfold Text.chars at hcontinues ⊢
    rcases hcontinues.2 with hshrinks | hgrows
    · obtain ⟨deleted, hdel⟩ := (spell_isPrefix text.scalar s.composing.scalar).mp hshrinks
      rw [← hdel, List.drop_left] at hdeleted
      rw [← hdel, List.flatMap_append, spell_basic hdeleted,
        List.drop_eq_nil_of_le (by simp), List.length_append, Nat.add_sub_cancel_left,
        ← List.append_assoc, sendDeletes_append]
      rfl
    · obtain ⟨added, hadd⟩ := (spell_isPrefix s.composing.scalar text.scalar).mp hgrows
      rw [← hadd, List.drop_left] at hadded
      rw [← hadd] at hzero
      have hscalar : ∀ c ∈ added, isScalar c = true := fun c hc =>
        text.scalar c (hadd ▸ List.mem_append_right _ hc)
      rw [← hadd, List.flatMap_append, List.drop_left, spell_basic hadded,
        foldl_send hscalar (fun h => hzero (List.mem_append_right _ h)) hadded,
        List.length_append, Nat.sub_eq_zero_of_le (Nat.le_add_right _ _)]
      simp [sendDeletes]
  · rw [show sendTextEvent (getBytes text.chars) = _ from sendTextEvent_spell text.scalar hzero]
    congr 1
    unfold Text.chars
    rcases hrest with hnone | hbasic
    · have hlen := length_le_spell s.composing.codePoints
      rw [hnone, List.nil_append, sendDeletes_eq, Nat.sub_eq_zero_of_le hlen, List.take_zero]
    · rw [spell_basic hbasic, sendDeletes_append]

theorem step_shows {call : Call} (hs : s.Shows) (h : s.Sound call) : (s.step call).Shows := by
  cases call with
  | setComposingText text => exact replaced_shows hs h
  | commitText text =>
    have hreplaced := replaced_shows hs h
    change replaced s.client s.composing.chars text.chars = (s.committed ++ text.codePoints) ++ []
    rw [hreplaced, List.append_nil]
  | finishComposingText =>
    change s.client = (s.committed ++ s.composing.codePoints) ++ []
    rw [List.append_nil]
    exact hs

/-! ## Runs -/

/-- No text yet. -/
def start : Ime := ⟨none, [], []⟩

/-- If every text may be replaced as it is, the client shows after each call what was committed,
and then what is composed. -/
theorem client_shows {calls : List Call} (h : Run.Along step Sound start calls) :
    ∀ earlier later, calls = earlier ++ later → (Run.after step start earlier).Shows := by
  intro earlier later hsplit
  subst hsplit
  exact h.everywhere (fun _ _ => step_shows) rfl

/-- A text of one code point. -/
def single (c : Nat) (hc : isScalar c = true) : Text := ⟨[c], fun x hx => by simp_all⟩

def pair (c d : Nat) (hc : isScalar c = true) (hd : isScalar d = true) : Text :=
  ⟨[c, d], fun x hx => by
    rcases List.mem_pair.mp hx with rfl | rfl
    · exact hc
    · exact hd⟩

/-- The letter a is composed and becomes a word. -/
theorem client_shows_word :
    (Run.after step start [.setComposingText (single 0x61 rfl),
      .commitText (pair 0x61 0x62 rfl rfl)]).client = [0x61, 0x62] := by
  have hrun : Run.Along step Sound start [.setComposingText (single 0x61 rfl),
      .commitText (pair 0x61 0x62 rfl rfl)] :=
    ⟨⟨by decide, .inl rfl⟩, ⟨by decide, by
      rw [if_pos (by decide +kernel)]
      constructor <;> intro c hc <;> revert c <;> decide⟩, trivial⟩
  exact client_shows hrun _ [] rfl

/-- A smiley is appended to the letter a: the client gets two question marks. -/
theorem emoji_garbled :
    let s := Run.after step start [.setComposingText (single 0x61 rfl),
      .setComposingText (pair 0x61 0x1F600 rfl rfl)]
    s.client = [0x61, 0x3F, 0x3F] ∧ ¬s.Shows := by
  intro s
  have hclient : s.client = [0x61, 0x3F, 0x3F] := by decide +kernel
  refine ⟨hclient, fun hshows => ?_⟩
  rw [show s.client = s.committed ++ s.composing.codePoints from hshows] at hclient
  exact absurd hclient (by decide +kernel)

end Ime

end XoDos
