import XoDos.Outcome

/-!
# The Java machine underneath

Exceptions, arrays with their bounds checks, UTF-16 text and the narrowing
conversions of the Java virtual machine.  Arrays are lists, and a Java `char`
is the number of its code unit.

An assignment to a `short` field goes through the class `ShortStore`.  The
instance `javaShort` wraps silently, as Java does.  `trapShort` is the same
machine with an overflow check, against which silent runs are compared.
-/

namespace XoDos

inductive JavaException where
  | illegalArgument
  | arrayIndexOutOfBounds
  | stringIndexOutOfBounds
  | nullPointer
  | arithmetic
  | negativeArraySize
  | stackOverflow
  | classCast
  /-- Not a Java exception: the verdict of the checking machine `trapShort`. -/
  | shortOverflow
deriving DecidableEq, Repr

abbrev Java := Except JavaException

/-- A Java `byte`. -/
abbrev Byte := BitVec 8

/-- The text of a Java `String` or `StringBuilder`, as UTF-16 code units. -/
abbrev JavaString := List Nat

/-- A Java string literal of ASCII characters. -/
def ascii (s : String) : JavaString := s.toList.map Char.toNat

/-! ## Arrays -/

section Arrays

variable {α : Type}

/-- `a[i]` -/
def arrayGet (a : List α) (i : Int) : Java α :=
  if 0 ≤ i then
    match a[i.toNat]? with
    | some x => .ok x
    | none => .error .arrayIndexOutOfBounds
  else .error .arrayIndexOutOfBounds

/-- `a[i] = x` -/
def arraySet (a : List α) (i : Int) (x : α) : Java (List α) :=
  if 0 ≤ i ∧ i < a.length then .ok (a.set i.toNat x) else .error .arrayIndexOutOfBounds

/-- `System.arraycopy`, which behaves as if it copied through a temporary array. -/
def arraycopy (src : List α) (srcPos : Int) (dst : List α) (dstPos len : Int) : Java (List α) :=
  if srcPos < 0 ∨ dstPos < 0 ∨ len < 0 ∨ src.length < srcPos + len ∨ dst.length < dstPos + len then
    .error .arrayIndexOutOfBounds
  else
    .ok (dst.take dstPos.toNat ++ (src.drop srcPos.toNat).take len.toNat ++
      dst.drop (dstPos + len).toNat)

/-- `Arrays.fill(a, fromIndex, toIndex, x)` -/
def arraysFill (a : List α) (fromIndex toIndex : Int) (x : α) : Java (List α) :=
  if toIndex < fromIndex then .error .illegalArgument
  else if fromIndex < 0 ∨ a.length < toIndex then .error .arrayIndexOutOfBounds
  else
    .ok (a.take fromIndex.toNat ++ List.replicate (toIndex - fromIndex).toNat x ++
      a.drop toIndex.toNat)

/-- `new T[n]`, filled with the default value. -/
def newArray (n : Int) (default : α) : Java (List α) :=
  if n < 0 then .error .negativeArraySize else .ok (List.replicate n.toNat default)

theorem arrayGet_ok {a : List α} {i : Int} {x : α} (h : 0 ≤ i) (hx : a[i.toNat]? = some x) :
    arrayGet a i = .ok x := by
  simp [arrayGet, h, hx]

theorem arrayGet_eq_ok {a : List α} {i : Int} {x : α} :
    arrayGet a i = .ok x ↔ 0 ≤ i ∧ a[i.toNat]? = some x := by
  constructor
  · intro h
    unfold arrayGet at h
    split_ifs at h with hi
    split at h
    · cases h
      exact ⟨hi, by assumption⟩
    · cases h
  · exact fun h => arrayGet_ok h.1 h.2

/-- An index in range reads an element of the array. -/
theorem arrayGet_returns {a : List α} {i : Int} (h : 0 ≤ i) (hi : i < a.length) :
    ∃ x ∈ a, arrayGet a i = .ok x := by
  have hn : i.toNat < a.length := by omega
  exact ⟨a[i.toNat], List.getElem_mem hn, arrayGet_ok h (List.getElem?_eq_getElem hn)⟩

theorem arraySet_ok {a : List α} {i : Int} (x : α) (h : 0 ≤ i) (hi : i < a.length) :
    arraySet a i x = .ok (a.set i.toNat x) := by
  simp [arraySet, h, hi]

theorem arraySet_eq_ok {a b : List α} {i : Int} {x : α} :
    arraySet a i x = .ok b ↔ (0 ≤ i ∧ i < a.length) ∧ b = a.set i.toNat x := by
  unfold arraySet
  split_ifs with h
  · simp [h, eq_comm]
  · simp [h]

theorem arraycopy_ok {src dst : List α} {srcPos dstPos len : Int} (h₁ : 0 ≤ srcPos)
    (h₂ : 0 ≤ dstPos) (h₃ : 0 ≤ len) (h₄ : srcPos + len ≤ src.length)
    (h₅ : dstPos + len ≤ dst.length) :
    arraycopy src srcPos dst dstPos len =
      .ok (dst.take dstPos.toNat ++ (src.drop srcPos.toNat).take len.toNat ++
        dst.drop (dstPos + len).toNat) := by
  rw [arraycopy, if_neg]
  omega

end Arrays

/-! ## Narrowing -/

/-- `(int) n` of a mathematical integer: the low 32 bits, read as signed. -/
def toInt32 (n : Int) : Int := (n + 2 ^ 31) % 2 ^ 32 - 2 ^ 31

/-- `(short) n`: the low 16 bits, read as signed. -/
def toShort (n : Int) : Int := (n + 32768) % 65536 - 32768

/-- How a value is assigned to a `short` field. -/
class ShortStore where
  store : Int → Java Int

/-- Java drops the high bits without notice. -/
instance javaShort : ShortStore := ⟨fun n => .ok (toShort n)⟩

/-- The checking machine stops instead of dropping a bit. -/
@[reducible] def trapShort : ShortStore :=
  ⟨fun n => if toShort n = n then .ok n else .error .shortOverflow⟩

theorem toShort_eq_self {n : Int} (h : -32768 ≤ n) (h' : n ≤ 32767) : toShort n = n := by
  unfold toShort
  omega

theorem toShort_eq_self_iff {n : Int} : toShort n = n ↔ -32768 ≤ n ∧ n ≤ 32767 := by
  unfold toShort
  omega

theorem javaShort_store (n : Int) : javaShort.store n = .ok (toShort n) := rfl

theorem trapShort_store (n : Int) :
    trapShort.store n = if toShort n = n then .ok n else .error .shortOverflow := rfl

/-- A value survives the store, on either machine, unless the checking one stops. -/
theorem store_cases (n : Int) :
    trapShort.store n = .error .shortOverflow ∨
      (javaShort.store n = .ok n ∧ trapShort.store n = .ok n) := by
  rw [javaShort_store, trapShort_store]
  by_cases h : toShort n = n
  · exact .inr ⟨by rw [h], if_pos h⟩
  · exact .inl (if_neg h)

/-- The judgement that a program returns a value with `Q`, or an exception if `E`, unless a `short`
overflows on the way, which happens only if `T`. -/
abbrev Runs {α : Type} (T E : Prop) (Q : α → Prop) (program : ShortStore → Java α) : Prop :=
  Lockstep JavaException.shortOverflow T E Q (program javaShort) (program trapShort)

/-- A store of a non-negative number overflows when the number is too large. -/
theorem store_runs {T E : Prop} {n : Int} (h : 0 ≤ n) (hT : 32767 < n → T) :
    Runs T E (fun k => k = n) fun m => m.store n := by
  obtain hn | hn := store_cases n
  · refine .inl ⟨hT ?_, hn⟩
    rw [trapShort_store] at hn
    split_ifs at hn with hs
    rw [toShort_eq_self_iff] at hs
    omega
  · exact .inr (.inl ⟨n, hn.1, hn.2, rfl⟩)

/-- One program after the other. -/
theorem runs_bind {α β : Type} {T E : Prop} {P : α → Prop} {Q : β → Prop} {f : ShortStore → Java α}
    {g : ShortStore → α → Java β} (hf : Runs T E P f)
    (hg : ∀ a, P a → Runs T E Q fun m => g m a) : Runs T E Q fun m => f m >>= g m :=
  Lockstep.bind hf hg

theorem runs_mono {α : Type} {T E : Prop} {P Q : α → Prop} {f : ShortStore → Java α}
    (hPQ : ∀ a, P a → Q a) (hf : Runs T E P f) : Runs T E Q f :=
  Lockstep.mono hf hPQ

/-- A loop that keeps an invariant. -/
theorem runs_forUp {σ : Type} {T E : Prop} {Q : σ → Prop} {a b : Int}
    {f : ShortStore → Int → σ → Java σ} {s : σ}
    (hf : ∀ i s, a ≤ i → i < b → Q s → Runs T E Q fun m => f m i s) (hs : Q s) :
    Runs T E Q fun m => forUp a b (f m) s :=
  Lockstep.forUp hf hs

theorem runs_forUp_index {σ : Type} {T E : Prop} {I : Int → σ → Prop} {a b : Int}
    {f : ShortStore → Int → σ → Java σ} {s : σ} (hab : a ≤ b)
    (hf : ∀ i s, a ≤ i → i < b → I i s → Runs T E (I (i + 1)) fun m => f m i s) (hs : I a s) :
    Runs T E (I b) fun m => forUp a b (f m) s :=
  Lockstep.forUp_index hab hf hs

theorem runs_mapM {α β : Type} {T E : Prop} {P : β → Prop} {f : ShortStore → α → Java β} (l : List α)
    (hf : ∀ a, Runs T E P fun m => f m a) :
    Runs T E (fun l' => l'.length = l.length ∧ ∀ x ∈ l', P x) fun m => l.mapM (f m) := by
  induction l with
  | nil => exact Lockstep.ok (by simp)
  | cons a l ih =>
    simp only [List.mapM_cons]
    refine runs_bind (hf a) fun x hx => runs_bind ih ?_
    rintro l' ⟨hlen, hall⟩
    refine Lockstep.ok ⟨by simp [hlen], fun y hy => ?_⟩
    obtain rfl | hy := List.mem_cons.mp hy
    · exact hx
    · exact hall y hy

/-- Programs that are equal on every machine. -/
theorem runs_congr {α : Type} {T E : Prop} {Q : α → Prop} {p q : ShortStore → Java α}
    (h : ∀ m, p m = q m) (hq : Runs T E Q q) : Runs T E Q p := by
  unfold Runs
  rw [h, h]
  exact hq

/-- A program that stores nothing. -/
theorem runs_of_eq {α : Type} {T E : Prop} {Q : α → Prop} {program : ShortStore → Java α} {a : α}
    (hp : ∀ m, program m = .ok a) (hQ : Q a) : Runs T E Q program :=
  .inr (.inl ⟨a, hp _, hp _, hQ⟩)

/-- What a program returns, if it does not stop with the trap. -/
theorem runs_ensures {α : Type} {T E : Prop} {Q : α → Prop} {program : ShortStore → Java α}
    (h : Runs T E Q program) (htrap : (program trapShort).isOk = true) : Ensures Q (program javaShort) := by
  refine Lockstep.ensures h fun hstop => ?_
  rw [hstop] at htrap
  cases htrap

/-- A program whose last step is a store. -/
theorem runs_of_store {α : Type} {T E : Prop} {Q : α → Prop} {program : ShortStore → Java α} {n : Int}
    {f : Int → α} (hp : ∀ m : ShortStore, program m = (m.store n >>= fun k => .ok (f k)))
    (h : 0 ≤ n) (hT : 32767 < n → T) (hQ : toShort n = n → Q (f n)) : Runs T E Q program := by
  by_cases hn : toShort n = n
  · unfold Runs
    rw [hp, hp]
    refine Lockstep.bind (store_runs h hT) ?_
    rintro _ rfl
    exact Lockstep.ok (hQ hn)
  · refine .inl ⟨hT ?_, ?_⟩
    · rw [toShort_eq_self_iff] at hn
      omega
    · rw [hp, trapShort_store, if_neg hn]
      rfl

/-! ## Both kinds of result at once

Results about every run of the Java machine need no assumption on `short` fields, and results that
rule out exceptions do.  `Upholds S Q` is the second kind of result if `S`, and the first otherwise,
so that one case analysis serves both. -/

/-- If `S`, the program returns a value with `Q` unless a `short` overflows on the way.  Otherwise a
value that it returns satisfies `Q`. -/
structure Upholds {α : Type} (S : Prop) (Q : α → Prop) (program : ShortStore → Java α) : Prop where
  ensures : ¬ S → Ensures Q (program javaShort)
  runs : S → Runs True False Q program

namespace Upholds

variable {α β σ ι : Type} {S : Prop}

theorem ok {Q : α → Prop} {a : α} (h : Q a) : Upholds S Q fun _ => .ok a :=
  ⟨fun _ => .ok h, fun _ => Lockstep.ok h⟩

theorem mono {P Q : α → Prop} {f : ShortStore → Java α} (hf : Upholds S P f)
    (hPQ : ∀ a, P a → Q a) : Upholds S Q f :=
  ⟨fun hs => (hf.ensures hs).mono hPQ, fun hs => runs_mono hPQ (hf.runs hs)⟩

theorem bind {P : α → Prop} {Q : β → Prop} {f : ShortStore → Java α} {g : ShortStore → α → Java β}
    (hf : Upholds S P f) (hg : ∀ a, P a → Upholds S Q fun m => g m a) :
    Upholds S Q fun m => f m >>= g m :=
  ⟨fun hs => (hf.ensures hs).bind fun a ha => (hg a ha).ensures hs,
    fun hs => runs_bind (hf.runs hs) fun a ha => (hg a ha).runs hs⟩

theorem ite {Q : α → Prop} {c : Prop} [Decidable c] {f g : ShortStore → Java α}
    (hf : c → Upholds S Q f) (hg : ¬ c → Upholds S Q g) :
    Upholds S Q fun m => if c then f m else g m := by
  by_cases h : c
  · simpa only [if_pos h] using hf h
  · simpa only [if_neg h] using hg h

theorem foldlM {Q : σ → Prop} {f : ShortStore → σ → ι → Java σ} (l : List ι) {s : σ}
    (hf : ∀ s i, i ∈ l → Q s → Upholds S Q fun m => f m s i) (hs : Q s) :
    Upholds S Q fun m => l.foldlM (f m) s := by
  induction l generalizing s with
  | nil => exact ok hs
  | cons i l ih =>
    simp only [List.foldlM_cons]
    exact bind (hf s i (by simp) hs) fun t ht => ih (fun s j hj => hf s j (by simp [hj])) ht

theorem forUp {Q : σ → Prop} {a b : Int} {f : ShortStore → Int → σ → Java σ} {s : σ}
    (hf : ∀ i s, a ≤ i → i < b → Q s → Upholds S Q fun m => f m i s) (hs : Q s) :
    Upholds S Q fun m => forUp a b (f m) s :=
  ⟨fun hS => Ensures.forUp (fun i s h₁ h₂ h => (hf i s h₁ h₂ h).ensures hS) hs,
    fun hS => runs_forUp (fun i s h₁ h₂ h => (hf i s h₁ h₂ h).runs hS) hs⟩

end Upholds

/-! ## UTF-16 -/

/-- `Character.isHighSurrogate` -/
def isHighSurrogate (c : Nat) : Bool := 0xD800 ≤ c && c ≤ 0xDBFF

/-- A UTF-16 code unit that is half of a pair. -/
def isSurrogate (c : Nat) : Bool := 0xD800 ≤ c && c ≤ 0xDFFF

/-- `Character.toCodePoint`, which does not look at whether the units form a pair. -/
def toCodePoint (high low : Nat) : Nat := (high - 0xD800) * 0x400 + (low + 0x2400)

/-- `Character.charCount` -/
def charCount (codePoint : Nat) : Nat := if 0x10000 ≤ codePoint then 2 else 1

/-- The code units of a code point (`Character.toChars`). -/
def toChars (codePoint : Nat) : List Nat :=
  if codePoint < 0x10000 then [codePoint]
  else [0xD800 + (codePoint - 0x10000) / 0x400, 0xDC00 + (codePoint - 0x10000) % 0x400]

/-- `Character.toChars(codePoint, dst, dstIndex)` -/
def toCharsInto (codePoint : Nat) (dst : List Nat) (dstIndex : Int) : Java (List Nat) :=
  if codePoint < 0x10000 then arraySet dst dstIndex codePoint
  else if codePoint ≤ 0x10FFFF then do
    let dst ← arraySet dst (dstIndex + 1) (0xDC00 + (codePoint - 0x10000) % 0x400)
    arraySet dst dstIndex (0xD800 + (codePoint - 0x10000) / 0x400)
  else .error .illegalArgument

/-- A Unicode scalar value: a code point that is not a surrogate. -/
def isScalar (codePoint : Nat) : Bool := codePoint ≤ 0x10FFFF && !isSurrogate codePoint

theorem isScalar_iff {c : Nat} : isScalar c = true ↔ c < 0xD800 ∨ (0xDFFF < c ∧ c ≤ 0x10FFFF) := by
  simp [isScalar, isSurrogate]
  omega

@[simp] theorem toChars_length (c : Nat) : (toChars c).length = charCount c := by
  unfold toChars charCount
  split_ifs <;> simp <;> omega

theorem charCount_pos (c : Nat) : 0 < charCount c := by
  unfold charCount
  split_ifs <;> omega

theorem charCount_le_two (c : Nat) : charCount c ≤ 2 := by
  unfold charCount
  split_ifs <;> omega

/-- A scalar value is one unit that is no surrogate, or a pair that decodes to it. -/
theorem toChars_cases {c : Nat} (h : isScalar c = true) :
    (toChars c = [c] ∧ isHighSurrogate c = false ∧ charCount c = 1) ∨
      ∃ hi lo, toChars c = [hi, lo] ∧ isHighSurrogate hi = true ∧ toCodePoint hi lo = c ∧
        charCount c = 2 := by
  rw [isScalar_iff] at h
  by_cases hc : c < 0x10000
  · left
    refine ⟨by simp [toChars, hc], ?_, by simp [charCount]; omega⟩
    simp [isHighSurrogate]
    omega
  · right
    refine ⟨_, _, by rw [toChars, if_neg hc], ?_, ?_, by simp [charCount]; omega⟩
    · simp [isHighSurrogate]
      omega
    · simp only [toCodePoint]
      omega

end XoDos
