import XoDos.Outcome

/-!
# Buffers of a fixed size

A `ByteBuffer` has a position, from which on bytes are put.  Bytes that do not fit raise an
exception and none of them is stored.  `Puts n f` says that `f` needs room for `n` bytes and nothing
else.
-/

namespace XoDos

inductive BufferException where
  | bufferOverflow
  | nullPointer
deriving DecidableEq, Repr

structure ByteBuffer where
  array : List Nat
  position : Nat
deriving DecidableEq, Repr

namespace ByteBuffer

def allocate (capacity : Nat) : ByteBuffer := ⟨List.replicate capacity 0, 0⟩

def rewind (b : ByteBuffer) : ByteBuffer := { b with position := 0 }

/-- A program that writes to a buffer. -/
abbrev Writer : Type := ByteBuffer → Except BufferException ByteBuffer

def put (bytes : List Nat) : Writer := fun b =>
  if b.array.length < b.position + bytes.length then .error .bufferOverflow
  else
    .ok ⟨b.array.take b.position ++ bytes ++ b.array.drop (b.position + bytes.length),
      b.position + bytes.length⟩

/-- The `n` bytes of an integer, the low byte first. -/
def littleEndian : Nat → Int → List Nat
  | 0, _ => []
  | n + 1, v => (v % 256).toNat :: littleEndian n (v / 256)

def putByte (v : Int) : Writer := put (littleEndian 1 v)

def putShort (v : Int) : Writer := put (littleEndian 2 v)

def putInt (v : Int) : Writer := put (littleEndian 4 v)

def putLong (v : Int) : Writer := put (littleEndian 8 v)

@[simp] theorem length_littleEndian : ∀ (n : Nat) (v : Int), (littleEndian n v).length = n
  | 0, _ => rfl
  | n + 1, v => by simp [littleEndian, length_littleEndian n]

/-- With room for `n` bytes the writer returns, and has written `n` bytes. -/
def Puts (n : Nat) (f : Writer) : Prop :=
  ∀ b : ByteBuffer, b.position + n ≤ b.array.length →
    ∃ b' : ByteBuffer, f b = .ok b' ∧ b'.position = b.position + n ∧
      b'.array.length = b.array.length

theorem puts_put (bytes : List Nat) : Puts bytes.length (put bytes) := by
  intro b h
  refine ⟨_, if_neg (by omega), rfl, ?_⟩
  simp only [List.length_append, List.length_take, List.length_drop]
  omega

theorem puts_littleEndian (n : Nat) (v : Int) : Puts n (put (littleEndian n v)) := by
  simpa using puts_put (littleEndian n v)

theorem puts_putByte (v : Int) : Puts 1 (putByte v) := puts_littleEndian 1 v

theorem puts_putShort (v : Int) : Puts 2 (putShort v) := puts_littleEndian 2 v

theorem puts_putInt (v : Int) : Puts 4 (putInt v) := puts_littleEndian 4 v

theorem puts_putLong (v : Int) : Puts 8 (putLong v) := puts_littleEndian 8 v

/-- One writer after the other. -/
theorem Puts.next {m n : Nat} {f g : Writer} (hf : Puts m f) (hg : Puts n g) :
    Puts (m + n) (f >=> g) := by
  intro b h
  obtain ⟨b', hb', hp', hl'⟩ := hf b (by omega)
  obtain ⟨c, hc, hp, hl⟩ := hg b' (by omega)
  refine ⟨c, ?_, by omega, by omega⟩
  simp only [Bind.kleisliRight, hb', ok_bind, hc]

/-- A writer that first computes a value. -/
theorem Puts.value {α : Type} {n : Nat} {x : Except BufferException α} {a : α} {f : α → Writer}
    (hx : x = .ok a) (hf : Puts n (f a)) : Puts n fun b => x >>= fun v => f v b := by
  subst hx
  exact hf

end ByteBuffer

end XoDos
