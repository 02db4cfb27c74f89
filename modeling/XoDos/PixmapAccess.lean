import XoDos.LorieBuffer
import XoDos.Run

/-!
# Access to pixmaps

`loriePrepareAccess` takes the mutex of the shared state when the screen is
drawn to, and locks the buffer of the pixmap unless it is locked already.
`lorieFinishAccess` gives back what was taken.

The mutex is recursive, so it is the number of times that the server holds it.
What `AHardwareBuffer_lock` returns is an input of each call.
-/

namespace XoDos

/-- What `AHardwareBuffer_lock` returns, and the address that it stores, if it stores one. -/
structure HardwareLock where
  ret : Int
  stored : Option Address
deriving DecidableEq

def ENOENT : Int := 2

def EEXIST : Int := 17

def ENODEV : Int := 19

namespace LorieBuffer

/-- `LorieBuffer_lock`: the buffer, what is stored in `*out`, and what is returned. -/
def lock (b : LorieBuffer) (hardware : HardwareLock) : LorieBuffer × Address × Int :=
  if b.locked ≠ 0 then (b, b.lockedData, EEXIST)
  else
    let (lockedData, ret) :=
      match b.desc.type with
      | .regular | .fd => (b.desc.data, 0)
      | .aHardwareBuffer => (hardware.stored.getD b.lockedData, hardware.ret)
      | .unknown => (b.lockedData, 0)
    ({ b with lockedData := lockedData, locked := 1 }, lockedData, ret)

/-- `LorieBuffer_unlock`, with what `AHardwareBuffer_unlock` returns. -/
def unlock (b : LorieBuffer) (hardware : Int) : LorieBuffer × Int :=
  if b.locked = 0 then (b, ENOENT)
  else ({ b with lockedData := 0, locked := 0 }, if b.desc.type = .aHardwareBuffer then hardware else 0)

end LorieBuffer

/-- A buffer, and whether the memory behind it is locked. -/
structure SharedBuffer where
  buffer : LorieBuffer
  held : Bool
deriving DecidableEq

namespace SharedBuffer

def lock (b : SharedBuffer) (hardware : HardwareLock) : SharedBuffer × Address × Int :=
  let (buffer, out, ret) := b.buffer.lock hardware
  ({ buffer := buffer, held := b.held || (decide (b.buffer.locked = 0) && decide (ret = 0)) }, out, ret)

def unlock (b : SharedBuffer) (hardware : Int) : SharedBuffer × Int :=
  let (buffer, ret) := b.buffer.unlock hardware
  ({ buffer := buffer, held := b.held && decide (b.buffer.locked = 0) }, ret)

/-- Whether it is marked as locked, and whether it is locked. -/
def lockState (b : SharedBuffer) : BitVec 8 × Bool := (b.buffer.locked, b.held)

end SharedBuffer

/-- `LoriePixmapPriv`, with `devPrivate.ptr` of the pixmap. -/
structure PixmapPriv where
  buffer : Option Nat
  mem : Address
  locked : Address
  wasLocked : Bool
  ptr : Address
deriving DecidableEq

structure AccessState where
  buffers : Nat → SharedBuffer
  pixmaps : Nat → PixmapPriv
  screen : Nat
  mutex : Nat
  /-- The pixmaps that are prepared, each with its index. -/
  accesses : List (Nat × Nat)

namespace AccessState

def exaPrepareDest : Nat := 0

/-- `locked ?: mem` -/
def accessible (locked mem : Address) : Address := if locked ≠ 0 then locked else mem

def setBuffer (s : AccessState) (b : Nat) (buffer : SharedBuffer) : AccessState :=
  { s with buffers := Function.update s.buffers b buffer }

def setPixmap (s : AccessState) (pix : Nat) (priv : PixmapPriv) : AccessState :=
  { s with pixmaps := Function.update s.pixmaps pix priv }

/-- `LorieBuffer_lock(buffer, &out)` -/
def lockBuffer (s : AccessState) (buffer : Option Nat) (out : Address) (hardware : HardwareLock) :
    AccessState × Address × Int :=
  match buffer with
  | none => (s, out, ENODEV)
  | some b =>
    let (shared, out, ret) := (s.buffers b).lock hardware
    (s.setBuffer b shared, out, ret)

def unlockBuffer (s : AccessState) (buffer : Option Nat) (hardware : Int) : AccessState × Int :=
  match buffer with
  | none => (s, ENODEV)
  | some b =>
    let (shared, ret) := (s.buffers b).unlock hardware
    (s.setBuffer b shared, ret)

/-- Whether an access needs the mutex. -/
def needsMutex (s : AccessState) (pix index : Nat) : Bool :=
  decide (index = exaPrepareDest) && decide (s.screen = pix)

def loriePrepareAccess (s : AccessState) (pix index : Nat) (hardware : HardwareLock) :
    AccessState × Bool :=
  let priv := s.pixmaps pix
  let s := if s.needsMutex pix index then { s with mutex := s.mutex + 1 } else s
  if priv.locked = 0 ∧ priv.mem = 0 then
    let (s, locked, err) := s.lockBuffer priv.buffer priv.locked hardware
    if err ≠ 0 then (s.setPixmap pix { priv with locked := locked }, false)
    else
      (s.setPixmap pix
        { priv with
          locked := locked
          wasLocked := false
          ptr := accessible locked priv.mem }, true)
  else
    (s.setPixmap pix
      { priv with
        wasLocked := true
        ptr := accessible priv.locked priv.mem }, true)

def lorieFinishAccess (s : AccessState) (pix index : Nat) (hardware : Int) : AccessState :=
  let priv := s.pixmaps pix
  let s := if s.needsMutex pix index then { s with mutex := s.mutex - 1 } else s
  if priv.wasLocked then s
  else
    (s.unlockBuffer priv.buffer hardware).1.setPixmap pix
      { priv with locked := 0, wasLocked := false }

/-! ## Calls -/

inductive Call where
  | lock (b : Nat) (hardware : HardwareLock)
  | unlock (b : Nat) (hardware : Int)
  | prepareAccess (pix index : Nat) (hardware : HardwareLock)
  | finishAccess (pix index : Nat) (hardware : Int)

/-- Remembers an access that was prepared. -/
def note (pix index : Nat) (r : AccessState × Bool) : AccessState :=
  if r.2 then { r.1 with accesses := (pix, index) :: r.1.accesses } else r.1

def next (s : AccessState) : Call → AccessState
  | .lock b hardware => s.setBuffer b ((s.buffers b).lock hardware).1
  | .unlock b hardware => s.setBuffer b ((s.buffers b).unlock hardware).1
  | .prepareAccess pix index hardware => note pix index (s.loriePrepareAccess pix index hardware)
  | .finishAccess pix index hardware =>
    let s := s.lorieFinishAccess pix index hardware
    { s with accesses := s.accesses.erase (pix, index) }

/-- A buffer that is not locked is locked, and the hardware does not refuse. -/
def Locks (b : SharedBuffer) (hardware : HardwareLock) : Prop :=
  b.buffer.locked = 0 ∧ (b.buffer.desc.type = .aHardwareBuffer → hardware.ret = 0)

/-- Locks succeed, and an access does not begin while the pixmap is prepared. -/
def Sound (s : AccessState) : Call → Prop
  | .lock b hardware => Locks (s.buffers b) hardware
  | .unlock .. => True
  | .prepareAccess pix index hardware =>
    (∀ access ∈ s.accesses, access.1 ≠ pix) ∧
      ((s.pixmaps pix).locked = 0 → (s.pixmaps pix).mem = 0 →
        match (s.pixmaps pix).buffer with
        | none => s.needsMutex pix index = false
        | some b => Locks (s.buffers b) hardware)
  | .finishAccess .. => True

/-- A buffer is marked as locked exactly when it is. -/
def Consistent (s : AccessState) : Prop :=
  ∀ b, (s.buffers b).lockState = (1, true) ∨ (s.buffers b).lockState = (0, false)

/-! ## One buffer -/

variable {b : SharedBuffer} {hardware : HardwareLock}

theorem lock_succeeds_iff : (b.lock hardware).2.2 = 0 ↔ Locks b hardware := by
  unfold SharedBuffer.lock LorieBuffer.lock Locks
  dsimp only
  by_cases hlocked : b.buffer.locked = 0
  · rw [if_neg (not_not.mpr hlocked)]
    cases htype : b.buffer.desc.type <;> simp [hlocked]
  · rw [if_pos hlocked]
    simp only [hlocked, false_and, iff_false]
    decide

theorem lock_lockState (h : Locks b hardware) :
    (b.lock hardware).1.lockState = (1, true) := by
  have hret := lock_succeeds_iff.mpr h
  have hheld : (b.lock hardware).1.held = true := by
    have hret' : (b.buffer.lock hardware).2.2 = 0 := hret
    simp [SharedBuffer.lock, h.1, hret']
  have hmark : (b.lock hardware).1.buffer.locked = 1 := by
    simp [SharedBuffer.lock, LorieBuffer.lock, h.1]
  exact Prod.ext hmark hheld

theorem unlock_lockState (ret : Int) (h : b.lockState = (1, true) ∨ b.lockState = (0, false)) :
    (b.unlock ret).1.lockState = (0, false) := by
  unfold SharedBuffer.unlock LorieBuffer.unlock SharedBuffer.lockState
  obtain h | h := h
  · have hlocked : b.buffer.locked = 1 := congrArg Prod.fst h
    simp [hlocked]
  · have hlocked : b.buffer.locked = 0 := congrArg Prod.fst h
    have hheld : b.held = false := congrArg Prod.snd h
    simp [hlocked, hheld]

/-! ## One call -/

variable {s : AccessState} {pix index : Nat} {ret : Int} {c : Call}

/-- How often the mutex is taken for an access. -/
def mutexCount (s : AccessState) (pix index : Nat) : Nat := if s.needsMutex pix index then 1 else 0

/-- What an access that begins may do. -/
inductive Begun (s : AccessState) (pix index : Nat) (hardware : HardwareLock) :
    AccessState × Bool → Prop
  | refused (priv : PixmapPriv) (hmutex : s.needsMutex pix index = false) :
    Begun s pix index hardware (s.setPixmap pix priv, false)
  | found (s' : AccessState) (hbuffers : s'.buffers = s.buffers) (hscreen : s'.screen = s.screen)
      (haccesses : s'.accesses = s.accesses)
      (hmutex : s'.mutex = s.mutex + s.mutexCount pix index)
      (hframe : ∀ q, q ≠ pix → s'.pixmaps q = s.pixmaps q)
      (hwas : (s'.pixmaps pix).wasLocked = true) :
    Begun s pix index hardware (s', true)
  | locked (s' : AccessState) (b : Nat) (hlocks : Locks (s.buffers b) hardware)
      (hbuffers : s'.buffers = Function.update s.buffers b ((s.buffers b).lock hardware).1)
      (hscreen : s'.screen = s.screen) (haccesses : s'.accesses = s.accesses)
      (hmutex : s'.mutex = s.mutex + s.mutexCount pix index)
      (hframe : ∀ q, q ≠ pix → s'.pixmaps q = s.pixmaps q)
      (hwas : (s'.pixmaps pix).wasLocked = false) (hbuffer : (s'.pixmaps pix).buffer = some b) :
    Begun s pix index hardware (s', true)

theorem enter_eq :
    (if s.needsMutex pix index then { s with mutex := s.mutex + 1 } else s) =
      { s with mutex := s.mutex + s.mutexCount pix index } := by
  unfold mutexCount
  cases s.needsMutex pix index <;> rfl

theorem prepare_begun (h : s.Sound (.prepareAccess pix index hardware)) :
    s.Begun pix index hardware (s.loriePrepareAccess pix index hardware) := by
  unfold loriePrepareAccess
  rw [enter_eq]
  dsimp only
  split_ifs with hfree herr
  · -- The lock failed, so there is no buffer.
    obtain ⟨hlocked, hmem⟩ := hfree
    have hsound := h.2 hlocked hmem
    cases hbuffer : (s.pixmaps pix).buffer with
    | none =>
      rw [hbuffer] at hsound
      have hcount : s.mutexCount pix index = 0 := by simp [mutexCount, hsound]
      simp only [lockBuffer, hcount, Nat.add_zero]
      exact .refused _ hsound
    | some b =>
      rw [hbuffer] at hsound herr
      exact absurd (lock_succeeds_iff.mpr hsound) herr
  · obtain ⟨hlocked, hmem⟩ := hfree
    have hsound := h.2 hlocked hmem
    cases hbuffer : (s.pixmaps pix).buffer with
    | none =>
      rw [hbuffer] at herr
      exact absurd (by decide : ENODEV ≠ 0) herr
    | some b =>
      rw [hbuffer] at hsound
      refine .locked _ b hsound rfl rfl rfl rfl (fun q hq => ?_) ?_ ?_
      · simp [lockBuffer, setPixmap, setBuffer, Function.update_of_ne hq]
      · simp [setPixmap]
      · simp [setPixmap]
  · refine .found _ rfl rfl rfl rfl (fun q hq => ?_) ?_
    · simp [setPixmap, Function.update_of_ne hq]
    · simp [setPixmap]

theorem setBuffer_lockState {f : Nat → SharedBuffer} {n : Nat} {b : SharedBuffer}
    (hf : ∀ m, (f m).lockState = (1, true) ∨ (f m).lockState = (0, false))
    (hb : b.lockState = (1, true) ∨ b.lockState = (0, false)) (m : Nat) :
    (Function.update f n b m).lockState = (1, true) ∨
      (Function.update f n b m).lockState = (0, false) := by
  by_cases hm : m = n
  · subst hm
    simpa using hb
  · simpa [Function.update_of_ne hm] using hf m

theorem finish_consistent (hs : s.Consistent) :
    (s.lorieFinishAccess pix index ret).Consistent := by
  unfold lorieFinishAccess
  dsimp only
  cases s.needsMutex pix index <;> cases (s.pixmaps pix).wasLocked <;>
    cases (s.pixmaps pix).buffer <;>
    first
      | exact hs
      | exact setBuffer_lockState hs (.inr (unlock_lockState ret (hs _)))

/-- Each call keeps the marks right. -/
theorem next_consistent (hs : s.Consistent) (hc : s.Sound c) : (s.next c).Consistent := by
  cases c with
  | lock b hardware => exact setBuffer_lockState hs (.inl (lock_lockState hc))
  | unlock b ret => exact setBuffer_lockState hs (.inr (unlock_lockState ret (hs b)))
  | prepareAccess pix index hardware =>
    have hbegun := prepare_begun hc
    change (note pix index (s.loriePrepareAccess pix index hardware)).Consistent
    generalize s.loriePrepareAccess pix index hardware = r at hbegun
    cases hbegun with
    | refused priv hmutex => exact hs
    | found s' hbuffers =>
      intro b
      change (s'.buffers b).lockState = _ ∨ (s'.buffers b).lockState = _
      rw [hbuffers]
      exact hs b
    | locked s' b hlocks hbuffers =>
      intro m
      change (s'.buffers m).lockState = _ ∨ (s'.buffers m).lockState = _
      rw [hbuffers]
      exact setBuffer_lockState hs (.inl (lock_lockState hlocks)) m
  | finishAccess pix index ret => exact finish_consistent hs

/-- The call does not finish the access of a pixmap. -/
def Call.Keeps (pix : Nat) (c : Call) : Prop := ∀ index ret, c ≠ .finishAccess pix index ret

/-- The pixmap is prepared, as it was in `s₁`. -/
structure Open (s₁ : AccessState) (pix index : Nat) (s : AccessState) : Prop where
  access : (pix, index) ∈ s.accesses
  pixmap : s.pixmaps pix = s₁.pixmaps pix
  screen : s.screen = s₁.screen

variable {s₁ s₂ : AccessState}

/-- Until its access is finished, the other calls leave a pixmap alone. -/
theorem next_open (hs : Open s₁ pix index s) (hc : s.Sound c) (hkeeps : c.Keeps pix) :
    Open s₁ pix index (s.next c) := by
  cases c with
  | lock b hardware => exact ⟨hs.access, hs.pixmap, hs.screen⟩
  | unlock b ret => exact ⟨hs.access, hs.pixmap, hs.screen⟩
  | prepareAccess q i hardware =>
    -- No other access is begun on a pixmap that has one open.
    have hq : pix ≠ q := fun h => hc.1 _ hs.access h
    have hbegun := prepare_begun hc
    change Open s₁ pix index (note q i (s.loriePrepareAccess q i hardware))
    generalize s.loriePrepareAccess q i hardware = r at hbegun
    cases hbegun with
    | refused priv hmutex =>
      exact ⟨hs.access, (Function.update_of_ne hq _ _).trans hs.pixmap, hs.screen⟩
    | found s' hbuffers hscreen haccesses hmutex hframe =>
      refine ⟨List.mem_cons_of_mem _ ?_, (hframe pix hq).trans hs.pixmap, hscreen.trans hs.screen⟩
      rw [haccesses]
      exact hs.access
    | locked s' b hlocks hbuffers hscreen haccesses hmutex hframe =>
      refine ⟨List.mem_cons_of_mem _ ?_, (hframe pix hq).trans hs.pixmap, hscreen.trans hs.screen⟩
      rw [haccesses]
      exact hs.access
  | finishAccess q i ret =>
    have hq : pix ≠ q := fun h => hkeeps i ret (by rw [h])
    have hne : (pix, index) ≠ (q, i) := fun h => hq (congrArg Prod.fst h)
    have hpixmap : (s.lorieFinishAccess q i ret).pixmaps pix = s.pixmaps pix := by
      unfold lorieFinishAccess
      dsimp only
      cases s.needsMutex q i <;> cases (s.pixmaps q).wasLocked <;>
        cases (s.pixmaps q).buffer <;>
        simp [setPixmap, unlockBuffer, setBuffer, Function.update_of_ne hq]
    have hrest : (s.lorieFinishAccess q i ret).screen = s.screen ∧
        (s.lorieFinishAccess q i ret).accesses = s.accesses := by
      unfold lorieFinishAccess
      dsimp only
      cases s.needsMutex q i <;> cases (s.pixmaps q).wasLocked <;>
        cases (s.pixmaps q).buffer <;> exact ⟨rfl, rfl⟩
    refine ⟨?_, hpixmap.trans hs.pixmap, hrest.1.trans hs.screen⟩
    change (pix, index) ∈ (s.lorieFinishAccess q i ret).accesses.erase (q, i)
    rw [hrest.2]
    exact (List.mem_erase_of_ne hne).mpr hs.access

theorem finish_mutex :
    (s.lorieFinishAccess pix index ret).mutex = s.mutex - s.mutexCount pix index := by
  unfold lorieFinishAccess mutexCount
  dsimp only
  cases s.needsMutex pix index <;> cases (s.pixmaps pix).wasLocked <;>
    cases (s.pixmaps pix).buffer <;> rfl

theorem finish_found (hwas : (s.pixmaps pix).wasLocked = true) :
    (s.lorieFinishAccess pix index ret).buffers = s.buffers := by
  unfold lorieFinishAccess
  dsimp only
  rw [if_pos hwas]
  split_ifs <;> rfl

theorem finish_locked {b : Nat} (hwas : (s.pixmaps pix).wasLocked = false)
    (hbuffer : (s.pixmaps pix).buffer = some b) :
    (s.lorieFinishAccess pix index ret).buffers =
      Function.update s.buffers b ((s.buffers b).unlock ret).1 := by
  unfold lorieFinishAccess
  dsimp only
  rw [if_neg (by simp [hwas]), hbuffer]
  split_ifs <;> rfl

/-- Finishing an access undoes what its beginning did. -/
theorem finish_restores (hs : s.Consistent) (hs₂ : s₂.Consistent)
    (hc : s.Sound (.prepareAccess pix index hardware))
    (htrue : (s.loriePrepareAccess pix index hardware).2 = true)
    (hopen : Open (s.next (.prepareAccess pix index hardware)) pix index s₂) :
    (s₂.mutex = (s.next (.prepareAccess pix index hardware)).mutex →
        (s₂.next (.finishAccess pix index ret)).mutex = s.mutex) ∧
      ∀ b, (s₂.buffers b).lockState =
          ((s.next (.prepareAccess pix index hardware)).buffers b).lockState →
        ((s₂.next (.finishAccess pix index ret)).buffers b).lockState = (s.buffers b).lockState := by
  have hbegun := prepare_begun hc
  change Open (note pix index (s.loriePrepareAccess pix index hardware)) pix index s₂ at hopen
  change (s₂.mutex = (note pix index (s.loriePrepareAccess pix index hardware)).mutex →
      (s₂.lorieFinishAccess pix index ret).mutex = s.mutex) ∧
    ∀ b, (s₂.buffers b).lockState =
        ((note pix index (s.loriePrepareAccess pix index hardware)).buffers b).lockState →
      ((s₂.lorieFinishAccess pix index ret).buffers b).lockState = (s.buffers b).lockState
  generalize s.loriePrepareAccess pix index hardware = r at hbegun htrue hopen
  -- Both calls ask the same question about the mutex, since the screen pixmap stays the same.
  have hcount : ∀ s' : AccessState, s'.screen = s.screen → s₂.screen = s'.screen →
      s₂.mutexCount pix index = s.mutexCount pix index := by
    intro s' h h'
    unfold mutexCount needsMutex
    rw [h', h]
  cases hbegun with
  | refused priv hmutex => cases htrue
  | found s' hbuffers hscreen haccesses hmutex hframe hwas =>
    constructor
    · intro h
      rw [finish_mutex, h, hcount s' hscreen hopen.screen]
      change s'.mutex - _ = _
      omega
    · intro b h
      rw [finish_found (hopen.pixmap ▸ hwas), h]
      change (s'.buffers b).lockState = _
      rw [hbuffers]
  | locked s' n hlocks hbuffers hscreen haccesses hmutex hframe hwas hbuffer =>
    constructor
    · intro h
      rw [finish_mutex, h, hcount s' hscreen hopen.screen]
      change s'.mutex - _ = _
      omega
    · intro b h
      rw [finish_locked (hopen.pixmap ▸ hwas) (hopen.pixmap ▸ hbuffer)]
      -- Only the buffer that was locked is unlocked, and it was not locked before.
      by_cases hb : b = n
      · subst hb
        rw [Function.update_self, unlock_lockState ret (hs₂ b)]
        have hunlocked : (s.buffers b).buffer.locked = 0 := hlocks.1
        rcases hs b with h1 | h0
        · have hone : (s.buffers b).buffer.locked = 1 := congrArg Prod.fst h1
          rw [hunlocked] at hone
          exact absurd hone (by decide)
        · exact h0.symm
      · rw [Function.update_of_ne hb, h]
        change (s'.buffers b).lockState = _
        rw [hbuffers, Function.update_of_ne hb]

/-! ## Runs -/

/-- If locks succeed and accesses to a pixmap do not overlap, then in every run the marks are
right, a lock or access that fails leaves nothing behind, and finishing an access restores what
was locked when it began. -/
theorem access_balanced (hs : s.Consistent) {calls : List Call} (h : Run.Along next Sound s calls) :
    (∀ earlier later, calls = earlier ++ later → ∀ b,
      ((Run.after next s earlier).buffers b).buffer.locked = 1 ↔
        ((Run.after next s earlier).buffers b).held = true) ∧
    (∀ earlier b hardware later, calls = earlier ++ .lock b hardware :: later →
      (((Run.after next s earlier).buffers b).lock hardware).2.2 ≠ 0 →
        (((Run.after next s earlier).buffers b).lock hardware).1.buffer.locked = 0 ∧
          (((Run.after next s earlier).buffers b).lock hardware).2.1 = 0) ∧
    (∀ earlier pix index hardware later,
      calls = earlier ++ .prepareAccess pix index hardware :: later →
      ((Run.after next s earlier).loriePrepareAccess pix index hardware).2 = false →
        ((Run.after next s earlier).loriePrepareAccess pix index hardware).1.mutex =
          (Run.after next s earlier).mutex) ∧
    ∀ earlier pix index hardware between ret later,
      calls = earlier ++ .prepareAccess pix index hardware ::
        (between ++ .finishAccess pix index ret :: later) →
      (∀ c ∈ between, c.Keeps pix) →
      ((Run.after next s earlier).loriePrepareAccess pix index hardware).2 = true →
      let s₀ := Run.after next s earlier
      let s₁ := s₀.next (.prepareAccess pix index hardware)
      let s₂ := Run.after next s₁ between
      let s₃ := s₂.next (.finishAccess pix index ret)
      (s₂.mutex = s₁.mutex → s₃.mutex = s₀.mutex) ∧
        ∀ b, (s₂.buffers b).lockState = (s₁.buffers b).lockState →
          (s₃.buffers b).lockState = (s₀.buffers b).lockState := by
  have hconsistent : ∀ {earlier later}, calls = earlier ++ later →
      (Run.after next s earlier).Consistent := by
    intro earlier later hsplit
    subst hsplit
    exact h.everywhere (fun _ _ => next_consistent) hs
  refine ⟨?_, ?_, ?_, ?_⟩
  · intro earlier later hsplit b
    rcases hconsistent hsplit b with h1 | h0
    · exact iff_of_true (congrArg Prod.fst h1) (congrArg Prod.snd h1)
    · have hlocked : ((Run.after next s earlier).buffers b).buffer.locked = 0 :=
        congrArg Prod.fst h0
      have hheld : ((Run.after next s earlier).buffers b).held = false := congrArg Prod.snd h0
      rw [hlocked, hheld]
      decide
  · intro earlier b hardware later hsplit hfails
    subst hsplit
    exact absurd (lock_succeeds_iff.mpr h.condition) hfails
  · intro earlier pix index hardware later hsplit hfalse
    subst hsplit
    have hbegun := prepare_begun h.condition
    generalize (Run.after next s earlier).loriePrepareAccess pix index hardware = r
      at hbegun hfalse
    cases hbegun with
    | refused priv hmutex => rfl
    | found => cases hfalse
    | locked => cases hfalse
  · intro earlier pix index hardware between ret later hsplit hkeeps htrue
    have hs₀ := hconsistent hsplit
    have hs₂ : (Run.after next (Run.after next s earlier)
        (.prepareAccess pix index hardware :: between)).Consistent := by
      rw [← Run.after_append]
      exact @hconsistent _ (.finishAccess pix index ret :: later) (by simp [hsplit])
    subst hsplit
    have hsound := h.condition
    have hbetween := (Run.along_append.mp (Run.along_append.mp h).2.2).1
    refine finish_restores hs₀ hs₂ hsound htrue ?_
    -- Between the two calls the access stays open.
    refine (hbetween.of_mem hkeeps).invariant (I := Open _ pix index)
      (fun s c hopen hc => next_open hopen hc.1 hc.2) ⟨?_, rfl, rfl⟩
    change (pix, index) ∈ (note pix index _).accesses
    rw [note, if_pos htrue]
    exact List.mem_cons_self

/-- One pixmap, which is the screen and has a hardware buffer. -/
def oneScreen : AccessState :=
  { buffers := fun _ =>
      { buffer :=
          { LorieBuffer.blank with
            desc := { LorieBuffer.blank.desc with type := .aHardwareBuffer, buffer := 0x8000 } }
        held := false }
    pixmaps := fun _ => ⟨some 0, 0, 0, false, 0⟩
    screen := 0
    mutex := 0
    accesses := [] }

theorem oneScreen_consistent : oneScreen.Consistent := fun _ => .inr rfl

/-- The screen is drawn to. -/
theorem access_balanced_once :
    let s₁ := oneScreen.next (.prepareAccess 0 0 ⟨0, some 0x9000⟩)
    let s₂ := s₁.next (.finishAccess 0 0 0)
    s₁.mutex = 1 ∧ (s₁.buffers 0).lockState = (1, true) ∧ s₂.mutex = 0 ∧
      (s₂.buffers 0).lockState = (0, false) := by
  have hrun : Run.Along next Sound oneScreen
      [.prepareAccess 0 0 ⟨0, some 0x9000⟩, .finishAccess 0 0 0] :=
    ⟨⟨by simp [oneScreen], fun _ _ => ⟨rfl, fun _ => rfl⟩⟩, trivial, trivial⟩
  have hall := (access_balanced oneScreen_consistent hrun).2.2.2 [] 0 0 _ [] 0 [] rfl
    (by simp) (by decide +kernel)
  exact ⟨by decide +kernel, by decide +kernel, hall.1 rfl, hall.2 0 rfl⟩

/-- The hardware refuses to lock the screen: the access is refused, the mutex stays taken, and
the buffer is marked as locked. -/
theorem refused_access_leaks :
    oneScreen.Consistent ∧
      let (s, prepared) := oneScreen.loriePrepareAccess 0 0 ⟨-22, none⟩
      prepared = false ∧ s.mutex = 1 ∧ (s.buffers 0).buffer.locked = 1 ∧
        (s.buffers 0).held = false :=
  ⟨oneScreen_consistent, by decide +kernel⟩

end AccessState

end XoDos
