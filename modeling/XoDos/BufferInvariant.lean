import XoDos.BufferReflow

/-!
# The structural invariant over whole runs

A run of a `TerminalBuffer` calls its constructor and then any of its public
methods.  The invariant is lost when the fast resize sets `mTotalRows` to
something else than the length of `mLines` stands for.
-/

namespace XoDos

namespace TerminalBuffer

open WcWidth (width)

/-- The public methods that change a buffer. -/
inductive Operation where
  | setChar (column row : Int) (codePoint : Nat) (style : Style)
  | blockSet (sx sy w h : Int) (val : Nat) (style : Style)
  | blockCopy (sx sy w h dx dy : Int)
  | scrollDownOneLine (topMargin bottomMargin : Int) (style : Style)
  | setLineWrap (row : Int)
  | clearLineWrap (row : Int)
  | getStyleAt (externalRow column : Int)
  | setOrClearEffect (bits : BitVec 32) (setOrClear reverse rectangular : Bool)
      (leftMargin rightMargin top left bottom right : Int)
  | clearTranscript
  | resize (newColumns newRows newTotalRows : Int) (cursor : Int × Int) (currentStyle : Style)
      (altScreen : Bool)

namespace Operation

def run [ShortStore] (b : TerminalBuffer) : Operation → Java TerminalBuffer
  | setChar column row codePoint style => b.setChar column row codePoint style
  | blockSet sx sy w h val style => b.blockSet sx sy w h val style
  | blockCopy sx sy w h dx dy => b.blockCopy sx sy w h dx dy
  | scrollDownOneLine topMargin bottomMargin style => b.scrollDownOneLine topMargin bottomMargin style
  | setLineWrap row => b.setLineWrap row
  | clearLineWrap row => b.clearLineWrap row
  | getStyleAt externalRow column => do
    let (b, _) ← b.getStyleAt externalRow column
    return b
  | setOrClearEffect bits setOrClear reverse rectangular leftMargin rightMargin top left bottom right =>
    b.setOrClearEffect bits setOrClear reverse rectangular leftMargin rightMargin top left bottom right
  | clearTranscript => b.clearTranscript
  | resize newColumns newRows newTotalRows cursor currentStyle altScreen => do
    let (b, _) ← b.resize newColumns newRows newTotalRows cursor currentStyle altScreen
    return b

/-- Resizing is only asked for with a ring that holds the screen. -/
def Legal : Operation → Prop
  | resize _ newRows newTotalRows _ _ _ => newRows ≤ newTotalRows
  | _ => True

/-- Characters are scalar values, sizes are positive, and a fast resize fits into the rows that
there are. -/
def Fits (b : TerminalBuffer) : Operation → Prop
  | setChar _ _ codePoint _ => isScalar codePoint = true
  | blockSet _ _ _ _ val _ => isScalar val = true
  | resize newColumns newRows newTotalRows _ _ altScreen => 1 ≤ newColumns ∧ 1 ≤ newRows ∧
    (b.isFastResize newColumns newRows → FastResizeFits b newTotalRows altScreen)
  | _ => True

end Operation

/-- A call of the constructor, or of a method on a buffer. -/
inductive Call where
  | new (columns totalRows screenRows : Int)
  | method (b : TerminalBuffer) (operation : Operation)

def Call.run [ShortStore] : Call → Java TerminalBuffer
  | new columns totalRows screenRows => TerminalBuffer.new columns totalRows screenRows
  | method b operation => operation.run b

def Call.Legal : Call → Prop
  | new _ totalRows screenRows => screenRows ≤ totalRows
  | method _ operation => operation.Legal

/-- The calls that leave the structural invariant intact: they fit, and no assignment to the
`short` field `mSpaceUsed` of a row overflows. -/
def Call.Safe (c : Call) : Prop :=
  (match c with
  | new columns _ screenRows => 1 ≤ columns ∧ 1 ≤ screenRows
  | method b operation => operation.Fits b) ∧
  @Call.run trapShort c ≠ .error .shortOverflow

/-- The buffers that are reached by calls with `P`. -/
inductive Reachable (P : Call → Prop) : TerminalBuffer → Prop where
  | new {columns totalRows screenRows : Int} {b : TerminalBuffer}
      (hlegal : (Call.new columns totalRows screenRows).Legal)
      (hP : P (.new columns totalRows screenRows))
      (hrun : (Call.new columns totalRows screenRows).run = .ok b) : Reachable P b
  | method {b b' : TerminalBuffer} {operation : Operation} (hb : Reachable P b)
      (hlegal : (Call.method b operation).Legal) (hP : P (.method b operation))
      (hrun : (Call.method b operation).run = .ok b') : Reachable P b'

/-- The used text of a row is well-formed, of `columns` columns, and there are as many styles. -/
structure FullRow (columns : Int) (r : TerminalRow) : Prop where
  styles : r.mStyle.length = columns
  space : 0 ≤ r.mSpaceUsed ∧ r.mSpaceUsed ≤ r.mText.length
  text : ∃ codePoints, r.mText.take r.mSpaceUsed.toNat = spell codePoints ∧
    (∀ c ∈ codePoints, isScalar c = true) ∧ (codePoints.map width).sum = columns

/-- The invariant, in terms of the fields and of `externalToInternalRow`. -/
structure StructuralInvariant (b : TerminalBuffer) : Prop where
  history : 0 ≤ b.mActiveTranscriptRows
  fits : b.mActiveTranscriptRows + b.mScreenRows ≤ b.mTotalRows
  inside : ∀ x, -b.mActiveTranscriptRows ≤ x → x < b.mScreenRows →
    ∃ j, b.externalToInternalRow x = .ok j ∧ 0 ≤ j ∧ j < b.mLines.length
  injective : ∀ x y, -b.mActiveTranscriptRows ≤ x → x < b.mScreenRows →
    -b.mActiveTranscriptRows ≤ y → y < b.mScreenRows →
    b.externalToInternalRow x = b.externalToInternalRow y → x = y
  rows : ∀ x, -b.mActiveTranscriptRows ≤ x → x < b.mScreenRows →
    ∃ r, b.rowAt x = .ok r ∧ FullRow b.mColumns r
  distinct : ∀ i j line : Nat, b.mLines[i]? = some (some line) → b.mLines[j]? = some (some line) →
    i = j

theorem FullRow.of_valid {columns : Int} {r : TerminalRow} (h : TerminalRow.Valid columns r) :
    FullRow columns r := by
  obtain ⟨⟨hc, cells, hcells⟩, -⟩ := h
  obtain ⟨slack, ht⟩ := hcells.text
  have hspace := hcells.space
  refine ⟨hcells.styles.trans hc, ?_, TerminalRow.codePointsOf cells, ?_,
    TerminalRow.isScalar_codePointsOf, ?_⟩
  · rw [ht, List.length_append]
    omega
  · rw [hspace, Int.toNat_natCast, ht, List.take_left, TerminalRow.spell_codePointsOf]
  · rw [TerminalRow.sum_codePointsOf, hcells.columns, hc]

theorem StructuralInvariant.of_valid {b : TerminalBuffer} (h : Valid b) : StructuralInvariant b where
  history := h.history
  fits := h.fits
  inside x hx hx' := by
    have := h.slot_lt x
    exact ⟨b.slot x, externalToInternalRow_eq h.toShape hx hx'.le, by omega, by omega⟩
  injective x y hx hx' hy hy' he := by
    have hfits := h.fits
    rw [externalToInternalRow_eq h.toShape hx hx'.le, externalToInternalRow_eq h.toShape hy hy'.le] at he
    simp only [Except.ok.injEq, Nat.cast_inj] at he
    have := Ring.index_inj h.total_pos (by omega) (by omega) he
    omega
  rows x hx hx' := by
    obtain ⟨line, r, -, hline, hr, hv⟩ := h.lineAt hx hx'
    exact ⟨r, (Grown.refl b).rowAt h.toShape hx hx' hline hr, .of_valid hv⟩
  distinct := h.objects.distinct

/-- One call. -/
theorem Operation.run_valid {b : TerminalBuffer} (h : Valid b) {operation : Operation}
    (hlegal : operation.Legal) (hfits : operation.Fits b) :
    Runs True True Valid fun _ => operation.run b := by
  cases operation with
  | setChar column row codePoint style =>
    exact runs_mono (fun _ hk => hk.valid) (setChar_keeps h hfits (fun _ _ => trivial)
      (fun _ => trivial) fun _ _ => trivial)
  | blockSet sx sy w h' val style =>
    exact runs_mono (fun _ hk => hk.valid) (blockSet_keeps h hfits (fun _ _ => trivial)
      (fun _ => trivial) fun _ => trivial)
  | blockCopy sx sy w h' dx dy =>
    exact runs_mono (fun _ hk => hk.valid) (blockCopy_keeps h (fun _ => trivial) (fun _ => trivial)
      fun _ => trivial)
  | scrollDownOneLine topMargin bottomMargin style =>
    exact runs_mono (fun _ hk => hk.1) (scrollDownOneLine_runs h (fun _ => trivial)
      fun _ => trivial)
  | setLineWrap row => exact runs_mono (fun _ hk => hk.valid) (putLineWrap_keeps h fun _ => trivial)
  | clearLineWrap row => exact runs_mono (fun _ hk => hk.valid) (putLineWrap_keeps h fun _ => trivial)
  | getStyleAt externalRow column =>
    exact runs_bind (getStyleAt_keeps h (fun _ => trivial) fun _ => trivial) fun p hp =>
      Lockstep.ok hp.valid
  | setOrClearEffect bits setOrClear reverse rectangular leftMargin rightMargin top left bottom right =>
    exact runs_mono (fun _ hk => hk.valid) (setOrClearEffect_keeps h fun _ _ => trivial)
  | clearTranscript =>
    obtain ⟨b', hb', hv, -⟩ := clearTranscript_returns h
    exact runs_of_eq (fun _ => hb') hv
  | resize newColumns newRows newTotalRows cursor currentStyle altScreen =>
    obtain ⟨hc, hr, hfast⟩ := hfits
    exact runs_bind (resize_runs h hc (fun _ => trivial) hr hlegal hfast) fun p hp =>
      Lockstep.ok hp.1.valid

/-- A new buffer after some operations. -/
def script [ShortStore] (columns totalRows screenRows : Int) (operations : List Operation) :
    Java TerminalBuffer := do
  let b ← new columns totalRows screenRows
  operations.foldlM (fun b operation => operation.run b) b

theorem script_valid {columns totalRows screenRows : Int} {operations : List Operation}
    {b : TerminalBuffer} (hc : 1 ≤ columns) (hs : 1 ≤ screenRows) (hle : screenRows ≤ totalRows)
    (hops : ∀ operation ∈ operations, operation.Legal ∧ ∀ b, operation.Fits b)
    (htrap : (@script trapShort columns totalRows screenRows operations).isOk = true)
    (hb : script columns totalRows screenRows operations = .ok b) : Valid b := by
  have hruns : Runs True True Valid fun _ => script columns totalRows screenRows operations := by
    apply runs_bind (new_keeps hc hs hle)
    intro b hb
    exact Lockstep.foldlM operations (fun b operation hmem hv =>
      Operation.run_valid hv (hops operation hmem).1 ((hops operation hmem).2 b)) hb.1
  exact runs_ensures hruns htrap b hb

/-- Every state of a run of safe calls is valid. -/
theorem Reachable.valid {b : TerminalBuffer} (h : Reachable Call.Safe b) : Valid b := by
  induction h with
  | new hlegal hP hrun =>
    obtain ⟨⟨hc, hs⟩, htrap⟩ := hP
    exact ((new_keeps (E := True) hc hs hlegal).ensures htrap _ hrun).1
  | method _ hlegal hP hrun ih =>
    obtain ⟨hfits, htrap⟩ := hP
    exact (Operation.run_valid ih hlegal hfits).ensures htrap _ hrun

theorem structuralInvariant_of_safe_calls {b : TerminalBuffer} (h : Reachable Call.Safe b) :
    StructuralInvariant b :=
  .of_valid h.valid

/-- A new buffer whose screen grows by a row of the ring. -/
theorem structuralInvariant_grown_screen :
    ∃ b, Reachable Call.Safe b ∧ b.mScreenRows = 3 ∧ StructuralInvariant b := by
  obtain ⟨b, hb⟩ : ∃ b, (Call.new 2 3 2).run = .ok b := ⟨_, rfl⟩
  obtain ⟨b', hb', hs⟩ : ∃ b', (Call.method b (.resize 2 3 3 (0, 0) 0 false)).run = .ok b' ∧
      b'.mScreenRows = 3 := by
    cases hb
    exact ⟨_, rfl, rfl⟩
  have h : Reachable Call.Safe b := by
    refine .new (show (2 : Int) ≤ 3 by decide) ⟨by decide, ?_⟩ hb
    intro h
    cases h
  have h' : Reachable Call.Safe b' := by
    refine .method h ?_ ⟨?_, ?_⟩ hb'
    · exact le_refl (3 : Int)
    · refine ⟨by decide, by decide, fun _ => .inl ?_⟩
      cases hb
      rfl
    · cases hb
      intro h
      cases h
  exact ⟨b', h', hs, structuralInvariant_of_safe_calls h'⟩

/-- One row has scrolled into the history when a fast resize makes the ring too small for it. -/
theorem not_structuralInvariant_small_ring :
    ∃ b, Reachable (fun _ => True) b ∧ b.mActiveTranscriptRows = 1 ∧ b.mScreenRows = 2 ∧
      b.mTotalRows = 2 ∧ ¬ StructuralInvariant b := by
  obtain ⟨b, hb⟩ : ∃ b, (Call.new 2 3 2).run = .ok b := ⟨_, rfl⟩
  obtain ⟨b₁, hb₁⟩ : ∃ b₁, (Call.method b (.scrollDownOneLine 0 2 0)).run = .ok b₁ := by
    cases hb
    exact ⟨_, rfl⟩
  obtain ⟨b₂, hb₂, hh, hs, ht⟩ : ∃ b₂, (Call.method b₁ (.resize 2 2 2 (0, 0) 0 false)).run = .ok b₂ ∧
      b₂.mActiveTranscriptRows = 1 ∧ b₂.mScreenRows = 2 ∧ b₂.mTotalRows = 2 := by
    cases hb
    cases hb₁
    exact ⟨_, rfl, rfl, rfl, rfl⟩
  have h : Reachable (fun _ => True) b := .new (show (2 : Int) ≤ 3 by decide) trivial hb
  have h₁ : Reachable (fun _ => True) b₁ := by
    refine .method h ?_ trivial hb₁
    trivial
  have h₂ : Reachable (fun _ => True) b₂ := by
    refine .method h₁ ?_ trivial hb₂
    exact le_refl (2 : Int)
  refine ⟨b₂, h₂, hh, hs, ht, fun hinv => ?_⟩
  have := hinv.fits
  omega

end TerminalBuffer

end XoDos
