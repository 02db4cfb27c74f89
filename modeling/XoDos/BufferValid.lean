import XoDos.TerminalBuffer
import XoDos.Ring

/-!
# Valid buffers

The structural invariant of a `TerminalBuffer`, and the operations that write
into rows.  Each of them leaves the ring where it is and every slot that held a
row object allocated.
-/

namespace XoDos

namespace TerminalBuffer

/-- The slot of `mLines` that an external row stands for. -/
def slot (b : TerminalBuffer) (x : Int) : Nat := Ring.index b.mTotalRows (b.mScreenFirstRow + x)

/-- The references in `lines` point to different valid rows. -/
structure Objects (columns : Int) (rows : List TerminalRow) (lines : List (Option Nat)) : Prop where
  valid : ∀ j line : Nat, lines[j]? = some (some line) →
    ∃ r, rows[line]? = some r ∧ TerminalRow.Valid columns r
  distinct : ∀ i j line : Nat, lines[i]? = some (some line) → lines[j]? = some (some line) → i = j

/-- The sizes fit, and the objects are in order. -/
structure Shape (b : TerminalBuffer) : Prop where
  columns : 1 ≤ b.mColumns
  screen : 1 ≤ b.mScreenRows
  history : 0 ≤ b.mActiveTranscriptRows
  fits : b.mActiveTranscriptRows + b.mScreenRows ≤ b.mTotalRows
  lines : b.mTotalRows ≤ b.mLines.length
  first : 0 ≤ b.mScreenFirstRow ∧ b.mScreenFirstRow < b.mLines.length
  objects : Objects b.mColumns b.rows b.mLines

/-- The slot holds a row object. -/
def Allocated (b : TerminalBuffer) (j : Nat) : Prop := ∃ line : Nat, b.mLines[j]? = some (some line)

/-- Besides, every row of the screen and of the history has an object. -/
structure Valid (b : TerminalBuffer) : Prop extends Shape b where
  window : ∀ x, -b.mActiveTranscriptRows ≤ x → x < b.mScreenRows → b.Allocated (b.slot x)

/-- `b'` has the ring of `b`, and the same object wherever `b` has one. -/
structure Grown (b b' : TerminalBuffer) : Prop where
  columns : b'.mColumns = b.mColumns
  screen : b'.mScreenRows = b.mScreenRows
  total : b'.mTotalRows = b.mTotalRows
  history : b'.mActiveTranscriptRows = b.mActiveTranscriptRows
  first : b'.mScreenFirstRow = b.mScreenFirstRow
  lines : b'.mLines.length = b.mLines.length
  stay : ∀ j line : Nat, b.mLines[j]? = some (some line) → b'.mLines[j]? = some (some line)

variable {b b' : TerminalBuffer} {T E : Prop}

theorem Grown.refl (b : TerminalBuffer) : Grown b b :=
  ⟨rfl, rfl, rfl, rfl, rfl, rfl, fun _ _ h => h⟩

theorem Grown.trans {b'' : TerminalBuffer} (h : Grown b b') (h' : Grown b' b'') : Grown b b'' :=
  ⟨h'.columns.trans h.columns, h'.screen.trans h.screen, h'.total.trans h.total,
    h'.history.trans h.history, h'.first.trans h.first, h'.lines.trans h.lines,
    fun j l hj => h'.stay j l (h.stay j l hj)⟩

theorem Grown.allocated (h : Grown b b') {j : Nat} (hj : b.Allocated j) : b'.Allocated j := by
  obtain ⟨line, hline⟩ := hj
  exact ⟨line, h.stay j line hline⟩

theorem Grown.slot (h : Grown b b') (x : Int) : b'.slot x = b.slot x := by
  rw [TerminalBuffer.slot, TerminalBuffer.slot, h.total, h.first]

theorem Grown.valid (h : Grown b b') (hb : Valid b) (hb' : Shape b') : Valid b' where
  toShape := hb'
  window x h₁ h₂ := by
    rw [h.history] at h₁
    rw [h.screen] at h₂
    rw [h.slot]
    exact h.allocated (hb.window x h₁ h₂)

/-- `b'` is like `b`, but for the rows. -/
theorem Grown.shape (h : Grown b b') (hb : Shape b)
    (ho : Objects b'.mColumns b'.rows b'.mLines) : Shape b' := by
  obtain ⟨h₁, h₂, h₃, h₄, h₅, h₆, -⟩ := hb
  obtain ⟨e₁, e₂, e₃, e₄, e₅, e₆, -⟩ := h
  constructor
  · omega
  · omega
  · omega
  · omega
  · omega
  · omega
  · exact ho

theorem Shape.total_pos (h : Shape b) : 0 < b.mTotalRows := by
  have := h.screen
  have := h.history
  have := h.fits
  omega

theorem Shape.slot_lt (h : Shape b) (x : Int) : b.slot x < b.mLines.length := by
  have := Ring.index_lt (x := b.mScreenFirstRow + x) h.total_pos
  have := h.lines
  rw [slot]
  omega

/-! ## Objects -/

section Objects

variable {columns : Int} {rows : List TerminalRow} {lines lines' : List (Option Nat)}

theorem Objects.update (h : Objects columns rows lines) {line : Nat} {r : TerminalRow}
    (hr : TerminalRow.Valid columns r) : Objects columns (rows.set line r) lines where
  valid j l hl := by
    obtain ⟨r', hr', hv⟩ := h.valid j l hl
    by_cases he : line = l
    · subst he
      refine ⟨r, ?_, hr⟩
      rw [List.getElem?_set_self (List.getElem?_eq_some_iff.mp hr').1]
    · exact ⟨r', by rw [List.getElem?_set_ne he, hr'], hv⟩
  distinct := h.distinct

theorem Objects.permute (h : Objects columns rows lines) {σ : Nat → Nat}
    (hσ : Function.Injective σ) (hl : ∀ j, lines'[j]? = lines[σ j]?) :
    Objects columns rows lines' where
  valid j l hj := h.valid (σ j) l (by rw [← hl, hj])
  distinct i j l hi hj := hσ (h.distinct _ _ l (by rw [← hl, hi]) (by rw [← hl, hj]))

/-- Forgetting references. -/
theorem Objects.forget (h : Objects columns rows lines)
    (hl : ∀ (j l : Nat), lines'[j]? = some (some l) → lines[j]? = some (some l)) :
    Objects columns rows lines' where
  valid j l hj := h.valid j l (hl j l hj)
  distinct i j l hi hj := h.distinct i j l (hl i l hi) (hl j l hj)

theorem Objects.line_lt (h : Objects columns rows lines) {j line : Nat}
    (hl : lines[j]? = some (some line)) : line < rows.length := by
  obtain ⟨r, hr, -⟩ := h.valid j line hl
  exact (List.getElem?_eq_some_iff.mp hr).1

/-- A new object is different from all others. -/
theorem Objects.allocate (h : Objects columns rows lines) {i : Nat} {r : TerminalRow}
    (hi : i < lines.length) (hr : TerminalRow.Valid columns r) :
    Objects columns (rows ++ [r]) (lines.set i (some rows.length)) := by
  have hcases (j l : Nat) (hj : (lines.set i (some rows.length))[j]? = some (some l)) :
      (j = i ∧ l = rows.length) ∨ (j ≠ i ∧ lines[j]? = some (some l) ∧ l < rows.length) := by
    by_cases he : i = j
    · subst he
      rw [List.getElem?_set_self hi] at hj
      simp only [Option.some.injEq] at hj
      exact .inl ⟨rfl, hj.symm⟩
    · rw [List.getElem?_set_ne he] at hj
      exact .inr ⟨Ne.symm he, hj, h.line_lt hj⟩
  constructor
  · intro j l hj
    obtain ⟨-, rfl⟩ | ⟨-, hj, hl⟩ := hcases j l hj
    · exact ⟨r, by simp, hr⟩
    · obtain ⟨r', hr', hv⟩ := h.valid j l hj
      exact ⟨r', by rw [List.getElem?_append_left hl, hr'], hv⟩
  · intro j k l hj hk
    obtain ⟨rfl, hjl⟩ | ⟨-, hj, hjl⟩ := hcases j l hj
    · obtain ⟨rfl, -⟩ | ⟨-, -, hkl⟩ := hcases k l hk
      · rfl
      · omega
    · obtain ⟨-, hkl⟩ | ⟨-, hk, -⟩ := hcases k l hk
      · omega
      · exact h.distinct j k l hj hk

end Objects

/-! ## Rows and slots -/

theorem modRows_eq {x n : Int} (hx : 0 ≤ x) (hn : 0 < n) : modRows x n = .ok (Ring.index n x) := by
  rw [modRows, if_neg (by omega), Int.tmod_eq_emod_of_nonneg hx, Ring.index_cast hn]

/-- `externalToInternalRow` also takes the row below the screen. -/
theorem externalToInternalRow_eq (h : Shape b) {x : Int} (h₁ : -b.mActiveTranscriptRows ≤ x)
    (h₂ : x ≤ b.mScreenRows) : b.externalToInternalRow x = .ok (b.slot x) := by
  have hT := h.total_pos
  have hf := h.first
  have hfits := h.fits
  have hs := h.screen
  unfold externalToInternalRow
  rw [if_neg (by omega)]
  dsimp only
  split_ifs with hneg
  · rw [slot, Ring.index_cast hT, ← Int.add_emod_left, Int.emod_eq_of_lt (by omega) (by omega)]
  · rw [modRows_eq (by omega) hT, slot]

theorem arrayGet_slot {lines : List (Option Nat)} {j : Nat} {line : Option Nat}
    (h : lines[j]? = some line) : arrayGet lines (j : Int) = .ok line :=
  arrayGet_ok (by omega) (by rw [Int.toNat_natCast, h])

theorem deref_eq {line : Nat} {r : TerminalRow} (h : b.rows[line]? = some r) :
    b.deref (some line) = .ok r := by
  rw [deref, h]

/-- Every external row of a valid buffer has a valid row object. -/
theorem Valid.lineAt (h : Valid b) {x : Int} (h₁ : -b.mActiveTranscriptRows ≤ x)
    (h₂ : x < b.mScreenRows) :
    ∃ line r, b.lineAt x = .ok (some line) ∧ b.mLines[b.slot x]? = some (some line) ∧
      b.rows[line]? = some r ∧ TerminalRow.Valid b.mColumns r := by
  obtain ⟨line, hline⟩ := h.window x h₁ h₂
  obtain ⟨r, hr, hv⟩ := h.objects.valid _ _ hline
  refine ⟨line, r, ?_, hline, hr, hv⟩
  rw [TerminalBuffer.lineAt, externalToInternalRow_eq h.toShape h₁ h₂.le, ok_bind, arrayGet_slot hline]

/-- A method of a row object that leaves the row valid. -/
theorem Shape.update (h : Shape b) (line : Nat) {r : TerminalRow}
    (hr : TerminalRow.Valid b.mColumns r) : Shape (b.update line r) ∧ Grown b (b.update line r) := by
  have hg : Grown b (b.update line r) := ⟨rfl, rfl, rfl, rfl, rfl, rfl, fun _ _ h => h⟩
  exact ⟨hg.shape h (h.objects.update hr), hg⟩

/-! ## Allocating -/

theorem allocate_runs (h : Shape b) {i : Int} {style : Style} (h₀ : 0 ≤ i)
    (hnull : b.mLines[i.toNat]? = some none) (hT : 32767 < b.mColumns → T) :
    Runs T E (fun p => Shape p.1 ∧ Grown b p.1 ∧ p.1.mLines[i.toNat]? = some (some p.2) ∧
      p.1 = { b with rows := p.1.rows, mLines := b.mLines.set i.toNat (some b.rows.length) } ∧
      ∃ r, p.1.rows = b.rows ++ [r] ∧ p.2 = b.rows.length ∧
        TerminalRow.Blank b.mColumns style r) fun _ => b.allocate i style := by
  have hc := h.columns
  have hn : i.toNat < b.mLines.length := (List.getElem?_eq_some_iff.mp hnull).1
  simp only [allocate]
  refine runs_bind (TerminalRow.new_runs (by omega) hT) ?_
  rintro r ⟨hv, hblank, -⟩
  refine runs_of_eq (a := ({ b with
    rows := b.rows ++ [r]
    mLines := b.mLines.set i.toNat (some b.rows.length) }, b.rows.length)) (fun m => ?_) ?_
  · rw [arraySet_ok _ h₀ (by omega), ok_bind]
    rfl
  · have hg : Grown b { b with
        rows := b.rows ++ [r]
        mLines := b.mLines.set i.toNat (some b.rows.length) } := by
      refine ⟨rfl, rfl, rfl, rfl, rfl, by simp, fun j line hj => ?_⟩
      have he : i.toNat ≠ j := by
        rintro rfl
        simp [hnull] at hj
      simp only
      rw [List.getElem?_set_ne he, hj]
    exact ⟨hg.shape h (h.objects.allocate hn hv), hg, List.getElem?_set_self hn, rfl, r, rfl, rfl,
      hblank⟩

theorem allocateFullLineIfNecessary_runs (h : Shape b) {i : Int} (h₀ : 0 ≤ i)
    (hi : i < b.mLines.length) :
    Runs True E (fun p => Shape p.1 ∧ Grown b p.1 ∧ p.1.mLines[i.toNat]? = some (some p.2)) fun _ =>
      b.allocateFullLineIfNecessary i := by
  obtain ⟨line, hline⟩ : ∃ line, b.mLines[i.toNat]? = some line :=
    ⟨_, List.getElem?_eq_getElem (by omega)⟩
  simp only [allocateFullLineIfNecessary, arrayGet_ok h₀ hline, ok_bind]
  cases line with
  | none => exact (allocate_runs h h₀ hline fun _ => trivial).mono fun _ h => ⟨h.1, h.2.1, h.2.2.1⟩
  | some line => exact Lockstep.ok ⟨h, .refl b, hline⟩

/-- A slot of the screen is allocated on demand, and its row is valid. -/
theorem allocateFullLine_row (h : Shape b) (x : Int) {α : Type} {Q : α → Prop}
    {f : ShortStore → TerminalBuffer × Nat → Java α}
    (hf : ∀ b' line r, Shape b' → Grown b b' → b'.mLines[b.slot x]? = some (some line) →
      b'.rows[line]? = some r → TerminalRow.Valid b.mColumns r → Runs True E Q fun m => f m (b', line)) :
    Runs True E Q fun m => b.allocateFullLineIfNecessary (b.slot x) >>= f m := by
  refine runs_bind (allocateFullLineIfNecessary_runs h (by omega)
    (by have := h.slot_lt x; omega)) ?_
  rintro ⟨b', line⟩ ⟨hs, hg, hline⟩
  rw [Int.toNat_natCast] at hline
  obtain ⟨r, hr, hv⟩ := hs.objects.valid _ _ hline
  rw [hg.columns] at hv
  exact hf b' line r hs hg hline hr hv

/-! ## Writing into rows -/

theorem setChar_shape (h : Shape b) {column row : Int} {codePoint : Nat} {style : Style}
    (hs : isScalar codePoint = true) (hcols : WcWidth.width codePoint = 0 → b.mColumns = 1 → E)
    (hrange : ¬ (0 ≤ row ∧ row < b.mScreenRows ∧ 0 ≤ column ∧ column < b.mColumns) → E)
    (hw : WcWidth.width codePoint = 2 → column + 1 = b.mColumns → E) :
    Runs True E (fun b' => Shape b' ∧ Grown b b' ∧ b'.Allocated (b.slot row)) fun _ =>
      b.setChar column row codePoint style := by
  simp only [setChar]
  by_cases hr : row < 0 ∨ b.mScreenRows ≤ row ∨ column < 0 ∨ b.mColumns ≤ column
  · simp only [if_pos hr]
    exact Lockstep.error (hrange (by omega)) _
  have hhist := h.history
  simp only [if_neg hr, externalToInternalRow_eq h (show -b.mActiveTranscriptRows ≤ row by omega)
    (by omega), ok_bind]
  refine allocateFullLine_row h row fun b' line r hb' hg hline hrow hv => ?_
  simp only [deref_eq hrow, ok_bind]
  refine runs_bind (TerminalRow.setChar_runs hv hcols (by omega) (by omega) hs hw
    fun _ => trivial) fun r' hr' => ?_
  obtain ⟨hb'', hg'⟩ := hb'.update line (hg.columns ▸ hr')
  exact Lockstep.ok ⟨hb'', hg.trans hg', hg'.allocated ⟨line, hline⟩⟩

end TerminalBuffer

end XoDos
