import XoDos.BufferScroll

/-!
# Clearing the transcript and resizing

The fast resize moves the origin of the ring, the slow one builds a new array
and copies every character.  Both say where the cursor goes.
-/

namespace XoDos

namespace TerminalBuffer

open WcWidth (width)

variable {b b' : TerminalBuffer} {E : Prop}

/-! ## Forgetting the history -/

theorem arraysFill_eq {α : Type} {a : List α} {i j : Int} (x : α) (h₀ : 0 ≤ i) (hij : i ≤ j)
    (hj : j ≤ a.length) :
    ∃ l, arraysFill a i j x = .ok l ∧ l.length = a.length ∧
      ∀ p : Nat, l[p]? = if i ≤ p ∧ p < j then some x else a[p]? := by
  refine ⟨_, by rw [arraysFill, if_neg (by omega), if_neg (by omega)], ?_, fun p => ?_⟩
  · simp only [List.length_append, List.length_take, List.length_replicate, List.length_drop]
    omega
  · have := @Ring.getElem?_overwrite _ a (List.replicate (j - i).toNat x) i.toNat
      (by simp; omega) p
    simp only [List.length_replicate] at this
    rw [show i.toNat + (j - i).toNat = j.toNat by omega] at this
    rw [this]
    by_cases hp : i ≤ p ∧ p < j
    · rw [if_pos (by omega), if_pos hp, List.getElem?_replicate, if_pos (by omega)]
    · rw [if_neg (by omega), if_neg hp]

/-- Slots that show no row of the screen may be forgotten with the history. -/
theorem Valid.forget (h : Valid b) {lines : List (Option Nat)}
    (hlen : lines.length = b.mLines.length)
    (hl : ∀ j : Nat, lines[j]? = b.mLines[j]? ∨ lines[j]? = some none)
    (hscreen : ∀ x, 0 ≤ x → x < b.mScreenRows → lines[b.slot x]? = b.mLines[b.slot x]?) :
    Valid { b with mLines := lines, mActiveTranscriptRows := 0 } := by
  have hfits := h.fits
  have hhist := h.history
  refine ⟨⟨h.columns, h.screen, le_rfl, by simp only; omega, by rw [hlen]; exact h.lines,
    by rw [hlen]; exact h.first, h.objects.forget fun j l hj => ?_⟩, fun x hx hx' => ?_⟩
  · obtain he | he := hl j
    · rw [← he, hj]
    · rw [he] at hj
      cases hj
  · simp only at hx hx'
    obtain ⟨line, hline⟩ := h.window x (by omega) hx'
    exact ⟨line, (hscreen x (by omega) hx').trans hline⟩

theorem clearTranscript_returns (h : Valid b) :
    ∃ b', b.clearTranscript = .ok b' ∧ Valid b' ∧ b'.mColumns = b.mColumns ∧
      b'.mScreenRows = b.mScreenRows ∧ b'.mTotalRows = b.mTotalRows := by
  have hT := h.total_pos
  have hfits := h.fits
  have hhist := h.history
  have hfirst := h.first
  have hl := h.lines
  have hs := h.screen
  unfold clearTranscript
  split_ifs with hF
  · obtain ⟨l₁, he₁, hlen₁, hget₁⟩ := arraysFill_eq (a := b.mLines) (none : Option Nat)
      (show 0 ≤ b.mTotalRows + b.mScreenFirstRow - b.mActiveTranscriptRows by omega)
      (show b.mTotalRows + b.mScreenFirstRow - b.mActiveTranscriptRows ≤ b.mTotalRows by omega) hl
    obtain ⟨l₂, he₂, hlen₂, hget₂⟩ := arraysFill_eq (a := l₁) (none : Option Nat) le_rfl hfirst.1
      (by omega)
    refine ⟨_, by rw [he₁, ok_bind, he₂]; rfl, h.forget (hlen₂.trans hlen₁) (fun j => ?_)
      (fun x hx hx' => ?_), rfl, rfl, rfl⟩
    · rw [hget₂, hget₁]
      split_ifs <;> simp
    · -- The screen lies between the two parts of the history.
      have hslot : (b.slot x : Int) = b.mScreenFirstRow + x := by
        rw [slot, Ring.index_of_lt (by omega) (by omega)]
        omega
      rw [hget₂, hget₁, if_neg (by omega), if_neg (by omega)]
  · obtain ⟨l₁, he₁, hlen₁, hget₁⟩ := arraysFill_eq (a := b.mLines) (none : Option Nat)
      (show 0 ≤ b.mScreenFirstRow - b.mActiveTranscriptRows by omega)
      (show b.mScreenFirstRow - b.mActiveTranscriptRows ≤ b.mScreenFirstRow by omega) (by omega)
    refine ⟨_, by rw [he₁]; rfl, h.forget hlen₁ (fun j => ?_) (fun x hx hx' => ?_), rfl, rfl, rfl⟩
    · rw [hget₁]
      split_ifs <;> simp
    · rw [hget₁, if_neg]
      rintro ⟨h₁, h₂⟩
      -- A slot of the history is the slot of a negative row.
      have hlt : (b.slot x : Int) < b.mTotalRows := Ring.index_lt hT
      have hself : Ring.index b.mTotalRows (b.slot x) = b.slot x := by
        rw [Ring.index_of_lt (by omega) hlt, Int.toNat_natCast]
      have := Ring.index_inj hT (by omega) (by omega) hself
      omega

/-! ## The fast resize -/

theorem isBlank_returns {columns : Int} {r : TerminalRow} (h : TerminalRow.Valid columns r) :
    ∃ blank, r.isBlank = .ok blank := by
  obtain ⟨⟨-, cells, hcells⟩, -⟩ := h
  obtain ⟨slack, ht⟩ := hcells.text
  have hle : r.mSpaceUsed ≤ r.mText.length := by
    rw [hcells.space, ht, List.length_append]
    omega
  rw [TerminalRow.isBlank]
  split_ifs
  · exact ⟨true, rfl⟩
  · exact ⟨false, rfl⟩

/-- The loop takes at most one off the shift for each row below the cursor. -/
theorem skipBlankLoop_returns (h : Valid b) {y shift : Int} {n : Nat} (hn : n < b.mScreenRows)
    (hshift : 0 < shift) :
    ∃ k, b.skipBlankLoop y n shift = .ok k ∧ 0 ≤ k ∧ k ≤ shift ∧ shift - max 0 (n - y) ≤ k := by
  induction n generalizing shift with
  | zero => exact ⟨shift, rfl, by omega, by omega, by omega⟩
  | succ n ih =>
    rw [skipBlankLoop]
    by_cases hy : (n : Int) + 1 ≤ y
    · exact ⟨shift, by rw [if_pos hy]; rfl, by omega, by omega, by omega⟩
    rw [if_neg hy]
    have hhist := h.history
    push_cast at hn hy
    obtain ⟨line, r, hat, -, hr, hv⟩ := h.lineAt (x := (n : Int) + 1) (by omega) hn
    obtain ⟨blank, hblank⟩ := isBlank_returns hv
    simp only [hat, ok_bind, deref_eq hr, hblank]
    cases blank with
    | false =>
      obtain ⟨k, hk, h₀, h₁, h₂⟩ := ih (by omega) hshift
      refine ⟨k, by simpa using hk, h₀, h₁, ?_⟩
      push_cast
      omega
    | true =>
      simp only [if_true]
      by_cases hz : shift - 1 = 0
      · refine ⟨0, by rw [if_pos hz]; rfl, le_rfl, by omega, ?_⟩
        push_cast
        omega
      · obtain ⟨k, hk, h₀, h₁, h₂⟩ := @ih (shift - 1) (by omega) (by omega)
        refine ⟨k, by rw [if_neg hz]; exact hk, h₀, by omega, ?_⟩
        push_cast
        omega

/-- Blanking slots behind the screen allocates them. -/
theorem blankBelow_runs (h : Shape b) {style : Style} {n : Int} (h₀ : 0 ≤ n) :
    Runs True E (fun b' => Shape b' ∧ Grown b b' ∧
        ∀ x, b.mScreenRows ≤ x → x < b.mScreenRows + n → b'.Allocated (b.slot x))
      (fun _ => forUp 0 n (fun i b => do
        let row ← modRows (b.mScreenFirstRow + b.mScreenRows + i) b.mTotalRows
        let (b, line) ← b.allocateFullLineIfNecessary row
        let r ← b.deref (some line)
        let r ← r.clear style
        return b.update line r) b) := by
  refine runs_forUp_index (I := fun i b' => Shape b' ∧ Grown b b' ∧
    ∀ x, b.mScreenRows ≤ x → x < b.mScreenRows + i → b'.Allocated (b.slot x)) h₀ ?_
    ⟨h, .refl b, fun x h₁ h₂ => by omega⟩
  rintro i b₁ hi hin ⟨h₁, hg₁, hall⟩
  have hf := h₁.first
  have hs := h₁.screen
  have hc := h₁.columns
  have hs₁ := hg₁.screen
  have hrow : modRows (b₁.mScreenFirstRow + b₁.mScreenRows + i) b₁.mTotalRows =
      .ok (b₁.slot (b₁.mScreenRows + i)) := by
    rw [modRows_eq (by omega) h₁.total_pos, add_assoc, slot]
  simp only [hrow, ok_bind]
  refine allocateFullLine_row h₁ (b₁.mScreenRows + i) fun b₂ line r h₂ hg₂ hline hr hv => ?_
  simp only [deref_eq hr, ok_bind]
  refine runs_bind (hv.clear_runs (by omega) fun _ => trivial) ?_
  rintro r' ⟨hr', -⟩
  obtain ⟨h₃, hg₃⟩ := h₂.update line (hg₂.columns ▸ hr')
  refine Lockstep.ok ⟨h₃, (hg₁.trans hg₂).trans hg₃, fun x hx hx' => ?_⟩
  obtain hlt | rfl : x < b.mScreenRows + i ∨ x = b.mScreenRows + i := by omega
  · exact hg₃.allocated (hg₂.allocated (hall x hx hlt))
  · rw [hg₁.slot, hs₁] at hline
    exact hg₃.allocated ⟨line, hline⟩

/-- A fast resize does not allocate, so the ring has to stay as it is, or to be cut to allocated
slots that hold what is kept. -/
def FastResizeFits (b : TerminalBuffer) (newTotalRows : Int) (altScreen : Bool) : Prop :=
  newTotalRows = b.mTotalRows ∨ (newTotalRows ≤ b.mLines.length ∧
    (∀ j : Nat, j < newTotalRows → b.Allocated j) ∧
    (altScreen = true ∨ b.mActiveTranscriptRows + b.mScreenRows ≤ newTotalRows))

/-- The end of the fast resize: the screen starts `shift` rows further down. -/
theorem shiftScreen_valid {newRows newTotalRows shift : Int} {altScreen : Bool} (h : Valid b)
    (hb' : Shape b') (hg : Grown b b') (h₁ : 1 ≤ newRows) (hN : newRows ≤ newTotalRows)
    (hT : newRows ≤ b.mTotalRows) (hfits : FastResizeFits b newTotalRows altScreen)
    (hlow : -b.mActiveTranscriptRows ≤ shift) (hhigh : shift ≤ max (b.mScreenRows - newRows) (-b.mActiveTranscriptRows))
    (hall : ∀ x, b.mScreenRows ≤ x → x < newRows + shift → b'.Allocated (b.slot x)) :
    Valid { b' with
      mScreenFirstRow := Ring.index b.mTotalRows (b.mScreenFirstRow + shift)
      mTotalRows := newTotalRows
      mActiveTranscriptRows :=
        if altScreen then 0 else max 0 (b.mActiveTranscriptRows + shift)
      mScreenRows := newRows } := by
  have hT₀ := h.total_pos
  have hlines := h.lines
  have hlen := hg.lines
  have hfits' := h.fits
  have hindex := Ring.index_lt (x := b.mScreenFirstRow + shift) hT₀
  refine ⟨⟨hb'.columns, h₁, ?_, ?_, ?_, ⟨by simp, by simp only; omega⟩, hb'.objects⟩,
    fun x hx hx' => ?_⟩
  · simp only
    split_ifs <;> omega
  · simp only
    obtain rfl | ⟨-, -, halt | hkept⟩ := hfits
    · split_ifs <;> omega
    · simp only [halt, if_true]
      omega
    · split_ifs <;> omega
  · simp only
    obtain rfl | ⟨hle, -⟩ := hfits <;> omega
  · simp only at hx hx'
    -- Either the ring keeps its length and the window moves along it, or every slot has a row.
    obtain rfl | ⟨-, hfull, -⟩ := hfits
    · have hlow' : -b.mActiveTranscriptRows ≤ shift + x := by
        split_ifs at hx <;> omega
      have hslot : slot { b' with
          mScreenFirstRow := Ring.index b.mTotalRows (b.mScreenFirstRow + shift)
          mTotalRows := b.mTotalRows
          mActiveTranscriptRows := if altScreen then 0 else max 0 (b.mActiveTranscriptRows + shift)
          mScreenRows := newRows } x = b.slot (shift + x) := by
        simp only [slot]
        rw [Ring.index_index_add hT₀, add_assoc]
      rw [hslot]
      by_cases hS : shift + x < b.mScreenRows
      · exact hg.allocated (h.window _ hlow' hS)
      · exact hall _ (by omega) (by omega)
    · exact hg.allocated (hfull _ (Ring.index_lt (show 0 < newTotalRows by omega)))

/-- What a resize returns: a valid buffer of the new size, and a cursor that is not below or to the
right of the new screen if it was not outside of the old one. -/
structure Resized (b : TerminalBuffer) (newColumns newRows newTotalRows : Int) (cursor : Int × Int)
    (p : TerminalBuffer × (Int × Int)) : Prop where
  valid : Valid p.1
  columns : p.1.mColumns = newColumns
  screen : p.1.mScreenRows = newRows
  total : p.1.mTotalRows = newTotalRows
  cursorColumn : cursor.1 < b.mColumns → p.2.1 < newColumns
  cursorRow : cursor.2 < b.mScreenRows → p.2.2 < newRows

theorem screenFirstRow_eq (h : Shape b) {shift : Int} (hlow : -b.mActiveTranscriptRows ≤ shift) :
    (if b.mScreenFirstRow + shift < 0 then .ok (b.mScreenFirstRow + shift + b.mTotalRows)
      else modRows (b.mScreenFirstRow + shift) b.mTotalRows) =
      .ok (Ring.index b.mTotalRows (b.mScreenFirstRow + shift) : Int) := by
  have hT := h.total_pos
  have hf := h.first
  have hfits := h.fits
  have hs := h.screen
  split_ifs with hneg
  · rw [Ring.index_cast hT, ← Int.add_emod_right, Int.emod_eq_of_lt (by omega) (by omega)]
  · exact modRows_eq (by omega) hT

theorem resizeRows_runs (h : Valid b) {newRows newTotalRows : Int} {cursor : Int × Int}
    {style : Style} {altScreen : Bool} (h₁ : 1 ≤ newRows) (hN : newRows ≤ newTotalRows)
    (hT : newRows ≤ b.mTotalRows) (hfits : FastResizeFits b newTotalRows altScreen) :
    Runs True E (Resized b b.mColumns newRows newTotalRows cursor) fun _ =>
      b.resizeRows newRows newTotalRows cursor style altScreen := by
  have hhist := h.history
  have hs := h.screen
  simp only [resizeRows]
  -- The buffer and the shift before the origin moves.
  refine runs_bind (P := fun p : TerminalBuffer × Int => Shape p.1 ∧ Grown b p.1 ∧
    -b.mActiveTranscriptRows ≤ p.2 ∧ p.2 ≤ max (b.mScreenRows - newRows) (-b.mActiveTranscriptRows) ∧
    (cursor.2 < b.mScreenRows → cursor.2 - p.2 < newRows) ∧
    ∀ x, b.mScreenRows ≤ x → x < newRows + p.2 → p.1.Allocated (b.slot x)) ?_ ?_
  · obtain hlt | heq | hgt := lt_trichotomy (b.mScreenRows - newRows) 0
    · have hcond : ¬ (0 < b.mScreenRows - newRows ∧ b.mScreenRows - newRows < b.mScreenRows) := by omega
      simp only [if_neg hcond, if_pos hlt]
      by_cases hne : b.mScreenRows - newRows ≠
          max (b.mScreenRows - newRows) (-b.mActiveTranscriptRows)
      · simp only [if_pos hne]
        refine runs_bind (blankBelow_runs h.toShape (by omega)) ?_
        rintro b₁ ⟨hs₁, hg₁, hall⟩
        refine Lockstep.ok ⟨hs₁, hg₁, by omega, by omega, by omega, fun x hx hx' => ?_⟩
        exact hall x hx (by simp only at hx'; omega)
      · simp only [if_neg hne]
        exact Lockstep.ok ⟨h.toShape, .refl b, by omega, by omega, by omega, fun x hx hx' => by
          simp only at hx'; omega⟩
    · simp only [heq, lt_irrefl, false_and, if_false]
      exact Lockstep.ok ⟨h.toShape, .refl b, by omega, by omega, by omega, fun x hx hx' => by
          simp only at hx'; omega⟩
    · have hcond : 0 < b.mScreenRows - newRows ∧ b.mScreenRows - newRows < b.mScreenRows := by omega
      simp only [if_pos hcond]
      obtain ⟨k, hk, hk₀, hk₁, hk₂⟩ := skipBlankLoop_returns h (y := cursor.2)
        (n := (b.mScreenRows - 1).toNat) (by omega) hgt
      simp only [hk, ok_bind]
      exact Lockstep.ok ⟨h.toShape, .refl b, by omega, by omega, by omega, fun x hx hx' => by
          simp only at hx'; omega⟩
  · rintro ⟨b₁, shift⟩ ⟨hs₁, hg₁, hlow, hhigh, hcursor, hall⟩
    simp only at hlow hhigh hcursor hall hs₁ hg₁ ⊢
    simp only [hg₁.first, hg₁.total, hg₁.history, screenFirstRow_eq h.toShape hlow, ok_bind]
    exact Lockstep.ok ⟨shiftScreen_valid h hs₁ hg₁ h₁ hN hT hfits hlow hhigh hall, hg₁.columns, rfl,
      rfl, fun hc => hc, hcursor⟩

end TerminalBuffer

end XoDos
