import XoDos.BufferScroll

/-!
# Buffers row by row

`Redrawn P b b'` compares two states of a buffer between which the ring has not
moved: the row at `y` has changed as `P y` says.  Loops over rows, and loops over
the columns of one row, are composed from their rounds.
-/

namespace XoDos

namespace TerminalBuffer

variable {b b' b'' : TerminalBuffer} {P Q : Int → TerminalRow → TerminalRow → Prop}

/-- The rows that are seen have changed as `P` says. -/
structure Redrawn (P : Int → TerminalRow → TerminalRow → Prop) (b b' : TerminalBuffer) : Prop where
  valid : Valid b'
  grown : Grown b b'
  rows : ∀ y, -b.mActiveTranscriptRows ≤ y → y < b.mScreenRows →
    ∃ r r', b.rowAt y = .ok r ∧ b'.rowAt y = .ok r' ∧ P y r r'

/-- Only the row at `y` changes. -/
def At (y : Int) (Q : TerminalRow → TerminalRow → Prop) : Int → TerminalRow → TerminalRow → Prop :=
  fun x r r' => if x = y then Q r r' else r' = r

/-- Only the rows from `top` up to `bottom` change. -/
def Within (top bottom : Int) (Q : Int → TerminalRow → TerminalRow → Prop) :
    Int → TerminalRow → TerminalRow → Prop :=
  fun y r r' => if top ≤ y ∧ y < bottom then Q y r r' else r' = r

/-- The row object that is seen at an external row. -/
theorem Valid.rowAt (hb : Valid b) {y : Int} (h₁ : -b.mActiveTranscriptRows ≤ y)
    (h₂ : y < b.mScreenRows) : ∃ r, b.rowAt y = .ok r ∧ TerminalRow.Valid b.mColumns r := by
  obtain ⟨line, r, hat, -, hr, hv⟩ := hb.lineAt h₁ h₂
  refine ⟨r, ?_, hv⟩
  rw [TerminalBuffer.rowAt, hat, ok_bind, deref_eq hr]

/-- The reference and the object behind a row that is seen. -/
theorem Valid.line_of_rowAt (hb : Valid b) {y : Int} (h₁ : -b.mActiveTranscriptRows ≤ y)
    (h₂ : y < b.mScreenRows) {r : TerminalRow} (hr : b.rowAt y = .ok r) :
    ∃ line, b.lineAt y = .ok (some line) ∧ b.mLines[b.slot y]? = some (some line) ∧
      b.rows[line]? = some r ∧ TerminalRow.Valid b.mColumns r := by
  obtain ⟨line, r', hat, hline, hr', hv⟩ := hb.lineAt h₁ h₂
  rw [TerminalBuffer.rowAt, hat, ok_bind, deref_eq hr'] at hr
  cases hr
  exact ⟨line, hat, hline, hr', hv⟩

namespace Redrawn

theorem refl (hb : Valid b) (h : ∀ y r, b.rowAt y = .ok r → P y r r) : Redrawn P b b := by
  refine ⟨hb, .refl b, fun y h₁ h₂ => ?_⟩
  obtain ⟨r, hr, -⟩ := hb.rowAt h₁ h₂
  exact ⟨r, r, hr, hr, h y r hr⟩

theorem mono (h : Redrawn P b b') (hPQ : ∀ y r r', b.rowAt y = .ok r → P y r r' → Q y r r') :
    Redrawn Q b b' := by
  refine ⟨h.valid, h.grown, fun y h₁ h₂ => ?_⟩
  obtain ⟨r, r', hr, hr', hP⟩ := h.rows y h₁ h₂
  exact ⟨r, r', hr, hr', hPQ y r r' hr hP⟩

theorem trans (h : Redrawn P b b') (h' : Redrawn Q b' b'') :
    Redrawn (fun y r r'' => ∃ r', P y r r' ∧ Q y r' r'') b b'' := by
  refine ⟨h'.valid, h.grown.trans h'.grown, fun y h₁ h₂ => ?_⟩
  obtain ⟨r, r', hr, hr', hP⟩ := h.rows y h₁ h₂
  obtain ⟨s, s', hs, hs', hQ⟩ := h'.rows y (by rwa [h.grown.history]) (by rwa [h.grown.screen])
  rw [hr'] at hs
  cases hs
  exact ⟨r, s', hr, hs', r', hP, hQ⟩

/-- What is known of the row at `y`. -/
theorem row (h : Redrawn P b b') {y : Int} (h₁ : -b.mActiveTranscriptRows ≤ y)
    (h₂ : y < b.mScreenRows) {r : TerminalRow} (hr : b.rowAt y = .ok r) :
    ∃ r', b'.rowAt y = .ok r' ∧ P y r r' := by
  obtain ⟨s, r', hs, hr', hP⟩ := h.rows y h₁ h₂
  rw [hr] at hs
  cases hs
  exact ⟨r', hr', hP⟩

end Redrawn

/-- A method of the row object at `y` has left it as `r'`. -/
theorem Valid.update_redrawn (hb : Valid b) {y : Int} (h₁ : -b.mActiveTranscriptRows ≤ y)
    (h₂ : y < b.mScreenRows) {line : Nat} {r r' : TerminalRow}
    (hline : b.mLines[b.slot y]? = some (some line)) (hr : b.rows[line]? = some r)
    (hr' : TerminalRow.Valid b.mColumns r') :
    Redrawn (At y fun s s' => s = r ∧ s' = r') b (b.update line r') := by
  obtain ⟨hs, hg⟩ := hb.toShape.update line hr'
  refine ⟨hg.valid hb hs, hg, fun x hx hx' => ?_⟩
  obtain ⟨line', s, -, hline', hs', -⟩ := hb.lineAt hx hx'
  have hold := (Grown.refl b).rowAt hb.toShape hx hx' hline' hs'
  have hlt : line < b.rows.length := (List.getElem?_eq_some_iff.mp hr).1
  by_cases hxy : x = y
  · subst hxy
    rw [hline] at hline'
    cases hline'
    rw [hr] at hs'
    cases hs'
    refine ⟨r, r', hold, hg.rowAt hb.toShape hx hx' hline (List.getElem?_set_self hlt), ?_⟩
    rw [At, if_pos rfl]
    exact ⟨rfl, rfl⟩
  · -- Different rows have different slots, and these have different objects.
    have hne : line ≠ line' := by
      rintro rfl
      have hslot := hb.objects.distinct _ _ _ hline hline'
      have hfits := hb.fits
      have hT := hb.toShape.total_pos
      have := Ring.index_inj hT (by omega) (by omega) hslot
      omega
    refine ⟨s, s, hold, hg.rowAt hb.toShape hx hx' hline' ?_, ?_⟩
    · rw [update]
      simp only
      rw [List.getElem?_set_ne hne, hs']
    · rw [At, if_neg hxy]

/-! ## Loops

The rounds of a loop may stop with a `short` that overflows, where `T` admits it, or with an
exception, where `E` does.
-/

section

variable {T E : Prop}

/-- A loop over the columns of one row. -/
theorem runs_forUp_row {y left right : Int}
    {f : ShortStore → Int → TerminalBuffer → Java TerminalBuffer} {J : Int → TerminalRow → Prop}
    {r : TerminalRow} (hlr : left ≤ right) (hb : Valid b) (h₁ : -b.mActiveTranscriptRows ≤ y)
    (h₂ : y < b.mScreenRows) (hr : b.rowAt y = .ok r) (hJ : J left r)
    (hf : ∀ x s b₁, left ≤ x → x < right → Valid b₁ → Grown b b₁ → b₁.rowAt y = .ok s → J x s →
      Runs T E (Redrawn (At y fun t t' => t = s ∧ J (x + 1) t') b₁) fun m => f m x b₁) :
    Runs T E (Redrawn (At y fun t t' => t = r ∧ J right t') b) fun m => forUp left right (f m) b := by
  have hstart : Redrawn (At y fun t t' => t = r ∧ J left t') b b := by
    refine Redrawn.refl hb fun x s hs => ?_
    rw [At]
    split_ifs with hxy
    · rw [hxy, hr] at hs
      cases hs
      exact ⟨rfl, hJ⟩
    · rfl
  refine runs_forUp_index (I := fun x => Redrawn (At y fun t t' => t = r ∧ J x t') b) hlr
    (fun x b₁ hx hx' hred => ?_) hstart
  obtain ⟨s, hs, hP⟩ := hred.row h₁ h₂ hr
  rw [At, if_pos rfl] at hP
  refine (hf x s b₁ hx hx' hred.valid hred.grown hs hP.2).mono fun b₂ hred' => ?_
  refine (hred.trans hred').mono fun z t t' _ hz => ?_
  obtain ⟨u, hu, hu'⟩ := hz
  rw [At] at hu hu' ⊢
  split_ifs at hu hu' ⊢ with hzy
  · exact ⟨hu.1, hu'.2⟩
  · rw [hu', hu]

/-- A loop over rows, each round of which changes only its row. -/
theorem runs_forUp_rows {top bottom : Int}
    {f : ShortStore → Int → TerminalBuffer → Java TerminalBuffer} (hb : Valid b)
    (h₁ : -b.mActiveTranscriptRows ≤ top) (h₂ : bottom ≤ b.mScreenRows)
    (hf : ∀ y r b₁, top ≤ y → y < bottom → Valid b₁ → Grown b b₁ → b.rowAt y = .ok r →
      b₁.rowAt y = .ok r → Runs T E (Redrawn (At y (Q y)) b₁) fun m => f m y b₁) :
    Runs T E (Redrawn (Within top bottom Q) b) fun m => forUp top bottom (f m) b := by
  by_cases htb : top ≤ bottom
  swap
  · refine runs_of_eq (fun _ => forUp_of_le (by omega)) (Redrawn.refl hb fun y r _ => ?_)
    rw [Within, if_neg (by omega)]
  have hstart : Redrawn (Within top top Q) b b := by
    refine Redrawn.refl hb fun y r _ => ?_
    rw [Within, if_neg (by omega)]
  refine runs_forUp_index (I := fun y => Redrawn (Within top y Q) b) htb
    (fun y b₁ hy hy' hred => ?_) hstart
  obtain ⟨r, hr, -⟩ := hb.rowAt (show -b.mActiveTranscriptRows ≤ y by omega)
    (show y < b.mScreenRows by omega)
  -- The row at `y` is still as it was.
  obtain ⟨r₁, hr₁, hP⟩ := hred.row (by omega) (by omega) hr
  rw [Within, if_neg (by omega)] at hP
  rw [hP] at hr₁
  refine (hf y r b₁ hy hy' hred.valid hred.grown hr hr₁).mono fun b₂ hred' => ?_
  refine (hred.trans hred').mono fun z s s' _ hz => ?_
  obtain ⟨t, ht, ht'⟩ := hz
  rw [Within] at ht ⊢
  rw [At] at ht'
  obtain hz | rfl | hz : z < y ∨ z = y ∨ y < z := by omega
  · rw [if_neg (by omega)] at ht'
    subst ht'
    by_cases hzt : top ≤ z
    · rw [if_pos (by omega)] at ht ⊢
      exact ht
    · rw [if_neg (by omega)] at ht ⊢
      exact ht
  · rw [if_pos rfl] at ht'
    rw [if_neg (by omega)] at ht
    rw [if_pos (by omega), ← ht]
    exact ht'
  · rw [if_neg (by omega)] at ht ht' ⊢
    rw [ht', ht]

end

/-- A loop over the columns of one row, all of whose rounds return. -/
theorem forUp_row {y left right : Int} {f : Int → TerminalBuffer → Java TerminalBuffer}
    {J : Int → TerminalRow → Prop} {r : TerminalRow} (hlr : left ≤ right) (hb : Valid b)
    (h₁ : -b.mActiveTranscriptRows ≤ y) (h₂ : y < b.mScreenRows) (hr : b.rowAt y = .ok r)
    (hJ : J left r)
    (hf : ∀ x s b₁, left ≤ x → x < right → Valid b₁ → Grown b b₁ → b₁.rowAt y = .ok s → J x s →
      ∃ b₂ s', f x b₁ = .ok b₂ ∧ Redrawn (At y fun t t' => t = s ∧ t' = s') b₁ b₂ ∧ J (x + 1) s') :
    ∃ b', forUp left right f b = .ok b' ∧ Redrawn (At y fun t t' => t = r ∧ J right t') b b' := by
  have hruns : Runs False False (Redrawn (At y fun t t' => t = r ∧ J right t') b) fun _ =>
      forUp left right f b :=
    runs_forUp_row hlr hb h₁ h₂ hr hJ fun x s b₁ hx hx' hb₁ hg hs hJs => by
      obtain ⟨b₂, s', hb₂, hred, hJ'⟩ := hf x s b₁ hx hx' hb₁ hg hs hJs
      refine runs_of_eq (fun _ => hb₂) (hred.mono fun z t t' _ hz => ?_)
      rw [At] at hz ⊢
      split_ifs at hz ⊢
      · exact ⟨hz.1, hz.2 ▸ hJ'⟩
      · exact hz
  obtain ⟨b', hb', -, hred⟩ := hruns.both_return
  exact ⟨b', hb', hred⟩

/-- A loop over rows, all of whose rounds return. -/
theorem forUp_rows {top bottom : Int} {f : Int → TerminalBuffer → Java TerminalBuffer}
    (hb : Valid b) (h₁ : -b.mActiveTranscriptRows ≤ top) (h₂ : bottom ≤ b.mScreenRows)
    (hf : ∀ y r b₁, top ≤ y → y < bottom → Valid b₁ → Grown b b₁ → b.rowAt y = .ok r →
      b₁.rowAt y = .ok r → ∃ b₂, f y b₁ = .ok b₂ ∧ Redrawn (At y (Q y)) b₁ b₂) :
    ∃ b', forUp top bottom f b = .ok b' ∧ Redrawn (Within top bottom Q) b b' := by
  have hruns : Runs False False (Redrawn (Within top bottom Q) b) fun _ => forUp top bottom f b :=
    runs_forUp_rows hb h₁ h₂ fun y r b₁ hy hy' hb₁ hg hr hr₁ => by
      obtain ⟨b₂, hb₂, hred⟩ := hf y r b₁ hy hy' hb₁ hg hr hr₁
      exact runs_of_eq (fun _ => hb₂) hred
  obtain ⟨b', hb', -, hred⟩ := hruns.both_return
  exact ⟨b', hb', hred⟩

end TerminalBuffer

end XoDos
