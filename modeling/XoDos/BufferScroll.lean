import XoDos.BufferWrite
import XoDos.Scrollback

/-!
# Scrolling

`scrollDownOneLine` moves the fixed rows above and below the scrolled region by
one slot and then moves the origin of the ring.  The two moves are described as
moves of blocks on a circle.
-/

namespace XoDos

namespace TerminalBuffer

variable {b b' : TerminalBuffer} {T E : Prop}

/-! ## Moving a block of slots -/

theorem copyLinesLoop_eq {src total : Int} (ht : 0 < total) (hsrc : 0 ≤ src) {n : Nat}
    (hn : n < total) {lines : List (Option Nat)} (hlen : total ≤ lines.length) :
    ∃ lines', copyLinesLoop src total n lines = .ok lines' ∧ lines'.length = lines.length ∧
      (∀ x, src < x → x ≤ src + n →
        lines'[Ring.index total x]? = lines[Ring.index total (x - 1)]?) ∧
      (∀ j, (∀ x, src < x → x ≤ src + n → Ring.index total x ≠ j) → lines'[j]? = lines[j]?) := by
  induction n generalizing lines with
  | zero => exact ⟨lines, rfl, rfl, fun x h₁ h₂ => by omega, fun _ _ => rfl⟩
  | succ n ih =>
    have hlt (x : Int) : Ring.index total x < lines.length := by
      have := Ring.index_lt (x := x) ht
      omega
    obtain ⟨line, hsource⟩ : ∃ line, lines[Ring.index total (src + n)]? = some line :=
      ⟨_, List.getElem?_eq_getElem (hlt _)⟩
    obtain ⟨lines', hloop, hlen', hmoved, hrest⟩ := @ih (by omega)
      (lines.set (Ring.index total (src + n + 1)) line) (by simpa using hlen)
    refine ⟨lines', ?_, by simpa using hlen', fun x h₁ h₂ => ?_, fun j hj => ?_⟩
    · rw [copyLinesLoop, modRows_eq (by omega) ht, ok_bind, arrayGet_slot hsource, ok_bind,
        modRows_eq (by omega) ht, ok_bind, arraySet_ok _ (by omega) (by have := hlt (src + n + 1); omega),
        ok_bind, Int.toNat_natCast, hloop]
    · have hne (y : Int) (hy : src ≤ y) (hy' : y ≤ src + n) :
          Ring.index total (src + n + 1) ≠ Ring.index total y := by
        intro he
        have := Ring.index_inj ht (by push_cast at hn; omega) (by omega) he
        omega
      push_cast at h₂
      obtain hx | rfl : x ≤ src + n ∨ x = src + n + 1 := by omega
      · rw [hmoved x h₁ hx, List.getElem?_set_ne (hne _ (by omega) (by omega))]
      · rw [hrest _ fun y h₃ h₄ => (hne y h₃.le h₄).symm, List.getElem?_set_self (hlt _),
          add_sub_cancel_right, hsource]
    · rw [hrest j fun x h₁ h₂ => hj x h₁ (by push_cast; omega),
        List.getElem?_set_ne (hj _ (by omega) (by push_cast; omega))]

theorem blockCopyLinesDown_eq (h : Shape b) {src len : Int} (hsrc : 0 ≤ src) (h₀ : 0 ≤ len)
    (hlen : len < b.mTotalRows) :
    ∃ lines, b.blockCopyLinesDown src len = .ok { b with mLines := lines } ∧
      Ring.Moved b.mTotalRows src len b.mLines lines := by
  have ht := h.total_pos
  have hl := h.lines
  unfold blockCopyLinesDown
  split_ifs with hz
  · subst hz
    exact ⟨b.mLines, rfl, .refl _⟩
  -- The last line is kept aside, the others move down one by one, and it is put in front.
  have hlt (x : Int) : Ring.index b.mTotalRows x < b.mLines.length := by
    have := Ring.index_lt (x := x) ht
    omega
  obtain ⟨lines, hloop, hlines, hmoved, hrest⟩ := copyLinesLoop_eq ht hsrc
    (n := len.toNat) (by omega) hl
  obtain ⟨line, hlast⟩ : ∃ line, b.mLines[Ring.index b.mTotalRows (src + len)]? = some line :=
    ⟨_, List.getElem?_eq_getElem (hlt _)⟩
  have hne (x : Int) (h₁ : src < x) (h₂ : x < src + b.mTotalRows) :
      Ring.index b.mTotalRows src ≠ Ring.index b.mTotalRows x := by
    intro he
    have := Ring.index_inj ht (by omega) (by omega) he
    omega
  refine ⟨lines.set (Ring.index b.mTotalRows src) line, ?_, by simpa using hlines, ?_, fun x h₁ h₂ => ?_, fun x h₁ h₂ => ?_, fun j hj => ?_⟩
  · dsimp only
    rw [show src + (len - 1) + 1 = src + len by omega, show len - 1 + 1 = len by omega,
      modRows_eq (by omega) ht, ok_bind, arrayGet_slot hlast, ok_bind, hloop, ok_bind,
      modRows_eq hsrc ht, ok_bind, arraySet_ok _ (by omega) (by have := hlt src; omega), ok_bind,
      Int.toNat_natCast]
    rfl
  · rw [List.getElem?_set_self (by rw [hlines]; exact hlt _), hlast]
  · rw [List.getElem?_set_ne (hne x h₁ (by omega)), hmoved x h₁ (by omega)]
  · rw [List.getElem?_set_ne (hne x (by omega) h₂), hrest]
    intro y h₃ h₄ he
    have := Ring.index_inj ht (by omega) (by omega) he
    omega
  · have := Ring.index_lt (x := src) ht
    rw [List.getElem?_set_ne (by omega), hrest]
    intro y h₃ h₄ he
    have := Ring.index_lt (x := y) ht
    omega

/-! ## Moving the origin -/

theorem Shape.permute (h : Shape b) {lines : List (Option Nat)} {σ : Nat → Nat}
    (hlen : lines.length = b.mLines.length) (hσ : Function.Injective σ)
    (hl : ∀ j, lines[j]? = b.mLines[σ j]?) : Shape { b with mLines := lines } :=
  ⟨h.columns, h.screen, h.history, h.fits, by rw [hlen]; exact h.lines, by rw [hlen]; exact h.first,
    h.objects.permute hσ hl⟩

theorem Shape.origin (h : Shape b) {first history : Int} (h₀ : 0 ≤ first) (h₁ : first < b.mTotalRows)
    (h₂ : 0 ≤ history) (h₃ : history + b.mScreenRows ≤ b.mTotalRows) :
    Shape { b with mScreenFirstRow := first, mActiveTranscriptRows := history } := by
  have hl := h.lines
  exact ⟨h.columns, h.screen, h₂, h₃, hl, ⟨h₀, by simp only; omega⟩, h.objects⟩

/-- The buffer when the origin of the ring has moved, row by row.  The row `bottom - 1` has still to
be blanked. -/
structure ScrolledRing (b : TerminalBuffer) (top bottom : Int) (b' : TerminalBuffer) : Prop where
  rows : b'.rows = b.rows
  columns : b'.mColumns = b.mColumns
  screen : b'.mScreenRows = b.mScreenRows
  total : b'.mTotalRows = b.mTotalRows
  history : b'.mActiveTranscriptRows = min (b.mActiveTranscriptRows + 1) (b.mTotalRows - b.mScreenRows)
  first : b'.mScreenFirstRow = Ring.index b.mTotalRows (b.mScreenFirstRow + 1)
  length : b'.mLines.length = b.mLines.length
  permuted : ∃ σ : Nat → Nat, Function.Injective σ ∧ ∀ j, b'.mLines[j]? = b.mLines[σ j]?
  above : ∀ x, 0 ≤ x → x < top → b'.mLines[b'.slot x]? = b.mLines[b.slot x]?
  moved : ∀ x, top ≤ x → x < bottom - 1 → b'.mLines[b'.slot x]? = b.mLines[b.slot (x + 1)]?
  below : ∀ x, bottom ≤ x → x < b.mScreenRows → b'.mLines[b'.slot x]? = b.mLines[b.slot x]?
  newest : b.mScreenRows < b.mTotalRows → b'.mLines[b'.slot (-1)]? = b.mLines[b.slot top]?
  older : ∀ x, -b'.mActiveTranscriptRows ≤ x → x < -1 →
    b'.mLines[b'.slot x]? = b.mLines[b.slot (x + 1)]?

/-- What the two moves do to the lines, by their positions on the ring. -/
theorem lines_of_moves {F S T top bottom : Int} {l l₁ l₂ : List (Option Nat)} (hT : S ≤ T)
    (h₀ : 0 ≤ top) (htb : top < bottom) (hbs : bottom ≤ S) (h₁ : Ring.Moved T F top l l₁)
    (h₂ : Ring.Moved T (F + bottom) (S - bottom) l₁ l₂) :
    (∀ p, F < p → p ≤ F + top → l₂[Ring.index T p]? = l[Ring.index T (p - 1)]?) ∧
      (∀ p, F + top < p → p < F + bottom → l₂[Ring.index T p]? = l[Ring.index T p]?) ∧
      (∀ p, F + bottom < p → p ≤ F + S → l₂[Ring.index T p]? = l[Ring.index T (p - 1)]?) ∧
      (∀ p, F + S < p → p < F + T → l₂[Ring.index T p]? = l[Ring.index T p]?) ∧
      (S < T → l₂[Ring.index T F]? = l[Ring.index T (F + top)]?) := by
  -- Around the circle, the second move leaves alone all from behind `F + S` up to `F + bottom`.
  have hrest (p : Int) (hp : F + S < p + T) (hp' : p < F + bottom) :
      l₂[Ring.index T p]? = l₁[Ring.index T p]? := by
    have := h₂.rest (p + T) (by omega) (by omega)
    rwa [Ring.index_add_self] at this
  refine ⟨fun p hp hp' => ?_, fun p hp hp' => ?_, fun p hp hp' => ?_, fun p hp hp' => ?_,
    fun hST => ?_⟩
  · rw [hrest p (by omega) (by omega), h₁.block p hp hp']
  · rw [hrest p (by omega) hp', h₁.rest p hp (by omega)]
  · rw [h₂.block p hp (by omega), h₁.rest (p - 1) (by omega) (by omega)]
  · rw [h₂.rest p (by omega) (by omega), h₁.rest p (by omega) hp']
  · rw [hrest F (by omega) (by omega), h₁.first]

theorem scrollDownOneLine_eq (h : Shape b) {top bottom : Int} (h₀ : 0 ≤ top) (htb : top < bottom)
    (hbs : bottom ≤ b.mScreenRows) :
    ∃ b', ScrolledRing b top bottom b' ∧ Shape b' ∧ ∀ (_ : ShortStore) (style : Style),
      b.scrollDownOneLine top bottom style = b'.blankLine (b'.slot (bottom - 1)) style := by
  have hT := h.total_pos
  have hfits := h.fits
  have hhist := h.history
  obtain ⟨l₁, he₁, hm₁⟩ := blockCopyLinesDown_eq h h.first.1 h₀ (by omega)
  obtain ⟨σ₁, hσ₁, hl₁⟩ := hm₁.injective hT h₀ (by omega)
  have hs₁ := h.permute hm₁.length hσ₁ hl₁
  obtain ⟨l₂, he₂, hm₂⟩ := @blockCopyLinesDown_eq _ hs₁ (b.slot bottom) (b.mScreenRows - bottom)
    (by omega) (by omega) (by simp only; omega)
  obtain ⟨σ₂, hσ₂, hl₂⟩ := hm₂.injective hT (by omega) (by simp only; omega)
  have hs₂ := hs₁.permute hm₂.length hσ₂ hl₂
  obtain ⟨habove, hmoved, hbelow, holder, hnewest⟩ := lines_of_moves (by omega) h₀ htb hbs hm₁
    (hm₂.of_index hT)
  have hindex := Ring.index_lt (x := b.mScreenFirstRow + 1) hT
  have hs₃ : Shape { b with
      mLines := l₂
      mScreenFirstRow := Ring.index b.mTotalRows (b.mScreenFirstRow + 1)
      mActiveTranscriptRows :=
        min (b.mActiveTranscriptRows + 1) (b.mTotalRows - b.mScreenRows) } :=
    hs₂.origin (by omega) hindex (by omega) (by simp only; omega)
  -- The slot of a row is the one behind its old slot.
  have hslot (x : Int) : Ring.index b.mTotalRows (Ring.index b.mTotalRows (b.mScreenFirstRow + 1) + x) =
      Ring.index b.mTotalRows (b.mScreenFirstRow + (x + 1)) := by
    rw [Ring.index_index_add hT]
    congr 1
    omega
  refine ⟨{ b with
      mLines := l₂
      mScreenFirstRow := Ring.index b.mTotalRows (b.mScreenFirstRow + 1)
      mActiveTranscriptRows := min (b.mActiveTranscriptRows + 1) (b.mTotalRows - b.mScreenRows) },
    ⟨rfl, rfl, rfl, rfl, rfl, rfl, hm₂.length.trans hm₁.length, ?_, ?_, ?_, ?_, ?_, ?_⟩, hs₃, ?_⟩
  · refine ⟨σ₁ ∘ σ₂, hσ₁.comp hσ₂, fun j => ?_⟩
    rw [Function.comp_apply, ← hl₁]
    exact hl₂ j
  · intro x hx hx'
    simp only [slot, hslot]
    rw [habove _ (by omega) (by omega)]
    congr 2
    omega
  · intro x hx hx'
    simp only [slot, hslot]
    exact hmoved _ (by omega) (by omega)
  · intro x hx hx'
    simp only [slot, hslot]
    rw [hbelow _ (by omega) (by omega)]
    congr 2
    omega
  · intro hST
    simp only [slot, hslot]
    rw [neg_add_cancel, add_zero, hnewest hST]
  · intro x hx hx'
    simp only at hx
    have := holder (b.mScreenFirstRow + (x + 1) + b.mTotalRows) (by omega) (by omega)
    simp only [Ring.index_add_self] at this
    simp only [slot, hslot]
    exact this
  · intro m style
    have hbelow := externalToInternalRow_eq hs₁ (x := bottom) (by simp only; omega) hbs
    have hblank := externalToInternalRow_eq hs₃ (x := bottom - 1) (by simp only; omega)
      (by simp only; omega)
    have hgrown : (if b.mActiveTranscriptRows < b.mTotalRows - b.mScreenRows then
        b.mActiveTranscriptRows + 1 else b.mActiveTranscriptRows) =
        min (b.mActiveTranscriptRows + 1) (b.mTotalRows - b.mScreenRows) := by
      split_ifs <;> omega
    simp only [slot] at hbelow he₂
    have hfirst := h.first
    simp only [scrollDownOneLine, if_neg (show ¬ (bottom - 1 < top ∨ top < 0 ∨ b.mScreenRows < bottom)
      by omega), he₁, ok_bind, hbelow, he₂, modRows_eq (show 0 ≤ b.mScreenFirstRow + 1 by omega) hT,
      hgrown, hblank]

/-! ## Blanking the revealed line -/

theorem blankLine_runs (h : Shape b) (x : Int) {style : Style} (hT : 32767 < b.mColumns → T) :
    Runs T E (fun b' => Shape b' ∧ Grown b b' ∧ b'.Allocated (b.slot x)) fun _ =>
      b.blankLine (b.slot x) style := by
  obtain ⟨line, hline⟩ : ∃ line, b.mLines[b.slot x]? = some line :=
    ⟨_, List.getElem?_eq_getElem (h.slot_lt x)⟩
  have hc := h.columns
  simp only [blankLine, arrayGet_slot hline, ok_bind]
  cases line with
  | none =>
    refine runs_bind (allocate_runs h (by omega) (by rw [Int.toNat_natCast, hline]) hT) ?_
    rintro ⟨b', line⟩ ⟨hs, hg, hget, -⟩
    rw [Int.toNat_natCast] at hget
    exact Lockstep.ok ⟨hs, hg, line, hget⟩
  | some line =>
    obtain ⟨r, hr, hv⟩ := h.objects.valid _ _ hline
    simp only [deref_eq hr, ok_bind]
    refine runs_bind (hv.clear_runs (by omega) hT) ?_
    rintro r' ⟨hr', -⟩
    obtain ⟨hs, hg⟩ := h.update line hr'
    exact Lockstep.ok ⟨hs, hg, hg.allocated ⟨line, hline⟩⟩

/-- The slots that show the screen and the history are allocated after the scroll. -/
theorem ScrolledRing.allocated {top bottom x : Int} (h : ScrolledRing b top bottom b') (hb : Valid b)
    (h₀ : 0 ≤ top) (htb : top < bottom) (hbs : bottom ≤ b.mScreenRows)
    (hx : -b'.mActiveTranscriptRows ≤ x) (hx' : x < b.mScreenRows) (hne : x ≠ bottom - 1) :
    b'.Allocated (b'.slot x) := by
  have hh := h.history
  have hold (y : Int) (hy : -b.mActiveTranscriptRows ≤ y) (hy' : y < b.mScreenRows)
      (he : b'.mLines[b'.slot x]? = b.mLines[b.slot y]?) : b'.Allocated (b'.slot x) := by
    obtain ⟨line, hline⟩ := hb.window y hy hy'
    exact ⟨line, by rw [he, hline]⟩
  have hhist := hb.history
  obtain hlt | rfl | hge : x < -1 ∨ x = -1 ∨ 0 ≤ x := by omega
  · exact hold (x + 1) (by omega) (by omega) (h.older x hx hlt)
  · exact hold top (by omega) (by omega) (h.newest (by omega))
  · obtain h₁ | h₂ | h₃ : x < top ∨ (top ≤ x ∧ x < bottom - 1) ∨ bottom ≤ x := by omega
    · exact hold x (by omega) hx' (h.above x hge h₁)
    · exact hold (x + 1) (by omega) (by omega) (h.moved x h₂.1 h₂.2)
    · exact hold x (by omega) hx' (h.below x h₃ hx')

theorem scrollDownOneLine_runs (h : Valid b) {top bottom : Int} {style : Style}
    (hrange : ¬ (0 ≤ top ∧ top < bottom ∧ bottom ≤ b.mScreenRows) → E)
    (hT : 32767 < b.mColumns → T) :
    Runs T E (fun b' => Valid b' ∧ b'.mColumns = b.mColumns ∧ b'.mScreenRows = b.mScreenRows ∧
      b'.mTotalRows = b.mTotalRows) fun _ => b.scrollDownOneLine top bottom style := by
  by_cases hr : bottom - 1 < top ∨ top < 0 ∨ b.mScreenRows < bottom
  · simp only [scrollDownOneLine, if_pos hr]
    exact Lockstep.error (hrange (by omega)) _
  obtain ⟨b₁, hring, hs₁, heq⟩ := scrollDownOneLine_eq h.toShape (show 0 ≤ top by omega)
    (show top < bottom by omega) (by omega)
  refine runs_congr (fun m => heq m style) (runs_mono ?_ (blankLine_runs hs₁ (bottom - 1)
    (by rw [hring.columns]; exact hT)))
  rintro b₂ ⟨hs₂, hg, hblank⟩
  refine ⟨⟨hs₂, fun x hx hx' => ?_⟩, hg.columns.trans hring.columns, hg.screen.trans hring.screen,
    hg.total.trans hring.total⟩
  rw [hg.history] at hx
  rw [hg.screen, hring.screen] at hx'
  rw [hg.slot]
  by_cases hne : x = bottom - 1
  · rw [hne]
    exact hblank
  · exact hg.allocated (hring.allocated h (by omega) (by omega) (by omega) hx hx' hne)

/-! ## What is seen -/

/-- The row seen at an external row. -/
def rowAt (b : TerminalBuffer) (x : Int) : Java TerminalRow := do
  let line ← b.lineAt x
  b.deref line

/-- The buffer as a screen with a history. -/
def view (b : TerminalBuffer) : Scrollback (Java TerminalRow) where
  screen := (List.range b.mScreenRows.toNat).map fun i : Nat => b.rowAt i
  history := (List.range b.mActiveTranscriptRows.toNat).map fun k : Nat => b.rowAt (-(k + 1))
  capacity := (b.mTotalRows - b.mScreenRows).toNat

theorem view_screen (b : TerminalBuffer) {x : Int} (h₀ : 0 ≤ x) (hx : x < b.mScreenRows) :
    b.view.screen[x.toNat]? = some (b.rowAt x) := by
  rw [view, List.getElem?_map, List.getElem?_range (by omega), Option.map_some,
    Int.toNat_of_nonneg h₀]

theorem view_history (b : TerminalBuffer) {k : Nat} (hk : k < b.mActiveTranscriptRows) :
    b.view.history[k]? = some (b.rowAt (-(k + 1))) := by
  rw [view, List.getElem?_map, List.getElem?_range (by omega), Option.map_some]

theorem Grown.rowAt (hg : Grown b b') (h : Shape b) {x : Int} (h₁ : -b.mActiveTranscriptRows ≤ x)
    (h₂ : x < b.mScreenRows) {line : Nat} {r : TerminalRow}
    (hline : b'.mLines[b.slot x]? = some (some line)) (hr : b'.rows[line]? = some r) :
    b'.rowAt x = .ok r := by
  have hext : b'.externalToInternalRow x = .ok (b.slot x) := by
    rw [← externalToInternalRow_eq h h₁ h₂.le]
    simp only [externalToInternalRow, hg.history, hg.screen, hg.first, hg.total]
  rw [TerminalBuffer.rowAt, lineAt, hext, ok_bind, arrayGet_slot hline, ok_bind, deref_eq hr]

theorem blankLine_blank (h : Shape b) (x : Int) (style : Style) :
    ∃ b' blank, b.blankLine (b.slot x) style = .ok b' ∧ TerminalRow.Blank b.mColumns style blank ∧
      Grown b b' ∧ (∃ line : Nat, b'.mLines[b.slot x]? = some (some line) ∧
        b'.rows[line]? = some blank) ∧
      ∀ j line r, j ≠ b.slot x → b.mLines[j]? = some (some line) → b.rows[line]? = some r →
        b'.rows[line]? = some r := by
  have hlt := h.slot_lt x
  have hc := h.columns
  obtain ⟨line, hline⟩ : ∃ line, b.mLines[b.slot x]? = some line :=
    ⟨_, List.getElem?_eq_getElem hlt⟩
  -- A slot without a row gets a new one, and a row that is there is cleared where it is.
  cases line with
  | none =>
    obtain ⟨blank, hnew, hblank⟩ := TerminalRow.new_blank style
      (show 0 ≤ b.mColumns by omega)
    refine ⟨{ b with
        rows := b.rows ++ [blank]
        mLines := b.mLines.set (b.slot x) (some b.rows.length) }, blank, ?_, hblank, ?_, ?_, ?_⟩
    · rw [blankLine, arrayGet_slot hline, ok_bind]
      simp only [allocate, hnew, ok_bind]
      rw [arraySet_ok _ (by omega) (by omega), Int.toNat_natCast]
      rfl
    · refine ⟨rfl, rfl, rfl, rfl, rfl, by simp, fun j l hj => ?_⟩
      have hne : b.slot x ≠ j := by
        rintro rfl
        simp [hline] at hj
      simp only
      rw [List.getElem?_set_ne hne, hj]
    · exact ⟨b.rows.length, by simp only; rw [List.getElem?_set_self hlt], by simp⟩
    · intro j l r _ _ hr
      simp only
      rw [List.getElem?_append_left (List.getElem?_eq_some_iff.mp hr).1, hr]
  | some line =>
    obtain ⟨r, hr, ⟨hcols, cells, hcells⟩, -⟩ := h.objects.valid _ _ hline
    obtain ⟨blank, hclear, hblank⟩ := TerminalRow.clear_blank style hcols
      (show r.mStyle.length = b.mColumns by rw [hcells.styles, hcols])
    refine ⟨b.update line blank, blank, ?_, hblank, ⟨rfl, rfl, rfl, rfl, rfl, rfl, fun _ _ h => h⟩,
      ⟨line, hline, ?_⟩, fun j l r' hj hl hr' => ?_⟩
    · rw [blankLine, arrayGet_slot hline, ok_bind]
      simp only [deref_eq hr, ok_bind, hclear]
      rfl
    · exact List.getElem?_set_self (List.getElem?_eq_some_iff.mp hr).1
    · have hne : line ≠ l := by
        rintro rfl
        exact hj (h.objects.distinct _ _ _ hl hline)
      rw [update]
      simp only
      rw [List.getElem?_set_ne hne, hr']

/-- A row that is still there shows what it showed before. -/
theorem rowAt_moved {b₁ : TerminalBuffer} (hb : Valid b) (hs : Shape b₁) (hg : Grown b₁ b')
    (hrows : b₁.rows = b.rows) {blank x y : Int} (hne : b₁.slot x ≠ b₁.slot blank)
    (hkept : ∀ j line r, j ≠ b₁.slot blank → b₁.mLines[j]? = some (some line) →
      b₁.rows[line]? = some r → b'.rows[line]? = some r)
    (h₁ : -b₁.mActiveTranscriptRows ≤ x) (h₂ : x < b₁.mScreenRows)
    (h₃ : -b.mActiveTranscriptRows ≤ y) (h₄ : y < b.mScreenRows)
    (he : b₁.mLines[b₁.slot x]? = b.mLines[b.slot y]?) : b'.rowAt x = b.rowAt y := by
  obtain ⟨line, r, -, hline, hr, -⟩ := hb.lineAt h₃ h₄
  rw [hline] at he
  have hold := (Grown.refl b).rowAt hb.toShape h₃ h₄ hline hr
  rw [hold]
  exact hg.rowAt hs h₁ h₂ (hg.stay _ _ he) (hkept _ _ _ hne he (by rw [hrows, hr]))

/-- The scroll, row by row. -/
structure ScrolledRows (b : TerminalBuffer) (top bottom : Int) (blank : TerminalRow)
    (b' : TerminalBuffer) : Prop where
  screen : b'.mScreenRows = b.mScreenRows
  total : b'.mTotalRows = b.mTotalRows
  history : b'.mActiveTranscriptRows = min (b.mActiveTranscriptRows + 1) (b.mTotalRows - b.mScreenRows)
  above : ∀ x, 0 ≤ x → x < top → b'.rowAt x = b.rowAt x
  moved : ∀ x, top ≤ x → x < bottom - 1 → b'.rowAt x = b.rowAt (x + 1)
  revealed : b'.rowAt (bottom - 1) = .ok blank
  below : ∀ x, bottom ≤ x → x < b.mScreenRows → b'.rowAt x = b.rowAt x
  newest : b.mScreenRows < b.mTotalRows → b'.rowAt (-1) = b.rowAt top
  older : ∀ x, -b'.mActiveTranscriptRows ≤ x → x < -1 → b'.rowAt x = b.rowAt (x + 1)

theorem scrollDownOneLine_rows (h : Valid b) {top bottom : Int} (h₀ : 0 ≤ top)
    (htb : top < bottom) (hbs : bottom ≤ b.mScreenRows) (style : Style) :
    ∃ b' blank, b.scrollDownOneLine top bottom style = .ok b' ∧
      TerminalRow.Blank b.mColumns style blank ∧ ScrolledRows b top bottom blank b' := by
  obtain ⟨b₁, hring, hs₁, heq⟩ := scrollDownOneLine_eq h.toShape h₀ htb hbs
  obtain ⟨b₂, blank, hb₂, hblank, hg, ⟨line, hline, hrow⟩, hkept⟩ :=
    blankLine_blank hs₁ (bottom - 1) style
  rw [hring.columns] at hblank
  refine ⟨b₂, blank, by rw [heq, hb₂], hblank, ?_⟩
  have hfits := h.fits
  have hfits₁ := hs₁.fits
  have hhist := h.history
  have hh₁ := hring.history
  have hh₂ := hg.history
  have hsc₁ := hring.screen
  have htot₁ := hring.total
  have hT := h.total_pos
  -- Any row but the blank one comes from the slot that `hring` tells.
  have hmoved (x y : Int) (hx : -b₁.mActiveTranscriptRows ≤ x) (hx' : x < b₁.mScreenRows)
      (hne : x ≠ bottom - 1) (hy : -b.mActiveTranscriptRows ≤ y) (hy' : y < b.mScreenRows)
      (he : b₁.mLines[b₁.slot x]? = b.mLines[b.slot y]?) : b₂.rowAt x = b.rowAt y := by
    refine rowAt_moved h hs₁ hg hring.rows (fun hslot => hne ?_) hkept hx hx' hy hy' he
    have := Ring.index_inj (by omega) (by omega) (by omega) hslot
    omega
  constructor
  · rw [hg.screen, hsc₁]
  · rw [hg.total, htot₁]
  · rw [hh₂, hh₁]
  · exact fun x hx hx' => hmoved x x (by omega) (by omega) (by omega) (by omega) (by omega)
      (hring.above x hx hx')
  · exact fun x hx hx' => hmoved x (x + 1) (by omega) (by omega) (by omega) (by omega) (by omega)
      (hring.moved x hx hx')
  · exact hg.rowAt hs₁ (by omega) (by omega) hline hrow
  · exact fun x hx hx' => hmoved x x (by omega) (by omega) (by omega) (by omega) (by omega)
      (hring.below x hx hx')
  · exact fun hST => hmoved (-1) top (by omega) (by omega) (by omega) (by omega) (by omega)
      (hring.newest hST)
  · intro x hx hx'
    rw [hh₂] at hx
    exact hmoved x (x + 1) hx (by omega) (by omega) (by omega) (by omega) (hring.older x hx hx')

theorem ScrolledRows.view_screen {top bottom : Int} {blank : TerminalRow}
    (hr : ScrolledRows b top bottom blank b') (h₀ : 0 ≤ top) (htb : top < bottom)
    (hbs : bottom ≤ b.mScreenRows) :
    b'.view.screen = (b.view.scroll top.toNat bottom.toNat (.ok blank)).screen := by
  have hlen : b.view.screen.length = b.mScreenRows.toNat := by simp [view]
  have hsc := hr.screen
  apply List.ext_getElem?
  intro i
  by_cases hi : (i : Int) < b.mScreenRows
  swap
  · rw [List.getElem?_eq_none, List.getElem?_eq_none]
    · rw [Scrollback.scroll_screen_length (by omega) (by omega)]
      omega
    · simp only [view, List.length_map, List.length_range, hsc]
      omega
  have hview := b'.view_screen (x := i) (by omega) (by rw [hsc]; exact hi)
  rw [Int.toNat_natCast] at hview
  rw [hview]
  obtain h₁ | h₂ | h₃ | h₄ : (i : Int) < top ∨ (top ≤ i ∧ (i : Int) < bottom - 1) ∨
      (i : Int) = bottom - 1 ∨ bottom ≤ (i : Int) := by omega
  · have := b.view_screen (x := i) (by omega) hi
    rw [Scrollback.scroll_screen_above (by omega) (by omega) (by omega), hr.above i (by omega) h₁,
      ← this, Int.toNat_natCast]
  · have := b.view_screen (x := i + 1) (by omega) (by omega)
    rw [Scrollback.scroll_screen_moved (by omega) (by omega) (by omega), hr.moved i h₂.1 h₂.2,
      ← this]
    rfl
  · rw [show i = bottom.toNat - 1 by omega, Scrollback.scroll_screen_blank (by omega) (by omega),
      show ((bottom.toNat - 1 : Nat) : Int) = bottom - 1 by omega, hr.revealed]
  · have := b.view_screen (x := i) (by omega) hi
    rw [Scrollback.scroll_screen_below (by omega) (by omega) (by omega), hr.below i h₄ hi, ← this,
      Int.toNat_natCast]

theorem ScrolledRows.view_history {top bottom : Int} {blank : TerminalRow}
    (hr : ScrolledRows b top bottom blank b') (hb : Shape b) (h₀ : 0 ≤ top)
    (htS : top < b.mScreenRows) :
    b'.view.history = (b.view.scroll top.toNat bottom.toNat (.ok blank)).history := by
  have hlen : b.view.screen.length = b.mScreenRows.toNat := by simp [view]
  have hhlen : b.view.history.length = b.mActiveTranscriptRows.toNat := by simp [view]
  have hcap : b.view.capacity = (b.mTotalRows - b.mScreenRows).toNat := rfl
  have hh := hr.history
  have hfits := hb.fits
  have hhist := hb.history
  apply List.ext_getElem?
  intro k
  by_cases hk : (k : Int) < b'.mActiveTranscriptRows
  swap
  · rw [List.getElem?_eq_none, List.getElem?_eq_none]
    · rw [Scrollback.scroll_history_length (by omega)]
      omega
    · simp only [view, List.length_map, List.length_range]
      omega
  rw [b'.view_history hk]
  cases k with
  | zero =>
    have := b.view_screen h₀ htS
    rw [Scrollback.scroll_history_zero (by omega) (by omega), this, ← hr.newest (by omega)]
    rfl
  | succ k =>
    rw [Scrollback.scroll_history_succ (by omega) (by omega), b.view_history (by omega),
      hr.older _ (by omega) (by omega)]
    congr 2

/-- `scrollDownOneLine` scrolls the list of rows that is seen. -/
theorem scrollDownOneLine_refines (h : Valid b) {top bottom : Int} (h₀ : 0 ≤ top)
    (htb : top < bottom) (hbs : bottom ≤ b.mScreenRows) (style : Style) :
    ∃ b' blank, b.scrollDownOneLine top bottom style = .ok b' ∧
      TerminalRow.Blank b.mColumns style blank ∧
      b'.view = b.view.scroll top.toNat bottom.toNat (.ok blank) := by
  obtain ⟨b', blank, hb', hblank, hr⟩ := scrollDownOneLine_rows h h₀ htb hbs style
  refine ⟨b', blank, hb', hblank, ?_⟩
  have hcap : b'.view.capacity = b.view.capacity := by
    simp only [view, hr.screen, hr.total]
  have hscreen := hr.view_screen h₀ htb hbs
  have hhistory := hr.view_history h.toShape h₀ (by omega)
  cases hv : b'.view
  simp only [hv] at hcap hscreen hhistory
  rw [hcap, hscreen, hhistory]
  rfl

/-- A new buffer of two columns, a screen of two rows and one row of history. -/
theorem exists_valid_small :
    ∃ b, new 2 3 2 = .ok b ∧ Valid b ∧ b.mColumns = 2 ∧ b.mScreenRows = 2 := by
  have hruns := @new_keeps True 2 3 2 (by decide) (by decide) (by decide)
  obtain ⟨b', hb'⟩ : ∃ b', @new trapShort 2 3 2 = .ok b' := ⟨_, rfl⟩
  obtain ⟨b, hb⟩ : ∃ b, @new javaShort 2 3 2 = .ok b := ⟨_, rfl⟩
  obtain ⟨hv, hc, -, hs, -⟩ := hruns.ensures (fun h => by cases hb'.symm.trans h) b hb
  exact ⟨b, hb, hv, hc, hs⟩

/-- A letter on each row of a screen of four, which is then scrolled: the first letter is history. -/
def scrolledLetters [ShortStore] : Java TerminalBuffer := do
  let b ← new 2 6 4
  let b ← (List.range 4).foldlM (fun (b : TerminalBuffer) (i : Nat) => b.setChar 0 i (0x61 + i) 0) b
  b.scrollDownOneLine 0 4 0

theorem scrolledLetters_valid {b : TerminalBuffer} (hb : scrolledLetters = .ok b) : Valid b := by
  have hruns : Runs True True Valid fun _ => scrolledLetters := by
    apply runs_bind (new_keeps (by decide) (by decide) (by decide))
    intro b hb
    apply runs_bind (P := Valid)
    · refine Lockstep.foldlM (List.range 4) (fun b i hi hv => ?_) hb.1
      have hscalar : isScalar (0x61 + i) = true := by
        rw [List.mem_range] at hi
        interval_cases i <;> rfl
      exact runs_mono (fun _ hk => hk.valid) (setChar_keeps hv hscalar (fun _ _ => trivial)
        (fun _ => trivial) fun _ _ => trivial)
    · intro b' hb'
      exact runs_mono (fun _ hk => hk.1) (scrollDownOneLine_runs hb' (fun _ => trivial) fun _ => trivial)
  exact runs_ensures hruns (by decide +kernel) b hb

/-- The first characters of the rows of the screen, and of those of the history. -/
def initials (b : TerminalBuffer) : List (Java (List Nat)) × List (Java (List Nat)) :=
  (b.view.screen.map (Except.map fun r => r.mText.take 1),
    b.view.history.map (Except.map fun r => r.mText.take 1))

/-- The second and third rows scroll.  There are letters above and below them, and one in the history. -/
theorem scrollDownOneLine_refines_small : ∃ (b b' : TerminalBuffer) (blank : TerminalRow),
    b.initials = ([.ok [0x62], .ok [0x63], .ok [0x64], .ok [0x20]], [.ok [0x61]]) ∧
      b.scrollDownOneLine 1 3 7 = .ok b' ∧ TerminalRow.Blank b.mColumns 7 blank ∧
      b'.view = b.view.scroll 1 3 (.ok blank) ∧
      b'.initials = ([.ok [0x62], .ok [0x64], .ok [0x20], .ok [0x20]], [.ok [0x63], .ok [0x61]]) := by
  have hbefore : scrolledLetters.map (fun b => (b.mScreenRows, b.initials)) =
      .ok (4, [.ok [0x62], .ok [0x63], .ok [0x64], .ok [0x20]], [.ok [0x61]]) := by decide +kernel
  have hafter : (scrolledLetters >>= fun b => b.scrollDownOneLine 1 3 7).map initials =
      .ok ([.ok [0x62], .ok [0x64], .ok [0x20], .ok [0x20]], [.ok [0x63], .ok [0x61]]) := by decide +kernel
  obtain ⟨b, hb, hvalues⟩ := exists_of_map_eq_ok hbefore
  obtain ⟨hrows, hinitials⟩ := Prod.mk.inj hvalues
  obtain ⟨b', blank, hb', hblank, hview⟩ := scrollDownOneLine_refines (scrolledLetters_valid hb)
    (show (0 : Int) ≤ 1 by decide) (show (1 : Int) < 3 by decide) (show 3 ≤ b.mScreenRows by omega) 7
  rw [hb, ok_bind, hb'] at hafter
  exact ⟨b, b', blank, hinitials, hb', hblank, hview, Except.ok.inj hafter⟩

end TerminalBuffer

end XoDos
