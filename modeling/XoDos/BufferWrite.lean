import XoDos.BufferValid

/-!
# Writing to a valid buffer

The operations that change cells, styles and wrap flags, and the constructor.
-/

namespace XoDos

namespace TerminalBuffer

open WcWidth (width)

variable {b b' : TerminalBuffer} {E : Prop}

/-- What an operation on cells keeps. -/
structure Keeps (b b' : TerminalBuffer) : Prop where
  valid : Valid b'
  grown : Grown b b'

theorem Keeps.refl (h : Valid b) : Keeps b b := ⟨h, .refl b⟩

theorem Keeps.trans {b'' : TerminalBuffer} (h : Keeps b b') (h' : Keeps b' b'') : Keeps b b'' :=
  ⟨h'.valid, h.grown.trans h'.grown⟩

theorem Keeps.of_shape (h : Valid b) (hs : Shape b') (hg : Grown b b') : Keeps b b' :=
  ⟨hg.valid h hs, hg⟩

theorem setChar_keeps (h : Valid b) {column row : Int} {codePoint : Nat} {style : Style}
    (hs : isScalar codePoint = true) (hcols : width codePoint = 0 → b.mColumns = 1 → E)
    (hrange : ¬ (0 ≤ row ∧ row < b.mScreenRows ∧ 0 ≤ column ∧ column < b.mColumns) → E)
    (hw : width codePoint = 2 → column + 1 = b.mColumns → E) :
    Runs True E (Keeps b) fun _ => b.setChar column row codePoint style :=
  (setChar_shape h.toShape hs hcols hrange hw).mono fun _ hb => .of_shape h hb.1 hb.2.1

theorem blockSet_keeps (hb : Valid b) {sx sy w h : Int} {val : Nat} {style : Style}
    (hs : isScalar val = true) (hcols : width val = 0 → b.mColumns = 1 → E)
    (hrange : ¬ (0 ≤ sx ∧ sx + w ≤ b.mColumns ∧ 0 ≤ sy ∧ sy + h ≤ b.mScreenRows) → E)
    (hw : width val = 2 → E) :
    Runs True E (Keeps b) fun _ => b.blockSet sx sy w h val style := by
  by_cases hr : sx < 0 ∨ b.mColumns < sx + w ∨ sy < 0 ∨ b.mScreenRows < sy + h
  · simp only [blockSet, if_pos hr]
    exact Lockstep.error (hrange (by omega)) _
  · simp only [blockSet, if_neg hr]
    refine runs_forUp (fun y b₁ hy hyh h₁ => ?_) (.refl hb)
    refine runs_forUp (fun x b₂ hx hxw h₂ => ?_) h₁
    have hc := h₂.grown.columns
    have hsc := h₂.grown.screen
    exact (setChar_keeps h₂.valid hs (fun h => hc ▸ hcols h) (fun hn => by omega)
      fun h _ => hw h).mono fun _ h₃ => h₂.trans h₃

/-- One row of `blockCopy`. -/
theorem copyRow_keeps (hb : Valid b) {sx w dx source destination : Int}
    (hcols : b.mColumns = 1 → E) (hsx : 0 ≤ sx) (hw : w < 0 → E) (hsw : sx + w ≤ b.mColumns)
    (hdx : 0 ≤ dx) (hdw : dx + w ≤ b.mColumns) (hs : 0 ≤ source ∧ source < b.mScreenRows)
    (hd : 0 ≤ destination ∧ destination < b.mScreenRows) :
    Runs True E (Keeps b) fun _ => b.copyRow sx w dx source destination := by
  have hh := hb.history
  simp only [copyRow, externalToInternalRow_eq hb.toShape (x := source) (by omega) (by omega), ok_bind]
  refine allocateFullLine_row hb.toShape source fun b₁ line₁ r₁ h₁ hg₁ hl₁ hr₁ hv₁ => ?_
  have hh₁ := hg₁.history
  have hs₁ := hg₁.screen
  have hc₁ := hg₁.columns
  simp only [externalToInternalRow_eq h₁ (x := destination) (by omega) (by omega), ok_bind]
  refine allocateFullLine_row h₁ destination fun b₂ line₂ r₂ h₂ hg₂ hl₂ hr₂ hv₂ => ?_
  have hc₂ := hg₂.columns
  -- The source row is still in its slot.
  obtain ⟨r₁', hr₁', hv₁'⟩ := h₂.objects.valid _ _ (hg₂.stay _ _ hl₁)
  simp only [deref_eq hr₁', deref_eq hr₂, ok_bind]
  have hpos := hb.columns
  refine runs_bind (P := TerminalRow.Valid b₁.mColumns) ?_ fun r hr => ?_
  · by_cases hneg : w < 0
    · exact TerminalRow.copyInterval_reversed (hw hneg) hv₂ (by omega) hv₁' (by omega) (by omega)
    · refine TerminalRow.copyInterval_runs hv₂ (hc₁ ▸ hcols) hv₁' (fun he => ?_) hsx (by omega)
        (by omega) hdx (by omega)
      have : line₁ = line₂ := by simpa using he
      subst this
      rw [hr₁'] at hr₂
      exact Option.some.inj hr₂
  · obtain ⟨h₃, hg₃⟩ := h₂.update line₂ (hc₂ ▸ hr)
    exact Lockstep.ok (.of_shape hb h₃ ((hg₁.trans hg₂).trans hg₃))

theorem blockCopy_keeps (hb : Valid b) {sx sy w h dx dy : Int} (hcols : b.mColumns = 1 → E)
    (hw : w < 0 → E)
    (hrange : ¬ (0 ≤ sx ∧ sx + w ≤ b.mColumns ∧ 0 ≤ sy ∧ sy + h ≤ b.mScreenRows ∧ 0 ≤ dx ∧
      dx + w ≤ b.mColumns ∧ 0 ≤ dy ∧ dy + h ≤ b.mScreenRows) → E) :
    Runs True E (Keeps b) fun _ => b.blockCopy sx sy w h dx dy := by
  simp only [blockCopy]
  by_cases hw₀ : w = 0
  · simp only [if_pos hw₀]
    exact Lockstep.ok (.refl hb)
  by_cases hr : sx < 0 ∨ b.mColumns < sx + w ∨ sy < 0 ∨ b.mScreenRows < sy + h ∨ dx < 0 ∨
      b.mColumns < dx + w ∨ dy < 0 ∨ b.mScreenRows < dy + h
  · simp only [if_neg hw₀, if_pos hr]
    exact Lockstep.error (hrange (by omega)) _
  simp only [if_neg hw₀, if_neg hr]
  refine runs_forUp (fun y b₁ hy hyh h₁ => ?_) (.refl hb)
  have hc := h₁.grown.columns
  have hs := h₁.grown.screen
  have hy₂ : 0 ≤ (if dy < sy then y else h - (y + 1)) ∧ (if dy < sy then y else h - (y + 1)) < h := by
    split_ifs <;> omega
  exact (copyRow_keeps h₁.valid (hc ▸ hcols) (by omega) hw (by omega) (by omega) (by omega)
    (by omega) (by omega)).mono fun _ h₂ => h₁.trans h₂

/-! ## Flags and styles -/

/-- An external row in range that is not in the window is the one below the screen. -/
theorem lineAt_cases (h : Valid b) (x : Int) :
    (∃ line r, b.lineAt x = .ok (some line) ∧ b.mLines[b.slot x]? = some (some line) ∧
      b.rows[line]? = some r ∧ TerminalRow.Valid b.mColumns r) ∨
    (¬ (-b.mActiveTranscriptRows ≤ x ∧ x < b.mScreenRows) ∧
      (b.lineAt x = .ok none ∨ ∃ e, b.lineAt x = .error e)) := by
  by_cases hx : -b.mActiveTranscriptRows ≤ x ∧ x < b.mScreenRows
  · exact .inl (h.lineAt hx.1 hx.2)
  by_cases hx' : -b.mActiveTranscriptRows ≤ x ∧ x ≤ b.mScreenRows
  · have hlt := h.slot_lt x
    have hat : b.lineAt x = .ok b.mLines[b.slot x] := by
      rw [TerminalBuffer.lineAt, externalToInternalRow_eq h.toShape hx'.1 hx'.2, ok_bind,
        arrayGet_slot (List.getElem?_eq_getElem hlt)]
    cases hline : b.mLines[b.slot x] with
    | none => exact .inr ⟨hx, .inl (by rw [hat, hline])⟩
    | some line =>
      have hget : b.mLines[b.slot x]? = some (some line) := by
        rw [List.getElem?_eq_getElem hlt, hline]
      obtain ⟨r, hr, hv⟩ := h.objects.valid _ _ hget
      exact .inl ⟨line, r, by rw [hat, hline], hget, hr, hv⟩
  · refine .inr ⟨hx, .inr ⟨.illegalArgument, ?_⟩⟩
    rw [TerminalBuffer.lineAt, externalToInternalRow, if_pos (by omega)]
    rfl

theorem putLineWrap_keeps (h : Valid b) {row : Int} {wrap : Bool}
    (hrange : ¬ (-b.mActiveTranscriptRows ≤ row ∧ row < b.mScreenRows) → E) :
    Runs True E (Keeps b) fun _ => b.putLineWrap row wrap := by
  simp only [putLineWrap]
  obtain ⟨line, r, hat, -, hr, hv⟩ | ⟨hrow, hat⟩ := lineAt_cases h row
  · simp only [hat, deref_eq hr, ok_bind]
    obtain ⟨⟨hc, cells, hcells⟩, hroom⟩ := hv
    obtain ⟨hs, hg⟩ := h.toShape.update line (r := { r with mLineWrap := wrap })
      ⟨⟨hc, cells, hcells.text, hcells.space, hcells.columns, hcells.styles, hcells.simple⟩, hroom⟩
    exact Lockstep.ok (.of_shape h hs hg)
  · obtain hat | ⟨e, hat⟩ := hat
    · simp only [hat, ok_bind]
      exact Lockstep.error (hrange hrow) _
    · simp only [hat]
      exact Lockstep.error (hrange hrow) _

/-- Changing the style of a cell of an allocated row. -/
theorem putStyle_keeps (h : Valid b) {j line : Nat} (hline : b.mLines[j]? = some (some line))
    {x : Int} (f : Style → Style) (hx : ¬ (0 ≤ x ∧ x < b.mColumns) → E) :
    Runs True E (Keeps b) (fun _ => do
      let r ← b.deref (some line)
      let currentStyle ← r.getStyle x
      let styles ← arraySet r.mStyle x (f currentStyle)
      return b.update line { r with mStyle := styles }) := by
  obtain ⟨r, hr, ⟨hc, cells, hcells⟩, hroom⟩ := h.objects.valid _ _ hline
  have hlen := hcells.styles
  simp only [deref_eq hr, ok_bind]
  by_cases hx' : 0 ≤ x ∧ x < b.mColumns
  · obtain ⟨style, -, hstyle⟩ := arrayGet_returns (a := r.mStyle) hx'.1 (by omega)
    simp only [TerminalRow.getStyle, hstyle, ok_bind, arraySet_ok (f style) hx'.1
      (show x < r.mStyle.length by omega)]
    obtain ⟨hs, hg⟩ := h.toShape.update line
      (r := { r with mStyle := r.mStyle.set x.toNat (f style) })
      ⟨⟨hc, cells, hcells.text, hcells.space, hcells.columns, by simpa using hlen, hcells.simple⟩,
        hroom⟩
    exact Lockstep.ok (.of_shape h hs hg)
  · have hget : arrayGet r.mStyle x = .error .arrayIndexOutOfBounds := by
      unfold arrayGet
      split_ifs with h₀
      · rw [List.getElem?_eq_none (by omega)]
      · rfl
    simp only [TerminalRow.getStyle, hget]
    exact Lockstep.error (hx hx') _

theorem getStyleAt_keeps (h : Valid b) {externalRow column : Int}
    (hrow : ¬ (-b.mActiveTranscriptRows ≤ externalRow ∧ externalRow ≤ b.mScreenRows) → E)
    (hcolumn : ¬ (0 ≤ column ∧ column < b.mColumns) → E) :
    Runs True E (fun p => Keeps b p.1) fun _ => b.getStyleAt externalRow column := by
  simp only [getStyleAt]
  by_cases hr : -b.mActiveTranscriptRows ≤ externalRow ∧ externalRow ≤ b.mScreenRows
  swap
  · have herr : b.externalToInternalRow externalRow = .error .illegalArgument := by
      rw [externalToInternalRow, if_pos (by omega)]
    simp only [herr]
    exact Lockstep.error (hrow hr) _
  simp only [externalToInternalRow_eq h.toShape hr.1 hr.2, ok_bind]
  refine allocateFullLine_row h.toShape externalRow fun b' line r hs hg hline hget hv => ?_
  simp only [deref_eq hget, ok_bind]
  obtain ⟨⟨hc, cells, hcells⟩, -⟩ := hv
  have hlen := hcells.styles
  have hkeeps := Keeps.of_shape h hs hg
  cases hstyle : r.getStyle column with
  | error e =>
    refine Lockstep.error (hcolumn fun hcol => ?_) _
    obtain ⟨style, -, hok⟩ := arrayGet_returns (a := r.mStyle) hcol.1 (by omega)
    cases hok.symm.trans hstyle
  | ok style => exact Lockstep.ok hkeeps

/-- The rectangle is only looked at if it has rows. -/
theorem setOrClearEffect_keeps (hb : Valid b) {bits : BitVec 32} {setOrClear reverse rect : Bool}
    {leftMargin rightMargin top left bottom right : Int}
    (hrange : top < bottom → ¬ (0 ≤ top ∧ bottom ≤ b.mScreenRows ∧ 0 ≤ left ∧ right ≤ b.mColumns ∧
      0 ≤ leftMargin ∧ rightMargin ≤ b.mColumns) → E) :
    Runs True E (Keeps b) fun _ => b.setOrClearEffect bits setOrClear reverse rect leftMargin
      rightMargin top left bottom right := by
  simp only [setOrClearEffect]
  refine runs_forUp (fun y b₁ hy hyb h₁ => ?_) (.refl hb)
  have hc := h₁.grown.columns
  have hs := h₁.grown.screen
  have hh := h₁.valid.history
  obtain ⟨line, r, hat, hline, -, -⟩ | ⟨hrow, hat⟩ := lineAt_cases h₁.valid y
  · simp only [hat, ok_bind]
    refine runs_mono (P := Keeps b₁) (fun _ h₂ => h₁.trans h₂) ?_
    refine runs_forUp (fun x b₂ hx hxe h₂ => ?_) (Keeps.refl h₁.valid)
    have hc₂ := h₂.grown.columns
    refine (putStyle_keeps h₂.valid (h₂.grown.stay _ _ hline) (changeEffect bits setOrClear reverse)
      fun hn => hrange (by omega) ?_).mono fun _ h₃ => h₂.trans h₃
    split_ifs at hx hxe <;> omega
  · have hE : E := hrange (by omega) (by omega)
    obtain hat | ⟨e, hat⟩ := hat
    · simp only [hat, ok_bind]
      exact Lockstep.of_ensures hE (.forUp (fun _ _ _ _ _ => .error _) h₁)
    · simp only [hat]
      exact Lockstep.error hE _

/-! ## The constructor -/

theorem new_keeps {columns totalRows screenRows : Int} (hc : 1 ≤ columns) (hs : 1 ≤ screenRows)
    (ht : screenRows ≤ totalRows) :
    Runs True E (fun b => Valid b ∧ b.mColumns = columns ∧ b.mTotalRows = totalRows ∧
      b.mScreenRows = screenRows ∧ b.mActiveTranscriptRows = 0) fun _ =>
        new columns totalRows screenRows := by
  obtain ⟨b, hb⟩ : ∃ b : TerminalBuffer, b = {
    rows := [], mLines := List.replicate totalRows.toNat none, mTotalRows := totalRows
    mScreenRows := screenRows, mColumns := columns, mActiveTranscriptRows := 0
    mScreenFirstRow := 0 } := ⟨_, rfl⟩
  have hshape : Shape b := by
    subst hb
    refine ⟨hc, hs, le_rfl, by simp; omega, by simp, by simp; omega, ?_⟩
    constructor <;> simp [List.getElem?_replicate]
  have hbc : b.mColumns = columns := by rw [hb]
  have hbs : b.mScreenRows = screenRows := by rw [hb]
  simp only [new, newArray, if_neg (show ¬ totalRows < 0 by omega), ok_bind, ← hb]
  simp only [blockSet, if_neg (show ¬ ((0 : Int) < 0 ∨ b.mColumns < 0 + columns ∨ (0 : Int) < 0 ∨
    b.mScreenRows < 0 + screenRows) by omega)]
  -- When the loop comes to row `y`, the rows above it are allocated.
  let I (y : Int) (b' : TerminalBuffer) : Prop :=
    Shape b' ∧ Grown b b' ∧ ∀ x, 0 ≤ x → x < y → b'.Allocated (b.slot x)
  refine runs_mono (P := I screenRows) ?_ (runs_forUp_index (by omega) (fun y b₁ hy hys hI => ?_)
    ⟨hshape, .refl b, fun x h₁ h₂ => by omega⟩)
  · rintro b' ⟨hb', hg, hall⟩
    have hh : b'.mActiveTranscriptRows = 0 := by rw [hg.history, hb]
    have ht' : b'.mTotalRows = totalRows := by rw [hg.total, hb]
    refine ⟨⟨hb', fun x h₁ h₂ => ?_⟩, hg.columns.trans hbc, ht', hg.screen.trans hbs, hh⟩
    rw [hg.slot]
    exact hall x (by omega) (by rw [← hbs, ← hg.screen]; exact h₂)
  · refine runs_mono (P := fun b' => I y b' ∧ (0 < columns → b'.Allocated (b.slot y))) ?_
      (runs_forUp_index (I := fun x b' => I y b' ∧ (0 < x → b'.Allocated (b.slot y)))
        (by omega) (fun x b₂ hx hxc hI₂ => ?_) ⟨hI, by omega⟩)
    · rintro b' ⟨⟨hb', hg, hall⟩, hlast⟩
      refine ⟨hb', hg, fun x hx hxy => ?_⟩
      obtain hxy | rfl : x < y ∨ x = y := by omega
      · exact hall x hx hxy
      · exact hlast (by omega)
    · obtain ⟨⟨h₂, hg₂, hall₂⟩, -⟩ := hI₂
      have hc₂ := hg₂.columns
      have hs₂ := hg₂.screen
      have hw := WcWidth.width_space
      rw [zero_add, zero_add]
      refine (setChar_shape h₂ (by decide) (by omega) (by omega) (by omega)).mono ?_
      rintro b₃ ⟨h₃, hg₃, hlast⟩
      refine ⟨⟨h₃, hg₂.trans hg₃, fun x h₁ h₂ => hg₃.allocated (hall₂ x h₁ h₂)⟩, fun _ => ?_⟩
      rw [← hg₂.slot]
      exact hlast

end TerminalBuffer

end XoDos
