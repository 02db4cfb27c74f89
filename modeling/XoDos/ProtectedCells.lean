import XoDos.SelectiveErase

/-!
# What selective erasing does to protected characters

Protection is looked up column by column, but `setChar` gives the style of a wide
character only to its first column.  So a space may be written to the second
column of a protected wide character, and that takes the whole character away.
-/

namespace XoDos

open WcWidth (width)

/-! ## Columns left of a cell -/

theorem takeColumns_append_of_le {k : Int} {pre : List Cell} (h : k ≤ totalColumns pre)
    (post : List Cell) : takeColumns k (pre ++ post) = takeColumns k pre := by
  induction pre generalizing k with
  | nil =>
    rw [totalColumns_nil] at h
    cases post with
    | nil => rfl
    | cons c post => simp only [List.nil_append, takeColumns, if_pos h]
  | cons c pre ih =>
    rw [totalColumns_cons] at h
    rw [List.cons_append, takeColumns, takeColumns, ih (by omega)]

theorem dropColumns_append_of_le {k : Int} {pre : List Cell} (h : k ≤ totalColumns pre)
    (post : List Cell) : dropColumns k (pre ++ post) = dropColumns k pre ++ post := by
  induction pre generalizing k with
  | nil =>
    rw [totalColumns_nil] at h
    cases post with
    | nil => rfl
    | cons c post => simp only [List.nil_append, dropColumns, if_pos h]
  | cons c pre ih =>
    rw [totalColumns_cons] at h
    rw [List.cons_append, dropColumns, dropColumns]
    split_ifs
    · rfl
    · exact ih (by omega)
    · rfl

theorem totalColumns_takeColumns {k : Int} {cells : List Cell} (h₀ : 0 ≤ k)
    (h : k ≤ totalColumns cells) : totalColumns (takeColumns k cells) = k := by
  induction cells generalizing k with
  | nil =>
    rw [totalColumns_nil] at h
    rw [takeColumns, totalColumns_nil]
    omega
  | cons c cells ih =>
    have hcases := c.columns_cases
    rw [totalColumns_cons] at h
    rw [takeColumns]
    split_ifs
    · rw [totalColumns_nil]
      omega
    · rw [totalColumns_cons, ih (by omega) (by omega)]
      omega
    · rw [totalColumns_cons, totalColumns_nil, Cell.blank_columns]
      omega

theorem totalColumns_dropColumns {k : Int} {cells : List Cell} (h₀ : 0 ≤ k)
    (h : k ≤ totalColumns cells) : totalColumns (dropColumns k cells) = totalColumns cells - k := by
  induction cells generalizing k with
  | nil =>
    rw [totalColumns_nil] at h
    rw [dropColumns, totalColumns_nil]
    omega
  | cons c cells ih =>
    have hcases := c.columns_cases
    rw [totalColumns_cons] at h
    rw [dropColumns, totalColumns_cons]
    split_ifs
    · rw [totalColumns_cons]
      omega
    · rw [ih (by omega) (by omega)]
      omega
    · rw [totalColumns_cons, Cell.blank_columns]
      omega

namespace TerminalRow

variable {T E : Prop} {r r' : TerminalRow} {pre post cells : List Cell} {c : Cell} {codePoint : Nat}
  {p x : Int} {s style : Style}

/-! ## One space -/

theorem space_isScalar : isScalar 0x20 = true := by decide

theorem space_width_pos : 0 < width 0x20 := by simp

/-- The cells after a space has been written to column `x`. -/
def spaced (x : Int) (cells : List Cell) : List Cell :=
  overwritten 0x20 space_isScalar space_width_pos x cells

theorem spaced_eq (x : Int) (cells : List Cell) :
    spaced x cells = takeColumns x cells ++ Cell.blank :: dropColumns (x + 1) cells := by
  rw [spaced, overwritten, writtenCell_plain (by simp), WcWidth.width_space]
  rfl

/-- What is right of the space stays. -/
theorem spaced_append_of_lt (h : x < totalColumns pre) (post : List Cell) :
    spaced x (pre ++ post) = spaced x pre ++ post := by
  rw [spaced_eq, spaced_eq, takeColumns_append_of_le h.le, dropColumns_append_of_le (by omega),
    List.append_assoc, List.cons_append]

theorem totalColumns_spaced (h₀ : 0 ≤ x) (h : x < totalColumns cells) :
    totalColumns (spaced x cells) = totalColumns cells := by
  rw [spaced_eq, totalColumns_append, totalColumns_cons, totalColumns_takeColumns h₀ h.le,
    totalColumns_dropColumns (by omega) (by omega), Cell.blank_columns]
  omega

/-- What is left of the space stays. -/
theorem spaced_append (h₀ : 0 ≤ x) (pre post : List Cell) :
    spaced (totalColumns pre + x) (pre ++ post) = pre ++ spaced x post := by
  rw [spaced_eq, spaced_eq, takeColumns_append h₀, add_assoc, dropColumns_append (by omega),
    List.append_assoc]

/-- The character at column `p`, and the style of that column. -/
def HasCell (r : TerminalRow) (p : Int) (c : Cell) (s : Style) : Prop :=
  ∃ pre post, Represents r (pre ++ c :: post) ∧ totalColumns pre = p ∧ r.mStyle[p.toNat]? = some s

theorem HasCell.unique {d : Cell} {v : Style} (h : HasCell r p c s) (h' : HasCell r p d v) :
    c = d ∧ s = v := by
  obtain ⟨pre, post, hcells, hp, hs⟩ := h
  obtain ⟨pre', post', hcells', hp', hv⟩ := h'
  rw [hs] at hv
  cases hv
  exact ⟨(cell_at_unique (hcells.unique hcells') (hp.trans hp'.symm)).2.1, rfl⟩

theorem HasCell.nonneg (h : HasCell r p c s) : 0 ≤ p := by
  obtain ⟨pre, post, -, hp, -⟩ := h
  have hpre := totalColumns_nonneg pre
  omega

/-- The space touches no style but that of its column, and of the column before if a wide character
starts there. -/
theorem getElem?_restyled_space {styles : List Style} {i : Nat} (h₀ : 0 ≤ x) (hi : (i : Int) ≠ x)
    (hi' : (i : Int) = x - 1 → wideAt (x - 1) cells = false) :
    (restyled cells x 0x20 style styles)[i]? = styles[i]? := by
  simp only [restyled, WcWidth.width_space]
  rw [if_neg (by simp)]
  split_ifs with hw
  · have hne : (i : Int) ≠ x - 1 := by
      intro he
      rw [hi' he] at hw
      cases hw
    have hpos : 0 ≤ x - 1 := by
      by_contra hneg
      rw [wideAt_neg (by omega)] at hw
      cases hw
    rw [List.getElem?_set_ne (by omega), List.getElem?_set_ne (by omega)]
  · rw [List.getElem?_set_ne (by omega)]

/-- A space has been written to column `x`. -/
def SpaceAt (x : Int) (style : Style) (r r' : TerminalRow) : Prop :=
  ∀ cells, Represents r cells → Rewritten r (spaced x cells) (restyled cells x 0x20 style r.mStyle) r'

/-- Characters that do not cover the column stay. -/
theorem SpaceAt.apart (h : SpaceAt x style r r') (h₀ : 0 ≤ x) (hc : HasCell r p c s)
    (hx : x < p ∨ p + c.columns ≤ x) : HasCell r' p c s := by
  obtain ⟨pre, post, hcells, hp, hs⟩ := hc
  have hnew := h _ hcells
  have hpos := c.columns_pos
  have hpre := totalColumns_nonneg pre
  have hstyle : r'.mStyle[p.toNat]? = some s := by
    rw [hnew.style, ← hs]
    refine getElem?_restyled_space h₀ (by omega) fun he => ?_
    -- If the space is next to the character, that is narrow.
    apply Bool.eq_false_iff.mpr
    intro hwide
    obtain ⟨pre', d, post', he', hd, hp'⟩ := (wideAt_iff (by omega)).mp hwide
    obtain ⟨-, hcd, -⟩ := cell_at_unique he' (by omega)
    rw [hcd] at hx
    omega
  rcases hx with hlt | hge
  · refine ⟨spaced x pre, post, ?_, ?_, hstyle⟩
    · rw [← spaced_append_of_lt (by omega)]
      exact hnew.cells
    · rw [totalColumns_spaced h₀ (by omega), hp]
  · have hright := spaced_append (x := x - (p + c.columns)) (by omega) (pre ++ [c]) post
    rw [totalColumns_append, totalColumns_cons, totalColumns_nil, hp,
      show p + (c.columns + 0) + (x - (p + c.columns)) = x by omega, List.append_assoc,
      List.append_assoc] at hright
    refine ⟨pre, spaced (x - (p + c.columns)) post, ?_, hp, hstyle⟩
    have hrep := hnew.cells
    rw [show pre ++ c :: post = pre ++ ([c] ++ post) from rfl, hright] at hrep
    exact hrep

/-- A space in its second column takes a wide character away. -/
theorem SpaceAt.second (h : SpaceAt (p + 1) style r r') (hc : HasCell r p c s) (hw : c.columns = 2) :
    ∃ s', HasCell r' p Cell.blank s' := by
  obtain ⟨pre, post, hcells, hp, hs⟩ := hc
  have hnew := h _ hcells
  have hpre := totalColumns_nonneg pre
  have hrep := hnew.cells
  rw [← hp, spaced, overwritten_second _ _ hw, List.append_assoc] at hrep
  obtain ⟨s', hs'⟩ : ∃ s', r'.mStyle[p.toNat]? = some s' := by
    refine ⟨_, List.getElem?_eq_getElem ?_⟩
    have hlen := hrep.styles
    have hcols := hcells.columns
    rw [hnew.columns] at hlen
    rw [totalColumns_append, totalColumns_cons] at hcols
    have hpost := totalColumns_nonneg post
    omega
  exact ⟨s', pre, _, hrep, hp, hs'⟩

/-! ## One row -/

/-- A space is about to be written to the second column of the character at column `p`, because that
column is not protected. -/
def Halved (r : TerminalRow) (left right p : Int) (c : Cell) : Prop :=
  c.columns = 2 ∧ left ≤ p + 1 ∧ p + 1 < right ∧
    ∃ v, r.mStyle[(p + 1).toNat]? = some v ∧ TextStyle.isProtected v = false

/-- The columns from `left` up to `x` have been gone over. -/
structure GoneOver (columns left right : Int) (r : TerminalRow) (x : Int) (r' : TerminalRow) :
    Prop where
  valid : Valid columns r'
  ahead : ∀ i : Nat, x ≤ i → r'.mStyle[i]? = r.mStyle[i]?
  kept : ∀ p c s, r.HasCell p c s → TextStyle.isProtected s = true →
    ¬(r.Halved left right p c ∧ p + 1 < x) → r'.HasCell p c s
  lost : ∀ p c s, r.HasCell p c s → TextStyle.isProtected s = true →
    r.Halved left right p c → p + 1 < x → ∃ s', r'.HasCell p Cell.blank s'

theorem GoneOver.start {columns left right : Int} (h : Valid columns r) :
    GoneOver columns left right r left r := by
  refine ⟨h, fun _ _ => rfl, fun p c s hc _ _ => hc, fun p c s _ _ hhalved hlt => ?_⟩
  obtain ⟨-, hle, -⟩ := hhalved
  omega

/-- A protected column is passed by. -/
theorem GoneOver.skip {columns left right : Int} (h : GoneOver columns left right r x r') {v : Style}
    (h₀ : 0 ≤ x) (hv : r.mStyle[x.toNat]? = some v) (hprot : TextStyle.isProtected v = true) :
    GoneOver columns left right r (x + 1) r' := by
  have hnot (p : Int) (c : Cell) (hhalved : r.Halved left right p c) (hlt : p + 1 < x + 1) :
      p + 1 < x := by
    obtain ⟨-, -, -, w, hw, hfree⟩ := hhalved
    by_contra hge
    obtain rfl : p + 1 = x := by omega
    rw [hv] at hw
    cases hw
    rw [hprot] at hfree
    cases hfree
  refine ⟨h.valid, fun i hi => h.ahead i (by omega), fun p c s hc hs hno => ?_,
    fun p c s hc hs hhalved hlt => h.lost p c s hc hs hhalved (hnot p c hhalved hlt)⟩
  exact h.kept p c s hc hs fun ⟨hhalved, hlt⟩ => hno ⟨hhalved, by omega⟩

/-- A space is written to an unprotected column. -/
theorem GoneOver.space {columns left right : Int} (h : GoneOver columns left right r x r')
    {r'' : TerminalRow} {v : Style} (h₀ : 0 ≤ x) (hl : left ≤ x) (hr : x < right)
    (hv : r.mStyle[x.toNat]? = some v) (hfree : TextStyle.isProtected v = false)
    (hspace : SpaceAt x style r' r'') (hvalid : Valid columns r'') :
    GoneOver columns left right r (x + 1) r'' := by
  -- The protected character does not start here.
  have hother {p : Int} {c : Cell} {s : Style} (hc : r.HasCell p c s)
      (hs : TextStyle.isProtected s = true) : p ≠ x := by
    rintro rfl
    obtain ⟨-, -, -, -, hstyle⟩ := hc
    rw [hv] at hstyle
    cases hstyle
    rw [hfree] at hs
    cases hs
  refine ⟨hvalid, fun i hi => ?_, fun p c s hc hs hno => ?_, fun p c s hc hs hhalved hlt => ?_⟩
  · obtain ⟨-, cells, hcells⟩ := h.valid.spells
    rw [(hspace cells hcells).style, getElem?_restyled_space h₀ (by omega) fun he => by omega]
    exact h.ahead i (by omega)
  · have hne := hother hc hs
    have hpos := c.columns_cases
    refine hspace.apart h₀ (h.kept p c s hc hs fun hold => hno ⟨hold.1, by omega⟩) ?_
    by_contra hcovers
    have hhalved : r.Halved left right p c :=
      ⟨by omega, by omega, by omega, v, by rwa [show p + 1 = x by omega], hfree⟩
    exact hno ⟨hhalved, by omega⟩
  · by_cases hbefore : p + 1 < x
    · obtain ⟨s', hs'⟩ := h.lost p c s hc hs hhalved hbefore
      exact ⟨s', hspace.apart h₀ hs' (.inr (by rw [Cell.blank_columns]; omega))⟩
    · have hx : x = p + 1 := by omega
      subst hx
      exact hspace.second (h.kept p c s hc hs fun hold => hbefore hold.2) hhalved.1

/-- What a row is after its columns have been gone over. -/
theorem GoneOver.kept_iff {columns left right : Int} (h : GoneOver columns left right r right r')
    (hc : r.HasCell p c s) (hs : TextStyle.isProtected s = true) :
    r'.HasCell p c s ↔ ¬r.Halved left right p c := by
  constructor
  · intro hkept hhalved
    obtain ⟨s', hlost⟩ := h.lost p c s hc hs hhalved hhalved.2.2.1
    have hw := hhalved.1
    rw [(hkept.unique hlost).1, Cell.blank_columns] at hw
    omega
  · exact fun hno => h.kept p c s hc hs fun hold => hno hold.1

end TerminalRow

/-! ## Rows and columns -/

namespace TerminalBuffer

variable {b : TerminalBuffer}

/-- What is left of the protected characters of a row once the rectangle has been gone over. -/
def ProtectedOnly (a : Rectangle) (y : Int) (r r' : TerminalRow) : Prop :=
  ∀ p c s, r.HasCell p c s → TextStyle.isProtected s = true →
    (r'.HasCell p c s ↔ ¬(a.top ≤ y ∧ y < a.bottom ∧ r.Halved a.left a.right p c))

/-- DECSED, DECSEL and DECSERA go over the cells of a rectangle. -/
theorem selectiveFill_redrawn (hb : Valid b) (a : Rectangle) (style : Style)
    (keepVisualAttributes : Bool) (h₀ : 0 ≤ a.top) (h₁ : a.bottom ≤ b.mScreenRows)
    (h₂ : 0 ≤ a.left) (h₃ : a.right ≤ b.mColumns) :
    Runs True False (Redrawn (ProtectedOnly a) b) fun _ =>
      forUp a.top a.bottom (fun y b =>
        forUp a.left a.right (Display.fillCell 0x20 style true keepVisualAttributes y) b) b := by
  have hhist := hb.history
  have hruns : Runs True False (Redrawn (Within a.top a.bottom (ProtectedOnly a)) b) fun _ =>
      forUp a.top a.bottom (fun y b =>
        forUp a.left a.right (Display.fillCell 0x20 style true keepVisualAttributes y) b) b := by
    refine runs_forUp_rows hb (by omega) h₁ fun y r b₁ hy hy' hb₁ hg hr hr₁ => ?_
    have hrows := hg.screen
    have hcols := hg.columns
    have hhist₁ := hg.history
    by_cases hlr : a.left ≤ a.right
    swap
    · refine runs_of_eq (fun _ => forUp_of_le (by omega)) (Redrawn.refl hb₁ fun z t ht => ?_)
      rw [At]
      split_ifs with hz
      · intro p c s hc _
        refine ⟨fun _ hhalved => ?_, fun _ => hc⟩
        obtain ⟨-, -, -, hle, hlt, -⟩ := hhalved
        omega
      · rfl
    obtain ⟨-, -, -, -, hrv⟩ := hb.line_of_rowAt (by omega) (by omega) hr
    have hst : (r.mStyle.length : Int) = b.mColumns := by
      obtain ⟨hc, cells, hcells⟩ := hrv.spells
      rw [hcells.styles, hc]
    refine (runs_forUp_row (y := y) (r := r)
      (f := fun _ => Display.fillCell 0x20 style true keepVisualAttributes y)
      (J := TerminalRow.GoneOver b.mColumns a.left a.right r) hlr hb₁ (by omega) (by omega) hr₁
      (.start hrv) fun x s b₂ hx hx' hb₂ hg₂ hs hJ => ?_).mono fun b₂ hred =>
        hred.mono fun z t t' _ hz => ?_
    · have hrows₂ := hg₂.screen
      have hcols₂ := hg₂.columns
      have hhist₂ := hg₂.history
      -- The style is still that of the row as it was.
      obtain ⟨v, hv⟩ : ∃ v, r.mStyle[x.toNat]? = some v :=
        ⟨_, List.getElem?_eq_getElem (by omega)⟩
      have hsv : s.mStyle[x.toNat]? = some v := by
        rw [← hv]
        exact hJ.ahead x.toNat (by omega)
      have heq (m : ShortStore) := @fillCell_eq _ _ _ _ style 0x20 _ hb₂ (by omega) (by omega) hs
          (by omega) _ hsv true keepVisualAttributes
      simp only [true_and] at heq
      cases hprot : TextStyle.isProtected v with
      | true =>
        refine runs_of_eq (fun m => (heq m).trans (if_pos hprot)) (Redrawn.refl hb₂ fun z t ht => ?_)
        rw [At]
        split_ifs with hz
        · rw [hz, hs] at ht
          cases ht
          exact ⟨rfl, hJ.skip (by omega) hv hprot⟩
        · rfl
      | false =>
        refine runs_congr (fun m => (heq m).trans (if_neg (by rw [hprot]; decide))) ?_
        obtain ⟨hsc, cells, hcells⟩ := hJ.valid.spells
        have hset := @TerminalRow.setChar_overwrites True False _ _ _ hcells _
            (show 0 ≤ x by omega) (by omega) (show isScalar 0x20 = true by decide) (by simp)
            (if keepVisualAttributes then v else style) (by simp) (by simp)
        have hvalid := @TerminalRow.setChar_runs True False _ _ x 0x20
            (if keepVisualAttributes then v else style) hJ.valid (by simp) (by omega) (by omega)
            (by decide) (by simp) (by simp)
        refine setChar_redrawn hb₂ (by omega) (by omega) (by omega) (by omega) hs
          ((hset.and hvalid).mono fun s' hs' => ?_) fun s' hs' => ?_
        · have hspace : TerminalRow.SpaceAt x (if keepVisualAttributes then v else style) s s' := by
            intro cells' hcells'
            obtain rfl := hcells.unique hcells'
            exact hs'.1
          exact hJ.space (by omega) hx hx' hv hprot hspace hs'.2
        · rw [hcols₂, hcols]
          exact hs'.valid
    · rw [At] at hz ⊢
      split_ifs at hz ⊢ with hzy
      · intro p c s hc hs
        rw [hz.1] at hc ⊢
        rw [hz.2.kept_iff hc hs]
        subst hzy
        simp only [hy, hy', true_and]
      · exact hz
  refine hruns.mono fun b' hred => hred.mono fun y r r' _ hrow => ?_
  rw [Within] at hrow
  split_ifs at hrow with hin
  · exact hrow
  · rw [hrow]
    exact fun p c s hc _ => ⟨fun _ hhalved => hin ⟨hhalved.1, hhalved.2.1⟩, fun _ => hc⟩

/-- The character at column `p` of the row at `y`, and the style of that column. -/
def HasCellAt (b : TerminalBuffer) (y p : Int) (c : Cell) (s : Style) : Prop :=
  ∃ r, b.rowAt y = .ok r ∧ r.HasCell p c s

/-- The rectangle takes in the second column of a wide character, which is not protected. -/
def HalvedAt (b : TerminalBuffer) (a : Rectangle) (y p : Int) (c : Cell) : Prop :=
  c.columns = 2 ∧ a.Mem y (p + 1) ∧
    ∃ v, b.styleAt y (p + 1) = .ok v ∧ TextStyle.isProtected v = false

/-- Column by column, a cell without a column stops the loop. -/
theorem selectiveFill_negative [ShortStore] (hb : Valid b) (a : Rectangle) (style : Style)
    (keepVisualAttributes : Bool) (h₀ : 0 ≤ a.top) (h₁ : a.bottom ≤ b.mScreenRows)
    (hrows : a.top < a.bottom) (hleft : a.left < 0) (hcols : a.left < a.right) :
    ∃ e, forUp a.top a.bottom (fun y b =>
      forUp a.left a.right (Display.fillCell 0x20 style true keepVisualAttributes y) b) b = .error e := by
  have hhist := hb.history
  -- The first round of a loop decides.
  have hfirst {σ : Type} {i j : Int} {f : Int → σ → Java σ} {s : σ} {e : JavaException} (hij : i < j)
      (h : f i s = .error e) : forUp i j f s = .error e := by
    unfold forUp
    obtain ⟨n, hn⟩ : ∃ n, (j - i).toNat = n + 1 := ⟨(j - i).toNat - 1, by omega⟩
    rw [hn, List.range_succ_eq_map, List.foldlM_cons, Nat.cast_zero, add_zero, h]
    rfl
  obtain ⟨r, hr, hv⟩ := hb.rowAt (y := a.top) (by omega) (by omega)
  obtain ⟨line, -, hline, hobj, -⟩ := hb.line_of_rowAt (by omega) (by omega) hr
  have hget : b.getStyleAt a.top a.left = .error .arrayIndexOutOfBounds := by
    rw [getStyleAt, externalToInternalRow_eq hb.toShape (by omega) (by omega), ok_bind,
      allocateFullLine_of_some hline, ok_bind]
    simp only [deref_eq hobj, ok_bind, TerminalRow.getStyle, arrayGet, if_neg (not_le.mpr hleft)]
    rfl
  refine ⟨.arrayIndexOutOfBounds, hfirst hrows (hfirst hcols ?_)⟩
  unfold Display.fillCell
  rw [if_pos rfl, hget]
  rfl

end TerminalBuffer

/-! ## The sequences -/

namespace Display

variable {d : Display}

/-- The rectangle that DECSED goes over, or DECSEL if `justRow`. -/
def selected (d : Display) (justRow : Bool) (n : Nat) : Rectangle :=
  if n = 0 then
    ⟨d.mCursorRow, d.mCursorCol, if justRow then d.mCursorRow + 1 else d.mRows, d.mColumns⟩
  else if n = 1 then ⟨if justRow then d.mCursorRow else 0, 0, d.mCursorRow + 1, d.mCursorCol + 1⟩
  else if n = 2 then
    ⟨if justRow then d.mCursorRow else 0, 0, if justRow then d.mCursorRow + 1 else d.mRows, d.mColumns⟩
  else ⟨0, 0, 0, 0⟩

/-- The rectangle that DECSERA goes over. -/
def selectedRectangle (d : Display) (top left bottom right : Int) : Rectangle where
  top := min (top + d.effectiveTopMargin) (d.effectiveBottomMargin + 1) - 1
  left := min (left + d.effectiveLeftMargin) (d.effectiveRightMargin + 1) - 1
  bottom := min (bottom + d.effectiveTopMargin) d.effectiveBottomMargin
  right := min (right + d.effectiveLeftMargin) d.effectiveRightMargin

/-- The screen has the size of the display, and the cursor and the margins are within. -/
structure Bounded (d : Display) : Prop extends d.Matched where
  cursorRow : 0 ≤ d.mCursorRow ∧ d.mCursorRow < d.mRows
  cursorCol : d.mCursorCol < d.mColumns
  topMargin : 0 ≤ d.mTopMargin ∧ d.mTopMargin < d.mBottomMargin
  bottomMargin : d.mBottomMargin ≤ d.mRows
  leftMargin : 0 ≤ d.mLeftMargin ∧ d.mLeftMargin < d.mRightMargin
  rightMargin : d.mRightMargin ≤ d.mColumns

/-- A rectangle whose rows are on the screen, and whose columns do not go beyond it. -/
structure OnScreen (d : Display) (a : Rectangle) : Prop where
  top : 0 ≤ a.top
  bottom : a.bottom ≤ d.mRows
  right : a.right ≤ d.mColumns

theorem Bounded.selected (h : d.Bounded) (justRow : Bool) (n : Nat) :
    d.OnScreen (d.selected justRow n) := by
  have hrow := h.cursorRow
  have hcol := h.cursorCol
  have hrows := h.valid.screen
  have hcols := h.valid.columns
  rw [h.rows] at hrows
  rw [h.columns] at hcols
  unfold Display.selected
  split_ifs <;> constructor <;> simp only <;> omega

theorem Bounded.selectedRectangle (h : d.Bounded) {top left bottom right : Int} (ht : 1 ≤ top) :
    d.OnScreen (d.selectedRectangle top left bottom right) := by
  have hrows := h.valid.screen
  have hcols := h.valid.columns
  have htop := h.topMargin
  have hbottom := h.bottomMargin
  have hleft := h.leftMargin
  have hright := h.rightMargin
  rw [h.rows] at hrows
  rw [h.columns] at hcols
  unfold Display.selectedRectangle effectiveTopMargin effectiveBottomMargin effectiveLeftMargin
    effectiveRightMargin
  split_ifs <;> constructor <;> simp only <;> omega

end Display

namespace Terminal

open TerminalBuffer (ProtectedOnly Redrawn)

/-- The last character `b` of DECSED, DECSEL or DECSERA is still to come, and `a` is the rectangle
that the sequence goes over. -/
inductive Selects (t : Terminal) : Nat → Rectangle → Prop where
  | erase {n : Nat} (justRow : Bool) (h : t.Erasing true n) :
    Selects t (eraser justRow) (t.selected justRow n)
  | rectangle {top left bottom right : Nat} (state : t.mEscapeState = .csiDollar)
    (ht : t.getArg 0 1 true = .ok top) (hl : t.getArg 1 1 true = .ok left)
    (hb : t.getArg 2 t.mRows.toNat true = .ok bottom)
    (hr : t.getArg 3 t.mColumns.toNat true = .ok right) :
    Selects t 0x7b (t.selectedRectangle top left bottom right)

theorem Selects.onScreen {t : Terminal} {b : Nat} {a : Rectangle} (h : t.Selects b a)
    (hd : t.toDisplay.Bounded) : t.OnScreen a := by
  cases h with
  | erase justRow h => exact hd.selected justRow _
  | rectangle state ht hl hb hr =>
    have htop := getArg_pos le_rfl ht
    exact hd.selectedRectangle (by omega)

theorem Selects.of_left_neg {t : Terminal} {b : Nat} {a : Rectangle} (h : t.Selects b a)
    (hd : t.toDisplay.Bounded) (hneg : a.left < 0) :
    t.mCursorCol < 0 ∧ a.top < a.bottom ∧ a.left < a.right := by
  have hrow := hd.cursorRow
  have hcol := hd.cursorCol
  cases h with
  | erase justRow h =>
    unfold Display.selected at hneg ⊢
    split_ifs at hneg ⊢ <;> simp only at hneg ⊢ <;> omega
  | rectangle state ht hl hb hr =>
    have hleft := getArg_pos le_rfl hl
    have hmargin := hd.leftMargin
    have hcols := hd.valid.columns
    rw [hd.columns] at hcols
    unfold Display.selectedRectangle Display.effectiveLeftMargin Display.effectiveRightMargin at hneg
    simp only at hneg
    split_ifs at hneg <;> omega

/-- What the sequence does to the screen. -/
theorem Selects.processCodePoint [Platform] {t : Terminal} {b : Nat} {a : Rectangle}
    (h : t.Selects b a) (hd : t.toDisplay.Bounded) :
    ∃ (p : Parser) (w keep : Bool), ∀ _ : ShortStore, t.processCodePoint b =
      (forUp a.top a.bottom (fun y b =>
        forUp a.left a.right (Display.fillCell 0x20 t.getStyle true keep y) b) t.mScreen >>= fun b =>
        .ok { toDisplay := { t.toDisplay with mAboutToAutoWrap := w }.setScreen b, toParser := p }) := by
  cases h with
  | @erase n justRow h =>
    obtain ⟨p, hp⟩ := erasing_issues h (.inl rfl) justRow
    refine ⟨p, false, false, fun m => ?_⟩
    have hrun : t.selectiveErase justRow n = (forUp (t.selected justRow n).top
        (t.selected justRow n).bottom (fun y b => forUp (t.selected justRow n).left
          (t.selected justRow n).right (Display.fillCell 0x20 t.getStyle true false y) b) t.mScreen >>=
        fun b => .ok ({ t.toDisplay with mAboutToAutoWrap := false }.setScreen b)) := by
      unfold Display.selectiveErase Display.selected
      -- Any other argument is unknown to the source, and no cell is filled.
      by_cases h₀ : n = 0
      · subst h₀
        rfl
      by_cases h₁ : n = 1
      · subst h₁
        rfl
      by_cases h₂ : n = 2
      · subst h₂
        rfl
      · simp only [if_neg h₀, if_neg h₁, if_neg h₂]
        rw [if_neg (by omega), if_neg (by omega), if_neg (by omega), forUp_of_le le_rfl, ok_bind]
        congr 1
        exact (Display.setScreen_self _).symm
    rw [processCodePoint_edit hp]
    change (t.selectiveErase justRow n >>= fun d => .ok ({ toDisplay := d, toParser := p } : Terminal)) = _
    rw [hrun]
    cases forUp (t.selected justRow n).top (t.selected justRow n).bottom (fun y b =>
      forUp (t.selected justRow n).left (t.selected justRow n).right
        (Display.fillCell 0x20 t.getStyle true false y) b) t.mScreen <;> rfl
  | @rectangle top left bottom right state ht hl hb hr =>
    obtain ⟨bottom', hbottom, hb'⟩ := getArg_eq hb
    obtain ⟨right', hright, hr'⟩ := getArg_eq hr
    have htop := getArg_pos le_rfl ht
    have hleft := getArg_pos le_rfl hl
    have hrows := hd.valid.screen
    have hcols := hd.valid.columns
    rw [hd.rows] at hrows
    rw [hd.columns] at hcols
    -- An argument that is left out stands for the last row or column.
    have hbot := orRows_eq (d := t.toDisplay) (by omega) hb'
    have hrig := orColumns_eq (d := t.toDisplay) (by omega) hr'
    let p₀ : Parser := { t.toParser with mContinueSequence := false }
    have htop₀ : p₀.getArg 0 1 true = .ok top := ht
    have hleft₀ : p₀.getArg 1 1 true = .ok left := hl
    have hbottom₀ : p₀.findArg 2 true = .ok bottom' := hbottom
    have hright₀ : p₀.findArg 3 true = .ok right' := hright
    have hstate : p₀.mEscapeState = .csiDollar := state
    have hdispatch : p₀.dispatch 0x7b = .ok (p₀,
        [.edit (.fillRectangle 0x20 true (top - 1) (left - 1) bottom' right')]) := by
      have hdollar : p₀.doCsiDollar 0x7b = (do
          let top ← p₀.getArg 0 1 true
          let left ← p₀.getArg 1 1 true
          let bottom ← p₀.findArg 2 true
          let right ← p₀.findArg 3 true
          return (p₀, [.edit (.fillRectangle 0x20 true (top - 1) (left - 1) bottom right)])) := rfl
      unfold Parser.dispatch
      rw [hstate]
      change p₀.doCsiDollar 0x7b = _
      rw [hdollar, htop₀, ok_bind, hleft₀, ok_bind, hbottom₀, ok_bind, hright₀]
      rfl
    have hissues : t.toParser.processCodePoint 0x7b =
        .ok (if p₀.mContinueSequence then p₀ else p₀.finishSequence,
          [.edit (.fillRectangle 0x20 true (top - 1) (left - 1) bottom' right')]) := by
      have hcontrol : t.toParser.processCodePoint 0x7b = (p₀.dispatch 0x7b >>= fun r =>
          .ok (if r.1.mContinueSequence then r.1 else r.1.finishSequence, r.2)) := rfl
      rw [hcontrol, hdispatch]
      rfl
    refine ⟨if p₀.mContinueSequence then p₀ else p₀.finishSequence, t.mAboutToAutoWrap, true,
      fun m => ?_⟩
    have hrun : t.fillRectangle 0x20 true (((top - 1 : Nat) : Int) + 1) (((left - 1 : Nat) : Int) + 1)
        (t.toDisplay.orRows bottom') (t.toDisplay.orColumns right') =
        (forUp (t.selectedRectangle top left bottom right).top
          (t.selectedRectangle top left bottom right).bottom (fun y b =>
            forUp (t.selectedRectangle top left bottom right).left
              (t.selectedRectangle top left bottom right).right
              (Display.fillCell 0x20 t.getStyle true true y) b) t.mScreen >>=
          fun b => .ok (t.toDisplay.setScreen b)) := by
      rw [hbot, hrig, show ((top - 1 : Nat) : Int) + 1 = top by omega,
        show ((left - 1 : Nat) : Int) + 1 = left by omega]
      rfl
    rw [processCodePoint_edit hissues, Edit.run, hrun]
    cases forUp (t.selectedRectangle top left bottom right).top
      (t.selectedRectangle top left bottom right).bottom (fun y b =>
        forUp (t.selectedRectangle top left bottom right).left
          (t.selectedRectangle top left bottom right).right
          (Display.fillCell 0x20 t.getStyle true true y) b) t.mScreen <;> rfl

/-- DECSED, DECSEL and DECSERA leave a protected character as it is, unless it is wide and its second
column is in the rectangle and is not protected. -/
theorem protected_kept_iff [Platform] {t : Terminal} {b : Nat} {a : Rectangle}
    (hd : t.toDisplay.Bounded) (ha : t.Selects b a)
    (htrap : @Terminal.processCodePoint trapShort _ t b ≠ .error .shortOverflow) :
    (0 ≤ t.mCursorCol → ∃ t', t.processCodePoint b = .ok t') ∧
      ∀ t', t.processCodePoint b = .ok t' → ∀ y p c s, 0 ≤ y → y < t.mRows →
        t.mScreen.HasCellAt y p c s → TextStyle.isProtected s = true →
        (t'.mScreen.HasCellAt y p c s ↔ ¬t.mScreen.HalvedAt a y p c) := by
  obtain ⟨htop, hbottom, hright⟩ := ha.onScreen hd
  obtain ⟨p, w, keep, hp⟩ := ha.processCodePoint hd
  have hhist := hd.valid.history
  have hrows := hd.rows
  rw [hp trapShort] at htrap
  rw [hp javaShort]
  by_cases hleft : 0 ≤ a.left
  -- The filled buffer keeps a cell unless a space has been written over its second column.
  · have hruns := TerminalBuffer.selectiveFill_redrawn hd.valid a t.getStyle keep htop
      (hbottom.trans_eq hrows.symm) hleft (hright.trans_eq hd.columns.symm)
    obtain ⟨b', hb', hred⟩ := hruns.returns fun hstop => htrap (by
      beta_reduce at hstop
      rw [hstop]
      rfl)
    beta_reduce at hb'
    rw [hb', ok_bind]
    refine ⟨fun _ => ⟨_, rfl⟩, fun t' ht' y p c s h₀ hy hc hs => ?_⟩
    cases ht'
    obtain ⟨r, hr, hcell⟩ := hc
    obtain ⟨r', hr', hkept⟩ := hred.row (by omega) (by omega) hr
    have hiff := hkept p c s hcell hs
    have hp₀ := hcell.nonneg
    constructor
    · rintro ⟨r'', hr'', hcell'⟩ ⟨hw, ⟨h₁, h₂, h₃, h₄⟩, v, hv, hfree⟩
      rw [Display.setScreen_mScreen, hr'] at hr''
      cases hr''
      rw [TerminalBuffer.styleAt, hr, ok_bind, TerminalRow.getStyle, arrayGet_eq_ok] at hv
      exact hiff.mp hcell' ⟨h₁, h₂, hw, h₃, h₄, v, hv.2, hfree⟩
    · intro hno
      refine ⟨r', by rw [Display.setScreen_mScreen, hr'], hiff.mpr ?_⟩
      rintro ⟨h₁, h₂, hw, h₃, h₄, v, hv, hfree⟩
      refine hno ⟨hw, ⟨h₁, h₂, h₃, h₄⟩, v, ?_, hfree⟩
      rw [TerminalBuffer.styleAt, hr, ok_bind, TerminalRow.getStyle, arrayGet_ok (by omega) hv]
  · -- Then the first column is that of a cursor left of the screen.
    obtain ⟨hcursor, hlt, hlt'⟩ := ha.of_left_neg hd (by omega)
    obtain ⟨e, he⟩ := TerminalBuffer.selectiveFill_negative hd.valid a t.getStyle keep htop
      (hbottom.trans_eq hrows.symm) hlt (by omega) hlt'
    rw [he]
    exact ⟨fun h => by omega, fun t' ht' => by cases ht'⟩

/-- A terminal of two columns and rows that has read `CSI ?`. -/
def smallErasing (b : TerminalBuffer) : Terminal :=
  { introduced true b with mBottomMargin := 2, mRightMargin := 2 }

def letterCell : Cell :=
  TerminalRow.newCell 0x61 [] (by decide) (by decide +kernel) Cell.no_marks

def otherLetter : Cell :=
  TerminalRow.newCell 0x6b [] (by decide) (by decide +kernel) Cell.no_marks

/-- A protected letter, and one that is not, in the first row. -/
def halfProtected : Java TerminalBuffer :=
  @TerminalBuffer.script javaShort 2 2 2 [.setChar 0 0 0x61 (TextStyle.encode 0 0 TextStyle.attributeProtected),
    .setChar 1 0 0x6b TextStyle.normal]

/-- DECSED 0 at the first letter keeps the protected one and erases the other. -/
theorem protected_kept_iff_letter : ∃ (b : TerminalBuffer) (t' : Terminal) (s : Style),
    halfProtected = .ok b ∧ (smallErasing b).mScreen.HasCellAt 0 0 letterCell s ∧ TextStyle.isProtected s = true ∧
    @Terminal.processCodePoint javaShort plainPlatform (smallErasing b) (eraser false) = .ok t' ∧
    t'.mScreen.HasCellAt 0 0 letterCell s ∧
    (t'.mScreen.rowAt 0).map (fun r => r.mText.take r.mSpaceUsed.toNat) = .ok [0x61, 0x20] := by
  have hsize : halfProtected.map (fun b => (b.mColumns, b.mScreenRows)) = .ok (2, 2) := by
    decide +kernel
  have htrap : (halfProtected >>= fun b =>
      @Terminal.processCodePoint trapShort plainPlatform (smallErasing b) (eraser false)).isOk = true := by
    decide +kernel
  have hrow : (halfProtected >>= fun b => b.rowAt 0).map (fun r => (r.mText.take 2, r.mSpaceUsed,
      r.mColumns, r.mHasNonOneWidthOrSurrogateChars)) = .ok ([0x61, 0x6b], 2, 2, false) := by
    decide +kernel
  have hstyle : (halfProtected >>= fun b => b.rowAt 0).map (fun r => (r.mStyle.length,
      (r.mStyle[0]?).map TextStyle.isProtected)) = .ok (2, some true) := by
    decide +kernel
  have hnew : (halfProtected >>= fun b =>
      @Terminal.processCodePoint javaShort plainPlatform (smallErasing b) (eraser false) >>= fun t' =>
      t'.mScreen.rowAt 0).map (fun r => r.mText.take r.mSpaceUsed.toNat) = .ok [0x61, 0x20] := by
    decide +kernel
  obtain ⟨b, hb, hvalues⟩ := exists_of_map_eq_ok hsize
  obtain ⟨hcolumns, hscreen⟩ := Prod.mk.inj hvalues
  rw [hb, ok_bind] at htrap hrow hstyle hnew
  obtain ⟨r, hr, hrow⟩ := exists_of_map_eq_ok hrow
  rw [hr] at hstyle
  simp only [Except.map, Except.ok.injEq, Prod.mk.injEq] at hrow hstyle
  obtain ⟨htext, hspace, hcols, hflag⟩ := hrow
  obtain ⟨hlen, hprot⟩ := hstyle
  obtain ⟨s, hs, hs'⟩ := Option.map_eq_some_iff.mp hprot
  have hone : letterCell.columns = 1 := by decide +kernel
  have hother : otherLetter.columns = 1 := by decide +kernel
  have hrep : Represents r ([] ++ letterCell :: [otherLetter]) := {
    text := ⟨r.mText.drop 2, by
      have henc : encode ([] ++ letterCell :: [otherLetter]) = [0x61, 0x6b] := by
        decide +kernel
      rw [henc, ← htext, List.take_append_drop]⟩
    space := hspace
    columns := by simp [hone, hother, hcols]
    styles := by rw [hlen, hcols]; rfl
    simple := by simpa [hflag] using ⟨⟨by decide, hone, rfl⟩, ⟨by decide, hother, rfl⟩⟩ }
  have hcell : (smallErasing b).mScreen.HasCellAt 0 0 letterCell s := ⟨r, hr, [], _, hrep, rfl, hs⟩
  have hv : TerminalBuffer.Valid b := TerminalBuffer.script_valid (by decide) (by decide) (by decide)
    (by simp [TerminalBuffer.Operation.Legal, TerminalBuffer.Operation.Fits, isScalar, isSurrogate])
    (by decide +kernel) hb
  have hbounded : (smallErasing b).toDisplay.Bounded :=
    ⟨⟨hv, hscreen, hcolumns⟩, ⟨show (0 : Int) ≤ 0 by decide, show (0 : Int) < 2 by decide⟩,
      show (0 : Int) < 2 by decide, ⟨show (0 : Int) ≤ 0 by decide, show (0 : Int) < 2 by decide⟩,
      show (2 : Int) ≤ 2 by decide, ⟨show (0 : Int) ≤ 0 by decide, show (0 : Int) < 2 by decide⟩,
      show (2 : Int) ≤ 2 by decide⟩
  have hselects : (smallErasing b).Selects (eraser false) ((smallErasing b).selected false 0) :=
    .erase false ⟨rfl, rfl⟩
  obtain ⟨hreturns, hkept⟩ := @protected_kept_iff plainPlatform _ _ _ hbounded hselects fun hstop => by
    rw [hstop] at htrap
    cases htrap
  obtain ⟨t', ht⟩ := hreturns (show (0 : Int) ≤ 0 by decide)
  rw [ht, ok_bind] at hnew
  refine ⟨b, t', s, hb, hcell, hs', ht, ?_, hnew⟩
  refine (hkept t' ht 0 0 letterCell s (by decide) (show (0 : Int) < 2 by decide) hcell hs').mpr ?_
  rintro ⟨hwide, -⟩
  omega

/-- The ideograph for "one", which is wide. -/
def ideograph : Cell where
  base := 0x4e00
  marks := []
  base_isScalar := by decide
  base_width := by decide +kernel
  marks_zero := Cell.no_marks

/-- `CSI 1 " q`, an ideograph and `CSI ? 2`, on a screen of four rows and columns. -/
def wideProtected : Java TerminalEmulator := do
  let e ← @TerminalEmulator.new javaShort plainPlatform 4 4 (some 100)
  @TerminalEmulator.append javaShort plainPlatform e [0x1b, 0x5b, 0x31, 0x22, 0x71, 0xe4, 0xb8, 0x80,
    0x1b, 0x5b, 0x3f, 0x32]

/-- DECSED erases the ideograph. -/
theorem ideograph_erased : ∃ (e : TerminalEmulator) (t' : Terminal) (s : Style),
    wideProtected = .ok e ∧ e.toTerminal.Erasing true 2 ∧
    e.mScreen.HasCellAt 0 0 ideograph s ∧ TextStyle.isProtected s = true ∧
    @Terminal.processCodePoint javaShort plainPlatform e.toTerminal (eraser false) = .ok t' ∧
    ¬t'.mScreen.HasCellAt 0 0 ideograph s := by
  have hstate : wideProtected.map (fun e => (e.mEscapeState, e.getArg0 0)) =
      .ok (.csiQuestionmark, .ok 2) := by
    decide +kernel
  have hrow : (wideProtected >>= fun e => e.mScreen.rowAt 0).map (fun r => (r.mText.take 3,
      r.mSpaceUsed, r.mColumns, r.mHasNonOneWidthOrSurrogateChars)) =
      .ok ([0x4e00, 0x20, 0x20], 3, 4, true) := by
    decide +kernel
  have hstyle : (wideProtected >>= fun e => e.mScreen.rowAt 0).map (fun r => (r.mStyle.length,
      (r.mStyle[0]?).map TextStyle.isProtected)) = .ok (4, some true) := by
    decide +kernel
  have hnew : (wideProtected >>= fun e =>
      @Terminal.processCodePoint javaShort plainPlatform e.toTerminal (eraser false) >>= fun t' =>
      t'.mScreen.rowAt 0).map (fun r => r.mText.take r.mSpaceUsed.toNat) =
      .ok [0x20, 0x20, 0x20, 0x20] := by
    decide +kernel
  obtain ⟨e, he, hstate⟩ := exists_of_map_eq_ok hstate
  rw [he, ok_bind] at hrow hstyle hnew
  obtain ⟨r, hr, hrow⟩ := exists_of_map_eq_ok hrow
  obtain ⟨r', hr', hnew⟩ := exists_of_map_eq_ok hnew
  obtain ⟨t', ht, hr'⟩ := bind_eq_ok.mp hr'
  rw [hr] at hstyle
  simp only [Except.map, Except.ok.injEq, Prod.mk.injEq] at hstate hrow hstyle
  obtain ⟨htext, hspace, hcols, hflag⟩ := hrow
  obtain ⟨hlen, hprot⟩ := hstyle
  obtain ⟨s, hs, hs'⟩ := Option.map_eq_some_iff.mp hprot
  have hwide : ideograph.columns = 2 := by decide +kernel
  have hrep : Represents r ([] ++ ideograph :: [Cell.blank, Cell.blank]) := {
    text := ⟨r.mText.drop 3, by
      have henc : encode ([] ++ ideograph :: [Cell.blank, Cell.blank]) = [0x4e00, 0x20, 0x20] := by
        decide +kernel
      rw [henc, ← htext, List.take_append_drop]⟩
    space := hspace
    columns := by simp [hwide, hcols]
    styles := by rw [hlen, hcols]; rfl
    simple := by simp [hflag] }
  refine ⟨e, t', s, he, ⟨hstate.1, hstate.2⟩, ⟨r, hr, [], _, hrep, rfl, hs⟩, hs', ht, ?_⟩
  rintro ⟨r₁, hr₁, pre, post, hrep', hpre, -⟩
  cases hr'.symm.trans hr₁
  rw [hrep'.text_eq] at hnew
  cases pre with
  | nil => cases hnew
  | cons d pre =>
    have hpos := totalColumns_pos (List.cons_ne_nil d pre)
    omega

end Terminal

end XoDos
