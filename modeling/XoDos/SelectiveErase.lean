import XoDos.BlockCopy
import XoDos.RectangleAttributes
import XoDos.RowResize

/-!
# Erasing, and erasing what is not protected

ED and EL clear blocks of the screen; DECSED and DECSEL go over rows and columns,
and skip protected cells.  Where nothing is protected, both make spaces of cells,
but ED takes whole rows below or above the cursor, and DECSED only the columns
that it takes in the row of the cursor.
-/

namespace XoDos

open WcWidth (width)

/-! ## Painting a list -/

section

variable {α : Type} {p q : Int → Bool} {v : α} {l : List α}

/-- The elements at the positions of `p` become `v`. -/
def painted (p : Int → Bool) (v : α) (l : List α) : List α :=
  l.mapIdx fun i a => if p i then v else a

@[simp] theorem length_painted : (painted p v l).length = l.length := List.length_mapIdx

theorem getElem?_painted (i : Nat) :
    (painted p v l)[i]? = (l[i]?).map fun a => if p i then v else a := List.getElem?_mapIdx

theorem painted_painted : painted q v (painted p v l) = painted (fun i => p i || q i) v l := by
  apply List.ext_getElem?
  intro i
  simp only [getElem?_painted, Option.map_map]
  congr 1
  funext a
  simp only [Function.comp_apply]
  cases p i <;> cases q i <;> rfl

theorem painted_congr (h : ∀ i : Nat, i < l.length → p i = q i) : painted p v l = painted q v l := by
  apply List.ext_getElem?
  intro i
  simp only [getElem?_painted]
  by_cases hi : i < l.length
  · rw [h i hi]
  · rw [List.getElem?_eq_none (by omega)]
    rfl

theorem painted_none (h : ∀ i : Nat, i < l.length → p i = false) : painted p v l = l := by
  apply List.ext_getElem?
  intro i
  rw [getElem?_painted]
  cases hi : l[i]? with
  | none => rfl
  | some a =>
    obtain ⟨hlt, -⟩ := List.getElem?_eq_some_iff.mp hi
    rw [Option.map_some, h i hlt]
    rfl

theorem set_painted (x : Nat) :
    (painted p v l).set x v = painted (fun i => p i || decide (i = x)) v l := by
  apply List.ext_getElem?
  intro i
  rw [List.getElem?_set, getElem?_painted, getElem?_painted, length_painted]
  by_cases hx : x = i
  · subst hx
    by_cases hlt : x < l.length
    · rw [if_pos rfl, if_pos hlt, List.getElem?_eq_getElem hlt]
      simp
    · rw [if_pos rfl, if_neg hlt, List.getElem?_eq_none (by omega)]
      rfl
  · have hne : ((i : Int) = x) = False := by
      apply eq_false
      omega
    rw [if_neg hx]
    simp only [hne, decide_false, Bool.or_false]

/-- Two paintings are the same just if they differ only where there is `v` already. -/
theorem painted_eq_iff :
    painted p v l = painted q v l ↔ ∀ (i : Nat) (a : α), l[i]? = some a → p i ≠ q i → a = v := by
  constructor
  · intro h i a ha hne
    have hi : (painted p v l)[i]? = (painted q v l)[i]? := by rw [h]
    simp only [getElem?_painted, ha, Option.map_some, Option.some_inj] at hi
    cases hp : p i with
    | true =>
      cases hq : q i with
      | true => rw [hp, hq] at hne; exact absurd rfl hne
      | false => rw [hp, hq] at hi; exact hi.symm
    | false =>
      cases hq : q i with
      | true => rw [hp, hq] at hi; exact hi
      | false => rw [hp, hq] at hne; exact absurd rfl hne
  · intro h
    apply List.ext_getElem?
    intro i
    simp only [getElem?_painted]
    cases ha : l[i]? with
    | none => rfl
    | some a =>
      by_cases hpq : p i = q i
      · rw [hpq]
      · have hv := h i a ha hpq
        rw [Option.map_some, Option.map_some, hv, ite_self, ite_self]

end

/-! ## Spaces in a row of narrow cells -/

namespace TerminalRow

variable {E : Prop} {r s r' r'' : TerminalRow} {cells : List Cell} {styles : List Style} {style : Style}
  {p q : Int → Bool}

theorem Narrow.painted (h : Narrow cells) : Narrow (painted p Cell.blank cells) := by
  intro c hc
  obtain ⟨i, hi⟩ := List.mem_iff_getElem?.mp hc
  rw [getElem?_painted] at hi
  obtain ⟨d, hd, rfl⟩ := Option.map_eq_some_iff.mp hi
  split_ifs
  · exact Cell.blank_columns
  · exact h d (List.mem_of_getElem? hd)

/-- A space takes no more room than any cell. -/
theorem encode_set_blank_le {x : Nat} : (encode (cells.set x Cell.blank)).length ≤ (encode cells).length := by
  induction cells generalizing x with
  | nil => simp
  | cons c cells ih =>
    have hc := c.chars_length_pos
    cases x with
    | zero =>
      rw [List.set_cons_zero, encode_cons, encode_cons, List.length_append, List.length_append,
        Cell.blank_chars, List.length_singleton]
      omega
    | succ x =>
      have hle := @ih x
      rw [List.set_cons_succ, encode_cons, encode_cons, List.length_append, List.length_append]
      omega

/-- There is a `char` for every cell. -/
theorem length_le_encode (cells : List Cell) : cells.length ≤ (encode cells).length := by
  induction cells with
  | nil => exact le_rfl
  | cons c cells ih =>
    have hc := c.chars_length_pos
    rw [List.length_cons, encode_cons, List.length_append]
    omega

theorem valid_of_narrow {columns : Int} (h : Represents r cells) (hn : Narrow cells)
    (hc : r.mColumns = columns) : Valid columns r := by
  have hcols := h.columns
  have hspace := h.space_le
  have hlen := length_le_encode cells
  rw [h.space] at hspace
  rw [hn.totalColumns] at hcols
  exact ⟨⟨hc, cells, h⟩, by omega⟩

/-- A space is written over a narrow cell. -/
theorem Rewritten.setChar_space (h : Rewritten r cells styles s) (hn : Narrow cells)
    (hfits : s.mSpaceUsed ≤ 32767) {x : Nat} (hx : x < cells.length) :
    Runs False E (fun s' => Rewritten r (cells.set x Cell.blank) (styles.set x style) s' ∧
        s'.mSpaceUsed ≤ s.mSpaceUsed) fun _ => s.setChar x 0x20 style := by
  have hsplit : cells = cells.take x ++ cells[x] :: cells.drop (x + 1) := by
    rw [List.getElem_cons_drop, List.take_append_drop]
  have hset : cells.set x Cell.blank = cells.take x ++ Cell.blank :: cells.drop (x + 1) :=
    List.set_eq_take_append_cons_drop.trans (if_pos hx)
  have hpre : totalColumns (cells.take x) = x := by
    rw [(hn.take x).totalColumns, List.length_take]
    omega
  have hle := @encode_set_blank_le cells x
  have hspace := h.cells.space
  have hcells := h.cells
  rw [hsplit] at hcells
  have hruns := @TerminalRow.setChar_narrow False E _ _ _ _ _ hcells (hn _ (List.getElem_mem hx))
      (show isScalar 0x20 = true by decide) WcWidth.width_space style fun hover => by
      rw [hset, encode_append, encode_cons, List.length_append, List.length_append,
        Cell.blank_chars, List.length_singleton] at hle
      have hcount : charCount 0x20 = 1 := rfl
      omega
  rw [hpre, h.style] at hruns
  refine hruns.mono fun s' hs' => ?_
  have hnew : Rewritten r (cells.set x Cell.blank) (styles.set x style) s' := by
    rw [hset]
    exact h.trans hs'
  refine ⟨hnew, ?_⟩
  rw [hnew.cells.space, hspace]
  omega

/-- The cells at the columns of `p` are spaces in `style`. -/
structure Erased (p : Int → Bool) (style : Style) (r r' : TerminalRow) : Prop where
  cells : ∀ cells, Represents r cells →
    Rewritten r (painted p Cell.blank cells) (painted p style r.mStyle) r'
  space : r'.mSpaceUsed ≤ r.mSpaceUsed

theorem Erased.refl (h : ∀ x : Nat, x < r.mColumns → p x = false) (hr : r.NarrowRow) :
    Erased p style r r := by
  refine ⟨fun cells hcells => ?_, le_rfl⟩
  obtain ⟨cells', hcells', hn⟩ := hr
  obtain rfl := hcells.unique hcells'
  have hcols := hcells.columns
  have hst := hcells.styles
  rw [hn.totalColumns] at hcols
  rw [painted_none fun i hi => h i (by omega), painted_none fun i hi => h i (by omega)]
  exact ⟨rfl, rfl, rfl, hcells⟩

theorem Erased.trans (h : Erased p style r r') (h' : Erased q style r' r'') :
    Erased (fun x => p x || q x) style r r'' := by
  refine ⟨fun cells hcells => ?_, h'.space.trans h.space⟩
  have h₁ := h.cells cells hcells
  have h₂ := h'.cells _ h₁.cells
  rw [painted_painted, h₁.style, painted_painted] at h₂
  exact h₁.trans h₂

theorem Erased.congr (h : Erased p style r r') (hr : r.NarrowRow)
    (hpq : ∀ x : Nat, x < r.mColumns → p x = q x) : Erased q style r r' := by
  refine ⟨fun cells hcells => ?_, h.space⟩
  obtain ⟨cells', hcells', hn⟩ := hr
  obtain rfl := hcells.unique hcells'
  have hcols := hcells.columns
  have hst := hcells.styles
  rw [hn.totalColumns] at hcols
  rw [← painted_congr fun i hi => hpq i (by omega), ← painted_congr fun i hi => hpq i (by omega)]
  exact h.cells cells hcells

theorem Erased.narrowRow (h : Erased p style r r') (hr : r.NarrowRow) : r'.NarrowRow := by
  obtain ⟨cells, hcells, hn⟩ := hr
  exact ⟨_, (h.cells cells hcells).cells, hn.painted⟩

end TerminalRow

/-! ## Cells of the buffer -/

namespace TextStyle

/-- The attribute that DECSED, DECSEL and DECSERA respect. -/
def isProtected (s : Style) : Bool := decide (decodeEffect s &&& attributeProtected ≠ 0)

end TextStyle

namespace TerminalBuffer

variable {T E : Prop} {b b' : TerminalBuffer} {r : TerminalRow} {y x : Int} {style : Style}
  {codePoint : Nat} {P : TerminalRow → Prop}

theorem getStyleAt_eq [ShortStore] (hb : Valid b) (h₁ : 0 ≤ y) (h₂ : y < b.mScreenRows)
    (hr : b.rowAt y = .ok r) (hx : 0 ≤ x) {s : Style} (hs : r.mStyle[x.toNat]? = some s) :
    b.getStyleAt y x = .ok (b, s) := by
  have hhist := hb.history
  obtain ⟨line, -, hline, hobj, -⟩ := hb.line_of_rowAt (by omega) h₂ hr
  rw [getStyleAt, externalToInternalRow_eq hb.toShape (by omega) h₂.le, ok_bind,
    allocateFullLine_of_some hline, ok_bind]
  simp only [deref_eq hobj, ok_bind, TerminalRow.getStyle, arrayGet_ok hx hs]
  rfl

/-- Writing to a cell changes the row object. -/
theorem setChar_redrawn (hb : Valid b) (h₁ : 0 ≤ y) (h₂ : y < b.mScreenRows) (hx : 0 ≤ x)
    (hx' : x < b.mColumns) (hr : b.rowAt y = .ok r)
    (hruns : Runs T E P fun _ => r.setChar x codePoint style)
    (hP : ∀ r', P r' → TerminalRow.Valid b.mColumns r') :
    Runs T E (Redrawn (At y fun t t' => t = r ∧ P t') b) fun _ => b.setChar x y codePoint style := by
  have hhist := hb.history
  obtain ⟨line, -, hline, hobj, -⟩ := hb.line_of_rowAt (by omega) h₂ hr
  have key (m : ShortStore) : b.setChar x y codePoint style =
      (r.setChar x codePoint style >>= fun r' => .ok (b.update line r')) := by
    rw [setChar, if_neg (by omega), externalToInternalRow_eq hb.toShape (by omega) h₂.le, ok_bind,
      allocateFullLine_of_some hline, ok_bind]
    simp only [deref_eq hobj, ok_bind]
    rfl
  refine runs_congr key (runs_bind hruns fun r' hr' => ?_)
  refine Lockstep.ok ((hb.update_redrawn (by omega) h₂ hline hobj (hP r' hr')).mono
    fun z t t' _ hz => ?_)
  rw [At] at hz ⊢
  split_ifs at hz ⊢
  · rw [hz.2]
    exact ⟨hz.1, hr'⟩
  · exact hz

/-- A protected cell is skipped, and any other one is written to. -/
theorem fillCell_eq [ShortStore] (hb : Valid b) (h₁ : 0 ≤ y) (h₂ : y < b.mScreenRows)
    (hr : b.rowAt y = .ok r) (hx : 0 ≤ x) {s : Style} (hs : r.mStyle[x.toNat]? = some s)
    (selective keepVisualAttributes : Bool) :
    Display.fillCell codePoint style selective keepVisualAttributes y x b =
      if selective = true ∧ TextStyle.isProtected s = true then .ok b
      else b.setChar x y codePoint (if keepVisualAttributes then s else style) := by
  have hget := getStyleAt_eq hb h₁ h₂ hr hx hs
  have hkeep : (if keepVisualAttributes then b.getStyleAt y x else .ok (b, style)) =
      .ok (b, if keepVisualAttributes then s else style) := by
    rw [hget]
    cases keepVisualAttributes <;> rfl
  unfold Display.fillCell
  cases selective with
  | false =>
    change ((if keepVisualAttributes then b.getStyleAt y x else .ok (b, style)) >>= fun p =>
      p.1.setChar x y codePoint p.2) = _
    rw [hkeep]
    rfl
  | true =>
    rw [if_pos rfl, hget]
    change (if TextStyle.isProtected s = true then .ok b else
      (if keepVisualAttributes then b.getStyleAt y x else .ok (b, style)) >>= fun p =>
        p.1.setChar x y codePoint p.2) = _
    rw [hkeep]
    simp only [true_and, ok_bind]

/-! ## Blocks -/

/-- A loop whose index starts elsewhere. -/
theorem forUp_add {σ : Type} (a n : Int) (f : Int → σ → Java σ) (s : σ) :
    forUp 0 n (fun i => f (a + i)) s = forUp a (a + n) f s := by
  unfold forUp
  rw [sub_zero, add_sub_cancel_left]
  simp only [zero_add]

/-- A row of narrow cells has got spaces in `style` at the columns of its region. -/
def Wiped (region : Int → Int → Bool) (style : Style) (y : Int) (r r' : TerminalRow) : Prop :=
  r.NarrowRow → TerminalRow.Erased (region y) style r r'

/-- The row at `y` spells narrow cells, of which a `short` can count the `char`s. -/
def PlainAt (b : TerminalBuffer) (y : Int) : Prop :=
  ∃ r, b.rowAt y = .ok r ∧ r.NarrowRow ∧ r.mSpaceUsed ≤ 32767

/-- No cell of the row at `y` is protected. -/
def Unprotected (b : TerminalBuffer) (y : Int) : Prop :=
  ∀ r, b.rowAt y = .ok r → ∀ s ∈ r.mStyle, TextStyle.isProtected s = false

theorem Wiped.trans {p q : Int → Int → Bool} (h : Redrawn (Wiped p style) b b') {b'' : TerminalBuffer}
    (h' : Redrawn (Wiped q style) b' b'') :
    Redrawn (Wiped (fun y x => p y x || q y x) style) b b'' := by
  refine (h.trans h').mono fun y r r'' _ hy hn => ?_
  obtain ⟨r', h₁, h₂⟩ := hy
  exact (h₁ hn).trans (h₂ ((h₁ hn).narrowRow hn))

theorem Wiped.plainAt {p : Int → Int → Bool} (h : Redrawn (Wiped p style) b b')
    (h₁ : -b.mActiveTranscriptRows ≤ y) (h₂ : y < b.mScreenRows) (hp : b.PlainAt y) :
    b'.PlainAt y := by
  obtain ⟨r, hr, hn, hfits⟩ := hp
  obtain ⟨r', hr', hw⟩ := h.row h₁ h₂ hr
  exact ⟨r', hr', (hw hn).narrowRow hn, (hw hn).space.trans hfits⟩

/-- Spaces are written to a rectangle, protected cells excepted if there are none. -/
theorem fill_wiped (hb : Valid b) (a : Rectangle) (selective : Bool) (style : Style)
    (h₀ : 0 ≤ a.top) (h₁ : a.bottom ≤ b.mScreenRows) (h₂ : 0 ≤ a.left) (h₃ : a.right ≤ b.mColumns)
    (hplain : ∀ y, 0 ≤ y → y < b.mScreenRows → b.PlainAt y)
    (hfree : selective = true → ∀ y, 0 ≤ y → y < b.mScreenRows → b.Unprotected y) :
    ∃ b', forUp a.top a.bottom (fun y b =>
        forUp a.left a.right (Display.fillCell 0x20 style selective false y) b) b = .ok b' ∧
      Redrawn (Wiped (fun y x => a.Mem y x) style) b b' := by
  have hhist := hb.history
  have hruns : Runs False False (Redrawn (Within a.top a.bottom fun y r r' =>
      Wiped (fun y x => a.Mem y x) style y r r') b) fun _ =>
      forUp a.top a.bottom (fun y b =>
        forUp a.left a.right (Display.fillCell 0x20 style selective false y) b) b := by
    refine runs_forUp_rows hb (by omega) h₁ fun y r b₁ hy hy' hb₁ hg hr hr₁ => ?_
    have hrows := hg.screen
    have hcols := hg.columns
    have hhist₁ := hg.history
    obtain ⟨r₀, hr₀, hn, hfits⟩ := hplain y (by omega) (by omega)
    rw [hr] at hr₀
    cases hr₀
    by_cases hlr : a.left ≤ a.right
    swap
    · refine runs_of_eq (fun _ => forUp_of_le (by omega)) (Redrawn.refl hb₁ fun z t ht => ?_)
      rw [At]
      split_ifs with hz
      · refine fun hnt => .refl (fun x _ => decide_eq_false ?_) hnt
        rw [Rectangle.Mem]
        omega
      · rfl
    obtain ⟨cells, hcells, hnarrow⟩ := id hn
    have hlen := hcells.columns
    have hst := hcells.styles
    obtain ⟨-, -, -, -, hrv⟩ := hb.line_of_rowAt (by omega) (by omega) hr
    have hrc := hrv.spells.1
    rw [hnarrow.totalColumns] at hlen
    refine (runs_forUp_row (y := y) (r := r)
      (f := fun _ => Display.fillCell 0x20 style selective false y)
      (J := fun x s => TerminalRow.Erased (fun i => decide (a.left ≤ i ∧ i < x)) style r s) hlr hb₁
      (by omega) (by omega) hr₁ (.refl (fun x _ => decide_eq_false (by omega)) hn)
      fun x s b₂ hx hx' hb₂ hg₂ hs hJ => ?_).mono fun b₂ hred => hred.mono fun z t t' _ hz => ?_
    · have hrows₂ := hg₂.screen
      have hcols₂ := hg₂.columns
      have hhist₂ := hg₂.history
      have hrow := hJ.cells cells hcells
      -- The style is still that of the row as it was.
      obtain ⟨v, hv⟩ : ∃ v, r.mStyle[x.toNat]? = some v :=
        ⟨_, List.getElem?_eq_getElem (by omega)⟩
      have hsv : s.mStyle[x.toNat]? = some v := by
        rw [hrow.style, getElem?_painted, hv, Option.map_some,
          if_neg (by simp only [decide_eq_true_eq]; omega)]
      have hskip : ¬(selective = true ∧ TextStyle.isProtected v = true) := by
        rintro ⟨hsel, hprot⟩
        rw [hfree hsel y (by omega) (by omega) r hr v (List.mem_of_getElem? hv)] at hprot
        cases hprot
      refine runs_congr (fun _ => (fillCell_eq hb₂ (by omega) (by omega) hs (by omega) hsv selective
        false).trans (if_neg hskip)) ?_
      have hset := @TerminalRow.Rewritten.setChar_space False _ _ _ _ style hrow hnarrow.painted
          (hJ.space.trans hfits) x.toNat (by rw [length_painted]; omega)
      rw [set_painted, set_painted, Int.toNat_of_nonneg (by omega)] at hset
      have hnext : (fun i => decide (a.left ≤ i ∧ i < x) || decide (i = x)) =
          fun i => decide (a.left ≤ i ∧ i < x + 1) := by
        funext i
        rw [← Bool.decide_or]
        exact decide_eq_decide.mpr (by omega)
      rw [hnext] at hset
      refine setChar_redrawn hb₂ (by omega) (by omega) (by omega) (by omega) hs
        (hset.mono fun s' hs' => ⟨fun cells' hcells' => ?_, hs'.2.trans hJ.space⟩) fun s' hs' => ?_
      · obtain rfl := hcells.unique hcells'
        exact hs'.1
      · have hrow' := hs'.cells cells hcells
        exact TerminalRow.valid_of_narrow hrow'.cells hnarrow.painted (by rw [hrow'.columns]; omega)
    · rw [At] at hz ⊢
      split_ifs at hz ⊢ with hzy
      · intro hnt
        rw [hz.1] at hnt ⊢
        refine hz.2.congr hnt fun i _ => decide_eq_decide.mpr ?_
        rw [Rectangle.Mem]
        omega
      · exact hz
  obtain ⟨b', hb', -, hred⟩ := hruns.both_return
  refine ⟨b', hb', hred.mono fun y r r' _ hy hn => ?_⟩
  rw [Within] at hy
  split_ifs at hy with hin
  · exact hy hn
  · rw [hy]
    refine .refl (fun x _ => decide_eq_false ?_) hn
    rw [Rectangle.Mem]
    omega

theorem chars_eq_space {c : Cell} : c.chars = [0x20] ↔ c = Cell.blank := by
  constructor
  · intro h
    have henc : encode [c] = encode [Cell.blank] := by
      rw [encode_cons, encode_cons, h, Cell.blank_chars]
    have hcells := encode_inj henc
    injection hcells
  · rintro rfl
    exact Cell.blank_chars

/-- Rows of narrow cells look the same if and only if they have the same cells and styles. -/
theorem sameLook_ok_iff {r₁ r₂ : TerminalRow} {cells₁ cells₂ : List Cell} (h₁ : Represents r₁ cells₁)
    (h₂ : Represents r₂ cells₂) :
    SameLook (.ok r₁) (.ok r₂) ↔ cells₁ = cells₂ ∧ r₁.mStyle = r₂.mStyle := by
  constructor
  · rintro ⟨r, s, hr, hs, htext, hstyle⟩
    cases hr
    cases hs
    rw [h₁.text_eq, h₂.text_eq] at htext
    exact ⟨encode_inj htext, hstyle⟩
  · rintro ⟨hcells, hstyle⟩
    exact ⟨r₁, r₂, rfl, rfl, by rw [h₁.text_eq, h₂.text_eq, hcells], hstyle⟩

/-- A row that is plain, and of which no cell is protected, by what is seen of its fields. -/
def plainRow (r : TerminalRow) : Bool :=
  !r.mHasNonOneWidthOrSurrogateChars && decide (r.mSpaceUsed ≤ 32767) &&
    r.mStyle.all fun s => !TextStyle.isProtected s

theorem plainAt_of_plainRow (hb : Valid b) (h₀ : 0 ≤ y) (h₁ : y < b.mScreenRows)
    (h : (b.rowAt y).map plainRow = .ok true) : b.PlainAt y ∧ b.Unprotected y := by
  have hhist := hb.history
  obtain ⟨r, hr, hv⟩ := hb.rowAt (y := y) (by omega) h₁
  rw [hr] at h
  simp only [Except.map, Except.ok.injEq, plainRow, Bool.and_eq_true, Bool.not_eq_true',
    decide_eq_true_eq, List.all_eq_true] at h
  obtain ⟨⟨hflag, hspace⟩, hstyles⟩ := h
  refine ⟨⟨r, hr, hv.narrowRow hflag, hspace⟩, fun r' hr' s hs => ?_⟩
  rw [hr] at hr'
  cases hr'
  exact hstyles s hs

/-- The first cell of such a row is what its first `char` says. -/
theorem showsAt_of_plainRow (hb : Valid b) (h₀ : 0 ≤ y) (h₁ : y < b.mScreenRows)
    (h : (b.rowAt y).map plainRow = .ok true) {c : Nat} {style : Style}
    (hfirst : (b.rowAt y).map (fun r => (r.mText[0]?, r.mStyle[0]?)) = .ok (some c, some style)) :
    b.ShowsAt y 0 [c] style := by
  have hhist := hb.history
  obtain ⟨r, hr, hv⟩ := hb.rowAt (y := y) (by omega) h₁
  rw [hr] at h hfirst
  simp only [Except.map, Except.ok.injEq, plainRow, Bool.and_eq_true, Bool.not_eq_true',
    Prod.mk.injEq] at h hfirst
  obtain ⟨hchar, hstyle⟩ := hfirst
  obtain ⟨-, cells, hcells⟩ := hv.spells
  have hsimple := hcells.simple h.1.1
  obtain ⟨slack, htext⟩ := hcells.text
  cases cells with
  | nil =>
    have hcolumns := hcells.columns
    have hstyles := hcells.styles
    rw [← hcolumns, totalColumns_nil, Int.natCast_eq_zero, List.length_eq_zero_iff] at hstyles
    rw [hstyles] at hstyle
    cases hstyle
  | cons cell cells =>
    have hcell := hsimple cell (List.mem_cons_self ..)
    rw [htext, encode_cons, hcell.chars_eq] at hchar
    cases hchar
    exact ⟨r, hr, [], cell, cells, hcells, rfl, hcell.2.1, hcell.chars_eq, hstyle⟩

/-- Two ways of erasing leave the same row just if they differ only where there are spaces already. -/
theorem sameLook_iff (hb : Valid b) {p q : Int → Int → Bool} {b₁ b₂ : TerminalBuffer}
    (hp : Redrawn (Wiped p style) b b₁) (hq : Redrawn (Wiped q style) b b₂) (h₀ : 0 ≤ y)
    (h₁ : y < b.mScreenRows) (hplain : b.PlainAt y) :
    SameLook (b₁.rowAt y) (b₂.rowAt y) ↔
      ∀ x, 0 ≤ x → x < b.mColumns → p y x ≠ q y x → b.ShowsAt y x [0x20] style := by
  have hhist := hb.history
  obtain ⟨r, hr, ⟨cells, hcells, hn⟩, -⟩ := hplain
  obtain ⟨-, -, -, -, hrv⟩ := hb.line_of_rowAt (by omega) h₁ hr
  obtain ⟨r₁, hr₁, hw₁⟩ := hp.row (by omega) h₁ hr
  obtain ⟨r₂, hr₂, hw₂⟩ := hq.row (by omega) h₁ hr
  have hrow₁ := (hw₁ ⟨cells, hcells, hn⟩).cells cells hcells
  have hrow₂ := (hw₂ ⟨cells, hcells, hn⟩).cells cells hcells
  have hrc := hrv.spells.1
  have hlen := hcells.columns
  have hst := hcells.styles
  rw [hn.totalColumns] at hlen
  rw [hr₁, hr₂, sameLook_ok_iff hrow₁.cells hrow₂.cells, hrow₁.style, hrow₂.style, painted_eq_iff,
    painted_eq_iff]
  -- In a plain row a column is a cell, so the two erasures are compared cell by cell.
  have hshows (x : Nat) : b.ShowsAt y x [0x20] style ↔
      (cells[x]?).map Cell.chars = some [0x20] ∧ r.mStyle[x]? = some style := by
    rw [← TerminalRow.shows_iff hcells hn]
    constructor
    · rintro ⟨r', hr', hshows⟩
      rw [hr] at hr'
      cases hr'
      exact hshows
    · intro hshows
      exact ⟨r, hr, hshows⟩
  constructor
  · rintro ⟨hall, hall'⟩ x hx hx' hne
    lift x to Nat using hx
    have hcell : cells[x]? = some cells[x] := List.getElem?_eq_getElem (by omega)
    have hstyle : r.mStyle[x]? = some r.mStyle[x] := List.getElem?_eq_getElem (by omega)
    rw [hshows, hcell, hstyle, hall x _ hcell hne, hall' x _ hstyle hne]
    exact ⟨rfl, rfl⟩
  · intro hall
    constructor
    · intro i c hc hne
      obtain ⟨hi, -⟩ := List.getElem?_eq_some_iff.mp hc
      have hspace := ((hshows i).mp (hall i (by omega) (by omega) hne)).1
      rw [hc, Option.map_some, Option.some_inj] at hspace
      exact chars_eq_space.mp hspace
    · intro i s hs hne
      obtain ⟨hi, -⟩ := List.getElem?_eq_some_iff.mp hs
      have hstyle := ((hshows i).mp (hall i (by omega) (by omega) hne)).2
      rw [hs, Option.some_inj] at hstyle
      exact hstyle

end TerminalBuffer

/-! ## The two families -/

namespace Display

open TerminalBuffer (Valid Redrawn Wiped PlainAt Unprotected forUp_add fill_wiped)

/-- The current screen has the size of the display. -/
structure Matched (d : Display) : Prop where
  valid : Valid d.mScreen
  rows : d.mScreen.mScreenRows = d.mRows
  columns : d.mScreen.mColumns = d.mColumns

/-- Every cell of the screen is narrow. -/
def Plain (d : Display) : Prop := ∀ y, 0 ≤ y → y < d.mRows → d.mScreen.PlainAt y

/-- Spaces have been written to a region of the screen. -/
def WipedTo (d d' : Display) (region : Int → Int → Prop) : Prop :=
  ∃ p, Redrawn (Wiped p d.getStyle) d.mScreen d'.mScreen ∧
    ∀ y x, 0 ≤ y → y < d.mRows → 0 ≤ x → x < d.mColumns → (p y x = true ↔ region y x)

variable {d d' : Display} {sx sy w h n : Int} {a : Rectangle} {selective : Bool}

theorem blockSet_wiped {b : TerminalBuffer} {style : Style} (hb : Valid b)
    (hplain : ∀ y, 0 ≤ y → y < b.mScreenRows → b.PlainAt y) :
    (0 ≤ sx ∧ sx + w ≤ b.mColumns ∧ 0 ≤ sy ∧ sy + h ≤ b.mScreenRows →
        ∃ b', b.blockSet sx sy w h 0x20 style = .ok b') ∧
      ∀ b', b.blockSet sx sy w h 0x20 style = .ok b' →
        (0 ≤ sx ∧ sx + w ≤ b.mColumns ∧ 0 ≤ sy ∧ sy + h ≤ b.mScreenRows) ∧
        Redrawn (Wiped (fun y x => (Rectangle.mk sy sx (sy + h) (sx + w)).Mem y x) style) b b' := by
  by_cases hrange : sx < 0 ∨ b.mColumns < sx + w ∨ sy < 0 ∨ b.mScreenRows < sy + h
  · have herror : b.blockSet sx sy w h 0x20 style = .error .illegalArgument := if_pos hrange
    rw [herror]
    exact ⟨fun h => absurd hrange (by omega), fun b' hb' => by cases hb'⟩
  · obtain ⟨b', hb', hred⟩ := fill_wiped hb ⟨sy, sx, sy + h, sx + w⟩ false style (by simp only; omega)
      (by simp only; omega) (by simp only; omega) (by simp only; omega) hplain (by simp)
    have hset : b.blockSet sx sy w h 0x20 style = .ok b' := by
      rw [← hb', TerminalBuffer.blockSet, if_neg hrange, ← forUp_add sy h]
      simp only [← forUp_add sx w]
      rfl
    rw [hset]
    refine ⟨fun _ => ⟨b', rfl⟩, fun b'' hb'' => ?_⟩
    cases hb''
    exact ⟨by omega, hred⟩

theorem Matched.wiped (hm : d.Matched) {p : Int → Int → Bool} {b : TerminalBuffer} {style : Style}
    (hred : Redrawn (Wiped p style) d.mScreen b) : (d.setScreen b).Matched := by
  constructor
  · rw [setScreen_mScreen]
    exact hred.valid
  · rw [setScreen_mScreen, hred.grown.screen, hm.rows]
    rfl
  · rw [setScreen_mScreen, hred.grown.columns, hm.columns]
    rfl

theorem Plain.wiped (hm : d.Matched) (hplain : d.Plain) {p : Int → Int → Bool} {b : TerminalBuffer}
    {style : Style} (hred : Redrawn (Wiped p style) d.mScreen b) : (d.setScreen b).Plain := by
  have hhist := hm.valid.history
  have hrows := hm.rows
  intro y h₀ h₁
  rw [setScreen_mScreen]
  exact Wiped.plainAt hred (by omega) (h₁.trans_eq hrows.symm) (hplain y h₀ h₁)

theorem blockClear_wiped (hm : d.Matched) (hplain : d.Plain) :
    (0 ≤ sx ∧ sx + w ≤ d.mColumns ∧ 0 ≤ sy ∧ sy + h ≤ d.mRows →
        ∃ d', d.blockClear sx sy w h = .ok d') ∧
      ∀ d', d.blockClear sx sy w h = .ok d' →
        (0 ≤ sx ∧ sx + w ≤ d.mColumns ∧ 0 ≤ sy ∧ sy + h ≤ d.mRows) ∧
        ∃ b, d' = d.setScreen b ∧
          Redrawn (Wiped (fun y x => (Rectangle.mk sy sx (sy + h) (sx + w)).Mem y x) d.getStyle)
            d.mScreen b := by
  have hrows := hm.rows
  obtain ⟨hreturns, hall⟩ := @blockSet_wiped sx sy w h _ d.getStyle hm.valid
      (by rw [hrows]; exact hplain)
  rw [hm.rows, hm.columns] at hreturns hall
  constructor
  · intro hrange
    obtain ⟨b, hb⟩ := hreturns hrange
    exact ⟨d.setScreen b, by rw [blockClear, onScreen, hb]; rfl⟩
  · intro d' hd'
    obtain ⟨b, hb, hd⟩ := bind_eq_ok.mp hd'
    cases hd
    obtain ⟨hrange, hred⟩ := hall b hb
    exact ⟨hrange, b, rfl, hred⟩

/-- The cells that ED and EL erase. -/
def erased (d : Display) (justRow : Bool) (n : Nat) (y x : Int) : Prop :=
  if justRow then y = d.mCursorRow ∧ (n = 0 → d.mCursorCol ≤ x) ∧ (n = 1 → x ≤ d.mCursorCol)
  else (n = 0 → d.mCursorRow < y ∨ (y = d.mCursorRow ∧ d.mCursorCol ≤ x)) ∧
    (n = 1 → y < d.mCursorRow ∨ (y = d.mCursorRow ∧ x ≤ d.mCursorCol))

/-- The cells that DECSED and DECSEL erase. -/
def selectivelyErased (d : Display) (justRow : Bool) (n : Nat) (y x : Int) : Prop :=
  (if justRow then y = d.mCursorRow
    else (n = 0 → d.mCursorRow ≤ y) ∧ (n = 1 → y ≤ d.mCursorRow)) ∧
    (n = 0 → d.mCursorCol ≤ x) ∧ (n = 1 → x ≤ d.mCursorCol)

/-- The cursor is on the screen. -/
def CursorShown (d : Display) : Prop :=
  (0 ≤ d.mCursorRow ∧ d.mCursorRow < d.mRows) ∧ 0 ≤ d.mCursorCol ∧ d.mCursorCol < d.mColumns

/-- What ED and EL ask of the cursor. -/
def EraseFits (d : Display) (justRow : Bool) (n : Nat) : Prop :=
  (justRow = true ∨ n ≠ 2 → 0 ≤ d.mCursorRow ∧ d.mCursorRow < d.mRows) ∧
    (n = 0 → 0 ≤ d.mCursorCol) ∧ (n = 1 → d.mCursorCol < d.mColumns)

/-- Two blocks, one after the other. -/
theorem blockClear_blockClear_wiped {sx' sy' w' h' : Int} (hm : d.Matched) (hplain : d.Plain) :
    ((0 ≤ sx ∧ sx + w ≤ d.mColumns ∧ 0 ≤ sy ∧ sy + h ≤ d.mRows) ∧
        (0 ≤ sx' ∧ sx' + w' ≤ d.mColumns ∧ 0 ≤ sy' ∧ sy' + h' ≤ d.mRows) →
        ∃ d', (d.blockClear sx sy w h >>= fun d => d.blockClear sx' sy' w' h') = .ok d') ∧
      ∀ d', (d.blockClear sx sy w h >>= fun d => d.blockClear sx' sy' w' h') = .ok d' →
        ((0 ≤ sx ∧ sx + w ≤ d.mColumns ∧ 0 ≤ sy ∧ sy + h ≤ d.mRows) ∧
          (0 ≤ sx' ∧ sx' + w' ≤ d.mColumns ∧ 0 ≤ sy' ∧ sy' + h' ≤ d.mRows)) ∧
        ∃ b, d' = d.setScreen b ∧
          Redrawn (Wiped (fun y x => (Rectangle.mk sy sx (sy + h) (sx + w)).Mem y x ||
            (Rectangle.mk sy' sx' (sy' + h') (sx' + w')).Mem y x) d.getStyle) d.mScreen b := by
  obtain ⟨hreturns, hall⟩ := @blockClear_wiped _ sx sy w h hm hplain
  have hsecond (b : TerminalBuffer) (hred : Redrawn (Wiped (fun y x =>
      (Rectangle.mk sy sx (sy + h) (sx + w)).Mem y x) d.getStyle) d.mScreen b) :=
    @blockClear_wiped _ sx' sy' w' h' (hm.wiped hred) (hplain.wiped hm hred)
  constructor
  · rintro ⟨hrange, hrange'⟩
    obtain ⟨d₁, hd₁⟩ := hreturns hrange
    obtain ⟨-, b, rfl, hred⟩ := hall d₁ hd₁
    obtain ⟨d₂, hd₂⟩ := (hsecond b hred).1 hrange'
    exact ⟨d₂, by rw [hd₁, ok_bind, hd₂]⟩
  · intro d' hd'
    obtain ⟨d₁, hd₁, hd₂⟩ := bind_eq_ok.mp hd'
    obtain ⟨hrange, b, rfl, hred⟩ := hall d₁ hd₁
    obtain ⟨hrange', b', rfl, hred'⟩ := (hsecond b hred).2 d' hd₂
    rw [setScreen_mScreen] at hred'
    exact ⟨⟨hrange, hrange'⟩, b', setScreen_setScreen d b b', Wiped.trans hred hred'⟩

/-- ED, or EL if `justRow`. -/
def eraseIn (d : Display) (justRow : Bool) (n : Nat) : Java Display :=
  if justRow then d.eraseInLine n else d.eraseInDisplay n

theorem WipedTo.of_screen {region : Int → Int → Prop} {p : Int → Int → Bool} {b : TerminalBuffer}
    (hred : Redrawn (Wiped p d.getStyle) d.mScreen b) (hscreen : d'.mScreen = b)
    (hp : ∀ y x, 0 ≤ y → y < d.mRows → 0 ≤ x → x < d.mColumns → (p y x = true ↔ region y x)) :
    d.WipedTo d' region := ⟨p, hscreen ▸ hred, hp⟩

theorem clearWrap_mScreen (d : Display) : d.clearWrap.mScreen = d.mScreen := rfl

theorem eraseInLine_wiped (hm : d.Matched) (hplain : d.Plain) {n : Nat} (hn : n ≤ 2) :
    (d.CursorShown → ∃ d', d.eraseInLine n = .ok d') ∧
      ∀ d', d.eraseInLine n = .ok d' → d.EraseFits true n ∧ d.WipedTo d' (d.erased true n) := by
  -- One block in each case.
  have hblock (sx w : Int) (hrun : d.eraseInLine n = (d.blockClear sx d.mCursorRow w 1 >>= fun d =>
      .ok d.clearWrap)) (hfits : d.CursorShown → 0 ≤ sx ∧ sx + w ≤ d.mColumns)
      (hfits' : 0 ≤ sx ∧ sx + w ≤ d.mColumns → (n = 0 → 0 ≤ d.mCursorCol) ∧
        (n = 1 → d.mCursorCol < d.mColumns))
      (hmem : ∀ x, 0 ≤ x → x < d.mColumns → (sx ≤ x ∧ x < sx + w ↔
        (n = 0 → d.mCursorCol ≤ x) ∧ (n = 1 → x ≤ d.mCursorCol))) :
      (d.CursorShown → ∃ d', d.eraseInLine n = .ok d') ∧
        ∀ d', d.eraseInLine n = .ok d' → d.EraseFits true n ∧ d.WipedTo d' (d.erased true n) := by
    obtain ⟨hreturns, hall⟩ := @blockClear_wiped _ sx d.mCursorRow w 1 hm hplain
    rw [hrun]
    constructor
    · intro hc
      have hx := hfits hc
      have hrow := hc.1
      obtain ⟨d₁, hd₁⟩ := hreturns ⟨hx.1, hx.2, hrow.1, by omega⟩
      exact ⟨_, by rw [hd₁, ok_bind]⟩
    · intro d' hd'
      obtain ⟨d₁, hd₁, hd⟩ := bind_eq_ok.mp hd'
      cases hd
      obtain ⟨⟨h₁, h₂, h₃, h₄⟩, b, rfl, hred⟩ := hall d₁ hd₁
      refine ⟨⟨fun _ => ⟨h₃, by omega⟩, hfits' ⟨h₁, h₂⟩⟩, .of_screen hred
        (by rw [clearWrap_mScreen, setScreen_mScreen]) fun y x _ _ hx hx' => ?_⟩
      rw [decide_eq_true_iff, erased, if_pos rfl, ← hmem x hx hx']
      simp only [Rectangle.Mem]
      omega
  obtain rfl | rfl | rfl : n = 0 ∨ n = 1 ∨ n = 2 := by omega
  · exact hblock d.mCursorCol (d.mColumns - d.mCursorCol) rfl (fun hc => ⟨hc.2.1, by omega⟩)
      (fun h => ⟨fun _ => h.1, by simp⟩) fun x _ _ => by simp; omega
  · exact hblock 0 (d.mCursorCol + 1) rfl (fun hc => ⟨le_rfl, by have := hc.2.2; omega⟩)
      (fun h => ⟨by simp, fun _ => by omega⟩) fun x _ _ => by simp; omega
  · exact hblock 0 d.mColumns rfl (fun _ => ⟨le_rfl, by omega⟩) (fun _ => by simp)
      fun x _ _ => by simp; omega

theorem eraseInDisplay_wiped (hm : d.Matched) (hplain : d.Plain) {n : Nat} (hn : n ≤ 2) :
    (d.CursorShown → ∃ d', d.eraseInDisplay n = .ok d') ∧
      ∀ d', d.eraseInDisplay n = .ok d' → d.EraseFits false n ∧ d.WipedTo d' (d.erased false n) := by
  -- Two blocks, of which one may be empty.
  have hblocks (sx sy w h sx' sy' w' h' : Int)
      (hrun : d.eraseInDisplay n = ((d.blockClear sx sy w h >>= fun d =>
        d.blockClear sx' sy' w' h') >>= fun d => .ok d.clearWrap)) 
      (hfits : d.CursorShown → (0 ≤ sx ∧ sx + w ≤ d.mColumns ∧ 0 ≤ sy ∧ sy + h ≤ d.mRows) ∧
        (0 ≤ sx' ∧ sx' + w' ≤ d.mColumns ∧ 0 ≤ sy' ∧ sy' + h' ≤ d.mRows))
      (hfits' : (0 ≤ sx ∧ sx + w ≤ d.mColumns ∧ 0 ≤ sy ∧ sy + h ≤ d.mRows) ∧
        (0 ≤ sx' ∧ sx' + w' ≤ d.mColumns ∧ 0 ≤ sy' ∧ sy' + h' ≤ d.mRows) → d.EraseFits false n)
      (hmem : ∀ y x, 0 ≤ y → y < d.mRows → 0 ≤ x → x < d.mColumns →
        ((sy ≤ y ∧ y < sy + h ∧ sx ≤ x ∧ x < sx + w) ∨
          (sy' ≤ y ∧ y < sy' + h' ∧ sx' ≤ x ∧ x < sx' + w') ↔ d.erased false n y x)) :
      (d.CursorShown → ∃ d', d.eraseInDisplay n = .ok d') ∧
        ∀ d', d.eraseInDisplay n = .ok d' →
          d.EraseFits false n ∧ d.WipedTo d' (d.erased false n) := by
    obtain ⟨hreturns, hall⟩ := @blockClear_blockClear_wiped _ sx sy w h sx' sy' w' h' hm hplain
    rw [hrun]
    constructor
    · intro hc
      obtain ⟨d₁, hd₁⟩ := hreturns (hfits hc)
      exact ⟨_, by rw [hd₁, ok_bind]⟩
    · intro d' hd'
      obtain ⟨d₁, hd₁, hd⟩ := bind_eq_ok.mp hd'
      cases hd
      obtain ⟨hrange, b, rfl, hred⟩ := hall d₁ hd₁
      refine ⟨hfits' hrange, .of_screen hred (by rw [clearWrap_mScreen, setScreen_mScreen])
        fun y x hy hy' hx hx' => ?_⟩
      rw [← hmem y x hy hy' hx hx', Bool.or_eq_true, decide_eq_true_iff, decide_eq_true_iff]
      rfl
  obtain rfl | rfl | rfl : n = 0 ∨ n = 1 ∨ n = 2 := by omega
  · refine hblocks d.mCursorCol d.mCursorRow (d.mColumns - d.mCursorCol) 1 0 (d.mCursorRow + 1)
      d.mColumns (d.mRows - (d.mCursorRow + 1)) ?_ ?_ ?_ ?_
    · unfold eraseInDisplay blockClear onScreen
      beta_reduce
      cases d.mScreen.blockSet d.mCursorCol d.mCursorRow (d.mColumns - d.mCursorCol) 1 0x20
        d.getStyle <;> rfl
    · rintro ⟨hrow, hcol⟩
      omega
    · intro h
      refine ⟨fun _ => ?_, fun _ => h.1.1, by simp⟩
      omega
    · intro y x _ _ _ _
      simp [erased]
      omega
  · refine hblocks 0 0 d.mColumns d.mCursorRow 0 d.mCursorRow (d.mCursorCol + 1) 1 ?_ ?_ ?_ ?_
    · unfold eraseInDisplay blockClear onScreen
      beta_reduce
      cases d.mScreen.blockSet 0 0 d.mColumns d.mCursorRow 0x20 d.getStyle <;> rfl
    · rintro ⟨hrow, hcol⟩
      omega
    · intro h
      refine ⟨fun _ => ?_, by simp, fun _ => ?_⟩
      · omega
      · omega
    · intro y x _ _ _ _
      simp [erased]
      omega
  · have hrows := hm.valid.screen
    rw [hm.rows] at hrows
    obtain ⟨hreturns, hall⟩ := @blockClear_wiped _ 0 0 d.mColumns d.mRows hm hplain
    have hrun : d.eraseInDisplay 2 = (d.blockClear 0 0 d.mColumns d.mRows >>= fun d =>
        .ok d.clearWrap) := rfl
    rw [show ((2 : Nat) : Int) = 2 from rfl, hrun]
    constructor
    · intro _
      obtain ⟨d₁, hd₁⟩ := hreturns (by omega)
      exact ⟨_, by rw [hd₁, ok_bind]⟩
    · intro d' hd'
      obtain ⟨d₁, hd₁, hd⟩ := bind_eq_ok.mp hd'
      cases hd
      obtain ⟨-, b, rfl, hred⟩ := hall d₁ hd₁
      refine ⟨⟨by simp, by simp, by simp⟩, .of_screen hred
        (by rw [clearWrap_mScreen, setScreen_mScreen]) fun y x _ _ _ _ => ?_⟩
      simp [erased, Rectangle.Mem]
      omega

/-- ED and EL. -/
theorem eraseIn_wiped (hm : d.Matched) (hplain : d.Plain) (justRow : Bool) {n : Nat} (hn : n ≤ 2) :
    (d.CursorShown → ∃ d', d.eraseIn justRow n = .ok d') ∧
      ∀ d', d.eraseIn justRow n = .ok d' →
        d.EraseFits justRow n ∧ d.WipedTo d' (d.erased justRow n) := by
  cases justRow with
  | false => exact eraseInDisplay_wiped hm hplain hn
  | true => exact eraseInLine_wiped hm hplain hn

/-- DECSED and DECSEL. -/
theorem selectiveErase_wiped (hm : d.Matched) (hplain : d.Plain)
    (hfree : ∀ y, 0 ≤ y → y < d.mRows → d.mScreen.Unprotected y) {justRow : Bool} {n : Nat}
    (hn : n ≤ 2) (hfits : d.EraseFits justRow n) :
    ∃ d', d.selectiveErase justRow n = .ok d' ∧ d.WipedTo d' (d.selectivelyErased justRow n) := by
  obtain ⟨hrow, hcol₀, hcol₁⟩ := hfits
  -- Each argument is a rectangle of its own, and on a screen without protection all of it is filled.
  have hfill (a : Rectangle) (hrun : d.selectiveErase justRow n =
      d.clearWrap.fillCells 0x20 true false a.top a.bottom a.left a.right)
      (ha : 0 ≤ a.top ∧ a.bottom ≤ d.mRows ∧ 0 ≤ a.left ∧ a.right ≤ d.mColumns)
      (hmem : ∀ y x, 0 ≤ y → y < d.mRows → 0 ≤ x → x < d.mColumns →
        (a.Mem y x ↔ d.selectivelyErased justRow n y x)) :
      ∃ d', d.selectiveErase justRow n = .ok d' ∧
        d.WipedTo d' (d.selectivelyErased justRow n) := by
    obtain ⟨b, hb, hred⟩ := fill_wiped hm.valid a true d.getStyle ha.1
      (ha.2.1.trans_eq hm.rows.symm) ha.2.2.1 (ha.2.2.2.trans_eq hm.columns.symm)
      (by rw [hm.rows]; exact hplain) (by rw [hm.rows]; exact fun _ => hfree)
    have hok : d.selectiveErase justRow n = .ok (d.clearWrap.setScreen b) := by
      rw [hrun, fillCells, onScreen]
      change (forUp a.top a.bottom (fun y b => forUp a.left a.right
        (fillCell 0x20 d.getStyle true false y) b) d.mScreen >>= fun b =>
          .ok (d.clearWrap.setScreen b)) = _
      rw [hb, ok_bind]
    refine ⟨_, hok, .of_screen hred (setScreen_mScreen _ _) fun y x hy hy' hx hx' => ?_⟩
    rw [decide_eq_true_iff]
    exact hmem y x hy hy' hx hx'
  obtain rfl | rfl | rfl : n = 0 ∨ n = 1 ∨ n = 2 := by omega
  · refine hfill ⟨d.mCursorRow, d.mCursorCol, if justRow then d.mCursorRow + 1 else d.mRows,
      d.mColumns⟩ rfl ?_ ?_
    · have hr := hrow (.inr (by decide))
      have hc := hcol₀ rfl
      simp only
      split_ifs <;> omega
    · intro y x _ _ _ _
      cases justRow <;> simp [selectivelyErased, Rectangle.Mem] <;> omega
  · refine hfill ⟨if justRow then d.mCursorRow else 0, 0, d.mCursorRow + 1, d.mCursorCol + 1⟩ rfl ?_ ?_
    · have hr := hrow (.inr (by decide))
      have hc := hcol₁ rfl
      simp only
      split_ifs <;> omega
    · intro y x _ _ _ _
      cases justRow <;> simp [selectivelyErased, Rectangle.Mem] <;> omega
  · refine hfill ⟨if justRow then d.mCursorRow else 0, 0, if justRow then d.mCursorRow + 1 else d.mRows,
      d.mColumns⟩ rfl ?_ ?_
    · cases justRow with
      | false => exact ⟨le_rfl, le_rfl, le_rfl, le_rfl⟩
      | true =>
        have hr := hrow (.inl rfl)
        simp only [if_true]
        omega
    · intro y x _ _ _ _
      cases justRow <;> simp [selectivelyErased, Rectangle.Mem] <;> omega

/-- DECSED passes by the cells below the cursor that are left of it, and the cells above the cursor
that are right of it. -/
def passedBy (d : Display) (justRow : Bool) (n : Nat) (y x : Int) : Prop :=
  justRow = false ∧ ((n = 0 ∧ d.mCursorRow < y ∧ x < d.mCursorCol) ∨
    (n = 1 ∧ y < d.mCursorRow ∧ d.mCursorCol < x))

theorem erased_ne_iff {justRow : Bool} {n : Nat} {y x : Int} :
    ¬(d.erased justRow n y x ↔ d.selectivelyErased justRow n y x) ↔ d.passedBy justRow n y x := by
  unfold erased selectivelyErased passedBy
  cases justRow with
  | true => simp
  | false =>
    obtain rfl | rfl | hn : n = 0 ∨ n = 1 ∨ (n ≠ 0 ∧ n ≠ 1) := by omega
    · simp
      omega
    · simp
      omega
    · simp [hn.1, hn.2]

end Display

namespace Terminal

open TerminalBuffer (SameLook sameLook_iff)

/-- `CSI n` has been read, or `CSI ? n` if `selective`. -/
structure Erasing (selective : Bool) (n : Nat) (t : Terminal) : Prop where
  state : t.mEscapeState = if selective then .csiQuestionmark else .csi
  arg : t.getArg0 0 = .ok n

/-- The last character of ED, EL, DECSED and DECSEL. -/
def eraser (justRow : Bool) : Nat := if justRow then 'K'.toNat else 'J'.toNat

section

variable [Platform] {t : Terminal} {n : Nat} {selective : Bool}

omit [Platform] in
theorem erasing_issues (h : t.Erasing selective n) (hn : selective = true ∨ n ≤ 2) (justRow : Bool) :
    ∃ p, t.toParser.processCodePoint (eraser justRow) = .ok (p,
      [.edit (if selective then .selectiveErase justRow n
        else if justRow then .eraseInLine n else .eraseInDisplay n)]) := by
  let p₀ : Parser := { t.toParser with mContinueSequence := false }
  have hstate : p₀.mEscapeState = if selective then .csiQuestionmark else .csi := h.state
  have harg : p₀.getArg0 0 = .ok n := h.arg
  have hdispatch : ∃ p, p₀.dispatch (eraser justRow) = .ok (p,
      [.edit (if selective then .selectiveErase justRow n
        else if justRow then .eraseInLine n else .eraseInDisplay n)]) := by
    unfold Parser.dispatch
    rw [hstate]
    cases selective with
    | false =>
      cases justRow with
      | false =>
        have hcsi : p₀.doCsi 'J'.toNat = (p₀.getArg0 0 >>= fun arg =>
            .ok (if arg ≤ 2 then (p₀, [.edit (.eraseInDisplay arg)])
              else if arg = 3 then (p₀, [.eraseTranscript]) else (p₀.unknownSequence, []))) := rfl
        refine ⟨p₀, ?_⟩
        change p₀.doCsi 'J'.toNat = _
        rw [hcsi, harg, ok_bind, if_pos (hn.resolve_left (by decide))]
        rfl
      | true =>
        have hcsi : p₀.doCsi 'K'.toNat = (p₀.getArg0 0 >>= fun arg =>
            .ok (if arg ≤ 2 then (p₀, [.edit (.eraseInLine arg)])
              else (p₀.unknownSequence, []))) := rfl
        refine ⟨p₀, ?_⟩
        change p₀.doCsi 'K'.toNat = _
        rw [hcsi, harg, ok_bind, if_pos (hn.resolve_left (by decide))]
        rfl
    | true =>
      -- Behind `CSI ?` an unknown argument is logged and handed on all the same.
      have hcsi : p₀.doCsiQuestionMark (eraser justRow) = (p₀.getArg0 0 >>= fun arg =>
          .ok (if arg ≤ 2 then p₀ else p₀.unknownSequence, [.edit (.selectiveErase justRow arg)])) := by
        cases justRow <;> rfl
      refine ⟨if n ≤ 2 then p₀ else p₀.unknownSequence, ?_⟩
      change p₀.doCsiQuestionMark (eraser justRow) = _
      rw [hcsi, harg, ok_bind]
      rfl
  obtain ⟨p, hp⟩ := hdispatch
  refine ⟨if p.mContinueSequence then p else p.finishSequence, ?_⟩
  have hcontrol : t.toParser.processCodePoint (eraser justRow) =
      (p₀.dispatch (eraser justRow) >>= fun r =>
        .ok (if r.1.mContinueSequence then r.1 else r.1.finishSequence, r.2)) := by
    cases justRow <;> rfl
  rw [hcontrol, hp]
  rfl

omit [Platform] in
/-- A sequence that issues one edit of the screen. -/
theorem processCodePoint_edit [ShortStore] [Platform] {b : Nat} {p : Parser} {e : Edit}
    (h : t.toParser.processCodePoint b = .ok (p, [.edit e])) :
    t.processCodePoint b = (e.run t.toDisplay >>= fun d =>
      .ok ({ toDisplay := d, toParser := p } : Terminal)) := by
  unfold Terminal.processCodePoint
  rw [h, ok_bind]
  simp only [Display.perform, List.foldlM_cons, List.foldlM_nil, bind_pure]
  rfl

theorem processCodePoint_erases (h : t.Erasing selective n) (hn : n ≤ 2) (justRow : Bool) :
    ∃ p, t.processCodePoint (eraser justRow) =
      ((if selective then t.selectiveErase justRow n else t.eraseIn justRow n) >>= fun d =>
        .ok { toDisplay := d, toParser := p }) := by
  obtain ⟨p, hp⟩ := erasing_issues h (.inr hn) justRow
  refine ⟨p, ?_⟩
  rw [processCodePoint_edit hp]
  cases selective with
  | true => rfl
  | false => cases justRow <;> rfl

/-- What `t` is before ED or EL and what `u` is before DECSED or DECSEL, with one display and one
argument. -/
structure Alike (n : Nat) (t u : Terminal) : Prop where
  display : u.toDisplay = t.toDisplay
  plain : t.Erasing false n
  selective : u.Erasing true n
  arg : n ≤ 2

/-- Where nothing is protected, DECSEL leaves the screen that EL leaves, and DECSED that of ED just
if the cells that it passes by are spaces in the current style already. -/
theorem selectiveErase_same_iff {t u : Terminal} {n : Nat} (halike : Alike n t u)
    (hm : t.toDisplay.Matched) (hplain : t.toDisplay.Plain)
    (hfree : ∀ y, 0 ≤ y → y < t.mRows → t.mScreen.Unprotected y) (justRow : Bool) :
    (t.CursorShown → ∃ t' u', t.processCodePoint (eraser justRow) = .ok t' ∧
        u.processCodePoint (eraser justRow) = .ok u') ∧
      ∀ t' u', t.processCodePoint (eraser justRow) = .ok t' →
        u.processCodePoint (eraser justRow) = .ok u' →
        ((∀ y, 0 ≤ y → y < t.mRows → SameLook (t'.mScreen.rowAt y) (u'.mScreen.rowAt y)) ↔
          ∀ y x, 0 ≤ y → y < t.mRows → 0 ≤ x → x < t.mColumns → t.passedBy justRow n y x →
            t.mScreen.ShowsAt y x [0x20] t.getStyle) := by
  obtain ⟨hdisplay, ht, hu, hn⟩ := halike
  obtain ⟨p, hp⟩ := processCodePoint_erases ht hn justRow
  obtain ⟨p', hp'⟩ := processCodePoint_erases hu hn justRow
  simp only [Bool.false_eq_true, if_false, if_true, hdisplay] at hp hp'
  obtain ⟨hreturns, hall⟩ := Display.eraseIn_wiped hm hplain justRow hn
  rw [hp, hp']
  constructor
  · intro hc
    obtain ⟨d₁, hd₁⟩ := hreturns hc
    obtain ⟨hfits, -⟩ := hall d₁ hd₁
    obtain ⟨d₂, hd₂, -⟩ := Display.selectiveErase_wiped hm hplain hfree hn hfits
    exact ⟨_, _, by rw [hd₁, ok_bind], by rw [hd₂, ok_bind]⟩
  · intro t' u' ht' hu'
    obtain ⟨d₁, hd₁, h₁⟩ := bind_eq_ok.mp ht'
    cases h₁
    obtain ⟨hfits, q, hq, hregion⟩ := hall d₁ hd₁
    obtain ⟨d₂, hd₂, q', hq', hregion'⟩ := Display.selectiveErase_wiped hm hplain hfree hn hfits
    rw [hd₂, ok_bind] at hu'
    cases hu'
    -- Both erasures wipe a region; they look alike where the regions differ by spaces only.
    have hlook (y : Int) (hy : 0 ≤ y) (hy' : y < t.mRows) :=
      sameLook_iff hm.valid hq hq' hy (hy'.trans_eq hm.rows.symm) (hplain y hy hy')
    have hdiffer (y x : Int) (hy : 0 ≤ y) (hy' : y < t.mRows) (hx : 0 ≤ x) (hx' : x < t.mColumns) :
        q y x ≠ q' y x ↔ t.passedBy justRow n y x := by
      rw [← Display.erased_ne_iff, ne_eq, Bool.eq_iff_iff, hregion y x hy hy' hx hx',
        hregion' y x hy hy' hx hx']
    constructor
    · intro hsame y x hy hy' hx hx' hpass
      exact (hlook y hy hy').mp (hsame y hy hy') x hx (hx'.trans_eq hm.columns.symm)
        ((hdiffer y x hy hy' hx hx').mpr hpass)
    · intro hspaces y hy hy'
      refine (hlook y hy hy').mpr fun x hx hx' hne => ?_
      have hxc : x < t.mColumns := hx'.trans_eq hm.columns
      exact hspaces y x hy hy' hx hxc ((hdiffer y x hy hy' hx hxc).mp hne)

end

/-- Two letters in the first row, and one in the second column of the other. -/
def threeLetters : Java TerminalBuffer :=
  @TerminalBuffer.script javaShort 2 2 2 [.setChar 0 0 0x61 TextStyle.normal,
    .setChar 1 0 0x62 TextStyle.normal, .setChar 1 1 0x63 TextStyle.normal]

/-- A terminal of two columns and rows that has read `CSI`, or `CSI ?` if `selective`. -/
def introduced (selective : Bool) (b : TerminalBuffer) : Terminal where
  toDisplay := @TerminalEmulator.initialDisplay plainPlatform 2 2 b b [false, false]
  toParser :=
    { TerminalEmulator.initialParser with
      mEscapeState := if selective then .csiQuestionmark else .csi }

/-- The same with the cursor on the second letter, and in the default colours. -/
def onSecondLetter (selective : Bool) (b : TerminalBuffer) : Terminal :=
  { introduced selective b with
    mCursorCol := 1
    mForeColor := TextStyle.colorIndexForeground
    mBackColor := TextStyle.colorIndexBackground }

/-- ED 0 and DECSED 0 erase the letters from the second one on; the cell that is passed by is a space. -/
theorem selectiveErase_same_iff_letters : ∃ (b : TerminalBuffer) (t' u' : Terminal), threeLetters = .ok b ∧
    @Terminal.processCodePoint javaShort plainPlatform (onSecondLetter false b) (eraser false) = .ok t' ∧
    @Terminal.processCodePoint javaShort plainPlatform (onSecondLetter true b) (eraser false) = .ok u' ∧
    (∀ y, 0 ≤ y → y < 2 → SameLook (t'.mScreen.rowAt y) (u'.mScreen.rowAt y)) ∧
    (t'.mScreen.rowAt 0).map (fun r => r.mText.take r.mSpaceUsed.toNat) = .ok [0x61, 0x20] ∧
    (t'.mScreen.rowAt 1).map (fun r => r.mText.take r.mSpaceUsed.toNat) = .ok [0x20, 0x20] := by
  have hfacts : threeLetters.map (fun b => (b.mColumns, b.mScreenRows,
      (b.rowAt 0).map TerminalBuffer.plainRow, (b.rowAt 1).map TerminalBuffer.plainRow)) =
      .ok (2, 2, .ok true, .ok true) := by
    decide +kernel
  have hspace : (threeLetters >>= fun b => b.rowAt 1).map (fun r => (r.mText[0]?, r.mStyle[0]?)) =
      .ok (some 0x20, some TextStyle.normal) := by
    decide +kernel
  have herased : (threeLetters >>= fun b =>
      @Terminal.processCodePoint javaShort plainPlatform (onSecondLetter false b) (eraser false)).map
        (fun t' => ((t'.mScreen.rowAt 0).map (fun r => r.mText.take r.mSpaceUsed.toNat),
          (t'.mScreen.rowAt 1).map (fun r => r.mText.take r.mSpaceUsed.toNat))) =
      .ok (.ok [0x61, 0x20], .ok [0x20, 0x20]) := by
    decide +kernel
  obtain ⟨b, hb, hvalues⟩ := exists_of_map_eq_ok hfacts
  simp only [Prod.mk.injEq] at hvalues
  obtain ⟨hcolumns, hscreen, hfirst, hsecond⟩ := hvalues
  rw [hb, ok_bind] at hspace herased
  have hv : TerminalBuffer.Valid b :=
    TerminalBuffer.script_valid (by decide) (by decide) (by decide)
      (by simp [TerminalBuffer.Operation.Legal, TerminalBuffer.Operation.Fits, isScalar, isSurrogate])
      (by decide +kernel) hb
  have hplain (y : Int) (h₀ : 0 ≤ y) (h₁ : y < 2) : b.PlainAt y ∧ b.Unprotected y := by
    obtain rfl | rfl : y = 0 ∨ y = 1 := by omega
    · exact TerminalBuffer.plainAt_of_plainRow hv (by omega) (by omega) hfirst
    · exact TerminalBuffer.plainAt_of_plainRow hv (by omega) (by omega) hsecond
  obtain ⟨hreturns, hiff⟩ := @selectiveErase_same_iff plainPlatform (onSecondLetter false b)
    (onSecondLetter true b) 0 ⟨rfl, ⟨rfl, rfl⟩, ⟨rfl, rfl⟩, by decide⟩ ⟨hv, hscreen, hcolumns⟩
    (fun y h₀ h₁ => (hplain y h₀ h₁).1) (fun y h₀ h₁ => (hplain y h₀ h₁).2) false
  obtain ⟨t', u', ht', hu'⟩ := hreturns
    ⟨⟨le_rfl, (by decide : (0 : Int) < 2)⟩, (by decide : (0 : Int) ≤ 1), (by decide : (1 : Int) < 2)⟩
  rw [ht'] at herased
  simp only [Except.map, Except.ok.injEq, Prod.mk.injEq] at herased
  refine ⟨b, t', u', hb, ht', hu', (hiff t' u' ht' hu').mpr fun y x hy hy' hx hx' hpass => ?_,
    herased.1, herased.2⟩
  -- Only the first cell of the second row is passed by.
  obtain ⟨-, ⟨-, hbelow, hleft⟩ | ⟨hone, -⟩⟩ := hpass
  · have hy₁ : y = 1 := by
      change 0 < y at hbelow
      change y < 2 at hy'
      omega
    have hx₀ : x = 0 := by
      change x < 1 at hleft
      omega
    subst hy₁ hx₀
    have hstyle : (onSecondLetter false b).getStyle = TextStyle.normal := rfl
    rw [hstyle]
    exact TerminalBuffer.showsAt_of_plainRow hv (by omega) (by omega) hsecond hspace
  · cases hone

/-- A screen of four rows and columns with two letters in each of two rows, and the cursor on the
second letter of the first row. -/
def twoLines : Java TerminalEmulator := do
  let e ← @TerminalEmulator.new javaShort plainPlatform 4 4 (some 100)
  @TerminalEmulator.append javaShort plainPlatform e [0x61, 0x62, 0x0d, 0x0a, 0x63, 0x64, 0x1b, 0x5b,
    0x31, 0x3b, 0x32, 0x48]

/-- ED 0 erases the first letter of the second row, and DECSED 0 does not. -/
theorem letter_left_below : ∃ e e₁ e₂ : TerminalEmulator, twoLines = .ok e ∧
    (∀ y, 0 ≤ y → y < e.mRows → (e.mScreen.rowAt y).map TerminalBuffer.plainRow = .ok true) ∧
    @TerminalEmulator.append javaShort plainPlatform e [0x1b, 0x5b, 0x30, 0x4a] = .ok e₁ ∧
    @TerminalEmulator.append javaShort plainPlatform e [0x1b, 0x5b, 0x3f, 0x30, 0x4a] = .ok e₂ ∧
    ¬∀ y, 0 ≤ y → y < e.mRows → SameLook (e₁.mScreen.rowAt y) (e₂.mScreen.rowAt y) := by
  have hrows : twoLines.map (fun e => (e.mRows, (List.range 4).map fun y : Nat =>
      (e.mScreen.rowAt y).map TerminalBuffer.plainRow)) =
      .ok (4, [.ok true, .ok true, .ok true, .ok true]) := by
    decide +kernel
  have htext : (twoLines >>= fun e =>
      @TerminalEmulator.append javaShort plainPlatform e [0x1b, 0x5b, 0x30, 0x4a] >>= fun e₁ =>
      @TerminalEmulator.append javaShort plainPlatform e [0x1b, 0x5b, 0x3f, 0x30, 0x4a] >>= fun e₂ =>
      .ok ((e₁.mScreen.rowAt 1).map (fun r => r.mText.take r.mSpaceUsed.toNat),
        (e₂.mScreen.rowAt 1).map (fun r => r.mText.take r.mSpaceUsed.toNat))) =
      .ok (.ok [0x20, 0x20, 0x20, 0x20], .ok [0x63, 0x20, 0x20, 0x20]) := by
    decide +kernel
  obtain ⟨e, he, hvalues⟩ := exists_of_map_eq_ok hrows
  obtain ⟨hsize, hlist⟩ := Prod.mk.inj hvalues
  rw [he, ok_bind] at htext
  obtain ⟨e₁, h₁, htext⟩ := bind_eq_ok.mp htext
  obtain ⟨e₂, h₂, htext⟩ := bind_eq_ok.mp htext
  simp only [Except.ok.injEq, Prod.mk.injEq] at htext
  obtain ⟨htext₁, htext₂⟩ := htext
  refine ⟨e, e₁, e₂, he, fun y h₀ hy => ?_, h₁, h₂, fun hsame => ?_⟩
  · lift y to Nat using h₀
    have hlt : y < 4 := by omega
    have hget := congrArg (fun l => l[y]?) hlist
    simp only [List.getElem?_map, List.getElem?_range hlt, Option.map_some] at hget
    obtain rfl | rfl | rfl | rfl : y = 0 ∨ y = 1 ∨ y = 2 ∨ y = 3 := by omega
    all_goals exact Option.some_inj.mp hget
  · -- Column 0 of the second row is left of the cursor, and only ED erases it.
    obtain ⟨r, s, hr, hs, htexts, -⟩ := hsame 1 (by decide) (by omega)
    rw [hr] at htext₁
    rw [hs] at htext₂
    simp only [Except.map, Except.ok.injEq] at htext₁ htext₂
    rw [htext₁, htext₂] at htexts
    cases htexts

end Terminal

end XoDos
