import XoDos.BufferInvariant
import XoDos.BufferRows
import XoDos.ElementCopy
import XoDos.RowRefinement

/-!
# Copying blocks of the screen

The text of a row is copied before it is written over, but the styles are read
while they are being written.  Rows are copied in an order in which none is read
after it was written, so the styles are wrong only for a copy to the right
within the same rows.
-/

namespace XoDos

open WcWidth (width)

namespace TerminalRow

open ElementCopy (copyEach copyOne copyOne_eq getElem?_copyEach_outside)

/-! ## Rows of narrow cells -/

/-- All cells are narrow. -/
def Narrow (cells : List Cell) : Prop := ∀ c ∈ cells, c.columns = 1

theorem Narrow.totalColumns {cells : List Cell} (h : Narrow cells) :
    totalColumns cells = cells.length := by
  induction cells with
  | nil => rfl
  | cons c cells ih =>
    rw [totalColumns_cons, h c (by simp), ih fun d hd => h d (by simp [hd]), List.length_cons]
    push_cast
    omega

theorem Narrow.take {cells : List Cell} (h : Narrow cells) (n : Nat) : Narrow (cells.take n) :=
  fun c hc => h c (List.mem_of_mem_take hc)

theorem Narrow.drop {cells : List Cell} (h : Narrow cells) (n : Nat) : Narrow (cells.drop n) :=
  fun c hc => h c (List.mem_of_mem_drop hc)

variable {E : Prop} {r line s : TerminalRow} {pre post : List Cell} {d : Cell} {codePoint : Nat}
  {styles : List Style} {style : Style} {same : Bool}

theorem Rewritten.trans {r' r'' : TerminalRow} {cells cells' : List Cell} {styles' : List Style}
    (h : Rewritten r cells styles r') (h' : Rewritten r' cells' styles' r'') :
    Rewritten r cells' styles' r'' :=
  ⟨h'.columns.trans h.columns, h'.lineWrap.trans h.lineWrap, h'.style, h'.cells⟩

/-- A narrow character takes the place of a narrow cell. -/
theorem Rewritten.setChar_narrow (h : Rewritten r (pre ++ d :: post) styles s) (hd : d.columns = 1)
    (hs : isScalar codePoint = true) (hw : width codePoint = 1) :
    Runs True E (Rewritten r (pre ++ newCell codePoint [] hs (Int.one_pos.trans_eq hw.symm) (by simp) ::
        post)
        (styles.set (totalColumns pre).toNat style)) fun _ =>
      s.setChar (totalColumns pre) codePoint style := by
  have hruns := @TerminalRow.setChar_narrow True E _ _ _ _ _ h.cells hd hs hw style
    fun _ => trivial
  rw [h.style] at hruns
  exact hruns.mono fun _ h' => h.trans h'

/-- A mark joins a cell. -/
theorem Rewritten.setChar_mark (h : Rewritten r (pre ++ d :: post) styles s)
    (hcols : r.mColumns = 1 → E) (hs : isScalar codePoint = true) (hw : width codePoint = 0) :
    Runs True E (Rewritten r (pre ++ addMark d codePoint hs hw :: post)
        (styles.set (totalColumns pre).toNat style)) fun _ =>
      s.setChar (totalColumns pre) codePoint style := by
  have hpre := totalColumns_nonneg pre
  have hpost := totalColumns_nonneg post
  have hpos := d.columns_pos
  have hcol := h.cells.columns
  have hspace := h.cells.space_le
  have hcc := charCount_le_two codePoint
  rw [totalColumns_append, totalColumns_cons, h.columns] at hcol
  have hroom : s.mSpaceUsed + charCount codePoint ≤ s.mText.length + s.mColumns ∨ E := by
    rw [h.columns]
    by_cases h₁ : r.mColumns = 1
    · exact .inr (hcols h₁)
    · exact .inl (by omega)
  have hruns := @setChar_marks True _ _ _ _ h.cells _ hpre (by rw [h.columns]; omega) hs hw style
      hroom fun _ => trivial
  have hmark := @markAt_append _ _ hs hw _ le_rfl hpos pre post
  rw [add_zero] at hmark
  rw [h.style, hmark] at hruns
  exact hruns.mono fun _ h' => h.trans h'

/-! ## One row -/

/-- The next cell goes to column `x`, with the style found at column `y` of the source. -/
structure Copying (r : TerminalRow) (cells : List Cell) (styles : List Style) (x y : Int)
    (s : CopyState) : Prop where
  row : Rewritten r cells styles s.row
  destination : s.destinationX + s.latestNonCombiningWidth = x
  source : s.sourceX1 + s.latestNonCombiningWidth = y

/-- The base character of the cell at column `x` has been written. -/
structure Copied (r : TerminalRow) (cells : List Cell) (styles : List Style) (x y : Int)
    (s : CopyState) : Prop where
  row : Rewritten r cells styles s.row
  destination : s.destinationX = x
  source : s.sourceX1 = y
  latest : s.latestNonCombiningWidth = 1

/-- A cell with more marks. -/
def addMarks (c : Cell) (marks : List Nat) (hm : ∀ m ∈ marks, isScalar m = true ∧ width m = 0) :
    Cell :=
  { c with
    marks := c.marks ++ marks
    marks_zero := by
      intro m h
      rcases List.mem_append.mp h with h | h
      · exact c.marks_zero m h
      · exact hm m h }

theorem addMarks_newCell (c : Cell) :
    addMarks (newCell c.base [] c.base_isScalar c.base_width (by simp)) c.marks c.marks_zero = c := rfl

section

variable {x y x₂ i : Int} {v : Style} {rest : List Nat} {t : CopyState} {Q : CopyState → Prop}

theorem getStyle_eq (hrow : t.row.mStyle = styles) (hy : 0 ≤ y)
    (hv : (if same then styles else line.mStyle)[y.toNat]? = some v) :
    (if same then t.row else line).getStyle y = .ok v := by
  rw [getStyle]
  apply arrayGet_ok hy
  cases same with
  | true => simpa [hrow] using hv
  | false => simpa using hv

theorem copyLoop_addMarks {marks : List Nat} (hcols : r.mColumns = 1 → E)
    (hm : ∀ m ∈ marks, isScalar m = true ∧ width m = 0)
    (h : Copied r (pre ++ d :: post) styles (totalColumns pre) y t) (hy : 0 ≤ y)
    (hv : (if same then styles else line.mStyle)[y.toNat]? = some v)
    (hself : styles.set (totalColumns pre).toNat v = styles) (hi : i + (spell marks).length ≤ x₂)
    (hrest : ∀ t', Copied r (pre ++ addMarks d marks hm :: post) styles (totalColumns pre) y t' →
      Runs True E Q fun _ => copyLoop line same x₂ rest (i + (spell marks).length) false t') :
    Runs True E Q fun _ => copyLoop line same x₂ (spell marks ++ rest) i false t := by
  induction marks generalizing d i t with
  | nil =>
    have hnone : addMarks d [] hm = d := by
      rw [addMarks, Cell.mk.injEq]
      exact ⟨rfl, List.append_nil _⟩
    rw [hnone] at hrest
    simpa using hrest t h
  | cons m marks ih =>
    obtain ⟨hs, hw⟩ := hm m (by simp)
    have hpos := charCount_pos m
    simp only [spell_cons, List.length_append, toChars_length, Nat.cast_add, ← add_assoc] at hi hrest
    simp only [spell_cons, List.append_assoc]
    refine runs_congr (fun _ => copyLoop_codePoint hs (by omega) _ _) ?_
    have hstep : Runs True E (Copied r (pre ++ addMark d m hs hw :: post) styles (totalColumns pre) y)
        fun _ => copyStep line same t m := by
      unfold Runs
      simp only [copyStep, hw, lt_irrefl, if_false, h.destination, h.source,
        getStyle_eq h.row.style hy hv, ok_bind]
      refine Lockstep.bind (@TerminalRow.Rewritten.setChar_mark _ _ _ _ _ _ _ _ v h.row hcols hs
          hw) fun r' hr' => ?_
      rw [hself] at hr'
      exact Lockstep.ok ⟨hr', rfl, rfl, h.latest⟩
    refine Lockstep.bind hstep fun t' ht' => ?_
    refine ih (fun a ha => hm a (by simp [ha])) ht' (by omega) fun t'' ht'' => hrest t'' ?_
    have hall : addMarks (addMark d m hs hw) marks (fun a ha => hm a (by simp [ha])) =
        addMarks d (m :: marks) hm := by
      rw [addMarks, addMarks, Cell.mk.injEq]
      exact ⟨rfl, by simp [addMark]⟩
    rw [hall] at ht''
    exact ht''

/-- The loop over the cells of the source. -/
theorem copyLoop_narrow {mid old : List Cell} (hcols : r.mColumns = 1 → E) (hmid : Narrow mid)
    (hold : Narrow old) (hlen : old.length = mid.length)
    (h : Copying r (pre ++ old ++ post) styles (totalColumns pre) y t) (hy : 0 ≤ y)
    (hx : (totalColumns pre).toNat + mid.length ≤ styles.length)
    (hyl : y.toNat + mid.length ≤ (if same then styles else line.mStyle).length)
    (hi : x₂ = i + (encode mid).length) :
    Runs True E (fun t' => Rewritten r (pre ++ mid ++ post)
        (copyEach same line.mStyle y.toNat (totalColumns pre).toNat mid.length styles) t'.row) fun _ =>
      copyLoop line same x₂ (encode mid ++ rest) i false t := by
  induction mid generalizing pre old styles y t i with
  | nil =>
    have hnil : old = [] := List.eq_nil_of_length_eq_zero hlen
    subst hnil
    refine runs_of_eq (fun m => copyLoop_done ?_ _ _) h.row
    simp only [encode_nil, List.length_nil] at hi
    omega
  | cons c mid ih =>
    obtain ⟨d, old, rfl⟩ := List.exists_cons_of_length_eq_add_one hlen
    have hc := hmid c (by simp)
    have hd := hold d (by simp)
    have hpre := totalColumns_nonneg pre
    have hpos := charCount_pos c.base
    have hchars : c.chars.length = charCount c.base + (spell c.marks).length := by simp [Cell.chars]
    simp only [List.length_cons] at hx hyl hlen
    simp only [encode_cons, List.length_append, Nat.cast_add] at hi
    obtain ⟨v, hv⟩ : ∃ v, (if same then styles else line.mStyle)[y.toNat]? = some v :=
      ⟨_, List.getElem?_eq_getElem (by omega)⟩
    have hrow : Rewritten r (pre ++ d :: (old ++ post)) styles t.row := by simpa using h.row
    simp only [encode_cons, Cell.chars, List.append_assoc]
    refine runs_congr (fun _ => copyLoop_codePoint c.base_isScalar (by omega) _ _) ?_
    -- The base character.
    have hstep : Runs True E (Copied r (pre ++
          newCell c.base [] c.base_isScalar c.base_width (by simp) :: (old ++ post))
          (styles.set (totalColumns pre).toNat v) (totalColumns pre) y)
        fun _ => copyStep line same t c.base := by
      have hw : width c.base = 1 := hc
      unfold Runs
      simp only [copyStep, if_pos c.base_width, h.destination, h.source,
        getStyle_eq h.row.style hy hv, ok_bind]
      refine Lockstep.bind
        (@Rewritten.setChar_narrow _ _ _ _ _ _ _ _ v hrow hd c.base_isScalar hw) fun r' hr' => ?_
      exact Lockstep.ok ⟨hr', rfl, rfl, hw⟩
    refine Lockstep.bind hstep fun t' ht' => ?_
    -- Its marks find the style that has just been written.
    have hv' : (if same then styles.set (totalColumns pre).toNat v else line.mStyle)[y.toNat]? =
        some v := by
      cases same with
      | false => simpa using hv
      | true =>
        simp only [if_true] at hv ⊢
        rw [List.getElem?_set]
        split_ifs with he
        · rfl
        · omega
        · exact hv
    refine copyLoop_addMarks hcols c.marks_zero ht' hy hv' (by simp) (by omega) fun t'' ht'' => ?_
    rw [addMarks_newCell] at ht''
    have hnext : Copying r (pre ++ [c] ++ old ++ post) (styles.set (totalColumns pre).toNat v)
        (totalColumns (pre ++ [c])) (y + 1) t'' := by
      refine ⟨by simpa using ht''.row, ?_, by rw [ht''.source, ht''.latest]⟩
      rw [ht''.destination, ht''.latest, totalColumns_append, totalColumns_cons, totalColumns_nil, hc]
      rfl
    have hcol : totalColumns (pre ++ [c]) = totalColumns pre + 1 := by simp [hc]
    have hloop := ih (fun a ha => hmid a (by simp [ha])) (fun a ha => hold a (by simp [ha]))
      (by omega) hnext (by omega) (by rw [List.length_set, hcol]; omega)
      (by
        have hsize : (if same then styles.set (totalColumns pre).toNat v else line.mStyle).length =
            (if same then styles else line.mStyle).length := by
          split_ifs
          · exact List.length_set
          · rfl
        rw [hsize]
        omega)
      (show x₂ = i + charCount c.base + (spell c.marks).length + (encode mid).length by omega)
    refine hloop.mono fun t₃ ht₃ => ?_
    rw [hcol, show (totalColumns pre + 1).toNat = (totalColumns pre).toNat + 1 by omega,
      show (y + 1).toNat = y.toNat + 1 by omega, ← copyOne_eq hv] at ht₃
    simpa [copyEach] using ht₃

end

/-- `copyInterval` between rows of narrow cells. -/
theorem copyInterval_narrow {source target : List Cell} (hr : Represents r target)
    (htarget : Narrow target) (hl : Represents line source) (hsource : Narrow source)
    (hsame : same = true → line = r) (hcols : r.mColumns = 1 → E) {sx dx w : Nat}
    (hsx : sx + w ≤ source.length) (hdx : dx + w ≤ target.length) :
    Runs True E (Rewritten r
        (target.take dx ++ (source.drop sx).take w ++ target.drop (dx + w))
        (copyEach same line.mStyle sx dx w r.mStyle)) fun _ =>
      r.copyInterval line same sx (sx + w) dx := by
  -- The row with the flag of the source, and the source as the copy sees it.
  obtain ⟨r', hr'⟩ : ∃ r', r' = { r with
    mHasNonOneWidthOrSurrogateChars :=
      r.mHasNonOneWidthOrSurrogateChars || line.mHasNonOneWidthOrSurrogateChars } := ⟨_, rfl⟩
  have hflag : Represents r' target := by
    rw [hr']
    exact ⟨hr.text, hr.space, hr.columns, hr.styles,
      fun hf => hr.simple (Bool.or_eq_false_iff.mp hf).1⟩
  have hrow : Rewritten r target r.mStyle r' := by
    rw [hr'] at hflag ⊢
    exact ⟨rfl, rfl, rfl, hflag⟩
  obtain ⟨line', hline'⟩ : ∃ line', line' = if same then r' else line := ⟨_, rfl⟩
  have hl' : Represents line' source ∧ line'.mStyle = line.mStyle := by
    cases same with
    | true =>
      have hlr := hsame rfl
      subst hlr
      rw [hr.unique hl] at hflag
      rw [hline']
      exact ⟨hflag, hrow.style⟩
    | false =>
      rw [hline']
      exact ⟨hl, rfl⟩
  obtain ⟨hcells, hstyle⟩ := hl'
  -- The source falls into three parts.
  have hsplit : source = source.take sx ++ ((source.drop sx).take w ++ source.drop (sx + w)) := by
    rw [← List.drop_drop, List.take_append_drop, List.take_append_drop]
  have hpre : totalColumns (source.take sx) = sx := by
    rw [(hsource.take sx).totalColumns, List.length_take]
    omega
  have hmid : ((source.drop sx).take w).length = w := by
    rw [List.length_take, List.length_drop]
    omega
  have hboth : totalColumns (source.take sx ++ (source.drop sx).take w) = sx + w := by
    rw [totalColumns_append, hpre, ((hsource.drop sx).take w).totalColumns, hmid]
  have hstart₁ : line'.findStartOfColumn sx = .ok (encode (source.take sx)).length := by
    rw [← hpre]
    exact findStartOfColumn_boundary (hsplit ▸ hcells)
  have hstart₂ : line'.findStartOfColumn (sx + w) =
      .ok (encode (source.take sx ++ (source.drop sx).take w)).length := by
    rw [← hboth]
    apply @findStartOfColumn_boundary _ _ (source.drop (sx + w))
    rw [List.append_assoc, ← hsplit]
    exact hcells
  have hwide : (if 0 < (sx : Int) then line'.wideDisplayCharacterStartingAt (sx - 1) else .ok false) =
      .ok false := by
    have hno := @wasExtraCol_eq line' (source.take sx)
        ((source.drop sx).take w ++ source.drop (sx + w)) (hsplit ▸ hcells)
    rwa [hpre] at hno
  obtain ⟨slack, htext⟩ := hcells.text
  have hdrop : line'.mText.drop (encode (source.take sx)).length =
      encode ((source.drop sx).take w) ++ (encode (source.drop (sx + w)) ++ slack) := by
    rw [htext, hsplit, encode_append, encode_append, List.append_assoc]
    simp
  have key (m : ShortStore) : r.copyInterval line same sx (sx + w) dx =
      (copyLoop line' same (encode (source.take sx ++ (source.drop sx).take w)).length
        (encode ((source.drop sx).take w) ++ (encode (source.drop (sx + w)) ++ slack))
        (encode (source.take sx)).length false ⟨r', 0, sx, dx⟩ >>= fun s => .ok s.row) := by
    rw [copyInterval, ← hr', ← hline']
    simp only [hstart₁, hstart₂, hwide, ok_bind, Int.toNat_natCast, hdrop]
    rw [if_neg (by omega)]
    rfl
  refine runs_congr key (Lockstep.bind (P := fun s => Rewritten r _ _ s.row) ?_ fun s hs => .ok hs)
  have hleft : totalColumns (target.take dx) = dx := by
    rw [(htarget.take dx).totalColumns, List.length_take]
    omega
  have hparts : target = target.take dx ++ (target.drop dx).take w ++ target.drop (dx + w) := by
    rw [List.append_assoc, ← List.drop_drop, List.take_append_drop, List.take_append_drop]
  have hlen : (r.mStyle.length : Int) = target.length := by
    rw [hr.styles, ← hr.columns, htarget.totalColumns]
  have hlen' : (line.mStyle.length : Int) = source.length := by
    rw [← hstyle, hcells.styles, ← hcells.columns, hsource.totalColumns]
  have hloop := @copyLoop_narrow E r line' (target.take dx) (target.drop (dx + w)) r.mStyle same
      sx ((encode (source.take sx ++ (source.drop sx).take w)).length)
      ((encode (source.take sx)).length) (encode (source.drop (sx + w)) ++ slack) ⟨r', 0, sx, dx⟩
      ((source.drop sx).take w) ((target.drop dx).take w) hcols ((hsource.drop sx).take w)
      ((htarget.drop dx).take w) (by rw [hmid, List.length_take, List.length_drop]; omega)
      ⟨hparts ▸ hrow, by rw [hleft]; simp, by simp⟩ (by omega) (by rw [hleft, hmid]; omega)
      (by
      rw [hmid, Int.toNat_natCast]
      cases same with
      | true =>
        have hlr := hsame rfl
        simp only [if_true]
        rw [hlr] at hlen'
        omega
      | false =>
        simp only [Bool.false_eq_true, if_false]
        rw [hstyle]
        omega)
      (by rw [encode_append, List.length_append, Nat.cast_add])
  rw [hleft, hmid, hstyle, Int.toNat_natCast, Int.toNat_natCast] at hloop
  exact hloop

/-- What a copy of `w` cells from column `sx` of `line` makes of a row of narrow cells. -/
structure Pasted (line : TerminalRow) (same : Bool) (sx dx w : Nat) (r r' : TerminalRow) : Prop where
  cells : ∀ source target, Represents line source → Represents r target →
    Represents r' (target.take dx ++ (source.drop sx).take w ++ target.drop (dx + w))
  style : r'.mStyle = copyEach same line.mStyle sx dx w r.mStyle

/-- The row spells narrow cells only. -/
def NarrowRow (r : TerminalRow) : Prop := ∃ cells, Represents r cells ∧ Narrow cells

/-- On the fast path all cells are narrow. -/
theorem Valid.narrowRow {columns : Int} (h : Valid columns r)
    (hflag : r.mHasNonOneWidthOrSurrogateChars = false) : r.NarrowRow := by
  obtain ⟨-, cells, hcells⟩ := h.spells
  exact ⟨cells, hcells, fun c hc => (hcells.simple hflag c hc).2.1⟩

theorem copyInterval_pasted {columns : Int} (hr : Valid columns r) (hnarrow : r.NarrowRow)
    (hl : Valid columns line) (hnarrow' : line.NarrowRow) (hsame : same = true → line = r)
    (hcols : columns = 1 → E) {sx dx w : Nat} (hsx : (sx : Int) + w ≤ columns)
    (hdx : (dx : Int) + w ≤ columns) :
    Runs True E (fun r' => Valid columns r' ∧ Pasted line same sx dx w r r') fun _ =>
      r.copyInterval line same sx (sx + w) dx := by
  obtain ⟨target, htarget, hnt⟩ := hnarrow
  obtain ⟨source, hsource, hns⟩ := hnarrow'
  have hlen := htarget.columns
  have hlen' := hsource.columns
  rw [hnt.totalColumns, hr.spells.1] at hlen
  rw [hns.totalColumns, hl.spells.1] at hlen'
  have hvalid := @copyInterval_runs _ _ _ _ _ _ sx (sx + w) dx hr hcols hl hsame
    (Int.natCast_nonneg sx) (by omega) hsx (Int.natCast_nonneg dx) (by omega)
  have hcells := copyInterval_narrow htarget hnt hsource hns hsame
    (fun h => hcols (hr.spells.1.symm.trans h)) (w := w) (show sx + w ≤ source.length by omega)
    (show dx + w ≤ target.length by omega)
  refine (hvalid.and hcells).mono fun r' hr' => ⟨hr'.1, fun s t hs ht => ?_, hr'.2.style⟩
  rw [hsource.unique hs, htarget.unique ht] at hr'
  exact hr'.2.cells

/-! ## What a row shows -/

/-- The narrow cell at column `x` has this text and this style. -/
def Shows (r : TerminalRow) (x : Int) (text : List Nat) (style : Style) : Prop :=
  ∃ pre c post, Represents r (pre ++ c :: post) ∧ totalColumns pre = x ∧ c.columns = 1 ∧
    c.chars = text ∧ r.mStyle[x.toNat]? = some style

theorem shows_iff {cells : List Cell} (h : Represents r cells) (hn : Narrow cells) {x : Nat}
    {text : List Nat} : r.Shows x text style ↔
      (cells[x]?).map Cell.chars = some text ∧ r.mStyle[x]? = some style := by
  constructor
  · rintro ⟨pre, c, post, h', hp, -, htext, hstyle⟩
    have hcells := h.unique h'
    subst hcells
    have hpre : Narrow pre := fun d hd => hn d (by simp [hd])
    have hx : x = pre.length := by
      rw [hpre.totalColumns] at hp
      omega
    refine ⟨?_, hstyle⟩
    rw [hx, List.getElem?_append_right (le_refl _), Nat.sub_self, List.getElem?_cons_zero,
      Option.map_some, htext]
  · rintro ⟨htext, hstyle⟩
    obtain ⟨c, hc, rfl⟩ := Option.map_eq_some_iff.mp htext
    obtain ⟨hx, rfl⟩ := List.getElem?_eq_some_iff.mp hc
    refine ⟨cells.take x, cells[x], cells.drop (x + 1), ?_, ?_, hn _ (List.getElem_mem hx), rfl,
      hstyle⟩
    · rw [List.getElem_cons_drop, List.take_append_drop]
      exact h
    · rw [(hn.take x).totalColumns, List.length_take]
      omega

theorem narrow_pasted {source target : List Cell} (hs : Narrow source) (ht : Narrow target)
    (sx dx w : Nat) : Narrow (target.take dx ++ (source.drop sx).take w ++ target.drop (dx + w)) := by
  intro c hc
  rcases List.mem_append.mp hc with hc | hc
  · rcases List.mem_append.mp hc with hc | hc
    · exact ht.take dx c hc
    · exact (hs.drop sx).take w c hc
  · exact ht.drop (dx + w) c hc

theorem getElem?_pasted {source target : List Cell} {sx dx w : Nat} (hs : sx + w ≤ source.length)
    (ht : dx + w ≤ target.length) (p : Nat) :
    (target.take dx ++ (source.drop sx).take w ++ target.drop (dx + w))[p]? =
      if dx ≤ p ∧ p < dx + w then source[sx + (p - dx)]? else target[p]? := by
  have hlen : ((source.drop sx).take w).length = w := by
    rw [List.length_take, List.length_drop]
    omega
  have hover := @Ring.getElem?_overwrite _ target ((source.drop sx).take w) dx (by omega) p
  rw [hlen] at hover
  rw [hover]
  split_ifs with hp
  · rw [List.getElem?_take_of_lt (by omega), List.getElem?_drop]
  · rfl

section

variable {r' : TerminalRow} {sx dx w : Nat} {source target : List Cell}

/-- A pasted row shows its own cells beside those of the source. -/
theorem Pasted.shows_beside (h : Pasted line same sx dx w r r') (hl : Represents line source)
    (hs : Narrow source) (hr : Represents r target) (ht : Narrow target)
    (hsx : sx + w ≤ source.length) (hdx : dx + w ≤ target.length) {x : Nat}
    (hx : x < dx ∨ dx + w ≤ x) {text : List Nat} (hshows : r.Shows x text style) :
    r'.Shows x text style := by
  rw [shows_iff hr ht] at hshows
  rw [shows_iff (h.cells source target hl hr) (narrow_pasted hs ht sx dx w),
    getElem?_pasted hsx hdx, if_neg (by omega), h.style, getElem?_copyEach_outside hx]
  exact hshows

/-- It shows the cells of the source just if their styles were copied right. -/
theorem Pasted.shows_inside_iff (h : Pasted line same sx dx w r r') (hl : Represents line source)
    (hs : Narrow source) (hr : Represents r target) (ht : Narrow target)
    (hsx : sx + w ≤ source.length) (hdx : dx + w ≤ target.length) :
    (∀ i < w, ∀ text style, line.Shows (sx + i : Nat) text style →
        r'.Shows (dx + i : Nat) text style) ↔
      ∀ i < w, (copyEach same line.mStyle sx dx w r.mStyle)[dx + i]? = line.mStyle[sx + i]? := by
  have hnew := h.cells source target hl hr
  have hnarrow := narrow_pasted hs ht sx dx w
  have htext (i : Nat) (hi : i < w) :
      (target.take dx ++ (source.drop sx).take w ++ target.drop (dx + w))[dx + i]? =
        source[sx + i]? := by
    rw [getElem?_pasted hsx hdx, if_pos (by omega), Nat.add_sub_cancel_left]
  have hstyles : line.mStyle.length = source.length := by
    have hcols := hl.columns
    have hlen := hl.styles
    rw [hs.totalColumns] at hcols
    omega
  constructor
  · intro hshows i hi
    have hcell : source[sx + i]? = some source[sx + i] := List.getElem?_eq_getElem (by omega)
    have hstyle : line.mStyle[sx + i]? = some line.mStyle[sx + i] :=
      List.getElem?_eq_getElem (by omega)
    have hcopied := hshows i hi source[sx + i].chars line.mStyle[sx + i]
      ((shows_iff hl hs).mpr ⟨by rw [hcell, Option.map_some], hstyle⟩)
    rw [shows_iff hnew hnarrow, h.style] at hcopied
    rw [hcopied.2, hstyle]
  · intro hcopied i hi text style hshows
    rw [shows_iff hl hs] at hshows
    rw [shows_iff hnew hnarrow, htext i hi, h.style, hcopied i hi]
    exact hshows

end

end TerminalRow

namespace TerminalBuffer

open ElementCopy (copyEach copyEach_right_iff)

variable {E : Prop} {b b' : TerminalBuffer}

/-- The row at `y` spells narrow cells only. -/
def NarrowAt (b : TerminalBuffer) (y : Int) : Prop := ∃ r, b.rowAt y = .ok r ∧ r.NarrowRow

/-! ## Row after row -/

/-- A row that has an object needs no other one. -/
theorem allocateFullLine_of_some [ShortStore] {j line : Nat}
    (h : b.mLines[j]? = some (some line)) : b.allocateFullLineIfNecessary j = .ok (b, line) := by
  rw [allocateFullLineIfNecessary, arrayGet_slot h]
  rfl

theorem copyRow_redrawn (hb : Valid b) {sx dx w : Nat} {source destination : Int}
    (hcols : b.mColumns = 1 → E) (hsx : (sx : Int) + w ≤ b.mColumns) (hdx : (dx : Int) + w ≤ b.mColumns)
    (hs₀ : 0 ≤ source) (hs₁ : source < b.mScreenRows) (hd₀ : 0 ≤ destination)
    (hd₁ : destination < b.mScreenRows) (hsource : b.NarrowAt source)
    (hdestination : b.NarrowAt destination) :
    Runs True E (Redrawn (At destination fun r r' => ∃ line, b.rowAt source = .ok line ∧
        TerminalRow.Pasted line (decide (source = destination)) sx dx w r r') b) fun _ =>
      b.copyRow sx w dx source destination := by
  have hhist := hb.history
  have hfits := hb.fits
  obtain ⟨sourceRow, hsr, hsn⟩ := hsource
  obtain ⟨r, hdr, hdn⟩ := hdestination
  obtain ⟨sourceLine, -, hsslot, hsrow, hsv⟩ := hb.line_of_rowAt (by omega) hs₁ hsr
  obtain ⟨line, -, hdslot, hdrow, hdv⟩ := hb.line_of_rowAt (by omega) hd₁ hdr
  -- References are the same just if the rows are.
  have hsame : decide (sourceLine = line) = decide (source = destination) := by
    apply decide_eq_decide.mpr
    constructor
    · rintro rfl
      have hslot := hb.objects.distinct _ _ _ hsslot hdslot
      exact Ring.index_inj hb.total_pos (by omega) (by omega) hslot |> fun h => by omega
    · rintro rfl
      rw [hsslot] at hdslot
      cases hdslot
      rfl
  have hline : decide (source = destination) = true → sourceRow = r := by
    intro h
    rw [of_decide_eq_true h, hdr] at hsr
    cases hsr
    rfl
  have key (m : ShortStore) : b.copyRow sx w dx source destination =
      (r.copyInterval sourceRow (decide (source = destination)) sx (sx + w) dx >>= fun r' =>
        .ok (b.update line r')) := by
    rw [copyRow, externalToInternalRow_eq hb.toShape (by omega) hs₁.le, ok_bind,
      allocateFullLine_of_some hsslot, ok_bind]
    simp only [externalToInternalRow_eq hb.toShape (show -b.mActiveTranscriptRows ≤ destination by omega)
      hd₁.le, ok_bind, allocateFullLine_of_some hdslot, deref_eq hsrow, deref_eq hdrow, hsame]
    rfl
  refine runs_congr key (runs_bind (TerminalRow.copyInterval_pasted hdv hdn hsv hsn hline hcols hsx
    hdx) fun r' hr' => ?_)
  refine Lockstep.ok ((hb.update_redrawn (by omega) hd₁ hdslot hdrow hr'.1).mono fun y t t' _ ht => ?_)
  rw [At] at ht ⊢
  split_ifs at ht ⊢ with hy
  · rw [ht.1, ht.2]
    exact ⟨sourceRow, hsr, hr'.2⟩
  · exact ht

/-- How a copy changes the rows of its target once `n` of its `h` rows are done. -/
def CopiedRows (b : TerminalBuffer) (sx dx w : Nat) (sy dy h n : Int) (y : Int)
    (r r' : TerminalRow) : Prop :=
  if dy ≤ y ∧ y < dy + h ∧ (if dy < sy then y < dy + n else dy + h - n ≤ y) then
    ∃ line, b.rowAt (y - dy + sy) = .ok line ∧
      TerminalRow.Pasted line (decide (sy = dy)) sx dx w r r'
  else r' = r

/-- No row is read after it was written. -/
theorem blockCopy_redrawn (hb : Valid b) {sx dx w : Nat} {sy dy h : Int}
    (hcols : b.mColumns = 1 → E) (hh : 0 ≤ h) (hsx : (sx : Int) + w ≤ b.mColumns)
    (hdx : (dx : Int) + w ≤ b.mColumns) (hsy : 0 ≤ sy) (hsh : sy + h ≤ b.mScreenRows) (hdy : 0 ≤ dy)
    (hdh : dy + h ≤ b.mScreenRows)
    (hnarrow : ∀ y, (sy ≤ y ∧ y < sy + h) ∨ (dy ≤ y ∧ y < dy + h) → b.NarrowAt y) :
    Runs True E (Redrawn (b.CopiedRows sx dx w sy dy h h) b) fun _ =>
      forUp 0 h (fun y b =>
        let y2 := if dy < sy then y else h - (y + 1)
        b.copyRow sx w dx (sy + y2) (dy + y2)) b := by
  have hhist := hb.history
  have hstart : Redrawn (b.CopiedRows sx dx w sy dy h 0) b b := by
    apply Redrawn.refl hb
    intro y r _
    rw [CopiedRows, if_neg]
    intro hdone
    split_ifs at hdone <;> omega
  refine runs_forUp_index (I := fun n b₁ => Redrawn (b.CopiedRows sx dx w sy dy h n) b b₁) hh
    (fun n b₁ hn hnh hred => ?_) hstart
  generalize hy2 : (if dy < sy then n else h - (n + 1)) = y2
  have hrange : 0 ≤ y2 ∧ y2 < h := by
    split_ifs at hy2 <;> omega
  -- Neither the source nor the target has been written so far.
  have hsame (y : Int) (hy : y = sy + y2 ∨ y = dy + y2) : b₁.rowAt y = b.rowAt y := by
    obtain ⟨r, r', hr, hr', hP⟩ := hred.rows y (by omega) (by omega)
    rw [CopiedRows, if_neg (by split_ifs at hy2 ⊢ <;> omega)] at hP
    rw [hr, hr', hP]
  have hgrown := hred.grown
  have hcopy := @copyRow_redrawn E _ hred.valid sx dx w (sy + y2) (dy + y2)
      (by rwa [hgrown.columns]) (by rwa [hgrown.columns]) (by rwa [hgrown.columns]) (by omega)
      (by rw [hgrown.screen]; omega) (by omega) (by rw [hgrown.screen]; omega)
      (by rw [NarrowAt, hsame _ (.inl rfl)]; exact hnarrow _ (.inl (by omega)))
      (by rw [NarrowAt, hsame _ (.inr rfl)]; exact hnarrow _ (.inr (by omega)))
  refine hcopy.mono fun b₂ hb₂ => (hred.trans hb₂).mono fun y r r' _ hrows => ?_
  obtain ⟨r₁, h₁, h₂⟩ := hrows
  rw [At] at h₂
  rw [CopiedRows] at h₁ ⊢
  by_cases hy : y = dy + y2
  · rw [if_pos hy, hsame _ (.inl rfl), show decide (sy + y2 = dy + y2) = decide (sy = dy) by
      apply decide_eq_decide.mpr; omega] at h₂
    rw [if_neg (by split_ifs at hy2 ⊢ <;> omega)] at h₁
    rw [if_pos (by split_ifs at hy2 ⊢ <;> omega), show y - dy + sy = sy + y2 by omega, ← h₁]
    exact h₂
  · rw [if_neg hy] at h₂
    rw [h₂]
    by_cases hdone : dy ≤ y ∧ y < dy + h ∧ (if dy < sy then y < dy + n else dy + h - n ≤ y)
    · rw [if_pos hdone] at h₁
      rw [if_pos (by split_ifs at hy2 hdone ⊢ <;> omega)]
      exact h₁
    · rw [if_neg hdone] at h₁
      rw [if_neg (by split_ifs at hy2 hdone ⊢ <;> omega)]
      exact h₁

/-! ## The whole block -/

/-- The cell at column `x` of the row at `y` has this text and this style. -/
def ShowsAt (b : TerminalBuffer) (y x : Int) (text : List Nat) (style : Style) : Prop :=
  ∃ r, b.rowAt y = .ok r ∧ r.Shows x text style

/-- The block of `w` columns and `h` rows at `(sx, sy)` of `b` is at `(dx, dy)` in `b'`, which is
`b` otherwise. -/
structure BlockCopied (b b' : TerminalBuffer) (sx sy w h dx dy : Int) : Prop where
  inside : ∀ i j text style, 0 ≤ i → i < w → 0 ≤ j → j < h →
    b.ShowsAt (sy + j) (sx + i) text style → b'.ShowsAt (dy + j) (dx + i) text style
  beside : ∀ x y text style, dy ≤ y → y < dy + h → 0 ≤ x → x < dx ∨ dx + w ≤ x →
    b.ShowsAt y x text style → b'.ShowsAt y x text style
  outside : ∀ y, -b.mActiveTranscriptRows ≤ y → y < b.mScreenRows → y < dy ∨ dy + h ≤ y →
    b'.rowAt y = b.rowAt y

/-- The style of a cell. -/
def styleAt (b : TerminalBuffer) (y x : Int) : Java Style := do
  let r ← b.rowAt y
  r.getStyle x

/-- A copy to the right within the same rows finds styles that repeat themselves at the distance of
the copy. -/
def StylesRepeat (b : TerminalBuffer) (sx sy w h dx dy : Int) : Prop :=
  sy = dy → sx < dx → ∀ i j, 0 ≤ i → dx - sx + i < w → 0 ≤ j → j < h →
    b.styleAt (sy + j) (dx + i) = b.styleAt (sy + j) (sx + i)

variable {sx w dx : Nat} {sy h dy : Int}

/-- What is needed of one pair of rows. -/
theorem shows_inside_iff_repeat {line r r' : TerminalRow} {same : Bool}
    (hp : TerminalRow.Pasted line same sx dx w r r') (hsame : same = true → line = r)
    (hl : line.NarrowRow) (hr : r.NarrowRow) (hsx : (sx : Int) + w ≤ line.mColumns)
    (hdx : (dx : Int) + w ≤ r.mColumns) :
    (∀ i < w, ∀ text style, line.Shows (sx + i : Nat) text style →
        r'.Shows (dx + i : Nat) text style) ↔
      (same = true → sx < dx → ∀ i, dx - sx + i < w → line.mStyle[dx + i]? = line.mStyle[sx + i]?) := by
  obtain ⟨source, hsource, hns⟩ := hl
  obtain ⟨target, htarget, hnt⟩ := hr
  have hlen := hsource.columns
  have hlen' := htarget.columns
  have hst := hsource.styles
  have hst' := htarget.styles
  rw [hns.totalColumns] at hlen
  rw [hnt.totalColumns] at hlen'
  have hread : (if same then r.mStyle else line.mStyle) = line.mStyle := by
    split_ifs with h
    · rw [hsame h]
    · rfl
  rw [hp.shows_inside_iff hsource hns htarget hnt (by omega) (by omega)]
  have hright := @copyEach_right_iff _ same line.mStyle r.mStyle dx sx w (by omega)
      (by rw [hread]; omega)
  rw [hread] at hright
  rw [hright]
  constructor
  · intro hrepeat h hlt i hi
    rw [hsame h]
    exact hrepeat h hlt i hi
  · intro hrepeat h hlt i hi
    rw [← hsame h]
    exact hrepeat h hlt i hi

theorem arrayGet_eq_iff {a : List Style} {i j : Nat} (hi : i < a.length) (hj : j < a.length) :
    arrayGet a i = arrayGet a j ↔ a[i]? = a[j]? := by
  have hget (k : Nat) (hk : k < a.length) : arrayGet a k = .ok a[k] :=
    arrayGet_ok (by omega) (by rw [Int.toNat_natCast, List.getElem?_eq_getElem hk])
  rw [hget i hi, hget j hj, List.getElem?_eq_getElem hi, List.getElem?_eq_getElem hj]
  simp

theorem blockCopied_iff (hb : Valid b) (hsx : (sx : Int) + w ≤ b.mColumns)
    (hdx : (dx : Int) + w ≤ b.mColumns) (hsy : 0 ≤ sy) (hsh : sy + h ≤ b.mScreenRows)
    (hdy : 0 ≤ dy) (hdh : dy + h ≤ b.mScreenRows)
    (hnarrow : ∀ y, (sy ≤ y ∧ y < sy + h) ∨ (dy ≤ y ∧ y < dy + h) → b.NarrowAt y)
    (hred : Redrawn (b.CopiedRows sx dx w sy dy h h) b b') :
    b.BlockCopied b' sx sy w h dx dy ↔ b.StylesRepeat sx sy w h dx dy := by
  have hhist := hb.history
  -- The rows behind a row of the block.
  have hrows (j : Int) (hj : 0 ≤ j) (hjh : j < h) : ∃ line r r', b.rowAt (sy + j) = .ok line ∧
      b.rowAt (dy + j) = .ok r ∧ b'.rowAt (dy + j) = .ok r' ∧ line.NarrowRow ∧ r.NarrowRow ∧
      line.mColumns = b.mColumns ∧ r.mColumns = b.mColumns ∧
      (decide (sy = dy) = true → line = r) ∧
      TerminalRow.Pasted line (decide (sy = dy)) sx dx w r r' := by
    obtain ⟨r, r', hr, hr', hP⟩ := hred.rows (dy + j) (by omega) (by omega)
    rw [CopiedRows, if_pos (by split_ifs <;> omega), show dy + j - dy + sy = sy + j by omega] at hP
    obtain ⟨line, hline, hpasted⟩ := hP
    obtain ⟨line₀, hline₀, hln⟩ := hnarrow (sy + j) (.inl (by omega))
    obtain ⟨r₀, hr₀, hrn⟩ := hnarrow (dy + j) (.inr (by omega))
    obtain ⟨line₁, hline₁, hlv⟩ := hb.rowAt (y := sy + j) (by omega) (by omega)
    obtain ⟨r₁, hr₁, hrv⟩ := hb.rowAt (y := dy + j) (by omega) (by omega)
    rw [hline] at hline₀ hline₁
    rw [hr] at hr₀ hr₁
    cases hline₀
    cases hline₁
    cases hr₀
    cases hr₁
    refine ⟨line, r, r', hline, hr, hr', hln, hrn, hlv.spells.1, hrv.spells.1, fun hs => ?_, hpasted⟩
    rw [of_decide_eq_true hs, hr] at hline
    cases hline
    rfl
  have hstyle (line : TerminalRow) (j x : Int) (hline : b.rowAt (sy + j) = .ok line) (hx : 0 ≤ x) :
      b.styleAt (sy + j) x = arrayGet line.mStyle x.toNat := by
    rw [styleAt, hline, ok_bind, TerminalRow.getStyle, Int.toNat_of_nonneg hx]
  constructor
  · intro hcopied hsame hlt i j hi hiw hj hjh
    obtain ⟨line, r, r', hline, hr, hr', hln, hrn, hlc, hrc, hlr, hpasted⟩ := hrows j hj hjh
    obtain ⟨source, hsource, -⟩ := id hln
    have hlen := hsource.styles
    have hall := (shows_inside_iff_repeat hpasted hlr hln hrn (by omega) (by omega)).mp
      (fun k hk text style hshows => by
        obtain ⟨s, hs, hsshows⟩ := hcopied.inside k j text style (by omega) (by omega) hj hjh
          ⟨line, hline, by simpa using hshows⟩
        rw [hr'] at hs
        cases hs
        simpa using hsshows)
      (decide_eq_true hsame) (by omega) i.toNat (by omega)
    rw [hstyle line j _ hline (by omega), hstyle line j _ hline (by omega),
      arrayGet_eq_iff (by omega) (by omega),
      show ((dx : Int) + i).toNat = dx + i.toNat by omega,
      show ((sx : Int) + i).toNat = sx + i.toNat by omega]
    exact hall
  · intro hrepeat
    refine ⟨fun i j text style hi hiw hj hjh hshows => ?_,
      fun x y text style hy hyh hx₀ hx hshows => ?_, fun y hy hyR hout => ?_⟩
    · obtain ⟨line, r, r', hline, hr, hr', hln, hrn, hlc, hrc, hlr, hpasted⟩ := hrows j hj hjh
      obtain ⟨source, hsource, -⟩ := id hln
      have hlen := hsource.styles
      obtain ⟨s, hs, hsshows⟩ := hshows
      rw [hline] at hs
      cases hs
      refine ⟨r', hr', ?_⟩
      have hinside := (shows_inside_iff_repeat hpasted hlr hln hrn (by omega) (by omega)).mpr
        (fun hsame hlt k hk => by
          have hrep := hrepeat (of_decide_eq_true hsame) (by omega) k j (by omega) (by omega) hj hjh
          rw [hstyle line j _ hline (by omega), hstyle line j _ hline (by omega),
            arrayGet_eq_iff (by omega) (by omega),
            show ((dx : Int) + k).toNat = dx + k by omega,
            show ((sx : Int) + k).toNat = sx + k by omega] at hrep
          exact hrep)
        i.toNat (by omega) text style
      rw [show ((sx + i.toNat : Nat) : Int) = sx + i by omega,
        show ((dx + i.toNat : Nat) : Int) = dx + i by omega] at hinside
      exact hinside hsshows
    · obtain ⟨line, r, r', hline, hr, hr', hln, hrn, hlc, hrc, -, hpasted⟩ :=
        hrows (y - dy) (by omega) (by omega)
      rw [show dy + (y - dy) = y by omega] at hr hr'
      obtain ⟨source, hsource, hns⟩ := hln
      obtain ⟨target, htarget, hnt⟩ := hrn
      have hlen := hsource.columns
      have hlen' := htarget.columns
      rw [hns.totalColumns] at hlen
      rw [hnt.totalColumns] at hlen'
      obtain ⟨s, hs, hsshows⟩ := hshows
      rw [hr] at hs
      cases hs
      refine ⟨r', hr', ?_⟩
      lift x to Nat using hx₀
      exact hpasted.shows_beside hsource hns htarget hnt (by omega) (by omega) (by omega) hsshows
    · obtain ⟨r, r', hr, hr', hP⟩ := hred.rows y hy hyR
      rw [CopiedRows, if_neg (by omega)] at hP
      rw [hr, hr', hP]

/-- Nothing happens to a block without columns. -/
theorem copiedRows_nothing (hb : Valid b) (hsy : 0 ≤ sy) (hsh : sy + h ≤ b.mScreenRows) :
    Redrawn (b.CopiedRows sx dx 0 sy dy h h) b b := by
  have hhist := hb.history
  apply Redrawn.refl hb
  intro y r hr
  rw [CopiedRows]
  by_cases hdone : dy ≤ y ∧ y < dy + h ∧ (if dy < sy then y < dy + h else dy + h - h ≤ y)
  · rw [if_pos hdone]
    obtain ⟨line, hline, -⟩ := hb.rowAt (y := y - dy + sy) (by omega) (by omega)
    refine ⟨line, hline, fun source target _ htarget => ?_, rfl⟩
    rw [List.take_zero, List.append_nil, add_zero, List.take_append_drop]
    exact htarget
  · rw [if_neg hdone]

/-- `blockCopy` is right for narrow cells just if it does not copy to the right within the same rows,
over styles that do not repeat themselves. -/
theorem blockCopy_correct_iff (hb : Valid b) {sx sy w h dx dy : Int} (hw : 0 ≤ w) (hh : 0 ≤ h)
    (hsx : 0 ≤ sx ∧ sx + w ≤ b.mColumns) (hsy : 0 ≤ sy ∧ sy + h ≤ b.mScreenRows)
    (hdx : 0 ≤ dx ∧ dx + w ≤ b.mColumns) (hdy : 0 ≤ dy ∧ dy + h ≤ b.mScreenRows)
    (hnarrow : ∀ y, (sy ≤ y ∧ y < sy + h) ∨ (dy ≤ y ∧ y < dy + h) → b.NarrowAt y)
    (htrap : @blockCopy trapShort b sx sy w h dx dy ≠ .error .shortOverflow) :
    (2 ≤ b.mColumns → ∃ b', b.blockCopy sx sy w h dx dy = .ok b') ∧
      ∀ b', b.blockCopy sx sy w h dx dy = .ok b' →
        (b.BlockCopied b' sx sy w h dx dy ↔ b.StylesRepeat sx sy w h dx dy) := by
  lift sx to Nat using hsx.1
  lift dx to Nat using hdx.1
  lift w to Nat using hw
  have hruns (E : Prop) (hcols : b.mColumns = 1 → E) :
      Runs True E (fun b' => Redrawn (b.CopiedRows sx dx w sy dy h h) b b') fun _ =>
        b.blockCopy sx sy w h dx dy := by
    have hloop := blockCopy_redrawn (E := E) hb hcols hh hsx.2 hdx.2 hsy.1 hsy.2 hdy.1 hdy.2 hnarrow
    have hin : ¬((sx : Int) < 0 ∨ b.mColumns < sx + w ∨ sy < 0 ∨ b.mScreenRows < sy + h ∨
        (dx : Int) < 0 ∨ b.mColumns < dx + w ∨ dy < 0 ∨ b.mScreenRows < dy + h) := by omega
    by_cases hw₀ : (w : Int) = 0
    · obtain rfl : w = 0 := by omega
      refine runs_of_eq (a := b) (fun m => if_pos rfl) (copiedRows_nothing hb hsy.1 hsy.2)
    · simp only [blockCopy, if_neg hw₀, if_neg hin]
      exact hloop
  constructor
  · intro hcols
    obtain ⟨b', hb', -⟩ := (hruns False fun h => by omega).returns htrap
    exact ⟨b', hb'⟩
  · intro b' hb'
    have hred := (hruns True fun _ => trivial).ensures htrap b' hb'
    exact blockCopied_iff hb hsx.2 hdx.2 hsy.1 hsy.2 hdy.1 hdy.2 hnarrow hred

/-- A row of four columns whose first cell is bold. -/
def boldFirst [ShortStore] : Java TerminalBuffer :=
  script 4 1 1 [.setChar 0 0 0x61 1, .setChar 1 0 0x62 0]

theorem boldFirst_facts : ∃ b : TerminalBuffer, @boldFirst javaShort = .ok b ∧ Valid b ∧
    b.mColumns = 4 ∧ b.mScreenRows = 1 ∧ b.NarrowAt 0 := by
  have hsize : (@boldFirst javaShort).map (fun b => (b.mColumns, b.mScreenRows,
      b.mActiveTranscriptRows)) = .ok (4, 1, 0) := by
    decide +kernel
  have hflag : (@boldFirst javaShort >>= fun b => b.rowAt 0).map
      (fun r => r.mHasNonOneWidthOrSurrogateChars) = .ok false := by
    decide +kernel
  obtain ⟨b, hb, hvalues⟩ := exists_of_map_eq_ok hsize
  simp only [Prod.mk.injEq] at hvalues
  obtain ⟨hc, hs, hact⟩ := hvalues
  have hv := script_valid (by decide) (by decide) (by decide)
    (by simp [Operation.Legal, Operation.Fits, isScalar, isSurrogate]) (by decide +kernel) hb
  obtain ⟨r, hr, hrv⟩ := hv.rowAt (y := 0) (by omega) (by omega)
  rw [hb, ok_bind, hr] at hflag
  exact ⟨b, hb, hv, hc, hs, r, hr, hrv.narrowRow (Except.ok.inj hflag)⟩

/-- The first two cells are copied to the other two, where their styles are read before they are written. -/
theorem blockCopy_correct_iff_apart : ∃ b b' : TerminalBuffer, b.mColumns = 4 ∧
    b.blockCopy 0 0 2 1 2 0 = .ok b' ∧ b.BlockCopied b' 0 0 2 1 2 0 := by
  obtain ⟨b, hb, hv, hc, hs, hnarrow⟩ := boldFirst_facts
  have htrap : (@boldFirst javaShort >>= fun b =>
      @blockCopy trapShort b 0 0 2 1 2 0).isOk = true := by
    decide +kernel
  rw [hb, ok_bind] at htrap
  obtain ⟨hreturns, hiff⟩ := blockCopy_correct_iff hv (show (0 : Int) ≤ 2 by decide)
    (show (0 : Int) ≤ 1 by decide) (show (0 : Int) ≤ 0 ∧ 0 + 2 ≤ b.mColumns by omega)
    (show (0 : Int) ≤ 0 ∧ 0 + 1 ≤ b.mScreenRows by omega) (show (0 : Int) ≤ 2 ∧ 2 + 2 ≤ b.mColumns by omega)
    (show (0 : Int) ≤ 0 ∧ 0 + 1 ≤ b.mScreenRows by omega)
    (fun y hy => by
      obtain rfl : y = 0 := by omega
      exact hnarrow)
    (fun hstop => by
      rw [hstop] at htrap
      cases htrap)
  obtain ⟨b', hb'⟩ := hreturns (by omega)
  exact ⟨b, b', hc, hb', (hiff b' hb').mpr fun _ _ i j hi hlt _ _ => by omega⟩

/-- A copy by one column makes the third cell bold, too. -/
theorem style_smeared : ∃ b b' : TerminalBuffer, Valid b ∧ b.NarrowAt 0 ∧ b.mColumns = 4 ∧
    b.mScreenRows = 1 ∧ b.blockCopy 0 0 2 1 1 0 = .ok b' ∧ ¬b.BlockCopied b' 0 0 2 1 1 0 := by
  obtain ⟨b, hb, hv, hc, hs, hnarrow⟩ := boldFirst_facts
  have hold : (@boldFirst javaShort >>= fun b => b.rowAt 0).map (fun r => r.mStyle) =
      .ok [1, 0, TextStyle.normal, TextStyle.normal] := by
    decide +kernel
  have hnew : (@boldFirst javaShort >>= fun b =>
      @blockCopy javaShort b 0 0 2 1 1 0 >>= fun b' => b'.rowAt 0).map (fun r => r.mStyle) =
      .ok [1, 1, 1, TextStyle.normal] := by
    decide +kernel
  rw [hb, ok_bind] at hold hnew
  match hb' : @blockCopy javaShort b 0 0 2 1 1 0 with
  | .error _ =>
    rw [hb'] at hnew
    cases hnew
  | .ok b' =>
    rw [hb', ok_bind] at hnew
    refine ⟨b, b', hv, hnarrow, hc, hs, hb', fun hcopied => ?_⟩
    obtain ⟨r, hr, cells, hcells, hn⟩ := id hnarrow
    rw [hr] at hold
    simp only [Except.map, Except.ok.injEq] at hold
    have hlen : (cells.length : Int) = 4 := by
      have hcols := hcells.columns
      have hst := hcells.styles
      rw [hold] at hst
      rw [hn.totalColumns] at hcols
      simp only [List.length_cons, List.length_nil] at hst
      omega
    have hcell : cells[1]? = some cells[1] := List.getElem?_eq_getElem (by omega)
    have hshows : r.Shows (1 : Nat) cells[1].chars 0 :=
      (TerminalRow.shows_iff hcells hn).mpr ⟨by rw [hcell, Option.map_some], by rw [hold]; rfl⟩
    obtain ⟨r', hr', pre, c, post, hrep, hp, -, -, hstyle⟩ :=
      hcopied.inside 1 0 cells[1].chars 0 (by decide) (by decide) (by decide) (by decide)
        ⟨r, by simpa using hr, hshows⟩
    rw [show (0 : Int) + 0 = 0 from rfl] at hr'
    rw [hr'] at hnew
    simp only [Except.map, Except.ok.injEq] at hnew
    rw [hnew] at hstyle
    cases hstyle

end TerminalBuffer

end XoDos
