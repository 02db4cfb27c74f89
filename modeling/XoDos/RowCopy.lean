import XoDos.RowSetChar

/-!
# The operations of a row keep it valid

`clear`, the constructor, `setChar` and `copyInterval`.  The text array never
shrinks, so `clear` always has room for a line of spaces.
-/

namespace XoDos

open WcWidth (width)

theorem arraySet_length {α : Type} {a : List α} {i : Int} {x : α} :
    Ensures (fun b : List α => b.length = a.length) (arraySet a i x) := by
  intro b hb
  rw [(arraySet_eq_ok.mp hb).2, List.length_set]

theorem arraycopy_length {α : Type} {src dst : List α} {i j n : Int} :
    Ensures (fun b : List α => b.length = dst.length) (arraycopy src i dst j n) := by
  intro b hb
  unfold arraycopy at hb
  split_ifs at hb with h
  cases hb
  simp
  omega

namespace TerminalRow

/-! ## The array never shrinks -/

theorem shiftRight_length {text : List Nat} {columns space i d : Int} (hc : 0 ≤ columns) :
    Ensures (fun b : List Nat => text.length ≤ b.length) (shiftRight text columns space i d) := by
  unfold shiftRight
  refine Ensures.ite (fun _ => ?_) fun _ => arraycopy_length.mono fun b h => h.ge
  refine Ensures.bind (P := fun b : List Nat => text.length ≤ b.length) ?_ fun a ha => ?_
  · intro b hb
    unfold newArray at hb
    split_ifs at hb
    cases hb
    rw [List.length_replicate]
    omega
  · exact Ensures.bind arraycopy_length fun b hb => arraycopy_length.mono fun d hd => by omega

theorem toCharsInto_length {c : Nat} {dst : List Nat} {i : Int} :
    Ensures (fun b : List Nat => b.length = dst.length) (toCharsInto c dst i) := by
  unfold toCharsInto
  refine Ensures.ite (fun _ => arraySet_length) fun _ => Ensures.ite (fun _ => ?_) fun _ => .error _
  exact Ensures.bind arraySet_length fun a ha => arraySet_length.mono fun b hb => hb.trans ha

/-- The number of columns stays, and the array does not shrink. -/
structure Grows (r r' : TerminalRow) : Prop where
  columns : r'.mColumns = r.mColumns
  text : r.mText.length ≤ r'.mText.length

theorem Grows.trans {r r' r'' : TerminalRow} (h : Grows r r') (h' : Grows r' r'') : Grows r r'' :=
  ⟨h'.1.trans h.1, h.2.trans h'.2⟩

section

variable [ShortStore] {r : TerminalRow}

theorem settleWidth_grows (hc : 0 ≤ r.mColumns) {column old new space next : Int} {text : List Nat}
    (ht : r.mText.length ≤ text.length) :
    Ensures (Grows r) (settleWidth r column old new text space next) := by
  unfold settleWidth
  refine Ensures.ite (fun _ => ?_) fun _ => Ensures.ite (fun _ => ?_) fun _ => .ok ⟨rfl, ht⟩
  · refine Ensures.bind (shiftRight_length hc) fun a ha => Ensures.bind arraySet_length fun b hb => ?_
    exact Ensures.bind_any fun _ => .ok ⟨rfl, by simp only; omega⟩
  · refine Ensures.ite (fun _ => .error _) fun _ => Ensures.ite (fun _ => ?_) fun _ => ?_
    · exact Ensures.bind_any fun _ => .ok ⟨rfl, ht⟩
    · refine Ensures.bind_any fun _ => Ensures.bind arraycopy_length fun b hb => ?_
      exact Ensures.bind_any fun _ => .ok ⟨rfl, by simp only; omega⟩

theorem storeChar_grows (hc : 0 ≤ r.mColumns) {column : Int} {codePoint : Nat} :
    Ensures (Grows r) (r.storeChar column codePoint) := by
  unfold storeChar
  refine Ensures.bind_any fun _ => Ensures.bind_any fun _ => Ensures.bind_any fun _ => ?_
  refine Ensures.bind (P := fun b : List Nat => r.mText.length ≤ b.length) ?_ fun a ha => ?_
  · refine Ensures.ite (fun _ => shiftRight_length hc) fun _ => Ensures.ite (fun _ => ?_) fun _ => ?_
    · exact arraycopy_length.mono fun b h => h.ge
    · exact .ok le_rfl
  · refine Ensures.bind_any fun _ => Ensures.bind toCharsInto_length fun b hb => ?_
    exact settleWidth_grows hc (by omega)

theorem setCharLoop_grows (depth : Nat) (hc : 0 ≤ r.mColumns) {column : Int} {codePoint : Nat}
    {style : Style} : Ensures (Grows r) (setCharLoop depth r column codePoint style) := by
  induction depth generalizing r column codePoint with
  | zero => exact .error _
  | succ depth ih =>
    -- Every later call is made on a row that has already grown.
    have hstore {r₁ : TerminalRow} {k : Int} (h₁ : Grows r r₁) :
        Ensures (Grows r) (r₁.storeChar k codePoint) :=
      (storeChar_grows (by rw [h₁.columns]; exact hc)).mono fun _ h => h₁.trans h
    have hloop {r₁ : TerminalRow} {k : Int} (h₁ : Grows r r₁) :
        Ensures (Grows r) (setCharLoop depth r₁ k 0x20 style) :=
      (ih (by rw [h₁.columns]; exact hc)).mono fun _ h => h₁.trans h
    rw [setCharLoop]
    refine Ensures.ite (fun _ => .error _) fun _ => Ensures.bind_any fun styles => ?_
    refine Ensures.ite (fun _ => ?_) fun _ => Ensures.bind_any fun _ => ?_
    · exact Ensures.bind arraySet_length fun b hb => .ok ⟨rfl, hb.ge⟩
    have hg : Grows r { r with mStyle := styles, mHasNonOneWidthOrSurrogateChars := true } :=
      ⟨rfl, le_rfl⟩
    refine Ensures.ite (fun _ => hstore hg) fun _ => ?_
    refine Ensures.bind (P := Grows r) (Ensures.ite (fun _ => hloop hg) fun _ => .ok hg) ?_
    intro r₁ h₁
    refine Ensures.bind_any fun _ => ?_
    refine Ensures.bind (P := Grows r) (Ensures.ite (fun _ => hloop h₁) fun _ => .ok h₁) ?_
    intro r₂ h₂
    exact hstore h₂

end

/-! ## `setChar`, `clear` and the constructor -/

variable {T E : Prop} {columns : Int} {r : TerminalRow}

theorem setChar_runs {column : Int} {codePoint : Nat} {style : Style} (h : Valid columns r)
    (hcols : width codePoint = 0 → columns = 1 → E) (h₀ : 0 ≤ column) (hcol : column < columns)
    (hs : isScalar codePoint = true) (hE : width codePoint = 2 → column + 1 = columns → E)
    (hT : 32765 ≤ r.mSpaceUsed → T) :
    Runs T E (Valid columns) fun _ => r.setChar column codePoint style := by
  have hc := h.spells.1
  refine ((setChar_spells h.spells hcols h₀ hcol hs hE hT).and_ensures
    (setCharLoop_grows (column.toNat + 3) (by omega))).mono fun r' hr' => ⟨hr'.1, ?_⟩
  have := h.room
  have := hr'.2.2
  omega

/-- A row as `clear` leaves it.  What `mLineWrap` was stays. -/
structure Blank (columns : Int) (style : Style) (r : TerminalRow) : Prop where
  size : r.mColumns = columns
  spaces : ∀ c ∈ r.mText, c = 0x20
  styles : r.mStyle = List.replicate columns.toNat style
  used : r.mSpaceUsed = toShort columns
  simple : r.mHasNonOneWidthOrSurrogateChars = false

theorem encode_blanks (n : Nat) : encode (List.replicate n Cell.blank) = List.replicate n 0x20 := by
  induction n with
  | zero => rfl
  | succ n ih => rw [List.replicate_succ, encode_cons, ih, Cell.blank_chars, List.replicate_succ]; rfl

theorem totalColumns_blanks (n : Nat) : totalColumns (List.replicate n Cell.blank) = n := by
  induction n with
  | zero => rfl
  | succ n ih =>
    rw [List.replicate_succ, totalColumns_cons, ih, Cell.blank_columns]
    push_cast
    omega

theorem clear_runs {style : Style} (h₀ : 0 ≤ columns) (hc : r.mColumns = columns)
    (hst : r.mStyle.length = columns) (hroom : columns ≤ r.mText.length)
    (hT : 32767 < columns → T) :
    Runs T E (fun r' => Valid columns r' ∧ Blank columns style r' ∧ r'.mLineWrap = r.mLineWrap)
      fun _ => r.clear style := by
  refine runs_of_store (n := columns) (fun m => ?_) h₀ hT (f := fun n => { r with
    mText := List.replicate r.mText.length 0x20
    mStyle := List.replicate r.mStyle.length style
    mSpaceUsed := n
    mHasNonOneWidthOrSurrogateChars := false }) fun hshort => ⟨⟨⟨hc,
      List.replicate columns.toNat Cell.blank, ?_⟩, ?_⟩, ⟨hc, ?_, ?_, hshort.symm, rfl⟩, rfl⟩
  · rw [clear, hc]
    rfl
  · exact {
      text := by
        refine ⟨List.replicate (r.mText.length - columns.toNat) 0x20, ?_⟩
        rw [encode_blanks, List.replicate_append_replicate]
        simp only
        congr 1
        omega
      space := by simp [encode_blanks, h₀]
      columns := by
        rw [totalColumns_blanks, hc]
        omega
      styles := by simp [hc, hst]
      simple := fun _ c hc => (List.eq_of_mem_replicate hc) ▸ Cell.blank_simple }
  · simpa using hroom
  · exact fun c hc => List.eq_of_mem_replicate hc
  · simp only
    congr 1
    omega

/-- Clearing a valid row. -/
theorem Valid.clear_runs {style : Style} (h : Valid columns r) (h₀ : 0 ≤ columns)
    (hT : 32767 < columns → T) :
    Runs T E (fun r' => Valid columns r' ∧ Blank columns style r' ∧ r'.mLineWrap = r.mLineWrap)
      fun _ => r.clear style := by
  obtain ⟨⟨hc, cells, hcells⟩, hroom⟩ := h
  exact TerminalRow.clear_runs h₀ hc (by rw [hcells.styles, hc]) hroom hT

theorem new_runs {style : Style} (h₀ : 0 ≤ columns) (hT : 32767 < columns → T) :
    Runs T E (fun r' => Valid columns r' ∧ Blank columns style r' ∧ r'.mLineWrap = false)
      fun _ => new columns style := by
  have key (m : ShortStore) : new columns style = clear
      { mColumns := columns, mText := List.replicate (columns * 3 / 2).toNat 0, mSpaceUsed := 0
        mLineWrap := false, mStyle := List.replicate columns.toNat 0
        mHasNonOneWidthOrSurrogateChars := false } style := by
    rw [new, newArray, if_neg (by omega), ok_bind, newArray, if_neg (by omega), ok_bind]
  unfold Runs
  simp only [key]
  exact TerminalRow.clear_runs h₀ rfl (by simp [h₀]) (by simp; omega) hT

/-- On the silent machine `clear` returns a blank row, even one that is too long for a `short`. -/
theorem clear_blank (style : Style) (hc : r.mColumns = columns) (hst : r.mStyle.length = columns) :
    ∃ r', r.clear style = .ok r' ∧ Blank columns style r' := by
  refine ⟨_, rfl, hc, fun c hmem => List.eq_of_mem_replicate hmem, ?_, by rw [hc], rfl⟩
  simp only
  congr 1
  omega

theorem new_blank (style : Style) (h₀ : 0 ≤ columns) :
    ∃ r', new columns style = .ok r' ∧ Blank columns style r' := by
  rw [new, newArray, if_neg (by omega), ok_bind, newArray, if_neg (by omega), ok_bind]
  exact clear_blank style rfl (by simp [h₀])

/-! ## `copyInterval` -/

section

variable [ShortStore] {line : TerminalRow} {same : Bool} {x₂ i : Int} {s : CopyState}

theorem copyLoop_codePoint {c : Nat} (hc : isScalar c = true) (hi : i < x₂) (b : Bool)
    (rest : List Nat) :
    copyLoop line same x₂ (toChars c ++ rest) i b s =
      (copyStep line same s (if b then 0x20 else c) >>=
        copyLoop line same x₂ rest (i + charCount c) false) := by
  obtain ⟨h, hh, hcc⟩ | ⟨hi', lo, h, hh, hcp, hcc⟩ := toChars_cases hc
  · rw [h, hcc, List.singleton_append, copyLoop.eq_def]
    simp [hi, hh]
  · rw [h, hcc, List.cons_append, List.singleton_append, copyLoop.eq_def]
    simp [hi, hh, hcp]

theorem copyLoop_done (hi : x₂ ≤ i) (b : Bool) (rest : List Nat) :
    copyLoop line same x₂ rest i b s = .ok s := by
  rw [copyLoop.eq_def]
  exact if_neg (by omega)

end

/-- The next cell goes to column `x`, with the style found at column `y` of the source. -/
structure CopiesTo (columns x y : Int) (s : CopyState) : Prop where
  row : Valid columns s.row
  destination : s.destinationX + s.latestNonCombiningWidth = x
  source : s.sourceX1 + s.latestNonCombiningWidth = y

/-- The cell written last stands at column `x`, and is `w` columns wide. -/
structure CopiedTo (columns x y w : Int) (s : CopyState) : Prop where
  row : Valid columns s.row
  destination : s.destinationX = x
  source : s.sourceX1 = y
  latest : s.latestNonCombiningWidth = w

section

variable {line : TerminalRow} {same : Bool} {n x₂ i x y w : Int} {s : CopyState} {codePoint : Nat}
  (hcols : columns = 1 → E) (hline : Valid n line) (hsame : same = true → n = columns)

include hline hsame in
/-- The style of a column of the source, which may be the row that is being written. -/
theorem getStyle_returns (hrow : Valid columns s.row) (hy : 0 ≤ y) (hyn : y < n) :
    ∃ style, (if same then s.row else line).getStyle y = .ok style := by
  obtain ⟨⟨hr, cells, hcells⟩, -⟩ := hrow
  obtain ⟨⟨hl, cells', hcells'⟩, -⟩ := hline
  have h₁ := hcells.styles
  have h₂ := hcells'.styles
  cases same with
  | true =>
    have := hsame rfl
    obtain ⟨style, -, h⟩ := arrayGet_returns (a := s.row.mStyle) hy (by omega)
    exact ⟨style, h⟩
  | false =>
    obtain ⟨style, -, h⟩ := arrayGet_returns (a := line.mStyle) hy (by omega)
    exact ⟨style, h⟩

include hcols hline hsame

theorem copyStep_base (h : CopiesTo columns x y s) (hs : isScalar codePoint = true)
    (hw : 0 < width codePoint) (hx : 0 ≤ x) (hxw : x + width codePoint ≤ columns) (hy : 0 ≤ y)
    (hyn : y < n) :
    Runs True E (CopiedTo columns x y (width codePoint)) fun _ =>
      copyStep line same s codePoint := by
  obtain ⟨style, hstyle⟩ := getStyle_returns hline hsame h.row hy hyn
  unfold Runs
  simp only [copyStep, if_pos hw, h.destination, h.source, hstyle, ok_bind]
  refine Lockstep.bind (setChar_runs h.row (fun _ => hcols) hx (by omega) hs (fun _ _ => by omega)
    fun _ => trivial) fun r hr => ?_
  exact Lockstep.ok ⟨hr, rfl, rfl, rfl⟩

theorem copyStep_mark (h : CopiedTo columns x y w s) (hs : isScalar codePoint = true)
    (hw : width codePoint = 0) (hx : 0 ≤ x) (hxc : x < columns) (hy : 0 ≤ y) (hyn : y < n) :
    Runs True E (CopiedTo columns x y w) fun _ => copyStep line same s codePoint := by
  obtain ⟨style, hstyle⟩ := getStyle_returns hline hsame h.row hy hyn
  unfold Runs
  simp only [copyStep, hw, lt_irrefl, if_false, h.destination, h.source, hstyle, ok_bind]
  refine Lockstep.bind (setChar_runs h.row (fun _ => hcols) hx hxc hs (fun _ _ => by omega)
    fun _ => trivial) fun r hr => ?_
  exact Lockstep.ok ⟨hr, rfl, rfl, h.latest⟩

variable {Q : CopyState → Prop} {rest : List Nat}

theorem copyLoop_marks {marks : List Nat} (hm : ∀ m ∈ marks, isScalar m = true ∧ width m = 0)
    (h : CopiedTo columns x y w s) (hx : 0 ≤ x) (hxc : x < columns) (hy : 0 ≤ y) (hyn : y < n)
    (hi : i + (spell marks).length ≤ x₂)
    (hrest : ∀ s', CopiedTo columns x y w s' → Runs True E Q fun _ =>
      copyLoop line same x₂ rest (i + (spell marks).length) false s') :
    Runs True E Q fun _ => copyLoop line same x₂ (spell marks ++ rest) i false s := by
  induction marks generalizing i s with
  | nil => simpa using hrest s h
  | cons m marks ih =>
    obtain ⟨hs, hw⟩ := hm m (by simp)
    have := charCount_pos m
    simp only [spell_cons, List.length_append, toChars_length, Nat.cast_add, ← add_assoc] at hi hrest
    simp only [spell_cons, List.append_assoc]
    refine runs_congr (fun m => copyLoop_codePoint hs (by omega) _ _) ?_
    refine Lockstep.bind (copyStep_mark hcols hline hsame h hs hw hx hxc hy hyn) fun s' hs' => ?_
    exact ih (fun m hm' => hm m (by simp [hm'])) hs' (by omega) hrest

/-- One cell; the flag asks for a space in place of its base character. -/
theorem copyLoop_cell (c : Cell) (b : Bool) (h : CopiesTo columns x y s) (hx : 0 ≤ x) (hy : 0 ≤ y)
    (hw : w = if b then 1 else c.columns) (hxw : x + w ≤ columns) (hyw : y + w ≤ n)
    (hi : i + c.chars.length ≤ x₂)
    (hrest : ∀ s', CopiesTo columns (x + w) (y + w) s' → Runs True E Q fun _ =>
      copyLoop line same x₂ rest (i + c.chars.length) false s') :
    Runs True E Q fun _ => copyLoop line same x₂ (c.chars ++ rest) i b s := by
  obtain ⟨cp, hcp, hs, hwcp⟩ : ∃ cp, (if b then 0x20 else c.base) = cp ∧ isScalar cp = true ∧
      width cp = w := by
    cases b with
    | true => exact ⟨0x20, rfl, by decide, by rw [hw]; exact WcWidth.width_space⟩
    | false => exact ⟨c.base, rfl, c.base_isScalar, by rw [hw]; rfl⟩
  have hwpos : 0 < w := by
    have := c.columns_pos
    rw [hw]
    split_ifs <;> omega
  have hlen : c.chars.length = charCount c.base + (spell c.marks).length := by simp [Cell.chars]
  have := charCount_pos c.base
  simp only [Cell.chars, List.append_assoc]
  refine runs_congr (fun m => copyLoop_codePoint c.base_isScalar (by omega) _ _) ?_
  rw [hcp]
  refine Lockstep.bind (copyStep_base hcols hline hsame h hs (by omega) hx (by omega) hy (by omega)) ?_
  intro s' hs'
  refine copyLoop_marks hcols hline hsame c.marks_zero hs' hx (by omega) hy (by omega) (by omega) ?_
  intro s'' hs''
  have := hrest s'' ⟨hs''.row, by rw [hs''.destination, hs''.latest, hwcp],
    by rw [hs''.source, hs''.latest, hwcp]⟩
  rwa [hlen, Nat.cast_add, ← add_assoc] at this

theorem copyLoop_cells {cells : List Cell} (h : CopiesTo columns x y s) (hx : 0 ≤ x) (hy : 0 ≤ y)
    (hxw : x + totalColumns cells ≤ columns) (hyw : y + totalColumns cells ≤ n)
    (hi : x₂ = i + (encode cells).length) :
    Runs True E (fun s' => Valid columns s'.row) fun _ =>
      copyLoop line same x₂ (encode cells ++ rest) i false s := by
  induction cells generalizing i x y s with
  | nil =>
    refine runs_of_eq (fun m => copyLoop_done ?_ _ _) h.row
    simp only [encode_nil, List.length_nil] at hi
    omega
  | cons c cells ih =>
    have hpos := c.columns_pos
    have := totalColumns_nonneg cells
    simp only [totalColumns_cons, encode_cons, List.length_append, Nat.cast_add] at hxw hyw hi
    simp only [encode_cons, List.append_assoc]
    refine copyLoop_cell hcols hline hsame c false h hx hy rfl (by simp; omega) (by simp; omega)
      (by omega) fun s' hs' => ?_
    exact ih hs' (by simp; omega) (by simp; omega) (by simp; omega) (by simp; omega) (by omega)

end

/-- Raising the flag of a row keeps it valid. -/
theorem Valid.flag (h : Valid columns r) (b : Bool) :
    Valid columns { r with
      mHasNonOneWidthOrSurrogateChars := r.mHasNonOneWidthOrSurrogateChars || b } := by
  obtain ⟨⟨hc, cells, hcells⟩, hroom⟩ := h
  refine ⟨⟨hc, cells, hcells.text, hcells.space, hcells.columns, hcells.styles, ?_⟩, hroom⟩
  exact fun hf => hcells.simple (Bool.or_eq_false_iff.mp hf).1

/-- A column cuts the cells in two; a wide cell that it splits goes to the right. -/
def CutAt (k : Int) (pre post : List Cell) : Prop :=
  totalColumns pre = k ∨ (totalColumns pre + 1 = k ∧ ∃ c post', post = c :: post' ∧ c.columns = 2)

theorem exists_cutAt {cells : List Cell} {k : Int} (h : Represents r cells) (h₀ : 0 ≤ k)
    (hk : k ≤ r.mColumns) :
    ∃ pre post, cells = pre ++ post ∧ CutAt k pre post ∧
      r.findStartOfColumn k = .ok (encode pre).length := by
  by_cases hlt : k < r.mColumns
  · obtain ⟨pre, c, post, rfl, hp⟩ := exists_cell_at h₀ (by rw [h.columns]; exact hlt)
    obtain rfl | ⟨hc, rfl⟩ := hp
    · exact ⟨pre, c :: post, rfl, .inl rfl, findStartOfColumn_boundary h⟩
    · exact ⟨pre, c :: post, rfl, .inr ⟨rfl, c, post, rfl, hc⟩, findStartOfColumn_second h hc⟩
  · have hk' : k = totalColumns cells := by
      rw [h.columns]
      omega
    subst hk'
    refine ⟨cells, [], by simp, .inl rfl, ?_⟩
    exact findStartOfColumn_boundary (show Represents r (cells ++ []) by simpa using h)

/-- Of two cuts, the left one takes away fewer cells. -/
theorem CutAt.between {k₁ k₂ : Int} {pre₁ post₁ pre₂ post₂ : List Cell} (h₁ : CutAt k₁ pre₁ post₁)
    (h₂ : CutAt k₂ pre₂ post₂) (hk : k₁ ≤ k₂) (h : pre₁ ++ post₁ = pre₂ ++ post₂) :
    ∃ mid, pre₂ = pre₁ ++ mid ∧ post₁ = mid ++ post₂ := by
  obtain ⟨mid, h₁', h₂'⟩ | ⟨mid, rfl, rfl⟩ := List.append_eq_append_iff.mp h
  · exact ⟨mid, h₁', h₂'⟩
  · cases mid with
    | nil => exact ⟨[], by simp, by simp⟩
    | cons d mid =>
      exfalso
      have hd := d.columns_pos
      have hmid := totalColumns_nonneg mid
      have hk₁ : totalColumns (pre₂ ++ d :: mid) ≤ k₁ := by
        obtain h | h := h₁ <;> omega
      rw [totalColumns_append, totalColumns_cons] at hk₁
      obtain h | ⟨h, c, post', he, hc⟩ := h₂
      · omega
      · rw [List.cons_append, List.cons.injEq] at he
        rw [he.1] at hk₁
        omega

/-- A reversed interval is empty, wherever its ends are. -/
theorem copyInterval_reversed {line : TerminalRow} {same : Bool} {n x₁ x₂ x : Int} (hE : E)
    (h : Valid columns r) (hc : 0 < columns) (hline : Valid n line) (hn : 0 < n) (hx : x₂ < x₁) :
    Runs T E (Valid columns) fun _ => r.copyInterval line same x₁ x₂ x := by
  obtain ⟨r', hr'⟩ : ∃ r', r' = { r with
    mHasNonOneWidthOrSurrogateChars :=
      r.mHasNonOneWidthOrSurrogateChars || line.mHasNonOneWidthOrSurrogateChars } := ⟨_, rfl⟩
  have hrow : Valid columns r' := hr' ▸ h.flag _
  obtain ⟨line', hline'⟩ : ∃ line', line' = if same then r' else line := ⟨_, rfl⟩
  obtain ⟨hlc, cells, hcells⟩ : 0 < line'.mColumns ∧ ∃ cells, Represents line' cells := by
    cases same with
    | true =>
      obtain ⟨⟨hc', cells, hcells⟩, -⟩ := hrow
      subst hline'
      exact ⟨hc' ▸ hc, cells, hcells⟩
    | false =>
      obtain ⟨⟨hc', cells, hcells⟩, -⟩ := hline
      subst hline'
      exact ⟨hc' ▸ hn, cells, hcells⟩
  simp only [copyInterval, ← hr', ← hline']
  cases ha : line'.findStartOfColumn x₁ with
  | error e => exact Lockstep.error hE _
  | ok a =>
  cases hb : line'.findStartOfColumn x₂ with
  | error e => exact Lockstep.error hE _
  | ok b =>
  have hle : b ≤ a := findStartOfColumn_mono hcells hlc hx.le hb ha
  simp only [ok_bind]
  cases hwide : (if 0 < x₁ then line'.wideDisplayCharacterStartingAt (x₁ - 1) else .ok false) with
  | error e => exact Lockstep.error hE _
  | ok wide =>
  refine runs_of_eq (fun m => ?_) hrow
  rw [ok_bind, if_neg (by omega), copyLoop_done hle, ok_bind]
  rfl

theorem copyInterval_runs {line : TerminalRow} {same : Bool} {n x₁ x₂ x : Int}
    (h : Valid columns r) (hcols : columns = 1 → E) (hline : Valid n line)
    (hsame : same = true → line = r) (h₁ : 0 ≤ x₁) (h₂ : x₁ ≤ x₂) (h₃ : x₂ ≤ n) (hx : 0 ≤ x)
    (hx' : x + (x₂ - x₁) ≤ columns) :
    Runs True E (Valid columns) fun _ => r.copyInterval line same x₁ x₂ x := by
  -- The row with the flag of the source, and the source as the copy sees it.
  obtain ⟨r', hr'⟩ : ∃ r', r' = { r with
    mHasNonOneWidthOrSurrogateChars :=
      r.mHasNonOneWidthOrSurrogateChars || line.mHasNonOneWidthOrSurrogateChars } := ⟨_, rfl⟩
  have hrow : Valid columns r' := hr' ▸ h.flag _
  obtain ⟨line', hline'⟩ : ∃ line', line' = if same then r' else line := ⟨_, rfl⟩
  have hn : same = true → n = columns := by
    rintro hs
    rw [hsame hs] at hline
    exact hline.spells.1.symm.trans h.spells.1
  have hsource : Valid n line' := by
    cases same with
    | true =>
      rw [hline', hn rfl]
      exact hrow
    | false =>
      rw [hline']
      exact hline
  obtain ⟨⟨hlc, cells, hcells⟩, -⟩ := id hsource
  obtain ⟨pre₁, post₁, rfl, hcut₁, hstart₁⟩ := exists_cutAt hcells h₁ (by omega)
  obtain ⟨pre₂, post₂, hpre₂, hcut₂, hstart₂⟩ := exists_cutAt hcells (k := x₂) (by omega) (by omega)
  obtain ⟨mid, rfl, rfl⟩ := hcut₁.between hcut₂ h₂ hpre₂
  obtain ⟨slack, htext⟩ := hcells.text
  have hdrop : line'.mText.drop (encode pre₁).length =
      encode mid ++ (encode post₂ ++ slack) := by
    rw [htext]
    simp
  have hmid : totalColumns pre₁ + totalColumns mid ≤ x₂ := by
    rw [← totalColumns_append]
    obtain h | h := hcut₂ <;> omega
  obtain ⟨b, hb, hbcut⟩ : ∃ b, (if 0 < x₁ then line'.wideDisplayCharacterStartingAt (x₁ - 1)
      else .ok false) = .ok b ∧ ((b = false ∧ totalColumns pre₁ = x₁) ∨ (b = true ∧
        totalColumns pre₁ + 1 = x₁ ∧ ∃ c post', mid ++ post₂ = c :: post' ∧ c.columns = 2)) := by
    obtain rfl | ⟨rfl, c, post', he, hc⟩ := hcut₁
    · exact ⟨false, wasExtraCol_eq hcells, .inl ⟨rfl, rfl⟩⟩
    · exact ⟨true, wasExtraCol_second (he ▸ hcells) hc, .inr ⟨rfl, rfl, c, post', he, hc⟩⟩
  have key (m : ShortStore) : r.copyInterval line same x₁ x₂ x =
      (copyLoop line' same (encode (pre₁ ++ mid)).length (encode mid ++ (encode post₂ ++ slack))
        (encode pre₁).length b ⟨r', 0, x₁, x⟩ >>= fun s => .ok s.row) := by
    rw [copyInterval, ← hr', ← hline']
    simp only [hstart₁, hstart₂, hb, ok_bind, Int.toNat_natCast, hdrop]
    rw [if_neg (by omega)]
    rfl
  refine runs_congr key (Lockstep.bind (P := fun s => Valid columns s.row) ?_ fun s hs => .ok hs)
  have hstate : CopiesTo columns x x₁ ⟨r', 0, x₁, x⟩ := ⟨hrow, by simp, by simp⟩
  obtain ⟨rfl, hp⟩ | ⟨rfl, hp, c, post', he, hc⟩ := hbcut
  · exact copyLoop_cells hcols hsource hn hstate hx h₁ (by omega) (by omega) (by simp)
  · cases mid with
    | nil =>
      refine runs_of_eq (fun m => copyLoop_done ?_ _ _) hrow
      simp
    | cons d mid =>
      rw [List.cons_append, List.cons.injEq] at he
      have hd : d.columns = 2 := he.1 ▸ hc
      rw [totalColumns_cons] at hmid
      have := totalColumns_nonneg mid
      simp only [encode_cons, List.append_assoc]
      refine copyLoop_cell hcols hsource hn d true hstate hx h₁ rfl (by simp; omega) (by simp; omega)
        (by simp) fun s' hs' => ?_
      exact copyLoop_cells hcols hsource hn hs' (by simp; omega) (by simp; omega) (by simp; omega)
        (by simp; omega) (by simp; omega)

end TerminalRow

end XoDos
