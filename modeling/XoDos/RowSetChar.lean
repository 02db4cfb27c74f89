import XoDos.RowStore

/-!
# `setChar` on a row of cells

A wide cell that is half overwritten first becomes two spaces; then the
character is stored at a column where a cell starts.
-/

namespace XoDos

open WcWidth (width)

/-! ## Where cells start -/

/-- No wide cell starts one column before another cell ends. -/
theorem no_wide_before {pre post pre' post' : List Cell} {d : Cell}
    (h : pre ++ post = pre' ++ d :: post') (hd : d.columns = 2) :
    totalColumns pre' + 1 ≠ totalColumns pre := by
  induction pre generalizing pre' with
  | nil =>
    have := totalColumns_nonneg pre'
    rw [totalColumns_nil]
    omega
  | cons a pre ih =>
    cases pre' with
    | nil =>
      simp only [List.cons_append, List.nil_append, List.cons.injEq] at h
      have := totalColumns_nonneg pre
      rw [totalColumns_cons, totalColumns_nil, h.1]
      omega
    | cons b pre' =>
      simp only [List.cons_append, List.cons.injEq] at h
      have := ih h.2
      rw [totalColumns_cons, totalColumns_cons, h.1]
      omega

/-- At most one cell starts at a column. -/
theorem cell_at_unique {pre post pre' post' : List Cell} {c d : Cell}
    (h : pre ++ c :: post = pre' ++ d :: post') (hp : totalColumns pre = totalColumns pre') :
    pre = pre' ∧ c = d ∧ post = post' := by
  induction pre generalizing pre' with
  | nil =>
    cases pre' with
    | nil => simpa using h
    | cons b pre' =>
      have := totalColumns_pos (List.cons_ne_nil b pre')
      rw [← hp, totalColumns_nil] at this
      omega
  | cons a pre ih =>
    cases pre' with
    | nil =>
      have := totalColumns_pos (List.cons_ne_nil a pre)
      rw [hp, totalColumns_nil] at this
      omega
    | cons b pre' =>
      simp only [List.cons_append, List.cons.injEq] at h
      rw [totalColumns_cons, totalColumns_cons, h.1] at hp
      obtain ⟨h₁, h₂⟩ := ih h.2 (by omega)
      exact ⟨by rw [h.1, h₁], h₂⟩

namespace TerminalRow

variable {T E : Prop} {r : TerminalRow} {pre post : List Cell} {c : Cell} {codePoint : Nat}

/-- `r'` is a row like `r` with the text of `cells` in `styles`. -/
structure Rewritten (r : TerminalRow) (cells : List Cell) (styles : List Style) (r' : TerminalRow) :
    Prop where
  columns : r'.mColumns = r.mColumns
  lineWrap : r'.mLineWrap = r.mLineWrap
  style : r'.mStyle = styles
  cells : Represents r' cells

/-- Besides, `r'` is on the slow path. -/
structure Slow (r : TerminalRow) (cells : List Cell) (styles : List Style) (r' : TerminalRow) :
    Prop extends Rewritten r cells styles r' where
  flag : r'.mHasNonOneWidthOrSurrogateChars = true

theorem Stored.slow {r₀ r' : TerminalRow} {cells cells' : List Cell} {styles : List Style}
    (hr : Slow r₀ cells styles r) (h : Stored r cells' r') : Slow r₀ cells' styles r' :=
  ⟨⟨h.columns.trans hr.columns, h.lineWrap.trans hr.lineWrap, h.style.trans hr.style, h.cells⟩,
    h.flag.trans hr.flag⟩

theorem wideDisplayCharacterStartingAt_wideAt {cells : List Cell} (h : Represents r cells) {k : Int}
    (hk : 0 ≤ k) : r.wideDisplayCharacterStartingAt k = .ok (wideAt k cells) := by
  obtain ⟨b, hb, hiff⟩ := wideDisplayCharacterStartingAt_eq h hk
  rw [hb, Bool.eq_iff_iff.mpr (hiff.trans (wideAt_iff hk).symm)]

/-- Whether column `column` is the second half of a wide character, as `setChar` asks. -/
theorem wasExtraCol_eq (h : Represents r (pre ++ post)) :
    (if 0 < totalColumns pre then r.wideDisplayCharacterStartingAt (totalColumns pre - 1)
      else .ok false) = .ok false := by
  split_ifs with hp
  · obtain ⟨b, hb, hiff⟩ := wideDisplayCharacterStartingAt_eq h (k := totalColumns pre - 1)
      (by omega)
    cases b with
    | false => exact hb
    | true =>
      obtain ⟨pre', d, post', he, hd, hp'⟩ := hiff.mp rfl
      exact absurd (by omega) (no_wide_before he hd)
  · rfl

theorem wasExtraCol_second (h : Represents r (pre ++ c :: post)) (hc : c.columns = 2) :
    (if 0 < totalColumns pre + 1 then
      r.wideDisplayCharacterStartingAt (totalColumns pre + 1 - 1) else .ok false) = .ok true := by
  have := totalColumns_nonneg pre
  obtain ⟨b, hb, hiff⟩ := wideDisplayCharacterStartingAt_eq h (k := totalColumns pre + 1 - 1)
    (by omega)
  rw [if_pos (by omega), hb, hiff.mpr ⟨pre, c, post, rfl, hc, by omega⟩]

/-! ## The cells that are left -/

/-- The marks that a wide character inherits from the cell that starts in its second column: these
of a narrow cell that is not the last one. -/
def inheritedMarks : List Cell → List Nat
  | c :: d :: _ :: _ => if c.columns = 1 ∧ d.columns = 1 then d.marks else []
  | _ => []

theorem inheritedMarks_zero (cells : List Cell) :
    ∀ m ∈ inheritedMarks cells, isScalar m = true ∧ width m = 0 := by
  rw [inheritedMarks.eq_def]
  split
  · rename_i c d _ _
    split_ifs
    · exact d.marks_zero
    · simp
  · simp

/-- The cell that is written over the first columns of `rest`. -/
def writtenCell (codePoint : Nat) (hs : isScalar codePoint = true) (hw : 0 < width codePoint)
    (rest : List Cell) : Cell :=
  newCell codePoint (if width codePoint = 2 then inheritedMarks rest else []) hs hw (by
    split_ifs
    · exact inheritedMarks_zero rest
    · simp)

/-- Where there are no marks to inherit, the cell has none. -/
theorem writtenCell_plain {hs : isScalar codePoint = true} {hw : 0 < width codePoint}
    {rest : List Cell} (h : width codePoint = 2 → inheritedMarks rest = []) :
    writtenCell codePoint hs hw rest = newCell codePoint [] hs hw (by simp) := by
  rw [writtenCell, newCell, newCell, Cell.mk.injEq]
  refine ⟨rfl, ?_⟩
  split_ifs with hw₂
  · exact h hw₂
  · rfl

/-- The cell that covers column `k` gets one more mark. -/
def markAt (codePoint : Nat) (hs : isScalar codePoint = true) (hw : width codePoint = 0) :
    Int → List Cell → List Cell
  | _, [] => []
  | k, c :: cells =>
    if k < c.columns then addMark c codePoint hs hw :: cells
    else c :: markAt codePoint hs hw (k - c.columns) cells

theorem markAt_append {hs : isScalar codePoint = true} {hw : width codePoint = 0} {k : Int}
    (hk : 0 ≤ k) (hc : k < c.columns) (pre post : List Cell) :
    markAt codePoint hs hw (totalColumns pre + k) (pre ++ c :: post) =
      pre ++ addMark c codePoint hs hw :: post := by
  induction pre with
  | nil => simp [markAt, hc]
  | cons d pre ih =>
    have hpre := totalColumns_nonneg pre
    rw [List.cons_append, totalColumns_cons, markAt, if_neg (by omega),
      show d.columns + totalColumns pre + k - d.columns = totalColumns pre + k by omega, ih,
      List.cons_append]

/-- The styles after `setChar`: the space that takes the place of half a wide cell gets the style,
too. -/
def restyled (cells : List Cell) (column : Int) (codePoint : Nat) (style : Style)
    (styles : List Style) : List Style :=
  let styles := styles.set column.toNat style
  let styles := if wideAt (column - 1) cells then styles.set (column - 1).toNat style else styles
  if width codePoint = 2 ∧ wideAt (column + 1) cells = true then
    styles.set (column + 1).toNat style
  else styles

/-! ## The `char`s on the way -/

/-- A wide cell across column `k` becomes two spaces. -/
def cutColumns (k : Int) (cells : List Cell) : List Cell := takeColumns k cells ++ dropColumns k cells

/-- What the row has at most while a character is stored fits into the counter: wide cells that reach out of
the columns of the character are spaces by then, and nothing behind its first column is removed yet. -/
def CharsFit (codePoint : Nat) (column : Int) (cells : List Cell) : Prop :=
  if width codePoint = 0 then (encode cells).length + charCount codePoint ≤ 32767
  else
    let before := takeColumns column cells
    let rest := cutColumns (width codePoint) (dropColumns column cells)
    (encode (cutColumns column cells)).length ≤ 32767 ∧ (encode (before ++ rest)).length ≤ 32767 ∧
      (encode before).length + charCount codePoint + (encode rest.tail).length ≤ 32767

instance (codePoint : Nat) (column : Int) (cells : List Cell) :
    Decidable (CharsFit codePoint column cells) :=
  inferInstanceAs (Decidable (ite (width codePoint = 0) _ _))

theorem length_cutColumns_le (k : Int) (cells : List Cell) :
    (encode (cutColumns k cells)).length ≤ (encode cells).length + 1 := by
  induction cells generalizing k with
  | nil => simp [cutColumns, takeColumns, dropColumns]
  | cons c cells ih =>
    have hpos := c.chars_length_pos
    rw [cutColumns, takeColumns, dropColumns]
    by_cases hk : k ≤ 0
    · rw [if_pos hk, if_pos hk]
      simp
    · rw [if_neg hk, if_neg hk]
      by_cases hc : c.columns ≤ k
      · have hrest := ih (k - c.columns)
        rw [cutColumns] at hrest
        rw [if_pos hc, if_pos hc, List.cons_append, encode_cons, encode_cons, List.length_append,
          List.length_append]
        omega
      · rw [if_neg hc, if_neg hc]
        simp
        omega

/-- With three `char`s to spare everything fits. -/
theorem CharsFit.of_length {cells : List Cell} (column : Int) (h : (encode cells).length < 32765) :
    CharsFit codePoint column cells := by
  have hcc := charCount_le_two codePoint
  rw [CharsFit]
  split
  · omega
  · have hcut := length_cutColumns_le column cells
    have hrest := length_cutColumns_le (width codePoint) (dropColumns column cells)
    have hsplit : (encode (cutColumns column cells)).length =
        (encode (takeColumns column cells)).length + (encode (dropColumns column cells)).length := by
      rw [cutColumns, encode_append, List.length_append]
    dsimp only
    generalize cutColumns (width codePoint) (dropColumns column cells) = rest at hrest ⊢
    refine ⟨by omega, ?_, ?_⟩
    · rw [encode_append, List.length_append]
      omega
    · cases rest with
      | nil =>
        simp only [List.tail_nil, encode_nil, List.length_nil]
        omega
      | cons c rest =>
        have hpos := c.chars_length_pos
        rw [encode_cons, List.length_append] at hrest
        rw [List.tail_cons]
        omega

/-! ## Storing at a column where a cell starts -/

/-- What `storeChar` needs of the cells behind a wide character. -/
def Fits (codePoint : Nat) (c : Cell) (post : List Cell) : Prop :=
  width codePoint = 2 → c.columns = 1 → ∃ d post', post = d :: post' ∧ d.columns = 1

theorem tail_cutColumns (hw : 0 < width codePoint) (hfits : Fits codePoint c post) :
    (cutColumns (width codePoint) (c :: post)).tail =
      if width codePoint < c.columns then Cell.blank :: post else post := by
  have hcw := WcWidth.width_cases codePoint
  have hpos := c.columns_pos
  have hsome : ¬(width codePoint : Int) ≤ 0 := by omega
  rw [cutColumns, takeColumns, dropColumns, if_neg hsome, if_neg hsome]
  by_cases hc : c.columns ≤ width codePoint
  · rw [if_pos hc, if_pos hc, if_neg (by omega), List.cons_append, List.tail_cons]
    by_cases heq : width codePoint - c.columns = 0
    · rw [heq, takeColumns_zero, dropColumns_zero, List.nil_append]
    · obtain ⟨d, post', rfl, hd⟩ := hfits (by omega) (by omega)
      have hone : width codePoint - c.columns = 1 := by omega
      have hle : d.columns ≤ 1 := by omega
      have hone' : ¬(1 : Int) ≤ 0 := by decide
      rw [hone, takeColumns, dropColumns, if_neg hone', if_neg hone', if_pos hle, if_pos hle, hd, sub_self,
        takeColumns_zero, dropColumns_zero, List.singleton_append]
  · rw [if_neg hc, if_neg hc, if_pos (by omega)]
    rfl

theorem storeChar_fits (h : Represents r (pre ++ c :: post))
    (hflag : r.mHasNonOneWidthOrSurrogateChars = true) (hs : isScalar codePoint = true)
    (hw : 0 < width codePoint) (hfits : Fits codePoint c post)
    (hT : 32767 < (encode pre).length + charCount codePoint +
      (encode (cutColumns (width codePoint) (c :: post)).tail).length → T) :
    Runs T E (Stored r (pre ++ writtenCell codePoint hs hw (c :: post) ::
        dropColumns (width codePoint) (c :: post))) fun _ =>
      r.storeChar (totalColumns pre) codePoint := by
  obtain ⟨slack, hstore⟩ := storeChar_written h hs hw
  have hcw := WcWidth.width_cases codePoint
  have hcc := charCount_le_two codePoint
  have hc := c.chars_length_pos
  have hsp : r.mSpaceUsed = (encode pre).length + c.chars.length + (encode post).length := by
    rw [h.space]
    simp
    omega
  have hcol := h.columns
  have hT₀ : 32767 < ((encode pre).length + charCount codePoint + (encode post).length : Int) → T := by
    intro hn
    apply hT
    rw [tail_cutColumns hw hfits]
    split
    · simp only [encode_cons, List.length_append, Cell.blank_chars, List.length_singleton]
      omega
    · omega
  unfold Runs
  simp only [hstore]
  refine Lockstep.bind (store_runs (by omega) hT₀) ?_
  rintro _ rfl
  obtain h₁ | h₂ := c.columns_cases
  -- A wide character on a narrow cell takes the next one too, and its marks.
  · by_cases hw₂ : width codePoint = 2
    · obtain ⟨d, post', rfl, hd⟩ := hfits hw₂ h₁
      have hdrop : dropColumns (width codePoint) (c :: d :: post') = post' := by
        rw [hw₂, dropColumns, if_neg (by omega), if_pos (by omega), h₁, dropColumns,
          if_neg (by omega), if_pos (by omega), hd]
        exact dropColumns_zero post'
      rw [hdrop]
      cases post' with
      | nil =>
        rw [writtenCell_plain fun _ => rfl]
        exact settleWidth_last hs hw hcol h.styles hflag h₁ hd hw₂ fun hn => hT₀ (by omega)
      | cons e post' =>
        have hinherit : writtenCell codePoint hs hw (c :: d :: e :: post') =
            newCell codePoint d.marks hs hw d.marks_zero := by
          rw [writtenCell, newCell, newCell, Cell.mk.injEq]
          exact ⟨rfl, by rw [if_pos hw₂, inheritedMarks, if_pos ⟨h₁, hd⟩]⟩
        rw [hinherit]
        refine settleWidth_widen hs hw hcol h.styles hflag h₁ hd hw₂ fun hn => hT₀ ?_
        have : (encode (d :: e :: post')).length =
            charCount d.base + (spell d.marks).length + (encode (e :: post')).length := by
          simp [Cell.chars]
          omega
        omega
    · have hdrop : dropColumns (width codePoint) (c :: post) = post := by
        rw [dropColumns, if_neg (by omega), if_pos (by omega),
          show width codePoint - c.columns = 0 by omega, dropColumns_zero]
      rw [hdrop, writtenCell_plain fun h => absurd h hw₂]
      exact settleWidth_same hs hw hcol h.styles hflag (by omega)
  · have hplain : writtenCell codePoint hs hw (c :: post) = newCell codePoint [] hs hw (by simp) := by
      refine writtenCell_plain fun _ => ?_
      rw [inheritedMarks.eq_def]
      split
      · rename_i heq
        injection heq with heq
        rw [if_neg (by rw [← heq]; omega)]
      · rfl
    rw [hplain]
    -- A narrow one on a wide cell leaves a space in the second column.
    by_cases hw₁ : width codePoint = 1
    · have hdrop : dropColumns (width codePoint) (c :: post) = Cell.blank :: post := by
        rw [dropColumns, if_neg (by omega), if_neg (by omega)]
      rw [hdrop]
      refine settleWidth_narrow hs hw hcol h.styles hflag h₂ hw₁ fun hn => hT ?_
      rw [tail_cutColumns hw hfits, if_pos (by omega), encode_cons, List.length_append, Cell.blank_chars,
        List.length_singleton]
      omega
    · have hdrop : dropColumns (width codePoint) (c :: post) = post := by
        rw [dropColumns, if_neg (by omega), if_pos (by omega),
          show width codePoint - c.columns = 0 by omega, dropColumns_zero]
      rw [hdrop]
      exact settleWidth_same hs hw hcol h.styles hflag (by omega)

/-- A wide character does not go into the last column. -/
theorem storeChar_last (h : Represents r (pre ++ [c]))
    (hs : isScalar codePoint = true) (hw : width codePoint = 2) (hc : c.columns = 1) (hE : E)
    {Q : TerminalRow → Prop} (hT : 32767 < (encode pre).length + charCount codePoint → T) :
    Runs T E Q fun _ => r.storeChar (totalColumns pre) codePoint := by
  obtain ⟨slack, hstore⟩ := storeChar_written h hs (by omega)
  have hcc := charCount_le_two codePoint
  have hcl := c.chars_length_pos
  have hsp : r.mSpaceUsed = (encode pre).length + c.chars.length := by
    rw [h.space]
    simp
  have hcol := h.columns
  simp only [totalColumns_append, totalColumns_cons, totalColumns_nil] at hcol
  unfold Runs
  simp only [hstore]
  refine Lockstep.bind (store_runs (by omega) fun hn => hT (by simp at hn; omega)) ?_
  rintro _ rfl
  have key (m : ShortStore) (text : List Nat) (space next : Int) :
      settleWidth r (totalColumns pre) c.columns (width codePoint) text space next =
        .error .illegalArgument := by
    rw [settleWidth, if_neg (by omega), if_pos ⟨hc, hw⟩, if_pos (by omega)]
  rw [key, key]
  exact Lockstep.error hE _

/-! ## The slow path -/

/-- The row as the slow path first changes it. -/
def touched (r : TerminalRow) (column : Int) (style : Style) : TerminalRow :=
  { r with mStyle := r.mStyle.set column.toNat style, mHasNonOneWidthOrSurrogateChars := true }

theorem touched_slow {cells : List Cell} (h : Represents r cells) (column : Int) (style : Style) :
    Slow r cells (r.mStyle.set column.toNat style) (touched r column style) where
  columns := rfl
  lineWrap := rfl
  style := rfl
  flag := rfl
  cells := {
    text := h.text
    space := h.space
    columns := h.columns
    styles := by simpa [touched] using h.styles
    simple := by simp [touched] }

/-- The rest of `setChar` once the fast path is ruled out. -/
def slowPath [ShortStore] (depth : Nat) (r : TerminalRow) (column : Int) (codePoint : Nat)
    (style : Style) (wasExtraColForWideChar : Bool) : Java TerminalRow :=
  if width codePoint ≤ 0 then
    storeChar r (if wasExtraColForWideChar then column - 1 else column) codePoint
  else do
    let r ← (if wasExtraColForWideChar then setCharLoop depth r (column - 1) 0x20 style else .ok r)
    let overwritingWideCharInNextColumn ←
      (if width codePoint = 2 then r.wideDisplayCharacterStartingAt (column + 1) else .ok false)
    let r ←
      (if overwritingWideCharInNextColumn then setCharLoop depth r (column + 1) 0x20 style
      else .ok r)
    storeChar r column codePoint

theorem setCharLoop_slow [ShortStore] (depth : Nat) {column : Int} {style : Style} (h₀ : 0 ≤ column)
    (h : column < r.mStyle.length)
    (hslow : r.mHasNonOneWidthOrSurrogateChars = true ∨ 0x10000 ≤ codePoint ∨ width codePoint ≠ 1) :
    setCharLoop (depth + 1) r column codePoint style =
      ((if 0 < column then (touched r column style).wideDisplayCharacterStartingAt (column - 1)
        else .ok false) >>=
        slowPath depth (touched r column style) column codePoint style) := by
  rw [setCharLoop, if_neg (by omega), arraySet_ok _ h₀ h, ok_bind, if_neg]
  · rfl
  · rintro ⟨h₁, h₂, h₃⟩
    obtain h | h | h := hslow
    · rw [h₁] at h
      cases h
    · omega
    · exact h h₃

/-- A space at the start of a wide cell makes two spaces of it. -/
theorem setCharLoop_blank {r₀ : TerminalRow} {styles : List Style}
    (h : Slow r₀ (pre ++ c :: post) styles r) (hc : c.columns = 2) {depth : Nat} {style : Style}
    (hT : 32767 < (encode (pre ++ Cell.blank :: Cell.blank :: post)).length → T) :
    Runs T E (Slow r₀ (pre ++ Cell.blank :: Cell.blank :: post)
        (styles.set (totalColumns pre).toNat style)) fun _ =>
      setCharLoop (depth + 1) r (totalColumns pre) 0x20 style := by
  have hpre := totalColumns_nonneg pre
  have hpost := totalColumns_nonneg post
  have hcol := h.cells.columns
  have hst := h.cells.styles
  rw [totalColumns_append, totalColumns_cons] at hcol
  have ht := touched_slow h.cells (totalColumns pre) style
  obtain ⟨slack, hstore⟩ := storeChar_written ht.cells (by decide : isScalar 0x20 = true)
    (by simp)
  have key (m : ShortStore) : setCharLoop (depth + 1) r (totalColumns pre) 0x20 style =
      storeChar (touched r (totalColumns pre) style) (totalColumns pre) 0x20 := by
    rw [setCharLoop_slow depth hpre (by omega) (.inl h.flag), wasExtraCol_eq ht.cells, ok_bind, slowPath,
      WcWidth.width_space]
    rfl
  have hc₁ := c.chars_length_pos
  have hsp : r.mSpaceUsed = (encode pre).length + c.chars.length + (encode post).length := by
    rw [h.cells.space]
    simp
    omega
  unfold Runs
  simp only [key, hstore]
  have hcc : charCount 0x20 = 1 := rfl
  have hlength : (encode (pre ++ Cell.blank :: Cell.blank :: post)).length =
      (encode pre).length + (encode post).length + 2 := by
    simp
    omega
  rw [hlength] at hT
  refine Lockstep.bind (store_runs (by omega) fun hn => hT (by omega)) ?_
  rintro _ rfl
  refine (settleWidth_narrow (by decide) (by simp) ht.cells.columns ht.cells.styles ht.flag hc
    WcWidth.width_space fun hn => hT (by omega)).mono fun r' hr' => ?_
  refine ⟨⟨hr'.columns.trans h.columns, hr'.lineWrap.trans h.lineWrap, ?_, hr'.cells⟩,
    hr'.flag.trans ht.flag⟩
  rw [hr'.style, ht.style, h.style]

/-- A combining character never needs the recursion. -/
theorem slowPath_combining (h : Represents r (pre ++ c :: post))
    (hroom : r.mSpaceUsed + charCount codePoint ≤ r.mText.length + r.mColumns ∨ E)
    (hflag : r.mHasNonOneWidthOrSurrogateChars = true) (hs : isScalar codePoint = true)
    (hw : width codePoint = 0) (hT : 32767 < r.mSpaceUsed + charCount codePoint → T) {column : Int}
    {extra : Bool}
    (hk : (if extra then column - 1 else column) = totalColumns pre) {depth : Nat} {style : Style} :
    Runs T E (Stored r (pre ++ addMark c codePoint hs hw :: post)) fun _ =>
      slowPath depth r column codePoint style extra := by
  have key (m : ShortStore) : slowPath depth r column codePoint style extra =
      r.storeChar (totalColumns pre) codePoint := by
    rw [slowPath, if_pos (by omega), hk]
  unfold Runs
  simp only [key]
  exact storeChar_combining h hroom hflag hs hw hT

/-- The end of the slow path, at a column where a cell starts. -/
theorem overwriteNext_runs {r₀ : TerminalRow} {styles : List Style}
    (h : Slow r₀ (pre ++ c :: post) styles r)
    (hs : isScalar codePoint = true) (hw : 0 < width codePoint)
    (hE : width codePoint = 2 → totalColumns pre + 1 = r.mColumns → E)
    (hcut : 32767 < (encode (pre ++ cutColumns (width codePoint) (c :: post))).length → T)
    (hT : 32767 < (encode pre).length + charCount codePoint +
      (encode (cutColumns (width codePoint) (c :: post)).tail).length → T)
    {depth : Nat} {style : Style} :
    Runs T E (Slow r₀ (pre ++ writtenCell codePoint hs hw (c :: post) ::
          dropColumns (width codePoint) (c :: post))
        (if width codePoint = 2 ∧ wideAt 1 (c :: post) = true then
          styles.set (totalColumns pre + 1).toNat style else styles)) (fun _ => do
      let overwritingWideCharInNextColumn ←
        (if width codePoint = 2 then r.wideDisplayCharacterStartingAt (totalColumns pre + 1)
        else .ok false)
      let r ←
        (if overwritingWideCharInNextColumn then
          setCharLoop (depth + 1) r (totalColumns pre + 1) 0x20 style
        else .ok r)
      storeChar r (totalColumns pre) codePoint) := by
  have hpre := totalColumns_nonneg pre
  have hcol := h.cells.columns
  have hcw := WcWidth.width_cases codePoint
  -- Without a wide cell at the next column, the character is stored at once.
  have hdirect (hfits : Fits codePoint c post) : Runs T E (Slow r₀ (pre ++
        writtenCell codePoint hs hw (c :: post) :: dropColumns (width codePoint) (c :: post)) styles)
      fun _ => storeChar r (totalColumns pre) codePoint :=
    (storeChar_fits h.cells h.flag hs hw hfits hT).mono fun _ h' => h'.slow h
  by_cases hw₂ : width codePoint = 2
  swap
  · have hno : ¬(width codePoint = 2 ∧ wideAt 1 (c :: post) = true) := fun h => hw₂ h.1
    simp only [if_neg hw₂, ok_bind, Bool.false_eq_true, if_false, if_neg hno]
    exact hdirect fun h => absurd h hw₂
  have hwide : r.wideDisplayCharacterStartingAt (totalColumns pre + 1) =
      .ok (wideAt 1 (c :: post)) := by
    rw [wideDisplayCharacterStartingAt_wideAt h.cells (by omega), wideAt_append (by omega)]
  simp only [if_pos hw₂, hwide, ok_bind]
  cases hb : wideAt 1 (c :: post) with
  | false =>
    simp only [Bool.false_eq_true, if_false, ok_bind, and_false]
    obtain h₁ | h₂ := c.columns_cases
    swap
    · exact hdirect fun _ h => by omega
    cases post with
    | nil =>
      refine storeChar_last h.cells hs hw₂ h₁ (hE hw₂ ?_) fun hn => hT (by omega)
      simp only [totalColumns_append, totalColumns_cons, totalColumns_nil] at hcol
      omega
    | cons d post =>
      refine hdirect fun _ _ => ⟨d, post, rfl, ?_⟩
      refine d.columns_cases.resolve_right fun hd => ?_
      have htrue := (@wideAt_iff 1 (by omega) (c :: d :: post)).mpr
        ⟨[c], d, post, rfl, hd, by simp [h₁]⟩
      rw [hb] at htrue
      cases htrue
  | true =>
    simp only [if_true, and_true, hw₂]
    obtain ⟨h₁, d, post', rfl, hd⟩ : c.columns = 1 ∧ ∃ d post', post = d :: post' ∧ d.columns = 2 := by
      rw [wideAt] at hb
      have hcases := c.columns_cases
      split_ifs at hb with hlt
      · exact absurd (of_decide_eq_true hb).1 (by omega)
      · cases post with
        | nil => cases hb
        | cons d post' =>
          have hpos := d.columns_pos
          rw [wideAt, if_pos (by omega)] at hb
          exact ⟨by omega, d, post', rfl, (of_decide_eq_true hb).2⟩
    rw [show totalColumns pre + 1 = totalColumns (pre ++ [c]) by simp [h₁]]
    have hr : Slow r₀ ((pre ++ [c]) ++ d :: post') styles r := by simpa using h
    have hspaces : cutColumns (width codePoint) (c :: d :: post') =
        c :: Cell.blank :: Cell.blank :: post' := by
      simp [cutColumns, takeColumns, dropColumns, hw₂, h₁, hd]
    have hsame : cutColumns (width codePoint) (c :: Cell.blank :: Cell.blank :: post') =
        c :: Cell.blank :: Cell.blank :: post' := by
      simp [cutColumns, takeColumns, dropColumns, hw₂, h₁]
    rw [hspaces] at hcut hT
    refine Lockstep.bind (setCharLoop_blank hr hd (by simpa using hcut)) ?_
    intro r' hr'
    have hr'' : Slow r₀ (pre ++ c :: Cell.blank :: Cell.blank :: post')
        (styles.set (totalColumns (pre ++ [c])).toNat style) r' := by simpa using hr'
    have hwritten : writtenCell codePoint hs hw (c :: d :: post') =
        writtenCell codePoint hs hw (c :: Cell.blank :: Cell.blank :: post') := by
      rw [@writtenCell_plain _ _ _ (c :: Cell.blank :: Cell.blank :: post'), writtenCell_plain]
      · intro _
        rw [inheritedMarks.eq_def]
        split
        · rename_i heq
          injection heq with heq₁ heq₂
          injection heq₂ with heq₂ heq₃
          rw [if_neg (by rw [← heq₂]; omega)]
        · rfl
      · intro _
        rw [inheritedMarks]
        split_ifs <;> rfl
    have hdrop : dropColumns (width codePoint) (c :: d :: post') =
        dropColumns (width codePoint) (c :: Cell.blank :: Cell.blank :: post') := by
      simp [hw₂, dropColumns, h₁, hd]
    rw [hw₂] at hdrop
    rw [hwritten, hdrop, ← hw₂]
    exact (storeChar_fits hr''.cells hr''.flag hs hw
      (fun _ _ => ⟨_, _, rfl, Cell.blank_columns⟩) (by rwa [hsame])).mono fun _ h' => h'.slow hr''

/-- The fast path puts one `char` into the array. -/
theorem fastPath {cells : List Cell} (h : Represents r cells) {column : Int} (style : Style)
    (h₀ : 0 ≤ column) (hcol : column < r.mColumns)
    (hflag : r.mHasNonOneWidthOrSurrogateChars = false) (hs : isScalar codePoint = true)
    (hb : codePoint < 0x10000) (hw : width codePoint = 1) :
    ∃ text, arraySet r.mText column codePoint = .ok text ∧
      Represents { r with mText := text, mStyle := r.mStyle.set column.toNat style }
        (cells.set column.toNat (newCell codePoint [] hs (by omega) (by simp))) := by
  obtain ⟨slack, ht⟩ := h.text
  obtain ⟨he, hn⟩ := encode_simple (h.simple hflag)
  have hcols := h.columns
  have hsimple : ∀ d ∈ cells.set column.toNat (newCell codePoint [] hs (by omega) (by simp)),
      d.Simple := by
    intro d hd
    obtain hd | rfl := List.mem_or_eq_of_mem_set hd
    · exact h.simple hflag d hd
    · exact ⟨hb, hw, rfl⟩
  obtain ⟨he', hn'⟩ := encode_simple hsimple
  refine ⟨_, arraySet_ok _ h₀ ?_, ?_⟩
  · rw [ht, he]
    simp
    omega
  · exact {
      text := by
        refine ⟨slack, ?_⟩
        rw [he', ht, he, List.set_append_left _ _ (by simp; omega), List.map_set]
        rfl
      space := by
        rw [he', List.length_map, List.length_set]
        simpa [he] using h.space
      columns := by
        rw [hn', List.length_set, ← hn]
        exact hcols
      styles := by simpa using h.styles
      simple := fun _ => hsimple }

/-! ## `setChar` -/

/-- The cells that a character of positive width leaves. -/
def overwritten (codePoint : Nat) (hs : isScalar codePoint = true) (hw : 0 < width codePoint)
    (column : Int) (cells : List Cell) : List Cell :=
  takeColumns column cells ++ writtenCell codePoint hs hw (dropColumns column cells) ::
    dropColumns (column + width codePoint) cells

theorem takeColumns_boundary (pre post : List Cell) : takeColumns (totalColumns pre) (pre ++ post) = pre := by
  have htake := takeColumns_append le_rfl pre post
  rwa [add_zero, takeColumns_zero, List.append_nil] at htake

theorem dropColumns_boundary (pre post : List Cell) :
    dropColumns (totalColumns pre) (pre ++ post) = post := by
  have hdrop := dropColumns_append le_rfl pre post
  rwa [add_zero, dropColumns_zero] at hdrop

theorem takeColumns_second (hc : c.columns = 2) (pre post : List Cell) :
    takeColumns (totalColumns pre + 1) (pre ++ c :: post) = pre ++ [Cell.blank] := by
  rw [takeColumns_append (by omega), takeColumns, if_neg (by omega), if_neg (by omega)]

theorem dropColumns_second (hc : c.columns = 2) (pre post : List Cell) :
    dropColumns (totalColumns pre + 1) (pre ++ c :: post) = Cell.blank :: post := by
  rw [dropColumns_append (by omega), dropColumns, if_neg (by omega), if_neg (by omega)]

theorem overwritten_boundary (hs : isScalar codePoint = true) (hw : 0 < width codePoint)
    (pre post : List Cell) : overwritten codePoint hs hw (totalColumns pre) (pre ++ post) =
      pre ++ writtenCell codePoint hs hw post :: dropColumns (width codePoint) post := by
  rw [overwritten, takeColumns_boundary, dropColumns_boundary, dropColumns_append hw.le]

theorem overwritten_second (hs : isScalar codePoint = true) (hw : 0 < width codePoint)
    (hc : c.columns = 2) (pre post : List Cell) :
    overwritten codePoint hs hw (totalColumns pre + 1) (pre ++ c :: post) =
      (pre ++ [Cell.blank]) ++ writtenCell codePoint hs hw (Cell.blank :: post) ::
        dropColumns (width codePoint) (Cell.blank :: post) := by
  have hpre := totalColumns_nonneg pre
  rw [overwritten, takeColumns_second hc, dropColumns_second hc,
    ← dropColumns_dropColumns (by omega) hw.le, dropColumns_second hc]

theorem restyled_boundary (pre post : List Cell) (style : Style) (styles : List Style) :
    restyled (pre ++ post) (totalColumns pre) codePoint style styles =
      if width codePoint = 2 ∧ wideAt 1 post = true then
        (styles.set (totalColumns pre).toNat style).set (totalColumns pre + 1).toNat style
      else styles.set (totalColumns pre).toNat style := by
  have hbefore : wideAt (totalColumns pre - 1) (pre ++ post) = false := by
    apply Bool.eq_false_iff.mpr
    intro hwide
    by_cases hk : 0 ≤ totalColumns pre - 1
    · obtain ⟨pre', d, post', he, hd, hp⟩ := (wideAt_iff hk).mp hwide
      exact no_wide_before he hd (by omega)
    · rw [wideAt_neg (by omega)] at hwide
      cases hwide
  simp only [restyled, hbefore, Bool.false_eq_true, if_false]
  rw [wideAt_append (by omega)]

theorem restyled_second (hc : c.columns = 2) (pre post : List Cell) (style : Style)
    (styles : List Style) :
    restyled (pre ++ c :: post) (totalColumns pre + 1) codePoint style styles =
      if width codePoint = 2 ∧ wideAt 1 (Cell.blank :: post) = true then
        ((styles.set (totalColumns pre + 1).toNat style).set (totalColumns pre).toNat style).set
          (totalColumns pre + 1 + 1).toNat style
      else (styles.set (totalColumns pre + 1).toNat style).set (totalColumns pre).toNat style := by
  have hbefore : wideAt (totalColumns pre) (pre ++ c :: post) = true :=
    (wideAt_iff (totalColumns_nonneg pre)).mpr ⟨pre, c, post, rfl, hc, rfl⟩
  have hafter : wideAt (totalColumns pre + 1 + 1) (pre ++ c :: post) =
      wideAt 1 (Cell.blank :: post) := by
    rw [add_assoc, wideAt_append (by omega), wideAt, if_neg (by omega), wideAt, Cell.blank_columns,
      if_neg (by omega), hc]
    rfl
  simp only [restyled, add_sub_cancel_right, hbefore, if_true, hafter]

/-- The fast path writes over one narrow cell. -/
theorem setChar_fast {cells : List Cell} (h : Represents r cells) {column : Int}
    (h₀ : 0 ≤ column) (hcol : column < r.mColumns) (hs : isScalar codePoint = true)
    (hw : 0 < width codePoint) {style : Style}
    (hfast : r.mHasNonOneWidthOrSurrogateChars = false ∧ codePoint < 0x10000 ∧
      width codePoint = 1) :
    Runs T E (Rewritten r (overwritten codePoint hs hw column cells)
        (restyled cells column codePoint style r.mStyle)) fun _ =>
      r.setChar column codePoint style := by
  have hst := h.styles
  obtain ⟨text, htext, hrep⟩ := fastPath h style h₀ hcol hfast.1 hs hfast.2.1 hfast.2.2
  obtain ⟨pre, c, post, rfl, hp⟩ := exists_cell_at h₀ (by rw [h.columns]; exact hcol)
  have hsimple := h.simple hfast.1
  have hc : c.columns = 1 := (hsimple c (by simp)).2.1
  obtain rfl | ⟨hc₂, -⟩ := hp
  swap
  · omega
  have hset : (pre ++ c :: post).set (totalColumns pre).toNat (newCell codePoint [] hs hw (by simp)) =
      overwritten codePoint hs hw (totalColumns pre) (pre ++ c :: post) := by
    rw [overwritten_boundary, writtenCell_plain fun h => by omega,
      (encode_simple fun d hd => hsimple d (by simp [hd])).2, Int.toNat_natCast,
      List.set_append_right _ _ (le_refl _), Nat.sub_self, List.set_cons_zero, hfast.2.2,
      dropColumns, if_neg (by omega), if_pos (by omega), hc, sub_self, dropColumns_zero]
  have hstyle : restyled (pre ++ c :: post) (totalColumns pre) codePoint style r.mStyle =
      r.mStyle.set (totalColumns pre).toNat style := by
    rw [restyled_boundary, if_neg fun h => by omega]
  rw [hset] at hrep
  rw [hstyle]
  refine runs_of_eq (a := { r with mText := text, mStyle := r.mStyle.set _ style }) (fun m => ?_)
    ⟨rfl, rfl, rfl, hrep⟩
  rw [setChar, setCharLoop, if_neg (by omega), arraySet_ok _ h₀ (by omega), ok_bind,
    if_pos hfast, htext, ok_bind]
  rfl

/-- When the fast path is not taken. -/
theorem slow_of_not_fast (h : ¬(r.mHasNonOneWidthOrSurrogateChars = false ∧ codePoint < 0x10000 ∧
      width codePoint = 1)) :
    r.mHasNonOneWidthOrSurrogateChars = true ∨ 0x10000 ≤ codePoint ∨ width codePoint ≠ 1 := by
  by_contra hc
  push Not at hc
  exact h ⟨by simpa using hc.1, hc.2.1, hc.2.2⟩

/-- A narrow character in place of a narrow cell needs no more room than it takes. -/
theorem setChar_narrow (h : Represents r (pre ++ c :: post)) (hc : c.columns = 1)
    (hs : isScalar codePoint = true) (hw : width codePoint = 1) {style : Style}
    (hT : 32767 < ((encode pre).length + charCount codePoint + (encode post).length : Int) → T) :
    Runs T E (Rewritten r (pre ++ newCell codePoint [] hs (by omega) (by simp) :: post)
        (r.mStyle.set (totalColumns pre).toNat style)) fun _ =>
      r.setChar (totalColumns pre) codePoint style := by
  have hpre := totalColumns_nonneg pre
  have hpost := totalColumns_nonneg post
  have hst := h.styles
  have hcol := h.columns
  rw [totalColumns_append, totalColumns_cons] at hcol
  by_cases hfast : r.mHasNonOneWidthOrSurrogateChars = false ∧ codePoint < 0x10000 ∧
      width codePoint = 1
  · have hruns := @setChar_fast T E _ _ _ h _ hpre (by omega) hs (by omega) style hfast
    have hdrop : dropColumns (width codePoint) (c :: post) = post := by
      rw [dropColumns, if_neg (by omega), if_pos (by omega),
        show width codePoint - c.columns = 0 by omega, dropColumns_zero]
    rw [overwritten_boundary, writtenCell_plain fun h => by omega, restyled_boundary,
      if_neg fun h => by omega, hdrop] at hruns
    exact hruns
  have ht := touched_slow h (totalColumns pre) style
  obtain ⟨slack, hstore⟩ := storeChar_written ht.cells hs (show 0 < width codePoint by omega)
  have key (m : ShortStore) : r.setChar (totalColumns pre) codePoint style =
      storeChar (touched r (totalColumns pre) style) (totalColumns pre) codePoint := by
    rw [setChar, setCharLoop_slow _ hpre (by omega) (slow_of_not_fast hfast), wasExtraCol_eq ht.cells,
      ok_bind, slowPath, if_neg (by omega)]
    simp only [Bool.false_eq_true, if_false, ok_bind, if_neg (show ¬width codePoint = 2 by omega)]
  unfold Runs
  simp only [key, hstore]
  refine Lockstep.bind (store_runs (by omega) hT) ?_
  rintro _ rfl
  exact (settleWidth_same hs (by omega) ht.cells.columns ht.cells.styles ht.flag (by omega)).mono
    fun _ h' => (h'.slow ht).toRewritten

/-- A character of positive width takes the place of the cells that cover its columns. -/
theorem setChar_overwrites {cells : List Cell} (h : Represents r cells) {column : Int}
    (h₀ : 0 ≤ column) (hcol : column < r.mColumns) (hs : isScalar codePoint = true)
    (hw : 0 < width codePoint) {style : Style}
    (hE : width codePoint = 2 → column + 1 = r.mColumns → E) (hT : ¬CharsFit codePoint column cells → T) :
    Runs T E (Rewritten r (overwritten codePoint hs hw column cells)
        (restyled cells column codePoint style r.mStyle)) fun _ =>
      r.setChar column codePoint style := by
  have hst := h.styles
  by_cases hfast : r.mHasNonOneWidthOrSurrogateChars = false ∧ codePoint < 0x10000 ∧
      width codePoint = 1
  · exact setChar_fast h h₀ hcol hs hw hfast
  have key (m : ShortStore) : r.setChar column codePoint style = _ :=
    setCharLoop_slow (column.toNat + 2) h₀ (by omega) (slow_of_not_fast hfast)
  have ht := touched_slow h column style
  obtain ⟨pre, c, post, rfl, hp⟩ := exists_cell_at h₀ (by rw [h.columns]; exact hcol)
  unfold Runs
  simp only [key]
  -- In the second column of a wide cell the source first writes a space over the first one.
  obtain rfl | ⟨hc, rfl⟩ := hp
  · rw [wasExtraCol_eq ht.cells, overwritten_boundary, restyled_boundary]
    simp only [ok_bind, slowPath, if_neg (not_le.mpr hw), Bool.false_eq_true, if_false]
    have hcut : cutColumns (totalColumns pre) (pre ++ c :: post) = pre ++ c :: post := by
      rw [cutColumns, takeColumns_boundary, dropColumns_boundary]
    rw [CharsFit, if_neg hw.ne', takeColumns_boundary, dropColumns_boundary, hcut] at hT
    exact (overwriteNext_runs ht hs hw hE (fun hn => hT fun h => by omega) fun hn =>
      hT fun h => by omega).mono fun _ h' => h'.toRewritten
  · rw [wasExtraCol_second ht.cells hc, overwritten_second hs hw hc, restyled_second hc]
    simp only [ok_bind, slowPath, if_neg (not_le.mpr hw), if_true]
    rw [show totalColumns pre + 1 - 1 = totalColumns pre by omega]
    have hcut : cutColumns (totalColumns pre + 1) (pre ++ c :: post) =
        (pre ++ [Cell.blank]) ++ Cell.blank :: post := by
      rw [cutColumns, takeColumns_second hc, dropColumns_second hc]
    rw [CharsFit, if_neg hw.ne', takeColumns_second hc, dropColumns_second hc, hcut] at hT
    refine Lockstep.bind (setCharLoop_blank ht hc fun hn => hT fun h => ?_) ?_
    · have hfit := h.1
      rw [List.append_assoc] at hfit
      exact absurd hn (not_lt.mpr hfit)
    intro r' hr'
    have hr'' : Slow r ((pre ++ [Cell.blank]) ++ Cell.blank :: post)
        ((r.mStyle.set (totalColumns pre + 1).toNat style).set (totalColumns pre).toNat style) r' := by
      simpa using hr'
    have hk : totalColumns pre + 1 = totalColumns (pre ++ [Cell.blank]) := by simp
    rw [hk] at hE hr'' ⊢
    exact (overwriteNext_runs hr'' hs hw (fun h₁ h₂ => hE h₁ (by rw [h₂, hr''.columns]))
      (fun hn => hT fun h => by omega) fun hn => hT fun h => by omega).mono fun _ h' => h'.toRewritten

/-- A zero-width character joins the cell that covers its column. -/
theorem setChar_marks {cells : List Cell} (h : Represents r cells) {column : Int}
    (h₀ : 0 ≤ column) (hcol : column < r.mColumns) (hs : isScalar codePoint = true)
    (hw : width codePoint = 0) {style : Style}
    (hroom : r.mSpaceUsed + charCount codePoint ≤ r.mText.length + r.mColumns ∨ E)
    (hT : ¬CharsFit codePoint column cells → T) :
    Runs T E (Rewritten r (markAt codePoint hs hw column cells) (r.mStyle.set column.toNat style))
      fun _ => r.setChar column codePoint style := by
  have hst := h.styles
  have key (m : ShortStore) : r.setChar column codePoint style = _ :=
    setCharLoop_slow (column.toNat + 2) h₀ (by omega) (.inr (.inr (by omega)))
  have ht := touched_slow h column style
  obtain ⟨pre, c, post, rfl, hp⟩ := exists_cell_at h₀ (by rw [h.columns]; exact hcol)
  have hpos := c.columns_pos
  have hfull (hn : 32767 < r.mSpaceUsed + charCount codePoint) : T := by
    apply hT
    rw [CharsFit, if_pos hw]
    rw [h.space] at hn
    omega
  have hstored {k : Int} {extra : Bool}
      (hk : (if extra then k - 1 else k) = totalColumns pre) :
      Runs T E (Rewritten r (pre ++ addMark c codePoint hs hw :: post)
        (r.mStyle.set column.toNat style)) fun _ =>
        slowPath (column.toNat + 2) (touched r column style) k codePoint style extra :=
    (slowPath_combining ht.cells hroom ht.flag hs hw hfull
      hk).mono fun _ h' => (h'.slow ht).toRewritten
  unfold Runs
  simp only [key]
  obtain rfl | ⟨hc, rfl⟩ := hp
  · have hmark := @markAt_append _ _ hs hw _ le_rfl hpos pre post
    rw [add_zero] at hmark
    rw [wasExtraCol_eq ht.cells, hmark]
    exact hstored (by simp)
  · rw [wasExtraCol_second ht.cells hc, markAt_append (by omega) (by omega)]
    exact hstored (by simp)

theorem setChar_spells {columns column : Int} (h : Spells columns r)
    (hcols : width codePoint = 0 → columns = 1 → E) (h₀ : 0 ≤ column) (hcol : column < columns)
    (hs : isScalar codePoint = true) {style : Style}
    (hE : width codePoint = 2 → column + 1 = columns → E) (hT : 32765 ≤ r.mSpaceUsed → T) :
    Runs T E (Spells columns) fun _ => r.setChar column codePoint style := by
  obtain ⟨rfl, cells, h⟩ := h
  have hvalid {cells : List Cell} {styles : List Style} {r' : TerminalRow}
      (h' : Rewritten r cells styles r') : Spells r.mColumns r' := ⟨h'.columns, _, h'.cells⟩
  have hfull (hn : ¬CharsFit codePoint column cells) : T := by
    apply hT
    by_contra hlt
    apply hn
    apply CharsFit.of_length
    have hsp := h.space
    omega
  by_cases hw : width codePoint = 0
  · have hroom : r.mSpaceUsed + charCount codePoint ≤ r.mText.length + r.mColumns ∨ E := by
      obtain ⟨slack, ht⟩ := h.text
      have hlen := congrArg List.length ht
      have hcc := charCount_le_two codePoint
      have hsp := h.space
      rw [List.length_append] at hlen
      by_cases h₁ : r.mColumns = 1
      · exact .inr (hcols hw h₁)
      · exact .inl (by omega)
    exact (setChar_marks h h₀ hcol hs hw hroom hfull).mono fun _ h' => hvalid h'
  · have hcw := WcWidth.width_cases codePoint
    exact (setChar_overwrites h h₀ hcol hs (by omega) hE hfull).mono fun _ h' => hvalid h'

end TerminalRow

end XoDos
