import XoDos.BufferInvariant
import XoDos.BufferRows
import XoDos.ProperControls

/-!
# `TerminalRenderer`

A row is drawn in runs: cells one after the other with one style, inside the cursor or not and inside the
selection or not.  A character that the font does not draw as wide as the terminal takes it is a run of its
own.  How wide the font draws a character is a parameter.
-/

namespace XoDos

open WcWidth (width)

/-- What `render` knows about the row that it draws. -/
structure RowPainter where
  columns : Int
  /-- The column of the cursor if it is visible and on this row, or else -1. -/
  cursorX : Int
  selx1 : Int
  selx2 : Int
  /-- `Math.abs(measuredCodePointWidth / mFontWidth - codePointWcWidth) > 0.01` -/
  fontWidthMismatch : Nat → Bool
  /-- `mCurrentColors[COLOR_INDEX_CURSOR]` -/
  cursorColor : BitVec 32
  blockCursor : Bool
  reverseVideo : Bool

/-- A call of `drawTextRun`, without the measured width. -/
structure TextRun where
  startColumn : Int
  runWidthColumns : Int
  startCharIndex : Int
  runWidthChars : Int
  cursor : BitVec 32
  textStyle : Style
  reverseVideo : Bool

/-- The same run, drawn from another column on. -/
def TextRun.startingAt (t : TextRun) (column : Int) : TextRun :=
  { t with startColumn := column, runWidthColumns := t.startColumn + t.runWidthColumns - column }

/-- What a call draws: its background, if that is not the default one, and its text, if that can be seen. -/
structure DrawnRun where
  run : TextRun
  foreColor : BitVec 32
  backColor : BitVec 32
  background : Bool
  text : Bool

/-- Two thirds of each part. -/
def dimColor (foreColor : BitVec 32) : BitVec 32 :=
  let red := (0xff &&& (foreColor >>> 16)).toNat * 2 / 3
  let green := (0xff &&& (foreColor >>> 8)).toNat * 2 / 3
  let blue := (0xff &&& foreColor).toNat * 2 / 3
  0xff000000 + (BitVec.ofNat 32 red <<< 16) + (BitVec.ofNat 32 green <<< 8) + BitVec.ofNat 32 blue

/-- The foreground colour of a style, which may be an index of the palette. -/
def lookUpForeColor (palette : List (BitVec 32)) (textStyle : Style) : Java (BitVec 32) :=
  let foreColor := TextStyle.decodeForeColor textStyle
  let effect := TextStyle.decodeEffect textStyle
  if TextStyle.isTruecolor foreColor then .ok foreColor
  -- Let bold have bright colors if applicable (one of the first 8).
  else if effect &&& (TextStyle.attributeBold ||| TextStyle.attributeBlink) ≠ 0 ∧ 0 ≤ foreColor.toInt ∧
      foreColor.toInt < 8 then
    arrayGet palette (foreColor.toInt + 8)
  else arrayGet palette foreColor.toInt

def lookUpBackColor (palette : List (BitVec 32)) (textStyle : Style) : Java (BitVec 32) :=
  let backColor := TextStyle.decodeBackColor textStyle
  if TextStyle.isTruecolor backColor then .ok backColor else arrayGet palette backColor.toInt

def drawTextRun (palette : List (BitVec 32)) (t : TextRun) : Java DrawnRun := do
  let effect := TextStyle.decodeEffect t.textStyle
  let foreColor ← lookUpForeColor palette t.textStyle
  let backColor ← lookUpBackColor palette t.textStyle
  let reverseVideoHere : Bool := t.reverseVideo ^^ decide (effect &&& TextStyle.attributeInverse ≠ 0)
  let textColor := if reverseVideoHere then backColor else foreColor
  let fillColor := if reverseVideoHere then foreColor else backColor
  let defaultColor ← arrayGet palette TextStyle.colorIndexBackground.toInt
  return {
    run := t
    foreColor := if effect &&& TextStyle.attributeDim ≠ 0 then dimColor textColor else textColor
    backColor := fillColor
    background := fillColor ≠ defaultColor
    text := effect &&& TextStyle.attributeInvisible = 0 }

/-- The colours of a style are those of the table or truecolor. -/
def TextStyle.HasColors (style : Style) : Prop :=
  IsStyleColor (decodeForeColor style) ∧ IsStyleColor (decodeBackColor style)

instance : DecidablePred TextStyle.IsStyleColor := fun color =>
  inferInstanceAs (Decidable (TextStyle.isTruecolor color = true ∨ color.toNat < TextStyle.numIndexedColors))

instance : DecidablePred TextStyle.HasColors := fun style =>
  inferInstanceAs (Decidable (TextStyle.IsStyleColor (TextStyle.decodeForeColor style) ∧
    TextStyle.IsStyleColor (TextStyle.decodeBackColor style)))

section

variable {palette : List (BitVec 32)} {color : BitVec 32}

theorem lookup_exists (hpalette : palette.length = TextStyle.numIndexedColors) {n : Int} (h₀ : 0 ≤ n)
    (hn : n < 259) : ∃ color, arrayGet palette n = .ok color := by
  have hlt : n.toNat < palette.length := by
    rw [hpalette, TextStyle.numIndexedColors]
    omega
  exact ⟨_, arrayGet_ok h₀ (List.getElem?_eq_getElem hlt)⟩

theorem toInt_of_index (h : color.toNat < TextStyle.numIndexedColors) :
    0 ≤ color.toInt ∧ color.toInt < 259 := by
  have hlt : color.toNat < 259 := h
  rw [BitVec.toInt_eq_toNat_of_lt (by omega)]
  omega

theorem lookUpForeColor_exists (hpalette : palette.length = TextStyle.numIndexedColors) {textStyle : Style}
    (h : TextStyle.IsStyleColor (TextStyle.decodeForeColor textStyle)) :
    ∃ color, lookUpForeColor palette textStyle = .ok color := by
  unfold lookUpForeColor
  extract_lets foreColor effect
  split_ifs with htrue hbright
  · exact ⟨_, rfl⟩
  · exact lookup_exists hpalette (by omega) (by omega)
  · obtain ⟨h₀, hlt⟩ := toInt_of_index (h.resolve_left htrue)
    exact lookup_exists hpalette h₀ hlt

theorem lookUpBackColor_exists (hpalette : palette.length = TextStyle.numIndexedColors) {textStyle : Style}
    (h : TextStyle.IsStyleColor (TextStyle.decodeBackColor textStyle)) :
    ∃ color, lookUpBackColor palette textStyle = .ok color := by
  unfold lookUpBackColor
  extract_lets backColor
  split_ifs with htrue
  · exact ⟨_, rfl⟩
  · obtain ⟨h₀, hlt⟩ := toInt_of_index (h.resolve_left htrue)
    exact lookup_exists hpalette h₀ hlt

/-- A run whose colours are in the table can be drawn. -/
theorem drawTextRun_returns (hpalette : palette.length = TextStyle.numIndexedColors) (t : TextRun)
    (ht : TextStyle.HasColors t.textStyle) : ∃ d, drawTextRun palette t = .ok d ∧ d.run = t := by
  obtain ⟨foreColor, hforeColor⟩ := lookUpForeColor_exists hpalette ht.1
  obtain ⟨backColor, hbackColor⟩ := lookUpBackColor_exists hpalette ht.2
  obtain ⟨defaultColor, hdefault⟩ : ∃ defaultColor,
      arrayGet palette TextStyle.colorIndexBackground.toInt = .ok defaultColor :=
    lookup_exists hpalette (by decide) (by decide)
  unfold drawTextRun
  simp only [hforeColor, hbackColor, hdefault, ok_bind]
  exact ⟨_, rfl, rfl⟩

end

namespace RowPainter

/-- The variables of the loop over the columns, and what has been drawn. -/
structure RunState where
  lastRunStyle : Style := 0
  lastRunInsideCursor : Bool := false
  lastRunInsideSelection : Bool := false
  lastRunStartColumn : Int := -1
  lastRunStartIndex : Int := 0
  lastRunFontWidthMismatch : Bool := false
  currentCharIndex : Int := 0
  column : Int := 0
  drawn : List TextRun := []

variable (p : RowPainter)

def insideCursor (column : Int) (codePointWcWidth : Int) : Bool :=
  p.cursorX = column ∨ (codePointWcWidth = 2 ∧ p.cursorX = column + 1)

def insideSelection (column : Int) : Bool := p.selx1 ≤ column ∧ column ≤ p.selx2

/-- The run that ends before `column` and `charIndex`. -/
def lastRun (s : RunState) (column charIndex : Int) : TextRun where
  startColumn := s.lastRunStartColumn
  runWidthColumns := column - s.lastRunStartColumn
  startCharIndex := s.lastRunStartIndex
  runWidthChars := charIndex - s.lastRunStartIndex
  cursor := if s.lastRunInsideCursor then p.cursorColor else 0
  textStyle := s.lastRunStyle
  reverseVideo := p.reverseVideo || (s.lastRunInsideCursor && p.blockCursor) || s.lastRunInsideSelection

/-- Whether a code point cannot be drawn with the last run. -/
def differs (s : RunState) (codePoint : Nat) (style : Style) : Bool :=
  style ≠ s.lastRunStyle ∨ p.insideCursor s.column (width codePoint) ≠ s.lastRunInsideCursor ∨
    p.insideSelection s.column ≠ s.lastRunInsideSelection ∨ p.fontWidthMismatch codePoint ∨
    s.lastRunFontWidthMismatch

/-- One code point: end the last run if this one cannot be drawn with it. -/
def visit (s : RunState) (codePoint : Nat) (style : Style) : RunState :=
  if p.differs s codePoint style then
    { s with
      -- Skip first column as there is nothing to draw, just record the current style.
      drawn := if s.column = 0 then s.drawn else s.drawn ++ [p.lastRun s s.column s.currentCharIndex]
      lastRunStyle := style
      lastRunInsideCursor := p.insideCursor s.column (width codePoint)
      lastRunInsideSelection := p.insideSelection s.column
      lastRunStartColumn := s.column
      lastRunStartIndex := s.currentCharIndex
      lastRunFontWidthMismatch := p.fontWidthMismatch codePoint }
  else s

/-- The code point at `index` and the number of its `char`s. -/
def codePointAt (line : List Nat) (index : Int) : Java (Nat × Int) := do
  let c ← arrayGet line index
  if isHighSurrogate c then
    let low ← arrayGet line (index + 1)
    return (toCodePoint c low, 2)
  else return (c, 1)

/-- The loop over the columns, for as many code points as there are `char`s. -/
def columnLoop (r : TerminalRow) : Nat → RunState → Java RunState
  | 0, s => .ok s
  | n + 1, s => do
    if s.column < p.columns then
      let (codePoint, charsForCodePoint) ← codePointAt r.mText s.currentCharIndex
      let style ← r.getStyle s.column
      let s := p.visit s codePoint style
      -- Eat combining chars so that they are treated as part of the last non-combining code point.
      let next ← TerminalRow.skipCombining r.getSpaceUsed
        (r.mText.drop (s.currentCharIndex + charsForCodePoint).toNat) (s.currentCharIndex + charsForCodePoint)
      columnLoop r n { s with column := s.column + width codePoint, currentCharIndex := next }
    else return s

/-- The runs in which a row is drawn. -/
def drawRow (r : TerminalRow) : Java (List TextRun) := do
  let s ← p.columnLoop r (r.mText.length + 1) {}
  return s.drawn ++ [p.lastRun s p.columns s.currentCharIndex]

/-! ## Cells where they are drawn -/

/-- A cell with its column, the index of its first `char` and its style. -/
structure PlacedCell where
  cell : Cell
  column : Int
  index : Int
  style : Style

/-- The cells of a row, from a column and an index on. -/
def place (styles : List Style) : Int → Int → List Cell → List PlacedCell
  | _, _, [] => []
  | column, index, c :: cells =>
    ⟨c, column, index, styles.getD column.toNat 0⟩ ::
      place styles (column + c.columns) (index + c.chars.length) cells

/-- What has to be the same for two cells to be drawn together. -/
def look (c : PlacedCell) : Style × Bool × Bool :=
  (c.style, p.insideCursor c.column c.cell.columns, p.insideSelection c.column)

/-- A run, with its first cell apart. -/
structure Run where
  first : PlacedCell
  rest : List PlacedCell

def Run.cells (run : Run) : List PlacedCell := run.first :: run.rest

/-- All cells of the run look the same, and the font draws them as wide as they are, if there are several. -/
structure Together (run : Run) : Prop where
  same : ∀ c ∈ run.cells, p.look c = p.look run.first
  fits : run.rest ≠ [] → ∀ c ∈ run.cells, p.fontWidthMismatch c.cell.base = false

def Run.columns (run : Run) : Int := totalColumns (run.cells.map PlacedCell.cell)

def Run.chars (run : Run) : Int := (encode (run.cells.map PlacedCell.cell)).length

/-- The call that draws a run, with the look of its first cell. -/
def call (run : Run) : TextRun where
  startColumn := run.first.column
  runWidthColumns := run.columns
  startCharIndex := run.first.index
  runWidthChars := run.chars
  cursor := if (p.look run.first).2.1 then p.cursorColor else 0
  textStyle := run.first.style
  reverseVideo := p.reverseVideo || ((p.look run.first).2.1 && p.blockCursor) || (p.look run.first).2.2

/-! ## The loop -/

variable {p} {s : RunState} {run : Run}

/-- The variables are those of the run that is being collected, which starts at some column. -/
structure Collects (p : RowPainter) (s : RunState) (run : Run) : Prop where
  together : p.Together run
  look : (s.lastRunStyle, s.lastRunInsideCursor, s.lastRunInsideSelection) = p.look run.first
  index : s.lastRunStartIndex = run.first.index
  mismatch : s.lastRunFontWidthMismatch = p.fontWidthMismatch run.first.cell.base
  column : s.column = run.first.column + run.columns
  charIndex : s.currentCharIndex = run.first.index + run.chars

/-- A run that has been collected is drawn, from the column that is taken for its start. -/
theorem Collects.lastRun_eq (h : Collects p s run) :
    p.lastRun s s.column s.currentCharIndex = (p.call run).startingAt s.lastRunStartColumn := by
  have hstyle : s.lastRunStyle = run.first.style := congrArg Prod.fst h.look
  have hcursor : s.lastRunInsideCursor = (p.look run.first).2.1 := congrArg (fun l => l.2.1) h.look
  have hselection : s.lastRunInsideSelection = (p.look run.first).2.2 := congrArg (fun l => l.2.2) h.look
  have hchars : run.first.index + run.chars - run.first.index = run.chars := by omega
  simp only [lastRun, call, TextRun.startingAt, hstyle, hcursor, hselection, h.index, h.column, h.charIndex,
    hchars]

/-- A run starts where its first cell does. -/
theorem call_startingAt (run : Run) : (p.call run).startingAt run.first.column = p.call run := by
  simp only [call, TextRun.startingAt, add_sub_cancel_left]

/-- Go on behind a cell. -/
def RunState.advance (s : RunState) (c : Cell) : RunState :=
  { s with column := s.column + c.columns, currentCharIndex := s.currentCharIndex + c.chars.length }

/-- A cell is drawn with the run before it, or ends it. -/
theorem visit_collects (h : Collects p s run) {c : PlacedCell} (hcolumn : c.column = s.column)
    (hindex : c.index = s.currentCharIndex) (hne : s.column ≠ 0) :
    (∃ rest, rest = run.rest ++ [c] ∧ Collects p ((p.visit s c.cell.base c.style).advance c.cell) ⟨run.first, rest⟩ ∧
      (p.visit s c.cell.base c.style).drawn = s.drawn ∧
      (p.visit s c.cell.base c.style).lastRunStartColumn = s.lastRunStartColumn) ∨
    (Collects p ((p.visit s c.cell.base c.style).advance c.cell) ⟨c, []⟩ ∧
      (p.visit s c.cell.base c.style).drawn = s.drawn ++ [(p.call run).startingAt s.lastRunStartColumn] ∧
      (p.visit s c.cell.base c.style).lastRunStartColumn = c.column) := by
  have hlook : p.look c =
      (c.style, p.insideCursor s.column (width c.cell.base), p.insideSelection s.column) := by
    rw [look, hcolumn]
    rfl
  unfold visit
  -- A change of look, or a glyph that does not fit its column, ends the run in front of the cell.
  split_ifs with hchange
  · right
    refine ⟨⟨⟨by simp [Run.cells], fun hrest => absurd rfl hrest⟩, hlook.symm, hindex.symm, rfl, ?_, ?_⟩,
      ?_, hcolumn.symm⟩
    · simp [RunState.advance, Run.columns, Run.cells, hcolumn]
    · simp [RunState.advance, Run.chars, Run.cells, hindex]
    · simp only [h.lastRun_eq]
  · left
    simp only [differs, decide_eq_true_eq, not_or, not_not, Bool.not_eq_true] at hchange
    obtain ⟨hstyle, hcursor, hselection, hfits, hlast⟩ := hchange
    have hsame : p.look c = p.look run.first := by
      rw [hlook, ← h.look, hstyle, ← hcursor, ← hselection]
    refine ⟨run.rest ++ [c], rfl, ⟨⟨?_, ?_⟩, h.look, h.index, h.mismatch, ?_, ?_⟩, rfl, rfl⟩
    · intro c' hc'
      simp only [Run.cells, List.mem_cons, List.mem_append, List.not_mem_nil, or_false] at hc'
      rcases hc' with rfl | hc' | rfl
      · rfl
      · exact h.together.same c' (by simp [Run.cells, hc'])
      · exact hsame
    · intro _ c' hc'
      have hfirst : p.fontWidthMismatch run.first.cell.base = false := by rw [← h.mismatch, hlast]
      simp only [Run.cells, List.mem_cons, List.mem_append, List.not_mem_nil, or_false] at hc'
      rcases hc' with rfl | hc' | rfl
      · exact hfirst
      · exact h.together.fits (List.ne_nil_of_mem hc') c' (by simp [Run.cells, hc'])
      · exact hfits
    · have hcol := h.column
      simp only [RunState.advance, Run.columns, Run.cells, List.map_cons, List.map_append, List.map_nil,
        totalColumns_cons, totalColumns_append, totalColumns_nil] at hcol ⊢
      omega
    · have hidx := h.charIndex
      simp only [RunState.advance, Run.chars, Run.cells, List.map_cons, List.map_append, List.map_nil,
        encode_cons, encode_append, encode_nil, List.length_append, List.length_nil] at hidx ⊢
      push_cast at hidx ⊢
      omega

theorem visit_column (codePoint : Nat) (style : Style) :
    (p.visit s codePoint style).column = s.column ∧
      (p.visit s codePoint style).currentCharIndex = s.currentCharIndex := by
  unfold visit
  split_ifs <;> exact ⟨rfl, rfl⟩

theorem codePointAt_eq {c : Nat} (hc : isScalar c = true) (before rest : List Nat) :
    codePointAt (before ++ (toChars c ++ rest)) before.length = .ok (c, (charCount c : Int)) := by
  have hget : ∀ (k : Nat) (x : Nat) (chars : List Nat), chars[k]? = some x →
      arrayGet (before ++ chars) ((before.length : Int) + k) = .ok x := by
    intro k x chars hx
    refine arrayGet_ok (by omega) ?_
    have hindex : ((before.length : Int) + k).toNat = before.length + k := by omega
    rw [hindex, List.getElem?_append_right (by omega), Nat.add_sub_cancel_left]
    exact hx
  unfold codePointAt
  rcases toChars_cases hc with ⟨hchars, hhigh, hcount⟩ | ⟨high, low, hchars, hhigh, hcode, hcount⟩
  · have hfirst := hget 0 c (toChars c ++ rest) (by rw [hchars]; rfl)
    rw [Nat.cast_zero, add_zero] at hfirst
    rw [hfirst, ok_bind, hhigh, hcount]
    rfl
  · have hfirst := hget 0 high (toChars c ++ rest) (by rw [hchars]; rfl)
    have hsecond := hget 1 low (toChars c ++ rest) (by rw [hchars]; rfl)
    rw [Nat.cast_zero, add_zero] at hfirst
    rw [Nat.cast_one] at hsecond
    rw [hfirst, ok_bind, hhigh, if_pos rfl, hsecond, ok_bind, hcode, hcount]
    rfl

section Row

variable {r : TerminalRow} {pre post : List Cell} {c : Cell}

/-- One round of the loop takes one cell. -/
theorem columnLoop_cell (h : Represents r (pre ++ c :: post)) (hp : p.columns = r.mColumns)
    (hcolumn : s.column = totalColumns pre) (hindex : s.currentCharIndex = (encode pre).length) (n : Nat) :
    p.columnLoop r (n + 1) s =
      p.columnLoop r n ((p.visit s c.base (r.mStyle.getD s.column.toNat 0)).advance c) := by
  obtain ⟨slack, ht⟩ := h.text
  have hspace := h.space
  have hcols := h.columns
  have hstyles := h.styles
  have hpos := c.columns_pos
  have hpre := totalColumns_nonneg pre
  have hpost := totalColumns_nonneg post
  rw [totalColumns_append, totalColumns_cons] at hcols
  -- The base is read, and its marks are skipped up to the next cell.
  have hcode : codePointAt r.mText s.currentCharIndex = .ok (c.base, (charCount c.base : Int)) := by
    rw [ht, hindex, encode_append, encode_cons, Cell.chars]
    have hsplit : encode pre ++ (toChars c.base ++ spell c.marks ++ encode post) ++ slack =
        encode pre ++ (toChars c.base ++ (spell c.marks ++ (encode post ++ slack))) := by simp
    rw [hsplit]
    exact codePointAt_eq c.base_isScalar _ _
  have hstyle : r.getStyle s.column = .ok (r.mStyle.getD s.column.toNat 0) := by
    refine arrayGet_ok (by omega) ?_
    rw [List.getD_eq_getElem?_getD, List.getElem?_eq_getElem (by omega)]
    rfl
  have hskip : TerminalRow.skipCombining r.getSpaceUsed
      (r.mText.drop (s.currentCharIndex + charCount c.base).toNat) (s.currentCharIndex + charCount c.base) =
        .ok (s.currentCharIndex + c.chars.length) := by
    have hdrop : r.mText.drop (s.currentCharIndex + charCount c.base).toNat =
        spell c.marks ++ (encode post ++ slack) := by
      have hlength : (s.currentCharIndex + charCount c.base).toNat =
          (encode pre ++ toChars c.base).length := by
        rw [List.length_append, toChars_length, hindex]
        omega
      rw [ht, hlength, encode_append, encode_cons, Cell.chars]
      have hsplit : encode pre ++ (toChars c.base ++ spell c.marks ++ encode post) ++ slack =
          encode pre ++ toChars c.base ++ (spell c.marks ++ (encode post ++ slack)) := by simp
      rw [hsplit, List.drop_left]
    have hused : r.getSpaceUsed = s.currentCharIndex + charCount c.base + (spell c.marks).length +
        (encode post).length := by
      rw [TerminalRow.getSpaceUsed, hspace, hindex, encode_append, encode_cons, Cell.chars]
      simp only [List.length_append, toChars_length]
      push_cast
      omega
    rw [hdrop, TerminalRow.skipCombining_cell c.marks_zero post slack hused]
    congr 1
    rw [Cell.chars, List.length_append, toChars_length]
    push_cast
    omega
  have hvisit := @visit_column p s c.base (r.mStyle.getD s.column.toNat 0)
  rw [columnLoop, if_pos (by omega), hcode, ok_bind]
  simp only [hstyle, ok_bind, hvisit.1, hvisit.2, hskip, RunState.advance]
  rfl

/-- The loop draws what is left of a row, and the run that it has been collecting. -/
theorem columnLoop_runs (cells : List Cell) (h : Represents r (pre ++ cells)) (hp : p.columns = r.mColumns)
    (hpre : pre ≠ []) (hcolumn : s.column = totalColumns pre)
    (hindex : s.currentCharIndex = (encode pre).length) (hs : Collects p s run) {n : Nat}
    (hn : cells.length < n) :
    ∃ s' rest more, p.columnLoop r n s = .ok s' ∧ s'.currentCharIndex = r.mSpaceUsed ∧
      s'.drawn ++ [p.lastRun s' p.columns s'.currentCharIndex] =
        s.drawn ++ (p.call ⟨run.first, rest⟩).startingAt s.lastRunStartColumn :: more.map p.call ∧
      (∀ run' ∈ (⟨run.first, rest⟩ : Run) :: more, p.Together run') ∧
      (((⟨run.first, rest⟩ : Run) :: more).map Run.cells).flatten =
        run.cells ++ place r.mStyle s.column s.currentCharIndex cells := by
  induction cells generalizing pre s run n with
  | nil =>
    rw [List.append_nil] at h
    have hend : s.column = p.columns := by rw [hcolumn, h.columns, hp]
    obtain ⟨k, rfl⟩ : ∃ k, n = k + 1 := ⟨n - 1, by simp only [List.length_nil] at hn; omega⟩
    refine ⟨s, run.rest, [], ?_, ?_, ?_, ?_, ?_⟩
    · rw [columnLoop, if_neg (by omega)]
      rfl
    · rw [hindex, h.space]
    · rw [← hend, hs.lastRun_eq]
      rfl
    · intro run' hrun
      rw [List.mem_singleton.mp hrun]
      exact hs.together
    · simp [place, Run.cells]
  | cons c cells ih =>
    obtain ⟨k, rfl⟩ : ∃ k, n = k + 1 := ⟨n - 1, by simp only [List.length_cons] at hn; omega⟩
    rw [columnLoop_cell h hp hcolumn hindex]
    have hne : s.column ≠ 0 := by
      have := totalColumns_pos hpre
      omega
    have h' : Represents r (pre ++ [c] ++ cells) := by
      rw [List.append_assoc]
      exact h
    have hvisit := @visit_column p s c.base (r.mStyle.getD s.column.toNat 0)
    -- The cell has been passed.
    have hcolumn' : ((p.visit s c.base (r.mStyle.getD s.column.toNat 0)).advance c).column =
        totalColumns (pre ++ [c]) := by
      simp only [RunState.advance, hvisit.1, totalColumns_append, totalColumns_cons, totalColumns_nil]
      omega
    have hindex' : ((p.visit s c.base (r.mStyle.getD s.column.toNat 0)).advance c).currentCharIndex =
        (encode (pre ++ [c])).length := by
      simp only [RunState.advance, hvisit.2, hindex, encode_append, encode_cons, encode_nil, List.length_append,
        List.length_nil]
      push_cast
      omega
    have hplace : place r.mStyle s.column s.currentCharIndex (c :: cells) =
        ⟨c, s.column, s.currentCharIndex, r.mStyle.getD s.column.toNat 0⟩ ::
          place r.mStyle ((p.visit s c.base (r.mStyle.getD s.column.toNat 0)).advance c).column
            ((p.visit s c.base (r.mStyle.getD s.column.toNat 0)).advance c).currentCharIndex cells := by
      rw [place, RunState.advance, hvisit.1, hvisit.2]
    rw [hplace]
    have hstep := visit_collects hs (c := ⟨c, s.column, s.currentCharIndex, r.mStyle.getD s.column.toNat 0⟩) rfl
      rfl hne
    simp only [List.length_cons] at hn
    rcases hstep with ⟨rest, rfl, hcollects, hdrawn, hstart⟩ | ⟨hcollects, hdrawn, hstart⟩
    · obtain ⟨s', rest', more, hloop, hused, hresult, htogether, hcells⟩ :=
        ih h' (by simp) hcolumn' hindex' hcollects (n := k) (by omega)
      refine ⟨s', rest', more, hloop, hused, ?_, htogether, ?_⟩
      · rw [hresult]
        simp only [RunState.advance, hdrawn, hstart]
      · rw [hcells]
        simp [Run.cells]
    · obtain ⟨s', rest', more, hloop, hused, hresult, htogether, hcells⟩ :=
        ih h' (by simp) hcolumn' hindex' hcollects (n := k) (by omega)
      refine ⟨s', run.rest, ⟨⟨c, s.column, s.currentCharIndex, r.mStyle.getD s.column.toNat 0⟩, rest'⟩ :: more, hloop, hused, ?_, ?_, ?_⟩
      · rw [hresult]
        have hself := call_startingAt (p := p)
          ⟨⟨c, s.column, s.currentCharIndex, r.mStyle.getD s.column.toNat 0⟩, rest'⟩
        simp only [RunState.advance, hdrawn, hstart, hself, List.append_assoc, List.map_cons]
        rfl
      · intro run' hrun
        rcases List.mem_cons.mp hrun with rfl | hrun
        · exact hs.together
        · exact htogether run' hrun
      · rw [List.map_cons, List.flatten_cons, hcells]
        simp [Run.cells]

/-! ## A row -/

/-- A first cell that looks as nothing does: without a style, a cursor and a selection. -/
def Unnoticed (p : RowPainter) (c : PlacedCell) : Prop :=
  p.look c = (0, false, false) ∧ p.fontWidthMismatch c.cell.base = false

instance (c : PlacedCell) : Decidable (p.Unnoticed c) := inferInstanceAs (Decidable (_ ∧ _))

/-- The first run starts at column -1 if its first cell was not noticed. -/
def drawnFrom (p : RowPainter) (run : Run) : TextRun :=
  if p.Unnoticed run.first then (p.call run).startingAt (-1) else p.call run

/-- The first cell. -/
theorem visit_first {c : PlacedCell} (hcolumn : c.column = 0) (hindex : c.index = 0) :
    Collects p ((p.visit {} c.cell.base c.style).advance c.cell) ⟨c, []⟩ ∧
      (p.visit {} c.cell.base c.style).drawn = [] ∧
      (p.visit {} c.cell.base c.style).lastRunStartColumn = if p.Unnoticed c then -1 else 0 := by
  have hlook : p.look c = (c.style, p.insideCursor 0 (width c.cell.base), p.insideSelection 0) := by
    rw [look, hcolumn]
    rfl
  have hdiffers : p.differs {} c.cell.base c.style = !decide (p.Unnoticed c) := by
    rw [← decide_not, differs, decide_eq_decide]
    unfold Unnoticed
    rw [hlook]
    simp only [Prod.mk.injEq, not_and_or, and_assoc, Bool.not_eq_false]
    simp
  have htogether : p.Together ⟨c, []⟩ := ⟨by simp [Run.cells], fun hrest => absurd rfl hrest⟩
  unfold visit
  rw [hdiffers]
  by_cases hnone : p.Unnoticed c
  · rw [if_pos hnone, decide_eq_true hnone, Bool.not_true, if_neg Bool.false_ne_true]
    refine ⟨⟨htogether, hnone.1.symm, hindex.symm, hnone.2.symm, ?_, ?_⟩, rfl, rfl⟩
    · simp [RunState.advance, Run.columns, Run.cells, hcolumn]
    · simp [RunState.advance, Run.chars, Run.cells, hindex]
  · rw [if_neg hnone, decide_eq_false hnone, Bool.not_false, if_pos rfl]
    refine ⟨⟨htogether, hlook.symm, hindex.symm, rfl, ?_, ?_⟩, rfl, rfl⟩
    · simp [RunState.advance, Run.columns, Run.cells, hcolumn]
    · simp [RunState.advance, Run.chars, Run.cells, hindex]

/-- A row is drawn in runs that are its cells in their order.  The first run starts where the row does unless
its first cell was not noticed. -/
theorem drawRow_runs {cells : List Cell} (h : Represents r cells) (hp : p.columns = r.mColumns)
    (hpos : 0 < r.mColumns) :
    ∃ run more, p.drawRow r = .ok (p.drawnFrom run :: more.map p.call) ∧
      (∀ run' ∈ run :: more, p.Together run') ∧
      ((run :: more).map Run.cells).flatten = place r.mStyle 0 0 cells := by
  obtain ⟨c, cells, rfl⟩ : ∃ c rest, cells = c :: rest := by
    cases cells with
    | nil =>
      have hcols := h.columns
      rw [totalColumns_nil] at hcols
      omega
    | cons c rest => exact ⟨c, rest, rfl⟩
  -- Every cell has a character, so the length of the text is fuel enough.
  have hlength : (c :: cells).length < r.mText.length + 1 := by
    obtain ⟨slack, ht⟩ := h.text
    have hcells : ∀ l : List Cell, l.length ≤ (encode l).length := by
      intro l
      induction l with
      | nil => exact le_rfl
      | cons c l ih =>
        have := c.chars_length_pos
        simp only [encode_cons, List.length_append, List.length_cons]
        omega
    have := hcells (c :: cells)
    rw [ht, List.length_append]
    omega
  have h' : Represents r ([] ++ c :: cells) := h
  have hnext : Represents r ([c] ++ cells) := h
  -- The first cell begins a run without ending one, whatever its style.
  obtain ⟨hcollects, hdrawn, hstart⟩ := visit_first (p := p) (c := ⟨c, 0, 0, r.mStyle.getD 0 0⟩) rfl rfl
  have hadvanced : ((p.visit {} c.base (r.mStyle.getD 0 0)).advance c).column = c.columns ∧
      ((p.visit {} c.base (r.mStyle.getD 0 0)).advance c).currentCharIndex = c.chars.length := by
    have hvisit := @visit_column p {} c.base (r.mStyle.getD 0 0)
    rw [RunState.advance, hvisit.1, hvisit.2]
    exact ⟨zero_add _, zero_add _⟩
  obtain ⟨s', rest, more, hloop, hused, hresult, htogether, hcells⟩ := columnLoop_runs cells hnext hp (by simp)
    (by rw [hadvanced.1]; simp) (by rw [hadvanced.2]; simp) hcollects
    (n := r.mText.length) (by simpa using hlength)
  refine ⟨⟨⟨c, 0, 0, r.mStyle.getD 0 0⟩, rest⟩, more, ?_, htogether, ?_⟩
  · have hfirst := columnLoop_cell (s := {}) h' hp rfl rfl r.mText.length
    unfold drawRow
    rw [hfirst]
    change (p.columnLoop r r.mText.length ((p.visit {} c.base (r.mStyle.getD 0 0)).advance c) >>= _) = _
    rw [hloop, ok_bind]
    change Except.ok (s'.drawn ++ [p.lastRun s' p.columns s'.currentCharIndex]) = _
    rw [hresult]
    simp only [RunState.advance, hdrawn, hstart, List.nil_append, drawnFrom]
    split_ifs
    · rfl
    · simp only [TextRun.startingAt, call, zero_add, sub_zero]
  · rw [hcells]
    rw [place, hadvanced.1, hadvanced.2, zero_add, zero_add]
    rfl

/-- The calls go on where the ones before them end, and end where the row does. -/
def Tiles (columns spaceUsed : Int) : Int → Int → List TextRun → Prop
  | column, index, [] => column = columns ∧ index = spaceUsed
  | column, index, t :: calls =>
    t.startColumn = column ∧ t.startCharIndex = index ∧
      Tiles columns spaceUsed (column + t.runWidthColumns) (index + t.runWidthChars) calls

theorem place_cells (styles : List Style) (column index : Int) (cells : List Cell) :
    (place styles column index cells).map PlacedCell.cell = cells := by
  induction cells generalizing column index with
  | nil => rfl
  | cons c cells ih => rw [place, List.map_cons, ih]

theorem place_append (styles : List Style) (column index : Int) (cells cells' : List Cell) :
    place styles column index (cells ++ cells') = place styles column index cells ++
      place styles (column + totalColumns cells) (index + (encode cells).length) cells' := by
  induction cells generalizing column index with
  | nil => simp [place]
  | cons c cells ih =>
    have hcolumn : column + c.columns + totalColumns cells = column + totalColumns (c :: cells) := by
      rw [totalColumns_cons]
      omega
    have hindex : index + c.chars.length + (encode cells).length = index + (encode (c :: cells)).length := by
      rw [encode_cons, List.length_append]
      push_cast
      omega
    rw [List.cons_append, place, place, ih, hcolumn, hindex, List.cons_append]

/-- Runs of consecutive cells are drawn by calls without gaps and overlaps. -/
theorem tiles_of_runs {styles : List Style} (runs : List Run) (column index : Int) (cells : List Cell)
    (h : (runs.map Run.cells).flatten = place styles column index cells) :
    Tiles (column + totalColumns cells) (index + (encode cells).length) column index (runs.map p.call) := by
  -- Each run ends where the next begins: the induction moves the column and the index on.
  induction runs generalizing column index cells with
  | nil =>
    have hnil : cells = [] := by
      rw [← place_cells styles column index cells, ← h]
      rfl
    rw [hnil]
    simp [Tiles]
  | cons run runs ih =>
    rw [List.map_cons, List.flatten_cons] at h
    have hcells : cells = run.cells.map PlacedCell.cell ++
        ((runs.map Run.cells).flatten).map PlacedCell.cell := by
      rw [← List.map_append, h, place_cells]
    have hplaced := h
    rw [hcells, place_append] at hplaced
    obtain ⟨hrun, hrest⟩ := List.append_inj hplaced (by
      have hlength := congrArg List.length (place_cells styles column index (run.cells.map PlacedCell.cell))
      rw [List.length_map, List.length_map] at hlength
      exact hlength.symm)
    have htiles := ih _ _ _ hrest
    have hfirst : run.first = ⟨run.first.cell, column, index, run.first.style⟩ := by
      rw [Run.cells, List.map_cons, place] at hrun
      obtain ⟨hfirst, -⟩ := List.cons.inj hrun
      rw [hfirst]
    rw [List.map_cons, Tiles]
    refine ⟨congrArg PlacedCell.column hfirst, congrArg PlacedCell.index hfirst, ?_⟩
    have hcolumns : column + (p.call run).runWidthColumns +
        totalColumns (((runs.map Run.cells).flatten).map PlacedCell.cell) = column + totalColumns cells := by
      have hwidth : (p.call run).runWidthColumns = totalColumns (run.cells.map PlacedCell.cell) := rfl
      rw [hcells, totalColumns_append, hwidth]
      omega
    have hchars : index + (p.call run).runWidthChars +
        (encode (((runs.map Run.cells).flatten).map PlacedCell.cell)).length = index + (encode cells).length := by
      have hlength : (p.call run).runWidthChars = (encode (run.cells.map PlacedCell.cell)).length := rfl
      rw [hcells, encode_append, List.length_append, hlength]
      push_cast
      omega
    rw [← hcolumns, ← hchars]
    exact htiles

/-- Runs of the cells of a row, and the calls that draw them, each with the look of its cells.  They are drawn
where the cells are if and only if the first cell was noticed. -/
structure RowDrawn (p : RowPainter) (r : TerminalRow) (cells : List Cell) (calls : List TextRun) : Prop where
  runs : ∃ run more, (∀ run' ∈ run :: more, p.Together run') ∧
    ((run :: more).map Run.cells).flatten = place r.mStyle 0 0 cells ∧
    calls = p.drawnFrom run :: more.map p.call ∧
    (Tiles p.columns r.mSpaceUsed 0 0 calls ↔ ¬p.Unnoticed run.first)

theorem drawRow_drawn {cells : List Cell} (h : Represents r cells) (hp : p.columns = r.mColumns)
    (hpos : 0 < r.mColumns) : ∃ calls, p.drawRow r = .ok calls ∧ p.RowDrawn r cells calls := by
  obtain ⟨run, more, hdraw, htogether, hcells⟩ := drawRow_runs h hp hpos
  refine ⟨_, hdraw, ⟨run, more, htogether, hcells, rfl, ?_⟩⟩
  have htiles := tiles_of_runs (p := p) (run :: more) 0 0 cells hcells
  rw [zero_add, zero_add, h.columns, ← h.space, ← hp] at htiles
  constructor
  · intro htile hnone
    rw [drawnFrom, if_pos hnone] at htile
    have hstart : (-1 : Int) = 0 := htile.1
    omega
  · intro hnoticed
    rw [drawnFrom, if_neg hnoticed]
    exact htiles

/-- A cell has a style of its row, or none. -/
theorem place_style {styles : List Style} {column index : Int} {cells : List Cell} {c : PlacedCell}
    (h : c ∈ place styles column index cells) : c.style ∈ styles ∨ c.style = 0 := by
  induction cells generalizing column index with
  | nil => cases h
  | cons d cells ih =>
    rw [place, List.mem_cons] at h
    rcases h with rfl | h
    · rw [List.getD_eq_getElem?_getD]
      cases hget : styles[column.toNat]? with
      | none => exact .inr rfl
      | some style => exact .inl (List.mem_of_getElem? hget)
    · exact ih h

/-- The calls have the styles of cells. -/
theorem RowDrawn.hasColors {cells : List Cell} {calls : List TextRun} (h : p.RowDrawn r cells calls)
    (hstyles : ∀ style ∈ r.mStyle, TextStyle.HasColors style) :
    ∀ t ∈ calls, TextStyle.HasColors t.textStyle := by
  obtain ⟨run, more, -, hcells, rfl, -⟩ := h.runs
  have hrun : ∀ run' ∈ run :: more, TextStyle.HasColors run'.first.style := by
    intro run' hrun'
    have hmem : run'.first ∈ place r.mStyle 0 0 cells := by
      rw [← hcells]
      exact List.mem_flatten.mpr ⟨run'.cells, List.mem_map_of_mem hrun', List.mem_cons_self ..⟩
    rcases place_style hmem with hstyle | hnone
    · exact hstyles _ hstyle
    · rw [hnone]
      exact ⟨.inr (by decide), .inr (by decide)⟩
  intro t ht
  rcases List.mem_cons.mp ht with rfl | ht
  · have hsame : (p.drawnFrom run).textStyle = run.first.style := by
      unfold drawnFrom
      split_ifs <;> rfl
    rw [hsame]
    exact hrun run (List.mem_cons_self ..)
  · obtain ⟨run', hrun', rfl⟩ := List.mem_map.mp ht
    exact hrun run' (List.mem_cons_of_mem _ hrun')

end Row

end RowPainter

/-! ## The screen -/

/-- What is drawn: a view of the rows from `topRow` on, with a selection and a cursor. -/
structure RenderedView where
  topRow : Int
  mRows : Int
  mColumns : Int
  cursorCol : Int
  cursorRow : Int
  cursorVisible : Bool
  selectionY1 : Int
  selectionY2 : Int
  selectionX1 : Int
  selectionX2 : Int
  fontWidthMismatch : Nat → Bool
  mColors : TerminalColors
  blockCursor : Bool
  reverseVideo : Bool

namespace RenderedView

variable (v : RenderedView)

def painter (row : Int) : RowPainter where
  columns := v.mColumns
  cursorX := if row = v.cursorRow ∧ v.cursorVisible then v.cursorCol else -1
  selx1 := if v.selectionY1 ≤ row ∧ row ≤ v.selectionY2 ∧ row = v.selectionY1 then v.selectionX1 else -1
  selx2 :=
    if v.selectionY1 ≤ row ∧ row ≤ v.selectionY2 then
      if row = v.selectionY2 then v.selectionX2 else v.mColumns
    else -1
  fontWidthMismatch := v.fontWidthMismatch
  cursorColor := v.mColors.mCurrentColors.get ⟨TextStyle.colorIndexCursor.toNat, by
    rw [v.mColors.length_eq]
    decide⟩
  blockCursor := v.blockCursor
  reverseVideo := v.reverseVideo

section

variable [ShortStore]

/-- One row of the view. -/
def renderRow (row : Int) (s : TerminalBuffer × List (List DrawnRun)) :
    Java (TerminalBuffer × List (List DrawnRun)) := do
  let internalRow ← s.1.externalToInternalRow row
  let (b, line) ← s.1.allocateFullLineIfNecessary internalRow
  let lineObject ← b.deref (some line)
  let calls ← (v.painter row).drawRow lineObject
  let drawn ← calls.mapM (drawTextRun v.mColors.mCurrentColors)
  return (b, s.2 ++ [drawn])

/-- What is drawn for each row of the view. -/
def render (b : TerminalBuffer) : Java (TerminalBuffer × List (List DrawnRun)) :=
  forUp v.topRow (v.topRow + v.mRows) v.renderRow (b, [])

/-- A row is drawn by calls that draw its cells. -/
structure RowShown (v : RenderedView) (b : TerminalBuffer) (row : Int) (drawn : List DrawnRun) : Prop where
  calls : ∃ r cells, b.rowAt row = .ok r ∧ Represents r cells ∧
    (v.painter row).RowDrawn r cells (drawn.map DrawnRun.run)
  colors : ∀ d ∈ drawn, drawTextRun v.mColors.mCurrentColors d.run = .ok d

/-- The rows above `row` have been drawn. -/
structure Rendered (v : RenderedView) (b : TerminalBuffer) (row : Int) (s : TerminalBuffer × List (List DrawnRun)) :
    Prop where
  buffer : s.1 = b
  length : (s.2.length : Int) = row - v.topRow
  rows : ∀ (i : Nat) (drawn : List DrawnRun), s.2[i]? = some drawn → v.RowShown b (v.topRow + i) drawn

omit [ShortStore] in
theorem mapM_drawTextRun (calls : List TextRun) (h : ∀ t ∈ calls, TextStyle.HasColors t.textStyle) :
    ∃ drawn, calls.mapM (drawTextRun v.mColors.mCurrentColors) = .ok drawn ∧
      drawn.map DrawnRun.run = calls ∧ ∀ d ∈ drawn, drawTextRun v.mColors.mCurrentColors d.run = .ok d := by
  induction calls with
  | nil => exact ⟨[], rfl, rfl, by simp⟩
  | cons t calls ih =>
    obtain ⟨d, hd, rfl⟩ := drawTextRun_returns v.mColors.length_eq t (h t (List.mem_cons_self ..))
    obtain ⟨drawn, hdrawn, hruns, hcolors⟩ := ih fun t' ht' => h t' (List.mem_cons_of_mem _ ht')
    refine ⟨d :: drawn, ?_, by rw [List.map_cons, hruns], List.forall_mem_cons.mpr ⟨hd, hcolors⟩⟩
    rw [List.mapM_cons, hd, ok_bind, hdrawn]
    rfl

/-- Every row of the screen and of the history whose colours are in the table can be drawn, wherever the view
is.  All of its cells are drawn once, in their order and with their own looks, and in their places too if and
only if the first cell was noticed. -/
theorem render_draws {b : TerminalBuffer} (hb : b.Valid) (hrows : v.mRows = b.mScreenRows)
    (hcolumns : v.mColumns = b.mColumns) (htop : -b.mActiveTranscriptRows ≤ v.topRow) (hbottom : v.topRow ≤ 0)
    (hstyles : ∀ row r, v.topRow ≤ row → row < v.topRow + v.mRows → b.rowAt row = .ok r →
      ∀ style ∈ r.mStyle, TextStyle.HasColors style) :
    ∃ drawn : List (List DrawnRun), v.render b = .ok (b, drawn) ∧ (drawn.length : Int) = v.mRows ∧
      ∀ (i : Nat) (row : List DrawnRun), drawn[i]? = some row → v.RowShown b (v.topRow + i) row := by
  have hscreen := hb.screen
  -- One round of the loop draws one row and leaves the buffer as it is.
  have hround : ∀ (row : Int) (s : TerminalBuffer × List (List DrawnRun)), v.topRow ≤ row →
      row < v.topRow + v.mRows → v.Rendered b row s →
        ∃ s', v.renderRow row s = .ok s' ∧ v.Rendered b (row + 1) s' := by
    rintro row ⟨b', above⟩ hfrom hto ⟨hbuffer, hlength, hdrawn⟩
    obtain rfl : b = b' := hbuffer.symm
    simp only at hlength hdrawn
    have hrow : -b.mActiveTranscriptRows ≤ row := by omega
    have hrow' : row < b.mScreenRows := by omega
    obtain ⟨r, hat, hvalid⟩ := hb.rowAt hrow hrow'
    obtain ⟨line, -, hline, hr, -⟩ := hb.line_of_rowAt hrow hrow' hat
    obtain ⟨hcols, cells, hcells⟩ := hvalid.spells
    have hpos := hb.columns
    obtain ⟨runs, hdraw, hrowDrawn⟩ := RowPainter.drawRow_drawn (p := v.painter row) hcells
      (hcolumns.trans hcols.symm) (by omega)
    obtain ⟨drawn, hmap, rfl, hcolors⟩ :=
      v.mapM_drawTextRun runs (hrowDrawn.hasColors (hstyles row r hfrom hto hat))
    refine ⟨(b, above ++ [drawn]), ?_, rfl, ?_, ?_⟩
    · have hget : arrayGet b.mLines (b.slot row) = .ok (some line) := arrayGet_ok (by omega) hline
      have hline' : b.allocateFullLineIfNecessary (b.slot row) = .ok (b, line) := by
        rw [TerminalBuffer.allocateFullLineIfNecessary, hget]
        rfl
      rw [renderRow, TerminalBuffer.externalToInternalRow_eq hb.toShape hrow hrow'.le, ok_bind, hline', ok_bind]
      simp only [TerminalBuffer.deref_eq hr, ok_bind, hdraw, hmap]
      rfl
    · simp only [List.length_append, List.length_singleton]
      push_cast
      omega
    · intro i drawn' hi
      by_cases hlast : i < above.length
      · rw [List.getElem?_append_left hlast] at hi
        exact hdrawn i drawn' hi
      · rw [List.getElem?_append_right (by omega)] at hi
        have hi₀ : i - above.length = 0 := by
          have := (List.getElem?_eq_some_iff.mp hi).1
          simp only [List.length_singleton] at this
          omega
        rw [hi₀] at hi
        cases hi
        have hindex : v.topRow + (i : Int) = row := by omega
        rw [hindex]
        exact ⟨⟨r, cells, hat, hcells, hrowDrawn⟩, hcolors⟩
  obtain ⟨⟨b', calls⟩, hs, hbuffer, hlength, hdrawn⟩ := forUp_returns (s := ((b, []) : TerminalBuffer × _))
    (show v.topRow ≤ v.topRow + v.mRows by omega) hround ⟨rfl, by simp, by simp⟩
  cases hbuffer
  exact ⟨calls, hs, by simpa using hlength, hdrawn⟩

end

/-- The view of a screen of two rows and two columns, with the cursor in its corner and the first row selected. -/
def smallView : RenderedView where
  topRow := 0
  mRows := 2
  mColumns := 2
  cursorCol := 0
  cursorRow := 0
  cursorVisible := true
  selectionY1 := 0
  selectionY2 := 0
  selectionX1 := 0
  selectionX2 := 1
  fontWidthMismatch _ := false
  mColors := ⟨(List.range 259).map (BitVec.ofNat 32), by simp [TextStyle.numIndexedColors]⟩
  blockCursor := true
  reverseVideo := false

/-- A red letter and a bold one on the first row, and a green one on the second. -/
def threeColors : Java TerminalBuffer :=
  @TerminalBuffer.script javaShort 2 3 2 [.setChar 0 0 0x61 (TextStyle.encode 1 257 0),
    .setChar 1 0 0x62 (TextStyle.encode 1 257 TextStyle.attributeBold),
    .setChar 0 1 0x63 (TextStyle.encode 2 257 0)]

/-- The runs of the view, with their columns and colours.  The selected row is drawn reversed. -/
theorem render_draws_smallView : ∃ b drawn, threeColors = .ok b ∧ smallView.render b = .ok (b, drawn) ∧
    (drawn.map fun row => row.map fun d =>
      ((d.run.startColumn, d.run.runWidthColumns), (d.foreColor.toNat, d.backColor.toNat))) =
      [[((0, 1), (257, 1)), ((1, 1), (257, 9))], [((0, 1), (2, 257)), ((1, 1), (256, 257))]] ∧
    ∀ (i : Nat) (row : List DrawnRun), drawn[i]? = some row → smallView.RowShown b (smallView.topRow + i) row := by
  have hsize : threeColors.map (fun b => (b.mColumns, b.mScreenRows)) = .ok (2, 2) := by
    decide +kernel
  have hcolors : threeColors.map (fun b => [b.rowAt 0, b.rowAt 1].map fun row =>
      row.map fun r => r.mStyle.all fun style => decide (TextStyle.HasColors style)) =
      .ok [.ok true, .ok true] := by
    decide +kernel
  have hdrawn : (threeColors >>= fun b => smallView.render b).map (fun s => s.2.map fun row => row.map fun d =>
      ((d.run.startColumn, d.run.runWidthColumns), (d.foreColor.toNat, d.backColor.toNat))) =
      .ok [[((0, 1), (257, 1)), ((1, 1), (257, 9))], [((0, 1), (2, 257)), ((1, 1), (256, 257))]] := by
    decide +kernel
  obtain ⟨b, hb, hvalues⟩ := exists_of_map_eq_ok hsize
  obtain ⟨hcolumns, hscreen⟩ := Prod.mk.inj hvalues
  rw [hb] at hcolors
  rw [hb, ok_bind] at hdrawn
  simp only [Except.map, Except.ok.injEq, List.map_cons, List.map_nil, List.cons.injEq, and_true] at hcolors
  have hv : b.Valid := TerminalBuffer.script_valid (by decide) (by decide) (by decide)
    (by simp [TerminalBuffer.Operation.Legal, TerminalBuffer.Operation.Fits, isScalar, isSurrogate])
    (by decide +kernel) hb
  have hhistory := hv.history
  have hstyles : ∀ row r, (0 : Int) ≤ row → row < 2 → b.rowAt row = .ok r →
      ∀ style ∈ r.mStyle, TextStyle.HasColors style := by
    intro row r h₀ h₂ hr style hstyle
    have hall : (r.mStyle.all fun style => decide (TextStyle.HasColors style)) = true := by
      obtain rfl | rfl : row = 0 ∨ row = 1 := by omega
      · rw [hr] at hcolors
        exact Except.ok.inj hcolors.1
      · rw [hr] at hcolors
        exact Except.ok.inj hcolors.2
    exact of_decide_eq_true (List.all_eq_true.mp hall style hstyle)
  obtain ⟨drawn, hrender, -, hrows⟩ := smallView.render_draws hv hscreen.symm hcolumns.symm
    (by show -b.mActiveTranscriptRows ≤ 0; omega) le_rfl hstyles
  rw [hrender] at hdrawn
  exact ⟨b, drawn, hb, hrender, Except.ok.inj hdrawn, hrows⟩

end RenderedView

end XoDos
