import XoDos.TerminalBuffer

/-!
# Where the styles of cells come from

No operation of a screen makes up a style.  Each cell has the style that was written to it last, that it was
copied with, or that of a row object which Java has just allocated, which is 0.  What is true of all of these
is true of every cell.
-/

namespace XoDos

variable {P : Style → Prop}

/-! ## Arrays -/

theorem arrayGet_mem {α : Type} {a : List α} {i : Int} : Ensures (· ∈ a) (arrayGet a i) := by
  intro x hx
  exact List.mem_of_getElem? (arrayGet_eq_ok.mp hx).2

theorem arraySet_all {a : List Style} {i : Int} {x : Style} (ha : ∀ s ∈ a, P s) (hx : P x) :
    Ensures (fun b => ∀ s ∈ b, P s) (arraySet a i x) := by
  intro b hb
  rw [(arraySet_eq_ok.mp hb).2]
  intro s hs
  rcases List.mem_or_eq_of_mem_set hs with hold | hnew
  · exact ha s hold
  · rw [hnew]
    exact hx

theorem replicate_all {n : Nat} {x : Style} (hx : P x) : ∀ s ∈ List.replicate n x, P s := by
  intro s hs
  rw [List.eq_of_mem_replicate hs]
  exact hx

/-! ## Rows -/

namespace TerminalRow

variable {r : TerminalRow}

/-- Every cell of the row has a style with `P`. -/
def AllStyles (P : Style → Prop) (r : TerminalRow) : Prop := ∀ s ∈ r.mStyle, P s

variable [ShortStore]

theorem clear_styles {style : Style} (hs : P style) : Ensures (AllStyles P) (r.clear style) :=
  .bind_any fun _ => .ok (replicate_all hs)

theorem new_styles {columns : Int} {style : Style} (hs : P style) :
    Ensures (AllStyles P) (new columns style) :=
  .bind_any fun _ => .bind_any fun _ => clear_styles hs

theorem settleWidth_styles {columnToSet oldWidth newWidth : Int} {text : List Nat}
    {spaceUsed newNextColumnIndex : Int} :
    Ensures (fun r' => r'.mStyle = r.mStyle)
      (r.settleWidth columnToSet oldWidth newWidth text spaceUsed newNextColumnIndex) := by
  unfold settleWidth
  refine .ite (fun _ => ?_) fun _ => .ite (fun _ => .ite (fun _ => .error _) fun _ => .ite (fun _ => ?_)
    fun _ => ?_) fun _ => .ok rfl
  · exact .bind_any fun _ => .bind_any fun _ => .bind_any fun _ => .ok rfl
  · exact .bind_any fun _ => .ok rfl
  · exact .bind_any fun _ => .bind_any fun _ => .bind_any fun _ => .ok rfl

theorem storeChar_styles {columnToSet : Int} {codePoint : Nat} :
    Ensures (fun r' => r'.mStyle = r.mStyle) (r.storeChar columnToSet codePoint) := by
  unfold storeChar
  refine .bind_any fun _ => .bind_any fun _ => .bind_any fun _ => .bind_any fun _ => .bind_any fun _ =>
    .bind_any fun _ => ?_
  exact settleWidth_styles

theorem storeChar_allStyles (h : r.AllStyles P) {columnToSet : Int} {codePoint : Nat} :
    Ensures (AllStyles P) (r.storeChar columnToSet codePoint) := by
  refine storeChar_styles.mono fun r' hr' => ?_
  unfold AllStyles
  rw [hr']
  exact h

/-- The cell gets the style, and so do cells beside it over which a wide character had lain. -/
theorem setCharLoop_styles {style : Style} (hs : P style) (depth : Nat) (h : r.AllStyles P)
    (columnToSet : Int) (codePoint : Nat) :
    Ensures (AllStyles P) (setCharLoop depth r columnToSet codePoint style) := by
  induction depth generalizing r columnToSet codePoint with
  | zero => exact .error _
  | succ depth ih =>
    unfold setCharLoop
    refine .ite (fun _ => .error _) fun _ => .bind (arraySet_all h hs) fun styles hstyles => ?_
    have hwritten : ({ r with mStyle := styles, mHasNonOneWidthOrSurrogateChars := true } :
        TerminalRow).AllStyles P := hstyles
    refine .ite (fun _ => .bind_any fun _ => .ok hstyles) fun _ => .bind_any fun _ => ?_
    refine .ite (fun _ => storeChar_allStyles hwritten) fun _ => ?_
    refine .bind (P := AllStyles P) (.ite (fun _ => ih hwritten _ _) fun _ => .ok hwritten) fun r₁ h₁ =>
      .bind_any fun _ => ?_
    exact .bind (P := AllStyles P) (.ite (fun _ => ih h₁ _ _) fun _ => .ok h₁) fun r₂ h₂ =>
      storeChar_allStyles h₂

theorem setChar_styles (h : r.AllStyles P) {style : Style} (hs : P style) {columnToSet : Int}
    {codePoint : Nat} : Ensures (AllStyles P) (r.setChar columnToSet codePoint style) :=
  setCharLoop_styles hs _ h _ _

section Copy

variable {line : TerminalRow} {same : Bool}

theorem copyStep_styles (hl : line.AllStyles P) {s : CopyState} (h : s.row.AllStyles P) {codePoint : Nat} :
    Ensures (fun s' => s'.row.AllStyles P) (copyStep line same s codePoint) := by
  have hmoved : (if 0 < WcWidth.width codePoint then
      { s with
        destinationX := s.destinationX + s.latestNonCombiningWidth
        sourceX1 := s.sourceX1 + s.latestNonCombiningWidth
        latestNonCombiningWidth := WcWidth.width codePoint }
      else s).row.AllStyles P := by
    split_ifs <;> exact h
  unfold copyStep
  simp only
  generalize (if 0 < WcWidth.width codePoint then
      { s with
        destinationX := s.destinationX + s.latestNonCombiningWidth
        sourceX1 := s.sourceX1 + s.latestNonCombiningWidth
        latestNonCombiningWidth := WcWidth.width codePoint }
      else s) = s₁ at hmoved ⊢
  have hstyle : Ensures P ((if same then s₁.row else line).getStyle s₁.sourceX1) := by
    refine arrayGet_mem.mono fun style hmem => ?_
    split_ifs at hmem
    · exact hmoved style hmem
    · exact hl style hmem
  exact .bind hstyle fun style hs => .bind (setChar_styles hmoved hs) fun row hrow => .ok hrow

theorem copyLoop_styles (hl : line.AllStyles P) {x2 : Int} (rest : List Nat) (i : Int) (second : Bool)
    {s : CopyState} (h : s.row.AllStyles P) :
    Ensures (fun s' => s'.row.AllStyles P) (copyLoop line same x2 rest i second s) := by
  induction rest using List.twoStepInduction generalizing i second s with
  | nil =>
    unfold copyLoop
    exact .ite (fun _ => .error _) fun _ => .ok h
  | singleton c =>
    unfold copyLoop
    refine .ite (fun _ => .ite (fun _ => .error _) fun _ => ?_) fun _ => .ok h
    refine .bind (copyStep_styles hl h) fun s' h' => ?_
    unfold copyLoop
    exact .ite (fun _ => .error _) fun _ => .ok h'
  | cons_cons c low rest ih ih' =>
    unfold copyLoop
    refine .ite (fun _ => .ite (fun _ => ?_) fun _ => ?_) fun _ => .ok h
    · exact .bind (copyStep_styles hl h) fun s' h' => ih _ _ h'
    · exact .bind (copyStep_styles hl h) fun s' h' => ih' low _ _ h'

theorem copyInterval_styles (h : r.AllStyles P) (hl : line.AllStyles P) {sourceX1 sourceX2 destinationX : Int} :
    Ensures (AllStyles P) (r.copyInterval line same sourceX1 sourceX2 destinationX) := by
  unfold copyInterval
  extract_lets r₁ line₁
  have h₁ : r₁.AllStyles P := h
  have hl₁ : line₁.AllStyles P := by
    simp only [line₁]
    split_ifs
    · exact h
    · exact hl
  refine .bind_any fun x1 => .bind_any fun x2 => .bind_any fun second => .ite (fun _ => .error _) fun _ => ?_
  exact .bind (copyLoop_styles hl₁ _ _ _ h₁) fun s hs => .ok hs

end Copy

end TerminalRow

/-! ## Buffers -/

namespace TerminalBuffer

variable {b : TerminalBuffer}

/-- Every cell of every row object has a style with `P`. -/
def AllStyles (P : Style → Prop) (b : TerminalBuffer) : Prop := ∀ r ∈ b.rows, r.AllStyles P

theorem deref_styles (h : b.AllStyles P) {line : Option Nat} :
    Ensures (TerminalRow.AllStyles P) (b.deref line) := by
  unfold deref
  split
  · exact .error _
  · split
    next r hr => exact .ok (h r (List.mem_of_getElem? hr))
    next => exact .error _

theorem update_styles (h : b.AllStyles P) {line : Nat} {r : TerminalRow} (hr : r.AllStyles P) :
    (b.update line r).AllStyles P := by
  intro r' hmem
  rcases List.mem_or_eq_of_mem_set hmem with hold | hnew
  · exact h r' hold
  · rw [hnew]
    exact hr

theorem putLineWrap_styles (h : b.AllStyles P) {row : Int} {wrap : Bool} :
    Ensures (AllStyles P) (b.putLineWrap row wrap) := by
  unfold putLineWrap
  refine .bind_any fun line => .bind (deref_styles h) fun r hr => ?_
  cases line with
  | none => exact .ok h
  | some line => exact .ok (update_styles h hr)

theorem blockCopyLinesDown_styles (h : b.AllStyles P) {srcInternal len : Int} :
    Ensures (AllStyles P) (b.blockCopyLinesDown srcInternal len) := by
  unfold blockCopyLinesDown
  refine .ite (fun _ => .ok h) fun _ => .bind_any fun _ => .bind_any fun _ => .bind_any fun _ =>
    .bind_any fun _ => .bind_any fun _ => .ok h

theorem clearTranscript_styles (h : b.AllStyles P) : Ensures (AllStyles P) b.clearTranscript :=
  .bind_any fun _ => .ok h

variable [ShortStore]

theorem allocate_styles (h : b.AllStyles P) {i : Int} {style : Style} (hs : P style) :
    Ensures (fun p => p.1.AllStyles P) (b.allocate i style) := by
  unfold allocate
  refine .bind (TerminalRow.new_styles hs) fun r hr => .bind_any fun lines => .ok ?_
  intro r' hmem
  rcases List.mem_append.mp hmem with hold | hnew
  · exact h r' hold
  · rw [List.mem_singleton.mp hnew]
    exact hr

section Written

variable (h₀ : P 0)

include h₀

theorem allocateFullLineIfNecessary_styles (h : b.AllStyles P) {row : Int} :
    Ensures (fun p => p.1.AllStyles P) (b.allocateFullLineIfNecessary row) := by
  unfold allocateFullLineIfNecessary
  refine .bind_any fun line => ?_
  cases line with
  | none => exact allocate_styles h h₀
  | some line => exact .ok h

theorem setChar_styles (h : b.AllStyles P) {style : Style} (hs : P style) {column row : Int}
    {codePoint : Nat} : Ensures (AllStyles P) (b.setChar column row codePoint style) := by
  unfold setChar
  refine .ite (fun _ => .error _) fun _ => .bind_any fun row => ?_
  refine .bind (allocateFullLineIfNecessary_styles h₀ h) fun p hp => .bind (deref_styles hp) fun r hr => ?_
  exact .bind (TerminalRow.setChar_styles hr hs) fun r' hr' => .ok (update_styles hp hr')

theorem getStyleAt_styles (h : b.AllStyles P) {externalRow column : Int} :
    Ensures (fun p => p.1.AllStyles P ∧ P p.2) (b.getStyleAt externalRow column) := by
  unfold getStyleAt
  refine .bind_any fun row => .bind (allocateFullLineIfNecessary_styles h₀ h) fun p hp => ?_
  refine .bind (deref_styles hp) fun r hr => .bind (P := P) ?_ fun style hs => .ok ⟨hp, hs⟩
  exact arrayGet_mem.mono fun style hmem => hr style hmem

theorem blockSet_styles (h : b.AllStyles P) {style : Style} (hs : P style) {sx sy w h' : Int} {val : Nat} :
    Ensures (AllStyles P) (b.blockSet sx sy w h' val style) := by
  unfold blockSet
  refine .ite (fun _ => .error _) fun _ => .forUp (fun y b₁ _ _ h₁ => ?_) h
  exact .forUp (fun x b₂ _ _ h₂ => setChar_styles h₀ h₂ hs) h₁

theorem copyRow_styles (h : b.AllStyles P) {sx w dx source destination : Int} :
    Ensures (AllStyles P) (b.copyRow sx w dx source destination) := by
  unfold copyRow
  refine .bind_any fun source => .bind (allocateFullLineIfNecessary_styles h₀ h) fun p hp => ?_
  refine .bind_any fun destination => .bind (allocateFullLineIfNecessary_styles h₀ hp) fun q hq => ?_
  refine .bind (deref_styles hq) fun sourceRow hsource => .bind (deref_styles hq) fun r hr => ?_
  exact .bind (TerminalRow.copyInterval_styles hr hsource) fun r' hr' => .ok (update_styles hq hr')

theorem blockCopy_styles (h : b.AllStyles P) {sx sy w h' dx dy : Int} :
    Ensures (AllStyles P) (b.blockCopy sx sy w h' dx dy) := by
  unfold blockCopy
  exact .ite (fun _ => .ok h) fun _ => .ite (fun _ => .error _) fun _ =>
    .forUp (fun y b₁ _ _ h₁ => copyRow_styles h₀ h₁) h

theorem new_styles (hnormal : P TextStyle.normal) {columns totalRows screenRows : Int} :
    Ensures (AllStyles P) (new columns totalRows screenRows) := by
  unfold new
  refine .bind_any fun lines => blockSet_styles h₀ ?_ hnormal
  intro r hr
  cases hr

end Written

theorem blankLine_styles (h : b.AllStyles P) {blankRow : Int} {style : Style} (hs : P style) :
    Ensures (AllStyles P) (b.blankLine blankRow style) := by
  unfold blankLine
  refine .bind_any fun line => ?_
  cases line with
  | none => exact .bind (allocate_styles h hs) fun p hp => .ok hp
  | some line =>
    exact .bind (deref_styles h) fun r hr => .bind (TerminalRow.clear_styles hs) fun r' hr' =>
      .ok (update_styles h hr')

theorem scrollDownOneLine_styles (h : b.AllStyles P) {topMargin bottomMargin : Int} {style : Style}
    (hs : P style) : Ensures (AllStyles P) (b.scrollDownOneLine topMargin bottomMargin style) := by
  unfold scrollDownOneLine
  refine .ite (fun _ => .error _) fun _ => .bind (blockCopyLinesDown_styles h) fun b₁ h₁ => ?_
  refine .bind_any fun below => .bind (blockCopyLinesDown_styles h₁) fun b₂ h₂ => .bind_any fun first => ?_
  have hmoved : ∀ active, AllStyles P { b₂ with mScreenFirstRow := first, mActiveTranscriptRows := active } :=
    fun _ => h₂
  exact .bind_any fun blankRow => blankLine_styles (hmoved _) hs

omit [ShortStore] in
theorem setOrClearEffect_styles (h : b.AllStyles P) {bits : BitVec 32} {setOrClear reverse : Bool}
    (hchange : ∀ s, P s → P (changeEffect bits setOrClear reverse s)) {rectangular : Bool}
    {leftMargin rightMargin top left bottom right : Int} :
    Ensures (AllStyles P) (b.setOrClearEffect bits setOrClear reverse rectangular leftMargin rightMargin
      top left bottom right) := by
  unfold setOrClearEffect
  refine .forUp (fun y b₁ _ _ h₁ => .bind_any fun line => .forUp (fun x b₂ _ _ h₂ => ?_) h₁) h
  refine .bind (deref_styles h₂) fun r hr => .bind (P := P) ?_ fun style hs => ?_
  · exact arrayGet_mem.mono fun style hmem => hr style hmem
  · refine .bind (arraySet_all hr (hchange style hs)) fun styles hstyles => ?_
    cases line with
    | none => exact .ok h₂
    | some line =>
      have hrow : ({ r with mStyle := styles } : TerminalRow).AllStyles P := hstyles
      exact .ok (update_styles h₂ hrow)

/-! ## Resizing -/

theorem resizeRows_styles (h₀ : P 0) (h : b.AllStyles P) {newRows newTotalRows : Int} {cursor : Int × Int}
    {currentStyle : Style} (hs : P currentStyle) {altScreen : Bool} :
    Ensures (fun p => p.1.AllStyles P) (b.resizeRows newRows newTotalRows cursor currentStyle altScreen) := by
  unfold resizeRows
  refine .bind (P := fun p : TerminalBuffer × Int => p.1.AllStyles P) ?_ fun p hp => .bind_any fun first => .ok hp
  refine .ite (fun _ => .bind_any fun shift => .ok h) fun _ => .ite (fun _ => .ite (fun _ => ?_)
    fun _ => .ok h) fun _ => .ok h
  refine .bind (P := AllStyles P) (.forUp (fun i b₁ _ _ h₁ => ?_) h) fun b₂ h₂ => .ok h₂
  refine .bind_any fun row => .bind (allocateFullLineIfNecessary_styles h₀ h₁) fun p hp => ?_
  exact .bind_any fun r => .bind (TerminalRow.clear_styles hs) fun r' hr' => .ok (update_styles hp hr')

section Reflow

variable {old : OldState} (h₀ : P 0) (hold : P old.currentStyle)

include hold

theorem nextRow_styles {s : Reflow} (h : s.buffer.AllStyles P) {moveCursor : Bool} :
    Ensures (fun s' => s'.buffer.AllStyles P) (s.nextRow old moveCursor) :=
  .ite (fun _ => .bind (scrollDownOneLine_styles h hold) fun _ h₁ => .ok h₁) fun _ => .ok h

include h₀

theorem reflowChar_styles {externalOldRow : Int} {oldLine : TerminalRow} (hline : oldLine.AllStyles P)
    {justToCursor : Bool} {s : LineCopy} (h : s.out.buffer.AllStyles P ∧ P s.styleAtCol) {codePoint : Nat} :
    Ensures (fun r => r.1.out.buffer.AllStyles P ∧ P r.1.styleAtCol)
      (reflowChar old externalOldRow oldLine justToCursor s codePoint) := by
  unfold reflowChar
  refine .bind (P := P) (.ite (fun _ => ?_) fun _ => .ok h.2) fun style hstyle => ?_
  · exact arrayGet_mem.mono fun style hmem => hline style hmem
  · refine .bind (P := fun out : Reflow => out.buffer.AllStyles P) (.ite (fun _ => ?_) fun _ => .ok h.1)
      fun out hout => ?_
    · exact .bind (putLineWrap_styles h.1) fun _ h₁ => nextRow_styles hold h₁
    · refine .bind (setChar_styles h₀ hout hstyle) fun b₂ h₂ => .ite (fun _ => .ok ⟨?_, hstyle⟩)
        fun _ => .ok ⟨h₂, hstyle⟩
      simp only
      split_ifs <;> exact h₂

theorem reflowLoop_styles {externalOldRow : Int} {oldLine : TerminalRow} (hline : oldLine.AllStyles P)
    {justToCursor : Bool} {lastNonSpaceIndex : Int} (rest : List Nat) (i : Int) {s : LineCopy}
    (h : s.out.buffer.AllStyles P ∧ P s.styleAtCol) :
    Ensures (fun s' => s'.out.buffer.AllStyles P ∧ P s'.styleAtCol)
      (reflowLoop old externalOldRow oldLine justToCursor lastNonSpaceIndex rest i s) := by
  have hchar : ∀ {s : LineCopy}, s.out.buffer.AllStyles P ∧ P s.styleAtCol → ∀ codePoint,
      Ensures (fun r => r.1.out.buffer.AllStyles P ∧ P r.1.styleAtCol)
        (reflowChar old externalOldRow oldLine justToCursor s codePoint) :=
    fun hs codePoint => reflowChar_styles h₀ hold hline hs
  induction rest using List.twoStepInduction generalizing i s with
  | nil =>
    unfold reflowLoop
    exact .ite (fun _ => .error _) fun _ => .ok h
  | singleton c =>
    unfold reflowLoop
    refine .ite (fun _ => .ite (fun _ => .error _) fun _ => ?_) fun _ => .ok h
    refine .bind (hchar h c) fun r hr => .ite (fun _ => .ok hr) fun _ => ?_
    unfold reflowLoop
    exact .ite (fun _ => .error _) fun _ => .ok hr
  | cons_cons c low rest ih ih' =>
    unfold reflowLoop
    refine .ite (fun _ => .ite (fun _ => ?_) fun _ => ?_) fun _ => .ok h
    · exact .bind (hchar h _) fun r hr => .ite (fun _ => .ok hr) fun _ => ih _ hr
    · exact .bind (hchar h c) fun r hr => .ite (fun _ => .ok hr) fun _ => ih' low _ hr

theorem reflowLine_styles {externalOldRow : Int} {oldLine : TerminalRow} (hline : oldLine.AllStyles P)
    {s : Reflow} (h : s.buffer.AllStyles P) :
    Ensures (fun s' => s'.buffer.AllStyles P) (reflowLine old externalOldRow oldLine s) := by
  unfold reflowLine
  refine .bind (P := fun s : Reflow => s.buffer.AllStyles P)
    (.forUp (fun _ s₁ _ _ h₁ => nextRow_styles hold h₁) h) fun s₂ h₂ => .bind_any fun range => ?_
  have hstart : ({ s₂ with skippedBlankLines := 0 } : Reflow).buffer.AllStyles P ∧ P 0 := ⟨h₂, h₀⟩
  refine .bind (reflowLoop_styles h₀ hold hline _ _ hstart) fun copied hcopied => ?_
  exact .ite (fun _ => nextRow_styles hold hcopied.1) fun _ => .ok hcopied.1

theorem reflowRow_styles (hrows : old.buffer.AllStyles P) {externalOldRow : Int} {s : Reflow}
    (h : s.buffer.AllStyles P) :
    Ensures (fun s' => s'.buffer.AllStyles P) (reflowRow old externalOldRow s) := by
  unfold reflowRow
  refine .bind_any fun row => .bind_any fun line => ?_
  cases line with
  | none => exact .ok h
  | some line =>
    refine .bind (deref_styles hrows) fun oldLine hline => .bind_any fun blank => .ite (fun _ => .ok h) fun _ => ?_
    exact reflowLine_styles h₀ hold hline h

end Reflow

theorem resizeReflow_styles (h₀ : P 0) (h : b.AllStyles P) {newColumns newRows newTotalRows : Int}
    {cursor : Int × Int} {currentStyle : Style} (hs : P currentStyle) :
    Ensures (fun p => p.1.AllStyles P) (b.resizeReflow newColumns newRows newTotalRows cursor currentStyle) := by
  unfold resizeReflow
  refine .bind_any fun lines => .bind (.mapM _ fun _ _ => TerminalRow.new_styles hs) fun rows hrows => ?_
  refine .bind (P := fun s : Reflow => s.buffer.AllStyles P) (.forUp (fun row s₁ _ _ h₁ => ?_) hrows)
    fun s₂ h₂ => .ok h₂
  exact reflowRow_styles h₀ hs h h₁

theorem resize_styles (h₀ : P 0) (h : b.AllStyles P) {newColumns newRows newTotalRows : Int}
    {cursor : Int × Int} {currentStyle : Style} (hs : P currentStyle) {altScreen : Bool} :
    Ensures (fun p => p.1.AllStyles P)
      (b.resize newColumns newRows newTotalRows cursor currentStyle altScreen) := by
  unfold resize
  refine .bind (P := fun p : TerminalBuffer × (Int × Int) => p.1.AllStyles P) (.ite (fun _ => ?_) fun _ => ?_)
    fun p hp => .ok hp
  · exact resizeRows_styles h₀ h hs
  · exact resizeReflow_styles h₀ h hs

end TerminalBuffer

end XoDos
