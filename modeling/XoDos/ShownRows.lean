import XoDos.BufferSize
import XoDos.DisplaySettings
import XoDos.LineJoin

/-!
# The rows that can be shown

The screen buffer has the rows of the screen, and above it a history that is never
negative.  This holds for any emulator, whatever its buffers contain, whenever it
returns from an operation.
-/

namespace XoDos

variable [ShortStore] [Platform]

namespace TerminalBuffer

variable {b b' b'' : TerminalBuffer}

/-- The size stays, and there is a history to show. -/
structure SameExtent (b b' : TerminalBuffer) : Prop extends SameSize b b' where
  history : 0 ≤ b.mActiveTranscriptRows → 0 ≤ b'.mActiveTranscriptRows

omit [ShortStore] [Platform] in
theorem SameExtent.refl (b : TerminalBuffer) : SameExtent b b := ⟨.refl b, id⟩

omit [ShortStore] [Platform] in
theorem SameExtent.trans (h : SameExtent b b') (h' : SameExtent b' b'') : SameExtent b b'' :=
  ⟨h.toSameSize.trans h'.toSameSize, fun hb => h'.history (h.history hb)⟩

omit [ShortStore] [Platform] in
theorem update_sameExtent (line : Nat) (r : TerminalRow) : SameExtent b (b.update line r) :=
  ⟨update_sameSize line r, id⟩

omit [Platform] in
theorem allocate_sameExtent {i : Int} {style : Style} :
    Ensures (fun p => SameExtent b p.1) (b.allocate i style) := by
  unfold allocate
  exact .bind_any fun r => .bind_any fun lines => .ok ⟨⟨rfl, rfl, rfl⟩, id⟩

omit [Platform] in
theorem allocateFullLine_sameExtent (row : Int) :
    Ensures (fun p => SameExtent b p.1) (b.allocateFullLineIfNecessary row) := by
  unfold allocateFullLineIfNecessary
  refine .bind_any fun line => ?_
  cases line with
  | none => exact allocate_sameExtent
  | some line => exact .ok (.refl b)

omit [Platform] in
theorem setChar_sameExtent {column row : Int} {codePoint : Nat} {style : Style} :
    Ensures (SameExtent b) (b.setChar column row codePoint style) := by
  unfold setChar
  refine .ite (fun _ => .error _) fun _ => .bind_any fun internalRow => ?_
  refine .bind (allocateFullLine_sameExtent internalRow) fun p hp => ?_
  exact .bind_any fun r => .bind_any fun r' => .ok (hp.trans (update_sameExtent _ _))

omit [Platform] in
theorem blockSet_sameExtent {sx sy w h : Int} {val : Nat} {style : Style} :
    Ensures (SameExtent b) (b.blockSet sx sy w h val style) := by
  unfold blockSet
  refine .ite (fun _ => .error _) fun _ => ?_
  refine .forUp (fun y b₁ _ _ h₁ => ?_) (.refl b)
  refine .forUp (fun x b₂ _ _ h₂ => ?_) h₁
  exact setChar_sameExtent.mono fun b₃ h₃ => h₂.trans h₃

omit [Platform] in
theorem blockCopy_sameExtent {sx sy w h dx dy : Int} :
    Ensures (SameExtent b) (b.blockCopy sx sy w h dx dy) := by
  unfold blockCopy
  refine .ite (fun _ => .ok (.refl b)) fun _ => .ite (fun _ => .error _) fun _ => ?_
  refine .forUp (fun y b₁ _ _ h₁ => ?_) (.refl b)
  unfold copyRow
  refine .bind_any fun row => .bind (allocateFullLine_sameExtent row) fun p hp => ?_
  refine .bind_any fun row' => .bind (allocateFullLine_sameExtent row') fun q hq => ?_
  refine .bind_any fun r => .bind_any fun r' => .bind_any fun r'' => ?_
  exact .ok (h₁.trans ((hp.trans hq).trans (update_sameExtent _ _)))

omit [ShortStore] [Platform] in
theorem putLineWrap_sameExtent {row : Int} {wrap : Bool} :
    Ensures (SameExtent b) (b.putLineWrap row wrap) := by
  unfold putLineWrap
  refine .bind_any fun line => .bind_any fun r => ?_
  cases line with
  | none => exact .ok (.refl b)
  | some line => exact .ok (update_sameExtent _ _)

omit [Platform] in
theorem getStyleAt_sameExtent {row column : Int} :
    Ensures (fun p => SameExtent b p.1) (b.getStyleAt row column) := by
  unfold getStyleAt
  refine .bind_any fun row => .bind (allocateFullLine_sameExtent row) fun p hp => ?_
  exact .bind_any fun r => .bind_any fun style => .ok hp

omit [ShortStore] [Platform] in
theorem setOrClearEffect_sameExtent {bits : BitVec 32} {setOrClear reverse rect : Bool}
    {leftMargin rightMargin top left bottom right : Int} :
    Ensures (SameExtent b) (b.setOrClearEffect bits setOrClear reverse rect leftMargin rightMargin top
      left bottom right) := by
  unfold setOrClearEffect
  refine .forUp (fun y b₁ _ _ h₁ => .bind_any fun line => ?_) (.refl b)
  refine .forUp (fun x b₂ _ _ h₂ => ?_) h₁
  refine .bind_any fun r => .bind_any fun style => .bind_any fun styles => ?_
  cases line with
  | none => exact .ok h₂
  | some line => exact .ok (h₂.trans (update_sameExtent _ _))

omit [ShortStore] [Platform] in
theorem clearTranscript_sameExtent : Ensures (SameExtent b) b.clearTranscript := by
  unfold clearTranscript
  exact .bind_any fun lines => .ok ⟨⟨rfl, rfl, rfl⟩, fun _ => le_refl (0 : Int)⟩

omit [ShortStore] [Platform] in
theorem blockCopyLinesDown_sameExtent {srcInternal len : Int} :
    Ensures (SameExtent b) (b.blockCopyLinesDown srcInternal len) := by
  unfold blockCopyLinesDown
  refine .ite (fun _ => .ok (.refl b)) fun _ => ?_
  refine .bind_any fun last => .bind_any fun line => .bind_any fun lines => ?_
  exact .bind_any fun first => .bind_any fun lines' => .ok ⟨⟨rfl, rfl, rfl⟩, id⟩

omit [Platform] in
theorem blankLine_sameExtent {blankRow : Int} {style : Style} :
    Ensures (SameExtent b) (b.blankLine blankRow style) := by
  unfold blankLine
  refine .bind_any fun line => ?_
  cases line with
  | none => exact .bind allocate_sameExtent fun p hp => .ok hp
  | some line => exact .bind_any fun r => .bind_any fun r' => .ok (update_sameExtent _ _)

omit [Platform] in
/-- A scroll may add a row to the history. -/
theorem scrollDownOneLine_sameExtent {topMargin bottomMargin : Int} {style : Style} :
    Ensures (SameExtent b) (b.scrollDownOneLine topMargin bottomMargin style) := by
  unfold scrollDownOneLine
  refine .ite (fun _ => .error _) fun _ => ?_
  refine .bind blockCopyLinesDown_sameExtent fun b₁ h₁ => .bind_any fun below => ?_
  refine .bind blockCopyLinesDown_sameExtent fun b₂ h₂ => .bind_any fun first => .bind_any fun row => ?_
  have h₁₂ := h₁.trans h₂
  refine blankLine_sameExtent.mono fun b₃ h₃ =>
    ⟨⟨h₃.columns.trans h₁₂.columns, h₃.screen.trans h₁₂.screen, h₃.total.trans h₁₂.total⟩,
      fun hb => h₃.history ?_⟩
  have := h₁₂.history hb
  simp only
  split_ifs
  · omega
  · exact this

/-- What a resize leaves behind. -/
structure Extent (newRows newTotalRows : Int) (b : TerminalBuffer) : Prop where
  screen : b.mScreenRows = newRows
  total : b.mTotalRows = newTotalRows
  history : 0 ≤ b.mActiveTranscriptRows

variable {newColumns newRows newTotalRows : Int} {cursor : Int × Int} {style : Style}

omit [ShortStore] [Platform] in
theorem Extent.same (h : Extent newRows newTotalRows b) (hb : SameExtent b b') :
    Extent newRows newTotalRows b' :=
  ⟨hb.screen.trans h.screen, hb.total.trans h.total, hb.history h.history⟩

omit [Platform] in
theorem resizeRows_extent {altScreen : Bool} :
    Ensures (fun p => Extent newRows newTotalRows p.1)
      (b.resizeRows newRows newTotalRows cursor style altScreen) := by
  unfold resizeRows
  refine .bind_any fun p => .bind_any fun first => .ok ⟨rfl, rfl, ?_⟩
  simp only
  split_ifs
  · exact le_refl (0 : Int)
  · exact le_max_left _ _

omit [Platform] in
theorem extent_survives : Survives (Extent newRows newTotalRows) where
  setChar _ _ _ _ _ h := setChar_sameExtent.mono fun _ hb => h.same hb
  setLineWrap _ _ h := putLineWrap_sameExtent.mono fun _ hb => h.same hb
  scroll _ _ _ _ h := scrollDownOneLine_sameExtent.mono fun _ hb => h.same hb

omit [Platform] in
theorem resize_extent {altScreen : Bool} :
    Ensures (fun p => Extent newRows newTotalRows p.1)
      (b.resize newColumns newRows newTotalRows cursor style altScreen) := by
  unfold resize
  refine .bind (P := fun p => Extent newRows newTotalRows p.1) ?_ fun p hp => .ok hp
  refine .ite (fun _ => resizeRows_extent) fun _ => extent_survives.resizeReflow ?_
  intro b₁ hs ht hh _
  exact ⟨hs, ht, hh.ge⟩

omit [Platform] in
theorem new_extent {columns totalRows screenRows : Int} :
    Ensures (Extent screenRows totalRows) (new columns totalRows screenRows) := by
  unfold new
  refine .bind_any fun lines => blockSet_sameExtent.mono fun b hb => ?_
  exact ⟨hb.screen, hb.total, hb.history (le_refl (0 : Int))⟩

end TerminalBuffer

/-- The current screen has the rows of the screen, and above it a history. -/
structure Geometry.Shown (g : Geometry) : Prop where
  rows : 1 ≤ g.mRows
  screen : g.mScreen.mScreenRows = g.mRows
  main : 0 ≤ g.mMainBuffer.mActiveTranscriptRows ∧ 1 ≤ g.mMainBuffer.mTotalRows
  alt : 0 ≤ g.mAltBuffer.mActiveTranscriptRows ∧ 1 ≤ g.mAltBuffer.mTotalRows

namespace Display

open TerminalBuffer (SameExtent)

variable {d : Display}

/-! ## Drawing -/

omit [ShortStore] [Platform] in
theorem onScreen_shown (h : d.Shown) {f : TerminalBuffer → Java TerminalBuffer}
    (hf : Ensures (SameExtent d.mScreen) (f d.mScreen)) : Ensures (fun d' => d'.Shown) (d.onScreen f) := by
  unfold onScreen
  refine .bind hf fun b hb => .ok ?_
  cases halt : d.altActive with
  | true =>
    have hscreen := h.screen
    simp only [Geometry.mScreen, halt, if_true] at hb hscreen
    refine ⟨h.rows, ?_, ?_, ?_⟩
    · simpa [Geometry.mScreen, setScreen, halt] using hb.screen.trans hscreen
    · simpa [setScreen, halt] using h.main
    · simp only [setScreen, halt, if_true]
      exact ⟨hb.history h.alt.1, hb.total.symm ▸ h.alt.2⟩
  | false =>
    have hscreen := h.screen
    simp only [Geometry.mScreen, halt, Bool.false_eq_true, if_false] at hb hscreen
    refine ⟨h.rows, ?_, ?_, ?_⟩
    · simpa [Geometry.mScreen, setScreen, halt] using hb.screen.trans hscreen
    · simp only [setScreen, halt, Bool.false_eq_true, if_false]
      exact ⟨hb.history h.main.1, hb.total.symm ▸ h.main.2⟩
    · simpa [setScreen, halt] using h.alt

omit [Platform] in
theorem blockSet_shown (h : d.Shown) {sx sy w h' : Int} {val : Nat} {style : Style} :
    Ensures (fun d' => d'.Shown) (d.onScreen fun b => b.blockSet sx sy w h' val style) :=
  onScreen_shown h TerminalBuffer.blockSet_sameExtent

omit [Platform] in
theorem blockClear_shown (h : d.Shown) {sx sy w h' : Int} :
    Ensures (fun d' => d'.Shown) (d.blockClear sx sy w h') :=
  blockSet_shown h

omit [Platform] in
theorem blockCopy_shown (h : d.Shown) {sx sy w h' dx dy : Int} :
    Ensures (fun d' => d'.Shown) (d.onScreen fun b => b.blockCopy sx sy w h' dx dy) :=
  onScreen_shown h TerminalBuffer.blockCopy_sameExtent

omit [ShortStore] [Platform] in
theorem clearWrap_shown (h : d.Shown) : d.clearWrap.Shown := ⟨h.rows, h.screen, h.main, h.alt⟩

omit [Platform] in
theorem scrollDownOneLine_shown (h : d.Shown) : Ensures (fun d' => d'.Shown) d.scrollDownOneLine := by
  have hcount : d.countScroll.Shown := ⟨h.rows, h.screen, h.main, h.alt⟩
  unfold scrollDownOneLine
  refine .ite (fun _ => ?_) fun _ => onScreen_shown hcount TerminalBuffer.scrollDownOneLine_sameExtent
  exact .bind (blockCopy_shown hcount) fun _ hd => blockSet_shown hd

omit [Platform] in
theorem doLinefeed_shown (h : d.Shown) : Ensures (fun d' => d'.Shown) d.doLinefeed := by
  unfold doLinefeed
  refine .ite (fun _ => .ok ?_) fun _ => .ite (fun _ => ?_) fun _ => .ok ⟨h.rows, h.screen, h.main, h.alt⟩
  · split_ifs
    · exact ⟨h.rows, h.screen, h.main, h.alt⟩
    · exact h
  · exact .bind (scrollDownOneLine_shown h) fun _ hd => .ok ⟨hd.rows, hd.screen, hd.main, hd.alt⟩

omit [Platform] in
theorem wrapLine_shown (h : d.Shown) : Ensures (fun d' => d'.Shown) d.wrapLine := by
  unfold wrapLine
  refine .bind (onScreen_shown h TerminalBuffer.putLineWrap_sameExtent) fun d₁ h₁ => ?_
  refine .ite (fun _ => .ok ⟨h₁.rows, h₁.screen, h₁.main, h₁.alt⟩) fun _ => ?_
  exact scrollDownOneLine_shown ⟨h₁.rows, h₁.screen, h₁.main, h₁.alt⟩

omit [Platform] in
theorem placeCodePoint_shown (h : d.Shown) {codePoint : Nat} {autoWrap : Bool} :
    Ensures (fun d' => d'.Shown) (d.placeCodePoint codePoint autoWrap) := by
  unfold placeCodePoint
  refine .bind (P := fun d' => d'.Shown) ?_ fun d₁ h₁ => ?_
  · exact .ite (fun _ => blockCopy_shown h) fun _ => .ok h
  · exact .bind (onScreen_shown h₁ TerminalBuffer.setChar_sameExtent) fun d₂ h₂ =>
      .ok ⟨h₂.rows, h₂.screen, h₂.main, h₂.alt⟩

omit [Platform] in
theorem emitCodePoint_shown (h : d.Shown) {codePoint : Nat} :
    Ensures (fun d' => d'.Shown) (d.emitCodePoint codePoint) := by
  have hremember : (d.remember codePoint).Shown := ⟨h.rows, h.screen, h.main, h.alt⟩
  unfold emitCodePoint
  refine .ite (fun _ => ?_) fun _ => .ite (fun _ => .ok hremember) fun _ => placeCodePoint_shown hremember
  refine .bind (P := fun d' => d'.Shown) ?_ fun d₁ h₁ => placeCodePoint_shown h₁
  exact .ite (fun _ => wrapLine_shown hremember) fun _ => .ok hremember

/-! ## Edits -/

omit [Platform] in
theorem eraseInDisplay_shown (h : d.Shown) {arg : Int} :
    Ensures (fun d' => d'.Shown) (d.eraseInDisplay arg) := by
  unfold eraseInDisplay
  refine .bind (P := fun d' => d'.Shown) ?_ fun d₁ h₁ => .ok (clearWrap_shown h₁)
  refine .ite (fun _ => ?_) fun _ => .ite (fun _ => ?_) fun _ => blockClear_shown h
  · exact .bind (blockClear_shown h) fun _ hd => blockClear_shown hd
  · exact .bind (blockClear_shown h) fun _ hd => blockClear_shown hd

omit [Platform] in
theorem eraseInLine_shown (h : d.Shown) {arg : Int} :
    Ensures (fun d' => d'.Shown) (d.eraseInLine arg) := by
  unfold eraseInLine
  refine .bind (P := fun d' => d'.Shown) ?_ fun d₁ h₁ => .ok (clearWrap_shown h₁)
  refine .ite (fun _ => blockClear_shown h) fun _ => ?_
  exact .ite (fun _ => blockClear_shown h) fun _ => blockClear_shown h

omit [Platform] in
theorem fillCells_shown (h : d.Shown) {fillChar : Nat} {selective keepVisualAttributes : Bool}
    {startRow endRow startCol endCol : Int} :
    Ensures (fun d' => d'.Shown)
      (d.fillCells fillChar selective keepVisualAttributes startRow endRow startCol endCol) := by
  refine onScreen_shown h (.forUp (fun row b _ _ hb => ?_) (.refl _))
  refine .forUp (fun col b₁ _ _ h₁ => ?_) hb
  unfold fillCell
  refine .bind (P := fun p => SameExtent b₁ p.1) ?_ fun p hp => .ite (fun _ => .ok (h₁.trans hp)) fun _ => ?_
  · refine .ite (fun _ => ?_) fun _ => .ok (.refl b₁)
    exact .bind TerminalBuffer.getStyleAt_sameExtent fun q hq => .ok hq
  · refine .bind (P := fun q => SameExtent p.1 q.1) ?_ fun q hq => ?_
    · exact .ite (fun _ => TerminalBuffer.getStyleAt_sameExtent) fun _ => .ok (.refl p.1)
    · exact TerminalBuffer.setChar_sameExtent.mono fun b₂ h₂ => h₁.trans (hp.trans (hq.trans h₂))

omit [Platform] in
theorem selectiveErase_shown (h : d.Shown) {justRow : Bool} {arg : Int} :
    Ensures (fun d' => d'.Shown) (d.selectiveErase justRow arg) := by
  have hclear := clearWrap_shown h
  unfold selectiveErase
  refine .ite (fun _ => fillCells_shown hclear) fun _ => .ite (fun _ => fillCells_shown hclear) fun _ => ?_
  exact .ite (fun _ => fillCells_shown hclear) fun _ => .ok hclear

omit [ShortStore] [Platform] in
theorem changeAttribute_shown (h : d.Shown) {reverse : Bool} {rectangle : Int × Int × Int × Int}
    {code : Int} : Ensures (fun d' => d'.Shown) (d.changeAttribute reverse rectangle code) := by
  unfold changeAttribute
  exact .ite (fun _ => .ok h) fun _ => onScreen_shown h TerminalBuffer.setOrClearEffect_sameExtent

omit [Platform] in
theorem edit_shown (h : d.Shown) (e : Edit) : Ensures (fun d' => d'.Shown) (e.run d) := by
  cases e with
  | alignmentTest => exact blockSet_shown h
  | eraseScreen => exact blockClear_shown h
  | insertCharacters n => exact .bind (blockCopy_shown (clearWrap_shown h)) fun _ hd => blockClear_shown hd
  | deleteCharacters n => exact .bind (blockCopy_shown (clearWrap_shown h)) fun _ hd => blockClear_shown hd
  | eraseCharacters n => exact blockSet_shown (clearWrap_shown h)
  | eraseInDisplay arg => exact eraseInDisplay_shown h
  | eraseInLine arg => exact eraseInLine_shown h
  | insertLines n => exact .bind (blockCopy_shown h) fun _ hd => blockClear_shown hd
  | deleteLines n => exact .bind (blockCopy_shown (clearWrap_shown h)) fun _ hd => blockClear_shown hd
  | scrollUp n => exact .forUp (fun _ _ _ _ hd => scrollDownOneLine_shown hd) h
  | scrollDown n => exact .bind (blockCopy_shown h) fun _ hd => blockClear_shown hd
  | insertColumns n => exact .bind (blockCopy_shown h) fun _ hd => blockClear_shown hd
  | deleteColumns n => exact blockCopy_shown h
  | selectiveErase justRow arg => exact selectiveErase_shown h
  | fillRectangle fillChar selective top left bottom right =>
    exact .ite (fun _ => fillCells_shown h) fun _ => .ok h
  | copyRectangle top left bottom right destinationTop destinationLeft => exact blockCopy_shown h
  | changeAttributes reverse top left bottom right codes =>
    exact .foldlM codes (fun _ _ _ hd => changeAttribute_shown hd) h

/-! ## Everything else -/

omit [ShortStore] [Platform] in
theorem setDecsetinternalBit_geometry (internalBit : BitVec 32) (set : Bool) :
    (d.setDecsetinternalBit internalBit set).toGeometry = d.toGeometry :=
  congrArg Core.geometry (setDecsetinternalBit_core internalBit set)

omit [ShortStore] in
theorem appearance_geometry (a : Appearance) : (a.run d).toGeometry = d.toGeometry := by
  by_cases h : ∃ bit, a = .saveMode bit
  · obtain ⟨bit, rfl⟩ := h
    rfl
  · exact congrArg Core.geometry (appearance_core a fun bit hbit => h ⟨bit, hbit⟩)

omit [ShortStore] [Platform] in
theorem shown_of_geometry {d' : Display} (h : d.Shown) (heq : d'.toGeometry = d.toGeometry) : d'.Shown := by
  rw [heq]
  exact h

/-! ## Cursor, margins and modes -/

omit [ShortStore] [Platform] in
theorem motion_shown (h : d.Shown) (m : Motion) : (m.run d).Shown := by
  cases m <;> exact ⟨h.rows, h.screen, h.main, h.alt⟩

omit [ShortStore] [Platform] in
theorem saveCursor_shown (h : d.Shown) : d.saveCursor.Shown := by
  unfold saveCursor
  simp only
  split_ifs
  · exact ⟨h.rows, h.screen, h.main, h.alt⟩
  · exact ⟨h.rows, h.screen, h.main, h.alt⟩

omit [ShortStore] [Platform] in
theorem restoreCursor_shown (h : d.Shown) : d.restoreCursor.Shown := ⟨h.rows, h.screen, h.main, h.alt⟩

omit [ShortStore] [Platform] in
theorem backspace_shown (h : d.Shown) : Ensures (fun d' => d'.Shown) d.backspace := by
  unfold backspace
  refine .ite (fun _ => ?_) fun _ => .ok ⟨h.rows, h.screen, h.main, h.alt⟩
  refine .ite (fun _ => .bind_any fun wrapped => ?_) fun _ => .ok h
  refine .ite (fun _ => ?_) fun _ => .ok h
  exact .bind (onScreen_shown h TerminalBuffer.putLineWrap_sameExtent) fun d₁ h₁ =>
    .ok ⟨h₁.rows, h₁.screen, h₁.main, h₁.alt⟩

omit [Platform] in
theorem reverseIndex_shown (h : d.Shown) : Ensures (fun d' => d'.Shown) d.reverseIndex := by
  unfold reverseIndex
  refine .ite (fun _ => ?_) fun _ => .ok ⟨h.rows, h.screen, h.main, h.alt⟩
  exact .bind (blockCopy_shown h) fun _ hd => blockClear_shown hd

omit [Platform] in
theorem backIndex_shown (h : d.Shown) : Ensures (fun d' => d'.Shown) d.backIndex := by
  unfold backIndex
  refine .ite (fun _ => .ok ⟨h.rows, h.screen, h.main, h.alt⟩) fun _ => ?_
  exact .bind (blockCopy_shown h) fun _ hd => blockSet_shown hd

omit [Platform] in
theorem forwardIndex_shown (h : d.Shown) : Ensures (fun d' => d'.Shown) d.forwardIndex := by
  unfold forwardIndex
  refine .ite (fun _ => .ok ⟨h.rows, h.screen, h.main, h.alt⟩) fun _ => ?_
  exact .bind (blockCopy_shown h) fun _ hd => blockSet_shown hd

omit [ShortStore] in
theorem reset_shown (h : d.Shown) : Ensures (fun d' => d'.Shown) d.reset := by
  unfold reset setDefaultTabStops
  refine .bind (P := fun d' => d'.Shown) (.bind_any fun stops => .ok ?_) fun d₁ h₁ => .ok ?_
  · exact ⟨h.rows, h.screen, h.main, h.alt⟩
  · exact ⟨h₁.rows, h₁.screen, h₁.main, h₁.alt⟩

/-! ## Screens -/

omit [Platform] in
/-- The current screen takes on the rows of the screen. -/
theorem resizeScreen_shown (hrows : 1 ≤ d.mRows)
    (hmain : 0 ≤ d.mMainBuffer.mActiveTranscriptRows ∧ 1 ≤ d.mMainBuffer.mTotalRows)
    (halt : 0 ≤ d.mAltBuffer.mActiveTranscriptRows ∧ 1 ≤ d.mAltBuffer.mTotalRows) :
    Ensures (fun d' => d'.Shown) d.resizeScreen := by
  unfold resizeScreen
  refine .bind TerminalBuffer.resize_extent fun p hp => .ok ?_
  cases hactive : d.altActive with
  | true =>
    have htotal := hp.total
    simp only [hactive, if_true] at htotal
    refine ⟨hrows, ?_, ?_, ?_⟩
    · simpa [Geometry.mScreen, setScreen, hactive] using hp.screen
    · simpa [setScreen, hactive] using hmain
    · simp only [setScreen, hactive, if_true]
      exact ⟨hp.history, htotal.symm ▸ hrows⟩
  | false =>
    have htotal := hp.total
    simp only [hactive, Bool.false_eq_true, if_false] at htotal
    refine ⟨hrows, ?_, ?_, ?_⟩
    · simpa [Geometry.mScreen, setScreen, hactive] using hp.screen
    · simp only [setScreen, hactive, Bool.false_eq_true, if_false]
      exact ⟨hp.history, htotal.symm ▸ hmain.2⟩
    · simpa [setScreen, hactive] using halt

omit [Platform] in
theorem useScreen_shown (h : d.Shown) (setting : Bool) :
    Ensures (fun d' => d'.Shown) (d.useScreen setting) := by
  unfold useScreen
  refine .ite (fun _ => .ok h) fun _ => .ite (fun hset => ?_) fun hset => ?_
  · have hsaved := saveCursor_shown h
    have hbuffer : d.saveCursor.mAltBuffer = d.mAltBuffer ∧ d.saveCursor.mRows = d.mRows := by
      unfold saveCursor
      simp only
      split_ifs
      · exact ⟨rfl, rfl⟩
      · exact ⟨rfl, rfl⟩
    refine .bind (P := fun d' => d'.Shown) ?_ fun d₁ h₁ => blockSet_shown h₁
    refine .ite (fun _ => resizeScreen_shown hsaved.rows hsaved.main hsaved.alt) fun hsame => .ok ?_
    refine ⟨hsaved.rows, ?_, hsaved.main, hsaved.alt⟩
    have hfit : d.mAltBuffer.mColumns = d.mColumns ∧ d.mAltBuffer.mScreenRows = d.mRows := by
      simpa [hset] using hsame
    change d.saveCursor.mAltBuffer.mScreenRows = d.saveCursor.mRows
    rw [hbuffer.1, hbuffer.2]
    exact hfit.2
  · refine .ite (fun _ => resizeScreen_shown h.rows h.main h.alt) fun hsame => .ok ?_
    refine ⟨h.rows, ?_, h.main, h.alt⟩
    have hfit : d.mMainBuffer.mColumns = d.mColumns ∧ d.mMainBuffer.mScreenRows = d.mRows := by
      simpa [hset] using hsame
    exact hfit.2

omit [Platform] in
theorem resetPage_shown (h : d.Shown) : Ensures (fun d' => d'.Shown) d.resetPage := by
  unfold resetPage
  refine .bind (blockClear_shown ?_) fun d₁ h₁ => .ok ⟨h₁.rows, h₁.screen, h₁.main, h₁.alt⟩
  exact shown_of_geometry (d := { d with
    mLeftMargin := 0
    mTopMargin := 0
    mBottomMargin := d.mRows
    mRightMargin := d.mColumns }) ⟨h.rows, h.screen, h.main, h.alt⟩ (setDecsetinternalBit_geometry _ _)

theorem doDecSetOrReset_shown (h : d.Shown) (setting : Bool) (externalBit : Int) :
    Ensures (fun d' => d'.Shown) (d.doDecSetOrReset setting externalBit) := by
  unfold doDecSetOrReset
  extract_lets d₁
  have h₁ : d₁.Shown := by
    simp only [d₁]
    split
    · exact shown_of_geometry h (setDecsetinternalBit_geometry _ _)
    · exact h
  refine .ite (fun _ => resetPage_shown h₁) fun _ => .ite (fun _ => .ok ?_) fun _ => ?_
  · split_ifs
    · exact ⟨h₁.rows, h₁.screen, h₁.main, h₁.alt⟩
    · exact h₁
  refine .ite (fun _ => .ok ?_) fun _ => .ite (fun _ => .ok ?_) fun _ => ?_
  · split_ifs
    · exact h₁
    · exact h₁
  · split_ifs
    · exact h₁
    · exact ⟨h₁.rows, h₁.screen, h₁.main, h₁.alt⟩
  refine .ite (fun _ => .ok ?_) fun _ => .ite (fun _ => useScreen_shown h₁ setting) fun _ => .ok h₁
  split_ifs
  · exact saveCursor_shown h₁
  · exact restoreCursor_shown h₁

omit [ShortStore] [Platform] in
theorem clearTranscript_shown (h : d.Shown) :
    Ensures (fun main => Geometry.Shown { d.toGeometry with mMainBuffer := main })
      d.mMainBuffer.clearTranscript := by
  refine TerminalBuffer.clearTranscript_sameExtent.mono fun main hmain => ?_
  refine ⟨h.rows, ?_, ⟨hmain.history h.main.1, hmain.total.symm ▸ h.main.2⟩, h.alt⟩
  have hscreen := h.screen
  unfold Geometry.mScreen at hscreen ⊢
  split_ifs at hscreen ⊢
  · exact hscreen
  · exact hmain.screen.trans hscreen

theorem control_shown (h : d.Shown) (c : Control) : Ensures (fun d' => d'.Shown) (c.run d) := by
  cases c with
  | appearance a => exact .ok (shown_of_geometry h (appearance_geometry a))
  | motion m => exact .ok (motion_shown h m)
  | edit e => exact edit_shown h e
  | emit codePoint => exact emitCodePoint_shown h
  | repeatCharacter n =>
    simp only [Control.run, repeatCharacter]
    cases d.mLastEmittedCodePoint with
    | none => exact .ok h
    | some codePoint => exact .forUp (fun _ _ _ _ hd => emitCodePoint_shown hd) h
  | backspace => exact backspace_shown h
  | horizontalTab => exact .bind_any fun col => .ok ⟨h.rows, h.screen, h.main, h.alt⟩
  | forwardTab n => exact .bind_any fun col => .ok ⟨h.rows, h.screen, h.main, h.alt⟩
  | backwardTab n => exact .bind_any fun col => .ok ⟨h.rows, h.screen, h.main, h.alt⟩
  | setTabStop set => exact .bind_any fun stops => .ok ⟨h.rows, h.screen, h.main, h.alt⟩
  | clearTabStops => exact .bind_any fun stops => .ok ⟨h.rows, h.screen, h.main, h.alt⟩
  | lineFeed => exact doLinefeed_shown h
  | nextLine => exact doLinefeed_shown ⟨h.rows, h.screen, h.main, h.alt⟩
  | reverseIndex => exact reverseIndex_shown h
  | backIndex => exact backIndex_shown h
  | forwardIndex => exact forwardIndex_shown h
  | saveCursor => exact .ok (saveCursor_shown h)
  | restoreCursor => exact .ok (restoreCursor_shown h)
  | setTopBottomMargins top bottom => exact .ok ⟨h.rows, h.screen, h.main, h.alt⟩
  | setLeftRightMargins left right =>
    exact .ite (fun _ => .ok ⟨h.rows, h.screen, h.main, h.alt⟩) fun _ => .ok (saveCursor_shown h)
  | decSetOrReset setting externalBit => exact doDecSetOrReset_shown h setting externalBit
  | restoreMode externalBit internalBit => exact doDecSetOrReset_shown h _ externalBit
  | clearTranscript => exact .bind (clearTranscript_shown h) fun main hmain => .ok hmain
  | eraseTranscript =>
    exact .bind (clearTranscript_shown h) fun main hmain =>
      .ok ⟨hmain.rows, hmain.screen, hmain.main, hmain.alt⟩
  | setTextParameter value textParameter terminator =>
    exact (setTextParameter_core value textParameter terminator).mono fun _ hd =>
      shown_of_geometry h (congrArg Core.geometry hd)
  | reset => exact reset_shown h

omit [Platform] in
theorem resize_shown (h : d.Shown) {columns rows : Int} :
    Ensures (fun d' => d'.Shown) (d.resize columns rows) := by
  unfold resize
  refine .ite (fun _ => .ok h) fun _ => .ite (fun _ => .error _) fun hsize => ?_
  -- Only the sizes change before the buffer is resized.
  refine .bind (P := fun d' => d'.mRows = rows ∧ d'.mMainBuffer = d.mMainBuffer ∧
    d'.mAltBuffer = d.mAltBuffer) ?_ fun d₁ ⟨hrows, hmain, halt⟩ => ?_
  · generalize hd₁ : (if d.mRows ≠ rows then
      { d with mRows := rows, mTopMargin := 0, mBottomMargin := rows } else d) = d₁
    have h₁ : d₁.mRows = rows ∧ d₁.mMainBuffer = d.mMainBuffer ∧ d₁.mAltBuffer = d.mAltBuffer := by
      rw [← hd₁]
      split_ifs with hne
      · exact ⟨rfl, rfl, rfl⟩
      · exact ⟨not_not.mp hne, rfl, rfl⟩
    refine .ite (fun _ => .bind_any fun stops => ?_) fun _ => .ok h₁
    unfold setDefaultTabStops
    refine .bind (P := fun d' => d'.mRows = rows ∧ d'.mMainBuffer = d.mMainBuffer ∧
      d'.mAltBuffer = d.mAltBuffer) (.bind_any fun _ => .ok h₁) fun d₂ h₂ => ?_
    exact .bind_any fun _ => .ok h₂
  · apply resizeScreen_shown
    · omega
    · rw [hmain]
      exact h.main
    · rw [halt]
      exact h.alt

end Display

namespace TerminalEmulator

variable {e : TerminalEmulator}

theorem processCodePoint_shown (h : e.Shown) (b : Nat) :
    Ensures (fun e' => e'.Shown) (e.processCodePoint b) := by
  unfold processCodePoint Terminal.processCodePoint
  refine .bind (P := fun t => t.Shown) (.bind_any fun p => ?_) fun t ht => .ok ht
  exact .bind (.foldlM p.2 (fun _ c _ hd => Display.control_shown hd c) h) fun d hd => .ok hd

theorem processFirstByte_shown (h : e.Shown) (b : Byte) :
    Ensures (fun e' => e'.Shown) (e.processFirstByte b) := by
  unfold processFirstByte
  refine .ite (fun _ => processCodePoint_shown h _) fun _ => ?_
  refine .ite (fun _ => .bind_any fun _ => .ok h) fun _ => ?_
  refine .ite (fun _ => .bind_any fun _ => .ok h) fun _ => ?_
  exact .ite (fun _ => .bind_any fun _ => .ok h) fun _ => processCodePoint_shown h _

theorem processByte_shown (h : e.Shown) (b : Byte) :
    Ensures (fun e' => e'.Shown) (e.processByte b) := by
  unfold processByte
  refine .ite (fun _ => .ite (fun _ => .bind_any fun buffer => ?_) fun _ => ?_) fun _ =>
    processFirstByte_shown h b
  · refine .ite (fun _ => .bind_any fun codePoint => ?_) fun _ => .ok h
    simp only
    split
    · exact .ok h
    · exact processCodePoint_shown (e := { e with
        mUtf8InputBuffer := buffer
        mUtf8Index := 0
        mUtf8ToFollow := 0 }) h _
  · exact .bind (Display.emitCodePoint_shown h) fun d hd =>
      processFirstByte_shown (e := { e with toDisplay := d, mUtf8Index := 0, mUtf8ToFollow := 0 }) hd b

theorem append_shown (h : e.Shown) (bytes : List Byte) :
    Ensures (fun e' => e'.Shown) (e.append bytes) :=
  .foldlM bytes (fun _ b _ he => processByte_shown he b) h

omit [Platform] in
theorem resize_shown (h : e.Shown) {columns rows : Int} :
    Ensures (fun e' => e'.Shown) (e.resize columns rows) := by
  unfold resize
  exact .bind (Display.resize_shown h) fun d hd => .ok hd

omit [ShortStore] [Platform] in
theorem getTerminalTranscriptRows_pos (transcriptRows : Option Int) :
    100 ≤ getTerminalTranscriptRows transcriptRows := by
  unfold getTerminalTranscriptRows defaultTerminalTranscriptRows
  cases transcriptRows with
  | none => decide
  | some rows =>
    simp only
    split_ifs <;> omega

theorem new_shown {columns rows : Int} (hrows : 1 ≤ rows) (transcriptRows : Option Int) :
    Ensures (fun e => e.Shown) (new columns rows transcriptRows) := by
  have htotal := getTerminalTranscriptRows_pos transcriptRows
  unfold new
  refine .bind TerminalBuffer.new_extent fun main hmain => ?_
  refine .bind TerminalBuffer.new_extent fun alt halt => .bind_any fun stops => ?_
  have hmain' : 1 ≤ main.mTotalRows := by
    rw [hmain.total]
    omega
  have halt' : 1 ≤ alt.mTotalRows := by
    rw [halt.total]
    exact hrows
  refine .bind (Display.reset_shown ?_) fun d hd => .ok hd
  exact ⟨hrows, hmain.screen, ⟨hmain.history, hmain'⟩, ⟨halt.history, halt'⟩⟩

end TerminalEmulator

end XoDos
