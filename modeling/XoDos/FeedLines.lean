import XoDos.BufferScroll
import XoDos.TerminalEmulator

/-!
# Line feeds

On a main screen with full margins a line feed moves the cursor down, and on the
bottom row it scrolls.  Each scroll adds one to the scroll counter, an `int`.
-/

namespace XoDos

namespace TerminalBuffer

variable {b : TerminalBuffer}

/-- The row that is blanked is not too long for a `short`. -/
theorem scrollDownOneLine_valid (h : Valid b) (hnarrow : b.mColumns ≤ 32767) {top bottom : Int} (h₀ : 0 ≤ top)
    (htb : top < bottom) (hbs : bottom ≤ b.mScreenRows) (style : Style) :
    ∃ b' blank, b.scrollDownOneLine top bottom style = .ok b' ∧ Valid b' ∧
      b'.mColumns = b.mColumns ∧ ScrolledRows b top bottom blank b' := by
  obtain ⟨b', blank, hb', -, hrows⟩ := scrollDownOneLine_rows h h₀ htb hbs style
  have hruns := @scrollDownOneLine_runs b False False h top bottom style
    (fun hn => hn ⟨h₀, htb, hbs⟩) (fun hwide => by omega)
  rcases hruns with ⟨hfalse, -⟩ | ⟨b'', hb'', -, hvalid, hcolumns, -⟩ | ⟨hfalse, -⟩
  · exact hfalse.elim
  · cases hb'.symm.trans hb''
    exact ⟨b', blank, hb', hvalid, hcolumns, hrows⟩
  · exact hfalse.elim

end TerminalBuffer

/-- Adding to an `int` that has overflowed before. -/
theorem toInt32_add_one (n : Int) : toInt32 (toInt32 n + 1) = toInt32 (n + 1) := by
  unfold toInt32
  omega

namespace Display

/-- The main screen is shown, with full margins. -/
structure OnMain (d : Display) : Prop where
  main : d.mMainBuffer.Valid
  isMain : d.altActive = false
  screenRows : d.mMainBuffer.mScreenRows = d.mRows
  margins : (d.mTopMargin = 0 ∧ d.mBottomMargin = d.mRows) ∧
    d.mLeftMargin = 0 ∧ d.mRightMargin = d.mColumns

/-- Besides, the cursor is on the screen. -/
structure FeedsLines (d : Display) : Prop extends OnMain d where
  narrow : d.mMainBuffer.mColumns ≤ 32767
  onScreen : 0 ≤ d.mCursorRow ∧ d.mCursorRow < d.mRows

variable {d : Display}

theorem OnMain.mScreen (h : d.OnMain) : d.mScreen = d.mMainBuffer := by
  simp [Geometry.mScreen, h.isMain]

/-- The whole main screen scrolls. -/
theorem OnMain.scrollDownOneLine (h : d.OnMain) : d.scrollDownOneLine =
    d.mMainBuffer.scrollDownOneLine 0 d.mRows d.getStyle >>= fun b =>
      .ok { d.countScroll with mMainBuffer := b } := by
  have hmargins := h.margins
  unfold Display.scrollDownOneLine
  simp only
  rw [if_neg (by simp [countScroll, hmargins.2])]
  unfold onScreen
  have hscreen : d.countScroll.mScreen = d.mMainBuffer := h.mScreen
  have hset : d.countScroll.setScreen = fun b => { d.countScroll with mMainBuffer := b } := by
    funext b
    simp [setScreen, countScroll, h.isMain]
  have hcall : d.mMainBuffer.scrollDownOneLine d.countScroll.mTopMargin d.countScroll.mBottomMargin
      d.countScroll.getStyle = d.mMainBuffer.scrollDownOneLine 0 d.mRows d.getStyle := by
    show d.mMainBuffer.scrollDownOneLine d.mTopMargin d.mBottomMargin d.getStyle = _
    rw [hmargins.1.1, hmargins.1.2]
  rw [hscreen, hset]
  simp only
  rw [hcall]
  rfl

theorem scrollDownOneLine_feedsLines (h : d.FeedsLines) :
    ∃ b blank, d.scrollDownOneLine = .ok { d.countScroll with mMainBuffer := b } ∧
      FeedsLines { d.countScroll with mMainBuffer := b } ∧
      d.mMainBuffer.ScrolledRows 0 d.mRows blank b := by
  have hrow := h.onScreen
  obtain ⟨b, blank, hb, hv, hcolumns, hrows⟩ := TerminalBuffer.scrollDownOneLine_valid h.main h.narrow
    le_rfl (show 0 < d.mRows by omega) h.screenRows.ge d.getStyle
  refine ⟨b, blank, ?_, ⟨⟨hv, h.isMain, hrows.screen.trans h.screenRows, h.margins⟩,
    hcolumns.trans_le h.narrow, h.onScreen⟩, hrows⟩
  rw [h.scrollDownOneLine, hb]
  rfl

theorem setDefaultTabStops_eq (d : Display) :
    Ensures (fun d' => ∃ stops, d' = { d with mTabStop := stops }) d.setDefaultTabStops := by
  unfold setDefaultTabStops
  exact .bind_any fun stops => .ok ⟨stops, rfl⟩

/-- The row and the counter after `n` lines, in a display that begins with `row` and `counter`. -/
structure Fed (row counter : Int) (n : Nat) (columns rows : Int) (d : Display) : Prop extends
    FeedsLines d where
  columns_eq : d.mColumns = columns
  rows_eq : d.mRows = rows
  row_eq : d.mCursorRow = min (row + n) (rows - 1)
  counter_eq : d.mScrollCounter = toInt32 (counter + max 0 (row + n - (rows - 1)))

theorem doLinefeed_fed {row counter : Int} {n : Nat} {columns rows : Int}
    (h : d.Fed row counter n columns rows) :
    ∃ d', d.doLinefeed = .ok d' ∧ d'.Fed row counter (n + 1) columns rows := by
  have hmargins := h.margins
  have hcursor := h.onScreen
  have heq := h.row_eq
  have hrows := h.rows_eq
  unfold doLinefeed
  simp only
  rw [if_neg (by omega)]
  by_cases hbottom : d.mCursorRow + 1 = d.mBottomMargin
  · rw [if_pos hbottom]
    obtain ⟨b, blank, hb, hfeeds, -⟩ := scrollDownOneLine_feedsLines h.toFeedsLines
    rw [hb]
    refine ⟨_, rfl, ⟨⟨hfeeds.main, hfeeds.isMain, hfeeds.screenRows, hfeeds.margins⟩, hfeeds.narrow,
      ?_⟩, h.columns_eq, hrows, ?_, ?_⟩
    · show 0 ≤ d.mBottomMargin - 1 ∧ d.mBottomMargin - 1 < d.mRows
      omega
    · show d.mBottomMargin - 1 = _
      push_cast
      omega
    · show toInt32 (d.mScrollCounter + 1) = _
      rw [h.counter_eq, toInt32_add_one]
      congr 1
      push_cast
      omega
  · rw [if_neg hbottom]
    refine ⟨_, rfl, ⟨⟨h.main, h.isMain, h.screenRows, h.margins⟩, h.narrow, ?_⟩, h.columns_eq, hrows,
      ?_, ?_⟩
    · show 0 ≤ d.mCursorRow + 1 ∧ d.mCursorRow + 1 < d.mRows
      omega
    · show d.mCursorRow + 1 = _
      push_cast
      omega
    · show d.mScrollCounter = _
      rw [h.counter_eq]
      congr 1
      push_cast
      omega

end Display

namespace TerminalEmulator

variable [Platform] {e : TerminalEmulator}

/-- A line feed is no byte of a sequence, and the parser does not change for it. -/
theorem processByte_lineFeed (hidle : e.mUtf8ToFollow = 0) {d : Display} (hd : e.doLinefeed = .ok d) :
    e.processByte 10 = .ok { e with toDisplay := d } := by
  unfold processByte
  rw [if_neg (by omega)]
  have hterminal : e.toTerminal.processCodePoint 10 = .ok { e.toTerminal with toDisplay := d } := by
    unfold Terminal.processCodePoint
    show (Display.perform e.toDisplay [Control.lineFeed] >>= fun d => _) = _
    unfold Display.perform
    rw [List.foldlM_cons]
    show ((e.doLinefeed >>= fun d => [].foldlM _ d) >>= fun d => _) = _
    rw [hd]
    rfl
  show e.processCodePoint 10 = _
  unfold processCodePoint
  rw [hterminal]
  rfl

theorem append_lineFeeds {row counter columns rows : Int} {m : Nat} (hidle : e.mUtf8ToFollow = 0)
    (h : e.toDisplay.Fed row counter m columns rows) (n : Nat) :
    ∃ e', e.append (List.replicate n 10) = .ok e' ∧ e'.mUtf8ToFollow = 0 ∧
      e'.toDisplay.Fed row counter (m + n) columns rows := by
  induction n generalizing e m with
  | zero => exact ⟨e, rfl, hidle, h⟩
  | succ n ih =>
    obtain ⟨d, hd, hfed⟩ := Display.doLinefeed_fed h
    obtain ⟨e', he', hidle', hfed'⟩ := ih (e := { e with toDisplay := d }) hidle hfed
    refine ⟨e', ?_, hidle', by rw [Nat.add_comm n 1, ← Nat.add_assoc]; exact hfed'⟩
    unfold append at he' ⊢
    rw [List.replicate_succ, List.foldlM_cons, processByte_lineFeed hidle hd]
    exact he'

/-- A new emulator begins in the first row. -/
theorem new_fed {columns rows : Int} (hcolumns : 1 ≤ columns) (hnarrow : columns ≤ 32767)
    (hrows : 1 ≤ rows) (transcriptRows : Option Int)
    (htotal : rows ≤ getTerminalTranscriptRows transcriptRows)
    (hfits : @TerminalBuffer.new trapShort columns (getTerminalTranscriptRows transcriptRows) rows ≠
      .error .shortOverflow) :
    Ensures (fun e => e.mUtf8ToFollow = 0 ∧ e.toDisplay.Fed 0 0 0 columns rows)
      (new columns rows transcriptRows) := by
  have hnew := (@TerminalBuffer.new_keeps False columns (getTerminalTranscriptRows transcriptRows) rows
    hcolumns hrows htotal).ensures hfits
  unfold new
  refine .bind hnew fun main hmain => .bind_any fun alt => .bind_any fun stops => ?_
  obtain ⟨hvalid, hcols, -, hscreen, -⟩ := hmain
  refine .bind (P := fun d => d.Fed 0 0 0 columns rows) ?_ fun d hd => .ok ⟨rfl, hd⟩
  unfold Display.reset
  refine .bind (Display.setDefaultTabStops_eq _) fun d hd => .ok ?_
  rcases hd with ⟨tabStops, rfl⟩
  refine ⟨⟨⟨hvalid, rfl, hscreen, ⟨rfl, rfl⟩, rfl, rfl⟩, hcols.trans_le hnarrow, le_rfl, ?_⟩,
    rfl, rfl, ?_, ?_⟩
  · show (0 : Int) < rows
    omega
  · show (0 : Int) = _
    push_cast
    omega
  · show (0 : Int) = _
    rw [show max 0 (0 + ((0 : Nat) : Int) - (rows - 1)) = 0 by push_cast; omega]
    rfl

end TerminalEmulator

end XoDos
