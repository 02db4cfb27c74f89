import XoDos.BufferSize
import XoDos.TerminalEmulator

/-!
# The main buffer and the size of the screen

The number of rows that the main buffer can hold is fixed when the emulator is
made.  The number of rows of the screen is not compared with it, then or later.
-/

namespace XoDos

variable [ShortStore] [Platform]

namespace Display

/-- A display that shows a main buffer of the size of the screen, with room for `total` rows. -/
structure ShowsMain (total columns rows : Int) (d : Display) : Prop where
  isMain : d.altActive = false
  width : d.mColumns = columns ∧ d.mMainBuffer.mColumns = columns
  height : d.mRows = rows ∧ d.mMainBuffer.mScreenRows = rows
  capacity : d.mMainBuffer.mTotalRows = total
  cursor : d.mCursorCol < columns ∧ d.mCursorRow < rows

variable {d : Display} {total columns rows : Int}

omit [ShortStore] [Platform] in
theorem setDefaultTabStops_showsMain (h : d.ShowsMain total columns rows) :
    Ensures (ShowsMain total columns rows) d.setDefaultTabStops := by
  unfold setDefaultTabStops
  refine .bind_any fun stops => .ok ?_
  exact ⟨h.isMain, h.width, h.height, h.capacity, h.cursor⟩

omit [ShortStore] in
theorem reset_showsMain (h : d.ShowsMain total columns rows) :
    Ensures (ShowsMain total columns rows) d.reset := by
  unfold reset
  refine .bind (@setDefaultTabStops_showsMain _ total columns rows ?_)
    fun d' h' => .ok ?_
  · exact ⟨h.isMain, h.width, h.height, h.capacity, h.cursor⟩
  · exact ⟨h'.isMain, h'.width, h'.height, h'.capacity, h'.cursor⟩

omit [Platform] in
/-- The main buffer takes on the size that the screen has been given. -/
theorem resizeScreen_showsMain {oldColumns oldRows : Int} (hmain : d.altActive = false)
    (hsize : d.mMainBuffer.mColumns = oldColumns ∧ d.mMainBuffer.mScreenRows = oldRows)
    (htotal : d.mMainBuffer.mTotalRows = total)
    (hcursor : d.mCursorCol < oldColumns ∧ d.mCursorRow < oldRows) (hcolumns : 2 ≤ d.mColumns)
    (hrows : 2 ≤ d.mRows) :
    Ensures (ShowsMain total d.mColumns d.mRows) d.resizeScreen := by
  have hscreen : d.mScreen = d.mMainBuffer := by simp [Geometry.mScreen, hmain]
  unfold resizeScreen
  rw [hscreen, hmain]
  refine .bind (TerminalBuffer.resize_size (by omega) (by omega) ?_) fun p hp => .ok ?_
  · rw [hsize.1, hsize.2]
    exact fun _ => hcursor
  · obtain ⟨⟨hcol, hrow, htot, hx, hy⟩, _, _⟩ := hp
    exact ⟨hmain, ⟨rfl, by simpa [setScreen, hmain] using hcol⟩,
      ⟨rfl, by simpa [setScreen, hmain] using hrow⟩,
      by simpa [setScreen, hmain] using htot.trans (by simpa using htotal), ⟨hx, hy⟩⟩

omit [Platform] in
theorem resize_showsMain {newColumns newRows : Int} (h : d.ShowsMain total columns rows) :
    Ensures (ShowsMain total newColumns newRows) (d.resize newColumns newRows) := by
  unfold resize
  refine .ite (fun hsame => .ok ?_) fun _ => .ite (fun _ => .error _) fun hsize => ?_
  · obtain ⟨hrows, hcolumns⟩ := hsame
    rw [h.height.1] at hrows
    rw [h.width.1] at hcolumns
    rw [← hrows, ← hcolumns]
    exact h
  · refine .bind (P := fun d' => (d'.mColumns = newColumns ∧ d'.mRows = newRows) ∧
      d'.altActive = false ∧ d'.mMainBuffer = d.mMainBuffer ∧
        d'.mCursorCol = d.mCursorCol ∧ d'.mCursorRow = d.mCursorRow) ?_ fun d' hd' => ?_
    · generalize hd₁ : (if d.mRows ≠ newRows then
        { d with mRows := newRows, mTopMargin := 0, mBottomMargin := newRows } else d) = d₁
      have h₁ : d₁.mRows = newRows ∧ d₁.altActive = false ∧ d₁.mMainBuffer = d.mMainBuffer ∧
          d₁.mCursorCol = d.mCursorCol ∧ d₁.mCursorRow = d.mCursorRow := by
        rw [← hd₁]
        split_ifs with hrows
        · exact ⟨rfl, h.isMain, rfl, rfl, rfl⟩
        · exact ⟨not_not.mp hrows, h.isMain, rfl, rfl, rfl⟩
      refine .ite (fun _ => ?_) fun hcolumns => .ok ⟨⟨not_not.mp hcolumns, h₁.1⟩, h₁.2⟩
      unfold setDefaultTabStops
      refine .bind_any fun _ => .bind (P := fun d' => (d'.mColumns = newColumns ∧ d'.mRows = newRows) ∧
        d'.altActive = false ∧ d'.mMainBuffer = d.mMainBuffer ∧
          d'.mCursorCol = d.mCursorCol ∧ d'.mCursorRow = d.mCursorRow) ?_ fun d₂ h₂ => ?_
      · exact .bind_any fun _ => .ok ⟨⟨rfl, h₁.1⟩, h₁.2⟩
      · exact .bind_any fun _ => .ok h₂
    · obtain ⟨⟨hcolumns, hrows⟩, hmain, hbuffer, hcol, hrow⟩ := hd'
      rw [← hcolumns, ← hrows]
      apply @resizeScreen_showsMain _ _ _ columns rows hmain
      · rw [hbuffer]
        exact ⟨h.width.2, h.height.2⟩
      · rw [hbuffer]
        exact h.capacity
      · rw [hcol, hrow]
        exact h.cursor
      · omega
      · omega

end Display

namespace TerminalEmulator

/-- A sequence of calls of `resize(columns, rows)`. -/
def resizeAll (e : TerminalEmulator) (sizes : List (Int × Int)) : Java TerminalEmulator :=
  sizes.foldlM (fun e size => e.resize size.1 size.2) e

theorem new_showsMain {columns rows : Int} (hcolumns : 2 ≤ columns) (hrows : 2 ≤ rows)
    (transcriptRows : Option Int) :
    Ensures (fun e => e.toDisplay.ShowsMain (getTerminalTranscriptRows transcriptRows) columns rows)
      (new columns rows transcriptRows) := by
  unfold new
  refine .bind TerminalBuffer.new_size fun main hmain => .bind_any fun alt => .bind_any fun stops =>
    .bind (Display.reset_showsMain ?_) fun d hd => .ok hd
  exact ⟨rfl, ⟨rfl, hmain.1⟩, ⟨rfl, hmain.2.1⟩, hmain.2.2, ⟨by simp [initialDisplay]; omega,
    by simp [initialDisplay]; omega⟩⟩

omit [Platform] in
theorem resizeAll_showsMain {total : Int} (sizes : List (Int × Int)) :
    ∀ {e : TerminalEmulator} {columns rows : Int}, e.toDisplay.ShowsMain total columns rows →
      Ensures (fun e' => e'.mMainBuffer.mTotalRows = total ∧
        e'.mMainBuffer.mScreenRows = ((sizes.map Prod.snd).getLast?.getD rows)) (e.resizeAll sizes) := by
  induction sizes with
  | nil =>
    intro e columns rows h
    exact .ok ⟨h.capacity, h.height.2⟩
  | cons size sizes ih =>
    intro e columns rows h
    rw [resizeAll, List.foldlM_cons]
    refine .bind (P := fun e' => e'.toDisplay.ShowsMain total size.1 size.2) ?_ fun e' he' => ?_
    · exact .bind (Display.resize_showsMain h) fun d hd => .ok hd
    · refine (ih he').mono fun e'' he'' => ?_
      simpa [List.getLast?_cons] using he''

end TerminalEmulator

/-- Different rows of the screen are in different slots of `mLines`. -/
def TerminalBuffer.SlotsDistinct (b : TerminalBuffer) : Prop :=
  ∀ x y slot, 0 ≤ x → x < b.mScreenRows → 0 ≤ y → y < b.mScreenRows →
    b.externalToInternalRow x = .ok slot → b.externalToInternalRow y = .ok slot → x = y

/-- After every sequence of resizes that returns, the main buffer has room for the screen, with a
slot for each of its rows, if and only if the rows asked for last are within the number that the
setting for the transcript gives. -/
theorem TerminalEmulator.mainBuffer_fits_iff {columns rows : Int} (hcolumns : 2 ≤ columns)
    (hrows : 2 ≤ rows) (transcriptRows : Option Int) (sizes : List (Int × Int))
    (e : TerminalEmulator)
    (h : (do
      let e ← TerminalEmulator.new columns rows transcriptRows
      e.resizeAll sizes) = .ok e) :
    (e.mMainBuffer.mScreenRows ≤ e.mMainBuffer.mTotalRows ∧ e.mMainBuffer.SlotsDistinct) ↔
      (sizes.map Prod.snd).getLast?.getD rows ≤ getTerminalTranscriptRows transcriptRows := by
  obtain ⟨htotal, hscreen⟩ := Ensures.bind (new_showsMain hcolumns hrows transcriptRows)
    (fun _ he => resizeAll_showsMain sizes he) e h
  rw [← htotal, ← hscreen]
  constructor
  · intro hfits
    exact hfits.1
  · intro hfits
    refine ⟨hfits, ?_⟩
    intro x y slot hx hx' hy hy' hxslot hyslot
    exact TerminalBuffer.externalToInternalRow_inj hfits hx hx' hy hy' hxslot hyslot

omit [ShortStore] [Platform] in
/-- A screen that grows from two rows to three. -/
theorem TerminalEmulator.growing_screen_fits :
    ∃ e, (@TerminalEmulator.new javaShort plainPlatform 3 2 (some 100) >>= fun e =>
        @TerminalEmulator.resizeAll javaShort e [(4, 3)]) = .ok e ∧
      e.mMainBuffer.mScreenRows ≤ e.mMainBuffer.mTotalRows ∧ e.mMainBuffer.SlotsDistinct := by
  have hreturns : (@TerminalEmulator.new javaShort plainPlatform 3 2 (some 100) >>= fun e =>
      @TerminalEmulator.resizeAll javaShort e [(4, 3)]).isOk = true := by
    decide +kernel
  obtain ⟨e, he⟩ := exists_of_isOk hreturns
  have hfits := @TerminalEmulator.mainBuffer_fits_iff javaShort plainPlatform 3 2 (by decide)
    (by decide) (some 100) [(4, 3)] e he
  exact ⟨e, he, hfits.mpr (by decide)⟩

omit [ShortStore] [Platform] in
theorem TerminalBuffer.new_main_tall :
    (@TerminalBuffer.new javaShort 2 100 101).map (fun b =>
      (b.mScreenRows, b.mTotalRows, b.externalToInternalRow 0 == b.externalToInternalRow 100)) =
      .ok (101, 100, true) := by
  decide +kernel

omit [ShortStore] [Platform] in
theorem TerminalBuffer.new_alternate_tall :
    (@TerminalBuffer.new javaShort 2 101 101).map mTotalRows = .ok 101 := by
  decide +kernel

omit [ShortStore] [Platform] in
/-- A screen of 101 rows over a transcript of 100: its first and its last row are one. -/
theorem TerminalEmulator.tall_screen_shares_slot :
    (@TerminalEmulator.new javaShort plainPlatform 2 101 (some 100)).map (fun e =>
      (e.mMainBuffer.mScreenRows, e.mMainBuffer.mTotalRows,
        e.mMainBuffer.externalToInternalRow 0 == e.mMainBuffer.externalToInternalRow 100)) =
      .ok (101, 100, true) := by
  obtain ⟨main, hmain, hvalues⟩ := exists_of_map_eq_ok TerminalBuffer.new_main_tall
  obtain ⟨alt, halt, -⟩ := exists_of_map_eq_ok TerminalBuffer.new_alternate_tall
  have htranscript : getTerminalTranscriptRows (some 100) = 100 := by decide
  unfold TerminalEmulator.new
  rw [htranscript, hmain, ok_bind, halt, ok_bind]
  exact congrArg Except.ok hvalues

end XoDos
