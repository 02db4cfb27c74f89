import XoDos.FeedLines
import XoDos.TerminalView

/-!
# The top row of the view

Every operation of the view leaves its top row between the oldest row of the history
and the first row of the screen, whatever the emulator has done in between.  Only
the shift by the scroll counter can lead out of this range: the counter of a session
that is not shown is never cleared, and overflows.
-/

namespace XoDos

variable {g : Geometry} {e : Emulator}

theorem Geometry.Shown.buffer (h : g.Shown) :
    0 ≤ g.mScreen.mActiveTranscriptRows ∧ 1 ≤ g.mScreen.mTotalRows := by
  unfold Geometry.mScreen
  split_ifs
  · exact h.alt
  · exact h.main

/-- A view from this row down shows rows of the history and of the screen. -/
def Geometry.InRange (g : Geometry) (mTopRow : Int) : Prop :=
  -g.mScreen.mActiveTranscriptRows ≤ mTopRow ∧ mTopRow ≤ 0

theorem Geometry.Shown.inRange_zero (h : g.Shown) : g.InRange 0 := by
  have hhistory := h.buffer.1
  constructor
  · omega
  · omega

theorem Geometry.Shown.accepted (h : g.Shown) {mTopRow row : Int} (htop : g.InRange mTopRow)
    (hrow : mTopRow ≤ row) (hlast : row < mTopRow + g.mRows) :
    ∃ internalRow, g.mScreen.externalToInternalRow row = .ok internalRow := by
  have hscreen := h.screen
  have htotal := h.buffer.2
  have hold := htop.1
  have hnew := htop.2
  unfold TerminalBuffer.externalToInternalRow TerminalBuffer.modRows
  rw [if_neg (by omega)]
  simp only
  split_ifs
  · exact ⟨_, rfl⟩
  · omega
  · exact ⟨_, rfl⟩

namespace TextSelectionCursorController

theorem followHandle_inRange (h : e.Shown) {y topRow : Int} (htop : e.InRange topRow) :
    e.InRange (followHandle e y topRow) := by
  have hscreen := h.screen
  have hold := htop.1
  have hnew := htop.2
  unfold followHandle TerminalBuffer.getActiveRows
  simp only
  split_ifs
  · exact htop
  · constructor
    · omega
    · omega
  · constructor
    · omega
    · omega
  · exact ⟨by omega, le_rfl⟩
  · constructor
    · omega
    · omega
  · exact htop

theorem updatePosition_inRange {c : TextSelectionCursorController} (h : e.Shown) {topRow : Int}
    (htop : e.InRange topRow) (startHandle : Bool) (x y : Int) :
    Ensures (fun r => e.InRange r.2) (c.updatePosition e topRow startHandle x y) := by
  unfold updatePosition
  refine .ite (fun _ => .bind_any fun _ => .ok ?_) fun _ => .bind_any fun _ => .ok ?_
  · exact followHandle_inRange h htop
  · exact followHandle_inRange h htop

end TextSelectionCursorController

namespace TerminalView

variable {v : TerminalView}

theorem clampTopRow_inRange (h : e.Shown) (htop : v.mTopRow ≤ 0) :
    e.InRange (v.clampTopRow e).mTopRow := by
  have hhistory := h.buffer.1
  unfold clampTopRow
  simp only
  split_ifs with hlow
  · exact ⟨le_rfl, by show -_ ≤ _; omega⟩
  · exact ⟨by omega, htop⟩

theorem clampTopRow_mTopRow :
    (v.clampTopRow e).mTopRow = -min (-v.mTopRow) e.mScreen.mActiveTranscriptRows := by
  unfold clampTopRow
  simp only
  split_ifs with hlow
  · show -_ = _
    omega
  · omega

theorem clampTopRow_isSelectingText : (v.clampTopRow e).isSelectingText = v.isSelectingText := by
  unfold clampTopRow
  simp only
  split_ifs
  · rfl
  · rfl

/-- The rows to move by are at most those of the history, or the selection is given up. -/
theorem keepInPlace_inRange (htop : e.InRange v.mTopRow) {skipScrolling late : Bool}
    (hpos : 0 ≤ e.mScrollCounter - v.mTopRow) (hint : e.mScrollCounter - v.mTopRow < 2 ^ 31) :
    e.InRange (v.keepInPlace e skipScrolling late).1.mTopRow := by
  have hold := htop.1
  have hnew := htop.2
  have hup : toInt32 (-v.mTopRow + e.mScrollCounter) = e.mScrollCounter - v.mTopRow := by
    unfold toInt32
    omega
  have hdown : toInt32 (v.mTopRow - e.mScrollCounter) = v.mTopRow - e.mScrollCounter := by
    unfold toInt32
    omega
  unfold keepInPlace
  simp only [hup, hdown]
  have hstop : (if v.isSelectingText then v.stopTextSelectionMode late else v).mTopRow = v.mTopRow := by
    split_ifs
    · rfl
    · rfl
  generalize (if v.isSelectingText then v.stopTextSelectionMode late else v) = w at hstop ⊢
  split_ifs with hend hauto
  · exact ⟨le_rfl, by show -_ ≤ _; omega⟩
  · show e.InRange w.mTopRow
    rw [hstop]
    exact htop
  · constructor
    · show _ ≤ v.mTopRow - e.mScrollCounter
      omega
    · show v.mTopRow - e.mScrollCounter ≤ _
      omega

theorem onScreenUpdated_inRange (h : e.Shown) (htop : v.mTopRow ≤ 0) {skipScrolling late : Bool}
    (hcount : v.isSelectingText ∨ e.mAutoScrollDisabled →
      0 ≤ e.mScrollCounter + min (-v.mTopRow) e.mScreen.mActiveTranscriptRows ∧
        e.mScrollCounter + min (-v.mTopRow) e.mScreen.mActiveTranscriptRows < 2 ^ 31) :
    e.InRange (v.onScreenUpdated e skipScrolling late).1.mTopRow := by
  have hclamped := clampTopRow_inRange h htop
  have hmin := clampTopRow_mTopRow (v := v) (e := e)
  unfold onScreenUpdated
  simp only [clampTopRow_isSelectingText]
  generalize hkept : (if v.isSelectingText ∨ e.mAutoScrollDisabled then
    (v.clampTopRow e).keepInPlace e skipScrolling late else (v.clampTopRow e, skipScrolling)) = kept
  have hrange : e.InRange kept.1.mTopRow := by
    rw [← hkept]
    split_ifs with hkeep
    · have hc := hcount hkeep
      exact keepInPlace_inRange hclamped (by omega) (by omega)
    · exact hclamped
  split_ifs
  · exact h.inRange_zero
  · exact hrange

/-- The view moves with the text. -/
theorem onScreenUpdated_kept {skipScrolling late : Bool}
    (hkeep : v.isSelectingText ∨ e.mAutoScrollDisabled)
    (hend : ¬e.mScreen.mActiveTranscriptRows <
      toInt32 (-(v.clampTopRow e).mTopRow + e.mScrollCounter)) :
    (v.onScreenUpdated e skipScrolling late).1 =
      { v.clampTopRow e with
        mTopRow := toInt32 ((v.clampTopRow e).mTopRow - e.mScrollCounter)
        mTextSelectionCursorController := (v.clampTopRow e).mTextSelectionCursorController.map
          (·.decrementYTextSelectionCursors e.mScrollCounter) } := by
  unfold onScreenUpdated
  simp only [clampTopRow_isSelectingText]
  rw [if_pos hkeep]
  unfold keepInPlace
  simp only
  rw [if_neg hend]
  rfl

theorem scrollRow_inRange (h : e.Shown) (up : Bool) (mTopRow : Int) :
    e.InRange (scrollRow e up mTopRow) := by
  have hhistory := h.buffer.1
  unfold scrollRow
  constructor
  · omega
  · omega

theorem doScroll_inRange (h : e.Shown) (htop : e.InRange v.mTopRow) (rowsDown : Int) :
    e.InRange (v.doScroll e rowsDown).mTopRow := by
  unfold doScroll
  split_ifs
  · exact htop
  · exact htop
  · show e.InRange ((scrollRow e (rowsDown < 0))^[rowsDown.natAbs] v.mTopRow)
    induction rowsDown.natAbs with
    | zero => exact htop
    | succ n ih =>
      rw [Function.iterate_succ_apply']
      exact scrollRow_inRange h _ _

theorem doScroll_mEmulator (rowsDown : Int) : (v.doScroll e rowsDown).mEmulator = v.mEmulator := by
  unfold doScroll
  split_ifs
  · rfl
  · rfl
  · rfl

theorem onScreenUpdated_mEmulator {skipScrolling late : Bool} :
    (v.onScreenUpdated e skipScrolling late).1.mEmulator = v.mEmulator := by
  unfold onScreenUpdated keepInPlace clampTopRow
  simp only
  split_ifs <;> rfl

end TerminalView

theorem TerminalSession.updateSize_shown [ShortStore] [Platform] {session : TerminalSession}
    {columns rows : Int} (hrows : 1 ≤ rows)
    (h : ∀ e, session.mEmulator = some e → e.Shown) :
    Ensures (fun s => ∀ e, s.mEmulator = some e → e.Shown) (session.updateSize columns rows) := by
  unfold updateSize
  split
  next =>
    refine .bind (TerminalEmulator.new_shown hrows _) fun e he => .ok ?_
    intro e' he'
    cases he'
    exact he
  next emulator heq =>
    refine .bind (TerminalEmulator.resize_shown (h emulator heq)) fun e he => .ok ?_
    intro e' he'
    cases he'
    exact he

namespace Viewing.State

variable {s : State}

/-- What holds between steps. -/
structure Inv (s : State) : Prop where
  shown : ∀ session e, s.emulator session = some e → e.Shown
  inRange : ∀ e, s.shown = some e → e.InRange s.view.mTopRow

theorem shown_eq_some {e : Emulator} :
    s.shown = some e ↔ ∃ session, s.view.mEmulator = some session ∧ s.emulator session = some e :=
  Option.bind_eq_some_iff

theorem Inv.of_shown (h : s.Inv) {e : Emulator} (he : s.shown = some e) : e.Shown := by
  obtain ⟨session, -, hsession⟩ := shown_eq_some.mp he
  exact h.shown session e hsession

theorem setEmulator_emulator (session k : Nat) (e : Emulator) :
    (s.setEmulator session e).emulator k = if k = session then some e else s.emulator k := by
  unfold setEmulator emulator
  by_cases hk : k = session
  · simp [hk]
  · simp [hk]

/-- One emulator is replaced by another that is as well formed. -/
theorem setEmulator_shown (h : s.Inv) {session : Nat} {e : Emulator} (he : e.Shown) :
    ∀ k e', (s.setEmulator session e).emulator k = some e' → e'.Shown := by
  intro k e' hk
  rw [setEmulator_emulator] at hk
  split_ifs at hk
  · cases hk
    exact he
  · exact h.shown k e' hk

/-- The view stays with its emulator. -/
theorem Inv.view (h : s.Inv) {view : TerminalView} (hsame : view.mEmulator = s.view.mEmulator)
    (hrange : ∀ e, s.shown = some e → e.InRange view.mTopRow) : Inv { s with view := view } := by
  constructor
  · exact h.shown
  · intro e he
    apply hrange
    rw [shown_eq_some] at he ⊢
    rw [← hsame]
    exact he

section

variable [ShortStore] [Platform]

theorem output_inv (h : s.Inv) (hfailed : s.failed = false) {session : Nat} {bytes : List Byte}
    {skipScrolling late : Bool} (hc : s.Counted (.output session bytes skipScrolling late)) :
    Ensures Inv (s.output session bytes skipScrolling late) := by
  unfold output
  cases hemulator : s.emulator session with
  | none => exact .ok h
  | some emulator =>
    have happ := TerminalEmulator.append_shown (h.shown session emulator hemulator) bytes
    intro s' hs'
    obtain ⟨e, he, hs'⟩ := bind_eq_ok.mp hs'
    have hshown := happ e he
    simp only at hs'
    -- Only the session on the view scrolls it; output of another one leaves the top row.
    split_ifs at hs' with hview
    · cases hs'
      have hrange := h.inRange emulator (shown_eq_some.mpr ⟨session, hview, hemulator⟩)
      constructor
      · exact setEmulator_shown h (e := (s.view.onScreenUpdated
          { emulator with toTerminalEmulator := e } skipScrolling late).2) hshown
      · intro e' he'
        rcases shown_eq_some.mp he' with ⟨k, hk, hke⟩
        have hsame : k = session :=
          Option.some.inj (hk.symm.trans (TerminalView.onScreenUpdated_mEmulator.trans hview))
        have heq : (s.view.onScreenUpdated { emulator with toTerminalEmulator := e } skipScrolling
            late).2 = e' := by
          have hset := setEmulator_emulator (s := s) session k (s.view.onScreenUpdated
            { emulator with toTerminalEmulator := e } skipScrolling late).2
          rw [if_pos hsame] at hset
          exact Option.some.inj (hset.symm.trans hke)
        rw [← heq]
        exact TerminalView.onScreenUpdated_inRange (e := { emulator with toTerminalEmulator := e })
          hshown hrange.2 (hc hfailed hview emulator e hemulator he)
    · cases hs'
      constructor
      · exact setEmulator_shown h hshown
      · intro e' he'
        apply h.inRange
        rcases shown_eq_some.mp he' with ⟨k, hk, hke⟩
        have hother : k ≠ session := by
          intro hsame
          exact hview (hsame ▸ hk)
        rw [setEmulator_emulator, if_neg hother] at hke
        exact shown_eq_some.mpr ⟨k, hk, hke⟩

theorem updateSize_inv (h : s.Inv) (size : Option (Int × Int)) : Ensures Inv (s.updateSize size) := by
  unfold updateSize
  split
  next columns rows session _ =>
    refine .ite (fun _ => ?_) fun _ => .ok h
    refine .bind (TerminalSession.updateSize_shown (by omega) (h.shown session)) fun updated hu =>
      .ok ?_
    have hall : ∀ k e, (Function.update s.sessions session updated k).mEmulator = some e → e.Shown := by
      intro k e hk
      by_cases hsame : k = session
      · rw [hsame, Function.update_self] at hk
        exact hu e hk
      · rw [Function.update_of_ne hsame] at hk
        exact h.shown k e hk
    constructor
    · exact hall
    · intro e he
      obtain ⟨k, -, hk⟩ := shown_eq_some.mp he
      exact (hall k e hk).inRange_zero
  next => exact .ok h

theorem attachSession_inv (h : s.Inv) (session : Nat) (size : Option (Int × Int)) :
    Ensures Inv (s.attachSession session size) := by
  unfold attachSession
  refine .ite (fun _ => .ok h) fun _ => updateSize_inv ?_ size
  exact ⟨h.shown, fun e he => nomatch he⟩

omit [ShortStore] [Platform] in
theorem onEmulator_inv (h : s.Inv) {f : Emulator → Java TerminalView}
    (hf : ∀ e, s.shown = some e → Ensures (fun view => view.mEmulator = s.view.mEmulator ∧
      e.InRange view.mTopRow) (f e)) : Ensures Inv (s.onEmulator f) := by
  unfold onEmulator
  split
  next => exact .error _
  next e he =>
    refine .bind (hf e he) fun view hview => .ok (h.view hview.1 ?_)
    intro e' he'
    cases he.symm.trans he'
    exact hview.2

/-- One step, of whatever kind. -/
theorem run_inv (h : s.Inv) (hfailed : s.failed = false) {input : Input} (hc : s.Counted input) :
    Ensures Inv (s.run input) := by
  cases input with
  | output session bytes skipScrolling late => exact output_inv h hfailed hc
  | doScroll rowsDown =>
    refine onEmulator_inv h fun e he => ?_
    refine .ok (And.intro (TerminalView.doScroll_mEmulator rowsDown) ?_)
    exact TerminalView.doScroll_inRange (h.of_shown he) (h.inRange e he) rowsDown
  | updateSize size => exact updateSize_inv h size
  | attachSession session size => exact attachSession_inv h session size
  | startTextSelectionMode column row =>
    exact onEmulator_inv h fun e he => .bind_any fun c => .ok ⟨rfl, h.inRange e he⟩
  | updatePosition startHandle x y =>
    refine onEmulator_inv h fun e he => ?_
    refine .bind (TextSelectionCursorController.updatePosition_inRange (h.of_shown he)
      (h.inRange e he) startHandle x y) fun r hr => .ok ⟨rfl, hr⟩
  | stopTextSelectionMode late => exact .ok (h.view rfl h.inRange)
  | toggleAutoScrollDisabled =>
    simp only [run]
    split
    next session e hsession he =>
      have hshown := h.of_shown he
      refine .ok ⟨setEmulator_shown h hshown, ?_⟩
      intro e' he'
      obtain ⟨k, hk, hke⟩ := shown_eq_some.mp he'
      rw [setEmulator_emulator, if_pos (Option.some.inj (hk.symm.trans hsession))] at hke
      cases hke
      exact h.inRange e he
    next => exact .ok h

theorem step_inv (h : s.Inv) {input : Input} (hc : s.Counted input) : (s.step input).Inv := by
  unfold step
  split_ifs with hfailed
  · exact h
  · split
    next s' hs' => exact run_inv h (Bool.eq_false_iff.mpr hfailed) hc s' hs'
    next => exact ⟨h.shown, h.inRange⟩

end

theorem start_inv (mTranscriptRows : Nat → Option Int) : (start mTranscriptRows).Inv :=
  ⟨fun _ _ h => (by cases h), fun _ h => (by cases h)⟩

theorem Inv.draws (h : s.Inv) : s.Draws := by
  intro _ e he
  have htop := h.inRange e he
  exact ⟨htop.1, htop.2, fun row => (h.of_shown he).accepted htop⟩

/-! ## A session that scrolls behind the view -/

/-- The view is on a session, session 0 has the emulator `e` and session 1 perhaps another. -/
structure TwoSessions (session : Nat) (e : Emulator) (other : Option Emulator) (s : State) : Prop where
  failed : s.failed = false
  view : s.view = { mTermSession := some session, mEmulator := some session }
  zero : s.sessions 0 = ⟨some e, some 100⟩
  one : s.sessions 1 = ⟨other, some 100⟩

section

variable [ShortStore] [Platform] {e : Emulator} {other : Option Emulator}

theorem TwoSessions.toggle (h : s.TwoSessions 0 e other) : (s.step .toggleAutoScrollDisabled).TwoSessions 0
    { e with mAutoScrollDisabled := !e.mAutoScrollDisabled } other := by
  have hemulator : s.emulator 0 = some e := by rw [emulator, h.zero]
  have hshown : s.shown = some e := by rw [shown, h.view]; exact hemulator
  have hstep : s.step .toggleAutoScrollDisabled =
      s.setEmulator 0 { e with mAutoScrollDisabled := !e.mAutoScrollDisabled } := by
    simp [step, run, h.failed, h.view, hshown]
  rw [hstep]
  exact ⟨h.failed, h.view, by simp [setEmulator, h.zero], by simp [setEmulator, h.one]⟩

theorem TwoSessions.outputBehind (h : s.TwoSessions 1 e other) {bytes : List Byte} {e' : TerminalEmulator}
    (he' : e.toTerminalEmulator.append bytes = .ok e') (skipScrolling late : Bool) :
    (s.step (.output 0 bytes skipScrolling late)).TwoSessions 1 { e with toTerminalEmulator := e' } other := by
  have hemulator : s.emulator 0 = some e := by rw [emulator, h.zero]
  have hstep : s.step (.output 0 bytes skipScrolling late) =
      s.setEmulator 0 { e with toTerminalEmulator := e' } := by
    simp [step, run, output, h.failed, h.view, hemulator, he']
  rw [hstep]
  exact ⟨h.failed, h.view, by simp [setEmulator, h.zero], by simp [setEmulator, h.one]⟩

theorem TwoSessions.attachOther (h : s.TwoSessions 0 e none) {e' : TerminalEmulator}
    (hnew : TerminalEmulator.new 4 4 (some 100) = .ok e') :
    (s.step (.attachSession 1 (some (4, 4)))).TwoSessions 1 e (some { e' with mAutoScrollDisabled := false }) := by
  have hupdate : (s.sessions 1).updateSize 4 4 =
      .ok ⟨some { e' with mAutoScrollDisabled := false }, some 100⟩ := by
    simp [TerminalSession.updateSize, h.one, hnew]
  have hstep : s.step (.attachSession 1 (some (4, 4))) = { s with
      sessions := Function.update s.sessions 1
        ⟨some { e' with mAutoScrollDisabled := false }, some 100⟩
      view := { mTermSession := some 1, mEmulator := some 1 } } := by
    simp [step, run, attachSession, State.updateSize, shown, h.failed, h.view, hupdate]
  rw [hstep]
  exact ⟨h.failed, rfl, by simp [h.zero], by simp⟩

theorem TwoSessions.attachBack (h : s.TwoSessions 1 e other) (hcolumns : e.mColumns = 4)
    (hrows : e.mRows = 4) :
    (s.step (.attachSession 0 (some (4, 4)))).TwoSessions 0 e other := by
  have hresize : e.toTerminalEmulator.resize 4 4 = .ok e.toTerminalEmulator := by
    simp [TerminalEmulator.resize, Display.resize, hcolumns, hrows]
    rfl
  have hupdate : (s.sessions 0).updateSize 4 4 = .ok ⟨some e, some 100⟩ := by
    simp [TerminalSession.updateSize, h.zero, hresize]
  have hstep : s.step (.attachSession 0 (some (4, 4))) = { s with
      sessions := Function.update s.sessions 0 ⟨some e, some 100⟩
      view := { mTermSession := some 0, mEmulator := some 0 } } := by
    simp [step, run, attachSession, State.updateSize, shown, h.failed, h.view, hupdate]
  rw [hstep]
  exact ⟨h.failed, rfl, by simp, by simp [h.one]⟩

theorem start_attach {e' : TerminalEmulator} (hnew : TerminalEmulator.new 4 4 (some 100) = .ok e') :
    ((start fun _ => some 100).step (.attachSession 0 (some (4, 4)))).TwoSessions 0
      { e' with mAutoScrollDisabled := false } none := by
  have hupdate : ((start fun _ => some 100).sessions 0).updateSize 4 4 =
      .ok ⟨some { e' with mAutoScrollDisabled := false }, some 100⟩ := by
    simp [TerminalSession.updateSize, start, hnew]
  have hstep : (start fun _ => some 100).step (.attachSession 0 (some (4, 4))) =
      { start fun _ => some 100 with
        sessions := Function.update (start fun _ => some 100).sessions 0
          ⟨some { e' with mAutoScrollDisabled := false }, some 100⟩
        view := { mTermSession := some 0, mEmulator := some 0 } } := by
    simp only [start] at hupdate ⊢
    simp [step, run, attachSession, State.updateSize, shown, hupdate]
  rw [hstep]
  exact ⟨rfl, rfl, by simp, by simp [start]⟩

/-- Output to the shown session. -/
theorem TwoSessions.output_mTopRow (h : s.TwoSessions 0 e other) {bytes : List Byte}
    {e' : TerminalEmulator} (he' : e.toTerminalEmulator.append bytes = .ok e')
    (skipScrolling late : Bool) : ∃ v : TerminalView, v.mTopRow = 0 ∧
      ¬v.isSelectingText ∧
      (s.step (.output 0 bytes skipScrolling late)).failed = false ∧
      (s.step (.output 0 bytes skipScrolling late)).shown =
        some (v.onScreenUpdated { e with toTerminalEmulator := e' } skipScrolling late).2 ∧
      (s.step (.output 0 bytes skipScrolling late)).view =
        (v.onScreenUpdated { e with toTerminalEmulator := e' } skipScrolling late).1 := by
  have hemulator : s.emulator 0 = some e := by rw [emulator, h.zero]
  refine ⟨s.view, by rw [h.view], by rw [h.view]; simp [TerminalView.isSelectingText], ?_⟩
  generalize hupdated : s.view.onScreenUpdated { e with toTerminalEmulator := e' } skipScrolling late =
    updated
  have hview : updated.1.mEmulator = some 0 := by
    rw [← hupdated, TerminalView.onScreenUpdated_mEmulator, h.view]
  have hstep : s.step (.output 0 bytes skipScrolling late) =
      { s.setEmulator 0 updated.2 with view := updated.1 } := by
    have hshown : s.view.mEmulator = some 0 := by rw [h.view]
    simp [step, run, output, h.failed, hshown, hemulator, he', hupdated]
  rw [hstep]
  refine ⟨h.failed, ?_, rfl⟩
  apply shown_eq_some.mpr
  exact ⟨0, hview, by simp [emulator, setEmulator]⟩

/-- In every state of a run in which the shifts by the scroll counter are counted, every row that
is drawn is one of the buffer. -/
theorem after_draws (mTranscriptRows : Nat → Option Int)
    (inputs rest : List Input)
    (h : Run.Along step Counted (start mTranscriptRows) (inputs ++ rest)) :
    (Run.after step (start mTranscriptRows) inputs).Draws :=
  (h.everywhere (fun _ _ hs hc => step_inv hs hc) (start_inv mTranscriptRows)).draws

end

theorem exists_new_small : ∃ e, @TerminalEmulator.new javaShort plainPlatform 4 4 (some 100) = .ok e ∧
    e.mUtf8ToFollow = 0 ∧ e.toDisplay.Fed 0 0 0 4 4 := by
  have hreturns : (@TerminalEmulator.new javaShort plainPlatform 4 4 (some 100)).isOk = true := by
    decide +kernel
  match hnew : @TerminalEmulator.new javaShort plainPlatform 4 4 (some 100) with
  | .error _ =>
    rw [hnew] at hreturns
    cases hreturns
  | .ok e =>
    have hfits : @TerminalBuffer.new trapShort 4 100 4 ≠ .error .shortOverflow := by
      have hsmall : (@TerminalBuffer.new trapShort 4 100 4).isOk = true := by
        decide +kernel
      intro htrap
      rw [htrap] at hsmall
      cases hsmall
    exact ⟨e, rfl, @TerminalEmulator.new_fed plainPlatform 4 4 (by decide) (by decide) (by decide)
      (some 100) (by decide) hfits e hnew⟩

section

variable [Platform] {e : TerminalEmulator}

theorem counted_lines (hnew : TerminalEmulator.new 4 4 (some 100) = .ok e) (hidle : e.mUtf8ToFollow = 0)
    (hfed : e.toDisplay.Fed 0 0 0 4 4) :
    Run.Along step Counted (start fun _ => some 100) [.attachSession 0 (some (4, 4)),
      .toggleAutoScrollDisabled, .output 0 (List.replicate 5 10) false true] := by
  obtain ⟨e', happend, -, hfed'⟩ := TerminalEmulator.append_lineFeeds hidle hfed 5
  have htoggled := (start_attach hnew).toggle
  refine ⟨trivial, trivial, ?_, trivial⟩
  intro _ hview e₁ e₂ he₁ he₂ _
  rw [emulator, htoggled.zero] at he₁
  cases he₁
  cases happend.symm.trans he₂
  have hhistory := hfed'.main.history
  have hscreen : e'.mScreen = e'.mMainBuffer := hfed'.mScreen
  have hcounter : e'.mScrollCounter = 2 := hfed'.counter_eq
  rw [htoggled.view, hcounter, hscreen]
  simp only
  omega

theorem below_screen (hnew : TerminalEmulator.new 4 4 (some 100) = .ok e) (hidle : e.mUtf8ToFollow = 0)
    (hfed : e.toDisplay.Fed 0 0 0 4 4) {n : Nat} (hn : (n : Int) = 2 ^ 31 + 3) :
    ¬(Run.after step (start fun _ => some 100)
      [.attachSession 0 (some (4, 4)), .toggleAutoScrollDisabled, .attachSession 1 (some (4, 4)),
        .output 0 (List.replicate n 10) false true, .attachSession 0 (some (4, 4)),
        .output 0 (List.replicate 1 10) false true]).Draws := by
  obtain ⟨e₁, happend, hidle₁, hfed₁⟩ := TerminalEmulator.append_lineFeeds hidle hfed n
  obtain ⟨e₂, happend₁, -, hfed₂⟩ := TerminalEmulator.append_lineFeeds hidle₁ hfed₁ 1
  have hscrolled := ((start_attach hnew).toggle.attachOther hnew).outputBehind happend false true
  have hback := hscrolled.attachBack hfed₁.columns_eq hfed₁.rows_eq
  obtain ⟨v, htop, hselect, hruns, hshown, hview⟩ := hback.output_mTopRow happend₁ false true
  have hcounter : e₂.mScrollCounter = -2 ^ 31 + 1 := by
    rw [hfed₂.counter_eq]
    unfold toInt32
    push_cast
    omega
  have hhistory : 0 ≤ e₂.mScreen.mActiveTranscriptRows := by
    have hscreen : e₂.mScreen = e₂.mMainBuffer := hfed₂.mScreen
    rw [hscreen]
    exact hfed₂.main.history
  -- Adding the counter to the top row overflows as well, and leads below the screen.
  have htop' : (v.onScreenUpdated { e₂ with mAutoScrollDisabled := true } false true).1.mTopRow =
      2 ^ 31 - 1 := by
    have hclamp : v.clampTopRow { e₂ with mAutoScrollDisabled := true } = v := by
      unfold TerminalView.clampTopRow
      simp only
      rw [if_neg (by omega)]
    rw [TerminalView.onScreenUpdated_kept (Or.inr rfl)]
    · rw [hclamp, htop]
      show toInt32 (0 - e₂.mScrollCounter) = _
      rw [hcounter]
      decide
    · rw [hclamp, htop]
      show ¬e₂.mScreen.mActiveTranscriptRows < toInt32 (-0 + e₂.mScrollCounter)
      rw [hcounter, show toInt32 (-0 + (-2 ^ 31 + 1)) = -2 ^ 31 + 1 by decide]
      omega
  intro hdraws
  simp only [Run.after_cons, Run.after_nil] at hdraws
  have habove := (hdraws hruns _ hshown).screen
  rw [hview] at habove
  have hlow := htop'.symm.trans_le habove
  omega

end

/-- The view follows the output of five lines, of which two scroll. -/
theorem after_draws_lines :
    (Run.after (@step javaShort plainPlatform) (start fun _ => some 100)
      [.attachSession 0 (some (4, 4)), .toggleAutoScrollDisabled,
        .output 0 (List.replicate 5 10) false true]).Draws := by
  obtain ⟨e, hnew, hidle, hfed⟩ := exists_new_small
  exact @after_draws javaShort plainPlatform (fun _ => some 100) _ []
    (@counted_lines plainPlatform e hnew hidle hfed)

/-- A session scrolls by 2³¹ lines while another is shown.  When it is shown again, its next line
leads the view to a row far below the screen. -/
theorem counter_overflows :
    ¬(Run.after (@step javaShort plainPlatform) (start fun _ => some 100)
      [.attachSession 0 (some (4, 4)), .toggleAutoScrollDisabled, .attachSession 1 (some (4, 4)),
        .output 0 (List.replicate (2 ^ 31 + 3) 10) false true, .attachSession 0 (some (4, 4)),
        .output 0 (List.replicate 1 10) false true]).Draws := by
  obtain ⟨e, hnew, hidle, hfed⟩ := exists_new_small
  exact @below_screen plainPlatform e hnew hidle hfed _ (by norm_num)

end Viewing.State

end XoDos
