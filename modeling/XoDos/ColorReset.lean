import XoDos.TerminalEmulator

/-!
# Resetting colours

OSC 104 takes a list of colour indices, separated by semicolons, and gives these
colours of the theme back.  The loop over the text goes on after an item that is
no number, and then passes the end of the text; so it does after a semicolon at
the end.
-/

namespace XoDos

open TextStyle (numIndexedColors)

namespace TerminalColors

variable [Platform] {c c' c'' : TerminalColors} {p q : Nat → Prop}

/-- The colours whose index has `p` are those of the theme, the others those of `c`. -/
def OnlyReset (p : Nat → Prop) (c c' : TerminalColors) : Prop :=
  ∀ i < numIndexedColors,
    (p i → c'.mCurrentColors[i]? = Platform.defaultColors[i]?) ∧
      (¬p i → c'.mCurrentColors[i]? = c.mCurrentColors[i]?)

theorem OnlyReset.trans (h : OnlyReset p c c') (h' : OnlyReset q c' c'') :
    OnlyReset (fun i => p i ∨ q i) c c'' := by
  intro i hi
  by_cases hq : q i
  · exact ⟨fun _ => (h' i hi).1 hq, fun hno => absurd (.inr hq) hno⟩
  · rw [(h' i hi).2 hq]
    exact ⟨fun hor => (h i hi).1 (hor.resolve_right hq), fun hno => (h i hi).2 fun hp => hno (.inl hp)⟩

theorem OnlyReset.congr (h : OnlyReset p c c') (hpq : ∀ i < numIndexedColors, p i ↔ q i) :
    OnlyReset q c c' := by
  intro i hi
  rw [← hpq i hi]
  exact h i hi

theorem onlyReset_reset (c : TerminalColors) : OnlyReset (fun _ => True) c reset :=
  fun _ _ => ⟨fun _ => rfl, fun hno => absurd trivial hno⟩

/-- One colour. -/
theorem resetIndex_onlyReset (c : TerminalColors) {index : Int}
    (h : 0 ≤ index ∧ index < numIndexedColors) :
    ∃ c', c.resetIndex index = .ok c' ∧ OnlyReset (fun i => (i : Int) = index) c c' := by
  have hlen := Platform.defaultColors_length
  obtain ⟨color, -, hcolor⟩ := arrayGet_returns h.1 (a := Platform.defaultColors) (by omega)
  refine ⟨⟨c.mCurrentColors.set index.toNat color, by rw [List.length_set, c.length_eq]⟩, ?_, ?_⟩
  · simp only [resetIndex, hcolor, ok_bind, set, if_pos h]
  · intro i hi
    constructor
    · intro hindex
      have heq : index.toNat = i := by omega
      have hlt : index.toNat < c.mCurrentColors.length := by
        rw [c.length_eq]
        omega
      rw [← heq, List.getElem?_set_self hlt, (arrayGet_eq_ok.mp hcolor).2]
    · intro hindex
      rw [List.getElem?_set_ne (by omega)]

theorem resetIndex_out (c : TerminalColors) {index : Int}
    (h : ¬(0 ≤ index ∧ index < numIndexedColors)) :
    ∃ x, c.resetIndex index = .error x := by
  cases hcolor : arrayGet Platform.defaultColors index with
  | error x => exact ⟨x, by rw [resetIndex, hcolor, error_bind]⟩
  | ok color =>
    have hlt := (List.getElem?_eq_some_iff.mp (arrayGet_eq_ok.mp hcolor).2).1
    rw [Platform.defaultColors_length] at hlt
    have hpos := (arrayGet_eq_ok.mp hcolor).1
    omega

end TerminalColors

namespace Display

open TerminalColors (OnlyReset)

variable [Platform] {d : Display}

/-! ## The text -/

/-- An item of the list that is the index of a colour. -/
def IsIndex (item : JavaString) : Prop := ∃ i < numIndexedColors, parseInt item 10 = some (i : Int)

/-- The colours that a text asks for: all of them if it is empty. -/
def Listed (text : JavaString) (i : Nat) : Prop :=
  text = [] ∨ ∃ item ∈ text.splitOn ';'.toNat, parseInt item 10 = some (i : Int)

/-- A list of indices, with or without empty items. -/
def IsList (text : JavaString) : Prop :=
  ∀ item ∈ text.splitOn ';'.toNat, item = [] ∨ IsIndex item

omit [Platform] in
theorem foldlM_none {α β : Type} {f : α → β → Option α} {x : β} {l : List β} (hx : x ∈ l)
    (hf : ∀ a, f a x = none) (a : α) : l.foldlM f a = none := by
  induction l generalizing a with
  | nil => cases hx
  | cons y l ih =>
    rw [List.foldlM_cons]
    rcases List.mem_cons.mp hx with heq | hx
    · rw [← heq, hf]
      rfl
    · cases f a y with
      | none => rfl
      | some b => exact ih hx b

/-- A semicolon is no digit. -/
theorem parseDigits_semicolon {s : JavaString} (h : ';'.toNat ∈ s) : parseDigits 10 s = none := by
  have hdigit : Platform.digit ';'.toNat 10 = none := by
    rw [Platform.digit_ascii _ _ (by decide)]
    decide
  cases s with
  | nil => cases h
  | cons c rest =>
    have hstop (n : Nat) : (Platform.digit ';'.toNat 10 >>= fun d => some (n * 10 + d)) = none := by
      rw [hdigit]
      rfl
    exact foldlM_none (f := fun n c => Platform.digit c 10 >>= fun d => some (n * 10 + d)) h hstop 0

theorem parseInt_semicolon {s : JavaString} (h : ';'.toNat ∈ s) : parseInt s 10 = none := by
  cases s with
  | nil => rfl
  | cons c rest =>
    have hrest (hc : ';'.toNat ≠ c) : ';'.toNat ∈ rest := (List.mem_cons.mp h).resolve_left hc
    unfold parseInt
    simp only
    split_ifs with hminus hplus
    · rw [parseDigits_semicolon (hrest (by rw [hminus]; decide))]
      rfl
    · rw [parseDigits_semicolon (hrest (by rw [hplus]; decide))]
      rfl
    · rw [parseDigits_semicolon h]
      rfl

/-! ## The loop -/

/-- What happens at the end of an item. -/
theorem changeColors_resetIndex (d : Display) {index : Int} :
    ((0 ≤ index ∧ index < numIndexedColors) ∧
      ∃ d', (d.changeColors fun c => c.resetIndex index) = .ok d' ∧
        OnlyReset (fun i => (i : Int) = index) d.mColors d'.mColors) ∨
    (¬(0 ≤ index ∧ index < numIndexedColors) ∧
      ∃ x, (d.changeColors fun c => c.resetIndex index) = .error x) := by
  by_cases h : 0 ≤ index ∧ index < numIndexedColors
  · obtain ⟨c', hc', hreset⟩ := d.mColors.resetIndex_onlyReset h
    exact .inl ⟨h, _, by rw [changeColors, hc']; rfl, hreset⟩
  · obtain ⟨x, hx⟩ := d.mColors.resetIndex_out h
    exact .inr ⟨h, x, by rw [changeColors, hx]; rfl⟩

/-- Once an item has a semicolon in it, the loop runs over the end of the text. -/
theorem resetColorsLoop_stuck {item : JavaString} (h : ';'.toNat ∈ item) (rest : JavaString) :
    resetColorsLoop item rest d = .error .stringIndexOutOfBounds := by
  induction rest generalizing item with
  | nil => rw [resetColorsLoop, parseInt_semicolon h]
  | cons b rest ih =>
    have hmore : ';'.toNat ∈ item ++ [b] := List.mem_append_left _ h
    rw [resetColorsLoop, parseInt_semicolon h]
    split_ifs
    · exact ih hmore
    · exact ih hmore

/-- The loop comes to an end if all the items are indices, and otherwise runs over the end of the
text or out of the table. -/
theorem resetColorsLoop_cases (item rest : JavaString) (d : Display) (h : ';'.toNat ∉ item) :
    ((∀ x ∈ (item ++ rest).splitOn ';'.toNat, IsIndex x) ∧
      ∃ d', resetColorsLoop item rest d = .ok d' ∧
        OnlyReset (fun i => ∃ x ∈ (item ++ rest).splitOn ';'.toNat, parseInt x 10 = some (i : Int))
          d.mColors d'.mColors) ∨
    (¬(∀ x ∈ (item ++ rest).splitOn ';'.toNat, IsIndex x) ∧
      ∃ x, resetColorsLoop item rest d = .error x) := by
  match rest with
  | [] =>
    rw [List.append_nil, List.splitOn_eq_singleton h, List.forall_mem_singleton, resetColorsLoop]
    cases hitem : parseInt item 10 with
    | none =>
      refine .inr ⟨fun hindex => ?_, _, rfl⟩
      obtain ⟨i, _, hi⟩ := hindex
      cases hitem.symm.trans hi
    | some index =>
      rcases @changeColors_resetIndex _ d index with ⟨hin, d', hd', hreset⟩ | ⟨hout, x, hx⟩
      · refine .inl ⟨⟨index.toNat, by omega, by rw [hitem]; congr; omega⟩, d', hd', ?_⟩
        apply hreset.congr
        intro i _
        simp [hitem, eq_comm]
      · refine .inr ⟨fun ⟨i, hi, heq⟩ => ?_, x, hx⟩
        rw [hitem, Option.some.injEq] at heq
        omega
  | b :: rest =>
    rw [resetColorsLoop]
    by_cases hb : b = ';'.toNat
    · rw [if_pos hb, hb, List.splitOn_append_cons_self_of_not_mem h, List.forall_mem_cons]
      cases hitem : parseInt item 10 with
      | none =>
        refine .inr ⟨fun hall => ?_, .stringIndexOutOfBounds, ?_⟩
        · obtain ⟨i, _, hi⟩ := hall.1
          cases hitem.symm.trans hi
        · exact resetColorsLoop_stuck (List.mem_append_right _ List.mem_cons_self) rest
      | some index =>
        rcases @changeColors_resetIndex _ d index with ⟨hin, d₁, hd₁, hfirst⟩ | ⟨hout, x, hx⟩
        · have hindex : IsIndex item := ⟨index.toNat, by omega, by rw [hitem]; congr; omega⟩
          simp only [hd₁, ok_bind]
          -- Behind a semicolon at the end there is no index left to be read.
          cases rest with
          | nil =>
            refine .inr ⟨fun ⟨_, hall⟩ => ?_, _, rfl⟩
            obtain ⟨i, _, hi⟩ := hall [] (by rw [List.splitOn_nil]; exact List.mem_cons_self)
            cases hi
          | cons next rest =>
            simp only
            -- The character right behind a semicolon is not looked at, so a second semicolon joins the index.
            by_cases hnext : next = ';'.toNat
            · refine .inr ⟨fun ⟨_, hall⟩ => ?_, _, resetColorsLoop_stuck (by rw [hnext]; exact List.mem_cons_self) rest⟩
              have hempty := List.splitOn_append_cons_self_of_not_mem (List.not_mem_nil (a := ';'.toNat)) rest
              rw [List.nil_append, ← hnext] at hempty
              rw [hnext] at hall hempty
              obtain ⟨i, _, hi⟩ := hall [] (by rw [hempty]; exact List.mem_cons_self)
              cases hi
            · rcases resetColorsLoop_cases [next] rest d₁ (by simpa using Ne.symm hnext) with
                ⟨hall, d', hd', hreset⟩ | ⟨hno, x, hx⟩
              · refine .inl ⟨⟨hindex, hall⟩, d', hd', (hfirst.trans hreset).congr fun i _ => ?_⟩
                rw [List.exists_mem_cons_iff, hitem, Option.some.injEq, List.singleton_append, eq_comm]
              · exact .inr ⟨fun hboth => hno hboth.2, x, hx⟩
        · refine .inr ⟨fun ⟨⟨i, hi, heq⟩, _⟩ => ?_, x, by simp only [hx, error_bind]⟩
          rw [hitem, Option.some.injEq] at heq
          omega
    · rw [if_neg hb]
      have hmore : ';'.toNat ∉ item ++ [b] := by
        rw [List.mem_append, List.mem_singleton]
        exact fun hor => hor.elim h (Ne.symm hb)
      have hrest := resetColorsLoop_cases (item ++ [b]) rest d hmore
      rwa [List.append_assoc, List.singleton_append] at hrest
termination_by rest.length

/-- What OSC 104 does. -/
theorem setTextParameter_reset (d : Display) (text terminator : JavaString) :
    ((text = [] ∨ ∀ x ∈ text.splitOn ';'.toNat, IsIndex x) ∧
      ∃ d', d.setTextParameter 104 text terminator = .ok d' ∧
        OnlyReset (Listed text) d.mColors d'.mColors) ∨
    (¬(text = [] ∨ ∀ x ∈ text.splitOn ';'.toNat, IsIndex x) ∧
      ∃ x, d.setTextParameter 104 text terminator = .error x) := by
  have hrun : d.setTextParameter 104 text terminator =
      if text.isEmpty then d.changeColors fun _ => .ok TerminalColors.reset
      else resetColorsLoop [] text d := rfl
  rw [hrun]
  by_cases htext : text = []
  · rw [if_pos (by rw [htext]; rfl)]
    exact .inl ⟨.inl htext, _, rfl,
      (TerminalColors.onlyReset_reset _).congr fun i _ => ⟨fun _ => .inl htext, fun _ => trivial⟩⟩
  · rw [if_neg (by simpa using htext)]
    rcases resetColorsLoop_cases [] text d List.not_mem_nil with
      ⟨hall, d', hd', hreset⟩ | ⟨hno, x, hx⟩
    · exact .inl ⟨.inr hall, d', hd', hreset.congr fun i _ => (or_iff_right htext).symm⟩
    · exact .inr ⟨fun hor => hor.elim htext hno, x, hx⟩

end Display

namespace Terminal

open TerminalColors (OnlyReset)
open Display (Listed IsIndex IsList)

section

variable [ShortStore] [Platform] {t : Terminal} {b : Nat}

/-- `b` ends the OSC string that is being collected, BEL or the second character of ST. -/
def EndsOsc (t : Terminal) (b : Nat) : Prop :=
  (t.mEscapeState = .osc ∧ b = 7) ∨ (t.mEscapeState = .oscEsc ∧ b = 0x5c)

omit [ShortStore] [Platform] in
/-- The end of a string with a number and a text. -/
theorem EndsOsc.issues (h : t.EndsOsc b) {value : Int} {text : JavaString}
    (htext : Display.oscParameters t.mOSCOrDeviceControlArgs (-1) = some (value, text)) :
    ∃ p terminator, t.toParser.processCodePoint b =
      .ok (p, [.setTextParameter value text terminator]) := by
  rcases h with ⟨hstate, hb⟩ | ⟨hstate, hb⟩
  · refine ⟨t.toParser.finishSequence, [0x07], ?_⟩
    rw [hb]
    simp only [Parser.processCodePoint, hstate, Parser.doOsc, Parser.doOscSetTextParameters, htext]
    rfl
  · have hdispatch : Parser.dispatch { t.toParser with mContinueSequence := false } b =
        .ok (Parser.finishSequence { t.toParser with mContinueSequence := false },
          [.setTextParameter value text [0x1b, 0x5c]]) := by
      simp only [Parser.dispatch, hstate, Parser.doOscEsc, hb, Parser.doOscSetTextParameters, htext]
      rfl
    refine ⟨Parser.finishSequence { t.toParser with mContinueSequence := false }, [0x1b, 0x5c], ?_⟩
    rw [hb] at hdispatch ⊢
    exact congrArg (· >>= fun r =>
      Except.ok (if r.1.mContinueSequence then r.1 else r.1.finishSequence, r.2)) hdispatch

/-- The end of an OSC 104 string resets the colours in the list, and with any other text no colour
that is not listed. -/
def ResetsListed (t : Terminal) (b : Nat) (text : JavaString) : Prop :=
  (IsList text → ∃ t', t.processCodePoint b = .ok t' ∧ OnlyReset (Listed text) t.mColors t'.mColors) ∧
    (¬IsList text → ∃ t', t.processCodePoint b = .ok t' ∧
      ∀ i < numIndexedColors, ¬Listed text i →
        t'.mColors.mCurrentColors[i]? = t.mColors.mCurrentColors[i]?)

/-- The colours are reset if the text is empty, which stands for all of them, or every item of the
list is an index of the table.  Otherwise an exception leaves the terminal. -/
theorem resetsListed_iff (h : t.EndsOsc b) {text : JavaString}
    (htext : Display.oscParameters t.mOSCOrDeviceControlArgs (-1) = some (104, text)) :
    t.ResetsListed b text ↔ text = [] ∨ ∀ item ∈ text.splitOn ';'.toNat, IsIndex item := by
  obtain ⟨p, terminator, hissues⟩ := h.issues htext
  have hprocess : t.processCodePoint b =
      (t.toDisplay.setTextParameter 104 text terminator >>= fun d =>
        .ok { toDisplay := d, toParser := p }) := by
    rw [Terminal.processCodePoint, hissues]
    simp only [ok_bind, Display.perform, List.foldlM_cons, List.foldlM_nil, Control.run]
    cases t.toDisplay.setTextParameter 104 text terminator <;> rfl
  rcases t.toDisplay.setTextParameter_reset text terminator with ⟨hgood, d', hd', hreset⟩ | ⟨hbad, x, hx⟩
  · rw [hd', ok_bind] at hprocess
    refine iff_of_true ⟨fun _ => ⟨_, hprocess, hreset⟩, fun _ => ⟨_, hprocess, fun i hi hno => ?_⟩⟩ hgood
    exact (hreset i hi).2 hno
  · rw [hx, error_bind] at hprocess
    refine iff_of_false (fun ⟨hlist, hother⟩ => ?_) hbad
    by_cases hl : IsList text
    · obtain ⟨t', ht', -⟩ := hlist hl
      cases hprocess.symm.trans ht'
    · obtain ⟨t', ht', -⟩ := hother hl
      cases hprocess.symm.trans ht'

end

/-- A new terminal that has read `ESC ]` and `text`. -/
def collecting (text : String) : Java Terminal := do
  let e ← @TerminalEmulator.new javaShort plainPlatform 4 4 (some 100)
  (0x1b :: 0x5d :: ascii text).foldlM (@Terminal.processCodePoint javaShort plainPlatform) e.toTerminal

theorem collecting_ends {text : String} {parameters : JavaString}
    (h : (collecting text).map (fun t => (t.mEscapeState, t.mOSCOrDeviceControlArgs)) =
      .ok (.osc, parameters)) :
    ∃ t, collecting text = .ok t ∧ t.EndsOsc 7 ∧ t.mOSCOrDeviceControlArgs = parameters := by
  cases ht : collecting text with
  | error x =>
    rw [ht] at h
    cases h
  | ok t =>
    rw [ht] at h
    change Except.ok _ = Except.ok _ at h
    simp only [Except.ok.injEq, Prod.mk.injEq] at h
    exact ⟨t, rfl, .inl ⟨h.1, rfl⟩, h.2⟩

/-- Two colours are reset. -/
theorem resetsListed_iff_two : ∃ t, collecting "104;1;2" = .ok t ∧
    @ResetsListed javaShort plainPlatform t 7 (ascii "1;2") := by
  obtain ⟨t, ht, hends, hargs⟩ := @collecting_ends "104;1;2" (ascii "104;1;2")
    (by decide +kernel)
  refine ⟨t, ht, (@resetsListed_iff javaShort plainPlatform t 7 hends (ascii "1;2") ?_).mpr (.inr ?_)⟩
  · rw [hargs]
    decide
  · intro item hitem
    rw [show (ascii "1;2").splitOn ';'.toNat = [ascii "1", ascii "2"] by decide] at hitem
    rcases List.mem_pair.mp hitem with rfl | rfl
    · exact ⟨1, by decide, by decide⟩
    · exact ⟨2, by decide, by decide⟩

/-- A semicolon at the end of the list. -/
theorem trailing_semicolon_throws : ∃ t, collecting "104;1;" = .ok t ∧ t.EndsOsc 7 ∧
    @IsList plainPlatform (ascii "1;") ∧ ¬@ResetsListed javaShort plainPlatform t 7 (ascii "1;") := by
  have hlist : @IsList plainPlatform (ascii "1;") := by
    intro item hitem
    rw [show (ascii "1;").splitOn ';'.toNat = [ascii "1", []] by decide] at hitem
    rcases List.mem_pair.mp hitem with rfl | rfl
    · exact .inr ⟨1, by decide, by decide⟩
    · exact .inl rfl
  have hrun : (collecting "104;1;" >>= fun t =>
      .ok ((@processCodePoint javaShort plainPlatform t 7).toOption.isSome)) = .ok false := by
    decide +kernel
  obtain ⟨t, ht, hends, -⟩ := @collecting_ends "104;1;" (ascii "104;1;")
    (by decide +kernel)
  refine ⟨t, ht, hends, hlist, fun ⟨hresets, _⟩ => ?_⟩
  obtain ⟨t', ht', -⟩ := hresets hlist
  rw [ht, ok_bind, ht'] at hrun
  cases hrun

end Terminal

end XoDos
