import XoDos.BufferInvariant
import XoDos.BufferSize

/-!
# The line-wrap flag

The flag of a row says that its line goes on in the next row.  Here it is
followed from row object to row object.  Apart from `setLineWrap` and
`clearLineWrap` nothing changes the flag of an object, and that includes
clearing the object for a row that is revealed.
-/

namespace XoDos

namespace TerminalRow

variable [ShortStore] {r : TerminalRow}

/-- What the methods of a row leave alone. -/
def SameWrap (r r' : TerminalRow) : Prop := r'.mLineWrap = r.mLineWrap

theorem clear_sameWrap {style : Style} : Ensures (SameWrap r) (r.clear style) := by
  unfold clear
  exact .bind_any fun _ => .ok rfl

theorem new_unwrapped {columns : Int} {style : Style} :
    Ensures (fun r => r.mLineWrap = false) (new columns style) := by
  unfold new
  refine .bind_any fun _ => .bind_any fun _ => ?_
  exact clear_sameWrap.mono fun r' hr' => hr'

theorem settleWidth_sameWrap {column oldWidth newWidth : Int} {text : List Nat}
    {spaceUsed next : Int} :
    Ensures (SameWrap r) (r.settleWidth column oldWidth newWidth text spaceUsed next) := by
  unfold settleWidth
  refine .ite (fun _ => ?_) fun _ => .ite (fun _ => ?_) fun _ => .ok rfl
  · exact .bind_any fun _ => .bind_any fun _ => .bind_any fun _ => .ok rfl
  · refine .ite (fun _ => .error _) fun _ => .ite (fun _ => .bind_any fun _ => .ok rfl) fun _ => ?_
    exact .bind_any fun _ => .bind_any fun _ => .bind_any fun _ => .ok rfl

theorem storeChar_sameWrap {column : Int} {codePoint : Nat} :
    Ensures (SameWrap r) (r.storeChar column codePoint) := by
  unfold storeChar
  refine .bind_any fun _ => .bind_any fun _ => .bind_any fun _ => .bind_any fun _ => ?_
  exact .bind_any fun _ => .bind_any fun _ => settleWidth_sameWrap

theorem setCharLoop_sameWrap (depth : Nat) : ∀ {r : TerminalRow} {column : Int} {codePoint : Nat}
    {style : Style}, Ensures (SameWrap r) (setCharLoop depth r column codePoint style) := by
  induction depth with
  | zero =>
    intro r column codePoint style
    exact .error _
  | succ depth ih =>
    intro r column codePoint style
    unfold setCharLoop
    refine .ite (fun _ => .error _) fun _ => .bind_any fun styles => ?_
    refine .ite (fun _ => .bind_any fun _ => .ok rfl) fun _ => .bind_any fun wide => ?_
    refine .ite (fun _ => storeChar_sameWrap.mono fun _ h => h) fun _ => ?_
    refine .bind (P := SameWrap r) ?_ fun r₁ h₁ => .bind_any fun overwriting => ?_
    · exact .ite (fun _ => ih.mono fun _ h => h) fun _ => .ok rfl
    · refine .bind (P := SameWrap r) ?_ fun r₂ h₂ => ?_
      · exact .ite (fun _ => ih.mono fun _ h => h.trans h₁) fun _ => .ok h₁
      · exact storeChar_sameWrap.mono fun _ h => h.trans h₂

theorem setChar_sameWrap {column : Int} {codePoint : Nat} {style : Style} :
    Ensures (SameWrap r) (r.setChar column codePoint style) :=
  setCharLoop_sameWrap _

theorem copyStep_sameWrap {line : TerminalRow} {same : Bool} {s : CopyState} {codePoint : Nat} :
    Ensures (fun s' => SameWrap s.row s'.row) (copyStep line same s codePoint) := by
  unfold copyStep
  refine .bind_any fun style => ?_
  refine .bind (P := SameWrap s.row) ?_ fun row h => .ok h
  split_ifs <;> exact setChar_sameWrap

theorem copyLoop_sameWrap {line : TerminalRow} {same : Bool} {x2 : Int} (rest : List Nat) (i : Int)
    (second : Bool) (s : CopyState) :
    Ensures (fun s' => SameWrap s.row s'.row) (copyLoop line same x2 rest i second s) := by
  induction rest, i, second, s using copyLoop.induct x2 with
  | case1 i second s hi =>
    rw [copyLoop.eq_def]
    simp only [if_pos hi]
    exact .error _
  | case2 i second s hi c hc =>
    rw [copyLoop.eq_def]
    simp only [if_pos hi, if_pos hc]
    exact .error _
  | case3 i second s hi c hc low rest ih =>
    rw [copyLoop.eq_def]
    simp only [if_pos hi, if_pos hc]
    exact .bind copyStep_sameWrap fun s' h => (ih s').mono fun _ h' => h'.trans h
  | case4 i second s hi c rest hc ih =>
    rw [copyLoop.eq_def]
    simp only [if_pos hi, if_neg hc]
    exact .bind copyStep_sameWrap fun s' h => (ih s').mono fun _ h' => h'.trans h
  | case5 rest i second s hi =>
    rw [copyLoop.eq_def]
    simp only [if_neg hi]
    exact .ok rfl

theorem copyInterval_sameWrap {line : TerminalRow} {same : Bool} {x1 x2 x : Int} :
    Ensures (SameWrap r) (r.copyInterval line same x1 x2 x) := by
  unfold copyInterval
  refine .bind_any fun _ => .bind_any fun _ => .bind_any fun _ => .ite (fun _ => .error _) fun _ => ?_
  exact .bind (copyLoop_sameWrap _ _ _ _) fun s h => .ok h

end TerminalRow

namespace TerminalBuffer

variable {b b' : TerminalBuffer}

/-- The flag of a row object. -/
def flag (b : TerminalBuffer) (line : Nat) : Bool :=
  (b.rows[line]?.map TerminalRow.mLineWrap).getD false

/-- No object has changed its flag, and new ones have none. -/
def SameFlags (b b' : TerminalBuffer) : Prop := ∀ line, b'.flag line = b.flag line

theorem SameFlags.trans {b'' : TerminalBuffer} (h : SameFlags b b') (h' : SameFlags b' b'') :
    SameFlags b b'' := fun line => (h' line).trans (h line)

theorem flag_update {line : Nat} {r r' : TerminalRow} (hr : b.rows[line]? = some r) (l : Nat) :
    (b.update line r').flag l = if l = line then r'.mLineWrap else b.flag l := by
  obtain ⟨hlt, -⟩ := List.getElem?_eq_some_iff.mp hr
  by_cases hl : l = line
  · subst hl
    simp [flag, update, hlt]
  · simp [flag, update, hl, List.getElem?_set_ne (Ne.symm hl)]

theorem deref_some {line : Nat} :
    Ensures (fun r => b.rows[line]? = some r) (b.deref (some line)) := by
  intro r hr
  simp only [deref] at hr
  split at hr
  · cases hr
    assumption
  · cases hr

/-- A method that keeps the flag of its row keeps all flags. -/
theorem update_sameFlags {line : Nat} {r r' : TerminalRow} (hr : b.rows[line]? = some r)
    (h : r.SameWrap r') : SameFlags b (b.update line r') := by
  intro l
  rw [flag_update hr]
  split_ifs with hl
  · subst hl
    simpa [flag, hr, TerminalRow.SameWrap] using h
  · rfl

theorem setOrClearEffect_sameFlags {bits : BitVec 32} {setOrClear reverse rectangular : Bool}
    {leftMargin rightMargin top left bottom right : Int} :
    Ensures (SameFlags b) (b.setOrClearEffect bits setOrClear reverse rectangular leftMargin
      rightMargin top left bottom right) := by
  unfold setOrClearEffect
  refine .forUp (fun y b₁ _ _ h₁ => .bind_any fun line => ?_) fun _ => rfl
  refine .forUp (fun x b₂ _ _ h₂ => ?_) h₁
  cases line with
  | none => exact .bind_any fun _ => .bind_any fun _ => .bind_any fun _ => .ok h₂
  | some line =>
    refine .bind deref_some fun r hr => .bind_any fun _ => .bind_any fun _ => .ok ?_
    exact h₂.trans (update_sameFlags hr rfl)

theorem clearTranscript_sameFlags : Ensures (SameFlags b) b.clearTranscript := by
  unfold clearTranscript
  exact .bind_any fun lines => .ok fun _ => rfl

/-- The flag of a row of the screen is that of the object in its slot. -/
theorem getLineWrap_ok {row : Int} {wrap : Bool} (h : b.getLineWrap row = .ok wrap) :
    ∃ line, b.lineAt row = .ok (some line) ∧ b.flag line = wrap := by
  obtain ⟨line, hline, hline'⟩ := bind_eq_ok.mp h
  obtain ⟨r, hr, hwrap⟩ := bind_eq_ok.mp hline'
  cases line with
  | none => cases hr
  | some line =>
    cases hwrap
    refine ⟨line, hline, ?_⟩
    simp [flag, deref_some r hr]

/-- What `setLineWrap` and `clearLineWrap` do. -/
theorem putLineWrap_flag {row : Int} {wrap : Bool} (h : b.putLineWrap row wrap = .ok b') :
    ∃ line, b.lineAt row = .ok (some line) ∧
      ∀ l, b'.flag l = if l = line then wrap else b.flag l := by
  obtain ⟨line, hline, hline'⟩ := bind_eq_ok.mp h
  obtain ⟨r, hr, hwrap⟩ := bind_eq_ok.mp hline'
  cases line with
  | none => cases hr
  | some line =>
    cases hwrap
    exact ⟨line, hline, fun l => flag_update (deref_some r hr) l⟩

section

variable [ShortStore]

theorem allocate_sameFlags {i : Int} {style : Style} :
    Ensures (fun p => SameFlags b p.1) (b.allocate i style) := by
  unfold allocate
  refine .bind TerminalRow.new_unwrapped fun r hr => .bind_any fun lines => .ok fun l => ?_
  simp only [flag]
  rcases lt_trichotomy l b.rows.length with hl | rfl | hl
  · rw [List.getElem?_append_left hl]
  · simp [hr]
  · rw [List.getElem?_eq_none (by simp; omega), List.getElem?_eq_none (by omega)]

theorem allocateFullLineIfNecessary_sameFlags {row : Int} :
    Ensures (fun p => SameFlags b p.1) (b.allocateFullLineIfNecessary row) := by
  unfold allocateFullLineIfNecessary
  refine .bind_any fun line => ?_
  cases line with
  | none => exact allocate_sameFlags
  | some line => exact .ok fun _ => rfl

theorem setChar_sameFlags {column row : Int} {codePoint : Nat} {style : Style} :
    Ensures (SameFlags b) (b.setChar column row codePoint style) := by
  unfold setChar
  refine .ite (fun _ => .error _) fun _ => .bind_any fun row' => ?_
  refine .bind allocateFullLineIfNecessary_sameFlags fun p h => .bind deref_some fun r hr => ?_
  exact .bind TerminalRow.setChar_sameWrap fun r' hr' => .ok (h.trans (update_sameFlags hr hr'))

theorem getStyleAt_sameFlags {row column : Int} :
    Ensures (fun p => SameFlags b p.1) (b.getStyleAt row column) := by
  unfold getStyleAt
  refine .bind_any fun row' => .bind allocateFullLineIfNecessary_sameFlags fun p h => ?_
  exact .bind_any fun r => .bind_any fun style => .ok h

theorem blockSet_sameFlags {sx sy w h : Int} {val : Nat} {style : Style} :
    Ensures (SameFlags b) (b.blockSet sx sy w h val style) := by
  unfold blockSet
  refine .ite (fun _ => .error _) fun _ => .forUp (fun y b₁ _ _ h₁ => ?_) fun _ => rfl
  exact .forUp (fun x b₂ _ _ h₂ => setChar_sameFlags.mono fun _ h₃ => h₂.trans h₃) h₁

theorem copyRow_sameFlags {sx w dx source destination : Int} :
    Ensures (SameFlags b) (b.copyRow sx w dx source destination) := by
  unfold copyRow
  refine .bind_any fun source' => .bind allocateFullLineIfNecessary_sameFlags fun p hp => ?_
  refine .bind_any fun destination' => .bind allocateFullLineIfNecessary_sameFlags fun q hq => ?_
  refine .bind_any fun sourceRow => .bind deref_some fun r hr => ?_
  exact .bind TerminalRow.copyInterval_sameWrap fun r' hr' =>
    .ok ((hp.trans hq).trans (update_sameFlags hr hr'))

theorem blockCopy_sameFlags {sx sy w h dx dy : Int} :
    Ensures (SameFlags b) (b.blockCopy sx sy w h dx dy) := by
  unfold blockCopy
  refine .ite (fun _ => .ok fun _ => rfl) fun _ => .ite (fun _ => .error _) fun _ => ?_
  exact .forUp (fun y b₁ _ _ h₁ => copyRow_sameFlags.mono fun _ h₂ => h₁.trans h₂) fun _ => rfl

/-! ## Slots that are filled -/

/-- An object stays in its slot, and one that was not there has no flag. -/
structure Fills (b b' : TerminalBuffer) : Prop where
  flags : SameFlags b b'
  stay : ∀ j line : Nat, b.mLines[j]? = some (some line) → b'.mLines[j]? = some (some line)
  fresh : ∀ j line : Nat, b'.mLines[j]? = some (some line) →
    b.mLines[j]? = some (some line) ∨ b.flag line = false

omit [ShortStore] in
theorem Fills.of_lines (hflags : SameFlags b b') (h : b'.mLines = b.mLines) : Fills b b' :=
  ⟨hflags, fun j line hj => by rw [h, hj], fun j line hj => .inl (by rw [← h, hj])⟩

omit [ShortStore] in
theorem Fills.trans {b'' : TerminalBuffer} (h : Fills b b') (h' : Fills b' b'') : Fills b b'' := by
  refine ⟨h.flags.trans h'.flags, fun j line hj => h'.stay j line (h.stay j line hj), ?_⟩
  intro j line hj
  rcases h'.fresh j line hj with hj' | hfresh
  · exact h.fresh j line hj'
  · right
    rw [← h.flags line, hfresh]

theorem allocate_fills {i : Int} {style : Style} (hi : b.mLines[i.toNat]? = some none) :
    Ensures (fun p => Fills b p.1 ∧ p.1.mLines[i.toNat]? = some (some p.2))
      (b.allocate i style) := by
  intro p hp
  have hflags := allocate_sameFlags p hp
  obtain ⟨r, -, hp'⟩ := bind_eq_ok.mp hp
  obtain ⟨lines, hlines, hp''⟩ := bind_eq_ok.mp hp'
  obtain ⟨-, rfl⟩ := arraySet_eq_ok.mp hlines
  cases hp''
  have hself : (b.mLines.set i.toNat (some b.rows.length))[i.toNat]? = some (some b.rows.length) :=
    List.getElem?_set_self (List.getElem?_eq_some_iff.mp hi).1
  refine ⟨⟨hflags, fun j line hj => ?_, fun j line hj => ?_⟩, hself⟩
  · have hne : i.toNat ≠ j := by
      intro he
      rw [← he, hi] at hj
      cases hj
    simp only
    rw [List.getElem?_set_ne hne, hj]
  · simp only at hj
    by_cases hne : i.toNat = j
    · rw [← hne, hself] at hj
      cases hj
      simp [flag]
    · rw [List.getElem?_set_ne hne] at hj
      exact .inl hj

theorem allocateFullLineIfNecessary_fills {row : Int} :
    Ensures (fun p => Fills b p.1 ∧ p.1.mLines[row.toNat]? = some (some p.2))
      (b.allocateFullLineIfNecessary row) := by
  intro p hp
  obtain ⟨line, hline, hp'⟩ := bind_eq_ok.mp hp
  obtain ⟨-, hslot⟩ := arrayGet_eq_ok.mp hline
  cases line with
  | none => exact allocate_fills hslot p hp'
  | some line =>
    cases hp'
    exact ⟨.of_lines (fun _ => rfl) rfl, hslot⟩

omit [ShortStore] in
theorem update_fills {line : Nat} {r r' : TerminalRow} (hr : b.rows[line]? = some r)
    (h : r.SameWrap r') : Fills b (b.update line r') :=
  .of_lines (update_sameFlags hr h) rfl

/-- Blanking a row fills its slot and keeps the flag of the object that is there. -/
theorem blankLine_fills {row : Int} {style : Style} :
    Ensures (Fills b) (b.blankLine row style) := by
  intro b' hb'
  obtain ⟨line, hline, hb''⟩ := bind_eq_ok.mp hb'
  obtain ⟨-, hslot⟩ := arrayGet_eq_ok.mp hline
  cases line with
  | none =>
    obtain ⟨p, hp, he⟩ := bind_eq_ok.mp hb''
    cases he
    exact (allocate_fills hslot p hp).1
  | some line =>
    refine (?_ : Ensures (Fills b) _) b' hb''
    exact .bind deref_some fun r hr => .bind TerminalRow.clear_sameWrap fun r' hr' =>
      .ok (update_fills hr hr')

theorem resizeRows_fills {newRows newTotalRows : Int} {cursor : Int × Int} {style : Style}
    {altScreen : Bool} :
    Ensures (fun p => Fills b p.1) (b.resizeRows newRows newTotalRows cursor style altScreen) := by
  have hself : Fills b b := .of_lines (fun _ => rfl) rfl
  unfold resizeRows
  refine .bind (P := fun p => Fills b p.1) ?_ fun p hp => ?_
  · refine .ite (fun _ => .bind_any fun shift => .ok hself) fun _ => .ite (fun _ => ?_) fun _ => .ok hself
    refine .ite (fun _ => ?_) fun _ => .ok hself
    refine .bind (P := Fills b) (.forUp (fun i b₁ _ _ h₁ => ?_) hself) fun b₂ h₂ => .ok h₂
    refine .bind_any fun row => .bind allocateFullLineIfNecessary_fills fun q hq => ?_
    exact .bind deref_some fun r hr => .bind TerminalRow.clear_sameWrap fun r' hr' =>
      .ok (h₁.trans (hq.1.trans (update_fills hr hr')))
  · exact .bind_any fun first => .ok ⟨hp.flags, hp.stay, hp.fresh⟩

end

end TerminalBuffer

end XoDos
