import XoDos.LineWrap

/-!
# Which lines are joined

Copied text joins a row to the next one when the flag of its object is set.
The object of a revealed row is an old one that is used again, so its flag may
come from the line that it held before.  A run carries along, as ghost state,
which objects have been auto-wrapped since they were last revealed.
-/

namespace XoDos

namespace TerminalBuffer

variable {b b' : TerminalBuffer}

/-! ## Copied text -/

/-- `StringBuilder.append(char[] str, int offset, int len)`: what is appended. -/
def appendChars (str : List Nat) (offset len : Int) : Java (List Nat) :=
  if offset < 0 ∨ len < 0 ∨ str.length < offset + len then .error .arrayIndexOutOfBounds
  else .ok ((str.drop offset.toNat).take len.toNat)

/-- One round of the loop of `getSelectedText`: the text of a row, and whether a newline follows. -/
def selectedRow (b : TerminalBuffer) (selX1 selY1 selX2 selY2 : Int)
    (joinBackLines joinFullLines : Bool) (row : Int) : Java (List Nat × Bool) := do
  let columns := b.mColumns
  let x1 := if row = selY1 then selX1 else 0
  let x2 := if row = selY2 then (if columns < selX2 + 1 then columns else selX2 + 1) else columns
  let line ← b.lineAt row
  let lineObject ← b.deref line
  let x1Index ← lineObject.findStartOfColumn x1
  let x2Index ←
    (if x2 < b.mColumns then lineObject.findStartOfColumn x2 else .ok lineObject.getSpaceUsed)
  -- Selected the start of a wide character.
  let x2Index ← (if x2Index = x1Index then lineObject.findStartOfColumn (x2 + 1) else .ok x2Index)
  let rowLineWrap ← b.getLineWrap row
  let lastPrintingCharIndex ←
    (if rowLineWrap ∧ x2 = columns then .ok (x2Index - 1)
    else forUp x1Index x2Index (fun i last => do
      let c ← arrayGet lineObject.mText i
      return if c ≠ 0x20 then i else last) (-1))
  let len := lastPrintingCharIndex - x1Index + 1
  let text ←
    (if lastPrintingCharIndex ≠ -1 ∧ 0 < len then appendChars lineObject.mText x1Index len
    else .ok [])
  let lineFillsWidth : Bool := lastPrintingCharIndex = x2Index - 1
  return (text, (!joinBackLines || !rowLineWrap) && (!joinFullLines || !lineFillsWidth) &&
    decide (row < selY2) && decide (row < b.mScreenRows - 1))

def getSelectedText (b : TerminalBuffer) (selX1 selY1 selX2 selY2 : Int)
    (joinBackLines joinFullLines : Bool) : Java JavaString :=
  let selY1 := if selY1 < -b.mActiveTranscriptRows then -b.mActiveTranscriptRows else selY1
  let selY2 := if b.mScreenRows ≤ selY2 then b.mScreenRows - 1 else selY2
  forUp selY1 (selY2 + 1) (fun row builder => do
    let (text, newline) ← b.selectedRow selX1 selY1 selX2 selY2 joinBackLines joinFullLines row
    return builder ++ text ++ (if newline then [0x0A] else [])) []

/-- Between two rows of a selection the newline is only left out at a flag. -/
theorem selectedRow_joined {selX1 selY1 selX2 selY2 row : Int} {text : List Nat}
    (hrow : row < selY2) (hlast : row < b.mScreenRows - 1)
    (h : b.selectedRow selX1 selY1 selX2 selY2 true false row = .ok (text, false)) :
    b.getLineWrap row = .ok true := by
  unfold selectedRow at h
  obtain ⟨line, -, h₁⟩ := bind_eq_ok.mp h
  obtain ⟨lineObject, -, h₂⟩ := bind_eq_ok.mp h₁
  obtain ⟨x1Index, -, h₃⟩ := bind_eq_ok.mp h₂
  obtain ⟨x2Index, -, h₄⟩ := bind_eq_ok.mp h₃
  obtain ⟨x2Index', -, h₅⟩ := bind_eq_ok.mp h₄
  obtain ⟨rowLineWrap, hwrap, h₆⟩ := bind_eq_ok.mp h₅
  obtain ⟨lastPrintingCharIndex, -, h₇⟩ := bind_eq_ok.mp h₆
  obtain ⟨text', -, h₈⟩ := bind_eq_ok.mp h₇
  have hnewline := congrArg Prod.snd (Except.ok.inj h₈)
  have htrue : rowLineWrap = true := by simpa [hrow, hlast] using hnewline
  rw [hwrap, htrue]

/-! ## The row that a scroll reveals -/

theorem modRows_index {x total j : Int} (hT : 0 < total) (h : modRows x total = .ok j) (y : Int) :
    Ring.index total (j + y) = Ring.index total (x + y) := by
  simp only [modRows, if_neg hT.ne'] at h
  cases h
  have hdiv := Int.tmod_add_mul_tdiv x total
  have hx : x + y = x.tmod total + y + total * x.tdiv total := by omega
  rw [Ring.index, Ring.index, hx, Int.add_mul_emod_self_left]

theorem modRows_toNat {x total j : Int} (hT : 0 < total) (h : modRows x total = .ok j) (hj : 0 ≤ j) :
    j.toNat = Ring.index total x := by
  have hlt : j < total := by
    simp only [modRows, if_neg hT.ne'] at h
    cases h
    have := Int.tmod_lt_of_pos x hT
    omega
  have hindex := modRows_index hT h 0
  rw [add_zero, add_zero, Ring.index_of_lt hj hlt] at hindex
  exact hindex

/-- The loop leaves alone the slots that it does not write to. -/
theorem copyLinesLoop_rest {src total : Int} (hT : 0 < total) {n : Nat}
    {lines : List (Option Nat)} :
    Ensures (fun lines' => ∀ j, (∀ x, src < x → x ≤ src + n → Ring.index total x ≠ j) →
      lines'[j]? = lines[j]?) (copyLinesLoop src total n lines) := by
  induction n generalizing lines with
  | zero => exact .ok fun j _ => rfl
  | succ n ih =>
    intro lines' h
    obtain ⟨source, -, h₁⟩ := bind_eq_ok.mp h
    obtain ⟨line, -, h₂⟩ := bind_eq_ok.mp h₁
    obtain ⟨target, htarget, h₃⟩ := bind_eq_ok.mp h₂
    obtain ⟨lines₁, hset, h₄⟩ := bind_eq_ok.mp h₃
    obtain ⟨⟨h₀, -⟩, rfl⟩ := arraySet_eq_ok.mp hset
    intro j hj
    push_cast at hj
    rw [ih lines' h₄ j fun x hx hx' => hj x hx (by omega), List.getElem?_set_ne]
    rw [modRows_toNat hT htarget h₀]
    exact hj _ (by omega) (by omega)

/-- The line behind the block is put in front of it. -/
theorem blockCopyLinesDown_slots (hT : 0 < b.mTotalRows) {src len : Int} (hlen : 0 ≤ len) :
    Ensures (fun b' => b' = { b with mLines := b'.mLines } ∧
      b'.mLines[Ring.index b.mTotalRows src]? = b.mLines[Ring.index b.mTotalRows (src + len)]? ∧
      ∀ j, (∀ x, src ≤ x → x ≤ src + len → Ring.index b.mTotalRows x ≠ j) →
        b'.mLines[j]? = b.mLines[j]?) (b.blockCopyLinesDown src len) := by
  unfold blockCopyLinesDown
  refine .ite (fun hz => .ok ⟨rfl, by rw [hz, add_zero], fun _ _ => rfl⟩) fun hz => ?_
  intro b' h
  obtain ⟨last, hlast, h₁⟩ := bind_eq_ok.mp h
  obtain ⟨line, hline, h₂⟩ := bind_eq_ok.mp h₁
  obtain ⟨lines, hloop, h₃⟩ := bind_eq_ok.mp h₂
  obtain ⟨first, hfirst, h₄⟩ := bind_eq_ok.mp h₃
  obtain ⟨lines', hset, h₅⟩ := bind_eq_ok.mp h₄
  obtain ⟨⟨h₀, hlt⟩, rfl⟩ := arraySet_eq_ok.mp hset
  obtain ⟨hlast₀, hline⟩ := arrayGet_eq_ok.mp hline
  cases h₅
  have hslot := modRows_toNat hT hfirst h₀
  refine ⟨rfl, ?_, fun j hj => ?_⟩
  · rw [← hslot, List.getElem?_set_self (by omega), ← hline, modRows_toNat hT hlast hlast₀]
    congr 2
    omega
  · rw [hslot, List.getElem?_set_ne (hj src le_rfl (by omega))]
    refine copyLinesLoop_rest hT lines hloop j fun x hx hx' => hj x hx.le ?_
    omega

/-- The object for the row that a scroll with this top margin reveals: the one behind the screen or,
if the screen fills the ring, that of the row that leaves the screen. -/
def recycled (b : TerminalBuffer) (topMargin : Int) : Option Nat :=
  b.mLines[b.slot (if b.mScreenRows = b.mTotalRows then topMargin else b.mScreenRows)]?.join

/-- The two moves bring the recycled object to the slot behind the scrolled region. -/
theorem moves_recycled (hfits : b.mScreenRows ≤ b.mTotalRows) {topMargin bottomMargin below : Int}
    (htop : 0 ≤ topMargin) (htb : topMargin < bottomMargin) (hbs : bottomMargin ≤ b.mScreenRows)
    {b₁ b₂ : TerminalBuffer} (h₁ : b.blockCopyLinesDown b.mScreenFirstRow topMargin = .ok b₁)
    (hbelow : b₁.externalToInternalRow bottomMargin = .ok below)
    (h₂ : b₁.blockCopyLinesDown below (b₁.mScreenRows - bottomMargin) = .ok b₂) :
    b₂ = { b with mLines := b₂.mLines } ∧ b₂.mLines[b.slot bottomMargin]?.join = b.recycled topMargin := by
  have hT : 0 < b.mTotalRows := by omega
  obtain ⟨he₁, hfirst, hrest⟩ := blockCopyLinesDown_slots hT htop b₁ h₁
  have hT₁ : b₁.mTotalRows = b.mTotalRows := by rw [he₁]
  have hS₁ : b₁.mScreenRows = b.mScreenRows := by rw [he₁]
  have hF₁ : b₁.mScreenFirstRow = b.mScreenFirstRow := by rw [he₁]
  obtain ⟨he₂, hlast, -⟩ := blockCopyLinesDown_slots (by omega) (by omega) b₂ h₂
  refine ⟨by rw [he₂, he₁], ?_⟩
  have hbelow' (y : Int) : Ring.index b.mTotalRows (below + y) =
      Ring.index b.mTotalRows (b.mScreenFirstRow + bottomMargin + y) := by
    rcases externalToInternalRow_cases (by omega) hbelow with ⟨-, hj⟩ | ⟨-, hj⟩
    · rw [hj, hT₁, hF₁, Ring.index, Ring.index, add_assoc, Int.add_emod_left]
    · rw [hj, hT₁, hF₁, Ring.index, Ring.index, Int.emod_add_emod]
  have hslot := hbelow' 0
  rw [add_zero, add_zero] at hslot
  rw [hT₁, hS₁, hslot, hbelow',
    show b.mScreenFirstRow + bottomMargin + (b.mScreenRows - bottomMargin) =
      b.mScreenFirstRow + b.mScreenRows by omega] at hlast
  rw [recycled, slot, hlast]
  split_ifs with hfull
  · rw [hfull, Ring.index_add_self, hfirst, slot]
  · rw [slot, hrest]
    intro x hx hx' he
    have := Ring.index_inj hT (by omega) (by omega) he
    omega

section

variable [ShortStore]

theorem blankLine_externalToInternalRow {row x : Int} {style : Style} :
    Ensures (fun b' => b'.externalToInternalRow x = b.externalToInternalRow x)
      (b.blankLine row style) := by
  unfold blankLine
  refine .bind_any fun line => ?_
  cases line with
  | none =>
    unfold allocate
    refine .bind (P := fun p => p.1.externalToInternalRow x = b.externalToInternalRow x) ?_
      fun p hp => .ok hp
    exact .bind_any fun r => .bind_any fun lines => .ok rfl
  | some line => exact .bind_any fun r => .bind_any fun r' => .ok rfl

/-- The revealed row has the recycled object or a new one, and no flag has changed. -/
theorem scrollDownOneLine_reveals (hfits : b.mScreenRows ≤ b.mTotalRows)
    {topMargin bottomMargin : Int} {style : Style}
    (h : b.scrollDownOneLine topMargin bottomMargin style = .ok b') :
    SameFlags b b' ∧
      (∀ line, b.recycled topMargin = some line → b'.lineAt (bottomMargin - 1) = .ok (some line)) ∧
      ∀ line, b'.lineAt (bottomMargin - 1) = .ok (some line) →
        b.recycled topMargin = some line ∨ b.flag line = false := by
  unfold scrollDownOneLine at h
  split_ifs at h with hrange
  obtain ⟨b₁, h₁, h⟩ := bind_eq_ok.mp h
  obtain ⟨below, hbelow, h⟩ := bind_eq_ok.mp h
  obtain ⟨b₂, h₂, h⟩ := bind_eq_ok.mp h
  obtain ⟨first, hfirst, h⟩ := bind_eq_ok.mp h
  obtain ⟨row, hrow, hblank⟩ := bind_eq_ok.mp h
  have hT : 0 < b.mTotalRows := by omega
  obtain ⟨he₂, hrecycled⟩ := moves_recycled hfits (by omega) (by omega) (by omega) h₁ hbelow h₂
  have hT₂ : b₂.mTotalRows = b.mTotalRows := by rw [he₂]
  have hF₂ : b₂.mScreenFirstRow = b.mScreenFirstRow := by rw [he₂]
  have hflags₂ : SameFlags b b₂ := fun line => by rw [flag, flag, he₂]
  have hfills := blankLine_fills b' hblank
  have hext := blankLine_externalToInternalRow (x := bottomMargin - 1) b' hblank
  rw [hrow] at hext
  obtain ⟨line₀, hline₀, -⟩ := bind_eq_ok.mp hblank
  obtain ⟨hrow₀, hline₀⟩ := arrayGet_eq_ok.mp hline₀
  -- The slot that is blanked is the one behind the scrolled region.
  have hslot : row.toNat = b.slot bottomMargin := by
    have hindex (y : Int) := modRows_index (by omega) hfirst y
    rw [hT₂, hF₂] at hindex
    rcases externalToInternalRow_cases (by simp only; omega) hrow with ⟨hneg, hj⟩ | ⟨-, hj⟩
    · simp only [hT₂] at hneg hj
      rw [← Ring.index_of_lt hrow₀ (n := b.mTotalRows) (by omega), hj, Ring.index, Int.add_emod_left,
        ← Ring.index, hindex, slot]
      congr 1
      omega
    · simp only [hT₂] at hj
      have := Int.emod_lt_of_pos (first + (bottomMargin - 1)) hT
      rw [← Ring.index_of_lt hrow₀ (n := b.mTotalRows) (by omega), hj, Ring.index, Int.emod_emod,
        ← Ring.index, hindex, slot]
      congr 1
      omega
  have hlineAt (line : Nat) : b'.lineAt (bottomMargin - 1) = .ok (some line) ↔
      b'.mLines[row.toNat]? = some (some line) := by
    rw [lineAt, hext, ok_bind, arrayGet_eq_ok]
    exact ⟨fun h => h.2, fun h => ⟨hrow₀, h⟩⟩
  have hjoin (line : Nat) : b₂.mLines[row.toNat]? = some (some line) ↔
      b.recycled topMargin = some line := by
    rw [← hrecycled, hslot]
    exact Option.join_eq_some_iff.symm
  refine ⟨hflags₂.trans hfills.flags, fun line hline => ?_, fun line hline => ?_⟩
  · rw [hlineAt]
    exact hfills.stay _ _ ((hjoin line).mpr hline)
  · rcases hfills.fresh _ _ ((hlineAt line).mp hline) with hold | hnew
    · exact .inl ((hjoin line).mp hold)
    · right
      rw [← hflags₂ line]
      exact hnew

/-! ## The rows that growing reveals -/

theorem allocateFullLine_first {row : Int} :
    Ensures (fun p => p.1.mScreenFirstRow = b.mScreenFirstRow) (b.allocateFullLineIfNecessary row) := by
  unfold allocateFullLineIfNecessary allocate
  refine .bind_any fun line => ?_
  cases line with
  | none => exact .bind_any fun r => .bind_any fun lines => .ok rfl
  | some line => exact .ok rfl

/-- When the whole history comes back to the screen, the ring starts at its oldest row. -/
theorem resizeRows_first {newRows newTotalRows : Int} {cursor : Int × Int} {style : Style}
    {altScreen : Bool} (hT : 0 < b.mTotalRows) (hgrow : b.mScreenRows < newRows)
    (hall : b.mScreenRows + b.mActiveTranscriptRows < newRows) :
    Ensures (fun p => p.1.mTotalRows = newTotalRows ∧ ∀ y,
        Ring.index b.mTotalRows (p.1.mScreenFirstRow + y) = b.slot (y - b.mActiveTranscriptRows))
      (b.resizeRows newRows newTotalRows cursor style altScreen) := by
  unfold resizeRows
  refine .bind (P := fun p => p.2 = -b.mActiveTranscriptRows ∧
    p.1.mScreenFirstRow = b.mScreenFirstRow ∧ p.1.mTotalRows = b.mTotalRows) ?_ ?_
  · refine .ite (fun _ => by omega) fun _ => .ite (fun _ => .ite (fun _ => ?_) (by omega)) (by omega)
    refine .bind (P := fun b₁ => b₁.mScreenFirstRow = b.mScreenFirstRow ∧
      b₁.mTotalRows = b.mTotalRows) (.forUp (fun i b₁ _ _ h₁ => ?_) ⟨rfl, rfl⟩) fun b₁ h₁ => ?_
    · intro b₂ hb₂
      obtain ⟨row, -, hb₃⟩ := bind_eq_ok.mp hb₂
      obtain ⟨p, hp, hb₄⟩ := bind_eq_ok.mp hb₃
      obtain ⟨r, -, hb₅⟩ := bind_eq_ok.mp hb₄
      obtain ⟨r', -, hb₆⟩ := bind_eq_ok.mp hb₅
      cases hb₆
      exact ⟨(allocateFullLine_first p hp).trans h₁.1,
        (allocateFullLine_sameSize row p hp).total.trans h₁.2⟩
    · exact .ok ⟨by simp only; omega, h₁⟩
  · rintro ⟨b₁, shift⟩ ⟨hshift, hfirst, htotal⟩
    simp only at hshift hfirst htotal
    refine .bind (P := fun first => ∀ y, Ring.index b.mTotalRows (first + y) =
      b.slot (y - b.mActiveTranscriptRows)) ?_ fun first h => .ok ⟨rfl, h⟩
    have hslot (y : Int) : Ring.index b.mTotalRows (b₁.mScreenFirstRow + shift + y) =
        b.slot (y - b.mActiveTranscriptRows) := by
      rw [slot, hfirst, hshift]
      congr 1
      omega
    refine .ite (fun _ => .ok fun y => ?_) fun _ first h y => ?_
    · rw [← hslot y, htotal, add_right_comm, Ring.index_add_self]
    · rw [htotal] at h
      rw [modRows_index hT h y, hslot]

/-- A row that a growing screen reveals has the object that is in its slot or a new one. -/
theorem resizeRows_reveals {newRows newTotalRows x : Int} {cursor : Int × Int} {style : Style}
    {altScreen : Bool} (htotal : newTotalRows = b.mTotalRows) (hgrow : b.mScreenRows < newRows)
    (hrows : newRows ≤ b.mTotalRows) (hx₀ : 0 ≤ x)
    (hx : b.mScreenRows + b.mActiveTranscriptRows ≤ x) (hx' : x < newRows)
    {p : TerminalBuffer × (Int × Int)}
    (h : b.resizeRows newRows newTotalRows cursor style altScreen = .ok p) {line : Nat}
    (hline : p.1.lineAt x = .ok (some line)) :
    b.mLines[b.slot (x - b.mActiveTranscriptRows)]? = some (some line) ∨ b.flag line = false := by
  have hT : 0 < b.mTotalRows := by omega
  obtain ⟨hT', hfirst⟩ := resizeRows_first hT hgrow (by omega) p h
  obtain ⟨j, hj, hget⟩ := bind_eq_ok.mp hline
  obtain ⟨hj₀, hget⟩ := arrayGet_eq_ok.mp hget
  have hlt : j < b.mTotalRows ∧ Ring.index b.mTotalRows j =
      Ring.index b.mTotalRows (p.1.mScreenFirstRow + x) := by
    rcases externalToInternalRow_cases (by omega) hj with ⟨hneg, hj⟩ | ⟨-, hj⟩
    · rw [hT', htotal] at hj
      refine ⟨by omega, ?_⟩
      rw [hj, Ring.index, Int.add_emod_left, Ring.index]
    · rw [hT', htotal] at hj
      have := Int.emod_lt_of_pos (p.1.mScreenFirstRow + x) hT
      refine ⟨by omega, ?_⟩
      rw [hj, Ring.index, Int.emod_emod, Ring.index]
  have hslot : j.toNat = b.slot (x - b.mActiveTranscriptRows) := by
    rw [← hfirst x, ← hlt.2, Ring.index_of_lt hj₀ hlt.1]
  rw [hslot] at hget
  exact (resizeRows_fills p h).fresh _ _ hget

theorem resizeRows_sizes {newRows newTotalRows : Int} {cursor : Int × Int} {style : Style}
    {altScreen : Bool} :
    Ensures (fun p => p.1.mScreenRows = newRows ∧ p.1.mTotalRows = newTotalRows)
      (b.resizeRows newRows newTotalRows cursor style altScreen) := by
  unfold resizeRows
  exact .bind_any fun p => .bind_any fun first => .ok ⟨rfl, rfl⟩

/-! ## One operation -/

namespace Operation

/-- Not a resize that copies every character, which is a run of the other operations. -/
def Single (b : TerminalBuffer) : Operation → Prop
  | resize newColumns newRows _ _ _ _ => b.isFastResize newColumns newRows
  | _ => True

/-- The row `x` of the screen that the operation leaves is revealed by it as a blank row.  A growing
screen is given the ring that it has. -/
def Exposes (b : TerminalBuffer) : Operation → Int → Prop
  | scrollDownOneLine _ bottomMargin _, x => x = bottomMargin - 1
  | resize _ newRows newTotalRows _ _ _, x =>
    newTotalRows = b.mTotalRows ∧ b.mScreenRows < newRows ∧
      0 ≤ x ∧ b.mScreenRows + b.mActiveTranscriptRows ≤ x ∧ x < newRows
  | _, _ => False

/-- The objects that are there for the revealed rows. -/
def Recycles (b : TerminalBuffer) : Operation → Nat → Prop
  | scrollDownOneLine topMargin _ _, line => b.recycled topMargin = some line
  | resize _ newRows _ _ _ _, line => b.mScreenRows < newRows ∧
    ∃ x, b.mScreenRows ≤ x ∧ x < newRows - b.mActiveTranscriptRows ∧
      b.mLines[b.slot x]? = some (some line)
  | _, _ => False

/-- The objects that are marked as auto-wrapped. -/
def Wraps (b : TerminalBuffer) : Operation → Nat → Prop
  | setLineWrap row, line => b.lineAt row = .ok (some line)
  | _, _ => False

theorem run_resizeRows {newColumns newRows newTotalRows : Int} {cursor : Int × Int}
    {currentStyle : Style} {altScreen : Bool} (hfast : b.isFastResize newColumns newRows)
    (h : (resize newColumns newRows newTotalRows cursor currentStyle altScreen).run b = .ok b') :
    ∃ p, b.resizeRows newRows newTotalRows cursor currentStyle altScreen = .ok p ∧ p.1 = b' := by
  obtain ⟨p, hp, he⟩ := bind_eq_ok.mp h
  obtain ⟨q, hq, he'⟩ := bind_eq_ok.mp hp
  rw [if_pos (show newColumns = b.mColumns ∧ newRows ≤ b.mTotalRows from hfast)] at hq
  cases he'
  cases he
  exact ⟨q, hq, rfl⟩

variable {operation : Operation}

/-- Only `setLineWrap` sets a flag. -/
theorem run_flag (hsingle : operation.Single b) (h : operation.run b = .ok b')
    (hfits : b.mScreenRows ≤ b.mTotalRows) {line : Nat} (hline : b'.flag line = true) :
    b.flag line = true ∨ operation.Wraps b line := by
  have same (hsame : SameFlags b b') : b.flag line = true := by rw [← hsame line, hline]
  cases operation with
  | setChar column row codePoint style => exact .inl (same (setChar_sameFlags _ h))
  | blockSet sx sy w h' val style => exact .inl (same (blockSet_sameFlags _ h))
  | blockCopy sx sy w h' dx dy => exact .inl (same (blockCopy_sameFlags _ h))
  | scrollDownOneLine topMargin bottomMargin style =>
    exact .inl (same (scrollDownOneLine_reveals hfits h).1)
  | setLineWrap row =>
    obtain ⟨line', hrow, hflag⟩ := putLineWrap_flag h
    rw [hflag line] at hline
    split_ifs at hline with heq
    · subst heq
      exact .inr hrow
    · exact .inl hline
  | clearLineWrap row =>
    obtain ⟨line', -, hflag⟩ := putLineWrap_flag h
    rw [hflag line] at hline
    split_ifs at hline
    exact .inl hline
  | getStyleAt externalRow column =>
    obtain ⟨p, hp, he⟩ := bind_eq_ok.mp h
    cases he
    exact .inl (same (getStyleAt_sameFlags _ hp))
  | setOrClearEffect bits setOrClear reverse rectangular leftMargin rightMargin top left bottom right =>
    exact .inl (same (setOrClearEffect_sameFlags _ h))
  | clearTranscript => exact .inl (same (clearTranscript_sameFlags _ h))
  | resize newColumns newRows newTotalRows cursor currentStyle altScreen =>
    obtain ⟨q, hq, rfl⟩ := run_resizeRows hsingle h
    exact .inl (same (resizeRows_fills q hq).flags)

/-- A revealed row has a recycled object, with the flag that it had, or one without a flag. -/
theorem run_exposes (hsingle : operation.Single b) (h : operation.run b = .ok b')
    (hfits : b.mScreenRows ≤ b.mTotalRows) {x : Int} (hx : operation.Exposes b x) {line : Nat}
    (hline : b'.lineAt x = .ok (some line)) :
    b'.flag line = b.flag line ∧ (operation.Recycles b line ∨ b.flag line = false) := by
  cases operation with
  | scrollDownOneLine topMargin bottomMargin style =>
    obtain ⟨hflags, -, hold⟩ := scrollDownOneLine_reveals hfits h
    rw [show x = bottomMargin - 1 from hx] at hline
    exact ⟨hflags line, hold line hline⟩
  | resize newColumns newRows newTotalRows cursor currentStyle altScreen =>
    obtain ⟨htotal, hgrow, hx₀, hx₁, hx₂⟩ := hx
    obtain ⟨q, hq, rfl⟩ := run_resizeRows hsingle h
    refine ⟨(resizeRows_fills q hq).flags line, ?_⟩
    rcases resizeRows_reveals htotal hgrow hsingle.2 hx₀ hx₁ hx₂ hq hline with hold | hnew
    · exact .inl ⟨hgrow, x - b.mActiveTranscriptRows, by omega, by omega, hold⟩
    · exact .inr hnew
  | setChar column row codePoint style => exact hx.elim
  | blockSet sx sy w h' val style => exact hx.elim
  | blockCopy sx sy w h' dx dy => exact hx.elim
  | setLineWrap row => exact hx.elim
  | clearLineWrap row => exact hx.elim
  | getStyleAt externalRow column => exact hx.elim
  | setOrClearEffect bits setOrClear reverse rectangular leftMargin rightMargin top left bottom right =>
    exact hx.elim
  | clearTranscript => exact hx.elim

theorem run_fits (hsingle : operation.Single b) (hlegal : operation.Legal)
    (h : operation.run b = .ok b') (hfits : b.mScreenRows ≤ b.mTotalRows) :
    b'.mScreenRows ≤ b'.mTotalRows := by
  have same (hsame : SameSize b b') : b'.mScreenRows ≤ b'.mTotalRows := by
    rw [hsame.screen, hsame.total]
    exact hfits
  cases operation with
  | setChar column row codePoint style => exact same (setChar_sameSize _ h).1
  | blockSet sx sy w h' val style => exact same (blockSet_sameSize _ h)
  | blockCopy sx sy w h' dx dy => exact same (blockCopy_sameSize _ h)
  | scrollDownOneLine topMargin bottomMargin style => exact same (scrollDownOneLine_sameSize _ h)
  | setLineWrap row => exact same (putLineWrap_sameSize _ h)
  | clearLineWrap row => exact same (putLineWrap_sameSize _ h)
  | getStyleAt externalRow column =>
    obtain ⟨p, hp, he⟩ := bind_eq_ok.mp h
    cases he
    exact same (getStyleAt_sameSize _ hp)
  | setOrClearEffect bits setOrClear reverse rectangular leftMargin rightMargin top left bottom right =>
    exact same (setOrClearEffect_sameSize _ h)
  | clearTranscript => exact same (clearTranscript_sameSize _ h)
  | resize newColumns newRows newTotalRows cursor currentStyle altScreen =>
    obtain ⟨q, hq, rfl⟩ := run_resizeRows hsingle h
    obtain ⟨hscreen, htotal⟩ := resizeRows_sizes q hq
    rw [hscreen, htotal]
    exact hlegal

end Operation

/-! ## Runs -/

/-- No object that the operation reveals has its flag set. -/
def Unflagged (b : TerminalBuffer) (operation : Operation) : Prop :=
  ∀ line, operation.Recycles b line → b.flag line = false

/-- The buffer is reached by operations with `P`, from one without flags, and `wrapped` tells which
objects have been auto-wrapped since they were last revealed. -/
inductive Traced (P : TerminalBuffer → Operation → Prop) : TerminalBuffer → (Nat → Prop) → Prop where
  | blank {b : TerminalBuffer} (hfits : b.mScreenRows ≤ b.mTotalRows)
      (hflags : ∀ line, b.flag line = false) : Traced P b fun _ => False
  | step {b b' : TerminalBuffer} {wrapped : Nat → Prop} (operation : Operation)
      (h : Traced P b wrapped) (hlegal : operation.Legal) (hsingle : operation.Single b)
      (hP : P b operation) (hrun : operation.run b = .ok b') :
      Traced P b' fun line => (wrapped line ∨ operation.Wraps b line) ∧
        ¬ ∃ x, operation.Exposes b x ∧ b'.lineAt x = .ok (some line)

variable {P : TerminalBuffer → Operation → Prop} {wrapped : Nat → Prop}

theorem Traced.fits (h : Traced P b wrapped) : b.mScreenRows ≤ b.mTotalRows := by
  induction h with
  | blank hfits _ => exact hfits
  | step _ _ hlegal hsingle _ hrun ih => exact Operation.run_fits hsingle hlegal hrun ih

theorem Traced.new {columns totalRows screenRows : Int} (hlegal : screenRows ≤ totalRows)
    (hP : ∀ b, P b (.blockSet 0 0 columns screenRows 0x20 TextStyle.normal))
    (h : TerminalBuffer.new columns totalRows screenRows = .ok b) :
    ∃ wrapped, Traced P b wrapped := by
  obtain ⟨lines, -, hset⟩ := bind_eq_ok.mp h
  have hblank : Traced P
      { rows := [], mLines := lines, mTotalRows := totalRows, mScreenRows := screenRows,
        mColumns := columns, mActiveTranscriptRows := 0, mScreenFirstRow := 0 } fun _ => False :=
    .blank hlegal fun _ => rfl
  exact ⟨_, .step (.blockSet 0 0 columns screenRows 0x20 TextStyle.normal) hblank trivial trivial
    (hP _) hset⟩

theorem exposed_unflagged {operation : Operation} (hfits : b.mScreenRows ≤ b.mTotalRows)
    (hsingle : operation.Single b) (hP : Unflagged b operation) (hrun : operation.run b = .ok b')
    {x : Int} (hx : operation.Exposes b x) {line : Nat} (hline : b'.lineAt x = .ok (some line)) :
    b'.flag line = false := by
  obtain ⟨hflag, hold | hnew⟩ := Operation.run_exposes hsingle hrun hfits hx hline
  · rw [hflag, hP line hold]
  · rw [hflag, hnew]

/-- A flag that is set is younger than the last time the object was revealed. -/
theorem Traced.flag_wrapped (h : Traced Unflagged b wrapped) :
    ∀ line, b.flag line = true → wrapped line := by
  induction h with
  | blank _ hflags =>
    intro line hline
    rw [hflags line] at hline
    cases hline
  | step _ h _ hsingle hP hrun ih =>
    intro line hline
    refine ⟨?_, ?_⟩
    · rcases Operation.run_flag hsingle hrun h.fits hline with hold | hwraps
      · exact .inl (ih line hold)
      · exact .inr hwraps
    · rintro ⟨x, hx, hrow⟩
      rw [exposed_unflagged h.fits hsingle hP hrun hx hrow] at hline
      cases hline

/-- As long as no flagged object is recycled, revealed rows have no flag, and rows are only joined
where the first one has been auto-wrapped since it was revealed. -/
theorem Traced.lineWrap_fresh (h : Traced Unflagged b wrapped) :
    (∀ (operation : Operation) (b' : TerminalBuffer) (x : Int), operation.Legal →
      operation.Single b → Unflagged b operation → operation.run b = .ok b' →
      operation.Exposes b x → b'.getLineWrap x ≠ .ok true) ∧
    ∀ (selX1 selY1 selX2 selY2 row : Int) (text : List Nat), row < selY2 → row < b.mScreenRows - 1 →
      b.selectedRow selX1 selY1 selX2 selY2 true false row = .ok (text, false) →
      ∃ line, b.lineAt row = .ok (some line) ∧ wrapped line := by
  constructor
  · intro operation b' x _ hsingle hP hrun hx hwrap
    obtain ⟨line, hline, hflag⟩ := getLineWrap_ok hwrap
    rw [exposed_unflagged h.fits hsingle hP hrun hx hline] at hflag
    cases hflag
  · intro selX1 selY1 selX2 selY2 row text hrow hlast hjoined
    obtain ⟨line, hline, hflag⟩ := getLineWrap_ok (selectedRow_joined hrow hlast hjoined)
    exact ⟨line, hline, h.flag_wrapped line hflag⟩

end

/-- Two rows, the lower one auto-wrapped, scroll by one: the flag goes with its line. -/
theorem lineWrap_fresh_two_rows :
    ∃ b wrapped, Traced Unflagged b wrapped ∧ b.getLineWrap 0 = .ok true ∧
      b.getLineWrap 1 ≠ .ok true ∧ ∃ line, b.lineAt 0 = .ok (some line) ∧ wrapped line := by
  have hrun : (do
      let b ← TerminalBuffer.new 2 2 2
      let b₁ ← b.setLineWrap 1
      let b₂ ← b₁.scrollDownOneLine 0 2 0
      let wrap ← b₂.getLineWrap 0
      let joined ← b₂.selectedRow 0 0 1 1 true false 0
      return ((b₁.recycled 0, b₁.flag 0), (wrap, joined, b₂.mScreenRows))) =
      .ok ((some 0, false), (true, ([0x20, 0x20], false), 2)) := by decide +kernel
  obtain ⟨b, hb, hrun⟩ := bind_eq_ok.mp hrun
  obtain ⟨b₁, hb₁, hrun⟩ := bind_eq_ok.mp hrun
  obtain ⟨b₂, hb₂, hrun⟩ := bind_eq_ok.mp hrun
  obtain ⟨wrap, hwrap, hrun⟩ := bind_eq_ok.mp hrun
  obtain ⟨joined, hjoined, hrun⟩ := bind_eq_ok.mp hrun
  injection hrun with hrun
  simp only [Prod.mk.injEq] at hrun
  obtain ⟨⟨hrecycled, hflag⟩, rfl, rfl, hscreen⟩ := hrun
  obtain ⟨wrapped, h⟩ : ∃ wrapped, Traced Unflagged b wrapped :=
    Traced.new (by decide) (fun _ _ hline => hline.elim) hb
  have h₁ := Traced.step (.setLineWrap 1) h trivial trivial (fun _ hline => hline.elim) hb₁
  have hunflagged : Unflagged b₁ (.scrollDownOneLine 0 2 0) := by
    intro line hline
    have hline' : b₁.recycled 0 = some line := hline
    rw [hrecycled] at hline'
    cases hline'
    exact hflag
  have h₂ := Traced.step (.scrollDownOneLine 0 2 0) h₁ trivial trivial hunflagged hb₂
  refine ⟨b₂, _, h₂, hwrap, ?_, ?_⟩
  · exact h₁.lineWrap_fresh.1 (.scrollDownOneLine 0 2 0) b₂ 1 trivial trivial hunflagged hb₂ rfl
  · exact h₂.lineWrap_fresh.2 0 0 1 1 0 _ (by decide) (by omega) hjoined

/-- The upper one of two rows is auto-wrapped, and the screen scrolls by one.  The row that is
revealed is flagged, and when it has moved up it is joined to the next one. -/
theorem revealed_row_flagged :
    ∃ b b₁ b₂, Reachable (fun _ => True) b ∧ b.scrollDownOneLine 0 2 0 = .ok b₁ ∧
      b₁.getLineWrap 1 = .ok true ∧ b₁.scrollDownOneLine 0 2 0 = .ok b₂ ∧
      b₂.getSelectedText 0 0 1 1 true false = .ok [0x20, 0x20] := by
  have hrun : (do
      let b₀ ← TerminalBuffer.new 2 2 2
      let b ← b₀.setLineWrap 0
      let b₁ ← b.scrollDownOneLine 0 2 0
      let wrap ← b₁.getLineWrap 1
      let b₂ ← b₁.scrollDownOneLine 0 2 0
      let text ← b₂.getSelectedText 0 0 1 1 true false
      return (wrap, text)) = .ok (true, [0x20, 0x20]) := by decide +kernel
  obtain ⟨b₀, hb₀, hrun⟩ := bind_eq_ok.mp hrun
  obtain ⟨b, hb, hrun⟩ := bind_eq_ok.mp hrun
  obtain ⟨b₁, hb₁, hrun⟩ := bind_eq_ok.mp hrun
  obtain ⟨wrap, hwrap, hrun⟩ := bind_eq_ok.mp hrun
  obtain ⟨b₂, hb₂, hrun⟩ := bind_eq_ok.mp hrun
  obtain ⟨text, htext, hrun⟩ := bind_eq_ok.mp hrun
  injection hrun with hrun
  obtain ⟨rfl, rfl⟩ := Prod.mk.inj hrun
  have h₀ : Reachable (fun _ => True) b₀ := .new (show (2 : Int) ≤ 2 by decide) trivial hb₀
  have h : Reachable (fun _ => True) b :=
    .method h₀ (show (Call.method b₀ (.setLineWrap 0)).Legal from trivial) trivial hb
  exact ⟨b, b₁, b₂, h, hb₁, hwrap, hb₂, htext⟩

section

variable [ShortStore]

/-! ## The slow resize as a run -/

/-- A property that survives what the slow resize does to its new array of rows. -/
structure Survives (Q : TerminalBuffer → Prop) : Prop where
  setChar : ∀ b column row codePoint style, Q b → Ensures Q (b.setChar column row codePoint style)
  setLineWrap : ∀ b row, Q b → Ensures Q (b.setLineWrap row)
  scroll : ∀ b topMargin bottomMargin style, Q b →
    Ensures Q (b.scrollDownOneLine topMargin bottomMargin style)

namespace Survives

variable {Q : TerminalBuffer → Prop} {old : OldState} {row : Int} {line : TerminalRow}

theorem nextRow (hQ : Survives Q) {s : Reflow} {moveCursor : Bool} (h : Q s.buffer) :
    Ensures (fun s' => Q s'.buffer) (s.nextRow old moveCursor) := by
  unfold Reflow.nextRow
  refine .ite (fun _ => .bind (hQ.scroll _ _ _ _ h) fun buffer hb => .ok hb) fun _ => .ok h

theorem reflowChar (hQ : Survives Q) {justToCursor : Bool} {s : LineCopy} {codePoint : Nat}
    (h : Q s.out.buffer) :
    Ensures (fun p => Q p.1.out.buffer)
      (TerminalBuffer.reflowChar old row line justToCursor s codePoint) := by
  unfold TerminalBuffer.reflowChar
  refine .bind_any fun style => .bind (P := fun out => Q out.buffer) ?_ fun out hout => ?_
  · refine .ite (fun _ => ?_) fun _ => .ok h
    exact .bind (hQ.setLineWrap _ _ h) fun buffer hb => hQ.nextRow hb
  · refine .bind (hQ.setChar _ _ _ _ _ hout) fun buffer hb => ?_
    refine .ite (fun _ => .ok ?_) fun _ => .ok hb
    simp only
    split_ifs <;> exact hb

theorem reflowLoop (hQ : Survives Q) {justToCursor : Bool} {last : Int} (rest : List Nat) (i : Int)
    (s : LineCopy) (h : Q s.out.buffer) :
    Ensures (fun s' => Q s'.out.buffer)
      (TerminalBuffer.reflowLoop old row line justToCursor last rest i s) := by
  induction rest, i, s using reflowLoop.induct last with
  | case1 i s hi =>
    rw [TerminalBuffer.reflowLoop.eq_def]
    simp only [if_pos hi]
    exact .error _
  | case2 i s hi c hc =>
    rw [TerminalBuffer.reflowLoop.eq_def]
    simp only [if_pos hi, if_pos hc]
    exact .error _
  | case3 i s hi c hc low rest ih =>
    rw [TerminalBuffer.reflowLoop.eq_def]
    simp only [if_pos hi, if_pos hc]
    exact .bind (hQ.reflowChar h) fun p hp => .ite (fun _ => .ok hp) fun _ => ih p.1 hp
  | case4 i s hi c rest hc ih =>
    rw [TerminalBuffer.reflowLoop.eq_def]
    simp only [if_pos hi, if_neg hc]
    exact .bind (hQ.reflowChar h) fun p hp => .ite (fun _ => .ok hp) fun _ => ih p.1 hp
  | case5 rest i s hi =>
    rw [TerminalBuffer.reflowLoop.eq_def]
    simp only [if_neg hi]
    exact .ok h

theorem reflowLine (hQ : Survives Q) {s : Reflow} (h : Q s.buffer) :
    Ensures (fun s' => Q s'.buffer) (TerminalBuffer.reflowLine old row line s) := by
  unfold TerminalBuffer.reflowLine
  refine .bind (P := fun s' => Q s'.buffer) (.forUp (fun _ s _ _ hs => hQ.nextRow hs) h)
    fun s₁ h₁ => .bind_any fun p => ?_
  refine .bind (hQ.reflowLoop _ _ _ h₁) fun copied hcopied => ?_
  exact .ite (fun _ => hQ.nextRow hcopied) fun _ => .ok hcopied

theorem reflowRow (hQ : Survives Q) {s : Reflow} (h : Q s.buffer) :
    Ensures (fun s' => Q s'.buffer) (TerminalBuffer.reflowRow old row s) := by
  unfold TerminalBuffer.reflowRow
  refine .bind_any fun internalRow => .bind_any fun line => ?_
  cases line with
  | none => exact .ok h
  | some line =>
    refine .bind_any fun r => .bind_any fun blank => ?_
    exact .ite (fun _ => .ok h) fun _ => hQ.reflowLine h

/-- The slow resize starts with a new array of rows. -/
theorem resizeReflow (hQ : Survives Q) {newColumns newRows newTotalRows : Int} {cursor : Int × Int}
    {style : Style}
    (h : ∀ b, b.mScreenRows = newRows → b.mTotalRows = newTotalRows → b.mActiveTranscriptRows = 0 →
      (∀ line, b.flag line = false) → Q b) :
    Ensures (fun p => Q p.1) (b.resizeReflow newColumns newRows newTotalRows cursor style) := by
  unfold TerminalBuffer.resizeReflow
  refine .bind_any fun lines => .bind (P := fun rows => ∀ r ∈ rows, r.mLineWrap = false) ?_ ?_
  · exact .mapM _ fun _ _ => TerminalRow.new_unwrapped
  intro rows hrows
  refine .bind (P := fun s => Q s.buffer) (.forUp (fun _ _ _ _ hs => hQ.reflowRow hs) ?_)
    fun s hs => .ok hs
  refine h _ rfl rfl rfl fun line => ?_
  simp only [flag]
  cases hline : rows[line]? with
  | none => rfl
  | some r => exact hrows r (List.mem_of_getElem? hline)

end Survives

theorem traced_survives : Survives fun b => ∃ wrapped, Traced (fun _ _ => True) b wrapped where
  setChar := by
    rintro b column row codePoint style ⟨wrapped, h⟩ b' hb'
    exact ⟨_, .step (.setChar column row codePoint style) h trivial trivial trivial hb'⟩
  setLineWrap := by
    rintro b row ⟨wrapped, h⟩ b' hb'
    exact ⟨_, .step (.setLineWrap row) h trivial trivial trivial hb'⟩
  scroll := by
    rintro b topMargin bottomMargin style ⟨wrapped, h⟩ b' hb'
    exact ⟨_, .step (.scrollDownOneLine topMargin bottomMargin style) h trivial trivial trivial hb'⟩

end

/-- Every buffer is reached in this way. -/
theorem Reachable.traced (h : Reachable (fun _ => True) b) :
    ∃ wrapped, Traced (fun _ _ => True) b wrapped := by
  induction h with
  | @new columns totalRows screenRows b hlegal _ hrun =>
    exact Traced.new hlegal (fun _ => trivial) hrun
  | @method b b' operation _ hlegal _ hrun ih =>
    obtain ⟨wrapped, hb⟩ := ih
    by_cases hsingle : operation.Single b
    · exact ⟨_, .step operation hb hlegal hsingle trivial hrun⟩
    · cases operation with
      | resize newColumns newRows newTotalRows cursor currentStyle altScreen =>
        obtain ⟨p, hp, he⟩ := bind_eq_ok.mp hrun
        obtain ⟨q, hq, he'⟩ := bind_eq_ok.mp hp
        rw [if_neg (show ¬ (newColumns = b.mColumns ∧ newRows ≤ b.mTotalRows) from hsingle)] at hq
        cases he'
        cases he
        refine traced_survives.resizeReflow (fun b₁ hs ht _ hflags => ?_) q hq
        refine ⟨_, .blank ?_ hflags⟩
        rw [hs, ht]
        exact hlegal
      | setChar column row codePoint style => exact (hsingle trivial).elim
      | blockSet sx sy w h' val style => exact (hsingle trivial).elim
      | blockCopy sx sy w h' dx dy => exact (hsingle trivial).elim
      | scrollDownOneLine topMargin bottomMargin style => exact (hsingle trivial).elim
      | setLineWrap row => exact (hsingle trivial).elim
      | clearLineWrap row => exact (hsingle trivial).elim
      | getStyleAt externalRow column => exact (hsingle trivial).elim
      | setOrClearEffect bits setOrClear reverse rectangular leftMargin rightMargin top left bottom
          right => exact (hsingle trivial).elim
      | clearTranscript => exact (hsingle trivial).elim

end TerminalBuffer

end XoDos
