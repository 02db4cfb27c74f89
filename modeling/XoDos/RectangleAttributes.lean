import XoDos.BufferRows
import XoDos.Geometry
import XoDos.StyleBits
import XoDos.TerminalEmulator

/-!
# Attributes of rectangles

DECCARA and DECRARA are given a rectangle by its first and last rows and columns.
The last ones are taken one too far, and then kept off the last row and the last
column of the screen, so that another rectangle is changed than the one that was
addressed.
-/

namespace XoDos

namespace TextStyle

/-- What one attribute asks of the effect bits of a cell. -/
def requested (reverse : Bool) (code : Int) (effect : BitVec 32) : BitVec 32 :=
  let (bits, setOrClear) := Display.attributeBits code reverse
  if reverse then if setOrClear then effect ^^^ bits else effect
  else if setOrClear then effect ||| bits
  else effect &&& ~~~bits

/-- One attribute after the other. -/
def requestedAll (reverse : Bool) (codes : List Int) (effect : BitVec 32) : BitVec 32 :=
  codes.foldl (fun effect code => requested reverse code effect) effect

/-- The colours of `s` with the effect bits `effect`. -/
structure Looks (s : Style) (effect : BitVec 32) (s' : Style) : Prop where
  foreColor : decodeForeColor s' = decodeForeColor s
  backColor : decodeBackColor s' = decodeBackColor s
  effect : decodeEffect s' = effect

theorem Looks.refl (s : Style) : Looks s (decodeEffect s) s := ⟨rfl, rfl, rfl⟩

/-- The style that one attribute makes of a style. -/
def attributeStyle (reverse : Bool) (code : Int) (s : Style) : Style :=
  let (bits, setOrClear) := Display.attributeBits code reverse
  if reverse ∧ setOrClear = false then s
  else TerminalBuffer.changeEffect bits setOrClear reverse s

def attributeStyles (reverse : Bool) (codes : List Int) (s : Style) : Style :=
  codes.foldl (fun s code => attributeStyle reverse code s) s

/-- All attributes are among the effect bits. -/
theorem attributeBits_low (code : Int) (reverse : Bool) {i : Nat} (hi : 9 ≤ i) :
    (Display.attributeBits code reverse).1.getLsbD i = false := by
  have hlt : (Display.attributeBits code reverse).1.toNat < 2 ^ 9 := by
    unfold Display.attributeBits
    repeat' split
    all_goals decide +revert
  exact Nat.testBit_lt_two_pow (hlt.trans_le (Nat.pow_le_pow_right (by decide) hi))

theorem attributeStyle_looks (reverse : Bool) (code : Int) (s : Style) :
    Looks s (requested reverse code (decodeEffect s)) (attributeStyle reverse code s) := by
  have hlow := fun i => @attributeBits_low code reverse i
  unfold requested attributeStyle
  generalize Display.attributeBits code reverse = p at hlow
  obtain ⟨bits, setOrClear⟩ := p
  simp only at hlow ⊢
  by_cases hskip : reverse ∧ setOrClear = false
  · rw [if_pos hskip, if_pos hskip.1, if_neg (by simp [hskip.2])]
    exact .refl s
  rw [if_neg hskip]
  unfold TerminalBuffer.changeEffect
  have hfore := (@isColor_decodeColor s attributeTruecolorForeground 9 40 (by decide)
    (fun j hj => getLsbD_truecolorForeground hj)).1
  have hback := (@isColor_decodeColor s attributeTruecolorBackground 10 16 (by decide)
    (fun j hj => getLsbD_truecolorBackground hj)).1
  refine ⟨decodeForeColor_encode _ hfore, decodeBackColor_encode _ hback, ?_⟩
  simp only
  rw [decodeEffect_encode_decoded]
  · cases reverse with
    | true =>
      have hset : setOrClear = true := by simpa using hskip
      rw [hset, if_pos rfl, if_pos rfl, if_pos rfl]
      -- Both ways to reverse bits.
      apply BitVec.eq_of_getLsbD_eq
      intro i hi
      simp only [BitVec.getLsbD_or, BitVec.getLsbD_and, BitVec.getLsbD_not, BitVec.getLsbD_xor,
        decide_eq_true hi, Bool.true_and]
      cases (decodeEffect s).getLsbD i <;> cases bits.getLsbD i <;> rfl
    | false => rfl
  · intro i hi
    split_ifs
    · simp only [BitVec.getLsbD_or, BitVec.getLsbD_and, BitVec.getLsbD_not, hlow i hi, Bool.false_and,
        Bool.or_false, Bool.not_false, Bool.and_true]
      by_cases h32 : i < 32
      · rw [decide_eq_true h32, Bool.and_true]
      · rw [BitVec.getLsbD_of_ge _ _ (by omega), Bool.false_and]
    · rw [BitVec.getLsbD_or, hlow i hi, Bool.or_false]
    · simp only [BitVec.getLsbD_and, BitVec.getLsbD_not, hlow i hi, Bool.not_false, Bool.and_true]
      by_cases h32 : i < 32
      · rw [decide_eq_true h32, Bool.and_true]
      · rw [BitVec.getLsbD_of_ge _ _ (by omega), Bool.false_and]

theorem attributeStyles_looks (reverse : Bool) (codes : List Int) (s : Style) :
    Looks s (requestedAll reverse codes (decodeEffect s)) (attributeStyles reverse codes s) := by
  induction codes generalizing s with
  | nil => exact .refl s
  | cons code codes ih =>
    have hone := attributeStyle_looks reverse code s
    have hrest := ih (attributeStyle reverse code s)
    refine ⟨hrest.foreColor.trans hone.foreColor, hrest.backColor.trans hone.backColor, ?_⟩
    rw [requestedAll, List.foldl_cons, ← hone.effect]
    exact hrest.effect

end TextStyle

/-! ## Rows and screens -/

/-- The row with the styles from `left` up to `right` changed by `f`. -/
def TerminalRow.restyle (r : TerminalRow) (left right : Int) (f : Style → Style) : TerminalRow :=
  { r with mStyle := r.mStyle.mapIdx fun x s => if left ≤ x ∧ x < right then f s else s }

namespace TerminalRow

variable {r : TerminalRow} {left right columns : Int} {f g : Style → Style}

theorem restyle_empty (h : right ≤ left) : r.restyle left right f = r := by
  have hsame : r.mStyle.mapIdx (fun x s => if left ≤ x ∧ x < right then f s else s) = r.mStyle := by
    apply List.ext_getElem?
    intro i
    rw [List.getElem?_mapIdx]
    cases r.mStyle[i]? with
    | none => rfl
    | some s => rw [Option.map_some, if_neg (by omega)]
  rw [restyle, hsame]

theorem restyle_id : r.restyle left right (fun s => s) = r := by
  have hsame : r.mStyle.mapIdx (fun _ s => s) = r.mStyle := by
    apply List.ext_getElem?
    intro i
    rw [List.getElem?_mapIdx, Option.map_id']
  simp only [restyle, ite_self, hsame]

theorem restyle_congr {left' right' : Int}
    (h : ∀ x : Nat, left ≤ x ∧ x < right ↔ left' ≤ x ∧ x < right') :
    r.restyle left right f = r.restyle left' right' f := by
  simp only [restyle, h]

theorem restyle_restyle :
    (r.restyle left right f).restyle left right g = r.restyle left right (g ∘ f) := by
  simp only [restyle, List.mapIdx_mapIdx, TerminalRow.mk.injEq, true_and, and_true]
  congr 1
  funext x s
  simp only [Function.comp_apply]
  split_ifs <;> rfl

theorem getElem?_restyle (x : Nat) : (r.restyle left right f).mStyle[x]? =
    r.mStyle[x]?.map fun s => if left ≤ x ∧ x < right then f s else s := by
  rw [restyle, List.getElem?_mapIdx]

/-- One more column. -/
theorem restyle_succ {x : Int} (hx : left ≤ x) (h₀ : 0 ≤ left) {s : Style}
    (hs : r.mStyle[x.toNat]? = some s) :
    { r.restyle left x f with mStyle := (r.restyle left x f).mStyle.set x.toNat (f s) } =
      r.restyle left (x + 1) f := by
  simp only [restyle, TerminalRow.mk.injEq, true_and, and_true]
  apply List.ext_getElem?
  intro i
  by_cases hi : x.toNat = i
  · have hlt := (List.getElem?_eq_some_iff.mp hs).1
    rw [← hi, List.getElem?_set_self (by rw [List.length_mapIdx]; exact hlt), List.getElem?_mapIdx, hs,
      Option.map_some, if_pos (by omega)]
  · rw [List.getElem?_set_ne hi, List.getElem?_mapIdx, List.getElem?_mapIdx]
    congr 1
    funext s'
    split_ifs <;> first | rfl | omega

end TerminalRow

namespace TerminalBuffer

variable {b : TerminalBuffer}

/-- Changing the style of one cell. -/
theorem putStyle_redrawn (hb : Valid b) {y : Int} (h₁ : -b.mActiveTranscriptRows ≤ y)
    (h₂ : y < b.mScreenRows) {line : Nat} {r : TerminalRow}
    (hline : b.mLines[b.slot y]? = some (some line)) (hr : b.rowAt y = .ok r) {x : Int} (h₀ : 0 ≤ x)
    (hx : x < b.mColumns) (f : Style → Style) :
    ∃ s, r.mStyle[x.toNat]? = some s ∧
      (do
        let r ← b.deref (some line)
        let currentStyle ← r.getStyle x
        let styles ← arraySet r.mStyle x (f currentStyle)
        return b.update line { r with mStyle := styles } : Java TerminalBuffer) =
        .ok (b.update line { r with mStyle := r.mStyle.set x.toNat (f s) }) ∧
      Redrawn (At y fun t t' => t = r ∧ t' = { r with mStyle := r.mStyle.set x.toNat (f s) }) b
        (b.update line { r with mStyle := r.mStyle.set x.toNat (f s) }) := by
  obtain ⟨line', -, hline', hobj, ⟨hc, cells, hcells⟩, hroom⟩ := hb.line_of_rowAt h₁ h₂ hr
  rw [hline] at hline'
  cases hline'
  have hlen := hcells.styles
  obtain ⟨s, hs⟩ : ∃ s, r.mStyle[x.toNat]? = some s :=
    ⟨_, List.getElem?_eq_getElem (by omega)⟩
  refine ⟨s, hs, ?_, hb.update_redrawn h₁ h₂ hline hobj ⟨⟨hc, cells, hcells.text, hcells.space,
    hcells.columns, by simpa using hlen, hcells.simple⟩, hroom⟩⟩
  rw [deref_eq hobj, ok_bind, TerminalRow.getStyle, arrayGet_ok h₀ hs, ok_bind,
    arraySet_ok _ h₀ (by omega), ok_bind]
  rfl

/-- With a rectangular extent, the margins do not matter. -/
theorem setOrClearEffect_redrawn (hb : Valid b) (bits : BitVec 32) (setOrClear reverse : Bool)
    (leftMargin rightMargin : Int) {top left bottom right : Int} (h₀ : 0 ≤ top)
    (h₁ : bottom ≤ b.mScreenRows) (h₂ : 0 ≤ left) (h₃ : right ≤ b.mColumns) :
    ∃ b', b.setOrClearEffect bits setOrClear reverse true leftMargin rightMargin top left bottom
        right = .ok b' ∧
      Redrawn (Within top bottom fun _ r r' =>
        r' = r.restyle left right (changeEffect bits setOrClear reverse)) b b' := by
  have hhistory := hb.history
  refine forUp_rows hb (by omega) h₁ fun y r b₁ hy hy' hb₁ hg hr hr₁ => ?_
  have hrows := hg.screen
  have hcols := hg.columns
  have hhist := hg.history
  obtain ⟨line, hat, hline, -, -⟩ := hb₁.line_of_rowAt (by omega) (by omega) hr₁
  simp only [hat, ok_bind, true_or, if_true]
  -- A left edge beyond the right one leaves the loop over the columns nothing to do.
  by_cases hlr : left ≤ right
  swap
  · refine ⟨b₁, forUp_of_le (by omega), Redrawn.refl hb₁ fun x s hs => ?_⟩
    rw [At, TerminalRow.restyle_empty (by omega)]
    split_ifs <;> rfl
  obtain ⟨b₂, hb₂, hred⟩ := forUp_row (y := y) (r := r)
    (f := fun x b => do
      let r ← b.deref (some line)
      let currentStyle ← r.getStyle x
      let styles ← arraySet r.mStyle x (changeEffect bits setOrClear reverse currentStyle)
      return b.update line { r with mStyle := styles })
    (J := fun x s => s = r.restyle left x (changeEffect bits setOrClear reverse)) hlr hb₁ (by omega)
    (by omega) hr₁ (TerminalRow.restyle_empty le_rfl).symm fun x s b₂ hx hx' hb₂ hg₂ hs hJ => by
      have hline₂ := hg₂.stay _ _ hline
      have hcols₂ := hg₂.columns
      rw [← hg₂.slot] at hline₂
      obtain ⟨style, hget, hrun, hred⟩ := putStyle_redrawn hb₂ (by rw [hg₂.history]; omega)
        (by rw [hg₂.screen]; omega) hline₂ hs (show 0 ≤ x by omega) (by omega)
        (changeEffect bits setOrClear reverse)
      refine ⟨_, _, hrun, hred, ?_⟩
      rw [hJ, TerminalRow.getElem?_restyle] at hget
      cases horig : r.mStyle[x.toNat]? with
      | none =>
        rw [horig] at hget
        cases hget
      | some style' =>
        rw [horig, Option.map_some, if_neg (by omega), Option.some_inj] at hget
        rw [hJ, ← hget, TerminalRow.restyle_succ hx h₂ horig]
  refine ⟨b₂, hb₂, hred.mono fun z s s' _ hz => ?_⟩
  rw [At] at hz ⊢
  split_ifs at hz ⊢ with hzy
  · rw [hz.2, hz.1]
  · exact hz

end TerminalBuffer

/-- Rows and columns from the first up to, and not including, the last. -/
structure Rectangle where
  top : Int
  left : Int
  bottom : Int
  right : Int

def Rectangle.Mem (a : Rectangle) (row col : Int) : Prop :=
  a.top ≤ row ∧ row < a.bottom ∧ a.left ≤ col ∧ col < a.right

instance (a : Rectangle) (row col : Int) : Decidable (a.Mem row col) :=
  inferInstanceAs (Decidable (_ ∧ _ ∧ _ ∧ _))

/-- The parameters of DECCARA, or of DECRARA if `reverse`. -/
structure AttributeRequest where
  reverse : Bool
  top : Nat
  left : Nat
  bottom : Nat
  right : Nat
  codes : List Int

namespace AttributeRequest

/-- The rectangle that the parameters stand for, on a screen of the given size. -/
def addressed (q : AttributeRequest) (rows columns : Int) : Rectangle :=
  ⟨q.top - 1, q.left - 1, min q.bottom rows, min q.right columns⟩

/-- The rectangle that is changed. -/
def changed (q : AttributeRequest) (rows columns : Int) : Rectangle :=
  ⟨q.top - 1, q.left - 1, min (q.bottom + 1) (rows - 1), min (q.right + 1) (columns - 1)⟩

def requested (q : AttributeRequest) (effect : BitVec 32) : BitVec 32 :=
  TextStyle.requestedAll q.reverse q.codes effect

/-- `p` is about to be given `b`, the last character of the control sequence of `q`. -/
structure Final (q : AttributeRequest) (p : Parser) (rows columns : Int) (b : Nat) : Prop where
  state : p.mEscapeState = .csiDollar
  final : b = if q.reverse then 't'.toNat else 'r'.toNat
  top : p.getArg 0 1 true = .ok q.top
  left : p.getArg 1 1 true = .ok q.left
  bottom : p.getArg 2 rows.toNat true = .ok q.bottom
  right : p.getArg 3 columns.toNat true = .ok q.right
  given : 4 ≤ p.mArgIndex
  codes : p.clampArgIndex.attributeCodes = .ok q.codes

end AttributeRequest

/-- The whole screen has rows to draw on, origin mode is off, and DECSACE has selected rectangles. -/
structure Display.Addressable (d : Display) : Prop where
  valid : TerminalBuffer.Valid d.mScreen
  rows : d.mScreen.mScreenRows = d.mRows
  columns : d.mScreen.mColumns = d.mColumns
  origin : d.isDecsetInternalBitSet Decset.originMode = false
  extent : d.isDecsetInternalBitSet Decset.rectangularChangeattribute = true

/-- The cells of `a` have got the effect bits that `q` requests.  Text, colours and the
looks of all other cells are as they were. -/
def Display.AppliedTo (a : Rectangle) (q : AttributeRequest) (d d' : Display) : Prop :=
  ∀ row, -d.mScreen.mActiveTranscriptRows ≤ row → row < d.mRows → ∃ r r', d.mScreen.rowAt row = .ok r ∧
    d'.mScreen.rowAt row = .ok r' ∧ r' = { r with mStyle := r'.mStyle } ∧
    ∀ col, 0 ≤ col → col < d.mColumns → ∃ s s', r.getStyle col = .ok s ∧ r'.getStyle col = .ok s' ∧
      (a.Mem row col → TextStyle.Looks s (q.requested (TextStyle.decodeEffect s)) s') ∧
      (¬a.Mem row col → TextStyle.Looks s (TextStyle.decodeEffect s) s')

namespace Display

open TerminalBuffer (Redrawn Within Valid)

variable {d d' : Display} {b b' : TerminalBuffer} {q : AttributeRequest}

theorem setScreen_setScreen (d : Display) (b b' : TerminalBuffer) :
    (d.setScreen b).setScreen b' = d.setScreen b' := by
  unfold setScreen
  cases d.altActive <;> rfl

theorem setScreen_self (d : Display) : d.setScreen d.mScreen = d := by
  unfold Geometry.mScreen setScreen
  split_ifs <;> rfl

theorem Addressable.redrawn (h : d.Addressable) {P : Int → TerminalRow → TerminalRow → Prop}
    (hred : Redrawn P d.mScreen b) : (d.setScreen b).Addressable := by
  constructor
  · rw [setScreen_mScreen]
    exact hred.valid
  · rw [setScreen_mScreen, hred.grown.screen, h.rows]
    rfl
  · rw [setScreen_mScreen, hred.grown.columns, h.columns]
    rfl
  · exact h.origin
  · exact h.extent

theorem changeAttribute_redrawn (h : d.Addressable) (reverse : Bool) (code : Int)
    {top left bottom right : Int} (h₀ : 0 ≤ top) (h₁ : bottom ≤ d.mRows) (h₂ : 0 ≤ left)
    (h₃ : right ≤ d.mColumns) :
    ∃ b, d.changeAttribute reverse (top, left, bottom, right) code = .ok (d.setScreen b) ∧
      Redrawn (Within top bottom fun _ r r' =>
        r' = r.restyle left right (TextStyle.attributeStyle reverse code)) d.mScreen b := by
  unfold changeAttribute TextStyle.attributeStyle
  generalize attributeBits code reverse = p
  obtain ⟨bits, setOrClear⟩ := p
  simp only
  by_cases hskip : reverse = true ∧ setOrClear = false
  · simp only [if_pos hskip]
    refine ⟨d.mScreen, by rw [setScreen_self], Redrawn.refl h.valid fun y r _ => ?_⟩
    rw [Within]
    split_ifs
    · exact TerminalRow.restyle_id.symm
    · rfl
  · simp only [if_neg hskip]
    obtain ⟨b, hb, hred⟩ := TerminalBuffer.setOrClearEffect_redrawn h.valid bits setOrClear reverse
      d.effectiveLeftMargin d.effectiveRightMargin h₀ (h₁.trans_eq h.rows.symm) h₂
      (h₃.trans_eq h.columns.symm)
    refine ⟨b, ?_, hred⟩
    rw [onScreen, h.extent, hb, ok_bind]
    rfl

theorem changeAttributes_redrawn (h : d.Addressable) (reverse : Bool) (codes : List Int)
    {top left bottom right : Int} (h₀ : 0 ≤ top) (h₁ : bottom ≤ d.mRows) (h₂ : 0 ≤ left)
    (h₃ : right ≤ d.mColumns) :
    ∃ b, codes.foldlM (fun d code => d.changeAttribute reverse (top, left, bottom, right) code) d =
        .ok (d.setScreen b) ∧
      Redrawn (Within top bottom fun _ r r' =>
        r' = r.restyle left right (TextStyle.attributeStyles reverse codes)) d.mScreen b := by
  induction codes generalizing d with
  | nil =>
    refine ⟨d.mScreen, by rw [setScreen_self]; rfl, Redrawn.refl h.valid fun y r _ => ?_⟩
    rw [Within]
    split_ifs
    · exact TerminalRow.restyle_id.symm
    · rfl
  | cons code codes ih =>
    obtain ⟨b₁, hb₁, hred₁⟩ := changeAttribute_redrawn h reverse code h₀ h₁ h₂ h₃
    obtain ⟨b₂, hb₂, hred₂⟩ := @ih (d.setScreen b₁) (h.redrawn hred₁) h₁ h₃
    rw [setScreen_mScreen] at hred₂
    refine ⟨b₂, ?_, (hred₁.trans hred₂).mono fun y r r'' _ hy => ?_⟩
    · rw [List.foldlM_cons, hb₁, ok_bind, hb₂, setScreen_setScreen]
    · obtain ⟨r', h', h''⟩ := hy
      rw [Within] at h' h'' ⊢
      split_ifs at h' h'' ⊢
      · rw [h'', h', TerminalRow.restyle_restyle]
        rfl
      · rw [h'', h']

end Display

namespace Terminal

open TerminalBuffer (Redrawn Within)

variable {q : AttributeRequest} {b : Nat}

theorem getArg_pos {p : Parser} {index : Int} {defaultValue n : Nat} (hd : 1 ≤ defaultValue)
    (h : p.getArg index defaultValue true = .ok n) : 1 ≤ n := by
  unfold Parser.getArg Parser.findArg at h
  cases hget : arrayGet p.mArgs index with
  | error e =>
    rw [hget] at h
    cases h
  | ok result =>
    rw [hget] at h
    simp only [ok_bind] at h
    change Except.ok _ = _ at h
    simp only [Except.ok.injEq] at h
    rw [← h]
    split_ifs with hr
    · exact hd
    · rw [not_or] at hr
      have hne : result ≠ 0 := fun h₀ => hr.2 ⟨h₀, trivial⟩
      rw [Option.getD_some]
      omega

theorem getArg_eq {p : Parser} {index : Int} {defaultValue n : Nat}
    (h : p.getArg index defaultValue true = .ok n) :
    ∃ arg, p.findArg index true = .ok arg ∧ arg.getD defaultValue = n := by
  unfold Parser.getArg at h
  cases harg : p.findArg index true with
  | error e =>
    rw [harg] at h
    cases h
  | ok arg =>
    rw [harg] at h
    exact ⟨arg, rfl, by simpa using h⟩

theorem orRows_eq {d : Display} {arg : Option Nat} {n : Nat} (h₀ : 0 ≤ d.mRows)
    (h : arg.getD d.mRows.toNat = n) : d.orRows arg = n := by
  rw [← h]
  cases arg with
  | none => exact (Int.toNat_of_nonneg h₀).symm
  | some n => rfl

theorem orColumns_eq {d : Display} {arg : Option Nat} {n : Nat} (h₀ : 0 ≤ d.mColumns)
    (h : arg.getD d.mColumns.toNat = n) : d.orColumns arg = n := by
  rw [← h]
  cases arg with
  | none => exact (Int.toNat_of_nonneg h₀).symm
  | some n => rfl

theorem parser_issues {p : Parser} {rows columns : Int} (hq : q.Final p rows columns b) :
    ∃ p' bottom right, p.processCodePoint b = .ok (p', [.edit (.changeAttributes q.reverse (q.top - 1)
      (q.left - 1) bottom right q.codes)]) ∧ bottom.getD rows.toNat = q.bottom ∧
      right.getD columns.toNat = q.right := by
  obtain ⟨bottom, hbottom, hb⟩ := getArg_eq hq.bottom
  obtain ⟨right, hright, hr⟩ := getArg_eq hq.right
  let p₀ : Parser := { p with mContinueSequence := false }
  have htop : p₀.getArg 0 1 true = .ok q.top := hq.top
  have hleft : p₀.getArg 1 1 true = .ok q.left := hq.left
  have hbottom₀ : p₀.findArg 2 true = .ok bottom := hbottom
  have hright₀ : p₀.findArg 3 true = .ok right := hright
  have hcodes : p₀.clampArgIndex.attributeCodes = .ok q.codes := hq.codes
  have hgiven : 4 ≤ p₀.mArgIndex := hq.given
  have hstate : p₀.mEscapeState = .csiDollar := hq.state
  have hfinal := hq.final
  refine ⟨p₀.clampArgIndex.finishSequence, bottom, right, ?_, hb, hr⟩
  have hdispatch : p₀.dispatch b = .ok (p₀.clampArgIndex,
      [.edit (.changeAttributes q.reverse (q.top - 1) (q.left - 1) bottom right q.codes)]) := by
    unfold Parser.dispatch
    rw [hstate]
    simp only [Parser.doCsiDollar, htop, hleft, hbottom₀, hright₀, ok_bind, if_pos hgiven, hcodes]
    cases hrev : q.reverse <;> rw [hrev] at hfinal <;> subst hfinal <;> rfl
  have hcontrol : p.processCodePoint b = (p₀.dispatch b >>= fun r =>
      .ok (if r.1.mContinueSequence then r.1 else r.1.finishSequence, r.2)) := by
    cases hrev : q.reverse <;> rw [hrev] at hfinal <;> subst hfinal <;> rfl
  rw [hcontrol, hdispatch]
  rfl

section

variable [ShortStore] [Platform] {t : Terminal}

/-- The last character of the sequence changes one rectangle of the screen. -/
theorem processCodePoint_attributes (hq : q.Final t.toParser t.mRows t.mColumns b)
    (h : t.toDisplay.Addressable) :
    ∃ t' b', t.processCodePoint b = .ok t' ∧ t'.toDisplay = t.toDisplay.setScreen b' ∧
      Redrawn (Within (q.changed t.mRows t.mColumns).top (q.changed t.mRows t.mColumns).bottom
        fun _ r r' => r' = r.restyle (q.changed t.mRows t.mColumns).left
          (q.changed t.mRows t.mColumns).right (TextStyle.attributeStyles q.reverse q.codes))
        t.mScreen b' := by
  obtain ⟨p', bottom, right, hparse, hb, hr⟩ := parser_issues hq
  have htop := getArg_pos le_rfl hq.top
  have hleft := getArg_pos le_rfl hq.left
  have hrows := h.valid.screen
  have hcols := h.valid.columns
  rw [h.rows] at hrows
  rw [h.columns] at hcols
  have hbottom : t.toDisplay.orRows bottom = q.bottom := orRows_eq (by omega) hb
  have hright : t.toDisplay.orColumns right = q.right := orColumns_eq (by omega) hr
  -- Outside origin mode the margins are those of the screen; the bottom and right edges get one added.
  have hrectangle : t.toDisplay.attributeRectangle (((q.top - 1 : Nat) : Int) + 1)
      (((q.left - 1 : Nat) : Int) + 1) (t.toDisplay.orRows bottom) (t.toDisplay.orColumns right) =
      (min ((q.top : Int) - 1) t.mRows, min ((q.left : Int) - 1) t.mColumns,
        min ((q.bottom : Int) + 1) (t.mRows - 1), min ((q.right : Int) + 1) (t.mColumns - 1)) := by
    unfold Display.attributeRectangle Display.effectiveBottomMargin Display.effectiveTopMargin
      Display.effectiveRightMargin Display.effectiveLeftMargin
    rw [h.origin, hbottom, hright]
    simp only [Bool.false_eq_true, if_false, add_zero]
    congr 2 <;> omega
  obtain ⟨b', hb', hred⟩ := Display.changeAttributes_redrawn h q.reverse q.codes
    (show 0 ≤ min ((q.top : Int) - 1) t.mRows by omega)
    (show min ((q.bottom : Int) + 1) (t.mRows - 1) ≤ t.mRows by omega)
    (show 0 ≤ min ((q.left : Int) - 1) t.mColumns by omega)
    (show min ((q.right : Int) + 1) (t.mColumns - 1) ≤ t.mColumns by omega)
  refine ⟨{ toDisplay := t.toDisplay.setScreen b', toParser := p' }, b', ?_, rfl, ?_⟩
  · unfold Terminal.processCodePoint
    rw [hparse, ok_bind]
    simp only [Display.perform, List.foldlM_cons, List.foldlM_nil, Control.run, Edit.run, hrectangle,
      hb', bind_pure]
    rfl
  · refine hred.mono fun y r r' _ hy => ?_
    change Within ((q.top : Int) - 1) (min ((q.bottom : Int) + 1) (t.mRows - 1))
      (fun _ r r' => r' = r.restyle ((q.left : Int) - 1) (min ((q.right : Int) + 1) (t.mColumns - 1))
        (TextStyle.attributeStyles q.reverse q.codes)) y r r'
    rw [Within] at hy ⊢
    split_ifs at hy ⊢
    · rw [hy]
      exact TerminalRow.restyle_congr fun x => by omega
    · omega
    · omega
    · exact hy

omit [ShortStore] [Platform] in
/-- Cell by cell: the rectangle that is changed gets the styles of the request. -/
theorem attributes_cells {b' : TerminalBuffer} (h : t.toDisplay.Addressable) {a : Rectangle}
    {f : Style → Style}
    (hred : Redrawn (Within a.top a.bottom fun _ r r' => r' = r.restyle a.left a.right f) t.mScreen b')
    {row : Int} (h₁ : -t.mScreen.mActiveTranscriptRows ≤ row) (h₂ : row < t.mRows) :
    ∃ r r', t.mScreen.rowAt row = .ok r ∧ b'.rowAt row = .ok r' ∧
      r' = { r with mStyle := r'.mStyle } ∧
      ∀ col, 0 ≤ col → col < t.mColumns → ∃ s s', r.getStyle col = .ok s ∧ r'.getStyle col = .ok s' ∧
        (a.Mem row col → s' = f s) ∧ (¬a.Mem row col → s' = s) := by
  have hhistory := h.valid.history
  rw [← h.rows] at h₂
  obtain ⟨r, hr, ⟨hc, cells, hcells⟩, -⟩ := h.valid.rowAt h₁ h₂
  obtain ⟨r', hr', hrow⟩ := hred.row h₁ h₂ hr
  have hlen := hcells.styles
  refine ⟨r, r', hr, hr', ?_, fun col hcol hcol' => ?_⟩
  · rw [Within] at hrow
    split_ifs at hrow
    · rw [hrow]
      rfl
    · rw [hrow]
  · rw [← h.columns] at hcol'
    obtain ⟨s, hs⟩ : ∃ s, r.mStyle[col.toNat]? = some s :=
      ⟨_, List.getElem?_eq_getElem (by omega)⟩
    have hs' : r'.mStyle[col.toNat]? = some (if a.Mem row col then f s else s) := by
      rw [Within] at hrow
      by_cases hin : a.top ≤ row ∧ row < a.bottom
      · rw [if_pos hin] at hrow
        rw [hrow, TerminalRow.getElem?_restyle, hs, Option.map_some]
        by_cases hmem : a.Mem row col
        · rw [if_pos hmem, if_pos (by have := hmem.2.2; omega)]
        · rw [if_neg hmem, if_neg fun hlr => hmem ⟨hin.1, hin.2, by omega, by omega⟩]
      · rw [if_neg hin] at hrow
        rw [hrow, hs, if_neg fun hmem => hin ⟨hmem.1, hmem.2.1⟩]
    refine ⟨s, _, arrayGet_ok hcol hs, arrayGet_ok hcol hs', fun hmem => ?_, fun hmem => ?_⟩
    · rw [if_pos hmem]
    · rw [if_neg hmem]

/-- With rectangular extent and without origin mode, DECCARA and DECRARA act on exactly the addressed
rectangle if and only if they ask for nothing new in the cells that are in this or in the changed
rectangle, but not in both. -/
theorem attributes_exact_iff (hq : q.Final t.toParser t.mRows t.mColumns b)
    (h : t.toDisplay.Addressable) :
    ∃ t', t.processCodePoint b = .ok t' ∧
      (t.toDisplay.AppliedTo (q.addressed t.mRows t.mColumns) q t'.toDisplay ↔
        ∀ row col, 0 ≤ row → row < t.mRows → 0 ≤ col → col < t.mColumns →
          ¬((q.addressed t.mRows t.mColumns).Mem row col ↔
            (q.changed t.mRows t.mColumns).Mem row col) →
          ∀ r s, t.mScreen.rowAt row = .ok r → r.getStyle col = .ok s →
            q.requested (TextStyle.decodeEffect s) = TextStyle.decodeEffect s) := by
  obtain ⟨t', b', ht', hscreen, hred⟩ := processCodePoint_attributes hq h
  have htop := getArg_pos le_rfl hq.top
  have hhistory := h.valid.history
  have hcells (row : Int) (h₁ : -t.mScreen.mActiveTranscriptRows ≤ row) (h₂ : row < t.mRows) :=
    attributes_cells h hred h₁ h₂
  have hlooks (s : Style) : TextStyle.Looks s (q.requested (TextStyle.decodeEffect s))
      (TextStyle.attributeStyles q.reverse q.codes s) :=
    TextStyle.attributeStyles_looks q.reverse q.codes s
  have hnew : t'.mScreen = b' := by
    rw [hscreen, Display.setScreen_mScreen]
  -- The addressed and the changed cells differ by an edge; there the request must change nothing.
  refine ⟨t', ht', fun happlied row col h₁ h₂ h₃ h₄ hdiff r s hr hs => ?_, fun hfixed row h₁ h₂ => ?_⟩
  · obtain ⟨r₀, r', hr₀, hr', -, hstyles⟩ := hcells row (by omega) h₂
    obtain ⟨r₁, r₂, hr₁, hr₂, -, hlook⟩ := happlied row (by omega) h₂
    rw [hnew, hr'] at hr₂
    rw [hr] at hr₀ hr₁
    cases hr₀
    cases hr₁
    cases hr₂
    obtain ⟨s₀, s', hs₀, hs', hin, hout⟩ := hstyles col h₃ h₄
    obtain ⟨s₁, s₂, hs₁, hs₂, hin', hout'⟩ := hlook col h₃ h₄
    rw [hs] at hs₀ hs₁
    rw [hs'] at hs₂
    cases hs₀
    cases hs₁
    cases hs₂
    by_cases hmem : (q.changed t.mRows t.mColumns).Mem row col
    · have heffect := (hout' fun ha => hdiff ⟨fun _ => hmem, fun _ => ha⟩).effect
      rw [hin hmem, (hlooks s).effect] at heffect
      exact heffect
    · have ha : (q.addressed t.mRows t.mColumns).Mem row col := by
        by_contra ha
        exact hdiff ⟨fun ha' => absurd ha' ha, fun hmem' => absurd hmem' hmem⟩
      have heffect := (hin' ha).effect
      rw [hout hmem] at heffect
      exact heffect.symm
  · obtain ⟨r, r', hr, hr', htext, hstyles⟩ := hcells row h₁ h₂
    refine ⟨r, r', hr, by rw [hnew, hr'], htext, fun col h₃ h₄ => ?_⟩
    obtain ⟨s, s', hs, hs', hin, hout⟩ := hstyles col h₃ h₄
    -- The condition speaks of the rows of the screen only.
    have hsame (hdiff : ¬((q.addressed t.mRows t.mColumns).Mem row col ↔
        (q.changed t.mRows t.mColumns).Mem row col)) (h₀ : 0 ≤ row) :
        q.requested (TextStyle.decodeEffect s) = TextStyle.decodeEffect s :=
      hfixed row col h₀ h₂ h₃ h₄ hdiff r s hr hs
    refine ⟨s, s', hs, hs', fun ha => ?_, fun ha => ?_⟩
    · by_cases hmem : (q.changed t.mRows t.mColumns).Mem row col
      · rw [hin hmem]
        exact hlooks s
      · have h₀ : 0 ≤ row := by
          have := ha.1
          simp only [AttributeRequest.addressed] at this
          omega
        rw [hout hmem, hsame (fun hiff => hmem (hiff.mp ha)) h₀]
        exact .refl s
    · by_cases hmem : (q.changed t.mRows t.mColumns).Mem row col
      · have h₀ : 0 ≤ row := by
          have := hmem.1
          simp only [AttributeRequest.changed] at this
          omega
        have hlook := hlooks s
        rw [hsame (fun hiff => ha (hiff.mpr hmem)) h₀] at hlook
        rw [hin hmem]
        exact hlook
      · rw [hout hmem]
        exact .refl s

end

/-- A screen of two columns and two rows, and a control sequence of which the last character is still
to come. -/
def beforeLast (b : TerminalBuffer) (args : List Int) : Terminal where
  toDisplay :=
    { @TerminalEmulator.initialDisplay plainPlatform 2 2 b b [false, false] with
      mCurrentDecSetFlags := Decset.rectangularChangeattribute }
  toParser :=
    { TerminalEmulator.initialParser with mEscapeState := .csiDollar, mArgIndex := 4, mArgs := args }

/-- The first cell of a screen of two columns and two rows is made bold, and no other cell. -/
theorem attributes_exact_iff_first : ∃ (t t' : Terminal) (q : AttributeRequest),
    q.Final t.toParser t.mRows t.mColumns 'r'.toNat ∧
      @Terminal.processCodePoint javaShort plainPlatform t 'r'.toNat = .ok t' ∧
      t.toDisplay.AppliedTo (q.addressed t.mRows t.mColumns) q t'.toDisplay := by
  obtain ⟨b, -, hv, hc, hs⟩ := TerminalBuffer.exists_valid_small
  have hq : AttributeRequest.Final ⟨false, 1, 1, 1, 1, [1]⟩ (beforeLast b [1, 1, 1, 1, 1]).toParser
      (beforeLast b [1, 1, 1, 1, 1]).mRows (beforeLast b [1, 1, 1, 1, 1]).mColumns 'r'.toNat :=
    ⟨rfl, rfl, rfl, rfl, rfl, rfl, show (4 : Int) ≤ 4 by decide, rfl⟩
  have hd : (beforeLast b [1, 1, 1, 1, 1]).toDisplay.Addressable := ⟨hv, hs, hc,
    show decide (Decset.rectangularChangeattribute &&& Decset.originMode ≠ 0) = false by decide,
    show decide (Decset.rectangularChangeattribute &&& Decset.rectangularChangeattribute ≠ 0) = true by
      decide⟩
  obtain ⟨t', ht', hiff⟩ := @attributes_exact_iff _ _ javaShort plainPlatform _ hq hd
  exact ⟨_, t', _, hq, ht', hiff.mpr fun row col _ _ _ _ hdiff => absurd Iff.rfl hdiff⟩

/-- The effect bits of the cell in the second row and first column. -/
def secondRowEffect (t : Terminal) : Java (BitVec 32) := do
  let r ← t.mScreen.rowAt 1
  let s ← r.getStyle 0
  return TextStyle.decodeEffect s

theorem secondRowEffect_of_appliedTo {t t' : Terminal} {a : Rectangle} {q : AttributeRequest}
    (h : t.toDisplay.AppliedTo a q t'.toDisplay) (hrows : t.mRows = 4) (hcols : t.mColumns = 4)
    (hhistory : 0 ≤ t.mScreen.mActiveTranscriptRows) (hmem : ¬a.Mem 1 0) :
    t'.secondRowEffect = t.secondRowEffect := by
  obtain ⟨r, r', hr, hr', -, hstyles⟩ := h 1 (by omega) (by omega)
  obtain ⟨s, s', hs, hs', -, hout⟩ := hstyles 0 le_rfl (by omega)
  simp only [Terminal.secondRowEffect, hr, hr', hs, hs', ok_bind, (hout hmem).effect]

/-- ESC [ 2 * x, and ESC [ 1 ; 1 ; 1 ; 1 ; 1 $ r without its last character, on a screen of four rows
and columns. -/
def boldFirstCell : Java TerminalEmulator := do
  let e ← @TerminalEmulator.new javaShort plainPlatform 4 4 (some 100)
  @TerminalEmulator.append javaShort plainPlatform e [0x1b, 0x5b, 0x32, 0x2a, 0x78, 0x1b, 0x5b, 0x31,
    0x3b, 0x31, 0x3b, 0x31, 0x3b, 0x31, 0x3b, 0x31, 0x24]

/-- A request for the first cell makes the cell below it bold, too. -/
theorem cell_below_changed : ∃ (e : TerminalEmulator) (t' : Terminal) (q : AttributeRequest),
    boldFirstCell = .ok e ∧ q.Final e.toParser e.mRows e.mColumns 'r'.toNat ∧
    q.top ≤ q.bottom ∧ q.left ≤ q.right ∧
    e.isDecsetInternalBitSet Decset.originMode = false ∧
    e.isDecsetInternalBitSet Decset.rectangularChangeattribute = true ∧
    @Terminal.processCodePoint javaShort plainPlatform e.toTerminal 'r'.toNat = .ok t' ∧
    ¬e.toDisplay.AppliedTo (q.addressed e.mRows e.mColumns) q t'.toDisplay := by
  have hsize : boldFirstCell.map (fun e => (e.mRows, e.mColumns, e.mScreen.mActiveTranscriptRows,
      e.isDecsetInternalBitSet Decset.originMode,
      e.isDecsetInternalBitSet Decset.rectangularChangeattribute)) = .ok (4, 4, 0, false, true) := by
    decide +kernel
  have hstate : boldFirstCell.map (fun e => (e.mEscapeState, e.mArgIndex, e.getArg 0 1 true,
      e.getArg 1 1 true)) = .ok (.csiDollar, 4, .ok 1, .ok 1) := by
    decide +kernel
  have hargs : boldFirstCell.map (fun e => (e.getArg 2 4 true, e.getArg 3 4 true,
      e.clampArgIndex.attributeCodes)) = .ok (.ok 1, .ok 1, .ok [1]) := by
    decide +kernel
  have heffects : (boldFirstCell >>= fun e =>
      (@Terminal.processCodePoint javaShort plainPlatform e.toTerminal 'r'.toNat).map fun t' =>
        (e.toTerminal.secondRowEffect, t'.secondRowEffect)) = .ok (.ok 0, .ok 1) := by
    decide +kernel
  obtain ⟨e, hrun, hsize⟩ := exists_of_map_eq_ok hsize
  rw [hrun] at hstate hargs
  rw [hrun, ok_bind] at heffects
  obtain ⟨t', hlast, heffects⟩ := exists_of_map_eq_ok heffects
  simp only [Except.map, Except.ok.injEq, Prod.mk.injEq] at hsize hstate hargs heffects
  obtain ⟨hrows, hcols, hhistory, horigin, hextent⟩ := hsize
  obtain ⟨hesc, hindex, htop, hleft⟩ := hstate
  obtain ⟨hbottom, hright, hcodes⟩ := hargs
  refine ⟨e, t', ⟨false, 1, 1, 1, 1, [1]⟩, hrun, ⟨hesc, rfl, htop, hleft, ?_, ?_, hindex.ge, hcodes⟩,
    le_rfl, le_rfl, horigin, hextent, hlast, fun happlied => ?_⟩
  · rw [hrows]
    exact hbottom
  · rw [hcols]
    exact hright
  · have hmem : ¬(AttributeRequest.addressed ⟨false, 1, 1, 1, 1, [1]⟩ e.mRows e.mColumns).Mem 1 0 := by
      rw [hrows, hcols]
      decide
    have hsame := secondRowEffect_of_appliedTo happlied hrows hcols hhistory.ge hmem
    rw [heffects.1, heffects.2] at hsame
    cases hsame

end Terminal

end XoDos
