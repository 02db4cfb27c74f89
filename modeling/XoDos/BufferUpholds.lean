import XoDos.BufferSize

/-!
# Buffer operations as the display uses them

One lemma for each operation that the display calls.  Without `S` nothing is
assumed about the buffer, and its size is known afterwards.  With `S` the buffer
is valid and the arguments are in range, and then the operation returns and the
buffer is valid again.
-/

namespace XoDos

namespace TerminalBuffer

open WcWidth (width)

variable {b b' : TerminalBuffer} {S : Prop}

/-- What an operation keeps of a buffer. -/
structure Kept (S : Prop) (b b' : TerminalBuffer) : Prop extends SameSize b b' where
  valid : S → Valid b'

theorem Kept.refl (h : S → Valid b) : Kept S b b := ⟨.refl b, h⟩

theorem Kept.trans {b'' : TerminalBuffer} (h : Kept S b b') (h' : Kept S b' b'') : Kept S b b'' :=
  ⟨h.toSameSize.trans h'.toSameSize, h'.valid⟩

theorem Kept.of_sameSize (hS : ¬ S) (h : SameSize b b') : Kept S b b' := ⟨h, fun hs => (hS hs).elim⟩

theorem Kept.of_keeps (h : Keeps b b') : Kept S b b' :=
  ⟨⟨h.grown.columns, h.grown.screen, h.grown.total⟩, fun _ => h.valid⟩

theorem setChar_upholds (h : S → Valid b) {column row : Int} {codePoint : Nat} {style : Style}
    (hs : S → isScalar codePoint = true ∧ 2 ≤ b.mColumns)
    (hrange : S → 0 ≤ row ∧ row < b.mScreenRows ∧ 0 ≤ column ∧ column < b.mColumns)
    (hw : S → width codePoint = 2 → column + 1 ≠ b.mColumns) :
    Upholds S (Kept S b) fun _ => b.setChar column row codePoint style := by
  refine ⟨fun hS => setChar_sameSize.mono fun _ hb => .of_sameSize hS hb.1, fun hS => ?_⟩
  refine runs_mono (fun _ => .of_keeps) (setChar_keeps (h hS) (hs hS).1 (fun _ h₁ => ?_)
    (fun hn => hn (hrange hS)) fun h₂ hc => hw hS h₂ hc)
  have := (hs hS).2
  omega

theorem blockSet_upholds (hb : S → Valid b) {sx sy w h : Int} {val : Nat} {style : Style}
    (hs : S → isScalar val = true ∧ width val = 1)
    (hrange : S → 0 ≤ sx ∧ sx + w ≤ b.mColumns ∧ 0 ≤ sy ∧ sy + h ≤ b.mScreenRows) :
    Upholds S (Kept S b) fun _ => b.blockSet sx sy w h val style := by
  refine ⟨fun hS => blockSet_sameSize.mono fun _ hb => .of_sameSize hS hb, fun hS => ?_⟩
  have hw := (hs hS).2
  exact runs_mono (fun _ => .of_keeps) (blockSet_keeps (hb hS) (hs hS).1 (by omega)
    (fun hn => hn (hrange hS)) (by omega))

theorem blockCopy_upholds (hb : S → Valid b) {sx sy w h dx dy : Int}
    (hrange : S → 2 ≤ b.mColumns ∧ 0 ≤ w ∧ 0 ≤ sx ∧ sx + w ≤ b.mColumns ∧ 0 ≤ sy ∧
      sy + h ≤ b.mScreenRows ∧ 0 ≤ dx ∧ dx + w ≤ b.mColumns ∧ 0 ≤ dy ∧ dy + h ≤ b.mScreenRows) :
    Upholds S (Kept S b) fun _ => b.blockCopy sx sy w h dx dy := by
  refine ⟨fun hS => blockCopy_sameSize.mono fun _ hb => .of_sameSize hS hb, fun hS => ?_⟩
  obtain ⟨hc, hw, hr⟩ := hrange hS
  exact runs_mono (fun _ => .of_keeps) (blockCopy_keeps (hb hS) (by omega) (by omega)
    fun hn => hn hr)

theorem putLineWrap_upholds (h : S → Valid b) {row : Int} {wrap : Bool}
    (hrange : S → 0 ≤ row ∧ row < b.mScreenRows) :
    Upholds S (Kept S b) fun _ => b.putLineWrap row wrap := by
  refine ⟨fun hS => putLineWrap_sameSize.mono fun _ hb => .of_sameSize hS hb, fun hS => ?_⟩
  have hhist := (h hS).history
  have hr := hrange hS
  exact runs_mono (fun _ => .of_keeps) (putLineWrap_keeps (h hS) fun hn => hn (by omega))

theorem getStyleAt_upholds (h : S → Valid b) {row column : Int}
    (hrange : S → 0 ≤ row ∧ row < b.mScreenRows ∧ 0 ≤ column ∧ column < b.mColumns) :
    Upholds S (fun p => Kept S b p.1) fun _ => b.getStyleAt row column := by
  refine ⟨fun hS => getStyleAt_sameSize.mono fun _ hb => .of_sameSize hS hb, fun hS => ?_⟩
  have hhist := (h hS).history
  have hr := hrange hS
  exact runs_mono (fun _ => .of_keeps) (getStyleAt_keeps (h hS) (fun hn => hn (by omega))
    fun hn => hn (by omega))

theorem setOrClearEffect_upholds (hb : S → Valid b) {bits : BitVec 32}
    {setOrClear reverse rect : Bool} {leftMargin rightMargin top left bottom right : Int}
    (hrange : S → top < bottom → 0 ≤ top ∧ bottom ≤ b.mScreenRows ∧ 0 ≤ left ∧ right ≤ b.mColumns ∧
      0 ≤ leftMargin ∧ rightMargin ≤ b.mColumns) :
    Upholds S (Kept S b) fun _ => b.setOrClearEffect bits setOrClear reverse rect leftMargin
      rightMargin top left bottom right := by
  refine ⟨fun hS => setOrClearEffect_sameSize.mono fun _ hb => .of_sameSize hS hb, fun hS => ?_⟩
  exact runs_mono (fun _ => .of_keeps) (setOrClearEffect_keeps (hb hS) fun ht hn => hn (hrange hS ht))

theorem scrollDownOneLine_upholds (h : S → Valid b) {top bottom : Int} {style : Style}
    (hrange : S → 0 ≤ top ∧ top < bottom ∧ bottom ≤ b.mScreenRows) :
    Upholds S (Kept S b) fun _ => b.scrollDownOneLine top bottom style := by
  refine ⟨fun hS => scrollDownOneLine_sameSize.mono fun _ hb => .of_sameSize hS hb, fun hS => ?_⟩
  refine runs_mono ?_ (scrollDownOneLine_runs (h hS) (fun hn => hn (hrange hS))
    fun _ => trivial)
  rintro b' ⟨hv, hc, hs, ht⟩
  exact ⟨⟨hc, hs, ht⟩, fun _ => hv⟩

end TerminalBuffer

end XoDos
