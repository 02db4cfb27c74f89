import XoDos.MSBitmap

/-!
# Reading BMP files

A file is read without an exception exactly when its header is whole and its pixels are in the file and
fit into a buffer.
-/

namespace XoDos

namespace MSBitmap

/-! ## Numbers -/

theorem toInt32_of_nat {n : Nat} (h : n < 2 ^ 31) : toInt32 n = n := by
  unfold toInt32
  omega

theorem toInt32_range (n : Int) : -2 ^ 31 ≤ toInt32 n ∧ toInt32 n < 2 ^ 31 := by
  unfold toInt32
  omega

@[simp] theorem length_toBytes (n : Nat) (v : Int) : (toBytes n v).length = n := by
  induction n generalizing v with
  | zero => rfl
  | succ n ih => simp [toBytes, ih]

theorem ofBytes_toBytes (n : Nat) (v : Int) : (ofBytes (toBytes n v) : Int) = v % 256 ^ n := by
  induction n generalizing v with
  | zero => simp [toBytes, ofBytes]
  | succ n ih =>
    have hlow : ((BitVec.ofInt 8 v).toNat : Int) = v % 256 := by
      rw [BitVec.toNat_ofInt]
      omega
    have hrest : v % (256 ^ (n + 1)) = v % 256 + 256 * (v / 256 % 256 ^ n) := by
      rw [pow_succ', Int.emod_def, Int.emod_def, Int.emod_def, Int.ediv_ediv_of_nonneg (by omega)]
      ring
    rw [toBytes, ofBytes, hrest]
    push_cast
    rw [ih, hlow]

theorem ofBytes_toInt32 {v : Int} (h₀ : -2 ^ 31 ≤ v) (h₁ : v < 2 ^ 31) :
    toInt32 (ofBytes (toBytes 4 v)) = v := by
  rw [ofBytes_toBytes]
  unfold toInt32
  omega

/-! ## Buffers -/

section Buffers

variable {data buffer : List Byte} {i : Int} {b : Byte}

theorem get_ok {n : Nat} (h : n < data.length) : get data n = .ok (data.getD n 0) := by
  rw [get, if_pos (by omega), Int.toNat_natCast, List.getElem?_eq_getElem h]
  simp [h]

theorem get_eq_ok (h : get data i = .ok b) : 0 ≤ i ∧ i < data.length := by
  unfold get at h
  split_ifs at h with h₀
  refine ⟨h₀, ?_⟩
  split at h
  · have hlt := List.getElem?_eq_some_iff.mp (by assumption)
    obtain ⟨hlt, -⟩ := hlt
    omega
  · cases h

theorem put_ok {n : Nat} (h : n < buffer.length) : put buffer n b = .ok (buffer.set n b) := by
  rw [put, if_pos ⟨by omega, by exact_mod_cast h⟩, Int.toNat_natCast]

theorem put_eq_ok {buffer' : List Byte} (h : put buffer i b = .ok buffer') :
    (0 ≤ i ∧ i < buffer.length) ∧ buffer'.length = buffer.length := by
  unfold put at h
  split_ifs at h with hi
  cases h
  exact ⟨hi, by simp⟩

theorem take_ok {position n : Nat} (h : position + n ≤ data.length) :
    take data position n = .ok (ofBytes ((data.drop position).take n)) := if_pos h

theorem take_eq_ok {position n v : Nat} (h : take data position n = .ok v) :
    position + n ≤ data.length := by
  unfold take at h
  split_ifs at h with hle
  exact hle

end Buffers

/-! ## One pixel -/

section Pixels

variable {data : List Byte} {s s' : Reading} {W H : Nat} {line x : Int}

/-- A pixel that is read is in the file and in the buffer. -/
theorem readPixel_eq_ok {width : Int} (h : readPixel data width line x s = .ok s') :
    s.i + 2 < data.length ∧ s'.i = s.i + 3 ∧ s'.pixels.length = s.pixels.length ∧
      0 ≤ toInt32 (toInt32 (toInt32 (toInt32 (line * width) * 4) + toInt32 (x * 4)) + 2) ∧
      toInt32 (toInt32 (toInt32 (toInt32 (line * width) * 4) + toInt32 (x * 4)) + 2) <
        s.pixels.length := by
  unfold readPixel at h
  simp only [bind_eq_ok] at h
  obtain ⟨b, -, g, -, r, hr, p₁, h₁, p₂, h₂, p₃, h₃, p₄, h₄, hs⟩ := h
  cases hs
  obtain ⟨hj, hl₁⟩ := put_eq_ok h₁
  refine ⟨(get_eq_ok hr).2, rfl, ?_, hj⟩
  simp only
  rw [(put_eq_ok h₄).2, (put_eq_ok h₃).2, (put_eq_ok h₂).2, hl₁]

/-- The bytes that a row takes in the file. -/
def rowBytes (W : Nat) : Nat := 3 * W + W % 4

/-- Where the pixel is in the file, with the rows counted from its start. -/
def source (W r x : Nat) : Nat := 54 + r * rowBytes W + 3 * x

/-- The colour there. -/
def colorAt (data : List Byte) (W r x : Nat) : Color :=
  (data.getD (source W r x + 2) 0, data.getD (source W r x + 1) 0, data.getD (source W r x) 0)

theorem index_lt {line x : Nat} (hline : line < H) (hx : x < W) : line * W + x < W * H := by
  calc line * W + x < line * W + W := by omega
    _ = (line + 1) * W := by ring
    _ ≤ H * W := Nat.mul_le_mul_right W hline
    _ = W * H := Nat.mul_comm H W

theorem index_eq {line x : Nat} (h : 4 * (line * W + x) < 2 ^ 31) :
    toInt32 (toInt32 (toInt32 ((line : Int) * W) * 4) + toInt32 ((x : Int) * 4)) =
      ((4 * (line * W + x) : Nat) : Int) := by
  have hmul : (line : Int) * W = ((line * W : Nat) : Int) := by push_cast; rfl
  rw [hmul]
  generalize line * W = t at h
  unfold toInt32
  omega

/-- A pixel in the file and in the buffer is read. -/
theorem readPixel_ok {line r x : Nat} (hsize : 4 * (W * H) < 2 ^ 31) (hline : line < H) (hx : x < W)
    (hlength : s.pixels.length = 4 * (W * H)) (hi : s.i = source W r x)
    (hsource : source W r x + 2 < data.length) :
    readPixel data W line x s = .ok ⟨source W r x + 3,
      (((s.pixels.set (4 * (line * W + x) + 2) (data.getD (source W r x) 0)).set
        (4 * (line * W + x) + 1) (data.getD (source W r x + 1) 0)).set
        (4 * (line * W + x)) (data.getD (source W r x + 2) 0)).set (4 * (line * W + x) + 3) 255,
      some (s.first.getD (colorAt data W r x)),
      s.blank && decide (s.first.getD (colorAt data W r x) = colorAt data W r x)⟩ := by
  have hk := index_lt hline hx
  have hindex := @index_eq W line x (by omega)
  have hnext : ∀ c : Nat, c ≤ 3 → toInt32 (((4 * (line * W + x) : Nat) : Int) + c) =
      ((4 * (line * W + x) + c : Nat) : Int) := by
    intro c hc
    have hcast : ((4 * (line * W + x) : Nat) : Int) + c = ((4 * (line * W + x) + c : Nat) : Int) := by
      push_cast
      rfl
    rw [hcast]
    exact toInt32_of_nat (by omega)
  have h₁ := hnext 1 (by omega)
  have h₂ := hnext 2 (by omega)
  have h₃ := hnext 3 (by omega)
  have hs₁ : s.i + 1 = ((source W r x + 1 : Nat) : Int) := by rw [hi]; push_cast; rfl
  have hs₂ : s.i + 2 = ((source W r x + 2 : Nat) : Int) := by rw [hi]; push_cast; rfl
  unfold readPixel
  rw [hs₁, hs₂, hi, hindex]
  simp only [Nat.cast_ofNat, Nat.cast_one] at h₁ h₂ h₃
  simp only [h₁, h₂, h₃]
  rw [get_ok (by omega), ok_bind, get_ok (by omega), ok_bind, get_ok (by omega), ok_bind,
    put_ok (by omega), ok_bind, put_ok (by simp; omega), ok_bind, put_ok (by simp; omega), ok_bind,
    put_ok (by simp; omega), ok_bind]
  rfl

end Pixels

/-! ## The rows -/

section Rows

variable {data : List Byte} {W H r x : Nat} {invertY : Bool} {s : Reading}

/-- The line of the bitmap that is in this row of the file, and the row of the file that this line is
in. -/
def lineAt (invertY : Bool) (H r : Nat) : Nat := if invertY then H - 1 - r else r

theorem lineAt_lt (hr : r < H) : lineAt invertY H r < H := by
  unfold lineAt
  split_ifs <;> omega

theorem lineAt_lineAt (hr : r < H) : lineAt invertY H (lineAt invertY H r) = r := by
  unfold lineAt
  split_ifs <;> omega

/-- The line that `open` takes. -/
theorem line_eq (hH : H < 2 ^ 31) (hr : r < H) : (if invertY then ((H - 1 : Nat) : Int) - r
    else toInt32 (((H - 1 : Nat) : Int) - (((H - 1 : Nat) : Int) - r))) = lineAt invertY H r := by
  unfold lineAt toInt32
  cases invertY
  · simp only [Bool.false_eq_true, if_false]
    omega
  · simp only [if_true]
    omega

/-- The bytes that the pixels are to have. -/
def target (data : List Byte) (W H : Nat) (invertY : Bool) (p : Nat) : Byte :=
  let color := colorAt data W (lineAt invertY H (p / 4 / W)) (p / 4 % W)
  if p % 4 = 0 then color.1
  else if p % 4 = 1 then color.2.1
  else if p % 4 = 2 then color.2.2
  else 255

/-- The bytes of the pixels before column `x` of row `r`. -/
def Known (W H : Nat) (invertY : Bool) (r x p : Nat) : Prop :=
  p < 4 * (W * H) ∧ (lineAt invertY H (p / 4 / W) < r ∨
    lineAt invertY H (p / 4 / W) = r ∧ p / 4 % W < x)

/-- What the loops have read before column `x` of row `r`. -/
structure ReadTo (data : List Byte) (W H : Nat) (invertY : Bool) (r x : Nat) (s : Reading) : Prop where
  length : s.pixels.length = 4 * (W * H)
  agrees : Agrees (target data W H invertY) (Known W H invertY r x) s.pixels
  first : s.first = if r = 0 ∧ x = 0 then none else some (colorAt data W 0 0)
  blank : s.blank = true ↔
    ∀ r' x', x' < W → (r' < r ∨ r' = r ∧ x' < x) → colorAt data W r' x' = colorAt data W 0 0

/-- The byte `c` of a pixel is one of the target. -/
theorem target_pixel {c : Nat} (hr : r < H) (hx : x < W) (hc : c < 4) :
    target data W H invertY (4 * (lineAt invertY H r * W + x) + c) =
      if c = 0 then (colorAt data W r x).1
      else if c = 1 then (colorAt data W r x).2.1
      else if c = 2 then (colorAt data W r x).2.2
      else 255 := by
  have hdiv : (4 * (lineAt invertY H r * W + x) + c) / 4 = lineAt invertY H r * W + x := by omega
  have hmod : (4 * (lineAt invertY H r * W + x) + c) % 4 = c := by omega
  have hline : (lineAt invertY H r * W + x) / W = lineAt invertY H r := by
    rw [Nat.add_comm, Nat.add_mul_div_right _ _ (by omega), Nat.div_eq_of_lt hx, Nat.zero_add]
  have hcolumn : (lineAt invertY H r * W + x) % W = x := by
    rw [Nat.add_comm, Nat.add_mul_mod_self_right, Nat.mod_eq_of_lt hx]
  unfold target
  rw [hdiv, hmod, hline, hcolumn, lineAt_lineAt hr]

/-- A byte that is known after a pixel was known before it, or is one of its four. -/
theorem Known.step {p : Nat} (h : Known W H invertY r (x + 1) p) :
    Known W H invertY r x p ∨ ∃ c < 4, p = 4 * (lineAt invertY H r * W + x) + c := by
  obtain ⟨hp, h⟩ := h
  rcases h with h | ⟨hrow, hcolumn⟩
  · exact Or.inl ⟨hp, Or.inl h⟩
  rcases Nat.lt_succ_iff_lt_or_eq.mp hcolumn with hlt | heq
  · exact Or.inl ⟨hp, Or.inr ⟨hrow, hlt⟩⟩
  apply Or.inr
  have hline : p / 4 / W < H := by
    apply Nat.div_lt_of_lt_mul
    omega
  have hback : lineAt invertY H r = p / 4 / W := by
    rw [← hrow]
    exact lineAt_lineAt hline
  have hindex : p / 4 = lineAt invertY H r * W + x := by
    rw [hback, ← heq, Nat.mul_comm]
    exact (Nat.div_add_mod _ _).symm
  exact ⟨p % 4, Nat.mod_lt _ (by omega), by omega⟩

/-- One more pixel. -/
theorem ReadTo.pixel (hsize : 4 * (W * H) < 2 ^ 31) (hr : r < H) (hx : x < W)
    (hsource : source W r x + 2 < data.length) (hi : s.i = source W r x)
    (h : ReadTo data W H invertY r x s) :
    ∃ s', readPixel data W (lineAt invertY H r) x s = .ok s' ∧ s'.i = source W r (x + 1) ∧
      ReadTo data W H invertY r (x + 1) s' := by
  have hline := @lineAt_lt H r invertY hr
  have hk := index_lt hline hx
  have hfirst : s.first.getD (colorAt data W r x) = colorAt data W 0 0 := by
    rw [h.first]
    split_ifs with hzero
    · rw [hzero.1, hzero.2]
      rfl
    · rfl
  refine ⟨_, readPixel_ok hsize hline hx h.length hi hsource, ?_, ?_⟩
  · simp only [source]
    push_cast
    ring
  rw [hfirst]
  constructor
  · simpa using h.length
  · have hb := @target_pixel data W H r x invertY 2 hr hx (by omega)
    have hg := @target_pixel data W H r x invertY 1 hr hx (by omega)
    have hr' := @target_pixel data W H r x invertY 0 hr hx (by omega)
    have ha := @target_pixel data W H r x invertY 3 hr hx (by omega)
    have hknown := @Known.step W H r x invertY
    have hroom : 4 * (lineAt invertY H r * W + x) + 3 < s.pixels.length := by
      rw [h.length]
      omega
    generalize 4 * (lineAt invertY H r * W + x) = k at *
    -- The four bytes of the pixel are put one after the other: blue, green, red, opaque.
    have h₁ := h.agrees.set (p := k + 2) (by omega) hb.symm (fun q hq => hq)
    have h₂ := h₁.set (p := k + 1) (by simp; omega) hg.symm (fun q hq => hq)
    have h₃ := h₂.set (p := k) (by simp; omega) hr'.symm (fun q hq => hq)
    have h₄ := h₃.set (p := k + 3) (by simp; omega) ha.symm (fun q hq => hq)
    apply h₄.mono
    intro q hq
    rcases hknown hq with hq | ⟨c, hc, hq⟩
    · exact Or.inl (Or.inl (Or.inl (Or.inl hq)))
    · omega
  · rw [if_neg (by omega)]
  · dsimp only
    rw [Bool.and_eq_true, h.blank, decide_eq_true_eq]
    constructor
    · rintro ⟨hseen, hnew⟩ r' x' hx' hbefore
      rcases Classical.em (r' = r ∧ x' = x) with ⟨hr', hx'⟩ | hne
      · rw [hr', hx', hnew]
      · exact hseen r' x' hx' (by omega)
    · intro hall
      exact ⟨fun r' x' hx' hbefore => hall r' x' hx' (by omega),
        (hall r x hx (by omega)).symm⟩

/-- The end of a row is the start of the next one. -/
theorem ReadTo.next {i : Int} (hW : 0 < W) (h : ReadTo data W H invertY r W s) :
    ReadTo data W H invertY (r + 1) 0 { s with i } := by
  refine ⟨h.length, h.agrees.mono ?_, ?_, ?_⟩
  · rintro p ⟨hp, hbefore⟩
    have hcolumn := Nat.mod_lt (p / 4) hW
    exact ⟨hp, by omega⟩
  · rw [if_neg (by omega)]
    simpa [show ¬(r = 0 ∧ W = 0) by omega] using h.first
  · dsimp only
    rw [h.blank]
    apply forall_congr'
    intro r'
    apply forall_congr'
    intro x'
    apply imp_congr_right
    intro hx'
    have hbefore : (r' < r ∨ r' = r ∧ x' < W) ↔ (r' < r + 1 ∨ r' = r + 1 ∧ x' < 0) := by omega
    rw [hbefore]

/-- A row that is in the file. -/
theorem readRow_ok (hsize : 4 * (W * H) < 2 ^ 31) (hW : 0 < W) (hr : r < H)
    (hsource : 54 + r * rowBytes W + 3 * W ≤ data.length) (hi : s.i = source W r 0)
    (h : ReadTo data W H invertY r 0 s) :
    ∃ s', readRow data W (lineAt invertY H r) s = .ok s' ∧ s'.i = source W (r + 1) 0 ∧
      ReadTo data W H invertY (r + 1) 0 s' := by
  obtain ⟨s', hs', hi', hread⟩ := @forUp_returns _ _
    (fun (x : Int) (s : Reading) => s.i = source W r x.toNat ∧ ReadTo data W H invertY r x.toNat s)
    0 W (readPixel data W (lineAt invertY H r)) s (by omega) (by
      intro x s hx₀ hx₁ hs
      obtain ⟨x, rfl⟩ := Int.eq_ofNat_of_zero_le hx₀
      have hx : x < W := by omega
      have hnext : ((x : Int) + 1).toNat = x + 1 := by omega
      rw [Int.toNat_natCast] at hs
      rw [hnext]
      apply hs.2.pixel hsize hr hx _ hs.1
      unfold source
      omega) ⟨hi, h⟩
  rw [Int.toNat_natCast] at hi' hread
  refine ⟨{ s' with i := s'.i + (W : Int).tmod 4 }, ?_, ?_, hread.next hW⟩
  · rw [readRow, hs']
    rfl
  · simp only [hi', source, rowBytes]
    rw [Int.tmod_eq_emod_of_nonneg (by omega)]
    push_cast
    ring

/-- The loops of `open`, when the pixels are in the file and fit into the buffer. -/
theorem readRows_ok (hsize : 4 * (W * H) < 2 ^ 31) (hW : 0 < W) (hH : 0 < H) (hH' : H < 2 ^ 31)
    (hsource : 54 + (H - 1) * rowBytes W + 3 * W ≤ data.length) :
    ∃ s', forDown (toInt32 (H - 1)) (fun y =>
        readRow data W (if invertY then y else toInt32 (toInt32 (H - 1) - y)))
        ⟨54, List.replicate (4 * (W * H)) 0, none, true⟩ = .ok s' ∧
      ReadTo data W H invertY H 0 s' := by
  have hlast : toInt32 ((H : Int) - 1) = ((H - 1 : Nat) : Int) := by
    unfold toInt32
    omega
  obtain ⟨s', hs', -, hread⟩ := @forUp_returns _ _
    (fun (r : Int) (s : Reading) => s.i = source W r.toNat 0 ∧ ReadTo data W H invertY r.toNat 0 s)
    0 (((H - 1 : Nat) : Int) + 1) (fun r => readRow data W (if invertY then ((H - 1 : Nat) : Int) - r
      else toInt32 (((H - 1 : Nat) : Int) - (((H - 1 : Nat) : Int) - r))))
    ⟨54, List.replicate (4 * (W * H)) 0, none, true⟩ (by omega) (by
      intro r s hr₀ hr₁ hs
      obtain ⟨r, rfl⟩ := Int.eq_ofNat_of_zero_le hr₀
      have hr : r < H := by omega
      have hnext : ((r : Int) + 1).toNat = r + 1 := by omega
      rw [Int.toNat_natCast] at hs
      rw [line_eq hH' hr, hnext]
      apply readRow_ok hsize hW hr _ hs.1 hs.2
      have hmono : r * rowBytes W ≤ (H - 1) * rowBytes W := Nat.mul_le_mul_right _ (by omega)
      omega) (by
      refine ⟨by simp [source], by simp, ?_, by simp, ?_⟩
      · rintro p ⟨-, hp⟩
        simp at hp
      · simp)
  refine ⟨s', ?_, ?_⟩
  · rw [hlast]
    exact hs'
  · have hend : (((H - 1 : Nat) : Int) + 1).toNat = H := by omega
    rw [hend] at hread
    exact hread

end Rows

/-! ## Loops that return -/

section Returned

variable {data : List Byte} {W H n r x : Nat} {invertY : Bool} {s s' : Reading} {line : Int}

/-- Where the loops are in the file, and how much room the pixels have. -/
def At (W n r x : Nat) (s : Reading) : Prop := s.i = source W r x ∧ s.pixels.length = n

theorem readPixel_at (h : At W n r x s) :
    Ensures (At W n r (x + 1)) (readPixel data W line x s) := by
  intro s' hs'
  obtain ⟨-, hi, hlength, -⟩ := readPixel_eq_ok hs'
  refine ⟨?_, by rw [hlength, h.2]⟩
  rw [hi, h.1]
  unfold source
  push_cast
  ring

/-- The state before a pixel of the row. -/
theorem columns_at (h : At W n r 0 s) :
    Ensures (At W n r x) (forUp 0 x (readPixel data W line) s) := by
  have hloop := @Ensures.forUp_index _ _ (fun (x : Int) (s : Reading) => At W n r x.toNat s) 0 x
    (readPixel data W line) s (by omega) (by
      intro x s hx₀ _ hs
      obtain ⟨x, rfl⟩ := Int.eq_ofNat_of_zero_le hx₀
      have hnext : ((x : Int) + 1).toNat = x + 1 := by omega
      rw [hnext]
      exact readPixel_at hs) h
  rwa [Int.toNat_natCast] at hloop

theorem readRow_at (h : At W n r 0 s) :
    Ensures (At W n (r + 1) 0) (readRow data W line s) := by
  unfold readRow
  refine Ensures.bind (columns_at h) fun s' hs' => ?_
  apply Ensures.ok
  refine ⟨?_, hs'.2⟩
  simp only [hs'.1, source, rowBytes]
  rw [Int.tmod_eq_emod_of_nonneg (by omega)]
  push_cast
  ring

/-- The state before a row. -/
theorem rows_at {line : Int → Int} (h : At W n 0 0 s) :
    Ensures (At W n r 0) (forUp 0 r (fun r => readRow data W (line r)) s) := by
  have hloop := @Ensures.forUp_index _ _ (fun (r : Int) (s : Reading) => At W n r.toNat 0 s) 0 r
    (fun r => readRow data W (line r)) s (by omega) (by
      intro r s hr₀ _ hs
      have hnext : (r + 1).toNat = r.toNat + 1 := by omega
      rw [hnext]
      exact readRow_at hs) h
  rwa [Int.toNat_natCast] at hloop

/-- Every pixel has been read, at its place in the file. -/
theorem rows_pixel {line : Int → Int} (h : At W n 0 0 s)
    (hloop : forUp 0 H (fun r => readRow data W (line r)) s = .ok s') (hr : r < H) (hx : x < W) :
    ∃ t t', At W n r x t ∧ readPixel data W (line r) x t = .ok t' := by
  obtain ⟨t, t', ht, ht'⟩ := @forUp_round _ _ 0 H r _ s s' hloop (by omega) (by omega)
  have hrow := rows_at h t ht
  unfold readRow at ht'
  rw [bind_eq_ok] at ht'
  obtain ⟨u, hu, -⟩ := ht'
  obtain ⟨v, v', hv, hv'⟩ := @forUp_round _ _ 0 W x _ t u hu (by omega) (by omega)
  exact ⟨v, v', columns_at hrow v hv, hv'⟩

/-- The last pixel is in the file. -/
theorem rows_source {line : Int → Int} (hW : 0 < W) (hH : 0 < H) (h : At W n 0 0 s)
    (hloop : forUp 0 H (fun r => readRow data W (line r)) s = .ok s') :
    54 + (H - 1) * rowBytes W + 3 * W ≤ data.length := by
  obtain ⟨t, t', ht, hpixel⟩ := rows_pixel h hloop (show H - 1 < H by omega) (show W - 1 < W by omega)
  have hend := (readPixel_eq_ok hpixel).1
  rw [ht.1] at hend
  unfold source at hend
  omega

/-- The pixel with number `2 ^ 29` has a negative index. -/
theorem rows_size {line : Int → Int} (hline : ∀ r : Nat, r < H → line r = lineAt invertY H r)
    (h : At W n 0 0 s) (hloop : forUp 0 H (fun r => readRow data W (line r)) s = .ok s') :
    W * H ≤ 2 ^ 29 := by
  by_contra hlarge
  have hlt : 2 ^ 29 < W * H := by omega
  have hW : 0 < W := by
    rcases Nat.eq_zero_or_pos W with hzero | hpos
    · rw [hzero, Nat.zero_mul] at hlt
      omega
    · exact hpos
  have hrow : 2 ^ 29 / W < H := Nat.div_lt_of_lt_mul hlt
  obtain ⟨t, t', -, hpixel⟩ := rows_pixel h hloop (@lineAt_lt H (2 ^ 29 / W) invertY hrow)
    (Nat.mod_lt (2 ^ 29) hW)
  obtain ⟨-, -, -, hpos, -⟩ := readPixel_eq_ok hpixel
  rw [hline _ (lineAt_lt hrow), lineAt_lineAt hrow] at hpos
  have hindex : ((2 ^ 29 / W : Nat) : Int) * W = 2 ^ 29 - ((2 ^ 29 % W : Nat) : Int) := by
    have hmod := Nat.div_add_mod (2 ^ 29) W
    rw [Nat.mul_comm] at hmod
    have hcast : ((2 ^ 29 / W * W : Nat) : Int) = ((2 ^ 29 / W : Nat) : Int) * W := Nat.cast_mul _ _
    rw [← hcast]
    omega
  rw [hindex] at hpos
  generalize ((2 ^ 29 % W : Nat) : Int) = m at hpos
  unfold toInt32 at hpos
  omega

end Returned

/-! ## The pixels of a file -/

section Readable

variable {data : List Byte} {W H : Nat} {width height : Int}

/-- The pixels are in the file and fit into the buffer.  With a negative width there are none, and only
the size of the buffer must not be negative. -/
def PixelsFit (data : List Byte) (width height : Int) : Prop :=
  if width < 0 then 0 ≤ toInt32 (4 * (width * |height|))
  else 4 * (width * |height|) < 2 ^ 31 ∧
    54 + (|height| - 1) * (3 * width + width % 4) + 3 * width ≤ data.length

theorem allocate_ok (h : 4 * (W * H) < 2 ^ 31) :
    allocate (toInt32 (toInt32 ((W : Int) * H) * 4)) = .ok (List.replicate (4 * (W * H)) 0) := by
  have hcast : (W : Int) * H = ((W * H : Nat) : Int) := (Nat.cast_mul W H).symm
  have hsize : toInt32 (toInt32 ((W : Int) * H) * 4) = ((4 * (W * H) : Nat) : Int) := by
    rw [hcast]
    unfold toInt32
    omega
  rw [hsize, allocate, if_neg (by omega), Int.toNat_natCast]

/-- The height without its sign. -/
theorem height_abs (h : |height| < 2 ^ 31) :
    (if height < 0 then toInt32 (height * -1) else height) = |height| := by
  split_ifs with hneg
  · rw [abs_of_neg hneg] at h ⊢
    unfold toInt32
    omega
  · exact (abs_of_nonneg (by omega)).symm

/-- Pixels that fit are read. -/
theorem readBitmap_fits (hW : 0 < W) (hH : 0 < H) (hheight : |height| = H)
    (hsize : 4 * (W * H) < 2 ^ 31) (hsource : 54 + (H - 1) * rowBytes W + 3 * W ≤ data.length) :
    ∃ s, ReadTo data W H (decide (0 ≤ height)) H 0 s ∧ readBitmap data W height =
      if s.blank then .ok none else (createBitmap W H s.pixels).map some := by
  have hW' : 4 * W ≤ 4 * (W * H) := Nat.mul_le_mul_left 4 (Nat.le_mul_of_pos_right W hH)
  have hH' : 4 * H ≤ 4 * (W * H) := Nat.mul_le_mul_left 4 (Nat.le_mul_of_pos_left H hW)
  have hne : ¬((W : Int) = 0 ∨ height = 0) := by
    rintro (hzero | hzero)
    · omega
    · rw [hzero, abs_zero] at hheight
      omega
  obtain ⟨s, hs, hread⟩ := @readRows_ok data W H (decide (0 ≤ height)) hsize hW hH (by omega) hsource
  refine ⟨s, hread, ?_⟩
  unfold readBitmap
  rw [if_neg hne]
  dsimp only
  rw [height_abs (by omega), hheight, allocate_ok hsize]
  simp only [ok_bind]
  rw [hs, ok_bind]
  split_ifs
  · rfl
  · cases createBitmap W H s.pixels <;> rfl

theorem createBitmap_ok {pixels : List Byte} (hW : 0 < W) (hH : 0 < H)
    (hsize : 4 * (W * H) < 2 ^ 31) (hlength : pixels.length = 4 * (W * H)) :
    ∃ bitmap : Bitmap, createBitmap W H pixels = .ok bitmap ∧ bitmap.width = W ∧
      bitmap.height = H ∧ bitmap.pixels = (List.range (W * H)).map (argb pixels) := by
  have hW' : 4 * W ≤ 4 * (W * H) := Nat.mul_le_mul_left 4 (Nat.le_mul_of_pos_right W hH)
  have hH' : 4 * H ≤ 4 * (W * H) := Nat.mul_le_mul_left 4 (Nat.le_mul_of_pos_left H hW)
  have hroom : (4 : Int) * (W * H) ≤ pixels.length := by
    rw [hlength]
    push_cast
    exact le_rfl
  unfold createBitmap
  rw [dif_pos ⟨⟨by omega, by omega⟩, ⟨by omega, by omega⟩, hroom⟩]
  exact ⟨_, rfl, rfl, rfl, rfl⟩

/-- The size of the buffer. -/
theorem buffer_size (h₀ : -2 ^ 31 ≤ height) (h₁ : height < 2 ^ 31) :
    toInt32 (toInt32 (width * (if height < 0 then toInt32 (height * -1) else height)) * 4) =
      toInt32 (4 * (width * |height|)) := by
  rcases lt_or_ge |height| (2 ^ 31) with hlt | hge
  · rw [height_abs hlt]
    generalize width * |height| = size
    unfold toInt32
    omega
  · have hmin : height = -2 ^ 31 := by
      rcases abs_cases height with ⟨habs, -⟩ | ⟨habs, -⟩ <;> omega
    subst hmin
    have habs : |(-2 ^ 31 : Int)| = 2 ^ 31 := by norm_num
    have hsame : (if (-2 ^ 31 : Int) < 0 then toInt32 (-2 ^ 31 * -1) else -2 ^ 31) = -2 ^ 31 := by
      decide
    rw [habs, hsame]
    unfold toInt32
    omega

theorem allocate_eq_ok {size : Int} {buffer : List Byte} (h : allocate size = .ok buffer) :
    0 ≤ size ∧ buffer = List.replicate size.toNat 0 := by
  unfold allocate at h
  split_ifs at h with hneg
  cases h
  exact ⟨by omega, rfl⟩

/-- Without columns no pixel is read. -/
theorem readBitmap_no_columns (hwidth : width < 0) (h₀ : -2 ^ 31 ≤ height) (h₁ : height < 2 ^ 31)
    (hfit : 0 ≤ toInt32 (4 * (width * |height|))) : readBitmap data width height = .ok none := by
  unfold readBitmap
  by_cases hzero : width = 0 ∨ height = 0
  · rw [if_pos hzero]
    rfl
  rw [if_neg hzero]
  dsimp only
  rw [buffer_size h₀ h₁, allocate, if_neg (by omega), ok_bind]
  unfold forDown
  have hpositive : 0 ≤ toInt32 ((if height < 0 then toInt32 (height * -1) else height) - 1) + 1 := by
    unfold toInt32
    split_ifs <;> omega
  obtain ⟨s, hs, hblank⟩ := @forUp_returns BitmapException _ (fun (_ : Int) (s : Reading) => s.blank = true) 0
    (toInt32 ((if height < 0 then toInt32 (height * -1) else height) - 1) + 1)
    (fun r => readRow data width (if decide (0 ≤ height) then
      toInt32 ((if height < 0 then toInt32 (height * -1) else height) - 1) - r
      else toInt32 (toInt32 ((if height < 0 then toInt32 (height * -1) else height) - 1) -
        (toInt32 ((if height < 0 then toInt32 (height * -1) else height) - 1) - r))))
    ⟨54, List.replicate (toInt32 (4 * (width * |height|))).toNat 0, none, true⟩ hpositive (by
      intro r s _ _ hs
      refine ⟨{ s with i := s.i + width.tmod 4 }, ?_, hs⟩
      rw [readRow, forUp_of_le hwidth.le, ok_bind]
      rfl) rfl
  rw [hs, ok_bind, if_pos hblank]
  rfl

/-- What is read is in the file and fits into the buffer. -/
theorem readBitmap_pixels {result : Option Bitmap} (hW : 0 < W) (h₀ : -2 ^ 31 ≤ height)
    (h₁ : height < 2 ^ 31) (hheight : |height| = H) (hH : 0 < H)
    (h : readBitmap data W height = .ok result) :
    4 * (W * H) < 2 ^ 31 ∧ 54 + (H - 1) * rowBytes W + 3 * W ≤ data.length := by
  have hne : ¬((W : Int) = 0 ∨ height = 0) := by
    rintro (hzero | hzero)
    · omega
    · rw [hzero, abs_zero] at hheight
      omega
  unfold readBitmap at h
  rw [if_neg hne] at h
  dsimp only at h
  rw [buffer_size h₀ h₁, bind_eq_ok] at h
  obtain ⟨pixels, hpixels, h⟩ := h
  obtain ⟨hpos, hreplicate⟩ := allocate_eq_ok hpixels
  rw [hheight] at hpos hreplicate
  rw [bind_eq_ok] at h
  obtain ⟨s, hs, -⟩ := h
  unfold forDown at hs
  have hstart : ∀ n, pixels.length = n → At W n 0 0 ⟨54, pixels, none, true⟩ := by
    intro n hn
    exact ⟨by simp [source], hn⟩
  -- The least `int` is its own absolute value: no pixel is allocated and the first one raises.
  rcases Nat.lt_or_ge H (2 ^ 31) with hlt | hge
  · rw [height_abs (by omega), hheight] at hs
    have hlast : toInt32 ((H : Int) - 1) = ((H - 1 : Nat) : Int) := by
      unfold toInt32
      omega
    have hend : ((H - 1 : Nat) : Int) + 1 = H := by omega
    rw [hlast, hend] at hs
    have hloop := hstart _ rfl
    have hroom := @rows_size data W H _ _ _ s _ (fun r hr => line_eq hlt hr) hloop hs
    refine ⟨?_, rows_source hW hH hloop hs⟩
    have hcast : (W : Int) * H = ((W * H : Nat) : Int) := (Nat.cast_mul W H).symm
    rw [hcast] at hpos
    unfold toInt32 at hpos
    omega
  · have hmin : height = -2 ^ 31 := by
      rcases abs_cases height with ⟨habs, -⟩ | ⟨habs, -⟩ <;> omega
    have hH' : (H : Int) = 2 ^ 31 := by
      rw [← hheight, hmin]
      norm_num
    have hempty : pixels.length = 0 := by
      rw [hreplicate, List.length_replicate, hH']
      unfold toInt32
      omega
    have hend : toInt32 ((if height < 0 then toInt32 (height * -1) else height) - 1) + 1 = H := by
      rw [hH', hmin]
      decide
    rw [hend] at hs
    obtain ⟨t, t', ht, hpixel⟩ := rows_pixel (hstart 0 hempty) hs hH hW
    obtain ⟨-, -, -, hindex, hindex'⟩ := readPixel_eq_ok hpixel
    rw [ht.2] at hindex'
    omega

theorem createBitmap_eq_ok {pixels : List Byte} {bitmap : Bitmap}
    (h : createBitmap width height pixels = .ok bitmap) :
    (bitmap.width : Int) = width ∧ (bitmap.height : Int) = height := by
  unfold createBitmap at h
  split_ifs at h with hfit
  cases h
  dsimp only
  omega

/-- What is behind the header is read exactly when it fits. -/
theorem readBitmap_returns_iff (h₀ : -2 ^ 31 ≤ height) (h₁ : height < 2 ^ 31) :
    (∃ result, readBitmap data width height = .ok result) ↔
      width = 0 ∨ height = 0 ∨ PixelsFit data width height := by
  by_cases hzero : width = 0 ∨ height = 0
  · constructor
    · rintro -
      exact hzero.imp_right Or.inl
    · rintro -
      refine ⟨none, ?_⟩
      rw [readBitmap, if_pos hzero]
      rfl
  rw [not_or] at hzero
  -- With a negative width the loops do nothing, and the size of the array decides alone.
  rcases lt_trichotomy width 0 with hneg | hzero' | hpos
  · rw [PixelsFit, if_pos hneg]
    constructor
    · rintro ⟨result, hresult⟩
      apply Or.inr
      apply Or.inr
      unfold readBitmap at hresult
      rw [if_neg (by tauto)] at hresult
      dsimp only at hresult
      rw [buffer_size h₀ h₁, bind_eq_ok] at hresult
      obtain ⟨pixels, hpixels, -⟩ := hresult
      exact (allocate_eq_ok hpixels).1
    · intro hfit
      exact ⟨none, readBitmap_no_columns hneg h₀ h₁ (by tauto)⟩
  · exact absurd hzero' hzero.1
  · obtain ⟨W, rfl⟩ := Int.eq_ofNat_of_zero_le hpos.le
    obtain ⟨H, hH⟩ := Int.eq_ofNat_of_zero_le (abs_nonneg height)
    have hheight : 0 < |height| := abs_pos.mpr hzero.2
    have hfit : PixelsFit data W height ↔
        4 * (W * H) < 2 ^ 31 ∧ 54 + (H - 1) * rowBytes W + 3 * W ≤ data.length := by
      rw [PixelsFit, if_neg (by omega), hH, rowBytes]
      have hcast : (H : Int) - 1 = ((H - 1 : Nat) : Int) := by omega
      rw [hcast]
      norm_cast
    have hgiven : (W : Int) = 0 ∨ height = 0 ∨ PixelsFit data W height ↔
        PixelsFit data W height := by tauto
    rw [hgiven, hfit]
    constructor
    · rintro ⟨result, hresult⟩
      exact readBitmap_pixels (by omega) h₀ h₁ hH (by omega) hresult
    · rintro ⟨hsize, hsource⟩
      obtain ⟨s, hs, hread⟩ := readBitmap_fits (by omega) (by omega) hH hsize hsource
      rw [hread]
      split_ifs
      · exact ⟨none, rfl⟩
      · obtain ⟨bitmap, hbitmap, -⟩ := @createBitmap_ok W H s.pixels (by omega) (by omega) hsize hs.length
        rw [hbitmap]
        exact ⟨some bitmap, rfl⟩

end Readable

/-! ## The header -/

section Header

variable {data : List Byte} {position : Nat}

/-- The bytes of a field. -/
def field (data : List Byte) (position n : Nat) : Nat := ofBytes ((data.drop position).take n)

theorem getShort_ok (h : position + 2 ≤ data.length) :
    getShort data position = .ok (toShort (field data position 2)) := by
  rw [getShort, take_ok h]
  rfl

theorem getInt_ok (h : position + 4 ≤ data.length) :
    getInt data position = .ok (toInt32 (field data position 4)) := by
  rw [getInt, take_ok h]
  rfl

theorem getShort_eq_ok {v : Int} (h : getShort data position = .ok v) :
    position + 2 ≤ data.length := by
  unfold getShort at h
  cases htake : take data position 2 with
  | error e =>
    rw [htake] at h
    cases h
  | ok n => exact take_eq_ok htake

theorem getInt_eq_ok {v : Int} (h : getInt data position = .ok v) :
    position + 4 ≤ data.length := by
  unfold getInt at h
  cases htake : take data position 4 with
  | error e =>
    rw [htake] at h
    cases h
  | ok n => exact take_eq_ok htake

/-- The file is no BMP file, is shorter than it says, or has a whole header with pixels that fit. -/
def Readable (data : List Byte) : Prop :=
  2 ≤ data.length ∧ (toShort (field data 0 2) ≠ 0x4d42 ∨
    6 ≤ data.length ∧ (data.length < toInt32 (field data 2 4) ∨
      54 ≤ data.length ∧ (toInt32 (field data 18 4) = 0 ∨ toInt32 (field data 22 4) = 0 ∨
        PixelsFit data (toInt32 (field data 18 4)) (toInt32 (field data 22 4)))))

/-- A file with a whole header. -/
theorem openFile_header (hlength : 54 ≤ data.length) (hmagic : toShort (field data 0 2) = 0x4d42)
    (hsize : toInt32 (field data 2 4) ≤ data.length) :
    openFile data = readBitmap data (toInt32 (field data 18 4)) (toInt32 (field data 22 4)) := by
  unfold openFile
  rw [getShort_ok (by omega), ok_bind, hmagic, if_neg (by simp), getInt_ok (by omega), ok_bind,
    if_neg (by omega)]
  rw [getInt_ok (by omega), ok_bind, getInt_ok (by omega), ok_bind, getInt_ok (by omega), ok_bind,
    getInt_ok (by omega), ok_bind, getInt_ok (by omega), ok_bind, getShort_ok (by omega), ok_bind,
    getShort_ok (by omega), ok_bind, getInt_ok (by omega), ok_bind, getInt_ok (by omega), ok_bind,
    getInt_ok (by omega), ok_bind, getInt_ok (by omega), ok_bind, getInt_ok (by omega), ok_bind,
    getInt_ok (by omega), ok_bind]

/-- The whole header has to be there. -/
theorem header_length {result : Option Bitmap} (h : openFile data = .ok result)
    (hmagic : toShort (field data 0 2) = 0x4d42) (hsize : toInt32 (field data 2 4) ≤ data.length)
    (hlength : 6 ≤ data.length) : 54 ≤ data.length := by
  unfold openFile at h
  rw [getShort_ok (by omega), ok_bind, hmagic, if_neg (by simp), getInt_ok (by omega), ok_bind,
    if_neg (by omega)] at h
  simp only [bind_eq_ok] at h
  obtain ⟨_, -, _, -, _, -, _, -, _, -, _, -, _, -, _, -, _, -, _, -, _, -, _, -, _, hlast, -⟩ := h
  exact getInt_eq_ok hlast

/-- A file is read without an exception exactly when it is readable. -/
theorem openFile_returns_iff : (∃ result, openFile data = .ok result) ↔ Readable data := by
  by_cases hshort : 2 ≤ data.length
  swap
  · constructor
    · rintro ⟨result, hresult⟩
      unfold openFile at hresult
      rw [bind_eq_ok] at hresult
      obtain ⟨_, hmagic, -⟩ := hresult
      exact absurd (getShort_eq_ok hmagic) (by omega)
    · intro hreadable
      exact absurd hreadable.1 hshort
  by_cases hmagic : toShort (field data 0 2) = 0x4d42
  swap
  · constructor
    · rintro -
      exact ⟨hshort, Or.inl hmagic⟩
    · rintro -
      refine ⟨none, ?_⟩
      rw [openFile, getShort_ok (by omega), ok_bind, if_pos hmagic]
      rfl
  by_cases hsix : 6 ≤ data.length
  swap
  · constructor
    · rintro ⟨result, hresult⟩
      unfold openFile at hresult
      rw [getShort_ok (by omega), ok_bind, if_neg (by simpa using hmagic), bind_eq_ok] at hresult
      obtain ⟨_, hsize, -⟩ := hresult
      exact absurd (getInt_eq_ok hsize) (by omega)
    · rintro ⟨-, hno | ⟨hlength, -⟩⟩
      · exact absurd hmagic hno
      · exact absurd hlength hsix
  by_cases hsize : (data.length : Int) < toInt32 (field data 2 4)
  · constructor
    · rintro -
      exact ⟨hshort, Or.inr ⟨hsix, Or.inl hsize⟩⟩
    · rintro -
      refine ⟨none, ?_⟩
      rw [openFile, getShort_ok (by omega), ok_bind, if_neg (by simpa using hmagic),
        getInt_ok (by omega), ok_bind, if_pos hsize]
      rfl
  -- From here on the header decides nothing but the size of the bitmap.
  have hrange := toInt32_range (field data 22 4)
  constructor
  · rintro ⟨result, hresult⟩
    have hlength := header_length hresult hmagic (by omega) hsix
    rw [openFile_header hlength hmagic (by omega)] at hresult
    exact ⟨hshort, Or.inr ⟨hsix, Or.inr ⟨hlength,
      (readBitmap_returns_iff hrange.1 hrange.2).mp ⟨result, hresult⟩⟩⟩⟩
  · rintro ⟨-, hno | ⟨-, hno | ⟨hlength, hfit⟩⟩⟩
    · exact absurd hmagic hno
    · exact absurd hno hsize
    · rw [openFile_header hlength hmagic (by omega)]
      exact (readBitmap_returns_iff hrange.1 hrange.2).mpr hfit

end Header

end MSBitmap

end XoDos
