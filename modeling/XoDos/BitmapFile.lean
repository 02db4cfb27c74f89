import XoDos.BitmapRead

/-!
# Bitmaps in files

A bitmap that is written and fits is read as it was.  Too large ones are not, and not every file is read
without an exception.
-/

namespace XoDos

namespace MSBitmap

/-! ## The bytes of a file -/

section Written

variable {pixels : List (BitVec 32)} {start buffer : List Byte} {W H k f x : Nat}

/-- The byte `c` of a pixel in the file. -/
def component (pixel : BitVec 32) (c : Nat) : Byte :=
  if c = 0 then blue pixel else if c = 1 then green pixel else red pixel

@[simp] theorem component_zero (pixel : BitVec 32) : component pixel 0 = blue pixel := rfl

@[simp] theorem component_one (pixel : BitVec 32) : component pixel 1 = green pixel := rfl

@[simp] theorem component_two (pixel : BitVec 32) : component pixel 2 = red pixel := rfl

/-- The bytes that the file is to have. -/
def written (start : List Byte) (pixels : List (BitVec 32)) (W H p : Nat) : Byte :=
  if p < 54 then start.getD p 0
  else
    let f := (p - 54) % rowBytes W
    if f < 3 * W then
      component (pixels.getD ((H - 1 - (p - 54) / rowBytes W) * W + f / 3) 0) (f % 3)
    else 255

/-- The header, and the bytes before byte `f` of the row that is written after `k` others. -/
def WrittenAt (W H k f p : Nat) : Prop :=
  p < 54 ∨ p < 54 + H * rowBytes W ∧ (H - 1 - (p - 54) / rowBytes W < k ∨
    H - 1 - (p - 54) / rowBytes W = k ∧ (p - 54) % rowBytes W < f)

/-- What the loops have written. -/
structure WrittenTo (start : List Byte) (pixels : List (BitVec 32)) (W H k f : Nat)
    (buffer : List Byte) : Prop where
  length : buffer.length = 54 + H * rowBytes W
  agrees : Agrees (written start pixels W H) (WrittenAt W H k f) buffer

/-- Where byte `f` of this row is. -/
def destination (W H k f : Nat) : Nat := 54 + (H - 1 - k) * rowBytes W + f

theorem destination_row (hk : k < H) : destination W H k (rowBytes W) ≤ 54 + H * rowBytes W := by
  unfold destination
  have hrow : (H - 1 - k) * rowBytes W + rowBytes W ≤ H * rowBytes W := by
    calc (H - 1 - k) * rowBytes W + rowBytes W = (H - 1 - k + 1) * rowBytes W := by ring
      _ ≤ H * rowBytes W := Nat.mul_le_mul_right _ (by omega)
  omega

theorem destination_lt (hk : k < H) (hf : f < rowBytes W) :
    destination W H k f < 54 + H * rowBytes W := by
  have hrow := @destination_row W H k hk
  unfold destination at hrow ⊢
  omega

/-- The row and the byte in it. -/
theorem destination_split (hf : f < rowBytes W) :
    (destination W H k f - 54) / rowBytes W = H - 1 - k ∧
      (destination W H k f - 54) % rowBytes W = f := by
  have hsub : destination W H k f - 54 = f + (H - 1 - k) * rowBytes W := by
    unfold destination
    omega
  rw [hsub]
  constructor
  · rw [Nat.add_mul_div_right _ _ (by omega), Nat.div_eq_of_lt hf, Nat.zero_add]
  · rw [Nat.add_mul_mod_self_right, Nat.mod_eq_of_lt hf]

theorem written_destination (hk : k < H) (hf : f < rowBytes W) :
    written start pixels W H (destination W H k f) =
      if f < 3 * W then component (pixels.getD (k * W + f / 3) 0) (f % 3) else 255 := by
  obtain ⟨hrow, hbyte⟩ := @destination_split W H k f hf
  have hheader : ¬destination W H k f < 54 := by
    unfold destination
    omega
  have hback : H - 1 - (H - 1 - k) = k := by omega
  unfold written
  rw [if_neg hheader, hrow, hbyte, hback]

/-- One more byte. -/
theorem WrittenTo.put (hk : k < H) (hf : f < rowBytes W) (h : WrittenTo start pixels W H k f buffer) :
    WrittenTo start pixels W H k (f + 1)
      (buffer.set (destination W H k f) (written start pixels W H (destination W H k f))) := by
  have hlt := destination_lt hk hf
  refine ⟨by rw [List.length_set, h.length], h.agrees.set (by rw [h.length]; exact hlt) rfl ?_⟩
  rintro p (hp | ⟨hp, hbefore⟩)
  · exact Or.inl (Or.inl hp)
  rcases hbefore with hrow | ⟨hrow, hbyte⟩
  · exact Or.inl (Or.inr ⟨hp, Or.inl hrow⟩)
  rcases Nat.lt_succ_iff_lt_or_eq.mp hbyte with hlt' | heq
  · exact Or.inl (Or.inr ⟨hp, Or.inr ⟨hrow, hlt'⟩⟩)
  by_cases hheader : p < 54
  · exact Or.inl (Or.inl hheader)
  apply Or.inr
  have hline : (p - 54) / rowBytes W < H := Nat.div_lt_of_lt_mul (by
    rw [Nat.mul_comm]
    omega)
  have hback : (p - 54) / rowBytes W = H - 1 - k := by omega
  have hsplit := Nat.div_add_mod (p - 54) (rowBytes W)
  rw [hback, heq, Nat.mul_comm] at hsplit
  unfold destination
  omega

/-- The end of a row is the start of the next one. -/
theorem WrittenTo.next (hW : 0 < W) (h : WrittenTo start pixels W H k (rowBytes W) buffer) :
    WrittenTo start pixels W H (k + 1) 0 buffer := by
  refine ⟨h.length, h.agrees.mono ?_⟩
  rintro p (hp | ⟨hp, hbefore⟩)
  · exact Or.inl hp
  · have hbyte : (p - 54) % rowBytes W < rowBytes W := Nat.mod_lt _ (by
      unfold rowBytes
      omega)
    exact Or.inr ⟨hp, by omega⟩

end Written

/-! ## The loops of `create` -/

section Loops

variable {pixels : List (BitVec 32)} {start : List Byte} {W H k x : Nat} {s : Writing}

/-- The index of a pixel in the file. -/
theorem destination_eq (hsize : 54 + H * rowBytes W < 2 ^ 31) (hk : k < H) (hx : 3 * x ≤ rowBytes W) :
    toInt32 (toInt32 (dataOffset + toInt32 ((((H - 1 - k : Nat) : Int)) * rowBytes W)) +
      toInt32 ((x : Int) * 3)) = destination W H k (3 * x) := by
  have hrow := @destination_row W H k hk
  have hoffset : ((H - 1 - k : Nat) : Int) * rowBytes W = (((H - 1 - k) * rowBytes W : Nat) : Int) :=
    (Nat.cast_mul _ _).symm
  have hcolumn : (x : Int) * 3 = ((3 * x : Nat) : Int) := by omega
  unfold destination at hrow ⊢
  have hstart : dataOffset + (((H - 1 - k) * rowBytes W : Nat) : Int) =
      ((54 + (H - 1 - k) * rowBytes W : Nat) : Int) := by
    rw [dataOffset]
    omega
  rw [hoffset, hcolumn, toInt32_of_nat (by omega), hstart, toInt32_of_nat (by omega),
    toInt32_of_nat (by omega), ← Nat.cast_add, toInt32_of_nat (by omega)]

/-- One more pixel. -/
theorem writePixel_ok (hsize : 54 + H * rowBytes W < 2 ^ 31) (hlength : pixels.length = W * H)
    (hk : k < H) (hx : x < W) (hi : s.i = k * W + x)
    (h : WrittenTo start pixels W H k (3 * x) s.buffer) :
    ∃ s', writePixel pixels (rowBytes W) ((H - 1 - k : Nat) : Int) x s = .ok s' ∧
      s'.i = k * W + (x + 1) ∧ WrittenTo start pixels W H k (3 * (x + 1)) s'.buffer := by
  have hrow : 3 * x + 2 < rowBytes W := by
    unfold rowBytes
    omega
  have hpixel : k * W + x < pixels.length := by
    rw [hlength]
    exact index_lt hk hx
  have hlt := @destination_lt W H k (3 * x + 2) hk hrow
  -- A pixel is three bytes of the row, from blue to red, and its alpha is not written.
  have hcomponent : ∀ c < 3, written start pixels W H (destination W H k (3 * x + c)) =
      component (pixels.getD (k * W + x) 0) c := by
    intro c hc
    have hdiv : (3 * x + c) / 3 = x := by omega
    have hmod : (3 * x + c) % 3 = c := by omega
    rw [written_destination hk (by omega), if_pos (by omega), hdiv, hmod]
  have hindex : ∀ c : Nat, c < 3 → toInt32 ((destination W H k (3 * x) : Int) + c) =
      (destination W H k (3 * x + c) : Nat) := by
    intro c hc
    unfold destination at hlt ⊢
    unfold toInt32
    omega
  have hi₁ := hindex 1 (by omega)
  have hi₂ := hindex 2 (by omega)
  rw [Nat.cast_one] at hi₁
  rw [Nat.cast_ofNat] at hi₂
  have hb := h.put hk (by omega)
  have hg := hb.put hk (by omega)
  have hr := hg.put hk (by omega)
  have hc₀ := hcomponent 0 (by omega)
  rw [Nat.add_zero] at hc₀
  rw [hc₀, component_zero] at hb hg hr
  rw [hcomponent 1 (by omega), component_one] at hg hr
  rw [show 3 * x + 1 + 1 = 3 * x + 2 by omega, hcomponent 2 (by omega), component_two] at hr
  refine ⟨⟨s.i + 1, _⟩, ?_, by rw [hi, Nat.add_assoc], hr⟩
  have hget : pixels[s.i]? = some (pixels.getD (k * W + x) 0) := by
    rw [hi, List.getElem?_eq_getElem hpixel]
    simp [hpixel]
  unfold writePixel
  rw [destination_eq hsize hk (by omega), hget]
  dsimp only
  have hlt₀ := @destination_lt W H k (3 * x) hk (by omega)
  have hlt₁ := @destination_lt W H k (3 * x + 1) hk (by omega)
  rw [hi₁, hi₂, ok_bind, put_ok (hlt₀.trans_eq h.length.symm), ok_bind,
    put_ok (hlt₁.trans_eq hb.length.symm), ok_bind, put_ok (hlt.trans_eq hg.length.symm), ok_bind]
  rfl

/-- The bytes that fill up a row. -/
theorem fill_ok (hk : k < H) {buffer : List Byte}
    (h : WrittenTo start pixels W H k (3 * W) buffer) :
    ∃ buffer', forUp (destination W H k (3 * W)) (destination W H k (3 * W) + (W % 4 : Nat))
        (fun j b => put b j 255) buffer = .ok buffer' ∧
      WrittenTo start pixels W H k (rowBytes W) buffer' := by
  obtain ⟨buffer', hbuffer', hwritten⟩ := @forUp_returns BitmapException _
    (fun (j : Int) (b : List Byte) => WrittenTo start pixels W H k
      (3 * W + (j - destination W H k (3 * W)).toNat) b)
    (destination W H k (3 * W)) (destination W H k (3 * W) + (W % 4 : Nat)) (fun j b => put b j 255)
    buffer (by omega) (by
      intro j b hj₀ hj₁ hb
      obtain ⟨c, rfl⟩ : ∃ c : Nat, j = ((destination W H k (3 * W) + c : Nat) : Int) :=
        ⟨(j - destination W H k (3 * W)).toNat, by omega⟩
      have hc : c < W % 4 := by omega
      have hbyte : 3 * W + c < rowBytes W := by
        unfold rowBytes
        omega
      have hindex : destination W H k (3 * W) + c = destination W H k (3 * W + c) := by
        unfold destination
        omega
      have hnow : (((destination W H k (3 * W) + c : Nat) : Int) -
          destination W H k (3 * W)).toNat = c := by omega
      have hnext : (((destination W H k (3 * W) + c : Nat) : Int) + 1 -
          destination W H k (3 * W)).toNat = c + 1 := by omega
      rw [hnow] at hb
      have hnew := hb.put hk hbyte
      rw [written_destination hk hbyte, if_neg (by omega)] at hnew
      rw [hnext, hindex]
      exact ⟨_, put_ok ((destination_lt hk hbyte).trans_eq hb.length.symm), hnew⟩) (by
      rw [sub_self, Int.toNat_zero, Nat.add_zero]
      exact h)
  refine ⟨buffer', hbuffer', ?_⟩
  have hend : ((destination W H k (3 * W) : Int) + (W % 4 : Nat) - destination W H k (3 * W)).toNat =
      W % 4 := by omega
  rw [hend] at hwritten
  exact hwritten

/-- A row. -/
theorem writeRow_ok (hW : 0 < W) (hsize : 54 + H * rowBytes W < 2 ^ 31)
    (hlength : pixels.length = W * H) (hk : k < H) (hi : s.i = k * W)
    (h : WrittenTo start pixels W H k 0 s.buffer) :
    ∃ s', writeRow pixels W (W % 4 : Nat) (rowBytes W) ((H - 1 - k : Nat) : Int) s = .ok s' ∧
      s'.i = (k + 1) * W ∧ WrittenTo start pixels W H (k + 1) 0 s'.buffer := by
  obtain ⟨t, ht, hi', hwritten⟩ := @forUp_returns _ _
    (fun (x : Int) (s : Writing) => s.i = k * W + x.toNat ∧
      WrittenTo start pixels W H k (3 * x.toNat) s.buffer)
    0 W (writePixel pixels (rowBytes W) ((H - 1 - k : Nat) : Int)) s (by omega) (by
      intro x s hx₀ hx₁ hs
      obtain ⟨x, rfl⟩ := Int.eq_ofNat_of_zero_le hx₀
      have hnext : ((x : Int) + 1).toNat = x + 1 := by omega
      rw [Int.toNat_natCast] at hs
      rw [hnext]
      exact writePixel_ok hsize hlength hk (by omega) hs.1 hs.2) ⟨hi, h⟩
  rw [Int.toNat_natCast] at hi' hwritten
  obtain ⟨buffer, hbuffer, hrow⟩ := fill_ok hk hwritten
  refine ⟨{ t with buffer }, ?_, ?_, hrow.next hW⟩
  · unfold writeRow
    have hrow := @destination_row W H k hk
    have hend : toInt32 ((destination W H k (3 * W) : Int) + (W % 4 : Nat)) =
        (destination W H k (3 * W) : Int) + (W % 4 : Nat) := by
      rw [← Nat.cast_add]
      apply toInt32_of_nat
      unfold destination at hrow ⊢
      rw [rowBytes] at hrow hsize ⊢
      omega
    have hstart : 3 * W ≤ rowBytes W := Nat.le_add_right _ _
    rw [ht, ok_bind, destination_eq hsize hk hstart]
    dsimp only
    rw [hend, hbuffer, ok_bind]
    rfl
  · rw [Nat.add_mul, Nat.one_mul]
    exact hi'

end Loops

/-! ## `create` -/

section Create

variable {bitmap : Bitmap}

theorem length_header (width height imageSize : Int) :
    (header width height imageSize).length = 54 := by
  simp [header]

/-- A row takes at most four bytes for each pixel. -/
theorem rowBytes_le (W : Nat) : rowBytes W ≤ 4 * W := by
  unfold rowBytes
  omega

theorem rowBytes_eq {W : Nat} (h : rowBytes W < 2 ^ 31) :
    toInt32 (toInt32 (3 * (W : Int)) + (W : Int).tmod 4) = rowBytes W := by
  rw [Int.tmod_eq_emod_of_nonneg (by omega)]
  unfold rowBytes at h ⊢
  unfold toInt32
  omega

theorem getPixels_ok (h : 4 * (bitmap.width * bitmap.height) < 2 ^ 31) :
    getPixels bitmap = .ok bitmap.pixels := by
  have hcast : (bitmap.width : Int) * bitmap.height = ((bitmap.width * bitmap.height : Nat) : Int) :=
    (Nat.cast_mul _ _).symm
  rw [getPixels, hcast, toInt32_of_nat (by omega), if_neg (by omega), if_neg (by omega)]

/-- What `create` does, with the numbers of the header worked out. -/
theorem create_eq (hsize : 4 * (bitmap.width * bitmap.height) < 2 ^ 31) :
    create bitmap = (do
      let buffer ← allocate (toInt32 (54 + (bitmap.height * rowBytes bitmap.width : Nat)))
      let buffer ← putHeader buffer bitmap.width bitmap.height
        (bitmap.height * rowBytes bitmap.width : Nat)
      let s ← forUp 0 bitmap.height (fun k => writeRow bitmap.pixels bitmap.width
        (bitmap.width % 4 : Nat) (rowBytes bitmap.width) (((bitmap.height - 1 : Nat) : Int) - k))
        ⟨0, buffer⟩
      return s.buffer) := by
  have hheight := bitmap.height_lt
  have hpos := bitmap.height_pos
  have hwidth : 4 * bitmap.width ≤ 4 * (bitmap.width * bitmap.height) :=
    Nat.mul_le_mul_left 4 (Nat.le_mul_of_pos_right _ hpos)
  have hrow := rowBytes_le bitmap.width
  have himage : bitmap.height * rowBytes bitmap.width ≤ 4 * (bitmap.width * bitmap.height) := by
    calc bitmap.height * rowBytes bitmap.width ≤ bitmap.height * (4 * bitmap.width) :=
          Nat.mul_le_mul_left _ hrow
      _ = 4 * (bitmap.width * bitmap.height) := by ring
  have hlast : toInt32 ((bitmap.height : Int) - 1) = ((bitmap.height - 1 : Nat) : Int) := by
    unfold toInt32
    omega
  have hend : ((bitmap.height - 1 : Nat) : Int) + 1 = bitmap.height := by omega
  have hextra : (bitmap.width : Int).tmod 4 = (bitmap.width % 4 : Nat) := by
    rw [Int.tmod_eq_emod_of_nonneg (by omega)]
    omega
  unfold create
  rw [getPixels_ok hsize, ok_bind]
  dsimp only
  rw [rowBytes_eq (by omega), hlast, ← Nat.cast_mul, toInt32_of_nat (by omega), hextra]
  unfold forDown
  rw [hend]
  rfl

/-- A bitmap that fits is written. -/
theorem create_ok (hsize : 4 * (bitmap.width * bitmap.height) < 2 ^ 31)
    (hfile : 54 + bitmap.height * rowBytes bitmap.width < 2 ^ 31) :
    ∃ data, create bitmap = .ok data ∧
      WrittenTo (header bitmap.width bitmap.height (bitmap.height * rowBytes bitmap.width : Nat))
        bitmap.pixels bitmap.width bitmap.height bitmap.height 0 data := by
  have hstart : (54 : Int) + (bitmap.height * rowBytes bitmap.width : Nat) =
      ((54 + bitmap.height * rowBytes bitmap.width : Nat) : Int) := by omega
  rw [create_eq hsize, hstart, toInt32_of_nat hfile, allocate, if_neg (by omega), ok_bind,
    Int.toNat_natCast, putHeader, if_neg (by simp), ok_bind]
  obtain ⟨s, hs, -, hwritten⟩ := @forUp_returns BitmapException Writing
    (fun (k : Int) (s : Writing) => s.i = k.toNat * bitmap.width ∧
      WrittenTo (header bitmap.width bitmap.height (bitmap.height * rowBytes bitmap.width : Nat))
        bitmap.pixels bitmap.width bitmap.height k.toNat 0 s.buffer)
    0 bitmap.height (fun k => writeRow bitmap.pixels bitmap.width
        (bitmap.width % 4 : Nat) (rowBytes bitmap.width) (((bitmap.height - 1 : Nat) : Int) - k))
    ⟨0, header bitmap.width bitmap.height (bitmap.height * rowBytes bitmap.width : Nat) ++
      (List.replicate (54 + bitmap.height * rowBytes bitmap.width) 0).drop 54⟩ (by omega) (by
      intro k s hk₀ hk₁ hs
      obtain ⟨k, rfl⟩ := Int.eq_ofNat_of_zero_le hk₀
      have hk : k < bitmap.height := by omega
      have hnext : ((k : Int) + 1).toNat = k + 1 := by omega
      have hline : ((bitmap.height - 1 : Nat) : Int) - k = ((bitmap.height - 1 - k : Nat) : Int) := by
        omega
      rw [Int.toNat_natCast] at hs
      rw [hnext, hline]
      exact writeRow_ok bitmap.width_pos hfile bitmap.length_eq hk hs.1 hs.2) (by
      refine ⟨by simp, by simp [length_header], ?_⟩
      rintro p (hp | ⟨-, hp⟩)
      · have hheader : p < (header bitmap.width bitmap.height
            (bitmap.height * rowBytes bitmap.width : Nat)).length := by
          rw [length_header]
          exact hp
        rw [List.getElem?_append_left hheader, written, if_pos hp, List.getElem?_eq_getElem hheader,
          List.getD_eq_getElem?_getD, List.getElem?_eq_getElem hheader, Option.getD_some]
      · simp at hp)
  rw [hs, ok_bind]
  rw [Int.toNat_natCast] at hwritten
  exact ⟨s.buffer, rfl, hwritten⟩

end Create

/-! ## What is written is read -/

section RoundTrip

variable {pixels : List (BitVec 32)} {start data : List Byte} {W H r x k : Nat} {s : Reading}

theorem byte_bit {pixel : BitVec 32} {a i : Nat} (ha : a ≤ i) (hi : i < a + 8) :
    (pixel.extractLsb' a 8).getLsbD (i - a) = pixel.getLsbD i := by
  have hsum : a + (i - a) = i := by omega
  have hlt : i - a < 8 := by omega
  rw [BitVec.getLsbD_extractLsb', hsum]
  simp [hlt]

theorem argb_parts (pixel : BitVec 32) :
    alpha pixel ++ red pixel ++ green pixel ++ blue pixel = pixel := by
  apply BitVec.eq_of_getLsbD_eq
  intro i hi
  unfold alpha red green blue
  simp only [BitVec.getLsbD_append, Nat.sub_sub]
  split_ifs with h₁ h₂ h₃
  · exact @byte_bit pixel 0 i (by omega) (by omega)
  · exact byte_bit (by omega) (by omega)
  · exact byte_bit (by omega) (by omega)
  · exact byte_bit (by omega) (by omega)

/-- The colour of a pixel. -/
def colorOf (pixel : BitVec 32) : Color := (red pixel, green pixel, blue pixel)

/-- The colours in a file that has been written. -/
theorem WrittenTo.colorAt_eq (h : WrittenTo start pixels W H H 0 data) (hr : r < H) (hx : x < W) :
    colorAt data W r x = colorOf (pixels.getD ((H - 1 - r) * W + x) 0) := by
  have hk : H - 1 - r < H := by omega
  have hback : H - 1 - (H - 1 - r) = r := by omega
  have hrow : 3 * x + 2 < rowBytes W := by
    unfold rowBytes
    omega
  have hbyte : ∀ c < 3, data.getD (source W r x + c) 0 =
      component (pixels.getD ((H - 1 - r) * W + x) 0) c := by
    intro c hc
    have hdestination : source W r x + c = destination W H (H - 1 - r) (3 * x + c) := by
      unfold source destination
      rw [hback, Nat.add_assoc]
    have hlt := @destination_lt W H (H - 1 - r) (3 * x + c) hk (by omega)
    have hat : WrittenAt W H H 0 (destination W H (H - 1 - r) (3 * x + c)) :=
      Or.inr ⟨hlt, Or.inl (Nat.lt_of_le_of_lt (Nat.sub_le _ _) (by omega))⟩
    have hdiv : (3 * x + c) / 3 = x := by omega
    have hmod : (3 * x + c) % 3 = c := by omega
    rw [hdestination, List.getD_eq_getElem?_getD, h.agrees _ hat, Option.getD_some,
      written_destination hk (by omega), if_pos (by omega), hdiv, hmod]
  unfold colorAt colorOf
  rw [hbyte 2 (by omega), hbyte 1 (by omega)]
  have hblue := hbyte 0 (by omega)
  rw [Nat.add_zero] at hblue
  rw [hblue]
  rfl

/-- The pixel that is made of the colour in the file. -/
theorem ReadTo.argb_eq {invertY : Bool} (h : ReadTo data W H invertY H 0 s) (hk : k < W * H) :
    argb s.pixels k = (255 : Byte) ++ (colorAt data W (lineAt invertY H (k / W)) (k % W)).1 ++
      (colorAt data W (lineAt invertY H (k / W)) (k % W)).2.1 ++
      (colorAt data W (lineAt invertY H (k / W)) (k % W)).2.2 := by
  have hline : k / W < H := Nat.div_lt_of_lt_mul hk
  have hW : 0 < W := Nat.pos_of_mul_pos_right (Nat.zero_lt_of_lt hk)
  have hcolumn : k % W < W := Nat.mod_lt _ hW
  have hindex : lineAt invertY H (lineAt invertY H (k / W)) * W + k % W = k := by
    rw [lineAt_lineAt hline, Nat.mul_comm]
    exact Nat.div_add_mod k W
  have hbyte : ∀ c < 4, s.pixels.getD (4 * k + c) 0 = target data W H invertY (4 * k + c) := by
    intro c hc
    have hknown : Known W H invertY H 0 (4 * k + c) := by
      refine ⟨by omega, Or.inl (lineAt_lt ?_)⟩
      have hdiv : (4 * k + c) / 4 = k := by omega
      rw [hdiv]
      exact hline
    rw [List.getD_eq_getElem?_getD, h.agrees _ hknown, Option.getD_some]
  have htarget : ∀ c < 4, target data W H invertY (4 * k + c) =
      if c = 0 then (colorAt data W (lineAt invertY H (k / W)) (k % W)).1
      else if c = 1 then (colorAt data W (lineAt invertY H (k / W)) (k % W)).2.1
      else if c = 2 then (colorAt data W (lineAt invertY H (k / W)) (k % W)).2.2
      else 255 := by
    intro c hc
    have hpixel := @target_pixel data W H _ _ invertY c (@lineAt_lt H _ invertY hline) hcolumn hc
    rw [hindex] at hpixel
    exact hpixel
  unfold argb
  have hred := hbyte 0 (by omega)
  rw [htarget 0 (by omega), Nat.add_zero] at hred
  rw [hbyte 3 (by omega), hbyte 2 (by omega), hbyte 1 (by omega), hred, htarget 3 (by omega),
    htarget 2 (by omega), htarget 1 (by omega)]
  rfl

/-- The header of a file that has been written. -/
theorem WrittenTo.take_header (hstart : start.length = 54) (h : WrittenTo start pixels W H k 0 data) :
    data.take 54 = start := by
  apply List.ext_getElem?
  intro p
  rcases Nat.lt_or_ge p 54 with hp | hp
  · rw [List.getElem?_take_of_lt hp, h.agrees p (Or.inl hp), written, if_pos hp,
      List.getD_eq_getElem?_getD, List.getElem?_eq_getElem (by omega), Option.getD_some]
  · rw [List.getElem?_eq_none (by simp; omega), List.getElem?_eq_none (by omega)]

theorem field_take {position n : Nat} (h : position + n ≤ 54) :
    field data position n = field (data.take 54) position n := by
  unfold field
  rw [List.drop_take, List.take_take, min_eq_left (by omega)]

/-- A field of the header. -/
theorem field_of_append (before : List Byte) {after : List Byte} {n : Nat} {v : Int}
    (h : start = before ++ toBytes n v ++ after) : field start before.length n = ofBytes (toBytes n v) := by
  unfold field
  rw [h, List.append_assoc, List.drop_left, List.take_left' (length_toBytes n v)]

theorem header_fields (width height imageSize : Int) :
    field (header width height imageSize) 0 2 = ofBytes (toBytes 2 0x4d42) ∧
    field (header width height imageSize) 2 4 = ofBytes (toBytes 4 (dataOffset + imageSize)) ∧
    field (header width height imageSize) 18 4 = ofBytes (toBytes 4 width) ∧
    field (header width height imageSize) 22 4 = ofBytes (toBytes 4 height) := by
  refine ⟨?_, ?_, ?_, ?_⟩
  · apply field_of_append []
    simp only [header, List.append_assoc, List.nil_append]
    rfl
  · apply field_of_append (toBytes 2 0x4d42)
    simp only [header, List.append_assoc]
    rfl
  · apply field_of_append (toBytes 2 0x4d42 ++ toBytes 4 (dataOffset + imageSize) ++
      toBytes 4 0 ++ toBytes 4 dataOffset ++ toBytes 4 40)
    simp only [header, List.append_assoc]
    rfl
  · apply field_of_append (toBytes 2 0x4d42 ++ toBytes 4 (dataOffset + imageSize) ++
      toBytes 4 0 ++ toBytes 4 dataOffset ++ toBytes 4 40 ++ toBytes 4 width)
    simp only [header, List.append_assoc]
    rfl

end RoundTrip

/-! ## Bitmaps -/

section Bitmaps

variable {bitmap : Bitmap}

/-- Every pixel is opaque. -/
def Opaque (bitmap : Bitmap) : Prop := ∀ pixel ∈ bitmap.pixels, alpha pixel = 255

/-- The pixels are not all equal. -/
def Varied (bitmap : Bitmap) : Prop := ∃ pixel ∈ bitmap.pixels, ∃ other ∈ bitmap.pixels, pixel ≠ other

/-- The buffer for the pixels and the file are not larger than an array. -/
def Fits (bitmap : Bitmap) : Prop :=
  4 * (bitmap.width * bitmap.height) < 2 ^ 31 ∧
    54 + bitmap.height * (3 * bitmap.width + bitmap.width % 4) < 2 ^ 31

theorem bitmap_ext {a b : Bitmap} (hwidth : a.width = b.width) (hheight : a.height = b.height)
    (hpixels : a.pixels = b.pixels) : a = b := by
  cases a
  cases b
  simp_all

theorem eq_of_colorOf {p q : BitVec 32} (hp : alpha p = 255) (hq : alpha q = 255)
    (h : colorOf p = colorOf q) : p = q := by
  unfold colorOf at h
  rw [Prod.mk.injEq, Prod.mk.injEq] at h
  rw [← argb_parts p, ← argb_parts q, hp, hq, h.1, h.2.1, h.2.2]

theorem colorAt_pixel {data start : List Byte} {k : Nat}
    (hwritten : WrittenTo start bitmap.pixels bitmap.width bitmap.height bitmap.height 0 data)
    (hk : k < bitmap.width * bitmap.height) :
    colorAt data bitmap.width (lineAt true bitmap.height (k / bitmap.width)) (k % bitmap.width) =
      colorOf (bitmap.pixels.getD k 0) := by
  have hline : k / bitmap.width < bitmap.height := Nat.div_lt_of_lt_mul hk
  have hback : bitmap.height - 1 - lineAt true bitmap.height (k / bitmap.width) =
      k / bitmap.width := by
    rw [lineAt, if_pos rfl]
    generalize k / bitmap.width = line at hline
    omega
  rw [hwritten.colorAt_eq (lineAt_lt hline) (Nat.mod_lt _ bitmap.width_pos), hback, Nat.mul_comm,
    Nat.div_add_mod]

/-- Every pixel of a varied bitmap has not the first colour of the file. -/
theorem varied_color {data start : List Byte} {c : Color} (hsolid : Opaque bitmap)
    (hvaried : Varied bitmap)
    (hwritten : WrittenTo start bitmap.pixels bitmap.width bitmap.height bitmap.height 0 data) :
    ¬∀ r x, r < bitmap.height → x < bitmap.width → colorAt data bitmap.width r x = c := by
  intro hall
  have hcolor : ∀ pixel ∈ bitmap.pixels, colorOf pixel = c := by
    intro pixel hpixel
    obtain ⟨k, hk, rfl⟩ := List.mem_iff_getElem.mp hpixel
    have hk' : k < bitmap.width * bitmap.height := bitmap.length_eq ▸ hk
    have hat := colorAt_pixel hwritten hk'
    rw [hall _ _ (lineAt_lt (Nat.div_lt_of_lt_mul hk')) (Nat.mod_lt _ bitmap.width_pos)] at hat
    rw [hat, List.getD_eq_getElem?_getD, List.getElem?_eq_getElem hk, Option.getD_some]
  obtain ⟨p, hp, q, hq, hne⟩ := hvaried
  apply hne
  apply eq_of_colorOf (hsolid p hp) (hsolid q hq)
  rw [hcolor p hp, hcolor q hq]

/-- The header that is written is read. -/
theorem openFile_written {data : List Byte} (hfile : 54 + bitmap.height * rowBytes bitmap.width < 2 ^ 31)
    (hwritten : WrittenTo
      (header bitmap.width bitmap.height (bitmap.height * rowBytes bitmap.width : Nat))
      bitmap.pixels bitmap.width bitmap.height bitmap.height 0 data) :
    openFile data = readBitmap data bitmap.width bitmap.height := by
  have hW' := bitmap.width_lt
  have hH' := bitmap.height_lt
  have hlength : 54 ≤ data.length := by
    rw [hwritten.length]
    exact Nat.le_add_right _ _
  obtain ⟨hmagic, hsize, hwidth, hheight⟩ := header_fields bitmap.width bitmap.height
    (bitmap.height * rowBytes bitmap.width : Nat)
  rw [← hwritten.take_header (length_header _ _ _), ← field_take (by omega)] at hmagic hsize hwidth hheight
  have hshort : toShort (field data 0 2) = 0x4d42 := by
    rw [hmagic]
    decide
  have hint : toInt32 (field data 2 4) = (data.length : Int) := by
    rw [hsize, ofBytes_toInt32, hwritten.length, dataOffset]
    · push_cast
      rfl
    · rw [dataOffset]
      omega
    · rw [dataOffset]
      omega
  rw [openFile_header hlength hshort hint.le, hwidth, hheight]
  rw [ofBytes_toInt32 (by omega) (by omega), ofBytes_toInt32 (by omega) (by omega)]

/-- A bitmap that fits is read as it was written. -/
theorem roundTrip (hsolid : Opaque bitmap) (hvaried : Varied bitmap) (hfits : Fits bitmap) :
    (create bitmap >>= openFile) = .ok (some bitmap) := by
  obtain ⟨hsize, hfile⟩ := hfits
  obtain ⟨data, hdata, hwritten⟩ := create_ok hsize hfile
  have hW := bitmap.width_pos
  have hH := bitmap.height_pos
  have hlength := hwritten.length
  rw [hdata, ok_bind, openFile_written hfile hwritten]
  have hsource : 54 + (bitmap.height - 1) * rowBytes bitmap.width + 3 * bitmap.width ≤ data.length := by
    have hrow : (bitmap.height - 1) * rowBytes bitmap.width + rowBytes bitmap.width =
        bitmap.height * rowBytes bitmap.width := by
      calc (bitmap.height - 1) * rowBytes bitmap.width + rowBytes bitmap.width =
            (bitmap.height - 1 + 1) * rowBytes bitmap.width := by ring
        _ = bitmap.height * rowBytes bitmap.width := by rw [Nat.sub_add_cancel hH]
    have hcolumns : 3 * bitmap.width ≤ rowBytes bitmap.width := Nat.le_add_right _ _
    omega
  obtain ⟨s, hs, hread⟩ := @readBitmap_fits data bitmap.width bitmap.height bitmap.height hW hH
    (Nat.abs_cast _) hsize hsource
  have hinvert : decide ((0 : Int) ≤ bitmap.height) = true := by simp
  rw [hinvert] at hs
  -- Two colours differ somewhere, so the reader does not take the bitmap for a blank one.
  have hblank : ¬s.blank = true := by
    intro hblank
    apply varied_color hsolid hvaried hwritten
    intro r x hr hx
    exact hs.blank.mp hblank r x hx (Or.inl hr)
  obtain ⟨result, hresult, hwidth', hheight', hpixels⟩ := createBitmap_ok hW hH hsize hs.length
  rw [hread, if_neg hblank, hresult]
  have heq : result = bitmap := by
    apply bitmap_ext hwidth' hheight'
    rw [hpixels]
    apply List.ext_getElem
    · simp [bitmap.length_eq]
    · intro k hk hk'
      have hlt : k < bitmap.width * bitmap.height := bitmap.length_eq ▸ hk'
      have hget : bitmap.pixels.getD k 0 = bitmap.pixels[k] := by
        rw [List.getD_eq_getElem?_getD, List.getElem?_eq_getElem hk', Option.getD_some]
      have hparts := argb_parts bitmap.pixels[k]
      rw [hsolid _ (List.getElem_mem hk')] at hparts
      rw [List.getElem_map, List.getElem_range, hs.argb_eq hlt, colorAt_pixel hwritten hlt, hget]
      exact hparts
  rw [heq]
  rfl

/-- A bitmap comes from behind a whole header. -/
theorem openFile_eq_some {data : List Byte} (h : openFile data = .ok (some bitmap)) :
    readBitmap data (toInt32 (field data 18 4)) (toInt32 (field data 22 4)) = .ok (some bitmap) := by
  have hopen := h
  unfold openFile at h
  rw [bind_eq_ok] at h
  obtain ⟨magic, hmagic, h⟩ := h
  have hshort := getShort_eq_ok hmagic
  rw [getShort_ok hshort] at hmagic
  rw [← Except.ok.inj hmagic] at h
  clear hmagic
  by_cases hmagic : toShort (field data 0 2) = 0x4d42
  swap
  · rw [if_pos hmagic] at h
    cases h
  rw [if_neg (by simpa using hmagic), bind_eq_ok] at h
  obtain ⟨size, hsize, h⟩ := h
  have hsix := getInt_eq_ok hsize
  rw [getInt_ok hsix] at hsize
  rw [← Except.ok.inj hsize] at h
  clear hsize
  by_cases hsize : (data.length : Int) < toInt32 (field data 2 4)
  · rw [if_pos hsize] at h
    cases h
  have hlength := header_length hopen hmagic (not_lt.mp hsize) hsix
  have hheader := openFile_header hlength hmagic (not_lt.mp hsize)
  rw [hheader] at hopen
  exact hopen

/-- A bitmap has the width and the height of the header. -/
theorem readBitmap_eq_some {data : List Byte} {width height : Int} (h₀ : -2 ^ 31 ≤ height)
    (h : readBitmap data width height = .ok (some bitmap)) :
    (bitmap.width : Int) = width ∧ (bitmap.height : Int) = |height| := by
  unfold readBitmap at h
  by_cases hzero : width = 0 ∨ height = 0
  · rw [if_pos hzero] at h
    cases h
  rw [if_neg hzero] at h
  dsimp only at h
  rw [bind_eq_ok] at h
  obtain ⟨pixels, -, h⟩ := h
  rw [bind_eq_ok] at h
  obtain ⟨s, -, h⟩ := h
  by_cases hblank : s.blank = true
  · rw [if_pos hblank] at h
    cases h
  rw [if_neg hblank, bind_eq_ok] at h
  obtain ⟨result, hresult, h⟩ := h
  cases h
  obtain ⟨hwidth, hheight⟩ := createBitmap_eq_ok hresult
  refine ⟨hwidth, ?_⟩
  have hpos := bitmap.height_pos
  by_cases hneg : height < 0
  · rw [if_pos hneg] at hheight
    rw [hheight, abs_of_neg hneg]
    unfold toInt32 at hheight ⊢
    omega
  · rw [if_neg hneg] at hheight
    rw [hheight]
    exact (abs_of_nonneg (by omega)).symm

/-- A bitmap that is read after it was written fits. -/
theorem fits_of_roundTrip (h : (create bitmap >>= openFile) = .ok (some bitmap)) : Fits bitmap := by
  rw [bind_eq_ok] at h
  obtain ⟨data, hdata, hopen⟩ := h
  have hrange := toInt32_range (field data 22 4)
  have hread := openFile_eq_some hopen
  obtain ⟨hwidth, hheight⟩ := readBitmap_eq_some hrange.1 hread
  rw [← hwidth] at hread
  have hsize := (readBitmap_pixels bitmap.width_pos hrange.1 hrange.2 hheight.symm bitmap.height_pos
    hread).1
  refine ⟨hsize, ?_⟩
  by_contra hlarge
  have himage : bitmap.height * rowBytes bitmap.width ≤ 4 * (bitmap.width * bitmap.height) := by
    calc bitmap.height * rowBytes bitmap.width ≤ bitmap.height * (4 * bitmap.width) :=
          Nat.mul_le_mul_left _ (rowBytes_le _)
      _ = 4 * (bitmap.width * bitmap.height) := by ring
  have hnegative : toInt32 (54 + (bitmap.height * rowBytes bitmap.width : Nat)) < 0 := by
    change ¬54 + bitmap.height * rowBytes bitmap.width < 2 ^ 31 at hlarge
    generalize bitmap.height * rowBytes bitmap.width = image at hlarge himage
    generalize 4 * (bitmap.width * bitmap.height) = buffer at hsize himage
    unfold toInt32
    omega
  rw [create_eq hsize, allocate, if_pos hnegative] at hdata
  cases hdata

end Bitmaps

/-! ## All bitmaps and all files -/

/-- An opaque bitmap that is not of one colour is read as it was written exactly when it fits, and a
file is read without an exception exactly when it is readable. -/
theorem bmp_iff (bitmap : Bitmap) (data : List Byte) :
    (Opaque bitmap → Varied bitmap →
      ((create bitmap >>= openFile) = .ok (some bitmap) ↔ Fits bitmap)) ∧
    ((∃ result, openFile data = .ok result) ↔ Readable data) :=
  ⟨fun hsolid hvaried => ⟨fits_of_roundTrip, roundTrip hsolid hvaried⟩, openFile_returns_iff⟩

/-- Two pixels in two rows. -/
def column : Bitmap := ⟨1, 2, [0xff112233, 0xff445566], by decide, by decide, by decide, by decide, by decide⟩

theorem bmp_column : (create column >>= openFile) = .ok (some column) := by
  apply ((bmp_iff column []).1 _ _).mpr
  · constructor <;> norm_num [column]
  · intro pixel hpixel
    fin_cases hpixel <;> rfl
  · exact ⟨0xff112233, by decide, 0xff445566, by decide, by decide⟩

/-- No file of the length zero is read. -/
theorem empty_file_raises :
    ¬∀ data : List Byte, openFile data = .ok none ∨ ∃ bitmap, openFile data = .ok (some bitmap) := by
  intro h
  have hempty : openFile [] = .error .bufferUnderflow := rfl
  rcases h [] with hnone | ⟨bitmap, hsome⟩
  · rw [hempty] at hnone
    cases hnone
  · rw [hempty] at hsome
    cases hsome

end MSBitmap

end XoDos
