import Mathlib

/-!
# The cursor that is shared with the renderer

`lorieSetCursor` publishes the size of a cursor and converts its image into a buffer of fixed size.
Instead of a cursor that is too big for the buffer it converts the root cursor, but publishes the size
of the first.
-/

namespace XoDos

namespace ServerCursor

/-- `BitmapBytePad` -/
def bitmapBytePad (w : Nat) : Nat := ((w + 32 - 1) >>> 5) <<< 2

structure CursorMetric where
  width : BitVec 16
  height : BitVec 16
  xhot : BitVec 16
  yhot : BitVec 16
  deriving DecidableEq

namespace CursorMetric

def area (m : CursorMetric) : Nat := m.width.toNat * m.height.toNat

end CursorMetric

/-- The image of a cursor: two bitmaps with padded rows, or one colour for each pixel. -/
structure CursorBits where
  source : List (BitVec 8)
  mask : List (BitVec 8)
  metric : CursorMetric
  argb : Option (List (BitVec 32))
  source_length : argb = none →
    source.length = metric.height.toNat * bitmapBytePad metric.width.toNat
  mask_length : argb = none →
    mask.length = metric.height.toNat * bitmapBytePad metric.width.toNat
  argb_length : ∀ pixels ∈ argb, pixels.length = metric.area

structure Cursor where
  bits : CursorBits
  foreRed : BitVec 16
  foreGreen : BitVec 16
  foreBlue : BitVec 16
  backRed : BitVec 16
  backGreen : BitVec 16
  backBlue : BitVec 16

/-- The colour of a pixel and where it is stored. -/
abbrev Store := BitVec 32 × Nat

/-- `data` with the pointer behind the last pixel that was written. -/
structure Writer where
  next : Nat
  stores : List Store

namespace Writer

def put (s : Writer) (d : BitVec 32) : Writer := ⟨s.next + 1, s.stores ++ [(d, s.next)]⟩

end Writer

/-- From `bgra` to `rgba`. -/
def swapRedBlue (p : BitVec 32) : BitVec 32 :=
  (p &&& 0xff000000) ||| ((p &&& 0x00ff0000) >>> 16) ||| (p &&& 0x0000ff00) |||
    ((p &&& 0x000000ff) <<< 16)

def packColor (red green blue : BitVec 16) : BitVec 32 :=
  ((blue.setWidth 32 &&& 0xff00) <<< 8) ||| (green.setWidth 32 &&& 0xff00) |||
    (red.setWidth 32 >>> 8)

namespace Cursor

variable (c : Cursor)

def width : Nat := c.bits.metric.width.toNat

def height : Nat := c.bits.metric.height.toNat

def fg : BitVec 32 := packColor c.foreRed c.foreGreen c.foreBlue

def bg : BitVec 32 := packColor c.backRed c.backGreen c.backBlue

/-- The body of the loops over the two bitmaps. -/
def bitmapPixel (y x : Nat) : BitVec 32 :=
  let i := y * bitmapBytePad c.width + x / 8
  let bit : BitVec 8 := 1 <<< (x &&& 7)
  let d := if c.bits.source.getD i 0 &&& bit ≠ 0 then c.fg else c.bg
  if c.bits.mask.getD i 0 &&& bit ≠ 0 then d ||| 0xff000000 else 0

def convertRow (s : Writer) (y : Nat) : Writer :=
  (List.range c.width).foldl (fun s x => s.put (c.bitmapPixel y x)) s

/-- `lorieConvertCursor` -/
def lorieConvertCursor : List Store :=
  match c.bits.argb with
  | some argb => (List.range (c.width * c.height)).map fun i => (swapRedBlue (argb.getD i 0), i)
  | none => ((List.range c.height).foldl c.convertRow ⟨0, []⟩).stores

end Cursor

/-- `cursor` of `lorie_shared_server_state`, without the lock. -/
structure SharedCursor where
  x : BitVec 32
  y : BitVec 32
  xhot : BitVec 32
  yhot : BitVec 32
  width : BitVec 32
  height : BitVec 32
  /-- The memory from `bits` on. -/
  bits : Nat → BitVec 32
  updated : Bool
  moved : Bool

/-- The number of elements of `bits`. -/
def bitsLength : Nat := 512 * 512

namespace SharedCursor

variable (s : SharedCursor)

def store (stores : List Store) : SharedCursor :=
  { s with bits := stores.foldl (fun bits p => Function.update bits p.2 p.1) s.bits }

def publish (m : CursorMetric) : SharedCursor :=
  { s with
    xhot := m.xhot.setWidth 32
    yhot := m.yhot.setWidth 32
    width := m.width.setWidth 32
    height := m.height.setWidth 32 }

/-- `lorieMoveCursor` -/
def lorieMoveCursor (x y : BitVec 32) : SharedCursor := { s with x, y, moved := true }

end SharedCursor

/-- The bits are those of the cursor that was given, also if the root cursor is converted. -/
def lorieSetCursor (rootCursor : Cursor) (s : SharedCursor) (pCurs : Option Cursor)
    (x0 y0 : BitVec 32) : SharedCursor × List Store :=
  match pCurs with
  | some given =>
    let bits := given.bits
    let pCurs := if 512 ≤ given.width ∨ 512 ≤ given.height then rootCursor else given
    let stores := pCurs.lorieConvertCursor
    ({ (s.publish bits.metric).store stores with updated := true }.lorieMoveCursor x0 y0, stores)
  | none => ({ s.publish ⟨0, 0, 0, 0⟩ with updated := true }.lorieMoveCursor x0 y0, [])

/-! ## The image -/

namespace Cursor

variable (c : Cursor)

/-- The colour of the pixel in a column and a row. -/
def color (x y : Nat) : BitVec 32 :=
  match c.bits.argb with
  | some argb => swapRedBlue (argb.getD (y * c.width + x) 0)
  | none => c.bitmapPixel y x

/-- The pixels, row by row. -/
def pixels : List (BitVec 32) :=
  (List.range (c.width * c.height)).map fun i => c.color (i % c.width) (i / c.width)

theorem pixels_length : c.pixels.length = c.bits.metric.area := by
  simp [pixels, CursorMetric.area, width, height]

/-- The first `n` pixels have been written. -/
structure Drawn (n : Nat) (s : Writer) : Prop where
  next : s.next = n
  stores : s.stores =
    ((List.range n).map fun i => c.color (i % c.width) (i / c.width)).zipIdx

variable {c}

theorem Drawn.put {n : Nat} {s : Writer} (h : c.Drawn n s) {d : BitVec 32}
    (hd : d = c.color (n % c.width) (n / c.width)) : c.Drawn (n + 1) (s.put d) := by
  constructor
  · rw [Writer.put, h.next]
  · rw [Writer.put, h.stores, h.next, hd, List.range_succ, List.map_append, List.zipIdx_append]
    simp

/-- One row of the two bitmaps. -/
theorem Drawn.row (h : c.bits.argb = none) {y : Nat} {s : Writer} (hs : c.Drawn (y * c.width) s) :
    c.Drawn ((y + 1) * c.width) (c.convertRow s y) := by
  suffices hrow : ∀ n ≤ c.width,
      c.Drawn (y * c.width + n) ((List.range n).foldl (fun s x => s.put (c.bitmapPixel y x)) s) by
    rw [Nat.succ_mul]
    exact hrow c.width le_rfl
  intro n
  induction n with
  | zero => exact fun _ => hs
  | succ x ih =>
    intro hx
    rw [List.range_succ, List.foldl_append]
    apply (ih (by omega)).put
    have hmod : (y * c.width + x) % c.width = x := by
      rw [Nat.mul_comm, Nat.mul_add_mod, Nat.mod_eq_of_lt hx]
    have hdiv : (y * c.width + x) / c.width = y := by
      rw [Nat.mul_comm, Nat.mul_add_div (by omega), Nat.div_eq_of_lt hx, Nat.add_zero]
    rw [hmod, hdiv, color, h]

/-- Both conversions write the pixels in their order. -/
theorem lorieConvertCursor_eq (c : Cursor) : c.lorieConvertCursor = c.pixels.zipIdx := by
  unfold lorieConvertCursor
  split
  · rename_i argb hargb
    apply List.ext_getElem
    · simp [pixels]
    · intro i hi hi'
      have hsplit : i / c.width * c.width + i % c.width = i := by
        rw [Nat.mul_comm]
        exact Nat.div_add_mod i c.width
      simp [pixels, color, hargb, hsplit]
  · rename_i hargb
    have hrows : ∀ n, c.Drawn (n * c.width) ((List.range n).foldl c.convertRow ⟨0, []⟩) := by
      intro n
      induction n with
      | zero =>
        rw [Nat.zero_mul]
        exact ⟨rfl, rfl⟩
      | succ n ih =>
        rw [List.range_succ, List.foldl_append]
        exact ih.row hargb
    rw [(hrows c.height).stores, pixels, Nat.mul_comm]

end Cursor

/-! ## What the renderer sees -/

/-- The size and the hot spot of a cursor, and all of its pixels. -/
structure Published (r : SharedCursor × List Store) (c : Cursor) : Prop where
  width : r.1.width = c.bits.metric.width.setWidth 32
  height : r.1.height = c.bits.metric.height.setWidth 32
  xhot : r.1.xhot = c.bits.metric.xhot.setWidth 32
  yhot : r.1.yhot = c.bits.metric.yhot.setWidth 32
  stores : r.2 = c.pixels.zipIdx
  bits : ∀ x y, x < c.width → y < c.height → r.1.bits (y * c.width + x) = c.color x y

/-- No cursor is shown. -/
structure Hidden (r : SharedCursor × List Store) : Prop where
  width : r.1.width = 0
  height : r.1.height = 0
  stores : r.2 = []

/-- The image is the given one, or that of the root cursor, and has room in `bits`. -/
structure Consistent (rootCursor : Cursor) (pCurs : Option Cursor) (r : SharedCursor × List Store) :
    Prop where
  area_le : r.1.width.toNat * r.1.height.toNat ≤ bitsLength
  stores_length : r.2.length = r.1.width.toNat * r.1.height.toNat
  image : pCurs = none ∧ Hidden r ∨
    ∃ c, (pCurs = some c ∨ rootCursor = c) ∧ Published r c

/-- A cursor that is too big has room all the same, and the root cursor is as big or looks the same. -/
def Replaceable (rootCursor c : Cursor) : Prop :=
  c.bits.metric.area ≤ bitsLength ∧
    (rootCursor.bits.metric = c.bits.metric ∨ rootCursor.pixels = c.pixels)

/-- The cursor is below the limit in both directions. -/
def Small (c : Cursor) : Prop := c.width < 512 ∧ c.height < 512

section Publication

variable {rootCursor given c : Cursor} {s : SharedCursor} {x0 y0 : BitVec 32}

/-- The cursor that is converted. -/
def converted (rootCursor given : Cursor) : Cursor :=
  if 512 ≤ given.width ∨ 512 ≤ given.height then rootCursor else given

theorem converted_small (h : Small given) : converted rootCursor given = given := by
  have hsmall : ¬(512 ≤ given.width ∨ 512 ≤ given.height) := by
    rw [Small] at h
    omega
  exact if_neg hsmall

theorem converted_large (h : ¬Small given) : converted rootCursor given = rootCursor := by
  have hlarge : 512 ≤ given.width ∨ 512 ≤ given.height := by
    rw [Small] at h
    omega
  exact if_pos hlarge

theorem stores_eq : (lorieSetCursor rootCursor s (some given) x0 y0).2 =
    (converted rootCursor given).pixels.zipIdx :=
  Cursor.lorieConvertCursor_eq _

theorem size_eq : (lorieSetCursor rootCursor s (some given) x0 y0).1.width.toNat = given.width ∧
    (lorieSetCursor rootCursor s (some given) x0 y0).1.height.toNat = given.height := by
  have hwidth := given.bits.metric.width.isLt
  have hheight := given.bits.metric.height.isLt
  constructor
  · change (given.bits.metric.width.setWidth 32).toNat = given.bits.metric.width.toNat
    rw [BitVec.toNat_setWidth]
    omega
  · change (given.bits.metric.height.setWidth 32).toNat = given.bits.metric.height.toNat
    rw [BitVec.toNat_setWidth]
    omega

/-- Storing a list from a place on. -/
theorem foldl_store (l : List (BitVec 32)) (k : Nat) (bits : Nat → BitVec 32) (i : Nat) :
    (l.zipIdx k).foldl (fun bits p => Function.update bits p.2 p.1) bits i =
      if k ≤ i ∧ i < k + l.length then l.getD (i - k) 0 else bits i := by
  induction l generalizing k bits with
  | nil =>
    rw [if_neg (by simp)]
    rfl
  | cons d l ih =>
    rw [List.zipIdx_cons, List.foldl_cons, ih]
    by_cases hi : i = k
    · rw [if_neg (by omega), if_pos (by simp [hi])]
      simp [hi]
    · by_cases hin : k + 1 ≤ i ∧ i < k + 1 + l.length
      · have hsub : i - k = i - (k + 1) + 1 := by omega
        rw [if_pos hin, if_pos (by simp; omega), hsub, List.getD_cons_succ]
      · rw [if_neg hin, if_neg (by simp; omega)]
        exact Function.update_of_ne hi _ _

theorem pixel_at {x y : Nat} (hx : x < c.width) (hy : y < c.height) :
    y * c.width + x < c.pixels.length ∧ c.pixels.getD (y * c.width + x) 0 = c.color x y := by
  have hlt : y * c.width + x < c.width * c.height := by
    calc y * c.width + x < y * c.width + c.width := by omega
      _ = (y + 1) * c.width := by ring
      _ ≤ c.height * c.width := Nat.mul_le_mul_right _ hy
      _ = c.width * c.height := Nat.mul_comm _ _
  have hmod : (y * c.width + x) % c.width = x := by
    rw [Nat.mul_comm, Nat.mul_add_mod, Nat.mod_eq_of_lt hx]
  have hdiv : (y * c.width + x) / c.width = y := by
    rw [Nat.mul_comm, Nat.mul_add_div (by omega), Nat.div_eq_of_lt hx, Nat.add_zero]
  have hlength : y * c.width + x < c.pixels.length := by
    simpa [Cursor.pixels] using hlt
  apply And.intro hlength
  rw [List.getD_eq_getElem _ _ hlength]
  simp [Cursor.pixels, hmod, hdiv]

/-- A cursor with the size that was given and with the pixels that were converted. -/
theorem published (hmetric : given.bits.metric = c.bits.metric)
    (hpixels : (converted rootCursor given).pixels = c.pixels) :
    Published (lorieSetCursor rootCursor s (some given) x0 y0) c := by
  constructor
  · exact congrArg (fun m : CursorMetric => m.width.setWidth 32) hmetric
  · exact congrArg (fun m : CursorMetric => m.height.setWidth 32) hmetric
  · exact congrArg (fun m : CursorMetric => m.xhot.setWidth 32) hmetric
  · exact congrArg (fun m : CursorMetric => m.yhot.setWidth 32) hmetric
  · rw [stores_eq, hpixels]
  · intro x y hx hy
    obtain ⟨hlt, hcolor⟩ := pixel_at hx hy
    change ((converted rootCursor given).lorieConvertCursor.foldl
      (fun bits p => Function.update bits p.2 p.1) s.bits) _ = _
    rw [Cursor.lorieConvertCursor_eq, hpixels, foldl_store, if_pos (by omega), Nat.sub_zero, hcolor]

theorem Published.pixels_eq (h : Published (lorieSetCursor rootCursor s (some given) x0 y0) c) :
    (converted rootCursor given).pixels = c.pixels := by
  have hfst := congrArg (List.map Prod.fst) (stores_eq.symm.trans h.stores)
  rwa [List.zipIdx_map_fst, List.zipIdx_map_fst] at hfst

theorem setWidth_injective {v w : BitVec 16} (h : v.setWidth 32 = w.setWidth 32) : v = w := by
  have hnat := congrArg BitVec.toNat h
  have hv := v.isLt
  have hw := w.isLt
  apply BitVec.eq_of_toNat_eq
  rw [BitVec.toNat_setWidth, BitVec.toNat_setWidth] at hnat
  omega

theorem Published.metric_eq (h : Published (lorieSetCursor rootCursor s (some given) x0 y0) c) :
    given.bits.metric = c.bits.metric := by
  have hwidth : given.bits.metric.width = c.bits.metric.width := setWidth_injective h.width
  have hheight : given.bits.metric.height = c.bits.metric.height := setWidth_injective h.height
  have hxhot : given.bits.metric.xhot = c.bits.metric.xhot := setWidth_injective h.xhot
  have hyhot : given.bits.metric.yhot = c.bits.metric.yhot := setWidth_injective h.yhot
  revert hwidth hheight hxhot hyhot
  rcases given.bits.metric with ⟨w, ht, xh, yh⟩
  rcases c.bits.metric with ⟨w', ht', xh', yh'⟩
  rintro rfl rfl rfl rfl
  rfl

/-- The area of the size that is published. -/
theorem published_area : (lorieSetCursor rootCursor s (some given) x0 y0).1.width.toNat *
    (lorieSetCursor rootCursor s (some given) x0 y0).1.height.toNat = given.bits.metric.area := by
  rw [size_eq.1, size_eq.2]
  rfl

theorem small_area (h : Small c) : c.bits.metric.area ≤ bitsLength :=
  Nat.mul_le_mul (Nat.le_of_lt h.1) (Nat.le_of_lt h.2)

theorem consistent_of (harea : given.bits.metric.area ≤ bitsLength)
    (hc : given = c ∨ rootCursor = c) (hmetric : given.bits.metric = c.bits.metric)
    (hpixels : (converted rootCursor given).pixels = c.pixels) :
    Consistent rootCursor (some given) (lorieSetCursor rootCursor s (some given) x0 y0) := by
  constructor
  · rw [published_area]
    exact harea
  · rw [published_area, stores_eq, List.length_zipIdx, hpixels, Cursor.pixels_length, hmetric]
  · exact .inr ⟨c, hc.imp_left (congrArg some), published hmetric hpixels⟩

/-- The cursor that is published is one cursor, if the given one is small, or the root cursor is as big
or looks the same. -/
theorem consistent_iff (rootCursor : Cursor) (s : SharedCursor) (pCurs : Option Cursor)
    (x0 y0 : BitVec 32) :
    Consistent rootCursor pCurs (lorieSetCursor rootCursor s pCurs x0 y0) ↔
      ∀ c ∈ pCurs, Small c ∨ Replaceable rootCursor c := by
  cases pCurs with
  | none =>
    apply iff_of_true
    · exact ⟨Nat.zero_le bitsLength, rfl, .inl ⟨rfl, rfl, rfl, rfl⟩⟩
    · simp
  | some given =>
    simp only [Option.mem_some_iff, forall_eq']
    constructor
    · intro h
      by_cases hsmall : Small given
      · exact .inl hsmall
      · have harea := h.area_le
        rw [published_area] at harea
        rcases h.image with ⟨hnone, -⟩ | ⟨c, hc, hpublished⟩
        · cases hnone
        · have hpixels := hpublished.pixels_eq
          rw [converted_large hsmall] at hpixels
          rcases hc with hgiven | hroot
          · cases hgiven
            exact .inr ⟨harea, .inr hpixels⟩
          · rw [← hroot] at hpublished
            exact .inr ⟨harea, .inl hpublished.metric_eq.symm⟩
    · intro h
      by_cases hsmall : Small given
      · exact consistent_of (small_area hsmall) (.inl rfl) rfl (by rw [converted_small hsmall])
      · obtain ⟨harea, hmetric | hpixels⟩ := h.resolve_left hsmall
        · exact consistent_of harea (.inr rfl) hmetric.symm (by rw [converted_large hsmall])
        · apply consistent_of harea (.inl rfl) rfl
          rw [converted_large hsmall, hpixels]

end Publication

/-- A cursor of one colour. -/
def plainCursor (width height : BitVec 16) (pixel : BitVec 32) : Cursor where
  bits :=
    { source := []
      mask := []
      metric := ⟨width, height, 0, 0⟩
      argb := some (List.replicate (width.toNat * height.toNat) pixel)
      source_length := fun h => nomatch h
      mask_length := fun h => nomatch h
      argb_length := by
        intro pixels h
        cases h
        exact List.length_replicate }
  foreRed := 0
  foreGreen := 0
  foreBlue := 0
  backRed := 0
  backGreen := 0
  backBlue := 0

def noCursor : SharedCursor := ⟨0, 0, 0, 0, 0, 0, fun _ => 0, false, false⟩

/-- A wide cursor of one row is published with the single pixel of another. -/
theorem wide_cursor_replaced :
    ¬Consistent (plainCursor 1 1 0xff000000) (some (plainCursor 512 1 0xffffffff))
      (lorieSetCursor (plainCursor 1 1 0xff000000) noCursor (some (plainCursor 512 1 0xffffffff))
        0 0) := by
  intro h
  have hlength := h.stores_length
  have hlarge : ¬Small (plainCursor 512 1 0xffffffff) := fun hsmall => absurd hsmall.1 (by decide)
  rw [published_area, stores_eq, List.length_zipIdx, converted_large hlarge, Cursor.pixels_length]
    at hlength
  exact absurd hlength (by decide)

end ServerCursor

end XoDos
