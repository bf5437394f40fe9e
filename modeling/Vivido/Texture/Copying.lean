import Mathlib.Algebra.Order.Ring.Nat
import Vivido.Texture.Delta

/-!
What a delta means for the picture. Read through coordinates, an overwrite lays
its bytes into the rectangle and a copy moves one of the picture as it was, also
where the two rectangles overlap, for the rows are taken from the safe end.
-/

namespace Vivido.Texture

open Scene List

/-- A byte of the pixel in a column and a row, where the picture has one. -/
abbrev Image := ℕ → ℕ → ℕ → Option UInt8

def byteAt (width : ℕ) (rgba : List UInt8) : Image := fun x y k => rgba[(y * width + x) * 4 + k]?

def Within (rect : RasterDamageRect) (x y : ℕ) : Prop :=
  (rect.x ≤ x ∧ x < rect.x + rect.width) ∧ rect.y ≤ y ∧ y < rect.y + rect.height

instance (rect : RasterDamageRect) (x y : ℕ) : Decidable (Within rect x y) :=
  inferInstanceAs (Decidable (_ ∧ _))

/-- What an operation makes of a picture. -/
def RasterDeltaOperation.meaning (old : Image) : RasterDeltaOperation → Image
  | .overwrite rect replacement => fun x y k =>
    if Within rect x y then replacement[((y - rect.y) * rect.width + (x - rect.x)) * 4 + k]?
    else old x y k
  | .copy destination sourceX sourceY => fun x y k =>
    if Within destination x y then old (sourceX + (x - destination.x)) (sourceY + (y - destination.y)) k
    else old x y k

/-- What the parser checks besides the damage: the source of a copy lies inside, and an overwrite
has the bytes of its rectangle. -/
def RasterDeltaOperation.Sourced (width height : ℕ) : RasterDeltaOperation → Prop
  | .overwrite rect replacement => replacement.length = rect.height * rect.width * 4
  | .copy destination sourceX sourceY =>
    sourceX + destination.width ≤ width ∧ sourceY + destination.height ≤ height

/-- The slices of each row lie in the bytes that they are taken of. -/
def RasterDeltaOperation.Bounded (width length : ℕ) : RasterDeltaOperation → Prop
  | .overwrite rect replacement => ∀ row < rect.height,
    ((rect.y + row) * width + rect.x) * 4 + rect.width * 4 ≤ length ∧
      row * rect.width * 4 + rect.width * 4 ≤ replacement.length
  | .copy destination sourceX sourceY => ∀ row < destination.height,
    ((sourceY + row) * width + sourceX) * 4 + destination.width * 4 ≤ length ∧
      ((destination.y + row) * width + destination.x) * 4 + destination.width * 4 ≤ length

variable {width height : ℕ} {rgba data : List UInt8}

/-- A row that lies inside ends before the picture does. -/
theorem row_le {x y count : ℕ} (hx : x + count ≤ width) (hy : y < height) :
    (y * width + x) * 4 + count * 4 ≤ width * height * 4 := by
  have := Nat.mul_le_mul_right width (show y + 1 ≤ height from hy)
  rw [Nat.succ_mul, Nat.mul_comm height] at this
  omega

theorem bounded_of_inside {operation : RasterDeltaOperation}
    (hinside : Inside width height operation.damage) (hsourced : operation.Sourced width height) :
    operation.Bounded width (width * height * 4) := by
  cases operation with
  | overwrite rect =>
    intro row hrow
    have hbelow : rect.y + rect.height ≤ height := hinside.2
    have := row_le (Nat.le_of_eq (Nat.zero_add rect.width)) hrow
    rw [RasterDeltaOperation.Sourced, Nat.mul_comm rect.height] at hsourced
    exact ⟨row_le hinside.1 (by omega), by omega⟩
  | copy destination =>
    intro _ _
    have hbelow : destination.y + destination.height ≤ height := hinside.2
    have := hsourced.2
    exact ⟨row_le hsourced.1 (by omega), row_le hinside.1 (by omega)⟩

theorem byteAt_overwrite {left row count x y k : ℕ} (hleft : left + count ≤ width)
    (hdata : data.length = count * 4) (hrow : (row * width + left) * 4 + count * 4 ≤ rgba.length)
    (hx : x < width) (hk : k < 4) :
    byteAt width (overwrite ((row * width + left) * 4) data rgba) x y k =
      if y = row ∧ left ≤ x ∧ x < left + count then data[(x - left) * 4 + k]?
      else byteAt width rgba x y k := by
  unfold byteAt
  split_ifs with hin
  · obtain ⟨rfl, _, _⟩ := hin
    obtain ⟨old, hold⟩ : ∃ old, rgba[(y * width + x) * 4 + k]? = some old :=
      ⟨_, getElem?_eq_getElem (by omega)⟩
    obtain ⟨new, hnew⟩ : ∃ new, data[(x - left) * 4 + k]? = some new :=
      ⟨_, getElem?_eq_getElem (by omega)⟩
    rw [overwrite, getElem?_mapIdx, hold, Option.map_some, if_pos (by omega),
      show (y * width + x) * 4 + k - (y * width + left) * 4 = (x - left) * 4 + k by omega, hnew]
    rfl
  · apply getElem?_overwrite
    rcases Nat.lt_trichotomy y row with hy | rfl | hy
    · have := Nat.mul_le_mul_right width (show y + 1 ≤ row from hy)
      rw [Nat.succ_mul] at this
      omega
    · omega
    · have := Nat.mul_le_mul_right width (show row + 1 ≤ y from hy)
      rw [Nat.succ_mul] at this
      omega

theorem byteAt_slice (width left row : ℕ) (rgba : List UInt8) {count x k : ℕ} (hx : x < count)
    (hk : k < 4) :
    (slice ((row * width + left) * 4) (count * 4) rgba)[x * 4 + k]? =
      byteAt width rgba (left + x) row k := by
  rw [slice, getElem?_take_of_lt (by omega), getElem?_drop, byteAt]
  congr 1
  omega

/-- The rows of a rectangle laid one after another, none of them read once another was laid over
it: each shows what was read at the start, and the rest is as it was. -/
theorem byteAt_foldl {rect : RasterDamageRect} (hinside : Inside width height rect)
    (read : List UInt8 → ℕ → List UInt8) {rows : List ℕ} (hnodup : rows.Nodup)
    (hrows : ∀ row ∈ rows, row < rect.height)
    (hlength : ∀ bytes : List UInt8, bytes.length = width * height * 4 → ∀ row < rect.height,
      (read bytes row).length = rect.width * 4)
    (hkept : rows.Pairwise fun earlier later => ∀ bytes data : List UInt8,
      data.length = rect.width * 4 →
        read (overwrite (((rect.y + earlier) * width + rect.x) * 4) data bytes) later =
          read bytes later)
    (hrgba : rgba.length = width * height * 4) {x y k : ℕ} (hx : x < width) (hk : k < 4) :
    byteAt width (rows.foldl (fun bytes row =>
        overwrite (((rect.y + row) * width + rect.x) * 4) (read bytes row) bytes) rgba) x y k =
      if (rect.x ≤ x ∧ x < rect.x + rect.width) ∧ rect.y ≤ y ∧ y - rect.y ∈ rows then
        (read rgba (y - rect.y))[(x - rect.x) * 4 + k]?
      else byteAt width rgba x y k := by
  induction rows generalizing rgba with
  | nil => simp
  | cons row rest ih =>
    rw [forall_mem_cons] at hrows
    rw [pairwise_cons] at hkept
    rw [nodup_cons] at hnodup
    have hread := hlength rgba hrgba row hrows.1
    have hbelow : rect.y + row < height := by
      have := hinside.2
      omega
    rw [foldl_cons, ih hnodup.2 hrows.2 hkept.2 ((length_overwrite ..).trans hrgba),
      byteAt_overwrite hinside.1 hread (hrgba ▸ row_le hinside.1 hbelow) hx hk]
    by_cases hrest : y - rect.y ∈ rest
    · rw [hkept.1 _ hrest rgba _ hread]
      grind
    · grind

theorem length_slice {start count : ℕ} (h : start + count ≤ rgba.length) :
    (slice start count rgba).length = count := by
  rw [slice, length_take, length_drop]
  omega

theorem slice_overwrite {left right row other count : ℕ} (hright : right + count ≤ width)
    (hleft : left + count ≤ width) (hdata : data.length = count * 4) (hne : row ≠ other) :
    slice ((other * width + right) * 4) (count * 4)
        (overwrite ((row * width + left) * 4) data rgba) =
      slice ((other * width + right) * 4) (count * 4) rgba := by
  apply ext_getElem?
  intro i
  rw [slice, slice, getElem?_take, getElem?_take, getElem?_drop, getElem?_drop]
  split_ifs with hi
  · apply getElem?_overwrite
    rcases Nat.lt_or_gt_of_ne hne with hlt | hlt
    · have := Nat.mul_le_mul_right width (show row + 1 ≤ other from hlt)
      rw [Nat.succ_mul] at this
      omega
    · have := Nat.mul_le_mul_right width (show other + 1 ≤ row from hlt)
      rw [Nat.succ_mul] at this
      omega
  · rfl

theorem apply_means {operation : RasterDeltaOperation}
    (hinside : Inside width height operation.damage) (hsourced : operation.Sourced width height)
    (hrgba : rgba.length = width * height * 4) {x y k : ℕ} (hx : x < width) (hk : k < 4) :
    byteAt width (operation.apply width rgba) x y k =
      operation.meaning (byteAt width rgba) x y k := by
  have hbounded := bounded_of_inside hinside hsourced
  cases operation with
  | overwrite rect replacement =>
    have hinside : Inside width height rect := hinside
    refine (byteAt_foldl hinside (fun _ row => slice (row * rect.width * 4) (rect.width * 4)
      replacement) nodup_range (fun _ => List.mem_range.mp)
      (fun _ _ row hrow => length_slice (hbounded row hrow).2)
      (pairwise_of_forall fun _ _ _ _ _ => rfl) hrgba hx hk).trans ?_
    simp only [RasterDeltaOperation.meaning, Within, List.mem_range]
    have hslice (row : ℕ) (hrest : x - rect.x < rect.width) := byteAt_slice rect.width 0 row
      replacement hrest hk
    simp only [Nat.add_zero, Nat.zero_add, byteAt] at hslice
    grind
  | copy destination sourceX sourceY =>
    have hinside : Inside width height destination := hinside
    -- A row is read before another is laid over it, for the rows move away from those to be read.
    have hrows (rows : List ℕ) (hnodup : rows.Nodup)
        (hmem : ∀ row, row ∈ rows ↔ row < destination.height)
        (hapart : rows.Pairwise fun earlier later => destination.y + earlier ≠ sourceY + later) :
        byteAt width (rows.foldl (copyRow width destination sourceX sourceY) rgba) x y k =
          RasterDeltaOperation.meaning (byteAt width rgba) (.copy destination sourceX sourceY) x y k := by
      refine (byteAt_foldl hinside (fun bytes row => slice (((sourceY + row) * width + sourceX) * 4)
        (destination.width * 4) bytes) hnodup (fun row => (hmem row).mp)
        (fun bytes hbytes row hrow => length_slice (hbytes ▸ (hbounded row hrow).1))
        (hapart.imp fun hne bytes data hdata => slice_overwrite hsourced.1 hinside.1 hdata hne)
        hrgba hx hk).trans ?_
      simp only [RasterDeltaOperation.meaning, Within, hmem]
      have hslice (row : ℕ) (hrest : x - destination.x < destination.width) :=
        byteAt_slice width sourceX row rgba hrest hk
      grind
    dsimp only [RasterDeltaOperation.apply, copyRasterRect]
    split_ifs with hdown
    · refine hrows _ (nodup_reverse.mpr nodup_range) (fun _ => mem_reverse.trans List.mem_range) ?_
      exact pairwise_reverse.mpr (pairwise_lt_range.imp fun hlt => by omega)
    · exact hrows _ nodup_range (fun _ => List.mem_range)
        (pairwise_lt_range.imp fun hlt => by omega)

/-- Pictures that agree inside mean the same to an operation. -/
theorem meaning_congr {operation : RasterDeltaOperation} (hsourced : operation.Sourced width height)
    {old old' : Image} (h : ∀ x < width, ∀ y < height, ∀ k < 4, old x y k = old' x y k) {x y k : ℕ}
    (hx : x < width) (hy : y < height) (hk : k < 4) :
    operation.meaning old x y k = operation.meaning old' x y k := by
  cases operation with
  | overwrite => simp only [RasterDeltaOperation.meaning, h x hx y hy k hk]
  | copy =>
    obtain ⟨_, _⟩ := hsourced
    simp only [RasterDeltaOperation.meaning, h x hx y hy k hk]
    split_ifs with hin
    · obtain ⟨⟨_, _⟩, _, _⟩ := hin
      exact h _ (by omega) _ (by omega) k hk
    · rfl

theorem apply_foldl (operations : List RasterDeltaOperation) (h : ∀ operation ∈ operations,
      Inside width height operation.damage ∧ operation.Sourced width height)
    (hrgba : rgba.length = width * height * 4) :
    (operations.foldl (RasterDeltaOperation.apply width) rgba).length = width * height * 4 ∧
      ∀ x < width, ∀ y < height, ∀ k < 4,
        byteAt width (operations.foldl (RasterDeltaOperation.apply width) rgba) x y k =
          operations.foldl RasterDeltaOperation.meaning (byteAt width rgba) x y k := by
  induction operations using List.reverseRecOn with
  | nil => exact ⟨hrgba, fun _ _ _ _ _ _ => rfl⟩
  | append_singleton _ operation ih =>
    obtain ⟨hinside, hsourced⟩ := h operation (by simp)
    obtain ⟨hlength, hmeans⟩ := ih fun other hother => h other (mem_append_left _ hother)
    simp only [foldl_append, foldl_cons, foldl_nil]
    refine ⟨(agreeOutside_apply hinside _).length.symm.trans hlength, fun x hx y hy k hk => ?_⟩
    rw [apply_means hinside hsourced hlength hx hk]
    exact meaning_congr hsourced hmeans hx hy hk

/-- A delta frame shows what its operations mean, one after another, for its base; it is its base
outside its damage, and no slice is taken beyond the bytes. -/
theorem applyRasterDelta_means {base : Frame}
    (hrgba : base.rgba.length = base.width * base.height * 4)
    (delta : ParsedRasterDeltaFrame base.width base.height)
    (hsourced : ∀ operation ∈ delta.operations, operation.Sourced base.width base.height)
    (hbase : base.frameId = delta.baseFrameId) :
    ∃ frame damage, applyRasterDelta base delta = .ok frame ∧ frame.frameId = delta.frameId ∧
      frame.width = base.width ∧ frame.height = base.height ∧
      frame.rgba.length = base.rgba.length ∧ frame.damage = some damage ∧
      (∀ x < base.width, ∀ y < base.height, ∀ k < 4, byteAt base.width frame.rgba x y k =
        delta.operations.foldl RasterDeltaOperation.meaning (byteAt base.width base.rgba) x y k) ∧
      AgreeOutside base.width damage base.rgba frame.rgba ∧
      ∀ operation ∈ delta.operations, operation.Bounded base.width base.rgba.length := by
  obtain ⟨frame, hframe⟩ : ∃ frame, applyRasterDelta base delta = .ok frame :=
    ⟨_, if_neg (not_not.mpr hbase)⟩
  obtain ⟨damage, hdamage, hwidth, hheight, -, hagree⟩ := agreeOutside_delta hframe
  obtain ⟨hlength, hmeans⟩ := apply_foldl delta.operations
    (fun operation hmem => ⟨delta.inside operation hmem, hsourced operation hmem⟩) hrgba
  refine ⟨frame, damage, hframe, ?_, hwidth, hheight, ?_, hdamage, ?_, hwidth ▸ hagree,
    fun operation hmem => hrgba ▸ bounded_of_inside (delta.inside operation hmem)
      (hsourced operation hmem)⟩ <;> cases (if_neg (not_not.mpr hbase)).symm.trans hframe
  · rfl
  · exact hlength.trans hrgba.symm
  · exact hmeans

def ramp : Frame where
  frameId := 1
  ptsUs := 0
  width := 3
  height := 3
  sarNum := 1
  sarDen := 1
  rgba := (List.range 36).map UInt8.ofNat

/-- Two columns of two pixels, copied one pixel down and to the right. -/
def shifted : ParsedRasterDeltaFrame 3 3 where
  epoch := 0
  frameId := 2
  ptsUs := 0
  baseFrameId := 1
  operations := [.copy ⟨1, 1, 2, 2⟩ 0 0]
  inside := by simp [RasterDeltaOperation.damage, Inside]

theorem applyRasterDelta_means_shifted : ∃ frame, applyRasterDelta ramp shifted = .ok frame ∧
    byteAt 3 frame.rgba 2 2 0 = byteAt 3 ramp.rgba 1 1 0 := by
  obtain ⟨frame, _, hframe, -, -, -, -, -, hmeans, -⟩ := @applyRasterDelta_means ramp (by decide)
    shifted (by simp [shifted, RasterDeltaOperation.Sourced, ramp]) rfl
  exact ⟨frame, hframe, hmeans 2 (by decide) 2 (by decide) 0 (by decide)⟩

end Vivido.Texture
