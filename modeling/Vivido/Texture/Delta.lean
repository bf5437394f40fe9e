import Mathlib.Data.List.Basic
import Vivido.Scene.State

/-!
A delta frame is the last frame with some rectangles overwritten, or copied from
elsewhere in it. Pictures are lists of bytes, four for each pixel, row by row.
Outside the damage that it names a delta frame is its base.
-/

namespace Vivido.Texture

open Scene List

/-- The byte at the index lies in the rectangle, in a picture of the width. -/
def Covers (width : ℕ) (rect : RasterDamageRect) (index : ℕ) : Prop :=
  (rect.x ≤ index / 4 % width ∧ index / 4 % width < rect.x + rect.width) ∧
    rect.y ≤ index / 4 / width ∧ index / 4 / width < rect.y + rect.height

instance (width : ℕ) (rect : RasterDamageRect) : DecidablePred (Covers width rect) :=
  fun _ => inferInstanceAs (Decidable (_ ∧ _))

def Inside (width height : ℕ) (rect : RasterDamageRect) : Prop :=
  rect.x + rect.width ≤ width ∧ rect.y + rect.height ≤ height

/-- `copy_from_slice`, into the bytes from the start on -/
def overwrite (start : ℕ) (data bytes : List UInt8) : List UInt8 :=
  bytes.mapIdx fun index byte => if start ≤ index then data[index - start]?.getD byte else byte

def slice (start length : ℕ) (bytes : List UInt8) : List UInt8 := (bytes.drop start).take length

inductive RasterDeltaOperation where
  | overwrite (rect : RasterDamageRect) (rgba : List UInt8)
  | copy (destination : RasterDamageRect) (sourceX sourceY : ℕ)

def RasterDeltaOperation.damage : RasterDeltaOperation → RasterDamageRect
  | .overwrite rect _ => rect
  | .copy destination _ _ => destination

/-- What `media::parse_delta_raster_frame` accepts for pictures of a size. -/
structure ParsedRasterDeltaFrame (width height : ℕ) where
  epoch : ℕ
  frameId : ℕ
  ptsUs : ℤ
  baseFrameId : ℕ
  operations : List RasterDeltaOperation
  inside : ∀ operation ∈ operations, Inside width height operation.damage

def overwriteRow (frameWidth : ℕ) (rect : RasterDamageRect) (replacement rgba : List UInt8)
    (row : ℕ) : List UInt8 :=
  overwrite (((rect.y + row) * frameWidth + rect.x) * 4)
    (slice (row * rect.width * 4) (rect.width * 4) replacement) rgba

def copyRow (frameWidth : ℕ) (destination : RasterDamageRect) (sourceX sourceY : ℕ)
    (rgba : List UInt8) (row : ℕ) : List UInt8 :=
  overwrite (((destination.y + row) * frameWidth + destination.x) * 4)
    (slice (((sourceY + row) * frameWidth + sourceX) * 4) (destination.width * 4) rgba) rgba

/-- Rows that overlap are copied from the end they are moved to. -/
def copyRasterRect (frameWidth : ℕ) (destination : RasterDamageRect) (sourceX sourceY : ℕ)
    (rgba : List UInt8) : List UInt8 :=
  let rows := List.range destination.height
  (if sourceY < destination.y then rows.reverse else rows).foldl
    (copyRow frameWidth destination sourceX sourceY) rgba

def RasterDeltaOperation.apply (frameWidth : ℕ) (rgba : List UInt8) :
    RasterDeltaOperation → List UInt8
  | .overwrite rect replacement =>
    (List.range rect.height).foldl (overwriteRow frameWidth rect replacement) rgba
  | .copy destination sourceX sourceY =>
    copyRasterRect frameWidth destination sourceX sourceY rgba

def applyRasterDelta {width height : ℕ} (base : Frame)
    (delta : ParsedRasterDeltaFrame width height) : Except String Frame :=
  if base.frameId ≠ delta.baseFrameId then .error "raster delta base frame is stale"
  else
    .ok
      { frameId := delta.frameId
        ptsUs := delta.ptsUs
        width := base.width
        height := base.height
        sarNum := base.sarNum
        sarDen := base.sarDen
        alphaMode := base.alphaMode
        rgba := delta.operations.foldl (RasterDeltaOperation.apply base.width) base.rgba
        damage := some (delta.operations.map (·.damage)) }

/-- Same length, and same bytes outside the damage. -/
structure AgreeOutside (width : ℕ) (damage : List RasterDamageRect) (old new : List UInt8) :
    Prop where
  length : old.length = new.length
  bytes : ∀ index < new.length, (∀ rect ∈ damage, ¬ Covers width rect index) →
    old[index]? = new[index]?

instance (width : ℕ) (damage : List RasterDamageRect) (old new : List UInt8) :
    Decidable (AgreeOutside width damage old new) :=
  decidable_of_iff (old.length = new.length ∧ ∀ index < new.length,
    (∀ rect ∈ damage, ¬ Covers width rect index) → old[index]? = new[index]?)
    ⟨fun h => ⟨h.1, h.2⟩, fun h => ⟨h.length, h.bytes⟩⟩

/-! ### Rows and rectangles -/

theorem length_overwrite (start : ℕ) (data bytes : List UInt8) :
    (overwrite start data bytes).length = bytes.length := by
  unfold overwrite
  exact length_mapIdx

theorem getElem?_overwrite {start index : ℕ} {data : List UInt8} (bytes : List UInt8)
    (h : index < start ∨ start + data.length ≤ index) :
    (overwrite start data bytes)[index]? = bytes[index]? := by
  unfold overwrite
  rw [getElem?_mapIdx]
  cases hbyte : bytes[index]? with
  | none => rfl
  | some byte =>
    rw [Option.map_some]
    split
    · rename_i hstart
      have hpast : data.length ≤ index - start := by omega
      rw [getElem?_eq_none hpast, Option.getD_none]
    · rfl

theorem length_slice_le (start length : ℕ) (bytes : List UInt8) :
    (slice start length bytes).length ≤ length := length_take_le ..

theorem covers_of_row {width height : ℕ} {rect : RasterDamageRect}
    (hinside : Inside width height rect) {row index : ℕ} (hrow : row < rect.height)
    (hstart : ((rect.y + row) * width + rect.x) * 4 ≤ index)
    (hend : index < ((rect.y + row) * width + rect.x) * 4 + rect.width * 4) :
    Covers width rect index := by
  obtain ⟨column, hcolumn⟩ : ∃ column, index / 4 = (rect.y + row) * width + (rect.x + column) :=
    ⟨index / 4 - ((rect.y + row) * width + rect.x), by omega⟩
  have hwidth : rect.x + column < width := by
    have := hinside.1
    omega
  have hmod : index / 4 % width = rect.x + column := by
    rw [hcolumn, Nat.mul_add_mod', Nat.mod_eq_of_lt hwidth]
  have hdiv : index / 4 / width = rect.y + row := by
    rw [hcolumn, Nat.mul_comm, Nat.mul_add_div (by omega), Nat.div_eq_of_lt hwidth, Nat.add_zero]
  unfold Covers
  rw [hmod, hdiv]
  omega

theorem agreeOutside_refl (width : ℕ) (damage : List RasterDamageRect) (bytes : List UInt8) :
    AgreeOutside width damage bytes bytes := ⟨rfl, fun _ _ _ => rfl⟩

theorem AgreeOutside.trans {width : ℕ} {damage : List RasterDamageRect}
    {first second third : List UInt8} (h : AgreeOutside width damage first second)
    (h' : AgreeOutside width damage second third) : AgreeOutside width damage first third := by
  refine ⟨h.length.trans h'.length, fun index hindex houtside => ?_⟩
  rw [h.bytes index (h'.length ▸ hindex) houtside, h'.bytes index hindex houtside]

theorem AgreeOutside.mono {width : ℕ} {damage damage' : List RasterDamageRect}
    {old new : List UInt8} (h : AgreeOutside width damage old new) (hsub : damage ⊆ damage') :
    AgreeOutside width damage' old new :=
  ⟨h.length, fun index hindex houtside =>
    h.bytes index hindex fun rect hrect => houtside rect (hsub hrect)⟩

/-- Steps that each stay within the damage do so together. -/
theorem agreeOutside_foldl {α : Type} {width : ℕ} {damage : List RasterDamageRect}
    {f : List UInt8 → α → List UInt8} (steps : List α)
    (h : ∀ step ∈ steps, ∀ bytes, AgreeOutside width damage bytes (f bytes step))
    (bytes : List UInt8) : AgreeOutside width damage bytes (steps.foldl f bytes) := by
  induction steps generalizing bytes with
  | nil => exact agreeOutside_refl width damage bytes
  | cons step _ ih =>
    obtain ⟨hstep, hrest⟩ := List.forall_mem_cons.mp h
    exact (hstep bytes).trans (ih hrest (f bytes step))

theorem agreeOutside_row {width height : ℕ} {rect : RasterDamageRect}
    (hinside : Inside width height rect) {row : ℕ} (hrow : row < rect.height) {data : List UInt8}
    (hdata : data.length ≤ rect.width * 4) (bytes : List UInt8) : AgreeOutside width [rect] bytes
      (overwrite (((rect.y + row) * width + rect.x) * 4) data bytes) := by
  refine ⟨(length_overwrite _ _ _).symm, fun index _ houtside => ?_⟩
  refine (getElem?_overwrite bytes ?_).symm
  have hnot := houtside rect (mem_singleton_self rect)
  by_contra hrange
  rw [not_or, Nat.not_lt, Nat.not_le] at hrange
  exact hnot (covers_of_row hinside hrow hrange.1 (by omega))

theorem agreeOutside_apply {width height : ℕ} {operation : RasterDeltaOperation}
    (hinside : Inside width height operation.damage) (rgba : List UInt8) :
    AgreeOutside width [operation.damage] rgba (operation.apply width rgba) := by
  cases operation with
  | overwrite =>
    refine agreeOutside_foldl _ (fun row hrow bytes => ?_) rgba
    exact agreeOutside_row hinside (List.mem_range.mp hrow) (length_slice_le ..) bytes
  | copy destination =>
    refine agreeOutside_foldl _ (fun row hrow bytes => ?_) rgba
    have hmem : row ∈ List.range destination.height := by
      split at hrow
      · exact List.mem_reverse.mp hrow
      · exact hrow
    exact agreeOutside_row hinside (List.mem_range.mp hmem) (length_slice_le ..) bytes

theorem agreeOutside_delta {base frame : Frame}
    {delta : ParsedRasterDeltaFrame base.width base.height}
    (h : applyRasterDelta base delta = .ok frame) :
    ∃ damage, frame.damage = some damage ∧ frame.width = base.width ∧
      frame.height = base.height ∧ frame.alphaMode = base.alphaMode ∧
      AgreeOutside frame.width damage base.rgba frame.rgba := by
  unfold applyRasterDelta at h
  split at h
  · cases h
  cases h
  refine ⟨_, rfl, rfl, rfl, rfl, agreeOutside_foldl _ (fun operation hoperation bytes => ?_) _⟩
  refine (agreeOutside_apply (delta.inside operation hoperation) bytes).mono ?_
  intro _ hrect
  rw [List.mem_singleton.mp hrect]
  exact mem_map_of_mem hoperation

end Vivido.Texture
