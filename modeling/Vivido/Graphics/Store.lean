import Mathlib.Algebra.Order.Ring.Unbundled.Rat
import Vivido.Graphics.Command
import Vivido.Support.SortedMap
import Vivido.Term.State

/-!
Images and their placements on one terminal screen: transmitted images, the
placements that show them, and the rules by which both go away. Sizes are computed
in single precision, whose arithmetic is a parameter. Whether anything visible
changed, which only the renderer asks, is kept apart.
-/

namespace Vivido.Graphics

open Terminal.Term (saturatingAdd)

/-- The arithmetic of `f32`. -/
class F32 (F : Type) extends NatCast F, Add F, Sub F, Mul F, Div F, Min F, Max F where
  ceil : F → F
  /-- `as u32`. -/
  toU32 : F → ℕ
  le : F → F → Bool
  lt : F → F → Bool
  eq : F → F → Bool

/-- Exact arithmetic, with which single precision agrees as long as it rounds nothing. -/
instance : F32 Rat where
  ceil x := x.ceil
  toU32 x := min x.floor.toNat (2 ^ 32 - 1)
  le x y := x ≤ y
  lt x y := x < y
  eq x y := x = y

/-- `MAX_DIMENSION`. -/
def maxDimension : ℕ := 8192

/-- `STORAGE_QUOTA`. -/
def storageQuota : ℕ := 320 * 1024 * 1024

/-- `MAX_IMAGES`. -/
def maxImages : ℕ := 4096

/-- `MAX_PLACEMENTS`. -/
def maxPlacements : ℕ := 8192

/-- `MAX_SPAN`. -/
def maxSpan : ℕ := maxDimension

structure CellPixels where
  width : ℕ
  height : ℕ
  deriving DecidableEq, Repr

/-- `CellPixels::new`. -/
def CellPixels.new (width height : ℕ) : CellPixels := ⟨max width 1, max height 1⟩

/-- `CellPixels::FALLBACK`. -/
def CellPixels.fallback : CellPixels := ⟨10, 20⟩

/-- A transmitted image; `pixels` is absent while it is being decoded. -/
structure Image where
  uid : ℕ
  id : ℕ
  number : ℕ
  width : ℕ
  height : ℕ
  pixels : Option (List UInt8)
  isOpaque : Bool
  refs : ℕ := 0
  used : ℕ
  matched : Bool := false
  deriving DecidableEq, Repr

namespace Image

/-- Bytes the image counts for against the quota. -/
def bytes (image : Image) : ℕ := image.width * image.height * 4

/-- A placement of it is removed. -/
def release (image : Image) : Image := { image with refs := image.refs - 1, matched := true }

end Image

/-- One appearance of an image. -/
structure Placement (F : Type) where
  key : ℕ
  image : ℕ
  id : ℕ
  row : ℤ
  col : ℤ
  srcX : F
  srcY : F
  srcW : F
  srcH : F
  cellX : ℕ
  cellY : ℕ
  cols : ℕ
  rows : ℕ
  effCols : ℕ
  effRows : ℕ
  z : ℤ
  isVirtual : Bool
  deriving DecidableEq, Repr

variable {F : Type} [F32 F]

namespace Placement

/-- `dest_size`: the size in pixels of the rectangle the placement is drawn into. -/
def destSize (p : Placement F) (cell : CellPixels) : F × F :=
  let width := fun cols : ℕ => ((cols * cell.width : ℕ) : F) - (p.cellX : F)
  let height := fun rows : ℕ => ((rows * cell.height : ℕ) : F) - (p.cellY : F)
  if F32.le p.srcW ((0 : ℕ) : F) || F32.le p.srcH ((0 : ℕ) : F) then (((0 : ℕ) : F), ((0 : ℕ) : F))
  else if p.rows ≠ 0 then
    let h := height p.rows
    (if p.cols ≠ 0 then width p.cols else h * p.srcW / p.srcH, h)
  else
    let w := if p.cols ≠ 0 then width p.cols else p.srcW
    (w, w * p.srcH / p.srcW)

/-- The cells that pixels take. -/
def cells (pixels : F) (size : ℕ) : ℕ :=
  F32.toU32 (max (F32.ceil (pixels / (size : F))) ((1 : ℕ) : F))

/-- `fit`: derive the covered cells from the requested extent. -/
def fit (p : Placement F) (cell : CellPixels) : Placement F :=
  let extent :=
    if p.cols = 0 ∧ p.rows = 0 then
      (cells (p.srcW + (p.cellX : F)) cell.width, cells (p.srcH + (p.cellY : F)) cell.height)
    else if p.cols = 0 ∧ F32.lt ((0 : ℕ) : F) p.srcH then
      let height : F := ((p.rows * cell.height + p.cellY : ℕ) : F)
      (cells (height * p.srcW / p.srcH) cell.width, p.rows)
    else if p.rows = 0 ∧ F32.lt ((0 : ℕ) : F) p.srcW then
      let width : F := ((p.cols * cell.width + p.cellX : ℕ) : F)
      (p.cols, cells (width * p.srcH / p.srcW) cell.height)
    else (p.cols, p.rows)
  { p with effCols := max 1 (min extent.1 maxSpan), effRows := max 1 (min extent.2 maxSpan) }

/-- One past the last grid line the placement touches. -/
def endRow (p : Placement F) : ℤ := saturatingAdd p.row p.effRows

def endCol (p : Placement F) : ℤ := saturatingAdd p.col p.effCols

/-- Source pixels per screen pixel, vertically. -/
def verticalScale (p : Placement F) (cell : CellPixels) : F :=
  let height := (p.destSize cell).2
  if (p.rows = 0 ∧ p.cols = 0) ∨ F32.le height ((0 : ℕ) : F) then ((1 : ℕ) : F)
  else p.srcH / height

/-- Whether a placement drawn after `p` with the geometry of `other` covers exactly its pixels. -/
def sameGeometry (p other : Placement F) (cell : CellPixels) : Bool :=
  p.row = other.row && p.col = other.col && p.cellX = other.cellX && p.cellY = other.cellY &&
    p.effCols = other.effCols && p.effRows = other.effRows && p.z = other.z &&
    F32.eq (p.destSize cell).1 (other.destSize cell).1 &&
    F32.eq (p.destSize cell).2 (other.destSize cell).2

/-- Whether a column is one of the placement's. -/
def inCols (p : Placement F) (x : ℤ) : Bool := p.col ≤ x && x < p.endCol

def inRows (p : Placement F) (y : ℤ) : Bool := p.row ≤ y && y < p.endRow

end Placement

/-- A scroll of grid lines that placements must follow. -/
structure Scroll where
  top : ℤ
  stop : ℤ
  lines : ℤ
  screenLines : ℤ
  historyTop : ℤ
  deriving DecidableEq, Repr

/-- Which images an operation may free once it has removed placements. -/
inductive Reap where
  | unaddressable
  | matchedUnaddressable
  | matched
  | unreferenced
  deriving DecidableEq, Repr

/-- Whether an image without placements is freed. -/
def Reap.frees : Reap → Image → Bool
  | .unaddressable, image => image.id = 0
  | .matchedUnaddressable, image => image.matched && image.id = 0
  | .matched, image => image.matched
  | .unreferenced, _ => true

/-- Images and placements of one screen. -/
structure ImageStore (F : Type) where
  images : SortedMap ℕ Image := .empty
  ids : SortedMap ℕ ℕ := .empty
  placements : List (Placement F) := []
  lastKey : ℕ := 0
  clock : ℕ := 0
  stored : ℕ := 0
  virtualCount : ℕ := 0
  deriving DecidableEq

/-- Move one placement with a region scroll, unless it is gone. -/
def scrollInRegion (p : Placement F) (scroll : Scroll) (delta : ℤ) (cell : CellPixels) :
    Option (Placement F) :=
  let top := scroll.top
  let bottom := scroll.stop - 1
  let unlessOutside := fun p : Placement F =>
    if p.endRow ≤ top ∨ bottom < p.row then none else some p
  -- Not entirely inside the region, so the scroll does not own it.
  if p.row < top ∨ bottom < p.endRow - 1 then some p
  else
    (unlessOutside { p with row := saturatingAdd p.row delta }).bind fun p =>
      let scale := p.verticalScale cell
      if p.row < top then
        -- Moved up past the top margin: cut the rows that left off the top of the source.
        let clipped := (top - p.row).toNat
        let cut := scale * (((cell.height * clipped : ℕ) : F) - (p.cellY : F))
        if F32.le p.srcH cut then none
        else unlessOutside { p with
          srcY := p.srcY + cut
          srcH := p.srcH - cut
          effRows := p.effRows - clipped
          rows := if p.rows ≠ 0 then p.rows - min clipped (p.rows - 1) else p.rows
          cellY := 0
          row := p.row + clipped }
      else if bottom < p.endRow - 1 then
        -- Moved down past the bottom margin: keep only the height that is still inside.
        let clipped := (p.endRow - 1 - bottom).toNat
        let visible := ((cell.height * (p.effRows - clipped) : ℕ) : F) - (p.cellY : F)
        let kept := scale * visible
        if F32.le kept ((0 : ℕ) : F) then none
        else unlessOutside { p with
          srcH := min p.srcH kept
          effRows := p.effRows - clipped
          rows := if p.rows ≠ 0 then p.rows - min clipped (p.rows - 1) else p.rows }
      else unlessOutside p

namespace ImageStore

/-- Whether any placement exists that scrolling or drawing has to consider. -/
def hasPlacements (s : ImageStore F) : Bool := s.virtualCount < s.placements.length

def isEmpty (s : ImageStore F) : Bool := s.images.size = 0

def keyById (s : ImageStore F) (id : ℕ) : Option ℕ := s.ids.lookup id

/-- The key of the most recently created image carrying a number. -/
def keyByNumber (s : ImageStore F) (number : ℕ) : Option ℕ :=
  (s.images.entries.reverse.find? fun entry => entry.2.number = number).map Prod.fst

/-- The smallest number from `free` on that the ids, in their order, leave out. -/
def freeFrom : ℕ → List ℕ → ℕ
  | free, [] => free
  | free, id :: ids => if id ≠ free then free else freeFrom (min (free + 1) (2 ^ 32 - 1)) ids

/-- Smallest id no image uses. -/
def freeId (s : ImageStore F) : ℕ := freeFrom 1 (s.ids.entries.map Prod.fst)

/-- `remove_image`: an image and every placement of it. -/
def removeImage (s : ImageStore F) (key : ℕ) : ImageStore F :=
  match s.images.lookup key with
  | none => s
  | some image =>
      let s := { s with
        images := s.images.erase key
        stored := s.stored - image.bytes
        ids := if image.id ≠ 0 ∧ s.ids.lookup image.id = some key then s.ids.erase image.id
          else s.ids }
      if 0 < image.refs then
        { s with
          placements := s.placements.filter fun p => p.image ≠ key
          virtualCount := s.virtualCount -
            s.placements.countP fun p => p.image = key && p.isVirtual }
      else s

/-- Remove images one after the other. -/
def removeImages (s : ImageStore F) (keys : List ℕ) : ImageStore F := keys.foldl removeImage s

/-- `remove_by_id`. -/
def removeById (s : ImageStore F) (id : ℕ) : ImageStore F :=
  match s.keyById id with
  | none => s
  | some key => s.removeImage key

/-- Free the images that may go, and clear the marks. -/
def reap (s : ImageStore F) (reap : Reap) : ImageStore F :=
  let doomed := (s.images.entries.filter fun entry =>
    entry.2.refs = 0 && reap.frees entry.2).map Prod.fst
  ({ s with images := s.images.mapValues fun _ image => { image with matched := false } } :
    ImageStore F).removeImages doomed

/-- One placement of `remove_where`: it is removed, or stays as `move` has it. -/
def sweepOne (move : Placement F → Image → Option (Placement F)) (s : ImageStore F)
    (p : Placement F) : ImageStore F :=
  match s.images.lookup p.image with
  | none => s
  | some image =>
      match move p image with
      | some p => { s with placements := s.placements ++ [p] }
      | none => { s with
          images := s.images.adjust p.image Image.release
          virtualCount := s.virtualCount - if p.isVirtual then 1 else 0 }

/-- `remove_where`: remove the placements for which `move` gives nothing, move the others, then
free images. -/
def removeWhere (s : ImageStore F) (move : Placement F → Image → Option (Placement F))
    (reap : Reap) : ImageStore F :=
  (s.placements.foldl (sweepOne move) { s with placements := [] }).reap reap

/-- Remove placements that `remove` selects. -/
def removeIf (s : ImageStore F) (remove : Placement F → Image → Bool) (reap : Reap) :
    ImageStore F :=
  s.removeWhere (fun p image => if remove p image then none else some p) reap

/-- `insert`: the store and the key of the new image. -/
def insert (s : ImageStore F) (uid id number : ℕ) (size : ℕ × ℕ) (pixels : Option (List UInt8))
    (isOpaque : Bool) : ImageStore F × ℕ :=
  let s := s.reap .unaddressable
  let key := s.lastKey + 1
  let image : Image := {
    uid := uid
    id := id
    number := number
    width := size.1
    height := size.2
    pixels := pixels
    isOpaque := isOpaque
    used := s.clock + 1 }
  ({ s with
      lastKey := key
      clock := s.clock + 1
      stored := s.stored + image.bytes
      images := s.images.insert key image
      ids := if id ≠ 0 then s.ids.insert id key else s.ids },
    key)

/-- `set_pixels`. -/
def setPixels (s : ImageStore F) (key : ℕ) (pixels : List UInt8) (isOpaque : Bool) : ImageStore F :=
  { s with images := s.images.adjust key fun image =>
      { image with pixels := some pixels, isOpaque := isOpaque } }

/-- Whether the store is over its limits. -/
def overLimit (s : ImageStore F) : Bool := storageQuota < s.stored || maxImages < s.images.size

/-- The entry least recently used; the first of several. -/
def oldestOf : List (ℕ × Image) → Option (ℕ × Image)
  | [] => none
  | entry :: entries =>
      match oldestOf entries with
      | none => some entry
      | some other => if other.2.used < entry.2.used then some other else some entry

/-- The loop of `enforce_quota`; each round removes an image. -/
def evict (keep : Option ℕ) : ℕ → ImageStore F → ImageStore F
  | 0, s => s
  | fuel + 1, s =>
      if s.overLimit then
        match oldestOf (s.images.entries.filter fun entry => some entry.1 ≠ keep) with
        | none => s
        | some oldest => evict keep fuel (s.removeImage oldest.1)
      else s

/-- `enforce_quota`, sparing `keep`. -/
def enforceQuota (s : ImageStore F) (keep : Option ℕ) : ImageStore F :=
  if !s.overLimit then s
  else
    let idle := (s.images.entries.filter fun entry =>
      entry.2.refs = 0 && some entry.1 ≠ keep).map Prod.fst
    let s := s.removeImages idle
    evict keep s.images.size s

/-- The placement that `put` makes of a command, before it is fitted to the cells. -/
def placementOf (image : Image) (key : ℕ) (command : Command) (row col : ℤ) (cell : CellPixels) :
    Placement F :=
  let isVirtual := command.unicode = 1
  let width : F := (image.width : F)
  let height : F := (image.height : F)
  let srcX : F := (command.x : F)
  let srcY : F := (command.y : F)
  let srcW : F := if command.width = 0 then width else (command.width : F)
  let srcH : F := if command.height = 0 then height else (command.height : F)
  { key := 0
    image := key
    id := if image.id = 0 then 0 else command.placement
    row := if isVirtual then 0 else row
    col := if isVirtual then 0 else col
    srcX := srcX
    srcY := srcY
    srcW := min srcW (width - min srcX width)
    srcH := min srcH (height - min srcY height)
    cellX := min command.cellX (cell.width - 1)
    cellY := min command.cellY (cell.height - 1)
    cols := min command.columns maxSpan
    rows := min command.rows maxSpan
    effCols := 0
    effRows := 0
    z := command.z
    isVirtual := isVirtual }

/-- A placement is one that another with the same geometry has made invisible for good. -/
def covered (placement : Placement F) (key : ℕ) (cell : CellPixels) (p : Placement F)
    (image : Image) : Bool :=
  p.key ≠ placement.key && !p.isVirtual && p.id = 0 && (p.image = key || image.id = 0) &&
    p.sameGeometry placement cell

/-- Add a placement, or move the one of this image with its id; the placement as stored. -/
def addPlacement (s : ImageStore F) (placement : Placement F) : ImageStore F × Placement F :=
  let existing := if placement.id ≠ 0 then
      s.placements.findIdx? fun p => p.image = placement.image && p.id = placement.id
    else none
  match existing.bind fun index => (s.placements[index]?).map (index, ·) with
  | some (index, old) =>
      let placement := { placement with key := old.key }
      ({ s with
          virtualCount := s.virtualCount - (if old.isVirtual then 1 else 0) +
            if placement.isVirtual then 1 else 0
          placements := s.placements.set index placement },
        placement)
  | none =>
      let placement := { placement with key := s.lastKey + 1 }
      ({ s with
          lastKey := s.lastKey + 1
          virtualCount := s.virtualCount + if placement.isVirtual then 1 else 0
          placements := s.placements ++ [placement]
          images := s.images.adjust placement.image fun image =>
            { image with refs := image.refs + 1 } },
        placement)

/-- Drop the oldest placement when there are too many. -/
def limitPlacements (s : ImageStore F) : ImageStore F :=
  match s.placements with
  | [] => s
  | oldest :: _ =>
      if maxPlacements < s.placements.length then
        s.removeIf (fun p _ => p.key = oldest.key) .unaddressable
      else s

/-- Stamp an image as used, and add or move the placement of a command. -/
def position (s : ImageStore F) (image : Image) (key : ℕ) (command : Command) (row col : ℤ)
    (cell : CellPixels) : ImageStore F × Placement F :=
  let s := { s with
    clock := s.clock + 1
    images := s.images.adjust key fun image => { image with used := s.clock + 1 } }
  s.addPlacement ((placementOf image key command row col cell).fit cell)

/-- `put`: the store and the cells the placement covers, if there is such an image. -/
def put (s : ImageStore F) (key : ℕ) (command : Command) (row col : ℤ) (cell : CellPixels) :
    ImageStore F × Option (ℕ × ℕ) :=
  match s.images.lookup key with
  | none => ({ s with clock := s.clock + 1 }, none)
  | some image =>
      let placed := s.position image key command row col cell
      let swept := if image.isOpaque && !placed.2.isVirtual then
          placed.1.removeIf (covered placed.2 key cell) .unaddressable
        else placed.1
      (swept.limitPlacements, some (placed.2.effCols, placed.2.effRows))

/-- What an uppercase selector frees, and a lowercase one. -/
def reapOf (selector : UInt8) : Reap :=
  if ascii 'A' ≤ selector ∧ selector ≤ ascii 'Z' then .matched else .matchedUnaddressable

/-- Remove placements of the image with a key; an image nothing shows is freed directly by the
uppercase form. -/
def deleteImage (s : ImageStore F) (key : Option ℕ) (placement : ℕ) (reap : Reap) : ImageStore F :=
  match key with
  | none => s
  | some key =>
      let idle := (s.images.lookup key).any fun image => image.refs = 0
      if idle ∧ placement = 0 then if reap = .matched then s.removeImage key else s
      else s.removeIf (fun p _ => p.image = key && (placement = 0 || p.id = placement)) reap

/-- Remove the placements of images whose id is in a range. -/
def deleteRange (s : ImageStore F) (first last : ℕ) (reap : Reap) : ImageStore F :=
  let inRange := fun image : Image => image.id ≠ 0 && first ≤ image.id && image.id ≤ last
  let idle := (s.images.entries.filter fun entry =>
    entry.2.refs = 0 && inRange entry.2).map Prod.fst
  let s := if reap = .matched then s.removeImages idle else s
  s.removeIf (fun _ image => inRange image) reap

/-- `delete`: carry out a delete command with the cursor at a line and column. -/
def delete (s : ImageStore F) (command : Command) (row col : ℤ) : ImageStore F :=
  let selector := if command.delete = 0 then ascii 'a' else command.delete
  let reap := reapOf selector
  -- Coordinates in a delete are one-based cells.
  let x : ℤ := command.x - 1
  let y : ℤ := command.y - 1
  match (Char.ofNat selector.toNat).toLower with
  | 'a' => s.removeIf (fun p _ => !p.isVirtual && 0 < p.endRow) reap
  | 'i' => s.deleteImage (s.keyById command.id) command.placement reap
  | 'n' => s.deleteImage (s.keyByNumber command.number) command.placement reap
  | 'r' => s.deleteRange command.x command.y reap
  | 'p' => s.removeIf (fun p _ => !p.isVirtual && p.inCols x && p.inRows y) reap
  | 'q' => s.removeIf (fun p _ => !p.isVirtual && p.z = command.z && p.inCols x && p.inRows y) reap
  | 'x' => s.removeIf (fun p _ => !p.isVirtual && p.inCols x) reap
  | 'y' => s.removeIf (fun p _ => !p.isVirtual && p.inRows y) reap
  | 'z' => s.removeIf (fun p _ => !p.isVirtual && p.z = command.z) reap
  | 'c' => s.removeIf (fun p _ => !p.isVirtual && p.inCols col && p.inRows row) reap
  -- Animation frames are not supported, so there is never one to delete.
  | _ => s

/-- `clear`: remove placements from the screen, or with `history` from scrollback as well. -/
def clear (s : ImageStore F) (history : Bool) : ImageStore F :=
  s.removeIf (fun p _ => !p.isVirtual && (history || 0 < p.endRow)) .unreferenced

/-- `clear_history`: remove the placements that lie wholly in scrollback. -/
def clearHistory (s : ImageStore F) : ImageStore F :=
  s.removeIf (fun p _ => !p.isVirtual && p.endRow ≤ 0) .unreferenced

/-- Move one placement with a scroll of the whole screen, unless it is gone. -/
def scrollWhole (scroll : Scroll) (p : Placement F) : Option (Placement F) :=
  -- A reverse scroll leaves scrollback where it is.
  if p.isVirtual || (scroll.lines < 0 && p.endRow ≤ 0) then some p
  else
    let moved := { p with row := saturatingAdd p.row (-scroll.lines) }
    if moved.endRow ≤ scroll.historyTop ∨ scroll.screenLines ≤ moved.row then none else some moved

/-- `scroll`: move placements with a scroll of the grid. -/
def scroll (s : ImageStore F) (scroll : Scroll) (cell : CellPixels) : ImageStore F :=
  if !s.hasPlacements || scroll.lines = 0 then s
  else if scroll.top = 0 ∧ scroll.stop = scroll.screenLines then
    s.removeWhere (fun p _ => scrollWhole scroll p) .unaddressable
  else
    s.removeWhere (fun p _ =>
      if p.isVirtual then some p else scrollInRegion p scroll (-scroll.lines) cell) .unaddressable

/-- `rescale`: recompute what every placement covers after the cell size changed. -/
def rescale (s : ImageStore F) (cell : CellPixels) : ImageStore F :=
  { s with placements := s.placements.map fun p =>
      if p.isVirtual then p
      else ({ p with
        cellX := min p.cellX (cell.width - 1)
        cellY := min p.cellY (cell.height - 1) } : Placement F).fit cell }

/-- `anchors`: the first cell of every real placement. -/
def anchors (s : ImageStore F) : List (ℕ × ℤ × ℤ) :=
  (s.placements.filter fun p => !p.isVirtual).map fun p => (p.key, p.row, p.col)

/-- `apply_anchors`: move every real placement to where its first cell ended up. -/
def applyAnchors (s : ImageStore F) (moved : ℕ → Option (ℤ × ℤ)) : ImageStore F :=
  s.removeWhere (fun p _ =>
    if p.isVirtual then some p
    else (moved p.key).map fun cell => { p with row := cell.1, col := cell.2 }) .unaddressable

end ImageStore

end Vivido.Graphics
