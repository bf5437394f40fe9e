import Vivido.Graphics.Run

/-!
How the graphics state tells the renderer to draw again. What removes or moves
placements reports whether it did, and the terminal then raises a flag and counts
a revision up. Which operations report, and how often each raises the flag, is
kept here beside the state; what the renderer reads of the state is stated apart.
-/

namespace Vivido.Graphics

variable {F : Type} [F32 F]

/-- `PartialEq` of placements, which compares the source rectangle in single precision. -/
def Placement.same (p q : Placement F) : Bool :=
  p.key = q.key && p.image = q.image && p.id = q.id && p.row = q.row && p.col = q.col &&
    F32.eq p.srcX q.srcX && F32.eq p.srcY q.srcY && F32.eq p.srcW q.srcW &&
    F32.eq p.srcH q.srcH && p.cellX = q.cellX && p.cellY = q.cellY && p.cols = q.cols &&
    p.rows = q.rows && p.effCols = q.effCols && p.effRows = q.effRows && p.z = q.z &&
    p.isVirtual = q.isVirtual

/-! ### What the operations on a store return -/

namespace ImageStore

/-- Whether `remove_image` finds an image. -/
def removesImage (s : ImageStore F) (key : ℕ) : Bool := (s.images.lookup key).isSome

/-- Whether `remove_image` finds one for any of these keys, one after the other. -/
def removesAny (s : ImageStore F) : List ℕ → Bool
  | [] => false
  | key :: keys => s.removesImage key || (s.removeImage key).removesAny keys

/-- Whether `remove_by_id` finds an image. -/
def removesById (s : ImageStore F) (id : ℕ) : Bool := (s.keyById id).any s.removesImage

/-- Whether `reap` frees an image. -/
def reaps (s : ImageStore F) (reap : Reap) : Bool :=
  !(s.images.entries.filter fun entry => entry.2.refs = 0 && reap.frees entry.2).isEmpty

/-- Whether `remove_where` removes a placement or frees an image. -/
def removesWhere (s : ImageStore F) (move : Placement F → Image → Option (Placement F))
    (reap : Reap) : Bool :=
  let swept := s.placements.foldl (sweepOne move) { s with placements := [] }
  swept.reaps reap || swept.placements.length ≠ s.placements.length

/-- `removesWhere` for placements that stay as they are. -/
def removesIf (s : ImageStore F) (remove : Placement F → Image → Bool) (reap : Reap) : Bool :=
  s.removesWhere (fun p image => if remove p image then none else some p) reap

/-- Whether `deleteImage` removes anything. -/
def deletesImage (s : ImageStore F) (key : Option ℕ) (placement : ℕ) (reap : Reap) : Bool :=
  match key with
  | none => false
  | some key =>
      let idle := (s.images.lookup key).any fun image => image.refs = 0
      if idle ∧ placement = 0 then reap = .matched && s.removesImage key
      else s.removesIf (fun p _ => p.image = key && (placement = 0 || p.id = placement)) reap

/-- Whether `deleteRange` removes anything. -/
def deletesRange (s : ImageStore F) (first last : ℕ) (reap : Reap) : Bool :=
  let inRange := fun image : Image => image.id ≠ 0 && first ≤ image.id && image.id ≤ last
  let idle := (s.images.entries.filter fun entry =>
    entry.2.refs = 0 && inRange entry.2).map Prod.fst
  let changed := reap = .matched && s.removesAny idle
  let s := if reap = .matched then s.removeImages idle else s
  s.removesIf (fun _ image => inRange image) reap || changed

/-- Whether `delete` removes anything. -/
def deletes (s : ImageStore F) (command : Command) (row col : ℤ) : Bool :=
  let selector := if command.delete = 0 then ascii 'a' else command.delete
  let reap := reapOf selector
  let x : ℤ := command.x - 1
  let y : ℤ := command.y - 1
  match (Char.ofNat selector.toNat).toLower with
  | 'a' => s.removesIf (fun p _ => !p.isVirtual && 0 < p.endRow) reap
  | 'i' => s.deletesImage (s.keyById command.id) command.placement reap
  | 'n' => s.deletesImage (s.keyByNumber command.number) command.placement reap
  | 'r' => s.deletesRange command.x command.y reap
  | 'p' => s.removesIf (fun p _ => !p.isVirtual && p.inCols x && p.inRows y) reap
  | 'q' => s.removesIf
      (fun p _ => !p.isVirtual && p.z = command.z && p.inCols x && p.inRows y) reap
  | 'x' => s.removesIf (fun p _ => !p.isVirtual && p.inCols x) reap
  | 'y' => s.removesIf (fun p _ => !p.isVirtual && p.inRows y) reap
  | 'z' => s.removesIf (fun p _ => !p.isVirtual && p.z = command.z) reap
  | 'c' => s.removesIf (fun p _ => !p.isVirtual && p.inCols col && p.inRows row) reap
  | _ => false

/-- Whether `clear` removes anything. -/
def clears (s : ImageStore F) (history : Bool) : Bool :=
  s.removesIf (fun p _ => !p.isVirtual && (history || 0 < p.endRow)) .unreferenced

/-- Whether `clear_history` removes anything. -/
def clearsHistory (s : ImageStore F) : Bool :=
  s.removesIf (fun p _ => !p.isVirtual && p.endRow ≤ 0) .unreferenced

/-- How `scroll` moves a placement. -/
def moves (scroll : Scroll) (cell : CellPixels) (p : Placement F) (_ : Image) :
    Option (Placement F) :=
  if scroll.top = 0 ∧ scroll.stop = scroll.screenLines then scrollWhole scroll p
  else if p.isVirtual then some p
  else scrollInRegion p scroll (-scroll.lines) cell

/-- Whether `scroll` removes anything, or leaves a placement that differs. -/
def scrolls (s : ImageStore F) (scroll : Scroll) (cell : CellPixels) : Bool :=
  if !s.hasPlacements || scroll.lines = 0 then false
  else s.removesWhere (moves scroll cell) .unaddressable ||
    !(s.placements.isEqv (s.scroll scroll cell).placements Placement.same)

end ImageStore

/-! ### How often the flag is raised -/

namespace KittyGraphics

/-- `begin_load` replaces the image with the id of a transmission. -/
def touchesBegin (g : KittyGraphics F) (start : Command) : ℕ :=
  let both := start.id ≠ 0 ∧ start.number ≠ 0
  if ¬both ∧ start.action ≠ ascii 'q' ∧ start.id ≠ 0 ∧ g.store.removesById start.id then 1 else 0

/-- `control_complete` begins a transmission that none in progress continues. -/
def touchesControl (g : KittyGraphics F) : ℕ :=
  match Command.parse g.control with
  | none => 0
  | some command =>
      if g.continues command then 0
      else if command.action = 0 ∨ command.action = ascii 't' ∨ command.action = ascii 'T' ∨
          command.action = ascii 'q' then g.touchesBegin command
      else 0

/-- The control data of a command may end among these bytes. -/
def touchesPutControl (g : KittyGraphics F) (bytes : List UInt8) : ℕ :=
  let control := bytes.takeWhile (· ≠ ascii ';')
  if maxControlBytes < g.control.length + control.length then 0
  else
    match bytes.dropWhile (· ≠ ascii ';') with
    | [] => 0
    | _ :: _ => ({ g with control := g.control ++ control } : KittyGraphics F).touchesControl

def touchesPut (g : KittyGraphics F) (bytes : List UInt8) : ℕ :=
  match g.sink, bytes with
  | .start, first :: rest => if first = ascii 'G' then g.touchesPutControl rest else 0
  | .control, bytes => g.touchesPutControl bytes
  | _, _ => 0

section

variable (decoders : Decoders)

/-- `load_complete` stores an image, and `put` raises the flag once more if it is shown. -/
def touchesLoad (g : KittyGraphics F) (load : Load) : ℕ :=
  let start := load.start
  if start.action = ascii 'q' ∧ start.id = 0 then 0
  else
    match load.finish.bind (g.receive decoders) with
    | .error _ => 0
    | .ok _ =>
        if start.action = ascii 'q' then 0
        else if start.action = ascii 'T' then 2
        else 1

def touchesChunk (g : KittyGraphics F) (command : Command) : ℕ :=
  match g.loader with
  | none => 0
  | some load =>
      if command.more ≠ 0 then 0
      else ({ g with loader := none } : KittyGraphics F).touchesLoad decoders
        (load.closeChunk decoders command)

/-- `place` puts a placement of an image that is there. -/
def touchesPlace (g : KittyGraphics F) (command : Command) : ℕ :=
  if command.id = 0 ∧ command.number = 0 then 0
  else if command.id ≠ 0 ∧ command.number ≠ 0 then 0
  else if command.parent ≠ 0 then 0
  else
    let key := if command.id ≠ 0 then g.store.keyById command.id
      else g.store.keyByNumber command.number
    if (key.bind g.store.images.lookup).isSome then 1 else 0

def touchesExecute (g : KittyGraphics F) (feeding : Bool) (command : Command) (cursor : Cursor) :
    ℕ :=
  if feeding then g.touchesChunk decoders command
  else if command.action = ascii 'p' then g.touchesPlace command
  else if command.action = ascii 'd' then
    if g.store.deletes command cursor.row cursor.col then 1 else 0
  else 0

/-- `apc_end`: the control data may end with the command, and the command runs. -/
def touchesEnd (g : KittyGraphics F) (cancelled : Bool) (cursor : Cursor) : ℕ :=
  let closed := g.apcClose cancelled
  (if g.sink = .control then g.touchesControl else 0) +
    match closed.2 with
    | (.payload feeding, some command) =>
        if cancelled then 0 else closed.1.touchesExecute decoders feeding command cursor
    | _ => 0

end

/-- `finish_jobs`: a decode finds its image still there. -/
def touchesFinish (g : KittyGraphics F) : List FinishedJob → ℕ
  | [] => 0
  | job :: jobs => (if job.target.any g.isLive then 1 else 0) + (g.finishJob job).touchesFinish jobs

/-- How often something that happens raises the flag. -/
def touches (decoders : Decoders) (g : KittyGraphics F) : Op → ℕ
  | .apcPut bytes => g.touchesPut bytes
  | .apcEnd cancelled cursor => g.touchesEnd decoders cancelled cursor
  | .finishJobs jobs => g.touchesFinish (jobs.map (QueuedJob.run decoders))
  | .setCell cell => if cell = g.cell then 0 else 1
  | .scroll scroll => if g.store.scrolls scroll g.cell then 1 else 0
  | .clearScreen history => if g.store.clears history then 1 else 0
  | .clearHistory => if g.store.clearsHistory then 1 else 0
  | .setAlternate alternate => if alternate = g.active then 0 else 1
  | .reset => if g.primary.isEmpty && g.alternate.isEmpty then 0 else 1
  | .applyAnchors _ => 1
  | _ => 0

/-- Whether something begins another lifetime of the screen. -/
def renews (g : KittyGraphics F) : Op → Bool
  | .setAlternate alternate => alternate ≠ g.active
  | .reset => true
  | _ => false

end KittyGraphics

/-! ### What the renderer is told -/

/-- The graphics state with what tells the renderer that it changed. -/
structure Tracked (F : Type) where
  graphics : KittyGraphics F := {}
  /-- Changes on every visible change. -/
  revision : BitVec 64 := 0
  /-- Changes on screen switches and resets. -/
  screenEpoch : BitVec 64 := 0
  /-- Raised by a visible change, and lowered by `take_dirty`. -/
  dirty : Bool := false

/-- One thing that happens to it. -/
inductive Event where
  | op (op : Op)
  | takeDirty

namespace Tracked

/-- `touch`. -/
def touch (t : Tracked F) : Tracked F := { t with revision := t.revision + 1, dirty := true }

/-- `take_dirty`: whether anything visible changed since the last call. -/
def takeDirty (t : Tracked F) : Tracked F × Bool := ({ t with dirty := false }, t.dirty)

/-- The state after something happened. -/
def apply (decoders : Decoders) (t : Tracked F) (op : Op) : Tracked F :=
  touch^[t.graphics.touches decoders op] { t with
    graphics := t.graphics.apply decoders op
    screenEpoch := if t.graphics.renews op then t.screenEpoch + 1 else t.screenEpoch }

def step (decoders : Decoders) (t : Tracked F) : Event → Tracked F
  | .op op => t.apply decoders op
  | .takeDirty => t.takeDirty.1

/-- The state after a sequence of events. -/
def run (decoders : Decoders) (t : Tracked F) (events : List Event) : Tracked F :=
  events.foldl (step decoders) t

/-- The state after a sequence of events from the start. -/
def after (decoders : Decoders) (events : List Event) : Tracked F :=
  ({} : Tracked F).run decoders events

/-- How often an event raises the flag. -/
def raises (decoders : Decoders) (t : Tracked F) : Event → ℕ
  | .op op => t.graphics.touches decoders op
  | .takeDirty => 0

/-- How often a sequence of events raises the flag. -/
def touched (decoders : Decoders) (t : Tracked F) : List Event → ℕ
  | [] => 0
  | event :: events => t.raises decoders event + (t.step decoders event).touched decoders events

end Tracked

/-! ### What the renderer reads -/

/-- An image as it is drawn, without what is kept only for when it may go. -/
def Image.drawn (image : Image) : Image := { image with refs := 0, used := 0, matched := false }

/-- What of a screen's graphics can be seen. -/
structure Visible (F : Type) where
  cell : CellPixels
  images : SortedMap ℕ Image
  /-- Each placement, with its image. -/
  placements : List (Image × Placement F)
  /-- The image and placement that placeholder cells naming an id and a placement refer to. -/
  placeholders : ℕ → ℕ → Option (Image × Placement F)

/-- `virtual_placement`. -/
def ImageStore.virtualPlacement (s : ImageStore F) (id placement : ℕ) :
    Option (Image × Placement F) :=
  (s.keyById id).bind fun key =>
    (s.placements.find? fun p =>
      p.isVirtual && p.image = key && (placement = 0 || p.id = placement)).bind fun found =>
        (s.images.lookup key).map (·, found)

/-- What a store shows with cells of a size. -/
def ImageStore.visible (s : ImageStore F) (cell : CellPixels) : Visible F where
  cell := cell
  images := s.images.mapValues fun _ image => image.drawn
  placements := s.placements.filterMap fun p =>
    (s.images.lookup p.image).map fun image => (image.drawn, p)
  placeholders := fun id placement =>
    (s.virtualPlacement id placement).map fun found => (found.1.drawn, found.2)

/-- What the displayed screen shows. -/
def KittyGraphics.visible (g : KittyGraphics F) : Visible F := g.store.visible g.cell

end Vivido.Graphics
