import Vivido.Grid.Cell
import Vivido.Support.SwapLoop

/-!
The extra content of a row's cells: combining characters and resize tracking.
Entries never change once added; an update adds the new content and the cell
points at it. `compact` moves the entries in use to the front and numbers them
anew, and resizing carries entries between rows through one gathered list.
-/

namespace Vivido.Terminal

open SwapLoop

structure CellExtra where
  zerowidth : List Char := []
  vividResizeTracking : List ℕ := []
  deriving DecidableEq, Repr, Inhabited

def CellExtra.isEmpty (extra : CellExtra) : Bool :=
  extra.zerowidth.isEmpty && extra.vividResizeTracking.isEmpty

namespace ExtraId

/-- `ExtraId::new`: the id of entry `position`, which is `extra`. -/
def ofPosition (position : ℕ) (extra : CellExtra) : ExtraId :=
  { number := position + 1, hasZerowidth := !extra.zerowidth.isEmpty }

/-- Position in the list, or nothing for `none`. -/
def position (id : ExtraId) : Option ℕ := if id.number = 0 then Option.none else some (id.number - 1)

end ExtraId

structure RowExtras where
  entries : List CellExtra := []
  deriving DecidableEq, Repr, Inhabited

namespace RowExtras

/-- The content an id refers to. -/
def get (extras : RowExtras) (id : ExtraId) : Option CellExtra :=
  id.position.bind fun position => extras.entries[position]?

/-- The combining characters an id refers to. -/
def zerowidth (extras : RowExtras) (id : ExtraId) : Option (List Char) :=
  if id.hasZerowidth then (extras.get id).map CellExtra.zerowidth else none

/-- Add content; the empty content is not stored. -/
def push (extras : RowExtras) (extra : CellExtra) : RowExtras × ExtraId :=
  if extra.isEmpty then (extras, ExtraId.none)
  else ({ entries := extras.entries ++ [extra] }, ExtraId.ofPosition extras.entries.length extra)

/-- The id of the content of `id` after `change`; the entry of `id` stays. -/
def update (extras : RowExtras) (id : ExtraId) (change : CellExtra → CellExtra) :
    RowExtras × ExtraId :=
  extras.push (change ((extras.get id).getD {}))

def len (extras : RowExtras) : ℕ := extras.entries.length

def isEmpty (extras : RowExtras) : Bool := extras.entries.isEmpty

def clear (_extras : RowExtras) : RowExtras := {}

/-- One round of the loop in `compact`: a used entry moves to place `kept`. -/
def compactStep (used : List Bool) (state : List CellExtra × List ExtraId × ℕ) (position : ℕ) :
    List CellExtra × List ExtraId × ℕ :=
  let (entries, remap, kept) := state
  if used.getD position false then
    let entries := swapAt entries kept position
    (entries, remap.set position (ExtraId.ofPosition kept (entries.getD kept {})), kept + 1)
  else (entries, remap, kept)

/-- The entries some id refers to. -/
def usedEntries (extras : RowExtras) (ids : List ExtraId) : List Bool :=
  (ids.filterMap ExtraId.position).foldl (fun used position => used.set position true)
    (List.replicate extras.entries.length false)

/-- Keep only the entries `ids` refer to, renumbered, with each position's new id. -/
def compact (extras : RowExtras) (ids : List ExtraId) : RowExtras × List ExtraId :=
  let (entries, remap, kept) := (List.range extras.entries.length).foldl
    (compactStep (extras.usedEntries ids))
    (extras.entries, List.replicate extras.entries.length ExtraId.none, 0)
  ({ entries := entries.take kept }, remap)

/-- The new id of an id after `compact`. -/
def remapped (remap : List ExtraId) (id : ExtraId) : ExtraId :=
  match id.position with
  | some position => remap.getD position ExtraId.none
  | none => ExtraId.none

/-- Move the entry of `id` to the end of the gathered list. -/
def exportEntry (extras : RowExtras) (id : ExtraId) (gathered : List CellExtra) :
    RowExtras × List CellExtra × ExtraId :=
  match id.position with
  | some position =>
      let extra := extras.entries.getD position {}
      ({ entries := extras.entries.set position {} }, gathered ++ [extra],
        ExtraId.ofPosition gathered.length extra)
  | none => (extras, gathered, ExtraId.none)

/-- Take the entry of `id` out of the gathered list into the row. -/
def importEntry (extras : RowExtras) (id : ExtraId) (gathered : List CellExtra) :
    RowExtras × List CellExtra × ExtraId :=
  match id.position with
  | some position =>
      let (extras, id) := extras.push (gathered.getD position {})
      (extras, gathered.set position {}, id)
  | none => (extras, gathered, ExtraId.none)

end RowExtras

end Vivido.Terminal
