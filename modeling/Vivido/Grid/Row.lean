import Vivido.Grid.Extras

/-!
Rows of cells. `occ` bounds the cells changed since the last reset, so that a
reset touches no more than it must; every mutable access raises it. Extra
content of a row's cells lives with the row.
-/

namespace Vivido.Terminal

open List

structure Row where
  inner : List Cell := []
  occ : ℕ := 0
  extras : RowExtras := {}
  deriving DecidableEq, Repr, Inhabited

namespace Row

/-- `Row::new`. -/
def new (columns : ℕ) : Row where
  inner := List.replicate columns {}

/-- `Row::from_vec`. -/
def fromVec (cells : List Cell) (occ : ℕ) : Row where
  inner := cells
  occ := occ

def len (row : Row) : ℕ := row.inner.length

/-- `Index<Column>`. -/
def get (row : Row) (column : ℕ) : Cell := row.inner.getD column {}

/-- `IndexMut<Column>`. -/
def modify (row : Row) (column : ℕ) (update : Cell → Cell) : Row :=
  { row with inner := row.inner.modify column update, occ := max row.occ (column + 1) }

/-- Overwrite the cells from `start` up to `stop` through a slice that ends at
`stop`; the whole row counts as changed when the slice is open on the right. -/
def fillRange (row : Row) (start stop : ℕ) (cell : Cell) (openEnded : Bool) : Row :=
  { row with
    inner := row.inner.mapIdx fun column old =>
      if start ≤ column ∧ column < stop then cell else old,
    occ := if openEnded then row.inner.length else max row.occ stop }

/-- `row.swap` through a full slice, for each pair in turn. -/
def swapCells (row : Row) (pairs : List (ℕ × ℕ)) : Row :=
  { row with
    inner := pairs.foldl (fun cells pair => SwapLoop.swapAt cells pair.1 pair.2) row.inner
    occ := row.inner.length }

/-- `Row::last`. -/
def last (row : Row) : Option Cell := row.inner.getLast?

/-- Apply `update` to the last cell through `Row::last_mut`. -/
def modifyLast (row : Row) (update : Cell → Cell) : Row :=
  { row with inner := row.inner.modify (row.inner.length - 1) update, occ := row.inner.length }

def grow (row : Row) (columns : ℕ) : Row :=
  { row with inner := row.inner ++ List.replicate (columns - row.inner.length) {} }

/-- The cells up to the last nonempty one. -/
def trimEnd (cells : List Cell) : List Cell :=
  (cells.reverse.dropWhile Cell.isEmpty).reverse

/-- Cut the row down to `columns`; the nonempty part of what was cut, if any. -/
def shrink (row : Row) (columns : ℕ) : Row × Option (List Cell) :=
  if row.inner.length ≤ columns then (row, none)
  else
    let cut := trimEnd (row.inner.drop columns)
    ({ row with inner := row.inner.take columns, occ := min row.occ columns },
      if cut.isEmpty then none else some cut)

/-- The number of cells a reset to `template` rewrites. -/
def dirty (row : Row) (template : Cell) : ℕ :=
  if (row.inner.getLastD {}).style ≠ template.style then row.inner.length else row.occ

def reset (row : Row) (template : Cell) : Row where
  inner := (row.inner.take (row.dirty template)).map (·.reset template) ++
    row.inner.drop (row.dirty template)
  occ := 0
  extras := row.extras.clear

def append (row : Row) (cells : List Cell) : Row :=
  { row with inner := row.inner ++ cells, occ := row.occ + cells.length }

def appendFront (row : Row) (cells : List Cell) : Row :=
  { row with inner := cells ++ row.inner, occ := row.occ + cells.length }

def isClear (row : Row) : Bool := row.inner.all Cell.isEmpty

/-- Remove the first `count` cells: what stays and what was removed. -/
def frontSplitOff (row : Row) (count : ℕ) : Row × List Cell :=
  ({ row with inner := row.inner.drop count, occ := row.occ - count }, row.inner.take count)

/-- Let `write` fill a prefix of the `len` cells from `start`. It returns the
new cells, how many of them it wrote, and anything else it computed. -/
def writePrefix {τ : Type*} (row : Row) (start len : ℕ)
    (write : List Cell → List Cell × ℕ × τ) : Row × ℕ × τ :=
  let (cells, written, more) := write ((row.inner.drop start).take len)
  ({ row with
      inner := row.inner.take start ++ cells ++ row.inner.drop (start + len)
      occ := if 0 < written then max row.occ (start + written) else row.occ },
    written, more)

/-- Reset the row while `write` fills a prefix of its first `len` cells: only
cells it did not write are reset afterwards. -/
def resetWithPrefix {τ : Type*} (row : Row) (template : Cell) (len : ℕ)
    (write : List Cell → List Cell × ℕ × τ) : Row × ℕ × τ :=
  let stop := row.dirty template
  let (cells, written, more) := write (row.inner.take len)
  let inner := cells ++ row.inner.drop len
  ({ inner := inner.mapIdx fun column cell =>
        if written ≤ column ∧ column < stop then cell.reset template else cell,
      occ := written,
      extras := row.extras.clear },
    written, more)

/-- The combining characters over a cell of the row. -/
def zerowidth (row : Row) (cell : Cell) : Option (List Char) := row.extras.zerowidth cell.extra

/-- The number of entries beyond which the row compacts them. -/
def extrasLimit (row : Row) : ℕ := min (2 * max row.inner.length 8) (packedCapacity - 1)

/-- Drop the entries no cell refers to and renumber the rest. -/
def compactExtras (row : Row) : Row :=
  let (extras, remap) := row.extras.compact (row.inner.map Cell.extra)
  { row with
    inner := row.inner.map fun cell => cell.setExtraId (RowExtras.remapped remap cell.extra),
    extras := extras }

/-- Change the extra content of the cell at `column`. -/
def updateExtra (row : Row) (column : ℕ) (change : CellExtra → CellExtra) : Row :=
  let (extras, id) := row.extras.update (row.get column).extra change
  let row := { row.modify column (·.setExtraId id) with extras := extras }
  if row.extrasLimit < row.extras.len then row.compactExtras else row

/-- The cells of `export_extras`, each sending its entry to the gathered list. -/
def exportCells : List Cell → RowExtras → List CellExtra → List Cell × List CellExtra
  | [], _, gathered => ([], gathered)
  | cell :: cells, extras, gathered =>
      let (extras, gathered, id) := extras.exportEntry cell.extra gathered
      let (cells, gathered) := exportCells cells extras gathered
      (cell.setExtra id :: cells, gathered)

/-- Move every cell's extra content into the gathered list. -/
def exportExtras (row : Row) (gathered : List CellExtra) : Row × List CellExtra :=
  if row.extras.isEmpty then (row, gathered)
  else
    let (cells, gathered) := exportCells row.inner row.extras gathered
    ({ row with inner := cells, extras := row.extras.clear }, gathered)

/-- Take the extra content of the row's cells back from the gathered list, from
`column` on. -/
def importCells : List Cell → ℕ → Row → List CellExtra → Row × List CellExtra
  | [], _, row, gathered => (row, gathered)
  | cell :: cells, column, row, gathered =>
      if cell.extra = ExtraId.none then
        importCells cells (column + 1) { row with inner := row.inner ++ [cell] } gathered
      else
        let (extras, gathered, id) := row.extras.importEntry cell.extra gathered
        importCells cells (column + 1)
          { inner := row.inner ++ [cell.setExtra id], occ := max row.occ (column + 1),
            extras := extras } gathered

/-- Take the extra content of the row's cells back into the row. -/
def importExtras (row : Row) (gathered : List CellExtra) : Row × List CellExtra :=
  importCells row.inner 0 { row with inner := [] } gathered

/-- The row a reset leaves: `columns` blank cells in a style. -/
def blankRow (columns : ℕ) (style : StyleId) : Row where
  inner := List.replicate columns (Terminal.blank style)

/-- The cells past the occupied ones are blank, all in one style. -/
structure Tidy (row : Row) (columns : ℕ) : Prop where
  len : row.inner.length = columns
  blank : ∃ style, row.inner.drop row.occ = List.replicate (columns - row.occ) (Terminal.blank style)

theorem tidy_blankRow (columns : ℕ) (style : StyleId) : (blankRow columns style).Tidy columns :=
  ⟨length_replicate, style, rfl⟩

theorem new_eq (columns : ℕ) : new columns = blankRow columns {} := rfl

variable {columns : ℕ}

theorem reset_eq {row : Row} (h : row.Tidy columns) (template : Cell) :
    row.reset template = blankRow columns template.style := by
  obtain ⟨hlen, style, hblank⟩ := h
  have hprefix : ∀ n, (row.inner.take n).map (·.reset template) =
      List.replicate (min n columns) (Terminal.blank template.style) := by
    intro n
    simp only [Cell.reset_eq]
    rw [map_const', length_take, hlen]
  unfold reset blankRow dirty
  simp only [RowExtras.clear, hprefix]
  congr 1
  split
  · rw [drop_length, hlen, Nat.min_self, append_nil]
  rename_i hstyle
  rw [hblank]
  by_cases hocc : columns ≤ row.occ
  · rw [Nat.min_eq_right hocc, Nat.sub_eq_zero_of_le hocc, replicate_zero, append_nil]
  have hlast : row.inner.getLastD {} = Terminal.blank style := by
    have hmem := getLast?_drop (l := row.inner) (i := row.occ)
    rw [hblank, if_neg (by omega), getLast?_replicate, if_neg (by omega)] at hmem
    rw [getLastD_eq_getLast?, ← hmem, Option.getD_some]
  rw [hlast] at hstyle
  have hsame : style = template.style := not_not.mp hstyle
  rw [hsame, replicate_append_replicate]
  congr 1
  omega

theorem tidy_reset {row : Row} (h : row.Tidy columns) (template : Cell) :
    (row.reset template).Tidy columns := by
  rw [reset_eq h]
  exact tidy_blankRow _ _

theorem tidy_modify {row : Row} (h : row.Tidy columns) (column : ℕ) (update : Cell → Cell) :
    (row.modify column update).Tidy columns := by
  obtain ⟨hlen, style, hblank⟩ := h
  refine ⟨by rw [← hlen]; exact length_modify .., style, ?_⟩
  have hrest : (row.modify column update).inner.drop (max row.occ (column + 1)) =
      row.inner.drop (max row.occ (column + 1)) := by
    apply ext_getElem?
    intro i
    rw [getElem?_drop, getElem?_drop]
    exact getElem?_modify_ne _ _ (by omega)
  have hdrop := congrArg (List.drop (max row.occ (column + 1) - row.occ)) hblank
  rw [drop_drop, drop_replicate] at hdrop
  change (row.modify column update).inner.drop (max row.occ (column + 1)) = _
  rw [hrest, show (row.modify column update).occ = max row.occ (column + 1) from rfl]
  rw [show max row.occ (column + 1) = row.occ + (max row.occ (column + 1) - row.occ) by omega, hdrop]
  congr 1
  omega

end Row

end Vivido.Terminal
