import Vivido.Grid.Row

/-!
Properties of rows that the terminal's updates keep. The first is that a row is
as wide as its grid.
-/

namespace Vivido.Terminal

open List

/-- The changes that printing makes to a single cell. -/
inductive CellWrite : (Cell → Cell) → Prop
  | insertLayout (flags : Layout) : CellWrite (·.insertLayout flags)
  | removeLayout (flags : Layout) : CellWrite (·.removeLayout flags)
  | clearWide : CellWrite Cell.clearWide
  | write (c : Char) (style : StyleId) (layout : Layout) : CellWrite (·.write c style layout)
  | tab (c : Char) : CellWrite fun cell => if cell.c = ' ' then cell.setC c else cell

namespace Row

/-- A property of rows of a given width that every update of a row keeps. -/
structure Invariant (P : ℕ → Row → Prop) : Prop where
  len : ∀ {columns row}, P columns row → row.inner.length = columns
  new : ∀ columns, P columns (Row.new columns)
  reset : ∀ {columns row} (template : Cell), P columns row → P columns (row.reset template)
  modify : ∀ {columns row update} (column : ℕ), CellWrite update → P columns row →
    P columns (row.modify column update)
  fillRange : ∀ {columns row cell} (start stop : ℕ) (openEnded : Bool), cell.isSimple →
    P columns row → P columns (row.fillRange start stop cell openEnded)
  swapCells : ∀ {columns row} (pairs : List (ℕ × ℕ)), P columns row →
    P columns (row.swapCells pairs)
  updateExtra : ∀ {columns row} (column : ℕ) (change : CellExtra → CellExtra), P columns row →
    P columns (row.updateExtra column change)
  mapStyles : ∀ {columns row} (f : StyleId → StyleId), P columns row →
    P columns { row with inner := row.inner.map fun cell => cell.setStyle (f cell.style) }

/-- The row has the grid's width. -/
def OfWidth (columns : ℕ) (row : Row) : Prop := row.inner.length = columns

instance (columns : ℕ) (row : Row) : Decidable (row.OfWidth columns) :=
  inferInstanceAs (Decidable (_ = _))

theorem length_swaps (cells : List Cell) (pairs : List (ℕ × ℕ)) :
    (pairs.foldl (fun cells pair => SwapLoop.swapAt cells pair.1 pair.2) cells).length =
      cells.length := by
  induction pairs generalizing cells with
  | nil => rfl
  | cons _ _ ih => exact (ih _).trans (SwapLoop.length_swapAt ..)

theorem length_reset (row : Row) (template : Cell) :
    (row.reset template).inner.length = row.inner.length := by
  unfold reset
  simp only [length_append, length_map, length_take, length_drop]
  omega

theorem invariant_ofWidth : Invariant OfWidth where
  len h := h
  new _ := length_replicate
  reset template h := (length_reset _ template).trans h
  modify _ _ h := (length_modify ..).trans h
  fillRange _ _ _ _ h := List.length_mapIdx.trans h
  swapCells pairs h := (length_swaps _ pairs).trans h
  updateExtra column change h := by
    unfold updateExtra
    dsimp only
    split
    · exact (length_map ..).trans ((length_modify ..).trans h)
    · exact (length_modify ..).trans h
  mapStyles _ h := (length_map ..).trans h

end Row

end Vivido.Terminal
