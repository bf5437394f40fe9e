import Vivido.Grid.Row

/-!
A block of cells written into a row. The prefix writers write one such block,
over the row as it is or over the row reset, and so does a sequence of single
cell writes.
-/

namespace Vivido.Terminal

open List

namespace Row

/-- Write a block of cells from column `start` on. -/
def writeCells (row : Row) (start : ℕ) (cells : List Cell) : Row :=
  { row with
    inner := row.inner.take start ++ cells ++ row.inner.drop (start + cells.length)
    occ := if 0 < cells.length then max row.occ (start + cells.length) else row.occ }

theorem writeCells_nil (row : Row) (start : ℕ) : row.writeCells start [] = row := by
  unfold writeCells
  simp

theorem drop_writeCells {row : Row} {start : ℕ} {cells : List Cell} (h : start ≤ row.inner.length) :
    (row.writeCells start cells).inner.drop (start + cells.length) =
      row.inner.drop (start + cells.length) := by
  have hlen : (row.inner.take start ++ cells).length = start + cells.length := by
    rw [length_append, length_take, Nat.min_eq_left h]
  unfold writeCells
  dsimp only
  rw [← hlen, drop_left]

theorem writePrefix_eq {τ : Type*} {row : Row} {start len : ℕ}
    {write : List Cell → List Cell × ℕ × τ} {written : List Cell} {more : τ}
    (hwritten : written.length ≤ ((row.inner.drop start).take len).length)
    (h : write ((row.inner.drop start).take len) =
      (written ++ ((row.inner.drop start).take len).drop written.length, written.length, more)) :
    row.writePrefix start len write = (row.writeCells start written, written.length, more) := by
  have hrest : ((row.inner.drop start).take len).drop written.length ++
      row.inner.drop (start + len) = row.inner.drop (start + written.length) := by
    have hle : written.length ≤ len := by
      rw [length_take] at hwritten
      omega
    rw [drop_take, drop_drop]
    conv_rhs => rw [← take_append_drop (len - written.length)
      (row.inner.drop (start + written.length))]
    rw [drop_drop, show start + written.length + (len - written.length) = start + len by omega]
  unfold writePrefix
  rw [h]
  dsimp only
  unfold writeCells
  rw [← append_assoc, append_assoc (row.inner.take start ++ written), hrest]

theorem getElem?_reset (row : Row) (template : Cell) (i : ℕ) :
    (row.reset template).inner[i]? = row.inner[i]?.map fun cell =>
      if i < row.dirty template then cell.reset template else cell := by
  have hlen : ((row.inner.take (row.dirty template)).map (·.reset template)).length =
      min (row.dirty template) row.inner.length := by
    rw [length_map, length_take]
  unfold reset
  dsimp only
  by_cases hi : i < min (row.dirty template) row.inner.length
  · have hdirty : i < row.dirty template := by omega
    rw [getElem?_append_left (by omega), getElem?_map, getElem?_take_of_lt hdirty]
    simp only [hdirty, if_true]
  · rw [getElem?_append_right (by omega), hlen, getElem?_drop]
    by_cases hdirty : i < row.dirty template
    · rw [getElem?_eq_none (by omega), getElem?_eq_none (by omega)]
      rfl
    · simp only [hdirty, if_false, Option.map_id']
      by_cases hle : row.dirty template ≤ row.inner.length
      · rw [Nat.min_eq_left hle, show row.dirty template + (i - row.dirty template) = i by omega]
      · rw [getElem?_eq_none (by omega), getElem?_eq_none (by omega)]

theorem resetWithPrefix_eq {τ : Type*} {row : Row}
    {template : Cell} {len : ℕ} {write : List Cell → List Cell × ℕ × τ} {written : List Cell}
    {more : τ} (hwritten : written.length ≤ (row.inner.take len).length)
    (h : write (row.inner.take len) =
      (written ++ (row.inner.take len).drop written.length, written.length, more)) :
    row.resetWithPrefix template len write =
      ((row.reset template).writeCells 0 written, written.length, more) := by
  rw [length_take] at hwritten
  have hinner : written ++ (row.inner.take len).drop written.length ++ row.inner.drop len =
      written ++ row.inner.drop written.length := by
    have hrest : (row.inner.take len).drop written.length ++ row.inner.drop len =
        row.inner.drop written.length := by
      rw [drop_take]
      conv_rhs => rw [← take_append_drop (len - written.length)
        (row.inner.drop written.length)]
      rw [drop_drop, show written.length + (len - written.length) = len by omega]
    rw [append_assoc, hrest]
  have hcells : ((written ++ row.inner.drop written.length).mapIdx fun column cell =>
      if written.length ≤ column ∧ column < row.dirty template then cell.reset template else cell) =
      written ++ (row.reset template).inner.drop written.length := by
    apply ext_getElem?
    intro i
    rw [getElem?_mapIdx]
    by_cases hi : i < written.length
    · have hout : ¬written.length ≤ i := by omega
      rw [getElem?_append_left hi, getElem?_append_left hi]
      simp only [hout, false_and, if_false, Option.map_id']
    · rw [getElem?_append_right (by omega), getElem?_append_right (by omega),
        getElem?_drop, getElem?_drop, getElem?_reset,
        show written.length + (i - written.length) = i by omega]
      have hle : written.length ≤ i := by omega
      simp only [hle, true_and]
  unfold resetWithPrefix
  rw [h]
  dsimp only
  rw [hinner, hcells]
  unfold writeCells reset
  dsimp only
  congr 2
  · simp
  · split <;> omega

end Row

end Vivido.Terminal
