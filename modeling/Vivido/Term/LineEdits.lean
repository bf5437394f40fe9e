import Vivido.Term.Op
import Vivido.Term.Sound

/-!
Edits within the cursor's line. Inserting shifts the cells right of the cursor,
erasing leaves them in place, and deleting pulls them up; each fills what it
vacates with the erase cell. Deleting clears as many cells at the end of the
line as it was asked to delete, also where fewer are right of the cursor.
-/

namespace Vivido

open List

namespace SwapLoop

variable {α : Type*}

theorem swapAt_ends (pre block post : List α) (x : α) : ∃ block', block'.length = block.length ∧
      swapAt (pre ++ x :: (block ++ post)) (pre.length + block.length) pre.length =
        pre ++ block' ++ x :: post := by
  rcases eq_nil_or_concat block with rfl | ⟨block, y, rfl⟩
  · refine ⟨[], rfl, ?_⟩
    rw [length_nil, Nat.add_zero, swapAt_self]
    simp
  · refine ⟨y :: block, by simp, ?_⟩
    have hswap := swapAt_append pre block post x y
    rw [swapAt_comm, concat_eq_append, length_append, length_singleton,
      show pre.length + (block.length + 1) = pre.length + 1 + block.length by omega]
    rw [show pre ++ x :: (block ++ [y] ++ post) = pre ++ x :: (block ++ y :: post) by simp, hswap]
    simp

/-- Swapping from the far end by the length of a block carries a segment past it. -/
theorem swapsDown_append (pre moved block post : List α) : ∃ block', block'.length = block.length ∧
      ((List.range moved.length).reverse.map fun offset =>
        (pre.length + block.length + offset, pre.length + offset)).foldl
          (fun cells pair => swapAt cells pair.1 pair.2) (pre ++ moved ++ block ++ post) =
        pre ++ block' ++ moved ++ post := by
  induction moved using List.reverseRecOn generalizing block post with
  | nil => exact ⟨block, rfl, by simp⟩
  | append_singleton moved x ih =>
    obtain ⟨next, hnext, hswap⟩ := swapAt_ends (pre ++ moved) block post x
    obtain ⟨block', hblock', hrest⟩ := ih next (x :: post)
    refine ⟨block', hblock'.trans hnext, ?_⟩
    rw [length_append, length_singleton, range_succ, reverse_append,
      reverse_singleton, singleton_append, map_cons, foldl_cons]
    rw [length_append] at hswap
    dsimp only
    rw [show pre.length + block.length + moved.length = pre.length + moved.length + block.length by
        omega,
      show pre ++ (moved ++ [x]) ++ block ++ post = pre ++ moved ++ x :: (block ++ post) by simp,
      hswap, ← hnext, hrest]
    simp

/-- Swapping from the near end by the length of a block pulls a segment over it. -/
theorem swapsUp_append (pre block moved : List α) : ∃ block', block'.length = block.length ∧
      ((List.range moved.length).map fun offset =>
        (pre.length + offset, pre.length + block.length + offset)).foldl
          (fun cells pair => swapAt cells pair.1 pair.2) (pre ++ block ++ moved) =
        pre ++ moved ++ block' := by
  refine ⟨block.rotate moved.length, length_rotate .., ?_⟩
  have hloop := swapLoop_append pre block moved []
  rw [append_nil, append_nil] at hloop
  rw [← hloop]
  unfold swapLoop
  rw [foldl_map, foldl_map]
  congr 1
  funext cells offset
  congr 1
  omega

end SwapLoop

namespace Terminal

namespace Row

theorem inner_fillRange (row : Row) {start stop : ℕ} (hle : start ≤ stop)
    (hstop : stop ≤ row.inner.length) (cell : Cell) (openEnded : Bool) :
    (row.fillRange start stop cell openEnded).inner =
      row.inner.take start ++ List.replicate (stop - start) cell ++ row.inner.drop stop := by
  have hlen : (row.inner.take start).length = start := by
    rw [length_take]
    omega
  unfold fillRange
  dsimp only
  apply ext_getElem?
  intro i
  rw [getElem?_mapIdx]
  by_cases hbefore : i < start
  · rw [getElem?_append_left (by rw [length_append, hlen]; omega),
      getElem?_append_left (by omega), getElem?_take_of_lt hbefore]
    simp [Nat.not_le_of_lt hbefore]
  by_cases hinside : i < stop
  · rw [getElem?_append_left (by
        rw [length_append, hlen, length_replicate]
        omega), getElem?_append_right (by omega), hlen,
      getElem?_replicate_of_lt (by omega), getElem?_eq_getElem (by omega)]
    simp [Nat.le_of_not_lt hbefore, hinside]
  · rw [getElem?_append_right (by
        rw [length_append, hlen, length_replicate]
        omega), length_append, hlen, length_replicate, getElem?_drop,
      show stop + (i - (start + (stop - start))) = i by omega]
    simp [hinside]

end Row

/-- The cells of a line after `count` blanks entered at `column`. -/
def inserted (cells : List Cell) (column count : ℕ) (erase : Cell) : List Cell :=
  cells.take column ++ List.replicate (min count (cells.length - column)) erase ++
    (cells.drop column).take (cells.length - column - count)

/-- The cells after `count` cells from `column` on were deleted and blanks entered at the end. -/
def deleted (cells : List Cell) (column count : ℕ) (erase : Cell) : List Cell :=
  cells.take column ++ cells.drop (column + count) ++
    List.replicate (min count (cells.length - column)) erase

/-- The cells after `count` cells from `column` on were erased. -/
def erased (cells : List Cell) (column count : ℕ) (erase : Cell) : List Cell :=
  cells.take column ++ List.replicate (min count (cells.length - column)) erase ++
    cells.drop (column + count)

namespace Term

variable {t t' : Term}

def cursorRow (t : Term) : Row := t.grid.row t.cursor.point.line

/-- The cursor is on a line of the screen, in a cell of it. -/
structure OnLine (t : Term) : Prop where
  wf : t.grid.raw.WF
  line : t.grid.raw.InRange t.cursor.point.line
  column : t.cursor.point.column < t.columns
  width : t.cursorRow.inner.length = t.columns

theorem onLine_of_sound {P : ℕ → Row → Prop} (hP : Row.Invariant P) (ht : t.Sound P) :
    t.OnLine := by
  have hlt := Storage.computeIndex_lt ht.grid.wf ht.grid.cursor_inRange
  have hmem : t.cursorRow ∈ t.grid.raw.inner := by
    unfold cursorRow Grid.row Storage.get
    change t.grid.raw.inner.getD (t.grid.raw.computeIndex t.grid.cursor.point.line) _ ∈ _
    rw [getD_eq_getElem?_getD, getElem?_eq_getElem hlt]
    exact getElem_mem hlt
  exact ⟨ht.grid.wf, ht.grid.cursor_inRange, ht.grid.cursor.column_lt,
    hP.len (ht.grid.rows _ hmem)⟩

/-- Only the cursor's line changed, and it has these cells now. -/
structure EditsLine (t t' : Term) (cells : List Cell) : Prop where
  cells : (t'.grid.row t.cursor.point.line).inner = cells
  others : ∀ line, t.grid.raw.InRange line → line ≠ t.cursor.point.line →
    t'.grid.row line = t.grid.row line
  inactiveGrid : t'.inactiveGrid = t.inactiveGrid

/-- Updating one line leaves the others. -/
theorem row_modifyRow_of_ne (hwf : t.grid.raw.WF) {line other : ℤ} (hline : t.grid.raw.InRange line)
    (hother : t.grid.raw.InRange other) (hne : other ≠ line) (update : Row → Row) :
    (t.modifyRow line update).grid.row other = t.grid.row other := by
  have hoffset := Storage.offset_lt hline
  have hoffset' := Storage.offset_lt hother
  have hfits := hwf.len_le
  have hindex : t.grid.raw.computeIndex line ≠ t.grid.raw.computeIndex other := by
    rw [Storage.computeIndex_eq hwf hline, Storage.computeIndex_eq hwf hother]
    intro hsame
    have hmod := Nat.ModEq.add_left_cancel' t.grid.raw.zero
      (show t.grid.raw.zero + t.grid.raw.offset line ≡
        t.grid.raw.zero + t.grid.raw.offset other [MOD t.grid.raw.inner.length] from hsame)
    rw [Nat.ModEq, Nat.mod_eq_of_lt (by omega), Nat.mod_eq_of_lt (by omega)] at hmod
    unfold Storage.offset at hmod
    unfold Storage.InRange at hline hother
    omega
  change (t.grid.raw.modify line update).get other = t.grid.raw.get other
  have hsame : (t.grid.raw.modify line update).computeIndex other =
      t.grid.raw.computeIndex other := by
    simp [Storage.computeIndex, Storage.modify]
  unfold Storage.get
  rw [hsame, getD_eq_getElem?_getD, getD_eq_getElem?_getD]
  congr 1
  exact getElem?_modify_ne _ _ hindex

theorem editsLine_iff (h : t.OnLine) {damage : TermDamageState} {update : Row → Row}
    {cells : List Cell} :
    EditsLine t (({ t with damage := damage } : Term).modifyRow t.cursor.point.line update) cells ↔
      (update t.cursorRow).inner = cells := by
  have hrow : (({ t with damage := damage } : Term).modifyRow t.cursor.point.line update).grid.row
      t.cursor.point.line = update t.cursorRow := Storage.get_modify h.wf h.line update
  constructor
  · intro hedits
    rw [← hrow]
    exact hedits.cells
  · intro hcells
    refine ⟨by rw [hrow]; exact hcells, ?_, rfl⟩
    intro _ hline hne
    exact row_modifyRow_of_ne h.wf h.line hline hne update

theorem length_swapCells (row : Row) (pairs : List (ℕ × ℕ)) :
    (row.swapCells pairs).inner.length = row.inner.length := Row.length_swaps _ _

section

variable (h : t.OnLine) (count : ℕ)
include h count

theorem line_insertBlank : EditsLine t (t.insertBlank count)
      (inserted t.cursorRow.inner t.cursor.point.column count t.cursor.erase) := by
  have hcolumn := h.column
  have hwidth := h.width
  unfold insertBlank
  refine (editsLine_iff h).mpr ?_
  generalize hcells : t.cursorRow.inner = cells at *
  generalize t.cursor.point.column = column at *
  generalize hfit : min count (t.columns - column) = fit
  have hpre : (cells.take column).length = column := by
    rw [length_take]
    omega
  have hmoved : ((cells.drop column).take (t.columns - (column + fit))).length =
      t.columns - (column + fit) := by
    rw [length_take, length_drop]
    omega
  have hblock : ((cells.drop column).drop (t.columns - (column + fit))).length = fit := by
    rw [length_drop, length_drop]
    omega
  have hsplit : cells = cells.take column ++ (cells.drop column).take (t.columns - (column + fit)) ++
      (cells.drop column).drop (t.columns - (column + fit)) ++ [] := by
    rw [append_nil, append_assoc, take_append_drop, take_append_drop]
  obtain ⟨block', hblock', hswaps⟩ := SwapLoop.swapsDown_append (cells.take column)
    ((cells.drop column).take (t.columns - (column + fit)))
    ((cells.drop column).drop (t.columns - (column + fit))) []
  rw [← hsplit, hpre, hmoved, hblock, append_nil] at hswaps
  rw [hblock] at hblock'
  have hswapped : (t.cursorRow.swapCells ((List.range (t.columns - (column + fit))).reverse.map
      fun offset => (column + fit + offset, column + offset))).inner =
      cells.take column ++ block' ++ (cells.drop column).take (t.columns - (column + fit)) := by
    unfold Row.swapCells
    dsimp only
    rw [hcells]
    exact hswaps
  have hlen := length_swapCells t.cursorRow ((List.range (t.columns - (column + fit))).reverse.map
    fun offset => (column + fit + offset, column + offset))
  have hfront : (cells.take column ++ block' ++
      (cells.drop column).take (t.columns - (column + fit))).take column = cells.take column := by
    rw [append_assoc, take_left' hpre]
  have hback : (cells.take column ++ block' ++
      (cells.drop column).take (t.columns - (column + fit))).drop (column + fit) =
      (cells.drop column).take (t.columns - (column + fit)) :=
    drop_left' (by rw [length_append]; omega)
  rw [Row.inner_fillRange _ (by omega) (by rw [hlen, hcells]; omega), hswapped, hfront, hback]
  unfold inserted
  rw [hwidth, hfit, show column + fit - column = fit by omega,
    show t.columns - (column + fit) = t.columns - column - count by omega]

theorem line_eraseChars : EditsLine t (t.eraseChars count)
      (erased t.cursorRow.inner t.cursor.point.column count t.cursor.erase) := by
  have hcolumn := h.column
  have hwidth := h.width
  unfold eraseChars
  refine (editsLine_iff h).mpr ?_
  rw [Row.inner_fillRange _ (by omega) (by omega)]
  unfold erased
  rw [hwidth, show min (t.cursor.point.column + count) t.columns - t.cursor.point.column =
    min count (t.columns - t.cursor.point.column) by omega]
  congr 1
  by_cases hinside : t.cursor.point.column + count ≤ t.columns
  · rw [Nat.min_eq_left hinside]
  · rw [Nat.min_eq_right (by omega), drop_eq_nil_of_le (by omega),
      drop_eq_nil_of_le (by omega)]

/-- What deleting leaves, where the count may reach left of the cursor. -/
theorem inner_deleteChars {cells : List Cell} : EditsLine t (t.deleteChars count) cells ↔
      (t.cursorRow.inner.take t.cursor.point.column).take (t.columns - min count t.columns) ++
        t.cursorRow.inner.drop (t.cursor.point.column + count) ++
        List.replicate (min count t.columns) t.cursor.erase = cells := by
  have hcolumn := h.column
  have hwidth := h.width
  unfold deleteChars
  refine (editsLine_iff h).trans ?_
  generalize hrow : t.cursorRow.inner = line at *
  generalize t.cursor.point.column = column at *
  generalize hstop : min (column + min count t.columns) (t.columns - 1) = stop
  have hpre : (line.take column).length = column := by
    rw [length_take]
    omega
  have hmoved : (line.drop stop).length = t.columns - stop := by
    rw [length_drop, hwidth]
  have hblock : ((line.drop column).take (stop - column)).length = stop - column := by
    rw [length_take, length_drop]
    omega
  have hsplit : line = line.take column ++ (line.drop column).take (stop - column) ++
      line.drop stop := by
    have hrest := take_append_drop (stop - column) (line.drop column)
    rw [drop_drop, show column + (stop - column) = stop by omega] at hrest
    rw [append_assoc, hrest, take_append_drop]
  obtain ⟨block', hblock', hswaps⟩ := SwapLoop.swapsUp_append (line.take column)
    ((line.drop column).take (stop - column)) (line.drop stop)
  rw [← hsplit, hpre, hmoved, hblock, show column + (stop - column) = stop by omega] at hswaps
  rw [hblock] at hblock'
  have hswapped : (t.cursorRow.swapCells ((List.range (t.columns - stop)).map
      fun offset => (column + offset, stop + offset))).inner =
      line.take column ++ line.drop stop ++ block' := by
    unfold Row.swapCells
    dsimp only
    rw [hrow]
    exact hswaps
  have hlen := length_swapCells t.cursorRow ((List.range (t.columns - stop)).map
    fun offset => (column + offset, stop + offset))
  have hend : (line.take column ++ line.drop stop ++ block').drop t.columns = [] := by
    rw [← hswapped]
    exact drop_eq_nil_of_le (by rw [hlen, hrow]; omega)
  rw [Row.inner_fillRange _ (by omega) (by rw [hlen, hrow]; omega), hswapped, hend, append_nil,
    show t.columns - (t.columns - min count t.columns) = min count t.columns by omega]
  -- The cells pulled up end where the blanks begin, or the blanks begin left of the cursor.
  have hkept : (line.take column ++ line.drop stop ++ block').take (t.columns - min count t.columns) =
      (line.take column).take (t.columns - min count t.columns) ++ line.drop (column + count) := by
    by_cases hinside : column + count < t.columns
    · have hwhole : stop = column + count := by omega
      rw [take_of_length_le (l := line.take column) (by omega), ← hwhole,
        take_left' (by rw [length_append, hpre, hmoved]; omega)]
    · rw [append_assoc, take_append_of_le_length (by omega),
        drop_eq_nil_of_le (by omega), append_nil]
  rw [hkept]

theorem edits_deleteChars_iff : EditsLine t (t.deleteChars count)
        (deleted t.cursorRow.inner t.cursor.point.column count t.cursor.erase) ↔
      ∀ cell ∈ (t.cursorRow.inner.take t.cursor.point.column).drop (t.columns - count),
        cell = t.cursor.erase := by
  have hcolumn := h.column
  have hwidth := h.width
  rw [inner_deleteChars h]
  unfold deleted
  rw [hwidth]
  generalize t.cursorRow.inner = line at *
  generalize t.cursor.point.column = column at *
  by_cases hinside : count ≤ t.columns - column
  · have hpre : (line.take column).length ≤ t.columns - count := by
      rw [length_take]
      omega
    rw [show min count (t.columns - column) = min count t.columns by omega,
      show t.columns - min count t.columns = t.columns - count by omega,
      take_of_length_le hpre, drop_eq_nil_of_le hpre]
    exact iff_of_true rfl (fun _ hcell => absurd hcell (not_mem_nil))
  · have hsplit : line.take column = (line.take column).take (t.columns - count) ++
        (line.take column).drop (t.columns - count) := (take_append_drop _ _).symm
    have hreach : ((line.take column).drop (t.columns - count)).length =
        min count t.columns - (t.columns - column) := by
      rw [length_drop, length_take]
      omega
    have hblank : List.replicate (min count t.columns) t.cursor.erase =
        List.replicate (min count t.columns - (t.columns - column)) t.cursor.erase ++
          List.replicate (t.columns - column) t.cursor.erase := by
      rw [replicate_append_replicate]
      congr 1
      omega
    rw [drop_eq_nil_of_le (by omega), append_nil, append_nil,
      Nat.min_eq_right (Nat.le_of_not_le hinside),
      show t.columns - min count t.columns = t.columns - count by omega, hblank]
    conv_lhs => rhs; rw [hsplit]
    rw [← append_assoc, append_left_inj, append_right_inj]
    constructor
    · intro hsame _ hcell
      rw [← hsame] at hcell
      exact eq_of_mem_replicate hcell
    · intro hall
      rw [eq_replicate_of_mem hall, hreach]

end

/-- Inserting, erasing and deleting have their effect on the cursor's line and no other, if and
only if the cells that deleting clears left of the cursor are blank already. -/
theorem line_edits_iff (h : t.OnLine) (count : ℕ) : (EditsLine t (t.insertBlank count)
        (inserted t.cursorRow.inner t.cursor.point.column count t.cursor.erase) ∧
      EditsLine t (t.eraseChars count)
        (erased t.cursorRow.inner t.cursor.point.column count t.cursor.erase) ∧
      EditsLine t (t.deleteChars count)
        (deleted t.cursorRow.inner t.cursor.point.column count t.cursor.erase)) ↔
      ∀ cell ∈ (t.cursorRow.inner.take t.cursor.point.column).drop (t.columns - count),
        cell = t.cursor.erase := by
  rw [edits_deleteChars_iff h]
  constructor
  · intro hedits
    exact hedits.2.2
  · intro hblank
    exact ⟨line_insertBlank h count, line_eraseChars h count, hblank⟩

theorem line_edits_new :
    (EditsLine (new 0 1 4) ((new 0 1 4).insertBlank 2) (inserted (new 0 1 4).cursorRow.inner 0 2 {}) ∧
      EditsLine (new 0 1 4) ((new 0 1 4).eraseChars 2) (erased (new 0 1 4).cursorRow.inner 0 2 {}) ∧
      EditsLine (new 0 1 4) ((new 0 1 4).deleteChars 2)
        (deleted (new 0 1 4).cursorRow.inner 0 2 {})) :=
  (line_edits_iff ⟨Storage.wf_withCapacity (by decide) _, ⟨by decide, by decide⟩, by decide,
    by decide⟩ 2).mpr (by decide)

/-- A filled line of four cells with the cursor in the last one. -/
def filledLine : Term := (new 0 1 4).decaln.moveForward 3

/-- Deleting four cells there erases the whole line. -/
theorem deleteChars_left_of_cursor : filledLine.OnLine ∧
      ¬(EditsLine filledLine (filledLine.insertBlank 4)
          (inserted filledLine.cursorRow.inner 3 4 filledLine.cursor.erase) ∧
        EditsLine filledLine (filledLine.eraseChars 4)
          (erased filledLine.cursorRow.inner 3 4 filledLine.cursor.erase) ∧
        EditsLine filledLine (filledLine.deleteChars 4)
          (deleted filledLine.cursorRow.inner 3 4 filledLine.cursor.erase)) :=
  ⟨⟨⟨by decide, by decide, by decide, by decide⟩, ⟨by decide, by decide⟩, by decide, by decide⟩,
    fun h => absurd h.2.2.cells (by decide)⟩

end Term

end Terminal

end Vivido
