import Vivido.Support.Since
import Vivido.Term.RowWrites

/-!
What resetting a row relies on. A reset rewrites the occupied cells, or all of
them where the last cell has another style than the template, and so leaves
blank cells for every template if and only if the other cells are blank in one
style. Writing, cutting and resetting keep that. Growing adds default cells and
appending adds the cells it is given past the occupied ones, whatever style the
unoccupied cells before them have.
-/

namespace Vivido.Terminal

open List

namespace Row

/-- A reset leaves blank cells, and a reset with a written prefix that prefix and blank cells. -/
structure Resets (row : Row) : Prop where
  reset : ∀ template : Cell, row.reset template = blankRow row.len template.style
  resetWithPrefix : ∀ (template : Cell) (len : ℕ) (write : List Cell → List Cell × ℕ × Unit)
    (written : List Cell), written.length ≤ (row.inner.take len).length →
    write (row.inner.take len) =
      (written ++ (row.inner.take len).drop written.length, written.length, ()) →
    row.resetWithPrefix template len write =
      ({ inner := written ++ List.replicate (row.len - written.length) (blank template.style)
         occ := written.length }, written.length, ())

/-- Cells past the occupied ones are blank in one style, which a reset in that style leaves. -/
theorem tidy_of_reset {row : Row}
    (h : ∀ template : Cell, row.reset template = blankRow row.len template.style) :
    row.Tidy row.len := by
  refine ⟨rfl, (row.inner.getLastD {}).style, ?_⟩
  have hreset := congrArg Row.inner (h (row.inner.getLastD {}))
  have hdirty : row.dirty (row.inner.getLastD {}) = row.occ := by
    unfold dirty
    rw [if_neg (not_not.mpr rfl)]
  unfold reset blankRow at hreset
  dsimp only at hreset
  rw [hdirty] at hreset
  have hdrop := congrArg (List.drop ((row.inner.take row.occ).length)) hreset
  rw [← length_map (f := (·.reset (row.inner.getLastD {}))), drop_left,
    drop_replicate, length_map, length_take] at hdrop
  rw [hdrop]
  congr 1
  unfold len
  omega

theorem len_reset (row : Row) (template : Cell) : (row.reset template).len = row.len := by
  unfold reset len
  rw [length_append, length_map, ← length_append, take_append_drop]

theorem resets_of_tidy {row : Row} (h : row.Tidy row.len) : row.Resets := by
  refine ⟨reset_eq h, ?_⟩
  intro _ _ _ written hlen hwrite
  rw [resetWithPrefix_eq hlen hwrite, reset_eq h]
  rw [length_take] at hlen
  unfold writeCells blankRow
  dsimp only
  rw [take_zero, nil_append, Nat.zero_add, drop_replicate]
  by_cases hempty : 0 < written.length
  · rw [if_pos hempty, Nat.zero_max]
  · rw [if_neg hempty]
    have hzero : written.length = 0 := by omega
    rw [hzero]

theorem resets_iff {row : Row} : row.Resets ↔ row.Tidy row.len :=
  ⟨fun h => tidy_of_reset h.reset, resets_of_tidy⟩

/-- What a prefix writer stores: at most as many cells as there are. -/
def prefixWriter (written : List Cell) (old : List Cell) : List Cell × ℕ × Unit :=
  (written.take old.length ++ old.drop written.length, min written.length old.length, ())

end Row

/-- The changes that a row's owner makes to it. -/
inductive RowOp where
  | write (column : ℕ) (update : Cell → Cell)
  | writePrefix (start len : ℕ) (written : List Cell)
  | grow (columns : ℕ)
  | shrink (columns : ℕ)
  | append (cells : List Cell)
  | reset (template : Cell)
  | resetWithPrefix (template : Cell) (len : ℕ) (written : List Cell)

namespace Row

def apply (row : Row) : RowOp → Row
  | .write column update => row.modify column update
  | .writePrefix start len written => (row.writePrefix start len (prefixWriter written)).1
  | .grow columns => row.grow columns
  | .shrink columns => (row.shrink columns).1
  | .append cells => row.append cells
  | .reset template => row.reset template
  | .resetWithPrefix template len written =>
      (row.resetWithPrefix template len (prefixWriter written)).1

/-- The row after a sequence of changes to a new one. -/
def run (columns : ℕ) (ops : List RowOp) : Row := ops.foldl apply (new columns)

/-- The style of the row's last cell. -/
def lastStyle (row : Row) : StyleId := (row.inner.getLastD {}).style

/-- A reset to the template blanks the row: it rewrites every cell, or those it leaves are such
blanks already. -/
def Clears (row : Row) (columns : ℕ) (template : Cell) : Prop :=
  row.inner.length = columns ∧ (row.lastStyle ≠ template.style ∨
    ∀ cell ∈ row.inner.drop row.occ, cell = blank template.style)

instance (row : Row) (columns : ℕ) (template : Cell) : Decidable (row.Clears columns template) :=
  inferInstanceAs (Decidable (_ ∧ _))

variable {row : Row}

theorem clears_iff {columns : ℕ} {template : Cell} :
    row.Clears columns template ↔ row.reset template = blankRow columns template.style := by
  have hcells : (row.reset template).inner = List.replicate
      (min (row.dirty template) row.inner.length) (blank template.style) ++
        row.inner.drop (row.dirty template) := by
    unfold reset
    simp only [Cell.reset_eq]
    rw [map_const', length_take]
  have hreset : row.reset template = blankRow columns template.style ↔
      (row.reset template).inner = List.replicate columns (blank template.style) := by
    constructor
    · intro h
      rw [h]
      rfl
    · intro h
      unfold blankRow
      rw [← h]
      rfl
  rw [hreset, hcells]
  constructor
  · intro h
    obtain ⟨hlen, hlast⟩ := h
    rw [eq_replicate_iff]
    constructor
    · rw [length_append, length_replicate, length_drop]
      omega
    intro cell hcell
    rcases List.mem_append.mp hcell with hcell | hcell
    · exact eq_of_mem_replicate hcell
    unfold dirty at hcell
    split at hcell
    · rw [drop_length] at hcell
      cases hcell
    · rename_i hsame
      exact hlast.elim (fun hne => absurd hne hsame) fun hblank => hblank cell hcell
  · intro h
    obtain ⟨hlen, hblank⟩ := List.eq_replicate_iff.mp h
    rw [length_append, length_replicate, length_drop] at hlen
    refine ⟨by omega, ?_⟩
    by_cases hstyle : row.lastStyle = template.style
    · right
      intro cell hcell
      apply hblank cell
      have hdirty : row.dirty template = row.occ := if_neg (not_not.mpr hstyle)
      rw [hdirty]
      exact mem_append_right _ hcell
    · exact Or.inl hstyle

/-- Growing an unoccupied end asks that it be in the default style; appending to one asks that
the cells the raised count does not cover be blank in the style of the cells between. -/
def Continues (row : Row) : RowOp → Prop
  | .grow columns => row.inner.length < columns → row.occ < row.inner.length → row.lastStyle = {}
  | .append cells => ∃ style,
      (∀ cell ∈ cells.drop (row.occ + cells.length - row.inner.length), cell = blank style) ∧
        (row.occ + cells.length < row.inner.length → row.lastStyle = style)
  | _ => True

theorem tidy_iff : row.Tidy row.len ↔ ∃ style, ∀ cell ∈ row.inner.drop row.occ,
    cell = blank style := by
  constructor
  · intro h
    obtain ⟨style, hblank⟩ := h.blank
    refine ⟨style, ?_⟩
    intro _ hcell
    rw [hblank] at hcell
    exact eq_of_mem_replicate hcell
  · intro h
    obtain ⟨style, hblank⟩ := h
    refine ⟨rfl, style, ?_⟩
    rw [eq_replicate_of_mem hblank, length_drop]
    rfl

/-- Unoccupied cells are in the style of the last cell. -/
theorem Tidy.blank_last (h : row.Tidy row.len) :
    ∀ cell ∈ row.inner.drop row.occ, cell = Terminal.blank row.lastStyle := by
  obtain ⟨style, hblank⟩ := tidy_iff.mp h
  intro cell hcell
  have hne : row.inner.drop row.occ ≠ [] := ne_nil_of_mem hcell
  have hlast := hblank _ (getLast_mem hne)
  have hstyle : row.lastStyle = style := by
    unfold lastStyle
    rw [getLast_drop hne] at hlast
    have hrow : row.inner ≠ [] := by
      intro hnil
      rw [hnil, drop_nil] at hne
      exact hne rfl
    rw [getLastD_eq_getLast?, getLast?_eq_some_getLast hrow, Option.getD_some, hlast]
    rfl
  rw [hstyle]
  exact hblank cell hcell

theorem tidy_writeCells (h : row.Tidy row.len) {start : ℕ} {cells : List Cell}
    (hfits : start + cells.length ≤ row.inner.length) :
    (row.writeCells start cells).Tidy (row.writeCells start cells).len := by
  obtain ⟨style, hblank⟩ := tidy_iff.mp h
  refine tidy_iff.mpr ⟨style, ?_⟩
  intro cell hcell
  by_cases hempty : 0 < cells.length
  · have hocc : (row.writeCells start cells).occ = max row.occ (start + cells.length) := if_pos hempty
    rw [hocc, show max row.occ (start + cells.length) = start + cells.length +
      (max row.occ (start + cells.length) - (start + cells.length)) by omega, ← drop_drop,
      drop_writeCells (by omega), drop_drop] at hcell
    apply hblank
    rw [show start + cells.length + (max row.occ (start + cells.length) - (start + cells.length)) =
      row.occ + (max row.occ (start + cells.length) - row.occ) by omega, ← drop_drop] at hcell
    exact mem_of_mem_drop hcell
  · have hnil : cells = [] := eq_nil_of_length_eq_zero (by omega)
    rw [hnil, writeCells_nil] at hcell
    exact hblank cell hcell

theorem prefixWriter_eq (written old : List Cell) :
    prefixWriter written old = (written.take old.length ++
      old.drop (written.take old.length).length, (written.take old.length).length, ()) := by
  unfold prefixWriter
  rw [length_take]
  by_cases hle : written.length ≤ old.length
  · rw [Nat.min_eq_right hle, Nat.min_eq_left hle]
  · have hge := Nat.le_of_not_le hle
    rw [Nat.min_eq_left hge, Nat.min_eq_right hge, drop_eq_nil_of_le hge,
      drop_eq_nil_of_le (Nat.le_refl _)]

theorem writePrefix_prefixWriter (row : Row) (start len : ℕ) (written : List Cell) :
    (row.writePrefix start len (prefixWriter written)).1 =
      row.writeCells start (written.take ((row.inner.drop start).take len).length) := by
  rw [writePrefix_eq (length_take_le _ _) (prefixWriter_eq written _)]

theorem resetWithPrefix_prefixWriter (row : Row) (template : Cell) (len : ℕ) (written : List Cell) :
    (row.resetWithPrefix template len (prefixWriter written)).1 =
      (row.reset template).writeCells 0 (written.take (row.inner.take len).length) := by
  rw [resetWithPrefix_eq (length_take_le _ _) (prefixWriter_eq written _)]

theorem tidy_writePrefix (h : row.Tidy row.len) (start len : ℕ) (written : List Cell) :
    (row.writePrefix start len (prefixWriter written)).1.Tidy
      (row.writePrefix start len (prefixWriter written)).1.len := by
  rw [writePrefix_prefixWriter]
  by_cases hstart : start ≤ row.inner.length
  · apply tidy_writeCells h
    rw [length_take, length_take, length_drop]
    omega
  · rw [drop_eq_nil_of_le (Nat.le_of_not_le hstart), take_nil, length_nil,
      take_zero, writeCells_nil]
    exact h

section

variable (h : row.Tidy row.len)
include h

theorem tidy_resetWithPrefix (template : Cell) (len : ℕ)
    (written : List Cell) : (row.resetWithPrefix template len (prefixWriter written)).1.Tidy
      (row.resetWithPrefix template len (prefixWriter written)).1.len := by
  rw [resetWithPrefix_prefixWriter, reset_eq h]
  apply tidy_writeCells
  · rw [show (blankRow row.len template.style).len = row.len from length_replicate]
    exact tidy_blankRow _ _
  · rw [show (blankRow row.len template.style).inner.length = row.len from length_replicate,
      length_take, length_take, Nat.zero_add]
    change _ ≤ row.inner.length
    omega

theorem tidy_shrink (columns : ℕ) : (row.shrink columns).1.Tidy (row.shrink columns).1.len := by
  obtain ⟨style, hblank⟩ := tidy_iff.mp h
  unfold shrink
  split
  · exact h
  refine tidy_iff.mpr ⟨style, ?_⟩
  intro cell hcell
  dsimp only at hcell
  by_cases hocc : row.occ ≤ columns
  · rw [Nat.min_eq_left hocc, drop_take] at hcell
    exact hblank cell (mem_of_mem_take hcell)
  · rw [Nat.min_eq_right (by omega), drop_eq_nil_of_le (length_take_le ..)] at hcell
    cases hcell

/-- New default cells join unoccupied cells that are in the default style. -/
theorem tidy_grow_iff (columns : ℕ) :
    (row.grow columns).Tidy (row.grow columns).len ↔ row.Continues (.grow columns) := by
  have hlast := h.blank_last
  have hnew : ∀ cell, cell ∈ List.replicate (columns - row.inner.length) ({} : Cell) →
      cell = blank {} := fun cell hcell => eq_of_mem_replicate hcell
  have hdrop : (row.grow columns).inner.drop row.occ = row.inner.drop row.occ ++
      (List.replicate (columns - row.inner.length) ({} : Cell)).drop
        (row.occ - row.inner.length) := drop_append
  rw [tidy_iff]
  change (∃ style, ∀ cell ∈ (row.grow columns).inner.drop row.occ, cell = blank style) ↔ _
  rw [hdrop]
  constructor
  · intro htidy _ hocc
    obtain ⟨_, hblank⟩ := htidy
    have hne : row.inner.drop row.occ ≠ [] := by
      intro hnil
      have := congrArg List.length hnil
      rw [length_drop, length_nil] at this
      omega
    obtain ⟨old, hold⟩ := exists_mem_of_ne_nil _ hne
    have holdStyle := hblank old (mem_append_left _ hold)
    rw [hlast old hold] at holdStyle
    have hadded : ({} : Cell) ∈ (List.replicate (columns - row.inner.length) ({} : Cell)).drop
        (row.occ - row.inner.length) := by
      rw [drop_replicate]
      exact List.mem_replicate.mpr ⟨by omega, rfl⟩
    have haddedStyle := hblank _ (mem_append_right _ hadded)
    exact (congrArg Cell.style holdStyle).trans (congrArg Cell.style haddedStyle).symm
  · intro hcontinues
    by_cases hgrows : row.inner.length < columns ∧ row.occ < row.inner.length
    · have hstyle := hcontinues hgrows.1 hgrows.2
      refine ⟨{}, ?_⟩
      intro cell hcell
      rcases List.mem_append.mp hcell with hcell | hcell
      · rw [hlast cell hcell, hstyle]
      · exact hnew cell (mem_of_mem_drop hcell)
    · by_cases hocc : row.occ < row.inner.length
      · have hnone : columns - row.inner.length = 0 := by omega
        refine ⟨row.lastStyle, ?_⟩
        intro cell hcell
        rw [hnone, replicate_zero, drop_nil, append_nil] at hcell
        exact hlast cell hcell
      · refine ⟨{}, ?_⟩
        intro cell hcell
        rw [drop_eq_nil_of_le (by omega), nil_append] at hcell
        exact hnew cell (mem_of_mem_drop hcell)

theorem tidy_append_iff (cells : List Cell) :
    (row.append cells).Tidy (row.append cells).len ↔ row.Continues (.append cells) := by
  have hlast := h.blank_last
  have hdrop : (row.append cells).inner.drop (row.occ + cells.length) =
      row.inner.drop (row.occ + cells.length) ++
        cells.drop (row.occ + cells.length - row.inner.length) := drop_append
  rw [tidy_iff]
  change (∃ style, ∀ cell ∈ (row.append cells).inner.drop (row.occ + cells.length),
    cell = blank style) ↔ _
  rw [hdrop]
  constructor
  · intro htidy
    obtain ⟨style, hblank⟩ := htidy
    refine ⟨style, fun cell hcell => hblank cell (mem_append_right _ hcell), ?_⟩
    intro hbetween
    have hne : row.inner.drop (row.occ + cells.length) ≠ [] := by
      intro hnil
      have := congrArg List.length hnil
      rw [length_drop, length_nil] at this
      omega
    obtain ⟨old, hold⟩ := exists_mem_of_ne_nil _ hne
    have hstyle := hblank old (mem_append_left _ hold)
    rw [← drop_drop] at hold
    rw [hlast old (mem_of_mem_drop hold)] at hstyle
    exact congrArg Cell.style hstyle
  · intro hcontinues
    obtain ⟨style, hblank, hbetween⟩ := hcontinues
    refine ⟨style, ?_⟩
    intro cell hcell
    rcases List.mem_append.mp hcell with hcell | hcell
    · have hlt : row.occ + cells.length < row.inner.length := by
        have := length_pos_of_mem hcell
        rw [length_drop] at this
        omega
      rw [← drop_drop] at hcell
      rw [hlast cell (mem_of_mem_drop hcell), hbetween hlt]
    · exact hblank cell hcell

theorem tidy_apply_iff (op : RowOp) :
    (row.apply op).Tidy (row.apply op).len ↔ row.Continues op := by
  cases op with
  | write column update =>
    have htidy := tidy_modify h column update
    have hlen : (row.modify column update).len = row.len := length_modify ..
    refine iff_of_true ?_ trivial
    change (row.modify column update).Tidy (row.modify column update).len
    rw [hlen]
    exact htidy
  | writePrefix start len written => exact iff_of_true (tidy_writePrefix h start len written) trivial
  | grow columns => exact tidy_grow_iff h columns
  | shrink columns => exact iff_of_true (tidy_shrink h columns) trivial
  | append cells => exact tidy_append_iff h cells
  | reset template =>
    refine iff_of_true ?_ trivial
    change (row.reset template).Tidy (row.reset template).len
    rw [len_reset]
    exact tidy_reset h template
  | resetWithPrefix template len written =>
    exact iff_of_true (tidy_resetWithPrefix h template len written) trivial

end

/-- All along a run resets leave blank cells if and only if each growth and each append of the run
continues the unoccupied cells. -/
theorem run_resets_iff (columns : ℕ) (ops : List RowOp) :
    (∀ n, (run columns (ops.take n)).Resets) ↔ Throughout (run columns) Continues ops := by
  refine throughout_iff_always (fun ops => (run columns ops).Resets) ?_ ?_
  · rw [resets_iff, show run columns [] = new columns from rfl, new_eq,
      show (blankRow columns {}).len = columns from length_replicate]
    exact tidy_blankRow _ _
  · intro history op hbefore
    rw [resets_iff] at hbefore ⊢
    have hrun : run columns (history ++ [op]) = (run columns history).apply op :=
      foldl_append
    rw [hrun]
    exact tidy_apply_iff hbefore op

/-- A red row widened with default cells keeps its red cells when it is reset to the default. -/
theorem grown_row_keeps_style :
    ¬(run 1 [.reset { style := { index := 1, showsOnBlank := true } }, .grow 2]).Resets :=
  fun h => absurd (h.reset {}) (by decide)

end Row

end Vivido.Terminal
