import Vivido.Grid.RowInvariant
import Vivido.Grid.Tape

/-!
What holds of a grid whatever is done to it: the buffer is well formed and
within the history limit, its rows keep their invariant, and both cursors are
inside the screen with a blank erase cell.
-/

namespace Vivido.Terminal

namespace Grid

/-- The cursor is on the screen and erases to a blank cell. -/
structure Inside (g : Grid) (cursor : Cursor) : Prop where
  line_nonneg : 0 ≤ cursor.point.line
  line_lt : cursor.point.line < g.lines
  column_lt : cursor.point.column < g.columns
  erase : cursor.erase = blank cursor.erase.style

structure Sound (P : ℕ → Row → Prop) (g : Grid) : Prop where
  wf : g.raw.WF
  visible : g.raw.visibleLines = g.lines
  history : g.raw.len ≤ g.lines + g.maxScrollLimit
  rows : ∀ row ∈ g.raw.inner, P g.columns row
  cursor : g.Inside g.cursor
  savedCursor : g.Inside g.savedCursor

variable {P : ℕ → Row → Prop} {g g' : Grid}

theorem Sound.lines_le (h : g.Sound P) : g.lines ≤ g.raw.len := h.visible ▸ h.wf.visible_le

theorem Sound.columns_pos (h : g.Sound P) : 0 < g.columns := Nat.zero_lt_of_lt h.cursor.column_lt

theorem Sound.len_eq (h : g.Sound P) : g.raw.len = g.lines + g.historySize := by
  have := h.lines_le
  unfold historySize totalLines
  omega

theorem Sound.historySize_le (h : g.Sound P) : g.historySize ≤ g.maxScrollLimit := by
  have := h.len_eq
  have := h.history
  omega

theorem Sound.inRange (h : g.Sound P) {line : ℤ} (hline : 0 ≤ line) (hline' : line < g.lines) :
    g.raw.InRange line := by
  have := h.lines_le
  have := h.visible
  unfold Storage.InRange
  omega

theorem Sound.cursor_inRange (h : g.Sound P) : g.raw.InRange g.cursor.point.line :=
  h.inRange h.cursor.line_nonneg h.cursor.line_lt

end Grid

end Vivido.Terminal
