import Vivido.Grid.Sound
import Vivido.Term.State

/-!
What holds of a terminal: both of its grids are sound and of one size, and the
scroll region does not reach below them.
-/

namespace Vivido.Terminal.Term

/-- `MIN_COLUMNS`: the fewest columns a terminal is given. -/
def minColumns : ℕ := 2

/-- Both grids are sound, of one size, and wide enough for a wide character, and
the scroll region does not reach below them. -/
structure Sound (P : ℕ → Row → Prop) (t : Term) : Prop where
  grid : t.grid.Sound P
  inactiveGrid : t.inactiveGrid.Sound P
  lines : t.inactiveGrid.lines = t.grid.lines
  columns : t.inactiveGrid.columns = t.grid.columns
  wide : minColumns ≤ t.grid.columns
  region : t.scrollRegion.stop ≤ t.grid.lines

end Vivido.Terminal.Term
