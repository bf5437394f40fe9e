import Vivido.Grid.Row
import Vivido.Grid.Storage

/-!
The grid: a screen of rows over its scrollback, with two cursors. Scrolling a
region that starts at the top of the screen rotates the whole buffer and swaps
the fixed lines back; any other region is moved line by line.
-/

namespace Vivido.Terminal

structure Point where
  line : ℤ := 0
  column : ℕ := 0
  deriving DecidableEq, Repr, Inhabited

/-- Points in reading order. -/
def Point.before (p q : Point) : Prop := p.line < q.line ∨ p.line = q.line ∧ p.column < q.column

instance (p q : Point) : Decidable (p.before q) := inferInstanceAs (Decidable (_ ∨ _))

inductive Boundary where
  | cursor
  | grid
  deriving DecidableEq, Repr

inductive StandardCharset where
  | ascii
  | specialCharacterAndLineDrawing
  deriving DecidableEq, Repr, Inhabited

inductive CharsetIndex where
  | g0
  | g1
  | g2
  | g3
  deriving DecidableEq, Repr, Inhabited

structure Charsets where
  g0 : StandardCharset := .ascii
  g1 : StandardCharset := .ascii
  g2 : StandardCharset := .ascii
  g3 : StandardCharset := .ascii
  deriving DecidableEq, Repr, Inhabited

namespace Charsets

def get (charsets : Charsets) : CharsetIndex → StandardCharset
  | .g0 => charsets.g0
  | .g1 => charsets.g1
  | .g2 => charsets.g2
  | .g3 => charsets.g3

def set (charsets : Charsets) (index : CharsetIndex) (charset : StandardCharset) : Charsets :=
  match index with
  | .g0 => { charsets with g0 := charset }
  | .g1 => { charsets with g1 := charset }
  | .g2 => { charsets with g2 := charset }
  | .g3 => { charsets with g3 := charset }

end Charsets

structure Cursor where
  point : Point := {}
  template : Cell := {}
  erase : Cell := {}
  charsets : Charsets := {}
  inputNeedsWrap : Bool := false
  deriving DecidableEq, Repr, Inhabited

/-- A range of lines, its end excluded. -/
structure Region where
  start : ℤ
  stop : ℤ
  deriving DecidableEq, Repr, Inhabited

/-- `Range::contains`. -/
def Region.contains (region : Region) (line : ℤ) : Prop := region.start ≤ line ∧ line < region.stop

instance (region : Region) (line : ℤ) : Decidable (region.contains line) :=
  inferInstanceAs (Decidable (_ ∧ _))

inductive Scroll where
  | delta (count : ℤ)
  | pageUp
  | pageDown
  | top
  | bottom
  deriving DecidableEq, Repr

namespace Storage

variable {ρ : Type*}

/-- Update the given lines in turn. -/
def modifyLines (s : Storage ρ) (lines : List ℤ) (update : ρ → ρ) : Storage ρ :=
  lines.foldl (fun s line => s.modify line update) s

/-- Swap each of the given lines with the one `shift` lines further down. -/
def swapLines (s : Storage ρ) (lines : List ℤ) (shift : ℤ) : Storage ρ :=
  lines.foldl (fun s line => s.swap line (line + shift)) s

end Storage

structure Grid where
  cursor : Cursor := {}
  savedCursor : Cursor := {}
  raw : Storage Row
  columns : ℕ
  lines : ℕ
  displayOffset : ℕ := 0
  maxScrollLimit : ℕ
  deriving DecidableEq, Repr

namespace Grid

/-- `Grid::new`. -/
def new (lines columns maxScrollLimit : ℕ) : Grid where
  raw := Storage.withCapacity lines (Row.new columns)
  columns := columns
  lines := lines
  maxScrollLimit := maxScrollLimit

instance : Inhabited Grid := ⟨new 1 1 0⟩

def totalLines (g : Grid) : ℕ := g.raw.len

def historySize (g : Grid) : ℕ := g.totalLines - g.lines

def topmostLine (g : Grid) : ℤ := -(g.historySize : ℤ)

def bottommostLine (g : Grid) : ℤ := g.lines - 1

def lastColumn (g : Grid) : ℕ := g.columns - 1

/-- `Index<Line>`. -/
def row (g : Grid) (line : ℤ) : Row := g.raw.get line

/-- `Index<Point>`. -/
def cell (g : Grid) (point : Point) : Cell := (g.row point.line).get point.column

/-- `IndexMut<Line>`. -/
def modifyRow (g : Grid) (line : ℤ) (update : Row → Row) : Grid :=
  { g with raw := g.raw.modify line update }

/-- `IndexMut<Point>`. -/
def modifyCell (g : Grid) (point : Point) (update : Cell → Cell) : Grid :=
  g.modifyRow point.line (·.modify point.column update)

/-- `cursor_cell`. -/
def modifyCursorCell (g : Grid) (update : Cell → Cell) : Grid := g.modifyCell g.cursor.point update

/-- Reset the given lines to the cursor's erase cell. -/
def resetLines (g : Grid) (lines : List ℤ) : Grid :=
  { g with raw := g.raw.modifyLines lines (·.reset g.cursor.erase) }

/-- `Point::grid_clamp`. -/
def clamp (g : Grid) (boundary : Boundary) (point : Point) : Point :=
  let column := min point.column g.lastColumn
  match boundary with
  | .cursor =>
      if point.line < 0 then { line := 0, column := 0 }
      else if g.bottommostLine < point.line then { line := g.bottommostLine, column := g.lastColumn }
      else { point with column := column }
  | .grid =>
      if point.line < g.topmostLine then { line := g.topmostLine, column := 0 }
      else if g.bottommostLine < point.line then { line := g.bottommostLine, column := g.lastColumn }
      else { point with column := column }

/-- `Point::sub`: move left by `count` columns, across lines. -/
def subPoint (g : Grid) (boundary : Boundary) (point : Point) (count : ℕ) : Point :=
  let lineChanges := (count + g.columns - 1 - point.column) / g.columns
  g.clamp boundary {
    line := point.line - lineChanges
    column := (g.columns + point.column - count % g.columns) % g.columns }

def updateHistory (g : Grid) (historySize : ℕ) : Grid :=
  { g with
    raw := if historySize < g.historySize then g.raw.shrinkLines (g.historySize - historySize)
      else g.raw,
    displayOffset := min g.displayOffset historySize
    maxScrollLimit := historySize }

def scrollDisplay (g : Grid) (scroll : Scroll) : Grid :=
  { g with
    displayOffset := match scroll with
      | .delta count => min (max ((g.displayOffset : ℤ) + count) 0).toNat g.historySize
      | .pageUp => min (g.displayOffset + g.lines) g.historySize
      | .pageDown => g.displayOffset - g.lines
      | .top => g.historySize
      | .bottom => 0 }

def increaseScrollLimit (g : Grid) (count : ℕ) : Grid :=
  let count := min count (g.maxScrollLimit - g.historySize)
  if count ≠ 0 then { g with raw := g.raw.initializeRows count (Row.new g.columns) } else g

def decreaseScrollLimit (g : Grid) (count : ℕ) : Grid :=
  let count := min count g.historySize
  if count ≠ 0 then
    let raw := g.raw.shrinkLines (min count g.historySize)
    { g with raw := raw, displayOffset := min g.displayOffset (raw.len - g.lines) }
  else g

def scrollDown (g : Grid) (region : Region) (positions : ℕ) : Grid :=
  if region.stop - region.start ≤ positions then g.resetLines (lineRange region.start region.stop)
  else if g.maxScrollLimit = 0 then
    -- The lines fixed at the bottom are swapped upwards, so that the rotation returns them.
    let raw := g.raw.swapLines (lineRange region.stop g.lines) (-(positions : ℤ))
    let g := { g with raw := raw.rotateDown positions }
    let g := g.resetLines (lineRange 0 positions)
    { g with raw := g.raw.swapLines (lineRange 0 region.start) positions }
  else
    let moved := (lineRange (region.start + positions) region.stop).reverse
    let g := { g with raw := g.raw.swapLines moved (-(positions : ℤ)) }
    g.resetLines (lineRange region.start (region.start + positions)).reverse

/-- Move the rows of `region` up by `positions`: through the history when the
region starts at the top of the screen, inside the region otherwise. -/
def scrollRows (g : Grid) (region : Region) (positions : ℕ) : Grid :=
  if region.start = 0 then
    let g := g.increaseScrollLimit positions
    let raw := g.raw.swapLines (lineRange 0 region.start).reverse positions
    let raw := raw.rotate (-(positions : ℤ))
    { g with raw := raw.swapLines (lineRange region.stop g.lines).reverse (-(positions : ℤ)) }
  else
    let moved := lineRange region.start (region.stop - positions)
    { g with raw := g.raw.swapLines moved positions }

/-- `scroll_up_resetting`: scroll up by `positions` and reset the top `count` of
the lines entering at the bottom. -/
def scrollUpResetting (g : Grid) (region : Region) (positions count : ℕ) : Grid :=
  let unreset : ℤ := positions - count
  if region.stop - region.start ≤ positions ∧ region.start ≠ 0 then
    g.resetLines (lineRange region.start (region.stop - unreset))
  else
    let g := { g with
      displayOffset := if g.displayOffset ≠ 0 then min (g.displayOffset + positions) g.maxScrollLimit
        else g.displayOffset }
    let g := g.scrollRows region positions
    g.resetLines (lineRange (region.stop - positions) (region.stop - unreset))

def scrollUp (g : Grid) (region : Region) (positions : ℕ) : Grid :=
  g.scrollUpResetting region positions positions

def scrollUpUnreset (g : Grid) (region : Region) : Grid := g.scrollUpResetting region 1 0

/-- `GridIterator::prev`: the point before the iterator's, unless it is at the top. -/
def prev (g : Grid) (point : Point) : Option Point :=
  if ¬ ({ line := g.topmostLine, column := 0 } : Point).before point then none
  else if point.column = 0 then some { line := point.line - 1, column := g.lastColumn }
  else some { point with column := point.column - 1 }

/-- Walk back from `point` to a cell with content or a line of the history. -/
def lastContent (g : Grid) : ℕ → Point → Point
  | 0, point => point
  | fuel + 1, point =>
      match g.prev point with
      | none => point
      | some previous =>
          if !(g.cell previous).isEmpty ∨ previous.line < 0 then previous
          else g.lastContent fuel previous

/-- The lines `clear_viewport` preserves; an empty screen without history counts as one line. -/
def contentLines (g : Grid) : ℕ :=
  ((g.lastContent (g.lines * g.columns + 1)
    { line := g.bottommostLine, column := g.columns }).line + 1).toNat

def clearViewport (g : Grid) : Grid :=
  let positions := g.contentLines
  let g := g.scrollUp { start := 0, stop := g.lines } positions
  g.resetLines (lineRange 0 (g.lines - positions))

def clearHistory (g : Grid) : Grid :=
  { g with raw := (g.raw.shrinkLines g.historySize).truncate, displayOffset := 0 }

/-- `reset_region` with its range resolved. -/
def resetRegion (g : Grid) (start stop : ℤ) : Grid := g.resetLines (lineRange start stop)

def reset (g : Grid) : Grid :=
  let g := { g.clearHistory with savedCursor := {}, cursor := {}, displayOffset := 0 }
  g.resetLines (lineRange g.topmostLine g.lines)

/-- The grids differ at most in rows and viewport. -/
structure SameFrame (g g' : Grid) : Prop where
  cursor : g'.cursor = g.cursor
  savedCursor : g'.savedCursor = g.savedCursor
  columns : g'.columns = g.columns
  lines : g'.lines = g.lines
  maxScrollLimit : g'.maxScrollLimit = g.maxScrollLimit

variable {g g' g'' : Grid}

theorem SameFrame.trans (h : SameFrame g g') (h' : SameFrame g' g'') : SameFrame g g'' :=
  ⟨h'.cursor.trans h.cursor, h'.savedCursor.trans h.savedCursor, h'.columns.trans h.columns,
    h'.lines.trans h.lines, h'.maxScrollLimit.trans h.maxScrollLimit⟩

variable (g : Grid) (region : Region) (positions : ℕ)

theorem sameFrame_increaseScrollLimit (count : ℕ) : SameFrame g (g.increaseScrollLimit count) := by
  unfold increaseScrollLimit
  dsimp only
  split <;> exact ⟨rfl, rfl, rfl, rfl, rfl⟩

theorem sameFrame_scrollRows : SameFrame g (g.scrollRows region positions) := by
  unfold scrollRows
  split
  · exact (sameFrame_increaseScrollLimit g positions).trans ⟨rfl, rfl, rfl, rfl, rfl⟩
  · exact ⟨rfl, rfl, rfl, rfl, rfl⟩

theorem sameFrame_scrollUpResetting (count : ℕ) :
    SameFrame g (g.scrollUpResetting region positions count) := by
  unfold scrollUpResetting
  dsimp only
  split
  · exact ⟨rfl, rfl, rfl, rfl, rfl⟩
  · obtain ⟨hcursor, hsaved, hcolumns, hlines, hlimit⟩ := sameFrame_scrollRows
      { g with displayOffset := _ } region positions
    exact ⟨hcursor, hsaved, hcolumns, hlines, hlimit⟩

theorem sameFrame_scrollDown : SameFrame g (g.scrollDown region positions) := by
  unfold scrollDown
  split
  · exact ⟨rfl, rfl, rfl, rfl, rfl⟩
  · split <;> exact ⟨rfl, rfl, rfl, rfl, rfl⟩

end Grid

end Vivido.Terminal
