import Vivido.Grid.Grid

/-!
Resizing a grid. Growing pulls lines from the history and cells up from the
next row; shrinking pushes lines into the history and cells down into the next
row. The rows are rebuilt from the top of the buffer, so the finished rows are
kept latest first, which is the order the buffer stores. Extra content travels
in one gathered list meanwhile.
-/

namespace Vivido.Terminal

namespace Storage

/-- `for_each_row_mut` with an accumulator, over the stored rows in order. -/
def mapAccum {ρ τ : Type*} (s : Storage ρ) (update : ρ → τ → ρ × τ) (initial : τ) :
    Storage ρ × τ :=
  let (rows, last) := s.inner.foldl
    (fun (rows, state) row =>
      let (row, state) := update row state
      (rows ++ [row], state)) (([] : List ρ), initial)
  ({ s with inner := rows }, last)

end Storage

/-- A cell that only holds `LEADING_WIDE_CHAR_SPACER`. -/
def leadingSpacer : Cell := { layout := .leading }

namespace Grid

def growLines (g : Grid) (target : ℕ) : Grid :=
  let linesAdded := target - g.lines
  let g := { g with
    raw := g.raw.growVisibleLines target (fun row => Row.new row.len)
    lines := target }
  let fromHistory := min g.historySize linesAdded
  let g := if fromHistory ≠ linesAdded then
      g.scrollUp { start := 0, stop := target } (linesAdded - fromHistory)
    else g
  let g := { g with
    savedCursor.point.line := g.savedCursor.point.line + fromHistory
    cursor.point.line := g.cursor.point.line + fromHistory
    displayOffset := g.displayOffset - linesAdded }
  g.decreaseScrollLimit linesAdded

def shrinkLines (g : Grid) (target : ℕ) : Grid :=
  let requiredScrolling := g.cursor.point.line.toNat + 1 - target
  let g := if 0 < requiredScrolling then
      let g := g.scrollUp { start := 0, stop := g.lines } requiredScrolling
      { g with cursor.point.line := min g.cursor.point.line (target - 1) }
    else g
  { g with
    savedCursor.point.line := min g.savedCursor.point.line (target - 1)
    raw := (g.raw.rotate (g.lines - target : ℕ)).shrinkVisibleLines target
    lines := target }

/-- The cursor's row, counted from the bottom. -/
def cursorBufferLine (g : Grid) : ℕ := g.lines - g.cursor.point.line.toNat - 1

/-- Move a pending wrap's cursor outside of the grid. -/
def unwrapCursor (g : Grid) (reflow : Bool) : Grid :=
  if g.cursor.inputNeedsWrap && reflow then
    { g with cursor := { g.cursor with
        inputNeedsWrap := false
        point.column := g.cursor.point.column + 1 } }
  else g

/-- The state of the loop over rows in `grow_columns`: the finished rows, latest
first, the cursor and viewport so far, and the lines the cursor has to move. -/
structure GrowState where
  grid : Grid
  reversed : List Row
  cursorLineDelta : ℕ

/-- A row narrower than the grid that wraps into the next one. -/
def shouldReflow (reflow : Bool) (columns : ℕ) (row : Row) : Bool :=
  reflow && 0 < row.len && row.len < columns && (row.get (row.len - 1)).layout.wrapline

/-- A row without its wrap flag and trailing leading spacer. -/
def openRow (row : Row) : Row :=
  let row := row.modifyLast (·.removeLayout .wrap)
  if 1 ≤ row.len ∧ (row.get (row.len - 1)).layout.leadingWideCharSpacer then
    (row.shrink (row.len - 1)).1
  else row

/-- The cells a row of `lastLen` cells takes from the front of the next row: what
stays there, the cells, and how many columns they fill. -/
def pullCells (columns lastLen : ℕ) (row : Row) : Row × List Cell × ℕ :=
  let numWrapped := columns - lastLen
  let len := min row.len numWrapped
  if (row.get (len - 1)).layout.wideChar then
    let (row, cells) := row.frontSplitOff (len - 1)
    (row, cells ++ [leadingSpacer], numWrapped - 1)
  else
    let (row, cells) := row.frontSplitOff len
    (row, cells, numWrapped)

/-- Reflow the cursor on the row cells were pulled from: the grid, the line
change, and whether the rest of the row is dropped. -/
def pullCursor (g : Grid) (rest : Row) (numWrapped : ℕ) : Grid × ℕ × Bool :=
  let target := g.subPoint .cursor g.cursor.point numWrapped
  let atMargin := target.column = 0 ∧ rest.isClear
  let target := if atMargin then g.subPoint .cursor target 1 else target
  let lineDelta := g.cursor.point.line - target.line
  let g := { g with cursor := { g.cursor with
    inputNeedsWrap := if atMargin then true else g.cursor.inputNeedsWrap
    point.column := target.column } }
  (g, lineDelta.toNat, lineDelta ≠ 0 ∧ rest.isClear)

/-- One row of the loop in `grow_columns`; `i` counts rows from the bottom. -/
def growStep (reflow : Bool) (columns : ℕ) (state : GrowState) (i : ℕ) (row : Row) : GrowState :=
  match state.reversed with
  | [] => { state with reversed := [row] }
  | lastRow :: finished =>
      if !shouldReflow reflow columns lastRow then
        { state with reversed := row :: state.reversed }
      else
        let g := state.grid
        let lastRow := openRow lastRow
        let (rest, cells, numWrapped) := pullCells columns lastRow.len row
        let lastRow := lastRow.append cells
        let wrapped := rest :: lastRow.modifyLast (·.insertLayout .wrap) :: finished
        if i = g.cursorBufferLine ∧ reflow then
          let (g, lineDelta, dropped) := g.pullCursor rest numWrapped
          if dropped then { state with grid := g, reversed := lastRow :: finished }
          else { grid := g, reversed := wrapped, cursorLineDelta := state.cursorLineDelta + lineDelta }
        else if rest.isClear then
          { state with
            grid := { g with
              displayOffset := if i < g.displayOffset then g.displayOffset - 1 else g.displayOffset
              cursor.point.line := if i < g.cursorBufferLine then g.cursor.point.line + 1
                else g.cursor.point.line }
            reversed := lastRow :: finished }
        else { state with reversed := wrapped }

def growColumns (g : Grid) (reflow : Bool) (columns : ℕ) : Grid :=
  let g := ({ g with columns := columns } : Grid).unwrapCursor reflow
  let rows := g.raw.takeAll
  -- The loop reads the buffer's length only while it is taken out.
  let taken := { g with raw := { g.raw with inner := [], len := 0 } }
  let state := rows.zipIdx.reverse.foldl
    (fun state (row, i) => growStep reflow columns state i row)
    { grid := taken, reversed := [], cursorLineDelta := 0 }
  let g := state.grid
  let reversed := state.reversed
  let short := g.lines - reversed.length
  let g := if reversed.length < g.lines then
      { g with cursor.point.line := max (g.cursor.point.line - short) 0 }
    else g
  let reversed := List.replicate short (Row.new columns) ++ reversed
  let available := min g.cursorBufferLine (reversed.length - g.lines)
  let overflow := state.cursorLineDelta - available
  let (g, reversed) := if state.cursorLineDelta ≠ 0 then
      ({ g with cursor.point.line := max (g.cursor.point.line - overflow) 0 },
        reversed.drop (state.cursorLineDelta - overflow))
    else (g, reversed)
  let raw := g.raw.replaceInner (reversed.map (·.grow columns))
  { g with raw := raw, displayOffset := min g.displayOffset (raw.len - g.lines) }

/-- The state of the loop in `shrink_columns`: the finished rows, latest first,
and the cells cut from the last one. -/
structure ShrinkState where
  grid : Grid
  newRaw : List Row
  buffered : Option (List Cell)

/-- Move a wide character at the cut into the cut cells. -/
def cutWide (columns : ℕ) (row : Row) (wrapped : List Cell) : Row × List Cell :=
  if columns ≤ row.len ∧ (row.get (columns - 1)).layout.wideChar then
    (row.modify (columns - 1) (fun _ => leadingSpacer), row.get (columns - 1) :: wrapped)
  else (row, wrapped)

/-- The cursor and viewport once a row below them was added for the cut cells. -/
def addRow (g : Grid) (columns i : ℕ) : Grid :=
  let cursorBufferLine := g.cursorBufferLine
  let point := g.cursor.point
  { g with
    cursor := { g.cursor with point := {
      line := if i = cursorBufferLine ∧ point.column < columns ∨ i < cursorBufferLine then
          max (point.line - 1) 0
        else point.line
      column := if i = cursorBufferLine ∧ columns ≤ point.column then point.column - columns
        else point.column } }
    displayOffset := if i < g.displayOffset then g.displayOffset + 1 else g.displayOffset }

/-- Cells to carry on without the leading spacer that ended the cut piece. -/
def dropSpacer (wrapped : List Cell) : List Cell :=
  if (wrapped.getLastD {}).layout.leadingWideCharSpacer then
    wrapped.dropLast.modify (wrapped.length - 2) (·.insertLayout .wrap)
  else wrapped

/-- Push the row the cells were cut from; what they become, if the loop goes on. -/
def pushWrapped (columns i : ℕ) (state : ShrinkState) (row : Row) (wrapped : List Cell) :
    ShrinkState × Option Row :=
  let (row, wrapped) := cutWide columns row wrapped
  if wrapped.length = 1 ∧ (wrapped.getLastD {}).layout.leadingWideCharSpacer then
    ({ state with newRaw := row.modify (columns - 1) (·.insertLayout .wrap) :: state.newRaw }, none)
  else
    let wrapped := dropSpacer wrapped
    let newRaw := row.modifyLast (·.insertLayout .wrap) :: state.newRaw
    if (wrapped.getLastD {}).layout.wrapline ∧ 1 ≤ i ∧ wrapped.length < columns then
      -- The cells go in front of the next row.
      ({ state with
          newRaw := newRaw
          buffered := some (wrapped.modify (wrapped.length - 1) (·.removeLayout .wrap)) }, none)
    else
      ({ state with grid := state.grid.addRow columns i, newRaw := newRaw },
        some (Row.fromVec (wrapped ++ List.replicate (columns - wrapped.length) {}) wrapped.length))

/-- One round of the loop over a row in `shrink_columns`. -/
def shrinkStep (reflow : Bool) (columns i : ℕ) (state : ShrinkState) (row : Row) :
    ShrinkState × Option Row :=
  let g := state.grid
  match row.shrink columns with
  | (row, some wrapped) =>
      if reflow then pushWrapped columns i state row wrapped
      else ({ state with newRaw := row :: state.newRaw }, none)
  | (row, none) =>
      -- Empty cells before the cursor are explicit whitespace.
      if reflow ∧ i = g.cursorBufferLine ∧ columns < g.cursor.point.column then
        pushWrapped columns i state row []
      else ({ state with newRaw := row :: state.newRaw }, none)

/-- The loop over one row, while `fuel` lasts. -/
def shrinkLoop (reflow : Bool) (columns i : ℕ) : ℕ → ShrinkState → Row → Option ShrinkState
  | 0, _, _ => none
  | fuel + 1, state, row =>
      match shrinkStep reflow columns i state row with
      | (state, none) => some state
      | (state, some row) => shrinkLoop reflow columns i fuel state row

/-- Put the cells cut from the row above in front of a row. -/
def takeBuffered (i : ℕ) (state : ShrinkState) (row : Row) : ShrinkState × Row :=
  match state.buffered with
  | none => (state, row)
  | some cells =>
      let g := state.grid
      let column := if i = g.cursorBufferLine then g.cursor.point.column + cells.length
        else g.cursor.point.column
      ({ state with grid := { g with cursor.point.column := column }, buffered := none },
        row.appendFront cells)

/-- Rounds that suffice for a row: each one takes cells from the row or columns
from the cursor. -/
def shrinkFuel (state : ShrinkState) (row : Row) : ℕ := row.len + state.grid.cursor.point.column + 2

/-- The loop over rows of `shrink_columns`; nothing when the inner one does not end. -/
def shrinkRows (reflow : Bool) (columns : ℕ) : List (Row × ℕ) → ShrinkState → Option ShrinkState
  | [], state => some state
  | (row, i) :: rows, state => do
      let (state, row) := takeBuffered i state row
      let state ← shrinkLoop reflow columns i (shrinkFuel state row) state row
      shrinkRows reflow columns rows state

/-- Place the cursors once the rows are rebuilt. -/
def shrinkCursor (g : Grid) (reflow : Bool) (columns : ℕ) : Grid :=
  let point := g.cursor.point
  let g := if !reflow then { g with cursor.point.column := min point.column (columns - 1) }
    else if point.column = columns ∧
        ¬(g.cell { line := point.line, column := columns - 1 }).layout.wrapline then
      { g with cursor := { g.cursor with inputNeedsWrap := true, point.column := point.column - 1 } }
    else { g with cursor.point := g.clamp .cursor point }
  { g with savedCursor.point.column := min g.savedCursor.point.column (columns - 1) }

/-- `shrink_columns`; nothing when a loop does not end. -/
def shrinkColumns (g : Grid) (reflow : Bool) (columns : ℕ) : Option Grid := do
  let g := ({ g with columns := columns } : Grid).unwrapCursor reflow
  let state ← shrinkRows reflow columns g.raw.takeAll.zipIdx.reverse
    { grid := g, newRaw := [], buffered := none }
  let g := state.grid
  let raw := g.raw.replaceInner (state.newRaw.take (g.maxScrollLimit + g.lines))
  let g := { g with raw := raw, displayOffset := min g.displayOffset (raw.len - g.lines) }
  return g.shrinkCursor reflow columns

/-- Whether any row holds combining characters or resize tracking. -/
def hasExtras (g : Grid) : Bool := g.raw.inner.any fun row => !row.extras.isEmpty

/-- `Grid::resize`; nothing when a loop does not end. -/
def resize (g : Grid) (reflow : Bool) (lines columns : ℕ) : Option Grid := do
  let erase := g.cursor.erase
  let (raw, gathered) := g.raw.mapAccum Row.exportExtras []
  let g := { g with cursor.erase := {}, raw := raw }
  let g := if g.lines < lines then g.growLines lines
    else if lines < g.lines then g.shrinkLines lines
    else g
  let g ← if g.columns < columns then some (g.growColumns reflow columns)
    else if columns < g.columns then g.shrinkColumns reflow columns
    else some g
  let (raw, _) := g.raw.mapAccum Row.importExtras gathered
  return { g with cursor.erase := erase, raw := raw }

/-- Number the extra content of a resized grid's cells within what a packed cell holds. -/
def packed (g : Grid) : Grid :=
  let pack := fun cell : Cell => cell.setExtraId cell.extra
  { g with
    raw := g.raw.mapRows fun row => { row with inner := row.inner.map pack },
    cursor := { g.cursor with template := pack g.cursor.template, erase := pack g.cursor.erase }
    savedCursor := { g.savedCursor with
      template := pack g.savedCursor.template
      erase := pack g.savedCursor.erase } }

/-- `resize_grid`. -/
def resizeGrid (g : Grid) (reflow : Bool) (lines columns : ℕ) : Option Grid :=
  if g.hasExtras then (g.resize reflow lines columns).map packed
  else g.resize reflow lines columns

end Grid

end Vivido.Terminal
