import Vivido.Term.Text

/-!
The terminal's other operations: cursor motion, edits within a line, scrolling
and clearing, styles, modes, screens and resizing. Each works on the visible
grid and records by hand the damage it does.
-/

namespace Vivido.Terminal

inductive LineClearMode where
  | right
  | left
  | all
  deriving DecidableEq, Repr

inductive ClearMode where
  | below
  | above
  | all
  | saved
  deriving DecidableEq, Repr

inductive TabulationClearMode where
  | current
  | all
  deriving DecidableEq, Repr

/-- The private modes that act on the grid. -/
inductive PrivateMode where
  | swapScreenAndSetRestoreCursor
  | lineWrap
  | origin
  | columnMode
  deriving DecidableEq, Repr

inductive Mode where
  | insert
  | lineFeedNewLine
  deriving DecidableEq, Repr

namespace Term

/-- Fill the visible screen with `E`. -/
def decaln (t : Term) : Term :=
  (t.modifyGrid fun g => { g with
    raw := g.raw.modifyLines (lineRange 0 t.screenLines)
      (·.fillRange 0 t.columns { c := 'E' } false) }).markFullyDamaged

def goto (t : Term) (line : ℤ) (column : ℕ) : Term :=
  let (yOffset, maxY) :=
    if t.mode.origin then (t.scrollRegion.start, t.scrollRegion.stop - 1)
    else (0, t.grid.bottommostLine)
  let t := t.damageCursor
  let t := t.setPoint {
    line := max (min (asI32 (line + yOffset)) maxY) 0
    column := min column t.lastColumn }
  t.damageCursor.setNeedsWrap false

def gotoLine (t : Term) (line : ℤ) : Term := t.goto line t.cursor.point.column

def gotoCol (t : Term) (column : ℕ) : Term := t.goto t.cursor.point.line column

def insertBlank (t : Term) (count : ℕ) : Term :=
  let point := t.cursor.point
  let erase := t.cursor.erase
  let count := min count (t.columns - point.column)
  let destination := point.column + count
  let numCells := t.columns - destination
  let t := t.damageLine point.line.toNat 0 (t.columns - 1)
  t.modifyRow point.line fun row =>
    (row.swapCells ((List.range numCells).reverse.map fun offset =>
      (destination + offset, point.column + offset))).fillRange point.column destination erase true

def moveUp (t : Term) (lines : ℕ) : Term :=
  t.goto (asI32 (t.cursor.point.line - asI32 lines)) t.cursor.point.column

def moveDown (t : Term) (lines : ℕ) : Term :=
  t.goto (asI32 (t.cursor.point.line + asI32 lines)) t.cursor.point.column

def moveForward (t : Term) (columns : ℕ) : Term :=
  let point := t.cursor.point
  let lastColumn := min (point.column + columns) t.lastColumn
  ((t.damageLine point.line.toNat point.column lastColumn).setColumn lastColumn).setNeedsWrap false

def moveBackward (t : Term) (columns : ℕ) : Term :=
  let point := t.cursor.point
  let column := point.column - columns
  ((t.damageLine point.line.toNat column point.column).setColumn column).setNeedsWrap false

def moveDownAndCr (t : Term) (lines : ℕ) : Term :=
  t.goto (asI32 (t.cursor.point.line + asI32 lines)) 0

def moveUpAndCr (t : Term) (lines : ℕ) : Term :=
  t.goto (asI32 (t.cursor.point.line - asI32 lines)) 0

/-- The next tab stop after `column`, or the last column; `steps` bounds the walk. -/
def nextTab (t : Term) : ℕ → ℕ → ℕ
  | 0, column => column
  | steps + 1, column =>
      if column + 1 = t.columns then column
      else if t.tabs.getD (column + 1) false then column + 1
      else t.nextTab steps (column + 1)

/-- The loop of `put_tab`. -/
def putTabs (env : Charmap) : ℕ → Term → Term
  | 0, t => t
  | count + 1, t =>
      if t.cursor.point.column < t.columns then
        let c := env.map (t.cursor.charsets.get t.activeCharset) '\t'
        let t := t.modifyCell t.cursor.point fun cell => if cell.c = ' ' then cell.setC c else cell
        putTabs env count (t.setColumn (t.nextTab t.columns t.cursor.point.column))
      else t

def putTab (env : Charmap) (t : Term) (count : ℕ) : Term :=
  if t.cursor.inputNeedsWrap then t.wrapline else putTabs env count t

def backspace (t : Term) : Term :=
  let point := t.cursor.point
  if 0 < point.column then
    ((t.setColumn (point.column - 1)).setNeedsWrap false).damageLine point.line.toNat
      (point.column - 1) point.column
  else t

def carriageReturn (t : Term) : Term :=
  let point := t.cursor.point
  ((t.damageLine point.line.toNat 0 point.column).setColumn 0).setNeedsWrap false

def newline (t : Term) : Term :=
  let t := t.linefeed
  if t.mode.lineFeedNewLine then t.carriageReturn else t

def setHorizontalTabstop (t : Term) : Term :=
  { t with tabs := t.tabs.set t.cursor.point.column true }

def insertBlankLines (t : Term) (lines : ℕ) : Term :=
  let origin := t.cursor.point.line
  if t.scrollRegion.contains origin then t.scrollDownRelative origin lines else t

def deleteLines (t : Term) (lines : ℕ) : Term :=
  let origin := t.cursor.point.line
  let lines := min (t.screenLines - origin.toNat) lines
  if 0 < lines ∧ t.scrollRegion.contains origin then t.scrollUpRelative origin lines else t

def eraseChars (t : Term) (count : ℕ) : Term :=
  let point := t.cursor.point
  let erase := t.cursor.erase
  let stop := min (point.column + count) t.columns
  (t.damageLine point.line.toNat point.column stop).modifyRow point.line
    (·.fillRange point.column stop erase false)

def deleteChars (t : Term) (count : ℕ) : Term :=
  let columns := t.columns
  let point := t.cursor.point
  let erase := t.cursor.erase
  let count := min count columns
  let start := point.column
  let stop := min (start + count) (columns - 1)
  let numCells := columns - stop
  (t.damageLine point.line.toNat 0 (columns - 1)).modifyRow point.line fun row =>
    (row.swapCells ((List.range numCells).map fun offset =>
      (start + offset, stop + offset))).fillRange (columns - count) columns erase true

/-- The last tab stop before `column`, if any. -/
def previousTab (t : Term) : ℕ → Option ℕ
  | 0 => none
  | column + 1 => if t.tabs.getD column false then some column else t.previousTab column

/-- The loop of `move_backward_tabs`; without a tab stop the column stays. -/
def backwardTabs (t : Term) : ℕ → ℕ → ℕ
  | 0, column => column
  | count + 1, column =>
      if column = 0 then column else t.backwardTabs count ((t.previousTab column).getD column)

def moveBackwardTabs (t : Term) (count : ℕ) : Term :=
  let point := t.cursor.point
  let t := t.setColumn (t.backwardTabs count point.column)
  t.damageLine point.line.toNat t.cursor.point.column point.column

/-- The loop of `move_forward_tabs`. -/
def forwardTabs (t : Term) : ℕ → ℕ → ℕ
  | 0, column => column
  | count + 1, column =>
      if column = t.columns - 1 then column else t.forwardTabs count (t.nextTab t.columns column)

def moveForwardTabs (t : Term) (count : ℕ) : Term :=
  let point := t.cursor.point
  let t := t.setColumn (t.forwardTabs count point.column)
  t.damageLine point.line.toNat point.column t.cursor.point.column

def saveCursorPosition (t : Term) : Term := { t with grid.savedCursor := t.cursor }

def restoreCursorPosition (t : Term) : Term :=
  let t := t.damageCursor
  (t.setCursor t.grid.savedCursor).damageCursor

def clearLine (t : Term) (mode : LineClearMode) : Term :=
  let point := t.cursor.point
  let erase := t.cursor.erase
  if mode = .right ∧ t.cursor.inputNeedsWrap then t
  else
    let (left, right) := match mode with
      | .right => (point.column, t.columns)
      | .left => (0, point.column + 1)
      | .all => (0, t.columns)
    (t.damageLine point.line.toNat left (right - 1)).modifyRow point.line
      (·.fillRange left right erase false)

def clearScreen (t : Term) (mode : ClearMode) : Term :=
  let point := t.cursor.point
  let erase := t.cursor.erase
  let t := match mode with
    | .above =>
        let t := if 1 < point.line then t.modifyGrid (·.resetRegion 0 point.line) else t
        t.modifyRow point.line (·.fillRange 0 (min (point.column + 1) t.columns) erase false)
    | .below =>
        let t := t.modifyRow point.line (·.fillRange point.column t.columns erase true)
        if point.line.toNat < t.screenLines - 1 then
          t.modifyGrid (·.resetRegion (point.line + 1) t.screenLines)
        else t
    | .all =>
        let t := if t.mode.altScreen then t.modifyGrid (·.resetRegion 0 t.screenLines)
          else t.modifyGrid Grid.clearViewport
        t.flushGridScroll.sendEvent .vividClear
    | .saved => if 0 < t.historySize then t.modifyGrid Grid.clearHistory else t
  t.markFullyDamaged

def clearTabs (t : Term) (mode : TabulationClearMode) : Term :=
  match mode with
  | .current => { t with tabs := t.tabs.set t.cursor.point.column false }
  | .all => { t with tabs := t.tabs.map fun _ => false }

/-- Exchange the two grids. -/
def swapGrids (t : Term) : Term := { t with grid := t.inactiveGrid, inactiveGrid := t.grid }

def swapAlt (t : Term) : Term :=
  let t := if !t.mode.altScreen then
      let inactive := { t.inactiveGrid with cursor := t.cursor }
      { t with
        inactiveGrid := inactive.resetRegion 0 inactive.lines
        grid.savedCursor := t.cursor }
    else t
  let t := t.swapGrids
  let t := { t with mode.altScreen := !t.mode.altScreen }
  (t.flushGridScroll.sendEvent (.vividScreenSwap t.mode.altScreen)).markFullyDamaged

def resetState (t : Term) : Term :=
  let t := if t.mode.altScreen then t.swapGrids else t
  let t := { t with
    activeCharset := .g0
    grid := t.grid.reset
    inactiveGrid := t.inactiveGrid.reset }
  let t := { t with
    scrollRegion := { start := 0, stop := t.screenLines }
    tabs := TabStops.new t.columns
    mode := {} }
  ((t.sendEvent .cursorBlinkingChange).sendEvent .mouseCursorDirty).markFullyDamaged

/-- `reset_client_state`: recovery after an application failed to clean up. -/
def resetClientState (t : Term) : Term :=
  let wasAlternate := t.mode.altScreen
  let t := if wasAlternate then t.swapGrids else t
  let t := { t with inactiveGrid := t.inactiveGrid.reset, activeCharset := .g0 }
  let t := { t with
    scrollRegion := { start := 0, stop := t.screenLines }
    tabs := TabStops.new t.columns
    mode := {} }
  let t := if wasAlternate then t.sendEvent (.vividScreenSwap false) else t
  (((t.sendEvent .vividClear).sendEvent .cursorBlinkingChange).sendEvent
    .mouseCursorDirty).markFullyDamaged

def reverseIndex (t : Term) : Term :=
  if t.cursor.point.line = t.scrollRegion.start then t.scrollDown 1
  else
    let t := t.damageCursor
    (t.setLine (max (t.cursor.point.line - 1) 0)).damageCursor

def templateStyle (t : Term) : Style := t.styles.get t.cursor.template.style

/-- The style ids of every cell a grid stores and of its cursors. -/
def styleIds (g : Grid) : List StyleId :=
  g.raw.inner.flatMap (fun row => row.inner.map Cell.style) ++
    [g.cursor.template.style, g.cursor.erase.style, g.savedCursor.template.style,
      g.savedCursor.erase.style]

/-- `for_each_cell_mut` setting every style id to its image. -/
def mapStyles (f : StyleId → StyleId) (g : Grid) : Grid :=
  let update := fun cell : Cell => cell.setStyle (f cell.style)
  { g with
    raw := g.raw.mapRows fun row => { row with inner := row.inner.map update },
    cursor := { g.cursor with
      template := update g.cursor.template
      erase := update g.cursor.erase }
    savedCursor := { g.savedCursor with
      template := update g.savedCursor.template
      erase := update g.savedCursor.erase } }

/-- Drop the styles no cell refers to and renumber the rest. -/
def sweepStyles (t : Term) : Term :=
  let used := t.styles.marks (styleIds t.grid ++ styleIds t.inactiveGrid)
  let (styles, remap) := t.styles.compact used
  { t with
    styles := styles
    grid := mapStyles (remapStyle remap) t.grid
    inactiveGrid := mapStyles (remapStyle remap) t.inactiveGrid }

/-- Number of cells a sweep visits. -/
def storedCells (t : Term) : ℕ :=
  t.grid.raw.inner.length * t.grid.columns +
    t.inactiveGrid.raw.inner.length * t.inactiveGrid.columns

/-- Write new output in a style. -/
def setTemplateStyle (t : Term) (style : Style) : Term :=
  let (styles, id) := t.styles.intern style
  { t with styles := styles }.setCursor { t.cursor with template := t.cursor.template.setStyle id }

/-- Erase to a background color. -/
def setEraseColor (t : Term) (bg : Color) : Term :=
  let (styles, id) := t.styles.intern { bg := bg }
  { t with styles := styles }.setCursor { t.cursor with erase := t.cursor.erase.setStyle id }

def updateTemplateStyle (t : Term) (update : Style → Style) : Term :=
  match t.pendingStyle with
  | some style => { t with pendingStyle := some (update style) }
  | none =>
      let previous := t.templateStyle
      let style := update previous
      if style = previous then t
      else
        let t := t.setTemplateStyle style
        let t := if style.bg ≠ previous.bg then t.setEraseColor style.bg else t
        if t.styles.needsSweep t.storedCells then t.sweepStyles else t

def setHyperlink (t : Term) (hyperlink : Option Hyperlink) : Term :=
  t.updateTemplateStyle fun style => { style with hyperlink := hyperlink }

def startAttributes (t : Term) : Term := { t with pendingStyle := some t.templateStyle }

def finishAttributes (t : Term) : Term :=
  match t.pendingStyle with
  | some style => ({ t with pendingStyle := none } : Term).updateTemplateStyle fun _ => style
  | none => t

/-- `terminal_attribute`; an attribute it does not handle changes nothing. -/
def terminalAttribute (t : Term) (attr : Attr) : Term :=
  if attr = .unhandled then t else t.updateTemplateStyle attr.apply

def setScrollingRegion (t : Term) (top : ℕ) (bottom : Option ℕ) : Term :=
  let bottom := bottom.getD t.screenLines
  if bottom ≤ top then t
  else
    let start := asI32 (asI32 top - 1)
    let stop := asI32 bottom
    let t := { t with
      scrollRegion := { start := min start t.screenLines, stop := min stop t.screenLines } }
    t.goto 0 0

def deccolm (t : Term) : Term :=
  let t := t.setScrollingRegion 1 none
  (t.modifyGrid (·.resetRegion 0 t.screenLines)).markFullyDamaged

def setPrivateMode (t : Term) : PrivateMode → Term
  | .swapScreenAndSetRestoreCursor => if !t.mode.altScreen then t.swapAlt else t
  | .lineWrap => { t with mode.lineWrap := true }
  | .origin => ({ t with mode.origin := true } : Term).goto 0 0
  | .columnMode => t.deccolm

def unsetPrivateMode (t : Term) : PrivateMode → Term
  | .swapScreenAndSetRestoreCursor => if t.mode.altScreen then t.swapAlt else t
  | .lineWrap => { t with mode.lineWrap := false }
  | .origin => { t with mode.origin := false }
  | .columnMode => t.deccolm

def setMode (t : Term) : Mode → Term
  | .insert => { t with mode.insert := true }
  | .lineFeedNewLine => { t with mode.lineFeedNewLine := true }

def unsetMode (t : Term) : Mode → Term
  | .insert => ({ t with mode.insert := false } : Term).markFullyDamaged
  | .lineFeedNewLine => { t with mode.lineFeedNewLine := false }

def configureCharset (t : Term) (index : CharsetIndex) (charset : StandardCharset) : Term :=
  t.setCursor { t.cursor with charsets := t.cursor.charsets.set index charset }

def setActiveCharset (t : Term) (index : CharsetIndex) : Term := { t with activeCharset := index }

/-- `count` line feeds. -/
def linefeeds : ℕ → Term → Term
  | 0, t => t
  | count + 1, t => linefeeds count t.linefeed

/-- The column after an image and how many lines down it is. -/
def pastImage (t : Term) (columns rows : ℕ) : ℕ × ℕ :=
  let right := t.cursor.point.column + columns
  if t.columns ≤ right then (0, rows - 1 + 1) else (right, rows - 1)

/-- `advance_past_image`: move the cursor past an image of the given cells. -/
def advancePastImage (t : Term) (columns rows : ℕ) : Term :=
  let (column, down) := t.pastImage columns rows
  let t := linefeeds (min down t.screenLines) t
  ((t.damageCursor.setColumn column).setNeedsWrap false).damageCursor

def scrollDisplay (t : Term) (scroll : Scroll) : Term :=
  let old := t.grid.displayOffset
  let t := (t.modifyGrid (·.scrollDisplay scroll)).sendEvent .mouseCursorDirty
  if old ≠ t.grid.displayOffset then t.markFullyDamaged else t

/-- Scroll the viewport to a point outside of it. -/
def scrollToPoint (t : Term) (point : Point) : Term :=
  let displayOffset : ℤ := t.grid.displayOffset
  let screenLines : ℤ := t.screenLines
  if point.line < -displayOffset then t.scrollDisplay (.delta (-(point.line + displayOffset)))
  else if screenLines - displayOffset ≤ point.line then
    t.scrollDisplay (.delta (-(point.line + displayOffset - screenLines + 1)))
  else t

/-- Whether a line wraps into the next one. -/
def wraps (t : Term) (line : ℤ) : Bool :=
  (t.grid.cell { line := line, column := t.lastColumn }).layout.wrapline

/-- The first line of the wrapped input that `line` belongs to, on the screen. -/
def wrappedStart (t : Term) : ℕ → ℤ → ℤ
  | 0, line => line
  | steps + 1, line =>
      if 0 < line ∧ t.wraps (line - 1) then t.wrappedStart steps (line - 1) else line

/-- The last line of the wrapped input that `line` belongs to. -/
def wrappedEnd (t : Term) : ℕ → ℤ → ℤ
  | 0, line => line
  | steps + 1, line =>
      if line < t.grid.bottommostLine ∧ t.wraps line then t.wrappedEnd steps (line + 1) else line

/-- Clear the lines of the screen below the retained ones. -/
def clearBelow (t : Term) (retained : ℤ) : Term :=
  if retained < t.screenLines then t.modifyGrid (·.resetRegion retained t.screenLines) else t

/-- `clear_buffer`: keep only the cursor's logical line, at the top. -/
def clearBuffer (t : Term) : Term :=
  let line := t.cursor.point.line
  let start := t.wrappedStart t.screenLines line
  let stop := t.wrappedEnd t.screenLines line
  let t := t.modifyGrid (·.scrollUp { start := 0, stop := t.screenLines } start.toNat)
  let t := t.clearBelow (stop - start + 1)
  let t := t.setLine (t.cursor.point.line - start)
  let t := t.modifyGrid Grid.clearHistory
  ((t.flushGridScroll.sendEvent .vividClear).sendEvent .mouseCursorDirty).markFullyDamaged

/-- `set_options`, as far as the scrollback goes. -/
def setOptions (t : Term) (scrollingHistory : ℕ) : Term :=
  let t := { t with scrollingHistory := scrollingHistory }
  (if t.mode.altScreen then { t with inactiveGrid := t.inactiveGrid.updateHistory scrollingHistory }
    else t.modifyGrid (·.updateHistory scrollingHistory)).markFullyDamaged

/-- `resize`; nothing when a loop of the reflow does not end. -/
def resize (t : Term) (lines columns : ℕ) : Option Term :=
  if t.columns = columns ∧ t.screenLines = lines then some t
  else do
    let grid ← t.grid.resizeGrid (!t.mode.altScreen) lines columns
    let inactiveGrid ← t.inactiveGrid.resizeGrid t.mode.altScreen lines columns
    return { t with
      grid := grid
      inactiveGrid := inactiveGrid
      tabs := if t.columns ≠ columns then TabStops.resize t.tabs columns else t.tabs,
      scrollRegion := { start := 0, stop := grid.lines }
      damage := TermDamageState.new columns lines }

end Term

end Vivido.Terminal
