import Mathlib.Data.Int.Notation
import Vivido.Grid.Resize
import Vivido.Term.Style

/-!
The state of a terminal: two grids of one size, the styles their cells refer
to, the modes, the scroll region and the damage recorded since the last reset.
Character widths and charset maps come from outside and are parameters.
-/

namespace Vivido.Terminal

/-- Display widths and charsets: `UnicodeWidthChar::width` and `StandardCharset::map`. -/
structure Charmap where
  width : Char → Option ℕ
  map : StandardCharset → Char → Char
  width_printable : ∀ c : Char, 0x20 ≤ c.toNat → c.toNat ≤ 0x7E → width c = some 1
  width_ideograph : ∀ c : Char, 0x4E00 ≤ c.toNat → c.toNat ≤ 0x9FFF → width c = some 2
  map_ascii : ∀ c : Char, map .ascii c = c

/-- Wrapping arithmetic on `i32`. -/
def asI32 (n : ℤ) : ℤ := n.bmod (2 ^ 32)

/-- The inclusive damaged columns of a line; none while `left` is past `right`. -/
structure LineDamageBounds where
  line : ℕ
  left : ℕ
  right : ℕ
  deriving DecidableEq, Repr, Inhabited

namespace LineDamageBounds

def undamaged (line numCols : ℕ) : LineDamageBounds := { line := line, left := numCols, right := 0 }

def reset (bounds : LineDamageBounds) (numCols : ℕ) : LineDamageBounds :=
  undamaged bounds.line numCols

def expand (bounds : LineDamageBounds) (left right : ℕ) : LineDamageBounds :=
  { bounds with left := min bounds.left left, right := max bounds.right right }

def isDamaged (bounds : LineDamageBounds) : Bool := bounds.left ≤ bounds.right

end LineDamageBounds

structure TermDamageState where
  full : Bool := true
  lines : List LineDamageBounds
  lastCursor : Point := {}
  deriving DecidableEq, Repr

namespace TermDamageState

/-- `TermDamageState::new`, and `resize` alike. -/
def new (numCols numLines : ℕ) : TermDamageState where
  lines := (List.range numLines).map (LineDamageBounds.undamaged · numCols)

def damageLine (damage : TermDamageState) (line left right : ℕ) : TermDamageState :=
  { damage with lines := damage.lines.modify line (·.expand left right) }

def reset (damage : TermDamageState) (numCols : ℕ) : TermDamageState :=
  { damage with full := false, lines := damage.lines.map (·.reset numCols) }

end TermDamageState

/-- What `damage` reports. -/
inductive TermDamage where
  | full
  | partly (lines : List LineDamageBounds)
  deriving DecidableEq, Repr

/-- The terminal modes that the grid operations read. -/
structure TermMode where
  lineWrap : Bool := true
  lineFeedNewLine : Bool := false
  origin : Bool := false
  insert : Bool := false
  altScreen : Bool := false
  deriving DecidableEq, Repr, Inhabited

structure PendingGridScroll where
  origin : ℤ
  stop : ℤ
  lines : ℤ
  historySize : ℕ
  deriving DecidableEq, Repr

inductive Event where
  | mouseCursorDirty
  | cursorBlinkingChange
  | vividClear
  | vividScreenSwap (alternate : Bool)
  | vividGridScroll (scroll : PendingGridScroll)
  deriving DecidableEq, Repr

/-- `INITIAL_TABSTOPS`. -/
def initialTabstops : ℕ := 8

namespace TabStops

def isInitial (column : ℕ) : Bool := column % initialTabstops = 0

def new (columns : ℕ) : List Bool := (List.range columns).map isInitial

def resize (tabs : List Bool) (columns : ℕ) : List Bool :=
  tabs.take columns ++ ((List.range columns).drop tabs.length).map isInitial

end TabStops

structure Term where
  grid : Grid
  inactiveGrid : Grid
  styles : StyleTable := {}
  activeCharset : CharsetIndex := .g0
  tabs : List Bool
  mode : TermMode := {}
  scrollRegion : Region
  damage : TermDamageState
  scrollingHistory : ℕ
  pendingStyle : Option Style := none
  pendingGridScroll : Option PendingGridScroll := none
  events : List Event := []
  deriving DecidableEq, Repr

namespace Term

/-- `Term::new`. -/
def new (scrollingHistory lines columns : ℕ) : Term where
  grid := Grid.new lines columns scrollingHistory
  inactiveGrid := Grid.new lines columns 0
  tabs := TabStops.new columns
  scrollRegion := { start := 0, stop := lines }
  damage := TermDamageState.new columns lines
  scrollingHistory := scrollingHistory

def columns (t : Term) : ℕ := t.grid.columns

def screenLines (t : Term) : ℕ := t.grid.lines

def lastColumn (t : Term) : ℕ := t.grid.lastColumn

def historySize (t : Term) : ℕ := t.grid.historySize

def cursor (t : Term) : Cursor := t.grid.cursor

def setCursor (t : Term) (cursor : Cursor) : Term := { t with grid.cursor := cursor }

def setPoint (t : Term) (point : Point) : Term := t.setCursor { t.cursor with point := point }

def setColumn (t : Term) (column : ℕ) : Term := t.setPoint { t.cursor.point with column := column }

def setLine (t : Term) (line : ℤ) : Term := t.setPoint { t.cursor.point with line := line }

def setNeedsWrap (t : Term) (needed : Bool) : Term :=
  t.setCursor { t.cursor with inputNeedsWrap := needed }

def sendEvent (t : Term) (event : Event) : Term := { t with events := t.events ++ [event] }

def markFullyDamaged (t : Term) : Term := { t with damage.full := true }

/-- `self.damage.damage_line`. -/
def damageLine (t : Term) (line left right : ℕ) : Term :=
  { t with damage := t.damage.damageLine line left right }

def damageCursor (t : Term) : Term :=
  t.damageLine t.cursor.point.line.toNat t.cursor.point.column t.cursor.point.column

/-- `damage`: the report and the terminal after it, whose damage `reset_damage` clears. -/
def reportDamage (t : Term) : Term × TermDamage :=
  let t := if t.mode.insert then t.markFullyDamaged else t
  let previous := t.damage.lastCursor
  let t := { t with damage.lastCursor := t.cursor.point }
  if t.damage.full then (t, .full)
  else
    let t := if t.damage.lastCursor ≠ previous then
        t.damageLine previous.line.toNat previous.column previous.column
      else t
    let t := t.damageCursor
    let visible := t.damage.lines.take (t.damage.lines.length - t.grid.displayOffset)
    (t, .partly ((visible.filter LineDamageBounds.isDamaged).map fun bounds =>
      { bounds with line := bounds.line + t.grid.displayOffset }))

def resetDamage (t : Term) : Term := { t with damage := t.damage.reset t.columns }

/-- `i32::saturating_add`. -/
def saturatingAdd (a b : ℤ) : ℤ := max (-(2 ^ 31)) (min (2 ^ 31 - 1) (a + b))

def flushGridScroll (t : Term) : Term :=
  match t.pendingGridScroll with
  | some pending => { t with pendingGridScroll := none }.sendEvent (.vividGridScroll pending)
  | none => t

/-- Accumulate a grid scroll, delivering the pending one unless they merge. -/
def queueGridScroll (t : Term) (origin stop lines : ℤ) (historySize : ℕ) : Term :=
  let fresh := PendingGridScroll.mk origin stop lines historySize
  match t.pendingGridScroll with
  | some pending =>
      if pending.origin = origin ∧ pending.stop = stop ∧ pending.lines.sign = lines.sign then
        { t with pendingGridScroll := some { pending with
          lines := saturatingAdd pending.lines lines
          historySize := historySize } }
      else { t.flushGridScroll with pendingGridScroll := some fresh }
  | none => { t with pendingGridScroll := some fresh }

/-- Apply `f` to the visible grid. -/
def modifyGrid (t : Term) (f : Grid → Grid) : Term := { t with grid := f t.grid }

/-- Update the row at a line of the visible grid. -/
def modifyRow (t : Term) (line : ℤ) (update : Row → Row) : Term :=
  t.modifyGrid (·.modifyRow line update)

/-- Update a cell of the visible grid. -/
def modifyCell (t : Term) (point : Point) (update : Cell → Cell) : Term :=
  t.modifyGrid (·.modifyCell point update)

end Term

end Vivido.Terminal
