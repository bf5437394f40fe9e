import Vivido.Term.State

/-!
Text input, character by character: `input` and what it calls. A character in
the last column leaves a wrap pending; the next one wraps first, scrolling the
region when its last line is full. A wide character occupies two cells, and
overwriting one of them cleans up the other.
-/

namespace Vivido.Terminal

namespace Term

/-- `scroll_up_relative_resetting`: whether the line entering was left uncleared. -/
def scrollUpRelativeResetting (t : Term) (origin : ℤ) (lines : ℕ) (reset : Bool) : Term × Bool :=
  let lines := min lines (t.scrollRegion.stop - t.scrollRegion.start).toNat
  let region := Region.mk origin t.scrollRegion.stop
  let unreset := !reset && lines = 1
  let t := if unreset then t.modifyGrid (·.scrollUpUnreset region)
    else t.modifyGrid (·.scrollUp region lines)
  let t := if 0 < lines then t.queueGridScroll origin t.scrollRegion.stop lines t.historySize else t
  (t.markFullyDamaged, unreset)

def scrollUpRelative (t : Term) (origin : ℤ) (lines : ℕ) : Term :=
  (t.scrollUpRelativeResetting origin lines true).1

def scrollDownRelative (t : Term) (origin : ℤ) (lines : ℕ) : Term :=
  let lines := min lines (t.scrollRegion.stop - t.scrollRegion.start).toNat
  let lines := min lines (t.scrollRegion.stop - origin).toNat
  let region := Region.mk origin t.scrollRegion.stop
  let t := t.modifyGrid (·.scrollDown region lines)
  let t := if 0 < lines then
      t.queueGridScroll origin t.scrollRegion.stop (-(lines : ℤ)) t.historySize
    else t
  t.markFullyDamaged

def scrollUp (t : Term) (lines : ℕ) : Term := t.scrollUpRelative t.scrollRegion.start lines

def scrollDown (t : Term) (lines : ℕ) : Term := t.scrollDownRelative t.scrollRegion.start lines

def linefeed (t : Term) : Term :=
  let next := t.cursor.point.line + 1
  if next = t.scrollRegion.stop then t.scrollUp 1
  else if next < t.screenLines then
    let t := t.damageCursor
    (t.setLine (t.cursor.point.line + 1)).damageCursor
  else t

/-- Go to the next line, scrolling at the end of the region: whether the line
entering was left uncleared. -/
def nextLine (t : Term) (recycle : Bool) : Term × Bool :=
  if recycle ∧ t.cursor.point.line + 1 = t.scrollRegion.stop then
    t.scrollUpRelativeResetting t.scrollRegion.start 1 false
  else if t.scrollRegion.stop ≤ t.cursor.point.line + 1 then (t.linefeed, false)
  else
    let t := t.damageCursor
    (t.setLine (t.cursor.point.line + 1), false)

/-- `wrapline_recycling`: whether the cursor's new line was left uncleared. -/
def wraplineRecycling (t : Term) (recycle : Bool) : Term × Bool :=
  if !t.mode.lineWrap then (t, false)
  else
    let (t, recycled) := (t.modifyCell t.cursor.point (·.insertLayout .wrap)).nextLine recycle
    (((t.setColumn 0).setNeedsWrap false).damageCursor, recycled)

def wrapline (t : Term) : Term := (t.wraplineRecycling false).1

/-- Clear the other cell of the wide character at the cursor. -/
def clearOtherHalf (t : Term) : Term :=
  let point := t.cursor.point
  if (t.grid.cell point).layout.wideChar ∧ point.column < t.lastColumn then
    t.modifyCell { point with column := point.column + 1 } (·.removeLayout .spacer)
  else if 0 < point.column then
    t.modifyCell { point with column := point.column - 1 } Cell.clearWide
  else t

/-- Clear the leading spacer on the line above a wide character at the start of a line. -/
def clearLeading (t : Term) : Term :=
  let point := t.cursor.point
  if point.column ≤ 1 ∧ point.line ≠ t.grid.topmostLine then
    t.modifyCell { line := point.line - 1, column := t.lastColumn } (·.removeLayout .leading)
  else t

/-- Clear the cells related to the wide character a write will overwrite. -/
def clearWideAtCursor (t : Term) : Term :=
  let layout := (t.grid.cell t.cursor.point).layout
  if layout.wideChar || layout.wideCharSpacer then t.clearOtherHalf.clearLeading else t

/-- Carry out a pending wrap. -/
def wrapPending (t : Term) : Term := if t.cursor.inputNeedsWrap then t.wrapline else t

variable (env : Charmap)

def writeAtCursor (t : Term) (c : Char) (layout : Layout) : Term :=
  let c := env.map (t.cursor.charsets.get t.activeCharset) c
  let style := t.cursor.template.style
  let t := t.clearWideAtCursor
  t.modifyCell t.cursor.point (·.write c style layout)

/-- Append combining characters to the cell at `point`. -/
def pushZerowidths (t : Term) (point : Point) (chars : List Char) : Term :=
  t.modifyRow point.line
    (·.updateExtra point.column fun extra => { extra with zerowidth := extra.zerowidth ++ chars })

/-- The cell a combining character goes over. -/
def zerowidthPoint (t : Term) : Point :=
  let point := t.cursor.point
  let column := if t.cursor.inputNeedsWrap then point.column else point.column - 1
  if (t.grid.cell { point with column := column }).layout.wideCharSpacer then
    { point with column := column - 1 }
  else { point with column := column }

/-- In insert mode, shift the cells from the cursor on by `width`. -/
def shiftCells (t : Term) (width : ℕ) : Term :=
  let point := t.cursor.point
  if t.mode.insert ∧ point.column + width < t.columns then
    t.modifyRow point.line (·.swapCells
      (((List.range (t.columns - width)).drop point.column).reverse.map fun column =>
        (column + width, column)))
  else t

/-- After a write, move the cursor or note the pending wrap. -/
def advanceCursor (t : Term) : Term :=
  if t.cursor.point.column + 1 < t.columns then t.setColumn (t.cursor.point.column + 1)
  else t.setNeedsWrap true

/-- Write a wide character's two cells. -/
def writeWide (t : Term) (c : Char) : Term :=
  let t := t.writeAtCursor env c .wide
  let t := t.setColumn (t.cursor.point.column + 1)
  (t.writeAtCursor env ' ' .spacer).advanceCursor

/-- Write a character at the cursor, wrapping once more when it is too wide. -/
def printAt (t : Term) (c : Char) (width : ℕ) : Term :=
  if width = 1 then (t.writeAtCursor env c .empty).advanceCursor
  else if t.columns ≤ t.cursor.point.column + 1 then
    if t.mode.lineWrap then
      -- A wide character does not fit in this row.
      (t.writeAtCursor env ' ' .leading).wrapline.writeWide env c
    else t.setNeedsWrap true
  else t.writeWide env c

/-- `input`: display a character. -/
def input (t : Term) (c : Char) : Term :=
  match env.width c with
  | none => t
  | some width =>
      if width = 0 then t.pushZerowidths t.zerowidthPoint [c]
      else (t.wrapPending.shiftCells width).printAt env c width

end Term

end Vivido.Terminal
