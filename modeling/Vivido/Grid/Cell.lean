import Mathlib.Algebra.Group.Nat.Defs

/-!
Terminal cells. The source packs a cell into one word: a character, the layout
flags, a style id and an extra id, each read and written on its own. Here they
are the fields of a record; `setExtraId` keeps the packed form's bound on the
extra id, and `setExtra` is the unbounded setter of the unpacked cell that
resizing works on.
-/

namespace Vivido.Terminal

/-- A reference into the style table, with the cached `shows_on_blank` bit. -/
structure StyleId where
  index : ℕ := 0
  showsOnBlank : Bool := false
  deriving DecidableEq, Repr, Inhabited

/-- The layout flags of a cell. -/
structure Layout where
  wrapline : Bool := false
  wideChar : Bool := false
  wideCharSpacer : Bool := false
  leadingWideCharSpacer : Bool := false
  deriving DecidableEq, Repr, Inhabited

namespace Layout

/-- `Flags::empty()`. -/
def empty : Layout := {}

/-- `Flags::WRAPLINE`. -/
def wrap : Layout := { wrapline := true }

/-- `Flags::WIDE_CHAR`. -/
def wide : Layout := { wideChar := true }

/-- `Flags::WIDE_CHAR_SPACER`. -/
def spacer : Layout := { wideCharSpacer := true }

/-- `Flags::LEADING_WIDE_CHAR_SPACER`. -/
def leading : Layout := { leadingWideCharSpacer := true }

def insert (flags more : Layout) : Layout where
  wrapline := flags.wrapline || more.wrapline
  wideChar := flags.wideChar || more.wideChar
  wideCharSpacer := flags.wideCharSpacer || more.wideCharSpacer
  leadingWideCharSpacer := flags.leadingWideCharSpacer || more.leadingWideCharSpacer

def remove (flags less : Layout) : Layout where
  wrapline := flags.wrapline && !less.wrapline
  wideChar := flags.wideChar && !less.wideChar
  wideCharSpacer := flags.wideCharSpacer && !less.wideCharSpacer
  leadingWideCharSpacer := flags.leadingWideCharSpacer && !less.leadingWideCharSpacer

end Layout

/-- A cell's reference to an entry of its row's extras: one more than the
entry's position, or zero, and whether the entry has combining characters. -/
structure ExtraId where
  number : ℕ := 0
  hasZerowidth : Bool := false
  deriving DecidableEq, Repr, Inhabited

/-- `ExtraId::NONE`. -/
def ExtraId.none : ExtraId := {}

/-- Entry numbers a packed cell can hold are below this. -/
def packedNumbers : ℕ := 2 ^ 13

/-- `ExtraId::PACKED_CAPACITY`. -/
def packedCapacity : ℕ := packedNumbers - 1

structure Cell where
  c : Char := ' '
  style : StyleId := {}
  layout : Layout := {}
  extra : ExtraId := {}
  deriving DecidableEq, Repr

instance : Inhabited Cell := ⟨{}⟩

namespace Cell

def setC (cell : Cell) (c : Char) : Cell := { cell with c := c }

def setStyle (cell : Cell) (style : StyleId) : Cell := { cell with style := style }

def insertLayout (cell : Cell) (flags : Layout) : Cell :=
  { cell with layout := cell.layout.insert flags }

def removeLayout (cell : Cell) (flags : Layout) : Cell :=
  { cell with layout := cell.layout.remove flags }

def hasExtra (cell : Cell) : Bool := cell.extra != ExtraId.none

/-- Point a packed cell at an entry; a number it cannot hold drops the content. -/
def setExtraId (cell : Cell) (extra : ExtraId) : Cell :=
  { cell with extra := if extra.number < packedNumbers then extra else ExtraId.none }

/-- Point an unpacked cell at an entry. -/
def setExtra (cell : Cell) (extra : ExtraId) : Cell := { cell with extra := extra }

/-- Replace the whole cell. -/
def write (_cell : Cell) (c : Char) (style : StyleId) (layout : Layout) : Cell :=
  { c := c, style := style, layout := layout, extra := ExtraId.none }

/-- Remove all wide char data from a cell. -/
def clearWide (cell : Cell) : Cell :=
  { cell.removeLayout .wide with extra := ExtraId.none, c := ' ' }

/-- A print may overwrite the cell outright. -/
def isSimple (cell : Cell) : Bool :=
  !cell.hasExtra && !(cell.layout.wideChar || cell.layout.wideCharSpacer ||
    cell.layout.leadingWideCharSpacer)

/-- `GridCell::is_empty`: the cell shows nothing. -/
def isEmpty (cell : Cell) : Bool :=
  (cell.c == ' ' || cell.c == '\t') && !cell.style.showsOnBlank &&
    !(cell.layout.wrapline || cell.layout.wideCharSpacer ||
      cell.layout.leadingWideCharSpacer) && !cell.hasExtra

/-- `GridCell::reset`: a blank cell in the template's style. -/
def reset (_cell template : Cell) : Cell := { c := ' ', style := template.style }

end Cell

def blank (style : StyleId) : Cell := { c := ' ', style := style }

@[simp] theorem Cell.reset_eq (cell template : Cell) : cell.reset template = blank template.style :=
  rfl

end Vivido.Terminal
