import Vivido.Grid.Cell

/-!
Styles and the table that cells refer to them through. Interning a style gives
the id of an equal one already in the table or adds it. A sweep keeps the styles
some cell still refers to and renumbers them.
-/

namespace Vivido.Terminal

inductive NamedColor where
  | foreground
  | background
  | other (index : ℕ)
  deriving DecidableEq, Repr

inductive Color where
  | named (name : NamedColor)
  | spec (r g b : ℕ)
  | indexed (index : ℕ)
  deriving DecidableEq, Repr

/-- The styling attributes of `Flags`. -/
structure Attrs where
  inverse : Bool := false
  bold : Bool := false
  italic : Bool := false
  underline : Bool := false
  dim : Bool := false
  hidden : Bool := false
  strikeout : Bool := false
  doubleUnderline : Bool := false
  undercurl : Bool := false
  dottedUnderline : Bool := false
  dashedUnderline : Bool := false
  deriving DecidableEq, Repr

structure Hyperlink where
  id : String
  uri : String
  deriving DecidableEq, Repr

structure Style where
  fg : Color := .named .foreground
  bg : Color := .named .background
  attrs : Attrs := {}
  underlineColor : Option Color := none
  hyperlink : Option Hyperlink := none
  deriving DecidableEq, Repr

instance : Inhabited Style := ⟨{}⟩

namespace Attrs

/-- `Flags::ALL_UNDERLINES`. -/
def anyUnderline (attrs : Attrs) : Bool :=
  attrs.underline || attrs.doubleUnderline || attrs.undercurl || attrs.dottedUnderline ||
    attrs.dashedUnderline

def clearUnderlines (attrs : Attrs) : Attrs :=
  { attrs with
    underline := false
    doubleUnderline := false
    undercurl := false
    dottedUnderline := false
    dashedUnderline := false }

end Attrs

/-- Whether a blank cell drawn in the style looks different from an unstyled one. -/
def Style.showsOnBlank (style : Style) : Bool :=
  style.bg != .named .background || style.fg != .named .foreground ||
    (style.attrs.inverse || style.attrs.anyUnderline || style.attrs.strikeout)

/-- `StyleId::CAPACITY`. -/
def styleCapacity : ℕ := 2 ^ 24

/-- `SWEEP_FLOOR`: table sizes below which a sweep is never worth its scan. -/
def sweepFloor : ℕ := 4096

/-- `StyleId::new`. -/
def StyleId.ofStyle (index : ℕ) (style : Style) : StyleId :=
  { index := index, showsOnBlank := style.showsOnBlank }

structure StyleTable where
  styles : List Style := [{}]
  live : ℕ := 1
  deriving DecidableEq, Repr

namespace StyleTable

def get (table : StyleTable) (id : StyleId) : Style := table.styles.getD id.index {}

/-- The id of an equal style, or of `style` added to the table; a full table
draws new styles with the default one. -/
def intern (table : StyleTable) (style : Style) : StyleTable × StyleId :=
  match table.styles.findIdx? (· = style) with
  | some index => (table, StyleId.ofStyle index style)
  | none =>
      if styleCapacity ≤ table.styles.length then (table, {})
      else ({ table with styles := table.styles ++ [style] },
        StyleId.ofStyle table.styles.length style)

/-- Enough styles were added since the last sweep to make another worthwhile. -/
def needsSweep (table : StyleTable) (cells : ℕ) : Bool :=
  max (max sweepFloor (table.live * 2)) (cells / 4) < table.styles.length

/-- The marks of a sweep: the default style and the ids in use. -/
def marks (table : StyleTable) (ids : List StyleId) : List Bool :=
  ids.foldl (fun used id => used.set id.index true)
    ((List.replicate table.styles.length false).set 0 true)

/-- One style of `compact`: kept and renumbered, or dropped. -/
def compactStep (state : List Style × List StyleId) (entry : Style × Bool) :
    List Style × List StyleId :=
  let (styles, remap) := state
  if entry.2 then (styles ++ [entry.1], remap ++ [StyleId.ofStyle styles.length entry.1])
  else (styles, remap ++ [{}])

/-- Drop every style that is not marked; the new id of each old index. -/
def compact (table : StyleTable) (used : List Bool) : StyleTable × List StyleId :=
  let (styles, remap) := (table.styles.zip used).foldl compactStep ([], [])
  ({ styles := styles, live := styles.length }, remap)

end StyleTable

/-- `StyleRemap::get`. -/
def remapStyle (remap : List StyleId) (id : StyleId) : StyleId := remap.getD id.index {}

inductive Attr where
  | foreground (color : Color)
  | background (color : Color)
  | underlineColor (color : Option Color)
  | reset
  | reverse
  | cancelReverse
  | bold
  | cancelBold
  | dim
  | cancelBoldDim
  | italic
  | cancelItalic
  | underline
  | doubleUnderline
  | undercurl
  | dottedUnderline
  | dashedUnderline
  | cancelUnderline
  | hidden
  | cancelHidden
  | strike
  | cancelStrike
  | unhandled
  deriving DecidableEq, Repr

/-- The change an SGR attribute makes to the template style. -/
def Attr.apply (attr : Attr) (style : Style) : Style :=
  match attr with
  | .foreground color => { style with fg := color }
  | .background color => { style with bg := color }
  | .underlineColor color => { style with underlineColor := color }
  | .reset => { hyperlink := style.hyperlink }
  | .reverse => { style with attrs.inverse := true }
  | .cancelReverse => { style with attrs.inverse := false }
  | .bold => { style with attrs.bold := true }
  | .cancelBold => { style with attrs.bold := false }
  | .dim => { style with attrs.dim := true }
  | .cancelBoldDim => { style with attrs := { style.attrs with bold := false, dim := false } }
  | .italic => { style with attrs.italic := true }
  | .cancelItalic => { style with attrs.italic := false }
  | .underline => { style with attrs := { style.attrs.clearUnderlines with underline := true } }
  | .doubleUnderline =>
      { style with attrs := { style.attrs.clearUnderlines with doubleUnderline := true } }
  | .undercurl => { style with attrs := { style.attrs.clearUnderlines with undercurl := true } }
  | .dottedUnderline =>
      { style with attrs := { style.attrs.clearUnderlines with dottedUnderline := true } }
  | .dashedUnderline =>
      { style with attrs := { style.attrs.clearUnderlines with dashedUnderline := true } }
  | .cancelUnderline => { style with attrs := style.attrs.clearUnderlines }
  | .hidden => { style with attrs.hidden := true }
  | .cancelHidden => { style with attrs.hidden := false }
  | .strike => { style with attrs.strikeout := true }
  | .cancelStrike => { style with attrs.strikeout := false }
  | .unhandled => style

end Vivido.Terminal
