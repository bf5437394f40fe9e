import Vivido.Term.Handler
import Vivido.Term.TextRun

/-!
The operations of a terminal as data, one step for each, and the runs from a
fresh terminal. A step is undefined only when a resize does not end.
-/

namespace Vivido.Terminal

inductive Op where
  | input (c : Char)
  | inputStr (text : List Char)
  | repeatChar (c : Char) (count : ℕ)
  | decaln
  | goto (line : ℤ) (column : ℕ)
  | gotoLine (line : ℤ)
  | gotoCol (column : ℕ)
  | insertBlank (count : ℕ)
  | moveUp (lines : ℕ)
  | moveDown (lines : ℕ)
  | moveForward (columns : ℕ)
  | moveBackward (columns : ℕ)
  | moveDownAndCr (lines : ℕ)
  | moveUpAndCr (lines : ℕ)
  | putTab (count : ℕ)
  | backspace
  | carriageReturn
  | linefeed
  | newline
  | setHorizontalTabstop
  | scrollUp (lines : ℕ)
  | scrollDown (lines : ℕ)
  | insertBlankLines (lines : ℕ)
  | deleteLines (lines : ℕ)
  | eraseChars (count : ℕ)
  | deleteChars (count : ℕ)
  | moveBackwardTabs (count : ℕ)
  | moveForwardTabs (count : ℕ)
  | saveCursorPosition
  | restoreCursorPosition
  | clearLine (mode : LineClearMode)
  | clearScreen (mode : ClearMode)
  | clearTabs (mode : TabulationClearMode)
  | resetState
  | resetClientState
  | reverseIndex
  | setHyperlink (hyperlink : Option Hyperlink)
  | startAttributes
  | finishAttributes
  | terminalAttribute (attr : Attr)
  | setPrivateMode (mode : PrivateMode)
  | unsetPrivateMode (mode : PrivateMode)
  | setMode (mode : Mode)
  | unsetMode (mode : Mode)
  | setScrollingRegion (top : ℕ) (bottom : Option ℕ)
  | configureCharset (index : CharsetIndex) (charset : StandardCharset)
  | setActiveCharset (index : CharsetIndex)
  | swapAlt
  | advancePastImage (columns rows : ℕ)
  | scrollDisplay (scroll : Scroll)
  | scrollToPoint (point : Point)
  | clearBuffer
  | setOptions (scrollingHistory : ℕ)
  | flushGridScroll
  | damage
  | resetDamage
  | resize (lines columns : ℕ)
  deriving DecidableEq, Repr

namespace Term

variable (env : Charmap)

/-- The terminal after an operation other than a resize. -/
def apply (t : Term) : Op → Term
  | .input c => t.input env c
  | .inputStr text => t.inputStr env text
  | .repeatChar c count => t.repeatChar env c count
  | .decaln => t.decaln
  | .goto line column => t.goto line column
  | .gotoLine line => t.gotoLine line
  | .gotoCol column => t.gotoCol column
  | .insertBlank count => t.insertBlank count
  | .moveUp lines => t.moveUp lines
  | .moveDown lines => t.moveDown lines
  | .moveForward columns => t.moveForward columns
  | .moveBackward columns => t.moveBackward columns
  | .moveDownAndCr lines => t.moveDownAndCr lines
  | .moveUpAndCr lines => t.moveUpAndCr lines
  | .putTab count => t.putTab env count
  | .backspace => t.backspace
  | .carriageReturn => t.carriageReturn
  | .linefeed => t.linefeed
  | .newline => t.newline
  | .setHorizontalTabstop => t.setHorizontalTabstop
  | .scrollUp lines => t.scrollUp lines
  | .scrollDown lines => t.scrollDown lines
  | .insertBlankLines lines => t.insertBlankLines lines
  | .deleteLines lines => t.deleteLines lines
  | .eraseChars count => t.eraseChars count
  | .deleteChars count => t.deleteChars count
  | .moveBackwardTabs count => t.moveBackwardTabs count
  | .moveForwardTabs count => t.moveForwardTabs count
  | .saveCursorPosition => t.saveCursorPosition
  | .restoreCursorPosition => t.restoreCursorPosition
  | .clearLine mode => t.clearLine mode
  | .clearScreen mode => t.clearScreen mode
  | .clearTabs mode => t.clearTabs mode
  | .resetState => t.resetState
  | .resetClientState => t.resetClientState
  | .reverseIndex => t.reverseIndex
  | .setHyperlink hyperlink => t.setHyperlink hyperlink
  | .startAttributes => t.startAttributes
  | .finishAttributes => t.finishAttributes
  | .terminalAttribute attr => t.terminalAttribute attr
  | .setPrivateMode mode => t.setPrivateMode mode
  | .unsetPrivateMode mode => t.unsetPrivateMode mode
  | .setMode mode => t.setMode mode
  | .unsetMode mode => t.unsetMode mode
  | .setScrollingRegion top bottom => t.setScrollingRegion top bottom
  | .configureCharset index charset => t.configureCharset index charset
  | .setActiveCharset index => t.setActiveCharset index
  | .swapAlt => t.swapAlt
  | .advancePastImage columns rows => t.advancePastImage columns rows
  | .scrollDisplay scroll => t.scrollDisplay scroll
  | .scrollToPoint point => t.scrollToPoint point
  | .clearBuffer => t.clearBuffer
  | .setOptions scrollingHistory => t.setOptions scrollingHistory
  | .flushGridScroll => t.flushGridScroll
  | .damage => t.reportDamage.1
  | .resetDamage => t.resetDamage
  | .resize _ _ => t

/-- The terminal after an operation. -/
def step (t : Term) : Op → Option Term
  | .resize lines columns => t.resize lines columns
  | op => some (t.apply env op)

/-- The terminal after a sequence of operations. -/
def run (t : Term) (ops : List Op) : Option Term := ops.foldlM (step env) t

end Term

end Vivido.Terminal
