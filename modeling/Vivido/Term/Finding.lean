import Vivido.Support.SelfSync
import Vivido.Term.State

/-!
Text of the viewport and where it stands. A row's text is that of its cells, the
second halves of wide characters and the cells a tab skips left out, and each cell
owns the bytes it contributed. A pattern is looked for in the trimmed text of each
row; the bytes of a match lead back to the cells that it covers.
-/

namespace Vivido.Terminal

/-- `char::is_whitespace`. -/
def isWhitespace (c : Char) : Bool :=
  let n := c.toNat
  (0x9 ≤ n && n ≤ 0xD) || n = 0x20 || n = 0x85 || n = 0xA0 || n = 0x1680 ||
    (0x2000 ≤ n && n ≤ 0x200A) || n = 0x2028 || n = 0x2029 || n = 0x202F || n = 0x205F ||
    n = 0x3000

/-- `str::trim_end`. -/
def trimText (text : List Char) : List Char := (text.reverse.dropWhile isWhitespace).reverse

/-- `line_length`. -/
def Row.lineLength (row : Row) : ℕ :=
  if (row.get (row.len - 1)).layout.wrapline then row.len
  else row.len -
    (row.inner.reverse.takeWhile fun cell => cell.c = ' ' && !cell.extra.hasZerowidth).length

/-- The bytes of a row's text that a cell produced. -/
structure RowTextSpan where
  start : ℕ
  stop : ℕ
  col : ℕ
  width : ℕ
  deriving DecidableEq, Repr

/-- A match on a row of the viewport, with the first and the last column it covers. -/
structure ViewportTextMatch where
  row : ℕ
  colStart : ℕ
  colEnd : ℕ
  text : List Char
  deriving DecidableEq, Repr

/-- The matches of a compiled pattern: `Regex::find_iter`. -/
abbrev FindIter := List UInt8 → List (ℕ × ℕ)

inductive RowMatcher where
  | literal (needle : List UInt8)
  | regex (findIter : FindIter)

namespace RowMatcher

/-- `RowMatcher::new`; `compile` reads a pattern as UTF-8 and compiles it. -/
def new (compile : List UInt8 → Option FindIter) (needle : List UInt8) (regex : Bool) :
    Option RowMatcher :=
  if regex then (compile needle).map .regex else some (.literal needle)

/-- `windows(needle.len()).position`. -/
def position (needle hay : List UInt8) : Option ℕ :=
  (List.range (hay.length + 1 - needle.length)).find? fun i =>
    (hay.drop i).take needle.length = needle

/-- The loop of `find_all`. -/
def findLiteral (needle hay : List UInt8) : ℕ → ℕ → List (ℕ × ℕ)
  | 0, _ => []
  | fuel + 1, start =>
      if start + needle.length ≤ hay.length then
        match position needle (hay.drop start) with
        | none => []
        | some relative =>
            let found := start + relative
            (found, found + needle.length) :: findLiteral needle hay fuel (found + needle.length)
      else []

/-- `find_all`. -/
def findAll (matcher : RowMatcher) (hay : List UInt8) : List (ℕ × ℕ) :=
  match matcher with
  | literal needle => findLiteral needle hay (hay.length + 1) 0
  | regex findIter => findIter hay

end RowMatcher

/-- `span_at`. -/
def spanAt (spans : List RowTextSpan) (offset : ℕ) : Option RowTextSpan :=
  let count := (spans.takeWhile (·.start ≤ offset)).length
  if count = 0 then none else spans[count - 1]?.filter (offset < ·.stop)

/-- The number of characters before a byte of a text, if one begins there. -/
def charIndex (text : List Char) (offset : ℕ) : Option ℕ :=
  (List.range (text.length + 1)).find? fun i => (utf8 (text.take i)).length = offset

/-- `text[start..end]`, which panics within a character. -/
def sliceText (text : List Char) (start stop : ℕ) : Option (List Char) :=
  (charIndex text start).bind fun first =>
    (charIndex text stop).map fun last => (text.take last).drop first

/-- What the loop over a line's cells has come to. -/
structure LineText where
  text : List Char := []
  spans : List RowTextSpan := []
  tabMode : Bool := false
  deriving DecidableEq, Repr

def Row.cellText (row : Row) (column : ℕ) : List Char :=
  (row.get column).c :: (row.zerowidth (row.get column)).getD []

/-- One cell of a line. -/
def lineStep (tabs : List Bool) (row : Row) (state : LineText) (column : ℕ) : LineText :=
  let cell := row.get column
  -- Blank cells after a tab are skipped up to the next tab stop.
  if state.tabMode && !(tabs.getD column false || cell.c ≠ ' ') then state
  else if cell.layout.wideCharSpacer || cell.layout.leadingWideCharSpacer then
    { state with tabMode := cell.c = '\t' }
  else
    let text := state.text ++ row.cellText column
    { text := text
      spans := state.spans ++
        [{ start := (utf8 state.text).length
           stop := (utf8 text).length
           col := column
           width := if cell.layout.wideChar then 2 else 1 }]
      tabMode := cell.c = '\t' }

namespace Term

/-- `line_to_string_with_spans` of the columns from `start` to `stop`. -/
def lineToStringWithSpans (t : Term) (line : ℤ) (start stop : ℕ) (includeWrappedWide : Bool) :
    List Char × List RowTextSpan :=
  let row := t.grid.row line
  let lineLength := min row.lineLength (stop + 1)
  -- In the first column the subtraction wraps around.
  let start :=
    if (row.get start).layout.wideCharSpacer then (start + (2 ^ 64 - 1)) % 2 ^ 64 else start
  let state := ((List.range lineLength).drop start).foldl (lineStep t.tabs row) {}
  let wraps := lineLength ≠ 0 && (row.get (lineLength - 1)).layout.wrapline
  let text := if t.columns - 1 ≤ stop ∧ !wraps then state.text ++ ['\n'] else state.text
  let text :=
    if lineLength = t.columns ∧ 2 ≤ lineLength ∧
        (row.get (lineLength - 1)).layout.leadingWideCharSpacer ∧ includeWrappedWide then
      text ++ [((t.grid.row (line - 1)).get 0).c]
    else text
  (text, state.spans)

/-- `line_to_string`. -/
def lineToString (t : Term) (line : ℤ) (start stop : ℕ) (includeWrappedWide : Bool) : List Char :=
  (t.lineToStringWithSpans line start stop includeWrappedWide).1

/-- The matches of one row, added to those found, and whether they are enough; nothing on a panic. -/
def findInRow (spans : List RowTextSpan) (row : List Char) (viewportRow maxMatches : ℕ) :
    List (ℕ × ℕ) → List ViewportTextMatch → Option (Bool × List ViewportTextMatch)
  | [], found => some (false, found)
  | (start, stop) :: ranges, found =>
      if start = stop then findInRow spans row viewportRow maxMatches ranges found
      else
        match spanAt spans start, if stop = 0 then none else spanAt spans (stop - 1) with
        | some first, some last =>
            match sliceText row start stop with
            | none => none
            | some text =>
                let found := found ++
                  [{ row := viewportRow
                     colStart := first.col
                     colEnd := max first.col (last.col + last.width - 1)
                     text := text }]
                if maxMatches ≤ found.length then some (true, found)
                else findInRow spans row viewportRow maxMatches ranges found
        -- A match outside of the spans is left out.
        | _, _ => findInRow spans row viewportRow maxMatches ranges found

/-- The line that a row of the viewport shows. -/
def viewportLine (t : Term) (viewportRow : ℕ) : ℤ := -(t.grid.displayOffset : ℤ) + viewportRow

/-- The loop over the rows of the viewport. -/
def findInRows (t : Term) (matcher : RowMatcher) (maxMatches : ℕ) :
    List ℕ → List ViewportTextMatch → Option (List ViewportTextMatch)
  | [], found => some found
  | viewportRow :: rows, found =>
      let (full, spans) :=
        t.lineToStringWithSpans (t.viewportLine viewportRow) 0 t.lastColumn false
      let row := trimText full
      if row = [] ∨ spans = [] then findInRows t matcher maxMatches rows found
      else
        match findInRow spans row viewportRow maxMatches (matcher.findAll (utf8 row)) found with
        | none => none
        | some (true, found) => some found
        | some (false, found) => findInRows t matcher maxMatches rows found

/-- `find_viewport_text`; nothing on a panic. -/
def findViewportText (t : Term) (compile : List UInt8 → Option FindIter) (needle : List UInt8)
    (regex : Bool) (maxMatches : ℕ) : Option (List ViewportTextMatch) :=
  if needle = [] ∨ maxMatches = 0 then some []
  else
    match RowMatcher.new compile needle regex with
    | none => some []
    | some matcher => t.findInRows matcher maxMatches (List.range t.screenLines) []

end Term

end Vivido.Terminal
