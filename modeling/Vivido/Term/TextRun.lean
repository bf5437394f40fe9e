import Vivido.Term.Text

/-!
Text input by runs: `input_str` fills a segment of a row at once where plain
characters go over plain cells, and falls back to `input` elsewhere. After a
wrap that scrolls, the fill also resets the row it enters. Text is the list of
its characters; a text is ASCII when each of them is.
-/

namespace Vivido.Terminal

/-- One cell at a time: write while the character is printable and the cell may
be overwritten. The cells after it, and how many were written. -/
def fillEach (fresh : Bool) (style : StyleId) : List Cell → List Char → List Cell × ℕ
  | cell :: cells, c :: chars =>
      if 0x20 ≤ c.toNat ∧ c.toNat < 0x7F ∧ (fresh ∨ cell.isSimple) then
        let (cells, written) := fillEach fresh style cells chars
        (cell.write c style .empty :: cells, written + 1)
      else (cell :: cells, 0)
  | cells, _ => (cells, 0)

/-- Eight cells at a time, for the given number of groups, and the rest one by one. -/
def fillGroups (fresh : Bool) (style : StyleId) : ℕ → List Cell → List Char → List Cell × ℕ
  | 0, cells, chars => fillEach fresh style cells chars
  | groups + 1, cells, chars =>
      if (fresh || (cells.take 8).all Cell.isSimple) ∧
          (chars.take 8).all (fun c => 0x20 ≤ c.toNat && c.toNat < 0x7F) then
        let (rest, written) := fillGroups fresh style groups (cells.drop 8) (chars.drop 8)
        ((cells.take 8).zipWith (fun cell c => cell.write c style .empty) (chars.take 8) ++ rest,
          written + 8)
      else fillEach fresh style cells chars

/-- `fill_ascii`. -/
def fillAscii (fresh : Bool) (style : StyleId) (cells : List Cell) (chars : List Char) :
    List Cell × ℕ :=
  let len := min cells.length chars.length
  let (written, count) := fillGroups fresh style (len / 8) (cells.take len) (chars.take len)
  (written ++ cells.drop len, count)

/-- `fill_ideographs`: the cells written, the cells left and the characters left. The
source reads each character from its three bytes. -/
def fillIdeographs (fresh : Bool) (style : StyleId) :
    List Cell → List Char → List Cell × List Cell × List Char
  | first :: second :: cells, c :: chars =>
      if 0x4E00 ≤ c.toNat ∧ c.toNat ≤ 0x9FFF ∧ (fresh ∨ first.isSimple ∧ second.isSimple) then
        let (written, cells, chars) := fillIdeographs fresh style cells chars
        (first.write c style .wide :: second.write ' ' style .spacer :: written, cells, chars)
      else ([], first :: second :: cells, c :: chars)
  | cells, chars => ([], cells, chars)

/-- `char_width`. -/
def charWidth (env : Charmap) (c : Char) : Option ℕ :=
  if 0x20 ≤ c.toNat ∧ c.toNat ≤ 0x7E then some 1
  else if 0x4E00 ≤ c.toNat ∧ c.toNat ≤ 0x9FFF then some 2
  else env.width c

/-- The cells a character of the given width occupies. -/
def runCells (width : ℕ) (c : Char) (style : StyleId) : List Cell :=
  if width = 1 then [{ c := c, style := style }]
  else [{ c := c, style := style, layout := .wide },
    { c := ' ', style := style, layout := .spacer }]

/-- The loop of `fill_chars`; each round but the last takes a character. -/
def fillCharsLoop (env : Charmap) (fresh : Bool) (width : ℕ) (style : StyleId) :
    ℕ → List Cell → List Char → List Cell × List Cell × List Char
  | 0, cells, chars => ([], cells, chars)
  | fuel + 1, cells, chars =>
      if cells.length < width then ([], cells, chars)
      else
        let (front, cells, chars) := if width = 2 then fillIdeographs fresh style cells chars
          else ([], cells, chars)
        if cells.length < width then (front, cells, chars)
        else
          match chars with
          | [] => (front, cells, [])
          | c :: rest =>
              if charWidth env c = some width ∧
                  (fresh ∨ (cells.take width).all Cell.isSimple) then
                let (more, cells, chars) := fillCharsLoop env fresh width style fuel
                  (cells.drop width) rest
                (front ++ runCells width c style ++ more, cells, chars)
              else (front, cells, c :: rest)

/-- `fill_chars`: the cells after it, how many were written and the characters left. -/
def fillChars (env : Charmap) (fresh : Bool) (width : ℕ) (style : StyleId) (cells : List Cell)
    (chars : List Char) : List Cell × ℕ × List Char :=
  let (written, cells, chars) := fillCharsLoop env fresh width style (chars.length + 1) cells chars
  (written ++ cells, written.length, chars)

namespace Term

/-- Text goes through `input` character by character in these modes. -/
def printsPlainly (t : Term) : Bool :=
  t.cursor.charsets.get t.activeCharset != .ascii || t.mode.insert || !t.mode.lineWrap

/-- The cursor after a run that ends at column `stop`. -/
def finishRun (t : Term) (stop : ℕ) : Term :=
  (t.setNeedsWrap (stop = t.columns)).setColumn (min stop (t.columns - 1))

/-- Let `fill` write cells from the cursor on, no more than `count`, resetting the row
as well when it was left uncleared. -/
def fillAt {τ : Type*} (t : Term) (recycled : Bool) (count : ℕ → ℕ)
    (fill : Bool → List Cell → List Cell × ℕ × τ) : Term × ℕ × τ :=
  let point := t.cursor.point
  let len := count (t.columns - point.column)
  let row := t.grid.row point.line
  let (row, written, more) :=
    if recycled then row.resetWithPrefix t.cursor.erase len (fill true)
    else row.writePrefix point.column len (fill false)
  (t.modifyRow point.line fun _ => row, written, more)

/-- A row fill, wrapping first when a wrap is pending: the terminal, the cells written
and what `fill` computed. -/
def fillRow {τ : Type*} (t : Term) (count : ℕ → ℕ) (fill : Bool → List Cell → List Cell × ℕ × τ) :
    Term × ℕ × τ :=
  let (t, recycled) := if t.cursor.inputNeedsWrap then t.wraplineRecycling true else (t, false)
  t.fillAt recycled count fill

variable (env : Charmap)

/-- The loop of `write_ascii_run`; each round takes at least one character. -/
def asciiLoop : ℕ → Term → List Char → Term
  | 0, t, _ => t
  | _, t, [] => t
  | fuel + 1, t, first :: rest =>
      if ¬(0x20 ≤ first.toNat ∧ first.toNat < 0x7F) then asciiLoop fuel (t.input env first) rest
      else
        let style := t.cursor.template.style
        let (t, written, _) := t.fillRow (min · (first :: rest).length) fun fresh cells =>
          let (cells, written) := fillAscii fresh style cells (first :: rest)
          (cells, written, ())
        if written = 0 then asciiLoop fuel (t.input env first) rest
        else asciiLoop fuel (t.finishRun (t.cursor.point.column + written))
          ((first :: rest).drop written)

/-- `write_ascii_run`. -/
def writeAsciiRun (t : Term) (chars : List Char) : Term :=
  if t.printsPlainly then chars.foldl (input env) t else asciiLoop env chars.length t chars

/-- The loop of `write_text_run`; each round takes at least one character. -/
def textLoop : ℕ → Term → List Char → Term
  | 0, t, _ => t
  | _, t, [] => t
  | fuel + 1, t, first :: rest =>
      match charWidth env first with
      | some 0 =>
          let marks := (first :: rest).takeWhile (charWidth env · = some 0)
          textLoop fuel (t.pushZerowidths t.zerowidthPoint marks)
            ((first :: rest).drop marks.length)
      | some width =>
          if width = 1 ∨ width = 2 then
            let style := t.cursor.template.style
            let (t, written, left) := t.fillRow id fun fresh cells =>
              fillChars env fresh width style cells (first :: rest)
            if written = 0 then textLoop fuel (t.input env first) rest
            else textLoop fuel (t.finishRun (t.cursor.point.column + written)) left
          else textLoop fuel (t.input env first) rest
      | none => textLoop fuel (t.input env first) rest

/-- `write_text_run`. -/
def writeTextRun (t : Term) (chars : List Char) : Term :=
  if t.printsPlainly then chars.foldl (input env) t else textLoop env chars.length t chars

/-- `input_str`. -/
def inputStr (t : Term) (chars : List Char) : Term :=
  if chars.all (fun c => c.toNat < 0x80) then
    match chars with
    | [c] => t.input env c
    | chars => t.writeAsciiRun env chars
  else t.writeTextRun env chars

/-- Write `count` copies of a character in chunks of at most `size`; each round writes one. -/
def repeatChunks (write : Term → List Char → Term) (c : Char) (size : ℕ) : ℕ → ℕ → Term → Term
  | 0, _, t => t
  | fuel + 1, left, t =>
      if left = 0 then t
      else repeatChunks write c size fuel (left - min left size)
        (write t (List.replicate (min left size) c))

/-- `CHUNK`. -/
def chunkSize : ℕ := 256

/-- `repeat_char`. -/
def repeatChar (t : Term) (c : Char) (count : ℕ) : Term :=
  if 0x20 ≤ c.toNat ∧ c.toNat ≤ 0x7E then
    repeatChunks (writeAsciiRun env) c chunkSize count count t
  else repeatChunks (inputStr env) c (chunkSize / c.utf8Size) count count t

end Term

end Vivido.Terminal
