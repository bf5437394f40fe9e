import Mathlib.Data.List.Basic
import Mathlib.Data.Nat.Notation

/-!
The fragment-safe DCS scanner in front of the parser. `push` is the scan loop
over one read; `feed` runs it over successive reads. The scan loop works on
runs of bytes, so the proofs compare it with a machine that takes one byte at
a time: every iteration of the loop is a nonempty run of that machine, which
makes the result independent of how the stream is cut.
-/

namespace Vivido.Dcs

/-- `DCS_MAX_BYTES`: the longest body the scanner retains. -/
def dcsMaxBytes : ℕ := 4096

/-- `ESC`. -/
def esc : UInt8 := 0x1b

/-- `P`, which opens a DCS after `ESC`. -/
def dcsByte : UInt8 := 0x50

/-- The backslash that closes a DCS after `ESC`. -/
def stByte : UInt8 := 0x5c

inductive DcsState
  | ground
  | escape
  | body
  | bodyEscape
  | discarding
  | discardingEscape
  deriving DecidableEq, Repr

structure DcsScanner where
  state : DcsState := .ground
  body : List UInt8 := []
  raw : List UInt8 := []
  deriving DecidableEq, Repr

/-- One span of scanned bytes, or a DCS request the emulator answers itself. -/
inductive DcsChunk
  | bytes (span : List UInt8)
  | decrqss (request : List UInt8)
  | xtgettcap (request : List UInt8)
  | xtsettcap (request : List UInt8)
  deriving DecidableEq, Repr

/-- `memmem::find(bytes, b"\x1bP")`. -/
def findIntroducer : List UInt8 → Option ℕ
  | [] => none
  | [_] => none
  | first :: second :: rest =>
      if first = esc ∧ second = dcsByte then some 0
      else (findIntroducer (second :: rest)).map (· + 1)

/-- `memchr(0x1b, bytes)`. -/
def findEsc (bytes : List UInt8) : Option ℕ := bytes.findIdx? (· == esc)

def pushBody (s : DcsScanner) (chunk : List UInt8) : DcsScanner :=
  if dcsMaxBytes < (s.body ++ chunk).length then
    { state := .discarding, body := [], raw := [] }
  else
    { state := .body, body := s.body ++ chunk, raw := s.raw ++ chunk }

/-- The chunk a complete body is reported as; an unrecognised body passes through raw. -/
def finishChunk (body raw : List UInt8) : DcsChunk :=
  match body with
  | 0x24 :: 0x71 :: request => .decrqss request
  | 0x2b :: 0x71 :: request => .xtgettcap request
  | 0x2b :: 0x70 :: request => .xtsettcap request
  | _ => .bytes raw

/-- What one iteration of the scan loop leaves: the scanner, the chunks it
emitted and the bytes it has not looked at. -/
abbrev Iteration := DcsScanner × List DcsChunk × List UInt8

/-- One iteration of the loop in `DcsScanner::push` on nonempty input. -/
def iterate (s : DcsScanner) (first : UInt8) (rest : List UInt8) : Iteration :=
  match s.state with
  | .ground =>
      match findIntroducer (first :: rest) with
      | some index =>
          ({ s with state := .escape },
            if 0 < index then [.bytes ((first :: rest).take index)] else [],
            (first :: rest).drop (index + 1))
      | none =>
          -- A trailing ESC may start a DCS in the next read.
          if (first :: rest).getLast? = some esc then
            ({ s with state := .escape },
              if 0 < rest.length then [.bytes ((first :: rest).take rest.length)] else [], [])
          else
            ({ s with state := .ground }, [.bytes (first :: rest)], [])
  | .escape =>
      if first = dcsByte then
        ({ state := .body, body := [], raw := [esc, dcsByte] }, [], rest)
      else if first = esc then
        (s, [.bytes [esc]], rest)
      else
        ({ s with state := .ground }, [.bytes [esc, first]], rest)
  | .body =>
      let limit := (findEsc (first :: rest)).getD (first :: rest).length
      if limit = 0 then
        ({ s with state := .bodyEscape }, [], rest)
      else
        -- At most the one byte past the cap that shows the overflow is buffered.
        let take := min limit (dcsMaxBytes + 1 - s.body.length)
        (pushBody s ((first :: rest).take take), [], (first :: rest).drop take)
  | .bodyEscape =>
      if first = stByte then
        ({ state := .ground, body := [], raw := [] },
          [finishChunk s.body (s.raw ++ [esc, stByte])], rest)
      else
        let escaped := pushBody s [esc]
        (if escaped.state = .body then pushBody escaped [first] else escaped, [], rest)
  | .discarding =>
      match findEsc (first :: rest) with
      | some index => ({ s with state := .discardingEscape }, [], (first :: rest).drop (index + 1))
      | none => (s, [], [])
  | .discardingEscape =>
      if first = stByte then
        ({ state := .ground, body := [], raw := [] }, [], rest)
      else if first = esc then
        (s, [], rest)
      else
        ({ s with state := .discarding }, [], rest)

/-- The scan loop under a bound on its iterations; `none` is a loop cut short. -/
def pushLoop : ℕ → DcsScanner → List UInt8 → Option (DcsScanner × List DcsChunk)
  | _, s, [] => some (s, [])
  | 0, _, _ :: _ => none
  | fuel + 1, s, first :: rest =>
      let (s', out, left) := iterate s first rest
      (pushLoop fuel s' left).map fun (t, more) => (t, out ++ more)

/-- `DcsScanner::push` over one read, allowed one iteration for each byte. -/
def push (s : DcsScanner) (bytes : List UInt8) : Option (DcsScanner × List DcsChunk) :=
  pushLoop bytes.length s bytes

/-- Successive reads. -/
def feed : DcsScanner → List (List UInt8) → Option (DcsScanner × List DcsChunk)
  | s, [] => some (s, [])
  | s, chunk :: chunks =>
      (push s chunk).bind fun (s', out) =>
        (feed s' chunks).map fun (t, more) => (t, out ++ more)

/-- What a consumer of the chunks sees: single passed bytes and recognised payloads. -/
inductive Event
  | byte (b : UInt8)
  | request (prefixBytes : UInt8 × UInt8) (body : List UInt8)
  deriving DecidableEq, Repr

def DcsChunk.events : DcsChunk → List Event
  | .bytes span => span.map .byte
  | .decrqss request => [.request (0x24, 0x71) request]
  | .xtgettcap request => [.request (0x2b, 0x71) request]
  | .xtsettcap request => [.request (0x2b, 0x70) request]

def events (out : List DcsChunk) : List Event := out.flatMap DcsChunk.events

def frame (body : List UInt8) : List UInt8 := [esc, dcsByte] ++ body ++ [esc, stByte]

/-- The bytes of the stream an event stands for. -/
def Event.render : Event → List UInt8
  | .byte b => [b]
  | .request (first, second) body => frame (first :: second :: body)

def render (es : List Event) : List UInt8 := es.flatMap Event.render

end Vivido.Dcs
