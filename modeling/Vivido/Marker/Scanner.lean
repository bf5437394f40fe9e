import Mathlib.Data.List.Basic
import Mathlib.Data.Nat.Notation

/-!
The marker scanner in front of the terminal. It separates authenticated anchor
markers and graphics commands from ordinary bytes, read by read. `push` scans
what was held back together with the new bytes; `scanMarkers` is the loop over
candidates. The recognition of the printable envelope is a library's and enters
as a parameter.
-/

namespace Vivido.Marker

open List

/-- `ESC`. -/
def esc : UInt8 := 0x1b

/-- `CAN`. -/
def can : UInt8 := 0x18

/-- `SUB`. -/
def sub : UInt8 := 0x1a

/-- The backslash that closes a string after `ESC`. -/
def stByte : UInt8 := 0x5c

/-- `_`, which opens an application program command after `ESC`. -/
def apcByte : UInt8 := 0x5f

/-- `G`, which makes an application program command a graphics command. -/
def graphicsByte : UInt8 := 0x47

/-- `V`, with which the printable envelope starts. -/
def conptyByte : UInt8 := 0x56

/-- What `conpty::scan` says of bytes that start with a candidate. -/
inductive Scan
  | complete (consumed : ℕ) (body : String)
  | incomplete
  | invalid
  deriving DecidableEq, Repr

/-- The library's marker format. Verdicts on a prefix stand when bytes follow, and a
candidate stays undecided over a bounded number of bytes only. -/
structure Protocol where
  maxMarkerBytes : ℕ
  incompleteBytes : ℕ
  scan : List UInt8 → Scan
  consumed_pos : ∀ {rest consumed body}, scan rest = .complete consumed body → 0 < consumed
  consumed_le : ∀ {rest consumed body}, scan rest = .complete consumed body →
    consumed ≤ rest.length
  complete_append : ∀ {rest consumed body} (more : List UInt8),
    scan rest = .complete consumed body → scan (rest ++ more) = .complete consumed body
  invalid_append : ∀ {rest} (more : List UInt8), scan rest = .invalid →
    scan (rest ++ more) = .invalid
  incomplete_le : ∀ {rest}, scan rest = .incomplete → rest.length ≤ incompleteBytes

/-- `VividMarkerEnvelope`. -/
structure Envelope where
  opening : List UInt8
  terminator : List UInt8
  payloadSkip : ℕ
  passToTerminal : Bool
  deriving DecidableEq, Repr

/-- `APC_VIVID_MARKER`. -/
def apcMarker : Envelope where
  opening := [esc, apcByte, 0x56, 0x49, 0x56, 0x49, 0x44, 0x3b, 0x33, 0x3b]
  terminator := [esc, stByte]
  payloadSkip := 2
  passToTerminal := true

/-- `CONPTY_VIVID_MARKER`. -/
def conptyMarker : Envelope where
  opening := [0x56, 0x49, 0x56, 0x49, 0x44, 0x3b, 0x33, 0x3b]
  terminator := [0x3b, 0x56, 0x49, 0x56, 0x49, 0x44, 0x2d, 0x45, 0x4e, 0x44]
  payloadSkip := 0
  passToTerminal := false

/-- One span of scanned bytes. -/
inductive VividChunk
  | bytes (span : List UInt8)
  | marker (raw : List UInt8) (marker : String) (passToTerminal : Bool)
  | graphics (span : List UInt8)
  deriving DecidableEq, Repr

/-- `GRAPHICS_INTRODUCER`. -/
def graphicsIntroducer : List UInt8 := [esc, apcByte, graphicsByte]

/-- Where a graphics command that has begun ends within a buffer. -/
inductive GraphicsEnd
  | closed (stop : ℕ)
  | undecided (stop : ℕ)
  | running
  deriving DecidableEq, Repr

/-- The parser leaves a command at any of these bytes. -/
def endsCommand (b : UInt8) : Bool := b = esc || b = can || b = sub

/-- `graphics_end`. -/
def graphicsEnd (buf : List UInt8) : GraphicsEnd :=
  match buf.findIdx? endsCommand with
  | none => .running
  | some found =>
      if buf[found]? ≠ some esc then .closed found
      else
        match buf[found + 1]? with
        | none => .undecided found
        | some b => if b = stByte then .closed (found + 2) else .closed found

/-- `find_bytes`. -/
def findBytes (needle : List UInt8) : List UInt8 → Option ℕ
  | [] => if needle = [] then some 0 else none
  | b :: rest =>
      if needle.isPrefixOf (b :: rest) then some 0 else (findBytes needle rest).map (· + 1)

/-- `buf[start..stop]`. -/
def slice (buf : List UInt8) (start stop : ℕ) : List UInt8 := (buf.take stop).drop start

def emitBytes (span : List UInt8) : List VividChunk := if span = [] then [] else [.bytes span]

def emitGraphics (span : List UInt8) : List VividChunk := if span = [] then [] else [.graphics span]

/-- What one turn of the loop in `scan_markers` does: return, or go on from a new cursor. -/
inductive Turn
  | done (out : List VividChunk) (consumed : ℕ) (graphics : Bool)
  | again (out : List VividChunk) (cursor textStart : ℕ)
  deriving DecidableEq, Repr

/-- A search result from before the cursor is searched again from there. -/
def refresh (found : Option ℕ) (cursor : ℕ) (search : List UInt8 → Option ℕ)
    (buf : List UInt8) : Option ℕ :=
  if found.any (· < cursor) then (search (buf.drop cursor)).map (cursor + ·) else found

/-- `find_bytes(.., b"\x1b_")`. -/
def findApc : List UInt8 → Option ℕ := findBytes [esc, apcByte]

/-- `memchr(b'V', ..)`. -/
def findConpty (bytes : List UInt8) : Option ℕ := bytes.findIdx? (· == conptyByte)

/-- The candidate that comes first. -/
def candidate : Option ℕ → Option ℕ → Option (ℕ × Envelope)
  | some apc, some conpty =>
      if apc < conpty then some (apc, apcMarker) else some (conpty, conptyMarker)
  | none, some conpty => some (conpty, conptyMarker)
  | some apc, none => some (apc, apcMarker)
  | none, none => none

/-- A format whose markers are a bare opening. -/
instance : Inhabited Protocol where
  default :=
    { maxMarkerBytes := 4096
      incompleteBytes := conptyMarker.opening.length
      scan := fun rest =>
        if conptyMarker.opening <+: rest then .complete conptyMarker.opening.length ""
        else if rest <+: conptyMarker.opening then .incomplete else .invalid
      consumed_pos := by
        intro rest consumed body h
        split at h
        · cases h
          decide
        · split at h <;> cases h
      consumed_le := by
        intro rest consumed body h
        split at h
        · rename_i hopen
          cases h
          exact hopen.length_le
        · split at h <;> cases h
      complete_append := by
        intro rest _ _ more h
        split at h
        · rename_i hopen
          rw [if_pos (hopen.trans (prefix_append rest more))]
          exact h
        · split at h <;> cases h
      invalid_append := by
        intro rest more h
        split at h
        · cases h
        rename_i hopen
        split at h
        · cases h
        rename_i hshort
        rw [if_neg, if_neg]
        · intro hmore
          exact hshort ((prefix_append rest more).trans hmore)
        · intro hmore
          rcases prefix_or_prefix_of_prefix hmore (prefix_append rest more) with h | h
          · exact hopen h
          · exact hshort h
      incomplete_le := by
        intro _ h
        split at h
        · cases h
        · split at h
          · rename_i hshort
            exact hshort.length_le
          · cases h }

variable (p : Protocol)

/-- A turn at an application program command that does not open as a marker does. -/
def turnOther (buf : List UInt8) (start textStart : ℕ) (envelope : Envelope) : Turn :=
  let text := emitBytes (slice buf textStart start)
  if (buf.drop start).isPrefixOf envelope.opening then .done text start false
  else if graphicsIntroducer.isPrefixOf (buf.drop start) then
    let body := start + graphicsIntroducer.length
    match graphicsEnd (buf.drop body) with
    | .running => .done (text ++ emitGraphics (buf.drop start)) buf.length true
    | .undecided stop =>
        .done (text ++ emitGraphics (slice buf start (body + stop))) (body + stop) true
    | .closed stop =>
        .again (text ++ emitGraphics (slice buf start (body + stop))) (body + stop) (body + stop)
  else .again [] (start + 1) textStart

/-- A turn at a candidate of the printable envelope. -/
def turnConpty (buf : List UInt8) (start textStart : ℕ) : Turn :=
  let text := emitBytes (slice buf textStart start)
  match p.scan (buf.drop start) with
  | .complete consumed body =>
      let stop := start + consumed
      .again (text ++ [.marker (slice buf start stop) body false]) stop stop
  | .incomplete => .done text start false
  | .invalid => .again [] (start + 1) textStart

/-- A turn at an application program command that opens as a marker does. -/
def turnApc (buf : List UInt8) (start textStart : ℕ) (envelope : Envelope) : Turn :=
  let text := emitBytes (slice buf textStart start)
  let terminatorSearch := start + envelope.opening.length
  -- Search only the bounded marker candidate, not the entire remaining read.
  let candidateEnd := start + min (buf.length - start) p.maxMarkerBytes
  match findBytes envelope.terminator (slice buf terminatorSearch candidateEnd) with
  | none =>
      if p.maxMarkerBytes < buf.length - start then
        .again [] (start + envelope.opening.length) textStart
      else .done text start false
  | some relativeEnd =>
      let terminator := terminatorSearch + relativeEnd
      let stop := terminator + envelope.terminator.length
      let payload := slice buf (start + envelope.payloadSkip) terminator
      match String.fromUTF8? ⟨payload.toArray⟩ with
      | some marker =>
          .again (text ++ [.marker (slice buf start stop) marker envelope.passToTerminal]) stop stop
      | none => .again [] stop textStart

/-- One turn of the loop, with the searches up to date. -/
def turn (buf : List UInt8) (cursor textStart : ℕ) (apcStart conptyStart : Option ℕ) : Turn :=
  match candidate apcStart conptyStart with
  | none =>
      -- The first byte of an introducer can straddle reads.
      let keep := if (buf.drop cursor).getLast? = some esc then 1 else 0
      .done (emitBytes (slice buf textStart (buf.length - keep))) (buf.length - keep) false
  | some (start, envelope) =>
      if envelope.payloadSkip ≠ 0 ∧ ¬envelope.opening.isPrefixOf (buf.drop start) then
        turnOther buf start textStart envelope
      else if envelope.payloadSkip = 0 then turnConpty p buf start textStart
      else turnApc p buf start textStart envelope

/-- The loop of `scan_markers` under a bound on its turns; `none` is a loop cut short. -/
def markerLoop (buf : List UInt8) : ℕ → ℕ → ℕ → Option ℕ → Option ℕ →
    Option (List VividChunk × ℕ × Bool)
  | 0, _, _, _, _ => none
  | fuel + 1, cursor, textStart, apcStart, conptyStart =>
      let apcStart := refresh apcStart cursor findApc buf
      let conptyStart := refresh conptyStart cursor findConpty buf
      match turn p buf cursor textStart apcStart conptyStart with
      | .done out consumed graphics => some (out, consumed, graphics)
      | .again out cursor textStart =>
          (markerLoop buf fuel cursor textStart apcStart conptyStart).map fun (more, result) =>
            (out ++ more, result)

/-- `scan_markers`: the chunks, how many bytes were consumed and whether they end
inside a graphics command. -/
def scanMarkers (buf : List UInt8) : Option (List VividChunk × ℕ × Bool) :=
  markerLoop p buf (buf.length + 1) 0 0 (findApc buf) (findConpty buf)

structure VividMarkerScanner where
  pending : List UInt8 := []
  graphics : Bool := false
  deriving DecidableEq, Repr

/-- `scan`: the chunks, how many bytes were consumed and the new `graphics` flag. -/
def scan (graphics : Bool) (buf : List UInt8) : Option (List VividChunk × ℕ × Bool) :=
  if graphics then
    match graphicsEnd buf with
    | .running => some (emitGraphics buf, buf.length, true)
    | .undecided stop => some (emitGraphics (buf.take stop), stop, true)
    | .closed stop =>
        (scanMarkers p (buf.drop stop)).map fun (out, consumed, graphics) =>
          (emitGraphics (buf.take stop) ++ out, stop + consumed, graphics)
  else scanMarkers p buf

/-- `push` over one read. -/
def push (s : VividMarkerScanner) (bytes : List UInt8) :
    Option (VividMarkerScanner × List VividChunk) :=
  if s.pending = [] then
    (scan p s.graphics bytes).map fun (out, consumed, graphics) =>
      ({ pending := s.pending ++ bytes.drop consumed, graphics := graphics }, out)
  else
    let pending := s.pending ++ bytes
    (scan p s.graphics pending).map fun (out, consumed, graphics) =>
      ({ pending := pending.drop consumed, graphics := graphics }, out)

/-- Successive reads. -/
def feed : VividMarkerScanner → List (List UInt8) → Option (VividMarkerScanner × List VividChunk)
  | s, [] => some (s, [])
  | s, chunk :: chunks =>
      (push p s chunk).bind fun (s', out) =>
        (feed s' chunks).map fun (t, more) => (t, out ++ more)

/-- What a consumer of the chunks sees: single bytes of text or graphics, and markers. -/
inductive Event
  | byte (b : UInt8)
  | graphics (b : UInt8)
  | marker (raw : List UInt8) (marker : String) (passToTerminal : Bool)
  deriving DecidableEq, Repr

def VividChunk.events : VividChunk → List Event
  | .bytes span => span.map .byte
  | .marker raw name passToTerminal => [.marker raw name passToTerminal]
  | .graphics span => span.map .graphics

def events (out : List VividChunk) : List Event := out.flatMap VividChunk.events

/-- The bytes of the stream an event stands for. -/
def Event.render : Event → List UInt8
  | .byte b => [b]
  | .graphics b => [b]
  | .marker raw _ _ => raw

def render (es : List Event) : List UInt8 := es.flatMap Event.render

end Vivido.Marker
