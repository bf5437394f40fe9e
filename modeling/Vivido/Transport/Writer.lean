import Mathlib.Algebra.GroupWithZero.Nat
import Mathlib.Data.Nat.Basic

/-!
How a record goes to its socket. The writer offers the header and the parts of the
body together and advances over them by what the socket took, until no slice is
left. What it offers where only empty slices are left holds no byte, and a socket
that takes none of it fails the writer.
-/

namespace Vivido.Transport

inductive ErrorKind where
  | interrupted
  | invalidInput
  | invalidData
  | brokenPipe
  | writeZero
  | other
  deriving DecidableEq, Repr

structure IoError where
  kind : ErrorKind
  message : String
  deriving DecidableEq, Repr

/-- What the socket answers to one `write_vectored`: the bytes it has room for, or an error. -/
inductive Response where
  | room (count : ℕ)
  | error (error : IoError)
  deriving DecidableEq, Repr

abbrev Slices := List (List UInt8)

/-- The bytes of the slices from the offset in the first on. -/
def offered : Slices → ℕ → List UInt8
  | [], _ => []
  | slice :: slices, offset => slice.drop offset ++ slices.flatten

/-- The slices and the offset after so many bytes more. -/
def advance : Slices → ℕ → ℕ → Slices × ℕ
  | [], offset, _ => ([], offset)
  | slice :: slices, offset, remaining =>
    let available := slice.length - offset
    if remaining < available then (slice :: slices, offset + remaining)
    else if remaining - available = 0 then (slices, 0)
    else advance slices 0 (remaining - available)

inductive Outcome where
  | done
  | failed (error : IoError)
  | waiting
  deriving DecidableEq, Repr

def writeZero : IoError := ⟨.writeZero, "failed to write Vivid record"⟩

/-- The loop of `write_parts` over `&buffers[index..]` and the offset in its first slice, with the
bytes that the socket took and the answers that it has not given. -/
def writeSlices (slices : Slices) (offset : ℕ) (responses : List Response) (sent : List UInt8) :
    Outcome × List UInt8 :=
  if slices.isEmpty then (.done, sent)
  else
    match responses with
    | [] => (.waiting, sent)
    | .error error :: responses =>
      if error.kind = .interrupted then writeSlices slices offset responses sent
      else (.failed error, sent)
    | .room count :: responses =>
      let written := min count (offered slices offset).length
      if written = 0 then (.failed writeZero, sent)
      else
        let (rest, offset') := advance slices offset written
        writeSlices rest offset' responses (sent ++ (offered slices offset).take written)

def writeParts (header : List UInt8) (parts : Slices) (responses : List Response) :
    Outcome × List UInt8 :=
  writeSlices (header :: parts) 0 responses []

structure RecordHeader where
  bodyLength : ℕ
  recordType : ℕ
  flags : ℕ
  objectId : ℕ
  sequence : ℕ
  deriving DecidableEq, Repr

/-- What the wire protocol fixes of a record: its largest body and its header's bytes. -/
structure RecordProtocol where
  hardMaxRecordBody : ℕ
  encode : RecordHeader → List UInt8

/-- `WriterInner`, with what it has sent and whether the stream was shut down. -/
structure Writer where
  failed : Bool := false
  maximum : ℕ
  sequence : ℕ := 0
  sent : List UInt8 := []
  shutdown : Bool := false
  deriving DecidableEq, Repr

/-- What a call to the writer returns, unless it is still waiting for the socket. -/
inductive Reply where
  | written (sequence : ℕ)
  | failed (error : IoError)
  | waiting
  deriving DecidableEq, Repr

namespace Writer

variable (protocol : RecordProtocol)

/-- The header of the next record with this body, or why there is none. -/
def header (w : Writer) (recordType objectId : ℕ) (parts : Slices) :
    Except IoError RecordHeader := do
  let bodyLength := (parts.map List.length).sum
  if 2 ^ 64 ≤ bodyLength then
    throw ⟨.invalidInput, "record body length overflows"⟩
  if 2 ^ 32 ≤ bodyLength then
    throw ⟨.invalidInput, "record body exceeds u32"⟩
  if w.failed then
    throw ⟨.brokenPipe, "Vivid writer failed"⟩
  if w.maximum < bodyLength ∨ protocol.hardMaxRecordBody < bodyLength then
    throw ⟨.invalidInput, "outgoing Vivid record exceeds the accepted body limit"⟩
  if 2 ^ 64 ≤ w.sequence + 1 then
    throw ⟨.invalidData, "outgoing sequence exhausted"⟩
  return {
    bodyLength
    recordType
    flags := 0
    objectId
    sequence := w.sequence + 1 }

/-- `write_parts_sequenced`; `flushed` is what the flush returns. -/
def writePartsSequenced (w : Writer) (recordType objectId : ℕ) (parts : Slices)
    (responses : List Response) (flushed : Option IoError) : Writer × Reply :=
  match w.header protocol recordType objectId parts with
  | .error error => (w, .failed error)
  | .ok header =>
    match writeParts (protocol.encode header) parts responses with
    | (.waiting, sent) => ({ w with sent := w.sent ++ sent }, .waiting)
    | (.failed error, sent) =>
      ({ w with sent := w.sent ++ sent, failed := true, shutdown := true }, .failed error)
    | (.done, sent) =>
      match flushed with
      | some error =>
        ({ w with sent := w.sent ++ sent, failed := true, shutdown := true }, .failed error)
      | none => ({ w with sent := w.sent ++ sent, sequence := header.sequence },
          .written header.sequence)

end Writer

end Vivido.Transport
