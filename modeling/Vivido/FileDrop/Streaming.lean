import Vivido.FileDrop.Resuming

/-!
The connection that streams a file. It hashes what the producer has already,
reads the rest in chunks and sends each as soon as the credit allows, then sends
the length and the digest and waits for the result. One turn is one pass of a
loop of the source, or one of the steps between the loops.
-/

namespace Vivido.FileDrop

open Scene

structure MaximumFileData where
  transferId : ℕ
  transferGeneration : ℕ
  maximumBodyBytes : ℕ
  maximumRecords : ℕ
  deriving DecidableEq, Repr

structure FileFinish where
  transferId : ℕ
  transferGeneration : ℕ
  finalLength : ℕ
  sha256 : List ℕ
  deriving DecidableEq, Repr

/-- A `FILE_DATA` record without its fixed head. -/
structure FileData where
  offset : ℕ
  bytes : List UInt8
  deriving DecidableEq, Repr

/-- What comes in on the connection, by its type and what came of decoding it. -/
inductive Body where
  | maximum (decoded : Except String MaximumFileData)
  | result (decoded : Except String FileResult)
  | abort
  | other

structure Record where
  objectId : ℕ
  body : Body

/-- The parts that stand outside the repository. -/
structure StreamProtocol where
  /-- `FILE_DATA_PREFIX_SIZE` -/
  dataPrefixSize : ℕ
  /-- Whether `FileTransferOpen::decode` gives such a record. -/
  decodes : FileTransferOpen → Bool
  sha256 : List UInt8 → List ℕ

/-- A library with a head of twelve bytes, that knows the digest of `abc`. -/
def StreamProtocol.plain : StreamProtocol where
  dataPrefixSize := 12
  decodes opening := 12 < opening.maximumRecordBody ∧ opening.maximumRecordBody < 2 ^ 32
  sha256 bytes :=
    if bytes = [97, 98, 99] then
      [0xba, 0x78, 0x16, 0xbf, 0x8f, 0x01, 0xcf, 0xea, 0x41, 0x41, 0x40, 0xde, 0x5d, 0xae, 0x22,
        0x23, 0xb0, 0x03, 0x61, 0xa3, 0x96, 0x17, 0x7a, 0x9c, 0xb4, 0x10, 0xff, 0x61, 0xf2, 0x00,
        0x15, 0xad]
    else []

/-- What a turn meets: the source's flags, what came of the turn's own reading or writing, and the
record that is next on the connection. -/
structure Turn where
  cancelled : Bool
  generation : ℕ
  io : Except String Unit
  incoming : Except String Record

inductive Phase where
  | starting
  | skipping
  | reading
  /-- A chunk that has been read and hashed waits for credit. -/
  | crediting (chunk : List UInt8)
  | finishing
  | answering (sha256 : List ℕ)
  | ended (outcome : Except String (FileResult × List ℕ))

/-- The variables of `stream_source`, with what it has received and sent. -/
structure SourceStream where
  phase : Phase := .starting
  offset : ℕ := 0
  hashed : List UInt8 := []
  sentBody : ℕ := 0
  sentRecords : ℕ := 0
  maximumBody : ℕ
  maximumRecords : ℕ
  /-- The credits given so far, for bodies and for records. -/
  granted : List (ℕ × ℕ)
  data : List FileData := []
  finish : Option FileFinish := none

/-- `FileSource::ensure_generation` -/
def Turn.ensureGeneration (turn : Turn) (opening : FileTransferOpen) : Except String Unit :=
  if turn.cancelled then .error "file drop was cancelled"
  else if turn.generation ≠ opening.transferGeneration then
    .error "file transfer generation retired"
  else .ok ()

/-- `read_exact` at an offset of the file. -/
def Turn.readExact (turn : Turn) (content : List UInt8) (offset remaining : ℕ) :
    Except String (List UInt8) :=
  match turn.io with
  | .error reason => .error reason
  | .ok () =>
    if offset + remaining ≤ content.length then .ok ((content.drop offset).take remaining)
    else .error "failed to fill whole buffer"

/-- The subtraction is one of 32-bit numbers. -/
def StreamProtocol.chunkSize (S : StreamProtocol) (opening : FileTransferOpen) : ℕ :=
  min ((opening.maximumRecordBody + 2 ^ 32 - S.dataPrefixSize % 2 ^ 32) % 2 ^ 32) (1024 * 1024)

/-- Which loop goes on at an offset. -/
def onward (source : FileSource) (opening : FileTransferOpen) (offset : ℕ) : Phase :=
  if offset < opening.resumeOffset then .skipping
  else if offset < source.length then .reading
  else .finishing

def staleCredit (opening : FileTransferOpen) (maximum : MaximumFileData) : Bool :=
  maximum.transferId ≠ opening.transferId ∨
    maximum.transferGeneration ≠ opening.transferGeneration

namespace SourceStream

variable (S : StreamProtocol) (content : List UInt8) (source : FileSource)
  (opening : FileTransferOpen)

def start : SourceStream where
  maximumBody := opening.maximumBodyBytes
  maximumRecords := opening.maximumRecords
  granted := [(opening.maximumBodyBytes, opening.maximumRecords)]

def fail (s : SourceStream) (reason : String) : SourceStream :=
  { s with phase := .ended (.error reason) }

/-- The source goes on behind what has been handled. -/
def goOn (s : SourceStream) (handled : ℕ) : SourceStream :=
  if s.offset + handled < 2 ^ 64 then
    { s with
      offset := s.offset + handled
      phase := onward source opening (s.offset + handled) }
  else s.fail "file offset overflow"

def skip (s : SourceStream) (turn : Turn) : SourceStream :=
  let remaining := min (opening.resumeOffset - s.offset) (S.chunkSize opening)
  match turn.readExact content s.offset remaining with
  | .error reason => s.fail reason
  | .ok bytes => goOn source opening { s with hashed := s.hashed ++ bytes } remaining

def readChunk (s : SourceStream) (turn : Turn) : SourceStream :=
  let remaining := min (source.length - s.offset) (S.chunkSize opening)
  match turn.readExact content s.offset remaining with
  | .error reason => s.fail reason
  | .ok bytes => { s with
      hashed := s.hashed ++ bytes
      phase := .crediting bytes }

def hasCredit (s : SourceStream) (bodyLength : ℕ) : Bool :=
  s.sentBody + bodyLength < 2 ^ 64 ∧ s.sentBody + bodyLength ≤ s.maximumBody ∧
    s.sentRecords + 1 < 2 ^ 64 ∧ s.sentRecords + 1 ≤ s.maximumRecords

/-- With credit at hand the sums do not overflow. -/
def sendChunk (s : SourceStream) (turn : Turn) (chunk : List UInt8) : SourceStream :=
  match turn.io with
  | .error reason => s.fail reason
  | .ok () =>
    goOn source opening { s with
      data := s.data ++ [⟨s.offset, chunk⟩]
      sentBody := s.sentBody + (S.dataPrefixSize + chunk.length)
      sentRecords := s.sentRecords + 1 } chunk.length

def readCredit (s : SourceStream) (turn : Turn) : SourceStream :=
  match turn.incoming with
  | .error reason => s.fail reason
  | .ok record =>
    if record.objectId ≠ opening.transferId then s.fail "file credit object mismatch"
    else
      match record.body with
      | .maximum (.error reason) => s.fail reason
      | .maximum (.ok maximum) =>
        if staleCredit opening maximum then s.fail "file credit has a stale identity"
        else if maximum.maximumBodyBytes < s.maximumBody ∨
            maximum.maximumRecords < s.maximumRecords ∨
            maximum.maximumBodyBytes < s.sentBody ∨ maximum.maximumRecords < s.sentRecords then
          s.fail "file credit moved backward"
        else
          { s with
            maximumBody := maximum.maximumBodyBytes
            maximumRecords := maximum.maximumRecords
            granted := s.granted ++ [(maximum.maximumBodyBytes, maximum.maximumRecords)] }
      | .abort => s.fail "file transfer aborted"
      | _ => s.fail "expected MAX_FILE_DATA"

def sendFinish (s : SourceStream) (turn : Turn) : SourceStream :=
  match turn.io with
  | .error reason => s.fail reason
  | .ok () =>
    let finish : FileFinish :=
      { transferId := opening.transferId
        transferGeneration := opening.transferGeneration
        finalLength := source.length
        sha256 := S.sha256 s.hashed }
    { s with
      finish := some finish
      phase := .answering finish.sha256 }

/-- A result that cannot be one of this transfer. -/
def invalidResult (result : FileResult) : Bool :=
  result.transferId ≠ opening.transferId ∨
    result.transferGeneration ≠ opening.transferGeneration ∨
    source.length < result.committedLength ∨
    ((result.result = .committed ∨ result.result = .alreadyCommitted) ∧
      result.committedLength ≠ source.length)

def readResult (s : SourceStream) (turn : Turn) (sha256 : List ℕ) : SourceStream :=
  match turn.incoming with
  | .error reason => s.fail reason
  | .ok record =>
    if record.objectId ≠ opening.transferId then s.fail "file result object mismatch"
    else
      match record.body with
      | .result (.error reason) => s.fail reason
      | .result (.ok result) =>
        if invalidResult source opening result then s.fail "invalid FILE_RESULT"
        else { s with phase := .ended (.ok (result, sha256)) }
      | .maximum (.error reason) => s.fail reason
      | .maximum (.ok maximum) =>
        if staleCredit opening maximum then s.fail "file credit has a stale identity" else s
      | .abort => s.fail "file transfer aborted"
      | .other => s.fail "unexpected file-transfer result record"

/-- A turn of a source that is still the transfer's. -/
def act (s : SourceStream) (turn : Turn) : SourceStream :=
  match s.phase with
  | .starting =>
    match turn.io with
    | .error reason => s.fail reason
    | .ok () => { s with phase := onward source opening s.offset }
  | .skipping => s.skip S content source opening turn
  | .reading => s.readChunk S content source opening turn
  | .crediting chunk =>
    if s.hasCredit (S.dataPrefixSize + chunk.length) then
      s.sendChunk S source opening turn chunk
    else s.readCredit opening turn
  | .finishing => s.sendFinish S source opening turn
  | .answering sha256 => s.readResult source opening turn sha256
  | .ended _ => s

def step (s : SourceStream) (turn : Turn) : SourceStream :=
  match s.phase, turn.ensureGeneration opening with
  | .ended _, _ => s
  | _, .error reason => s.fail reason
  | _, .ok () => s.act S content source opening turn

def run (turns : List Turn) : SourceStream :=
  turns.foldl (step S content source opening) (start opening)

theorem run_concat (turns : List Turn) (turn : Turn) :
    run S content source opening (turns ++ [turn]) =
      (run S content source opening turns).step S content source opening turn :=
  List.foldl_append

end SourceStream

end Vivido.FileDrop
