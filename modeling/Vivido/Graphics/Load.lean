import Vivido.Graphics.Store

/-!
Receiving the pixels of a transmitted image. A transmission arrives as commands
that each carry a base64 chunk, itself split at any byte. Uncompressed pixels
are decoded as they come; compressed ones are handed back as a job. The decoders
of base64, zlib and PNG come from outside and are parameters.
-/

namespace Vivido.Graphics

/-- `MAX_ENCODED_BYTES`. -/
def maxEncodedBytes : ℕ := 64 * 1024 * 1024

/-- `SLACK`. -/
def slack : ℕ := 12

/-- `ZLIB_OVERHEAD`. -/
def zlibOverhead : ℕ := 1024

/-- `PNG_HEADER_BYTES`. -/
def pngHeaderBytes : ℕ := 24

/-- Why a transmission was refused, in the `CODE:message` form of a reply. -/
structure Failure where
  code : String
  message : String
  deriving DecidableEq, Repr

namespace Failure

def tooMuchData : Failure := ⟨"EFBIG", "Too much data"⟩

def notEnoughData : Failure := ⟨"ENODATA", "Insufficient image data"⟩

def badBase64 : Failure := ⟨"EINVAL", "Invalid base64 data"⟩

def badZlib : Failure := ⟨"EINVAL", "Failed to inflate image data"⟩

def badPng : Failure := ⟨"EBADPNG", "Failed to decode PNG data"⟩

def imageTooLarge : Failure := ⟨"EINVAL", "Image too large"⟩

end Failure

/-- The decoders that are not the terminal's own. -/
structure Decoders where
  /-- `BASE64.decode_vec`: the bytes appended. -/
  base64 : List UInt8 → Option (List UInt8)
  /-- `Decompress::decompress_vec` into an empty buffer of a capacity: what it wrote, and
  whether the stream ended there. -/
  inflate : List UInt8 → ℕ → Option (List UInt8 × Bool)
  /-- `Decompress::decompress` into a buffer of a size: what it wrote. -/
  inflateHead : List UInt8 → ℕ → Option (List UInt8)
  /-- `inflate_bounded`. -/
  inflateBounded : List UInt8 → ℕ → Except Failure (List UInt8)
  /-- The PNG reader: width, height and pixels. -/
  png : List UInt8 → Option (ℕ × ℕ × List UInt8)

/-- Decoded 32-bit straight-alpha pixels of one image. -/
structure Pixels where
  width : ℕ
  height : ℕ
  rgba : List UInt8
  isOpaque : Bool
  deriving DecidableEq, Repr

/-- `all_opaque`: whether every whole pixel has full alpha. -/
def allOpaque : List UInt8 → Bool
  | _ :: _ :: _ :: alpha :: rgba => alpha = 255 && allOpaque rgba
  | _ => true

/-- Whole 24-bit pixels, widened to 32 bits. -/
def widenPixels : List UInt8 → List UInt8
  | red :: green :: blue :: rgb => red :: green :: blue :: 255 :: widenPixels rgb
  | _ => []

inductive Encoding where
  | zlibRgb
  | zlibRgba
  | png
  | zlibPng
  deriving DecidableEq, Repr

/-- Compressed image data waiting to be turned into pixels. -/
structure DecodeJob where
  encoding : Encoding
  width : ℕ
  height : ℕ
  data : List UInt8
  deriving DecidableEq, Repr

/-- A number from its bytes, the highest first. -/
def bigEndian (bytes : List UInt8) : ℕ := bytes.foldl (fun n byte => n * 256 + byte.toNat) 0

/-- `png_dimensions`. -/
def pngDimensions (header : List UInt8) : Option (ℕ × ℕ) :=
  if header.length ≠ pngHeaderBytes ∨
      header.take 8 ≠ [0x89, 0x50, 0x4e, 0x47, 0x0d, 0x0a, 0x1a, 0x0a] ∨
      (header.drop 12).take 4 ≠ "IHDR".toList.map ascii then none
  else some (bigEndian ((header.drop 16).take 4), bigEndian ((header.drop 20).take 4))

namespace DecodeJob

variable (decoders : Decoders)

/-- The first bytes of the PNG file. -/
def header (job : DecodeJob) : Option (List UInt8) :=
  match job.encoding with
  | .zlibPng => (decoders.inflateHead job.data pngHeaderBytes).filter (·.length = pngHeaderBytes)
  | _ => if pngHeaderBytes ≤ job.data.length then some (job.data.take pngHeaderBytes) else none

/-- `dimensions` of the decoded image, without decoding it. -/
def dimensions (job : DecodeJob) : Except Failure (ℕ × ℕ) :=
  if job.encoding = .zlibRgb ∨ job.encoding = .zlibRgba then .ok (job.width, job.height)
  else
    match (job.header decoders).bind pngDimensions with
    | none => .error .badPng
    | some (width, height) =>
        if width = 0 ∨ height = 0 then .error .badPng
        else if maxDimension < width ∨ maxDimension < height then .error .imageTooLarge
        else .ok (width, height)

/-- `inflate_exact`: a stream that must expand to exactly `expected` bytes. -/
def inflateExact (data : List UInt8) (expected : ℕ) : Except Failure (List UInt8) :=
  match decoders.inflate data expected with
  | none => .error .badZlib
  | some (out, ended) =>
      if !ended then .error .badZlib
      else if out.length = expected then .ok out
      else .error .notEnoughData

/-- `decode_png`. -/
def decodePng (data : List UInt8) : Except Failure Pixels :=
  match decoders.png data with
  | none => .error .badPng
  | some (width, height, rgba) => .ok ⟨width, height, rgba, allOpaque rgba⟩

/-- `run`: decode the image. -/
def run (job : DecodeJob) : Except Failure Pixels :=
  let pixels := job.width * job.height
  match job.encoding with
  | .zlibRgba => (inflateExact decoders job.data (pixels * 4)).map fun rgba =>
      ⟨job.width, job.height, rgba, allOpaque rgba⟩
  | .zlibRgb => (inflateExact decoders job.data (pixels * 3)).map fun rgb =>
      ⟨job.width, job.height, widenPixels rgb, true⟩
  | .png => decodePng decoders job.data
  | .zlibPng => (decoders.inflateBounded job.data maxEncodedBytes).bind (decodePng decoders)

end DecodeJob

/-- How the bytes of a transmission become pixels. -/
inductive Target where
  | rgba
  | rgb
  | encoded (encoding : Encoding)
  | rejected (failure : Failure)
  deriving DecidableEq, Repr

/-- A transmission in progress; `pending` is the part of a base64 quad that has arrived. -/
structure Load where
  start : Command
  target : Target := .rgba
  buf : List UInt8 := []
  expected : ℕ := 0
  limit : ℕ := 0
  pending : List UInt8 := []
  rgb : List UInt8 := []
  scanned : ℕ := 0
  isOpaque : Bool := true
  deriving DecidableEq, Repr

/-- What a completed transmission produced. -/
inductive Received where
  | pixels (pixels : Pixels)
  | job (job : DecodeJob)
  deriving DecidableEq, Repr

namespace Base64Stream

/-- `bound` on the bytes that `push` would append. -/
def bound (pending : List UInt8) (input : ℕ) : ℕ := (pending.length + input) / 4 * 3

/-- `push`: decode every whole quad; the bytes and the rest of a quad. -/
def push (decoders : Decoders) (pending input : List UInt8) :
    Except Failure (List UInt8 × List UInt8) :=
  let decode := fun quads => match decoders.base64 quads with
    | none => Except.error Failure.badBase64
    | some bytes => .ok bytes
  let whole := fun (front : List UInt8) (input : List UInt8) =>
    let len := input.length / 4 * 4
    (decode (input.take len)).map fun bytes => (front ++ bytes, input.drop len)
  if pending ≠ [] then
    let take := min (4 - pending.length) input.length
    let quad := pending ++ input.take take
    if quad.length < 4 then .ok ([], quad)
    else (decode quad).bind fun bytes => whole bytes (input.drop take)
  else whole [] input

/-- `finish`: decode the unpadded tail of a chunk. -/
def finish (decoders : Decoders) (pending : List UInt8) : Except Failure (List UInt8) :=
  match decoders.base64 pending with
  | none => .error .badBase64
  | some bytes => .ok bytes

end Base64Stream

namespace Load

/-- `plan`: the target, the bytes expected and the most that may be held. -/
def plan (start : Command) : Except Failure (Target × ℕ × ℕ) :=
  if start.medium ≠ 0 ∧ start.medium ≠ ascii 'd' then
    .error ⟨"EINVAL", "Unsupported transmission medium"⟩
  else
    let compressed := start.compression = ascii 'z'
    if start.format = 100 then
      .ok (.encoded (if compressed then .zlibPng else .png), 0, maxEncodedBytes)
    else if start.format ≠ 0 ∧ start.format ≠ 32 ∧ start.format ≠ 24 then
      .error ⟨"EINVAL", "Unknown image format"⟩
    else if maxDimension < start.dataWidth ∨ maxDimension < start.dataHeight then
      .error .imageTooLarge
    else
      let bytesPerPixel := if start.format = 24 then 3 else 4
      let pixels := start.dataWidth * start.dataHeight
      if pixels = 0 then .error ⟨"EINVAL", "Zero width/height not allowed"⟩
      else if compressed then
        .ok (.encoded (if bytesPerPixel = 3 then .zlibRgb else .zlibRgba), pixels * 4,
          min (pixels * bytesPerPixel + zlibOverhead) maxEncodedBytes)
      else .ok (if bytesPerPixel = 3 then .rgb else .rgba, pixels * 4, pixels * 4 + slack)

/-- `begin`: a transmission that cannot be accepted discards whatever follows. -/
def begin (start : Command) : Load :=
  match plan start with
  | .ok (target, expected, limit) =>
      { start := start, target := target, expected := expected, limit := limit }
  | .error failure => { start := start, target := .rejected failure }

/-- `rejected`. -/
def isRejected (load : Load) : Bool :=
  match load.target with
  | .rejected _ => true
  | _ => false

/-- Refuse the transmission, releasing what it had received. -/
def reject (load : Load) (failure : Failure) : Load :=
  if load.isRejected then load
  else { load with target := .rejected failure, buf := [], rgb := [] }

/-- Move every whole 24-bit pixel from the staging buffer into the image. -/
def widen (load : Load) : Load :=
  { load with
    buf := load.buf ++ widenPixels load.rgb
    rgb := load.rgb.drop (load.rgb.length / 3 * 3) }

/-- Fold the alpha of newly decoded pixels into the opacity verdict. -/
def scan (load : Load) : Load :=
  if load.target ≠ .rgba then load
  else
    let stop := min (load.buf.length / 4 * 4) load.expected
    { load with
      isOpaque := if load.isOpaque ∧ load.scanned < stop then
          allOpaque ((load.buf.take stop).drop load.scanned)
        else load.isOpaque
      scanned := max stop load.scanned }

/-- `decode`: a fragment of a chunk's base64 payload. -/
def decode (decoders : Decoders) (load : Load) (payload : List UInt8) : Except Failure Load :=
  match load.target with
  | .rejected _ => .ok load
  | .rgb =>
      -- Three received bytes become four stored ones.
      let stored := load.buf.length / 4 * 3 + load.rgb.length
      if load.limit / 4 * 3 < stored + Base64Stream.bound load.pending payload.length then
        .error .tooMuchData
      else (Base64Stream.push decoders load.pending payload).map fun (bytes, pending) =>
        ({ load with pending := pending, rgb := load.rgb ++ bytes } : Load).widen
  | _ =>
      if load.limit < load.buf.length + Base64Stream.bound load.pending payload.length then
        .error .tooMuchData
      else (Base64Stream.push decoders load.pending payload).map fun (bytes, pending) =>
        ({ load with pending := pending, buf := load.buf ++ bytes } : Load).scan

/-- `decode_tail`: the end of a chunk. -/
def decodeTail (decoders : Decoders) (load : Load) : Except Failure Load :=
  match load.target with
  | .rejected _ => .ok { load with pending := [] }
  | .rgb => (Base64Stream.finish decoders load.pending).map fun bytes =>
      ({ load with pending := [], rgb := load.rgb ++ bytes } : Load).widen
  | _ => (Base64Stream.finish decoders load.pending).map fun bytes =>
      ({ load with pending := [], buf := load.buf ++ bytes } : Load).scan

/-- `push`. Base64 that fails to decode leaves no part of a quad. -/
def push (decoders : Decoders) (load : Load) (payload : List UInt8) : Load :=
  match load.decode decoders payload with
  | .ok load => load
  | .error failure =>
      (if failure = .badBase64 then { load with pending := [] } else load).reject failure

/-- `end_chunk`. -/
def endChunk (decoders : Decoders) (load : Load) : Load :=
  match load.decodeTail decoders with
  | .ok load => load
  | .error failure => ({ load with pending := [] } : Load).reject failure

/-- The end of a chunk, whose command may ask for silence. -/
def closeChunk (decoders : Decoders) (load : Load) (command : Command) : Load :=
  let load := load.endChunk decoders
  if command.quiet ≠ 0 then { load with start.quiet := command.quiet } else load

/-- `finish`: complete the transmission. -/
def finish (load : Load) : Except Failure Received :=
  let width := load.start.dataWidth
  let height := load.start.dataHeight
  match load.target with
  | .rejected failure => .error failure
  | .encoded encoding => .ok (.job ⟨encoding, width, height, load.buf⟩)
  | _ =>
      if load.buf.length < load.expected then .error .notEnoughData
      else .ok (.pixels ⟨width, height, load.buf.take load.expected, load.isOpaque⟩)

end Load

end Vivido.Graphics
