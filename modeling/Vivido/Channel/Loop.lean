import Vivido.Scene.Departing
import Vivido.Support.Since

/-!
The loop of a channel. A record is handled by a tree of the requests that it
makes of the scene, each under the scene's lock, so that other threads come
between them. Parsers, decoders, the audio output and the overlay host stand
outside; a record carries what comes of them.
-/

namespace Vivido.Channel

open Scene

variable {P : Protocol}

structure RasterConfiguration where
  width : ℕ
  height : ℕ
  alphaMode : ℕ
  zstdEnabled : Bool
  deltaEnabled : Bool
  deriving DecidableEq, Repr

/-- What `media::parse_full_raster_frame` gives, with the decoded pixels. -/
structure FullRaster where
  epoch : ℕ
  frameId : ℕ
  ptsUs : ℤ
  width : ℕ
  height : ℕ
  compressed : Bool
  pixels : Except String (List UInt8)

/-- What `media::parse_delta_raster_frame` gives, with `apply_raster_delta` of it. -/
structure DeltaRaster where
  epoch : ℕ
  apply : Frame → Except String Frame

inductive RasterBody where
  | full (parsed : FullRaster)
  | delta (parsed : Except String DeltaRaster)

/-- A vector record, by its type. -/
inductive VectorBody where
  | asset
  | release
  | frame (epoch revision : ℕ)
  deriving DecidableEq, Repr

/-- A picture out of the decoder, and what came of waiting until it was due. -/
structure DecodedFrame where
  frame : Frame
  due : Except String Unit

structure VideoPacket where
  epoch : ℕ
  packetId : ℕ
  randomAccess : Bool
  /-- The pictures, and how many were discarded. -/
  decoded : Except String (List DecodedFrame × ℕ)

structure AudioPacket where
  epoch : ℕ
  packetId : ℕ
  /-- What came of decoding and of the step on the timeline; whether that was no plain one. -/
  stepped : Except String Bool
  pushed : Except String Unit

structure ChannelEos where
  epoch : ℕ
  lastMediaSequence : ℕ
  /-- The pictures that are left in the decoder and lie behind the start. -/
  drained : Except String (List DecodedFrame)
  finished : Except String Unit

/-- A record's body, by the record's type. -/
inductive Content where
  | vector (body : Except String VectorBody)
  | raster (body : RasterBody)
  | image (decoded : Except String Frame)
  | video (parsed : Except String VideoPacket)
  | audio (parsed : Except String AudioPacket)
  | eos (decoded : Except String ChannelEos)
  | other (optional : Bool)

/-- The types of records that are paced, admitted and credited. -/
def Content.isMedia : Content → Bool
  | .vector _ | .raster _ | .image _ | .video _ | .audio _ => true
  | .eos _ | .other _ => false

structure Record where
  objectId : ℕ
  sequence : ℕ
  bodyLength : ℕ
  content : Content
  /-- What came of pacing the record and of `ChannelOpenState::admit_media`. -/
  admitted : Except String Unit
  now : ℕ
  audioReady : Bool

/-- What is left to do for a record. -/
inductive Handling (P : Protocol) where
  /-- The record has been handled, and the loop comes to the return of its capacity. -/
  | handled
  /-- The channel has ended as it should. -/
  | closed
  | failed (reason : String)
  /-- A request without which the channel is lost. -/
  | require (request : Request P) (rest : Handling P)
  | attempt (request : Request P) (rest : Handling P)
  /-- A delta is applied to the track's latest frame. -/
  | applyDelta (delta : DeltaRaster) (rest : Frame → Handling P)
  /-- The pictures of a packet come out of the decoder. -/
  | decode (decoded : Except String (List DecodedFrame × ℕ))
      (rest : List DecodedFrame × ℕ → Handling P)

/-- The arguments of `channel_loop`, and what it reads of the track's configuration. -/
structure LoopContext where
  identity : TrackIdentity
  generation : ℕ
  kind : TrackKind
  raster : RasterConfiguration

namespace LoopContext

variable (L : LoopContext)

/-- Lengths of bodies are 32-bit numbers. -/
def counted (record : Record) (what : String) (rest : Handling P) : Handling P :=
  if record.bodyLength < 2 ^ 32 then rest else .failed (what ++ " record exceeds u32")

def admitMedia (record : Record) (epoch mediaId : ℕ) (randomAccess : Bool) (rest : Handling P) :
    Handling P :=
  .require (.admitMedia L.identity
    { generation := L.generation, bodyLength := record.bodyLength, epoch, mediaId, randomAccess }
    record.sequence) rest

/-- `publish_frame` -/
def publishFrame (record : Record) (epoch : ℕ) (frame : Frame) (randomAccess : Bool) :
    Handling P :=
  match frame.validate with
  | some reason => .failed reason
  | none =>
    L.admitMedia record epoch frame.frameId randomAccess
      (.require (.publishDecodedFrame L.identity L.generation frame) .handled)

/-- Pictures are published as they fall due. -/
def publishDecoded (record : Record) : List DecodedFrame → Handling P → Handling P
  | [], rest => rest
  | decoded :: frames, rest =>
    match decoded.due with
    | .error reason => .failed reason
    | .ok () =>
      .require (.publishDecodedFrame L.identity L.generation decoded.frame)
        (.attempt (.tryStartSynchronized record.now L.identity record.audioReady)
          (publishDecoded record frames rest))

/-- `VectorWorker::process` -/
def vector (record : Record) (body : Except String VectorBody) : Handling P :=
  if L.kind ≠ .vectorScene then .failed "vector record used a non-vector track"
  else
    counted record "vector" <|
      match body with
      | .error reason => .failed reason
      | .ok (.frame epoch revision) =>
        L.admitMedia record epoch revision true
          (.require (.markOutputReady L.identity L.generation) .handled)
      | .ok _ =>
        .require (.admitVectorAsset L.identity L.generation record.bodyLength record.sequence)
          .handled

def rasterFrame (record : Record) (body : RasterBody) : Handling P :=
  if L.kind ≠ .raster then .failed "RASTER_FRAME used a non-raster track"
  else
    match body with
    | .full parsed =>
      if parsed.width ≠ L.raster.width ∨ parsed.height ≠ L.raster.height ∨
          (parsed.compressed ∧ ¬ L.raster.zstdEnabled) then
        .failed "raster frame differs from immutable configuration"
      else
        match parsed.pixels with
        | .error reason => .failed reason
        | .ok rgba =>
          counted record "raster" <|
            L.publishFrame record parsed.epoch
              { frameId := parsed.frameId
                ptsUs := parsed.ptsUs
                width := parsed.width
                height := parsed.height
                sarNum := 1
                sarDen := 1
                alphaMode := L.raster.alphaMode
                rgba } true
    | .delta parsed =>
      if ¬ L.raster.deltaEnabled then .failed "raster delta was not negotiated"
      else
        match parsed with
        | .error reason => .failed reason
        | .ok delta =>
          .applyDelta delta fun frame =>
            counted record "raster" <|
              L.publishFrame record delta.epoch frame frame.damage.isNone

def imageData (record : Record) (decoded : Except String Frame) : Handling P :=
  if L.kind ≠ .encodedImage then .failed "IMAGE_DATA used a non-image track"
  else
    match decoded with
    | .error reason => .failed reason
    | .ok frame => counted record "image" (L.publishFrame record 0 frame true)

def videoPacket (record : Record) (parsed : Except String VideoPacket) : Handling P :=
  match parsed with
  | .error reason => .failed reason
  | .ok packet =>
    counted record "video" <|
      L.admitMedia record packet.epoch packet.packetId packet.randomAccess <|
        if L.kind ≠ .video then .failed "VIDEO_PACKET used a non-video track"
        else
          .decode packet.decoded fun (frames, discarded) =>
            let shown := L.publishDecoded record frames .handled
            if discarded ≠ 0 then
              .require (.recordLateVideoDiscard L.identity discarded false) shown
            else shown

def audioPacket (record : Record) (parsed : Except String AudioPacket) : Handling P :=
  match parsed with
  | .error reason => .failed reason
  | .ok packet =>
    counted record "audio" <|
      L.admitMedia record packet.epoch packet.packetId true <|
        if L.kind ≠ .audio then .failed "AUDIO_PACKET used a non-audio track"
        else
          match packet.stepped with
          | .error reason => .failed reason
          | .ok rebased =>
            let pushed : Handling P :=
              match packet.pushed with
              | .error reason => .failed reason
              | .ok () =>
                .require (.markOutputReady L.identity L.generation)
                  (.attempt (.tryStartSynchronized record.now L.identity record.audioReady)
                    .handled)
            if rebased then .require (.recordAudioRebase L.identity) pushed else pushed

def channelEos (record : Record) (decoded : Except String ChannelEos) : Handling P :=
  match decoded with
  | .error reason => .failed reason
  | .ok eos =>
    let finished : Handling P :=
      match eos.finished with
      | .error reason => .failed reason
      | .ok () =>
        .attempt (.tryStartSynchronized record.now L.identity record.audioReady) .closed
    .require (.markEos L.identity L.generation eos.epoch eos.lastMediaSequence) <|
      if L.kind = .video then
        match eos.drained with
        | .error reason => .failed reason
        | .ok frames =>
          L.publishDecoded record frames
            (.require (.markBufferedEnded L.identity L.generation) finished)
      else finished

/-- The body of the loop, up to the return of the capacity. -/
def handle (record : Record) : Handling P :=
  if record.objectId ≠ L.identity.trackId then
    .failed "media record object ID does not match the track"
  else
    match record.content.isMedia, record.admitted with
    | true, .error reason => .failed reason
    | _, _ =>
      match record.content with
      | .vector body => L.vector record body
      | .raster body => L.rasterFrame record body
      | .image decoded => L.imageData record decoded
      | .video parsed => L.videoPacket record parsed
      | .audio parsed => L.audioPacket record parsed
      | .eos decoded => L.channelEos record decoded
      | .other optional =>
        if optional then .handled else .failed "record is not legal on a track channel"

end LoopContext

inductive LoopPhase (P : Protocol) where
  | reading
  | handling (record : Record) (rest : Handling P)
  | ended (reason : Option String)

/-- The scene and the loop of one channel, with what the loop has taken from the connection and
given back to it: the lengths of the media records read, and of those whose capacity was
returned. -/
structure ChannelLoop (P : Protocol) where
  scene : State P
  phase : LoopPhase P := .reading
  taken : List ℕ := []
  returned : List ℕ := []
  /-- The maxima of each `MAX_CHANNEL_DATA`. -/
  grants : List (ℕ × ℕ) := []

namespace ChannelLoop

/-- What happens: other threads use the scene, a record comes in or none does, and the loop goes on
with the record that it has. -/
inductive Act (P : Protocol) where
  | request (request : Request P)
  | take (record : Record)
  | lose (reason : Option String)
  | go (written : Except String Unit)

variable (L : LoopContext) (s : ChannelLoop P)

def fail (reason : String) : ChannelLoop P := { s with phase := .ended (some reason) }

def latestFrame (identity : TrackIdentity) : Option Frame :=
  (s.scene.tracks.lookup identity).bind (·.frame)

/-- The capacity of a media record is returned, and the sender told. -/
def settle (record : Record) (written : Except String Unit) : ChannelLoop P :=
  if !record.content.isMedia then { s with phase := .reading }
  else
    match s.scene.onTrack L.identity
        (·.returnChannelCapacity L.generation record.bodyLength 1) with
    | (scene, .error reason) => { s with scene, phase := .ended (some reason) }
    | (scene, .ok maxima) =>
      let s := { s with scene, returned := s.returned ++ [record.bodyLength] }
      match written with
      | .error reason => s.fail reason
      | .ok () => { s with phase := .reading, grants := s.grants ++ [maxima] }

/-- One node of a record's tree. -/
def go (record : Record) (written : Except String Unit) : Handling P → ChannelLoop P
  | .handled => s.settle L record written
  | .closed => { s with phase := .ended none }
  | .failed reason => s.fail reason
  | .require request rest =>
    match s.scene.perform request with
    | (scene, true) => { s with scene, phase := .handling record rest }
    | (scene, false) => { s with scene, phase := .ended (some "the scene refused a request") }
  | .attempt request rest =>
    { s with scene := (s.scene.perform request).1, phase := .handling record rest }
  | .applyDelta delta rest =>
    match s.latestFrame L.identity with
    -- `request_full_frame`, and on to the next record
    | none => { s with phase := .reading }
    | some base =>
      match delta.apply base with
      | .error reason => s.fail reason
      | .ok frame => { s with phase := .handling record (rest frame) }
  | .decode decoded rest =>
    match decoded with
    -- `request_keyframe`, and on to the next record
    | .error _ => { s with phase := .reading }
    | .ok frames => { s with phase := .handling record (rest frames) }

/-- A record has been read. -/
def take (record : Record) : ChannelLoop P :=
  { s with
    phase := .handling record (L.handle record)
    taken := if record.content.isMedia then s.taken ++ [record.bodyLength] else s.taken }

def step : Act P → ChannelLoop P
  | .request request => { s with scene := (s.scene.perform request).1 }
  | .take record =>
    match s.phase with
    | .reading => s.take L record
    | _ => s
  | .lose reason =>
    match s.phase with
    | .reading => { s with phase := .ended reason }
    | _ => s
  | .go written =>
    match s.phase with
    | .handling record rest => s.go L record written rest
    | _ => s

/-- The loop begins once the channel is open. -/
def run (scene : State P) (history : List (Act P)) : ChannelLoop P :=
  history.foldl (step L) { scene }

theorem run_concat (scene : State P) (history : List (Act P)) (act : Act P) :
    run L scene (history ++ [act]) = (run L scene history).step L act :=
  List.foldl_append

end ChannelLoop

end Vivido.Channel
