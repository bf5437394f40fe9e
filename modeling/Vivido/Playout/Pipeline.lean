import Vivido.Scene.Tracks

/-!
What the thread of a channel does with the records of its track, one step at a
time: a record is admitted and decoded, its pictures are published when they are
due, and its samples queue at the audio output. The control thread can flush the
track between any two of these steps. Whatever comes out of a record is kept
with the epoch of the record, which the program itself does not do.
-/

namespace Vivido.Playout

open Scene

def i64Min : ℤ := -(2 ^ 63)

/-- A decoder, the epochs of the records that it still holds something of, and what it gives
out, with the epochs. It makes nothing up. -/
structure DecoderProtocol (Output : Type) where
  State : Type
  Data : Type
  held : State → List ℕ
  push : State → (epoch : ℕ) → Data → (discardBefore : Option ℤ) →
    State × Option (List (ℕ × Output))
  finish : State → State × Option (List (ℕ × Output))
  held_push : ∀ {state epoch data bound d}, d ∈ held (push state epoch data bound).1 →
    d ∈ held state ∨ d = epoch
  output_push : ∀ {state epoch data bound outputs x},
    (push state epoch data bound).2 = some outputs → x ∈ outputs →
      x.1 ∈ held state ∨ x.1 = epoch
  held_finish : ∀ {state d}, d ∈ held (finish state).1 → d ∈ held state
  output_finish : ∀ {state outputs x}, (finish state).2 = some outputs → x ∈ outputs →
    x.1 ∈ held state

/-- A decoder that gives a record out at once. -/
def DecoderProtocol.plain (Output : Type) : DecoderProtocol Output where
  State := Unit
  Data := List Output
  held _ := []
  push _ epoch data _ := ((), some (data.map (epoch, ·)))
  finish _ := ((), some [])
  held_push h := by cases h
  output_push h hx := by
    cases h
    obtain ⟨_, -, rfl⟩ := List.mem_map.mp hx
    exact Or.inr rfl
  held_finish h := by cases h
  output_finish h hx := by
    cases h
    cases hx

structure Packet (Data : Type) where
  epoch : ℕ
  packetId : ℕ
  randomAccess : Bool
  bodyLength : ℕ
  sequence : ℕ
  data : Data

def Packet.media {Data : Type} (packet : Packet Data) (generation : ℕ) : ReceivedMedia where
  generation := generation
  bodyLength := packet.bodyLength
  epoch := packet.epoch
  mediaId := packet.packetId
  randomAccess := packet.randomAccess

/-- What has happened, told with the epochs of records and of flushes. -/
inductive Event where
  /-- The scene has flushed the track, and the flush will be answered. -/
  | flushed (epoch : ℕ)
  | answered (epoch : ℕ)
  | published (epoch : ℕ)
  | queued (epoch : ℕ)
  /-- The track has reached a milestone. -/
  | marked (milestone : Milestone) (epoch : ℕ)
  deriving DecidableEq, Repr

/-- What the clocks, the other tracks and the audio device make of one step. -/
structure Turn where
  /-- A clock has come to the picture. -/
  due : Bool := false
  /-- The surface has audio that the picture waits for. -/
  linked : Bool := false
  /-- `video_discard_plan` -/
  discardBefore : Option ℤ := none
  /-- `AudioTimelineStep::Restart`, where the track is live. -/
  restarted : Bool := false
  /-- How many samples `trim_before_start` drops. -/
  trimmed : ℕ := 0
  /-- How many samples the ring has room for. -/
  accepted : ℕ := 0
  /-- The channel fails: its generation is retired, or its output stopped. -/
  failed : Bool := false

variable {Sample : Type} (P : Protocol) (V : DecoderProtocol Frame) (A : DecoderProtocol Sample)

inductive Record where
  | video (packet : Packet V.Data)
  | audio (packet : Packet A.Data)
  | eos (epoch lastMediaSequence : ℕ)

inductive Decoder where
  | video (state : V.State)
  | audio (state : A.State)

/-- What the channel's thread is about to do. -/
inductive Hand where
  | reading
  | admitting (record : Record V A) (priming : Bool)
  | decoding (record : Record V A) (priming : Bool)
  /-- Pictures wait for their time. At the end of the stream it is followed by the mark. -/
  | showing (priming : Bool) (eos : Option ℕ) (pictures : List (ℕ × Frame))
  | pushing (eos : Bool) (epoch : ℕ) (samples : List (ℕ × Sample))
  | readying (epoch : ℕ)
  | ending (epoch : ℕ)
  | finishing (epoch : ℕ)
  | signalling (epoch : ℕ)
  | ended

/-- What of an audio output's state the end of its stream depends on. -/
structure Output (Sample : Type) where
  /-- Queued, and neither played nor discarded. -/
  waiting : List (ℕ × Sample) := []
  /-- `decode_done` and `eos_observed`, with the epoch of the CHANNEL_EOS that set them. -/
  decodeDone : Option ℕ := none
  eosObserved : Option ℕ := none

structure State where
  track : Track P
  generation : ℕ
  decoder : Decoder V A
  hand : Hand V A := .reading
  output : Output Sample := {}
  /-- The flush that the control thread is about to answer. -/
  answering : Option ℕ := none
  /-- The epoch of the record that the track's picture was decoded from. -/
  shown : Option ℕ := none
  log : List Event := []

inductive Act where
  | take (record : Record V A)
  | go (turn : Turn)
  | flush (epoch : ℕ)
  | answer
  /-- The device plays samples. -/
  | play (samples : ℕ)
  /-- The control thread finds the output drained. -/
  | drain (generation : ℕ)
  /-- PLAY, PAUSE, or a synchronized start. -/
  | clock (playback : Option PlaybackClock)

variable {P V A}

def Record.epoch : Record V A → ℕ
  | .video packet => packet.epoch
  | .audio packet => packet.epoch
  | .eos epoch _ => epoch

/-- The milestones that the step brought, as brought by a record of the epoch. -/
def gained (before after : Track P) (epoch : ℕ) : List Event :=
  ([.outputReady, .eosAccepted, .bufferedEnded].filter fun milestone =>
    milestone ∈ after.state.milestones ∧ milestone ∉ before.state.milestones).map
      (.marked · epoch)

/-- The start that the media epoch was told to play from, if any. -/
def playbackStartPtsUs (track : Track P) : Option ℤ :=
  (track.playback.filter (·.startMediaEpoch = track.state.mediaEpoch)).map (·.startPtsUs)

/-- `wait_until_video_due` returns. -/
def Releases (track : Track P) (priming : Bool) (ptsUs : ℤ) (turn : Turn) : Prop :=
  turn.due ∨ track.configuration.mode = .live ∧ ¬ priming ∨
    (priming ∨ ¬ turn.linked) ∧ (track.configuration.mode ≠ .timed ∨ track.frame = none ∨
      ptsUs = i64Min ∨ track.playback = none ∧ priming)

instance (track : Track P) (priming : Bool) (ptsUs : ℤ) (turn : Turn) :
    Decidable (Releases track priming ptsUs turn) :=
  inferInstanceAs (Decidable (_ ∨ _))

namespace Output

/-- `AudioOutput::flush`: the callback discards what was queued before. -/
def flush (_ : Output Sample) : Output Sample := {}

/-- `poll_drained`: the epoch of the end of stream, once it is played out. -/
def drained (output : Output Sample) : Option ℕ :=
  if output.decodeDone.isSome ∧ output.waiting.isEmpty then output.eosObserved else none

end Output

namespace State

variable (s : State P V A)

/-- The track after one of its methods, and the milestones that it reached. -/
def settle (epoch : ℕ) (track : Track P) : State P V A :=
  { s with track, log := s.log ++ gained s.track track epoch }

/-- Go on after a method of the track, if it did not fail. -/
def follow (result : Except String Unit) (hand : Hand V A) : State P V A :=
  { s with hand := if result.isOk then hand else .ended }

/-- Hand the record to the scene, which checks its epoch. -/
def receive (record : Record V A) (priming : Bool) : State P V A :=
  match record with
  | .video packet =>
    let (track, result) := s.track.admitMedia (packet.media s.generation) packet.sequence
    ({ s with track } : State P V A).follow result (.decoding record priming)
  | .audio packet =>
    let (track, result) := s.track.admitMedia (packet.media s.generation) packet.sequence
    ({ s with track } : State P V A).follow result (.decoding record priming)
  | .eos epoch lastMediaSequence =>
    let (track, result) := s.track.markEos s.generation epoch lastMediaSequence
    (s.settle epoch track).follow result (.decoding record priming)

/-- Decode a record, or drain the decoder at the end of the stream. -/
def decode (record : Record V A) (priming : Bool) (turn : Turn) : State P V A :=
  match record, s.decoder with
  | .video packet, .video state =>
    match V.push state packet.epoch packet.data turn.discardBefore with
    | (state, some pictures) =>
      { s with decoder := .video state, hand := .showing priming none pictures }
    -- a keyframe is requested
    | (state, none) => { s with decoder := .video state, hand := .reading }
  | .audio packet, .audio state =>
    match A.push state packet.epoch packet.data none with
    | (state, some samples) =>
      { s with
          decoder := .audio state
          output := if turn.restarted ∧ s.track.configuration.mode = .live then s.output.flush
            else s.output
          hand := .pushing false packet.epoch (samples.drop turn.trimmed) }
    | (state, none) => { s with decoder := .audio state, hand := .ended }
  | .eos epoch _, .video state =>
    match V.finish state with
    | (state, some pictures) =>
      { s with
          decoder := .video state
          hand := .showing s.track.frame.isNone (some epoch) pictures }
    | (state, none) => { s with decoder := .video state, hand := .ended }
  | .eos epoch _, .audio state =>
    match A.finish state with
    | (state, some samples) =>
      { s with decoder := .audio state, hand := .pushing true epoch samples }
    | (state, none) => { s with decoder := .audio state, hand := .ended }
  -- the record is not of the track's kind
  | _, _ => { s with hand := .ended }

/-- The track takes the picture, where it is the channel's current one. -/
def publish (epoch : ℕ) (picture : Frame) (next : Hand V A) : State P V A :=
  if picture.validate.isSome ∨ ¬ s.track.isCurrent s.generation then { s with hand := .ended }
  else
    let (track, result) := s.track.publishDecodedFrame s.generation picture
    let s := s.settle epoch track
    ({ s with shown := some epoch, log := s.log ++ [.published epoch] } : State P V A).follow
      (result.map fun _ => ()) next

/-- Whether the end of the stream drops the picture. -/
def skips (eos : Option ℕ) (picture : Frame) : Prop :=
  eos.isSome ∧ ∃ start ∈ playbackStartPtsUs s.track, picture.ptsUs < start

instance (eos : Option ℕ) (picture : Frame) : Decidable (s.skips eos picture) :=
  inferInstanceAs (Decidable (_ ∧ _))

/-- Publish the next picture, once it is due. -/
def showNext (priming : Bool) (eos : Option ℕ) (pictures : List (ℕ × Frame)) (turn : Turn) :
    State P V A :=
  match pictures with
  | [] => { s with hand := match eos with | none => .reading | some epoch => .ending epoch }
  | (epoch, picture) :: rest =>
    if s.skips eos picture then { s with hand := .showing priming eos rest }
    else if Releases s.track priming picture.ptsUs turn then
      s.publish epoch picture (.showing priming eos rest)
    else s

/-- Push what the ring has room for, and count it. -/
def pushNext (eos : Bool) (epoch : ℕ) (samples : List (ℕ × Sample)) (turn : Turn) :
    State P V A :=
  if samples.isEmpty then { s with hand := if eos then .finishing epoch else .readying epoch }
  else
    let pushed := samples.take turn.accepted
    { s with
        output := { s.output with waiting := s.output.waiting ++ pushed }
        log := s.log ++ pushed.map fun sample => .queued sample.1
        hand := .pushing eos epoch (samples.drop turn.accepted) }

/-- The thread's next step. -/
def go (turn : Turn) : State P V A :=
  if turn.failed then { s with hand := .ended }
  else match s.hand with
  | .reading => s
  | .admitting record priming => s.receive record priming
  | .decoding record priming => s.decode record priming turn
  | .showing priming eos pictures => s.showNext priming eos pictures turn
  | .pushing eos epoch samples => s.pushNext eos epoch samples turn
  | .readying epoch =>
    let (track, result) := s.track.markOutputReady s.generation
    (s.settle epoch track).follow result .reading
  | .ending epoch =>
    let (track, _) := s.track.markBufferedEnded s.generation
    { s.settle epoch track with hand := .ended }
  | .finishing epoch =>
    { s with output := { s.output with decodeDone := some epoch }, hand := .signalling epoch }
  | .signalling epoch =>
    { s with output := { s.output with eosObserved := some epoch }, hand := .ended }
  | .ended => s

/-- The scene's part of FLUSH. -/
def flush (epoch : ℕ) : State P V A :=
  match s.track.flushPlayback epoch with
  | (track, .ok _) =>
    { s with track, shown := none, answering := some epoch, log := s.log ++ [.flushed epoch] }
  | (track, .error _) => { s with track }

/-- The output is flushed, and FLUSH is answered. -/
def answer (epoch : ℕ) : State P V A :=
  { s with output := s.output.flush, answering := none, log := s.log ++ [.answered epoch] }

def step : Act V A → State P V A
  | .take record =>
    match s.hand with
    | .reading => { s with hand := .admitting record s.track.frame.isNone }
    | _ => s
  | .go turn => s.go turn
  | .flush epoch => if s.answering.isSome then s else s.flush epoch
  | .answer =>
    match s.answering with
    | some epoch => s.answer epoch
    | none => s
  | .play samples =>
    { s with output := { s.output with waiting := s.output.waiting.drop samples } }
  | .drain generation =>
    -- a thread that is in the middle of FLUSH does nothing else
    if s.answering.isSome then s
    else match s.output.drained with
    | some epoch => s.settle epoch (s.track.markBufferedEnded generation).1
    | none => s
  | .clock playback => { s with track := { s.track with playback } }

end State

/-- A channel with nothing in it yet. -/
def start (track : Track P) (generation : ℕ) (decoder : Decoder V A) : State P V A where
  track := track
  generation := generation
  decoder := decoder

def run (track : Track P) (generation : ℕ) (decoder : Decoder V A) (acts : List (Act V A)) :
    State P V A :=
  acts.foldl State.step (start track generation decoder)

theorem run_concat (track : Track P) (generation : ℕ) (decoder : Decoder V A)
    (acts : List (Act V A)) (act : Act V A) :
    run track generation decoder (acts ++ [act]) = (run track generation decoder acts).step act :=
  List.foldl_concat ..

end Vivido.Playout
