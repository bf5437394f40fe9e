import Vivido.Scene.Departing
import Vivido.Support.Since

/-!
The transports of tracks, and two tables beside the scene that go by the tracks'
identities: the audio outputs, and the states of the channels' openings. The
library that decides on an opening stands outside the repository.
-/

namespace Vivido.Channel

open Scene

variable {P : Protocol}

inductive Decision where
  | fresh
  | exactReplay
  | busy
  | differentBytes
  | staleGeneration
  deriving DecidableEq, Repr

/-- The channel is opened. -/
def Decision.opens : Decision → Bool
  | .fresh | .exactReplay => true
  | _ => false

/-- The part of the protocol's library that keeps the state of a channel's openings. -/
structure ChannelProtocol where
  /-- `ChannelOpenState` -/
  Opens : Type
  Attempt : Type
  unopened : Opens
  /-- Decide on an attempt, given the generation of the track's channel and the attempt's. -/
  openAttempt : Opens → (channelGeneration generation : ℕ) → Attempt → Opens × Decision
  transportLost : Opens → ℕ → Opens
  admitMedia : Opens → ℕ → Opens × Bool
  /-- The generation of the transport that counts as attached. -/
  attached : Opens → Option ℕ

/-- What the repository relies on. -/
structure ChannelProtocol.Lawful (K : ChannelProtocol) : Prop where
  unopened : K.attached K.unopened = none
  opened : ∀ {opens : K.Opens} {channelGeneration generation : ℕ} {attempt : K.Attempt},
    (K.openAttempt opens channelGeneration generation attempt).2.opens = true →
      K.attached (K.openAttempt opens channelGeneration generation attempt).1 = some generation
  refused : ∀ {opens : K.Opens} {channelGeneration generation : ℕ} {attempt : K.Attempt},
    (K.openAttempt opens channelGeneration generation attempt).2.opens = false →
      K.attached (K.openAttempt opens channelGeneration generation attempt).1 = K.attached opens
  lost : ∀ (opens : K.Opens) (generation : ℕ), K.attached (K.transportLost opens generation) =
    if K.attached opens = some generation then none else K.attached opens
  admits : ∀ (opens : K.Opens) (generation : ℕ),
    K.attached (K.admitMedia opens generation).1 = K.attached opens

/-- How far a channel's thread has come. -/
inductive Phase where
  /-- `CHANNEL_OPEN` is verified. -/
  | opening
  /-- The opening is decided on; whether it replays one. -/
  | decided (replayed : Bool)
  /-- `TrackAttachmentCleanup` is armed. -/
  | armed
  /-- The cleanup has been done. -/
  | detached
  | done
  deriving DecidableEq, Repr

structure Worker where
  identity : TrackIdentity
  generation : ℕ
  phase : Phase
  deriving DecidableEq, Repr

/-- The thread serves a transport, or is about to. -/
def Worker.isServing (worker : Worker) : Bool :=
  match worker.phase with
  | .decided _ | .armed => true
  | _ => false

/-- The scene, the tables beside it and the threads of channels. An audio output has the generation
that it plays. -/
structure Tables (P : Protocol) (K : ChannelProtocol) where
  scene : State P
  audioOutputs : SortedMap TrackIdentity ℕ
  channelOpens : SortedMap TrackIdentity K.Opens
  workers : List Worker

/-- What happens to them. A channel's thread takes its locks one after the other. -/
inductive Act (P : Protocol) (K : ChannelProtocol) where
  | request (request : Request P)
  | stopSessionAudio (session : SessionIdentity)
  | connect (identity : TrackIdentity) (generation : ℕ)
  | decide (i : ℕ) (attempt : K.Attempt)
  | accept (i maximumBytes maximumRecords : ℕ)
  | play (i : ℕ)
  | admitMedia (i : ℕ)
  | abandon (i : ℕ)
  | detach (i : ℕ)
  | lose (i : ℕ)

namespace Tables

variable {K : ChannelProtocol} (x : Tables P K)

def generation? (s : State P) (identity : TrackIdentity) : Option ℕ :=
  (s.tracks.lookup identity).map (·.state.channelGeneration)

/-- What the handler of an accepted request makes of the audio outputs. -/
def outputsAfter (scene : State P) : Request P → SortedMap TrackIdentity ℕ
  | .destroyTrack identity => x.audioOutputs.erase identity
  | .advanceChannel identity =>
    -- `advance_audio_output`
    match x.audioOutputs.lookup identity with
    | none => x.audioOutputs
    | some generation =>
      match generation? scene identity with
      | some next =>
        if generation? x.scene identity = some generation then x.audioOutputs.insert identity next
        else x.audioOutputs.erase identity
      | none => x.audioOutputs.erase identity
  | _ => x.audioOutputs

def request (request : Request P) : Tables P K :=
  match x.scene.perform request with
  | (scene, true) => { x with scene, audioOutputs := x.outputsAfter scene request }
  | (scene, false) => { x with scene }

/-- A thread of a phase goes on. -/
def onWorker (i : ℕ) (work : Worker → Tables P K) : Tables P K :=
  match x.workers[i]? with
  | none => x
  | some worker => work worker

def setPhase (i : ℕ) (worker : Worker) (phase : Phase) : Tables P K :=
  { x with workers := x.workers.set i { worker with phase } }

def connect (identity : TrackIdentity) (generation : ℕ) : Tables P K :=
  match x.scene.tracks.lookup identity with
  | none => x
  | some track =>
    if track.state.channelGeneration ≠ generation then x
    else
      -- the guard of an uplink is armed before it is accepted
      let phase := if track.configuration.direction = .uplink then .armed else .opening
      { x with workers := x.workers ++ [{ identity, generation, phase }] }

/-- The part of an opening under the registry's lock. -/
def decide (i : ℕ) (worker : Worker) (attempt : K.Attempt) : Tables P K :=
  let (opens, decision) :=
    K.openAttempt ((x.channelOpens.lookup worker.identity).getD K.unopened) worker.generation
      worker.generation attempt
  let x := { x with channelOpens := x.channelOpens.insert worker.identity opens }
  match decision with
  | .fresh => x.setPhase i worker (.decided false)
  | .exactReplay => x.setPhase i worker (.decided true)
  | _ => x.setPhase i worker .done

/-- The part of an opening under the scene's lock. -/
def accept (i : ℕ) (worker : Worker) (replayed : Bool) (maximumBytes maximumRecords : ℕ) :
    Tables P K :=
  if replayed then
    if (x.scene.tracks.lookup worker.identity).isSome then x.setPhase i worker .armed
    else x.setPhase i worker .done
  else
    match x.scene.perform
        (.acceptChannel worker.identity worker.generation maximumBytes maximumRecords) with
    | (scene, true) => { x with scene }.setPhase i worker .armed
    | (scene, false) => { x with scene }.setPhase i worker .done

/-- The audio output with which a channel's loop begins. -/
def play (worker : Worker) : Tables P K :=
  if x.audioOutputs.lookup worker.identity = some worker.generation then x
  else { x with audioOutputs := x.audioOutputs.insert worker.identity worker.generation }

/-- `TrackAttachmentCleanup::detach` -/
def detach (worker : Worker) : Tables P K :=
  { x with
    channelOpens := x.channelOpens.adjust worker.identity (K.transportLost · worker.generation)
    scene := (x.scene.perform (.detachChannel worker.identity worker.generation)).1 }

/-- `stop_failed_audio_output` -/
def stopFailedAudioOutput (identity : TrackIdentity) : Tables P K :=
  { x with audioOutputs := x.audioOutputs.erase identity }

/-- What a failed channel comes to. -/
def lose (worker : Worker) : Tables P K :=
  match x.scene.invalidateTopology.onTrack worker.identity (·.loseTrack worker.generation) with
  | (scene, .ok true) => { x with scene }.stopFailedAudioOutput worker.identity
  | (scene, _) => { x with scene }

def step : Act P K → Tables P K
  | .request request => x.request request
  | .stopSessionAudio session =>
    { x with audioOutputs := x.audioOutputs.filter fun entry =>
        entry.1.surface.context.session ≠ session }
  | .connect identity generation => x.connect identity generation
  | .decide i attempt => x.onWorker i fun worker =>
    if worker.phase = .opening then x.decide i worker attempt else x
  | .accept i maximumBytes maximumRecords => x.onWorker i fun worker =>
    match worker.phase with
    | .decided replayed => x.accept i worker replayed maximumBytes maximumRecords
    | _ => x
  | .play i => x.onWorker i fun worker => if worker.phase = .armed then x.play worker else x
  | .admitMedia i => x.onWorker i fun worker =>
    if worker.phase = .armed then
      { x with channelOpens := x.channelOpens.adjust worker.identity fun opens =>
          (K.admitMedia opens worker.generation).1 }
    else x
  | .abandon i => x.onWorker i fun worker =>
    if worker.phase = .armed then
      ((x.stopFailedAudioOutput worker.identity).detach worker).setPhase i worker .done
    else x
  | .detach i => x.onWorker i fun worker =>
    if worker.phase = .armed then (x.detach worker).setPhase i worker .detached else x
  | .lose i => x.onWorker i fun worker =>
    if worker.phase = .detached then (x.lose worker).setPhase i worker .done else x

/-- The tables after a history that began with an empty scene. -/
def run (K : ChannelProtocol) (target : PresentationTarget P) (history : List (Act P K)) :
    Tables P K :=
  history.foldl step
    { scene := .new target, audioOutputs := .empty, channelOpens := .empty, workers := [] }

theorem run_concat (target : PresentationTarget P) (history : List (Act P K)) (act : Act P K) :
    run K target (history ++ [act]) = (run K target history).step act :=
  List.foldl_append

end Tables

/-- A state of openings that keeps the last attempt, and whether its transport is attached. -/
structure PlainOpens where
  last : Option (ℕ × ℕ) := none
  isAttached : Bool := false

namespace PlainOpens

variable (opens : PlainOpens) (channelGeneration generation attempt : ℕ)

def decide : PlainOpens × Decision :=
  if generation ≠ channelGeneration then (opens, .staleGeneration)
  else
    match opens.last with
    | some (before, bytes) =>
      if generation < before then (opens, .staleGeneration)
      else if before < generation then (⟨some (generation, attempt), true⟩, .fresh)
      else if opens.isAttached then (opens, .busy)
      else if bytes = attempt then (⟨some (generation, attempt), true⟩, .exactReplay)
      else (opens, .differentBytes)
    | none => (⟨some (generation, attempt), true⟩, .fresh)

def attached : Option ℕ := if opens.isAttached then opens.last.map Prod.fst else none

end PlainOpens

/-- A library that decides as channels need, over numbers. -/
def ChannelProtocol.plain : ChannelProtocol where
  Opens := PlainOpens
  Attempt := ℕ
  unopened := {}
  openAttempt := PlainOpens.decide
  transportLost opens generation :=
    if opens.attached = some generation then { opens with isAttached := false } else opens
  admitMedia opens generation := (opens, opens.attached = some generation)
  attached := PlainOpens.attached

end Vivido.Channel
