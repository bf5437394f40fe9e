import Vivido.Scene.Playback
import Vivido.Scene.Rendering
import Vivido.Scene.Tracks
import Vivido.Scene.Transactions

/-!
The operations of a shared scene as one inductive type, and the states that
they reach. Each operation takes the lock once, so any order of them over any
number of threads is a list. A frame published with its record is two of them.
-/

namespace Vivido.Scene

variable {P : Protocol}

variable (P) in
/-- An operation with its arguments. Those that read a clock are given the time. -/
inductive Request where
  | registerSession (session : SessionIdentity) (targetGeneration : ℕ)
  | advanceTargetGeneration (targetGeneration : ℕ)
  | removeSession (session : SessionIdentity)
  | suspendSession (session : SessionIdentity)
  | detachSession (session : SessionIdentity)
  | removeContexts (session : SessionIdentity) (contexts : List ℕ)
  | addAnchor (identity : AnchorIdentity) (anchor : Vivid.TextAnchor)
  | applyAnchorResize (positions : List (AnchorIdentity × Option Vivid.TextAnchor))
  | scrollAnchors (scroll : Terminal.PendingGridScroll)
  | clearTerminal
  | setAlternateScreen (alternate : Bool)
  | createSurface (identity : SurfaceIdentity) (definition : SurfaceDefinition P.Value)
  | updateSurface (identity : SurfaceIdentity) (expectedRevision expectedGeneration : ℕ)
      (replacement : SurfaceDefinition P.Value)
  | destroySurface (identity : SurfaceIdentity)
  | createTrack (identity : TrackIdentity) (configuration : TrackConfiguration)
  | destroyTrack (identity : TrackIdentity)
  | activateTracks (identity : SurfaceIdentity) (expectedRevision : ℕ) (bindings : List Binding)
  | acceptChannel (identity : TrackIdentity) (generation maximumBytes maximumRecords : ℕ)
  | acceptUplinkChannel (identity : TrackIdentity) (generation : ℕ)
  | advanceChannel (identity : TrackIdentity)
  | setAudioGain (identity : TrackIdentity) (gain : ℕ)
  | detachChannel (identity : TrackIdentity) (generation : ℕ)
  | admitVectorAsset (identity : TrackIdentity) (generation bodyLength sequence : ℕ)
  | admitMedia (identity : TrackIdentity) (media : ReceivedMedia) (recordSequence : ℕ)
  | publishDecodedFrame (identity : TrackIdentity) (generation : ℕ) (frame : Frame)
  | recordLateVideoDiscard (identity : TrackIdentity) (frames : ℕ) (requestedKeyframe : Bool)
  | recordAudioRebase (identity : TrackIdentity)
  | loseTrack (identity : TrackIdentity) (generation : ℕ)
  | markOutputReady (identity : TrackIdentity) (generation : ℕ)
  | configurePlayback (now : ℕ) (identity : TrackIdentity) (startPtsUs : ℤ) (synchronized : Bool)
  | tryStartSynchronized (now : ℕ) (identity : TrackIdentity) (audioReady : Bool)
  | pausePlaybackAt (now : ℕ) (identity : TrackIdentity) (audioPts : Option ℤ)
  | flushPlayback (identity : TrackIdentity) (newEpoch : ℕ)
  | markEos (identity : TrackIdentity) (generation mediaEpoch lastMediaRecordSequence : ℕ)
  | markBufferedEnded (identity : TrackIdentity) (generation : ℕ)
  | returnChannelCapacity (identity : TrackIdentity) (generation bodyBytes records : ℕ)
  | beginTransaction (context : ContextIdentity) (transactionId : ℕ)
  | queueMutation (context : ContextIdentity) (transactionId : ℕ) (mutation : NodeMutation P)
  | abortTransaction (context : ContextIdentity) (transactionId : ℕ)
  | commitTransaction (context : ContextIdentity) (transactionId expectedTarget : ℕ)
      (expectedRevision : Option ℕ)
  | snapshot
  | markPresented (identity : TrackIdentity)
      (channelGeneration surfaceGeneration frameId : ℕ) (ptsUs : ℤ)

namespace State

variable (s : State P)

/-- A channel is opened with room for something. -/
def acceptChannel (identity : TrackIdentity) (generation maximumBytes maximumRecords : ℕ) :
    State P × Except String Unit :=
  if maximumBytes = 0 ∨ maximumRecords = 0 then
    (s, .error "channel flow maxima must be positive")
  else s.onTrack identity (·.acceptChannel generation maximumBytes maximumRecords)

def admitMedia (identity : TrackIdentity) (media : ReceivedMedia) (recordSequence : ℕ) :
    State P × Except String Unit :=
  if recordSequence ≤ 1 then (s, .error "media record sequence does not follow CHANNEL_OPEN")
  else s.onTrack identity (·.admitMedia media recordSequence)

def publishDecodedFrame (identity : TrackIdentity) (generation : ℕ) (frame : Frame) :
    State P × Except String Unit :=
  match frame.validate with
  | some reason => (s, .error reason)
  | none =>
    match s.onTrack identity (·.publishDecodedFrame generation frame) with
    | (s, .error reason) => (s, .error reason)
    | (s, .ok replacing) =>
      (if replacing then s.replaceCachedFrame identity frame
        else s.advanceContent.invalidateTopology, .ok ())

def noted {ε α : Type} (result : State P × Except ε α) : State P × Bool :=
  (result.1, result.2.isOk)

/-- Carry out an operation; whether it was accepted. -/
def perform : Request P → State P × Bool
  | .registerSession session targetGeneration => noted (s.registerSession session targetGeneration)
  | .advanceTargetGeneration targetGeneration =>
    (s.advanceTargetGeneration targetGeneration, true)
  | .removeSession session => (s.removeSession session, true)
  | .suspendSession session => (s.suspendSession session, true)
  | .detachSession session => (s.detachSession session, true)
  | .removeContexts session contexts => (s.removeContexts session contexts, true)
  | .addAnchor identity anchor => noted (s.addAnchor identity anchor)
  | .applyAnchorResize positions => ((s.applyAnchorResize positions).1, true)
  | .scrollAnchors scroll => ((s.scrollAnchors scroll).1, true)
  | .clearTerminal => (s.clearTerminal.1, true)
  | .setAlternateScreen alternate => ((s.setAlternateScreen alternate).1, true)
  | .createSurface identity definition => noted (s.createSurface identity definition)
  | .updateSurface identity revision generation replacement =>
    noted (s.updateSurface identity revision generation replacement)
  | .destroySurface identity => noted (s.destroySurface identity)
  | .createTrack identity configuration => noted (s.createTrack identity configuration)
  | .destroyTrack identity => noted (s.destroyTrack identity)
  | .activateTracks identity revision bindings =>
    noted (s.activateTracks identity revision bindings)
  | .acceptChannel identity generation bytes records =>
    noted (s.acceptChannel identity generation bytes records)
  | .acceptUplinkChannel identity generation =>
    noted (s.onTrack identity (·.acceptUplinkChannel generation) "track missing")
  | .advanceChannel identity =>
    noted (s.invalidateTopology.onTrack identity (·.advanceChannel))
  | .setAudioGain identity gain => noted (s.onTrack identity (·.setAudioGain gain))
  | .detachChannel identity generation =>
    noted (s.invalidateTopology.onTrack identity (·.detachChannel generation))
  | .admitVectorAsset identity generation bodyLength sequence =>
    noted (s.onTrack identity (·.admitVectorAsset generation bodyLength sequence))
  | .admitMedia identity media recordSequence =>
    noted (s.admitMedia identity media recordSequence)
  | .publishDecodedFrame identity generation frame =>
    noted (s.publishDecodedFrame identity generation frame)
  | .recordLateVideoDiscard identity frames requestedKeyframe =>
    noted (s.onTrack identity (·.recordLateVideoDiscard frames requestedKeyframe))
  | .recordAudioRebase identity => noted (s.onTrack identity (·.recordAudioRebase))
  | .loseTrack identity generation =>
    noted (s.invalidateTopology.onTrack identity (·.loseTrack generation))
  | .markOutputReady identity generation =>
    noted (s.onTrack identity (·.markOutputReady generation))
  | .configurePlayback now identity startPtsUs synchronized =>
    noted (s.configurePlayback now identity startPtsUs synchronized)
  | .tryStartSynchronized now identity audioReady =>
    s.tryStartSynchronized now identity audioReady
  | .pausePlaybackAt now identity audioPts => noted (s.pausePlaybackAt now identity audioPts)
  | .flushPlayback identity newEpoch =>
    noted (s.invalidateTopology.onTrack identity (·.flushPlayback newEpoch))
  | .markEos identity generation mediaEpoch sequence =>
    noted (s.onTrack identity (·.markEos generation mediaEpoch sequence))
  | .markBufferedEnded identity generation =>
    noted (s.onTrack identity (·.markBufferedEnded generation))
  | .returnChannelCapacity identity generation bodyBytes records =>
    noted (s.onTrack identity (·.returnChannelCapacity generation bodyBytes records))
  | .beginTransaction context transactionId => noted (s.beginTransaction context transactionId)
  | .queueMutation context transactionId mutation =>
    noted (s.queueMutation context transactionId mutation)
  | .abortTransaction context transactionId => s.abortTransaction context transactionId
  | .commitTransaction context transactionId expectedTarget expectedRevision =>
    noted (s.commitTransaction context transactionId expectedTarget expectedRevision)
  | .snapshot => (s.snapshot.1, true)
  | .markPresented identity channelGeneration surfaceGeneration frameId ptsUs =>
    noted (s.markPresented identity channelGeneration surfaceGeneration frameId ptsUs)

/-- A run of operations. -/
def performAll (requests : List (Request P)) : State P :=
  requests.foldl (fun s request => (s.perform request).1) s

/-- The condition holds of each operation of a run and the state it comes to. -/
def Along (condition : State P → Request P → Prop) (s : State P) : List (Request P) → Prop
  | [] => True
  | request :: requests => condition s request ∧ Along condition (s.perform request).1 requests

instance decidableAlong (condition : State P → Request P → Prop)
    [∀ s request, Decidable (condition s request)] (s : State P) :
    DecidablePred (Along condition s)
  | [] => inferInstanceAs (Decidable True)
  | request :: requests =>
    have := decidableAlong condition (s.perform request).1 requests
    inferInstanceAs (Decidable (_ ∧ _))

theorem performAll_append (s : State P) (earlier later : List (Request P)) :
    s.performAll (earlier ++ later) = (s.performAll earlier).performAll later :=
  List.foldl_append

variable {condition : State P → Request P → Prop} {s : State P} {earlier : List (Request P)}

theorem Along.append {later : List (Request P)} (h : Along condition s (earlier ++ later)) :
    Along condition s earlier ∧ Along condition (s.performAll earlier) later := by
  induction earlier generalizing s with
  | nil => exact ⟨trivial, h⟩
  | cons _ _ ih =>
    obtain ⟨hearlier, hlater⟩ := ih h.2
    exact ⟨⟨h.1, hearlier⟩, hlater⟩

theorem Along.of_append {later : List (Request P)} (h : Along condition s earlier)
    (h' : Along condition (s.performAll earlier) later) : Along condition s (earlier ++ later) := by
  induction earlier generalizing s with
  | nil => exact h'
  | cons _ _ ih => exact ⟨h.1, ih h.2 h'⟩

theorem Along.imp {condition' : State P → Request P → Prop} {requests : List (Request P)}
    (h : Along condition s requests)
    (himp : ∀ s request, condition s request → condition' s request) :
    Along condition' s requests := by
  induction requests generalizing s with
  | nil => trivial
  | cons request _ ih => exact ⟨himp s request h.1, ih h.2⟩

/-- A scene on a target before its first operation. -/
def new (target : PresentationTarget P) : State P := { target }

end State

end Vivido.Scene
