import Mathlib.Logic.Relation
import Vivido.Scene.Integrity

/-!
What an operation does to one track. Every track after it is a fresh one or was
there before, and went through the works of the operation on it; a loop over a
surface's slots may come to a track more than once.
-/

namespace Vivido.Scene

open Relation SortedMap

variable {P : Protocol}

/-- A work of an operation on the track of an identity. -/
inductive Track.Work (key : TrackIdentity) : Request P → Track P → Track P → Prop where
  | suspend {session : SessionIdentity} (track : Track P)
      (h : key.surface.context.session = session) :
      Work key (.suspendSession session) track track.suspend
  | acceptChannel (track : Track P) (generation bytes records : ℕ) :
      Work key (.acceptChannel key generation bytes records) track
        (track.acceptChannel generation bytes records).1
  | acceptUplinkChannel (track : Track P) (generation : ℕ) :
      Work key (.acceptUplinkChannel key generation) track
        (track.acceptUplinkChannel generation).1
  | advanceChannel (track : Track P) :
      Work key (.advanceChannel key) track track.advanceChannel.1
  | setAudioGain (track : Track P) (gain : ℕ) :
      Work key (.setAudioGain key gain) track (track.setAudioGain gain).1
  | detachChannel (track : Track P) (generation : ℕ) :
      Work key (.detachChannel key generation) track (track.detachChannel generation).1
  | admitVectorAsset (track : Track P) (generation bodyLength sequence : ℕ) :
      Work key (.admitVectorAsset key generation bodyLength sequence) track
        (track.admitVectorAsset generation bodyLength sequence).1
  | admitMedia (track : Track P) (media : ReceivedMedia) (recordSequence : ℕ) :
      Work key (.admitMedia key media recordSequence) track
        (track.admitMedia media recordSequence).1
  | publishDecodedFrame (track : Track P) (generation : ℕ) (frame : Frame) :
      Work key (.publishDecodedFrame key generation frame) track
        (track.publishDecodedFrame generation frame).1
  | recordLateVideoDiscard (track : Track P) (frames : ℕ) (requestedKeyframe : Bool) :
      Work key (.recordLateVideoDiscard key frames requestedKeyframe) track
        (track.recordLateVideoDiscard frames requestedKeyframe).1
  | recordAudioRebase (track : Track P) :
      Work key (.recordAudioRebase key) track track.recordAudioRebase.1
  | loseTrack (track : Track P) (generation : ℕ) :
      Work key (.loseTrack key generation) track (track.loseTrack generation).1
  | markOutputReady (track : Track P) (generation : ℕ) :
      Work key (.markOutputReady key generation) track (track.markOutputReady generation).1
  | restart {identity : TrackIdentity} (track : Track P) (now : ℕ) (startPtsUs : ℤ)
      (synchronized : Bool) (hkey : key.surface = identity.surface) (h : track.isPlayable) :
      Work key (.configurePlayback now identity startPtsUs synchronized) track
        (track.restarted now startPtsUs synchronized).advanceRevision.1
  | release {identity : TrackIdentity} (track : Track P) (now : ℕ)
      (hkey : key.surface = identity.surface) (h : track.isPending = true) :
      Work key (.tryStartSynchronized now identity true) track
        (track.released now).advanceRevision.1
  | pause {identity : TrackIdentity} (track : Track P) (now : ℕ) (audioPts : Option ℤ)
      (hkey : key.surface = identity.surface) :
      Work key (.pausePlaybackAt now identity audioPts) track (track.pause now audioPts).1
  | flushPlayback (track : Track P) (newEpoch : ℕ) :
      Work key (.flushPlayback key newEpoch) track (track.flushPlayback newEpoch).1
  | markEos (track : Track P) (generation mediaEpoch sequence : ℕ) :
      Work key (.markEos key generation mediaEpoch sequence) track
        (track.markEos generation mediaEpoch sequence).1
  | markBufferedEnded (track : Track P) (generation : ℕ) :
      Work key (.markBufferedEnded key generation) track (track.markBufferedEnded generation).1
  | returnChannelCapacity (track : Track P) (generation bodyBytes records : ℕ) :
      Work key (.returnChannelCapacity key generation bodyBytes records) track
        (track.returnChannelCapacity generation bodyBytes records).1
  | markPresented {surfaceGeneration : ℕ} (track : Track P) (channelGeneration frameId : ℕ)
      (ptsUs : ℤ) :
      Work key (.markPresented key channelGeneration surfaceGeneration frameId ptsUs) track
        (track.markPresented channelGeneration frameId ptsUs).1

/-- The operation goes through the tracks of a surface. -/
def Request.isLoop : Request P → Bool
  | .configurePlayback _ _ _ _ | .tryStartSynchronized _ _ _ | .pausePlaybackAt _ _ _ => true
  | _ => false

namespace State

variable {s s' s'' : State P}

/-- Every track was there, and a relation leads to what it is now. -/
def Worked (came : TrackIdentity → Track P → Track P → Prop) (s s' : State P) : Prop :=
  ∀ key track', s'.tracks.lookup key = some track' →
    ∃ track, s.tracks.lookup key = some track ∧ came key track track'

variable {came : TrackIdentity → Track P → Track P → Prop}

namespace Worked

theorem of_tracks (hrefl : ∀ key track, came key track track) (h : s'.tracks = s.tracks) :
    Worked came s s' := by
  intro key track htrack
  exact ⟨track, h ▸ htrack, hrefl key track⟩

theorem trans (htrans : ∀ key (track track' track'' : Track P), came key track track' →
      came key track' track'' → came key track track'')
    (h : Worked came s s') (h' : Worked came s' s'') : Worked came s s'' := by
  intro key track'' htrack
  obtain ⟨track', htrack, hlater⟩ := h' key track'' htrack
  obtain ⟨track, htrack, hearlier⟩ := h key track' htrack
  exact ⟨track, htrack, htrans key _ _ _ hearlier hlater⟩

theorem congr (h : Worked came s s') (htracks : s''.tracks = s'.tracks) : Worked came s s'' := by
  intro key track htrack
  exact h key track (htracks ▸ htrack)

section

variable (hrefl : ∀ key track, came key track track)
include hrefl

/-- Some tracks may go. -/
theorem of_filter (keep : TrackIdentity × Track P → Bool) (h : s'.tracks = s.tracks.filter keep) :
    Worked came s s' := by
  intro key track htrack
  rw [h, lookup_filter, Option.filter_eq_some_iff] at htrack
  exact ⟨track, htrack.1, hrefl key track⟩

theorem setTrack {identity : TrackIdentity}
    {track track' : Track P} (htrack : s.tracks.lookup identity = some track)
    (h : came identity track track') : Worked came s (s.setTrack identity track') := by
  intro key other hother
  change (s.tracks.insert identity track').lookup key = some other at hother
  rw [lookup_insert] at hother
  split at hother
  · rename_i hkey
    cases hother
    subst hkey
    exact ⟨track, htrack, h⟩
  · exact ⟨other, hother, hrefl key other⟩

theorem onTrack {α : Type} (s : State P)
    (identity : TrackIdentity) (work : Track P → Track P × Except String α) (missing : String)
    (h : ∀ track : Track P, came identity track (work track).1) :
    Worked came s (s.onTrack identity work missing).1 := by
  unfold State.onTrack
  split
  · exact of_tracks hrefl rfl
  · rename_i track htrack
    exact setTrack hrefl htrack (h track)

end

end Worked

/-! ### The loops over the tracks of a surface -/

section Loops

variable (hrefl : ∀ key track, came key track track)
  (htrans : ∀ key (track track' track'' : Track P), came key track track' →
    came key track' track'' → came key track track'')

include hrefl htrans

theorem worked_restartAll (surface : SurfaceIdentity) (now : ℕ) (startPtsUs : ℤ)
    (synchronized : Bool) (h : ∀ key (track : Track P), key.surface = surface → track.isPlayable →
      came key track (track.restarted now startPtsUs synchronized).advanceRevision.1)
    (members : List TrackIdentity) (hmembers : ∀ key ∈ members, key.surface = surface)
    (s : State P) (started : Bool) :
    Worked came s (s.restartAll now startPtsUs synchronized started members).1 := by
  induction members generalizing s started with
  | nil => exact .of_tracks hrefl rfl
  | cons candidate rest ih =>
    obtain ⟨hcandidate, hrest⟩ := List.forall_mem_cons.mp hmembers
    unfold State.restartAll
    split
    · exact ih hrest s started
    rename_i track htrack
    split
    · rename_i hplayable
      have hset := Worked.setTrack hrefl htrack (h candidate track hcandidate hplayable)
      split
      · rename_i heq
        rw [heq] at hset
        exact hset
      · rename_i heq
        rw [heq] at hset
        exact hset.trans htrans (ih hrest _ true)
    · exact ih hrest s started

theorem worked_releaseAll (surface : SurfaceIdentity) (now : ℕ)
    (h : ∀ key (track : Track P), key.surface = surface → track.isPending = true →
      came key track (track.released now).advanceRevision.1)
    (members : List TrackIdentity) (hmembers : ∀ key ∈ members, key.surface = surface)
    (s : State P) : Worked came s (s.releaseAll now members) := by
  induction members generalizing s with
  | nil => exact .of_tracks hrefl rfl
  | cons candidate rest ih =>
    obtain ⟨hcandidate, hrest⟩ := List.forall_mem_cons.mp hmembers
    have hreleased : Worked came s (s.release now candidate) := by
      unfold State.release
      split
      · exact .of_tracks hrefl rfl
      · rename_i track htrack
        split
        · rename_i hpending
          exact .setTrack hrefl htrack (h candidate track hcandidate hpending)
        · exact .of_tracks hrefl rfl
    exact hreleased.trans htrans (ih hrest _)

theorem worked_pauseAll (surface : SurfaceIdentity) (now : ℕ) (audioPts : Option ℤ)
    (h : ∀ key (track : Track P), key.surface = surface →
      came key track (track.pause now audioPts).1)
    (members : List TrackIdentity) (hmembers : ∀ key ∈ members, key.surface = surface)
    (s : State P) : Worked came s (s.pauseAll now audioPts members).1 := by
  induction members generalizing s with
  | nil => exact .of_tracks hrefl rfl
  | cons candidate rest ih =>
    obtain ⟨hcandidate, hrest⟩ := List.forall_mem_cons.mp hmembers
    unfold State.pauseAll
    split
    · exact ih hrest s
    rename_i track htrack
    have hset := Worked.setTrack hrefl htrack (h candidate track hcandidate)
    split
    · rename_i heq
      rw [heq] at hset
      exact hset
    · rename_i heq
      rw [heq] at hset
      exact hset.trans htrans (ih hrest _)

end Loops

theorem surface_members {identity : SurfaceIdentity} {members : List TrackIdentity}
    (h : s.members identity = some members) : ∀ key ∈ members, key.surface = identity := by
  intro _ hkey
  unfold State.members at h
  obtain ⟨_, -, rfl⟩ := Option.map_eq_some_iff.mp h
  obtain ⟨_, -, hentry⟩ := List.mem_filterMap.mp hkey
  rw [SurfaceIdentity.track?_surface hentry]

/-! ### Operations that leave the tracks alone -/

theorem tracks_removeAnchors (s : State P) (removed : List AnchorIdentity) :
    (s.removeAnchors removed).tracks = s.tracks := by
  unfold State.removeAnchors
  split <;> rfl

theorem tracks_shifts {request : Request P} (h : Shifts request s s') : s'.tracks = s.tracks := by
  rcases h with rfl | ⟨_, _, _, rfl, -⟩
  · rfl
  · exact tracks_removeAnchors _ _

theorem tracks_stages (h : Stages s s') : s'.tracks = s.tracks := by
  rcases h with rfl | ⟨_, _, _, -, rfl⟩ <;> rfl

theorem tracks_registerSession (s : State P) (session : SessionIdentity) (targetGeneration : ℕ) :
    (s.registerSession session targetGeneration).1.tracks = s.tracks := by
  rcases s.registerSession_cases session targetGeneration with h | h | ⟨_, _, -, h⟩ <;>
    rw [h] <;> rfl

theorem tracks_addAnchor (s : State P) (identity : AnchorIdentity) (anchor : Vivid.TextAnchor) :
    (s.addAnchor identity anchor).1.tracks = s.tracks := by
  unfold State.addAnchor
  dsimp only
  split <;> rfl

theorem tracks_commitTransaction (s : State P) (context : ContextIdentity)
    (transactionId expectedTarget : ℕ) (expectedRevision : Option ℕ) :
    (s.commitTransaction context transactionId expectedTarget expectedRevision).1.tracks =
      s.tracks := by
  rcases commitTransaction_cases s context transactionId expectedTarget expectedRevision with
    h | ⟨_, _, _, -, -, -, h⟩ <;> rw [h] <;> rfl

/-! ### Operations that take tracks away, or add one -/

section Removals

variable (hrefl : ∀ key track, came key track track)

include hrefl

theorem worked_removeSession (s : State P) (session : SessionIdentity) :
    Worked came s (s.removeSession session) :=
  .of_filter hrefl (fun entry => entry.1.surface.context.session ≠ session) rfl

variable (s : State P) (session : SessionIdentity)

theorem worked_detachSession : Worked came s (s.detachSession session) := by
  unfold State.detachSession
  dsimp only
  split
  · exact .of_tracks hrefl rfl
  · exact .of_filter hrefl (fun entry => entry.1.surface.context.session ≠ session) rfl

theorem worked_removeContexts (contexts : List ℕ) :
    Worked came s (s.removeContexts session contexts) := by
  refine .of_filter hrefl (fun entry => ¬ entry.1.surface.context.isOf session contexts) ?_
  unfold State.removeContexts
  dsimp only
  split <;> rfl

theorem worked_destroySurface (identity : SurfaceIdentity) :
    Worked came s (s.destroySurface identity).1 := by
  rcases s.destroySurface_cases identity with h | h | ⟨_, _, -, h⟩
  all_goals rw [h]
  · exact .of_tracks hrefl rfl
  all_goals exact .of_filter hrefl (fun entry => entry.1.surface ≠ identity) rfl

theorem worked_destroyTrack (identity : TrackIdentity) :
    Worked came s (s.destroyTrack identity).1 := by
  unfold State.destroyTrack
  dsimp only
  split
  · exact .of_tracks hrefl rfl
  refine .of_filter hrefl (fun entry => entry.1 ≠ identity) ?_
  split
  · rfl
  · split
    · split <;> rfl
    · rfl

theorem worked_suspendSession (h : ∀ key (track : Track P), key.surface.context.session = session →
      came key track track.suspend) : Worked came s (s.suspendSession session) := by
  unfold State.suspendSession
  dsimp only
  split
  · exact .of_tracks hrefl rfl
  intro key _ htrack
  dsimp only at htrack
  rw [lookup_mapValues] at htrack
  obtain ⟨track, hold, rfl⟩ := Option.map_eq_some_iff.mp htrack
  refine ⟨track, hold, ?_⟩
  split
  · rename_i hsession
    exact h key track hsession
  · exact hrefl key track

end Removals

theorem createTrack_cases (s : State P) (identity : TrackIdentity)
    (configuration : TrackConfiguration) {key : TrackIdentity} {track' : Track P}
    (h : (s.createTrack identity configuration).1.tracks.lookup key = some track') :
    s.tracks.lookup key = some track' ∨
      key = identity ∧ s.tracks.lookup key = none ∧ track' = .fresh configuration := by
  unfold State.createTrack at h
  split at h
  · exact Or.inl h
  dsimp only at h
  split at h
  · exact Or.inl h
  split at h
  · exact Or.inl h
  rename_i hnew
  change (s.tracks.insert identity (.fresh configuration)).lookup key = _ at h
  rw [lookup_insert] at h
  split at h
  · rename_i hkey
    cases h
    refine Or.inr ⟨hkey, ?_, rfl⟩
    rw [hkey]
    exact Option.not_isSome_iff_eq_none.mp hnew
  · exact Or.inl h

/-- No operation but a creation makes a track, and it works on the others as it says. Only a loop
works on a track more than once. -/
theorem worked_perform (s : State P) (request : Request P)
    (hcreate : ∀ identity configuration, request ≠ .createTrack identity configuration)
    (hrefl : ∀ key track, came key track track)
    (hwork : ∀ key (track track' : Track P), Track.Work key request track track' →
      came key track track')
    (htrans : request.isLoop = true → ∀ key (track track' track'' : Track P),
      came key track track' → came key track' track'' → came key track track'') :
    Worked came s (s.perform request).1 := by
  cases request with
  | registerSession session targetGeneration =>
    exact .of_tracks hrefl (tracks_registerSession s session targetGeneration)
  | advanceTargetGeneration | snapshot => exact .of_tracks hrefl rfl
  | removeSession session => exact worked_removeSession hrefl s session
  | suspendSession session =>
    exact worked_suspendSession hrefl s session fun key track h => hwork _ _ _ (.suspend track h)
  | detachSession session => exact worked_detachSession hrefl s session
  | removeContexts session contexts => exact worked_removeContexts hrefl s session contexts
  | addAnchor identity anchor => exact .of_tracks hrefl (tracks_addAnchor s identity anchor)
  | createSurface =>
    exact .of_tracks hrefl (resurfaces_createSurface s _ _).tracks
  | updateSurface =>
    exact .of_tracks hrefl (resurfaces_updateSurface s _ _ _ _).tracks
  | destroySurface identity => exact worked_destroySurface hrefl s identity
  | createTrack identity configuration => exact absurd rfl (hcreate identity configuration)
  | destroyTrack identity => exact worked_destroyTrack hrefl s identity
  | activateTracks =>
    exact .of_tracks hrefl (resurfaces_activateTracks s _ _ _).tracks
  | acceptChannel identity generation bytes records =>
    change Worked _ s (s.acceptChannel identity generation bytes records).1
    unfold State.acceptChannel
    split
    · exact .of_tracks hrefl rfl
    · exact .onTrack hrefl s identity _ _ fun track =>
        hwork _ _ _ (.acceptChannel track generation bytes records)
  | acceptUplinkChannel identity generation =>
    exact .onTrack hrefl s identity _ _ fun track =>
      hwork _ _ _ (.acceptUplinkChannel track generation)
  | advanceChannel identity =>
    exact .onTrack hrefl s.invalidateTopology identity _ _ fun track =>
      hwork _ _ _ (.advanceChannel track)
  | setAudioGain identity gain =>
    exact .onTrack hrefl s identity _ _ fun track => hwork _ _ _ (.setAudioGain track gain)
  | detachChannel identity generation =>
    exact .onTrack hrefl s.invalidateTopology identity _ _ fun track =>
      hwork _ _ _ (.detachChannel track generation)
  | admitVectorAsset identity generation bodyLength sequence =>
    exact .onTrack hrefl s identity _ _ fun track =>
      hwork _ _ _ (.admitVectorAsset track generation bodyLength sequence)
  | admitMedia identity media recordSequence =>
    change Worked _ s (s.admitMedia identity media recordSequence).1
    unfold State.admitMedia
    split
    · exact .of_tracks hrefl rfl
    · exact .onTrack hrefl s identity _ _ fun track =>
        hwork _ _ _ (.admitMedia track media recordSequence)
  | publishDecodedFrame identity generation frame =>
    change Worked _ s (s.publishDecodedFrame identity generation frame).1
    unfold State.publishDecodedFrame
    split
    · exact .of_tracks hrefl rfl
    have hworked : Worked came s
        (s.onTrack identity (·.publishDecodedFrame generation frame)).1 :=
      .onTrack hrefl s identity _ _ fun track =>
        hwork _ _ _ (.publishDecodedFrame track generation frame)
    split
    · rename_i heq
      rw [heq] at hworked
      exact hworked
    · rename_i heq
      rw [heq] at hworked
      refine hworked.congr ?_
      dsimp only
      split <;> rfl
  | recordLateVideoDiscard identity frames requestedKeyframe =>
    exact .onTrack hrefl s identity _ _ fun track =>
      hwork _ _ _ (.recordLateVideoDiscard track frames requestedKeyframe)
  | recordAudioRebase identity =>
    exact .onTrack hrefl s identity _ _ fun track => hwork _ _ _ (.recordAudioRebase track)
  | loseTrack identity generation =>
    exact .onTrack hrefl s.invalidateTopology identity _ _ fun track =>
      hwork _ _ _ (.loseTrack track generation)
  | markOutputReady identity generation =>
    exact .onTrack hrefl s identity _ _ fun track =>
      hwork _ _ _ (.markOutputReady track generation)
  | configurePlayback now identity startPtsUs synchronized =>
    change Worked _ s (s.configurePlayback now identity startPtsUs synchronized).1
    unfold State.configurePlayback
    split
    · exact .of_tracks hrefl rfl
    split
    · exact .of_tracks hrefl rfl
    split
    · exact .of_tracks hrefl rfl
    · rename_i members hmembers
      exact worked_restartAll hrefl (htrans rfl) identity.surface now startPtsUs synchronized
        (fun key track hkey h =>
          hwork _ _ _ (.restart track now startPtsUs synchronized hkey h))
        members (surface_members hmembers) s false
  | tryStartSynchronized now identity audioReady =>
    change Worked _ s (s.tryStartSynchronized now identity audioReady).1
    unfold State.tryStartSynchronized
    split
    · exact .of_tracks hrefl rfl
    rename_i hready
    obtain rfl : audioReady = true := not_not.mp hready
    split
    · exact .of_tracks hrefl rfl
    rename_i members hmembers
    dsimp only
    split
    · exact .of_tracks hrefl rfl
    · split
      · exact .of_tracks hrefl rfl
      · exact worked_releaseAll hrefl (htrans rfl) identity.surface now
          (fun key track hkey h => hwork _ _ _ (.release track now hkey h))
          members (surface_members hmembers) s
  | pausePlaybackAt now identity audioPts =>
    change Worked _ s (s.pausePlaybackAt now identity audioPts).1
    unfold State.pausePlaybackAt
    split
    · exact .of_tracks hrefl rfl
    · refine worked_pauseAll hrefl (htrans rfl) identity.surface now audioPts
        (fun key track hkey => hwork _ _ _ (.pause track now audioPts hkey)) _ ?_ s
      intro _ hkey
      exact of_decide_eq_true (List.mem_filter.mp hkey).2
  | flushPlayback identity newEpoch =>
    exact .onTrack hrefl s.invalidateTopology identity _ _ fun track =>
      hwork _ _ _ (.flushPlayback track newEpoch)
  | markEos identity generation mediaEpoch sequence =>
    exact .onTrack hrefl s identity _ _ fun track =>
      hwork _ _ _ (.markEos track generation mediaEpoch sequence)
  | markBufferedEnded identity generation =>
    exact .onTrack hrefl s identity _ _ fun track =>
      hwork _ _ _ (.markBufferedEnded track generation)
  | returnChannelCapacity identity generation bodyBytes records =>
    exact .onTrack hrefl s identity _ _ fun track =>
      hwork _ _ _ (.returnChannelCapacity track generation bodyBytes records)
  | beginTransaction | queueMutation | abortTransaction =>
    exact .of_tracks hrefl (tracks_stages (stages_perform s _ rfl))
  | commitTransaction context transactionId expectedTarget expectedRevision =>
    exact .of_tracks hrefl (tracks_commitTransaction s context transactionId expectedTarget
      expectedRevision)
  | markPresented identity channelGeneration surfaceGeneration frameId ptsUs =>
    change Worked _ s
      (s.markPresented identity channelGeneration surfaceGeneration frameId ptsUs).1
    unfold State.markPresented
    split
    · exact .of_tracks hrefl rfl
    split
    · exact .of_tracks hrefl rfl
    · split
      · exact .of_tracks hrefl rfl
      · rename_i track htrack
        exact .setTrack hrefl htrack
          (hwork _ _ _ (.markPresented track channelGeneration frameId ptsUs))
  | _ => exact .of_tracks hrefl (tracks_shifts (shifts_perform s _ rfl))

theorem track_perform (s : State P) (request : Request P) {key : TrackIdentity}
    {track' : Track P} (h : (s.perform request).1.tracks.lookup key = some track') :
    (∃ track, s.tracks.lookup key = some track ∧
        ReflTransGen (Track.Work key request) track track' ∧
          (request.isLoop = false → ReflGen (Track.Work key request) track track')) ∨
      ∃ configuration, request = .createTrack key configuration ∧
        s.tracks.lookup key = none ∧ track' = .fresh configuration := by
  by_cases hcreate : ∃ identity configuration, request = .createTrack identity configuration
  · obtain ⟨identity, configuration, rfl⟩ := hcreate
    rcases createTrack_cases s identity configuration h with h | ⟨rfl, hnew, rfl⟩
    · exact Or.inl ⟨track', h, .refl, fun _ => .refl⟩
    · exact Or.inr ⟨configuration, rfl, hnew, rfl⟩
  · left
    have hcreate' : ∀ identity configuration, request ≠ .createTrack identity configuration :=
      fun identity configuration heq => hcreate ⟨identity, configuration, heq⟩
    obtain ⟨track, htrack, hworks⟩ := worked_perform s request hcreate'
      (fun _ _ => ReflTransGen.refl) (fun key _ _ h => ReflTransGen.single h)
      (fun _ key _ _ _ h h' => h.trans h') key track' h
    refine ⟨track, htrack, hworks, fun hloop => ?_⟩
    obtain ⟨_, hsingle, hwork⟩ := worked_perform s request hcreate'
      (fun _ _ => ReflGen.refl) (fun key _ _ h => ReflGen.single h)
      (fun hloop' => by rw [hloop] at hloop'; cases hloop') key track' h
    rw [htrack] at hsingle
    cases hsingle
    exact hwork

end State

end Vivido.Scene
