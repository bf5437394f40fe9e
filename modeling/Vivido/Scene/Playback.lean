import Vivido.Scene.State

/-!
The clocks of a surface's active timed tracks. A synchronized PLAY leaves them
pending, and they are released together once every one of them has output.
-/

namespace Vivido.Scene

variable {P : Protocol}

namespace Track

variable (track : Track P)

/-- The clock waits for the other members of its group. -/
def isPending : Bool := track.playback.any (·.synchronizedPending)

/-- What PLAY writes to a track before its revision advances. -/
def restarted (now : ℕ) (startPtsUs : ℤ) (synchronized : Bool) : Track P :=
  let clock := PlaybackClock.started now startPtsUs track.state.mediaEpoch
  if synchronized then
    { track with
      playback := some { clock with startedAt := none, synchronizedPending := true }
      state := { track.state with
        milestones := track.state.milestones.erase .clockStarted } }
  else ({ track with playback := some clock } : Track P).reach .clockStarted

/-- The track is one that PLAY starts. -/
def isPlayable : Prop := track.configuration.mode = .timed ∧ track.lifecycle = 1

instance : Decidable track.isPlayable := inferInstanceAs (Decidable (_ ∧ _))

/-- A member's pending start is of another epoch, or lacks its first picture. -/
def holdsBack : Bool :=
  track.playback.any fun clock =>
    clock.synchronizedPending &&
      (clock.startMediaEpoch != track.state.mediaEpoch ||
        (track.configuration.kind == .video &&
          track.frame.all (·.ptsUs < clock.startPtsUs) &&
          .bufferedEnded ∉ track.state.milestones))

/-- A pending member's clock starts. -/
def released (now : ℕ) : Track P :=
  ({ track with
      playback := track.playback.map
        ({ · with synchronizedPending := false, startedAt := some now }) } : Track P).reach
    .clockStarted

/-- What PAUSE writes to a track before its revision advances. -/
def halted (now : ℕ) (audioPts : Option ℤ) : Track P :=
  { track with
    playback := track.playback.map fun clock =>
      match clock.startedAt with
      | none => { clock with synchronizedPending := false }
      | some started =>
        { clock with
          synchronizedPending := false
          startedAt := none
          playedBeforePause := clock.playedBeforePause + (now - started)
          pausedPtsUs := audioPts.or clock.pausedPtsUs } }

/-- PAUSE; only a running clock moves the revision. -/
def pause (now : ℕ) (audioPts : Option ℤ) : Track P × Except String Unit :=
  if track.playback.any (·.startedAt.isSome) then (track.halted now audioPts).advanceRevision
  else (track.halted now audioPts, .ok ())

end Track

namespace State

/-- The tracks in the surface's slots. -/
def members (s : State P) (identity : SurfaceIdentity) : Option (List TrackIdentity) :=
  (s.surfaces.lookup identity).map fun surface =>
    surface.activeSlots.entries.filterMap fun entry => identity.track? P entry.2

/-- PLAY over the members, one after the other. -/
def restartAll (now : ℕ) (startPtsUs : ℤ) (synchronized : Bool) :
    State P → Bool → List TrackIdentity → State P × Except String Unit
  | s, started, [] =>
    (s, if started then .ok () else .error "PLAY surface has no active timed tracks")
  | s, started, candidate :: rest =>
    match s.tracks.lookup candidate with
    | none => restartAll now startPtsUs synchronized s started rest
    | some track =>
      if track.isPlayable then
        match (track.restarted now startPtsUs synchronized).advanceRevision with
        | (track, .error reason) => (s.setTrack candidate track, .error reason)
        | (track, .ok ()) =>
          restartAll now startPtsUs synchronized (s.setTrack candidate track) true rest
      else restartAll now startPtsUs synchronized s started rest

variable (s : State P)

/-- Release a member, if it is pending. -/
def release (now : ℕ) (id : TrackIdentity) : State P :=
  match s.tracks.lookup id with
  | none => s
  | some track =>
    if track.isPending then s.setTrack id (track.released now).advanceRevision.1 else s

def releaseAll (now : ℕ) (members : List TrackIdentity) : State P :=
  members.foldl (·.release now) s

def configurePlayback (now : ℕ) (identity : TrackIdentity) (startPtsUs : ℤ)
    (synchronized : Bool) : State P × Except String Unit :=
  match s.tracks.lookup identity with
  | none => (s, .error "track does not exist")
  | some leader =>
    if ¬ leader.isPlayable then (s, .error "PLAY requires a live timed track")
    else match s.members identity.surface with
    | none => (s, .error "surface does not exist")
    | some active => s.restartAll now startPtsUs synchronized false active

/-- Release the pending members of a surface, once none holds the others back. -/
def tryStartSynchronized (now : ℕ) (identity : TrackIdentity) (audioReady : Bool) :
    State P × Bool :=
  if ¬ audioReady then (s, false)
  else match s.members identity.surface with
  | none => (s, false)
  | some members =>
    let tracks := members.filterMap s.tracks.lookup
    if ¬ tracks.any (·.isPending) ∨ tracks.any (·.holdsBack) then (s, false)
    else if tracks.any fun track =>
        track.isPending && (P.advance track.state.revision).isNone then (s, false)
    else (s.releaseAll now members, true)

/-- PAUSE over the tracks, one after the other. -/
def pauseAll (now : ℕ) (audioPts : Option ℤ) :
    State P → List TrackIdentity → State P × Except String Unit
  | s, [] => (s, .ok ())
  | s, candidate :: rest =>
    match s.tracks.lookup candidate with
    | none => pauseAll now audioPts s rest
    | some track =>
      match track.pause now audioPts with
      | (track, .error reason) => (s.setTrack candidate track, .error reason)
      | (track, .ok ()) => pauseAll now audioPts (s.setTrack candidate track) rest

def pausePlaybackAt (now : ℕ) (identity : TrackIdentity) (audioPts : Option ℤ) :
    State P × Except String Unit :=
  if (s.tracks.lookup identity).isNone then (s, .error "track does not exist")
  else
    s.pauseAll now audioPts
      ((s.tracks.entries.map Prod.fst).filter fun candidate =>
        candidate.surface = identity.surface)

end State

end Vivido.Scene
