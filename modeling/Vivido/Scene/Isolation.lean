import Vivido.Scene.Caching
import Vivido.Scene.Works
import Vivido.Support.Since

/-!
Late events. A decoder, a reader or the renderer reports to a track by the
generation of its channel, and a track may have moved on or been lost. What
such a report may still change, and what the presented milestone of a track
says of the run that led to it.
-/

namespace Vivido.Scene

open Relation

variable {P : Protocol}

/-- A presented track was presented before, in the same generation. -/
def TrackState.Carried (before after : TrackState P.Ingress) : Prop :=
  .presented ∈ after.milestones →
    .presented ∈ before.milestones ∧ after.channelGeneration = before.channelGeneration

/-- The library reports no presentation of its own, and starts a generation without one. -/
structure Protocol.CarriesPresented (P : Protocol) : Prop where
  newTrack : .presented ∉ P.newTrack.milestones
  acceptChannel : ∀ state generation bytes records body,
    TrackState.Carried (P := P) state
      (P.acceptChannel state generation bytes records body).1
  advanceChannel : ∀ state current next,
    TrackState.Carried (P := P) state (P.advanceChannel state current next).1
  admitMedia : ∀ state media, TrackState.Carried (P := P) state (P.admitMedia state media).1
  detach : ∀ state, TrackState.Carried (P := P) state (P.detach state).1
  lose : ∀ state, TrackState.Carried (P := P) state (P.lose state).1

def Request.reported : Request P → Option TrackIdentity
  | .publishDecodedFrame identity _ _ | .markOutputReady identity _ | .markEos identity _ _ _
  | .markBufferedEnded identity _ | .markPresented identity _ _ _ _ => some identity
  | _ => none

namespace Track

variable (track : Track P)

/-- A report names another channel generation or media epoch than those of the track. -/
def NamedOtherwise : Request P → Prop
  | .publishDecodedFrame _ generation _ | .markOutputReady _ generation
  | .markBufferedEnded _ generation | .markPresented _ generation _ _ _ =>
    track.state.channelGeneration ≠ generation
  | .markEos _ generation mediaEpoch _ =>
    track.state.channelGeneration ≠ generation ∨ track.state.mediaEpoch ≠ mediaEpoch
  | _ => False

/-- What a late report must not change. -/
def standing : Finset Milestone × Option PlaybackClock × Option ℤ × ℕ :=
  (track.state.milestones, track.playback, track.lastPresentedPtsUs, track.lastPresentationId)

theorem standing_advanceRevision : track.advanceRevision.1.standing = track.standing := by
  unfold advanceRevision
  split <;> rfl

/-- A report that is still due and would change what a track stands for. -/
def Overlooked : Request P → Prop
  | .markEos _ generation mediaEpoch sequence =>
    track.state.channelGeneration = generation ∧ track.state.mediaEpoch = mediaEpoch ∧
      track.lastMediaRecordSequence = sequence ∧
        (.eosAccepted ∉ track.state.milestones ∨ track.playback.any (!·.eos) = true)
  | .markBufferedEnded _ generation =>
    track.state.channelGeneration = generation ∧
      (.eosAccepted ∉ track.state.milestones ∨ .bufferedEnded ∉ track.state.milestones)
  | .markPresented _ generation _ frameId ptsUs =>
    track.state.channelGeneration = generation ∧
      track.frame.any (·.frameId = frameId) = true ∧
        (track.lastPresentedPtsUs ≠ some ptsUs ∨ track.lastPresentationId < u64Max)
  | _ => False

theorem standing_markEos (generation mediaEpoch sequence : ℕ) {identity : TrackIdentity} :
    (track.markEos generation mediaEpoch sequence).1.standing = track.standing ↔
      ¬ track.Overlooked (.markEos identity generation mediaEpoch sequence) := by
  unfold markEos
  split
  · rename_i hstale
    refine iff_of_true rfl ?_
    rintro ⟨hgeneration, hepoch, hsequence, -⟩
    rcases hstale with h | h | h
    · exact h hgeneration
    · exact h hepoch
    · exact h hsequence
  · rename_i hdue
    rw [not_or, not_or, not_not, not_not, not_not] at hdue
    obtain ⟨hgeneration, hepoch, hsequence⟩ := hdue
    rw [standing_advanceRevision]
    have hclock : track.playback.map ({ · with eos := true }) = track.playback ↔
        ¬ track.playback.any (!·.eos) = true := by
      cases hplayback : track.playback with
      | none => simp
      | some clock =>
        rcases clock with ⟨_, _, _, _, _, _, eos⟩
        cases eos <;> simp
    have hstanding : (({ track with playback := track.playback.map ({ · with eos := true }) } :
        Track P).reach .eosAccepted).standing = track.standing ↔
          .eosAccepted ∈ track.state.milestones ∧
            track.playback.map ({ · with eos := true }) = track.playback := by
      unfold standing reach
      rw [Prod.mk.injEq, Prod.mk.injEq, Finset.insert_eq_self]
      simp
    rw [hstanding, hclock]
    constructor
    · rintro ⟨hreached, hended⟩ ⟨-, -, -, h | h⟩
      · exact h hreached
      · exact hended h
    · intro h
      by_contra hnot
      refine h ⟨hgeneration, hepoch, hsequence, ?_⟩
      by_cases hreached : .eosAccepted ∈ track.state.milestones
      · exact Or.inr (not_not.mp fun hended => hnot ⟨hreached, hended⟩)
      · exact Or.inl hreached

theorem standing_markBufferedEnded (generation : ℕ) {identity : TrackIdentity} :
    (track.markBufferedEnded generation).1.standing = track.standing ↔
      ¬ track.Overlooked (.markBufferedEnded identity generation) := by
  unfold markBufferedEnded
  split
  · rename_i hstale
    exact iff_of_true rfl fun h => hstale h.1
  rename_i hgeneration
  rw [standing_advanceRevision]
  have hstanding : ((track.reach .eosAccepted).reach .bufferedEnded).standing =
      track.standing ↔
        .eosAccepted ∈ track.state.milestones ∧ .bufferedEnded ∈ track.state.milestones := by
    unfold standing reach
    rw [Prod.mk.injEq]
    refine (and_iff_left rfl).trans ⟨fun h => ?_, fun h => ?_⟩
    · exact ⟨h ▸ by simp, h ▸ by simp⟩
    · rw [Finset.insert_eq_self.mpr h.1, Finset.insert_eq_self.mpr h.2]
  rw [hstanding]
  unfold Overlooked
  rw [not_and_or, not_or, not_not, not_not]
  exact ⟨Or.inr, fun h => h.resolve_left fun hother => hother (not_not.mp hgeneration)⟩

theorem standing_markPresented (generation frameId : ℕ) (ptsUs : ℤ) {identity : TrackIdentity}
    {surfaceGeneration : ℕ} :
    (track.markPresented generation frameId ptsUs).1.standing = track.standing ↔
      ¬ track.Overlooked (.markPresented identity generation surfaceGeneration frameId ptsUs) := by
  unfold markPresented
  have hframe : track.frame.all (·.frameId ≠ frameId) = true ↔
      ¬ track.frame.any (·.frameId = frameId) = true := by
    cases track.frame <;> simp
  split
  · rename_i hstale
    refine iff_of_true rfl ?_
    rintro ⟨hgeneration, hholds, -⟩
    rcases hstale with h | h
    · exact h hgeneration
    · exact hframe.mp h hholds
  · rename_i hdue
    rw [not_or, not_not, hframe, not_not] at hdue
    dsimp only
    split
    · rename_i hexhausted
      have hstanding : ({ track with lastPresentedPtsUs := some ptsUs } : Track P).standing =
          track.standing ↔ track.lastPresentedPtsUs = some ptsUs := by
        unfold standing
        simp [eq_comm]
      rw [hstanding]
      constructor
      · rintro heq ⟨-, -, h | h⟩
        · exact h heq
        · omega
      · intro h
        by_contra hnot
        exact h ⟨hdue.1, hdue.2, Or.inl hnot⟩
    · rename_i hroom
      have hwritten : ∀ presented : Track P, presented.lastPresentationId =
          track.lastPresentationId + 1 → presented.standing ≠ track.standing := by
        intro presented _ heq
        have hid := congrArg (·.2.2.2) heq
        change presented.lastPresentationId = track.lastPresentationId at hid
        omega
      refine iff_of_false ?_ (not_not.mpr ⟨hdue.1, hdue.2, Or.inr (by omega)⟩)
      split
      all_goals
        rename_i heq
        rw [← congrArg Prod.fst heq, standing_advanceRevision]
        exact hwritten _ rfl

end Track

namespace State

variable {s : State P}

/-- A report comes late: its track moved on since, or was lost. -/
def Late (s : State P) (event : Request P) : Prop :=
  ∃ identity track, event.reported = some identity ∧ s.tracks.lookup identity = some track ∧
    (track.NamedOtherwise event ∨ track.lifecycle = 6)

/-- A report leaves its track's milestones, clock and last presentation alone. -/
def Isolated (s : State P) (event : Request P) : Prop :=
  ∀ identity, event.reported = some identity →
    ((s.perform event).1.tracks.lookup identity).map Track.standing =
      (s.tracks.lookup identity).map Track.standing

/-- A presentation is reported for the surface's generation. -/
def OnSurface (s : State P) (identity : TrackIdentity) : Request P → Prop
  | .markPresented _ _ surfaceGeneration _ _ =>
    ∃ surface, s.surfaces.lookup identity.surface = some surface ∧
      surface.generation = surfaceGeneration
  | _ => True

/-- A lost track takes a report that names its last channel, and what it waits for. -/
def Overlooks (s : State P) (event : Request P) : Prop :=
  ∃ identity track, event.reported = some identity ∧ s.tracks.lookup identity = some track ∧
    track.lifecycle = 6 ∧ track.Overlooked event ∧ s.OnSurface identity event

theorem lookup_onTrack {α : Type} {identity : TrackIdentity} {track : Track P}
    {work : Track P → Track P × Except String α} {missing : String}
    (h : s.tracks.lookup identity = some track) :
    (s.onTrack identity work missing).1.tracks.lookup identity = some (work track).1 := by
  unfold State.onTrack
  rw [h]
  exact SortedMap.lookup_insert_self

theorem isolated_of_track (event : Request P) {identity : TrackIdentity} {track track' : Track P}
    (hevent : event.reported = some identity) (htrack : s.tracks.lookup identity = some track)
    (htrack' : (s.perform event).1.tracks.lookup identity = some track') :
    s.Isolated event ↔ track'.standing = track.standing := by
  unfold Isolated
  rw [hevent]
  constructor
  · intro h
    have hsame := h identity rfl
    rw [htrack, htrack'] at hsame
    exact Option.some_inj.mp hsame
  · rintro h _ ⟨⟩
    rw [htrack, htrack', Option.map_some, Option.map_some, h]

/-- A late report spares its track unless a lost track overlooks it. -/
theorem isolated_iff {event : Request P} (hlate : s.Late event) :
    s.Isolated event ↔ ¬ s.Overlooks event := by
  obtain ⟨identity, track, hevent, htrack, hlate⟩ := hlate
  have hoverlooks : s.Overlooks event ↔
      track.lifecycle = 6 ∧ track.Overlooked event ∧ s.OnSurface identity event := by
    constructor
    · rintro ⟨_, _, hevent', htrack', h⟩
      rw [hevent] at hevent'
      cases hevent'
      rw [htrack] at htrack'
      cases htrack'
      exact h
    · exact fun h => ⟨identity, track, hevent, htrack, h⟩
  rw [hoverlooks]
  have hcurrent : ∀ generation, track.state.channelGeneration ≠ generation ∨
      track.lifecycle = 6 → ¬ track.isCurrent generation := by
    rintro generation (h | h) hcurrent
    · exact h hcurrent.1
    · have := h.symm.trans hcurrent.2
      omega
  cases event with
  | publishDecodedFrame _ generation frame =>
    cases hevent
    refine iff_of_true ?_ fun h => h.2.1
    rintro _ ⟨⟩
    change ((s.publishDecodedFrame identity generation frame).1.tracks.lookup identity).map _ = _
    unfold State.publishDecodedFrame
    split
    · rfl
    have hrejected : track.publishDecodedFrame generation frame =
        (track, .error "stale channel generation") := by
      unfold Track.publishDecodedFrame
      rw [if_pos (hcurrent generation hlate)]
    have hwork : s.onTrack identity (·.publishDecodedFrame generation frame) =
        (s.setTrack identity track, .error "stale channel generation") := by
      unfold State.onTrack
      rw [htrack]
      dsimp only
      rw [hrejected]
    rw [hwork]
    change ((s.tracks.insert identity track).lookup identity).map _ = _
    rw [SortedMap.lookup_insert_self, htrack]
  | markOutputReady _ generation =>
    cases hevent
    refine iff_of_true ?_ fun h => h.2.1
    refine (isolated_of_track (.markOutputReady identity generation) rfl htrack
      (lookup_onTrack htrack)).mpr ?_
    unfold Track.markOutputReady
    rw [if_pos (hcurrent generation hlate)]
  | markEos _ generation mediaEpoch sequence =>
    cases hevent
    rw [isolated_of_track (.markEos identity generation mediaEpoch sequence) rfl htrack
      (lookup_onTrack htrack), track.standing_markEos generation mediaEpoch sequence]
    refine not_congr ⟨fun h => ⟨?_, h, trivial⟩, fun h => h.2.1⟩
    refine hlate.resolve_left ?_
    rintro (hother | hother)
    · exact hother h.1
    · exact hother h.2.1
  | markBufferedEnded _ generation =>
    cases hevent
    rw [isolated_of_track (.markBufferedEnded identity generation) rfl htrack
      (lookup_onTrack htrack), track.standing_markBufferedEnded generation]
    exact not_congr ⟨fun h => ⟨hlate.resolve_left fun hother => hother h.1, h, trivial⟩,
      fun h => h.2.1⟩
  | markPresented _ generation surfaceGeneration frameId ptsUs =>
    cases hevent
    have hperform : (s.perform (.markPresented identity generation surfaceGeneration frameId
        ptsUs)).1 = (s.markPresented identity generation surfaceGeneration frameId ptsUs).1 := rfl
    by_cases hsurface : ∃ surface, s.surfaces.lookup identity.surface = some surface ∧
        surface.generation = surfaceGeneration
    · have htrack' : (s.perform (.markPresented identity generation surfaceGeneration frameId
          ptsUs)).1.tracks.lookup identity =
            some (track.markPresented generation frameId ptsUs).1 := by
        obtain ⟨surface, hsurface, hgeneration⟩ := hsurface
        rw [hperform]
        unfold State.markPresented
        rw [hsurface]
        dsimp only
        rw [if_neg (not_not.mpr hgeneration), htrack]
        exact SortedMap.lookup_insert_self
      rw [isolated_of_track _ rfl htrack htrack',
        track.standing_markPresented generation frameId ptsUs]
      exact not_congr ⟨fun h => ⟨hlate.resolve_left fun hother => hother h.1, h, hsurface⟩,
        fun h => h.2.1⟩
    · refine iff_of_true ?_ fun h => hsurface h.2.2
      have hsame : (s.perform (.markPresented identity generation surfaceGeneration frameId
          ptsUs)).1 = s := by
        rw [hperform]
        unfold State.markPresented
        split
        · rfl
        · rename_i surface hlookup
          rw [if_pos fun hgeneration => hsurface ⟨surface, hlookup, hgeneration⟩]
      refine (isolated_of_track _ rfl htrack ?_).mpr rfl
      rw [hsame]
      exact htrack
  | _ => cases hevent

end State

/-! ### The presented milestone -/

namespace TrackState

theorem carried_refl (state : TrackState P.Ingress) : Carried (P := P) state state :=
  fun h => ⟨h, rfl⟩

end TrackState

namespace Track

/-- The track's state carries the presented milestone along. -/
def Carries (track track' : Track P) : Prop :=
  TrackState.Carried (P := P) track.state track'.state

variable (track : Track P)

theorem carries_refl : track.Carries track := TrackState.carried_refl track.state

variable {track}

theorem Carries.advance {written : Track P} (h : track.Carries written) :
    track.Carries written.advanceRevision.1 := by
  unfold advanceRevision
  split <;> exact h

theorem carries_of_state {track' : Track P} (h : track'.state = track.state) :
    track.Carries track' := fun hpresented => ⟨h ▸ hpresented, by rw [h]⟩

theorem Carries.reach {written : Track P} {milestone : Milestone} (h : track.Carries written)
    (hmilestone : milestone ≠ .presented) : track.Carries (written.reach milestone) := by
  intro hpresented
  exact h ((Finset.mem_insert.mp hpresented).resolve_left hmilestone.symm)

variable (track)

/-- The renderer's report of the frame that the track holds. -/
def Presents (key : TrackIdentity) : Request P → Prop
  | .markPresented identity generation _ frameId _ =>
    identity = key ∧ track.state.channelGeneration = generation ∧
      track.frame.any (·.frameId = frameId) = true
  | _ => False

/-- Only the report of a presentation sets the milestone. -/
theorem carries_of_work (hP : P.CarriesPresented) {key : TrackIdentity} {request : Request P}
    {track track' : Track P} (h : Work key request track track') : track.Carries track' ∨
      track.Presents key request ∧ track'.state.channelGeneration =
        track.state.channelGeneration := by
  cases h with
  | suspend track => exact Or.inl (hP.detach track.state)
  | acceptChannel track =>
    left
    unfold Track.acceptChannel
    split
    · exact track.carries_refl
    · dsimp only
      split <;> exact hP.acceptChannel _ _ _ _ _
  | acceptUplinkChannel track =>
    left
    unfold Track.acceptUplinkChannel
    split
    · exact track.carries_refl
    · split
      · exact track.carries_refl
      · intro hpresented
        cases Finset.mem_singleton.mp hpresented
  | advanceChannel track =>
    left
    unfold Track.advanceChannel
    split
    · exact track.carries_refl
    · dsimp only
      split <;> exact hP.advanceChannel _ _ _
  | setAudioGain track =>
    left
    unfold Track.setAudioGain
    split
    · exact track.carries_refl
    · exact (carries_of_state rfl).advance
  | detachChannel track =>
    left
    unfold Track.detachChannel
    split
    · exact track.carries_refl
    · exact hP.detach track.state
  | admitVectorAsset track =>
    left
    unfold Track.admitVectorAsset
    split
    · exact track.carries_refl
    · dsimp only
      split <;> exact fun hpresented => ⟨hpresented, rfl⟩
  | admitMedia track =>
    left
    unfold Track.admitMedia
    split
    · exact track.carries_refl
    · dsimp only
      split <;> exact hP.admitMedia _ _
  | publishDecodedFrame track =>
    left
    unfold Track.publishDecodedFrame
    split
    · exact track.carries_refl
    · exact ((carries_of_state rfl).reach (by simp)).advance
  | recordLateVideoDiscard | recordAudioRebase => exact Or.inl (carries_of_state rfl)
  | loseTrack track =>
    left
    unfold Track.loseTrack
    split
    · exact track.carries_refl
    · intro hpresented
      cases (hP.lose _ hpresented).1
  | markOutputReady track =>
    left
    unfold Track.markOutputReady
    split
    · exact track.carries_refl
    · split
      · exact track.carries_refl
      · exact (track.carries_refl.reach (by simp)).advance
  | restart =>
    left
    refine Carries.advance ?_
    unfold Track.restarted
    split
    · exact fun hpresented => ⟨Finset.mem_of_mem_erase hpresented, rfl⟩
    · exact (carries_of_state rfl).reach (by simp)
  | release => exact Or.inl ((carries_of_state rfl).reach (by simp)).advance
  | pause =>
    left
    unfold Track.pause
    split
    · exact (carries_of_state rfl).advance
    · exact carries_of_state rfl
  | flushPlayback track =>
    left
    unfold Track.flushPlayback
    split
    · exact track.carries_refl
    · refine Carries.advance ?_
      exact fun hpresented => ⟨(Finset.mem_inter.mp hpresented).1, rfl⟩
  | markEos track =>
    left
    unfold Track.markEos
    split
    · exact track.carries_refl
    · exact ((carries_of_state rfl).reach (by simp)).advance
  | markBufferedEnded track =>
    left
    unfold Track.markBufferedEnded
    split
    · exact track.carries_refl
    · exact ((track.carries_refl.reach (by simp)).reach (by simp)).advance
  | returnChannelCapacity track =>
    left
    unfold Track.returnChannelCapacity
    split
    · exact track.carries_refl
    dsimp only
    split
    · exact track.carries_refl
    · split
      · exact track.carries_refl
      · exact fun hpresented => ⟨hpresented, rfl⟩
  | markPresented track generation frameId =>
    by_cases hdue : track.state.channelGeneration ≠ generation ∨
        track.frame.all (·.frameId ≠ frameId)
    · left
      unfold Track.markPresented
      rw [if_pos hdue]
      exact track.carries_refl
    · right
      rw [not_or, not_not] at hdue
      refine ⟨⟨rfl, hdue.1, ?_⟩, (track.alike_markPresented _ _ _).channelGeneration⟩
      cases hframe : track.frame with
      | none => exact absurd (by rw [hframe]; rfl) hdue.2
      | some => simpa [hframe] using hdue.2

theorem alike_of_presents {key : TrackIdentity} {request : Request P} {track track' : Track P}
    (h : ReflTransGen (Work key request) track track') {other : Track P}
    (hrequest : other.Presents key request) : track.Alike track' := by
  induction h with
  | refl => exact track.alike_refl
  | tail _ hwork ih =>
    refine ih.trans ?_
    cases hwork with
    | markPresented => exact alike_markPresented _ _ _ _
    | _ => cases hrequest

/-- Where the milestone of a track comes from, over the works of one operation. -/
theorem presented_of_works (hP : P.CarriesPresented) {key : TrackIdentity} {request : Request P}
    {track track' : Track P} (h : ReflTransGen (Work key request) track track')
    (hpresented : .presented ∈ track'.state.milestones) :
    track'.state.channelGeneration = track.state.channelGeneration ∧
      (.presented ∈ track.state.milestones ∨ track.Presents key request) := by
  induction h using ReflTransGen.head_induction_on with
  | refl => exact ⟨rfl, Or.inl hpresented⟩
  | head hwork hworks ih =>
    rename_i track middle
    obtain ⟨hgeneration, hearlier⟩ := ih
    rcases carries_of_work hP hwork with hcarries | ⟨hpresents, hkept⟩
    · rcases hearlier with hearlier | hpresents
      · obtain ⟨hearlier, hkept⟩ := hcarries hearlier
        exact ⟨hgeneration.trans hkept, Or.inl hearlier⟩
      have halike := alike_of_presents (.single hwork) hpresents
      refine ⟨hgeneration.trans halike.channelGeneration, Or.inr ?_⟩
      cases request with
      | markPresented =>
        obtain ⟨hkey, hnamed, hframe⟩ := hpresents
        exact ⟨hkey, halike.channelGeneration ▸ hnamed, halike.frame ▸ hframe⟩
      | _ => cases hpresents
    · exact ⟨hgeneration.trans hkept, Or.inr hpresents⟩

end Track

namespace State

/-- The track exists, in a generation of its channel. -/
def HasGeneration (key : TrackIdentity) (generation : ℕ) (s : State P) : Prop :=
  ∃ track, s.tracks.lookup key = some track ∧ track.state.channelGeneration = generation

/-- A report within the run presented the frame that the track held, and the track is there in
that generation since. -/
def PresentedIn (target : PresentationTarget P) (requests : List (Request P))
    (key : TrackIdentity) (generation : ℕ) : Prop :=
  Since (new target).performAll
    (fun s event => ∃ track, s.tracks.lookup key = some track ∧
      track.state.channelGeneration = generation ∧ track.Presents key event)
    (HasGeneration key generation) requests

theorem performAll_snoc (s : State P) (requests : List (Request P)) (request : Request P) :
    s.performAll (requests ++ [request]) = ((s.performAll requests).perform request).1 := by
  rw [performAll_append]
  rfl

theorem presented_run (hP : P.CarriesPresented) (target : PresentationTarget P)
    (requests : List (Request P)) {key : TrackIdentity} {track : Track P}
    (htrack : ((new target).performAll requests).tracks.lookup key = some track)
    (hpresented : .presented ∈ track.state.milestones) :
    PresentedIn target requests key track.state.channelGeneration := by
  induction requests using List.reverseRecOn generalizing track with
  | nil => cases htrack
  | append_singleton _ request ih =>
    have hafter := htrack
    rw [performAll_snoc] at htrack
    rcases track_perform _ request htrack with ⟨before, hbefore, hworks, -⟩ |
      ⟨_, rfl, -, rfl⟩
    · obtain ⟨hgeneration, hearlier | hpresents⟩ := Track.presented_of_works hP hworks hpresented
      · rw [hgeneration]
        exact (ih hbefore hearlier).later ⟨track, hafter, hgeneration⟩
      · exact since_now ⟨before, hbefore, hgeneration.symm, hpresents⟩ ⟨track, hafter, rfl⟩
    · exact absurd hpresented hP.newTrack

theorem surfaceHasPresented_cases {s : State P} {identity : SurfaceIdentity}
    (h : s.surfaceHasPresented identity = true) :
    ∃ surface trackId key track, s.surfaces.lookup identity = some surface ∧
      surface.activeSlots.lookup slotPrimaryVideo = some trackId ∧
        identity.track? P trackId = some key ∧ s.tracks.lookup key = some track ∧
          .presented ∈ track.state.milestones := by
  unfold surfaceHasPresented at h
  split at h
  · cases h
  rename_i surface hsurface
  split at h
  · cases h
  rename_i trackId hslot
  split at h
  · cases h
  · rename_i key hkey
    obtain ⟨track, htrack, hpresented⟩ := (Option.any_eq_true _ _).mp h
    exact ⟨surface, trackId, key, track, hsurface, hslot, hkey, htrack,
      of_decide_eq_true hpresented⟩

/-- A late report spares its track unless the track was lost and still waits for what is
reported; and where a surface has presented, its video track has in its generation. -/
theorem late_reports (hP : P.CarriesPresented) (target : PresentationTarget P)
    (requests : List (Request P)) :
    let s := (new target).performAll requests
    (∀ event, s.Late event → (s.Isolated event ↔ ¬ s.Overlooks event)) ∧
      ∀ identity, s.surfaceHasPresented identity = true →
        ∃ surface trackId key track, s.surfaces.lookup identity = some surface ∧
          surface.activeSlots.lookup slotPrimaryVideo = some trackId ∧
            identity.track? P trackId = some key ∧ s.tracks.lookup key = some track ∧
              PresentedIn target requests key track.state.channelGeneration := by
  refine ⟨fun event hlate => isolated_iff hlate, fun identity h => ?_⟩
  obtain ⟨surface, trackId, key, track, hsurface, hslot, hkey, htrack, hpresented⟩ :=
    surfaceHasPresented_cases h
  exact ⟨surface, trackId, key, track, hsurface, hslot, hkey, htrack,
    presented_run hP target requests htrack hpresented⟩

section Lost

/-- The viewer's track is lost with its picture. -/
def losingRun : List (Request Protocol.plain) := openingRun ++ [.loseTrack viewerTrack 1]

/-- The renderer reports the picture of the lost track, and the track takes the report. -/
theorem lost_track_presented :
    ¬ ∀ (target : PresentationTarget Protocol.plain) (requests : List (Request Protocol.plain))
      (event : Request Protocol.plain), ((new target).performAll requests).Late event →
        ((new target).performAll requests).Isolated event := by
  intro h
  have hlost : (((new .plain).performAll losingRun).tracks.lookup viewerTrack).any
      (·.lifecycle = 6) = true := by decide +kernel
  obtain ⟨track, htrack, hlifecycle⟩ := (Option.any_eq_true _ _).mp hlost
  have hisolated := h .plain losingRun (.markPresented viewerTrack 1 1 1 0)
    ⟨viewerTrack, track, rfl, htrack, Or.inr (of_decide_eq_true hlifecycle)⟩ viewerTrack rfl
  revert hisolated
  decide +kernel

theorem plain_carriesPresented : Protocol.plain.CarriesPresented where
  newTrack := by decide
  acceptChannel _ _ _ _ _ h := by simp [Protocol.plain] at h
  advanceChannel _ _ _ h := by simp [Protocol.plain] at h
  admitMedia _ _ h := ⟨h, rfl⟩
  detach _ h := by simp [Protocol.plain] at h
  lose _ h := by simp [Protocol.plain] at h

theorem late_reports_lost : let s := (new .plain).performAll losingRun
    ∀ event, s.Late event → (s.Isolated event ↔ ¬ s.Overlooks event) :=
  (late_reports plain_carriesPresented .plain losingRun).1

end Lost

end State

end Vivido.Scene
