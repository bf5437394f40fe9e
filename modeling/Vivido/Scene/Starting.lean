import Vivido.Scene.Ceiling

/-!
The start of a surface's timed tracks. A pending member is released once every
one of them has output, and what counts as output is what was delivered in its
media epoch. A frame and a buffered end reach the scene without their epoch, so
a run here says of each report which epoch the records behind it belong to.
-/

namespace Vivido.Scene

open Relation Option

variable {P : Protocol}

namespace TrackState

/-- The channel generation and the media epoch stay. -/
def SameMedia (before after : TrackState P.Ingress) : Prop :=
  after.channelGeneration = before.channelGeneration ∧ after.mediaEpoch = before.mediaEpoch

/-- No buffered end comes. -/
def Unended (before after : TrackState P.Ingress) : Prop :=
  .bufferedEnded ∈ after.milestones → .bufferedEnded ∈ before.milestones

end TrackState

open TrackState

/-- The library ends no buffer by itself, a new generation of the channel starts without one, and
no method but the advance moves the channel's generation. -/
structure Protocol.KeepsOutput (P : Protocol) : Prop where
  newTrack : .bufferedEnded ∉ P.newTrack.milestones
  acceptChannel : ∀ state generation bytes records body,
    (P.acceptChannel state generation bytes records body).1.channelGeneration =
        state.channelGeneration ∧
      Unended (P := P) state (P.acceptChannel state generation bytes records body).1
  admitMedia : ∀ state media,
    (P.admitMedia state media).1.channelGeneration = state.channelGeneration ∧
      Unended (P := P) state (P.admitMedia state media).1
  detach : ∀ state, SameMedia (P := P) state (P.detach state).1 ∧
    Unended (P := P) state (P.detach state).1
  lose : ∀ state, SameMedia (P := P) state (P.lose state).1 ∧
    Unended (P := P) state (P.lose state).1
  advanceChannel : ∀ state current next, (P.advanceChannel state current next).2 = true →
    .bufferedEnded ∉ (P.advanceChannel state current next).1.milestones
  advanceChannel_refused : ∀ state current next, (P.advanceChannel state current next).2 = false →
    SameMedia (P := P) state (P.advanceChannel state current next).1 ∧
      Unended (P := P) state (P.advanceChannel state current next).1

variable (P) in
/-- An operation with the media epoch of the records behind it. -/
structure Report where
  request : Request P
  epoch : ℕ := 0

/-- The track that an operation brings media to, or a channel. -/
def Request.addressee : Request P → Option TrackIdentity
  | .publishDecodedFrame identity _ _ | .markBufferedEnded identity _ | .acceptChannel identity _ _ _
  | .admitMedia identity _ _ | .advanceChannel identity => some identity
  | _ => none

namespace Track

variable (track : Track P)

/-- The library moves the track to another media epoch. -/
def movesEpoch : Request P → Bool
  | .acceptChannel _ generation bytes records =>
    (P.acceptChannel track.state generation bytes records
      track.configuration.maximumRecordBody).1.mediaEpoch != track.state.mediaEpoch
  | .admitMedia _ media _ =>
    (P.admitMedia track.state media).1.mediaEpoch != track.state.mediaEpoch
  | .advanceChannel _ =>
    (P.advance track.state.channelGeneration).any fun next =>
      (P.advanceChannel track.state track.state.channelGeneration next).1.mediaEpoch !=
        track.state.mediaEpoch
  | _ => false

/-- The report delivers what is of another epoch, or leaves what is there, or pending, behind. -/
def untimely (report : Report P) : Bool :=
  match report.request with
  | .publishDecodedFrame _ generation _ =>
    track.isCurrent generation && track.state.mediaEpoch != report.epoch
  | .markBufferedEnded _ generation =>
    track.state.channelGeneration == generation && track.state.mediaEpoch != report.epoch
  | .advanceChannel _ => track.isPending && track.movesEpoch report.request
  | _ =>
    (track.isPending || track.frame.isSome || .bufferedEnded ∈ track.state.milestones) &&
      track.movesEpoch report.request

/-- The clock runs. -/
def isRunning : Bool := track.playback.any (·.startedAt.isSome)

/-- A video has a picture from the start on, or nothing more to come. -/
def hasOutput : Prop :=
  ∀ clock, track.playback = some clock → track.configuration.kind = .video →
    track.frame.any (clock.startPtsUs ≤ ·.ptsUs) = true ∨
      .bufferedEnded ∈ track.state.milestones

/-- A pending start is of the current epoch. -/
def Settled : Prop :=
  ∀ clock, track.playback = some clock → clock.synchronizedPending = true →
    clock.startMediaEpoch = track.state.mediaEpoch

/-- What matters of a clock to its start. -/
def start : Option (Bool × Option ℕ × ℕ) :=
  track.playback.map fun clock =>
    (clock.synchronizedPending, clock.startedAt, clock.startMediaEpoch)

variable {track}

theorem isPending_eq (track : Track P) : track.isPending = track.start.any (·.1) := by
  unfold isPending start
  cases track.playback <;> rfl

theorem isRunning_eq (track : Track P) : track.isRunning = track.start.any (·.2.1.isSome) := by
  unfold isRunning start
  cases track.playback <;> rfl

variable {track' : Track P}

theorem isPending_start (h : track'.start = track.start) : track'.isPending = track.isPending := by
  rw [isPending_eq, isPending_eq, h]

theorem isRunning_start (h : track'.start = track.start) : track'.isRunning = track.isRunning := by
  rw [isRunning_eq, isRunning_eq, h]

theorem settled_iff : track.Settled ↔ ∀ entry, track.start = some entry → entry.1 = true →
    entry.2.2 = track.state.mediaEpoch := by
  unfold Settled start
  constructor
  · rintro h _ hentry hpending
    obtain ⟨clock, hclock, rfl⟩ := Option.map_eq_some_iff.mp hentry
    exact h clock hclock hpending
  · intro h _ hclock hpending
    exact h _ (by rw [hclock]; rfl) hpending

theorem settled_of_none (h : track.playback = none) : track.Settled := by
  intro _ hclock
  rw [h] at hclock
  cases hclock

variable (track)

@[simp] theorem start_advanceRevision : track.advanceRevision.1.start = track.start := by
  unfold advanceRevision
  split <;> rfl

theorem sameMedia_advanceRevision :
    SameMedia (P := P) track.state track.advanceRevision.1.state := by
  unfold advanceRevision
  split <;> exact ⟨rfl, rfl⟩

theorem milestones_advanceRevision :
    track.advanceRevision.1.state.milestones = track.state.milestones := by
  unfold advanceRevision
  split <;> rfl

/-- The effect of an operation on what a start rests on. -/
inductive Effect (key : TrackIdentity) : Request P → Track P → Track P → Prop where
  | quiet {request : Request P} {track track' : Track P}
      (hmedia : SameMedia (P := P) track.state track'.state)
      (hframe : track'.frame = track.frame)
      (hended : Unended (P := P) track.state track'.state)
      (hstart : track'.start = track.start ∨ track'.playback = none) :
      Effect key request track track'
  | published {generation : ℕ} {frame : Frame} {track track' : Track P}
      (hcurrent : track.isCurrent generation)
      (hmedia : SameMedia (P := P) track.state track'.state)
      (hframe : track'.frame = some frame)
      (hended : Unended (P := P) track.state track'.state)
      (hstart : track'.start = track.start) :
      Effect key (.publishDecodedFrame key generation frame) track track'
  | ended {generation : ℕ} {track track' : Track P}
      (hgeneration : track.state.channelGeneration = generation)
      (hmedia : SameMedia (P := P) track.state track'.state)
      (hframe : track'.frame = track.frame)
      (hstart : track'.start = track.start) :
      Effect key (.markBufferedEnded key generation) track track'
  | moved {request : Request P} {track track' : Track P}
      (hrequest : (∃ generation bytes records,
          request = .acceptChannel key generation bytes records) ∨
        ∃ media recordSequence, request = .admitMedia key media recordSequence)
      (hgeneration : track'.state.channelGeneration = track.state.channelGeneration)
      (hepoch : track.movesEpoch request = false →
        track'.state.mediaEpoch = track.state.mediaEpoch)
      (hframe : track'.frame = track.frame)
      (hended : Unended (P := P) track.state track'.state)
      (hstart : track'.start = track.start) : Effect key request track track'
  | advanced {track track' : Track P}
      (hepoch : track.movesEpoch (.advanceChannel key) = false →
        track'.state.mediaEpoch = track.state.mediaEpoch)
      (hframe : track'.frame = none)
      (hended : .bufferedEnded ∉ track'.state.milestones)
      (hstart : track'.start = track.start) : Effect key (.advanceChannel key) track track'
  | flushed {newEpoch : ℕ} {track track' : Track P} (hframe : track'.frame = none)
      (hended : .bufferedEnded ∉ track'.state.milestones) (hplayback : track'.playback = none) :
      Effect key (.flushPlayback key newEpoch) track track'
  | restarted {now : ℕ} {identity : TrackIdentity} {startPtsUs : ℤ} {synchronized : Bool}
      {track track' : Track P} (hkey : key.surface = identity.surface)
      (hmedia : SameMedia (P := P) track.state track'.state)
      (hframe : track'.frame = track.frame)
      (hended : Unended (P := P) track.state track'.state)
      (hstart : track'.start = some (synchronized, if synchronized then none else some now,
        track.state.mediaEpoch)) :
      Effect key (.configurePlayback now identity startPtsUs synchronized) track track'
  | released {now : ℕ} {identity : TrackIdentity} {track track' : Track P}
      (hkey : key.surface = identity.surface) (hpending : track.isPending = true)
      (hmedia : SameMedia (P := P) track.state track'.state)
      (hframe : track'.frame = track.frame)
      (hended : Unended (P := P) track.state track'.state)
      (hstart : track'.start = track.start.map fun entry => (false, some now, entry.2.2)) :
      Effect key (.tryStartSynchronized now identity true) track track'
  | paused {now : ℕ} {identity : TrackIdentity} {audioPts : Option ℤ} {track track' : Track P}
      (hkey : key.surface = identity.surface)
      (hmedia : SameMedia (P := P) track.state track'.state)
      (hframe : track'.frame = track.frame)
      (hended : Unended (P := P) track.state track'.state)
      (hstart : track'.start = track.start.map fun entry => (false, none, entry.2.2)) :
      Effect key (.pausePlaybackAt now identity audioPts) track track'

/-- What is written to a track before its revision advances, and stays of it. -/
theorem Effect.written {key : TrackIdentity} {request : Request P} {written : Track P}
    (hmedia : SameMedia (P := P) track.state written.state) (hframe : written.frame = track.frame)
    (hended : Unended (P := P) track.state written.state) (hstart : written.start = track.start) :
    Effect key request track written.advanceRevision.1 := by
  have halike := written.alike_advanceRevision
  have hsame := written.sameMedia_advanceRevision
  refine .quiet ⟨hsame.1.trans hmedia.1, hsame.2.trans hmedia.2⟩ (halike.frame.trans hframe) ?_
    (Or.inl ?_)
  · intro h
    rw [milestones_advanceRevision] at h
    exact hended h
  · rw [start_advanceRevision]
    exact hstart

theorem Effect.same (key : TrackIdentity) (request : Request P) : Effect key request track track :=
  .quiet ⟨rfl, rfl⟩ rfl (fun h => h) (Or.inl rfl)

theorem unended_reach {written : Track P} (h : Unended (P := P) track.state written.state)
    {milestone : Milestone} (hmilestone : milestone ≠ .bufferedEnded) :
    Unended (P := P) track.state (written.reach milestone).state := by
  intro hended
  exact h ((Finset.mem_insert.mp hended).resolve_left hmilestone.symm)

theorem effect_of_work (hP : P.KeepsOutput) {key : TrackIdentity} {request : Request P}
    {track : Track P} (h : Work key request track track') : Effect key request track track' := by
  cases h with
  | suspend => exact .quiet (hP.detach _).1 rfl (hP.detach _).2 (Or.inr rfl)
  | acceptChannel track generation bytes records =>
    unfold Track.acceptChannel
    split
    · exact .same track key _
    · dsimp only
      have hkept := hP.acceptChannel track.state generation bytes records
        track.configuration.maximumRecordBody
      split <;> exact .moved (Or.inl ⟨_, _, _, rfl⟩) hkept.1
        (fun hmoves => by simpa [movesEpoch] using hmoves) rfl hkept.2 rfl
  | acceptUplinkChannel track =>
    unfold Track.acceptUplinkChannel
    split
    · exact .same track key _
    · split
      · exact .same track key _
      · refine .quiet ⟨rfl, rfl⟩ rfl (fun hended => ?_) (Or.inl rfl)
        cases Finset.mem_singleton.mp hended
  | advanceChannel track =>
    unfold Track.advanceChannel
    split
    · exact .same track key _
    rename_i next hnext
    dsimp only
    have hepoch : track.movesEpoch (.advanceChannel key) = false →
        (P.advanceChannel track.state track.state.channelGeneration next).1.mediaEpoch =
          track.state.mediaEpoch := by
      intro hmoves
      simpa [movesEpoch, hnext] using hmoves
    split
    · rename_i hadvanced
      exact .advanced hepoch rfl (hP.advanceChannel _ _ _ hadvanced) rfl
    · rename_i hrefused
      have hkept := hP.advanceChannel_refused track.state track.state.channelGeneration next
        (by simpa using hrefused)
      exact .quiet hkept.1 rfl hkept.2 (Or.inl rfl)
  | setAudioGain track =>
    unfold Track.setAudioGain
    split
    · exact .same track key _
    · exact .written track ⟨rfl, rfl⟩ rfl (fun h => h) rfl
  | detachChannel track =>
    unfold Track.detachChannel
    split
    · exact .same track key _
    · exact .quiet (hP.detach _).1 rfl (hP.detach _).2 (Or.inl rfl)
  | admitVectorAsset track =>
    unfold Track.admitVectorAsset
    split
    · exact .same track key _
    · dsimp only
      split <;> exact .quiet ⟨rfl, rfl⟩ rfl (fun h => h) (Or.inl rfl)
  | admitMedia track media =>
    unfold Track.admitMedia
    split
    · exact .same track key _
    · dsimp only
      have hkept := hP.admitMedia track.state media
      split <;> exact .moved (Or.inr ⟨_, _, rfl⟩) hkept.1
        (fun hmoves => by simpa [movesEpoch] using hmoves) rfl hkept.2 rfl
  | publishDecodedFrame track generation frame =>
    unfold Track.publishDecodedFrame
    split
    · exact .same track key _
    rename_i hcurrent
    have halike := (track.decoded frame).alike_advanceRevision
    refine .published (not_not.mp hcurrent) (track.decoded frame).sameMedia_advanceRevision
      halike.frame (fun hended => ?_) (start_advanceRevision _)
    rw [milestones_advanceRevision] at hended
    exact track.unended_reach (fun h => h) (by simp) hended
  | recordLateVideoDiscard | recordAudioRebase =>
    exact .quiet ⟨rfl, rfl⟩ rfl (fun h => h) (Or.inl rfl)
  | loseTrack track =>
    unfold Track.loseTrack
    split
    · exact .same track key _
    · refine .quiet (hP.lose { track.state with milestones := ∅ }).1 rfl (fun hended => ?_)
        (Or.inl rfl)
      cases (hP.lose { track.state with milestones := ∅ }).2 hended
  | markOutputReady track =>
    unfold Track.markOutputReady
    split
    · exact .same track key _
    · split
      · exact .same track key _
      · exact .written track ⟨rfl, rfl⟩ rfl (track.unended_reach (fun h => h) (by simp)) rfl
  | restart track now startPtsUs synchronized hkey h =>
    have hrestarted : (track.restarted now startPtsUs synchronized).start =
        some (synchronized, if synchronized then none else some now, track.state.mediaEpoch) := by
      unfold Track.restarted
      cases synchronized <;> rfl
    have hmedia : SameMedia (P := P) track.state
        (track.restarted now startPtsUs synchronized).state := by
      unfold Track.restarted
      cases synchronized <;> exact ⟨rfl, rfl⟩
    have hended : Unended (P := P) track.state
        (track.restarted now startPtsUs synchronized).state := by
      unfold Track.restarted
      cases synchronized with
      | false => exact track.unended_reach (fun h => h) (by simp)
      | true => exact fun h => Finset.mem_of_mem_erase h
    have hsame := (track.restarted now startPtsUs synchronized).sameMedia_advanceRevision
    refine .restarted hkey ⟨hsame.1.trans hmedia.1, hsame.2.trans hmedia.2⟩
      (track.alike_restarted now startPtsUs synchronized).advance.frame (fun h => ?_)
      ((start_advanceRevision _).trans hrestarted)
    rw [milestones_advanceRevision] at h
    exact hended h
  | release track now hkey h =>
    have hsame := (track.released now).sameMedia_advanceRevision
    refine .released hkey h hsame (track.alike_released now).advance.frame (fun hended => ?_) ?_
    · rw [milestones_advanceRevision] at hended
      exact track.unended_reach (fun h => h) (by simp) hended
    · rw [start_advanceRevision]
      change (track.playback.map _).map _ = (track.playback.map _).map _
      rw [Option.map_map, Option.map_map]
      rfl
  | pause track now audioPts hkey =>
    have hhalted : (track.halted now audioPts).start =
        track.start.map fun entry => (false, none, entry.2.2) := by
      change (track.playback.map _).map _ = (track.playback.map _).map _
      rw [Option.map_map, Option.map_map]
      refine congrArg (Option.map · _) (funext fun clock => ?_)
      rcases clock with ⟨_, _, _, started, _, _, _⟩
      cases started <;> rfl
    unfold Track.pause
    split
    · refine .paused hkey (track.halted now audioPts).sameMedia_advanceRevision
        (track.halted now audioPts).alike_advanceRevision.frame (fun hended => ?_) ?_
      · rw [milestones_advanceRevision] at hended
        exact hended
      · rw [start_advanceRevision]
        exact hhalted
    · exact .paused hkey ⟨rfl, rfl⟩ rfl (fun h => h) hhalted
  | flushPlayback track =>
    unfold Track.flushPlayback
    split
    · exact .same track key _
    have hfields : ∀ written : Track P, written.advanceRevision.1.playback =
        written.playback := by
      intro _
      unfold advanceRevision
      split <;> rfl
    refine .flushed (alike_advanceRevision _).frame (fun hended => ?_) (hfields _)
    rw [milestones_advanceRevision] at hended
    have hmember := (Finset.mem_inter.mp hended).2
    cases Finset.mem_singleton.mp hmember
  | markEos track =>
    unfold Track.markEos
    split
    · exact .same track key _
    · refine .written track ⟨rfl, rfl⟩ rfl (track.unended_reach (fun h => h) (by simp)) ?_
      change (track.playback.map _).map _ = track.playback.map _
      rw [Option.map_map]
      rfl
  | markBufferedEnded track generation =>
    unfold Track.markBufferedEnded
    split
    · exact .same track key _
    · rename_i hgeneration
      have hsame := ((track.reach .eosAccepted).reach .bufferedEnded).sameMedia_advanceRevision
      exact .ended (not_not.mp hgeneration) hsame
        ((track.reach .eosAccepted).reach .bufferedEnded).alike_advanceRevision.frame
        (start_advanceRevision _)
  | returnChannelCapacity track =>
    unfold Track.returnChannelCapacity
    split
    · exact .same track key _
    dsimp only
    split
    · exact .same track key _
    · split
      · exact .same track key _
      · exact .quiet ⟨rfl, rfl⟩ rfl (fun h => h) (Or.inl rfl)
  | markPresented track generation frameId ptsUs =>
    unfold Track.markPresented
    split
    · exact .same track key _
    dsimp only
    split
    · exact .quiet ⟨rfl, rfl⟩ rfl (fun h => h) (Or.inl rfl)
    · split
      all_goals
        rename_i heq
        rw [← congrArg Prod.fst heq]
        exact .written track ⟨rfl, rfl⟩ rfl (track.unended_reach (fun h => h) (by simp)) rfl

end Track

namespace State

/-- No report of the run is late for its track's media epoch, and no channel or record moves a
track to another epoch that holds output or waits. -/
def Timely (s : State P) (report : Report P) : Prop :=
  (report.request.addressee.bind s.tracks.lookup).all (!·.untimely report) = true

instance (s : State P) : DecidablePred s.Timely := fun _ => inferInstanceAs (Decidable (_ = true))

def AllTimely (s : State P) : List (Report P) → Prop
  | [] => True
  | report :: reports => s.Timely report ∧ AllTimely (s.perform report.request).1 reports

instance decidableAllTimely (s : State P) : DecidablePred s.AllTimely
  | [] => inferInstanceAs (Decidable True)
  | report :: reports =>
    have := decidableAllTimely (s.perform report.request).1 reports
    inferInstanceAs (Decidable (_ ∧ _))

/-- The state that a run of reports comes to. -/
def reached (target : PresentationTarget P) (reports : List (Report P)) : State P :=
  (new target).performAll (reports.map Report.request)

theorem reached_snoc (target : PresentationTarget P) (reports : List (Report P))
    (report : Report P) : reached target (reports ++ [report]) =
      ((reached target reports).perform report.request).1 := by
  unfold reached
  rw [List.map_append]
  exact performAll_snoc _ _ _

theorem AllTimely.snoc {s : State P} {reports : List (Report P)} {report : Report P}
    (h : s.AllTimely (reports ++ [report])) :
    s.AllTimely reports ∧ (s.performAll (reports.map Report.request)).Timely report := by
  induction reports generalizing s with
  | nil => exact ⟨trivial, h.1⟩
  | cons _ _ ih =>
    obtain ⟨hreports, hreport⟩ := ih h.2
    exact ⟨⟨h.1, hreports⟩, hreport⟩

theorem Timely.track {s : State P} {report : Report P} (h : s.Timely report) (key : TrackIdentity)
    {track : Track P} (haddressee : report.request.addressee = some key)
    (htrack : s.tracks.lookup key = some track) : track.untimely report = false := by
  unfold Timely at h
  rw [haddressee, bind_some, htrack, all_some] at h
  exact (Bool.not_eq_true' _).mp h

/-- The track exists, in a generation and an epoch. -/
def HasMedia (key : TrackIdentity) (state : TrackState P.Ingress) (s : State P) : Prop :=
  ∃ track, s.tracks.lookup key = some track ∧ SameMedia (P := P) state track.state

/-- A delivery of the run was of the epoch that its track was in, and the track is there in that
epoch and in that generation of its channel since. -/
def DeliveredIn (target : PresentationTarget P) (reports : List (Report P)) (key : TrackIdentity)
    (state : TrackState P.Ingress) (delivery : Request P) : Prop :=
  Since (reached target)
    (fun s report => report.request = delivery ∧ report.epoch = state.mediaEpoch ∧
      HasMedia key state s)
    (HasMedia key state) reports

/-- What a track has is of its epoch and its generation. -/
structure Attested (target : PresentationTarget P) (reports : List (Report P))
    (key : TrackIdentity) (track : Track P) : Prop where
  frame : ∀ frame, track.frame = some frame → DeliveredIn target reports key track.state
    (.publishDecodedFrame key track.state.channelGeneration frame)
  ended : .bufferedEnded ∈ track.state.milestones → DeliveredIn target reports key track.state
    (.markBufferedEnded key track.state.channelGeneration)
  settled : track.Settled

variable {target : PresentationTarget P} {reports : List (Report P)} {report : Report P}
  {key : TrackIdentity} {track track' : Track P}

theorem sameMedia_symm {before after : TrackState P.Ingress}
    (h : SameMedia (P := P) before after) : SameMedia (P := P) after before :=
  ⟨h.1.symm, h.2.symm⟩

/-- A delivery lasts as long as its track keeps the generation and the epoch. -/
theorem DeliveredIn.later (delivery : TrackIdentity → ℕ → Request P)
    (h : DeliveredIn target reports key track.state (delivery key track.state.channelGeneration))
    (hafter : (reached target (reports ++ [report])).tracks.lookup key = some track')
    (hmedia : SameMedia (P := P) track.state track'.state) :
    DeliveredIn target (reports ++ [report]) key track'.state
      (delivery key track'.state.channelGeneration) := by
  have hmedia' : ∀ s : State P, HasMedia key track.state s → HasMedia key track'.state s := by
    rintro s ⟨other, hother, hsame⟩
    exact ⟨other, hother, hsame.1.trans hmedia.1.symm, hsame.2.trans hmedia.2.symm⟩
  have hsince := Since.later (a := report) h ⟨track', hafter, hmedia⟩
  obtain ⟨earlier, delivered, later, heq, ⟨hrequest, hepoch, hheld⟩, hholds⟩ := hsince
  refine ⟨earlier, delivered, later, heq, ⟨?_, ?_, hmedia' _ hheld⟩, fun middle rest hsplit =>
    hmedia' _ (hholds middle rest hsplit)⟩
  · rw [hmedia.1]
    exact hrequest
  · rw [hmedia.2]
    exact hepoch

theorem Attested.later (h : Attested target reports key track)
    (hafter : (reached target (reports ++ [report])).tracks.lookup key = some track')
    (hmedia : SameMedia (P := P) track.state track'.state) (hframe : track'.frame = track.frame)
    (hended : Unended (P := P) track.state track'.state) (hsettled : track'.Settled) :
    Attested target (reports ++ [report]) key track' where
  frame frame hheld := DeliveredIn.later (fun key generation =>
    .publishDecodedFrame key generation frame) (h.frame frame (hframe ▸ hheld)) hafter hmedia
  ended hend := DeliveredIn.later (fun key generation =>
    .markBufferedEnded key generation) (h.ended (hended hend)) hafter hmedia
  settled := hsettled

/-- A track without output, that does not wait. -/
theorem attested_of_none (hframe : track.frame = none)
    (hended : .bufferedEnded ∉ track.state.milestones) (hsettled : track.Settled) :
    Attested target reports key track where
  frame frame hheld := by
    rw [hframe] at hheld
    cases hheld
  ended hend := absurd hend hended
  settled := hsettled

theorem settled_of_start (h : track.Settled)
    (hmedia : track'.state.mediaEpoch = track.state.mediaEpoch)
    (hstart : track'.start = track.start) : track'.Settled := by
  rw [Track.settled_iff] at h ⊢
  intro entry hentry hpending
  rw [hmedia]
  exact h entry (hstart ▸ hentry) hpending

theorem attested_effect (h : Attested target reports key track)
    (htimely : (reached target reports).Timely report) (hloop : report.request.isLoop = false)
    (hbefore : (reached target reports).tracks.lookup key = some track)
    (hafter : (reached target (reports ++ [report])).tracks.lookup key = some track')
    (heffect : Track.Effect key report.request track track') :
    Attested target (reports ++ [report]) key track' := by
  generalize hrequest : report.request = request at heffect
  cases heffect with
  | quiet hmedia hframe hended hstart =>
    refine h.later hafter hmedia hframe hended ?_
    rcases hstart with hstart | hnone
    · exact settled_of_start h.settled hmedia.2 hstart
    · exact Track.settled_of_none hnone
  | published hcurrent hmedia hframe hended hstart =>
    have hdue := htimely.track key (by rw [hrequest]; rfl) hbefore
    have hepoch : report.epoch = track.state.mediaEpoch := by
      unfold Track.untimely at hdue
      rw [hrequest] at hdue
      simp only [hcurrent, decide_true, Bool.true_and, bne_eq_false_iff_eq] at hdue
      exact hdue.symm
    refine ⟨fun frame hheld => ?_, fun hend => ?_, settled_of_start h.settled hmedia.2 hstart⟩
    · rw [hframe] at hheld
      cases hheld
      refine since_now ⟨?_, hepoch.trans hmedia.2.symm, track, hbefore, sameMedia_symm hmedia⟩
        ⟨track', hafter, rfl, rfl⟩
      rw [hrequest, hmedia.1, hcurrent.1]
    · exact DeliveredIn.later (fun key generation =>
        .markBufferedEnded key generation) (h.ended (hended hend)) hafter hmedia
  | ended hgeneration hmedia hframe hstart =>
    have hdue := htimely.track key (by rw [hrequest]; rfl) hbefore
    have hepoch : report.epoch = track.state.mediaEpoch := by
      unfold Track.untimely at hdue
      rw [hrequest] at hdue
      simp only [hgeneration, beq_self_eq_true, Bool.true_and, bne_eq_false_iff_eq] at hdue
      exact hdue.symm
    refine ⟨fun frame hheld => ?_, fun hend => ?_, settled_of_start h.settled hmedia.2 hstart⟩
    · exact DeliveredIn.later (fun key generation =>
        .publishDecodedFrame key generation frame) (h.frame frame (hframe ▸ hheld)) hafter hmedia
    · refine since_now ⟨?_, hepoch.trans hmedia.2.symm, track, hbefore, sameMedia_symm hmedia⟩
        ⟨track', hafter, rfl, rfl⟩
      rw [hrequest, hmedia.1, hgeneration]
  | moved hmoves hgeneration hepoch hframe hended hstart =>
    have hdue : ((track.isPending || track.frame.isSome ||
        .bufferedEnded ∈ track.state.milestones) && track.movesEpoch request) = false := by
      have hdue := htimely.track key
        (by rw [hrequest]; rcases hmoves with ⟨_, _, _, rfl⟩ | ⟨_, _, rfl⟩ <;> rfl) hbefore
      unfold Track.untimely at hdue
      rcases hmoves with ⟨_, _, _, rfl⟩ | ⟨_, _, rfl⟩ <;> (rw [hrequest] at hdue; exact hdue)
    by_cases hstays : track.movesEpoch request = false
    · exact h.later hafter ⟨hgeneration, hepoch hstays⟩ hframe hended
        (settled_of_start h.settled (hepoch hstays) hstart)
    rw [Bool.not_eq_false] at hstays
    simp only [hstays, Bool.and_true, Bool.or_eq_false_iff, decide_eq_false_iff_not,
      isSome_eq_false_iff, isNone_iff_eq_none] at hdue
    refine attested_of_none (hframe.trans hdue.1.2) (fun hend => hdue.2 (hended hend)) ?_
    intro clock hclock hpending
    have hnot : track'.isPending = false := (Track.isPending_start hstart).trans hdue.1.1
    unfold Track.isPending at hnot
    rw [hclock, any_some, hpending] at hnot
    cases hnot
  | advanced hepoch hframe hended hstart =>
    have hdue := htimely.track key (by rw [hrequest]; rfl) hbefore
    unfold Track.untimely at hdue
    rw [hrequest] at hdue
    refine attested_of_none hframe hended ?_
    by_cases hpending : track.isPending = true
    · simp only [hpending, Bool.true_and] at hdue
      exact settled_of_start h.settled (hepoch hdue) hstart
    · intro _ hclock hwaits
      have hnot : track'.isPending = false :=
        (Track.isPending_start hstart).trans (Bool.not_eq_true _ ▸ hpending)
      unfold Track.isPending at hnot
      rw [hclock, any_some, hwaits] at hnot
      cases hnot
  | flushed hframe hended hplayback =>
    exact attested_of_none hframe hended (Track.settled_of_none hplayback)
  | _ => cases hrequest ▸ hloop

/-- A work of a loop leaves output alone, and a start that it leaves pending is of the epoch. -/
theorem loop_effect {request : Request P} (hloop : request.isLoop = true)
    (h : Track.Effect key request track track') (hsettled : track.Settled) :
    SameMedia (P := P) track.state track'.state ∧ track'.frame = track.frame ∧
      Unended (P := P) track.state track'.state ∧ track'.Settled := by
  cases h with
  | quiet hmedia hframe hended hstart =>
    refine ⟨hmedia, hframe, hended, ?_⟩
    rcases hstart with hstart | hnone
    · exact settled_of_start hsettled hmedia.2 hstart
    · exact Track.settled_of_none hnone
  | moved hmoves => rcases hmoves with ⟨_, _, _, rfl⟩ | ⟨_, _, rfl⟩ <;> cases hloop
  | restarted _ hmedia hframe hended hstart =>
    refine ⟨hmedia, hframe, hended, Track.settled_iff.mpr fun entry hentry _ => ?_⟩
    rw [hstart] at hentry
    cases hentry
    exact hmedia.2.symm
  | released _ _ hmedia hframe hended hstart | paused _ hmedia hframe hended hstart =>
    refine ⟨hmedia, hframe, hended, Track.settled_iff.mpr fun entry hentry hwaits => ?_⟩
    rw [hstart] at hentry
    obtain ⟨_, _, rfl⟩ := Option.map_eq_some_iff.mp hentry
    cases hwaits
  | _ => cases hloop

theorem loop_works (hP : P.KeepsOutput) {request : Request P} (hloop : request.isLoop = true)
    (h : ReflTransGen (Track.Work key request) track track') (hsettled : track.Settled) :
    SameMedia (P := P) track.state track'.state ∧ track'.frame = track.frame ∧
      Unended (P := P) track.state track'.state ∧ track'.Settled := by
  induction h with
  | refl => exact ⟨⟨rfl, rfl⟩, rfl, fun hended => hended, hsettled⟩
  | tail _ hwork ih =>
    obtain ⟨hmedia, hframe, hended, hsettled⟩ := ih
    obtain ⟨hmedia', hframe', hended', hsettled'⟩ :=
      loop_effect hloop (Track.effect_of_work hP hwork) hsettled
    exact ⟨⟨hmedia'.1.trans hmedia.1, hmedia'.2.trans hmedia.2⟩, hframe'.trans hframe,
      fun hend => hended (hended' hend), hsettled'⟩

/-- In a timely run, every track's output and pending start are of its epoch. -/
theorem attested_run (hP : P.KeepsOutput) (target : PresentationTarget P)
    (reports : List (Report P)) (htimely : (new target).AllTimely reports) {key : TrackIdentity}
    {track : Track P} (htrack : (reached target reports).tracks.lookup key = some track) :
    Attested target reports key track := by
  induction reports using List.reverseRecOn generalizing track with
  | nil => cases htrack
  | append_singleton _ report ih =>
    obtain ⟨hreports, hreport⟩ := htimely.snoc
    have hafter := htrack
    rw [reached_snoc] at htrack
    rcases track_perform _ _ htrack with ⟨_, hbefore, hworks, hwork⟩ | hcreated
    · have hattested := ih hreports hbefore
      by_cases hloop : report.request.isLoop = true
      · obtain ⟨hmedia, hframe, hended, hsettled⟩ :=
          loop_works hP hloop hworks hattested.settled
        exact hattested.later hafter hmedia hframe hended hsettled
      · rw [Bool.not_eq_true] at hloop
        rcases hwork hloop with _ | hwork
        · exact hattested.later hafter ⟨rfl, rfl⟩ rfl (fun hend => hend) hattested.settled
        · exact attested_effect hattested hreport hloop hbefore hafter
            (Track.effect_of_work hP hwork)
    · obtain ⟨_, -, -, rfl⟩ := hcreated
      exact attested_of_none rfl hP.newTrack (Track.settled_of_none rfl)

end State

end Vivido.Scene
