import Vivido.Scene.Starting

/-!
The release of a surface's waiting tracks. It comes at one instant for all of
them, once each has output of its epoch and its generation, and a pause or
another epoch takes the start back for good.
-/

namespace Vivido.Scene

open Relation Track List Option

variable {P : Protocol}

/-- The operation is a PLAY on a surface. -/
def Request.playsOn (surface : SurfaceIdentity) : Request P → Bool
  | .configurePlayback _ identity _ _ => identity.surface = surface
  | _ => false

namespace Track

variable {track track' : Track P} {key : TrackIdentity} {request : Request P}

/-- The clock neither runs nor waits to. -/
def Idle (track : Track P) : Prop := track.isPending = false ∧ track.isRunning = false

theorem Idle.of_start (h : track.Idle) (hstart : track'.start = track.start) : track'.Idle :=
  ⟨(isPending_start hstart).trans h.1, (isRunning_start hstart).trans h.2⟩

theorem idle_of_none (h : track.playback = none) : track.Idle := by
  constructor
  · unfold isPending
    rw [h]
    rfl
  · unfold isRunning
    rw [h]
    rfl

theorem idle_of_paused
    (h : track'.start = track.start.map fun entry => (false, none, entry.2.2)) : track'.Idle := by
  rw [Idle, isPending_eq, isRunning_eq, h]
  cases track.start <;> exact ⟨rfl, rfl⟩

theorem halted_idle (track : Track P) (now : ℕ) (audioPts : Option ℤ) :
    (track.pause now audioPts).1.Idle := by
  have hhalted : (track.halted now audioPts).Idle := by
    unfold Idle isPending isRunning halted
    cases track.playback with
    | none => exact ⟨rfl, rfl⟩
    | some clock =>
      rcases clock with ⟨_, _, _, started, _, _, _⟩
      cases started <;> exact ⟨rfl, rfl⟩
  unfold Track.pause
  split
  · exact hhalted.of_start (start_advanceRevision _)
  · exact hhalted

/-- An idle clock stays so without a PLAY on its surface. -/
theorem Effect.idle (h : Effect key request track track')
    (hplay : request.playsOn key.surface = false) (hidle : track.Idle) : track'.Idle := by
  cases h with
  | quiet _ _ _ hstart =>
    rcases hstart with hstart | hnone
    · exact hidle.of_start hstart
    · exact idle_of_none hnone
  | published _ _ _ _ hstart | ended _ _ _ hstart | moved _ _ _ _ _ hstart
  | advanced _ _ _ hstart =>
    exact hidle.of_start hstart
  | flushed _ _ hplayback => exact idle_of_none hplayback
  | restarted hkey => exact absurd hkey.symm (of_decide_eq_false hplay)
  | released _ hpending => cases hidle.1.symm.trans hpending
  | paused _ _ _ _ hstart => exact idle_of_paused hstart

/-- Only a PLAY that waits for nothing, or a release, sets a clock off. -/
theorem Effect.runs (h : Effect key request track track') (hnot : track.isRunning = false)
    (hruns : track'.isRunning = true) :
    (∃ now identity startPtsUs, request = .configurePlayback now identity startPtsUs false ∧
        key.surface = identity.surface) ∨
      ∃ now identity, request = .tryStartSynchronized now identity true ∧
        key.surface = identity.surface := by
  have hsame : track'.start ≠ track.start := by
    intro hstart
    rw [isRunning_start hstart, hnot] at hruns
    cases hruns
  have hnone : track'.playback ≠ none := by
    intro hnone
    cases (idle_of_none hnone).2.symm.trans hruns
  cases h with
  | quiet _ _ _ hstart => exact absurd hstart (not_or.mpr ⟨hsame, hnone⟩)
  | published _ _ _ _ hstart | ended _ _ _ hstart | moved _ _ _ _ _ hstart
  | advanced _ _ _ hstart =>
    exact absurd hstart hsame
  | flushed _ _ hplayback => exact absurd hplayback hnone
  | @restarted now identity startPtsUs synchronized _ _ hkey hmedia hframe hended hstart =>
    cases synchronized with
    | false => exact Or.inl ⟨now, identity, startPtsUs, rfl, hkey⟩
    | true =>
      rw [isRunning_eq, hstart] at hruns
      cases hruns
  | @released now identity _ _ hkey => exact Or.inr ⟨now, identity, rfl, hkey⟩
  | paused _ _ _ _ hstart =>
    cases (idle_of_paused hstart).2.symm.trans hruns

end Track

namespace State

variable {s : State P}

/-! ### The release -/

/-- A pending track in one of the surface's slots. -/
def Waits (s : State P) (surface : SurfaceIdentity) (member : TrackIdentity) (track : Track P) :
    Prop :=
  (∃ members, s.members surface = some members ∧ member ∈ members) ∧
    s.tracks.lookup member = some track ∧ track.isPending = true

/-- The track's clock has started at the instant. -/
def StartedAt (s : State P) (now : ℕ) (member : TrackIdentity) (track : Track P) : Prop :=
  ∃ track', s.tracks.lookup member = some track' ∧
    track'.playback = track.playback.map
      ({ · with synchronizedPending := false, startedAt := some now })

theorem isPending_released (track : Track P) (now : ℕ) :
    (track.released now).advanceRevision.1.isPending = false := by
  rw [isPending_start (start_advanceRevision _)]
  unfold Track.isPending Track.released
  cases track.playback <;> rfl

theorem playback_released (track : Track P) (now : ℕ) :
    (track.released now).advanceRevision.1.playback = track.playback.map
      ({ · with synchronizedPending := false, startedAt := some now }) := by
  unfold Track.advanceRevision
  split <;> rfl

theorem lookup_release (s : State P) (now : ℕ) (candidate key : TrackIdentity) :
    (s.release now candidate).tracks.lookup key = (s.tracks.lookup key).map fun track =>
        if key = candidate ∧ track.isPending = true then (track.released now).advanceRevision.1
        else track := by
  unfold State.release
  cases hcandidate : s.tracks.lookup candidate with
  | none =>
    cases hkey : s.tracks.lookup key with
    | none => rfl
    | some =>
      have hne : key ≠ candidate := by
        rintro rfl
        cases hkey.symm.trans hcandidate
      rw [map_some, if_neg (fun h => hne h.1)]
  | some found =>
    dsimp only
    split
    · rename_i hpending
      change (s.tracks.insert candidate _).lookup key = _
      rw [SortedMap.lookup_insert]
      split
      · rename_i hkey
        rw [hkey, hcandidate, map_some, if_pos ⟨rfl, hpending⟩]
      · rename_i hkey
        cases s.tracks.lookup key with
        | none => rfl
        | some => rw [map_some, if_neg (fun h => hkey h.1)]
    · rename_i hpending
      cases hkey : s.tracks.lookup key with
      | none => rfl
      | some =>
        rw [map_some, if_neg]
        rintro ⟨rfl, hpending'⟩
        rw [hcandidate] at hkey
        cases hkey
        exact hpending hpending'

/-- Every pending member is released, and nothing else changes. -/
theorem lookup_releaseAll (s : State P) (now : ℕ) (members : List TrackIdentity)
    (key : TrackIdentity) : (s.releaseAll now members).tracks.lookup key =
      (s.tracks.lookup key).map fun track =>
        if key ∈ members ∧ track.isPending = true then (track.released now).advanceRevision.1
        else track := by
  induction members generalizing s with
  | nil => simp [State.releaseAll]
  | cons candidate rest ih =>
    change ((s.release now candidate).releaseAll now rest).tracks.lookup key = _
    rw [ih, lookup_release, Option.map_map]
    refine congrArg (Option.map · _) (funext fun track => ?_)
    rw [Function.comp_apply]
    by_cases hfirst : key = candidate ∧ track.isPending = true
    · -- released by the first, it does not wait for another
      rw [if_pos hfirst, isPending_released, if_neg (fun h => Bool.noConfusion h.2),
        if_pos ⟨hfirst.1 ▸ mem_cons_self, hfirst.2⟩]
    · rw [if_neg hfirst]
      have hmem : key ∈ rest ∧ track.isPending = true ↔
          key ∈ candidate :: rest ∧ track.isPending = true := by
        rw [mem_cons]
        tauto
      simp only [hmem]

/-- An attempt releases nothing, or all of the surface's waiting members. -/
theorem tryStartSynchronized_cases (s : State P) (now : ℕ) (identity : TrackIdentity)
    (audioReady : Bool) : (s.tryStartSynchronized now identity audioReady).1 = s ∨
      ∃ members, s.members identity.surface = some members ∧
        (s.tryStartSynchronized now identity audioReady).1 = s.releaseAll now members ∧
          ∀ member ∈ members, ∀ track, s.tracks.lookup member = some track →
            track.holdsBack = false := by
  unfold State.tryStartSynchronized
  split
  · exact Or.inl rfl
  split
  · exact Or.inl rfl
  rename_i members hmembers
  dsimp only
  split
  · exact Or.inl rfl
  rename_i hready
  split
  · exact Or.inl rfl
  · refine Or.inr ⟨members, hmembers, rfl, fun member hmember track htrack => ?_⟩
    rw [not_or] at hready
    have hnone := hready.2
    rw [Bool.not_eq_true, List.any_eq_false] at hnone
    exact Bool.not_eq_true _ ▸ hnone track (List.mem_filterMap.mpr ⟨member, hmember, htrack⟩)

variable {target : PresentationTarget P} {reports : List (Report P)} {report : Report P}
  {key : TrackIdentity} {track track' : Track P}

/-- A waiting member has output: its start is of the current epoch, and a video has a picture from
the start on, or the end of its media, delivered in the epoch and the generation. -/
structure Ready (target : PresentationTarget P) (reports : List (Report P))
    (member : TrackIdentity) (track : Track P) : Prop where
  settled : track.Settled
  output : ∀ clock, track.playback = some clock → track.configuration.kind = .video →
    (∃ frame : Frame, clock.startPtsUs ≤ frame.ptsUs ∧ DeliveredIn target reports member track.state
        (.publishDecodedFrame member track.state.channelGeneration frame)) ∨
      DeliveredIn target reports member track.state
        (.markBufferedEnded member track.state.channelGeneration)

theorem Attested.ready (h : Attested target reports key track) (hpending : track.isPending = true)
    (hready : track.holdsBack = false) : Ready target reports key track := by
  refine ⟨h.settled, fun clock hclock hvideo => ?_⟩
  unfold Track.isPending at hpending
  unfold Track.holdsBack at hready
  rw [hclock, any_some] at hpending hready
  simp only [hpending, Bool.true_and, Bool.or_eq_false_iff, hvideo, beq_self_eq_true,
    Bool.and_eq_false_iff, decide_eq_false_iff_not, not_not] at hready
  rcases hready.2 with hframe | hended
  · left
    cases hheld : track.frame with
    | none =>
      rw [hheld, all_none] at hframe
      cases hframe
    | some frame =>
      rw [hheld, all_some, decide_eq_false_iff_not, not_lt] at hframe
      exact ⟨frame, hframe, h.frame frame hheld⟩
  · exact Or.inr (h.ended hended)

theorem holdsBack_of_hasOutput (hsettled : track.Settled) (houtput : track.hasOutput) :
    track.holdsBack = false := by
  unfold Track.holdsBack
  cases hclock : track.playback with
  | none => rfl
  | some clock =>
    rw [any_some]
    by_cases hpending : clock.synchronizedPending = true
    · have hepoch := hsettled clock hclock hpending
      simp only [hpending, hepoch, bne_self_eq_false, Bool.false_or, Bool.true_and,
        Bool.and_eq_false_iff, beq_eq_false_iff_ne, decide_eq_false_iff_not, not_not]
      by_cases hvideo : track.configuration.kind = .video
      · rcases houtput clock hclock hvideo with hframe | hended
        · left
          right
          cases hheld : track.frame with
          | none =>
            rw [hheld] at hframe
            cases hframe
          | some =>
            rw [hheld, any_some, decide_eq_true_eq] at hframe
            rw [all_some, decide_eq_false_iff_not, not_lt]
            exact hframe
        · exact Or.inr hended
      · exact Or.inl (Or.inl hvideo)
    · rw [Bool.not_eq_true] at hpending
      rw [hpending, Bool.false_and]

theorem startedAt_releaseAll {now : ℕ} {members : List TrackIdentity} {member : TrackIdentity}
    (hmember : member ∈ members) (htrack : s.tracks.lookup member = some track)
    (hpending : track.isPending = true) :
    (s.releaseAll now members).StartedAt now member track := by
  refine ⟨(track.released now).advanceRevision.1, ?_, playback_released track now⟩
  rw [lookup_releaseAll, htrack, map_some, if_pos ⟨hmember, hpending⟩]

/-! ### Starts over a run -/

/-- The starts of a surface's synchronized tracks after a run. -/
structure StartsTogether (target : PresentationTarget P) (reports : List (Report P)) : Prop where
  /-- A clock sets off by a PLAY that waits for nothing, or with all the surface's waiting tracks
  at one instant, when each of them is ready. -/
  waits : ∀ report key track',
    (reached target (reports ++ [report])).tracks.lookup key = some track' →
      track'.isRunning = true →
        (∃ track, (reached target reports).tracks.lookup key = some track ∧
          track.isRunning = true) ∨
        (∃ now identity startPtsUs,
          report.request = .configurePlayback now identity startPtsUs false ∧
            key.surface = identity.surface) ∨
        ∃ now identity, report.request = .tryStartSynchronized now identity true ∧
          key.surface = identity.surface ∧
          ∀ member track, (reached target reports).Waits key.surface member track →
            Ready target reports member track ∧
              (reached target (reports ++ [report])).StartedAt now member track
  /-- An attempt at which every waiting track has output releases them all. -/
  together : ∀ now identity,
    (∀ member track, (reached target reports).Waits identity.surface member track →
      track.hasOutput ∧ (P.advance track.state.revision).isSome) →
    ∀ member track, (reached target reports).Waits identity.surface member track →
      (((reached target reports).perform (.tryStartSynchronized now identity true)).1).StartedAt
        now member track
  /-- After a PAUSE no clock of the surface starts without another PLAY. -/
  pauses : ∀ report now identity audioPts later,
    report.request = .pausePlaybackAt now identity audioPts →
    ((reached target reports).perform report.request).2 = true →
    (∀ other : Report P, other ∈ later → other.request.playsOn identity.surface = false) →
    ∀ key track, key.surface = identity.surface →
      (reached target (reports ++ report :: later)).tracks.lookup key = some track → track.Idle
  /-- Nor does that of a waiting track which came to another epoch. -/
  cancels : ∀ report key track track' later, (reached target reports).Timely report →
    (reached target reports).tracks.lookup key = some track → track.isPending = true →
    (reached target (reports ++ [report])).tracks.lookup key = some track' →
    track'.state.mediaEpoch ≠ track.state.mediaEpoch →
    (∀ other : Report P, other ∈ later → other.request.playsOn key.surface = false) →
    ∀ track'', (reached target (reports ++ report :: later)).tracks.lookup key = some track'' →
      track''.Idle

section

variable (hP : P.KeepsOutput) {request : Request P}
  (h : ReflTransGen (Track.Work key request) track track')
include hP request h

theorem works_idle (hplay : request.playsOn key.surface = false) (hidle : track.Idle) :
    track'.Idle := by
  induction h with
  | refl => exact hidle
  | tail _ hwork ih => exact (Track.effect_of_work hP hwork).idle hplay ih

theorem works_run (hnot : track.isRunning = false) (hruns : track'.isRunning = true) :
    (∃ now identity startPtsUs, request = .configurePlayback now identity startPtsUs false ∧
        key.surface = identity.surface) ∨
      ∃ now identity, request = .tryStartSynchronized now identity true ∧
        key.surface = identity.surface := by
  induction h with
  | refl => cases hnot.symm.trans hruns
  | @tail middle _ _ hwork ih =>
    by_cases hmiddle : middle.isRunning = true
    · exact ih hmiddle
    · exact (Track.effect_of_work hP hwork).runs (Bool.not_eq_true _ ▸ hmiddle) hruns

end

/-- What is idle stays idle, and so does what is made anew. -/
theorem idle_perform (hP : P.KeepsOutput) (request : Request P)
    (hplay : request.playsOn key.surface = false)
    (hidle : ∀ track, s.tracks.lookup key = some track → track.Idle) (track' : Track P)
    (h : (s.perform request).1.tracks.lookup key = some track') : track'.Idle := by
  rcases track_perform s request h with ⟨track, htrack, hworks, -⟩ | ⟨_, -, -, rfl⟩
  · exact works_idle hP hworks hplay (hidle track htrack)
  · exact idle_of_none rfl

theorem idle_run (hP : P.KeepsOutput) (reports later : List (Report P))
    (hidle : ∀ track, (reached target reports).tracks.lookup key = some track → track.Idle)
    (hplay : ∀ other ∈ later, other.request.playsOn key.surface = false) :
    ∀ track, (reached target (reports ++ later)).tracks.lookup key = some track → track.Idle := by
  induction later using List.reverseRecOn with
  | nil =>
    rw [append_nil]
    exact hidle
  | append_singleton _ other ih =>
    obtain ⟨hlater, hother⟩ := List.forall_mem_append.mp hplay
    rw [← append_assoc, reached_snoc]
    exact idle_perform hP other.request (hother other (mem_singleton_self other)) (ih hlater)

/-- A PAUSE that comes to its end leaves its tracks idle, and leaves idle what is. -/
theorem idle_pauseAll (now : ℕ) (audioPts : Option ℤ) (candidates : List TrackIdentity)
    (s : State P) (h : (s.pauseAll now audioPts candidates).2 = .ok ())
    (hkey : key ∈ candidates ∨ ∀ track, s.tracks.lookup key = some track → track.Idle) :
    ∀ track', (s.pauseAll now audioPts candidates).1.tracks.lookup key = some track' →
      track'.Idle := by
  induction candidates generalizing s with
  | nil => exact hkey.resolve_left not_mem_nil
  | cons candidate rest ih =>
    unfold pauseAll at h ⊢
    cases hcandidate : s.tracks.lookup candidate with
    | none =>
      rw [hcandidate] at h
      refine ih s h ?_
      rcases hkey with hkey | hidle
      · rcases List.mem_cons.mp hkey with rfl | hrest
        · refine Or.inr fun track htrack => ?_
          rw [hcandidate] at htrack
          cases htrack
        · exact Or.inl hrest
      · exact Or.inr hidle
    | some found =>
      rw [hcandidate] at h
      dsimp only at h ⊢
      have hfound := found.halted_idle now audioPts
      rcases heq : found.pause now audioPts with ⟨written, _ | ⟨⟨⟩⟩⟩
      · rw [heq] at h
        cases h
      rw [heq] at h hfound
      refine ih _ h ?_
      have hset : ∀ track, (s.setTrack candidate written).tracks.lookup key = some track →
          (key ≠ candidate → ∀ track, s.tracks.lookup key = some track → track.Idle) →
            track.Idle := by
        intro track htrack hother
        change (s.tracks.insert candidate written).lookup key = some track at htrack
        rw [SortedMap.lookup_insert] at htrack
        split at htrack
        · cases htrack
          exact hfound
        · rename_i hne
          exact hother hne track htrack
      rcases hkey with hkey | hidle
      · by_cases hne : key = candidate
        · exact Or.inr fun track htrack => hset track htrack fun h => absurd hne h
        · exact Or.inl ((List.mem_cons.mp hkey).resolve_left hne)
      · exact Or.inr fun track htrack => hset track htrack fun _ => hidle

theorem idle_pause (now : ℕ) (identity : TrackIdentity) (audioPts : Option ℤ)
    (hkey : key.surface = identity.surface)
    (h : (s.perform (.pausePlaybackAt now identity audioPts)).2 = true) (track' : Track P)
    (htrack : (s.perform (.pausePlaybackAt now identity audioPts)).1.tracks.lookup key =
      some track') : track'.Idle := by
  change (s.pausePlaybackAt now identity audioPts).2.isOk = true at h
  change (s.pausePlaybackAt now identity audioPts).1.tracks.lookup key = some track' at htrack
  unfold pausePlaybackAt at h htrack
  split at h
  · cases h
  rename_i hexists
  rw [if_neg hexists] at htrack
  refine idle_pauseAll now audioPts _ s ?_ ?_ track' htrack
  · generalize (s.pauseAll now audioPts _).2 = result at h
    cases result with
    | error => cases h
    | ok => rfl
  · by_cases hmember : ∃ track, s.tracks.lookup key = some track
    · obtain ⟨track, htrack⟩ := hmember
      refine Or.inl (List.mem_filter.mpr ⟨?_, decide_eq_true hkey⟩)
      exact List.mem_map.mpr ⟨_, SortedMap.mem_entries.mpr htrack, rfl⟩
    · exact Or.inr fun track htrack => absurd ⟨track, htrack⟩ hmember

/-- A waiting track comes to another epoch by a FLUSH alone. -/
theorem idle_of_epoch (hP : P.KeepsOutput) (hsettled : track.Settled)
    (htimely : (reached target reports).Timely report)
    (hbefore : (reached target reports).tracks.lookup key = some track)
    (hpending : track.isPending = true)
    (hafter : (reached target (reports ++ [report])).tracks.lookup key = some track')
    (hepoch : track'.state.mediaEpoch ≠ track.state.mediaEpoch) : track'.Idle := by
  rw [reached_snoc] at hafter
  rcases track_perform _ _ hafter with ⟨found, hfound, hworks, hwork⟩ | hcreated
  · obtain rfl : track = found := Option.some_inj.mp (hbefore.symm.trans hfound)
    by_cases hloop : report.request.isLoop = true
    · exact absurd (loop_works hP hloop hworks hsettled).1.2 hepoch
    rw [Bool.not_eq_true] at hloop
    rcases hwork hloop with _ | hwork
    · exact absurd rfl hepoch
    have heffect := Track.effect_of_work hP hwork
    generalize hrequest : report.request = request at heffect
    cases heffect with
    | quiet hmedia | published _ hmedia | ended _ hmedia | restarted _ hmedia
    | released _ _ hmedia | paused _ hmedia =>
      exact absurd hmedia.2 hepoch
    | flushed _ _ hplayback => exact idle_of_none hplayback
    | moved hmoves _ hstays =>
      have hdue := htimely.track key
        (by rw [hrequest]; rcases hmoves with ⟨_, _, _, rfl⟩ | ⟨_, _, rfl⟩ <;> rfl) hbefore
      unfold Track.untimely at hdue
      rcases hmoves with ⟨_, _, _, rfl⟩ | ⟨_, _, rfl⟩ <;>
        (rw [hrequest] at hdue
         simp only [hpending, Bool.true_or, Bool.true_and] at hdue
         exact absurd (hstays hdue) hepoch)
    | advanced hstays =>
      have hdue := htimely.track key (by rw [hrequest]; rfl) hbefore
      unfold Track.untimely at hdue
      rw [hrequest] at hdue
      simp only [hpending, Bool.true_and] at hdue
      exact absurd (hstays hdue) hepoch
  · obtain ⟨_, -, hnone, -⟩ := hcreated
    cases hbefore.symm.trans hnone

/-- The members of a timely run start together. -/
theorem starts_together (hP : P.KeepsOutput) (target : PresentationTarget P)
    (reports : List (Report P)) (htimely : (new target).AllTimely reports) :
    StartsTogether target reports where
  waits report key track' htrack' hruns := by
    by_cases hold : ∃ track, (reached target reports).tracks.lookup key = some track ∧
        track.isRunning = true
    · exact Or.inl hold
    right
    have hafter := htrack'
    rw [reached_snoc] at htrack'
    rcases track_perform _ _ htrack' with ⟨track, htrack, hworks, -⟩ | ⟨_, -, -, rfl⟩
    · have hnot : track.isRunning = false :=
        Bool.not_eq_true _ ▸ fun hruns => hold ⟨track, htrack, hruns⟩
      rcases works_run hP hworks hnot hruns with hplay | ⟨now, identity, hrequest, hkey⟩
      · exact Or.inl hplay
      · refine Or.inr ⟨now, identity, hrequest, hkey, fun member waiting hwaits => ?_⟩
        rw [reached_snoc]
        rw [hrequest] at htrack' ⊢
        change ((reached target reports).tryStartSynchronized now identity true).1.tracks.lookup
          key = some track' at htrack'
        change Ready target reports member waiting ∧
          ((reached target reports).tryStartSynchronized now identity true).1.StartedAt now member
            waiting
        obtain ⟨⟨_, hslots, hmember⟩, hwaiting, hpending⟩ := hwaits
        rcases tryStartSynchronized_cases (reached target reports) now identity true with
          hsame | ⟨members, hmembers, hreleased, hready⟩
        · rw [hsame, htrack] at htrack'
          cases htrack'
          cases hnot.symm.trans hruns
        · rw [hkey, hmembers] at hslots
          cases hslots
          rw [hreleased]
          exact ⟨(attested_run hP target reports htimely hwaiting).ready hpending
            (hready member hmember waiting hwaiting),
            startedAt_releaseAll hmember hwaiting hpending⟩
    · cases hruns
  together now identity hready member track hwaits := by
    obtain ⟨⟨members, hmembers, hmember⟩, htrack, hpending⟩ := hwaits
    have hreleased : (reached target reports).perform (.tryStartSynchronized now identity true) =
        ((reached target reports).releaseAll now members, true) := by
      change (reached target reports).tryStartSynchronized now identity true = _
      unfold tryStartSynchronized
      rw [if_neg (fun h => h rfl), hmembers]
      dsimp only
      rw [if_neg, if_neg]
      · rw [Bool.not_eq_true, List.any_eq_false]
        intro other hother
        obtain ⟨id, hid, hlookup⟩ := List.mem_filterMap.mp hother
        intro hexhausted
        rw [Bool.and_eq_true] at hexhausted
        have hadvance :=
          (hready id other ⟨⟨members, hmembers, hid⟩, hlookup, hexhausted.1⟩).2
        rw [Option.isNone_iff_eq_none.mp hexhausted.2] at hadvance
        cases hadvance
      · rintro (hnone | hheld)
        · exact hnone (List.any_eq_true.mpr
            ⟨track, List.mem_filterMap.mpr ⟨member, hmember, htrack⟩, hpending⟩)
        · obtain ⟨other, hother, hholds⟩ := List.any_eq_true.mp hheld
          obtain ⟨id, hid, hlookup⟩ := List.mem_filterMap.mp hother
          by_cases hwaits : other.isPending = true
          · have houtput := (hready id other ⟨⟨members, hmembers, hid⟩, hlookup, hwaits⟩).1
            have hsettled := (attested_run hP target reports htimely hlookup).settled
            cases (holdsBack_of_hasOutput hsettled houtput).symm.trans hholds
          · unfold Track.holdsBack at hholds
            unfold Track.isPending at hwaits
            cases hclock : other.playback with
            | none =>
              rw [hclock] at hholds
              cases hholds
            | some =>
              rw [hclock, any_some] at hholds hwaits
              rw [Bool.and_eq_true] at hholds
              exact hwaits hholds.1
    rw [hreleased]
    exact startedAt_releaseAll hmember htrack hpending
  pauses report now identity audioPts later hrequest haccepted hplay key track hkey htrack := by
    rw [append_cons] at htrack
    refine idle_run hP _ later ?_ (fun other hother => hkey ▸ hplay other hother) track htrack
    rw [reached_snoc]
    rw [hrequest] at haccepted ⊢
    exact idle_pause now identity audioPts hkey haccepted
  cancels report key track track' later hreport hbefore hpending hafter hepoch hplay track''
      htrack'' := by
    rw [append_cons] at htrack''
    refine idle_run hP _ later ?_ hplay track'' htrack''
    intro found hfound
    obtain rfl : track' = found := Option.some_inj.mp (hafter.symm.trans hfound)
    exact idle_of_epoch hP (attested_run hP target reports htimely hbefore).settled hreport hbefore
      hpending hafter hepoch

section Group

/-- A track with sound beside the viewer's picture. -/
def viewerSound : TrackIdentity := ⟨viewerSurface, 2⟩

/-- A picture and its sound, both live on their channels. -/
def groupRun : List (Report Protocol.plain) :=
  [⟨.registerSession viewer 1, 0⟩,
    ⟨.createSurface viewerSurface { contextId := 1, surfaceId := 1 }, 0⟩,
    ⟨.createTrack viewerTrack
      { contextId := 1, surfaceId := 1, trackId := 1, slot := 1, mode := .timed, kind := .video },
      0⟩,
    ⟨.createTrack viewerSound
      { contextId := 1, surfaceId := 1, trackId := 2, slot := 2, mode := .timed, kind := .audio },
      0⟩,
    ⟨.acceptChannel viewerTrack 1 1024 8, 0⟩, ⟨.acceptChannel viewerSound 1 1024 8, 0⟩,
    ⟨.activateTracks viewerSurface 1 [⟨1, 1, 1, {.channelAccepted}⟩, ⟨2, 2, 1, {.channelAccepted}⟩],
      0⟩]

/-- The picture is flushed to epoch 1 and told to wait, and a frame of epoch 0 that was on its way
arrives. -/
def lateRun : List (Report Protocol.plain) :=
  groupRun ++ [⟨.flushPlayback viewerTrack 1, 0⟩, ⟨.configurePlayback 5 viewerTrack 0 true, 0⟩,
    ⟨.publishDecodedFrame viewerTrack 1 (picture 1), 0⟩]

/-- The frame of the earlier epoch releases the sound, though the picture has nothing of its
own. -/
theorem late_frame_releases : ¬ StartsTogether PresentationTarget.plain lateRun := by
  intro h
  have hstart : ((reached PresentationTarget.plain
      (lateRun ++ [⟨.tryStartSynchronized 9 viewerTrack true, 0⟩])).tracks.lookup viewerSound).any
        (·.isRunning) = true := by decide +kernel
  obtain ⟨sound, hsound, hruns⟩ := (Option.any_eq_true _ _).mp hstart
  have hwaiting : ((reached PresentationTarget.plain lateRun).tracks.lookup viewerTrack).any
      (fun track => track.isPending && track.state.mediaEpoch == 1 &&
        track.configuration.kind == .video && track.playback.isSome) = true := by decide +kernel
  obtain ⟨track, htrack, hwaits⟩ := (Option.any_eq_true _ _).mp hwaiting
  simp only [Bool.and_eq_true, beq_iff_eq] at hwaits
  obtain ⟨⟨⟨hpending, hepoch⟩, hvideo⟩, hplayback⟩ := hwaits
  obtain ⟨clock, hclock⟩ := Option.isSome_iff_exists.mp hplayback
  have hnot : ((reached PresentationTarget.plain lateRun).tracks.lookup viewerSound).all
      (!·.isRunning) = true := by decide +kernel
  rcases h.waits _ viewerSound sound hsound hruns with ⟨_, hearlier, hrunning⟩ |
    ⟨_, _, _, hrequest, _⟩ | ⟨_, _, _, _, hready⟩
  · rw [hearlier, all_some, hrunning] at hnot
    cases hnot
  · cases hrequest
  have hmember : ((reached PresentationTarget.plain lateRun).members viewerSurface).any
      (viewerTrack ∈ ·) = true := by decide +kernel
  obtain ⟨members, hmembers, hmember⟩ := (Option.any_eq_true _ _).mp hmember
  have hready := (hready viewerTrack track
    ⟨⟨members, hmembers, of_decide_eq_true hmember⟩, htrack, hpending⟩).1
  -- every report of the run is of epoch 0
  have hepochs : ∀ report ∈ lateRun, report.epoch = 0 := by decide
  have hnone : ∀ delivery,
      ¬ DeliveredIn PresentationTarget.plain lateRun viewerTrack track.state delivery := by
    intro _ hdelivered
    obtain ⟨report, hreport, _, -, hreported, -⟩ := Since.mem hdelivered
    rw [hepoch, hepochs report hreport] at hreported
    cases hreported
  rcases hready.output clock hclock hvideo with ⟨_, -, hdelivered⟩ | hdelivered
  · exact hnone _ hdelivered
  · exact hnone _ hdelivered

theorem plain_keepsOutput : Protocol.plain.KeepsOutput where
  newTrack := by decide
  acceptChannel _ _ _ _ _ := ⟨rfl, fun h => by simp [Protocol.plain] at h⟩
  admitMedia _ _ := ⟨rfl, fun h => h⟩
  detach _ := ⟨⟨rfl, rfl⟩, fun h => by simp [Protocol.plain] at h⟩
  lose _ := ⟨⟨rfl, rfl⟩, fun h => by simp [Protocol.plain] at h⟩
  advanceChannel _ _ _ _ := by simp [Protocol.plain]
  advanceChannel_refused _ _ _ h := by cases h

theorem group_starts_together : StartsTogether PresentationTarget.plain
    (groupRun ++ [⟨.flushPlayback viewerTrack 1, 0⟩, ⟨.configurePlayback 5 viewerTrack 0 true, 0⟩,
      ⟨.publishDecodedFrame viewerTrack 1 (picture 1), 1⟩]) :=
  starts_together plain_keepsOutput .plain _ (by decide +kernel)

end Group

end State

end Vivido.Scene
