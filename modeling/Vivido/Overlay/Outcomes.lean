import Vivido.Overlay.Removing
import Vivido.Support.Since

/-!
Each submission has one outcome. What is pending is what was entered and not
resolved, and of a snapshot that is not replaced by another one, each pending
submission is its track's current one or is being composed.
-/

namespace Vivido.Overlay

open Vivido.Scene SortedMap List

variable {P : OverlayProtocol} {h h' : Host P} {key : Pending}

def Event.pends : Event → Option (KeyChange Pending)
  | .entered key => some (.opens key)
  | .resolved key _ => some (.closes key)
  | .dropped key => some (.closes key)
  | .composed _ => none

/-- A submission is entered where it is not pending, and resolved where it is. -/
def Event.Legal (pending : List Pending) : Event → Prop
  | .entered key => key ∉ pending
  | .resolved key _ => key ∈ pending
  | .dropped key => key ∈ pending
  | .composed _ => True

/-- What is presented was composed in a finished presentation since it was entered. -/
def Event.Justified (earlier : List Event) : Event → Prop
  | .resolved key .presented => ∃ before keys after, earlier = before ++ .composed keys :: after ∧
      key ∈ keys ∧ .entered key ∉ after
  | _ => True

namespace Host

/-! ### What the log tells -/

/-- The log tells what is pending, and each of its events is right where it stands. -/
structure Told (h : Host P) : Prop where
  pending : h.pending = openKeys Event.pends h.log
  legal : Throughout (openKeys Event.pends) Event.Legal h.log
  justified : Throughout id Event.Justified h.log

section

variable (hh : Told h)
include hh

theorem Told.of_eq (hpending : h'.pending = h.pending) (hlog : h'.log = h.log) : Told h' := by
  refine ⟨?_, ?_, ?_⟩
  · rw [hpending, hlog]
    exact hh.pending
  · rw [hlog]
    exact hh.legal
  · rw [hlog]
    exact hh.justified

/-- One more event, which changes what is pending as it tells. -/
theorem Told.concat {event : Event}
    (hpending : h'.pending = KeyChange.apply h.pending event.pends)
    (hlog : h'.log = h.log ++ [event]) (hlegal : event.Legal h.pending)
    (hjustified : event.Justified h.log) : Told h' := by
  refine ⟨?_, ?_, ?_⟩
  · rw [hpending, hlog, openKeys_concat, hh.pending]
  · rw [hlog]
    exact hh.legal.concat (hh.pending ▸ hlegal)
  · rw [hlog]
    exact hh.justified.concat hjustified

theorem Told.resolve (owner : SessionIdentity) (submission : Submission)
    (outcome : PresentationOutcome)
    (hjustified : (Event.resolved (owner, submission) outcome).Justified h.log) :
    Told (h.resolve owner submission outcome) := by
  unfold Host.resolve
  split
  · rename_i hmem
    exact hh.concat rfl rfl hmem hjustified
  · exact hh

theorem Told.supersede (owner : SessionIdentity) (submission : Submission) :
    Told (h.supersede owner submission) := by
  unfold Host.supersede
  split
  · exact hh
  · exact hh.resolve owner submission .superseded trivial

theorem Told.resolveAll (keys : List Pending) : Told (h.resolveAll keys) := by
  unfold Host.resolveAll
  induction keys generalizing h with
  | nil => exact hh
  | cons first _ ih => exact ih (hh.resolve first.1 first.2 .superseded trivial)

theorem Told.retirePresentation (identity : SurfaceIdentity) :
    Told (h.retirePresentation identity) := by
  rw [retirePresentation_eq]
  exact (hh.resolveAll (h.pending.filter fun key => key.surface = identity)).of_eq rfl rfl

theorem Told.dropped (keys : List Pending) (hkeys : keys.Nodup)
    (hmem : ∀ key ∈ keys, key ∈ h.pending)
    (hpending : h'.pending = h.pending.filter fun key => key ∉ keys)
    (hlog : h'.log = h.log ++ keys.map .dropped) : Told h' := by
  induction keys generalizing h with
  | nil => exact hh.of_eq (by simpa using hpending) (by simpa using hlog)
  | cons key keys ih =>
    rw [nodup_cons] at hkeys
    have hnext : Told { h.record (.dropped key) with
        pending := h.pending.filter fun other => other ≠ key } :=
      hh.concat rfl rfl (hmem key (by simp)) trivial
    refine ih hnext hkeys.2 (fun other hother => ?_) ?_ ?_
    · refine List.mem_filter.mpr ⟨hmem other (by simp [hother]), decide_eq_true fun heq => ?_⟩
      exact hkeys.1 (heq ▸ hother)
    · rw [hpending]
      dsimp only
      rw [filter_filter]
      refine filter_congr fun other _ => ?_
      simp [Bool.and_comm]
    · rw [hlog]
      exact (append_assoc _ [Event.dropped key] _).symm

theorem Told.pending_nodup : h.pending.Nodup := by
  rw [hh.pending]
  have hlegal := hh.legal
  generalize h.log = log at hlegal
  refine hlegal.induct (fun log => (openKeys Event.pends log).Nodup) nodup_nil ?_
  intro _ event hnodup hevent
  refine openKeys_nodup_concat hnodup fun key hopens => ?_
  cases event with
  | entered =>
    cases hopens
    exact hevent
  | _ => cases hopens

theorem Told.removeOwner (owner : SessionIdentity) : Told (h.removeOwner owner) := by
  refine hh.dropped (h.pending.filter fun key => key.1 = owner) (hh.pending_nodup.filter _)
    (fun key hkey => (List.mem_filter.mp hkey).1) ?_ rfl
  refine filter_congr fun key hkey => ?_
  rw [decide_eq_decide, mem_filter, decide_eq_true_eq]
  constructor
  · exact fun hne hboth => hne hboth.2
  · exact fun hnot heq => hnot ⟨hkey, heq⟩

theorem Told.enter (hnew : key ∉ h.pending) : Told (h.enter key) := by
  refine hh.concat ?_ rfl hnew trivial
  exact if_neg hnew

end

/-! ### Where submissions are -/

/-- Submissions and drawings are under the tracks and surfaces that they are of. -/
structure Placed (h : Host P) : Prop where
  submissions : ∀ track submission, h.submissions.lookup track = some submission →
    Pending.track (track.surface.context.session, submission) = track
  inflight : ∀ surface drawing, h.inflight.lookup surface = some drawing →
    drawing.window = surface ∧ drawing.key.surface = surface
  displayed : ∀ surface drawing, h.displayed.lookup surface = some drawing →
    drawing.window = surface ∧ drawing.key.surface = surface

/-- What is pending is not newer than what was accepted for its surface. -/
def Backed (h : Host P) : Prop :=
  ∀ key ∈ h.pending, ∃ accepted, h.accepted.lookup key.surface = some accepted ∧
    key.2.revision ≤ accepted

/-- The submission is its track's current one. -/
def Current (h : Host P) (key : Pending) : Prop := h.submissions.lookup key.track = some key.2

/-- What is pending is current or is being composed. -/
def Held (h : Host P) : Prop := ∀ key ∈ h.pending, h.Current key ∨ h.isInflight key = true

theorem isInflight_iff : h.isInflight key = true ↔
    ∃ surface drawing, h.inflight.lookup surface = some drawing ∧ drawing.key = key := by
  unfold isInflight
  rw [any_eq_true]
  constructor
  · rintro ⟨⟨surface, drawing⟩, hmem, hkey⟩
    exact ⟨surface, drawing, mem_entries.mp hmem, of_decide_eq_true hkey⟩
  · rintro ⟨surface, drawing, hlookup, hkey⟩
    exact ⟨(surface, drawing), mem_entries.mpr hlookup, decide_eq_true hkey⟩

theorem isInflight_congr (hinflight : h'.inflight = h.inflight) (key : Pending) :
    h'.isInflight key = h.isInflight key := by
  unfold isInflight
  rw [hinflight]

theorem Settles.placed (hsettles : Settles h h') (hh : Placed h) : Placed h' := by
  unfold Settles at hsettles
  rw [hsettles]
  exact ⟨hh.submissions, hh.inflight, hh.displayed⟩

theorem resolve_pending_subset (h : Host P) (owner : SessionIdentity) (submission : Submission)
    (outcome : PresentationOutcome) : (h.resolve owner submission outcome).pending ⊆ h.pending := by
  rw [pending_resolve]
  exact fun _ hkey => (List.mem_filter.mp hkey).1

theorem supersede_settles (h : Host P) (owner : SessionIdentity) (submission : Submission) :
    Settles h (h.supersede owner submission) := by
  unfold Host.supersede
  split
  · exact .refl h
  · exact resolve_settles ..

/-- What is superseded is being composed or no longer pending; nothing else changes its state. -/
theorem mem_pending_supersede (owner : SessionIdentity) (submission : Submission)
    (hkey : key ∈ (h.supersede owner submission).pending) :
    key ∈ h.pending ∧ (key = (owner, submission) → h.isInflight key = true) := by
  unfold Host.supersede at hkey
  split at hkey
  · rename_i hinflight
    exact ⟨hkey, fun heq => heq ▸ hinflight⟩
  · rw [pending_resolve, mem_filter, decide_eq_true_eq] at hkey
    exact ⟨hkey.1, fun heq => absurd heq hkey.2⟩

/-- Fewer submissions are pending, and none is displaced. -/
theorem Held.settles (hh : Held h) (hsettles : Settles h h')
    (hsubset : h'.pending ⊆ h.pending) : Held h' := by
  intro key hkey
  unfold Settles at hsettles
  have hcurrent : h'.Current key ↔ h.Current key := by
    unfold Current
    rw [hsettles]
  rw [hcurrent, isInflight_congr (h := h) (by rw [hsettles])]
  exact hh key (hsubset hkey)

theorem Backed.settles (hh : Backed h) (hsettles : Settles h h')
    (hsubset : h'.pending ⊆ h.pending) : Backed h' := by
  intro key hkey
  unfold Settles at hsettles
  rw [hsettles]
  exact hh key (hsubset hkey)

theorem supersede_pending_subset (h : Host P) (owner : SessionIdentity) (submission : Submission) :
    (h.supersede owner submission).pending ⊆ h.pending :=
  fun _ hkey => (mem_pending_supersede owner submission hkey).1

/-- What is pending of a host was so before, or is current. -/
def PendingFrom (h h' : Host P) : Prop := ∀ key ∈ h'.pending, key ∈ h.pending ∨ h'.Current key

/-- A track's submission gives way to another one or to none, and is superseded. -/
theorem Held.displaced (hh : Held h) {track : TrackIdentity} {old : Submission}
    (hold : h.submissions.lookup track = some old) (hpending : PendingFrom h h')
    (hinflight : h'.inflight = h.inflight) (hsubmissions : ∀ other, other ≠ track →
      h'.submissions.lookup other = h.submissions.lookup other) :
    Held (h'.supersede track.surface.context.session old) := by
  intro key hkey
  have hsettles := supersede_settles h' track.surface.context.session old
  unfold Settles at hsettles
  obtain ⟨hmem, hsuperseded⟩ := mem_pending_supersede _ _ hkey
  have hsame : (h'.supersede track.surface.context.session old).inflight = h.inflight := by
    rw [hsettles]
    exact hinflight
  have hcurrent_iff :
      (h'.supersede track.surface.context.session old).Current key ↔ h'.Current key := by
    unfold Current
    rw [hsettles]
  rw [isInflight_congr hsame, hcurrent_iff]
  rcases hpending key hmem with hbefore | hcurrent
  · rcases hh key hbefore with hcurrent | hcomposed
    · by_cases htrack : key.track = track
      · right
        have hsubmission : key.2 = old := by
          unfold Current at hcurrent
          rw [htrack, hold] at hcurrent
          exact (Option.some_inj.mp hcurrent).symm
        have heq : key = (track.surface.context.session, old) := by
          rw [← htrack, ← hsubmission]
          rfl
        rw [← isInflight_congr hinflight]
        exact hsuperseded heq
      · left
        unfold Current at hcurrent ⊢
        rw [hsubmissions _ htrack]
        exact hcurrent
    · exact Or.inr hcomposed
  · exact Or.inl hcurrent

/-- A track that has no submission is given one or stays without. -/
theorem Held.granted (hh : Held h) {track : TrackIdentity}
    (hnone : h.submissions.lookup track = none) (hpending : PendingFrom h h')
    (hinflight : h'.inflight = h.inflight) (hsubmissions : ∀ other, other ≠ track →
      h'.submissions.lookup other = h.submissions.lookup other) : Held h' := by
  intro key hkey
  rw [isInflight_congr hinflight]
  rcases hpending key hkey with hbefore | hcurrent
  · rcases hh key hbefore with hcurrent | hcomposed
    · left
      unfold Current at hcurrent ⊢
      rw [hsubmissions _ fun htrack => ?_]
      · exact hcurrent
      · rw [htrack, hnone] at hcurrent
        cases hcurrent
    · exact Or.inr hcomposed
  · exact Or.inl hcurrent

/-! ### Removing -/

/-- All that is to be kept, where the last only holds of runs without a replaced snapshot. -/
structure Sound (h : Host P) : Prop where
  told : Told h
  placed : Placed h
  backed : Backed h

theorem Sound.settles (hh : Sound h) (hsettles : Settles h h') (hsubset : h'.pending ⊆ h.pending)
    (htold : Told h') : Sound h' :=
  ⟨htold, hsettles.placed hh.placed, hh.backed.settles hsettles hsubset⟩

theorem Sound.supersede (hh : Sound h) (owner : SessionIdentity) (submission : Submission) :
    Sound (h.supersede owner submission) :=
  hh.settles (supersede_settles ..) (supersede_pending_subset ..) (hh.told.supersede ..)

/-- A change of tables that nothing here is about. -/
theorem Sound.of_eq (hh : Sound h) (hpending : h'.pending = h.pending) (hlog : h'.log = h.log)
    (hsubmissions : h'.submissions = h.submissions) (hinflight : h'.inflight = h.inflight)
    (hdisplayed : h'.displayed = h.displayed) (haccepted : h'.accepted = h.accepted) :
    Sound h' := by
  refine ⟨hh.told.of_eq hpending hlog, ⟨?_, ?_, ?_⟩, ?_⟩
  · rw [hsubmissions]
    exact hh.placed.submissions
  · rw [hinflight]
    exact hh.placed.inflight
  · rw [hdisplayed]
    exact hh.placed.displayed
  · unfold Backed
    rw [hpending, haccepted]
    exact hh.backed

theorem Held.of_eq (hh : Held h) (hpending : h'.pending = h.pending)
    (hsubmissions : h'.submissions = h.submissions) (hinflight : h'.inflight = h.inflight) :
    Held h' := by
  intro key hkey
  rw [isInflight_congr hinflight]
  unfold Current
  rw [hsubmissions]
  exact hh key (hpending ▸ hkey)

theorem Sound.retirePresentation (hh : Sound h) (identity : SurfaceIdentity) :
    Sound (h.retirePresentation identity) := by
  have htold := hh.told.retirePresentation identity
  rw [retirePresentation_eq] at htold ⊢
  refine ⟨htold, ⟨?_, ?_, ?_⟩, ?_⟩
  · intro track submission hlookup
    exact hh.placed.submissions track submission (lookup_of_filter hlookup)
  · intro surface drawing hlookup
    exact hh.placed.inflight surface drawing (lookup_erase_some hlookup).2
  · intro surface drawing hlookup
    exact hh.placed.displayed surface drawing (lookup_erase_some hlookup).2
  · intro key hkey
    exact hh.backed key ((mem_pending_retired h identity key).mp hkey).1

theorem Held.retirePresentation (hh : Held h) (hplaced : Placed h) (identity : SurfaceIdentity) :
    Held (h.retirePresentation identity) := by
  rw [retirePresentation_eq]
  intro key hkey
  obtain ⟨hmem, hne⟩ := (mem_pending_retired h identity key).mp hkey
  rcases hh key hmem with hcurrent | hcomposed
  · left
    refine (lookup_filter_kept fun _ => ?_).trans hcurrent
    exact decide_eq_true hne
  · right
    obtain ⟨surface, drawing, hlookup, rfl⟩ := isInflight_iff.mp hcomposed
    refine isInflight_iff.mpr ⟨surface, drawing, ?_, rfl⟩
    refine lookup_erase.trans ((if_neg ?_).trans hlookup)
    rw [← (hplaced.inflight surface drawing hlookup).2]
    exact hne

theorem Sound.removeSurface (hh : Sound h) (identity : SurfaceIdentity) :
    Sound (h.removeSurface identity) := by
  have hfirst : Sound { h with
      layouts := h.layouts.filter fun layout => layout.1 ≠ identity
      editor := h.editor.filter fun editor => editor.1 ≠ identity } :=
    hh.of_eq rfl rfl rfl rfl rfl rfl
  have hretired := hfirst.retirePresentation identity
  refine ⟨hretired.told.of_eq rfl rfl, ⟨hretired.placed.submissions, hretired.placed.inflight,
    hretired.placed.displayed⟩, fun key hkey => ?_⟩
  obtain ⟨accepted, hlookup, hle⟩ := hretired.backed key hkey
  refine ⟨accepted, lookup_erase.trans ((if_neg ?_).trans hlookup), hle⟩
  have hpending : key ∈ (Host.retirePresentation { h with
      layouts := h.layouts.filter fun layout => layout.1 ≠ identity
      editor := h.editor.filter fun editor => editor.1 ≠ identity } identity).pending := hkey
  rw [retirePresentation_eq] at hpending
  exact ((mem_pending_retired _ identity key).mp hpending).2

theorem Held.removeSurface (hh : Held h) (hplaced : Placed h) (identity : SurfaceIdentity) :
    Held (h.removeSurface identity) := by
  have hfirst : Held { h with
      layouts := h.layouts.filter fun layout => layout.1 ≠ identity
      editor := h.editor.filter fun editor => editor.1 ≠ identity } := hh.of_eq rfl rfl rfl
  have hfirst' : Placed { h with
      layouts := h.layouts.filter fun layout => layout.1 ≠ identity
      editor := h.editor.filter fun editor => editor.1 ≠ identity } :=
    ⟨hplaced.submissions, hplaced.inflight, hplaced.displayed⟩
  exact (hfirst.retirePresentation hfirst' identity).of_eq rfl rfl rfl

theorem Sound.removeSurfaces (hh : Sound h) (ids : List SurfaceIdentity) :
    Sound (ids.foldl Host.removeSurface h) ∧ (Held h → Held (ids.foldl Host.removeSurface h)) := by
  induction ids generalizing h with
  | nil => exact ⟨hh, id⟩
  | cons first _ ih =>
    obtain ⟨hsound, hheld⟩ := ih (hh.removeSurface first)
    exact ⟨hsound, fun h => hheld (h.removeSurface hh.placed first)⟩

theorem Sound.removeOwner (hh : Sound h) (owner : SessionIdentity) :
    Sound (h.removeOwner owner) := by
  refine ⟨hh.told.removeOwner owner, ⟨?_, ?_, ?_⟩, ?_⟩
  · intro track submission hlookup
    exact hh.placed.submissions track submission (lookup_of_filter hlookup)
  · intro surface drawing hlookup
    exact hh.placed.inflight surface drawing (lookup_of_filter hlookup)
  · intro surface drawing hlookup
    exact hh.placed.displayed surface drawing (lookup_of_filter hlookup)
  · intro key hkey
    obtain ⟨hmem, hne⟩ := List.mem_filter.mp hkey
    obtain ⟨accepted, hlookup, hle⟩ := hh.backed key hmem
    exact ⟨accepted, (lookup_filter_kept fun _ => hne).trans hlookup, hle⟩

theorem Held.removeOwner (hh : Held h) (hplaced : Placed h) (owner : SessionIdentity) :
    Held (h.removeOwner owner) := by
  intro key hkey
  obtain ⟨hmem, hne⟩ := List.mem_filter.mp hkey
  rcases hh key hmem with hcurrent | hcomposed
  · exact Or.inl ((lookup_filter_kept fun _ => hne).trans hcurrent)
  right
  obtain ⟨surface, drawing, hlookup, rfl⟩ := isInflight_iff.mp hcomposed
  refine isInflight_iff.mpr ⟨surface, drawing, ?_, rfl⟩
  refine (lookup_filter_kept fun _ => ?_).trans hlookup
  rw [← (hplaced.inflight surface drawing hlookup).1]
  exact hne

/-! ### Tracks -/

/-- The scene of a track goes, and its submission with it. -/
def dropTrack (h : Host P) (track : TrackIdentity) : Host P :=
  let removed := { h with scenes := h.scenes.erase track }
  match removed.submissions.lookup track with
  | none => removed
  | some old =>
    { removed with submissions := removed.submissions.erase track }.supersede
      track.surface.context.session old

theorem Sound.dropTrack (hh : Sound h) (track : TrackIdentity) : Sound (h.dropTrack track) := by
  unfold Host.dropTrack
  dsimp only
  split
  · exact hh.of_eq rfl rfl rfl rfl rfl rfl
  have herased : Sound { h with
      scenes := h.scenes.erase track, submissions := h.submissions.erase track } := by
    refine ⟨hh.told.of_eq rfl rfl, ⟨?_, hh.placed.inflight, hh.placed.displayed⟩, hh.backed⟩
    intro other submission hlookup
    exact hh.placed.submissions other submission (lookup_erase_some hlookup).2
  exact herased.supersede _ _

theorem Held.dropTrack (hh : Held h) (track : TrackIdentity) : Held (h.dropTrack track) := by
  unfold Host.dropTrack
  dsimp only
  split
  · exact hh.of_eq rfl rfl rfl
  · rename_i old hold
    refine hh.displaced hold (fun key hkey => Or.inl hkey) rfl fun other hne => ?_
    exact lookup_erase.trans (if_neg hne)

theorem dropTrack_accepted (h : Host P) (track : TrackIdentity) :
    (h.dropTrack track).accepted = h.accepted ∧ (h.dropTrack track).pending ⊆ h.pending := by
  unfold dropTrack
  dsimp only
  split
  · exact ⟨rfl, fun _ hkey => hkey⟩
  rename_i old hold
  have hsettles := supersede_settles { h with
    scenes := h.scenes.erase track, submissions := h.submissions.erase track }
    track.surface.context.session old
  unfold Settles at hsettles
  refine ⟨?_, supersede_pending_subset ..⟩
  rw [hsettles]

theorem removeTrack_eq (h : Host P) (identity : TrackIdentity) :
    h.removeTrack identity =
      { h.dropTrack identity with
        active := (h.dropTrack identity).active.filter fun entry =>
          entry.1 ≠ identity.surface ∨ entry.2.trackId ≠ identity.trackId } := rfl

section

variable (hh : Sound h) (identity : TrackIdentity)
include hh identity

theorem Sound.removeTrack :
    Sound (h.removeTrack identity) ∧ (Held h → Held (h.removeTrack identity)) := by
  rw [removeTrack_eq]
  exact ⟨(hh.dropTrack identity).of_eq rfl rfl rfl rfl rfl rfl,
    fun hheld => (hheld.dropTrack identity).of_eq rfl rfl rfl⟩

/-- The other tracks of a surface go, one by one. -/
theorem Sound.retireOthers :
    Sound (h.retireOthers identity) ∧ (Held h → Held (h.retireOthers identity)) ∧
      (h.retireOthers identity).accepted = h.accepted ∧
      (h.retireOthers identity).pending ⊆ h.pending := by
  unfold Host.retireOthers
  have hentries : ∀ entry ∈ h.scenes.entries.filter fun entry =>
      entry.1.surface = identity.surface ∧ entry.1 ≠ identity,
      entry.1.surface = identity.surface := fun entry hentry =>
    (of_decide_eq_true (List.mem_filter.mp hentry).2).1
  generalize List.filter _ h.scenes.entries = entries at hentries
  induction entries generalizing h with
  | nil => exact ⟨hh, id, rfl, fun _ hkey => hkey⟩
  | cons entry _ ih =>
    have hsurface := hentries entry (by simp)
    obtain ⟨haccepted, hsubset⟩ := dropTrack_accepted h entry.1
    obtain ⟨hsound, hheld, haccepted', hsubset'⟩ := ih (hh.dropTrack entry.1)
      (fun other hother => hentries other (by simp [hother]))
    rw [foldl_cons, ← hsurface]
    rw [← hsurface] at hsound hheld haccepted' hsubset'
    exact ⟨hsound, fun h => hheld (h.dropTrack entry.1), haccepted'.trans haccepted,
      fun _ hkey => hsubset (hsubset' hkey)⟩

/-- A submission for a track, newer than all that its surface has accepted, is installed. -/
theorem Sound.install (generation : ℕ) (compiled : P.Compiled) (submission : Submission)
    (htrack : Pending.track (identity.surface.context.session, submission) = identity)
    (hnewer : ∀ accepted, h.accepted.lookup identity.surface = some accepted →
      accepted < submission.revision) :
    Sound (h.install identity generation submission.revision compiled submission) ∧
      (Held h → Held (h.install identity generation submission.revision compiled submission)) := by
  obtain ⟨hretired, hheld, haccepted, -⟩ := hh.retireOthers identity
  unfold Host.install
  generalize h.retireOthers identity = retired at hretired hheld haccepted
  have hsurface : Pending.surface (identity.surface.context.session, submission) =
      identity.surface := congrArg TrackIdentity.surface htrack
  have hnew : (identity.surface.context.session, submission) ∉ retired.pending := by
    intro hmem
    obtain ⟨accepted, hlookup, hle⟩ := hretired.backed _ hmem
    rw [hsurface, haccepted] at hlookup
    have := hnewer accepted hlookup
    change submission.revision ≤ accepted at hle
    omega
  generalize hafter : ({ ({ retired with
    scenes := retired.scenes.insert identity (generation, submission.revision, compiled)
    accepted := retired.accepted.insert identity.surface submission.revision } : Host P).enter
      (identity.surface.context.session, submission) with
    submissions := retired.submissions.insert identity submission } : Host P) = after
  have hpending : after.pending =
      retired.pending ++ [(identity.surface.context.session, submission)] := by
    rw [← hafter]
    exact if_neg hnew
  have hsubmissions : after.submissions = retired.submissions.insert identity submission := by
    rw [← hafter]
  have hinflight : after.inflight = retired.inflight := by
    rw [← hafter]
    rfl
  have hsound : Sound after := by
    have htold : Told after := by
      rw [← hafter]
      refine Told.of_eq (h := ({ retired with
        scenes := retired.scenes.insert identity (generation, submission.revision, compiled)
        accepted := retired.accepted.insert identity.surface submission.revision } : Host P).enter
          (identity.surface.context.session, submission)) ?_ rfl rfl
      exact Told.enter (hretired.told.of_eq rfl rfl) hnew
    refine ⟨htold, ⟨?_, ?_, ?_⟩, ?_⟩
    · intro track other hlookup
      rw [hsubmissions, lookup_insert] at hlookup
      split at hlookup
      · rename_i heq
        cases hlookup
        rw [heq]
        exact htrack
      · exact hretired.placed.submissions track other hlookup
    · rw [hinflight]
      exact hretired.placed.inflight
    · rw [← hafter]
      exact hretired.placed.displayed
    · intro key hkey
      have hlookup : after.accepted = retired.accepted.insert identity.surface
          submission.revision := by
        rw [← hafter]
        rfl
      rw [hpending, mem_append, mem_singleton] at hkey
      rw [hlookup, lookup_insert]
      rcases hkey with hkey | rfl
      · split
        · rename_i heq
          obtain ⟨accepted, hfound, _⟩ := hretired.backed key hkey
          rw [heq, haccepted] at hfound
          have := hnewer accepted hfound
          exact ⟨_, rfl, by omega⟩
        · exact hretired.backed key hkey
      · rw [if_pos hsurface]
        exact ⟨_, rfl, Nat.le_refl _⟩
  have hfrom : PendingFrom retired after := by
    intro _ hkey
    rw [hpending, mem_append, mem_singleton] at hkey
    rcases hkey with hkey | rfl
    · exact Or.inl hkey
    · right
      unfold Current
      rw [hsubmissions, htrack, lookup_insert, if_pos rfl]
  have hothers : ∀ other, other ≠ identity →
      after.submissions.lookup other = retired.submissions.lookup other := by
    intro _ hne
    rw [hsubmissions, lookup_insert_of_ne hne]
  dsimp only
  change Sound (match retired.submissions.lookup identity with
    | none => _
    | some old => _) ∧ (_ → Held (match retired.submissions.lookup identity with
    | none => _
    | some old => _))
  cases hold : retired.submissions.lookup identity with
  | none =>
    dsimp only
    refine ⟨hafter ▸ hsound, fun hbefore => hafter ▸ ?_⟩
    exact (hheld hbefore).granted hold hfrom hinflight hothers
  | some =>
    dsimp only
    refine ⟨hafter ▸ hsound.supersede _ _, fun hbefore => hafter ▸ ?_⟩
    exact (hheld hbefore).displaced hold hfrom hinflight hothers

end

end Host

end Vivido.Overlay
