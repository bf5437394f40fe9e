import Vivido.Scene.Anchoring
import Vivido.Scene.Ceiling

/-!
The posters that detached sessions leave behind. A poster is held by its anchor,
and an anchor of a detached session is held for its posters alone. What takes an
anchor away takes its posters along, and a session without posters is forgotten.
-/

namespace Vivido.Scene

open List

variable {P : Protocol}

namespace State

variable {s s' : State P}

/-- The session left a poster. -/
def OwnsPoster (s : State P) (session : SessionIdentity) : Prop :=
  ∃ poster ∈ s.retainedPosters, poster.anchor.context.session = session

/-- Posters have their anchors, their sessions are detached, there are not too many of them, and an
anchor of a detached session has a poster. -/
structure Pinned (s : State P) : Prop where
  held : ∀ poster ∈ s.retainedPosters, (s.anchors.lookup poster.anchor).isSome = true
  detached : ∀ session, s.OwnsPoster session → session ∈ s.detachedSessions
  length_le : s.retainedPosters.length ≤ maxRetainedPosters
  posted : ∀ identity, (s.anchors.lookup identity).isSome = true →
    identity.context.session ∈ s.detachedSessions →
      ∃ poster ∈ s.retainedPosters, poster.anchor = identity

/-- And each detached session has a poster. -/
structure PostersKept (s : State P) : Prop extends Pinned s where
  owned : ∀ session ∈ s.detachedSessions, s.OwnsPoster session

theorem PostersKept.of_same (h : s.PostersKept)
    (hanchors : ∀ identity, (s'.anchors.lookup identity).isSome =
      (s.anchors.lookup identity).isSome) (hposters : s'.retainedPosters = s.retainedPosters)
    (hdetached : s'.detachedSessions = s.detachedSessions) : s'.PostersKept := by
  refine ⟨⟨fun poster hposter => ?_, fun session hposted => ?_, ?_,
    fun identity hsome hsession => ?_⟩, fun session hsession => ?_⟩
  · rw [hposters] at hposter
    rw [hanchors]
    exact h.held poster hposter
  · rw [OwnsPoster, hposters] at hposted
    rw [hdetached]
    exact h.detached session hposted
  · rw [hposters]
    exact h.length_le
  · rw [hanchors] at hsome
    rw [hdetached] at hsession
    rw [hposters]
    exact h.posted identity hsome hsession
  · rw [hdetached] at hsession
    rw [OwnsPoster, hposters]
    exact h.owned session hsession

theorem PostersKept.of_eq (h : s.PostersKept) (hanchors : s'.anchors = s.anchors)
    (hposters : s'.retainedPosters = s.retainedPosters)
    (hdetached : s'.detachedSessions = s.detachedSessions) : s'.PostersKept :=
  h.of_same (fun identity => by rw [hanchors]) hposters hdetached

theorem PostersKept.invalidateTopology (h : s.PostersKept) :
    s.invalidateTopology.PostersKept := h.of_eq rfl rfl rfl

/-! ### Anchors and posters that go -/

theorem isSome_filter_iff {m : SortedMap AnchorIdentity Vivid.TextAnchor}
    (keep : AnchorIdentity → Prop) [DecidablePred keep] {identity : AnchorIdentity} :
    ((m.filter fun entry => keep entry.1).lookup identity).isSome = true ↔
      (m.lookup identity).isSome = true ∧ keep identity := by
  simp only [Option.isSome_iff_exists, SortedMap.lookup_filter_keys]
  constructor
  · intro h
    obtain ⟨anchor, hkeep, hlookup⟩ := h
    exact ⟨⟨anchor, hlookup⟩, hkeep⟩
  · intro h
    obtain ⟨⟨anchor, hlookup⟩, hkeep⟩ := h
    exact ⟨anchor, hkeep, hlookup⟩

/-- Anchors go together with their posters. -/
theorem Pinned.filter (h : s.Pinned) (keep : AnchorIdentity → Prop) [DecidablePred keep]
    (hanchors : s'.anchors = s.anchors.filter fun entry => keep entry.1)
    (hposters : s'.retainedPosters = s.retainedPosters.filter fun poster => keep poster.anchor)
    (hdetached : s'.detachedSessions = s.detachedSessions) : s'.Pinned := by
  have hmem : ∀ poster, poster ∈ s'.retainedPosters ↔
      poster ∈ s.retainedPosters ∧ keep poster.anchor := by
    intro poster
    rw [hposters, mem_filter, decide_eq_true_eq]
  refine ⟨fun poster hposter => ?_, fun session hposted => ?_, ?_,
    fun identity hsome hsession => ?_⟩
  · obtain ⟨hposter, hkeep⟩ := (hmem poster).mp hposter
    rw [hanchors, isSome_filter_iff]
    exact ⟨h.held poster hposter, hkeep⟩
  · obtain ⟨poster, hposter, howner⟩ := hposted
    rw [hdetached]
    exact h.detached session ⟨poster, ((hmem poster).mp hposter).1, howner⟩
  · rw [hposters]
    exact le_trans (length_filter_le _ _) h.length_le
  · rw [hanchors, isSome_filter_iff] at hsome
    rw [hdetached] at hsession
    obtain ⟨poster, hposter, hanchor⟩ := h.posted identity hsome.1 hsession
    refine ⟨poster, (hmem poster).mpr ⟨hposter, ?_⟩, hanchor⟩
    rw [hanchor]
    exact hsome.2

theorem Pinned.gcDetachedSessions (h : s.Pinned) : s.gcDetachedSessions.PostersKept := by
  have hforgotten : ∀ session, session ∈ (s.detachedSessions.filter fun session =>
      ∀ poster ∈ s.retainedPosters, poster.anchor.context.session ≠ session) ↔
        session ∈ s.detachedSessions ∧ ¬ s.OwnsPoster session := by
    intro session
    rw [Finset.mem_filter, OwnsPoster]
    push Not
    exact Iff.rfl
  have hdetached : ∀ session, session ∈ s.gcDetachedSessions.detachedSessions ↔
      session ∈ s.detachedSessions ∧ s.OwnsPoster session := by
    intro session
    rw [State.gcDetachedSessions, Finset.mem_sdiff, hforgotten]
    by_cases howner : s.OwnsPoster session
    · simp [howner]
    · simp [howner]
  have hheld : ∀ identity, (s.gcDetachedSessions.anchors.lookup identity).isSome = true ↔
      (s.anchors.lookup identity).isSome = true ∧ ¬ (identity.context.session ∈
        s.detachedSessions ∧ ¬ s.OwnsPoster identity.context.session) := by
    intro identity
    rw [← hforgotten]
    exact isSome_filter_iff fun identity => identity.context.session ∉
      s.detachedSessions.filter fun session =>
        ∀ poster ∈ s.retainedPosters, poster.anchor.context.session ≠ session
  refine ⟨⟨fun poster hposter => ?_, fun session hposted => ?_, h.length_le,
    fun identity hsome hsession => ?_⟩, fun session hsession => ?_⟩
  · rw [hheld]
    refine ⟨h.held poster hposter, fun hgone => ?_⟩
    exact hgone.2 ⟨poster, hposter, rfl⟩
  · exact (hdetached session).mpr ⟨h.detached session hposted, hposted⟩
  · exact h.posted identity ((hheld identity).mp hsome).1 ((hdetached _).mp hsession).1
  · exact ((hdetached session).mp hsession).2

theorem PostersKept.removeAnchors (h : s.PostersKept) (removed : List AnchorIdentity) :
    (s.removeAnchors removed).PostersKept := by
  unfold State.removeAnchors
  split
  · exact h
  · exact Pinned.gcDetachedSessions (Pinned.filter h.toPinned (· ∉ removed) rfl rfl rfl)

theorem PostersKept.of_shifts {request : Request P} (h : s.PostersKept)
    (hshifts : Shifts request s s') : s'.PostersKept := by
  rcases hshifts with rfl | ⟨anchors, alternateScreen, _, rfl, hsome, -⟩
  · exact h
  · have hmoved : PostersKept { s.invalidateTopology with anchors, alternateScreen } :=
      h.of_same hsome rfl rfl
    exact hmoved.removeAnchors _

/-! ### Sessions that go -/

theorem PostersKept.removeContexts (h : s.PostersKept) (session : SessionIdentity)
    (contexts : List ℕ) : (s.removeContexts session contexts).PostersKept := by
  unfold State.removeContexts
  dsimp only
  split
  · exact Pinned.gcDetachedSessions (Pinned.filter h.toPinned
      (fun identity => ¬ identity.context.isOf session contexts) rfl rfl rfl)
  · exact Pinned.gcDetachedSessions (Pinned.filter h.toPinned
      (fun identity => ¬ identity.context.isOf session contexts) rfl rfl rfl)

theorem PostersKept.removeSession (h : s.PostersKept) (session : SessionIdentity) :
    (s.removeSession session).PostersKept := by
  have hfiltered :
      Pinned { s.removeSession session with detachedSessions := s.detachedSessions } :=
    Pinned.filter h.toPinned (fun identity => identity.context.session ≠ session) rfl rfl rfl
  have howns : ∀ other, (s.removeSession session).OwnsPoster other ↔
      s.OwnsPoster other ∧ other ≠ session := by
    intro other
    constructor
    · intro howner
      obtain ⟨poster, hposter, rfl⟩ := howner
      obtain ⟨hposter, hne⟩ := List.mem_filter.mp hposter
      exact ⟨⟨poster, hposter, rfl⟩, of_decide_eq_true hne⟩
    · intro howner
      obtain ⟨⟨poster, hposter, rfl⟩, hne⟩ := howner
      exact ⟨poster, List.mem_filter.mpr ⟨hposter, decide_eq_true hne⟩, rfl⟩
  refine ⟨⟨hfiltered.held, fun other howner => ?_, hfiltered.length_le,
    fun identity hsome hother => ?_⟩, fun other hother => ?_⟩
  · obtain ⟨howner, hne⟩ := (howns other).mp howner
    exact Finset.mem_erase.mpr ⟨hne, h.detached other howner⟩
  · exact hfiltered.posted identity hsome (Finset.mem_erase.mp hother).2
  · obtain ⟨hne, hother⟩ := Finset.mem_erase.mp hother
    exact (howns other).mpr ⟨h.owned other hother, hne⟩

theorem session_nodeAnchorIdentity {session : SessionIdentity} {node : SceneNode P.Value}
    {anchor : AnchorIdentity} (h : nodeAnchorIdentity session node = some anchor) :
    anchor.context.session = session := by
  unfold nodeAnchorIdentity at h
  split at h
  · obtain ⟨_, -, h⟩ := Option.bind_eq_some_iff.mp h
    obtain ⟨_, -, h⟩ := Option.bind_eq_some_iff.mp h
    obtain ⟨_, hcontext, h⟩ := Option.bind_eq_some_iff.mp h
    rw [ContextIdentity.anchor?_context h, SessionIdentity.context?_session hcontext]
  · cases h

theorem retainedPoster_anchor {session : SessionIdentity} {node : SceneNode P.Value}
    {poster : RetainedPoster} {pixels : ℕ}
    (h : s.retainedPoster session node = some (poster, pixels)) :
    (s.anchors.lookup poster.anchor).isSome = true ∧ poster.anchor.context.session = session := by
  unfold State.retainedPoster at h
  split at h
  swap
  · cases h
  obtain ⟨_, -, h⟩ := Option.bind_eq_some_iff.mp h
  split at h
  swap
  · cases h
  obtain ⟨_, hanchor, h⟩ := Option.bind_eq_some_iff.mp h
  obtain ⟨position, hposition, h⟩ := Option.bind_eq_some_iff.mp h
  obtain ⟨_, -, h⟩ := Option.bind_eq_some_iff.mp h
  obtain ⟨_, -, h⟩ := Option.bind_eq_some_iff.mp h
  split at h
  · cases h
  obtain ⟨⟨_, _, _⟩, -, h⟩ := Option.bind_eq_some_iff.mp h
  dsimp only at h
  split at h
  · cases h
  cases h
  exact ⟨Option.isSome_iff_exists.mpr ⟨position, hposition⟩, session_nodeAnchorIdentity hanchor⟩

theorem collectPosters_held {session : SessionIdentity} {kept : ℕ}
    (nodes : List (SceneNode P.Value)) {posters : List RetainedPoster} {pixels : ℕ}
    (h : ∀ poster ∈ posters, (s.anchors.lookup poster.anchor).isSome = true ∧
      poster.anchor.context.session = session) :
    ∀ poster ∈ s.collectPosters session kept posters pixels nodes,
      (s.anchors.lookup poster.anchor).isSome = true ∧ poster.anchor.context.session = session := by
  induction nodes generalizing posters pixels with
  | nil => exact h
  | cons node nodes ih =>
    unfold State.collectPosters
    split
    · rename_i poster more hposter
      split
      · refine ih fun other hother => ?_
        rcases List.mem_append.mp hother with hother | hother
        · exact h other hother
        · rw [List.mem_singleton.mp hother]
          exact retainedPoster_anchor hposter
      · exact ih h
    · exact ih h

theorem Pinned.replace (h : s.Pinned) (session : SessionIdentity) (posters : List RetainedPoster)
    (hposters : ∀ poster ∈ posters, (s.anchors.lookup poster.anchor).isSome = true ∧
      poster.anchor.context.session = session)
    (hlength : s'.retainedPosters.length ≤ maxRetainedPosters)
    (hanchors : s'.anchors = s.anchors.filter fun entry =>
      entry.1.context.session ≠ session ∨ entry.1 ∈ posters.map (·.anchor))
    (hretained : s'.retainedPosters =
      (s.retainedPosters.filter fun poster => poster.anchor.context.session ≠ session) ++ posters)
    (hdetached : s'.detachedSessions = if posters.map (·.anchor) = [] then
      s.detachedSessions.erase session else insert session s.detachedSessions) : s'.Pinned := by
  have hmem : ∀ poster, poster ∈ s'.retainedPosters ↔
      poster ∈ s.retainedPosters ∧ poster.anchor.context.session ≠ session ∨
        poster ∈ posters := by
    intro poster
    rw [hretained, mem_append, mem_filter, decide_eq_true_eq]
  have hsome : ∀ identity, (s'.anchors.lookup identity).isSome = true ↔
      (s.anchors.lookup identity).isSome = true ∧
        (identity.context.session ≠ session ∨ identity ∈ posters.map (·.anchor)) := by
    intro identity
    rw [hanchors]
    exact isSome_filter_iff fun identity =>
      identity.context.session ≠ session ∨ identity ∈ posters.map (·.anchor)
  have hothers : ∀ other ≠ session,
      (other ∈ s'.detachedSessions ↔ other ∈ s.detachedSessions) := by
    intro other hne
    rw [hdetached]
    split
    · rw [Finset.mem_erase, and_iff_right hne]
    · rw [Finset.mem_insert, or_iff_right hne]
  refine ⟨fun poster hposter => ?_, fun other howner => ?_, hlength,
    fun identity hheld hsession => ?_⟩
  · rw [hsome]
    rcases (hmem poster).mp hposter with ⟨hposter, hne⟩ | hposter
    · exact ⟨h.held poster hposter, Or.inl hne⟩
    · exact ⟨(hposters poster hposter).1, Or.inr (mem_map_of_mem hposter)⟩
  · obtain ⟨poster, hposter, rfl⟩ := howner
    rcases (hmem poster).mp hposter with ⟨hposter, hne⟩ | hposter
    · exact (hothers _ hne).mpr (h.detached _ ⟨poster, hposter, rfl⟩)
    · rw [hdetached, if_neg, (hposters poster hposter).2]
      · exact Finset.mem_insert_self _ _
      · intro hnone
        rw [List.map_eq_nil_iff.mp hnone] at hposter
        cases hposter
  · obtain ⟨hheld, hkept⟩ := (hsome identity).mp hheld
    by_cases hne : identity.context.session = session
    · rcases hkept with hkept | hkept
      · exact (hkept hne).elim
      · obtain ⟨poster, hposter, hanchor⟩ := List.mem_map.mp hkept
        exact ⟨poster, (hmem poster).mpr (Or.inr hposter), hanchor⟩
    · obtain ⟨poster, hposter, rfl⟩ := h.posted identity hheld ((hothers _ hne).mp hsession)
      exact ⟨poster, (hmem poster).mpr (Or.inl ⟨hposter, hne⟩), rfl⟩

theorem PostersKept.detachSession (h : s.PostersKept) (session : SessionIdentity) :
    (s.detachSession session).PostersKept := by
  unfold State.detachSession
  dsimp only
  split
  · exact h.invalidateTopology
  rename_i scene hscene
  refine Pinned.gcDetachedSessions (Pinned.replace h.toPinned session _
    (collectPosters_held (s := s.invalidateTopology) _ (fun _ hmem => by cases hmem)) ?_
    rfl rfl rfl)
  rw [length_append]
  apply length_collectPosters
  exact (length_filter_le _ _).trans h.length_le

/-! ### Runs -/

/-- A session that left posters gets no new anchor. -/
def KeepsDetached (s : State P) : Request P → Prop
  | .addAnchor identity _ => identity.context.session ∈ s.detachedSessions → s.Marked identity
  | _ => True

theorem PostersKept.addAnchor_iff (h : s.PostersKept) (identity : AnchorIdentity)
    (anchor : Vivid.TextAnchor) : (s.addAnchor identity anchor).1.PostersKept ↔
      (identity.context.session ∈ s.detachedSessions → s.Marked identity) := by
  rcases s.addAnchor_cases identity anchor with ⟨hmarked, hadd⟩ | ⟨hnew, hadd⟩
  · rw [hadd]
    exact iff_of_true h.invalidateTopology fun _ => hmarked
  rw [hadd]
  have hheld : ∀ other, ((s.anchors.insert identity anchor).lookup other).isSome = true ↔
      other = identity ∨ (s.anchors.lookup other).isSome = true := by
    intro other
    rw [SortedMap.lookup_insert]
    split
    · rename_i heq
      exact iff_of_true rfl (Or.inl heq)
    · rename_i hne
      rw [or_iff_right hne]
  constructor
  · intro hkept hsession
    obtain ⟨poster, hposter, hanchor⟩ :=
      hkept.posted identity ((hheld identity).mpr (Or.inl rfl)) hsession
    have hold := h.held poster hposter
    rw [hanchor] at hold
    exact Or.inl hold
  · intro hattached
    refine ⟨⟨fun poster hposter => ?_, h.detached, h.length_le,
      fun other hother hsession => ?_⟩, h.owned⟩
    · exact (hheld _).mpr (Or.inr (h.held poster hposter))
    · rcases (hheld other).mp hother with rfl | hother
      · exact (hnew (hattached hsession)).elim
      · exact h.posted other hother hsession

theorem PostersKept.perform_iff (h : s.PostersKept) (request : Request P) :
    (s.perform request).1.PostersKept ↔ s.KeepsDetached request := by
  by_cases hmoves : request.movesAnchors = false
  · obtain ⟨hanchors, -, hposters, hdetached⟩ := sameAnchors_perform s request hmoves
    refine iff_of_true (h.of_eq hanchors hposters hdetached) ?_
    cases request with
    | addAnchor => cases hmoves
    | _ => trivial
  cases request with
  | addAnchor identity anchor => exact h.addAnchor_iff identity anchor
  | removeSession session => exact iff_of_true (h.removeSession session) trivial
  | detachSession session => exact iff_of_true (h.detachSession session) trivial
  | removeContexts session contexts => exact iff_of_true (h.removeContexts session contexts) trivial
  | applyAnchorResize | scrollAnchors | clearTerminal | setAlternateScreen =>
    exact iff_of_true (h.of_shifts (shifts_perform s _ rfl)) trivial
  | _ => exact (hmoves rfl).elim

theorem postersKept_new (target : PresentationTarget P) : (new target).PostersKept where
  held _ hposter := by cases hposter
  detached _ howner := by
    obtain ⟨_, hposter, -⟩ := howner
    cases hposter
  length_le := Nat.zero_le _
  posted _ hheld := by cases hheld
  owned _ hsession := by cases hsession

/-- The posters are kept all along a run if and only if no session that left posters comes back
for a new anchor. -/
theorem posters_kept_iff (target : PresentationTarget P) (requests : List (Request P)) :
    (∀ n, ((new target).performAll (requests.take n)).PostersKept) ↔
      Throughout (new target).performAll KeepsDetached requests := by
  refine throughout_iff_always (fun requests => ((new target).performAll requests).PostersKept)
    (postersKept_new target) fun earlier request h => ?_
  rw [performAll_append]
  exact h.perform_iff request

/-- A session that left its picture comes back, and takes another anchor. -/
theorem comeback_unposted : ¬ ∀ (target : PresentationTarget Protocol.plain)
    (requests : List (Request Protocol.plain)), ((new target).performAll requests).PostersKept := by
  intro h
  have hposted := (h .plain (openingRun ++ anchoringRun ++ [.detachSession viewer,
    .registerSession viewer 1, .addAnchor ⟨viewerContext, 2⟩ ⟨0, 0, false⟩])).posted
      ⟨viewerContext, 2⟩ (by decide +kernel) (by decide +kernel)
  revert hposted
  decide +kernel

end State

end Vivido.Scene
