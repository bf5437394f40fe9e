import Vivido.Authority.Contexts
import Vivido.Scene.Integrity
import Vivido.Service.Presenter

/-!
The revocation of a context. The context goes with all that came under it, and
the scene, the overlay windows and the file-drop bindings are rid of what
belongs to them. The other registries are left alone.
-/

namespace Vivido.Authority

open Scene Service SortedMap Option

variable {P : Protocol} {L : LeaseProtocol} {C : ContextProtocol} {Opens : Type}

/-- What objects a session's contexts may own: those shared with the other sessions, the states of
the channels' openings, and the contexts themselves. -/
structure Holdings (P : Protocol) (L : LeaseProtocol) (C : ContextProtocol) (Opens : Type) where
  shared : ServiceShared P L
  channelOpens : SortedMap TrackIdentity Opens
  contexts : ContextTable C

namespace Holdings

variable (h : Holdings P L C Opens)

/-- The handler of `REVOKE_CONTEXT`; its loops take fuel. -/
def revokeContext (fuel : ℕ) (session : SessionIdentity) (contextId : ℕ) :
    Option (Holdings P L C Opens × Except String Unit) :=
  if contextId = rootContextId then some (h, .error "context cannot be revoked")
  else if (h.contexts.lookup contextId).isNone then some (h, .error "context does not exist")
  else
    (ContextTable.revoke h.contexts fuel contextId).map fun (contexts, removed) =>
      let gone := removed.sort (· ≤ ·)
      ({ h with
          contexts
          shared := { h.shared with
            scene := h.shared.scene.removeContexts session gone
            overlays := h.shared.overlays.filter fun surface => ¬ surface.context.isOf session gone
            fileDrops := h.shared.fileDrops.filter fun key =>
              key.session ≠ session ∨ key.contextId ∉ gone } }, .ok ())

/-- The objects of the removed contexts are gone from the scene, the overlay windows and the
file-drop bindings. -/
structure Rids (after : Holdings P L C Opens) (session : SessionIdentity) (gone : List ℕ) :
    Prop where
  surfaces : ∀ key surface, after.shared.scene.surfaces.lookup key = some surface →
    ¬ key.context.isOf session gone
  tracks : ∀ key track, after.shared.scene.tracks.lookup key = some track →
    ¬ key.surface.context.isOf session gone
  nodes : ∀ scene key node, after.shared.scene.scenes.lookup session = some scene →
    scene.nodes.lookup key = some node → key.context.contextId ∉ gone
  anchors : ∀ key anchor, after.shared.scene.anchors.lookup key = some anchor →
    ¬ key.context.isOf session gone
  overlays : ∀ surface ∈ after.shared.overlays, ¬ surface.context.isOf session gone
  fileDrops : ∀ key ∈ after.shared.fileDrops, key.session = session → key.contextId ∉ gone

/-- An anchor is there for the posters that a session has left, and there is none any more. -/
def Unposted (scene : State P) (session : SessionIdentity) (gone : List ℕ)
    (anchor : AnchorIdentity) : Prop :=
  anchor.context.session ∈ scene.detachedSessions ∧
    ∀ poster ∈ scene.retainedPosters, ¬ poster.anchor.context.isOf session gone →
      poster.anchor.context.session ≠ anchor.context.session

/-- The objects of all other contexts are as before, but for nodes that show a surface of a removed
context and the anchors of posters that are gone. -/
structure Spares (before after : Holdings P L C Opens) (session : SessionIdentity)
    (gone : List ℕ) : Prop where
  surfaces : ∀ key : SurfaceIdentity, ¬ key.context.isOf session gone →
    after.shared.scene.surfaces.lookup key = before.shared.scene.surfaces.lookup key
  tracks : ∀ key : TrackIdentity, ¬ key.surface.context.isOf session gone →
    after.shared.scene.tracks.lookup key = before.shared.scene.tracks.lookup key
  scenes : ∀ other, other ≠ session →
    after.shared.scene.scenes.lookup other = before.shared.scene.scenes.lookup other
  nodes : ∀ (key : NodeIdentity), key.context.contextId ∉ gone →
    (after.shared.scene.scenes.lookup session).bind (·.nodes.lookup key) =
      ((before.shared.scene.scenes.lookup session).bind (·.nodes.lookup key)).filter
        fun node => node.surfaceContextId ∉ gone
  anchors : ∀ key : AnchorIdentity, ¬ key.context.isOf session gone →
    after.shared.scene.anchors.lookup key = before.shared.scene.anchors.lookup key ∨
      Unposted before.shared.scene session gone key
  overlays : ∀ surface, ¬ surface.context.isOf session gone →
    (surface ∈ after.shared.overlays ↔ surface ∈ before.shared.overlays)
  fileDrops : ∀ key, (key.session = session → key.contextId ∉ gone) →
    (key ∈ after.shared.fileDrops ↔ key ∈ before.shared.fileDrops)

variable {h} {session : SessionIdentity} {contextId : ℕ} {gone : List ℕ}

variable (scene : State P) (session : SessionIdentity) (gone : List ℕ)

theorem scenes_removeContexts : (∀ other, other ≠ session →
      (scene.removeContexts session gone).scenes.lookup other = scene.scenes.lookup other) ∧
    ∀ key, ((scene.removeContexts session gone).scenes.lookup session).bind (·.nodes.lookup key) =
      ((scene.scenes.lookup session).bind (·.nodes.lookup key)).filter fun node =>
        key.context.contextId ∉ gone ∧ node.surfaceContextId ∉ gone := by
  unfold State.removeContexts
  dsimp only
  split
  · rename_i hnone
    change scene.scenes.lookup session = none at hnone
    refine ⟨fun _ _ => rfl, fun key => ?_⟩
    change (scene.scenes.lookup session).bind _ = _
    rw [hnone]
    rfl
  · rename_i found hfound
    change scene.scenes.lookup session = some found at hfound
    refine ⟨fun other hne => lookup_insert_of_ne hne, fun key => ?_⟩
    change ((scene.scenes.insert session _).lookup session).bind _ = _
    rw [lookup_insert_self, hfound]
    exact lookup_filter _

/-- A removal of contexts keeps an anchor of another context, unless it was there for posters that
are gone. -/
theorem anchors_removeContexts (key : AnchorIdentity) (h : ¬ key.context.isOf session gone) :
    (scene.removeContexts session gone).anchors.lookup key = scene.anchors.lookup key ∨
      Unposted scene session gone key := by
  have hanchors : ∀ s : State P, s.anchors = scene.anchors →
      s.detachedSessions = scene.detachedSessions → s.retainedPosters = scene.retainedPosters →
      (State.gcDetachedSessions
        { s with
          anchors := s.anchors.filter fun entry => ¬ entry.1.context.isOf session gone
          goneAnchors := s.goneAnchors.filter fun identity => ¬ identity.context.isOf session gone
          retainedPosters := s.retainedPosters.filter fun poster =>
            ¬ poster.anchor.context.isOf session gone }).anchors.lookup key =
          scene.anchors.lookup key ∨ Unposted scene session gone key := by
    intro s hanchors hdetached hposters
    by_cases hunposted : Unposted scene session gone key
    · exact Or.inr hunposted
    left
    unfold State.gcDetachedSessions
    dsimp only
    rw [lookup_filter_kept, hanchors]
    · exact lookup_filter_kept fun _ => decide_eq_true h
    intro _
    refine decide_eq_true ?_
    rw [hdetached, hposters, Finset.mem_filter]
    rintro ⟨hmem, hnone⟩
    refine hunposted ⟨hmem, fun poster hposter hkept => hnone poster ?_⟩
    exact List.mem_filter.mpr ⟨hposter, decide_eq_true hkept⟩
  unfold State.removeContexts
  dsimp only
  split
  · exact hanchors _ rfl rfl rfl
  · exact hanchors _ rfl rfl rfl

theorem lookup_removeContexts : (scene.removeContexts session gone).surfaces =
        scene.surfaces.filter (fun entry => ¬ entry.1.context.isOf session gone) ∧
      (scene.removeContexts session gone).tracks =
        scene.tracks.filter (fun entry => ¬ entry.1.surface.context.isOf session gone) ∧
      ∀ key anchor, (scene.removeContexts session gone).anchors.lookup key = some anchor →
        ¬ key.context.isOf session gone := by
  have hanchors : ∀ (anchors : SortedMap AnchorIdentity Vivid.TextAnchor)
      (gcd : Finset SessionIdentity) key anchor,
      ((anchors.filter fun entry => ¬ entry.1.context.isOf session gone).filter
        fun entry => entry.1.context.session ∉ gcd).lookup key = some anchor →
        ¬ key.context.isOf session gone := by
    intro _ _ key anchor h
    rw [lookup_filter, filter_eq_some_iff] at h
    exact of_decide_eq_true (keep_of_lookup_filter h.1)
  unfold State.removeContexts
  dsimp only
  split
  · exact ⟨rfl, rfl, fun key anchor h => hanchors _ _ key anchor h⟩
  · exact ⟨rfl, rfl, fun key anchor h => hanchors _ _ key anchor h⟩

/-- A revoked context goes with all that came under it, and their objects go from the scene, the
overlay windows and the file-drop bindings, while those of all other contexts stay. -/
theorem revoke_removes_subtree (before : Holdings P L C Opens) (session : SessionIdentity)
    (contextId : ℕ) (hgrown : ContextTable.Grown before.contexts)
    (hroot : contextId ≠ rootContextId) (hlive : (before.contexts.lookup contextId).isSome = true) :
    ∃ enough, ∀ fuel, enough ≤ fuel → ∃ (after : Holdings P L C Opens) (removed : Finset ℕ),
      before.revokeContext fuel session contextId = some (after, .ok ()) ∧
        ContextTable.Revokes before.contexts contextId after.contexts removed ∧
        after.Rids session (removed.sort (· ≤ ·)) ∧
        Spares before after session (removed.sort (· ≤ ·)) := by
  obtain ⟨enough, henough⟩ := ContextTable.revoke_isSome hgrown.rooted contextId
  refine ⟨enough, fun fuel hfuel => ?_⟩
  obtain ⟨⟨contexts, removed⟩, hrevoke⟩ := Option.isSome_iff_exists.mp (henough fuel hfuel)
  have hnone : ¬ (before.contexts.lookup contextId).isNone = true := by
    rw [isNone_iff_eq_none]
    exact Option.isSome_iff_ne_none.mp hlive
  set gone := removed.sort (· ≤ ·) with hgone
  obtain ⟨hsurfaces, htracks, hanchors⟩ :=
    lookup_removeContexts before.shared.scene session gone
  obtain ⟨hscenes, hnodes⟩ := scenes_removeContexts before.shared.scene session gone
  have hrun : before.revokeContext fuel session contextId =
      some ({ before with
        contexts
        shared := { before.shared with
          scene := before.shared.scene.removeContexts session gone
          overlays := before.shared.overlays.filter
            fun surface => ¬ surface.context.isOf session gone
          fileDrops := before.shared.fileDrops.filter fun key =>
            key.session ≠ session ∨ key.contextId ∉ gone } }, .ok ()) := by
    unfold revokeContext
    rw [if_neg hroot, if_neg hnone, hrevoke]
    rfl
  refine ⟨_, removed, hrun, ContextTable.revokes_of_revoke hrevoke, ?_, ?_⟩
  · refine ⟨fun key surface hfound => ?_, fun key track hfound => ?_, fun scene key node hscene
      hnode => ?_, hanchors, fun surface hmem => ?_, fun key hmem hsession => ?_⟩
    · dsimp only at hfound
      rw [hsurfaces] at hfound
      exact of_decide_eq_true (keep_of_lookup_filter hfound)
    · dsimp only at hfound
      rw [htracks] at hfound
      exact of_decide_eq_true (keep_of_lookup_filter hfound)
    · have hfound := hnodes key
      dsimp only at hscene
      rw [hscene] at hfound
      change scene.nodes.lookup key = _ at hfound
      rw [hnode, eq_comm, filter_eq_some_iff] at hfound
      exact (of_decide_eq_true hfound.2).1
    · exact of_decide_eq_true (List.mem_filter.mp hmem).2
    · exact (of_decide_eq_true (List.mem_filter.mp hmem).2).resolve_left (not_not.mpr hsession)
  · refine ⟨fun key hkey => ?_, fun key hkey => ?_, hscenes, fun key hkey => ?_,
      fun key hkey => anchors_removeContexts _ session gone key hkey, fun surface hsurface => ?_,
      fun key hkey => ?_⟩
    · dsimp only
      rw [hsurfaces]
      exact lookup_filter_kept fun _ => decide_eq_true hkey
    · dsimp only
      rw [htracks]
      exact lookup_filter_kept fun _ => decide_eq_true hkey
    · refine (hnodes key).trans ?_
      congr 1
      funext node
      exact decide_eq_decide.mpr (and_iff_right hkey)
    · change surface ∈ before.shared.overlays.filter _ ↔ _
      rw [List.mem_filter, decide_eq_true_eq]
      exact and_iff_left hsurface
    · change key ∈ before.shared.fileDrops.filter _ ↔ _
      rw [List.mem_filter, decide_eq_true_eq]
      exact and_iff_left (Classical.or_iff_not_imp_left.mpr fun h => hkey (not_not.mp h))

section Neighbours

/-- The viewer's session with a second context. -/
def neighbourContexts : ContextTable .plain :=
  let contexts : ContextTable .plain := SortedMap.empty.insert rootContextId
    { parentContextId := none, operationClasses := 1, contract := fun _ => 4,
      charges := fun _ => (0 : ℕ) }
  (contexts.create ⟨2, rootContextId, 1, fun _ => 2⟩).1

theorem grown_neighbourContexts : neighbourContexts.Grown :=
  .create (.root rfl) _

/-- A node of the first context shows a surface of the second. -/
def showingNeighbour : List (Request Protocol.plain) :=
  [.registerSession State.viewer 1,
    .createSurface ⟨⟨State.viewer, 2⟩, 1⟩ { contextId := 2, surfaceId := 1 },
    .beginTransaction State.viewerContext 1,
    .queueMutation State.viewerContext 1
      (.create { State.nodeShowing 1 with surfaceContextId := 2 }),
    .commitTransaction State.viewerContext 1 1 none]

def neighbours : Holdings .plain .plain .plain ℕ where
  shared := { ServiceShared.idle with scene := (State.new .plain).performAll showingNeighbour }
  channelOpens := .empty
  contexts := neighbourContexts

/-- The node goes with the second context. -/
theorem revoke_reaches_neighbour :
    ¬ ∀ (target : PresentationTarget .plain) (requests : List (Request Protocol.plain))
      (before after : Holdings .plain .plain .plain ℕ) (fuel contextId : ℕ),
      before.contexts.Grown → before.shared.scene = (State.new target).performAll requests →
      before.revokeContext fuel State.viewer contextId = some (after, .ok ()) →
      ∀ key : NodeIdentity, (after.contexts.lookup key.context.contextId).isSome = true →
        (after.shared.scene.scenes.lookup State.viewer).bind (·.nodes.lookup key) =
          (before.shared.scene.scenes.lookup State.viewer).bind (·.nodes.lookup key) := by
  intro h
  have hrun : (neighbours.revokeContext 3 State.viewer 2).map (·.2.toOption) = some (some ()) := by
    decide +kernel
  obtain ⟨⟨after, answer⟩, hafter, hanswer⟩ := Option.map_eq_some_iff.mp hrun
  cases answer with
  | error => cases hanswer
  | ok =>
    have hkept := h .plain showingNeighbour neighbours after 3 2 grown_neighbourContexts rfl hafter
      ⟨State.viewerContext, 1⟩
    have hwrong : (neighbours.revokeContext 3 State.viewer 2).any (fun (after, _) =>
        (after.contexts.lookup 1).isSome ∧
          (after.shared.scene.scenes.lookup State.viewer).bind
              (·.nodes.lookup ⟨State.viewerContext, 1⟩) ≠
            (neighbours.shared.scene.scenes.lookup State.viewer).bind
              (·.nodes.lookup ⟨State.viewerContext, 1⟩)) = true := by
      decide +kernel
    rw [hafter, any_some, decide_eq_true_eq] at hwrong
    exact hwrong.2 (hkept hwrong.1)

theorem revoke_removes_subtree_neighbour : ∃ enough, ∀ fuel, enough ≤ fuel →
    ∃ (after : Holdings .plain .plain .plain ℕ) (removed : Finset ℕ),
      neighbours.revokeContext fuel State.viewer 2 = some (after, .ok ()) ∧
        ContextTable.Revokes neighbourContexts 2 after.contexts removed ∧
        after.Rids State.viewer (removed.sort (· ≤ ·)) ∧
        Spares neighbours after State.viewer (removed.sort (· ≤ ·)) :=
  revoke_removes_subtree neighbours State.viewer 2 grown_neighbourContexts (by decide)
    (by decide +kernel)

end Neighbours

end Holdings

end Vivido.Authority
