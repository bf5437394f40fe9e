import Vivido.Scene.Integrity

/-!
A commit against its changes made one by one. Each change says what it asks of the nodes
it meets and what it makes of them, by what is found under each name; a commit is refused
and leaves the scene, or makes all of them. An update does not ask for its surface, and so
the nodes that come out may show none.
-/

namespace Vivido.Scene.State

open SortedMap

variable {P : Protocol} {s : State P} {context : ContextIdentity}
  {nodes nodes' : SortedMap NodeIdentity (SceneNode P.Value)}

/-! ### Changes one by one -/

/-- The changes one after the other. -/
inductive Applied (s : State P) (context : ContextIdentity) :
    SortedMap NodeIdentity (SceneNode P.Value) → List (NodeMutation P) →
      SortedMap NodeIdentity (SceneNode P.Value) → Prop
  | nil (nodes : SortedMap NodeIdentity (SceneNode P.Value)) : Applied s context nodes [] nodes
  | cons {nodes middle nodes' : SortedMap NodeIdentity (SceneNode P.Value)}
      {mutation : NodeMutation P} {mutations : List (NodeMutation P)}
      (hfirst : s.Changes context nodes middle mutation)
      (hrest : Applied s context middle mutations nodes') :
      Applied s context nodes (mutation :: mutations) nodes'

theorem applied_iff (s : State P) (context : ContextIdentity) (mutations : List (NodeMutation P)) :
    s.Applied context nodes mutations nodes' ↔
      s.applyMutations context nodes mutations = .ok nodes' := by
  induction mutations generalizing nodes with
  | nil =>
    constructor
    · rintro ⟨⟩
      rfl
    · intro h
      cases h
      exact .nil _
  | cons mutation mutations ih =>
    rw [applyMutations]
    constructor
    · rintro (_ | ⟨hfirst, hrest⟩)
      rw [(changes_iff s context mutation).mp hfirst]
      exact ih.mp hrest
    · intro h
      split at h
      · cases h
      · next middle hmiddle =>
        exact .cons ((changes_iff s context mutation).mpr hmiddle) (ih.mpr h)

/-! ### The nodes that come out -/

/-- Every node shows a surface of the session. -/
def AllShown (s : State P) (context : ContextIdentity)
    (nodes : SortedMap NodeIdentity (SceneNode P.Value)) : Prop :=
  ∀ identity node, nodes.lookup identity = some node →
    (s.surfaces.lookup (shownBy context.session node)).isSome

/-- What a change does not take is found after it as it was. -/
theorem Changes.lookup {mutation : NodeMutation P} (h : s.Changes context nodes nodes' mutation)
    {identity : NodeIdentity} {node : SceneNode P.Value} (hnode : nodes.lookup identity = some node)
    (htakes : ¬ takes context identity mutation) : nodes'.lookup identity = some node := by
  cases mutation with
  | create =>
    obtain ⟨name, _, hnew, _, hlookup⟩ := h
    have hne : identity ≠ name := by
      rintro rfl
      rw [hnew] at hnode
      cases hnode
    rw [hlookup, if_neg hne, hnode]
  | update =>
    obtain ⟨name, hnames, _, hlookup⟩ := h
    have hne : identity ≠ name := by
      rintro rfl
      exact htakes (ContextIdentity.node?_context hnames.name)
    rw [hlookup, if_neg hne, hnode]
  | delete deleted =>
    rw [h.2.2, if_neg (show ¬ identity = deleted from htakes), hnode]

/-- Where the nodes that come out show surfaces, so do those that are updated for good and those
that are left alone. -/
theorem Applied.shown_back {mutations : List (NodeMutation P)}
    (h : s.Applied context nodes mutations nodes') (hshown : s.AllShown context nodes') :
    s.ShownOrTaken context mutations nodes ∧ s.UpdatesShown context mutations := by
  induction h with
  | nil => exact ⟨fun identity node hnode => Or.inl (hshown identity node hnode), trivial⟩
  | @cons nodes middle nodes' mutation mutations hfirst hrest ih =>
    obtain ⟨hlater, hupdates⟩ := ih hshown
    refine ⟨fun identity node hnode => ?_, ?_, hupdates⟩
    · by_cases htakes : takes context identity mutation
      · exact Or.inr ⟨mutation, List.mem_cons_self, htakes⟩
      · refine (hlater identity node (hfirst.lookup hnode htakes)).imp id ?_
        rintro ⟨other, hother, htaken⟩
        exact ⟨other, List.mem_cons_of_mem _ hother, htaken⟩
    · cases mutation with
      | create _ | delete _ => trivial
      | update node =>
        obtain ⟨_, hnames, _, hlookup⟩ := hfirst
        have hname := ContextIdentity.node?_context hnames.name
        refine hlater ⟨context, node.nodeId⟩ node ?_
        rw [hlookup, hname, if_pos rfl]

theorem Applied.shown_iff {mutations : List (NodeMutation P)}
    (h : s.Applied context nodes mutations nodes') : s.AllShown context nodes' ↔
      s.ShownOrTaken context mutations nodes ∧ s.UpdatesShown context mutations := by
  constructor
  · exact h.shown_back
  rintro ⟨hshown, hupdates⟩ identity node hnode
  have hlater := shown_applyMutations mutations hshown hupdates
    ((applied_iff s context mutations).mp h) identity node hnode
  refine hlater.resolve_right ?_
  rintro ⟨_, hmem, _⟩
  cases hmem

/-! ### Commits -/

/-- What a commit was planned for is not what the scene has. -/
def Stale (scene : SessionScene P) (expectedTarget : ℕ) (expectedRevision : Option ℕ) : Prop :=
  scene.targetGeneration ≠ expectedTarget ∨ ∃ revision ∈ expectedRevision, revision ≠ scene.revision

/-- The transaction's changes can be made, one after the other, and counted. -/
structure Committable (s : State P) (context : ContextIdentity) (transactionId expectedTarget : ℕ)
    (expectedRevision : Option ℕ) (scene : SessionScene P) (mutations : List (NodeMutation P))
    (nodes : SortedMap NodeIdentity (SceneNode P.Value)) (revision : ℕ) : Prop where
  found : s.scenes.lookup context.session = some scene
  staged : s.staged context transactionId = some mutations
  fresh : ¬ Stale scene expectedTarget expectedRevision
  applied : s.Applied context scene.nodes mutations nodes
  advances : P.advance scene.revision = some revision

/-- A commit either is refused and leaves the scenes, as a stale one is, or makes the transaction's
changes one by one, after which every node shows a surface; it counts once, and the transaction is
gone. -/
structure CommitExact (s : State P) (context : ContextIdentity) (transactionId expectedTarget : ℕ)
    (expectedRevision : Option ℕ) : Prop where
  refused : ∀ rejection,
    (s.commitTransaction context transactionId expectedTarget expectedRevision).2 =
      .error rejection →
    (s.commitTransaction context transactionId expectedTarget expectedRevision).1.scenes = s.scenes
  stale : ∀ scene, s.scenes.lookup context.session = some scene →
    Stale scene expectedTarget expectedRevision →
    ∃ rejection, (s.commitTransaction context transactionId expectedTarget expectedRevision).2 =
      .error rejection
  committed : ∀ revision,
    (s.commitTransaction context transactionId expectedTarget expectedRevision).2 = .ok revision →
    ∃ scene mutations nodes,
      s.Committable context transactionId expectedTarget expectedRevision scene mutations nodes
        revision ∧
      (s.commitTransaction context transactionId expectedTarget expectedRevision).1.scenes =
        s.scenes.insert context.session
          { scene with
            revision
            nodes
            pending := scene.pending.erase (toLex (context, transactionId)) } ∧
      s.AllShown context nodes
  complete : ∀ scene mutations nodes revision,
    s.Committable context transactionId expectedTarget expectedRevision scene mutations nodes
      revision →
    (s.commitTransaction context transactionId expectedTarget expectedRevision).2 = .ok revision

/-- If the changes can be made, each update is to a surface that exists or is not the last change of
its node, and so is each node that no change takes. -/
def Grounded (s : State P) (context : ContextIdentity) (transactionId expectedTarget : ℕ)
    (expectedRevision : Option ℕ) : Prop :=
  ∀ scene mutations nodes revision,
    s.Committable context transactionId expectedTarget expectedRevision scene mutations nodes
      revision →
    s.ShownOrTaken context mutations scene.nodes ∧ s.UpdatesShown context mutations

variable {transactionId expectedTarget : ℕ} {expectedRevision : Option ℕ}

theorem stale_iff {scene : SessionScene P} : Stale scene expectedTarget expectedRevision ↔
    scene.targetGeneration ≠ expectedTarget ∨ expectedRevision.any (· ≠ scene.revision) = true := by
  rw [Stale]
  cases expectedRevision <;> simp

/-- A commit that can be made. -/
theorem Committable.commit {scene : SessionScene P} {mutations : List (NodeMutation P)}
    {revision : ℕ}
    (h : s.Committable context transactionId expectedTarget expectedRevision scene mutations nodes
      revision) : s.commitTransaction context transactionId expectedTarget expectedRevision =
      (s.invalidateTopology.setScene context.session { scene with
          revision, nodes
          pending := scene.pending.erase (toLex (context, transactionId)) }, .ok revision) := by
  have hfresh := mt stale_iff.mpr h.fresh
  rw [not_or, not_not] at hfresh
  have hpending : scene.pending.lookup (toLex (context, transactionId)) = some mutations := by
    have hstaged := h.staged
    rw [State.staged, h.found, Option.bind_some] at hstaged
    exact hstaged
  have happly := (applied_iff s context mutations).mp h.applied
  rw [← applyMutations_invalidateTopology] at happly
  rw [commitTransaction]
  rw [show s.invalidateTopology.scenes.lookup context.session = some scene from h.found]
  dsimp only
  rw [hpending]
  dsimp only
  rw [if_neg (not_not.mpr hfresh.1), if_neg hfresh.2, happly]
  dsimp only
  rw [h.advances]

/-- A commit that cannot be made. -/
theorem commit_refused (h : ∀ scene mutations nodes revision,
      ¬ s.Committable context transactionId expectedTarget expectedRevision scene mutations nodes
        revision) :
    ∃ rejection, s.commitTransaction context transactionId expectedTarget expectedRevision =
      (s.invalidateTopology, .error rejection) := by
  rw [commitTransaction]
  split
  · exact ⟨_, rfl⟩
  next scene hscene =>
  split
  · exact ⟨_, rfl⟩
  next mutations hpending =>
  split
  · exact ⟨_, rfl⟩
  next htarget =>
  split
  · exact ⟨_, rfl⟩
  next hrevision =>
  split
  · exact ⟨_, rfl⟩
  next nodes happly =>
  split
  · exact ⟨_, rfl⟩
  next revision hadvance =>
  rw [applyMutations_invalidateTopology] at happly
  refine absurd ⟨hscene, ?_, mt stale_iff.mp (not_or.mpr ⟨htarget, hrevision⟩),
    (applied_iff s context mutations).mpr happly, hadvance⟩
    (h scene mutations nodes revision)
  rw [staged, show s.scenes.lookup context.session = some scene from hscene]
  exact hpending

/-- A commit equals its changes made one by one if and only if they leave every node at a
surface. -/
theorem commit_exact_iff (s : State P) (context : ContextIdentity)
    (transactionId expectedTarget : ℕ) (expectedRevision : Option ℕ) :
    s.CommitExact context transactionId expectedTarget expectedRevision ↔
      s.Grounded context transactionId expectedTarget expectedRevision := by
  constructor
  · intro h scene mutations nodes revision hcommittable
    have hcommit := hcommittable.commit
    obtain ⟨scene', mutations', nodes', hcommittable', _, hshown⟩ :=
      h.committed revision (congrArg Prod.snd hcommit)
    cases hcommittable.found.symm.trans hcommittable'.found
    cases hcommittable.staged.symm.trans hcommittable'.staged
    have hsame := ((applied_iff s context mutations).mp hcommittable.applied).symm.trans
      ((applied_iff s context mutations).mp hcommittable'.applied)
    cases hsame
    exact hcommittable.applied.shown_iff.mp hshown
  · intro hgrounded
    by_cases hcommittable : ∃ scene mutations nodes revision,
        s.Committable context transactionId expectedTarget expectedRevision scene mutations nodes
          revision
    · obtain ⟨scene, mutations, nodes, revision, hcommittable⟩ := hcommittable
      have hcommit := hcommittable.commit
      refine ⟨?_, ?_, ?_, ?_⟩
      · intro rejection hrefused
        rw [hcommit] at hrefused
        cases hrefused
      · intro scene' hscene' hstale
        cases hcommittable.found.symm.trans hscene'
        exact absurd hstale hcommittable.fresh
      · intro revision' hok
        rw [hcommit] at hok ⊢
        cases hok
        exact ⟨scene, mutations, nodes, hcommittable, rfl,
          hcommittable.applied.shown_iff.mpr (hgrounded _ _ _ _ hcommittable)⟩
      · intro _ _ _ _ hcommittable'
        rw [hcommittable'.commit]
    · have hnone : ∀ scene mutations nodes revision,
          ¬ s.Committable context transactionId expectedTarget expectedRevision scene mutations nodes
            revision := fun scene mutations nodes revision h =>
        hcommittable ⟨scene, mutations, nodes, revision, h⟩
      obtain ⟨rejection, hcommit⟩ := commit_refused hnone
      refine ⟨?_, fun _ _ _ => ⟨rejection, congrArg Prod.snd hcommit⟩, ?_, ?_⟩
      · intro _ _
        rw [hcommit]
        rfl
      · intro revision hok
        rw [hcommit] at hok
        cases hok
      · intro scene mutations nodes revision h
        exact absurd h (hnone scene mutations nodes revision)

section Turning

/-- The second transaction of the run turns its node to a surface that was never created. -/
theorem commit_turns_away :
    let s := (new .plain).performAll ((turningRun 2).take 7)
    (s.commitTransaction viewerContext 2 1 none).2 = .ok 2 ∧
      ¬ s.CommitExact viewerContext 2 1 none := by
  have hcommit : (((new .plain).performAll ((turningRun 2).take 7)).commitTransaction viewerContext
      2 1 none).2 = .ok 2 := by decide +kernel
  refine ⟨hcommit, fun h => ?_⟩
  obtain ⟨_, _, nodes, -, hscenes, hshown⟩ := h.committed 2 hcommit
  have hnode : nodes.lookup ⟨viewerContext, 1⟩ = some (nodeShowing 2) := by
    have hafter := congrArg (fun scenes => (scenes.lookup viewerContext.session).bind
      (·.nodes.lookup ⟨viewerContext, 1⟩)) hscenes
    rw [lookup_insert_self, Option.bind_some] at hafter
    rw [← hafter]
    decide +kernel
  have hsurface := hshown _ _ hnode
  revert hsurface
  decide +kernel

end Turning

end Vivido.Scene.State
