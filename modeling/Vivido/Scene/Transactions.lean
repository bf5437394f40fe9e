import Vivido.Scene.State

/-!
Changes of a session's nodes are staged in a transaction and committed at once.
A commit works on a copy of the nodes and keeps it only if every change applies.
-/

namespace Vivido.Scene

open Option

/-- Why a commit did not apply. -/
inductive CommitRejection where
  | staleTarget
  | staleRevision
  | failed (reason : String)
  deriving DecidableEq, Repr

namespace State

variable {P : Protocol} (s : State P)

/-- The staged changes of a transaction. -/
def staged (context : ContextIdentity) (transactionId : ℕ) : Option (List (NodeMutation P)) :=
  (s.scenes.lookup context.session).bind fun scene =>
    scene.pending.lookup (toLex (context, transactionId))

def setPending (session : SessionIdentity) (scene : SessionScene P)
    (pending : SortedMap (ContextIdentity ×ₗ ℕ) (List (NodeMutation P))) : State P :=
  s.setScene session { scene with pending }

def beginTransaction (context : ContextIdentity) (transactionId : ℕ) :
    State P × Except String Unit :=
  if transactionId = 0 then (s, .error "transaction ID must be nonzero")
  else match s.scenes.lookup context.session with
  | none => (s, .error "session does not exist")
  | some scene =>
    -- the entry is replaced before it is known to be new
    let existing := scene.pending.lookup (toLex (context, transactionId))
    (s.setPending context.session scene (scene.pending.insert (toLex (context, transactionId)) []),
      if existing.isSome then .error "transaction already exists" else .ok ())

def queueMutation (context : ContextIdentity) (transactionId : ℕ) (mutation : NodeMutation P) :
    State P × Except String Unit :=
  match s.scenes.lookup context.session with
  | none => (s, .error "transaction does not exist")
  | some scene =>
    match scene.pending.lookup (toLex (context, transactionId)) with
    | none => (s, .error "transaction does not exist")
    | some mutations =>
      (s.setPending context.session scene
        (scene.pending.insert (toLex (context, transactionId)) (mutations ++ [mutation])), .ok ())

/-- Whether there was one to abort. -/
def abortTransaction (context : ContextIdentity) (transactionId : ℕ) : State P × Bool :=
  match s.scenes.lookup context.session with
  | none => (s, false)
  | some scene =>
    (s.setPending context.session scene (scene.pending.erase (toLex (context, transactionId))),
      (scene.pending.lookup (toLex (context, transactionId))).isSome)

/-- The nodes after one change. -/
def applyMutation (context : ContextIdentity)
    (candidate : SortedMap NodeIdentity (SceneNode P.Value)) :
    NodeMutation P → Except String (SortedMap NodeIdentity (SceneNode P.Value))
  | .create node =>
    match s.target.validateNode node with
    | some reason => .error reason
    | none =>
      match context.node? P node.nodeId with
      | none => .error "invalid node ID"
      | some identity =>
        if node.owningContextId ≠ context.contextId ∨ (candidate.lookup identity).isSome then
          .error "duplicate or misowned node"
        else match context.session.context? P node.surfaceContextId with
        | none => .error "invalid surface context"
        | some surfaceContext =>
          match surfaceContext.surface? P node.surfaceId with
          | none => .error "invalid surface ID"
          | some surfaceIdentity =>
            if (s.surfaces.lookup surfaceIdentity).isNone then
              .error "node references a missing surface"
            else .ok (candidate.insert identity node)
  | .update node =>
    match s.target.validateNode node with
    | some reason => .error reason
    | none =>
      match context.node? P node.nodeId with
      | none => .error "invalid node ID"
      | some identity =>
        if node.owningContextId ≠ context.contextId ∨ (candidate.lookup identity).isNone then
          .error "missing or misowned node"
        else .ok (candidate.insert identity node)
  | .delete identity =>
    if identity.context ≠ context ∨ (candidate.lookup identity).isNone then
      .error "missing or misowned node"
    else .ok (candidate.erase identity)

def applyMutations (context : ContextIdentity) :
    SortedMap NodeIdentity (SceneNode P.Value) → List (NodeMutation P) →
      Except String (SortedMap NodeIdentity (SceneNode P.Value))
  | candidate, [] => .ok candidate
  | candidate, mutation :: mutations =>
    match s.applyMutation context candidate mutation with
    | .error reason => .error reason
    | .ok candidate => applyMutations context candidate mutations

def commitTransaction (context : ContextIdentity) (transactionId expectedTarget : ℕ)
    (expectedRevision : Option ℕ) : State P × Except CommitRejection ℕ :=
  let s := s.invalidateTopology
  match s.scenes.lookup context.session with
  | none => (s, .error (.failed "transaction does not exist"))
  | some scene =>
    match scene.pending.lookup (toLex (context, transactionId)) with
    | none => (s, .error (.failed "transaction does not exist"))
    | some mutations =>
      if scene.targetGeneration ≠ expectedTarget then (s, .error .staleTarget)
      else if expectedRevision.any (· ≠ scene.revision) then (s, .error .staleRevision)
      else match s.applyMutations context scene.nodes mutations with
      | .error reason => (s, .error (.failed reason))
      | .ok nodes =>
        match P.advance scene.revision with
        | none => (s, .error (.failed "scene revision exhausted"))
        | some revision =>
          (s.setScene context.session
            { scene with
              revision
              nodes
              pending := scene.pending.erase (toLex (context, transactionId)) }, .ok revision)

/-! ### What a change asks and makes -/

/-- The node has an accepted name in the context that it says owns it. -/
structure Names (s : State P) (context : ContextIdentity) (node : SceneNode P.Value)
    (identity : NodeIdentity) : Prop where
  valid : s.target.validateNode node = none
  name : context.node? P node.nodeId = some identity
  owner : node.owningContextId = context.contextId

/-- The surface that a node names is one of the session's. -/
def FindsSurface (s : State P) (context : ContextIdentity) (node : SceneNode P.Value) : Prop :=
  ∃ surfaceContext surface, context.session.context? P node.surfaceContextId = some surfaceContext ∧
    surfaceContext.surface? P node.surfaceId = some surface ∧ (s.surfaces.lookup surface).isSome

/-- One change of the nodes: what it asks of those it meets, and what is then found. -/
def Changes (s : State P) (context : ContextIdentity)
    (nodes nodes' : SortedMap NodeIdentity (SceneNode P.Value)) : NodeMutation P → Prop
  | .create node => ∃ identity, s.Names context node identity ∧ nodes.lookup identity = none ∧
    s.FindsSurface context node ∧
    ∀ other, nodes'.lookup other = if other = identity then some node else nodes.lookup other
  | .update node => ∃ identity, s.Names context node identity ∧
    (nodes.lookup identity).isSome ∧
    ∀ other, nodes'.lookup other = if other = identity then some node else nodes.lookup other
  | .delete identity => identity.context = context ∧ (nodes.lookup identity).isSome ∧
    ∀ other, nodes'.lookup other = if other = identity then none else nodes.lookup other

section Changing

open SortedMap

variable {s} {context : ContextIdentity} {nodes nodes' : SortedMap NodeIdentity (SceneNode P.Value)}

theorem eq_insert_iff {identity : NodeIdentity} {node : SceneNode P.Value} :
    (∀ other, nodes'.lookup other = if other = identity then some node else nodes.lookup other) ↔
      nodes.insert identity node = nodes' := by
  constructor
  · intro h
    apply ext_lookup
    intro other
    rw [lookup_insert, h]
  · rintro rfl _
    exact lookup_insert

theorem eq_erase_iff {identity : NodeIdentity} :
    (∀ other, nodes'.lookup other = if other = identity then none else nodes.lookup other) ↔
      nodes.erase identity = nodes' := by
  constructor
  · intro h
    apply ext_lookup
    intro other
    rw [lookup_erase, h]
  · rintro rfl _
    exact lookup_erase

theorem changes_iff (s : State P) (context : ContextIdentity) (mutation : NodeMutation P) :
    s.Changes context nodes nodes' mutation ↔
      s.applyMutation context nodes mutation = .ok nodes' := by
  cases mutation with
  | create node =>
    constructor
    · rintro ⟨identity, hnames, hnew, hshows, hlookup⟩
      obtain ⟨surfaceContext, surface, hcontext, hsurface, hexists⟩ := hshows
      obtain ⟨value, hvalue⟩ := Option.isSome_iff_exists.mp hexists
      simp [applyMutation, hnames.valid, hnames.name, hnames.owner, hnew, hcontext, hsurface,
        hvalue, eq_insert_iff.mp hlookup]
    · intro h
      dsimp only [applyMutation] at h
      split at h
      · cases h
      next hvalid =>
      split at h
      · cases h
      next identity hname =>
      split at h
      · cases h
      next howned =>
      rw [not_or, not_not, Bool.not_eq_true, isSome_eq_false_iff,
        isNone_iff_eq_none] at howned
      split at h
      · cases h
      next surfaceContext hcontext =>
      split at h
      · cases h
      next surface hsurface =>
      split at h
      · cases h
      · next hexists =>
        cases h
        rw [Bool.not_eq_true, isNone_eq_false_iff] at hexists
        exact ⟨identity, ⟨hvalid, hname, howned.1⟩, howned.2,
          ⟨surfaceContext, surface, hcontext, hsurface, hexists⟩, eq_insert_iff.mpr rfl⟩
  | update node =>
    constructor
    · rintro ⟨identity, hnames, hfound, hlookup⟩
      obtain ⟨value, hvalue⟩ := Option.isSome_iff_exists.mp hfound
      simp [applyMutation, hnames.valid, hnames.name, hnames.owner, hvalue,
        eq_insert_iff.mp hlookup]
    · intro h
      dsimp only [applyMutation] at h
      split at h
      · cases h
      next hvalid =>
      split at h
      · cases h
      next identity hname =>
      split at h
      · cases h
      · next howned =>
        cases h
        rw [not_or, not_not, Bool.not_eq_true, isNone_eq_false_iff] at howned
        exact ⟨identity, ⟨hvalid, hname, howned.1⟩, howned.2, eq_insert_iff.mpr rfl⟩
  | delete identity =>
    constructor
    · rintro ⟨howner, hfound, hlookup⟩
      obtain ⟨_, hvalue⟩ := Option.isSome_iff_exists.mp hfound
      simp [applyMutation, howner, hvalue, eq_erase_iff.mp hlookup]
    · intro h
      dsimp only [applyMutation] at h
      split at h
      · cases h
      · next howned =>
        cases h
        rw [not_or, not_not, Bool.not_eq_true, isNone_eq_false_iff] at howned
        exact ⟨howned.1, howned.2, eq_erase_iff.mpr rfl⟩

end Changing

end State

end Vivido.Scene
