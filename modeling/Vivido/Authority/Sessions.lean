import Vivido.Authority.Revoking
import Vivido.Authority.Usage

/-!
The sessions over one scene. What a session may do it may do in the contexts of
its table, which begins anew whenever it is established; the scene keeps what a
session that is suspended has made.
-/

namespace Vivido.Authority

open Scene

variable {P : Protocol} {C : ContextProtocol}

/-- The operation begins or ends a session or some of its contexts. -/
def isTenancy : Request P → Bool
  | .registerSession _ _ | .removeSession _ | .suspendSession _ | .detachSession _
  | .removeContexts _ _ => true
  | _ => false

/-- What a session leaves in the scene. -/
inductive Ending where
  | suspended
  | detached
  | removed
  deriving DecidableEq, Repr

/-- The scene and the contexts of the sessions that are established. -/
structure Sessions (P : Protocol) (C : ContextProtocol) where
  scene : State P
  tables : SortedMap SessionIdentity (ContextTable C)

/-- What happens to the sessions. The loops of a revocation take fuel. -/
inductive Act (P : Protocol) (C : ContextProtocol) where
  | establish (session : SessionIdentity) (operationClasses : ℕ) (contract : C.Contract)
      (targetGeneration : ℕ)
  | lose (session : SessionIdentity) (ending : Ending)
  | createContext (session : SessionIdentity) (definition : ContextDefinition C.Contract)
  | chargeContext (session : SessionIdentity) (contextId : ℕ) (charges : C.Charges)
  | revokeContext (session : SessionIdentity) (fuel contextId : ℕ)
  | control (session : SessionIdentity) (request : Request P)
  | elsewhere (request : Request P)

namespace Sessions

variable (x : Sessions P C)

/-- `require_context` -/
def requiresContext (session : SessionIdentity) (context : ContextIdentity) : Bool :=
  context.session = session && context.contextId ≠ 0 &&
    (x.tables.lookup session).any fun table => (table.lookup context.contextId).isSome

/-- `require_context_operation` -/
def requiresContextOperation (session : SessionIdentity) (context : ContextIdentity)
    (operation : ℕ) : Bool :=
  context.session = session && context.contextId ≠ 0 &&
    (x.tables.lookup session).any fun table =>
      (table.lookup context.contextId).any fun state => state.operationClasses &&& operation ≠ 0

/-- The session may ask for the operation. -/
def authorizes (session : SessionIdentity) : Request P → Bool
  | .createSurface identity _ =>
    x.requiresContextOperation session identity.context C.surfaceTrackMedia
  | .createTrack identity _ =>
    x.requiresContextOperation session identity.surface.context C.surfaceTrackMedia
  | .updateSurface identity _ _ _ | .destroySurface identity | .activateTracks identity _ _ =>
    x.requiresContext session identity.context
  | .destroyTrack identity | .advanceChannel identity | .setAudioGain identity _
  | .configurePlayback _ identity _ _ | .pausePlaybackAt _ identity _
  | .flushPlayback identity _ => x.requiresContext session identity.surface.context
  | .beginTransaction context _ | .queueMutation context _ _ => x.requiresContext session context
  -- the context is that of a transaction which the session has begun
  | .abortTransaction context transactionId | .commitTransaction context transactionId _ _ =>
    context.session = session && (x.tables.lookup session).isSome &&
      (x.scene.staged context transactionId).isSome
  | _ => false

/-- The end of `establish_root_session`: the contexts are new, and the scene is there already if the
session is resumed. -/
def establish (session : SessionIdentity) (operationClasses : ℕ) (contract : C.Contract)
    (targetGeneration : ℕ) : Sessions P C :=
  match ContextTable.root operationClasses contract with
  | none => x
  | some table =>
    if (x.scene.scenes.lookup session).isSome then
      { x with tables := x.tables.insert session table }
    else
      match x.scene.registerSession session targetGeneration with
      | (scene, .error _) => { x with scene }
      | (scene, .ok _) => { scene, tables := x.tables.insert session table }

def onTable (session : SessionIdentity) (change : ContextTable C → ContextTable C) :
    Sessions P C :=
  match x.tables.lookup session with
  | none => x
  | some table => { x with tables := x.tables.insert session (change table) }

/-- The handler of `REVOKE_CONTEXT`, as far as the scene goes. -/
def revokeContext (session : SessionIdentity) (fuel contextId : ℕ) : Sessions P C :=
  match x.tables.lookup session with
  | none => x
  | some table =>
    if contextId = rootContextId ∨ (table.lookup contextId).isNone then x
    else
      match table.revoke fuel contextId with
      | none => x
      | some (table, removed) =>
        { scene := x.scene.removeContexts session (removed.sort (· ≤ ·))
          tables := x.tables.insert session table }

def step : Act P C → Sessions P C
  | .establish session operationClasses contract targetGeneration =>
    x.establish session operationClasses contract targetGeneration
  | .lose session ending =>
    { scene := match ending with
        | .suspended => x.scene.suspendSession session
        | .detached => x.scene.detachSession session
        | .removed => x.scene.removeSession session
      tables := x.tables.erase session }
  | .createContext session definition => x.onTable session fun table => (table.create definition).1
  | .chargeContext session contextId charges =>
    x.onTable session fun table => table.adjust contextId fun state => { state with charges }
  | .revokeContext session fuel contextId => x.revokeContext session fuel contextId
  | .control session request =>
    if x.authorizes session request then { x with scene := (x.scene.perform request).1 } else x
  | .elsewhere request =>
    if isTenancy request ∨ request.isAdding then x
    else { x with scene := (x.scene.perform request).1 }

/-- The sessions after a history that began without any. -/
def run (C : ContextProtocol) (target : PresentationTarget P) (history : List (Act P C)) :
    Sessions P C :=
  history.foldl step { scene := .new target, tables := .empty }

/-- The scene and the contexts go as for the handler on all that a session's contexts own. -/
theorem revokeContext_of_holdings {L : Service.LeaseProtocol} {Opens : Type}
    {before after : Holdings P L C Opens} {session : SessionIdentity} {fuel contextId : ℕ}
    (hscene : before.shared.scene = x.scene)
    (htable : x.tables.lookup session = some before.contexts)
    (h : before.revokeContext fuel session contextId = some (after, .ok ())) :
    x.revokeContext session fuel contextId =
      { scene := after.shared.scene, tables := x.tables.insert session after.contexts } := by
  unfold Holdings.revokeContext at h
  split at h
  · cases h
  rename_i hroot
  split at h
  · cases h
  rename_i hlive
  obtain ⟨⟨_, _⟩, hrevoke, heq⟩ := Option.map_eq_some_iff.mp h
  obtain ⟨rfl, -⟩ := Prod.mk.inj heq
  unfold revokeContext
  rw [htable]
  dsimp only
  rw [if_neg (not_or.mpr ⟨hroot, hlive⟩), hrevoke, hscene]

/-- The session comes to be established. -/
def Establishes (session : SessionIdentity) (operationClasses : ℕ) (contract : C.Contract)
    (targetGeneration : ℕ) : Prop :=
  C.isContext rootContextId operationClasses contract = true ∧
    ((x.scene.scenes.lookup session).isSome ∨ targetGeneration ≠ 0)

variable (session : SessionIdentity)

theorem establish_scene (operationClasses : ℕ) (contract : C.Contract) (targetGeneration : ℕ) :
    (x.establish session operationClasses contract targetGeneration).scene = x.scene ∨
      (x.establish session operationClasses contract targetGeneration).scene =
        (x.scene.registerSession session targetGeneration).1 := by
  unfold establish
  split
  · exact Or.inl rfl
  split
  · exact Or.inl rfl
  · split
    · rename_i heq
      exact Or.inr (congrArg Prod.fst heq).symm
    · rename_i heq
      exact Or.inr (congrArg Prod.fst heq).symm

theorem establish_tables (operationClasses : ℕ) (contract : C.Contract) (targetGeneration : ℕ) :
    x.Establishes session operationClasses contract targetGeneration ∧
        (∃ table, ContextTable.root operationClasses contract = some table ∧
          (x.establish session operationClasses contract targetGeneration).tables =
            x.tables.insert session table) ∨
      ¬ x.Establishes session operationClasses contract targetGeneration ∧
        (x.establish session operationClasses contract targetGeneration).tables = x.tables := by
  unfold establish
  cases hroot : ContextTable.root operationClasses contract with
  | none =>
    refine Or.inr ⟨fun h => ?_, rfl⟩
    unfold ContextTable.root at hroot
    rw [if_pos h.1] at hroot
    cases hroot
  | some table =>
    have hcontext : C.isContext rootContextId operationClasses contract = true := by
      unfold ContextTable.root at hroot
      by_contra hnot
      rw [if_neg hnot] at hroot
      cases hroot
    dsimp only
    by_cases hscene : (x.scene.scenes.lookup session).isSome = true
    · rw [if_pos hscene]
      exact Or.inl ⟨⟨hcontext, Or.inl hscene⟩, table, rfl, rfl⟩
    rw [if_neg hscene]
    unfold State.registerSession
    by_cases htarget : targetGeneration = 0
    · rw [if_pos htarget]
      exact Or.inr ⟨fun h => h.2.elim hscene (· htarget), rfl⟩
    · rw [if_neg htarget]
      dsimp only
      rw [if_neg (show ¬ (x.scene.invalidateTopology.scenes.lookup session).isSome = true
        from hscene)]
      exact Or.inl ⟨⟨hcontext, Or.inr htarget⟩, table, rfl, rfl⟩

theorem run_concat (target : PresentationTarget P) (history : List (Act P C)) (act : Act P C) :
    run C target (history ++ [act]) = (run C target history).step act :=
  List.foldl_append

end Sessions

end Vivido.Authority
