import Vivido.Authority.Addressing

/-!
Whether contracts hold. A contract is granted to a session and to each of its
contexts, and a child's part is reserved with its parent, but no operation that
adds to the scene asks for what is left of it.
-/

namespace Vivido.Authority

open Scene SortedMap Option

variable {P : Protocol} {C : ContextProtocol}

/-- Whom a contract is granted to: a session with all its contexts, or one context. -/
inductive Owner where
  | session (session : SessionIdentity)
  | context (context : ContextIdentity)
  deriving DecidableEq, Repr

namespace Owner

/-- The context whose contract is the owner's. -/
def granted : Owner → ContextIdentity
  | .session identity => ⟨identity, rootContextId⟩
  | .context identity => identity

def owns : Owner → ContextIdentity → Bool
  | .session identity, owned => owned.session = identity
  | .context identity, owned => owned = identity

end Owner

/-- The contract that a context is created with. -/
def ContextTable.grants (contexts : ContextTable C) (definition : ContextDefinition C.Contract) :
    Option C.Contract :=
  if (contexts.lookup definition.contextId).isSome then none
  else
    (contexts.lookup definition.parentContextId).bind fun parent =>
      (C.reserveChild parent.operationClasses parent.contract parent.charges definition).bind
        fun (_, operationClasses, contract) =>
          if C.isContext definition.contextId operationClasses contract then some contract
          else none

namespace ContextTable

variable {contexts : ContextTable C}

def contract? (contexts : ContextTable C) (contextId : ℕ) : Option C.Contract :=
  (contexts.lookup contextId).map (·.contract)

/-- A created context has the contract that it is granted, and the others keep theirs. -/
theorem contract?_create (definition : ContextDefinition C.Contract) (a : ℕ) :
    (create contexts definition).1.contract? a =
      if a = definition.contextId then (contexts.grants definition).or (contexts.contract? a)
      else contexts.contract? a := by
  have hsame : contexts.contract? a = if a = definition.contextId then
      (none : Option C.Contract).or (contexts.contract? a) else contexts.contract? a := by
    split <;> rfl
  unfold create grants
  split
  · exact hsame
  cases hparent : contexts.lookup definition.parentContextId with
  | none => exact hsame
  | some parent =>
    dsimp only [bind_some]
    cases hreserve : C.reserveChild parent.operationClasses parent.contract parent.charges
        definition with
    | none => exact hsame
    | some granted =>
      obtain ⟨charges, _, contract⟩ := granted
      dsimp only [bind_some]
      have hcharged : contract? (contexts.insert definition.parentContextId
          { parent with charges }) a = contexts.contract? a := by
        unfold contract?
        rw [lookup_insert]
        split
        · rename_i heq
          rw [heq, hparent]
          rfl
        · rfl
      split
      · unfold contract?
        rw [lookup_insert]
        split
        · rfl
        · exact hcharged
      · exact hcharged.trans hsame

theorem contract?_adjust (contextId : ℕ) (charges : C.Charges) (a : ℕ) :
    contract? (contexts.adjust contextId fun state => { state with charges }) a =
      contexts.contract? a := by
  unfold contract?
  rw [lookup_adjust]
  split
  · cases contexts.lookup a <;> rfl
  · rfl

theorem contract?_revoke {fuel contextId : ℕ} {contexts' : ContextTable C} {removed : Finset ℕ}
    (hlive : (contexts.lookup contextId).isSome = true)
    (h : revoke contexts fuel contextId = some (contexts', removed)) {a : ℕ}
    {contract : C.Contract} (hcontract : contexts'.contract? a = some contract) :
    contexts.contract? a = some contract := by
  obtain ⟨revoked, hrevoked⟩ := Option.isSome_iff_exists.mp hlive
  have hrevokes := revokes_of_revoke h
  unfold contract? at hcontract ⊢
  by_cases hmem : a ∈ removed
  · rw [hrevokes.gone a hmem] at hcontract
    cases hcontract
  · rw [hrevokes.left revoked hrevoked a hmem] at hcontract
    split at hcontract
    · rw [Option.map_map] at hcontract
      exact hcontract
    · exact hcontract

theorem contract?_root {operationClasses : ℕ} {contract : C.Contract}
    (h : root operationClasses contract = some contexts) (a : ℕ) :
    contexts.contract? a = if a = rootContextId then some contract else none := by
  unfold root at h
  split at h
  · cases h
    unfold contract?
    rw [lookup_insert]
    split <;> rfl
  · cases h

end ContextTable

namespace Sessions

variable {x : Sessions P C}

/-- The contract of an owner, as long as its session is established. -/
def contractOf (x : Sessions P C) (owner : Owner) : Option C.Contract :=
  (x.tables.lookup owner.granted.session).bind (·.contract? owner.granted.contextId)

/-- No owner has more of the scene's objects than its contract allows. -/
def Within (x : Sessions P C) : Prop :=
  ∀ owner contract, x.contractOf owner = some contract →
    ∀ resource, x.scene.used owner.owns resource ≤ C.get contract resource

/-- What belongs to the owners of a contract that is granted is within it. -/
def Grants (x : Sessions P C) (context : ContextIdentity) (contract : C.Contract) : Prop :=
  ∀ owner : Owner, owner.granted = context →
    ∀ resource, x.scene.used owner.owns resource ≤ C.get contract resource

/-- What an operation adds fits beside what its owners have. -/
def Fits (x : Sessions P C) (request : Request P) : Prop :=
  ∀ gain, x.scene.gain request = some gain → ∀ owner : Owner, owner.owns gain.context = true →
    ∀ contract, x.contractOf owner = some contract →
      x.scene.used owner.owns gain.resource + gain.made ≤
        C.get contract gain.resource + gain.dropped

/-- Contracts are granted that cover what is there, and operations add what contracts allow. -/
def Covers (x : Sessions P C) : Act P C → Prop
  | .establish session operationClasses contract targetGeneration =>
    x.Establishes session operationClasses contract targetGeneration →
      x.Grants ⟨session, rootContextId⟩ contract
  | .createContext session definition =>
    ∀ table contract, x.tables.lookup session = some table →
      table.grants definition = some contract → x.Grants ⟨session, definition.contextId⟩ contract
  | .control session request => x.authorizes session request = true → x.Fits request
  | _ => True

/-- Where no count grows and each owner that has a contract had it before, contracts hold on. -/
theorem Within.of_le {y : Sessions P C} (h : x.Within)
    (hused : ∀ owned resource, y.scene.used owned resource ≤ x.scene.used owned resource)
    (hcontract : ∀ owner contract, y.contractOf owner = some contract →
      x.contractOf owner = some contract) : y.Within :=
  fun owner contract hgranted resource =>
    (hused owner.owns resource).trans
      (h owner contract (hcontract owner contract hgranted) resource)

variable {table : ContextTable C}

theorem contractOf_insert {y : Sessions P C} {session : SessionIdentity}
    (h : y.tables = x.tables.insert session table) (owner : Owner) :
    y.contractOf owner = if owner.granted.session = session then
      table.contract? owner.granted.contextId else x.contractOf owner := by
  unfold contractOf
  rw [h, lookup_insert]
  split <;> rfl

theorem Within.lose (h : x.Within) (session : SessionIdentity) (ending : Ending) :
    (x.step (.lose session ending)).Within := by
  refine h.of_le (fun owned resource => ?_) fun owner contract hgranted => ?_
  · cases ending with
    | suspended => exact (State.shrinks_perform x.scene (.suspendSession session) rfl).used_le _ _
    | detached => exact (State.shrinks_perform x.scene (.detachSession session) rfl).used_le _ _
    | removed => exact (State.shrinks_perform x.scene (.removeSession session) rfl).used_le _ _
  · obtain ⟨_, htable, hcontract⟩ := Option.bind_eq_some_iff.mp hgranted
    unfold contractOf
    rw [(lookup_erase_some htable).2]
    exact hcontract

theorem contractOf_onTable {session : SessionIdentity}
    (htable : x.tables.lookup session = some table) (change : ContextTable C → ContextTable C)
    (owner : Owner) :
    (x.onTable session change).contractOf owner = if owner.granted.session = session then
      (change table).contract? owner.granted.contextId else x.contractOf owner := by
  unfold onTable
  rw [htable]
  exact contractOf_insert rfl owner

theorem contractOf_table {session : SessionIdentity}
    (htable : x.tables.lookup session = some table) {owner : Owner}
    (h : owner.granted.session = session) :
    x.contractOf owner = table.contract? owner.granted.contextId := by
  unfold contractOf
  rw [h, htable, bind_some]

theorem scene_onTable (session : SessionIdentity) (change : ContextTable C → ContextTable C) :
    (x.onTable session change).scene = x.scene := by
  unfold onTable
  split <;> rfl

section

variable (h : x.Within) (session : SessionIdentity)
include h session

theorem Within.chargeContext (contextId : ℕ)
    (charges : C.Charges) : (x.step (.chargeContext session contextId charges)).Within := by
  dsimp only [step]
  cases htable : x.tables.lookup session with
  | none =>
    unfold onTable
    rw [htable]
    exact h
  | some table =>
    refine h.of_le (fun owned resource => by rw [scene_onTable]) fun owner contract hgranted => ?_
    rw [contractOf_onTable htable] at hgranted
    split at hgranted
    · rename_i hsession
      rw [ContextTable.contract?_adjust] at hgranted
      rwa [contractOf_table htable hsession]
    · exact hgranted

theorem Within.revokeContext (fuel contextId : ℕ) :
    (x.revokeContext session fuel contextId).Within := by
  unfold Sessions.revokeContext
  split
  · exact h
  rename_i table htable
  split
  · exact h
  rename_i hlive
  split
  · exact h
  rename_i table' removed hrevoke
  rw [not_or, isNone_iff_eq_none] at hlive
  refine h.of_le (fun owned resource => ?_) fun owner contract hgranted => ?_
  · exact (State.shrinks_perform x.scene
      (.removeContexts session (removed.sort (· ≤ ·))) rfl).used_le _ _
  rw [contractOf_insert (x := x) rfl] at hgranted
  split at hgranted
  · rename_i hsession
    rw [contractOf_table htable hsession]
    exact ContextTable.contract?_revoke (Option.isSome_iff_ne_none.mpr hlive.2) hrevoke
      hgranted
  · exact hgranted

theorem Within.createContext_iff (definition : ContextDefinition C.Contract) :
    (x.step (.createContext session definition)).Within ↔
      x.Covers (.createContext session definition) := by
  dsimp only [step, Covers]
  cases htable : x.tables.lookup session with
  | none =>
    have hsame : x.onTable session (fun table => (table.create definition).1) = x := by
      unfold onTable
      rw [htable]
    rw [hsame]
    refine iff_of_true h fun table contract hnone => ?_
    cases hnone
  | some table =>
    constructor
    · intro hafter _ contract hsome hgrants owner howner resource
      cases hsome
      have hle := hafter owner contract (by
        rw [contractOf_onTable htable, howner, if_pos rfl, ContextTable.contract?_create,
          if_pos rfl, hgrants, some_or]) resource
      rwa [scene_onTable] at hle
    · intro hcovers owner contract hgranted resource
      rw [scene_onTable]
      rw [contractOf_onTable htable] at hgranted
      split at hgranted
      · rename_i hsession
        rw [ContextTable.contract?_create] at hgranted
        split at hgranted
        · rename_i hid
          cases hgrants : table.grants definition with
          | none =>
            rw [hgrants, none_or] at hgranted
            refine h owner contract ?_ resource
            rwa [contractOf_table htable hsession]
          | some =>
            rw [hgrants, some_or] at hgranted
            cases hgranted
            refine hcovers table contract rfl hgrants owner ?_ resource
            rw [← hsession, ← hid]
        · refine h owner contract ?_ resource
          rwa [contractOf_table htable hsession]
      · exact h owner contract hgranted resource

theorem Within.establish_iff (operationClasses : ℕ)
    (contract : C.Contract) (targetGeneration : ℕ) :
    (x.establish session operationClasses contract targetGeneration).Within ↔
      x.Covers (.establish session operationClasses contract targetGeneration) := by
  have hused : ∀ owned resource, (x.establish session operationClasses contract
      targetGeneration).scene.used owned resource = x.scene.used owned resource := by
    intro owned resource
    rcases x.establish_scene session operationClasses contract targetGeneration with heq | heq
    · rw [heq]
    · rw [heq, State.used_registerSession]
  rcases x.establish_tables session operationClasses contract targetGeneration with
    ⟨hestablishes, _, hroot, htables⟩ | ⟨hnot, htables⟩
  · have hcontract := contractOf_insert htables
    constructor
    · intro hafter _ owner howner resource
      rw [← hused]
      refine hafter owner contract ?_ resource
      rw [hcontract, howner, if_pos rfl, ContextTable.contract?_root hroot, if_pos rfl]
    · intro hcovers owner granted hgranted resource
      rw [hused]
      rw [hcontract] at hgranted
      split at hgranted
      · rename_i hsession
        rw [ContextTable.contract?_root hroot] at hgranted
        split at hgranted
        · rename_i hid
          cases hgranted
          refine hcovers hestablishes owner ?_ resource
          rw [← hsession, ← hid]
        · cases hgranted
      · exact h owner granted hgranted resource
  · refine iff_of_true (h.of_le (fun owned resource => (hused owned resource).le) ?_) ?_
    · intro _ _ hgranted
      unfold contractOf at hgranted
      rwa [htables] at hgranted
    · exact fun hestablishes => (hnot hestablishes).elim

end

/-- What an operation adds is within the contracts of its owners if it fits beside what they
have. -/
theorem Within.perform_iff (h : x.Within) (request : Request P) :
    ({ x with scene := (x.scene.perform request).1 } : Sessions P C).Within ↔ x.Fits request := by
  have hperform := State.used_perform x.scene request
  constructor
  · intro hafter gain hgain owner howns contract hgranted
    have hle := hafter owner contract hgranted gain.resource
    rcases hperform owner.owns with ⟨_, hfound, hused, -⟩ | ⟨hnone, -⟩
    · rw [hgain] at hfound
      cases hfound
      rw [howns] at hused
      simp only [Bool.toNat_true, Nat.mul_one] at hused
      dsimp only at hle
      omega
    · rw [hgain] at hnone
      cases hnone
  · intro hfits owner contract hgranted resource
    have hbefore := h owner contract hgranted
    dsimp only
    rcases hperform owner.owns with ⟨gain, hgain, hused, hothers⟩ | ⟨-, hused⟩
    · by_cases hresource : resource = gain.resource
      · rw [hresource]
        cases howns : owner.owns gain.context with
        | false =>
          rw [howns] at hused
          simp only [Bool.toNat_false, Nat.mul_zero, Nat.add_zero] at hused
          rw [hused]
          exact hbefore gain.resource
        | true =>
          have hroom := hfits gain hgain owner howns contract hgranted
          rw [howns] at hused
          simp only [Bool.toNat_true, Nat.mul_one] at hused
          omega
      · exact (hothers resource hresource).trans (hbefore resource)
    · exact (hused resource).trans (hbefore resource)

theorem Within.step_iff (h : x.Within) (act : Act P C) : (x.step act).Within ↔ x.Covers act := by
  cases act with
  | establish session operationClasses contract targetGeneration =>
    exact h.establish_iff session operationClasses contract targetGeneration
  | lose session ending => exact iff_of_true (h.lose session ending) trivial
  | createContext session definition => exact h.createContext_iff session definition
  | chargeContext session contextId charges =>
    exact iff_of_true (h.chargeContext session contextId charges) trivial
  | revokeContext session fuel contextId =>
    exact iff_of_true (h.revokeContext session fuel contextId) trivial
  | control session request =>
    dsimp only [step, Covers]
    split
    · rename_i hauthorized
      rw [h.perform_iff]
      exact ⟨fun hfits _ => hfits, fun hfits => hfits hauthorized⟩
    · rename_i hrefused
      exact iff_of_true h fun hauthorized => (hrefused hauthorized).elim
  | elsewhere request =>
    refine iff_of_true ?_ trivial
    dsimp only [step]
    split
    · exact h
    · rename_i hother
      rw [not_or] at hother
      have hshrinks := State.shrinks_perform x.scene request
        (Bool.eq_false_of_not_eq_true hother.2)
      exact h.of_le hshrinks.used_le fun _ _ hgranted => hgranted

/-- The contracts hold all along a history if and only if each of its operations adds no more than
they allow, and each contract that is granted covers what is there. -/
theorem within_iff (target : PresentationTarget P) (history : List (Act P C)) :
    (∀ n, (run C target (history.take n)).Within) ↔ Throughout (run C target) Covers history := by
  refine throughout_iff_always (fun history => (run C target history).Within) ?_ ?_
  · intro _ _ hgranted
    cases hgranted
  · intro _ act h
    rw [run_concat]
    exact h.step_iff act

section Exceeding

/-- A context that may have one surface is given two. -/
def exceeding : List (Act .plain .plain) :=
  [.establish State.viewer 1 (fun _ => 8) 1,
    .createContext State.viewer ⟨2, rootContextId, 1, fun _ => 1⟩,
    .control State.viewer (.createSurface ⟨⟨State.viewer, 2⟩, 1⟩
      { contextId := 2, surfaceId := 1 }),
    .control State.viewer (.createSurface ⟨⟨State.viewer, 2⟩, 2⟩
      { contextId := 2, surfaceId := 2 })]

theorem contract_exceeded :
    ¬ ∀ (target : PresentationTarget .plain) (history : List (Act .plain .plain)),
      (run .plain target history).Within := by
  intro h
  have hafter := h .plain exceeding
  generalize hx : run .plain .plain exceeding = x at hafter
  have hcontract : (x.contractOf (.context ⟨State.viewer, 2⟩)).any (· .surfaces = 1) := by
    rw [← hx]
    decide +kernel
  obtain ⟨contract, hgranted, hone⟩ := (Option.any_eq_true _ _).mp hcontract
  have hused := hafter _ contract hgranted .surfaces
  rw [show ContextProtocol.plain.get contract .surfaces = 1 from of_decide_eq_true hone,
    ← hx] at hused
  revert hused
  decide +kernel

end Exceeding

end Sessions

end Vivido.Authority
