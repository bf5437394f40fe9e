import Mathlib.Data.Finset.Sort
import Vivido.Scene.State
import Vivido.Support.Ancestry

/-!
The contexts of a session. A context is created under another one, which is
charged for what the child may use, and it is revoked with all that came under
it. The library that reserves and releases stands outside the repository.
-/

namespace Vivido.Authority

open Scene SortedMap List Option

/-- Those resources of a contract that count objects of the scene. -/
inductive Resource where
  | surfaces
  | tracks
  | nodes
  | openSceneTransactions
  deriving DecidableEq, Repr

structure ContextDefinition (Contract : Type) where
  contextId : ℕ
  parentContextId : ℕ
  operationClasses : ℕ
  requestedContract : Contract

/-- The parts of the protocol's library that contexts rest on. -/
structure ContextProtocol where
  Contract : Type
  /-- What a context has reserved for its children. -/
  Charges : Type
  get : Contract → Resource → ℕ
  noCharges : Charges
  /-- `OP_SURFACE_TRACK_MEDIA`, as a mask of operation classes. -/
  surfaceTrackMedia : ℕ
  /-- `ContextState::root` accepts the context. -/
  isContext : ℕ → ℕ → Contract → Bool
  /-- Charge a context with what a child asks for; the classes and the contract of the child. -/
  reserveChild : ℕ → Contract → Charges → ContextDefinition Contract →
    Option (Charges × ℕ × Contract)
  releaseChild : Contract → Charges → Contract → Charges

/-- What is asked for fits beside what is charged already. -/
def Resource.fits (asked charged limit : Resource → ℕ) : Bool :=
  [surfaces, tracks, nodes, openSceneTransactions].all fun r => charged r + asked r ≤ limit r

/-- A library that counts. -/
def ContextProtocol.plain : ContextProtocol where
  Contract := Resource → ℕ
  Charges := Resource → ℕ
  get := id
  noCharges _ := 0
  surfaceTrackMedia := 1
  isContext contextId _ _ := contextId ≠ 0
  reserveChild operationClasses contract charges definition :=
    if Resource.fits definition.requestedContract charges contract then
      some (fun r => charges r + definition.requestedContract r,
        operationClasses &&& definition.operationClasses, definition.requestedContract)
    else none
  releaseChild _ charges contract := fun r => charges r - contract r

structure ContextState (C : ContextProtocol) where
  parentContextId : Option ℕ
  operationClasses : ℕ
  contract : C.Contract
  charges : C.Charges

/-- The contexts of a session, by their numbers. -/
abbrev ContextTable (C : ContextProtocol) := SortedMap ℕ (ContextState C)

variable {C : ContextProtocol}

def ContextState.releaseChild (state : ContextState C) (contract : C.Contract) : ContextState C :=
  { state with charges := C.releaseChild state.contract state.charges contract }

/-- The number of a session's first context. -/
def rootContextId : ℕ := 1

namespace ContextTable

/-- The contexts of a session that begins. -/
def root (operationClasses : ℕ) (contract : C.Contract) : Option (ContextTable C) :=
  if C.isContext rootContextId operationClasses contract then
    some (SortedMap.empty.insert rootContextId
      { parentContextId := none, operationClasses, contract, charges := C.noCharges })
  else none

variable (contexts : ContextTable C)

/-- The handler of `CREATE_CONTEXT`. -/
def create (definition : ContextDefinition C.Contract) : ContextTable C × Except String Unit :=
  if (contexts.lookup definition.contextId).isSome then
    (contexts, .error "context ID is already live")
  else match contexts.lookup definition.parentContextId with
  | none => (contexts, .error "context parent is absent")
  | some parent =>
    match C.reserveChild parent.operationClasses parent.contract parent.charges definition with
    | none => (contexts, .error "context capacity is exhausted")
    | some (charges, operationClasses, contract) =>
      let contexts := contexts.insert definition.parentContextId { parent with charges }
      -- the parent stays charged where the child is not valid
      if C.isContext definition.contextId operationClasses contract then
        (contexts.insert definition.contextId
          { parentContextId := some definition.parentContextId
            operationClasses, contract
            charges := C.noCharges }, .ok ())
      else (contexts, .error "invalid effective context")

def parent (contextId : ℕ) : Option ℕ :=
  (contexts.lookup contextId).bind (·.parentContextId)

/-- Remove a context and release what its parent reserved for it. -/
def removeOne (contextId : ℕ) : ContextTable C :=
  match contexts.lookup contextId with
  | none => contexts
  | some state =>
    let contexts := contexts.erase contextId
    match state.parentContextId with
    | none => contexts
    | some parent => contexts.adjust parent (·.releaseChild state.contract)

/-- The removal loop of `REVOKE_CONTEXT`, after the contexts to remove are found and ordered from
the deepest up: both are loops, which the fuel bounds. The contexts that are left, and those
removed. -/
def revoke (fuel contextId : ℕ) : Option (ContextTable C × Finset ℕ) :=
  (saturate (parent contexts) (contexts.entries.map Prod.fst) fuel {contextId}).bind fun removed =>
    let candidates := removed.sort (· ≤ ·)
    if candidates.any fun candidate => (depth (parent contexts) fuel candidate).isNone then none
    else
      let ordered := candidates.mergeSort fun a b =>
        (depth (parent contexts) fuel b).getD 0 ≤ (depth (parent contexts) fuel a).getD 0
      some (ordered.foldl removeOne contexts, removed)

/-! ### What the tables keep -/

/-- Each parent is in the table, and none is above itself. -/
def Rooted (contexts : ContextTable C) : Prop :=
  ∃ rank, Ranked (parent contexts) rank ∧
    ∀ a b, parent contexts a = some b → (contexts.lookup b).isSome = true

/-- A context keeps its parent, its classes and its contract. -/
def SameTerms (state state' : ContextState C) : Prop :=
  state'.parentContextId = state.parentContextId ∧
    state'.operationClasses = state.operationClasses ∧ state'.contract = state.contract

variable {contexts} {a b contextId : ℕ} {state : ContextState C}

theorem sameTerms_refl (state : ContextState C) : SameTerms state state := ⟨rfl, rfl, rfl⟩

theorem mem_of_parent (h : parent contexts a = some b) : a ∈ contexts.entries.map Prod.fst := by
  obtain ⟨state, hstate, -⟩ := Option.bind_eq_some_iff.mp h
  exact List.mem_map.mpr ⟨(a, state), mem_entries.mpr hstate, rfl⟩

theorem lookup_removeOne_self (contexts : ContextTable C) (contextId : ℕ) :
    (removeOne contexts contextId).lookup contextId = none := by
  unfold removeOne
  split
  · assumption
  · dsimp only
    split
    · rw [lookup_erase, if_pos rfl]
    · rw [lookup_adjust, lookup_erase, if_pos rfl]
      split <;> rfl

theorem lookup_removeOne_of_ne (h : a ≠ contextId) (hparent : parent contexts contextId ≠ some a) :
    (removeOne contexts contextId).lookup a = contexts.lookup a := by
  unfold removeOne
  split
  · rfl
  rename_i state hstate
  dsimp only
  split
  · rw [lookup_erase, if_neg h]
  · rename_i b hb
    have hne : a ≠ b := by
      rintro rfl
      exact hparent (by unfold parent; rw [hstate]; exact hb)
    rw [lookup_adjust, if_neg hne, lookup_erase, if_neg h]

theorem lookup_removeOne_parent (hstate : contexts.lookup contextId = some state)
    (hparent : state.parentContextId = some a) (h : a ≠ contextId) :
    (removeOne contexts contextId).lookup a =
      (contexts.lookup a).map (·.releaseChild state.contract) := by
  unfold removeOne
  rw [hstate]
  dsimp only
  rw [hparent]
  dsimp only
  rw [lookup_adjust, if_pos rfl, lookup_erase, if_neg h]

theorem removeOne_terms (h : a ≠ contextId) (hstate : contexts.lookup a = some state) :
    ∃ state', (removeOne contexts contextId).lookup a = some state' ∧ SameTerms state state' := by
  by_cases hparent : parent contexts contextId = some a
  · obtain ⟨_, hremoved, hlink⟩ := Option.bind_eq_some_iff.mp hparent
    rw [lookup_removeOne_parent hremoved hlink h, hstate]
    exact ⟨_, rfl, rfl, rfl, rfl⟩
  · rw [lookup_removeOne_of_ne h hparent]
    exact ⟨state, hstate, sameTerms_refl state⟩

theorem lookup_removeOne_none (h : contexts.lookup a = none) (contextId : ℕ) :
    (removeOne contexts contextId).lookup a = none := by
  by_cases heq : a = contextId
  · rw [heq]
    exact lookup_removeOne_self contexts contextId
  · by_cases hparent : parent contexts contextId = some a
    · obtain ⟨_, hremoved, hlink⟩ := Option.bind_eq_some_iff.mp hparent
      rw [lookup_removeOne_parent hremoved hlink heq, h]
      rfl
    · rw [lookup_removeOne_of_ne heq hparent, h]

/-- A removal makes no links. -/
theorem parent_removeOne (h : parent (removeOne contexts contextId) a = some b) :
    parent contexts a = some b := by
  obtain ⟨_, hstate', hlink⟩ := Option.bind_eq_some_iff.mp h
  by_cases heq : a = contextId
  · rw [heq, lookup_removeOne_self] at hstate'
    cases hstate'
  cases hstate : contexts.lookup a with
  | none =>
    rw [lookup_removeOne_none hstate] at hstate'
    cases hstate'
  | some =>
    obtain ⟨_, hfound, hterms⟩ := removeOne_terms heq hstate
    rw [hstate'] at hfound
    cases hfound
    unfold parent
    rw [hstate, ← hlink]
    exact hterms.1.symm

/-! ### The removal loop -/

theorem lookup_foldl_none {removed : List ℕ} (h : contexts.lookup a = none) :
    (removed.foldl removeOne contexts).lookup a = none := by
  induction removed generalizing contexts with
  | nil => exact h
  | cons contextId _ ih => exact ih (lookup_removeOne_none h contextId)

theorem lookup_foldl_removed {removed : List ℕ} (h : a ∈ removed) :
    (removed.foldl removeOne contexts).lookup a = none := by
  induction removed generalizing contexts with
  | nil => cases h
  | cons _ _ ih =>
    rcases List.mem_cons.mp h with rfl | h
    · rw [foldl_cons]
      exact lookup_foldl_none (lookup_removeOne_self contexts a)
    · exact ih h

theorem lookup_foldl_kept {removed : List ℕ} (h : a ∉ removed)
    (hparent : ∀ contextId ∈ removed, parent contexts contextId ≠ some a) :
    (removed.foldl removeOne contexts).lookup a = contexts.lookup a := by
  induction removed generalizing contexts with
  | nil => rfl
  | cons contextId _ ih =>
    refine (ih (fun hmem => h (mem_cons_of_mem _ hmem)) fun other hother hlink => ?_).trans ?_
    · exact hparent other (mem_cons_of_mem _ hother) (parent_removeOne hlink)
    · refine lookup_removeOne_of_ne ?_ (hparent contextId mem_cons_self)
      rintro rfl
      exact h mem_cons_self

/-- The one context that stands above those removed gets the capacity of its child back. -/
theorem lookup_foldl_parent {removed : List ℕ} (hnodup : removed.Nodup) (h : a ∉ removed)
    (hmem : contextId ∈ removed) (hstate : contexts.lookup contextId = some state)
    (hlink : state.parentContextId = some a)
    (hparent : ∀ other ∈ removed, other ≠ contextId → parent contexts other ≠ some a) :
    (removed.foldl removeOne contexts).lookup a =
      (contexts.lookup a).map (·.releaseChild state.contract) := by
  induction removed generalizing contexts state with
  | nil => cases hmem
  | cons first removed ih =>
    obtain ⟨hfirst, hnodup⟩ := List.nodup_cons.mp hnodup
    have hne : a ≠ first := by
      rintro rfl
      exact h mem_cons_self
    have hrest : a ∉ removed := fun hmem => h (mem_cons_of_mem _ hmem)
    by_cases heq : first = contextId
    · subst heq
      refine (lookup_foldl_kept hrest fun other hother hlinked => ?_).trans
        (lookup_removeOne_parent hstate hlink hne)
      refine hparent other (mem_cons_of_mem _ hother) ?_ (parent_removeOne hlinked)
      rintro rfl
      exact hfirst hother
    · have hmem : contextId ∈ removed := (List.mem_cons.mp hmem).resolve_left (Ne.symm heq)
      obtain ⟨_, hstate', hterms⟩ := removeOne_terms (Ne.symm heq) hstate
      rw [foldl_cons, ih hnodup hrest hmem hstate' (hterms.1.trans hlink)
        (fun other hother hne hlinked =>
          hparent other (mem_cons_of_mem _ hother) hne (parent_removeOne hlinked)),
        lookup_removeOne_of_ne hne (hparent first mem_cons_self heq), hterms.2.2]

/-- What a revocation removes, and what it makes of the contexts that are left. -/
structure Revokes (contexts : ContextTable C) (contextId : ℕ) (contexts' : ContextTable C)
    (removed : Finset ℕ) : Prop where
  subtree : ∀ a, a ∈ removed ↔ Below (parent contexts) contextId a
  gone : ∀ a ∈ removed, contexts'.lookup a = none
  left : ∀ state, contexts.lookup contextId = some state → ∀ a ∉ removed,
    contexts'.lookup a =
      if state.parentContextId = some a then
        (contexts.lookup a).map (·.releaseChild state.contract)
      else contexts.lookup a

theorem revokes_of_revoke {fuel : ℕ} {contexts' : ContextTable C} {removed : Finset ℕ}
    (h : revoke contexts fuel contextId = some (contexts', removed)) :
    Revokes contexts contextId contexts' removed := by
  unfold revoke at h
  obtain ⟨found, hfound, h⟩ := Option.bind_eq_some_iff.mp h
  dsimp only at h
  split at h
  · cases h
  obtain ⟨rfl, rfl⟩ := Prod.mk.inj (Option.some.inj h)
  have hsubtree := mem_saturate hfound fun _ _ => mem_of_parent
  set ordered := (found.sort (· ≤ ·)).mergeSort _ with hordered
  have hperm : ordered.Perm (found.sort (· ≤ ·)) := mergeSort_perm _ _
  have hmem : ∀ a, a ∈ ordered ↔ a ∈ found := fun a => hperm.mem_iff.trans (Finset.mem_sort _)
  have hinner : ∀ other ∈ ordered, other ≠ contextId → ∀ b, parent contexts other = some b →
      b ∈ found := by
    intro other hother hne b hlink
    cases (hsubtree other).mp ((hmem other).mp hother) with
    | self => exact (hne rfl).elim
    | child hlink' hb =>
      rw [hlink] at hlink'
      cases hlink'
      exact (hsubtree b).mpr hb
  refine ⟨hsubtree, fun a ha => lookup_foldl_removed ((hmem a).mpr ha),
    fun state hstate a ha => ?_⟩
  have houter : a ∉ ordered := fun hmem' => ha ((hmem a).mp hmem')
  have hself : contextId ∈ ordered := (hmem contextId).mpr ((hsubtree contextId).mpr .self)
  split
  · rename_i hlink
    exact lookup_foldl_parent (hperm.nodup_iff.mpr (Finset.sort_nodup _ _)) houter hself hstate
      hlink fun other hother hne hlinked => ha (hinner other hother hne a hlinked)
  · rename_i hlink
    refine lookup_foldl_kept houter fun other hother hlinked => ?_
    by_cases hne : other = contextId
    · rw [hne] at hlinked
      unfold parent at hlinked
      rw [hstate] at hlinked
      exact hlink hlinked
    · exact ha (hinner other hother hne a hlinked)

/-- Both loops of a revocation end. -/
theorem revoke_isSome (h : Rooted contexts) (contextId : ℕ) :
    ∃ enough, ∀ fuel, enough ≤ fuel → (revoke contexts fuel contextId).isSome = true := by
  obtain ⟨rank, hranked, -⟩ := h
  set keys := (contexts.entries.map Prod.fst).toFinset with hkeys
  refine ⟨keys.card + (insert contextId keys).sup rank + 1, fun fuel hfuel => ?_⟩
  have hcard : (keys \ {contextId}).card < fuel :=
    lt_of_le_of_lt (Finset.card_le_card Finset.sdiff_subset) (by omega)
  obtain ⟨_, hremoved⟩ := Option.isSome_iff_exists.mp (saturate_isSome hcard)
  unfold revoke
  rw [hremoved]
  dsimp only [bind_some]
  rw [if_neg]
  · rfl
  rw [List.any_eq_true]
  rintro ⟨candidate, hcandidate, hnone⟩
  have hbelow := (mem_saturate hremoved (fun _ _ => mem_of_parent) candidate).mp
    ((Finset.mem_sort _).mp hcandidate)
  have hmem : candidate ∈ insert contextId keys := by
    cases hbelow with
    | self => exact Finset.mem_insert_self _ _
    | child hlink =>
      exact Finset.mem_insert_of_mem (List.mem_toFinset.mpr (mem_of_parent hlink))
  have hrank := Finset.le_sup (f := rank) hmem
  have hsome : (depth (parent contexts) fuel candidate).isSome = true :=
    depth_isSome hranked (by omega)
  rw [isNone_iff_eq_none] at hnone
  rw [hnone] at hsome
  cases hsome

/-- The loops go around no more often than there are contexts, and once more. -/
theorem revoke_of_size (h : Rooted contexts) (contextId : ℕ) : ∃ contexts' removed,
      revoke contexts (contexts.size + 1) contextId = some (contexts', removed) := by
  obtain ⟨_, hranked, -⟩ := h
  set keys := (contexts.entries.map Prod.fst).toFinset with hkeys
  have hcard : keys.card ≤ contexts.size :=
    (toFinset_card_le _).trans (length_map _).le
  have hsweeps : (keys \ {contextId}).card < contexts.size + 1 :=
    lt_of_le_of_lt (Finset.card_le_card Finset.sdiff_subset) (Nat.lt_succ_of_le hcard)
  obtain ⟨_, hremoved⟩ := Option.isSome_iff_exists.mp (saturate_isSome hsweeps)
  unfold revoke
  rw [hremoved]
  dsimp only [bind_some]
  rw [if_neg]
  · exact ⟨_, _, rfl⟩
  rw [List.any_eq_true]
  rintro ⟨candidate, -, hnone⟩
  have hsome : (depth (parent contexts) (contexts.size + 1) candidate).isSome = true :=
    depth_isSome_of_card hranked (fun a b hlink => List.mem_toFinset.mpr (mem_of_parent hlink))
      (lt_of_le_of_lt (Finset.card_filter_le _ _) (Nat.lt_succ_of_le hcard))
  rw [isNone_iff_eq_none] at hnone
  rw [hnone] at hsome
  cases hsome

/-! ### The tables that a session comes to -/

theorem rooted_root {operationClasses : ℕ} {contract : C.Contract}
    (h : root operationClasses contract = some contexts) : Rooted contexts := by
  unfold root at h
  split at h
  · cases h
    refine ⟨fun _ => 0, fun a b hlink => ?_, fun a b hlink => ?_⟩ <;>
    · obtain ⟨_, hstate, hparent⟩ := Option.bind_eq_some_iff.mp hlink
      rw [lookup_insert] at hstate
      split at hstate
      · cases hstate
        cases hparent
      · cases hstate
  · cases h

variable (definition : ContextDefinition C.Contract)

/-- A context is created with its parent's charges changed, and nothing else of the others. -/
theorem lookup_create (a : ℕ) (h : a ≠ definition.contextId) :
    ((create contexts definition).1.lookup a = none ↔ contexts.lookup a = none) ∧
      ∀ state, contexts.lookup a = some state →
        ∃ state', (create contexts definition).1.lookup a = some state' ∧
          SameTerms state state' := by
  have hsame : (contexts.lookup a = none ↔ contexts.lookup a = none) ∧
      ∀ state, contexts.lookup a = some state →
        ∃ state', contexts.lookup a = some state' ∧ SameTerms state state' :=
    ⟨Iff.rfl, fun state hstate => ⟨state, hstate, sameTerms_refl state⟩⟩
  unfold create
  split
  · exact hsame
  split
  · exact hsame
  rename_i parent hparent
  split
  · exact hsame
  rename_i charges operationClasses contract _
  have hcharged : ∀ m : ContextTable C, m.lookup a =
      (contexts.insert definition.parentContextId { parent with charges }).lookup a →
      (m.lookup a = none ↔ contexts.lookup a = none) ∧
        ∀ state, contexts.lookup a = some state →
          ∃ state', m.lookup a = some state' ∧ SameTerms state state' := by
    intro m hm
    rw [hm, lookup_insert]
    split
    · rename_i heq
      rw [heq, hparent]
      refine ⟨by simp, fun state hstate => ?_⟩
      cases hstate
      exact ⟨_, rfl, rfl, rfl, rfl⟩
    · exact hsame
  dsimp only
  split
  · exact hcharged _ (lookup_insert_of_ne h)
  · exact hcharged _ rfl

theorem lookup_create_self {definition : ContextDefinition C.Contract}
    (hstate : (create contexts definition).1.lookup definition.contextId = some state) :
    contexts.lookup definition.contextId = some state ∨
      contexts.lookup definition.contextId = none ∧
        state.parentContextId = some definition.parentContextId ∧
          (contexts.lookup definition.parentContextId).isSome = true := by
  unfold create at hstate
  split at hstate
  · exact Or.inl hstate
  rename_i hnone
  rw [not_isSome_iff_eq_none] at hnone
  split at hstate
  · exact Or.inl hstate
  rename_i parent hparent
  split at hstate
  · exact Or.inl hstate
  dsimp only at hstate
  split at hstate
  · rw [lookup_insert_self] at hstate
    cases hstate
    exact Or.inr ⟨hnone, rfl, by rw [hparent]; rfl⟩
  · rw [lookup_insert] at hstate
    split at hstate
    · rename_i heq
      rw [heq, hparent] at hnone
      cases hnone
    · exact Or.inl hstate

theorem parent_create {definition : ContextDefinition C.Contract}
    (h : parent (create contexts definition).1 a = some b) :
    parent contexts a = some b ∨ a = definition.contextId ∧ b = definition.parentContextId ∧
      contexts.lookup a = none ∧ (contexts.lookup b).isSome = true := by
  obtain ⟨_, hstate', hlink⟩ := Option.bind_eq_some_iff.mp h
  by_cases heq : a = definition.contextId
  · subst heq
    rcases lookup_create_self hstate' with hbefore | ⟨hnone, hparent, hsome⟩
    · left
      unfold parent
      rw [hbefore]
      exact hlink
    · rw [hlink] at hparent
      cases hparent
      exact Or.inr ⟨rfl, rfl, hnone, hsome⟩
  · left
    obtain ⟨hnone, hterms⟩ := lookup_create definition a heq
    cases hstate : contexts.lookup a with
    | none =>
      rw [hnone.mpr hstate] at hstate'
      cases hstate'
    | some state =>
      obtain ⟨_, hfound, hsame⟩ := hterms state hstate
      rw [hstate'] at hfound
      cases hfound
      unfold parent
      rw [hstate]
      exact hsame.1.symm.trans hlink

theorem isSome_create (h : (contexts.lookup a).isSome = true) :
    ((create contexts definition).1.lookup a).isSome = true := by
  obtain ⟨state, hstate⟩ := Option.isSome_iff_exists.mp h
  by_cases heq : a = definition.contextId
  · unfold create
    rw [if_pos (by rw [← heq]; exact h)]
    exact h
  · obtain ⟨_, hstate', -⟩ := (lookup_create definition a heq).2 state hstate
    rw [hstate']
    rfl

theorem rooted_create (h : Rooted contexts) (definition : ContextDefinition C.Contract) :
    Rooted (create contexts definition).1 := by
  obtain ⟨rank, hranked, hlive⟩ := h
  have hlivesOn : ∀ b, (contexts.lookup b).isSome = true →
      ((create contexts definition).1.lookup b).isSome = true :=
    fun b hb => isSome_create definition hb
  -- the new context stands right under its parent, and nothing under it
  refine ⟨fun a => if contexts.lookup a = none then rank definition.parentContextId + 1
    else rank a, fun a b hlink => ?_, fun a b hlink => ?_⟩
  · dsimp only
    rcases parent_create hlink with hbefore | ⟨-, rfl, hnone, hsome⟩
    · have hsome := hlive a b hbefore
      rw [if_neg (Option.isSome_iff_ne_none.mp hsome), if_neg]
      · exact hranked a b hbefore
      · intro hnone
        unfold parent at hbefore
        rw [hnone] at hbefore
        cases hbefore
    · rw [if_neg (Option.isSome_iff_ne_none.mp hsome), if_pos hnone]
      exact Nat.lt_succ_self _
  · rcases parent_create hlink with hbefore | ⟨-, -, -, hsome⟩
    · exact hlivesOn b (hlive a b hbefore)
    · exact hlivesOn b hsome

theorem rooted_revoke {contexts' : ContextTable C} {removed : Finset ℕ} (h : Rooted contexts)
    (hrevokes : Revokes contexts contextId contexts' removed)
    (hlive : (contexts.lookup contextId).isSome = true) : Rooted contexts' := by
  obtain ⟨rank, hranked, hparents⟩ := h
  obtain ⟨revoked, hrevoked⟩ := Option.isSome_iff_exists.mp hlive
  have hkept : ∀ a state', contexts'.lookup a = some state' → a ∉ removed ∧
      ∃ state, contexts.lookup a = some state ∧ SameTerms state state' := by
    intro a state' hstate'
    have hnot : a ∉ removed := by
      intro hmem
      rw [hrevokes.gone a hmem] at hstate'
      cases hstate'
    refine ⟨hnot, ?_⟩
    rw [hrevokes.left revoked hrevoked a hnot] at hstate'
    split at hstate'
    · obtain ⟨state, hstate, rfl⟩ := Option.map_eq_some_iff.mp hstate'
      exact ⟨state, hstate, rfl, rfl, rfl⟩
    · exact ⟨state', hstate', sameTerms_refl state'⟩
  have hlinks : ∀ a b, parent contexts' a = some b → a ∉ removed ∧ parent contexts a = some b := by
    intro a b hlink
    obtain ⟨state', hstate', hparent⟩ := Option.bind_eq_some_iff.mp hlink
    obtain ⟨hnot, _, hstate, hterms⟩ := hkept a state' hstate'
    refine ⟨hnot, ?_⟩
    unfold parent
    rw [hstate]
    exact hterms.1.symm.trans hparent
  refine ⟨rank, fun a b hlink => hranked a b (hlinks a b hlink).2, fun a b hlink => ?_⟩
  obtain ⟨hnot, hbefore⟩ := hlinks a b hlink
  have hb : b ∉ removed := by
    intro hmem
    exact hnot ((hrevokes.subtree a).mpr (.child hbefore ((hrevokes.subtree b).mp hmem)))
  rw [hrevokes.left revoked hrevoked b hb]
  split
  · rw [isSome_map]
    exact hparents a b hbefore
  · exact hparents a b hbefore

/-- The tables that a session's contexts come to: they are created, charged for leases and given
back what they were charged, and revoked. -/
inductive Grown : ContextTable C → Prop
  | root {contexts : ContextTable C} {operationClasses : ℕ} {contract : C.Contract}
      (h : root operationClasses contract = some contexts) : Grown contexts
  | create {contexts : ContextTable C} (h : Grown contexts)
      (definition : ContextDefinition C.Contract) : Grown (create contexts definition).1
  | charge {contexts : ContextTable C} (h : Grown contexts) (contextId : ℕ)
      (charges : ContextState C → C.Charges) :
      Grown (contexts.adjust contextId fun state => { state with charges := charges state })
  | revoke {contexts contexts' : ContextTable C} {fuel contextId : ℕ} {removed : Finset ℕ}
      (h : Grown contexts) (hlive : (contexts.lookup contextId).isSome = true)
      (hrevoke : revoke contexts fuel contextId = some (contexts', removed)) : Grown contexts'

theorem parent_charge (contextId : ℕ) (charges : ContextState C → C.Charges) (a : ℕ) :
    parent (contexts.adjust contextId fun state => { state with charges := charges state }) a =
      parent contexts a := by
  unfold parent
  rw [lookup_adjust]
  split
  · cases contexts.lookup a <;> rfl
  · rfl

theorem Rooted.charge (h : Rooted contexts) (contextId : ℕ) (charges : ContextState C → C.Charges) :
    Rooted (contexts.adjust contextId fun state => { state with charges := charges state }) := by
  obtain ⟨rank, hranked, hlive⟩ := h
  refine ⟨rank, fun a b hlink => hranked a b ?_, fun a b hlink => ?_⟩
  · rwa [parent_charge] at hlink
  rw [parent_charge] at hlink
  rw [lookup_adjust]
  split
  · rw [isSome_map]
    exact hlive a b hlink
  · exact hlive a b hlink

theorem Grown.rooted (h : Grown contexts) : Rooted contexts := by
  induction h with
  | root h => exact rooted_root h
  | create _ definition ih => exact rooted_create ih definition
  | charge _ contextId charges ih => exact ih.charge contextId charges
  | revoke _ hlive hrevoke ih => exact rooted_revoke ih (revokes_of_revoke hrevoke) hlive

end ContextTable

end Vivido.Authority
