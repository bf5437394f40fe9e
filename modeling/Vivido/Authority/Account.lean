import Vivido.Authority.Estate

/-!
The account of what contexts are charged. It is right where each context is
charged just what the contexts under it and the leases issued from it were
granted, and each of these has its context: then a reservation lasts as long as
that which it was made for, and no longer. The library is taken to count exactly.
-/

namespace Vivido.Authority

open Scene Service SortedMap List

variable {C : ContextProtocol} {ι : Type}

/-- The library adds and subtracts, resource by resource. -/
structure Counting (C : ContextProtocol) (ι : Type) where
  cost : C.Contract → ι → ℕ
  charged : C.Charges → ι → ℕ
  charged_none : ∀ i, charged C.noCharges i = 0
  charged_reserve : ∀ {classes contract charges definition charges' classes' contract'},
    C.reserveChild classes contract charges definition = some (charges', classes', contract') →
      ∀ i, charged charges' i = charged charges i + cost contract' i
  charged_release : ∀ {contract charges contract'}, (∀ i, cost contract' i ≤ charged charges i) →
    ∀ i, charged (C.releaseChild contract charges contract') i =
      charged charges i - cost contract' i

def Counting.plain : Counting .plain Resource where
  cost := id
  charged := id
  charged_none _ := rfl
  charged_reserve {classes contract charges definition charges' classes' contract'} h := by
    dsimp only [ContextProtocol.plain] at h
    split at h
    · cases h
      exact fun _ => rfl
    · cases h
  charged_release _ _ := rfl

namespace Counting

variable (K : Counting C ι)

/-- What a context grants to those under it. -/
def childCost (contexts : ContextTable C) (contextId : ℕ) (i : ι) : ℕ :=
  (contexts.entries.map fun entry =>
    if entry.2.parentContextId = some contextId then K.cost entry.2.contract i else 0).sum

/-- What it grants to leases. -/
def leaseCost (leases : SortedMap LeaseKey (IssuedLease C)) (handle contextId : ℕ) (i : ι) : ℕ :=
  (leases.entries.map fun entry =>
    if entry.2.issuer = handle ∧ entry.1.contextId = contextId then
      K.cost entry.2.contract i
    else 0).sum

/-- What leases held that are gone, and that is not released yet. -/
def releaseCost (releasing : List (Release C)) (handle contextId : ℕ) (i : ι) : ℕ :=
  (releasing.map fun release =>
    if release.handle = handle ∧ release.contextId = contextId then
      K.cost release.contract i
    else 0).sum

def held (s : Estate C) (handle contextId : ℕ) (i : ι) : ℕ :=
  K.leaseCost s.leases handle contextId i + K.releaseCost s.releasing handle contextId i

/-- A table's contexts are charged what they granted. -/
def Fair (s : Estate C) (handle : ℕ) (contexts : ContextTable C) : Prop :=
  ∀ contextId state, contexts.lookup contextId = some state →
    ∀ i, K.charged state.charges i = K.childCost contexts contextId i + K.held s handle contextId i

/-- Each lease has its context, and the context's session is live. -/
structure Balanced (s : Estate C) : Prop where
  fair : ∀ handle tenant, s.tenants.lookup handle = some tenant → K.Fair s handle tenant.contexts
  leases : ∀ key lease, s.leases.lookup key = some lease →
    ∃ tenant, s.tenants.lookup lease.issuer = some tenant ∧ tenant.isLive = true ∧
      tenant.identity = key.issuer ∧ (tenant.contexts.lookup key.contextId).isSome = true
  releasing : ∀ release ∈ s.releasing, ∃ tenant,
    s.tenants.lookup release.handle = some tenant ∧
      (tenant.contexts.lookup release.contextId).isSome = true

variable {K} {s s' : Estate C} {contexts contexts' : ContextTable C} {handle contextId : ℕ}
  {tenant : Tenant C}

/-! ### Sums -/

theorem childCost_of_terms (h : ∀ key,
    (contexts'.lookup key).map (fun state => (state.parentContextId, state.contract)) =
      (contexts.lookup key).map fun state => (state.parentContextId, state.contract))
    (contextId : ℕ) (i : ι) :
    K.childCost contexts' contextId i = K.childCost contexts contextId i := by
  refine sum_eq_of_lookup _ _ h fun key state state' heq => ?_
  obtain ⟨hparent, hcontract⟩ := Prod.mk.inj heq
  dsimp only
  rw [hparent, hcontract]

theorem childCost_insert_charges {state : ContextState C}
    (h : contexts.lookup contextId = some state) (charges : C.Charges) (other : ℕ) (i : ι) :
    K.childCost (contexts.insert contextId { state with charges }) other i =
      K.childCost contexts other i := by
  refine childCost_of_terms (fun key => ?_) other i
  rw [lookup_insert]
  split
  · rename_i heq
    rw [heq, h]
    rfl
  · rfl

theorem childCost_insert_new {state : ContextState C} (h : contexts.lookup contextId = none)
    (other : ℕ) (i : ι) : K.childCost (contexts.insert contextId state) other i =
      K.childCost contexts other i +
        if state.parentContextId = some other then K.cost state.contract i else 0 :=
  sum_insert_new _ h state

theorem childCost_absent (h : contexts.Rooted) (hnone : contexts.lookup contextId = none) (i : ι) :
    K.childCost contexts contextId i = 0 := by
  obtain ⟨_, -, hparents⟩ := h
  refine List.sum_eq_zero_iff_forall_eq_nat.mpr fun n hn => ?_
  obtain ⟨⟨key, _⟩, hmem, rfl⟩ := List.mem_map.mp hn
  refine if_neg fun hparent => ?_
  have hlink : ContextTable.parent contexts key = some contextId := by
    unfold ContextTable.parent
    rw [mem_entries.mp hmem]
    exact hparent
  have hsome := hparents key contextId hlink
  rw [hnone] at hsome
  cases hsome

theorem leaseCost_of_terms {leases leases' : SortedMap LeaseKey (IssuedLease C)}
    (h : ∀ key, (leases'.lookup key).map (fun lease => (lease.issuer, lease.contract)) =
      (leases.lookup key).map fun lease => (lease.issuer, lease.contract))
    (handle contextId : ℕ) (i : ι) :
    K.leaseCost leases' handle contextId i = K.leaseCost leases handle contextId i := by
  refine sum_eq_of_lookup _ _ h fun key lease lease' heq => ?_
  obtain ⟨hissuer, hcontract⟩ := Prod.mk.inj heq
  dsimp only
  rw [hissuer, hcontract]

/-- Nothing is held where there is neither a lease nor one that is gone. -/
theorem held_absent
    (hleases : ∀ key lease, s.leases.lookup key = some lease → lease.issuer = handle →
      key.contextId ≠ contextId)
    (hreleasing : ∀ release ∈ s.releasing, release.handle = handle → release.contextId ≠ contextId)
    (i : ι) : K.held s handle contextId i = 0 := by
  have hzero : K.leaseCost s.leases handle contextId i = 0 := by
    refine List.sum_eq_zero_iff_forall_eq_nat.mpr fun n hn => ?_
    obtain ⟨⟨key, lease⟩, hmem, rfl⟩ := List.mem_map.mp hn
    exact if_neg fun h => hleases key lease (mem_entries.mp hmem) h.1 h.2
  have hzero' : K.releaseCost s.releasing handle contextId i = 0 := by
    refine List.sum_eq_zero_iff_forall_eq_nat.mpr fun n hn => ?_
    obtain ⟨release, hmem, rfl⟩ := List.mem_map.mp hn
    exact if_neg fun h => hreleasing release hmem h.1 h.2
  unfold held
  rw [hzero, hzero']

theorem held_of_terms (h : ∀ key,
    (s'.leases.lookup key).map (fun lease => (lease.issuer, lease.contract)) =
      (s.leases.lookup key).map fun lease => (lease.issuer, lease.contract))
    (hreleasing : s'.releasing = s.releasing) (handle contextId : ℕ) (i : ι) :
    K.held s' handle contextId i = K.held s handle contextId i := by
  unfold held
  rw [leaseCost_of_terms h, hreleasing]

theorem releaseCost_append (releasing : List (Release C)) (release : Release C)
    (handle contextId : ℕ) (i : ι) : K.releaseCost (releasing ++ [release]) handle contextId i =
      K.releaseCost releasing handle contextId i +
        if release.handle = handle ∧ release.contextId = contextId then K.cost release.contract i
        else 0 := by
  unfold releaseCost
  rw [map_append, sum_append, map_singleton, sum_singleton]

theorem releaseCost_eraseIdx {releasing : List (Release C)} {index : ℕ} {release : Release C}
    (h : releasing[index]? = some release) (handle contextId : ℕ) (i : ι) :
    (if release.handle = handle ∧ release.contextId = contextId then K.cost release.contract i
      else 0) + K.releaseCost (releasing.eraseIdx index) handle contextId i =
      K.releaseCost releasing handle contextId i := by
  obtain ⟨hindex, rfl⟩ := List.getElem?_eq_some_iff.mp h
  have hperm := getElem_cons_eraseIdx_perm hindex
  have hsum := (hperm.map fun release =>
    if release.handle = handle ∧ release.contextId = contextId then K.cost release.contract i
    else 0).sum_nat
  rw [map_cons, sum_cons] at hsum
  exact hsum

/-- Where the tables are as before but for one of them. -/
theorem Balanced.insert (h : K.Balanced s) (htenants : s'.tenants = s.tenants.insert handle tenant)
    (hfair : K.Fair s' handle tenant.contexts) (hothers : ∀ other ≠ handle, ∀ contextId i,
      K.held s' other contextId i = K.held s other contextId i)
    (hleases : ∀ key lease, s'.leases.lookup key = some lease →
      if lease.issuer = handle then tenant.isLive = true ∧ tenant.identity = key.issuer ∧
          (tenant.contexts.lookup key.contextId).isSome = true
      else ∃ old, s.leases.lookup key = some old ∧ old.issuer = lease.issuer)
    (hreleasing : ∀ release ∈ s'.releasing,
      if release.handle = handle then (tenant.contexts.lookup release.contextId).isSome = true
      else release ∈ s.releasing) : K.Balanced s' where
  fair other found hfound := by
    rw [htenants, lookup_insert] at hfound
    split at hfound
    · rename_i heq
      obtain rfl := Option.some.inj hfound
      rw [heq]
      exact hfair
    · rename_i hne
      intro contextId state hstate i
      rw [hothers other hne]
      exact h.fair other found hfound contextId state hstate i
  leases key lease hlease := by
    have hcase := hleases key lease hlease
    rw [htenants]
    split at hcase
    · rename_i heq
      exact ⟨tenant, by rw [heq, lookup_insert_self], hcase⟩
    · rename_i hne
      obtain ⟨old, hold, hissuer⟩ := hcase
      obtain ⟨found, hfound, hrest⟩ := h.leases key old hold
      rw [hissuer] at hfound
      exact ⟨found, (lookup_insert_of_ne hne).trans hfound, hrest⟩
  releasing release hmem := by
    have hcase := hreleasing release hmem
    rw [htenants]
    split at hcase
    · rename_i heq
      exact ⟨tenant, by rw [heq, lookup_insert_self], hcase⟩
    · rename_i hne
      obtain ⟨found, hfound, hrest⟩ := h.releasing release hcase
      exact ⟨found, (lookup_insert_of_ne hne).trans hfound, hrest⟩

/-- A lease of a session has its context there. -/
theorem Balanced.lease_mem (h : K.Balanced s) (htenant : s.tenants.lookup handle = some tenant)
    {key : LeaseKey} {lease : IssuedLease C} (hlease : s.leases.lookup key = some lease)
    (hissuer : lease.issuer = handle) : tenant.isLive = true ∧ tenant.identity = key.issuer ∧
      (tenant.contexts.lookup key.contextId).isSome = true := by
  obtain ⟨_, hfound, hrest⟩ := h.leases key lease hlease
  rw [hissuer, htenant] at hfound
  obtain rfl := Option.some.inj hfound
  exact hrest

theorem Balanced.release_mem (h : K.Balanced s) (htenant : s.tenants.lookup handle = some tenant)
    {release : Release C} (hmem : release ∈ s.releasing) (hhandle : release.handle = handle) :
    (tenant.contexts.lookup release.contextId).isSome = true := by
  obtain ⟨_, hfound, hrest⟩ := h.releasing release hmem
  rw [hhandle, htenant] at hfound
  obtain rfl := Option.some.inj hfound
  exact hrest

end Counting

end Vivido.Authority
