import Vivido.Authority.Account

/-!
What becomes of the account. A reservation is made with what it is for, and a
lease that is retired hands what it held to its release, so that the account
stays right as long as a lease is retired for the session that was charged, and
no context goes that leases were issued from.
-/

namespace Vivido.Authority

open Scene Service SortedMap Option

variable {C : ContextProtocol} {ι : Type} {K : Counting C ι} {s : Estate C} {handle : ℕ}
  {tenant : Tenant C}

namespace ContextTable

/-- A context is created with its reservation, or the reservation is all that is made, or nothing
is. -/
theorem create_cases (contexts : ContextTable C) (definition : ContextDefinition C.Contract) :
    (create contexts definition).1 = contexts ∨
      ∃ parent charges classes contract, contexts.lookup definition.contextId = none ∧
        contexts.lookup definition.parentContextId = some parent ∧
        C.reserveChild parent.operationClasses parent.contract parent.charges definition =
          some (charges, classes, contract) ∧
        (C.isContext definition.contextId classes contract = true → (create contexts definition).1 =
            (contexts.insert definition.parentContextId { parent with charges }).insert
              definition.contextId
              { parentContextId := some definition.parentContextId
                operationClasses := classes, contract, charges := C.noCharges }) := by
  unfold create
  split
  · exact Or.inl rfl
  rename_i hnone
  rw [not_isSome_iff_eq_none] at hnone
  split
  · exact Or.inl rfl
  rename_i parent hparent
  split
  · exact Or.inl rfl
  · rename_i charges classes contract hreserve
    refine Or.inr ⟨parent, charges, classes, contract, hnone, hparent, hreserve, ?_⟩
    intro hvalid
    dsimp only
    rw [if_pos hvalid]

/-- A reservation is followed by its context. -/
def Creatable (contexts : ContextTable C) (definition : ContextDefinition C.Contract) : Prop :=
  ∀ parent charges classes contract, contexts.lookup definition.contextId = none →
    contexts.lookup definition.parentContextId = some parent →
      C.reserveChild parent.operationClasses parent.contract parent.charges definition =
        some (charges, classes, contract) →
        C.isContext definition.contextId classes contract = true

end ContextTable

namespace Counting

/-! ### Contexts -/

variable {definition : ContextDefinition C.Contract}

theorem fair_create (h : K.Balanced s) (htenant : s.tenants.lookup handle = some tenant)
    (hrooted : tenant.contexts.Rooted) (hcreatable : tenant.contexts.Creatable definition) :
    K.Fair s handle (tenant.contexts.create definition).1 := by
  have hfair := h.fair handle tenant htenant
  rcases tenant.contexts.create_cases definition with heq | ⟨parent, charges, classes, contract,
    hnone, hparent, hreserve, hcreated⟩
  · rw [heq]
    exact hfair
  have hne : definition.parentContextId ≠ definition.contextId := by
    intro heq
    rw [heq, hnone] at hparent
    cases hparent
  rw [hcreated (hcreatable parent charges classes contract hnone hparent hreserve)]
  have hinserted : (tenant.contexts.insert definition.parentContextId
      { parent with charges }).lookup definition.contextId = none :=
    (lookup_insert_of_ne hne.symm).trans hnone
  intro contextId state hstate i
  rw [childCost_insert_new hinserted, childCost_insert_charges hparent]
  dsimp only
  rw [lookup_insert] at hstate
  split at hstate
  · -- the new context has granted nothing yet
    rename_i heq
    subst heq
    obtain rfl := Option.some.inj hstate
    rw [K.charged_none, childCost_absent hrooted hnone, if_neg (by simpa using hne), held_absent]
    · intro _ _ hlease hissuer hkey
      have hsome := (h.lease_mem htenant hlease hissuer).2.2
      rw [hkey, hnone] at hsome
      cases hsome
    · intro _ hmem hhandle hcontext
      have hsome := h.release_mem htenant hmem hhandle
      rw [hcontext, hnone] at hsome
      cases hsome
  · rw [lookup_insert] at hstate
    split at hstate
    · rename_i heq
      subst heq
      obtain rfl := Option.some.inj hstate
      have hbefore := hfair _ parent hparent i
      rw [K.charged_reserve hreserve, if_pos rfl, hbefore]
      omega
    · rename_i hother
      rw [if_neg fun heq => hother (Option.some.inj heq).symm, hfair contextId state hstate i,
        Nat.add_zero]

/-- What the contexts that are left have granted. -/
theorem childCost_revoke {contexts contexts' : ContextTable C} {contextId : ℕ} {removed : Finset ℕ}
    (hrevokes : contexts.Revokes contextId contexts' removed) {revoked : ContextState C}
    (hrevoked : contexts.lookup contextId = some revoked) {a : ℕ} (ha : a ∉ removed) (i : ι) :
    K.childCost contexts a i = K.childCost contexts' a i +
      if revoked.parentContextId = some a then K.cost revoked.contract i else 0 := by
  have hsum := sum_erase
    (fun entry => if entry.2.parentContextId = some a then K.cost entry.2.contract i else 0)
    hrevoked
  have hself : contextId ∈ removed := (hrevokes.subtree contextId).mpr .self
  -- the contexts left are those that the revoked one was, but for terms that do not count here
  have hterms : ∀ key, key ∉ removed →
      (contexts'.lookup key).map (fun state => (state.parentContextId, state.contract)) =
        (contexts.lookup key).map fun state => (state.parentContextId, state.contract) := by
    intro key hkey
    rw [hrevokes.left revoked hrevoked key hkey]
    split
    · rw [Option.map_map]
      rfl
    · rfl
  have hsame : K.childCost contexts' a i = K.childCost (contexts.erase contextId) a i := by
    refine Nat.le_antisymm (sum_le_of_lookup _ fun key state hstate => Or.inr ?_)
      (sum_le_of_lookup _ fun key state hstate => ?_)
    · have hkey : key ∉ removed := by
        intro hmem
        rw [hrevokes.gone key hmem] at hstate
        cases hstate
      have heq := hterms key hkey
      rw [hstate, map_some] at heq
      obtain ⟨old, hold, hsame⟩ := Option.map_eq_some_iff.mp heq.symm
      obtain ⟨hparent, hcontract⟩ := Prod.mk.inj hsame
      refine ⟨old, ?_, ?_⟩
      · rw [lookup_erase, if_neg fun heq : key = contextId => hkey (heq ▸ hself)]
        exact hold
      · dsimp only
        rw [hparent, hcontract]
    · obtain ⟨hne, hold⟩ := lookup_erase_some hstate
      by_cases hparent : state.parentContextId = some a
      · right
        have hkey : key ∉ removed := by
          intro hmem
          cases (hrevokes.subtree key).mp hmem with
          | self => exact hne rfl
          | child hlink hbelow =>
            unfold ContextTable.parent at hlink
            rw [hold, bind_some, hparent] at hlink
            obtain rfl := Option.some.inj hlink
            exact ha ((hrevokes.subtree a).mpr hbelow)
        have heq := hterms key hkey
        rw [hold, map_some] at heq
        obtain ⟨state', hstate', hsame⟩ := Option.map_eq_some_iff.mp heq
        obtain ⟨hparent', hcontract⟩ := Prod.mk.inj hsame
        refine ⟨state', hstate', ?_⟩
        dsimp only
        rw [hparent', hcontract]
      · exact Or.inl (if_neg hparent)
  rw [hsame, Nat.add_comm]
  exact hsum.symm

section

variable (h : K.Balanced s) (htenant : s.tenants.lookup handle = some tenant)
include h htenant

theorem fair_revoke {contexts : ContextTable C} {contextId : ℕ} {removed : Finset ℕ}
    (hrevokes : tenant.contexts.Revokes contextId contexts removed)
    (hlive : (tenant.contexts.lookup contextId).isSome = true) : K.Fair s handle contexts := by
  obtain ⟨revoked, hrevoked⟩ := Option.isSome_iff_exists.mp hlive
  have hfair := h.fair handle tenant htenant
  intro a state' hstate' i
  have ha : a ∉ removed := by
    intro hmem
    rw [hrevokes.gone a hmem] at hstate'
    cases hstate'
  rw [hrevokes.left revoked hrevoked a ha] at hstate'
  have hgranted : ∀ i, K.childCost tenant.contexts a i = K.childCost contexts a i +
      if revoked.parentContextId = some a then K.cost revoked.contract i else 0 :=
    childCost_revoke hrevokes hrevoked ha
  split at hstate'
  · rename_i hparent
    obtain ⟨state, hstate, rfl⟩ := Option.map_eq_some_iff.mp hstate'
    have hcharged : ∀ i, K.charged state.charges i = K.childCost contexts a i +
        K.cost revoked.contract i + K.held s handle a i := by
      intro i
      rw [hfair a state hstate i, hgranted i, if_pos hparent]
    change K.charged (C.releaseChild state.contract state.charges revoked.contract) i = _
    rw [K.charged_release fun i => by rw [hcharged i]; omega, hcharged i]
    omega
  · rename_i hparent
    rw [hfair a state' hstate' i, hgranted i, if_neg hparent, Nat.add_zero]

/-- The tables of one session change, and keep the contexts that leases were issued from. -/
theorem Balanced.setContexts {contexts : ContextTable C} (hfair : K.Fair s handle contexts)
    (hleases : ∀ key lease, s.leases.lookup key = some lease → lease.issuer = handle →
      (contexts.lookup key.contextId).isSome = true)
    (hreleasing : ∀ release ∈ s.releasing, release.handle = handle →
      (contexts.lookup release.contextId).isSome = true) :
    K.Balanced (s.setTenant handle { tenant with contexts }) := by
  refine Balanced.insert h rfl hfair (fun _ _ _ _ => rfl) (fun key lease hlease => ?_)
    fun release hmem => ?_
  · split
    · rename_i hissuer
      obtain ⟨hlive, hidentity, -⟩ := h.lease_mem htenant hlease hissuer
      exact ⟨hlive, hidentity, hleases key lease hlease hissuer⟩
    · exact ⟨lease, hlease, rfl⟩
  · split
    · rename_i hhandle
      exact hreleasing release hmem hhandle
    · exact hmem

theorem Balanced.createContext (hrooted : tenant.contexts.Rooted)
    (hcreatable : tenant.contexts.Creatable definition) : K.Balanced (s.setTenant handle
      { tenant with contexts := (tenant.contexts.create definition).1 }) := by
  refine h.setContexts htenant (fair_create h htenant hrooted hcreatable)
    (fun key lease hlease hissuer => ?_) fun release hmem hhandle => ?_
  · exact ContextTable.isSome_create definition (h.lease_mem htenant hlease hissuer).2.2
  · exact ContextTable.isSome_create definition (h.release_mem htenant hmem hhandle)

end

/-- No lease was issued from a context that goes, nor is one to be released there. -/
def Unleased (s : Estate C) (handle : ℕ) (tenant : Tenant C) (contextId : ℕ) : Prop :=
  (∀ key lease, s.leases.lookup key = some lease → lease.issuer = handle →
      ¬ Below tenant.contexts.parent contextId key.contextId) ∧
    ∀ release ∈ s.releasing, release.handle = handle →
      ¬ Below tenant.contexts.parent contextId release.contextId

theorem Balanced.revokeContext (h : K.Balanced s) (htenant : s.tenants.lookup handle = some tenant)
    {contextId : ℕ} (hunleased : contextId ≠ rootContextId →
      (tenant.contexts.lookup contextId).isSome = true → Unleased s handle tenant contextId) :
    K.Balanced (s.revokeContext handle tenant contextId).1 := by
  unfold Estate.revokeContext
  split
  · exact h
  rename_i hroot
  split
  · exact h
  rename_i hsome
  have hlive : (tenant.contexts.lookup contextId).isSome = true := by
    rw [isNone_iff_eq_none] at hsome
    exact Option.isSome_iff_ne_none.mpr hsome
  obtain ⟨hleases, hreleasing⟩ := hunleased hroot hlive
  split
  · exact h
  rename_i contexts removed hrevoke
  have hrevokes := ContextTable.revokes_of_revoke hrevoke
  obtain ⟨revoked, hrevoked⟩ := Option.isSome_iff_exists.mp hlive
  have hkept : ∀ a, ¬ Below tenant.contexts.parent contextId a →
      (tenant.contexts.lookup a).isSome = true → (contexts.lookup a).isSome = true := by
    intro a ha hsome
    rw [hrevokes.left revoked hrevoked a fun hmem => ha ((hrevokes.subtree a).mp hmem)]
    split
    · rwa [isSome_map]
    · exact hsome
  refine h.setContexts htenant (fair_revoke h htenant hrevokes hlive)
    (fun key lease hlease hissuer => ?_) fun release hmem hhandle => ?_
  · exact hkept _ (hleases key lease hlease hissuer) (h.lease_mem htenant hlease hissuer).2.2
  · exact hkept _ (hreleasing release hmem hhandle) (h.release_mem htenant hmem hhandle)

/-! ### Leases -/

theorem Balanced.retire (h : K.Balanced s) {releaser : ℕ} {key : LeaseKey}
    (hissuer : ∀ lease, s.leases.lookup key = some lease → lease.issuer = releaser) :
    K.Balanced (s.retire releaser key) := by
  cases hlease : s.leases.lookup key with
  | none =>
    unfold Estate.retire
    rw [hlease]
    exact h
  | some lease =>
    have hreleaser := hissuer lease hlease
    have hretire : (s.retire releaser key).tenants = s.tenants ∧
        (s.retire releaser key).leases = s.leases.erase key ∧
        (s.retire releaser key).releasing =
          s.releasing ++ [⟨releaser, key.contextId, lease.contract⟩] := by
      unfold Estate.retire
      rw [hlease]
      dsimp only
      split
      · exact ⟨rfl, rfl, rfl⟩
      · exact ⟨rfl, rfl, rfl⟩
    obtain ⟨htenants, hleases, hreleasing⟩ := hretire
    have hheld : ∀ handle contextId i,
        K.held (s.retire releaser key) handle contextId i = K.held s handle contextId i := by
      intro handle contextId i
      have hsum := sum_erase (fun entry =>
        if entry.2.issuer = handle ∧ entry.1.contextId = contextId then
          K.cost entry.2.contract i
        else 0) hlease
      unfold held
      rw [hleases, hreleasing, releaseCost_append]
      dsimp only at hsum ⊢
      rw [hreleaser] at hsum
      unfold leaseCost
      omega
    refine ⟨fun handle tenant htenant => ?_, fun other found hfound => ?_, fun release hmem => ?_⟩
    · rw [htenants] at htenant
      intro contextId state hstate i
      rw [hheld]
      exact h.fair handle tenant htenant contextId state hstate i
    · rw [hleases] at hfound
      rw [htenants]
      exact h.leases other found (lookup_erase_some hfound).2
    · rw [hreleasing] at hmem
      rw [htenants]
      rcases List.mem_append.mp hmem with hmem | hmem
      · exact h.releasing release hmem
      · rw [List.mem_singleton] at hmem
        subst hmem
        obtain ⟨tenant, htenant, -, -, hsome⟩ := h.leases key lease hlease
        rw [hreleaser] at htenant
        exact ⟨tenant, htenant, hsome⟩

theorem Balanced.release (h : K.Balanced s) (index : ℕ) : K.Balanced (s.release index) := by
  unfold Estate.release
  split
  · exact h
  rename_i release hrelease
  have hmem := List.mem_of_getElem? hrelease
  obtain ⟨tenant, htenant, hsome⟩ := h.releasing release hmem
  obtain ⟨state, hstate⟩ := Option.isSome_iff_exists.mp hsome
  have hfair := h.fair release.handle tenant htenant
  set contexts : ContextTable C :=
    tenant.contexts.adjust release.contextId (·.releaseChild release.contract) with hcontexts
  have hlookup : ∀ a, contexts.lookup a = if a = release.contextId then
      (tenant.contexts.lookup a).map (·.releaseChild release.contract)
      else tenant.contexts.lookup a := fun a => lookup_adjust _
  have hgranted : ∀ a i, K.childCost contexts a i = K.childCost tenant.contexts a i := by
    intro a i
    refine childCost_of_terms (fun key => ?_) a i
    rw [hlookup]
    split
    · rw [Option.map_map]
      rfl
    · rfl
  have hsum : ∀ handle a i, (if release.handle = handle ∧ release.contextId = a then
      K.cost release.contract i else 0) +
        K.releaseCost (s.releasing.eraseIdx index) handle a i =
          K.releaseCost s.releasing handle a i := releaseCost_eraseIdx hrelease
  have htenants : s.tenants.adjust release.handle (fun tenant => { tenant with
      contexts := tenant.contexts.adjust release.contextId (·.releaseChild release.contract) }) =
        s.tenants.insert release.handle { tenant with contexts } :=
    adjust_of_lookup _ htenant
  refine h.insert htenants (fun a state' hstate' i => ?_) (fun other hother a i => ?_)
    (fun key lease hlease => ?_) fun other hother => ?_
  · dsimp only at hstate'
    rw [hlookup] at hstate'
    unfold held
    dsimp only
    rw [hgranted]
    split at hstate'
    · rename_i heq
      subst heq
      rw [hstate] at hstate'
      obtain rfl := Option.some.inj hstate'
      have hcharged : ∀ i, K.charged state.charges i = K.childCost tenant.contexts
          release.contextId i + K.leaseCost s.leases release.handle release.contextId i +
            (K.cost release.contract i + K.releaseCost (s.releasing.eraseIdx index)
              release.handle release.contextId i) := by
        intro i
        have hsum := hsum release.handle release.contextId i
        rw [if_pos ⟨rfl, rfl⟩] at hsum
        rw [hfair _ state hstate i, hsum]
        unfold held
        omega
      change K.charged (C.releaseChild state.contract state.charges release.contract) i = _
      rw [K.charged_release fun i => by rw [hcharged i]; omega, hcharged i]
      omega
    · rename_i hne
      have hsum := hsum release.handle a i
      rw [if_neg fun heq => hne heq.2.symm, Nat.zero_add] at hsum
      rw [hsum]
      exact hfair a state' hstate' i
  · have hsum := hsum other a i
    rw [if_neg fun heq => hother heq.1.symm, Nat.zero_add] at hsum
    unfold held
    dsimp only
    rw [hsum]
  · split
    · rename_i hissuer
      obtain ⟨hlive, hidentity, hcontext⟩ := h.lease_mem htenant hlease hissuer
      refine ⟨hlive, hidentity, ?_⟩
      dsimp only
      rw [hlookup]
      split
      · rwa [isSome_map]
      · exact hcontext
    · exact ⟨lease, hlease, rfl⟩
  · have hother := List.mem_of_mem_eraseIdx hother
    split
    · rename_i hhandle
      have hcontext := h.release_mem htenant hother hhandle
      dsimp only
      rw [hlookup]
      split
      · rwa [isSome_map]
      · exact hcontext
    · exact hother

theorem createLease_cases (s : Estate C) (handle : ℕ) (tenant : Tenant C) (objectId : ℕ)
    (definition : LeaseDefinition C.Contract) :
    (s.createLease handle tenant objectId definition).1 = s ∨ ∃ parent charges classes contract,
        s.leases.lookup ⟨tenant.identity, definition.contextId, definition.leaseId⟩ = none ∧
        tenant.contexts.lookup definition.contextId = some parent ∧
        C.reserveChild parent.operationClasses parent.contract parent.charges
            { contextId := definition.leaseId, parentContextId := definition.contextId
              operationClasses := parent.operationClasses
              requestedContract := definition.requestedContract } =
          some (charges, classes, contract) ∧ (s.createLease handle tenant objectId definition).1 =
          { s.setTenant handle { tenant with
              contexts := tenant.contexts.insert definition.contextId { parent with charges } } with
            leases := s.leases.insert ⟨tenant.identity, definition.contextId, definition.leaseId⟩
              { contract, issuer := handle } } := by
  unfold Estate.createLease
  split
  · exact Or.inl rfl
  split
  · exact Or.inl rfl
  split
  · exact Or.inl rfl
  dsimp only
  split
  · exact Or.inl rfl
  rename_i hnone
  rw [not_isSome_iff_eq_none] at hnone
  split
  · exact Or.inl rfl
  split
  · exact Or.inl rfl
  · rename_i parent hparent
    split
    · exact Or.inl rfl
    · rename_i charges classes contract hreserve
      exact Or.inr ⟨parent, charges, classes, contract, hnone, hparent, hreserve, rfl⟩

theorem Balanced.createLease (h : K.Balanced s) (htenant : s.tenants.lookup handle = some tenant)
    (hlive : tenant.isLive = true) (objectId : ℕ) (definition : LeaseDefinition C.Contract) :
    K.Balanced (s.createLease handle tenant objectId definition).1 := by
  rcases createLease_cases s handle tenant objectId definition with heq |
    ⟨parent, charges, _, contract, hnone, hparent, hreserve, heq⟩
  · rw [heq]
    exact h
  rw [heq]
  set key : LeaseKey := ⟨tenant.identity, definition.contextId, definition.leaseId⟩ with hkey
  set lease : IssuedLease C := { contract, issuer := handle } with hlease
  have hfair := h.fair handle tenant htenant
  have hsum : ∀ other contextId i, K.leaseCost (s.leases.insert key lease) other contextId i =
      K.leaseCost s.leases other contextId i +
        if handle = other ∧ definition.contextId = contextId then K.cost contract i else 0 :=
    fun _ _ _ => sum_insert_new _ hnone lease
  have hkept : ∀ a, (tenant.contexts.lookup a).isSome = true →
      ((tenant.contexts.insert definition.contextId { parent with charges }).lookup a).isSome =
        true := by
    intro a ha
    rw [lookup_insert]
    split
    · rfl
    · exact ha
  refine h.insert rfl (fun contextId state hstate i => ?_)
    (fun other hother contextId i => ?_) (fun other found hfound => ?_) fun release hmem => ?_
  · unfold held
    dsimp only
    rw [childCost_insert_charges hparent, hsum]
    dsimp only at hstate
    rw [lookup_insert] at hstate
    split at hstate
    · rename_i hcontext
      subst hcontext
      obtain rfl := Option.some.inj hstate
      have hbefore := hfair _ parent hparent i
      unfold held at hbefore
      rw [K.charged_reserve hreserve, if_pos ⟨rfl, rfl⟩, hbefore]
      change _ = _ + (_ + K.releaseCost s.releasing _ _ i)
      omega
    · rename_i hcontext
      rw [if_neg fun heq => hcontext heq.2.symm, Nat.add_zero]
      exact hfair contextId state hstate i
  · unfold held
    dsimp only
    rw [hsum, if_neg fun heq => hother heq.1.symm, Nat.add_zero]
    rfl
  · dsimp only at hfound
    rw [lookup_insert] at hfound
    split at hfound
    · rename_i heq
      subst heq
      obtain rfl := Option.some.inj hfound
      rw [if_pos rfl]
      refine ⟨hlive, rfl, ?_⟩
      dsimp only
      rw [lookup_insert_self]
      rfl
    · split
      · rename_i hissuer
        obtain ⟨hlive, hidentity, hsome⟩ := h.lease_mem htenant hfound hissuer
        exact ⟨hlive, hidentity, hkept _ hsome⟩
      · exact ⟨found, hfound, rfl⟩
  · split
    · rename_i hhandle
      exact hkept _ (h.release_mem htenant hmem hhandle)
    · exact hmem

/-! ### Sessions -/

/-- A change that is none of the account. -/
theorem Balanced.of_terms {tenant' : Tenant C} {s' : Estate C} (h : K.Balanced s)
    (htenant : s.tenants.lookup handle = some tenant)
    (htenants : s'.tenants = s.tenants.insert handle tenant')
    (hcontexts : tenant'.contexts = tenant.contexts)
    (hidentity : tenant'.identity = tenant.identity)
    (hleases : ∀ key, (s'.leases.lookup key).map (fun lease => (lease.issuer, lease.contract)) =
      (s.leases.lookup key).map fun lease => (lease.issuer, lease.contract))
    (hreleasing : s'.releasing = s.releasing) (hlive : tenant'.isLive = true ∨
      ∀ key lease, s.leases.lookup key = some lease → lease.issuer ≠ handle) : K.Balanced s' := by
  have hheld := held_of_terms (K := K) hleases hreleasing
  refine h.insert htenants (fun contextId state hstate i => ?_)
    (fun other _ contextId i => hheld other contextId i) (fun key lease hlease => ?_)
    fun release hmem => ?_
  · rw [hheld, hcontexts]
    rw [hcontexts] at hstate
    exact h.fair handle tenant htenant contextId state hstate i
  · have heq := hleases key
    rw [hlease, map_some] at heq
    obtain ⟨old, hold, hterms⟩ := Option.map_eq_some_iff.mp heq.symm
    obtain ⟨hissuer, -⟩ := Prod.mk.inj hterms
    split
    · rename_i heq
      rw [heq] at hissuer
      obtain ⟨-, hkey, _⟩ := h.lease_mem htenant hold hissuer
      refine ⟨hlive.resolve_right fun hnone => hnone key old hold hissuer, hidentity.trans hkey, ?_⟩
      rwa [hcontexts]
    · exact ⟨old, hold, hissuer⟩
  · rw [hreleasing] at hmem
    split
    · rename_i hhandle
      rw [hcontexts]
      exact h.release_mem htenant hmem hhandle
    · exact hmem

theorem terms_adjust {leases : SortedMap LeaseKey (IssuedLease C)} {adjusted key : LeaseKey}
    {work : IssuedLease C → IssuedLease C}
    (hwork : ∀ lease, (work lease).issuer = lease.issuer ∧ (work lease).contract = lease.contract) :
    ((leases.adjust adjusted work).lookup key).map (fun lease => (lease.issuer, lease.contract)) =
      (leases.lookup key).map fun lease => (lease.issuer, lease.contract) := by
  rw [lookup_adjust]
  split
  · rw [Option.map_map]
    refine congrArg (Option.map · _) (funext fun lease => ?_)
    rw [Function.comp_apply, (hwork lease).1, (hwork lease).2]
  · rfl

theorem admitFirst_spec (s : Estate C) (handle : ℕ) (tenant : Tenant C)
    (htenant : s.tenants.lookup handle = some tenant) : (s.admitFirst handle tenant).tenants =
        s.tenants.insert handle { tenant with admitted := true } ∧
      (∀ key, ((s.admitFirst handle tenant).leases.lookup key).map
          (fun lease => (lease.issuer, lease.contract)) =
        (s.leases.lookup key).map fun lease => (lease.issuer, lease.contract)) ∧
      (s.admitFirst handle tenant).releasing = s.releasing := by
  unfold Estate.admitFirst
  split
  · rename_i hadmitted
    have hsame : { tenant with admitted := true } = tenant := by
      rw [← hadmitted]
    rw [hsame]
    exact ⟨(insert_eq_self.mpr htenant).symm, fun _ => rfl, rfl⟩
  · dsimp only
    split
    · exact ⟨rfl, fun _ => rfl, rfl⟩
    · exact ⟨rfl, fun _ => terms_adjust fun _ => ⟨rfl, rfl⟩, rfl⟩

theorem Balanced.admitFirst (h : K.Balanced s) (htenant : s.tenants.lookup handle = some tenant)
    (hlive : tenant.isLive = true) : K.Balanced (s.admitFirst handle tenant) := by
  obtain ⟨htenants, hleases, hreleasing⟩ := admitFirst_spec s handle tenant htenant
  exact h.of_terms htenant htenants rfl rfl hleases hreleasing (Or.inl hlive)

end Counting

end Vivido.Authority
