import Vivido.Authority.Reserving
import Vivido.Support.Since

/-!
Runs of the sessions and what they delegate. The contexts of each session are a
forest in every run, and the loops of a revocation end and find what came under
the context. What the contexts are charged is what lives under them as long as
no context is revoked that leases were issued from, no capacity is released to
another session than was charged, and each reservation is followed by its context.
-/

namespace Vivido.Authority

open Scene Service SortedMap List Option

variable {C : ContextProtocol} {ι : Type} {K : Counting C ι} {s : Estate C} {handle : ℕ}
  {tenant : Tenant C}

namespace Estate

/-! ### The ends of sessions -/

variable (s : Estate C)

theorem retire_spec (releaser : ℕ) (key : LeaseKey) : (s.retire releaser key).tenants = s.tenants ∧
      (s.retire releaser key).leases = s.leases.erase key := by
  unfold retire
  split
  · rename_i hnone
    exact ⟨rfl, (erase_of_lookup hnone).symm⟩
  · dsimp only
    split
    · exact ⟨rfl, rfl⟩
    · exact ⟨rfl, rfl⟩

theorem foldl_retire_spec (releaser : ℕ) (keys : List LeaseKey) :
    (keys.foldl (fun s key => s.retire releaser key) s).tenants = s.tenants ∧
      ∀ key, (keys.foldl (fun s key => s.retire releaser key) s).leases.lookup key =
        if key ∈ keys then none else s.leases.lookup key := by
  induction keys generalizing s with
  | nil => exact ⟨rfl, fun key => (if_neg not_mem_nil).symm⟩
  | cons first _ ih =>
    obtain ⟨htenants, hleases⟩ := s.retire_spec releaser first
    obtain ⟨htenants', hleases'⟩ := ih (s.retire releaser first)
    refine ⟨htenants'.trans htenants, fun key => ?_⟩
    rw [foldl_cons, hleases', hleases, lookup_erase]
    by_cases hfirst : key = first
    · rw [if_pos (List.mem_cons.mpr (Or.inl hfirst)), if_pos hfirst, ite_self]
    · rw [if_neg hfirst]
      simp only [mem_cons, hfirst, false_or]

theorem retireIssued_spec (handle : ℕ) (identity : SessionIdentity) :
    (s.retireIssued handle identity).tenants = s.tenants ∧
      ∀ key lease, (s.retireIssued handle identity).leases.lookup key = some lease →
        key.issuer ≠ identity ∧ s.leases.lookup key = some lease := by
  obtain ⟨htenants, hleases⟩ := s.foldl_retire_spec handle (s.issuedBy identity)
  refine ⟨htenants, fun key lease hlease => ?_⟩
  unfold retireIssued at hlease
  rw [hleases] at hlease
  split at hlease
  · cases hlease
  · rename_i hnot
    refine ⟨fun hissuer => hnot (List.mem_filter.mpr ⟨?_, decide_eq_true hissuer⟩), hlease⟩
    exact List.mem_map.mpr ⟨(key, lease), mem_entries.mpr hlease, rfl⟩

theorem giveBack_cases (tenant : Tenant C) (ending : Ending) :
    s.giveBack tenant ending = s ∨ ∃ key issuer, tenant.lease = some key ∧
      s.sessions.lookup key.issuer.sessionId = some issuer ∧
      ¬ (¬ ending.clean ∧ ending.suspends) ∧ s.giveBack tenant ending = s.retire issuer key := by
  unfold giveBack
  split
  · exact Or.inl rfl
  rename_i key hkey
  split
  · exact Or.inl rfl
  · rename_i issuer hissuer
    split
    · exact Or.inl rfl
    · rename_i hends
      exact Or.inr ⟨key, issuer, hkey, hissuer, hends, rfl⟩

/-- A session ends with its leases, each of which is retired for the session that was charged. -/
def Ends (s : Estate C) (handle : ℕ) (tenant : Tenant C) (ending : Ending) : Prop :=
  if s.isRetried tenant ending then
    ∀ key lease, s.leases.lookup key = some lease → lease.issuer ≠ handle
  else
    (∀ key lease, s.leases.lookup key = some lease → key.issuer = tenant.identity →
      lease.issuer = handle) ∧
    ∀ key issuer lease, tenant.lease = some key →
      (s.retireIssued handle tenant.identity).sessions.lookup key.issuer.sessionId = some issuer →
        ¬ (¬ ending.clean ∧ ending.suspends) → s.leases.lookup key = some lease →
          lease.issuer = issuer

end Estate

namespace Counting

open Estate

theorem balanced_foldl_retire (h : K.Balanced s) (keys : List LeaseKey)
    (hissuer : ∀ key ∈ keys, ∀ lease, s.leases.lookup key = some lease → lease.issuer = handle) :
    K.Balanced (keys.foldl (fun s key => s.retire handle key) s) := by
  induction keys generalizing s with
  | nil => exact h
  | cons first _ ih =>
    refine ih (h.retire (hissuer first mem_cons_self)) fun key hkey lease hlease => ?_
    rw [(s.retire_spec handle first).2] at hlease
    exact hissuer key (mem_cons_of_mem _ hkey) lease (lookup_erase_some hlease).2

theorem Balanced.retireIssued (h : K.Balanced s) {identity : SessionIdentity}
    (hissuer : ∀ key lease, s.leases.lookup key = some lease → key.issuer = identity →
      lease.issuer = handle) : K.Balanced (s.retireIssued handle identity) :=
  balanced_foldl_retire h _ fun key hkey lease hlease =>
    hissuer key lease hlease (of_decide_eq_true (List.mem_filter.mp hkey).2)

/-- The session is over. -/
theorem Balanced.leave (h : K.Balanced s) (htenant : s.tenants.lookup handle = some tenant)
    (hnone : ∀ key lease, s.leases.lookup key = some lease → lease.issuer ≠ handle)
    (sessionId : ℕ) :
    K.Balanced ((s.setTenant handle { tenant with isLive := false }).unregister sessionId) :=
  h.of_terms htenant rfl rfl rfl (fun _ => rfl) rfl (Or.inr hnone)

theorem Balanced.finish (h : K.Balanced s) (htenant : s.tenants.lookup handle = some tenant)
    {ending : Ending} (hends : s.Ends handle tenant ending) :
    K.Balanced (s.finish handle tenant ending) := by
  unfold Ends at hends
  unfold Estate.finish
  split at hends
  · rename_i hretried
    dsimp only
    rw [if_pos hretried]
    exact h.leave htenant hends _
  · rename_i hretried
    dsimp only
    rw [if_neg hretried]
    obtain ⟨hissued, hback⟩ := hends
    obtain ⟨htenants, hleases⟩ := s.retireIssued_spec handle tenant.identity
    have hretired := h.retireIssued hissued
    have hnone : ∀ key lease,
        (s.retireIssued handle tenant.identity).leases.lookup key = some lease →
          lease.issuer ≠ handle := by
      intro key lease hlease hissuer
      obtain ⟨hne, hbefore⟩ := hleases key lease hlease
      exact hne (h.lease_mem htenant hbefore hissuer).2.1.symm
    rw [← htenants] at htenant
    rcases giveBack_cases (s.retireIssued handle tenant.identity) tenant ending with
      heq | ⟨key, issuer, hkey, hissuer, hends, heq⟩
    · rw [heq]
      exact hretired.leave htenant hnone _
    rw [heq]
    obtain ⟨htenants', hleases'⟩ :=
      (s.retireIssued handle tenant.identity).retire_spec issuer key
    refine Balanced.leave (hretired.retire fun lease hlease => ?_) ?_ ?_ _
    · exact hback key issuer lease hkey hissuer hends (hleases key lease hlease).2
    · rw [htenants']
      exact htenant
    · intro other lease hlease
      rw [hleases'] at hlease
      exact hnone other lease (lookup_erase_some hlease).2

/-! ### New sessions -/

theorem Balanced.establish (h : K.Balanced s) (handle : ℕ) (identity : SessionIdentity)
    (lease : Option LeaseKey) (operationClasses : ℕ) (contract : C.Contract) :
    K.Balanced (s.establish handle identity lease operationClasses contract) := by
  unfold Estate.establish
  split
  · exact h
  rename_i hnew
  obtain ⟨hnone, -⟩ := not_or.mp hnew
  rw [not_isSome_iff_eq_none] at hnone
  split
  · exact h
  rename_i contexts hroot
  have hleases : ∀ key found, s.leases.lookup key = some found → found.issuer ≠ handle := by
    intro key found hfound hissuer
    obtain ⟨tenant, htenant, -⟩ := h.leases key found hfound
    rw [hissuer, hnone] at htenant
    cases htenant
  have hreleasing : ∀ release ∈ s.releasing, release.handle ≠ handle := by
    intro release hmem hhandle
    obtain ⟨_, htenant, -⟩ := h.releasing release hmem
    rw [hhandle, hnone] at htenant
    cases htenant
  have hinsert : ∀ s' : Estate C,
      s'.tenants = s.tenants.insert handle { identity, lease, contexts } →
      (∀ key, (s'.leases.lookup key).map (fun lease => (lease.issuer, lease.contract)) =
        (s.leases.lookup key).map fun lease => (lease.issuer, lease.contract)) →
      s'.releasing = s.releasing → K.Balanced s' := by
    intro _ htenants hterms hsame
    have hheld := held_of_terms (K := K) hterms hsame
    refine h.insert htenants (fun contextId state hstate i => ?_)
      (fun other _ contextId i => hheld other contextId i) (fun key found hfound => ?_)
      fun release hmem => ?_
    · -- the first context has granted nothing, and there are no others
      rw [hheld, held_absent (fun key found hfound hissuer =>
        (hleases key found hfound hissuer).elim) fun release hmem hhandle =>
          (hreleasing release hmem hhandle).elim]
      unfold ContextTable.root at hroot
      split at hroot
      · obtain rfl := Option.some.inj hroot
        dsimp only at hstate
        rw [lookup_insert] at hstate
        split at hstate
        · obtain rfl := Option.some.inj hstate
          rw [K.charged_none]
          rfl
        · cases hstate
      · cases hroot
    · have heq := hterms key
      rw [hfound, map_some] at heq
      obtain ⟨old, hold, hsame⟩ := Option.map_eq_some_iff.mp heq.symm
      obtain ⟨hissuer, -⟩ := Prod.mk.inj hsame
      rw [if_neg fun hhandle => hleases key old hold (hissuer.trans hhandle)]
      exact ⟨old, hold, hissuer⟩
    · rw [hsame] at hmem
      rw [if_neg (hreleasing release hmem)]
      exact hmem
  dsimp only
  split
  · exact hinsert _ rfl (fun _ => rfl) rfl
  · exact hinsert _ rfl (fun _ => terms_adjust fun _ => ⟨rfl, rfl⟩) rfl

end Counting

namespace Estate

/-! ### Steps -/

/-- What keeps the account right: each reservation is followed by its context, a lease is retired
for the session that was charged, and no context is revoked that leases were issued from. -/
def Good (s : Estate C) : Tenure C → Prop
  | .createContext handle definition => ∀ tenant, s.tenants.lookup handle = some tenant →
      tenant.isLive = true → tenant.contexts.Creatable definition
  | .revokeLease handle contextId leaseId => ∀ tenant, s.tenants.lookup handle = some tenant →
      tenant.isLive = true → s.mayDelegate tenant contextId = true → ∀ lease,
        s.leases.lookup ⟨tenant.identity, contextId, leaseId⟩ = some lease → lease.issuer = handle
  | .revokeContext handle contextId => ∀ tenant, s.tenants.lookup handle = some tenant →
      tenant.isLive = true → contextId ≠ rootContextId →
        (tenant.contexts.lookup contextId).isSome = true →
          Counting.Unleased s handle tenant contextId
  | .expire handle key => ∀ tenant, s.tenants.lookup handle = some tenant →
      tenant.isLive = true → key.issuer = tenant.identity → ∀ lease,
        s.leases.lookup key = some lease → lease.issuer = handle
  | .finish handle ending => ∀ tenant, s.tenants.lookup handle = some tenant →
      tenant.isLive = true → s.Ends handle tenant ending
  | .establish .. | .createLease .. | .release _ => True

/-- What holds of a state, and of it once a live session has acted. -/
theorem of_asLive {motive : Estate C → Prop} {work : Tenant C → Estate C} (h : motive s)
    (hwork : ∀ tenant, s.tenants.lookup handle = some tenant → tenant.isLive = true →
      motive (work tenant)) : motive (s.asLive handle work) := by
  unfold asLive
  split
  · exact h
  · rename_i tenant htenant
    split
    · rename_i hlive
      exact hwork tenant htenant hlive
    · exact h

/-- A lease is the same as before the first record, as far as the account goes. -/
theorem lease_admitFirst (htenant : s.tenants.lookup handle = some tenant) {key : LeaseKey}
    {lease : IssuedLease C} (hlease : (s.admitFirst handle tenant).leases.lookup key = some lease) :
    ∃ old, s.leases.lookup key = some old ∧ old.issuer = lease.issuer := by
  have heq := (Counting.admitFirst_spec s handle tenant htenant).2.1 key
  rw [hlease, map_some] at heq
  obtain ⟨old, hold, hsame⟩ := Option.map_eq_some_iff.mp heq.symm
  exact ⟨old, hold, (Prod.mk.inj hsame).1⟩

theorem lookup_admitFirst (htenant : s.tenants.lookup handle = some tenant) :
    (s.admitFirst handle tenant).tenants.lookup handle = some { tenant with admitted := true } := by
  rw [(Counting.admitFirst_spec s handle tenant htenant).1]
  exact lookup_insert_self

theorem mayDelegate_admitFirst (s : Estate C) (handle : ℕ) (tenant : Tenant C) (contextId : ℕ) :
    (s.admitFirst handle tenant).mayDelegate { tenant with admitted := true } contextId =
      s.mayDelegate tenant contextId := by
  unfold admitFirst
  split
  · rfl
  · dsimp only
    split
    · rfl
    · rfl

theorem step_balanced (h : K.Balanced s)
    (hrooted : ∀ handle tenant, s.tenants.lookup handle = some tenant → tenant.contexts.Rooted)
    {tenure : Tenure C} (hgood : s.Good tenure) : K.Balanced (s.step tenure) := by
  cases tenure with
  | establish handle identity lease operationClasses contract =>
    exact h.establish handle identity lease operationClasses contract
  | createContext handle =>
    refine of_asLive (motive := K.Balanced) h fun tenant htenant hlive => ?_
    exact (h.admitFirst htenant hlive).createContext (lookup_admitFirst htenant)
      (hrooted handle tenant htenant) (hgood tenant htenant hlive)
  | createLease _ objectId definition =>
    refine of_asLive (motive := K.Balanced) h fun tenant htenant hlive => ?_
    exact (h.admitFirst htenant hlive).createLease (lookup_admitFirst htenant) hlive objectId
      definition
  | revokeLease handle contextId leaseId =>
    refine of_asLive (motive := K.Balanced) h fun tenant htenant hlive => ?_
    have hadmitted := h.admitFirst htenant hlive
    dsimp only
    unfold revokeLease
    rw [mayDelegate_admitFirst]
    split
    · exact hadmitted
    rename_i hmay
    dsimp only
    split
    · exact hadmitted
    · refine hadmitted.retire fun lease hlease => ?_
      obtain ⟨old, hold, hissuer⟩ := lease_admitFirst htenant hlease
      exact hissuer.symm.trans (hgood tenant htenant hlive (by simpa using hmay) old hold)
  | revokeContext handle =>
    refine of_asLive (motive := K.Balanced) h fun tenant htenant hlive => ?_
    refine (h.admitFirst htenant hlive).revokeContext (lookup_admitFirst htenant)
      fun hroot hsome => ?_
    obtain ⟨hleases, hreleasing⟩ := hgood tenant htenant hlive hroot hsome
    refine ⟨fun key lease hlease hissuer => ?_, fun release hmem hhandle => ?_⟩
    · obtain ⟨old, hold, hsame⟩ := lease_admitFirst htenant hlease
      exact hleases key old hold (hsame.trans hissuer)
    · rw [(Counting.admitFirst_spec s handle tenant htenant).2.2] at hmem
      exact hreleasing release hmem hhandle
  | expire handle key =>
    refine of_asLive (motive := K.Balanced) h fun tenant htenant hlive => ?_
    split
    · rename_i hissuer
      exact h.retire (hgood tenant htenant hlive hissuer)
    · exact h
  | release index => exact h.release index
  | finish =>
    refine of_asLive (motive := K.Balanced) h fun tenant htenant hlive => ?_
    exact h.finish htenant (hgood tenant htenant hlive)

/-! ### Forests -/

/-- The contexts of each session are a forest. -/
def Forests (s : Estate C) : Prop :=
  ∀ handle tenant, s.tenants.lookup handle = some tenant → tenant.contexts.Rooted

theorem Forests.of_tenants {s' : Estate C} (h : s.Forests) (htenants : s'.tenants = s.tenants) :
    s'.Forests := by
  intro handle tenant htenant
  rw [htenants] at htenant
  exact h handle tenant htenant

theorem Forests.setTenant (h : s.Forests) (tenant : Tenant C) (hrooted : tenant.contexts.Rooted)
    (handle : ℕ) : (s.setTenant handle tenant).Forests := by
  intro other found hfound
  change (s.tenants.insert handle tenant).lookup other = some found at hfound
  rw [lookup_insert] at hfound
  split at hfound
  · obtain rfl := Option.some.inj hfound
    exact hrooted
  · exact h other found hfound

theorem Forests.admitFirst (h : s.Forests) (htenant : s.tenants.lookup handle = some tenant) :
    (s.admitFirst handle tenant).Forests := by
  refine (h.setTenant { tenant with admitted := true } (h handle tenant htenant)
    handle).of_tenants ?_
  exact (Counting.admitFirst_spec s handle tenant htenant).1

theorem forests_step (h : s.Forests) (tenure : Tenure C) : (s.step tenure).Forests := by
  cases tenure with
  | establish handle identity lease operationClasses contract =>
    change (s.establish handle identity lease operationClasses contract).Forests
    unfold establish
    split
    · exact h
    split
    · exact h
    rename_i contexts hroot
    have hset := h.setTenant { identity, lease, contexts }
      (ContextTable.rooted_root hroot) handle
    dsimp only
    split
    · exact hset.of_tenants rfl
    · exact hset.of_tenants rfl
  | createContext handle definition =>
    refine of_asLive (motive := Forests) h fun tenant htenant hlive => ?_
    exact (h.admitFirst htenant).setTenant _
      (ContextTable.rooted_create (h handle tenant htenant) definition) handle
  | createLease handle objectId definition =>
    refine of_asLive (motive := Forests) h fun tenant htenant hlive => ?_
    rcases Counting.createLease_cases (s.admitFirst handle tenant) handle
      { tenant with admitted := true } objectId definition with hsame |
        ⟨parent, charges, classes, contract, -, hparent, -, hcreated⟩
    · dsimp only
      rw [hsame]
      exact h.admitFirst htenant
    · dsimp only
      rw [hcreated]
      refine ((h.admitFirst htenant).setTenant _ ?_ handle).of_tenants rfl
      dsimp only
      have hcharge := ContextTable.Rooted.charge (h handle tenant htenant)
        definition.contextId fun _ => charges
      rw [adjust_of_lookup _ hparent] at hcharge
      exact hcharge
  | revokeLease =>
    refine of_asLive (motive := Forests) h fun tenant htenant hlive => ?_
    dsimp only
    unfold revokeLease
    split
    · exact h.admitFirst htenant
    · dsimp only
      split
      · exact h.admitFirst htenant
      · exact (h.admitFirst htenant).of_tenants (retire_spec _ _ _).1
  | revokeContext handle contextId =>
    refine of_asLive (motive := Forests) h fun tenant htenant hlive => ?_
    dsimp only
    unfold revokeContext
    split
    · exact h.admitFirst htenant
    split
    · exact h.admitFirst htenant
    rename_i hsome
    split
    · exact h.admitFirst htenant
    rename_i contexts removed hrevoke
    refine (h.admitFirst htenant).setTenant _ ?_ handle
    refine ContextTable.rooted_revoke (h handle tenant htenant)
      (ContextTable.revokes_of_revoke hrevoke) ?_
    rw [isNone_iff_eq_none] at hsome
    exact Option.isSome_iff_ne_none.mpr hsome
  | expire =>
    refine of_asLive (motive := Forests) h fun tenant htenant hlive => ?_
    split
    · exact h.of_tenants (retire_spec _ _ _).1
    · exact h
  | release index =>
    change (s.release index).Forests
    unfold release
    split
    · exact h
    rename_i release hrelease
    intro handle tenant htenant
    dsimp only at htenant
    rw [lookup_adjust] at htenant
    split at htenant
    · obtain ⟨old, hold, rfl⟩ := Option.map_eq_some_iff.mp htenant
      exact (h handle old hold).charge _ fun state =>
        C.releaseChild state.contract state.charges release.contract
    · exact h handle tenant htenant
  | finish handle ending =>
    refine of_asLive (motive := Forests) h fun tenant htenant hlive => ?_
    have hretired : ∀ s' : Estate C, s'.tenants = s.tenants →
        ((s'.setTenant handle { tenant with isLive := false }).unregister
          tenant.identity.sessionId).Forests := by
      intro s' htenants
      exact ((h.of_tenants htenants).setTenant { tenant with isLive := false }
        (h handle tenant htenant) handle).of_tenants rfl
    refine hretired _ ?_
    split
    · rfl
    · obtain ⟨htenants, -⟩ := s.retireIssued_spec handle tenant.identity
      rcases giveBack_cases (s.retireIssued handle tenant.identity) tenant ending with
        hsame | ⟨_, _, -, -, -, hsame⟩
      · rw [hsame, htenants]
      · rw [hsame, (retire_spec _ _ _).1, htenants]

/-! ### Runs -/

theorem forests_run (delegate : ℕ) (offeredProfiles : List String) (history : List (Tenure C)) :
    (run C delegate offeredProfiles history).Forests := by
  induction history using List.reverseRecOn with
  | nil => exact nofun
  | append_singleton _ tenure ih =>
    rw [run_concat]
    exact forests_step ih tenure

theorem balanced_start (delegate : ℕ) (offeredProfiles : List String) :
    K.Balanced (start C delegate offeredProfiles) := ⟨nofun, nofun, nofun⟩

/-- In every run each session's contexts are a forest and the loops of a revocation end and find
just what came under the context. And where each step is good, each context is charged what lives
under it: what was reserved for a context or a lease is released with it. -/
theorem reservations_last (K : Counting C ι) (delegate : ℕ) (offeredProfiles : List String)
    (history : List (Tenure C)) : (∀ handle tenant,
      (run C delegate offeredProfiles history).tenants.lookup handle = some tenant →
        tenant.contexts.Rooted ∧ ∀ contextId, ∃ contexts removed,
          tenant.contexts.revoke (tenant.contexts.size + 1) contextId = some (contexts, removed) ∧
            ∀ a, a ∈ removed ↔ Below tenant.contexts.parent contextId a) ∧
    (Throughout (run C delegate offeredProfiles) Good history →
      K.Balanced (run C delegate offeredProfiles history)) := by
  constructor
  · intro handle tenant htenant
    have hrooted := forests_run delegate offeredProfiles history handle tenant htenant
    refine ⟨hrooted, fun contextId => ?_⟩
    obtain ⟨contexts, removed, hrevoke⟩ := ContextTable.revoke_of_size hrooted contextId
    exact ⟨contexts, removed, hrevoke, (ContextTable.revokes_of_revoke hrevoke).subtree⟩
  · intro hgood
    refine hgood.induct (fun history => K.Balanced (run C delegate offeredProfiles history))
      (balanced_start delegate offeredProfiles) fun history tenure ih hgood => ?_
    rw [run_concat]
    exact step_balanced ih (forests_run delegate offeredProfiles history) hgood

/-! ### A lease that outlives its context -/

def landlord : SessionIdentity := ⟨1, 1⟩

/-- A lease is issued from a second context, which is revoked and made anew, with a third under
it; then the lease expires. -/
def outlivedHistory : List (Tenure .plain) :=
  [.establish 1 landlord none 3 fun _ => (8 : ℕ),
    .createContext 1 ⟨2, rootContextId, 3, fun _ => (4 : ℕ)⟩,
    .createLease 1 7 ⟨7, 2, [], fun _ => (2 : ℕ)⟩,
    .revokeContext 1 2,
    .createContext 1 ⟨2, rootContextId, 3, fun _ => (4 : ℕ)⟩,
    .createContext 1 ⟨3, 2, 3, fun _ => (2 : ℕ)⟩,
    .expire 1 ⟨landlord, 2, 7⟩,
    .release 0]

/-- The capacity of the third context is released while it lives. -/
theorem outlived_unbalanced : ¬ ∀ (history : List (Tenure .plain)),
    Counting.plain.Balanced (run .plain 2 [] history) := by
  intro h
  have hcharges : ((run .plain 2 [] outlivedHistory).tenants.lookup 1).any (fun tenant =>
      (tenant.contexts.lookup 2).any fun state =>
        Counting.plain.charged state.charges .surfaces <
          Counting.plain.childCost tenant.contexts 2 .surfaces) = true := by
    decide +kernel
  obtain ⟨tenant, htenant, hcharges⟩ := (Option.any_eq_true _ _).mp hcharges
  obtain ⟨state, hstate, hcharges⟩ := (Option.any_eq_true _ _).mp hcharges
  have hfair := (h outlivedHistory).fair 1 tenant htenant 2 state hstate .surfaces
  have hless := of_decide_eq_true hcharges
  omega

/-- A lease is issued from the first context and expires. -/
theorem reservations_last_expired : Counting.plain.Balanced (run .plain 2 []
    [.establish 1 landlord none 3 fun _ => (8 : ℕ),
      .createLease 1 7 ⟨7, 1, [], fun _ => (2 : ℕ)⟩, .expire 1 ⟨landlord, 1, 7⟩, .release 0]) := by
  refine (reservations_last Counting.plain 2 [] _).2 (throughout_iff.mpr fun n hn => ?_)
  match n with
  | 0 | 1 | 3 => exact trivial
  | 2 =>
    intro _ _ _ _ lease hlease
    have hissuer : ((run .plain 2 [] [.establish 1 landlord none 3 fun _ => (8 : ℕ),
        .createLease 1 7 ⟨7, 1, [], fun _ => (2 : ℕ)⟩]).leases.lookup ⟨landlord, 1, 7⟩).all
          (·.issuer = 1) = true := by decide +kernel
    have hlease' : ((run .plain 2 [] [.establish 1 landlord none 3 fun _ => (8 : ℕ),
        .createLease 1 7 ⟨7, 1, [], fun _ => (2 : ℕ)⟩]).leases.lookup ⟨landlord, 1, 7⟩) =
          some lease := hlease
    rw [hlease'] at hissuer
    exact of_decide_eq_true hissuer

end Estate

end Vivido.Authority
