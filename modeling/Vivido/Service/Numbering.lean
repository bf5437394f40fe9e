import Vivido.Service.Outcomes

/-!
The numbers of sessions. Each is drawn once, for a root session or under the key
of a lease, until the counter has gone through. So two uses of one number are
uses under one key.
-/

namespace Vivido.Service

open Scene SortedMap List

variable {P : Protocol} {L : LeaseProtocol}

/-- The session number that a connection goes by or means to resume, and the lease it goes with. -/
def Party.number? : Party L → Option (ℕ × Option LeaseKey)
  | .establishing (.resumingLease key sessionId _ _) => some (sessionId, some key)
  | .establishing (.authenticated (.resume key _ sessionId _) _) => some (sessionId, some key)
  | .establishing (.serving runtime _) | .serving runtime _ _ =>
    some (runtime.identity.sessionId, runtime.lease)
  | .finishing lost _ _ => some (lost.identity.sessionId, lost.lease)
  | _ => none

/-- The lease has a session number for its child, or its machine decided on one. -/
def Lease.Uses (decided : L.Machine → Option ℕ) (lease : Lease L) (n : ℕ) : Prop :=
  (∃ child, lease.child = some child ∧ child.sessionId = n) ∨ decided lease.machine = some n

namespace Presenter

variable {D : Delegation L} {p : Presenter P L} {act : Act P L}
  {retryable begun : L.Machine → Prop} {decided : L.Machine → Option ℕ} {n : ℕ}
  {key : Option LeaseKey}

/-- A session number is in use under a key, or for a root session. -/
def Uses (decided : L.Machine → Option ℕ) (p : Presenter P L) (n : ℕ) (key : Option LeaseKey) :
    Prop :=
  (∃ party ∈ p.parties, party.number? = some (n, key)) ∨
    ∃ other lease, p.lease? other = some lease ∧ lease.Uses decided n ∧ key = some other

/-- The key under which the next session number is drawn. -/
def drawsFor (p : Presenter P L) : Act P L → Option LeaseKey
  | .advance i _ _ =>
    match p.parties[i]? with
    | some (.establishing (.authenticated principal _)) => some principal.key
    | _ => none
  | _ => none

/-- A step keeps the numbers in use, but for one that it draws. -/
structure KeepsNumbers (decided : L.Machine → Option ℕ) (p p' : Presenter P L)
    (drawn : Option LeaseKey) : Prop where
  next : p'.shared.nextSession = p.shared.nextSession ∨
    p'.shared.nextSession = (p.shared.nextSession + 1) % 2 ^ 64
  uses : ∀ n key, Uses decided p' n key → Uses decided p n key ∨
    n = p.shared.nextSession ∧ key = drawn ∧
      p'.shared.nextSession = (p.shared.nextSession + 1) % 2 ^ 64

/-- Two uses of a number are under one key, and the counter is past it. -/
structure Numbered (decided : L.Machine → Option ℕ) (p : Presenter P L) : Prop where
  bounded : p.shared.nextSession < 2 ^ 64
  drawn : p.shared.nextSession ≠ 0 → ∀ n key, Uses decided p n key → n < p.shared.nextSession
  unique : ∀ n key key', Uses decided p n key → Uses decided p n key' → key = key'

theorem Numbered.keeps {p' : Presenter P L} {drawn : Option LeaseKey} (h : Numbered decided p)
    (hnext : p.shared.nextSession ≠ 0) (hkeeps : KeepsNumbers decided p p' drawn) :
    Numbered decided p' := by
  have hbounded := h.bounded
  refine ⟨?_, fun hne n key huses => ?_, fun n key key' huses huses' => ?_⟩
  · rcases hkeeps.next with hsame | hsame
    · omega
    · rw [hsame]
      exact Nat.mod_lt _ (by omega)
  · rcases hkeeps.uses n key huses with hbefore | ⟨rfl, -, hsame⟩
    · have hlt := h.drawn hnext n key hbefore
      rcases hkeeps.next with _ | _ <;> omega
    · omega
  · rcases hkeeps.uses n key huses with hbefore | ⟨rfl, rfl, -⟩ <;>
      rcases hkeeps.uses _ key' huses' with hbefore' | ⟨_, hkey, -⟩
    · exact h.unique _ key key' hbefore hbefore'
    · have hlt := h.drawn hnext _ key hbefore
      omega
    · have hlt := h.drawn hnext _ key' hbefore'
      omega
    · exact hkey.symm

/-! ### What keeps the numbers -/

/-- Each lease has the numbers of one that was there. -/
def LeasesKept (decided : L.Machine → Option ℕ) (before after : LeaseTable L) : Prop :=
  ∀ key lease n, after.lookup key = some lease → lease.Uses decided n →
    ∃ prior, before.lookup key = some prior ∧ prior.Uses decided n

theorem leasesKept_refl (leases : LeaseTable L) : LeasesKept decided leases leases :=
  fun _ lease _ h huses => ⟨lease, h, huses⟩

theorem leasesKept_erase (leases : LeaseTable L) (key : LeaseKey) :
    LeasesKept decided leases (leases.erase key) :=
  fun _ lease _ h huses => ⟨lease, (lookup_erase_some h).2, huses⟩

theorem leasesKept_insert {leases : LeaseTable L} {key : LeaseKey} {lease lease' : Lease L}
    (hlease : leases.lookup key = some lease)
    (h : ∀ n, lease'.Uses decided n → lease.Uses decided n) :
    LeasesKept decided leases (leases.insert key lease') := by
  intro _ found n hfound huses
  rw [lookup_insert] at hfound
  split at hfound
  · rename_i heq
    subst heq
    cases hfound
    exact ⟨lease, hlease, h n huses⟩
  · exact ⟨found, hfound, huses⟩

theorem keepsNumbers_of_leases {p' : Presenter P L} {drawn : Option LeaseKey}
    (hnext : p'.shared.nextSession = p.shared.nextSession)
    (hleases : LeasesKept decided p.shared.registry.leases p'.shared.registry.leases)
    (hparties : ∀ party ∈ p'.parties, ∀ n key, party.number? = some (n, key) →
      Uses decided p n key) : KeepsNumbers decided p p' drawn := by
  refine ⟨Or.inl hnext, fun n key huses => Or.inl ?_⟩
  rcases huses with ⟨party, hparty, huses⟩ | ⟨other, lease, hlease, huses, rfl⟩
  · exact hparties party hparty n key huses
  · obtain ⟨prior, hprior, huses⟩ := hleases other lease n hlease huses
    exact Or.inr ⟨other, prior, hprior, huses, rfl⟩

theorem uses_set {i : ℕ} {party party' : Party L}
    (h : ∀ n key, party'.number? = some (n, key) → Uses decided p n key)
    (hparty : party ∈ p.parties.set i party') (n : ℕ) (key : Option LeaseKey)
    (huses : party.number? = some (n, key)) : Uses decided p n key := by
  rcases mem_or_eq_of_mem_set hparty with hmem | rfl
  · exact Or.inl ⟨party, hmem, huses⟩
  · exact h n key huses

theorem uses_connect {party party' : Party L}
    (h : ∀ n key, party'.number? = some (n, key) → Uses decided p n key)
    (hparty : party ∈ p.parties ++ [party']) (n : ℕ) (key : Option LeaseKey)
    (huses : party.number? = some (n, key)) : Uses decided p n key := by
  rcases List.mem_append.mp hparty with hmem | hmem
  · exact Or.inl ⟨party, hmem, huses⟩
  · rw [List.mem_singleton.mp hmem] at huses
    exact h n key huses

end Presenter

/-! ### The sections -/

theorem Lease.uses_confirm {retryable begun : L.Machine → Prop} {decided : L.Machine → Option ℕ}
    (hL : L.Keeps retryable begun decided) (lease : Lease L) {n : ℕ}
    (h : ({ lease with machine := (L.confirmTransportLost lease.machine false).1 } : Lease L).Uses
      decided n) : lease.Uses decided n :=
  h.imp_right fun h => (hL.lost_decided lease.machine).symm.trans h

namespace Finishing

open Presenter

variable {retryable begun : L.Machine → Prop} {decided : L.Machine → Option ℕ}

theorem leasesKept_exec (hL : L.Keeps retryable begun decided) (lost : SessionRuntime L)
    (clean : Bool) (now : ℕ) (s : ServiceShared P L) (action : Finishing L) :
    (action.exec lost clean now s).1.nextSession = s.nextSession ∧
      LeasesKept decided s.registry.leases (action.exec lost clean now s).1.registry.leases := by
  have h := turns_exec lost clean now s action
  generalize action.exec lost clean now s = result at h ⊢
  have hconfirmed : ∀ {key lease}, s.registry.leases.lookup key = some lease →
      LeasesKept decided s.registry.leases (s.registry.leases.insert key
        { lease with machine := (L.confirmTransportLost lease.machine false).1 }) :=
    fun hlease => leasesKept_insert hlease fun n h => Lease.uses_confirm hL _ h
  cases h with
  | same hregistry hnext =>
    refine ⟨hnext, ?_⟩
    rw [hregistry]
    exact leasesKept_refl _
  | confirmed _ hlease => exact ⟨rfl, hconfirmed hlease⟩
  | unregistered _ hlease =>
    refine ⟨rfl, ?_⟩
    change LeasesKept decided _ (Registry.removeSession _ _).leases
    rw [ServiceShared.leases_removeSession]
    exact hconfirmed hlease
  | @suspended _ _ lease hlease =>
    refine ⟨rfl, leasesKept_insert hlease fun n h => Lease.uses_confirm hL lease ?_⟩
    rcases suspend_cases now lease lost.resumeKey with hmoved | ⟨_, -, hmoved⟩ <;>
      (rw [hmoved] at h; exact h)
  | @retired _ key =>
    rcases s.retireLease_cases key with ⟨-, heq⟩ | ⟨_, _, -, heq, hnext, hleases, -⟩ <;> rw [heq]
    · exact ⟨rfl, leasesKept_refl _⟩
    · dsimp only
      rw [hleases]
      exact ⟨hnext, leasesKept_erase _ _⟩
  | unregister =>
    refine ⟨rfl, ?_⟩
    dsimp only [ServiceShared.unregister]
    rw [ServiceShared.leases_removeSession]
    exact leasesKept_refl _

end Finishing

theorem Task.leasesKept_exec {retryable begun : L.Machine → Prop} {decided : L.Machine → Option ℕ}
    (hL : L.Keeps retryable begun decided) (issuer : SessionRuntime L) (now : ℕ)
    (s : ServiceShared P L) (task : Task L) :
    (task.exec issuer now s).1.nextSession = s.nextSession ∧
      Presenter.LeasesKept decided s.registry.leases
        (task.exec issuer now s).1.registry.leases := by
  cases task with
  | explainExpiry => exact ⟨rfl, Presenter.leasesKept_refl _⟩
  | expire key =>
    exact Finishing.leasesKept_exec hL issuer false now s (.retireLease issuer.handle key)
  | revoke action => exact Finishing.leasesKept_exec hL issuer false now s action

namespace Presenter

variable {D : Delegation L} {p : Presenter P L} {act : Act P L}
  {retryable begun : L.Machine → Prop} {decided : L.Machine → Option ℕ}

/-- The decision on a session: it has the number that is drawn now, or one that goes with the
lease already. -/
theorem keepsNumbers_decides (hL : L.Keeps retryable begun decided) {i : ℕ}
    {principal : Principal L} {hello : L.Hello}
    {result : ServiceShared P L × Option (SessionRuntime L)}
    (hparty : p.parties[i]? = some (.establishing (.authenticated principal hello)))
    (hdecides : ServiceShared.Decides p.shared principal result) {party' : Party L}
    (hparty' : ∀ n key, party'.number? = some (n, key) → ∃ runtime, result.2 = some runtime ∧
      runtime.identity.sessionId = n ∧ runtime.lease = key) :
    KeepsNumbers decided p { p with shared := result.1, parties := p.parties.set i party' }
      (some principal.key) := by
  have hmem := mem_of_getElem? hparty
  cases hdecides with
  | nothing hregistry hnext =>
    refine ⟨hnext, fun n key huses => Or.inl ?_⟩
    rcases huses with ⟨party, hparty, huses⟩ | ⟨other, lease, hlease, huses, rfl⟩
    · refine uses_set (fun n key h => ?_) hparty n key huses
      obtain ⟨runtime, hnone, -⟩ := hparty' n key h
      cases hnone
    · unfold lease? at hlease
      rw [hregistry] at hlease
      exact Or.inr ⟨other, lease, hlease, huses, rfl⟩
  | @refused s' lease machine attempt hlease hdecide hleases hsessions hnext =>
    refine ⟨Or.inr hnext, fun n key huses => Or.inl ?_⟩
    rcases huses with ⟨party, hparty, huses⟩ | ⟨other, found, hfound, huses, rfl⟩
    · refine uses_set (fun n key h => ?_) hparty n key huses
      obtain ⟨runtime, hnone, -⟩ := hparty' n key h
      cases hnone
    unfold lease? at hfound
    rw [hleases] at hfound
    have hkept : LeasesKept decided p.shared.registry.leases
        (p.shared.registry.leases.insert principal.key { lease with machine }) := by
      refine leasesKept_insert hlease fun n h => h.imp_right fun h => ?_
      cases principal with
      | lease => exact (hL.activation_kept _ _ _ hdecide).symm.trans h
      | resume =>
        rw [hL.resume_kept _ _ _ _ hdecide] at h
        exact h
    obtain ⟨prior, hprior, huses⟩ := hkept other found n hfound huses
    exact Or.inr ⟨other, prior, hprior, huses, rfl⟩
  | @decided s' lease lease' machine attempt decision published hlease hattempt hdecide hreserves
      hleases hnext hsessions =>
    -- where the number of the decision comes from
    have hnumber : (decision.sessionId = attempt.sessionId ∨
        decided lease.machine = some decision.sessionId) ∧
          decided machine = some decision.sessionId := by
      cases principal with
      | lease => exact hL.activation_decided _ _ _ _ hdecide
      | resume => exact hL.resume_decided _ _ _ _ _ hdecide
    have hdecision : Uses decided p decision.sessionId (some principal.key) ∨
        decision.sessionId = p.shared.nextSession := by
      rcases hnumber.1 with hattempted | hbefore
      · cases principal with
        | lease => exact Or.inr (hattempted.trans hattempt)
        | resume =>
          rw [hattempted, hattempt]
          exact Or.inl (Or.inl ⟨_, hmem, rfl⟩)
      · exact Or.inl (Or.inr ⟨_, lease, hlease, Or.inr hbefore, rfl⟩)
    have hdrawn : ∀ n, decision.sessionId = n → Uses decided p n (some principal.key) ∨
        n = p.shared.nextSession ∧ some principal.key = some principal.key ∧
          s'.nextSession = (p.shared.nextSession + 1) % 2 ^ 64 := by
      rintro n rfl
      exact hdecision.imp_right fun h => ⟨h, rfl, hnext⟩
    refine ⟨Or.inr hnext, fun n key huses => ?_⟩
    rcases huses with ⟨party, hparty, huses⟩ | ⟨other, found, hfound, huses, rfl⟩
    · rcases mem_or_eq_of_mem_set hparty with hmem | rfl
      · exact Or.inl (Or.inl ⟨party, hmem, huses⟩)
      obtain ⟨_, hpublished, rfl, rfl⟩ := hparty' n key huses
      rcases hsessions with ⟨hnone, -⟩ | ⟨other, hother, hid, hkey, -⟩
      · cases hnone.symm.trans hpublished
      · cases hother.symm.trans hpublished
        rw [hkey]
        exact hdrawn _ hid.symm
    · unfold lease? at hfound
      rw [hleases, lookup_insert] at hfound
      split at hfound
      · rename_i heq
        subst heq
        cases hfound
        rcases huses with ⟨child, hchild, rfl⟩ | hdecided
        · rcases hreserves.child with hsame | ⟨_, hchild', hid⟩
          · rw [hsame] at hchild
            exact Or.inl (Or.inr ⟨_, lease, hlease, Or.inl ⟨child, hchild, rfl⟩, rfl⟩)
          · cases hchild'.symm.trans hchild
            exact hdrawn _ hid.symm
        · have hmachine : decided lease'.machine = decided machine := by
            rcases hreserves.machine with hsame | hsame | ⟨-, hsame⟩
            · rw [hsame]
            · rw [hsame]
              exact hL.lost_decided machine
            · rw [hsame]
              exact hL.committed_decided machine
          rw [hmachine, hnumber.2] at hdecided
          exact hdrawn n (Option.some.inj hdecided)
      · exact Or.inl (Or.inr ⟨other, found, hfound, huses, rfl⟩)

theorem findResume_child {leases : LeaseTable L} {contextId leaseId sessionId now : ℕ}
    {key : LeaseKey} (h : LeaseTable.findResume leases contextId leaseId sessionId now = some key) :
    ∃ lease child, leases.lookup key = some lease ∧ lease.child = some child ∧
      child.sessionId = sessionId := by
  unfold LeaseTable.findResume at h
  obtain ⟨⟨_, lease⟩, hfound, rfl⟩ := Option.map_eq_some_iff.mp h
  have hkept := find?_some hfound
  rw [Bool.and_eq_true] at hkept
  obtain ⟨child, hchild, hid⟩ := (Option.any_eq_true _ _).mp hkept.2
  exact ⟨lease, child, mem_entries.mp (mem_of_find?_eq_some hfound), hchild,
    of_decide_eq_true hid⟩

/-- A section of an establishment that decides nothing makes use of a number that the lease it
found goes by. -/
theorem uses_establishing (decided : L.Machine → Option ℕ) (clock age : ℕ)
    (candidate : Candidate L) {stage : Establishing L}
    (hstage : ∀ principal hello, stage ≠ .authenticated principal hello)
    (hmem : Party.establishing stage ∈ p.parties) :
    ((Party.establishing stage).advance clock age candidate p.shared).1 = p.shared ∧
      ∀ n key, ((Party.establishing stage).advance clock age candidate p.shared).2.number? =
        some (n, key) → Uses decided p n key := by
  have hnone : ∀ stage' : Establishing L, (Party.establishing stage').number? = none →
      ∀ n key, (Party.establishing stage').number? = some (n, key) → Uses decided p n key := by
    intro _ hnone n key hsome
    cases hnone.symm.trans hsome
  cases stage with
  | activating contextId leaseId secret =>
    dsimp only [Party.advance, Establishing.exec]
    cases LeaseTable.findActivation p.shared.registry.leases contextId leaseId secret clock with
    | none | some => exact ⟨rfl, hnone _ rfl⟩
  | resuming contextId leaseId sessionId =>
    dsimp only [Party.advance, Establishing.exec]
    cases hfound : LeaseTable.findResume p.shared.registry.leases contextId leaseId sessionId
        clock with
    | none => exact ⟨rfl, hnone _ rfl⟩
    | some found =>
      refine ⟨rfl, fun n key hsome => ?_⟩
      cases hsome
      obtain ⟨lease, child, hlease, hchild, hid⟩ := findResume_child hfound
      exact Or.inr ⟨found, lease, hlease, Or.inl ⟨child, hchild, hid⟩, rfl⟩
  | resumingLease found _ resumeGeneration hello =>
    dsimp only [Party.advance, Establishing.exec]
    cases p.shared.priorResumeKey found resumeGeneration hello with
    | none => exact ⟨rfl, hnone _ rfl⟩
    | some =>
      refine ⟨rfl, fun n key hsome => ?_⟩
      cases hsome
      exact Or.inl ⟨_, hmem, rfl⟩
  | authenticated principal hello => exact (hstage principal hello rfl).elim
  | serving =>
    refine ⟨rfl, fun n key hsome => ?_⟩
    cases hsome
    exact Or.inl ⟨_, hmem, rfl⟩
  | refused => exact ⟨rfl, hnone _ rfl⟩

theorem keepsNumbers_onActor {i : ℕ} {drawn : Option LeaseKey}
    {work : ServiceShared P L → SessionRuntime L → Bool → ServiceShared P L × Party L}
    (h : ∀ runtime admitted, p.parties[i]? = some (.serving runtime admitted []) →
      (work p.shared runtime admitted).1.nextSession = p.shared.nextSession ∧
        LeasesKept decided p.shared.registry.leases
          (work p.shared runtime admitted).1.registry.leases ∧
        (work p.shared runtime admitted).2.number? =
          some (runtime.identity.sessionId, runtime.lease)) :
    KeepsNumbers decided p (p.onActor i work) drawn := by
  rcases p.onActor_cases i work with ⟨runtime, admitted, hparty, heq⟩ | heq
  · obtain ⟨hnext, hleases, hnumber⟩ := h runtime admitted hparty
    rw [heq]
    refine keepsNumbers_of_leases hnext hleases fun party hmem =>
      uses_set (fun n key huses => ?_) hmem
    cases hnumber.symm.trans huses
    exact Or.inl ⟨_, mem_of_getElem? hparty, rfl⟩
  · rw [heq]
    exact keepsNumbers_of_leases rfl (leasesKept_refl _) fun party hmem n key huses =>
      Or.inl ⟨party, hmem, huses⟩

theorem keepsNumbers_step (hL : L.Keeps retryable begun decided)
    (hnew : ∀ definition, decided (D.newMachine definition) = none) (act : Act P L) :
    KeepsNumbers decided p (p.step D act) (p.drawsFor act) := by
  have hold : ∀ party ∈ p.parties, ∀ n key, party.number? = some (n, key) → Uses decided p n key :=
    fun party hmem n key huses => Or.inl ⟨party, hmem, huses⟩
  have hrefl : LeasesKept decided p.shared.registry.leases p.shared.registry.leases :=
    leasesKept_refl _
  cases act with
  | pass | elsewhere => exact keepsNumbers_of_leases rfl hrefl hold
  | activate | resume =>
    refine keepsNumbers_of_leases rfl hrefl fun party hmem => uses_connect ?_ hmem
    exact fun n key hnone => by cases hnone
  | connectRoot hello candidate =>
    obtain ⟨hleases, hroot⟩ := p.shared.establishRoot_cases D hello candidate
    dsimp only [step]
    rcases hestablish : p.shared.establishRoot D hello candidate with ⟨shared, _ | runtime⟩
    · rw [hestablish] at hleases hroot
      obtain ⟨-, -, hnext⟩ := hroot.resolve_right (by rintro ⟨runtime, hnone, -⟩; cases hnone)
      refine ⟨hnext, fun n key huses => Or.inl ?_⟩
      rcases huses with ⟨party, hmem, huses⟩ | ⟨other, lease, hlease, huses, rfl⟩
      · exact hold party hmem n key huses
      · unfold lease? at hlease
        rw [hleases] at hlease
        exact Or.inr ⟨other, lease, hlease, huses, rfl⟩
    · rw [hestablish] at hleases hroot
      obtain ⟨_, hsome, hid, hlease, hnext, -⟩ :=
        hroot.resolve_left (by rintro ⟨hnone, -⟩; cases hnone)
      cases hsome
      refine ⟨Or.inr hnext, fun n key huses => ?_⟩
      rcases huses with ⟨party, hmem, huses⟩ | ⟨other, lease, hother, huses, rfl⟩
      · rcases List.mem_append.mp hmem with hmem | hmem
        · exact Or.inl (hold party hmem n key huses)
        · rw [List.mem_singleton.mp hmem] at huses
          cases huses
          exact Or.inr ⟨hid, hlease, hnext⟩
      · unfold lease? at hother
        change shared.registry.leases.lookup other = some lease at hother
        rw [hleases] at hother
        exact Or.inl (Or.inr ⟨other, lease, hother, huses, rfl⟩)
  | advance i age candidate =>
    dsimp only [step]
    rcases p.onParty_cases i (Party.advance p.clock age candidate) with ⟨party, hparty, heq⟩ | heq
    · rw [heq]
      have hmem := mem_of_getElem? hparty
      cases party with
      | establishing stage =>
        by_cases hstage : ∃ principal hello, stage = .authenticated principal hello
        · obtain ⟨principal, hello, rfl⟩ := hstage
          have hdraws : p.drawsFor (.advance i age candidate) = some principal.key := by
            dsimp only [drawsFor]
            rw [hparty]
          rw [hdraws]
          dsimp only [Party.advance, Establishing.exec]
          have hdecides := p.shared.decides_establish p.clock principal hello candidate
          rcases hestablish : p.shared.establish p.clock principal hello candidate with
            ⟨_, _ | runtime⟩
          · rw [hestablish] at hdecides
            exact keepsNumbers_decides hL hparty hdecides fun n key hnone => by cases hnone
          · rw [hestablish] at hdecides
            refine keepsNumbers_decides hL hparty hdecides fun n key huses => ?_
            cases huses
            exact ⟨runtime, rfl, rfl, rfl⟩
        · have hnot : ∀ principal hello, stage ≠ .authenticated principal hello :=
            fun principal hello h => hstage ⟨principal, hello, h⟩
          obtain ⟨hshared, huses⟩ := uses_establishing decided p.clock age candidate hnot hmem
          refine keepsNumbers_of_leases ?_ ?_ fun party hset => uses_set huses hset
          · exact congrArg _ hshared
          · dsimp only
            rw [hshared]
            exact hrefl
      | serving runtime admitted tasks =>
        cases tasks with
        | nil =>
          refine keepsNumbers_of_leases rfl hrefl fun party hset => uses_set ?_ hset
          exact fun n key huses => hold _ hmem n key huses
        | cons task tasks =>
          obtain ⟨hnext, hleases⟩ :=
            task.leasesKept_exec hL runtime (p.clock - age) p.shared
          refine keepsNumbers_of_leases hnext hleases fun party hset => uses_set ?_ hset
          exact fun n key huses => hold _ hmem n key huses
      | finishing lost clean sections =>
        cases sections with
        | nil =>
          refine keepsNumbers_of_leases rfl hrefl fun party hset => uses_set ?_ hset
          exact fun n key huses => hold _ hmem n key huses
        | cons action rest =>
          obtain ⟨hnext, hleases⟩ :=
            Finishing.leasesKept_exec hL lost clean (p.clock - age) p.shared action
          refine keepsNumbers_of_leases hnext hleases fun party hset => uses_set ?_ hset
          exact fun n key huses => hold _ hmem n key huses
    · rw [heq]
      exact keepsNumbers_of_leases rfl hrefl hold
  | firstRequest =>
    refine keepsNumbers_onActor fun runtime admitted _ => ?_
    cases admitted with
    | true => exact ⟨rfl, hrefl, rfl⟩
    | false =>
      rcases p.shared.admitPostHello_cases runtime with ⟨heq, -⟩ | ⟨key, lease, -, hlease, heq⟩
      · rw [if_neg Bool.false_ne_true, heq]
        exact ⟨rfl, hrefl, rfl⟩
      · rw [if_neg Bool.false_ne_true, heq]
        refine ⟨rfl, leasesKept_insert hlease fun n h => ?_, rfl⟩
        exact h.imp_right fun h => (hL.admitted_decided lease.machine).symm.trans h
  | expireLeases => exact keepsNumbers_onActor fun _ _ _ => ⟨rfl, hrefl, rfl⟩
  | createLease _ request =>
    refine keepsNumbers_onActor fun runtime admitted _ => ?_
    cases admitted with
    | false => exact ⟨rfl, hrefl, rfl⟩
    | true =>
      rw [if_pos rfl]
      rcases p.shared.createSessionLease_cases D runtime request p.clock with
        heq | ⟨_, hnext, -, hleases⟩
      · rw [heq]
        exact ⟨rfl, hrefl, rfl⟩
      refine ⟨hnext, ?_, rfl⟩
      dsimp only
      rw [hleases]
      intro _ lease n hlease huses
      rw [lookup_insert] at hlease
      split at hlease
      · cases hlease
        rcases huses with ⟨_, hnone, -⟩ | hnone
        · cases hnone
        · cases (hnew request.definition).symm.trans hnone
      · exact ⟨lease, hlease, huses⟩
  | revokeLease =>
    exact keepsNumbers_onActor fun _ _ _ => ⟨rfl, hrefl, rfl⟩
  | lose =>
    refine keepsNumbers_onActor fun runtime admitted _ => ?_
    split
    · exact ⟨rfl, hrefl, rfl⟩
    · exact ⟨rfl, hrefl, rfl⟩

end Presenter

end Vivido.Service
