import Vivido.Service.Stranding

/-!
How the connections and the published sessions go on. A finish goes through one
section at a time, and an actor takes back nothing but leases. So a session that
was published stays so, until its lease goes or a finish unregisters its number.
-/

namespace Vivido.Service

open Scene SortedMap List

variable {P : Protocol} {L : LeaseProtocol}

namespace Presenter

variable {D : Delegation L} {p : Presenter P L} {act : Act P L} {key : LeaseKey}
  {lost : SessionRuntime L} {clean : Bool} {sections : List (Finishing L)}

/-! ### The connections -/

/-- The step goes through the next section of this finish. -/
def Advances (D : Delegation L) (p : Presenter P L) (act : Act P L) (lost : SessionRuntime L)
    (clean : Bool) (action : Finishing L) (rest : List (Finishing L)) (age : ℕ) : Prop :=
  ∃ i candidate, act = .advance i age candidate ∧
    p.parties[i]? = some (.finishing lost clean (action :: rest)) ∧
      p.step D act = { p with
        shared := (action.exec lost clean (p.clock - age) p.shared).1
        parties := p.parties.set i (.finishing lost clean
          ((action.exec lost clean (p.clock - age) p.shared).2 ++ rest)) }

variable {i : ℕ} {work : ServiceShared P L → SessionRuntime L → Bool → ServiceShared P L × Party L}

theorem mem_set_of_ne {α : Type*} {xs : List α} {x y z : α} (hx : xs[i]? = some x) (hne : y ≠ x)
    (hy : y ∈ xs) : y ∈ xs.set i z := by
  obtain ⟨j, hj⟩ := List.mem_iff_getElem?.mp hy
  refine mem_of_getElem? (i := j) ?_
  rw [getElem?_set_ne, hj]
  rintro rfl
  exact hne (Option.some.inj (hj.symm.trans hx))

theorem finishing_onActor (h : Party.finishing lost clean sections ∈ p.parties) :
    Party.finishing lost clean sections ∈ (p.onActor i work).parties := by
  rcases p.onActor_cases i work with ⟨_, _, hparty, heq⟩ | heq
  · rw [heq]
    exact mem_set_of_ne hparty (fun h => by cases h) h
  · rw [heq]
    exact h

/-- A finish stays where it is, unless the step goes through its next section. -/
theorem finishing_step (h : Party.finishing lost clean sections ∈ p.parties) :
    Party.finishing lost clean sections ∈ (p.step D act).parties ∨
      ∃ action rest age, sections = action :: rest ∧
        p.Advances D act lost clean action rest age := by
  cases act with
  | pass | elsewhere => exact Or.inl h
  | activate | resume => exact Or.inl (mem_append_left _ h)
  | connectRoot =>
    left
    dsimp only [step]
    split
    · exact h
    · exact mem_append_left _ h
  | advance i age candidate =>
    rcases p.onParty_cases i (Party.advance p.clock age candidate) with ⟨party, hparty, heq⟩ | heq
    · by_cases hsame : Party.finishing lost clean sections = party
      · subst hsame
        cases sections with
        | nil =>
          left
          dsimp only [step]
          rw [heq]
          exact mem_set (List.getElem?_eq_some_iff.mp hparty).1 _
        | cons action rest =>
          exact Or.inr ⟨action, rest, age, rfl, i, candidate, rfl, hparty, heq⟩
      · left
        dsimp only [step]
        rw [heq]
        exact mem_set_of_ne hparty hsame h
    · left
      dsimp only [step]
      rw [heq]
      exact h
  | _ => exact Or.inl (finishing_onActor h)

theorem finishing_connect {party : Party L}
    (hparty : ∀ lost clean sections, party ≠ .finishing lost clean sections)
    (h : Party.finishing lost clean sections ∈ p.parties ++ [party]) :
    Party.finishing lost clean sections ∈ p.parties :=
  (List.mem_append.mp h).resolve_right fun h =>
    hparty lost clean sections (List.mem_singleton.mp h).symm

theorem finishing_of_onActor (hwork : ∀ runtime admitted lost clean sections,
      (work p.shared runtime admitted).2 = .finishing lost clean sections →
        sections = [.removeOverlays, .awaitFirst])
    (h : Party.finishing lost clean sections ∈ (p.onActor i work).parties) :
    Party.finishing lost clean sections ∈ p.parties ∨
      sections = [.removeOverlays, .awaitFirst] := by
  rcases p.onActor_cases i work with ⟨runtime, admitted, _, heq⟩ | heq
  · rw [heq] at h
    rcases mem_or_eq_of_mem_set h with h | h
    · exact Or.inl h
    · exact Or.inr (hwork runtime admitted _ _ _ h.symm)
  · rw [heq] at h
    exact Or.inl h

/-- A finish after a step was there before, or was gone on with, or has just begun. -/
theorem finishing_of_step (h : Party.finishing lost clean sections ∈ (p.step D act).parties) :
    Party.finishing lost clean sections ∈ p.parties ∨
      (∃ action rest age, p.Advances D act lost clean action rest age ∧
        sections = (action.exec lost clean (p.clock - age) p.shared).2 ++ rest) ∨
      sections = [.removeOverlays, .awaitFirst] := by
  cases act with
  | pass | elsewhere => exact Or.inl h
  | activate | resume =>
    exact Or.inl (finishing_connect (fun _ _ _ h => by cases h) h)
  | connectRoot =>
    left
    dsimp only [step] at h
    split at h
    · exact h
    · exact finishing_connect (fun _ _ _ h => by cases h) h
  | advance i age candidate =>
    rcases p.onParty_cases i (Party.advance p.clock age candidate) with ⟨party, hparty, heq⟩ | heq
    · have hadvance := heq
      dsimp only [step] at h
      rw [heq] at h
      rcases mem_or_eq_of_mem_set h with h | h
      · exact Or.inl h
      cases party with
      | establishing =>
        dsimp only [Party.advance] at h
        split at h <;> cases h
      | serving _ _ tasks => cases tasks <;> cases h
      | finishing _ _ before =>
        cases before with
        | nil =>
          cases h
          exact Or.inl (mem_of_getElem? hparty)
        | cons action rest =>
          cases h
          exact Or.inr (Or.inl ⟨action, rest, age, ⟨i, candidate, rfl, hparty, hadvance⟩, rfl⟩)
    · dsimp only [step] at h
      rw [heq] at h
      exact Or.inl h
  | lose _ clean =>
    refine (finishing_of_onActor (fun runtime admitted lost clean sections h => ?_) h).imp_right
      Or.inr
    split at h
    · cases h
    · cases h
      rfl
  | _ => exact (finishing_of_onActor (fun _ _ _ _ _ h => by cases h) h).imp_right Or.inr

theorem revoking_onActor (h : p.Revoking) (hwork : ∀ runtime admitted runtime' admitted' tasks,
      (work p.shared runtime admitted).2 = .serving runtime' admitted' tasks →
        ∀ action, Task.revoke action ∈ tasks → action.isRevoking = true) :
    (p.onActor i work).Revoking := by
  rcases p.onActor_cases i work with ⟨runtime, admitted, _, heq⟩ | heq
  · rw [heq]
    intro runtime' admitted' tasks hmem
    rcases mem_or_eq_of_mem_set hmem with hmem | hserving
    · exact h runtime' admitted' tasks hmem
    · exact hwork runtime admitted runtime' admitted' tasks hserving.symm
  · rw [heq]
    exact h

theorem revoking_connect {party : Party L} (h : p.Revoking) {p' : Presenter P L}
    (hp' : p'.parties = p.parties)
    (hparty : ∀ runtime admitted tasks, party = .serving runtime admitted tasks → tasks = []) :
    (p'.connect party).Revoking := by
  intro runtime admitted tasks hmem action haction
  change _ ∈ p'.parties ++ [party] at hmem
  rw [hp'] at hmem
  rcases List.mem_append.mp hmem with hmem | hmem
  · exact h runtime admitted tasks hmem action haction
  · rw [hparty runtime admitted tasks (List.mem_singleton.mp hmem).symm] at haction
    cases haction

theorem Revoking.step (h : p.Revoking) (act : Act P L) : (p.step D act).Revoking := by
  cases act with
  | pass | elsewhere => exact h
  | activate | resume =>
    exact revoking_connect h rfl (fun _ _ _ h => by cases h)
  | connectRoot =>
    dsimp only [Presenter.step]
    split
    · exact h
    · refine revoking_connect h rfl fun _ _ _ h => ?_
      cases h
      rfl
  | advance i age candidate =>
    dsimp only [Presenter.step]
    rcases p.onParty_cases i (Party.advance p.clock age candidate) with ⟨party, hparty, heq⟩ | heq
    · rw [heq]
      intro runtime admitted tasks hmem action haction
      rcases mem_or_eq_of_mem_set hmem with hmem | hserving
      · exact h runtime admitted tasks hmem action haction
      cases party with
      | establishing =>
        dsimp only [Party.advance] at hserving
        split at hserving
        · cases hserving
          cases haction
        · cases hserving
      | serving _ _ tasks' =>
        have hbefore := mem_of_getElem? hparty
        cases tasks' with
        | nil =>
          cases hserving
          cases haction
        | cons task =>
          cases hserving
          rcases List.mem_append.mp haction with hadded | hlater
          · have hexec : ∀ section_ : Finishing L, section_.isRevoking = true →
                Task.revoke action ∈ ((section_.exec runtime false (p.clock - age)
                  p.shared).2.map Task.revoke) → action.isRevoking = true := by
              intro _ hrevoking hin
              obtain ⟨other, hother, hsame⟩ := List.mem_map.mp hin
              cases hsame
              exact Finishing.isRevoking_exec hrevoking action hother
            cases task with
            | explainExpiry => cases List.mem_singleton.mp hadded
            | expire key => exact hexec (.retireLease runtime.handle key) rfl hadded
            | revoke other =>
              exact hexec other (h runtime admitted _ hbefore other mem_cons_self) hadded
          · exact h runtime admitted _ hbefore action (mem_cons_of_mem _ hlater)
      | finishing _ _ before => cases before <;> cases hserving
    · rw [heq]
      exact h
  | firstRequest | createLease =>
    refine revoking_onActor h fun _ _ _ _ _ hserving action haction => ?_
    cases hserving
    cases haction
  | expireLeases =>
    refine revoking_onActor h fun _ _ _ _ _ hserving action haction => ?_
    cases hserving
    obtain ⟨_, -, hkey⟩ := List.mem_map.mp haction
    cases hkey
  | revokeLease =>
    refine revoking_onActor h fun _ _ _ _ _ hserving action haction => ?_
    cases hserving
    split at haction
    · cases List.mem_singleton.mp haction
      rfl
    · cases haction
  | lose =>
    refine revoking_onActor h fun _ _ _ _ _ hserving action haction => ?_
    split at hserving
    · cases hserving
      cases haction
    · cases hserving

theorem lease_retired {p' : Presenter P L} {s : ServiceShared P L} {result : Option (Lease L)}
    (hretired : p.shared.retireLease key = (s, result)) (hp' : p'.shared.registry = s.registry) :
    p'.lease? key = none := by
  unfold lease?
  rw [hp']
  rcases p.shared.retireLease_cases key with ⟨hnone, heq⟩ | ⟨_, _, -, heq, -, hleases, -⟩
  · cases heq.symm.trans hretired
    exact hnone
  · cases heq.symm.trans hretired
    rw [hleases, lookup_erase, if_pos rfl]

theorem registry_retireLease (s : ServiceShared P L) (now issuer : ℕ) (key : LeaseKey) :
    ((Finishing.retireLease issuer key).exec lost clean now s).1.registry =
      (s.retireLease key).1.registry := by
  dsimp only [Finishing.exec]
  split <;> (rename_i heq; rw [heq])

/-- What is about to be taken back stays so, until it is. -/
theorem pending_step (D : Delegation L) (act : Act P L) (h : p.Pending key) :
    (p.step D act).Pending key ∨ (p.step D act).lease? key = none := by
  obtain ⟨lost, clean, sections, issuer, hmem, hlost, hretire⟩ := h
  rcases finishing_step hmem with hstays | ⟨_, _, _, rfl, i, _, -, hparty, hstep⟩
  · exact Or.inl ⟨lost, clean, sections, issuer, hstays, hlost, hretire⟩
  rw [hstep]
  rcases List.mem_cons.mp hretire with rfl | hlater
  · right
    exact lease_retired rfl (registry_retireLease p.shared _ issuer key)
  · refine Or.inl ⟨lost, clean, _, issuer, mem_set ?_ _, hlost, ?_⟩
    · exact (List.getElem?_eq_some_iff.mp hparty).1
    · exact mem_append_right _ hlater

/-! ### The published sessions -/

/-- How the session under a number may change: its connection publishes it, or the lease that it
was published under goes, or the finish of a session of that number unregisters it. -/
inductive Republishes (D : Delegation L) (p : Presenter P L) (act : Act P L) (n : ℕ) : Prop where
  | same (h : (p.step D act).shared.registry.sessions.lookup n =
      p.shared.registry.sessions.lookup n)
  | published {runtime : SessionRuntime L} {party : Party L}
      (hruntime : (p.step D act).shared.registry.sessions.lookup n = some runtime)
      (hparty : party ∈ (p.step D act).parties) (hnumber : party.number? = some (n, runtime.lease))
  | retired {key : LeaseKey} {lease : Lease L} {child : SessionIdentity}
      (hlease : p.lease? key = some lease) (hchild : lease.child = some child)
      (hn : child.sessionId = n) (hgone : (p.step D act).lease? key = none)
  | unregistered {lost : SessionRuntime L} {clean : Bool} {action : Finishing L}
      {rest : List (Finishing L)} {age : ℕ}
      (hadvances : p.Advances D act lost clean action rest age)
      (hn : lost.identity.sessionId = n)
      (h : action = .unregister ∨ action = .awaitFirst ∧ ∀ key lease, lost.lease = some key →
        (p.step D act).lease? key = some lease → lease.awaitingFirst = true)

theorem republishes_retire {n : ℕ} (key : LeaseKey)
    (h : (p.step D act).shared.registry = (p.shared.retireLease key).1.registry) :
    p.Republishes D act n := by
  have hgone := lease_retired rfl h
  rcases p.shared.retireLease_cases key with ⟨-, heq⟩ | ⟨_, _, hlease, heq, -, -, hsessions⟩
  · rw [heq] at h
    exact .same (congrArg (·.sessions.lookup n) h)
  · rw [heq] at h
    rcases hsessions n with hsame | ⟨_, hchild, hn⟩
    · exact .same ((congrArg (·.sessions.lookup n) h).trans hsame)
    · exact .retired hlease hchild hn hgone

theorem republishes_finishing {n age : ℕ} {action : Finishing L} {rest : List (Finishing L)}
    (hadvances : p.Advances D act lost clean action rest age) : p.Republishes D act n := by
  have hnext := hadvances
  obtain ⟨i, _, -, _, hstep⟩ := hnext
  have h := Finishing.turns_exec lost clean (p.clock - age) p.shared action
  generalize action.exec lost clean (p.clock - age) p.shared = result at h hstep
  have hsame : result.1.registry.sessions.lookup n = p.shared.registry.sessions.lookup n →
      p.Republishes D act n := by
    intro h
    refine .same ?_
    rw [hstep]
    exact h
  have hother : ∀ registry : Registry L, lost.identity.sessionId ≠ n →
      (registry.removeSession lost.identity.sessionId).sessions.lookup n =
        registry.sessions.lookup n := by
    intro _ hn
    rw [sessions_removeSession, lookup_erase, if_neg (Ne.symm hn)]
  cases h with
  | same hregistry => exact hsame (congrArg (·.sessions.lookup n) hregistry)
  | confirmed | suspended => exact hsame rfl
  | unregistered hkey _ hawaiting =>
    by_cases hn : lost.identity.sessionId = n
    · refine .unregistered hadvances hn (Or.inr ⟨rfl, fun other lease hother hlease => ?_⟩)
      cases hkey.symm.trans hother
      unfold lease? at hlease
      rw [hstep] at hlease
      change (Registry.removeSession _ _).leases.lookup _ = some lease at hlease
      rw [ServiceShared.leases_removeSession] at hlease
      cases lookup_insert_self.symm.trans hlease
      exact hawaiting
    · exact hsame (hother _ hn)
  | @retired _ key =>
    refine republishes_retire key ?_
    rw [hstep]
  | unregister =>
    by_cases hn : lost.identity.sessionId = n
    · exact .unregistered hadvances hn (Or.inl rfl)
    · exact hsame (hother _ hn)

theorem republishes_decides {n age : ℕ} {principal : Principal L} {hello : L.Hello}
    {candidate : Candidate L}
    (hparty : p.parties[i]? = some (.establishing (.authenticated principal hello))) :
    p.Republishes D (.advance i age candidate) n := by
  have hdecides := p.shared.decides_establish p.clock principal hello candidate
  rcases hestablish : p.shared.establish p.clock principal hello candidate with
    ⟨shared, published⟩
  have hstep : p.step D (.advance i age candidate) = { p with
      shared
      parties := p.parties.set i (published.elim (.establishing .refused) fun runtime =>
        .serving runtime false []) } := by
    dsimp only [step]
    unfold onParty
    rw [hparty]
    dsimp only [Party.advance, Establishing.exec]
    rw [hestablish]
    cases published <;> rfl
  rw [hestablish] at hdecides
  have hsame : shared.registry.sessions = p.shared.registry.sessions →
      p.Republishes D (.advance i age candidate) n := by
    intro h
    refine .same ?_
    rw [hstep]
    exact congrArg (SortedMap.lookup · n) h
  cases hdecides with
  | nothing hregistry => exact hsame (congrArg Registry.sessions hregistry)
  | refused _ _ _ hsessions => exact hsame hsessions
  | @decided s' lease lease' machine attempt decision result hprior hattempt hdecide hreserves
      hleases hnext hsessions =>
    rcases hsessions with ⟨-, hsessions⟩ | ⟨runtime, rfl, hid, _, hsessions⟩
    · exact hsame hsessions
    by_cases hn : n = decision.sessionId
    · have hpublished : (p.step D (.advance i age candidate)).shared.registry.sessions.lookup n =
          some runtime := by
        rw [hstep, hn]
        exact (congrArg (SortedMap.lookup · decision.sessionId) hsessions).trans
          lookup_insert_self
      have hnumber : (Party.serving runtime false []).number? = some (n, runtime.lease) :=
        congrArg some (Prod.ext (hid.trans hn.symm) rfl)
      refine .published hpublished ?_ hnumber
      rw [hstep]
      exact mem_set (List.getElem?_eq_some_iff.mp hparty).1 _
    · refine .same ?_
      rw [hstep]
      dsimp only
      rw [hsessions, lookup_insert_of_ne hn]

theorem republishes_step (hrevoking : p.Revoking) (act : Act P L) (n : ℕ) :
    p.Republishes D act n := by
  have hactor : ∀ i work, p.step D act = p.onActor i work → (∀ runtime admitted,
      (work p.shared runtime admitted).1.registry.sessions = p.shared.registry.sessions) →
        p.Republishes D act n := by
    intro i work hstep hwork
    refine .same ?_
    rw [hstep]
    rcases p.onActor_cases i work with ⟨runtime, admitted, -, heq⟩ | heq
    · rw [heq]
      exact congrArg (SortedMap.lookup · n) (hwork runtime admitted)
    · rw [heq]
  cases act with
  | connectRoot hello candidate =>
    obtain ⟨-, hroot⟩ := p.shared.establishRoot_cases D hello candidate
    rcases hestablish : p.shared.establishRoot D hello candidate with ⟨shared, _ | runtime⟩
    · rw [hestablish] at hroot
      obtain ⟨-, hregistry, -⟩ := hroot.resolve_right (by rintro ⟨runtime, hnone, -⟩; cases hnone)
      refine .same ?_
      dsimp only [step]
      rw [hestablish]
      exact congrArg (·.sessions.lookup n) hregistry
    · rw [hestablish] at hroot
      obtain ⟨_, hsome, hid, _, -, hsessions⟩ :=
        hroot.resolve_left (by rintro ⟨hnone, -⟩; cases hnone)
      cases hsome
      have hstep : p.step D (.connectRoot hello candidate) =
          { p with shared }.connect (.serving runtime false []) := by
        dsimp only [step]
        rw [hestablish]
      by_cases hn : n = p.shared.nextSession
      · have hpublished : (p.step D (.connectRoot hello candidate)).shared.registry.sessions.lookup
            n = some runtime := by
          rw [hstep, hn]
          exact (congrArg (SortedMap.lookup · p.shared.nextSession) hsessions).trans
            lookup_insert_self
        have hnumber : (Party.serving runtime false []).number? = some (n, runtime.lease) :=
          congrArg some (Prod.ext (hid.trans hn.symm) rfl)
        refine .published hpublished ?_ hnumber
        rw [hstep]
        exact mem_append_right _ (mem_singleton_self _)
      · refine .same ?_
        rw [hstep]
        change shared.registry.sessions.lookup n = _
        dsimp only at hsessions
        rw [hsessions, lookup_insert_of_ne hn]
  | advance i age candidate =>
    rcases p.onParty_cases i (Party.advance p.clock age candidate) with ⟨party, hparty, heq⟩ | heq
    · have hstep : p.step D (.advance i age candidate) = _ := heq
      cases party with
      | establishing stage =>
        by_cases hstage : ∃ principal hello, stage = .authenticated principal hello
        · obtain ⟨principal, hello, rfl⟩ := hstage
          exact republishes_decides hparty
        · refine .same ?_
          rw [hstep]
          dsimp only
          rw [(uses_establishing (fun _ => none) p.clock age candidate
            (fun principal hello h => hstage ⟨principal, hello, h⟩)
            (mem_of_getElem? hparty)).1]
      | serving runtime admitted tasks =>
        cases tasks with
        | nil =>
          refine .same ?_
          rw [hstep]
          rfl
        | cons task =>
          have hmem := mem_of_getElem? hparty
          rcases Task.exec_cases runtime (p.clock - age) p.shared task fun action h =>
            hrevoking runtime admitted _ hmem action (h ▸ mem_cons_self) with
            hsame | ⟨key, hretired⟩
          · refine .same ?_
            rw [hstep]
            exact congrArg (·.sessions.lookup n) hsame
          · refine republishes_retire key ?_
            rw [hstep]
            exact hretired
      | finishing _ _ sections =>
        cases sections with
        | nil =>
          refine .same ?_
          rw [hstep]
          rfl
        | cons => exact republishes_finishing ⟨i, candidate, rfl, hparty, hstep⟩
    · refine .same ?_
      dsimp only [step]
      rw [heq]
  | firstRequest i =>
    refine hactor i _ rfl fun runtime admitted => ?_
    cases admitted with
    | true => rfl
    | false =>
      rw [if_neg Bool.false_ne_true]
      rcases p.shared.admitPostHello_cases runtime with ⟨heq, -⟩ | ⟨_, _, -, -, heq⟩
      · rw [heq]
      · rw [heq]
        rfl
  | expireLeases i | revokeLease i => exact hactor i _ rfl fun _ _ => rfl
  | createLease i request =>
    refine hactor i _ rfl fun runtime admitted => ?_
    cases admitted with
    | false => rfl
    | true =>
      rw [if_pos rfl]
      rcases p.shared.createSessionLease_cases D runtime request p.clock with
        heq | ⟨_, -, hsessions, -⟩
      · rw [heq]
      · exact hsessions
  | lose i =>
    refine hactor i _ rfl fun runtime admitted => ?_
    split <;> rfl
  | _ => exact .same rfl

end Presenter

end Vivido.Service
