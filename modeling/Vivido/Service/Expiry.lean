import Vivido.Service.Writing
import Vivido.Support.Since

/-!
The expiry of leases. An issuer's actor collects the keys of its expired leases
in one section and takes the leases away in later ones, without a second look at
their deadlines. So what another connection does to a collected lease meanwhile
is undone by its removal.
-/

namespace Vivido.Service

open Scene List

variable {P : Protocol} {L : LeaseProtocol}

/-- The lease whose removal as expired is still to come. -/
def Task.collected : Task L → Option LeaseKey
  | .explainExpiry key | .expire key _ => some key
  | .revoke _ => none

def Party.collected : Party L → List LeaseKey
  | .serving _ _ tasks => tasks.filterMap Task.collected
  | _ => []

namespace Presenter

variable {D : Delegation L} {p : Presenter P L} {act : Act P L} {key : LeaseKey}

/-- An issuer has collected the key as that of an expired lease, and will remove the lease. -/
def Collected (p : Presenter P L) (key : LeaseKey) : Prop :=
  ∃ (i : ℕ) (party : Party L), p.parties[i]? = some party ∧ key ∈ party.collected

/-- The lease that is removed next as expired. -/
def expires (p : Presenter P L) : Act P L → Option LeaseKey
  | .advance i _ _ =>
    match p.parties[i]? with
    | some (.serving _ _ (.expire key _ :: _)) => some key
    | _ => none
  | _ => none

/-- The lease that is written or created next stands unexpired thereafter. -/
def Renews (D : Delegation L) (p : Presenter P L) (act : Act P L) (key : LeaseKey) : Prop :=
  (p.writes act = some key ∨ p.creates act = some key) ∧
    ∃ lease, (p.step D act).lease? key = some lease ∧ lease.expired p.clock = false

/-- A lease that is removed as expired is expired. -/
def RemovesExpired (p : Presenter P L) (act : Act P L) : Prop :=
  ∀ key lease, p.expires act = some key → p.lease? key = some lease → lease.expired p.clock = true

/-- No lease that waits for its removal as expired is renewed. -/
def LeavesExpired (D : Delegation L) (p : Presenter P L) (act : Act P L) : Prop :=
  ∀ key, p.Collected key → ¬ p.Renews D act key

instance (p : Presenter P L) (act : Act P L) (key : LeaseKey) : Decidable (p.Renews D act key) :=
  decidable_of_iff ((p.writes act = some key ∨ p.creates act = some key) ∧
    ((p.step D act).lease? key).any (fun lease => lease.expired p.clock = false) = true) <| by
      unfold Renews
      simp only [Option.any_eq_true, decide_eq_true_eq]

instance (p : Presenter P L) (act : Act P L) : Decidable (p.LeavesExpired D act) :=
  decidable_of_iff (∀ key ∈ p.parties.flatMap Party.collected, ¬ p.Renews D act key) <| by
    refine forall_congr' fun key => ?_
    have hiff : key ∈ p.parties.flatMap Party.collected ↔ p.Collected key := by
      rw [mem_flatMap]
      constructor
      · rintro ⟨party, hparty, hkey⟩
        obtain ⟨i, hi⟩ := List.mem_iff_getElem?.mp hparty
        exact ⟨i, party, hi, hkey⟩
      · rintro ⟨i, party, hparty, hkey⟩
        exact ⟨party, mem_of_getElem? hparty, hkey⟩
    rw [hiff]

theorem expired_mono {lease : Lease L} {now later : ℕ} (hle : now ≤ later)
    (h : lease.expired now = true) : lease.expired later = true := by
  unfold Lease.expired at h ⊢
  split at h
  · exact decide_eq_true (le_trans (of_decide_eq_true h) hle)
  · exact decide_eq_true (le_trans (of_decide_eq_true h) hle)
  · rw [Bool.and_eq_true] at h ⊢
    exact ⟨h.1, decide_eq_true (le_trans (of_decide_eq_true h.2) hle)⟩
  · rw [Option.any_eq_true] at h ⊢
    obtain ⟨deadline, hdeadline, hle'⟩ := h
    exact ⟨deadline, hdeadline, decide_eq_true (le_trans (of_decide_eq_true hle') hle)⟩
  · exact h

/-- Work on the leases that are taken back collects nothing. -/
theorem filterMap_collected_revoke (added : List (Finishing L)) :
    (added.map Task.revoke).filterMap Task.collected = [] := by
  induction added with
  | nil => rfl
  | cons _ _ ih => exact ih

theorem collected_exec {issuer : SessionRuntime L} {now : ℕ} {s : ServiceShared P L} {task : Task L}
    (h : key ∈ (task.exec issuer now s).2.filterMap Task.collected) :
    task.collected = some key := by
  cases task with
  | explainExpiry =>
    rw [List.mem_singleton.mp h]
    rfl
  | expire | revoke =>
    change key ∈ (List.map Task.revoke _).filterMap Task.collected at h
    rw [filterMap_collected_revoke] at h
    cases h

variable {party : Party L}

theorem collected_advance {clock age : ℕ} {candidate : Candidate L} {s : ServiceShared P L}
    (h : key ∈ (party.advance clock age candidate s).2.collected) : key ∈ party.collected := by
  cases party with
  | establishing =>
    dsimp only [Party.advance] at h
    split at h <;> cases h
  | serving runtime _ tasks =>
    cases tasks with
    | nil => exact h
    | cons task tasks =>
      change key ∈ ((task.exec runtime (clock - age) s).2 ++ tasks).filterMap Task.collected at h
      rw [filterMap_append, mem_append] at h
      change key ∈ (task :: tasks).filterMap Task.collected
      rw [mem_filterMap]
      rcases h with h | h
      · exact ⟨task, mem_cons_self, collected_exec h⟩
      · obtain ⟨other, hother, hkey⟩ := List.mem_filterMap.mp h
        exact ⟨other, mem_cons_of_mem task hother, hkey⟩
  | finishing _ _ sections => cases sections <;> cases h

theorem collected_set {i : ℕ} {shared : ServiceShared P L}
    (h : Collected { p with shared, parties := p.parties.set i party } key) :
    key ∈ party.collected ∨ p.Collected key := by
  obtain ⟨j, other, hother, hkey⟩ := h
  change (p.parties.set i party)[j]? = some other at hother
  rw [getElem?_set] at hother
  split at hother
  · split at hother
    · cases hother
      exact Or.inl hkey
    · cases hother
  · exact Or.inr ⟨j, other, hother, hkey⟩

theorem collected_connect (hparty : party.collected = []) (h : (p.connect party).Collected key) :
    p.Collected key := by
  obtain ⟨j, other, hother, hkey⟩ := h
  change (p.parties ++ [party])[j]? = some other at hother
  rw [getElem?_append] at hother
  split at hother
  · exact ⟨j, other, hother, hkey⟩
  · rw [List.mem_singleton.mp (mem_of_getElem? hother), hparty] at hkey
    cases hkey

theorem collected_onActor {i : ℕ}
    {work : ServiceShared P L → SessionRuntime L → Bool → ServiceShared P L × Party L}
    (hwork : ∀ runtime admitted, key ∉ (work p.shared runtime admitted).2.collected)
    (h : (p.onActor i work).Collected key) : p.Collected key := by
  rcases p.onActor_cases i work with ⟨runtime, admitted, -, heq⟩ | heq
  · rw [heq] at h
    exact (collected_set h).resolve_left (hwork runtime admitted)
  · rwa [heq] at h

/-- A key that is collected anew stands for a lease that has just been found expired. -/
theorem collected_step (h : (p.step D act).Collected key) :
    p.Collected key ∨ ∀ lease, (p.step D act).lease? key = some lease →
      lease.expired p.clock = true := by
  cases act with
  | pass | elsewhere => exact Or.inl h
  | activate | resume => exact Or.inl (collected_connect rfl h)
  | connectRoot =>
    left
    dsimp only [step] at h
    split at h
    · exact h
    · exact collected_connect rfl h
  | advance i age candidate =>
    left
    dsimp only [step] at h
    rcases p.onParty_cases i (Party.advance p.clock age candidate) with ⟨party, hparty, heq⟩ | heq
    · rw [heq] at h
      rcases collected_set h with h | h
      · exact ⟨i, party, hparty, collected_advance h⟩
      · exact h
    · rwa [heq] at h
  | firstRequest | createLease => exact Or.inl (collected_onActor (fun _ _ h => by cases h) h)
  | revokeLease =>
    refine Or.inl (collected_onActor (fun runtime admitted h => ?_) h)
    dsimp only [Party.collected] at h
    split at h <;> cases h
  | lose =>
    refine Or.inl (collected_onActor (fun runtime admitted h => ?_) h)
    split at h <;> cases h
  | expireLeases i age =>
    dsimp only [step] at h ⊢
    rcases p.onActor_cases i _ with ⟨_, _, _, heq⟩ | heq
    · rw [heq] at h ⊢
      rcases collected_set h with h | h
      · right
        intro lease hlease
        dsimp only [Party.collected] at h
        obtain ⟨_, htask, hkey⟩ := List.mem_filterMap.mp h
        obtain ⟨_, hother, rfl⟩ := List.mem_map.mp htask
        cases hkey
        obtain ⟨entry, hentry, rfl⟩ := List.mem_map.mp (List.mem_filter.mp hother).1
        obtain ⟨hmem, hexpired⟩ := List.mem_filter.mp hentry
        have hfound := SortedMap.mem_entries.mp hmem
        have hsame : entry.2 = lease := Option.some.inj (hfound.symm.trans hlease)
        rw [← hsame]
        exact expired_mono (Nat.sub_le p.clock age) hexpired
      · exact Or.inl h
    · rw [heq] at h
      exact Or.inl h

theorem clock_step (D : Delegation L) (p : Presenter P L) (act : Act P L) :
    p.clock ≤ (p.step D act).clock := by
  have hactor : ∀ i work, (p.onActor i work).clock = p.clock := by
    intro i work
    rcases p.onActor_cases i work with ⟨_, _, -, heq⟩ | heq <;> rw [heq]
  cases act with
  | pass => exact Nat.le_add_right _ _
  | advance i age candidate =>
    dsimp only [step]
    rcases p.onParty_cases i (Party.advance p.clock age candidate) with ⟨_, -, heq⟩ | heq <;>
      rw [heq]
  | connectRoot =>
    dsimp only [step]
    split <;> exact le_rfl
  | firstRequest i | expireLeases i | createLease i | revokeLease i | lose i =>
    exact (hactor i _).ge
  | _ => exact le_rfl

/-- Each lease that waits for its removal as expired is expired. -/
def Overdue (p : Presenter P L) : Prop :=
  ∀ key, p.Collected key → ∀ lease, p.lease? key = some lease → lease.expired p.clock = true

theorem Overdue.step (h : p.Overdue) (hleaves : p.LeavesExpired D act) :
    (p.step D act).Overdue := by
  intro key hcollected lease hlease
  refine expired_mono (clock_step D p act) ?_
  rcases collected_step hcollected with hbefore | hnow
  · by_cases hwritten : p.writes act = some key ∨ p.creates act = some key
    · by_contra hexpired
      exact hleaves key hbefore ⟨hwritten, lease, hlease, Bool.not_eq_true _ ▸ hexpired⟩
    · rw [not_or] at hwritten
      obtain ⟨prior, hprior, hsame⟩ := (lease_step hlease).resolve_left hwritten.2
      rw [hsame hwritten.1]
      exact h key hbefore prior hprior
  · exact hnow lease hlease

theorem Overdue.removesExpired (h : p.Overdue) (act : Act P L) : p.RemovesExpired act := by
  intro key lease hexpires hlease
  refine h key ?_ lease hlease
  cases act with
  | advance i age candidate =>
    dsimp only [expires] at hexpires
    split at hexpires
    · rename_i hparty
      cases hexpires
      exact ⟨i, _, hparty, mem_cons_self⟩
    · cases hexpires
  | _ => cases hexpires

/-- Where no collected lease is renewed before its removal, every lease that is removed as expired
is expired as it is removed. -/
theorem expiry_removes_expired (D : Delegation L) (start : ServiceShared P L)
    (history : List (Act P L)) (h : Throughout (run D start) (LeavesExpired D) history) :
    Throughout (run D start) RemovesExpired history := by
  have hfine : Throughout id (fun history => (run D start history).RemovesExpired) history := by
    refine h.of_invariant (fun history => (run D start history).Overdue) ?_ ?_ ?_
    · rintro _ ⟨i, _, hparty, -⟩
      cases hparty
    · intro history act hoverdue hleaves
      rw [run_concat]
      exact hoverdue.step hleaves
    · exact fun history act hoverdue => hoverdue.removesExpired act
  exact hfine

section Running

/-- A lease that its child has a while to activate, and to resume. -/
def shortRequest : LeaseRequest .plain where
  contextId := 1
  leaseId := 7
  definition :=
    { activationVerifier := (40 : ℕ)
      activationTimeoutUs := 10
      requestedDisconnectGraceUs := 5
      suspendOnUncleanLoss := true
      permittedProfiles := [] }
  requestedContract := (0 : ℕ)

def candidate (sessionTag : ℕ) : Candidate .plain := ⟨(9 : ℕ), sessionTag, sessionTag, true⟩

/-- A root session delegates to a child, which is lost and suspended. -/
def suspendingRun : List (Act .plain .plain) :=
  [.connectRoot (1 : ℕ) (candidate 100), .firstRequest 0, .createLease 0 shortRequest,
    .activate 1 7 (40 : ℕ) (5 : ℕ), .advance 1 0 (candidate 200), .advance 1 0 (candidate 200),
    .firstRequest 1, .lose 1 false] ++ List.replicate 8 (.advance 1 0 (candidate 200))

/-- The child's resume is authenticated before its grace ends, and answered after the issuer has
found the lease expired. -/
def resumingRun : List (Act .plain .plain) :=
  suspendingRun ++ [.pass 4, .resume 1 7 2 0 (6 : ℕ), .advance 2 0 (candidate 300),
    .advance 2 0 (candidate 300), .pass 1, .expireLeases 0 0, .advance 2 0 (candidate 300),
    .advance 0 0 (candidate 0)]

/-- The expiry removes the lease of a child that has resumed. -/
theorem resumed_lease_expired : ¬ ∀ (D : Delegation .plain) (start : ServiceShared .plain .plain)
      (history : List (Act .plain .plain)), Throughout (run D start) RemovesExpired history := by
  intro h
  have hremoves := (h .plain .idle (resumingRun ++ [.advance 0 0 (candidate 0)])).at_end
  have hexpires : (run .plain .idle resumingRun).expires (.advance 0 0 (candidate 0)) =
      some ⟨⟨1, 1⟩, 1, 7⟩ := by decide +kernel
  have hunexpired : ((run .plain .idle resumingRun).lease? ⟨⟨1, 1⟩, 1, 7⟩).any (fun lease =>
      lease.expired (run .plain .idle resumingRun).clock = false) = true := by decide +kernel
  obtain ⟨lease, hlease, hexpired⟩ := (Option.any_eq_true _ _).mp hunexpired
  rw [hremoves _ lease hexpires hlease] at hexpired
  cases hexpired

/-- The child does not come back before its lease is removed. -/
def expiringRun : List (Act .plain .plain) :=
  suspendingRun ++ [.pass 5, .expireLeases 0 0, .advance 0 0 (candidate 0),
    .advance 0 0 (candidate 0)]

theorem expiry_removes_expired_lost :
    Throughout (run .plain ServiceShared.idle) RemovesExpired expiringRun :=
  expiry_removes_expired .plain .idle expiringRun (by decide +kernel)

end Running

end Presenter

end Vivido.Service
