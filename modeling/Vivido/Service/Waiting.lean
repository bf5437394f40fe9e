import Vivido.Service.Writing

/-!
Which leases wait on time, and until when. The deadline of a lease is the time
from which on it is expired. An issuer that comes to its leases then takes the
lease back, and releases what the lease held once.
-/

namespace Vivido.Service

open Scene SortedMap List

variable {P : Protocol} {L : LeaseProtocol} {leases : LeaseTable L} {key : LeaseKey}
  {lease : Lease L} {due : ℕ}

/-- The deadline which next requires service, when this lease is waiting on time. -/
def Lease.deadline (lease : Lease L) : Option ℕ :=
  match L.state lease.machine with
  | .issued | .reserved => some lease.activationDeadline
  | .active => if lease.awaitingFirst then some lease.activationDeadline else none
  | .suspended => lease.graceDeadline
  | .other _ => none

/-- Earliest activation or grace deadline owned by one issuer. -/
def LeaseTable.nextDeadline (leases : LeaseTable L) (issuer : SessionIdentity) : Option ℕ :=
  ((leases.entries.filter (·.1.issuer = issuer)).filterMap (·.2.deadline)).min?

theorem Lease.expired_iff (h : lease.deadline = some due) (now : ℕ) :
    lease.expired now = true ↔ due ≤ now := by
  unfold Lease.deadline at h
  unfold Lease.expired
  cases hstate : L.state lease.machine with
  | issued | reserved =>
    rw [hstate] at h
    cases h
    exact decide_eq_true_iff
  | active =>
    rw [hstate] at h
    dsimp only at h ⊢
    by_cases hawaiting : lease.awaitingFirst = true
    · rw [if_pos hawaiting] at h
      cases h
      rw [hawaiting, Bool.true_and]
      exact decide_eq_true_iff
    · rw [if_neg hawaiting] at h
      cases h
  | suspended =>
    rw [hstate] at h
    dsimp only at h ⊢
    rw [h, Option.any_some]
    exact decide_eq_true_iff
  | other =>
    rw [hstate] at h
    cases h

theorem LeaseTable.nextDeadline_le (hlease : leases.lookup key = some lease)
    (h : lease.deadline = some due) :
    ∃ next, leases.nextDeadline key.issuer = some next ∧ next ≤ due := by
  have hmem : due ∈
      (leases.entries.filter (·.1.issuer = key.issuer)).filterMap (·.2.deadline) := by
    apply List.mem_filterMap.mpr
    refine ⟨(key, lease), ?_, h⟩
    exact List.mem_filter.mpr ⟨mem_entries.mpr hlease, decide_eq_true rfl⟩
  unfold LeaseTable.nextDeadline
  cases hmin : ((leases.entries.filter (·.1.issuer = key.issuer)).filterMap
      (·.2.deadline)).min? with
  | none =>
    rw [min?_eq_none_iff] at hmin
    rw [hmin] at hmem
    cases hmem
  | some next => exact ⟨next, rfl, (List.min?_eq_some_iff.mp hmin).2 due hmem⟩

/-! ### What an expiry takes back -/

/-- What the leases under the keys hold of the contexts of their issuer. -/
def reservations (leases : LeaseTable L) (keys : List LeaseKey) : List (ℕ × L.Contract) :=
  keys.filterMap fun key => (leases.lookup key).map fun lease => (key.contextId, lease.contract)

namespace ServiceShared

variable (s : ServiceShared P L) (issuer : SessionRuntime L)

/-- The reservations are released, one after the other. -/
def releaseAll (issuer : ℕ) (reserved : List (ℕ × L.Contract)) : ServiceShared P L :=
  reserved.foldl (fun s (contextId, contract) => s.releaseCapacity issuer contextId contract) s

def expiredOf (session : SessionIdentity) (now : ℕ) : List LeaseKey :=
  (LeaseTable.expired s.registry.leases now).filter (·.issuer = session)

/-- Drop the expired leases of a session. -/
def expireLeases (now : ℕ) : ServiceShared P L :=
  (s.expiredOf issuer.identity now).foldl (fun s key => s.revokeLease issuer.handle key) s

variable {s} {issuer}

theorem lookup_revokeLease (issuer : ℕ) (key other : LeaseKey) :
    (s.revokeLease issuer key).registry.leases.lookup other =
      if other = key then none else s.registry.leases.lookup other := by
  unfold revokeLease retireLease
  cases hlease : s.registry.leases.lookup key with
  | none =>
    dsimp only
    split
    · rename_i heq
      rw [heq, hlease]
    · rfl
  | some lease =>
    dsimp only
    cases hchild : lease.child with
    | none => exact lookup_erase
    | some =>
      dsimp only
      change (Registry.removeSession _ _).leases.lookup other = _
      rw [leases_removeSession]
      exact lookup_erase

theorem connections_revokeLease (issuer : ℕ) (key : LeaseKey) :
    (s.revokeLease issuer key).connections =
      (s.releaseAll issuer (reservations s.registry.leases [key])).connections := by
  unfold revokeLease retireLease reservations
  cases hlease : s.registry.leases.lookup key with
  | none =>
    rw [filterMap_cons_none (by rw [hlease]; rfl)]
    rfl
  | some lease =>
    rw [filterMap_cons_some (by rw [hlease]; rfl)]
    dsimp only
    cases hchild : lease.child with
    | none | some => rfl

theorem connections_releaseAll {s' : ServiceShared P L} (h : s'.connections = s.connections)
    (issuer : ℕ) (reserved : List (ℕ × L.Contract)) :
    (s'.releaseAll issuer reserved).connections = (s.releaseAll issuer reserved).connections := by
  induction reserved generalizing s s' with
  | nil => exact h
  | cons _ _ ih =>
    refine ih ?_
    unfold releaseCapacity
    dsimp only
    rw [h]

theorem connections_revokeAll (issuer : ℕ) {keys : List LeaseKey} (hnodup : keys.Nodup) :
    (keys.foldl (fun s key => s.revokeLease issuer key) s).connections =
      (s.releaseAll issuer (reservations s.registry.leases keys)).connections := by
  induction keys generalizing s with
  | nil => rfl
  | cons key keys ih =>
    obtain ⟨hnot, hnodup⟩ := List.nodup_cons.mp hnodup
    have hothers : reservations (s.revokeLease issuer key).registry.leases keys =
        reservations s.registry.leases keys := by
      refine filterMap_congr fun other hother => ?_
      rw [lookup_revokeLease, if_neg]
      rintro rfl
      exact hnot hother
    have hsplit : reservations s.registry.leases (key :: keys) =
        reservations s.registry.leases [key] ++ reservations s.registry.leases keys :=
      (congrArg _ (singleton_append (x := key)).symm).trans filterMap_append
    rw [foldl_cons, ih hnodup, hothers, hsplit]
    unfold releaseAll at *
    rw [foldl_append]
    exact connections_releaseAll (connections_revokeLease issuer key) issuer _

theorem lookup_revokeAll (issuer : ℕ) (keys : List LeaseKey) (other : LeaseKey) :
    (keys.foldl (fun s key => s.revokeLease issuer key) s).registry.leases.lookup other =
      if other ∈ keys then none else s.registry.leases.lookup other := by
  induction keys generalizing s with
  | nil => exact (if_neg not_mem_nil).symm
  | cons key _ ih =>
    rw [foldl_cons, ih, lookup_revokeLease]
    by_cases hkey : other = key
    · rw [if_pos hkey, ite_self, if_pos (hkey ▸ mem_cons_self)]
    · rw [if_neg hkey]
      exact if_congr (by rw [mem_cons, or_iff_right hkey]) rfl rfl

theorem nodup_expiredOf (session : SessionIdentity) (now : ℕ) :
    (s.expiredOf session now).Nodup := by
  have hsub : (LeaseTable.expired s.registry.leases now).Sublist
      (s.registry.leases.entries.map Prod.fst) := List.filter_sublist.map Prod.fst
  exact (hsub.nodup s.registry.leases.nodup_keys).filter _

theorem mem_expiredOf {now : ℕ} (hlease : s.registry.leases.lookup key = some lease)
    (h : lease.expired now = true) : key ∈ s.expiredOf key.issuer now := by
  apply List.mem_filter.mpr
  refine ⟨List.mem_map.mpr ⟨(key, lease), ?_, rfl⟩, decide_eq_true rfl⟩
  exact List.mem_filter.mpr ⟨mem_entries.mpr hlease, h⟩

/-- A lease is taken back, and what it holds is released once, beside what others hold. -/
def TakenBack (before after : ServiceShared P L) (issuer : ℕ) (key : LeaseKey) : Prop :=
  after.registry.leases.lookup key = none ∧
    ∃ keys : List LeaseKey, keys.count key = 1 ∧
      after.connections =
        (before.releaseAll issuer (reservations before.registry.leases keys)).connections

theorem takenBack_expireLeases {now : ℕ} (hissuer : issuer.identity = key.issuer)
    (hlease : s.registry.leases.lookup key = some lease) (h : lease.expired now = true) :
    TakenBack s (s.expireLeases issuer now) issuer.handle key := by
  have hnodup := nodup_expiredOf (s := s) issuer.identity now
  have hmem := mem_expiredOf hlease h
  rw [← hissuer] at hmem
  refine ⟨?_, s.expiredOf issuer.identity now, count_eq_one_of_mem hnodup hmem, ?_⟩
  · unfold expireLeases
    rw [lookup_revokeAll, if_pos hmem]
  · exact connections_revokeAll issuer.handle hnodup

end ServiceShared

/-! ### How an issuer's actor does it -/

namespace Presenter

variable {D : Delegation L} {p q : Presenter P L} {i : ℕ} {issuer : SessionRuntime L}
  {admitted : Bool} {task : Task L} {tasks : List (Task L)} {candidate : Candidate L}

/-- What a connection makes of the presenter, where it alone goes on. -/
def advanceAlone (D : Delegation L) (p : Presenter P L) (i : ℕ) (candidate : Candidate L)
    (n : ℕ) : Presenter P L :=
  (List.replicate n (Act.advance i 0 candidate)).foldl (step D) p

theorem advanceAlone_succ (n : ℕ) :
    p.advanceAlone D i candidate (n + 1) =
      (p.step D (.advance i 0 candidate)).advanceAlone D i candidate n := rfl

theorem advanceAlone_add (m n : ℕ) : p.advanceAlone D i candidate (m + n) =
      (p.advanceAlone D i candidate m).advanceAlone D i candidate n := by
  unfold advanceAlone
  rw [replicate_add, foldl_append]

/-- The presenter with a share of its own, and an issuer that has these tasks. -/
def withTasks (p : Presenter P L) (i : ℕ) (issuer : SessionRuntime L) (admitted : Bool)
    (shared : ServiceShared P L) (tasks : List (Task L)) : Presenter P L :=
  { p with shared, parties := p.parties.set i (.serving issuer admitted tasks) }

theorem advance_task {shared shared' : ServiceShared P L} {added : List (Task L)}
    (hi : i < p.parties.length) (h : task.exec issuer p.clock shared = (shared', added)) (n : ℕ) :
    (p.withTasks i issuer admitted shared (task :: tasks)).advanceAlone D i candidate (n + 1) =
      (p.withTasks i issuer admitted shared' (added ++ tasks)).advanceAlone D i candidate n := by
  rw [advanceAlone_succ]
  dsimp only [step]
  unfold onParty withTasks
  rw [getElem?_set_self hi]
  dsimp only [Party.advance]
  rw [set_set, Nat.sub_zero, h]

/-- A collected lease is revoked in a few sections. -/
theorem revokes_alone (D : Delegation L) (issuer : SessionRuntime L) (admitted : Bool)
    (tasks : List (Task L)) (candidate : Candidate L) (hi : i < p.parties.length)
    (shared : ServiceShared P L) (key : LeaseKey) :
    ∃ n, (p.withTasks i issuer admitted shared (.explainExpiry key :: tasks)).advanceAlone D i
        candidate n =
      p.withTasks i issuer admitted (shared.revokeLease issuer.handle key) tasks := by
  unfold ServiceShared.revokeLease
  rcases hretired : shared.retireLease key with ⟨retired, _ | lease⟩
  · have hexpire : ∀ graceful : Bool,
        (Task.expire key graceful).exec issuer p.clock shared = (retired, []) := by
      intro graceful
      dsimp only [Task.exec, Finishing.exec]
      rw [hretired]
      rfl
    exact ⟨2, (advance_task hi rfl 1).trans (advance_task hi (hexpire _) 0)⟩
  · have hrelease : (Task.revoke (.releaseCapacity issuer.handle key.contextId
        lease.contract)).exec issuer p.clock retired =
          (retired.releaseCapacity issuer.handle key.contextId lease.contract, []) := rfl
    dsimp only
    cases hchild : lease.child with
    | none =>
      have hexpire : ∀ graceful : Bool, (Task.expire key graceful).exec issuer p.clock shared =
          (retired, [.revoke (.releaseCapacity issuer.handle key.contextId lease.contract)]) := by
        intro _
        dsimp only [Task.exec, Finishing.exec]
        rw [hretired]
        dsimp only
        rw [hchild]
        rfl
      refine ⟨3, (advance_task hi rfl 2).trans ?_⟩
      exact (advance_task hi (hexpire _) 1).trans (advance_task hi hrelease 0)
    | some child =>
      have hexpire : ∀ graceful : Bool, (Task.expire key graceful).exec issuer p.clock shared =
          (retired, [.revoke (.releaseCapacity issuer.handle key.contextId lease.contract),
            .revoke (.removeChildOverlays child), .revoke (.removeChildScene child)]) := by
        intro _
        dsimp only [Task.exec, Finishing.exec]
        rw [hretired]
        dsimp only
        rw [hchild]
        rfl
      have hoverlays : ∀ s : ServiceShared P L, (Task.revoke (.removeChildOverlays child)).exec
          issuer p.clock s = ((s.removeOverlays child).1, []) := fun _ => rfl
      have hscene : ∀ s : ServiceShared P L, (Task.revoke (.removeChildScene child)).exec
          issuer p.clock s = (s.onScene (·.removeSession child), []) := fun _ => rfl
      refine ⟨5, (advance_task hi rfl 4).trans ((advance_task hi (hexpire _) 3).trans ?_)⟩
      refine (advance_task hi hrelease 2).trans ?_
      exact (advance_task hi (hoverlays _) 1).trans (advance_task hi (hscene _) 0)

theorem revokesAll_alone (D : Delegation L) (issuer : SessionRuntime L) (admitted : Bool)
    (candidate : Candidate L) (hi : i < p.parties.length) (shared : ServiceShared P L)
    (keys : List LeaseKey) :
    ∃ n, (p.withTasks i issuer admitted shared (keys.map .explainExpiry)).advanceAlone D i
        candidate n = p.withTasks i issuer admitted
        (keys.foldl (fun s key => s.revokeLease issuer.handle key) shared) [] := by
  induction keys generalizing shared with
  | nil => exact ⟨0, rfl⟩
  | cons key keys ih =>
    obtain ⟨m, hm⟩ := revokes_alone D issuer admitted (keys.map .explainExpiry) candidate hi shared
      key
    obtain ⟨n, hn⟩ := ih (shared.revokeLease issuer.handle key)
    refine ⟨m + n, ?_⟩
    rw [advanceAlone_add, map_cons, hm, hn, foldl_cons]

/-- An actor that comes to its leases, and is left alone, drops those that have expired. -/
theorem expires_alone (hparty : p.parties[i]? = some (.serving issuer admitted []))
    (candidate : Candidate L) : ∃ n, (p.step D (.expireLeases i 0)).advanceAlone D i candidate n =
      { p with shared := p.shared.expireLeases issuer p.clock } := by
  obtain ⟨hi, hserving⟩ := List.getElem?_eq_some_iff.mp hparty
  have hcollects : p.step D (.expireLeases i 0) = p.withTasks i issuer admitted p.shared
      ((p.shared.expiredOf issuer.identity p.clock).map .explainExpiry) := by
    dsimp only [step]
    unfold onActor onParty
    rw [hparty]
    rfl
  obtain ⟨n, hn⟩ := revokesAll_alone D issuer admitted candidate hi p.shared
    (p.shared.expiredOf issuer.identity p.clock)
  refine ⟨n, ?_⟩
  rw [hcollects, hn]
  unfold withTasks
  rw [← hserving, set_getElem_self]
  rfl

end Presenter

end Vivido.Service
