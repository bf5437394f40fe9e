import Vivido.Service.Handover

/-!
The order of a finish. What comes first leaves the session's own lease alone,
then sections take the lease up, and what comes last is about the session and
what it held. So as long as a finish has not come to its last sections, the
lease is still to be taken up.
-/

namespace Vivido.Service

open Scene List

variable {P : Protocol} {L : LeaseProtocol}

namespace Finishing

/-- A section that comes before those that take up the session's own lease. -/
def isEarly : Finishing L → Bool
  | .removeOverlays | .destroySurface _ | .collectIssued | .retireLease _ _
  | .releaseCapacity _ _ _ | .removeChildOverlays _ | .removeChildScene _ => true
  | _ => false

/-- A section that comes after them. -/
def isTail : Finishing L → Bool
  | .releaseCapacity _ _ _ | .removeChildOverlays _ | .removeChildScene _ | .suspendScene
  | .stopAudio | .unregister | .removeFileDrops | .retireScene => true
  | _ => false

def isUnregister : Finishing L → Bool
  | .unregister => true
  | _ => false

/-- A section of a revocation, as an issuer's actor goes through it. -/
def isRevoking : Finishing L → Bool
  | .retireLease _ _ | .releaseCapacity _ _ _ | .removeChildOverlays _
  | .removeChildScene _ => true
  | _ => false

/-- The section takes up the lease of the session. -/
def TakesUp (lost : SessionRuntime L) (action : Finishing L) : Prop :=
  action = .awaitFirst ∨ action = .settleLease ∨ ∃ issuer key, lost.lease = some key ∧
    (action = .suspendLease issuer key ∨ action = .retireLease issuer key)

/-- The lease of the session is still to be taken up. -/
def Owes (lost : SessionRuntime L) (sections : List (Finishing L)) : Prop :=
  ∃ early action tail, sections = early ++ action :: tail ∧ (∀ a ∈ early, isEarly a = true) ∧
    action.TakesUp lost ∧ ∀ a ∈ tail, isTail a = true

variable {lost : SessionRuntime L} {clean : Bool} {now : ℕ} {s : ServiceShared P L}
  {action : Finishing L} {rest added : List (Finishing L)}

theorem isTail_closing : ∀ a ∈ (closing : List (Finishing L)), a.isTail = true := by
  intro a ha
  unfold closing at ha
  simp only [mem_cons, not_mem_nil, or_false] at ha
  rcases ha with rfl | rfl | rfl | rfl <;> rfl

/-- What the revocation of a lease goes on with. -/
theorem exec_retireLease {issuer : ℕ} {key : LeaseKey} :
    ∀ a ∈ ((.retireLease issuer key : Finishing L).exec lost clean now s).2,
      a.isEarly = true ∧ a.isTail = true ∧ a.isRevoking = true := by
  intro a ha
  dsimp only [exec] at ha
  split at ha
  · cases ha
  rcases List.mem_cons.mp ha with rfl | ha
  · exact ⟨rfl, rfl, rfl⟩
  · split at ha
    · cases ha
    · simp only [mem_cons, not_mem_nil, or_false] at ha
      rcases ha with rfl | rfl <;> exact ⟨rfl, rfl, rfl⟩

theorem isEarly_exec (h : action.isEarly = true) :
    ∀ a ∈ (action.exec lost clean now s).2, a.isEarly = true := by
  intro a ha
  cases action with
  | removeOverlays | collectIssued =>
    obtain ⟨_, -, rfl⟩ := List.mem_map.mp ha
    rfl
  | retireLease => exact (exec_retireLease a ha).1
  | destroySurface | releaseCapacity | removeChildOverlays | removeChildScene => cases ha
  | _ => cases h

theorem isTail_exec (h : action.isTail = true) : (action.exec lost clean now s).2 = [] := by
  cases action <;> first | rfl | cases h

theorem isRevoking_exec (h : action.isRevoking = true) :
    ∀ a ∈ (action.exec lost clean now s).2, a.isRevoking = true := by
  intro a ha
  cases action with
  | retireLease => exact (exec_retireLease a ha).2.2
  | releaseCapacity | removeChildOverlays | removeChildScene => cases ha
  | _ => cases h

theorem Owes.head_ne_unregister (h : Owes lost (action :: rest)) : action ≠ .unregister := by
  rintro rfl
  obtain ⟨early, _, _, heq, hearly, htakes, -⟩ := h
  cases early with
  | nil =>
    cases heq
    rcases htakes with h | h | ⟨_, _, -, h | h⟩ <;> cases h
  | cons =>
    cases heq
    cases hearly _ mem_cons_self

/-- What is owed is taken up next, or stays owed. -/
theorem Owes.cases (h : Owes lost (action :: rest)) : (action.isEarly = true ∧ Owes lost rest) ∨
      action.TakesUp lost ∧ ∀ a ∈ rest, isTail a = true := by
  obtain ⟨early, first, tail, heq, hearly, htakes, htail⟩ := h
  cases early with
  | nil =>
    cases heq
    exact Or.inr ⟨htakes, htail⟩
  | cons a early =>
    cases heq
    exact Or.inl ⟨hearly _ mem_cons_self, early, first, tail, rfl,
      fun a ha => hearly a (mem_cons_of_mem _ ha), htakes, htail⟩

theorem owes_append (hadded : ∀ a ∈ added, isEarly a = true) (h : Owes lost rest) :
    Owes lost (added ++ rest) := by
  obtain ⟨early, first, tail, rfl, hearly, htakes, htail⟩ := h
  refine ⟨added ++ early, first, tail, (append_assoc _ _ _).symm, fun a ha => ?_, htakes,
    htail⟩
  exact (List.mem_append.mp ha).elim (hadded a) (hearly a)

theorem owes_cons (htakes : action.TakesUp lost) (htail : ∀ a ∈ rest, isTail a = true) :
    Owes lost (action :: rest) :=
  ⟨[], action, rest, rfl, fun _ h => (not_mem_nil h).elim, htakes, htail⟩

end Finishing

end Vivido.Service
