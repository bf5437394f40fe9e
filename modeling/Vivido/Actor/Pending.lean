import Vivido.Scene.Request

/-!
The operations that a session owes a reply for. A wait on a track and a drain of
its audio are entered in a bounded set, and the actor looks at all of them at
its observation points. Each either stays or leaves the set with one reply.
-/

namespace Vivido.Scene

open List

variable {P : Protocol}

structure TrackWaitSatisfied where
  revision : ℕ
  channelGeneration : ℕ
  observedValue : ℕ
  deriving DecidableEq, Repr

inductive TrackWaitEvaluation where
  | satisfied (satisfied : TrackWaitSatisfied)
  | pending
  | notFound
  | lost
  | staleGeneration
  | notVisible
  deriving DecidableEq, Repr

/-- What a wait condition looks at; `mask` gives the number of a set of milestones. -/
def Track.observed (mask : Finset Milestone → ℕ) (track : Track P) : ℕ → Option ℕ
  | 1 => some track.state.revision
  | 2 => some (mask track.state.milestones)
  | 3 => some track.lastPresentationId
  | 4 => some (track.lastPresentedPtsUs.getD 0).toNat
  | 5 => some (if .clockStarted ∈ track.state.milestones then 1 else 0)
  | 6 => some (if .bufferedEnded ∈ track.state.milestones then 1 else 0)
  | 7 => some (if .channelAccepted ∈ track.state.milestones then 1 else 0)
  | 8 => some (if .channelDetached ∈ track.state.milestones then 1 else 0)
  | 9 => some (if .trackLost ∈ track.state.milestones then 1 else 0)
  | _ => none

/-- A wait condition is met by what it looks at. -/
def conditionMet (condition : ℕ) (value : Option ℕ) (observed : ℕ) : Bool :=
  if condition = 1 ∨ condition = 3 ∨ condition = 4 then value.any (· < observed)
  else if condition = 2 then value.any fun bits => observed &&& bits = bits
  else observed = 1

/-- A visible node of the session shows the surface. -/
def State.isPlaced (s : State P) (identity : SurfaceIdentity) : Bool :=
  (s.scenes.lookup identity.context.session).any fun scene =>
    scene.nodes.entries.any fun entry =>
      entry.2.visible ∧ entry.2.surfaceContextId = identity.context.contextId ∧
        entry.2.surfaceId = identity.surfaceId

def State.evaluateTrackWait (mask : Finset Milestone → ℕ) (s : State P) (identity : TrackIdentity)
    (generation condition : ℕ) (value : Option ℕ) : TrackWaitEvaluation :=
  match s.tracks.lookup identity with
  | none => .notFound
  | some track =>
    if track.state.channelGeneration ≠ generation then .staleGeneration
    else if track.lifecycle = 6 ∧ condition ≠ 9 then .lost
    else if (condition = 3 ∨ condition = 4) ∧ s.isPlaced identity.surface = false then .notVisible
    else match track.observed mask condition with
    | none => .pending
    | some observed =>
      if conditionMet condition value observed then
        .satisfied ⟨track.state.revision, track.state.channelGeneration, observed⟩
      else .pending

end Vivido.Scene

namespace Vivido.Actor

open Scene List

inductive ErrorCode where
  | badMessage
  | badState
  | cancelled
  | deviceLost
  | limitExceeded
  | notFound
  | notVisible
  | staleChannelGeneration
  | timeout
  | other (code : ℕ)
  deriving DecidableEq, Repr

/-- The content of a reply; `record` is one of the types that only their handlers know. -/
inductive Answer where
  | ok
  | waitSatisfied (identity : TrackIdentity) (condition : ℕ) (satisfied : TrackWaitSatisfied)
  | record (recordType : ℕ)
  | error (code : ErrorCode) (diagnostic : String)
  deriving DecidableEq

structure Reply where
  requestId : ℕ
  objectId : ℕ
  answer : Answer
  deriving DecidableEq

/-- Instants are in microseconds. -/
inductive Pending (Output : Type) where
  | trackWait (requestId objectId : ℕ) (identity : TrackIdentity) (generation condition : ℕ)
      (value : Option ℕ) (deadline : ℕ) (completionOutput : Option Output)
  | audioDrain (requestId objectId : ℕ) (identity : TrackIdentity) (generation : ℕ)
      (output : Output)
  deriving DecidableEq

/-- Why an operation could not be registered. -/
inductive AdmissionError where
  | waits
  | requests
  deriving DecidableEq, Repr

structure PendingSet (Output : Type) where
  entries : List (Pending Output)
  maximumWaits : ℕ
  maximumRequests : ℕ
  deriving DecidableEq

variable {P : Protocol} {Output : Type}

namespace Pending

def isWait : Pending Output → Bool
  | .trackWait _ _ _ _ _ _ _ _ => true
  | .audioDrain _ _ _ _ _ => false

def requestId : Pending Output → ℕ
  | .trackWait requestId _ _ _ _ _ _ _ | .audioDrain requestId _ _ _ _ => requestId

def objectId : Pending Output → ℕ
  | .trackWait _ objectId _ _ _ _ _ _ | .audioDrain _ objectId _ _ _ => objectId

/-- The reply of this operation. -/
def reply (entry : Pending Output) (answer : Answer) : Reply :=
  { requestId := entry.requestId, objectId := entry.objectId, answer }

/-- `cancelled_body` -/
def cancelledReply (entry : Pending Output) : Reply :=
  entry.reply (.error .cancelled "track wait was cancelled")

/-- The output has played everything. -/
def hasDrained : Option (Except String Unit) → Bool
  | some (.ok _) => true
  | _ => false

/-- Look at one operation: the scene it leaves, and its reply if that is due. `drained` is what
its output answers. -/
def poll (mask : Finset Milestone → ℕ) (s : State P) (now : ℕ)
    (drained : Option (Except String Unit)) (entry : Pending Output) : State P × Option Reply :=
  match entry with
  | .trackWait _ _ identity generation condition value deadline completionOutput =>
    let s :=
      if completionOutput.isSome ∧ hasDrained drained then
        (s.onTrack identity (·.markBufferedEnded generation)).1
      else s
    match s.evaluateTrackWait mask identity generation condition value with
    | .satisfied satisfied => (s, some (entry.reply (.waitSatisfied identity condition satisfied)))
    | .notFound => (s, some (entry.reply (.error .notFound "track does not exist")))
    | .lost => (s, some (entry.reply (.error .badState "track was lost while waiting")))
    | .staleGeneration =>
      (s, some (entry.reply
        (.error .staleChannelGeneration "track wait names a stale channel generation")))
    | .notVisible =>
      (s, some (entry.reply (.error .notVisible "track has no eligible visible placement")))
    | .pending =>
      if now < deadline then (s, none)
      else (s, some (entry.reply (.error .timeout "track wait timed out")))
  | .audioDrain _ _ identity generation _ =>
    match drained with
    | none => (s, none)
    | some (.ok _) =>
      ((s.onTrack identity (·.markBufferedEnded generation)).1, some (entry.reply .ok))
    | some (.error reason) => (s, some (entry.reply (.error .deviceLost reason)))

end Pending

/-- What a look at all operations comes to. -/
structure Serviced (P : Protocol) (Output : Type) where
  scene : State P
  cancelled : Finset ℕ
  kept : List (Pending Output)
  resolved : List Reply

namespace PendingSet

def register (set : PendingSet Output) (entry : Pending Output) :
    Except AdmissionError (PendingSet Output) :=
  if set.maximumRequests ≤ set.entries.length then .error .requests
  else if entry.isWait ∧ set.maximumWaits ≤ (set.entries.filter (·.isWait)).length then
    .error .waits
  else .ok { set with entries := set.entries ++ [entry] }

/-- `service`, without the posting of what it resolves. -/
def serviceEntries (mask : Finset Milestone → ℕ) (now : ℕ)
    (drained : Pending Output → Option (Except String Unit)) (s : State P)
    (cancelled : Finset ℕ) : List (Pending Output) → Serviced P Output
  | [] => ⟨s, cancelled, [], []⟩
  | entry :: entries =>
    if entry.requestId ∈ cancelled then
      let rest := serviceEntries mask now drained s (cancelled.erase entry.requestId) entries
      { rest with resolved := entry.cancelledReply :: rest.resolved }
    else
      let (s, due) := entry.poll mask s now (drained entry)
      let rest := serviceEntries mask now drained s cancelled entries
      match due with
      | some reply => { rest with resolved := reply :: rest.resolved }
      | none => { rest with kept := entry :: rest.kept }

end PendingSet

/-! ### What a look at the operations leaves -/

/-- The reply tells of a cancellation. -/
def Reply.isCancelled (reply : Reply) : Prop :=
  ∃ diagnostic, reply.answer = .error .cancelled diagnostic

namespace Pending

variable {mask : Finset Milestone → ℕ} {now : ℕ} {drained : Option (Except String Unit)}
  {s : State P}

/-- A reply is the operation's own, and no cancellation. -/
theorem poll_reply {entry : Pending Output} {reply : Reply}
    (h : (entry.poll mask s now drained).2 = some reply) :
    reply.requestId = entry.requestId ∧ ¬ reply.isCancelled := by
  have hown : ∀ answer, (∀ diagnostic, answer ≠ .error .cancelled diagnostic) →
      some (entry.reply answer) = some reply →
        reply.requestId = entry.requestId ∧ ¬ reply.isCancelled := by
    rintro _ hanswer ⟨⟩
    exact ⟨rfl, fun ⟨diagnostic, heq⟩ => hanswer diagnostic heq⟩
  cases entry with
  | trackWait =>
    dsimp only [poll] at h
    split at h
    all_goals try exact hown _ (fun _ heq => by cases heq) h
    split at h
    · cases h
    · exact hown _ (fun _ heq => by cases heq) h
  | audioDrain =>
    dsimp only [poll] at h
    split at h
    · cases h
    all_goals exact hown _ (fun _ heq => by cases heq) h

end Pending

namespace PendingSet

variable (mask : Finset Milestone → ℕ) (now : ℕ)
  (drained : Pending Output → Option (Except String Unit))

/-- The entry leaves with a cancellation, leaves with its own reply, or stays. -/
theorem serviceEntries_cases (s : State P) (cancelled : Finset ℕ) (entry : Pending Output)
    (entries : List (Pending Output)) : (entry.requestId ∈ cancelled ∧ ∃ rest,
        rest = serviceEntries mask now drained s (cancelled.erase entry.requestId) entries ∧
        serviceEntries mask now drained s cancelled (entry :: entries) =
          { rest with resolved := entry.cancelledReply :: rest.resolved }) ∨
      (entry.requestId ∉ cancelled ∧ ∃ s' rest,
        rest = serviceEntries mask now drained s' cancelled entries ∧
        ((∃ reply, reply.requestId = entry.requestId ∧ ¬ reply.isCancelled ∧
            serviceEntries mask now drained s cancelled (entry :: entries) =
              { rest with resolved := reply :: rest.resolved }) ∨
          serviceEntries mask now drained s cancelled (entry :: entries) =
            { rest with kept := entry :: rest.kept })) := by
  by_cases hcancelled : entry.requestId ∈ cancelled
  · refine Or.inl ⟨hcancelled, _, rfl, ?_⟩
    rw [serviceEntries, if_pos hcancelled]
  refine Or.inr ⟨hcancelled, (entry.poll mask s now (drained entry)).1, _, rfl, ?_⟩
  rw [serviceEntries, if_neg hcancelled]
  cases hdue : (entry.poll mask s now (drained entry)).2 with
  | some reply =>
    obtain ⟨hid, hreply⟩ := Pending.poll_reply hdue
    refine Or.inl ⟨reply, hid, hreply, ?_⟩
    dsimp only
    rw [hdue]
  | none =>
    refine Or.inr ?_
    dsimp only
    rw [hdue]

variable (entries : List (Pending Output))

/-- Each operation stays or is answered, once. -/
theorem perm_serviceEntries (s : State P) (cancelled : Finset ℕ) :
    ((serviceEntries mask now drained s cancelled entries).kept.map (·.requestId) ++
      (serviceEntries mask now drained s cancelled entries).resolved.map (·.requestId)).Perm
        (entries.map (·.requestId)) := by
  induction entries generalizing s cancelled with
  | nil => exact List.Perm.refl _
  | cons entry entries ih =>
    rcases serviceEntries_cases mask now drained s cancelled entry entries with
      ⟨_, _, hrest, heq⟩ | ⟨_, _, _, hrest, ⟨_, hid, _, heq⟩ | heq⟩
    · rw [heq, map_cons, map_cons]
      refine List.perm_middle.trans (List.Perm.cons _ ?_)
      rw [hrest]
      exact ih _ _
    · rw [heq, map_cons, map_cons, hid]
      refine List.perm_middle.trans (List.Perm.cons _ ?_)
      rw [hrest]
      exact ih _ _
    · rw [heq, map_cons, map_cons, cons_append]
      refine List.Perm.cons _ ?_
      rw [hrest]
      exact ih _ _

/-- A look uses up the cancellations of the operations there are. -/
theorem cancelled_serviceEntries (s : State P) (cancelled : Finset ℕ) :
    (serviceEntries mask now drained s cancelled entries).cancelled =
      cancelled \ (entries.map (·.requestId)).toFinset := by
  induction entries generalizing s cancelled with
  | nil => exact Finset.sdiff_empty.symm
  | cons entry entries ih =>
    rw [map_cons, toFinset_cons, Finset.sdiff_insert]
    rcases serviceEntries_cases mask now drained s cancelled entry entries with
      ⟨_, _, hrest, heq⟩ | ⟨hspared, _, _, hrest, ⟨_, _, _, heq⟩ | heq⟩
    · rw [heq, hrest, ← Finset.erase_sdiff_comm]
      exact ih _ _
    all_goals
      rw [heq, hrest, Finset.erase_eq_of_notMem fun h => hspared (Finset.mem_sdiff.mp h).1]
      exact ih _ _

theorem mem_kept {entries : List (Pending Output)} {entry : Pending Output} {s : State P}
    {cancelled : Finset ℕ}
    (h : entry ∈ (serviceEntries mask now drained s cancelled entries).kept) : entry ∈ entries := by
  induction entries generalizing s cancelled with
  | nil => cases h
  | cons first entries ih =>
    rcases serviceEntries_cases mask now drained s cancelled first entries with
      ⟨_, _, rfl, heq⟩ | ⟨_, _, _, rfl, ⟨_, _, _, heq⟩ | heq⟩
    · rw [heq] at h
      exact mem_cons_of_mem _ (ih h)
    · rw [heq] at h
      exact mem_cons_of_mem _ (ih h)
    · rw [heq] at h
      rcases List.mem_cons.mp h with rfl | h
      · exact mem_cons_self
      · exact mem_cons_of_mem _ (ih h)

/-- An operation is answered with a cancellation where its number is cancelled. -/
theorem cancelled_iff {entries : List (Pending Output)} {s : State P} {cancelled : Finset ℕ}
    {id : ℕ} : (∃ reply ∈ (serviceEntries mask now drained s cancelled entries).resolved,
      reply.requestId = id ∧ reply.isCancelled) ↔
        id ∈ cancelled ∧ ∃ entry ∈ entries, entry.requestId = id := by
  induction entries generalizing s cancelled with
  | nil =>
    constructor
    · rintro ⟨_, hmem, _⟩
      cases hmem
    · rintro ⟨_, _, hmem, _⟩
      cases hmem
  | cons first entries ih =>
    rcases serviceEntries_cases mask now drained s cancelled first entries with
      ⟨hcancelled, _, rfl, heq⟩ | ⟨hspared, _, _, rfl, ⟨_, hid, hreply, heq⟩ | heq⟩
    · rw [heq]
      by_cases hfirst : first.requestId = id
      · refine iff_of_true ⟨_, mem_cons_self, hfirst, _, rfl⟩ ?_
        exact ⟨hfirst ▸ hcancelled, first, mem_cons_self, hfirst⟩
      rw [exists_mem_cons_iff, exists_mem_cons_iff, ih, Finset.mem_erase]
      constructor
      · rintro (⟨hown, _⟩ | ⟨hid, hentry⟩)
        · exact (hfirst hown).elim
        · exact ⟨hid.2, Or.inr hentry⟩
      · rintro ⟨hid, hown | hentry⟩
        · exact (hfirst hown).elim
        · exact Or.inr ⟨⟨Ne.symm hfirst, hid⟩, hentry⟩
    · rw [heq, exists_mem_cons_iff, exists_mem_cons_iff, ih]
      constructor
      · rintro (⟨_, h⟩ | ⟨hid, hentry⟩)
        · exact (hreply h).elim
        · exact ⟨hid, Or.inr hentry⟩
      · rintro ⟨hid, rfl | hentry⟩
        · exact (hspared hid).elim
        · exact Or.inr ⟨hid, hentry⟩
    · rw [heq, exists_mem_cons_iff, ih]
      constructor
      · rintro ⟨hid, hentry⟩
        exact ⟨hid, Or.inr hentry⟩
      · rintro ⟨hid, rfl | hentry⟩
        · exact (hspared hid).elim
        · exact ⟨hid, hentry⟩

/-- What stays, and is the only one with its number, was not cancelled. -/
theorem spared_of_kept {entries : List (Pending Output)} {entry : Pending Output} {s : State P}
    {cancelled : Finset ℕ} (h : entry ∈ (serviceEntries mask now drained s cancelled entries).kept)
    (hcount : (entries.map (·.requestId)).count entry.requestId = 1) :
    entry.requestId ∉ cancelled := by
  intro hcancelled
  obtain ⟨_, hreply, hid, -⟩ := (cancelled_iff mask now drained (s := s)).mpr
    ⟨hcancelled, entry, mem_kept mask now drained h, rfl⟩
  have hperm := (perm_serviceEntries mask now drained entries s cancelled).count_eq entry.requestId
  rw [count_append, hcount] at hperm
  have hkept := List.count_pos_iff.mpr (mem_map_of_mem (f := (·.requestId)) h)
  have hresolved := List.count_pos_iff.mpr (mem_map_of_mem (f := (·.requestId)) hreply)
  rw [hid] at hresolved
  omega

end PendingSet

end Vivido.Actor
