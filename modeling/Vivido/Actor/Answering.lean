import Vivido.Actor.Loop

/-!
Requests and replies. Every request taken is pending, at the text worker, or
answered, as often as it was taken, so requests with distinct numbers are in
exactly one of the three.
-/

namespace Vivido.Actor.Loop

open Scene List

variable {P : Protocol} {Output : Type} {mask : Finset Milestone → ℕ} {a : Loop P Output}

/-- All requests taken, by where they are. -/
def accounted (a : Loop P Output) : List ℕ := a.unanswered ++ a.measuring ++ a.answered

/-- Each request taken is at one place. -/
def Settles (a : Loop P Output) : Prop := a.accounted.Perm a.received

theorem answered_post (reply : Reply) : (a.post reply).answered = a.answered ++ [reply.requestId] :=
  map_append

/-- A dispatched request is answered now, or it is entered where an answer is owed. -/
theorem register_cases (entry : Pending Output) : (∃ error, a.register entry = (a, .error error)) ∨
      a.register entry =
        ({ a with pending := { a.pending with entries := a.pending.entries ++ [entry] } },
          .ok none) := by
  unfold register PendingSet.register
  split
  · rename_i h
    split at h
    · cases h
    · split at h
      · cases h
      · cases h
        exact Or.inr rfl
  · exact Or.inl ⟨_, rfl⟩
  · exact Or.inl ⟨_, rfl⟩

/-- What a handler does with the request: nothing that is owed comes or goes, and there is an
answer or an error; or the request is entered as pending or at the text worker, without one. -/
inductive Handles (record : Record Output) (a : Loop P Output) :
    Loop P Output × Except ControlError (Option (ℕ × Answer)) → Prop where
  | answers (scene : State P) (cancelled : Finset ℕ) (answer : ℕ × Answer) :
      Handles record a ({ a with scene, cancelled }, .ok (some answer))
  | fails (scene : State P) (error : ControlError) :
      Handles record a ({ a with scene }, .error error)
  | enters (entry : Pending Output) (h : entry.requestId = record.requestId) :
      Handles record a
        ({ a with pending := { a.pending with entries := a.pending.entries ++ [entry] } }, .ok none)
  | measures : Handles record a ({ a with measuring := record.requestId :: a.measuring }, .ok none)

theorem handles_register (record : Record Output) {entry : Pending Output}
    (h : entry.requestId = record.requestId) : Handles record a (a.register entry) := by
  rcases a.register_cases entry with ⟨error, heq⟩ | heq
  · rw [heq]
    exact .fails a.scene error
  · rw [heq]
    exact .enters entry h

theorem handles_dispatchControl (record : Record Output) (now : ℕ) :
    Handles record a (a.dispatchControl mask record now) := by
  have hfails : ∀ error, Handles record a (a, .error error) := fun error => .fails a.scene error
  unfold dispatchControl
  split
  · rename_i wait output _
    unfold waitTrack
    split
    · exact .answers a.scene a.cancelled _
    all_goals try exact hfails _
    exact handles_register record rfl
  · exact .answers a.scene _ _
  · unfold drain
    split
    · exact hfails _
    split
    · exact handles_register record rfl
    · dsimp only
      split
      · exact .answers _ a.cancelled _
      · exact .fails _ _
  · exact .measures
  · exact .answers a.scene a.cancelled _
  · exact .answers a.scene a.cancelled _
  all_goals exact hfails _

theorem settles_iff : a.Settles ↔ ∀ id, a.unanswered.count id + a.measuring.count id +
    a.answered.count id = a.received.count id := by
  unfold Settles accounted
  rw [perm_iff_count]
  refine forall_congr' fun id => ?_
  rw [count_append, count_append]

theorem settles_dispatch (h : a.Settles) (record : Record Output) (now : ℕ) :
    (a.dispatchAndReply mask record now).Settles := by
  rw [settles_iff] at h ⊢
  intro id
  have hid := h id
  unfold dispatchAndReply
  split
  · rename_i hzero
    rw [answered_post, count_append]
    change a.unanswered.count id + a.measuring.count id + (a.answered.count id + [0].count id) =
      (0 :: a.received).count id
    rw [count_singleton, count_cons]
    omega
  have hhandled : Handles record a (a.dispatchControl mask record now) :=
    handles_dispatchControl record now
  generalize a.dispatchControl mask record now = handled at hhandled ⊢
  cases hhandled with
  | answers | fails =>
    dsimp only
    rw [answered_post, count_append]
    change a.unanswered.count id + a.measuring.count id +
      (a.answered.count id + [record.requestId].count id) =
        (record.requestId :: a.received).count id
    rw [count_singleton, count_cons]
    omega
  | enters entry hentry =>
    change ((a.pending.entries ++ [entry]).map (·.requestId)).count id + a.measuring.count id +
      a.answered.count id = (record.requestId :: a.received).count id
    rw [map_append, count_append, count_cons, map_singleton, hentry,
      count_singleton]
    change a.unanswered.count id + _ + a.measuring.count id + a.answered.count id = _
    omega
  | measures =>
    change a.unanswered.count id + (record.requestId :: a.measuring).count id +
      a.answered.count id = (record.requestId :: a.received).count id
    rw [count_cons, count_cons]
    omega

theorem settles_service (h : a.Settles) (now : ℕ)
    (drained : Pending Output → Option (Except String Unit)) :
    (a.service mask now drained).Settles := by
  rw [settles_iff] at h ⊢
  intro id
  have hid := h id
  have hserviced := (PendingSet.perm_serviceEntries mask now drained a.pending.entries a.scene
    a.cancelled).count_eq id
  rw [count_append] at hserviced
  have hanswered : (a.service mask now drained).answered = a.answered ++
      (PendingSet.serviceEntries mask now drained a.scene a.cancelled
        a.pending.entries).resolved.map (·.requestId) := map_append
  rw [hanswered, count_append]
  change ((PendingSet.serviceEntries mask now drained a.scene a.cancelled
    a.pending.entries).kept.map (·.requestId)).count id + a.measuring.count id + _ =
      a.received.count id
  unfold unanswered at hid
  omega

theorem settles_step (h : a.Settles) (event : Event P Output) : (a.step mask event).Settles := by
  unfold step
  split
  · exact h
  cases event with
  | receive record now =>
    dsimp only
    split
    · exact h
    · exact settles_dispatch h record now
  | wake | elsewhere => exact h
  | service now drained =>
    dsimp only
    split
    · split
      · exact h
      · exact settles_service h now drained
    · exact h
  | measured requestId objectId answer =>
    dsimp only
    split
    · rename_i hmeasuring
      rw [settles_iff] at h ⊢
      intro id
      have hid := h id
      rw [answered_post, count_append, count_singleton]
      change a.unanswered.count id + (a.measuring.erase requestId).count id +
        (a.answered.count id + _) = a.received.count id
      rw [List.count_erase]
      have hcount : requestId = id → 0 < a.measuring.count id := fun heq =>
        heq ▸ List.count_pos_iff.mpr hmeasuring
      by_cases heq : requestId = id
      · have hpositive := hcount heq
        rw [heq, beq_self_eq_true, if_pos rfl]
        omega
      · rw [beq_eq_false_iff_ne.mpr heq, if_neg Bool.false_ne_true]
        omega
    · exact h

theorem settles_run (h : a.Settles) (events : List (Event P Output)) :
    (a.run mask events).Settles := by
  induction events generalizing a with
  | nil => exact h
  | cons event _ ih => exact ih (settles_step h event)

theorem settles_new (scene : State P) (maximumWaits maximumRequests : ℕ) :
    (new scene maximumWaits maximumRequests : Loop P Output).Settles := List.Perm.refl _

/-- With distinct numbers a request taken is pending, or at the text worker, or answered once, and
nothing else is answered. -/
theorem requests_settle (mask : Finset Milestone → ℕ) (scene : State P)
    (maximumWaits maximumRequests : ℕ) (events : List (Event P Output)) :
    let a := (new scene maximumWaits maximumRequests : Loop P Output).run mask events
    a.received.Nodup →
      (∀ reply ∈ a.replies, reply.requestId ∈ a.received) ∧
      ∀ id ∈ a.received,
        (id ∈ a.unanswered ∧ id ∉ a.measuring ∧ a.answered.count id = 0) ∨
        (id ∉ a.unanswered ∧ id ∈ a.measuring ∧ a.answered.count id = 0) ∨
        (id ∉ a.unanswered ∧ id ∉ a.measuring ∧ a.answered.count id = 1) := by
  intro a hdistinct
  have hsettles : a.Settles := settles_run (settles_new scene maximumWaits maximumRequests) events
  refine ⟨fun reply hreply => hsettles.subset ?_, fun id hid => ?_⟩
  · exact mem_append_right _ (mem_map_of_mem hreply)
  · have hcount := settles_iff.mp hsettles id
    rw [count_eq_one_of_mem hdistinct hid] at hcount
    rw [← count_pos_iff, ← count_pos_iff]
    omega

section Measuring

def quiet : Loop Protocol.plain ℕ := new (State.new .plain) 8 8

/-- A text is measured and the worker answers. -/
def measuringEvents : List (Event Protocol.plain ℕ) :=
  [.receive ⟨5, 1, .measureText (.ok ())⟩ 0, .service 0 (fun _ => none),
    .measured 5 1 (.record 40)]

theorem requests_settle_measuring :
    let a := quiet.run (fun _ => 0) measuringEvents
    a.received = [5] ∧ a.answered.count 5 = 1 := by
  intro a
  have hreceived : a.received = [5] := by rfl
  refine ⟨hreceived, ?_⟩
  have hsettled := (requests_settle (fun _ => 0) (State.new .plain) 8 8 measuringEvents
    (by change a.received.Nodup; rw [hreceived]; exact nodup_singleton 5)).2 5
    (by change 5 ∈ a.received; rw [hreceived]; exact mem_singleton_self 5)
  rcases hsettled with ⟨h, _⟩ | ⟨_, h, _⟩ | ⟨_, _, h⟩
  · cases h
  · cases h
  · exact h

/-- While its text is measured a request is neither pending nor answered. -/
theorem measured_elsewhere :
    ¬ ∀ events : List (Event Protocol.plain ℕ),
      let a := quiet.run (fun _ => 0) events
      a.received.Nodup → 0 ∉ a.received →
        (∀ reply ∈ a.replies, reply.requestId ∈ a.received) ∧
        ∀ id ∈ a.received, (id ∈ a.unanswered ∧ a.answered.count id = 0) ∨
          (id ∉ a.unanswered ∧ a.answered.count id = 1) := by
  intro h
  have hsettled := (h (measuringEvents.take 1) (nodup_singleton 5) (by decide)).2 5
    (mem_singleton_self 5)
  rcases hsettled with ⟨h, _⟩ | ⟨_, h⟩
  · cases h
  · cases h

end Measuring

end Vivido.Actor.Loop
