import Vivido.Actor.Loop
import Vivido.Support.Since

/-!
Cancellations of pending requests. The set of cancelled numbers is filled by one
handler and used up by the looks at the pending operations, which take out only
numbers that are pending. A cancellation that comes for nothing stays.
-/

namespace Vivido.Actor.Loop

open Scene List

variable {P : Protocol} {Output : Type} {mask : Finset Milestone → ℕ} {a : Loop P Output}

/-- A `CANCEL_WAIT` that names the request is taken. -/
def Cancels (a : Loop P Output) (id : ℕ) : Event P Output → Prop
  | .receive record _ => a.ended = false ∧ a.due = false ∧ record.requestId ≠ 0 ∧
      record.request = .cancelWait (.ok id)
  | _ => False

/-- Every cancellation comes for the one pending request it names. -/
def Timely (a : Loop P Output) (event : Event P Output) : Prop :=
  ∀ id, a.Cancels id event → a.unanswered.count id = 1

/-- The operation is pending and its cancellation came meanwhile. -/
def CancelledMeanwhile (mask : Finset Milestone → ℕ) (start : Loop P Output)
    (entry : Pending Output) (history : List (Event P Output)) : Prop :=
  Since (start.run mask) (fun a event => a.Cancels entry.requestId event ∧
    entry ∈ a.pending.entries) (fun a => entry ∈ a.pending.entries) history

/-- The cancelled numbers are those of operations that are cancelled while they are pending, and
each is used up by the next look. -/
structure Timed (mask : Finset Milestone → ℕ) (start : Loop P Output)
    (history : List (Event P Output)) : Prop where
  owed : ∀ id ∈ (start.run mask history).cancelled,
    (start.run mask history).unanswered.count id = 1
  idle : (start.run mask history).ended = false → (start.run mask history).due = false →
    (start.run mask history).cancelled = ∅
  since : ∀ entry ∈ (start.run mask history).pending.entries,
    entry.requestId ∈ (start.run mask history).cancelled ↔
      CancelledMeanwhile mask start entry history

/-- What one event does to the cancelled numbers and the pending operations. -/
inductive Moves (mask : Finset Milestone → ℕ) (a : Loop P Output) (event : Event P Output)
    (a' : Loop P Output) : Prop where
  /-- Neither changes. -/
  | stays (hcancels : ∀ id, ¬ a.Cancels id event) (hcancelled : a'.cancelled = a.cancelled)
      (hentries : a'.pending.entries = a.pending.entries)
      (hidle : a'.ended = false → a'.due = false → a.ended = false ∧ a.due = false)
  /-- A number is cancelled. -/
  | cancels (id : ℕ) (hcancels : ∀ other, a.Cancels other event ↔ other = id)
      (hcancelled : a'.cancelled = insert id a.cancelled)
      (hentries : a'.pending.entries = a.pending.entries) (hdue : a'.due = true)
  /-- Another record is taken. -/
  | takes (hcancels : ∀ id, ¬ a.Cancels id event) (hended : a.ended = false) (hdue : a.due = false)
      (hcancelled : a'.cancelled = a.cancelled)
  /-- The operations are looked at. -/
  | services (now : ℕ) (drained : Pending Output → Option (Except String Unit))
      (hcancels : ∀ id, ¬ a.Cancels id event)
      (hcancelled : a'.cancelled = (PendingSet.serviceEntries mask now drained a.scene a.cancelled
        a.pending.entries).cancelled)
      (hentries : a'.pending.entries = (PendingSet.serviceEntries mask now drained a.scene
        a.cancelled a.pending.entries).kept)

theorem cancelled_register (entry : Pending Output) :
    (a.register entry).1.cancelled = a.cancelled := by
  unfold register
  split <;> rfl

/-- Every other handler leaves the cancelled numbers. -/
theorem cancelled_dispatchControl (record : Record Output) (now : ℕ)
    (h : ∀ id, record.request ≠ .cancelWait (.ok id)) :
    (a.dispatchControl mask record now).1.cancelled = a.cancelled := by
  unfold dispatchControl
  split
  · unfold waitTrack
    split
    all_goals try rfl
    exact cancelled_register _
  · rename_i heq
    exact (h _ heq).elim
  · unfold drain
    split
    · rfl
    · split
      · exact cancelled_register _
      · rfl
  all_goals rfl

theorem moves_receive (record : Record Output) (now : ℕ) (hended : a.ended = false)
    (hdue : a.due = false) :
    Moves mask a (.receive record now) (a.dispatchAndReply mask record now) := by
  by_cases hzero : record.requestId = 0
  · refine .takes (fun id h => h.2.2.1 hzero) hended hdue ?_
    unfold dispatchAndReply
    rw [if_pos hzero]
    rfl
  · by_cases hcancel : ∃ id, record.request = .cancelWait (.ok id)
    · obtain ⟨id, hid⟩ := hcancel
      have hdispatched : a.dispatchAndReply mask record now =
          ({ a with
              cancelled := insert id a.cancelled
              received := record.requestId :: a.received
              due := true
              ended := false } : Loop P Output).post
            { requestId := record.requestId, objectId := record.objectId, answer := .ok } := by
        unfold dispatchAndReply dispatchControl
        rw [if_neg hzero, hid]
      rw [hdispatched]
      refine .cancels id (fun other => ?_) rfl rfl rfl
      constructor
      · rintro ⟨-, -, -, hother⟩
        rw [hid] at hother
        cases hother
        rfl
      · rintro rfl
        exact ⟨hended, hdue, hzero, hid⟩
    · refine .takes (fun id h => hcancel ⟨id, h.2.2.2⟩) hended hdue ?_
      have hkept : (a.dispatchControl mask record now).1.cancelled = a.cancelled :=
        cancelled_dispatchControl record now fun id hid => hcancel ⟨id, hid⟩
      unfold dispatchAndReply
      rw [if_neg hzero]
      generalize a.dispatchControl mask record now = handled at hkept ⊢
      obtain ⟨_, _⟩ := handled
      dsimp only
      split <;> exact hkept

theorem moves_step (event : Event P Output) : Moves mask a event (a.step mask event) := by
  unfold step
  split
  · rename_i hended
    refine .stays (fun id h => ?_) rfl rfl fun h hdue => ⟨h, hdue⟩
    cases event with
    | receive => exact Bool.false_ne_true (h.1.symm.trans hended)
    | _ => exact h
  · rename_i hended
    have hended := Bool.eq_false_iff.mpr hended
    cases event with
    | receive record now =>
      dsimp only
      split
      · rename_i hdue
        exact .stays (fun id h => Bool.false_ne_true (h.2.1.symm.trans hdue)) rfl rfl
          fun h hdue => ⟨h, hdue⟩
      · rename_i hdue
        exact moves_receive record now hended (Bool.eq_false_iff.mpr hdue)
    | wake => exact .stays (fun id h => h) rfl rfl nofun
    | service now drained =>
      dsimp only
      split
      · split
        · rename_i hnone
          refine .services now drained (fun id h => h) ?_ ?_
          · rw [hnone]
            rfl
          · rw [hnone]
            rfl
        · exact .services now drained (fun id h => h) rfl rfl
      · exact .stays (fun id h => h) rfl rfl fun h hdue => ⟨h, hdue⟩
    | elsewhere => exact .stays (fun id h => h) rfl rfl fun h hdue => ⟨h, hdue⟩
    | measured =>
      dsimp only
      split <;> exact .stays (fun id h => h) rfl rfl fun h hdue => ⟨h, hdue⟩

/-! ### Runs -/

section

variable {start : Loop P Output} {history : List (Event P Output)} {event : Event P Output}

theorem run_concat : start.run mask (history ++ [event]) =
    (start.run mask history).step mask event :=
  run_append history [event]

/-- A cancellation comes now, or came before and its operation still waits. -/
theorem meanwhile_concat {entry : Pending Output} :
    CancelledMeanwhile mask start entry (history ++ [event]) ↔
      entry ∈ ((start.run mask history).step mask event).pending.entries ∧
        (((start.run mask history).Cancels entry.requestId event ∧
            entry ∈ (start.run mask history).pending.entries) ∨
          CancelledMeanwhile mask start entry history) := by
  constructor
  · intro h
    refine ⟨?_, h.cases⟩
    rw [← run_concat]
    exact h.at_end
  · rintro ⟨hentry, hnow | hbefore⟩
    · exact since_now hnow (by rw [run_concat]; exact hentry)
    · exact hbefore.later (by rw [run_concat]; exact hentry)

theorem Timed.step (h : Timed mask start history)
    (htimely : (start.run mask history).Timely event) : Timed mask start (history ++ [event]) := by
  have howed := h.owed
  have hidle := h.idle
  have hlast : ∀ entry, CancelledMeanwhile mask start entry history →
      entry.requestId ∈ (start.run mask history).cancelled := fun entry hentry =>
    (h.since entry hentry.at_end).mpr hentry
  have hsince : ∀ entry ∈ (start.run mask history).pending.entries,
      entry.requestId ∈ (start.run mask history).cancelled →
        CancelledMeanwhile mask start entry history := fun entry hentry => (h.since entry hentry).mp
  have hmoves : Moves mask (start.run mask history) event
      ((start.run mask history).step mask event) := moves_step event
  suffices hnext : (∀ id ∈ ((start.run mask history).step mask event).cancelled,
        ((start.run mask history).step mask event).unanswered.count id = 1) ∧
      (((start.run mask history).step mask event).ended = false →
        ((start.run mask history).step mask event).due = false →
          ((start.run mask history).step mask event).cancelled = ∅) ∧
      ∀ entry ∈ ((start.run mask history).step mask event).pending.entries,
        entry.requestId ∈ ((start.run mask history).step mask event).cancelled ↔
          ((start.run mask history).Cancels entry.requestId event ∧
            entry ∈ (start.run mask history).pending.entries) ∨
              CancelledMeanwhile mask start entry history by
    obtain ⟨howed', hidle', hsince'⟩ := hnext
    rw [← run_concat] at howed' hidle' hsince'
    refine ⟨howed', hidle', fun entry hentry => (hsince' entry hentry).trans ?_⟩
    rw [meanwhile_concat, ← run_concat]
    exact (and_iff_right hentry).symm
  generalize (start.run mask history).step mask event = a' at hmoves ⊢
  generalize start.run mask history = a at howed hidle hlast hsince htimely hmoves ⊢
  cases hmoves with
  | stays hcancels hcancelled hentries hrest =>
    unfold unanswered at howed ⊢
    rw [hcancelled, hentries]
    refine ⟨howed, fun hended hdue => ?_, fun entry hentry => ?_⟩
    · exact hidle (hrest hended hdue).1 (hrest hended hdue).2
    · exact ⟨fun hid => Or.inr (hsince entry hentry hid), fun hmeanwhile =>
        hlast entry (hmeanwhile.resolve_left fun hnow => hcancels _ hnow.1)⟩
  | cancels id hcancels hcancelled hentries hdue =>
    have htaken := (hcancels id).mpr rfl
    have hnone : a.cancelled = ∅ := by
      cases event with
      | receive => exact hidle htaken.1 htaken.2.1
      | _ => exact htaken.elim
    unfold unanswered
    rw [hcancelled, hentries, hnone]
    refine ⟨fun other hother => ?_, fun _ hidle => ?_, fun entry hentry => ?_⟩
    · rw [insert_empty_eq, Finset.mem_singleton] at hother
      rw [hother]
      exact htimely id htaken
    · exact (Bool.false_ne_true (hidle.symm.trans hdue)).elim
    · rw [insert_empty_eq, Finset.mem_singleton]
      constructor
      · exact fun hid => Or.inl ⟨(hcancels _).mpr hid, hentry⟩
      · rintro (hnow | hbefore)
        · exact (hcancels _).mp hnow.1
        · have hcancelled := hlast entry hbefore
          rw [hnone] at hcancelled
          exact (Finset.notMem_empty _ hcancelled).elim
  | takes hcancels hended hdue hcancelled =>
    rw [hcancelled, hidle hended hdue]
    refine ⟨fun id hid => (Finset.notMem_empty _ hid).elim, fun _ _ => rfl, fun entry _ => ?_⟩
    refine iff_of_false (Finset.notMem_empty _) ?_
    rintro (hnow | hbefore)
    · exact hcancels _ hnow.1
    · have hcancelled := hlast entry hbefore
      rw [hidle hended hdue] at hcancelled
      exact Finset.notMem_empty _ hcancelled
  | services now drained hcancels hcancelled hentries =>
    have hnone : a'.cancelled = ∅ := by
      rw [hcancelled, PendingSet.cancelled_serviceEntries, Finset.sdiff_eq_empty_iff_subset]
      intro id hid
      exact List.mem_toFinset.mpr (List.count_pos_iff.mp (by
        have hcount := howed id hid
        unfold unanswered at hcount
        omega))
    rw [hnone]
    refine ⟨fun id hid => (Finset.notMem_empty _ hid).elim, fun _ _ => rfl, fun entry hentry => ?_⟩
    refine iff_of_false (Finset.notMem_empty _) ?_
    rintro (hnow | hbefore)
    · exact hcancels _ hnow.1
    · rw [hentries] at hentry
      have hid := hlast entry hbefore
      exact PendingSet.spared_of_kept mask now drained hentry (howed _ hid) hid

theorem timed_run {start : Loop P Output} (hnone : start.cancelled = ∅)
    (history : List (Event P Output)) (h : Along mask Timely start history) :
    Timed mask start history := by
  induction history using List.reverseRecOn with
  | nil =>
    refine ⟨fun id hid => ?_, fun _ _ => hnone, fun entry _ => ?_⟩
    · change id ∈ start.cancelled at hid
      rw [hnone] at hid
      exact (Finset.notMem_empty _ hid).elim
    · refine iff_of_false ?_ ?_
      · change entry.requestId ∉ start.cancelled
        rw [hnone]
        exact Finset.notMem_empty _
      · rintro ⟨_, _, _, heq, -⟩
        exact (append_ne_nil_of_right_ne_nil _ (cons_ne_nil _ _)) heq.symm
  | append_singleton _ _ ih =>
    obtain ⟨hhistory, hevent⟩ := h.concat
    exact (ih hhistory).step hevent

end

/-- A look that is due cancels an operation exactly if its cancellation came while it waited, and
only numbers of waiting operations are cancelled. -/
theorem cancellations_answer (mask : Finset Milestone → ℕ) (scene : State P)
    (maximumWaits maximumRequests : ℕ) (history : List (Event P Output))
    (htimely : Along mask Timely (new scene maximumWaits maximumRequests) history) :
    let start : Loop P Output := new scene maximumWaits maximumRequests
    let a := start.run mask history
    (∀ id ∈ a.cancelled, id ∈ a.unanswered) ∧
    ∀ now drained, a.ended = false → a.due = true → ∀ entry ∈ a.pending.entries,
      (∃ reply ∈ (a.step mask (.service now drained)).replies.drop a.replies.length,
        reply.requestId = entry.requestId ∧ reply.isCancelled) ↔
          CancelledMeanwhile mask start entry history := by
  intro start a
  have htimed : Timed mask start history := timed_run rfl history htimely
  refine ⟨fun id hid => List.count_pos_iff.mp (by rw [htimed.owed id hid]; exact Nat.one_pos), ?_⟩
  intro now drained hended hdue entry hentry
  rw [← htimed.since entry hentry]
  have hstep : (a.step mask (.service now drained)).replies.drop a.replies.length =
      (PendingSet.serviceEntries mask now drained a.scene a.cancelled
        a.pending.entries).resolved := by
    unfold step
    rw [if_neg (Bool.eq_false_iff.mp hended)]
    dsimp only
    rw [if_pos hdue, if_neg (ne_nil_of_mem hentry)]
    exact drop_left
  rw [hstep, PendingSet.cancelled_iff]
  exact and_iff_left ⟨entry, hentry, rfl⟩

section Waiting

def waitedTrack : TrackIdentity := ⟨⟨⟨⟨1, 1⟩, 1⟩, 1⟩, 1⟩

/-- A scene with the one track that is waited for. -/
def waitedScene : State Protocol.plain :=
  (State.new .plain).setTrack waitedTrack
    (.fresh { contextId := 1, surfaceId := 1, trackId := 1, slot := 1, mode := .live,
              kind := .video })

/-- Request 7 waits for the track's revision to rise above 100. -/
def waitForever : Record ℕ :=
  ⟨7, 1, .waitTrack (.ok ⟨waitedTrack, 1, 1, some 100, 1000⟩) none⟩

def cancelSeven : Record ℕ := ⟨8, 1, .cancelWait (.ok 7)⟩

def waitingEntry : Pending ℕ := .trackWait 7 1 waitedTrack 1 1 (some 100) 1000 none

def waitingHistory : List (Event Protocol.plain ℕ) :=
  [.receive waitForever 0, .service 0 (fun _ => none), .receive cancelSeven 0]

theorem cancellations_answer_waiting :
    ∃ reply ∈ ((new waitedScene 8 8 : Loop Protocol.plain ℕ).run (fun _ => 0)
        (waitingHistory ++ [.service 0 fun _ => none])).replies,
      reply.requestId = 7 ∧ reply.isCancelled := by
  have htimely : Along (fun _ => 0) Timely (new waitedScene 8 8 : Loop Protocol.plain ℕ)
      waitingHistory := by
    refine ⟨fun id h => ?_, fun id h => h.elim, fun id h => ?_, trivial⟩
    · cases h.2.2.2
    · cases h.2.2.2
      decide +kernel
  have hanswered := (cancellations_answer (fun _ => 0) waitedScene 8 8 waitingHistory htimely).2 0
    (fun _ => none) (by decide +kernel) (by decide +kernel) waitingEntry (by decide +kernel)
  have hmeanwhile : CancelledMeanwhile (fun _ => 0) (new waitedScene 8 8) waitingEntry
      (waitingHistory.take 2 ++ [.receive cancelSeven 0]) :=
    since_now ⟨⟨by decide +kernel, by decide +kernel, by decide, rfl⟩, by decide +kernel⟩
      (by decide +kernel)
  obtain ⟨reply, hreply, hid, hcancelled⟩ := hanswered.mpr hmeanwhile
  refine ⟨reply, ?_, hid, hcancelled⟩
  rw [run_append]
  exact mem_of_mem_drop hreply

/-- A cancellation that names no pending request stays. -/
theorem cancellation_stays :
    ¬ ∀ history : List (Event Protocol.plain ℕ),
      let start : Loop Protocol.plain ℕ := new waitedScene 8 8
      let a := start.run (fun _ => 0) history
      (∀ id ∈ a.cancelled, id ∈ a.unanswered) ∧
      ∀ now drained, a.ended = false → a.due = true → ∀ entry ∈ a.pending.entries,
        (∃ reply ∈ (a.step (fun _ => 0) (.service now drained)).replies.drop a.replies.length,
          reply.requestId = entry.requestId ∧ reply.isCancelled) ↔
            CancelledMeanwhile (fun _ => 0) start entry history := by
  intro h
  have hpending := (h [.receive cancelSeven 0, .service 0 fun _ => none]).1 7 (by decide +kernel)
  revert hpending
  decide +kernel

end Waiting

end Vivido.Actor.Loop
