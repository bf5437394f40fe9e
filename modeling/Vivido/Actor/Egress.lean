import Mathlib.Data.List.Infix

/-!
The egress of a connection: a bounded queue that any number of threads post to
and one worker empties into the connection. A post that finds the queue full
closes it. Each step here is what one thread does under the queue's lock, or how
a write ends.
-/

namespace Vivido.Egress

/-- `EGRESS_CAPACITY` -/
def capacity : ℕ := 256

structure Record where
  recordType : ℕ
  objectId : ℕ
  body : List ℕ
  deriving DecidableEq, Repr

inductive Worker where
  /-- It takes the next record, or waits for one. -/
  | ready
  | writing (record : Record)
  | ended
  deriving DecidableEq, Repr

/-- How `write_record` ends. -/
inductive Written where
  | ok
  | failed
  | panicked
  deriving DecidableEq, Repr

end Vivido.Egress

namespace Vivido

open List

/-- An egress with its worker. The lock is poisoned once a thread has panicked in it. -/
structure Egress where
  records : List Egress.Record := []
  closed : Bool := false
  overflowed : Bool := false
  poisoned : Bool := false
  worker : Egress.Worker := .ready
  deriving DecidableEq, Repr

namespace Egress

inductive Act where
  | send (record : Record)
  | close
  /-- A thread panics while it has the lock. -/
  | poison
  /-- The worker has the lock. -/
  | take
  /-- The worker's write ends. -/
  | finish (written : Written)
  deriving DecidableEq, Repr

/-- What happens to a record. -/
inductive Happening where
  | accepted (record : Record)
  /-- The worker begins to write it. -/
  | handed (record : Record)
  | written (record : Record)
  deriving DecidableEq, Repr

variable (egress : Egress)

def abortAfterFault : Egress :=
  { egress with closed := true, records := [], poisoned := false }

/-- The answer says whether the record was queued. -/
def send (record : Record) : Egress × Bool :=
  if egress.poisoned then (egress.abortAfterFault, false)
  else if egress.closed then (egress, false)
  else if capacity ≤ egress.records.length then
    ({ egress with closed := true, overflowed := true }, false)
  else ({ egress with records := egress.records ++ [record] }, true)

def close : Egress :=
  if egress.poisoned then egress.abortAfterFault else { egress with closed := true }

/-- One turn of the worker under the lock, where it panics if the lock is poisoned. -/
def take : Egress × Option Record :=
  if egress.poisoned then ({ egress.abortAfterFault with worker := .ended }, none)
  else
    match egress.records with
    | record :: records => ({ egress with records, worker := .writing record }, some record)
    | [] => if egress.closed then ({ egress with worker := .ended }, none) else (egress, none)

def finish : Written → Egress
  | .ok => { egress with worker := .ready }
  | .failed => { egress.close with worker := .ended }
  | .panicked => { egress.abortAfterFault with worker := .ended }

def step : Act → Egress × List Happening
  | .send record =>
    match egress.send record with
    | (egress, true) => (egress, [.accepted record])
    | (egress, false) => (egress, [])
  | .close => (egress.close, [])
  | .poison => ({ egress with poisoned := true }, [])
  | .take =>
    match egress.worker with
    | .ready =>
      match egress.take with
      | (egress, some record) => (egress, [.handed record])
      | (egress, none) => (egress, [])
    | _ => (egress, [])
  | .finish written =>
    match egress.worker with
    | .writing record =>
      (egress.finish written, if written = .ok then [.written record] else [])
    | _ => (egress, [])

/-- The egress after a history, with what happened to records. -/
def run (history : List Act) : Egress × List Happening :=
  history.foldl (fun (egress, happened) act =>
    ((egress.step act).1, happened ++ (egress.step act).2)) ({}, [])

variable (history : List Act)

theorem run_concat (act : Act) : run (history ++ [act]) =
      (((run history).1.step act).1, (run history).2 ++ ((run history).1.step act).2) :=
  foldl_append

def Happening.accepted? : Happening → Option Record
  | .accepted record => some record
  | _ => none

def Happening.handed? : Happening → Option Record
  | .handed record => some record
  | _ => none

def Happening.written? : Happening → Option Record
  | .written record => some record
  | _ => none

/-- The records that `send` has answered true for, in this order. -/
def accepted (history : List Act) : List Record := (run history).2.filterMap Happening.accepted?

/-- The records that the worker has begun to write. -/
def handed (history : List Act) : List Record := (run history).2.filterMap Happening.handed?

def written (history : List Act) : List Record := (run history).2.filterMap Happening.written?

/-- A post finds the queue full. -/
def Overflows (egress : Egress) : Prop :=
  egress.poisoned = false ∧ egress.closed = false ∧ capacity ≤ egress.records.length

/-- The event closes the queue for good. -/
def Closes (egress : Egress) : Act → Prop
  | .close => True
  | .send _ => egress.Overflows
  | _ => False

/-! ### What one event does -/

/-- A thread's turn under the lock keeps the queue, adds to an open one, or closes it. -/
theorem send_cases (egress : Egress) (record : Record) :
    (egress.send record).1.closed = true ∧ (egress.send record).2 = false ∧
        ((egress.send record).1.records = egress.records ∨ (egress.send record).1.records = []) ∨
      egress.closed = false ∧ egress.records.length < capacity ∧
        egress.send record = ({ egress with records := egress.records ++ [record] }, true) := by
  unfold send
  split
  · exact Or.inl ⟨rfl, rfl, Or.inr rfl⟩
  split
  · rename_i hclosed
    exact Or.inl ⟨hclosed, rfl, Or.inl rfl⟩
  · rename_i hopen
    split
    · exact Or.inl ⟨rfl, rfl, Or.inl rfl⟩
    · rename_i hroom
      exact Or.inr ⟨Bool.not_eq_true _ ▸ hopen, not_le.mp hroom, rfl⟩

theorem send_worker (egress : Egress) (record : Record) :
    (egress.send record).1.worker = egress.worker := by
  unfold send
  repeat' split
  all_goals rfl

theorem closed_send (egress : Egress) (record : Record) (h : egress.closed = true) :
    (egress.send record).1.closed = true ∧ (egress.send record).2 = false := by
  rcases egress.send_cases record with ⟨hclosed, hrefused, -⟩ | ⟨hopen, -⟩
  · exact ⟨hclosed, hrefused⟩
  · rw [h] at hopen
    cases hopen

theorem close_cases (egress : Egress) : egress.close.closed = true ∧
    egress.close.worker = egress.worker ∧
      (egress.close.records = egress.records ∨ egress.close.records = []) := by
  unfold close
  split
  · exact ⟨rfl, rfl, Or.inr rfl⟩
  · exact ⟨rfl, rfl, Or.inl rfl⟩

/-- The worker takes the first record, or takes none and keeps or drops the queue. -/
theorem take_cases (egress : Egress) : (∃ record records, egress.records = record :: records ∧
        egress.take = ({ egress with records, worker := .writing record }, some record)) ∨
      egress.take.2 = none ∧
        (egress.take.1 = egress ∨ egress.take.1.worker = .ended ∧ egress.take.1.records = [] ∧
          egress.take.1.closed = true) := by
  unfold take
  split
  · exact Or.inr ⟨rfl, Or.inr ⟨rfl, rfl, rfl⟩⟩
  split
  · rename_i record records hrecords
    exact Or.inl ⟨record, records, hrecords, rfl⟩
  · rename_i hrecords
    split
    · rename_i hclosed
      exact Or.inr ⟨rfl, Or.inr ⟨rfl, hrecords, hclosed⟩⟩
    · exact Or.inr ⟨rfl, Or.inl rfl⟩

theorem closed_step (egress : Egress) (act : Act) (h : egress.closed = true) :
    (egress.step act).1.closed = true ∧ (egress.step act).2.filterMap Happening.accepted? = [] := by
  cases act with
  | send record =>
    obtain ⟨hclosed, hrefused⟩ := egress.closed_send record h
    dsimp only [step]
    generalize egress.send record = sent at hclosed hrefused ⊢
    obtain ⟨after, _⟩ := sent
    cases hrefused
    exact ⟨hclosed, rfl⟩
  | close => exact ⟨egress.close_cases.1, rfl⟩
  | poison => exact ⟨h, rfl⟩
  | take =>
    dsimp only [step]
    split
    · rcases egress.take_cases with ⟨_, _, -, htake⟩ | ⟨hnone, htake⟩
      · rw [htake]
        exact ⟨h, rfl⟩
      generalize egress.take = taken at hnone htake ⊢
      obtain ⟨_, _⟩ := taken
      cases hnone
      refine ⟨?_, rfl⟩
      rcases htake with rfl | ⟨-, -, hclosed⟩
      · exact h
      · exact hclosed
    · exact ⟨h, rfl⟩
  | finish result =>
    dsimp only [step]
    split
    · refine ⟨?_, ?_⟩
      · cases result with
        | ok => exact h
        | failed => exact egress.close_cases.1
        | panicked => rfl
      · split <;> rfl
    · exact ⟨h, rfl⟩

theorem closed_of_closes {egress : Egress} {act : Act} (h : egress.Closes act) :
    (egress.step act).1.closed = true ∧ (egress.step act).2.filterMap Happening.accepted? = [] := by
  cases act with
  | close => exact ⟨egress.close_cases.1, rfl⟩
  | send record =>
    obtain ⟨hsound, hopen, hfull⟩ := h
    have hsend : egress.send record =
        ({ egress with closed := true, overflowed := true }, false) := by
      unfold send
      rw [hsound, hopen, if_neg Bool.false_ne_true, if_neg Bool.false_ne_true, if_pos hfull]
    dsimp only [step]
    rw [hsend]
    exact ⟨rfl, rfl⟩
  | _ => exact h.elim

/-! ### Histories -/

theorem accepted_concat (act : Act) : accepted (history ++ [act]) =
    accepted history ++ ((run history).1.step act).2.filterMap Happening.accepted? := by
  unfold accepted
  rw [run_concat, filterMap_append]

theorem handed_concat (act : Act) : handed (history ++ [act]) =
    handed history ++ ((run history).1.step act).2.filterMap Happening.handed? := by
  unfold handed
  rw [run_concat, filterMap_append]

theorem written_concat (act : Act) : written (history ++ [act]) =
    written history ++ ((run history).1.step act).2.filterMap Happening.written? := by
  unfold written
  rw [run_concat, filterMap_append]

/-- Where the records that were accepted have come to. -/
structure Kept (egress : Egress) (accepted handed written : List Record) : Prop where
  bounded : egress.records.length ≤ capacity
  queued : handed ++ egress.records <+: accepted
  /-- None has been dropped while the queue is open. -/
  exact : egress.closed = false → handed ++ egress.records = accepted
  begun : match egress.worker with
    | .ready => written = handed
    | .writing record => written ++ [record] = handed
    | .ended => written <+: handed

variable {egress : Egress} {before out done : List Record}

/-- The queue is kept or dropped, and closed. -/
theorem Kept.close (h : egress.Kept before out done) {after : Egress}
    (hclosed : after.closed = true) (hrecords : after.records = egress.records ∨ after.records = [])
    (hbegun : match after.worker with
      | .ready => done = out
      | .writing record => done ++ [record] = out
      | .ended => done <+: out) : after.Kept before out done := by
  refine ⟨?_, ?_, fun hopen => ?_, hbegun⟩
  · rcases hrecords with hsame | hnone
    · rw [hsame]
      exact h.bounded
    · rw [hnone]
      exact Nat.zero_le _
  · rcases hrecords with hsame | hnone
    · rw [hsame]
      exact h.queued
    · rw [hnone, append_nil]
      exact (prefix_append _ _).trans h.queued
  · rw [hclosed] at hopen
    cases hopen

theorem Kept.begun_isPrefix (h : egress.Kept before out done) : done <+: out := by
  have hbegun := h.begun
  cases hworker : egress.worker with
  | ready =>
    rw [hworker] at hbegun
    exact hbegun ▸ prefix_refl _
  | writing =>
    rw [hworker] at hbegun
    exact hbegun ▸ prefix_append _ _
  | ended =>
    rw [hworker] at hbegun
    exact hbegun

theorem Kept.step (h : egress.Kept before out done) (act : Act) :
    (egress.step act).1.Kept (before ++ (egress.step act).2.filterMap Happening.accepted?)
      (out ++ (egress.step act).2.filterMap Happening.handed?)
      (done ++ (egress.step act).2.filterMap Happening.written?) := by
  have hkept : ∀ {after : Egress}, after.Kept before out done →
      after.Kept (before ++ []) (out ++ []) (done ++ []) := by
    intro after hafter
    simpa only [append_nil] using hafter
  cases act with
  | send record =>
    dsimp only [Egress.step]
    rcases egress.send_cases record with ⟨hclosed, hrefused, hrecords⟩ | ⟨hopen, hroom, hsend⟩
    · have hworker := egress.send_worker record
      generalize egress.send record = sent at hclosed hrefused hrecords hworker ⊢
      obtain ⟨after, _⟩ := sent
      cases hrefused
      refine hkept (h.close hclosed hrecords ?_)
      rw [hworker]
      exact h.begun
    · rw [hsend]
      have hsame : before ++ [record] = out ++ (egress.records ++ [record]) := by
        rw [← append_assoc, h.exact hopen]
      have hafter : ({ egress with records := egress.records ++ [record] } : Egress).Kept
          (before ++ [record]) out done := by
        refine ⟨?_, hsame ▸ prefix_refl _, fun _ => hsame.symm, h.begun⟩
        rw [length_append]
        exact hroom
      rw [← append_nil out, ← append_nil done] at hafter
      exact hafter
  | close =>
    obtain ⟨hclosed, hworker, hrecords⟩ := egress.close_cases
    refine hkept (h.close hclosed hrecords ?_)
    change match egress.close.worker with
      | .ready => done = out
      | .writing record => done ++ [record] = out
      | .ended => done <+: out
    rw [hworker]
    exact h.begun
  | poison => exact hkept ⟨h.bounded, h.queued, h.exact, h.begun⟩
  | take =>
    dsimp only [Egress.step]
    cases hworker : egress.worker with
    | ready =>
      have hbegun := h.begun
      rw [hworker] at hbegun
      rcases egress.take_cases with ⟨record, records, hrecords, htake⟩ | ⟨hnone, htake⟩
      · rw [htake]
        have hsame : (out ++ [record]) ++ records = out ++ egress.records := by
          rw [hrecords, append_assoc]
          rfl
        refine ⟨?_, ?_, fun hopen => ?_, ?_⟩
        · have hbounded := h.bounded
          rw [hrecords, length_cons] at hbounded
          exact Nat.le_of_succ_le hbounded
        · change (out ++ [record]) ++ records <+: before ++ []
          rw [hsame, append_nil]
          exact h.queued
        · change (out ++ [record]) ++ records = before ++ []
          rw [hsame, append_nil]
          exact h.exact hopen
        · change (done ++ []) ++ [record] = out ++ [record]
          rw [hbegun, append_nil]
      · generalize egress.take = taken at hnone htake ⊢
        obtain ⟨_, _⟩ := taken
        cases hnone
        rcases htake with rfl | ⟨hended, hrecords, hclosed⟩
        · exact hkept h
        · refine hkept (h.close hclosed (Or.inr hrecords) ?_)
          dsimp only at hended
          rw [hended]
          exact h.begun_isPrefix
    | _ => exact hkept h
  | finish result =>
    dsimp only [Egress.step]
    cases hworker : egress.worker with
    | writing record =>
      have hbegun := h.begun
      rw [hworker] at hbegun
      dsimp only at hbegun ⊢
      cases result with
      | ok =>
        refine ⟨h.bounded, ?_, fun hopen => ?_, ?_⟩
        · change (out ++ []) ++ egress.records <+: before ++ []
          rw [append_nil, append_nil]
          exact h.queued
        · change (out ++ []) ++ egress.records = before ++ []
          rw [append_nil, append_nil]
          exact h.exact hopen
        · change done ++ [record] = out ++ []
          rw [append_nil]
          exact hbegun
      | failed =>
        obtain ⟨hclosed, -, hrecords⟩ := egress.close_cases
        exact hkept (h.close hclosed hrecords h.begun_isPrefix)
      | panicked => exact hkept (h.close rfl (Or.inr rfl) h.begun_isPrefix)
    | _ => exact hkept h

theorem kept_run : (run history).1.Kept (accepted history) (handed history) (written history) := by
  induction history using List.reverseRecOn with
  | nil => exact ⟨Nat.zero_le _, prefix_refl _, fun _ => rfl, rfl⟩
  | append_singleton _ act ih =>
    rw [accepted_concat, handed_concat, written_concat, run_concat]
    exact ih.step act

theorem accepted_of_closed {earlier : List Act} (h : (run earlier).1.closed = true)
    (later : List Act) :
    (run (earlier ++ later)).1.closed = true ∧ accepted (earlier ++ later) = accepted earlier := by
  induction later using List.reverseRecOn with
  | nil =>
    rw [append_nil]
    exact ⟨h, rfl⟩
  | append_singleton _ act ih =>
    obtain ⟨hclosed, hsame⟩ := closed_step _ act ih.1
    rw [← append_assoc, run_concat, accepted_concat, hsame, append_nil]
    exact ⟨hclosed, ih.2⟩

/-- What is written is what was accepted first, in this order; the queue keeps its bound; and after
a post that overflows, or a close, nothing more is accepted. -/
theorem fifo_run (history : List Act) :
    written history <+: accepted history ∧ (run history).1.records.length ≤ capacity ∧
      ∀ earlier act later, history = earlier ++ act :: later → (run earlier).1.Closes act →
        accepted history = accepted earlier := by
  have hkept := kept_run history
  refine ⟨hkept.begun_isPrefix.trans ((prefix_append _ _).trans hkept.queued),
    hkept.bounded, ?_⟩
  rintro earlier act later rfl hcloses
  obtain ⟨hclosed, hnone⟩ := closed_of_closes hcloses
  have hafter : (run (earlier ++ [act])).1.closed = true := by
    rw [run_concat]
    exact hclosed
  rw [append_cons, (accepted_of_closed hafter later).2, accepted_concat, hnone,
    append_nil]

end Egress

end Vivido
