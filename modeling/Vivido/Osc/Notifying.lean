import Mathlib.Data.Char
import Mathlib.Data.List.Lex
import Vivido.Support.Since
import Vivido.Support.SortedMap

/-!
The worker that keeps the desktop notifications. It numbers the tasks that show
them, and finds the task of an application's id again, to hand it an update or
to close it. Each message is handled whole before the next one is taken.
-/

namespace Vivido.Notification

open SortedMap Option

/-- `MAX_PENDING` -/
def maxPending : ℕ := 64

/-- What the worker reads of a notification. -/
structure DesktopNotification where
  id : Option (List Char)

@[ext] structure LiveTask where
  id : Option (List Char)
  deriving DecidableEq

inductive WorkerMessage where
  /-- To be shown; `updated` says if a live task would take it as its update. -/
  | display (notification : DesktopNotification) (updated : Bool)
  | close (id : List Char)
  | clear
  | done (token : ℕ)
  | shutdown

structure Worker where
  live : SortedMap ℕ LiveTask
  byId : SortedMap (List Char) ℕ
  order : List ℕ
  nextToken : ℕ
  /-- The tasks that were told to close. -/
  closed : List ℕ
  running : Bool

namespace Worker

def start : Worker := ⟨.empty, .empty, [], 0, [], true⟩

def removeTask (token : ℕ) (close : Bool) (worker : Worker) : Worker :=
  match worker.live.lookup token with
  | none => worker
  | some task =>
    { worker with
      live := worker.live.erase token
      byId := task.id.elim worker.byId worker.byId.erase
      closed := if close then worker.closed ++ [token] else worker.closed }

/-- The oldest tasks go until there is room for one more. -/
def makeRoom (worker : Worker) : List ℕ → Worker
  | [] => { worker with order := [] }
  | token :: order =>
    if maxPending ≤ worker.live.size then (worker.removeTask token true).makeRoom order
    else { worker with order := token :: order }

/-- The live task that an id names. -/
def named (worker : Worker) (id : Option (List Char)) : Option ℕ :=
  (id.bind worker.byId.lookup).filter fun token => (worker.live.lookup token).isSome

def spawn (worker : Worker) (id : Option (List Char)) : Worker :=
  let token := (worker.nextToken + 1) % 2 ^ 64
  { worker with
    nextToken := token
    byId := id.elim worker.byId fun id => worker.byId.insert id token
    live := worker.live.insert token ⟨id⟩
    order := worker.order ++ [token] }

def handle (worker : Worker) : WorkerMessage → Worker
  | .display notification updated =>
    if (worker.named notification.id).isSome && updated then worker
    else (worker.makeRoom worker.order).spawn notification.id
  | .close id =>
    match worker.byId.lookup id with
    | none => worker
    | some token => { worker with byId := worker.byId.erase id }.removeTask token true
  | .clear =>
    { worker with
      live := .empty
      byId := .empty
      order := []
      closed := worker.closed ++ worker.live.entries.map Prod.fst }
  | .done token =>
    let worker := worker.removeTask token false
    { worker with order := worker.order.filter (· ≠ token) }
  | .shutdown =>
    { worker with
      live := .empty
      closed := worker.closed ++ worker.live.entries.map Prod.fst
      running := false }

/-- `worker_loop` -/
def step (worker : Worker) (message : WorkerMessage) : Worker :=
  if worker.running then worker.handle message else worker

def run (messages : List WorkerMessage) : Worker := messages.foldl step start

theorem run_concat (messages : List WorkerMessage) (message : WorkerMessage) :
    run (messages ++ [message]) = (run messages).step message := by
  simp [run]

/-! ### The two tables -/

/-- An id names exactly the live tasks that carry it. -/
def Inverse (worker : Worker) : Prop :=
  ∀ id token, worker.byId.lookup id = some token ↔ worker.live.lookup token = some ⟨some id⟩

variable {worker : Worker} {token : ℕ}

theorem inverse_removeTask (h : worker.Inverse) (close : Bool) :
    (worker.removeTask token close).Inverse := by
  unfold removeTask
  split
  · exact h
  rename_i task htask
  intro id other
  dsimp only
  have hother := h id other
  by_cases heq : other = token
  · subst heq
    simp only [lookup_erase, if_true, reduceCtorEq, iff_false]
    cases hid : task.id with
    | none =>
      rw [elim_none, hother, htask, Option.some.injEq]
      rintro rfl
      cases hid
    | some name =>
      rw [elim_some, lookup_erase]
      split
      · simp
      · rename_i hne
        rw [hother, htask, Option.some.injEq]
        rintro rfl
        cases hid
        exact hne rfl
  · rw [lookup_erase, if_neg heq, ← hother]
    cases hid : task.id with
    | none => rw [elim_none]
    | some name =>
      rw [elim_some, lookup_erase]
      split
      · rename_i hname
        subst hname
        have hnamed := (h id token).mpr (htask.trans (congrArg some (LiveTask.ext hid)))
        simp [hnamed, Ne.symm heq]
      · rfl

theorem inverse_makeRoom (h : worker.Inverse) (order : List ℕ) :
    (worker.makeRoom order).Inverse := by
  induction order generalizing worker with
  | nil => exact h
  | cons _ _ ih =>
    rw [makeRoom]
    split
    · exact ih (inverse_removeTask h true)
    · exact h

theorem live_makeRoom (order : List ℕ) (token : ℕ) :
    (worker.makeRoom order).live.lookup token = none ∨
      (worker.makeRoom order).live.lookup token = worker.live.lookup token := by
  induction order generalizing worker with
  | nil => exact Or.inr rfl
  | cons oldest _ ih =>
    rw [makeRoom]
    split
    · rcases @ih (worker.removeTask oldest true) with hnone | hsame
      · exact Or.inl hnone
      rw [hsame, removeTask]
      split
      · exact Or.inr rfl
      · dsimp only
        rw [lookup_erase]
        split
        · exact Or.inl rfl
        · exact Or.inr rfl
    · exact Or.inr rfl

theorem inverse_spawn {id : Option (List Char)} (h : worker.Inverse)
    (hfree : worker.live.lookup ((worker.nextToken + 1) % 2 ^ 64) = none)
    (hid : id.bind worker.byId.lookup = none) : (worker.spawn id).Inverse := by
  intro name other
  unfold spawn
  dsimp only
  generalize (worker.nextToken + 1) % 2 ^ 64 = token at hfree
  have hname := h name other
  cases id with
  | none =>
    rw [elim_none, lookup_insert]
    split
    · rename_i heq
      subst heq
      simp [hname, hfree]
    · exact hname
  | some id =>
    rw [elim_some, lookup_insert, lookup_insert]
    by_cases heq : name = id
    · subst heq
      rw [if_pos rfl]
      split
      · rename_i hother
        simp [hother]
      · rename_i hother
        rw [← hname]
        rw [bind_some] at hid
        simp [hid, eq_comm, hother]
    · rw [if_neg heq, hname]
      split
      · rename_i hother
        subst hother
        simp [hfree, Ne.symm heq]
      · rfl

/-! ### Runs -/

/-- What is shown anew finds, once there is room for it, nothing that its id names, and no task
of its number. -/
def Steady (worker : Worker) : WorkerMessage → Prop
  | .display notification updated =>
    ((worker.named notification.id).isSome && updated) ∨
      notification.id.bind (worker.makeRoom worker.order).byId.lookup = none ∧
        (worker.makeRoom worker.order).live.lookup ((worker.nextToken + 1) % 2 ^ 64) = none
  | _ => True

/-- What one message leaves of the tasks that it replaces, and that replaced others before. -/
structure Kept (worker : Worker) (message : WorkerMessage) : Prop where
  inverse : worker.running → worker.Inverse
  /-- A task whose id is shown again goes, or is still the one that the id names. -/
  replaced : worker.running → ∀ notification updated id token,
    message = .display notification updated → notification.id = some id →
    worker.byId.lookup id = some token →
    (worker.step message).live.lookup token = none ∨
      (worker.step message).byId.lookup id = some token
  /-- The end of one task takes the id of no other. -/
  late : ∀ token id successor, message = .done token →
    worker.byId.lookup id = some successor → successor ≠ token →
    (worker.step message).byId.lookup id = some successor

theorem makeRoom_nextToken (order : List ℕ) :
    (worker.makeRoom order).nextToken = worker.nextToken := by
  induction order generalizing worker with
  | nil => rfl
  | cons _ _ ih =>
    rw [makeRoom]
    split
    · rw [ih, removeTask]
      split <;> rfl
    · rfl

/-- The id that a task is closed by is taken away twice. -/
theorem close_eq {id : List Char} (h : worker.Inverse)
    (htoken : worker.byId.lookup id = some token) :
    { worker with byId := worker.byId.erase id }.removeTask token true =
      worker.removeTask token true := by
  have hlive := (h id token).mp htoken
  have htwice : (worker.byId.erase id).erase id = worker.byId.erase id := by
    refine ext_lookup fun name => ?_
    rw [lookup_erase, lookup_erase]
    split <;> rfl
  simp [removeTask, hlive, htwice]

theorem inverse_step {message : WorkerMessage} (h : worker.running → worker.Inverse)
    (hsteady : worker.Steady message) :
    (worker.step message).running → (worker.step message).Inverse := by
  unfold step
  split
  · rename_i hrunning
    specialize h hrunning
    intro hgoes
    cases message with
    | display notification updated =>
      rw [handle]
      split
      · exact h
      · rename_i hnot
        obtain ⟨hid, hfree⟩ := hsteady.resolve_left hnot
        rw [← makeRoom_nextToken worker.order] at hfree
        exact inverse_spawn (inverse_makeRoom h _) hfree hid
    | close id =>
      rw [handle]
      split
      · exact h
      · rename_i token htoken
        rw [close_eq h htoken]
        exact inverse_removeTask h true
    | clear => exact fun id token => iff_of_false (fun h => by cases h) fun h => by cases h
    | done => exact inverse_removeTask h false
    | shutdown => cases hgoes
  · exact h

theorem kept_of_inverse {message : WorkerMessage} (h : worker.running → worker.Inverse)
    (hsteady : worker.Steady message) : worker.Kept message := by
  refine ⟨h, ?_, ?_⟩
  · rintro hrunning _ _ id token rfl hid hnamed
    rw [step, if_pos hrunning, handle]
    split
    · exact Or.inr hnamed
    rename_i hnot
    have hmade := inverse_makeRoom (h hrunning) worker.order
    have hgone : (worker.makeRoom worker.order).live.lookup token = none := by
      have hcarries := (h hrunning id token).mp hnamed
      rcases live_makeRoom worker.order token with hnone | hsame
      · exact hnone
      · have hleft := (hmade id token).mpr (hsame.trans hcarries)
        have hfree := (hsteady.resolve_left hnot).1
        rw [hid, bind_some, hleft] at hfree
        cases hfree
    rw [spawn, hid]
    dsimp only
    rw [lookup_insert, elim_some, lookup_insert_self]
    split
    · rename_i heq
      exact Or.inr (congrArg some heq.symm)
    · exact Or.inl hgone
  · rintro _ id successor rfl hnamed hne
    unfold step
    split
    · rename_i hrunning
      have hsuccessor := (h hrunning id successor).mp hnamed
      apply (inverse_removeTask (h hrunning) false id successor).mpr
      unfold removeTask
      split
      · exact hsuccessor
      · exact (lookup_erase.trans (if_neg hne)).trans hsuccessor
    · exact hnamed

/-- In a run without a refused update the two tables are inverse, and no task is left without
its id. -/
theorem tables_inverse (messages : List WorkerMessage) (hsteady : Throughout run Steady messages) :
    Throughout run Kept messages ∧ ((run messages).running → (run messages).Inverse) := by
  have hinverse : ∀ earlier, Throughout run Steady earlier →
      (run earlier).running → (run earlier).Inverse := by
    intro earlier h
    refine h.induct (fun earlier => (run earlier).running → (run earlier).Inverse) ?_ ?_
    · exact fun _ id token => iff_of_false nofun nofun
    · intro earlier message hinverse hgood
      rw [run_concat]
      exact inverse_step hinverse hgood
  refine ⟨?_, hinverse messages hsteady⟩
  rintro earlier message later rfl
  refine kept_of_inverse (hinverse earlier ?_) (hsteady earlier message later rfl)
  exact hsteady.of_append

instance (worker : Worker) : DecidablePred worker.Steady
  | .display _ _ => inferInstanceAs (Decidable (_ ∨ _ ∧ _))
  | .close _ => .isTrue trivial
  | .clear => .isTrue trivial
  | .done _ => .isTrue trivial
  | .shutdown => .isTrue trivial

theorem tables_inverse_updated :
    let messages : List WorkerMessage := [.display ⟨some ['a']⟩ false, .display ⟨some ['a']⟩ true,
      .display ⟨none⟩ false, .done 1, .display ⟨some ['a']⟩ false, .close ['a']]
    Throughout run Kept messages ∧ ((run messages).running → (run messages).Inverse) :=
  tables_inverse _ (by decide +kernel)

/-- A task that has ended takes no update before its end is heard of. Two tasks then carry one id,
which the end of the first takes from the second. -/
theorem refused_update_orphans :
    let shown : List WorkerMessage := [.display ⟨some ['a']⟩ false, .display ⟨some ['a']⟩ false]
    ¬(run shown).Inverse ∧ ¬(run shown).Kept (.done 1) := by
  intro _
  constructor
  · intro h
    have hnamed := (h ['a'] 1).mpr (by decide +kernel)
    exact absurd hnamed (by decide +kernel)
  · intro h
    have hnamed := h.late 1 ['a'] 2 rfl (by decide +kernel) (by decide)
    exact absurd hnamed (by decide +kernel)

end Worker

end Vivido.Notification
