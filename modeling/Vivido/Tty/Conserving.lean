import Mathlib.Data.List.Perm.Basic
import Vivido.Support.Since
import Vivido.Tty.Gather

/-!
Where the bytes and the buffers are: with the worker, in the queue, or with the
owner. What was read and not delivered since the last reset is there, in order.
-/

namespace Vivido.Tty

open List Option

variable {g g' : Gather}

/-- The buffer that the worker has, with what is in it. -/
def Worker.hold : Worker → Option Hold
  | .acquiring => none
  | .checking hold => some hold
  | .reading hold => some hold
  | .bridging hold => some hold
  | .polling hold => some hold
  | .publishing hold _ => some hold
  | .exited => none

def Owner.buffers : Owner → List ℕ
  | .releasing buffer => [buffer]
  | _ => []

/-- What is still to be delivered after an event. -/
def Event.leaves (pending : List UInt8) : Event → List UInt8
  | .arrived bytes => pending ++ bytes
  | .reset => []
  | .delivered bytes => pending.drop bytes.length
  | _ => pending

/-- The bytes read since the last reset and not yet delivered. -/
def undelivered (log : List Event) : List UInt8 := log.foldl Event.leaves []

theorem undelivered_concat (log : List Event) (event : Event) :
    undelivered (log ++ [event]) = event.leaves (undelivered log) := foldl_append

/-- What may be returned where some bytes are to be delivered. -/
def Event.Legal (pending : List UInt8) : Event → Prop
  | .delivered bytes => bytes <+: pending
  | .ended => pending = []
  | .failed _ => pending = []
  | _ => True

namespace Gather

/-- The bytes with the worker, unless it read them before a reset. -/
def gathered (g : Gather) : List UInt8 :=
  match g.worker.hold with
  | none => []
  | some hold => if hold.generation = g.generation then hold.bytes else []

/-- The bytes of the batch that is read from. -/
def rest (g : Gather) : List UInt8 :=
  match g.current with
  | none => []
  | some batch => batch.bytes.drop g.offset

def held (g : Gather) : List UInt8 := g.rest ++ g.ready.flatMap (·.bytes) ++ g.gathered

def buffers (g : Gather) : List ℕ :=
  g.free ++ g.ready.map (·.buffer) ++ g.current.toList.map (·.buffer) ++
    g.worker.hold.toList.map (·.buffer) ++ g.owner.buffers

/-- Nothing of the end is known before the worker has exited. -/
structure Unended (g : Gather) : Prop where
  eof : g.eof = false
  error : g.error = none
  log : Event.ended ∉ g.log
  stop : g.stop = true → g.owner = .joining

structure Conserved (g : Gather) : Prop where
  kept : undelivered g.log = g.held
  legal : Throughout undelivered Event.Legal g.log
  whole : g.buffers.Perm (List.range slots)
  unended : g.worker ≠ .exited → g.Unended
  past : ∀ hold, g.worker.hold = some hold → hold.generation ≤ g.generation
  /-- The read lock keeps resets away. -/
  reading : ∀ hold, g.worker = .reading hold → hold.generation = g.generation

theorem conserved_start : Conserved {} where
  kept := rfl
  legal := fun earlier a later h => by simp at h
  whole := by decide
  unended _ := ⟨rfl, rfl, by simp, nofun⟩
  past _ h := by cases h
  reading _ h := by cases h

/-! ### The worker -/

section

variable (h : Conserved g)
include h

/-- The worker goes from one place to another with the buffer that it has. -/
theorem Conserved.moved {worker : Worker} {bridging : Bool} {hold hold' : Hold}
    (hhold : g.worker.hold = some hold) (hhold' : worker.hold = some hold')
    (hbatch : hold'.toBatch = hold.toBatch) (hgeneration : hold'.generation = hold.generation)
    (hreading : ∀ hold, worker = .reading hold → hold.generation = g.generation) :
    Conserved { g with worker := worker, bridging := bridging } := by
  have hkept := h.kept
  have hbuffers := h.whole
  have hunended := h.unended fun hexited => by rw [hexited] at hhold; cases hhold
  rw [held, gathered, hhold] at hkept
  rw [buffers, hhold] at hbuffers
  refine ⟨?_, h.legal, ?_, fun _ => ⟨hunended.eof, hunended.error, hunended.log,
    hunended.stop⟩, ?_, hreading⟩
  · rw [held, gathered, hhold']
    dsimp only at hkept ⊢
    rw [hgeneration, hbatch]
    exact hkept
  · rw [buffers, hhold']
    simp only [toList_some, map_cons, map_nil] at hbuffers ⊢
    rw [hbatch]
    exact hbuffers
  · intro _ hother
    rw [hhold'] at hother
    cases hother
    rw [hgeneration]
    exact h.past hold hhold

theorem Conserved.acquire (hworker : g.worker = .acquiring) : Conserved g.acquire := by
  have hunended := h.unended (by rw [hworker]; exact Worker.noConfusion)
  have hkept := h.kept
  have hbuffers := h.whole
  rw [held, gathered, hworker] at hkept
  rw [buffers, hworker] at hbuffers
  unfold Gather.acquire
  split
  · exact ⟨hkept, h.legal, hbuffers, fun hne => absurd rfl hne, (fun _ h => by cases h),
      fun _ h => by cases h⟩
  split
  · exact h
  rename_i buffer hlast
  refine ⟨?_, h.legal, ?_, fun _ => ⟨hunended.eof, hunended.error, hunended.log,
    hunended.stop⟩, ?_, fun _ h => by cases h⟩
  · rw [hkept, held, gathered]
    simp [Worker.hold, rest]
  · obtain ⟨front, hfront⟩ := List.getLast?_eq_some_iff.mp hlast
    refine List.Perm.trans ?_ hbuffers
    rw [buffers, hfront, dropLast_concat]
    simp only [Worker.hold, toList_some, toList_none, map_cons, map_nil,
      append_nil, append_assoc, cons_append, nil_append]
    refine List.Perm.append_left front ?_
    rw [← append_assoc]
    refine List.perm_middle.trans ?_
    rw [append_assoc]
  · intro _ hhold
    cases hhold
    exact Nat.le_refl _

theorem Conserved.check {hold : Hold} (hworker : g.worker = .checking hold) :
    Conserved (g.check hold) := by
  have hhold : g.worker.hold = some hold := by rw [hworker]; rfl
  unfold Gather.check
  split
  · exact h.moved hhold rfl rfl rfl nofun
  · rename_i hgo
    refine h.moved hhold rfl rfl rfl fun other hother => ?_
    cases hother
    by_contra hne
    exact hgo (Or.inr (Ne.symm hne))

/-- Bytes are read under the generation of the buffer. -/
theorem Conserved.arrived {hold : Hold} (hworker : g.worker = .reading hold)
    (bytes : List UInt8) {worker : Worker}
    (hworker' : worker.hold = some { hold with bytes := hold.bytes ++ bytes, tried := 0 })
    (hreading : ∀ hold, worker ≠ .reading hold) :
    Conserved { g.record (.arrived bytes) with worker := worker } := by
  have hhold : g.worker.hold = some hold := by rw [hworker]; rfl
  have hgeneration := h.reading hold hworker
  have hunended := h.unended (by rw [hworker]; nofun)
  have hkept := h.kept
  have hbuffers := h.whole
  rw [held, gathered, hhold] at hkept
  rw [buffers, hhold] at hbuffers
  dsimp only at hkept
  rw [if_pos hgeneration] at hkept
  refine ⟨?_, h.legal.concat trivial, ?_, fun _ => ⟨hunended.eof, hunended.error, ?_,
    hunended.stop⟩, ?_, fun other hother => absurd hother (hreading other)⟩
  · rw [held, gathered, hworker']
    change undelivered (g.log ++ [.arrived bytes]) = _
    rw [undelivered_concat, Event.leaves, hkept]
    change _ = _ ++ _ ++ (if hold.generation = g.generation then hold.bytes ++ bytes else [])
    rw [if_pos hgeneration]
    exact append_assoc ..
  · rw [buffers, hworker']
    exact hbuffers
  · intro hmem
    rcases List.mem_append.mp hmem with hmem | hmem
    · exact hunended.log hmem
    · simp at hmem
  · intro _ hother
    rw [hworker'] at hother
    cases hother
    exact h.past hold hhold

theorem Conserved.readFile {hold : Hold} (hworker : g.worker = .reading hold)
    (late : Bool) (result : ReadResult) : Conserved (g.readFile hold late result) := by
  have hhold : g.worker.hold = some hold := by rw [hworker]; rfl
  cases result with
  | bytes =>
    dsimp only [Gather.readFile]
    split
    · exact h.moved hhold rfl rfl rfl nofun
    · refine h.arrived hworker _ ?_ ?_
      · split <;> rfl
      · intro _
        split <;> nofun
  | interrupted | failed => exact h.moved hhold rfl rfl rfl nofun
  | wouldBlock =>
    dsimp only [Gather.readFile]
    split
    · exact h.moved hhold rfl rfl rfl nofun
    split
    · exact h.moved hhold rfl rfl rfl nofun
    split
    · exact h.moved hhold rfl rfl rfl nofun
    split
    · exact h.moved hhold rfl rfl rfl nofun
    · exact h.moved hhold rfl rfl rfl nofun

theorem Conserved.bridge {hold : Hold} (hworker : g.worker = .bridging hold) :
    Conserved (g.bridge hold) := by
  have hhold : g.worker.hold = some hold := by rw [hworker]; rfl
  unfold Gather.bridge
  split
  · exact h.moved hhold rfl rfl rfl nofun
  · exact h.moved hhold rfl rfl rfl nofun

theorem Conserved.polled {hold : Hold} (hworker : g.worker = .polling hold)
    (interrupted : Bool) (result : PollResult) : Conserved (g.polled hold interrupted result) := by
  have hhold : g.worker.hold = some hold := by rw [hworker]; rfl
  unfold Gather.polled
  split
  · exact h.moved hhold rfl rfl rfl nofun
  have hafter : (if hold.bytes ≠ [] ∧ (result = .timedOut ∨ interrupted) then
      Worker.publishing hold none else .checking hold).hold = some hold := by
    split <;> rfl
  refine h.moved hhold hafter rfl rfl ?_
  · intro _ hother
    split at hother <;> cases hother

end

/-- What becomes of the worker's buffer when it is published. -/
theorem publish_frame (g : Gather) (hold : Hold) (ending : Option Ending) :
    (g.publish hold ending).log = g.log ∧ (g.publish hold ending).current = g.current ∧
      (g.publish hold ending).offset = g.offset ∧ (g.publish hold ending).owner = g.owner ∧
      (g.publish hold ending).stop = g.stop ∧ (g.publish hold ending).generation = g.generation ∧
      (g.publish hold ending).worker.hold = none ∧ ((g.publish hold ending).worker ≠ .exited →
        (g.publish hold ending).eof = g.eof ∧ (g.publish hold ending).error = g.error) ∧
      ((hold.bytes ≠ [] ∧ hold.generation = g.generation) ∧
          (g.publish hold ending).ready = g.ready ++ [hold.toBatch] ∧
          (g.publish hold ending).free = g.free ∨
        ¬(hold.bytes ≠ [] ∧ hold.generation = g.generation) ∧
          (g.publish hold ending).ready = g.ready ∧
          (g.publish hold ending).free = g.free ++ [hold.buffer]) := by
  by_cases hfresh : hold.bytes ≠ [] ∧ hold.generation = g.generation
  · rcases ending with _ | _ | error
    · cases hstop : g.stop <;> simp [publish, hfresh, Worker.hold, hstop]
    · simp [publish, hfresh, Worker.hold]
    · simp [publish, hfresh, Worker.hold]
  · rcases ending with _ | _ | _
    · cases hstop : g.stop <;> simp only [publish, if_neg hfresh, hstop] <;>
        simp [Worker.hold, hfresh]
    · simp only [publish, if_neg hfresh]
      simp [Worker.hold, hfresh]
    · simp only [publish, if_neg hfresh]
      simp [Worker.hold, hfresh]

theorem Conserved.publish (h : Conserved g) {hold : Hold} {ending : Option Ending}
    (hworker : g.worker = .publishing hold ending) : Conserved (g.publish hold ending) := by
  have hhold : g.worker.hold = some hold := by rw [hworker]; rfl
  have hunended := h.unended (by rw [hworker]; nofun)
  have hkept := h.kept
  have hbuffers := h.whole
  obtain ⟨hlog, hcurrent, hoffset, howner, hstop, -, hnone, hending, hqueue⟩ :=
    publish_frame g hold ending
  rw [held, gathered, hhold] at hkept
  rw [buffers, hhold] at hbuffers
  dsimp only at hkept
  have hrest : (g.publish hold ending).rest = g.rest := by
    unfold rest
    rw [hcurrent, hoffset]
  refine ⟨?_, by rw [hlog]; exact h.legal, ?_, fun hne => ?_, ?_, ?_⟩
  · rw [hlog, hkept, held, gathered, hnone, hrest]
    dsimp only
    rcases hqueue with ⟨⟨-, hgeneration⟩, hready, -⟩ | ⟨hstale, hready, -⟩
    · rw [if_pos hgeneration, hready]
      simp
    rw [hready]
    by_cases hgeneration : hold.generation = g.generation
    · rw [if_pos hgeneration]
      have hempty : hold.bytes = [] := by
        by_contra hne
        exact hstale ⟨hne, hgeneration⟩
      rw [hempty]
    · rw [if_neg hgeneration]
  · refine List.Perm.trans ?_ hbuffers
    rw [buffers, hnone, hcurrent, howner]
    rcases hqueue with ⟨-, hready, hfree⟩ | ⟨-, hready, hfree⟩
    · rw [hready, hfree, map_append]
      simp only [toList_some, toList_none, map_cons, map_nil,
        append_nil, append_assoc]
      refine List.Perm.append_left _ (List.Perm.append_left _ ?_)
      rw [← append_assoc, ← append_assoc]
      exact List.Perm.append_right _ perm_append_comm
    · rw [hready, hfree]
      simp only [toList_some, toList_none, map_cons, map_nil,
        append_nil, append_assoc]
      refine List.Perm.append_left _ ?_
      have hmoved := perm_append_comm_assoc [hold.buffer]
        (g.ready.map (·.buffer) ++ g.current.toList.map (·.buffer)) g.owner.buffers
      simpa only [append_assoc] using hmoved
  · refine ⟨(hending hne).1.trans hunended.eof, (hending hne).2.trans hunended.error, ?_, ?_⟩
    · rw [hlog]
      exact hunended.log
    · rw [hstop, howner]
      exact hunended.stop
  · intro other hother
    rw [hnone] at hother
    cases hother
  · intro _ hother
    rw [hother] at hnone
    cases hnone

/-! ### The owner -/

/-- Where the owner is not joining, and the worker has not exited, nothing is to end. -/
theorem Conserved.open_of (h : Conserved g) (howner : g.owner ≠ .joining) :
    (g.worker = .exited) ∨ g.stop = false ∧ g.eof = false ∧ g.error = none := by
  by_cases hexited : g.worker = .exited
  · exact Or.inl hexited
  · have hunended := h.unended hexited
    refine Or.inr ⟨?_, hunended.eof, hunended.error⟩
    by_contra hstop
    exact howner (hunended.stop ((Bool.not_eq_false _).mp hstop))

/-- With no batch at hand and the worker gone, everything is delivered. -/
theorem held_eq_nil (hcurrent : g.current = none) (hready : g.ready = [])
    (hworker : g.worker = .exited) : g.held = [] := by
  rw [held, rest, hcurrent, hready, gathered, hworker]
  rfl

section

variable (h : Conserved g)
include h

/-- The owner returns from a read by which it learns of the end. -/
theorem Conserved.told {event : Event} (hcurrent : g.current = none)
    (hready : g.ready = []) (hworker : g.worker = .exited)
    (hevent : event = .ended ∨ ∃ error, event = .failed error)
    {error : Option IoError} {tokens offset : ℕ} {busy : Bool} : Conserved { g with
      log := g.log ++ [event], error := error, tokens := tokens, offset := offset, busy := busy } := by
  have hnil := h.kept.trans (held_eq_nil hcurrent hready hworker)
  refine ⟨?_, ?_, h.whole, fun hne => absurd hworker hne, h.past, h.reading⟩
  · refine Eq.trans ?_ (held_eq_nil (by exact hcurrent) (by exact hready) (by exact hworker)).symm
    rw [undelivered_concat, hnil]
    rcases hevent with rfl | ⟨error, rfl⟩ <;> rfl
  · refine h.legal.concat ?_
    rcases hevent with rfl | ⟨_, rfl⟩ <;> exact hnil

theorem Conserved.beginRead (howner : g.owner = .resting) (room : ℕ) :
    Conserved (g.beginRead room) := by
  have hbuffers := h.whole
  have hopen := h.open_of (by rw [howner]; nofun)
  rw [buffers, howner] at hbuffers
  unfold Gather.beginRead
  split
  · exact h
  split
  · refine ⟨h.kept, h.legal, hbuffers, fun hne => ?_, h.past, h.reading⟩
    obtain ⟨heof, herror, hlog, hstop⟩ := h.unended hne
    refine ⟨heof, herror, hlog, fun hstopped => ?_⟩
    rw [hstop hstopped] at howner
    cases howner
  · rename_i hcurrent
    have hcurrent : g.current = none := by simpa using hcurrent
    split
    · rename_i batch rest' hready
      refine ⟨?_, h.legal, ?_, fun hne => ?_, h.past, h.reading⟩
      · change undelivered g.log = _
        rw [h.kept, held, rest, hcurrent, hready, held, rest]
        simp [gathered]
      · refine List.Perm.trans ?_ hbuffers
        rw [hcurrent, hready]
        simp only [buffers, Owner.buffers, toList_some, toList_none, map_cons,
          map_nil, append_nil, append_assoc, cons_append]
        exact List.Perm.append_left _ perm_middle
      · obtain ⟨heof, herror, hlog, hstop⟩ := h.unended hne
        refine ⟨heof, herror, hlog, fun hstopped => ?_⟩
        rw [hstop hstopped] at howner
        cases howner
    · rename_i hready
      dsimp only
      split
      · rename_i error herror
        have hworker : g.worker = .exited := by
          rcases hopen with hexited | ⟨-, -, hnone⟩
          · exact hexited
          · rw [hnone] at herror
            cases herror
        exact h.told hcurrent hready hworker (Or.inr ⟨error, rfl⟩)
      · split
        · rename_i hend
          have hworker : g.worker = .exited := by
            rcases hopen with hexited | ⟨hstop, heof, -⟩
            · exact hexited
            · rw [hstop, heof] at hend
              cases hend
          exact h.told hcurrent hready hworker (Or.inl rfl)
        · refine ⟨?_, h.legal, h.whole, fun hne => ⟨(h.unended hne).eof, (h.unended hne).error,
            (h.unended hne).log, (h.unended hne).stop⟩, h.past, h.reading⟩
          rw [h.kept]
          unfold held rest
          dsimp only
          rw [hcurrent]
          rfl

theorem Conserved.copy {room : ℕ} (howner : g.owner = .copying room) : Conserved (g.copy room) := by
  have hbuffers := h.whole
  have hkept := h.kept
  rw [buffers, howner] at hbuffers
  unfold Gather.copy
  split
  · exact h
  rename_i batch hcurrent
  rw [held, rest, hcurrent] at hkept
  rw [hcurrent] at hbuffers
  dsimp only at hkept ⊢
  generalize hcount : min room (batch.bytes.length - g.offset) = count
  generalize hbytes : (batch.bytes.drop g.offset).take count = bytes
  have hlength : bytes.length = count := by
    rw [← hbytes, length_take, length_drop]
    omega
  have hdrop : undelivered (g.log ++ [.delivered bytes]) =
      batch.bytes.drop (g.offset + count) ++ g.ready.flatMap (·.bytes) ++ g.gathered := by
    rw [undelivered_concat, Event.leaves, hkept, hlength, append_assoc, append_assoc,
      drop_append_of_le_length (by rw [length_drop]; omega), drop_drop]
  have hlegal : Throughout undelivered Event.Legal (g.log ++ [.delivered bytes]) := by
    refine h.legal.concat ?_
    rw [Event.Legal, hkept, ← hbytes, append_assoc]
    exact ( take_prefix ..).trans (prefix_append ..)
  have hlog : ∀ hne : g.worker ≠ .exited, Event.ended ∉ g.log ++ [.delivered bytes] := by
    intro hne hmem
    rcases List.mem_append.mp hmem with hmem | hmem
    · exact (h.unended hne).log hmem
    · simp at hmem
  have hstop : g.worker ≠ .exited → g.stop = false := by
    intro hne
    rcases h.open_of (by rw [howner]; nofun) with hexited | ⟨hstop, -, -⟩
    · exact absurd hexited hne
    · exact hstop
  split
  · rename_i hend
    refine ⟨?_, hlegal, ?_, fun hne => ⟨(h.unended hne).eof, (h.unended hne).error, hlog hne,
      fun hstopped => ?_⟩, h.past, h.reading⟩
    · change undelivered (g.log ++ [.delivered bytes]) = _
      have hnil : batch.bytes.drop (g.offset + count) = [] :=
        drop_eq_nil_of_le (Nat.le_of_eq hend.symm)
      rw [hdrop, hnil]
      rfl
    · refine List.Perm.trans ?_ hbuffers
      simp only [buffers, Owner.buffers, toList_some, toList_none, map_cons,
        map_nil, append_nil, append_assoc]
      refine List.Perm.append_left _ (List.Perm.append_left _ ?_)
      exact perm_append_comm
    · change g.stop = true at hstopped
      rw [hstop hne] at hstopped
      cases hstopped
  · refine ⟨?_, hlegal, ?_, fun hne => ⟨(h.unended hne).eof, (h.unended hne).error, hlog hne,
      fun hstopped => ?_⟩, h.past, h.reading⟩
    · change undelivered (g.log ++ [.delivered bytes]) = _
      rw [hdrop, held, rest]
      change _ = (match g.current with | none => _ | some batch => _) ++ _ ++ _
      rw [hcurrent]
      rfl
    · change (g.free ++ g.ready.map (·.buffer) ++ g.current.toList.map (·.buffer) ++ _ ++
        _).Perm _
      rw [hcurrent]
      exact hbuffers
    · change g.stop = true at hstopped
      rw [hstop hne] at hstopped
      cases hstopped

theorem Conserved.release {buffer : ℕ} (howner : g.owner = .releasing buffer) :
    Conserved (g.release buffer) := by
  have hbuffers := h.whole
  rw [buffers, howner] at hbuffers
  refine ⟨h.kept, h.legal, ?_, fun hne => ⟨(h.unended hne).eof, (h.unended hne).error,
    (h.unended hne).log, fun hstopped => ?_⟩, h.past, h.reading⟩
  · refine List.Perm.trans ?_ hbuffers
    simp only [Gather.release, buffers, Owner.buffers, append_nil, append_assoc]
    refine List.Perm.append_left _ ?_
    have hmoved : ([buffer] ++ (g.ready.map (·.buffer) ++ (g.current.toList.map (·.buffer) ++
        g.worker.hold.toList.map (·.buffer)))).Perm _ := perm_append_comm
    simpa only [append_assoc] using hmoved
  · rcases h.open_of (by rw [howner]; nofun) with hexited | ⟨hstop, -, -⟩
    · exact absurd hexited hne
    · change g.stop = true at hstopped
      rw [hstop] at hstopped
      cases hstopped

theorem Conserved.reset (hresettable : g.resettable = true) : Conserved g.reset := by
  have hbuffers := h.whole
  rw [buffers] at hbuffers
  refine ⟨?_, h.legal.concat trivial, ?_, fun hne => ⟨(h.unended hne).eof, (h.unended hne).error,
    ?_, (h.unended hne).stop⟩, fun hold hhold => ?_, fun hold hhold => ?_⟩
  · change undelivered (g.log ++ [.reset]) = _
    rw [undelivered_concat, Event.leaves, held, gathered]
    change [] = [] ++ [] ++ match g.worker.hold with
      | none => []
      | some hold => if hold.generation = g.generation + 1 then hold.bytes else []
    cases hhold : g.worker.hold with
    | none => rfl
    | some hold =>
      have hpast := h.past hold hhold
      dsimp only
      rw [if_neg (by omega)]
      rfl
  · refine List.Perm.trans ?_ hbuffers
    change (g.free ++ (g.ready ++ g.current.toList).map Batch.buffer ++ [] ++ [] ++
      g.worker.hold.toList.map (fun hold : Hold => hold.buffer) ++ g.owner.buffers).Perm _
    rw [map_append]
    simp only [append_nil, append_assoc]
    exact List.Perm.refl _
  · intro hmem
    rcases List.mem_append.mp hmem with hmem | hmem
    · exact (h.unended hne).log hmem
    · simp at hmem
  · exact Nat.le_succ_of_le (h.past hold hhold)
  · change g.worker = .reading hold at hhold
    rw [resettable, hhold] at hresettable
    simp at hresettable

theorem Conserved.step (act : Act) : Conserved (g.step act) := by
  cases act with
  | work result late poll interrupted =>
    dsimp only [Gather.step]
    unfold Gather.work
    split
    · exact h.acquire ‹_›
    · exact h.check ‹_›
    · exact h.readFile ‹_› late result
    · exact h.bridge ‹_›
    · exact h.polled ‹_› interrupted poll
    · exact h.publish ‹_›
    · exact h
  | beginRead room =>
    dsimp only [Gather.step]
    split
    · exact h.beginRead ‹_› room
    · exact h
  | proceed =>
    dsimp only [Gather.step]
    unfold Gather.proceed
    split
    · exact h
    · exact h.copy ‹_›
    · exact h.release ‹_›
    rename_i howner
    unfold Gather.join
    split
    · rename_i hexited
      have hbuffers := h.whole
      rw [buffers, howner] at hbuffers
      exact ⟨h.kept, h.legal, hbuffers, fun hne => absurd hexited hne, h.past, h.reading⟩
    · exact h
  | idle =>
    dsimp only [Gather.step]
    split
    · exact ⟨h.kept, h.legal, h.whole, fun hne => ⟨(h.unended hne).eof, (h.unended hne).error,
        (h.unended hne).log, (h.unended hne).stop⟩, h.past, h.reading⟩
    · exact h
  | stop =>
    dsimp only [Gather.step]
    split
    · rename_i howner
      have hbuffers := h.whole
      rw [buffers, howner] at hbuffers
      exact ⟨h.kept, h.legal, hbuffers, fun hne => ⟨(h.unended hne).eof, (h.unended hne).error,
        (h.unended hne).log, fun _ => rfl⟩, h.past, h.reading⟩
    · exact h
  | reset =>
    dsimp only [Gather.step]
    split
    · exact h.reset ‹_›
    · exact h

end

theorem run_conserved (acts : List Act) : Conserved (run acts) := by
  induction acts using List.reverseRecOn with
  | nil => exact conserved_start
  | append_singleton _ act ih =>
    rw [run_concat]
    exact ih.step act

end Gather

end Vivido.Tty
