import Vivido.Ipc.InFlight

/-!
What a step does to a connection, in the order of its parts. Whatever holds at
the start and is kept by each part holds after every run.
-/

namespace Vivido.Ipc

open Vivido.Automation List

variable {V : Type} {size : ResponseEnvelope V → Option ℕ} {c c' : Connection V}

namespace Connection

def readerCall (c : Connection V) : Option (Call V) :=
  match c.reader with
  | .calling call _ => some call
  | _ => none

/-- The calls that are under way. -/
def pending (c : Connection V) : List (Call V) := c.readerCall.toList ++ c.calls

/-- Nothing happens to the table, the calls and the log. -/
structure Quiet (c c' : Connection V) : Prop where
  alive : c'.alive = true → c.alive = true
  serving : c'.serving = true → c.serving = true
  inFlight : c'.inFlight = c.inFlight
  pending : c'.pending = c.pending
  log : c'.log = c.log

/-- A call takes its next step. -/
structure Advanced (size : ResponseEnvelope V → Option ℕ) (call : Call V) (c c' : Connection V) :
    Prop where
  alive : c'.alive = (c.advance size call).1.alive
  serving : c'.serving = (c.advance size call).1.serving
  inFlight : c'.inFlight = (c.advance size call).1.inFlight
  log : c'.log = (c.advance size call).1.log
  pending : ∃ left right, c.pending = left ++ call :: right ∧
    c'.pending = left ++ (c.advance size call).2.toList ++ right

/-- A call begins. -/
structure Begun (call : Call V) (event : Event V) (c c' : Connection V) : Prop where
  alive : c'.alive = c.alive
  serving : c'.serving = c.serving
  inFlight : c'.inFlight = c.inFlight
  log : c'.log = c.log ++ [event]
  pending : ∃ left right, c.pending = left ++ right ∧ c'.pending = left ++ call :: right

/-- The responses that a reader refuses a frame with. -/
def Refusal (c : Connection V) (response : ResponseEnvelope V) : Prop :=
  (response.id ∈ c.inFlight ∧ response = .duplicate response.id) ∨
    (maxInFlightRequests ≤ c.inFlight.card ∧ response = .overLimit response.id) ∨
    response = .oversizedFrame ∨
    ∃ text, response = .failure 0 ⟨"invalid_request", "invalid IPC request: " ++ text, none⟩

section

variable {P : Connection V → Prop}

/-- What each part of a step keeps. -/
structure Kept (size : ResponseEnvelope V → Option ℕ) (P : Connection V → Prop) : Prop where
  quiet : ∀ c c', P c → Quiet c c' → P c'
  advanced : ∀ c c' call, P c → Advanced size call c c' → P c'
  called : ∀ c c' response, P c → Begun (.finish response) (.called response.id) c c' → P c'
  refused : ∀ c c' response, P c → Refusal c response →
    Begun (.offer .protocolError response) (.refused response) c c' → P c'
  accepted : ∀ c id, P c → id ∉ c.inFlight → c.inFlight.card < maxInFlightRequests →
    P { c.record (.accepted id) with inFlight := insert id c.inFlight }
  dispatched : ∀ c c' request, P c → Quiet (c.record (.dispatched request)) c' → P c'

theorem readerCall_of_reading {greeted : Bool} (h : c.reader = .reading greeted) :
    c.readerCall = none := by rw [readerCall, h]

theorem Kept.answering (h : Kept size P) (hc : P c) (hreader : c.readerCall = none)
    (response : ResponseEnvelope V) (goesOn : Bool) : P (c.answering response goesOn) := by
  refine h.called c _ response hc ⟨rfl, rfl, rfl, rfl, [], c.calls, ?_, rfl⟩
  rw [pending, hreader]
  rfl

theorem Kept.refusing (h : Kept size P) (hc : P c) (hreader : c.readerCall = none)
    {response : ResponseEnvelope V} (hrefusal : Refusal c response) (goesOn : Bool) :
    P (c.refusing response goesOn) := by
  refine h.refused c _ response hc hrefusal ⟨rfl, rfl, rfl, rfl, [], c.calls, ?_, rfl⟩
  rw [pending, hreader]
  rfl

theorem insertRequestId_cases (c : Connection V) (id : UInt64) :
    (∃ response, c.insertRequestId id = .error response ∧ Refusal c response) ∨
      (c.insertRequestId id =
          .ok { c.record (.accepted id) with inFlight := insert id c.inFlight } ∧
        id ∉ c.inFlight ∧ c.inFlight.card < maxInFlightRequests) := by
  unfold insertRequestId
  by_cases hmem : id ∈ c.inFlight
  · rw [if_pos hmem]
    exact Or.inl ⟨_, rfl, Or.inl ⟨hmem, rfl⟩⟩
  · rw [if_neg hmem]
    by_cases hcard : maxInFlightRequests ≤ c.inFlight.card
    · rw [if_pos hcard]
      exact Or.inl ⟨_, rfl, Or.inr (Or.inl ⟨hcard, rfl⟩)⟩
    · rw [if_neg hcard]
      exact Or.inr ⟨rfl, hmem, Nat.lt_of_not_le hcard⟩

section

variable (h : Kept size P) (hc : P c) (hreader : c.readerCall = none)
  (frame : Except String (RequestEnvelope V))
include h hc hreader frame

theorem Kept.greet : P (c.greet frame) := by
  cases frame with
  | error => exact h.answering hc hreader _ _
  | ok first =>
    dsimp only [Connection.greet]
    split
    · exact h.answering hc hreader _ _
    split
    · exact h.answering hc hreader _ _
    rcases insertRequestId_cases c first.id with ⟨_, heq, hrefusal⟩ | ⟨heq, hnew, hroom⟩
    · rw [heq]
      exact h.refusing hc hreader hrefusal _
    · rw [heq]
      refine h.quiet _ _ (h.accepted c first.id hc hnew hroom) ⟨id, id, rfl, ?_, rfl⟩
      change [] ++ c.calls = c.readerCall.toList ++ c.calls
      rw [hreader]
      rfl

theorem Kept.serve : P (c.serve frame) := by
  cases frame with
  | error text =>
    exact h.refusing hc hreader (Or.inr (Or.inr (Or.inr ⟨text, rfl⟩))) _
  | ok request =>
    dsimp only [Connection.serve]
    rcases insertRequestId_cases c request.id with ⟨_, heq, hrefusal⟩ | ⟨heq, hnew, hroom⟩
    · rw [heq]
      exact h.refusing hc hreader hrefusal _
    rw [heq]
    have haccepted := h.accepted c request.id hc hnew hroom
    dsimp only
    split
    · exact h.answering haccepted hreader _ _
    split
    · exact h.answering haccepted hreader _ _
    refine h.quiet _ _ haccepted ⟨id, id, rfl, ?_, rfl⟩
    change [] ++ c.calls = c.readerCall.toList ++ c.calls
    rw [hreader]
    rfl

end

theorem failed_frame (purpose : Purpose) (response : ResponseEnvelope V) (why : QueueError) :
    (c.failed purpose response why).1.reader = c.reader ∧
      (c.failed purpose response why).1.calls = c.calls := by
  unfold failed
  split <;> exact ⟨rfl, rfl⟩

/-- Where the threads are is not what a call's step changes. -/
theorem advance_frame (size : ResponseEnvelope V → Option ℕ) (c : Connection V) (call : Call V) :
    (c.advance size call).1.reader = c.reader ∧ (c.advance size call).1.calls = c.calls := by
  cases call with
  | finish | release => exact ⟨rfl, rfl⟩
  | offer =>
    dsimp only [advance]
    split
    · exact failed_frame ..
    split
    · exact failed_frame ..
    split
    · exact failed_frame ..
    · exact ⟨rfl, rfl⟩
  | send =>
    dsimp only [advance]
    split
    · exact failed_frame ..
    split
    · exact failed_frame ..
    · exact ⟨rfl, rfl⟩

theorem Kept.proceed (h : Kept size P) (hc : P c) (taken : Bool) : P (c.proceed size taken) := by
  unfold Connection.proceed
  split
  · rename_i call goesOn hreader
    have hpending : c.pending = [] ++ call :: c.calls := by
      rw [pending, readerCall, hreader]
      rfl
    have hcalls := (advance_frame size c call).2
    dsimp only
    split
    · rename_i next hnext
      refine h.advanced c _ call hc ⟨rfl, rfl, rfl, rfl, [], c.calls, hpending, ?_⟩
      rw [hnext]
      exact congrArg _ hcalls
    · rename_i hnext
      refine h.advanced c _ call hc ⟨rfl, rfl, rfl, rfl, [], c.calls, hpending, ?_⟩
      rw [hnext]
      cases goesOn <;> exact hcalls
  · rename_i request hreader
    have hcall : c.readerCall = none := by rw [readerCall, hreader]
    split
    · refine h.dispatched c _ request hc ⟨id, id, rfl, ?_, rfl⟩
      change [] ++ c.calls = c.readerCall.toList ++ c.calls
      rw [hcall]
      rfl
    · exact h.answering hc hcall _ _
  · exact hc

theorem Kept.callback (h : Kept size P) (hc : P c) (n : ℕ) : P (c.callback size n) := by
  unfold Connection.callback
  split
  · exact hc
  rename_i call hcall
  obtain ⟨_, rfl⟩ := List.getElem?_eq_some_iff.mp hcall
  refine h.advanced c _ _ hc ⟨rfl, rfl, rfl, rfl, c.readerCall.toList ++ c.calls.take n,
    c.calls.drop (n + 1), ?_, ?_⟩
  · rw [pending, append_assoc, getElem_cons_drop, take_append_drop]
  · rw [pending, readerCall]
    dsimp only
    rw [(advance_frame size c _).1, ← readerCall]
    simp only [append_assoc]

theorem Kept.step (h : Kept size P) (hc : P c) (act : Act V) : P (c.step size act) := by
  cases act with
  | receive frame =>
    dsimp only [Connection.step]
    unfold Connection.receive
    split
    · rename_i hreader
      exact h.greet hc (readerCall_of_reading hreader) frame
    · rename_i hreader
      exact h.serve hc (readerCall_of_reading hreader) frame
    · exact hc
  | receiveOversized =>
    dsimp only [Connection.step]
    split
    · rename_i hreader
      exact h.refusing hc (readerCall_of_reading hreader) (Or.inr (Or.inr (Or.inl rfl))) _
    · exact hc
  | endOfFrames =>
    dsimp only [Connection.step]
    split
    · rename_i hreader
      refine h.quiet c _ hc ⟨id, id, rfl, ?_, rfl⟩
      change [] ++ c.calls = c.readerCall.toList ++ c.calls
      rw [readerCall_of_reading hreader]
      rfl
    · exact hc
  | proceed taken => exact h.proceed hc taken
  | retire =>
    dsimp only [Connection.step]
    split
    · exact h.quiet c _ hc ⟨nofun, id, rfl, rfl, rfl⟩
    · exact hc
  | reply response =>
    refine h.called c _ response hc ⟨rfl, rfl, rfl, rfl, c.pending, [], ?_, ?_⟩
    · rw [append_nil]
    · exact (append_assoc ..).symm
  | callback n => exact h.callback hc n
  | notify =>
    dsimp only [Connection.step]
    split
    · exact h.quiet c _ hc ⟨id, id, rfl, rfl, rfl⟩
    · exact hc
  | take => exact h.quiet c _ hc ⟨id, id, rfl, rfl, rfl⟩
  | stopServing => exact h.quiet c _ hc ⟨id, nofun, rfl, rfl, rfl⟩
  | close => exact h.quiet c _ hc ⟨nofun, id, rfl, rfl, rfl⟩

theorem Kept.run (h : Kept size P) (hstart : P {}) (acts : List (Act V)) : P (run size acts) := by
  induction acts using List.reverseRecOn with
  | nil => exact hstart
  | append_singleton _ act ih =>
    rw [run_concat]
    exact h.step ih act

end

end Connection

end Vivido.Ipc
