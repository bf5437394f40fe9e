import Vivido.Ipc.Accounting

/-!
The account of a client's requests: what is in flight is what was accepted and
not released, and on an open connection each release comes with its reply.
-/

namespace Vivido.Ipc

open Vivido.Automation List

variable {V : Type} {size : ResponseEnvelope V → Option ℕ} {c c' : Connection V}

/-- A response that settles a request, and not one that refuses a frame. -/
def Purpose.settles : Purpose → Bool
  | .protocolError => false
  | .reply => true
  | .oversized => true

def Event.releases (id : UInt64) : Event V → Bool
  | .released other => other = id
  | _ => false

def Event.answers (id : UInt64) : Event V → Bool
  | .queued purpose response => purpose.settles && response.id = id
  | _ => false

/-- The call has released the request, and its reply is not yet queued. -/
def Call.owes (id : UInt64) : Call V → Bool
  | .offer purpose response => purpose.settles && response.id = id
  | .send purpose response => purpose.settles && response.id = id
  | _ => false

/-- The call is on its way to release the request. -/
def Call.holds (id : UInt64) : Call V → Prop
  | .finish response => response.id = id
  | .release response => response.id = id
  | _ => False

section Refusals

variable [DecidableEq V] (response : ResponseEnvelope V)

def Event.refuses : Event V → Bool
  | .refused other => other = response
  | _ => false

/-- The error of a refusal is queued, or cannot be. -/
def Event.resolves : Event V → Bool
  | .queued .protocolError other => other = response
  | .lost .protocolError other _ => other = response
  | _ => false

def Call.refuses : Call V → Bool
  | .offer .protocolError other => other = response
  | .send .protocolError other => other = response
  | _ => false

end Refusals

/-- What may be logged where some requests are outstanding. -/
def Event.Legal (active : List UInt64) : Event V → Prop
  | .accepted id => id ∉ active ∧ active.length < maxInFlightRequests
  | .refused response =>
    (response.id ∈ active ∧ response = .duplicate response.id) ∨
      (maxInFlightRequests ≤ active.length ∧ response = .overLimit response.id) ∨
      response = .oversizedFrame ∨
      ∃ text, response = .failure 0 ⟨"invalid_request", "invalid IPC request: " ++ text, none⟩
  | _ => True

namespace Connection

/-- What the next step of a call is. -/
inductive Advance (size : ResponseEnvelope V → Option ℕ) (c : Connection V) :
    Call V → Connection V × Option (Call V) → Prop where
  | finish (response : ResponseEnvelope V) (halive : c.alive = true) :
    Advance size c (.finish response) (c, some (.release response))
  | dropped (response : ResponseEnvelope V) (halive : c.alive = false) :
    Advance size c (.finish response) (c, none)
  | release (response : ResponseEnvelope V) :
    Advance size c (.release response)
      ({ c.record (.released response.id) with inFlight := c.inFlight.erase response.id },
        some (.offer .reply response))
  | offer (purpose : Purpose) (response : ResponseEnvelope V) :
    Advance size c (.offer purpose response) (c, some (.send purpose response))
  | send (purpose : Purpose) (response : ResponseEnvelope V) :
    Advance size c (.send purpose response)
      ({ c.record (.queued purpose response) with output := c.output ++ [some response] }, none)
  | offerFailed (purpose : Purpose) (response : ResponseEnvelope V) (why : QueueError)
      (hwhy : why = .closed → c.alive = false) :
    Advance size c (.offer purpose response) (c.failed purpose response why)
  | sendFailed (purpose : Purpose) (response : ResponseEnvelope V) (why : QueueError)
      (hwhy : why = .closed → c.serving = false) :
    Advance size c (.send purpose response) (c.failed purpose response why)

variable (size : ResponseEnvelope V → Option ℕ) {event : Event V} {left right : List (Call V)}

theorem advance_cases (c : Connection V) (call : Call V) :
    Advance size c call (c.advance size call) := by
  cases call with
  | finish response =>
    dsimp only [advance]
    by_cases halive : c.alive = true
    · rw [if_pos halive]
      exact .finish response halive
    · rw [if_neg halive]
      exact .dropped response (Bool.not_eq_true _ ▸ halive)
  | release response => exact .release response
  | offer purpose response =>
    dsimp only [advance]
    split
    · rename_i halive
      exact .offerFailed purpose response _ fun _ => by simpa using halive
    split
    · exact .offerFailed purpose response _ fun h => by cases h
    split
    · exact .offerFailed purpose response _ fun h => by cases h
    · exact .offer purpose response
  | send purpose response =>
    dsimp only [advance]
    split
    · rename_i hserving
      exact .sendFailed purpose response _ fun _ => by simpa using hserving
    split
    · exact .sendFailed purpose response _ fun h => by cases h
    · exact .send purpose response

/-- A response that is not queued is logged as lost, is replaced by one for the same request, or is
the last on a connection that is closed. -/
theorem failed_cases (c : Connection V) (purpose : Purpose) (response : ResponseEnvelope V)
    (why : QueueError) :
    (c.failed purpose response why).1.log = c.log ++ [.lost purpose response why] ∧
      (c.failed purpose response why).1.inFlight = c.inFlight ∧
      ((c.failed purpose response why).1.alive = true → c.alive = true) ∧
      (c.failed purpose response why).1.serving = c.serving ∧
      ((c.failed purpose response why).2 = none ∧ (purpose = .protocolError ∨ why = .closed ∨
            (c.failed purpose response why).1.alive = false) ∨ purpose = .reply ∧
          (c.failed purpose response why).2 =
            some (.offer .oversized (.oversizedReply response.id))) := by
  cases purpose <;> cases why <;>
    simp [failed, record, close]

/-! ### The table -/

/-- The table is the list of what was accepted and not released. -/
structure Tabled (c : Connection V) : Prop where
  mem : ∀ id, id ∈ c.inFlight ↔ id ∈ outstanding c.log
  nodup : (outstanding c.log).Nodup
  room : (outstanding c.log).length ≤ maxInFlightRequests
  legal : Throughout outstanding Event.Legal c.log

theorem Tabled.length (h : Tabled c) : (outstanding c.log).length = c.inFlight.card := by
  rw [← toFinset_card_of_nodup h.nodup]
  congr 1
  ext id
  rw [mem_toFinset, h.mem]

/-- An entry that opens and closes nothing. -/
theorem Tabled.other (h : Tabled c) (hinFlight : c'.inFlight = c.inFlight)
    (hlog : c'.log = c.log ++ [event]) (hevent : event.tabled = none)
    (hlegal : event.Legal (outstanding c.log)) : Tabled c' := by
  have heq : outstanding c'.log = outstanding c.log := by
    rw [hlog]
    exact openKeys_none hevent
  refine ⟨fun id => ?_, ?_, ?_, ?_⟩
  · rw [hinFlight, heq]
    exact h.mem id
  · rw [heq]
    exact h.nodup
  · rw [heq]
    exact h.room
  · rw [hlog]
    exact h.legal.concat hlegal

theorem Tabled.same (h : Tabled c) (hinFlight : c'.inFlight = c.inFlight)
    (hlog : c'.log = c.log) : Tabled c' := by
  refine ⟨fun id => ?_, ?_, ?_, ?_⟩
  · rw [hinFlight, hlog]
    exact h.mem id
  all_goals rw [hlog]
  · exact h.nodup
  · exact h.room
  · exact h.legal

theorem Tabled.accepted (h : Tabled c) {id : UInt64} (hnew : id ∉ c.inFlight)
    (hroom : c.inFlight.card < maxInFlightRequests) :
    Tabled { c.record (.accepted id) with inFlight := insert id c.inFlight } := by
  have hout : id ∉ outstanding c.log := fun hmem => hnew ((h.mem id).mpr hmem)
  have hlength := h.length
  have happly : outstanding (c.log ++ [.accepted id]) = outstanding c.log ++ [id] :=
    openKeys_concat Event.tabled c.log (.accepted id)
  refine ⟨fun other => ?_, ?_, ?_, ?_⟩
  · change other ∈ insert id c.inFlight ↔ other ∈ outstanding (c.log ++ [.accepted id])
    rw [happly, Finset.mem_insert, mem_append, mem_singleton, h.mem, or_comm]
  · refine openKeys_nodup_concat h.nodup ?_
    intro _ hkey
    cases hkey
    exact hout
  · change (outstanding (c.log ++ [.accepted id])).length ≤ _
    rw [happly, length_append, length_singleton]
    omega
  · refine h.legal.concat ⟨hout, ?_⟩
    omega

theorem Tabled.released (h : Tabled c) {id : UInt64} (hinFlight : c'.inFlight = c.inFlight.erase id)
    (hlog : c'.log = c.log ++ [.released id]) : Tabled c' := by
  have happly : outstanding (c.log ++ [Event.released id]) =
      (outstanding c.log).filter fun other => other ≠ id :=
    openKeys_concat Event.tabled c.log (.released id)
  refine ⟨fun other => ?_, ?_, ?_, ?_⟩
  · rw [hinFlight, hlog, happly, Finset.mem_erase, mem_filter, h.mem, decide_eq_true_eq,
      and_comm]
  · rw [hlog, happly]
    exact h.nodup.filter _
  · rw [hlog, happly]
    exact (length_filter_le ..).trans h.room
  · rw [hlog]
    exact h.legal.concat trivial

theorem Refusal.legal (h : Tabled c) {response : ResponseEnvelope V}
    (hrefusal : Refusal c response) : (Event.refused response).Legal (outstanding c.log) := by
  rcases hrefusal with ⟨hmem, heq⟩ | ⟨hcard, heq⟩ | hrest
  · exact Or.inl ⟨(h.mem _).mp hmem, heq⟩
  · exact Or.inr (Or.inl ⟨h.length ▸ hcard, heq⟩)
  · exact Or.inr (Or.inr hrest)

theorem tabled_kept : Kept size Tabled where
  quiet c c' h hquiet := h.same hquiet.inFlight hquiet.log
  advanced c c' call h hadvanced := by
    have hcases := advance_cases size c call
    obtain ⟨-, -, hinFlight, hlog, -⟩ := hadvanced
    revert hinFlight hlog
    generalize c.advance size call = after at hcases
    intro hinFlight hlog
    cases hcases with
    | finish | dropped | offer => exact h.same hinFlight hlog
    | release => exact h.released hinFlight hlog
    | send => exact h.other hinFlight hlog rfl trivial
    | offerFailed purpose response why hwhy | sendFailed purpose response why hwhy =>
      obtain ⟨hfailed, hkept, -⟩ := failed_cases c purpose response why
      exact h.other (hinFlight.trans hkept) (hlog.trans hfailed) rfl trivial
  called c c' response h hbegun := h.other hbegun.inFlight hbegun.log rfl trivial
  refused c c' response h hrefusal hbegun :=
    h.other hbegun.inFlight hbegun.log rfl (hrefusal.legal h)
  accepted c id h hnew hroom := h.accepted hnew hroom
  dispatched c c' request h hquiet := h.other hquiet.inFlight hquiet.log rfl trivial

/-! ### Entries and calls in balance -/

/-- What some entries of the log give, others take or a call is about to take. -/
def Balance (gives takes : Event V → Bool) (owes : Call V → Bool) (c : Connection V) : Prop :=
  c.log.countP gives = c.log.countP takes + c.pending.countP owes

variable {gives takes : Event V → Bool} {owes : Call V → Bool}

/-- A call's step, where it changes neither side or both by as much. -/
theorem Balance.advanced (h : Balance gives takes owes c) {call : Call V} {next : Option (Call V)}
    {events : List (Event V)} (hpending : c.pending = left ++ call :: right)
    (hpending' : c'.pending = left ++ next.toList ++ right) (hlog : c'.log = c.log ++ events)
    (hcount : events.countP gives + (owes call).toNat =
      events.countP takes + next.toList.countP owes) : Balance gives takes owes c' := by
  rw [Balance, hpending] at h
  rw [Balance, hlog, hpending']
  simp only [countP_append, countP_cons] at h ⊢
  cases hcall : owes call with
  | false =>
    rw [hcall] at h hcount
    simp only [Bool.toNat_false, Bool.false_eq_true, if_false] at h hcount
    omega
  | true =>
    rw [hcall] at h hcount
    simp only [Bool.toNat_true, if_true] at h hcount
    omega

theorem Balance.begun (h : Balance gives takes owes c) {call : Call V}
    (hbegun : Begun call event c c')
    (hcount : (gives event).toNat = (takes event).toNat + (owes call).toNat) :
    Balance gives takes owes c' := by
  obtain ⟨_, _, hpending, hpending'⟩ := hbegun.pending
  rw [Balance, hpending] at h
  rw [Balance, hbegun.log, hpending']
  simp only [countP_append, countP_cons, countP_nil] at h ⊢
  cases hgives : gives event <;> cases htakes : takes event <;> cases howes : owes call <;>
    simp_all <;> omega

/-- An entry that is on neither side. -/
theorem Balance.logged (h : Balance gives takes owes c) (hlog : c'.log = c.log ++ [event])
    (hpending : c'.pending = c.pending) (hgives : gives event = false)
    (htakes : takes event = false) : Balance gives takes owes c' := by
  rw [Balance] at h
  rw [Balance, hlog, hpending]
  simpa [countP_append, hgives, htakes] using h

/-! ### Releases and replies -/

/-- On an open connection, what is released is what is answered, and what a call is about to
answer. -/
def Settled (c : Connection V) : Prop :=
  c.alive = true → c.serving = true → ∀ id,
    Balance (Event.releases id) (Event.answers id) (Call.owes id) c

/-- A response that is not queued on an open connection is no reply, or has a successor. -/
theorem Settled.failed (h : Settled c) {call : Call V} {purpose : Purpose}
    {response : ResponseEnvelope V} {why : QueueError}
    (hcall : ∀ id, call.owes id = (purpose.settles && response.id = id))
    (hwhy : why = .closed → c.alive = false ∨ c.serving = false)
    (halive : c'.alive = (c.failed purpose response why).1.alive)
    (hserving : c'.serving = (c.failed purpose response why).1.serving)
    (hlog : c'.log = (c.failed purpose response why).1.log)
    (hpending : c.pending = left ++ call :: right)
    (hpending' : c'.pending = left ++ (c.failed purpose response why).2.toList ++ right) :
    Settled c' := by
  obtain ⟨hfailed, -, hlive, hserve, hnext⟩ := failed_cases c purpose response why
  intro halive' hserving' id
  have hopen : c.alive = true ∧ c.serving = true :=
    ⟨hlive (halive ▸ halive'), by rw [← hserve, ← hserving]; exact hserving'⟩
  refine (h hopen.1 hopen.2 id).advanced hpending hpending' (hlog.trans hfailed) ?_
  rw [hcall]
  rcases hnext with ⟨hnone, hcause⟩ | ⟨rfl, hsome⟩
  · rw [hnone]
    rcases hcause with rfl | hclosed | hdead
    · rfl
    · rcases hwhy hclosed with hdead | hdead
      · rw [hopen.1] at hdead
        cases hdead
      · rw [hopen.2] at hdead
        cases hdead
    · rw [← halive, halive'] at hdead
      cases hdead
  · rw [hsome]
    by_cases hid : response.id = id
    · simp [Event.releases, Event.answers, Call.owes, Purpose.settles, hid,
        ResponseEnvelope.oversizedReply, ResponseEnvelope.failure]
    · simp [Event.releases, Event.answers, Call.owes, Purpose.settles, hid,
        ResponseEnvelope.oversizedReply, ResponseEnvelope.failure]

theorem settled_kept : Kept size Settled where
  quiet c c' h hquiet := by
    intro halive hserving id
    rw [Balance, hquiet.log, hquiet.pending]
    exact h (hquiet.alive halive) (hquiet.serving hserving) id
  advanced c c' call h hadvanced := by
    have hcases := advance_cases size c call
    obtain ⟨halive, hserving, -, hlog, _, _, hpending, hpending'⟩ := hadvanced
    revert halive hserving hlog hpending'
    generalize c.advance size call = after at hcases
    intro halive hserving hlog hpending'
    cases hcases with
    | finish response _ | dropped response _ =>
      intro halive' hserving' id
      exact (h (halive ▸ halive') (hserving ▸ hserving') id).advanced hpending hpending'
        (hlog.trans (append_nil _).symm) rfl
    | offer purpose response =>
      intro halive' hserving' id
      refine (h (halive ▸ halive') (hserving ▸ hserving') id).advanced hpending hpending'
        (hlog.trans (append_nil _).symm) ?_
      by_cases hid : response.id = id <;> cases purpose <;> simp [Call.owes, Purpose.settles, hid]
    | release =>
      intro halive' hserving' id
      refine (h (halive ▸ halive') (hserving ▸ hserving') id).advanced hpending hpending' hlog ?_
      simp [Event.releases, Event.answers, Call.owes, Purpose.settles]
    | send purpose response =>
      intro halive' hserving' id
      refine (h (halive ▸ halive') (hserving ▸ hserving') id).advanced hpending hpending' hlog ?_
      by_cases hid : response.id = id <;> cases purpose <;>
        simp [Event.releases, Event.answers, Call.owes, Purpose.settles, hid]
    | offerFailed _ _ _ hwhy =>
      exact h.failed (fun id => rfl) (fun h' => Or.inl (hwhy h')) halive hserving hlog hpending
        hpending'
    | sendFailed _ _ _ hwhy =>
      exact h.failed (fun id => rfl) (fun h' => Or.inr (hwhy h')) halive hserving hlog hpending
        hpending'
  called c c' response h hbegun := fun halive hserving id =>
    (h (hbegun.alive ▸ halive) (hbegun.serving ▸ hserving) id).begun hbegun rfl
  refused c c' response h _ hbegun := fun halive hserving id =>
    (h (hbegun.alive ▸ halive) (hbegun.serving ▸ hserving) id).begun hbegun rfl
  accepted c id h _ _ := fun halive hserving other =>
    (h halive hserving other).logged rfl rfl rfl rfl
  dispatched c c' request h hquiet := fun halive hserving id =>
    (h (hquiet.alive halive) (hquiet.serving hserving) id).logged hquiet.log hquiet.pending rfl rfl

/-! ### Requests that are answered -/

/-- On a connection that is alive, a request in flight is not answered, or a call that answers it
has not yet released it. -/
def Awaited (c : Connection V) : Prop :=
  c.alive = true → ∀ id ∈ c.inFlight,
    id ∈ unanswered c.log ∨ ∃ call ∈ c.pending, call.holds id

theorem unanswered_other {log : List (Event V)} (h : event.asked = none) :
    unanswered (log ++ [event]) = unanswered log := openKeys_none h

theorem mem_unanswered_accepted (log : List (Event V)) (id other : UInt64) :
    other ∈ unanswered (log ++ [.accepted id]) ↔ other ∈ unanswered log ∨ other = id :=
  mem_openKeys_opens Event.asked rfl other

theorem mem_unanswered_called (log : List (Event V)) (id other : UInt64) :
    other ∈ unanswered (log ++ [.called id]) ↔ other ∈ unanswered log ∧ other ≠ id :=
  mem_openKeys_closes Event.asked rfl other

/-- A call's step, where a call that holds a request keeps it or has released it. -/
theorem Awaited.advanced (h : Awaited c) {call : Call V} {next : Option (Call V)}
    (halive : c'.alive = true → c.alive = true) (hpending : c.pending = left ++ call :: right)
    (hpending' : c'.pending = left ++ next.toList ++ right)
    (hlog : unanswered c'.log = unanswered c.log) (hinFlight : ∀ id ∈ c'.inFlight, id ∈ c.inFlight ∧
      (c.alive = true → call.holds id → ∃ after ∈ next, after.holds id)) : Awaited c' := by
  intro halive' id hid
  obtain ⟨hbefore, hheld⟩ := hinFlight id hid
  rw [hlog, hpending']
  rcases h (halive halive') id hbefore with hasked | ⟨other, hother, hholds⟩
  · exact Or.inl hasked
  right
  rw [hpending, mem_append, mem_cons] at hother
  rcases hother with hleft | rfl | hright
  · exact ⟨other, by simp [hleft], hholds⟩
  · obtain ⟨after, hafter, hkept⟩ := hheld (halive halive') hholds
    exact ⟨after, by simp [Option.mem_def.mp hafter], hkept⟩
  · exact ⟨other, by simp [hright], hholds⟩

theorem awaited_kept : Kept size Awaited where
  quiet c c' h hquiet := by
    intro halive id hid
    rw [hquiet.log, hquiet.pending]
    exact h (hquiet.alive halive) id (hquiet.inFlight ▸ hid)
  advanced c c' call h hadvanced := by
    have hcases := advance_cases size c call
    obtain ⟨halive, -, hinFlight, hlog, left, right, hpending, hpending'⟩ := hadvanced
    revert halive hinFlight hlog hpending'
    generalize c.advance size call = after at hcases
    intro halive hinFlight hlog hpending'
    cases hcases with
    | finish =>
      refine h.advanced (fun h' => halive ▸ h') hpending hpending' (by rw [hlog]) ?_
      intro id hid
      exact ⟨hinFlight ▸ hid, fun _ hholds => ⟨_, rfl, hholds⟩⟩
    | dropped _ halive' =>
      refine h.advanced (fun h' => halive ▸ h') hpending hpending' (by rw [hlog]) ?_
      intro id hid
      refine ⟨hinFlight ▸ hid, fun h' => ?_⟩
      rw [halive'] at h'
      cases h'
    | release =>
      refine h.advanced (fun h' => halive ▸ h') hpending hpending' ?_ ?_
      · rw [hlog]
        exact unanswered_other rfl
      · intro id hid
        rw [hinFlight] at hid
        obtain ⟨hne, hmem⟩ := Finset.mem_erase.mp hid
        exact ⟨hmem, fun _ hholds => absurd (Eq.symm hholds) hne⟩
    | offer =>
      refine h.advanced (fun h' => halive ▸ h') hpending hpending' (by rw [hlog]) ?_
      exact fun id hid => ⟨hinFlight ▸ hid, fun _ hholds => hholds.elim⟩
    | send =>
      refine h.advanced (fun h' => halive ▸ h') hpending hpending' ?_ ?_
      · rw [hlog]
        exact unanswered_other rfl
      · exact fun id hid => ⟨hinFlight ▸ hid, fun _ hholds => hholds.elim⟩
    | offerFailed purpose response why hwhy | sendFailed purpose response why hwhy =>
      obtain ⟨hfailed, hkept, hlive, -, -⟩ := failed_cases c purpose response why
      refine h.advanced (fun h' => hlive (halive ▸ h')) hpending hpending' ?_ ?_
      · rw [hlog, hfailed]
        exact unanswered_other rfl
      · intro id hid
        rw [hinFlight, hkept] at hid
        exact ⟨hid, fun _ hholds => hholds.elim⟩
  called c c' response h hbegun := by
    intro halive id hid
    obtain ⟨left, right, hpending, hpending'⟩ := hbegun.pending
    rw [hbegun.log, hpending']
    by_cases heq : response.id = id
    · exact Or.inr ⟨.finish response, by simp, heq⟩
    rcases h (hbegun.alive ▸ halive) id (hbegun.inFlight ▸ hid) with hasked | ⟨call, hcall, hholds⟩
    · left
      exact (mem_unanswered_called ..).mpr ⟨hasked, Ne.symm heq⟩
    · right
      rw [hpending, mem_append] at hcall
      refine ⟨call, ?_, hholds⟩
      rw [mem_append, mem_cons]
      exact hcall.imp_right Or.inr
  refused c c' response h _ hbegun := by
    intro halive id hid
    obtain ⟨left, right, hpending, hpending'⟩ := hbegun.pending
    rw [hbegun.log, unanswered_other rfl, hpending']
    rcases h (hbegun.alive ▸ halive) id (hbegun.inFlight ▸ hid) with hasked | ⟨call, hcall, hholds⟩
    · exact Or.inl hasked
    · right
      rw [hpending, mem_append] at hcall
      refine ⟨call, ?_, hholds⟩
      rw [mem_append, mem_cons]
      exact hcall.imp_right Or.inr
  accepted c id h _ _ := by
    intro halive other hother
    rcases Finset.mem_insert.mp hother with rfl | hmem
    · exact Or.inl ((mem_unanswered_accepted ..).mpr (Or.inr rfl))
    · rcases h halive other hmem with hasked | hheld
      · exact Or.inl ((mem_unanswered_accepted ..).mpr (Or.inl hasked))
      · exact Or.inr hheld
  dispatched c c' request h hquiet := by
    intro halive id hid
    rw [hquiet.log, hquiet.pending]
    rcases h (hquiet.alive halive) id (hquiet.inFlight ▸ hid) with hasked | hheld
    · left
      change id ∈ unanswered (c.log ++ [.dispatched request])
      rw [unanswered_other rfl]
      exact hasked
    · exact Or.inr hheld

/-! ### Refusals -/

/-- Each frame that is refused has its error on its way, queued, or lost. -/
def Resolved [DecidableEq V] (c : Connection V) : Prop :=
  ∀ response, Balance (Event.refuses response) (Event.resolves response) (Call.refuses response) c

section

variable [DecidableEq V]

theorem Resolved.failed (h : Resolved c) {call : Call V} {purpose : Purpose}
    {response : ResponseEnvelope V} {why : QueueError}
    (hcall : ∀ other, call.refuses other = (Call.offer purpose response).refuses other)
    {left right : List (Call V)} (hlog : c'.log = (c.failed purpose response why).1.log)
    (hpending : c.pending = left ++ call :: right) (hpending' : c'.pending =
      left ++ (c.failed purpose response why).2.toList ++ right) : Resolved c' := by
  obtain ⟨hfailed, -, -, -, hnext⟩ := failed_cases c purpose response why
  intro other
  refine (h other).advanced hpending hpending' (hlog.trans hfailed) ?_
  rw [hcall]
  rcases hnext with ⟨hnone, -⟩ | ⟨rfl, hsome⟩
  · rw [hnone]
    by_cases heq : response = other <;> cases purpose <;>
      simp [Event.refuses, Event.resolves, Call.refuses, heq]
  · rw [hsome]
    simp [Event.refuses, Event.resolves, Call.refuses]

theorem resolved_kept (size : ResponseEnvelope V → Option ℕ) : Kept size Resolved where
  quiet c c' h hquiet := by
    intro response
    rw [Balance, hquiet.log, hquiet.pending]
    exact h response
  advanced c c' call h hadvanced := by
    have hcases := advance_cases size c call
    obtain ⟨-, -, -, hlog, _, _, hpending, hpending'⟩ := hadvanced
    revert hlog hpending'
    generalize c.advance size call = after at hcases
    intro hlog hpending'
    cases hcases with
    | finish response _ | dropped response _ =>
      exact fun other =>
        (h other).advanced hpending hpending' (hlog.trans (append_nil _).symm) rfl
    | release => exact fun other => (h other).advanced hpending hpending' hlog rfl
    | offer purpose response =>
      intro other
      refine (h other).advanced hpending hpending' (hlog.trans (append_nil _).symm) ?_
      by_cases heq : response = other <;> cases purpose <;> simp [Call.refuses, heq]
    | send purpose response =>
      intro other
      refine (h other).advanced hpending hpending' hlog ?_
      by_cases heq : response = other <;> cases purpose <;>
        simp [Event.refuses, Event.resolves, Call.refuses, heq]
    | offerFailed =>
      exact h.failed (fun _ => rfl) hlog hpending hpending'
    | sendFailed purpose =>
      refine h.failed (fun other => ?_) hlog hpending hpending'
      cases purpose <;> rfl
  called c c' response h hbegun := fun other => (h other).begun hbegun rfl
  refused c c' response h _ hbegun := by
    intro other
    refine (h other).begun hbegun ?_
    by_cases heq : response = other <;> simp [Event.refuses, Event.resolves, Call.refuses, heq]
  accepted c id h _ _ := fun other => (h other).logged rfl rfl rfl rfl
  dispatched c c' request h hquiet := fun other =>
    (h other).logged hquiet.log hquiet.pending rfl rfl

end

/-! ### The account -/

/-- The entry that a reader makes first of a request that it decodes. -/
def admission (active : Finset UInt64) (id : UInt64) : Event V :=
  if id ∈ active then .refused (.duplicate id)
  else if maxInFlightRequests ≤ active.card then .refused (.overLimit id)
  else .accepted id

/-- A reader that serves accepts a request or refuses it, and one that it refuses changes nothing in
the table. -/
theorem receive_admission (h : c.reader = .reading true) (request : RequestEnvelope V) :
    (∃ later, (c.receive (.ok request)).log = c.log ++ admission c.inFlight request.id :: later) ∧
      ((c.receive (.ok request)).inFlight = c.inFlight ∨
        admission c.inFlight request.id = (.accepted request.id : Event V) ∧
          (c.receive (.ok request)).inFlight = insert request.id c.inFlight) := by
  unfold receive
  rw [h]
  dsimp only [serve]
  unfold insertRequestId admission
  by_cases hmem : request.id ∈ c.inFlight
  · rw [if_pos hmem, if_pos hmem]
    exact ⟨⟨[], rfl⟩, Or.inl rfl⟩
  rw [if_neg hmem, if_neg hmem]
  by_cases hcard : maxInFlightRequests ≤ c.inFlight.card
  · rw [if_pos hcard, if_pos hcard]
    exact ⟨⟨[], rfl⟩, Or.inl rfl⟩
  rw [if_neg hcard, if_neg hcard]
  dsimp only
  split
  · exact ⟨⟨[.called request.id], append_assoc ..⟩, Or.inr ⟨rfl, rfl⟩⟩
  split
  · exact ⟨⟨[.called request.id], append_assoc ..⟩, Or.inr ⟨rfl, rfl⟩⟩
  · exact ⟨⟨[], rfl⟩, Or.inr ⟨rfl, rfl⟩⟩

/-- Through every run of a connection the requests in flight are those accepted and not released,
each once and at most 64; a request that is active or one too many is refused by an error that
leaves the table alone and is queued where it can be; while the connection is open each release has
its reply, queued or about to be; and once replies are called for all requests, and no call is under
way, none is in flight on a connection that is alive. -/
theorem run_accounted [DecidableEq V] (size : ResponseEnvelope V → Option ℕ) (acts : List (Act V)) :
    (∀ id, id ∈ (run size acts).inFlight ↔ id ∈ outstanding (run size acts).log) ∧
      (outstanding (run size acts).log).Nodup ∧
      (outstanding (run size acts).log).length ≤ maxInFlightRequests ∧
      Throughout outstanding Event.Legal (run size acts).log ∧
      ((run size acts).reader = .reading true → ∀ request : RequestEnvelope V,
        (∃ later, ((run size acts).receive (.ok request)).log =
            (run size acts).log ++ admission (run size acts).inFlight request.id :: later) ∧
          (((run size acts).receive (.ok request)).inFlight = (run size acts).inFlight ∨
            admission (run size acts).inFlight request.id = (.accepted request.id : Event V) ∧
              ((run size acts).receive (.ok request)).inFlight =
                insert request.id (run size acts).inFlight)) ∧
      (∀ response, Balance (Event.refuses response) (Event.resolves response)
        (Call.refuses response) (run size acts)) ∧
      ((run size acts).alive = true → (run size acts).serving = true → ∀ id,
        Balance (Event.releases id) (Event.answers id) (Call.owes id) (run size acts)) ∧
      ((run size acts).alive = true → unanswered (run size acts).log = [] →
        (run size acts).pending = [] → (run size acts).inFlight = ∅) := by
  have htabled : Tabled (run size acts) := (tabled_kept size).run
    ⟨fun id => by simp [outstanding, openKeys], nodup_nil, Nat.zero_le _,
      fun earlier a later h => by simp at h⟩ acts
  have hsettled : Settled (run size acts) :=
    (settled_kept size).run (fun _ _ _ => rfl) acts
  have hresolved : Resolved (run size acts) := (resolved_kept size).run (fun _ => rfl) acts
  have hawaited : Awaited (run size acts) :=
    (awaited_kept size).run (fun _ id hid => by simp at hid) acts
  refine ⟨htabled.mem, htabled.nodup, htabled.room, htabled.legal,
    fun h request => receive_admission h request, hresolved, hsettled, ?_⟩
  intro halive hanswered hpending
  refine Finset.eq_empty_of_forall_notMem fun id hid => ?_
  rcases hawaited halive id hid with hasked | ⟨_, hcall, -⟩
  · rw [hanswered] at hasked
    cases hasked
  · rw [hpending] at hcall
    cases hcall

/-- A reply to a client that has ended its stream is dropped, and its request stays in the table. -/
theorem ended_stays : ¬ ∀ acts : List (Act Unit),
    unanswered (run (fun _ => some 100) acts).log = [] →
      (run (fun _ => some 100) acts).pending = [] →
        (run (fun _ => some 100) acts).inFlight = ∅ := by
  intro h
  have hrun := h [.receive (.ok ⟨2, 1, "hello", ()⟩), .proceed true, .endOfFrames, .retire,
    .reply (.success 1 ()), .callback 0] (by decide) (by decide)
  revert hrun
  decide

end Connection

end Vivido.Ipc
