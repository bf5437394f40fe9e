import Vivido.Lane.Admission
import Vivido.Support.Since

/-!
When a `LANE_OPEN` is answered with a replay. The slot knows of the input that was
noted; a post that is not yet noted is known to its thread only.
-/

namespace Vivido.Lane

open List

def Happening.accepted? : Happening → Option ℕ
  | .answered generation .accept => some generation
  | _ => none

/-- A replay is answered only if no input of its generation was admitted, and the generations that
are accepted increase. -/
structure Obeys (log : List Happening) : Prop where
  replays : ∀ earlier generation later, log = earlier ++ .answered generation .replay :: later →
    ∀ record, .admitted generation record ∉ earlier
  increases : (log.filterMap Happening.accepted?).Pairwise (· < ·)

variable {log : List Happening}

theorem Obeys.of_append {more : List Happening} (h : Obeys (log ++ more)) : Obeys log where
  replays earlier generation later heq :=
    h.replays earlier generation (later ++ more) (by rw [heq, append_assoc, cons_append])
  increases := by
    have hincreases := h.increases
    rw [filterMap_append] at hincreases
    exact (List.pairwise_append.mp hincreases).1

/-- Only a replay can break what has been kept so far. -/
theorem obeys_concat (h : Obeys log) (happening : Happening)
    (hincreases : ((log ++ [happening]).filterMap Happening.accepted?).Pairwise (· < ·)) :
    Obeys (log ++ [happening]) ↔ ∀ generation, happening = .answered generation .replay →
      ∀ record, .admitted generation record ∉ log := by
  constructor
  · rintro hafter generation rfl record
    exact hafter.replays log generation [] rfl record
  intro hlast
  refine ⟨fun earlier generation later heq => ?_, hincreases⟩
  rcases eq_nil_or_concat later with rfl | ⟨later, _, rfl⟩
  · obtain ⟨rfl, hsame⟩ := append_inj' heq rfl
    exact hlast generation (List.singleton_inj.mp hsame)
  · rw [concat_eq_append, ← cons_append, ← append_assoc] at heq
    exact h.replays earlier generation later (append_inj_left' heq rfl)

/-- An exact retry after a loss, of a transport of which no input has been noted. -/
def LaneState.Retries (current : LaneState) (generation : ℕ) (nonce : List ℕ) : Prop :=
  generation ≠ 0 ∧ generation = current.generation ∧ current.nonce = nonce ∧
    current.live = false ∧ current.admittedInput = false

variable (slot : Option LaneState)

/-- An opening is accepted above the slot's generation, replayed for a retry, or declined. -/
theorem admitLane_cases (generation : ℕ) (nonce : List ℕ) :
    (admitLane slot generation nonce = (some { generation, nonce }, .accept) ∧
        ∀ current, slot = some current → current.generation < generation) ∨
      (∃ current, slot = some current ∧ current.Retries generation nonce ∧
        admitLane slot generation nonce = (some { current with live := true }, .replay)) ∨
      (∃ admission, admission ≠ .accept ∧ admission ≠ .replay ∧
        admitLane slot generation nonce = (slot, admission) ∧
          ∀ current, slot = some current → ¬ current.Retries generation nonce) := by
  unfold admitLane
  by_cases hzero : generation = 0
  · rw [if_pos hzero]
    exact Or.inr (Or.inr ⟨_, by decide, by decide, rfl, fun _ _ h => h.1 hzero⟩)
  rw [if_neg hzero]
  cases slot with
  | none => exact Or.inl ⟨rfl, fun current h => by cases h⟩
  | some current =>
    dsimp only
    by_cases hsame : generation = current.generation
    · rw [if_pos hsame]
      refine Or.inr ?_
      split
      · rename_i hnonce
        refine Or.inr ⟨_, by decide, by decide, rfl, ?_⟩
        rintro _ ⟨⟩ h
        exact hnonce h.2.2.1
      · rename_i hnonce
        split
        · rename_i hlive
          refine Or.inr ⟨_, by decide, by decide, rfl, ?_⟩
          rintro _ ⟨⟩ ⟨-, -, -, hlost, -⟩
          rw [hlive] at hlost
          cases hlost
        · rename_i hlost
          split
          · rename_i hadmitted
            refine Or.inr ⟨_, by decide, by decide, rfl, ?_⟩
            rintro _ ⟨⟩ ⟨-, -, -, -, hnone⟩
            rw [hadmitted] at hnone
            cases hnone
          · rename_i hnone
            rw [Bool.not_eq_true] at hlost hnone
            exact Or.inl ⟨current, rfl, ⟨hzero, hsame, not_not.mp hnonce, hlost, hnone⟩, rfl⟩
    · rw [if_neg hsame]
      split
      · exact Or.inr (Or.inr ⟨_, by decide, by decide, rfl, by
          rintro _ ⟨⟩ h
          exact hsame h.2.1⟩)
      · rename_i hless
        refine Or.inl ⟨rfl, ?_⟩
        rintro _ ⟨⟩
        omega

/-- The slot keeps its generation, and what has been noted of it. -/
def SlotKept (slot slot' : Option LaneState) : Prop :=
  ∀ current, slot = some current → ∃ current', slot' = some current' ∧
    current'.generation = current.generation ∧
      (current.admittedInput = true → current'.admittedInput = true)

theorem SlotKept.refl : SlotKept slot slot :=
  fun current h => ⟨current, h, rfl, fun hadmitted => hadmitted⟩

theorem slotKept_confirmLost (generation : ℕ) : SlotKept slot (confirmLost slot generation) := by
  rintro current rfl
  refine ⟨if current.generation = generation then { current with live := false } else current,
    rfl, ?_⟩
  split
  · exact ⟨rfl, fun hadmitted => hadmitted⟩
  · exact ⟨rfl, fun hadmitted => hadmitted⟩

namespace Session

/-- The generation of a connection. -/
def generation? (session : Session) (i : ℕ) : Option ℕ :=
  (session.transports[i]?).map (·.generation)

/-- A record of the generation is posted, and its thread has still to note it. -/
def Pends (session : Session) (generation : ℕ) : Prop :=
  ∃ sending ∈ session.sends, sending.phase = .posted ∧
    session.generation? sending.transport = some generation

/-- No `LANE_OPEN` retries a generation of which a post has still to be noted. -/
def Sound (session : Session) : Act → Prop
  | .laneOpen generation nonce => ∀ current, session.slot = some current →
    current.Retries generation nonce → ¬ session.Pends generation
  | _ => True

/-- What the slot knows of what has happened. -/
structure Kept (session : Session) (log : List Happening) : Prop where
  transports : ∀ i generation, session.generation? i = some generation →
    ∃ current, session.slot = some current ∧ generation ≤ current.generation
  installed : ∀ i, session.installed = some i → (session.generation? i).isSome
  sent : ∀ sending ∈ session.sends, (session.generation? sending.transport).isSome
  noted : ∀ generation record, .admitted generation record ∈ log →
    ∃ current, session.slot = some current ∧ generation ≤ current.generation ∧
      (generation = current.generation → current.admittedInput = true ∨ session.Pends generation)
  pending : ∀ generation, session.Pends generation → ∃ record, .admitted generation record ∈ log
  accepted : ∀ generation ∈ log.filterMap Happening.accepted?,
    ∃ current, session.slot = some current ∧ generation ≤ current.generation
  increases : (log.filterMap Happening.accepted?).Pairwise (· < ·)

variable {session after : Session}

/-- Neither the generations nor what is pending change. -/
theorem Kept.of_same (h : session.Kept log) (hslot : SlotKept session.slot after.slot)
    (hgeneration : ∀ i, after.generation? i = session.generation? i)
    (hinstalled : ∀ i, after.installed = some i →
      session.installed = some i ∨ (session.generation? i).isSome) (hsent : ∀ sending ∈ after.sends,
      ∃ before ∈ session.sends, before.transport = sending.transport)
    (hpends : ∀ generation, after.Pends generation ↔ session.Pends generation) :
    after.Kept log where
  transports i generation hi := by
    rw [hgeneration] at hi
    obtain ⟨current, hcurrent, hle⟩ := h.transports i generation hi
    obtain ⟨current', hcurrent', hsame, -⟩ := hslot current hcurrent
    exact ⟨current', hcurrent', hsame ▸ hle⟩
  installed i hi := by
    rw [hgeneration]
    exact (hinstalled i hi).elim (h.installed i) fun hsome => hsome
  sent sending hsending := by
    obtain ⟨before, hbefore, hsame⟩ := hsent sending hsending
    rw [hgeneration, ← hsame]
    exact h.sent before hbefore
  noted generation record hadmitted := by
    obtain ⟨current, hcurrent, hle, hnoted⟩ := h.noted generation record hadmitted
    obtain ⟨current', hcurrent', hsame, hkept⟩ := hslot current hcurrent
    refine ⟨current', hcurrent', hsame ▸ hle, fun heq => ?_⟩
    rw [hpends]
    exact (hnoted (heq.trans hsame)).imp_left hkept
  pending generation hpending := h.pending generation ((hpends generation).mp hpending)
  accepted generation hgeneration := by
    obtain ⟨current, hcurrent, hle⟩ := h.accepted generation hgeneration
    obtain ⟨current', hcurrent', hsame, -⟩ := hslot current hcurrent
    exact ⟨current', hcurrent', hsame ▸ hle⟩
  increases := h.increases

/-- An answer other than an acceptance is of no account. -/
theorem Kept.answered (h : session.Kept log) {generation : ℕ} {admission : Admission}
    (hne : admission ≠ .accept) : session.Kept (log ++ [.answered generation admission]) := by
  have hmem : ∀ generation' record,
      .admitted generation' record ∈ log ++ [.answered generation admission] ↔
        .admitted generation' record ∈ log := by
    intro generation' record
    rw [mem_append, mem_singleton]
    exact or_iff_left nofun
  have hnone : (log ++ [Happening.answered generation admission]).filterMap Happening.accepted? =
      log.filterMap Happening.accepted? := by
    rw [filterMap_append]
    cases admission with
    | accept => exact (hne rfl).elim
    | _ => exact append_nil _
  refine ⟨h.transports, h.installed, h.sent, fun generation' record hadmitted => ?_,
    fun generation' hpending => ?_, ?_, ?_⟩
  · exact h.noted generation' record ((hmem _ _).mp hadmitted)
  · obtain ⟨record, hadmitted⟩ := h.pending generation' hpending
    exact ⟨record, (hmem _ _).mpr hadmitted⟩
  · rw [hnone]
    exact h.accepted
  · rw [hnone]
    exact h.increases

/-! ### Connections -/

theorem generation?_setTransport {i : ℕ} {transport transport' : Transport}
    (hi : session.transports[i]? = some transport)
    (hsame : transport'.generation = transport.generation) (j : ℕ) :
    ((session.transports.set i transport')[j]?).map (·.generation) = session.generation? j := by
  unfold generation?
  rw [getElem?_set]
  split
  · rename_i hij
    obtain ⟨hlt, -⟩ := List.getElem?_eq_some_iff.mp hi
    rw [if_pos hlt, ← hij, hi]
    exact congrArg some hsame
  · rfl

/-- A connection goes on: its generation stays. -/
theorem Kept.onTransport (h : session.Kept log) {i : ℕ} {transport transport' : Transport}
    (hi : session.transports[i]? = some transport)
    (hsame : transport'.generation = transport.generation) {slot : Option LaneState}
    (hslot : SlotKept session.slot slot) {installed : Option ℕ}
    (hinstalled : ∀ j, installed = some j → session.installed = some j ∨ j = i) :
    ({ session with slot, installed, transports := session.transports.set i transport' } :
      Session).Kept log := by
  refine h.of_same hslot (generation?_setTransport hi hsame) (fun j hj => ?_)
    (fun sending hsending => ⟨sending, hsending, rfl⟩) fun generation => ?_
  · refine (hinstalled j hj).imp_right ?_
    rintro rfl
    unfold generation?
    rw [hi]
    rfl
  · unfold Pends
    simp only [generation?, generation?_setTransport hi hsame]

/-- A step of a connection that is there. -/
theorem kept_onTransport (h : session.Kept log) (i : ℕ) {work : Transport → Session}
    (hwork : ∀ transport, session.transports[i]? = some transport → (work transport).Kept log) :
    (session.onTransport i work).Kept log := by
  unfold Session.onTransport
  split
  · exact h
  · rename_i transport hi
    exact hwork transport hi

theorem Kept.setTransport (h : session.Kept log) {i : ℕ} {transport transport' : Transport}
    (hi : session.transports[i]? = some transport)
    (hsame : transport'.generation = transport.generation) :
    (session.setTransport i transport').Kept log :=
  h.onTransport hi hsame (SlotKept.refl _) fun _ hj => Or.inl hj

/-! ### Openings -/

theorem generation?_append (session : Session) (transport : Transport) {i : ℕ}
    (h : (session.generation? i).isSome) :
    ((session.transports ++ [transport])[i]?).map (·.generation) = session.generation? i := by
  obtain ⟨_, hfound, -⟩ := Option.map_eq_some_iff.mp (Option.eq_some_of_isSome h)
  obtain ⟨hlt, -⟩ := List.getElem?_eq_some_iff.mp hfound
  unfold generation?
  rw [getElem?_append_left hlt]

theorem generation?_append_cases (session : Session) (transport : Transport) {i generation : ℕ}
    (h : ((session.transports ++ [transport])[i]?).map (·.generation) = some generation) :
    session.generation? i = some generation ∨ generation = transport.generation := by
  by_cases hlt : i < session.transports.length
  · rw [getElem?_append_left hlt] at h
    exact Or.inl h
  · rw [getElem?_append_right (not_lt.mp hlt)] at h
    obtain ⟨_, hfound, rfl⟩ := Option.map_eq_some_iff.mp h
    rw [List.mem_singleton.mp (mem_of_getElem? hfound)]
    exact Or.inr rfl

/-- A connection is added to a slot that is of its generation, and no earlier one. -/
theorem Kept.opened (h : session.Kept log) (generation : ℕ) (state : LaneState)
    (hgeneration : state.generation = generation)
    (hgrows : ∀ current, session.slot = some current → current.generation ≤ generation ∧
      (current.generation = generation → current.admittedInput = true →
        state.admittedInput = true)) :
    ({ session with slot := some state, transports := session.transports ++ [{ generation }] } :
      Session).Kept log := by
  have hpends : ∀ generation', Pends { session with
      slot := some state, transports := session.transports ++ [{ generation }] } generation' ↔
        session.Pends generation' := by
    intro generation'
    refine exists_congr fun sending => and_congr_right fun hsending => and_congr_right fun _ => ?_
    unfold generation?
    rw [generation?_append session _ (h.sent sending hsending)]
    rfl
  refine ⟨fun i generation' hi => ⟨state, rfl, ?_⟩, fun i hi => ?_, fun sending hsending => ?_,
    fun generation' record hadmitted => ⟨state, rfl, ?_⟩, fun generation' hpending => ?_,
    fun generation' haccepted => ⟨state, rfl, ?_⟩, h.increases⟩
  · rw [hgeneration]
    rcases generation?_append_cases session _ hi with hbefore | rfl
    · obtain ⟨current, hcurrent, hle⟩ := h.transports i generation' hbefore
      exact hle.trans (hgrows current hcurrent).1
    · exact le_rfl
  · have hsome := h.installed i hi
    unfold generation?
    rw [generation?_append session _ hsome]
    exact hsome
  · have hsome := h.sent sending hsending
    unfold generation?
    rw [generation?_append session _ hsome]
    exact hsome
  · obtain ⟨current, hcurrent, hle, hnoted⟩ := h.noted generation' record hadmitted
    obtain ⟨hgrows, hkept⟩ := hgrows current hcurrent
    rw [hgeneration, hpends]
    refine ⟨hle.trans hgrows, fun heq => ?_⟩
    have hsame : current.generation = generation := le_antisymm hgrows (heq ▸ hle)
    exact (hnoted (heq.trans hsame.symm)).imp_left (hkept hsame)
  · exact h.pending generation' ((hpends generation').mp hpending)
  · obtain ⟨current, hcurrent, hle⟩ := h.accepted generation' haccepted
    rw [hgeneration]
    exact hle.trans (hgrows current hcurrent).1

theorem Kept.accept (h : session.Kept log) {generation : ℕ} {state : LaneState}
    (hslot : session.slot = some state) (hgeneration : state.generation = generation)
    (hnew : ∀ generation' ∈ log.filterMap Happening.accepted?, generation' < generation) :
    session.Kept (log ++ [.answered generation .accept]) := by
  have hlast : (log ++ [Happening.answered generation .accept]).filterMap Happening.accepted? =
      log.filterMap Happening.accepted? ++ [generation] := filterMap_append
  refine ⟨h.transports, h.installed, h.sent, fun generation' record hadmitted => ?_,
    fun generation' hpending => ?_, fun generation' haccepted => ?_, ?_⟩
  · rcases List.mem_append.mp hadmitted with hadmitted | hother
    · exact h.noted generation' record hadmitted
    · cases List.mem_singleton.mp hother
  · obtain ⟨record, hadmitted⟩ := h.pending generation' hpending
    exact ⟨record, mem_append_left _ hadmitted⟩
  · rw [hlast] at haccepted
    rcases List.mem_append.mp haccepted with haccepted | hother
    · exact h.accepted generation' haccepted
    · rw [List.mem_singleton.mp hother]
      exact ⟨state, hslot, hgeneration.ge⟩
  · rw [hlast]
    refine List.pairwise_append.mpr ⟨h.increases, pairwise_singleton _ _, ?_⟩
    intro generation' haccepted _ hother
    rw [List.mem_singleton.mp hother]
    exact hnew generation' haccepted

theorem Kept.laneOpen (h : session.Kept log) (generation : ℕ) (nonce : List ℕ) :
    (session.laneOpen generation nonce).1.Kept
      (log ++ [.answered generation (session.laneOpen generation nonce).2]) := by
  unfold Session.laneOpen
  rcases admitLane_cases session.slot generation nonce with ⟨hanswer, hnew⟩ |
    ⟨current, hcurrent, hretries, hanswer⟩ | ⟨admission, hnotAccept, hnotReplay, hanswer, -⟩
  · rw [hanswer]
    have hopened := h.opened generation { generation, nonce } rfl fun current hcurrent =>
      ⟨(hnew current hcurrent).le, fun hsame => ((hnew current hcurrent).ne hsame).elim⟩
    refine hopened.accept rfl rfl fun generation' haccepted => ?_
    obtain ⟨current, hcurrent, hle⟩ := h.accepted generation' haccepted
    exact hle.trans_lt (hnew current hcurrent)
  · rw [hanswer]
    have hne : Admission.replay ≠ .accept := by decide
    refine (h.opened generation { current with live := true } hretries.2.1.symm
      fun found hfound => ?_).answered hne
    rw [hcurrent] at hfound
    cases hfound
    exact ⟨hretries.2.1.ge, fun _ hadmitted => hadmitted⟩
  · rw [hanswer]
    cases admission with
    | accept => exact (hnotAccept rfl).elim
    | replay => exact (hnotReplay rfl).elim
    | _ => exact h.answered hnotAccept

/-! ### Posts and notes -/

variable {k : ℕ}

theorem mem_set_of_ne {α : Type*} {l : List α} {x y z : α} (hk : l[k]? = some x) (hy : y ∈ l)
    (hne : y ≠ x) : y ∈ l.set k z := by
  obtain ⟨j, hj⟩ := List.mem_iff_getElem?.mp hy
  refine List.mem_iff_getElem?.mpr ⟨j, ?_⟩
  rw [getElem?_set_ne, hj]
  rintro rfl
  rw [hk] at hj
  exact hne (Option.some.inj hj).symm

theorem pends_set {sending : Sending} {phase : SendPhase} (hk : session.sends[k]? = some sending)
    (hnot : sending.phase ≠ .posted) (generation : ℕ) :
    (∃ other ∈ session.sends.set k { sending with phase }, other.phase = .posted ∧
        session.generation? other.transport = some generation) ↔ session.Pends generation ∨
        phase = .posted ∧ session.generation? sending.transport = some generation := by
  obtain ⟨hlt, -⟩ := List.getElem?_eq_some_iff.mp hk
  constructor
  · rintro ⟨other, hmem, hposted, hgeneration⟩
    rcases mem_or_eq_of_mem_set hmem with hmem | rfl
    · exact Or.inl ⟨other, hmem, hposted, hgeneration⟩
    · exact Or.inr ⟨hposted, hgeneration⟩
  · rintro (⟨other, hmem, hposted, hgeneration⟩ | ⟨hposted, hgeneration⟩)
    · refine ⟨other, mem_set_of_ne hk hmem ?_, hposted, hgeneration⟩
      rintro rfl
      exact hnot hposted
    · exact ⟨_, mem_set hlt _, hposted, hgeneration⟩

/-- A thread's phase changes, with the connection that it posts to. -/
theorem sent_set {sending : Sending} {phase : SendPhase} (hk : session.sends[k]? = some sending) :
    ∀ other ∈ session.sends.set k { sending with phase },
      ∃ before ∈ session.sends, before.transport = other.transport := by
  intro other hmem
  rcases mem_or_eq_of_mem_set hmem with hmem | rfl
  · exact ⟨other, hmem, rfl⟩
  · exact ⟨sending, mem_of_getElem? hk, rfl⟩

theorem post_cases (session : Session) (k : ℕ) (sending : Sending) :
    session.post k sending = (session, none) ∨
      ∃ transport transport' phase, session.transports[sending.transport]? = some transport ∧
        transport'.generation = transport.generation ∧ session.post k sending = ({ session with
              transports := session.transports.set sending.transport transport'
              sends := session.sends.set k { sending with phase } },
            if phase = .posted then some transport.generation else none) := by
  unfold Session.post
  split
  · exact Or.inl rfl
  rename_i transport htransport
  split
  · exact Or.inl rfl
  rename_i egress hegress
  dsimp only
  cases (egress.send sending.record).2 with
  | true => exact Or.inr ⟨transport, { transport with
      egress := some (egress.send sending.record).1 }, .posted, htransport, rfl, rfl⟩
  | false => exact Or.inr ⟨transport, { transport with
      egress := some (egress.send sending.record).1 }, .done, htransport, rfl, rfl⟩

theorem Kept.admitted (h : session.Kept log) {generation : ℕ} (record : Egress.Record)
    (hsends : ∀ generation', after.Pends generation' ↔
      session.Pends generation' ∨ generation' = generation)
    (hslot : after.slot = session.slot) (hinstalled : after.installed = session.installed)
    (hgeneration : ∀ i, after.generation? i = session.generation? i)
    (hgenerations : ∃ i, session.generation? i = some generation) (hsent : ∀ sending ∈ after.sends,
      ∃ before ∈ session.sends, before.transport = sending.transport) :
    after.Kept (log ++ [.admitted generation record]) := by
  have hlog : (log ++ [Happening.admitted generation record]).filterMap Happening.accepted? =
      log.filterMap Happening.accepted? := by
    rw [filterMap_append]
    exact append_nil _
  refine ⟨fun i generation' hi => ?_, fun i hi => ?_, fun sending hsending => ?_,
    fun generation' record' hadmitted => ?_, fun generation' hpending => ?_, ?_, ?_⟩
  · rw [hgeneration] at hi
    rw [hslot]
    exact h.transports i generation' hi
  · rw [hgeneration]
    exact h.installed i (hinstalled ▸ hi)
  · obtain ⟨before, hbefore, hsame⟩ := hsent sending hsending
    rw [hgeneration, ← hsame]
    exact h.sent before hbefore
  · rw [hslot]
    simp only [hsends]
    rcases List.mem_append.mp hadmitted with hadmitted | hlast
    · obtain ⟨current, hcurrent, hle, hnoted⟩ := h.noted generation' record' hadmitted
      exact ⟨current, hcurrent, hle, fun heq => (hnoted heq).imp_right Or.inl⟩
    · cases List.mem_singleton.mp hlast
      obtain ⟨i, hi⟩ := hgenerations
      obtain ⟨current, hcurrent, hle⟩ := h.transports i generation hi
      exact ⟨current, hcurrent, hle, fun _ => Or.inr (Or.inr rfl)⟩
  · rcases (hsends generation').mp hpending with hbefore | rfl
    · obtain ⟨record', hadmitted⟩ := h.pending generation' hbefore
      exact ⟨record', mem_append_left _ hadmitted⟩
    · exact ⟨record, mem_append_right _ (mem_singleton_self _)⟩
  · rw [hlog, hslot]
    exact h.accepted
  · rw [hlog]
    exact h.increases

theorem Kept.note (h : session.Kept log) {sending : Sending}
    (hk : session.sends[k]? = some sending) : (session.note k sending).Kept log := by
  have hpends : ∀ generation, (session.note k sending).Pends generation →
      session.Pends generation := by
    rintro generation ⟨other, hmem, hposted, hgeneration⟩
    rcases mem_or_eq_of_mem_set hmem with hmem | rfl
    · exact ⟨other, hmem, hposted, hgeneration⟩
    · cases hposted
  have hslot : ∀ {current : LaneState}, session.slot = some current →
      (session.note k sending).slot = some current.noteInput := by
    intro current hcurrent
    unfold Session.note
    dsimp only
    rw [hcurrent]
    rfl
  refine ⟨fun i generation hi => ?_, h.installed, fun other hother => ?_,
    fun generation record hadmitted => ?_, fun generation hpending => ?_,
    fun generation haccepted => ?_, h.increases⟩
  · obtain ⟨current, hcurrent, hle⟩ := h.transports i generation hi
    exact ⟨_, hslot hcurrent, hle⟩
  · obtain ⟨before, hbefore, hsame⟩ := sent_set hk other hother
    rw [← hsame]
    exact h.sent before hbefore
  · obtain ⟨current, hcurrent, hle, -⟩ := h.noted generation record hadmitted
    exact ⟨_, hslot hcurrent, hle, fun _ => Or.inl rfl⟩
  · exact h.pending generation (hpends generation hpending)
  · obtain ⟨_, hcurrent, hle⟩ := h.accepted generation haccepted
    exact ⟨_, hslot hcurrent, hle⟩

theorem Kept.post (h : session.Kept log) {sending : Sending}
    (hk : session.sends[k]? = some sending) (hpicked : sending.phase = .picked) :
    (session.post k sending).1.Kept (log ++ match (session.post k sending).2 with
      | some generation => [.admitted generation sending.record]
      | none => []) := by
  have hnot : sending.phase ≠ .posted := by
    rw [hpicked]
    decide
  rcases session.post_cases k sending with hpost | ⟨transport, _, phase, hi, hsame, hpost⟩
  · rw [hpost, append_nil]
    exact h
  have hgeneration := generation?_setTransport hi hsame
  have hfound : session.generation? sending.transport = some transport.generation := by
    unfold generation?
    rw [hi]
    rfl
  have hpends : ∀ generation, (session.post k sending).1.Pends generation ↔
      session.Pends generation ∨ phase = .posted ∧ generation = transport.generation := by
    intro generation
    rw [hpost]
    unfold Pends
    simp only [generation?, hgeneration]
    refine (pends_set hk hnot generation).trans (or_congr_right (and_congr_right fun _ => ?_))
    rw [hfound, Option.some.injEq, eq_comm]
  rw [hpost] at hpends ⊢
  by_cases hposted : phase = .posted
  · rw [if_pos hposted]
    refine h.admitted sending.record (fun generation' => ?_) rfl rfl hgeneration ⟨_, hfound⟩
      (sent_set hk)
    rw [hpends, and_iff_right hposted]
  · rw [if_neg hposted, append_nil]
    refine h.of_same (SlotKept.refl _) hgeneration (fun j hj => Or.inl hj) (sent_set hk)
      fun generation => ?_
    rw [hpends]
    exact or_iff_left fun hnow => hposted hnow.1

/-! ### Histories -/

theorem Kept.step (h : session.Kept log) (act : Act) :
    (session.step act).1.Kept (log ++ (session.step act).2) := by
  have hsilent : ∀ {after : Session}, after.Kept log → after.Kept (log ++ []) := by
    intro after _
    rwa [append_nil]
  cases act with
  | laneOpen generation nonce => exact h.laneOpen generation nonce
  | start i | closeEgress i =>
    refine hsilent (kept_onTransport h i fun transport hi => ?_)
    split
    · exact h.setTransport hi rfl
    · exact h
  | install i =>
    refine hsilent (kept_onTransport h i fun transport hi => ?_)
    split
    · have hsame : ({ transport with phase := .serving } : Transport).generation =
        transport.generation := rfl
      refine h.onTransport hi hsame (SlotKept.refl _) fun j hj => Or.inr ?_
      exact (Option.some.inj hj).symm
    · exact h
  | leave i =>
    refine hsilent (kept_onTransport h i fun transport hi => ?_)
    split
    · exact h.setTransport hi rfl
    · exact h.setTransport hi rfl
    · exact h.setTransport hi rfl
    · exact h
  | confirmLost i =>
    refine hsilent (kept_onTransport h i fun transport hi => ?_)
    split
    · have hsame : ({ transport with phase := .lost } : Transport).generation =
        transport.generation := rfl
      refine h.onTransport hi hsame ?_ fun j hj => Or.inl hj
      split
      · exact slotKept_confirmLost _ _
      · exact SlotKept.refl _
    · exact h
  | uninstall i =>
    refine hsilent (kept_onTransport h i fun transport hi => ?_)
    split
    · have hsame : ({ transport with phase := .uninstalled } : Transport).generation =
        transport.generation := rfl
      refine h.onTransport hi hsame (SlotKept.refl _) fun j hj => Or.inl ?_
      split at hj
      · cases hj
      · exact hj
    · exact h
  | egress i =>
    exact hsilent (kept_onTransport h i fun transport hi => h.setTransport hi rfl)
  | pick record =>
    dsimp only [Session.step]
    split
    · exact hsilent h
    rename_i transport hinstalled
    have hpicked := h.installed transport hinstalled
    refine hsilent ⟨h.transports, h.installed, fun sending hsending => ?_, ?_, ?_, h.accepted,
      h.increases⟩
    · rcases List.mem_append.mp hsending with hsending | hlast
      · exact h.sent sending hsending
      · rw [List.mem_singleton.mp hlast]
        exact hpicked
    · intro generation record' hadmitted
      obtain ⟨current, hcurrent, hle, hnoted⟩ := h.noted generation record' hadmitted
      refine ⟨current, hcurrent, hle, fun heq => (hnoted heq).imp_right ?_⟩
      rintro ⟨sending, hsending, hpends⟩
      exact ⟨sending, mem_append_left _ hsending, hpends⟩
    · rintro generation ⟨sending, hsending, hposted, hgeneration⟩
      rcases List.mem_append.mp hsending with hsending | hlast
      · exact h.pending generation ⟨sending, hsending, hposted, hgeneration⟩
      · rw [List.mem_singleton.mp hlast] at hposted
        cases hposted
  | post k =>
    dsimp only [Session.step]
    split
    · exact hsilent h
    rename_i sending hk
    split
    · rename_i hpicked
      have hpost := h.post hk hpicked
      generalize session.post k sending = posted at hpost ⊢
      obtain ⟨_, admitted⟩ := posted
      cases admitted with
      | none | some => exact hpost
    · exact hsilent h
  | note k =>
    dsimp only [Session.step]
    split
    · exact hsilent h
    · rename_i sending hk
      split
      · exact hsilent (h.note hk)
      · exact hsilent h

theorem kept_run (history : List Act) : (run history).Kept (happened history) := by
  induction history using List.reverseRecOn with
  | nil =>
    refine ⟨fun i generation hi => ?_, fun i hi => ?_, fun sending hsending => ?_,
      fun generation record hadmitted => ?_, fun generation hpending => ?_,
      fun generation haccepted => ?_, List.Pairwise.nil⟩
    · cases hi
    · cases hi
    · cases hsending
    · cases hadmitted
    · obtain ⟨_, hsending, -⟩ := hpending
      cases hsending
    · cases haccepted
  | append_singleton _ act ih =>
    rw [run_concat, happened_concat]
    exact ih.step act

theorem step_iff (h : session.Kept log) (hobeys : Obeys log) (act : Act) :
    Obeys (log ++ (session.step act).2) ↔ session.Sound act := by
  have hincreases := (h.step act).increases
  cases act with
  | laneOpen generation nonce =>
    have hlog : (session.step (.laneOpen generation nonce)).2 =
        [.answered generation (session.laneOpen generation nonce).2] := rfl
    rw [hlog] at hincreases ⊢
    rw [obeys_concat hobeys _ hincreases]
    unfold Session.laneOpen
    rcases admitLane_cases session.slot generation nonce with ⟨hanswer, hnew⟩ |
      ⟨current, hcurrent, hretries, hanswer⟩ | ⟨admission, hnotAccept, hnotReplay, hanswer, hnone⟩
    · rw [hanswer]
      refine iff_of_true nofun fun current hcurrent hretries => ?_
      exact ((hnew current hcurrent).ne hretries.2.1.symm).elim
    · rw [hanswer]
      constructor
      · intro hreplay found hfound _ hpends
        obtain ⟨record, hadmitted⟩ := h.pending generation hpends
        exact hreplay generation rfl record hadmitted
      · rintro hsound _ ⟨⟩ record hadmitted
        obtain ⟨_, hfound, -, hnoted⟩ := h.noted generation record hadmitted
        rw [hcurrent] at hfound
        cases hfound
        rcases hnoted hretries.2.1 with hinput | hpends
        · rw [hretries.2.2.2.2] at hinput
          cases hinput
        · exact hsound current hcurrent hretries hpends
    · rw [hanswer]
      refine iff_of_true (fun generation' heq => ?_) fun current hcurrent hretries =>
        (hnone current hcurrent hretries).elim
      cases admission with
      | accept => exact (hnotAccept rfl).elim
      | replay => exact (hnotReplay rfl).elim
      | _ => cases heq
  | post k =>
    refine iff_of_true ?_ trivial
    have hlog : (session.step (.post k)).2 = [] ∨
        ∃ generation record, (session.step (.post k)).2 = [.admitted generation record] := by
      dsimp only [Session.step]
      repeat' split
      all_goals first | exact Or.inl rfl | exact Or.inr ⟨_, _, rfl⟩
    rcases hlog with hlog | ⟨_, _, hlog⟩
    · rw [hlog, append_nil]
      exact hobeys
    · rw [hlog] at hincreases ⊢
      exact (obeys_concat hobeys _ hincreases).mpr nofun
  | pick =>
    refine iff_of_true ?_ trivial
    dsimp only [Session.step]
    split
    · exact (append_nil log).symm ▸ hobeys
    · exact (append_nil log).symm ▸ hobeys
  | note =>
    refine iff_of_true ?_ trivial
    dsimp only [Session.step]
    repeat' split
    all_goals exact (append_nil log).symm ▸ hobeys
  | _ =>
    refine iff_of_true ?_ trivial
    exact (append_nil log).symm ▸ hobeys

theorem happened_append (earlier later : List Act) :
    ∃ more, happened (earlier ++ later) = happened earlier ++ more := by
  induction later using List.reverseRecOn with
  | nil => exact ⟨[], by rw [append_nil, append_nil]⟩
  | append_singleton _ _ ih =>
    obtain ⟨_, hmore⟩ := ih
    rw [← append_assoc, happened_concat, hmore, append_assoc]
    exact ⟨_, rfl⟩

/-- A lane's openings are answered as they should exactly if none retries a generation of which a
post has still to be noted. -/
theorem obeys_iff (history : List Act) :
    Obeys (happened history) ↔ Throughout run Sound history := by
  rw [← throughout_iff_always (fun history => Obeys (happened history))]
  · constructor
    · intro h n
      obtain ⟨_, hmore⟩ := happened_append (history.take n) (history.drop n)
      rw [take_append_drop] at hmore
      exact (hmore ▸ h).of_append
    · intro h
      have hall := h history.length
      rwa [take_length] at hall
  · constructor
    · intro _ _ _ heq
      exact (cons_ne_nil _ _ (List.append_eq_nil_iff.mp heq.symm).2).elim
    · exact List.Pairwise.nil
  · intro history act hbefore
    rw [happened_concat]
    exact step_iff (kept_run history) hbefore act

section Racing

/-- The lane is lost and opened again between the post of an input record and its note. -/
def racing : List Act :=
  [.laneOpen 1 [7], .start 0, .install 0, .pick ⟨40, 1, []⟩, .post 0, .leave 0, .confirmLost 0,
    .laneOpen 1 [7], .note 0]

theorem racing_replayed : ¬ ∀ history, Obeys (happened history) := by
  intro h
  have hhappened : happened racing = [.answered 1 .accept, .admitted 1 ⟨40, 1, []⟩] ++
      .answered 1 .replay :: [] := by
    decide +kernel
  exact (h racing).replays _ 1 [] hhappened ⟨40, 1, []⟩ (by decide)

end Racing

end Session

end Vivido.Lane
