import Mathlib.Data.List.Forall2
import Vivido.Automation.Replay

/-!
What an event and a subscription do to all subscribers. An event that is
published is accounted for by each of them. A client that resumes behind an
event is accounted what it missed, where the notice of a gap has room.
-/

namespace Vivido.Automation

open Entry List

variable {V : Type} {W : Wire V}

/-! ### One event for all -/

theorem exists_left {α β : Type*} {R : α → β → Prop} {l : List α} {l' : List β}
    (h : List.Forall₂ R l l') {b : β} (hb : b ∈ l') : ∃ a ∈ l, R a b := by
  induction h with
  | nil => cases hb
  | cons hr _ ih =>
    rcases List.mem_cons.mp hb with rfl | hb
    · exact ⟨_, mem_cons_self, hr⟩
    · obtain ⟨a, ha, hr⟩ := ih hb
      exact ⟨a, mem_cons_of_mem _ ha, hr⟩

theorem exists_right {α β : Type*} {R : α → β → Prop} {l : List α} {l' : List β}
    (h : List.Forall₂ R l l') {a : α} (ha : a ∈ l) : ∃ b ∈ l', R a b :=
  exists_left h.flip ha

namespace AutomationHub

variable {connections connections' : SortedMap ℕ (Connection V)}

/-- A connection over which only subscribers of some keys were sent something. -/
structure SentTo (keys : List ℕ) (c c' : Connection V) : Prop where
  connected : c'.isConnected = c.isConnected
  others : ∀ key ∉ keys, c'.sent key = c.sent key

/-- Each connection there is stays, in a relation to what it was. -/
def Evolves (R : Connection V → Connection V → Prop)
    (connections connections' : SortedMap ℕ (Connection V)) : Prop :=
  ∀ id, Option.Rel R (connections.lookup id) (connections'.lookup id)

variable {R : Connection V → Connection V → Prop}

theorem Evolves.forward (h : Evolves R connections connections') {id : ℕ} {c : Connection V}
    (hc : connections.lookup id = some c) : ∃ c', connections'.lookup id = some c' ∧ R c c' := by
  have hrel := h id
  rw [hc] at hrel
  generalize connections'.lookup id = o at hrel ⊢
  cases hrel with
  | some hr => exact ⟨_, rfl, hr⟩

theorem Evolves.back (h : Evolves R connections connections') {id : ℕ} {c' : Connection V}
    (hc : connections'.lookup id = some c') : ∃ c, connections.lookup id = some c ∧ R c c' := by
  have hrel := h id
  rw [hc] at hrel
  generalize connections.lookup id = o at hrel ⊢
  cases hrel with
  | some hr => exact ⟨_, rfl, hr⟩

theorem evolves_refl (h : ∀ c, R c c) : Evolves R connections connections := by
  intro id
  cases connections.lookup id with
  | none => exact .none
  | some c => exact .some (h c)

theorem evolves_insert {id : ℕ} {c c' : Connection V} (hrefl : ∀ c, R c c)
    (hc : connections.lookup id = some c) (h : R c c') :
    Evolves R connections (connections.insert id c') := by
  intro id'
  rw [SortedMap.lookup_insert]
  split
  · rename_i heq
    rw [heq, hc]
    exact .some h
  · exact evolves_refl hrefl id'

variable {event : StoredEvent V} {keys : List ℕ} {sub : Subscriber}

theorem Evolves.sentTo {keys' : List ℕ} {connections'' : SortedMap ℕ (Connection V)}
    (h : Evolves (SentTo keys) connections connections')
    (h' : Evolves (SentTo keys') connections' connections'') :
    Evolves (SentTo (keys ++ keys')) connections connections'' := by
  intro id
  have hrel := h id
  have hrel' := h' id
  generalize connections.lookup id = o at hrel ⊢
  generalize connections'.lookup id = o' at hrel hrel'
  generalize connections''.lookup id = o'' at hrel' ⊢
  cases hrel with
  | none =>
    cases hrel'
    exact .none
  | some hr =>
    cases hrel' with
    | some hr' =>
      refine .some ⟨hr'.connected.trans hr.connected, fun key hkey => ?_⟩
      rw [mem_append, not_or] at hkey
      exact (hr'.others key hkey.2).trans (hr.others key hkey.1)

theorem SentTo.refl (keys : List ℕ) (c : Connection V) : SentTo keys c c := ⟨rfl, fun _ _ => rfl⟩

/-- One subscriber, before and after an event. -/
structure Offered (event : StoredEvent V) (connections connections' : SortedMap ℕ (Connection V))
    (sub sub' : Subscriber) : Prop where
  alike : sub.IsAlike sub'
  follows : ∀ c c', connections.lookup sub.connection = some c →
    connections'.lookup sub.connection = some c' → ∀ due bound, bound ≤ event.sequence →
      sub.Follows (c.sent sub.key) due bound →
        sub'.Follows (c'.sent sub.key) (due ++ [event].filter sub.wants) event.sequence

/-- An event that a subscriber does not want, or cannot be told of. -/
theorem offered_unsent (h : Evolves (SentTo keys) connections connections') (hkey : sub.key ∉ keys)
    (hwants : ∀ c, connections.lookup sub.connection = some c → sub.wants event = false) :
    Offered event connections connections' sub sub := by
  refine ⟨.refl sub, fun c c' hc hc' due bound hbound hfollows => ?_⟩
  obtain ⟨c'', hc'', hsent⟩ := h.forward hc
  obtain rfl : c' = c'' := Option.some.inj (hc'.symm.trans hc'')
  rw [hsent.others _ hkey, filter_cons_of_neg (by rw [hwants c hc]; nofun), filter_nil,
    append_nil]
  exact hfollows.mono hbound

theorem offered_sent {value : V} (hvalue : event.payload = .value value) {c : Connection V}
    (hc : connections.lookup sub.connection = some c) (hwants : sub.wants event = true)
    (hkey : sub.key ∉ keys) (h : Evolves (SentTo keys)
      (connections.insert sub.connection (sub.send W c event).1) connections') :
    Offered event connections connections' sub (sub.send W c event).2 := by
  refine ⟨(Subscriber.leaves_send W c sub event).alike, ?_⟩
  intro c₁ c' hc₁ hc' _ _ hbound hfollows
  obtain rfl : c = c₁ := Option.some.inj (hc.symm.trans hc₁)
  obtain ⟨c'', hc'', hsent⟩ := h.forward (SortedMap.lookup_insert_self)
  obtain rfl : c' = c'' := Option.some.inj (hc'.symm.trans hc'')
  rw [hsent.others _ hkey, filter_cons_of_pos hwants, filter_nil]
  exact Subscriber.send_follows hfollows hvalue hbound

/-- A subscriber's connection is one over which others were sent something before. -/
theorem Offered.of_sentTo {sub' : Subscriber} {connections₁ : SortedMap ℕ (Connection V)}
    (h : Evolves (SentTo keys) connections connections₁) (hkey : sub.key ∉ keys)
    (hoffered : Offered event connections₁ connections' sub sub') :
    Offered event connections connections' sub sub' := by
  refine ⟨hoffered.alike, fun c c' hc hc' due bound hbound hfollows => ?_⟩
  obtain ⟨c₁, hc₁, hsent⟩ := h.forward hc
  rw [← hsent.others _ hkey] at hfollows
  exact hoffered.follows c₁ c' hc₁ hc' due bound hbound hfollows

theorem deliver_spec (W : Wire V) (connections : SortedMap ℕ (Connection V)) {value : V}
    (hvalue : event.payload = .value value) {subs : List Subscriber}
    (hkeys : (subs.map (·.key)).Nodup) :
    Evolves (SentTo (subs.map (·.key))) connections (deliver W event connections subs).1 ∧
      List.Forall₂ (Offered event connections (deliver W event connections subs).1) subs
        (deliver W event connections subs).2 := by
  induction subs generalizing connections with
  | nil => exact ⟨evolves_refl (SentTo.refl _), .nil⟩
  | cons sub subs ih =>
    rw [map_cons] at hkeys ⊢
    obtain ⟨hnotin, hnodup⟩ := List.nodup_cons.mp hkeys
    -- nothing is sent to the first one
    have hpass : (∀ c, connections.lookup sub.connection = some c → sub.wants event = false) →
        Evolves (SentTo (sub.key :: subs.map (·.key))) connections
            (deliver W event connections subs).1 ∧
          List.Forall₂ (Offered event connections (deliver W event connections subs).1)
            (sub :: subs) (sub :: (deliver W event connections subs).2) := by
      intro hwants
      obtain ⟨hevolves, hoffered⟩ := ih connections hnodup
      exact ⟨(evolves_refl (SentTo.refl [sub.key])).sentTo hevolves,
        .cons (offered_unsent hevolves hnotin hwants) hoffered⟩
    unfold deliver
    split
    · rename_i hnone
      exact hpass fun c hc => by rw [hnone] at hc; cases hc
    rename_i c hc
    split
    · rename_i hwants
      have hleaves := Subscriber.leaves_send W c sub event
      have hfirst : Evolves (SentTo [sub.key]) connections
          (connections.insert sub.connection (sub.send W c event).1) := by
        refine evolves_insert (SentTo.refl _) hc ⟨hleaves.connected, fun key hkey => ?_⟩
        exact hleaves.others key (by simpa using hkey)
      obtain ⟨hevolves, hoffered⟩ := ih
        (connections.insert sub.connection (sub.send W c event).1) hnodup
      refine ⟨hfirst.sentTo hevolves, .cons ?_ ?_⟩
      · exact offered_sent hvalue hc hwants hnotin hevolves
      · have hothers : ∀ other ∈ subs, other.key ≠ sub.key := fun other hmem heq =>
          hnotin (heq ▸ mem_map_of_mem hmem)
        refine ((forall₂_and_left _ _).mpr ⟨hothers, hoffered⟩).imp ?_
        intro _ _ hother
        exact hother.2.of_sentTo hfirst (by simpa using hother.1)
    · rename_i hwants
      exact hpass fun _ _ => by simpa using hwants

end AutomationHub

/-! ### A client that resumes -/

theorem Connection.queueJson_fits {c : Connection V} (hc : c.isConnected = true) {size : Option ℕ}
    (hsize : size.any fun size => size ≤ maxReplyFrameBytes)
    (hroom : c.output.length < outputQueueFrames) (frame : Option (ℕ × Envelope V)) :
    c.queueJson size frame = ({ c with output := c.output ++ [frame] }, none) := by
  obtain ⟨halive, hserving⟩ := Bool.and_eq_true_iff.mp hc
  cases size with
  | none => cases hsize
  | some size =>
    have hsize : ¬ maxReplyFrameBytes < size := by
      simpa using hsize
    unfold queueJson
    simp only [halive, hserving, hsize, Nat.not_le.mpr hroom, Bool.not_true, Bool.false_eq_true,
      if_false]

namespace Subscriber

variable {sub : Subscriber} {received : List (Envelope V)} {due : List (StoredEvent V)}
  {bound first last : ℕ}

/-- All that is due is lost, and a range has it that is owed. -/
theorem follows_lost (sub : Subscriber)
    (h : ∀ event ∈ due, first ≤ event.sequence ∧ event.sequence ≤ last)
    (hle : first ≤ last) (hlast : last ≤ bound) :
    { sub with overflow := some (first, last) }.Follows ([] : List (Envelope V)) due bound := by
  refine ⟨due.map lost, ?_, ?_, owes_lost h, ?_⟩
  · rw [filterMap_map]
    exact filterMap_some
  · rw [filterMap_map]
    exact List.filterMap_eq_nil_iff.mpr fun _ _ => rfl
  · rintro f l ⟨⟩
    exact ⟨hle, hlast⟩

/-- What is read is of account, not how it is said. -/
theorem Follows.of_reads {received' : List (Envelope V)} (h : sub.Follows received due bound)
    (hreads : received'.map Envelope.reads = received.map Envelope.reads) :
    sub.Follows received' due bound := by
  obtain ⟨log, hoffered, hseen, howes, hrange⟩ := h
  exact ⟨log, hoffered, hseen.trans hreads.symm, howes, hrange⟩

end Subscriber

namespace AutomationHub

variable {s : AutomationHub V} {sub : Subscriber} {c : Connection V} {request : SubscriptionRequest}

/-- The notice of a gap can be queued. -/
def GapFits (W : Wire V) (s : AutomationHub V) (sub : Subscriber) (c : Connection V)
    (request : SubscriptionRequest) (since : ℕ) : Prop :=
  (W.frame (sub.envelope (s.gapEvent request since))).any (fun size => size ≤ maxReplyFrameBytes) ∧
    c.output.length < outputQueueFrames

/-- A new subscriber can be told of the events that it missed. -/
def Tellable (W : Wire V) (s : AutomationHub V) (sub : Subscriber) (c : Connection V)
    (request : SubscriptionRequest) (since : ℕ) : Prop :=
  if saturatingAdd since 1 < s.oldest then
    s.GapFits W sub c request since ∨ ∀ event ∈ s.published, since < event.sequence →
      sub.wants event = true → event.sequence = s.eventSequence
  else ∀ event ∈ s.evicted, since < event.sequence → sub.wants event = false

theorem Kept.oldest_le (h : s.Kept) : s.oldest ≤ saturatingAdd s.eventSequence 1 := by
  unfold oldest
  cases hreplay : s.replay with
  | nil => exact le_rfl
  | cons event =>
    have hmem : event ∈ s.published :=
      mem_append_right _ (hreplay ▸ mem_cons_self)
    exact (h.newest event hmem).trans (le_saturatingAdd h.limit)

/-- Where there is a gap, the client is behind. -/
theorem Kept.behind (h : s.Kept) {since : ℕ} (hgap : saturatingAdd since 1 < s.oldest) :
    since < s.eventSequence := by
  have holdest := h.oldest_le
  unfold saturatingAdd at hgap holdest
  omega

theorem leaves_resume : Subscriber.Leaves c sub (s.resume W sub c request) := by
  unfold resume
  split
  · exact Subscriber.leaves_self sub (.refl sub)
  · split
    · exact Subscriber.leaves_send W c sub _
    · exact Subscriber.leaves_sendAll _

/-- What is due to one that resumes behind an event. -/
theorem Kept.due_since (h : s.Kept) {since : ℕ} (hstart : sub.start =
    (s.published.takeWhile fun event => event.sequence ≤ since).length) :
    s.due sub = (s.published.filter fun event => since < event.sequence).filter sub.wants := by
  unfold due
  rw [hstart, drop_takeWhile since h.sorted]

theorem gap_follows (hkept : s.Kept) {since : ℕ} (hgap : saturatingAdd since 1 < s.oldest)
    (hnew : sub.overflow = none ∧ sub.queuedEvents = 0) (hsent : c.sent sub.key = [])
    (hstart : sub.start = (s.published.takeWhile fun event => event.sequence ≤ since).length)
    (hc : c.isConnected = true) (htell : s.GapFits W sub c request since ∨
      ∀ event ∈ s.published, since < event.sequence → sub.wants event = true →
        event.sequence = s.eventSequence) : (sub.send W c (s.gapEvent request since)).2.Follows
      ((sub.send W c (s.gapEvent request since)).1.sent sub.key) (s.due sub) s.eventSequence := by
  have hdue : ∀ event ∈ s.due sub, event ∈ s.published ∧ since < event.sequence ∧
      sub.wants event = true := by
    intro event hmem
    rw [hkept.due_since hstart] at hmem
    obtain ⟨hmem, hwants⟩ := List.mem_filter.mp hmem
    obtain ⟨hmem, hlt⟩ := List.mem_filter.mp hmem
    exact ⟨hmem, of_decide_eq_true hlt, hwants⟩
  unfold Subscriber.send
  rw [hnew.1]
  dsimp only
  unfold Subscriber.sendEvent
  rcases Subscriber.event_cases W sub c (sub.envelope (s.gapEvent request since)) with
    heq | ⟨_, heq, hsent', -⟩
  · -- the notice is lost, so that its own number is all that is owed
    rw [heq]
    dsimp only
    rw [hnew.1, hsent]
    rcases htell with ⟨hsize, hroom⟩ | hcurrent
    · unfold Subscriber.event at heq
      rw [hnew.2, if_neg (by decide), Connection.queueJson_fits hc hsize hroom] at heq
      cases (Prod.mk.inj (Prod.mk.inj heq).2).2
    · refine Subscriber.follows_lost sub (fun event hmem => ?_) le_rfl le_rfl
      obtain ⟨hmem, hlt, hwants⟩ := hdue event hmem
      have hsequence := hcurrent event hmem hlt hwants
      exact ⟨hsequence.ge, hsequence.le⟩
  · rw [heq]
    dsimp only
    rw [hsent', hsent]
    have hrange : ∀ event ∈ s.due sub,
        since + 1 ≤ event.sequence ∧ event.sequence ≤ s.eventSequence :=
      fun event hmem => ⟨(hdue event hmem).2.1, hkept.newest event (hdue event hmem).1⟩
    have hlost := Subscriber.follows_lost sub hrange (hkept.behind hgap) le_rfl
    have htold := hlost.tell rfl
    dsimp only at htold
    rw [← hnew.1] at htold
    exact (htold.slots (sub.queuedEvents + 1)).of_reads rfl

theorem resume_follows (hkept : s.Kept) (hnew : sub.overflow = none ∧ sub.queuedEvents = 0)
    (hsent : c.sent sub.key = []) (hc : c.isConnected = true)
    (hstart : sub.start = match request.sinceEvent with
      | none => s.published.length
      | some since => (s.published.takeWhile fun event => event.sequence ≤ since).length)
    (htell : ∀ since, request.sinceEvent = some since → s.Tellable W sub c request since) :
    (s.resume W sub c request).2.Follows ((s.resume W sub c request).1.sent sub.key) (s.due sub)
      s.eventSequence := by
  unfold resume
  split
  · rename_i hnone
    rw [hnone] at hstart
    unfold due
    rw [hstart, drop_length, filter_nil, hsent]
    exact Subscriber.follows_nil hnew.1
  · rename_i since hsince
    rw [hsince] at hstart
    have htell := htell since hsince
    unfold Tellable at htell
    split
    · rename_i hgap
      rw [if_pos hgap] at htell
      exact gap_follows hkept hgap hnew hsent hstart hc htell
    rename_i hgap
    rw [if_neg hgap] at htell
    have hdue : s.due sub =
        [] ++ (s.replay.filter fun event => since < event.sequence).filter sub.wants := by
      have hevicted : (s.evicted.filter fun event => since < event.sequence).filter sub.wants =
          [] := by
        refine List.filter_eq_nil_iff.mpr fun event hmem => ?_
        obtain ⟨hmem, hlt⟩ := List.mem_filter.mp hmem
        rw [htell event hmem (of_decide_eq_true hlt)]
        exact fun h => by cases h
      rw [hkept.due_since hstart]
      unfold published
      rw [filter_append, filter_append, hevicted]
    have hmem : ∀ event ∈ s.replay.filter fun event => since < event.sequence,
        event ∈ s.published := fun event hmem =>
      mem_append_right _ (List.mem_filter.mp hmem).1
    rw [hdue]
    refine Subscriber.sendAll_follows ?_ ?_ ?_ ?_ (Nat.zero_le _)
    · rw [hsent]
      exact Subscriber.follows_nil hnew.1
    · exact List.Pairwise.sublist filter_sublist
        (List.Pairwise.sublist (sublist_append_right _ _) hkept.sorted)
    · exact fun event hevent => hkept.values event (hmem event hevent)
    · exact fun event hevent => ⟨Nat.zero_le _, hkept.newest event (hmem event hevent)⟩

end AutomationHub

end Vivido.Automation
