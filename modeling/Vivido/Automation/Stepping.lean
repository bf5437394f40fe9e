import Mathlib.Data.List.Nodup
import Vivido.Automation.Delivering

/-!
The single steps of the hub. Each keeps subscribers, keys and connections in
order, and what each connected subscriber has been sent goes on to account for
what it is due.
-/

namespace Vivido.Automation

open Entry SortedMap List Option

variable {V : Type} {W : Wire V}

namespace AutomationHub

/-- How subscribers, their keys and their connections are always related. -/
structure Numbered (s : AutomationHub V) : Prop where
  keys : (s.subscribers.map (·.key)).Nodup
  fresh : ∀ sub ∈ s.subscribers, sub.key < s.subscribed
  unsent : ∀ id c, s.connections.lookup id = some c → ∀ key, s.subscribed ≤ key → c.sent key = []
  start : ∀ sub ∈ s.subscribers, sub.start ≤ s.published.length
  known : ∀ sub ∈ s.subscribers, ∃ c, s.connections.lookup sub.connection = some c

/-- What each connected subscriber has been sent accounts for what it is due. -/
def Accounts (s : AutomationHub V) : Prop :=
  ∀ sub ∈ s.subscribers, ∀ c, s.connections.lookup sub.connection = some c →
    c.isConnected = true → sub.Follows (c.sent sub.key) (s.due sub) s.eventSequence

variable {s s' : AutomationHub V}

/-! ### What concerns no event -/

/-- Nothing is published and nothing is sent to a subscriber. -/
structure Passes (s s' : AutomationHub V) : Prop where
  evicted : s'.evicted = s.evicted
  replay : s'.replay = s.replay
  bytes : s'.replayBytes = s.replayBytes
  hung : s'.hung = s.hung
  sequence : s'.eventSequence = s.eventSequence
  subscribed : s'.subscribed = s.subscribed
  connections : Evolves Connection.Keeps s.connections s'.connections
  subscribers : ∀ sub' ∈ s'.subscribers, ∃ sub ∈ s.subscribers, ∃ queuedEvents,
    sub' = { sub with queuedEvents }
  keys : (s'.subscribers.map (·.key)).Sublist (s.subscribers.map (·.key))

theorem Passes.published (h : Passes s s') : s'.published = s.published := by
  unfold AutomationHub.published
  rw [h.evicted, h.replay]

theorem Passes.kept (h : Passes s s') (hkept : s.Kept) : s'.Kept where
  bytes := by
    rw [h.bytes, h.replay]
    exact hkept.bytes
  within := h.bytes ▸ hkept.within
  count := h.replay ▸ hkept.count
  ends := h.hung.trans hkept.ends
  sorted := h.published ▸ hkept.sorted
  values := h.published ▸ hkept.values
  newest := by
    rw [h.published, h.sequence]
    exact hkept.newest
  limit := h.sequence ▸ hkept.limit

theorem Passes.numbered (h : Passes s s') (hnumbered : s.Numbered) : s'.Numbered where
  keys := hnumbered.keys.sublist h.keys
  fresh sub' hmem := by
    obtain ⟨sub, hold, _, rfl⟩ := h.subscribers sub' hmem
    rw [h.subscribed]
    exact hnumbered.fresh sub hold
  unsent id c' hc' key hkey := by
    obtain ⟨c, hc, hkeeps⟩ := h.connections.back hc'
    rw [hkeeps.sent]
    exact hnumbered.unsent id c hc key (h.subscribed ▸ hkey)
  start sub' hmem := by
    obtain ⟨sub, hold, _, rfl⟩ := h.subscribers sub' hmem
    rw [h.published]
    exact hnumbered.start sub hold
  known sub' hmem := by
    obtain ⟨sub, hold, _, rfl⟩ := h.subscribers sub' hmem
    obtain ⟨c, hc⟩ := hnumbered.known sub hold
    obtain ⟨c', hc', -⟩ := h.connections.forward hc
    exact ⟨c', hc'⟩

theorem Passes.accounts (h : Passes s s') (haccounts : s.Accounts) : s'.Accounts := by
  intro sub' hmem _ hc' hconnected
  obtain ⟨sub, hold, _, rfl⟩ := h.subscribers sub' hmem
  obtain ⟨c, hc, hkeeps⟩ := h.connections.back hc'
  have hfollows := haccounts sub hold c hc (hkeeps.connected hconnected)
  rw [due_same h.published, h.sequence, hkeeps.sent]
  exact hfollows

theorem Passes.refl (s : AutomationHub V) : Passes s s where
  evicted := rfl
  replay := rfl
  bytes := rfl
  hung := rfl
  sequence := rfl
  subscribed := rfl
  connections := evolves_refl .refl
  subscribers sub hmem := ⟨sub, hmem, sub.queuedEvents, rfl⟩
  keys := List.Sublist.refl _

variable {work : Connection V → Connection V}

theorem evolves_onConnection {id : ℕ}
    (h : ∀ c, s.connections.lookup id = some c → c.Keeps (work c)) :
    Evolves Connection.Keeps s.connections (s.onConnection id work).connections := by
  intro id'
  unfold onConnection
  rw [lookup_adjust]
  cases hc : s.connections.lookup id' with
  | none =>
    rw [map_none, ite_self]
    exact .none
  | some c =>
    rw [map_some]
    split
    · rename_i heq
      subst heq
      exact .some (h c hc)
    · exact .some (.refl c)

theorem passes_onConnection {id : ℕ}
    (h : ∀ c, s.connections.lookup id = some c → c.Keeps (work c)) :
    Passes s (s.onConnection id work) :=
  { Passes.refl s with connections := evolves_onConnection h }

theorem passes_filter (keep : Subscriber → Bool) :
    Passes s { s with subscribers := s.subscribers.filter keep } :=
  { Passes.refl s with
    subscribers := fun sub hmem =>
      ⟨sub, (List.mem_filter.mp hmem).1, sub.queuedEvents, rfl⟩
    keys := List.Sublist.map _ filter_sublist }

theorem passes_take (id : ℕ) : Passes s (s.take id) := by
  refine passes_onConnection fun c _ => ?_
  split
  · rename_i frame frames hwriting houtput
    refine ⟨?_, fun hconnected => hconnected⟩
    funext key
    refine Connection.sent_of_frames ?_ key
    unfold Connection.frames
    rw [hwriting, houtput, toList_none, toList_some, append_nil,
      append_assoc, singleton_append]
  · exact .refl c

theorem passes_written (id : ℕ) : Passes s (s.written id) := by
  unfold written
  split
  · exact .refl s
  rename_i frame hframe
  refine { Passes.refl s with connections := ?_, subscribers := ?_, keys := ?_ }
  · refine evolves_onConnection fun c hc => ⟨?_, fun hconnected => hconnected⟩
    rw [hc, bind_some] at hframe
    funext key
    refine Connection.sent_of_frames ?_ key
    unfold Connection.frames
    rw [hframe, toList_none, toList_some, append_nil]
  · intro _ hmem
    obtain ⟨sub, hold, rfl⟩ := List.mem_map.mp hmem
    refine ⟨sub, hold, ?_⟩
    split
    · exact ⟨_, rfl⟩
    · exact ⟨sub.queuedEvents, rfl⟩
  · rw [List.map_map]
    refine (map_congr_left fun sub _ => ?_) ▸ List.Sublist.refl _
    rw [Function.comp_apply]
    split
    · rfl
    · rfl

/-! ### What is published -/

theorem emitPayload_delivered (windowId : Option ℕ) (kind : String) (value : V) :
    let delivered := deliver W (s.emitted W windowId kind value) s.connections s.subscribers
    (s.emitPayload W windowId kind value).connections = delivered.1 ∧
      (s.emitPayload W windowId kind value).subscribers = delivered.2.filter (fun sub =>
        (delivered.1.lookup sub.connection).any Connection.alive) ∧
      (s.emitPayload W windowId kind value).eventSequence = saturatingAdd s.eventSequence 1 ∧
      (s.emitPayload W windowId kind value).subscribed = s.subscribed := by
  unfold emitPayload
  dsimp only
  split
  · exact ⟨rfl, rfl, rfl, rfl⟩
  · exact ⟨rfl, rfl, rfl, rfl⟩

/-- The subscribers after an event, each with what it was. -/
theorem mem_emitPayload (hnumbered : s.Numbered) (windowId : Option ℕ) (kind : String) (value : V) :
    Evolves (SentTo (s.subscribers.map (·.key))) s.connections
        (s.emitPayload W windowId kind value).connections ∧
      ((s.emitPayload W windowId kind value).subscribers.map (·.key)).Sublist
        (s.subscribers.map (·.key)) ∧
      (∀ sub' ∈ (s.emitPayload W windowId kind value).subscribers, ∃ sub ∈ s.subscribers,
        Offered (s.emitted W windowId kind value) s.connections
          (s.emitPayload W windowId kind value).connections sub sub') ∧ ∀ sub ∈ s.subscribers, ∀ c,
        (s.emitPayload W windowId kind value).connections.lookup sub.connection = some c →
          c.isConnected = true →
            ∃ sub' ∈ (s.emitPayload W windowId kind value).subscribers, sub.IsAlike sub' := by
  obtain ⟨hconnections, hsubscribers, -, -⟩ :=
    emitPayload_delivered (W := W) (s := s) windowId kind value
  obtain ⟨hevolves, hoffered⟩ := deliver_spec W s.connections
    (rfl : (s.emitted W windowId kind value).payload = .value value) hnumbered.keys
  rw [← hconnections] at hevolves hoffered
  rw [← hconnections] at hsubscribers
  refine ⟨hevolves, ?_, ?_, ?_⟩
  · have hkeys : (deliver W (s.emitted W windowId kind value) s.connections s.subscribers).2.map
        (·.key) = s.subscribers.map (·.key) := by
      refine (forall₂_eq_eq_eq ▸ List.forall₂_map_left_iff.mpr
        (List.forall₂_map_right_iff.mpr (hoffered.imp fun sub sub' h => ?_)) :
          s.subscribers.map (·.key) = _).symm
      exact h.alike.key.symm
    rw [hsubscribers, ← hkeys]
    exact List.Sublist.map _ filter_sublist
  · intro sub' hmem
    rw [hsubscribers] at hmem
    exact exists_left hoffered (List.mem_filter.mp hmem).1
  · intro _ hmem c hc hconnected
    obtain ⟨sub', hmem', h⟩ := exists_right hoffered hmem
    refine ⟨sub', ?_, h.alike⟩
    rw [hsubscribers]
    refine List.mem_filter.mpr ⟨hmem', ?_⟩
    rw [h.alike.connection, hc]
    exact (Bool.and_eq_true_iff.mp hconnected).1

theorem emitPayload_numbered (hkept : s.Kept) (hnumbered : s.Numbered) (windowId : Option ℕ)
    (kind : String) (value : V) : (s.emitPayload W windowId kind value).Numbered := by
  obtain ⟨-, -, -, hsubscribed⟩ := emitPayload_delivered (W := W) (s := s) windowId kind value
  obtain ⟨hevolves, hkeys, hsubs, -⟩ := mem_emitPayload (W := W) hnumbered windowId kind value
  have hpublished := (hkept.emitPayload (W := W) windowId kind value).2
  refine ⟨hnumbered.keys.sublist hkeys, ?_, ?_, ?_, ?_⟩
  · intro sub' hmem
    obtain ⟨sub, hmem, hoffered⟩ := hsubs sub' hmem
    rw [hsubscribed, hoffered.alike.key]
    exact hnumbered.fresh sub hmem
  · intro id c' hc' key hkey
    obtain ⟨c, hc, hsent⟩ := hevolves.back hc'
    rw [hsubscribed] at hkey
    rw [hsent.others key]
    · exact hnumbered.unsent id c hc key hkey
    · intro hmem
      obtain ⟨sub, hold, rfl⟩ := List.mem_map.mp hmem
      exact absurd (hnumbered.fresh sub hold) (Nat.not_lt.mpr hkey)
  · intro sub' hmem
    obtain ⟨sub, hmem, hoffered⟩ := hsubs sub' hmem
    rw [hpublished, hoffered.alike.start, length_append]
    exact Nat.le_add_right_of_le (hnumbered.start sub hmem)
  · intro sub' hmem
    obtain ⟨sub, hmem, hoffered⟩ := hsubs sub' hmem
    obtain ⟨c, hc⟩ := hnumbered.known sub hmem
    obtain ⟨c', hc', -⟩ := hevolves.forward hc
    rw [hoffered.alike.connection]
    exact ⟨c', hc'⟩

theorem emitPayload_accounts (hkept : s.Kept) (hnumbered : s.Numbered) (haccounts : s.Accounts)
    (windowId : Option ℕ) (kind : String) (value : V) :
    (s.emitPayload W windowId kind value).Accounts := by
  obtain ⟨-, -, hsequence, -⟩ := emitPayload_delivered (W := W) (s := s) windowId kind value
  obtain ⟨hevolves, -, hsubs, -⟩ := mem_emitPayload (W := W) hnumbered windowId kind value
  have hpublished := (hkept.emitPayload (W := W) windowId kind value).2
  intro sub' hmem c' hc' hconnected
  obtain ⟨sub, hmem, hoffered⟩ := hsubs sub' hmem
  rw [hoffered.alike.connection] at hc'
  obtain ⟨c, hc, hsent⟩ := hevolves.back hc'
  rw [hsent.connected] at hconnected
  rw [due_alike hoffered.alike, due_concat hpublished (hnumbered.start sub hmem), hsequence,
    hoffered.alike.key]
  exact hoffered.follows c c' hc hc' _ _ (le_saturatingAdd hkept.limit)
    (haccounts sub hmem c hc hconnected)

/-! ### Subscriptions and connections -/

/-- A subscription is not refused. -/
def Accepts (s : AutomationHub V) (request : SubscriptionRequest) : Prop :=
  s.subscribers.length < maxSubscriptions ∧ (∀ kind ∈ request.kinds, kind ∈ eventKinds) ∧
    ∀ since, request.sinceEvent = some since → since ≤ s.eventSequence

/-- The state once a subscription is accepted over a connection. -/
def subscribedOver (W : Wire V) (s : AutomationHub V) (connection : ℕ) (c : Connection V)
    (request : SubscriptionRequest) : AutomationHub V :=
  let sub := s.newSubscriber connection request
  let resumed := s.resume W sub (s.acknowledged W c) request
  { s with
    nextSubscriptionId := sub.id
    subscribed := s.subscribed + 1
    connections := s.connections.insert connection resumed.1
    subscribers := s.subscribers ++ [resumed.2] }

theorem subscribe_cases (W : Wire V) (s : AutomationHub V) (connection : ℕ)
    (request : SubscriptionRequest) : (s.subscribe W connection request).1 = s ∨
      ∃ c, s.connections.lookup connection = some c ∧ s.Accepts request ∧
        (s.subscribe W connection request).1 = s.subscribedOver W connection c request := by
  unfold subscribe
  split
  · exact Or.inl rfl
  rename_i c hc
  split
  · exact Or.inl rfl
  rename_i hlimit
  split
  · exact Or.inl rfl
  rename_i hkinds
  split
  · exact Or.inl rfl
  rename_i hsince
  refine Or.inr ⟨c, hc, ⟨Nat.lt_of_not_le hlimit, ?_, ?_⟩, rfl⟩
  · intro kind hmem
    have hknown := List.find?_eq_none.mp hkinds kind hmem
    simpa using hknown
  · intro _ heq
    rw [heq] at hsince
    simpa using hsince

variable {connection : ℕ} {c : Connection V} {request : SubscriptionRequest}

theorem newSubscriber_start_le (s : AutomationHub V) (connection : ℕ)
    (request : SubscriptionRequest) :
    (s.newSubscriber connection request).start ≤ s.published.length := by
  unfold newSubscriber
  dsimp only
  split
  · exact le_rfl
  · exact (takeWhile_sublist _).length_le

theorem sentTo_subscribed (W : Wire V) (s : AutomationHub V) (connection : ℕ) (c : Connection V)
    (request : SubscriptionRequest) : (c.sent = (s.acknowledged W c).sent ∧
      ((s.acknowledged W c).isConnected = true → c.isConnected = true)) ∧
    Subscriber.Leaves (s.acknowledged W c) (s.newSubscriber connection request)
      (s.resume W (s.newSubscriber connection request) (s.acknowledged W c) request) := by
  have hkeeps := Connection.keeps_finishRequest (c := c)
    (W.subscribed (saturatingAdd s.nextSubscriptionId 1) s.eventSequence) W.tooLarge
  exact ⟨⟨hkeeps.sent.symm, hkeeps.connected⟩, leaves_resume⟩

theorem subscribedOver_numbered (hnumbered : s.Numbered)
    (hc : s.connections.lookup connection = some c) :
    (s.subscribedOver W connection c request).Numbered := by
  obtain ⟨⟨hsent, -⟩, hleaves⟩ := sentTo_subscribed W s connection c request
  have hmem : ∀ sub ∈ (s.subscribedOver W connection c request).subscribers,
      sub ∈ s.subscribers ∨ (s.newSubscriber connection request).IsAlike sub := by
    intro sub hmem
    rcases List.mem_append.mp hmem with hmem | hmem
    · exact Or.inl hmem
    · rw [mem_singleton] at hmem
      subst hmem
      exact Or.inr hleaves.alike
  refine ⟨?_, ?_, ?_, ?_, ?_⟩
  · unfold subscribedOver
    dsimp only
    rw [map_append, map_singleton, hleaves.alike.key]
    refine List.nodup_append.mpr ⟨hnumbered.keys, nodup_singleton _, ?_⟩
    rintro key hkey _ hnew rfl
    rw [mem_singleton] at hnew
    obtain ⟨sub, hsub, rfl⟩ := List.mem_map.mp hkey
    exact absurd hnew (hnumbered.fresh sub hsub).ne
  · intro sub hsub
    change sub.key < s.subscribed + 1
    rcases hmem sub hsub with hsub | halike
    · exact (hnumbered.fresh sub hsub).trans (Nat.lt_succ_self _)
    · rw [halike.key]
      exact Nat.lt_succ_self _
  · intro id c' hc' key hkey
    change s.subscribed + 1 ≤ key at hkey
    change (s.connections.insert connection _).lookup id = some c' at hc'
    rw [lookup_insert] at hc'
    split at hc'
    · obtain rfl := Option.some.inj hc'
      have hne : key ≠ s.subscribed := by omega
      rw [hleaves.others key hne, ← hsent]
      exact hnumbered.unsent connection c hc key (by omega)
    · exact hnumbered.unsent id c' hc' key (by omega)
  · intro sub hsub
    change sub.start ≤ s.published.length
    rcases hmem sub hsub with hsub | halike
    · exact hnumbered.start sub hsub
    · rw [halike.start]
      exact newSubscriber_start_le s connection request
  · intro sub hsub
    change ∃ c', (s.connections.insert connection _).lookup sub.connection = some c'
    rw [lookup_insert]
    split
    · exact ⟨_, rfl⟩
    · rename_i hne
      rcases hmem sub hsub with hsub | halike
      · exact hnumbered.known sub hsub
      · exact absurd halike.connection hne

theorem subscribedOver_accounts (hkept : s.Kept) (hnumbered : s.Numbered) (haccounts : s.Accounts)
    (hc : s.connections.lookup connection = some c)
    (htell : ∀ since, request.sinceEvent = some since → (s.acknowledged W c).isConnected = true →
        s.Tellable W (s.newSubscriber connection request) (s.acknowledged W c) request since) :
    (s.subscribedOver W connection c request).Accounts := by
  obtain ⟨⟨hsent, hconnected⟩, hleaves⟩ := sentTo_subscribed W s connection c request
  intro sub hsub c' hc' hc'connected
  change sub.Follows (c'.sent sub.key) (s.due sub) s.eventSequence
  change (s.connections.insert connection _).lookup sub.connection = some c' at hc'
  rcases List.mem_append.mp hsub with hsub | hsub
  · have hne : sub.key ≠ s.subscribed := (hnumbered.fresh sub hsub).ne
    rw [lookup_insert] at hc'
    split at hc'
    · rename_i heq
      obtain rfl := Option.some.inj hc'
      rw [hleaves.connected] at hc'connected
      rw [hleaves.others _ hne, ← hsent]
      exact haccounts sub hsub c (heq ▸ hc) (hconnected hc'connected)
    · exact haccounts sub hsub c' hc' hc'connected
  · rw [mem_singleton] at hsub
    subst hsub
    rw [hleaves.alike.connection] at hc'
    obtain rfl := Option.some.inj (lookup_insert_self.symm.trans hc')
    rw [hleaves.connected] at hc'connected
    rw [due_alike hleaves.alike, hleaves.alike.key]
    refine resume_follows hkept ⟨rfl, rfl⟩ ?_ hc'connected rfl fun since hsince =>
      htell since hsince hc'connected
    rw [← hsent]
    exact hnumbered.unsent connection c hc _ le_rfl

/-- A new connection has no subscriber. -/
theorem connect_spec {id : ℕ} (hnone : s.connections.lookup id = none) (hkept : s.Kept)
    (hnumbered : s.Numbered) :
    ({ s with connections := s.connections.insert id {} } : AutomationHub V).Kept ∧
      ({ s with connections := s.connections.insert id {} } : AutomationHub V).Numbered ∧
      (s.Accounts →
        ({ s with connections := s.connections.insert id {} } : AutomationHub V).Accounts) := by
  have hother : ∀ sub ∈ s.subscribers, (s.connections.insert id {}).lookup sub.connection =
      s.connections.lookup sub.connection := by
    intro sub hsub
    refine lookup_insert_of_ne fun heq => ?_
    obtain ⟨c, hc⟩ := hnumbered.known sub hsub
    rw [heq, hnone] at hc
    cases hc
  refine ⟨?_, ⟨hnumbered.keys, hnumbered.fresh, ?_, hnumbered.start, ?_⟩, ?_⟩
  · exact ⟨hkept.bytes, hkept.within, hkept.count, hkept.ends, hkept.sorted, hkept.values,
      hkept.newest, hkept.limit⟩
  · intro id' c hc key hkey
    dsimp only at hc
    rw [lookup_insert] at hc
    split at hc
    · obtain rfl := Option.some.inj hc
      rfl
    · exact hnumbered.unsent id' c hc key hkey
  · intro sub hsub
    dsimp only
    rw [hother sub hsub]
    exact hnumbered.known sub hsub
  · intro haccounts sub hsub c hc hconnected
    dsimp only at hc
    rw [hother sub hsub] at hc
    exact haccounts sub hsub c hc hconnected

end AutomationHub

end Vivido.Automation
