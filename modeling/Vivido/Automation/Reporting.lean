import Vivido.Automation.Hub
import Vivido.Support.Lossy

/-!
What becomes of the events that a subscriber wants. What it is sent accounts for
all of them, save for a range that it is owed. This file says it of one event
and of several; the run of the hub is elsewhere.
-/

namespace Vivido.Automation

open Entry List

variable {V : Type} {W : Wire V} {c : Connection V}

/-! ### Queueing -/

namespace Connection

theorem sent_of_frames {c' : Connection V} (h : c'.frames = c.frames) (key : ℕ) :
    c'.sent key = c.sent key := by
  unfold sent
  rw [h]

variable (frame : Option (ℕ × Envelope V))

theorem frames_push : { c with output := c.output ++ [frame] }.frames = c.frames ++ [frame] := by
  unfold frames
  rw [← append_assoc]

theorem sent_push (key : ℕ) : { c with output := c.output ++ [frame] }.sent key = c.sent key ++
      (frame.bind fun slot => if slot.1 = key then some slot.2 else none).toList := by
  unfold sent
  rw [frames_push, filterMap_append]
  refine congrArg (List.filterMap _ c.frames ++ ·) ?_
  cases h : frame.bind fun slot => if slot.1 = key then some slot.2 else none with
  | none => exact filterMap_cons_none h
  | some => exact filterMap_cons_some h

theorem queueJson_cases (c : Connection V) (size : Option ℕ) (frame : Option (ℕ × Envelope V)) :
    (∃ error, c.queueJson size frame = (c, some error)) ∨ c.isConnected = true ∧
        c.queueJson size frame = ({ c with output := c.output ++ [frame] }, none) := by
  unfold queueJson
  split
  · exact Or.inl ⟨_, rfl⟩
  rename_i halive
  split
  · exact Or.inl ⟨_, rfl⟩
  split
  · exact Or.inl ⟨_, rfl⟩
  split
  · exact Or.inl ⟨_, rfl⟩
  rename_i hserving
  split
  · exact Or.inl ⟨_, rfl⟩
  · refine Or.inr ⟨?_, rfl⟩
    rw [Bool.not_eq_true', Bool.not_eq_false] at halive hserving
    rw [isConnected, halive, hserving]
    rfl

/-- Nothing of the subscribers' is touched, and no closed connection opens. -/
structure Keeps (c c' : Connection V) : Prop where
  sent : c'.sent = c.sent
  connected : c'.isConnected = true → c.isConnected = true

theorem Keeps.refl (c : Connection V) : Keeps c c := ⟨rfl, id⟩

theorem Keeps.trans {c' c'' : Connection V} (h : Keeps c c') (h' : Keeps c' c'') : Keeps c c'' :=
  ⟨h'.sent.trans h.sent, h.connected ∘ h'.connected⟩

theorem keeps_queueJson (size : Option ℕ) : Keeps c (c.queueJson size none).1 := by
  rcases c.queueJson_cases size none with ⟨_, h⟩ | ⟨-, h⟩
  · rw [h]
    exact .refl c
  · rw [h]
    refine ⟨?_, id⟩
    funext key
    rw [sent_push]
    exact append_nil _

theorem keeps_close : Keeps c c.close := ⟨rfl, nofun⟩

theorem keeps_finishRequest (size tooLarge : Option ℕ) :
    Keeps c (c.finishRequest size tooLarge) := by
  have hfirst := keeps_queueJson (c := c) size
  unfold finishRequest
  split
  · exact .refl c
  split
  · rename_i heq
    rwa [heq] at hfirst
  · rename_i heq
    rwa [heq] at hfirst
  · rename_i c' heq
    rw [heq] at hfirst
    have hsecond := keeps_queueJson (c := c') tooLarge
    split
    · rename_i heq'
      rw [heq'] at hsecond
      exact hfirst.trans hsecond
    · rename_i heq'
      rw [heq'] at hsecond
      exact (hfirst.trans hsecond).trans keeps_close
  · rename_i heq
    rw [heq] at hfirst
    exact hfirst.trans keeps_close

end Connection

/-- What a client reads: an event, or a range of events that it lost. -/
def Envelope.reads (envelope : Envelope V) : Envelope V ⊕ (ℕ × ℕ) :=
  match envelope.event with
  | .stored _ (.value _) => Sum.inl envelope
  | .stored _ (.gap requested _ current) => Sum.inr (requested + 1, current)
  | .dropped first last => Sum.inr (first, last)

namespace Subscriber

variable {sub : Subscriber} {received : List (Envelope V)} {due : List (StoredEvent V)}
  {bound : ℕ}

/-- What has been queued accounts for what is due, but for what the subscriber is owed. -/
def Follows (sub : Subscriber) (received : List (Envelope V)) (due : List (StoredEvent V))
    (bound : ℕ) : Prop :=
  ∃ log : List (Entry (StoredEvent V)), log.filterMap offered? = due ∧
    log.filterMap (seen? sub.envelope) = received.map Envelope.reads ∧
      Owes StoredEvent.sequence log sub.overflow ∧
        ∀ first last, sub.overflow = some (first, last) → first ≤ last ∧ last ≤ bound

/-- The same client, whatever has come of its events. -/
structure IsAlike (sub sub' : Subscriber) : Prop where
  id : sub'.id = sub.id
  key : sub'.key = sub.key
  connection : sub'.connection = sub.connection
  windowId : sub'.windowId = sub.windowId
  allWindows : sub'.allWindows = sub.allWindows
  kinds : sub'.kinds = sub.kinds
  start : sub'.start = sub.start

theorem IsAlike.refl (sub : Subscriber) : IsAlike sub sub := ⟨rfl, rfl, rfl, rfl, rfl, rfl, rfl⟩

theorem IsAlike.trans {sub sub' sub'' : Subscriber} (h : IsAlike sub sub')
    (h' : IsAlike sub' sub'') : IsAlike sub sub'' :=
  ⟨h'.id.trans h.id, h'.key.trans h.key, h'.connection.trans h.connection,
    h'.windowId.trans h.windowId, h'.allWindows.trans h.allWindows, h'.kinds.trans h.kinds,
    h'.start.trans h.start⟩

theorem IsAlike.wants {sub sub' : Subscriber} (h : IsAlike sub sub') (event : StoredEvent V) :
    sub'.wants event = sub.wants event := by
  unfold Subscriber.wants
  rw [h.windowId, h.allWindows, h.kinds]

theorem IsAlike.envelope {sub sub' : Subscriber} (h : IsAlike sub sub') (event : StoredEvent V) :
    sub'.envelope event = sub.envelope event := by
  unfold Subscriber.envelope
  rw [h.id]

theorem follows_nil (h : sub.overflow = none) : sub.Follows ([] : List (Envelope V)) [] bound := by
  refine ⟨[], rfl, rfl, ?_, fun _ _ hrange => ?_⟩
  · rw [h]
    exact owes_nil
  · rw [h] at hrange
    cases hrange

section

variable (h : sub.Follows received due bound)
include h

theorem Follows.mono {bound' : ℕ} (hle : bound ≤ bound') : sub.Follows received due bound' := by
  obtain ⟨log, hoffered, hseen, howes, hrange⟩ := h
  exact ⟨log, hoffered, hseen, howes, fun first last heq =>
    ⟨(hrange first last heq).1, (hrange first last heq).2.trans hle⟩⟩

theorem Follows.slots (queuedEvents : ℕ) :
    { sub with queuedEvents }.Follows received due bound := h

theorem Follows.deliver (hnone : sub.overflow = none)
    {event : StoredEvent V} {value : V} (hvalue : event.payload = .value value) :
    sub.Follows (received ++ [sub.envelope event]) (due ++ [event]) bound := by
  obtain ⟨log, hoffered, hseen, howes, hrange⟩ := h
  rw [hnone] at howes
  refine ⟨log ++ [delivered event], ?_, ?_, ?_, hrange⟩
  · rw [filterMap_append, hoffered]
    rfl
  · have hreads : (sub.envelope event).reads = Sum.inl (sub.envelope event) := by
      unfold Envelope.reads Subscriber.envelope
      rw [hvalue]
    rw [filterMap_append, map_append, map_singleton, hreads, hseen]
    rfl
  · rw [hnone]
    exact howes.deliver event

theorem Follows.tell {first last : ℕ} (hsome : sub.overflow = some (first, last)) :
    { sub with overflow := none }.Follows (received ++ [sub.overflowEnvelope first last]) due
      bound := by
  obtain ⟨log, hoffered, hseen, howes, -⟩ := h
  rw [hsome] at howes
  refine ⟨log ++ [Entry.told first last], ?_, ?_, howes.tell, nofun⟩
  · rw [filterMap_append, hoffered]
    exact append_nil _
  · rw [filterMap_append, map_append]
    exact congrArg (· ++ _) hseen

theorem Follows.lose {event : StoredEvent V}
    (hbound : bound ≤ event.sequence) : { sub with overflow := match sub.overflow with
      | some (start, _) => some (start, event.sequence)
      | none => some (event.sequence, event.sequence) }.Follows received (due ++ [event])
        event.sequence := by
  obtain ⟨log, hoffered, hseen, howes, hrange⟩ := h
  have hoffered' : (log ++ [lost event]).filterMap offered? = due ++ [event] := by
    rw [filterMap_append, hoffered]
    rfl
  have hseen' : (log ++ [lost event]).filterMap (seen? sub.envelope) =
      received.map Envelope.reads := by
    rw [filterMap_append, hseen]
    exact append_nil _
  cases hoverflow : sub.overflow with
  | none =>
    rw [hoverflow] at howes
    refine ⟨log ++ [lost event], hoffered', hseen', ?_, ?_⟩
    · exact howes.lose nofun ⟨le_rfl, le_rfl⟩
    · rintro first last ⟨⟩
      exact ⟨le_rfl, le_rfl⟩
  | some range =>
    obtain ⟨first, last⟩ := range
    obtain ⟨hle, hlast⟩ := hrange first last hoverflow
    rw [hoverflow] at howes
    refine ⟨log ++ [lost event], hoffered', hseen', ?_, ?_⟩
    · refine howes.lose (fun f l heq => ?_) ⟨hle.trans (hlast.trans hbound), le_rfl⟩
      cases heq
      exact ⟨le_rfl, hlast.trans hbound⟩
    · rintro f l ⟨⟩
      exact ⟨hle.trans (hlast.trans hbound), le_rfl⟩

end

/-! ### Sending -/

/-- What a sending leaves as it was. -/
structure Leaves (c : Connection V) (sub : Subscriber) (result : Connection V × Subscriber) :
    Prop where
  alive : result.1.alive = c.alive
  connected : result.1.isConnected = c.isConnected
  others : ∀ key ≠ sub.key, result.1.sent key = c.sent key
  alike : IsAlike sub result.2

theorem Leaves.trans {c' c'' : Connection V} {sub' sub'' : Subscriber}
    (h : Leaves c sub (c', sub')) (h' : Leaves c' sub' (c'', sub'')) :
    Leaves c sub (c'', sub'') where
  alive := h'.alive.trans h.alive
  connected := h'.connected.trans h.connected
  others key hne := (h'.others key (by rwa [h.alike.key])).trans (h.others key hne)
  alike := h.alike.trans h'.alike

theorem leaves_self (sub' : Subscriber) (h : IsAlike sub sub') : Leaves c sub (c, sub') :=
  ⟨rfl, rfl, fun _ _ => rfl, h⟩

/-- An envelope is queued, or nothing changes. -/
theorem event_cases (W : Wire V) (sub : Subscriber) (c : Connection V) (envelope : Envelope V) :
    sub.event W c envelope = (c, sub, false) ∨ ∃ c', sub.event W c envelope =
          (c', { sub with queuedEvents := sub.queuedEvents + 1 }, true) ∧
        c'.sent sub.key = c.sent sub.key ++ [envelope] ∧
          Leaves c sub (c', { sub with queuedEvents := sub.queuedEvents + 1 }) := by
  unfold Subscriber.event
  split
  · exact Or.inl rfl
  rcases c.queueJson_cases (W.frame envelope) (some (sub.key, envelope)) with
    ⟨_, heq⟩ | ⟨-, heq⟩
  · rw [heq]
    exact Or.inl rfl
  · rw [heq]
    refine Or.inr ⟨_, rfl, ?_, rfl, rfl, fun key hne => ?_, ⟨rfl, rfl, rfl, rfl, rfl, rfl, rfl⟩⟩
    · rw [Connection.sent_push, Option.bind_some, if_pos rfl]
      rfl
    · rw [Connection.sent_push, Option.bind_some, if_neg hne.symm]
      exact append_nil _

theorem leaves_sendEvent (W : Wire V) (c : Connection V) (sub : Subscriber)
    (event : StoredEvent V) : Leaves c sub (sub.sendEvent W c event) := by
  unfold sendEvent
  rcases event_cases W sub c (sub.envelope event) with heq | ⟨_, heq, -, hleaves⟩
  · rw [heq]
    exact leaves_self _ ⟨rfl, rfl, rfl, rfl, rfl, rfl, rfl⟩
  · rw [heq]
    exact hleaves

theorem leaves_send (W : Wire V) (c : Connection V) (sub : Subscriber) (event : StoredEvent V) :
    Leaves c sub (sub.send W c event) := by
  unfold send
  split
  · exact leaves_sendEvent W c sub event
  rename_i start last hsome
  rcases event_cases W sub c (sub.overflowEnvelope start last) with heq | ⟨c', heq, -, hleaves⟩
  · rw [heq]
    exact leaves_self _ ⟨rfl, rfl, rfl, rfl, rfl, rfl, rfl⟩
  · rw [heq]
    have hfree : Leaves c sub (c', { sub with
        overflow := none
        queuedEvents := sub.queuedEvents + 1 }) :=
      ⟨hleaves.alive, hleaves.connected, hleaves.others, ⟨rfl, rfl, rfl, rfl, rfl, rfl, rfl⟩⟩
    exact hfree.trans (leaves_sendEvent W c' _ event)

theorem leaves_sendAll (events : List (StoredEvent V)) : Leaves c sub (sub.sendAll W c events) := by
  induction events generalizing c sub with
  | nil => exact leaves_self sub (.refl sub)
  | cons event _ ih =>
    unfold sendAll
    split
    · exact (leaves_send W c sub event).trans ih
    · exact ih

section

variable (h : sub.Follows (c.sent sub.key) due bound)
include h

theorem sendEvent_follows (hnone : sub.overflow = none) {event : StoredEvent V} {value : V}
    (hvalue : event.payload = .value value) (hbound : bound ≤ event.sequence) :
    (sub.sendEvent W c event).2.Follows ((sub.sendEvent W c event).1.sent sub.key) (due ++ [event])
      event.sequence := by
  unfold sendEvent
  rcases event_cases W sub c (sub.envelope event) with heq | ⟨_, heq, hsent, -⟩
  · rw [heq]
    exact h.lose hbound
  · rw [heq]
    dsimp only
    rw [hsent]
    exact (h.deliver hnone hvalue).mono hbound

theorem send_follows {event : StoredEvent V}
    {value : V} (hvalue : event.payload = .value value) (hbound : bound ≤ event.sequence) :
    (sub.send W c event).2.Follows ((sub.send W c event).1.sent sub.key) (due ++ [event])
      event.sequence := by
  unfold send
  split
  · rename_i hnone
    exact sendEvent_follows h hnone hvalue hbound
  rename_i start last hsome
  have hlost := h.lose hbound
  rw [hsome] at hlost
  rcases event_cases W sub c (sub.overflowEnvelope start last) with heq | ⟨_, heq, hsent, -⟩
  · rw [heq]
    exact hlost
  · rw [heq]
    have htold := h.tell hsome
    rw [← hsent] at htold
    exact sendEvent_follows (htold.slots (sub.queuedEvents + 1)) rfl hvalue hbound

theorem sendAll_follows {events : List (StoredEvent V)} {limit : ℕ}
    (hsorted : events.Pairwise (·.sequence ≤ ·.sequence))
    (hvalues : ∀ event ∈ events, ∃ value, event.payload = .value value)
    (hbound : ∀ event ∈ events, bound ≤ event.sequence ∧ event.sequence ≤ limit)
    (hlimit : bound ≤ limit) :
    (sub.sendAll W c events).2.Follows ((sub.sendAll W c events).1.sent sub.key)
      (due ++ events.filter sub.wants) limit := by
  induction events generalizing sub due bound c with
  | nil =>
    rw [filter_nil, append_nil]
    exact h.mono hlimit
  | cons event events ih =>
    obtain ⟨hfirst, hsorted⟩ := List.pairwise_cons.mp hsorted
    have hvalues' := fun event h => hvalues event (mem_cons_of_mem _ h)
    unfold sendAll
    by_cases hwants : sub.wants event = true
    · obtain ⟨_, hvalue⟩ := hvalues event mem_cons_self
      obtain ⟨hle, hle'⟩ := hbound event mem_cons_self
      have hleaves := leaves_send W c sub event
      have hfollows := send_follows (W := W) h hvalue hle
      rw [← hleaves.alike.key] at hfollows
      have hrest := ih hfollows hsorted hvalues'
        (fun event h => ⟨hfirst event h, (hbound event (mem_cons_of_mem _ h)).2⟩) hle'
      rw [hleaves.alike.key, append_assoc, singleton_append,
        funext hleaves.alike.wants] at hrest
      rw [if_pos hwants, filter_cons_of_pos hwants]
      exact hrest
    · rw [if_neg hwants, filter_cons_of_neg hwants]
      exact ih h hsorted hvalues'
        (fun event h => hbound event (mem_cons_of_mem _ h)) hlimit

end

end Subscriber

end Vivido.Automation
