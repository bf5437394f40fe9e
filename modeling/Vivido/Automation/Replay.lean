import Vivido.Automation.Reporting

/-!
The buffer of events that are kept. It stays within its bounds, its bytes are
those of its events, and what is gone came before what is kept. A subscriber is
due what was published from its start on.
-/

namespace Vivido.Automation

open List

variable {V : Type} {W : Wire V}

def bytesOf (events : List (StoredEvent V)) : ℕ := (events.map (·.encodedSize)).sum

theorem bytesOf_cons (event : StoredEvent V) (events : List (StoredEvent V)) :
    bytesOf (event :: events) = event.encodedSize + bytesOf events := sum_cons

theorem bytesOf_concat (events : List (StoredEvent V)) (event : StoredEvent V) :
    bytesOf (events ++ [event]) = bytesOf events + event.encodedSize := by
  unfold bytesOf
  rw [map_append, sum_append, map_singleton, sum_singleton]

/-- The counter has the bytes of the events, or so many that all of them have to go. -/
def Counted (events : List (StoredEvent V)) (bytes : ℕ) : Prop :=
  bytes = bytesOf events ∨
    eventReplayBytes + bytesOf events.dropLast < bytes ∧ bytes ≤ bytesOf events

theorem Counted.pop {oldest : StoredEvent V} {rest : List (StoredEvent V)} {bytes : ℕ}
    (h : Counted (oldest :: rest) bytes) : Counted rest (bytes - oldest.encodedSize) := by
  rcases h with h | ⟨hlow, hhigh⟩
  · rw [bytesOf_cons] at h
    exact Or.inl (by omega)
  rw [bytesOf_cons] at hhigh
  cases rest with
  | nil =>
    refine Or.inl ?_
    change bytes ≤ oldest.encodedSize + 0 at hhigh
    change bytes - oldest.encodedSize = 0
    omega
  | cons =>
    rw [dropLast_cons_cons, bytesOf_cons] at hlow
    exact Or.inr ⟨by omega, by omega⟩

variable {events : List (StoredEvent V)}

theorem counted_concat (event : StoredEvent V) (hwithin : bytesOf events ≤ eventReplayBytes) :
    Counted (events ++ [event]) (saturatingAdd (bytesOf events) event.encodedSize) := by
  unfold Counted saturatingAdd
  rw [dropLast_concat, bytesOf_concat]
  unfold eventReplayBytes at hwithin ⊢
  omega

/-- The loop ends, within the bounds, and it is the older events that go. -/
theorem evict_spec {bytes : ℕ} (h : Counted events bytes) :
    ∃ kept gone, AutomationHub.evict events bytes = some (kept, bytesOf kept, gone) ∧
      events = gone ++ kept ∧ bytesOf kept ≤ eventReplayBytes ∧ kept.length ≤ eventReplayCount := by
  induction events generalizing bytes with
  | nil =>
    have hzero : bytes = 0 := by
      rcases h with h | ⟨-, h⟩
      · exact h
      · exact Nat.le_zero.mp h
    subst hzero
    exact ⟨[], [], rfl, rfl, Nat.zero_le _, Nat.zero_le _⟩
  | cons oldest rest ih =>
    unfold AutomationHub.evict
    by_cases hfull : eventReplayCount < (oldest :: rest).length ∨ eventReplayBytes < bytes
    · obtain ⟨kept, gone, heq, hsplit, hbytes, hcount⟩ := ih h.pop
      refine ⟨kept, oldest :: gone, ?_, ?_, hbytes, hcount⟩
      · rw [if_pos hfull, heq]
        rfl
      · rw [hsplit, cons_append]
    · rw [if_neg hfull]
      obtain ⟨hcount, hbytes⟩ := not_or.mp hfull
      rcases h with h | ⟨_, -⟩
      · subst h
        exact ⟨oldest :: rest, [], rfl, rfl, Nat.le_of_not_lt hbytes, Nat.le_of_not_lt hcount⟩
      · omega

/-! ### What has been published -/

/-- Of events in the order of their numbers, those behind the first few are those above a number. -/
theorem drop_takeWhile (since : ℕ) (h : events.Pairwise (·.sequence ≤ ·.sequence)) :
    events.drop (events.takeWhile fun event => event.sequence ≤ since).length =
      events.filter fun event => since < event.sequence := by
  induction events with
  | nil => rfl
  | cons event _ ih =>
    obtain ⟨hfirst, hsorted⟩ := List.pairwise_cons.mp h
    by_cases hle : event.sequence ≤ since
    · rw [takeWhile_cons_of_pos (by simpa using hle), length_cons, drop_succ_cons,
        filter_cons_of_neg (by simpa using hle)]
      exact ih hsorted
    · rw [takeWhile_cons_of_neg (by simpa using hle), length_nil, drop_zero]
      refine (List.filter_eq_self.mpr fun later hmem => decide_eq_true ?_).symm
      rcases List.mem_cons.mp hmem with rfl | hmem
      · exact Nat.lt_of_not_le hle
      · exact (Nat.lt_of_not_le hle).trans_le (hfirst later hmem)

namespace AutomationHub

variable {s : AutomationHub V}

def due (s : AutomationHub V) (sub : Subscriber) : List (StoredEvent V) :=
  (s.published.drop sub.start).filter sub.wants

theorem due_alike {sub sub' : Subscriber} (h : sub.IsAlike sub') : s.due sub' = s.due sub := by
  unfold due
  rw [h.start, funext h.wants]

theorem due_same {s' : AutomationHub V} (h : s'.published = s.published) (sub : Subscriber) :
    s'.due sub = s.due sub := by
  unfold due
  rw [h]

theorem due_concat {s' : AutomationHub V} {event : StoredEvent V}
    (h : s'.published = s.published ++ [event]) {sub : Subscriber}
    (hstart : sub.start ≤ s.published.length) :
    s'.due sub = s.due sub ++ [event].filter sub.wants := by
  unfold due
  rw [h, drop_append_of_le_length hstart, filter_append]

/-- What the buffer and the numbers of the events are always like. -/
structure Kept (s : AutomationHub V) : Prop where
  bytes : s.replayBytes = bytesOf s.replay
  within : s.replayBytes ≤ eventReplayBytes
  count : s.replay.length ≤ eventReplayCount
  ends : s.hung = false
  sorted : s.published.Pairwise (·.sequence ≤ ·.sequence)
  values : ∀ event ∈ s.published, ∃ value, event.payload = .value value
  newest : ∀ event ∈ s.published, event.sequence ≤ s.eventSequence
  limit : s.eventSequence ≤ 2 ^ 64 - 1

theorem le_saturatingAdd {n : ℕ} (h : n ≤ 2 ^ 64 - 1) : n ≤ saturatingAdd n 1 := by
  unfold saturatingAdd
  omega

/-- What an event is like that is published. -/
def emitted (W : Wire V) (s : AutomationHub V) (windowId : Option ℕ) (kind : String) (value : V) :
    StoredEvent V where
  sequence := saturatingAdd s.eventSequence 1
  windowId
  kind
  payload := .value value
  encodedSize := (W.encodedSize value + kind.utf8ByteSize + 128) % 2 ^ 64

theorem Kept.emitPayload (h : s.Kept) (windowId : Option ℕ) (kind : String) (value : V) :
    (s.emitPayload W windowId kind value).Kept ∧ (s.emitPayload W windowId kind value).published =
        s.published ++ [s.emitted W windowId kind value] := by
  have hwithin := h.within
  rw [h.bytes] at hwithin
  obtain ⟨kept, gone, hevict, hsplit, hbytes, hcount⟩ :=
    evict_spec (counted_concat (s.emitted W windowId kind value) hwithin)
  rw [← h.bytes] at hevict
  have heq : s.emitPayload W windowId kind value = { s with
      eventSequence := saturatingAdd s.eventSequence 1
      connections := (deliver W (s.emitted W windowId kind value) s.connections s.subscribers).1
      subscribers := (deliver W (s.emitted W windowId kind value) s.connections
        s.subscribers).2.filter fun sub => ((deliver W (s.emitted W windowId kind value)
          s.connections s.subscribers).1.lookup sub.connection).any Connection.alive
      replay := kept
      replayBytes := bytesOf kept
      evicted := s.evicted ++ gone } := by
    unfold AutomationHub.emitPayload
    unfold emitted at hevict
    dsimp only
    rw [hevict]
    rfl
  have hpublished : (s.emitPayload W windowId kind value).published =
      s.published ++ [s.emitted W windowId kind value] := by
    rw [heq]
    unfold published
    rw [append_assoc, ← hsplit, append_assoc]
  have hle := le_saturatingAdd h.limit
  have hsequence : (s.emitPayload W windowId kind value).eventSequence =
      saturatingAdd s.eventSequence 1 := by
    rw [heq]
  refine ⟨⟨?_, ?_, ?_, ?_, ?_, ?_, ?_, ?_⟩, hpublished⟩
  · rw [heq]
  · rw [heq]
    exact hbytes
  · rw [heq]
    exact hcount
  · rw [heq]
    exact h.ends
  · rw [hpublished]
    refine List.pairwise_append.mpr ⟨h.sorted, pairwise_singleton _ _, ?_⟩
    intro event hmem _ hlast
    rw [mem_singleton] at hlast
    subst hlast
    exact (h.newest event hmem).trans hle
  · rw [hpublished]
    intro event hmem
    rcases List.mem_append.mp hmem with hmem | hmem
    · exact h.values event hmem
    · rw [mem_singleton] at hmem
      subst hmem
      exact ⟨value, rfl⟩
  · rw [hpublished, hsequence]
    intro event hmem
    rcases List.mem_append.mp hmem with hmem | hmem
    · exact (h.newest event hmem).trans hle
    · rw [mem_singleton] at hmem
      subst hmem
      exact le_rfl
  · rw [hsequence]
    exact Nat.min_le_right _ _

end AutomationHub

end Vivido.Automation
