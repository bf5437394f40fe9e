import Mathlib.Data.List.Sort
import Vivido.Trace.Journal

/-!
What a query of the journal tells. The kept events are the last ones that were recorded,
in the order of their numbers, so that a gap before them is exactly what is missing; an
event too large for the journal leaves a gap that no query reports, unless nothing
before it is kept.
-/

namespace Vivido.Trace

open List

open Automation (saturatingAdd)

variable {V : Type} {size : TraceEvent V → ℕ} {origin : Origin}

/-- In the order of the sequence numbers. -/
def TraceEvent.Earlier (a b : TraceEvent V) : Prop := a.sequence < b.sequence

instance earlierAntisymm : Std.Antisymm (TraceEvent.Earlier (V := V)) :=
  ⟨fun _ _ h h' => absurd (Nat.lt_trans h h') (Nat.lt_irrefl _)⟩

instance earlierIrrefl : Std.Irrefl (TraceEvent.Earlier (V := V)) :=
  ⟨fun _ => Nat.lt_irrefl _⟩

/-! ### What an answer lists -/

/-- The first events of a kind, up to a number of them. -/
structure FirstOf (kind : TraceEvent V → Prop) (count : ℕ) (answer : List (TraceEvent V)) :
    Prop where
  ordered : answer.Pairwise TraceEvent.Earlier
  listed : ∀ event ∈ answer, kind event
  length : answer.length ≤ count
  others : ∀ event, kind event → event ∉ answer →
    answer.length = count ∧ ∀ other ∈ answer, other.Earlier event

/-- The last events of a kind, up to a number of them. -/
structure LastOf (kind : TraceEvent V → Prop) (count : ℕ) (answer : List (TraceEvent V)) :
    Prop where
  ordered : answer.Pairwise TraceEvent.Earlier
  listed : ∀ event ∈ answer, kind event
  length : answer.length ≤ count
  others : ∀ event, kind event → event ∉ answer →
    answer.length = count ∧ ∀ other ∈ answer, event.Earlier other

/-- What a selection is to list of the kept events that pass the filter. No caller asks for more
than `MAX_QUERY_EVENTS`. -/
def Lists (kept : List (TraceEvent V)) (filter : TraceFilter) (limit : ℕ) :
    TraceSelection → List (TraceEvent V) → Prop
  | .fromOldest => FirstOf (fun event => event ∈ kept ∧ filter.accepts event = true)
      (min limit maxQueryEvents)
  | .after sequence =>
    FirstOf (fun event => (event ∈ kept ∧ filter.accepts event = true) ∧ sequence < event.sequence)
      (min limit maxQueryEvents)
  | .tail => LastOf (fun event => event ∈ kept ∧ filter.accepts event = true)
      (min limit maxQueryEvents)
  | .before sequence =>
    LastOf (fun event => (event ∈ kept ∧ filter.accepts event = true) ∧ event.sequence < sequence)
      (min limit maxQueryEvents)
  | .around sequence preceding following => fun answer =>
    ∃ before after, answer = before ++ after ∧
      LastOf (fun event => (event ∈ kept ∧ filter.accepts event = true) ∧ event.sequence < sequence)
        (min preceding maxQueryEvents) before ∧
      FirstOf
        (fun event => (event ∈ kept ∧ filter.accepts event = true) ∧ sequence ≤ event.sequence)
        (min following maxQueryEvents) after

variable {events : List (TraceEvent V)} {kind : TraceEvent V → Prop}

section

variable (h : events.Pairwise TraceEvent.Earlier) (count : ℕ)
  (hkind : ∀ event, event ∈ events ↔ kind event)
include h count hkind

theorem firstOf_take : FirstOf kind count (events.take count) := by
  refine ⟨h.sublist (take_sublist _ _), ?_, length_take_le _ _, ?_⟩
  · intro event hevent
    exact (hkind event).mp (mem_of_mem_take hevent)
  intro event hevent hleft
  rw [← hkind, ← take_append_drop count events, mem_append] at hevent
  have hdropped := hevent.resolve_left hleft
  have hlong : count < events.length := by
    have hpositive := length_pos_of_mem hdropped
    rw [length_drop] at hpositive
    omega
  rw [← take_append_drop count events, pairwise_append] at h
  refine ⟨?_, fun listed hlisted => h.2.2 listed hlisted event hdropped⟩
  rw [length_take]
  omega

theorem lastOf_take : LastOf kind count (events.reverse.take count).reverse := by
  have hdrop : (events.reverse.take count).reverse = events.drop (events.length - count) := by
    rw [take_reverse, reverse_reverse]
  rw [hdrop]
  have hlength : (events.drop (events.length - count)).length = min count events.length := by
    rw [length_drop]
    omega
  refine ⟨h.sublist (drop_sublist _ _), ?_, ?_, ?_⟩
  · intro event hevent
    exact (hkind event).mp (mem_of_mem_drop hevent)
  · rw [hlength]
    exact Nat.min_le_left _ _
  intro event hevent hleft
  rw [← hkind, ← take_append_drop (events.length - count) events, mem_append] at hevent
  have htaken := hevent.resolve_right hleft
  have hlong : count < events.length := by
    have hpositive := length_pos_of_mem htaken
    rw [length_take] at hpositive
    omega
  rw [← take_append_drop (events.length - count) events, pairwise_append] at h
  refine ⟨?_, fun listed hlisted => h.2.2 event htaken listed hlisted⟩
  rw [hlength]
  omega

end

namespace TraceJournal

def kept (j : TraceJournal V) : List (TraceEvent V) := j.events.map (·.event)

theorem lists_selected (j : TraceJournal V) (h : j.kept.Pairwise TraceEvent.Earlier)
    (selection : TraceSelection) (limit : ℕ) (filter : TraceFilter) :
    Lists j.kept filter limit selection (j.selected selection limit filter) := by
  have hordered : ∀ (keep : TraceEvent V → Bool),
      ((j.kept.filter filter.accepts).filter keep).Pairwise TraceEvent.Earlier :=
    fun keep => (h.sublist filter_sublist).sublist filter_sublist
  have hmem : ∀ (keep : TraceEvent V → Bool) (event : TraceEvent V),
      event ∈ (j.kept.filter filter.accepts).filter keep ↔
        (event ∈ j.kept ∧ filter.accepts event = true) ∧ keep event = true := by
    intro keep event
    rw [mem_filter, mem_filter]
  have hlast : ∀ (keep : TraceEvent V → Bool) (count : ℕ) (kind : TraceEvent V → Prop),
      (∀ event, (event ∈ j.kept ∧ filter.accepts event = true) ∧ keep event = true ↔ kind event) →
      LastOf kind count
        (((j.kept.filter filter.accepts).reverse.filter keep).take count).reverse := by
    intro keep count kind hkind
    rw [filter_reverse]
    exact lastOf_take (hordered keep) count fun event => (hmem keep event).trans (hkind event)
  have hfirst : ∀ (keep : TraceEvent V → Bool) (count : ℕ) (kind : TraceEvent V → Prop),
      (∀ event, (event ∈ j.kept ∧ filter.accepts event = true) ∧ keep event = true ↔ kind event) →
      FirstOf kind count (((j.kept.filter filter.accepts).filter keep).take count) := by
    intro keep count _ hkind
    exact firstOf_take (hordered keep) count fun event => (hmem keep event).trans (hkind event)
  cases selection with
  | fromOldest =>
    exact firstOf_take (h.sublist filter_sublist) _ fun event => mem_filter
  | after sequence => exact hfirst (sequence < ·.sequence) _ _ (by simp)
  | tail => exact lastOf_take (h.sublist filter_sublist) _ fun event => mem_filter
  | before sequence => exact hlast (·.sequence < sequence) _ _ (by simp)
  | around sequence =>
    exact ⟨_, _, rfl, hlast (·.sequence < sequence) _ _ (by simp),
      hfirst (sequence ≤ ·.sequence) _ _ (by simp)⟩

/-! ### Runs -/

variable (size : TraceEvent V → ℕ) (origin : Origin)

/-- The journal and, beside it, all events that were recorded. -/
def record (s : TraceJournal V × List (TraceEvent V)) (push : Push V) :
    TraceJournal V × List (TraceEvent V) :=
  (s.1.push size push, s.2 ++ [s.1.made push])

def recording (history : List (Push V)) : TraceJournal V × List (TraceEvent V) :=
  history.foldl (record size) ({ origin }, [])

/-- The journal after some pushes. -/
def run (history : List (Push V)) : TraceJournal V := history.foldl (push size) { origin }

/-- The events that some pushes record. -/
def recorded (history : List (Push V)) : List (TraceEvent V) := (recording size origin history).2

/-- What is kept is counted and bounded, every event has a number of its own, queries list what they
are to, and one for the events after a number reports a gap if and only if one of them is lost. -/
structure Honest (history : List (Push V)) : Prop where
  counted : (run size origin history).encodedBytes =
    ((run size origin history).kept.map size).sum
  few : (run size origin history).kept.length ≤ maxEvents
  small : (run size origin history).encodedBytes ≤ maxBytes
  known : ∀ event ∈ (run size origin history).kept, event ∈ recorded size origin history
  numbered : (recorded size origin history).Pairwise TraceEvent.Earlier
  lists : ∀ selection limit filter, Lists (run size origin history).kept filter limit selection
    ((run size origin history).query selection limit filter).events
  gap : ∀ sequence limit filter,
    ((run size origin history).query (.after sequence) limit filter).gap.isSome = true ↔
      ∃ event ∈ recorded size origin history,
        sequence < event.sequence ∧ event ∉ (run size origin history).kept

/-- The event gets a number that no other has, and it fits the journal, or nothing is kept that the
gap it leaves would have to follow. -/
def Keeps (j : TraceJournal V) (push : Push V) : Prop :=
  j.nextSequence < 2 ^ 64 - 1 ∧
    (size (j.made push) ≤ maxBytes ∨ j.events = [] ∧ j.nextSequence + 1 < 2 ^ 64 - 1)

/-- What holds of the journal while every event is kept that has to be. -/
structure Sound (history : List (Push V)) : Prop where
  maximumEvents : (run size origin history).maximumEvents = maxEvents
  maximumBytes : (run size origin history).maximumBytes = maxBytes
  next : (run size origin history).nextSequence = history.length
  numbers : (recorded size origin history).map (·.sequence) = List.range' 1 history.length
  short : history.length ≤ 2 ^ 64 - 1
  shorter : (run size origin history).events = [] → history.length < 2 ^ 64 - 1
  suffix : (run size origin history).kept <:+ recorded size origin history
  sizes : ∀ stored ∈ (run size origin history).events, stored.encodedBytes = size stored.event
  counted : (run size origin history).encodedBytes =
    ((run size origin history).events.map (·.encodedBytes)).sum
  few : (run size origin history).events.length ≤ maxEvents
  small : (run size origin history).encodedBytes ≤ maxBytes

theorem fst_recording (history : List (Push V)) :
    (recording size origin history).1 = run size origin history := by
  induction history using List.reverseRecOn with
  | nil => rfl
  | append_singleton history push ih =>
    rw [recording, foldl_concat, run, foldl_concat]
    change (recording size origin history).1.push size push =
      (run size origin history).push size push
    rw [ih]

theorem run_concat (history : List (Push V)) (p : Push V) :
    run size origin (history ++ [p]) = (run size origin history).push size p := by
  rw [run, foldl_concat]
  rfl

theorem recorded_concat (history : List (Push V)) (p : Push V) :
    recorded size origin (history ++ [p]) =
      recorded size origin history ++ [(run size origin history).made p] := by
  rw [recorded, recording, foldl_concat]
  change (recording size origin history).2 ++ [(recording size origin history).1.made p] = _
  rw [fst_recording]
  rfl

/-! ### Making room -/

variable {size origin}

/-- What is left is the end of the events, counted, and within the bounds. -/
theorem makeRoom_exact (maximumEvents maximumBytes : ℕ) (events : List (StoredEvent V)) :
    (makeRoom maximumEvents maximumBytes events (events.map (·.encodedBytes)).sum).1 <:+ events ∧
    (makeRoom maximumEvents maximumBytes events (events.map (·.encodedBytes)).sum).2 =
      ((makeRoom maximumEvents maximumBytes events (events.map (·.encodedBytes)).sum).1.map
        (·.encodedBytes)).sum ∧
    (makeRoom maximumEvents maximumBytes events (events.map (·.encodedBytes)).sum).1.length ≤
      maximumEvents ∧
    (makeRoom maximumEvents maximumBytes events (events.map (·.encodedBytes)).sum).2 ≤
      maximumBytes := by
  induction events with
  | nil => exact ⟨suffix_refl [], rfl, Nat.zero_le _, Nat.zero_le _⟩
  | cons removed events ih =>
    rw [makeRoom]
    split
    · have hrest : ((removed :: events).map (·.encodedBytes)).sum - removed.encodedBytes =
          (events.map (·.encodedBytes)).sum := by
        rw [map_cons, sum_cons, Nat.add_sub_cancel_left]
      rw [hrest]
      exact ⟨ih.1.trans (suffix_cons _ _), ih.2⟩
    · next hroom =>
      refine ⟨suffix_refl _, rfl, ?_, ?_⟩
      · rw [length_cons]
        omega
      · change ((removed :: events).map (·.encodedBytes)).sum ≤ maximumBytes
        omega

theorem makeRoom_ne_nil {maximumEvents maximumBytes : ℕ} (events : List (StoredEvent V))
    (stored : StoredEvent V) (hcount : 1 ≤ maximumEvents)
    (hfits : stored.encodedBytes ≤ maximumBytes) :
    (makeRoom maximumEvents maximumBytes (events ++ [stored])
      ((events ++ [stored]).map (·.encodedBytes)).sum).1 ≠ [] := by
  induction events with
  | nil =>
    have hroom : ¬ (maximumEvents < 0 + 1 ∨ maximumBytes < stored.encodedBytes + 0) := by
      omega
    simp only [nil_append, map_cons, map_nil, sum_cons, sum_nil, makeRoom]
    rw [length_nil, if_neg hroom]
    exact cons_ne_nil _ _
  | cons _ _ ih =>
    rw [cons_append, makeRoom]
    split
    · rw [map_cons, sum_cons, Nat.add_sub_cancel_left]
      exact ih
    · exact cons_ne_nil _ _

/-! ### What a push keeps -/

variable {history : List (Push V)} {p : Push V}

theorem sound_nil : Sound size origin [] :=
  ⟨rfl, rfl, rfl, rfl, Nat.zero_le _, fun _ => Nat.zero_lt_of_ne_zero (by omega),
    suffix_refl [], nofun, rfl, Nat.zero_le _, Nat.zero_le _⟩

section

variable (h : Sound size origin history)
include h

theorem Sound.made_sequence (p : Push V)
    (hnumber : (run size origin history).nextSequence < 2 ^ 64 - 1) :
    ((run size origin history).made p).sequence = history.length + 1 := by
  rw [h.next] at hnumber
  change saturatingAdd (run size origin history).nextSequence 1 = _
  rw [saturatingAdd, h.next]
  omega

theorem Sound.numbers_concat (hnumber : (run size origin history).nextSequence < 2 ^ 64 - 1) :
    (recorded size origin (history ++ [p])).map (·.sequence) =
      List.range' 1 (history ++ [p]).length := by
  rw [recorded_concat, map_append, h.numbers, length_append, length_singleton,
    range'_concat]
  simp only [map_cons, map_nil, h.made_sequence p hnumber]
  rw [Nat.one_mul, Nat.add_comm]

theorem Sound.push_kept (hnumber : (run size origin history).nextSequence < 2 ^ 64 - 1)
    (hfits : size ((run size origin history).made p) ≤ maxBytes) :
    Sound size origin (history ++ [p]) := by
  obtain ⟨event, hevent⟩ : ∃ event, event = (run size origin history).made p := ⟨_, rfl⟩
  rw [← hevent] at hfits
  have hsequence : event.sequence = history.length + 1 := by
    rw [hevent, h.made_sequence p hnumber]
  obtain ⟨stored, hstored⟩ : ∃ stored : StoredEvent V, stored = ⟨size event, event⟩ := ⟨_, rfl⟩
  have hbytes : stored.encodedBytes = size event := by rw [hstored]
  have hsum : saturatingAdd (run size origin history).encodedBytes (size event) =
      (((run size origin history).events ++ [stored]).map (·.encodedBytes)).sum := by
    have hsmall := h.small
    have hcapacity : maxBytes = 2097152 := rfl
    rw [map_append, sum_append_nat, ← h.counted, saturatingAdd]
    simp only [map_cons, map_nil, sum_cons, sum_nil, hbytes]
    omega
  have hpush : (run size origin history).push size p =
      { run size origin history with
        nextSequence := event.sequence
        events := (makeRoom maxEvents maxBytes ((run size origin history).events ++ [stored])
          (((run size origin history).events ++ [stored]).map (·.encodedBytes)).sum).1
        encodedBytes := (makeRoom maxEvents maxBytes ((run size origin history).events ++ [stored])
          (((run size origin history).events ++ [stored]).map (·.encodedBytes)).sum).2 } := by
    rw [push]
    dsimp only
    rw [← hevent, if_neg (by rw [h.maximumBytes]; omega), ← hstored, hsum, h.maximumEvents,
      h.maximumBytes]
  obtain ⟨hsuffix, hcounted, hfew, hsmall⟩ := makeRoom_exact maxEvents maxBytes
    ((run size origin history).events ++ [stored])
  have hne := makeRoom_ne_nil (run size origin history).events stored
    (show 1 ≤ maxEvents by decide) (hbytes ▸ hfits)
  have hlength : (history ++ [p]).length = history.length + 1 := by simp
  have hshort := h.next ▸ hnumber
  refine ⟨?_, ?_, ?_, h.numbers_concat hnumber, ?_, ?_, ?_, ?_, ?_, ?_, ?_⟩
  · rw [run_concat, hpush]
    exact h.maximumEvents
  · rw [run_concat, hpush]
    exact h.maximumBytes
  · rw [run_concat, hpush, hlength, ← hsequence]
  · omega
  · rw [run_concat, hpush]
    exact fun hempty => absurd hempty hne
  · rw [run_concat, hpush, recorded_concat, ← hevent, kept]
    refine (hsuffix.map (·.event)).trans ?_
    obtain ⟨before, hbefore⟩ := h.suffix
    refine ⟨before, ?_⟩
    rw [← hbefore, kept, append_assoc, map_append, hstored]
    rfl
  · rw [run_concat, hpush]
    intro other hother
    rcases List.mem_append.mp (hsuffix.subset hother) with hmem | hmem
    · exact h.sizes other hmem
    · rw [List.mem_singleton.mp hmem, hstored]
  · rw [run_concat, hpush]
    exact hcounted
  · rw [run_concat, hpush]
    exact hfew
  · rw [run_concat, hpush]
    exact hsmall

theorem Sound.push_dropped (hnumber : (run size origin history).nextSequence + 1 < 2 ^ 64 - 1)
    (hlarge : maxBytes < size ((run size origin history).made p))
    (hempty : (run size origin history).events = []) : Sound size origin (history ++ [p]) := by
  have hpush : (run size origin history).push size p =
      { run size origin history with
        nextSequence := ((run size origin history).made p).sequence } := by
    rw [push]
    dsimp only
    rw [if_pos (by rw [h.maximumBytes]; exact hlarge)]
  have hlength : (history ++ [p]).length = history.length + 1 := by simp
  have hshort := h.next ▸ hnumber
  refine ⟨?_, ?_, ?_, h.numbers_concat (by omega), by omega, fun _ => by omega, ?_, ?_, ?_, ?_, ?_⟩
  · rw [run_concat, hpush]
    exact h.maximumEvents
  · rw [run_concat, hpush]
    exact h.maximumBytes
  · rw [run_concat, hpush, hlength]
    exact h.made_sequence p (by omega)
  · rw [run_concat, hpush, kept]
    change (run size origin history).events.map (·.event) <:+ _
    rw [hempty]
    exact nil_suffix
  all_goals rw [run_concat, hpush]
  · exact h.sizes
  · exact h.counted
  · exact h.few
  · exact h.small

theorem Sound.pushed
    (hkeeps : (run size origin history).Keeps size p) : Sound size origin (history ++ [p]) := by
  by_cases hfits : size ((run size origin history).made p) ≤ maxBytes
  · exact h.push_kept hkeeps.1 hfits
  · obtain ⟨hempty, hnumber⟩ := hkeeps.2.resolve_left hfits
    exact h.push_dropped hnumber (Nat.lt_of_not_le hfits) hempty

/-! ### What queries tell -/

theorem Sound.numbered : (recorded size origin history).Pairwise TraceEvent.Earlier := by
  have hnumbers : ((recorded size origin history).map (·.sequence)).Pairwise (· < ·) := by
    rw [h.numbers]
    exact pairwise_lt_range'
  rw [pairwise_map] at hnumbers
  exact hnumbers

theorem Sound.length_recorded : (recorded size origin history).length = history.length := by
  have hlength := congrArg List.length h.numbers
  rwa [length_map, length_range'] at hlength

/-- The oldest number that is kept, or the one to come. -/
theorem Sound.oldestSequence :
    (run size origin history).oldestSequence + (run size origin history).kept.length =
      history.length + 1 := by
  have hkept : (run size origin history).kept.length = (run size origin history).events.length :=
    length_map _
  cases hevents : (run size origin history).events with
  | nil =>
    have hshorter := h.shorter hevents
    rw [TraceJournal.oldestSequence, hkept, hevents, h.next, saturatingAdd]
    dsimp only [length_nil]
    omega
  | cons stored =>
    obtain ⟨before, hbefore⟩ := h.suffix
    have hnumbers := h.numbers
    rw [← hbefore, map_append, kept, hevents, map_cons, map_cons] at hnumbers
    have hfirst := congrArg (·[before.length]?) hnumbers
    have hlength := h.length_recorded
    rw [← hbefore, length_append, hkept, hevents] at hlength
    have hinside : before.length < history.length := by
      rw [length_cons] at hlength
      omega
    rw [getElem?_append_right (by rw [length_map]), length_map, Nat.sub_self,
      getElem?_cons_zero, getElem?_range' hinside] at hfirst
    have hsequence : stored.event.sequence = 1 + 1 * before.length := Option.some.inj hfirst
    rw [TraceJournal.oldestSequence, hkept, hevents]
    change stored.event.sequence + _ = _
    omega

/-- The events after a number are all kept, unless it lies before the oldest one's last. -/
theorem Sound.lost_iff (sequence : ℕ) : (∃ event ∈ recorded size origin history,
      sequence < event.sequence ∧ event ∉ (run size origin history).kept) ↔
      sequence < (run size origin history).oldestSequence - 1 := by
  have holdest := h.oldestSequence
  have hlength := h.length_recorded
  obtain ⟨before, hbefore⟩ := h.suffix
  have hsum : before.length + (run size origin history).kept.length = history.length := by
    rw [← hbefore, length_append] at hlength
    exact hlength
  have hnumbers := h.numbers
  rw [← hbefore, map_append, ← hsum, ← range'_append] at hnumbers
  obtain ⟨hfront, -⟩ := append_inj hnumbers (by rw [length_map, length_range'])
  constructor
  · rintro ⟨event, hevent, _, hlost⟩
    rw [← hbefore, mem_append] at hevent
    have hmem := mem_map_of_mem (f := (·.sequence)) (hevent.resolve_right hlost)
    rw [hfront, mem_range'_1] at hmem
    omega
  · intro _
    have hmem : before.length ∈ List.range' 1 before.length := by
      rw [mem_range'_1]
      omega
    rw [← hfront] at hmem
    obtain ⟨event, hevent, _⟩ := List.mem_map.mp hmem
    have hordered := h.numbered
    rw [← hbefore, pairwise_append] at hordered
    refine ⟨event, ?_, by omega, fun hkept => ?_⟩
    · rw [← hbefore]
      exact mem_append_left _ hevent
    · exact Nat.lt_irrefl _ (hordered.2.2 event hevent event hkept)

theorem Sound.honest : Honest size origin history := by
  have hordered : (run size origin history).kept.Pairwise TraceEvent.Earlier :=
    h.numbered.sublist h.suffix.sublist
  refine ⟨?_, ?_, h.small, fun event hevent => h.suffix.subset hevent, h.numbered, ?_, ?_⟩
  · rw [h.counted, kept, List.map_map]
    exact congrArg List.sum (map_congr_left h.sizes)
  · rw [kept, length_map]
    exact h.few
  · intro selection limit filter
    exact (run size origin history).lists_selected hordered selection limit filter
  intro sequence _ _
  rw [h.lost_iff, query, Option.isSome_map, gapSequence]
  by_cases hgap : sequence < (run size origin history).oldestSequence - 1
  · rw [if_pos hgap]
    exact iff_of_true rfl hgap
  · rw [if_neg hgap]
    exact iff_of_false Bool.false_ne_true hgap

/-- An event without a number of its own, or one that is lost without a gap, is not honest. -/
theorem Sound.keeps_of_honest
    (hafter : Honest size origin (history ++ [p])) : (run size origin history).Keeps size p := by
  obtain ⟨event, hevent⟩ : ∃ event, event = (run size origin history).made p := ⟨_, rfl⟩
  have hrecorded : recorded size origin (history ++ [p]) =
      recorded size origin history ++ [event] := by
    rw [recorded_concat, hevent]
  have hbelow : ∀ other ∈ recorded size origin history,
      1 ≤ other.sequence ∧ other.sequence < 1 + history.length := by
    intro _ hother
    have hmem := mem_map_of_mem (f := (·.sequence)) hother
    rwa [h.numbers, mem_range'_1] at hmem
  have hnumber : (run size origin history).nextSequence < 2 ^ 64 - 1 := by
    by_contra hfull
    have hshort := h.short
    rw [h.next] at hfull
    have hsequence : event.sequence = 2 ^ 64 - 1 := by
      rw [hevent]
      change saturatingAdd (run size origin history).nextSequence 1 = _
      rw [saturatingAdd, h.next]
      omega
    have hmem : history.length ∈ (recorded size origin history).map (·.sequence) := by
      rw [h.numbers, mem_range'_1]
      omega
    obtain ⟨last, hlast, _⟩ := List.mem_map.mp hmem
    have hnumbered := hafter.numbered
    rw [hrecorded, pairwise_append] at hnumbered
    have hearlier := hnumbered.2.2 last hlast event (List.mem_singleton.mpr rfl)
    change last.sequence < event.sequence at hearlier
    omega
  refine ⟨hnumber, ?_⟩
  by_contra hlarge
  rw [not_or, ← hevent] at hlarge
  have hsequence : event.sequence = history.length + 1 := by
    rw [hevent, h.made_sequence p hnumber]
  have hpush : run size origin (history ++ [p]) =
      { run size origin history with nextSequence := event.sequence } := by
    rw [run_concat, TraceJournal.push]
    dsimp only
    rw [← hevent, if_pos (by rw [h.maximumBytes]; omega)]
  have hgap := (hafter.gap history.length 0 {}).mpr
    ⟨event, by rw [hrecorded]; simp, by omega, fun hkept => ?_⟩
  · rw [query, Option.isSome_map, gapSequence] at hgap
    split at hgap
    · next hbefore =>
      rw [hpush, TraceJournal.oldestSequence] at hbefore
      dsimp only at hbefore
      cases hevents : (run size origin history).events with
      | nil =>
        rw [hevents] at hbefore
        have hfew := mt (And.intro hevents) hlarge.2
        rw [h.next] at hfew
        change history.length < saturatingAdd event.sequence 1 - 1 at hbefore
        rw [saturatingAdd] at hbefore
        omega
      | cons stored =>
        rw [hevents] at hbefore
        change history.length < stored.event.sequence - 1 at hbefore
        have hmem : stored.event ∈ (run size origin history).kept := by
          rw [kept, hevents]
          exact mem_cons_self
        have hbound := hbelow stored.event (h.suffix.subset hmem)
        omega
    · cases hgap
  · rw [hpush] at hkept
    have hbound := hbelow event (h.suffix.subset hkept)
    omega

end

end TraceJournal

/-! ### A reader -/

/-- What happens to the journal and its reader: an event is pushed, or the reader asks for those
after the last one that it saw. -/
inductive ReaderStep (V : Type) where
  | push (push : Push V)
  | read (limit : ℕ)

structure Reader (V : Type) where
  journal : TraceJournal V
  lastSeen : ℕ
  received : List (TraceEvent V) := []
  gapSeen : Bool := false

def pushes (steps : List (ReaderStep V)) : List (Push V) :=
  steps.filterMap fun
    | .push push => some push
    | .read _ => none

namespace Reader

def step (size : TraceEvent V → ℕ) (filter : TraceFilter) (r : Reader V) : ReaderStep V → Reader V
  | .push push => { r with journal := r.journal.push size push }
  | .read limit =>
    let batch := r.journal.query (.after r.lastSeen) limit filter
    { r with
      lastSeen := (batch.events.getLast?.map (·.sequence)).getD r.lastSeen
      received := r.received ++ batch.events
      gapSeen := r.gapSeen || batch.gap.isSome }

variable (size : TraceEvent V → ℕ) (origin : Origin)

def run (filter : TraceFilter) (start : ℕ) (steps : List (ReaderStep V)) : Reader V :=
  steps.foldl (step size filter) { journal := { origin }, lastSeen := start }

/-- The events that the reader was to see by now. -/
def due (filter : TraceFilter) (start stop : ℕ) (history : List (Push V)) : List (TraceEvent V) :=
  (TraceJournal.recorded size origin history).filter fun event =>
    filter.accepts event && (start < event.sequence && event.sequence ≤ stop)

/-- A reader that saw no gap has received all events after its start that the filter accepts, up to
the last one that it saw. -/
def Complete (history : List (Push V)) : Prop :=
  ∀ (steps : List (ReaderStep V)) (filter : TraceFilter) (start : ℕ), pushes steps = history →
    (run size origin filter start steps).gapSeen = false →
    (run size origin filter start steps).received =
      due size origin filter start (run size origin filter start steps).lastSeen history

variable {size origin} {filter : TraceFilter} {start : ℕ} {history : List (Push V)}

/-- How a reader stands that saw no gap. -/
structure Caught (size : TraceEvent V → ℕ) (origin : Origin) (filter : TraceFilter) (start : ℕ)
    (history : List (Push V)) (r : Reader V) : Prop where
  journal : r.journal = TraceJournal.run size origin history
  started : start ≤ r.lastSeen
  seen : r.lastSeen = start ∨ r.lastSeen ≤ history.length
  received : r.received = due size origin filter start r.lastSeen history

variable {r : Reader V}

theorem Caught.push (h : r.Caught size origin filter start history)
    (hsound : TraceJournal.Sound size origin history) (p : Push V)
    (hnumber : (TraceJournal.run size origin history).nextSequence < 2 ^ 64 - 1) :
    (r.step size filter (.push p)).Caught size origin filter start (history ++ [p]) := by
  refine ⟨?_, h.started, ?_, ?_⟩
  · rw [TraceJournal.run_concat, ← h.journal]
    rfl
  · refine h.seen.imp id fun hseen => ?_
    rw [length_append]
    exact Nat.le_add_right_of_le hseen
  have hnew : (filter.accepts ((TraceJournal.run size origin history).made p) &&
      (decide (start < ((TraceJournal.run size origin history).made p).sequence) &&
        decide (((TraceJournal.run size origin history).made p).sequence ≤ r.lastSeen))) =
      false := by
    have hseen := h.seen
    rw [hsound.made_sequence p hnumber]
    simp only [Bool.and_eq_false_iff, decide_eq_false_iff_not]
    omega
  change r.received = due size origin filter start r.lastSeen (history ++ [p])
  rw [h.received, due, due, TraceJournal.recorded_concat, filter_append,
    filter_cons_of_neg (by rw [hnew]; exact Bool.false_ne_true), filter_nil,
    append_nil]

theorem mem_due {stop : ℕ} {event : TraceEvent V} :
    event ∈ due size origin filter start stop history ↔
      event ∈ TraceJournal.recorded size origin history ∧ filter.accepts event = true ∧
        start < event.sequence ∧ event.sequence ≤ stop := by
  simp [due, mem_filter]

theorem Caught.read (h : r.Caught size origin filter start history)
    (hsound : TraceJournal.Sound size origin history) (limit : ℕ)
    (hgap : (r.step size filter (.read limit)).gapSeen = false) :
    (r.step size filter (.read limit)).Caught size origin filter start history := by
  obtain ⟨answer, hanswer⟩ : ∃ answer,
      answer = (r.journal.query (.after r.lastSeen) limit filter).events := ⟨_, rfl⟩
  have hlists := hsound.honest.lists (.after r.lastSeen) limit filter
  rw [← h.journal, ← hanswer] at hlists
  -- no gap: what was recorded after the last event seen is still kept
  have hkept : ∀ event ∈ TraceJournal.recorded size origin history, r.lastSeen < event.sequence →
      event ∈ r.journal.kept := by
    intro event hevent hafter
    by_contra hlost
    have hreported := (hsound.honest.gap r.lastSeen limit filter).mpr
      ⟨event, hevent, hafter, h.journal ▸ hlost⟩
    rw [← h.journal] at hreported
    change (r.gapSeen || (r.journal.query (.after r.lastSeen) limit filter).gap.isSome) =
      false at hgap
    rw [hreported, Bool.or_true] at hgap
    cases hgap
  have hknown : ∀ event ∈ r.journal.kept,
      event ∈ TraceJournal.recorded size origin history := by
    rw [h.journal]
    exact hsound.honest.known
  obtain ⟨seen, hseen⟩ : ∃ seen,
      seen = (answer.getLast?.map (·.sequence)).getD r.lastSeen := ⟨_, rfl⟩
  have hbelow : ∀ event ∈ answer, event.sequence ≤ seen := by
    intro event hevent
    rcases eq_nil_or_concat answer with rfl | ⟨before, last, rfl⟩
    · cases hevent
    rw [hseen, concat_eq_append, getLast?_concat, Option.map_some, Option.getD_some]
    rw [concat_eq_append, mem_append, mem_singleton] at hevent
    rcases hevent with hmem | rfl
    · have hordered := hlists.ordered
      rw [concat_eq_append, pairwise_append] at hordered
      exact Nat.le_of_lt (hordered.2.2 event hmem last (List.mem_singleton.mpr rfl))
    · exact Nat.le_refl _
  have hseenOf : seen = r.lastSeen ∨ ∃ event ∈ answer, seen = event.sequence := by
    rcases eq_nil_or_concat answer with rfl | ⟨_, last, rfl⟩
    · exact Or.inl hseen
    · refine Or.inr ⟨last, by simp, ?_⟩
      rw [hseen, concat_eq_append, getLast?_concat, Option.map_some, Option.getD_some]
  have hgrows : r.lastSeen ≤ seen := by
    rcases hseenOf with hsame | ⟨event, hevent, hsequence⟩
    · omega
    · have hafter := (hlists.listed event hevent).2
      omega
  have hall : r.received ++ answer = due size origin filter start seen history := by
    have hordered := hsound.numbered
    refine List.Pairwise.eq_of_mem_iff (r := TraceEvent.Earlier) ?_
      (hordered.sublist filter_sublist) fun event => ?_
    · rw [h.received, pairwise_append]
      refine ⟨hordered.sublist filter_sublist, hlists.ordered, fun a ha b hb => ?_⟩
      exact Nat.lt_of_le_of_lt (mem_due.mp ha).2.2.2 (hlists.listed b hb).2
    rw [mem_append, h.received, mem_due, mem_due]
    constructor
    · rintro (⟨hrecorded, haccepts, hstart, hstop⟩ | hmem)
      · exact ⟨hrecorded, haccepts, hstart, by omega⟩
      · obtain ⟨⟨hin, haccepts⟩, hafter⟩ := hlists.listed event hmem
        have hstarted := h.started
        exact ⟨hknown event hin, haccepts, by omega, hbelow event hmem⟩
    · rintro ⟨hrecorded, haccepts, hstart, _⟩
      by_cases hbefore : event.sequence ≤ r.lastSeen
      · exact Or.inl ⟨hrecorded, haccepts, hstart, hbefore⟩
      right
      by_contra hleft
      have hafter := Nat.lt_of_not_le hbefore
      have hothers := (hlists.others event
        ⟨⟨hkept event hrecorded hafter, haccepts⟩, hafter⟩ hleft).2
      rcases hseenOf with hsame | ⟨last, hlast, hsequence⟩
      · omega
      · have hearlier := hothers last hlast
        change last.sequence < event.sequence at hearlier
        omega
  have hstep : r.step size filter (.read limit) =
      { r with
        lastSeen := seen
        received := r.received ++ answer
        gapSeen := r.gapSeen ||
          (r.journal.query (.after r.lastSeen) limit filter).gap.isSome } := by
    rw [hseen, hanswer]
    rfl
  rw [hstep]
  refine ⟨h.journal, h.started.trans hgrows, ?_, hall⟩
  rcases hseenOf with hsame | ⟨last, hlast, _⟩
  · exact h.seen.imp hsame.trans hsame.trans_le
  right
  have hmem := mem_map_of_mem (f := (·.sequence))
    (hknown last (hlists.listed last hlast).1.1)
  rw [hsound.numbers, mem_range'_1] at hmem
  change seen ≤ history.length
  omega

theorem gapSeen_step {s : ReaderStep V} (h : (r.step size filter s).gapSeen = false) :
    r.gapSeen = false := by
  cases s with
  | push => exact h
  | read => exact (Bool.or_eq_false_iff.mp h).1

theorem caught_run (steps : List (ReaderStep V))
    (hgood : Throughout (TraceJournal.run size origin) (TraceJournal.Keeps size) (pushes steps))
    (hgap : (run size origin filter start steps).gapSeen = false) :
    (run size origin filter start steps).Caught size origin filter start (pushes steps) := by
  induction steps using List.reverseRecOn with
  | nil =>
    refine ⟨rfl, Nat.le_refl _, Or.inl rfl, ?_⟩
    rfl
  | append_singleton steps s ih =>
    have hsplit : pushes (steps ++ [s]) = pushes steps ++ pushes [s] := filterMap_append
    have hlast : run size origin filter start (steps ++ [s]) =
        (run size origin filter start steps).step size filter s := foldl_concat ..
    rw [hsplit] at hgood ⊢
    rw [hlast] at hgap ⊢
    have hbefore := ih hgood.of_append (gapSeen_step hgap)
    have hsound := hgood.of_append.induct (TraceJournal.Sound size origin) TraceJournal.sound_nil
      fun _ _ h hkeeps => h.pushed hkeeps
    cases s with
    | push p => exact hbefore.push hsound p hgood.at_end.1
    | read limit =>
      rw [show pushes [ReaderStep.read limit] = ([] : List (Push V)) from rfl, append_nil]
      exact hbefore.read hsound limit hgap

end Reader

/-- All along a run the journal is honest and its readers miss nothing without seeing a gap, if and
only if no event is lost among kept ones for its size, and the numbers last. -/
theorem TraceJournal.trace_honest_iff (size : TraceEvent V → ℕ) (origin : Origin)
    (history : List (Push V)) :
    ((∀ n, Honest size origin (history.take n)) ∧ Reader.Complete size origin history) ↔
      Throughout (run size origin) (Keeps size) history := by
  have hiff : (∀ n, Honest size origin (history.take n)) ↔
      Throughout (run size origin) (Keeps size) history :=
    throughout_iff_claimed (Sound size origin) sound_nil (fun _ h => h.honest)
      (fun _ _ h hkeeps => h.pushed hkeeps) (fun _ _ h hafter => h.keeps_of_honest hafter)
  constructor
  · intro h
    exact hiff.mp h.1
  · intro h
    refine ⟨hiff.mpr h, ?_⟩
    rintro steps _ _ rfl hgap
    exact (Reader.caught_run steps h hgap).received

/-- An event of three megabytes after a small one: a reader that saw the first asks for what follows
and is told of no gap. -/
theorem TraceJournal.trace_gap_unreported :
    let small : Push ℕ := ⟨.flow, "credit", none, 100, 0⟩
    let large : Push ℕ := ⟨.decode, "frame", none, 3000000, 1⟩
    let origin : Origin := ⟨1, "00", 0⟩
    let batch := (run TraceEvent.data origin [small, large]).query (.after 1) 512 {}
    batch.gap = none ∧ batch.events = [] ∧ batch.currentSequence = 2 ∧
      ¬ Honest TraceEvent.data origin [small, large] := by
  refine ⟨by decide +kernel, by decide +kernel, by decide +kernel, fun h => ?_⟩
  have hreported := (h.gap 1 512 {}).mpr
    ⟨⟨2, ⟨1, "00", 0⟩, 1, none, .decode, "frame", none, 3000000⟩, by decide +kernel, by decide,
      by decide +kernel⟩
  exact absurd hreported (by decide +kernel)

end Vivido.Trace
