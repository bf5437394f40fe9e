import Mathlib.Data.List.Induction

/-!
Something that happened within a run and held ever since: the run split at the
event, and the states that the rest of it passes through. And something that
holds throughout a run, of each of its events and the state that it meets.
-/

namespace Vivido

open List

variable {σ α : Type*} {run : List α → σ} {event : σ → α → Prop} {holds : σ → Prop}
  {history : List α} {a : α}

/-- An event of the history met its state, and each state after it holds. -/
def Since (run : List α → σ) (event : σ → α → Prop) (holds : σ → Prop) (history : List α) : Prop :=
  ∃ earlier a later, history = earlier ++ a :: later ∧ event (run earlier) a ∧
    ∀ middle rest, later = middle ++ rest → holds (run (earlier ++ a :: middle))

theorem since_now (hevent : event (run history) a) (hholds : holds (run (history ++ [a]))) :
    Since run event holds (history ++ [a]) := by
  refine ⟨history, a, [], rfl, hevent, fun middle rest heq => ?_⟩
  obtain ⟨rfl, -⟩ := List.append_eq_nil_iff.mp heq.symm
  exact hholds

theorem Since.later (h : Since run event holds history) (hholds : holds (run (history ++ [a]))) :
    Since run event holds (history ++ [a]) := by
  obtain ⟨earlier, b, later, rfl, hevent, hsince⟩ := h
  refine ⟨earlier, b, later ++ [a], by simp, hevent, fun middle rest heq => ?_⟩
  rcases eq_nil_or_concat rest with rfl | ⟨rest, _, rfl⟩
  · rw [append_nil] at heq
    rw [← heq, ← cons_append, ← append_assoc]
    exact hholds
  · rw [concat_eq_append, ← append_assoc] at heq
    exact hsince middle rest (append_inj_left' heq rfl)

theorem Since.at_end (h : Since run event holds history) : holds (run history) := by
  obtain ⟨_, b, later, rfl, -, hsince⟩ := h
  exact hsince later [] (append_nil _).symm

/-- It happened now, or before and held since. -/
theorem Since.cases (h : Since run event holds (history ++ [a])) :
    event (run history) a ∨ Since run event holds history := by
  obtain ⟨earlier, b, later, heq, hevent, hsince⟩ := h
  rcases eq_nil_or_concat later with rfl | ⟨later, last, rfl⟩
  · obtain ⟨rfl, hlast⟩ := append_inj' heq rfl
    cases hlast
    exact Or.inl hevent
  · rw [concat_eq_append, ← cons_append, ← append_assoc] at heq
    obtain ⟨rfl, -⟩ := append_inj' heq rfl
    refine Or.inr ⟨earlier, b, later, rfl, hevent, fun middle rest hmiddle => ?_⟩
    refine hsince middle (rest ++ [last]) ?_
    rw [hmiddle, concat_eq_append, append_assoc]

theorem Since.mem (h : Since run event holds history) : ∃ a ∈ history, ∃ s, event s a := by
  obtain ⟨earlier, a, _, rfl, hevent, -⟩ := h
  exact ⟨a, by simp, run earlier, hevent⟩

theorem since_iff : Since run event holds history ↔
    ∃ n : Fin history.length, event (run (history.take n)) history[n] ∧
      ∀ m ∈ List.range (history.length + 1), n < m → holds (run (history.take m)) := by
  constructor
  · rintro ⟨earlier, a, later, rfl, hevent, hsince⟩
    have hn : earlier.length < (earlier ++ a :: later).length := by
      rw [length_append, length_cons]
      omega
    refine ⟨⟨earlier.length, hn⟩, by simpa using hevent, fun m hm hlt => ?_⟩
    obtain ⟨k, rfl⟩ : ∃ k, m = earlier.length + (k + 1) := ⟨m - earlier.length - 1, by
      change earlier.length < m at hlt
      omega⟩
    rw [take_length_add_append, take_succ_cons]
    exact hsince (later.take k) (later.drop k) (take_append_drop k later).symm
  · rintro ⟨⟨n, hn⟩, hevent, hsince⟩
    refine ⟨history.take n, history[n], history.drop (n + 1), ?_, hevent, ?_⟩
    · rw [← drop_eq_getElem_cons hn, take_append_drop]
    intro middle _ heq
    have hlength : middle.length ≤ history.length - (n + 1) := by
      rw [← length_drop, heq, length_append]
      omega
    have htake : history.take (n + 1 + middle.length) =
        history.take n ++ history[n] :: middle := by
      rw [take_add, heq, take_left, take_succ_eq_append_getElem hn,
        append_assoc, singleton_append]
    rw [← htake]
    refine hsince _ (List.mem_range.mpr (by omega)) ?_
    change n < n + 1 + middle.length
    omega

instance decidableSince [∀ s a, Decidable (event s a)] [DecidablePred holds] :
    Decidable (Since run event holds history) :=
  decidable_of_iff' _ since_iff

/-! ### Throughout a run -/

variable {good : σ → α → Prop} (invariant : List α → Prop)

/-- Each event of the history is good where it happens. -/
def Throughout (run : List α → σ) (good : σ → α → Prop) (history : List α) : Prop :=
  ∀ earlier a later, history = earlier ++ a :: later → good (run earlier) a

theorem Throughout.of_append {later : List α} (h : Throughout run good (history ++ later)) :
    Throughout run good history := by
  rintro earlier a middle rfl
  exact h earlier a (middle ++ later) (by rw [append_assoc, cons_append])

theorem Throughout.at_end (h : Throughout run good (history ++ [a])) : good (run history) a :=
  h history a [] rfl

theorem Throughout.concat (h : Throughout run good history) (hgood : good (run history) a) :
    Throughout run good (history ++ [a]) := by
  intro earlier b later heq
  rcases eq_nil_or_concat later with rfl | ⟨later, _, rfl⟩
  · obtain ⟨rfl, hlast⟩ := append_inj' heq rfl
    cases hlast
    exact hgood
  · rw [concat_eq_append, ← cons_append, ← append_assoc] at heq
    exact h earlier b later (append_inj_left' heq rfl)

theorem throughout_iff : Throughout run good history ↔
    ∀ n, (h : n < history.length) → good (run (history.take n)) history[n] := by
  constructor
  · intro h n hn
    refine h (history.take n) history[n] (history.drop (n + 1)) ?_
    rw [← drop_eq_getElem_cons hn, take_append_drop]
  · rintro h earlier a later rfl
    have hn : earlier.length < (earlier ++ a :: later).length := by
      rw [length_append, length_cons]
      omega
    have hgood := h earlier.length hn
    simpa using hgood

instance decidableThroughout [∀ s a, Decidable (good s a)] :
    Decidable (Throughout run good history) :=
  decidable_of_iff' _ throughout_iff

section

variable (hnil : invariant [])
  (hstep : ∀ history a, invariant history → good (run history) a → invariant (history ++ [a]))
include hnil hstep

/-- What holds at the start, and after each good event where it held before, holds at the end. -/
theorem Throughout.induct (h : Throughout run good history) : invariant history := by
  induction history using List.reverseRecOn with
  | nil => exact hnil
  | append_singleton history a ih => exact hstep history a (ih h.of_append) h.at_end

/-- Where an invariant of good runs makes each event fine, all of a good run is. -/
theorem Throughout.of_invariant {fine : List α → α → Prop}
    (hfine : ∀ history a, invariant history → fine history a)
    (h : Throughout run good history) : Throughout id fine history := by
  rintro earlier a _ rfl
  exact hfine earlier a (h.of_append.induct invariant hnil hstep)

end

/-- Where an event keeps an invariant if and only if it is good, the invariant holds all along a run
if and only if the run is good throughout. -/
theorem throughout_iff_always (hnil : invariant []) (hstep : ∀ history a, invariant history →
      (invariant (history ++ [a]) ↔ good (run history) a)) :
    (∀ n, invariant (history.take n)) ↔ Throughout run good history := by
  constructor
  · rintro h earlier a later rfl
    have hbefore := h earlier.length
    have hafter := h (earlier.length + 1)
    rw [take_left] at hbefore
    rw [show earlier ++ a :: later = (earlier ++ [a]) ++ later by simp,
      show earlier.length + 1 = (earlier ++ [a]).length by simp, take_left] at hafter
    exact (hstep earlier a hbefore).mp hafter
  · intro h n
    have hgood : Throughout run good (history.take n) := by
      rw [← take_append_drop n history] at h
      exact h.of_append
    exact hgood.induct invariant hnil fun earlier a hbefore => (hstep earlier a hbefore).mpr

/-- Where good events keep an invariant that gives what is claimed, and what is claimed after an
event makes it good, the claim holds all along a run if and only if the run is good throughout. -/
theorem throughout_iff_claimed {claimed : List α → Prop} (hnil : invariant [])
    (hclaimed : ∀ history, invariant history → claimed history)
    (hstep : ∀ history a, invariant history → good (run history) a → invariant (history ++ [a]))
    (hgood : ∀ history a, invariant history → claimed (history ++ [a]) → good (run history) a) :
    (∀ n, claimed (history.take n)) ↔ Throughout run good history := by
  constructor
  · intro h
    refine (throughout_iff_always (fun history => invariant history ∧ claimed history)
      ⟨hnil, hclaimed [] hnil⟩ ?_).mp ?_
    · intro earlier a hbefore
      constructor
      · intro hafter
        exact hgood earlier a hbefore.1 hafter.2
      · intro hnow
        have hafter := hstep earlier a hbefore.1 hnow
        exact ⟨hafter, hclaimed _ hafter⟩
    · intro n
      refine ⟨?_, h n⟩
      induction n with
      | zero => exact hnil
      | succ n ih =>
        by_cases hn : n < history.length
        · have hsplit := take_succ_eq_append_getElem hn
          have hafter := h (n + 1)
          rw [hsplit] at hafter ⊢
          exact hstep _ _ ih (hgood _ _ ih hafter)
        · rw [take_of_length_le (by omega)]
          rwa [take_of_length_le (by omega)] at ih
  · intro h n
    have hgoods : Throughout run good (history.take n) := by
      rw [← take_append_drop n history] at h
      exact h.of_append
    exact hclaimed _ (hgoods.induct invariant hnil hstep)

end Vivido
