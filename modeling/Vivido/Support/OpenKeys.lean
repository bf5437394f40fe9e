import Mathlib.Data.List.Induction
import Mathlib.Data.List.Nodup

/-!
Keys that the entries of a log open and close. What is open is what was opened
and has not been closed since.
-/

namespace Vivido

open List

variable {E K : Type} [DecidableEq K]

/-- What an entry does to a key. -/
inductive KeyChange (K : Type) where
  | opens (key : K)
  | closes (key : K)
  deriving DecidableEq, Repr

def KeyChange.apply (keys : List K) : Option (KeyChange K) → List K
  | none => keys
  | some (.opens key) => keys ++ [key]
  | some (.closes key) => keys.filter fun other => other ≠ key

/-- The keys that are open after a log, in the order in which they were opened. -/
def openKeys (change : E → Option (KeyChange K)) (log : List E) : List K :=
  log.foldl (fun keys entry => KeyChange.apply keys (change entry)) []

variable {change : E → Option (KeyChange K)} {log : List E} {entry : E} {key : K}

theorem openKeys_concat (change : E → Option (KeyChange K)) (log : List E) (entry : E) :
    openKeys change (log ++ [entry]) = KeyChange.apply (openKeys change log) (change entry) := by
  simp only [openKeys, foldl_append, foldl_cons, foldl_nil]

theorem openKeys_none (h : change entry = none) :
    openKeys change (log ++ [entry]) = openKeys change log := by
  rw [openKeys_concat, h]
  rfl

theorem mem_openKeys_opens (change : E → Option (KeyChange K))
    (h : change entry = some (.opens key)) (other : K) :
    other ∈ openKeys change (log ++ [entry]) ↔ other ∈ openKeys change log ∨ other = key := by
  rw [openKeys_concat, h, KeyChange.apply, mem_append, mem_singleton]

theorem mem_openKeys_closes (change : E → Option (KeyChange K))
    (h : change entry = some (.closes key)) (other : K) :
    other ∈ openKeys change (log ++ [entry]) ↔ other ∈ openKeys change log ∧ other ≠ key := by
  rw [openKeys_concat, h, KeyChange.apply, mem_filter, decide_eq_true_eq]

theorem openKeys_nodup_concat (hlog : (openKeys change log).Nodup)
    (hnew : ∀ key, change entry = some (.opens key) → key ∉ openKeys change log) :
    (openKeys change (log ++ [entry])).Nodup := by
  rw [openKeys_concat]
  cases hentry : change entry with
  | none => exact hlog
  | some keyChange =>
    cases keyChange with
    | opens key =>
      rw [KeyChange.apply, nodup_append]
      refine ⟨hlog, nodup_singleton key, ?_⟩
      intro a ha b hb hab
      rw [List.mem_singleton.mp hb] at hab
      exact hnew key hentry (hab ▸ ha)
    | closes => exact hlog.filter _

theorem mem_openKeys_or_closed (change : E → Option (KeyChange K)) (hentry : entry ∈ log)
    (hopens : change entry = some (.opens key)) :
    key ∈ openKeys change log ∨ ∃ other ∈ log, change other = some (.closes key) := by
  induction log using List.reverseRecOn with
  | nil => cases hentry
  | append_singleton _ last ih =>
    by_cases hcloses : change last = some (.closes key)
    · exact Or.inr ⟨last, by simp, hcloses⟩
    rcases List.mem_append.mp hentry with hmem | hmem
    · rcases ih hmem with hopen | ⟨other, hother, hclosed⟩
      · left
        rw [openKeys_concat]
        cases hlast : change last with
        | none => exact hopen
        | some keyChange =>
          cases keyChange with
          | opens => exact mem_append_left _ hopen
          | closes =>
            refine List.mem_filter.mpr ⟨hopen, decide_eq_true fun heq => hcloses ?_⟩
            rw [hlast, heq]
      · exact Or.inr ⟨other, mem_append_left _ hother, hclosed⟩
    · rw [mem_singleton] at hmem
      rw [hmem] at hopens
      exact Or.inl ((mem_openKeys_opens change hopens key).mpr (Or.inr rfl))

end Vivido
