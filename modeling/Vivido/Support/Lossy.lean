import Mathlib.Data.List.Basic

/-!
A stream that may lose items, and that tells of its losses by ranges of the
items' numbers. A log has every item that was offered, as delivered or as lost,
and the ranges told among them. A stream owes a range for what it has lost and
not told yet.
-/

namespace Vivido

open List

inductive Entry (α : Type*) where
  | delivered (a : α)
  | lost (a : α)
  | told (first last : ℕ)

namespace Entry

variable {α β : Type*} {num : α → ℕ} {log : List (Entry α)} {first last : ℕ}

/-- The item that an entry is about. -/
def offered? : Entry α → Option α
  | delivered a | lost a => some a
  | told _ _ => none

/-- What the far end sees of an entry. -/
def seen? (f : α → β) : Entry α → Option (β ⊕ (ℕ × ℕ))
  | delivered a => some (Sum.inl (f a))
  | lost _ => none
  | told first last => some (Sum.inr (first, last))

/-- Before an item is delivered, a range is told that has every item lost earlier. -/
def Told (num : α → ℕ) (log : List (Entry α)) : Prop :=
  ∀ earlier a between b later, log = earlier ++ lost a :: (between ++ delivered b :: later) →
    ∃ first last, told first last ∈ between ∧ first ≤ num a ∧ num a ≤ last

/-- What was lost has been told, or is in the range that is owed. -/
structure Owes (num : α → ℕ) (log : List (Entry α)) (range : Option (ℕ × ℕ)) : Prop where
  told : Told num log
  owed : ∀ earlier a later, log = earlier ++ lost a :: later →
    (∃ first last, Entry.told first last ∈ later ∧ first ≤ num a ∧ num a ≤ last) ∨
      ∃ first last, range = some (first, last) ∧ first ≤ num a ∧ num a ≤ last

/-- An entry of a list with one more is that one, or lies before it. -/
theorem split_concat {x y : α} {list earlier later : List α}
    (h : list ++ [x] = earlier ++ y :: later) : (later = [] ∧ list = earlier ∧ x = y) ∨
      ∃ rest, later = rest ++ [x] ∧ list = earlier ++ y :: rest := by
  rcases eq_nil_or_concat later with rfl | ⟨rest, _, rfl⟩
  · obtain ⟨hlist, hlast⟩ := append_inj' h rfl
    cases hlast
    exact Or.inl ⟨rfl, hlist, rfl⟩
  · rw [concat_eq_append, ← cons_append, ← append_assoc] at h
    obtain ⟨hlist, hlast⟩ := append_inj' h rfl
    cases hlast
    exact Or.inr ⟨rest, concat_eq_append, hlist⟩

/-- The last entry matters only if it is a delivery. -/
theorem Told.concat (h : Told num log) {entry : Entry α} (hentry : ∀ b, entry ≠ delivered b) :
    Told num (log ++ [entry]) := by
  intro earlier a between b _ heq
  rw [← cons_append, ← append_assoc] at heq
  rcases split_concat heq with ⟨-, -, hlast⟩ | ⟨rest, -, hlog⟩
  · exact (hentry b hlast).elim
  · refine h earlier a between b rest ?_
    rw [hlog, append_assoc, cons_append]

theorem owes_nil : Owes num ([] : List (Entry α)) none where
  told earlier a between b later heq := by simp at heq
  owed earlier a later heq := by simp at heq

/-- An item is delivered to one to whom nothing is owed. -/
theorem Owes.deliver (h : Owes num log none) (b : α) : Owes num (log ++ [delivered b]) none where
  told earlier a between c later heq := by
    have heq' := heq
    rw [← cons_append, ← append_assoc] at heq'
    rcases split_concat heq' with ⟨-, hlog, -⟩ | ⟨rest, -, hlog⟩
    · rcases h.owed earlier a between hlog with htold | ⟨_, _, hnone, -⟩
      · exact htold
      · cases hnone
    · refine h.told earlier a between c rest ?_
      rw [hlog, append_assoc, cons_append]
  owed earlier a later heq := by
    rcases split_concat heq with ⟨-, -, hlast⟩ | ⟨rest, rfl, hlog⟩
    · cases hlast
    · rcases h.owed earlier a rest hlog with ⟨first, last, htold, hrange⟩ | ⟨_, _, hnone, -⟩
      · exact Or.inl ⟨first, last, mem_append_left _ htold, hrange⟩
      · cases hnone

/-- What is owed is told. -/
theorem Owes.tell (h : Owes num log (some (first, last))) :
    Owes num (log ++ [Entry.told first last]) none where
  told := h.told.concat nofun
  owed earlier a later heq := by
    rcases split_concat heq with ⟨-, -, hlast⟩ | ⟨rest, rfl, hlog⟩
    · cases hlast
    · rcases h.owed earlier a rest hlog with ⟨f, l, htold, hrange⟩ | ⟨f, l, hrange, hin⟩
      · exact Or.inl ⟨f, l, mem_append_left _ htold, hrange⟩
      · cases hrange
        exact Or.inl ⟨first, last, mem_append_right _ mem_cons_self, hin⟩

/-- An item is lost, and the range that is owed grows to have it. -/
theorem Owes.lose {range : Option (ℕ × ℕ)} (h : Owes num log range) {a : α}
    (hgrows : ∀ f l, range = some (f, l) → first ≤ f ∧ l ≤ last)
    (hin : first ≤ num a ∧ num a ≤ last) : Owes num (log ++ [lost a]) (some (first, last)) where
  told := h.told.concat nofun
  owed earlier b later heq := by
    rcases split_concat heq with ⟨-, -, hlast⟩ | ⟨rest, rfl, hlog⟩
    · cases hlast
      exact Or.inr ⟨first, last, rfl, hin⟩
    · rcases h.owed earlier b rest hlog with ⟨f, l, htold, hrange⟩ | ⟨f, l, hrange, hf, hl⟩
      · exact Or.inl ⟨f, l, mem_append_left _ htold, hrange⟩
      · obtain ⟨hfirst, hlast⟩ := hgrows f l hrange
        exact Or.inr ⟨first, last, rfl, Nat.le_trans hfirst hf, Nat.le_trans hl hlast⟩

theorem owes_lost {items : List α} (h : ∀ a ∈ items, first ≤ num a ∧ num a ≤ last) :
    Owes num (items.map lost) (some (first, last)) where
  told earlier a between b later heq := by
    have hmem : delivered b ∈ items.map lost := by
      rw [heq]
      simp
    obtain ⟨c, -, hc⟩ := List.mem_map.mp hmem
    cases hc
  owed earlier a later heq := by
    have hmem : lost a ∈ items.map lost := by
      rw [heq]
      simp
    obtain ⟨c, hc, heq⟩ := List.mem_map.mp hmem
    cases heq
    exact Or.inr ⟨first, last, rfl, h a hc⟩

/-- Who sees a later item, and not an earlier one, has seen a range that has the earlier one. -/
theorem Told.of_seen {f : α → β} (h : Told num log) {before after : List α} {a : α} {y : β}
    (hoffered : log.filterMap offered? = before ++ a :: after)
    (ha : Sum.inl (f a) ∉ log.filterMap (seen? f)) (hy : Sum.inl y ∈ log.filterMap (seen? f))
    (hbefore : ∀ b ∈ before, f b ≠ y) :
    ∃ first last, Sum.inr (first, last) ∈ log.filterMap (seen? f) ∧ first ≤ num a ∧
      num a ≤ last := by
  obtain ⟨earlier, rest, rfl, hearlier, hrest⟩ := List.filterMap_eq_append_iff.mp hoffered
  obtain ⟨tolds, entry, later, rfl, htolds, hentry, -⟩ := List.filterMap_eq_cons_iff.mp hrest
  obtain ⟨b, hb, hby⟩ : ∃ b, delivered b ∈ earlier ++ (tolds ++ entry :: later) ∧ f b = y := by
    obtain ⟨other, hmem, hseen⟩ := List.mem_filterMap.mp hy
    cases other with
    | delivered b => exact ⟨b, hmem, Sum.inl.inj (Option.some.inj hseen)⟩
    | lost | told => cases hseen
  cases entry with
  | delivered c =>
    obtain rfl := Option.some.inj hentry
    exact (ha (List.mem_filterMap.mpr ⟨delivered c, by simp, rfl⟩)).elim
  | told => cases hentry
  | lost c =>
    obtain rfl := Option.some.inj hentry
    have hlater : delivered b ∈ later := by
      rcases List.mem_append.mp hb with hb | hb
      · refine (hbefore b ?_ hby).elim
        rw [← hearlier]
        exact List.mem_filterMap.mpr ⟨_, hb, rfl⟩
      · rcases List.mem_append.mp hb with hb | hb
        · cases htolds _ hb
        · rcases List.mem_cons.mp hb with hb | hb
          · cases hb
          · exact hb
    obtain ⟨between, rest, rfl⟩ := append_of_mem hlater
    obtain ⟨first, last, htold, hrange⟩ := h (earlier ++ tolds) c between b rest (by simp)
    refine ⟨first, last, List.mem_filterMap.mpr ⟨Entry.told first last, ?_, rfl⟩, hrange⟩
    simp [htold]

end Entry

end Vivido
