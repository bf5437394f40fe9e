import Mathlib.Data.List.Pairwise
import Mathlib.Data.List.Perm.Basic
import Mathlib.Algebra.GroupWithZero.Nat
import Mathlib.Order.Lattice

/-!
Finite maps as lists of entries in the order of their keys. The order is part of
the value, so that going through a map is going through its list.
-/

namespace Vivido

open List Option

/-- A finite map; its keys increase. -/
structure SortedMap (κ α : Type*) [LinearOrder κ] where
  entries : List (κ × α)
  sorted : (entries.map Prod.fst).Pairwise (· < ·)

namespace SortedMap

variable {κ α β : Type*} [LinearOrder κ]

theorem ext {m n : SortedMap κ α} (h : m.entries = n.entries) : m = n := by
  cases m
  cases n
  cases h
  rfl

instance [DecidableEq α] : DecidableEq (SortedMap κ α) :=
  fun m n => decidable_of_iff (m.entries = n.entries) ⟨ext, congrArg entries⟩

def empty : SortedMap κ α := ⟨[], List.Pairwise.nil⟩

def lookup (m : SortedMap κ α) (key : κ) : Option α :=
  (m.entries.find? fun entry => entry.1 = key).map Prod.snd

def size (m : SortedMap κ α) : ℕ := m.entries.length

/-- Keep the entries that `keep` selects. -/
def filter (m : SortedMap κ α) (keep : κ × α → Bool) : SortedMap κ α where
  entries := m.entries.filter keep
  sorted := m.sorted.sublist ((filter_sublist (p := keep)).map _)

def erase (m : SortedMap κ α) (key : κ) : SortedMap κ α := m.filter fun entry => entry.1 ≠ key

/-- Change the values. -/
def mapValues (m : SortedMap κ α) (f : κ → α → β) : SortedMap κ β where
  entries := m.entries.map fun entry => (entry.1, f entry.1 entry.2)
  sorted := by
    rw [List.map_map]
    exact m.sorted

/-- Change the value at a key. -/
def adjust (m : SortedMap κ α) (key : κ) (f : α → α) : SortedMap κ α :=
  m.mapValues fun other value => if other = key then f value else value

def insert (m : SortedMap κ α) (key : κ) (value : α) : SortedMap κ α where
  entries := m.entries.filter (fun entry => entry.1 < key) ++
    (key, value) :: m.entries.filter (fun entry => key < entry.1)
  sorted := by
    have hsub : ∀ keep : κ × α → Bool, ((m.entries.filter keep).map Prod.fst).Pairwise (· < ·) :=
      fun keep => m.sorted.sublist ((filter_sublist (p := keep)).map _)
    rw [map_append, map_cons, pairwise_append, pairwise_cons]
    refine ⟨hsub _, ⟨?_, hsub _⟩, ?_⟩
    · intro other hother
      obtain ⟨entry, hentry, rfl⟩ := List.mem_map.mp hother
      exact of_decide_eq_true (List.mem_filter.mp hentry).2
    · intro _ hbelow _ hother
      obtain ⟨_, hentry, rfl⟩ := List.mem_map.mp hbelow
      have hlt := of_decide_eq_true (List.mem_filter.mp hentry).2
      rcases List.mem_cons.mp hother with rfl | habove
      · exact hlt
      · obtain ⟨_, hentry', rfl⟩ := List.mem_map.mp habove
        exact lt_trans hlt (of_decide_eq_true (List.mem_filter.mp hentry').2)

variable {m n : SortedMap κ α} {key key' : κ} {value value' : α}

theorem nodup_keys (m : SortedMap κ α) : (m.entries.map Prod.fst).Nodup :=
  m.sorted.imp fun h => ne_of_lt h

theorem eq_of_mem (h : (key, value) ∈ m.entries) (h' : (key, value') ∈ m.entries) :
    value = value' := by
  have hnodup := m.nodup_keys
  generalize m.entries = entries at h h' hnodup
  induction entries with
  | nil => cases h
  | cons _ _ ih =>
    rw [map_cons, nodup_cons] at hnodup
    obtain ⟨hnew, hrest⟩ := hnodup
    rcases List.mem_cons.mp h with heq | hmem
    · rcases List.mem_cons.mp h' with heq' | hmem'
      · exact congrArg Prod.snd (heq.trans heq'.symm)
      · exact (hnew (heq ▸ List.mem_map.mpr ⟨_, hmem', rfl⟩)).elim
    · rcases List.mem_cons.mp h' with heq' | hmem'
      · exact (hnew (heq' ▸ List.mem_map.mpr ⟨_, hmem, rfl⟩)).elim
      · exact ih hmem hmem' hrest

theorem mem_entries : (key, value) ∈ m.entries ↔ m.lookup key = some value := by
  unfold lookup
  constructor
  · intro h
    cases hfind : m.entries.find? fun entry => entry.1 = key with
    | none =>
      have := List.find?_eq_none.mp hfind _ h
      simp at this
    | some entry =>
      have hkey : entry.1 = key := by simpa using find?_some hfind
      have hmem := mem_of_find?_eq_some hfind
      rw [map_some, some_inj]
      obtain ⟨_, _⟩ := entry
      cases hkey
      exact eq_of_mem hmem h
  · intro h
    obtain ⟨entry, hfind, rfl⟩ := Option.map_eq_some_iff.mp h
    have hkey : entry.1 = key := by simpa using find?_some hfind
    rw [← hkey]
    exact mem_of_find?_eq_some hfind

theorem lookup_eq_none : m.lookup key = none ↔ ∀ value, (key, value) ∉ m.entries := by
  constructor
  · intro h value hmem
    rw [mem_entries.mp hmem] at h
    cases h
  · intro h
    cases hlookup : m.lookup key with
    | none => rfl
    | some value => exact (h value (mem_entries.mpr hlookup)).elim

/-- A map is what it gives for each key. -/
theorem ext_lookup (h : ∀ key, m.lookup key = n.lookup key) : m = n := by
  refine ext ?_
  have hmem : ∀ entry, entry ∈ m.entries ↔ entry ∈ n.entries := by
    rintro ⟨_, _⟩
    rw [mem_entries, mem_entries, h]
  have hm : m.entries.Pairwise fun a b => a.1 < b.1 := List.pairwise_map.mp m.sorted
  have hn : n.entries.Pairwise fun a b => a.1 < b.1 := List.pairwise_map.mp n.sorted
  have hnodup : ∀ {entries : List (κ × α)}, (entries.Pairwise fun a b => a.1 < b.1) →
      entries.Nodup := by
    intro _ h
    refine List.Pairwise.imp ?_ h
    intro a b hlt heq
    rw [heq] at hlt
    exact lt_irrefl _ hlt
  refine List.Perm.eq_of_pairwise (fun a b _ _ hab hba => (lt_asymm hab hba).elim) hm hn ?_
  exact (perm_ext_iff_of_nodup (hnodup hm) (hnodup hn)).mpr hmem

@[simp] theorem lookup_empty : (empty : SortedMap κ α).lookup key = none := rfl

variable {keep : κ × α → Bool} (f : κ → α → β) (kind : κ → Bool)

theorem filter_eq_self :
    m.filter keep = m ↔ ∀ key value, m.lookup key = some value → keep (key, value) = true := by
  constructor
  · intro h key value hlookup
    have hmem := mem_entries.mpr hlookup
    rw [← h] at hmem
    exact (List.mem_filter.mp hmem).2
  · intro h
    refine ext (List.filter_eq_self.mpr ?_)
    rintro ⟨key, value⟩ hmem
    exact h key value (mem_entries.mp hmem)

theorem filter_of_size (h : (m.filter keep).size = m.size) : m.filter keep = m :=
  ext (List.filter_sublist.eq_of_length h)

theorem lookup_filter (keep : κ × α → Bool) :
    (m.filter keep).lookup key = (m.lookup key).filter fun value => keep (key, value) := by
  cases hlookup : m.lookup key with
  | none =>
    refine lookup_eq_none.mpr fun value hmem => ?_
    rw [mem_entries.mp (List.mem_filter.mp hmem).1] at hlookup
    cases hlookup
  | some value =>
    have hmem := mem_entries.mpr hlookup
    rw [filter_some]
    split
    · rename_i hkeep
      exact mem_entries.mp (List.mem_filter.mpr ⟨hmem, hkeep⟩)
    · rename_i hdrop
      refine lookup_eq_none.mpr fun other hother => hdrop ?_
      obtain ⟨hother, hkeep⟩ := List.mem_filter.mp hother
      rw [eq_of_mem hmem hother]
      exact hkeep

theorem lookup_filter_kept (h : ∀ value, keep (key, value) = true) :
    (m.filter keep).lookup key = m.lookup key := by
  rw [lookup_filter]
  cases m.lookup key with
  | none => rfl
  | some value => exact if_pos (h value)

/-- What is found after a filter was kept by it. -/
theorem keep_of_lookup_filter (h : (m.filter keep).lookup key = some value) :
    keep (key, value) = true := by
  rw [lookup_filter, filter_eq_some_iff] at h
  exact h.2

theorem lookup_of_filter (h : (m.filter keep).lookup key = some value) :
    m.lookup key = some value := by
  rw [lookup_filter, filter_eq_some_iff] at h
  exact h.1

theorem lookup_filter_dropped (h : ∀ value, keep (key, value) = false) :
    (m.filter keep).lookup key = none := by
  cases hlookup : (m.filter keep).lookup key with
  | none => rfl
  | some value =>
    exact Bool.noConfusion ((keep_of_lookup_filter hlookup).symm.trans (h value))

theorem lookup_erase : (m.erase key).lookup key' = if key' = key then none else m.lookup key' := by
  unfold erase
  rw [lookup_filter]
  split
  · rename_i heq
    cases m.lookup key' with
    | none => rfl
    | some => simp [heq]
  · rename_i hne
    cases m.lookup key' with
    | none => rfl
    | some => simp [hne]

theorem lookup_erase_some (h : (m.erase key).lookup key' = some value) :
    key' ≠ key ∧ m.lookup key' = some value := by
  rw [lookup_erase] at h
  split at h
  · cases h
  · exact ⟨‹_›, h⟩

theorem lookup_filter_keys (keep : κ → Prop) [DecidablePred keep] :
    (m.filter fun entry => keep entry.1).lookup key = some value ↔
      keep key ∧ m.lookup key = some value := by
  rw [lookup_filter, filter_eq_some_iff, decide_eq_true_eq, and_comm]

theorem isSome_filter_keys (keep : κ → Prop) [DecidablePred keep] (hkeep : keep key)
    (h : (m.lookup key).isSome) : ((m.filter fun entry => keep entry.1).lookup key).isSome := by
  obtain ⟨value, hvalue⟩ := Option.isSome_iff_exists.mp h
  exact Option.isSome_iff_exists.mpr ⟨value, (lookup_filter_keys keep).mpr ⟨hkeep, hvalue⟩⟩

theorem lookup_mapValues : (m.mapValues f).lookup key = (m.lookup key).map (f key) := by
  cases hlookup : m.lookup key with
  | none =>
    refine lookup_eq_none.mpr fun value hmem => ?_
    obtain ⟨_, hentry, heq⟩ := List.mem_map.mp hmem
    cases heq
    exact lookup_eq_none.mp hlookup _ hentry
  | some =>
    exact mem_entries.mp (List.mem_map.mpr ⟨_, mem_entries.mpr hlookup, rfl⟩)

theorem lookup_adjust (f : α → α) :
    (m.adjust key f).lookup key' = if key' = key then (m.lookup key').map f else m.lookup key' := by
  unfold adjust
  rw [lookup_mapValues]
  split
  · rfl
  · exact Option.map_id'

theorem lookup_insert :
    (m.insert key value).lookup key' = if key' = key then some value else m.lookup key' := by
  have hmem : ∀ value', (key', value') ∈ (m.insert key value).entries ↔
      key' = key ∧ value' = value ∨ key' ≠ key ∧ (key', value') ∈ m.entries := by
    intro value'
    unfold insert
    simp only [mem_append, mem_cons, mem_filter, decide_eq_true_eq, Prod.mk.injEq]
    constructor
    · rintro (⟨hold, hlt⟩ | ⟨hkey, hvalue⟩ | ⟨hold, hlt⟩)
      · exact Or.inr ⟨ne_of_lt hlt, hold⟩
      · exact Or.inl ⟨hkey, hvalue⟩
      · exact Or.inr ⟨(ne_of_lt hlt).symm, hold⟩
    · rintro (hnew | ⟨hne, hold⟩)
      · exact Or.inr (Or.inl hnew)
      · rcases lt_or_gt_of_ne hne with hlt | hgt
        · exact Or.inl ⟨hold, hlt⟩
        · exact Or.inr (Or.inr ⟨hold, hgt⟩)
  split
  · rename_i heq
    exact mem_entries.mp ((hmem value).mpr (Or.inl ⟨heq, rfl⟩))
  rename_i hne
  cases hlookup : m.lookup key' with
  | none =>
    refine lookup_eq_none.mpr fun value' h => ?_
    rcases (hmem value').mp h with ⟨heq, _⟩ | ⟨_, hold⟩
    · exact hne heq
    · exact lookup_eq_none.mp hlookup _ hold
  | some value' =>
    exact mem_entries.mp ((hmem value').mpr (Or.inr ⟨hne, mem_entries.mpr hlookup⟩))

@[simp] theorem lookup_insert_self : (m.insert key value).lookup key = some value := by
  rw [lookup_insert, if_pos rfl]

theorem lookup_insert_of_ne (h : key' ≠ key) :
    (m.insert key value).lookup key' = m.lookup key' := by
  rw [lookup_insert, if_neg h]

theorem adjust_of_lookup (f : α → α) (h : m.lookup key = some value) :
    m.adjust key f = m.insert key (f value) := by
  refine ext_lookup fun other => ?_
  rw [lookup_adjust, lookup_insert]
  split
  · rename_i heq
    rw [heq, h]
    rfl
  · rfl

theorem insert_insert : (m.insert key value).insert key value' = m.insert key value' := by
  refine ext_lookup fun other => ?_
  rw [lookup_insert, lookup_insert, lookup_insert]
  split <;> rfl

/-- An insertion changes a map unless the map already holds the entry. -/
theorem insert_eq_self : m.insert key value = m ↔ m.lookup key = some value := by
  constructor
  · intro h
    rw [← h]
    exact lookup_insert_self
  · intro h
    refine ext_lookup fun other => ?_
    rw [lookup_insert]
    split
    · rename_i heq
      rw [heq, h]
    · rfl

theorem entries_insert_last (h : ∀ entry ∈ m.entries, entry.1 < key) :
    (m.insert key value).entries = m.entries ++ [(key, value)] := by
  unfold insert
  dsimp only
  rw [List.filter_eq_self.mpr fun entry hentry => decide_eq_true (h entry hentry),
    List.filter_eq_nil_iff.mpr fun entry hentry => by
      simp only [decide_eq_true_eq]
      exact not_lt_of_gt (h entry hentry)]

/-- A map is its entry at a key and the rest. -/
theorem perm_erase (h : m.lookup key = some value) :
    m.entries.Perm ((key, value) :: (m.erase key).entries) := by
  have hmem := mem_entries.mpr h
  have hnodup := m.nodup_keys
  change m.entries.Perm (_ :: m.entries.filter fun entry => entry.1 ≠ key)
  generalize m.entries = entries at hmem hnodup
  induction entries with
  | nil => cases hmem
  | cons entry _ ih =>
    rw [map_cons, nodup_cons] at hnodup
    obtain ⟨hnew, hrest⟩ := hnodup
    rcases List.mem_cons.mp hmem with heq | hin
    · subst heq
      rw [filter_cons_of_neg (by simp), List.filter_eq_self.mpr fun other hother => ?_]
      exact decide_eq_true fun hkey => hnew (hkey ▸ List.mem_map.mpr ⟨other, hother, rfl⟩)
    · have hne : entry.1 ≠ key := fun hkey =>
        hnew (hkey ▸ List.mem_map.mpr ⟨(key, value), hin, rfl⟩)
      rw [filter_cons_of_pos (by simpa using hne)]
      exact ((ih hin hrest).cons entry).trans (List.Perm.swap _ _ _)

theorem sum_erase (f : κ × α → ℕ) (h : m.lookup key = some value) :
    f (key, value) + ((m.erase key).entries.map f).sum = (m.entries.map f).sum := by
  rw [((perm_erase h).map f).sum_nat, map_cons, sum_cons]

theorem size_erase (h : m.lookup key = some value) : (m.erase key).size + 1 = m.size :=
  (perm_erase h).length_eq.symm

/-- A map after an insertion is the new entry and the rest. -/
theorem perm_insert :
    (m.insert key value).entries.Perm ((key, value) :: (m.erase key).entries) := by
  have herase : (m.insert key value).erase key = m.erase key := by
    refine ext_lookup fun other => ?_
    rw [lookup_erase, lookup_erase, lookup_insert]
    split <;> rfl
  rw [← herase]
  exact perm_erase lookup_insert_self

theorem erase_of_lookup (h : m.lookup key = none) : m.erase key = m := by
  refine ext_lookup fun other => ?_
  rw [lookup_erase]
  split
  · rename_i heq
    rw [heq, h]
  · rfl

theorem sum_insert (f : κ × α → ℕ) :
    ((m.insert key value).entries.map f).sum + ((m.lookup key).elim 0 fun old => f (key, old)) =
      (m.entries.map f).sum + f (key, value) := by
  rw [(perm_insert.map f).sum_nat, map_cons, sum_cons]
  cases hold : m.lookup key with
  | none =>
    rw [erase_of_lookup hold, elim_none]
    omega
  | some =>
    have hsum := sum_erase f hold
    rw [elim_some]
    omega

theorem sum_insert_new (f : κ × α → ℕ) (h : m.lookup key = none) (value : α) :
    ((m.insert key value).entries.map f).sum = (m.entries.map f).sum + f (key, value) := by
  have hsum : ((m.insert key value).entries.map f).sum +
      ((m.lookup key).elim 0 fun old => f (key, old)) = _ := sum_insert f
  rw [h, elim_none, Nat.add_zero] at hsum
  exact hsum

theorem size_insert_new (h : m.lookup key = none) : (m.insert key value).size = m.size + 1 := by
  have hsize : (m.insert key value).size = (m.erase key).size + 1 := perm_insert.length_eq
  rw [hsize, erase_of_lookup h]

theorem size_insert_some (h : m.lookup key = some value') : (m.insert key value).size = m.size := by
  have hsize : (m.insert key value).size = (m.erase key).size + 1 := perm_insert.length_eq
  rw [hsize, size_erase h]

theorem sum_filter_le (f : κ × α → ℕ) (keep : κ × α → Bool) :
    ((m.filter keep).entries.map f).sum ≤ (m.entries.map f).sum := by
  change ((m.entries.filter keep).map f).sum ≤ _
  induction m.entries with
  | nil => exact Nat.le_refl _
  | cons _ _ ih =>
    rw [filter_cons, map_cons, sum_cons]
    split
    · rw [map_cons, sum_cons]
      exact Nat.add_le_add_left ih _
    · exact Nat.le_add_left_of_le ih

theorem size_filter_le (keep : κ × α → Bool) : (m.filter keep).size ≤ m.size :=
  length_filter_le _ _

@[simp] theorem size_mapValues : (m.mapValues f).size = m.size :=
  length_map _

@[simp] theorem size_adjust (f : α → α) : (m.adjust key f).size = m.size := size_mapValues _

/-- A sum over the entries that a change of the values leaves alone. -/
theorem sum_mapValues (g : κ × β → ℕ) (g' : κ × α → ℕ)
    (h : ∀ key value, m.lookup key = some value → g (key, f key value) = g' (key, value)) :
    ((m.mapValues f).entries.map g).sum = (m.entries.map g').sum := by
  change ((m.entries.map _).map g).sum = _
  rw [List.map_map]
  exact congrArg List.sum (map_congr_left fun entry hentry =>
    h entry.1 entry.2 (mem_entries.mp hentry))

/-! ### Counting -/

/-- A sum over entries that each have their like in another map is no greater than that map's. -/
theorem sum_le_of_lookup (f : κ × α → ℕ) (h : ∀ key value, m.lookup key = some value →
    f (key, value) = 0 ∨ ∃ value', n.lookup key = some value' ∧ f (key, value) ≤ f (key, value')) :
    (m.entries.map f).sum ≤ (n.entries.map f).sum := by
  have hlike : ∀ entry ∈ m.entries, f entry = 0 ∨
      ∃ value', n.lookup entry.1 = some value' ∧ f entry ≤ f (entry.1, value') :=
    fun entry hentry => h entry.1 entry.2 (mem_entries.mp hentry)
  have hnodup := m.nodup_keys
  clear h
  generalize m.entries = entries at hlike hnodup
  induction entries generalizing n with
  | nil => exact Nat.zero_le _
  | cons entry _ ih =>
    rw [map_cons, nodup_cons] at hnodup
    obtain ⟨hnew, hrest⟩ := hnodup
    have hlater := fun other hother => hlike other (mem_cons_of_mem entry hother)
    rw [map_cons, sum_cons]
    rcases hlike entry mem_cons_self with hzero | ⟨_, hvalue', hle⟩
    · rw [hzero, Nat.zero_add]
      exact ih hlater hrest
    -- the entry's like leaves the other map, and the others keep theirs
    rw [← sum_erase f hvalue']
    refine Nat.add_le_add hle (ih (fun other hother => ?_) hrest)
    refine (hlater other hother).imp_right fun ⟨value, hvalue, hle⟩ => ⟨value, ?_, hle⟩
    have hne : other.1 ≠ entry.1 :=
      fun hkey => hnew (hkey ▸ List.mem_map.mpr ⟨other, hother, rfl⟩)
    rw [lookup_erase, if_neg hne]
    exact hvalue

/-- A sum only depends on what the summands depend on. -/
theorem sum_eq_of_lookup (f : κ × α → ℕ) (g : α → β)
    (h : ∀ key, (n.lookup key).map g = (m.lookup key).map g)
    (hf : ∀ key value value', g value = g value' → f (key, value) = f (key, value')) :
    (n.entries.map f).sum = (m.entries.map f).sum := by
  have hle : ∀ m n : SortedMap κ α, (∀ key, (n.lookup key).map g = (m.lookup key).map g) →
      (m.entries.map f).sum ≤ (n.entries.map f).sum := by
    intro m n h
    refine sum_le_of_lookup f fun key value hvalue => Or.inr ?_
    have hsame := h key
    rw [hvalue, map_some] at hsame
    obtain ⟨value', hvalue', heq⟩ := Option.map_eq_some_iff.mp hsame
    exact ⟨value', hvalue', Nat.le_of_eq (hf key value value' heq.symm)⟩
  exact Nat.le_antisymm (hle n m fun key => (h key).symm) (hle m n h)

/-- How many keys of a map are of a kind. -/
def count (m : SortedMap κ α) (kind : κ → Bool) : ℕ :=
  (m.entries.map fun entry => (kind entry.1).toNat).sum

theorem count_le_of_keys {kind : κ → Bool}
    (h : ∀ key, (m.lookup key).isSome → (n.lookup key).isSome) : m.count kind ≤ n.count kind := by
  refine sum_le_of_lookup _ fun key value hvalue => Or.inr ?_
  obtain ⟨value', hvalue'⟩ := Option.isSome_iff_exists.mp (h key (by rw [hvalue]; rfl))
  exact ⟨value', hvalue', Nat.le_refl _⟩

theorem count_insert_new (h : m.lookup key = none) :
    (m.insert key value).count kind = m.count kind + (kind key).toNat := by
  have hsum : (m.insert key value).count kind +
      ((m.lookup key).elim 0 fun _ => (kind key).toNat) = m.count kind + (kind key).toNat :=
    sum_insert fun entry => (kind entry.1).toNat
  rw [h] at hsum
  exact hsum

theorem count_insert_some (h : m.lookup key = some value') :
    (m.insert key value).count kind = m.count kind := by
  have hsum : (m.insert key value).count kind +
      ((m.lookup key).elim 0 fun _ => (kind key).toNat) = m.count kind + (kind key).toNat :=
    sum_insert fun entry => (kind entry.1).toNat
  rw [h] at hsum
  exact Nat.add_right_cancel hsum

theorem count_erase (h : m.lookup key = some value) :
    (m.erase key).count kind + (kind key).toNat = m.count kind :=
  (Nat.add_comm _ _).trans (sum_erase (fun entry => (kind entry.1).toNat) h)

/-! ### Changing the values before or after -/

theorem mapValues_mapValues {γ : Type*} (g : κ → β → γ) :
    (m.mapValues f).mapValues g = m.mapValues fun key value => g key (f key value) :=
  ext (map_map)

theorem erase_mapValues : (m.mapValues f).erase key = (m.erase key).mapValues f :=
  ext (filter_map)

theorem mapValues_congr {f g : κ → α → β}
    (h : ∀ key value, m.lookup key = some value → f key value = g key value) :
    m.mapValues f = m.mapValues g := by
  refine ext (map_congr_left fun entry hentry => ?_)
  rw [h entry.1 entry.2 (mem_entries.mp hentry)]

theorem mapValues_eq_self {f : κ → α → α}
    (h : ∀ key value, m.lookup key = some value → f key value = value) : m.mapValues f = m := by
  refine ext ((map_congr_left fun entry hentry => ?_).trans (map_id _))
  rw [h entry.1 entry.2 (mem_entries.mp hentry)]
  rfl

theorem insert_mapValues :
    (m.mapValues f).insert key (f key value) = (m.insert key value).mapValues f := by
  refine ext ?_
  change (m.entries.map _).filter _ ++ _ :: (m.entries.map _).filter _ = (_ ++ _ :: _).map _
  rw [List.filter_map, List.filter_map, map_append, map_cons]
  rfl

/-- A change of one value and a change of all that does not interfere. -/
theorem adjust_mapValues {g : β → β} {g' : α → α}
    (h : ∀ value, g (f key value) = f key (g' value)) :
    (m.mapValues f).adjust key g = (m.adjust key g').mapValues f := by
  unfold adjust
  rw [mapValues_mapValues, mapValues_mapValues]
  refine mapValues_congr fun other value _ => ?_
  split
  · rename_i heq
    rw [heq]
    exact h value
  · rfl

end SortedMap

end Vivido
