import Mathlib.Data.Char
import Mathlib.Data.List.Lex
import Mathlib.Tactic.Tauto
import Vivido.Support.SortedMap

/-!
The JSON documents that an automation plan is made of, and the walk through one
that its substitutions share: it leaves reference objects to their own rule,
and builds each other object anew from its rewritten entries.
-/

namespace Vivido.Plan

open SortedMap List

/-- A JSON document; the entries of an object stand in the order of their keys. -/
inductive Value (N : Type) where
  | null
  | bool (value : Bool)
  | number (value : N)
  | string (text : List Char)
  | array (values : List (Value N))
  | object (entries : List (List Char × Value N))

variable {N E : Type}

namespace Value

def refKey : List Char := "$ref".toList

/-- `map.len() == 1 && map.contains_key("$ref")`. -/
def isReference (entries : List (List Char × Value N)) : Bool :=
  entries.length = 1 && entries.any fun entry => entry.1 = refKey

/-- Entries collected into a map: the later of two with one key stays. -/
def collect (entries : List (List Char × Value N)) : List (List Char × Value N) :=
  (entries.foldl (fun map entry => map.insert entry.1 entry.2) SortedMap.empty).entries

mutual

/-- A document with its texts, keys and reference objects rewritten. -/
def rewrite (onText onKey : List Char → Except E (List Char))
    (onReference : List (List Char × Value N) → Except E (Value N)) :
    Value N → Except E (Value N)
  | .string text => (onText text).map .string
  | .array values => (rewriteValues onText onKey onReference values).map .array
  | .object entries =>
    if isReference entries then onReference entries
    else (rewriteEntries onText onKey onReference entries).map fun entries =>
      .object (collect entries)
  | value => .ok value

def rewriteValues (onText onKey : List Char → Except E (List Char))
    (onReference : List (List Char × Value N) → Except E (Value N)) :
    List (Value N) → Except E (List (Value N))
  | [] => .ok []
  | value :: values => do
    let value ← rewrite onText onKey onReference value
    let values ← rewriteValues onText onKey onReference values
    return value :: values

def rewriteEntries (onText onKey : List Char → Except E (List Char))
    (onReference : List (List Char × Value N) → Except E (Value N)) :
    List (List Char × Value N) → Except E (List (List Char × Value N))
  | [] => .ok []
  | (key, value) :: entries => do
    let key ← onKey key
    let value ← rewrite onText onKey onReference value
    let entries ← rewriteEntries onText onKey onReference entries
    return (key, value) :: entries

end

mutual

/-- A document and all that stands in it, reference objects being whole. -/
def inside : Value N → List (Value N)
  | .array values => .array values :: insideValues values
  | .object entries =>
    .object entries :: if isReference entries then [] else insideEntries entries
  | value => [value]

def insideValues : List (Value N) → List (Value N)
  | [] => []
  | value :: values => inside value ++ insideValues values

def insideEntries : List (List Char × Value N) → List (Value N)
  | [] => []
  | (_, value) :: entries => inside value ++ insideEntries entries

end

variable {onText onKey : List Char → Except E (List Char)}
  {onReference : List (List Char × Value N) → Except E (Value N)}

/-- What a part of a document needs for its rewriting to succeed. -/
def Rewritable (onText onKey : List Char → Except E (List Char))
    (onReference : List (List Char × Value N) → Except E (Value N)) : Value N → Prop
  | .string text => (onText text).isOk
  | .object entries =>
    if isReference entries then (onReference entries).isOk
    else ∀ entry ∈ entries, (onKey entry.1).isOk
  | _ => True

variable {α : Type}

@[simp] theorem isOk_ok (a : α) : (Except.ok a : Except E α).isOk = true := rfl

@[simp] theorem isOk_error (e : E) : (Except.error e : Except E α).isOk = false := rfl

@[simp] theorem isOk_map {β : Type} (f : α → β) (x : Except E α) : (x.map f).isOk = x.isOk := by
  cases x with
  | error | ok => rfl

theorem isOk_iff {x : Except E α} : x.isOk ↔ ∃ a, x = .ok a := by
  cases x with
  | error | ok => simp

theorem bind_ok {β : Type} {f : α → Except E β} {x : Except E α} {b : β} :
    x >>= f = .ok b ↔ ∃ a, x = .ok a ∧ f a = .ok b := by
  cases x with
  | error | ok => simp [bind, Except.bind]

mutual

/-- A document is rewritten if each of its parts is. -/
theorem isOk_rewrite : ∀ value : Value N, (rewrite onText onKey onReference value).isOk ↔
    ∀ part ∈ value.inside, part.Rewritable onText onKey onReference
  | .null => by simp [rewrite, inside, Rewritable]
  | .bool _ => by simp [rewrite, inside, Rewritable]
  | .number _ => by simp [rewrite, inside, Rewritable]
  | .string text => by simp [rewrite, inside, Rewritable]
  | .array values => by simp [rewrite, inside, Rewritable, isOk_rewriteValues values]
  | .object entries => by
    by_cases h : isReference entries
    · simp [rewrite, inside, Rewritable, h]
    · simp [rewrite, inside, Rewritable, h, isOk_rewriteEntries entries]

theorem isOk_rewriteValues : ∀ values : List (Value N),
    (rewriteValues onText onKey onReference values).isOk ↔
      ∀ part ∈ insideValues values, part.Rewritable onText onKey onReference
  | [] => by simp [rewriteValues, insideValues]
  | value :: values => by
    have hvalue := isOk_rewrite value
    have hvalues := isOk_rewriteValues values
    simp only [insideValues, mem_append, or_imp, forall_and, ← hvalue, ← hvalues, isOk_iff,
      rewriteValues, bind_ok]
    simp [pure, Except.pure]

theorem isOk_rewriteEntries : ∀ entries : List (List Char × Value N),
    (rewriteEntries onText onKey onReference entries).isOk ↔
      (∀ entry ∈ entries, (onKey entry.1).isOk) ∧
        ∀ part ∈ insideEntries entries, part.Rewritable onText onKey onReference
  | [] => by simp [rewriteEntries, insideEntries]
  | (key, value) :: entries => by
    have hvalue := isOk_rewrite value
    have hentries := isOk_rewriteEntries entries
    have hall : (rewriteEntries onText onKey onReference ((key, value) :: entries)).isOk ↔
        (onKey key).isOk ∧ (rewrite onText onKey onReference value).isOk ∧
          (rewriteEntries onText onKey onReference entries).isOk := by
      simp only [isOk_iff, rewriteEntries, bind_ok]
      simp [pure, Except.pure]
    simp only [insideEntries, mem_append, or_imp, forall_and, hall, hvalue, hentries,
      forall_mem_cons]
    tauto

end

/-! ### Entries that come to have one key -/

mutual

/-- The same document with other texts and keys: each element and entry is still there. -/
def Follows (filled : List Char → List Char → Prop) : Value N → Value N → Prop
  | .string text, other => ∃ text', filled text text' ∧ other = .string text'
  | .array values, other => ∃ values', FollowsValues filled values values' ∧ other = .array values'
  | .object entries, other =>
    if isReference entries then other = .object entries
    else ∃ entries' collected, FollowsEntries filled entries entries' ∧
      collected.Perm entries' ∧ other = .object collected
  | value, other => other = value

def FollowsValues (filled : List Char → List Char → Prop) :
    List (Value N) → List (Value N) → Prop
  | [], others => others = []
  | value :: values, others => ∃ value' values', Follows filled value value' ∧
      FollowsValues filled values values' ∧ others = value' :: values'

def FollowsEntries (filled : List Char → List Char → Prop) :
    List (List Char × Value N) → List (List Char × Value N) → Prop
  | [], others => others = []
  | (key, value) :: entries, others => ∃ key' value' entries', filled key key' ∧
      Follows filled value value' ∧ FollowsEntries filled entries entries' ∧
      others = (key', value') :: entries'

end

/-- No two keys of an object come to read the same. -/
def KeysApart (filled : List Char → List Char → Prop) : Value N → Prop
  | .object entries => isReference entries ∨
      entries.Pairwise fun entry other => ∀ key, filled entry.1 key → ¬filled other.1 key
  | _ => True

theorem collect_append (entries : List (List Char × Value N)) (map : SortedMap (List Char) (Value N))
    (hnodup : (map.entries.map Prod.fst ++ entries.map Prod.fst).Nodup) :
    (entries.foldl (fun map entry => map.insert entry.1 entry.2) map).entries.Perm
      (map.entries ++ entries) := by
  induction entries generalizing map with
  | nil => simp
  | cons entry _ ih =>
    have hnew : map.lookup entry.1 = none := by
      rw [lookup_eq_none]
      intro _ hmem
      rw [map_cons, nodup_append] at hnodup
      exact hnodup.2.2 _ (mem_map_of_mem hmem) _ mem_cons_self rfl
    have hinsert : (map.insert entry.1 entry.2).entries.Perm (entry :: map.entries) := by
      have hperm : (map.insert entry.1 entry.2).entries.Perm _ := perm_insert
      rwa [erase_of_lookup hnew] at hperm
    refine (ih _ ?_).trans ((hinsert.append_right _).trans List.perm_middle.symm)
    refine (((hinsert.map Prod.fst).append_right _).nodup_iff).mpr ?_
    exact (List.perm_middle.nodup_iff).mp hnodup

variable {entries others : List (List Char × Value N)}

/-- Nothing is lost in collecting entries exactly if their keys differ. -/
theorem collect_perm (h : (entries.map Prod.fst).Nodup) : (collect entries).Perm entries :=
  collect_append entries SortedMap.empty h

theorem eq_of_perm_of_keys (hperm : entries.Perm others)
    (hkeys : entries.map Prod.fst = others.map Prod.fst) (hnodup : (entries.map Prod.fst).Nodup) :
    entries = others := by
  induction entries generalizing others with
  | nil => exact (List.nil_perm.mp hperm).symm
  | cons _ _ ih =>
    cases others with
    | nil => cases hkeys
    | cons =>
      obtain ⟨_, hrest⟩ := List.cons.inj hkeys
      obtain ⟨hnew, hnodup⟩ := List.nodup_cons.mp hnodup
      rcases List.mem_cons.mp (hperm.mem_iff.mp mem_cons_self) with rfl | hmem
      · rw [ih (perm_cons _ |>.mp hperm) hrest hnodup]
      · refine absurd ?_ hnew
        rw [hrest]
        exact mem_map_of_mem hmem

variable {f : List Char → Except E (List Char)}

theorem keys_rewriteEntries {written : List (List Char × Value N)}
    (h : rewriteEntries onText f onReference entries = .ok written) :
    List.Forall₂ (fun entry key => f entry.1 = .ok key) entries (written.map Prod.fst) := by
  induction entries generalizing written with
  | nil =>
    cases h
    exact .nil
  | cons _ _ ih =>
    obtain ⟨_, hkey, h⟩ := bind_ok.mp h
    obtain ⟨_, -, h⟩ := bind_ok.mp h
    obtain ⟨_, hrest, h⟩ := bind_ok.mp h
    cases h
    exact .cons hkey (ih hrest)

theorem keys_followsEntries (h : FollowsEntries (f · = .ok ·) entries others) :
    List.Forall₂ (fun entry key => f entry.1 = .ok key) entries (others.map Prod.fst) := by
  induction entries generalizing others with
  | nil =>
    cases h
    exact .nil
  | cons _ _ ih =>
    obtain ⟨_, _, _, hkey, -, hrest, rfl⟩ := h
    exact .cons hkey (ih hrest)

section

variable {keys : List (List Char)}
  (h : List.Forall₂ (fun entry key => f entry.1 = .ok key) entries keys)
include keys h

theorem mem_iff_of_keys (key : List Char) :
    key ∈ keys ↔ ∃ entry ∈ entries, f entry.1 = .ok key := by
  induction h with
  | nil => simp
  | cons hfirst _ ih =>
    simp only [mem_cons, ih, or_and_right, exists_or, exists_eq_left, hfirst,
      Except.ok.injEq, eq_comm (a := key)]

theorem nodup_iff_of_keys :
    keys.Nodup ↔ entries.Pairwise fun entry other =>
      ∀ key, f entry.1 = .ok key → ¬f other.1 = .ok key := by
  induction h with
  | nil => simp
  | @cons entry key entries keys hkey hrest ih =>
    rw [nodup_cons, pairwise_cons, ih, mem_iff_of_keys hrest, hkey]
    simp

end

mutual

/-- What a rewriting that leaves references alone loses is where the keys of an object meet. -/
theorem follows_rewrite : ∀ {value written : Value N},
    rewrite f f (fun entries => .ok (.object entries)) value = .ok written →
      (Follows (f · = .ok ·) value written ↔
        ∀ part ∈ value.inside, part.KeysApart (f · = .ok ·))
  | .null, _, h => by
    cases h
    simp [Follows, inside, KeysApart]
  | .bool _, _, h => by
    cases h
    simp [Follows, inside, KeysApart]
  | .number _, _, h => by
    cases h
    simp [Follows, inside, KeysApart]
  | .string text, written, h => by
    rw [rewrite] at h
    cases htext : f text with
    | error =>
      rw [htext] at h
      cases h
    | ok =>
      rw [htext] at h
      cases h
      simp [Follows, inside, KeysApart, htext]
  | .array values, written, h => by
    rw [rewrite] at h
    cases hvalues : rewriteValues f f (fun entries => .ok (.object entries)) values with
    | error =>
      rw [hvalues] at h
      cases h
    | ok =>
      rw [hvalues] at h
      cases h
      simp [Follows, inside, KeysApart, followsValues_rewrite hvalues]
  | .object entries, written, h => by
    rw [rewrite] at h
    split at h
    · rename_i href
      cases h
      simp [Follows, inside, KeysApart, href]
    rename_i href
    cases hentries : rewriteEntries f f (fun entries => .ok (.object entries)) entries with
    | error =>
      rw [hentries] at h
      cases h
    | ok entries' =>
      rw [hentries] at h
      cases h
      have hkeys := keys_rewriteEntries hentries
      have hfollows := followsEntries_rewrite hentries
      have hself : (object entries).KeysApart (f · = .ok ·) ↔ (entries'.map Prod.fst).Nodup := by
        rw [nodup_iff_of_keys hkeys, KeysApart]
        simp [href]
      rw [Follows, inside, if_neg href, if_neg href, forall_mem_cons, ← hfollows, hself]
      constructor
      · rintro ⟨others, _, hothers, hperm, heq⟩
        cases heq
        have hsame : others.map Prod.fst = entries'.map Prod.fst :=
          right_unique_forall₂' (fun _ _ _ h h' => Except.ok.inj (h.symm.trans h'))
            (keys_followsEntries hothers) hkeys
        have hnodup : (others.map Prod.fst).Nodup :=
          (hperm.map Prod.fst).nodup_iff.mp (nodup_keys _)
        rw [hsame] at hnodup
        refine ⟨hnodup, ?_⟩
        rw [eq_of_perm_of_keys ((collect_perm hnodup).symm.trans hperm) hsame.symm hnodup]
        exact hothers
      · rintro ⟨hnodup, hothers⟩
        exact ⟨entries', _, hothers, collect_perm hnodup, rfl⟩

theorem followsValues_rewrite : ∀ {values written : List (Value N)},
    rewriteValues f f (fun entries => .ok (.object entries)) values = .ok written →
      (FollowsValues (f · = .ok ·) values written ↔
        ∀ part ∈ insideValues values, part.KeysApart (f · = .ok ·))
  | [], _, h => by
    cases h
    simp [FollowsValues, insideValues]
  | value :: values, _, h => by
    obtain ⟨_, hvalue, h⟩ := bind_ok.mp h
    obtain ⟨_, hvalues, h⟩ := bind_ok.mp h
    cases h
    simp [FollowsValues, insideValues, or_imp, forall_and, ← follows_rewrite hvalue,
      ← followsValues_rewrite hvalues]

theorem followsEntries_rewrite : ∀ {entries written : List (List Char × Value N)},
    rewriteEntries f f (fun entries => .ok (.object entries)) entries = .ok written →
      (FollowsEntries (f · = .ok ·) entries written ↔
        ∀ part ∈ insideEntries entries, part.KeysApart (f · = .ok ·))
  | [], _, h => by
    cases h
    simp [FollowsEntries, insideEntries]
  | (key, value) :: entries, _, h => by
    obtain ⟨_, hkey, h⟩ := bind_ok.mp h
    obtain ⟨_, hvalue, h⟩ := bind_ok.mp h
    obtain ⟨_, hentries, h⟩ := bind_ok.mp h
    cases h
    simp [FollowsEntries, insideEntries, or_imp, forall_and, ← follows_rewrite hvalue,
      ← followsEntries_rewrite hentries, hkey]

end

end Value

end Vivido.Plan
