import Mathlib.Data.List.Nodup
import Mathlib.Tactic.Choose

/-!
Hints chosen by their labels. A label ends in a character of the alphabet's head and
has only characters of its tail before, counted up like the digits of a number.
-/

namespace Vivido.Display

open List

/-- What stays of the generator. The split is a rounded share of the alphabet. -/
structure HintLabels where
  alphabet : List Char
  splitPoint : ℕ

namespace HintLabels

variable (g : HintLabels)

/-- The loop of `increment` over the indices after the first. -/
def carry : List ℕ → List ℕ
  | [] => [g.splitPoint + 1]
  | index :: rest =>
    if index + 1 = g.alphabet.length then (g.splitPoint + 1) :: carry rest
    else (index + 1) :: rest

def increment : List ℕ → List ℕ
  | [] => []
  | tail :: rest => if tail < g.splitPoint then (tail + 1) :: rest else 0 :: g.carry rest

/-- The indices after some labels, that of the last character first. -/
def indices : ℕ → List ℕ
  | 0 => [0]
  | count + 1 => g.increment (indices count)

/-- `next`, where no index is outside the alphabet. -/
def label (count : ℕ) : Option (List Char) := (g.indices count).reverse.mapM (g.alphabet[·]?)

end HintLabels

structure HintState (M : Type) where
  /-- Whether the hint persists. -/
  hint : Option Bool
  matches_ : List M := []
  labels : List (List Char) := []
  keys : List Char := []

namespace HintState

variable {M : Type}

section

variable (g : HintLabels) (found : List M) (s : HintState M)

def stop : HintState M := { hint := none }

/-- What is left to type of a label. -/
def left (keys label : List Char) : List Char :=
  if keys.isPrefixOf label then label.drop keys.length else []

/-- The last match has the first label. -/
def updateMatches : Option (HintState M) :=
  if s.hint = none then some s
  else if found = [] then some stop
  else do
    let labels ← (List.range found.length).mapM fun i =>
      (g.label (found.length - 1 - i)).map (left s.keys)
    return { s with matches_ := found, labels }

/-- Backspace and escape. -/
def press (c : Char) : HintState M :=
  if c ∈ ['\x08', '\x1f'] then { s with keys := s.keys.dropLast }
  else if c ∈ ['\x1b', '\x03'] then stop
  else s

def keyboardInput (c : Char) : Option (Option M × HintState M) := do
  let s ← updateMatches g found (s.press c)
  match s.hint, (List.range s.labels.length).reverse.find? fun i =>
      (s.labels.getD i []).head? = some c with
  | some persist, some i =>
    if (s.labels.getD i []).length = 1 then
      return (s.matches_[i]?, if persist then { s with keys := [] } else stop)
    else return (none, { s with keys := s.keys ++ [c] })
  | _, _ => return (none, s)

/-- What the keys choose, one after the other. -/
def typed (s : HintState M) : List Char → Option (List (Option M))
  | [] => some []
  | c :: rest => do
    let (chosen, s) ← keyboardInput g found s c
    return chosen :: (← typed s rest)

end

end HintState

namespace HintLabels

/-- The characters differ, no label ends in one of them, and none is a control. -/
structure Split (g : HintLabels) : Prop where
  nodup : g.alphabet.Nodup
  tail : g.splitPoint + 1 < g.alphabet.length
  plain : ∀ c ∈ g.alphabet, c ∉ ['\x08', '\x1f', '\x1b', '\x03']

def number (g : HintLabels) : List ℕ → ℕ
  | [] => 0
  | index :: rest => index - g.splitPoint + (g.alphabet.length - g.splitPoint - 1) * g.number rest

variable {g : HintLabels} (h : g.Split)
include h

theorem Split.carry {rest : List ℕ}
    (hrest : ∀ index ∈ rest, g.splitPoint < index ∧ index < g.alphabet.length) :
    (∀ index ∈ g.carry rest, g.splitPoint < index ∧ index < g.alphabet.length) ∧
      g.number (g.carry rest) = g.number rest + 1 := by
  have := h.tail
  induction rest with
  | nil => simp [HintLabels.carry, number, this]
  | cons index rest ih =>
    obtain ⟨hindex, hrest⟩ := forall_mem_cons.mp hrest
    obtain ⟨hcarry, hnumber⟩ := ih hrest
    unfold HintLabels.carry
    split
    · refine ⟨forall_mem_cons.mpr ⟨by omega, hcarry⟩, ?_⟩
      rw [number, number, hnumber, Nat.mul_add]
      omega
    · refine ⟨forall_mem_cons.mpr ⟨by omega, hrest⟩, ?_⟩
      rw [number, number]
      omega

/-- Only the last index is of the head, and the indices stand for the number of labels before. -/
theorem Split.indices (count : ℕ) : ∃ tail rest, g.indices count = tail :: rest ∧
    tail ≤ g.splitPoint ∧ (∀ index ∈ rest, g.splitPoint < index ∧ index < g.alphabet.length) ∧
      tail + (g.splitPoint + 1) * g.number rest = count := by
  induction count with
  | zero => exact ⟨0, [], rfl, Nat.zero_le _, by simp, rfl⟩
  | succ count ih =>
    obtain ⟨tail, rest, hindices, htail, hrest, hcount⟩ := ih
    obtain ⟨hcarry, hnumber⟩ := h.carry hrest
    rw [HintLabels.indices, hindices, increment]
    split
    · exact ⟨_, _, rfl, by omega, hrest, by omega⟩
    · refine ⟨_, _, rfl, Nat.zero_le _, hcarry, ?_⟩
      rw [hnumber, Nat.mul_add]
      omega

theorem Split.label (count : ℕ) : ∃ label, g.label count = some label ∧ label ⊆ g.alphabet ∧
    label.map g.alphabet.idxOf = (g.indices count).reverse := by
  have hin : ∀ index ∈ (g.indices count).reverse, index < g.alphabet.length := by
    obtain ⟨tail, rest, hindices, htail, hrest, -⟩ := h.indices count
    have := h.tail
    rw [hindices]
    intro index hindex
    rcases mem_cons.mp (mem_reverse.mp hindex) with rfl | hmem
    · omega
    · exact (hrest index hmem).2
  unfold HintLabels.label
  generalize (g.indices count).reverse = indices at *
  induction indices with
  | nil => exact ⟨[], rfl, nil_subset _, rfl⟩
  | cons index rest ih =>
    obtain ⟨hindex, hrest⟩ := forall_mem_cons.mp hin
    obtain ⟨label, hlabel, hsubset, hmap⟩ := ih hrest
    refine ⟨g.alphabet[index] :: label, by simp [hlabel, hindex], ?_, ?_⟩
    · exact cons_subset.mpr ⟨getElem_mem hindex, hsubset⟩
    · rw [map_cons, h.nodup.idxOf_getElem, hmap]

/-- No label begins with another. -/
theorem Split.eq_of_begins {i j : ℕ} {label other : List Char} (hlabel : g.label i = some label)
    (hother : g.label j = some other) (hbegins : label <+: other) : i = j := by
  obtain ⟨_, hi, -, hmapi⟩ := h.label i
  obtain ⟨_, hj, -, hmapj⟩ := h.label j
  cases hi.symm.trans hlabel
  cases hj.symm.trans hother
  have hsuffix := hbegins.map g.alphabet.idxOf
  rw [hmapi, hmapj, reverse_prefix] at hsuffix
  obtain ⟨tail, rest, hindices, htail, -, hcount⟩ := h.indices i
  obtain ⟨tail', rest', hindices', -, hrest', hcount'⟩ := h.indices j
  rw [hindices, hindices'] at hsuffix
  rcases suffix_cons_iff.mp hsuffix with heq | hlong
  · cases heq
    omega
  · have := (hrest' tail (hlong.subset (by simp))).1
    omega

end HintLabels

namespace HintState

variable {M : Type} {g : HintLabels} {found : List M} {s : HintState M} {keys label : List Char}
  {c : Char}

theorem left_append (rest : List Char) : left keys (keys ++ rest) = rest := by
  simp [left]

theorem left_of_head (h : (left keys label).head? = some c) :
    ∃ rest, label = keys ++ c :: rest := by
  unfold left at h
  split at h
  · rename_i hbegins
    obtain ⟨_, rfl⟩ := isPrefixOf_iff_prefix.mp hbegins
    rw [drop_left] at h
    obtain ⟨rest, rfl⟩ := head?_eq_some_iff.mp h
    exact ⟨rest, rfl⟩
  · cases h

theorem updateMatches_eq {text : ℕ → List Char} (htext : ∀ count, g.label count = some (text count))
    (hfound : found ≠ []) (hhint : s.hint ≠ none) : updateMatches g found s = some { s with
      matches_ := found
      labels := (List.range found.length).map fun i =>
        left s.keys (text (found.length - 1 - i)) } := by
  unfold updateMatches
  simp only [if_neg hhint, if_neg hfound, htext, Option.map_some]
  simp only [← Option.pure_def, mapM_pure]
  rfl

theorem typed_label (h : g.Split) {persist : Bool} (hhint : s.hint = some persist) {i : ℕ}
    (hi : i < found.length) {rest : List Char} (hrest : rest ≠ [])
    (hlabel : g.label (found.length - 1 - i) = some (s.keys ++ rest)) :
    typed g found s rest = some (replicate (rest.length - 1) none ++ [found[i]?]) := by
  choose text htext hsubset _ using h.label
  induction rest generalizing s with
  | nil => exact absurd rfl hrest
  | cons c rest ih =>
    have htexti := Option.some.inj ((htext _).symm.trans hlabel)
    have hpress : s.press c = s := by
      have hc := h.plain c (hsubset (found.length - 1 - i) (htexti ▸ by simp))
      simp only [mem_cons, not_mem_nil, or_false, not_or] at hc
      simp [press, hc]
    have hupdate := updateMatches_eq htext (ne_nil_of_length_pos (Nat.zero_lt_of_lt hi))
      (s := s) (by simp [hhint])
    generalize hlabels : (List.range found.length).map _ = labels at hupdate
    have hget : ∀ j < found.length,
        labels.getD j [] = left s.keys (text (found.length - 1 - j)) := by
      intro j hj
      simp [← hlabels, hj]
    have hlength : labels.length = found.length := by simp [← hlabels]
    unfold typed keyboardInput
    rw [hpress, hupdate]
    dsimp only [Option.bind_eq_bind, Option.bind_some]
    simp only [hhint]
    cases hfind : (List.range labels.length).reverse.find? fun j =>
        (labels.getD j []).head? = some c with
    | none =>
      have := List.find?_eq_none.mp hfind i (by simp [hlength, hi])
      rw [hget i hi, htexti, left_append] at this
      simp at this
    | some j =>
      have hj : j < found.length := by simpa [hlength] using mem_of_find?_eq_some hfind
      have hhead := find?_some hfind
      rw [decide_eq_true_iff, hget j hj] at hhead
      obtain ⟨rest', htextj⟩ := left_of_head hhead
      -- where one of the labels ends, they are one
      have hsame : rest' = [] ∨ rest = [] → j = i := by
        intro hlast
        have heq : found.length - 1 - j = found.length - 1 - i := by
          rcases hlast with rfl | rfl
          · exact h.eq_of_begins (htext _) hlabel ⟨rest, by simp [htextj]⟩
          · exact (h.eq_of_begins hlabel (htext _) ⟨rest', by simp [htextj]⟩).symm
        omega
      dsimp only
      rw [hget j hj, htextj, left_append]
      by_cases hlast : rest = []
      · obtain rfl := hsame (Or.inr hlast)
        subst hlast
        simp only [htexti, append_cancel_left_eq, cons.injEq, true_and] at htextj
        subst htextj
        rfl
      · rw [if_neg]
        · dsimp only [Option.pure_def, Option.bind_some]
          rw [ih (s := ⟨some persist, found, labels, s.keys ++ [c]⟩) rfl hlast
            (by simpa using hlabel)]
          obtain ⟨_, _, rfl⟩ := exists_cons_of_ne_nil hlast
          rfl
        · intro hone
          obtain rfl : rest' = [] := by simpa using hone
          obtain rfl := hsame (Or.inl rfl)
          simp [htexti] at htextj
          exact hlast htextj

/-- A match has a label that no other label begins with, and whatever was typed before, once it is
a beginning of the label, the rest chooses the match with its last character and nothing before. -/
theorem labels_choose (h : g.Split) (found : List M) {i : ℕ} (hi : i < found.length) :
    ∃ label, g.label (found.length - 1 - i) = some label ∧
      (∀ count other, g.label count = some other → label <+: other →
        count = found.length - 1 - i) ∧
      ∀ (s : HintState M) persist rest, s.hint = some persist → s.keys ++ rest = label →
        rest ≠ [] →
          typed g found s rest = some (replicate (rest.length - 1) none ++ [found[i]?]) := by
  obtain ⟨label, hlabel, -⟩ := h.label (found.length - 1 - i)
  refine ⟨label, hlabel, ?_, ?_⟩
  · intro count other hother hbegins
    exact (h.eq_of_begins hlabel hother hbegins).symm
  · rintro s persist rest hhint rfl hrest
    exact typed_label h hhint hi hrest hlabel

theorem labels_choose_last :
    typed ⟨['a', 'b'], 0⟩ [10, 20, 30] { hint := some true, keys := ['b'] } ['b', 'a'] =
      some [none, some 10] := by
  obtain ⟨_, hlabel, -, hchoose⟩ := labels_choose (g := ⟨['a', 'b'], 0⟩)
    ⟨by decide, by decide, by simp⟩ [10, 20, 30] (i := 0) (by decide)
  cases (show _ = some ['b', 'b', 'a'] from rfl).symm.trans hlabel
  exact hchoose _ true ['b', 'a'] rfl rfl (by simp)

end HintState

end Vivido.Display
