import Vivido.Support.Fitting

/-!
`StrShortener`, the iterator over a text cut to a number of columns. Widths of
characters come from a library.
-/

namespace Vivido.Text

open Fitting List

inductive TextAction where
  | spacer
  | terminate
  | shortener
  | char
  deriving DecidableEq

def TextAction.pending : TextAction → ℕ
  | .spacer | .shortener => 1
  | .terminate | .char => 0

theorem TextAction.pending_le (action : TextAction) : action.pending ≤ 1 := by
  cases action
  all_goals simp [pending]

inductive ShortenDirection where
  | left
  | right
  deriving DecidableEq

structure StrShortener where
  chars : List Char
  accumulatedLen : ℕ
  maxWidth : ℕ
  direction : ShortenDirection
  shortener : Option Char
  textAction : TextAction

/-- The loop over the characters from the end: how many it counts, their width with the
one it broke at, the shortener it leaves, and the characters it has not reached. -/
structure Counted where
  offset : ℕ
  currentLen : ℕ
  shortener : Option Char
  rest : List Char

variable (columns : Char → ℕ)

def count (maxWidth offset currentLen : ℕ) (shortener : Option Char) : List Char → Counted
  | [] => ⟨offset, currentLen, shortener, []⟩
  | ch :: rest =>
    let currentLen := currentLen + columns ch
    if maxWidth < currentLen then ⟨offset, currentLen, shortener, rest⟩
    else if currentLen = maxWidth then
      if shortener.isSome ∧ rest ≠ [] then ⟨offset, currentLen, shortener, rest⟩
      else count maxWidth (offset + 1) currentLen none rest
    else count maxWidth (offset + 1) currentLen shortener rest

namespace StrShortener

def new (text : List Char) (maxWidth : ℕ) (direction : ShortenDirection)
    (shortener : Option Char) : StrShortener :=
  let shortener := if text = [] then none else shortener
  match direction with
  | .right =>
    { chars := text
      accumulatedLen := 0
      maxWidth
      direction
      shortener
      textAction := .char }
  | .left =>
    let counted := count columns maxWidth 0 0 shortener text.reverse
    -- the last of the characters not reached is the first of the text
    let numChars :=
      if counted.rest = [] then counted.offset else counted.offset + 1 + counted.rest.length
    { chars := text.drop (numChars - counted.offset)
      accumulatedLen := 0
      maxWidth
      direction
      shortener := counted.shortener
      textAction :=
        if counted.currentLen < maxWidth ∨ counted.shortener = none then .char else .shortener }

def next (state : StrShortener) : Option Char × StrShortener :=
  match state.textAction with
  | .spacer => (some ' ', { state with textAction := .char })
  | .terminate => (none, state)
  | .shortener =>
    (state.shortener,
      { state with
        shortener := none
        textAction := if state.direction = .left then .char else .terminate })
  | .char =>
    match state.chars with
    | [] => (none, state)
    | ch :: chars =>
      let state := { state with
        chars
        accumulatedLen := state.accumulatedLen + columns ch }
      if state.maxWidth < state.accumulatedLen then
        (state.shortener, { state with textAction := .terminate })
      else if state.accumulatedLen = state.maxWidth ∧ state.shortener.isSome then
        (if chars = [] then some ch else state.shortener, { state with textAction := .terminate })
      else (some ch, if columns ch = 2 then { state with textAction := .spacer } else state)

/-- How many characters are still to come, at most. -/
def left (state : StrShortener) : ℕ := 2 * state.chars.length + state.textAction.pending

theorem next_left {state : StrShortener} (h : (state.next columns).1 ≠ none) :
    (state.next columns).2.left < state.left := by
  obtain ⟨chars, accumulatedLen, maxWidth, direction, shortener, textAction⟩ := state
  cases textAction with
  | spacer => simp [next, left, TextAction.pending]
  | terminate => exact absurd rfl h
  | shortener =>
    by_cases hleft : direction = .left
    · simp [next, left, TextAction.pending, hleft]
    · simp [next, left, TextAction.pending, hleft]
  | char =>
    cases chars with
    | nil => exact absurd rfl h
    | cons ch chars =>
      have hchars : (next columns ⟨ch :: chars, accumulatedLen, maxWidth, direction, shortener,
          .char⟩).2.chars = chars := by
        simp only [next]
        repeat' split
        all_goals rfl
      have hpending := (next columns ⟨ch :: chars, accumulatedLen, maxWidth, direction, shortener,
        .char⟩).2.textAction.pending_le
      unfold left
      rw [hchars, length_cons]
      omega

/-- All that the iterator yields. -/
def collect (state : StrShortener) : List Char :=
  match _h : (state.next columns).1 with
  | none => []
  | some c => c :: collect (state.next columns).2
termination_by state.left
decreasing_by exact next_left columns (by simp [_h])

end StrShortener

/-! ### What is shown -/

/-- A text with a spacer behind every wide character. -/
def spaced (text : List Char) : List Char :=
  text.flatMap fun ch => if columns ch = 2 then [ch, ' '] else [ch]

@[simp] theorem spaced_nil : spaced columns [] = [] := rfl

theorem spaced_cons (ch : Char) (text : List Char) : spaced columns (ch :: text) =
      ch :: if columns ch = 2 then ' ' :: spaced columns text else spaced columns text := by
  unfold spaced
  rw [flatMap_cons]
  split
  · rfl
  · rfl

theorem spaced_injective {text other : List Char} (h : spaced columns text = spaced columns other) :
    text = other := by
  induction text generalizing other with
  | nil =>
    cases other with
    | nil => rfl
    | cons => simp [spaced_cons] at h
  | cons ch _ ih =>
    cases other with
    | nil => simp [spaced_cons] at h
    | cons =>
      rw [spaced_cons, spaced_cons] at h
      obtain ⟨rfl, h⟩ := List.cons.inj h
      by_cases hwide : columns ch = 2
      · rw [if_pos hwide, if_pos hwide] at h
        rw [ih (List.cons.inj h).2]
      · rw [if_neg hwide, if_neg hwide] at h
        rw [ih h]

/-- The whole text, if need be without the spacer of its last character. -/
def Shows (output text : List Char) : Prop :=
  output = spaced columns text ∨ output ++ [' '] = spaced columns text

namespace StrShortener

variable {state : StrShortener}

theorem collect_cons {c : Char} (h : (state.next columns).1 = some c) :
    state.collect columns = c :: (state.next columns).2.collect columns := by
  rw [collect]
  split
  · next h' => exact absurd (h'.symm.trans h) (by simp)
  · next c' h' => rw [Option.some.inj (h'.symm.trans h)]

theorem collect_nil (h : (state.next columns).1 = none) : state.collect columns = [] := by
  rw [collect]
  split
  · rfl
  · next c' h' => exact absurd (h.symm.trans h') (by simp)

theorem collect_terminate (h : state.textAction = .terminate) : state.collect columns = [] :=
  collect_nil columns (by simp [next, h])

theorem collect_spacer (h : state.textAction = .spacer) :
    state.collect columns = ' ' :: { state with textAction := .char }.collect columns := by
  have hnext : state.next columns = (some ' ', { state with textAction := .char }) := by
    simp [next, h]
  rw [collect_cons columns (congrArg Prod.fst hnext), hnext]

section Chars

variable {columns} (text : List Char) (acc max : ℕ) (direction : ShortenDirection)

/-- A character that leaves room is yielded with its spacer. -/
theorem collect_char {ch : Char} {shortener : Option Char} (hfits : acc + columns ch ≤ max)
    (hroom : shortener = none ∨ acc + columns ch < max) :
    (StrShortener.mk (ch :: text) acc max direction shortener .char).collect columns =
      ch :: (if columns ch = 2 then (' ' :: ·) else id)
        ((StrShortener.mk text (acc + columns ch) max direction shortener .char).collect
          columns) := by
  have hnext : (StrShortener.mk (ch :: text) acc max direction shortener .char).next columns =
      (some ch, if columns ch = 2 then
          ⟨text, acc + columns ch, max, direction, shortener, .spacer⟩
        else ⟨text, acc + columns ch, max, direction, shortener, .char⟩) := by
    have hnot : ¬ (acc + columns ch = max ∧ shortener.isSome = true) := by
      rcases hroom with rfl | _
      · simp
      · omega
    simp only [next]
    rw [if_neg (by omega), if_neg hnot]
  rw [collect_cons columns (congrArg Prod.fst hnext), hnext]
  by_cases hwide : columns ch = 2
  · simp only [hwide, if_true]
    rw [collect_spacer columns rfl]
  · simp only [hwide, if_false]
    rfl

theorem collect_without {acc : ℕ} (hacc : acc ≤ max) :
    (StrShortener.mk text acc max direction none .char).collect columns =
      spaced columns (fitting columns (max - acc) text) := by
  induction text generalizing acc with
  | nil => exact collect_nil columns rfl
  | cons ch text ih =>
    unfold fitting
    by_cases hfits : columns ch ≤ max - acc
    · rw [collect_char text acc max direction (by omega) (Or.inl rfl), if_pos hfits, spaced_cons,
        ih (by omega), Nat.sub_add_eq]
      split
      · rfl
      · rfl
    · rw [if_neg hfits]
      refine collect_nil columns ?_
      simp only [next]
      rw [if_pos (by omega)]

theorem collect_fits {acc : ℕ} {c : Char} (hwidth : ∀ ch ∈ text, 0 < columns ch)
    (hfits : acc + total columns text ≤ max) :
    Shows columns ((StrShortener.mk text acc max direction (some c) .char).collect columns)
      text := by
  induction text generalizing acc with
  | nil => exact Or.inl (collect_nil columns rfl)
  | cons ch text ih =>
    rw [total_cons] at hfits
    have ih := @ih (acc + columns ch) (fun d hd => hwidth d (mem_cons_of_mem _ hd))
      (by omega)
    by_cases hless : acc + columns ch < max
    · rw [collect_char text acc max direction (by omega) (Or.inr hless)]
      unfold Shows at ih ⊢
      rw [spaced_cons]
      split
      · simpa using ih
      · simpa using ih
    · have hnil : text = [] := by
        rcases text with - | ⟨d, _⟩
        · rfl
        · have := hwidth d (by simp)
          rw [total_cons] at hfits
          omega
      subst hnil
      rw [total_nil] at hfits
      have hnext : (StrShortener.mk [ch] acc max direction (some c) .char).next columns =
          (some ch, ⟨[], acc + columns ch, max, direction, some c, .terminate⟩) := by
        simp only [next]
        rw [if_neg (by omega), if_pos ⟨by omega, rfl⟩]
        rfl
      rw [collect_cons columns (congrArg Prod.fst hnext), hnext, collect_terminate columns rfl]
      unfold Shows
      rw [spaced_cons]
      split
      · exact Or.inr rfl
      · exact Or.inl rfl

/-- One that does not is cut where the shortener still has its column. -/
theorem collect_cut {acc : ℕ} {c : Char} (hacc : acc < max)
    (hover : max < acc + total columns text) :
    (StrShortener.mk text acc max direction (some c) .char).collect columns =
      spaced columns (fitting columns (max - 1 - acc) text) ++ [c] := by
  induction text generalizing acc with
  | nil =>
    rw [total_nil] at hover
    omega
  | cons ch text ih =>
    rw [total_cons] at hover
    unfold fitting
    by_cases hless : acc + columns ch < max
    · rw [collect_char text acc max direction (by omega) (Or.inr hless),
        if_pos (by omega : columns ch ≤ max - 1 - acc), spaced_cons, ih hless (by omega), Nat.sub_add_eq]
      split
      · rfl
      · rfl
    · rw [if_neg (by omega : ¬ columns ch ≤ max - 1 - acc)]
      have hnext : (StrShortener.mk (ch :: text) acc max direction (some c) .char).next columns =
          (some c, ⟨text, acc + columns ch, max, direction, some c, .terminate⟩) := by
        simp only [next]
        by_cases hmore : max < acc + columns ch
        · rw [if_pos hmore]
        · have hsome : text ≠ [] := by
            rintro rfl
            rw [total_nil] at hover
            omega
          rw [if_neg hmore, if_pos ⟨by omega, rfl⟩, if_neg hsome]
      rw [collect_cons columns (congrArg Prod.fst hnext), hnext, collect_terminate columns rfl]
      rfl

end Chars

end StrShortener

/-! ### Counting from the end -/

section Count

variable (max offset len : ℕ) (shortener : Option Char) (rest : List Char)

theorem count_fits (hwidth : ∀ ch ∈ rest, 0 < columns ch) (hfits : len + total columns rest ≤ max)
    (hlen : len = max → shortener = none) : count columns max offset len shortener rest =
      ⟨offset + rest.length, len + total columns rest,
        if len + total columns rest = max then none else shortener, []⟩ := by
  induction rest generalizing offset len shortener with
  | nil =>
    unfold count
    by_cases hfull : len = max
    · simp [hfull, hlen hfull]
    · simp [hfull]
  | cons ch rest ih =>
    rw [total_cons] at hfits ⊢
    have hpos : rest ≠ [] → 0 < total columns rest := by
      intro hne
      obtain ⟨d, rest, rfl⟩ := exists_cons_of_ne_nil hne
      have := hwidth d (by simp)
      rw [total_cons]
      omega
    have hrest := fun d hd => hwidth d (mem_cons_of_mem ch hd)
    unfold count
    dsimp only
    rw [if_neg (by omega)]
    by_cases hfull : len + columns ch = max
    · have hnil : rest = [] := by
        by_contra hne
        have := hpos hne
        omega
      rw [if_pos hfull, if_neg (by simp [hnil]), ih _ _ _ hrest (by omega) (fun _ => rfl)]
      simp [hnil, hfull]
    · rw [if_neg hfull, ih _ _ _ hrest (by omega) (fun h => absurd h hfull), length_cons]
      simp only [Nat.add_assoc, Nat.add_comm rest.length]

theorem count_cut (hlen : len + shortener.toList.length ≤ max)
    (hover : max < len + total columns rest) :
    let kept := fitting columns (max - shortener.toList.length - len) rest
    let counted := count columns max offset len shortener rest
    counted.offset = offset + kept.length ∧ counted.rest = rest.drop (kept.length + 1) ∧
      counted.shortener = shortener ∧ max ≤ counted.currentLen := by
  induction rest generalizing offset len with
  | nil =>
    rw [total_nil] at hover
    omega
  | cons ch rest ih =>
    rw [total_cons] at hover
    dsimp only
    unfold count fitting
    dsimp only
    by_cases hmore : max < len + columns ch
    · rw [if_pos hmore, if_neg (by omega)]
      simp
      omega
    rw [if_neg hmore]
    by_cases hstop : len + columns ch = max ∧ shortener ≠ none
    · obtain ⟨hfull, hsome⟩ := hstop
      obtain ⟨c, rfl⟩ := Option.ne_none_iff_exists'.mp hsome
      have hone : (some c).toList.length = 1 := rfl
      have hne : rest ≠ [] := by
        rintro rfl
        rw [total_nil] at hover
        omega
      rw [if_pos hfull, if_pos ⟨rfl, hne⟩, if_neg (by omega)]
      exact ⟨rfl, rfl, rfl, Nat.le_of_eq hfull.symm⟩
    · have hgoes : count columns max (offset + 1) (len + columns ch) shortener rest =
          if len + columns ch = max then
            if shortener.isSome ∧ rest ≠ [] then ⟨offset, len + columns ch, shortener, rest⟩
            else count columns max (offset + 1) (len + columns ch) none rest
          else count columns max (offset + 1) (len + columns ch) shortener rest := by
        by_cases hfull : len + columns ch = max
        · have hnone : shortener = none := by
            by_contra hsome
            exact hstop ⟨hfull, hsome⟩
          rw [if_pos hfull, hnone, if_neg (by simp)]
        · rw [if_neg hfull]
      have hroom : len + columns ch + shortener.toList.length ≤ max := by
        cases shortener with
        | none => simp; omega
        | some =>
          have : len + columns ch ≠ max := fun h => hstop ⟨h, by simp⟩
          simp
          omega
      obtain ⟨h1, h2, h3, h4⟩ := ih (offset + 1) (len + columns ch) hroom (by omega)
      rw [← hgoes, if_pos (by omega), length_cons, drop_succ_cons, h1, h2, h3,
        Nat.sub_add_eq]
      exact ⟨by omega, rfl, rfl, h4⟩

end Count

/-! ### Whether the cut is fair -/

/-- What a cut in this direction may keep of the text. -/
def IsCut (direction : ShortenDirection) (kept text : List Char) : Prop :=
  match direction with
  | .right => kept <+: text
  | .left => kept <:+ text

/-- The shortener stands on the cut side. -/
def arranged (direction : ShortenDirection) (shortener : Option Char) (kept : List Char) :
    List Char :=
  match direction with
  | .right => spaced columns kept ++ shortener.toList
  | .left => shortener.toList ++ spaced columns kept

/-- A text that fits is shown whole. Of any other the output has the most that leaves room for
the shortener, and nothing else. -/
def Fair (text : List Char) (maxWidth : ℕ) (direction : ShortenDirection) (shortener : Option Char)
    (output : List Char) : Prop :=
  if total columns text ≤ maxWidth then Shows columns output text
  else ∃ kept, IsCut direction kept text ∧
    total columns kept + total columns shortener.toList ≤ maxWidth ∧
    (∀ other, IsCut direction other text →
      total columns other + total columns shortener.toList ≤ maxWidth →
      other.length ≤ kept.length) ∧
    output = arranged columns direction shortener kept

/-- Only the first character does not fit, and it is not like all the others. -/
def LosesOnlyFirst (text : List Char) (maxWidth : ℕ) (shortener : Option Char) : Prop :=
  maxWidth < total columns text ∧
    total columns text.tail + total columns shortener.toList ≤ maxWidth ∧
    ∃ c ∈ text, ∃ d ∈ text, c ≠ d

theorem isCut_left_iff {kept text : List Char} :
    IsCut .left kept text ↔ kept.reverse <+: text.reverse := List.reverse_prefix.symm

def longest (direction : ShortenDirection) (room : ℕ) (text : List Char) :
    List Char :=
  match direction with
  | .right => fitting columns room text
  | .left => (fitting columns room text.reverse).reverse

theorem longest_isCut (direction : ShortenDirection) (room : ℕ) (text : List Char) :
    IsCut direction (longest columns direction room text) text := by
  cases direction with
  | right => exact fitting_isPrefix columns room text
  | left =>
    rw [isCut_left_iff, longest, reverse_reverse]
    exact fitting_isPrefix columns room text.reverse

theorem total_longest_le (direction : ShortenDirection) (room : ℕ) (text : List Char) :
    total columns (longest columns direction room text) ≤ room := by
  cases direction with
  | right => exact total_fitting_le columns room text
  | left =>
    rw [longest, total_reverse]
    exact total_fitting_le columns room text.reverse

theorem isCut_length_le {direction : ShortenDirection} (room : ℕ) {text other : List Char}
    (hcut : IsCut direction other text) (hfits : total columns other ≤ room) :
    other.length ≤ (longest columns direction room text).length := by
  cases direction with
  | right => exact (prefix_fitting columns hcut hfits).length_le
  | left =>
    rw [isCut_left_iff] at hcut
    have := prefix_fitting columns hcut (le_of_eq_of_le (total_reverse columns other) hfits)
    simpa [longest] using this.length_le

theorem isCut_eq {direction : ShortenDirection} {kept other text : List Char}
    (hkept : IsCut direction kept text) (hother : IsCut direction other text)
    (hlength : kept.length = other.length) : kept = other := by
  cases direction with
  | right => rw [List.prefix_iff_eq_take.mp hkept, List.prefix_iff_eq_take.mp hother, hlength]
  | left => rw [List.suffix_iff_eq_drop.mp hkept, List.suffix_iff_eq_drop.mp hother, hlength]

section Fair

variable {columns} {text : List Char} {maxWidth : ℕ} {direction : ShortenDirection}
  {shortener : Option Char} {output : List Char}

theorem total_shortener (hone : ∀ c ∈ shortener, columns c = 1) :
    total columns shortener.toList = shortener.toList.length := by
  cases shortener with
  | none => rfl
  | some c => simp [hone c rfl]

theorem length_shortener_le (hmax : 1 ≤ maxWidth) : shortener.toList.length ≤ maxWidth := by
  cases shortener with
  | none => exact Nat.zero_le _
  | some => exact hmax

/-- A text that does not fit has one fair output. -/
theorem fair_iff (hmax : 1 ≤ maxWidth) (hone : ∀ c ∈ shortener, columns c = 1)
    (hover : maxWidth < total columns text) :
    Fair columns text maxWidth direction shortener output ↔
      output = arranged columns direction shortener
        (longest columns direction (maxWidth - shortener.toList.length) text) := by
  have hroom : shortener.toList.length ≤ maxWidth := length_shortener_le hmax
  have hle := total_longest_le columns direction (maxWidth - shortener.toList.length) text
  have hlongest := longest_isCut columns direction (maxWidth - shortener.toList.length) text
  unfold Fair
  rw [if_neg (by omega), total_shortener hone]
  constructor
  · rintro ⟨_, hcut, hfits, hmost, rfl⟩
    have h1 := isCut_length_le columns (maxWidth - shortener.toList.length) hcut (by omega)
    have h2 := hmost _ hlongest (by omega)
    rw [isCut_eq hcut hlongest (Nat.le_antisymm h1 h2)]
  · rintro rfl
    exact ⟨_, hlongest, by omega,
      fun other hcut hfits => isCut_length_le columns _ hcut (by omega), rfl⟩

theorem fair_right (hmax : 1 ≤ maxWidth) (hone : ∀ c ∈ shortener, columns c = 1)
    (hwidth : ∀ ch ∈ text, 0 < columns ch) : Fair columns text maxWidth .right shortener
      ((StrShortener.new columns text maxWidth .right shortener).collect columns) := by
  by_cases hfits : total columns text ≤ maxWidth
  · unfold Fair StrShortener.new
    rw [if_pos hfits]
    dsimp only
    generalize (if text = [] then none else shortener) = shortener
    cases shortener with
    | none =>
      rw [StrShortener.collect_without _ _ _ (Nat.zero_le _), Nat.sub_zero,
        fitting_of_total_le columns hfits]
      exact Or.inl rfl
    | some => exact StrShortener.collect_fits _ _ _ hwidth (by omega)
  · have hne : text ≠ [] := by
      rintro rfl
      exact hfits (Nat.zero_le _)
    rw [fair_iff hmax hone (by omega)]
    unfold StrShortener.new
    rw [if_neg hne]
    dsimp only
    cases shortener with
    | none =>
      rw [StrShortener.collect_without _ _ _ (Nat.zero_le _)]
      simp [arranged, longest]
    | some =>
      rw [StrShortener.collect_cut _ _ _ (by omega) (by omega)]
      simp [arranged, longest]

theorem fair_left_of_fits (hmax : 1 ≤ maxWidth) (hwidth : ∀ ch ∈ text, 0 < columns ch)
    (hfits : total columns text ≤ maxWidth) : Fair columns text maxWidth .left shortener
      ((StrShortener.new columns text maxWidth .left shortener).collect columns) := by
  unfold Fair StrShortener.new
  rw [if_pos hfits]
  dsimp only
  generalize (if text = [] then none else shortener) = shortener
  have hcount := count_fits columns maxWidth 0 0 shortener text.reverse
    (fun ch h => hwidth ch (List.mem_reverse.mp h)) (by rw [total_reverse]; omega) (by omega)
  rw [total_reverse, Nat.zero_add, Nat.zero_add, length_reverse] at hcount
  have haction : total columns text < maxWidth ∨
      (if total columns text = maxWidth then none else shortener) = none := by
    by_cases hfull : total columns text = maxWidth
    · exact Or.inr (if_pos hfull)
    · exact Or.inl (by omega)
  rw [hcount]
  dsimp only
  rw [if_pos rfl, if_pos haction, Nat.sub_self, drop_zero]
  generalize (if total columns text = maxWidth then none else shortener) = shortener
  cases shortener with
  | none =>
    rw [StrShortener.collect_without _ _ _ (Nat.zero_le _), Nat.sub_zero,
      fitting_of_total_le columns hfits]
    exact Or.inl rfl
  | some => exact StrShortener.collect_fits _ _ _ hwidth (by omega)

theorem longest_length_ne {room : ℕ} (hover : room < total columns text) :
    (longest columns .left room text).length ≠ text.length := by
  intro h
  have hle := total_longest_le columns .left room text
  rw [List.IsSuffix.eq_of_length (longest_isCut columns .left room text) h] at hle
  omega

/-- All but the first character is kept exactly if that fits. -/
theorem longest_eq_tail_iff {room : ℕ} (hover : room < total columns text) :
    longest columns .left room text = text.tail ↔ total columns text.tail ≤ room := by
  have hcut := longest_isCut columns .left room text
  constructor
  · intro h
    rw [← h]
    exact total_longest_le columns .left room text
  · intro h
    have hmost := @isCut_length_le columns .left room _ _ (tail_suffix text) h
    have hne := longest_length_ne hover
    have hlength := List.IsSuffix.length_le hcut
    apply isCut_eq hcut (tail_suffix text)
    rw [length_tail] at hmost ⊢
    omega

/-- What the loop has not reached is empty exactly if only the first character is to go. -/
theorem rest_eq_nil_iff {room : ℕ} (hne : text ≠ []) (hover : room < total columns text) :
    text.reverse.drop ((longest columns .left room text).length + 1) = [] ↔
      total columns text.tail ≤ room := by
  have hcut := longest_isCut columns .left room text
  have hpos := List.length_pos_iff.mpr hne
  have hlonger := longest_length_ne hover
  have hlength := List.IsSuffix.length_le hcut
  rw [drop_eq_nil_iff, length_reverse, ← longest_eq_tail_iff hover]
  constructor
  · intro h
    apply isCut_eq hcut (tail_suffix text)
    rw [length_tail]
    omega
  · intro h
    rw [h, length_tail]
    omega

/-- The iterator goes through the end of the text, or through all of it if only the first
character is to go. -/
theorem collect_left_of_cut (hmax : 1 ≤ maxWidth) (hover : maxWidth < total columns text) :
    (StrShortener.new columns text maxWidth .left shortener).collect columns =
      shortener.toList ++ spaced columns
        (if total columns text.tail + shortener.toList.length ≤ maxWidth then
          fitting columns maxWidth text
        else longest columns .left (maxWidth - shortener.toList.length) text) := by
  have hroom : shortener.toList.length ≤ maxWidth := length_shortener_le hmax
  have hne : text ≠ [] := by
    rintro rfl
    exact absurd hover (by simp)
  have hcount := count_cut columns maxWidth 0 0 shortener text.reverse (by omega)
    (by rw [total_reverse]; omega)
  dsimp only at hcount
  have hlongest : (fitting columns (maxWidth - shortener.toList.length) text.reverse).length =
      (longest columns .left (maxWidth - shortener.toList.length) text).length := by
    simp [longest]
  rw [Nat.sub_zero, Nat.zero_add, hlongest] at hcount
  obtain ⟨hoffset, hrest, hshortener, _⟩ := hcount
  have hnil := @rest_eq_nil_iff columns _ (maxWidth - shortener.toList.length) hne (by omega)
  have hcut := longest_isCut columns .left (maxWidth - shortener.toList.length) text
  have hle := total_longest_le columns .left (maxWidth - shortener.toList.length) text
  generalize longest columns .left (maxWidth - shortener.toList.length) text = kept at *
  have hchars : fitting columns maxWidth (text.drop
      ((if text.reverse.drop (kept.length + 1) = [] then kept.length
        else kept.length + 1 + (text.reverse.drop (kept.length + 1)).length) - kept.length)) =
      if total columns text.tail + shortener.toList.length ≤ maxWidth then
        fitting columns maxWidth text
      else kept := by
    by_cases hfirst : total columns text.tail ≤ maxWidth - shortener.toList.length
    · rw [if_pos (hnil.mpr hfirst), if_pos (by omega), Nat.sub_self, drop_zero]
    have hsome := mt hnil.mp hfirst
    have hlength := mt drop_eq_nil_of_le hsome
    rw [if_neg hsome, if_neg (by omega), length_drop]
    rw [length_reverse] at hlength ⊢
    have hdrop := List.suffix_iff_eq_drop.mp hcut
    rw [show kept.length + 1 + (text.length - (kept.length + 1)) - kept.length =
      text.length - kept.length by omega, ← hdrop]
    exact fitting_of_total_le columns (by omega)
  unfold StrShortener.new
  rw [if_neg hne]
  dsimp only
  rw [hoffset, hrest, hshortener, ← hchars]
  cases shortener with
  | none =>
    rw [if_pos (Or.inr rfl)]
    exact StrShortener.collect_without _ _ _ (Nat.zero_le _)
  | some c =>
    have haction : ¬ ((count columns maxWidth 0 0 (some c) text.reverse).currentLen < maxWidth ∨
        some c = none) := by
      rintro (hless | hnone)
      · omega
      · cases hnone
    rw [if_neg haction, StrShortener.collect_cons columns (c := c) rfl]
    exact congrArg _ (StrShortener.collect_without _ _ _ (Nat.zero_le _))

theorem prefix_cons_iff {first : Char} {rest : List Char} :
    rest <+: first :: rest ↔ ∀ c ∈ rest, c = first := by
  induction rest with
  | nil => simp
  | cons c _ ih =>
    rw [cons_prefix_cons]
    constructor
    · rintro ⟨rfl, h⟩ d hd
      rcases List.mem_cons.mp hd with rfl | hd
      · rfl
      · exact ih.mp h d hd
    · intro h
      have hc := h c (mem_cons_self)
      subst hc
      exact ⟨rfl, ih.mpr fun d hd => h d (mem_cons_of_mem _ hd)⟩

/-- A beginning as long as the end is the end only in a text of one character. -/
theorem fitting_eq_tail_iff {first : Char} {rest : List Char}
    (hover : maxWidth < total columns (first :: rest)) (hfits : total columns rest ≤ maxWidth) :
    fitting columns maxWidth (first :: rest) = rest ↔
      ¬ ∃ c ∈ first :: rest, ∃ d ∈ first :: rest, c ≠ d := by
  have hsame : (¬ ∃ c ∈ first :: rest, ∃ d ∈ first :: rest, c ≠ d) ↔ ∀ c ∈ rest, c = first := by
    push Not
    constructor
    · exact fun h c hc => h c (mem_cons_of_mem _ hc) first mem_cons_self
    · intro h c hc d hd
      have hall : ∀ e ∈ first :: rest, e = first := List.forall_mem_cons.mpr ⟨rfl, h⟩
      rw [hall c hc, hall d hd]
  rw [hsame, ← prefix_cons_iff]
  constructor
  · intro h
    have := fitting_isPrefix columns maxWidth (first :: rest)
    rwa [h] at this
  intro h
  have hmost := prefix_fitting columns h hfits
  have hstart := fitting_isPrefix columns maxWidth (first :: rest)
  have hle := total_fitting_le columns maxWidth (first :: rest)
  have hshort : (fitting columns maxWidth (first :: rest)).length ≠ (first :: rest).length := by
    intro heq
    rw [hstart.eq_of_length heq] at hle
    omega
  have := hstart.length_le
  rw [length_cons] at this hshort
  exact (hmost.eq_of_length_le (by omega)).symm

end Fair

/-- The output is fair unless a cut on the left is to take only the first of different
characters. -/
theorem shortened_fair_iff (text : List Char) (maxWidth : ℕ) (direction : ShortenDirection)
    (shortener : Option Char) (hmax : 1 ≤ maxWidth)
    (hwidth : ∀ ch ∈ text, columns ch = 1 ∨ columns ch = 2)
    (hone : ∀ c ∈ shortener, columns c = 1) : Fair columns text maxWidth direction shortener
        ((StrShortener.new columns text maxWidth direction shortener).collect columns) ↔
      ¬ (direction = .left ∧ LosesOnlyFirst columns text maxWidth shortener) := by
  have hpos : ∀ ch ∈ text, 0 < columns ch := by
    intro ch h
    have := hwidth ch h
    omega
  cases direction with
  | right => exact iff_of_true (fair_right hmax hone hpos) (fun h => nomatch h.1)
  | left =>
    by_cases hfits : total columns text ≤ maxWidth
    · refine iff_of_true (fair_left_of_fits hmax hpos hfits) ?_
      rintro ⟨-, _, -⟩
      omega
    · cases text with
      | nil => exact absurd (Nat.zero_le _) hfits
      | cons first rest =>
        rw [fair_iff hmax hone (by omega), collect_left_of_cut hmax (by omega)]
        unfold arranged LosesOnlyFirst
        rw [total_shortener hone, tail_cons]
        by_cases hfirst : total columns rest + shortener.toList.length ≤ maxWidth
        · have htail : longest columns .left (maxWidth - shortener.toList.length) (first :: rest) =
              rest := (longest_eq_tail_iff (by omega)).mpr (Nat.le_sub_of_add_le hfirst)
          have hiff := @fitting_eq_tail_iff columns maxWidth first rest (by omega) (by omega)
          rw [if_pos hfirst, htail]
          constructor
          · intro h
            rintro ⟨-, -, -, hdiffer⟩
            exact hiff.mp (spaced_injective columns (append_cancel_left h)) hdiffer
          · intro h
            rw [hiff.mpr (fun hne => h ⟨rfl, by omega, hfirst, hne⟩)]
        · rw [if_neg hfirst]
          refine iff_of_true rfl ?_
          rintro ⟨-, -, hfits, -⟩
          exact hfirst hfits

theorem shortened_fair_three :
    let columns := fun ch => if ch = 'P' ∨ ch = '.' then 1 else 2
    Fair columns ['ち', 'は', 'P'] 3 .left (some '.')
      ((StrShortener.new columns ['ち', 'は', 'P'] 3 .left (some '.')).collect columns) := by
  intro columns
  apply (shortened_fair_iff columns ['ち', 'は', 'P'] 3 .left (some '.') (by decide)
    (by simp [columns]) (by simp [columns])).mpr
  rintro ⟨-, -, h, -⟩
  exact absurd h (by decide +kernel)

/-- Of `はP` two columns are to be left: they show the shortener and `は`, not `P`. -/
theorem shortened_shows_the_start :
    let columns := fun ch => if ch = 'は' then 2 else 1
    ¬ Fair columns ['は', 'P'] 2 .left (some '.')
      ((StrShortener.new columns ['は', 'P'] 2 .left (some '.')).collect columns) := by
  intro columns
  rw [fair_iff (by decide) (by simp [columns]) (by decide),
    collect_left_of_cut (by decide) (by decide)]
  decide

end Vivido.Text
