import Vivido.Plan.Value
import Vivido.Support.Splitting

/-!
The variables of an automation plan put into its steps. A text is read once, and
what a value brings in is not read again. Objects are collected anew, so of two
keys that come to read the same only one entry is left.
-/

namespace Vivido.Plan

open List

variable {N : Type}

/-- A step with a text that cannot be filled. -/
inductive PlanError where
  | unterminated (stepId : List Char)
  | invalidName (stepId name : List Char)
  | unknownVariable (stepId name : List Char)
  deriving DecidableEq

def isAsciiAlphabetic (c : Char) : Bool := c.toNat < 128 && c.isAlpha

def isAsciiAlphanumeric (c : Char) : Bool := c.toNat < 128 && c.isAlphanum

def validPlanVarName : List Char → Bool
  | [] => false
  | first :: rest =>
    (isAsciiAlphabetic first || first = '_') && rest.all fun c => isAsciiAlphanumeric c || c = '_'

/-- The variables of a plan, whose names have been checked. -/
structure Bindings where
  vars : SortedMap (List Char) (List Char)
  valid : ∀ name value, vars.lookup name = some value → validPlanVarName name

def opening : List Char := ['$', '\x7b']

def closing : List Char := ['\x7d']

theorem length_splitOnce {needle text before after : List Char} (hneedle : needle ≠ [])
    (h : splitOnce needle text = some (before, after)) : after.length < text.length := by
  obtain ⟨rfl, -⟩ := (splitOnce_eq_some hneedle).mp h
  have := List.length_pos_iff.mpr hneedle
  simp
  omega

def substitutePlanText (bindings : Bindings) (stepId text : List Char) :
    Except PlanError (List Char) :=
  match _hopening : splitOnce opening text with
  | none => .ok text
  | some (plain, after) =>
    match _hclosing : splitOnce closing after with
    | none => .error (.unterminated stepId)
    | some (name, rest) =>
      if validPlanVarName name then
        match bindings.vars.lookup name with
        | none => .error (.unknownVariable stepId name)
        | some value => (substitutePlanText bindings stepId rest).map (plain ++ value ++ ·)
      else .error (.invalidName stepId name)
termination_by text.length
decreasing_by
  exact (length_splitOnce (by decide) _hclosing).trans (length_splitOnce (by decide) _hopening)

def substitutePlanVars (bindings : Bindings) (stepId : List Char) :
    Value N → Except PlanError (Value N) :=
  Value.rewrite (substitutePlanText bindings stepId) (substitutePlanText bindings stepId)
    fun entries => .ok (.object entries)

/-! ### What a text says -/

/-- A text with each placeholder that it has replaced by its value. -/
inductive Fills (bindings : Bindings) : List Char → List Char → Prop where
  | plain {rest : List Char} (hplain : ¬opening <:+: rest) : Fills bindings rest rest
  | placeholder {plain name value rest filled : List Char} (hplain : ¬opening <:+: plain)
      (hname : '\x7d' ∉ name) (hvalue : bindings.vars.lookup name = some value)
      (hrest : Fills bindings rest filled) :
      Fills bindings (plain ++ opening ++ (name ++ closing ++ rest)) (plain ++ value ++ filled)

/-- A placeholder of a text does not end, or has a name that nothing is bound to. -/
inductive Faulty (bindings : Bindings) : List Char → Prop where
  | unterminated {plain rest : List Char} (hplain : ¬opening <:+: plain) (hrest : '\x7d' ∉ rest) :
      Faulty bindings (plain ++ opening ++ rest)
  | unbound {plain name rest : List Char} (hplain : ¬opening <:+: plain)
      (hname : '\x7d' ∉ name) (hvalue : bindings.vars.lookup name = none) :
      Faulty bindings (plain ++ opening ++ (name ++ closing ++ rest))
  | later {plain name rest : List Char} (hplain : ¬opening <:+: plain) (hname : '\x7d' ∉ name)
      (hrest : Faulty bindings rest) :
      Faulty bindings (plain ++ opening ++ (name ++ closing ++ rest))

variable {bindings : Bindings} {stepId text filled plain name rest : List Char}

theorem splitOnce_opening (hplain : ¬opening <:+: plain) :
    splitOnce opening (plain ++ opening ++ rest) = some (plain, rest) := by
  apply (splitOnce_eq_some (by decide)).mpr
  refine ⟨rfl, ?_⟩
  change ¬opening <:+: plain ++ ['$']
  rw [infix_concat_iff]
  rintro (⟨front, hends⟩ | hinside)
  · have hlast := congrArg List.getLast? hends
    simp [opening] at hlast
  · exact hplain hinside

theorem splitOnce_closing (hname : '\x7d' ∉ name) :
    splitOnce closing (name ++ closing ++ rest) = some (name, rest) := by
  apply (splitOnce_eq_some (by decide)).mpr
  refine ⟨rfl, ?_⟩
  simpa [closing, singleton_infix_iff] using hname

theorem substitutePlanText_placeholder (hplain : ¬opening <:+: plain) (hname : '\x7d' ∉ name) :
    substitutePlanText bindings stepId (plain ++ opening ++ (name ++ closing ++ rest)) =
      if validPlanVarName name then
        match bindings.vars.lookup name with
        | none => .error (.unknownVariable stepId name)
        | some value => (substitutePlanText bindings stepId rest).map (plain ++ value ++ ·)
      else .error (.invalidName stepId name) := by
  rw [substitutePlanText, splitOnce_opening hplain]
  dsimp only
  rw [splitOnce_closing hname]

theorem substitutePlanText_fills (h : Fills bindings text filled) :
    substitutePlanText bindings stepId text = .ok filled := by
  induction h with
  | plain hplain =>
    rw [substitutePlanText, splitOnce_eq_none.mpr hplain]
  | placeholder hplain hname hvalue _ ih =>
    rw [substitutePlanText_placeholder hplain hname, if_pos (bindings.valid _ _ hvalue), hvalue, ih]
    rfl

theorem substitutePlanText_faulty (h : Faulty bindings text) :
    (substitutePlanText bindings stepId text).isOk = false := by
  induction h with
  | unterminated hplain hrest =>
    rw [substitutePlanText, splitOnce_opening hplain]
    dsimp only
    rw [splitOnce_eq_none.mpr (by simpa [closing, singleton_infix_iff] using hrest)]
    rfl
  | unbound hplain hname hvalue =>
    rw [substitutePlanText_placeholder hplain hname, hvalue]
    split <;> rfl
  | later hplain hname _ ih =>
    rw [substitutePlanText_placeholder hplain hname]
    split
    · split
      · rfl
      · rw [Value.isOk_map, ih]
    · rfl

/-- A text has its placeholders replaced, or one of them is at fault. -/
theorem fills_or_faulty (bindings : Bindings) (text : List Char) :
    (∃ filled, Fills bindings text filled) ∨ Faulty bindings text := by
  induction hn : text.length using Nat.strong_induction_on generalizing text with
  | _ _ ih =>
    subst hn
    cases hopening : splitOnce opening text with
    | none => exact Or.inl ⟨text, .plain (splitOnce_eq_none.mp hopening)⟩
    | some parts =>
      obtain ⟨plain, after⟩ := parts
      have hlt := length_splitOnce (by decide) hopening
      obtain ⟨rfl, hplain⟩ := (splitOnce_eq_some (by decide)).mp hopening
      replace hplain : ¬opening <:+: plain := fun h => hplain (h.trans (infix_append' [] _ _))
      cases hclosing : splitOnce closing after with
      | none =>
        refine Or.inr (.unterminated hplain ?_)
        simpa [closing, singleton_infix_iff] using splitOnce_eq_none.mp hclosing
      | some parts =>
        obtain ⟨name, rest⟩ := parts
        have hlt' := length_splitOnce (by decide) hclosing
        obtain ⟨rfl, hname⟩ := (splitOnce_eq_some (by decide)).mp hclosing
        replace hname : '\x7d' ∉ name := by
          simpa [closing, singleton_infix_iff] using hname
        rcases ih _ (hlt'.trans hlt) rest rfl with ⟨_, hrest⟩ | hrest
        · cases hvalue : bindings.vars.lookup name with
          | none => exact Or.inr (.unbound hplain hname hvalue)
          | some => exact Or.inl ⟨_, .placeholder hplain hname hvalue hrest⟩
        · exact Or.inr (.later hplain hname hrest)

theorem substitutePlanText_ok :
    substitutePlanText bindings stepId text = .ok filled ↔ Fills bindings text filled := by
  refine ⟨fun h => ?_, substitutePlanText_fills⟩
  rcases fills_or_faulty bindings text with ⟨_, hfills⟩ | hfaulty
  · rw [substitutePlanText_fills hfills] at h
    cases h
    exact hfills
  · have hnot := @substitutePlanText_faulty _ stepId _ hfaulty
    rw [h] at hnot
    cases hnot

theorem isOk_substitutePlanText :
    (substitutePlanText bindings stepId text).isOk ↔ ¬Faulty bindings text := by
  constructor
  · intro h hfaulty
    rw [substitutePlanText_faulty hfaulty] at h
    cases h
  · intro h
    obtain ⟨_, hfills⟩ := (fills_or_faulty bindings text).resolve_right h
    rw [substitutePlanText_fills hfills]
    rfl

/-! ### What a document says -/

/-- A text or key of a document, reference objects apart, cannot be filled. -/
def Faulted (bindings : Bindings) (value : Value N) : Prop :=
  ∃ part ∈ value.inside, match part with
    | .string text => Faulty bindings text
    | .object entries => ¬Value.isReference entries ∧ ∃ entry ∈ entries, Faulty bindings entry.1
    | _ => False

/-- It fails exactly on a document at fault, and keeps all that stands in any other one. -/
structure Substitutes (bindings : Bindings) (value : Value N)
    (outcome : Except PlanError (Value N)) : Prop where
  fails : (∃ error, outcome = .error error) ↔ Faulted bindings value
  follows : ∀ written, outcome = .ok written → Value.Follows (Fills bindings) value written

theorem error_iff {α : Type} {x : Except PlanError α} : (∃ error, x = .error error) ↔ ¬x.isOk := by
  cases x with
  | error | ok => simp

theorem substitutePlanVars_fails (value : Value N) :
    (∃ error, substitutePlanVars bindings stepId value = .error error) ↔
      Faulted bindings value := by
  rw [error_iff, substitutePlanVars, Value.isOk_rewrite]
  push Not
  refine exists_congr fun part => and_congr_right fun _ => ?_
  cases part with
  | string => simp only [Value.Rewritable, isOk_substitutePlanText, not_not]
  | object entries =>
    by_cases h : Value.isReference entries
    · simp [Value.Rewritable, h]
    · simp [Value.Rewritable, h, isOk_substitutePlanText]
  | _ => simp [Value.Rewritable]

/-- The substitution does what it says but where two keys of one object, filled, read the same:
of their entries one is left. -/
theorem substitutePlanVars_iff (bindings : Bindings) (stepId : List Char) (value : Value N) :
    Substitutes bindings value (substitutePlanVars bindings stepId value) ↔
      (Faulted bindings value ∨ ∀ part ∈ value.inside, part.KeysApart (Fills bindings)) := by
  have hfilled : Fills bindings = fun text filled =>
      substitutePlanText bindings stepId text = .ok filled := by
    funext text filled
    exact propext substitutePlanText_ok.symm
  constructor
  · rintro ⟨hfails, hfollows⟩
    cases h : substitutePlanVars bindings stepId value with
    | error error => exact Or.inl (hfails.mp ⟨error, h⟩)
    | ok written =>
      have hwritten := hfollows written h
      rw [hfilled] at hwritten ⊢
      exact Or.inr ((Value.follows_rewrite h).mp hwritten)
  · intro h
    refine ⟨substitutePlanVars_fails value, fun written hok => ?_⟩
    rcases h with hfaulted | hapart
    · obtain ⟨_, herror⟩ := (@substitutePlanVars_fails _ _ stepId value).mpr hfaulted
      rw [herror] at hok
      cases hok
    · rw [hfilled] at hapart ⊢
      exact (Value.follows_rewrite hok).mpr hapart

def twoNames : Bindings where
  vars := (SortedMap.empty.insert ['a'] ['k']).insert ['b'] ['k']
  valid name value h := by
    rw [SortedMap.lookup_insert, SortedMap.lookup_insert] at h
    split at h
    · rename_i heq
      subst heq
      rfl
    · split at h
      · rename_i heq
        subst heq
        rfl
      · cases h

theorem fills_name {name value : List Char} (hname : '\x7d' ∉ name)
    (hvalue : bindings.vars.lookup name = some value) :
    Fills bindings (opening ++ (name ++ closing)) value := by
  have hfills : Fills bindings ([] ++ opening ++ (name ++ closing ++ [])) ([] ++ value ++ []) :=
    .placeholder (by decide) hname hvalue (.plain (by decide))
  simpa using hfills

/-- Two keys are filled with the same name: one of their entries is lost. -/
theorem substituted_keys_meet :
    let value : Value ℕ := .object [("$\x7ba\x7d".toList, .null), ("$\x7bb\x7d".toList, .null)]
    ¬Substitutes twoNames value (substitutePlanVars twoNames ['s'] value) := by
  intro value hsubstitutes
  have ha : Fills twoNames "$\x7ba\x7d".toList ['k'] := @fills_name _ ['a'] _ (by decide) rfl
  have hb : Fills twoNames "$\x7bb\x7d".toList ['k'] := @fills_name _ ['b'] _ (by decide) rfl
  have hok : substitutePlanVars twoNames ['s'] value = .ok (.object [(['k'], .null)]) := by
    have ha' := @substitutePlanText_fills _ ['s'] _ _ ha
    have hb' := @substitutePlanText_fills _ ['s'] _ _ hb
    unfold substitutePlanVars Value.rewrite
    rw [if_neg (by decide), Value.rewriteEntries, Value.rewriteEntries, ha', hb']
    rfl
  obtain ⟨_, _, hothers, hperm, heq⟩ := hsubstitutes.follows _ hok
  obtain ⟨_, _, _, -, -, ⟨_, _, _, -, -, rfl, rfl⟩, rfl⟩ := hothers
  cases heq
  cases hperm.length_eq

end Vivido.Plan
