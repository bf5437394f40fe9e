import Vivido.Support.Since
import Vivido.Support.SortedMap
import Mathlib.Data.Prod.Lex

/-!
Whose microphone is on. Each channel of a microphone track registers a route,
muted; a toggle flips the selected route, or the first one where none is
selected, and selects it. The flag that a worker mutes as it exits is its
own, also after its route left the table.
-/

namespace Vivido.Microphone

open List Option SortedMap

/-- A track, and the generation of its channel. -/
abbrev Key (I : Type) := I ×ₗ ℕ

structure Route where
  enabled : Bool
  title : String
  deriving DecidableEq

structure State (I : Type) [LinearOrder I] where
  routes : SortedMap (Key I) Route
  selected : Option (Key I)
  error : Option String

inductive Event (I : Type) where
  | register (key : Key I) (title : String)
  | drop (key : Key I)
  | toggle
  | next
  /-- The worker of a route, still in the table or not, ends with or without an error. -/
  | exit (key : Key I) (registered : Bool) (error : Option String)

def Route.label (route : Route) : String :=
  "MIC " ++ (if route.enabled then "ON" else "OFF") ++ ": " ++ route.title

variable {I : Type} [LinearOrder I]

namespace State

variable (s : State I)

def first : Option (Key I) := s.routes.entries.head?.map Prod.fst

def register (key : Key I) (title : String) : State I :=
  { s with
    routes := s.routes.insert key ⟨false, title⟩
    selected := if s.selected.any fun selected => selected.1 = key.1 then some key else s.selected }

def drop (key : Key I) : State I := { s with routes := s.routes.erase key }

def toggle : State I :=
  let selected := s.selected.or s.first
  { routes := match selected with
      | some key => s.routes.adjust key fun route => { route with enabled := !route.enabled }
      | none => s.routes
    selected
    error := none }

def next : State I :=
  { routes := s.routes.mapValues fun _ route => { route with enabled := false }
    selected := ((s.routes.entries.map Prod.fst).find? fun key =>
      s.selected.all fun selected => selected < key).or s.first
    error := none }

def exit (key : Key I) (registered : Bool) (error : Option String) : State I :=
  { s with
    routes := if registered then s.routes.adjust key fun route => { route with enabled := false }
      else s.routes
    error := error.or s.error }

def label : String :=
  match s.error with
  | some error => "MIC unavailable: " ++ error
  | none =>
    match (match s.selected with
      | some key => s.routes.lookup key
      | none => s.routes.entries.head?.map Prod.snd) with
    | some route => route.label
    | none => if s.selected.isSome then "MIC OFF: recipient disconnected" else ""

def step : Event I → State I
  | .register key title => s.register key title
  | .drop key => s.drop key
  | .toggle => s.toggle
  | .next => s.next
  | .exit key registered error => s.exit key registered error

def isEnabled (key : Key I) : Bool := (s.routes.lookup key).any Route.enabled

/-- The route that a toggle flips. -/
def target : Option (Key I × Route) :=
  (s.selected.or s.first).bind fun key => (s.routes.lookup key).map (key, ·)

def Exclusive : Prop := ∀ key key', s.isEnabled key → s.isEnabled key' → key = key'

/-- A toggle is made when no route but the one it flips is on. -/
def Sole : Event I → Prop
  | .toggle => ∀ key route, s.target = some (key, route) → ∀ other, s.isEnabled other → other = key
  | _ => True

/-- With no error to show, the label is that of the route that a toggle flips. -/
def Shown : Prop :=
  s.error = none →
    match s.target with
    | some (_, route) => s.label = route.label ∧
        s.toggle.label = { route with enabled := !route.enabled : Route }.label
    | none => s.toggle.routes = s.routes ∧
        s.label = if s.selected.isSome then "MIC OFF: recipient disconnected" else ""

end State

def run (history : List (Event I)) : State I := history.foldl State.step ⟨.empty, none, none⟩

variable {s : State I} {key other : Key I} {route : Route} {history : List (Event I)}

theorem target_eq_some : s.target = some (key, route) ↔
    s.selected.or s.first = some key ∧ s.routes.lookup key = some route := by
  unfold State.target
  rw [bind_eq_some_iff]
  constructor
  · rintro ⟨selected, hselected, hroute⟩
    cases h : s.routes.lookup selected <;> simp_all
  · rintro ⟨hselected, hroute⟩
    exact ⟨key, hselected, by rw [hroute]; rfl⟩

theorem lookup_toggle : s.toggle.routes.lookup other = match s.target with
    | some (key, route) =>
      if other = key then some { route with enabled := !route.enabled } else s.routes.lookup other
    | none => s.routes.lookup other := by
  unfold State.toggle State.target
  cases hselected : s.selected.or s.first with
  | none => rfl
  | some key =>
    dsimp only [Option.bind_some]
    rw [lookup_adjust]
    by_cases hother : other = key
    · cases hroute : s.routes.lookup key <;> simp [hother, hroute]
    · cases s.routes.lookup key <;> simp [hother]

/-- Only a toggle turns a route on, and only the one that it flips. -/
theorem isEnabled_step {event : Event I} (h : (s.step event).isEnabled key) :
    s.isEnabled key ∨ event = .toggle ∧ ∃ route, s.target = some (key, route) := by
  unfold State.isEnabled at h ⊢
  cases event with
  | register =>
    dsimp only [State.step, State.register] at h
    rw [lookup_insert] at h
    split_ifs at h
    · simp at h
    · exact Or.inl h
  | drop =>
    dsimp only [State.step, State.drop] at h
    rw [lookup_erase] at h
    split_ifs at h
    · simp at h
    · exact Or.inl h
  | toggle =>
    dsimp only [State.step] at h
    rw [lookup_toggle] at h
    split at h
    · rename_i key' route htarget
      split_ifs at h with hkey
      · exact Or.inr ⟨rfl, route, by rw [htarget, hkey]⟩
      · exact Or.inl h
    · exact Or.inl h
  | next =>
    dsimp only [State.step, State.next] at h
    rw [lookup_mapValues] at h
    cases hroute : s.routes.lookup key <;> simp [hroute] at h
  | exit =>
    dsimp only [State.step, State.exit] at h
    split_ifs at h
    · rw [lookup_adjust] at h
      split_ifs at h
      · cases hroute : s.routes.lookup key <;> simp [hroute] at h
      · exact Or.inl h
    · exact Or.inl h

/-- With one route on at most, a step leaves it so if and only if it is no toggle of another. -/
theorem exclusive_step (hs : s.Exclusive) (event : Event I) :
    (s.step event).Exclusive ↔ s.Sole event := by
  have hkept (hevent : event ≠ .toggle) : (s.step event).Exclusive := by
    intro key key' h h'
    have hold := isEnabled_step h
    have hold' := isEnabled_step h'
    exact hs key key' (by simpa [hevent] using hold) (by simpa [hevent] using hold')
  cases event with
  | toggle =>
    constructor
    · intro h key route htarget other hother
      by_contra hne
      have hroute := (target_eq_some.mp htarget).2
      have hmuted : route.enabled = false := by
        by_contra hon
        exact hne (hs other key hother (by simpa [State.isEnabled, hroute] using hon))
      refine hne (h other key ?_ ?_)
      · simpa [State.step, State.isEnabled, lookup_toggle, htarget, hne] using hother
      · simp [State.step, State.isEnabled, lookup_toggle, htarget, hmuted]
    · intro h key key' hkey hkey'
      rcases isEnabled_step hkey with hold | ⟨-, route, htarget⟩
      · rcases isEnabled_step hkey' with hold' | ⟨-, route, htarget⟩
        · exact hs key key' hold hold'
        · exact h key' route htarget key hold
      · rcases isEnabled_step hkey' with hold' | ⟨-, _, _⟩
        · exact (h key route htarget key' hold').symm
        · simp_all
  | _ => exact iff_of_true (hkept (by simp)) trivial

theorem shown (s : State I) : s.Shown := by
  intro herror
  have hacted : (match s.selected with
      | some key => s.routes.lookup key
      | none => s.routes.entries.head?.map Prod.snd) = s.target.map Prod.snd := by
    unfold State.target State.first
    cases s.selected with
    | some => simp [Function.comp_def]
    | none =>
      cases hentries : s.routes.entries with
      | nil => rfl
      | cons entry =>
        have hroute : s.routes.lookup entry.1 = some entry.2 :=
          mem_entries.mp (hentries ▸ mem_cons_self)
        simp [hroute]
  have hlabel : s.label = match s.target.map Prod.snd with
      | some route => route.label
      | none => if s.selected.isSome then "MIC OFF: recipient disconnected" else "" := by
    unfold State.label
    rw [herror, ← hacted]
  cases htarget : s.target with
  | none =>
    refine ⟨ext_lookup fun key => ?_, by rw [hlabel, htarget]; rfl⟩
    rw [lookup_toggle, htarget]
  | some acted =>
    obtain ⟨key, route⟩ := acted
    refine ⟨by rw [hlabel, htarget]; rfl, ?_⟩
    have hselected : s.toggle.selected = some key := (target_eq_some.mp htarget).1
    have hroute : s.toggle.routes.lookup key = some { route with enabled := !route.enabled } := by
      simp [lookup_toggle, htarget]
    unfold State.label
    rw [hselected]
    dsimp only
    rw [hroute]
    rfl

/-- What a route being on means in every run of registrations, removals, toggles and exits. -/
structure Consented (history : List (Event I)) : Prop where
  exclusive : ∀ n, (run (history.take n)).Exclusive
  toggled : Throughout run (fun s event => ∀ key, (s.step event).isEnabled key →
    s.isEnabled key ∨ event = .toggle ∧ ∃ route, s.target = some (key, route)) history
  muted : Throughout run (fun s event => ∀ key title, event = .register key title →
    (s.step event).routes.lookup key = some ⟨false, title⟩) history
  shown : ∀ n, (run (history.take n)).Shown

/-- Consent is exclusive if and only if no route is toggled while another one is on. -/
theorem consented_iff (history : List (Event I)) :
    Consented history ↔ Throughout run State.Sole history := by
  have halways : (∀ n, (run (history.take n)).Exclusive) ↔ Throughout run State.Sole history :=
    throughout_iff_always (fun history => (run history).Exclusive) nofun
    (fun history event hbefore => by
      rw [run, foldl_concat]
      exact exclusive_step hbefore event)
  constructor
  · exact fun h => halways.mp h.exclusive
  · intro h
    refine ⟨halways.mpr h, fun _ _ _ _ _ => isEnabled_step, ?_, fun _ => shown _⟩
    rintro _ _ _ _ _ _ rfl
    exact lookup_insert_self

/-- The old channel's route is on when that of the new one is turned on. -/
theorem replacement_toggled :
    ¬ Consented [.register (toLex (7, 1)) "owner 7", .toggle,
      .register (toLex (7, 2)) "owner 7", .toggle] := by
  intro h
  have hboth := h.exclusive 4 (toLex (7, 1)) (toLex (7, 2))
  exact absurd (hboth (by decide +kernel) (by decide +kernel)) (by decide)

end Vivido.Microphone
