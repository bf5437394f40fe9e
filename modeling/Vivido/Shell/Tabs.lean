import Mathlib.Data.Int.Notation
import Mathlib.Data.List.Nodup
import Mathlib.Tactic.SplitIfs

/-!
The tabs of a standalone window. The active tab and the first visible one are
indices, which every operation puts back within the tabs that it leaves.
-/

namespace Vivido.Shell

open List

structure Tab where
  windowId : ℕ
  title : List Char

structure VisibleTabs where
  start : ℕ
  stop : ℕ
  hasPrevious : Bool
  hasNext : Bool

structure Tabs where
  tabs : List Tab := []
  active : Option ℕ := none
  visibleStart : ℕ := 0

namespace Tabs

variable {s : Tabs} {windowId : ℕ}

def activeWindow (s : Tabs) : Option ℕ :=
  (s.active.bind fun index => s.tabs[index]?).map Tab.windowId

def add (s : Tabs) (windowId : ℕ) (title : List Char) : Tabs :=
  { s with
    tabs := s.tabs ++ [⟨windowId, title⟩]
    active := some s.tabs.length }

def select (s : Tabs) (index : ℕ) : Tabs × Bool :=
  if s.tabs.length ≤ index ∨ s.active = some index then (s, false)
  else ({ s with active := some index }, true)

def position (s : Tabs) (windowId : ℕ) : Option ℕ :=
  s.tabs.findIdx? fun tab => tab.windowId = windowId

def selectWindow (s : Tabs) (windowId : ℕ) : Tabs × Bool :=
  match s.position windowId with
  | none => (s, false)
  | some index => s.select index

def cycle (s : Tabs) (delta : ℤ) : Tabs × Bool :=
  match s.active with
  | none => (s, false)
  | some active =>
    if s.tabs.length < 2 then (s, false)
    else s.select (((active : ℤ) + delta) % s.tabs.length).toNat

/-- Remove a tab and select the tab that occupied its position, otherwise the previous tab. -/
def remove (s : Tabs) (windowId : ℕ) : Tabs × Bool :=
  match s.position windowId with
  | none => (s, false)
  | some index =>
    let tabs := s.tabs.eraseIdx index
    ({ tabs
       active := if tabs.isEmpty then none else some (min index (tabs.length - 1))
       visibleStart := min s.visibleStart (tabs.length - 1) }, true)

def updateTitle (s : Tabs) (windowId : ℕ) (title : List Char) : Tabs × Bool :=
  match s.tabs.find? fun tab => tab.windowId = windowId with
  | none => (s, false)
  | some tab =>
    if tab.title = title then (s, false)
    else ({ s with tabs := s.tabs.modify (s.tabs.findIdx fun tab => tab.windowId = windowId)
                    fun tab => { tab with title } }, true)

def visible (s : Tabs) (capacity : ℕ) : Tabs × VisibleTabs :=
  let capacity := min (max capacity 1) (max s.tabs.length 1)
  let active := s.active.getD 0
  let start :=
    if active < s.visibleStart then active
    else if s.visibleStart + capacity ≤ active then active + 1 - capacity
    else s.visibleStart
  let start := min start (s.tabs.length - capacity)
  let stop := min (start + capacity) s.tabs.length
  ({ s with visibleStart := start }, ⟨start, stop, 0 < start, stop < s.tabs.length⟩)

def shiftVisible (s : Tabs) (delta : ℤ) (capacity : ℕ) : Tabs :=
  let maxStart := s.tabs.length - max capacity 1
  { s with visibleStart := min (max ((s.visibleStart : ℤ) + delta) 0).toNat maxStart }

inductive Event where
  | add (windowId : ℕ) (title : List Char)
  | select (index : ℕ)
  | selectWindow (windowId : ℕ)
  | cycle (delta : ℤ)
  | remove (windowId : ℕ)
  | updateTitle (windowId : ℕ) (title : List Char)
  | visible (capacity : ℕ)
  | shiftVisible (delta : ℤ) (capacity : ℕ)

def step (s : Tabs) : Event → Tabs
  | .add windowId title => s.add windowId title
  | .select index => (s.select index).1
  | .selectWindow windowId => (s.selectWindow windowId).1
  | .cycle delta => (s.cycle delta).1
  | .remove windowId => (s.remove windowId).1
  | .updateTitle windowId title => (s.updateTitle windowId title).1
  | .visible capacity => (s.visible capacity).1
  | .shiftVisible delta capacity => s.shiftVisible delta capacity

def windows (s : Tabs) : List ℕ := s.tabs.map Tab.windowId

/-- A tab is added for a window that has none. -/
def Event.Fresh (s : Tabs) : Event → Prop
  | .add windowId _ => windowId ∉ s.windows
  | _ => True

inductive Reachable : Tabs → Prop where
  | start : Reachable {}
  | step {s : Tabs} {event : Event} (hs : Reachable s) (hfresh : event.Fresh s) :
      Reachable (s.step event)

/-- A window has one tab, and the active index is that of a tab. -/
structure Placed (s : Tabs) : Prop where
  nodup : s.windows.Nodup
  active : (∃ index < s.tabs.length, s.active = some index) ∨ s.active = none ∧ s.tabs = []

theorem placed_select (h : s.Placed) (index : ℕ) : (s.select index).1.Placed := by
  unfold select
  split_ifs with hindex
  · exact h
  · exact ⟨h.nodup, .inl ⟨index, by grind, rfl⟩⟩

theorem placed_remove (h : s.Placed) (windowId : ℕ) : (s.remove windowId).1.Placed := by
  unfold remove
  split
  · exact h
  rename_i index _
  refine ⟨h.nodup.sublist ((eraseIdx_sublist _ index).map _), ?_⟩
  by_cases hempty : s.tabs.eraseIdx index = []
  · right
    simp [hempty]
  · left
    have := List.length_pos_iff.mpr hempty
    refine ⟨min index ((s.tabs.eraseIdx index).length - 1), by dsimp only; omega, ?_⟩
    simp [hempty]

theorem windows_updateTitle (windowId : ℕ) (title : List Char) :
    (s.updateTitle windowId title).1.windows = s.windows := by
  unfold updateTitle
  split
  · rfl
  split_ifs
  · rfl
  · apply ext_getElem
    · simp [windows]
    · intro i _ _
      simp only [windows, getElem_map, getElem_modify]
      split_ifs <;> rfl

theorem placed_updateTitle (h : s.Placed) (windowId : ℕ) (title : List Char) :
    (s.updateTitle windowId title).1.Placed := by
  have hwindows := windows_updateTitle (s := s) windowId title
  have hlength := congrArg List.length hwindows
  simp only [windows, length_map] at hlength
  have hactive : (s.updateTitle windowId title).1.active = s.active := by
    unfold updateTitle
    split
    · rfl
    · split_ifs <;> rfl
  refine ⟨hwindows ▸ h.nodup, ?_⟩
  rw [hactive, hlength, ← length_eq_zero_iff, hlength, length_eq_zero_iff]
  exact h.active

theorem placed_step {event : Event} (h : s.Placed) (hfresh : event.Fresh s) :
    (s.step event).Placed := by
  cases event with
  | add =>
    refine ⟨?_, .inl ⟨s.tabs.length, by simp [step, add], by simp [step, add]⟩⟩
    simpa [step, add, windows, nodup_append] using ⟨h.nodup, fun tab hmem heq =>
      hfresh (List.mem_map.mpr ⟨tab, hmem, heq⟩)⟩
  | select index => exact placed_select h index
  | selectWindow =>
    simp only [step, selectWindow]
    split
    · exact h
    · exact placed_select h _
  | cycle =>
    simp only [step, cycle]
    split
    · exact h
    · split_ifs
      · exact h
      · exact placed_select h _
  | remove windowId => exact placed_remove h windowId
  | updateTitle windowId title => exact placed_updateTitle h windowId title
  | visible | shiftVisible => exact ⟨h.nodup, h.active⟩

theorem Reachable.placed (h : Reachable s) : s.Placed := by
  induction h with
  | start => exact ⟨nodup_nil, .inr ⟨rfl, rfl⟩⟩
  | step _ hfresh ih => exact placed_step ih hfresh

/-- The tabs on show: as many as fit, the active one among them, and whether there are others. -/
structure Shows (s : Tabs) (capacity : ℕ) (shown : VisibleTabs) : Prop where
  ordered : shown.start ≤ shown.stop
  within : shown.stop ≤ s.tabs.length
  count : shown.stop - shown.start = min (max capacity 1) s.tabs.length
  active : ∀ index, s.active = some index → shown.start ≤ index ∧ index < shown.stop
  previous : shown.hasPrevious ↔ ∃ index < s.tabs.length, index < shown.start
  next : shown.hasNext ↔ ∃ index < s.tabs.length, shown.stop ≤ index

theorem shows_visible (h : s.Placed) (capacity : ℕ) : s.Shows capacity (s.visible capacity).2 := by
  have hactive : ∀ index, s.active = some index →
      index < s.tabs.length ∧ s.active.getD 0 = index := by
    intro index hindex
    rcases h.active with ⟨found, hfound, heq⟩ | ⟨heq, -⟩ <;> grind
  have hnone : s.active.getD 0 = 0 ∨ s.active.getD 0 < s.tabs.length := by
    rcases h.active with ⟨_, _, _⟩ | ⟨_, -⟩ <;> simp [*]
  generalize hget : s.active.getD 0 = active at hactive hnone
  unfold visible
  rw [hget]
  constructor
  · dsimp only
    omega
  · dsimp only
    omega
  · dsimp only
    split_ifs <;> omega
  · intro index hindex
    obtain ⟨hlt, rfl⟩ := hactive index hindex
    dsimp only
    split_ifs <;> omega
  · rw [decide_eq_true_iff]
    refine ⟨fun hpos => ⟨0, ?_, hpos⟩, fun ⟨_, _, hlt⟩ => Nat.zero_lt_of_lt hlt⟩
    omega
  · rw [decide_eq_true_iff]
    exact ⟨fun hlt => ⟨_, hlt, Nat.le_refl _⟩, fun ⟨_, hlt, hle⟩ => Nat.lt_of_le_of_lt hle hlt⟩

theorem position_eq {before after : List Tab} {tab : Tab} (h : s.windows.Nodup)
    (htabs : s.tabs = before ++ tab :: after) : s.position tab.windowId = some before.length := by
  rw [windows, htabs, map_append, nodup_append] at h
  obtain ⟨-, -, hapart⟩ := h
  rw [position, htabs, findIdx?_append, List.findIdx?_eq_none_iff.mpr]
  · simp [findIdx?_cons]
  · intro other hother
    have := hapart other.windowId (mem_map_of_mem hother) tab.windowId (by simp)
    simpa using this

/-- What takes the place of a removed tab becomes active, else what came before it. -/
theorem remove_eq {before after : List Tab} {tab : Tab} (h : s.windows.Nodup)
    (htabs : s.tabs = before ++ tab :: after) : (s.remove tab.windowId).1.tabs = before ++ after ∧
      (s.remove tab.windowId).1.activeWindow =
        (after.head?.or before.getLast?).map Tab.windowId := by
  have herase : s.tabs.eraseIdx before.length = before ++ after := by
    rw [htabs, eraseIdx_append_of_length_le (Nat.le_refl _)]
    simp
  unfold remove
  rw [position_eq h htabs]
  simp only [herase, activeWindow, true_and]
  cases after with
  | cons => simp
  | nil =>
    rcases eq_nil_or_concat before with rfl | ⟨_, _, rfl⟩
    · simp
    · simp

theorem remove_unknown (h : windowId ∉ s.windows) : s.remove windowId = (s, false) := by
  have : s.position windowId = none := by
    refine List.findIdx?_eq_none_iff.mpr fun tab hmem => ?_
    simpa using fun heq => h (List.mem_map.mpr ⟨tab, hmem, heq⟩)
  simp [remove, this]

/-- Between any two steps a tab is active if there is one, removing one activates its right
neighbour, else its left one, and the tabs on show include the active one. -/
theorem reachable_keeps_place (h : Reachable s) : (s.activeWindow.isSome ↔ s.tabs ≠ []) ∧
      (∀ before tab after, s.tabs = before ++ tab :: after →
        (s.remove tab.windowId).1.tabs = before ++ after ∧ (s.remove tab.windowId).1.activeWindow =
            (after.head?.or before.getLast?).map Tab.windowId) ∧
      (∀ windowId, windowId ∉ s.windows → s.remove windowId = (s, false)) ∧
      ∀ capacity, (s.visible capacity).1.tabs = s.tabs ∧
        (s.visible capacity).1.active = s.active ∧ s.Shows capacity (s.visible capacity).2 := by
  refine ⟨?_, fun _ _ _ htabs => remove_eq h.placed.nodup htabs, fun _ => remove_unknown,
    fun capacity => ⟨rfl, rfl, shows_visible h.placed capacity⟩⟩
  rcases h.placed.active with ⟨_, hindex, hactive⟩ | ⟨hactive, htabs⟩
  · simp [activeWindow, hactive, hindex, ne_nil_of_length_pos (Nat.zero_lt_of_lt hindex)]
  · simp [activeWindow, hactive, htabs]

/-- Three tabs, of which the last is active. -/
def threeTabs : Tabs :=
  ((({} : Tabs).step (.add 1 [])).step (.add 2 [])).step (.add 3 [])

theorem reachable_threeTabs : Reachable threeTabs :=
  .step (.step (.step .start (by simp [Event.Fresh, windows]))
    (by simp [Event.Fresh, windows, Tabs.step, add])) (by simp [Event.Fresh, windows, Tabs.step, add])

theorem reachable_keeps_place_threeTabs :
    (threeTabs.remove 1).1.activeWindow = some 2 ∧ (threeTabs.remove 3).1.activeWindow = some 2 :=
  ⟨((reachable_keeps_place reachable_threeTabs).2.1 [] ⟨1, []⟩ _ rfl).2,
    ((reachable_keeps_place reachable_threeTabs).2.1 [⟨1, []⟩, ⟨2, []⟩] ⟨3, []⟩ [] rfl).2⟩

/-- Removing the first tab moves the selection away from the last, which was active. -/
theorem inactive_removal_selects : ¬ ∀ s, Reachable s → ∀ windowId, s.activeWindow ≠ some windowId →
      (s.remove windowId).1.activeWindow = s.activeWindow := by
  intro h
  exact absurd (h _ reachable_threeTabs 1 (by decide)) (by decide)

end Tabs

end Vivido.Shell
