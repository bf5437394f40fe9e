import Vivido.Grid.Resize

/-!
A resize keeps the history limit: neither the loops over rows nor the moves of
the screen's edge touch it.
-/

namespace Vivido.Terminal.Grid

variable {g g' : Grid}

theorem limit_decreaseScrollLimit (g : Grid) (count : ℕ) :
    (g.decreaseScrollLimit count).maxScrollLimit = g.maxScrollLimit := by
  unfold decreaseScrollLimit
  dsimp only
  split <;> rfl

theorem limit_growLines (g : Grid) (target : ℕ) :
    (g.growLines target).maxScrollLimit = g.maxScrollLimit := by
  unfold growLines
  dsimp only
  rw [limit_decreaseScrollLimit]
  split
  · exact (sameFrame_scrollUpResetting ..).maxScrollLimit
  · rfl

theorem limit_shrinkLines (g : Grid) (target : ℕ) :
    (g.shrinkLines target).maxScrollLimit = g.maxScrollLimit := by
  unfold shrinkLines
  dsimp only
  split
  · exact (sameFrame_scrollUpResetting ..).maxScrollLimit
  · rfl

theorem limit_unwrapCursor (g : Grid) (reflow : Bool) :
    (g.unwrapCursor reflow).maxScrollLimit = g.maxScrollLimit := by
  unfold unwrapCursor
  split <;> rfl

theorem limit_growStep (reflow : Bool) (columns : ℕ) (state : GrowState) (i : ℕ) (row : Row) :
    (growStep reflow columns state i row).grid.maxScrollLimit = state.grid.maxScrollLimit := by
  unfold growStep
  split
  · rfl
  split
  · rfl
  · dsimp only
    split
    · split <;> rfl
    · split <;> rfl

theorem limit_growColumns (g : Grid) (reflow : Bool) (columns : ℕ) :
    (g.growColumns reflow columns).maxScrollLimit = g.maxScrollLimit := by
  have hloop : ∀ (rows : List (Row × ℕ)) (state : GrowState),
      (rows.foldl (fun state entry => growStep reflow columns state entry.2 entry.1)
        state).grid.maxScrollLimit = state.grid.maxScrollLimit := by
    intro rows
    induction rows with
    | nil => exact fun _ => rfl
    | cons _ _ ih => exact fun state => (ih _).trans (limit_growStep ..)
  unfold growColumns
  dsimp only
  split <;> split <;> exact (hloop _ _).trans (limit_unwrapCursor ..)

theorem limit_shrinkStep (reflow : Bool) (columns i : ℕ) (state : ShrinkState) (row : Row) :
    (shrinkStep reflow columns i state row).1.grid.maxScrollLimit = state.grid.maxScrollLimit := by
  have hpush : ∀ (row : Row) (wrapped : List Cell),
      (pushWrapped columns i state row wrapped).1.grid.maxScrollLimit =
        state.grid.maxScrollLimit := by
    intro _ _
    unfold pushWrapped
    dsimp only
    split
    · rfl
    · split <;> rfl
  unfold shrinkStep
  split
  · split
    · exact hpush _ _
    · rfl
  · dsimp only
    split
    · exact hpush _ _
    · rfl

variable {reflow : Bool} {columns : ℕ}

theorem limit_shrinkLoop {i fuel : ℕ} {state state' : ShrinkState} {row : Row}
    (h : shrinkLoop reflow columns i fuel state row = some state') :
    state'.grid.maxScrollLimit = state.grid.maxScrollLimit := by
  induction fuel generalizing state row with
  | zero => cases h
  | succ fuel ih =>
    have hstep := limit_shrinkStep reflow columns i state row
    unfold shrinkLoop at h
    split at h
    · rename_i next heq
      rw [heq] at hstep
      cases h
      exact hstep
    · rename_i next rest heq
      rw [heq] at hstep
      exact (ih h).trans hstep

theorem limit_shrinkRows {rows : List (Row × ℕ)} {state state' : ShrinkState}
    (h : shrinkRows reflow columns rows state = some state') :
    state'.grid.maxScrollLimit = state.grid.maxScrollLimit := by
  have htake : ∀ (i : ℕ) (state : ShrinkState) (row : Row),
      (takeBuffered i state row).1.grid.maxScrollLimit = state.grid.maxScrollLimit := by
    intro i state row
    unfold takeBuffered
    split <;> rfl
  induction rows generalizing state with
  | nil =>
    cases h
    rfl
  | cons entry _ ih =>
    obtain ⟨_, i⟩ := entry
    obtain ⟨_, hloop, hrest⟩ := Option.bind_eq_some_iff.mp h
    exact (ih hrest).trans ((limit_shrinkLoop hloop).trans (htake ..))

theorem limit_shrinkColumns (h : g.shrinkColumns reflow columns = some g') :
    g'.maxScrollLimit = g.maxScrollLimit := by
  have hcursor : ∀ g : Grid, (g.shrinkCursor reflow columns).maxScrollLimit = g.maxScrollLimit := by
    intro g
    unfold shrinkCursor
    dsimp only
    split
    · rfl
    · split <;> rfl
  obtain ⟨_, hrows, hgrid⟩ := Option.bind_eq_some_iff.mp h
  cases hgrid
  exact (hcursor _).trans ((limit_shrinkRows hrows).trans (limit_unwrapCursor ..))

theorem limit_resize {lines : ℕ} (h : g.resize reflow lines columns = some g') :
    g'.maxScrollLimit = g.maxScrollLimit := by
  let start : Grid :=
    { g with cursor.erase := {}, raw := (g.raw.mapAccum Row.exportExtras []).1 }
  have hlines : (if start.lines < lines then start.growLines lines
      else if lines < start.lines then start.shrinkLines lines else start).maxScrollLimit =
        g.maxScrollLimit := by
    split
    · exact limit_growLines ..
    · split
      · exact limit_shrinkLines ..
      · rfl
  unfold resize at h
  dsimp only at h
  change ((if (if start.lines < lines then start.growLines lines
    else if lines < start.lines then start.shrinkLines lines else start).columns < columns
      then _ else _ : Option Grid)) = _ at h
  generalize (if start.lines < lines then start.growLines lines
    else if lines < start.lines then start.shrinkLines lines else start) = u at h hlines
  split at h
  · obtain ⟨resized, hcolumns, hgrid⟩ := Option.bind_eq_some_iff.mp h
    cases hcolumns
    cases hgrid
    exact (limit_growColumns ..).trans hlines
  · split at h
    · obtain ⟨resized, hcolumns, hgrid⟩ := Option.bind_eq_some_iff.mp h
      cases hgrid
      exact (limit_shrinkColumns hcolumns).trans hlines
    · obtain ⟨_, hcolumns, hgrid⟩ := Option.bind_eq_some_iff.mp h
      cases hcolumns
      cases hgrid
      exact hlines

theorem limit_resizeGrid {lines : ℕ} (h : g.resizeGrid reflow lines columns = some g') :
    g'.maxScrollLimit = g.maxScrollLimit := by
  unfold resizeGrid at h
  split at h
  · obtain ⟨_, hresize, rfl⟩ := Option.map_eq_some_iff.mp h
    have hlimit := limit_resize hresize
    exact hlimit
  · exact limit_resize h

end Vivido.Terminal.Grid
