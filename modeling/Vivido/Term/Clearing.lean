import Vivido.Graphics.Graphics
import Vivido.Grid.Clearing
import Vivido.Term.Screens
import Vivido.Term.Sound

/-!
What clearing the screen erases. Each mode addresses the cells on one side of the
cursor, the cursor's own among them, or all of them. Clearing all of the primary
screen carries its text into the history first, and its images with it; the scene
is told to clear, not by how many lines the text moved.
-/

namespace Vivido

open List Option

namespace Graphics.KittyGraphics

variable {F : Type}

/-- `has_placements`. -/
def hasPlacements (g : KittyGraphics F) : Bool := g.store.hasPlacements

end Graphics.KittyGraphics

namespace Terminal

section Index

variable {α : Type*}

variable (f : α → α) (l : List α)

theorem map_take_append_drop (count : ℕ) : (l.take count).map f ++ l.drop count =
      l.mapIdx fun i x => if i < count then f x else x := by
  apply ext_getElem?
  intro i
  rw [getElem?_mapIdx]
  by_cases hbefore : i < count
  · by_cases hinside : i < l.length
    · rw [getElem?_append_left (by rw [length_map, length_take]; omega),
        getElem?_map, getElem?_take_of_lt hbefore]
      simp [hbefore]
    · rw [getElem?_eq_none (by simp; omega), getElem?_eq_none (by omega), map_none]
  · rw [getElem?_append_right (by rw [length_map, length_take]; omega),
      length_map, length_take, getElem?_drop]
    simp only [hbefore, if_false, Option.map_id']
    by_cases hinside : count ≤ l.length
    · rw [Nat.min_eq_left hinside, Nat.add_sub_cancel' (Nat.le_of_not_lt hbefore)]
    · rw [getElem?_eq_none (by omega), getElem?_eq_none (by omega)]

theorem take_append_map_drop (count : ℕ) : l.take count ++ (l.drop count).map f =
      l.mapIdx fun i x => if count ≤ i then f x else x := by
  apply ext_getElem?
  intro i
  rw [getElem?_mapIdx]
  by_cases hbefore : i < count
  · by_cases hinside : i < l.length
    · rw [getElem?_append_left (by rw [length_take]; omega),
        getElem?_take_of_lt hbefore]
      simp [Nat.not_le_of_lt hbefore]
    · rw [getElem?_eq_none (by simp; omega), getElem?_eq_none (by omega), map_none]
  · rw [getElem?_append_right (by rw [length_take]; omega), length_take,
      getElem?_map, getElem?_drop]
    simp only [Nat.le_of_not_lt hbefore, if_true]
    by_cases hinside : count ≤ l.length
    · rw [Nat.min_eq_left hinside, Nat.add_sub_cancel' (Nat.le_of_not_lt hbefore)]
    · rw [getElem?_eq_none (by omega), getElem?_eq_none (by omega)]

theorem modify_eq_mapIdx (index : ℕ) :
    l.modify index f = l.mapIdx fun i x => if i = index then f x else x := by
  apply ext_getElem?
  intro i
  rw [getElem?_mapIdx, getElem?_modify]
  by_cases hsame : index = i
  · simp [hsame]
  · simp [hsame, Ne.symm hsame]

theorem mapIdx_eq_replicate {f : ℕ → α → α} {l : List α} {x : α}
    (h : ∀ i, ∀ y ∈ l, f i y = x) : l.mapIdx f = List.replicate l.length x := by
  rw [eq_replicate_iff]
  refine ⟨length_mapIdx, ?_⟩
  intro y hy
  obtain ⟨i, hi, rfl⟩ := List.mem_mapIdx.mp hy
  exact h i _ (getElem_mem hi)

theorem mapIdx_eq_self {f : ℕ → α → α} {l : List α} (h : ∀ i, ∀ y ∈ l, f i y = y) :
    l.mapIdx f = l := by
  apply ext_getElem (length_mapIdx)
  intro i _ hi'
  rw [getElem_mapIdx]
  exact h i _ (getElem_mem hi')

end Index

namespace Term

variable {F : Type} [Graphics.F32 F] {t : Term} {P : ℕ → Row → Prop}

/-- `i32::try_from(n).unwrap_or(i32::MAX)`. -/
def toI32 (n : ℕ) : ℤ := min n (2 ^ 31 - 1)

/-- What `clear_screen` tells the images, off Windows. -/
def clearScreenGraphics (t : Term) (mode : ClearMode) (graphics : Graphics.KittyGraphics F) :
    Graphics.KittyGraphics F :=
  match mode with
  | .all =>
      let graphics := if t.mode.altScreen then graphics
        else
          let preserved := t.grid.contentLines
          if 0 < preserved ∧ graphics.hasPlacements then
            graphics.scroll {
              top := 0
              stop := toI32 t.screenLines
              lines := toI32 preserved
              screenLines := toI32 t.screenLines
              historyTop := t.grid.clearViewport.topmostLine }
          else graphics
      graphics.clearScreen false
  | .saved => graphics.clearHistory
  | .above => graphics
  | .below => graphics

def screenCells (t : Term) : List (List Cell) := t.grid.toLines.visible.map Row.inner

/-- The cells a mode addresses: those up to the cursor, those from it on, or all. -/
def Addressed (t : Term) (mode : ClearMode) (point : Point) : Prop :=
  match mode with
  | .above => ¬t.cursor.point.before point
  | .below => ¬point.before t.cursor.point
  | .all => True
  | .saved => False

instance (t : Term) (mode : ClearMode) (point : Point) : Decidable (t.Addressed mode point) :=
  match mode with
  | .above => inferInstanceAs (Decidable (¬_))
  | .below => inferInstanceAs (Decidable (¬_))
  | .all => inferInstanceAs (Decidable True)
  | .saved => inferInstanceAs (Decidable False)

/-- The cells of a line with the addressed ones erased. -/
def clearedLine (t : Term) (mode : ClearMode) (line : ℕ) (cells : List Cell) : List Cell :=
  cells.mapIdx fun column cell =>
    if t.Addressed mode { line := line, column := column } then t.cursor.erase else cell

/-- The lines a mode carries into the history: those down to the last one with content. -/
def pushed (t : Term) (mode : ClearMode) : ℕ :=
  if mode = .all ∧ t.mode.altScreen = false then Grid.contentRows t.grid.toLines.visible else 0

/-- The rows that a mode resets are such as a reset clears, the cursor is not on the second line
with the one above it to be cleared, and an empty screen has history. -/
def ClearsCleanly (t : Term) : ClearMode → Prop
  | .above => t.cursor.point.line ≠ 1 ∧
      ∀ row ∈ t.grid.toLines.visible.take t.cursor.point.line.toNat,
        row.Clears t.columns t.cursor.erase
  | .below => ∀ row ∈ t.grid.toLines.visible.drop (t.cursor.point.line.toNat + 1),
      row.Clears t.columns t.cursor.erase
  | .all =>
      (t.mode.altScreen = true →
        ∀ row ∈ t.grid.toLines.visible, row.Clears t.columns t.cursor.erase) ∧
      (t.mode.altScreen = false →
        (Grid.contentRows t.grid.toLines.visible = 0 → 0 < t.historySize) ∧
        ∀ row ∈ t.grid.toLines.visible.drop (t.pushed .all) ++ t.grid.incoming (t.pushed .all),
          row.Clears t.columns t.cursor.erase)
  | .saved => True

instance (t : Term) (mode : ClearMode) : Decidable (t.ClearsCleanly mode) :=
  match mode with
  | .above => inferInstanceAs (Decidable (_ ∧ ∀ row ∈ _, _))
  | .below => inferInstanceAs (Decidable (∀ row ∈ _, _))
  | .all => inferInstanceAs (Decidable (_ ∧ _))
  | .saved => inferInstanceAs (Decidable True)

/-- Exactly the addressed cells are erased; what enters the history is what the images are told
of, and the scene is told to clear. -/
structure ClearsScreen (t : Term) (mode : ClearMode) (graphics : Graphics.KittyGraphics F) :
    Prop where
  screen : (t.clearScreen mode).screenCells = t.screenCells.mapIdx (t.clearedLine mode)
  history : mode ≠ .saved → (t.clearScreen mode).grid.toLines.history =
    (t.grid.toLines.history ++ t.grid.toLines.visible.take (t.pushed mode)).drop
      (t.historySize + t.pushed mode - t.grid.maxScrollLimit)
  inactiveGrid : (t.clearScreen mode).inactiveGrid = t.inactiveGrid
  cursor : (t.clearScreen mode).cursor = t.cursor
  preserved : mode = .all → t.mode.altScreen = false → t.grid.contentLines = t.pushed mode
  images : mode = .all → t.clearScreenGraphics mode graphics =
    (if 0 < t.pushed mode ∧ graphics.hasPlacements then
      graphics.scroll {
        top := 0
        stop := toI32 t.screenLines
        lines := toI32 (t.pushed mode)
        screenLines := toI32 t.screenLines
        historyTop := (t.clearScreen mode).grid.topmostLine }
    else graphics).clearScreen false
  events : (t.clearScreen mode).events =
    if mode = .all then t.flushGridScroll.events ++ [.vividClear] else t.events

theorem clearedLine_all {mode : ClearMode} {line : ℕ} (cells : List Cell)
    (h : ∀ column, t.Addressed mode { line := line, column := column }) :
    t.clearedLine mode line cells = List.replicate cells.length t.cursor.erase :=
  mapIdx_eq_replicate fun column _ _ => if_pos (h column)

theorem clearedLine_none {mode : ClearMode} {line : ℕ} (cells : List Cell)
    (h : ∀ column, ¬t.Addressed mode { line := line, column := column }) :
    t.clearedLine mode line cells = cells :=
  mapIdx_eq_self fun column _ _ => if_neg (h column)

theorem inner_reset (ht : t.Sound P) {row : Row} (h : row.Clears t.columns t.cursor.erase) :
    (row.reset t.cursor.erase).inner = List.replicate row.inner.length t.cursor.erase := by
  rw [Row.clears_iff.mp h, h.1]
  change List.replicate t.columns (blank t.grid.cursor.erase.style) = _
  rw [← ht.grid.cursor.erase]
  rfl

/-- Rows of the screen updated in place are its addressed cells erased where each row is. -/
theorem screenCells_of_mapIdx {t' : Term} {mode : ClearMode} {update : ℕ → Row → Row}
    (hvisible : t'.grid.toLines.visible = t.grid.toLines.visible.mapIdx update)
    (hrow : ∀ line row, t.grid.toLines.visible[line]? = some row →
      (update line row).inner = t.clearedLine mode line row.inner) :
    t'.screenCells = t.screenCells.mapIdx (t.clearedLine mode) := by
  unfold screenCells
  rw [hvisible]
  apply ext_getElem?
  intro line
  rw [getElem?_map, getElem?_mapIdx, getElem?_mapIdx, getElem?_map,
    Option.map_map, Option.map_map]
  cases hread : t.grid.toLines.visible[line]? with
  | none => rfl
  | some row =>
    rw [map_some, map_some]
    exact congrArg some (hrow line row hread)

theorem line_toNat (ht : t.Sound P) : ((t.cursor.point.line.toNat : ℕ) : ℤ) = t.cursor.point.line ∧
    t.cursor.point.line.toNat < t.grid.lines := by
  have hline : ((t.cursor.point.line.toNat : ℕ) : ℤ) = t.cursor.point.line :=
    Int.toNat_of_nonneg ht.grid.cursor.line_nonneg
  have hlt := ht.grid.cursor.line_lt
  change t.cursor.point.line < _ at hlt
  exact ⟨hline, by omega⟩

theorem rows_clearAbove (ht : t.Sound P) :
    (t.clearScreen .above).grid.toLines.visible = (t.grid.toLines.visible.mapIdx fun line row =>
        if line < t.cursor.point.line.toNat ∧ 1 < t.cursor.point.line then
          row.reset t.cursor.erase else row).mapIdx (fun line row =>
        if line = t.cursor.point.line.toNat then
          row.fillRange 0 (min (t.cursor.point.column + 1) t.columns) t.cursor.erase false
        else row) ∧ (t.clearScreen .above).grid.toLines.history = t.grid.toLines.history := by
  have hframed := ht.grid.framed
  obtain ⟨hline, hlt⟩ := line_toNat ht
  by_cases hseveral : 1 < t.cursor.point.line
  · have hgrid : (t.clearScreen .above).grid =
        (t.grid.resetLines (lineRange ((0 : ℕ) : ℤ) (t.cursor.point.line.toNat : ℤ))).modifyRow
          (t.cursor.point.line.toNat : ℤ) (·.fillRange 0
            (min (t.cursor.point.column + 1) t.columns) t.cursor.erase false) := by
      unfold clearScreen
      dsimp only
      rw [if_pos hseveral, hline]
      rfl
    obtain ⟨hvisible, hhistory, hreset, -⟩ := hframed.resetLines 0 _ (Nat.zero_le _)
      (Nat.le_of_lt hlt)
    obtain ⟨hvisible', hhistory', -⟩ := hreset.modifyRow t.cursor.point.line.toNat hlt
      (·.fillRange 0 (min (t.cursor.point.column + 1) t.columns) t.cursor.erase false)
    rw [← hgrid] at hvisible' hhistory'
    refine ⟨?_, hhistory'.trans hhistory⟩
    rw [hvisible', hvisible, modify_eq_mapIdx, take_zero, nil_append, drop_zero,
      map_take_append_drop]
    simp only [hseveral, and_true]
    rfl
  · have hgrid : (t.clearScreen .above).grid = t.grid.modifyRow
        (t.cursor.point.line.toNat : ℤ) (·.fillRange 0
          (min (t.cursor.point.column + 1) t.columns) t.cursor.erase false) := by
      unfold clearScreen
      dsimp only
      rw [if_neg hseveral, hline]
      rfl
    obtain ⟨hvisible, hhistory, -⟩ := hframed.modifyRow t.cursor.point.line.toNat hlt
      (·.fillRange 0 (min (t.cursor.point.column + 1) t.columns) t.cursor.erase false)
    rw [← hgrid] at hvisible hhistory
    refine ⟨?_, hhistory⟩
    rw [hvisible, modify_eq_mapIdx]
    congr 1
    symm
    apply mapIdx_eq_self
    intro i _ _
    rw [if_neg fun h => hseveral h.2]

theorem rows_clearBelow (ht : t.Sound P) :
    (t.clearScreen .below).grid.toLines.visible = (t.grid.toLines.visible.mapIdx fun line row =>
        if line = t.cursor.point.line.toNat then
          row.fillRange t.cursor.point.column t.columns t.cursor.erase true
        else row).mapIdx (fun line row =>
        if t.cursor.point.line.toNat + 1 ≤ line then row.reset t.cursor.erase else row) ∧
      (t.clearScreen .below).grid.toLines.history = t.grid.toLines.history := by
  have hframed := ht.grid.framed
  obtain ⟨hline, hlt⟩ := line_toNat ht
  obtain ⟨hvisible, hhistory, hwritten⟩ := hframed.modifyRow t.cursor.point.line.toNat hlt
    (·.fillRange t.cursor.point.column t.columns t.cursor.erase true)
  have hnext : ((t.cursor.point.line.toNat + 1 : ℕ) : ℤ) = t.cursor.point.line + 1 := by omega
  generalize hupdated : t.grid.modifyRow (t.cursor.point.line.toNat : ℤ)
    (·.fillRange t.cursor.point.column t.columns t.cursor.erase true) = updated at *
  have hheight : updated.lines = t.grid.lines := by rw [← hupdated]; rfl
  have herase : updated.cursor = t.cursor := by rw [← hupdated]; rfl
  have hlength : updated.toLines.visible.length = t.grid.lines :=
    hwritten.length_visible.trans hheight
  rw [modify_eq_mapIdx] at hvisible
  rw [← hvisible, ← take_append_map_drop]
  by_cases hbelow : t.cursor.point.line.toNat < t.screenLines - 1
  · have hgrid : (t.clearScreen .below).grid =
        updated.resetLines (lineRange ((t.cursor.point.line.toNat + 1 : ℕ) : ℤ) t.grid.lines) := by
      unfold clearScreen
      dsimp only
      rw [if_pos (by exact hbelow), hnext, ← hupdated, hline]
      rfl
    obtain ⟨hreset, hkept, -, -⟩ := hwritten.resetLines
      (t.cursor.point.line.toNat + 1) t.grid.lines hlt (Nat.le_of_eq hheight.symm)
    rw [take_of_length_le (Nat.le_of_eq hlength),
      drop_of_length_le (Nat.le_of_eq hlength), append_nil, herase] at hreset
    rw [hgrid]
    exact ⟨hreset, hkept.trans hhistory⟩
  · have hgrid : (t.clearScreen .below).grid = updated := by
      unfold clearScreen
      dsimp only
      rw [if_neg (by exact hbelow), ← hupdated, hline]
      rfl
    have hbottom : updated.toLines.visible.length ≤ t.cursor.point.line.toNat + 1 := by
      change ¬t.cursor.point.line.toNat < t.grid.lines - 1 at hbelow
      omega
    rw [hgrid, drop_of_length_le hbottom, take_of_length_le hbottom]
    exact ⟨(append_nil _).symm, hhistory⟩

theorem grid_flushGridScroll (t : Term) : t.flushGridScroll.grid = t.grid := by
  unfold flushGridScroll
  split <;> rfl

theorem rows_clearAll (ht : t.Sound P) (h : t.mode.altScreen = true) :
    (t.clearScreen .all).grid.toLines.visible =
        t.grid.toLines.visible.map (·.reset t.cursor.erase) ∧
      (t.clearScreen .all).grid.toLines.history = t.grid.toLines.history := by
  have hframed := ht.grid.framed
  have hgrid : (t.clearScreen .all).grid =
      t.grid.resetLines (lineRange ((0 : ℕ) : ℤ) t.grid.lines) := by
    unfold clearScreen
    dsimp only
    rw [if_pos h]
    exact grid_flushGridScroll _
  obtain ⟨hvisible, hhistory, -, -⟩ := hframed.resetLines 0 _ (Nat.zero_le _) (Nat.le_refl _)
  have hlength := Nat.le_of_eq hframed.length_visible
  rw [take_zero, nil_append, drop_zero, take_of_length_le hlength,
    drop_of_length_le hlength, append_nil] at hvisible
  rw [hgrid]
  exact ⟨hvisible, hhistory⟩

theorem grid_clearViewport (h : t.mode.altScreen = false) :
    (t.clearScreen .all).grid = t.grid.clearViewport := by
  unfold clearScreen
  dsimp only
  rw [if_neg (by rw [h]; exact Bool.false_ne_true)]
  exact grid_flushGridScroll _

theorem visible_clearSaved (ht : t.Sound P) :
    (t.clearScreen .saved).grid.toLines.visible = t.grid.toLines.visible := by
  have hsize := ht.grid.len_eq
  by_cases hhistory : 0 < t.historySize
  · have hgrid : (t.clearScreen .saved).grid = t.grid.clearHistory := by
      unfold clearScreen
      dsimp only
      rw [if_pos hhistory]
      rfl
    have hkept : t.grid.raw.visibleLines ≤ t.grid.raw.len - t.grid.historySize := by
      rw [ht.grid.visible]
      omega
    have hrows : t.grid.clearHistory.raw.rows = t.grid.raw.rows.drop t.grid.historySize := by
      change ((t.grid.raw.shrinkLines t.grid.historySize).truncate).rows = _
      rw [Storage.rows_truncate (Storage.wf_shrinkLines ht.grid.wf hkept),
        Storage.rows_shrinkLines ht.grid.wf hkept (by omega)]
    have hlength := Storage.length_rows ht.grid.wf
    rw [hgrid]
    change t.grid.clearHistory.raw.rows.drop (t.grid.clearHistory.raw.rows.length - t.grid.lines) =
      t.grid.raw.rows.drop (t.grid.raw.rows.length - t.grid.lines)
    rw [hrows, length_drop, drop_drop]
    congr 1
    omega
  · have hgrid : (t.clearScreen .saved).grid = t.grid := by
      unfold clearScreen
      dsimp only
      rw [if_neg hhistory]
      rfl
    rw [hgrid]

theorem length_row (hP : Row.Invariant P) (ht : t.Sound P) {line : ℕ} {row : Row}
    (hrow : t.grid.toLines.visible[line]? = some row) : row.inner.length = t.columns := by
  have hlength := ht.grid.framed.length_visible
  have hline : line < t.grid.lines := hlength ▸ (List.getElem?_eq_some_iff.mp hrow).1
  have hlt := Storage.computeIndex_lt ht.grid.wf
    (@Grid.Sound.inRange _ _ ht.grid (line : ℤ) (by omega) (by omega))
  rw [ht.grid.framed.getElem_visible hline, Option.some.injEq] at hrow
  apply hP.len
  apply ht.grid.rows
  rw [← hrow]
  unfold Grid.row Storage.get
  rw [getD_eq_getElem?_getD, getElem?_eq_getElem hlt, getD_some]
  exact getElem_mem hlt

/-- Filling the cells of a line between two columns is clearing the line where those are the
addressed ones. -/
theorem inner_fillRange_cleared {mode : ClearMode} {row : Row} {line first stop : ℕ}
    (openEnded : Bool) (h : ∀ column < row.inner.length, first ≤ column ∧ column < stop ↔
      t.Addressed mode { line := line, column := column }) :
    (row.fillRange first stop t.cursor.erase openEnded).inner =
      t.clearedLine mode line row.inner := by
  unfold Row.fillRange clearedLine
  dsimp only
  apply ext_getElem (by rw [length_mapIdx, length_mapIdx])
  intro column hcolumn _
  rw [length_mapIdx] at hcolumn
  rw [getElem_mapIdx, getElem_mapIdx]
  exact if_congr (h column hcolumn) rfl rfl

section

variable (hP : Row.Invariant P) (ht : t.Sound P)
include hP ht

theorem screen_clearAbove (h : t.ClearsCleanly .above) :
    (t.clearScreen .above).screenCells = t.screenCells.mapIdx (t.clearedLine .above) := by
  obtain ⟨_, hclears⟩ := h
  have hcolumn := ht.grid.cursor.column_lt
  change t.cursor.point.column < t.columns at hcolumn
  have hline : ((t.cursor.point.line.toNat : ℕ) : ℤ) = t.cursor.point.line :=
    Int.toNat_of_nonneg ht.grid.cursor.line_nonneg
  obtain ⟨hvisible, -⟩ := rows_clearAbove ht
  rw [mapIdx_mapIdx] at hvisible
  apply screenCells_of_mapIdx hvisible
  intro line row hrow
  have hwidth := length_row hP ht hrow
  dsimp only [Function.comp_apply]
  rcases Nat.lt_trichotomy line t.cursor.point.line.toNat with habove | hsame | hbelow
  · have hmem : row ∈ t.grid.toLines.visible.take t.cursor.point.line.toNat := by
      apply @mem_of_getElem? _ _ line
      rw [getElem?_take_of_lt habove, hrow]
    rw [if_neg (Nat.ne_of_lt habove), if_pos ⟨habove, by omega⟩, inner_reset ht (hclears row hmem),
      clearedLine_all]
    intro column hbefore
    unfold Point.before at hbefore
    dsimp only at hbefore
    omega
  · rw [if_pos hsame, if_neg fun h => Nat.lt_irrefl _ (hsame ▸ h.1)]
    apply inner_fillRange_cleared
    intro column _
    change _ ↔ ¬(_ ∨ _)
    dsimp only
    omega
  · rw [if_neg (Nat.ne_of_gt hbelow), if_neg fun h => Nat.lt_asymm hbelow h.1, clearedLine_none]
    intro _ hnot
    apply hnot
    left
    dsimp only
    omega

theorem screen_clearBelow (h : t.ClearsCleanly .below) :
    (t.clearScreen .below).screenCells = t.screenCells.mapIdx (t.clearedLine .below) := by
  have hline : ((t.cursor.point.line.toNat : ℕ) : ℤ) = t.cursor.point.line :=
    Int.toNat_of_nonneg ht.grid.cursor.line_nonneg
  obtain ⟨hvisible, -⟩ := rows_clearBelow ht
  rw [mapIdx_mapIdx] at hvisible
  apply screenCells_of_mapIdx hvisible
  intro line row hrow
  have hwidth := length_row hP ht hrow
  dsimp only [Function.comp_apply]
  rcases Nat.lt_trichotomy line t.cursor.point.line.toNat with habove | hsame | hbelow
  · rw [if_neg (by omega), if_neg (Nat.ne_of_lt habove), clearedLine_none]
    intro column hnot
    apply hnot
    left
    dsimp only
    omega
  · rw [if_neg (by omega), if_pos hsame]
    apply inner_fillRange_cleared
    intro column _
    change _ ↔ ¬(_ ∨ _)
    dsimp only
    omega
  · have hmem : row ∈ t.grid.toLines.visible.drop (t.cursor.point.line.toNat + 1) := by
      apply @mem_of_getElem? _ _ (line - (t.cursor.point.line.toNat + 1))
      rw [getElem?_drop, Nat.add_sub_cancel' hbelow, hrow]
    rw [if_pos (Nat.succ_le_of_lt hbelow), if_neg (Nat.ne_of_gt hbelow),
      inner_reset ht (h row hmem), clearedLine_all]
    intro _ hbefore
    unfold Point.before at hbefore
    dsimp only at hbefore
    omega

/-- A screen of reset rows is all erased where a reset clears each of them. -/
theorem screenCells_of_reset {t' : Term} {rows : List Row}
    (hvisible : t'.grid.toLines.visible = rows.map (·.reset t.cursor.erase))
    (hlength : rows.length = t.grid.lines)
    (hclears : ∀ row ∈ rows, row.Clears t.columns t.cursor.erase) :
    t'.screenCells = t.screenCells.mapIdx (t.clearedLine .all) := by
  have hafter : t'.screenCells =
      List.replicate t.grid.lines (List.replicate t.columns t.cursor.erase) := by
    unfold screenCells
    rw [hvisible, List.map_map, eq_replicate_iff]
    refine ⟨by rw [length_map, hlength], ?_⟩
    intro cells hcells
    obtain ⟨row, hrow, rfl⟩ := List.mem_map.mp hcells
    have hblank := inner_reset ht (hclears row hrow)
    rw [(hclears row hrow).1] at hblank
    exact hblank
  rw [hafter]
  symm
  have hscreen := ht.grid.framed.length_visible
  rw [eq_replicate_iff]
  refine ⟨?_, ?_⟩
  · unfold screenCells
    rw [length_mapIdx, length_map, hscreen]
  intro _ hcells
  obtain ⟨line, hline, rfl⟩ := List.mem_mapIdx.mp hcells
  unfold screenCells at hline ⊢
  rw [length_map] at hline
  have hall : ∀ column : ℕ, t.Addressed .all { line := line, column := column } :=
    fun _ => trivial
  rw [getElem_map, clearedLine_all _ hall, length_row hP ht (getElem?_eq_getElem hline)]

theorem contentLines_eq_pushed (hscreen : t.mode.altScreen = false)
    (h : Grid.contentRows t.grid.toLines.visible = 0 → 0 < t.historySize) :
    t.grid.contentLines = t.pushed .all := by
  have hcontent := Grid.contentLines_eq ht.grid.framed ht.grid.columns_pos fun row hrow => by
    obtain ⟨_, hline⟩ := getElem?_of_mem hrow
    exact length_row hP ht hline
  unfold pushed
  rw [hcontent, if_pos (show ClearMode.all = .all ∧ t.mode.altScreen = false from ⟨rfl, hscreen⟩),
    if_neg]
  intro hempty
  exact absurd hempty.2 (Nat.ne_of_gt (h hempty.1))

end

theorem pushed_le (ht : t.Sound P) (mode : ClearMode) : t.pushed mode ≤ t.grid.lines := by
  unfold pushed
  split
  · have hle := Grid.contentRows_le t.grid.toLines.visible
    rw [ht.grid.framed.length_visible] at hle
    exact hle
  · exact Nat.zero_le _

theorem screen_clearAll (hP : Row.Invariant P) (ht : t.Sound P) (h : t.ClearsCleanly .all) :
    (t.clearScreen .all).screenCells = t.screenCells.mapIdx (t.clearedLine .all) := by
  cases hscreen : t.mode.altScreen with
  | true =>
    exact screenCells_of_reset hP ht (rows_clearAll ht hscreen).1 ht.grid.framed.length_visible
      (h.1 hscreen)
  | false =>
    obtain ⟨hempty, hclears⟩ := h.2 hscreen
    have hcount := pushed_le ht .all
    have hcontent := contentLines_eq_pushed hP ht hscreen hempty
    obtain ⟨hvisible, -⟩ := Grid.rows_clearViewport ht.grid.framed ht.grid.historySize_le
      (hcontent ▸ hcount)
    rw [← grid_clearViewport hscreen, hcontent] at hvisible
    apply screenCells_of_reset hP ht hvisible _ hclears
    rw [length_append, length_drop, ht.grid.framed.length_visible,
      Grid.length_incoming ht.grid.framed hcount]
    omega

theorem history_clearScreen (hP : Row.Invariant P) (ht : t.Sound P) {mode : ClearMode}
    (h : t.ClearsCleanly mode) (hmode : mode ≠ .saved) : (t.clearScreen mode).grid.toLines.history =
      (t.grid.toLines.history ++ t.grid.toLines.visible.take (t.pushed mode)).drop
        (t.historySize + t.pushed mode - t.grid.maxScrollLimit) := by
  have hlimit := ht.grid.historySize_le
  have hnone : t.pushed mode = 0 → t.grid.toLines.history =
      (t.grid.toLines.history ++ t.grid.toLines.visible.take (t.pushed mode)).drop
        (t.historySize + t.pushed mode - t.grid.maxScrollLimit) := by
    intro hzero
    rw [hzero, take_zero, append_nil, Nat.add_zero,
      Nat.sub_eq_zero_of_le (by exact hlimit), drop_zero]
  cases mode with
  | saved => exact absurd rfl hmode
  | above => exact (rows_clearAbove ht).2.trans (hnone rfl)
  | below => exact (rows_clearBelow ht).2.trans (hnone rfl)
  | all =>
    cases hscreen : t.mode.altScreen with
    | true =>
      have hzero : t.pushed .all = 0 := if_neg fun h => absurd (h.2.symm.trans hscreen) (by decide)
      exact (rows_clearAll ht hscreen).2.trans (hnone hzero)
    | false =>
      have hcontent := contentLines_eq_pushed hP ht hscreen (h.2 hscreen).1
      obtain ⟨-, hhistory⟩ := Grid.rows_clearViewport ht.grid.framed hlimit
        (hcontent ▸ pushed_le ht .all)
      rw [← grid_clearViewport hscreen, hcontent] at hhistory
      exact hhistory

theorem inactiveGrid_clearScreen (t : Term) (mode : ClearMode) :
    (t.clearScreen mode).inactiveGrid = t.inactiveGrid := by
  have hflush : ∀ u : Term, u.flushGridScroll.inactiveGrid = u.inactiveGrid := by
    intro u
    unfold flushGridScroll
    split <;> rfl
  unfold clearScreen
  cases mode with
  | above | below | saved =>
    dsimp only
    split <;> rfl
  | all =>
    dsimp only
    refine (hflush _).trans ?_
    split <;> rfl

theorem cursor_clearScreen (t : Term) (mode : ClearMode) :
    (t.clearScreen mode).cursor = t.cursor := by
  unfold clearScreen
  cases mode with
  | above | below | saved =>
    dsimp only
    split <;> rfl
  | all =>
    dsimp only
    refine (congrArg Grid.cursor (grid_flushGridScroll _)).trans ?_
    split
    · rfl
    · exact (Grid.sameFrame_scrollUpResetting t.grid _ _ _).cursor

theorem events_clearScreen (t : Term) (mode : ClearMode) : (t.clearScreen mode).events =
      if mode = .all then t.flushGridScroll.events ++ [.vividClear] else t.events := by
  unfold clearScreen
  cases mode with
  | above | below | saved =>
    dsimp only
    split <;> rfl
  | all =>
    have hflush : ∀ f : Grid → Grid, (t.modifyGrid f).flushGridScroll.events =
        t.flushGridScroll.events := by
      intro f
      unfold flushGridScroll modifyGrid
      dsimp only
      split <;> rfl
    rw [if_pos rfl]
    dsimp only
    change (ite _ _ _ : Term).flushGridScroll.events ++ [Event.vividClear] = _
    split
    · rw [hflush]
    · rw [hflush]

theorem screen_clearSaved (ht : t.Sound P) :
    (t.clearScreen .saved).screenCells = t.screenCells.mapIdx (t.clearedLine .saved) := by
  have hvisible : (t.clearScreen .saved).grid.toLines.visible =
      t.grid.toLines.visible.mapIdx fun _ row => row := by
    rw [visible_clearSaved ht]
    exact (mapIdx_eq_self fun _ _ _ => rfl).symm
  apply screenCells_of_mapIdx hvisible
  intro _ _ _
  exact (clearedLine_none _ fun _ => id).symm

/-- The number the images are told is that of the lines carried into the history. -/
theorem clearScreenGraphics_all (hP : Row.Invariant P) (ht : t.Sound P) (h : t.ClearsCleanly .all)
    (graphics : Graphics.KittyGraphics F) : t.clearScreenGraphics .all graphics =
      (if 0 < t.pushed .all ∧ graphics.hasPlacements then graphics.scroll
        { top := 0, stop := toI32 t.screenLines, lines := toI32 (t.pushed .all)
          screenLines := toI32 t.screenLines, historyTop := (t.clearScreen .all).grid.topmostLine }
      else graphics).clearScreen false := by
  unfold clearScreenGraphics
  dsimp only
  cases hscreen : t.mode.altScreen with
  | true =>
    have hzero : t.pushed .all = 0 := if_neg fun h => absurd (h.2.symm.trans hscreen) (by decide)
    rw [if_pos rfl, if_neg]
    rw [hzero]
    exact fun h => Nat.lt_irrefl 0 h.1
  | false =>
    rw [if_neg Bool.false_ne_true, contentLines_eq_pushed hP ht hscreen (h.2 hscreen).1,
      grid_clearViewport hscreen]

/-- A screen of two lines with one letter on it. -/
def lettered : Term := (new 10 2 3).input narrow 'a'

theorem sound_lettered : lettered.Sound Row.OfWidth where
  grid :=
    { wf := ⟨by decide, by decide, by decide, by decide⟩
      visible := rfl
      history := by decide
      rows := by decide
      cursor := ⟨by decide, by decide, by decide, rfl⟩
      savedCursor := ⟨by decide, by decide, by decide, rfl⟩ }
  inactiveGrid :=
    { wf := ⟨by decide, by decide, by decide, by decide⟩
      visible := rfl
      history := by decide
      rows := by decide
      cursor := ⟨by decide, by decide, by decide, rfl⟩
      savedCursor := ⟨by decide, by decide, by decide, rfl⟩ }
  lines := rfl
  columns := rfl
  wide := by decide
  region := by decide

end Term

end Terminal

end Vivido
