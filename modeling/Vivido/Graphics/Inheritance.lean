import Vivido.Graphics.Placeholder
import Mathlib.Data.List.Chain

/-!
The runs of a line. What a placeholder cell shows is resolved from the left, cell
by cell: what it does not give is taken from its left neighbor when the two agree.
The runs are the cells so resolved, grouped as far as they show adjacent columns;
but the third mark counts as the number it stands for, of which the id of the
image holds only a byte.
-/

namespace Vivido.Graphics.Placeholder

open Terminal List Option

/-! ### The rule of inheritance -/

/-- What a cell says agrees with its following, in the same image and row, the cell to its left. -/
def Agrees (left cell : CellCode) : Prop :=
  cell.idLow = left.idLow ∧ cell.placement = left.placement ∧
    (cell.row = 0 ∨ cell.row = left.row) ∧ (cell.col = 0 ∨ cell.col = left.col + 1) ∧
      (cell.idHigh = 0 ∨ cell.idHigh = left.idHigh)

instance (left cell : CellCode) : Decidable (Agrees left cell) :=
  inferInstanceAs (Decidable (_ ∧ _))

/-- The marks that a cell inherits: those of its left neighbor, one column on, if the two agree,
and otherwise those of the top left corner. -/
def inherited (left : Option CellCode) (cell : CellCode) : CellCode :=
  match left.filter (Agrees · cell) with
  | some left => { row := left.row, col := left.col + 1, idHigh := left.idHigh }
  | none => { row := 1, col := 1, idHigh := 1 }

/-- A cell with the marks it does not give. -/
def resolveCell (left : Option CellCode) (cell : CellCode) : CellCode :=
  { cell with
    row := if cell.row = 0 then (inherited left cell).row else cell.row
    col := if cell.col = 0 then (inherited left cell).col else cell.col
    idHigh := if cell.idHigh = 0 then (inherited left cell).idHigh else cell.idHigh }

/-- The cells of a line, resolved from the left. -/
def resolve (left : Option CellCode) : List (Option CellCode) → List (Option CellCode)
  | [] => []
  | cell :: cells =>
      let resolved := cell.map (resolveCell left)
      resolved :: resolve resolved cells

/-- What a cell shows: the image, the placement, and the row and the column of the image's box. -/
structure Shown where
  image : ℕ
  placement : ℕ
  row : ℕ
  col : ℕ
  deriving DecidableEq, Repr

def CellCode.image (code : CellCode) : ℕ := code.idLow ||| ((code.idHigh - 1) &&& 0xFF) <<< 24

def CellCode.shown (code : CellCode) : Shown :=
  ⟨code.image, code.placement, code.row - 1, code.col - 1⟩

/-- The placeholder cells from a column on, and what they show. -/
def shownFrom : ℕ → List (Option CellCode) → List (ℕ × Shown)
  | _, [] => []
  | column, none :: cells => shownFrom (column + 1) cells
  | column, some code :: cells => (column, code.shown) :: shownFrom (column + 1) cells

/-- The placeholder cells of a line, and what they show by the rule of inheritance. -/
def shown (cells : List (Option CellCode)) : List (ℕ × Shown) := shownFrom 0 (resolve none cells)

/-- The cells of a run, and what it says that they show. -/
def Run.cells (run : Run) : List (ℕ × Shown) :=
  (List.range run.len).map fun k =>
    (run.column + k, ⟨run.image, run.placement, run.imgRow, run.imgCol + k⟩)

/-- Whether a run goes on where another ends, in the line and in the image. -/
def Run.Abuts (front back : Run) : Prop :=
  back.column = front.column + front.len ∧ back.image = front.image ∧
    back.placement = front.placement ∧ back.imgRow = front.imgRow ∧
      back.imgCol = front.imgCol + front.len

instance (front back : Run) : Decidable (front.Abuts back) := inferInstanceAs (Decidable (_ ∧ _))

/-- The number that the third mark of a resolved cell stands for. -/
def thirdMark (cells : List (Option CellCode)) (column : ℕ) : Option ℕ :=
  ((resolve none cells)[column]?.join).map CellCode.idHigh

/-! ### A turn of the loop -/

/-- The cell to the left of the next one, resolved, if it is a placeholder. -/
def Grouping.left (state : Grouping) : Option CellCode :=
  if 0 < state.len then some state.last else none

theorem continues_iff {len : ℕ} {last cell : CellCode} :
    continues len last cell = true ↔ 0 < len ∧ Agrees last cell := by
  simp only [continues, Agrees, Bool.and_eq_true, Bool.or_eq_true, decide_eq_true_eq, and_assoc]

/-- A cell that agrees with its left neighbor takes all its marks from it. -/
theorem resolveCell_agrees {left cell : CellCode} (h : Agrees left cell) :
    resolveCell (some left) cell = { cell with
        row := left.row, col := left.col + 1, idHigh := left.idHigh } := by
  obtain ⟨-, -, hrow, hcol, hhigh⟩ := id h
  unfold resolveCell inherited
  rw [filter_some, if_pos (decide_eq_true h)]
  dsimp only
  congr 1
  · split
    · rfl
    · exact hrow.resolve_left ‹_›
  · split
    · rfl
    · exact hcol.resolve_left ‹_›
  · split
    · rfl
    · exact hhigh.resolve_left ‹_›

theorem resolveCell_starts {left : Option CellCode} {cell : CellCode}
    (h : ∀ code, left = some code → ¬Agrees code cell) : resolveCell left cell = { cell with
        row := max cell.row 1, col := max cell.col 1, idHigh := max cell.idHigh 1 } := by
  have hnone : left.filter (Agrees · cell) = none := by
    rw [filter_eq_none_iff]
    intro code hcode
    rw [decide_eq_true_eq]
    exact h code hcode
  unfold resolveCell inherited
  rw [hnone]
  dsimp only
  congr 1
  all_goals
    split
    · rename_i hzero
      rw [hzero]
      rfl
    · omega

/-- What a turn of the loop can do. -/
theorem step_cases (state : Grouping) (cell : Option CellCode) :
    (∃ code, cell = some code ∧ 0 < state.len ∧ Agrees state.last code ∧ step state cell =
          { state with
            len := state.len + 1, last := resolveCell state.left code
            columns := state.columns + 1 }) ∨
      (∃ code, cell = some code ∧ (0 < state.len → ¬Agrees state.last code) ∧ step state cell =
          { emitted := state.closed, len := 1, last := resolveCell state.left code
            columns := state.columns + 1 }) ∨ cell = none ∧ ∃ last, step state cell =
        { emitted := state.closed, len := 0, last := last, columns := state.columns + 1 } := by
  cases cell with
  | none => exact Or.inr (Or.inr ⟨rfl, _, rfl⟩)
  | some code =>
    by_cases hcontinues : 0 < state.len ∧ Agrees state.last code
    · refine Or.inl ⟨code, rfl, hcontinues.1, hcontinues.2, ?_⟩
      have hleft : state.left = some state.last := if_pos hcontinues.1
      unfold step
      rw [filter_some, if_pos (continues_iff.mpr hcontinues), hleft,
        resolveCell_agrees hcontinues.2]
    · refine Or.inr (Or.inl ⟨code, rfl, fun hlen hagrees => hcontinues ⟨hlen, hagrees⟩, ?_⟩)
      have hfilter : (some code).filter (continues state.len state.last) = none := by
        rw [filter_some, if_neg fun h => hcontinues (continues_iff.mp h)]
      have hstarts : ∀ left, state.left = some left → ¬Agrees left code := by
        intro _ hleft hagrees
        unfold Grouping.left at hleft
        split at hleft
        · cases hleft
          exact hcontinues ⟨‹_›, hagrees⟩
        · cases hleft
      unfold step
      rw [hfilter, resolveCell_starts hstarts]
      rfl

/-! ### What always holds of the loop -/

/-- The run in progress, as it would be emitted. -/
def Grouping.current (state : Grouping) : Run where
  column := state.columns - state.len
  len := state.len
  image := state.last.image
  placement := state.last.placement
  imgRow := state.last.row - 1
  imgCol := state.last.col - state.len

theorem closed_of_pos {state : Grouping} (h : 0 < state.len) :
    state.closed = state.emitted ++ [state.current] := if_pos h

theorem closed_of_zero {state : Grouping} (h : state.len = 0) : state.closed = state.emitted :=
  if_neg (by omega)

/-- A resolved cell names a row, a column and a high byte, and an image by 24 bits more. -/
structure Placed (code : CellCode) : Prop where
  row : 0 < code.row
  col : 0 < code.col
  idHigh : 0 < code.idHigh
  idLow : code.idLow < 2 ^ 24

/-- The loop: the run in progress ends where it stands, and those emitted end before it. -/
structure Grouping.Sound (state : Grouping) : Prop where
  columns : state.len ≤ state.columns
  last : 0 < state.len → Placed state.last
  col : state.len ≤ state.last.col
  ended : ∀ run ∈ state.emitted, run.column + run.len + max state.len 1 ≤ state.columns
  full : ∀ run ∈ state.emitted, 0 < run.len

variable {state : Grouping} {code : CellCode} {cell : Option CellCode}

theorem Grouping.Sound.left (h : state.Sound) {left : CellCode} (hleft : state.left = some left) :
    Placed left := by
  unfold Grouping.left at hleft
  split at hleft
  · cases hleft
    exact h.last ‹_›
  · cases hleft

theorem placed_resolveCell {left : Option CellCode} (hleft : ∀ code, left = some code → Placed code)
    (hlow : code.idLow < 2 ^ 24) : Placed (resolveCell left code) := by
  by_cases hagrees : ∃ neighbor, left = some neighbor ∧ Agrees neighbor code
  · obtain ⟨neighbor, rfl, hagrees⟩ := hagrees
    have hplaced := hleft neighbor rfl
    rw [resolveCell_agrees hagrees]
    exact ⟨hplaced.row, Nat.succ_pos _, hplaced.idHigh, hlow⟩
  · rw [resolveCell_starts fun neighbor hneighbor h => hagrees ⟨neighbor, hneighbor, h⟩]
    exact ⟨by simp, by simp, by simp, hlow⟩

theorem Grouping.Sound.ended_closed (h : state.Sound) :
    ∀ run ∈ state.closed, run.column + run.len ≤ state.columns := by
  intro run hrun
  by_cases hlen : 0 < state.len
  · rw [closed_of_pos hlen, mem_append, mem_singleton] at hrun
    rcases hrun with hrun | rfl
    · have := h.ended run hrun
      omega
    · have := h.columns
      change state.columns - state.len + state.len ≤ state.columns
      omega
  · rw [closed_of_zero (by omega)] at hrun
    have := h.ended run hrun
    omega

theorem Grouping.Sound.full_closed (h : state.Sound) : ∀ run ∈ state.closed, 0 < run.len := by
  intro run hrun
  by_cases hlen : 0 < state.len
  · rw [closed_of_pos hlen, mem_append, mem_singleton] at hrun
    rcases hrun with hrun | rfl
    · exact h.full run hrun
    · exact hlen
  · rw [closed_of_zero (by omega)] at hrun
    exact h.full run hrun

theorem sound_step (h : state.Sound) (hlow : ∀ code, cell = some code → code.idLow < 2 ^ 24) :
    (step state cell).Sound := by
  have hcolumns := h.columns
  rcases step_cases state cell with ⟨code, rfl, hlen, hagrees, heq⟩ | ⟨code, rfl, -, heq⟩ |
    ⟨rfl, _, heq⟩
  · have hplaced := placed_resolveCell (fun _ => h.left) (hlow code rfl)
    have hleft : state.left = some state.last := if_pos hlen
    rw [heq]
    refine ⟨Nat.succ_le_succ hcolumns, fun _ => hplaced, ?_, ?_, h.full⟩
    · dsimp only
      rw [hleft, resolveCell_agrees hagrees]
      exact Nat.succ_le_succ h.col
    · intro run hrun
      have := h.ended run hrun
      dsimp only
      omega
  · have hplaced := placed_resolveCell (fun _ => h.left) (hlow code rfl)
    rw [heq]
    refine ⟨Nat.succ_le_succ (Nat.zero_le _), fun _ => hplaced, hplaced.col, ?_, h.full_closed⟩
    intro run hrun
    exact Nat.succ_le_succ (h.ended_closed run hrun)
  · rw [heq]
    refine ⟨Nat.zero_le _, fun hlen => (Nat.lt_irrefl 0 hlen).elim, Nat.zero_le _, ?_,
      h.full_closed⟩
    intro run hrun
    exact Nat.succ_le_succ (h.ended_closed run hrun)

theorem left_step (state : Grouping) (cell : Option CellCode) :
    (step state cell).left = cell.map (resolveCell state.left) := by
  rcases step_cases state cell with ⟨_, rfl, -, -, heq⟩ | ⟨_, rfl, -, heq⟩ | ⟨rfl, _, heq⟩
  · rw [heq]
    exact if_pos (Nat.succ_pos _)
  · rw [heq]
    rfl
  · rw [heq]
    rfl

theorem columns_step (state : Grouping) (cell : Option CellCode) :
    (step state cell).columns = state.columns + 1 := by
  rcases step_cases state cell with ⟨_, -, -, -, heq⟩ | ⟨_, -, -, heq⟩ | ⟨-, _, heq⟩
  all_goals rw [heq]

/-! ### The cells of the runs -/

theorem shownFrom_cons (column : ℕ) (cell : Option CellCode) (cells : List (Option CellCode)) :
    shownFrom column (cell :: cells) = shownFrom column [cell] ++ shownFrom (column + 1) cells := by
  cases cell <;> rfl

/-- A run of one more cell. -/
structure Run.OneMore (run more : Run) : Prop where
  len : more.len = run.len + 1
  column : more.column = run.column
  image : more.image = run.image
  placement : more.placement = run.placement
  imgRow : more.imgRow = run.imgRow
  imgCol : more.imgCol = run.imgCol

theorem Run.OneMore.cells {run more : Run} (h : run.OneMore more) :
    more.cells = run.cells ++ [(run.column + run.len,
      ⟨run.image, run.placement, run.imgRow, run.imgCol + run.len⟩)] := by
  unfold Run.cells
  rw [h.len, h.column, h.image, h.placement, h.imgRow, h.imgCol, range_succ, map_append]
  rfl

/-- A cell that agrees with its left neighbor is one more of the run in progress. -/
theorem oneMore_current (hlen : 0 < state.len) (hagrees : Agrees state.last code) :
    state.current.OneMore (Grouping.current { state with
          len := state.len + 1, last := resolveCell state.left code
          columns := state.columns + 1 }) := by
  have hleft : state.left = some state.last := if_pos hlen
  rw [hleft, resolveCell_agrees hagrees]
  refine ⟨rfl, Nat.add_sub_add_right .., ?_, hagrees.2.1, rfl, Nat.add_sub_add_right ..⟩
  unfold Grouping.current CellCode.image
  dsimp only
  rw [hagrees.1]

/-- A turn of the loop adds to the runs the cell it looks at, as it is resolved. -/
theorem cells_step (h : state.Sound) (cell : Option CellCode) :
    (step state cell).closed.flatMap Run.cells = state.closed.flatMap Run.cells ++
        shownFrom state.columns [cell.map (resolveCell state.left)] := by
  rcases step_cases state cell with ⟨_, rfl, hlen, hagrees, heq⟩ | ⟨_, rfl, -, heq⟩ |
    ⟨rfl, _, heq⟩
  · have hleft : state.left = some state.last := if_pos hlen
    have hcolumns := h.columns
    have hcol := h.col
    have hplace : state.current.column + state.current.len = state.columns := by
      change state.columns - state.len + state.len = state.columns
      omega
    have himgCol : state.current.imgCol + state.current.len = state.last.col := by
      change state.last.col - state.len + state.len = state.last.col
      omega
    rw [heq, closed_of_pos (Nat.succ_pos _), closed_of_pos hlen, flatMap_append,
      flatMap_append, append_assoc, flatMap_singleton, flatMap_singleton,
      (oneMore_current hlen hagrees).cells, hplace, himgCol, hleft, map_some,
      resolveCell_agrees hagrees]
    unfold shownFrom shownFrom CellCode.shown Grouping.current CellCode.image
    dsimp only
    rw [hagrees.1, hagrees.2.1]
    rfl
  · rw [heq, closed_of_pos Nat.one_pos, flatMap_append, flatMap_singleton]
    rfl
  · rw [heq, closed_of_zero rfl]
    exact (append_nil _).symm

theorem cells_run (h : state.Sound) (cells : List (Option CellCode))
    (hlow : ∀ code, some code ∈ cells → code.idLow < 2 ^ 24) :
    (cells.foldl step state).closed.flatMap Run.cells = state.closed.flatMap Run.cells ++
          shownFrom state.columns (resolve state.left cells) ∧ (cells.foldl step state).Sound := by
  induction cells generalizing state with
  | nil => exact ⟨(append_nil _).symm, h⟩
  | cons cell cells ih =>
    have hnext := sound_step h fun code hcode => hlow code (hcode ▸ mem_cons_self)
    obtain ⟨hcells, hsound⟩ := ih hnext fun code hcode => hlow code (mem_cons_of_mem _ hcode)
    refine ⟨?_, hsound⟩
    rw [foldl_cons, hcells, cells_step h, left_step, columns_step, append_assoc]
    exact congrArg _ (shownFrom_cons _ _ _).symm

/-! ### Where a run ends -/

/-- Two runs one after the other: if the second goes on where the first ends, the third marks of
the cells between them stand for different numbers. -/
def Breaks (mark : ℕ → Option ℕ) (front back : Run) : Prop :=
  front.Abuts back → mark (back.column - 1) ≠ mark back.column

variable {mark : ℕ → Option ℕ}

theorem Breaks.oneMore {front back more : Run} (h : Breaks mark front back)
    (hmore : back.OneMore more) : Breaks mark front more := by
  rintro ⟨hcolumn, himage, hplacement, hrow, hcol⟩
  rw [hmore.column] at hcolumn ⊢
  exact h ⟨hcolumn, hmore.image ▸ himage, hmore.placement ▸ hplacement, hmore.imgRow ▸ hrow,
    hmore.imgCol ▸ hcol⟩

/-- Images are the same if both parts of their ids are. -/
theorem idLow_of_image {front back : CellCode} (hfront : front.idLow < 2 ^ 24)
    (hback : back.idLow < 2 ^ 24) (himage : front.image = back.image) :
    front.idLow = back.idLow := by
  have hlow : ∀ code : CellCode, code.idLow < 2 ^ 24 → code.image % 2 ^ 24 = code.idLow := by
    intro _ hcode
    unfold CellCode.image
    rw [Nat.or_mod_two_pow, Nat.mod_eq_of_lt hcode, Nat.shiftLeft_eq, Nat.mul_mod_left, Nat.or_zero]
  rw [← hlow front hfront, ← hlow back hback, himage]

/-- A cell that does not agree with its left neighbor shows something else, or has another third
mark. -/
theorem breaks_current (h : state.Sound) (hlen : 0 < state.len) (hlow : code.idLow < 2 ^ 24)
    (hbreaks : ¬Agrees state.last code) (hlast : mark (state.columns - 1) = some state.last.idHigh)
    (hnext : mark state.columns = some (resolveCell state.left code).idHigh) :
    Breaks mark state.current
      { column := state.columns, len := 1, image := (resolveCell state.left code).image
        placement := code.placement, imgRow := (resolveCell state.left code).row - 1
        imgCol := (resolveCell state.left code).col - 1 } := by
  have hplaced := h.last hlen
  have hcol := h.col
  have hstarts : ∀ left, state.left = some left → ¬Agrees left code := by
    intro _ hleft
    rw [Grouping.left, if_pos hlen] at hleft
    cases hleft
    exact hbreaks
  rw [resolveCell_starts hstarts] at hnext ⊢
  rintro ⟨-, himage, hplacement, hrow, himgCol⟩ hmark
  change _ = state.last.image at himage
  change code.placement = state.last.placement at hplacement
  change max code.row 1 - 1 = state.last.row - 1 at hrow
  change max code.col 1 - 1 = state.last.col - state.len + state.len at himgCol
  rw [hlast, hnext, some_inj] at hmark
  have hid : code.idLow = state.last.idLow :=
    @idLow_of_image { code with
      row := max code.row 1
      col := max code.col 1
      idHigh := max code.idHigh 1 } state.last hlow hplaced.idLow himage
  have hlastRow := hplaced.row
  refine hbreaks ⟨hid, hplacement, ?_, ?_, ?_⟩
  all_goals
    dsimp only at hmark
    omega

theorem chain_step (h : state.Sound) (hlow : ∀ code, cell = some code → code.idLow < 2 ^ 24)
    (hlast : 0 < state.len → mark (state.columns - 1) = some state.last.idHigh)
    (hnext : ∀ code, cell = some code →
      mark state.columns = some (resolveCell state.left code).idHigh)
    (hchain : state.closed.IsChain (Breaks mark)) :
    (step state cell).closed.IsChain (Breaks mark) := by
  rcases step_cases state cell with ⟨code, rfl, hlen, hagrees, heq⟩ | ⟨code, rfl, hno, heq⟩ |
    ⟨rfl, _, heq⟩
  · rw [closed_of_pos hlen, isChain_append] at hchain
    rw [heq, closed_of_pos (Nat.succ_pos _), isChain_append]
    refine ⟨hchain.1, isChain_singleton _, fun front hfront back hback => ?_⟩
    cases hback
    exact (hchain.2.2 front hfront state.current rfl).oneMore (oneMore_current hlen hagrees)
  · rw [heq, closed_of_pos Nat.one_pos, isChain_append]
    refine ⟨hchain, isChain_singleton _, fun front hfront back hback => ?_⟩
    cases hback
    by_cases hlen : 0 < state.len
    · have hmem : front = state.current := by
        rw [closed_of_pos hlen, getLast?_concat] at hfront
        exact (Option.some_inj.mp hfront).symm
      rw [hmem]
      exact breaks_current h hlen (hlow code rfl) (hno hlen) (hlast hlen) (hnext code rfl)
    · rw [closed_of_zero (by omega)] at hfront
      have hended := h.ended front (mem_of_getLast? hfront)
      rintro ⟨hcolumn, -⟩
      change state.columns = _ at hcolumn
      omega
  · rw [heq, closed_of_zero rfl]
    exact hchain

theorem chain_run (h : state.Sound) (cells : List (Option CellCode))
    (hlow : ∀ code, some code ∈ cells → code.idLow < 2 ^ 24)
    (hlast : 0 < state.len → mark (state.columns - 1) = some state.last.idHigh)
    (hnext : ∀ i code, (resolve state.left cells)[i]? = some (some code) →
      mark (state.columns + i) = some code.idHigh) (hchain : state.closed.IsChain (Breaks mark)) :
    (cells.foldl step state).closed.IsChain (Breaks mark) := by
  induction cells generalizing state with
  | nil => exact hchain
  | cons cell cells ih =>
    have hcell : ∀ code, cell = some code → code.idLow < 2 ^ 24 :=
      fun code hcode => hlow code (hcode ▸ mem_cons_self)
    have hfirst : ∀ code, cell = some code →
        mark state.columns = some (resolveCell state.left code).idHigh := by
      rintro code rfl
      exact hnext 0 _ rfl
    refine ih (sound_step h hcell) (fun code hcode => hlow code (mem_cons_of_mem _ hcode)) ?_
      ?_ (chain_step h hcell hlast hfirst hchain)
    · intro hlen
      rw [columns_step]
      have hleft := left_step state cell
      rw [Grouping.left, if_pos hlen] at hleft
      cases cell with
      | none => cases hleft
      | some code =>
        rw [map_some, some_inj] at hleft
        rw [hleft]
        exact hfirst code rfl
    · intro i code hcode
      rw [left_step] at hcode
      rw [columns_step, Nat.add_assoc, Nat.add_comm 1 i]
      exact hnext (i + 1) code hcode

/-! ### A line -/

theorem idLow_lt_of_mem {styles : StyleTable} {row : Row} {columns : ℕ} {code : CellCode}
    (h : some code ∈ lineCells styles row columns) : code.idLow < 2 ^ 24 := by
  obtain ⟨_, -, hcode⟩ := List.mem_map.mp h
  unfold decodeCell at hcode
  split at hcode
  · cases hcode
  · cases hcode
    exact colorNumber_lt _

/-- The runs of a line are its placeholder cells in their order, each showing what the rule of
inheritance says. They are as long as they can be: where one goes on where another ends, the third
marks of the two cells stand for different numbers. -/
theorem runs_exact (styles : StyleTable) (row : Row) (columns : ℕ) :
    (runs (lineCells styles row columns)).flatMap Run.cells = shown (lineCells styles row columns) ∧
      (∀ run ∈ runs (lineCells styles row columns), 0 < run.len) ∧
        (runs (lineCells styles row columns)).IsChain
          (Breaks (thirdMark (lineCells styles row columns))) := by
  have hlow : ∀ code, some code ∈ lineCells styles row columns → code.idLow < 2 ^ 24 :=
    fun code => idLow_lt_of_mem
  have hstart : Grouping.Sound {} :=
    ⟨Nat.le_refl 0, fun h => (Nat.lt_irrefl 0 h).elim, Nat.le_refl 0, nofun, nofun⟩
  obtain ⟨hcells, hsound⟩ := cells_run hstart _ hlow
  refine ⟨hcells, hsound.full_closed, chain_run hstart _ hlow ?_ ?_ isChain_nil⟩
  · intro h
    exact (Nat.lt_irrefl 0 h).elim
  · intro i _ hcode
    change (resolve none _)[i]? = _ at hcode
    unfold thirdMark
    rw [Nat.zero_add, hcode]
    rfl

/-- A line of two cells, whose third marks stand for 1 and 257. -/
def twoMarks : Row where
  inner :=
    [{ c := placeholder
       extra := { number := 1, hasZerowidth := true } },
     { c := placeholder
       extra := { number := 2, hasZerowidth := true } }]
  extras :=
    { entries :=
        [{ zerowidth := [Char.ofNat 0x0305, Char.ofNat 0x0305, Char.ofNat 0x0305] },
         { zerowidth := [Char.ofNat 0x0305, Char.ofNat 0x030D, Char.ofNat 0xA8E6] }] }

/-- Adjacent columns of one row of one image are not one run. -/
theorem runs_not_maximal :
    ¬(runs (lineCells {} twoMarks 2)).IsChain fun front back => ¬front.Abuts back := by
  have hruns : runs (lineCells {} twoMarks 2) = [⟨0, 1, 0, 0, 0, 0⟩, ⟨1, 1, 0, 0, 0, 1⟩] := by
    decide +kernel
  rw [hruns]
  intro hchain
  exact (List.isChain_cons_cons.mp hchain).1 (by decide)

end Vivido.Graphics.Placeholder
