import Mathlib.Tactic.Linarith
import Mathlib.Tactic.Ring
import Vivido.Grid.Grid

/-!
Stepping a point through the cells of a grid. Lines are counted from the top of
the screen, those of the scrollback being negative, so a cell's position in
reading order is taken from the topmost line.
-/

namespace Vivido.Terminal

structure Dimensions where
  totalLines : ℕ
  screenLines : ℕ
  columns : ℕ
  columns_pos : 0 < columns
  screenLines_pos : 0 < screenLines
  screenLines_le : screenLines ≤ totalLines

namespace Dimensions

variable (d : Dimensions) {p q : Point}

def lastColumn : ℕ := d.columns - 1

def historySize : ℕ := d.totalLines - d.screenLines

def topmostLine : ℤ := -(d.historySize : ℤ)

def bottommostLine : ℤ := d.screenLines - 1

/-- `Line::grid_clamp`, where no boundary is `Boundary::None`. -/
def clampLine (boundary : Option Boundary) (line : ℤ) : ℤ :=
  match boundary with
  | some .cursor => max 0 (min d.bottommostLine line)
  | some .grid => max d.topmostLine (min d.bottommostLine line)
  | none =>
    if d.screenLines ≤ line then d.topmostLine + (line - d.screenLines).tmod d.totalLines
    else d.bottommostLine + (line - d.screenLines + 1).tmod d.totalLines

/-- `Point::grid_clamp`. -/
def clamp (boundary : Option Boundary) (point : Point) : Point :=
  let point := { point with column := min point.column d.lastColumn }
  match boundary with
  | some .cursor =>
    if point.line < 0 then { line := 0, column := 0 }
    else if d.bottommostLine < point.line then { line := d.bottommostLine, column := d.lastColumn }
    else point
  | some .grid =>
    if point.line < d.topmostLine then { line := d.topmostLine, column := 0 }
    else if d.bottommostLine < point.line then { line := d.bottommostLine, column := d.lastColumn }
    else point
  | none => { point with line := d.clampLine none point.line }

/-- `Point::sub`. -/
def sub (boundary : Option Boundary) (point : Point) (rhs : ℕ) : Point :=
  let lineChanges := (rhs + d.columns - 1 - point.column) / d.columns
  d.clamp boundary
    { line := point.line - lineChanges
      column := (d.columns + point.column - rhs % d.columns) % d.columns }

/-- `Point::add`. -/
def add (boundary : Option Boundary) (point : Point) (rhs : ℕ) : Point :=
  d.clamp boundary
    { line := point.line + ((rhs + point.column) / d.columns : ℕ)
      column := (point.column + rhs) % d.columns }

def Inside (point : Point) : Prop :=
  d.topmostLine ≤ point.line ∧ point.line ≤ d.bottommostLine ∧ point.column < d.columns

instance (point : Point) : Decidable (d.Inside point) := inferInstanceAs (Decidable (_ ∧ _ ∧ _))

/-- How many cells come before it. -/
def position (point : Point) : ℤ := (point.line - d.topmostLine) * d.columns + point.column

def cells : ℤ := d.totalLines * d.columns

/-- The first cell that a point can be held to. -/
def first : Boundary → Point
  | .cursor => { line := 0, column := 0 }
  | .grid => { line := d.topmostLine, column := 0 }

/-- The last cell of the screen, which ends the grid. -/
def last : Point := { line := d.bottommostLine, column := d.lastColumn }

theorem position_lt (hcolumn : p.column < d.columns) (h : p.line < q.line) :
    d.position p < d.position q := by
  have hline : p.line + 1 - d.topmostLine ≤ q.line - d.topmostLine := by omega
  have := mul_le_mul_of_nonneg_right hline (Int.natCast_nonneg d.columns)
  rw [show p.line + 1 - d.topmostLine = p.line - d.topmostLine + 1 by ring, add_mul, one_mul] at this
  unfold position
  omega

theorem position_le (hline : p.line ≤ q.line) (hcolumn : p.column ≤ q.column) :
    d.position p ≤ d.position q := by
  have := mul_le_mul_of_nonneg_right (sub_le_sub_right hline d.topmostLine)
    (Int.natCast_nonneg d.columns)
  unfold position
  omega

/-- Positions are in reading order. -/
theorem position_lt_iff (hp : d.Inside p) (hq : d.Inside q) :
    d.position p < d.position q ↔ p.before q := by
  rcases lt_trichotomy p.line q.line with hline | hline | hline
  · simp [Point.before, hline, d.position_lt hp.2.2 hline]
  · simp [Point.before, hline, position]
  · have := d.position_lt hq.2.2 hline
    constructor
    · omega
    · rintro (hlt | ⟨heq, -⟩) <;> omega

theorem position_injective (hp : d.Inside p) (hq : d.Inside q)
    (h : d.position p = d.position q) : p = q := by
  rcases lt_trichotomy p.line q.line with hline | hline | hline
  · exact absurd h (d.position_lt hp.2.2 hline).ne
  · have hcolumn : p.column = q.column := by simpa [position, hline] using h
    cases p
    cases q
    simp_all
  · exact absurd h (d.position_lt hq.2.2 hline).ne'

theorem position_nonneg (h : d.Inside p) : 0 ≤ d.position p := by
  have : 0 ≤ p.line - d.topmostLine := by
    have := h.1
    omega
  unfold position
  positivity

theorem last_position : d.position d.last = d.cells - 1 := by
  have := d.columns_pos
  have hle := d.screenLines_le
  have : (d.bottommostLine - d.topmostLine : ℤ) = d.totalLines - 1 := by
    unfold bottommostLine topmostLine historySize
    omega
  rw [position, last, this, cells, sub_mul, one_mul, lastColumn]
  dsimp only
  omega

theorem emod_of_eq {a b q r : ℤ} (hr : 0 ≤ r) (hlt : r < b) (h : a = r + b * q) : a % b = r := by
  rw [h, Int.add_mul_emod_self_left, Int.emod_eq_of_lt hr hlt]

/-- Wrapping keeps a line's distance from the topmost one, modulo the lines of the grid. -/
theorem clampLine_none (line : ℤ) :
    d.clampLine none line = d.topmostLine + (line - d.topmostLine) % d.totalLines := by
  have hpos := d.screenLines_pos
  have hle := d.screenLines_le
  have htotal : (0 : ℤ) < d.totalLines := by omega
  have htop : d.topmostLine = d.screenLines - d.totalLines := by
    unfold topmostLine historySize
    omega
  unfold clampLine
  dsimp only
  split_ifs with hline
  · rw [Int.tmod_eq_emod_of_nonneg (by omega), htop,
      show line - (d.screenLines - d.totalLines : ℤ) = line - d.screenLines + d.totalLines by ring,
      Int.add_emod_right]
  -- Above the last line the remainder of the difference is truncated towards zero.
  have hrest := Int.emod_add_mul_ediv (-(line - d.screenLines + 1)) d.totalLines
  have hnonneg := Int.emod_nonneg (-(line - d.screenLines + 1)) htotal.ne'
  have hlt := Int.emod_lt_of_pos (-(line - d.screenLines + 1)) htotal
  have htrunc : (line - d.screenLines + 1).tmod d.totalLines =
      -(-(line - d.screenLines + 1) % d.totalLines) := by
    rw [← Int.tmod_eq_emod_of_nonneg (by omega), Int.neg_tmod, neg_neg]
  rw [htrunc, htop, bottommostLine]
  generalize -(line - d.screenLines + 1) % (d.totalLines : ℤ) = r at *
  generalize -(line - d.screenLines + 1) / (d.totalLines : ℤ) = n at *
  rw [emod_of_eq (r := d.totalLines - 1 - r) (q := -n) (by omega) (by omega)]
  · ring
  · linarith

theorem clamp_none (hcolumn : p.column < d.columns) :
    d.Inside (d.clamp none p) ∧ d.position (d.clamp none p) = d.position p % d.cells := by
  have hle := d.screenLines_le
  have hpos := d.screenLines_pos
  have htotal : (0 : ℤ) < d.totalLines := by omega
  have hmin : min p.column d.lastColumn = p.column := by
    unfold lastColumn
    omega
  have hnonneg := Int.emod_nonneg (p.line - d.topmostLine) htotal.ne'
  have hlt := Int.emod_lt_of_pos (p.line - d.topmostLine) htotal
  have hsplit := Int.emod_add_mul_ediv (p.line - d.topmostLine) d.totalLines
  simp only [clamp, hmin, clampLine_none]
  constructor
  · refine ⟨by dsimp only; omega, ?_, hcolumn⟩
    dsimp only [topmostLine, bottommostLine, historySize] at *
    omega
  simp only [position, cells, add_sub_cancel_left]
  symm
  apply emod_of_eq (q := (p.line - d.topmostLine) / d.totalLines)
  · positivity
  · have hline : (p.line - d.topmostLine) % d.totalLines ≤ d.totalLines - 1 := by omega
    have := mul_le_mul_of_nonneg_right hline (Int.natCast_nonneg d.columns)
    rw [sub_mul, one_mul] at this
    omega
  · conv_lhs => rw [← hsplit]
    ring

theorem clamp_some (hcolumn : p.column < d.columns) (boundary : Boundary) :
    d.Inside (d.clamp (some boundary) p) ∧ d.position (d.clamp (some boundary) p) =
      max (d.position (d.first boundary)) (min (d.position p) (d.position d.last)) := by
  have hcolumns := d.columns_pos
  have hle := d.screenLines_le
  have hpos := d.screenLines_pos
  have htop : d.topmostLine ≤ 0 := by
    unfold topmostLine
    omega
  have hbottom : 0 ≤ d.bottommostLine := by
    unfold bottommostLine
    omega
  have hmin : min p.column d.lastColumn = p.column := by
    unfold lastColumn
    omega
  have hclamp : d.clamp (some boundary) p =
      if p.line < (d.first boundary).line then d.first boundary
      else if d.bottommostLine < p.line then d.last else p := by
    cases boundary <;> simp only [clamp, hmin, first, last] <;> rfl
  have hfirst : d.Inside (d.first boundary) ∧ (d.first boundary).column = 0 := by
    cases boundary <;> simp [first, Inside] <;> omega
  have hlast : d.Inside d.last := by
    simp only [last, Inside, lastColumn]
    omega
  rw [hclamp]
  split_ifs with habove hbelow
  · have := d.position_lt hcolumn habove
    exact ⟨hfirst.1, by omega⟩
  · have hfirst := d.position_le (p := d.first boundary) (q := d.last) hfirst.1.2.1 (by omega)
    have := d.position_lt (p := d.last) (q := p) hlast.2.2 hbelow
    exact ⟨hlast, by omega⟩
  · have hinside : d.Inside p := ⟨by have := hfirst.1.1; omega, by omega, hcolumn⟩
    have hfirst := d.position_le (p := d.first boundary) (q := p) (by omega) (by omega)
    have hlast := d.position_le (p := p) (q := d.last) hinside.2.1 (by
      simp only [last, lastColumn]
      omega)
    exact ⟨hinside, by omega⟩

/-- Before it is held to a boundary, the sum lies that many cells further on. -/
theorem position_sum (point : Point) (rhs : ℕ) :
    d.position { line := point.line + ((rhs + point.column) / d.columns : ℕ)
                 column := (point.column + rhs) % d.columns } = d.position point + rhs := by
  have := Nat.div_add_mod (rhs + point.column) d.columns
  have hcast : (((rhs + point.column) / d.columns : ℕ) : ℤ) * d.columns +
      ((point.column + rhs) % d.columns : ℕ) = rhs + point.column := by
    rw [Nat.add_comm point.column rhs]
    push_cast
    rw [mul_comm]
    exact_mod_cast this
  simp only [position]
  linarith

theorem position_difference (h : p.column < d.columns) (rhs : ℕ) :
    d.position { line := p.line - ((rhs + d.columns - 1 - p.column) / d.columns : ℕ)
                 column := (d.columns + p.column - rhs % d.columns) % d.columns } =
      d.position p - rhs := by
  have hpos := d.columns_pos
  have hsplit := Nat.div_add_mod rhs d.columns
  have hlt := Nat.mod_lt rhs hpos
  generalize rhs / d.columns = whole at hsplit
  generalize rhs % d.columns = rest at *
  subst hsplit
  simp only [position]
  by_cases hrest : rest ≤ p.column
  · rw [show d.columns * whole + rest + d.columns - 1 - p.column =
        d.columns * whole + (rest + d.columns - 1 - p.column) by omega, Nat.mul_add_div hpos,
      Nat.div_eq_of_lt (by omega), Nat.add_sub_assoc hrest, Nat.add_mod_left,
      Nat.mod_eq_of_lt (by omega)]
    push_cast [hrest]
    ring
  · -- The column is left of what is to be taken, so one more line is.
    rw [show d.columns * whole + rest + d.columns - 1 - p.column =
        d.columns * (whole + 1) + (rest - 1 - p.column) by
      rw [Nat.mul_succ]
      omega, Nat.mul_add_div hpos, Nat.div_eq_of_lt (by omega), Nat.mod_eq_of_lt (by omega),
      Nat.cast_sub (by omega)]
    push_cast
    ring

theorem add_none (p : Point) (n : ℕ) :
    d.Inside (d.add none p n) ∧ d.position (d.add none p n) = (d.position p + n) % d.cells := by
  rw [← d.position_sum p n]
  exact d.clamp_none (Nat.mod_lt _ d.columns_pos)

theorem sub_none (h : p.column < d.columns) (n : ℕ) :
    d.Inside (d.sub none p n) ∧ d.position (d.sub none p n) = (d.position p - n) % d.cells := by
  rw [← d.position_difference h n]
  exact d.clamp_none (Nat.mod_lt _ d.columns_pos)

theorem add_some (p : Point) (n : ℕ) (boundary : Boundary) :
    d.Inside (d.add (some boundary) p n) ∧ d.position (d.add (some boundary) p n) =
      max (d.position (d.first boundary)) (min (d.position p + n) (d.position d.last)) := by
  rw [← d.position_sum p n]
  exact d.clamp_some (Nat.mod_lt _ d.columns_pos) boundary

theorem sub_some (h : p.column < d.columns) (n : ℕ) (boundary : Boundary) :
    d.Inside (d.sub (some boundary) p n) ∧ d.position (d.sub (some boundary) p n) =
      max (d.position (d.first boundary)) (min (d.position p - n) (d.position d.last)) := by
  rw [← d.position_difference h n]
  exact d.clamp_some (Nat.mod_lt _ d.columns_pos) boundary

theorem position_emod (h : d.Inside p) : d.position p % d.cells = d.position p := by
  have hle := d.position_le (p := p) (q := d.last) h.2.1 (by
    have := h.2.2
    simp only [last, lastColumn]
    omega)
  rw [d.last_position] at hle
  exact Int.emod_eq_of_lt (d.position_nonneg h) (by omega)

/-- Moving on and back steps through as many cells in reading order: around the whole grid where
nothing bounds it, and else up to the first and the last cell. -/
theorem moves_point (h : d.Inside p) (n : ℕ) :
    (d.Inside (d.add none p n) ∧ d.position (d.add none p n) = (d.position p + n) % d.cells) ∧
      (d.Inside (d.sub none p n) ∧ d.position (d.sub none p n) = (d.position p - n) % d.cells) ∧
      d.sub none (d.add none p n) n = p ∧ d.add none (d.sub none p n) n = p ∧
      ∀ boundary, (d.Inside (d.add (some boundary) p n) ∧ d.position (d.add (some boundary) p n) =
          max (d.position (d.first boundary)) (min (d.position p + n) (d.position d.last))) ∧
        d.Inside (d.sub (some boundary) p n) ∧ d.position (d.sub (some boundary) p n) =
          max (d.position (d.first boundary)) (min (d.position p - n) (d.position d.last)) := by
  obtain ⟨haddInside, hadd⟩ := d.add_none p n
  obtain ⟨hsubInside, hsub⟩ := d.sub_none h.2.2 n
  have hback := d.sub_none haddInside.2.2 n
  have hon := d.add_none (d.sub none p n) n
  rw [hadd, Int.emod_sub_emod, add_sub_cancel_right, d.position_emod h] at hback
  rw [hsub, Int.emod_add_emod, sub_add_cancel, d.position_emod h] at hon
  exact ⟨⟨haddInside, hadd⟩, ⟨hsubInside, hsub⟩, d.position_injective hback.1 h hback.2,
    d.position_injective hon.1 h hon.2, fun boundary =>
      ⟨d.add_some p n boundary, d.sub_some h.2.2 n boundary⟩⟩

/-- From the first cell of three lines of four, one of them scrolled away. -/
theorem moves_point_threeLines :
    let d : Dimensions := ⟨3, 2, 4, by decide, by decide, by decide⟩
    d.Inside { line := -1 } ∧ d.position (d.sub none { line := -1 } 1) = 11 ∧
      d.position (d.add (some .cursor) { line := -1 } 1) = 4 := by
  intro d
  have h := d.moves_point (p := { line := -1 }) (by decide) 1
  exact ⟨by decide, h.2.1.2, (h.2.2.2.2 .cursor).1.2⟩

end Dimensions

/-- A grid's cursor moves back as in these dimensions. -/
theorem Grid.subPoint_eq {g : Grid} {d : Dimensions} (htotal : d.totalLines = g.totalLines)
    (hlines : d.screenLines = g.lines) (hcolumns : d.columns = g.columns) (boundary : Boundary)
    (point : Point) (count : ℕ) :
    g.subPoint boundary point count = d.sub (some boundary) point count := by
  cases boundary <;>
    simp [Grid.subPoint, Grid.clamp, Dimensions.sub, Dimensions.clamp, Grid.lastColumn,
      Grid.topmostLine, Grid.bottommostLine, Grid.historySize, Dimensions.lastColumn,
      Dimensions.topmostLine, Dimensions.bottommostLine, Dimensions.historySize, htotal, hlines,
      hcolumns] <;>
    congr

end Vivido.Terminal
