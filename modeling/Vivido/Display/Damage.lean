import Mathlib.Data.Set.Insert
import Vivido.Term.State

/-!
What a frame has to draw again: an interval of columns for each line, and the
rectangles sent to the compositor, which are enlarged, kept inside the window
and merged while each meets the next. Pixels count from the window's bottom.
-/

namespace Vivido.Display

open Terminal List

structure DamageRect where
  x : ℤ
  y : ℤ
  width : ℤ
  height : ℤ
  deriving DecidableEq

structure SizeInfo where
  width : ℕ
  height : ℕ
  cellWidth : ℕ
  cellHeight : ℕ
  paddingX : ℕ
  paddingY : ℕ

structure SelectionRange where
  start : Point
  stop : Point
  isBlock : Bool
  deriving DecidableEq

def SelectionRange.contains (r : SelectionRange) (point : Point) : Bool :=
  r.start.line ≤ point.line && r.stop.line ≥ point.line &&
    (r.start.column ≤ point.column || (r.start.line != point.line && !r.isBlock)) &&
    (r.stop.column ≥ point.column || (r.stop.line != point.line && !r.isBlock))

namespace DamageRect

def Contains (r : DamageRect) (x y : ℤ) : Prop :=
  r.x ≤ x ∧ x < r.x + r.width ∧ r.y ≤ y ∧ y < r.y + r.height

/-- `rects_overlap` -/
def overlap (a b : DamageRect) : Bool :=
  !(a.x + a.width < b.x || b.x + b.width < a.x || a.y + a.height < b.y || b.y + b.height < a.y)

/-- `merge_rects` -/
def merge (a b : DamageRect) : DamageRect where
  x := min a.x b.x
  y := min a.y b.y
  width := max (a.x + a.width) (b.x + b.width) - min a.x b.x
  height := max (a.y + a.height) (b.y + b.height) - min a.y b.y

/-- `RenderDamageIterator::next`, as often as it yields one: the rectangles that follow are
merged while they meet. -/
def collect (total : DamageRect) : List DamageRect → List DamageRect
  | [] => [total]
  | next :: rest => if total.overlap next then collect (total.merge next) rest
      else total :: collect next rest

end DamageRect

namespace SizeInfo

def window (size : SizeInfo) : DamageRect := ⟨0, 0, size.width, size.height⟩

def rectForLine (size : SizeInfo) (damage : LineDamageBounds) : DamageRect where
  x := size.paddingX + damage.left * size.cellWidth
  y := size.height - size.paddingY - (damage.line + 1) * size.cellHeight
  width := (damage.right - damage.left + 1 : ℕ) * size.cellWidth
  height := size.cellHeight

/-- The pixels of a cell. -/
def cellRect (size : SizeInfo) (cell : ℕ × ℕ) : DamageRect :=
  size.rectForLine ⟨cell.1, cell.2, cell.2⟩

/-- Also draw the cells beside, for wide characters. -/
def overdamage (size : SizeInfo) (rect : DamageRect) : DamageRect :=
  let x := max (rect.x - size.cellWidth) 0
  let y := max (rect.y - size.cellHeight / 2) 0
  { x, y
    width := min (max (size.width - x) 0) (rect.width + 2 * size.cellWidth)
    height := min (max (size.height - y) 0) (rect.height + size.cellHeight) }

end SizeInfo

structure FrameDamage where
  full : Bool := false
  lines : List LineDamageBounds := []
  rects : List DamageRect := []

inductive FrameOp where
  | damageLine (damage : LineDamageBounds)
  | damagePoint (point : ℕ × ℕ)
  | markFullyDamaged
  | addViewportRect (size : SizeInfo) (rect : DamageRect)

namespace FrameDamage

variable (f : FrameDamage)

def expand (line left right : ℕ) : FrameDamage :=
  { f with lines := f.lines.modify line (·.expand left right) }

def apply : FrameOp → FrameDamage
  | .damageLine damage => f.expand damage.line damage.left damage.right
  | .damagePoint point => f.expand point.1 point.2 point.2
  | .markFullyDamaged => { f with full := true }
  | .addViewportRect size rect =>
      { f with rects := f.rects ++ [{ rect with y := size.height - rect.y - rect.height }] }

def reset (numLines numCols : ℕ) : FrameDamage where
  lines := if f.lines.length = numLines then f.lines.map (·.reset numCols)
    else (List.range numLines).map (LineDamageBounds.undamaged · numCols)

def bounds (line : ℕ) : LineDamageBounds := f.lines.getD line (.undamaged line 1)

def intersects (start stop : ℕ × ℕ) : Bool :=
  f.full || ((f.bounds start.1).left ≤ start.2 && start.2 ≤ (f.bounds start.1).right) ||
    ((f.bounds stop.1).left ≤ stop.2 && stop.2 ≤ (f.bounds stop.1).right) ||
    (List.range' (start.1 + 1) (stop.1 - (start.1 + 1))).any fun line => (f.bounds line).isDamaged

/-- The cell is in the damaged columns of its line. -/
def Tracks (cell : ℕ × ℕ) : Prop :=
  (f.bounds cell.1).left ≤ cell.2 ∧ cell.2 ≤ (f.bounds cell.1).right

def Damages (cell : ℕ × ℕ) : Prop := f.full = true ∨ f.Tracks cell

end FrameDamage

structure DamageTracker where
  oldSelection : Option SelectionRange := none
  frame : FrameDamage := {}
  nextFrame : FrameDamage := {}
  screenLines : ℕ
  columns : ℕ

inductive Event where
  | frame (op : FrameOp)
  | nextFrame (op : FrameOp)
  | damageSelection (selection : Option SelectionRange) (displayOffset : ℕ)
  | swapDamage
  | resize (screenLines columns : ℕ)

namespace DamageTracker

variable (t : DamageTracker)

def resize (screenLines columns : ℕ) : DamageTracker :=
  { t with
    screenLines, columns
    frame := { t.frame.reset screenLines columns with full := true }
    nextFrame := t.nextFrame.reset screenLines columns }

def new (screenLines columns : ℕ) : DamageTracker :=
  resize { screenLines, columns } screenLines columns

def swapDamage : DamageTracker :=
  { t with frame := t.nextFrame, nextFrame := t.frame.reset t.screenLines t.columns }

/-- The lines that a selection is shown on. -/
def selectionLines (displayOffset : ℕ) (selection : SelectionRange) : List ℕ :=
  let last : ℤ := t.screenLines - 1
  if selection.stop.line + displayOffset < 0 ∨
      (selection.start.line.natAbs : ℤ) < displayOffset - last then []
  else
    let start := (max (selection.start.line + displayOffset) 0).toNat
    let stop := (max 0 (min (selection.stop.line + displayOffset) last)).toNat
    List.range' start (stop + 1 - start)

def damageSelection (selection : Option SelectionRange) (displayOffset : ℕ) : DamageTracker :=
  let old := t.oldSelection
  let t := { t with oldSelection := selection }
  if t.frame.full || old == selection then t
  else
    let lines := (selection.toList ++ old.toList).flatMap (t.selectionLines displayOffset)
    { t with frame := lines.foldl (fun f line => f.expand line 0 (t.columns - 1)) t.frame }

def step : Event → DamageTracker
  | .frame op => { t with frame := t.frame.apply op }
  | .nextFrame op => { t with nextFrame := t.nextFrame.apply op }
  | .damageSelection selection displayOffset => t.damageSelection selection displayOffset
  | .swapDamage => t.swapDamage
  | .resize screenLines columns => t.resize screenLines columns

/-- The rectangles to draw again. -/
def shapeFrameDamage (size : SizeInfo) : List DamageRect :=
  if t.frame.full then [size.window]
  else
    (match ((t.frame.lines.filter (·.isDamaged)).map (size.overdamage <| size.rectForLine ·)) with
      | [] => []
      | rect :: rest => rect.collect rest) ++ t.frame.rects

end DamageTracker

/-! ### Coverage -/

namespace DamageRect

theorem contains_merge {a b : DamageRect} {x y : ℤ} (h : a.Contains x y ∨ b.Contains x y) :
    (a.merge b).Contains x y := by
  unfold Contains merge at *
  dsimp only
  omega

theorem contains_collect {x y : ℤ} (rest : List DamageRect) (total : DamageRect)
    (h : ∃ rect ∈ total :: rest, rect.Contains x y) :
    ∃ rect ∈ total.collect rest, rect.Contains x y := by
  induction rest generalizing total with
  | nil => exact h
  | cons next rest ih =>
    unfold collect
    obtain ⟨rect, hmem, hrect⟩ := h
    split
    · apply ih
      rcases List.mem_cons.mp hmem with rfl | hmem
      · exact ⟨_, mem_cons_self, contains_merge (Or.inl hrect)⟩
      · rcases List.mem_cons.mp hmem with rfl | hmem
        · exact ⟨_, mem_cons_self, contains_merge (Or.inr hrect)⟩
        · exact ⟨rect, mem_cons_of_mem _ hmem, hrect⟩
    · rcases List.mem_cons.mp hmem with rfl | hmem
      · exact ⟨rect, mem_cons_self, hrect⟩
      · obtain ⟨found, hfound, hcontains⟩ := ih next ⟨rect, hmem, hrect⟩
        exact ⟨found, mem_cons_of_mem _ hfound, hcontains⟩

end DamageRect

/-- The enlarged rectangle of a line has the pixels of each of its cells in the window. -/
theorem SizeInfo.contains_overdamage (size : SizeInfo) {damage : LineDamageBounds} {column : ℕ}
    (hleft : damage.left ≤ column) (hright : column ≤ damage.right) {x y : ℤ}
    (hwindow : size.window.Contains x y)
    (hcell : (size.cellRect (damage.line, column)).Contains x y) :
    (size.overdamage (size.rectForLine damage)).Contains x y := by
  have hstart : (damage.left * size.cellWidth : ℤ) ≤ column * size.cellWidth := by
    exact_mod_cast Nat.mul_le_mul_right _ hleft
  have hstop : (column * size.cellWidth + size.cellWidth : ℤ) ≤
      damage.left * size.cellWidth + (damage.right - damage.left + 1 : ℕ) * size.cellWidth := by
    have hle := Nat.mul_le_mul_right size.cellWidth
      (show column + 1 ≤ damage.left + (damage.right - damage.left + 1) by omega)
    rw [Nat.add_mul, Nat.add_mul, Nat.one_mul] at hle
    exact_mod_cast hle
  unfold DamageRect.Contains window cellRect rectForLine overdamage at *
  simp only [Nat.sub_self, Nat.zero_add] at *
  generalize (damage.line + 1 : ℤ) * _ = top at *
  generalize (damage.left * size.cellWidth : ℤ) = a at *
  generalize (column * size.cellWidth : ℤ) = b at *
  generalize ((damage.right - damage.left + 1 : ℕ) * size.cellWidth : ℤ) = c at *
  omega

/-! ### What calls damage -/

/-- The cells that a call on a frame names. -/
def FrameOp.cells : FrameOp → Set (ℕ × ℕ)
  | .damageLine damage =>
      {cell | cell.1 = damage.line ∧ damage.left ≤ cell.2 ∧ cell.2 ≤ damage.right}
  | .damagePoint point => {point}
  | .markFullyDamaged => Set.univ
  | .addViewportRect .. => ∅

/-- The cells on screen that are in one of two selections and not in the other. -/
def changed (old new : Option SelectionRange) (displayOffset : ℕ) : Set (ℕ × ℕ) :=
  {cell | old.any (·.contains ⟨cell.1 - displayOffset, cell.2⟩) ≠
    new.any (·.contains ⟨cell.1 - displayOffset, cell.2⟩)}

namespace DamageTracker

/-- The cells that calls have damaged in the current frame, and in the next one. -/
def marks (t : DamageTracker) (seen : Set (ℕ × ℕ) × Set (ℕ × ℕ)) :
    Event → Set (ℕ × ℕ) × Set (ℕ × ℕ)
  | .frame op => (seen.1 ∪ op.cells, seen.2)
  | .nextFrame op => (seen.1, seen.2 ∪ op.cells)
  | .damageSelection selection displayOffset =>
      (seen.1 ∪ changed t.oldSelection selection displayOffset, seen.2)
  | .swapDamage => (seen.2, ∅)
  | .resize .. => (Set.univ, ∅)

/-- The tracker after some calls, and the cells they damaged. -/
def run (screenLines columns : ℕ) (events : List Event) :
    DamageTracker × Set (ℕ × ℕ) × Set (ℕ × ℕ) :=
  events.foldl (fun state event => (state.1.step event, state.1.marks state.2 event))
    (new screenLines columns, Set.univ, ∅)

end DamageTracker

namespace FrameDamage

variable {f : FrameDamage} {lines columns : ℕ} {seen : Set (ℕ × ℕ)} {cell : ℕ × ℕ}

/-- The lines are those of the screen, and no damage of a call is lost. -/
structure Holds (f : FrameDamage) (lines columns : ℕ) (seen : Set (ℕ × ℕ)) : Prop where
  numbers : f.lines.map (·.line) = List.range lines
  marked : ∀ cell ∈ seen, cell.1 < lines → cell.2 < columns → f.Damages cell

theorem Holds.length (h : f.Holds lines columns seen) : f.lines.length = lines := by
  simpa using congrArg List.length h.numbers

theorem bounds_expand (line left right : ℕ) : (f.expand line left right).bounds cell.1 =
    if cell.1 = line ∧ line < f.lines.length then (f.bounds cell.1).expand left right
    else f.bounds cell.1 := by
  unfold expand bounds
  simp only [getD_eq_getElem?_getD, getElem?_modify]
  grind

theorem Damages.expand (h : f.Damages cell) (line left right : ℕ) :
    (f.expand line left right).Damages cell := by
  refine h.imp_right fun htracks => ?_
  unfold Tracks at *
  rw [bounds_expand]
  split
  · exact ⟨min_le_of_left_le htracks.1, le_max_of_le_left htracks.2⟩
  · exact htracks

theorem damages_expand {line left right : ℕ} (hline : cell.1 = line) (hin : line < f.lines.length)
    (hleft : left ≤ cell.2) (hright : cell.2 ≤ right) :
    (f.expand line left right).Damages cell := by
  refine Or.inr ?_
  unfold Tracks
  rw [bounds_expand, if_pos ⟨hline, hin⟩]
  exact ⟨min_le_of_right_le hleft, le_max_of_le_right hright⟩

theorem Holds.expand (h : f.Holds lines columns seen) (line left right : ℕ) :
    (f.expand line left right).Holds lines columns
      (seen ∪ {cell | cell.1 = line ∧ left ≤ cell.2 ∧ cell.2 ≤ right}) := by
  refine ⟨?_, ?_⟩
  · refine Eq.trans ?_ h.numbers
    apply ext_getElem?
    intro i
    simp only [FrameDamage.expand, getElem?_map, getElem?_modify]
    grind [LineDamageBounds.expand]
  · rintro cell (hcell | ⟨hline, hleft, hright⟩) hlt hcolumn
    · exact (h.marked cell hcell hlt hcolumn).expand ..
    · exact damages_expand hline (by rw [h.length]; omega) hleft hright

theorem Holds.mono (h : f.Holds lines columns seen) {more : Set (ℕ × ℕ)}
    (hmore : ∀ cell ∈ more, cell.1 < lines → cell.2 < columns → cell ∈ seen ∨ f.full = true) :
    f.Holds lines columns more := by
  refine ⟨h.numbers, fun cell hcell hlt hcolumn => ?_⟩
  rcases hmore cell hcell hlt hcolumn with hseen | hfull
  · exact h.marked cell hseen hlt hcolumn
  · exact Or.inl hfull

theorem Holds.apply (h : f.Holds lines columns seen) (op : FrameOp) :
    (f.apply op).Holds lines columns (seen ∪ op.cells) := by
  cases op with
  | damageLine damage => exact h.expand ..
  | damagePoint point =>
    refine (h.expand point.1 point.2 point.2).mono fun cell hcell _ _ => Or.inl ?_
    rcases hcell with hcell | rfl
    · exact Or.inl hcell
    · exact Or.inr ⟨rfl, le_rfl, le_rfl⟩
  | markFullyDamaged => exact ⟨h.numbers, fun _ _ _ _ => Or.inl rfl⟩
  | addViewportRect => exact ⟨h.numbers, fun cell hcell => h.marked cell (hcell.resolve_right id)⟩

theorem holds_reset (f : FrameDamage) (hnumbers : f.lines.map (·.line) = List.range f.lines.length)
    (lines columns : ℕ) : (f.reset lines columns).Holds lines columns ∅ := by
  refine ⟨?_, fun _ hcell => hcell.elim⟩
  unfold reset
  dsimp only
  split
  · rename_i hlength
    rw [map_map, ← hlength, ← hnumbers]
    rfl
  · rw [map_map]
    exact map_id _

theorem Holds.expandAll (h : f.Holds lines columns seen) (damaged : List ℕ) :
    (damaged.foldl (fun f line => f.expand line 0 (columns - 1)) f).Holds lines columns
      (seen ∪ {cell | cell.1 ∈ damaged}) := by
  induction damaged generalizing f seen with
  | nil => exact h.mono fun cell hcell _ _ => Or.inl (hcell.resolve_right (by simp))
  | cons line damaged ih =>
    refine (ih (h.expand line 0 (columns - 1))).mono fun cell hcell _ hcolumn => Or.inl ?_
    rcases hcell with hcell | hcell
    · exact Or.inl (Or.inl hcell)
    · rcases List.mem_cons.mp hcell with hline | hcell
      · exact Or.inl (Or.inr ⟨hline, Nat.zero_le _, by omega⟩)
      · exact Or.inr hcell

end FrameDamage

namespace DamageTracker

variable {t : DamageTracker} {seen : Set (ℕ × ℕ) × Set (ℕ × ℕ)} {cell : ℕ × ℕ}

theorem mem_selectionLines {displayOffset : ℕ} {selection : SelectionRange}
    (h : selection.contains ⟨cell.1 - displayOffset, cell.2⟩ = true) (hcell : cell.1 < t.screenLines) :
    cell.1 ∈ t.selectionLines displayOffset selection := by
  unfold SelectionRange.contains at h
  simp only [Bool.and_eq_true, decide_eq_true_eq] at h
  unfold selectionLines
  dsimp only
  rw [if_neg (by omega), mem_range'_1]
  omega

/-- Both frames have the screen's lines and the damage of every call on them. -/
structure Sound (t : DamageTracker) (seen : Set (ℕ × ℕ) × Set (ℕ × ℕ)) : Prop where
  frame : t.frame.Holds t.screenLines t.columns seen.1
  nextFrame : t.nextFrame.Holds t.screenLines t.columns seen.2

theorem Sound.damageSelection (h : t.Sound seen) (selection : Option SelectionRange)
    (displayOffset : ℕ) : (t.damageSelection selection displayOffset).Sound
      (seen.1 ∪ changed t.oldSelection selection displayOffset, seen.2) := by
  unfold DamageTracker.damageSelection
  dsimp only
  split
  · rename_i hquiet
    refine ⟨h.frame.mono fun cell hcell _ _ => ?_, h.nextFrame⟩
    rcases hcell with hcell | hchanged
    · exact Or.inl hcell
    · rcases Bool.or_eq_true_iff.mp hquiet with hfull | hsame
      · exact Or.inr hfull
      · rw [eq_of_beq hsame] at hchanged
        exact absurd rfl hchanged
  · refine ⟨(h.frame.expandAll _).mono fun cell hcell hlt _ => Or.inl ?_, h.nextFrame⟩
    refine hcell.imp_right fun hchanged => ?_
    have hshown : ∃ r ∈ selection.toList ++ t.oldSelection.toList,
        r.contains ⟨cell.1 - displayOffset, cell.2⟩ = true := by
      unfold changed at hchanged
      rcases hold : t.oldSelection with _ | old <;> rcases selection with _ | new <;>
        rw [hold] at hchanged <;> simp at hchanged ⊢ <;> grind
    obtain ⟨r, hr, hcontains⟩ := hshown
    exact List.mem_flatMap.mpr ⟨r, hr, mem_selectionLines hcontains hlt⟩

theorem Sound.step (h : t.Sound seen) (event : Event) :
    (t.step event).Sound (t.marks seen event) := by
  have hframe := h.frame.length
  have hnext := h.nextFrame.length
  cases event with
  | frame op => exact ⟨h.frame.apply op, h.nextFrame⟩
  | nextFrame op => exact ⟨h.frame, h.nextFrame.apply op⟩
  | damageSelection selection displayOffset => exact h.damageSelection selection displayOffset
  | swapDamage =>
    exact ⟨h.nextFrame, FrameDamage.holds_reset _ (by rw [hframe]; exact h.frame.numbers) ..⟩
  | resize screenLines columns =>
    refine ⟨⟨?_, fun _ _ _ _ => Or.inl rfl⟩,
      FrameDamage.holds_reset _ (by rw [hnext]; exact h.nextFrame.numbers) ..⟩
    exact (FrameDamage.holds_reset _ (by rw [hframe]; exact h.frame.numbers) ..).numbers

theorem run_sound (screenLines columns : ℕ) (events : List Event) :
    (run screenLines columns events).1.Sound (run screenLines columns events).2 := by
  induction events using List.reverseRecOn with
  | nil =>
    have hreset := FrameDamage.holds_reset {} rfl screenLines columns
    exact ⟨⟨hreset.numbers, fun _ _ _ _ => Or.inl rfl⟩, hreset⟩
  | append_singleton events event ih =>
    unfold run at *
    rw [foldl_append]
    exact ih.step event

/-- The rectangles have every pixel in the window of every damaged cell. -/
theorem Sound.covers (h : t.Sound seen) (size : SizeInfo) (hcell : cell.1 < t.screenLines)
    (hdamage : t.frame.Damages cell) {x y : ℤ} (hwindow : size.window.Contains x y)
    (hpixel : (size.cellRect cell).Contains x y) :
    ∃ rect ∈ t.shapeFrameDamage size, rect.Contains x y := by
  unfold shapeFrameDamage
  split
  · exact ⟨size.window, by simp, hwindow⟩
  rename_i hfull
  have htracks := hdamage.resolve_left hfull
  have hin : cell.1 < t.frame.lines.length := by rw [h.frame.length]; exact hcell
  have hbounds : t.frame.bounds cell.1 = t.frame.lines[cell.1] := by
    unfold FrameDamage.bounds
    rw [getD_eq_getElem?_getD, getElem?_eq_getElem hin]
    rfl
  have hline : (t.frame.bounds cell.1).line = cell.1 := by
    have hnumber := congrArg (·[cell.1]?) h.frame.numbers
    simp [hin, hcell] at hnumber
    rw [hbounds]
    exact hnumber
  have hmem : size.overdamage (size.rectForLine (t.frame.bounds cell.1)) ∈
      (t.frame.lines.filter (·.isDamaged)).map (size.overdamage <| size.rectForLine ·) := by
    refine List.mem_map.mpr ⟨_, List.mem_filter.mpr ⟨hbounds ▸ getElem_mem hin, ?_⟩, rfl⟩
    exact decide_eq_true (htracks.1.trans htracks.2)
  have hcontains : (size.overdamage (size.rectForLine (t.frame.bounds cell.1))).Contains x y := by
    apply size.contains_overdamage htracks.1 htracks.2 hwindow
    rw [hline]
    exact hpixel
  split
  · rename_i hnil
    rw [hnil] at hmem
    cases hmem
  · rename_i rect rest hcons
    rw [hcons] at hmem
    obtain ⟨found, hfound, hhas⟩ := DamageRect.contains_collect rest rect ⟨_, hmem, hcontains⟩
    exact ⟨found, mem_append_left _ hfound, hhas⟩

end DamageTracker

/-! ### Ranges -/

def InOrder (p q : ℕ × ℕ) : Prop := p.1 < q.1 ∨ p.1 = q.1 ∧ p.2 ≤ q.2

namespace FrameDamage

variable {f : FrameDamage} {start stop : ℕ × ℕ}

/-- On the first line damage begins only after the range does, or on the last line damage ends
before the range does; on a single line both. -/
def Missed (f : FrameDamage) (start stop : ℕ × ℕ) : Prop :=
  let first := f.bounds start.1
  let last := f.bounds stop.1
  if start.1 = stop.1 then
    start.2 < first.left ∧ first.left ≤ first.right ∧ first.right < stop.2
  else start.2 < first.left ∧ first.left ≤ first.right ∨
    last.left ≤ last.right ∧ last.right < stop.2

/-- Such damage does not stay alone: all is damaged, or the first or the last cell, or a line
between. -/
def Plain (f : FrameDamage) (start stop : ℕ × ℕ) : Prop :=
  f.Missed start stop → f.full = true ∨ f.Tracks start ∨ f.Tracks stop ∨
    ∃ line, start.1 < line ∧ line < stop.1 ∧ (f.bounds line).isDamaged = true

theorem intersects_iff : f.intersects start stop = true ↔ f.full = true ∨ f.Tracks start ∨
    f.Tracks stop ∨ ∃ line, start.1 < line ∧ line < stop.1 ∧ (f.bounds line).isDamaged = true := by
  unfold intersects Tracks
  simp only [Bool.or_eq_true, Bool.and_eq_true, decide_eq_true_eq, List.any_eq_true,
    mem_range'_1, or_assoc]
  refine or_congr_right (or_congr_right (or_congr_right (exists_congr fun line => ?_)))
  constructor
  · intro h
    exact ⟨by omega, by omega, h.2⟩
  · intro h
    exact ⟨by omega, h.2.2⟩

/-- The test of a range is right if and only if no damage in it goes unseen. -/
theorem intersects_right_iff (h : InOrder start stop) :
    (f.intersects start stop = true ↔ f.full = true ∨
      ∃ cell, f.Tracks cell ∧ InOrder start cell ∧ InOrder cell stop) ↔ f.Plain start stop := by
  rw [intersects_iff]
  constructor
  · intro hright hmissed
    apply hright.mpr
    right
    unfold Missed at hmissed
    unfold Tracks InOrder at *
    dsimp only at hmissed
    split at hmissed
    · exact ⟨(start.1, (f.bounds start.1).left), by dsimp only; omega⟩
    · rcases hmissed with hfirst | hlast
      · exact ⟨(start.1, (f.bounds start.1).left), by dsimp only; omega⟩
      · exact ⟨(stop.1, (f.bounds stop.1).right), by dsimp only; omega⟩
  · intro hplain
    constructor
    · rintro (hfull | hstart | hstop | ⟨line, hlow, hhigh, hdamaged⟩)
      · exact Or.inl hfull
      · exact Or.inr ⟨start, hstart, Or.inr ⟨rfl, le_rfl⟩, h⟩
      · exact Or.inr ⟨stop, hstop, h, Or.inr ⟨rfl, le_rfl⟩⟩
      · exact Or.inr ⟨(line, (f.bounds line).left), ⟨le_rfl, of_decide_eq_true hdamaged⟩,
          Or.inl hlow, Or.inl hhigh⟩
    · rintro (hfull | ⟨cell, htracks, hafter, hbefore⟩)
      · exact Or.inl hfull
      by_contra hnot
      have hmissed : ¬ f.Missed start stop := fun hmissed => hnot (hplain hmissed)
      simp only [not_or, not_exists, not_and] at hnot
      obtain ⟨-, hstart, hstop, hlines⟩ := hnot
      have hdamaged : (f.bounds cell.1).isDamaged = true :=
        decide_eq_true (htracks.1.trans htracks.2)
      have hend : cell.1 = start.1 ∨ cell.1 = stop.1 := by
        by_contra hne
        unfold InOrder at *
        exact hlines cell.1 (by omega) (by omega) hdamaged
      apply hmissed
      unfold Missed
      unfold Tracks InOrder at *
      dsimp only
      by_cases hsame : start.1 = stop.1
      · rw [if_pos hsame, hsame]
        rw [show cell.1 = stop.1 by omega] at htracks
        rw [hsame] at hstart
        omega
      · rw [if_neg hsame]
        rcases hend with heq | heq <;> rw [heq] at htracks <;> omega

end FrameDamage

open DamageTracker

/-- No damage is lost and all of it is drawn again; a range is tested right if and only if no
damage in it goes unseen. -/
theorem damage_exact (screenLines columns : ℕ) (events : List Event) :
    let (t, marked, _) := run screenLines columns events
    (∀ cell ∈ marked, cell.1 < t.screenLines → cell.2 < t.columns → t.frame.Damages cell) ∧
      (∀ (size : SizeInfo) (cell : ℕ × ℕ), cell.1 < t.screenLines → t.frame.Damages cell →
        ∀ x y, size.window.Contains x y → (size.cellRect cell).Contains x y →
          ∃ rect ∈ t.shapeFrameDamage size, rect.Contains x y) ∧
      ∀ start stop, InOrder start stop → ((t.frame.intersects start stop = true ↔
        t.frame.full = true ∨ ∃ cell, t.frame.Tracks cell ∧ InOrder start cell ∧
          InOrder cell stop) ↔ t.frame.Plain start stop) := by
  have hsound := run_sound screenLines columns events
  refine ⟨hsound.frame.marked, ?_, fun _ _ => FrameDamage.intersects_right_iff⟩
  intro size cell hcell hdamage x y hwindow hpixel
  exact hsound.covers size hcell hdamage hwindow hpixel

/-- Damage on the first line, right of the cell that a range of two lines starts at, is unseen. -/
example :
    let t := (run 2 10 [.swapDamage, .frame (.damagePoint (0, 5))]).1
    t.frame.intersects (0, 2) (1, 0) = false ∧ (t.frame.bounds 0).left = 5 := ⟨rfl, rfl⟩

end Vivido.Display
