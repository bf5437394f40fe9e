import Vivido.Grid.LineMoves
import Vivido.Term.Text
import Vivido.Vivid.Merging

/-!
Anchors and the rows they were placed on. A screen's rows carry the identities
of their anchors as labels, which scrolls move with the rows. The scene knows
only the scrolls' regions, counts and history sizes; as long as no scroll runs
over the lines of an anchor on the other screen, each anchor stands on the line
of its row, and is gone exactly when its row is.
-/

namespace Vivido.Vivid

open Terminal List Option

/-- A scroll of a region of the screen. -/
inductive ScrollOp where
  | up (start stop count : ℕ)
  | down (start stop count : ℕ)
  deriving DecidableEq, Repr

namespace ScrollOp

def toLine {ρ ε : Type} : ScrollOp → LineOp ρ ε
  | up start stop count => .scrollUp start stop count
  | down start stop count => .scrollDown start stop count

def count : ScrollOp → ℕ
  | up _ _ count => count
  | down _ _ count => count

/-- What the scene is told of it. -/
def record (historySize : ℕ) : ScrollOp → PendingGridScroll
  | up start stop count => ⟨start, stop, count, historySize⟩
  | down start stop count => ⟨start, stop, -(count : ℤ), historySize⟩

end ScrollOp

/-- The terminal's scrolls are such scrolls, and it queues what the scene is told. -/
theorem scrollUpRelative_eq (t : Term) {origin stop : ℕ} (hstop : t.scrollRegion.stop = stop)
    (lines : ℕ) :
    let op := ScrollOp.up origin stop (min lines (t.scrollRegion.stop - t.scrollRegion.start).toNat)
    let scrolled := t.modifyGrid (·.applyLine op.toLine)
    t.scrollUpRelative origin lines =
      (if 0 < op.count then queueAll scrolled [op.record scrolled.historySize]
        else scrolled).markFullyDamaged := by
  have hmoved : ∀ f, (t.modifyGrid f).scrollRegion.stop = stop := fun _ => hstop
  unfold Term.scrollUpRelative Term.scrollUpRelativeResetting
  simp only [Bool.not_true, Bool.false_and, Bool.false_eq_true, if_false, hmoved, hstop]
  rfl

theorem scrollDownRelative_eq (t : Term) {origin stop : ℕ} (hstop : t.scrollRegion.stop = stop)
    (lines : ℕ) :
    let op := ScrollOp.down origin stop
      (min (min lines (t.scrollRegion.stop - t.scrollRegion.start).toNat)
        (t.scrollRegion.stop - origin).toNat)
    let scrolled := t.modifyGrid (·.applyLine op.toLine)
    t.scrollDownRelative origin lines =
      (if 0 < op.count then queueAll scrolled [op.record scrolled.historySize]
        else scrolled).markFullyDamaged := by
  have hmoved : ∀ f, (t.modifyGrid f).scrollRegion.stop = stop := fun _ => hstop
  unfold Term.scrollDownRelative
  simp only [hmoved, hstop]
  rfl

/-- A grid whose rows carry labels. -/
structure Screen (ι : Type) where
  grid : Grid
  labelled : Lines (Row × List ι) Cell

variable {ι : Type}

namespace Screen

/-- The labels are on the grid's rows, whose lines have 32-bit numbers. -/
structure Fits (s : Screen ι) : Prop where
  good : s.grid.Good
  rows : s.labelled.rows.map Prod.fst = s.grid.toLines.rows
  screen : s.labelled.screen = s.grid.lines
  limit : s.labelled.limit = s.grid.maxScrollLimit
  erase : s.labelled.erase = s.grid.cursor.erase
  limit_le : (s.grid.maxScrollLimit : ℤ) ≤ i32Max
  lines_le : (s.grid.lines : ℤ) ≤ i32Max

/-- The identities on a line. -/
def at? (s : Screen ι) (line : ℤ) : List ι := ((s.labelled.line? line).map Prod.snd).getD []

def Unlabelled (s : Screen ι) : Prop := ∀ line, s.at? line = []

/-- A scroll of the grid moves the labels with the rows; the rows that enter have none. -/
def Scrolls (s : Screen ι) (op : ScrollOp) (s' : Screen ι) : Prop :=
  s'.grid = s.grid.applyLine op.toLine ∧
    Lines.Step (Row.new s.grid.columns, []) (fun erase => (Grid.blankLine s.grid.columns erase, []))
      s.labelled op.toLine s'.labelled

/-- Label the row of a line. -/
def label (s : Screen ι) (line : ℤ) (identity : ι) : Screen ι :=
  let update := fun entry : Row × List ι => (entry.1, identity :: entry.2)
  { s with labelled.rows := s.labelled.rows.modify (s.labelled.place line) update }

variable {s s' : Screen ι}

theorem Fits.full (h : s.Fits) : s.labelled.Full := by
  have hrows := congrArg List.length h.rows
  rw [length_map] at hrows
  unfold Lines.Full
  rw [hrows, h.screen]
  exact (Grid.length_rows h.good).ge.trans' (Nat.le_add_right _ _)

theorem Fits.history (h : s.Fits) : s.labelled.history.length = s.grid.historySize := by
  have hrows := congrArg List.length h.rows
  have hlen := Lines.length_rows h.full
  rw [length_map, show s.grid.toLines.rows.length = _ from Grid.length_rows h.good] at hrows
  have hscreen := h.screen
  omega

theorem Fits.history_le (h : s.Fits) : s.grid.historySize ≤ s.grid.maxScrollLimit := by
  have hbound := h.good.history
  have hfull := h.good.len_eq
  omega

theorem mem_at? {line : ℤ} {identity : ι} (h : identity ∈ s.at? line) :
    ∃ row labels, s.labelled.line? line = some (row, labels) ∧ identity ∈ labels := by
  unfold at? at h
  cases hline : s.labelled.line? line with
  | none =>
    rw [hline] at h
    cases h
  | some entry =>
    rw [hline] at h
    exact ⟨entry.1, entry.2, rfl, h⟩

/-- A labelled line has a number within 32 bits. -/
theorem Fits.isI32 (h : s.Fits) {line : ℤ} {identity : ι} (hmem : identity ∈ s.at? line) :
    -(s.grid.historySize : ℤ) ≤ line ∧ line < s.grid.lines ∧ IsI32 line := by
  obtain ⟨_, _, hline, _⟩ := mem_at? hmem
  obtain ⟨hlow, hhigh⟩ := Lines.line?_isSome h.full hline
  rw [h.history] at hlow
  rw [h.screen] at hhigh
  have hbound := h.history_le
  have hlimit := h.limit_le
  have hlines := h.lines_le
  refine ⟨hlow, hhigh, ?_⟩
  unfold IsI32
  unfold i32Max at hlimit hlines ⊢
  omega

theorem Fits.map (h : s.Fits) : ∃ cached, { s.grid.toLines with cached := cached } =
    s.labelled.map Prod.fst s.grid.cursor.erase := by
  refine ⟨s.labelled.cached.map Prod.fst, ?_⟩
  unfold Lines.map
  rw [h.rows, h.screen, h.limit]
  rfl

theorem fits_of_scrolled (h : s.Fits) {rows : List Row} {labelled : List (Row × List ι)}
    (hgood : s'.grid.Good) (hgrid : s.grid.toLines.Scrolled rows s'.grid.toLines)
    (hlabelled : s.labelled.Scrolled labelled s'.labelled) (hrows : labelled.map Prod.fst = rows) :
    s'.Fits := by
  have hlines : s'.grid.lines = s.grid.lines := hgrid.screen
  have hlimit : s'.grid.maxScrollLimit = s.grid.maxScrollLimit := hgrid.limit
  have herase : s'.grid.cursor.erase = s.grid.cursor.erase := hgrid.erase
  refine ⟨hgood, ?_, ?_, ?_, ?_, ?_, ?_⟩
  · rw [hlabelled.rows, hrows, hgrid.rows]
  · rw [hlabelled.screen, h.screen, hlines]
  · rw [hlabelled.limit, h.limit, hlimit]
  · rw [hlabelled.erase, h.erase, herase]
  · rw [hlimit]
    exact h.limit_le
  · rw [hlines]
    exact h.lines_le

theorem fits_scrolls (h : s.Fits) {op : ScrollOp} (hop : s.grid.Applicable op.toLine)
    (hscrolls : s.Scrolls op s') : s'.Fits := by
  obtain ⟨hgrid, hstep⟩ := hscrolls
  obtain ⟨hgood, hline⟩ := Grid.applyLine_refines h.good op.toLine hop
  rw [← hgrid] at hgood hline
  obtain ⟨_, hmap⟩ := h.map
  cases op with
  | up =>
    have hrows := Lines.scrolled_up hline
    have hlabels := Lines.scrolled_up hstep
    refine fits_of_scrolled h hgood hrows hlabels ?_
    rw [h.erase, ← @Lines.scrolledUp_map _ _ _ _ Prod.fst s.grid.cursor.erase, ← hmap]
    rfl
  | down =>
    have hrows := Lines.scrolled_down hline
    have hlabels := Lines.scrolled_down hstep
    refine fits_of_scrolled h hgood hrows hlabels ?_
    rw [h.erase, ← @Lines.scrolledDown_map _ _ _ _ Prod.fst s.grid.cursor.erase, ← hmap]
    rfl

/-- The region is one of the screen, and the count no more than its lines. -/
structure Proper (s : Screen ι) (op : ScrollOp) : Prop where
  applicable : s.grid.Applicable op.toLine
  count_pos : 0 < op.count
  count_le : op.count ≤ s.grid.lines

theorem Proper.inRange {op : ScrollOp} (h : s.Proper op) (hfits : s.Fits) (historySize : ℕ) :
    InRange (op.record historySize) := by
  obtain ⟨happ, _, hcount⟩ := h
  have hlines := hfits.lines_le
  unfold i32Max at hlines
  cases op with
  | up start _ count =>
    obtain ⟨hstart, hstop, _⟩ := happ
    change count ≤ _ at hcount
    refine ⟨⟨Int.natCast_nonneg start, ?_⟩, ⟨?_, ?_⟩, abs_le.mpr ⟨?_, ?_⟩⟩ <;>
      dsimp only [ScrollOp.record, i32Max] <;> omega
  | down start _ count =>
    obtain ⟨_, _⟩ := happ
    change count ≤ _ at hcount
    refine ⟨⟨Int.natCast_nonneg start, ?_⟩, ⟨?_, ?_⟩, abs_le.mpr ⟨?_, ?_⟩⟩ <;>
      dsimp only [ScrollOp.record, i32Max] <;> omega

theorem Proper.lines_ne {op : ScrollOp} (h : s.Proper op) (historySize : ℕ) :
    (op.record historySize).lines ≠ 0 := by
  have hpos := h.count_pos
  cases op with
  | up _ _ count | down _ _ count =>
    change 0 < count at hpos
    dsimp only [ScrollOp.record]
    omega

/-- The labels after a scroll up. -/
theorem at?_up (h : s.Fits) {start stop count : ℕ} (hstart : start ≤ stop)
    (hstop : stop ≤ s.grid.lines) (hscrolls : s.Scrolls (.up start stop count) s')
    (hfits : s'.Fits) (line : ℤ) : s'.at? line =
      if line < -(s'.grid.historySize : ℤ) then []
      else if line < stop ∧ (start = 0 ∨ start ≤ line) then
        if line + count < stop then s.at? (line + count) else []
      else s.at? line := by
  have hstop' : stop ≤ s.labelled.screen := by
    rw [h.screen]
    exact hstop
  unfold at?
  rw [Lines.line?_scrolledUp h.full hstart hstop' (Lines.scrolled_up hscrolls.2), hfits.history]
  split
  · rfl
  · split
    · split <;> rfl
    · rfl

theorem at?_down (h : s.Fits) {start stop count : ℕ} (hstart : start ≤ stop)
    (hstop : stop ≤ s.grid.lines) (hscrolls : s.Scrolls (.down start stop count) s') (line : ℤ) :
    s'.at? line =
      if start ≤ line ∧ line < stop then
        if start ≤ line - count then s.at? (line - count) else []
      else s.at? line := by
  have hstop' : stop ≤ s.labelled.screen := by
    rw [h.screen]
    exact hstop
  unfold at?
  rw [Lines.line?_scrolledDown h.full hstart hstop' (Lines.scrolled_down hscrolls.2)]
  split
  · split <;> rfl
  · rfl

theorem Fits.minimumLine (h : s.Fits) : minimumLine s.grid.historySize = -(s.grid.historySize : ℤ) := by
  have hbound := h.history_le
  have hlimit := h.limit_le
  unfold Vivid.minimumLine
  omega

theorem scrollLine_iff (h : s.Fits) (hfits : s'.Fits) {op : ScrollOp} (hop : s.Proper op) {old line : ℤ}
    (hold : IsI32 old) : scrollLine (op.record s'.grid.historySize) old = some line ↔
      -(s'.grid.historySize : ℤ) ≤ line ∧
        (Shifts (op.record s'.grid.historySize) old ∧ Keeps (op.record s'.grid.historySize) old ∧
            line = old - (op.record s'.grid.historySize).lines ∨
          ¬Shifts (op.record s'.grid.historySize) old ∧ line = old) := by
  have hmin := hfits.minimumLine
  have hsize : (op.record s'.grid.historySize).historySize = s'.grid.historySize := by
    cases op <;> rfl
  rw [scrollLine_eq (hop.inRange h _) hold, filter_exactLine, hsize, hmin]
  by_cases hshifts : Shifts (op.record s'.grid.historySize) old
  · rw [if_pos hshifts, ite_none_right_eq_some, some_inj]
    constructor
    · rintro ⟨⟨hkeeps, hlow⟩, rfl⟩
      exact ⟨hlow, Or.inl ⟨hshifts, hkeeps, rfl⟩⟩
    · rintro ⟨hlow, ⟨_, hkeeps, rfl⟩ | ⟨hfixed, _⟩⟩
      · exact ⟨⟨hkeeps, hlow⟩, rfl⟩
      · exact (hfixed hshifts).elim
  · rw [if_neg hshifts, ite_none_right_eq_some, some_inj]
    constructor
    · rintro ⟨hlow, rfl⟩
      exact ⟨hlow, Or.inr ⟨hshifts, rfl⟩⟩
    · rintro ⟨hlow, ⟨hmoved, _⟩ | ⟨_, rfl⟩⟩
      · exact (hshifts hmoved).elim
      · exact ⟨hlow, rfl⟩

/-- A label is on the line its anchor is scrolled to. -/
theorem mem_at?_scrolls (h : s.Fits) {op : ScrollOp} (hop : s.Proper op)
    (hscrolls : s.Scrolls op s') (identity : ι) (line' : ℤ) :
    identity ∈ s'.at? line' ↔ ∃ line, identity ∈ s.at? line ∧
      scrollLine (op.record s'.grid.historySize) line = some line' := by
  have hfits := fits_scrolls h hop.applicable hscrolls
  have hpos := hop.count_pos
  constructor
  · intro hmem
    cases op with
    | up start stop count =>
      obtain ⟨hstart, hstop, _⟩ := hop.applicable
      rw [at?_up h (Nat.le_of_lt hstart) hstop hscrolls hfits] at hmem
      change 0 < count at hpos
      split at hmem
      · cases hmem
      rename_i hlow
      split at hmem
      · rename_i hregion
        split at hmem
        · rename_i hmoved
          refine ⟨_, hmem, (scrollLine_iff h hfits hop (h.isI32 hmem).2.2).mpr ⟨by omega, Or.inl ?_⟩⟩
          unfold Shifts Keeps
          dsimp only [ScrollOp.record]
          omega
        · cases hmem
      · rename_i hfixed
        refine ⟨_, hmem, (scrollLine_iff h hfits hop (h.isI32 hmem).2.2).mpr ⟨by omega, Or.inr ?_⟩⟩
        unfold Shifts
        dsimp only [ScrollOp.record]
        omega
    | down start stop count =>
      obtain ⟨hstart, hstop⟩ := hop.applicable
      have hlow := (hfits.isI32 hmem).1
      rw [at?_down h (Nat.le_of_lt hstart) hstop hscrolls] at hmem
      change 0 < count at hpos
      split at hmem
      · rename_i hregion
        split at hmem
        · rename_i hmoved
          refine ⟨_, hmem, (scrollLine_iff h hfits hop (h.isI32 hmem).2.2).mpr ⟨hlow, Or.inl ?_⟩⟩
          unfold Shifts Keeps
          dsimp only [ScrollOp.record]
          omega
        · cases hmem
      · rename_i hfixed
        refine ⟨_, hmem, (scrollLine_iff h hfits hop (h.isI32 hmem).2.2).mpr ⟨hlow, Or.inr ?_⟩⟩
        unfold Shifts
        dsimp only [ScrollOp.record]
        omega
  · rintro ⟨line, hmem, hline⟩
    obtain ⟨_, hmoved⟩ := (scrollLine_iff h hfits hop (h.isI32 hmem).2.2).mp hline
    cases op with
    | up _ _ count =>
      obtain ⟨hstart, hstop, _⟩ := hop.applicable
      change 0 < count at hpos
      rw [at?_up h (Nat.le_of_lt hstart) hstop hscrolls hfits, if_neg (by omega)]
      unfold Shifts Keeps at hmoved
      dsimp only [ScrollOp.record] at hmoved
      rcases hmoved with ⟨hshifts, hkeeps, rfl⟩ | ⟨hfixed, rfl⟩
      · rw [if_pos (by omega), if_pos (by omega), sub_add_cancel]
        exact hmem
      · rw [if_neg (by omega)]
        exact hmem
    | down _ _ count =>
      obtain ⟨hstart, hstop⟩ := hop.applicable
      change 0 < count at hpos
      rw [at?_down h (Nat.le_of_lt hstart) hstop hscrolls]
      unfold Shifts Keeps at hmoved
      dsimp only [ScrollOp.record] at hmoved
      rcases hmoved with ⟨_, _, rfl⟩ | ⟨_, rfl⟩
      · rw [if_pos (by omega), if_pos (by omega), show line - -(count : ℤ) - count = line by omega]
        exact hmem
      · rw [if_neg (by omega)]
        exact hmem

/-- A grid without labels. -/
def plain (g : Grid) : Screen ι := ⟨g, g.toLines.map (·, []) g.cursor.erase⟩

theorem fits_plain {g : Grid} (hgood : g.Good) (hlimit : (g.maxScrollLimit : ℤ) ≤ i32Max)
    (hlines : (g.lines : ℤ) ≤ i32Max) : (plain g : Screen ι).Fits := by
  refine ⟨hgood, ?_, rfl, rfl, rfl, hlimit, hlines⟩
  change (g.toLines.rows.map (·, ([] : List ι))).map Prod.fst = g.toLines.rows
  rw [List.map_map]
  exact map_id _

theorem unlabelled_plain (g : Grid) : (plain g : Screen ι).Unlabelled := by
  intro line
  unfold at?
  cases hline : (plain g : Screen ι).labelled.line? line with
  | none => rfl
  | some =>
    obtain ⟨_, hentry⟩ := Option.ite_none_right_eq_some.mp hline
    obtain ⟨_, _, rfl⟩ := List.mem_map.mp (mem_of_getElem? hentry)
    rfl

/-- The screen after a scroll; what scrolling leaves in the cached rows does not matter. -/
def scroll (s : Screen ι) (op : ScrollOp) : Screen ι where
  grid := s.grid.applyLine op.toLine
  labelled :=
    let blank := (Grid.blankLine s.grid.columns s.labelled.erase, [])
    match op with
    | .up start stop count =>
        { s.labelled with rows := s.labelled.scrolledUp blank start stop count }
    | .down start stop count =>
        { s.labelled with rows := s.labelled.scrolledDown blank start stop count }

theorem scrolls_scroll (s : Screen ι) (op : ScrollOp) : s.Scrolls op (s.scroll op) := by
  refine ⟨rfl, ?_⟩
  cases op with
  | up start =>
    by_cases hstart : start = 0
    · subst hstart
      exact Lines.Step.pushUp
    · unfold scroll Lines.scrolledUp
      dsimp only [ScrollOp.toLine]
      rw [if_neg hstart]
      exact Lines.Step.regionUp (Nat.pos_of_ne_zero hstart)
  | down => exact Lines.Step.regionDown

theorem map_fst_modify {rows : List (Row × List ι)} (place : ℕ) (identity : ι) :
    (rows.modify place fun entry => (entry.1, identity :: entry.2)).map Prod.fst =
      rows.map Prod.fst := by
  apply ext_getElem?
  intro i
  rw [getElem?_map, getElem?_map, getElem?_modify]
  cases rows[i]? with
  | none => rfl
  | some =>
    dsimp only [map_some, Option.map_eq_map]
    split <;> rfl

theorem Fits.label (h : s.Fits) (line : ℤ) (identity : ι) : (s.label line identity).Fits :=
  { h with rows := (map_fst_modify _ _).trans h.rows }

theorem history_label (s : Screen ι) (line : ℤ) (identity : ι) :
    (s.label line identity).labelled.history.length = s.labelled.history.length := by
  unfold label Lines.history
  dsimp only
  rw [length_take, length_take, length_modify]

theorem mem_at?_label (h : s.Fits) {line : ℤ} (hline : 0 ≤ line) (hline' : line < s.grid.lines)
    (identity identity' : ι) (line' : ℤ) : identity' ∈ (s.label line identity).at? line' ↔
      line' = line ∧ identity' = identity ∨ identity' ∈ s.at? line' := by
  have hlen := Lines.length_rows h.full
  have hscreen := h.screen
  have hplace : s.labelled.place line = ((s.labelled.history.length : ℤ) + line).toNat := by
    unfold Lines.place
    omega
  unfold at?
  by_cases habove : 0 ≤ (s.labelled.history.length : ℤ) + line'
  · rw [Lines.line?_of_le (by rw [history_label]; exact habove), Lines.line?_of_le habove,
      history_label]
    unfold label
    dsimp only
    rw [getElem?_modify, hplace]
    by_cases hsame : line' = line
    · subst hsame
      obtain ⟨entry, hentry⟩ : ∃ entry,
          s.labelled.rows[((s.labelled.history.length : ℤ) + line').toNat]? = some entry :=
        ⟨_, getElem?_eq_getElem (by omega)⟩
      rw [hentry, Option.map_eq_map, map_some, if_pos rfl]
      dsimp only [map_some, getD_some]
      rw [mem_cons]
      simp only [true_and]
    · rw [show (fun entry : Row × List ι =>
          if ((s.labelled.history.length : ℤ) + line).toNat =
              ((s.labelled.history.length : ℤ) + line').toNat
            then (entry.1, identity :: entry.2) else entry) = id from
          funext fun entry => if_neg (by omega), Option.map_eq_map, Option.map_id, id]
      simp only [hsame, false_and, false_or]
  · rw [Lines.line?_eq_none (by rw [history_label]; omega), Lines.line?_eq_none (by omega)]
    constructor
    · exact Or.inr
    · rintro (⟨rfl, _⟩ | hmem)
      · omega
      · exact hmem

end Screen

/-- The two screens of a terminal, the one shown first, and the scene. -/
structure World (ι : Type) where
  active : Screen ι
  inactive : Screen ι
  scene : Scene ι

/-- What happens to a world. -/
inductive Action (ι : Type) where
  | scroll (op : ScrollOp)
  | clear
  | swap
  | place (identity : ι) (column : ℕ) (line : ℤ)

namespace World

/-- One action on the terminal and what the scene is told of it. Clearing and the alternate
screen's coming and going leave no labelled row on it. -/
inductive Step [DecidableEq ι] : World ι → Action ι → World ι → Prop
  | scroll {w : World ι} {op : ScrollOp} {s' : Screen ι} (hop : w.active.Proper op)
      (h : w.active.Scrolls op s') :
      Step w (.scroll op) { w with
        active := s'
        scene := (w.scene.scrollAnchors (op.record s'.grid.historySize)).1 }
  | clear {w : World ι} {s' : Screen ι} (hfits : s'.Fits) (hempty : s'.Unlabelled) :
      Step w .clear { w with active := s', scene := w.scene.clearTerminal.1 }
  | enter {w : World ι} {s' : Screen ι} (h : w.scene.alternateScreen = false) (hfits : s'.Fits)
      (hempty : s'.Unlabelled) :
      Step w .swap ⟨s', w.active, (w.scene.setAlternateScreen true).1⟩
  | leave {w : World ι} {s' : Screen ι} (h : w.scene.alternateScreen = true) (hfits : s'.Fits)
      (hempty : s'.Unlabelled) :
      Step w .swap ⟨w.inactive, s', (w.scene.setAlternateScreen false).1⟩
  | place {w : World ι} {identity : ι} {column : ℕ} {line : ℤ} {scene : Scene ι}
      (hline : 0 ≤ line) (hline' : line < w.active.grid.lines)
      (h : w.scene.addAnchor identity ⟨column, line, w.scene.alternateScreen⟩ = some scene) :
      Step w (.place identity column line)
        { w with active := w.active.label line identity, scene := scene }

/-- Lines on which an anchor is moved or removed by a scroll. -/
def Disturbs (scroll : PendingGridScroll) (line : ℤ) : Prop :=
  Shifts scroll line ∨ line < minimumLine scroll.historySize

instance (scroll : PendingGridScroll) : DecidablePred (Disturbs scroll) :=
  fun _ => inferInstanceAs (Decidable (_ ∨ _))

/-- No anchor of the other screen stands where the scroll shifts or drops lines. -/
def Apart (w : World ι) : Action ι → Prop
  | .scroll op => ∀ entry ∈ w.scene.anchors, entry.2.alternate ≠ w.scene.alternateScreen →
      ¬Disturbs (op.record (w.active.grid.applyLine op.toLine).historySize) entry.2.line
  | _ => True

/-- The anchors of the screen that is not shown. -/
def others (w : World ι) : List (ι × TextAnchor) :=
  w.scene.anchors.filter fun entry => entry.2.alternate ≠ w.scene.alternateScreen

/-- Anchors of one screen stand on the lines of the rows that carry their labels. -/
def OnRows (s : Screen ι) (anchors : List (ι × TextAnchor)) (alternate : Bool) : Prop :=
  ∀ identity line, identity ∈ s.at? line ↔ ∃ column, (identity, ⟨column, line, alternate⟩) ∈ anchors

/-- Every anchor follows its row; none is left of an alternate screen that is gone. -/
structure Follows (w : World ι) : Prop where
  active : w.active.Fits
  inactive : w.inactive.Fits
  onActive : OnRows w.active w.scene.anchors w.scene.alternateScreen
  onInactive : OnRows w.inactive w.scene.anchors !w.scene.alternateScreen
  distinct : (w.scene.anchors.map Prod.fst).Nodup
  primary : w.scene.alternateScreen = false → ∀ entry ∈ w.scene.anchors, entry.2.alternate = false

/-- A world without anchors. -/
structure Fresh (w : World ι) : Prop where
  active : w.active.Fits
  inactive : w.inactive.Fits
  unlabelled : w.active.Unlabelled ∧ w.inactive.Unlabelled
  scene : w.scene = {}

theorem Fresh.follows {w : World ι} (h : Fresh w) : w.Follows := by
  obtain ⟨hactive, hinactive, ⟨hempty, hempty'⟩, hscene⟩ := h
  have hnone : w.scene.anchors = [] := by rw [hscene]
  refine ⟨hactive, hinactive, ?_, ?_, by rw [hnone]; exact nodup_nil, ?_⟩
  · intro identity line
    rw [hempty line, hnone]
    simp
  · intro _ line
    rw [hempty' line, hnone]
    simp
  · intro _ _ hentry
    rw [hnone] at hentry
    cases hentry

/-- Updating anchors takes none from one screen to the other. -/
theorem mem_updateAnchors {s : Scene ι} {update : TextAnchor → Option TextAnchor} {identity : ι}
    {anchor : TextAnchor} : (identity, anchor) ∈ (s.updateAnchors update).1.anchors ↔
      ∃ old, (identity, old) ∈ s.anchors ∧ update old = some anchor := by
  unfold Scene.updateAnchors
  dsimp only
  rw [mem_filterMap]
  constructor
  · rintro ⟨⟨_, old⟩, hmem, hnew⟩
    obtain ⟨_, hupdate, heq⟩ := Option.map_eq_some_iff.mp hnew
    cases heq
    exact ⟨old, hmem, hupdate⟩
  · rintro ⟨old, hmem, hupdate⟩
    exact ⟨(identity, old), hmem, by dsimp only; rw [hupdate]; rfl⟩

theorem nodup_updateAnchors {s : Scene ι} (update : TextAnchor → Option TextAnchor)
    (h : (s.anchors.map Prod.fst).Nodup) :
    ((s.updateAnchors update).1.anchors.map Prod.fst).Nodup := by
  refine h.sublist ?_
  unfold Scene.updateAnchors
  dsimp only
  generalize s.anchors = anchors
  induction anchors with
  | nil => exact List.Sublist.refl _
  | cons entry _ ih =>
    obtain ⟨_, anchor⟩ := entry
    rw [filterMap_cons, map_cons]
    cases hupdate : update anchor with
    | none => exact ih.cons _
    | some => exact ih.cons_cons _

theorem scrollAnchors_record {s : Screen ι} {op : ScrollOp} (h : s.Proper op) (scene : Scene ι)
    (historySize : ℕ) : scene.scrollAnchors (op.record historySize) =
      scene.updateAnchors (·.scroll (op.record historySize)) := by
  obtain ⟨happ, hpos, _⟩ := h
  unfold Scene.scrollAnchors
  apply if_neg
  cases op with
  | up _ _ count | down _ _ count =>
    obtain ⟨_, _⟩ := happ
    change 0 < count at hpos
    dsimp only [ScrollOp.record]
    omega

theorem mem_scrollAnchors {s : Screen ι} {op : ScrollOp} (h : s.Proper op) {scene : Scene ι}
    {historySize : ℕ} {identity : ι} {anchor : TextAnchor} :
    (identity, anchor) ∈ (scene.scrollAnchors (op.record historySize)).1.anchors ↔
      ∃ line, (identity, { anchor with line := line }) ∈ scene.anchors ∧
        scrollLine (op.record historySize) line = some anchor.line := by
  rw [scrollAnchors_record h, mem_updateAnchors]
  constructor
  · rintro ⟨old, hmem, hscroll⟩
    obtain ⟨line, hline, rfl⟩ := Option.map_eq_some_iff.mp hscroll
    exact ⟨old.line, hmem, hline⟩
  · rintro ⟨_, hmem, hline⟩
    refine ⟨_, hmem, ?_⟩
    unfold TextAnchor.scroll
    dsimp only
    rw [hline]
    rfl

/-- The anchors a scroll leaves in place are those it does not disturb. -/
theorem scrollLine_self {scroll : PendingGridScroll} (h : InRange scroll) (hlines : scroll.lines ≠ 0)
    {line : ℤ} (hline : IsI32 line) : scrollLine scroll line = some line ↔ ¬Disturbs scroll line := by
  rw [scrollLine_eq h hline, filter_eq_some_iff, decide_eq_true_eq]
  unfold Disturbs exactLine
  by_cases hshifts : Shifts scroll line
  · rw [if_pos hshifts, ite_none_right_eq_some, some_inj]
    constructor
    · rintro ⟨⟨_, _⟩, _⟩
      omega
    · intro hfixed
      exact (hfixed (Or.inl hshifts)).elim
  · rw [if_neg hshifts, not_or, not_lt]
    constructor
    · rintro ⟨_, hlow⟩
      exact ⟨hshifts, hlow⟩
    · rintro ⟨_, hlow⟩
      exact ⟨rfl, hlow⟩

theorem OnRows.isI32 {s : Screen ι} {anchors : List (ι × TextAnchor)} {alternate : Bool}
    (h : OnRows s anchors alternate) (hfits : s.Fits) {entry : ι × TextAnchor}
    (hmem : entry ∈ anchors) (halternate : entry.2.alternate = alternate) : IsI32 entry.2.line := by
  obtain ⟨identity, column, line, _⟩ := entry
  subst halternate
  exact (hfits.isI32 ((h identity line).mpr ⟨column, hmem⟩)).2.2

theorem onRows_scroll {s s' : Screen ι} {op : ScrollOp} {scene : Scene ι} {alternate : Bool}
    (h : OnRows s scene.anchors alternate) (hfits : s.Fits) (hop : s.Proper op)
    (hscrolls : s.Scrolls op s') :
    OnRows s' (scene.scrollAnchors (op.record s'.grid.historySize)).1.anchors alternate := by
  intro identity _
  rw [Screen.mem_at?_scrolls hfits hop hscrolls]
  constructor
  · rintro ⟨line, hmem, hline⟩
    obtain ⟨column, hanchor⟩ := (h identity line).mp hmem
    exact ⟨column, (mem_scrollAnchors hop).mpr ⟨line, hanchor, hline⟩⟩
  · rintro ⟨column, hmem⟩
    obtain ⟨line, hanchor, hline⟩ := (mem_scrollAnchors hop).mp hmem
    exact ⟨line, (h identity line).mpr ⟨column, hanchor⟩, hline⟩

/-- The rows of the other screen stay; so do its anchors, where the scroll is apart from them. -/
theorem onRows_apart {s t : Screen ι} {op : ScrollOp} {scene : Scene ι} {alternate : Bool}
    {historySize : ℕ} (h : OnRows t scene.anchors alternate) (ht : t.Fits) (hfits : s.Fits)
    (hop : s.Proper op) (hapart : ∀ entry ∈ scene.anchors, entry.2.alternate = alternate →
      ¬Disturbs (op.record historySize) entry.2.line) :
    OnRows t (scene.scrollAnchors (op.record historySize)).1.anchors alternate := by
  have hself : ∀ identity column line, (identity, ⟨column, line, alternate⟩) ∈ scene.anchors →
      scrollLine (op.record historySize) line = some line := by
    intro identity column line hmem
    exact (scrollLine_self (hop.inRange hfits _) (hop.lines_ne _) (h.isI32 ht hmem rfl)).mpr
      (hapart _ hmem rfl)
  intro identity line
  rw [h identity line]
  constructor
  · rintro ⟨column, hmem⟩
    exact ⟨column, (mem_scrollAnchors hop).mpr ⟨line, hmem, hself _ _ _ hmem⟩⟩
  · rintro ⟨column, hmem⟩
    obtain ⟨_, hanchor, hline⟩ := (mem_scrollAnchors hop).mp hmem
    rw [hself _ _ _ hanchor] at hline
    cases hline
    exact ⟨column, hanchor⟩

theorem scrollAnchors_alternateScreen (scene : Scene ι) (scroll : PendingGridScroll) :
    (scene.scrollAnchors scroll).1.alternateScreen = scene.alternateScreen := by
  unfold Scene.scrollAnchors Scene.updateAnchors
  split <;> rfl

theorem follows_scroll {w : World ι} {op : ScrollOp} {s' : Screen ι} (h : w.Follows)
    (hop : w.active.Proper op) (hscrolls : w.active.Scrolls op s') (hapart : w.Apart (.scroll op)) :
    ({ w with
        active := s'
        scene := (w.scene.scrollAnchors (op.record s'.grid.historySize)).1 } : World ι).Follows := by
  obtain ⟨hactive, hinactive, honActive, honInactive, hdistinct, hprimary⟩ := h
  refine ⟨Screen.fits_scrolls hactive hop.applicable hscrolls, hinactive, ?_, ?_, ?_, ?_⟩
  · rw [scrollAnchors_alternateScreen]
    exact onRows_scroll honActive hactive hop hscrolls
  · rw [scrollAnchors_alternateScreen]
    refine onRows_apart honInactive hinactive hactive hop ?_
    intro entry hentry hother
    rw [hscrolls.1]
    exact hapart entry hentry (by rw [hother]; exact Bool.not_ne_self _)
  · dsimp only
    rw [scrollAnchors_record hop]
    exact nodup_updateAnchors _ hdistinct
  · dsimp only
    rw [scrollAnchors_alternateScreen]
    intro hoff entry hentry
    obtain ⟨line, hmem, _⟩ := (mem_scrollAnchors hop).mp hentry
    exact hprimary hoff (entry.1, { entry.2 with line := line }) hmem

theorem onRows_of_none {s : Screen ι} {anchors : List (ι × TextAnchor)} {alternate : Bool}
    (hempty : s.Unlabelled) (h : ∀ entry ∈ anchors, entry.2.alternate ≠ alternate) :
    OnRows s anchors alternate := by
  intro _ line
  rw [hempty line]
  constructor
  · intro hmem
    cases hmem
  · rintro ⟨_, hmem⟩
    exact (h _ hmem rfl).elim

/-- Removing the anchors of one screen leaves those of the other. -/
theorem onRows_update {s : Screen ι} {scene : Scene ι} {alternate : Bool}
    {update : TextAnchor → Option TextAnchor} (h : OnRows s scene.anchors alternate)
    (hkeep : ∀ anchor, anchor.alternate = alternate → update anchor = some anchor)
    (hsame : ∀ anchor anchor', update anchor = some anchor' → anchor' = anchor) :
    OnRows s (scene.updateAnchors update).1.anchors alternate := by
  intro identity line
  rw [h identity line]
  constructor
  · rintro ⟨column, hmem⟩
    exact ⟨column, mem_updateAnchors.mpr ⟨_, hmem, hkeep _ rfl⟩⟩
  · rintro ⟨column, hmem⟩
    obtain ⟨_, hold, hupdate⟩ := mem_updateAnchors.mp hmem
    rw [← hsame _ _ hupdate] at hold
    exact ⟨column, hold⟩

section

variable {w : World ι} {s' : Screen ι} (h : w.Follows)
include w s' h

theorem follows_clear (hfits : s'.Fits)
    (hempty : s'.Unlabelled) :
    ({ w with active := s', scene := w.scene.clearTerminal.1 } : World ι).Follows := by
  obtain ⟨_, hinactive, _, honInactive, hdistinct, hprimary⟩ := h
  let update : TextAnchor → Option TextAnchor :=
    fun anchor => if anchor.alternate = w.scene.alternateScreen then none else some anchor
  have hscene : w.scene.clearTerminal.1 = (w.scene.updateAnchors update).1 := rfl
  have hother : ∀ entry ∈ (w.scene.updateAnchors update).1.anchors,
      entry ∈ w.scene.anchors ∧ entry.2.alternate ≠ w.scene.alternateScreen := by
    intro entry hentry
    obtain ⟨_, hold, hupdate⟩ := mem_updateAnchors.mp hentry
    obtain ⟨hother, heq⟩ := Option.ite_none_left_eq_some.mp hupdate
    rw [Option.some_inj.mp heq] at hold hother
    exact ⟨hold, hother⟩
  rw [hscene]
  refine ⟨hfits, hinactive, onRows_of_none hempty ?_, ?_, ?_, ?_⟩
  · intro entry hentry
    exact (hother entry hentry).2
  · refine @onRows_update _ _ _ _ update honInactive ?_ ?_
    · intro anchor hanchor
      exact if_neg (by rw [hanchor]; exact Bool.not_ne_self _)
    · intro _ _ hupdate
      obtain ⟨_, heq⟩ := Option.ite_none_left_eq_some.mp hupdate
      exact (Option.some_inj.mp heq).symm
  · exact nodup_updateAnchors update hdistinct
  · intro hoff entry hentry
    exact hprimary hoff entry (hother entry hentry).1

theorem follows_enter (hoff : w.scene.alternateScreen = false) (hfits : s'.Fits)
    (hempty : s'.Unlabelled) :
    (⟨s', w.active, (w.scene.setAlternateScreen true).1⟩ : World ι).Follows := by
  obtain ⟨hactive, _, honActive, _, hdistinct, hprimary⟩ := h
  have hscene : (w.scene.setAlternateScreen true).1 = { w.scene with alternateScreen := true } := by
    unfold Scene.setAlternateScreen
    rw [hoff]
    rfl
  rw [hscene]
  refine ⟨hfits, hactive, onRows_of_none hempty ?_, ?_, hdistinct, ?_⟩
  · intro _ hentry
    rw [hprimary hoff _ hentry]
    exact Bool.false_ne_true
  · rw [hoff] at honActive
    exact honActive
  · intro hon
    cases hon

theorem follows_leave (hon : w.scene.alternateScreen = true) (hfits : s'.Fits)
    (hempty : s'.Unlabelled) :
    (⟨w.inactive, s', (w.scene.setAlternateScreen false).1⟩ : World ι).Follows := by
  obtain ⟨_, hinactive, _, honInactive, hdistinct, _⟩ := h
  let shown : Scene ι := { w.scene with alternateScreen := false }
  let update : TextAnchor → Option TextAnchor :=
    fun anchor => if anchor.alternate then none else some anchor
  have hscene : (w.scene.setAlternateScreen false).1 = (shown.updateAnchors update).1 := by
    unfold Scene.setAlternateScreen
    rw [hon]
    rfl
  have hprimary' : ∀ entry ∈ (shown.updateAnchors update).1.anchors,
      entry.2.alternate = false := by
    intro entry hentry
    obtain ⟨_, _, hupdate⟩ := mem_updateAnchors.mp hentry
    obtain ⟨hother, heq⟩ := Option.ite_none_left_eq_some.mp hupdate
    rw [← Option.some_inj.mp heq]
    exact Bool.eq_false_of_not_eq_true hother
  have honPrimary : OnRows w.inactive shown.anchors false := by
    rw [hon] at honInactive
    exact honInactive
  rw [hscene]
  refine ⟨hinactive, hfits, ?_, onRows_of_none hempty ?_, ?_, fun _ => hprimary'⟩
  · refine onRows_update honPrimary ?_ ?_
    · intro anchor hother
      dsimp only [update]
      rw [hother]
      rfl
    · intro _ _ hupdate
      obtain ⟨_, heq⟩ := Option.ite_none_left_eq_some.mp hupdate
      exact (Option.some_inj.mp heq).symm
  · intro entry hentry
    rw [hprimary' entry hentry]
    exact Bool.false_ne_true
  · exact nodup_updateAnchors update (show (shown.anchors.map Prod.fst).Nodup from hdistinct)

end

theorem follows_place [DecidableEq ι] {w : World ι} {identity : ι} {column : ℕ} {line : ℤ}
    {scene : Scene ι} (h : w.Follows) (hline : 0 ≤ line) (hline' : line < w.active.grid.lines)
    (hadd : w.scene.addAnchor identity ⟨column, line, w.scene.alternateScreen⟩ = some scene) :
    ({ w with active := w.active.label line identity, scene := scene } : World ι).Follows := by
  obtain ⟨hactive, hinactive, honActive, honInactive, hdistinct, hprimary⟩ := h
  unfold Scene.addAnchor at hadd
  obtain ⟨hnew, hscene⟩ := Option.ite_none_left_eq_some.mp hadd
  cases hscene
  refine ⟨hactive.label _ _, hinactive, ?_, ?_, ?_, ?_⟩
  · intro identity' line'
    rw [Screen.mem_at?_label hactive hline hline', honActive identity' line']
    simp only [mem_append, mem_singleton, Prod.mk.injEq, TextAnchor.mk.injEq]
    constructor
    · rintro (⟨rfl, rfl⟩ | ⟨column', hmem⟩)
      · exact ⟨column, Or.inr ⟨rfl, rfl, rfl, trivial⟩⟩
      · exact ⟨column', Or.inl hmem⟩
    · rintro ⟨column', hmem | ⟨rfl, rfl, rfl, _⟩⟩
      · exact Or.inr ⟨column', hmem⟩
      · exact Or.inl ⟨rfl, rfl⟩
  · intro identity' line'
    rw [honInactive identity' line']
    simp only [mem_append, mem_singleton, Prod.mk.injEq, TextAnchor.mk.injEq]
    constructor
    · rintro ⟨column', hmem⟩
      exact ⟨column', Or.inl hmem⟩
    · rintro ⟨column', hmem | ⟨_, _, _, hsame⟩⟩
      · exact ⟨column', hmem⟩
      · exact (Bool.not_ne_self _ hsame).elim
  · dsimp only
    rw [map_append, map_singleton, nodup_append]
    refine ⟨hdistinct, nodup_singleton _, ?_⟩
    intro _ hbefore _ hlast
    rw [mem_singleton] at hlast
    rintro rfl
    rw [hlast] at hbefore
    exact hnew (Or.inl hbefore)
  · intro hoff entry hentry
    rcases List.mem_append.mp hentry with hmem | hmem
    · exact hprimary hoff entry hmem
    · rw [List.mem_singleton.mp hmem]
      exact hoff

theorem follows_step [DecidableEq ι] {w w' : World ι} {action : Action ι} (h : w.Follows)
    (hstep : Step w action w') (hapart : w.Apart action) : w'.Follows := by
  cases hstep with
  | scroll hop hscrolls => exact follows_scroll h hop hscrolls hapart
  | clear hfits hempty => exact follows_clear h hfits hempty
  | enter hoff hfits hempty => exact follows_enter h hoff hfits hempty
  | leave hon hfits hempty => exact follows_leave h hon hfits hempty
  | place hline hline' hadd => exact follows_place h hline hline' hadd

/-- A `filterMap` that changes nothing keeps every element. -/
theorem filterMap_eq_self {α : Type*} {f : α → Option α} {l : List α} :
    l.filterMap f = l ↔ ∀ a ∈ l, f a = some a := by
  constructor
  · induction l with
    | nil =>
      intro _ a ha
      cases ha
    | cons b l ih =>
      intro h a ha
      cases hb : f b with
      | none =>
        rw [filterMap_cons_none hb] at h
        have hlen := length_filterMap_le f l
        rw [h, length_cons] at hlen
        omega
      | some =>
        rw [filterMap_cons_some hb, List.cons.injEq] at h
        rcases List.mem_cons.mp ha with rfl | ha
        · rw [hb, h.1]
        · exact ih h.2 a ha
  · intro h
    rw [filterMap_congr h]
    exact filterMap_some

theorem others_scroll {s : Screen ι} {op : ScrollOp} (hop : s.Proper op) (scene : Scene ι)
    (historySize : ℕ) (alternate : Bool) :
    (scene.scrollAnchors (op.record historySize)).1.anchors.filter
        (fun entry => entry.2.alternate ≠ alternate) =
      (scene.anchors.filter fun entry => entry.2.alternate ≠ alternate).filterMap
        fun entry => (entry.2.scroll (op.record historySize)).map (entry.1, ·) := by
  rw [scrollAnchors_record hop]
  unfold Scene.updateAnchors TextAnchor.scroll
  dsimp only
  rw [filter_filterMap, filterMap_filter]
  refine filterMap_congr ?_
  intro entry _
  cases scrollLine (op.record historySize) entry.2.line with
  | none => split <;> rfl
  | some => rfl

/-- A scroll leaves the anchors of the other screen as they are exactly when it is apart
from them. -/
theorem others_eq_iff [DecidableEq ι] {w w' : World ι} {op : ScrollOp} (h : w.Follows)
    (hstep : Step w (.scroll op) w') : w'.others = w.others ↔ w.Apart (.scroll op) := by
  cases hstep with
  | scroll hop hscrolls =>
    rename_i s'
    unfold others Apart
    dsimp only
    rw [scrollAnchors_alternateScreen, others_scroll hop, filterMap_eq_self, ← hscrolls.1]
    have hself : ∀ entry ∈ w.scene.anchors, entry.2.alternate ≠ w.scene.alternateScreen →
        ((entry.2.scroll (op.record s'.grid.historySize)).map (entry.1, ·) = some entry ↔
          ¬Disturbs (op.record s'.grid.historySize) entry.2.line) := by
      intro entry hentry hother
      have hline := h.onInactive.isI32 h.inactive hentry (Bool.eq_not_of_ne hother)
      rw [← scrollLine_self (hop.inRange h.active _) (hop.lines_ne _) hline]
      obtain ⟨_, _, line, _⟩ := entry
      unfold TextAnchor.scroll
      cases scrollLine (op.record s'.grid.historySize) line with
      | none | some => simp
    constructor
    · intro hsame entry hentry hother
      exact (hself entry hentry hother).mp
        (hsame entry (List.mem_filter.mpr ⟨hentry, decide_eq_true hother⟩))
    · intro hapart entry hentry
      obtain ⟨hentry, hother⟩ := List.mem_filter.mp hentry
      have hother := of_decide_eq_true hother
      exact (hself entry hentry hother).mpr (hapart entry hentry hother)

/-- A run in which every scroll is apart from the anchors of the other screen. -/
inductive Run [DecidableEq ι] (w₀ : World ι) : World ι → Prop
  | start : Run w₀ w₀
  | step {w w' : World ι} {action : Action ι} (h : Run w₀ w) (hapart : w.Apart action)
      (hstep : Step w action w') : Run w₀ w'

theorem follows_run [DecidableEq ι] {w₀ w : World ι} (h : w₀.Fresh) (hrun : Run w₀ w) :
    w.Follows := by
  induction hrun with
  | start => exact h.follows
  | step _ hapart hstep ih => exact follows_step ih hstep hapart

/-- In every run whose scrolls are apart from the other screen's anchors, every anchor stands
where its row does and goes when it goes; and the first scroll that is not apart is the first
that moves or removes an anchor of the other screen. -/
theorem anchors_follow [DecidableEq ι] {w₀ w : World ι} (h : w₀.Fresh) (hrun : Run w₀ w) :
    w.Follows ∧ ∀ op w', Step w (.scroll op) w' → (w'.others = w.others ↔ w.Apart (.scroll op)) :=
  ⟨follows_run h hrun, fun _ _ hstep => others_eq_iff (follows_run h hrun) hstep⟩

/-- A terminal of four lines, without anchors. -/
def small : World ℕ := ⟨.plain (Grid.new 4 2 10), .plain (Grid.new 4 2 0), {}⟩

theorem fresh_small : small.Fresh :=
  ⟨Screen.fits_plain (Grid.good_new (by decide) ..) (by decide) (by decide),
    Screen.fits_plain (Grid.good_new (by decide) ..) (by decide) (by decide),
    ⟨Screen.unlabelled_plain _, Screen.unlabelled_plain _⟩, rfl⟩

/-- An anchor on the last line of it. -/
def anchored : World ℕ :=
  { small with active := small.active.label 3 0, scene := ⟨[(0, ⟨0, 3, false⟩)], [], false⟩ }

theorem run_anchored : Run small anchored :=
  .step .start (show small.Apart (.place 0 0 3) from trivial) (.place (by decide) (by decide) rfl)

theorem anchors_follow_anchored :
    ∃ w, Run small w ∧ w.Follows ∧ w.scene.anchors = [(0, ⟨0, 2, false⟩)] := by
  have hscroll : Step anchored (.scroll (.up 0 4 1)) _ :=
    .scroll ⟨⟨by decide, by decide, by decide⟩, by decide, by decide⟩
      (Screen.scrolls_scroll anchored.active _)
  have hapart : anchored.Apart (.scroll (.up 0 4 1)) := by
    unfold Apart
    decide
  have hrun := Run.step run_anchored hapart hscroll
  exact ⟨_, hrun, (anchors_follow fresh_small hrun).1, by decide⟩

/-- A line scrolled on the alternate screen moves the anchor of the primary one. -/
theorem scroll_moves_others :
    ∃ w w', Run small w ∧ Step w (.scroll (.up 0 4 1)) w' ∧ w.scene.alternateScreen = true ∧
      w.scene.anchors = [(0, ⟨0, 3, false⟩)] ∧ w'.scene.anchors = [(0, ⟨0, 2, false⟩)] := by
  have hactive : (Screen.plain (Grid.new 4 2 0) : Screen ℕ).Fits :=
    Screen.fits_plain (Grid.good_new (by decide) ..) (by decide) (by decide)
  have henter := Run.step run_anchored (show anchored.Apart .swap from trivial)
    (.enter rfl hactive (Screen.unlabelled_plain _))
  exact ⟨_, _, henter, .scroll ⟨⟨by decide, by decide, by decide⟩, by decide, by decide⟩
    (Screen.scrolls_scroll _ _), rfl, rfl, by decide⟩

end World

end Vivido.Vivid
