import Vivido.Grid.Lines
import Vivido.Grid.Tape

/-!
The grid over its ring buffer refines the list of lines. A good grid stores
tidy rows of one width and no more history than its limit; every operation
keeps that, and its effect on the tape is a step of the list model. Scrolling
up is used as its callers use it: a region at the top of the screen scrolls by
no more than its own size and the history limit.
-/

namespace Vivido.Terminal

open SwapLoop List

namespace Grid

/-- The buffer is well formed, within the history limit, and holds tidy rows. -/
structure Good (g : Grid) : Prop where
  wf : g.raw.WF
  visible : g.raw.visibleLines = g.lines
  history : g.raw.len ≤ g.lines + g.maxScrollLimit
  tidy : ∀ row ∈ g.raw.tape, row.Tidy g.columns

/-- The lines a grid stands for. -/
def toLines (g : Grid) : Lines Row Cell where
  cached := g.raw.cached
  rows := g.raw.rows
  screen := g.lines
  limit := g.maxScrollLimit
  erase := g.cursor.erase

/-- The line that enters for an erase cell. -/
def blankLine (columns : ℕ) (erase : Cell) : Row := Row.blankRow columns erase.style

/-- The operations of the list model, on the grid. -/
def applyLine (g : Grid) : LineOp Row Cell → Grid
  | .initializeRows count => { g with raw := g.raw.initializeRows count (Row.new g.columns) }
  | .shrinkLines count => { g with raw := g.raw.shrinkLines count }
  | .growVisibleLines next =>
      { g with raw := g.raw.growVisibleLines next (fun row => Row.new row.len), lines := next }
  | .shrinkVisibleLines next => { g with raw := g.raw.shrinkVisibleLines next, lines := next }
  | .rotate count => { g with raw := g.raw.rotate count }
  | .rotateDown count => { g with raw := g.raw.rotateDown count }
  | .swap a b => { g with raw := g.raw.swap a b }
  | .scrollUp start stop count => g.scrollUp { start := start, stop := stop } count
  | .scrollDown start stop count => g.scrollDown { start := start, stop := stop } count
  | .clearHistory => g.clearHistory
  | .updateHistory limit => g.updateHistory limit
  | .write line update => g.modifyRow line update
  | .setErase erase => { g with cursor := { g.cursor with erase := erase } }

/-- Where the callers of an operation use it. -/
def Applicable (g : Grid) : LineOp Row Cell → Prop
  | .initializeRows count => g.raw.len + count ≤ g.lines + g.maxScrollLimit
  | .shrinkLines count => count ≤ g.historySize
  | .growVisibleLines next => g.lines ≤ next
  | .shrinkVisibleLines next => 0 < next ∧ next ≤ g.lines
  | .rotate count => count.natAbs ≤ g.raw.inner.length
  | .rotateDown _ => True
  | .swap a b => g.raw.InRange a ∧ g.raw.InRange b
  | .scrollUp start stop count =>
      start < stop ∧ stop ≤ g.lines ∧ (start = 0 → count ≤ stop + g.maxScrollLimit)
  | .scrollDown start stop _ => start < stop ∧ stop ≤ g.lines
  | .clearHistory => True
  | .updateHistory _ => True
  | .write line update =>
      g.raw.InRange line ∧ ∀ row, row.Tidy g.columns → (update row).Tidy g.columns
  | .setErase _ => True

variable {g : Grid}

theorem Good.lines_pos (h : g.Good) : 0 < g.lines := h.visible ▸ h.wf.visible_pos

theorem Good.lines_le (h : g.Good) : g.lines ≤ g.raw.len := h.visible ▸ h.wf.visible_le

theorem Good.len_eq (h : g.Good) : g.raw.len = g.lines + g.historySize := by
  have := h.lines_le
  unfold historySize totalLines
  omega

theorem length_rows (h : g.Good) : g.raw.rows.length = g.lines + g.historySize := by
  rw [Storage.length_rows h.wf, h.len_eq]

theorem length_history (h : g.Good) : g.toLines.history.length = g.historySize := by
  have := length_rows h
  unfold Lines.history toLines
  dsimp only
  rw [length_take]
  omega

theorem length_visible (h : g.Good) : g.toLines.visible.length = g.lines := by
  have := length_rows h
  unfold Lines.visible toLines
  dsimp only
  rw [length_drop]
  omega

theorem history_append_visible (g : Grid) : g.toLines.history ++ g.toLines.visible = g.raw.rows :=
  take_append_drop ..

theorem tape_eq (g : Grid) :
    g.raw.tape = g.raw.cached ++ g.toLines.history ++ g.toLines.visible := by
  rw [append_assoc, history_append_visible, Storage.cached_append_rows]

theorem tidy_new {columns : ℕ} : (Row.new columns).Tidy columns := Row.tidy_blankRow _ _

/-- A fresh grid is good. -/
theorem good_new {lines : ℕ} (h : 0 < lines) (columns limit : ℕ) : (new lines columns limit).Good := by
  refine ⟨Storage.wf_withCapacity h _, rfl, Nat.le_add_right .., ?_⟩
  intro row hrow
  have hmem : row ∈ List.replicate lines (Row.new columns) := by
    simpa [Storage.tape, Storage.ring, new, Storage.withCapacity] using hrow
  rw [eq_of_mem_replicate hmem]
  exact tidy_new

/-- A grid whose buffer changed is good when the buffer's tape holds tidy rows. -/
theorem Good.of_raw {g' : Grid} (h : g.Good) (hcolumns : g'.columns = g.columns)
    (hwf : g'.raw.WF) (hvisible : g'.raw.visibleLines = g'.lines)
    (hlen : g'.raw.len ≤ g'.lines + g'.maxScrollLimit) {added : ℕ} {style : StyleId}
    (htape : ∀ row ∈ g'.raw.tape, row ∈ List.replicate added (Row.blankRow g.columns style) ∨
      row ∈ g.raw.tape) : g'.Good := by
  refine ⟨hwf, hvisible, hlen, ?_⟩
  intro row hrow
  rw [hcolumns]
  rcases htape row hrow with h' | h'
  · rw [eq_of_mem_replicate h']
    exact Row.tidy_blankRow _ _
  · exact h.tidy row h'

theorem map_reset {columns : ℕ} {rows : List Row} (h : ∀ row ∈ rows, row.Tidy columns)
    (erase : Cell) :
    rows.map (·.reset erase) = List.replicate rows.length (blankLine columns erase) := by
  rw [map_congr_left fun row hrow => Row.reset_eq (h row hrow) erase]
  exact map_const' ..

theorem tape_resetLines (hwf : g.raw.WF) {pre mid post : List Row} {first stop : ℤ}
    (htape : g.raw.tape = pre ++ mid ++ post) (hstop : stop + post.length = g.raw.visibleLines)
    (hfirst : first + mid.length = stop) (hlen : mid.length + post.length ≤ g.raw.len)
    (hmid : ∀ row ∈ mid, row.Tidy g.columns) : (g.resetLines (lineRange first stop)).raw.tape =
      pre ++ List.replicate mid.length (blankLine g.columns g.cursor.erase) ++ post := by
  rw [← map_reset hmid]
  exact Storage.tape_modifyLines hwf htape hstop hfirst hlen _

/-- One operation of the list model, with its parameters for a grid. -/
def LineStep (g : Grid) (op : LineOp Row Cell) (g' : Grid) : Prop :=
  Lines.Step (Row.new g.columns) (blankLine g.columns) g.toLines op g'.toLines

theorem toLines_eq {g' : Grid} {cached rows : List Row} {screen limit : ℕ} {erase : Cell}
    (hcached : g'.raw.cached = cached) (hrows : g'.raw.rows = rows) (hscreen : g'.lines = screen)
    (hlimit : g'.maxScrollLimit = limit) (herase : g'.cursor.erase = erase) :
    g'.toLines = ⟨cached, rows, screen, limit, erase⟩ := by
  rw [toLines, hcached, hrows, hscreen, hlimit, herase]

section

variable (h : g.Good)
include h

theorem refines_initializeRows {count : ℕ}
    (hop : g.Applicable (.initializeRows count)) : (g.applyLine (.initializeRows count)).Good ∧
      LineStep g (.initializeRows count) (g.applyLine (.initializeRows count)) := by
  obtain ⟨added, _, _, hfree, hcount, hcached, hrows⟩ :=
    Storage.rows_initializeRows h.wf count (Row.new g.columns)
  have hwf := Storage.wf_initializeRows h.wf count (Row.new g.columns)
  constructor
  · refine @Grid.Good.of_raw _ _ h rfl hwf
      ((Storage.visibleLines_initializeRows ..).trans h.visible)
        ((Nat.le_of_eq (Storage.len_initializeRows ..)).trans hop) added {} ?_
    intro row hrow
    change row ∈ (g.raw.initializeRows count (Row.new g.columns)).tape at hrow
    rw [← Storage.cached_append_rows, hcached, hrows, ← append_assoc, ← hfree,
      append_assoc, Storage.cached_append_rows] at hrow
    exact List.mem_append.mp hrow
  · have hstep := @Lines.Step.initializeRows _ _ (Row.new g.columns) (blankLine g.columns) g.toLines
      _ _ _ _ hfree hcount
    rw [LineStep, @toLines_eq (g.applyLine (.initializeRows count)) _ _ _ _ _ hcached hrows rfl rfl
      rfl]
    exact hstep

/-- The row a grown screen copies its width from. -/
theorem row_len {line : ℤ} (hline : g.raw.InRange line) : (g.raw.get line).Tidy g.columns := by
  apply h.tidy
  rw [← Storage.cached_append_rows]
  exact mem_append_right _ (mem_of_getElem? (Storage.get_rows h.wf hline))

theorem refines_growVisibleLines {next : ℕ}
    (hop : g.Applicable (.growVisibleLines next)) : (g.applyLine (.growVisibleLines next)).Good ∧
      LineStep g (.growVisibleLines next) (g.applyLine (.growVisibleLines next)) := by
  have hnext : g.lines ≤ next := hop
  have hvis := h.visible
  have hpos := h.lines_pos
  have hlines := h.lines_le
  have hhist := h.history
  have hwidth : (g.raw.get 0).len = g.columns :=
    (@row_len _ h 0 ⟨by omega, by omega⟩).len
  obtain ⟨added, cached, exposed, hfree, hcount, hcached, hrows⟩ :=
    Storage.rows_initializeRows h.wf (next - g.raw.visibleLines) (Row.new g.columns)
  have hwf := Storage.wf_initializeRows h.wf (next - g.raw.visibleLines) (Row.new g.columns)
  have hlen := Storage.len_initializeRows g.raw (next - g.raw.visibleLines) (Row.new g.columns)
  have hgrow : (g.applyLine (.growVisibleLines next)).raw =
      { g.raw.initializeRows (next - g.raw.visibleLines) (Row.new g.columns) with
        visibleLines := next } := by
    rw [← hwidth]
    rfl
  have hcached' : (g.applyLine (.growVisibleLines next)).raw.cached = cached := by
    rw [hgrow]
    exact hcached
  have hrows' : (g.applyLine (.growVisibleLines next)).raw.rows = exposed ++ g.raw.rows := by
    rw [hgrow]
    exact hrows
  constructor
  · refine @Grid.Good.of_raw _ _ h rfl ?_ rfl ?_ added {} ?_
    · rw [hgrow]
      exact ⟨hwf.zero_lt, hwf.len_le, by dsimp only; omega, by dsimp only; omega⟩
    · rw [hgrow]
      change _ ≤ next + g.maxScrollLimit
      dsimp only
      omega
    · intro _ hrow
      rw [← Storage.cached_append_rows, hcached', hrows', ← append_assoc, ← hfree,
        append_assoc, Storage.cached_append_rows] at hrow
      exact List.mem_append.mp hrow
  · have hstep := @Lines.Step.growVisibleLines _ _ (Row.new g.columns) (blankLine g.columns)
      g.toLines next _ _ _ hfree (by rw [hcount, hvis]; rfl)
    rw [LineStep, toLines_eq hcached' hrows' rfl rfl rfl]
    exact hstep

theorem refines_shrinkLines {count : ℕ} (hop : g.Applicable (.shrinkLines count)) :
    (g.applyLine (.shrinkLines count)).Good ∧
      LineStep g (.shrinkLines count) (g.applyLine (.shrinkLines count)) := by
  have hcount : count ≤ g.historySize := hop
  have hlen := h.len_eq
  have hhist := h.history
  have hvis := h.visible
  have hle : g.raw.visibleLines ≤ g.raw.len - count := by omega
  constructor
  · refine @Grid.Good.of_raw _ _ h rfl (Storage.wf_shrinkLines h.wf hle)
      ((Storage.visibleLines_shrinkLines ..).trans hvis) ?_ 0 {} ?_
    · change (g.raw.shrinkLines count).len ≤ g.lines + g.maxScrollLimit
      rw [Storage.len_shrinkLines]
      omega
    · intro _ hrow
      exact Or.inr (Storage.mem_tape_of_drop (Storage.rows_shrinkLines h.wf hle (by omega))
        (Storage.cached_shrinkLines h.wf hle) hrow)
  · have hstep := @Lines.Step.shrinkLines _ _ (Row.new g.columns) (blankLine g.columns) g.toLines _
      _ (Storage.cached_shrinkLines h.wf hle)
    rw [LineStep, @toLines_eq (g.applyLine (.shrinkLines count)) _ _ _ _ _ rfl
      (Storage.rows_shrinkLines h.wf hle (by omega)) rfl rfl rfl]
    exact hstep

theorem refines_shrinkVisibleLines {next : ℕ}
    (hop : g.Applicable (.shrinkVisibleLines next)) :
    (g.applyLine (.shrinkVisibleLines next)).Good ∧
      LineStep g (.shrinkVisibleLines next) (g.applyLine (.shrinkVisibleLines next)) := by
  obtain ⟨hpos, _⟩ : 0 < next ∧ next ≤ g.lines := hop
  have hlines := h.lines_le
  have hhist := h.history
  have hvis := h.visible
  have hlower : ({ g.raw with visibleLines := next } : Storage Row).WF :=
    ⟨h.wf.zero_lt, h.wf.len_le, by dsimp only; omega, hpos⟩
  have hle : next ≤ g.raw.len - (g.raw.visibleLines - next) := by omega
  have hraw : (g.applyLine (.shrinkVisibleLines next)).raw =
      ({ g.raw with visibleLines := next } : Storage Row).shrinkLines (g.raw.visibleLines - next) :=
    Storage.shrinkVisibleLines_eq ..
  have hrows := Storage.rows_shrinkLines hlower hle (by dsimp only; omega)
  have hcached := Storage.cached_shrinkLines hlower hle
  rw [← hraw] at hrows hcached
  have hfewer : g.lines - next ≤ g.raw.rows.length := by
    rw [Storage.length_rows h.wf]
    omega
  constructor
  · refine @Grid.Good.of_raw _ _ h rfl ?_ ?_ ?_ 0 {} ?_
    · rw [hraw]
      exact Storage.wf_shrinkLines hlower hle
    · rw [hraw]
      exact Storage.visibleLines_shrinkLines ..
    · rw [hraw, Storage.len_shrinkLines]
      change _ ≤ next + g.maxScrollLimit
      dsimp only
      omega
    · intro _ hrow
      exact Or.inr (Storage.mem_tape_of_drop hrows hcached hrow)
  · have hstep := @Lines.Step.shrinkVisibleLines _ _ (Row.new g.columns) (blankLine g.columns)
      g.toLines next ((g.applyLine (.shrinkVisibleLines next)).raw.cached)
        (by rw [show g.toLines.screen = g.raw.visibleLines from hvis.symm]; exact hcached)
    rw [LineStep, @toLines_eq (g.applyLine (.shrinkVisibleLines next)) _ _ _ _ _ rfl hrows rfl rfl
      rfl,
      hvis]
    exact hstep

/-- Moving rows along the tape keeps a grid good. -/
theorem Good.of_perm {g' : Grid} (hcolumns : g'.columns = g.columns)
    (hlines : g'.lines = g.lines) (hlimit : g'.maxScrollLimit = g.maxScrollLimit) (hwf : g'.raw.WF)
    (hvisible : g'.raw.visibleLines = g.raw.visibleLines) (hlen : g'.raw.len = g.raw.len)
    (htape : g'.raw.tape.Perm g.raw.tape) : g'.Good := by
  have hhist := h.history
  refine @Grid.Good.of_raw _ _ h hcolumns hwf ?_ ?_ 0 {} ?_
  · rw [hvisible, h.visible, hlines]
  · rw [hlen, hlines, hlimit]
    exact hhist
  · intro _ hrow
    exact Or.inr (htape.subset hrow)

theorem refines_rotateDown (count : ℕ) : (g.applyLine (.rotateDown count)).Good ∧
      LineStep g (.rotateDown count) (g.applyLine (.rotateDown count)) := by
  have hpos : 0 < g.raw.inner.length := Nat.zero_lt_of_lt h.wf.zero_lt
  obtain ⟨_, _, htape, hbottom, hrotated⟩ :=
    Storage.tape_rotateDown (Nat.le_of_lt (Nat.mod_lt count hpos))
  rw [Storage.rotateDown_mod] at hrotated
  have hwf := Storage.wf_rotateDown h.wf count
  constructor
  · refine h.of_perm rfl rfl rfl hwf rfl rfl ?_
    change (g.raw.rotateDown count).tape.Perm g.raw.tape
    rw [hrotated, htape]
    exact perm_append_comm
  · have hstored : g.toLines.cached ++ g.toLines.rows = g.raw.tape :=
      Storage.cached_append_rows ..
    refine Lines.Step.rotateDown (m := g.toLines) (hstored.trans htape) ?_ ?_ ?_
    · rw [hstored, Storage.length_tape, hbottom]
    · rw [← hrotated]
      exact (Storage.cached_append_rows _).symm
    · exact (Storage.length_rows hwf).trans (Storage.length_rows h.wf).symm

theorem refines_rotate {count : ℤ} (hop : g.Applicable (.rotate count)) :
    (g.applyLine (.rotate count)).Good ∧
      LineStep g (.rotate count) (g.applyLine (.rotate count)) := by
  have hcount : count.natAbs ≤ g.raw.inner.length := hop
  have hwf := Storage.wf_rotate h.wf count
  have hmoved : ∃ top bottom, g.raw.tape = top ++ bottom ∧
      ((bottom.length : ℤ) = count ∨ (top.length : ℤ) = -count) ∧
      (g.raw.rotate count).tape = bottom ++ top := by
    rcases Int.le_total 0 count with hsign | hsign
    · obtain ⟨n, rfl⟩ := Int.eq_ofNat_of_zero_le hsign
      obtain ⟨top, bottom, htape, _, hrotated⟩ :=
        @Storage.tape_rotateDown _ g.raw n (by omega)
      exact ⟨top, bottom, htape, Or.inl (by omega), by rw [Storage.rotate_natCast, hrotated]⟩
    · obtain ⟨n, hn⟩ : ∃ n : ℕ, count = -(n : ℤ) := ⟨count.natAbs, by omega⟩
      have hsplit := take_append_drop n g.raw.tape
      have htop : (g.raw.tape.take n).length = n := by
        rw [length_take, Storage.length_tape]
        omega
      refine ⟨_, _, hsplit.symm, Or.inr (by omega), ?_⟩
      rw [hn]
      exact Storage.tape_rotate_neg hsplit.symm htop
  obtain ⟨_, _, htape, hlength, hrotated⟩ := hmoved
  constructor
  · refine h.of_perm rfl rfl rfl hwf rfl rfl ?_
    change (g.raw.rotate count).tape.Perm g.raw.tape
    rw [hrotated, htape]
    exact perm_append_comm
  · have hstored : g.toLines.cached ++ g.toLines.rows = g.raw.tape :=
      Storage.cached_append_rows ..
    refine Lines.Step.rotate (m := g.toLines) (hstored.trans htape) hlength ?_ ?_
    · rw [← hrotated]
      exact (Storage.cached_append_rows _).symm
    · exact (Storage.length_rows hwf).trans (Storage.length_rows h.wf).symm

end

theorem length_cached (g : Grid) (h : g.Good) :
    g.raw.cached.length = g.raw.inner.length - g.raw.len := by
  have hstored := congrArg List.length g.raw.cached_append_rows
  rw [length_append, Storage.length_rows h.wf, Storage.length_tape] at hstored
  omega

theorem place_eq (h : g.Good) {line : ℤ} (hline : g.raw.InRange line) :
    g.raw.place line = g.raw.cached.length + g.toLines.place line := by
  have hcached := length_cached g h
  have hrows : g.toLines.rows.length = g.raw.len := Storage.length_rows h.wf
  have hscreen : g.toLines.screen = g.raw.visibleLines := h.visible.symm
  have hlen := h.wf.len_le
  unfold Storage.InRange at hline
  unfold Storage.place Lines.place
  rw [hrows, hscreen]
  omega

theorem refines_swap (h : g.Good) {a b : ℤ} (hop : g.Applicable (.swap a b)) :
    (g.applyLine (.swap a b)).Good ∧ LineStep g (.swap a b) (g.applyLine (.swap a b)) := by
  obtain ⟨ha, hb⟩ : g.raw.InRange a ∧ g.raw.InRange b := hop
  have hwf := Storage.wf_swap h.wf a b
  have htape := Storage.tape_swap h.wf ha hb
  have hsplit : (g.raw.swap a b).tape =
      g.raw.cached ++ swapAt g.raw.rows (g.toLines.place a) (g.toLines.place b) := by
    rw [htape, place_eq h ha, place_eq h hb, ← Storage.cached_append_rows, swapAt_append_right]
  obtain ⟨hcached, hrows⟩ := Storage.rows_eq hwf hsplit
    ((length_swapAt ..).trans (Storage.length_rows h.wf))
  constructor
  · refine h.of_perm rfl rfl rfl hwf rfl rfl ?_
    change (g.raw.swap a b).tape.Perm g.raw.tape
    rw [htape]
    exact swapAt_perm ..
  · rw [LineStep, @toLines_eq (g.applyLine (.swap a b)) _ _ _ _ _ hcached hrows rfl rfl rfl]
    exact Lines.Step.swap (m := g.toLines)

/-- The rows around a readable line. -/
theorem exists_split (h : g.Good) {line : ℤ} (hline : g.raw.InRange line) :
    ∃ above row below, g.raw.rows = above ++ row :: below ∧
      above.length = g.toLines.place line ∧ line + 1 + below.length = g.raw.visibleLines ∧
      below.length < g.raw.len := by
  have hrows := Storage.length_rows h.wf
  have hscreen : g.toLines.screen = g.raw.visibleLines := h.visible.symm
  have hplace : g.toLines.place line = (g.raw.len - g.raw.visibleLines + line).toNat := by
    unfold Lines.place
    rw [hscreen, show g.toLines.rows.length = g.raw.len from hrows]
  unfold Storage.InRange at hline
  have hlt : g.toLines.place line < g.raw.rows.length := by omega
  refine ⟨g.raw.rows.take (g.toLines.place line), g.raw.rows[g.toLines.place line],
    g.raw.rows.drop (g.toLines.place line + 1), ?_, ?_, ?_, ?_⟩
  · rw [← drop_eq_getElem_cons hlt, take_append_drop]
  · rw [length_take]
    omega
  · rw [length_drop]
    omega
  · rw [length_drop]
    omega

theorem refines_write (h : g.Good) {line : ℤ} {update : Row → Row}
    (hop : g.Applicable (.write line update)) : (g.applyLine (.write line update)).Good ∧
      LineStep g (.write line update) (g.applyLine (.write line update)) := by
  obtain ⟨hline, hupdate⟩ := hop
  obtain ⟨above, row, below, hrows, habove, hbelow, hlt⟩ := exists_split h hline
  have hwf := Storage.wf_modify h.wf line update
  have hstored : g.raw.tape = (g.raw.cached ++ above) ++ row :: below := by
    rw [← Storage.cached_append_rows, hrows, append_assoc]
  have htape := Storage.tape_modify h.wf hstored hbelow hlt update
  have hmodify : g.raw.rows.modify (g.toLines.place line) update = above ++ update row :: below := by
    rw [hrows, ← habove, modify_eq_set_getElem?, getElem?_append_right (Nat.le_refl _),
      Nat.sub_self]
    simp
  obtain ⟨hcached, hread⟩ := @Storage.rows_eq _ _ hwf g.raw.cached (above ++ update row :: below)
    (by rw [htape, append_assoc]) (by
      have := congrArg List.length hrows
      rw [Storage.length_rows h.wf] at this
      simpa [Storage.modify] using this.symm)
  constructor
  · refine ⟨hwf, h.visible, h.history, ?_⟩
    intro other hother
    change other ∈ (g.raw.modify line update).tape at hother
    rw [htape] at hother
    have htidy := h.tidy
    rw [hstored] at htidy
    rcases List.mem_append.mp hother with h' | h'
    · exact htidy other (mem_append_left _ h')
    · rcases List.mem_cons.mp h' with rfl | h'
      · exact hupdate row (htidy row (by simp))
      · exact htidy other (mem_append_right _ (mem_cons_of_mem _ h'))
  · rw [LineStep, @toLines_eq (g.applyLine (.write line update)) _ _ _ _ _ hcached hread rfl rfl
      rfl,
      ← hmodify]
    exact Lines.Step.write (m := g.toLines)

theorem refines_clearHistory (h : g.Good) :
    (g.applyLine .clearHistory).Good ∧ LineStep g .clearHistory (g.applyLine .clearHistory) := by
  have hlen := h.len_eq
  have hvis := h.visible
  have hhist := h.history
  have hle : g.raw.visibleLines ≤ g.raw.len - g.historySize := by omega
  have hwf := Storage.wf_shrinkLines h.wf hle
  have hrows : (g.applyLine .clearHistory).raw.rows = g.raw.rows.drop g.historySize :=
    (Storage.rows_truncate hwf).trans (Storage.rows_shrinkLines h.wf hle (by omega))
  have hcached : (g.applyLine .clearHistory).raw.cached = [] := Storage.cached_truncate hwf
  constructor
  · refine @Grid.Good.of_raw _ _ h rfl (Storage.wf_truncate hwf) ?_ ?_ 0 {} ?_
    · exact (Storage.visibleLines_truncate _).trans ((Storage.visibleLines_shrinkLines ..).trans hvis)
    · change (g.raw.shrinkLines g.historySize).truncate.len ≤ g.lines + g.maxScrollLimit
      rw [Storage.len_truncate, Storage.len_shrinkLines]
      omega
    · intro _ hrow
      exact Or.inr (Storage.mem_tape_of_drop hrows (Or.inr hcached) hrow)
  · rw [LineStep, toLines_eq hcached hrows rfl rfl rfl]
    have hvisible : g.toLines.visible = g.raw.rows.drop g.historySize := by
      have := length_rows h
      unfold Lines.visible toLines
      dsimp only
      congr 1
      omega
    rw [← hvisible]
    exact Lines.Step.clearHistory (m := g.toLines)

theorem refines_updateHistory (h : g.Good) (limit : ℕ) : (g.applyLine (.updateHistory limit)).Good ∧
      LineStep g (.updateHistory limit) (g.applyLine (.updateHistory limit)) := by
  have hlen := h.len_eq
  have hvis := h.visible
  have hle : g.raw.visibleLines ≤ g.raw.len - (g.historySize - limit) := by omega
  have hshrunk : ∃ raw : Storage Row, (g.applyLine (.updateHistory limit)).raw = raw ∧ raw.WF ∧
      raw.visibleLines = g.raw.visibleLines ∧ raw.len = g.raw.len - (g.historySize - limit) ∧
      raw.rows = g.raw.rows.drop (g.historySize - limit) ∧
      (raw.cached = g.raw.cached ++ g.raw.rows.take (g.historySize - limit) ∨ raw.cached = []) := by
    by_cases hover : limit < g.historySize
    · exact ⟨_, if_pos hover, Storage.wf_shrinkLines h.wf hle, Storage.visibleLines_shrinkLines ..,
        Storage.len_shrinkLines .., Storage.rows_shrinkLines h.wf hle (by omega),
        Storage.cached_shrinkLines h.wf hle⟩
    · have hzero : g.historySize - limit = 0 := by omega
      rw [hzero]
      exact ⟨_, if_neg hover, h.wf, rfl, rfl, rfl, Or.inl (by simp)⟩
  obtain ⟨_, hraw, hwf, hrawVis, hrawLen, hrows, hcached⟩ := hshrunk
  rw [← hraw] at hwf hrawVis hrawLen hrows hcached
  constructor
  · refine @Grid.Good.of_raw _ _ h rfl hwf (hrawVis.trans hvis) ?_ 0 {} ?_
    · rw [hrawLen]
      change _ ≤ g.lines + limit
      omega
    · intro _ hrow
      exact Or.inr (Storage.mem_tape_of_drop hrows hcached hrow)
  · have hstep := @Lines.Step.updateHistory _ _ (Row.new g.columns) (blankLine g.columns) g.toLines
      limit ((g.applyLine (.updateHistory limit)).raw.cached)
        (by rw [length_history h]; exact hcached)
    rw [LineStep, toLines_eq rfl hrows rfl rfl rfl, ← length_history h]
    exact hstep

theorem refines_setErase (h : g.Good) (erase : Cell) : (g.applyLine (.setErase erase)).Good ∧
      LineStep g (.setErase erase) (g.applyLine (.setErase erase)) :=
  ⟨⟨h.wf, h.visible, h.history, h.tidy⟩, Lines.Step.setErase (m := g.toLines)⟩

end Grid

end Vivido.Terminal
