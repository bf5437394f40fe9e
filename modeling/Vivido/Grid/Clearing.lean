import Vivido.Grid.Resetting
import Vivido.Grid.Scrolling
import Vivido.Grid.Sound

/-!
Clearing the screen. Resetting lines resets rows of the screen and leaves the rest
of the buffer. Clearing the viewport looks for the last line with content, rotates
the lines down to it into the history and resets what is left and what comes round;
an empty screen without history is taken for one line of content.
-/

namespace Vivido.Terminal

open SwapLoop List

namespace Grid

variable {g g' : Grid}

/-- The buffer is well formed and its screen is the grid's. -/
structure Framed (g : Grid) : Prop where
  wf : g.raw.WF
  visible : g.raw.visibleLines = g.lines

theorem Sound.framed {P : ℕ → Row → Prop} (h : g.Sound P) : g.Framed := ⟨h.wf, h.visible⟩

section

variable (h : g.Framed)
include h

theorem Framed.lines_le : g.lines ≤ g.raw.len := h.visible ▸ h.wf.visible_le

theorem Framed.lines_pos : 0 < g.lines := h.visible ▸ h.wf.visible_pos

theorem Framed.length_visible : g.toLines.visible.length = g.lines := by
  have hrows := Storage.length_rows h.wf
  have hle := h.lines_le
  unfold Lines.visible toLines
  dsimp only
  rw [length_drop]
  omega

theorem Framed.length_history : g.toLines.history.length = g.historySize := by
  have hrows := Storage.length_rows h.wf
  have hle := h.lines_le
  unfold Lines.history toLines historySize totalLines
  dsimp only
  rw [length_take]
  omega

theorem Framed.visible_eq {front screen : List Row}
    (htape : g.raw.tape = front ++ screen) (hlength : screen.length = g.lines) :
    g.toLines.visible = screen := by
  rw [tape_eq] at htape
  exact (append_inj' htape (h.length_visible.trans hlength.symm)).2

theorem Framed.history_eq {front history screen : List Row}
    (htape : g.raw.tape = front ++ history ++ screen) (hlength : screen.length = g.lines)
    (hhistory : history.length = g.historySize) : g.toLines.history = history := by
  rw [tape_eq] at htape
  have hfront := (append_inj' htape (h.length_visible.trans hlength.symm)).1
  exact (append_inj' hfront (h.length_history.trans hhistory.symm)).2

/-- A loop over lines of the screen updates rows of the screen. -/
theorem Framed.modifyLines {first stop : ℕ} (hle : first ≤ stop)
    (hstop : stop ≤ g.lines) (update : Row → Row) :
    (({ g with raw := g.raw.modifyLines (lineRange first stop) update } : Grid).toLines.visible =
        g.toLines.visible.take first ++ ((g.toLines.visible.take stop).drop first).map update ++
          g.toLines.visible.drop stop) ∧
      ({ g with raw := g.raw.modifyLines (lineRange first stop) update } : Grid).toLines.history =
        g.toLines.history ∧
      ({ g with raw := g.raw.modifyLines (lineRange first stop) update } : Grid).Framed ∧
      (g.raw.modifyLines (lineRange first stop) update).len = g.raw.len := by
  have hvisible := h.length_visible
  have hlines := h.lines_le
  have hsplit : g.toLines.visible.take first ++ (g.toLines.visible.take stop).drop first ++
      g.toLines.visible.drop stop = g.toLines.visible := by
    have htop := take_append_drop first (g.toLines.visible.take stop)
    rw [take_take, Nat.min_eq_left hle] at htop
    rw [htop, take_append_drop]
  have htape : g.raw.tape = (g.raw.cached ++ g.toLines.history ++ g.toLines.visible.take first) ++
      (g.toLines.visible.take stop).drop first ++ g.toLines.visible.drop stop := by
    rw [tape_eq]
    conv_lhs => rw [← hsplit]
    simp only [append_assoc]
  have hmid : ((g.toLines.visible.take stop).drop first).length = stop - first := by
    rw [length_drop, length_take, hvisible, Nat.min_eq_left hstop]
  have hpost : (g.toLines.visible.drop stop).length = g.lines - stop := by
    rw [length_drop, hvisible]
  have hscreen := h.visible
  have hupdated := @Storage.tape_modifyLines _ _ h.wf _ _ _ (first : ℤ) (stop : ℤ) htape
    (by rw [hpost]; omega) (by rw [hmid]; omega) (by rw [hmid, hpost]; omega) update
  have hframed : ({ g with
      raw := g.raw.modifyLines (lineRange first stop) update } : Grid).Framed :=
    ⟨Storage.wf_modifyLines h.wf _ _, (Storage.visibleLines_modifyLines ..).trans h.visible⟩
  have hlen := Storage.len_modifyLines g.raw (lineRange first stop) update
  have hlength : (g.toLines.visible.take first ++
      ((g.toLines.visible.take stop).drop first).map update ++
        g.toLines.visible.drop stop).length = g.lines := by
    rw [length_append, length_append, length_map, hmid, hpost, length_take,
      hvisible, Nat.min_eq_left (Nat.le_trans hle hstop)]
    omega
  simp only [append_assoc] at hupdated hlength ⊢
  rw [← append_assoc] at hupdated
  refine ⟨hframed.visible_eq hupdated hlength, hframed.history_eq hupdated hlength ?_, hframed,
    hlen⟩
  rw [h.length_history]
  unfold historySize totalLines
  rw [hlen]

theorem Framed.resetLines (first stop : ℕ) (hle : first ≤ stop)
    (hstop : stop ≤ g.lines) : (g.resetLines (lineRange first stop)).toLines.visible =
        g.toLines.visible.take first ++
          ((g.toLines.visible.take stop).drop first).map (·.reset g.cursor.erase) ++
            g.toLines.visible.drop stop ∧
      (g.resetLines (lineRange first stop)).toLines.history = g.toLines.history ∧
      (g.resetLines (lineRange first stop)).Framed ∧
      (g.resetLines (lineRange first stop)).raw.len = g.raw.len :=
  h.modifyLines hle hstop _

theorem Framed.modifyRow (line : ℕ) (hline : line < g.lines) (update : Row → Row) :
    (g.modifyRow line update).toLines.visible = g.toLines.visible.modify line update ∧
      (g.modifyRow line update).toLines.history = g.toLines.history ∧
      (g.modifyRow line update).Framed := by
  have hrange : lineRange (line : ℤ) ((line + 1 : ℕ) : ℤ) = [(line : ℤ)] := by
    rw [lineRange_cons (by omega), lineRange_of_le (by omega)]
  obtain ⟨hvisible, hhistory, hframed, -⟩ := h.modifyLines (Nat.le_succ line) hline update
  rw [hrange] at hvisible hhistory hframed
  refine ⟨hvisible.trans ?_, hhistory, hframed⟩
  have hlength := h.length_visible
  rw [modify_eq_take_cons_drop (by omega), take_succ_eq_append_getElem (by omega),
    drop_append_of_le_length (by rw [length_take]; omega),
    drop_of_length_le (length_take_le ..), nil_append, map_singleton,
    append_assoc]
  rfl

end

/-- The lines of a screen down to the last one with content. -/
def contentRows (rows : List Row) : ℕ := (rows.reverse.dropWhile Row.isClear).length

theorem contentRows_le (rows : List Row) : contentRows rows ≤ rows.length := by
  unfold contentRows
  rw [← @length_reverse _ rows]
  exact (dropWhile_sublist _).length_le

theorem contentRows_concat (rows : List Row) (row : Row) :
    contentRows (rows ++ [row]) = if row.isClear then contentRows rows else rows.length + 1 := by
  unfold contentRows
  rw [reverse_concat, dropWhile_cons]
  split
  · rfl
  · rw [length_cons, length_reverse]

/-- Walking back through a line stops at a cell with content, and otherwise at its start. -/
theorem lastContent_column (g : Grid) (line : ℤ) (hline : 0 ≤ line) {column fuel : ℕ}
    (hfuel : column ≤ fuel) (hcolumn : column ≤ (g.row line).inner.length) :
    if ((g.row line).inner.take column).all Cell.isEmpty then
      g.lastContent fuel { line := line, column := column } =
        g.lastContent (fuel - column) { line := line, column := 0 }
    else (g.lastContent fuel { line := line, column := column }).line = line := by
  induction column generalizing fuel with
  | zero => simp
  | succ column ih =>
    obtain ⟨fuel, rfl⟩ := Nat.exists_eq_add_of_le' (Nat.lt_of_lt_of_le (Nat.succ_pos _) hfuel)
    have hbefore : ({ line := g.topmostLine, column := 0 } : Point).before
        { line := line, column := column + 1 } := by
      unfold Point.before topmostLine
      dsimp only
      omega
    have hprev : g.prev { line := line, column := column + 1 } =
        some { line := line, column := column } := by
      unfold prev
      rw [if_neg (not_not.mpr hbefore), if_neg (Nat.succ_ne_zero _)]
      rfl
    have hcell : g.cell { line := line, column := column } = (g.row line).inner[column] := by
      unfold cell Row.get
      dsimp only
      rw [getD_eq_getElem?_getD, getElem?_eq_getElem (by omega), Option.getD_some]
    have hstep : g.lastContent (fuel + 1) { line := line, column := column + 1 } =
        if !((g.row line).inner[column]).isEmpty then { line := line, column := column }
        else g.lastContent fuel { line := line, column := column } := by
      rw [lastContent, hprev]
      dsimp only
      rw [hcell]
      by_cases hempty : ((g.row line).inner[column]).isEmpty
      · simp [hempty, Int.not_lt.mpr hline]
      · simp [hempty]
    rw [take_succ_eq_append_getElem (by omega), all_append, hstep]
    by_cases hempty : ((g.row line).inner[column]).isEmpty
    · have hrest := @ih fuel (by omega) (by omega)
      simpa [hempty, Nat.add_sub_add_right] using hrest
    · simp [hempty]

theorem Framed.getElem_visible (h : g.Framed) {line : ℕ} (hline : line < g.lines) :
    g.toLines.visible[line]? = some (g.row line) := by
  have hle := h.lines_le
  have hscreen := h.visible
  have hread := @Storage.get_rows _ _ _ h.wf (line : ℤ) (by
    unfold Storage.InRange
    omega)
  have hrows := Storage.length_rows h.wf
  unfold Lines.visible toLines
  dsimp only
  rw [getElem?_drop, hrows, ← h.visible]
  rw [show g.raw.len - g.raw.visibleLines + line =
    ((g.raw.len : ℤ) - g.raw.visibleLines + line).toNat by omega]
  exact hread

theorem lastContent_start (g : Grid) (hcolumns : 0 < g.columns) (line fuel : ℕ) :
    g.lastContent (fuel + 1) { line := ((line + 1 : ℕ) : ℤ), column := 0 } =
      g.lastContent (fuel + 1) { line := line, column := g.columns } := by
  have hstart : ({ line := g.topmostLine, column := 0 } : Point).before
      { line := ((line + 1 : ℕ) : ℤ), column := 0 } := by
    unfold Point.before topmostLine
    dsimp only
    omega
  have hend : ({ line := g.topmostLine, column := 0 } : Point).before
      { line := line, column := g.columns } := by
    unfold Point.before topmostLine
    dsimp only
    omega
  have habove : ((line + 1 : ℕ) : ℤ) - 1 = line := by omega
  have hprevStart : g.prev { line := ((line + 1 : ℕ) : ℤ), column := 0 } =
      some { line := line, column := g.lastColumn } := by
    unfold prev
    rw [if_neg (not_not.mpr hstart), if_pos rfl]
    dsimp only
    rw [habove]
  have hprevEnd : g.prev { line := line, column := g.columns } =
      some { line := line, column := g.lastColumn } := by
    unfold prev
    rw [if_neg (not_not.mpr hend), if_neg (Nat.ne_of_gt hcolumns)]
    rfl
  rw [lastContent, lastContent, hprevStart, hprevEnd]

/-- At the top of the screen the walk enters the history, or ends where there is none. -/
theorem lastContent_top (g : Grid) (fuel : ℕ) :
    (g.lastContent (fuel + 1) { line := 0, column := 0 }).line + 1 =
      if g.historySize = 0 then 1 else 0 := by
  rw [lastContent]
  by_cases hhistory : g.historySize = 0
  · have hprev : g.prev { line := 0, column := 0 } = none := by
      unfold prev
      apply if_pos
      unfold Point.before topmostLine
      dsimp only
      omega
    rw [hprev, if_pos hhistory]
    rfl
  · have hprev : g.prev { line := 0, column := 0 } =
        some { line := 0 - 1, column := g.lastColumn } := by
      unfold prev
      rw [if_neg, if_pos rfl]
      unfold Point.before topmostLine
      dsimp only
      omega
    rw [hprev, if_neg hhistory]
    dsimp only
    rw [if_pos (Or.inr (by omega))]
    rfl

section

variable (h : g.Framed) (hcolumns : 0 < g.columns)
  (hrows : ∀ row ∈ g.toLines.visible, row.inner.length = g.columns)
include h hcolumns hrows

/-- Below the first lines of the screen the walk ends on the last of them with content. Where
none has content it ends above the screen, or at its top if there is no history. -/
theorem lastContent_line (line fuel : ℕ)
    (hline : line < g.lines) (hfuel : (line + 1) * g.columns < fuel) :
    (g.lastContent fuel { line := line, column := g.columns }).line + 1 =
      if contentRows (g.toLines.visible.take (line + 1)) = 0 ∧ g.historySize = 0 then 1
      else (contentRows (g.toLines.visible.take (line + 1)) : ℤ) := by
  have hwidth : ∀ {line : ℕ}, line < g.lines → (g.row line).inner.length = g.columns :=
    fun hline => hrows _ (mem_of_getElem? (h.getElem_visible hline))
  have hstep : ∀ {line fuel : ℕ}, line < g.lines → g.columns < fuel →
      (g.lastContent fuel { line := line, column := g.columns }).line + 1 =
        if (g.row line).isClear then
          (g.lastContent (fuel - g.columns) { line := line, column := 0 }).line + 1
        else (line : ℤ) + 1 := by
    intro line fuel hline hfuel
    have hwalk := g.lastContent_column (line : ℤ) (by omega) (Nat.le_of_lt hfuel)
      (Nat.le_of_eq (hwidth hline).symm)
    rw [take_of_length_le (Nat.le_of_eq (hwidth hline))] at hwalk
    change if (g.row line).isClear then _ else _ at hwalk
    split at hwalk
    · rename_i hclear
      rw [if_pos hclear, hwalk]
    · rename_i hcontent
      rw [if_neg hcontent, hwalk]
  have hcount : ∀ {line : ℕ}, line < g.lines → contentRows (g.toLines.visible.take (line + 1)) =
      if (g.row line).isClear then contentRows (g.toLines.visible.take line) else line + 1 := by
    intro line hline
    have hlength := h.length_visible
    have hrow := h.getElem_visible hline
    rw [getElem?_eq_getElem (by omega), Option.some.injEq] at hrow
    rw [take_succ_eq_append_getElem (by omega), contentRows_concat, hrow, length_take,
      Nat.min_eq_left (by omega)]
  induction line generalizing fuel with
  | zero =>
    rw [hstep hline (by omega), hcount hline]
    by_cases hclear : (g.row ((0 : ℕ) : ℤ)).isClear
    · obtain ⟨rest, hrest⟩ := Nat.exists_eq_succ_of_ne_zero (show fuel - g.columns ≠ 0 by omega)
      have htop := g.lastContent_top rest
      rw [if_pos hclear, if_pos hclear, hrest]
      refine htop.trans ?_
      by_cases hhistory : g.historySize = 0
      · rw [if_pos hhistory, if_pos ⟨rfl, hhistory⟩]
      · rw [if_neg hhistory, if_neg fun h => hhistory h.2]
        rfl
    · rw [if_neg hclear, if_neg hclear, if_neg fun h => absurd h.1 (by omega)]
      rfl
  | succ line ih =>
    have hwide : (line + 1 + 1) * g.columns = (line + 1) * g.columns + g.columns :=
      Nat.succ_mul ..
    rw [hstep hline (by omega), hcount hline]
    by_cases hclear : (g.row ((line + 1 : ℕ) : ℤ)).isClear
    · obtain ⟨rest, hrest⟩ := Nat.exists_eq_succ_of_ne_zero (show fuel - g.columns ≠ 0 by omega)
      rw [if_pos hclear, if_pos hclear, hrest, g.lastContent_start hcolumns line rest]
      exact ih _ (by omega) (by omega)
    · rw [if_neg hclear, if_neg hclear, if_neg fun h => absurd h.1 (by omega)]
      rfl

/-- What clearing the viewport preserves are the lines down to the last one with content. -/
theorem contentLines_eq :
    g.contentLines = if contentRows g.toLines.visible = 0 ∧ g.historySize = 0 then 1
      else contentRows g.toLines.visible := by
  have hpos := h.lines_pos
  have hwalk := lastContent_line h hcolumns hrows (g.lines - 1) (g.lines * g.columns + 1)
    (by omega) (by
      rw [Nat.sub_add_cancel hpos]
      omega)
  rw [Nat.sub_add_cancel hpos, take_of_length_le (Nat.le_of_eq h.length_visible)] at hwalk
  have hbottom : g.bottommostLine = ((g.lines - 1 : ℕ) : ℤ) := by
    unfold bottommostLine
    omega
  unfold contentLines
  rw [hbottom, hwalk]
  split
  · rfl
  · exact Int.toNat_natCast _

end

/-- The rows that come round to the bottom of the screen with `count` lines scrolled off it. -/
def incoming (g : Grid) (count : ℕ) : List Row := (g.increaseScrollLimit count).raw.tape.take count

theorem tape_scrollScreen (h : g.Framed) {count : ℕ} (hcount : count ≤ g.lines) :
    (g.scrollRows { start := 0, stop := g.lines } count).raw.tape =
        (g.increaseScrollLimit count).raw.tape.drop count ++ g.incoming count ∧
      (g.scrollRows { start := 0, stop := g.lines } count).Framed ∧
      (g.scrollRows { start := 0, stop := g.lines } count).raw.len =
        g.raw.len + min count (g.maxScrollLimit - g.historySize) := by
  obtain ⟨_, htape, hlen, hwf, hvisible⟩ := tape_increaseScrollLimit h.wf count
  have hraw : (g.scrollRows { start := 0, stop := g.lines } count).raw =
      (g.increaseScrollLimit count).raw.rotate (-(count : ℤ)) := by
    unfold scrollRows
    rw [if_pos rfl]
    dsimp only
    rw [lineRange_of_le (Int.le_refl 0), (sameFrame_increaseScrollLimit ..).lines,
      lineRange_of_le (Int.le_refl _)]
    rfl
  have hstored : count ≤ (g.increaseScrollLimit count).raw.tape.length := by
    have hlines := h.length_visible
    rw [htape, tape_eq]
    simp only [length_append]
    omega
  have hturned := Storage.tape_rotate_neg (take_append_drop count
    (g.increaseScrollLimit count).raw.tape).symm (length_take_of_le hstored)
  refine ⟨by rw [hraw, hturned]; rfl, ⟨?_, ?_⟩, ?_⟩
  · rw [hraw]
    exact Storage.wf_rotate hwf _
  · rw [hraw, (sameFrame_scrollRows ..).lines]
    exact hvisible.trans h.visible
  · rw [hraw]
    exact hlen

theorem length_incoming (h : g.Framed) {count : ℕ} (hcount : count ≤ g.lines) :
    (g.incoming count).length = count := by
  obtain ⟨_, htape, -⟩ := tape_increaseScrollLimit h.wf count
  have hlines := h.length_visible
  rw [tape_eq g] at htape
  unfold incoming
  rw [htape, length_take]
  simp only [length_append, hlines]
  omega

/-- The top lines of the screen enter the history, and other rows come to its bottom. -/
theorem rows_scrollScreen (h : g.Framed) (hlimit : g.historySize ≤ g.maxScrollLimit) {count : ℕ}
    (hcount : count ≤ g.lines) :
    (g.scrollRows { start := 0, stop := g.lines } count).toLines.visible =
        g.toLines.visible.drop count ++ g.incoming count ∧
      (g.scrollRows { start := 0, stop := g.lines } count).toLines.history =
        (g.toLines.history ++ g.toLines.visible.take count).drop
          (g.historySize + count - g.maxScrollLimit) := by
  obtain ⟨added, htape, _, hwf, -⟩ := tape_increaseScrollLimit h.wf count
  obtain ⟨hturned, hframed, hlen⟩ := tape_scrollScreen h hcount
  have hlines := h.length_visible
  have hhistory := h.length_history
  rw [tape_eq g] at htape
  generalize hfront : List.replicate added (Row.new g.columns) ++ g.raw.cached = front
  have hwhole : (g.increaseScrollLimit count).raw.tape =
      front ++ g.toLines.history ++ g.toLines.visible.take count ++
        g.toLines.visible.drop count := by
    rw [htape, ← hfront]
    simp only [append_assoc, take_append_drop]
  have hincoming := length_incoming h hcount
  have htop : (g.toLines.visible.take count).length = count := by
    rw [length_take, hlines, Nat.min_eq_left hcount]
  have hdrop : (g.increaseScrollLimit count).raw.tape.drop count =
      (front ++ g.toLines.history ++ g.toLines.visible.take count).drop count ++
        g.toLines.visible.drop count := by
    rw [hwhole, drop_append_of_le_length]
    simp only [length_append, htop]
    omega
  have hsize : (g.scrollRows { start := 0, stop := g.lines } count).historySize =
      g.historySize + count - (g.historySize + count - g.maxScrollLimit) := by
    have htotal := h.lines_le
    unfold historySize totalLines at hlimit ⊢
    unfold historySize totalLines at hlen
    rw [hlen, (sameFrame_scrollRows ..).lines]
    omega
  have htotal := h.lines_le
  have hfree : min count (g.maxScrollLimit - g.historySize) ≤ front.length := by
    have hfits := hwf.len_le
    have hstored := congrArg List.length hwhole
    simp only [Storage.length_tape, length_append, length_drop, hlines, hhistory, htop]
      at hstored
    have hlen : g.historySize = g.raw.len - g.lines := rfl
    omega
  generalize hlost : g.historySize + count - g.maxScrollLimit = lost at *
  have hsplit := @drop_append_split _ front
    (g.toLines.history ++ g.toLines.visible.take count) [] [] count lost
      (front.length + lost - count) (by omega) (by
      rw [length_append, hhistory, htop]
      omega)
  simp only [append_nil, ← append_assoc] at hsplit
  rw [hdrop, hsplit] at hturned
  have hscreen : (g.toLines.visible.drop count ++ g.incoming count).length =
      (g.scrollRows { start := 0, stop := g.lines } count).lines := by
    rw [length_append, length_drop, hlines, hincoming, (sameFrame_scrollRows ..).lines]
    omega
  rw [append_assoc (_ ++ _)] at hturned
  refine ⟨hframed.visible_eq hturned hscreen, hframed.history_eq hturned hscreen ?_⟩
  rw [hsize, length_drop, length_append, hhistory, htop]

/-- Clearing the viewport carries the lines down to the last one with content into the history
and resets every line that is then on the screen. -/
theorem rows_clearViewport (h : g.Framed) (hlimit : g.historySize ≤ g.maxScrollLimit)
    (hcount : g.contentLines ≤ g.lines) : g.clearViewport.toLines.visible =
        (g.toLines.visible.drop g.contentLines ++ g.incoming g.contentLines).map
          (·.reset g.cursor.erase) ∧ g.clearViewport.toLines.history =
        (g.toLines.history ++ g.toLines.visible.take g.contentLines).drop
          (g.historySize + g.contentLines - g.maxScrollLimit) := by
  generalize hoffset : (if g.displayOffset ≠ 0 then
    min (g.displayOffset + g.contentLines) g.maxScrollLimit else g.displayOffset) = offset
  have hscroll := @scrollUp_eq g { start := 0, stop := g.lines } g.contentLines (by simp)
  rw [hoffset] at hscroll
  obtain ⟨u, hu⟩ : ∃ u : Grid, u = { g with displayOffset := offset } := ⟨_, rfl⟩
  have hframed : u.Framed := hu ▸ ⟨h.wf, h.visible⟩
  have hvisible : u.toLines.visible = g.toLines.visible := by rw [hu]; rfl
  have hhistory : u.toLines.history = g.toLines.history := by rw [hu]; rfl
  have hsize : u.historySize = g.historySize := by rw [hu]; rfl
  have hlines : u.lines = g.lines := by rw [hu]
  have hcursor : u.cursor = g.cursor := by rw [hu]
  have hmax : u.maxScrollLimit = g.maxScrollLimit := by rw [hu]
  have hincoming : u.incoming g.contentLines = g.incoming g.contentLines := by
    rw [hu]
    unfold incoming increaseScrollLimit
    simp only [apply_ite Grid.raw]
    rfl
  obtain ⟨hscreen, hpushed⟩ := rows_scrollScreen hframed (by rw [hsize, hmax]; exact hlimit)
    (hlines ▸ hcount)
  obtain ⟨-, hmoved, -⟩ := tape_scrollScreen hframed (hlines ▸ hcount)
  have hframe := sameFrame_scrollRows u { start := 0, stop := u.lines } g.contentLines
  rw [hvisible, hincoming] at hscreen
  rw [hhistory, hvisible, hsize, hmax] at hpushed
  rw [← hu] at hscroll
  rw [hlines] at hscreen hpushed hmoved hframe
  generalize u.scrollRows { start := 0, stop := g.lines } g.contentLines = moved at *
  have hheight : moved.lines = g.lines := hframe.lines.trans hlines
  have herase : moved.cursor = g.cursor := hframe.cursor.trans hcursor
  have hcut : (g.lines : ℤ) - g.contentLines = ((g.lines - g.contentLines : ℕ) : ℤ) := by omega
  obtain ⟨hbottom, hkept, hreset, -⟩ := hmoved.resetLines (g.lines - g.contentLines)
    g.lines (by omega) (by omega)
  have hwhole : g.clearViewport =
      (moved.resetLines (lineRange ((g.lines - g.contentLines : ℕ) : ℤ) g.lines)).resetLines
        (lineRange ((0 : ℕ) : ℤ) ((g.lines - g.contentLines : ℕ) : ℤ)) := by
    unfold clearViewport
    dsimp only
    rw [hscroll]
    change (moved.resetLines (lineRange ((g.lines : ℤ) - g.contentLines) g.lines)).resetLines
      (lineRange 0 ((moved.lines : ℤ) - g.contentLines)) = _
    rw [hheight, hcut]
    rfl
  obtain ⟨htop, hkept', -, -⟩ := hreset.resetLines 0
    (g.lines - g.contentLines) (by omega) (by
      change _ ≤ moved.lines
      omega)
  rw [← hwhole] at htop hkept'
  refine ⟨?_, hkept'.trans (hkept.trans hpushed)⟩
  have hlength : moved.toLines.visible.length = g.lines := hmoved.length_visible.trans hheight
  have htake : (moved.toLines.visible.take (g.lines - g.contentLines)).length =
      g.lines - g.contentLines := by
    rw [length_take, hlength]
    omega
  change _ = _ ++ List.map (fun row : Row => row.reset moved.cursor.erase) _ ++ _ at htop
  rw [take_of_length_le (Nat.le_of_eq hlength), drop_of_length_le (Nat.le_of_eq hlength),
    append_nil] at hbottom
  rw [hbottom, take_zero, nil_append, drop_zero, take_left' htake,
    drop_left' htake, ← map_append, take_append_drop, hscreen, herase] at htop
  exact htop

end Grid

end Vivido.Terminal
