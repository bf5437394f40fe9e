import Vivido.Grid.Refinement

/-!
Scrolling refines the list of lines, and with it every run of the buffer's
operations does. A region at the top of the screen scrolls through the history:
the rotation brings the top rows of the tape to the bottom, the swaps put the
fixed lines back, and the rows that entered are reset, whatever they held.
-/

namespace Vivido.Terminal

open SwapLoop List

namespace Grid

variable {g : Grid}

/-- Scrollback for `count` more lines is made from fresh rows, up to the limit. -/
theorem tape_increaseScrollLimit (h : g.raw.WF) (count : ℕ) :
    ∃ added, (g.increaseScrollLimit count).raw.tape =
        List.replicate added (Row.new g.columns) ++ g.raw.tape ∧
      (g.increaseScrollLimit count).raw.len =
        g.raw.len + min count (g.maxScrollLimit - g.historySize) ∧
      (g.increaseScrollLimit count).raw.WF ∧
      (g.increaseScrollLimit count).raw.visibleLines = g.raw.visibleLines := by
  unfold increaseScrollLimit
  dsimp only
  split
  · obtain ⟨added, htape⟩ := g.raw.tape_initializeRows
      (min count (g.maxScrollLimit - g.historySize)) (Row.new g.columns)
    exact ⟨added, htape, Storage.len_initializeRows .., Storage.wf_initializeRows h _ _,
      Storage.visibleLines_initializeRows ..⟩
  · exact ⟨0, rfl, by omega, h, rfl⟩

/-- Rotating through the history carries the top rows of the tape below the
scrolled lines; the lines fixed at the bottom stay. -/
theorem tape_scrollRows_push (h : g.Good) {stop count : ℕ} (hstop : stop ≤ g.lines)
    (hcount : count ≤ stop + g.maxScrollLimit) : ∃ added entering, entering.length = count ∧
      count ≤ added + g.raw.cached.length + g.historySize + stop ∧
      (∀ row ∈ entering, row.Tidy g.columns) ∧
      (g.scrollRows { start := 0, stop := stop } count).raw.tape =
        (List.replicate added (Row.new g.columns) ++ g.raw.cached ++ g.toLines.history ++
          g.toLines.visible.take stop).drop count ++ entering ++ g.toLines.visible.drop stop ∧
      (g.scrollRows { start := 0, stop := stop } count).raw.WF ∧
      (g.scrollRows { start := 0, stop := stop } count).raw.visibleLines = g.raw.visibleLines ∧
      (g.scrollRows { start := 0, stop := stop } count).raw.len =
        g.raw.len + min count (g.maxScrollLimit - g.historySize) := by
  obtain ⟨added, htape, hlen, hwf, hvis⟩ := tape_increaseScrollLimit h.wf count
  have hlines := h.visible
  have hle := h.lines_le
  have hvisible := length_visible h
  generalize hupper : List.replicate added (Row.new g.columns) ++ g.raw.cached ++
    g.toLines.history ++ g.toLines.visible.take stop = upper
  have hlower : (g.toLines.visible.drop stop).length = g.lines - stop := by
    rw [length_drop, hvisible]
  have hhistory := length_history h
  have hfull := h.len_eq
  have hbound := h.history
  have hroom : count ≤ upper.length := by
    have hfits := hwf.len_le
    have hstored := congrArg List.length htape
    rw [tape_eq g] at hstored
    simp only [Storage.length_tape, length_append, length_replicate, hhistory, hvisible]
      at hstored
    rw [← hupper]
    simp only [length_append, length_take, length_replicate, hvisible, hhistory]
    omega
  have hwhole : (g.increaseScrollLimit count).raw.tape =
      upper.take count ++ (upper.drop count ++ g.toLines.visible.drop stop) := by
    rw [htape, tape_eq, ← append_assoc (upper.take count), take_append_drop, ← hupper]
    simp only [append_assoc, take_append_drop]
  have htop : (upper.take count).length = count := by
    rw [length_take]
    omega
  have hrotated := Storage.tape_rotate_neg hwhole htop
  have hrows : (g.scrollRows { start := 0, stop := stop } count).raw =
      ((g.increaseScrollLimit count).raw.rotate (-(count : ℤ))).swapLines
        (lineRange (g.lines - (g.lines - stop : ℕ)) g.lines).reverse (-(count : ℤ)) := by
    unfold scrollRows
    rw [if_pos rfl]
    dsimp only
    rw [lineRange_of_le (Int.le_refl 0), (sameFrame_increaseScrollLimit ..).lines,
      show (g.lines : ℤ) - (g.lines - stop : ℕ) = stop by omega]
    rfl
  obtain ⟨entering, hperm, hswapped⟩ := @Storage.tape_swapLines_down _ _ (Storage.wf_rotate hwf _) _
    _ _ [] g.lines (hrotated.trans (append_nil _).symm) (by
      change (g.lines : ℤ) + ((0 : ℕ) : ℤ) = ((g.increaseScrollLimit count).raw.visibleLines : ℤ)
      omega) (by
      change _ ≤ (g.increaseScrollLimit count).raw.len
      rw [hlower, htop, hlen, length_nil]
      omega)
  rw [hlower, htop, ← hrows, append_nil] at hswapped
  refine ⟨added, entering, hperm.length_eq.trans htop, ?_, ?_, by rw [hupper, hswapped], ?_, ?_, ?_⟩
  · rw [← hupper] at hroom
    simp only [length_append, length_take, length_replicate, hvisible, hhistory]
      at hroom
    omega
  · intro row hrow
    have hmem : row ∈ List.replicate added (Row.new g.columns) ++ g.raw.tape := by
      rw [← htape, hwhole]
      exact mem_append_left _ (hperm.subset hrow)
    rcases List.mem_append.mp hmem with h' | h'
    · rw [eq_of_mem_replicate h']
      exact tidy_new
    · exact h.tidy row h'
  · rw [hrows]
    exact Storage.wf_swapLines (Storage.wf_rotate hwf _) _ _
  · rw [hrows, Storage.visibleLines_swapLines]
    exact hvis
  · rw [hrows, Storage.len_swapLines]
    exact hlen

/-- `display_offset` plays no part in what a scroll does to the rows. -/
theorem scrollUp_eq (g : Grid) {region : Region} {count : ℕ}
    (h : ¬(region.stop - region.start ≤ count ∧ region.start ≠ 0)) : g.scrollUp region count =
      (({ g with
        displayOffset := if g.displayOffset ≠ 0 then min (g.displayOffset + count) g.maxScrollLimit
          else g.displayOffset } : Grid).scrollRows region count).resetLines
        (lineRange (region.stop - count) region.stop) := by
  unfold scrollUp scrollUpResetting
  rw [if_neg h]
  simp only [Int.sub_self, Int.sub_zero]

/-- Where a list with its first elements dropped continues past its first part. -/
theorem drop_append_split {α : Type*} (free kept entered below : List α) {count lost spare : ℕ}
    (h : count + spare = free.length + lost) (hlost : lost ≤ kept.length) :
    (free ++ kept).drop count ++ entered ++ below =
      ((free ++ kept).drop count).take spare ++ (kept ++ entered ++ below).drop lost := by
  have hrest : ((free ++ kept).drop count).drop spare = kept.drop lost := by
    rw [drop_drop, h, drop_length_add_append]
  rw [append_assoc kept, drop_append_of_le_length hlost, ← hrest, ← append_assoc,
    take_append_drop, append_assoc]

/-- Moving the viewport keeps a grid good. -/
theorem Good.of_displayOffset (h : g.Good) (offset : ℕ) :
    ({ g with displayOffset := offset } : Grid).Good :=
  ⟨h.wf, h.visible, h.history, h.tidy⟩

theorem refines_pushUp (h : g.Good) {stop count : ℕ} (hstop : stop ≤ g.lines)
    (hpos : 0 < stop) (hcount : count ≤ stop + g.maxScrollLimit) :
    (g.scrollUp { start := 0, stop := stop } count).Good ∧
      LineStep g (.scrollUp 0 stop count) (g.scrollUp { start := 0, stop := stop } count) := by
  rw [scrollUp_eq g (by simp)]
  generalize hoffset : (if g.displayOffset ≠ 0 then min (g.displayOffset + count) g.maxScrollLimit
    else g.displayOffset) = offset
  obtain ⟨added, entering, hentering, hroom, htidy, htape, hwf, hvis, hlen⟩ :=
    tape_scrollRows_push (h.of_displayOffset offset) hstop hcount
  generalize hmoved : ({ g with displayOffset := offset } : Grid).scrollRows
    { start := 0, stop := stop } count = moved at *
  have hcolumns : moved.columns = g.columns := by rw [← hmoved, (sameFrame_scrollRows ..).columns]
  have hlines : moved.lines = g.lines := by rw [← hmoved, (sameFrame_scrollRows ..).lines]
  have hcursor : moved.cursor = g.cursor := by rw [← hmoved, (sameFrame_scrollRows ..).cursor]
  have hlimit : moved.maxScrollLimit = g.maxScrollLimit := by
    rw [← hmoved, (sameFrame_scrollRows ..).maxScrollLimit]
  change moved.raw.tape = (List.replicate added (Row.new g.columns) ++ g.raw.cached ++
    g.toLines.history ++ g.toLines.visible.take stop).drop count ++ entering ++
    g.toLines.visible.drop stop at htape
  change count ≤ added + g.raw.cached.length + g.historySize + stop at hroom
  change moved.raw.visibleLines = g.raw.visibleLines at hvis
  change moved.raw.len = g.raw.len + min count (g.maxScrollLimit - g.historySize) at hlen
  have hvisible := length_visible h
  have hhistory := length_history h
  have hlower : (g.toLines.visible.drop stop).length = g.lines - stop := by
    rw [length_drop, hvisible]
  have hupperLen : (g.toLines.visible.take stop).length = stop := by
    rw [length_take, hvisible]
    omega
  have hscreen := h.visible
  have hfull := h.len_eq
  have hbound := h.history
  have hreset := @tape_resetLines _ hwf _ _ _ (stop - count) stop htape (by rw [hlower]; omega)
    (by omega) (by rw [hentering, hlower]; omega) (by rw [hcolumns]; exact htidy)
  rw [hcolumns, hcursor, hentering] at hreset
  have hwf' : (moved.resetLines (lineRange (stop - count) stop)).raw.WF :=
    Storage.wf_modifyLines hwf _ _
  have hlen' : (moved.resetLines (lineRange (stop - count) stop)).raw.len = moved.raw.len :=
    Storage.len_modifyLines ..
  have hfits := hwf'.len_le
  have htotal := congrArg List.length hreset
  simp only [Storage.length_tape, length_append, length_drop, length_replicate,
    hvisible, hhistory, hupperLen] at htotal
  rw [hlen', hlen] at hfits
  have htidied := hreset
  rw [append_assoc _ g.toLines.history, @drop_append_split _ _ _ _ _ _
    (g.historySize + count - g.maxScrollLimit)
      (added + g.raw.cached.length - min count (g.maxScrollLimit - g.historySize))
        (by simp only [length_append, length_replicate]; omega)
          (by simp only [length_append, hhistory, hupperLen]; omega)] at hreset
  have hpushed : (g.toLines.history ++ g.toLines.visible.take stop ++
      List.replicate count (blankLine g.columns g.cursor.erase) ++ g.toLines.visible.drop stop).drop
        (g.historySize + count - g.maxScrollLimit) =
      g.toLines.pushUp (blankLine g.columns g.cursor.erase) stop count := by
    rw [Lines.pushUp, hhistory]
    rfl
  rw [hpushed] at hreset
  have hread := Storage.rows_eq hwf' hreset (by
    rw [← hpushed, hlen', hlen]
    simp only [length_append, length_drop, length_replicate, hhistory, hupperLen,
      hvisible]
    omega)
  constructor
  · refine ⟨hwf', ?_, ?_, ?_⟩
    · exact (Storage.visibleLines_modifyLines ..).trans (hvis.trans (h.visible.trans hlines.symm))
    · rw [hlen', hlen]
      change _ ≤ moved.lines + moved.maxScrollLimit
      omega
    intro row hrow
    change row.Tidy moved.columns
    rw [htidied] at hrow
    rw [hcolumns]
    have hstored := h.tidy
    rw [tape_eq] at hstored
    simp only [mem_append] at hstored hrow
    rcases hrow with (hrow | hrow) | hrow
    · have hrow := mem_of_mem_drop hrow
      simp only [mem_append] at hrow
      rcases hrow with ((hrow | hrow) | hrow) | hrow
      · rw [eq_of_mem_replicate hrow]
        exact tidy_new
      · exact hstored row (Or.inl (Or.inl hrow))
      · exact hstored row (Or.inl (Or.inr hrow))
      · exact hstored row (Or.inr (mem_of_mem_take hrow))
    · rw [eq_of_mem_replicate hrow]
      exact Row.tidy_blankRow _ _
    · exact hstored row (Or.inr (mem_of_mem_drop hrow))
  · rw [LineStep, toLines_eq rfl hread.2 hlines hlimit (congrArg Cursor.erase hcursor)]
    exact Lines.Step.pushUp (m := g.toLines)

/-- The lines of a region, top line first. -/
def regionRows (g : Grid) (start stop : ℕ) : List Row := (g.toLines.visible.take stop).drop start

theorem length_regionRows (h : g.Good) {start stop : ℕ} (hstop : stop ≤ g.lines) :
    (g.regionRows start stop).length = stop - start := by
  rw [regionRows, length_drop, length_take, length_visible h, Nat.min_eq_left hstop]

theorem tape_region (g : Grid) {start stop : ℕ} (hle : start ≤ stop) :
    g.raw.tape = (g.raw.cached ++ g.toLines.history ++ g.toLines.visible.take start) ++
      g.regionRows start stop ++ g.toLines.visible.drop stop := by
  have hupper : g.toLines.visible.take start ++ g.regionRows start stop =
      g.toLines.visible.take stop := by
    have hsplit := take_append_drop start (g.toLines.visible.take stop)
    rwa [take_take, Nat.min_eq_left hle] at hsplit
  rw [tape_eq]
  conv_lhs => rw [← take_append_drop stop g.toLines.visible, ← hupper]
  simp only [append_assoc]

/-- A region cut in two, between the lines around it. -/
theorem tape_cut (g : Grid) {start stop : ℕ} (hle : start ≤ stop) (count : ℕ) :
    g.raw.tape = (g.raw.cached ++ g.toLines.history ++ g.toLines.visible.take start) ++
      (g.regionRows start stop).take count ++ (g.regionRows start stop).drop count ++
      g.toLines.visible.drop stop := by
  rw [tape_region g hle, append_assoc _ ((g.regionRows start stop).take count),
    take_append_drop]

theorem tidy_region (h : g.Good) {start stop : ℕ} :
    ∀ row ∈ g.regionRows start stop, row.Tidy g.columns := by
  intro _ hrow
  apply h.tidy
  rw [tape_eq]
  exact mem_append_right _ (mem_of_mem_take (mem_of_mem_drop hrow))

/-- Rewriting the rows of a region of the screen leaves the other lines, and a good grid. -/
theorem good_region (h : g.Good) {g' : Grid} {start stop : ℕ} {cached region : List Row}
    (hstart : start ≤ stop) (hstop : stop ≤ g.lines)
    (hcolumns : g'.columns = g.columns) (hlines : g'.lines = g.lines)
    (hlimit : g'.maxScrollLimit = g.maxScrollLimit)
    (hwf : g'.raw.WF) (hvisible : g'.raw.visibleLines = g.raw.visibleLines)
    (hlen : g'.raw.len = g.raw.len) (hregion : region.length = stop - start)
    (hcached : ∀ row ∈ cached, row.Tidy g.columns) (htidy : ∀ row ∈ region, row.Tidy g.columns)
    (htape : g'.raw.tape = cached ++ g.toLines.history ++ g.toLines.visible.take start ++ region ++
      g.toLines.visible.drop stop) :
    g'.Good ∧ g'.raw.cached = cached ∧ g'.raw.rows = g.toLines.history ++
      (g.toLines.visible.take start ++ region ++ g.toLines.visible.drop stop) := by
  have hvisLen := length_visible h
  have hhist := length_history h
  have hbound := h.history
  have hscreen := h.visible
  have hfull := h.len_eq
  constructor
  · refine ⟨hwf, ?_, ?_, ?_⟩
    · rw [hvisible, hlines, hscreen]
    · rw [hlen, hlines, hlimit]
      exact hbound
    intro row hrow
    rw [hcolumns]
    have hstored := h.tidy
    rw [tape_eq] at hstored
    rw [htape] at hrow
    simp only [mem_append] at hstored hrow
    rcases hrow with (((hrow | hrow) | hrow) | hrow) | hrow
    · exact hcached row hrow
    · exact hstored row (Or.inl (Or.inr hrow))
    · exact hstored row (Or.inr (mem_of_mem_take hrow))
    · exact htidy row hrow
    · exact hstored row (Or.inr (mem_of_mem_drop hrow))
  · apply Storage.rows_eq hwf
    · rw [htape]
      simp only [append_assoc]
    · simp only [length_append, length_take, length_drop, hvisLen, hhist, hregion,
        hlen]
      omega

theorem tape_resetRegion (h : g.Good) {start stop : ℕ} (hstart : start ≤ stop)
    (hstop : stop ≤ g.lines) : (g.resetLines (lineRange start stop)).raw.tape =
      g.raw.cached ++ g.toLines.history ++ g.toLines.visible.take start ++
        List.replicate (stop - start) (blankLine g.columns g.cursor.erase) ++
        g.toLines.visible.drop stop := by
  have hvisLen := length_visible h
  have hlines := h.lines_le
  have hscreen := h.visible
  have hregion := @length_regionRows _ h start _ hstop
  have hreset := @tape_resetLines _ h.wf _ _ _ start stop (tape_region g hstart)
    (by rw [length_drop]; omega) (by omega) (by rw [length_drop]; omega) (tidy_region h)
  rw [hreset, hregion]

theorem refines_regionReset (h : g.Good) {start stop : ℕ} (hstart : start ≤ stop)
    (hstop : stop ≤ g.lines) : (g.resetLines (lineRange start stop)).Good ∧
      (g.resetLines (lineRange start stop)).raw.cached = g.raw.cached ∧
      (g.resetLines (lineRange start stop)).raw.rows = g.toLines.history ++
        (g.toLines.visible.take start ++
          List.replicate (stop - start) (blankLine g.columns g.cursor.erase) ++
          g.toLines.visible.drop stop) := by
  refine good_region h hstart hstop rfl rfl rfl (Storage.wf_modifyLines h.wf _ _)
    (Storage.visibleLines_modifyLines ..) (Storage.len_modifyLines ..) length_replicate ?_ ?_
    (tape_resetRegion h hstart hstop)
  · intro row hrow
    apply h.tidy
    rw [← Storage.cached_append_rows]
    exact mem_append_left _ hrow
  · intro _ hrow
    rw [eq_of_mem_replicate hrow]
    exact Row.tidy_blankRow _ _

theorem tidy_cached (h : g.Good) : ∀ row ∈ g.raw.cached, row.Tidy g.columns := by
  intro _ hrow
  apply h.tidy
  rw [← Storage.cached_append_rows]
  exact mem_append_left _ hrow

theorem refines_regionUp (h : g.Good) {start stop count : ℕ} (hpos : 0 < start)
    (hstart : start < stop) (hstop : stop ≤ g.lines) :
    (g.scrollUp { start := start, stop := stop } count).Good ∧
      LineStep g (.scrollUp start stop count)
        (g.scrollUp { start := start, stop := stop } count) := by
  have hregion := @length_regionRows _ h start _ hstop
  by_cases hall : stop - start ≤ count
  · have hreset : g.scrollUp { start := start, stop := stop } count =
        g.resetLines (lineRange start stop) := by
      unfold scrollUp scrollUpResetting
      rw [if_pos ⟨by dsimp only; omega, by dsimp only; omega⟩]
      simp only [Int.sub_self, Int.sub_zero]
    obtain ⟨hgood, hcached, hrows⟩ := refines_regionReset h (Nat.le_of_lt hstart) hstop
    have hstep := @Lines.Step.regionUp _ _ (Row.new g.columns) (blankLine g.columns) g.toLines _
      stop count hpos
    rw [hreset]
    refine ⟨hgood, ?_⟩
    rw [LineStep, toLines_eq hcached hrows rfl rfl rfl]
    rw [Lines.regionUp, Nat.min_eq_right hall, show (g.toLines.visible.take stop).drop start =
      g.regionRows start stop from rfl, drop_eq_nil_of_le (by omega), append_nil] at hstep
    exact hstep
  · rw [scrollUp_eq g (by dsimp only; omega)]
    generalize (if g.displayOffset ≠ 0 then min (g.displayOffset + count) g.maxScrollLimit
      else g.displayOffset) = offset
    have hlower : (g.toLines.visible.drop stop).length = g.lines - stop := by
      rw [length_drop, length_visible h]
    have hlines := h.lines_le
    have hscreen := h.visible
    have hblock : ((g.regionRows start stop).take count).length = count := by
      rw [length_take]
      omega
    have hmoved : ((g.regionRows start stop).drop count).length = stop - start - count := by
      rw [length_drop, hregion]
    obtain ⟨_, hperm, hreset⟩ := @Storage.tape_swapsUp _ _ h.wf _ _ _ _ start
      (tape_cut g (Nat.le_of_lt hstart) count) (by omega) (by omega) (·.reset g.cursor.erase)
    have hrows : ({ g with displayOffset := offset } : Grid).scrollRows
        { start := start, stop := stop } count =
        { g with
          displayOffset := offset
          raw := g.raw.swapLines (lineRange start (stop - count)) count } := by
      unfold scrollRows
      rw [if_neg (by dsimp only; omega)]
    rw [map_reset (fun row hrow => tidy_region h row (mem_of_mem_take (hperm.subset hrow))),
      hperm.length_eq, hmoved, hblock,
      show (start : ℤ) + (stop - start - count : ℕ) = stop - count by omega,
      show (stop : ℤ) - count + count = stop by omega,
      append_assoc _ ((g.regionRows start stop).drop count)] at hreset
    rw [hrows]
    obtain ⟨hgood, hcached, hread⟩ := @good_region _ h
      (({ g with
        displayOffset := offset
        raw := g.raw.swapLines (lineRange start (stop - count)) count } : Grid).resetLines
          (lineRange (stop - count) stop)) _ _ _ _ (Nat.le_of_lt hstart) hstop rfl rfl rfl
      (Storage.wf_modifyLines (Storage.wf_swapLines h.wf _ _) _ _)
      ((Storage.visibleLines_modifyLines ..).trans (Storage.visibleLines_swapLines ..))
      ((Storage.len_modifyLines ..).trans (Storage.len_swapLines ..))
      (by rw [length_append, hmoved, length_replicate]; omega) (tidy_cached h)
      (by
        intro row hrow
        rcases List.mem_append.mp hrow with hrow | hrow
        · exact tidy_region h row (mem_of_mem_drop hrow)
        · rw [eq_of_mem_replicate hrow]
          exact Row.tidy_blankRow _ _)
      hreset
    have hstep := @Lines.Step.regionUp _ _ (Row.new g.columns) (blankLine g.columns) g.toLines _
      stop count hpos
    refine ⟨hgood, ?_⟩
    rw [LineStep, toLines_eq hcached hread rfl rfl rfl]
    rw [Lines.regionUp, Nat.min_eq_left (by omega), append_assoc (g.toLines.visible.take start)]
      at hstep
    exact hstep

theorem tidy_entered {columns count : ℕ} {erase : Cell} {rows : List Row}
    (h : ∀ row ∈ rows, row.Tidy columns) :
    ∀ row ∈ List.replicate count (blankLine columns erase) ++ rows, row.Tidy columns := by
  intro row hrow
  rcases List.mem_append.mp hrow with hrow | hrow
  · rw [eq_of_mem_replicate hrow]
    exact Row.tidy_blankRow _ _
  · exact h row hrow

/-- With a history, a region scrolls down line by line. -/
theorem scrollDown_swaps (h : g.Good) {start stop count : ℕ} (hstop : stop ≤ g.lines)
    (hpart : count < stop - start) (hlimit : g.maxScrollLimit ≠ 0) :
    (g.scrollDown { start := start, stop := stop } count).Good ∧
      (g.scrollDown { start := start, stop := stop } count).raw.rows = g.toLines.history ++
        (g.toLines.visible.take start ++ (List.replicate count (blankLine g.columns g.cursor.erase) ++
          (g.regionRows start stop).take (stop - start - count)) ++ g.toLines.visible.drop stop) := by
  have hregion := @length_regionRows _ h start _ hstop
  have hlower : (g.toLines.visible.drop stop).length = g.lines - stop := by
    rw [length_drop, length_visible h]
  have hlines := h.lines_le
  have hscreen := h.visible
  have hmoved : ((g.regionRows start stop).take (stop - start - count)).length =
      stop - start - count := by
    rw [length_take]
    omega
  have hblock : ((g.regionRows start stop).drop (stop - start - count)).length = count := by
    rw [length_drop]
    omega
  obtain ⟨_, hperm, hreset⟩ := @Storage.tape_swapsDown _ _ h.wf _ _ _ _ start
    (tape_cut g (by omega : start ≤ stop) (stop - start - count)) (by omega) (by omega)
    (·.reset g.cursor.erase)
  rw [map_reset (fun row hrow => tidy_region h row (mem_of_mem_drop (hperm.subset hrow))),
    hperm.length_eq, hmoved, hblock,
    show (start : ℤ) + count + (stop - start - count : ℕ) = stop by omega,
    append_assoc _ _ ((g.regionRows start stop).take _)] at hreset
  have hdown : g.scrollDown { start := start, stop := stop } count =
      { g with
        raw := (g.raw.swapLines (lineRange (start + count) stop).reverse (-(count : ℤ))).modifyLines
          (lineRange start (start + count)) (·.reset g.cursor.erase) } := by
    unfold scrollDown
    rw [if_neg (by dsimp only; omega), if_neg hlimit]
    unfold resetLines
    dsimp only
    rw [Storage.modifyLines_reverse]
  rw [hdown]
  have hgood := @good_region _ h
    { g with
      raw := (g.raw.swapLines (lineRange (start + count) stop).reverse (-(count : ℤ))).modifyLines
        (lineRange start (start + count)) (·.reset g.cursor.erase) }
    start stop _ _ (by omega) hstop rfl rfl rfl
    (Storage.wf_modifyLines (Storage.wf_swapLines h.wf _ _) _ _)
    ((Storage.visibleLines_modifyLines ..).trans (Storage.visibleLines_swapLines ..))
    ((Storage.len_modifyLines ..).trans (Storage.len_swapLines ..))
    (by rw [length_append, hmoved, length_replicate]; omega) (tidy_cached h)
    (tidy_entered fun row hrow => tidy_region h row (mem_of_mem_take hrow)) hreset
  exact ⟨hgood.1, hgood.2.2⟩

/-- Without a history, the whole buffer rotates down and the lines fixed around
the region are swapped back. -/
theorem scrollDown_rotates (h : g.Good) {start stop count : ℕ} (hstop : stop ≤ g.lines)
    (hpart : count < stop - start) (hlimit : g.maxScrollLimit = 0) :
    (g.scrollDown { start := start, stop := stop } count).Good ∧
      (g.scrollDown { start := start, stop := stop } count).raw.rows = g.toLines.history ++
        (g.toLines.visible.take start ++ (List.replicate count (blankLine g.columns g.cursor.erase) ++
          (g.regionRows start stop).take (stop - start - count)) ++ g.toLines.visible.drop stop) := by
  have hregion := @length_regionRows _ h start _ hstop
  have hscreen := h.visible
  have hbound := h.history
  have hfull := h.len_eq
  have hhistory : g.toLines.history = [] := by
    apply eq_nil_of_length_eq_zero
    rw [length_history h]
    omega
  have hupper : (g.toLines.visible.take start).length = start := by
    rw [length_take, length_visible h]
    omega
  have hkept : ((g.regionRows start stop).take (stop - start - count)).length =
      stop - start - count := by
    rw [length_take]
    omega
  have hblock : ((g.regionRows start stop).drop (stop - start - count)).length = count := by
    rw [length_drop]
    omega
  have hrows : g.raw.rows = g.toLines.visible.take start ++
      (g.regionRows start stop).take (stop - start - count) ++
      (g.regionRows start stop).drop (stop - start - count) ++ g.toLines.visible.drop stop := by
    refine (append_cancel_left_eq g.raw.cached _ _).mp ?_
    rw [Storage.cached_append_rows, tape_cut g (by omega : start ≤ stop) (stop - start - count),
      hhistory]
    simp only [append_assoc, append_nil]
  obtain ⟨entering, hperm, hreset⟩ := Storage.tape_rotatesDown h.wf hrows (by omega)
    (·.reset g.cursor.erase)
  have habove : ∀ row ∈ ((g.regionRows start stop).drop (stop - start - count)).rotate
      (g.toLines.visible.drop stop).length ++ g.raw.cached, row.Tidy g.columns := by
    intro row hrow
    rcases List.mem_append.mp hrow with hrow | hrow
    · exact tidy_region h row (mem_of_mem_drop (List.mem_rotate.mp hrow))
    · exact tidy_cached h row hrow
  have hentering : entering.length = count := by
    rw [hperm.length_eq, Storage.length_rotatedIn, hblock]
  rw [map_reset (fun row hrow => habove row (mem_of_mem_drop (hperm.subset hrow))), hentering,
    hupper, hkept, hblock, hscreen, show start + (stop - start - count) + count = stop by omega,
    append_assoc _ _ ((g.regionRows start stop).take _)] at hreset
  have hdown : g.scrollDown { start := start, stop := stop } count =
      { g with
        raw := (((g.raw.swapLines (lineRange stop g.lines) (-(count : ℤ))).rotateDown
          count).modifyLines (lineRange 0 count) (·.reset g.cursor.erase)).swapLines
            (lineRange 0 start) count } := by
    unfold scrollDown resetLines
    rw [if_neg (by dsimp only; omega), if_pos hlimit]
  rw [hdown]
  have hgood := @good_region _ h
    { g with
      raw := (((g.raw.swapLines (lineRange stop g.lines) (-(count : ℤ))).rotateDown
        count).modifyLines (lineRange 0 count) (·.reset g.cursor.erase)).swapLines
          (lineRange 0 start) count }
    start stop _ (List.replicate count (blankLine g.columns g.cursor.erase) ++
      (g.regionRows start stop).take (stop - start - count)) (by omega) hstop rfl rfl rfl
    (Storage.wf_swapLines (Storage.wf_modifyLines (Storage.wf_rotateDown
      (Storage.wf_swapLines h.wf _ _) _) _ _) _ _)
    ((Storage.visibleLines_swapLines ..).trans ((Storage.visibleLines_modifyLines ..).trans
      (Storage.visibleLines_swapLines ..)))
    ((Storage.len_swapLines ..).trans ((Storage.len_modifyLines ..).trans
      (Storage.len_swapLines ..)))
    (by simp only [length_append, hkept, length_replicate]; omega)
    (fun row hrow => habove row (mem_of_mem_take hrow))
    (tidy_entered fun row hrow => tidy_region h row (mem_of_mem_take hrow))
    (by
      rw [hhistory, append_nil]
      exact hreset)
  exact ⟨hgood.1, hgood.2.2⟩

theorem refines_regionDown (h : g.Good) {start stop count : ℕ} (hstart : start < stop)
    (hstop : stop ≤ g.lines) : (g.scrollDown { start := start, stop := stop } count).Good ∧
      LineStep g (.scrollDown start stop count)
        (g.scrollDown { start := start, stop := stop } count) := by
  have hregion := @length_regionRows _ h start _ hstop
  have hstep := @Lines.Step.regionDown _ _ (Row.new g.columns) (blankLine g.columns) g.toLines start
    stop count ((g.scrollDown { start := start, stop := stop } count).raw.cached)
  by_cases hall : stop - start ≤ count
  · have hreset : g.scrollDown { start := start, stop := stop } count =
        g.resetLines (lineRange start stop) := by
      unfold scrollDown
      rw [if_pos (by dsimp only; omega)]
    obtain ⟨hgood, _, hrows⟩ := refines_regionReset h (Nat.le_of_lt hstart) hstop
    rw [hreset] at hstep ⊢
    refine ⟨hgood, ?_⟩
    rw [LineStep, toLines_eq rfl hrows rfl rfl rfl]
    rw [Lines.regionDown, Nat.min_eq_right hall, Nat.sub_eq_zero_of_le hall, take_zero,
      append_nil] at hstep
    exact hstep
  · have hdown : (g.scrollDown { start := start, stop := stop } count).Good ∧
        (g.scrollDown { start := start, stop := stop } count).raw.rows = g.toLines.history ++
          (g.toLines.visible.take start ++
            (List.replicate count (blankLine g.columns g.cursor.erase) ++
              (g.regionRows start stop).take (stop - start - count)) ++
            g.toLines.visible.drop stop) := by
      by_cases hlimit : g.maxScrollLimit = 0
      · exact scrollDown_rotates h hstop (by omega) hlimit
      · exact scrollDown_swaps h hstop (by omega) hlimit
    refine ⟨hdown.1, ?_⟩
    rw [LineStep, toLines_eq rfl hdown.2 (sameFrame_scrollDown ..).lines
      (sameFrame_scrollDown ..).maxScrollLimit
      (congrArg Cursor.erase (sameFrame_scrollDown ..).cursor)]
    rw [Lines.regionDown, Nat.min_eq_left (by omega), append_assoc (g.toLines.visible.take start)]
      at hstep
    exact hstep

/-- Every operation of the buffer keeps a grid good and is a step of the list model. -/
theorem applyLine_refines (h : g.Good) (op : LineOp Row Cell) (hop : g.Applicable op) :
    (g.applyLine op).Good ∧ LineStep g op (g.applyLine op) := by
  cases op with
  | initializeRows => exact refines_initializeRows h hop
  | shrinkLines => exact refines_shrinkLines h hop
  | growVisibleLines => exact refines_growVisibleLines h hop
  | shrinkVisibleLines => exact refines_shrinkVisibleLines h hop
  | rotate => exact refines_rotate h hop
  | rotateDown count => exact refines_rotateDown h count
  | swap => exact refines_swap h hop
  | scrollUp start =>
    obtain ⟨hstart, hstop, hcount⟩ := hop
    rcases Nat.eq_zero_or_pos start with rfl | hpos
    · exact refines_pushUp h hstop hstart (hcount rfl)
    · exact refines_regionUp h hpos hstart hstop
  | scrollDown =>
    obtain ⟨hstart, hstop⟩ := hop
    exact refines_regionDown h hstart hstop
  | clearHistory => exact refines_clearHistory h
  | updateHistory limit => exact refines_updateHistory h limit
  | write => exact refines_write h hop
  | setErase erase => exact refines_setErase h erase

theorem columns_applyLine (g : Grid) (op : LineOp Row Cell) :
    (g.applyLine op).columns = g.columns := by
  cases op with
  | scrollUp =>
    unfold applyLine scrollUp scrollUpResetting
    dsimp only
    split
    · rfl
    · exact (sameFrame_scrollRows ..).columns
  | scrollDown =>
    unfold applyLine scrollDown
    dsimp only
    split
    · rfl
    · split <;> rfl
  | _ => rfl

def runLines (g : Grid) (ops : List (LineOp Row Cell)) : Grid := ops.foldl applyLine g

/-- Each operation of a sequence is applicable where it runs. -/
def RunApplicable : Grid → List (LineOp Row Cell) → Prop
  | _, [] => True
  | g, op :: ops => g.Applicable op ∧ RunApplicable (g.applyLine op) ops

theorem runLines_refines (h : g.Good) {ops : List (LineOp Row Cell)} (hops : g.RunApplicable ops) :
    (g.runLines ops).Good ∧ (g.runLines ops).columns = g.columns ∧
      Lines.Run (Row.new g.columns) (blankLine g.columns) g.toLines ops (g.runLines ops).toLines := by
  induction ops generalizing g with
  | nil => exact ⟨h, rfl, .nil⟩
  | cons op _ ih =>
    obtain ⟨hop, hrest⟩ := hops
    obtain ⟨hgood, hstep⟩ := applyLine_refines h op hop
    have hcolumns := columns_applyLine g op
    obtain ⟨hlast, hwidth, hrun⟩ := ih hgood hrest
    rw [hcolumns] at hwidth hrun
    exact ⟨hlast, hwidth, .cons hstep hrun⟩

/-- What is readable after an operation that makes no room does not depend on
what the cached rows held. -/
theorem sameLines_applyLine {g₁ g₂ : Grid} {op : LineOp Row Cell} (h₁ : g₁.Good) (h₂ : g₂.Good)
    (hcolumns : g₁.columns = g₂.columns) (hsame : g₁.toLines.SameLines g₂.toLines)
    (hop : op.exposes = false) (hop₁ : g₁.Applicable op) (hop₂ : g₂.Applicable op) :
    (g₁.applyLine op).toLines.SameLines (g₂.applyLine op).toLines := by
  obtain ⟨_, hstep₁⟩ := applyLine_refines h₁ op hop₁
  obtain ⟨_, hstep₂⟩ := applyLine_refines h₂ op hop₂
  rw [LineStep, ← hcolumns] at hstep₂
  exact Lines.step_sameLines hop hsame hstep₁ hstep₂

theorem row_rows (h : g.Good) {line : ℤ} (hline : g.raw.InRange line) :
    g.toLines.rows[g.toLines.place line]? = some (g.row line) := by
  have hrows : g.toLines.rows.length = g.raw.len := Storage.length_rows h.wf
  have hread := Storage.get_rows h.wf hline
  rw [h.visible] at hread
  rw [Lines.place, hrows]
  exact hread

/-- The grid over its ring buffer refines the list of lines: every run of the
buffer's operations from a fresh grid is a run of the list model, lines are read
where the model has them, and no operation but those that make room lets a
cached row through. -/
theorem buffer_refines_lines {lines : ℕ} (hlines : 0 < lines) (columns limit : ℕ)
    (ops : List (LineOp Row Cell)) (hops : (new lines columns limit).RunApplicable ops) :
    let g := (new lines columns limit).runLines ops
    Lines.Run (Row.new columns) (blankLine columns) (new lines columns limit).toLines ops g.toLines ∧
      g.raw.zero < g.raw.inner.length ∧ g.historySize ≤ g.maxScrollLimit ∧
      (∀ line, g.raw.InRange line → g.toLines.rows[g.toLines.place line]? = some (g.row line)) ∧
      ∀ (g' : Grid) (op : LineOp Row Cell), g'.Good → g'.columns = columns →
        g.toLines.SameLines g'.toLines → op.exposes = false → g.Applicable op → g'.Applicable op →
        (g.applyLine op).toLines.SameLines (g'.applyLine op).toLines := by
  intro g
  obtain ⟨hgood, hcolumns, hrun⟩ := runLines_refines (good_new hlines columns limit) hops
  have hbound := hgood.history
  have hfull := hgood.len_eq
  refine ⟨hrun, hgood.wf.zero_lt, ?_, fun line => row_rows hgood, ?_⟩
  · change g.raw.len ≤ g.lines + g.maxScrollLimit at hbound
    change g.raw.len = g.lines + g.historySize at hfull
    omega
  · intro _ _ hgood' hcolumns' hsame hop hop₁ hop₂
    exact sameLines_applyLine hgood hgood' (hcolumns.trans hcolumns'.symm) hsame hop hop₁ hop₂

theorem buffer_refines_lines_scrolled : Lines.Run (Row.new 1) (blankLine 1) (new 2 1 1).toLines
      [.write 1 (·.modify 0 (·.setC 'A')), .scrollUp 0 2 1, .scrollDown 0 1 1] ((new 2 1 1).runLines
        [.write 1 (·.modify 0 (·.setC 'A')), .scrollUp 0 2 1, .scrollDown 0 1 1]).toLines :=
  (buffer_refines_lines (by decide) 1 1
    [.write 1 (·.modify 0 (·.setC 'A')), .scrollUp 0 2 1, .scrollDown 0 1 1]
    ⟨⟨⟨by decide, by decide⟩, fun _ h => Row.tidy_modify h 0 _⟩, ⟨by decide, by decide, by decide⟩,
      ⟨by decide, by decide⟩, trivial⟩).1

/-- Shrinking and growing the screen brings a cached row back, and a region at
the top scrolled by more than its size displaces the lines fixed below it. -/
theorem cached_row_exposed : (∀ row ∈ ((new 2 1 0).runLines
        [.write 0 (·.modify 0 (·.setC 'A')), .shrinkVisibleLines 1]).raw.rows, row = Row.new 1) ∧
      (((new 2 1 0).runLines [.write 0 (·.modify 0 (·.setC 'A')), .shrinkVisibleLines 1,
        .growVisibleLines 2]).row 0).get 0 = { c := 'A' } ∧
      (((new 3 1 0).runLines [.write 1 (·.modify 0 (·.setC 'B')), .scrollUp 0 1 2]).row 1).get 0 ≠
        { c := 'B' } := by
  decide

end Grid

end Vivido.Terminal
