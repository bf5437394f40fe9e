import Vivido.Grid.LineMoves
import Vivido.Grid.Resetting
import Vivido.Grid.Resize

/-!
The two ways of scrolling a region down, on any rows. With a history the rows
of the region are swapped down one by one; without one the whole buffer rotates
and the fixed rows are swapped back. Both put the rows that stay in the same
places. They do not reset the same rows: the rotation brings up cached rows
first, so the outcomes agree only as far as a reset forgets the row it is given.
-/

namespace Vivido.Terminal

open List

namespace Storage

variable {ρ : Type*} {s : Storage ρ}

theorem rows_swapsDown (hs : s.WF) {upper kept block lower : List ρ} {start : ℤ}
    (hrows : s.rows = upper ++ kept ++ block ++ lower)
    (hstart : start + kept.length + block.length + lower.length = s.visibleLines) (f : ρ → ρ) :
    ∃ entering : List ρ, entering.Perm block ∧
      ((s.swapLines (lineRange (start + block.length) (start + block.length + kept.length)).reverse
        (-(block.length : ℤ))).modifyLines (lineRange start (start + block.length)) f).rows =
        upper ++ entering.map f ++ kept ++ lower := by
  have htotal := congrArg List.length hrows
  rw [length_rows hs] at htotal
  simp only [length_append] at htotal
  have htape : s.tape = (s.cached ++ upper) ++ kept ++ block ++ lower := by
    rw [← s.cached_append_rows, hrows]
    simp only [append_assoc]
  obtain ⟨entering, hperm, hmoved⟩ := tape_swapsDown hs htape hstart (by omega) f
  refine ⟨entering, hperm,
    (@rows_eq _ _ (wf_modifyLines (wf_swapLines hs _ _) _ _) s.cached _ ?_ ?_).2⟩
  · rw [hmoved]
    simp only [append_assoc]
  · rw [len_modifyLines, len_swapLines]
    simp only [length_append, length_map, hperm.length_eq]
    omega

theorem rows_rotatesDown (hs : s.WF) {upper kept block lower : List ρ}
    (hrows : s.rows = upper ++ kept ++ block ++ lower) (hlen : s.len = s.visibleLines) (f : ρ → ρ) :
    ∃ entering : List ρ, entering.Perm (s.rotatedIn block lower) ∧
      ((((s.swapLines (lineRange (upper.length + kept.length + block.length : ℕ) s.visibleLines)
        (-(block.length : ℤ))).rotateDown block.length).modifyLines (lineRange 0 block.length)
          f).swapLines (lineRange 0 upper.length) block.length).rows =
        upper ++ entering.map f ++ kept ++ lower := by
  have htotal := congrArg List.length hrows
  rw [length_rows hs] at htotal
  obtain ⟨entering, hperm, hmoved⟩ := tape_rotatesDown hs hrows hlen f
  have hwf := wf_swapLines (wf_modifyLines (wf_rotateDown (wf_swapLines hs
    (lineRange (upper.length + kept.length + block.length : ℕ) s.visibleLines)
    (-(block.length : ℤ))) block.length) (lineRange 0 block.length) f)
    (lineRange 0 upper.length) block.length
  simp only [append_assoc _ upper, append_assoc _ (upper ++ _),
    append_assoc _ (upper ++ _ ++ _)] at hmoved
  refine ⟨entering, hperm, (rows_eq hwf hmoved ?_).2⟩
  · rw [len_swapLines, len_modifyLines]
    change _ = (s.swapLines _ _).len
    rw [len_swapLines, htotal]
    simp only [length_append, length_map, hperm.length_eq, length_rotatedIn]
    omega

end Storage

namespace Grid

variable {g : Grid} {start stop count : ℕ}

/-- A grid that keeps no history: its readable rows are those of the screen. -/
structure Unscrolled (g : Grid) : Prop where
  wf : g.raw.WF
  visible : g.raw.visibleLines = g.lines
  full : g.raw.len = g.lines
  limit : g.maxScrollLimit = 0

/-- The last rows of a region, as many as `count`. -/
def leavingRows (g : Grid) (start stop count : ℕ) : List Row :=
  ((g.raw.rows.take stop).drop start).drop (stop - start - count)

/-- The rows that one of the two ways of scrolling down resets. -/
def resetRows (g : Grid) (start stop count : ℕ) : List Row :=
  if stop - start ≤ count then g.leavingRows start stop count
  else g.leavingRows start stop count ++
    g.raw.rotatedIn (g.leavingRows start stop count) (g.raw.rows.drop stop)

theorem Unscrolled.length_rows (h : g.Unscrolled) : g.raw.rows.length = g.lines :=
  (Storage.length_rows h.wf).trans h.full

theorem Unscrolled.scrolledDown (h : g.Unscrolled) (blank : Row) :
    g.toLines.scrolledDown blank start stop count = g.raw.rows.take start ++
      List.replicate (min count (stop - start)) blank ++
      ((g.raw.rows.take stop).drop start).take (stop - start - count) ++ g.raw.rows.drop stop := by
  have hlen := h.length_rows
  have hhistory : g.toLines.history = [] := by
    unfold Lines.history toLines
    dsimp only
    rw [hlen, Nat.sub_self, take_zero]
  have hvisible : g.toLines.visible = g.raw.rows := by
    unfold Lines.visible toLines
    dsimp only
    rw [hlen, Nat.sub_self, drop_zero]
  unfold Lines.scrolledDown Lines.regionDown
  rw [hhistory, hvisible, nil_append]

/-- The rows around and in a region, the ones leaving it apart. -/
theorem Unscrolled.rows_split (h : g.Unscrolled) (hstart : start < stop) (hstop : stop ≤ g.lines)
    (count : ℕ) : g.raw.rows = g.raw.rows.take start ++
        ((g.raw.rows.take stop).drop start).take (stop - start - count) ++
        g.leavingRows start stop count ++ g.raw.rows.drop stop ∧
      (g.raw.rows.take start).length = start ∧
      (((g.raw.rows.take stop).drop start).take (stop - start - count)).length =
        stop - start - count ∧ (g.leavingRows start stop count).length = min count (stop - start) ∧
      (g.raw.rows.drop stop).length = g.lines - stop := by
  have hlen := h.length_rows
  refine ⟨?_, ?_, ?_, ?_, ?_⟩
  · unfold leavingRows
    rw [append_assoc (g.raw.rows.take start), take_append_drop]
    have hupper := take_append_drop start (g.raw.rows.take stop)
    rw [take_take, Nat.min_eq_left (Nat.le_of_lt hstart)] at hupper
    rw [hupper, take_append_drop]
  · rw [length_take]
    omega
  · rw [length_take, length_drop, length_take]
    omega
  · unfold leavingRows
    rw [length_drop, length_drop, length_take]
    omega
  · rw [length_drop, hlen]

/-- Updated rows are blank exactly when each of them is. -/
theorem updated_eq_iff {ρ : Type*} {upper entering kept lower : List ρ} {n : ℕ} {f : ρ → ρ}
    {blank : ρ} (hlen : entering.length = n) :
    upper ++ entering.map f ++ kept ++ lower = upper ++ List.replicate n blank ++ kept ++ lower ↔
      ∀ row ∈ entering, f row = blank := by
  rw [append_left_inj, append_left_inj, append_right_inj, eq_replicate_iff,
    length_map]
  constructor
  · intro h row hrow
    exact h.2 (f row) (mem_map_of_mem hrow)
  · intro h
    refine ⟨hlen, ?_⟩
    intro _ hrow
    obtain ⟨old, hold, rfl⟩ := List.mem_map.mp hrow
    exact h old hold

section

variable (h : g.Unscrolled) (hstart : start < stop) (hstop : stop ≤ g.lines)
include h hstart hstop

/-- The outcome with a history limit. -/
theorem Unscrolled.swapped_iff
    (hpart : count < stop - start) {limit : ℕ} (hlimit : limit ≠ 0) :
    (({ g with maxScrollLimit := limit } : Grid).scrollDown { start := start, stop := stop }
        count).raw.rows =
      g.toLines.scrolledDown (blankLine g.columns g.cursor.erase) start stop count ↔
    ∀ row ∈ g.leavingRows start stop count,
      row.reset g.cursor.erase = blankLine g.columns g.cursor.erase := by
  obtain ⟨hrows, _, hkept, hblock, _⟩ := h.rows_split hstart hstop count
  have hvisible := h.visible
  have hpath : ({ g with maxScrollLimit := limit } : Grid).scrollDown
      { start := start, stop := stop } count = { g with
        maxScrollLimit := limit
        raw := (g.raw.swapLines (lineRange (start + count) stop).reverse (-(count : ℤ))).modifyLines
          (lineRange start (start + count)) (·.reset g.cursor.erase) } := by
    unfold scrollDown
    rw [if_neg (by dsimp only; omega), if_neg hlimit]
    unfold resetLines
    dsimp only
    rw [Storage.modifyLines_reverse]
  obtain ⟨_, hperm, hresult⟩ := @Storage.rows_swapsDown _ _ h.wf _ _ _ _ start hrows
    (by omega) (·.reset g.cursor.erase)
  rw [hblock, hkept, Nat.min_eq_left (Nat.le_of_lt hpart),
    show (start : ℤ) + count + (stop - start - count : ℕ) = stop by omega] at hresult
  rw [hpath, h.scrolledDown]
  dsimp only
  rw [hresult, updated_eq_iff (hperm.length_eq.trans hblock)]
  constructor
  · intro hall row hrow
    exact hall row (hperm.mem_iff.mpr hrow)
  · intro hall row hrow
    exact hall row (hperm.mem_iff.mp hrow)

/-- The outcome without one. -/
theorem Unscrolled.rotated_iff (hpart : count < stop - start) :
    (g.scrollDown { start := start, stop := stop } count).raw.rows =
      g.toLines.scrolledDown (blankLine g.columns g.cursor.erase) start stop count ↔
    ∀ row ∈ g.raw.rotatedIn (g.leavingRows start stop count) (g.raw.rows.drop stop),
      row.reset g.cursor.erase = blankLine g.columns g.cursor.erase := by
  obtain ⟨hrows, hupper, hkept, _, _⟩ := h.rows_split hstart hstop count
  have hvisible := h.visible
  have hcount : (g.leavingRows start stop count).length = count := by omega
  have hpath : g.scrollDown { start := start, stop := stop } count = { g with
      raw := (((g.raw.swapLines (lineRange stop g.lines) (-(count : ℤ))).rotateDown
        count).modifyLines (lineRange 0 count) (·.reset g.cursor.erase)).swapLines
          (lineRange 0 start) count } := by
    unfold scrollDown resetLines
    rw [if_neg (by dsimp only; omega), if_pos h.limit]
  obtain ⟨entering, hperm, hresult⟩ := Storage.rows_rotatesDown h.wf hrows
    (h.full.trans hvisible.symm) (·.reset g.cursor.erase)
  rw [hupper, hkept, hcount, hvisible, show start + (stop - start - count) + count = stop by omega]
    at hresult
  have hentering : entering.length = min count (stop - start) := by
    rw [hperm.length_eq, Storage.length_rotatedIn]
    omega
  rw [hpath, h.scrolledDown]
  dsimp only
  rw [hresult, updated_eq_iff hentering]
  constructor
  · intro hall row hrow
    exact hall row (hperm.mem_iff.mpr hrow)
  · intro hall row hrow
    exact hall row (hperm.mem_iff.mp hrow)

/-- A region no larger than the scroll is reset in place, whatever the limit. -/
theorem Unscrolled.reset_iff (hall : stop - start ≤ count) (limit : ℕ) :
    (({ g with maxScrollLimit := limit } : Grid).scrollDown { start := start, stop := stop }
        count).raw.rows =
      g.toLines.scrolledDown (blankLine g.columns g.cursor.erase) start stop count ↔
    ∀ row ∈ g.leavingRows start stop count,
      row.reset g.cursor.erase = blankLine g.columns g.cursor.erase := by
  obtain ⟨hrows, hupper, _, hblock, hlower⟩ := h.rows_split hstart hstop count
  have hvisible := h.visible
  have hlen := h.full
  have hnone : ((g.raw.rows.take stop).drop start).take (stop - start - count) = [] := by
    rw [Nat.sub_eq_zero_of_le hall, take_zero]
  have hpath : ({ g with maxScrollLimit := limit } : Grid).scrollDown
      { start := start, stop := stop } count = { g with
        maxScrollLimit := limit
        raw := g.raw.modifyLines (lineRange start stop) (·.reset g.cursor.erase) } := by
    unfold scrollDown resetLines
    rw [if_pos (by dsimp only; omega)]
  have htape : g.raw.tape = (g.raw.cached ++ g.raw.rows.take start) ++
      g.leavingRows start stop count ++ g.raw.rows.drop stop := by
    rw [← g.raw.cached_append_rows]
    conv_lhs => rw [hrows, hnone, append_nil]
    simp only [append_assoc]
  have hupdated := @Storage.tape_modifyLines _ _ h.wf _ _ _ start stop htape
    (by rw [hlower]; omega) (by rw [hblock]; omega) (by rw [hblock, hlower]; omega)
    (·.reset g.cursor.erase)
  have hresult := (@Storage.rows_eq _ _ (Storage.wf_modifyLines h.wf _ _) g.raw.cached
    (g.raw.rows.take start ++ (g.leavingRows start stop count).map (·.reset g.cursor.erase) ++ [] ++
      g.raw.rows.drop stop)
    (by
      rw [hupdated]
      simp only [append_assoc, nil_append])
    (by
      rw [Storage.len_modifyLines]
      simp only [length_append, length_map, length_nil, hupper, hblock, hlower]
      omega)).2
  rw [hpath, h.scrolledDown, hnone]
  dsimp only
  rw [hresult, updated_eq_iff hblock]

end

/-- Both ways of scrolling down move the region's rows down, let blank rows enter and leave the
other rows, if and only if a reset clears each row that one of them resets. -/
theorem scrollDown_paths_iff (h : g.Unscrolled) (hstart : start < stop) (hstop : stop ≤ g.lines)
    {limit : ℕ} (hlimit : limit ≠ 0) :
    ((g.scrollDown { start := start, stop := stop } count).raw.rows =
        g.toLines.scrolledDown (blankLine g.columns g.cursor.erase) start stop count ∧
      (({ g with maxScrollLimit := limit } : Grid).scrollDown { start := start, stop := stop }
        count).raw.rows =
        g.toLines.scrolledDown (blankLine g.columns g.cursor.erase) start stop count) ↔
    ∀ row ∈ g.resetRows start stop count, row.Clears g.columns g.cursor.erase := by
  have hclears : (∀ row ∈ g.resetRows start stop count, row.Clears g.columns g.cursor.erase) ↔
      ∀ row ∈ g.resetRows start stop count,
        row.reset g.cursor.erase = blankLine g.columns g.cursor.erase :=
    forall₂_congr fun _ _ => Row.clears_iff
  rw [hclears]
  unfold resetRows
  by_cases hall : stop - start ≤ count
  · have hzero := h.reset_iff hstart hstop hall g.maxScrollLimit
    rw [if_pos hall, h.reset_iff hstart hstop hall limit]
    change (_ ∧ _) ↔ _
    rw [show ({ g with maxScrollLimit := g.maxScrollLimit } : Grid) = g from rfl] at hzero
    rw [hzero]
    exact and_self_iff
  · rw [if_neg hall, h.swapped_iff hstart hstop (Nat.lt_of_not_le hall) hlimit,
      h.rotated_iff hstart hstop (Nat.lt_of_not_le hall), forall_mem_append]
    exact and_comm

theorem unscrolled_new {lines columns : ℕ} (hlines : 0 < lines) :
    (new lines columns 0).Unscrolled :=
  ⟨Storage.wf_withCapacity hlines _, rfl, rfl, rfl⟩

theorem scrollDown_paths_new : ((new 2 1 0).scrollDown { start := 0, stop := 2 } 1).raw.rows =
        (new 2 1 0).toLines.scrolledDown (blankLine 1 {}) 0 2 1 ∧
      (({ new 2 1 0 with maxScrollLimit := 1 } : Grid).scrollDown { start := 0, stop := 2 }
        1).raw.rows = (new 2 1 0).toLines.scrolledDown (blankLine 1 {}) 0 2 1 :=
  (scrollDown_paths_iff (unscrolled_new (by decide)) (by decide) (by decide) (by decide)).mpr
    (by decide)

/-- A grid erased with a background, then widened, and back to the default background. -/
def widened : Grid :=
  { (({ new 2 1 0 with cursor.erase := blank { index := 1, showsOnBlank := true } } :
      Grid).resetLines [0, 1]).growColumns false 2 with cursor.erase := {} }

/-- What enters the widened grid is not blank. -/
theorem scrollDown_widened : widened.Unscrolled ∧
      ¬((widened.scrollDown { start := 0, stop := 2 } 1).raw.rows =
          widened.toLines.scrolledDown (blankLine widened.columns widened.cursor.erase) 0 2 1 ∧
        (({ widened with maxScrollLimit := 1 } : Grid).scrollDown { start := 0, stop := 2 }
          1).raw.rows =
          widened.toLines.scrolledDown (blankLine widened.columns widened.cursor.erase) 0 2 1) :=
  ⟨⟨⟨by decide, by decide, by decide, by decide⟩, by decide, by decide, by decide⟩, by decide⟩

end Grid

end Vivido.Terminal
