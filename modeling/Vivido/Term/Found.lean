import Vivido.Support.Occurrences
import Vivido.Term.Finding
import Vivido.Term.Screens

/-!
What is found in the viewport. The search of a row reports the occurrences from the
left; the spans of a row divide the bytes of its text among its cells, so that a
match leads to the cells whose text it is made of. A match lies within one row, and
two matches in a row share at most the cell whose characters they divide.
-/

namespace Vivido.Terminal

open List Option

/-! ### The search -/

namespace RowMatcher

variable {needle hay : List UInt8}

theorem position_some {i : ℕ} (h : position needle hay = some i) :
    OccursAt needle hay i ∧ ∀ j < i, ¬OccursAt needle hay j := by
  unfold position at h
  rw [find?_range_eq_some] at h
  obtain ⟨hfound, hlt, hbefore⟩ := h
  rw [mem_range] at hlt
  rw [decide_eq_true_eq] at hfound
  refine ⟨occursAt_iff.mpr ⟨by omega, hfound⟩, fun j hj hoccurs => ?_⟩
  have hno := hbefore j hj
  rw [Bool.not_eq_true', decide_eq_false_iff_not] at hno
  exact hno (occursAt_iff.mp hoccurs).2

theorem position_none (h : position needle hay = none) (i : ℕ) : ¬OccursAt needle hay i := by
  intro hoccurs
  obtain ⟨_, htake⟩ := occursAt_iff.mp hoccurs
  unfold position at h
  rw [find?_range_eq_none] at h
  have hno := h i (by omega)
  rw [Bool.not_eq_true', decide_eq_false_iff_not] at hno
  exact hno htake

/-- The loop of the search, from a byte on, with enough fuel to pass the end. -/
theorem findLiteral_spec (hneedle : needle ≠ []) (fuel start : ℕ)
    (hfuel : hay.length < fuel + start) :
    (∀ range ∈ findLiteral needle hay fuel start, start ≤ range.1 ∧
        OccursAt needle hay range.1 ∧ range.2 = range.1 + needle.length) ∧
      (findLiteral needle hay fuel start).Pairwise (fun front back => front.2 ≤ back.1) ∧
        ∀ i, start ≤ i → OccursAt needle hay i →
          ∃ range ∈ findLiteral needle hay fuel start, range.1 ≤ i ∧ i < range.2 := by
  have hpos := length_pos_of_ne_nil hneedle
  induction fuel generalizing start with
  | zero =>
    refine ⟨nofun, List.Pairwise.nil, fun i hi hoccurs => ?_⟩
    exact (not_occursAt_of_lt (by omega) hoccurs).elim
  | succ _ ih =>
    unfold findLiteral
    by_cases hroom : start + needle.length ≤ hay.length
    · rw [if_pos hroom]
      have hstart : start ≤ hay.length := by omega
      cases hposition : position needle (hay.drop start) with
      | none =>
        refine ⟨nofun, List.Pairwise.nil, fun i hi hoccurs => ?_⟩
        obtain ⟨k, rfl⟩ := Nat.exists_eq_add_of_le hi
        exact (position_none hposition k ((occursAt_drop hstart).mpr hoccurs)).elim
      | some relative =>
        obtain ⟨hfound, hfirst⟩ := position_some hposition
        obtain ⟨hranges, hapart, hcomplete⟩ :=
          ih (start + relative + needle.length) (by omega)
        dsimp only
        refine ⟨fun range hrange => ?_, List.pairwise_cons.mpr ⟨fun back hback => ?_, hapart⟩,
          fun i hi hoccurs => ?_⟩
        · rcases List.mem_cons.mp hrange with rfl | hrange
          · exact ⟨Nat.le_add_right _ _, (occursAt_drop hstart).mp hfound, rfl⟩
          · obtain ⟨_, hrest⟩ := hranges range hrange
            exact ⟨by omega, hrest⟩
        · exact (hranges back hback).1
        · obtain ⟨k, rfl⟩ := Nat.exists_eq_add_of_le hi
          have hlate : relative ≤ k := by
            by_contra hearly
            exact hfirst k (by omega) ((occursAt_drop hstart).mpr hoccurs)
          by_cases hin : start + k < start + relative + needle.length
          · exact ⟨_, mem_cons_self, by dsimp only; omega, hin⟩
          · obtain ⟨range, hmem, hrange⟩ := hcomplete (start + k) (by omega) hoccurs
            exact ⟨range, mem_cons_of_mem _ hmem, hrange⟩
    · rw [if_neg hroom]
      refine ⟨nofun, List.Pairwise.nil, fun i hi hoccurs => ?_⟩
      exact (not_occursAt_of_lt (by omega) hoccurs).elim

theorem findAll_leftmost (hneedle : needle ≠ []) (hay : List UInt8) :
    Leftmost needle hay ((literal needle).findAll hay) := by
  obtain ⟨hranges, hapart, hcomplete⟩ :=
    @findLiteral_spec needle hay hneedle (hay.length + 1) 0 (Nat.lt_succ_self _)
  exact ⟨fun range hrange => (hranges range hrange).2, hapart,
    fun i hoccurs => hcomplete i (Nat.zero_le i) hoccurs⟩

end RowMatcher

/-! ### Slices of a text -/

theorem length_utf8_take_lt {text : List Char} {i j : ℕ} (hij : i < j) (hj : j ≤ text.length) :
    (utf8 (text.take i)).length < (utf8 (text.take j)).length := by
  have hsplit : text.take j = text.take i ++ (text.take j).drop i := by
    have happend := take_append_drop i (text.take j)
    rw [take_take, Nat.min_eq_left (Nat.le_of_lt hij)] at happend
    exact happend.symm
  have hmore : (text.take j).drop i ≠ [] := by
    intro hnil
    have hlength := congrArg List.length hnil
    rw [length_drop, length_take, length_nil] at hlength
    omega
  rw [hsplit, utf8_append, length_append]
  exact Nat.lt_add_of_pos_right (length_pos_of_ne_nil (utf8_ne_nil hmore))

theorem charIndex_eq {text before after : List Char} (h : text = before ++ after) :
    charIndex text (utf8 before).length = some before.length := by
  have htake : text.take before.length = before := by rw [h, take_left]
  have hle : before.length ≤ text.length := by
    rw [h, length_append]
    exact Nat.le_add_right _ _
  unfold charIndex
  rw [find?_range_eq_some]
  refine ⟨by rw [htake, decide_eq_true_eq], List.mem_range.mpr (by omega), fun j hj => ?_⟩
  have hlt := length_utf8_take_lt hj hle
  rw [htake] at hlt
  rw [Bool.not_eq_true', decide_eq_false_iff_not]
  omega

theorem sliceText_eq {text before inside after : List Char} (h : text = before ++ inside ++ after) :
    sliceText text (utf8 before).length ((utf8 before).length + (utf8 inside).length) =
      some inside := by
  have hstop := @charIndex_eq text (before ++ inside) after h
  rw [utf8_append, length_append, length_append] at hstop
  unfold sliceText
  rw [charIndex_eq (h.trans (append_assoc ..)), hstop, bind_some, map_some, h,
    ← length_append, take_left, drop_left]

/-! ### The bytes of a line's cells -/

/-- The loop over a line's cells, before a column: each cell that produced text owns its bytes. -/
structure Traced (row : Row) (column : ℕ) (text : List Char) (spans : List RowTextSpan) : Prop where
  parts : text = spans.flatMap fun span => row.cellText span.col
  nonempty : ∀ span ∈ spans, span.start < span.stop
  owned : ∀ span ∈ spans, ∃ front back, utf8 text = front ++ utf8 (row.cellText span.col) ++ back ∧
    span.start = front.length ∧ span.stop = front.length + (utf8 (row.cellText span.col)).length
  covered : ∀ offset < (utf8 text).length, ∃ span ∈ spans, span.start ≤ offset ∧ offset < span.stop
  ordered : spans.Pairwise fun front back => front.stop ≤ back.start ∧ front.col < back.col
  column : ∀ span ∈ spans, span.col < column
  width : ∀ span ∈ spans, span.width = if (row.get span.col).layout.wideChar then 2 else 1

variable {row : Row} {column : ℕ} {text : List Char} {spans : List RowTextSpan}

theorem Traced.later {later : ℕ} (h : Traced row column text spans) (hle : column ≤ later) :
    Traced row later text spans :=
  { h with column := fun span hspan => Nat.lt_of_lt_of_le (h.column span hspan) hle }

theorem Traced.stop_le (h : Traced row column text spans) {span : RowTextSpan}
    (hspan : span ∈ spans) : span.stop ≤ (utf8 text).length := by
  obtain ⟨_, _, htext, -, hstop⟩ := h.owned span hspan
  rw [htext, hstop, length_append, length_append]
  exact Nat.le_add_right _ _

/-- A cell of the line adds its characters and their bytes. -/
theorem Traced.push (h : Traced row column text spans) :
    Traced row (column + 1) (text ++ row.cellText column) (spans ++
      [{ start := (utf8 text).length, stop := (utf8 (text ++ row.cellText column)).length
         col := column
         width := if (row.get column).layout.wideChar then 2 else 1 }]) := by
  have hbytes := utf8_append text (row.cellText column)
  have hmore : 0 < (utf8 (row.cellText column)).length :=
    length_pos_of_ne_nil (utf8_ne_nil (cons_ne_nil _ _))
  have hmem : ∀ {P : RowTextSpan → Prop} {last : RowTextSpan}, (∀ span ∈ spans, P span) →
      P last → ∀ span ∈ spans ++ [last], P span := by
    intro P _ hall hlast span hspan
    rcases List.mem_append.mp hspan with hspan | hspan
    · exact hall span hspan
    · rw [List.mem_singleton.mp hspan]
      exact hlast
  refine ⟨?_, hmem h.nonempty ?_, hmem ?_ ?_, ?_, ?_, hmem ?_ ?_, hmem h.width rfl⟩
  · rw [flatMap_append, ← h.parts, flatMap_singleton]
  · dsimp only
    rw [hbytes, length_append]
    exact Nat.lt_add_of_pos_right hmore
  · intro span hspan
    obtain ⟨front, back, htext, hplace⟩ := h.owned span hspan
    refine ⟨front, back ++ utf8 (row.cellText column), ?_, hplace⟩
    rw [hbytes, htext, append_assoc]
  · refine ⟨utf8 text, [], ?_, rfl, ?_⟩
    · rw [hbytes, append_nil]
    · dsimp only
      rw [hbytes, length_append]
  · intro offset hoffset
    by_cases hold : offset < (utf8 text).length
    · obtain ⟨span, hspan, hin⟩ := h.covered offset hold
      exact ⟨span, mem_append_left _ hspan, hin⟩
    · exact ⟨_, mem_append_right _ (List.mem_singleton.mpr rfl), by dsimp only; omega,
        hoffset⟩
  · rw [pairwise_append]
    refine ⟨h.ordered, pairwise_singleton _ _, fun front hfront back hback => ?_⟩
    rw [List.mem_singleton.mp hback]
    exact ⟨h.stop_le hfront, h.column front hfront⟩
  · exact fun span hspan => Nat.lt_succ_of_lt (h.column span hspan)
  · exact Nat.lt_succ_self column

theorem Traced.step {tabs : List Bool} {state : LineText}
    (h : Traced row column state.text state.spans) :
    Traced row (column + 1) (lineStep tabs row state column).text
      (lineStep tabs row state column).spans := by
  unfold lineStep
  dsimp only
  split
  · exact h.later (Nat.le_succ column)
  · split
    · exact h.later (Nat.le_succ column)
    · exact h.push

theorem Traced.run {tabs : List Bool} {state : LineText}
    (h : Traced row column state.text state.spans) (count : ℕ) : Traced row (column + count)
      (((List.range count).map (column + ·)).foldl (lineStep tabs row) state).text
      (((List.range count).map (column + ·)).foldl (lineStep tabs row) state).spans := by
  induction count with
  | zero => exact h
  | succ _ ih =>
    rw [range_succ, map_append, foldl_append]
    exact ih.step

theorem traced_nil (row : Row) (column : ℕ) : Traced row column [] [] :=
  ⟨rfl, nofun, nofun, fun offset h => (Nat.not_lt_zero offset h).elim, List.Pairwise.nil, nofun,
    nofun⟩

/-- A trailing line break is white space. -/
theorem trimText_newline (text : List Char) : trimText (text ++ ['\n']) = trimText text := by
  unfold trimText
  rw [reverse_append, reverse_singleton, singleton_append, dropWhile_cons]
  rfl

theorem exists_trimText_append (text : List Char) : ∃ blank, text = trimText text ++ blank := by
  refine ⟨(text.reverse.takeWhile isWhitespace).reverse, ?_⟩
  unfold trimText
  rw [← reverse_append, takeWhile_append_dropWhile, reverse_reverse]

namespace Term

/-- The row of the grid that a row of the viewport shows. -/
def viewportRow (t : Term) (row : ℕ) : Row := t.grid.row (t.viewportLine row)

/-- The text of a row of the viewport, without trailing white space. -/
def rowText (t : Term) (row : ℕ) : List Char :=
  trimText ((List.range (min (t.viewportRow row).lineLength (t.lastColumn + 1))).foldl
    (lineStep t.tabs (t.viewportRow row)) {}).text

/-- The text that a row of the viewport is searched in, and its spans. -/
def searched (t : Term) (row : ℕ) : List Char × List RowTextSpan :=
  let (full, spans) := t.lineToStringWithSpans (t.viewportLine row) 0 t.lastColumn false
  (trimText full, spans)

theorem traced_searched (t : Term) (row : ℕ) : ∃ full column, (t.searched row).1 = trimText full ∧
      Traced (t.viewportRow row) column full (t.searched row).2 := by
  unfold searched lineToStringWithSpans
  dsimp only
  rw [if_neg (fun h => Bool.false_ne_true h.2.2.2)]
  generalize (if ((t.grid.row (t.viewportLine row)).get 0).layout.wideCharSpacer = true then
    (0 + (2 ^ 64 - 1)) % 2 ^ 64 else 0) = start
  generalize hlength : min (t.grid.row (t.viewportLine row)).lineLength (t.lastColumn + 1) = length
  have hcolumns : (List.range length).drop start =
      (List.range (length - start)).map (start + ·) := by
    rw [range_eq_range', drop_range', range_eq_range', map_add_range']
    simp
  rw [hcolumns]
  have htraced := @Traced.run (t.viewportRow row) start t.tabs {} (traced_nil _ start)
    (length - start)
  split
  · exact ⟨_, _, trimText_newline _, htraced⟩
  · exact ⟨_, _, rfl, htraced⟩

/-- A row that does not begin with the second half of a wide character is searched as a whole. -/
theorem searched_text (t : Term) (row : ℕ)
    (h : ((t.viewportRow row).get 0).layout.wideCharSpacer = false) :
    (t.searched row).1 = t.rowText row := by
  unfold searched lineToStringWithSpans rowText
  unfold viewportRow at h ⊢
  dsimp only
  rw [if_neg (fun hwrapped => Bool.false_ne_true hwrapped.2.2.2), h, if_neg Bool.false_ne_true,
    drop_zero]
  split
  · exact trimText_newline _
  · rfl

end Term

/-! ### From bytes to cells -/

theorem mem_pairwise {α : Type*} {r : α → α → Prop} {xs : List α} (h : xs.Pairwise r) {x y : α}
    (hx : x ∈ xs) (hy : y ∈ xs) : x = y ∨ r x y ∨ r y x := by
  induction h with
  | nil => cases hx
  | cons hfirst _ ih =>
    rcases List.mem_cons.mp hx with rfl | hx'
    · rcases List.mem_cons.mp hy with rfl | hy'
      · exact Or.inl rfl
      · exact Or.inr (Or.inl (hfirst y hy'))
    · rcases List.mem_cons.mp hy with rfl | hy'
      · exact Or.inr (Or.inr (hfirst x hx'))
      · exact ih hx' hy'

section

variable (h : Traced row column text spans) {front back : RowTextSpan} (hfront : front ∈ spans)
  (hback : back ∈ spans)
include h front back hfront hback

/-- Cells stand in the order of their bytes. -/
theorem Traced.col_le (hbytes : front.start < back.stop) :
    front = back ∨ front.stop ≤ back.start ∧ front.col < back.col := by
  rcases mem_pairwise h.ordered hfront hback with heq | hlt | _
  · exact Or.inl heq
  · exact Or.inr hlt
  · have hempty := h.nonempty front hfront
    omega

/-- Bytes stand in the order of their cells. -/
theorem Traced.stop_le_of_col (hcol : front.col ≤ back.col) :
    front = back ∨ front.stop ≤ back.start := by
  rcases mem_pairwise h.ordered hfront hback with heq | hlt | _
  · exact Or.inl heq
  · exact Or.inr hlt.1
  · omega

end

/-- The cell that a byte of the text belongs to is found. -/
theorem Traced.spanAt_eq (h : Traced row column text spans) {offset : ℕ} {span : RowTextSpan}
    (hspan : span ∈ spans) (hstart : span.start ≤ offset) (hstop : offset < span.stop) :
    spanAt spans offset = some span := by
  obtain ⟨front, back, rfl⟩ := append_of_mem hspan
  have hordered := List.pairwise_append.mp h.ordered
  have hfront : ∀ other ∈ front, decide (other.start ≤ offset) = true := by
    intro other hother
    have hbefore := (hordered.2.2 other hother span mem_cons_self).1
    have hempty := h.nonempty other (mem_append_left _ hother)
    rw [decide_eq_true_eq]
    omega
  have hback : back.takeWhile (fun other => decide (other.start ≤ offset)) = [] := by
    cases back with
    | nil => rfl
    | cons =>
      have hafter := (rel_of_pairwise_cons hordered.2.1 mem_cons_self).1
      rw [takeWhile_cons_of_neg]
      rw [decide_eq_true_eq]
      omega
  have htake : (front ++ span :: back).takeWhile (fun other => decide (other.start ≤ offset)) =
      front ++ [span] := by
    have hhere := @takeWhile_cons_of_pos _ (fun other => decide (other.start ≤ offset)) span
      back (decide_eq_true hstart)
    rw [takeWhile_append_of_pos hfront, hhere, hback]
  unfold spanAt
  rw [htake]
  dsimp only
  rw [length_append, length_singleton, if_neg (Nat.succ_ne_zero _), Nat.add_sub_cancel,
    getElem?_append_right (Nat.le_refl _), Nat.sub_self, getElem?_cons_zero,
    filter_some, if_pos (decide_eq_true hstop)]

/-- Whether some of a cell's bytes are in a range. -/
def RowTextSpan.Meets (span : RowTextSpan) (range : ℕ × ℕ) : Prop :=
  span.start < range.2 ∧ range.1 < span.stop

/-- Whether a match is that of a range of a row's text: its text is that of the range, and it covers
the cells that the text is made of, wide ones with the column to their right, and no other cell that
has any. -/
structure Covers (text : List Char) (spans : List RowTextSpan) (range : ℕ × ℕ)
    (found : ViewportTextMatch) : Prop where
  text : ∃ before after, text = before ++ found.text ++ after ∧
    range = ((utf8 before).length, (utf8 before).length + (utf8 found.text).length)
  cells : ∀ span ∈ spans, span.Meets range →
    found.colStart ≤ span.col ∧ span.col + span.width - 1 ≤ found.colEnd
  only : ∀ column, found.colStart ≤ column → column ≤ found.colEnd →
    (∃ span ∈ spans, span.Meets range ∧ span.col ≤ column ∧ column < span.col + span.width) ∨
      ∀ span ∈ spans, span.col ≠ column

/-- Ranges of whole characters. -/
def OnText (text : List Char) (range : ℕ × ℕ) : Prop :=
  ∃ before inside after, text = before ++ inside ++ after ∧
    range = ((utf8 before).length, (utf8 before).length + (utf8 inside).length)

/-- The match of a range that is not empty. -/
theorem Traced.exists_match (h : Traced row column text spans) {trimmed blank : List Char}
    (htrimmed : text = trimmed ++ blank) {range : ℕ × ℕ} (hrange : OnText trimmed range)
    (hne : range.1 ≠ range.2) (viewportRow : ℕ) :
    ∃ first last inside, spanAt spans range.1 = some first ∧ range.2 ≠ 0 ∧
      spanAt spans (range.2 - 1) = some last ∧ sliceText trimmed range.1 range.2 = some inside ∧
          Covers trimmed spans range
            { row := viewportRow, colStart := first.col
              colEnd := max first.col (last.col + last.width - 1), text := inside } := by
  obtain ⟨before, inside, after, hsplit, rfl⟩ := hrange
  dsimp only at hne ⊢
  generalize hstart : (utf8 before).length = start at hne ⊢
  generalize hstop : start + (utf8 inside).length = stop at hne ⊢
  have hlength : stop ≤ (utf8 text).length := by
    rw [htrimmed, hsplit, utf8_append, utf8_append, utf8_append]
    simp only [length_append]
    omega
  have hslice := sliceText_eq hsplit
  rw [hstart, hstop] at hslice
  obtain ⟨first, hfirst, hfirstStart, hfirstStop⟩ := h.covered start (by omega)
  obtain ⟨last, hlast, hlastStart, hlastStop⟩ := h.covered (stop - 1) (by omega)
  have hwidth : ∀ span ∈ spans, span.width = 1 ∨ span.width = 2 := by
    intro span hspan
    rw [h.width span hspan]
    split
    · exact Or.inr rfl
    · exact Or.inl rfl
  refine ⟨first, last, inside, h.spanAt_eq hfirst hfirstStart hfirstStop, by omega,
    h.spanAt_eq hlast hlastStart hlastStop, hslice, ⟨before, after, hsplit, ?_⟩, ?_, ?_⟩
  · rw [hstart, hstop]
  · rintro span hspan ⟨hmeetsStart, hmeetsStop⟩
    dsimp only at hmeetsStart hmeetsStop ⊢
    have hwide := hwidth span hspan
    have hwideLast := hwidth last hlast
    constructor
    · rcases h.col_le hfirst hspan (by omega) with rfl | ⟨-, hlt⟩ <;> omega
    · rcases h.col_le hspan hlast (by omega) with rfl | ⟨-, hlt⟩ <;> omega
  · intro column hfrom hto
    dsimp only at hfrom hto ⊢
    have hwideFirst := hwidth first hfirst
    have hwideLast := hwidth last hlast
    have hmeetsFirst : first.Meets (start, stop) := ⟨by dsimp only; omega, hfirstStop⟩
    have hmeetsLast : last.Meets (start, stop) := ⟨by dsimp only; omega, by dsimp only; omega⟩
    by_cases howned : ∃ span ∈ spans, span.col = column
    · obtain ⟨span, hspan, rfl⟩ := howned
      by_cases hlate : last.col < span.col
      · refine Or.inl ⟨last, hlast, hmeetsLast, Nat.le_of_lt hlate, ?_⟩
        have hfirstLast : first.col ≤ last.col := by
          rcases h.col_le hfirst hlast (by omega) with rfl | ⟨-, _⟩ <;> omega
        omega
      · have hwide := hwidth span hspan
        refine Or.inl ⟨span, hspan, ⟨?_, ?_⟩, Nat.le_refl _, by omega⟩
        · dsimp only
          rcases h.stop_le_of_col hspan hlast (by omega) with rfl | hbytes
          · omega
          · have hempty := h.nonempty span hspan
            omega
        · dsimp only
          rcases h.stop_le_of_col hfirst hspan hfrom with rfl | _
          · exact hfirstStop
          · have hempty := h.nonempty span hspan
            omega
    · exact Or.inr fun span hspan hcol => howned ⟨span, hspan, hcol⟩

/-! ### The loops -/

/-- The match that a range of a row's text stands for. -/
def matchOf (text : List Char) (spans : List RowTextSpan) (viewportRow : ℕ) (range : ℕ × ℕ) :
    ViewportTextMatch :=
  let first := (spanAt spans range.1).getD ⟨0, 0, 0, 0⟩
  let last := (spanAt spans (range.2 - 1)).getD ⟨0, 0, 0, 0⟩
  { row := viewportRow
    colStart := first.col
    colEnd := max first.col (last.col + last.width - 1)
    text := (sliceText text range.1 range.2).getD [] }

/-- Ranges that are not empty. -/
def nonempty (ranges : List (ℕ × ℕ)) : List (ℕ × ℕ) := ranges.filter fun range => range.1 ≠ range.2

theorem Term.findInRow_eq (h : Traced row column text spans) {trimmed blank : List Char}
    (htrimmed : text = trimmed ++ blank) (viewportRow : ℕ) {maxMatches : ℕ}
    (ranges : List (ℕ × ℕ)) (hranges : ∀ range ∈ ranges, OnText trimmed range)
    {found : List ViewportTextMatch} (hroom : found.length < maxMatches) :
    findInRow spans trimmed viewportRow maxMatches ranges found =
      some (decide (maxMatches ≤ found.length + (nonempty ranges).length),
        (found ++ (nonempty ranges).map (matchOf trimmed spans viewportRow)).take maxMatches) := by
  induction ranges generalizing found with
  | nil =>
    unfold findInRow nonempty
    rw [filter_nil, map_nil, append_nil, length_nil, Nat.add_zero,
      take_of_length_le (Nat.le_of_lt hroom), decide_eq_false (Nat.not_le.mpr hroom)]
  | cons range ranges ih =>
    obtain ⟨start, stop⟩ := range
    have hrest := fun range hrange => hranges range (mem_cons_of_mem _ hrange)
    unfold findInRow
    by_cases hempty : start = stop
    · rw [if_pos hempty, ih hrest hroom]
      have hskip : nonempty ((start, stop) :: ranges) = nonempty ranges :=
        filter_cons_of_neg (by simpa using hempty)
      rw [hskip]
    · obtain ⟨first, last, inside, hfirst, hstop, hlast, hslice, -⟩ :=
        h.exists_match htrimmed (hranges _ mem_cons_self) hempty viewportRow
      have hkeep : nonempty ((start, stop) :: ranges) = (start, stop) :: nonempty ranges :=
        filter_cons_of_pos (by simpa using hempty)
      have hmatch : matchOf trimmed spans viewportRow (start, stop) =
          { row := viewportRow
            colStart := first.col
            colEnd := max first.col (last.col + last.width - 1)
            text := inside } := by
        unfold matchOf
        rw [hfirst, hlast, hslice]
        rfl
      rw [if_neg hempty, hfirst, if_neg hstop, hlast]
      dsimp only at hslice ⊢
      rw [hslice, hkeep, map_cons, hmatch]
      dsimp only
      generalize hone : ({
        row := viewportRow
        colStart := first.col
        colEnd := max first.col (last.col + last.width - 1)
        text := inside } : ViewportTextMatch) = one
      rw [append_cons found one ((nonempty ranges).map _), length_cons]
      by_cases hfull : maxMatches ≤ (found ++ [one]).length
      · have hlength : (found ++ [one]).length = maxMatches := by
          rw [length_append, length_singleton] at hfull ⊢
          omega
        rw [if_pos hfull, ← hlength, take_left, length_append, length_singleton,
          decide_eq_true (by omega)]
      · rw [if_neg hfull, ih hrest (Nat.lt_of_not_le hfull), length_append,
          length_singleton, Nat.add_assoc, Nat.add_comm 1]

namespace Term

/-- The ranges that a row of the viewport is found at. -/
def foundRanges (t : Term) (matcher : RowMatcher) (row : ℕ) : List (ℕ × ℕ) :=
  nonempty (matcher.findAll (utf8 (t.searched row).1))

def foundInRow (t : Term) (matcher : RowMatcher) (row : ℕ) : List ViewportTextMatch :=
  (t.foundRanges matcher row).map (matchOf (t.searched row).1 (t.searched row).2 row)

theorem findInRows_eq (t : Term) (matcher : RowMatcher)
    (hmatcher : ∀ text, ∀ range ∈ matcher.findAll (utf8 text), OnText text range)
    {maxMatches : ℕ} (rows : List ℕ) {found : List ViewportTextMatch}
    (hroom : found.length < maxMatches) : t.findInRows matcher maxMatches rows found =
      some ((found ++ rows.flatMap (t.foundInRow matcher)).take maxMatches) := by
  induction rows generalizing found with
  | nil =>
    unfold findInRows
    rw [flatMap_nil, append_nil, take_of_length_le (Nat.le_of_lt hroom)]
  | cons row rows ih =>
    obtain ⟨full, _, htext, htraced⟩ := t.traced_searched row
    obtain ⟨_, hblank⟩ := exists_trimText_append full
    rw [← htext] at hblank
    have hranges := hmatcher (t.searched row).1
    unfold findInRows
    rcases hline : t.lineToStringWithSpans (t.viewportLine row) 0 t.lastColumn false with
      ⟨line, spans⟩
    have hsearched : t.searched row = (trimText line, spans) := by
      unfold searched
      rw [hline]
    dsimp only
    rw [show trimText line = (t.searched row).1 by rw [hsearched],
      show spans = (t.searched row).2 by rw [hsearched], flatMap_cons]
    by_cases hskip : (t.searched row).1 = [] ∨ (t.searched row).2 = []
    · have hnone : (t.searched row).1 = [] := by
        rcases hskip with hnone | hspans
        · exact hnone
        · have hempty := htraced.parts
          rw [hspans, flatMap_nil, hblank] at hempty
          exact (List.append_eq_nil_iff.mp hempty).1
      have hfound : t.foundInRow matcher row = [] := by
        have hranges : t.foundRanges matcher row = [] := by
          refine List.filter_eq_nil_iff.mpr fun range hrange => ?_
          obtain ⟨_, inside, _, hsplit, rfl⟩ := hranges range hrange
          rw [hnone] at hsplit
          have hinside : inside = [] := by
            have happend := List.append_eq_nil_iff.mp hsplit.symm
            exact (List.append_eq_nil_iff.mp happend.1).2
          rw [hinside]
          simp [utf8]
        unfold foundInRow
        rw [hranges, map_nil]
      rw [if_pos hskip, ih hroom, hfound, nil_append]
    · rw [if_neg hskip, findInRow_eq htraced hblank row _ hranges hroom,
        show nonempty (matcher.findAll (utf8 (t.searched row).1)) = t.foundRanges matcher row from rfl,
        show (t.foundRanges matcher row).map (matchOf (t.searched row).1 (t.searched row).2 row) =
          t.foundInRow matcher row from rfl]
      have hlength : (found ++ t.foundInRow matcher row).length =
          found.length + (t.foundRanges matcher row).length := by
        rw [length_append, foundInRow, length_map]
      rw [← hlength, ← append_assoc]
      by_cases hfull : maxMatches ≤ (found ++ t.foundInRow matcher row).length
      · rw [decide_eq_true hfull]
        dsimp only
        rw [take_append_of_le_length hfull]
      · rw [decide_eq_false hfull]
        dsimp only
        have hless := Nat.lt_of_not_le hfull
        rw [take_of_length_le (Nat.le_of_lt hless), ih hless]

end Term

/-! ### What is found -/

/-- What a matcher finds in a text: the occurrences of the needle from the left, or the matches of
the compiled pattern that are not empty. -/
def RowMatcher.Finds (matcher : RowMatcher) (text : List Char) (ranges : List (ℕ × ℕ)) : Prop :=
  match matcher with
  | literal needle => Leftmost needle (utf8 text) ranges
  | regex findIter => ranges = nonempty (findIter (utf8 text))

/-- A compiled pattern reports ranges of whole characters, in their order and apart. -/
def FindIter.OnTexts (findIter : FindIter) : Prop :=
  ∀ text, (findIter (utf8 text)).Pairwise (fun front back => front.2 ≤ back.1) ∧
    ∀ range ∈ findIter (utf8 text), OnText text range

theorem onText_of_occursAt {pattern text : List Char} (hpattern : pattern ≠ []) {i : ℕ}
    (h : OccursAt (utf8 pattern) (utf8 text) i) :
    ∃ before after, text = before ++ pattern ++ after ∧ i = (utf8 before).length := by
  obtain ⟨_, _, hsplit, hfront⟩ := h
  obtain ⟨before, after, htext, hbefore, -⟩ := selfSync_utf8.split hpattern hsplit
  exact ⟨before, after, htext, by rw [← hfront, ← hbefore]; rfl⟩

namespace Term

variable {compile : List UInt8 → Option FindIter} {pattern : List Char} {regex : Bool}
  {matcher : RowMatcher}

theorem matcher_cases (h : RowMatcher.new compile (utf8 pattern) regex = some matcher) :
    regex = false ∧ matcher = .literal (utf8 pattern) ∨
      ∃ findIter, compile (utf8 pattern) = some findIter ∧ matcher = .regex findIter := by
  unfold RowMatcher.new at h
  split at h
  · obtain ⟨findIter, hcompile, rfl⟩ := Option.map_eq_some_iff.mp h
    exact Or.inr ⟨findIter, hcompile, rfl⟩
  · rename_i hliteral
    cases h
    exact Or.inl ⟨Bool.eq_false_iff.mpr hliteral, rfl⟩

/-- A row of the viewport: its text is that of its cells, the ranges found in it are those of the
matcher, apart and in the order of the cells, and each place is that of its range. -/
structure RowExact (t : Term) (matcher : RowMatcher) (row : ℕ) (ranges : List (ℕ × ℕ))
    (place : ℕ × ℕ → ViewportTextMatch) : Prop where
  cells : ∃ full column, (t.searched row).1 = trimText full ∧
    Traced (t.viewportRow row) column full (t.searched row).2
  finds : ((t.viewportRow row).get 0).layout.wideCharSpacer = false →
    matcher.Finds (t.rowText row) ranges
  ordered : ranges.Pairwise fun front back => front.2 ≤ back.1 ∧
    ∀ span ∈ (t.searched row).2, span.Meets front →
      ∀ other ∈ (t.searched row).2, other.Meets back → span.col ≤ other.col
  onRow : ∀ range ∈ ranges, (place range).row = row
  covers : ∀ range ∈ ranges, Covers (t.searched row).1 (t.searched row).2 range (place range)

theorem rowExact (t : Term) (row : ℕ)
    (hall : ∀ text, ∀ range ∈ matcher.findAll (utf8 text), OnText text range)
    (hapart : ∀ text, (matcher.findAll (utf8 text)).Pairwise fun front back => front.2 ≤ back.1)
    (hfinds : ∀ text, matcher.Finds text (nonempty (matcher.findAll (utf8 text)))) :
    t.RowExact matcher row (t.foundRanges matcher row)
      (matchOf (t.searched row).1 (t.searched row).2 row) := by
  obtain ⟨full, column, htext, htraced⟩ := t.traced_searched row
  obtain ⟨_, hblank⟩ := exists_trimText_append full
  rw [← htext] at hblank
  refine ⟨⟨full, column, htext, htraced⟩, fun hwhole => ?_, ?_, fun _ _ => rfl,
    fun range hrange => ?_⟩
  · unfold foundRanges
    rw [t.searched_text row hwhole]
    exact hfinds _
  · refine ((hapart (t.searched row).1).filter _).imp fun {front back} hle => ⟨hle, ?_⟩
    rintro _ hspan ⟨_, -⟩ _ hother ⟨-, _⟩
    rcases htraced.col_le hspan hother (by omega) with rfl | ⟨-, hlt⟩
    · exact Nat.le_refl _
    · exact Nat.le_of_lt hlt
  · obtain ⟨hmem, hne⟩ := List.mem_filter.mp hrange
    rw [decide_eq_true_eq] at hne
    obtain ⟨_, _, _, hfirst, -, hlast, hslice, hcovers⟩ :=
      htraced.exists_match hblank (hall _ range hmem) hne row
    unfold matchOf
    rw [hfirst, hlast, hslice]
    exact hcovers

/-- Every occurrence of the pattern in a text is one of whole characters. -/
theorem literal_onText (hpattern : pattern ≠ []) (text : List Char) {range : ℕ × ℕ}
    (hrange : range ∈ (RowMatcher.literal (utf8 pattern)).findAll (utf8 text)) :
    ∃ before after, text = before ++ pattern ++ after ∧
      range = ((utf8 before).length, (utf8 before).length + (utf8 pattern).length) := by
  have hleftmost := RowMatcher.findAll_leftmost (utf8_ne_nil hpattern) (utf8 text)
  obtain ⟨hoccurs, hstop⟩ := hleftmost.found range hrange
  obtain ⟨before, after, htext, hstart⟩ := onText_of_occursAt hpattern hoccurs
  exact ⟨before, after, htext, Prod.ext hstart (hstart ▸ hstop)⟩

theorem literal_finds (hpattern : pattern ≠ []) (text : List Char) :
    (RowMatcher.literal (utf8 pattern)).Finds text
      (nonempty ((RowMatcher.literal (utf8 pattern)).findAll (utf8 text))) := by
  have hbytes := utf8_ne_nil hpattern
  have hleftmost := RowMatcher.findAll_leftmost hbytes (utf8 text)
  have hall : nonempty ((RowMatcher.literal (utf8 pattern)).findAll (utf8 text)) =
      (RowMatcher.literal (utf8 pattern)).findAll (utf8 text) := by
    refine List.filter_eq_self.mpr fun range hrange => ?_
    have hstop := (hleftmost.found range hrange).2
    have hpos := length_pos_of_ne_nil hbytes
    rw [decide_eq_true_eq]
    omega
  rw [hall]
  exact hleftmost

/-- What is found is that of the rows from the top, as much of it as is asked for: in each row the
occurrences of the pattern from the left, and for each the cells that it covers. -/
theorem find_viewport_text_exact (t : Term) (hpattern : pattern ≠ [])
    (hmatcher : RowMatcher.new compile (utf8 pattern) regex = some matcher)
    (hcompile : ∀ findIter, compile (utf8 pattern) = some findIter → findIter.OnTexts)
    (maxMatches : ℕ) : ∃ (ranges : ℕ → List (ℕ × ℕ)) (place : ℕ → ℕ × ℕ → ViewportTextMatch),
      t.findViewportText compile (utf8 pattern) regex maxMatches =
          some (((List.range t.screenLines).flatMap fun row =>
            (ranges row).map (place row)).take maxMatches) ∧
        ∀ row, t.RowExact matcher row (ranges row) (place row) ∧
          (regex = false → ∀ range ∈ ranges row, (place row range).text = pattern) := by
  have hall : ∀ text, ∀ range ∈ matcher.findAll (utf8 text), OnText text range := by
    intro text range hrange
    rcases matcher_cases hmatcher with ⟨-, rfl⟩ | ⟨findIter, hfindIter, rfl⟩
    · obtain ⟨before, after, htext, heq⟩ := literal_onText hpattern text hrange
      exact ⟨before, pattern, after, htext, heq⟩
    · exact (hcompile findIter hfindIter text).2 range hrange
  have hapart : ∀ text,
      (matcher.findAll (utf8 text)).Pairwise fun front back => front.2 ≤ back.1 := by
    intro text
    rcases matcher_cases hmatcher with ⟨-, rfl⟩ | ⟨findIter, hfindIter, rfl⟩
    · exact (RowMatcher.findAll_leftmost (utf8_ne_nil hpattern) (utf8 text)).apart
    · exact (hcompile findIter hfindIter text).1
  have hfinds : ∀ text, matcher.Finds text (nonempty (matcher.findAll (utf8 text))) := by
    intro text
    rcases matcher_cases hmatcher with ⟨-, rfl⟩ | ⟨findIter, -, rfl⟩
    · exact literal_finds hpattern text
    · rfl
  refine ⟨t.foundRanges matcher, fun row => matchOf (t.searched row).1 (t.searched row).2 row, ?_,
    fun row => ⟨t.rowExact row hall hapart hfinds, fun hliteral range hrange => ?_⟩⟩
  · unfold findViewportText
    by_cases hzero : maxMatches = 0
    · rw [if_pos (Or.inr hzero), hzero, take_zero]
    · rw [if_neg (not_or.mpr ⟨utf8_ne_nil hpattern, hzero⟩), hmatcher]
      exact t.findInRows_eq matcher hall _ (Nat.pos_of_ne_zero hzero)
  · rcases matcher_cases hmatcher with ⟨-, rfl⟩ | ⟨_, _, rfl⟩
    · obtain ⟨_, _, htext, rfl⟩ :=
        literal_onText hpattern _ (List.mem_filter.mp hrange).1
      unfold matchOf
      dsimp only
      rw [sliceText_eq htext]
      rfl
    · rw [hliteral] at hmatcher
      cases hmatcher

/-- A screen of two columns and two lines, where a word of three letters wraps. -/
def wrapped : Term := "abc".toList.foldl (input narrow) (Term.new 0 2 2)

/-- The text of the viewport, with no break where a line wraps. -/
def logicalText (t : Term) : List Char :=
  (List.range t.screenLines).flatMap fun row =>
    t.lineToString (t.viewportLine row) 0 t.lastColumn false

theorem find_viewport_text_wrapped :
    ∃ (ranges : ℕ → List (ℕ × ℕ)) (place : ℕ → ℕ × ℕ → ViewportTextMatch),
      wrapped.findViewportText (fun _ => none) (utf8 "ab".toList) false 1 =
          some (((List.range wrapped.screenLines).flatMap fun row =>
            (ranges row).map (place row)).take 1) ∧
        ∀ row, wrapped.RowExact (.literal (utf8 "ab".toList)) row (ranges row) (place row) ∧
          (false = false → ∀ range ∈ ranges row, (place row range).text = "ab".toList) :=
  wrapped.find_viewport_text_exact (by decide) rfl (fun _ h => by cases h) 1

/-- The letters on both sides of the wrap are not found, though they follow each other. -/
theorem wrap_not_found : (∃ before after, wrapped.logicalText = before ++ "bc".toList ++ after) ∧
      wrapped.findViewportText (fun _ => none) (utf8 "bc".toList) false 1 = some [] :=
  ⟨⟨['a'], ['\n'], by decide +kernel⟩, by decide +kernel⟩

end Term

end Vivido.Terminal
