import Vivido.Grid.Grid

/-!
The stored rows as one tape, top line first: the cached rows and then the
readable ones. Lines are counted from its bottom end, so each operation of the
buffer acts on a segment of the tape, and the loops over lines that scrolling
runs carry one segment across another or rewrite a segment in place.
-/

namespace Vivido.Terminal

open SwapLoop List

theorem lineRange_of_le {first stop : ℤ} (h : stop ≤ first) : lineRange first stop = [] := by
  rw [lineRange, Int.toNat_of_nonpos (by omega), range_zero, map_nil]

theorem lineRange_cons {first stop : ℤ} (h : first < stop) :
    lineRange first stop = first :: lineRange (first + 1) stop := by
  obtain ⟨n, hn⟩ : ∃ n, (stop - first).toNat = n + 1 := ⟨(stop - first).toNat - 1, by omega⟩
  have hn' : (stop - (first + 1)).toNat = n := by omega
  rw [lineRange, lineRange, hn, hn', range_succ_eq_map, map_cons, map_map]
  congr 1
  · omega
  · apply map_congr_left
    intro i _
    simp only [Function.comp, Nat.succ_eq_add_one]
    omega

namespace Storage

variable {ρ : Type*}

def tape (s : Storage ρ) : List ρ := s.ring.reverse

/-- The readable rows, top line first. -/
def rows (s : Storage ρ) : List ρ := s.active.reverse

/-- The cached rows, in the order of the tape. -/
def cached (s : Storage ρ) : List ρ := s.hidden.reverse

@[simp] theorem length_tape (s : Storage ρ) : s.tape.length = s.inner.length := by
  rw [tape, length_reverse, length_ring]

theorem cached_append_rows (s : Storage ρ) : s.cached ++ s.rows = s.tape := by
  rw [cached, rows, ← reverse_append, active_append_hidden, tape]

theorem length_rows {s : Storage ρ} (h : s.WF) : s.rows.length = s.len := by
  rw [rows, length_reverse, length_active h]

/-- A split of the tape below which `len` rows remain is the split into cached and readable rows. -/
theorem rows_eq {s : Storage ρ} (h : s.WF) {cached rows : List ρ} (htape : s.tape = cached ++ rows)
    (hlen : rows.length = s.len) : s.cached = cached ∧ s.rows = rows := by
  have hsplit := s.cached_append_rows.trans htape
  exact append_inj' hsplit ((length_rows h).trans hlen.symm)

theorem tape_modify {s : Storage ρ} (hs : s.WF) {pre post : List ρ} {x : ρ} {line : ℤ}
    (htape : s.tape = pre ++ x :: post) (hline : line + 1 + post.length = s.visibleLines)
    (hlen : post.length < s.len) (update : ρ → ρ) :
    (s.modify line update).tape = pre ++ update x :: post := by
  have hring : s.ring = post.reverse ++ x :: pre.reverse := by
    have := congrArg List.reverse htape
    simpa [tape] using this
  have hoff : s.offset line = post.reverse.length := by
    rw [offset, length_reverse]
    omega
  rw [tape, ring_modify hs ⟨by omega, by omega⟩, hring, hoff, modify_eq_set_getElem?,
    getElem?_append_right (Nat.le_refl _), Nat.sub_self]
  simp

theorem wf_modifyLines {s : Storage ρ} (hs : s.WF) (lines : List ℤ) (update : ρ → ρ) :
    (s.modifyLines lines update).WF := by
  induction lines generalizing s with
  | nil => exact hs
  | cons line _ ih => exact ih (wf_modify hs line update)

theorem wf_swapLines {s : Storage ρ} (hs : s.WF) (lines : List ℤ) (shift : ℤ) :
    (s.swapLines lines shift).WF := by
  induction lines generalizing s with
  | nil => exact hs
  | cons line _ ih => exact ih (wf_swap hs line _)

section

variable (s : Storage ρ) (lines : List ℤ)
include s lines

@[simp] theorem len_modifyLines (update : ρ → ρ) : (s.modifyLines lines update).len = s.len := by
  induction lines generalizing s with
  | nil => rfl
  | cons _ _ ih => exact ih _

@[simp] theorem visibleLines_modifyLines (update : ρ → ρ) :
    (s.modifyLines lines update).visibleLines = s.visibleLines := by
  induction lines generalizing s with
  | nil => rfl
  | cons _ _ ih => exact ih _

@[simp] theorem len_swapLines (shift : ℤ) : (s.swapLines lines shift).len = s.len := by
  induction lines generalizing s with
  | nil => rfl
  | cons _ _ ih => exact ih _

@[simp] theorem visibleLines_swapLines (shift : ℤ) :
    (s.swapLines lines shift).visibleLines = s.visibleLines := by
  induction lines generalizing s with
  | nil => rfl
  | cons _ _ ih => exact ih _

@[simp] theorem length_inner_swapLines (shift : ℤ) :
    (s.swapLines lines shift).inner.length = s.inner.length := by
  induction lines generalizing s with
  | nil => rfl
  | cons _ _ ih => exact (ih _).trans (by simp [swap])

end

/-- A loop that updates consecutive lines updates a segment of the tape. -/
theorem tape_modifyLines {s : Storage ρ} (hs : s.WF) {pre mid post : List ρ} {first stop : ℤ}
    (htape : s.tape = pre ++ mid ++ post) (hstop : stop + post.length = s.visibleLines)
    (hfirst : first + mid.length = stop) (hlen : mid.length + post.length ≤ s.len)
    (update : ρ → ρ) :
    (s.modifyLines (lineRange first stop) update).tape = pre ++ mid.map update ++ post := by
  induction mid generalizing s pre first with
  | nil =>
    rw [lineRange_of_le (by simp at hfirst; omega)]
    simpa [modifyLines] using htape
  | cons x mid ih =>
    simp only [length_cons] at hfirst hlen
    have hstep : (s.modify first update).tape = pre ++ update x :: (mid ++ post) := by
      apply tape_modify hs (by simpa using htape)
      · simp only [length_append]
        omega
      · simp only [length_append]
        omega
    rw [lineRange_cons (by omega)]
    have h := @ih (s.modify first update) (wf_modify hs first update) (pre ++ [update x])
      (first + 1) (by simpa using hstep) hstop (by omega)
      (by change _ ≤ s.len; omega)
    simpa [modifyLines] using h

/-- Updates of single lines commute, so the order of the loop does not matter. -/
theorem modifyLines_reverse (s : Storage ρ) (lines : List ℤ) (update : ρ → ρ) :
    s.modifyLines lines.reverse update = s.modifyLines lines update := by
  apply (reverse_perm lines).foldl_eq'
  intro a _ b _ s
  have hindex : ∀ c d, (s.modify c update).computeIndex d = s.computeIndex d := by
    intro c d
    simp [computeIndex, modify]
  have hinner : (s.inner.modify (s.computeIndex a) update).modify (s.computeIndex b) update =
      (s.inner.modify (s.computeIndex b) update).modify (s.computeIndex a) update := by
    apply ext_getElem?
    intro i
    simp only [getElem?_modify]
    cases s.inner[i]? with
    | none => rfl
    | some =>
      simp only [Option.map_eq_map, Option.map_some]
      split <;> split <;> rfl
  simp only [modify] at hindex ⊢
  simp only [hindex, hinner]

/-- The place of a line on the tape. -/
def place (s : Storage ρ) (line : ℤ) : ℕ := (s.inner.length - s.visibleLines + line).toNat

theorem tape_swap {s : Storage ρ} (hs : s.WF) {a b : ℤ} (ha : s.InRange a) (hb : s.InRange b) :
    (s.swap a b).tape = swapAt s.tape (s.place a) (s.place b) := by
  have hplace : ∀ {line}, s.InRange line → s.place line = s.inner.length - 1 - s.offset line := by
    intro _ h
    have hl := hs.len_le
    unfold InRange at h
    unfold place offset
    omega
  rw [tape, ring_swap hs ha hb, swapAt_reverse, length_ring, hplace ha, hplace hb, tape]
  · rw [length_ring]
    exact Nat.lt_of_lt_of_le (offset_lt ha) hs.len_le
  · rw [length_ring]
    exact Nat.lt_of_lt_of_le (offset_lt hb) hs.len_le

/-- Swaps at distance `gap` from line `first` on, seen on the tape. -/
theorem tape_swapLines {s : Storage ρ} (hs : s.WF) {first : ℤ} {gap count : ℕ}
    (hfirst : (s.visibleLines : ℤ) - s.len ≤ first) (hlast : first + count + gap ≤ s.visibleLines) :
    (s.swapLines (lineRange first (first + count)) gap).tape =
      swapLoop (s.place first) gap count s.tape := by
  induction count generalizing s first with
  | zero =>
    rw [lineRange_of_le (by omega)]
    rfl
  | succ count ih =>
    have hl := hs.len_le
    have hstep := tape_swap hs (a := first) (b := first + gap) ⟨by omega, by omega⟩
      ⟨by omega, by omega⟩
    have hgap : s.place (first + gap) = s.place first + gap := by
      unfold place
      omega
    have hnext : (s.swap first (first + gap)).place (first + 1) = s.place first + 1 := by
      unfold place swap
      simp only [length_swapAt]
      omega
    rw [lineRange_cons (by omega), swapLoop_succ]
    have h := @ih (s.swap first (first + gap)) (wf_swap hs _ _) (first + 1)
      (by change (s.visibleLines : ℤ) - s.len ≤ first + 1; omega)
      (by change first + 1 + count + gap ≤ s.visibleLines; push_cast at hlast; omega)
    rw [show first + ((count + 1 : ℕ) : ℤ) = first + 1 + count by push_cast; omega]
    rw [hnext, hstep, hgap] at h
    exact h

theorem swapLines_neg (s : Storage ρ) (first stop : ℤ) (gap : ℕ) :
    s.swapLines (lineRange (first + gap) (stop + gap)) (-(gap : ℤ)) =
      s.swapLines (lineRange first stop) gap := by
  have hswap : ∀ (s : Storage ρ) (a b : ℤ), s.swap a b = s.swap b a := by
    intro s a b
    unfold swap
    rw [swapAt_comm]
  have hlines : lineRange (first + gap) (stop + gap) = (lineRange first stop).map (· + (gap : ℤ)) := by
    unfold lineRange
    rw [map_map, show stop + gap - (first + gap) = stop - first by omega]
    apply map_congr_left
    intro i _
    simp only [Function.comp]
    omega
  rw [hlines, swapLines, foldl_map, swapLines]
  congr 1
  funext s line
  rw [hswap, show line + (gap : ℤ) + -gap = line by omega]

section

variable {s : Storage ρ} (hs : s.WF) {pre block moved post : List ρ} {first : ℤ}
  (htape : s.tape = pre ++ block ++ moved ++ post)
  (hfirst : first + block.length + moved.length + post.length = s.visibleLines)
  (hlen : block.length + moved.length + post.length ≤ s.len)
include s hs pre block moved post first htape hfirst hlen

/-- Swapping downwards by the length of a segment carries the next one above it. -/
theorem tape_swapLines_rotate :
    (s.swapLines (lineRange first (first + moved.length)) block.length).tape =
      pre ++ moved ++ block.rotate moved.length ++ post := by
  have htotal := congrArg List.length htape
  simp only [length_tape, length_append] at htotal
  rw [tape_swapLines hs (by omega) (by omega), htape,
    show s.place first = pre.length by unfold place; omega, swapLoop_append]

theorem tape_swapLines_up : ∃ block', block'.Perm block ∧
      (s.swapLines (lineRange first (first + moved.length)) block.length).tape =
        pre ++ moved ++ block' ++ post :=
  ⟨block.rotate moved.length, rotate_perm .., tape_swapLines_rotate hs htape hfirst hlen⟩

end

theorem ring_swapLines_reverse {s : Storage ρ} (hs : s.WF) {stop : ℤ} {gap count : ℕ}
    (hfirst : (s.visibleLines : ℤ) - s.len + gap + count ≤ stop) (hstop : stop ≤ s.visibleLines) :
    (s.swapLines (lineRange (stop - count) stop).reverse (-(gap : ℤ))).ring =
      swapLoop (s.visibleLines - stop).toNat gap count s.ring := by
  induction count generalizing s stop with
  | zero =>
    rw [lineRange_of_le (by omega)]
    rfl
  | succ count ih =>
    have hstep := ring_swap hs (a := stop - 1) (b := stop - 1 + -(gap : ℤ)) ⟨by omega, by omega⟩
      ⟨by omega, by omega⟩
    have hrange : lineRange (stop - (count + 1 : ℕ)) stop =
        lineRange (stop - 1 - count) (stop - 1) ++ [stop - 1] := by
      unfold lineRange
      rw [show (stop - (stop - (count + 1 : ℕ))).toNat = count + 1 by omega,
        show (stop - 1 - (stop - 1 - count)).toNat = count by omega, range_succ, map_append]
      push_cast
      congr 1
      · apply map_congr_left
        intro i _
        omega
      · simp only [map_cons, map_nil, List.cons.injEq, and_true]
        omega
    have h := @ih (s.swap (stop - 1) (stop - 1 + -(gap : ℤ))) (wf_swap hs _ _) (stop - 1)
      (by change (s.visibleLines : ℤ) - s.len + gap + count ≤ stop - 1; push_cast at hfirst; omega)
      (by change stop - 1 ≤ s.visibleLines; omega)
    rw [hstep] at h
    change _ = swapLoop (s.visibleLines - (stop - 1)).toNat gap count _ at h
    rw [hrange, reverse_append, swapLoop_succ]
    rw [show s.offset (stop - 1) = (s.visibleLines - stop).toNat by unfold offset; omega,
      show s.offset (stop - 1 + -(gap : ℤ)) = (s.visibleLines - stop).toNat + gap by
        unfold offset; omega,
      show (s.visibleLines - (stop - 1)).toNat = (s.visibleLines - stop).toNat + 1 by omega] at h
    exact h

/-- Swapping upwards from the bottom end of two segments exchanges them as well. -/
theorem tape_swapLines_down {s : Storage ρ} (hs : s.WF) {pre moved block post : List ρ} {stop : ℤ}
    (htape : s.tape = pre ++ moved ++ block ++ post) (hstop : stop + post.length = s.visibleLines)
    (hlen : moved.length + block.length + post.length ≤ s.len) : ∃ block', block'.Perm block ∧
      (s.swapLines (lineRange (stop - moved.length) stop).reverse (-(block.length : ℤ))).tape =
        pre ++ block' ++ moved ++ post := by
  have hring : s.ring = post.reverse ++ block.reverse ++ moved.reverse ++ pre.reverse := by
    have := congrArg List.reverse htape
    simpa [tape] using this
  have htotal := congrArg List.length htape
  simp only [length_tape, length_append] at htotal
  refine ⟨(block.reverse.rotate moved.length).reverse,
    (reverse_perm _).trans ((rotate_perm ..).trans (reverse_perm _)), ?_⟩
  have h := @ring_swapLines_reverse _ _ hs stop block.length moved.length (by omega) (by omega)
  have hloop := swapLoop_append post.reverse block.reverse moved.reverse pre.reverse
  simp only [length_reverse] at hloop
  rw [hring, show (s.visibleLines - stop).toNat = post.length by omega, hloop] at h
  rw [tape, h]
  simp

theorem tape_initializeRows (s : Storage ρ) (count : ℕ) (row : ρ) :
    ∃ added, (s.initializeRows count row).tape = List.replicate added row ++ s.tape := by
  obtain ⟨added, hring, _⟩ := s.ring_initializeRows count row
  exact ⟨added, by rw [tape, hring, reverse_append, reverse_replicate, tape]⟩

/-- Making room exposes the cached rows nearest to the readable ones, after fresh ones. -/
theorem rows_initializeRows {s : Storage ρ} (h : s.WF) (count : ℕ) (row : ρ) :
    ∃ added cached exposed, List.replicate added row ++ s.cached = cached ++ exposed ∧
      exposed.length = count ∧ (s.initializeRows count row).cached = cached ∧
      (s.initializeRows count row).rows = exposed ++ s.rows := by
  obtain ⟨added, htape⟩ := s.tape_initializeRows count row
  have hwf := wf_initializeRows h count row
  have htotal := congrArg List.length htape
  simp only [length_tape, length_append, length_replicate] at htotal
  have hfits := hwf.len_le
  rw [len_initializeRows, htotal] at hfits
  have hrows := length_rows h
  have hstored := congrArg List.length s.cached_append_rows
  simp only [length_append, length_tape] at hstored
  generalize hfree : List.replicate added row ++ s.cached = free
  have hfreeLen : free.length = added + s.cached.length := by
    rw [← hfree, length_append, length_replicate]
  have hsplit : free.take (free.length - count) ++ free.drop (free.length - count) = free :=
    take_append_drop ..
  have hexposed : (free.drop (free.length - count)).length = count := by
    rw [length_drop]
    omega
  obtain ⟨hcached, hread⟩ := @rows_eq _ _ hwf (free.take (free.length - count))
    (free.drop (free.length - count) ++ s.rows)
      (by rw [htape, ← cached_append_rows, ← append_assoc, ← append_assoc, hsplit, hfree])
        (by rw [length_append, hexposed, hrows, len_initializeRows]; omega)
  exact ⟨added, _, _, hfree.trans hsplit.symm, hexposed, hcached, hread⟩

/-- A rotation moves the bottom rows of the tape to its top. -/
theorem tape_rotateDown {s : Storage ρ} {count : ℕ} (hcount : count ≤ s.inner.length) :
    ∃ top bottom, s.tape = top ++ bottom ∧ bottom.length = count ∧
      (s.rotateDown count).tape = bottom ++ top := by
  refine ⟨(s.ring.drop count).reverse, (s.ring.take count).reverse, ?_, ?_, ?_⟩
  · rw [← reverse_append, take_append_drop, tape]
  · rw [length_reverse, length_take, length_ring, Nat.min_eq_left hcount]
  · rw [tape, ring_rotateDown, rotate_eq_drop_append_take (by rwa [length_ring]),
      reverse_append]

theorem rotateDown_mod (s : Storage ρ) (count : ℕ) :
    s.rotateDown (count % s.inner.length) = s.rotateDown count := by
  unfold rotateDown
  rw [Nat.add_mod_mod]

theorem tape_rotate_neg {s : Storage ρ} {top bottom : List ρ} {count : ℕ}
    (htape : s.tape = top ++ bottom) (hcount : top.length = count) :
    (s.rotate (-(count : ℤ))).tape = bottom ++ top := by
  have htotal := congrArg List.length htape
  simp only [length_tape, length_append] at htotal
  have hring : s.ring = bottom.reverse ++ top.reverse := by
    have := congrArg List.reverse htape
    simpa [tape] using this
  rw [tape, ring_rotate_neg (by omega), hring,
    show s.inner.length - count = bottom.reverse.length by rw [length_reverse]; omega,
    drop_left, take_left, reverse_append, reverse_reverse, reverse_reverse]

theorem rows_shrinkLines {s : Storage ρ} (h : s.WF) {k : ℕ} (hk : s.visibleLines ≤ s.len - k)
    (hle : k ≤ s.len) : (s.shrinkLines k).rows = s.rows.drop k := by
  rw [rows, active_shrinkLines h hk, reverse_take, length_active h, rows,
    Nat.sub_sub_self hle]

theorem cached_shrinkLines {s : Storage ρ} (h : s.WF) {k : ℕ} (hk : s.visibleLines ≤ s.len - k) :
    (s.shrinkLines k).cached = s.cached ++ s.rows.take k ∨ (s.shrinkLines k).cached = [] := by
  have hlen : (s.rows.drop k).length = s.len - k := by
    rw [length_drop, length_rows h]
  unfold shrinkLines
  split
  · exact Or.inr (by rw [cached, hidden_truncate (wf_shorten h hk), reverse_nil])
  · left
    apply (@rows_eq _ _ (wf_shorten h hk) _ (s.rows.drop k) ?_ hlen).1
    rw [append_assoc, take_append_drop, cached_append_rows]
    rfl

/-- Shrinking the screen drops lines as if the screen had been smaller before. -/
theorem shrinkVisibleLines_eq (s : Storage ρ) (next : ℕ) : s.shrinkVisibleLines next =
      ({ s with visibleLines := next } : Storage ρ).shrinkLines (s.visibleLines - next) := by
  unfold shrinkVisibleLines shrinkLines
  dsimp only
  split
  · unfold truncate rezero
    dsimp only
    split <;> rfl
  · rfl

/-- Lines that fall out of reach are cached or dropped; none are new. -/
theorem mem_tape_of_drop {s s' : Storage ρ} {k : ℕ} (hrows : s'.rows = s.rows.drop k)
    (hcached : s'.cached = s.cached ++ s.rows.take k ∨ s'.cached = []) {row : ρ}
    (hrow : row ∈ s'.tape) : row ∈ s.tape := by
  rw [← cached_append_rows, hrows] at hrow
  rw [← cached_append_rows]
  rcases List.mem_append.mp hrow with h' | h'
  · rcases hcached with heq | heq
    · rw [heq] at h'
      rcases List.mem_append.mp h' with h' | h'
      · exact mem_append_left _ h'
      · exact mem_append_right _ (mem_of_mem_take h')
    · rw [heq] at h'
      cases h'
  · exact mem_append_right _ (mem_of_mem_drop h')

theorem rows_truncate {s : Storage ρ} (h : s.WF) : s.truncate.rows = s.rows := by
  rw [rows, active_truncate h, rows]

theorem cached_truncate {s : Storage ρ} (h : s.WF) : s.truncate.cached = [] := by
  rw [cached, hidden_truncate h, reverse_nil]

theorem get_rows [Inhabited ρ] {s : Storage ρ} (h : s.WF) {line : ℤ} (hline : s.InRange line) :
    s.rows[(s.len - s.visibleLines + line).toNat]? = some (s.get line) := by
  have hlt := offset_lt hline
  have hplace : (s.len - s.visibleLines + line).toNat = s.len - 1 - s.offset line := by
    unfold InRange at hline
    unfold offset
    omega
  rw [rows, hplace, getElem?_reverse (by rw [length_active h]; omega), length_active h,
    show s.len - 1 - (s.len - 1 - s.offset line) = s.offset line by omega, get_eq h hline]

/-- Swapping rows up and updating those that go down. -/
theorem tape_swapsUp {s : Storage ρ} (hs : s.WF) {pre block moved post : List ρ} {first : ℤ}
    (htape : s.tape = pre ++ block ++ moved ++ post)
    (hfirst : first + block.length + moved.length + post.length = s.visibleLines)
    (hlen : block.length + moved.length + post.length ≤ s.len) (f : ρ → ρ) :
    ∃ block' : List ρ, block'.Perm block ∧
      ((s.swapLines (lineRange first (first + moved.length)) block.length).modifyLines
        (lineRange (first + moved.length) (first + moved.length + block.length)) f).tape =
        pre ++ moved ++ block'.map f ++ post := by
  obtain ⟨block', hperm, hswapped⟩ := tape_swapLines_up hs htape hfirst hlen
  have hblock := hperm.length_eq
  refine ⟨block', hperm, tape_modifyLines (wf_swapLines hs _ _) hswapped ?_ (by omega) ?_ f⟩
  · rw [visibleLines_swapLines]
    omega
  · rw [len_swapLines]
    omega

/-- Swapping rows down and updating those that come up. -/
theorem tape_swapsDown {s : Storage ρ} (hs : s.WF) {pre moved block post : List ρ} {first : ℤ}
    (htape : s.tape = pre ++ moved ++ block ++ post)
    (hfirst : first + moved.length + block.length + post.length = s.visibleLines)
    (hlen : moved.length + block.length + post.length ≤ s.len) (f : ρ → ρ) :
    ∃ block' : List ρ, block'.Perm block ∧
      ((s.swapLines (lineRange (first + block.length) (first + block.length + moved.length)).reverse
        (-(block.length : ℤ))).modifyLines (lineRange first (first + block.length)) f).tape =
        pre ++ block'.map f ++ moved ++ post := by
  obtain ⟨block', hperm, hswapped⟩ := @tape_swapLines_down _ _ hs _ _ _ _
    (first + block.length + moved.length) htape (by omega) hlen
  rw [show first + block.length + moved.length - moved.length = first + block.length by omega,
    append_assoc _ moved] at hswapped
  have hblock := hperm.length_eq
  refine ⟨block', hperm, ?_⟩
  rw [append_assoc _ moved]
  apply tape_modifyLines (wf_swapLines hs _ _) hswapped
  · rw [visibleLines_swapLines, length_append]
    omega
  · omega
  · rw [len_swapLines, length_append]
    omega

/-- The rows that come up when the buffer rotates: those that left the region, after the cached
rows that are nearer. -/
def rotatedIn (s : Storage ρ) (block lower : List ρ) : List ρ :=
  (block.rotate lower.length ++ s.cached).drop s.cached.length

theorem length_rotatedIn (s : Storage ρ) (block lower : List ρ) :
    (s.rotatedIn block lower).length = block.length := by
  rw [rotatedIn, length_drop, length_append, length_rotate]
  omega

/-- Rotating the buffer, updating the rows that come up and swapping the fixed ones back. -/
theorem tape_rotatesDown {s : Storage ρ} (hs : s.WF) {upper kept block lower : List ρ}
    (hrows : s.rows = upper ++ kept ++ block ++ lower) (hlen : s.len = s.visibleLines) (f : ρ → ρ) :
    ∃ entering : List ρ, entering.Perm (s.rotatedIn block lower) ∧
      ((((s.swapLines (lineRange (upper.length + kept.length + block.length : ℕ) s.visibleLines)
        (-(block.length : ℤ))).rotateDown block.length).modifyLines (lineRange 0 block.length)
          f).swapLines (lineRange 0 upper.length) block.length).tape =
        (block.rotate lower.length ++ s.cached).take s.cached.length ++ upper ++ entering.map f ++
          kept ++ lower := by
  have htotal := congrArg List.length hrows
  rw [length_rows hs] at htotal
  simp only [length_append] at htotal
  have hfits := hs.len_le
  have hstored := congrArg List.length s.cached_append_rows
  rw [length_append, length_rows hs, length_tape] at hstored
  have htape : s.tape = (s.cached ++ upper ++ kept) ++ block ++ lower ++ [] := by
    rw [← s.cached_append_rows, hrows]
    simp only [append_assoc, append_nil]
  have hswapped := @tape_swapLines_rotate _ _ hs _ _ _ _ (upper.length + kept.length : ℕ) htape
    (by rw [length_nil]; omega) (by rw [length_nil]; omega)
  have hneg := swapLines_neg s (upper.length + kept.length : ℕ)
    ((upper.length + kept.length : ℕ) + lower.length) block.length
  rw [show ((upper.length + kept.length : ℕ) : ℤ) + block.length =
      (upper.length + kept.length + block.length : ℕ) by omega,
    show ((upper.length + kept.length : ℕ) : ℤ) + lower.length + block.length = s.visibleLines by
      omega] at hneg
  rw [← hneg, append_nil] at hswapped
  have hwf₁ := wf_swapLines hs (lineRange (upper.length + kept.length + block.length : ℕ)
    s.visibleLines) (-(block.length : ℤ))
  have hlen₁ := len_swapLines s (lineRange (upper.length + kept.length + block.length : ℕ)
    s.visibleLines) (-(block.length : ℤ))
  have hvisible₁ := visibleLines_swapLines s (lineRange (upper.length + kept.length +
    block.length : ℕ) s.visibleLines) (-(block.length : ℤ))
  have hinner₁ := length_inner_swapLines s (lineRange (upper.length + kept.length +
    block.length : ℕ) s.visibleLines) (-(block.length : ℤ))
  generalize s.swapLines (lineRange (upper.length + kept.length + block.length : ℕ)
    s.visibleLines) (-(block.length : ℤ)) = swapped at *
  unfold rotatedIn
  -- After the rotation the rows above the screen are those that left the region, then cached ones.
  generalize habove : block.rotate lower.length ++ s.cached = above
  have haboveLen : above.length = block.length + s.cached.length := by
    rw [← habove, length_append, length_rotate]
  have hrotated : (swapped.rotateDown block.length).tape =
      above.take s.cached.length ++ above.drop s.cached.length ++ (upper ++ kept ++ lower) := by
    obtain ⟨_, _, hsplit, hbottom, hrotated⟩ := @tape_rotateDown _ swapped block.length
      (by omega)
    obtain ⟨htop, hbottom'⟩ := append_inj' (hsplit.symm.trans hswapped)
      (hbottom.trans (length_rotate ..).symm)
    rw [hrotated, htop, hbottom', take_append_drop, ← habove]
    simp only [append_assoc]
  have hentering : (above.drop s.cached.length).length = block.length := by
    rw [length_drop]
    omega
  have hwf₂ := wf_rotateDown hwf₁ block.length
  have hupdated := @tape_modifyLines _ _ hwf₂ _ _ _ 0 block.length hrotated
    (by
      change (block.length : ℤ) + (upper ++ kept ++ lower).length = swapped.visibleLines
      simp only [length_append]
      omega)
    (by omega)
    (by
      change _ ≤ swapped.len
      simp only [length_append]
      omega) f
  have hlen₃ := len_modifyLines (swapped.rotateDown block.length) (lineRange 0 block.length) f
  have hvisible₃ := visibleLines_modifyLines (swapped.rotateDown block.length)
    (lineRange 0 block.length) f
  change _ = swapped.len at hlen₃
  change _ = swapped.visibleLines at hvisible₃
  have hmapped : ((above.drop s.cached.length).map f).length = block.length := by
    rw [length_map, hentering]
  have hback := @tape_swapLines_rotate _ _ (wf_modifyLines hwf₂ (lineRange 0 block.length) f)
    (above.take s.cached.length) ((above.drop s.cached.length).map f) upper (kept ++ lower) 0
    (by
      rw [hupdated]
      simp only [append_assoc])
    (by
      rw [hmapped, length_append]
      omega)
    (by
      rw [hmapped, length_append]
      omega)
  rw [hmapped, Int.zero_add] at hback
  refine ⟨(above.drop s.cached.length).rotate upper.length, rotate_perm .., ?_⟩
  rw [hback, map_rotate]
  simp only [append_assoc]

end Storage

end Vivido.Terminal
