import Vivido.Grid.Scrolling

/-!
Where the lines of a buffer go. Lines are numbered from the top of the screen;
the history is above it. A scroll moves the lines of its region, lets blank ones
enter and leaves the others where they are. The steps do not look at what the
lines hold, so lines with labels move as the lines alone.
-/

namespace Vivido.Terminal.Lines

open List

variable {ρ σ ε : Type*}

/-- The line of a number, if there is one. -/
def line? (m : Lines ρ ε) (line : ℤ) : Option ρ :=
  if 0 ≤ (m.history.length : ℤ) + line then m.rows[((m.history.length : ℤ) + line).toNat]? else none

/-- The screen is no more than the lines there are. -/
def Full (m : Lines ρ ε) : Prop := m.screen ≤ m.rows.length

section

variable {m : Lines ρ ε}
include m

theorem length_rows (h : m.Full) : m.rows.length = m.history.length + m.screen := by
  unfold Full at h
  unfold history
  rw [length_take]
  omega

theorem rows_eq : m.rows = m.history ++ m.visible :=
  (take_append_drop _ _).symm

theorem length_visible (h : m.Full) : m.visible.length = m.screen := by
  unfold Full at h
  unfold visible
  rw [length_drop]
  omega

theorem line?_of_le {line : ℤ} (h : 0 ≤ (m.history.length : ℤ) + line) :
    m.line? line = m.rows[((m.history.length : ℤ) + line).toNat]? := if_pos h

theorem line?_eq_none {line : ℤ} (h : (m.history.length : ℤ) + line < 0) :
    m.line? line = none := if_neg (by omega)

theorem line?_isSome (h : m.Full) {line : ℤ} {row : ρ} (hrow : m.line? line = some row) :
    -(m.history.length : ℤ) ≤ line ∧ line < m.screen := by
  unfold line? at hrow
  have hlen := length_rows h
  split at hrow
  · obtain ⟨_, _⟩ := List.getElem?_eq_some_iff.mp hrow
    omega
  · cases hrow

theorem line?_visible {line : ℕ} : m.line? line = m.visible[line]? := by
  rw [line?_of_le (by omega), rows_eq (m := m), getElem?_append_right (by omega)]
  congr 1
  omega

theorem line?_history {line : ℤ} (hline : line < 0)
    (h : 0 ≤ (m.history.length : ℤ) + line) :
    m.line? line = m.history[((m.history.length : ℤ) + line).toNat]? := by
  rw [line?_of_le h, rows_eq (m := m), getElem?_append_left (by omega)]

/-- Changing the screen alone. -/
theorem history_screen {cached visible : List ρ} (h : visible.length = m.screen) :
    ({ m with cached := cached, rows := m.history ++ visible } : Lines ρ ε).history = m.history := by
  unfold history
  dsimp only
  rw [length_append, h, Nat.add_sub_cancel, take_left]

end

theorem visible_screen {m : Lines ρ ε} {cached visible : List ρ} (h : visible.length = m.screen) :
    ({ m with cached := cached, rows := m.history ++ visible } : Lines ρ ε).visible = visible := by
  unfold Lines.visible
  dsimp only
  rw [length_append, h, Nat.add_sub_cancel, drop_left]

theorem line?_screen {m : Lines ρ ε} {cached visible : List ρ} (h : visible.length = m.screen)
    (line : ℤ) :
    ({ m with cached := cached, rows := m.history ++ visible } : Lines ρ ε).line? line =
      if line < 0 then m.line? line else visible[line.toNat]? := by
  have hhistory := @history_screen _ _ m cached visible h
  by_cases hline : line < 0
  · rw [if_pos hline]
    by_cases habove : 0 ≤ (m.history.length : ℤ) + line
    · rw [line?_history hline (by rw [hhistory]; exact habove), hhistory, line?_history hline habove]
    · rw [line?_eq_none (by rw [hhistory]; omega), line?_eq_none (by omega)]
  · rw [if_neg hline]
    obtain ⟨n, rfl⟩ := Int.eq_ofNat_of_zero_le (Int.not_lt.mp hline)
    rw [line?_visible, visible_screen h]
    rfl

section

variable {m : Lines ρ ε} (h : m.Full) {blank : ρ} {start stop count : ℕ}
  (hstart : start ≤ stop) (hstop : stop ≤ m.screen)
include h hstart hstop

theorem length_regionUp : (m.regionUp blank start stop count).length = m.screen := by
  have hlen := length_visible h
  unfold regionUp
  simp only [length_append, length_take, length_drop, length_replicate]
  omega

theorem length_regionDown : (m.regionDown blank start stop count).length = m.screen := by
  have hlen := length_visible h
  unfold regionDown
  simp only [length_append, length_take, length_drop, length_replicate]
  omega

theorem line?_regionUp (line : ℤ) :
    ({ m with rows := m.history ++ m.regionUp blank start stop count } : Lines ρ ε).line? line =
      if start ≤ line ∧ line < stop then
        if line + count < stop then m.line? (line + count) else some blank
      else m.line? line := by
  have hlen := length_visible h
  rw [line?_screen (length_regionUp h hstart hstop)]
  by_cases hline : line < 0
  · rw [if_pos hline, if_neg (by omega)]
  rw [if_neg hline]
  obtain ⟨n, rfl⟩ := Int.eq_ofNat_of_zero_le (Int.not_lt.mp hline)
  rw [show ((n : ℤ) + count) = ((n + count : ℕ) : ℤ) by omega, line?_visible, line?_visible]
  unfold regionUp
  simp only [getElem?_append, length_append, length_take, length_drop,
    length_replicate, getElem?_take, getElem?_drop, getElem?_replicate,
    Int.toNat_natCast]
  split_ifs <;> first | omega | exact congrArg _ (by omega) | rfl

theorem line?_regionDown {cached : List ρ} (line : ℤ) : ({ m with
        cached := cached
        rows := m.history ++ m.regionDown blank start stop count } : Lines ρ ε).line? line =
      if start ≤ line ∧ line < stop then
        if start ≤ line - count then m.line? (line - count) else some blank
      else m.line? line := by
  have hlen := length_visible h
  rw [line?_screen (length_regionDown h hstart hstop)]
  by_cases hline : line < 0
  · rw [if_pos hline, if_neg (by omega)]
  rw [if_neg hline]
  obtain ⟨n, rfl⟩ := Int.eq_ofNat_of_zero_le (Int.not_lt.mp hline)
  have hbefore : (m.visible.take start).length = start := by
    rw [length_take]
    omega
  have hentered : (List.replicate (min count (stop - start)) blank).length =
      min count (stop - start) := length_replicate
  unfold regionDown
  by_cases hregion : (start : ℤ) ≤ n ∧ (n : ℤ) < stop
  · rw [if_pos hregion, Int.toNat_natCast, append_assoc, append_assoc,
      getElem?_append_right (by omega), hbefore]
    by_cases hmoved : (start : ℤ) ≤ n - count
    · rw [if_pos hmoved, show ((n : ℤ) - count) = ((n - count : ℕ) : ℤ) by omega, line?_visible,
        getElem?_append_right (by omega), hentered, getElem?_append_left (by
          simp only [length_take, length_drop]; omega),
        getElem?_take_of_lt (by omega), getElem?_drop, getElem?_take_of_lt
        (by omega)]
      exact congrArg _ (by omega)
    · rw [if_neg hmoved, getElem?_append_left (by omega), getElem?_replicate,
        if_pos (by omega)]
  · rw [if_neg hregion, Int.toNat_natCast, line?_visible]
    by_cases habove : n < start
    · rw [append_assoc, append_assoc, getElem?_append_left (by omega),
        getElem?_take_of_lt habove]
    have hkept : (((m.visible.take stop).drop start).take (stop - start - count)).length =
        stop - start - count := by
      simp only [length_take, length_drop]
      omega
    rw [getElem?_append_right (by
        simp only [length_append, hbefore, hentered, hkept]; omega), getElem?_drop]
    simp only [length_append, hbefore, hentered, hkept]
    exact congrArg _ (by omega)

end

theorem pushUp_eq {m : Lines ρ ε} {blank : ρ} {stop count : ℕ} : m.pushUp blank stop count =
      (m.rows.take (m.history.length + stop) ++ List.replicate count blank ++
        m.rows.drop (m.history.length + stop)).drop (m.history.length + count - m.limit) := by
  unfold pushUp
  rw [rows_eq (m := m), take_length_add_append, drop_length_add_append]

theorem length_pushUp {m : Lines ρ ε} (h : m.Full) {blank : ρ} {stop count : ℕ} :
    (m.pushUp blank stop count).length = min (m.history.length + count) m.limit + m.screen := by
  have hlen := length_rows h
  rw [pushUp_eq]
  simp only [length_append, length_take, length_drop, length_replicate]
  omega

/-- A region at the top of the screen scrolled up. -/
theorem line?_pushUp {m : Lines ρ ε} (h : m.Full) {blank : ρ} {cached : List ρ} {stop count : ℕ}
    (hstop : stop ≤ m.screen) (line : ℤ) :
    ({ m with cached := cached, rows := m.pushUp blank stop count } : Lines ρ ε).line? line =
      if line < -(min (m.history.length + count) m.limit : ℕ) then none
      else if line < stop then
        if line + count < stop then m.line? (line + count) else some blank
      else m.line? line := by
  have hlen := length_rows h
  have hhistory : ({ m with cached := cached, rows := m.pushUp blank stop count } :
      Lines ρ ε).history.length = min (m.history.length + count) m.limit := by
    rw [history]
    dsimp only
    rw [length_take, length_pushUp h]
    omega
  by_cases habove : line < -(min (m.history.length + count) m.limit : ℕ)
  · rw [if_pos habove, line?_eq_none (by rw [hhistory]; omega)]
  rw [if_neg habove, line?_of_le (by rw [hhistory]; omega), hhistory]
  dsimp only
  rw [pushUp_eq, getElem?_drop]
  by_cases hfixed : line < stop
  · rw [if_pos hfixed]
    by_cases hmoved : line + count < stop
    · rw [if_pos hmoved, line?_of_le (by omega), append_assoc,
        getElem?_append_left (by rw [length_take]; omega), getElem?_take_of_lt
        (by omega)]
      exact congrArg _ (by omega)
    · rw [if_neg hmoved, getElem?_append_left (by
          rw [length_append, length_take, length_replicate]; omega),
        getElem?_append_right (by rw [length_take]; omega), length_take,
        getElem?_replicate, if_pos (by omega)]
  · rw [if_neg hfixed, line?_of_le (by omega), getElem?_append_right (by
        rw [length_append, length_take, length_replicate]; omega),
      length_append, length_take, length_replicate, getElem?_drop]
    exact congrArg _ (by omega)

/-- Lines with what they hold replaced. -/
def map {ε' : Type*} (f : ρ → σ) (erase : ε') (m : Lines ρ ε) : Lines σ ε' where
  cached := m.cached.map f
  rows := m.rows.map f
  screen := m.screen
  limit := m.limit
  erase := erase

variable {ε' : Type*} {f : ρ → σ} {erase : ε'}

theorem history_map (m : Lines ρ ε) : (m.map f erase).history = m.history.map f := by
  unfold history map
  dsimp only
  rw [length_map, map_take]

theorem visible_map (m : Lines ρ ε) : (m.map f erase).visible = m.visible.map f := by
  unfold visible map
  dsimp only
  rw [length_map, map_drop]

theorem pushUp_map (m : Lines ρ ε) (blank : ρ) (stop count : ℕ) :
    (m.map f erase).pushUp (f blank) stop count = (m.pushUp blank stop count).map f := by
  unfold pushUp
  rw [history_map, visible_map, length_map]
  simp only [map_append, map_take, map_drop, map_replicate]
  rfl

theorem regionUp_map (m : Lines ρ ε) (blank : ρ) (start stop count : ℕ) :
    (m.map f erase).regionUp (f blank) start stop count =
      (m.regionUp blank start stop count).map f := by
  unfold regionUp
  rw [visible_map]
  simp only [map_append, map_take, map_drop, map_replicate]

theorem regionDown_map (m : Lines ρ ε) (blank : ρ) (start stop count : ℕ) :
    (m.map f erase).regionDown (f blank) start stop count =
      (m.regionDown blank start stop count).map f := by
  unfold regionDown
  rw [visible_map]
  simp only [map_append, map_take, map_drop, map_replicate]

/-- The lines after a scroll up. -/
def scrolledUp (m : Lines ρ ε) (blank : ρ) (start stop count : ℕ) : List ρ :=
  if start = 0 then m.pushUp blank stop count
  else m.history ++ m.regionUp blank start stop count

/-- The lines after a scroll down. -/
def scrolledDown (m : Lines ρ ε) (blank : ρ) (start stop count : ℕ) : List ρ :=
  m.history ++ m.regionDown blank start stop count

/-- The rest of the buffer stays. -/
structure Scrolled (m : Lines ρ ε) (rows : List ρ) (m' : Lines ρ ε) : Prop where
  rows : m'.rows = rows
  screen : m'.screen = m.screen
  limit : m'.limit = m.limit
  erase : m'.erase = m.erase

theorem scrolled_up {fresh : ρ} {blank : ε → ρ} {m m' : Lines ρ ε} {start stop count : ℕ}
    (h : Step fresh blank m (.scrollUp start stop count) m') :
    Scrolled m (m.scrolledUp (blank m.erase) start stop count) m' := by
  unfold scrolledUp
  cases h with
  | pushUp => exact ⟨(if_pos rfl).symm, rfl, rfl, rfl⟩
  | regionUp hstart => exact ⟨(if_neg (Nat.ne_of_gt hstart)).symm, rfl, rfl, rfl⟩

theorem scrolled_down {fresh : ρ} {blank : ε → ρ} {m m' : Lines ρ ε} {start stop count : ℕ}
    (h : Step fresh blank m (.scrollDown start stop count) m') :
    Scrolled m (m.scrolledDown (blank m.erase) start stop count) m' := by
  cases h
  exact ⟨rfl, rfl, rfl, rfl⟩

theorem Scrolled.history_length {m m' : Lines ρ ε} {rows : List ρ} (h : Scrolled m rows m') :
    m'.history.length = rows.length - m.screen := by
  rw [history, length_take, h.rows, h.screen]
  omega

theorem Scrolled.line? {m m' : Lines ρ ε} {rows : List ρ} (h : Scrolled m rows m') (line : ℤ) :
    m'.line? line = ({ m with rows := rows } : Lines ρ ε).line? line := by
  unfold Lines.line? history
  rw [h.rows, h.screen]

theorem scrolledUp_map (m : Lines ρ ε) (blank : ρ) (start stop count : ℕ) :
    (m.map f erase).scrolledUp (f blank) start stop count =
      (m.scrolledUp blank start stop count).map f := by
  unfold scrolledUp
  rw [pushUp_map, regionUp_map, history_map]
  split
  · rfl
  · rw [map_append]

theorem scrolledDown_map (m : Lines ρ ε) (blank : ρ) (start stop count : ℕ) :
    (m.map f erase).scrolledDown (f blank) start stop count =
      (m.scrolledDown blank start stop count).map f := by
  unfold scrolledDown
  rw [regionDown_map, history_map, map_append]

/-- Where lines are after a scroll up: those of the region, or with it the history, come from
below, unless blank lines entered there. -/
theorem line?_scrolledUp {m m' : Lines ρ ε} (h : m.Full) {blank : ρ} {start stop count : ℕ}
    (hstart : start ≤ stop) (hstop : stop ≤ m.screen)
    (hm : Scrolled m (m.scrolledUp blank start stop count) m') (line : ℤ) : m'.line? line =
      if line < -(m'.history.length : ℤ) then none
      else if line < stop ∧ (start = 0 ∨ start ≤ line) then
        if line + count < stop then m.line? (line + count) else some blank
      else m.line? line := by
  rw [hm.line?, hm.history_length]
  unfold scrolledUp
  by_cases htop : start = 0
  · rw [if_pos htop, length_pushUp h, Nat.add_sub_cancel]
    rw [show ({ m with rows := m.pushUp blank stop count } : Lines ρ ε) =
      { m with cached := m.cached, rows := m.pushUp blank stop count } from rfl, line?_pushUp h hstop]
    simp only [htop, true_or, and_true]
  · have hlen := length_rows h
    have hlen' := @length_regionUp _ _ m h blank start stop count hstart hstop
    rw [if_neg htop, line?_regionUp h hstart hstop, length_append, hlen', Nat.add_sub_cancel]
    by_cases habove : line < -(m.history.length : ℤ)
    · rw [if_pos habove, if_neg (by omega), line?_eq_none (by omega)]
    · rw [if_neg habove]
      simp only [htop, false_or, and_comm]

theorem line?_scrolledDown {m m' : Lines ρ ε} (h : m.Full) {blank : ρ} {start stop count : ℕ}
    (hstart : start ≤ stop) (hstop : stop ≤ m.screen)
    (hm : Scrolled m (m.scrolledDown blank start stop count) m') (line : ℤ) : m'.line? line =
      if start ≤ line ∧ line < stop then
        if start ≤ line - count then m.line? (line - count) else some blank
      else m.line? line := by
  rw [hm.line?]
  exact line?_regionDown h hstart hstop line

end Vivido.Terminal.Lines
