import Vivido.Support.SwapLoop

/-!
The ring buffer behind a grid. Rows are stored from a moving `zero`, bottom
line first, and `len` of them are readable; the rest are cached for reuse.
`ring` is the stored list read from `zero`: readable lines, then cached rows.
Every operation is followed by what it does to `ring`.
-/

namespace Vivido.Terminal

open SwapLoop List

/-- `MAX_CACHE_SIZE`: rows kept beyond the readable ones. -/
def maxCacheSize : ℕ := 256

/-- The lines from `first` up to, not including, `stop`, in order. Lines are
counted down from the top of the screen; history is negative. -/
def lineRange (first stop : ℤ) : List ℤ :=
  (List.range (stop - first).toNat).map fun i : ℕ => first + (i : ℤ)

structure Storage (ρ : Type*) where
  inner : List ρ
  zero : ℕ
  visibleLines : ℕ
  len : ℕ
  deriving DecidableEq, Repr

namespace Storage

variable {ρ : Type*}

def withCapacity (visibleLines : ℕ) (row : ρ) : Storage ρ where
  inner := List.replicate visibleLines row
  zero := 0
  visibleLines := visibleLines
  len := visibleLines

/-- Rotate the buffer so that `zero` is its first row. -/
def rezero (s : Storage ρ) : Storage ρ :=
  if s.zero = 0 then s else { s with inner := s.inner.rotate s.zero, zero := 0 }

/-- Drop the cached rows. -/
def truncate (s : Storage ρ) : Storage ρ :=
  { s.rezero with inner := s.rezero.inner.take s.rezero.len }

def shrinkLines (s : Storage ρ) (shrinkage : ℕ) : Storage ρ :=
  if s.len - shrinkage + maxCacheSize < s.inner.length then
    { s with len := s.len - shrinkage }.truncate
  else { s with len := s.len - shrinkage }

/-- Make `additional` more rows readable, storing copies of `row` when the
cached rows do not suffice. -/
def initializeRows (s : Storage ρ) (additional : ℕ) (row : ρ) : Storage ρ :=
  if s.inner.length < s.len + additional then
    { s.rezero with
      inner := s.rezero.inner ++ List.replicate (max additional maxCacheSize) row
      len := s.len + additional }
  else { s with len := s.len + additional }

/-- The stored index of a line. -/
def computeIndex (s : Storage ρ) (requested : ℤ) : ℕ :=
  let positive := (-(requested - s.visibleLines) - 1).toNat
  let zeroed := s.zero + positive
  if s.inner.length ≤ zeroed then zeroed - s.inner.length else zeroed

/-- `Index<Line>`. -/
def get [Inhabited ρ] (s : Storage ρ) (line : ℤ) : ρ :=
  s.inner.getD (s.computeIndex line) default

/-- `IndexMut<Line>`: the row is replaced by its image under `update`. -/
def modify (s : Storage ρ) (line : ℤ) (update : ρ → ρ) : Storage ρ :=
  { s with inner := s.inner.modify (s.computeIndex line) update }

def swap (s : Storage ρ) (a b : ℤ) : Storage ρ :=
  { s with inner := swapAt s.inner (s.computeIndex a) (s.computeIndex b) }

/-- Move `zero` by `count`; the source's subtractions compute this remainder. -/
def rotate (s : Storage ρ) (count : ℤ) : Storage ρ :=
  { s with zero := ((s.zero : ℤ) + count + s.inner.length).toNat % s.inner.length }

def rotateDown (s : Storage ρ) (count : ℕ) : Storage ρ :=
  { s with zero := (s.zero + count) % s.inner.length }

def growVisibleLines [Inhabited ρ] (s : Storage ρ) (next : ℕ) (newRow : ρ → ρ) : Storage ρ :=
  { s.initializeRows (next - s.visibleLines) (newRow (s.get 0)) with visibleLines := next }

def shrinkVisibleLines (s : Storage ρ) (next : ℕ) : Storage ρ :=
  { s.shrinkLines (s.visibleLines - next) with visibleLines := next }

def replaceInner (s : Storage ρ) (rows : List ρ) : Storage ρ :=
  { s with inner := rows, zero := 0, len := rows.length }

/-- The rows `take_all` hands out, bottom line first. -/
def takeAll (s : Storage ρ) : List ρ := s.truncate.inner

/-- Apply `update` to every stored row, the cached ones included. -/
def mapRows (s : Storage ρ) (update : ρ → ρ) : Storage ρ :=
  { s with inner := s.inner.map update }

/-- The stored rows from `zero` on. -/
def ring (s : Storage ρ) : List ρ := s.inner.rotate s.zero

/-- The readable rows, bottom line first. -/
def active (s : Storage ρ) : List ρ := s.ring.take s.len

/-- The cached rows. -/
def hidden (s : Storage ρ) : List ρ := s.ring.drop s.len

/-- The indices stay inside the buffer and the screen is readable. -/
structure WF (s : Storage ρ) : Prop where
  zero_lt : s.zero < s.inner.length
  len_le : s.len ≤ s.inner.length
  visible_le : s.visibleLines ≤ s.len
  visible_pos : 0 < s.visibleLines

/-- Readable lines of the buffer. -/
def InRange (s : Storage ρ) (line : ℤ) : Prop :=
  (s.visibleLines : ℤ) - s.len ≤ line ∧ line < s.visibleLines

/-- How far above the bottom line a line is. -/
def offset (s : Storage ρ) (line : ℤ) : ℕ := (s.visibleLines - 1 - line).toNat

@[simp] theorem length_ring (s : Storage ρ) : s.ring.length = s.inner.length :=
  length_rotate ..

theorem active_append_hidden (s : Storage ρ) : s.active ++ s.hidden = s.ring :=
  take_append_drop ..

variable {s : Storage ρ} {line : ℤ}

theorem length_active (h : s.WF) : s.active.length = s.len := by
  rw [active, length_take, length_ring]
  exact Nat.min_eq_left h.len_le

theorem offset_lt (h : s.InRange line) : s.offset line < s.len := by
  unfold InRange at h
  unfold offset
  omega

/-- One comparison replaces the remainder while both summands are in range. -/
theorem computeIndex_eq (hs : s.WF) (h : s.InRange line) :
    s.computeIndex line = (s.zero + s.offset line) % s.inner.length := by
  have hlt := offset_lt h
  have hpos : (-(line - s.visibleLines) - 1).toNat = s.offset line := by
    unfold offset
    omega
  have hz := hs.zero_lt
  have hl := hs.len_le
  unfold computeIndex
  dsimp only
  rw [hpos]
  split
  · rw [Nat.mod_eq_sub_mod (by omega), Nat.mod_eq_of_lt (by omega)]
  · rw [Nat.mod_eq_of_lt (by omega)]

theorem computeIndex_lt (hs : s.WF) (h : s.InRange line) :
    s.computeIndex line < s.inner.length := by
  rw [computeIndex_eq hs h]
  have := hs.zero_lt
  exact Nat.mod_lt _ (by omega)

theorem get_eq [Inhabited ρ] (hs : s.WF) (h : s.InRange line) :
    s.active[s.offset line]? = some (s.get line) := by
  have hlt := offset_lt h
  have hlen : s.offset line < s.inner.length := Nat.lt_of_lt_of_le hlt hs.len_le
  rw [active, getElem?_take_of_lt hlt, ring, getElem?_rotate hlen, Nat.add_comm,
    ← computeIndex_eq hs h, get, getElem?_eq_getElem (computeIndex_lt hs h)]
  simp [getD_eq_getElem?_getD, computeIndex_lt hs h]

theorem get_modify [Inhabited ρ] (hs : s.WF) (h : s.InRange line) (update : ρ → ρ) :
    (s.modify line update).get line = update (s.get line) := by
  have hlt := computeIndex_lt hs h
  have hindex : (s.modify line update).computeIndex line = s.computeIndex line := by
    simp [computeIndex, modify]
  unfold get
  rw [hindex]
  unfold modify
  dsimp only
  rw [getD_eq_getElem?_getD, getD_eq_getElem?_getD, getElem?_modify,
    getElem?_eq_getElem hlt]
  simp

theorem ring_modify (hs : s.WF) (h : s.InRange line) (update : ρ → ρ) :
    (s.modify line update).ring = s.ring.modify (s.offset line) update := by
  have hlt : s.offset line < s.inner.length := Nat.lt_of_lt_of_le (offset_lt h) hs.len_le
  have hz := hs.zero_lt
  unfold ring modify
  dsimp only
  rw [computeIndex_eq hs h, modify_eq_set_getElem?, modify_eq_set_getElem?,
    getElem?_rotate hlt, Nat.add_comm (s.offset line)]
  rw [getElem?_eq_getElem (Nat.mod_lt _ (by omega))]
  exact rotate_set _ hlt _

theorem ring_swap (hs : s.WF) {a b : ℤ} (ha : s.InRange a) (hb : s.InRange b) :
    (s.swap a b).ring = swapAt s.ring (s.offset a) (s.offset b) := by
  unfold ring swap
  dsimp only
  rw [computeIndex_eq hs ha, computeIndex_eq hs hb]
  exact swapAt_rotate _ (Nat.lt_of_lt_of_le (offset_lt ha) hs.len_le)
    (Nat.lt_of_lt_of_le (offset_lt hb) hs.len_le)

@[simp] theorem zero_rezero (s : Storage ρ) : s.rezero.zero = 0 := by
  unfold rezero
  split
  · assumption
  · rfl

@[simp] theorem len_rezero (s : Storage ρ) : s.rezero.len = s.len := by
  unfold rezero
  split <;> rfl

@[simp] theorem visibleLines_rezero (s : Storage ρ) : s.rezero.visibleLines = s.visibleLines := by
  unfold rezero
  split <;> rfl

@[simp] theorem inner_rezero (s : Storage ρ) : s.rezero.inner = s.ring := by
  unfold rezero ring
  split
  · rw [‹s.zero = 0›, rotate_zero]
  · rfl

@[simp] theorem len_truncate (s : Storage ρ) : s.truncate.len = s.len := s.len_rezero

@[simp] theorem visibleLines_truncate (s : Storage ρ) :
    s.truncate.visibleLines = s.visibleLines := s.visibleLines_rezero

theorem ring_truncate (s : Storage ρ) : s.truncate.ring = s.active := by
  simp only [truncate, ring, zero_rezero, rotate_zero, inner_rezero, len_rezero, active]

theorem wf_truncate (h : s.WF) : s.truncate.WF := by
  have hinner : s.truncate.inner.length = s.len := by
    rw [← length_ring, ring_truncate, length_active h]
  have hzero : s.truncate.zero = 0 := s.zero_rezero
  have hpos := h.visible_pos
  have hle := h.visible_le
  refine ⟨by omega, ?_, ?_, ?_⟩
  · rw [hinner, len_truncate]
  · rw [visibleLines_truncate, len_truncate]
    exact hle
  · rw [visibleLines_truncate]
    exact hpos

theorem active_truncate (h : s.WF) : s.truncate.active = s.active := by
  rw [active, ring_truncate, len_truncate, ← length_active h, take_length]

theorem hidden_truncate (h : s.WF) : s.truncate.hidden = [] := by
  rw [hidden, ring_truncate, len_truncate, ← length_active h, drop_length]

@[simp] theorem visibleLines_shrinkLines (s : Storage ρ) (k : ℕ) :
    (s.shrinkLines k).visibleLines = s.visibleLines := by
  unfold shrinkLines
  split <;> simp

@[simp] theorem len_shrinkLines (s : Storage ρ) (k : ℕ) : (s.shrinkLines k).len = s.len - k := by
  unfold shrinkLines
  split <;> simp

section

variable (h : s.WF) {k : ℕ} (hk : s.visibleLines ≤ s.len - k)
include h k hk

theorem wf_shorten :
    ({ s with len := s.len - k } : Storage ρ).WF :=
  ⟨h.zero_lt, Nat.le_trans (Nat.sub_le ..) h.len_le, hk, h.visible_pos⟩

theorem wf_shrinkLines :
    (s.shrinkLines k).WF := by
  unfold shrinkLines
  split
  · exact wf_truncate (wf_shorten h hk)
  · exact wf_shorten h hk

theorem active_shrinkLines :
    (s.shrinkLines k).active = s.active.take (s.len - k) := by
  have hactive : ({ s with len := s.len - k } : Storage ρ).active = s.active.take (s.len - k) := by
    unfold active ring
    rw [take_take, Nat.min_eq_left (Nat.sub_le ..)]
  unfold shrinkLines
  split
  · rw [active_truncate (wf_shorten h hk), hactive]
  · exact hactive

end

@[simp] theorem visibleLines_initializeRows (s : Storage ρ) (k : ℕ) (row : ρ) :
    (s.initializeRows k row).visibleLines = s.visibleLines := by
  unfold initializeRows
  split <;> simp

@[simp] theorem len_initializeRows (s : Storage ρ) (k : ℕ) (row : ρ) :
    (s.initializeRows k row).len = s.len + k := by
  unfold initializeRows
  split <;> rfl

/-- More readable rows come after those already readable: cached or fresh ones. -/
theorem ring_initializeRows (s : Storage ρ) (k : ℕ) (row : ρ) :
    ∃ fresh, (s.initializeRows k row).ring = s.ring ++ List.replicate fresh row ∧
      (fresh = 0 ∨ k ≤ fresh) := by
  unfold initializeRows
  split
  · refine ⟨max k maxCacheSize, ?_, Or.inr (Nat.le_max_left ..)⟩
    rw [ring, zero_rezero, rotate_zero, inner_rezero]
  · exact ⟨0, by simp [ring], Or.inl rfl⟩

theorem wf_initializeRows (h : s.WF) (k : ℕ) (row : ρ) : (s.initializeRows k row).WF := by
  have hz := h.zero_lt
  have hl := h.len_le
  refine ⟨?_, ?_, ?_, by simpa using h.visible_pos⟩
  · unfold initializeRows
    split
    · simp
      omega
    · exact hz
  · unfold initializeRows
    split
    · simp
      omega
    · simp
      omega
  · have := h.visible_le
    simp only [visibleLines_initializeRows, len_initializeRows]
    omega

theorem ring_rotateDown (s : Storage ρ) (count : ℕ) :
    (s.rotateDown count).ring = s.ring.rotate count := by
  unfold ring rotateDown
  dsimp only
  rw [rotate_mod, rotate_rotate]

theorem wf_rotateDown (h : s.WF) (count : ℕ) : (s.rotateDown count).WF :=
  ⟨Nat.mod_lt _ (Nat.zero_lt_of_lt h.zero_lt), h.len_le, h.visible_le, h.visible_pos⟩

theorem rotate_natCast (s : Storage ρ) (count : ℕ) : s.rotate count = s.rotateDown count := by
  unfold rotate rotateDown
  rw [show ((s.zero : ℤ) + count + s.inner.length).toNat = s.zero + count + s.inner.length by omega,
    Nat.add_mod_right]

/-- Rotating back brings the last rows of the ring to its front. -/
theorem ring_rotate_neg {count : ℕ} (hcount : count ≤ s.inner.length) : (s.rotate (-count)).ring =
      s.ring.drop (s.inner.length - count) ++ s.ring.take (s.inner.length - count) := by
  have hzero : ((s.zero : ℤ) + -count + s.inner.length).toNat =
      s.zero + (s.inner.length - count) := by omega
  have hring : (s.rotate (-count)).ring = s.ring.rotate (s.inner.length - count) := by
    unfold ring rotate
    dsimp only
    rw [hzero, rotate_mod, rotate_rotate]
  rw [hring, rotate_eq_drop_append_take (by rw [length_ring]; omega)]

theorem wf_rotate (h : s.WF) (count : ℤ) : (s.rotate count).WF :=
  ⟨Nat.mod_lt _ (Nat.zero_lt_of_lt h.zero_lt), h.len_le, h.visible_le, h.visible_pos⟩

theorem wf_swap (h : s.WF) (a b : ℤ) : (s.swap a b).WF := by
  have hlen : (s.swap a b).inner.length = s.inner.length := by simp [swap]
  exact ⟨by rw [hlen]; exact h.zero_lt, by rw [hlen]; exact h.len_le, h.visible_le, h.visible_pos⟩

theorem wf_modify (h : s.WF) (line : ℤ) (update : ρ → ρ) : (s.modify line update).WF := by
  have hlen : (s.modify line update).inner.length = s.inner.length := by simp [modify]
  exact ⟨by rw [hlen]; exact h.zero_lt, by rw [hlen]; exact h.len_le, h.visible_le, h.visible_pos⟩

theorem wf_withCapacity {visibleLines : ℕ} (h : 0 < visibleLines) (row : ρ) :
    (withCapacity visibleLines row).WF :=
  ⟨by simpa [withCapacity] using h, by simp [withCapacity], Nat.le_refl _, h⟩

end Storage

end Vivido.Terminal
