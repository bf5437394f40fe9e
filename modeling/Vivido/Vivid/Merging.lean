import Vivido.Vivid.Scene

/-!
Merging pending scrolls. Scrolls of one region in one direction add up to one
scroll, as long as the history does not grow by more than the lines scrolled
into it. What a terminal then delivers moves every anchor as the scrolls it was
queued would have, one at a time.
-/

namespace Vivido.Vivid

open Terminal List Option

/-- What a scroll delivered does to one anchor. -/
def TextAnchor.follow (anchor : TextAnchor) (scroll : PendingGridScroll) : Option TextAnchor :=
  if scroll.lines = 0 ∨ scroll.stop ≤ scroll.origin then some anchor else anchor.scroll scroll

def TextAnchor.followAll (anchor : TextAnchor) (scrolls : List PendingGridScroll) :
    Option TextAnchor :=
  scrolls.foldlM TextAnchor.follow anchor

namespace Scene

variable {ι : Type*}

/-- Scrolls delivered in order: the scene and the anchors removed. -/
def deliver (s : Scene ι) : List PendingGridScroll → Scene ι × List ι
  | [] => (s, [])
  | scroll :: scrolls =>
      let next := s.scrollAnchors scroll
      let last := next.1.deliver scrolls
      (last.1, next.2 ++ last.2)

variable (s : Scene ι) (scroll : PendingGridScroll) (scrolls : List PendingGridScroll)

theorem anchors_scrollAnchors : (s.scrollAnchors scroll).1.anchors =
      s.anchors.filterMap fun entry => (entry.2.follow scroll).map (entry.1, ·) := by
  unfold scrollAnchors TextAnchor.follow
  by_cases hidle : scroll.lines = 0 ∨ scroll.stop ≤ scroll.origin
  · simp only [if_pos hidle, map_some]
    exact List.filterMap_some.symm
  · simp only [if_neg hidle]
    rfl

theorem removed_scrollAnchors (identity : ι) : identity ∈ (s.scrollAnchors scroll).2 ↔
      ∃ anchor, (identity, anchor) ∈ s.anchors ∧ anchor.follow scroll = none := by
  unfold scrollAnchors TextAnchor.follow
  by_cases hidle : scroll.lines = 0 ∨ scroll.stop ≤ scroll.origin
  · simp [if_pos hidle]
  · simp only [if_neg hidle]
    unfold updateAnchors
    simp [mem_filterMap]

theorem anchors_deliver : (s.deliver scrolls).1.anchors =
      s.anchors.filterMap fun entry => (entry.2.followAll scrolls).map (entry.1, ·) := by
  induction scrolls generalizing s with
  | nil =>
    symm
    exact filterMap_some
  | cons scroll _ ih =>
    rw [deliver]
    dsimp only
    rw [ih, anchors_scrollAnchors, filterMap_filterMap]
    refine filterMap_congr ?_
    intro entry _
    rw [TextAnchor.followAll, foldlM_cons]
    cases entry.2.follow scroll <;> rfl

theorem removed_deliver (identity : ι) : identity ∈ (s.deliver scrolls).2 ↔
      ∃ anchor, (identity, anchor) ∈ s.anchors ∧ anchor.followAll scrolls = none := by
  induction scrolls generalizing s with
  | nil =>
    constructor
    · intro h
      cases h
    · rintro ⟨anchor, _, h⟩
      cases h
  | cons scroll _ ih =>
    rw [deliver]
    dsimp only
    rw [mem_append, removed_scrollAnchors, ih, anchors_scrollAnchors]
    constructor
    · rintro (⟨anchor, hmem, hnone⟩ | ⟨anchor, hmem, hnone⟩)
      · refine ⟨anchor, hmem, ?_⟩
        rw [TextAnchor.followAll, foldlM_cons, hnone]
        rfl
      · obtain ⟨⟨_, old⟩, hold, hmoved⟩ := List.mem_filterMap.mp hmem
        obtain ⟨moved, hfollow, heq⟩ := Option.map_eq_some_iff.mp hmoved
        cases heq
        refine ⟨old, hold, ?_⟩
        rw [TextAnchor.followAll, foldlM_cons, hfollow]
        exact hnone
    · rintro ⟨anchor, hmem, hnone⟩
      rw [TextAnchor.followAll, foldlM_cons] at hnone
      cases hfollow : anchor.follow scroll with
      | none => exact Or.inl ⟨anchor, hmem, hfollow⟩
      | some moved =>
        rw [hfollow] at hnone
        exact Or.inr ⟨moved, List.mem_filterMap.mpr ⟨(identity, anchor), hmem, by rw [hfollow]; rfl⟩,
          hnone⟩

end Scene

/-- Scrolls of one region in one direction. -/
def Merges (p c : PendingGridScroll) : Prop :=
  p.origin = c.origin ∧ p.stop = c.stop ∧ p.lines.sign = c.lines.sign

instance (p c : PendingGridScroll) : Decidable (Merges p c) :=
  inferInstanceAs (Decidable (_ ∧ _))

/-- From one scroll to the next the history grows by no more than the lines that the next one
pushes into it. -/
def Grows (p c : PendingGridScroll) : Prop :=
  c.historySize ≤ p.historySize + if c.origin = 0 then c.lines.toNat else 0

instance (p c : PendingGridScroll) : Decidable (Grows p c) := inferInstanceAs (Decidable (_ ≤ _))

def merge (p c : PendingGridScroll) : PendingGridScroll := { c with lines := p.lines + c.lines }

variable {scroll : PendingGridScroll}

theorem filter_exactLine {old : ℤ} :
    (exactLine scroll old).filter (minimumLine scroll.historySize ≤ ·) =
      if Shifts scroll old then
        if Keeps scroll old ∧ minimumLine scroll.historySize ≤ old - scroll.lines then
          some (old - scroll.lines)
        else none
      else if minimumLine scroll.historySize ≤ old then some old else none := by
  unfold exactLine
  split
  · split
    · rename_i hkeeps
      rw [filter_some]
      simp only [hkeeps, true_and, decide_eq_true_eq]
    · rename_i hlost
      rw [if_neg (fun h => hlost h.1)]
      rfl
  · rw [filter_some]
    simp only [decide_eq_true_eq]

theorem isI32_scrollLine (h : InRange scroll) {old line : ℤ} (hold : IsI32 old)
    (hline : scrollLine scroll old = some line) : IsI32 line := by
  have hmin := minimumLine_gt scroll.historySize
  rw [scrollLine_eq h hold, filter_exactLine] at hline
  unfold IsI32 at hold ⊢
  have hstop := h.stop.2
  split at hline
  · split at hline
    · rename_i hkeeps
      cases hline
      have := hkeeps.1.1
      omega
    · cases hline
  · split at hline
    · cases hline
      exact hold
    · cases hline

theorem same_direction {p c : PendingGridScroll} (h : Merges p c) (hlines : c.lines ≠ 0) :
    0 < p.lines ∧ 0 < c.lines ∨ p.lines < 0 ∧ c.lines < 0 := by
  obtain ⟨_, _, hsign⟩ := h
  rcases lt_trichotomy c.lines 0 with hneg | hzero | hpos
  · right
    rw [Int.sign_eq_neg_one_of_neg hneg] at hsign
    exact ⟨Int.neg_of_sign_eq_neg_one hsign, hneg⟩
  · exact (hlines hzero).elim
  · left
    rw [Int.sign_eq_one_of_pos hpos] at hsign
    exact ⟨Int.pos_of_sign_eq_one hsign, hpos⟩

theorem scrollLine_merge {p c : PendingGridScroll} (hp : InRange p) (hc : InRange c)
    (hmerges : Merges p c) (hgrows : Grows p c) (hsum : |p.lines + c.lines| ≤ i32Max)
    (hlines : c.lines ≠ 0) (hopen : c.origin < c.stop) {old : ℤ} (hold : IsI32 old) :
    (scrollLine p old).bind (scrollLine c) = scrollLine (merge p c) old := by
  have hm : InRange (merge p c) := ⟨hc.origin, hc.stop, hsum⟩
  have hdirection := same_direction hmerges hlines
  have horigin := hc.origin.1
  obtain ⟨_, _, _⟩ := hmerges
  have hhistory : c.origin = 0 ∧ minimumLine p.historySize ≤ minimumLine c.historySize + max c.lines 0 ∨
      c.origin ≠ 0 ∧ minimumLine p.historySize ≤ minimumLine c.historySize := by
    unfold Grows at hgrows
    unfold minimumLine i32Max
    by_cases htop : c.origin = 0
    · rw [if_pos htop] at hgrows
      exact Or.inl ⟨htop, by omega⟩
    · rw [if_neg htop] at hgrows
      exact Or.inr ⟨htop, by omega⟩
  have hscreen : ∀ history, minimumLine history ≤ 0 := by
    intro _
    unfold minimumLine i32Max
    omega
  have hscreen₁ := hscreen p.historySize
  have hscreen₂ := hscreen c.historySize
  have hsame : Shifts (merge p c) old ↔ Shifts p old := by
    unfold Shifts merge
    dsimp only
    omega
  have hcount : (merge p c).lines = p.lines + c.lines := rfl
  have hsize : (merge p c).historySize = c.historySize := rfl
  rw [scrollLine_eq hp hold, scrollLine_eq hm hold, filter_exactLine, filter_exactLine]
  by_cases hshifts : Shifts p old
  · rw [if_pos hshifts, if_pos (hsame.mpr hshifts)]
    by_cases hkeeps : Keeps p old ∧ minimumLine p.historySize ≤ old - p.lines
    · have hmoved : IsI32 (old - p.lines) := by
        have hmin := minimumLine_gt p.historySize
        have hup := hp.stop.2
        have hbelow := hkeeps.1.1
        unfold IsI32
        omega
      have hagain : Shifts c (old - p.lines) := by
        unfold Shifts
        unfold Keeps at hkeeps
        omega
      have hboth : Keeps c (old - p.lines) ∧ minimumLine c.historySize ≤ old - p.lines - c.lines ↔
          Keeps (merge p c) old ∧
            minimumLine (merge p c).historySize ≤ old - (merge p c).lines := by
        unfold Keeps merge
        dsimp only
        omega
      rw [if_pos hkeeps, bind_some, scrollLine_eq hc hmoved, filter_exactLine,
        if_pos hagain, if_congr hboth rfl rfl, hcount, sub_sub]
    · rw [if_neg hkeeps, bind_none, if_neg]
      unfold Shifts at hshifts
      unfold Keeps at hkeeps
      unfold Keeps merge
      dsimp only
      omega
  · have hfixed : ¬Shifts c old := by
      unfold Shifts at hshifts ⊢
      omega
    rw [if_neg hshifts, if_neg (fun h => hshifts (hsame.mp h))]
    by_cases habove : minimumLine p.historySize ≤ old
    · rw [if_pos habove, bind_some, scrollLine_eq hc hold, filter_exactLine, if_neg hfixed,
        hsize]
    · rw [if_neg habove, bind_none, if_neg]
      rw [hsize]
      unfold Shifts at hshifts
      omega

theorem followAll_cons (anchor : TextAnchor) (scroll : PendingGridScroll)
    (scrolls : List PendingGridScroll) :
    anchor.followAll (scroll :: scrolls) =
      (anchor.follow scroll).bind fun moved => moved.followAll scrolls := foldlM_cons

theorem isI32_follow (h : InRange scroll) {anchor moved : TextAnchor}
    (hanchor : IsI32 anchor.line) (hmoved : anchor.follow scroll = some moved) :
    IsI32 moved.line := by
  unfold TextAnchor.follow at hmoved
  split at hmoved
  · cases hmoved
    exact hanchor
  · obtain ⟨_, hline, rfl⟩ := Option.map_eq_some_iff.mp hmoved
    exact isI32_scrollLine h hanchor hline

theorem follow_merge {p c : PendingGridScroll} (hp : InRange p) (hc : InRange c)
    (hmerges : Merges p c) (hgrows : Grows p c) (hsum : |p.lines + c.lines| ≤ i32Max)
    {anchor : TextAnchor} (hanchor : IsI32 anchor.line) :
    (anchor.follow p).bind (·.follow c) = anchor.follow (merge p c) := by
  have hregion := hmerges.1
  have hstop := hmerges.2.1
  by_cases hopen : c.origin < c.stop
  · by_cases hlines : c.lines = 0
    · have hzero : p.lines = 0 := by
        have hsign := hmerges.2.2
        rw [hlines] at hsign
        exact Int.sign_eq_zero_iff_zero.mp hsign
      have hidle : (merge p c).lines = 0 := by
        change p.lines + c.lines = 0
        rw [hzero, hlines]
        rfl
      unfold TextAnchor.follow
      rw [if_pos (Or.inl hzero), if_pos (Or.inl hidle), bind_some, if_pos (Or.inl hlines)]
    · have hdirection := same_direction hmerges hlines
      have hfirst : ¬(p.lines = 0 ∨ p.stop ≤ p.origin) := by omega
      have hsecond : ¬(c.lines = 0 ∨ c.stop ≤ c.origin) := by omega
      have hboth : ¬((merge p c).lines = 0 ∨ (merge p c).stop ≤ (merge p c).origin) := by
        unfold merge
        dsimp only
        omega
      unfold TextAnchor.follow TextAnchor.scroll
      rw [if_neg hfirst, if_neg hboth,
        ← scrollLine_merge hp hc hmerges hgrows hsum hlines hopen hanchor]
      simp only [if_neg hsecond]
      cases scrollLine p anchor.line with
      | none => rfl
      | some =>
        dsimp only [map_some, bind_some]
  · have hclosed : c.stop ≤ c.origin := Int.not_lt.mp hopen
    have hfirst : p.stop ≤ p.origin := by omega
    have hboth : (merge p c).stop ≤ (merge p c).origin := hclosed
    unfold TextAnchor.follow
    rw [if_pos (Or.inr hfirst), if_pos (Or.inr hboth), bind_some, if_pos (Or.inr hclosed)]

/-- What a queued scroll leaves pending. -/
def absorb (pending : Option PendingGridScroll) (c : PendingGridScroll) : PendingGridScroll :=
  match pending with
  | some p => if Merges p c then merge p c else c
  | none => c

/-- Wherever a scroll merges, the history grew no more than the scroll let it, and the counts
add up to a 32-bit number. -/
def Mergeable (pending : Option PendingGridScroll) : List PendingGridScroll → Prop
  | [] => True
  | c :: scrolls =>
      (∀ p ∈ pending, Merges p c → Grows p c ∧ |p.lines + c.lines| ≤ i32Max) ∧
        Mergeable (some (absorb pending c)) scrolls

/-- Scrolls queued by a terminal, one after the other. -/
def queueAll (t : Term) (scrolls : List PendingGridScroll) : Term :=
  scrolls.foldl (fun t c => t.queueGridScroll c.origin c.stop c.lines c.historySize) t

theorem saturatingAdd_eq {a b : ℤ} (h : |a + b| ≤ i32Max) : Term.saturatingAdd a b = a + b := by
  obtain ⟨hlow, hhigh⟩ := abs_le.mp h
  unfold i32Max at hlow hhigh
  unfold Term.saturatingAdd
  omega

/-- A terminal's queue merges scrolls or sends the pending one first. -/
theorem queueGridScroll_cases (t : Term) (c : PendingGridScroll)
    (h : ∀ p ∈ t.pendingGridScroll, Merges p c → |p.lines + c.lines| ≤ i32Max) :
    (t.queueGridScroll c.origin c.stop c.lines c.historySize).pendingGridScroll =
        some (absorb t.pendingGridScroll c) ∧
      (t.queueGridScroll c.origin c.stop c.lines c.historySize).events =
        t.events ++ (t.pendingGridScroll.toList.filter fun p => ¬Merges p c).map
          .vividGridScroll := by
  unfold Term.queueGridScroll absorb
  cases hpending : t.pendingGridScroll with
  | none => exact ⟨rfl, (append_nil _).symm⟩
  | some p =>
    dsimp only
    by_cases hmerges : Merges p c
    · have halike : p.origin = c.origin ∧ p.stop = c.stop ∧ p.lines.sign = c.lines.sign := hmerges
      rw [if_pos halike, if_pos hmerges]
      rw [hpending] at h
      have hsum := saturatingAdd_eq (h p rfl hmerges)
      refine ⟨?_, by simp [hmerges]⟩
      dsimp only
      rw [hsum, hmerges.1, hmerges.2.1]
      rfl
    · have hother : ¬(p.origin = c.origin ∧ p.stop = c.stop ∧ p.lines.sign = c.lines.sign) := hmerges
      rw [if_neg hother, if_neg hmerges]
      refine ⟨rfl, ?_⟩
      unfold Term.flushGridScroll
      rw [hpending]
      simp [hmerges, Term.sendEvent]

/-- What is delivered for scrolls queued moves anchors as the scrolls themselves. -/
theorem flush_queueAll (t : Term) {scrolls : List PendingGridScroll}
    (hpending : ∀ p ∈ t.pendingGridScroll, InRange p) (hscrolls : ∀ c ∈ scrolls, InRange c)
    (h : Mergeable t.pendingGridScroll scrolls) :
    ∃ merged, (queueAll t scrolls).flushGridScroll.events =
        t.events ++ merged.map .vividGridScroll ∧ ∀ anchor : TextAnchor, IsI32 anchor.line →
        anchor.followAll merged = anchor.followAll (t.pendingGridScroll.toList ++ scrolls) := by
  induction scrolls generalizing t with
  | nil =>
    refine ⟨t.pendingGridScroll.toList, ?_, fun _ _ => by rw [append_nil]⟩
    unfold queueAll Term.flushGridScroll
    dsimp only [foldl_nil]
    split
    · rename_i p hp
      rw [hp]
      rfl
    · rename_i hnone
      rw [hnone]
      exact (append_nil _).symm
  | cons c scrolls ih =>
    obtain ⟨hmerge, hrest⟩ := h
    have hc := hscrolls c mem_cons_self
    obtain ⟨habsorbed, hsent⟩ := queueGridScroll_cases t c fun p hp hm => (hmerge p hp hm).2
    have hrange : InRange (absorb t.pendingGridScroll c) := by
      unfold absorb
      cases hp : t.pendingGridScroll with
      | none => exact hc
      | some p =>
        dsimp only
        split
        · rename_i hmerges
          exact ⟨hc.origin, hc.stop, (hmerge p hp hmerges).2⟩
        · exact hc
    obtain ⟨merged, hevents, hfollow⟩ :=
      ih (t.queueGridScroll c.origin c.stop c.lines c.historySize)
        (by rw [habsorbed]; rintro p hp; cases hp; exact hrange)
        (fun d hd => hscrolls d (mem_cons_of_mem c hd)) (by rw [habsorbed]; exact hrest)
    refine ⟨(t.pendingGridScroll.toList.filter fun p => ¬Merges p c) ++ merged, ?_, ?_⟩
    · change (queueAll _ scrolls).flushGridScroll.events = _
      rw [hevents, hsent, append_assoc, map_append]
    intro anchor hanchor
    rw [habsorbed] at hfollow
    cases hp : t.pendingGridScroll with
    | none =>
      rw [hp] at hfollow
      exact hfollow anchor hanchor
    | some p =>
      rw [hp] at hfollow
      have hpin := hpending p hp
      by_cases hmerges : Merges p c
      · obtain ⟨hgrows, hsum⟩ := hmerge p hp hmerges
        have hboth := follow_merge hpin hc hmerges hgrows hsum hanchor
        have hone := hfollow anchor hanchor
        simp only [toList_some, filter_cons, hmerges, not_true_eq_false,
          decide_false, Bool.false_eq_true, if_false, filter_nil, nil_append]
        rw [hone]
        unfold absorb
        simp only [if_pos hmerges, toList_some, singleton_append]
        rw [followAll_cons, followAll_cons, ← hboth, bind_assoc]
        refine congrArg _ (funext fun moved => ?_)
        rw [followAll_cons]
      · simp only [toList_some, filter_cons, hmerges, not_false_eq_true,
          decide_true, if_true, filter_nil, singleton_append]
        rw [followAll_cons, followAll_cons]
        cases hmoved : anchor.follow p with
        | none => rfl
        | some moved =>
          rw [bind_some, bind_some,
            hfollow moved (isI32_follow hpin hanchor hmoved)]
          unfold absorb
          simp only [if_neg hmerges, toList_some, singleton_append]

end Vivido.Vivid
