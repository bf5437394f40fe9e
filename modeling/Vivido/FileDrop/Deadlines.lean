import Mathlib.Data.List.Nodup
import Vivido.FileDrop.Pasting

/-!
The deadlines of offers: to be accepted, to go on with a transfer, and to be kept
once ended. Expiry takes the offers whose deadline has come, and the next deadline
of a session is the first time at which it changes one of them.
-/

namespace Vivido.FileDrop

open Scene SortedMap List Option

/-- The time an ended offer was kept for is over. -/
def OfferEntry.Stale (offer : OfferEntry) (now : ℕ) : Prop :=
  ∃ deadline, offer.terminalDeadline = some deadline ∧ deadline ≤ now

/-- An offer that is cancelled at a time. -/
def OfferEntry.cancelledAt (P : DropProtocol) (offer : OfferEntry) (now : ℕ) : OfferEntry :=
  { cancelOfferSource offer with
    cancelled := true
    terminalDeadline := some (now + P.resultRetentionUs) }

namespace FileDropManager

/-- The deadline that an offer waits for; none while its transfer is active. -/
def deadlineOf (m : FileDropManager) (key : Key) (offer : OfferEntry) : Option ℕ :=
  match offer.terminalDeadline with
  | some deadline => some deadline
  | none =>
    match offer.transfer with
    | some transferId =>
      ((m.transfers.lookup ⟨key.session, transferId⟩).filter fun transfer =>
        !transfer.active).map (·.deadline)
    | none => some offer.deadline

def nextDeadline (m : FileDropManager) (session : SessionIdentity) : Option ℕ :=
  ((m.offers.entries.filter fun entry => entry.1.session = session).filterMap fun entry =>
    m.deadlineOf entry.1 entry.2).min?

/-- An open offer that was not accepted in time, or whose transfer has been idle for too long. -/
inductive Lapses (m : FileDropManager) (now : ℕ) (key : Key) (offer : OfferEntry) : Prop where
  | acceptance (hopen : offer.cancelled = false ∧ offer.terminal = none)
    (hwaits : offer.transfer = none) (hdeadline : offer.deadline ≤ now)
  | idle (hopen : offer.cancelled = false ∧ offer.terminal = none) (transferId : ℕ)
    (transfer : TransferEntry) (haccepted : offer.transfer = some transferId)
    (htransfer : m.transfers.lookup ⟨key.session, transferId⟩ = some transfer)
    (hidle : transfer.active = false) (hdeadline : transfer.deadline ≤ now)

variable {P : DropProtocol} {m m' : FileDropManager} {now : ℕ} {key : Key} {offer : OfferEntry}

theorem isTimedOut_iff : m.isTimedOut now key offer = true ↔ m.Lapses now key offer := by
  unfold isTimedOut
  rw [Bool.and_eq_true, Bool.and_eq_true, Bool.not_eq_true', isNone_iff_eq_none,
    Bool.or_eq_true, Bool.and_eq_true, decide_eq_true_iff, isNone_iff_eq_none]
  constructor
  · rintro ⟨hopen, ⟨hdeadline, hwaits⟩ | hidle⟩
    · exact .acceptance hopen hwaits hdeadline
    · obtain ⟨transferId, haccepted, hany⟩ := (Option.any_eq_true _ _).mp hidle
      obtain ⟨transfer, htransfer, hboth⟩ := (Option.any_eq_true _ _).mp hany
      rw [Bool.and_eq_true, Bool.not_eq_true', decide_eq_true_iff] at hboth
      exact .idle hopen transferId transfer haccepted htransfer hboth.1 hboth.2
  · intro hlapses
    cases hlapses with
    | acceptance hopen hwaits hdeadline => exact ⟨hopen, Or.inl ⟨hdeadline, hwaits⟩⟩
    | idle hopen _ _ haccepted htransfer hidle hdeadline =>
      refine ⟨hopen, Or.inr ?_⟩
      rw [haccepted, any_some, htransfer, any_some, hidle]
      simpa using hdeadline

theorem Indexed.not_lapses_of_ended (h : m.Indexed) (hoffer : m.offers.lookup key = some offer)
    (hended : offer.terminalDeadline.isSome = true) : ¬ m.Lapses now key offer := by
  have hends := (h.retained key offer hoffer).mp hended
  have hclosed : ¬ (offer.cancelled = false ∧ offer.terminal = none) := by
    rintro ⟨hopen, hnone⟩
    rcases hends with hends | hends
    · rw [hnone] at hends
      cases hends
    · rw [hopen] at hends
      cases hends
  intro hlapses
  cases hlapses with
  | acceptance hopen | idle hopen => exact hclosed hopen

/-! ### What expiry does to an offer -/

theorem offers_dropTerminal (m : FileDropManager) (key other : Key) :
    (m.dropTerminal key).offers.lookup other =
      if other = key then none else m.offers.lookup other := by
  unfold dropTerminal
  dsimp only
  split
  · rename_i hnone
    split
    · rename_i heq
      rw [heq]
      exact hnone
    · rfl
  · split
    · exact lookup_erase
    · exact lookup_erase

theorem transfers_dropTerminal (m : FileDropManager) (key : Key) {other : Key}
    {transfer : TransferEntry} (h : (m.dropTerminal key).transfers.lookup other = some transfer) :
    m.transfers.lookup other = some transfer := by
  unfold dropTerminal at h
  dsimp only at h
  split at h
  · exact h
  · split at h
    · exact h
    · exact (lookup_erase_some h).2

theorem foldl_dropTerminal (keys : List Key) (m : FileDropManager) :
    (∀ other, (keys.foldl dropTerminal m).offers.lookup other =
      if other ∈ keys then none else m.offers.lookup other) ∧
    ∀ other transfer, (keys.foldl dropTerminal m).transfers.lookup other = some transfer →
      m.transfers.lookup other = some transfer := by
  induction keys generalizing m with
  | nil => exact ⟨fun other => (if_neg not_mem_nil).symm, fun _ _ h => h⟩
  | cons key _ ih =>
    obtain ⟨hoffers, htransfers⟩ := ih (m.dropTerminal key)
    refine ⟨fun other => ?_, fun other transfer h => ?_⟩
    · rw [foldl_cons, hoffers, offers_dropTerminal]
      by_cases hkey : other = key
      · simp [hkey]
      · simp [hkey]
    · exact transfers_dropTerminal m key (htransfers other transfer h)

theorem cancellations_dropTerminal (keys : List Key) (m : FileDropManager) :
    (keys.foldl dropTerminal m).cancellations = m.cancellations := by
  induction keys generalizing m with
  | nil => rfl
  | cons _ _ ih =>
    rw [foldl_cons, ih]
    unfold dropTerminal
    dsimp only
    split
    · rfl
    · split
      · rfl
      · rfl

/-- The cancellation that a lapsed offer gives. -/
def cancellationOf (entry : Key × OfferEntry) : SessionIdentity × CancelFileDrop :=
  (entry.1.session, ⟨entry.2.binding, 1⟩)

/-- Offers are timed out one after another. -/
theorem foldl_timeOut (now : ℕ) (entries : List (Key × OfferEntry)) (m : FileDropManager)
    (hnodup : (entries.map Prod.fst).Nodup)
    (hentries : ∀ entry ∈ entries, m.offers.lookup entry.1 = some entry.2) :
    (∀ other, ((entries.map Prod.fst).foldl (fun m key => m.timeOut P now key) m).offers.lookup
      other = (m.offers.lookup other).map fun offer =>
        if other ∈ entries.map Prod.fst then offer.cancelledAt P now else offer) ∧
    ((entries.map Prod.fst).foldl (fun m key => m.timeOut P now key) m).cancellations =
      m.cancellations ++ entries.map cancellationOf := by
  induction entries generalizing m with
  | nil => exact ⟨fun other => by simp, (append_nil _).symm⟩
  | cons entry entries ih =>
    obtain ⟨hfresh, hnodup⟩ := List.nodup_cons.mp hnodup
    have hentry := hentries entry mem_cons_self
    have htimed : (m.timeOut P now entry.1).offers =
        m.offers.insert entry.1 (entry.2.cancelledAt P now) ∧
        (m.timeOut P now entry.1).cancellations = m.cancellations ++ [cancellationOf entry] := by
      unfold timeOut
      rw [hentry]
      exact ⟨rfl, rfl⟩
    obtain ⟨hoffers, hcancellations⟩ := ih (m.timeOut P now entry.1) hnodup
      fun other hother => by
        rw [lookup_timeOut m now]
        · exact hentries other (mem_cons_of_mem _ hother)
        · rintro heq
          exact hfresh (heq ▸ mem_map_of_mem hother)
    refine ⟨fun other => ?_, ?_⟩
    · rw [map_cons, foldl_cons, hoffers, htimed.1, lookup_insert]
      by_cases hother : other = entry.1
      · rw [if_pos hother, hother, hentry, map_some, map_some, if_neg hfresh,
          if_pos mem_cons_self]
      · rw [if_neg hother]
        refine congrArg (fun f => (m.offers.lookup other).map f) (funext fun offer => ?_)
        by_cases hlater : other ∈ entries.map Prod.fst
        · rw [if_pos hlater, if_pos (mem_cons_of_mem _ hlater)]
        · rw [if_neg hlater, if_neg (not_mem_cons_of_ne_of_not_mem hother hlater)]
    · rw [map_cons, foldl_cons, hcancellations, htimed.2, append_assoc]
      rfl

/-- The offers that lapse, in the order in which they are cancelled. -/
def lapsed (m : FileDropManager) (now : ℕ) : List (Key × OfferEntry) :=
  m.offers.entries.filter fun entry => m.isTimedOut now entry.1 entry.2

theorem mem_terminalExpired (hoffer : m.offers.lookup key = some offer) :
    key ∈ m.terminalExpired now ↔ offer.Stale now := by
  unfold terminalExpired OfferEntry.Stale
  rw [List.mem_map]
  constructor
  · rintro ⟨_, hentry, rfl⟩
    obtain ⟨hentry, hany⟩ := List.mem_filter.mp hentry
    rw [mem_entries.mp hentry] at hoffer
    cases hoffer
    obtain ⟨deadline, hdeadline, hle⟩ := (Option.any_eq_true _ _).mp hany
    exact ⟨deadline, hdeadline, of_decide_eq_true hle⟩
  · rintro ⟨_, hdeadline, hle⟩
    refine ⟨(key, offer), List.mem_filter.mpr ⟨mem_entries.mpr hoffer, ?_⟩, rfl⟩
    rw [hdeadline, any_some]
    exact decide_eq_true hle

theorem mem_lapsed (hoffer : m.offers.lookup key = some offer) :
    key ∈ (m.lapsed now).map Prod.fst ↔ m.Lapses now key offer := by
  rw [← isTimedOut_iff, lapsed, List.mem_map]
  constructor
  · rintro ⟨_, hentry, rfl⟩
    obtain ⟨hentry, htimed⟩ := List.mem_filter.mp hentry
    rw [mem_entries.mp hentry] at hoffer
    cases hoffer
    exact htimed
  · intro htimed
    exact ⟨(key, offer), List.mem_filter.mpr ⟨mem_entries.mpr hoffer, htimed⟩, rfl⟩

/-- The transfer of an offer that stays is looked up as before. -/
theorem isTimedOut_of_fewer (h' : m'.Indexed)
    (htransfers : ∀ other transfer, m'.transfers.lookup other = some transfer →
      m.transfers.lookup other = some transfer) (hoffer : m'.offers.lookup key = some offer) :
    m'.isTimedOut now key offer = m.isTimedOut now key offer := by
  unfold isTimedOut
  cases haccepted : offer.transfer with
  | none => rfl
  | some transferId =>
    obtain ⟨transfer, htransfer, -⟩ := h'.held key offer transferId hoffer haccepted
    rw [any_some, any_some, htransfer, htransfers _ transfer htransfer]

section

variable (h : m.Indexed)
include h

/-- An offer lapses among those that stay exactly if it did before. -/
theorem lapsed_dropped (now : ℕ) :
    ((m.terminalExpired now).foldl dropTerminal m).lapsed now = m.lapsed now := by
  obtain ⟨hdropped, htransfers⟩ := foldl_dropTerminal (m.terminalExpired now) m
  have hindexed := (dropTerminal_all h (m.terminalExpired now)).1
  generalize (m.terminalExpired now).foldl dropTerminal m = dropped
    at hdropped htransfers hindexed ⊢
  have hoffers : dropped.offers =
      m.offers.filter fun entry => entry.1 ∉ m.terminalExpired now := by
    refine ext_lookup fun key => ?_
    rw [hdropped]
    split
    · rename_i hgone
      exact (lookup_filter_dropped fun _ => decide_eq_false (not_not.mpr hgone)).symm
    · rename_i hstays
      exact (lookup_filter_kept fun _ => decide_eq_true hstays).symm
  have hentries : dropped.offers.entries =
      m.offers.entries.filter fun entry => entry.1 ∉ m.terminalExpired now := by
    rw [hoffers]
    rfl
  unfold lapsed
  rw [hentries, List.filter_filter]
  refine filter_congr fun entry hentry => ?_
  have hoffer := mem_entries.mp hentry
  by_cases hgone : entry.1 ∈ m.terminalExpired now
  · obtain ⟨_, hdeadline, -⟩ := (mem_terminalExpired hoffer).mp hgone
    have hstands : m.isTimedOut now entry.1 entry.2 = false := by
      rw [← Bool.not_eq_true, isTimedOut_iff]
      exact h.not_lapses_of_ended hoffer (by rw [hdeadline]; rfl)
    rw [hstands, decide_eq_false (not_not.mpr hgone), Bool.and_false]
  · have hstays : dropped.offers.lookup entry.1 = some entry.2 := by
      rw [hdropped, if_neg hgone]
      exact hoffer
    rw [isTimedOut_of_fewer hindexed htransfers hstays, decide_eq_true hgone, Bool.and_true]

/-- What expiry does: ended offers go, and those that lapse are cancelled. -/
theorem expire_spec (now : ℕ) : (∀ key, (m.expire P now).offers.lookup key =
      if key ∈ m.terminalExpired now then none else (m.offers.lookup key).map fun offer =>
        if key ∈ (m.lapsed now).map Prod.fst then offer.cancelledAt P now else offer) ∧
    (m.expire P now).cancellations = m.cancellations ++ (m.lapsed now).map cancellationOf := by
  obtain ⟨hdropped, -⟩ := foldl_dropTerminal (m.terminalExpired now) m
  have hlapsed := lapsed_dropped h now
  have hcancellations := cancellations_dropTerminal (m.terminalExpired now) m
  unfold expire
  dsimp only
  generalize (m.terminalExpired now).foldl dropTerminal m = dropped
    at hdropped hlapsed hcancellations
  obtain ⟨hoffers, htimed⟩ := foldl_timeOut (P := P) now (dropped.lapsed now) dropped
    (dropped.offers.nodup_keys.sublist (List.filter_sublist.map _))
    fun entry hentry => mem_entries.mp (List.mem_filter.mp hentry).1
  refine ⟨fun key => ?_, ?_⟩
  · refine (hoffers key).trans ?_
    rw [hdropped, hlapsed]
    by_cases hgone : key ∈ m.terminalExpired now
    · rw [if_pos hgone, if_pos hgone, map_none]
    · rw [if_neg hgone, if_neg hgone]
  · refine htimed.trans ?_
    rw [hcancellations, hlapsed]

theorem expire_stale (hoffer : m.offers.lookup key = some offer)
    (hstale : offer.Stale now) : (m.expire P now).offers.lookup key = none := by
  rw [(expire_spec h now).1, if_pos ((mem_terminalExpired hoffer).mpr hstale)]

theorem expire_lapses (hoffer : m.offers.lookup key = some offer)
    (hlapses : m.Lapses now key offer) :
    (m.expire P now).offers.lookup key = some (offer.cancelledAt P now) := by
  have hstands : ¬ offer.Stale now := by
    rintro ⟨_, hdeadline, -⟩
    exact h.not_lapses_of_ended hoffer (by rw [hdeadline]; rfl) hlapses
  rw [(expire_spec h now).1, if_neg (mt (mem_terminalExpired hoffer).mp hstands), hoffer,
    map_some, if_pos ((mem_lapsed hoffer).mpr hlapses)]

theorem expire_kept (hoffer : m.offers.lookup key = some offer)
    (hstale : ¬ offer.Stale now) (hlapses : ¬ m.Lapses now key offer) :
    (m.expire P now).offers.lookup key = some offer := by
  rw [(expire_spec h now).1, if_neg (mt (mem_terminalExpired hoffer).mp hstale), hoffer,
    map_some, if_neg (mt (mem_lapsed hoffer).mp hlapses)]

/-! ### The next deadline -/

/-- An offer waits for a deadline if and only if it goes or lapses from then on. -/
theorem deadlineOf_iff (hoffer : m.offers.lookup key = some offer) :
    (∃ deadline, m.deadlineOf key offer = some deadline ∧ deadline ≤ now) ↔
      offer.Stale now ∨ m.Lapses now key offer := by
  unfold deadlineOf
  cases hterminal : offer.terminalDeadline with
  | some =>
    have hended : ¬ m.Lapses now key offer :=
      h.not_lapses_of_ended hoffer (by rw [hterminal]; rfl)
    rw [or_iff_left hended, OfferEntry.Stale, hterminal]
  | none =>
    have hstays : ¬ offer.Stale now := by
      rintro ⟨deadline, hdeadline, -⟩
      rw [hterminal] at hdeadline
      cases hdeadline
    have hopen : offer.cancelled = false ∧ offer.terminal = none := by
      have hends := mt (h.retained key offer hoffer).mpr
        (by rw [hterminal]; exact Bool.false_ne_true)
      rw [not_or, not_isSome_iff_eq_none, Bool.not_eq_true] at hends
      exact hends.symm
    rw [or_iff_right hstays]
    cases haccepted : offer.transfer with
    | none =>
      constructor
      · rintro ⟨deadline, hdeadline, hle⟩
        cases hdeadline
        exact .acceptance hopen haccepted hle
      · intro hlapses
        cases hlapses with
        | acceptance _ _ hdeadline => exact ⟨offer.deadline, rfl, hdeadline⟩
        | idle _ _ _ hsome =>
          rw [haccepted] at hsome
          cases hsome
    | some transferId =>
      obtain ⟨transfer, htransfer, -⟩ := h.held key offer transferId hoffer haccepted
      dsimp only
      rw [htransfer]
      constructor
      · rintro ⟨_, hdeadline, hle⟩
        obtain ⟨_, hfound, rfl⟩ := Option.map_eq_some_iff.mp hdeadline
        obtain ⟨hsome, hidle⟩ := Option.filter_eq_some_iff.mp hfound
        cases hsome
        exact .idle hopen transferId transfer haccepted htransfer
          (by rwa [Bool.not_eq_true'] at hidle) hle
      · intro hlapses
        cases hlapses with
        | acceptance _ hwaits =>
          rw [haccepted] at hwaits
          cases hwaits
        | idle _ _ _ hsome hfound hidle hdeadline =>
          rw [haccepted] at hsome
          cases hsome
          rw [htransfer] at hfound
          cases hfound
          refine ⟨transfer.deadline, ?_, hdeadline⟩
          rw [filter_some, hidle]
          rfl

theorem nextDeadline_iff (session : SessionIdentity) (now : ℕ) :
    (∃ deadline, m.nextDeadline session = some deadline ∧ deadline ≤ now) ↔
      ∃ key offer, key.session = session ∧ m.offers.lookup key = some offer ∧
        (offer.Stale now ∨ m.Lapses now key offer) := by
  have hmem : ∀ deadline, deadline ∈ (m.offers.entries.filter fun entry =>
      entry.1.session = session).filterMap (fun entry => m.deadlineOf entry.1 entry.2) ↔
        ∃ key offer, key.session = session ∧ m.offers.lookup key = some offer ∧
          m.deadlineOf key offer = some deadline := by
    intro deadline
    rw [mem_filterMap]
    constructor
    · rintro ⟨⟨key, offer⟩, hentry, hdeadline⟩
      obtain ⟨hentry, hsession⟩ := List.mem_filter.mp hentry
      exact ⟨key, offer, of_decide_eq_true hsession, mem_entries.mp hentry, hdeadline⟩
    · rintro ⟨key, offer, hsession, hoffer, hdeadline⟩
      exact ⟨(key, offer), List.mem_filter.mpr
        ⟨mem_entries.mpr hoffer, decide_eq_true hsession⟩, hdeadline⟩
  constructor
  · rintro ⟨deadline, hnext, hle⟩
    obtain ⟨key, offer, hsession, hoffer, hdeadline⟩ :=
      (hmem deadline).mp (List.min?_eq_some_iff.mp hnext).1
    exact ⟨key, offer, hsession, hoffer, (deadlineOf_iff h hoffer).mp ⟨deadline, hdeadline, hle⟩⟩
  · rintro ⟨key, offer, hsession, hoffer, hdue⟩
    obtain ⟨deadline, hdeadline, hle⟩ := (deadlineOf_iff h hoffer).mpr hdue
    have hin := (hmem deadline).mpr ⟨key, offer, hsession, hoffer, hdeadline⟩
    obtain ⟨first, hnext⟩ := Option.isSome_iff_exists.mp (isSome_min?_of_mem hin)
    exact ⟨first, hnext, ((List.min?_eq_some_iff.mp hnext).2 deadline hin).trans hle⟩

end

end FileDropManager

end Vivido.FileDrop
