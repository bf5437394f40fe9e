import Vivido.FileDrop.Deadlines

/-!
The cancellations of a run. An offer keeps its number and, once cancelled, stays
cancelled as long as it is kept; so it is timed out once at most, and each time
gives one cancellation.
-/

namespace Vivido.FileDrop.FileDropManager

open Scene SortedMap List

variable {P : DropProtocol} {m m' : FileDropManager} {now : ℕ} {key : Key} {offer : OfferEntry}
  {history : List Act}

/-! ### What calls do to an offer -/

/-- Offers are made under their numbers, and keep their bindings and their cancellation. -/
structure Carries (m m' : FileDropManager) : Prop where
  counts : m.nextDropId ≤ m'.nextDropId
  offers : ∀ key offer', m'.offers.lookup key = some offer' →
    m.nextDropId < key.id ∧ offer'.binding.dropId = key.id ∨
      ∃ offer, m.offers.lookup key = some offer ∧ offer'.binding = offer.binding ∧
        (offer.cancelled = true → offer'.cancelled = true)

theorem Carries.of_fewer (hnext : m'.nextDropId = m.nextDropId)
    (hoffers : ∀ key offer, m'.offers.lookup key = some offer →
      m.offers.lookup key = some offer) : Carries m m' where
  counts := hnext.ge
  offers key offer h := Or.inr ⟨offer, hoffers key offer h, rfl, id⟩

theorem Carries.same (hnext : m'.nextDropId = m.nextDropId) (hoffers : m'.offers = m.offers) :
    Carries m m' := .of_fewer hnext fun _ _ h => hoffers ▸ h

theorem Carries.refl (m : FileDropManager) : Carries m m := .same rfl rfl

theorem Carries.setOffer {offer' : OfferEntry} (hkey : m.offers.lookup key = some offer)
    (hoffers : m'.offers = m.offers.insert key offer') (hbinding : offer'.binding = offer.binding)
    (hcancelled : offer.cancelled = true → offer'.cancelled = true)
    (hnext : m'.nextDropId = m.nextDropId) : Carries m m' where
  counts := hnext.ge
  offers other found hfound := by
    rw [hoffers, lookup_insert] at hfound
    split at hfound
    · rename_i hsame
      cases hfound
      exact Or.inr ⟨offer, hsame ▸ hkey, hbinding, hcancelled⟩
    · exact Or.inr ⟨found, hfound, rfl, id⟩

theorem Moves.carries (h : Moves m m') : Carries m m' := by
  cases h with
  | same => exact .refl m
  | connected => exact .same rfl rfl
  | accepted hkey => exact .setOffer hkey rfl rfl id rfl
  | advanced _ hoffer => exact .setOffer hoffer rfl rfl id rfl
  | offered hnew hbinding =>
    refine ⟨hnew.le, fun other found hfound => ?_⟩
    rw [lookup_insert] at hfound
    split at hfound
    · rename_i hsame
      cases hfound
      rw [hsame]
      exact Or.inl ⟨hnew, hbinding⟩
    · exact Or.inr ⟨found, hfound, rfl, id⟩

theorem Finishes.carries (h : Finishes m m') : Carries m m' := by
  cases h with
  | same => exact .refl m
  | recorded _ hoffer => exact .setOffer hoffer rfl rfl id rfl

theorem carries_cancel (m : FileDropManager) (now : ℕ) (session : SessionIdentity)
    (cancellation : CancelFileDrop) : Carries m (m.cancel P now session cancellation).1 := by
  unfold FileDropManager.cancel
  dsimp only
  split
  · exact .refl m
  rename_i offer hkey
  split
  · exact .refl m
  · exact .setOffer hkey rfl rfl (fun _ => rfl) rfl

theorem Fewer.carries (h : Fewer m m') : Carries m m' := .of_fewer h.counts h.offers

theorem carries_step (m : FileDropManager) (act : Act) :
    Carries (m.expired P act) (m.step P act) := by
  cases act with
  | cancel now session cancellation => exact carries_cancel m now session cancellation
  | finishTransfer now session result gesturePaste pathNegotiated sha256 =>
    exact (finishes_finishTransfer m now session result gesturePaste pathNegotiated sha256).carries
  | takePendingPastes => exact .same rfl rfl
  | setBinding | serviceTimeouts | removeSession | removeContexts | removeSurface =>
    exact (fewer_step m rfl).carries
  | _ => exact (moves_step m rfl).carries

theorem carries_expire (h : m.Indexed) (now : ℕ) : Carries m (m.expire P now) := by
  refine ⟨(nextDropId_expire m now).ge, fun key offer' hoffer' => Or.inr ?_⟩
  rw [(expire_spec h now).1] at hoffer'
  split at hoffer'
  · cases hoffer'
  · obtain ⟨offer, hoffer, rfl⟩ := Option.map_eq_some_iff.mp hoffer'
    refine ⟨offer, hoffer, ?_⟩
    split
    · exact ⟨rfl, fun _ => rfl⟩
    · exact ⟨rfl, id⟩

theorem carries_expired (h : m.Indexed) (act : Act) : Carries m (m.expired P act) := by
  unfold expired
  split
  · exact .refl m
  · exact carries_expire h _

/-! ### Cancellations over a run -/

/-- The cancellations that a call takes out, to be sent or with what they are about. -/
def takes (P : DropProtocol) (m : FileDropManager) :
    Act → List (SessionIdentity × CancelFileDrop)
  | .serviceTimeouts now session => (m.serviceTimeouts P now session).2.map (session, ·)
  | .removeSession session => m.cancellations.filter (·.1 = session)
  | .removeContexts session contexts => m.cancellations.filter fun entry =>
    entry.1 = session ∧ entry.2.binding.contextId ∈ contexts
  | .removeSurface key => m.cancellations.filter fun entry =>
    (⟨⟨entry.1, entry.2.binding.contextId⟩, entry.2.binding.surfaceId⟩ : SurfaceIdentity) = key
  | _ => []

def taken (P : DropProtocol) (history : List Act) : List (SessionIdentity × CancelFileDrop) :=
  (history.foldl (fun (m, before) act => (step P m act, before ++ m.takes P act)) ({}, [])).2

theorem taken_concat (history : List Act) (act : Act) :
    taken P (history ++ [act]) = taken P history ++ (run P history).takes P act := by
  have hfirst : ∀ history : List Act, (history.foldl
      (fun (m, before) act => (step P m act, before ++ m.takes P act)) ({}, [])).1 =
        run P history := by
    intro history
    induction history using List.reverseRecOn with
    | nil => rfl
    | append_singleton _ _ ih =>
      rw [foldl_append, run_concat, ← ih]
      rfl
  unfold taken
  rw [foldl_append, ← hfirst]
  rfl

/-- All cancellations that were given, taken out or not. -/
def given (P : DropProtocol) (history : List Act) : List (SessionIdentity × CancelFileDrop) :=
  taken P history ++ (run P history).cancellations

/-- The cancellation is of the offer. -/
def cancels (key : Key) (entry : SessionIdentity × CancelFileDrop) : Bool :=
  entry.1 = key.session ∧ entry.2.binding.dropId = key.id

/-- The call times the offer out. -/
def TimedOutBy (m : FileDropManager) (key : Key) (act : Act) : Prop :=
  ∃ now offer, act.clock = some now ∧ m.offers.lookup key = some offer ∧ m.Lapses now key offer

/-- The offer was timed out. -/
def TimesOut (P : DropProtocol) (history : List Act) (key : Key) : Prop :=
  ∃ earlier act later, history = earlier ++ act :: later ∧ (run P earlier).TimedOutBy key act

theorem countP_filter_add {α : Type*} (p q : α → Bool) (l : List α) :
    (l.filter q).countP p + (l.filter fun a => !q a).countP p = l.countP p := by
  induction l with
  | nil => rfl
  | cons a _ ih =>
    rw [countP_cons, ← ih]
    cases hq : q a with
    | true =>
      rw [filter_cons_of_pos hq,
        filter_cons_of_neg (by rw [hq]; exact Bool.false_ne_true), countP_cons]
      omega
    | false =>
      rw [filter_cons_of_neg (by rw [hq]; exact Bool.false_ne_true),
        filter_cons_of_pos (by rw [hq]; rfl), countP_cons]
      omega

theorem cancellations_setBinding (m : FileDropManager) (session : SessionIdentity)
    (binding : FileDropBinding) (allow : Bool) :
    (m.setBinding P session binding allow).1.cancellations = m.cancellations := by
  have hbind : ∀ key, (m.bind P key binding allow).1.cancellations = m.cancellations := by
    intro _
    unfold bind
    dsimp only
    repeat' split
    all_goals rfl
  unfold setBinding
  dsimp only
  split
  · rfl
  split
  · exact hbind _
  split
  · rfl
  split
  · split
    · rfl
    · rfl
  · exact hbind _

/-- A call takes out what it leaves out. -/
theorem countP_takes (m : FileDropManager) (act : Act)
    (p : SessionIdentity × CancelFileDrop → Bool) :
    (m.takes P act).countP p + (m.step P act).cancellations.countP p =
      (m.expired P act).cancellations.countP p := by
  have hrest : ∀ {q : SessionIdentity × CancelFileDrop → Bool}
      {kept l : List (SessionIdentity × CancelFileDrop)}, kept = l.filter (fun a => !q a) →
        (l.filter q).countP p + kept.countP p = l.countP p := by
    intro q _ l hkept
    rw [hkept]
    exact countP_filter_add p q l
  by_cases hsetting : act.isSetting = false
  · have htakes : m.takes P act = [] := by
      cases act with
      | serviceTimeouts | removeSession | removeContexts | removeSurface => cases hsetting
      | _ => rfl
    rw [htakes, (aside_step m hsetting).cancellations]
    exact Nat.zero_add _
  cases act with
  | setBinding session binding allow =>
    have hsame : (m.step P (.setBinding session binding allow)).cancellations = m.cancellations :=
      cancellations_setBinding m session binding allow
    rw [hsame]
    exact Nat.zero_add _
  | serviceTimeouts now session =>
    have hsent : m.takes P (.serviceTimeouts now session) =
        (m.expire P now).cancellations.filter (·.1 = session) := by
      change ((List.map Prod.snd _).map (session, ·)) = _
      rw [map_map]
      refine (map_congr_left fun entry hentry => ?_).trans (map_id _)
      have hsession : entry.1 = session := of_decide_eq_true (List.mem_filter.mp hentry).2
      rw [← hsession]
      rfl
    rw [hsent]
    refine hrest (filter_congr fun entry _ => ?_)
    rw [decide_not]
  | removeSession | removeSurface =>
    refine hrest (filter_congr fun entry _ => ?_)
    rw [decide_not]
  | removeContexts =>
    refine hrest (filter_congr fun entry _ => ?_)
    rw [← decide_not]
    exact decide_eq_decide.mpr not_and_or.symm
  | _ => exact (hsetting rfl).elim

/-- Each offer is kept under its own number. -/
def Tagged (m : FileDropManager) : Prop :=
  ∀ key offer, m.offers.lookup key = some offer → offer.binding.dropId = key.id

theorem Tagged.carries (h : m.Tagged) (hcarries : Carries m m') : m'.Tagged := by
  intro key offer' hoffer'
  rcases hcarries.offers key offer' hoffer' with ⟨-, htag⟩ | ⟨offer, hoffer, hbinding, -⟩
  · exact htag
  · rw [hbinding]
    exact h key offer hoffer

/-- The offer was cancelled, and its number is used up. -/
structure Cancelled (m : FileDropManager) (key : Key) : Prop where
  counted : key.id ≤ m.nextDropId
  cancelled : ∀ offer, m.offers.lookup key = some offer → offer.cancelled = true

theorem Cancelled.carries (h : m.Cancelled key) (hcarries : Carries m m') : m'.Cancelled key := by
  refine ⟨h.counted.trans hcarries.counts, fun offer' hoffer' => ?_⟩
  rcases hcarries.offers key offer' hoffer' with ⟨hnew, -⟩ | ⟨offer, hoffer, -, hstays⟩
  · exact (h.counted.not_gt hnew).elim
  · exact hstays (h.cancelled offer hoffer)

theorem Cancelled.not_timedOutBy (h : m.Cancelled key) (act : Act) : ¬ m.TimedOutBy key act := by
  rintro ⟨_, offer, -, hoffer, hlapses⟩
  have hcancelled := h.cancelled offer hoffer
  cases hlapses with
  | acceptance hopen | idle hopen =>
    rw [hopen.1] at hcancelled
    cases hcancelled

theorem TimedOutBy.cancelled (h : m.Indexed) {act : Act} (htimed : m.TimedOutBy key act) :
    (m.expired P act).Cancelled key := by
  obtain ⟨_, offer, hclock, hoffer, hlapses⟩ := htimed
  unfold expired
  rw [hclock]
  refine ⟨?_, fun found hfound => ?_⟩
  · rw [nextDropId_expire]
    exact h.numbered key offer hoffer
  · dsimp only at hfound
    rw [expire_lapses h hoffer hlapses] at hfound
    cases hfound
    rfl

theorem mem_lapsed_map : key ∈ (m.lapsed now).map Prod.fst ↔
    ∃ offer, m.offers.lookup key = some offer ∧ m.Lapses now key offer := by
  constructor
  · intro hmem
    obtain ⟨entry, hentry, rfl⟩ := List.mem_map.mp hmem
    have hoffer := mem_entries.mp (List.mem_filter.mp hentry).1
    exact ⟨entry.2, hoffer, (mem_lapsed hoffer).mp hmem⟩
  · rintro ⟨_, hoffer, hlapses⟩
    exact (mem_lapsed hoffer).mpr hlapses

/-- Of the cancellations of lapsed offers, an offer's own are as many as the times it lapses. -/
theorem countP_lapsed (h : m.Tagged) (now : ℕ) (key : Key) :
    ((m.lapsed now).map cancellationOf).countP (cancels key) =
      ((m.lapsed now).map Prod.fst).count key := by
  rw [countP_map, List.count, countP_map]
  refine countP_congr fun entry hentry => ?_
  have hoffer := mem_entries.mp (List.mem_filter.mp hentry).1
  have htag := h entry.1 entry.2 hoffer
  simp only [Function.comp, cancels, cancellationOf, decide_eq_true_eq, beq_iff_eq, htag]
  constructor
  · rintro ⟨hsession, hid⟩
    obtain ⟨_, _⟩ := key
    cases hsession
    cases hid
    rfl
  · intro heq
    rw [heq]
    exact ⟨rfl, rfl⟩

theorem cancellations_expired (h : m.Indexed) (htagged : m.Tagged) (act : Act) (key : Key) :
    (m.TimedOutBy key act → (m.expired P act).cancellations.countP (cancels key) =
      m.cancellations.countP (cancels key) + 1) ∧
    (¬ m.TimedOutBy key act → (m.expired P act).cancellations.countP (cancels key) =
      m.cancellations.countP (cancels key)) := by
  unfold expired
  cases hclock : act.clock with
  | none =>
    refine ⟨?_, fun _ => rfl⟩
    rintro ⟨now, offer, hsome, -⟩
    rw [hclock] at hsome
    cases hsome
  | some now =>
    dsimp only
    have hnodup : ((m.lapsed now).map Prod.fst).Nodup :=
      m.offers.nodup_keys.sublist (List.filter_sublist.map _)
    rw [(expire_spec h now).2, countP_append, countP_lapsed htagged]
    constructor
    · rintro ⟨_, offer, hsome, hoffer, hlapses⟩
      rw [hclock] at hsome
      cases hsome
      rw [count_eq_one_of_mem hnodup ((mem_lapsed hoffer).mpr hlapses)]
    · intro hstands
      rw [count_eq_zero_of_not_mem, Nat.add_zero]
      intro hmem
      obtain ⟨offer, hoffer, hlapses⟩ := mem_lapsed_map.mp hmem
      exact hstands ⟨now, offer, hclock, hoffer, hlapses⟩

theorem timesOut_concat {act : Act} : TimesOut P (history ++ [act]) key ↔
    TimesOut P history key ∨ (run P history).TimedOutBy key act := by
  constructor
  · rintro ⟨earlier, b, later, heq, htimed⟩
    rcases eq_nil_or_concat later with rfl | ⟨later, _, rfl⟩
    · obtain ⟨rfl, hlast⟩ := append_inj' heq rfl
      cases hlast
      exact Or.inr htimed
    · rw [concat_eq_append, ← cons_append, ← append_assoc] at heq
      obtain ⟨rfl, -⟩ := append_inj' heq rfl
      exact Or.inl ⟨earlier, b, later, rfl, htimed⟩
  · rintro (⟨earlier, b, later, rfl, htimed⟩ | htimed)
    · exact ⟨earlier, b, later ++ [act], by rw [append_assoc, cons_append], htimed⟩
    · exact ⟨history, act, [], rfl, htimed⟩

/-- What was given for each offer after a history. -/
structure CancelledOnce (P : DropProtocol) (history : List Act) : Prop where
  tagged : (run P history).Tagged
  once : ∀ key, TimesOut P history key →
    (given P history).countP (cancels key) = 1 ∧ (run P history).Cancelled key
  never : ∀ key, ¬ TimesOut P history key → (given P history).countP (cancels key) = 0

theorem countP_given_concat (act : Act) (p : SessionIdentity × CancelFileDrop → Bool) :
    (given P (history ++ [act])).countP p =
      (taken P history).countP p + ((run P history).expired P act).cancellations.countP p := by
  rw [given, taken_concat, run_concat, countP_append, countP_append, Nat.add_assoc,
    countP_takes]

theorem CancelledOnce.step (h : CancelledOnce P history) (act : Act) :
    CancelledOnce P (history ++ [act]) := by
  have hindexed := indexed_run (P := P) history
  have hexpired := carries_expired (P := P) hindexed act
  have hstep := carries_step (P := P) (run P history) act
  have hgiven : ∀ key, (given P history).countP (cancels key) =
      (taken P history).countP (cancels key) +
        (run P history).cancellations.countP (cancels key) := fun key => countP_append
  refine ⟨?_, fun key htimes => ?_, fun key hnever => ?_⟩
  · rw [run_concat]
    exact (h.tagged.carries hexpired).carries hstep
  · obtain ⟨hlapses, hstands⟩ := cancellations_expired (P := P) hindexed h.tagged act key
    rw [countP_given_concat, run_concat]
    by_cases hbefore : TimesOut P history key
    · obtain ⟨hone, hcancelled⟩ := h.once key hbefore
      refine ⟨?_, (hcancelled.carries hexpired).carries hstep⟩
      rw [hstands (hcancelled.not_timedOutBy act), ← hgiven]
      exact hone
    · have hnow : (run P history).TimedOutBy key act :=
        (timesOut_concat.mp htimes).resolve_left hbefore
      refine ⟨?_, (hnow.cancelled hindexed).carries hstep⟩
      have hzero := h.never key hbefore
      rw [hgiven] at hzero
      rw [hlapses hnow]
      omega
  · rw [timesOut_concat, not_or] at hnever
    obtain ⟨-, hstands⟩ := cancellations_expired (P := P) hindexed h.tagged act key
    rw [countP_given_concat, hstands hnever.2, ← hgiven]
    exact h.never key hnever.1

theorem cancelledOnce_run (history : List Act) : CancelledOnce P history := by
  induction history using List.reverseRecOn with
  | nil =>
    refine ⟨fun key offer hoffer => (by cases hoffer), fun key htimes => ?_, fun _ _ => rfl⟩
    obtain ⟨earlier, act, _, heq, -⟩ := htimes
    cases earlier with
    | nil | cons => cases heq
  | append_singleton _ act ih => exact ih.step act

/-! ### Timers -/

/-- Deadlines are served: the next one of a session is the first time at which expiry changes an
offer of it, expiry takes the offers whose deadline has come and no others, and an offer gives one
cancellation if it is timed out and none otherwise. -/
structure TimersExact (P : DropProtocol) (history : List Act) : Prop where
  next : ∀ session now,
    (∃ deadline, (run P history).nextDeadline session = some deadline ∧ deadline ≤ now) ↔
      ∃ key, key.session = session ∧
        ((run P history).expire P now).offers.lookup key ≠ (run P history).offers.lookup key
  stale : ∀ now key offer, (run P history).offers.lookup key = some offer → offer.Stale now →
    ((run P history).expire P now).offers.lookup key = none
  lapses : ∀ now key offer, (run P history).offers.lookup key = some offer →
    (run P history).Lapses now key offer →
      ((run P history).expire P now).offers.lookup key = some (offer.cancelledAt P now)
  kept : ∀ now key offer, (run P history).offers.lookup key = some offer → ¬ offer.Stale now →
    ¬ (run P history).Lapses now key offer →
      ((run P history).expire P now).offers.lookup key = some offer
  absent : ∀ now key, (run P history).offers.lookup key = none →
    ((run P history).expire P now).offers.lookup key = none
  once : ∀ key, TimesOut P history key → (given P history).countP (cancels key) = 1
  never : ∀ key, ¬ TimesOut P history key → (given P history).countP (cancels key) = 0

theorem expire_absent (h : m.Indexed) (hnone : m.offers.lookup key = none) :
    (m.expire P now).offers.lookup key = none := by
  rw [(expire_spec h now).1, hnone, Option.map_none, ite_self]

theorem Lapses.stands (h : m.Lapses now key offer) : offer.cancelled = false := by
  cases h with
  | acceptance hopen | idle hopen => exact hopen.1

theorem expire_changes_iff (h : m.Indexed) (session : SessionIdentity) (now : ℕ) :
    (∃ key, key.session = session ∧ (m.expire P now).offers.lookup key ≠ m.offers.lookup key) ↔
      ∃ key offer, key.session = session ∧ m.offers.lookup key = some offer ∧
        (offer.Stale now ∨ m.Lapses now key offer) := by
  constructor
  · rintro ⟨key, hsession, hchanges⟩
    cases hoffer : m.offers.lookup key with
    | none =>
      rw [hoffer] at hchanges
      exact (hchanges (expire_absent h hoffer)).elim
    | some offer =>
      refine ⟨key, offer, hsession, hoffer, ?_⟩
      by_contra hdue
      rw [not_or] at hdue
      rw [hoffer] at hchanges
      exact hchanges (expire_kept h hoffer hdue.1 hdue.2)
  · rintro ⟨key, _, hsession, hoffer, hstale | hlapses⟩
    · refine ⟨key, hsession, fun hsame => ?_⟩
      rw [expire_stale h hoffer hstale, hoffer] at hsame
      cases hsame
    · refine ⟨key, hsession, fun hsame => ?_⟩
      rw [expire_lapses h hoffer hlapses, hoffer] at hsame
      have hcancelled := congrArg OfferEntry.cancelled (Option.some.inj hsame)
      rw [hlapses.stands] at hcancelled
      cases hcancelled

theorem timers_exact (P : DropProtocol) (history : List Act) : TimersExact P history where
  next session now := (nextDeadline_iff (indexed_run history) session now).trans
    (expire_changes_iff (indexed_run history) session now).symm
  stale _ _ _ hoffer hstale := expire_stale (indexed_run history) hoffer hstale
  lapses _ _ _ hoffer hlapses := expire_lapses (indexed_run history) hoffer hlapses
  kept _ _ _ hoffer hstale hlapses := expire_kept (indexed_run history) hoffer hstale hlapses
  absent _ _ hnone := expire_absent (indexed_run history) hnone
  once key htimes := ((cancelledOnce_run history).once key htimes).1
  never key hnever := (cancelledOnce_run history).never key hnever

end Vivido.FileDrop.FileDropManager
