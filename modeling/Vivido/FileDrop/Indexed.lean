import Vivido.FileDrop.Calls
import Vivido.Support.Since

/-!
How the manager's tables agree: a transfer and its offer name each other, and an
offer is kept with its deadline once it has ended. Of an offer that stays, its
end is only ever written once, save for a cancellation of what has already ended.
-/

namespace Vivido.FileDrop

open Scene SortedMap Option

/-- What becomes of an offer that stays. -/
structure OfferEntry.Grows (offer offer' : OfferEntry) : Prop where
  binding : offer'.binding = offer.binding
  /-- A recorded result never changes. -/
  terminal : ∀ result, offer.terminal = some result → offer'.terminal = some result
  /-- A cancelled offer never gets a result. -/
  cancelled : offer.cancelled = true → offer'.cancelled = true ∧ offer'.terminal = offer.terminal
  /-- A retention deadline is never postponed. -/
  deadline : ∀ deadline, offer.terminalDeadline = some deadline →
    ∃ deadline', offer'.terminalDeadline = some deadline' ∧ deadline' ≤ deadline

theorem OfferEntry.Grows.refl (offer : OfferEntry) : offer.Grows offer :=
  ⟨rfl, fun _ h => h, fun h => ⟨h, rfl⟩, fun deadline h => ⟨deadline, h, le_rfl⟩⟩

theorem OfferEntry.Grows.trans {offer offer' offer'' : OfferEntry} (h : offer.Grows offer')
    (h' : offer'.Grows offer'') : offer.Grows offer'' where
  binding := h'.binding.trans h.binding
  terminal result hresult := h'.terminal result (h.terminal result hresult)
  cancelled hcancelled := by
    obtain ⟨hstays, hsame⟩ := h.cancelled hcancelled
    obtain ⟨hstays', hsame'⟩ := h'.cancelled hstays
    exact ⟨hstays', hsame'.trans hsame⟩
  deadline deadline hdeadline := by
    obtain ⟨middle, hmiddle, hle⟩ := h.deadline deadline hdeadline
    obtain ⟨last, hlast, hle'⟩ := h'.deadline middle hmiddle
    exact ⟨last, hlast, hle'.trans hle⟩

namespace FileDropManager

/-- The tables agree. -/
structure Indexed (m : FileDropManager) : Prop where
  numbered : ∀ key offer, m.offers.lookup key = some offer → key.id ≤ m.nextDropId
  /-- A transfer names an offer that exists and has the transfer's number. -/
  named : ∀ key transfer, m.transfers.lookup key = some transfer →
    ∃ offer, m.offers.lookup ⟨key.session, transfer.dropId⟩ = some offer ∧
      offer.transfer = some key.id ∧
        transfer.bindingKey key.session = offer.bindingKey key.session
  /-- The transfer of an offer names it, and that of a cancelled one is not active. -/
  held : ∀ key offer id, m.offers.lookup key = some offer → offer.transfer = some id →
    ∃ transfer, m.transfers.lookup ⟨key.session, id⟩ = some transfer ∧ transfer.dropId = key.id ∧
      (offer.cancelled = true → transfer.active = false)
  sourced : ∀ key offer, m.offers.lookup key = some offer → offer.source = none →
    offer.terminal.isSome = true ∨ offer.cancelled = true
  retained : ∀ key offer, m.offers.lookup key = some offer →
    (offer.terminalDeadline.isSome = true ↔
      offer.terminal.isSome = true ∨ offer.cancelled = true)

/-- The offers that stay grow, and new ones have new numbers. -/
structure Keeps (m m' : FileDropManager) : Prop where
  counts : m.nextDropId ≤ m'.nextDropId
  grows : ∀ key offer', m'.offers.lookup key = some offer' →
    m.nextDropId < key.id ∨ ∃ offer, m.offers.lookup key = some offer ∧ offer.Grows offer'

variable {P : DropProtocol} {m m' m'' : FileDropManager}

theorem Keeps.trans (h : Keeps m m') (h' : Keeps m' m'') : Keeps m m'' where
  counts := h.counts.trans h'.counts
  grows key offer'' hoffer := by
    rcases h'.grows key offer'' hoffer with hnew | ⟨offer', hoffer', hgrows'⟩
    · exact Or.inl (h.counts.trans_lt hnew)
    · rcases h.grows key offer' hoffer' with hnew | ⟨offer, hoffer, hgrows⟩
      · exact Or.inl hnew
      · exact Or.inr ⟨offer, hoffer, hgrows.trans hgrows'⟩

/-- Offers are dropped at most. -/
theorem Keeps.of_fewer (hnext : m'.nextDropId = m.nextDropId)
    (hoffers : ∀ key offer, m'.offers.lookup key = some offer → m.offers.lookup key = some offer) :
    Keeps m m' where
  counts := hnext.ge
  grows key offer hoffer := Or.inr ⟨offer, hoffers key offer hoffer, .refl offer⟩

theorem Keeps.refl (m : FileDropManager) : Keeps m m := .of_fewer rfl fun _ _ h => h

theorem Keeps.of_insert {key : Key} {offer offer' : OfferEntry}
    (hkey : m.offers.lookup key = some offer) (hgrows : offer.Grows offer')
    (hnext : m'.nextDropId = m.nextDropId) (hoffers : m'.offers = m.offers.insert key offer') :
    Keeps m m' where
  counts := hnext.ge
  grows key' found hfound := by
    rw [hoffers, lookup_insert] at hfound
    split at hfound
    · rename_i hsame
      cases hfound
      exact Or.inr ⟨offer, hsame ▸ hkey, hgrows⟩
    · exact Or.inr ⟨found, hfound, .refl found⟩

/-! ### What keeps the tables in agreement -/

/-- Tables other than those of offers and transfers are of no account. -/
theorem Indexed.of_same (h : m.Indexed) (hoffers : m'.offers = m.offers)
    (htransfers : m'.transfers = m.transfers) (hnext : m'.nextDropId = m.nextDropId) :
    m'.Indexed := by
  refine ⟨?_, ?_, ?_, ?_, ?_⟩
  · rw [hoffers, hnext]
    exact h.numbered
  · rw [hoffers, htransfers]
    exact h.named
  · rw [hoffers, htransfers]
    exact h.held
  · rw [hoffers]
    exact h.sourced
  · rw [hoffers]
    exact h.retained

/-- A transfer changes that keeps what it names; only one whose offer stands may be active. -/
theorem Indexed.setTransfer (h : m.Indexed) {key : Key} {transfer transfer' : TransferEntry}
    (hkey : m.transfers.lookup key = some transfer) (hdrop : transfer'.dropId = transfer.dropId)
    (hbinding : transfer'.bindingKey key.session = transfer.bindingKey key.session)
    (hactive : transfer'.active = true → ∀ offer,
      m.offers.lookup ⟨key.session, transfer.dropId⟩ = some offer → offer.cancelled = false) :
    ({ m with transfers := m.transfers.insert key transfer' } : FileDropManager).Indexed where
  numbered := h.numbered
  named key' found hfound := by
    rw [lookup_insert] at hfound
    split at hfound
    · rename_i hsame
      cases hfound
      rw [hsame, hdrop, hbinding]
      exact h.named key transfer hkey
    · exact h.named key' found hfound
  held key' offer id hoffer hid := by
    obtain ⟨found, hfound, hnames, hidle⟩ := h.held key' offer id hoffer hid
    dsimp only
    rw [lookup_insert]
    split
    · rename_i hsame
      rw [hsame, hkey] at hfound
      cases hfound
      refine ⟨transfer', rfl, hdrop.trans hnames, fun hcancelled => ?_⟩
      by_contra hbusy
      have hstands := hactive (Bool.of_not_eq_false hbusy) offer (by
        rw [← hsame, hnames]
        exact hoffer)
      rw [hcancelled] at hstands
      cases hstands
    · exact ⟨found, hfound, hnames, hidle⟩
  sourced := h.sourced
  retained := h.retained

/-- An offer changes that keeps its binding and its transfer. -/
theorem Indexed.setOffer (h : m.Indexed) {key : Key} {offer offer' : OfferEntry}
    (hkey : m.offers.lookup key = some offer) (hbinding : offer'.binding = offer.binding)
    (htransfer : offer'.transfer = offer.transfer)
    (hidle : offer'.cancelled = true → ∀ id transfer, offer.transfer = some id →
      m.transfers.lookup ⟨key.session, id⟩ = some transfer → transfer.active = false)
    (hsourced : offer'.source = none → offer'.terminal.isSome = true ∨ offer'.cancelled = true)
    (hretained : offer'.terminalDeadline.isSome = true ↔
      offer'.terminal.isSome = true ∨ offer'.cancelled = true) :
    ({ m with offers := m.offers.insert key offer' } : FileDropManager).Indexed where
  numbered key' found hfound := by
    rw [lookup_insert] at hfound
    split at hfound
    · rename_i hsame
      rw [hsame]
      exact h.numbered key offer hkey
    · exact h.numbered key' found hfound
  named key' transfer hfound := by
    obtain ⟨before, hbefore, hnames, hsame⟩ := h.named key' transfer hfound
    dsimp only
    rw [lookup_insert]
    split
    · rename_i heq
      rw [heq, hkey] at hbefore
      cases hbefore
      refine ⟨offer', rfl, htransfer.trans hnames, hsame.trans ?_⟩
      unfold OfferEntry.bindingKey
      rw [hbinding]
    · exact ⟨before, hbefore, hnames, hsame⟩
  held key' found id hfound hid := by
    rw [lookup_insert] at hfound
    split at hfound
    · rename_i hsame
      cases hfound
      rw [htransfer] at hid
      obtain ⟨transfer, htransfer, hnames, -⟩ := h.held key offer id hkey hid
      rw [hsame]
      exact ⟨transfer, htransfer, hnames, fun hcancelled =>
        hidle hcancelled id transfer hid htransfer⟩
    · exact h.held key' found id hfound hid
  sourced key' found hfound := by
    rw [lookup_insert] at hfound
    split at hfound
    · cases hfound
      exact hsourced
    · exact h.sourced key' found hfound
  retained key' found hfound := by
    rw [lookup_insert] at hfound
    split at hfound
    · cases hfound
      exact hretained
    · exact h.retained key' found hfound

/-- What is under some bindings goes, offers and transfers alike. -/
theorem Indexed.prune (h : m.Indexed) (gone : SurfaceIdentity → Prop)
    (hnext : m'.nextDropId = m.nextDropId)
    (hoffers : ∀ key offer, m'.offers.lookup key = some offer ↔
      m.offers.lookup key = some offer ∧ ¬ gone (offer.bindingKey key.session))
    (htransfers : ∀ key transfer, m'.transfers.lookup key = some transfer ↔
      m.transfers.lookup key = some transfer ∧ ¬ gone (transfer.bindingKey key.session)) :
    m'.Indexed where
  numbered key offer hoffer := by
    rw [hnext]
    exact h.numbered key offer ((hoffers key offer).mp hoffer).1
  named key transfer htransfer := by
    obtain ⟨htransfer, hstays⟩ := (htransfers key transfer).mp htransfer
    obtain ⟨offer, hoffer, hnames, hsame⟩ := h.named key transfer htransfer
    exact ⟨offer, (hoffers _ offer).mpr ⟨hoffer, hsame ▸ hstays⟩, hnames, hsame⟩
  held key offer id hoffer hid := by
    obtain ⟨hoffer, hstays⟩ := (hoffers key offer).mp hoffer
    obtain ⟨transfer, htransfer, hnames, hidle⟩ := h.held key offer id hoffer hid
    obtain ⟨_, hfound, -, hsame⟩ := h.named _ transfer htransfer
    rw [hnames, hoffer] at hfound
    cases hfound
    exact ⟨transfer, (htransfers _ transfer).mpr ⟨htransfer, hsame.symm ▸ hstays⟩, hnames, hidle⟩
  sourced key offer hoffer := h.sourced key offer ((hoffers key offer).mp hoffer).1
  retained key offer hoffer := h.retained key offer ((hoffers key offer).mp hoffer).1

theorem lookup_filter_iff {κ α : Type*} [LinearOrder κ] {table : SortedMap κ α} {key : κ}
    {value : α} (keep : κ × α → Prop) [DecidablePred keep] :
    (table.filter fun entry => keep entry).lookup key = some value ↔
      table.lookup key = some value ∧ keep (key, value) := by
  rw [lookup_filter, filter_eq_some_iff, decide_eq_true_eq]

/-! ### Expiry -/

theorem cancelOffer_eq (m : FileDropManager) (now : ℕ) (key : Key) (offer : OfferEntry) :
    m.cancelOffer P now key offer =
      { ({ m with
          transfers := match offer.transfer with
            | none => m.transfers
            | some transferId =>
              m.transfers.adjust ⟨key.session, transferId⟩ fun transfer =>
                { transfer with active := false } } : FileDropManager) with
        offers := m.offers.insert key { cancelOfferSource offer with
          cancelled := true
          terminalDeadline := some (now + P.resultRetentionUs) } } := rfl

theorem Indexed.cancelOffer (h : m.Indexed) (now : ℕ) {key : Key} {offer : OfferEntry}
    (hkey : m.offers.lookup key = some offer) : (m.cancelOffer P now key offer).Indexed := by
  rw [cancelOffer_eq]
  have hidle : ∀ {m' : FileDropManager}, m'.Indexed → m'.offers = m.offers →
      (∀ id transfer, offer.transfer = some id →
        m'.transfers.lookup ⟨key.session, id⟩ = some transfer → transfer.active = false) →
      ({ m' with offers := m'.offers.insert key { cancelOfferSource offer with
          cancelled := true
          terminalDeadline := some (now + P.resultRetentionUs) } } : FileDropManager).Indexed := by
    intro m' h' hoffers hidle
    have hkey' : m'.offers.lookup key = some offer := by rw [hoffers, hkey]
    refine h'.setOffer hkey' rfl rfl (fun _ => hidle) (fun _ => Or.inr rfl) ?_
    exact iff_of_true rfl (Or.inr rfl)
  cases htransfer : offer.transfer with
  | none =>
    refine hidle h rfl fun id transfer hid => ?_
    rw [htransfer] at hid
    cases hid
  | some transferId =>
    obtain ⟨transfer, hlookup, -, -⟩ := h.held key offer transferId hkey htransfer
    have hset : ({ m with transfers := m.transfers.adjust ⟨key.session, transferId⟩ fun transfer =>
        { transfer with active := false } } : FileDropManager).Indexed := by
      rw [adjust_of_lookup _ hlookup]
      exact h.setTransfer hlookup rfl rfl nofun
    refine hidle hset rfl fun id found hid hfound => ?_
    rw [htransfer] at hid
    cases hid
    dsimp only at hfound
    rw [lookup_adjust, if_pos rfl, hlookup] at hfound
    cases hfound
    rfl

/-- A cancellation grows an offer exactly if it postpones no deadline. -/
theorem grows_cancelled {offer : OfferEntry} {limit : ℕ} :
    offer.Grows { cancelOfferSource offer with
      cancelled := true, terminalDeadline := some limit } ↔
      ∀ deadline, offer.terminalDeadline = some deadline → limit ≤ deadline := by
  constructor
  · intro h deadline hdeadline
    obtain ⟨_, hsome, hle⟩ := h.deadline deadline hdeadline
    cases hsome
    exact hle
  · intro h
    exact ⟨rfl, fun _ hresult => hresult, fun _ => ⟨rfl, rfl⟩,
      fun deadline hdeadline => ⟨_, rfl, h deadline hdeadline⟩⟩

theorem keeps_cancelOffer (m : FileDropManager) (now : ℕ) {key : Key} {offer : OfferEntry}
    (hkey : m.offers.lookup key = some offer) (hnew : ∀ deadline,
      offer.terminalDeadline = some deadline → now + P.resultRetentionUs ≤ deadline) :
    Keeps m (m.cancelOffer P now key offer) :=
  .of_insert hkey (grows_cancelled.mpr hnew) rfl rfl

theorem Indexed.timeOut (h : m.Indexed) (now : ℕ) (key : Key) : (m.timeOut P now key).Indexed := by
  unfold FileDropManager.timeOut
  split
  · exact h
  · rename_i offer hkey
    exact (h.cancelOffer now hkey).of_same rfl rfl rfl

theorem keeps_timeOut (m : FileDropManager) (now : ℕ) {key : Key} (hnew : ∀ offer,
    m.offers.lookup key = some offer → offer.terminalDeadline = none) :
    Keeps m (m.timeOut P now key) := by
  unfold FileDropManager.timeOut
  split
  · exact .refl m
  rename_i offer hkey
  have hkeeps : Keeps m (m.cancelOffer P now key offer) := by
    refine keeps_cancelOffer m now hkey fun deadline hdeadline => ?_
    rw [hnew offer hkey] at hdeadline
    cases hdeadline
  exact ⟨hkeeps.counts, hkeeps.grows⟩

theorem lookup_timeOut (m : FileDropManager) (now : ℕ) {key key' : Key} (hne : key' ≠ key) :
    (m.timeOut P now key).offers.lookup key' = m.offers.lookup key' := by
  unfold FileDropManager.timeOut
  split
  · rfl
  · exact lookup_insert_of_ne hne

theorem Indexed.dropTerminal (h : m.Indexed) (key : Key) : (m.dropTerminal key).Indexed := by
  unfold FileDropManager.dropTerminal
  dsimp only
  split
  · exact h.of_same rfl rfl rfl
  rename_i offer hkey
  -- the transfer of the offer that goes is the only one that names it
  have hgone : ∀ key' transfer, m.transfers.lookup key' = some transfer →
      (⟨key'.session, transfer.dropId⟩ : Key) = key → offer.transfer = some key'.id := by
    rintro key' transfer htransfer rfl
    obtain ⟨found, hfound, hnames, -⟩ := h.named key' transfer htransfer
    rw [hkey] at hfound
    cases hfound
    exact hnames
  have hstays : ∀ {m' : FileDropManager}, m'.nextDropId = m.nextDropId →
      m'.offers = m.offers.erase key →
      (∀ key' transfer, m'.transfers.lookup key' = some transfer ↔
        m.transfers.lookup key' = some transfer ∧
          (⟨key'.session, transfer.dropId⟩ : Key) ≠ key) → m'.Indexed := by
    intro _ hnext hoffers htransfers
    refine ⟨fun key' found hfound => ?_, fun key' transfer hfound => ?_,
      fun key' found id hfound hid => ?_, fun key' found hfound => ?_,
      fun key' found hfound => ?_⟩
    · rw [hoffers] at hfound
      rw [hnext]
      exact h.numbered key' found (lookup_erase_some hfound).2
    · obtain ⟨hfound, hne⟩ := (htransfers key' transfer).mp hfound
      obtain ⟨named, hnamed, hnames, hsame⟩ := h.named key' transfer hfound
      refine ⟨named, ?_, hnames, hsame⟩
      rw [hoffers, lookup_erase, if_neg hne]
      exact hnamed
    · rw [hoffers] at hfound
      obtain ⟨hne, hfound⟩ := lookup_erase_some hfound
      obtain ⟨transfer, htransfer, hnames, hidle⟩ := h.held key' found id hfound hid
      refine ⟨transfer, (htransfers _ transfer).mpr ⟨htransfer, ?_⟩, hnames, hidle⟩
      rw [hnames]
      exact hne
    · rw [hoffers] at hfound
      exact h.sourced key' found (lookup_erase_some hfound).2
    · rw [hoffers] at hfound
      exact h.retained key' found (lookup_erase_some hfound).2
  split
  · rename_i hnone
    refine hstays rfl rfl fun key' transfer => ⟨fun htransfer => ⟨htransfer, fun hsame => ?_⟩,
      fun htransfer => htransfer.1⟩
    rw [hgone key' transfer htransfer hsame] at hnone
    cases hnone
  · rename_i transferId hsome
    refine hstays rfl rfl fun key' transfer => ?_
    obtain ⟨_, hown, hnames, -⟩ := h.held key offer transferId hkey hsome
    dsimp only
    rw [lookup_erase]
    split
    · rename_i hsame
      subst hsame
      refine iff_of_false (fun h => by cases h) fun htransfer => htransfer.2 ?_
      rw [hown] at htransfer
      cases htransfer.1
      rw [hnames]
    · rename_i hne
      refine (and_iff_left_of_imp fun htransfer hsame => hne ?_).symm
      have hid := hgone key' transfer htransfer hsame
      rw [hsome] at hid
      cases hid
      rw [← hsame]

theorem keeps_dropTerminal (m : FileDropManager) (key : Key) : Keeps m (m.dropTerminal key) := by
  unfold FileDropManager.dropTerminal
  dsimp only
  split
  · exact .of_fewer rfl fun _ _ hfound => hfound
  · split
    · exact .of_fewer rfl fun _ _ hfound => (lookup_erase_some hfound).2
    · exact .of_fewer rfl fun _ _ hfound => (lookup_erase_some hfound).2

theorem dropTerminal_all (h : m.Indexed) (keys : List Key) :
    (keys.foldl dropTerminal m).Indexed ∧ Keeps m (keys.foldl dropTerminal m) := by
  induction keys generalizing m with
  | nil => exact ⟨h, .refl m⟩
  | cons key _ ih =>
    obtain ⟨hindexed, hkeeps⟩ := ih (h.dropTerminal key)
    exact ⟨hindexed, (keeps_dropTerminal m key).trans hkeeps⟩

/-- Offers that have not ended are cancelled one after another. -/
theorem timeOut_all (h : m.Indexed) (now : ℕ) {keys : List Key} (hnodup : keys.Nodup)
    (hpending : ∀ key ∈ keys, ∀ offer, m.offers.lookup key = some offer →
      offer.terminalDeadline = none) : (keys.foldl (fun m key => m.timeOut P now key) m).Indexed ∧
      Keeps m (keys.foldl (fun m key => m.timeOut P now key) m) := by
  induction keys generalizing m with
  | nil => exact ⟨h, .refl m⟩
  | cons key keys ih =>
    obtain ⟨hfresh, hnodup⟩ := List.nodup_cons.mp hnodup
    have hpending' : ∀ key' ∈ keys, ∀ offer,
        (m.timeOut P now key).offers.lookup key' = some offer → offer.terminalDeadline = none := by
      intro key' hkey' offer hoffer
      rw [lookup_timeOut m now (ne_of_mem_of_not_mem hkey' hfresh)] at hoffer
      exact hpending key' (List.mem_cons_of_mem _ hkey') offer hoffer
    obtain ⟨hindexed, hkeeps⟩ := ih (h.timeOut now key) hnodup hpending'
    refine ⟨hindexed, (keeps_timeOut m now fun offer hoffer => ?_).trans hkeeps⟩
    exact hpending key List.mem_cons_self offer hoffer

theorem expire_indexed (h : m.Indexed) (now : ℕ) :
    (m.expire P now).Indexed ∧ Keeps m (m.expire P now) := by
  unfold FileDropManager.expire
  dsimp only
  obtain ⟨hindexed, hkeeps⟩ := dropTerminal_all h (m.terminalExpired now)
  generalize (m.terminalExpired now).foldl dropTerminal m = dropped at hindexed hkeeps ⊢
  have hnodup : (dropped.timedOut now).Nodup :=
    dropped.offers.nodup_keys.sublist (List.filter_sublist.map _)
  have hpending : ∀ key ∈ dropped.timedOut now, ∀ offer,
      dropped.offers.lookup key = some offer → offer.terminalDeadline = none := by
    intro _ hkey _ hoffer
    obtain ⟨entry, hentry, rfl⟩ := List.mem_map.mp hkey
    obtain ⟨hentry, htimed⟩ := List.mem_filter.mp hentry
    rw [mem_entries.mp hentry] at hoffer
    cases hoffer
    unfold isTimedOut at htimed
    rw [Bool.and_eq_true, Bool.and_eq_true, Bool.not_eq_true'] at htimed
    obtain ⟨⟨hstands, hnone⟩, -⟩ := htimed
    rw [isNone_iff_eq_none] at hnone
    rw [← not_isSome_iff_eq_none,
      hindexed.retained entry.1 entry.2 (mem_entries.mp hentry), hstands, hnone]
    exact fun hended => hended.elim nofun nofun
  have htimed := timeOut_all (P := P) hindexed now hnodup hpending
  exact ⟨htimed.1, hkeeps.trans htimed.2⟩

theorem Indexed.expired (h : m.Indexed) (act : Act) :
    (m.expired P act).Indexed ∧ Keeps m (m.expired P act) := by
  unfold FileDropManager.expired
  split
  · exact ⟨h, .refl m⟩
  · exact expire_indexed h _

/-! ### Calls -/

/-- A call keeps the tables in agreement, and the offers that stay. -/
def KeepsIndexed (m m' : FileDropManager) : Prop := m'.Indexed ∧ Keeps m m'

theorem KeepsIndexed.after (h : Keeps m m') (h' : KeepsIndexed m' m'') : KeepsIndexed m m'' :=
  ⟨h'.1, h.trans h'.2⟩

section

variable (h : m.Indexed)
include h

theorem Indexed.same (hoffers : m'.offers = m.offers)
    (htransfers : m'.transfers = m.transfers) (hnext : m'.nextDropId = m.nextDropId) :
    KeepsIndexed m m' :=
  ⟨h.of_same hoffers htransfers hnext, .of_fewer hnext fun _ _ hfound => hoffers ▸ hfound⟩

theorem Indexed.pruned (gone : SurfaceIdentity → Prop) (hnext : m'.nextDropId = m.nextDropId)
    (hoffers : ∀ key offer, m'.offers.lookup key = some offer ↔
      m.offers.lookup key = some offer ∧ ¬ gone (offer.bindingKey key.session))
    (htransfers : ∀ key transfer, m'.transfers.lookup key = some transfer ↔
      m.transfers.lookup key = some transfer ∧ ¬ gone (transfer.bindingKey key.session)) :
    KeepsIndexed m m' :=
  ⟨h.prune gone hnext hoffers htransfers,
    .of_fewer hnext fun key offer hoffer => ((hoffers key offer).mp hoffer).1⟩

theorem Indexed.removeBinding (key : SurfaceIdentity) : KeepsIndexed m (m.removeBinding key) :=
  h.pruned (· = key) rfl (fun _ _ => lookup_filter_iff _) fun _ _ => lookup_filter_iff _

theorem Indexed.setBinding (session : SessionIdentity) (binding : FileDropBinding)
    (allow : Bool) : KeepsIndexed m (m.setBinding P session binding allow).1 := by
  obtain ⟨hcounts, -, -, -, ⟨hoffers, htransfers⟩ | ⟨_, rfl, hoffers, htransfers⟩⟩ :=
    setBinding_cases (P := P) m session binding allow
  · exact h.same hoffers htransfers hcounts
  · obtain ⟨hindexed, hkeeps⟩ := h.removeBinding ⟨⟨session, binding.contextId⟩, binding.surfaceId⟩
    exact ⟨hindexed.of_same hoffers htransfers hcounts, hcounts ▸ hkeeps.counts,
      fun key offer hoffer => hkeeps.grows key offer (hoffers ▸ hoffer)⟩

theorem Indexed.made {session : SessionIdentity} {dropId : ℕ} {offer : OfferEntry}
    (hnew : m.nextDropId < dropId) (hsource : offer.source.isSome = true)
    (htransfer : offer.transfer = none) (hterminal : offer.terminal = none)
    (hstands : offer.cancelled = false) (hdeadline : offer.terminalDeadline = none) :
    KeepsIndexed m { m with
      nextDropId := dropId, offers := m.offers.insert ⟨session, dropId⟩ offer } := by
  have hother : ∀ {key : Key} {found : OfferEntry}, m.offers.lookup key = some found →
      key ≠ ⟨session, dropId⟩ := by
    rintro key found hfound rfl
    exact (h.numbered _ found hfound).not_gt hnew
  refine ⟨⟨fun key found hfound => ?_, fun key transfer hfound => ?_,
    fun key found id hfound hid => ?_, fun key found hfound hnone => ?_,
    fun key found hfound => ?_⟩, ⟨hnew.le, fun key found hfound => ?_⟩⟩
  · rw [lookup_insert] at hfound
    split at hfound
    · rename_i hsame
      rw [hsame]
    · exact (h.numbered key found hfound).trans hnew.le
  · obtain ⟨named, hnamed, hnames⟩ := h.named key transfer hfound
    refine ⟨named, ?_, hnames⟩
    dsimp only
    rw [lookup_insert_of_ne (hother hnamed)]
    exact hnamed
  · rw [lookup_insert] at hfound
    split at hfound
    · cases hfound
      rw [htransfer] at hid
      cases hid
    · exact h.held key found id hfound hid
  · rw [lookup_insert] at hfound
    split at hfound
    · cases hfound
      rw [hnone] at hsource
      cases hsource
    · exact h.sourced key found hfound hnone
  · rw [lookup_insert] at hfound
    split at hfound
    · cases hfound
      rw [hdeadline, hterminal, hstands]
      decide
    · exact h.retained key found hfound
  · dsimp only at hfound
    rw [lookup_insert] at hfound
    split at hfound
    · rename_i hsame
      rw [hsame]
      exact Or.inl hnew
    · exact Or.inr ⟨found, hfound, .refl found⟩

theorem Indexed.accepted {key : Key} {offer : OfferEntry} {id : ℕ}
    {transfer : TransferEntry} (hkey : m.offers.lookup key = some offer)
    (hnone : offer.transfer = none) (hstands : offer.cancelled = false)
    (hfree : m.transfers.lookup ⟨key.session, id⟩ = none) (hdrop : transfer.dropId = key.id)
    (hbinding : transfer.bindingKey key.session = offer.bindingKey key.session) :
    KeepsIndexed m { m with
      offers := m.offers.insert key { offer with transfer := some id }
      transfers := m.transfers.insert ⟨key.session, id⟩ transfer } := by
  have hkeeps : offer.Grows { offer with transfer := some id } :=
    ⟨rfl, fun _ hresult => hresult, fun hcancelled => ⟨hcancelled, rfl⟩,
      fun deadline hdeadline => ⟨deadline, hdeadline, le_rfl⟩⟩
  refine ⟨⟨fun key' found hfound => ?_, fun key' found hfound => ?_,
    fun key' found id' hfound hid => ?_, fun key' found hfound hsource => ?_,
    fun key' found hfound => ?_⟩, .of_insert hkey hkeeps rfl rfl⟩
  · rw [lookup_insert] at hfound
    split at hfound
    · rename_i hsame
      rw [hsame]
      exact h.numbered key offer hkey
    · exact h.numbered key' found hfound
  · rw [lookup_insert] at hfound
    dsimp only
    split at hfound
    · rename_i hsame
      cases hfound
      subst hsame
      dsimp only
      rw [hdrop, lookup_insert_self]
      exact ⟨_, rfl, rfl, hbinding⟩
    · obtain ⟨named, hnamed, hnames, hsame⟩ := h.named key' found hfound
      refine ⟨named, ?_, hnames, hsame⟩
      rw [lookup_insert_of_ne, hnamed]
      rintro rfl
      rw [hkey] at hnamed
      cases hnamed
      rw [hnone] at hnames
      cases hnames
  · rw [lookup_insert] at hfound
    dsimp only
    split at hfound
    · rename_i hsame
      cases hfound
      cases hid
      rw [hsame, lookup_insert_self]
      refine ⟨transfer, rfl, hdrop, fun hcancelled => ?_⟩
      rw [hstands] at hcancelled
      cases hcancelled
    · obtain ⟨before, hbefore, hnames⟩ := h.held key' found id' hfound hid
      refine ⟨before, ?_, hnames⟩
      rw [lookup_insert_of_ne, hbefore]
      rintro hsame
      rw [hsame, hfree] at hbefore
      cases hbefore
  · rw [lookup_insert] at hfound
    split at hfound
    · cases hfound
      exact h.sourced key offer hkey hsource
    · exact h.sourced key' found hfound hsource
  · rw [lookup_insert] at hfound
    split at hfound
    · cases hfound
      exact h.retained key offer hkey
    · exact h.retained key' found hfound

theorem Indexed.setTransferOffer {session : SessionIdentity} {id : ℕ}
    {transfer transfer' : TransferEntry} {offer offer' : OfferEntry}
    (htransfer : m.transfers.lookup ⟨session, id⟩ = some transfer)
    (hoffer : m.offers.lookup ⟨session, transfer.dropId⟩ = some offer)
    (hdrop : transfer'.dropId = transfer.dropId)
    (hbinding : transfer'.bindingKey session = transfer.bindingKey session)
    (hidle : transfer'.active = false) (hsame : offer'.binding = offer.binding)
    (hheld : offer'.transfer = offer.transfer) (hsourced : offer'.source = none →
      offer'.terminal.isSome = true ∨ offer'.cancelled = true)
    (hretained : offer'.terminalDeadline.isSome = true ↔
      offer'.terminal.isSome = true ∨ offer'.cancelled = true) (hgrows : offer.Grows offer') :
    KeepsIndexed m { m with
      transfers := m.transfers.insert ⟨session, id⟩ transfer'
      offers := m.offers.insert ⟨session, transfer.dropId⟩ offer' } := by
  have hset : ({ m with transfers := m.transfers.insert ⟨session, id⟩ transfer' } :
      FileDropManager).Indexed := by
    refine h.setTransfer htransfer hdrop hbinding fun hactive => ?_
    rw [hidle] at hactive
    cases hactive
  obtain ⟨_, hnamed, hnames, -⟩ := h.named _ transfer htransfer
  rw [hoffer] at hnamed
  cases hnamed
  refine ⟨hset.setOffer hoffer hsame hheld (fun _ id' found hid hfound => ?_) hsourced hretained,
    .of_insert hoffer hgrows rfl rfl⟩
  rw [hnames] at hid
  cases hid
  dsimp only at hfound
  rw [lookup_insert_self] at hfound
  cases hfound
  exact hidle

theorem Indexed.moves (hmoves : Moves m m') : KeepsIndexed m m' := by
  cases hmoves with
  | same => exact h.same rfl rfl rfl
  | @offered session dropId offer _ hnew _ hsource htransfer hterminal hstands hdeadline =>
    have hmade := @Indexed.made _ h session _ _ hnew hsource htransfer hterminal hstands hdeadline
    exact ⟨hmade.1.of_same rfl rfl rfl, hmade.2.counts, hmade.2.grows⟩
  | accepted hkey hnone hstands hfree hdrop _ hbinding =>
    exact h.accepted hkey hnone hstands hfree hdrop hbinding
  | connected hkey hactive =>
    exact ⟨h.setTransfer hkey rfl rfl hactive, .of_fewer rfl fun _ _ hfound => hfound⟩
  | @advanced session _ _ transfer _ offer _ htransfer hoffer hsource _ hdrop hbinding hidle =>
    have hretained := h.retained ⟨session, transfer.dropId⟩ offer hoffer
    exact h.setTransferOffer htransfer hoffer hdrop hbinding hidle rfl rfl nofun hretained
      ⟨rfl, fun _ hresult => hresult, fun hcancelled => ⟨hcancelled, rfl⟩,
        fun deadline hdeadline => ⟨deadline, hdeadline, le_rfl⟩⟩

theorem Indexed.finishes (hfinishes : Finishes m m') : KeepsIndexed m m' := by
  cases hfinishes with
  | same => exact h.same rfl rfl rfl
  | @recorded session id length deadline _ transfer offer result _ htransfer hoffer hstands hnone =>
    have hgrows : offer.Grows { offer with
        source := none
        terminal := some result
        terminalDeadline := some deadline } := by
      refine ⟨rfl, fun other hother => ?_, fun hcancelled => ?_, fun deadline hdeadline => ?_⟩
      · rw [hnone] at hother
        cases hother
      · rw [hstands] at hcancelled
        cases hcancelled
      · have hended := (h.retained _ offer hoffer).mp (isSome_of_eq_some hdeadline)
        rw [hnone, hstands] at hended
        exact hended.elim nofun nofun
    have hkeeps := @Indexed.setTransferOffer _ h session id transfer
      { transfer with active := false, committedOffset := length } offer { offer with
        source := none
        terminal := some result
        terminalDeadline := some deadline } htransfer hoffer rfl rfl rfl rfl rfl
      (fun _ => Or.inl rfl) (iff_of_true rfl (Or.inl rfl)) hgrows
    exact ⟨hkeeps.1.of_same rfl rfl rfl, hkeeps.2.counts, hkeeps.2.grows⟩

/-- The answer is there: the offer that a transfer names is. -/
theorem Indexed.advance (now : ℕ) (session : SessionIdentity)
    (advance : AdvanceFileTransfer) : ∃ result, m.advance P now session advance = some result ∧
      ∀ reply, result.2 = .ok reply →
        (result.1.transfers.lookup ⟨session, reply.transferId⟩).map (·.generation) =
          some reply.generation := by
  have herror : ∀ reason : String, ∃ result : FileDropManager × Except String FileTransferAdvanced,
      some (m, .error reason) = some result ∧ ∀ reply, result.2 = .ok reply →
        (result.1.transfers.lookup ⟨session, reply.transferId⟩).map (·.generation) =
          some reply.generation := fun reason => ⟨_, rfl, nofun⟩
  unfold FileDropManager.advance
  dsimp only
  repeat' split
  any_goals exact herror _
  · rename_i transfer htransfer _ _ _ _ _ _ hnone
    obtain ⟨_, hoffer, -⟩ := h.named _ transfer htransfer
    rw [hoffer] at hnone
    cases hnone
  · refine ⟨_, rfl, ?_⟩
    rintro _ ⟨⟩
    rw [lookup_insert_self]
    rfl

/-- A cancellation keeps the offers that stay unless it postpones a deadline. -/
theorem Indexed.cancel (now : ℕ) (session : SessionIdentity)
    (cancellation : CancelFileDrop) : (m.cancel P now session cancellation).1.Indexed := by
  unfold FileDropManager.cancel
  dsimp only
  split
  · exact h
  · rename_i offer hkey
    split
    · exact h
    · exact h.cancelOffer now hkey

theorem Indexed.removeSession (session : SessionIdentity) :
    KeepsIndexed m (m.removeSession session) :=
  h.pruned (·.context.session = session) rfl (fun _ _ => lookup_filter_iff _)
    fun _ _ => lookup_filter_iff _

theorem Indexed.removeContexts (session : SessionIdentity) (contexts : Finset ℕ) :
    KeepsIndexed m (m.removeContexts session contexts) := by
  refine h.pruned (fun key => key.context.session = session ∧ key.context.contextId ∈ contexts)
    rfl (fun _ _ => lookup_filter_iff _) fun key transfer => (lookup_filter_iff _).trans ?_
  refine and_congr_right fun _ => ?_
  rw [not_and_or]
  rfl

theorem Indexed.removeSurface (key : SurfaceIdentity) : KeepsIndexed m (m.removeSurface key) :=
  h.pruned (· = key) rfl (fun _ _ => lookup_filter_iff _) fun _ _ => lookup_filter_iff _

end

/-! ### Histories -/

/-- The offers that are there before and after grow. -/
def Preserves (m m' : FileDropManager) : Prop := ∀ key offer offer',
  m.offers.lookup key = some offer → m'.offers.lookup key = some offer' → offer.Grows offer'

/-- The generation that the manager holds for a transfer. -/
def generation? (m : FileDropManager) (session : SessionIdentity) (transferId : ℕ) : Option ℕ :=
  (m.transfers.lookup ⟨session, transferId⟩).map (·.generation)

/-- A reply has the generation that the manager holds, and none panics. -/
def Answers (P : DropProtocol) (m : FileDropManager) : Act → Prop
  | .accept now session acceptance =>
    ∀ reply, (m.accept P now session acceptance).2 = .ok reply →
      (m.accept P now session acceptance).1.generation? session reply.transferId =
        some reply.transferGeneration
  | .advance now session advance =>
    ∃ result, m.advance P now session advance = some result ∧ ∀ reply, result.2 = .ok reply →
      result.1.generation? session reply.transferId = some reply.generation
  | _ => True

/-- A call leaves the tables in agreement and the ends of offers as they were, and answers with what
it holds. -/
def Consistent (P : DropProtocol) (m : FileDropManager) (act : Act) : Prop :=
  (m.step P act).Indexed ∧ m.Preserves (m.step P act) ∧ m.Answers P act

/-- An acceptance that retries another names the generation that is held, and a cancellation meets
no offer whose retention began earlier. -/
def Regular (P : DropProtocol) (m : FileDropManager) : Act → Prop
  | .accept now session acceptance => ∀ offer transfer,
    (m.expire P now).offers.lookup ⟨session, acceptance.binding.dropId⟩ = some offer →
      offer.binding = acceptance.binding → offer.cancelled = false → offer.terminal = none →
      offer.transfer = some acceptance.transferId →
      ((m.expire P now).bindings.lookup (offer.bindingKey session)).isSome = true →
      (m.expire P now).transfers.lookup ⟨session, acceptance.transferId⟩ = some transfer →
        transfer.generation = acceptance.transferGeneration
  | .cancel now session cancellation => ∀ offer deadline,
    m.offers.lookup ⟨session, cancellation.binding.dropId⟩ = some offer →
      offer.binding = cancellation.binding → offer.terminalDeadline = some deadline →
        now + P.resultRetentionUs ≤ deadline
  | _ => True

theorem Keeps.preserves (h : m.Indexed) (hkeeps : Keeps m m') : Preserves m m' := by
  intro key offer offer' hoffer hoffer'
  rcases hkeeps.grows key offer' hoffer' with hnew | ⟨_, hfound, hgrows⟩
  · exact ((h.numbered key offer hoffer).not_gt hnew).elim
  · rw [hoffer] at hfound
    cases hfound
    exact hgrows

theorem Indexed.answers_accept (h : m.Indexed) (now : ℕ) (session : SessionIdentity)
    (acceptance : AcceptFileDrop) : m.Answers P (.accept now session acceptance) ↔
      m.Regular P (.accept now session acceptance) := by
  obtain ⟨hindexed, -⟩ := expire_indexed (P := P) h now
  dsimp only [Answers, Regular]
  unfold FileDropManager.accept
  dsimp only
  generalize m.expire P now = m₁ at hindexed ⊢
  have hrefused : ∀ {reason : String}, (∀ reply : FileDropAccepted,
      (.error reason : Except String FileDropAccepted) = .ok reply →
        m₁.generation? session reply.transferId = some reply.transferGeneration) :=
    nofun
  split
  · rename_i hnone
    refine iff_of_true hrefused fun offer transfer hoffer => ?_
    rw [hnone] at hoffer
    cases hoffer
  · rename_i offer hkey
    split
    · rename_i hstale
      refine iff_of_true hrefused fun found transfer hfound hbinding => ?_
      rw [hkey] at hfound
      cases hfound
      exact (hstale hbinding).elim
    · rename_i hbinding
      rw [not_not] at hbinding
      split
      · rename_i hended
        refine iff_of_true hrefused fun found transfer hfound _ hstands hnone => ?_
        rw [hkey] at hfound
        cases hfound
        rw [hstands, hnone] at hended
        exact (hended.elim nofun fun h => by cases h)
      · rename_i hstands
        rw [not_or, Bool.not_eq_true, not_isSome_iff_eq_none] at hstands
        have hbindingKey : offer.bindingKey session =
            ⟨⟨session, acceptance.binding.contextId⟩, acceptance.binding.surfaceId⟩ := by
          unfold OfferEntry.bindingKey
          rw [hbinding]
        cases htransfer : offer.transfer with
        | some transferId =>
          dsimp only
          split
          · rename_i hsame
            subst hsame
            obtain ⟨held, hheld, -, -⟩ := hindexed.held _ offer _ hkey htransfer
            split
            · rename_i hgone
              refine iff_of_true hrefused fun found transfer hfound _ _ _ _ hlive => ?_
              rw [hkey] at hfound
              cases hfound
              rw [hbindingKey, hgone] at hlive
              cases hlive
            · rename_i binding hlive
              constructor
              · intro hanswer found transfer hfound _ _ _ _ _ hlookup
                have hgeneration := hanswer _ rfl
                unfold generation? at hgeneration
                rw [hlookup] at hgeneration
                exact Option.some.inj hgeneration
              · rintro hregular reply ⟨⟩
                unfold generation?
                rw [hheld]
                refine congrArg some (hregular offer held hkey hbinding hstands.1 hstands.2
                  htransfer ?_ hheld)
                rw [hbindingKey, hlive]
                rfl
          · rename_i hne
            refine iff_of_true hrefused fun found transfer hfound _ _ _ hid => ?_
            rw [hkey] at hfound
            cases hfound
            rw [htransfer] at hid
            exact (hne (Option.some.inj hid)).elim
        | none =>
          have hregular : ∀ found transfer,
              m₁.offers.lookup ⟨session, acceptance.binding.dropId⟩ = some found →
                found.binding = acceptance.binding → found.cancelled = false →
                found.terminal = none → found.transfer = some acceptance.transferId →
                (m₁.bindings.lookup (found.bindingKey session)).isSome = true →
                m₁.transfers.lookup ⟨session, acceptance.transferId⟩ = some transfer →
                  transfer.generation = acceptance.transferGeneration := by
            intro _ _ hfound _ _ _ hid
            rw [hkey] at hfound
            cases hfound
            rw [htransfer] at hid
            cases hid
          refine iff_of_true ?_ hregular
          dsimp only
          split
          · exact hrefused
          split
          · exact hrefused
          split
          · exact hrefused
          split
          · exact hrefused
          · rintro _ ⟨⟩
            unfold generation?
            dsimp only
            rw [lookup_insert_self]
            rfl

theorem Indexed.preserves_cancel (h : m.Indexed) (now : ℕ) (session : SessionIdentity)
    (cancellation : CancelFileDrop) : m.Preserves (m.cancel P now session cancellation).1 ↔
      m.Regular P (.cancel now session cancellation) := by
  dsimp only [Regular]
  unfold FileDropManager.cancel
  dsimp only
  have hsame : m.Preserves m := (Keeps.refl m).preserves h
  split
  · rename_i hnone
    refine iff_of_true hsame fun offer deadline hoffer => ?_
    rw [hnone] at hoffer
    cases hoffer
  · rename_i offer hkey
    split
    · rename_i hstale
      refine iff_of_true hsame fun found deadline hfound hbinding => ?_
      rw [hkey] at hfound
      cases hfound
      exact (hstale hbinding).elim
    · rename_i hbinding
      constructor
      · intro hpreserves _ deadline hfound _ hdeadline
        rw [hkey] at hfound
        cases hfound
        exact grows_cancelled.mp (hpreserves _ _ _ hkey lookup_insert_self) deadline
          hdeadline
      · intro hregular
        exact (keeps_cancelOffer m now hkey fun deadline =>
          hregular offer deadline hkey (not_not.mp hbinding)).preserves h

/-- All calls but a cancellation keep the offers that stay. -/
theorem Indexed.kept (h : m.Indexed) {act : Act}
    (hact : ∀ now session cancellation, act ≠ .cancel now session cancellation) :
    KeepsIndexed m (m.step P act) := by
  cases act with
  | cancel => exact (hact _ _ _ rfl).elim
  | setBinding session binding allow => exact h.setBinding session binding allow
  | serviceTimeouts now =>
    obtain ⟨hindexed, hkeeps⟩ := expire_indexed (P := P) h now
    exact ⟨hindexed.of_same rfl rfl rfl, hkeeps.counts, hkeeps.grows⟩
  | finishTransfer now session result gesturePaste pathNegotiated sha256 =>
    exact h.finishes (finishes_finishTransfer m now session result gesturePaste pathNegotiated sha256)
  | takePendingPastes => exact h.same rfl rfl rfl
  | removeSession session => exact h.removeSession session
  | removeContexts session contexts => exact h.removeContexts session contexts
  | removeSurface key => exact h.removeSurface key
  | _ => exact .after (h.expired _).2 ((h.expired _).1.moves (moves_step m rfl))

theorem Indexed.step (h : m.Indexed) (act : Act) : (m.step P act).Indexed := by
  cases act with
  | cancel now session cancellation => exact h.cancel now session cancellation
  | _ => exact (h.kept fun _ _ _ heq => by cases heq).1

theorem Indexed.call_consistent_iff (h : m.Indexed) (act : Act) :
    m.Consistent P act ↔ m.Regular P act := by
  unfold Consistent
  rw [and_iff_right (h.step act)]
  cases act with
  | cancel =>
    rw [← h.preserves_cancel]
    exact and_iff_left trivial
  | accept now session acceptance =>
    have hkept : KeepsIndexed m (m.step P (.accept now session acceptance)) :=
      h.kept nofun
    rw [h.answers_accept, and_iff_right (hkept.2.preserves h)]
  | advance now session advance =>
    obtain ⟨result, hresult, hreply⟩ := h.advance (P := P) now session advance
    have hkept : KeepsIndexed m (m.step P (.advance now session advance)) :=
      h.kept nofun
    exact iff_of_true ⟨hkept.2.preserves h, result, hresult, hreply⟩ trivial
  | _ =>
    refine iff_of_true ⟨Keeps.preserves h (h.kept ?_).2, trivial⟩ trivial
    intro _ _ _ heq
    cases heq

/-- The tables agree after every history. -/
theorem indexed_run (history : List Act) : (run P history).Indexed := by
  induction history using List.reverseRecOn with
  | nil =>
    refine ⟨fun key offer hfound => ?_, fun key transfer hfound => ?_,
      fun key offer id hfound => ?_, fun key offer hfound => ?_, fun key offer hfound => ?_⟩
    all_goals cases hfound
  | append_singleton _ act ih =>
    rw [run_concat]
    exact ih.step act

/-- Every call of a history is consistent exactly if every retried acceptance names the generation
that is held, and no cancellation meets an offer whose retention began earlier. -/
theorem consistent_iff (P : DropProtocol) (history : List Act) :
    Throughout (run P) (Consistent P) history ↔ Throughout (run P) (Regular P) history :=
  forall_congr' fun earlier => forall_congr' fun act => forall_congr' fun _ =>
    forall_congr' fun _ => (indexed_run earlier).call_consistent_iff act

section Retrying

def viewerSession : SessionIdentity := ⟨1, 1⟩

def shellBinding : FileDropBinding where
  producerEpoch := 1
  contextId := 1
  surfaceId := 0
  surfaceGeneration := 0
  destination := some .shellCwd
  maximumFileBytes := 1024
  maximumPendingOffers := 8
  maximumActiveTransfers := 2
  maximumRecordBody := 4096
  acceptanceTimeoutUs := 1000
  idleTimeoutUs := 1000

def firstDrop : FileDropTuple := ⟨1, 1, 1, 0, 0, 1⟩

def firstAcceptance : AcceptFileDrop := ⟨firstDrop, 5, 1, 4096, 4096, 4⟩

/-- An accepted transfer is advanced, and then the acceptance is retried as it was. -/
def retrying : List Act :=
  [.setBinding viewerSession shellBinding true,
    .offerLocalFile 0 (some { length := 10, suggestedName := "a" }) none,
    .accept 1 viewerSession firstAcceptance,
    .advance 2 viewerSession ⟨5, 1, 1, 0, 1, 2, 0, 4096, 4⟩]

theorem retry_inconsistent : ¬ ∀ history, Throughout (run .plain) (Consistent .plain) history := by
  intro h
  obtain ⟨-, -, hanswers⟩ := h (retrying ++ [.accept 3 viewerSession firstAcceptance]) retrying _ []
    rfl
  have hreply : ((run .plain retrying).accept .plain 3 viewerSession firstAcceptance).2 =
      .ok ⟨1, 5, 1, 1000⟩ := by
    decide +kernel
  have hheld := hanswers _ hreply
  revert hheld
  decide +kernel

end Retrying

end FileDropManager

end Vivido.FileDrop
