import Vivido.FileDrop.Indexed

/-!
Whether the pastes that wait and the drops of automation name offers that the
manager holds. The paths by which offers go differ in what they take along.
-/

namespace Vivido.FileDrop.FileDropManager

open Scene SortedMap List Option

variable {P : DropProtocol} {m m' : FileDropManager}

/-- Each paste that waits and each drop of automation is of an offer that is held. -/
structure Owned (m : FileDropManager) : Prop where
  pastes : ∀ paste ∈ m.pendingPastes, (m.offers.lookup paste.key).isSome = true
  automation : ∀ key, (m.automation.lookup key).isSome = true → (m.offers.lookup key).isSome = true

/-- The offers under some bindings have no paste that waits, and are not automation's. -/
def Unclaimed (m : FileDropManager) (gone : SurfaceIdentity → Prop) : Prop :=
  ∀ key offer, m.offers.lookup key = some offer → gone (offer.bindingKey key.session) →
    (∀ paste ∈ m.pendingPastes, paste.key ≠ key) ∧ m.automation.lookup key = none

/-- No offer whose result has been kept long enough has a paste that waits. -/
def Delivered (m : FileDropManager) (now : ℕ) : Prop :=
  ∀ key ∈ m.terminalExpired now, ∀ paste ∈ m.pendingPastes, paste.key ≠ key

/-- The call disables a binding. -/
def Disables (P : DropProtocol) (m : FileDropManager) (session : SessionIdentity)
    (binding : FileDropBinding) : Prop :=
  P.validBinding binding = true ∧ P.disabled binding = true ∧
    ∀ previous reply,
      m.bindingEpochs.lookup ⟨⟨session, binding.contextId⟩, binding.surfaceId⟩ =
        some (previous, reply) → previous.producerEpoch < binding.producerEpoch

/-- Where a call takes offers away, nothing that it leaves is of one of them. -/
def Tidy (P : DropProtocol) (m : FileDropManager) : Act → Prop
  | .setBinding session binding _ => Disables P m session binding →
    m.Unclaimed (· = ⟨⟨session, binding.contextId⟩, binding.surfaceId⟩)
  | .removeSurface key => m.Unclaimed (· = key)
  | .removeContexts session contexts => ∀ key offer, m.offers.lookup key = some offer →
    key.session = session → offer.binding.contextId ∈ contexts → m.automation.lookup key = none
  | .offerLocalFile now _ _ | .offerLocalBytes now _ _ _ | .offerAutomationFile now _ _ _
  | .expire now | .serviceTimeouts now _ | .accept now _ _ | .beginTransfer now _ _ =>
    m.Delivered now
  | _ => True

/-! ### What is held -/

/-- The same offers are held, and the same are waited for. -/
structure SameHeld (m m' : FileDropManager) : Prop where
  offers : ∀ key, (m'.offers.lookup key).isSome = (m.offers.lookup key).isSome
  pastes : m'.pendingPastes = m.pendingPastes
  automation : ∀ key, (m'.automation.lookup key).isSome = (m.automation.lookup key).isSome

theorem SameHeld.refl (m : FileDropManager) : SameHeld m m := ⟨fun _ => rfl, rfl, fun _ => rfl⟩

theorem SameHeld.trans {m'' : FileDropManager} (h : SameHeld m m') (h' : SameHeld m' m'') :
    SameHeld m m'' :=
  ⟨fun key => (h'.offers key).trans (h.offers key), h'.pastes.trans h.pastes,
    fun key => (h'.automation key).trans (h.automation key)⟩

theorem SameHeld.owned_congr (h : SameHeld m m') : m'.Owned ↔ m.Owned := by
  constructor
  · intro howned
    refine ⟨fun paste hpaste => ?_, fun key hkey => ?_⟩
    · rw [← h.offers]
      exact howned.pastes paste (h.pastes ▸ hpaste)
    · rw [← h.offers]
      exact howned.automation key (by rwa [h.automation])
  · intro howned
    refine ⟨fun paste hpaste => ?_, fun key hkey => ?_⟩
    · rw [h.offers]
      exact howned.pastes paste (h.pastes ▸ hpaste)
    · rw [h.offers]
      exact howned.automation key (by rwa [← h.automation])

theorem isSome_insert {κ α : Type*} [LinearOrder κ] {table : SortedMap κ α} {key : κ} {value : α}
    (value' : α) (h : table.lookup key = some value) (other : κ) :
    ((table.insert key value').lookup other).isSome = (table.lookup other).isSome := by
  rw [lookup_insert]
  split
  · rename_i heq
    rw [heq, h]
    rfl
  · rfl

theorem SameHeld.setOffer {key : Key} {offer : OfferEntry} (offer' : OfferEntry)
    (h : m.offers.lookup key = some offer) (hoffers : m'.offers = m.offers.insert key offer')
    (hpastes : m'.pendingPastes = m.pendingPastes) (hautomation : m'.automation = m.automation) :
    SameHeld m m' where
  offers other := by
    rw [hoffers]
    exact isSome_insert offer' h other
  pastes := hpastes
  automation _ := by rw [hautomation]

theorem sameHeld_timeOut (m : FileDropManager) (now : ℕ) (key : Key) :
    SameHeld m (m.timeOut P now key) := by
  unfold FileDropManager.timeOut
  split
  · exact .refl m
  · rename_i offer hkey
    exact .setOffer _ hkey rfl rfl rfl

theorem sameHeld_timeOut_all (m : FileDropManager) (now : ℕ) (keys : List Key) :
    SameHeld m (keys.foldl (fun m key => m.timeOut P now key) m) := by
  induction keys generalizing m with
  | nil => exact .refl m
  | cons key _ ih => exact (sameHeld_timeOut m now key).trans (ih _)

/-- What is left of the offers and of automation once some offers have been dropped. -/
structure Dropped (m m' : FileDropManager) (keys : List Key) : Prop where
  offers : ∀ key, (m'.offers.lookup key).isSome = true ↔
    (m.offers.lookup key).isSome = true ∧ key ∉ keys
  pastes : m'.pendingPastes = m.pendingPastes
  automation : ∀ key, (m'.automation.lookup key).isSome = true ↔
    (m.automation.lookup key).isSome = true ∧ key ∉ keys

theorem isSome_erase {κ α : Type*} [LinearOrder κ] (table : SortedMap κ α) (key other : κ) :
    ((table.erase key).lookup other).isSome = true ↔
      (table.lookup other).isSome = true ∧ other ≠ key := by
  rw [lookup_erase]
  split
  · rename_i heq
    exact iff_of_false nofun fun h => h.2 heq
  · rename_i hne
    exact (and_iff_left hne).symm

theorem dropped_dropTerminal (m : FileDropManager) (key : Key) :
    Dropped m (m.dropTerminal key) [key] := by
  unfold FileDropManager.dropTerminal
  dsimp only
  split
  · rename_i hnone
    refine ⟨fun other => ?_, rfl, fun other => ?_⟩
    · rw [mem_singleton]
      refine (and_iff_left_of_imp ?_).symm
      rintro hsome rfl
      rw [hnone] at hsome
      cases hsome
    · rw [mem_singleton]
      exact isSome_erase _ _ _
  · split
    · exact ⟨fun other => by rw [mem_singleton]; exact isSome_erase _ _ _, rfl,
        fun other => by rw [mem_singleton]; exact isSome_erase _ _ _⟩
    · exact ⟨fun other => by rw [mem_singleton]; exact isSome_erase _ _ _, rfl,
        fun other => by rw [mem_singleton]; exact isSome_erase _ _ _⟩

theorem dropped_all (m : FileDropManager) (keys : List Key) :
    Dropped m (keys.foldl dropTerminal m) keys := by
  induction keys generalizing m with
  | nil =>
    exact ⟨fun _ => (and_iff_left not_mem_nil).symm, rfl,
      fun _ => (and_iff_left not_mem_nil).symm⟩
  | cons key _ ih =>
    have hfirst := dropped_dropTerminal m key
    have hrest := ih (m.dropTerminal key)
    refine ⟨fun other => ?_, hrest.pastes.trans hfirst.pastes, fun other => ?_⟩
    · rw [foldl_cons, hrest.offers, hfirst.offers, mem_singleton, mem_cons, not_or,
        and_assoc]
    · rw [foldl_cons, hrest.automation, hfirst.automation, mem_singleton, mem_cons,
        not_or, and_assoc]

theorem dropped_expire (m : FileDropManager) (now : ℕ) :
    Dropped m (m.expire P now) (m.terminalExpired now) := by
  have hdropped := dropped_all m (m.terminalExpired now)
  have hsame := sameHeld_timeOut_all (P := P) ((m.terminalExpired now).foldl dropTerminal m) now
    (((m.terminalExpired now).foldl dropTerminal m).timedOut now)
  refine ⟨fun key => ?_, hsame.pastes.trans hdropped.pastes, fun key => ?_⟩
  · rw [← hdropped.offers, ← hsame.offers]
    rfl
  · rw [← hdropped.automation, ← hsame.automation]
    rfl

/-- Expiry leaves a paste behind exactly if its offer goes. -/
theorem Owned.expire_iff (h : m.Owned) (now : ℕ) : (m.expire P now).Owned ↔ m.Delivered now := by
  have hdropped := dropped_expire (P := P) m now
  constructor
  · intro hafter key hkey paste hpaste hsame
    rw [← hdropped.pastes] at hpaste
    have hsome := (hdropped.offers _).mp (hafter.pastes paste hpaste)
    rw [hsame] at hsome
    exact hsome.2 hkey
  · intro hdelivered
    refine ⟨fun paste hpaste => ?_, fun key hkey => ?_⟩
    · rw [hdropped.pastes] at hpaste
      exact (hdropped.offers _).mpr ⟨h.pastes paste hpaste, fun hkey =>
        hdelivered _ hkey paste hpaste rfl⟩
    · obtain ⟨hsome, hstays⟩ := (hdropped.automation key).mp hkey
      exact (hdropped.offers key).mpr ⟨h.automation key hsome, hstays⟩

/-! ### Calls -/

/-- An offer is made under a number that nothing was waiting for, as automation's or not. -/
theorem owned_made {key : Key} {offer : OfferEntry} {automation : SortedMap Key AutomationDrop}
    (hpastes : ∀ paste ∈ m.pendingPastes, paste.key ≠ key) (hnone : m.automation.lookup key = none)
    (hautomation : ∀ other, other ≠ key → automation.lookup other = m.automation.lookup other)
    {dropId : ℕ} :
    ({ m with nextDropId := dropId, offers := m.offers.insert key offer, automation } :
      FileDropManager).Owned ↔ m.Owned := by
  constructor
  · intro h
    refine ⟨fun paste hpaste => ?_, fun other hother => ?_⟩
    · have hsome := h.pastes paste hpaste
      dsimp only at hsome
      rwa [lookup_insert_of_ne (hpastes paste hpaste)] at hsome
    · have hne : other ≠ key := by
        rintro rfl
        rw [hnone] at hother
        cases hother
      have hsome := h.automation other (by rwa [← hautomation other hne] at hother)
      dsimp only at hsome
      rwa [lookup_insert_of_ne hne] at hsome
  · intro h
    have hgrows : ∀ {other : Key}, (other ≠ key → (m.offers.lookup other).isSome = true) →
        ((m.offers.insert key offer).lookup other).isSome = true := by
      intro other hother
      rw [lookup_insert]
      split
      · rfl
      · rename_i hne
        exact hother hne
    refine ⟨fun paste hpaste => hgrows fun _ => h.pastes paste hpaste,
      fun other hother => hgrows fun hne => h.automation other ?_⟩
    rwa [← hautomation other hne]

/-- Nothing waits for a number that is yet to come. -/
theorem Owned.next (h : m.Owned) (hindexed : m.Indexed) (session : SessionIdentity) {dropId : ℕ}
    (hnext : m.nextDropId < dropId) : (∀ paste ∈ m.pendingPastes, paste.key ≠ ⟨session, dropId⟩) ∧
      m.automation.lookup ⟨session, dropId⟩ = none := by
  have hnone : (m.offers.lookup ⟨session, dropId⟩).isSome ≠ true := by
    intro hsome
    obtain ⟨offer, hoffer⟩ := Option.isSome_iff_exists.mp hsome
    exact (hindexed.numbered _ offer hoffer).not_gt hnext
  constructor
  · intro paste hpaste heq
    exact hnone (heq ▸ h.pastes paste hpaste)
  · rw [← not_isSome_iff_eq_none]
    exact fun hsome => hnone (h.automation _ hsome)

theorem nextDropId_expire (m : FileDropManager) (now : ℕ) :
    (m.expire P now).nextDropId = m.nextDropId := by
  have hdrop : ∀ (keys : List Key) (m : FileDropManager),
      (keys.foldl dropTerminal m).nextDropId = m.nextDropId := by
    intro keys
    induction keys with
    | nil => exact fun _ => rfl
    | cons _ _ ih =>
      intro m
      rw [foldl_cons, ih]
      unfold dropTerminal
      dsimp only
      split
      · rfl
      · split <;> rfl
  have htime : ∀ (keys : List Key) (m : FileDropManager),
      (keys.foldl (fun m key => m.timeOut P now key) m).nextDropId = m.nextDropId := by
    intro keys
    induction keys with
    | nil => exact fun _ => rfl
    | cons _ _ ih =>
      intro m
      rw [foldl_cons, ih]
      unfold timeOut
      split <;> rfl
  exact (htime _ _).trans (hdrop _ _)

theorem Owned.next_expired (h : m.Owned) (hindexed : m.Indexed) (act : Act)
    (session : SessionIdentity) {dropId : ℕ} (hnext : (m.expired P act).nextDropId < dropId) :
    (∀ paste ∈ (m.expired P act).pendingPastes, paste.key ≠ ⟨session, dropId⟩) ∧
      (m.expired P act).automation.lookup ⟨session, dropId⟩ = none := by
  unfold FileDropManager.expired at hnext ⊢
  split at hnext
  · exact h.next hindexed session hnext
  rename_i now _
  have hdropped := dropped_expire (P := P) m now
  rw [nextDropId_expire] at hnext
  have hunnamed := h.next hindexed session hnext
  refine ⟨hdropped.pastes ▸ hunnamed.1, ?_⟩
  rw [← not_isSome_iff_eq_none, hdropped.automation, hunnamed.2]
  exact fun hsome => by cases hsome.1

theorem Moves.owned_same (h : Moves m m') (hnew : ∀ session dropId, m.nextDropId < dropId →
      (∀ paste ∈ m.pendingPastes, paste.key ≠ ⟨session, dropId⟩) ∧
        m.automation.lookup ⟨session, dropId⟩ = none) : m'.Owned ↔ m.Owned := by
  cases h with
  | same => rfl
  | connected => exact SameHeld.owned_congr ⟨fun _ => rfl, rfl, fun _ => rfl⟩
  | accepted hkey => exact SameHeld.owned_congr (.setOffer _ hkey rfl rfl rfl)
  | advanced _ hoffer => exact SameHeld.owned_congr (.setOffer _ hoffer rfl rfl rfl)
  | @offered session dropId _ _ hnext _ _ _ _ _ _ hautomation =>
    obtain ⟨hpastes, hnone⟩ := hnew session dropId hnext
    refine owned_made hpastes hnone fun other hne => ?_
    rcases hautomation with rfl | ⟨_, rfl⟩
    · rfl
    · exact lookup_insert_of_ne hne

theorem Moves.pastes (h : Moves m m') : m'.pendingPastes = m.pendingPastes := by
  cases h <;> rfl

/-- A result adds a paste of its own offer only. -/
theorem Owned.finishes (h : m.Owned) (hfinishes : Finishes m m') : m'.Owned := by
  cases hfinishes with
  | same => exact h
  | @recorded session _ _ _ _ transfer offer _ _ _ hoffer _ _ hpastes =>
    have hoffers := fun changed other => isSome_insert changed hoffer other
    refine ⟨fun paste hpaste => ?_, fun key hkey => ?_⟩
    · rcases hpastes with rfl | ⟨_, _, rfl⟩
      · exact (hoffers _ _).trans (h.pastes paste hpaste)
      · rcases List.mem_append.mp hpaste with hpaste | hlast
        · exact (hoffers _ _).trans (h.pastes paste hpaste)
        · rw [List.mem_singleton.mp hlast]
          exact congrArg Option.isSome lookup_insert_self
    · refine (hoffers _ key).trans (h.automation key ?_)
      dsimp only at hkey
      rw [lookup_adjust] at hkey
      split at hkey
      · rwa [isSome_map] at hkey
      · exact hkey

theorem sameHeld_cancel (m : FileDropManager) (now : ℕ) (session : SessionIdentity)
    (cancellation : CancelFileDrop) : SameHeld m (m.cancel P now session cancellation).1 := by
  unfold FileDropManager.cancel
  dsimp only
  split
  · exact .refl m
  · rename_i offer hkey
    split
    · exact .refl m
    · exact .setOffer _ hkey rfl rfl rfl

/-- What is under some bindings goes, and nothing else. -/
theorem Owned.prune_iff (h : m.Owned) (gone : SurfaceIdentity → Prop)
    (hoffers : ∀ key offer, m'.offers.lookup key = some offer ↔
      m.offers.lookup key = some offer ∧ ¬ gone (offer.bindingKey key.session))
    (hpastes : m'.pendingPastes = m.pendingPastes) (hautomation : m'.automation = m.automation) :
    m'.Owned ↔ m.Unclaimed gone := by
  have hsome : ∀ key, (m'.offers.lookup key).isSome = true ↔
      ∃ offer, m.offers.lookup key = some offer ∧ ¬ gone (offer.bindingKey key.session) := by
    intro key
    rw [isSome_iff_exists]
    exact exists_congr (hoffers key)
  constructor
  · intro hafter key offer hoffer hgone
    have hnot : ¬ (m'.offers.lookup key).isSome = true := by
      rw [hsome]
      rintro ⟨_, hfound, hstays⟩
      rw [hoffer] at hfound
      cases hfound
      exact hstays hgone
    refine ⟨fun paste hpaste heq => hnot (heq ▸ hafter.pastes paste (hpastes ▸ hpaste)), ?_⟩
    rw [← not_isSome_iff_eq_none]
    exact fun hkey => hnot (hafter.automation key (hautomation ▸ hkey))
  · intro hunclaimed
    refine ⟨fun paste hpaste => ?_, fun key hkey => ?_⟩
    · rw [hpastes] at hpaste
      obtain ⟨offer, hoffer⟩ := Option.isSome_iff_exists.mp (h.pastes paste hpaste)
      exact (hsome _).mpr ⟨offer, hoffer, fun hgone =>
        (hunclaimed _ offer hoffer hgone).1 paste hpaste rfl⟩
    · rw [hautomation] at hkey
      obtain ⟨offer, hoffer⟩ := Option.isSome_iff_exists.mp (h.automation key hkey)
      refine (hsome _).mpr ⟨offer, hoffer, fun hgone => ?_⟩
      rw [(hunclaimed key offer hoffer hgone).2] at hkey
      cases hkey

section

variable (h : m.Owned) (session : SessionIdentity)
include h session

theorem Owned.setBinding_iff (binding : FileDropBinding)
    (allow : Bool) : (m.setBinding P session binding allow).1.Owned ↔
      m.Tidy P (.setBinding session binding allow) := by
  dsimp only [Tidy]
  have hsame : ∀ {m' : FileDropManager}, m'.offers = m.offers →
      m'.pendingPastes = m.pendingPastes → m'.automation = m.automation → m'.Owned := by
    intro _ hoffers hpastes hautomation
    refine SameHeld.owned_congr (m := m) ⟨fun _ => ?_, hpastes, fun _ => ?_⟩ |>.mpr h
    · rw [hoffers]
    · rw [hautomation]
  have hbind : ∀ key, (P.disabled binding = true →
        ((m.bind P key binding allow).1.Owned ↔ m.Unclaimed (· = key))) ∧
      (P.disabled binding ≠ true → (m.bind P key binding allow).1.Owned) := by
    intro key
    unfold FileDropManager.bind
    dsimp only
    constructor
    · intro hdisabled
      rw [if_pos hdisabled]
      exact h.prune_iff (· = key) (fun _ _ => lookup_filter_iff _) rfl rfl
    intro henabled
    rw [if_neg henabled]
    split
    · exact hsame rfl rfl rfl
    · split
      · split
        · exact hsame rfl rfl rfl
        · exact hsame rfl rfl rfl
      · exact hsame rfl rfl rfl
  have hfresh : ∀ key, (P.validBinding binding = true →
      (P.disabled binding = true → Disables P m session binding)) →
      (key = ⟨⟨session, binding.contextId⟩, binding.surfaceId⟩) → P.validBinding binding = true →
      ((m.bind P key binding allow).1.Owned ↔
        (Disables P m session binding →
          m.Unclaimed (· = ⟨⟨session, binding.contextId⟩, binding.surfaceId⟩))) := by
    rintro _ hdisables rfl hvalid
    by_cases hdisabled : P.disabled binding = true
    · rw [(hbind _).1 hdisabled]
      exact ⟨fun hunclaimed _ => hunclaimed, fun hunclaimed =>
        hunclaimed (hdisables hvalid hdisabled)⟩
    · exact iff_of_true ((hbind _).2 hdisabled) fun hdisables => (hdisabled hdisables.2.1).elim
  unfold FileDropManager.setBinding
  dsimp only
  split
  · rename_i hinvalid
    refine iff_of_true h fun hdisables => ?_
    rw [hdisables.1] at hinvalid
    cases hinvalid
  · rename_i hvalid
    rw [Bool.not_eq_true', Bool.not_eq_false] at hvalid
    split
    · rename_i hnone
      refine hfresh _ (fun _ hdisabled => ⟨hvalid, hdisabled, fun previous reply hfound => ?_⟩) rfl
        hvalid
      rw [hnone] at hfound
      cases hfound
    · rename_i previous reply hfound
      split
      · rename_i hstale
        exact iff_of_true h fun hdisables =>
          (hdisables.2.2 previous reply hfound).not_gt hstale |>.elim
      rename_i hnotStale
      split
      · rename_i hsameEpoch
        have hnot : ¬ Disables P m session binding := fun hdisables =>
          (hdisables.2.2 previous reply hfound).ne hsameEpoch.symm
        split
        · exact iff_of_true h fun hdisables => (hnot hdisables).elim
        · exact iff_of_true h fun hdisables => (hnot hdisables).elim
      · rename_i hnotSame
        refine hfresh _ (fun _ hdisabled =>
          ⟨hvalid, hdisabled, fun previous' reply' hother => ?_⟩)
          rfl hvalid
        rw [hfound] at hother
        cases hother
        omega

theorem Owned.removeSession : (m.removeSession session).Owned := by
  have hstays : ∀ {key : Key}, key.session ≠ session → (m.offers.lookup key).isSome = true →
      ((m.removeSession session).offers.lookup key).isSome = true := by
    intro key hne hsome
    exact isSome_filter_keys (fun key : Key => key.session ≠ session) hne hsome
  refine ⟨fun paste hpaste => ?_, fun key hkey => ?_⟩
  · obtain ⟨hpaste, hne⟩ := List.mem_filter.mp hpaste
    exact hstays (of_decide_eq_true hne) (h.pastes paste hpaste)
  · obtain ⟨_, hautomation⟩ := Option.isSome_iff_exists.mp hkey
    obtain ⟨hne, hbefore⟩ :=
      (lookup_filter_keys (fun key : Key => key.session ≠ session)).mp hautomation
    exact hstays hne (h.automation key (isSome_of_eq_some hbefore))

theorem Owned.removeContexts_iff (contexts : Finset ℕ) :
    (m.removeContexts session contexts).Owned ↔ m.Tidy P (.removeContexts session contexts) := by
  dsimp only [Tidy]
  have hoffers : ∀ key offer, (m.removeContexts session contexts).offers.lookup key = some offer ↔
      m.offers.lookup key = some offer ∧
        ¬ (key.session = session ∧ offer.binding.contextId ∈ contexts) :=
    fun _ _ => lookup_filter_iff _
  constructor
  · intro hafter key offer hoffer hsession hcontext
    rw [← not_isSome_iff_eq_none]
    intro hkey
    obtain ⟨found, hfound⟩ := Option.isSome_iff_exists.mp (hafter.automation key hkey)
    obtain ⟨hfound, hstays⟩ := (hoffers key found).mp hfound
    rw [hoffer] at hfound
    cases hfound
    exact hstays ⟨hsession, hcontext⟩
  · intro htidy
    refine ⟨fun paste hpaste => ?_, fun key hkey => ?_⟩
    · obtain ⟨hpaste, hlive⟩ := List.mem_filter.mp hpaste
      rcases of_decide_eq_true hlive with hother | hlive
      · obtain ⟨offer, hoffer⟩ := Option.isSome_iff_exists.mp (h.pastes paste hpaste)
        exact Option.isSome_iff_exists.mpr ⟨offer, (hoffers _ offer).mpr ⟨hoffer, fun hgone =>
          hother hgone.1⟩⟩
      · by_cases hsession : paste.session = session
        · subst hsession
          exact hlive
        · obtain ⟨offer, hoffer⟩ := Option.isSome_iff_exists.mp (h.pastes paste hpaste)
          exact Option.isSome_iff_exists.mpr ⟨offer, (hoffers _ offer).mpr ⟨hoffer, fun hgone =>
            hsession hgone.1⟩⟩
    · obtain ⟨offer, hoffer⟩ := Option.isSome_iff_exists.mp (h.automation key hkey)
      refine Option.isSome_iff_exists.mpr ⟨offer, (hoffers key offer).mpr ⟨hoffer, ?_⟩⟩
      rintro ⟨hsession, hcontext⟩
      change (m.automation.lookup key).isSome = true at hkey
      rw [htidy key offer hoffer hsession hcontext] at hkey
      cases hkey

end

/-! ### Histories -/

theorem Owned.expired_iff (h : m.Owned) {act : Act} (hact : act.isMoving = true) :
    (m.expired P act).Owned ↔ m.Tidy P act := by
  cases act with
  | offerLocalFile | offerLocalBytes | offerAutomationFile | expire | accept | beginTransfer =>
    exact h.expire_iff _
  | advance | connectionLost => exact iff_of_true h trivial
  | _ => cases hact

theorem Owned.step_iff (h : m.Owned) (hindexed : m.Indexed) (act : Act) :
    (m.step P act).Owned ↔ m.Tidy P act := by
  cases act with
  | setBinding session binding allow => exact h.setBinding_iff session binding allow
  | serviceTimeouts now =>
    refine Iff.trans ?_ (h.expire_iff (P := P) now)
    exact SameHeld.owned_congr ⟨fun _ => rfl, rfl, fun _ => rfl⟩
  | cancel now session cancellation =>
    exact iff_of_true ((sameHeld_cancel m now session cancellation).owned_congr.mpr h) trivial
  | finishTransfer now session result gesturePaste pathNegotiated sha256 =>
    exact iff_of_true (h.finishes
      (finishes_finishTransfer m now session result gesturePaste pathNegotiated sha256)) trivial
  | takePendingPastes =>
    refine iff_of_true ⟨fun paste hpaste => ?_, h.automation⟩ trivial
    cases hpaste
  | removeSession session => exact iff_of_true (h.removeSession session) trivial
  | removeContexts session contexts => exact h.removeContexts_iff session contexts
  | removeSurface key =>
    exact h.prune_iff (· = key) (fun _ _ => lookup_filter_iff _) rfl rfl
  | _ =>
    exact ((moves_step m rfl).owned_same fun session dropId hnext =>
      h.next_expired hindexed _ session hnext).trans (h.expired_iff rfl)

/-- Nothing is left for an offer that is gone exactly if no call that takes offers away leaves
something for one of them. -/
theorem owned_iff (P : DropProtocol) (history : List Act) :
    (∀ n, (run P (history.take n)).Owned) ↔ Throughout (run P) (Tidy P) history := by
  refine throughout_iff_always (fun history => (run P history).Owned) ?_ ?_
  · constructor
    · intro _ hpaste
      cases hpaste
    · intro _ hkey
      cases hkey
  · intro history act h
    rw [run_concat]
    exact h.step_iff (indexed_run history) act

/-- A drop of automation that is offered before its binding is disabled. -/
def disabling : List Act :=
  [.setBinding viewerSession shellBinding true,
    .offerAutomationFile 0 (some { length := 10, suggestedName := "a" }) none true,
    .setBinding viewerSession { shellBinding with producerEpoch := 2, destination := none } true]

theorem disabling_leaves : ¬ ∀ history, (run .plain history).Owned := by
  intro h
  have hautomation : ((run .plain disabling).automation.lookup ⟨viewerSession, 1⟩).isSome := by
    decide +kernel
  have hgone := (h disabling).automation _ hautomation
  revert hgone
  decide +kernel

end Vivido.FileDrop.FileDropManager
