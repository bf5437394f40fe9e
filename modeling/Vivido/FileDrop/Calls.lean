import Vivido.FileDrop.Manager

/-!
What the calls of the manager do, each once for all that is proved about it, and
what they leave alone. Only what a producer sets and what is removed changes the
bindings, and only an offer that is timed out adds a cancellation.
-/

namespace Vivido.FileDrop

open Scene

/-- The time at which a call lets offers expire before anything else. -/
def Act.clock : Act → Option ℕ
  | .offerLocalFile now _ _ | .offerLocalBytes now _ _ _ | .offerAutomationFile now _ _ _
  | .expire now | .serviceTimeouts now _ | .accept now _ _ | .beginTransfer now _ _ => some now
  | _ => none

/-- A call that sets or removes bindings, or takes cancellations. -/
def Act.isSetting : Act → Bool
  | .setBinding _ _ _ | .serviceTimeouts _ _ | .removeSession _ | .removeContexts _ _
  | .removeSurface _ => true
  | _ => false

/-- A call that makes an offer. -/
def Act.isOffering : Act → Bool
  | .offerLocalFile _ _ _ | .offerLocalBytes _ _ _ _ | .offerAutomationFile _ _ _ _ => true
  | _ => false

/-- A call that makes an offer or goes on with it, short of its end. -/
def Act.isMoving : Act → Bool
  | .setBinding _ _ _ | .serviceTimeouts _ _ | .cancel _ _ _ | .finishTransfer _ _ _ _ _ _
  | .takePendingPastes | .removeSession _ | .removeContexts _ _ | .removeSurface _ => false
  | _ => true

namespace FileDropManager

variable {P : DropProtocol} {m m' m'' : FileDropManager}

/-- The manager once a call has let offers expire. -/
def expired (P : DropProtocol) (m : FileDropManager) (act : Act) : FileDropManager :=
  match act.clock with
  | none => m
  | some now => m.expire P now

/-- The bindings and their epochs stay. -/
structure SameBindings (m m' : FileDropManager) : Prop where
  bindings : m'.bindings = m.bindings
  epochs : m'.bindingEpochs = m.bindingEpochs
  activation : m'.nextActivation = m.nextActivation

theorem SameBindings.refl (m : FileDropManager) : SameBindings m m := ⟨rfl, rfl, rfl⟩

theorem SameBindings.trans (h : SameBindings m m') (h' : SameBindings m' m'') :
    SameBindings m m'' :=
  ⟨h'.bindings.trans h.bindings, h'.epochs.trans h.epochs, h'.activation.trans h.activation⟩

theorem sameBindings_foldl {f : FileDropManager → Key → FileDropManager}
    (h : ∀ m key, SameBindings m (f m key)) (keys : List Key) (m : FileDropManager) :
    SameBindings m (keys.foldl f m) := by
  induction keys generalizing m with
  | nil => exact .refl m
  | cons key _ ih => exact (h m key).trans (ih _)

theorem sameBindings_expire (m : FileDropManager) (now : ℕ) : SameBindings m (m.expire P now) := by
  refine SameBindings.trans (sameBindings_foldl (fun m key => ?_) _ m)
    (sameBindings_foldl (fun m key => ?_) _ _)
  · unfold dropTerminal
    dsimp only
    split
    · exact ⟨rfl, rfl, rfl⟩
    · split
      · exact ⟨rfl, rfl, rfl⟩
      · exact ⟨rfl, rfl, rfl⟩
  · unfold timeOut
    split
    · exact .refl m
    · exact ⟨rfl, rfl, rfl⟩

theorem sameBindings_expired (m : FileDropManager) (act : Act) :
    SameBindings m (m.expired P act) := by
  unfold expired
  split
  · exact .refl m
  · exact sameBindings_expire m _

/-- And so do the cancellations. -/
structure Aside (m m' : FileDropManager) : Prop extends SameBindings m m' where
  cancellations : m'.cancellations = m.cancellations

theorem Aside.of_eq (hbindings : m'.bindings = m.bindings)
    (hepochs : m'.bindingEpochs = m.bindingEpochs)
    (hactivation : m'.nextActivation = m.nextActivation)
    (hcancellations : m'.cancellations = m.cancellations) : Aside m m' :=
  ⟨⟨hbindings, hepochs, hactivation⟩, hcancellations⟩

/-! ### What a call makes of the manager -/

/-- The manager after a call that makes an offer, goes on with it or ends a connection. -/
inductive Moves (m : FileDropManager) : FileDropManager → Prop where
  | same : Moves m m
  | offered {session : SessionIdentity} {dropId : ℕ} {offer : OfferEntry}
      {automation : SortedMap Key AutomationDrop} (hnew : m.nextDropId < dropId)
      (hbinding : offer.binding.dropId = dropId) (hsource : offer.source.isSome = true)
      (htransfer : offer.transfer = none) (hterminal : offer.terminal = none)
      (hstands : offer.cancelled = false) (hdeadline : offer.terminalDeadline = none)
      (hautomation : automation = m.automation ∨
        ∃ drop, automation = m.automation.insert ⟨session, dropId⟩ drop) :
      Moves m { m with
        nextDropId := dropId
        offers := m.offers.insert ⟨session, dropId⟩ offer
        automation }
  | accepted {session : SessionIdentity} {offer : OfferEntry} {id dropId : ℕ}
      {transfer : TransferEntry} (hkey : m.offers.lookup ⟨session, dropId⟩ = some offer)
      (hnone : offer.transfer = none) (hstands : offer.cancelled = false)
      (hfree : m.transfers.lookup ⟨session, id⟩ = none) (hdrop : transfer.dropId = dropId)
      (hat : transfer.committedOffset = 0)
      (hbinding : transfer.bindingKey session = offer.bindingKey session) :
      Moves m { m with
        offers := m.offers.insert ⟨session, dropId⟩ { offer with transfer := some id }
        transfers := m.transfers.insert ⟨session, id⟩ transfer }
  /-- A connection begins or ends. -/
  | connected {key : Key} {transfer : TransferEntry} {active : Bool} {deadline : ℕ}
      (hkey : m.transfers.lookup key = some transfer)
      (hactive : active = true → ∀ offer,
        m.offers.lookup ⟨key.session, transfer.dropId⟩ = some offer → offer.cancelled = false) :
      Moves m { m with
        transfers := m.transfers.insert key { transfer with active, deadline } }
  | advanced {session : SessionIdentity} {id generation : ℕ} {transfer transfer' : TransferEntry}
      {offer : OfferEntry} {source : FileSource}
      (htransfer : m.transfers.lookup ⟨session, id⟩ = some transfer)
      (hoffer : m.offers.lookup ⟨session, transfer.dropId⟩ = some offer)
      (hsource : offer.source = some source) (hat : transfer'.committedOffset ≤ source.length)
      (hdrop : transfer'.dropId = transfer.dropId)
      (hbinding : transfer'.bindingKey session = transfer.bindingKey session)
      (hidle : transfer'.active = false) :
      Moves m { m with
        transfers := m.transfers.insert ⟨session, id⟩ transfer'
        offers := m.offers.insert ⟨session, transfer.dropId⟩ { offer with
          source := some { source with generation } } }

/-- The manager after a result, which adds a paste of its own offer at most. -/
inductive Finishes (m : FileDropManager) : FileDropManager → Prop where
  | same : Finishes m m
  | recorded {session : SessionIdentity} {id length deadline : ℕ} {sha256 : List ℕ}
      {transfer : TransferEntry} {offer : OfferEntry} {result : FileResult} {pastes : List Paste}
      (htransfer : m.transfers.lookup ⟨session, id⟩ = some transfer)
      (hoffer : m.offers.lookup ⟨session, transfer.dropId⟩ = some offer)
      (hstands : offer.cancelled = false) (hnone : offer.terminal = none)
      (hpastes : pastes = m.pendingPastes ∨ ∃ text gesture,
        pastes = m.pendingPastes ++ [⟨session, transfer.dropId, text, gesture⟩]) :
      Finishes m { m with
        transfers := m.transfers.insert ⟨session, id⟩ { transfer with
          active := false, committedOffset := length }
        automation := m.automation.adjust ⟨session, transfer.dropId⟩ fun automation =>
          { automation with sha256 := some sha256 }
        offers := m.offers.insert ⟨session, transfer.dropId⟩ { offer with
          source := none
          terminal := some result
          terminalDeadline := some deadline }
        pendingPastes := pastes }

theorem lt_of_checkedSucc {n next : ℕ} (h : checkedSucc n = some next) : n < next := by
  unfold checkedSucc at h
  split at h
  · cases h
    exact Nat.lt_succ_self n
  · cases h

/-- What is offered is what was made, under the number that it is told with. -/
theorem offerLocal_cases {m : FileDropManager} {now : ℕ} {source : Except String FileSource}
    {hit : Option (SurfaceIdentity × ℕ)} {after : FileDropManager}
    {disposition : LocalDropDisposition} {made : Option (SessionIdentity × FileDropOffer)}
    (h : m.offerLocal P now source hit = (after, disposition, made)) :
    (after = m.expire P now ∧ made = none) ∨
      ∃ session dropId offer sent, made = some (session, sent) ∧ sent.binding.dropId = dropId ∧
        (m.expire P now).nextDropId < dropId ∧ offer.binding.dropId = dropId ∧
        offer.source.isSome = true ∧ offer.transfer = none ∧ offer.terminal = none ∧
        offer.cancelled = false ∧ offer.terminalDeadline = none ∧ after = { m.expire P now with
          nextDropId := dropId
          offers := (m.expire P now).offers.insert ⟨session, dropId⟩ offer } := by
  revert h
  unfold offerLocal offerSource
  dsimp only
  generalize m.expire P now = m₁
  repeat' split
  any_goals
    rintro ⟨⟩
    exact Or.inl ⟨rfl, rfl⟩
  rintro ⟨⟩
  rename_i hnext
  exact Or.inr ⟨_, _, _, _, rfl, rfl, lt_of_checkedSucc hnext, rfl, rfl, rfl, rfl, rfl, rfl, rfl⟩

theorem moves_offerLocal (m : FileDropManager) (now : ℕ) (source : Except String FileSource)
    (hit : Option (SurfaceIdentity × ℕ)) :
    Moves (m.expire P now) (m.offerLocal P now source hit).1 := by
  rcases h : m.offerLocal P now source hit with ⟨_, _, _⟩
  rcases offerLocal_cases h with ⟨rfl, -⟩ |
    ⟨_, _, _, _, -, -, hnew, hbinding, hsource, htransfer, hterminal, hstands,
      hdeadline, rfl⟩
  · exact .same
  · exact .offered hnew hbinding hsource htransfer hterminal hstands hdeadline (Or.inl rfl)

theorem moves_offerAutomationFile (m : FileDropManager) (now : ℕ) (opened : Option FileSource)
    (hit : Option (SurfaceIdentity × ℕ)) (typePath : Bool) :
    Moves (m.expire P now) (m.offerAutomationFile P now opened hit typePath).1 := by
  unfold offerAutomationFile
  split
  · rename_i heq
    rcases offerLocal_cases heq with ⟨-, hmade⟩ |
      ⟨_, _, _, _, hmade, rfl, hnew, hbinding, hsource, htransfer, hterminal,
        hstands, hdeadline, rfl⟩
    · cases hmade
    · cases hmade
      exact .offered hnew hbinding hsource htransfer hterminal hstands hdeadline
        (Or.inr ⟨⟨typePath, none⟩, rfl⟩)
  · rename_i heq
    have hmoves : Moves (m.expire P now) (m.offerLocalFile P now opened hit).1 :=
      moves_offerLocal m now _ hit
    rw [heq] at hmoves
    exact hmoves

section

variable (m) (now : ℕ) (session : SessionIdentity)
include m now session

theorem moves_accept (acceptance : AcceptFileDrop) :
    Moves (m.expire P now) (m.accept P now session acceptance).1 := by
  unfold accept
  dsimp only
  generalize m.expire P now = m₁
  repeat' split
  any_goals exact .same
  rename_i offer hkey hbinding hstands _ hnone _ _ _ _ _ hfree
  rw [not_or, Bool.not_eq_true] at hstands
  rw [Option.not_isSome_iff_eq_none] at hfree
  refine .accepted hkey hnone hstands.1 hfree ?_ ?_ ?_
  · rfl
  · rfl
  · rw [OfferEntry.bindingKey, not_not.mp hbinding]
    rfl

theorem moves_beginTransfer (opening : FileTransferOpen) :
    Moves (m.expire P now) (m.beginTransfer P now session opening).1 := by
  unfold beginTransfer
  dsimp only
  generalize m.expire P now = m₁
  split
  · exact .same
  rename_i transfer hkey
  split
  · exact .same
  rename_i hmatches
  split
  · exact .same
  rename_i offer hoffer
  split
  · exact .same
  split
  · exact .same
  rename_i hstands
  have hdrop : transfer.dropId = opening.dropId := by
    by_contra hne
    exact hmatches (Or.inr (Or.inr (Or.inl hne)))
  refine .connected hkey fun _ found hfound => ?_
  rw [hdrop, hoffer] at hfound
  cases hfound
  exact Bool.eq_false_iff.mpr fun h => hstands (Or.inl h)

theorem moves_advance (advance : AdvanceFileTransfer) :
    Moves m (((m.advance P now session advance).map Prod.fst).getD m) := by
  unfold FileDropManager.advance
  dsimp only
  repeat' split
  any_goals exact .same
  rename_i transfer htransfer _ _ _ _ _ _ offer hoffer _ source hsource hat _ _ _
  exact .advanced htransfer hoffer hsource (not_lt.mp hat) rfl rfl rfl

theorem moves_connectionLost (transferId generation : ℕ) :
    Moves m (m.connectionLost now session transferId generation) := by
  unfold connectionLost
  dsimp only
  split
  · exact .same
  split
  · exact .same
  · rename_i hkey _
    exact .connected hkey nofun

theorem finishes_finishTransfer (result : FileResult) (gesturePaste pathNegotiated : Bool)
    (sha256 : List ℕ) :
    Finishes m (m.finishTransfer P now session result gesturePaste pathNegotiated sha256).1 := by
  unfold finishTransfer
  dsimp only
  split
  · exact .same
  rename_i transfer htransfer
  split
  · exact .same
  split
  · exact .same
  rename_i offer hoffer
  split
  · exact .same
  rename_i hstands
  rw [not_or, Bool.not_eq_true, Option.not_isSome_iff_eq_none] at hstands
  split
  · split
    · exact .recorded htransfer hoffer hstands.1 hstands.2 (Or.inr ⟨_, _, rfl⟩)
    · exact .recorded htransfer hoffer hstands.1 hstands.2 (Or.inl rfl)
  · exact .recorded htransfer hoffer hstands.1 hstands.2 (Or.inl rfl)

end

theorem moves_step (m : FileDropManager) {act : Act} (h : act.isMoving = true) :
    Moves (m.expired P act) (m.step P act) := by
  cases act with
  | offerLocalFile now _ hit | offerLocalBytes now _ _ hit => exact moves_offerLocal m now _ hit
  | offerAutomationFile now _ hit => exact moves_offerAutomationFile m now _ hit _
  | expire => exact .same
  | accept now session acceptance => exact moves_accept m now session acceptance
  | advance now session advance => exact moves_advance m now session advance
  | beginTransfer now session opening => exact moves_beginTransfer m now session opening
  | connectionLost now session transferId generation =>
    exact moves_connectionLost m now session transferId generation
  | _ => cases h

/-- Offers and transfers go at most. -/
structure Fewer (m m' : FileDropManager) : Prop where
  counts : m'.nextDropId = m.nextDropId
  offers : ∀ key offer, m'.offers.lookup key = some offer → m.offers.lookup key = some offer
  transfers : ∀ key transfer, m'.transfers.lookup key = some transfer →
    m.transfers.lookup key = some transfer

theorem Fewer.same (hcounts : m'.nextDropId = m.nextDropId) (hoffers : m'.offers = m.offers)
    (htransfers : m'.transfers = m.transfers) : Fewer m m' :=
  ⟨hcounts, fun _ _ h => hoffers ▸ h, fun _ _ h => htransfers ▸ h⟩

theorem setBinding_cases (m : FileDropManager) (session : SessionIdentity)
    (binding : FileDropBinding) (allow : Bool) :
    let m' := (m.setBinding P session binding allow).1
    m'.nextDropId = m.nextDropId ∧ m'.pendingPastes = m.pendingPastes ∧
      m'.automation = m.automation ∧ m'.cancellations = m.cancellations ∧
      ((m'.offers = m.offers ∧ m'.transfers = m.transfers) ∨
        ∃ removed, removed = m.removeBinding ⟨⟨session, binding.contextId⟩, binding.surfaceId⟩ ∧
          m'.offers = removed.offers ∧ m'.transfers = removed.transfers) := by
  dsimp only
  unfold setBinding bind
  dsimp only
  repeat' split
  all_goals
    refine ⟨rfl, rfl, rfl, rfl, ?_⟩
    first
    | exact Or.inl ⟨rfl, rfl⟩
    | exact Or.inr ⟨_, rfl, rfl, rfl⟩

theorem fewer_step (m : FileDropManager) {act : Act} (h : act.isSetting = true) :
    Fewer (m.expired P act) (m.step P act) := by
  have hfilter : ∀ {α : Type} {table : SortedMap Key α} {keep : Key × α → Bool},
      ∀ key value, (table.filter keep).lookup key = some value → table.lookup key = some value :=
    fun _ _ => SortedMap.lookup_of_filter
  cases act with
  | setBinding session binding allow =>
    obtain ⟨hcounts, -, -, -, ⟨hoffers, htransfers⟩ | ⟨_, rfl, hoffers, htransfers⟩⟩ :=
      setBinding_cases (P := P) m session binding allow
    · exact .same hcounts hoffers htransfers
    · exact ⟨hcounts, fun key offer h => hfilter key offer (hoffers ▸ h),
        fun key transfer h => hfilter key transfer (htransfers ▸ h)⟩
  | serviceTimeouts => exact .same rfl rfl rfl
  | removeSession | removeContexts | removeSurface => exact ⟨rfl, hfilter, hfilter⟩
  | _ => cases h

theorem Moves.aside (h : Moves m m') : Aside m m' := by
  cases h <;> exact .of_eq rfl rfl rfl rfl

theorem Finishes.aside (h : Finishes m m') : Aside m m' := by
  cases h <;> exact .of_eq rfl rfl rfl rfl

theorem aside_cancel (m : FileDropManager) (now : ℕ) (session : SessionIdentity)
    (cancellation : CancelFileDrop) : Aside m (m.cancel P now session cancellation).1 := by
  unfold FileDropManager.cancel
  dsimp only
  repeat' split
  all_goals exact .of_eq rfl rfl rfl rfl

/-- After its expiry, a call that sets nothing leaves bindings and cancellations alone. -/
theorem aside_step (m : FileDropManager) {act : Act} (h : act.isSetting = false) :
    Aside (m.expired P act) (m.step P act) := by
  cases act with
  | setBinding | serviceTimeouts | removeSession | removeContexts | removeSurface => cases h
  | cancel now session cancellation => exact aside_cancel m now session cancellation
  | finishTransfer now session result gesturePaste pathNegotiated sha256 =>
    exact (finishes_finishTransfer m now session result gesturePaste pathNegotiated sha256).aside
  | takePendingPastes => exact .of_eq rfl rfl rfl rfl
  | _ => exact (moves_step m rfl).aside

end FileDropManager

end Vivido.FileDrop
