import Vivido.FileDrop.Indexed

/-!
Where a transfer may begin. What a transfer has committed never lies beyond the
end of its source, as long as the source is there; so the offset at which a
connection resumes is one of the source.
-/

namespace Vivido.FileDrop

open Scene SortedMap

namespace FileDropManager

variable {P : DropProtocol} {m m' m'' : FileDropManager}

/-- No transfer has committed more than its source has. -/
def Resumable (m : FileDropManager) : Prop := ∀ key transfer offer source,
  m.transfers.lookup key = some transfer →
    m.offers.lookup ⟨key.session, transfer.dropId⟩ = some offer → offer.source = some source →
      transfer.committedOffset ≤ source.length

/-- Transfers stay where they are or are new, and offers keep their sources or are new. -/
structure Rests (m m' : FileDropManager) : Prop where
  counts : m.nextDropId ≤ m'.nextDropId
  transfers : ∀ key transfer', m'.transfers.lookup key = some transfer' →
    transfer'.committedOffset = 0 ∨ ∃ transfer, m.transfers.lookup key = some transfer ∧
      transfer.dropId = transfer'.dropId ∧ transfer.committedOffset = transfer'.committedOffset
  sources : ∀ key offer' source, m'.offers.lookup key = some offer' →
    offer'.source = some source → m.nextDropId < key.id ∨
      ∃ offer, m.offers.lookup key = some offer ∧ offer.source = some source

theorem Rests.refl (m : FileDropManager) : Rests m m where
  counts := le_rfl
  transfers _ transfer h := Or.inr ⟨transfer, h, rfl, rfl⟩
  sources _ offer _ h hsource := Or.inr ⟨offer, h, hsource⟩

theorem Rests.trans (h : Rests m m') (h' : Rests m' m'') : Rests m m'' where
  counts := h.counts.trans h'.counts
  transfers key transfer'' hlookup := by
    rcases h'.transfers key transfer'' hlookup with hnew | ⟨transfer', hlookup', hdrop', hat'⟩
    · exact Or.inl hnew
    · rcases h.transfers key transfer' hlookup' with hnew | ⟨transfer, hlookup, hdrop, hat⟩
      · exact Or.inl (hat'.symm.trans hnew)
      · exact Or.inr ⟨transfer, hlookup, hdrop.trans hdrop', hat.trans hat'⟩
  sources key offer'' source hlookup hsource := by
    rcases h'.sources key offer'' source hlookup hsource with hnew | ⟨offer', hlookup', hsource'⟩
    · exact Or.inl (h.counts.trans_lt hnew)
    · exact h.sources key offer' source hlookup' hsource'

/-- Of transfers and offers some may go. -/
theorem Rests.of_fewer (hnext : m'.nextDropId = m.nextDropId)
    (htransfers : ∀ key transfer, m'.transfers.lookup key = some transfer →
      m.transfers.lookup key = some transfer)
    (hoffers : ∀ key offer, m'.offers.lookup key = some offer →
      m.offers.lookup key = some offer) : Rests m m' where
  counts := hnext.ge
  transfers key transfer h := Or.inr ⟨transfer, htransfers key transfer h, rfl, rfl⟩
  sources key offer _ h hsource := Or.inr ⟨offer, hoffers key offer h, hsource⟩

theorem Rests.same (hnext : m'.nextDropId = m.nextDropId) (htransfers : m'.transfers = m.transfers)
    (hoffers : m'.offers = m.offers) : Rests m m' :=
  .of_fewer hnext (fun _ _ h => htransfers ▸ h) fun _ _ h => hoffers ▸ h

/-- A transfer changes that stays where it is. -/
theorem Rests.setTransfer {key : Key} {transfer transfer' : TransferEntry}
    (hkey : m.transfers.lookup key = some transfer) (hdrop : transfer.dropId = transfer'.dropId)
    (hat : transfer.committedOffset = transfer'.committedOffset) :
    Rests m { m with transfers := m.transfers.insert key transfer' } where
  counts := le_rfl
  transfers key' found hfound := by
    rw [lookup_insert] at hfound
    split at hfound
    · rename_i hsame
      cases hfound
      exact Or.inr ⟨transfer, hsame ▸ hkey, hdrop, hat⟩
    · exact Or.inr ⟨found, hfound, rfl, rfl⟩
  sources _ offer _ h hsource := Or.inr ⟨offer, h, hsource⟩

theorem Resumable.rests (h : m.Resumable) (hindexed : m.Indexed) (hrests : Rests m m') :
    m'.Resumable := by
  intro key transfer' offer' source htransfer' hoffer' hsource'
  rcases hrests.transfers key transfer' htransfer' with hnew | ⟨transfer, htransfer, hdrop, hat⟩
  · rw [hnew]
    exact Nat.zero_le _
  obtain ⟨named, hnamed, -⟩ := hindexed.named key transfer htransfer
  rcases hrests.sources _ offer' source hoffer' hsource' with hnew | ⟨offer, hoffer, hsource⟩
  · rw [← hdrop] at hnew
    exact ((hindexed.numbered _ named hnamed).not_gt hnew).elim
  · rw [← hat]
    rw [← hdrop] at hoffer
    exact h key transfer offer source htransfer hoffer hsource

/-- A transfer moves, but not beyond the source that its offer still has. -/
theorem Resumable.setTransferOffer (h : m.Resumable) {session : SessionIdentity} {id : ℕ}
    {transfer transfer' : TransferEntry} {offer offer' : OfferEntry}
    (hoffer : m.offers.lookup ⟨session, transfer.dropId⟩ = some offer)
    (hdrop : transfer'.dropId = transfer.dropId)
    (hsources : ∀ source', offer'.source = some source' →
      transfer'.committedOffset ≤ source'.length ∧
        ∃ source, offer.source = some source ∧ source.length = source'.length) : ({ m with
      transfers := m.transfers.insert ⟨session, id⟩ transfer'
      offers := m.offers.insert ⟨session, transfer.dropId⟩ offer' } :
      FileDropManager).Resumable := by
  intro key found held source' hfound hheld hsource'
  dsimp only at hfound hheld
  rw [lookup_insert] at hfound hheld
  split at hfound
  · rename_i hsame
    cases hfound
    subst hsame
    rw [hdrop, if_pos rfl] at hheld
    cases hheld
    exact (hsources source' hsource').1
  · split at hheld
    · rename_i hsame
      cases hheld
      obtain ⟨source, hsource, hlength⟩ := (hsources source' hsource').2
      rw [← hlength]
      exact h key found offer source hfound (hsame ▸ hoffer) hsource
    · exact h key found held source' hfound hheld hsource'

/-! ### Expiry -/

theorem rests_cancelOffer (m : FileDropManager) (now : ℕ) (key : Key) (offer : OfferEntry) :
    Rests m (m.cancelOffer P now key offer) := by
  refine ⟨le_rfl, fun key' transfer' hfound => ?_, fun key' offer' source hfound hsource => ?_⟩
  · unfold cancelOffer at hfound
    dsimp only at hfound
    split at hfound
    · exact Or.inr ⟨transfer', hfound, rfl, rfl⟩
    rename_i transferId _
    rw [lookup_adjust] at hfound
    split at hfound
    · rename_i hsame
      obtain ⟨transfer, htransfer, rfl⟩ := Option.map_eq_some_iff.mp hfound
      exact Or.inr ⟨transfer, hsame ▸ htransfer, rfl, rfl⟩
    · exact Or.inr ⟨transfer', hfound, rfl, rfl⟩
  · unfold cancelOffer at hfound
    dsimp only at hfound
    rw [lookup_insert] at hfound
    split at hfound
    · cases hfound
      cases hsource
    · exact Or.inr ⟨offer', hfound, hsource⟩

theorem rests_timeOut (m : FileDropManager) (now : ℕ) (key : Key) :
    Rests m (m.timeOut P now key) := by
  unfold timeOut
  split
  · exact .refl m
  · exact (rests_cancelOffer m now key _).trans (.same rfl rfl rfl)

theorem rests_dropTerminal (m : FileDropManager) (key : Key) : Rests m (m.dropTerminal key) := by
  unfold dropTerminal
  dsimp only
  split
  · exact .same rfl rfl rfl
  · split
    · exact .of_fewer rfl (fun _ _ h => h) fun _ _ h => (lookup_erase_some h).2
    · exact .of_fewer rfl (fun _ _ h => (lookup_erase_some h).2)
        fun _ _ h => (lookup_erase_some h).2

theorem rests_foldl {f : FileDropManager → Key → FileDropManager}
    (hf : ∀ m key, Rests m (f m key)) (keys : List Key) (m : FileDropManager) :
    Rests m (keys.foldl f m) := by
  induction keys generalizing m with
  | nil => exact .refl m
  | cons key _ ih => exact (hf m key).trans (ih (f m key))

theorem rests_expire (m : FileDropManager) (now : ℕ) : Rests m (m.expire P now) :=
  (rests_foldl rests_dropTerminal _ m).trans
    (rests_foldl (fun m key => rests_timeOut m now key) _ _)

/-! ### Calls -/

theorem Fewer.rests (h : Fewer m m') : Rests m m' := .of_fewer h.counts h.transfers h.offers

theorem rests_expired (m : FileDropManager) (act : Act) : Rests m (m.expired P act) := by
  unfold FileDropManager.expired
  split
  · exact .refl m
  · exact rests_expire m _

theorem Resumable.moves (h : m.Resumable) (hindexed : m.Indexed) (hmoves : Moves m m') :
    m'.Resumable := by
  cases hmoves with
  | same => exact h
  | connected hkey => exact h.rests hindexed (.setTransfer hkey rfl rfl)
  | advanced _ hoffer hsource hat hdrop =>
    refine h.setTransferOffer hoffer hdrop fun source' hsource' => ?_
    cases hsource'
    exact ⟨hat, _, hsource, rfl⟩
  | offered hnew =>
    refine h.rests hindexed ⟨hnew.le, fun _ transfer h => Or.inr ⟨transfer, h, rfl, rfl⟩,
      fun key offer' source hfound hsource => ?_⟩
    rw [lookup_insert] at hfound
    split at hfound
    · rename_i hsame
      rw [hsame]
      exact Or.inl hnew
    · exact Or.inr ⟨offer', hfound, hsource⟩
  | @accepted _ offer _ _ _ hkey _ _ _ _ hat =>
    refine h.rests hindexed ⟨le_rfl, fun key transfer hfound => ?_,
      fun key found source hfound hsource => ?_⟩
    · rw [lookup_insert] at hfound
      split at hfound
      · cases hfound
        exact Or.inl hat
      · exact Or.inr ⟨transfer, hfound, rfl, rfl⟩
    · rw [lookup_insert] at hfound
      split at hfound
      · rename_i hsame
        cases hfound
        exact Or.inr ⟨offer, hsame ▸ hkey, hsource⟩
      · exact Or.inr ⟨found, hfound, hsource⟩

/-- The source goes with the result, so nothing bounds where the transfer is. -/
theorem Resumable.finishes (h : m.Resumable) (hfinishes : Finishes m m') : m'.Resumable := by
  cases hfinishes with
  | same => exact h
  | @recorded session id length deadline _ transfer offer result _ _ hoffer =>
    exact @Resumable.setTransferOffer _ h session id transfer
      { transfer with active := false, committedOffset := length } offer { offer with
        source := none
        terminal := some result
        terminalDeadline := some deadline } hoffer rfl nofun

theorem Resumable.cancel (h : m.Resumable) (hindexed : m.Indexed) (now : ℕ)
    (session : SessionIdentity) (cancellation : CancelFileDrop) :
    (m.cancel P now session cancellation).1.Resumable := by
  unfold FileDropManager.cancel
  dsimp only
  split
  · exact h
  · split
    · exact h
    · exact h.rests hindexed (rests_cancelOffer m now _ _)

theorem Resumable.step (h : m.Resumable) (hindexed : m.Indexed) (act : Act) :
    (m.step P act).Resumable := by
  have hexpired : (m.expired P act).Resumable := h.rests hindexed (rests_expired m act)
  have hagree := (hindexed.expired (P := P) act).1
  cases act with
  | cancel now session cancellation => exact h.cancel hindexed now session cancellation
  | finishTransfer now session result gesturePaste pathNegotiated sha256 =>
    exact h.finishes (finishes_finishTransfer m now session result gesturePaste pathNegotiated sha256)
  | takePendingPastes => exact h.rests hindexed (.same rfl rfl rfl)
  | setBinding | serviceTimeouts | removeSession | removeContexts | removeSurface =>
    exact hexpired.rests hagree (fewer_step m rfl).rests
  | _ => exact hexpired.moves hagree (moves_step m rfl)

theorem resumable_run (history : List Act) : (run P history).Resumable := by
  induction history using List.reverseRecOn with
  | nil =>
    intro _ _ _ _ htransfer
    cases htransfer
  | append_singleton history act ih =>
    rw [run_concat]
    exact ih.step (indexed_run history) act

/-- A transfer that begins is the one that was accepted, and resumes within its source. -/
theorem resumes_within (history : List Act) (now : ℕ) (session : SessionIdentity)
    {opening : FileTransferOpen} {source : FileSource}
    (hbegins : ((run P history).beginTransfer P now session opening).2 = .ok source) :
    opening.resumeOffset ≤ source.length := by
  have hresumable : ((run P history).expire P now).Resumable :=
    (resumable_run history).rests (indexed_run history) (rests_expire _ now)
  revert hbegins
  unfold beginTransfer
  dsimp only
  generalize (run P history).expire P now = m at hresumable ⊢
  split
  · intro h
    cases h
  rename_i transfer htransfer
  split
  · intro h
    cases h
  rename_i hmatches
  simp only [not_or, not_not] at hmatches
  obtain ⟨-, -, hdrop, -, hat, -⟩ := hmatches
  split
  · intro h
    cases h
  rename_i offer hoffer
  split
  · intro h
    cases h
  split
  · intro h
    cases h
  dsimp only
  split
  · rename_i held hheld
    intro h
    cases h
    rw [← hat]
    rw [← hdrop] at hoffer
    exact hresumable _ transfer offer source htransfer hoffer hheld
  · intro h
    cases h

end FileDropManager

end Vivido.FileDrop
