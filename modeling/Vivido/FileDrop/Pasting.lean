import Vivido.FileDrop.Orphans

/-!
Which committed paths are typed into the terminal. The decision is taken when a
result arrives, by the binding that is in force then; whether its destination is
the one that the offer was made under is another question.
-/

namespace Vivido.FileDrop.FileDropManager

open Scene List Option

variable {P : DropProtocol} {m m' : FileDropManager} {history : List Act}

/-- The pastes that a call hands to the terminal. -/
def typedBy (m : FileDropManager) : Act → List Paste
  | .takePendingPastes => m.takePendingPastes.2
  | _ => []

/-- The pastes that have been handed to the terminal. -/
def typed (P : DropProtocol) (history : List Act) : List Paste :=
  (history.foldl (fun (m, before) act => (step P m act, before ++ m.typedBy act)) ({}, [])).2

theorem typed_concat (history : List Act) (act : Act) :
    typed P (history ++ [act]) = typed P history ++ (run P history).typedBy act := by
  have hfirst : ∀ history : List Act, (history.foldl
      (fun (m, before) act => (step P m act, before ++ m.typedBy act)) ({}, [])).1 =
        run P history := by
    intro history
    induction history using List.reverseRecOn with
    | nil => rfl
    | append_singleton _ _ ih =>
      rw [foldl_append, run_concat, ← ih]
      rfl
  unfold typed
  rw [foldl_append, ← hfirst]
  rfl

/-- What has been typed or waits to be. -/
def released (P : DropProtocol) (history : List Act) : List Paste :=
  typed P history ++ (run P history).pendingPastes

/-- The call makes the offer, under a binding of the destination. -/
def Makes (P : DropProtocol) (m : FileDropManager) (key : Key)
    (destination : Option FileDropDestination) (act : Act) : Bool :=
  (m.offers.lookup key).isNone &&
    ((m.step P act).offers.lookup key).any fun offer =>
      ((m.step P act).bindings.lookup (offer.bindingKey key.session)).any fun entry =>
        entry.binding.destination = destination

/-- The offer was made under a binding of the destination. -/
def MadeUnder (P : DropProtocol) (history : List Act) (key : Key)
    (destination : Option FileDropDestination) : Prop :=
  ∃ earlier act later, history = earlier ++ act :: later ∧
    (run P earlier).Makes P key destination act = true

/-- The text is of the path of a success, which was the first result of its offer. -/
def CommittedAs (P : DropProtocol) (history : List Act) (paste : Paste) : Prop :=
  ∃ earlier now result gesturePaste pathNegotiated sha256 later path,
    history = earlier ++ .finishTransfer now paste.session result gesturePaste pathNegotiated
      sha256 :: later ∧
    acceptedCommittedPath P result = some path ∧ paste.text = remotePasteText P path ∧
    ((run P earlier).offers.lookup paste.key).any (·.terminal.isNone) = true ∧
    ((run P (earlier ++ [.finishTransfer now paste.session result gesturePaste pathNegotiated
      sha256])).offers.lookup paste.key).any (·.terminal = some result) = true

/-- A path is typed once at most, after its offer's first result, and by consent. -/
structure Consents (P : DropProtocol) (history : List Act) : Prop where
  once : ((released P history).map Paste.key).Nodup
  committed : ∀ paste ∈ released P history, CommittedAs P history paste
  consented : ∀ paste ∈ released P history, MadeUnder P history paste.key (some .shellCwd)

/-- A result that is to be typed under a shell's binding is of an offer that was made under one. -/
def Minded (P : DropProtocol) (history : List Act) : Act → Prop
  | .finishTransfer _ session result gesturePaste pathNegotiated _ => ∀ transfer offer,
    (run P history).transfers.lookup ⟨session, result.transferId⟩ = some transfer →
      transfer.generation = result.transferGeneration →
      (run P history).offers.lookup ⟨session, transfer.dropId⟩ = some offer →
      offer.cancelled = false → offer.terminal = none →
      (run P history).allowsPaste ⟨session, transfer.dropId⟩ gesturePaste pathNegotiated = true →
      (acceptedCommittedPath P result).isSome = true →
      ((run P history).bindings.lookup (offer.bindingKey session)).any
        (fun entry => entry.binding.destination = some .shellCwd) = true →
      (run P history).pendingPastes.length < maxPendingPastes →
        MadeUnder P history ⟨session, transfer.dropId⟩ (some .shellCwd)
  | _ => True

theorem MadeUnder.later {key : Key} {destination : Option FileDropDestination}
    (h : MadeUnder P history key destination) (act : Act) :
    MadeUnder P (history ++ [act]) key destination := by
  obtain ⟨earlier, making, later, rfl, hmakes⟩ := h
  exact ⟨earlier, making, later ++ [act], by rw [append_assoc, cons_append], hmakes⟩

theorem MadeUnder.cases {key : Key} {destination : Option FileDropDestination} {act : Act}
    (h : MadeUnder P (history ++ [act]) key destination) :
    MadeUnder P history key destination ∨ (run P history).offers.lookup key = none := by
  obtain ⟨earlier, making, later, heq, hmakes⟩ := h
  rcases eq_nil_or_concat later with rfl | ⟨later, _, rfl⟩
  · obtain ⟨rfl, -⟩ := append_inj' heq rfl
    refine Or.inr (Option.isNone_iff_eq_none.mp ?_)
    exact ((Bool.and_eq_true _ _).mp hmakes).1
  · rw [concat_eq_append, ← cons_append, ← append_assoc] at heq
    exact Or.inl ⟨earlier, making, later, append_inj_left' heq rfl, hmakes⟩

theorem CommittedAs.later {paste : Paste} (h : CommittedAs P history paste) (act : Act) :
    CommittedAs P (history ++ [act]) paste := by
  obtain ⟨earlier, now, result, gesturePaste, pathNegotiated, sha256, later, path, rfl, hrest⟩ := h
  exact ⟨earlier, now, result, gesturePaste, pathNegotiated, sha256, later ++ [act], path,
    by rw [append_assoc, cons_append], hrest⟩

/-! ### Results -/

/-- A result is recorded, and its path queued. -/
structure Queues (P : DropProtocol) (m : FileDropManager) (session : SessionIdentity)
    (result : FileResult) (gesturePaste pathNegotiated : Bool) (transfer : TransferEntry)
    (offer : OfferEntry) (path : List Char) : Prop where
  sent : m.transfers.lookup ⟨session, result.transferId⟩ = some transfer
  generation : transfer.generation = result.transferGeneration
  made : m.offers.lookup ⟨session, transfer.dropId⟩ = some offer
  stands : offer.cancelled = false
  first : offer.terminal = none
  allowed : m.allowsPaste ⟨session, transfer.dropId⟩ gesturePaste pathNegotiated = true
  accepted : acceptedCommittedPath P result = some path
  shell : (m.bindings.lookup (offer.bindingKey session)).any
    (fun entry => entry.binding.destination = some .shellCwd) = true
  room : m.pendingPastes.length < maxPendingPastes

/-- A result leaves the queue as it is, or adds the path of its offer. -/
theorem finish_cases (h : m.Indexed) (now : ℕ) (session : SessionIdentity) (result : FileResult)
    (gesturePaste pathNegotiated : Bool) (sha256 : List ℕ) :
    ((m.finishTransfer P now session result gesturePaste pathNegotiated sha256).1.pendingPastes =
        m.pendingPastes ∧ ∀ transfer offer path,
        ¬ Queues P m session result gesturePaste pathNegotiated transfer offer path) ∨
    ∃ transfer offer path gesture,
      Queues P m session result gesturePaste pathNegotiated transfer offer path ∧
      (m.finishTransfer P now session result gesturePaste pathNegotiated sha256).1.pendingPastes =
        m.pendingPastes ++ [⟨session, transfer.dropId, remotePasteText P path, gesture⟩] ∧
      ((m.finishTransfer P now session result gesturePaste pathNegotiated sha256).1.offers.lookup
        ⟨session, transfer.dropId⟩).any (·.terminal = some result) = true := by
  unfold FileDropManager.finishTransfer
  dsimp only
  split
  · rename_i hnone
    refine Or.inl ⟨rfl, fun transfer offer path hqueues => ?_⟩
    have hsome := hqueues.sent
    rw [hnone] at hsome
    cases hsome
  · rename_i transfer htransfer
    -- there is one transfer and one offer that the result can be of
    have hone : ∀ {transfer' : TransferEntry} {offer' : OfferEntry} {path : List Char},
        Queues P m session result gesturePaste pathNegotiated transfer' offer' path →
          transfer' = transfer := by
      intro transfer' offer' path hqueues
      have hsame := hqueues.sent
      rw [htransfer] at hsame
      exact (Option.some.inj hsame).symm
    split
    · rename_i hstale
      refine Or.inl ⟨rfl, fun transfer' offer' path hqueues => ?_⟩
      cases hone hqueues
      exact hstale hqueues.generation
    · rename_i hgeneration
      split
      · rename_i hnone
        refine Or.inl ⟨rfl, fun transfer' offer' path hqueues => ?_⟩
        cases hone hqueues
        have hsome := hqueues.made
        rw [hnone] at hsome
        cases hsome
      · rename_i offer hoffer
        have hother : ∀ {offer' : OfferEntry} {path : List Char},
            Queues P m session result gesturePaste pathNegotiated transfer offer' path →
              offer' = offer := by
          intro offer' path hqueues
          have hsame := hqueues.made
          rw [hoffer] at hsame
          exact (Option.some.inj hsame).symm
        split
        · rename_i hended
          refine Or.inl ⟨rfl, fun transfer' offer' path hqueues => ?_⟩
          cases hone hqueues
          cases hother hqueues
          rw [hqueues.stands, hqueues.first] at hended
          exact hended.elim nofun nofun
        · rename_i hstands
          rw [not_or, Bool.not_eq_true, not_isSome_iff_eq_none] at hstands
          have hbinding : transfer.bindingKey session = offer.bindingKey session := by
            obtain ⟨_, hnamed, -, hsame⟩ := h.named _ transfer htransfer
            rw [hoffer] at hnamed
            cases hnamed
            exact hsame
          have hpaste : ∀ {text : List Char}, m.pasteOf P (transfer.bindingKey session)
              (m.allowsPaste ⟨session, transfer.dropId⟩ gesturePaste pathNegotiated) result =
                some text ↔
              m.allowsPaste ⟨session, transfer.dropId⟩ gesturePaste pathNegotiated = true ∧
                (∃ path, acceptedCommittedPath P result = some path ∧
                  remotePasteText P path = text) ∧
                (m.bindings.lookup (offer.bindingKey session)).any
                  (fun entry => entry.binding.destination = some .shellCwd) = true := by
            intro text
            unfold pasteOf
            rw [hbinding]
            split
            · rename_i hallowed
              rw [filter_eq_some_iff, map_eq_some_iff]
              exact (and_iff_right hallowed).symm
            · rename_i hrefused
              exact iff_of_false nofun fun h => hrefused h.1
          cases hpasted : m.pasteOf P (transfer.bindingKey session)
            (m.allowsPaste ⟨session, transfer.dropId⟩ gesturePaste pathNegotiated) result with
          | none =>
            refine Or.inl ⟨rfl, fun transfer' offer' path hqueues => ?_⟩
            cases hone hqueues
            cases hother hqueues
            rw [hpaste.mpr
              ⟨hqueues.allowed, ⟨path, hqueues.accepted, rfl⟩, hqueues.shell⟩] at hpasted
            cases hpasted
          | some text =>
            obtain ⟨hallowed, ⟨path, hpath, rfl⟩, hshell⟩ := hpaste.mp hpasted
            dsimp only
            split
            · rename_i hroom
              refine Or.inr ⟨transfer, offer, path, _, ⟨htransfer, not_not.mp hgeneration, hoffer,
                hstands.1, hstands.2, hallowed, hpath, hshell, hroom⟩, rfl, ?_⟩
              rw [SortedMap.lookup_insert_self]
              exact decide_eq_true rfl
            · rename_i hfull
              refine Or.inl ⟨rfl, fun transfer' offer' path hqueues => ?_⟩
              exact hfull hqueues.room

/-! ### Other calls -/

theorem pastes_expired (m : FileDropManager) (act : Act) :
    (m.expired P act).pendingPastes = m.pendingPastes := by
  unfold FileDropManager.expired
  split
  · rfl
  · exact (dropped_expire m _).pastes

/-- Only a result adds a paste, and only the terminal takes one. -/
theorem pastes_step (m : FileDropManager) {act : Act}
    (hfinish : ∀ now session result gesturePaste pathNegotiated sha256,
      act ≠ .finishTransfer now session result gesturePaste pathNegotiated sha256)
    (htake : act ≠ .takePendingPastes) :
    m.typedBy act = [] ∧ (m.step P act).pendingPastes.Sublist m.pendingPastes := by
  have hsame : ∀ {m' : FileDropManager}, m'.pendingPastes = m.pendingPastes →
      m'.pendingPastes.Sublist m.pendingPastes := fun heq => heq ▸ List.Sublist.refl _
  cases act with
  | finishTransfer => exact (hfinish _ _ _ _ _ _ rfl).elim
  | takePendingPastes => exact (htake rfl).elim
  | setBinding session binding allow =>
    exact ⟨rfl, hsame (setBinding_cases m session binding allow).2.1⟩
  | serviceTimeouts now => exact ⟨rfl, hsame (dropped_expire m now).pastes⟩
  | cancel now session cancellation =>
    exact ⟨rfl, hsame (sameHeld_cancel m now session cancellation).pastes⟩
  | removeSession | removeContexts => exact ⟨rfl, filter_sublist⟩
  | removeSurface => exact ⟨rfl, List.Sublist.refl _⟩
  | _ => exact ⟨rfl, hsame ((moves_step m rfl).pastes.trans (pastes_expired m _))⟩

/-- An offer that has its result keeps it as long as it stays, and no number comes back. -/
theorem Indexed.ended (h : m.Indexed) (act : Act) {key : Key} (hid : key.id ≤ m.nextDropId)
    (hended : ∀ offer, m.offers.lookup key = some offer → offer.terminal.isSome = true) :
    key.id ≤ (m.step P act).nextDropId ∧ ∀ offer,
      (m.step P act).offers.lookup key = some offer → offer.terminal.isSome = true := by
  have hkeeps : Keeps m (m.step P act) → key.id ≤ (m.step P act).nextDropId ∧ ∀ offer,
      (m.step P act).offers.lookup key = some offer → offer.terminal.isSome = true := by
    intro hkeeps
    refine ⟨hid.trans hkeeps.counts, fun offer' hoffer' => ?_⟩
    rcases hkeeps.grows key offer' hoffer' with hnew | ⟨offer, hoffer, hgrows⟩
    · exact (hid.not_gt hnew).elim
    · obtain ⟨result, hresult⟩ := Option.isSome_iff_exists.mp (hended offer hoffer)
      rw [hgrows.terminal result hresult]
      rfl
  cases act with
  | cancel now session cancellation =>
    dsimp only [FileDropManager.step]
    unfold FileDropManager.cancel
    dsimp only
    split
    · exact ⟨hid, hended⟩
    rename_i offer hoffer
    split
    · exact ⟨hid, hended⟩
    refine ⟨hid, fun found hfound => ?_⟩
    change (m.offers.insert _ _).lookup key = some found at hfound
    rw [SortedMap.lookup_insert] at hfound
    split at hfound
    · rename_i hsame
      cases hfound
      exact hended offer (hsame ▸ hoffer)
    · exact hended found hfound
  | _ => exact hkeeps (h.kept fun _ _ _ heq => by cases heq).2

/-! ### Histories -/

/-- What holds of the paths that are typed, consent apart. -/
structure Released (P : DropProtocol) (history : List Act) : Prop where
  once : ((released P history).map Paste.key).Nodup
  committed : ∀ paste ∈ released P history, CommittedAs P history paste
  ended : ∀ paste ∈ released P history, paste.key.id ≤ (run P history).nextDropId ∧
    ∀ offer, (run P history).offers.lookup paste.key = some offer → offer.terminal.isSome = true

theorem mem_released_take (history : List Act) :
    (released P (history ++ [.takePendingPastes])).Perm (released P history) := by
  unfold released
  rw [typed_concat, run_concat]
  refine (List.Perm.of_eq (append_nil _)).trans ?_
  exact List.Perm.append_left _ (mergeSort_perm _ _)

/-- A call that neither records a result nor hands over releases nothing. -/
theorem released_step (history : List Act) {act : Act}
    (hfinish : ∀ now session result gesturePaste pathNegotiated sha256,
      act ≠ .finishTransfer now session result gesturePaste pathNegotiated sha256)
    (htake : act ≠ .takePendingPastes) :
    (released P (history ++ [act])).Sublist (released P history) := by
  obtain ⟨hnone, hsub⟩ := pastes_step (P := P) (run P history) hfinish htake
  unfold released
  rw [typed_concat, run_concat, hnone, append_nil]
  exact List.Sublist.append_left hsub _

theorem released_finish (history : List Act) (now : ℕ) (session : SessionIdentity)
    (result : FileResult) (gesturePaste pathNegotiated : Bool) (sha256 : List ℕ) :
    (released P (history ++ [.finishTransfer now session result gesturePaste pathNegotiated
        sha256]) = released P history ∧ ∀ transfer offer path,
      ¬ Queues P (run P history) session result gesturePaste pathNegotiated transfer offer path) ∨
    ∃ transfer offer path gesture,
      Queues P (run P history) session result gesturePaste pathNegotiated transfer offer path ∧
      released P (history ++ [.finishTransfer now session result gesturePaste pathNegotiated
        sha256]) = released P history ++
          [⟨session, transfer.dropId, remotePasteText P path, gesture⟩] ∧
      ((run P (history ++ [.finishTransfer now session result gesturePaste pathNegotiated
        sha256])).offers.lookup ⟨session, transfer.dropId⟩).any (·.terminal = some result) =
          true := by
  unfold released
  rw [typed_concat, run_concat]
  rcases finish_cases (P := P) (indexed_run history) now session result gesturePaste
    pathNegotiated sha256 with ⟨hsame, hnone⟩ | ⟨transfer, offer, path, gesture, hqueues, hsame,
      hended⟩
  · refine Or.inl ⟨?_, hnone⟩
    rw [show (run P history).typedBy (.finishTransfer now session result gesturePaste pathNegotiated
      sha256) = [] from rfl, append_nil]
    exact congrArg _ hsame
  · refine Or.inr ⟨transfer, offer, path, gesture, hqueues, ?_, hended⟩
    rw [show (run P history).typedBy (.finishTransfer now session result gesturePaste pathNegotiated
      sha256) = [] from rfl, append_nil, append_assoc]
    exact congrArg _ hsame

theorem Released.ended_step (h : Released P history) (act : Act) {paste : Paste}
    (hpaste : paste ∈ released P history) :
    paste.key.id ≤ (run P (history ++ [act])).nextDropId ∧ ∀ offer,
      (run P (history ++ [act])).offers.lookup paste.key = some offer →
        offer.terminal.isSome = true := by
  rw [run_concat]
  exact (indexed_run history).ended act (h.ended paste hpaste).1 (h.ended paste hpaste).2

theorem Released.step (h : Released P history) (act : Act) : Released P (history ++ [act]) := by
  have hsub : (∀ paste ∈ released P (history ++ [act]), paste ∈ released P history) →
      ((released P (history ++ [act])).map Paste.key).Nodup → Released P (history ++ [act]) :=
    fun hsub honce => ⟨honce, fun paste hpaste => (h.committed paste (hsub paste hpaste)).later act,
      fun paste hpaste => h.ended_step act (hsub paste hpaste)⟩
  by_cases htake : act = .takePendingPastes
  · subst htake
    have hperm := mem_released_take (P := P) history
    exact hsub (fun _ hpaste => hperm.mem_iff.mp hpaste) ((hperm.map _).nodup_iff.mpr h.once)
  cases act with
  | takePendingPastes => exact (htake rfl).elim
  | finishTransfer now session result gesturePaste pathNegotiated sha256 =>
    rcases released_finish (P := P) history now session result gesturePaste
      pathNegotiated sha256 with ⟨hsame, -⟩ | ⟨transfer, offer, path, _, hqueues, hsame,
        hended⟩
    · rw [hsame] at hsub
      exact hsub (fun _ hpaste => hpaste) h.once
    have hnew : ∀ paste ∈ released P history,
        paste.key ≠ ⟨session, transfer.dropId⟩ := by
      intro paste hpaste heq
      have hterminal := (h.ended paste hpaste).2 offer (heq ▸ hqueues.made)
      rw [hqueues.first] at hterminal
      cases hterminal
    refine ⟨?_, fun paste hpaste => ?_, fun paste hpaste => ?_⟩
    · rw [hsame, map_append, nodup_append]
      refine ⟨h.once, nodup_singleton _, ?_⟩
      intro _ hkey other hother heq
      obtain ⟨paste, hpaste, rfl⟩ := List.mem_map.mp hkey
      rw [map_singleton, mem_singleton] at hother
      exact hnew paste hpaste (heq.trans hother)
    · rw [hsame] at hpaste
      rcases List.mem_append.mp hpaste with hpaste | hlast
      · exact (h.committed paste hpaste).later _
      rw [List.mem_singleton.mp hlast]
      refine ⟨history, now, result, gesturePaste, pathNegotiated, sha256, [], path, rfl,
        hqueues.accepted, rfl, ?_, hended⟩
      dsimp only [Paste.key]
      rw [hqueues.made, any_some, hqueues.first]
      rfl
    · rw [hsame] at hpaste
      rcases List.mem_append.mp hpaste with hpaste | hlast
      · exact h.ended_step _ hpaste
      rw [List.mem_singleton.mp hlast]
      obtain ⟨found, hfound, hterminal⟩ := (Option.any_eq_true _ _).mp hended
      refine ⟨(indexed_run _).numbered _ found hfound, fun other hother => ?_⟩
      dsimp only [Paste.key] at hother
      rw [hfound] at hother
      cases hother
      rw [of_decide_eq_true hterminal]
      rfl
  | _ =>
    have hstep := released_step (P := P) history
      (fun _ _ _ _ _ _ heq => by cases heq) htake
    exact hsub (fun _ hpaste => hstep.subset hpaste) (h.once.sublist (hstep.map _))

theorem released_run (history : List Act) : Released P history := by
  induction history using List.reverseRecOn with
  | nil =>
    refine ⟨nodup_nil, fun paste hpaste => ?_, fun paste hpaste => ?_⟩
    · cases hpaste
    · cases hpaste
  | append_singleton _ act ih => exact ih.step act

theorem Consents.step_iff (h : Consents P history) (act : Act) :
    Consents P (history ++ [act]) ↔ Minded P history act := by
  have hafter := released_run (P := P) (history ++ [act])
  have hsub : (∀ paste ∈ released P (history ++ [act]), paste ∈ released P history) →
      Consents P (history ++ [act]) := fun hsub =>
    ⟨hafter.once, hafter.committed, fun paste hpaste =>
      (h.consented paste (hsub paste hpaste)).later act⟩
  cases act with
  | takePendingPastes =>
    refine iff_of_true (hsub fun _ hpaste => ?_) trivial
    exact (mem_released_take history).mem_iff.mp hpaste
  | finishTransfer now session result gesturePaste pathNegotiated sha256 =>
    rcases released_finish (P := P) history now session result gesturePaste
      pathNegotiated sha256 with ⟨hsame, hnone⟩ | ⟨transfer, offer, path, gesture, hqueues, hsame,
        -⟩
    · refine iff_of_true (hsub fun _ hpaste => hsame ▸ hpaste) ?_
      intro transfer offer htransfer hgeneration hoffer hstands hfirst hallowed hpath hshell hroom
      obtain ⟨path, hpath⟩ := Option.isSome_iff_exists.mp hpath
      exact (hnone transfer offer path ⟨htransfer, hgeneration, hoffer, hstands, hfirst, hallowed,
        hpath, hshell, hroom⟩).elim
    · constructor
      · intro hconsents _ _ htransfer _ _ _ _ _ _ _ _
        rw [hqueues.sent] at htransfer
        cases htransfer
        have hmade := hconsents.consented
          ⟨session, transfer.dropId, remotePasteText P path, gesture⟩ (by
            rw [hsame]
            exact mem_append_right _ (mem_singleton_self _))
        rcases hmade.cases with hmade | hnone
        · exact hmade
        · have hoffer := hqueues.made
          dsimp only [Paste.key] at hnone
          rw [hnone] at hoffer
          cases hoffer
      · intro hminded
        refine ⟨hafter.once, hafter.committed, fun paste hpaste => ?_⟩
        rw [hsame] at hpaste
        rcases List.mem_append.mp hpaste with hpaste | hlast
        · exact (h.consented paste hpaste).later _
        · rw [List.mem_singleton.mp hlast]
          refine MadeUnder.later ?_ _
          exact hminded transfer offer hqueues.sent hqueues.generation hqueues.made
            hqueues.stands hqueues.first hqueues.allowed
            (isSome_of_eq_some hqueues.accepted) hqueues.shell hqueues.room
  | _ =>
    refine iff_of_true (hsub fun _ hpaste => ?_) trivial
    exact (released_step history (fun _ _ _ _ _ _ heq => by cases heq)
      (fun heq => by cases heq)).subset hpaste

/-- Paths are typed as they should throughout a history exactly if no result that is to be typed
under a shell's binding is of an offer that was made under another. -/
theorem consents_iff (P : DropProtocol) (history : List Act) :
    (∀ n, Consents P (history.take n)) ↔ Throughout id (Minded P) history := by
  refine throughout_iff_always (Consents P) ?_ fun history act h => h.step_iff act
  refine ⟨nodup_nil, fun paste hpaste => ?_, fun paste hpaste => ?_⟩
  · cases hpaste
  · cases hpaste

section Rebinding

def desktopBinding : FileDropBinding := { shellBinding with destination := some .desktopFolder }

/-- A file is offered to a remote desktop, and committed once a shell has taken the binding
over. -/
def rebinding : List Act :=
  [.setBinding viewerSession desktopBinding true,
    .offerLocalFile 0 (some { length := 10, suggestedName := "a" }) none,
    .accept 1 viewerSession firstAcceptance,
    .beginTransfer 2 viewerSession ⟨5, 1, 1, 1, 0, 1, 1, 0, 0, 4096, 4096, 4⟩,
    .setBinding viewerSession { shellBinding with producerEpoch := 2 } true,
    .finishTransfer 3 viewerSession ⟨5, 1, .committed, "a", 10, some ['/', 'a']⟩ true true [],
    .takePendingPastes]

/-- The path is typed, though the offer was not made to a shell. -/
theorem rebinding_types : ¬ ∀ history, Consents .plain history := by
  intro h
  have htyped : (typed .plain rebinding).map Paste.key = [⟨viewerSession, 1⟩] := by
    decide +kernel
  obtain ⟨paste, hpaste, hkey⟩ := List.mem_map.mp (htyped ▸ mem_singleton_self _)
  obtain ⟨earlier, act, later, heq, hmakes⟩ :=
    (h rebinding).consented paste (mem_append_left _ hpaste)
  rw [hkey] at hmakes
  have hnever : Throughout (run .plain) (fun m act =>
      m.Makes .plain ⟨viewerSession, 1⟩ (some .shellCwd) act = false) rebinding := by
    decide +kernel
  rw [hnever earlier act later heq] at hmakes
  cases hmakes

end Rebinding

end Vivido.FileDrop.FileDropManager
