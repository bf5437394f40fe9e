import Vivido.FileDrop.Messages

/-!
The manager of file drops: bindings that producers set, offers made of dropped
files under them, the transfers of accepted offers, and the committed paths that
wait to be typed. A call reads the clock where the code does; time is in
microseconds.
-/

namespace Vivido.FileDrop

open Scene

structure BindingEntry where
  binding : FileDropBinding
  grant : FileDropGrant
  activation : ℕ
  deriving DecidableEq, Repr

/-- A retained source, as far as the manager reads it. -/
structure FileSource where
  generation : ℕ := 1
  length : ℕ
  suggestedName : String
  deriving DecidableEq, Repr

structure OfferEntry where
  binding : FileDropTuple
  source : Option FileSource
  deadline : ℕ
  transfer : Option ℕ := none
  terminal : Option FileResult := none
  cancelled : Bool := false
  terminalDeadline : Option ℕ := none
  deriving DecidableEq, Repr

structure TransferEntry where
  dropId : ℕ
  contextId : ℕ
  surfaceId : ℕ
  generation : ℕ
  committedOffset : ℕ
  maximumRecordBody : ℕ
  maximumBodyBytes : ℕ
  maximumRecords : ℕ
  active : Bool
  deadline : ℕ
  deriving DecidableEq, Repr

inductive LocalDropDisposition where
  | noBinding
  | offered
  | rejected (reason : String)
  deriving DecidableEq, Repr

/-- A drop that an automation request started. -/
structure AutomationDrop where
  typePath : Bool
  sha256 : Option (List ℕ) := none
  deriving DecidableEq, Repr

/-- A committed path that waits to be typed, and whether it came from a gesture. -/
structure Paste where
  session : SessionIdentity
  dropId : ℕ
  text : List Char
  gesture : Bool
  deriving DecidableEq, Repr

def Paste.key (paste : Paste) : Key := ⟨paste.session, paste.dropId⟩

structure AutomationDropOutcome where
  result : FileResultCode
  finalName : String
  committedLength : ℕ
  remotePath : Option (List Char)
  sha256 : Option (List ℕ)
  deriving DecidableEq, Repr

inductive AutomationDropState where
  | pending
  | finished (outcome : AutomationDropOutcome)
  | cancelled
  | lost
  deriving DecidableEq, Repr

structure FileDropManager where
  bindings : SortedMap SurfaceIdentity BindingEntry := .empty
  offers : SortedMap Key OfferEntry := .empty
  transfers : SortedMap Key TransferEntry := .empty
  bindingEpochs : SortedMap SurfaceIdentity (FileDropBinding × FileDropGrant) := .empty
  nextDropId : ℕ := 0
  nextActivation : ℕ := 0
  grantGenerations : SortedMap SessionIdentity ℕ := .empty
  cancellations : List (SessionIdentity × CancelFileDrop) := []
  pendingPastes : List Paste := []
  automation : SortedMap Key AutomationDrop := .empty

/-- `MAX_PENDING_PASTES` -/
def maxPendingPastes : ℕ := 64

def tooManyPending : String := "Too many file drops are pending"

/-- The text for a committed path, quoted where a shell would need it. -/
def remotePasteText (P : DropProtocol) (path : List Char) : List Char :=
  if path.any fun c => !P.isAlphanumeric c && !("._-+=,:@%/".toList.contains c) then
    let quoted := path.flatMap fun c => if c = '\'' then ['\'', '\\', '\'', '\''] else [c]
    '\'' :: quoted ++ ['\'', ' ']
  else path ++ [' ']

/-- The path of a result that may be typed. -/
def acceptedCommittedPath (P : DropProtocol) (result : FileResult) : Option (List Char) :=
  match result.result with
  | .committed | .alreadyCommitted =>
    result.committedPath.filter fun path => P.validCommittedPath path result.finalName
  | _ => none

def cancelOfferSource (offer : OfferEntry) : OfferEntry := { offer with source := none }

/-- The binding that an offer is under. -/
def OfferEntry.bindingKey (offer : OfferEntry) (session : SessionIdentity) : SurfaceIdentity :=
  ⟨⟨session, offer.binding.contextId⟩, offer.binding.surfaceId⟩

def TransferEntry.bindingKey (transfer : TransferEntry) (session : SessionIdentity) :
    SurfaceIdentity :=
  ⟨⟨session, transfer.contextId⟩, transfer.surfaceId⟩

namespace FileDropManager

variable (P : DropProtocol) (m : FileDropManager)

/-! ### Bindings -/

/-- What is under a binding goes with it. -/
def removeBinding (key : SurfaceIdentity) : FileDropManager :=
  { m with
    bindings := m.bindings.erase key
    offers := m.offers.filter fun entry => entry.2.bindingKey entry.1.session ≠ key
    transfers := m.transfers.filter fun entry => entry.2.bindingKey entry.1.session ≠ key }

def disabledGrant (binding : FileDropBinding) : FileDropGrant where
  producerEpoch := binding.producerEpoch
  grantGeneration := 0
  contextId := binding.contextId
  surfaceId := binding.surfaceId
  surfaceGeneration := binding.surfaceGeneration
  state := .disabled
  destination := none
  maximumFileBytes := 0
  maximumPendingOffers := 0
  maximumActiveTransfers := 0
  maximumRecordBody := 0
  acceptanceTimeoutUs := 0
  idleTimeoutUs := 0
  reason := 0

def grantOf (binding : FileDropBinding) (generation : ℕ) (allow : Bool) : FileDropGrant where
  producerEpoch := binding.producerEpoch
  grantGeneration := generation
  contextId := binding.contextId
  surfaceId := binding.surfaceId
  surfaceGeneration := binding.surfaceGeneration
  state := if allow then .enabled else .denied
  destination := binding.destination
  maximumFileBytes := binding.maximumFileBytes
  maximumPendingOffers := binding.maximumPendingOffers
  maximumActiveTransfers := binding.maximumActiveTransfers
  maximumRecordBody := binding.maximumRecordBody
  acceptanceTimeoutUs := binding.acceptanceTimeoutUs
  idleTimeoutUs := binding.idleTimeoutUs
  reason := if allow then 0 else 1

/-- A binding of a new epoch. -/
def bind (key : SurfaceIdentity) (binding : FileDropBinding) (allow : Bool) :
    FileDropManager × Except String FileDropGrant :=
  if P.disabled binding then
    let reply := disabledGrant binding
    let m := m.removeBinding key
    ({ m with bindingEpochs := m.bindingEpochs.insert key (binding, reply) }, .ok reply)
  else
    let session := key.context.session
    let current := (m.grantGenerations.lookup session).getD 0
    match P.advanceGrant current with
    | none =>
      ({ m with grantGenerations := m.grantGenerations.insert session current },
        .error "file-drop grant generation exhausted")
    | some generation =>
      let m := { m with grantGenerations := m.grantGenerations.insert session generation }
      let reply := grantOf binding generation allow
      if allow then
        match checkedSucc m.nextActivation with
        | none => (m, .error "file-drop activation order exhausted")
        | some activation =>
          ({ m with
              nextActivation := activation
              bindings := m.bindings.insert key { binding, grant := reply, activation }
              bindingEpochs := m.bindingEpochs.insert key (binding, reply) }, .ok reply)
      else
        ({ m with bindingEpochs := m.bindingEpochs.insert key (binding, reply) }, .ok reply)

def setBinding (session : SessionIdentity) (binding : FileDropBinding) (allow : Bool) :
    FileDropManager × Except String FileDropGrant :=
  if !P.validBinding binding then (m, .error "invalid file-drop binding")
  else
    let key : SurfaceIdentity := ⟨⟨session, binding.contextId⟩, binding.surfaceId⟩
    match m.bindingEpochs.lookup key with
    | none => m.bind P key binding allow
    | some (previous, reply) =>
      if binding.producerEpoch < previous.producerEpoch then
        (m, .error "stale file-drop binding epoch")
      else if binding.producerEpoch = previous.producerEpoch then
        if binding = previous then (m, .ok reply)
        else (m, .error "file-drop epoch was reused with different fields")
      else m.bind P key binding allow

/-- The binding of the surface that was hit, or else the one for the whole target that was
activated last. -/
def effectiveBindingKey (hit : Option (SurfaceIdentity × ℕ)) : Option SurfaceIdentity :=
  let onSurface := hit.bind fun (key, generation) =>
    if (m.bindings.lookup key).any fun entry =>
        entry.binding.surfaceGeneration = generation ∧ entry.grant.state = .enabled then
      some key
    else none
  onSurface <|>
    (m.bindings.entries.foldl (fun (best : Option (SurfaceIdentity × BindingEntry)) entry =>
      if entry.2.binding.surfaceId ≠ 0 then best
      else
        match best with
        | none => some entry
        | some last => if last.2.activation ≤ entry.2.activation then some entry else some last)
      none).map Prod.fst

/-! ### Expiry -/

/-- An offer whose result has been kept long enough goes. -/
def dropTerminal (key : Key) : FileDropManager :=
  let m := { m with automation := m.automation.erase key }
  match m.offers.lookup key with
  | none => m
  | some offer =>
    let m := { m with offers := m.offers.erase key }
    match offer.transfer with
    | none => m
    | some transferId => { m with transfers := m.transfers.erase ⟨key.session, transferId⟩ }

/-- An offer is cancelled, with its source and its transfer. -/
def cancelOffer (now : ℕ) (key : Key) (offer : OfferEntry) : FileDropManager :=
  { m with
    transfers := match offer.transfer with
      | none => m.transfers
      | some transferId =>
        m.transfers.adjust ⟨key.session, transferId⟩ fun transfer =>
          { transfer with active := false }
    offers := m.offers.insert key { cancelOfferSource offer with
      cancelled := true
      terminalDeadline := some (now + P.resultRetentionUs) } }

/-- An offer that nobody went on with is cancelled. -/
def timeOut (now : ℕ) (key : Key) : FileDropManager :=
  match m.offers.lookup key with
  | none => m
  | some offer =>
    let m := m.cancelOffer P now key offer
    { m with
      cancellations := m.cancellations ++ [(key.session, ⟨offer.binding, 1⟩)] }

def terminalExpired (now : ℕ) : List Key :=
  (m.offers.entries.filter fun entry => entry.2.terminalDeadline.any (· ≤ now)).map Prod.fst

def isTimedOut (now : ℕ) (key : Key) (offer : OfferEntry) : Bool :=
  !offer.cancelled && offer.terminal.isNone &&
    ((offer.deadline ≤ now && offer.transfer.isNone) ||
      offer.transfer.any fun transferId =>
        (m.transfers.lookup ⟨key.session, transferId⟩).any fun transfer =>
          !transfer.active && transfer.deadline ≤ now)

def timedOut (now : ℕ) : List Key :=
  (m.offers.entries.filter fun entry => m.isTimedOut now entry.1 entry.2).map Prod.fst

def expire (now : ℕ) : FileDropManager :=
  let m := (m.terminalExpired now).foldl dropTerminal m
  (m.timedOut now).foldl (fun m key => m.timeOut P now key) m

/-! ### Offers -/

/-- Admit a retained source against the binding's ceilings and record the pending offer. -/
def offerSource (now : ℕ) (key : SurfaceIdentity) (entry : BindingEntry) (source : FileSource) :
    FileDropManager × LocalDropDisposition × Option (SessionIdentity × FileDropOffer) :=
  if entry.grant.maximumFileBytes < source.length then
    (m, .rejected "The dropped file exceeds the remote limit", none)
  else
    let pending := (m.offers.filter fun offer =>
      offer.2.bindingKey offer.1.session = key ∧ offer.2.transfer = none ∧
        offer.2.terminal = none ∧ offer.2.cancelled = false).size
    if entry.grant.maximumPendingOffers ≤ pending then (m, .rejected tooManyPending, none)
    else
      match checkedSucc m.nextDropId with
      | none => (m, .rejected "File-drop ID space is exhausted", none)
      | some dropId =>
        let session := key.context.session
        let binding : FileDropTuple :=
          { producerEpoch := entry.binding.producerEpoch
            grantGeneration := entry.grant.grantGeneration
            contextId := entry.binding.contextId
            surfaceId := entry.binding.surfaceId
            surfaceGeneration := entry.binding.surfaceGeneration
            dropId }
        ({ m with
            nextDropId := dropId
            offers := m.offers.insert ⟨session, dropId⟩
              { binding
                source := some source
                deadline := now + entry.grant.acceptanceTimeoutUs } },
          .offered,
          some (session,
            { binding
              suggestedName := source.suggestedName
              declaredLength := source.length }))

/-- A file or bytes are offered under the binding that is effective. The source is what came of
opening it, or why it cannot be offered. -/
def offerLocal (now : ℕ) (source : Except String FileSource)
    (hit : Option (SurfaceIdentity × ℕ)) :
    FileDropManager × LocalDropDisposition × Option (SessionIdentity × FileDropOffer) :=
  let m := m.expire P now
  match m.effectiveBindingKey hit with
  | none => (m, .noBinding, none)
  | some key =>
    match source with
    | .error reason => (m, .rejected reason, none)
    | .ok source =>
      match m.bindings.lookup key with
      -- `expect("effective binding is live")`
      | none => (m, .noBinding, none)
      | some entry => m.offerSource now key entry source

/-- `opened` is what `open_source` gave for the path. -/
def offerLocalFile (now : ℕ) (opened : Option FileSource) (hit : Option (SurfaceIdentity × ℕ)) :
    FileDropManager × LocalDropDisposition × Option (SessionIdentity × FileDropOffer) :=
  m.offerLocal P now (match opened with
    | some source => .ok source
    | none => .error "Only regular files can be copied") hit

def offerLocalBytes (now : ℕ) (name : String) (length : ℕ) (hit : Option (SurfaceIdentity × ℕ)) :
    FileDropManager × LocalDropDisposition × Option (SessionIdentity × FileDropOffer) :=
  m.offerLocal P now (if !P.validSuggestedName name then .error "The pasted name is invalid"
    else .ok { length, suggestedName := name }) hit

def offerAutomationFile (now : ℕ) (opened : Option FileSource)
    (hit : Option (SurfaceIdentity × ℕ)) (typePath : Bool) :
    FileDropManager × Except LocalDropDisposition (Key × FileDropOffer) :=
  match m.offerLocalFile P now opened hit with
  | (m, .offered, some (session, offer)) =>
    let key : Key := ⟨session, offer.binding.dropId⟩
    ({ m with automation := m.automation.insert key { typePath } }, .ok (key, offer))
  | (m, disposition, _) => (m, .error disposition)

def automationState (now : ℕ) (handle : Key) : FileDropManager × AutomationDropState :=
  let m := m.expire P now
  (m, match m.offers.lookup handle with
    | none => .lost
    | some offer =>
      match offer.terminal with
      | some result =>
        .finished
          { result := result.result
            finalName := result.finalName
            committedLength := result.committedLength
            remotePath := acceptedCommittedPath P result
            sha256 := (m.automation.lookup handle).bind (·.sha256) }
      | none => if offer.cancelled then .cancelled else .pending)

/-! ### Transfers -/

def accept (now : ℕ) (session : SessionIdentity) (acceptance : AcceptFileDrop) :
    FileDropManager × Except String FileDropAccepted :=
  let m := m.expire P now
  let offerKey : Key := ⟨session, acceptance.binding.dropId⟩
  let transferKey : Key := ⟨session, acceptance.transferId⟩
  let bindingKey : SurfaceIdentity :=
    ⟨⟨session, acceptance.binding.contextId⟩, acceptance.binding.surfaceId⟩
  match m.offers.lookup offerKey with
  | none => (m, .error "file-drop offer is absent")
  | some offer =>
    if offer.binding ≠ acceptance.binding then
      (m, .error "file-drop acceptance has a stale binding identity")
    else if offer.cancelled ∨ offer.terminal.isSome then
      (m, .error "file-drop offer is already terminal")
    else
      match offer.transfer with
      | some transferId =>
        if transferId = acceptance.transferId then
          match m.bindings.lookup bindingKey with
          | none => (m, .error "file-drop binding is no longer live")
          | some binding =>
            (m, .ok
              { dropId := acceptance.binding.dropId
                transferId
                transferGeneration := acceptance.transferGeneration
                openTimeoutUs := binding.grant.idleTimeoutUs })
        else (m, .error "file-drop offer was already accepted")
      | none =>
        match m.bindings.lookup bindingKey with
        | none => (m, .error "file-drop binding is no longer live")
        | some binding =>
          let active := (m.transfers.filter fun transfer =>
            transfer.2.bindingKey transfer.1.session = bindingKey ∧
              (m.offers.lookup ⟨session, transfer.2.dropId⟩).any fun offer =>
                !offer.cancelled && offer.terminal.isNone).size
          if binding.grant.maximumActiveTransfers ≤ active then
            (m, .error "file-drop active-transfer limit reached")
          else if binding.grant.maximumRecordBody < acceptance.maximumRecordBody then
            (m, .error "file-drop record limit exceeds the binding")
          else if (m.transfers.lookup transferKey).isSome then
            (m, .error "file-transfer ID is already live")
          else
            ({ m with
                offers := m.offers.insert offerKey
                  { offer with transfer := some acceptance.transferId }
                transfers := m.transfers.insert transferKey
                  { dropId := acceptance.binding.dropId
                    contextId := acceptance.binding.contextId
                    surfaceId := acceptance.binding.surfaceId
                    generation := acceptance.transferGeneration
                    committedOffset := 0
                    maximumRecordBody := acceptance.maximumRecordBody
                    maximumBodyBytes := acceptance.initialMaximumBodyBytes
                    maximumRecords := acceptance.initialMaximumRecords
                    active := false
                    deadline := now + binding.grant.idleTimeoutUs } },
              .ok
                { dropId := acceptance.binding.dropId
                  transferId := acceptance.transferId
                  transferGeneration := acceptance.transferGeneration
                  openTimeoutUs := binding.grant.idleTimeoutUs })

/-- The answer is none where `self.offers[..]` would panic. -/
def advance (now : ℕ) (session : SessionIdentity) (advance : AdvanceFileTransfer) :
    Option (FileDropManager × Except String FileTransferAdvanced) :=
  let stale := "file-transfer advance has stale or impossible state"
  let transferKey : Key := ⟨session, advance.transferId⟩
  match m.transfers.lookup transferKey with
  | none => some (m, .error "file transfer is absent")
  | some transfer =>
    if transfer.contextId ≠ advance.contextId ∨ transfer.surfaceId ≠ advance.surfaceId ∨
        transfer.dropId ≠ advance.dropId ∨ transfer.generation ≠ advance.expectedGeneration then
      some (m, .error stale)
    else
      match P.advanceTransfer transfer.generation with
      | none => some (m, .error "file-transfer generation exhausted")
      | some next =>
        if advance.newGeneration ≠ next then some (m, .error stale)
        else
          match m.offers.lookup ⟨session, transfer.dropId⟩ with
          | none => none
          | some offer =>
            match offer.source with
            | none => some (m, .error "file-drop offer is terminal")
            | some source =>
              if source.length < advance.committedOffset then some (m, .error stale)
              else
                match m.bindings.lookup (transfer.bindingKey session) with
                | none => some (m, .error "file-drop binding is no longer live")
                | some binding =>
                  some ({ m with
                      offers := m.offers.insert ⟨session, transfer.dropId⟩ { offer with
                        source := some { source with generation := advance.newGeneration } }
                      transfers := m.transfers.insert transferKey { transfer with
                        generation := advance.newGeneration
                        committedOffset := advance.committedOffset
                        maximumBodyBytes := advance.maximumBodyBytes
                        maximumRecords := advance.maximumRecords
                        active := false
                        deadline := now + binding.grant.idleTimeoutUs } },
                    .ok
                      { transferId := advance.transferId
                        generation := advance.newGeneration
                        committedOffset := advance.committedOffset
                        openTimeoutUs := binding.grant.idleTimeoutUs })

def cancel (now : ℕ) (session : SessionIdentity) (cancellation : CancelFileDrop) :
    FileDropManager × Except String Unit :=
  let offerKey : Key := ⟨session, cancellation.binding.dropId⟩
  match m.offers.lookup offerKey with
  | none => (m, .error "file-drop offer is absent")
  | some offer =>
    if offer.binding ≠ cancellation.binding then
      (m, .error "file-drop cancellation has a stale binding identity")
    else
      (m.cancelOffer P now offerKey offer, .ok ())

def beginTransfer (now : ℕ) (session : SessionIdentity) (opening : FileTransferOpen) :
    FileDropManager × Except String FileSource :=
  let m := m.expire P now
  let transferKey : Key := ⟨session, opening.transferId⟩
  match m.transfers.lookup transferKey with
  | none => (m, .error "file transfer is absent")
  | some transfer =>
    if transfer.contextId ≠ opening.contextId ∨ transfer.surfaceId ≠ opening.surfaceId ∨
        transfer.dropId ≠ opening.dropId ∨ transfer.generation ≠ opening.transferGeneration ∨
        transfer.committedOffset ≠ opening.resumeOffset ∨
        transfer.maximumRecordBody ≠ opening.maximumRecordBody ∨
        transfer.maximumBodyBytes ≠ opening.maximumBodyBytes ∨
        transfer.maximumRecords ≠ opening.maximumRecords ∨ transfer.active then
      (m, .error "file-transfer open does not match the accepted generation")
    else
      match m.offers.lookup ⟨session, opening.dropId⟩ with
      | none => (m, .error "file-drop offer is absent")
      | some offer =>
        if offer.binding.producerEpoch ≠ opening.producerEpoch ∨
            offer.binding.grantGeneration ≠ opening.grantGeneration ∨
            offer.binding.surfaceGeneration ≠ opening.surfaceGeneration then
          (m, .error "file-transfer open has a stale complete binding identity")
        else if offer.cancelled ∨ offer.terminal.isSome then
          (m, .error "file-drop offer is terminal")
        else
          ({ m with transfers := m.transfers.insert transferKey { transfer with active := true } },
            match offer.source with
            | some source => .ok source
            | none => .error "file-drop source is no longer available")

/-- The text that a result puts into the terminal. -/
def pasteOf (binding : SurfaceIdentity) (allowPaste : Bool) (result : FileResult) :
    Option (List Char) :=
  if allowPaste then
    ((acceptedCommittedPath P result).map (remotePasteText P)).filter fun _ =>
      (m.bindings.lookup binding).any fun entry =>
        entry.binding.destination = some .shellCwd
  else none

/-- Whether the result of a drop may be typed. -/
def allowsPaste (key : Key) (gesturePaste pathNegotiated : Bool) : Bool :=
  match m.automation.lookup key with
  | some automation => automation.typePath && pathNegotiated
  | none => gesturePaste

/-- Record a transfer's terminal result; the answer says whether a path was queued for typing. -/
def finishTransfer (now : ℕ) (session : SessionIdentity) (result : FileResult)
    (gesturePaste pathNegotiated : Bool) (sha256 : List ℕ) : FileDropManager × Bool :=
  let transferKey : Key := ⟨session, result.transferId⟩
  match m.transfers.lookup transferKey with
  | none => (m, false)
  | some transfer =>
    if transfer.generation ≠ result.transferGeneration then (m, false)
    else
      let offerKey : Key := ⟨session, transfer.dropId⟩
      match m.offers.lookup offerKey with
      | none => (m, false)
      | some offer =>
        if offer.cancelled ∨ offer.terminal.isSome then (m, false)
        else
          let gesture := (m.automation.lookup offerKey).isNone
          let allowPaste := m.allowsPaste offerKey gesturePaste pathNegotiated
          let paste := m.pasteOf P (transfer.bindingKey session) allowPaste result
          let m := { m with
            transfers := m.transfers.insert transferKey { transfer with
              active := false, committedOffset := result.committedLength }
            automation := m.automation.adjust offerKey fun automation =>
              { automation with sha256 := some sha256 }
            offers := m.offers.insert offerKey { offer with
              source := none
              terminal := some result
              terminalDeadline := some (now + P.resultRetentionUs) } }
          match paste with
          | some text =>
            if m.pendingPastes.length < maxPendingPastes then
              ({ m with pendingPastes := m.pendingPastes ++
                  [{ session, dropId := transfer.dropId, text, gesture }] }, true)
            else (m, false)
          | none => (m, false)

/-- The pastes are drained in the order of their drops. -/
def takePendingPastes : FileDropManager × List Paste :=
  ({ m with pendingPastes := [] }, m.pendingPastes.mergeSort fun a b => a.dropId ≤ b.dropId)

def connectionLost (now : ℕ) (session : SessionIdentity) (transferId generation : ℕ) :
    FileDropManager :=
  let transferKey : Key := ⟨session, transferId⟩
  match m.transfers.lookup transferKey with
  | none => m
  | some transfer =>
    if transfer.generation ≠ generation then m
    else
      { m with
        transfers := m.transfers.insert transferKey { transfer with
          active := false
          deadline := match m.bindings.lookup (transfer.bindingKey session) with
            | some binding => now + binding.grant.idleTimeoutUs
            | none => transfer.deadline } }

def serviceTimeouts (now : ℕ) (session : SessionIdentity) :
    FileDropManager × List CancelFileDrop :=
  let m := m.expire P now
  ({ m with cancellations := m.cancellations.filter (·.1 ≠ session) },
    (m.cancellations.filter (·.1 = session)).map Prod.snd)

/-! ### Removals -/

def removeSessionBindings (session : SessionIdentity) : FileDropManager :=
  { m with
    bindings := m.bindings.filter fun entry => entry.1.context.session ≠ session
    offers := m.offers.filter fun entry => entry.1.session ≠ session
    transfers := m.transfers.filter fun entry => entry.1.session ≠ session }

def removeSession (session : SessionIdentity) : FileDropManager :=
  let m := m.removeSessionBindings session
  { m with
    bindingEpochs := m.bindingEpochs.filter fun entry => entry.1.context.session ≠ session
    grantGenerations := m.grantGenerations.erase session
    cancellations := m.cancellations.filter (·.1 ≠ session)
    pendingPastes := m.pendingPastes.filter (·.session ≠ session)
    automation := m.automation.filter fun entry => entry.1.session ≠ session }

def removeContexts (session : SessionIdentity) (contexts : Finset ℕ) : FileDropManager :=
  let m := { m with
    bindings := m.bindings.filter fun entry =>
      entry.1.context.session ≠ session ∨ entry.1.context.contextId ∉ contexts
    bindingEpochs := m.bindingEpochs.filter fun entry =>
      entry.1.context.session ≠ session ∨ entry.1.context.contextId ∉ contexts
    offers := m.offers.filter fun entry =>
      ¬ (entry.1.session = session ∧ entry.2.binding.contextId ∈ contexts)
    transfers := m.transfers.filter fun entry =>
      entry.1.session ≠ session ∨ entry.2.contextId ∉ contexts
    cancellations := m.cancellations.filter fun entry =>
      entry.1 ≠ session ∨ entry.2.binding.contextId ∉ contexts }
  -- a paste for an offer that is gone can no longer be typed
  { m with pendingPastes := m.pendingPastes.filter fun paste =>
      paste.session ≠ session ∨ (m.offers.lookup ⟨session, paste.dropId⟩).isSome }

def removeSurface (key : SurfaceIdentity) : FileDropManager :=
  { m with
    bindings := m.bindings.erase key
    bindingEpochs := m.bindingEpochs.erase key
    offers := m.offers.filter fun entry => entry.2.bindingKey entry.1.session ≠ key
    transfers := m.transfers.filter fun entry => entry.2.bindingKey entry.1.session ≠ key
    cancellations := m.cancellations.filter fun entry =>
      (⟨⟨entry.1, entry.2.binding.contextId⟩, entry.2.binding.surfaceId⟩ : SurfaceIdentity) ≠ key }

end FileDropManager

/-- A call of the manager. -/
inductive Act where
  | setBinding (session : SessionIdentity) (binding : FileDropBinding) (allow : Bool)
  | offerLocalFile (now : ℕ) (opened : Option FileSource) (hit : Option (SurfaceIdentity × ℕ))
  | offerLocalBytes (now : ℕ) (name : String) (length : ℕ) (hit : Option (SurfaceIdentity × ℕ))
  | offerAutomationFile (now : ℕ) (opened : Option FileSource)
      (hit : Option (SurfaceIdentity × ℕ)) (typePath : Bool)
  /-- `automation_state`, `status` and `service_timeouts` begin with it. -/
  | expire (now : ℕ)
  | serviceTimeouts (now : ℕ) (session : SessionIdentity)
  | accept (now : ℕ) (session : SessionIdentity) (acceptance : AcceptFileDrop)
  | advance (now : ℕ) (session : SessionIdentity) (advance : AdvanceFileTransfer)
  | cancel (now : ℕ) (session : SessionIdentity) (cancellation : CancelFileDrop)
  | beginTransfer (now : ℕ) (session : SessionIdentity) (opening : FileTransferOpen)
  | finishTransfer (now : ℕ) (session : SessionIdentity) (result : FileResult)
      (gesturePaste pathNegotiated : Bool) (sha256 : List ℕ)
  | takePendingPastes
  | connectionLost (now : ℕ) (session : SessionIdentity) (transferId generation : ℕ)
  | removeSession (session : SessionIdentity)
  | removeContexts (session : SessionIdentity) (contexts : Finset ℕ)
  | removeSurface (key : SurfaceIdentity)

namespace FileDropManager

variable (P : DropProtocol)

/-- The manager after a call. A call that panics leaves it as it was. -/
def step (m : FileDropManager) : Act → FileDropManager
  | .setBinding session binding allow => (m.setBinding P session binding allow).1
  | .offerLocalFile now opened hit => (m.offerLocalFile P now opened hit).1
  | .offerLocalBytes now name length hit => (m.offerLocalBytes P now name length hit).1
  | .offerAutomationFile now opened hit typePath =>
    (m.offerAutomationFile P now opened hit typePath).1
  | .expire now => m.expire P now
  | .serviceTimeouts now session => (m.serviceTimeouts P now session).1
  | .accept now session acceptance => (m.accept P now session acceptance).1
  | .advance now session advance => ((m.advance P now session advance).map Prod.fst).getD m
  | .cancel now session cancellation => (m.cancel P now session cancellation).1
  | .beginTransfer now session opening => (m.beginTransfer P now session opening).1
  | .finishTransfer now session result gesturePaste pathNegotiated sha256 =>
    (m.finishTransfer P now session result gesturePaste pathNegotiated sha256).1
  | .takePendingPastes => m.takePendingPastes.1
  | .connectionLost now session transferId generation =>
    m.connectionLost now session transferId generation
  | .removeSession session => m.removeSession session
  | .removeContexts session contexts => m.removeContexts session contexts
  | .removeSurface key => m.removeSurface key

def run (history : List Act) : FileDropManager := history.foldl (step P) {}

theorem run_concat (history : List Act) (act : Act) :
    run P (history ++ [act]) = (run P history).step P act :=
  List.foldl_append

end FileDropManager

end Vivido.FileDrop
