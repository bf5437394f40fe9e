import Vivido.Scene.Protocol
import Vivido.Support.SortedMap

/-!
The records of file drops. The library that owns the protocol stands outside the
repository; its checks and counters are the functions of a structure.
-/

namespace Vivido.FileDrop

open Scene

/-- `(SessionIdentity, u64)`, of an offer by its drop and of a transfer by its own number. -/
structure Key where
  session : SessionIdentity
  id : ℕ
  deriving Repr

instance : LinearOrder Key :=
  LinearOrder.lift' (fun k => toLex (k.session, k.id)) fun ⟨_, _⟩ ⟨_, _⟩ h => by
    cases h
    rfl

inductive FileDropDestination where
  | shellCwd
  | desktopFolder
  /-- One that this build cannot describe. -/
  | other (code : ℕ)
  deriving DecidableEq, Repr

inductive FileDropBindingState where
  | disabled
  | enabled
  | denied
  deriving DecidableEq, Repr

structure FileDropBinding where
  producerEpoch : ℕ
  contextId : ℕ
  surfaceId : ℕ
  surfaceGeneration : ℕ
  destination : Option FileDropDestination
  maximumFileBytes : ℕ
  maximumPendingOffers : ℕ
  maximumActiveTransfers : ℕ
  maximumRecordBody : ℕ
  acceptanceTimeoutUs : ℕ
  idleTimeoutUs : ℕ
  deriving DecidableEq, Repr

structure FileDropGrant where
  producerEpoch : ℕ
  grantGeneration : ℕ
  contextId : ℕ
  surfaceId : ℕ
  surfaceGeneration : ℕ
  state : FileDropBindingState
  destination : Option FileDropDestination
  maximumFileBytes : ℕ
  maximumPendingOffers : ℕ
  maximumActiveTransfers : ℕ
  maximumRecordBody : ℕ
  acceptanceTimeoutUs : ℕ
  idleTimeoutUs : ℕ
  reason : ℕ
  deriving DecidableEq, Repr

/-- The complete identity of an offer. -/
structure FileDropTuple where
  producerEpoch : ℕ
  grantGeneration : ℕ
  contextId : ℕ
  surfaceId : ℕ
  surfaceGeneration : ℕ
  dropId : ℕ
  deriving DecidableEq, Repr

structure FileDropOffer where
  binding : FileDropTuple
  suggestedName : String
  declaredLength : ℕ
  deriving DecidableEq, Repr

structure AcceptFileDrop where
  binding : FileDropTuple
  transferId : ℕ
  transferGeneration : ℕ
  maximumRecordBody : ℕ
  initialMaximumBodyBytes : ℕ
  initialMaximumRecords : ℕ
  deriving DecidableEq, Repr

structure FileDropAccepted where
  dropId : ℕ
  transferId : ℕ
  transferGeneration : ℕ
  openTimeoutUs : ℕ
  deriving DecidableEq, Repr

structure AdvanceFileTransfer where
  transferId : ℕ
  dropId : ℕ
  contextId : ℕ
  surfaceId : ℕ
  expectedGeneration : ℕ
  newGeneration : ℕ
  committedOffset : ℕ
  maximumBodyBytes : ℕ
  maximumRecords : ℕ
  deriving DecidableEq, Repr

structure FileTransferAdvanced where
  transferId : ℕ
  generation : ℕ
  committedOffset : ℕ
  openTimeoutUs : ℕ
  deriving DecidableEq, Repr

structure CancelFileDrop where
  binding : FileDropTuple
  reason : ℕ
  deriving DecidableEq, Repr

structure FileTransferOpen where
  transferId : ℕ
  transferGeneration : ℕ
  dropId : ℕ
  contextId : ℕ
  surfaceId : ℕ
  producerEpoch : ℕ
  grantGeneration : ℕ
  surfaceGeneration : ℕ
  resumeOffset : ℕ
  maximumRecordBody : ℕ
  maximumBodyBytes : ℕ
  maximumRecords : ℕ
  deriving DecidableEq, Repr

inductive FileResultCode where
  | committed
  | alreadyCommitted
  | cancelled
  | failed (code : ℕ)
  deriving DecidableEq, Repr

structure FileResult where
  transferId : ℕ
  transferGeneration : ℕ
  result : FileResultCode
  finalName : String
  committedLength : ℕ
  /-- The path on the producer's host. -/
  committedPath : Option (List Char)
  deriving DecidableEq, Repr

/-- `FILE_DROP_RESULT_RETENTION_US` is a field, for it stands in the library. -/
structure DropProtocol where
  /-- `FileDropBinding::validate` for the binding's own surface. -/
  validBinding : FileDropBinding → Bool
  disabled : FileDropBinding → Bool
  advanceGrant : ℕ → Option ℕ
  advanceTransfer : ℕ → Option ℕ
  validSuggestedName : String → Bool
  validCommittedPath : List Char → String → Bool
  /-- `char::is_alphanumeric` -/
  isAlphanumeric : Char → Bool
  resultRetentionUs : ℕ

/-- `u64::checked_add(1)` -/
def checkedSucc (n : ℕ) : Option ℕ := if n + 1 < 2 ^ 64 then some (n + 1) else none

/-- A library that checks and counts in the plainest way. -/
def DropProtocol.plain : DropProtocol where
  validBinding _ := true
  disabled binding := binding.destination.isNone
  advanceGrant := checkedSucc
  advanceTransfer := checkedSucc
  validSuggestedName name := name ≠ ""
  validCommittedPath path _ := path.head? = some '/'
  isAlphanumeric := Char.isAlphanum
  resultRetentionUs := 60000000

end Vivido.FileDrop
