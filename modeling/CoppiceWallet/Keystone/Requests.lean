import CoppiceWallet.Planner.Denomination
import CoppiceWallet.Store.Recovery

/-!
# Keystone migration requests

A request waits in memory, under its id, until the device has signed its messages. The three kinds
differ in what they carry; the steps that take a request, put it back and drop it are the same.
-/

namespace CoppiceWallet.Keystone

open CoppiceWallet.Lib CoppiceWallet.Store

inductive KeystoneMigrationRequestState
  | proofing
  | proofReady
  | proofFailed
  | completing
  deriving DecidableEq

/-- What the device returns for one message: its signatures, in the compact encoding. -/
structure KeystoneSignedMigrationMessage where
  id : Text
  sigs : Bytes

abbrev SignedById := List (Text × Bytes)

def collectSignedMessages : List KeystoneSignedMigrationMessage → SignedById →
    StoreResult SignedById
  | [], byId => .ok byId
  | message :: messages, byId =>
    if message.id.isEmpty then .error "Keystone signed message id is empty"
    else if message.sigs.isEmpty then .error "Keystone signed message carried no signatures"
    else if (byId.lookup message.id).isSome then .error "Duplicate signed Keystone message"
    else collectSignedMessages messages ((message.id,message.sigs) :: byId)

def signedMigrationMessagesById (signedMessages : List KeystoneSignedMigrationMessage) :
    StoreResult SignedById :=
  if signedMessages.isEmpty then .error "Keystone returned no signed messages for request"
  else collectSignedMessages signedMessages []

def missingSignature : String := "Keystone result missing"

structure MigrationNoteRef extends PreparedOrchardNoteRef where
  noteVersion : Nat
  nullifier : Option Text

def sameOutpointAndValue (lhs rhs : MigrationNoteRef) : Bool :=
  decide (lower lhs.txid = lower rhs.txid) && decide (lhs.outputIndex = rhs.outputIndex) &&
    decide (lhs.value = rhs.value)

def samePreparedNoteWithoutNullifier (lhs rhs : MigrationNoteRef) : Bool :=
  sameOutpointAndValue lhs rhs && decide (lhs.noteVersion = rhs.noteVersion)

inductive DenominationStageOutputKind
  | migration
  | change
  | continuation
  deriving DecidableEq

structure DenominationStageOutputRef where
  outputIndex : Nat
  value : Nat
  noteVersion : Nat
  kind : DenominationStageOutputKind
  partIndex : Option Nat

inductive DenominationStageStatus
  | awaitingInputs
  | pending
  deriving DecidableEq

structure CreatedDenominationStagePczt where
  id : Text
  basePczt : Bytes
  pcztWithProofs : Option Bytes
  expectedTxid : Text
  targetHeight : Nat
  scheduledHeight : Nat
  expiryHeight : Nat
  fee : Nat
  deferred : Bool
  inputs : List MigrationNoteRef
  outputs : List DenominationStageOutputRef

structure DenominationStageInsert where
  stageIndex : Nat
  basePczt : Bytes
  sigs : Bytes
  rawTx : Option Bytes
  expectedTxid : Text
  targetHeight : Nat
  scheduledHeight : Nat
  expiryHeight : Nat
  fee : Nat
  status : DenominationStageStatus
  inputs : List MigrationNoteRef
  outputs : List DenominationStageOutputRef

structure CreatedMigrationPczt where
  partIndex : Nat
  id : Text
  basePczt : Bytes
  pcztWithProofs : Option Bytes
  targetHeight : Nat
  anchorBoundaryHeight : Option Nat
  expiryHeight : Nat
  scheduledHeight : Nat
  fee : Nat
  migrated : Nat
  selectedNote : MigrationNoteRef

structure DenominationPlan where
  migrationOutputs : List Nat
  orchardChange : Option Nat
  splitFee : Nat
  migrationFee : Nat
  totalInput : Nat
  totalMigratable : Nat

structure DenominationRequest where
  draftRunId : Option Text
  preparationTimingPolicy : PreparationTimingPolicy
  splitStages : List CreatedDenominationStagePczt
  directPreparedRefs : List MigrationNoteRef
  totalMigratable : Nat
  plan : DenominationPlan

structure SingleQrRequest where
  preparationTimingPolicy : PreparationTimingPolicy
  splitStages : List CreatedDenominationStagePczt
  directPreparedRefs : List MigrationNoteRef
  totalMigratable : Nat
  plan : DenominationPlan
  childMessages : List CreatedMigrationPczt
  approvedSchedule : List MigrationScheduleEntry

structure MigrationBatchRequest where
  runId : Text
  fallbackTotalCount : Nat
  fallbackMigrated : Nat
  recoveryOldTxids : List TxidHex
  messages : List CreatedMigrationPczt

structure StoredRequest (β : Type) where
  accountUuid : Text
  network : WalletNetwork
  state : KeystoneMigrationRequestState
  proofError : Option String
  body : β

abbrev RequestStore (β : Type) := Text → Option (StoredRequest β)

variable {β : Type}

def RequestStore.insert (store : RequestStore β) (requestId : Text) (stored : StoredRequest β) :
    RequestStore β :=
  Function.update store requestId (some stored)

def RequestStore.remove (store : RequestStore β) (requestId : Text) : RequestStore β :=
  Function.update store requestId none

structure CompletionCall where
  accountUuid : Text
  network : WalletNetwork
  requestId : Text
  signedMessages : List KeystoneSignedMigrationMessage

/-- The texts in which the three kinds differ. -/
structure RequestMessages where
  notFound : String
  otherAccount : String
  wrongCount : String
  alreadyCompleting : String

/-- Check a request and mark it as completing; a refused request stays as it is. -/
def takeForCompletion (messages : RequestMessages) (call : CompletionCall) (signedCount : Nat)
    (expectedCount : β → StoreResult Nat) (proofsReady : β → StoreResult Unit)
    (store : RequestStore β) : StoreResult (β × RequestStore β) := do
  let stored ← okOr (store call.requestId) messages.notFound
  if stored.accountUuid ≠ call.accountUuid ∨ stored.network ≠ call.network then
    .error messages.otherAccount
  else do
  let expected ← expectedCount stored.body
  if signedCount ≠ expected then .error messages.wrongCount
  else match stored.state with
  | .proofing => .error "Vizor is still finishing migration proofs. Try again shortly."
  | .proofFailed => .error (stored.proofError.getD
      "Vizor proof generation failed. Reject and prepare a new request.")
  | .completing => .error messages.alreadyCompleting
  | .proofReady => do
    proofsReady stored.body
    return (stored.body,store.insert call.requestId { stored with state := .completing })

def resetAfterFailedCompletion (requestId : Text) (store : RequestStore β) : RequestStore β :=
  match store requestId with
  | none => store
  | some stored =>
    if stored.state = .completing then
      store.insert requestId { stored with state := .proofReady }
    else store

theorem takeForCompletion_ok {messages : RequestMessages} {call : CompletionCall}
    {signedCount : Nat} {expectedCount : β → StoreResult Nat} {proofsReady : β → StoreResult Unit}
    {store taken : RequestStore β} {body : β}
    (h : takeForCompletion messages call signedCount expectedCount proofsReady store =
      .ok (body,taken)) :
    ∃ stored, store call.requestId = some stored ∧ stored.state = .proofReady ∧
      taken = store.insert call.requestId { stored with state := .completing } := by
  unfold takeForCompletion at h
  obtain ⟨stored,hstored,h⟩ := bind_ok h
  split at h
  · cases h
  · obtain ⟨expected,_,h⟩ := bind_ok h
    split at h
    · cases h
    · split at h
      · cases h
      · cases h
      · cases h
      · obtain ⟨_,_,h⟩ := bind_ok h
        cases h
        exact ⟨stored,okOr_ok hstored,‹_›,rfl⟩

theorem reset_takeForCompletion {messages : RequestMessages} {call : CompletionCall}
    {signedCount : Nat} {expectedCount : β → StoreResult Nat} {proofsReady : β → StoreResult Unit}
    {store taken : RequestStore β} {body : β}
    (h : takeForCompletion messages call signedCount expectedCount proofsReady store =
      .ok (body,taken)) :
    resetAfterFailedCompletion call.requestId taken = store := by
  obtain ⟨stored,hstored,hready,rfl⟩ := takeForCompletion_ok h
  have hsame : { stored with state := .proofReady } = stored := by rw [← hready]
  simp [resetAfterFailedCompletion,RequestStore.insert,hsame,← hstored]

end CoppiceWallet.Keystone
