import CoppiceWallet.Store.Reconcile
import CoppiceWallet.Store.Schedule

/-!
# Broadcasting scheduled transactions

Selecting what is due, recording that the network accepted it, and spreading the transactions that
are overdue. An acceptance may also be reported by the native outbox, in a receipt that carries new
heights for the overdue peers.
-/

namespace CoppiceWallet.Store

open CoppiceWallet.Lib

structure DuePendingMigrationTx where
  txid : TxidHex
  rawTx : Bytes
  deriving DecidableEq

/-- Rows by height and then by transaction id. -/
def rowBefore (a b : PendingTx) : Prop :=
  a.scheduledHeight < b.scheduledHeight ∨
    a.scheduledHeight = b.scheduledHeight ∧ a.txid.text ≤ b.txid.text

instance : DecidableRel rowBefore := fun a b =>
  inferInstanceAs (Decidable (a.scheduledHeight < b.scheduledHeight ∨
    a.scheduledHeight = b.scheduledHeight ∧ a.txid.text ≤ b.txid.text))

def scheduledBy (chainTipHeight : Nat) (row : PendingTx) : Bool :=
  decide (row.status = .scheduled ∧ row.scheduledHeight ≤ chainTipHeight)

def dueExpiryNotCanonical : String :=
  "Due migration transaction expiry is not canonical for scheduled height"

/-- The earliest due transaction that is not mined already, after the rows were reconciled. -/
def selectDuePendingTx (key : PayloadKey) (chain : ChainView) (chainTipHeight : Nat)
    (db : RunState) : StoreResult (List DuePendingMigrationTx) :=
  let due := (db.pending.select (scheduledBy chainTipHeight)).insertionSort rowBefore
  match due.find? fun row => !chain.onChain row.txid with
  | none => .ok []
  | some row => do
    let canonicalExpiry ← zip318CanonicalMigrationExpiryHeight row.scheduledHeight
    if row.expiryHeight ≠ canonicalExpiry then .error dueExpiryNotCanonical
    else do
      let rawTx ← key.decrypt row.encryptedRawTx
      return [⟨row.txid,rawTx⟩]

def duePendingTxs (key : PayloadKey) (chain : ChainView) (chainTipHeight : Nat) (db : RunState) :
    StoreResult (List DuePendingMigrationTx) :=
  selectDuePendingTx key chain chainTipHeight (reconcileRunConfirmations chain db)

def updateRunAfterPendingBroadcast (db : RunState) : RunState :=
  let needsResignRemaining := db.countPendingWithStatus .needsResign
  let scheduledRemaining := db.countPendingWithStatus .scheduled
  let pendingCount := db.pending.length
  let fullyMaterialized := 0 < db.plannedPartCount ∧ pendingCount = db.plannedPartCount ∧
    db.unpromotedSignedChildPcztCount = 0
  if 0 < needsResignRemaining then db.setPhase .readyToMigrate db.run.lastError
  else if 0 < scheduledRemaining ∨ ¬ fullyMaterialized then db.setPhase .broadcastScheduled none
  else db.setPhase .waitingMigrationConfirmations none

def markPendingBroadcasted (txid : TxidHex) (db : RunState) : RunState :=
  updateRunAfterPendingBroadcast (db.setStatus (fun row => decide (row.txid = txid)) .broadcasted)

def scheduleCrossedBoundary : String := "Migration schedule crossed a ZIP 318 expiry boundary"

/-- The overdue rows as they are read before the rescheduling transaction begins. -/
def overduePendingTxs (chainTipHeight : Nat) (excludedTxid : Option TxidHex) (db : RunState) :
    List (TxidHex × Nat) :=
  ((db.pending.select (scheduledBy chainTipHeight)).map fun row =>
    (row.txid, row.expiryHeight)).filter fun row => decide (excludedTxid ≠ some row.1)

def stillScheduled (txid : TxidHex) (row : PendingTx) : Bool :=
  decide (row.txid = txid ∧ row.status = .scheduled)

/-- Give each row its new height, or send it to be signed again when that height lies in another
expiry bucket; the second component says whether any did. -/
def redrawPendingTxs (chainTipHeight minimumDelayBlocks : Nat) :
    List ((TxidHex × Nat) × Nat) → RunState → StoreResult (RunState × Bool)
  | [], db => .ok (db, false)
  | ((txid, expiryHeight), offset) :: rest, db => do
    let scheduledHeight ← okOr (checkedAddU32 chainTipHeight (max offset minimumDelayBlocks))
      "Migration rescheduled height overflow"
    let canonicalExpiry ← zip318CanonicalMigrationExpiryHeight scheduledHeight
    if canonicalExpiry ≠ expiryHeight then do
      let (db, _) ← redrawPendingTxs chainTipHeight minimumDelayBlocks rest
        (db.setStatus (stillScheduled txid) .needsResign)
      return (db, true)
    else
      redrawPendingTxs chainTipHeight minimumDelayBlocks rest
        (db.updatePending (stillScheduled txid)
          (fun row => { row with scheduledHeight, scheduleStartHeight := some chainTipHeight })
          fun _ => rfl)

/-- The overdue rows in the order in which they are redrawn, with their offsets. -/
def redraws (rng : Rng) (network : WalletNetwork) (overdue : List (TxidHex × Nat))
    (db : RunState) : List ((TxidHex × Nat) × Nat) :=
  let txids := rng.shuffle overdue
  let (meanDelayBlocks, maxDelayBlocks) :=
    scheduleParametersWithPolicyForPartCount network db.run.timingPolicy db.plannedPartCount
  txids.zip (randomScheduleBlockOffsets rng txids.length meanDelayBlocks maxDelayBlocks)

/-- The transaction that reschedules the rows read before it. -/
def commitReschedule (rng : Rng) (network : WalletNetwork) (chainTipHeight minimumDelayBlocks : Nat)
    (overdue : List (TxidHex × Nat)) (db : RunState) : StoreResult RunState :=
  if overdue.isEmpty then .ok db
  else do
    let (db, needsResign) ← redrawPendingTxs chainTipHeight minimumDelayBlocks
      (redraws rng network overdue db) db
    return if needsResign then db.setPhase .readyToMigrate (some scheduleCrossedBoundary) else db

def rescheduleOverduePendingTxsWithOptions (rng : Rng) (network : WalletNetwork)
    (chainTipHeight minimumDelayBlocks : Nat) (excludedTxid : Option TxidHex) (db : RunState) :
    StoreResult RunState :=
  commitReschedule rng network chainTipHeight minimumDelayBlocks
    (overduePendingTxs chainTipHeight excludedTxid db) db

def rescheduleOverduePendingTxs (rng : Rng) (network : WalletNetwork) (chainTipHeight : Nat)
    (db : RunState) : StoreResult RunState :=
  rescheduleOverduePendingTxsWithOptions rng network chainTipHeight 0 none db

structure MigrationOutboxScheduleUpdate where
  itemId : Text
  scheduledHeight : Nat
  scheduleStartHeight : Nat
  deriving DecidableEq

structure AcceptedOutboxReceipt where
  accountUuid : Text
  network : WalletNetwork
  txid : Text
  remoteHeight : Nat
  scheduleUpdates : List MigrationOutboxScheduleUpdate
  deriving DecidableEq

def migrationOutboxRunPhase (accountUuid : Text) (network : WalletNetwork) (db : RunState) :
    StoreResult Phase :=
  if db.run.accountUuid = accountUuid ∧ db.run.network = network then .ok db.run.phase
  else .error "Migration outbox receipt does not match this account and run"

/-- `lower(txid_hex) = item`, for an item in lower case. -/
def hasItemId (itemId : Text) (row : PendingTx) : Bool := decide (lower row.txid.text = itemId)

def checkScheduleUpdates (acceptedTxid : Text) (remoteHeight timingMaxBlocks : Nat) :
    List MigrationOutboxScheduleUpdate → List Text → Nat → StoreResult Unit
  | [], _, _ => .ok ()
  | update :: updates, supplied, previousScheduledHeight =>
    let itemId := lower update.itemId
    if itemId = acceptedTxid then
      .error "Accepted migration outbox item cannot reschedule itself"
    else if supplied.contains itemId then
      .error "Migration outbox schedule update is duplicated"
    else if update.scheduleStartHeight ≠ remoteHeight then
      .error "Migration outbox schedule update does not start at the receipt height"
    else do
      let incrementalDelay ← okOr (checkedSub update.scheduledHeight previousScheduledHeight)
        "Migration outbox schedule update moves backward"
      if incrementalDelay = 0 ∨ timingMaxBlocks < incrementalDelay then
        .error "Migration outbox schedule update is outside the timing window"
      else
        checkScheduleUpdates acceptedTxid remoteHeight timingMaxBlocks updates (itemId :: supplied)
          update.scheduledHeight

/-- The updates by item id, in the order of the ids. -/
def suppliedUpdates (updates : List MigrationOutboxScheduleUpdate) :
    List (Text × MigrationOutboxScheduleUpdate) :=
  (updates.map fun update => (lower update.itemId, update)).insertionSort fun a b => a.1 ≤ b.1

/-- The peers that a first acceptance must reschedule. -/
def overdueOutboxPeers (acceptedTxid : Text) (remoteHeight : Nat) (db : RunState) : List Text :=
  (db.pending.select fun row =>
    decide (row.status = .scheduled ∧ row.scheduledHeight ≤ remoteHeight ∧
      remoteHeight < row.expiryHeight) && !hasItemId acceptedTxid row).map
    fun row => lower row.txid.text

def sameIds (a b : List Text) : Bool := a.all b.contains && b.all a.contains

/-- One update of a peer: the new height is taken while the peer is scheduled, unless it lies in
another expiry bucket; later on only the height already taken is accepted. -/
def applyScheduleUpdate (itemId : Text) (update : MigrationOutboxScheduleUpdate) (db : RunState) :
    StoreResult (RunState × Bool) := do
  let row ← okOr (db.pending.find? (hasItemId itemId))
    "Migration outbox schedule item was not found"
  let canonicalExpiry ← zip318CanonicalMigrationExpiryHeight update.scheduledHeight
  if row.status = .scheduled then
    if canonicalExpiry ≠ row.expiryHeight then
      return (db.setStatus (fun r => hasItemId itemId r && decide (r.status = .scheduled))
        .needsResign, true)
    else return (db.updatePending
      (fun r => hasItemId itemId r && decide (r.status = .scheduled))
      (fun r => { r with
        scheduledHeight := update.scheduledHeight
        scheduleStartHeight := some update.scheduleStartHeight }) fun _ => rfl, false)
  else if row.scheduledHeight ≠ update.scheduledHeight ∨
      row.scheduleStartHeight ≠ some update.scheduleStartHeight then
    .error "Migration outbox schedule item is no longer scheduled"
  else return (db, false)

def applyScheduleUpdates :
    List (Text × MigrationOutboxScheduleUpdate) → RunState → StoreResult (RunState × Bool)
  | [], db => .ok (db, false)
  | (itemId, update) :: rest, db => do
    let (db, crossed) ← applyScheduleUpdate itemId update db
    let (db, laterCrossed) ← applyScheduleUpdates rest db
    return (db, crossed || laterCrossed)

/-- Record the acceptance, unless the transaction was recorded as accepted before. -/
def acceptPendingTx (acceptedTxid : Text) (acceptedStatus : PendingStatus) (db : RunState) :
    RunState :=
  if acceptedStatus = .scheduled ∨ acceptedStatus = .needsResign then
    updateRunAfterPendingBroadcast (db.setStatus (fun row => hasItemId acceptedTxid row &&
      decide (row.status = .scheduled ∨ row.status = .needsResign)) .broadcasted)
  else db

def applyAcceptedMigrationOutboxReceipt (receipt : AcceptedOutboxReceipt) (db : RunState) :
    StoreResult RunState := do
  let _ ← migrationOutboxRunPhase receipt.accountUuid receipt.network db
  let acceptedTxid := lower receipt.txid
  let accepted ← okOr (db.pending.find? (hasItemId acceptedTxid))
    "Migration outbox receipt transaction was not found in this run"
  let (_, timingMaxBlocks) := scheduleParametersWithPolicy receipt.network db.run.timingPolicy
  checkScheduleUpdates acceptedTxid receipt.remoteHeight timingMaxBlocks receipt.scheduleUpdates []
    receipt.remoteHeight
  let supplied := suppliedUpdates receipt.scheduleUpdates
  if accepted.status = .scheduled ∧ sameIds (supplied.map Prod.fst)
      (overdueOutboxPeers acceptedTxid receipt.remoteHeight db) = false then
    .error "Migration outbox receipt must reschedule exactly the remaining overdue items"
  else do
    let (db, crossed) ← applyScheduleUpdates supplied db
    let db := if crossed then db.setPhase .readyToMigrate (some scheduleCrossedBoundary) else db
    return acceptPendingTx acceptedTxid accepted.status db

structure MigrationOutboxItem where
  itemId : Text
  partIndex : Nat
  txid : TxidHex
  rawTx : Bytes
  anchorBoundaryHeight : Nat
  scheduledHeight : Nat
  scheduleStartHeight : Nat
  expiryHeight : Nat
  deriving DecidableEq

structure MigrationOutboxBatch where
  timingMeanBlocks : Nat
  timingMaxBlocks : Nat
  nextProofHeight : Option Nat
  items : List MigrationOutboxItem
  deriving DecidableEq

def outboxExpiryNotCanonical : String :=
  "Migration outbox transaction expiry is not canonical for scheduled height"

def migrationOutboxItem (key : PayloadKey) (row : PendingTx) : StoreResult MigrationOutboxItem := do
  let partIndex ← okOr row.partIndex "Migration outbox transaction is missing its part index"
  let anchorBoundaryHeight ← okOr row.anchorBoundaryHeight
    "Migration outbox transaction is missing its anchor boundary"
  let scheduleStartHeight ← okOr row.scheduleStartHeight
    "Migration outbox transaction is missing its schedule origin"
  if row.expiryHeight ≤ row.scheduledHeight then
    .error "Migration outbox transaction is scheduled at or after expiry"
  else do
    let canonicalExpiry ← zip318CanonicalMigrationExpiryHeight row.scheduledHeight
    if row.expiryHeight ≠ canonicalExpiry then .error outboxExpiryNotCanonical
    else do
      let rawTx ← key.decrypt row.encryptedRawTx
      return {
        itemId := lower row.txid.text
        partIndex
        txid := row.txid
        rawTx
        anchorBoundaryHeight
        scheduledHeight := row.scheduledHeight
        scheduleStartHeight
        expiryHeight := row.expiryHeight }

/-- A missing part index sorts first. -/
def partKey (row : PendingTx) : Nat := row.partIndex.elim 0 Nat.succ

/-- Rows by height, part and transaction id. -/
def outboxBefore (a b : PendingTx) : Prop :=
  a.scheduledHeight < b.scheduledHeight ∨ a.scheduledHeight = b.scheduledHeight ∧
    (partKey a < partKey b ∨ partKey a = partKey b ∧ a.txid.text ≤ b.txid.text)

instance : DecidableRel outboxBefore := fun a b =>
  inferInstanceAs (Decidable (a.scheduledHeight < b.scheduledHeight ∨
    a.scheduledHeight = b.scheduledHeight ∧
    (partKey a < partKey b ∨ partKey a = partKey b ∧ a.txid.text ≤ b.txid.text)))

def migrationOutboxItems (key : PayloadKey) (db : RunState) :
    StoreResult (List MigrationOutboxItem) :=
  ((db.pending.select fun row => decide (row.status = .scheduled)).insertionSort
    outboxBefore).mapM (migrationOutboxItem key)

def activeRun (db : RunState) : Bool := !db.isTerminal && decide (db.run.phase ≠ .noOrchardFunds)

/-- The batch for the native outbox, read from the run after its due rows were checked against the
chain tip; `preparedNotesProofReadyHeight` is when the remaining children can be proved. -/
def scheduledMigrationOutboxBatch (key : PayloadKey)
    (preparedNotesProofReadyHeight : StoreResult (Option Nat)) (db : RunState) :
    StoreResult (Option MigrationOutboxBatch) :=
  if !activeRun db then .ok none
  else do
    let (timingMeanBlocks, timingMaxBlocks) := scheduleParametersWithPolicyForPartCount
      db.run.network db.run.timingPolicy db.plannedPartCount
    let nextProofHeight ←
      if db.unpromotedSignedChildPcztCount = 0 then pure none
      else (fun ready => ready.map fun readyHeight =>
        max (db.run.proofRetryHeight.getD readyHeight) readyHeight) <$>
          preparedNotesProofReadyHeight
    let items ← migrationOutboxItems key db
    return if items.isEmpty && nextProofHeight.isNone then none
    else some ⟨timingMeanBlocks,timingMaxBlocks,nextProofHeight,items⟩

end CoppiceWallet.Store
