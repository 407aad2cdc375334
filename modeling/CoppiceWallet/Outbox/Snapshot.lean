import CoppiceWallet.Store.Schedule

/-!
# The native outbox

The app stages and arms batches of transactions that the background runner may send; the runner
leaves a receipt for each outcome that the app has to reconcile.
-/

namespace CoppiceWallet.Outbox

open CoppiceWallet.Lib CoppiceWallet.Store

inductive OutboxError
  | invalidBatch
  | conflictingBatch
  | batchNotFound
  | itemNotFound
  | invalidArmRequest
  | invalidTransition
  | invalidSchedule
  deriving DecidableEq

abbrev OutboxResult := Except OutboxError

inductive ItemStatus
  | staged
  | armed
  | submitting
  | acceptedAwaitingReconciliation
  | rejectedAwaitingReconciliation
  | expiredAwaitingReconciliation
  | needsResignAwaitingReconciliation
  deriving DecidableEq

inductive ReceiptOutcome
  | accepted
  | acceptedEquivalent
  | rejected
  | expired
  | needsResign
  deriving DecidableEq

def ReceiptOutcome.rawValue : ReceiptOutcome → Text
  | .accepted => "accepted".toList
  | .acceptedEquivalent => "acceptedEquivalent".toList
  | .rejected => "rejected".toList
  | .expired => "expired".toList
  | .needsResign => "needsResign".toList

/-- Seconds. -/
abbrev Date := Nat

structure Item where
  itemId : Text
  partIndex : Nat
  txidHex : Text
  rawTransaction : Bytes
  payloadDigestHex : Text
  anchorBoundaryHeight : Nat
  scheduledHeight : Nat
  scheduleStartHeight : Nat
  expiryHeight : Nat
  status : ItemStatus
  attemptCount : Nat
  attemptId : Option Text
  attemptStartedAt : Option Date
  nextAttemptAt : Option Date
  lastError : Option Text
  deriving DecidableEq

structure Batch where
  batchId : Text
  network : Text
  accountUuid : Text
  runId : Text
  lightwalletdUrl : Text
  timingMeanBlocks : Nat
  timingMaxBlocks : Nat
  createdAt : Date
  armedAt : Option Date
  nextProofHeight : Option Nat
  proofReadyNotificationPendingAt : Option Date
  proofReadyNotifiedAt : Option Date
  proofReadyHeightNoticePendingAt : Option Date
  proofReadyHeightNoticedAt : Option Date
  broadcastCompleteNotificationPendingAt : Option Date
  broadcastCompleteNotifiedAt : Option Date
  items : List Item
  deriving DecidableEq

def scopeKeyOf (network accountUuid : Text) : Text := network ++ ':' :: accountUuid

def Batch.scopeKey (batch : Batch) : Text := scopeKeyOf batch.network batch.accountUuid

/-- The batch still owes the user a proof-ready announcement. -/
def Batch.awaitsProofReadyAnnouncement (batch : Batch) : Bool :=
  batch.proofReadyNotifiedAt.isNone &&
    (batch.proofReadyNotificationPendingAt.isSome || batch.proofReadyHeightNoticedAt.isNone ||
      batch.proofReadyHeightNoticePendingAt.isSome)

structure ScheduleUpdate where
  itemId : Text
  scheduledHeight : Nat
  scheduleStartHeight : Nat
  deriving DecidableEq

structure Receipt where
  receiptId : Text
  batchId : Text
  itemId : Text
  network : Text
  accountUuid : Text
  runId : Text
  txidHex : Text
  outcome : ReceiptOutcome
  remoteHeight : Nat
  responseCode : Option Int
  responseMessage : Option Text
  recordedAt : Date
  scheduleUpdates : List ScheduleUpdate
  deriving DecidableEq

structure Selection where
  batchId : Text
  accountUuid : Text
  scopeKey : Text
  lightwalletdUrl : Text
  item : Item
  deriving DecidableEq

structure Snapshot where
  batches : List Batch
  receipts : List Receipt
  lastAttemptedScopeKey : Option Text
  lastInspectedEndpoint : Option Text
  announcedBroadcastCompleteBatchIds : List Text
  deriving DecidableEq

def Snapshot.empty : Snapshot := ⟨[],[],none,none,[]⟩

def u64Limit : Nat := 2 ^ 64

def saturatingAdd (a b : Nat) : Nat := min (a + b) (u64Limit - 1)

/-- Seconds until the next attempt. -/
def retryDelay (attemptCount : Nat) : Nat :=
  match attemptCount with
  | 0 | 1 => 60
  | 2 => 5 * 60
  | 3 => 15 * 60
  | _ => 60 * 60

/-- A truncated exponential delay; the rounded sample comes from the generator. -/
def sampleDelay (rng : Rng) (draw meanBlocks maxBlocks : Nat) : Nat :=
  min (max 1 (rng.delay draw meanBlocks maxBlocks)) maxBlocks

/-- The expiry that a transaction sent at a height must have been signed with. -/
def canonicalExpiryHeight (height : Nat) : Option Nat :=
  let expiryHeight := (height - height % zip318ExpiryModulus) + zip318ExpiryModulus * 2
  if expiryHeight < u64Limit then some expiryHeight else none

/-- A batch as `stage` accepts it; `digestHex` is the digest of a payload. -/
def Batch.stageable (digestHex : Bytes → Text) (batch : Batch) : Bool :=
  !batch.batchId.isEmpty && !batch.network.isEmpty && !batch.accountUuid.isEmpty &&
    !batch.runId.isEmpty && !batch.lightwalletdUrl.isEmpty &&
    decide (0 < batch.timingMeanBlocks) && decide (0 < batch.timingMaxBlocks) &&
    decide (batch.timingMeanBlocks ≤ batch.timingMaxBlocks) &&
    (!batch.items.isEmpty || batch.nextProofHeight.isSome) &&
    batch.proofReadyNotificationPendingAt.isNone && batch.proofReadyNotifiedAt.isNone &&
    batch.proofReadyHeightNoticePendingAt.isNone && batch.proofReadyHeightNoticedAt.isNone &&
    batch.broadcastCompleteNotificationPendingAt.isNone &&
    batch.broadcastCompleteNotifiedAt.isNone &&
    decide (batch.items.map Item.itemId).Nodup && decide (batch.items.map Item.txidHex).Nodup &&
    batch.items.all fun item =>
      !item.itemId.isEmpty && !item.txidHex.isEmpty && !item.rawTransaction.isEmpty &&
        decide (item.payloadDigestHex = digestHex item.rawTransaction) &&
        decide (item.scheduledHeight < item.expiryHeight) && decide (item.status = .staged)

/-- What a restaged item adds to the items of its batch. -/
def restageItem (existing : List Item) (incoming : Item) : OutboxResult (List Item) :=
  match existing.find? fun item => decide (item.itemId = incoming.itemId) with
  | some item =>
    if item.partIndex = incoming.partIndex ∧ item.txidHex = incoming.txidHex ∧
        item.payloadDigestHex = incoming.payloadDigestHex ∧
        item.anchorBoundaryHeight = incoming.anchorBoundaryHeight ∧
        item.expiryHeight = incoming.expiryHeight then .ok []
    else .error .conflictingBatch
  | none =>
    if existing.any fun item =>
        decide (item.txidHex = incoming.txidHex ∨ item.partIndex = incoming.partIndex) then
      .error .conflictingBatch
    else .ok [incoming]

def Batch.hasSubmitting (batch : Batch) : Bool :=
  batch.items.any fun item => decide (item.status = .submitting)

/-- The endpoint and the timing are policy and may change; delivery evidence stays. -/
def Batch.restage (existing batch : Batch) : OutboxResult Batch :=
  if ¬ (existing.network = batch.network ∧ existing.accountUuid = batch.accountUuid ∧
      existing.runId = batch.runId) then .error .conflictingBatch
  else if existing.lightwalletdUrl ≠ batch.lightwalletdUrl ∧ existing.hasSubmitting then
    .error .conflictingBatch
  else if (existing.timingMeanBlocks ≠ batch.timingMeanBlocks ∨
      existing.timingMaxBlocks ≠ batch.timingMaxBlocks) ∧ existing.hasSubmitting then
    .error .conflictingBatch
  else do
    let added ← batch.items.mapM (restageItem existing.items)
    let proofMoved := decide (existing.nextProofHeight ≠ batch.nextProofHeight)
    let grown := !added.flatten.isEmpty || proofMoved
    return { existing with
      lightwalletdUrl := batch.lightwalletdUrl
      timingMeanBlocks := batch.timingMeanBlocks
      timingMaxBlocks := batch.timingMaxBlocks
      nextProofHeight := batch.nextProofHeight
      proofReadyNotificationPendingAt :=
        if proofMoved then none else existing.proofReadyNotificationPendingAt
      proofReadyNotifiedAt := if proofMoved then none else existing.proofReadyNotifiedAt
      proofReadyHeightNoticePendingAt :=
        if proofMoved then none else existing.proofReadyHeightNoticePendingAt
      proofReadyHeightNoticedAt := if proofMoved then none else existing.proofReadyHeightNoticedAt
      broadcastCompleteNotificationPendingAt :=
        if grown then none else existing.broadcastCompleteNotificationPendingAt
      broadcastCompleteNotifiedAt := if grown then none else existing.broadcastCompleteNotifiedAt
      items := existing.items ++ added.flatten }

def isBatch (batchId : Text) (batch : Batch) : Bool := decide (batch.batchId = batchId)

/-- Replace the batch of an id by what `f` makes of it. -/
def Snapshot.onBatch (batchId : Text) (f : Batch → OutboxResult Batch) (s : Snapshot) :
    OutboxResult Snapshot :=
  match s.batches.find? (isBatch batchId) with
  | none => .error .batchNotFound
  | some batch => do
    let batch ← f batch
    return { s with batches := replaceFirst (isBatch batchId) batch s.batches }

namespace Snapshot

def stage (digestHex : Bytes → Text) (batch : Batch) (s : Snapshot) : OutboxResult Snapshot :=
  if !batch.stageable digestHex then .error .invalidBatch
  else if s.batches.any (isBatch batch.batchId) then
    s.onBatch batch.batchId fun existing => existing.restage batch
  else .ok { s with batches := s.batches ++ [batch] }

def armItem (expectedDigests : List (Text × Text)) (item : Item) : Item :=
  if (expectedDigests.lookup item.itemId).isSome && decide (item.status = .staged) then
    { item with status := .armed }
  else item

def armBatch (batchId : Text) (expectedDigests : List (Text × Text)) (date : Date) (s : Snapshot) :
    OutboxResult Snapshot :=
  s.onBatch batchId fun batch =>
    if (expectedDigests.isEmpty && batch.nextProofHeight.isNone) || !expectedDigests.all fun entry =>
        batch.items.any fun item =>
          decide (item.itemId = entry.1 ∧ item.payloadDigestHex = entry.2) then
      .error .invalidArmRequest
    else .ok { batch with
      armedAt := some (batch.armedAt.getD date)
      items := batch.items.map (armItem expectedDigests) }

def unknownOutcome : Text := "The previous submission outcome is unknown.".toList

/-- A submission whose outcome is not known counts as an attempt. -/
def interrupted (error : Text) (date : Date) (item : Item) : Item :=
  { item with
    status := .armed
    attemptCount := item.attemptCount + 1
    nextAttemptAt := some (date + retryDelay (item.attemptCount + 1))
    lastError := some error
    attemptId := none
    attemptStartedAt := none }

def recoverItem (date : Date) (item : Item) : Item :=
  if item.status = .submitting then interrupted unknownOutcome date item
  else if item.status = .staged then { item with status := .armed }
  else item

def recoverBatch (batchId network accountUuid runId : Text) (expectedTxids : List Text)
    (lightwalletdUrl : Text) (date : Date) (s : Snapshot) : OutboxResult Snapshot :=
  if expectedTxids.isEmpty || lightwalletdUrl.isEmpty then .error .invalidArmRequest
  else if !s.batches.any (isBatch batchId) then .ok s
  else s.onBatch batchId fun batch =>
    if batch.network = network ∧ batch.accountUuid = accountUuid ∧ batch.runId = runId ∧
        batch.items ≠ [] ∧ ∀ item ∈ batch.items, item.txidHex ∈ expectedTxids.map lower then
      let items := batch.items.map (recoverItem date)
      .ok { batch with
        items
        lightwalletdUrl
        armedAt := if items.any fun item => decide (item.status = .armed) then
          some (batch.armedAt.getD date) else batch.armedAt }
    else .error .conflictingBatch

def recoverInterruptedItem (date : Date) (item : Item) : Item :=
  if item.status = .submitting then interrupted unknownOutcome date item else item

def recoverInterruptedSubmissions (date : Date) (s : Snapshot) : Snapshot :=
  { s with batches := s.batches.map fun batch =>
      { batch with items := batch.items.map (recoverInterruptedItem date) } }

end Snapshot

def makeReceipt (batch : Batch) (item : Item) (outcome : ReceiptOutcome) (remoteHeight : Nat)
    (responseCode : Option Int) (responseMessage : Option Text)
    (scheduleUpdates : List ScheduleUpdate) (date : Date) : Receipt where
  receiptId := batch.batchId ++ ':' :: item.itemId ++ ':' :: outcome.rawValue
  batchId := batch.batchId
  itemId := item.itemId
  network := batch.network
  accountUuid := batch.accountUuid
  runId := batch.runId
  txidHex := item.txidHex
  outcome := outcome
  remoteHeight := remoteHeight
  responseCode := responseCode
  responseMessage := responseMessage
  recordedAt := date
  scheduleUpdates := scheduleUpdates

/-- The armed items of a batch that a height takes out of the schedule leave a receipt each, and the
batch is paused. -/
def Batch.withdraw (retires : Item → Bool) (status : ItemStatus) (batch : Batch) : Batch :=
  let items := batch.items.map fun item => if retires item then { item with status } else item
  if batch.items.any retires then { batch with items, armedAt := none, nextProofHeight := none }
  else { batch with items }

def Snapshot.withdraw (endpoint : Text) (retires : Item → Bool) (status : ItemStatus)
    (receipt : Batch → Item → Receipt) (s : Snapshot) : Snapshot :=
  { s with
    batches := s.batches.map fun batch =>
      if batch.lightwalletdUrl = endpoint then batch.withdraw retires status else batch
    receipts := s.receipts ++ (s.batches.filter fun batch =>
      decide (batch.lightwalletdUrl = endpoint)).flatMap fun batch =>
        (batch.items.filter retires).map (receipt batch) }

namespace Snapshot

def expireItems (remoteHeight : Nat) (endpoint : Text) (date : Date) (s : Snapshot) : Snapshot :=
  s.withdraw endpoint (fun item => decide (item.status = .armed ∧ item.expiryHeight ≤ remoteHeight))
    .expiredAwaitingReconciliation
    fun batch item => makeReceipt batch item .expired remoteHeight none none [] date

def crossedExpiryBoundary : Text :=
  "Broadcast height crossed a ZIP 318 expiry boundary.".toList

def markDueItemsNeedingResign (remoteHeight : Nat) (endpoint : Text) (date : Date) (s : Snapshot) :
    Snapshot :=
  match canonicalExpiryHeight remoteHeight with
  | none => s
  | some expiryHeight =>
    s.withdraw endpoint
      (fun item => decide (item.status = .armed ∧ item.scheduledHeight ≤ remoteHeight ∧
        item.expiryHeight ≠ expiryHeight))
      .needsResignAwaitingReconciliation
      fun batch item =>
        makeReceipt batch item .needsResign remoteHeight none (some crossedExpiryBoundary) [] date

end Snapshot

end CoppiceWallet.Outbox
