import CoppiceWallet.Outbox.Snapshot

/-!
# Submitting from the outbox

The runner selects a due item, marks it as submitting and records the outcome. An acceptance moves
the overdue items of its batch; a receipt stays until the app acknowledges it.
-/

namespace CoppiceWallet.Outbox

open CoppiceWallet.Lib CoppiceWallet.Store

/-- The item can be sent now. -/
def Item.due (remoteHeight : Nat) (date : Date) (item : Item) : Bool :=
  decide (item.status = .armed ∧ item.scheduledHeight ≤ remoteHeight ∧
    remoteHeight < item.expiryHeight) &&
  item.nextAttemptAt.all fun next => decide (next ≤ date)

/-- By height and then by transaction id. -/
def Item.before (a b : Item) : Prop :=
  a.scheduledHeight < b.scheduledHeight ∨
    a.scheduledHeight = b.scheduledHeight ∧ a.txidHex ≤ b.txidHex

instance : DecidableRel Item.before := fun a b =>
  inferInstanceAs (Decidable (a.scheduledHeight < b.scheduledHeight ∨
    a.scheduledHeight = b.scheduledHeight ∧ a.txidHex ≤ b.txidHex))

/-- The key after the last one, round the ordered keys. -/
def nextInTurn (keys : List Text) (last : Option Text) : Option Text :=
  match last.bind fun key => keys.idxOf? key with
  | some index => keys[(index + 1) % keys.length]?
  | none => keys[0]?

def orderedKeys (keys : List Text) : List Text := keys.dedup.insertionSort (· ≤ ·)

def Batch.candidate (remoteHeight : Nat) (endpoint : Option Text) (date : Date) (batch : Batch) :
    Bool :=
  endpoint.all (fun endpoint => decide (batch.lightwalletdUrl = endpoint)) &&
    batch.armedAt.isSome && batch.items.any (Item.due remoteHeight date)

def Batch.select (remoteHeight : Nat) (date : Date) (batch : Batch) : Option Selection :=
  ((batch.items.filter (Item.due remoteHeight date)).insertionSort Item.before).head?.map
    fun item => {
      batchId := batch.batchId
      accountUuid := batch.accountUuid
      scopeKey := batch.scopeKey
      lightwalletdUrl := batch.lightwalletdUrl
      item }

/-- Replace the item of the same id. -/
def setItem (item : Item) (batch : Batch) : Batch :=
  { batch with items := replaceFirst (fun x => decide (x.itemId = item.itemId)) item batch.items }

namespace Snapshot

/-- The selected item, with the snapshot that remembers its scope. -/
def selectDue (remoteHeight : Nat) (endpoint : Option Text) (date : Date) (s : Snapshot) :
    Option (Selection × Snapshot) := do
  let candidates := s.batches.filter (Batch.candidate remoteHeight endpoint date)
  let selectedScope ← nextInTurn (orderedKeys (candidates.map Batch.scopeKey))
    s.lastAttemptedScopeKey
  let batch ← candidates.find? fun batch => decide (batch.scopeKey = selectedScope)
  let selection ← batch.select remoteHeight date
  return (selection,{ s with lastAttemptedScopeKey := some selectedScope })

def nextEndpointForInspection (s : Snapshot) : Option Text × Snapshot :=
  let endpoints := orderedKeys ((s.batches.filter fun batch =>
    batch.armedAt.isSome && ((batch.items.any fun item => decide (item.status = .armed)) ||
      (batch.nextProofHeight.isSome && batch.awaitsProofReadyAnnouncement))).map
    Batch.lightwalletdUrl)
  match nextInTurn endpoints s.lastInspectedEndpoint with
  | none => (none,s)
  | some selected => (some selected,{ s with lastInspectedEndpoint := some selected })

def hasItem (itemId : Text) (batch : Batch) : Bool :=
  batch.items.any fun item => decide (item.itemId = itemId)

/-- The batch and the item of an id. -/
def itemLocation (itemId : Text) (s : Snapshot) : OutboxResult (Batch × Item) :=
  match s.batches.find? (hasItem itemId) with
  | none => .error .itemNotFound
  | some batch =>
    match batch.items.find? fun item => decide (item.itemId = itemId) with
    | none => .error .itemNotFound
    | some item => .ok (batch,item)

/-- Replace the batch that holds an item and add receipts. -/
def settle (itemId : Text) (batch : Batch) (receipts : List Receipt) (s : Snapshot) : Snapshot :=
  { s with
    batches := replaceFirst (hasItem itemId) batch s.batches
    receipts := s.receipts ++ receipts }

def beginSubmission (itemId attemptId : Text) (date : Date) (s : Snapshot) :
    OutboxResult Snapshot := do
  let (batch,item) ← s.itemLocation itemId
  if item.status ≠ .armed then .error .invalidTransition
  else return s.settle itemId (setItem { item with
    status := .submitting
    attemptId := some attemptId
    attemptStartedAt := some date } batch) []

/-- Room for one height after another, below the expiries in their order. -/
def roomBefore : Nat → List Nat → OutboxResult Unit
  | _, [] => .ok ()
  | nextHeight, expiryHeight :: rest =>
    let candidate := nextHeight + 1
    if candidate < u64Limit ∧ candidate < expiryHeight then roomBefore candidate rest
    else .error .invalidSchedule

/-- The armed items of the batch that the height has passed, the given one excluded. -/
def overdue (itemId : Text) (remoteHeight : Nat) (items : List Item) : List Item :=
  items.filter fun item => decide (item.itemId ≠ itemId ∧ item.status = .armed ∧
    item.scheduledHeight ≤ remoteHeight)

def validateReschedulingAfterAcceptance (itemId : Text) (remoteHeight : Nat) (s : Snapshot) :
    OutboxResult Unit := do
  let (batch,_) ← s.itemLocation itemId
  roomBefore remoteHeight
    (((overdue itemId remoteHeight batch.items).map Item.expiryHeight).insertionSort (· ≤ ·))

def recordUncertain (itemId error : Text) (date : Date) (s : Snapshot) : OutboxResult Snapshot := do
  let (batch,item) ← s.itemLocation itemId
  if item.status ≠ .submitting then .error .invalidTransition
  else return s.settle itemId (setItem (interrupted error date item) batch) []

/-- Nothing was sent, so this is no attempt. -/
def recordCancelledBeforeSubmission (itemId error : Text) (s : Snapshot) :
    OutboxResult Snapshot := do
  let (batch,item) ← s.itemLocation itemId
  if item.status ≠ .submitting then .error .invalidTransition
  else return s.settle itemId (setItem { item with
    status := .armed
    nextAttemptAt := none
    lastError := some error
    attemptId := none
    attemptStartedAt := none } batch) []

/-- New heights for the overdue items, each below its expiry with room for those after it. -/
def rescheduleFrom (rng : Rng) (mean max remoteHeight : Nat) :
    Nat → Nat → List Item → OutboxResult (List ScheduleUpdate)
  | _, _, [] => .ok []
  | elapsed, draw, item :: rest =>
    let remainingCount := rest.length
    if item.expiryHeight ≤ remainingCount + 1 then .error .invalidSchedule
    else
      let latestHeight := item.expiryHeight - remainingCount - 1
      let currentHeight := saturatingAdd remoteHeight elapsed
      if latestHeight ≤ currentHeight then .error .invalidSchedule
      else do
        let boundedMax := min max (latestHeight - currentHeight)
        let elapsed := saturatingAdd elapsed (sampleDelay rng draw mean boundedMax)
        let updates ← rescheduleFrom rng mean max remoteHeight elapsed (draw + 1) rest
        return ⟨item.itemId,saturatingAdd remoteHeight elapsed,remoteHeight⟩ :: updates

def replacingSchedule (item : Item) (update : ScheduleUpdate) : Item :=
  { item with
    scheduledHeight := update.scheduledHeight
    scheduleStartHeight := update.scheduleStartHeight
    attemptId := none
    attemptStartedAt := none }

def moveItem (updates : List ScheduleUpdate) (item : Item) : Item :=
  match updates.find? fun update => decide (update.itemId = item.itemId) with
  | some update => replacingSchedule item update
  | none => item

/-- The shuffle decides between items of one expiry. -/
def rescheduleOverdueItems (rng : Rng) (itemId : Text) (remoteHeight : Nat) (batch : Batch) :
    OutboxResult (Batch × List ScheduleUpdate) :=
  if ¬ (0 < batch.timingMeanBlocks ∧ 0 < batch.timingMaxBlocks ∧
      batch.timingMeanBlocks ≤ batch.timingMaxBlocks) then .error .invalidSchedule
  else do
    let overdueItems := (rng.shuffle (overdue itemId remoteHeight batch.items)).insertionSort
      fun a b => a.expiryHeight ≤ b.expiryHeight
    let updates ← rescheduleFrom rng batch.timingMeanBlocks batch.timingMaxBlocks remoteHeight 0 0
      overdueItems
    return ({ batch with items := batch.items.map (moveItem updates) },updates)

/-- The item after its submission ended. -/
def concluded (status : ItemStatus) (item : Item) : Item :=
  { item with status, attemptId := none, attemptStartedAt := none, nextAttemptAt := none }

def recordAccepted (rng : Rng) (itemId : Text) (equivalent : Bool) (remoteHeight : Nat)
    (responseCode : Int) (responseMessage : Text) (date : Date) (s : Snapshot) :
    OutboxResult Snapshot := do
  let (batch,item) ← s.itemLocation itemId
  if item.status ≠ .submitting then .error .invalidTransition
  else do
    let (batch,updates) ← rescheduleOverdueItems rng itemId remoteHeight
      (setItem (concluded .acceptedAwaitingReconciliation item) batch)
    return s.settle itemId batch [makeReceipt batch item
      (if equivalent then .acceptedEquivalent else .accepted) remoteHeight (some responseCode)
      (some responseMessage) updates date]

/-- A rejection pauses the whole batch. -/
def recordRejected (itemId : Text) (remoteHeight : Nat) (responseCode : Int)
    (responseMessage : Text) (date : Date) (s : Snapshot) : OutboxResult Snapshot := do
  let (batch,item) ← s.itemLocation itemId
  if item.status ≠ .submitting then .error .invalidTransition
  else
    let paused := { setItem (concluded .rejectedAwaitingReconciliation item) batch with
      armedAt := none
      nextProofHeight := none }
    return s.settle itemId paused [makeReceipt batch item .rejected remoteHeight
      (some responseCode) (some responseMessage) [] date]

end Snapshot

def ReceiptOutcome.terminal (outcome : ReceiptOutcome) : Bool :=
  decide (outcome = .rejected) || decide (outcome = .expired) || decide (outcome = .needsResign)

namespace Snapshot

def acknowledged (receiptIds : List Text) (s : Snapshot) : List Receipt :=
  s.receipts.filter fun receipt => receiptIds.contains receipt.receiptId

/-- The paused batches whose last receipt is acknowledged; they go with all their items. -/
def removableTerminalBatchIds (receiptIds : List Text) (s : Snapshot) : List Text :=
  (((s.acknowledged receiptIds).filter fun receipt => receipt.outcome.terminal).map
    Receipt.batchId).filter fun batchId =>
      !s.receipts.any fun receipt =>
        !receiptIds.contains receipt.receiptId && decide (receipt.batchId = batchId)

def acknowledgeReceipts (receiptIds : List Text) (s : Snapshot) : Snapshot :=
  let acknowledgedItemIds := (s.acknowledged receiptIds).map Receipt.itemId
  let removable := s.removableTerminalBatchIds receiptIds
  { s with
    receipts := s.receipts.filter fun receipt => !receiptIds.contains receipt.receiptId
    batches := (((s.batches.filter fun batch => !removable.contains batch.batchId).map fun batch =>
      { batch with items := batch.items.filter fun item =>
          !acknowledgedItemIds.contains item.itemId }).filter fun batch =>
      !(batch.items.isEmpty && batch.nextProofHeight.isNone &&
        batch.broadcastCompleteNotificationPendingAt.isNone)) }

/-- Refuses while the batch has delivery state, so nothing in flight is dropped. -/
def discardBatch (batchId : Text) (s : Snapshot) : OutboxResult Snapshot :=
  match s.batches.find? (isBatch batchId) with
  | none => .ok s
  | some batch =>
    if (batch.items.any fun item => decide (item.status = .submitting ∨ 0 < item.attemptCount)) ||
        s.receipts.any fun receipt => decide (receipt.batchId = batchId) then
      .error .conflictingBatch
    else .ok { s with batches := s.batches.eraseP (isBatch batchId) }

end Snapshot

def Batch.proofReady (date : Date) (batch : Batch) : Batch :=
  { batch with
    proofReadyNotificationPendingAt := some (batch.proofReadyNotificationPendingAt.getD date) }

def Batch.broadcastCompleted (date : Date) (batch : Batch) : Batch :=
  { batch with
    broadcastCompleteNotificationPendingAt :=
      some (batch.broadcastCompleteNotificationPendingAt.getD date) }

namespace Snapshot

/-- The first batch at an endpoint whose proof height the chain has reached. -/
def proofReadinessCandidate (remoteHeight : Nat) (endpoint : Text) (s : Snapshot) :
    Option Batch :=
  ((s.batches.filter fun batch =>
    decide (batch.lightwalletdUrl = endpoint) && batch.armedAt.isSome &&
      batch.awaitsProofReadyAnnouncement &&
      batch.nextProofHeight.any fun height => decide (height ≤ remoteHeight)).insertionSort
    fun a b => a.nextProofHeight.getD 0 < b.nextProofHeight.getD 0 ∨
      a.nextProofHeight.getD 0 = b.nextProofHeight.getD 0 ∧ a.batchId ≤ b.batchId).head?

def markProofReadyIfNeeded (remoteHeight : Nat) (endpoint : Text) (date : Date) (s : Snapshot) :
    Snapshot :=
  match s.proofReadinessCandidate remoteHeight endpoint with
  | none => s
  | some candidate =>
    { s with batches := s.batches.map fun batch =>
        if isBatch candidate.batchId batch then batch.proofReady date else batch }

/-- Everything of the batch was sent, and nobody was told yet. -/
def broadcastComplete (batchId : Text) (s : Snapshot) (batch : Batch) : Bool :=
  isBatch batchId batch && batch.nextProofHeight.isNone &&
    batch.broadcastCompleteNotifiedAt.isNone &&
    !s.announcedBroadcastCompleteBatchIds.contains batchId && !batch.items.isEmpty &&
    batch.items.all fun item => decide (item.status = .acceptedAwaitingReconciliation)

def markBroadcastCompleteIfNeeded (batchId : Text) (date : Date) (s : Snapshot) : Snapshot :=
  { s with batches := s.batches.map fun batch =>
      if s.broadcastComplete batchId batch then batch.broadcastCompleted date else batch }

end Snapshot

def Item.attempted (item : Item) : Bool :=
  decide (0 < item.attemptCount) || decide (item.status = .submitting) ||
    decide (item.status = .acceptedAwaitingReconciliation) ||
    decide (item.status = .rejectedAwaitingReconciliation)

def Snapshot.listAttemptedTxids (network accountUuid runId : Text) (s : Snapshot) : List Text :=
  (((s.batches.filter fun batch => decide (batch.network = network ∧
    batch.accountUuid = accountUuid ∧ batch.runId = runId)).flatMap Batch.items).filter
      Item.attempted).map Item.txidHex

/-- The transaction that `listReceipts` hands over with a receipt. -/
def Snapshot.receiptTransaction (receipt : Receipt) (s : Snapshot) : Option Bytes := do
  let batch ← s.batches.find? (isBatch receipt.batchId)
  let item ← batch.items.find? fun item => decide (item.itemId = receipt.itemId)
  return item.rawTransaction

end CoppiceWallet.Outbox
