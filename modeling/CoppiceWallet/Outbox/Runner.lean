import CoppiceWallet.Outbox.DeliveryRuns

/-!
# The runner and the app

One runner at a time sends at most one item and records what came of it, in updates between which
the app may stage, arm, recover, discard and acknowledge. An update that fails writes nothing.
-/

namespace CoppiceWallet.Outbox

open CoppiceWallet.Lib CoppiceWallet.Store

/-- Where the runner is between two updates of the outbox. -/
inductive RunnerState
  | idle
  | inspecting (endpoint : Text)
  | selected (selection : Selection) (remoteHeight : Nat)
  | sent (selection : Selection) (remoteHeight : Nat)

/-- A transaction of a batch that the transport was given. -/
structure HandedOver where
  batchId : Text
  item : Item

/-- The outbox and its runner, with the transactions that were handed over, are not known to be
rejected and have no acknowledged receipt. -/
structure OutboxSystem where
  snapshot : Snapshot
  runner : RunnerState
  handedOver : List HandedOver

inductive SystemStep
  | stage (batch : Batch)
  | armBatch (batchId : Text) (expectedDigests : List (Text × Text)) (date : Date)
  | recoverBatch (batchId network accountUuid runId : Text) (expectedTxids : List Text)
      (lightwalletdUrl : Text) (date : Date)
  | discardBatch (batchId : Text)
  | acknowledgeReceipts (receiptIds : List Text)
  | inspect (now : Date)
  | select (remoteHeight : Nat) (attemptId : Text) (now : Date)
      (requiresPreparationProofVerification : Bool)
  | cancel (error : Text)
  | send
  | uncertain (error : Text) (now : Date)
  | accepted (rng : Rng) (equivalent : Bool) (responseCode : Int) (responseMessage : Text)
      (now : Date)
  | rejected (responseCode : Int) (responseMessage : Text) (now : Date)
  | stop

/-- The first update of `runOnce`. -/
def inspectUpdate (now : Date) (s : Snapshot) : Option Text × Snapshot :=
  (s.recoverInterruptedSubmissions now).nextEndpointForInspection

/-- The outbox before the runner selects: what expired or crossed a boundary is withdrawn. -/
def withdrawUpdate (endpoint : Text) (remoteHeight : Nat) (now : Date)
    (requiresPreparationProofVerification : Bool) (s : Snapshot) : Snapshot :=
  let s := (s.expireItems remoteHeight endpoint now).markDueItemsNeedingResign remoteHeight endpoint
    now
  if requiresPreparationProofVerification then s
  else s.markProofReadyIfNeeded remoteHeight endpoint now

/-- The second update of `runOnce`. -/
def selectUpdate (endpoint : Text) (remoteHeight : Nat) (attemptId : Text) (now : Date)
    (requiresPreparationProofVerification : Bool) (s : Snapshot) :
    OutboxResult (Option Selection × Snapshot) :=
  let s := withdrawUpdate endpoint remoteHeight now requiresPreparationProofVerification s
  match s.selectDue remoteHeight (some endpoint) now with
  | none => .ok (none,s)
  | some (selection,s) => do
    s.validateReschedulingAfterAcceptance selection.item.itemId remoteHeight
    let s ← s.beginSubmission selection.item.itemId attemptId now
    return (some selection,s)

/-- The update after an acceptance. -/
def acceptedUpdate (rng : Rng) (selection : Selection) (remoteHeight : Nat) (equivalent : Bool)
    (responseCode : Int) (responseMessage : Text) (now : Date) (s : Snapshot) :
    OutboxResult Snapshot := do
  let s ← s.recordAccepted rng selection.item.itemId equivalent remoteHeight responseCode
    responseMessage now
  return s.markBroadcastCompleteIfNeeded selection.batchId now

namespace OutboxSystem

/-- An update by the app. -/
def update (f : Snapshot → OutboxResult Snapshot) (sys : OutboxSystem) :
    OutboxResult OutboxSystem := do
  let snapshot ← f sys.snapshot
  return { sys with snapshot }

/-- The last update of the runner; when it fails the outbox stays as it was. -/
def finish (result : OutboxResult Snapshot) (sys : OutboxSystem) : OutboxSystem :=
  match result with
  | .ok snapshot => { sys with snapshot, runner := .idle }
  | .error _ => { sys with runner := .idle }

/-- A rejection that was recorded settles the item. -/
def finishRejected (itemId : Text) (result : OutboxResult Snapshot) (sys : OutboxSystem) :
    OutboxSystem :=
  match result with
  | .ok snapshot =>
    { snapshot
      runner := .idle
      handedOver := sys.handedOver.filter fun h => decide (h.item.itemId ≠ itemId) }
  | .error _ => { sys with runner := .idle }

def perform (digestHex : Bytes → Text) : SystemStep → OutboxSystem → OutboxResult OutboxSystem
  | .stage batch, sys => sys.update (Snapshot.stage digestHex batch)
  | .armBatch batchId expectedDigests date, sys =>
    sys.update (Snapshot.armBatch batchId expectedDigests date)
  | .recoverBatch batchId network accountUuid runId expectedTxids lightwalletdUrl date, sys =>
    sys.update
      (Snapshot.recoverBatch batchId network accountUuid runId expectedTxids lightwalletdUrl date)
  | .discardBatch batchId, sys => sys.update (Snapshot.discardBatch batchId)
  | .acknowledgeReceipts receiptIds, sys =>
    let acknowledgedItemIds := (sys.snapshot.acknowledged receiptIds).map Receipt.itemId
    .ok { sys with
      snapshot := sys.snapshot.acknowledgeReceipts receiptIds
      handedOver := sys.handedOver.filter fun h => !acknowledgedItemIds.contains h.item.itemId }
  | .inspect now, sys =>
    match sys.runner with
    | .idle =>
      let (endpoint,snapshot) := inspectUpdate now sys.snapshot
      .ok { sys with snapshot, runner := endpoint.elim .idle .inspecting }
    | _ => .error .invalidTransition
  | .select remoteHeight attemptId now requiresPreparationProofVerification, sys =>
    match sys.runner with
    | .inspecting endpoint =>
      match selectUpdate endpoint remoteHeight attemptId now requiresPreparationProofVerification
          sys.snapshot with
      | .ok (some selection,snapshot) =>
        .ok { sys with snapshot, runner := .selected selection remoteHeight }
      | .ok (none,snapshot) => .ok { sys with snapshot, runner := .idle }
      | .error _ => .ok { sys with runner := .idle }
    | _ => .error .invalidTransition
  | .cancel error, sys =>
    match sys.runner with
    | .selected selection _ => .ok (sys.finish
        (sys.snapshot.recordCancelledBeforeSubmission selection.item.itemId error))
    | _ => .error .invalidTransition
  | .send, sys =>
    match sys.runner with
    | .selected selection remoteHeight => .ok { sys with
        runner := .sent selection remoteHeight
        handedOver := ⟨selection.batchId,selection.item⟩ :: sys.handedOver }
    | _ => .error .invalidTransition
  | .uncertain error now, sys =>
    match sys.runner with
    | .sent selection _ =>
      .ok (sys.finish (sys.snapshot.recordUncertain selection.item.itemId error now))
    | _ => .error .invalidTransition
  | .accepted rng equivalent responseCode responseMessage now, sys =>
    match sys.runner with
    | .sent selection remoteHeight => .ok (sys.finish (acceptedUpdate rng selection remoteHeight
        equivalent responseCode responseMessage now sys.snapshot))
    | _ => .error .invalidTransition
  | .rejected responseCode responseMessage now, sys =>
    match sys.runner with
    | .sent selection remoteHeight => .ok (sys.finishRejected selection.item.itemId
        (sys.snapshot.recordRejected selection.item.itemId remoteHeight responseCode
          responseMessage now))
    | _ => .error .invalidTransition
  | .stop, sys => .ok { sys with runner := .idle }

def empty : OutboxSystem := ⟨Snapshot.empty,.idle,[]⟩

end OutboxSystem

/-- The item of a transaction that was handed over, with what is known of it. -/
def HandedOver.Has (h : HandedOver) (P : Item → Prop) (s : Snapshot) : Prop :=
  ∃ b ∈ s.batches, b.batchId = h.batchId ∧ ∃ x ∈ b.items, x.itemId = h.item.itemId ∧
    x.txidHex = h.item.txidHex ∧ x.rawTransaction = h.item.rawTransaction ∧ P x

/-- The item is in the outbox, and its transaction is listed as attempted. -/
def HandedOver.Reported (h : HandedOver) (s : Snapshot) : Prop :=
  ∃ b ∈ s.batches, b.batchId = h.batchId ∧ ∃ x ∈ b.items, x.itemId = h.item.itemId ∧
    x.rawTransaction = h.item.rawTransaction ∧
    h.item.txidHex ∈ s.listAttemptedTxids b.network b.accountUuid b.runId

/-- Nothing that was handed over is forgotten, and its acceptance finds its item. -/
structure Remembers (sys : OutboxSystem) : Prop where
  reported : ∀ h ∈ sys.handedOver, h.Reported sys.snapshot
  found : ∀ selection remoteHeight, sys.runner = .sent selection remoteHeight →
    ∀ rng equivalent responseCode responseMessage now,
      acceptedUpdate rng selection remoteHeight equivalent responseCode responseMessage now
        sys.snapshot ≠ .error .itemNotFound

/-- An acknowledgement removes no batch with an attempted item that it does not acknowledge, and an
item id stands in one batch only. -/
def KeepsAttempts (step : SystemStep) (sys : OutboxSystem) : Prop :=
  match step with
  | .stage batch => ItemsApart batch sys.snapshot
  | .acknowledgeReceipts receiptIds =>
    ∀ b ∈ sys.snapshot.batches,
      b.batchId ∈ sys.snapshot.removableTerminalBatchIds receiptIds → ∀ x ∈ b.items,
        x.attempted = true → x.itemId ∈ (sys.snapshot.acknowledged receiptIds).map Receipt.itemId
  | _ => True

instance (step : SystemStep) (sys : OutboxSystem) : Decidable (KeepsAttempts step sys) :=
  match step with
  | .stage batch => inferInstanceAs (Decidable (ItemsApart batch sys.snapshot))
  | .acknowledgeReceipts receiptIds => inferInstanceAs (Decidable (∀ b ∈ sys.snapshot.batches,
      b.batchId ∈ sys.snapshot.removableTerminalBatchIds receiptIds → ∀ x ∈ b.items,
        x.attempted = true → x.itemId ∈ (sys.snapshot.acknowledged receiptIds).map Receipt.itemId))
  | .armBatch .. | .recoverBatch .. | .discardBatch _ | .inspect _ | .select .. | .cancel _ | .send
  | .uncertain .. | .accepted .. | .rejected .. | .stop => .isTrue trivial

end CoppiceWallet.Outbox
