import CoppiceWallet.Store.Broadcast
import CoppiceWallet.Store.Promotion

/-!
# Recovering and stopping a run

Parts whose expiry no longer fits are spread over one recovery ladder for the run, and come back as
replacements at their height on it. A run also ends here, abandoned by the user or retired for a
rebuild.
-/

namespace CoppiceWallet.Store

open CoppiceWallet.Lib

/-- A broadcasted row is only expired once its transaction is stored: one that is not must stay
broadcasted for the storage to be tried again. -/
def pendingRowIsExpiredForResign (chain : ChainView) (chainTipHeight : Nat) (row : PendingTx) :
    Bool :=
  if row.expiryHeight = 0 ∨ chainTipHeight < row.expiryHeight then false
  else match row.status with
    | .scheduled => true
    | .broadcasted => chain.localTransactionRaw row.txid
    | _ => false

def expiredPartsMustBeResigned : String :=
  "Expired migration parts must be re-signed with fresh anchors and expiry heights."

def markExpiredPendingPartsForResign (chain : ChainView) (chainTipHeight : Nat) (db : RunState) :
    RunState :=
  let db := reconcileRunConfirmations chain db
  let expired := pendingRowIsExpiredForResign chain chainTipHeight
  if 0 < db.pending.count expired then
    (db.setStatus expired .needsResign).setPhase .readyToMigrate (some expiredPartsMustBeResigned)
  else db

def broadcastHeightCrossedBoundary : String :=
  "Migration broadcast height crossed a ZIP 318 expiry boundary"

/-- The due rows that would be broadcast in another expiry bucket than they were signed for. -/
def dueWithOtherExpiry (chainTipHeight canonicalExpiry : Nat) (row : PendingTx) : Bool :=
  scheduledBy chainTipHeight row && decide (row.expiryHeight ≠ canonicalExpiry)

def markDuePartsWithNoncanonicalBroadcastHeightForResign (chain : ChainView) (chainTipHeight : Nat)
    (db : RunState) : StoreResult RunState := do
  let canonicalExpiry ← zip318CanonicalMigrationExpiryHeight chainTipHeight
  let db := reconcileRunConfirmations chain db
  let affected := dueWithOtherExpiry chainTipHeight canonicalExpiry
  return if 0 < db.pending.count affected then
    (db.setStatus affected .needsResign).setPhase .readyToMigrate
      (some broadcastHeightCrossedBoundary)
  else db

/-- The outbox is exported from the run after its due parts were checked, when the tip is known. -/
def exportScheduledMigrationOutbox (key : PayloadKey) (chain : ChainView)
    (chainTipHeight : Option Nat) (preparedNotesProofReadyHeight : StoreResult (Option Nat))
    (db : RunState) : StoreResult (RunState × Option MigrationOutboxBatch) := do
  let db ← match chainTipHeight with
    | some chainTipHeight =>
      if activeRun db then
        markDuePartsWithNoncanonicalBroadcastHeightForResign chain chainTipHeight db
      else .ok db
    | none => .ok db
  let batch ← scheduledMigrationOutboxBatch key preparedNotesProofReadyHeight db
  return (db, batch)

structure RebuildScheduleGeneration where
  originHeight : Nat
  offsetsByTxid : List (Text × Nat)

def recoveryMetadataIncomplete : String := "Migration recovery schedule metadata is incomplete"

def recoveryMaximumBelowOffset : String :=
  "Migration recovery schedule maximum is below a persisted part offset"

def needsResignRows (db : RunState) : List PendingTx :=
  (db.pending.select fun row => decide (row.status = .needsResign)).insertionSort rowBefore

/-- A part is drawn when it has no offset, or one that the chain has passed. -/
def toAssign (elapsedCursor : Nat) (row : PendingTx) : Bool :=
  match row.rebuildBlockOffset with
  | some offset => decide (offset < elapsedCursor)
  | none => true

def observedMaxOffset (rows : List PendingTx) : Nat :=
  (rows.filterMap PendingTx.rebuildBlockOffset).foldl max 0

/-- Where fresh offsets start: above everything handed out before, and not behind the chain. -/
def recoveryBaseOffset (run : Run) (rows : List PendingTx) (elapsedCursor : Nat) :
    StoreResult Nat :=
  if run.recoveryScheduleOriginHeight.isNone && (run.recoveryScheduleMaxBlockOffset.isSome ||
      rows.any fun row => row.rebuildBlockOffset.isSome) then
    .error recoveryMetadataIncomplete
  else match run.recoveryScheduleMaxBlockOffset with
    | some maxOffset =>
      if observedMaxOffset rows ≤ maxOffset then .ok (max maxOffset elapsedCursor)
      else .error recoveryMaximumBelowOffset
    | none => .ok (max (observedMaxOffset rows) elapsedCursor)

def assignRebuildOffset (row : PendingTx) (assigned : Nat) (db : RunState) : RunState :=
  db.updatePending
    (fun r => decide (r.txid = row.txid ∧ r.status = .needsResign ∧
      r.rebuildBlockOffset = row.rebuildBlockOffset))
    (fun r => { r with rebuildBlockOffset := some assigned }) fun _ => rfl

def assignRebuildOffsets (baseOffset : Nat) :
    List (PendingTx × Nat) → RunState → StoreResult (RunState × List (Text × Nat))
  | [], db => .ok (db, [])
  | (row, freshOffset) :: rest, db => do
    let assigned ← okOr (checkedAddU32 baseOffset freshOffset)
      "Migration rebuild schedule offset overflow"
    let (db, offsets) ← assignRebuildOffsets baseOffset rest (assignRebuildOffset row assigned db)
    return (db, (lower row.txid.text, assigned) :: offsets)

/-- The offsets of the parts that keep theirs. -/
def keptOffsets (elapsedCursor : Nat) (rows : List PendingTx) : List (Text × Nat) :=
  (rows.filter fun row => !toAssign elapsedCursor row).filterMap fun row =>
    row.rebuildBlockOffset.map fun offset => (lower row.txid.text, offset)

def freshRebuildOffsets (rng : Rng) (network : WalletNetwork) (run : Run)
    (assigning : List (PendingTx × Nat)) : StoreResult (List Nat) :=
  if assigning.isEmpty then .ok []
  else rebuildScheduleBlockOffsets rng run.schedule run.targetValues
    (assigning.map fun part => (part.2, part.1.value)) network run.timingPolicy

def ensureRebuildScheduleGeneration (rng : Rng) (network : WalletNetwork)
    (originCandidateHeight : Nat) (db : RunState) :
    StoreResult (Option RebuildScheduleGeneration × RunState) :=
  let rows := needsResignRows db
  if rows.isEmpty then .ok (none, db)
  else do
    let originHeight := db.run.recoveryScheduleOriginHeight.getD originCandidateHeight
    let elapsedCursor := originCandidateHeight - originHeight
    let parts ← rows.mapM fun row => do
      let partIndex ← okOr row.partIndex
        "Migration part waiting for re-sign is missing its part index"
      return (row, partIndex)
    let baseOffset ← recoveryBaseOffset db.run rows elapsedCursor
    let assigning := parts.filter fun part => toAssign elapsedCursor part.1
    let freshOffsets ← freshRebuildOffsets rng network db.run assigning
    let (db, assigned) ← assignRebuildOffsets baseOffset
      ((assigning.map Prod.fst).zip freshOffsets) db
    let generationMaxOffset := (assigned.map Prod.snd).foldl max baseOffset
    return (some ⟨originHeight,keptOffsets elapsedCursor rows ++ assigned⟩,
      db.setRun fun run =>
        { run with
          recoveryScheduleOriginHeight := some originHeight
          recoveryScheduleMaxBlockOffset := some generationMaxOffset })

structure PendingMigrationTxReplacement where
  oldTxid : TxidHex
  replacement : PendingMigrationTxInsert

/-- Remove the element at an index and put the last one in its place. -/
def swapRemove {α : Type} (xs : List α) (i : Nat) : List α :=
  match xs.getLast? with
  | none => []
  | some last => (xs.set i last).dropLast

def matchesEntry (entry : MigrationScheduleEntry) (r : PendingMigrationTxReplacement) : Bool :=
  match entry.partIndex with
  | some partIndex =>
    decide (r.replacement.partIndex = partIndex ∧ r.replacement.value = entry.value)
  | none => decide (r.replacement.value = entry.value)

/-- The replacements in the order of the schedule, and those that it does not contain. -/
def scheduledReplacements : List MigrationScheduleEntry → List PendingMigrationTxReplacement →
    List PendingMigrationTxReplacement × List PendingMigrationTxReplacement
  | [], replacements => ([], replacements)
  | entry :: schedule, replacements =>
    match replacements.findIdx? (matchesEntry entry) with
    | none => scheduledReplacements schedule replacements
    | some i =>
      let (taken, left) := scheduledReplacements schedule (swapRemove replacements i)
      (replacements[i]?.toList ++ taken, left)

/-- The origin of a replacement: the generation's when the part has an offset on it. -/
def replacementScheduleStartHeight (recoveryOrigin persistedOffset : Option Nat)
    (pending : PendingMigrationTxInsert) : StoreResult Nat :=
  match recoveryOrigin, persistedOffset with
  | some origin, some persistedOffset => do
    let persistedScheduledHeight ← okOr (checkedAddU32 origin persistedOffset)
      "Persisted migration recovery schedule overflow"
    if pending.scheduledHeight ≠ persistedScheduledHeight then
      .error "Replacement migration schedule does not match its persisted recovery offset"
    else return origin
  -- Runs created before recovery generations have neither.
  | none, none => .ok (pending.targetHeight - 1)
  | _, _ => .error recoveryMetadataIncomplete

def checkReplacement (recoveryOrigin : Option Nat) (original : PendingTx)
    (pending : PendingMigrationTxInsert) : StoreResult Nat :=
  if original.value ≠ pending.value then
    .error "Expired migration denomination changed during recovery"
  else if lower original.selectedNote.txid ≠ lower pending.selectedNote.txid ∨
      original.selectedNote.outputIndex ≠ pending.selectedNote.outputIndex then
    .error "Expired migration funding note changed during recovery"
  else do
    let canonicalExpiry ← zip318CanonicalMigrationExpiryHeight pending.scheduledHeight
    if pending.expiryHeight ≠ canonicalExpiry then
      .error "Replacement migration expiry is not canonical for its scheduled height"
    else do
      let scheduleStartHeight ← replacementScheduleStartHeight recoveryOrigin
        original.rebuildBlockOffset pending
      let _ ← okOr (checkedSub pending.scheduledHeight scheduleStartHeight)
        "Replacement migration schedule starts below zero"
      return scheduleStartHeight

def deletePending (db : RunState) (txid : TxidHex) : RunState :=
  { db with pending := db.pending.delete fun row => decide (row.txid = txid) }

def replaceResignedPart (key : PayloadKey) (recoveryOrigin : Option Nat)
    (r : PendingMigrationTxReplacement) (db : RunState) : StoreResult RunState := do
  let original ← okOr (db.pending.find? fun row =>
      decide (row.txid = r.oldTxid ∧ row.status = .needsResign))
    "Expired migration part disappeared before replacement"
  let scheduleStartHeight ← checkReplacement recoveryOrigin original r.replacement
  let row ← pendingRow key r.replacement scheduleStartHeight original.originalScheduledHeight
  insertPendingRow row (deletePending db r.oldTxid)

def replaceResignedParts (key : PayloadKey) (recoveryOrigin : Option Nat) :
    List PendingMigrationTxReplacement → RunState → StoreResult RunState
  | [], db => .ok db
  | r :: rest, db => do
    let db ← replaceResignedPart key recoveryOrigin r db
    replaceResignedParts key recoveryOrigin rest db

def replaceResignedPendingParts (key : StoreResult PayloadKey)
    (replacements : List PendingMigrationTxReplacement)
    (signedChildren : List SignedMigrationPcztInsert) (db : RunState) : StoreResult RunState :=
  if replacements.isEmpty then .ok db
  else do
    let payloadKey ← key
    let (scheduled, left) := scheduledReplacements db.run.schedule replacements
    if !left.isEmpty then
      .error "Replacement migration schedule does not match its denominations"
    else do
      let db ← replaceResignedParts payloadKey db.run.recoveryScheduleOriginHeight scheduled db
      let db ← insertSignedChildPczts key .replacement signedChildren db
      return db.setPhase .broadcastScheduled none

def markRunPhase (phase : Phase) (message : Option String) (db : RunState) : RunState :=
  db.setPhase phase message

def retireRunForRebuild (message : String) (db : RunState) : RunState :=
  (db.setPhase .failedTerminal (some message)).unlockNotes

def discardUnsubmittedPreparationStages (db : RunState) : RunState :=
  { db with stages := db.stages.delete fun stage => stage.state.unsubmitted }

def notBroadcast (row : PendingTx) : Bool :=
  decide (row.status = .scheduled ∨ row.status = .needsResign)

def abandonRun (accountUuid : Text) (network : WalletNetwork) (db : RunState) :
    StoreResult RunState :=
  if db.run.accountUuid ≠ accountUuid ∨ db.run.network ≠ network then
    .error "Migration run does not belong to this wallet account"
  else if db.run.phase = .abandoned then .ok (discardUnsubmittedPreparationStages db)
  else if db.run.phase = .complete ∨ db.run.phase = .failedTerminal then
    .error "Migration run is already terminal"
  else
    let stopped := (db.setPhase .abandoned (some "Migration stopped by the user.")).setRun fun run =>
      { run with
        recoveryScheduleOriginHeight := none
        recoveryScheduleMaxBlockOffset := none }
    let pending := stopped.pending.delete notBroadcast
    .ok (discardUnsubmittedPreparationStages { stopped.unlockNotes with children := .empty, pending })

end CoppiceWallet.Store
