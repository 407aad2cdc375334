import CoppiceWallet.Lib.Closure
import CoppiceWallet.Store.Schedule

/-!
# Reconciling the denomination stages with the scanned chain

When the inclusion of a stage is lost or moves, the children that its planned descendants fund are
removed, and the descendants that are off the chain wait for their inputs again. The work is three
transactions: the children, then the stages, then the phase of the run.
-/

namespace CoppiceWallet.Store

open CoppiceWallet.Lib

/-- The stages in their stable order. -/
def denominationStageChainRecords (db : RunState) : List Stage :=
  db.stages.rows.insertionSort fun a b => a.stageIndex ≤ b.stageIndex

/-- A confirmed stage whose inclusion is no longer the one it was confirmed with. -/
def inclusionChanged (chain : ChainView) (stage : Stage) : Bool :=
  match stage.state with
  | .confirmed inclusion _ =>
    decide (chain.localDenominationChainIdentity stage.expectedTxid ≠ some inclusion)
  | _ => false

/-- The inclusion to record: the canonical one, unless the stage has it already. -/
def identityToRecord (chain : ChainView) (stage : Stage) : Option ChainIdentity :=
  match stage.state, chain.localDenominationChainIdentity stage.expectedTxid with
  | .confirmed inclusion _, some identity => if inclusion = identity then none else some identity
  | _, identity => identity

def recoveredPending (chain : ChainView) (stage : Stage) : Bool :=
  match stage.state with
  | .pending _ => chain.onChain stage.expectedTxid
  | _ => false

/-- What a reconciliation decides from one reading of the stages and the chain. -/
structure ReorgPlan where
  affected : List TxidHex
  invalidStages : List TxidHex
  identitiesToRecord : List (TxidHex × ChainIdentity)
  recoveredPendingTxids : List TxidHex

/-- The changed stages and all their planned descendants. -/
def affectedStages (chain : ChainView) (records : List Stage) : List TxidHex :=
  saturate Stage.expectedTxid Stage.parentTxids records (records.length + 1)
    ((records.filter (inclusionChanged chain)).map Stage.expectedTxid)

/-- An affected stage is invalid exactly when it is off the chain itself. -/
def reorgPlan (chain : ChainView) (records : List Stage) : ReorgPlan where
  affected := affectedStages chain records
  invalidStages := (affectedStages chain records).filter fun txid => !chain.onChain txid
  identitiesToRecord := records.filterMap fun stage =>
    (identityToRecord chain stage).map fun identity => (stage.expectedTxid, identity)
  recoveredPendingTxids := (records.filter (recoveredPending chain)).map Stage.expectedTxid

/-- A pending row that spends an output of the stage. -/
def fundedBy (txid : TxidHex) (row : PendingTx) : Bool :=
  decide (lower row.selectedNote.txid = txid.text)

def removedChild (chain : ChainView) (txid : TxidHex) (row : PendingTx) : Bool :=
  fundedBy txid row && !chain.onChain row.txid

/-- A note of the stage that no included child spends. -/
def staleNote (chain : ChainView) (txid : TxidHex) (db : RunState) (note : PreparedNote) : Bool :=
  let included := (db.pending.select fun row => fundedBy txid row && chain.onChain row.txid).map
    fun row => row.selectedNote.outputIndex
  decide (lower note.txid = txid.text) && !included.contains note.outputIndex

def resetNote (note : PreparedNote) : PreparedNote :=
  { note with nullifier := none, lockState := .locked }

def resetDenomination (chain : ChainView) (state : Bool × RunState) (txid : TxidHex) :
    Bool × RunState :=
  let (resetAny, db) := state
  let stale := staleNote chain txid db
  (resetAny || db.pending.rows.any (removedChild chain txid) || db.preparedNotes.any stale,
    { db with
      pending := db.pending.delete (removedChild chain txid)
      preparedNotes := db.preparedNotes.map fun note => if stale note then resetNote note else note })

def resetMigrationChildrenForReorgedDenominations (chain : ChainView)
    (denominationTxids : List TxidHex) (db : RunState) : Bool × RunState :=
  if denominationTxids.isEmpty || db.isTerminal then (false, db)
  else
    let (resetAny, db) := denominationTxids.foldl (resetDenomination chain) (false, db)
    (resetAny, if resetAny then
      (db.setPhase .waitingDenomConfirmations none).setRun fun run =>
        { run with proofRetryHeight := none }
    else db)

def cleanUpChildren (chain : ChainView) (plan : ReorgPlan) (db : RunState) : RunState :=
  (resetMigrationChildrenForReorgedDenominations chain plan.affected db).2

def updateStage (db : RunState) (txid : TxidHex) (f : StageState → StageState) : RunState :=
  let stages := db.stages.update (fun stage => decide (stage.expectedTxid = txid))
    (fun stage => { stage with state := f stage.state }) fun _ => rfl
  { db with stages }

def hasStage (db : RunState) (txid : TxidHex) : Bool :=
  db.stages.rows.any fun stage => decide (stage.expectedTxid = txid)

def resetDenominationStageExact (txid : TxidHex) (db : RunState) : StoreResult RunState :=
  if hasStage db txid then .ok (updateStage db txid fun _ => .awaitingInputs)
  else .error "Migration denomination stage was not found"

/-- The raw bytes that a stage retains once it is confirmed. -/
def StageState.encryptedRawTx : StageState → Option Bytes
  | .awaitingInputs => none
  | .pending raw => some raw
  | .broadcasted raw => some raw
  | .confirmed _ raw => raw

def replaceDenominationStageConfirmationIdentity (identity : TxidHex × ChainIdentity)
    (db : RunState) : StoreResult RunState :=
  if hasStage db identity.1 then
    .ok (updateStage db identity.1 fun state => .confirmed identity.2 state.encryptedRawTx)
  else .error "Migration denomination stage cannot record a mined inclusion"

def resetStages : List TxidHex → RunState → StoreResult RunState
  | [], db => .ok db
  | txid :: txids, db => do
    let db ← resetDenominationStageExact txid db
    resetStages txids db

def recordIdentities : List (TxidHex × ChainIdentity) → RunState → StoreResult RunState
  | [], db => .ok db
  | identity :: identities, db => do
    let db ← replaceDenominationStageConfirmationIdentity identity db
    recordIdentities identities db

/-! ### Spacing the remaining preparation broadcasts -/

def zip318PreparationMeanDelayBlocks : Nat := 16
def zip318PreparationMaxDelayBlocks : Nat := 96
def regtestPreparationMeanDelayBlocks : Nat := 1
def regtestPreparationMaxDelayBlocks : Nat := 4
def fastTestnetPreparationMeanDelayBlocks : Nat := 4
def fastTestnetPreparationMaxDelayBlocks : Nat := 16
def densePreparationTransactionThreshold : Nat := 3

def preparationScheduleParameters (network : WalletNetwork)
    (timingPolicy : MigrationTimingPolicy) : Nat × Nat :=
  match network, timingPolicy with
  | .regtest, .fastTestnet =>
    (fastTestnetPreparationMeanDelayBlocks, fastTestnetPreparationMaxDelayBlocks)
  | .regtest, _ => (regtestPreparationMeanDelayBlocks, regtestPreparationMaxDelayBlocks)
  | .test, .fastTestnet =>
    (fastTestnetPreparationMeanDelayBlocks, fastTestnetPreparationMaxDelayBlocks)
  | _, _ => (zip318PreparationMeanDelayBlocks, zip318PreparationMaxDelayBlocks)

def preparationScheduleParametersForTransactionCount (network : WalletNetwork)
    (timingPolicy : MigrationTimingPolicy) (transactionCount : Nat) : Nat × Nat :=
  let (meanDelayBlocks, maxDelayBlocks) := preparationScheduleParameters network timingPolicy
  (if densePreparationTransactionThreshold < transactionCount then max (meanDelayBlocks / 2) 1
    else meanDelayBlocks, maxDelayBlocks)

def effectiveBroadcastHeight (stage : Stage) : Nat :=
  max (stage.broadcastNotBeforeHeight.getD 0) stage.scheduledHeight

def broadcastBefore (a b : Stage) : Prop :=
  effectiveBroadcastHeight a < effectiveBroadcastHeight b ∨
    effectiveBroadcastHeight a = effectiveBroadcastHeight b ∧ a.stageIndex ≤ b.stageIndex

instance : DecidableRel broadcastBefore := fun a b =>
  inferInstanceAs (Decidable (effectiveBroadcastHeight a < effectiveBroadcastHeight b ∨
    effectiveBroadcastHeight a = effectiveBroadcastHeight b ∧ a.stageIndex ≤ b.stageIndex))

def setBroadcastNotBeforeHeight (db : RunState) (stageIndex height : Nat) : RunState :=
  let stages := db.stages.update
    (fun stage => decide (stage.stageIndex = stageIndex) && stage.state.unsubmitted)
    (fun stage => { stage with broadcastNotBeforeHeight := some height }) fun _ => rfl
  { db with stages }

def rerandomizeStages (rng : Rng) (meanDelayBlocks maxDelayBlocks : Nat) :
    Nat → Nat → List Stage → RunState → StoreResult RunState
  | _, _, [], db => .ok db
  | draw, precedingHeight, stage :: stages, db => do
    let randomizedHeight ← okOr
      (checkedAddU32 precedingHeight (rng.delay draw meanDelayBlocks maxDelayBlocks))
      "Migration preparation catch-up height overflow"
    let effectiveHeight := max (max randomizedHeight stage.scheduledHeight)
      (stage.broadcastNotBeforeHeight.getD 0)
    rerandomizeStages rng meanDelayBlocks maxDelayBlocks (draw + 1) effectiveHeight stages
      (setBroadcastNotBeforeHeight db stage.stageIndex effectiveHeight)

def rerandomizeRemainingPreparationBroadcastHeights (rng : Rng) (network : WalletNetwork)
    (chainTipHeight : Nat) (db : RunState) : StoreResult RunState :=
  if db.run.preparationTimingPolicy = .immediate then .ok db
  else
    let (meanDelayBlocks, maxDelayBlocks) := preparationScheduleParametersForTransactionCount
      network db.run.timingPolicy db.stages.length
    let remaining := (db.stages.select fun stage => stage.state.unsubmitted).insertionSort
      broadcastBefore
    rerandomizeStages rng meanDelayBlocks maxDelayBlocks 0 chainTipHeight remaining db

/-- Where the spacing restarts, when a pending stage was discovered on the chain. -/
def recoveryContext (plan : ReorgPlan) (chainTipHeight : StoreResult Nat) (db : RunState) :
    StoreResult (Option (WalletNetwork × Nat)) :=
  if plan.recoveredPendingTxids.isEmpty || decide (db.run.preparationTimingPolicy = .immediate) then
    .ok none
  else do
    let chainTipHeight ← chainTipHeight
    return some (db.run.network, chainTipHeight)

def stillPending (db : RunState) (txid : TxidHex) : Bool :=
  db.stages.rows.any fun stage => decide (stage.expectedTxid = txid) &&
    match stage.state with
    | .pending _ => true
    | _ => false

def restartSpacing (rng : Rng) (recoveredPendingStage : Bool)
    (context : Option (WalletNetwork × Nat)) (db : RunState) : StoreResult RunState :=
  match recoveredPendingStage, context with
  | true, some (network, chainTipHeight) =>
    rerandomizeRemainingPreparationBroadcastHeights rng network chainTipHeight db
  | _, _ => .ok db

def commitStageUpdate (rng : Rng) (plan : ReorgPlan) (context : Option (WalletNetwork × Nat))
    (db : RunState) : StoreResult RunState :=
  if plan.invalidStages.isEmpty && plan.identitiesToRecord.isEmpty then .ok db
  else if db.isTerminal then .ok db
  else do
    let recoveredPendingStage := plan.recoveredPendingTxids.any (stillPending db)
    let db ← resetStages plan.invalidStages db
    let db ← recordIdentities
      (plan.identitiesToRecord.filter fun identity => !plan.invalidStages.contains identity.1) db
    restartSpacing rng recoveredPendingStage context db

def markDenominationReorg (plan : ReorgPlan) (db : RunState) : RunState :=
  if plan.affected.isEmpty || db.isTerminal then db
  else db.setPhase .waitingDenomConfirmations none

def reconcileDenominationStageChainState (rng : Rng) (chain : ChainView)
    (chainTipHeight : StoreResult Nat) (db : RunState) : StoreResult RunState :=
  let records := denominationStageChainRecords db
  if records.isEmpty then .ok db
  else do
    let plan := reorgPlan chain records
    let context ← recoveryContext plan chainTipHeight db
    let db ← commitStageUpdate rng plan context (cleanUpChildren chain plan db)
    return markDenominationReorg plan db

end CoppiceWallet.Store
