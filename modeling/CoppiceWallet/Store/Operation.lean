import CoppiceWallet.Lib.Run
import CoppiceWallet.Store.Rows

/-! # The operations on a run -/

namespace CoppiceWallet.Store

open CoppiceWallet.Lib

inductive Operation
  | insertPendingTxs (rng : Rng) (key : StoreResult PayloadKey)
      (pendingTxs : List PendingMigrationTxInsert)
  | persistSignedChildPczts (key : StoreResult PayloadKey)
      (signedChildren : List SignedMigrationPcztInsert)
  | promoteSignedChildPczts (rng : Rng) (key : StoreResult PayloadKey)
      (pendingTxs : List PendingMigrationTxInsert)
      (currentScannedHeight remainingChildRetryHeight : Nat)
  | replaceResignedPendingParts (key : StoreResult PayloadKey)
      (replacements : List PendingMigrationTxReplacement)
      (signedChildren : List SignedMigrationPcztInsert)
  | ensureRebuildScheduleGeneration (rng : Rng) (network : WalletNetwork)
      (originCandidateHeight : Nat)
  | rescheduleOverduePendingTxs (rng : Rng) (network : WalletNetwork)
      (chainTipHeight minimumDelayBlocks : Nat) (excludedTxid : Option TxidHex)
  | applyAcceptedMigrationOutboxReceipt (receipt : AcceptedOutboxReceipt)
  | reconcileRunConfirmations (chain : ChainView)
  | markExpiredPendingPartsForResign (chain : ChainView) (chainTipHeight : Nat)
  | markDuePartsForResign (chain : ChainView) (chainTipHeight : Nat)
  | markPendingBroadcasted (txid : TxidHex)
  | resetMigrationChildren (chain : ChainView) (denominationTxids : List TxidHex)
  | markRunPhase (phase : Phase) (message : Option String)
  | retireRunForRebuild (message : String)
  | abandonRun (accountUuid : Text) (network : WalletNetwork)

namespace Operation

def apply : Operation → RunState → StoreResult RunState
  | insertPendingTxs rng key pendingTxs, db => Store.insertPendingTxs rng key pendingTxs db
  | persistSignedChildPczts key signedChildren, db =>
    Store.persistSignedChildPczts key signedChildren db
  | promoteSignedChildPczts rng key pendingTxs currentScannedHeight remainingChildRetryHeight, db =>
    promoteSignedChildPcztsToPendingTxs rng key pendingTxs currentScannedHeight
      remainingChildRetryHeight db
  | replaceResignedPendingParts key replacements signedChildren, db =>
    Store.replaceResignedPendingParts key replacements signedChildren db
  | ensureRebuildScheduleGeneration rng network originCandidateHeight, db =>
    Prod.snd <$> Store.ensureRebuildScheduleGeneration rng network originCandidateHeight db
  | rescheduleOverduePendingTxs rng network chainTipHeight minimumDelayBlocks excludedTxid, db =>
    rescheduleOverduePendingTxsWithOptions rng network chainTipHeight minimumDelayBlocks
      excludedTxid db
  | applyAcceptedMigrationOutboxReceipt receipt, db =>
    Store.applyAcceptedMigrationOutboxReceipt receipt db
  | reconcileRunConfirmations chain, db => .ok (Store.reconcileRunConfirmations chain db)
  | markExpiredPendingPartsForResign chain chainTipHeight, db =>
    .ok (Store.markExpiredPendingPartsForResign chain chainTipHeight db)
  | markDuePartsForResign chain chainTipHeight, db =>
    markDuePartsWithNoncanonicalBroadcastHeightForResign chain chainTipHeight db
  | markPendingBroadcasted txid, db => .ok (Store.markPendingBroadcasted txid db)
  | resetMigrationChildren chain denominationTxids, db =>
    .ok (resetMigrationChildrenForReorgedDenominations chain denominationTxids db).2
  | markRunPhase phase message, db => .ok (Store.markRunPhase phase message db)
  | retireRunForRebuild message, db => .ok (Store.retireRunForRebuild message db)
  | abandonRun accountUuid network, db => Store.abandonRun accountUuid network db

/-- The chain with which an operation reconciles the run first. -/
def reconciledChain : Operation → Option ChainView
  | reconcileRunConfirmations chain => some chain
  | markExpiredPendingPartsForResign chain _ => some chain
  | markDuePartsForResign chain _ => some chain
  | _ => none

/-- The rows that an operation marks for signing once the run is reconciled. -/
def marksForResign : Operation → PendingTx → Bool
  | markExpiredPendingPartsForResign chain chainTipHeight, row =>
    pendingRowIsExpiredForResign chain chainTipHeight row
  | markDuePartsForResign _ chainTipHeight, row =>
    scheduledBy chainTipHeight row && !decide (CanonicalExpiry chainTipHeight row.expiryHeight)
  | _, _ => false

/-- The rows that an operation leaves scheduled at their construction height because they left the
chain. -/
def loses (op : Operation) (db : RunState) (row : PendingTx) : Prop :=
  ∃ chain, op.reconciledChain = some chain ∧ leftUnmined chain op.marksForResign db row

private theorem marksForResign_due (chain : ChainView) {chainTipHeight canonicalExpiry : Nat}
    (h : zip318CanonicalMigrationExpiryHeight chainTipHeight = .ok canonicalExpiry) :
    (markDuePartsForResign chain chainTipHeight).marksForResign =
      dueWithOtherExpiry chainTipHeight canonicalExpiry := by
  funext row
  have hcanonical : CanonicalExpiry chainTipHeight row.expiryHeight ↔
      row.expiryHeight = canonicalExpiry := by
    rw [CanonicalExpiry,h,Except.ok.injEq,eq_comm]
  rw [marksForResign,dueWithOtherExpiry,decide_not,decide_eq_decide.mpr hcanonical]

theorem apply_marks {op : Operation} {chain : ChainView} {db db' : RunState}
    (hchain : op.reconciledChain = some chain) (h : op.apply db = .ok db') :
    db'.pending =
      ((Store.reconcileRunConfirmations chain db).setStatus op.marksForResign
        .needsResign).pending := by
  cases op with
  | reconcileRunConfirmations chain' =>
    cases hchain
    cases h
    have hnone : (Store.reconcileRunConfirmations chain db).pending.count
        (marksForResign (reconcileRunConfirmations chain)) = 0 := by
      simp [marksForResign,Table.count]
    rw [setStatus_of_none hnone]
  | markExpiredPendingPartsForResign chain' tip =>
    cases hchain
    cases h
    exact markForResign_pending _ _ _ _
  | markDuePartsForResign chain' tip =>
    cases hchain
    obtain ⟨canonicalExpiry,hcanonical,h⟩ := bind_ok h
    cases h
    rw [marksForResign_due chain hcanonical]
    exact markForResign_pending _ _ _ _
  | _ => cases hchain

theorem apply_marks_rowsKept {op : Operation} {chain : ChainView} {db db' : RunState}
    (hchain : op.reconciledChain = some chain) (h : op.apply db = .ok db') :
    RowsKept (op.loses db) db db' := by
  intro row hrow
  rw [apply_marks hchain h] at hrow
  obtain ⟨old,hold,hstep⟩ := markForResign_rowsKept chain op.marksForResign db row hrow
  refine ⟨old,hold,hstep.txid,hstep.expiry,hstep.offset,fun hscheduled => ?_⟩
  refine (hstep.scheduled hscheduled).imp_right (Or.imp_right fun hlost => ?_)
  exact ⟨⟨chain,hchain,hlost.1⟩,hlost.2⟩

/-- The drawing of recovery offsets. -/
def drawsOffsets : Operation → Bool
  | ensureRebuildScheduleGeneration .. => true
  | _ => false

theorem apply_rows {op : Operation} {db db' : RunState} (h : op.apply db = .ok db') :
    RowsStep (op.loses db) db db' ∨ (op.drawsOffsets = true ∧ OffsetsOnly db db') := by
  cases op with
  | ensureRebuildScheduleGeneration rng network candidate =>
    obtain ⟨⟨_,_⟩,hensure,rfl⟩ := map_ok h
    exact .inr ⟨rfl,ensureRebuild_offsetsOnly hensure⟩
  | insertPendingTxs rng key pendingTxs => exact .inl (insertPendingTxs_rowsStep h).weaken
  | persistSignedChildPczts key signedChildren =>
    exact .inl (persistSignedChildPczts_rowsKept h).rowsStep
  | promoteSignedChildPczts rng key pendingTxs scanned retry =>
    exact .inl (promote_rowsStep h).weaken
  | replaceResignedPendingParts key replacements signedChildren =>
    exact .inl (replaceResignedPendingParts_ok h).1.weaken
  | rescheduleOverduePendingTxs rng network tip minimum excluded =>
    exact .inl (commitReschedule_rowsKept (overduePendingTxs_known tip excluded db) h).rowsStep.weaken
  | applyAcceptedMigrationOutboxReceipt receipt =>
    exact .inl (receipt_rowsKept h).rowsStep.weaken
  | reconcileRunConfirmations chain => exact .inl (apply_marks_rowsKept rfl h).rowsStep
  | markExpiredPendingPartsForResign chain tip => exact .inl (apply_marks_rowsKept rfl h).rowsStep
  | markDuePartsForResign chain tip => exact .inl (apply_marks_rowsKept rfl h).rowsStep
  | markPendingBroadcasted txid =>
    cases h
    exact .inl (markPendingBroadcasted_rowsKept txid db).rowsStep.weaken
  | resetMigrationChildren chain txids =>
    cases h
    exact .inl (resetMigrationChildren_rowsKept chain txids db).rowsStep.weaken
  | markRunPhase phase message =>
    cases h
    exact .inl (RowsKept.refl db).rowsStep
  | retireRunForRebuild message =>
    cases h
    exact .inl (RowsKept.refl db).rowsStep
  | abandonRun accountUuid network =>
    exact .inl (abandonRun_rowsKept h).rowsStep.weaken

end Operation

end CoppiceWallet.Store
