import CoppiceWallet.Store.Operation
import CoppiceWallet.Store.Receipt
import CoppiceWallet.Store.ReorgCrash

/-!
# Terminal phases

A run in a terminal phase must not become active again. Some writers of the phase check this and
others do not, so every writer is a step of its own: an operation, each transaction of an operation,
and each statement that runs outside of a transaction. What a step was told by an earlier read is a
parameter.
-/

namespace CoppiceWallet.Store

open CoppiceWallet.Lib

/-- The guarded statements of a reconciliation with the scanned chain. -/
inductive ReconcileStatement
  | markConfirmed (txid : TxidHex)
  | rescheduleReorged (txid : TxidHex)
  | markBroadcastScheduled
  | resumeMaterialization
  | completeRun

def ReconcileStatement.apply (statement : ReconcileStatement) (db : RunState) : RunState :=
  match statement with
  | markConfirmed txid =>
    if db.isTerminal then db else db.setStatus (fun row => decide (row.txid = txid)) .confirmed
  | rescheduleReorged txid =>
    if db.isTerminal then db
    else db.updatePending (fun row => decide (row.txid = txid))
      (fun row => { row with
        status := .scheduled
        scheduleStartHeight := some row.targetHeight
        scheduledHeight := row.targetHeight }) fun _ => rfl
  | markBroadcastScheduled => if db.isTerminal then db else db.setPhase .broadcastScheduled none
  | resumeMaterialization => Store.resumeMaterialization db
  | completeRun => Store.completeRun db

inductive StoreTransaction
  | call (op : Operation)
  | reconcileStatement (statement : ReconcileStatement)
  | commitReschedule (rng : Rng) (network : WalletNetwork)
      (chainTipHeight minimumDelayBlocks : Nat) (overdue : List (TxidHex × Nat))
  | cleanUpChildren (chain : ChainView) (plan : ReorgPlan)
  | commitStageUpdate (rng : Rng) (plan : ReorgPlan) (context : Option (WalletNetwork × Nat))
  | markDenominationReorg (plan : ReorgPlan)

def StoreTransaction.apply : StoreTransaction → RunState → StoreResult RunState
  | call op, db => op.apply db
  | reconcileStatement statement, db => .ok (statement.apply db)
  | commitReschedule rng network chainTipHeight minimumDelayBlocks overdue, db =>
    Store.commitReschedule rng network chainTipHeight minimumDelayBlocks overdue db
  | cleanUpChildren chain plan, db => .ok (Store.cleanUpChildren chain plan db)
  | commitStageUpdate rng plan context, db => Store.commitStageUpdate rng plan context db
  | markDenominationReorg plan, db => .ok (Store.markDenominationReorg plan db)

/-- No redrawn height lies outside of the expiry bucket that was read with its row. -/
def RedrawsInBuckets (rng : Rng) (network : WalletNetwork)
    (chainTipHeight minimumDelayBlocks : Nat) (overdue : List (TxidHex × Nat)) (db : RunState) :
    Prop :=
  ∀ draw ∈ redraws rng network overdue db,
    CanonicalExpiry (chainTipHeight + max draw.2 minimumDelayBlocks) draw.1.2

/-- The transaction was recorded as accepted before, and no peer leaves its bucket. -/
def ReceiptSettled (receipt : AcceptedOutboxReceipt) (db : RunState) : Prop :=
  (∀ accepted, db.pending.find? (hasItemId (lower receipt.txid)) = some accepted →
    ¬ (accepted.status = .scheduled ∨ accepted.status = .needsResign)) ∧
  ¬ ∃ update ∈ suppliedUpdates receipt.scheduleUpdates, PeerCrosses db update

def Operation.StaysTerminal : Operation → RunState → Prop
  | insertPendingTxs .., _ => False
  | promoteSignedChildPczts _ _ pendingTxs _ _, _ => pendingTxs = []
  | replaceResignedPendingParts _ replacements _, _ => replacements = []
  | rescheduleOverduePendingTxs rng network chainTipHeight minimumDelayBlocks excludedTxid, db =>
    RedrawsInBuckets rng network chainTipHeight minimumDelayBlocks
      (overduePendingTxs chainTipHeight excludedTxid db) db
  | applyAcceptedMigrationOutboxReceipt receipt, db => ReceiptSettled receipt db
  | markExpiredPendingPartsForResign chain chainTipHeight, db =>
    ∀ row ∈ db.pending.rows, pendingRowIsExpiredForResign chain chainTipHeight row = false
  | markDuePartsForResign _ chainTipHeight, db =>
    ∀ row ∈ db.pending.rows, scheduledBy chainTipHeight row = true →
      CanonicalExpiry chainTipHeight row.expiryHeight
  | markPendingBroadcasted _, _ => False
  | markRunPhase phase _, _ => migrationPhaseReleasesWalletLocks phase = true
  | _, _ => True

def StaysTerminal : StoreTransaction → RunState → Prop
  | .call op, db => op.StaysTerminal db
  | .commitReschedule rng network chainTipHeight minimumDelayBlocks overdue, db =>
    RedrawsInBuckets rng network chainTipHeight minimumDelayBlocks overdue db
  | _, _ => True

variable {db db' : RunState}

theorem isTerminal_of_run (h : db'.run = db.run) : db'.isTerminal = db.isTerminal := by
  rw [RunState.isTerminal,h,RunState.isTerminal]

theorem not_isTerminal_of_phase {phase : Phase} (h : db'.run.phase = phase)
    (hphase : migrationPhaseReleasesWalletLocks phase = false) : ¬ db'.isTerminal = true := by
  rw [RunState.isTerminal,h,hphase]
  exact Bool.false_ne_true

theorem commitReschedule_isTerminal {rng : Rng} {network : WalletNetwork} {tip minimum : Nat}
    {overdue : List (TxidHex × Nat)} (hterminal : db.isTerminal = true)
    (h : commitReschedule rng network tip minimum overdue db = .ok db') :
    db'.isTerminal = true ↔ RedrawsInBuckets rng network tip minimum overdue db := by
  unfold commitReschedule at h
  split at h
  · rename_i hempty
    cases h
    refine iff_of_true hterminal fun draw hdraw => ?_
    have hmem := (rng.mem_shuffle).mp (List.of_mem_zip hdraw).1
    rw [List.isEmpty_iff.mp hempty] at hmem
    cases hmem
  · obtain ⟨⟨redrawn,crossed⟩,hredrawn,h⟩ := bind_ok h
    obtain ⟨hrun,hcrossed⟩ := redrawPendingTxs_crossed hredrawn
    cases h
    rw [RedrawsInBuckets,← hcrossed]
    cases crossed with
    | true => exact iff_of_false Bool.false_ne_true Bool.noConfusion
    | false =>
      exact iff_of_true ((isTerminal_of_run hrun).trans hterminal) rfl

theorem updateRunAfterPendingBroadcast_isTerminal (db : RunState) :
    (updateRunAfterPendingBroadcast db).isTerminal = false := by
  unfold updateRunAfterPendingBroadcast
  dsimp only
  split
  · rfl
  · split <;> rfl

theorem receipt_isTerminal {receipt : AcceptedOutboxReceipt} (hterminal : db.isTerminal = true)
    (h : applyAcceptedMigrationOutboxReceipt receipt db = .ok db') :
    db'.isTerminal = true ↔ ReceiptSettled receipt db := by
  obtain ⟨_,accepted,haccepted,_,_,_,crossed,hcrossed,rfl⟩ := receipt_ok_iff.mp h
  rw [ReceiptSettled,haccepted,← hcrossed]
  unfold acceptPendingTx
  split
  · rename_i hwaiting
    rw [updateRunAfterPendingBroadcast_isTerminal]
    exact iff_of_false Bool.false_ne_true fun hsettled => hsettled.1 accepted rfl hwaiting
  · rename_i hsettled
    cases crossed with
    | true => exact iff_of_false Bool.false_ne_true fun h => h.2 rfl
    | false =>
      refine iff_of_true ((isTerminal_of_run (applyUpdates_run _ _)).trans hterminal)
        ⟨?_,Bool.false_ne_true⟩
      rintro _ ⟨⟩
      exact hsettled

theorem markForResign_isTerminal {p : PendingTx → Bool} {phase : Phase}
    {lastError : Option String} (hterminal : db.isTerminal = true)
    (hphase : migrationPhaseReleasesWalletLocks phase = false) :
    (if 0 < db.pending.count p then (db.setStatus p .needsResign).setPhase phase lastError
      else db).isTerminal = true ↔ ∀ row ∈ db.pending.rows, p row = false := by
  have hnone : db.pending.count p = 0 ↔ ∀ row ∈ db.pending.rows, p row = false := by
    rw [Table.count,List.countP_eq_zero]
    exact forall₂_congr fun row _ => by rw [Bool.not_eq_true]
  rw [← hnone]
  split
  · rename_i hsome
    refine iff_of_false ?_ (Nat.ne_of_gt hsome)
    rw [RunState.isTerminal,RunState.setPhase_phase,hphase]
    exact Bool.false_ne_true
  · exact iff_of_true hterminal (Nat.eq_zero_of_not_pos ‹_›)

theorem insertPendingTxs_phase {rng : Rng} {key : StoreResult PayloadKey}
    {pendingTxs : List PendingMigrationTxInsert}
    (h : insertPendingTxs rng key pendingTxs db = .ok db') :
    db'.run.phase = .broadcastScheduled := by
  unfold insertPendingTxs at h
  obtain ⟨_,_,h⟩ := bind_ok h
  obtain ⟨⟨_,_⟩,_,h⟩ := bind_ok h
  obtain ⟨_,_,h⟩ := bind_ok h
  obtain ⟨_,_,h⟩ := bind_ok h
  cases h
  rfl

theorem persistSignedChildPczts_isTerminal {key : StoreResult PayloadKey}
    {children : List SignedMigrationPcztInsert} (hterminal : db.isTerminal = true)
    (h : persistSignedChildPczts key children db = .ok db') : db'.isTerminal = true := by
  unfold persistSignedChildPczts at h
  split at h
  · cases h
  · obtain ⟨stored,hstored,h⟩ := bind_ok h
    split at h
    · rename_i hready
      have hphase := (insertSignedChildPczts_keeps hstored).2.1.symm.trans hready
      exact absurd hterminal (not_isTerminal_of_phase hphase rfl)
    · cases h

theorem promote_isTerminal {rng : Rng} {key : StoreResult PayloadKey}
    {pendingTxs : List PendingMigrationTxInsert} {scanned retry : Nat}
    (hterminal : db.isTerminal = true)
    (h : promoteSignedChildPcztsToPendingTxs rng key pendingTxs scanned retry db = .ok db') :
    db'.isTerminal = true ↔ pendingTxs = [] := by
  unfold promoteSignedChildPcztsToPendingTxs at h
  split at h
  · cases h
    exact iff_of_true hterminal (List.isEmpty_iff.mp ‹_›)
  · rename_i hnonempty
    split at h
    · cases h
    · obtain ⟨⟨_,rebased⟩,_,h⟩ := bind_ok h
      obtain ⟨refreshed,_,h⟩ := bind_ok h
      obtain ⟨inserted,hinserted,h⟩ := bind_ok h
      cases h
      have hphase := insertPendingTxs_phase hinserted
      exact iff_of_false (not_isTerminal_of_phase hphase rfl) fun hempty =>
        hnonempty (List.isEmpty_iff.mpr hempty)

theorem replaceResignedPendingParts_isTerminal {key : StoreResult PayloadKey}
    {replacements : List PendingMigrationTxReplacement} {children : List SignedMigrationPcztInsert}
    (hterminal : db.isTerminal = true)
    (h : replaceResignedPendingParts key replacements children db = .ok db') :
    db'.isTerminal = true ↔ replacements = [] := by
  unfold replaceResignedPendingParts at h
  split at h
  · cases h
    exact iff_of_true hterminal (List.isEmpty_iff.mp ‹_›)
  · rename_i hnonempty
    obtain ⟨_,_,h⟩ := bind_ok h
    dsimp only at h
    split at h
    · cases h
    · obtain ⟨_,_,h⟩ := bind_ok h
      obtain ⟨_,_,h⟩ := bind_ok h
      cases h
      exact iff_of_false (not_isTerminal_of_phase rfl rfl) fun hempty =>
        hnonempty (List.isEmpty_iff.mpr hempty)

theorem abandonRun_isTerminal {accountUuid : Text} {network : WalletNetwork}
    (hterminal : db.isTerminal = true) (h : abandonRun accountUuid network db = .ok db') :
    db'.isTerminal = true := by
  unfold abandonRun at h
  split at h
  · cases h
  · split at h
    · cases h
      exact hterminal
    · split at h
      · cases h
      · cases h
        rfl

theorem resetMigrationChildren_of_terminal (chain : ChainView) (txids : List TxidHex)
    (h : db.isTerminal = true) :
    resetMigrationChildrenForReorgedDenominations chain txids db = (false, db) := by
  unfold resetMigrationChildrenForReorgedDenominations
  exact if_pos (by simp [h])

theorem ReconcileStatement.apply_of_terminal (statement : ReconcileStatement)
    (h : db.isTerminal = true) : statement.apply db = db := by
  cases statement with
  | markConfirmed txid => exact if_pos h
  | rescheduleReorged txid => exact if_pos h
  | markBroadcastScheduled => exact if_pos h
  | resumeMaterialization => exact resumeMaterialization_of_terminal h
  | completeRun => exact if_pos h

theorem Operation.apply_isTerminal {op : Operation} (hterminal : db.isTerminal = true)
    (h : op.apply db = .ok db') : db'.isTerminal = true ↔ op.StaysTerminal db := by
  cases op with
  | insertPendingTxs rng key pendingTxs =>
    exact iff_of_false (not_isTerminal_of_phase (insertPendingTxs_phase h) rfl) id
  | persistSignedChildPczts key signedChildren =>
    exact iff_of_true (persistSignedChildPczts_isTerminal hterminal h) trivial
  | promoteSignedChildPczts rng key pendingTxs scanned retry => exact promote_isTerminal hterminal h
  | replaceResignedPendingParts key replacements signedChildren =>
    exact replaceResignedPendingParts_isTerminal hterminal h
  | ensureRebuildScheduleGeneration rng network candidate =>
    obtain ⟨⟨_,_⟩,hensure,rfl⟩ := map_ok h
    refine iff_of_true ?_ trivial
    rw [← hterminal,RunState.isTerminal,ensureRebuild_phase hensure,RunState.isTerminal]
  | rescheduleOverduePendingTxs rng network tip minimum excluded =>
    exact commitReschedule_isTerminal hterminal h
  | applyAcceptedMigrationOutboxReceipt receipt => exact receipt_isTerminal hterminal h
  | reconcileRunConfirmations chain =>
    cases h
    rw [reconcileRunConfirmations_of_terminal hterminal]
    exact iff_of_true hterminal trivial
  | markExpiredPendingPartsForResign chain tip =>
    cases h
    unfold Store.markExpiredPendingPartsForResign
    rw [reconcileRunConfirmations_of_terminal hterminal]
    exact markForResign_isTerminal hterminal rfl
  | markDuePartsForResign chain tip =>
    obtain ⟨canonicalExpiry,hcanonical,h⟩ := bind_ok h
    cases h
    rw [reconcileRunConfirmations_of_terminal hterminal]
    refine (markForResign_isTerminal hterminal rfl).trans (forall₂_congr fun row _ => ?_)
    rw [dueWithOtherExpiry,CanonicalExpiry,hcanonical,Except.ok.injEq]
    rw [Bool.and_eq_false_imp]
    refine imp_congr_right fun _ => ?_
    rw [decide_eq_false_iff_not,ne_eq,not_not,eq_comm]
  | markPendingBroadcasted txid =>
    cases h
    rw [Store.markPendingBroadcasted,updateRunAfterPendingBroadcast_isTerminal]
    exact iff_of_false Bool.false_ne_true id
  | resetMigrationChildren chain txids =>
    cases h
    rw [resetMigrationChildren_of_terminal chain txids hterminal]
    exact iff_of_true hterminal trivial
  | markRunPhase phase message =>
    cases h
    exact Iff.rfl
  | retireRunForRebuild message =>
    cases h
    exact iff_of_true rfl trivial
  | abandonRun accountUuid network =>
    exact iff_of_true (abandonRun_isTerminal hterminal h) trivial

theorem StoreTransaction.apply_isTerminal {step : StoreTransaction} (hterminal : db.isTerminal = true)
    (h : step.apply db = .ok db') : db'.isTerminal = true ↔ StaysTerminal step db := by
  cases step with
  | call op => exact Operation.apply_isTerminal hterminal h
  | reconcileStatement statement =>
    cases h
    rw [statement.apply_of_terminal hterminal]
    exact iff_of_true hterminal trivial
  | commitReschedule rng network tip minimum overdue =>
    exact commitReschedule_isTerminal hterminal h
  | cleanUpChildren chain plan =>
    cases h
    rw [cleanUpChildren_of_terminal hterminal]
    exact iff_of_true hterminal trivial
  | commitStageUpdate rng plan context =>
    rw [StoreTransaction.apply,commitStageUpdate_of_terminal hterminal] at h
    cases h
    exact iff_of_true hterminal trivial
  | markDenominationReorg plan =>
    cases h
    rw [markDenominationReorg_of_terminal hterminal]
    exact iff_of_true hterminal trivial

/-- A run whose only part is due. -/
def broadcastingRun : RunState :=
  let run : Run :=
    { accountUuid := []
      network := .test
      phase := .broadcastScheduled
      targetValues := [1000000] }
  { RunState.created run with
    pending := ⟨[{ childOf splitTxid with status := .scheduled }],by decide⟩
    preparedNotes := [⟨splitTxid.text,0,none,.locked⟩] }

end CoppiceWallet.Store
