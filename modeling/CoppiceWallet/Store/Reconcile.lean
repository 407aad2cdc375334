import CoppiceWallet.Store.Model

/-!
# Reconciling a run with the scanned chain

Pending transactions become confirmed once the wallet has scanned a block with them, and scheduled
again when a reorganisation takes that block away. A run whose parts are all confirmed deep enough
is complete.
-/

namespace CoppiceWallet.Store

open CoppiceWallet.Lib

def reconcileRow (chain : ChainView) (row : PendingTx) : PendingTx :=
  match chain.onChain row.txid, row.status with
  | true, .scheduled => { row with status := .confirmed }
  | true, .broadcasted => { row with status := .confirmed }
  -- A mined child that disappeared becomes broadcastable again, at its construction height.
  | false, .confirmed =>
    { row with
      status := .scheduled
      scheduleStartHeight := some row.targetHeight
      scheduledHeight := row.targetHeight }
  | _, _ => row

@[simp] theorem reconcileRow_txid (chain : ChainView) (row : PendingTx) :
    (reconcileRow chain row).txid = row.txid := by
  unfold reconcileRow
  split <;> rfl

/-- The rows that a reconciliation schedules again. -/
def unmined (chain : ChainView) (row : PendingTx) : Bool :=
  decide (row.status = .confirmed) && !chain.onChain row.txid

def reconcileRows (chain : ChainView) (db : RunState) : RunState :=
  if db.isTerminal then db
  else
    let reconciled := db.updatePending (fun _ => true) (reconcileRow chain) (reconcileRow_txid chain)
    if db.pending.rows.any (unmined chain) then reconciled.setPhase .broadcastScheduled none
    else reconciled

/-- An unfinished run does not wait for confirmations only. -/
def resumeMaterialization (db : RunState) : RunState :=
  if db.run.phase = .waitingMigrationConfirmations then db.setPhase .broadcastScheduled none else db

def completeRun (db : RunState) : RunState :=
  if db.isTerminal then db
  else { (db.setPhase .complete none).unlockNotes with children := .empty }

def completeConfirmedRun (chain : ChainView) (unpromotedCount : Nat) (db : RunState) : RunState :=
  let totalCount := db.pending.length
  if totalCount = 0 ∨ db.countPendingWithStatus .confirmed < totalCount then db
  else if db.plannedPartCount = 0 ∨ totalCount ≠ db.plannedPartCount ∨ 0 < unpromotedCount then
    resumeMaterialization db
  else if db.pending.rows.all (fun row => chain.trusted row.txid) then completeRun db
  else db

def reconcileRunConfirmations (chain : ChainView) (db : RunState) : RunState :=
  let db := reconcileRows chain db
  let unpromotedCount := db.unpromotedSignedChildPcztCount
  completeConfirmedRun chain unpromotedCount
    (if 0 < unpromotedCount then resumeMaterialization db else db)

theorem resumeMaterialization_pending (db : RunState) :
    (resumeMaterialization db).pending = db.pending := by
  unfold resumeMaterialization
  split <;> rfl

theorem completeRun_pending (db : RunState) : (completeRun db).pending = db.pending := by
  unfold completeRun
  split <;> rfl

variable {chain : ChainView} {db : RunState}

theorem reconcileRows_of_terminal (h : db.isTerminal = true) : reconcileRows chain db = db :=
  if_pos h

theorem resumeMaterialization_of_terminal (h : db.isTerminal = true) :
    resumeMaterialization db = db := by
  refine if_neg fun hphase => ?_
  rw [RunState.isTerminal,hphase] at h
  cases h

theorem completeConfirmedRun_pending (chain : ChainView) (unpromotedCount : Nat) (db : RunState) :
    (completeConfirmedRun chain unpromotedCount db).pending = db.pending := by
  unfold completeConfirmedRun
  dsimp only
  split
  · rfl
  · split
    · exact resumeMaterialization_pending db
    · split
      · exact completeRun_pending db
      · rfl

theorem reconcileRunConfirmations_of_terminal (h : db.isTerminal = true) :
    reconcileRunConfirmations chain db = db := by
  simp only [reconcileRunConfirmations,completeConfirmedRun,reconcileRows_of_terminal h,
    resumeMaterialization_of_terminal h,completeRun,h,ite_self,if_true]

theorem reconcileRows_pending (h : db.isTerminal = false) :
    (reconcileRows chain db).pending.rows = db.pending.rows.map (reconcileRow chain) := by
  have hrows : (db.updatePending (fun _ => true) (reconcileRow chain)
      (reconcileRow_txid chain)).pending.rows = db.pending.rows.map (reconcileRow chain) := by
    simp [RunState.updatePending,Table.update]
  unfold reconcileRows
  rw [if_neg (by simp [h])]
  dsimp only
  split
  · exact hrows
  · exact hrows

theorem reconcileRunConfirmations_pending (chain : ChainView) (db : RunState) :
    (reconcileRunConfirmations chain db).pending = (reconcileRows chain db).pending := by
  rw [reconcileRunConfirmations,completeConfirmedRun_pending]
  split
  · exact resumeMaterialization_pending _
  · rfl

theorem mem_reconcileRunConfirmations {row : PendingTx}
    (h : row ∈ (reconcileRunConfirmations chain db).pending.rows) :
    ∃ old ∈ db.pending.rows, row = if db.isTerminal then old else reconcileRow chain old := by
  rw [reconcileRunConfirmations_pending] at h
  cases hterminal : db.isTerminal with
  | true =>
    rw [reconcileRows_of_terminal hterminal] at h
    exact ⟨row,h,by simp⟩
  | false =>
    rw [reconcileRows_pending hterminal] at h
    obtain ⟨old,hold,rfl⟩ := List.mem_map.mp h
    exact ⟨old,hold,by simp⟩

end CoppiceWallet.Store
