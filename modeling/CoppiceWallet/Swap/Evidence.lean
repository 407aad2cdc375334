import CoppiceWallet.Lib.Run
import CoppiceWallet.Swap.Intents

/-! # Evidence of a deposit -/

namespace CoppiceWallet.Swap

open CoppiceWallet.Lib

def depositedAmountPositive (info : Option SwapProviderRefundInfo) : Bool :=
  info.bind (·.depositedAmountPositive) = some true

/-- A deposit hash that is not only on this device. -/
def SwapIntent.holdsDeposit (record : SwapIntent) : Bool :=
  hasText record.depositTxHash && record.broadcastStatus ≠ some pendingBroadcast

def SwapIntent.holdsEvidence (record : SwapIntent) : Bool :=
  hasText record.originChainTxHash || depositedAmountPositive record.providerRefundInfo ||
    record.holdsDeposit

def isDue (deadline : Option Nat) (now : Nat) : Bool := deadline.any fun deadline => deadline ≤ now

theorem hasDepositEvidence_of_holds {record : SwapIntent} (h : record.holdsEvidence = true) :
    record.hasDepositEvidence = true := by
  simp only [SwapIntent.holdsEvidence,SwapIntent.holdsDeposit,depositedAmountPositive,
    Bool.or_eq_true] at h
  simp only [SwapIntent.hasDepositEvidence,swapHasProviderObservedDepositEvidence,
    swapHasConfirmedDepositEvidence,Bool.or_eq_true]
  rcases h with (h | h) | h
  · exact .inl (.inl (.inl h))
  · exact .inl (.inl (.inr h))
  · exact .inr (.inr h)

theorem resolve_eq (status : SwapIntentStatus) (deadline : Option Nat) (evidence : Bool) (now : Nat) :
    resolveDepositDeadlineStatus status deadline evidence now =
      if status.isAwaitingDeposit && !evidence && isDue deadline now then .expired else status := by
  cases deadline with
  | none => simp [resolveDepositDeadlineStatus,isDue]
  | some deadline =>
    simp only [resolveDepositDeadlineStatus,isDue,Option.any_some]
    by_cases hnow : now < deadline
    · simp [hnow,Nat.not_le.mpr hnow]
    · cases status.isAwaitingDeposit <;> cases evidence <;> simp [hnow,Nat.le_of_not_lt hnow]

theorem fromRecord_status {record : SwapIntent} (h : record.holdsEvidence = true) (now : Nat) :
    (swapIntentFromRecord now record).status = record.status := by
  simp [swapIntentFromRecord,resolve_eq,hasDepositEvidence_of_holds h]

theorem fromRecord_holdsEvidence (now : Nat) (record : SwapIntent) :
    (swapIntentFromRecord now record).holdsEvidence = record.holdsEvidence := rfl

theorem hasDepositEvidence_awaiting {record : SwapIntent}
    (h : record.status.isAwaitingDeposit = true) :
    record.hasDepositEvidence = record.holdsEvidence := by
  have hstatus : record.status = .awaitingDeposit ∨ record.status = .awaitingExternalDeposit := by
    simpa [SwapIntentStatus.isAwaitingDeposit] using h
  unfold SwapIntent.hasDepositEvidence SwapIntent.holdsEvidence SwapIntent.holdsDeposit
    swapHasProviderObservedDepositEvidence swapHasConfirmedDepositEvidence depositedAmountPositive
  rcases hstatus with hstatus | hstatus
  · rw [hstatus]
    cases hasText record.originChainTxHash <;> simp
  · rw [hstatus]
    cases hasText record.originChainTxHash <;> simp

theorem fromRecord_status_of_none {record : SwapIntent} (h : record.holdsEvidence = false)
    (now : Nat) : (swapIntentFromRecord now record).status =
      if record.status.isAwaitingDeposit && isDue record.depositDeadline now then .expired
      else record.status := by
  simp only [swapIntentFromRecord,resolve_eq]
  cases hawaiting : record.status.isAwaitingDeposit with
  | false => simp
  | true => simp [hasDepositEvidence_awaiting hawaiting,h]

/-- The origin hash that is stored has text. -/
def keepsOrigin (record : SwapIntent) (snapshot : SwapIntentSnapshot) : Bool :=
  match snapshot.originChainTxHash with
  | none => hasText record.originChainTxHash
  | some hash => hasText (some hash)

/-- The deposited amount that is stored is positive. -/
def keepsAmount (record : SwapIntent) (snapshot : SwapIntentSnapshot) : Bool :=
  match snapshot.providerRefundInfo.bind (·.depositedAmountPositive) with
  | none => depositedAmountPositive record.providerRefundInfo
  | some positive => positive

def deadlineWith (record : SwapIntent) (snapshot : SwapIntentSnapshot) : Option Nat :=
  snapshot.deadline.orElse fun _ => record.depositDeadline

def mergedInfo (record : SwapIntent) (snapshot : SwapIntentSnapshot) :
    Option SwapProviderRefundInfo :=
  (record.providerRefundInfo.map (·.merge snapshot.providerRefundInfo)).orElse fun _ =>
    snapshot.providerRefundInfo

theorem hasText_stored (record : SwapIntent) (snapshot : SwapIntentSnapshot) :
    hasText (snapshot.originChainTxHash.orElse fun _ => record.originChainTxHash) =
      keepsOrigin record snapshot := by
  unfold keepsOrigin
  cases snapshot.originChainTxHash <;> rfl

theorem positive_stored (record : SwapIntent) (snapshot : SwapIntentSnapshot) :
    depositedAmountPositive (mergedInfo record snapshot) = keepsAmount record snapshot := by
  unfold mergedInfo keepsAmount depositedAmountPositive
  cases hrecord : record.providerRefundInfo with
  | none =>
    cases hsnapshot : snapshot.providerRefundInfo with
    | none => rfl
    | some info =>
      cases info with
      | mk amount => cases amount <;> simp
  | some info =>
    cases hsnapshot : snapshot.providerRefundInfo with
    | none => simp [SwapProviderRefundInfo.merge]
    | some other =>
      cases other with
      | mk amount => cases amount <;> simp [SwapProviderRefundInfo.merge]

/-- The record that an update stores, before it is restored. -/
def updatedRecord (record : SwapIntent) (snapshot : SwapIntentSnapshot) (status : SwapIntentStatus)
    (timestamp : Nat) (lastStatusCheckedAt : Option Nat) : SwapIntent :=
  { record with
    status := status
    nextAction := nextActionFor status snapshot.status snapshot.nextAction
    originChainTxHash := snapshot.originChainTxHash.orElse fun _ => record.originChainTxHash
    providerRefundInfo := mergedInfo record snapshot
    lastStatusCheckedAt := lastStatusCheckedAt.orElse fun _ => record.lastStatusCheckedAt
    depositAddress := record.depositAddress.orElse fun _ => some snapshot.depositAddress
    depositMemo := record.depositMemo.orElse fun _ => snapshot.depositMemo
    depositDeadline := deadlineWith record snapshot
    updatedAt := some timestamp
    completedAt := record.completedAt.orElse fun _ =>
      if status.isTerminal then some timestamp else none }

/-- The evidence that the first check of an update sees. -/
def checkedEvidence (record : SwapIntent) (snapshot : SwapIntentSnapshot) : Bool :=
  let originChainTxHash :=
    if hasText record.originChainTxHash then record.originChainTxHash
    else snapshot.originChainTxHash
  swapHasProviderObservedDepositEvidence snapshot.status originChainTxHash
      (mergedInfo record snapshot) ||
    swapHasConfirmedDepositEvidence originChainTxHash record.depositTxHash record.broadcastStatus

theorem updateSwapIntentFromSnapshot_eq (record : SwapIntent) (snapshot : SwapIntentSnapshot)
    (timestamp : Nat) (lastStatusCheckedAt : Option Nat) (now : Nat) :
    updateSwapIntentFromSnapshot record snapshot timestamp lastStatusCheckedAt now =
      swapIntentFromRecord now (updatedRecord record snapshot
        (resolveDepositDeadlineStatus snapshot.status (deadlineWith record snapshot)
          (checkedEvidence record snapshot) timestamp) timestamp lastStatusCheckedAt) := rfl

theorem updatedRecord_holdsEvidence (record : SwapIntent) (snapshot : SwapIntentSnapshot)
    (status : SwapIntentStatus) (timestamp : Nat) (lastStatusCheckedAt : Option Nat) :
    (updatedRecord record snapshot status timestamp lastStatusCheckedAt).holdsEvidence =
      (keepsOrigin record snapshot || keepsAmount record snapshot || record.holdsDeposit) := by
  rw [← hasText_stored,← positive_stored]
  rfl

theorem checkedEvidence_of_kept {record : SwapIntent} {snapshot : SwapIntentSnapshot}
    (h : (keepsOrigin record snapshot || keepsAmount record snapshot || record.holdsDeposit) = true) :
    checkedEvidence record snapshot = true := by
  rw [← positive_stored] at h
  simp only [Bool.or_eq_true] at h
  simp only [checkedEvidence,swapHasProviderObservedDepositEvidence,
    swapHasConfirmedDepositEvidence,Bool.or_eq_true]
  rcases h with (h | h) | h
  · have horigin : hasText (if hasText record.originChainTxHash = true then record.originChainTxHash
        else snapshot.originChainTxHash) = true := by
      split
      · assumption
      · rename_i hblank
        unfold keepsOrigin at h
        cases hsnapshot : snapshot.originChainTxHash with
        | none =>
          rw [hsnapshot] at h
          exact absurd h hblank
        | some hash =>
          rw [hsnapshot] at h
          exact h
    exact .inl (.inl (.inl horigin))
  · exact .inl (.inl (.inr h))
  · exact .inr (.inr h)

theorem update_holdsEvidence (record : SwapIntent) (snapshot : SwapIntentSnapshot)
    (timestamp : Nat) (lastStatusCheckedAt : Option Nat) (now : Nat) :
    (updateSwapIntentFromSnapshot record snapshot timestamp lastStatusCheckedAt now).holdsEvidence =
      (keepsOrigin record snapshot || keepsAmount record snapshot || record.holdsDeposit) := by
  rw [updateSwapIntentFromSnapshot_eq,fromRecord_holdsEvidence,updatedRecord_holdsEvidence]

theorem update_status {record : SwapIntent} {snapshot : SwapIntentSnapshot}
    (h : (keepsOrigin record snapshot || keepsAmount record snapshot || record.holdsDeposit) = true)
    (timestamp : Nat) (lastStatusCheckedAt : Option Nat) (now : Nat) :
    (updateSwapIntentFromSnapshot record snapshot timestamp lastStatusCheckedAt now).status =
      snapshot.status := by
  rw [updateSwapIntentFromSnapshot_eq,fromRecord_status]
  · simp [updatedRecord,resolve_eq,checkedEvidence_of_kept h]
  · rw [updatedRecord_holdsEvidence]
    exact h

theorem update_status_of_none {record : SwapIntent} {snapshot : SwapIntentSnapshot}
    (h : (keepsOrigin record snapshot || keepsAmount record snapshot || record.holdsDeposit) = false)
    (now : Nat) :
    (updateSwapIntentFromSnapshot record snapshot now none now).status =
      if snapshot.status.isAwaitingDeposit && isDue (deadlineWith record snapshot) now then .expired
      else snapshot.status := by
  rw [updateSwapIntentFromSnapshot_eq,fromRecord_status_of_none]
  · simp only [updatedRecord,resolve_eq]
    cases hawaiting : snapshot.status.isAwaitingDeposit with
    | false => simp [hawaiting]
    | true =>
      cases hdue : isDue (deadlineWith record snapshot) now with
      | false => simp
      | true =>
        cases checkedEvidence record snapshot with
        | false => simp
        | true => simp [hawaiting]
  · rw [updatedRecord_holdsEvidence]
    exact h

/-- A broadcast status that does not say that the deposit never left the device. -/
abbrev PublishedStatus := { status : Option String // status ≠ some pendingBroadcast }

inductive RecordStep
  | restore (now : Nat)
  | notice (notice : String) (status : PublishedStatus) (now : Nat)
  | checkpoint (txHash : String) (statusError broadcastNotice : Option String)
      (status : PublishedStatus) (clearStatusError clearBroadcastNotice : Bool) (now : Nat)
  | snapshot (snapshot : SwapIntentSnapshot) (timestamp : Nat) (lastStatusCheckedAt : Option Nat)
      (now : Nat)
  | depositSnapshot (snapshot : SwapIntentSnapshot) (txHash : String)
      (broadcastNotice : Option String) (now : Nat)

def RecordStep.apply (record : SwapIntent) : RecordStep → SwapIntent
  | .restore now => swapIntentFromRecord now record
  | .notice text status now => swapIntentWithBroadcastNotice record text status.1 now
  | .checkpoint txHash statusError broadcastNotice status clearStatusError clearBroadcastNotice now =>
    swapIntentWithDepositCheckpoint record txHash statusError broadcastNotice status.1
      clearStatusError clearBroadcastNotice now
  | .snapshot report timestamp lastStatusCheckedAt now =>
    updateSwapIntentFromSnapshot record report timestamp lastStatusCheckedAt now
  | .depositSnapshot report txHash broadcastNotice now =>
    swapIntentWithDepositSnapshot record report txHash broadcastNotice now

/-- The status that the provider reports in a step. -/
def RecordStep.reported : RecordStep → Option SwapIntentStatus
  | .snapshot report _ _ _ => some report.status
  | .depositSnapshot report _ _ _ => some report.status
  | _ => none

/-- Evidence remains, and the wallet has not expired the swap. -/
def StaysSeen (record : SwapIntent) (step : RecordStep) : Prop :=
  (step.apply record).holdsEvidence = true ∧
    ((step.apply record).status = .expired →
      record.status = .expired ∨ step.reported = some .expired)

/-- Some evidence is not overwritten by a blank hash or an amount that is not positive. A hash that
comes with a snapshot is stored after it, so that it counts for the deadline only if a hash was there
before. -/
def KeepsEvidence (record : SwapIntent) : RecordStep → Prop
  | .restore _ | .notice _ _ _ => True
  | .checkpoint txHash _ _ _ _ _ _ =>
    hasText record.originChainTxHash = true ∨
      depositedAmountPositive record.providerRefundInfo = true ∨ hasText (some txHash) = true
  | .snapshot snapshot _ _ _ =>
    keepsOrigin record snapshot = true ∨ keepsAmount record snapshot = true ∨
      record.holdsDeposit = true
  | .depositSnapshot snapshot txHash _ now =>
    keepsOrigin record snapshot = true ∨ keepsAmount record snapshot = true ∨
      (hasText (some txHash) = true ∧ record.broadcastStatus ≠ some pendingBroadcast ∧
        (hasText record.depositTxHash = true ∨ record.status = .expired ∨
          snapshot.status.isAwaitingDeposit = false ∨
          isDue (deadlineWith record snapshot) now = false))

section

variable {record : SwapIntent}

theorem staysSeen_of_restore {step : RecordStep} {stored : SwapIntent} {now : Nat}
    (happly : step.apply record = swapIntentFromRecord now stored)
    (hstatus : stored.status = record.status) :
    StaysSeen record step ↔ stored.holdsEvidence = true := by
  unfold StaysSeen
  rw [happly,fromRecord_holdsEvidence]
  constructor
  · exact And.left
  · intro h
    refine ⟨h,?_⟩
    rw [fromRecord_status h,hstatus]
    exact .inl

theorem staysSeen_notice (h : record.holdsEvidence = true) (notice : String)
    (status : PublishedStatus) (now : Nat) : StaysSeen record (.notice notice status now) := by
  refine (staysSeen_of_restore rfl ?_).mpr ?_
  · rfl
  simp only [SwapIntent.holdsEvidence,SwapIntent.holdsDeposit,Bool.or_eq_true,Bool.and_eq_true,
    decide_eq_true_eq] at h ⊢
  rcases h with h | h
  · exact .inl h
  · refine .inr ⟨h.1,?_⟩
    cases hstatus : status.1 with
    | none => exact h.2
    | some text =>
      intro heq
      exact status.2 (hstatus.trans heq)

theorem staysSeen_checkpoint (h : record.holdsEvidence = true) (txHash : String)
    (statusError broadcastNotice : Option String) (status : PublishedStatus)
    (clearStatusError clearBroadcastNotice : Bool) (now : Nat) :
    StaysSeen record (.checkpoint txHash statusError broadcastNotice status clearStatusError
      clearBroadcastNotice now) ↔
      hasText record.originChainTxHash = true ∨
        depositedAmountPositive record.providerRefundInfo = true ∨ hasText (some txHash) = true := by
  refine (staysSeen_of_restore rfl ?_).trans ?_
  · rfl
  simp only [SwapIntent.holdsEvidence,SwapIntent.holdsDeposit,Bool.or_eq_true,Bool.and_eq_true,
    decide_eq_true_eq,or_assoc] at h ⊢
  constructor
  · intro hkept
    rcases hkept with hkept | hkept | hkept
    · exact .inl hkept
    · exact .inr (.inl hkept)
    · exact .inr (.inr hkept.1)
  · intro hkept
    rcases hkept with hkept | hkept | hkept
    · exact .inl hkept
    · exact .inr (.inl hkept)
    · rcases h with h | h | h
      · exact .inl h
      · exact .inr (.inl h)
      · refine .inr (.inr ⟨hkept,?_⟩)
        split
        · simp
        · cases hstatus : status.1 with
          | none => exact h.2
          | some text =>
            intro heq
            exact status.2 (hstatus.trans heq)

theorem staysSeen_snapshot (snapshot : SwapIntentSnapshot) (timestamp : Nat)
    (lastStatusCheckedAt : Option Nat) (now : Nat) :
    StaysSeen record (.snapshot snapshot timestamp lastStatusCheckedAt now) ↔
      keepsOrigin record snapshot = true ∨ keepsAmount record snapshot = true ∨
        record.holdsDeposit = true := by
  unfold StaysSeen RecordStep.apply
  rw [update_holdsEvidence,← or_assoc,← Bool.or_eq_true,← Bool.or_eq_true]
  constructor
  · exact And.left
  · intro h
    refine ⟨h,?_⟩
    rw [update_status h]
    intro hstatus
    exact .inr (congrArg some hstatus)

variable (record) in
theorem depositSnapshot_eq (snapshot : SwapIntentSnapshot) (txHash : String)
    (broadcastNotice : Option String) (now : Nat) :
    (swapIntentWithDepositSnapshot record snapshot txHash broadcastNotice now).holdsEvidence =
        (keepsOrigin record snapshot || keepsAmount record snapshot ||
          (hasText (some txHash) && decide (record.broadcastStatus ≠ some pendingBroadcast))) ∧
      ((swapIntentWithDepositSnapshot record snapshot txHash broadcastNotice now).holdsEvidence =
          true →
        (swapIntentWithDepositSnapshot record snapshot txHash broadcastNotice now).status =
          (updateSwapIntentFromSnapshot record snapshot now none now).status) := by
  constructor
  · rw [← hasText_stored,← positive_stored]
    rfl
  · intro h
    simp only [swapIntentWithDepositSnapshot,fromRecord_holdsEvidence] at h ⊢
    rw [fromRecord_status h]

theorem update_status_iff {snapshot : SwapIntentSnapshot} {now : Nat} :
    ((updateSwapIntentFromSnapshot record snapshot now none now).status = .expired →
        record.status = .expired ∨ some snapshot.status = some .expired) ↔
      (keepsOrigin record snapshot || keepsAmount record snapshot || record.holdsDeposit) = true ∨
        record.status = .expired ∨ snapshot.status.isAwaitingDeposit = false ∨
        isDue (deadlineWith record snapshot) now = false := by
  cases hkept : (keepsOrigin record snapshot || keepsAmount record snapshot || record.holdsDeposit)
    with
  | true =>
    rw [update_status hkept]
    exact iff_of_true (fun h => .inr (congrArg some h)) (.inl rfl)
  | false =>
    rw [update_status_of_none hkept]
    cases hawaiting : snapshot.status.isAwaitingDeposit with
    | false => exact iff_of_true (fun h => .inr (congrArg some h)) (.inr (.inr (.inl rfl)))
    | true =>
      cases hdue : isDue (deadlineWith record snapshot) now with
      | false => exact iff_of_true (fun h => .inr (congrArg some h)) (.inr (.inr (.inr rfl)))
      | true =>
        have hreported : snapshot.status ≠ .expired := by
          intro heq
          rw [heq] at hawaiting
          cases hawaiting
        simp [hreported]

theorem staysSeen_depositSnapshot (snapshot : SwapIntentSnapshot) (txHash : String)
    (broadcastNotice : Option String) (now : Nat) :
    StaysSeen record (.depositSnapshot snapshot txHash broadcastNotice now) ↔
      KeepsEvidence record (.depositSnapshot snapshot txHash broadcastNotice now) := by
  obtain ⟨hevidence,hstatus⟩ := depositSnapshot_eq record snapshot txHash broadcastNotice now
  simp only [StaysSeen,KeepsEvidence,RecordStep.apply,RecordStep.reported]
  have hsplit : (swapIntentWithDepositSnapshot record snapshot txHash broadcastNotice
        now).holdsEvidence = true ∧
      ((swapIntentWithDepositSnapshot record snapshot txHash broadcastNotice now).status = .expired →
        record.status = .expired ∨ some snapshot.status = some .expired) ↔
      (swapIntentWithDepositSnapshot record snapshot txHash broadcastNotice
        now).holdsEvidence = true ∧
      ((updateSwapIntentFromSnapshot record snapshot now none now).status = .expired →
        record.status = .expired ∨ some snapshot.status = some .expired) :=
    and_congr_right fun h => by rw [hstatus h]
  rw [hsplit,update_status_iff,hevidence]
  cases keepsOrigin record snapshot with
  | true => simp
  | false =>
    cases keepsAmount record snapshot with
    | true => simp
    | false =>
      by_cases hpending : record.broadcastStatus = some pendingBroadcast
      · simp [hpending]
      · simp [SwapIntent.holdsDeposit,hpending]

theorem staysSeen_iff (h : record.holdsEvidence = true) (step : RecordStep) :
    StaysSeen record step ↔ KeepsEvidence record step := by
  cases step with
  | restore now => exact iff_of_true ((staysSeen_of_restore rfl rfl).mpr h) trivial
  | notice text status now => exact iff_of_true (staysSeen_notice h text status now) trivial
  | checkpoint txHash statusError broadcastNotice status clearStatusError clearBroadcastNotice now =>
    exact staysSeen_checkpoint h txHash statusError broadcastNotice status clearStatusError
      clearBroadcastNotice now
  | snapshot report timestamp lastStatusCheckedAt now =>
    exact staysSeen_snapshot report timestamp lastStatusCheckedAt now
  | depositSnapshot report txHash broadcastNotice now =>
    exact staysSeen_depositSnapshot report txHash broadcastNotice now

end

theorem run_status {record : SwapIntent} {steps : List RecordStep}
    (h : EveryStep RecordStep.apply StaysSeen record steps)
    (hexpired : (steps.foldl RecordStep.apply record).status = .expired) :
    record.status = .expired ∨ ∃ step ∈ steps, step.reported = some .expired := by
  induction steps generalizing record with
  | nil => exact .inl hexpired
  | cons step steps ih =>
    rcases ih h.2 hexpired with hfirst | hlater
    · rcases h.1.2 hfirst with hbefore | hreported
      · exact .inl hbefore
      · exact .inr ⟨step,List.mem_cons_self,hreported⟩
    · obtain ⟨later,hmem,hreported⟩ := hlater
      exact .inr ⟨later,List.mem_cons_of_mem _ hmem,hreported⟩

def resolveSwapRecordForDisplay (record : SwapIntent) (now : Nat) : SwapIntent :=
  let status := resolveDepositDeadlineStatus record.status record.depositDeadline
    record.hasDepositEvidence now
  if status = record.status then record
  else
    { record with
      status := status
      nextAction := nextActionFor status record.status record.nextAction }

theorem resolveSwapRecordForDisplay_status (record : SwapIntent) (now : Nat) :
    (resolveSwapRecordForDisplay record now).status = (swapIntentFromRecord now record).status := by
  unfold resolveSwapRecordForDisplay
  simp only
  split
  · rename_i hsame
    exact hsame.symm
  · rfl

theorem restored_resolves (record : SwapIntent) (now : Nat) :
    resolveDepositDeadlineStatus (swapIntentFromRecord now record).status record.depositDeadline
      (swapIntentFromRecord now record).hasDepositEvidence now =
      (swapIntentFromRecord now record).status := by
  have hstatus : (swapIntentFromRecord now record).status =
      resolveDepositDeadlineStatus record.status record.depositDeadline record.hasDepositEvidence
        now := rfl
  rw [resolve_eq] at hstatus
  split at hstatus
  · rw [hstatus]
    simp [resolve_eq,SwapIntentStatus.isAwaitingDeposit]
  · rename_i hkept
    have hevidence : (swapIntentFromRecord now record).hasDepositEvidence =
        record.hasDepositEvidence := by
      unfold SwapIntent.hasDepositEvidence
      rw [hstatus]
      rfl
    rw [hevidence,hstatus,resolve_eq,if_neg hkept]

theorem restore_idempotent (record : SwapIntent) (now : Nat) :
    swapIntentFromRecord now (swapIntentFromRecord now record) = swapIntentFromRecord now record := by
  have hresolve := restored_resolves record now
  generalize hrestored : swapIntentFromRecord now record = restored at hresolve ⊢
  have hdeadline : restored.depositDeadline = record.depositDeadline := by
    rw [← hrestored]
    rfl
  have hcompleted : (restored.completedAt.orElse fun _ =>
      if restored.status.isTerminal = true ∧ restored.status ≠ restored.status then some now
      else none) = restored.completedAt := by
    simp
  have haction : nextActionFor restored.status restored.status restored.nextAction =
      restored.nextAction := by
    simp [nextActionFor]
  unfold swapIntentFromRecord
  rw [hdeadline,hresolve]
  simp only
  rw [hcompleted,haction,← hdeadline]

/-- A deposit of an external asset that the provider has reported the amount of. -/
def reportedDeposit : SwapIntent where
  id := "1"
  status := .awaitingExternalDeposit
  nextAction := "Deposit"
  direction := some .externalToZec
  depositAddress := some "bc1"
  depositMemo := none
  depositTxHash := none
  providerQuoteId := some "q1"
  originChainTxHash := none
  providerRefundInfo := some ⟨some true⟩
  lastStatusCheckedAt := none
  statusError := none
  broadcastNotice := none
  broadcastStatus := none
  depositDeadline := some 100
  accountUuid := some "a"
  updatedAt := some 50
  completedAt := none
  depositClaimedAt := none

/-- A later report, which says again that a deposit is awaited, and that its amount is zero. -/
def emptyReport : SwapIntentSnapshot where
  id := "1"
  status := .awaitingExternalDeposit
  nextAction := "Deposit"
  depositAddress := "bc1"
  depositMemo := none
  deadline := none
  originChainTxHash := none
  providerRefundInfo := some ⟨some false⟩

end CoppiceWallet.Swap
