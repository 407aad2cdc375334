import Mathlib.Data.List.Basic

/-!
# Swap intents

A deposit checkpoint puts a transaction hash and its broadcast status into an intent, a provider
snapshot everything else but the claim of a deposit. The texts that are only shown, and what only
the provider reads, are left out.
-/

namespace CoppiceWallet.Swap

inductive SwapDirection
  | zecToExternal
  | externalToZec
  deriving DecidableEq

inductive SwapIntentStatus
  | awaitingDeposit
  | awaitingExternalDeposit
  | depositObserved
  | processing
  | providerStatusUnknown
  | incompleteDeposit
  | complete
  | refunded
  | expired
  | failed
  deriving DecidableEq

def SwapIntentStatus.isTerminal : SwapIntentStatus → Bool
  | .complete | .refunded | .expired | .failed => true
  | _ => false

/-- Of the provider's refund report, whether the amount that it names as deposited is positive. -/
structure SwapProviderRefundInfo where
  depositedAmountPositive : Option Bool
  deriving DecidableEq

def SwapProviderRefundInfo.merge (info : SwapProviderRefundInfo) :
    Option SwapProviderRefundInfo → SwapProviderRefundInfo
  | none => info
  | some other =>
    ⟨other.depositedAmountPositive.orElse fun _ => info.depositedAmountPositive⟩

/-- Times are in milliseconds. -/
structure SwapIntent where
  id : String
  status : SwapIntentStatus
  nextAction : String
  direction : Option SwapDirection
  depositAddress : Option String
  depositMemo : Option String
  depositTxHash : Option String
  providerQuoteId : Option String
  originChainTxHash : Option String
  providerRefundInfo : Option SwapProviderRefundInfo
  lastStatusCheckedAt : Option Nat
  statusError : Option String
  broadcastNotice : Option String
  broadcastStatus : Option String
  depositDeadline : Option Nat
  accountUuid : Option String
  updatedAt : Option Nat
  completedAt : Option Nat
  depositClaimedAt : Option Nat
  deriving DecidableEq

/-- What the provider reports of a swap. -/
structure SwapIntentSnapshot where
  id : String
  status : SwapIntentStatus
  nextAction : String
  depositAddress : String
  depositMemo : Option String
  deadline : Option Nat
  originChainTxHash : Option String
  providerRefundInfo : Option SwapProviderRefundInfo
  deriving DecidableEq

def trim (text : String) : String :=
  String.ofList
    ((text.toList.dropWhile Char.isWhitespace).reverse.dropWhile Char.isWhitespace).reverse

def hasText (text : Option String) : Bool :=
  text.any fun text => trim text ≠ ""

structure SwapDepositBroadcastResult where
  txHash : String
  status : String
  message : Option String
  deriving DecidableEq

def broadcasted : String := "broadcasted"
def pendingBroadcast : String := "pending_broadcast"
def partialBroadcast : String := "partial_broadcast"
def broadcastUnknown : String := "broadcast_unknown"
def broadcastedStorageFailed : String := "broadcasted_storage_failed"

def SwapDepositBroadcastResult.isCertain (broadcast : SwapDepositBroadcastResult) : Bool :=
  broadcast.status = broadcasted

def depositBroadcastNotice (status message : Option String) : Option String :=
  if !hasText status || status.map trim = some broadcasted then none
  else if hasText message then message.map trim
  else if status.map trim = some partialBroadcast then
    some "Some deposit transactions may have reached the network. Check activity before trying again."
  else if status.map trim = some pendingBroadcast then
    some "The deposit was created locally but could not be broadcast. Check activity before trying again."
  else if status.map trim = some broadcastUnknown then
    some "The transaction may have reached the network, but confirmation timed out. Check activity before trying again."
  else if status.map trim = some broadcastedStorageFailed then
    some "The transaction reached the network, but Vizor could not store it locally. Do not try again until sync or an explorer confirms the latest status."
  else some "The deposit status is uncertain. Check activity before trying again."

def shouldSubmitProviderDepositStatus (status : Option String) : Bool :=
  !hasText status || status.map trim = some broadcasted ||
    status.map trim = some broadcastedStorageFailed

def swapHasConfirmedDepositEvidence (originChainTxHash depositTxHash broadcastStatus : Option String) :
    Bool :=
  hasText originChainTxHash || hasText depositTxHash && broadcastStatus ≠ some pendingBroadcast

def swapHasProviderObservedDepositEvidence (status : SwapIntentStatus)
    (originChainTxHash : Option String) (providerRefundInfo : Option SwapProviderRefundInfo) :
    Bool :=
  hasText originChainTxHash ||
    providerRefundInfo.bind (·.depositedAmountPositive) = some true ||
    match status with
    | .depositObserved | .processing | .incompleteDeposit | .complete | .refunded => true
    | _ => false

def SwapIntent.hasDepositEvidence (record : SwapIntent) : Bool :=
  swapHasProviderObservedDepositEvidence record.status record.originChainTxHash
      record.providerRefundInfo ||
    swapHasConfirmedDepositEvidence record.originChainTxHash record.depositTxHash
      record.broadcastStatus

def SwapIntentSnapshot.hasDepositEvidence (snapshot : SwapIntentSnapshot) : Bool :=
  swapHasProviderObservedDepositEvidence snapshot.status snapshot.originChainTxHash
      snapshot.providerRefundInfo ||
    swapHasConfirmedDepositEvidence snapshot.originChainTxHash none none

def SwapIntentStatus.isAwaitingDeposit (status : SwapIntentStatus) : Bool :=
  status = .awaitingDeposit || status = .awaitingExternalDeposit

def resolveDepositDeadlineStatus (providerStatus : SwapIntentStatus) (deadline : Option Nat)
    (hasDepositEvidence : Bool) (now : Nat) : SwapIntentStatus :=
  match deadline with
  | none => providerStatus
  | some deadline =>
    if !providerStatus.isAwaitingDeposit || hasDepositEvidence || now < deadline then providerStatus
    else .expired

def nextActionFor (status reported : SwapIntentStatus) (nextAction : String) : String :=
  if status = .expired ∧ reported ≠ .expired then "Start a fresh quote" else nextAction

def swapIntentFromRecord (now : Nat) (record : SwapIntent) : SwapIntent :=
  let status := resolveDepositDeadlineStatus record.status record.depositDeadline
    record.hasDepositEvidence now
  { record with
    status := status
    nextAction := nextActionFor status record.status record.nextAction
    completedAt := record.completedAt.orElse fun _ =>
      if status.isTerminal ∧ record.status ≠ status then some now else none }

/-- The quote and the address plan of a swap that is started. -/
structure SwapQuote where
  direction : SwapDirection
  depositAddress : String
  depositMemo : Option String
  deadline : Option Nat
  providerQuoteId : Option String
  providerRefundInfo : Option SwapProviderRefundInfo
  deriving DecidableEq

def swapIntentFromSnapshot (snapshot : SwapIntentSnapshot) (quote : SwapQuote)
    (accountUuid : String) (now : Nat) : SwapIntent :=
  let depositDeadline := snapshot.deadline.orElse fun _ => quote.deadline
  let status := resolveDepositDeadlineStatus snapshot.status depositDeadline
    snapshot.hasDepositEvidence now
  swapIntentFromRecord now
    { id := snapshot.id
      status := status
      nextAction := nextActionFor status snapshot.status snapshot.nextAction
      direction := some quote.direction
      depositAddress := some quote.depositAddress
      depositMemo := quote.depositMemo
      depositTxHash := none
      providerQuoteId := quote.providerQuoteId
      originChainTxHash := snapshot.originChainTxHash
      providerRefundInfo := snapshot.providerRefundInfo.orElse fun _ => quote.providerRefundInfo
      lastStatusCheckedAt := none
      statusError := none
      broadcastNotice := none
      broadcastStatus := none
      depositDeadline := depositDeadline
      accountUuid := some accountUuid
      updatedAt := some now
      completedAt := if status.isTerminal then some now else none
      depositClaimedAt := none }

def swapIntentWithBroadcastNotice (intent : SwapIntent) (notice : String)
    (broadcastStatus : Option String) (now : Nat) : SwapIntent :=
  swapIntentFromRecord now
    { intent with
      statusError := some notice
      broadcastNotice := some notice
      broadcastStatus := broadcastStatus.orElse fun _ => intent.broadcastStatus
      updatedAt := some now }

def swapIntentWithDepositCheckpoint (intent : SwapIntent) (txHash : String)
    (statusError broadcastNotice broadcastStatus : Option String)
    (clearStatusError clearBroadcastNotice : Bool) (now : Nat) : SwapIntent :=
  swapIntentFromRecord now
    { intent with
      depositTxHash := some txHash
      statusError := if clearStatusError then none
        else (statusError.orElse fun _ => broadcastNotice).orElse fun _ => intent.statusError
      broadcastNotice := if clearBroadcastNotice then none
        else broadcastNotice.orElse fun _ => intent.broadcastNotice
      broadcastStatus := if broadcastStatus = none ∧ broadcastNotice = none then none
        else broadcastStatus.orElse fun _ => intent.broadcastStatus
      updatedAt := some now }

def updateSwapIntentFromSnapshot (intent : SwapIntent) (snapshot : SwapIntentSnapshot)
    (timestamp : Nat) (lastStatusCheckedAt : Option Nat) (now : Nat) : SwapIntent :=
  let providerRefundInfo :=
    (intent.providerRefundInfo.map (·.merge snapshot.providerRefundInfo)).orElse fun _ =>
      snapshot.providerRefundInfo
  let depositDeadline := snapshot.deadline.orElse fun _ => intent.depositDeadline
  let originChainTxHash :=
    if hasText intent.originChainTxHash then intent.originChainTxHash
    else snapshot.originChainTxHash
  let status := resolveDepositDeadlineStatus snapshot.status depositDeadline
    (swapHasProviderObservedDepositEvidence snapshot.status originChainTxHash
        providerRefundInfo ||
      swapHasConfirmedDepositEvidence originChainTxHash intent.depositTxHash
        intent.broadcastStatus) timestamp
  swapIntentFromRecord now
    { intent with
      status := status
      nextAction := nextActionFor status snapshot.status snapshot.nextAction
      originChainTxHash := snapshot.originChainTxHash.orElse fun _ => intent.originChainTxHash
      providerRefundInfo := providerRefundInfo
      lastStatusCheckedAt := lastStatusCheckedAt.orElse fun _ => intent.lastStatusCheckedAt
      depositAddress := intent.depositAddress.orElse fun _ => some snapshot.depositAddress
      depositMemo := intent.depositMemo.orElse fun _ => snapshot.depositMemo
      depositDeadline := depositDeadline
      updatedAt := some timestamp
      completedAt := intent.completedAt.orElse fun _ =>
        if status.isTerminal then some timestamp else none }

def swapIntentWithDepositSnapshot (intent : SwapIntent) (snapshot : SwapIntentSnapshot)
    (txHash : String) (broadcastNotice : Option String) (now : Nat) : SwapIntent :=
  let effectiveBroadcastNotice := broadcastNotice.orElse fun _ => intent.broadcastNotice
  swapIntentFromRecord now
    { updateSwapIntentFromSnapshot intent snapshot now none now with
      depositTxHash := some txHash
      statusError := effectiveBroadcastNotice
      broadcastNotice := effectiveBroadcastNotice
      updatedAt := some now }

/-- Intents that starts make, which say where the deposit goes and which account makes it. -/
structure SwapIntent.Addressed (intent : SwapIntent) : Prop where
  direction : intent.direction.isSome
  depositAddress : intent.depositAddress.isSome
  accountUuid : intent.accountUuid.isSome

def swapIntentById (intents : List SwapIntent) (intentId : String) : Option SwapIntent :=
  intents.find? fun intent => intent.id = intentId

def replaceSwapIntent (intents : List SwapIntent) (intentId : String) (updated : SwapIntent) :
    List SwapIntent :=
  intents.map fun intent => if intent.id = intentId then updated else intent

/-- The last refreshed intent with an id counts, as in a map literal. -/
def reconcileRefreshedSwapIntents (intents refreshedIntents : List SwapIntent)
    (refreshedIds : List String) : List SwapIntent :=
  intents.map fun current =>
    if current.id ∈ refreshedIds then
      (swapIntentById refreshedIntents.reverse current.id).getD current
    else current

/-- Whether an intent of the account is saved. -/
def isPersistableIntent (intent : SwapIntent) (accountUuid : String) : Bool :=
  intent.accountUuid = some accountUuid && intent.direction.isSome && intent.depositAddress.isSome &&
    (intent.providerQuoteId.isSome || intent.depositTxHash.isSome)

def shouldAutoRefreshIntent (intent : SwapIntent) (accountUuid : String) : Bool :=
  isPersistableIntent intent accountUuid && !intent.status.isTerminal

def canRefreshIntent (intent : SwapIntent) (accountUuid : String) (includeTerminal : Bool) : Bool :=
  if includeTerminal then intent.status ≠ .complete
  else isPersistableIntent intent accountUuid && !intent.status.isTerminal

end CoppiceWallet.Swap
