import CoppiceWallet.Names.Lifecycle

/-!
# The transaction history

A row and its outputs are summarised into amounts, the amounts into the rows that are shown. The
details of a shown row select its outputs by rules of their own.
-/

namespace CoppiceWallet.Activity

open CoppiceWallet.Store (Bytes Text)
open CoppiceWallet.Names (requiredBondZatoshis)

structure TxBase where
  txid : Bytes
  transactionId : Int
  minedHeight : Option Nat
  expiredUnmined : Bool
  accountBalanceDelta : Int
  fee : Nat
  blockTime : Nat
  totalSpent : Nat
  totalReceived : Nat
  isShielding : Bool
  expiryHeight : Option Int
  txIndex : Int
  created : Option String
  createdTime : Nat
  spentOrchardNote : Bool

structure TxOutput where
  outputPool : Int
  fromAccountUuid : Option Bytes
  toAccountUuid : Option Bytes
  sentToAddress : Option String
  toKeyScope : Option Int
  value : Nat
  noteVersion : Option Int

def ironwoodNoteVersion : Int := 3

def transparentPool : Int := 0

def saplingPool : Int := 2

def orchardPool : Int := 3

def ironwoodPool : Int := 4

def u64Limit : Nat := 2 ^ 64

/-- `u64::saturating_add` -/
def saturatingAdd (a b : Nat) : Nat := min (a + b) (u64Limit - 1)

def TxBase.expiryKey (base : TxBase) : Int := base.expiryHeight.getD (-1)

def TxBase.displayTimestamp (base : TxBase) : Nat :=
  if 0 < base.blockTime then base.blockTime else base.createdTime

def TxOutput.fromOwn (output : TxOutput) (account : Bytes) : Bool :=
  decide (output.fromAccountUuid = some account)

def TxOutput.toOwn (output : TxOutput) (account : Bytes) : Bool :=
  decide (output.toAccountUuid = some account)

def isShieldedPool (pool : Int) : Bool :=
  decide (pool = saplingPool ∨ pool = orchardPool ∨ pool = ironwoodPool)

def isIronwoodOutput (output : TxOutput) : Bool :=
  decide (output.outputPool = ironwoodPool ∨ output.noteVersion = some ironwoodNoteVersion)

def isUserVisibleSelfOutput (output : TxOutput) : Bool :=
  let hasExternalOrForeignScope :=
    decide (output.toKeyScope = some 0 ∨ output.toKeyScope = some (-1))
  if output.outputPool = transparentPool then hasExternalOrForeignScope
  else if isShieldedPool output.outputPool then
    hasExternalOrForeignScope || output.sentToAddress.isSome
  else false

inductive DisplayPool
  | transparent
  | shielded
  | ironwood
  | unknown
  | mixed
  deriving DecidableEq

structure ActivityAmounts where
  amount : Nat
  hasTransparent : Bool
  hasShielded : Bool
  hasIronwood : Bool

namespace ActivityAmounts

def empty : ActivityAmounts := ⟨0,false,false,false⟩

def addOutput (amounts : ActivityAmounts) (output : TxOutput) : ActivityAmounts :=
  let amounts := { amounts with amount := saturatingAdd amounts.amount output.value }
  if output.outputPool = transparentPool then { amounts with hasTransparent := true }
  else if output.outputPool = saplingPool ∨ output.outputPool = orchardPool then
    { amounts with hasShielded := true }
  else if output.outputPool = ironwoodPool then { amounts with hasIronwood := true }
  else amounts

@[simp] theorem amount_addOutput (amounts : ActivityAmounts) (output : TxOutput) :
    (amounts.addOutput output).amount = saturatingAdd amounts.amount output.value := by
  simp only [addOutput]
  split
  · rfl
  · split
    · rfl
    · split <;> rfl

def displayPool (amounts : ActivityAmounts) : DisplayPool :=
  match amounts.hasTransparent, amounts.hasShielded, amounts.hasIronwood with
  | true, false, false => .transparent
  | false, true, false => .shielded
  | false, false, true => .ironwood
  | false, false, false => .unknown
  | _, _, _ => .mixed

end ActivityAmounts

structure ActivitySummary where
  sent : ActivityAmounts
  received : ActivityAmounts
  shielded : ActivityAmounts
  internalIronwoodTransition : ActivityAmounts
  ownTransparentOutputAmount : Nat
  hasOwnTransparentOutput : Bool
  hasExternalTransparentSend : Bool

def ActivitySummary.empty : ActivitySummary :=
  ⟨.empty,.empty,.empty,.empty,0,false,false⟩

/-- `output.output_pool == 0 && from_own && to_own` -/
def ActivitySummary.addOwnTransparent (account : Bytes) (output : TxOutput)
    (summary : ActivitySummary) : ActivitySummary :=
  if output.outputPool = transparentPool ∧ output.fromOwn account = true ∧
      output.toOwn account = true then
    { summary with
      hasOwnTransparentOutput := true
      ownTransparentOutputAmount :=
        saturatingAdd summary.ownTransparentOutputAmount output.value }
  else summary

section AddOwnTransparent

variable (account : Bytes) (output : TxOutput) (summary : ActivitySummary)

@[simp] theorem addOwnTransparent_sent :
    (summary.addOwnTransparent account output).sent = summary.sent := by
  unfold ActivitySummary.addOwnTransparent
  split <;> rfl

@[simp] theorem addOwnTransparent_received :
    (summary.addOwnTransparent account output).received = summary.received := by
  unfold ActivitySummary.addOwnTransparent
  split <;> rfl

@[simp] theorem addOwnTransparent_shielded :
    (summary.addOwnTransparent account output).shielded = summary.shielded := by
  unfold ActivitySummary.addOwnTransparent
  split <;> rfl

@[simp] theorem addOwnTransparent_transition :
    (summary.addOwnTransparent account output).internalIronwoodTransition =
      summary.internalIronwoodTransition := by
  unfold ActivitySummary.addOwnTransparent
  split <;> rfl

@[simp] theorem addOwnTransparent_external :
    (summary.addOwnTransparent account output).hasExternalTransparentSend =
      summary.hasExternalTransparentSend := by
  unfold ActivitySummary.addOwnTransparent
  split <;> rfl

end AddOwnTransparent

def visibleSent (account : Bytes) (output : TxOutput) : Bool :=
  output.fromOwn account && (!output.toOwn account ||
    (output.fromOwn account && output.toOwn account && isUserVisibleSelfOutput output))

def visibleReceived (account : Bytes) (output : TxOutput) : Bool :=
  output.toOwn account && (!output.fromOwn account ||
    (output.fromOwn account && output.toOwn account && isUserVisibleSelfOutput output))

def ActivitySummary.addVisible (account : Bytes) (output : TxOutput) (summary : ActivitySummary) :
    ActivitySummary :=
  let summary :=
    if visibleSent account output then
      { summary with
        sent := summary.sent.addOutput output
        hasExternalTransparentSend := summary.hasExternalTransparentSend ||
          (decide (output.outputPool = transparentPool) && !output.toOwn account) }
    else summary
  if visibleReceived account output then
    { summary with received := summary.received.addOutput output }
  else summary

section AddVisible

variable (account : Bytes) (output : TxOutput) (summary : ActivitySummary)

@[simp] theorem addVisible_sent : (summary.addVisible account output).sent =
    if visibleSent account output then summary.sent.addOutput output else summary.sent := by
  unfold ActivitySummary.addVisible
  split <;> split <;> rfl

@[simp] theorem addVisible_received : (summary.addVisible account output).received =
    if visibleReceived account output then summary.received.addOutput output
    else summary.received := by
  unfold ActivitySummary.addVisible
  split <;> split <;> rfl

@[simp] theorem addVisible_shielded :
    (summary.addVisible account output).shielded = summary.shielded := by
  unfold ActivitySummary.addVisible
  split <;> split <;> rfl

@[simp] theorem addVisible_transition :
    (summary.addVisible account output).internalIronwoodTransition =
      summary.internalIronwoodTransition := by
  unfold ActivitySummary.addVisible
  split <;> split <;> rfl

@[simp] theorem addVisible_external :
    (summary.addVisible account output).hasExternalTransparentSend =
      (summary.hasExternalTransparentSend || (visibleSent account output &&
        (decide (output.outputPool = transparentPool) && !output.toOwn account))) := by
  unfold ActivitySummary.addVisible
  split <;> split <;> simp_all

end AddVisible

/-- An output that moves value from Orchard to Ironwood within the account. -/
def isTransition (base : TxBase) (account : Bytes) (output : TxOutput) : Bool :=
  output.fromOwn account && output.toOwn account && base.spentOrchardNote && isIronwoodOutput output

/-- One round of the loop of `summarize_activity_outputs`. -/
def summarizeOutput (base : TxBase) (account : Bytes) (summary : ActivitySummary)
    (output : TxOutput) : ActivitySummary :=
  if base.isShielding then
    if output.toOwn account && isShieldedPool output.outputPool then
      { summary with shielded := summary.shielded.addOutput output }
    else summary
  else if isTransition base account output then
    { summary with
      internalIronwoodTransition := summary.internalIronwoodTransition.addOutput output }
  else (summary.addOwnTransparent account output).addVisible account output

def summarizeActivityOutputs (base : TxBase) (outputs : List TxOutput) (account : Bytes) :
    ActivitySummary :=
  outputs.foldl (summarizeOutput base account) .empty

inductive TxKind
  | shielded
  | migration
  | sent
  | received
  | receiving
  | unknown
  /-- What the Names activity of the account calls the transaction. -/
  | names (label : String)
  deriving DecidableEq

structure TransactionInfo where
  txidHex : Text
  minedHeight : Nat
  expiredUnmined : Bool
  accountBalanceDelta : Int
  fee : Nat
  blockTime : Nat
  isTransparent : Bool
  txKind : TxKind
  displayAmount : Nat
  displayPool : DisplayPool
  createdTime : Nat

structure ClassifiedTx where
  info : TransactionInfo
  sortPendingRank : Nat
  sortTimestamp : Nat
  sortMinedHeight : Nat
  txIndex : Int
  rowOrder : Nat

/-- `hex::encode` -/
def hexEncode (bytes : Bytes) : Text :=
  bytes.flatMap fun byte => [Nat.digitChar (byte.toNat / 16),Nat.digitChar (byte.toNat % 16)]

def buildClassifiedTxWithFee (base : TxBase) (txKind : TxKind) (displayAmount : Nat)
    (displayPool : DisplayPool) (isTransparent : Bool) (rowOrder fee : Nat) : ClassifiedTx where
  info :=
    { txidHex := hexEncode base.txid
      minedHeight := base.minedHeight.getD 0
      expiredUnmined := base.expiredUnmined
      accountBalanceDelta := base.accountBalanceDelta
      fee := fee
      blockTime := base.blockTime
      isTransparent := isTransparent
      txKind := txKind
      displayAmount := displayAmount
      displayPool := displayPool
      createdTime := base.createdTime }
  sortPendingRank := if base.minedHeight.isNone && !base.expiredUnmined then 1 else 0
  sortTimestamp := base.displayTimestamp
  sortMinedHeight := base.minedHeight.getD 0
  txIndex := base.txIndex
  rowOrder := rowOrder

def buildClassifiedTx (base : TxBase) (txKind : TxKind) (displayAmount : Nat)
    (displayPool : DisplayPool) (isTransparent : Bool) (rowOrder : Nat) : ClassifiedTx :=
  buildClassifiedTxWithFee base txKind displayAmount displayPool isTransparent rowOrder base.fee

def receivingTxKind (base : TxBase) : TxKind :=
  if base.minedHeight.isNone && !base.expiredUnmined then .receiving else .received

def isInternalIronwoodTransition (base : TxBase) (summary : ActivitySummary) : Bool :=
  !base.isShielding && base.spentOrchardNote && decide (0 < base.totalSpent) &&
    decide (0 < summary.internalIronwoodTransition.amount) && decide (summary.sent.amount = 0) &&
    decide (summary.received.amount = 0)

/-- The rows of a transaction that its outputs say nothing about. -/
def fallbackRows (base : TxBase) : List ClassifiedTx :=
  let sentAmount := base.accountBalanceDelta.natAbs - base.fee
  if base.minedHeight.isNone && decide (base.accountBalanceDelta < 0) &&
      decide (0 < base.totalSpent) && decide (0 < sentAmount) then
    [buildClassifiedTx base .sent sentAmount .unknown false 1]
  else if 0 < base.totalSpent ∧ 0 < base.totalReceived then []
  else if 0 < base.accountBalanceDelta then
    [buildClassifiedTx base (receivingTxKind base) base.accountBalanceDelta.toNat .unknown false 2]
  else [buildClassifiedTx base .unknown 0 .unknown false 3]

def amountRows (base : TxBase) (summary : ActivitySummary) (extraSentFee : Nat) :
    List ClassifiedTx :=
  (if 0 < summary.sent.amount then
    [buildClassifiedTxWithFee base .sent summary.sent.amount summary.sent.displayPool
      summary.sent.hasTransparent 1 (saturatingAdd base.fee extraSentFee)]
  else []) ++
  (if 0 < summary.received.amount then
    [buildClassifiedTx base (receivingTxKind base) summary.received.amount
      summary.received.displayPool summary.received.hasTransparent 2]
  else [])

def classifyHistoryTx (base : TxBase) (summary : ActivitySummary) (extraSentFee : Nat) :
    List ClassifiedTx :=
  if base.isShielding then
    [buildClassifiedTx base .shielded
      (if 0 < summary.shielded.amount then summary.shielded.amount else base.totalReceived)
      .shielded false 0]
  else if isInternalIronwoodTransition base summary then
    [buildClassifiedTx base .migration summary.internalIronwoodTransition.amount .ironwood false 1]
  else
    let rows := amountRows base summary extraSentFee
    if rows.isEmpty then fallbackRows base else rows

def detailIncludesOutput (base : TxBase) (output : TxOutput) (account : Bytes) : TxKind → Bool
  | .shielded => base.isShielding && output.toOwn account && isShieldedPool output.outputPool
  | .sent => !base.isShielding && output.fromOwn account &&
      (!output.toOwn account || isUserVisibleSelfOutput output)
  | .received | .receiving => !base.isShielding && output.toOwn account &&
      (!output.fromOwn account || isUserVisibleSelfOutput output)
  | .migration => !base.isShielding && output.fromOwn account && output.toOwn account &&
      base.spentOrchardNote && isIronwoodOutput output
  | .unknown | .names _ => false

end CoppiceWallet.Activity
