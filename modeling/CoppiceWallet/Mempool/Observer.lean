import CoppiceWallet.Lib.SeenCaches
import CoppiceWallet.Lib.Run
import Mathlib.Algebra.Group.Nat.Defs
import Mathlib.Data.List.Dedup
import Mathlib.Data.List.Sort

/-!
# The mempool observer

Each transaction of the mempool stream is looked up among the wallet's unmined transactions and
tried with the viewing keys. What belongs to the wallet is stored and announced once; what does not
is skipped for ten seconds. Between two deliveries the database may change in any way.
-/

namespace CoppiceWallet.Mempool

open CoppiceWallet.Lib

structure TransactionRow (Txid : Type) where
  txid : Txid
  minedHeight : Option Nat
  deriving DecidableEq

structure AccountTransactionRow (Txid Account : Type) where
  accountUuid : Account
  txid : Txid
  minedHeight : Option Nat
  deriving DecidableEq

/-- The tables that the lookup reads, and the viewing keys. -/
structure Wallet (Txid Account Keys : Type) where
  transactions : List (TransactionRow Txid)
  vTransactions : List (AccountTransactionRow Txid Account)
  ufvks : Keys

/-- The accounts of the outputs that were decrypted, pool by pool. -/
structure DecryptedTransaction (Account : Type) where
  saplingOutputs : List Account
  orchardOutputs : List Account
  ironwoodOutputs : List Account

/-- The transaction library: reading the bytes, the id, and the decryption with viewing keys at a
chain tip. The id commits to the outputs. -/
structure TransactionLibrary (Raw Tx Txid Account Keys : Type) where
  read : Raw → Option Tx
  txid : Tx → Txid
  decryptTransaction : Keys → Nat → Tx → DecryptedTransaction Account
  decrypt_txid : ∀ tx tx', txid tx = txid tx' → ∀ ufvks height,
    decryptTransaction ufvks height tx = decryptTransaction ufvks height tx'

structure MempoolTxEvent (Txid Account : Type) where
  txid : Txid
  accountUuids : List Account
  matched : Bool
  deriving DecidableEq

structure KnownPendingTx (Account : Type) where
  matched : Bool
  accountUuids : List Account

/-- One delivery: the bytes, the instants at which the clock is read, and how the calls to the
database end. -/
structure Delivery (Raw E : Type) where
  rawTx : Raw
  checkedAt : Nat
  unmatchedAt : Nat
  lookup : Except E Unit
  trialDecrypt : Except E Unit
  store : Except E Unit

/-- What the observer has done. -/
inductive ObserverAction (Txid Account : Type)
  | stored (txid : Txid) (accountUuids : List Account)
  | emitted (event : MempoolTxEvent Txid Account)
  | foundForeign (txid : Txid) (at' : Nat)
  deriving DecidableEq

structure Observer (Txid Account Keys : Type) where
  wallet : Wallet Txid Account Keys
  chainTipHeight : Nat
  seenCache : SeenCache Txid
  unmatchedCache : TtlCache Txid
  actions : List (ObserverAction Txid Account)

/-- Ten seconds, in nanoseconds. -/
def unmatchedTxidTtl : Nat := 10 * 10 ^ 9

section Handler

variable {Raw Tx Txid Account Keys E : Type} [DecidableEq Txid] [LinearOrder Account]

/-- A `BTreeSet` as the sorted list of its members. -/
def sortedSet (accounts : List Account) : List Account :=
  accounts.dedup.insertionSort (· ≤ ·)

omit [DecidableEq Txid] in
@[simp] theorem mem_sortedSet {account : Account} {accounts : List Account} :
    account ∈ sortedSet accounts ↔ account ∈ accounts := by
  simp [sortedSet]

def matchedUnmined (wallet : Wallet Txid Account Keys) (txid : Txid) : Bool :=
  wallet.transactions.any fun row => decide (row.txid = txid) && row.minedHeight.isNone

def unminedAccounts (wallet : Wallet Txid Account Keys) (txid : Txid) : List Account :=
  sortedSet ((wallet.vTransactions.filter fun row =>
    decide (row.txid = txid) && row.minedHeight.isNone).map (·.accountUuid))

def lookupKnownPendingTx (outcome : Except E Unit) (wallet : Wallet Txid Account Keys)
    (txid : Txid) : Except E (KnownPendingTx Account) := do
  outcome
  .ok { matched := matchedUnmined wallet txid, accountUuids := unminedAccounts wallet txid }

def trialDecryptAccountUuids (lib : TransactionLibrary Raw Tx Txid Account Keys)
    (outcome : Except E Unit) (ufvks : Keys) (chainTipHeight : Nat) (tx : Tx) :
    Except E (List Account) := do
  outcome
  let decrypted := lib.decryptTransaction ufvks chainTipHeight tx
  .ok (sortedSet (decrypted.saplingOutputs ++ decrypted.orchardOutputs ++
    decrypted.ironwoodOutputs))

def mergeAccountUuids (known decrypted : List Account) : List Account × Bool :=
  (sortedSet (known ++ decrypted),
    decrypted.any fun account => !decide (account ∈ known))

/-- The stored transaction has a row for each account the decryption found, mined where the
transaction already was. -/
def storedRows (wallet : Wallet Txid Account Keys) (txid : Txid) (accounts : List Account) :
    Wallet Txid Account Keys :=
  match wallet.transactions.find? fun row => decide (row.txid = txid) with
  | some row => { wallet with
      vTransactions := wallet.vTransactions ++ accounts.map fun account =>
        ⟨account,txid,row.minedHeight⟩ }
  | none => { wallet with
      transactions := wallet.transactions ++ [⟨txid,none⟩]
      vTransactions := wallet.vTransactions ++ accounts.map fun account => ⟨account,txid,none⟩ }

/-- A call that fails leaves the database as it was. -/
def decryptAndStoreTransaction (lib : TransactionLibrary Raw Tx Txid Account Keys)
    (outcome : Except E Unit) (s : Observer Txid Account Keys) (tx : Tx) :
    Except E (Observer Txid Account Keys) := do
  outcome
  let accounts ← trialDecryptAccountUuids lib (.ok ()) s.wallet.ufvks s.chainTipHeight tx
  .ok { s with
    wallet := storedRows s.wallet (lib.txid tx) accounts
    actions := s.actions ++ [.stored (lib.txid tx) accounts] }

def emitWalletRelevantTx (txid : Txid) (accountUuids : List Account)
    (s : Observer Txid Account Keys) : Observer Txid Account Keys :=
  { s with
    seenCache := s.seenCache.insert txid
    actions := s.actions ++ [.emitted ⟨txid,accountUuids,true⟩] }

/-- The branch of a transaction that the wallet has as unmined. -/
def handleKnown (lib : TransactionLibrary Raw Tx Txid Account Keys) (d : Delivery Raw E) (tx : Tx)
    (known : KnownPendingTx Account) (s : Observer Txid Account Keys) :
    Observer Txid Account Keys :=
  let decrypted :=
    match trialDecryptAccountUuids lib d.trialDecrypt s.wallet.ufvks s.chainTipHeight tx with
    | .ok accounts => accounts
    | .error _ => []
  let merged := mergeAccountUuids known.accountUuids decrypted
  if merged.2 then
    match decryptAndStoreTransaction lib d.store s tx with
    | .ok s => emitWalletRelevantTx (lib.txid tx) merged.1 s
    -- a store that failed is only logged
    | .error _ => emitWalletRelevantTx (lib.txid tx) known.accountUuids s
  else emitWalletRelevantTx (lib.txid tx) known.accountUuids s

/-- The branch of a transaction that the wallet does not have. -/
def handleUnknown (lib : TransactionLibrary Raw Tx Txid Account Keys) (d : Delivery Raw E) (tx : Tx)
    (s : Observer Txid Account Keys) : Observer Txid Account Keys :=
  let skip := s.unmatchedCache.containsUnexpired (lib.txid tx) d.checkedAt
  let s := { s with unmatchedCache := skip.2 }
  if skip.1 then s
  else
    match trialDecryptAccountUuids lib d.trialDecrypt s.wallet.ufvks s.chainTipHeight tx with
    | .error _ => s
    | .ok accounts =>
      if accounts.isEmpty then
        { s with
          unmatchedCache := s.unmatchedCache.insert (lib.txid tx) d.unmatchedAt
          actions := s.actions ++ [.foundForeign (lib.txid tx) d.unmatchedAt] }
      else
        match decryptAndStoreTransaction lib d.store s tx with
        | .ok s => emitWalletRelevantTx (lib.txid tx) accounts s
        | .error _ => s

def handleMempoolTx (lib : TransactionLibrary Raw Tx Txid Account Keys) (d : Delivery Raw E)
    (s : Observer Txid Account Keys) : Observer Txid Account Keys :=
  match lib.read d.rawTx with
  | none => s
  | some tx =>
    if s.seenCache.contains (lib.txid tx) then s
    else
      match lookupKnownPendingTx d.lookup s.wallet (lib.txid tx) with
      | .error _ => s
      | .ok known =>
        if known.matched || !known.accountUuids.isEmpty then handleKnown lib d tx known s
        else handleUnknown lib d tx s

inductive ObserverEvent (Raw Txid Account Keys E : Type)
  | deliver (delivery : Delivery Raw E)
  /-- The wallet's rows or keys change. -/
  | evolve (wallet : Wallet Txid Account Keys)
  | reconnect (chainTipHeight : Nat)

def observerStep (lib : TransactionLibrary Raw Tx Txid Account Keys) :
    ObserverEvent Raw Txid Account Keys E → Observer Txid Account Keys →
      Except Unit (Observer Txid Account Keys)
  | .deliver d, s => .ok (handleMempoolTx lib d s)
  | .evolve wallet, s => .ok { s with wallet := wallet }
  | .reconnect chainTipHeight, s => .ok { s with chainTipHeight := chainTipHeight }

def initialObserver (wallet : Wallet Txid Account Keys) (chainTipHeight : Nat) :
    Observer Txid Account Keys where
  wallet := wallet
  chainTipHeight := chainTipHeight
  seenCache := SeenCache.new 2048
  unmatchedCache := TtlCache.new 2048 unmatchedTxidTtl
  actions := []

end Handler

end CoppiceWallet.Mempool
