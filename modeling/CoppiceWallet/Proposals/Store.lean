import CoppiceWallet.Lib.Result
import CoppiceWallet.Lib.Table
import CoppiceWallet.Store.Model

/-!
# Stored proposals and their input locks

A proposal waits in memory, beside the capability to unlock its inputs. The locks are rows of the
wallet database, and a third table keeps what a later process needs to know about them.
-/

namespace CoppiceWallet.Proposals

open CoppiceWallet.Lib
open CoppiceWallet.Store (WalletNetwork)

structure LockOwner where
  bytes : Nat
  deriving DecidableEq

inductive PoolType
  | transparent
  | sapling
  | orchard
  | ironwood
  deriving DecidableEq

structure OutputRef where
  txid : String
  pool : PoolType
  outputIndex : Nat
  deriving DecidableEq

/-- A proposal, as the outputs that `proposal_input_refs` finds in it. -/
structure Proposal where
  minTargetHeight : Nat
  inputRefs : List OutputRef

structure StoredProposal where
  proposalId : Nat
  proposal : Proposal
  network : WalletNetwork
  accountId : String
  sendFlowId : String

structure StoredProposalLock where
  proposal : Proposal
  network : WalletNetwork
  dbPath : String
  owner : LockOwner
  sendFlowId : String

/-- The maps behind the proposal-store mutex. -/
structure ProposalStore where
  proposals : Nat → Option StoredProposal
  locks : Nat → Option StoredProposalLock
  nextId : Nat

namespace ProposalStore

def empty : ProposalStore := ⟨fun _ => none,fun _ => none,1⟩

def removeProposal (store : ProposalStore) (id : Nat) : ProposalStore :=
  { store with proposals := Function.update store.proposals id none }

def removeLock (store : ProposalStore) (id : Nat) : ProposalStore :=
  { store with locks := Function.update store.locks id none }

@[simp] theorem removeProposal_proposals (store : ProposalStore) (id : Nat) :
    (store.removeProposal id).proposals id = none := by
  simp [removeProposal]

@[simp] theorem removeProposal_locks (store : ProposalStore) (id : Nat) :
    (store.removeProposal id).locks = store.locks := rfl

@[simp] theorem removeLock_locks (store : ProposalStore) (id : Nat) :
    (store.removeLock id).locks id = none := by
  simp [removeLock]

@[simp] theorem removeLock_proposals (store : ProposalStore) (id : Nat) :
    (store.removeLock id).proposals = store.proposals := rfl

end ProposalStore

/-- A row of `vizor_send_proposal_locks`. -/
structure LockRow where
  owner : LockOwner
  sessionId : Nat
  output : OutputRef
  expiryHeight : Nat
  retainUntilExpiry : Bool

def LockRow.key (row : LockRow) : LockOwner × OutputRef := (row.owner,row.output)

abbrev LockRows := Table LockRow (LockOwner × OutputRef) LockRow.key

/-- The locks that the wallet crate keeps on outputs. A call that succeeds has these effects; whether
it succeeds is up to the database and to the locks of others. -/
structure OutputLockStore (W : Type) where
  lockOf : W → OutputRef → Option (LockOwner × Nat)
  lockOutputs : W → List OutputRef → LockOwner → Nat → W
  unlockOutput : W → OutputRef → LockOwner → W
  lockOf_lockOutputs : ∀ w refs owner expiry, ∀ ref ∈ refs,
    lockOf (lockOutputs w refs owner expiry) ref = some (owner,expiry)
  lockOf_unlockOutput : ∀ w ref owner, (lockOf w ref).map Prod.fst = some owner →
    lockOf (unlockOutput w ref owner) ref = none
  lockOf_unlockOutput_owner : ∀ w ref owner, (lockOf w ref).map Prod.fst ≠ some owner →
    lockOf (unlockOutput w ref owner) ref = lockOf w ref
  lockOf_unlockOutput_ne : ∀ w ref owner other, other ≠ ref →
    lockOf (unlockOutput w ref owner) other = lockOf w other

/-- What a process of the wallet works on: its memory, the two tables of the wallet database, its
session and the target height the wallet knows. -/
structure World (W : Type) where
  store : ProposalStore
  wallet : W
  rows : LockRows
  sessionId : Nat
  targetHeight : Option Nat

variable {W : Type} (db : OutputLockStore W)

/-- `persist`: the rows of a new owner. -/
def persist (rows : LockRows) (sessionId : Nat) (owner : LockOwner) (outputs : List OutputRef)
    (expiryHeight : Nat) : LockRows :=
  outputs.foldl (fun rows output => rows.replace ⟨owner,sessionId,output,expiryHeight,false⟩) rows

/-- `remove` -/
def removeRows (rows : LockRows) (owner : LockOwner) : LockRows :=
  rows.delete fun row => decide (row.owner = owner)

def recoveryRowMissing : String := "Send proposal lock recovery row no longer exists"

def markRetainUntilExpiry (rows : LockRows) (owner : LockOwner) : Except String LockRows :=
  if rows.count (fun row => decide (row.owner = owner)) = 0 then .error recoveryRowMissing
  else .ok (rows.update (fun row => decide (row.owner = owner))
    (fun row => { row with retainUntilExpiry := true }) fun _ => rfl)

def updateExpiry (rows : LockRows) (owner : LockOwner) (expiryHeight : Nat) :
    Except String LockRows :=
  if rows.count (fun row => decide (row.owner = owner)) = 0 then .error recoveryRowMissing
  else .ok (rows.update (fun row => decide (row.owner = owner))
    (fun row => { row with expiryHeight := expiryHeight }) fun _ => rfl)

/-- The locks of one owner, as `read_previous_session_locks` collects them. -/
structure OrphanLocks where
  owner : LockOwner
  expiry : Nat
  retain : Bool
  outputs : List OutputRef

def inconsistentMetadata : String := "Persisted send lock owner has inconsistent metadata"

/-- Enter a row into the map of owners. -/
def collectOrphan : List OrphanLocks → LockRow → Except String (List OrphanLocks)
  | [], row => .ok [⟨row.owner,row.expiryHeight,row.retainUntilExpiry,[row.output]⟩]
  | entry :: entries, row =>
    if entry.owner = row.owner then
      if entry.expiry = row.expiryHeight ∧ entry.retain = row.retainUntilExpiry then
        .ok ({ entry with outputs := entry.outputs ++ [row.output] } :: entries)
      else .error inconsistentMetadata
    else (collectOrphan entries row).map (entry :: ·)

def readPreviousSessionLocks (rows : LockRows) (sessionId : Nat) :
    Except String (List OrphanLocks) :=
  (rows.select fun row => decide (row.sessionId ≠ sessionId)).foldlM collectOrphan []

def shouldReleaseAfterRestart (retainUntilExpiry : Bool) (targetHeight : Option Nat)
    (expiryHeight : Nat) : Bool :=
  !retainUntilExpiry || targetHeight.any fun height => decide (expiryHeight ≤ height)

/-- Where `recover_previous_process` meets a failing database. -/
inductive RecoverFault
  | beforeUnlocking
  /-- So many outputs were unlocked before. -/
  | unlocking (unlocked : Nat)
  | deletingRows

def unlockOutputs (wallet : W) (outputs : List (OutputRef × LockOwner)) : W :=
  outputs.foldl (fun wallet output => db.unlockOutput wallet output.1 output.2) wallet

/-- The outputs that the next process unlocks. -/
def orphanOutputs (locks : List OrphanLocks) (targetHeight : Option Nat) :
    List (OutputRef × LockOwner) :=
  (locks.filter fun lock => shouldReleaseAfterRestart lock.retain targetHeight lock.expiry).flatMap
    fun lock => lock.outputs.map fun output => (output,lock.owner)

def removeOrphans (rows : LockRows) (locks : List OrphanLocks) (targetHeight : Option Nat) :
    LockRows :=
  (locks.filter fun lock => shouldReleaseAfterRestart lock.retain targetHeight lock.expiry).foldl
    (fun rows lock => removeRows rows lock.owner) rows

def recoverPreviousProcess (fault : Option RecoverFault) (world : World W) :
    Except String Unit × World W :=
  match readPreviousSessionLocks world.rows world.sessionId with
  | .error e => (.error e,world)
  | .ok [] => (.ok (),world)
  | .ok locks =>
    let outputs := orphanOutputs locks world.targetHeight
    match fault with
    | some .beforeUnlocking => (.error "Read target height for send lock recovery",world)
    | some (.unlocking unlocked) =>
      (.error "Release orphan send proposal input",
        { world with wallet := unlockOutputs db world.wallet (outputs.take unlocked) })
    | some .deletingRows =>
      (.error "Delete recovered send lock rows",
        { world with wallet := unlockOutputs db world.wallet outputs })
    | none =>
      (.ok (),{ world with
        wallet := unlockOutputs db world.wallet outputs
        rows := removeOrphans world.rows locks world.targetHeight })

def sendFlowMismatch : String := "Send flow mismatch"

/-- `consume_stored_proposal` -/
def consumeStoredProposal (proposalId : Nat) (sendFlowId notFoundMessage : String)
    (store : ProposalStore) : Except String (StoredProposal × ProposalStore) :=
  match store.proposals proposalId with
  | none => .error notFoundMessage
  | some stored =>
    if stored.sendFlowId = sendFlowId then .ok (stored,store.removeProposal proposalId)
    else .error sendFlowMismatch

def storedProposalLock (proposalId : Nat) (sendFlowId : String) (store : ProposalStore) :
    Except String StoredProposalLock :=
  match store.locks proposalId with
  | none => .error "Proposal input lock not found"
  | some lock => if lock.sendFlowId = sendFlowId then .ok lock else .error sendFlowMismatch

/-- `unlock_proposal_inputs` of the wallet crate, by one `unlock_output` after the other. -/
def unlockProposalInputs (wallet : W) (refs : List OutputRef) (owner : LockOwner) : W :=
  unlockOutputs db wallet (refs.map fun ref => (ref,owner))

/-- Where the unlocking section meets a failing database. -/
inductive UnlockFault
  | openingDb
  /-- So many inputs were unlocked before. -/
  | unlocking (unlocked : Nat)
  | removingRows

/-- The section of `unlock_stored_proposal`, under the wallet write lock and the store mutex. -/
def unlockStoredProposal (proposalId : Nat) (sendFlowId : String) (fault : Option UnlockFault)
    (world : World W) : Except String Unit × World W :=
  match fault with
  | some .openingDb => (.error "Open wallet DB",world)
  | fault =>
    match world.store.locks proposalId with
    | none => (.ok (),world)
    | some current =>
      if current.sendFlowId ≠ sendFlowId then (.error "Send flow mismatch before DB unlock",world)
      else
        let refs := current.proposal.inputRefs
        match fault with
        | some (.unlocking unlocked) =>
          (.error "Unlock abandoned send proposal inputs",
            { world with
              wallet := unlockProposalInputs db world.wallet (refs.take unlocked) current.owner })
        | some _ =>
          (.error "Remove send proposal lock recovery rows",
            { world with wallet := unlockProposalInputs db world.wallet refs current.owner })
        | none =>
          (.ok (),{ world with
            wallet := unlockProposalInputs db world.wallet refs current.owner
            rows := removeRows world.rows current.owner
            store := world.store.removeLock proposalId })

/-- The section of `retain_stored_proposal_lock_until_expiry` that takes the capability, for the lock
that the call looked up. A fault is a failing `mark_retain_until_expiry`. -/
def retainStoredLock (proposalId : Nat) (sendFlowId : String) (lock : StoredProposalLock)
    (fault : Bool) (world : World W) : Except String Unit × World W :=
  match world.store.locks proposalId with
  | none => (.ok (),world)
  | some current =>
    if current.sendFlowId ≠ sendFlowId ∨ current.owner ≠ lock.owner then
      (.error "Send flow changed before retaining DB lock",world)
    else if fault then (.error "Retain send proposal lock until expiry",world)
    else
      match markRetainUntilExpiry world.rows lock.owner with
      | .error e => (.error e,world)
      | .ok rows =>
        match world.store.proposals proposalId with
        | none => (.ok (),{ world with rows := rows, store := world.store.removeLock proposalId })
        | some stored =>
          if stored.sendFlowId ≠ sendFlowId then
            (.error sendFlowMismatch,{ world with rows := rows })
          else
            (.ok (),{ world with
              rows := rows
              store := (world.store.removeProposal proposalId).removeLock proposalId })

def sendProposalLockBlocks : Nat := 40

/-- Block heights saturate. -/
def sendProposalLockExpiry (minTargetHeight : Nat) : Nat :=
  min (minTargetHeight + sendProposalLockBlocks) (2 ^ 32 - 1)

def sendProposalIsExpired (minTargetHeight currentTargetHeight : Nat) : Bool :=
  decide (sendProposalLockExpiry minTargetHeight ≤ currentTargetHeight)

/-- `live_send_expiry_height` for the tip the server reports, and `send_expiry_height_for_live_tip`. -/
def sendExpiryHeightForLiveTip (minTargetHeight liveTip : Nat) : Except String Nat :=
  if 2 ^ 32 ≤ liveTip then .error "Live chain tip exceeds u32"
  else if 2 ^ 32 ≤ liveTip + 1 then .error "Live transaction target height overflow"
  else if sendProposalLockExpiry minTargetHeight ≤ liveTip + 1 then
    .error "Send proposal expired against the live chain tip"
  else if 2 ^ 32 ≤ max (liveTip + 1) minTargetHeight + sendProposalLockBlocks then
    .error "Live transaction expiry height overflow"
  else .ok (max (liveTip + 1) minTargetHeight + sendProposalLockBlocks)

/-- The end of `propose_send`: the rows, the locks, and the two entries under a new id. -/
def exposeProposal (lock : StoredProposalLock) (accountId : String) (world : World W) :
    Nat × World W :=
  let expiry := sendProposalLockExpiry lock.proposal.minTargetHeight
  let id := world.store.nextId
  (id,{ world with
    rows := persist world.rows world.sessionId lock.owner lock.proposal.inputRefs expiry
    wallet := db.lockOutputs world.wallet lock.proposal.inputRefs lock.owner expiry
    store :=
      { proposals := Function.update world.store.proposals id
          (some ⟨id,lock.proposal,lock.network,accountId,lock.sendFlowId⟩)
        locks := Function.update world.store.locks id (some lock)
        nextId := id + 1 } })

end CoppiceWallet.Proposals
