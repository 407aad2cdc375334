import Mathlib.Algebra.GroupWithZero.Nat
import Mathlib.Data.Char
import Mathlib.Data.List.Lex
import CoppiceWallet.Lib.Result
import CoppiceWallet.Lib.Table

/-!
# The rows of one migration run

The state is what the wallet database holds for one run: its row in the runs table, its pending
transactions, its retained signed children and its prepared notes. Where the source checks a `u32`
operation, so does the model. JSON columns are the values they decode to. `updated_at_ms` and the
other time hints are left out: no decision reads them.
-/

namespace CoppiceWallet.Store

open CoppiceWallet.Lib

abbrev StoreResult := Except String

def okOr {α : Type} (value : Option α) (message : String) : StoreResult α :=
  match value with
  | some value => .ok value
  | none => .error message

theorem okOr_some {α : Type} (a : α) (message : String) : okOr (some a) message = .ok a := rfl

theorem okOr_ok {α : Type} {value : Option α} {message : String} {a : α}
    (h : okOr value message = .ok a) : value = some a := by
  cases value with
  | none => cases h
  | some b =>
    cases h
    rfl

theorem okOr_error {α : Type} {value : Option α} {message e : String}
    (h : okOr value message = .error e) : e = message := by
  cases value with
  | none =>
    cases h
    rfl
  | some a => cases h

def u32Limit : Nat := 2 ^ 32

def checkedAddU32 (a b : Nat) : Option Nat := if a + b < u32Limit then some (a + b) else none

def saturatingAddU32 (a b : Nat) : Nat := min (a + b) (u32Limit - 1)

def checkedSub (a b : Nat) : Option Nat := if b ≤ a then some (a - b) else none

theorem checkedAddU32_eq_some {a b c : Nat} :
    checkedAddU32 a b = some c ↔ a + b = c ∧ c < u32Limit := by
  unfold checkedAddU32
  split
  · rw [Option.some.injEq]
    exact ⟨fun h => ⟨h,h ▸ ‹_›⟩,And.left⟩
  · constructor
    · intro h
      cases h
    · rintro ⟨rfl,h⟩
      exact absurd h ‹_›

theorem checkedSub_eq_some {a b c : Nat} : checkedSub a b = some c ↔ b ≤ a ∧ a - b = c := by
  unfold checkedSub
  split
  · rw [Option.some.injEq]
    exact (and_iff_right ‹_›).symm
  · constructor
    · intro h
      cases h
    · rintro ⟨h,_⟩
      exact absurd h ‹_›

/-- A text column. -/
abbrev Text := List Char

instance lawfulText : LawfulBEq Text := List.instLawfulBEq

/-- SQLite's `lower` and Rust's `to_ascii_lowercase`. -/
def lower (text : Text) : Text := text.map Char.toLower

/-- A transaction id as the wallet writes it: lower-case hexadecimal. -/
structure TxidHex where
  text : Text
  lowercase : lower text = text
  deriving DecidableEq

theorem TxidHex.eq_of_lower {a b : TxidHex} (h : lower a.text = lower b.text) : a = b := by
  rw [a.lowercase,b.lowercase] at h
  cases a
  cases b
  cases h
  rfl

abbrev Bytes := List UInt8

/-- The payload key opened with the password and the salt of the run. -/
structure PayloadKey where
  encrypt : Bytes → StoreResult Bytes
  decrypt : Bytes → StoreResult Bytes

/-- The key that leaves its payloads as they are. -/
instance : Inhabited PayloadKey := ⟨⟨.ok,.ok⟩⟩

inductive WalletNetwork
  | main
  | test
  | regtest
  deriving DecidableEq

inductive MigrationTimingPolicy
  | standard
  | standard90Minutes
  | standard90MinutesLatestAnchor
  | fastTestnet
  deriving DecidableEq

inductive Phase
  | noOrchardFunds
  | waitingForSpendableOrchard
  | waitingForIronwoodSpendability
  | readyToPrepare
  | awaitingPreparation
  | awaitingDenominationSignature
  | waitingDenomConfirmations
  | readyToMigrate
  | broadcastScheduled
  | broadcasting
  | waitingMigrationConfirmations
  | complete
  | paused
  | failedRecoverable
  | failedTerminal
  | abandoned
  deriving DecidableEq

/-- The terminal phases, in which the run's notes are unlocked. -/
def migrationPhaseReleasesWalletLocks : Phase → Bool
  | .complete => true
  | .failedTerminal => true
  | .abandoned => true
  | _ => false

inductive PendingStatus
  | scheduled
  | broadcasted
  | confirmed
  | needsResign
  deriving DecidableEq

inductive LockState
  | locked
  | unlocked
  deriving DecidableEq

inductive PreparationTimingPolicy
  | immediate
  | zip318Spaced
  deriving DecidableEq

def zip318ExpiryModulus : Nat := 34560

def zip318CanonicalMigrationExpiryHeight (scheduledHeight : Nat) : StoreResult Nat :=
  let boundary := scheduledHeight - scheduledHeight % zip318ExpiryModulus
  okOr (checkedAddU32 boundary (2 * zip318ExpiryModulus))
    "ZIP 318 canonical expiry height overflow"

theorem canonicalMigrationExpiryHeight_error {scheduledHeight : Nat} {e : String}
    (h : zip318CanonicalMigrationExpiryHeight scheduledHeight = .error e) :
    e = "ZIP 318 canonical expiry height overflow" := by
  unfold zip318CanonicalMigrationExpiryHeight at h
  exact okOr_error h

/-- The expiry that a transaction broadcast at a height must have been signed with. -/
def CanonicalExpiry (scheduledHeight expiryHeight : Nat) : Prop :=
  zip318CanonicalMigrationExpiryHeight scheduledHeight = .ok expiryHeight

theorem canonicalExpiry_iff {scheduledHeight expiryHeight : Nat} :
    CanonicalExpiry scheduledHeight expiryHeight ↔
      scheduledHeight - scheduledHeight % zip318ExpiryModulus + 2 * zip318ExpiryModulus =
        expiryHeight ∧ expiryHeight < u32Limit := by
  unfold CanonicalExpiry zip318CanonicalMigrationExpiryHeight checkedAddU32
  dsimp only
  split
  · rename_i hlt
    constructor
    · intro h
      cases h
      exact ⟨rfl,hlt⟩
    · rintro ⟨rfl,_⟩
      rfl
  · rename_i hlt
    constructor
    · intro h
      cases h
    · rintro ⟨rfl,h⟩
      exact absurd h hlt

instance : DecidableRel CanonicalExpiry := fun _ _ => decidable_of_iff _ canonicalExpiry_iff.symm

structure MigrationScheduleEntry where
  partIndex : Option Nat
  value : Nat
  blockOffset : Nat
  deriving DecidableEq

structure PreparedOrchardNoteRef where
  txid : Text
  outputIndex : Nat
  value : Nat
  deriving DecidableEq

/-- A row of the runs table, with the defaults of its schema. -/
structure Run where
  accountUuid : Text
  network : WalletNetwork
  phase : Phase
  targetValues : List Nat := []
  schedule : List MigrationScheduleEntry := []
  timingPolicy : MigrationTimingPolicy := .standard
  preparationTimingPolicy : PreparationTimingPolicy := .immediate
  proofRetryHeight : Option Nat := none
  signedScheduleOriginHeight : Option Nat := none
  initialScheduleRebasedOriginHeight : Option Nat := none
  recoveryScheduleOriginHeight : Option Nat := none
  recoveryScheduleMaxBlockOffset : Option Nat := none
  lastError : Option String := none
  deriving DecidableEq

structure PendingTx where
  txid : TxidHex
  partIndex : Option Nat
  encryptedRawTx : Bytes
  targetHeight : Nat
  anchorBoundaryHeight : Option Nat
  expiryHeight : Nat
  value : Nat
  fee : Nat
  selectedNote : PreparedOrchardNoteRef
  scheduleStartHeight : Option Nat
  scheduledHeight : Nat
  originalScheduledHeight : Option Nat
  rebuildBlockOffset : Option Nat
  status : PendingStatus
  deriving DecidableEq

structure SignedChild where
  messageId : Text
  childIndex : Nat
  encryptedBasePczt : Bytes
  encryptedCompactSigs : Bytes
  targetHeight : Nat
  anchorBoundaryHeight : Option Nat
  expiryHeight : Nat
  scheduledHeight : Nat
  value : Nat
  fee : Nat
  selectedNote : PreparedOrchardNoteRef
  deriving DecidableEq

structure PreparedNote where
  txid : Text
  outputIndex : Nat
  nullifier : Option Text
  lockState : LockState
  deriving DecidableEq

/-- Where a block on the canonical chain includes a transaction. -/
structure ChainIdentity where
  minedHeight : Nat
  blockHash : Nat
  deriving DecidableEq

/-- The status of a denomination stage with the columns its `CHECK` constraints tie to it: raw bytes
while it is pending or broadcasted, an inclusion exactly while it is confirmed. -/
inductive StageState
  | awaitingInputs
  | pending (encryptedRawTx : Bytes)
  | broadcasted (encryptedRawTx : Bytes)
  | confirmed (inclusion : ChainIdentity) (encryptedRawTx : Option Bytes)
  deriving DecidableEq

/-- The stages that were not submitted to the network. -/
def StageState.unsubmitted : StageState → Bool
  | .awaitingInputs => true
  | .pending _ => true
  | _ => false

structure Stage where
  stageIndex : Nat
  expectedTxid : TxidHex
  scheduledHeight : Nat
  broadcastNotBeforeHeight : Option Nat
  state : StageState
  parentTxids : List TxidHex
  deriving DecidableEq

/-- Everything the database holds for one run. -/
structure RunState where
  run : Run
  pending : Table PendingTx TxidHex PendingTx.txid
  children : Table SignedChild Text SignedChild.messageId
  preparedNotes : List PreparedNote
  stages : Table Stage TxidHex Stage.expectedTxid

namespace RunState

/-- A run of which only its row is stored. -/
def created (run : Run) : RunState := ⟨run,.empty,.empty,[],.empty⟩

def setRun (db : RunState) (f : Run → Run) : RunState := { db with run := f db.run }

@[simp] theorem setRun_children (db : RunState) (f : Run → Run) :
    (db.setRun f).children = db.children := rfl

@[simp] theorem setRun_run (db : RunState) (f : Run → Run) : (db.setRun f).run = f db.run := rfl

def setPhase (db : RunState) (phase : Phase) (lastError : Option String) : RunState :=
  db.setRun fun run => { run with phase, lastError }

@[simp] theorem setPhase_phase (db : RunState) (phase : Phase) (lastError : Option String) :
    (db.setPhase phase lastError).run.phase = phase := rfl

def isTerminal (db : RunState) : Bool := migrationPhaseReleasesWalletLocks db.run.phase

/-- `UPDATE` the pending rows that satisfy `p`. -/
def updatePending (db : RunState) (p : PendingTx → Bool) (f : PendingTx → PendingTx)
    (hf : ∀ r, (f r).txid = r.txid) : RunState :=
  { db with pending := db.pending.update p f hf }

def setStatus (db : RunState) (p : PendingTx → Bool) (status : PendingStatus) : RunState :=
  db.updatePending p (fun r => { r with status }) fun _ => rfl

def countPendingWithStatus (db : RunState) (status : PendingStatus) : Nat :=
  db.pending.count fun p => decide (p.status = status)

def plannedPartCount (db : RunState) : Nat := db.run.targetValues.length

def pendingMigrationNoteOutpoints (db : RunState) : List (Text × Nat) :=
  db.pending.rows.map fun p => (lower p.selectedNote.txid, p.selectedNote.outputIndex)

/-- The retained children whose note no pending transaction spends. -/
def unpromotedSignedChildPcztCount (db : RunState) : Nat :=
  db.children.count fun c =>
    !db.pendingMigrationNoteOutpoints.contains (lower c.selectedNote.txid, c.selectedNote.outputIndex)

def migrationPartAssignmentComplete (db : RunState) : Bool :=
  let assigned := db.pending.length + db.unpromotedSignedChildPcztCount
  decide (0 < db.plannedPartCount) && decide (assigned = db.plannedPartCount)

def unlockNotes (db : RunState) : RunState :=
  { db with preparedNotes := db.preparedNotes.map fun note => { note with lockState := .unlocked } }

end RunState

/-- What the wallet's own tables say about transactions at one moment, and the depth at which the
wallet library trusts one. -/
structure ChainView where
  localDenominationChainIdentity : TxidHex → Option ChainIdentity
  localTransactionRaw : TxidHex → Bool
  syncedOrchardConfirmationCount : Nat → Nat
  denominationConfirmationsRequired : Nat

namespace ChainView

def onChain (chain : ChainView) (txid : TxidHex) : Bool :=
  (chain.localDenominationChainIdentity txid).isSome

def trusted (chain : ChainView) (txid : TxidHex) : Bool :=
  match chain.localDenominationChainIdentity txid with
  | none => false
  | some identity => decide (chain.denominationConfirmationsRequired ≤
      chain.syncedOrchardConfirmationCount identity.minedHeight)

end ChainView

end CoppiceWallet.Store
