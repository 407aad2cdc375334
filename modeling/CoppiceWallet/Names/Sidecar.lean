import CoppiceWallet.Store.Model

/-!
# The Names sidecar

The sidecar file holds the registrations of the wallet and the labels of its Names transactions.
Each function here is one update of the file under its lock. The checkpoint cache of the file is
left out.
-/

namespace CoppiceWallet.Names

open CoppiceWallet.Lib CoppiceWallet.Store

abbrev Bytes32 := BitVec 256

inductive RegistrationPhase
  | awaitingBond
  | bondReserved
  | windowMissed
  | commitWindowMissed
  | commitProposed
  | commitBroadcast
  | commitAccepted
  | commitExpired
  | revealBroadcast
  | active
  | cooldown
  deriving DecidableEq

structure StoredRegistration where
  accountUuid : Text
  name : Text
  ua : Text
  commitment : Bytes32
  targetEpoch : Nat
  targetRevealHeight : Nat
  sendFlowId : Option Text
  bondTxid : Option Bytes32
  bondOutputIndex : Option Nat
  commitHeight : Option Nat
  commitTxIndex : Option Nat
  phase : RegistrationPhase
  commitTxid : Option Bytes32
  revealTxid : Option Bytes32
  deriving DecidableEq

def StoredRegistration.key (r : StoredRegistration) : Text × Text := (r.accountUuid,r.name)

/-- An account manages a name at most once. -/
abbrev Registrations := Table StoredRegistration (Text × Text) StoredRegistration.key

structure StoredNamesActivity where
  accountUuid : Text
  name : Text
  action : String
  txid : Bytes32
  deriving DecidableEq

structure StoredNamesWallet where
  registrations : Registrations
  activities : List StoredNamesActivity

structure CommitRef where
  height : Nat
  txIndex : Nat
  txid : Bytes32
  deriving DecidableEq

/-- The operation window of a name in an epoch: its first height, and the first one after it. -/
structure Window where
  start : Nat
  stop : Nat

/-- The schedule of a deployment, as the Names protocol computes it. -/
structure NamesParameters where
  activationHeight : Nat
  commitMaturityBlocks : Nat
  commitTtlBlocks : Nat
  cooldownBlocks : Nat
  epoch : Nat → StoreResult Nat
  window : Text → Nat → StoreResult Window
  acceptsCommit : Nat → Nat → Bool

def upsertActivity (activities : List StoredNamesActivity) (activity : StoredNamesActivity) :
    List StoredNamesActivity :=
  match activities.findIdx? fun item => decide (item.txid = activity.txid) with
  | some i => activities.set i activity
  | none => activities ++ [activity]

def registration (stored : StoredNamesWallet) (accountUuid name : Text) :
    Option StoredRegistration :=
  stored.registrations.get (accountUuid,name)

def requiresManagedScanning (stored : StoredNamesWallet) : Bool :=
  !stored.registrations.rows.isEmpty

def storeRegistration (r : StoredRegistration) (stored : StoredNamesWallet) :
    StoreResult StoredNamesWallet := do
  let registrations ← okOr (stored.registrations.insert r) "this account already manages that name"
  return { stored with registrations := registrations }

/-- A recovered name is unique in the wallet, whatever the account. -/
def storeRecoveredRegistration (r : StoredRegistration) (stored : StoredNamesWallet) :
    StoreResult StoredNamesWallet :=
  match stored.registrations.find? fun existing => decide (existing.name = r.name) with
  | some existing =>
    if existing.accountUuid = r.accountUuid then .error "this account already manages that name"
    else .error "that name is already assigned to another account in this wallet"
  | none => storeRegistration r stored

def workflowUnavailable : String := "Names registration workflow is unavailable"

def replaceRegistration (r : StoredRegistration) (stored : StoredNamesWallet) :
    StoreResult StoredNamesWallet :=
  match stored.registrations.get r.key with
  | none => .error workflowUnavailable
  | some _ => .ok { stored with registrations := stored.registrations.overwrite r }

def removeRegistration (r : StoredRegistration) (stored : StoredNamesWallet) : StoredNamesWallet :=
  { stored with registrations :=
      stored.registrations.delete fun existing => decide (existing.key = r.key) }

def takeCancelledRegistration (sendFlowId : Text) (stored : StoredNamesWallet) :
    Option StoredRegistration × StoredNamesWallet :=
  match stored.registrations.find? fun r =>
      decide (r.sendFlowId = some sendFlowId) && decide (r.phase = .commitProposed) with
  | none => (none,stored)
  | some r => (some r,removeRegistration r stored)

def takeRegistrationWorkflow (accountUuid name : Text) (stored : StoredNamesWallet) :
    Option StoredRegistration × StoredNamesWallet :=
  match stored.registrations.get (accountUuid,name) with
  | none => (none,stored)
  | some r => (some r,removeRegistration r stored)

def StoredRegistration.withCommitBroadcast (r : StoredRegistration) (txid : Bytes32) :
    StoredRegistration :=
  { r with commitTxid := some txid, phase := .commitBroadcast }

def recordCommitBroadcast (sendFlowId : Text) (txid : Bytes32) (stored : StoredNamesWallet) :
    StoreResult StoredNamesWallet := do
  let r ← okOr (stored.registrations.find? fun r => decide (r.sendFlowId = some sendFlowId))
    "Names COMMIT workflow is unavailable"
  return {
    registrations := stored.registrations.overwrite (r.withCommitBroadcast txid)
    activities := upsertActivity stored.activities ⟨r.accountUuid,r.name,"commit",txid⟩ }

def StoredRegistration.withRevealBroadcast (r : StoredRegistration) (txid : Bytes32) :
    StoredRegistration :=
  { r with revealTxid := some txid, phase := .revealBroadcast }

def recordRevealBroadcast (accountUuid name : Text) (txid : Bytes32)
    (stored : StoredNamesWallet) : StoreResult StoredNamesWallet := do
  let r ← okOr (stored.registrations.get (accountUuid,name)) workflowUnavailable
  return {
    registrations := stored.registrations.overwrite (r.withRevealBroadcast txid)
    activities := upsertActivity stored.activities ⟨accountUuid,name,"reveal",txid⟩ }

def StoredRegistration.withCommitReference (r : StoredRegistration) (reference : CommitRef) :
    StoredRegistration :=
  { r with
    commitHeight := some reference.height
    commitTxIndex := some reference.txIndex
    phase := if r.revealTxid.isNone then .commitAccepted else r.phase }

def StoredRegistration.withAcceptedCommit (r : StoredRegistration) (reference : CommitRef) :
    StoredRegistration :=
  { r.withCommitReference reference with commitTxid := some reference.txid }

/-- The first registration with the commitment takes the reference. -/
def recordAcceptedCommit (registrations : Registrations) (accepted : Bytes32 × CommitRef) :
    Registrations :=
  match registrations.find? fun r => decide (r.commitment = accepted.1) with
  | none => registrations
  | some r => registrations.overwrite (r.withAcceptedCommit accepted.2)

def commitExpired (parameters : NamesParameters) (tipHeight : Nat) (r : StoredRegistration) :
    Bool :=
  r.commitHeight.any fun height =>
    decide (saturatingAddU32 height parameters.commitTtlBlocks ≤ tipHeight)

/-- The phase that a scan up to the tip leaves; a registration with a REVEAL keeps its own. -/
def phaseAfterScan (parameters : NamesParameters) (tipHeight : Nat) (r : StoredRegistration) :
    StoreResult RegistrationPhase :=
  if r.revealTxid.isSome then .ok r.phase
  else if commitExpired parameters tipHeight r then .ok .commitExpired
  else do
    let window ← parameters.window r.name r.targetEpoch
    return if window.stop ≤ saturatingAddU32 tipHeight 1 then .windowMissed else r.phase

def withPhaseAfterScan (parameters : NamesParameters) (tipHeight : Nat) (r : StoredRegistration) :
    StoreResult StoredRegistration := do
  let phase ← phaseAfterScan parameters tipHeight r
  return { r with phase := phase }

theorem withPhaseAfterScan_ok {parameters : NamesParameters} {tipHeight : Nat}
    {r s : StoredRegistration} (h : withPhaseAfterScan parameters tipHeight r = .ok s) :
    ∃ phase, phaseAfterScan parameters tipHeight r = .ok phase ∧ s = { r with phase := phase } := by
  obtain ⟨phase,hphase,h⟩ := bind_ok h
  cases h
  exact ⟨phase,hphase,rfl⟩

theorem withPhaseAfterScan_key {parameters : NamesParameters} {tipHeight : Nat}
    (r s : StoredRegistration) (h : withPhaseAfterScan parameters tipHeight r = .ok s) :
    s.key = r.key := by
  obtain ⟨phase,_,rfl⟩ := withPhaseAfterScan_ok h
  rfl

def persistAfterScan (parameters : NamesParameters) (tipHeight : Nat)
    (acceptedCommits : List (Bytes32 × CommitRef)) (stored : StoredNamesWallet) :
    StoreResult StoredNamesWallet := do
  let recorded := acceptedCommits.foldl recordAcceptedCommit stored.registrations
  let registrations ← recorded.rewrite (withPhaseAfterScan parameters tipHeight)
    withPhaseAfterScan_key
  return { stored with registrations := registrations }

/-- What the transactional store has seen of a COMMIT that its registration does not know of. -/
def unrecordedCommit (observation : Bytes32 → StoreResult (Option CommitRef))
    (r : StoredRegistration) : StoreResult (Option (Bytes32 × CommitRef)) :=
  if r.commitHeight.isSome then .ok none
  else match r.commitTxid with
  | none => .ok none
  | some expectedTxid => do
    match ← observation r.commitment with
    | none => return none
    | some reference =>
      if reference.txid ≠ expectedTxid then
        .error "wallet COMMIT observation conflicts with registration txid"
      else return some (r.commitment,reference)

def recoverCommit (registrations : Registrations) (recovered : Bytes32 × CommitRef) :
    Registrations :=
  match registrations.find? fun r =>
      decide (r.commitment = recovered.1) && decide (r.commitTxid = some recovered.2.txid) with
  | none => registrations
  | some r => registrations.overwrite (r.withCommitReference recovered.2)

/-- The repair of the sidecar with which a sync begins. -/
def loadForSync (observation : Bytes32 → StoreResult (Option CommitRef))
    (stored : StoredNamesWallet) : StoreResult StoredNamesWallet := do
  let recovered ← stored.registrations.rows.mapM (unrecordedCommit observation)
  return { stored with registrations := recovered.reduceOption.foldl recoverCommit stored.registrations }

/-- The COMMIT of a registration, while the resolver of its name holds it as pending. -/
def acceptedCommit (pendingCommit : Text → CommitRef → Option Bytes32)
    (stored : StoredNamesWallet) (commitment : Bytes32) : Option CommitRef := do
  let r ← stored.registrations.find? fun r => decide (r.commitment = commitment)
  let reference : CommitRef := ⟨← r.commitHeight,← r.commitTxIndex,← r.commitTxid⟩
  let accepted ← pendingCommit r.name reference
  if accepted = commitment then some reference else none

/-! ## What a name resolves to

The head of a name is its last accepted state; its bond is the note that the head commits to.
-/

inductive Lifecycle
  | active
  | cooldown
  | missing
  deriving DecidableEq

/-- The action of a transaction that produced a state. -/
structure StateRef where
  height : Nat
  txIndex : Nat
  txid : Bytes32
  actionIndex : Nat
  deriving DecidableEq

structure Head where
  producer : StateRef
  producerEpoch : Nat
  ua : Text
  commitment : Bytes32
  futureNf : Bytes32
  expiryHeight : Nat
  terminalHeight : Option Nat
  deriving DecidableEq

structure Resolution where
  lifecycle : Lifecycle
  head : Option Head

/-- The operation that last gave a name its bond. -/
inductive BondOrigin
  | reveal (commit : CommitRef) (epoch : Nat) (ua : Text) (actionIndex : Nat)
      (actionNullifier : Bytes32)
  | refresh (predecessor : StateRef) (epoch : Nat) (ua : Text) (actionIndex : Nat)
      (actionNullifier : Bytes32)
  deriving DecidableEq

structure ManagedResolution where
  name : Text
  lifecycle : Lifecycle
  head : Option Head
  markedPosition : Option Nat
  bondOrigin : Option BondOrigin

end CoppiceWallet.Names
