import CoppiceWallet.Names.CommitGate

/-!
# The transactions of a held name

A REVEAL and a REFRESH are built for the block after the tip. The protocol crates and the wallet
database are calls of the environment; the reservation of the fee note is the only thing a build
writes.
-/

namespace CoppiceWallet.Names

open CoppiceWallet.Lib CoppiceWallet.Store

structure FeeNote where
  output : OutputRef
  value : Nat
  deriving DecidableEq

structure NamesFeeReservation where
  output : OutputRef
  owner : Bytes32
  deriving DecidableEq

structure NamesTransaction where
  raw : List UInt8
  txid : Bytes32
  name : Text
  accountUuid : Text
  validFromHeight : Nat
  expiryHeight : Nat
  feeZatoshi : Nat
  feeReservation : Option NamesFeeReservation
  deriving DecidableEq

/-- What is fixed about a bundle once its fee note is reserved. -/
structure BundlePlan (Prepared : Type) where
  prepared : Prepared
  funding : FeeNote
  changeValue : Nat
  expiryHeight : Nat

/-- The calls of the builders. -/
structure OperationEnv (W Seed Prepared : Type) where
  parameters : NamesParameters
  acceptsOperation : Text → Nat → Bool
  lifecycle : Head → Nat → Lifecycle
  canonicalRegistrationName : Text → StoreResult Text
  canonicalUa : Text → StoreResult Text
  registration : Text → Text → W → StoreResult (Option StoredRegistration)
  acceptedCommit : Bytes32 → W → StoreResult (Option CommitRef)
  acceptedManagedResolution : Text → W → StoreResult (Option ManagedResolution)
  lifecycleTip : W → StoreResult Nat
  /-- The account exists and its keys derive from the seed. -/
  softwareAccount : Text → Seed → W → StoreResult Unit
  recoverCurrentBond : Seed → Text → BondOrigin → StoreResult Bytes32
  unspentIronwoodNotes : Text → Nat → W → StoreResult (List FeeNote)
  /-- Whether a note is spendable while locked notes are excluded. -/
  spendableNote : OutputRef → Nat → W → StoreResult Bool
  prepareReveal : Seed → Text → CommitRef → Text → Nat → FeeNote → StoreResult Prepared
  prepareRefresh : Seed → Text → Head → Bytes32 → Text → Nat → StoreResult Prepared
  frames : Prepared → Nat
  /-- The ZIP 317 fee at a height for a number of carriers. -/
  requiredFee : Nat → Nat → StoreResult Nat
  assembleReveal : BundlePlan Prepared → FeeNote → W → StoreResult (List UInt8 × Bytes32)
  assembleRefresh : BundlePlan Prepared → Bytes32 → Nat → W → StoreResult (List UInt8 × Bytes32)
  persistEphemeralProposalLock : Bytes32 → OutputRef → Nat → W → StoreResult W
  lockOutputs : OutputRef → Bytes32 → Nat → W → StoreResult W
  unlockOutput : OutputRef → Bytes32 → W → StoreResult W
  removeEphemeralProposalLock : Bytes32 → W → StoreResult W

variable {W Seed Prepared : Type}

inductive FeeNoteAction
  | persistEphemeralProposalLock (owner : Bytes32) (output : OutputRef) (expiry : Nat)
  | lockOutputs (output : OutputRef) (owner : Bytes32) (expiry : Nat)
  | unlockOutput (output : OutputRef) (owner : Bytes32)
  | removeEphemeralProposalLock (owner : Bytes32)

def OperationEnv.perform (env : OperationEnv W Seed Prepared) :
    FeeNoteAction → W → StoreResult W
  | .persistEphemeralProposalLock owner output expiry =>
    env.persistEphemeralProposalLock owner output expiry
  | .lockOutputs output owner expiry => env.lockOutputs output owner expiry
  | .unlockOutput output owner => env.unlockOutput output owner
  | .removeEphemeralProposalLock owner => env.removeEphemeralProposalLock owner

abbrev OperationProgram (W α : Type) := Program W FeeNoteAction String α

/-- The end of a build that failed after it reserved its fee note: the reservation is released,
and its recovery rows stay when the lock cannot be taken off. -/
def releaseAndFail (env : OperationEnv W Seed Prepared) {α : Type}
    (reservation : NamesFeeReservation) (e : String) : OperationProgram W α :=
  .atomic (some (.unlockOutput reservation.output reservation.owner)) fun s =>
    match env.unlockOutput reservation.output reservation.owner s with
    | .ok _ =>
      .atomic (some (.removeEphemeralProposalLock reservation.owner)) fun _ => .finish (.error e)
    | .error _ => .finish (.error e)

/-- Reserve the fee note. A lock that fails takes its recovery rows along. -/
def reserveFeeNote (env : OperationEnv W Seed Prepared) (operation : String)
    (reservation : NamesFeeReservation) (expiry : Nat) : OperationProgram W Unit := do
  Program.perform env.perform
    (.persistEphemeralProposalLock reservation.owner reservation.output expiry)
  .atomic (some (.lockOutputs reservation.output reservation.owner expiry)) fun s =>
    match env.lockOutputs reservation.output reservation.owner expiry s with
    | .ok _ => .finish (.ok ())
    | .error _ =>
      .atomic (some (.removeEphemeralProposalLock reservation.owner)) fun s =>
        match env.removeEphemeralProposalLock reservation.owner s with
        | .ok _ => .finish (.error s!"reserve Names {operation} fee note")
        | .error _ =>
          .finish (.error
            s!"reserve Names {operation} fee note; also failed to remove recovery rows")

/-- Build with the reserved fee note, or release it. -/
def assembleReserved (env : OperationEnv W Seed Prepared) (reservation : NamesFeeReservation)
    (assemble : W → StoreResult NamesTransaction) : OperationProgram W NamesTransaction :=
  .atomic none fun s =>
    match assemble s with
    | .ok transaction => .finish (.ok transaction)
    | .error e => releaseAndFail env reservation e

/-- The block a REVEAL is built for, and how long it lives. -/
structure RevealSchedule where
  registration : StoredRegistration
  commit : CommitRef
  operationHeight : Nat
  epoch : Nat
  expiryHeight : Nat

/-- A COMMIT that is accepted has a positive TTL, so the subtraction of the source is exact. -/
def revealSchedule (env : OperationEnv W Seed Prepared) (accountUuid name : Text) (wallet : W) :
    StoreResult RevealSchedule := do
  let found ← env.registration accountUuid name wallet
  let registration ← okOr found "this account has no pending registration for that name"
  if registration.phase = .revealBroadcast ∧ registration.revealTxid.isSome then
    .error "REVEAL is already broadcast and awaits confirmation"
  else do
    let accepted ← env.acceptedCommit registration.commitment wallet
    let commit ← okOr accepted "the exact COMMIT is not accepted in canonical Names history"
    let tipHeight ← env.lifecycleTip wallet
    let operationHeight ← okOr (checkedAddU32 tipHeight 1) "Names construction height overflow"
    let epoch ← env.parameters.epoch operationHeight
    if epoch ≠ registration.targetEpoch ∨ !env.acceptsOperation name operationHeight ∨
        !env.parameters.acceptsCommit commit.height operationHeight then
      .error "REVEAL must wait for its deterministic name window"
    else do
      let window ← env.parameters.window name epoch
      return ⟨registration,commit,operationHeight,epoch,
        min (window.stop - 1)
          (saturatingAddU32 commit.height (env.parameters.commitTtlBlocks - 1))⟩

structure RevealNotes where
  bond : Option FeeNote
  funding : Option FeeNote

/-- The notes of a REVEAL: its bond, and the first of the largest spendable other notes. -/
def revealNotes (env : OperationEnv W Seed Prepared) (registration : StoredRegistration)
    (operationHeight : Nat) (wallet : W) : List FeeNote → RevealNotes → StoreResult RevealNotes
  | [], notes => .ok notes
  | candidate :: candidates, notes =>
    if registration.bondTxid = some candidate.output.txid ∧
        registration.bondOutputIndex = some candidate.output.outputIndex then
      revealNotes env registration operationHeight wallet candidates
        { notes with bond := some candidate }
    else do
      let spendable ← env.spendableNote candidate.output operationHeight wallet
      revealNotes env registration operationHeight wallet candidates
        (if spendable ∧ (notes.funding.elim 0 FeeNote.value) < candidate.value then
          { notes with funding := some candidate }
        else notes)

structure RevealDraft (Prepared : Type) where
  plan : BundlePlan Prepared
  bond : FeeNote
  fee : Nat

def revealDraft (env : OperationEnv W Seed Prepared) (accountUuid name : Text) (seed : Seed)
    (schedule : RevealSchedule) (wallet : W) : StoreResult (RevealDraft Prepared) := do
  env.softwareAccount accountUuid seed wallet
  let ua ← env.canonicalUa schedule.registration.ua
  let candidates ← env.unspentIronwoodNotes accountUuid (schedule.operationHeight - 1) wallet
  let notes ← revealNotes env schedule.registration schedule.operationHeight wallet candidates
    ⟨none,none⟩
  let bond ← okOr notes.bond "reserved one-ZEC Names bond is unavailable"
  let funding ← okOr notes.funding
    "wallet needs a separate confirmed Ironwood note for the fee"
  let prepared ← env.prepareReveal seed name schedule.commit ua schedule.operationHeight bond
  let fee ← env.requiredFee schedule.operationHeight (env.frames prepared)
  let changeValue ← okOr (checkedSub funding.value fee)
    "separate Ironwood note cannot cover Names fee"
  return ⟨⟨prepared,funding,changeValue,schedule.expiryHeight⟩,bond,fee⟩

/-- `owner` is the random owner of the lock on the fee note. -/
def buildReveal (env : OperationEnv W Seed Prepared) (owner : Bytes32) (accountUuid name : Text)
    (seed : Seed) : OperationProgram W NamesTransaction := do
  let name ← .finish (env.canonicalRegistrationName name)
  let schedule ← Program.look (revealSchedule env accountUuid name)
  let draft ← Program.look (revealDraft env accountUuid name seed schedule)
  let reservation : NamesFeeReservation := ⟨draft.plan.funding.output,owner⟩
  reserveFeeNote env "REVEAL" reservation schedule.expiryHeight
  assembleReserved env reservation fun wallet => do
    let (raw,txid) ← env.assembleReveal draft.plan draft.bond wallet
    return ⟨raw,txid,schedule.registration.name,accountUuid,schedule.operationHeight,
      schedule.expiryHeight,draft.fee,some reservation⟩

structure RefreshSchedule where
  predecessor : Head
  origin : BondOrigin
  position : Nat
  operationHeight : Nat
  epoch : Nat
  expiryHeight : Nat

def refreshSchedule (env : OperationEnv W Seed Prepared) (name : Text) (wallet : W) :
    StoreResult RefreshSchedule := do
  let tipHeight ← env.lifecycleTip wallet
  let found ← env.acceptedManagedResolution name wallet
  let resolution ← okOr found "the name is not tracked by this wallet"
  let predecessor ← okOr resolution.head "the name has no accepted canonical head"
  let origin ← okOr resolution.bondOrigin "current Names bond recovery metadata is unavailable"
  let position ← okOr resolution.markedPosition
    "current Names bond witness position is unavailable"
  let operationHeight ← okOr (checkedAddU32 tipHeight 1) "Names construction height overflow"
  if env.lifecycle predecessor operationHeight ≠ .active ∨
      !env.acceptsOperation name operationHeight then
    .error "REFRESH must wait for the deterministic name window"
  else do
    let epoch ← env.parameters.epoch operationHeight
    let window ← env.parameters.window name epoch
    return ⟨predecessor,origin,position,operationHeight,epoch,window.stop - 1⟩

/-- `max_by_key` keeps the last of the largest notes. -/
def largestFeeNote (notes : List FeeNote) : Option FeeNote :=
  notes.foldl (fun best note =>
    match best with
    | none => some note
    | some kept => if kept.value ≤ note.value then some note else some kept) none

/-- A note whose check fails is passed over. -/
def refreshFeeNote (env : OperationEnv W Seed Prepared) (operationHeight : Nat) (wallet : W)
    (candidates : List FeeNote) : Option FeeNote :=
  largestFeeNote (candidates.filter fun candidate =>
    match env.spendableNote candidate.output operationHeight wallet with
    | .ok spendable => spendable
    | .error _ => false)

structure RefreshDraft (Prepared : Type) where
  plan : BundlePlan Prepared
  predecessorNote : Bytes32
  fee : Nat

def refreshDraft (env : OperationEnv W Seed Prepared) (accountUuid name : Text)
    (requestedUa : Option Text) (seed : Seed) (schedule : RefreshSchedule) (wallet : W) :
    StoreResult (RefreshDraft Prepared) := do
  let ua ← env.canonicalUa (requestedUa.getD schedule.predecessor.ua)
  let predecessorNote ← env.recoverCurrentBond seed name schedule.origin
  env.softwareAccount accountUuid seed wallet
  let candidates ← env.unspentIronwoodNotes accountUuid (schedule.operationHeight - 1) wallet
  let funding ← okOr (refreshFeeNote env schedule.operationHeight wallet candidates)
    "wallet needs a confirmed Ironwood note for the fee"
  let prepared ← env.prepareRefresh seed name schedule.predecessor predecessorNote ua
    schedule.operationHeight
  let fee ← env.requiredFee schedule.operationHeight (env.frames prepared)
  let changeValue ← okOr (checkedSub funding.value fee) "Ironwood note cannot cover Names fee"
  return ⟨⟨prepared,funding,changeValue,schedule.expiryHeight⟩,predecessorNote,fee⟩

def buildRefresh (env : OperationEnv W Seed Prepared) (owner : Bytes32) (accountUuid name : Text)
    (requestedUa : Option Text) (seed : Seed) : OperationProgram W NamesTransaction := do
  let name ← .finish (env.canonicalRegistrationName name)
  let schedule ← Program.look (refreshSchedule env name)
  let draft ← Program.look (refreshDraft env accountUuid name requestedUa seed schedule)
  let reservation : NamesFeeReservation := ⟨draft.plan.funding.output,owner⟩
  reserveFeeNote env "REFRESH" reservation schedule.expiryHeight
  assembleReserved env reservation fun wallet => do
    let (raw,txid) ← env.assembleRefresh draft.plan draft.predecessorNote schedule.position wallet
    return ⟨raw,txid,name,accountUuid,schedule.operationHeight,schedule.expiryHeight,draft.fee,
      some reservation⟩

end CoppiceWallet.Names
