import CoppiceWallet.Lib.Program
import CoppiceWallet.Names.Sidecar

/-!
# The lifecycle of a registration

Each operation is a program whose atomic sections are the single updates of the sidecar file and the
calls into the wallet database; only the calls that take the lock of the wallet database wait for
one another.
-/

namespace CoppiceWallet.Names

open CoppiceWallet.Lib CoppiceWallet.Store

def requiredBondZatoshis : Nat := 100000000

def trustedConfirmations : Nat := 3

structure OutputRef where
  txid : Bytes32
  outputIndex : Nat
  deriving DecidableEq

/-- The output that a registration records as its bond. -/
def StoredRegistration.bond (r : StoredRegistration) : Option OutputRef :=
  match r.bondTxid,r.bondOutputIndex with
  | some txid,some index => some ⟨txid,index⟩
  | _,_ => none

structure PreparedCommit where
  targetEpoch : Nat
  commitment : Bytes32

/-- The calls of the lifecycle into the protocol crates and the wallet database. -/
structure LifecycleEnv (W Seed : Type) where
  parameters : NamesParameters
  canonicalRegistrationName : Text → StoreResult Text
  canonicalUa : Text → StoreResult Text
  prepareCommit : Seed → Text → Nat → StoreResult PreparedCommit
  recoverCurrentBond : Seed → Text → BondOrigin → StoreResult (Bytes32 × Bytes32)
  lifecycleTip : W → StoreResult Nat
  acceptedManagedResolution : Text → W → StoreResult (Option ManagedResolution)
  targetHeight : W → StoreResult Nat
  unspentIronwoodNotes : Text → Nat → W → StoreResult (List OutputRef)
  /-- The value of a note that is spendable while locked notes are excluded. -/
  spendableNote : OutputRef → Nat → W → Option Nat
  lockOutputs : OutputRef → Bytes32 → Nat → W → StoreResult W
  unlockOutput : OutputRef → Bytes32 → W → StoreResult W
  proposeSend : Text → Text → W → StoreResult W
  recoverableAccount : Text → W → StoreResult Unit
  resolveName : Text → W → StoreResult W
  markRecoveredNamesBond : StateRef → Nat → Bytes32 → W → StoreResult W

variable {W Seed : Type}

structure NamesState (W : Type) where
  sidecar : StoredNamesWallet
  wallet : W
  walletLocked : Bool

inductive NamesAction (W : Type)
  | lockWallet
  | unlockWallet
  | storeRegistration (r : StoredRegistration)
  | storeRecoveredRegistration (r : StoredRegistration)
  | replaceRegistration (r : StoredRegistration)
  | takeCancelledRegistration (sendFlowId : Text)
  | takeRegistrationWorkflow (accountUuid name : Text)
  | recordCommitBroadcast (sendFlowId : Text) (txid : Bytes32)
  | recordRevealBroadcast (accountUuid name : Text) (txid : Bytes32)
  | persistAfterScan (tipHeight : Nat) (accepted : List (Bytes32 × CommitRef))
  | lockOutputs (output : OutputRef) (owner : Bytes32) (expiry : Nat)
  | unlockOutput (output : OutputRef) (owner : Bytes32)
  | proposeSend (accountUuid sendFlowId : Text)
  | resolveName (name : Text)
  | markRecoveredNamesBond (producer : StateRef) (position : Nat) (commitment : Bytes32)
  /-- The chain and the rest of the wallet move on. -/
  | environment (wallet : W)

def NamesState.onSidecar (s : NamesState W)
    (f : StoredNamesWallet → StoreResult StoredNamesWallet) : StoreResult (NamesState W) := do
  let sidecar ← f s.sidecar
  return { s with sidecar := sidecar }

def NamesState.onWallet (s : NamesState W) (f : W → StoreResult W) :
    StoreResult (NamesState W) := do
  let wallet ← f s.wallet
  return { s with wallet := wallet }

theorem onSidecar_ok {s t : NamesState W} {f : StoredNamesWallet → StoreResult StoredNamesWallet}
    (h : s.onSidecar f = .ok t) : ∃ sidecar, f s.sidecar = .ok sidecar ∧
      t = { s with sidecar := sidecar } := by
  obtain ⟨sidecar,hsidecar,h⟩ := bind_ok h
  cases h
  exact ⟨sidecar,hsidecar,rfl⟩

theorem onWallet_ok {s t : NamesState W} {f : W → StoreResult W} (h : s.onWallet f = .ok t) :
    ∃ wallet, f s.wallet = .ok wallet ∧ t = { s with wallet := wallet } := by
  obtain ⟨wallet,hwallet,h⟩ := bind_ok h
  cases h
  exact ⟨wallet,hwallet,rfl⟩

def LifecycleEnv.perform (env : LifecycleEnv W Seed) :
    NamesAction W → NamesState W → StoreResult (NamesState W)
  | .lockWallet, s =>
    if s.walletLocked then .error "the wallet database is locked"
    else .ok { s with walletLocked := true }
  | .unlockWallet, s => .ok { s with walletLocked := false }
  | .storeRegistration r, s => s.onSidecar (storeRegistration r)
  | .storeRecoveredRegistration r, s => s.onSidecar (storeRecoveredRegistration r)
  | .replaceRegistration r, s => s.onSidecar (replaceRegistration r)
  | .takeCancelledRegistration sendFlowId, s =>
    s.onSidecar fun stored => .ok (takeCancelledRegistration sendFlowId stored).2
  | .takeRegistrationWorkflow accountUuid name, s =>
    s.onSidecar fun stored => .ok (takeRegistrationWorkflow accountUuid name stored).2
  | .recordCommitBroadcast sendFlowId txid, s => s.onSidecar (recordCommitBroadcast sendFlowId txid)
  | .recordRevealBroadcast accountUuid name txid, s =>
    s.onSidecar (recordRevealBroadcast accountUuid name txid)
  | .persistAfterScan tipHeight accepted, s =>
    s.onSidecar (persistAfterScan env.parameters tipHeight accepted)
  | .lockOutputs output owner expiry, s => s.onWallet (env.lockOutputs output owner expiry)
  | .unlockOutput output owner, s => s.onWallet (env.unlockOutput output owner)
  | .proposeSend accountUuid sendFlowId, s => s.onWallet (env.proposeSend accountUuid sendFlowId)
  | .resolveName name, s => s.onWallet (env.resolveName name)
  | .markRecoveredNamesBond producer position commitment, s =>
    s.onWallet (env.markRecoveredNamesBond producer position commitment)
  | .environment wallet, s => .ok { s with wallet := wallet }

theorem lockWallet_ok {env : LifecycleEnv W Seed} {s t : NamesState W}
    (h : env.perform .lockWallet s = .ok t) : t = { s with walletLocked := true } := by
  change (if s.walletLocked = true then _ else _) = _ at h
  split at h
  · cases h
  · cases h
    rfl

abbrev NamesProgram (W α : Type) := Program (NamesState W) (NamesAction W) String α

namespace NamesProgram

def ofResult {α : Type} (result : StoreResult α) : NamesProgram W α := .finish result

def fail {α : Type} (e : String) : NamesProgram W α := .finish (.error e)

def stored : NamesProgram W StoredNamesWallet := Program.look fun s => .ok s.sidecar

def ofWallet {α : Type} (f : W → StoreResult α) : NamesProgram W α :=
  Program.look fun s => f s.wallet

end NamesProgram

open NamesProgram

def LifecycleEnv.act (env : LifecycleEnv W Seed) (action : NamesAction W) : NamesProgram W Unit :=
  Program.perform env.perform action

/-- An action whose failure is ignored. -/
def attempt (action : NamesAction W) : NamesProgram W Unit :=
  .atomic (some action) fun _ => .finish (.ok ())

def withWalletDbWriteLock (env : LifecycleEnv W Seed) {α : Type} (p : NamesProgram W α) :
    NamesProgram W α := do
  env.act .lockWallet
  p.ensuring .unlockWallet

section
variable {env : LifecycleEnv W Seed} {α : Type} {pre fail : NamesState W → Prop}

theorem triple_ofResult (result : StoreResult α) (hfail : ∀ s, pre s → fail s) :
    Program.Triple env.perform pre (ofResult result) (fun a s => pre s ∧ result = .ok a) fail :=
  Program.triple_finish (fun _ _ hs h => ⟨hs,h⟩) hfail

theorem triple_fail {post : α → NamesState W → Prop} (e : String)
    (hfail : ∀ s, pre s → fail s) :
    Program.Triple env.perform pre (NamesProgram.fail e) post fail :=
  Program.triple_finish (fun _ _ _ h => by cases h) hfail

theorem triple_ofWallet (f : W → StoreResult α) (hfail : ∀ s, pre s → fail s) :
    Program.Triple env.perform pre (ofWallet f) (fun a s => pre s ∧ f s.wallet = .ok a) fail :=
  Program.triple_look (fun _ _ hs h => ⟨hs,h⟩) hfail

theorem triple_stored :
    Program.Triple env.perform pre stored (fun stored s => pre s ∧ stored = s.sidecar) fail :=
  fun _ hs => ⟨hs,rfl⟩

end

theorem run_withWalletDbWriteLock {env : LifecycleEnv W Seed} {α : Type} (p : NamesProgram W α)
    {s : NamesState W} (hs : s.walletLocked = false) :
    (withWalletDbWriteLock env p).run env.perform s =
      ((p.run env.perform { s with walletLocked := true }).1,
        { (p.run env.perform { s with walletLocked := true }).2 with walletLocked := false }) := by
  have hlock : env.perform .lockWallet s = .ok { s with walletLocked := true } := by
    show (if s.walletLocked = true then _ else _) = _
    rw [hs]
    rfl
  rw [withWalletDbWriteLock,Program.run_bind,LifecycleEnv.act,Program.run_perform,hlock,
    Program.after_ok hlock]
  exact Program.run_ensuring _ _ _

/-- The first unlocked note of the account that is worth a bond. -/
def selectBond (env : LifecycleEnv W Seed) (accountUuid : Text) (targetHeight : Nat) (wallet : W) :
    StoreResult (Option OutputRef) := do
  let candidates ← env.unspentIronwoodNotes accountUuid (targetHeight - 1) wallet
  return candidates.find? fun candidate =>
    decide (env.spendableNote candidate targetHeight wallet = some requiredBondZatoshis)

def bondExpiry (parameters : NamesParameters) (targetHeight : Nat) (window : Window) : Nat :=
  saturatingAddU32 (max window.stop (saturatingAddU32 targetHeight parameters.commitTtlBlocks)) 2

def StoredRegistration.withBond (r : StoredRegistration) (output : OutputRef) :
    StoredRegistration :=
  { r with
    bondTxid := some output.txid
    bondOutputIndex := some output.outputIndex
    phase := .bondReserved }

def StoredRegistration.needsBond (r : StoredRegistration) : Bool :=
  decide (r.phase = .awaitingBond) || decide (r.phase = .bondReserved)

def lockBond (env : LifecycleEnv W Seed) (targetHeight : Nat) (r : StoredRegistration)
    (output : OutputRef) : NamesProgram W Unit := do
  let window ← ofResult (env.parameters.window r.name r.targetEpoch)
  env.act (.lockOutputs output r.commitment (bondExpiry env.parameters targetHeight window))
  env.act (.replaceRegistration (r.withBond output))

def reserveBond (env : LifecycleEnv W Seed) (targetHeight : Nat) (r : StoredRegistration) :
    NamesProgram W Unit :=
  if r.needsBond then do
    let selected ← ofWallet (selectBond env r.accountUuid targetHeight)
    match r.bond.or selected with
    | none => pure ()
    | some output => lockBond env targetHeight r output
  else pure ()

def reserveBonds (env : LifecycleEnv W Seed) (targetHeight : Nat) :
    List StoredRegistration → NamesProgram W Unit
  | [] => pure ()
  | r :: registrations => do
    reserveBond env targetHeight r
    reserveBonds env targetHeight registrations

def reservePendingBondsLocked (env : LifecycleEnv W Seed) : NamesProgram W Unit := do
  let stored ← stored
  let targetHeight ← ofWallet env.targetHeight
  reserveBonds env targetHeight stored.registrations.rows

def reservePendingBonds (env : LifecycleEnv W Seed) : NamesProgram W Unit :=
  withWalletDbWriteLock env (reservePendingBondsLocked env)

/-- The first epoch whose window a REVEAL can still meet; `remaining` epochs have a number. -/
def targetRevealLoop (parameters : NamesParameters) (name : Text) (earliest : Nat) :
    Nat → Nat → StoreResult (Nat × Nat)
  | 0, _ => .error "Names target epoch overflow"
  | remaining + 1, epoch => do
    let window ← parameters.window name epoch
    let reveal := max window.start earliest
    if reveal < window.stop then return (epoch,reveal)
    else targetRevealLoop parameters name earliest remaining (epoch + 1)

def targetReveal (parameters : NamesParameters) (name : Text) (nextHeight : Nat) :
    StoreResult (Nat × Nat) := do
  let earliest ← okOr (checkedAddU32 nextHeight parameters.commitMaturityBlocks)
    "Names reveal height overflow"
  let epoch ← parameters.epoch (max nextHeight parameters.activationHeight)
  targetRevealLoop parameters name earliest (u32Limit - epoch) epoch

/-- Only a name that is missing on the chain may be drafted again over its registration. -/
def replacesMissing (parameters : NamesParameters) :
    Option ManagedResolution → StoreResult Bool
  | none => .error "this account already has a workflow for that name"
  | some resolution =>
    match resolution.lifecycle with
    | .active => .error "this account already manages that active name"
    | .cooldown => do
      let head ← okOr resolution.head "cooldown name has no accepted canonical head"
      let _ ← okOr (checkedAddU32 (head.terminalHeight.getD head.expiryHeight)
        parameters.cooldownBlocks) "Names claimable height overflow"
      .error "that name is in protocol cooldown and cannot be registered"
    | .missing => .ok true

def replacesExisting (env : LifecycleEnv W Seed) (name : Text) (existing : Option StoredRegistration)
    (wallet : W) : StoreResult Bool :=
  if existing.isSome then
    env.acceptedManagedResolution name wallet >>= replacesMissing env.parameters
  else .ok false

theorem replacesExisting_true {env : LifecycleEnv W Seed} {name : Text}
    {existing : Option StoredRegistration} {wallet : W}
    (h : replacesExisting env name existing wallet = .ok true) :
    ∃ resolution, env.acceptedManagedResolution name wallet = .ok (some resolution) ∧
      resolution.lifecycle = .missing := by
  unfold replacesExisting at h
  split at h
  · obtain ⟨accepted,haccepted,h⟩ := bind_ok h
    cases accepted with
    | none => cases h
    | some resolution =>
      refine ⟨resolution,haccepted,?_⟩
      unfold replacesMissing at h
      dsimp only at h
      cases hlifecycle : resolution.lifecycle with
      | active =>
        rw [hlifecycle] at h
        cases h
      | cooldown =>
        rw [hlifecycle] at h
        obtain ⟨_,_,h⟩ := bind_ok h
        obtain ⟨_,_,h⟩ := bind_ok h
        cases h
      | missing => rfl
  · cases h

def registrationDraft (env : LifecycleEnv W Seed) (accountUuid name ua : Text) (seed : Seed)
    (nextHeight : Nat) : StoreResult StoredRegistration := do
  let target ← targetReveal env.parameters name nextHeight
  let prepared ← env.prepareCommit seed name target.2
  if prepared.targetEpoch ≠ target.1 then .error "Names COMMIT target epoch mismatch"
  else return {
    accountUuid := accountUuid
    name := name
    ua := ua
    commitment := prepared.commitment
    targetEpoch := target.1
    targetRevealHeight := target.2
    sendFlowId := none
    bondTxid := none
    bondOutputIndex := none
    commitHeight := none
    commitTxIndex := none
    phase := .awaitingBond
    commitTxid := none
    revealTxid := none }

theorem registrationDraft_ok {env : LifecycleEnv W Seed} {accountUuid name ua : Text} {seed : Seed}
    {nextHeight : Nat} {r : StoredRegistration}
    (h : registrationDraft env accountUuid name ua seed nextHeight = .ok r) :
    r.key = (accountUuid,name) ∧ r.phase = .awaitingBond ∧ r.bondTxid = none ∧
      r.bondOutputIndex = none ∧ r.commitTxid = none ∧ r.revealTxid = none := by
  obtain ⟨target,_,h⟩ := bind_ok h
  obtain ⟨prepared,_,h⟩ := bind_ok h
  split at h
  · cases h
  · cases h
    exact ⟨rfl,rfl,rfl,rfl,rfl,rfl⟩

def storeRegistrationDraft (env : LifecycleEnv W Seed) (accountUuid name paymentAddress : Text)
    (seed : Seed) : NamesProgram W (Text × Nat) := do
  let tipHeight ← ofWallet env.lifecycleTip
  let name ← ofResult (env.canonicalRegistrationName name)
  let stored ← stored
  let replaceMissing ← ofWallet
    (replacesExisting env name (registration stored accountUuid name))
  let ua ← ofResult (env.canonicalUa paymentAddress)
  let nextHeight ← ofResult (okOr (checkedAddU32 tipHeight 1) "Names construction height overflow")
  let draft ← ofResult (registrationDraft env accountUuid name ua seed nextHeight)
  env.act (if replaceMissing then .replaceRegistration draft else .storeRegistration draft)
  return (name,nextHeight)

/-- A stored draft is a new registration without a bond, or replaces that of a missing name. -/
structure Drafted (env : LifecycleEnv W Seed) (accountUuid name canonical : Text)
    (draft : StoredRegistration) (s t : NamesState W) : Prop where
  named : env.canonicalRegistrationName name = .ok canonical
  key : draft.key = (accountUuid,canonical)
  phase : draft.phase = .awaitingBond
  bond : draft.bond = none
  stored : ∃ sidecar, t = { s with sidecar := sidecar } ∧
    (storeRegistration draft s.sidecar = .ok sidecar ∨
      replaceRegistration draft s.sidecar = .ok sidecar ∧
        ∃ resolution, env.acceptedManagedResolution canonical s.wallet = .ok (some resolution) ∧
          resolution.lifecycle = .missing)

theorem storeRegistrationDraft_spec (env : LifecycleEnv W Seed)
    (accountUuid name paymentAddress : Text) (seed : Seed) (s : NamesState W) :
    Program.Triple env.perform (fun x => x = s)
      (storeRegistrationDraft env accountUuid name paymentAddress seed)
      (fun drafted t => ∃ draft, Drafted env accountUuid name drafted.1 draft s t)
      fun t => t = s := by
  refine (triple_ofWallet _ fun _ hs => hs).bind fun tipHeight => ?_
  refine (triple_ofResult _ fun _ hs => hs.1).bind fun canonical => ?_
  refine Program.triple_assume fun hname => triple_stored.bind fun stored => ?_
  refine (triple_ofWallet _ fun _ hs => hs.1.1).bind fun replaceMissing => ?_
  refine (triple_ofResult _ fun _ hs => hs.1.1.1).bind fun ua => ?_
  refine (triple_ofResult _ fun _ hs => hs.1.1.1.1).bind fun nextHeight => ?_
  refine (triple_ofResult _ fun _ hs => hs.1.1.1.1.1).bind fun draft => ?_
  refine Program.triple_assume fun hdraft => Program.Triple.bind
    (Program.triple_perform (fun x t hs h => ?_) fun _ hs => hs.1.1.1.1.1) fun _ =>
      Program.triple_pure fun _ hs => hs
  obtain ⟨⟨⟨⟨⟨rfl,_⟩,_⟩,hreplace⟩,_⟩,_⟩ := hs
  obtain ⟨hkey,hphase,htxid,_⟩ := registrationDraft_ok hdraft
  refine ⟨draft,hname,hkey,hphase,by rw [StoredRegistration.bond,htxid],?_⟩
  cases replaceMissing with
  | false =>
    obtain ⟨sidecar,hsidecar,rfl⟩ := onSidecar_ok h
    exact ⟨sidecar,rfl,.inl hsidecar⟩
  | true =>
    obtain ⟨sidecar,hsidecar,rfl⟩ := onSidecar_ok h
    exact ⟨sidecar,rfl,.inr ⟨hsidecar,replacesExisting_true hreplace⟩⟩

def draftRegistration (accountUuid name : Text) (missing : String) :
    NamesProgram W StoredRegistration := do
  let stored ← stored
  ofResult (okOr (registration stored accountUuid name) missing)

theorem draftRegistration_spec {env : LifecycleEnv W Seed} (accountUuid name : Text)
    (missing : String) {pre fail : NamesState W → Prop} (hfail : ∀ s, pre s → fail s) :
    Program.Triple env.perform pre (draftRegistration accountUuid name missing)
      (fun r s => pre s ∧ registration s.sidecar accountUuid name = some r) fail := by
  refine triple_stored.bind fun stored => ?_
  refine Program.triple_finish (fun r s hs h => ?_) fun s hs => hfail s hs.1
  obtain ⟨hs,rfl⟩ := hs
  exact ⟨hs,okOr_ok h⟩

/-- A draft that found no bond gets the target that a bond confirmed from now on can meet. -/
def retargetDraft (env : LifecycleEnv W Seed) (accountUuid name : Text) (seed : Seed)
    (nextHeight : Nat) : NamesProgram W Unit := do
  let r ← draftRegistration accountUuid name "Names registration draft disappeared"
  if r.phase = .awaitingBond then do
    let delayedCommitHeight ← ofResult (okOr (checkedAddU32 nextHeight trustedConfirmations)
      "Names bond confirmation height overflow")
    let target ← ofResult (targetReveal env.parameters name delayedCommitHeight)
    let prepared ← ofResult (env.prepareCommit seed name target.2)
    env.act (.replaceRegistration { r with
      targetEpoch := target.1
      targetRevealHeight := target.2
      commitment := prepared.commitment })
  else pure ()

def prepareRegistrationDraft (env : LifecycleEnv W Seed) (accountUuid name paymentAddress : Text)
    (seed : Seed) : NamesProgram W Unit := do
  let drafted ← storeRegistrationDraft env accountUuid name paymentAddress seed
  reservePendingBonds env
  retargetDraft env accountUuid drafted.1 seed drafted.2

/-- The draft, after one more attempt to reserve its bond. -/
def reservedDraft (env : LifecycleEnv W Seed) (accountUuid name : Text) :
    NamesProgram W StoredRegistration := do
  let r ← draftRegistration accountUuid name "prepare the Names registration draft first"
  if r.phase = .awaitingBond then do
    reservePendingBonds env
    draftRegistration accountUuid name "Names registration draft disappeared"
  else pure r

/-- A registration that missed its time is kept, in the phase that says so. -/
def missRegistration (env : LifecycleEnv W Seed) (r : StoredRegistration)
    (phase : RegistrationPhase) (e : String) : NamesProgram W Unit := do
  env.act (.replaceRegistration { r with phase := phase })
  fail e

def proposeCommit (env : LifecycleEnv W Seed) (accountUuid sendFlowId name : Text) (seed : Seed)
    (r : StoredRegistration) : NamesProgram W Unit := do
  let prepared ← ofResult (env.prepareCommit seed name r.targetRevealHeight)
  if prepared.commitment ≠ r.commitment then
    fail "mnemonic does not reproduce this Names registration"
  else do
    env.act (.proposeSend accountUuid sendFlowId)
    env.act (.replaceRegistration { r with
      sendFlowId := some sendFlowId
      phase := .commitProposed })

/-- The first height at which a COMMIT is not too old for its REVEAL. -/
def NamesParameters.commitWindowStart (parameters : NamesParameters) (revealHeight : Nat) : Nat :=
  revealHeight - (parameters.commitTtlBlocks - 1)

def commitWithinWindow (env : LifecycleEnv W Seed) (accountUuid sendFlowId name : Text)
    (seed : Seed) (r : StoredRegistration) (commitHeight : Nat) : NamesProgram W Unit := do
  let window ← ofResult (env.parameters.window name r.targetEpoch)
  if window.stop ≤ commitHeight then
    missRegistration env r .windowMissed
      "the draft's name window was missed; start this unbroadcast registration again"
  else if ¬(window.start ≤ r.targetRevealHeight ∧ r.targetRevealHeight < window.stop) then
    fail "stored REVEAL target is outside its name window"
  else if env.parameters.acceptsCommit commitHeight r.targetRevealHeight then
    proposeCommit env accountUuid sendFlowId name seed r
  else if commitHeight < env.parameters.commitWindowStart r.targetRevealHeight then
    fail s!"COMMIT window opens at height {env.parameters.commitWindowStart r.targetRevealHeight}"
  else
    missRegistration env r .commitWindowMissed "the draft's COMMIT window was missed; start again"

def beginRegistration (env : LifecycleEnv W Seed)
    (accountUuid sendFlowId name paymentAddress : Text) (seed : Seed) : NamesProgram W Unit := do
  let tipHeight ← ofWallet env.lifecycleTip
  let name ← ofResult (env.canonicalRegistrationName name)
  let r ← reservedDraft env accountUuid name
  if r.phase ≠ .bondReserved then
    fail "Names registration does not have a reserved one-ZEC bond"
  else do
    let ua ← ofResult (env.canonicalUa paymentAddress)
    if ua ≠ r.ua then fail "this draft is bound to a different Unified Address"
    else do
      let commitHeight ← ofResult (okOr (checkedAddU32 tipHeight 1)
        "Names construction height overflow")
      commitWithinWindow env accountUuid sendFlowId name seed r commitHeight

def takeCancelled (sendFlowId : Text) : NamesProgram W (Option StoredRegistration) :=
  .atomic (some (.takeCancelledRegistration sendFlowId)) fun s =>
    .finish (.ok (takeCancelledRegistration sendFlowId s.sidecar).1)

def cancelRegistrationProposal (env : LifecycleEnv W Seed) (sendFlowId : Text) :
    NamesProgram W Unit := do
  let removed ← takeCancelled sendFlowId
  match removed with
  | none => pure ()
  | some r =>
    match r.bond with
    | none => pure ()
    | some output => withWalletDbWriteLock env (env.act (.unlockOutput output r.commitment))

def takeWorkflow (accountUuid name : Text) : NamesProgram W (Option StoredRegistration) :=
  .atomic (some (.takeRegistrationWorkflow accountUuid name)) fun s =>
    .finish (.ok (takeRegistrationWorkflow accountUuid name s.sidecar).1)

def RegistrationPhase.discardable (phase : RegistrationPhase) : Bool :=
  decide (phase = .awaitingBond) || decide (phase = .bondReserved) ||
    decide (phase = .windowMissed) || decide (phase = .commitExpired)

def discardRegistrationWorkflow (env : LifecycleEnv W Seed) (accountUuid name : Text) :
    NamesProgram W Unit := do
  let name ← ofResult (env.canonicalRegistrationName name)
  let stored ← stored
  match registration stored accountUuid name with
  | none => pure ()
  | some r =>
    if !r.phase.discardable then
      fail "only an unbroadcast registration workflow can be discarded"
    else do
      let taken ← takeWorkflow accountUuid name
      let removed ← ofResult (okOr taken "Names workflow disappeared")
      match removed.bond with
      | none => pure ()
      | some output =>
        withWalletDbWriteLock env (attempt (.unlockOutput output removed.commitment))

def recoveredPhase : Lifecycle → StoreResult RegistrationPhase
  | .missing => .error "the name is not currently owned or in its owner recovery period"
  | .active => .ok .active
  | .cooldown => .ok .cooldown

def recoverableHead (resolution : Option ManagedResolution) :
    StoreResult (RegistrationPhase × Head × BondOrigin × Nat) := do
  let resolution ← okOr resolution "the name has no authenticated Names state"
  let phase ← recoveredPhase resolution.lifecycle
  let head ← okOr resolution.head "the name has no accepted canonical head"
  let origin ← okOr resolution.bondOrigin "current Names bond recovery metadata is unavailable"
  let position ← okOr resolution.markedPosition "current Names bond position is unavailable"
  return (phase,head,origin,position)

def recoveredRegistration (accountUuid name : Text) (phase : RegistrationPhase) (head : Head) :
    StoredRegistration where
  accountUuid := accountUuid
  name := name
  ua := head.ua
  commitment := head.commitment
  targetEpoch := head.producerEpoch
  targetRevealHeight := head.producer.height
  sendFlowId := none
  bondTxid := none
  bondOutputIndex := none
  commitHeight := none
  commitTxIndex := none
  phase := phase
  commitTxid := none
  revealTxid := none

def recoverRegistration (env : LifecycleEnv W Seed) (accountUuid name : Text) (seed : Seed) :
    NamesProgram W Unit := do
  let name ← ofResult (env.canonicalRegistrationName name)
  let stored ← stored
  if (registration stored accountUuid name).isSome then
    fail "this account already manages that name"
  else do
    ofWallet (env.recoverableAccount accountUuid)
    env.act (.resolveName name)
    let (phase,head,origin,position) ← ofWallet fun wallet =>
      env.acceptedManagedResolution name wallet >>= recoverableHead
    let recovered ← ofResult (env.recoverCurrentBond seed name origin)
    if recovered ≠ (head.commitment,head.futureNf) then
      fail "this wallet does not own the accepted canonical Names bond"
    else do
      env.act (.markRecoveredNamesBond head.producer position head.commitment)
      env.act (.storeRecoveredRegistration (recoveredRegistration accountUuid name phase head))

inductive NamesOperation (W Seed : Type)
  | prepareRegistrationDraft (accountUuid name paymentAddress : Text) (seed : Seed)
  | reservePendingBonds
  | beginRegistration (accountUuid sendFlowId name paymentAddress : Text) (seed : Seed)
  | cancelRegistrationProposal (sendFlowId : Text)
  | discardRegistrationWorkflow (accountUuid name : Text)
  | recoverRegistration (accountUuid name : Text) (seed : Seed)
  | recordCommitBroadcast (sendFlowId : Text) (txid : Bytes32)
  | recordRevealBroadcast (accountUuid name : Text) (txid : Bytes32)
  | persistAfterScan (tipHeight : Nat) (accepted : List (Bytes32 × CommitRef))
  | environment (wallet : W)

def NamesOperation.program (env : LifecycleEnv W Seed) :
    NamesOperation W Seed → NamesProgram W Unit
  | .prepareRegistrationDraft accountUuid name paymentAddress seed =>
    Names.prepareRegistrationDraft env accountUuid name paymentAddress seed
  | .reservePendingBonds => Names.reservePendingBonds env
  | .beginRegistration accountUuid sendFlowId name paymentAddress seed =>
    Names.beginRegistration env accountUuid sendFlowId name paymentAddress seed
  | .cancelRegistrationProposal sendFlowId => Names.cancelRegistrationProposal env sendFlowId
  | .discardRegistrationWorkflow accountUuid name =>
    Names.discardRegistrationWorkflow env accountUuid name
  | .recoverRegistration accountUuid name seed =>
    Names.recoverRegistration env accountUuid name seed
  | .recordCommitBroadcast sendFlowId txid => env.act (.recordCommitBroadcast sendFlowId txid)
  | .recordRevealBroadcast accountUuid name txid =>
    env.act (.recordRevealBroadcast accountUuid name txid)
  | .persistAfterScan tipHeight accepted => env.act (.persistAfterScan tipHeight accepted)
  | .environment wallet => env.act (.environment wallet)

/-- One operation after another; what an operation wrote before it failed stays. -/
def NamesOperation.apply (env : LifecycleEnv W Seed) (operation : NamesOperation W Seed)
    (s : NamesState W) : StoreResult (NamesState W) :=
  .ok ((operation.program env).run env.perform s).2

end CoppiceWallet.Names
