import CoppiceWallet.Names.Sidecar

/-!
# The Names host of a wallet

The host holds the position of the Core runtime, a resolver for every managed name and the tail of
compact blocks in which the COMMIT of a REVEAL is looked up. The protocol crates are parameters; the
rewind journal is left out, and a checkpoint is the record that its JSON text stands for.
-/

namespace CoppiceWallet.Names

open CoppiceWallet.Lib CoppiceWallet.Store

abbrev Bytes := List (BitVec 8)

structure ChainPoint where
  height : Nat
  hash : Bytes32
  deriving DecidableEq

/-- Where the Core runtime stands: its tip, and the size of the Ironwood tree there. -/
structure CorePosition extends ChainPoint where
  treeSize : Nat

/-- A field of bytes that should be 32 of them; it is absent when it is not. -/
abbrev Exact32 := Option Bytes32

structure CompactTx where
  index : Nat
  txid : Exact32
  ironwoodActions : List Bytes

structure CompactBlock where
  height : Nat
  hash : Exact32
  prevHash : Exact32
  vtx : List CompactTx

structure CoreTransaction where
  txIndex : Nat
  commitments : List Bytes32
  content : Bytes

/-- A block that the Core runtime authenticated, with the position it leads to. -/
structure BlockContext extends CorePosition where
  transactions : List CoreTransaction

inductive Operation
  | commit (commitment : Bytes32)
  | reveal (commit : CommitRef) (ua : Text) (actionIndex : Nat)
  | refresh (predecessor : StateRef) (ua : Text) (actionIndex : Nat)
  | other

structure ExactTransaction where
  txIndex : Nat
  txid : Bytes32
  nullifiers : List Bytes32
  operation : Option Operation
  content : Bytes

/-- What a block holds for one name. -/
structure ExactBlock where
  height : Nat
  hash : Bytes32
  transactions : List ExactTransaction

structure ReferencedCommit where
  reference : CommitRef
  commitment : Bytes32
  deriving DecidableEq

structure CommitChange where
  reference : CommitRef
  evidence : Option Bytes32
  deriving DecidableEq

structure HeadChange where
  name : Text
  head : Option Head

structure StateDelta where
  fromTip : Option ChainPoint
  toTip : Option ChainPoint
  commits : List CommitChange
  heads : List HeadChange

structure ManagedLeaf where
  commitment : Bytes32
  mark : Bool

structure ManagedBlockDelta where
  height : Nat
  blockStartPosition : Option Nat
  leaves : List ManagedLeaf
  acceptedCommits : List (Bytes32 × CommitRef)
  stateDelta : StateDelta

/-- The exact resolver of a name; `R` is its state. -/
structure ExactResolver (R : Type) where
  new : Text → Bytes32 → StoreResult R
  tip : R → Option ChainPoint
  resolve : R → Nat → StoreResult Resolution
  applyBlockDetailed : R → ExactBlock → List ReferencedCommit → StoreResult (R × StateDelta)
  pendingCommit : R → CommitRef → Option Bytes32
  saveSnapshot : R → StoreResult Bytes
  loadSnapshot : Text → Bytes → StoreResult R

structure HostEnv (R : Type) where
  parameters : NamesParameters
  resolver : ExactResolver R
  parseName : Text → StoreResult Text
  parseUa : Text → StoreResult Text
  canonicalField : Bytes32 → Bool
  rendezvous : Bytes
  nameRoute : Text → StoreResult Bytes
  acceptsOperation : Text → Nat → Bool
  compactAction : Bytes → Option Bytes
  isRendezvous : Bytes → Bytes → Bool
  newCore : CorePosition → StoreResult Unit
  applyCore : CorePosition → CompactBlock → (Bytes32 → Option Bytes) → Bool → List Bytes →
    StoreResult BlockContext
  actionPosition : BlockContext → Nat → Nat → StoreResult Nat
  inspectBlock : BlockContext → Text → StoreResult ExactBlock
  authenticate : Nat → CompactTx → Bytes → StoreResult Unit
  inspectName : Nat → CompactTx → Bytes → Text → StoreResult (Option Operation)
  inspectCommit : Nat → CompactTx → Bytes → StoreResult (Option Operation)
  maxFullTransactionBytes : Nat

/-- The positions of bonds in the Ironwood tree, by the nullifiers that spend them. -/
abbrev BondPositions := Table (Bytes32 × Nat) Bytes32 Prod.fst

structure ManagedResolver (R : Type) where
  name : Text
  resolver : R
  bondPositions : BondPositions
  bondOrigin : Option BondOrigin

abbrev ManagedResolvers (R : Type) := Table (ManagedResolver R) Text ManagedResolver.name

structure NamesHost (R : Type) where
  core : CorePosition
  resolvers : ManagedResolvers R
  recentCompactBlocks : List CompactBlock
  watchedCommitTxids : List Bytes32

variable {R : Type}

def addResolver (env : HostEnv R) (parentHash : Bytes32) (resolvers : ManagedResolvers R)
    (value : Text) : StoreResult (ManagedResolvers R) := do
  let name ← env.parseName value
  let resolver ← env.resolver.new name parentHash
  okOr (resolvers.insert ⟨name,resolver,Table.empty,none⟩) "duplicate managed Names label"

def fromCheckpoint (env : HostEnv R) (checkpoint : CorePosition) (names : List Text) :
    StoreResult (NamesHost R) := do
  env.newCore checkpoint
  let resolvers ← names.foldlM (addResolver env checkpoint.hash) Table.empty
  return ⟨checkpoint,resolvers,[],[]⟩

/-- The COMMITs of the wallet that no REVEAL has followed yet. -/
def watchRegistrations (registrations : List StoredRegistration) (host : NamesHost R) :
    NamesHost R :=
  { host with watchedCommitTxids :=
      (registrations.filter fun r => r.revealTxid.isNone).filterMap (·.commitTxid) }

def runtimeCheckpointFormatVersion : Nat := 3

structure StoredManagedResolver where
  name : Text
  resolver : Bytes
  bondPositions : List (Bytes32 × Nat)
  bondOrigin : Option BondOrigin

structure StoredRuntimeCheckpoint where
  formatVersion : Nat
  coreHeight : Nat
  coreHash : Bytes32
  ironwoodTreeSize : Nat
  resolvers : List StoredManagedResolver

def saveResolver (env : HostEnv R) (managed : ManagedResolver R) :
    StoreResult StoredManagedResolver := do
  let resolver ← env.resolver.saveSnapshot managed.resolver
  return ⟨managed.name,resolver,managed.bondPositions.rows,managed.bondOrigin⟩

def saveCheckpoint (env : HostEnv R) (host : NamesHost R) : StoreResult StoredRuntimeCheckpoint := do
  let resolvers ← host.resolvers.rows.mapM (saveResolver env)
  return ⟨runtimeCheckpointFormatVersion,host.core.height,host.core.hash,host.core.treeSize,resolvers⟩

/-- A resolver that has seen no block belongs to a Core before the activation. -/
def tipMatches (env : HostEnv R) (core : CorePosition) (resolver : R) : Bool :=
  match env.resolver.tip resolver with
  | none => decide (checkedAddU32 core.height 1 = some env.parameters.activationHeight)
  | some tip => decide (tip = core.toChainPoint)

def loadBondPosition (env : HostEnv R) (treeSize : Nat) (positions : BondPositions)
    (entry : Bytes32 × Nat) : StoreResult BondPositions :=
  if !env.canonicalField entry.1 then .error "checkpoint contains a noncanonical nullifier"
  else if treeSize ≤ entry.2 then
    .error "checkpoint contains an invalid managed bond position"
  else okOr (positions.insert entry) "checkpoint contains an invalid managed bond position"

def BondOrigin.epoch : BondOrigin → Nat
  | .reveal _ epoch _ _ _ => epoch
  | .refresh _ epoch _ _ _ => epoch

def BondOrigin.ua : BondOrigin → Text
  | .reveal _ _ ua _ _ => ua
  | .refresh _ _ ua _ _ => ua

def BondOrigin.actionIndex : BondOrigin → Nat
  | .reveal _ _ _ actionIndex _ => actionIndex
  | .refresh _ _ _ actionIndex _ => actionIndex

def BondOrigin.actionNullifier : BondOrigin → Bytes32
  | .reveal _ _ _ _ actionNullifier => actionNullifier
  | .refresh _ _ _ _ actionNullifier => actionNullifier

/-- The origin is that of the bond which the head commits to. -/
def BondOrigin.belongsTo (origin : BondOrigin) (head : Head) : Prop :=
  head.producerEpoch = origin.epoch ∧ head.producer.actionIndex = origin.actionIndex ∧
    head.ua = origin.ua

instance (origin : BondOrigin) (head : Head) : Decidable (origin.belongsTo head) :=
  inferInstanceAs (Decidable (_ ∧ _ ∧ _))

def checkBondOrigin (env : HostEnv R) (core : CorePosition) (resolver : R) :
    Option BondOrigin → StoreResult Unit
  | none => .ok ()
  | some origin => do
    let _ ← env.parseUa origin.ua
    if !env.canonicalField origin.actionNullifier then
      .error "checkpoint contains a noncanonical bond-origin nullifier"
    else do
      let resolution ← env.resolver.resolve resolver core.height
      let head ← okOr resolution.head "checkpoint bond origin has no resolved head"
      if origin.belongsTo head then return ()
      else .error "checkpoint bond origin does not match resolved head"

def loadResolver (env : HostEnv R) (core : CorePosition) (resolvers : ManagedResolvers R)
    (stored : StoredManagedResolver) : StoreResult (ManagedResolvers R) := do
  let name ← env.parseName stored.name
  let resolver ← env.resolver.loadSnapshot name stored.resolver
  if !tipMatches env core resolver then .error "Core and exact Names checkpoint tips differ"
  else do
    let positions ← stored.bondPositions.foldlM (loadBondPosition env core.treeSize) Table.empty
    checkBondOrigin env core resolver stored.bondOrigin
    okOr (resolvers.insert ⟨name,resolver,positions,stored.bondOrigin⟩)
      "checkpoint contains a duplicate managed name"

def loadCheckpoint (env : HostEnv R) (stored : StoredRuntimeCheckpoint) :
    StoreResult (NamesHost R) :=
  if stored.formatVersion ≠ runtimeCheckpointFormatVersion then
    .error "unsupported Names runtime checkpoint format"
  else do
    let core : CorePosition := ⟨⟨stored.coreHeight,stored.coreHash⟩,stored.ironwoodTreeSize⟩
    env.newCore core
    let resolvers ← stored.resolvers.foldlM (loadResolver env core) Table.empty
    return ⟨core,resolvers,[],[]⟩

/-- The COMMITs of the block that the resolver now holds as pending. -/
def acceptedCommits (resolver : ExactResolver R) (state : R) (block : ExactBlock) :
    List (Bytes32 × CommitRef) :=
  block.transactions.filterMap fun transaction =>
    match transaction.operation with
    | some (.commit commitment) =>
      let reference : CommitRef := ⟨block.height,transaction.txIndex,transaction.txid⟩
      if resolver.pendingCommit state reference = some commitment then some (commitment,reference)
      else none
    | _ => none

/-- The operation in the block that produced the head. -/
def producedOrigin (block : ExactBlock) (head : Head) : StoreResult BondOrigin := do
  let producer ← okOr
    (block.transactions.find? fun transaction => decide (transaction.txIndex = head.producer.txIndex))
    "accepted Names producer transaction is absent"
  let nullifier ← okOr producer.nullifiers[head.producer.actionIndex]?
    "accepted Names producer action is absent"
  match producer.operation with
  | some (.reveal commit ua actionIndex) =>
    return .reveal commit head.producerEpoch ua actionIndex nullifier
  | some (.refresh predecessor ua actionIndex) =>
    return .refresh predecessor head.producerEpoch ua actionIndex nullifier
  | _ => .error "accepted Names head has no state operation"

structure ExactOutcome where
  stateDelta : StateDelta
  acceptedCommits : List (Bytes32 × CommitRef)
  /-- The position of the bond, when the block gave the name a new one. -/
  markPosition : Option Nat

def unspentPositions (positions : BondPositions) (block : ExactBlock) : BondPositions :=
  positions.delete fun entry =>
    block.transactions.any fun transaction => transaction.nullifiers.contains entry.1

/-- The position and the origin of the bond that the block gave to the name. -/
def newBond (env : HostEnv R) (context : BlockContext) (block : ExactBlock) :
    Option Head → StoreResult (Option (Bytes32 × Nat × BondOrigin))
  | none => .ok none
  | some head =>
    if head.producer.height ≠ block.height then .ok none
    else do
      let position ← env.actionPosition context head.producer.txIndex head.producer.actionIndex
      let origin ← producedOrigin block head
      return some (head.futureNf,position,origin)

def ManagedResolver.withBond (managed : ManagedResolver R) :
    Option (Bytes32 × Nat × BondOrigin) → ManagedResolver R
  | none => managed
  | some (futureNf,position,origin) =>
    { managed with
      bondPositions := managed.bondPositions.replace (futureNf,position)
      bondOrigin := some origin }

def applyManaged (env : HostEnv R) (context : BlockContext)
    (referenced : Text → List ReferencedCommit) (managed : ManagedResolver R) :
    StoreResult (ManagedResolver R × ExactOutcome) := do
  let block ← env.inspectBlock context managed.name
  let (resolver,stateDelta) ← env.resolver.applyBlockDetailed managed.resolver block
    (referenced managed.name)
  let resolution ← env.resolver.resolve resolver block.height
  let bond ← newBond env context block resolution.head
  let applied : ManagedResolver R :=
    { managed with
      resolver := resolver
      bondPositions := unspentPositions managed.bondPositions block }
  return (applied.withBond bond,
    ⟨stateDelta,acceptedCommits env.resolver resolver block,bond.map fun bond => bond.2.1⟩)

def CommitRef.le (a b : CommitRef) : Bool :=
  decide (a.height < b.height) || decide (a.height = b.height) && (decide (a.txIndex < b.txIndex) ||
    decide (a.txIndex = b.txIndex) && decide (a.txid ≤ b.txid))

def addCommitChange (commits : List CommitChange) (change : CommitChange) :
    StoreResult (List CommitChange) :=
  match commits.find? fun existing => decide (existing.reference = change.reference) with
  | some existing =>
    if existing ≠ change then .error "managed exact resolvers disagreed on COMMIT evidence"
    else .ok commits
  | none => .ok (commits ++ [change])

/-- The names share a tip and the evidence on COMMITs. -/
def combineStateDelta (combined : Option StateDelta) (stateDelta : StateDelta) :
    StoreResult (Option StateDelta) :=
  match combined with
  | none => .ok (some stateDelta)
  | some combined =>
    if combined.fromTip ≠ stateDelta.fromTip ∨ combined.toTip ≠ stateDelta.toTip then
      .error "managed exact resolvers produced inconsistent canonical deltas"
    else do
      let commits ← stateDelta.commits.foldlM addCommitChange combined.commits
      return some { combined with
        commits := commits.mergeSort fun a b => a.reference.le b.reference
        heads := combined.heads ++ stateDelta.heads }

def positionedLeaves (env : HostEnv R) (context : BlockContext) (marks : List Nat)
    (transaction : CoreTransaction) : StoreResult (List ManagedLeaf) :=
  transaction.commitments.zipIdx.mapM fun (commitment,actionIndex) => do
    let position ← env.actionPosition context transaction.txIndex actionIndex
    return ⟨commitment,marks.contains position⟩

def blockStartPosition (env : HostEnv R) (context : BlockContext) : StoreResult (Option Nat) :=
  match context.transactions.find? fun transaction => !transaction.commitments.isEmpty with
  | none => .ok none
  | some transaction => some <$> env.actionPosition context transaction.txIndex 0

def blockDelta (env : HostEnv R) (context : BlockContext) (outcomes : List ExactOutcome) :
    StoreResult ManagedBlockDelta := do
  let combined ← outcomes.foldlM (fun combined outcome => combineStateDelta combined outcome.stateDelta)
    none
  let marks := (outcomes.filterMap (·.markPosition)).dedup
  let accepted : Table (Bytes32 × CommitRef) Bytes32 Prod.fst :=
    (outcomes.flatMap (·.acceptedCommits)).foldl Table.replace Table.empty
  let leaves ← context.transactions.mapM (positionedLeaves env context marks)
  let startPosition ← blockStartPosition env context
  if marks.length ≠ leaves.flatten.countP (·.mark) then
    .error "managed Names head is absent from the complete block action list"
  else do
    let stateDelta ← okOr combined "custody-sensitive Names host has no managed resolvers"
    return ⟨context.height,startPosition,leaves.flatten,accepted.rows,stateDelta⟩

theorem applyManaged_ok {env : HostEnv R} {context : BlockContext}
    {referenced : Text → List ReferencedCommit} {managed : ManagedResolver R}
    {result : ManagedResolver R × ExactOutcome}
    (h : applyManaged env context referenced managed = .ok result) :
    ∃ block resolver stateDelta resolution bond,
      env.inspectBlock context managed.name = .ok block ∧
      env.resolver.applyBlockDetailed managed.resolver block (referenced managed.name) =
        .ok (resolver,stateDelta) ∧
      env.resolver.resolve resolver block.height = .ok resolution ∧
      newBond env context block resolution.head = .ok bond ∧
      result.1 = ManagedResolver.withBond { managed with
        resolver := resolver
        bondPositions := unspentPositions managed.bondPositions block } bond := by
  obtain ⟨block,hblock,h⟩ := bind_ok h
  obtain ⟨⟨resolver,stateDelta⟩,happly,h⟩ := bind_ok h
  obtain ⟨resolution,hresolution,h⟩ := bind_ok h
  obtain ⟨bond,hbond,h⟩ := bind_ok h
  cases h
  exact ⟨block,resolver,stateDelta,resolution,bond,hblock,happly,hresolution,hbond,rfl⟩

theorem applyManaged_name {env : HostEnv R} {context : BlockContext}
    {referenced : Text → List ReferencedCommit} (managed : ManagedResolver R)
    (result : ManagedResolver R × ExactOutcome)
    (h : applyManaged env context referenced managed = .ok result) :
    result.1.name = managed.name := by
  obtain ⟨_,_,_,_,bond,_,_,_,_,hresult⟩ := applyManaged_ok h
  rw [hresult]
  cases bond <;> rfl

/-- What a block of the Core runtime does to the managed names. An error of a name is reported
before a disagreement between names. -/
def applyAuthenticatedBlock (env : HostEnv R) (context : BlockContext)
    (referenced : Text → List ReferencedCommit) (resolvers : ManagedResolvers R) :
    StoreResult (ManagedResolvers R × ManagedBlockDelta) := do
  let (resolvers,outcomes) ← resolvers.traverse (applyManaged env context referenced)
    applyManaged_name
  let delta ← blockDelta env context outcomes
  return (resolvers,delta)

def u32Height (height : Nat) (e : String) : StoreResult Nat :=
  if height < u32Limit then .ok height else .error e

def pruneCompactBlocks (ttl height : Nat) (blocks : List CompactBlock) : List CompactBlock :=
  blocks.dropWhile fun oldest =>
    decide (oldest.height < u32Limit) && decide (ttl ≤ height - oldest.height)

def rememberCompactBlock (ttl : Nat) (blocks : List CompactBlock) (block : CompactBlock) :
    StoreResult (List CompactBlock) := do
  let height ← u32Height block.height "compact block height exceeds u32"
  if blocks.getLast?.any fun prior => decide (prior.height < u32Limit) && decide (height ≤ prior.height)
  then .error "recent compact blocks are not strictly ordered"
  else return pruneCompactBlocks ttl height (blocks ++ [block])

def namedRoutesForHeight (env : HostEnv R) (names : List Text) (height : Nat) :
    StoreResult (List (Text × Bytes)) :=
  (names.filter fun name => env.acceptsOperation name height).mapM fun name => do
    let route ← env.nameRoute name
    return (name,route)

def NamesHost.names (host : NamesHost R) : List Text := host.resolvers.rows.map (·.name)

/-- A block as the batch prepared it: the full transactions that were acquired, whether the generic
route is observed, and the COMMITs that the REVEALs of the block refer to. -/
structure PreparedBlock where
  block : CompactBlock
  source : Bytes32 → Option Bytes
  observeGeneric : Bool
  referenced : Text → List ReferencedCommit

/-- The Core runtime authenticates the block, with the routes of the names that it is open to. -/
def blockContext (env : HostEnv R) (prepared : PreparedBlock) (names : List Text)
    (core : CorePosition) : StoreResult BlockContext := do
  let height ← u32Height prepared.block.height "Names batch height exceeds u32"
  let routes ← namedRoutesForHeight env names height
  env.applyCore core prepared.block prepared.source prepared.observeGeneric (routes.map Prod.snd)

def applyBlock (env : HostEnv R) (prepared : PreparedBlock) (host : NamesHost R) :
    StoreResult (NamesHost R × ManagedBlockDelta) := do
  let context ← blockContext env prepared host.names host.core
  let (resolvers,delta) ← applyAuthenticatedBlock env context prepared.referenced host.resolvers
  let recentCompactBlocks ← rememberCompactBlock env.parameters.commitTtlBlocks
    host.recentCompactBlocks prepared.block
  return ({ host with
    core := context.toCorePosition
    resolvers := resolvers
    recentCompactBlocks := recentCompactBlocks },delta)

end CoppiceWallet.Names
