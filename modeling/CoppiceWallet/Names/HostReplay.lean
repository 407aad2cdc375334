import CoppiceWallet.Names.HostCheckpoint

/-!
# The replay of a batch of compact blocks

A batch is scanned for transactions on the wallet's routes, the COMMITs that REVEALs refer to are
looked up, and the blocks are applied one after another to a copy of the host. What the source keeps
by height is kept by block.
-/

namespace CoppiceWallet.Names

open CoppiceWallet.Lib CoppiceWallet.Store

variable {R : Type}

structure CompactClient where
  downloadBlocks : Nat → Nat → StoreResult (List CompactBlock)
  getTransaction : Bytes32 → StoreResult Bytes

def linkCompactBlock (previous : Option ChainPoint) (block : CompactBlock) :
    StoreResult (Option ChainPoint) := do
  let height ← u32Height block.height "historical compact block height exceeds u32"
  let hash ← okOr block.hash "historical compact block has an invalid hash"
  let prevHash ← okOr block.prevHash "historical compact block has an invalid previous hash"
  if previous.any fun prior =>
      decide (checkedAddU32 prior.height 1 ≠ some height) || decide (prior.hash ≠ prevHash) then
    .error "historical compact-block tail is not contiguous"
  else return some ⟨height,hash⟩

def primeRecentCompactBlocks (env : HostEnv R) (blocks : List CompactBlock) (host : NamesHost R) :
    StoreResult (NamesHost R) :=
  if !host.recentCompactBlocks.isEmpty || blocks.isEmpty then .ok host
  else do
    let last ← blocks.foldlM linkCompactBlock none
    if last ≠ some host.core.toChainPoint then
      .error "historical compact-block tail is not bound to the Names tip"
    else do
      let tail ← blocks.foldlM (rememberCompactBlock env.parameters.commitTtlBlocks)
        host.recentCompactBlocks
      return { host with recentCompactBlocks := tail }

def ensureRecentCompactTail (env : HostEnv R) (client : CompactClient) (host : NamesHost R) :
    StoreResult (NamesHost R) :=
  if !host.recentCompactBlocks.isEmpty ||
      decide (host.core.height < env.parameters.activationHeight) then .ok host
  else do
    let tailStart := max (host.core.height - (env.parameters.commitTtlBlocks - 2))
      env.parameters.activationHeight
    let tail ← client.downloadBlocks tailStart host.core.height
    primeRecentCompactBlocks env tail host

def routeHits (env : HostEnv R) (routes : List (Text × Bytes)) (transaction : CompactTx) :
    StoreResult (Bool × List Text) := do
  let actions ← transaction.ironwoodActions.mapM fun encoded =>
    okOr (env.compactAction encoded) "invalid compact Ironwood action"
  return (actions.any (env.isRendezvous env.rendezvous),
    (routes.filter fun route => actions.any (env.isRendezvous route.2)).map Prod.fst)

def matchesRoute (env : HostEnv R) (route : Bytes) : List Bytes → StoreResult Bool
  | [] => .ok false
  | encoded :: actions => do
    let action ← okOr (env.compactAction encoded) "invalid compact Ironwood action"
    if env.isRendezvous route action then return true else matchesRoute env route actions

structure ScannedTx where
  compact : CompactTx
  txid : Bytes32
  generic : Bool
  names : List Text

structure ScannedBlock where
  block : CompactBlock
  observeGeneric : Bool
  transactions : List ScannedTx

def scanTx (env : HostEnv R) (routes : List (Text × Bytes)) (transaction : CompactTx) :
    StoreResult ScannedTx := do
  let txid ← okOr transaction.txid "compact transaction has a non-32-byte txid"
  let hits ← routeHits env routes transaction
  return ⟨transaction,txid,hits.1,hits.2⟩

/-- The generic route is observed only in a block with a COMMIT that the wallet watches. -/
def scanBlock (env : HostEnv R) (names : List Text) (watched : List Bytes32)
    (block : CompactBlock) : StoreResult ScannedBlock := do
  let height ← u32Height block.height "Names batch height exceeds u32"
  let routes ← namedRoutesForHeight env names height
  let transactions ← block.vtx.mapM (scanTx env routes)
  return ⟨block,transactions.any fun t => t.generic && watched.contains t.txid,transactions⟩

def ScannedBlock.txids (scanned : ScannedBlock) : List Bytes32 :=
  (scanned.transactions.filter fun t =>
    !t.names.isEmpty || scanned.observeGeneric && t.generic).map (·.txid)

def maxAcquiredFullTransactionBytes : Nat := 64 * 1024 * 1024

structure Acquired where
  transactions : List (Bytes32 × Bytes)
  bytes : Nat

def Acquired.get (acquired : Acquired) (txid : Bytes32) : Option Bytes :=
  (acquired.transactions.find? fun entry => decide (entry.1 = txid)).map Prod.snd

def fetchFullTransaction (env : HostEnv R) (client : CompactClient) (acquired : Acquired)
    (txid : Bytes32) : StoreResult Acquired :=
  if (acquired.get txid).isSome then .ok acquired
  else do
    let raw ← client.getTransaction txid
    if env.maxFullTransactionBytes < raw.length then
      .error "full transaction exceeds acquisition limit"
    else if maxAcquiredFullTransactionBytes < acquired.bytes + raw.length then
      .error "full transaction acquisition exceeds its limit"
    else return ⟨(txid,raw) :: acquired.transactions,acquired.bytes + raw.length⟩

def historyEntries (block : CompactBlock) : List (CommitRef × CompactTx) :=
  block.vtx.filterMap fun transaction =>
    if block.height < u32Limit ∧ transaction.index < u32Limit then
      transaction.txid.map fun txid => (⟨block.height,transaction.index,txid⟩,transaction)
    else none

/-- The transaction at a place of the history; a later entry for a place replaces an earlier one. -/
def compactTransactionHistory (prior current : List CompactBlock) (reference : CommitRef) :
    Option CompactTx :=
  (((prior ++ current).flatMap historyEntries).reverse.find? fun entry =>
    decide (entry.1 = reference)).map Prod.snd

structure RequestedCommit where
  name : Text
  reference : CommitRef
  compact : CompactTx

/-- The COMMIT is within the ages that a REVEAL at the height may refer to. -/
def NamesParameters.refersTo (parameters : NamesParameters) (revealHeight : Nat)
    (commit : CommitRef) : Bool :=
  decide (commit.height ≤ revealHeight) && decide (parameters.activationHeight ≤ commit.height) &&
    decide (parameters.commitMaturityBlocks ≤ revealHeight - commit.height) &&
    decide (revealHeight - commit.height < parameters.commitTtlBlocks)

def requestedCommit (env : HostEnv R) (history : CommitRef → Option CompactTx) (revealHeight : Nat)
    (compact : CompactTx) (bytes : Bytes) (canonicalName : Text) :
    StoreResult (Option RequestedCommit) := do
  let name ← env.parseName canonicalName
  let status ← env.inspectName revealHeight compact bytes name
  match status with
  | some (.reveal commit _ _) =>
    if env.parameters.refersTo revealHeight commit then
      match history commit with
      | none => return none
      | some referenced => do
        let hit ← matchesRoute env env.rendezvous referenced.ironwoodActions
        return if hit then some ⟨canonicalName,commit,referenced⟩ else none
    else return none
  | _ => return none

def requestedByTx (env : HostEnv R) (history : CommitRef → Option CompactTx)
    (acquired : Bytes32 → Option Bytes) (revealHeight : Nat) (t : ScannedTx) :
    StoreResult (List RequestedCommit) := do
  let bytes ← okOr (acquired t.txid) "exact-route transaction was not acquired"
  env.authenticate revealHeight t.compact bytes
  let requests ← t.names.mapM (requestedCommit env history revealHeight t.compact bytes)
  return requests.reduceOption

def requestedCommits (env : HostEnv R) (history : CommitRef → Option CompactTx)
    (acquired : Bytes32 → Option Bytes) (scanned : ScannedBlock) :
    StoreResult (List RequestedCommit) :=
  List.flatten <$> (scanned.transactions.filter fun t => !t.names.isEmpty).mapM
    (requestedByTx env history acquired scanned.block.height)

def referencedCommit (env : HostEnv R) (acquired : Bytes32 → Option Bytes)
    (request : RequestedCommit) : StoreResult (Option (Text × ReferencedCommit)) := do
  let bytes ← okOr (acquired request.reference.txid)
    "referenced COMMIT transaction was not acquired"
  env.authenticate request.reference.height request.compact bytes
  let status ← env.inspectCommit request.reference.height request.compact bytes
  match status with
  | some (.commit commitment) => return some (request.name,⟨request.reference,commitment⟩)
  | _ => return none

def referencedCommits (env : HostEnv R) (acquired : Bytes32 → Option Bytes)
    (requests : List RequestedCommit) : StoreResult (List (Text × ReferencedCommit)) :=
  List.reduceOption <$> requests.mapM (referencedCommit env acquired)

def preparedBlock (source : Bytes32 → Option Bytes) (scanned : ScannedBlock)
    (referenced : List (Text × ReferencedCommit)) : PreparedBlock where
  block := scanned.block
  source := source
  observeGeneric := scanned.observeGeneric
  referenced name := (referenced.filter fun entry => decide (entry.1 = name)).map Prod.snd

def prepareBatch (env : HostEnv R) (client : CompactClient) (blocks : List CompactBlock)
    (host : NamesHost R) : StoreResult (List PreparedBlock) := do
  let scanned ← blocks.mapM (scanBlock env host.names host.watchedCommitTxids)
  let acquired ← (scanned.flatMap (·.txids)).foldlM (fetchFullTransaction env client) ⟨[],0⟩
  let history := compactTransactionHistory host.recentCompactBlocks blocks
  let requests ← scanned.mapM (requestedCommits env history acquired.get)
  let acquired ← (requests.flatten.map (·.reference.txid)).foldlM
    (fetchFullTransaction env client) acquired
  let referenced ← requests.mapM (referencedCommits env acquired.get)
  return List.zipWith (preparedBlock acquired.get) scanned referenced

def applyBlocks (env : HostEnv R) :
    List PreparedBlock → NamesHost R → StoreResult (NamesHost R × List ManagedBlockDelta)
  | [], host => .ok (host,[])
  | prepared :: blocks, host => do
    let (host,delta) ← applyBlock env prepared host
    let (host,deltas) ← applyBlocks env blocks host
    return (host,delta :: deltas)

def startBatch (env : HostEnv R) (client : CompactClient) (first : CompactBlock)
    (host : NamesHost R) : StoreResult (NamesHost R) := do
  let firstHeight ← u32Height first.height "Names batch height exceeds u32"
  if checkedAddU32 host.core.height 1 ≠ some firstHeight then
    .error "Names host tip is not immediately before batch"
  else ensureRecentCompactTail env client host

def applyBatch (env : HostEnv R) (client : CompactClient) (blocks : List CompactBlock)
    (host : NamesHost R) : StoreResult (NamesHost R × List ManagedBlockDelta) := do
  let prepared ← prepareBatch env client blocks host
  applyBlocks env prepared host

/-- The deltas of a batch, and the host after it: an error leaves it as the batch found it, but for
the tail. -/
def applyCompactBlocks (env : HostEnv R) (client : CompactClient) (blocks : List CompactBlock)
    (host : NamesHost R) : StoreResult (List ManagedBlockDelta) × NamesHost R :=
  match blocks with
  | [] => (.ok [],host)
  | first :: rest =>
    match startBatch env client first host with
    | .error e => (.error e,host)
    | .ok primed =>
      match applyBatch env client (first :: rest) primed with
      | .error e => (.error e,primed)
      | .ok (next,deltas) => (.ok deltas,next)

end CoppiceWallet.Names
