import CoppiceWallet.Store.Schedule

/-!
# From signed children to pending transactions

A retained child becomes a pending transaction once it can be proved. Before the first promotion the
approved schedule may be shifted, once, to the height at which proofs can be made.
-/

namespace CoppiceWallet.Store

open CoppiceWallet.Lib

structure SignedMigrationPcztInsert where
  messageId : Text
  childIndex : Nat
  basePczt : Bytes
  compactSigs : Bytes
  targetHeight : Nat
  anchorBoundaryHeight : Option Nat
  expiryHeight : Nat
  scheduledHeight : Nat
  value : Nat
  fee : Nat
  selectedNote : PreparedOrchardNoteRef

inductive SignedChildInsertMode
  | initial
  | replacement
  deriving DecidableEq

/-- The origin that the initial children share, after one more child. -/
def signedScheduleOriginWith (schedule : List MigrationScheduleEntry) (targetValues : List Nat)
    (mode : SignedChildInsertMode) (child : SignedMigrationPcztInsert)
    (signedScheduleOrigin : Option Nat) : StoreResult (Option Nat) :=
  if schedule.isEmpty then .ok signedScheduleOrigin else do
  let blockOffset ← okOr
    (scheduleBlockOffsetForPart schedule targetValues child.childIndex child.value)
    "Approved migration schedule is missing a signed child"
  if mode = .replacement then .ok signedScheduleOrigin else do
  let childScheduleOrigin ← okOr (checkedSub child.scheduledHeight blockOffset)
    "Signed migration schedule starts below zero"
  if signedScheduleOrigin.all (fun origin => decide (origin = childScheduleOrigin)) then
    .ok (some childScheduleOrigin)
  else .error "Signed migration children do not share one absolute schedule origin"

/-- A replacement is scheduled on the recovery ladder. -/
def checkReplacementOrigin (mode : SignedChildInsertMode) (recoveryOrigin : Option Nat)
    (child : SignedMigrationPcztInsert) : StoreResult Unit :=
  match mode with
  | .initial => .ok ()
  | .replacement => do
    let recoveryOrigin ← okOr recoveryOrigin "Migration recovery schedule origin is missing"
    let _ ← okOr (checkedSub child.scheduledHeight recoveryOrigin)
      "Signed migration schedule starts below zero"
    return ()

def encryptSignedChild (key : PayloadKey) (child : SignedMigrationPcztInsert) :
    StoreResult SignedChild := do
  let encryptedBasePczt ← key.encrypt child.basePczt
  let encryptedCompactSigs ← key.encrypt child.compactSigs
  return {
    messageId := child.messageId
    childIndex := child.childIndex
    encryptedBasePczt
    encryptedCompactSigs
    targetHeight := child.targetHeight
    anchorBoundaryHeight := child.anchorBoundaryHeight
    expiryHeight := child.expiryHeight
    scheduledHeight := child.scheduledHeight
    value := child.value
    fee := child.fee
    selectedNote := child.selectedNote }

/-- Insert the children in order; the second component is the origin they share. -/
def insertSignedChildRows (key : PayloadKey) (mode : SignedChildInsertMode) :
    List SignedMigrationPcztInsert → Option Nat → RunState → StoreResult (RunState × Option Nat)
  | [], signedScheduleOrigin, db => .ok (db, signedScheduleOrigin)
  | child :: children, signedScheduleOrigin, db => do
    let canonicalExpiry ← zip318CanonicalMigrationExpiryHeight child.scheduledHeight
    if child.expiryHeight ≠ canonicalExpiry then
      .error "Signed migration child expiry is not canonical for scheduled height"
    else do
      let signedScheduleOrigin ← signedScheduleOriginWith db.run.schedule db.run.targetValues mode
        child signedScheduleOrigin
      checkReplacementOrigin mode db.run.recoveryScheduleOriginHeight child
      let row ← encryptSignedChild key child
      insertSignedChildRows key mode children signedScheduleOrigin
        { db with children := db.children.replace row }

def insertSignedChildPczts (key : StoreResult PayloadKey) (mode : SignedChildInsertMode)
    (signedChildren : List SignedMigrationPcztInsert) (db : RunState) : StoreResult RunState :=
  if signedChildren.isEmpty then .ok db else do
  let key ← key
  let persistedOrigin := db.run.signedScheduleOriginHeight
  let (db, signedScheduleOrigin) ← insertSignedChildRows key mode signedChildren
    (if mode = .initial then persistedOrigin else none) db
  return if mode = .initial ∧ persistedOrigin = none then
    db.setRun fun run => { run with signedScheduleOriginHeight := signedScheduleOrigin }
  else db

def persistSignedChildPczts (key : StoreResult PayloadKey)
    (signedChildren : List SignedMigrationPcztInsert) (db : RunState) : StoreResult RunState :=
  if signedChildren.isEmpty then .error "Keystone migration returned no signed children" else do
  let db ← insertSignedChildPczts key .initial signedChildren db
  if db.run.phase = .readyToMigrate then
    return db.setRun fun run => { run with lastError := none }
  else .error "Migration run is no longer ready for Keystone signatures"

/-- What the rebase does with the children: rewrite their heights, freeze the schedule as it is, or
leave the decision to a later call. -/
inductive RebaseDecision
  | rewrite (updates : List (Text × Nat))
  | freeze
  | leave

namespace RebaseDecision

def withUpdate (update : Text × Nat) : RebaseDecision → RebaseDecision
  | .rewrite updates => .rewrite (update :: updates)
  | .freeze => .freeze
  | .leave => .leave

end RebaseDecision

def rebaseSignedChildren (schedule : List MigrationScheduleEntry) (targetValues : List Nat)
    (signedScheduleOrigin newOrigin : Nat) : List SignedChild → StoreResult RebaseDecision
  | [] => .ok (.rewrite [])
  | child :: children =>
    match scheduleBlockOffsetForPart schedule targetValues child.childIndex child.value with
    | none => .ok .freeze
    | some blockOffset =>
      -- An underflow and a mixed origin both freeze the attempt.
      if checkedSub child.scheduledHeight blockOffset ≠ some signedScheduleOrigin then .ok .freeze
      else match checkedAddU32 newOrigin blockOffset with
        | none => .ok .freeze
        | some newScheduledHeight => do
          let newExpiry ← zip318CanonicalMigrationExpiryHeight newScheduledHeight
          if newExpiry ≠ child.expiryHeight then .ok .leave
          else do
            let rest ← rebaseSignedChildren schedule targetValues signedScheduleOrigin newOrigin
              children
            return rest.withUpdate (child.messageId, newScheduledHeight)

def updateChildScheduledHeight (db : RunState) (update : Text × Nat) : RunState :=
  let children := db.children.update (fun c => decide (c.messageId = update.1))
    (fun c => { c with scheduledHeight := update.2 }) fun _ => rfl
  { db with children }

def markInitialScheduleRebased (oldOrigin : Nat) (db : RunState) : RunState :=
  db.setRun fun run => { run with initialScheduleRebasedOriginHeight := some oldOrigin }

def childBefore (a b : SignedChild) : Prop :=
  a.childIndex < b.childIndex ∨ a.childIndex = b.childIndex ∧ a.messageId ≤ b.messageId

instance : DecidableRel childBefore := fun a b =>
  inferInstanceAs (Decidable (a.childIndex < b.childIndex ∨
    a.childIndex = b.childIndex ∧ a.messageId ≤ b.messageId))

/-- The children by index, when they cover the planned parts exactly. -/
def rebaseCandidates (db : RunState) : Option (List SignedChild) :=
  let children := db.children.rows.insertionSort childBefore
  let indexes := children.map SignedChild.childIndex
  if children.isEmpty then none
  else if indexes.all (fun i => decide (i < db.plannedPartCount)) &&
      (List.range db.plannedPartCount).all indexes.contains then some children
  else none

/-- Whether the rebase may be attempted now, and from which origin. -/
def rebaseOrigin (currentScannedHeight : Nat) (db : RunState) : Option Nat :=
  if db.run.initialScheduleRebasedOriginHeight.isSome then none
  else match db.run.proofRetryHeight with
    | none => none
    | some proofRetryHeight =>
      if currentScannedHeight < proofRetryHeight then none
      else match db.run.signedScheduleOriginHeight with
        | none => none
        | some signedScheduleOrigin =>
          if 0 < db.pending.length then none
          else if db.run.schedule.isEmpty then none
          else some signedScheduleOrigin

def rebaseInitialSignedSchedule (currentScannedHeight : Nat) (db : RunState) :
    StoreResult (Bool × RunState) :=
  match rebaseOrigin currentScannedHeight db, rebaseCandidates db with
  | some signedScheduleOrigin, some children => do
    let newOrigin := max signedScheduleOrigin currentScannedHeight
    if newOrigin = signedScheduleOrigin then
      return (false, markInitialScheduleRebased signedScheduleOrigin db)
    else do
      let decision ← rebaseSignedChildren db.run.schedule db.run.targetValues signedScheduleOrigin
        newOrigin children
      match decision with
      | .freeze => return (false, markInitialScheduleRebased signedScheduleOrigin db)
      | .leave => return (false, db)
      | .rewrite updates =>
        return (true, (updates.foldl updateChildScheduledHeight db).setRun fun run =>
          { run with
            signedScheduleOriginHeight := some newOrigin
            initialScheduleRebasedOriginHeight := some newOrigin })
  | _, _ => .ok (false, db)

structure PendingMigrationTxInsert where
  partIndex : Nat
  txid : TxidHex
  rawTx : Bytes
  targetHeight : Nat
  anchorBoundaryHeight : Option Nat
  expiryHeight : Nat
  scheduledHeight : Nat
  value : Nat
  fee : Nat
  selectedNote : PreparedOrchardNoteRef

/-- A run created without a schedule gets one now. -/
def ensureApprovedSchedule (rng : Rng) (run : Run) : Run :=
  if run.schedule.isEmpty then
    { run with schedule :=
        plannedTransferScheduleWithPolicy rng run.targetValues run.network run.timingPolicy }
  else run

/-- Rows written before children carried their own schedule have `scheduled_height = target_height`
as a marker; the shared origin is then recovered from the target, unless that changes the bucket. -/
def recoverLegacyScheduledHeight (pending : PendingMigrationTxInsert) (blockOffset : Nat) :
    StoreResult Nat :=
  if pending.scheduledHeight ≠ pending.targetHeight then .ok pending.scheduledHeight else do
  let targetExpiry ← zip318CanonicalMigrationExpiryHeight pending.targetHeight
  if pending.expiryHeight ≠ targetExpiry then .ok pending.scheduledHeight else do
  let legacyScheduledHeight ← okOr (checkedAddU32 (pending.targetHeight - 1) blockOffset)
    "Legacy migration scheduled height overflow"
  let legacyExpiry ← zip318CanonicalMigrationExpiryHeight legacyScheduledHeight
  if pending.expiryHeight = legacyExpiry then .ok legacyScheduledHeight
  else .ok pending.scheduledHeight

def matchesRetainedReplacement (db : RunState) (pending : PendingMigrationTxInsert) : Bool :=
  db.children.rows.any fun c =>
    decide (c.childIndex = pending.partIndex ∧ c.scheduledHeight = pending.scheduledHeight ∧
      c.expiryHeight = pending.expiryHeight ∧ c.value = pending.value)

/-- Check a part's origin against the run's, or against the parts before it; the result is the
origin that the parts so far share. -/
def checkScheduleOrigin (db : RunState) (pending : PendingMigrationTxInsert) (scheduleOrigin : Nat)
    (incomingOrigin : Option Nat) : StoreResult (Option Nat) :=
  match db.run.signedScheduleOriginHeight with
  | some persistedOrigin =>
    if scheduleOrigin = persistedOrigin ∨ matchesRetainedReplacement db pending = true then
      .ok incomingOrigin
    else .error "Signed migration child no longer matches the immutable signed schedule origin"
  | none =>
    if incomingOrigin.all (fun origin => decide (origin = scheduleOrigin)) then
      .ok (some scheduleOrigin)
    else .error "Initial signed migration children do not share one absolute schedule origin"

/-- The height and the origin under which one transaction is inserted. -/
def schedulePendingTx (db : RunState) (pending : PendingMigrationTxInsert)
    (incomingOrigin : Option Nat) :
    StoreResult (PendingMigrationTxInsert × Nat × Option Nat) := do
  let entry ← okOr
    (scheduleEntryForPart db.run.schedule db.run.targetValues pending.partIndex pending.value)
    "Approved migration schedule no longer matches prepared values"
  let scheduledHeight ← recoverLegacyScheduledHeight pending entry.blockOffset
  let pending := { pending with scheduledHeight }
  let scheduleOrigin ← okOr (checkedSub pending.scheduledHeight entry.blockOffset)
    "Migration signed schedule starts below zero"
  let incomingOrigin ← checkScheduleOrigin db pending scheduleOrigin incomingOrigin
  let canonicalExpiry ← zip318CanonicalMigrationExpiryHeight pending.scheduledHeight
  if pending.expiryHeight ≠ canonicalExpiry then
    .error "Migration transaction expiry is not canonical for scheduled height"
  else return (pending, scheduleOrigin, incomingOrigin)

def schedulePendingTxs (db : RunState) :
    List PendingMigrationTxInsert → List Nat → Option Nat →
      StoreResult (List (PendingMigrationTxInsert × Nat) × Option Nat)
  | [], _, incomingOrigin => .ok ([], incomingOrigin)
  | pending :: rest, seen, incomingOrigin =>
    if seen.contains pending.partIndex then
      .error "Migration pending part index is duplicated"
    else do
      let (scheduled, scheduleOrigin, incomingOrigin) ← schedulePendingTx db pending incomingOrigin
      let (tail, incomingOrigin) ←
        schedulePendingTxs db rest (pending.partIndex :: seen) incomingOrigin
      return ((scheduled, scheduleOrigin) :: tail, incomingOrigin)

/-- `INSERT` under the primary key and the unique part index. -/
def insertPendingRow (row : PendingTx) (db : RunState) : StoreResult RunState :=
  if row.partIndex.isSome && db.pending.rows.any (fun p => decide (p.partIndex = row.partIndex)) then
    .error "UNIQUE constraint failed: part_index"
  else do
    let pending ← okOr (db.pending.insert row) "UNIQUE constraint failed: txid_hex"
    return { db with pending }

def pendingRow (key : PayloadKey) (pending : PendingMigrationTxInsert)
    (scheduleStartHeight : Nat) (originalScheduledHeight : Option Nat) : StoreResult PendingTx := do
  let encryptedRawTx ← key.encrypt pending.rawTx
  return {
    txid := pending.txid
    partIndex := some pending.partIndex
    encryptedRawTx
    targetHeight := pending.targetHeight
    anchorBoundaryHeight := pending.anchorBoundaryHeight
    expiryHeight := pending.expiryHeight
    value := pending.value
    fee := pending.fee
    selectedNote := pending.selectedNote
    scheduleStartHeight := some scheduleStartHeight
    scheduledHeight := pending.scheduledHeight
    originalScheduledHeight
    rebuildBlockOffset := none
    status := .scheduled }

def insertScheduledPendingTxs (key : PayloadKey) :
    List (PendingMigrationTxInsert × Nat) → RunState → StoreResult RunState
  | [], db => .ok db
  | (pending, scheduleOrigin) :: rest, db => do
    let row ← pendingRow key pending scheduleOrigin (some pending.scheduledHeight)
    let db ← insertPendingRow row db
    insertScheduledPendingTxs key rest db

def insertPendingTxs (rng : Rng) (key : StoreResult PayloadKey)
    (pendingTxs : List PendingMigrationTxInsert) (db : RunState) : StoreResult RunState := do
  let db := db.setRun (ensureApprovedSchedule rng)
  validateScheduleWithPolicy db.run.schedule db.run.targetValues db.run.network db.run.timingPolicy
  let (scheduled, incomingOrigin) ← schedulePendingTxs db pendingTxs [] none
  let key ← key
  let db ← insertScheduledPendingTxs key scheduled db
  return db.setRun fun run =>
    { run with
      signedScheduleOriginHeight := run.signedScheduleOriginHeight.or incomingOrigin
      phase := .broadcastScheduled
      lastError := none }

/-- Proving may have shifted the schedule after the caller loaded the child. -/
def refreshScheduledHeight (db : RunState) (pending : PendingMigrationTxInsert) :
    StoreResult PendingMigrationTxInsert := do
  let child ← okOr (db.children.find? fun c => decide (c.childIndex = pending.partIndex))
    "Read current signed migration child schedule: Query returned no rows"
  return { pending with scheduledHeight := child.scheduledHeight }

/-- The children that have no pending transaction of their index. -/
def hasUnprovedChild (db : RunState) : Bool :=
  db.children.rows.any fun c =>
    !db.pending.rows.any fun p => decide (p.partIndex = some c.childIndex)

def promoteSignedChildPcztsToPendingTxs (rng : Rng) (key : StoreResult PayloadKey)
    (pendingTxs : List PendingMigrationTxInsert)
    (currentScannedHeight remainingChildRetryHeight : Nat) (db : RunState) : StoreResult RunState :=
  if pendingTxs.isEmpty then .ok db
  else if !db.migrationPartAssignmentComplete then
    .error "Migration signing batches are incomplete before proof promotion"
  else do
    let (_, db) ← rebaseInitialSignedSchedule currentScannedHeight db
    let pendingTxs ← pendingTxs.mapM (refreshScheduledHeight db)
    let db ← insertPendingTxs rng key pendingTxs db
    return db.setRun fun run =>
      { run with proofRetryHeight :=
          if hasUnprovedChild db then some remainingChildRetryHeight else none }

end CoppiceWallet.Store
