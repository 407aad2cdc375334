import CoppiceWallet.Keystone.Requests

/-!
# Completion of a signed request

Each completion marks its request, stores what the device has signed and drops the request. Until
the result is stored a failure must put the request back. Guards and locks are held by one caller; a
poisoned lock is not modelled.
-/

namespace CoppiceWallet.Keystone

open CoppiceWallet.Lib CoppiceWallet.Store

structure IronwoodMigrationResult where
  txids : Text
  status : String
  broadcastedCount : Nat
  totalCount : Nat
  message : Option String
  fee : Nat
  migrated : Nat

structure PendingMigrationTotals where
  txids : List Text
  value : Nat
  fee : Nat
  totalCount : Nat
  broadcastedCount : Nat

/-- What a completion asks of the wallet database and of the PCZT library. A writer is one
transaction, with the password and the salt of the call in it; a `continue` is what follows once
the run is stored, the broadcast of its transactions. -/
structure CompletionWallet (W : Type) where
  acquireMigrationGuard : Text → StoreResult Unit
  activeMigrationRun : Text → WalletNetwork → W → StoreResult (Option Text)
  migrationReservesOrchardInputs : Text → WalletNetwork → W → StoreResult Bool
  preparedNotesForRun : Text → W → StoreResult (List MigrationNoteRef)
  chainTipHeight : WalletNetwork → W → StoreResult Nat
  pendingTotalsForRun : Text → W → StoreResult PendingMigrationTotals
  preflightOrchardSpendAuthSignatures : Bytes → Bytes → StoreResult Unit
  applySigsAndExtract : Bytes → Bytes → StoreResult (TxidHex × Bytes)
  finalizePrivateMigrationDraft : Text → Text → WalletNetwork → DenominationPlan →
    List MigrationNoteRef → List SignedMigrationPcztInsert → List DenominationStageInsert → W →
    StoreResult W
  createRunWithStagedDenominationsAndSignedChildren : Text → WalletNetwork → DenominationPlan →
    List MigrationNoteRef → List SignedMigrationPcztInsert → List DenominationStageInsert →
    List MigrationScheduleEntry → PreparationTimingPolicy → W → StoreResult (Text × W)
  persistSignedChildPcztsForRun : Text → List SignedMigrationPcztInsert → W → StoreResult W
  insertPendingTxs : Text → List PendingMigrationTxInsert → W → StoreResult W
  replaceResignedPendingParts : Text → WalletNetwork → Nat → List PendingMigrationTxReplacement →
    W → StoreResult W
  continueDenominations : Text → DenominationRequest → List MigrationNoteRef → W →
    StoreResult IronwoodMigrationResult × W
  continueSingleQr : Text → SingleQrRequest → List MigrationNoteRef → W →
    StoreResult IronwoodMigrationResult × W

variable {W : Type}

/-- How a completion ends: what it returns, what it leaves, and whether its result was stored. -/
structure Outcome (β W : Type) where
  result : StoreResult IronwoodMigrationResult
  store : RequestStore β
  wallet : W
  persisted : Bool

def Outcome.failed {β : Type} (e : String) (store : RequestStore β) (wallet : W) : Outcome β W :=
  ⟨.error e,store,wallet,false⟩

/-- A request that was marked, with the signatures for it and the store that holds the mark. -/
structure Taken (β : Type) where
  signedById : SignedById
  request : β
  store : RequestStore β

def denominationStageInsert (env : CompletionWallet W) (signedById : SignedById)
    (stage : CreatedDenominationStagePczt) (stageIndex : Nat) :
    StoreResult DenominationStageInsert := do
  let sigs ← okOr (signedById.lookup stage.id) missingSignature
  env.preflightOrchardSpendAuthSignatures stage.basePczt sigs
  let rawTx ← if stage.deferred then .ok none else do
    let proofed ← okOr stage.pcztWithProofs "Keystone denomination root proofs are not ready"
    let (txid,rawTx) ← env.applySigsAndExtract proofed sigs
    if txid.text ≠ stage.expectedTxid then
      .error "Denomination root extracted an unexpected txid"
    else .ok (some rawTx)
  if stageIndex < u32Limit then
    return {
      stageIndex := stageIndex
      basePczt := stage.basePczt
      sigs := sigs
      rawTx := rawTx
      expectedTxid := stage.expectedTxid
      targetHeight := stage.targetHeight
      scheduledHeight := stage.scheduledHeight
      expiryHeight := stage.expiryHeight
      fee := stage.fee
      status := if stage.deferred then .awaitingInputs else .pending
      inputs := stage.inputs
      outputs := stage.outputs }
  else .error "Denomination stage index overflow"

def signedDenominationStageInserts (env : CompletionWallet W)
    (stages : List CreatedDenominationStagePczt) (signedById : SignedById) :
    StoreResult (List DenominationStageInsert) :=
  stages.zipIdx.mapM fun (stage,stageIndex) =>
    denominationStageInsert env signedById stage stageIndex

def noteRefBefore (left right : MigrationNoteRef) : Prop :=
  right.value < left.value ∨ right.value = left.value ∧
    (left.txid < right.txid ∨ left.txid = right.txid ∧ left.outputIndex ≤ right.outputIndex)

instance : DecidableRel noteRefBefore := fun _ _ => inferInstanceAs (Decidable (_ ∨ _))

def preparedRefsFromDenominationSplit (directRefs : List MigrationNoteRef)
    (stages : List CreatedDenominationStagePczt) : List MigrationNoteRef :=
  let migrationRefs (stage : CreatedDenominationStagePczt) : List MigrationNoteRef :=
    (stage.outputs.filter fun output => decide (output.kind = .migration)).map fun output => {
      txid := stage.expectedTxid
      outputIndex := output.outputIndex
      value := output.value
      noteVersion := output.noteVersion
      nullifier := none }
  (directRefs ++ stages.flatMap migrationRefs).insertionSort noteRefBefore

/-- The proofs of the root transactions are there. -/
def rootProofsReady (stages : List CreatedDenominationStagePczt) : StoreResult Unit :=
  if stages.any fun stage => !stage.deferred && stage.pcztWithProofs.isNone then
    .error "Keystone denomination root proofs are not ready"
  else .ok ()

def denominationMessages : RequestMessages where
  notFound := "Keystone denomination request was not found or was already used"
  otherAccount := "Signed denomination request does not match the active account"
  wrongCount := "Keystone returned another number of messages than denomination splits"
  alreadyCompleting := "Keystone denomination request is already completing"

/-- No message comes back when there is nothing to split. -/
def denominationSignatures (signedMessages : List KeystoneSignedMigrationMessage) :
    StoreResult SignedById :=
  if signedMessages.isEmpty then .ok [] else signedMigrationMessagesById signedMessages

def takeDenominations (env : CompletionWallet W) (call : CompletionCall)
    (store : RequestStore DenominationRequest) : StoreResult (Taken DenominationRequest) := do
  env.acquireMigrationGuard call.accountUuid
  let signedById ← denominationSignatures call.signedMessages
  let (request,taken) ← takeForCompletion denominationMessages call signedById.length
    (fun request => .ok request.splitStages.length)
    (fun request => rootProofsReady request.splitStages) store
  return ⟨signedById,request,taken⟩

def finalizeDenominations (env : CompletionWallet W) (call : CompletionCall)
    (approvedSchedule : List MigrationScheduleEntry) (request : DenominationRequest)
    (preparedRefs : List MigrationNoteRef) (signedById : SignedById) (wallet : W) :
    StoreResult (Text × W) := do
  let denominationStages ← signedDenominationStageInserts env request.splitStages signedById
  match request.draftRunId with
  | some runId =>
    let wallet ← env.finalizePrivateMigrationDraft runId call.accountUuid call.network
      request.plan preparedRefs [] denominationStages wallet
    return (runId,wallet)
  | none =>
    env.createRunWithStagedDenominationsAndSignedChildren call.accountUuid call.network
      request.plan preparedRefs [] denominationStages approvedSchedule
      request.preparationTimingPolicy wallet

def completeOrchardMigrationDenominationsPczt (env : CompletionWallet W) (call : CompletionCall)
    (approvedSchedule : List MigrationScheduleEntry) (store : RequestStore DenominationRequest)
    (wallet : W) : Outcome DenominationRequest W :=
  match takeDenominations env call store with
  | .error e => .failed e store wallet
  | .ok ⟨signedById,request,taken⟩ =>
    if request.splitStages.any fun stage => (signedById.lookup stage.id).isNone then
      .failed missingSignature (resetAfterFailedCompletion call.requestId taken) wallet
    else
      let preparedRefs :=
        preparedRefsFromDenominationSplit request.directPreparedRefs request.splitStages
      match finalizeDenominations env call approvedSchedule request preparedRefs signedById
        wallet with
      | .error e => .failed e (resetAfterFailedCompletion call.requestId taken) wallet
      | .ok (runId,wallet) =>
        let (result,wallet) := env.continueDenominations runId request preparedRefs wallet
        ⟨result,taken.remove call.requestId,wallet,true⟩

/-- The texts of the two kinds that hold child messages. -/
def migrationMessages : RequestMessages where
  notFound := "Keystone migration request was not found or was already used"
  otherAccount := "Signed migration request does not match the active account"
  wrongCount := "Keystone returned another number of messages than requested"
  alreadyCompleting := "Keystone migration request is already completing"

def takeSingleQr (env : CompletionWallet W) (call : CompletionCall)
    (store : RequestStore SingleQrRequest) (wallet : W) : StoreResult (Taken SingleQrRequest) := do
  env.acquireMigrationGuard call.accountUuid
  let signedById ← signedMigrationMessagesById call.signedMessages
  if (← env.migrationReservesOrchardInputs call.accountUuid call.network wallet) then
    .error "Migration already has an active run. Reject this Keystone request."
  else do
  let (request,taken) ← takeForCompletion migrationMessages call signedById.length
    (fun request => okOr
      (Planner.checkedAdd request.childMessages.length request.splitStages.length)
      "Keystone migration message count overflow")
    (fun request => rootProofsReady request.splitStages) store
  return ⟨signedById,request,taken⟩

def signedChildInsert (env : CompletionWallet W) (signedById : SignedById)
    (anchorBoundaryHeight : Option Nat) (child : CreatedMigrationPczt) :
    StoreResult SignedMigrationPcztInsert := do
  let sigs ← okOr (signedById.lookup child.id) missingSignature
  env.preflightOrchardSpendAuthSignatures child.basePczt sigs
  return {
    messageId := child.id
    childIndex := child.partIndex
    basePczt := child.basePczt
    compactSigs := sigs
    targetHeight := child.targetHeight
    anchorBoundaryHeight := anchorBoundaryHeight
    expiryHeight := child.expiryHeight
    scheduledHeight := child.scheduledHeight
    value := child.migrated
    fee := child.fee
    selectedNote := child.selectedNote.toPreparedOrchardNoteRef }

def finalizeSingleQr (env : CompletionWallet W) (call : CompletionCall)
    (request : SingleQrRequest) (preparedRefs : List MigrationNoteRef) (signedById : SignedById)
    (wallet : W) : StoreResult (Text × W) := do
  let denominationStages ← signedDenominationStageInserts env request.splitStages signedById
  let signedChildren ← request.childMessages.mapM fun child =>
    signedChildInsert env signedById child.anchorBoundaryHeight child
  env.createRunWithStagedDenominationsAndSignedChildren call.accountUuid call.network request.plan
    preparedRefs signedChildren denominationStages request.approvedSchedule
    request.preparationTimingPolicy wallet

def completeOrchardMigrationSingleQrPczt (env : CompletionWallet W) (call : CompletionCall)
    (store : RequestStore SingleQrRequest) (wallet : W) : Outcome SingleQrRequest W :=
  match takeSingleQr env call store wallet with
  | .error e => .failed e store wallet
  | .ok ⟨signedById,request,taken⟩ =>
    if (request.splitStages.map CreatedDenominationStagePczt.id ++
        request.childMessages.map CreatedMigrationPczt.id).any
          fun id => (signedById.lookup id).isNone then
      .failed missingSignature (resetAfterFailedCompletion call.requestId taken) wallet
    else
      let preparedRefs :=
        preparedRefsFromDenominationSplit request.directPreparedRefs request.splitStages
      match finalizeSingleQr env call request preparedRefs signedById wallet with
      | .error e => .failed e (resetAfterFailedCompletion call.requestId taken) wallet
      | .ok (runId,wallet) =>
        let (result,wallet) := env.continueSingleQr runId request preparedRefs wallet
        ⟨result,taken.remove call.requestId,wallet,true⟩

def takeBatch (env : CompletionWallet W) (call : CompletionCall)
    (store : RequestStore MigrationBatchRequest) : StoreResult (Taken MigrationBatchRequest) := do
  env.acquireMigrationGuard call.accountUuid
  let signedById ← signedMigrationMessagesById call.signedMessages
  let (request,taken) ← takeForCompletion migrationMessages call signedById.length
    (fun request => .ok request.messages.length)
    (fun request =>
      if !request.recoveryOldTxids.isEmpty &&
          request.messages.any fun message => message.pcztWithProofs.isNone then
        .error "Keystone migration proofs are not ready"
      else .ok ())
    store
  return ⟨signedById,request,taken⟩

/-- The children of a first batch, which are proved later, and the sum of their fees. -/
def initialChildren (env : CompletionWallet W) (signedById : SignedById) :
    List CreatedMigrationPczt → Nat → StoreResult (List SignedMigrationPcztInsert × Nat)
  | [], totalFee => .ok ([],totalFee)
  | message :: messages, totalFee => do
    let child ← signedChildInsert env signedById none message
    let totalFee ← okOr (Planner.checkedAdd totalFee message.fee) "Migration fee total overflow"
    let (children,totalFee) ← initialChildren env signedById messages totalFee
    return (child :: children,totalFee)

def persistInitialBatch (env : CompletionWallet W) (request : MigrationBatchRequest)
    (signedById : SignedById) (wallet : W) : StoreResult (Nat × W) :=
  if request.messages.any fun message => message.pcztWithProofs.isSome then
    .error "Initial Keystone migration request unexpectedly contains proofs"
  else do
    let (children,totalFee) ← initialChildren env signedById request.messages 0
    let wallet ← env.persistSignedChildPcztsForRun request.runId children wallet
    return (totalFee,wallet)

def pendingInsert (env : CompletionWallet W) (signedById : SignedById)
    (message : CreatedMigrationPczt) : StoreResult PendingMigrationTxInsert := do
  let sigs ← okOr (signedById.lookup message.id) missingSignature
  let proofed ← okOr message.pcztWithProofs "Keystone migration proof missing"
  let (txid,rawTx) ← env.applySigsAndExtract proofed sigs
  return {
    partIndex := message.partIndex
    txid := txid
    rawTx := rawTx
    targetHeight := message.targetHeight
    anchorBoundaryHeight := message.anchorBoundaryHeight
    expiryHeight := message.expiryHeight
    scheduledHeight := message.scheduledHeight
    value := message.migrated
    fee := message.fee
    selectedNote := message.selectedNote.toPreparedOrchardNoteRef }

def persistRecoveryBatch (env : CompletionWallet W) (call : CompletionCall)
    (request : MigrationBatchRequest) (signedById : SignedById) (wallet : W) : StoreResult W := do
  let pendingInserts ← request.messages.mapM (pendingInsert env signedById)
  if request.recoveryOldTxids.isEmpty then
    env.insertPendingTxs request.runId pendingInserts wallet
  else if request.recoveryOldTxids.length ≠ pendingInserts.length then
    .error "Expired migration recovery batch changed size"
  else do
    let replacements := List.zipWith PendingMigrationTxReplacement.mk request.recoveryOldTxids
      pendingInserts
    let chainTipHeight ← env.chainTipHeight call.network wallet
    if chainTipHeight < u32Limit then
      env.replaceResignedPendingParts request.runId call.network chainTipHeight replacements wallet
    else .error "Migration chain tip exceeds u32"

def migrationResultFromPendingTotals (totals : PendingMigrationTotals) (status : String)
    (message : Option String) (fallbackTotalCount fallbackMigrated : Nat) :
    IronwoodMigrationResult where
  txids := [','].intercalate totals.txids
  status := status
  broadcastedCount := totals.broadcastedCount
  totalCount := max totals.totalCount fallbackTotalCount
  message := message
  fee := totals.fee
  migrated := max totals.value fallbackMigrated

/-- Storing a marked batch, once the run it belongs to is known to be active. -/
def persistBatch (env : CompletionWallet W) (call : CompletionCall)
    (signedById : SignedById) (request : MigrationBatchRequest)
    (taken : RequestStore MigrationBatchRequest) (wallet : W) : Outcome MigrationBatchRequest W :=
  if request.recoveryOldTxids.isEmpty then
    match persistInitialBatch env request signedById wallet with
    | .error e => .failed e (resetAfterFailedCompletion call.requestId taken) wallet
    | .ok (totalFee,wallet) => {
        result := .ok {
          txids := []
          status := "ready_to_migrate"
          broadcastedCount := 0
          totalCount := request.fallbackTotalCount
          message := some "Migration transactions were signed and will continue when the safe anchor is ready."
          fee := totalFee
          migrated := request.fallbackMigrated }
        store := taken.remove call.requestId
        wallet := wallet
        persisted := true }
  else
    match persistRecoveryBatch env call request signedById wallet with
    | .error e => .failed e (resetAfterFailedCompletion call.requestId taken) wallet
    | .ok wallet =>
      match env.pendingTotalsForRun request.runId wallet with
      | .error e => ⟨.error e,resetAfterFailedCompletion call.requestId taken,wallet,true⟩
      | .ok totals => {
          result := .ok (migrationResultFromPendingTotals totals "broadcast_scheduled"
            (some "Migration transactions were signed and scheduled for delayed broadcast.")
            request.fallbackTotalCount request.fallbackMigrated)
          store := taken.remove call.requestId
          wallet := wallet
          persisted := true }

def completeOrchardMigrationBatchPczt (env : CompletionWallet W) (call : CompletionCall)
    (store : RequestStore MigrationBatchRequest) (wallet : W) : Outcome MigrationBatchRequest W :=
  match takeBatch env call store with
  | .error e => .failed e store wallet
  | .ok ⟨signedById,request,taken⟩ =>
    match env.activeMigrationRun call.accountUuid call.network wallet with
    -- These two, and the read of the prepared notes, return with the request still marked.
    | .error e => .failed e taken wallet
    | .ok none => .failed "No active migration run" taken wallet
    | .ok (some runId) =>
      if runId ≠ request.runId then
        .failed "Signed migration request is for an old migration run"
          (resetAfterFailedCompletion call.requestId taken) wallet
      else
        match env.preparedNotesForRun runId wallet with
        | .error e => .failed e taken wallet
        | .ok currentPrepared =>
          if request.messages.all fun message =>
              currentPrepared.any fun current =>
                samePreparedNoteWithoutNullifier current message.selectedNote then
            persistBatch env call signedById request taken wallet
          else
            .failed "Prepared migration notes changed before completion"
              (resetAfterFailedCompletion call.requestId taken) wallet

/-- After a failure before the result is stored, a ready request is in the store as it was. -/
def FreesRequest {β : Type} (call : CompletionCall) (store : RequestStore β)
    (outcome : Outcome β W) : Prop :=
  ∀ stored e, store call.requestId = some stored → stored.state = .proofReady →
    outcome.result = .error e → outcome.persisted = false →
    outcome.store call.requestId = some stored

variable {env : CompletionWallet W} {call : CompletionCall} {wallet wallet' : W} {β : Type}
  {store : RequestStore β} {e : String}

theorem frees_failed : FreesRequest call store (.failed e store wallet) :=
  fun _ _ hstored _ _ _ => hstored

theorem frees_persisted {outcome : Outcome β W} (h : outcome.persisted = true) :
    FreesRequest call store outcome := by
  intro stored e _ _ _ hpersisted
  rw [h] at hpersisted
  cases hpersisted

theorem takeDenominations_ok {store : RequestStore DenominationRequest}
    {taken : Taken DenominationRequest} (h : takeDenominations env call store = .ok taken) :
    resetAfterFailedCompletion call.requestId taken.store = store := by
  obtain ⟨_,_,h⟩ := bind_ok h
  obtain ⟨_,_,h⟩ := bind_ok h
  obtain ⟨⟨_,_⟩,htake,h⟩ := bind_ok h
  cases h
  exact reset_takeForCompletion htake

theorem takeSingleQr_ok {store : RequestStore SingleQrRequest} {taken : Taken SingleQrRequest}
    (h : takeSingleQr env call store wallet = .ok taken) :
    resetAfterFailedCompletion call.requestId taken.store = store := by
  obtain ⟨_,_,h⟩ := bind_ok h
  obtain ⟨_,_,h⟩ := bind_ok h
  obtain ⟨_,_,h⟩ := bind_ok h
  split at h
  · cases h
  · obtain ⟨⟨_,_⟩,htake,h⟩ := bind_ok h
    cases h
    exact reset_takeForCompletion htake

theorem takeBatch_ok {store : RequestStore MigrationBatchRequest}
    {taken : Taken MigrationBatchRequest} (h : takeBatch env call store = .ok taken) :
    resetAfterFailedCompletion call.requestId taken.store = store ∧
    ∃ stored, store call.requestId = some stored ∧ stored.state = .proofReady ∧
      taken.store call.requestId ≠ some stored := by
  obtain ⟨_,_,h⟩ := bind_ok h
  obtain ⟨_,_,h⟩ := bind_ok h
  obtain ⟨⟨_,_⟩,htake,h⟩ := bind_ok h
  cases h
  refine ⟨reset_takeForCompletion htake,?_⟩
  obtain ⟨stored,hstored,hready,rfl⟩ := takeForCompletion_ok htake
  refine ⟨stored,hstored,hready,?_⟩
  intro hsame
  simp only [RequestStore.insert,Function.update_self,Option.some.injEq] at hsame
  rw [← hsame] at hready
  cases hready

theorem completeDenominations_frees (env : CompletionWallet W) (call : CompletionCall)
    (approvedSchedule : List MigrationScheduleEntry) (store : RequestStore DenominationRequest)
    (wallet : W) :
    FreesRequest call store
      (completeOrchardMigrationDenominationsPczt env call approvedSchedule store wallet) := by
  unfold completeOrchardMigrationDenominationsPczt
  split
  · exact frees_failed
  · have hreset := takeDenominations_ok ‹_›
    split
    · rw [hreset]
      exact frees_failed
    · dsimp only
      split
      · rw [hreset]
        exact frees_failed
      · exact frees_persisted rfl

theorem completeSingleQr_frees (env : CompletionWallet W) (call : CompletionCall)
    (store : RequestStore SingleQrRequest) (wallet : W) :
    FreesRequest call store (completeOrchardMigrationSingleQrPczt env call store wallet) := by
  unfold completeOrchardMigrationSingleQrPczt
  split
  · exact frees_failed
  · have hreset := takeSingleQr_ok ‹_›
    split
    · rw [hreset]
      exact frees_failed
    · dsimp only
      split
      · rw [hreset]
        exact frees_failed
      · exact frees_persisted rfl

theorem persistBatch_frees {store taken : RequestStore MigrationBatchRequest}
    (hreset : resetAfterFailedCompletion call.requestId taken = store) (signedById : SignedById)
    (request : MigrationBatchRequest) (wallet : W) :
    FreesRequest call store (persistBatch env call signedById request taken wallet) := by
  unfold persistBatch
  split
  · split
    · rw [hreset]
      exact frees_failed
    · exact frees_persisted rfl
  · split
    · rw [hreset]
      exact frees_failed
    · split <;> exact frees_persisted rfl

/-- The run of the account can be read, and its prepared notes when it is the run of the batch. -/
def RunReadable (env : CompletionWallet W) (call : CompletionCall)
    (request : MigrationBatchRequest) (wallet : W) : Prop :=
  ∃ runId, env.activeMigrationRun call.accountUuid call.network wallet = .ok (some runId) ∧
    (runId = request.runId → ∃ notes, env.preparedNotesForRun runId wallet = .ok notes)

theorem completeBatch_frees_iff (env : CompletionWallet W) (call : CompletionCall)
    (store : RequestStore MigrationBatchRequest) (wallet : W) :
    FreesRequest call store (completeOrchardMigrationBatchPczt env call store wallet) ↔
      ∀ taken, takeBatch env call store = .ok taken →
        RunReadable env call taken.request wallet := by
  unfold completeOrchardMigrationBatchPczt
  cases htake : takeBatch env call store with
  | error e => exact iff_of_true frees_failed (fun _ h => nomatch h)
  | ok taken =>
    obtain ⟨signedById,request,taken⟩ := taken
    obtain ⟨hreset,stored,hstored,hready,hmarked⟩ := takeBatch_ok htake
    have hstuck : ∀ e, ¬ FreesRequest call store (.failed e taken wallet) :=
      fun e hfrees => hmarked (hfrees stored e hstored hready rfl rfl)
    have hall : (∀ t : Taken MigrationBatchRequest,
        (.ok ⟨signedById,request,taken⟩ : StoreResult (Taken MigrationBatchRequest)) = .ok t →
          RunReadable env call t.request wallet) ↔ RunReadable env call request wallet := by
      constructor
      · intro h
        exact h _ rfl
      · intro h t ht
        cases ht
        exact h
    rw [hall]
    dsimp only
    cases hrun : env.activeMigrationRun call.accountUuid call.network wallet with
    | error e =>
      refine iff_of_false (hstuck e) ?_
      rintro ⟨_,hactive,_⟩
      rw [hrun] at hactive
      cases hactive
    | ok run =>
      cases run with
      | none =>
        refine iff_of_false (hstuck _) ?_
        rintro ⟨_,hactive,_⟩
        rw [hrun] at hactive
        cases hactive
      | some runId =>
        dsimp only
        by_cases hsame : runId = request.runId
        · rw [if_neg (not_not.mpr hsame)]
          cases hnotes : env.preparedNotesForRun runId wallet with
          | error e =>
            refine iff_of_false (hstuck e) ?_
            rintro ⟨_,hactive,hreadable⟩
            rw [hrun] at hactive
            cases hactive
            obtain ⟨_,hread⟩ := hreadable hsame
            rw [hnotes] at hread
            cases hread
          | ok notes =>
            refine iff_of_true ?_ ⟨runId,hrun,fun _ => ⟨notes,hnotes⟩⟩
            dsimp only
            split
            · exact persistBatch_frees hreset signedById request wallet
            · rw [hreset]
              exact frees_failed
        · rw [if_pos hsame,hreset]
          exact iff_of_true frees_failed ⟨runId,hrun,fun h => absurd h hsame⟩

/-- The first two completions always free a request that they fail to store; the batch does if
and only if its run, and the notes of that run, could be read. -/
theorem failedCompletion_frees (env : CompletionWallet W) (call : CompletionCall) (wallet : W) :
    (∀ approvedSchedule store, FreesRequest call store
      (completeOrchardMigrationDenominationsPczt env call approvedSchedule store wallet)) ∧
    (∀ store, FreesRequest call store
      (completeOrchardMigrationSingleQrPczt env call store wallet)) ∧
    ∀ store, FreesRequest call store (completeOrchardMigrationBatchPczt env call store wallet) ↔
      ∀ taken, takeBatch env call store = .ok taken →
        RunReadable env call taken.request wallet :=
  ⟨fun approvedSchedule store => completeDenominations_frees env call approvedSchedule store wallet,
    fun store => completeSingleQr_frees env call store wallet,
    fun store => completeBatch_frees_iff env call store wallet⟩

/-! The run of a ready batch is abandoned before its signatures arrive. -/

/-- A wallet that holds the id of its active run. -/
def activeRunWallet : CompletionWallet (Option Text) where
  acquireMigrationGuard _ := .ok ()
  activeMigrationRun _ _ run := .ok run
  migrationReservesOrchardInputs _ _ run := .ok run.isSome
  preparedNotesForRun _ _ := .ok []
  chainTipHeight _ _ := .ok 0
  pendingTotalsForRun _ _ := .ok ⟨[],0,0,0,0⟩
  preflightOrchardSpendAuthSignatures _ _ := .ok ()
  applySigsAndExtract _ _ := .error "The signatures do not verify"
  finalizePrivateMigrationDraft runId _ _ _ _ _ _ _ := .ok (some runId)
  createRunWithStagedDenominationsAndSignedChildren _ _ _ _ _ _ _ _ _ :=
    .ok (['r'],some ['r'])
  persistSignedChildPcztsForRun _ _ run := .ok run
  insertPendingTxs _ _ run := .ok run
  replaceResignedPendingParts _ _ _ _ run := .ok run
  continueDenominations _ _ _ run := (.error "The server cannot be reached",run)
  continueSingleQr _ _ _ run := (.error "The server cannot be reached",run)

def readyBatch : StoredRequest MigrationBatchRequest where
  accountUuid := ['a']
  network := .main
  state := .proofReady
  proofError := none
  body := {
    runId := ['r']
    fallbackTotalCount := 1
    fallbackMigrated := 100000000
    recoveryOldTxids := []
    messages := [{
      partIndex := 0
      id := ['m']
      basePczt := [1]
      pcztWithProofs := none
      targetHeight := 100
      anchorBoundaryHeight := none
      expiryHeight := 34560
      scheduledHeight := 100
      fee := 15000
      migrated := 100000000
      selectedNote := {
        txid := ['t']
        outputIndex := 0
        value := 100015000
        noteVersion := 2
        nullifier := none } }] }

def signedBatch : CompletionCall := ⟨['a'],.main,['q'],[⟨['m'],[1]⟩]⟩

theorem abandonedRun_keepsRequestMarked :
    ¬ FreesRequest signedBatch (RequestStore.insert (fun _ => none) ['q'] readyBatch)
      (completeOrchardMigrationBatchPczt activeRunWallet signedBatch
        (RequestStore.insert (fun _ => none) ['q'] readyBatch) none) := by
  intro hfrees
  have hstate := congrArg (Option.map StoredRequest.state)
    (hfrees readyBatch "No active migration run" rfl rfl rfl rfl)
  cases hstate

end CoppiceWallet.Keystone
