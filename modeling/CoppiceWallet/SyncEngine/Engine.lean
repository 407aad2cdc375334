import CoppiceWallet.SyncEngine.Tip

/-!
# The sync engine

`run_sync_inner` and the `run_sync_impl` attempts it makes, one step at a time. Between two steps
the process may stop. Every answer of the server and of the wallet database is an input of the step
that receives it.
-/

namespace CoppiceWallet.SyncEngine

/-- The reasons the engine has for rewinding the wallet. -/
inductive RewindPath
  | initialTip
  | periodicTip
  | queueDrainTip
  | postBatchTip
  | scan
  | anchorRepair (anchorHeight : Nat)
  deriving DecidableEq

/-- The tip of the server proved a reorg. -/
def RewindPath.isTipReorg : RewindPath → Bool
  | .initialTip | .periodicTip | .queueDrainTip | .postBatchTip => true
  | .scan | .anchorRepair _ => false

/-- Where an attempt is. -/
inductive SyncPoint
  | starting
  /-- Between two attempts of `run_sync_inner`. -/
  | waiting
  | connecting
  /-- About to truncate the wallet, for the sake of a tip. -/
  | rewinding (path : RewindPath) (tipHeight : Nat)
  /-- The wallet is truncated to a height; its chain tip is not updated yet. -/
  | requeueing (path : RewindPath) (tipHeight actualHeight : Nat)
  | preparing
  | loopStart
  | picking
  | drained
  | checkingWitnesses
  | comparingAnchor
  | repairingAnchor (anchorHeight : Nat)
  | checkingCompletion
  | scanning (range : ScanRange)
  | afterBatch
  | finishing
  | completing (finalTipHeight : Nat)
  | reporting (finalTipHeight : Nat)
  | reported (finalTipHeight : Nat)

/-- Where a cancel or a mode change is looked for. -/
def SyncPoint.observesExit : SyncPoint → Bool
  | .waiting | .connecting | .preparing | .loopStart | .drained | .scanning _ | .afterBatch => true
  | _ => false

/-- Where a failing call ends the attempt. -/
def SyncPoint.mayFail : SyncPoint → Bool
  | .waiting | .reporting _ | .reported _ => false
  | _ => true

/-- An attempt and its local variables. -/
structure SyncRun where
  attempt : Nat
  point : SyncPoint
  currentTipHeight : Nat
  mainRewindsThisRun : Nat
  verifyRewindsThisRun : Nat
  witnessRepairPassesThisRun : Nat
  anchorRootRepairPassesThisRun : Nat
  forceWitnessCheckThisRun : Bool
  completionTipValidationRequired : Bool
  queuedRanges : Option (List ScanRange)

def SyncRun.start (attempt : Nat) : SyncRun where
  attempt := attempt
  point := .starting
  currentTipHeight := 0
  mainRewindsThisRun := 0
  verifyRewindsThisRun := 0
  witnessRepairPassesThisRun := 0
  anchorRootRepairPassesThisRun := 0
  forceWitnessCheckThisRun := false
  completionTipValidationRequired := false
  queuedRanges := none

/-- What the history records. -/
inductive SyncEvent
  | started
  | tipAccepted (height : Nat)
  | truncated (path : RewindPath)
  | rescansQueued
  /-- `check_witnesses` ran, on an empty scan queue or not, and returned no ranges or some. -/
  | witnessesChecked (queueEmpty clean : Bool)
  /-- The check after the loop passed on this wallet. -/
  | finalCheck (wallet : WalletView)
  | completed (height : Nat)
  | completionReported (height : Nat)
  | statusInitialized (scannedHeight chainTipHeight : Nat)
  | statusReturned (completedHeight : Option Nat)

/-- The wallet database, the rows of the engine, the run if there is one, the status reads under way
and the history, the latest event first. -/
structure Engine where
  wallet : WalletView
  rows : SyncMeta
  run : Option SyncRun
  readers : List StatusRead
  history : List SyncEvent

def Engine.init (wallet : WalletView) : Engine := ⟨wallet,.empty,none,[],[]⟩

/-- What `update_chain_tip` answers. -/
inductive UpdateAnswer
  | updated (wallet : WalletView)
  | failed (lockContention : Bool)

/-- `update_chain_tip` adds ranges to the queue and takes none out of it. -/
def UpdateAnswer.KeepsPending (before : WalletView) : UpdateAnswer → Prop
  | .updated wallet => before.pending ≠ 0 → wallet.pending ≠ 0
  | .failed _ => True

instance (before : WalletView) : (answer : UpdateAnswer) → Decidable (answer.KeepsPending before)
  | .updated wallet => inferInstanceAs (Decidable (before.pending ≠ 0 → wallet.pending ≠ 0))
  | .failed _ => .isTrue trivial

/-- What a tip refresh hears: the tip, the compact block at its height and the answer of
`update_chain_tip`, each used only where the engine asks for it. -/
structure TipAnswers where
  tip : ServerTip
  compactBlockHash : Except SyncError BlockHash
  update : UpdateAnswer

/-- What `check_witnesses` returns, and what becomes of it: the clean marker is written or not, or
the rescans are queued. -/
inductive WitnessAnswer
  | clean (marked : Bool)
  | rescan (wallet : WalletView)

inductive SyncInput
  /-- `run_sync_inner` is called. -/
  | runSyncInner
  | crash
  /-- A cancel or a mode change is observed. -/
  | exit
  /-- A call that the engine makes fails. -/
  | fail (error : SyncError)
  | retry
  | markSyncStarted
  | initialTip (answers : TipAnswers)
  | truncate (first again : TruncateAnswer)
  | requeue (wallet : WalletView)
  | prepare (wallet : WalletView)
  /-- The top of the loop, so long after the last refresh; no answers, when the request fails. -/
  | periodicRefresh (age : Nat) (answers : Option TipAnswers)
  | pickRange (baseBatchSize : Nat)
  | drainRefresh (validationAge : Nat) (answers : TipAnswers)
  | checkWitnesses (readable : Bool) (answer : WitnessAnswer)
  | compareAnchorRoots (mismatchedAnchor : Option Nat)
  /-- One distance of the anchor repair: a root conflict, or a truncation. -/
  | repairAnchorRoot (truncated : Option WalletView)
  | checkCompletion
  | scanBatch (result : Except SyncError WalletView)
  | postBatchRefresh (enhanced : WalletView) (answers : Option TipAnswers)
  | finalCheck
  | markSyncCompleted
  | reportCompletion
  | finishRun
  | readStatus (scannedHeight chainTipHeight : Nat)
  | advanceStatus (reader : Nat)

def maxRetries : Nat := 3

def maxWitnessRepairPassesPerRun : Nat := 3

def anchorRootRepairRewindDistances : List Nat := [100,1000,10000]

namespace Engine

variable (s : Engine) (run : SyncRun)

def record (event : SyncEvent) : Engine := { s with history := event :: s.history }

/-- The run goes on with these variables. -/
def goOn : Engine := { s with run := some run }

def goto (point : SyncPoint) : Engine := s.goOn { run with point := point }

def endRun : Engine := { s with run := none }

/-- An attempt ends in an error: `run_sync_inner` gives up or waits for the next attempt. -/
def attemptFailed (error : SyncError) : Engine :=
  match error.recoveryStrategy with
  | .fatal => s.endRun
  | .retryWithBackoff | .rewind _ =>
    if run.attempt = maxRetries then s.endRun
    else s.goto { run with attempt := run.attempt + 1 } .waiting

/-- The tip of the server is accepted: the wallet knows it as its chain tip. -/
def acceptTip (wallet : WalletView) (tipHeight : Nat) (validationRequired : Bool)
    (point : SyncPoint) : Engine :=
  ({ s with wallet := wallet }.record (.tipAccepted tipHeight)).goOn
    { run with
      point := point
      currentTipHeight := tipHeight
      completionTipValidationRequired := validationRequired }

/-- The budget of the main phase also covers the reorgs that a tip proves. -/
def rewindForConfirmedTipReorg (path : RewindPath) (tipHeight : Nat) : Engine :=
  if maxRewindsPerRun ≤ run.mainRewindsThisRun then
    s.attemptFailed run (.continuity tipHeight)
  else
    s.goto { run with mainRewindsThisRun := run.mainRewindsThisRun + 1 } (.rewinding path tipHeight)

/-- The tip of the server against the chain tip of the wallet, if it has one. -/
def initialTipRelation (answers : TipAnswers) :
    Except SyncError (Option (Nat × RefreshedTipRelation)) :=
  match s.wallet.walletScanHeights with
  | none => .ok none
  | some (_,dbTip) =>
    (classifyRefreshedTipWithFallback s.wallet dbTip answers.tip answers.compactBlockHash).map
      fun relation => some (dbTip,relation)

def initialTip (answers : TipAnswers) : Engine :=
  match blockHeightFromU64 answers.tip.height with
  | .error error => s.attemptFailed run error
  | .ok _ =>
    match s.initialTipRelation answers with
    | .error error => s.attemptFailed run error
    | .ok (some (_,.serverBehind)) => s.attemptFailed run .network
    | .ok (some (_,.reorg)) => s.rewindForConfirmedTipReorg run .initialTip answers.tip.height
    | .ok relation =>
      match answers.update with
      | .failed lockContention => s.attemptFailed run (databaseError lockContention)
      | .updated wallet =>
        s.acceptTip run wallet answers.tip.height
          (relation.map Prod.snd != some .unchanged) .preparing

/-- The truncation of a rewind: a reached height at or above a divergent tip is an error, although
the wallet is truncated by then. -/
def truncate (path : RewindPath) (tipHeight : Nat) (first again : TruncateAnswer) : Engine :=
  match if path.isTipReorg then confirmedReorgRewindTarget tipHeight else .ok tipHeight with
  | .error error => s.attemptFailed run error
  | .ok _ =>
    let answer := truncateWalletWith
      (if path.isTipReorg then validateReorgRewindHeight tipHeight else .ok) first again
    let s' := match answer.1 with
      | some wallet => { s with wallet := wallet }.record (.truncated path)
      | none => s
    match answer.2 with
    | .error error => s'.attemptFailed run error
    | .ok actualHeight => s'.goto run (.requeueing path tipHeight actualHeight)

/-- The chain tip is updated after a truncation, and the attempt goes on where the path says. -/
def requeue (path : RewindPath) (tipHeight actualHeight : Nat) (wallet : WalletView) : Engine :=
  match path with
  | .initialTip =>
    if wallet.pending = 0 then
      { s with wallet := wallet }.attemptFailed run (.continuity tipHeight)
    else s.acceptTip run wallet tipHeight true .preparing
  | .periodicTip | .queueDrainTip | .postBatchTip =>
    if wallet.pending = 0 then
      { s with wallet := wallet }.attemptFailed run (.continuity tipHeight)
    else
      s.acceptTip { run with queuedRanges := some wallet.suggestScanRanges } wallet tipHeight true
        .loopStart
  | .scan =>
    if actualHeight < tipHeight ∧ wallet.pending = 0 then
      { s with wallet := wallet }.attemptFailed run (.continuity tipHeight)
    else
      { s with wallet := wallet }.goto { run with forceWitnessCheckThisRun := true } .loopStart
  | .anchorRepair anchorHeight =>
    if wallet.pending = 0 ∧ anchorHeight < tipHeight then
      { s with wallet := wallet }.attemptFailed run (.continuity tipHeight)
    else
      { s with wallet := wallet }.goto { run with forceWitnessCheckThisRun := true } .loopStart

/-- Accounts, transparent outputs and subtree roots are brought up to date before the first list of
ranges is read. -/
def prepare (wallet : WalletView) : Engine :=
  { s with wallet := wallet }.goto
    { run with queuedRanges := some wallet.suggestScanRanges } .loopStart

/-- A tip of the server after the first one. An unchanged tip leads to `next`; so does an advance
that the wallet fails to store, unless the update is required. -/
def refreshTip (path : RewindPath) (next afterAdvance : SyncPoint) (updateRequired : Bool)
    (answers : TipAnswers) : Engine :=
  match blockHeightFromU64 answers.tip.height with
  | .error error => s.attemptFailed run error
  | .ok _ =>
    match classifyRefreshedTipWithFallback s.wallet run.currentTipHeight answers.tip
        answers.compactBlockHash with
    | .error error => s.attemptFailed run error
    | .ok .unchanged => s.goto { run with completionTipValidationRequired := false } next
    | .ok .unchangedUnverified => s.goto { run with completionTipValidationRequired := true } next
    | .ok .serverBehind => s.attemptFailed run .network
    | .ok .reorg => s.rewindForConfirmedTipReorg run path answers.tip.height
    | .ok .advanced =>
      match answers.update with
      | .updated wallet => s.acceptTip run wallet answers.tip.height true afterAdvance
      | .failed _ =>
        if updateRequired then s.attemptFailed run .db
        else s.goto { run with completionTipValidationRequired := true } next

def periodicRefresh (age : Nat) (answers : Option TipAnswers) : Engine :=
  if age < tipRefreshInterval then s.goto run .picking
  else
    match answers with
    | none => s.goto { run with completionTipValidationRequired := true } .picking
    | some answers => s.refreshTip run .periodicTip .picking .picking false answers

def pickRange (baseBatchSize : Nat) : Engine :=
  let ranges := run.queuedRanges.getD s.wallet.suggestScanRanges
  let run := { run with queuedRanges := none }
  match ranges.find? isPendingScanRange with
  | none => s.goto run .drained
  | some range =>
    if range.start = 0 then s.attemptFailed run .other
    else
      match scannableBatchEnd baseBatchSize range.start range.stop run.currentTipHeight with
      | none => s.goto run .finishing
      | some _ => s.goto run (.scanning range)

def drainRefresh (validationAge : Nat) (answers : TipAnswers) : Engine :=
  if shouldRefreshTipBeforeCompletion run.completionTipValidationRequired validationAge then
    s.refreshTip run .queueDrainTip .checkingWitnesses .loopStart true answers
  else s.goto run .checkingWitnesses

/-- `queue_witness_repairs_if_needed`. -/
def checkWitnesses (readable : Bool) (answer : WitnessAnswer) : Engine :=
  match witnessCheckDecision s.rows readable run.currentTipHeight
      run.forceWitnessCheckThisRun with
  | .skip _ _ => s.goto run .comparingAnchor
  | .run _ =>
    match answer with
    | .clean marked =>
      let rows := if marked then s.rows.markWitnessCheckClean run.currentTipHeight else s.rows
      ({ s with rows := rows }.record (.witnessesChecked (s.wallet.pending == 0) true)).goto run
        .comparingAnchor
    | .rescan wallet =>
      let s := s.record (.witnessesChecked (s.wallet.pending == 0) false)
      if maxWitnessRepairPassesPerRun ≤ run.witnessRepairPassesThisRun then
        s.attemptFailed run .db
      else
        let run := { run with witnessRepairPassesThisRun := run.witnessRepairPassesThisRun + 1 }
        let s := { s with wallet := wallet }.record .rescansQueued
        if wallet.pending = 0 ∧ 0 < run.currentTipHeight then s.attemptFailed run .db
        else s.goto { run with forceWitnessCheckThisRun := true } .loopStart

def compareAnchorRoots (mismatchedAnchor : Option Nat) : Engine :=
  match mismatchedAnchor with
  | none => s.goto run .checkingCompletion
  | some anchorHeight => s.goto run (.repairingAnchor anchorHeight)

/-- Each pass takes the next distance, whether or not its root conflicts. -/
def repairAnchorRoot (anchorHeight : Nat) (truncated : Option WalletView) : Engine :=
  match anchorRootRepairRewindDistances[run.anchorRootRepairPassesThisRun]? with
  | none => s.attemptFailed run .db
  | some distance =>
    let run := { run with
      anchorRootRepairPassesThisRun := run.anchorRootRepairPassesThisRun + 1 }
    match truncated with
    | none => s.goto run (.repairingAnchor anchorHeight)
    | some wallet =>
      ({ s with wallet := wallet }.record (.truncated (.anchorRepair anchorHeight))).goto run
        (.requeueing (.anchorRepair anchorHeight) run.currentTipHeight (anchorHeight - distance))

def checkCompletion : Engine :=
  match ensureCompleteScanState s.wallet run.currentTipHeight with
  | .error error => s.attemptFailed run error
  | .ok _ => s.goto run .finishing

/-- The budget of a rewind is that of the phase the range belongs to. -/
def rewindAfterScan (range : ScanRange) (error : SyncError) : Engine :=
  if range.priority = .verify then
    if maxRewindsPerRun ≤ run.verifyRewindsThisRun then s.attemptFailed run error
    else
      s.goto { run with verifyRewindsThisRun := run.verifyRewindsThisRun + 1 }
        (.rewinding .scan run.currentTipHeight)
  else if maxRewindsPerRun ≤ run.mainRewindsThisRun then s.attemptFailed run error
  else
    s.goto { run with mainRewindsThisRun := run.mainRewindsThisRun + 1 }
      (.rewinding .scan run.currentTipHeight)

def scanBatch (range : ScanRange) (result : Except SyncError WalletView) : Engine :=
  match result with
  | .ok wallet => { s with wallet := wallet }.goto run .afterBatch
  | .error error =>
    match error.recoveryStrategy with
    | .rewind _ => s.rewindAfterScan run range error
    | .retryWithBackoff | .fatal => s.attemptFailed run error

def postBatchRefresh (enhanced : WalletView) (answers : Option TipAnswers) : Engine :=
  let s := { s with wallet := enhanced }
  match answers with
  | none => s.goto { run with completionTipValidationRequired := true } .loopStart
  | some answers => s.refreshTip run .postBatchTip .loopStart .loopStart false answers

def finalCheck : Engine :=
  match ensureCompleteScanState s.wallet run.currentTipHeight with
  | .error error => s.attemptFailed run error
  | .ok (_,finalTipHeight) =>
    (s.record (.finalCheck s.wallet)).goto run (.completing finalTipHeight)

def markSyncCompleted (finalTipHeight : Nat) : Engine :=
  ({ s with rows := s.rows.markSyncCompleted finalTipHeight }.record
    (.completed finalTipHeight)).goto run (.reporting finalTipHeight)

/-- The event is sent once, and again after a refresh of the other accounts. -/
def reportCompletion (finalTipHeight : Nat) : Engine :=
  (s.record (.completionReported finalTipHeight)).goto run (.reported finalTipHeight)

/-- The step of an attempt for an input, at the point that takes it. -/
def runStep : SyncInput → SyncPoint → Except Unit Engine
  | .exit,point => if point.observesExit then .ok s.endRun else .error ()
  | .fail error,point => if point.mayFail then .ok (s.attemptFailed run error) else .error ()
  | .retry,.waiting => .ok (s.goOn (.start run.attempt))
  | .markSyncStarted,.starting =>
    .ok (({ s with rows := s.rows.markSyncStarted }.record .started).goto run .connecting)
  | .initialTip answers,.connecting =>
    if answers.update.KeepsPending s.wallet then .ok (s.initialTip run answers) else .error ()
  | .truncate first again,.rewinding path tipHeight =>
    .ok (s.truncate run path tipHeight first again)
  | .requeue wallet,.requeueing path tipHeight actualHeight =>
    .ok (s.requeue run path tipHeight actualHeight wallet)
  | .prepare wallet,.preparing => .ok (s.prepare run wallet)
  | .periodicRefresh age answers,.loopStart =>
    if answers.all fun answers => answers.update.KeepsPending s.wallet then
      .ok (s.periodicRefresh run age answers)
    else .error ()
  | .pickRange baseBatchSize,.picking => .ok (s.pickRange run baseBatchSize)
  | .drainRefresh validationAge answers,.drained =>
    if answers.update.KeepsPending s.wallet then .ok (s.drainRefresh run validationAge answers)
    else .error ()
  | .checkWitnesses readable answer,.checkingWitnesses =>
    .ok (s.checkWitnesses run readable answer)
  | .compareAnchorRoots mismatchedAnchor,.comparingAnchor =>
    .ok (s.compareAnchorRoots run mismatchedAnchor)
  | .repairAnchorRoot truncated,.repairingAnchor anchorHeight =>
    .ok (s.repairAnchorRoot run anchorHeight truncated)
  | .checkCompletion,.checkingCompletion => .ok (s.checkCompletion run)
  | .scanBatch result,.scanning range => .ok (s.scanBatch run range result)
  | .postBatchRefresh enhanced answers,.afterBatch =>
    if answers.all fun answers => answers.update.KeepsPending enhanced then
      .ok (s.postBatchRefresh run enhanced answers)
    else .error ()
  | .finalCheck,.finishing => .ok (s.finalCheck run)
  | .markSyncCompleted,.completing finalTipHeight => .ok (s.markSyncCompleted run finalTipHeight)
  | .reportCompletion,.reporting finalTipHeight => .ok (s.reportCompletion run finalTipHeight)
  | .reportCompletion,.reported finalTipHeight => .ok (s.reportCompletion run finalTipHeight)
  | .finishRun,.reported _ => .ok s.endRun
  | _,_ => .error ()

/-- A status read takes its next transaction. -/
def advanceStatus (reader : Nat) : Except Unit Engine :=
  match s.readers[reader]? with
  | none => .error ()
  | some read =>
    let (rows,answer) := read.advance s.rows
    let s' := { s with rows := rows }
    match answer with
    | .inl completedHeight =>
      .ok ({ s' with readers := s.readers.eraseIdx reader }.record
        (.statusReturned completedHeight))
    | .inr next =>
      let s' := { s' with readers := s.readers.set reader next }
      match read,s.rows.syncCompletionPolicyVersion with
      | .initializing scannedHeight chainTipHeight,none =>
        .ok (s'.record (.statusInitialized scannedHeight chainTipHeight))
      | _,_ => .ok s'

end Engine

/-- One step of the engine, of the process or of a status read. -/
def Engine.step (input : SyncInput) (s : Engine) : Except Unit Engine :=
  match input with
  | .runSyncInner => if s.run.isNone then .ok (s.goOn (.start 0)) else .error ()
  | .crash => .ok s.endRun
  | .readStatus scannedHeight chainTipHeight =>
    .ok { s with readers := s.readers ++ [.reading scannedHeight chainTipHeight] }
  | .advanceStatus reader => s.advanceStatus reader
  | input =>
    match s.run with
    | none => .error ()
    | some run => s.runStep run input run.point

end CoppiceWallet.SyncEngine
