import CoppiceWallet.Lib.Run

/-!
# Foreground sync and polling

The notifier attaches a stream of progress events to a foreground sync and polls the chain tip while
none runs. A generation tells a call that another sync or a pause came in between.

The wallet is unlocked, in the foreground and has an account. What the Rust side reports is an input
of each move. Heights, balances and shown states are left out.
-/

namespace CoppiceWallet.Polling

open CoppiceWallet.Lib

structure WalletMutationSyncPause where
  hadActiveSync : Bool
  hadPolling : Bool
  hadMempoolObserver : Bool
  deriving DecidableEq

def WalletMutationSyncPause.hadWorkToPause (pause : WalletMutationSyncPause) : Bool :=
  pause.hadActiveSync || pause.hadPolling || pause.hadMempoolObserver

/-- A call of the notifier, at the point where it awaits an answer. -/
inductive Awaited
  | startInitialSync
  | dbPath (gen : Nat)
  | preflight (gen : Nat)
  | progressHandling (version : Nat) (isComplete : Bool)
  | lastHandling (gen version : Nat)
  | recovery (gen : Nat)
  | pollCheck (gen : Nat)
  | stoppingSync (pause : WalletMutationSyncPause)
  | cancellingSync (pause : WalletMutationSyncPause)
  | waitingForPause (pause : WalletMutationSyncPause)
  | walletMutation (pause : WalletMutationSyncPause)
  | startSyncAnyway
  | cancellingForRestart
  | waitingForRestart
  deriving DecidableEq

/-- Streams are known by the generation of the sync that they were attached for. -/
structure SyncNotifier where
  isSyncing : Bool
  syncGen : Nat
  syncSub : Option Nat
  pollTimer : Bool
  pollCheckInFlight : Bool
  progressEventVersion : Nat
  lastForegroundProgress : Option (Nat × Bool)
  authoritativeSpendableOperationCount : Nat
  syncStartDeferred : Bool
  streams : List Nat
  awaited : List Awaited

/-- The notifier as it is built, with the first sync about to start. -/
def build : SyncNotifier :=
  ⟨false,0,none,false,false,0,none,0,false,[],[.startInitialSync]⟩

namespace SyncNotifier

variable (s : SyncNotifier)

def await (call : Awaited) : SyncNotifier := { s with awaited := call :: s.awaited }

def bumpGeneration : SyncNotifier :=
  { s with
    syncGen := s.syncGen + 1
    progressEventVersion := s.progressEventVersion + 1 }

def bumpProgressVersion : SyncNotifier :=
  { s with progressEventVersion := s.progressEventVersion + 1 }

def startPolling : SyncNotifier := { s with pollTimer := true }

def stopPolling : SyncNotifier := { s with pollTimer := false }

/-- The sync is deferred while an operation depends on the spendable balance. -/
def startSync (rustRunning : Bool) : SyncNotifier :=
  if 0 < s.authoritativeSpendableOperationCount then { s with syncStartDeferred := true }
  else if s.isSyncing || rustRunning then s
  else { s.bumpGeneration.await (.dbPath (s.syncGen + 1)) with
    isSyncing := true
    lastForegroundProgress := none }

def recordSyncFailure : SyncNotifier := s.bumpProgressVersion.startPolling

/-- The sync died; another endpoint is looked for. -/
def recoverSync (gen : Nat) : SyncNotifier :=
  { s.bumpProgressVersion.await (.recovery gen) with isSyncing := false }

def cancelSubscription : SyncNotifier :=
  match s.syncSub with
  | none => s
  | some gen => { s with streams := s.streams.erase gen }

/-- What is left of a sync whose stream ended without an applied completion. -/
def cleanUp : SyncNotifier := { s.bumpProgressVersion with isSyncing := false }

def checkAndSync : SyncNotifier :=
  if s.pollCheckInFlight || s.isSyncing then s
  else { s.stopPolling.await (.pollCheck s.syncGen) with pollCheckInFlight := true }

def walletMutationSyncPauseSnapshot (rustRunning mempoolRunning : Bool) :
    WalletMutationSyncPause where
  hadActiveSync := s.isSyncing || rustRunning
  hadPolling := s.pollTimer || s.pollCheckInFlight
  hadMempoolObserver := mempoolRunning

def pauseForWalletMutation (rustRunning mempoolRunning : Bool) : SyncNotifier :=
  let pause := s.walletMutationSyncPauseSnapshot rustRunning mempoolRunning
  if pause.hadWorkToPause then s.bumpGeneration.stopPolling.await (.stoppingSync pause)
  else s.await (.walletMutation pause)

def resumeAfterWalletMutation (pause : WalletMutationSyncPause) (rustRunning : Bool) :
    SyncNotifier :=
  let s := if pause.hadActiveSync then s.startSync rustRunning else s
  if pause.hadPolling || pause.hadActiveSync then s.startPolling else s

/-- A start that does not join a sync of the Rust side that was cancelled, but waits for its end. -/
def startSyncAnyway (rustRunning cancelRequested staleMempoolRunning : Bool) : SyncNotifier :=
  if s.syncSub.isSome || s.isSyncing then s
  else if (rustRunning && cancelRequested) || staleMempoolRunning then s.await .startSyncAnyway
  else if rustRunning then s
  else (s.startSync rustRunning).startPolling

def restartSync : SyncNotifier :=
  s.bumpGeneration.cancelSubscription.await .cancellingForRestart

end SyncNotifier

inductive PreflightOutcome
  | endpointFailed
  | setupFailed
  | attached
  deriving DecidableEq

inductive PolledTip
  | failed
  | known (shouldStartSync : Bool)
  deriving DecidableEq

/-- A call from outside, an event of a stream, or an awaited call that goes on. -/
inductive SyncMove
  | startSync (rustRunning : Bool)
  | accountAdded (rustRunning : Bool)
  | startSyncAnyway (rustRunning cancelRequested staleMempoolRunning : Bool)
  | restartSync
  | operationStarted
  | operationEnded (rustRunning : Bool)
  | pollTick
  | resumed
  | pauseForWalletMutation (rustRunning mempoolRunning : Bool)
  | progress (gen : Nat) (isComplete : Bool)
  | streamDone (gen : Nat)
  | streamError (gen : Nat)
  | initialSyncReady (rustRunning : Bool)
  | dbPathResolved (gen : Nat) (found : Bool)
  | preflightEnded (gen : Nat) (outcome : PreflightOutcome)
  | progressHandled (version : Nat) (isComplete read : Bool)
  | lastProgressHandled (gen version : Nat)
  | recovered (gen : Nat) (switched rustRunning : Bool)
  | polled (gen : Nat) (tip : PolledTip) (rustRunning : Bool)
  | syncStopping (pause : WalletMutationSyncPause)
  | syncCancelled (pause : WalletMutationSyncPause)
  | pauseWaited (pause : WalletMutationSyncPause) (stopped rustRunning : Bool)
  | resumeAfterWalletMutation (pause : WalletMutationSyncPause) (rustRunning : Bool)
  | startSyncAnywayWaited (stopped rustRunning : Bool)
  | restartCancelled
  | restartWaited (rustRunning : Bool)
  deriving DecidableEq

/-- An awaited call goes on. -/
def goOn (call : Awaited) (s : SyncNotifier) (next : SyncNotifier → SyncNotifier) :
    Except Unit SyncNotifier :=
  if call ∈ s.awaited then .ok (next { s with awaited := s.awaited.erase call }) else .error ()

/-- The listener of a stream, whose end is seen once. -/
def onStream (gen : Nat) (s : SyncNotifier) (next : SyncNotifier → SyncNotifier) :
    Except Unit SyncNotifier :=
  if gen ∈ s.streams then .ok (if gen = s.syncGen then next s else s) else .error ()

namespace SyncNotifier

variable (s : SyncNotifier)

def onEvent (isComplete : Bool) : SyncNotifier :=
  let version := s.progressEventVersion + 1
  { s.bumpProgressVersion.await (.progressHandling version isComplete) with
    lastForegroundProgress := some (version,isComplete) }

/-- A final event that is still being applied takes care of the end itself. -/
def onDone : SyncNotifier :=
  let s := { s with syncSub := none }
  if s.isSyncing then
    match s.lastForegroundProgress with
    | some (version,true) => s.await (.lastHandling s.syncGen version)
    | _ => s.cleanUp
  else s

def onDbPath (gen : Nat) (found : Bool) : SyncNotifier :=
  if gen = s.syncGen then
    if found then s.await (.preflight gen) else s.recoverSync gen
  else s

/-- A stream is attached although another sync or a pause came in between. -/
def onPreflight (gen : Nat) : PreflightOutcome → SyncNotifier
  | .endpointFailed =>
    if gen = s.syncGen then recordSyncFailure { s with isSyncing := false } else s
  | .setupFailed => if gen = s.syncGen then s.recoverSync gen else s
  | .attached => { s with
      syncSub := some gen
      streams := gen :: s.streams }

/-- An event is discarded where another one came after it. -/
def onHandled (version : Nat) (isComplete read : Bool) : SyncNotifier :=
  if read && isComplete && decide (version = s.progressEventVersion) then
    startPolling { s with isSyncing := false }
  else s

def onRecovered (gen : Nat) (switched rustRunning : Bool) : SyncNotifier :=
  if gen = s.syncGen then
    if switched then (s.startSync rustRunning).startPolling else s.recordSyncFailure
  else s

def onPolled (gen : Nat) (tip : PolledTip) (rustRunning : Bool) : SyncNotifier :=
  let s := if tip = .known true ∧ gen = s.syncGen then s.startSync rustRunning else s
  let s := { s with pollCheckInFlight := false }
  if gen = s.syncGen then s.startPolling else s

end SyncNotifier

open SyncNotifier

def syncStep (move : SyncMove) (s : SyncNotifier) : Except Unit SyncNotifier :=
  match move with
  | .startSync rustRunning => .ok (s.startSync rustRunning)
  | .accountAdded rustRunning => .ok (s.startSync rustRunning).startPolling
  | .startSyncAnyway rustRunning cancelRequested staleMempoolRunning =>
    .ok (s.startSyncAnyway rustRunning cancelRequested staleMempoolRunning)
  | .restartSync => .ok s.restartSync
  | .operationStarted => .ok { s with
      authoritativeSpendableOperationCount := s.authoritativeSpendableOperationCount + 1 }
  | .operationEnded rustRunning =>
    if 0 < s.authoritativeSpendableOperationCount then
      let s := { s with
        authoritativeSpendableOperationCount := s.authoritativeSpendableOperationCount - 1 }
      if s.authoritativeSpendableOperationCount = 0 ∧ s.syncStartDeferred = true then
        .ok (startSync { s with syncStartDeferred := false } rustRunning)
      else .ok s
    else .error ()
  | .pollTick => if s.pollTimer then .ok s.checkAndSync else .error ()
  | .resumed => .ok s.checkAndSync
  | .pauseForWalletMutation rustRunning mempoolRunning =>
    .ok (s.pauseForWalletMutation rustRunning mempoolRunning)
  | .progress gen isComplete => onStream gen s fun s => s.onEvent isComplete
  | .streamDone gen => do
    let s ← onStream gen s onDone
    .ok { s with streams := s.streams.erase gen }
  | .streamError gen => onStream gen s fun s => s.recoverSync gen
  | .initialSyncReady rustRunning =>
    goOn .startInitialSync s fun s => (s.startSync rustRunning).startPolling
  | .dbPathResolved gen found => goOn (.dbPath gen) s fun s => s.onDbPath gen found
  | .preflightEnded gen outcome => goOn (.preflight gen) s fun s => s.onPreflight gen outcome
  | .progressHandled version isComplete read =>
    goOn (.progressHandling version isComplete) s fun s => s.onHandled version isComplete read
  | .lastProgressHandled gen version =>
    if .progressHandling version true ∈ s.awaited then .error ()
    else goOn (.lastHandling gen version) s fun s =>
      if gen = s.syncGen ∧ s.isSyncing = true then s.cleanUp else s
  | .recovered gen switched rustRunning =>
    goOn (.recovery gen) s fun s => s.onRecovered gen switched rustRunning
  | .polled gen tip rustRunning =>
    goOn (.pollCheck gen) s fun s => s.onPolled gen tip rustRunning
  | .syncStopping pause => goOn (.stoppingSync pause) s fun s =>
    await (cancelSubscription { s with isSyncing := false }) (.cancellingSync pause)
  | .syncCancelled pause => goOn (.cancellingSync pause) s fun s =>
    await { s with syncSub := none } (.waitingForPause pause)
  | .pauseWaited pause stopped rustRunning => goOn (.waitingForPause pause) s fun s =>
    if stopped then s.await (.walletMutation pause)
    else s.resumeAfterWalletMutation pause rustRunning
  | .resumeAfterWalletMutation pause rustRunning =>
    goOn (.walletMutation pause) s fun s => s.resumeAfterWalletMutation pause rustRunning
  | .startSyncAnywayWaited stopped rustRunning => goOn .startSyncAnyway s fun s =>
    if stopped then (s.startSync rustRunning).startPolling else s.startPolling
  | .restartCancelled => goOn .cancellingForRestart s fun s =>
    (stopPolling { s with
      syncSub := none
      isSyncing := false }).await .waitingForRestart
  | .restartWaited rustRunning =>
    goOn .waitingForRestart s fun s => (s.startSync rustRunning).startPolling

end CoppiceWallet.Polling
