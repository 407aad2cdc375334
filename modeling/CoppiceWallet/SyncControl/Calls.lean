import CoppiceWallet.Lib.Threads

/-!
# Starting and stopping syncs

Full syncs and syncs of migration preparation share one running flag. A full sync is stopped by a
flag that all of them use, a preparation operation by the control it made, and the mempool observer
by the token of its run. Controls and tokens are known by the order in which they were made; what a
body does between its exit checks is left out.
-/

namespace CoppiceWallet.SyncControl

open CoppiceWallet.Lib

structure MigrationPreparationControl where
  cancel : Bool
  desiredSyncMode : UInt8
  deriving DecidableEq

def migrationPreparationSyncMode : UInt8 := 2

def stoppedSyncMode : UInt8 := 0

def MigrationPreparationControl.new : MigrationPreparationControl where
  cancel := false
  desiredSyncMode := migrationPreparationSyncMode

structure MempoolObserverState where
  running : Bool
  cancel : Option Nat
  deriving DecidableEq

/-- The variables of the process, with every control and token that was made. -/
structure SyncState where
  syncRunning : Bool
  syncCancel : Bool
  desiredSyncMode : UInt8
  active : Option Nat
  activeLock : Option Nat
  controls : List MigrationPreparationControl
  observer : MempoolObserverState
  tokens : List Bool

def SyncState.initial : SyncState where
  syncRunning := false
  syncCancel := false
  desiredSyncMode := 0
  active := none
  activeLock := none
  controls := []
  observer := ⟨false,none⟩
  tokens := []

inductive MigrationPreparationError
  | noActiveOperation
  | syncAlreadyRunning
  | invalidCredential
  | execution (message : String)

/-- How a body ends, at any of its points. -/
inductive BodyEnd
  | finishes
  | fails (error : String)
  | panics (message : String)

def BodyEnd.caught : BodyEnd → Except String Unit
  | .finishes => .ok ()
  | .fails error => .error error
  | .panics message => .error ("Rust panic: " ++ message)

/-- What a sync of migration preparation returns; a panic unwinds through it. -/
def BodyEnd.outcome : BodyEnd → Option (Except MigrationPreparationError Unit)
  | .finishes => some (.ok ())
  | .fails error => some (.error (.execution error))
  | .panics _ => none

/-- An exit check loads the cancel flag, and the mode when it is not cancelled. -/
inductive ExitCheck
  | idle
  | loadMode
  | answered (exit : Bool)

inductive FullSyncPoint
  | acquire
  | storeMode
  | setup
  | resetCancel
  | createRuntime
  | body (check : ExitCheck)
  | release (result : Except String Unit)
  | returned (result : Except String Unit)

inductive RunSyncPoint
  | takeControl
  | acquire (control : Nat)
  | createRuntime (control : Nat)
  | body (control : Nat) (check : ExitCheck)
  | release (control : Nat) (outcome : Option (Except MigrationPreparationError Unit))
  | returned (outcome : Option (Except MigrationPreparationError Unit))

/-- The checks of an advance load the cancel flag alone; the last one is part of its result. -/
inductive AdvancePoint
  | takeControl
  | validate (control : Nat)
  | createRuntime (control : Nat)
  | body (control : Nat) (answered : Option Bool)
  | report (control : Nat)
  | loadCancel (control : Nat)
  | finished (control : Nat) (cancelled : Bool)
  | failed (outcome : Option MigrationPreparationError)

/-- A call that cancels or ends the active operation. -/
inductive OperationPoint
  | lock
  | storeCancel (control : Nat)
  | storeMode (control : Nat)
  | unlock (control : Nat)
  | returned (control : Option Nat)

inductive ObserverPoint
  | install
  | running (token : Nat) (answered : Option Bool)
  | teardown (token : Nat) (result : Except String Unit)
  | returned (result : Except String Unit)

inductive SyncThread
  | runFullSync (mode : UInt8) (point : FullSyncPoint)
  | cancelFullSync (returned : Bool)
  | beginOperation (returned : Option (Option Nat))
  | cancelOperation (point : OperationPoint)
  | endOperation (point : OperationPoint)
  | runSync (point : RunSyncPoint)
  | advance (credential : List UInt8) (point : AdvancePoint)
  | startMempoolObserver (point : ObserverPoint)
  | stopMempoolObserver (returned : Option (Option Nat))

inductive SyncChoice
  | proceed
  | ends (body : BodyEnd)

def ExitCheck.proceed (cancel modeDiffers : Bool) : ExitCheck → ExitCheck
  | .idle => if cancel then .answered true else .loadMode
  | .loadMode => .answered modeDiffers
  | .answered _ => .idle

def FullSyncPoint.proceed (mode : UInt8) (s : SyncState) :
    FullSyncPoint → Option (SyncState × FullSyncPoint)
  | .acquire =>
    if s.syncRunning then some (s,.returned (.error "Sync already running"))
    else some ({ s with syncRunning := true },.storeMode)
  | .storeMode => some ({ s with desiredSyncMode := mode },.setup)
  | .setup => some (s,.resetCancel)
  | .resetCancel => some ({ s with syncCancel := false },.createRuntime)
  | .createRuntime => some (s,.body .idle)
  | .body check => some (s,.body (check.proceed s.syncCancel (s.desiredSyncMode != mode)))
  | .release result => some ({ s with syncRunning := false },.returned result)
  | .returned _ => none

/-- Panics are caught from the setup on. -/
def FullSyncPoint.ends (body : BodyEnd) : FullSyncPoint → Option FullSyncPoint
  | .setup | .createRuntime | .body _ => some (.release body.caught)
  | _ => none

/-- The control that a call takes from the active operation, unless its lock is held. -/
def SyncState.control (s : SyncState) : Option (Option Nat) :=
  if s.activeLock = none then some s.active else none

def SyncState.isCancelled (s : SyncState) (control : Nat) : Bool :=
  s.controls[control]?.any (·.cancel)

def SyncState.isStoppedMode (s : SyncState) (control : Nat) : Bool :=
  s.controls[control]?.any (·.desiredSyncMode != migrationPreparationSyncMode)

def RunSyncPoint.proceed (s : SyncState) : RunSyncPoint → Option (SyncState × RunSyncPoint)
  | .takeControl =>
    s.control.map fun control =>
      (s,control.elim (.returned (some (.error .noActiveOperation))) .acquire)
  | .acquire control =>
    if s.syncRunning then some (s,.returned (some (.error .syncAlreadyRunning)))
    else some ({ s with syncRunning := true },.createRuntime control)
  | .createRuntime control => some (s,.body control .idle)
  | .body control check =>
    some (s,.body control (check.proceed (s.isCancelled control) (s.isStoppedMode control)))
  | .release _ outcome => some ({ s with syncRunning := false },.returned outcome)
  | .returned _ => none

def RunSyncPoint.ends (body : BodyEnd) : RunSyncPoint → Option RunSyncPoint
  | .createRuntime control | .body control _ => some (.release control body.outcome)
  | _ => none

def isAsciiHexdigit (b : UInt8) : Bool :=
  (0x30 ≤ b && b ≤ 0x39) || (0x41 ≤ b && b ≤ 0x46) || (0x61 ≤ b && b ≤ 0x66)

def isValidCredential (credential : List UInt8) : Bool :=
  credential.length == 64 && credential.all isAsciiHexdigit

def AdvancePoint.proceed (credential : List UInt8) (s : SyncState) :
    AdvancePoint → Option AdvancePoint
  | .takeControl =>
    s.control.map fun control => control.elim (.failed (some .noActiveOperation)) .validate
  | .validate control =>
    some (if isValidCredential credential then .createRuntime control
      else .failed (some .invalidCredential))
  | .createRuntime control => some (.body control none)
  | .body control none => some (.body control (some (s.isCancelled control)))
  | .body control (some _) => some (.body control none)
  | .report control => some (.loadCancel control)
  | .loadCancel control => some (.finished control (s.isCancelled control))
  | .finished _ _ | .failed _ => none

def AdvancePoint.ends : BodyEnd → AdvancePoint → Option AdvancePoint
  | .finishes, .body control _ => some (.report control)
  | .fails error, .createRuntime _ | .fails error, .body _ _ | .fails error, .report _ =>
    some (.failed (some (.execution error)))
  | .panics _, .createRuntime _ | .panics _, .body _ _ | .panics _, .report _ =>
    some (.failed none)
  | _, _ => none

def SyncState.storeCancel (s : SyncState) (control : Nat) : SyncState :=
  { s with controls := s.controls.modify control ({ · with cancel := true }) }

def SyncState.storeStoppedMode (s : SyncState) (control : Nat) : SyncState :=
  { s with controls := s.controls.modify control ({ · with desiredSyncMode := stoppedSyncMode }) }

/-- Begins an operation with a control of its own, unless one is active. -/
def SyncState.beginOperation (s : SyncState) : SyncState × Option Nat :=
  match s.active with
  | some _ => (s,none)
  | none =>
    ({ s with
        active := some s.controls.length
        controls := s.controls ++ [MigrationPreparationControl.new] },some s.controls.length)

def OperationPoint.cancel (i : Nat) (s : SyncState) : OperationPoint → Option (SyncState × OperationPoint)
  | .lock =>
    s.control.map fun
      | none => (s,.returned none)
      | some control => ({ s with activeLock := some i },.storeCancel control)
  | .storeCancel control => some (s.storeCancel control,.storeMode control)
  | .storeMode control => some (s.storeStoppedMode control,.unlock control)
  | .unlock control => some ({ s with activeLock := none },.returned (some control))
  | .returned _ => none

/-- The operation is taken under the lock, and its control stopped after it. -/
def OperationPoint.end (s : SyncState) : OperationPoint → Option (SyncState × OperationPoint)
  | .lock =>
    s.control.map fun control =>
      ({ s with active := none },control.elim (.returned none) .storeCancel)
  | .storeCancel control => some (s.storeCancel control,.storeMode control)
  | .storeMode control => some (s.storeStoppedMode control,.returned (some control))
  | .unlock _ | .returned _ => none

def ObserverPoint.proceed (s : SyncState) : ObserverPoint → Option (SyncState × ObserverPoint)
  | .install =>
    if s.observer.running then some (s,.returned (.error "Mempool observer already running"))
    else some ({ s with
        observer := ⟨true,some s.tokens.length⟩
        tokens := s.tokens ++ [false] },.running s.tokens.length none)
  | .running token none => some (s,.running token (some (s.tokens[token]?.getD false)))
  | .running token (some _) => some (s,.running token none)
  | .teardown _ result => some ({ s with observer := ⟨false,none⟩ },.returned result)
  | .returned _ => none

def ObserverPoint.ends (body : BodyEnd) : ObserverPoint → Option ObserverPoint
  | .running token _ => some (.teardown token body.caught)
  | _ => none

/-- Stores the token that is installed, and says which it was. -/
def SyncState.stopMempoolObserver (s : SyncState) : SyncState × Option Nat :=
  match s.observer.cancel with
  | none => (s,none)
  | some token => ({ s with tokens := s.tokens.set token true },some token)

def SyncThread.proceed (i : Nat) (s : SyncState) : SyncThread → Option (SyncState × SyncThread)
  | .runFullSync mode point =>
    (point.proceed mode s).map fun (s,point) => (s,.runFullSync mode point)
  | .cancelFullSync false => some ({ s with syncCancel := true },.cancelFullSync true)
  | .beginOperation none =>
    if s.activeLock = none then
      some (s.beginOperation.1,.beginOperation (some s.beginOperation.2))
    else none
  | .cancelOperation point => (point.cancel i s).map fun (s,point) => (s,.cancelOperation point)
  | .endOperation point => (point.end s).map fun (s,point) => (s,.endOperation point)
  | .runSync point => (point.proceed s).map fun (s,point) => (s,.runSync point)
  | .advance credential point =>
    (point.proceed credential s).map fun point => (s,.advance credential point)
  | .startMempoolObserver point =>
    (point.proceed s).map fun (s,point) => (s,.startMempoolObserver point)
  | .stopMempoolObserver none =>
    some (s.stopMempoolObserver.1,.stopMempoolObserver (some s.stopMempoolObserver.2))
  | .cancelFullSync true | .beginOperation (some _) | .stopMempoolObserver (some _) => none

def SyncThread.ends (body : BodyEnd) : SyncThread → Option SyncThread
  | .runFullSync mode point => (point.ends body).map (.runFullSync mode)
  | .runSync point => (point.ends body).map .runSync
  | .advance credential point => (point.ends body).map (.advance credential)
  | .startMempoolObserver point => (point.ends body).map .startMempoolObserver
  | _ => none

def SyncThread.initial : SyncThread → Bool
  | .runFullSync _ .acquire | .cancelFullSync false | .beginOperation none
  | .cancelOperation .lock | .endOperation .lock | .runSync .takeControl
  | .advance _ .takeControl | .startMempoolObserver .install | .stopMempoolObserver none => true
  | _ => false

def syncThreads : Threads SyncState SyncThread SyncChoice where
  initial := SyncThread.initial
  advance i choice s thread :=
    match choice with
    | .proceed => thread.proceed i s
    | .ends body => (thread.ends body).map fun thread => (s,thread)

abbrev SyncPool := ThreadPool SyncState SyncThread

end CoppiceWallet.SyncControl
