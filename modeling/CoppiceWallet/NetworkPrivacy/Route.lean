import CoppiceWallet.Lib.Threads

/-!
# The network route

A call is a thread that loads or stores one variable of the route at a time; the client is behind
one lock, the epoch of direct connections and their wakers are behind another. How many direct
connections are open and whether the client is dormant is left out.
-/

namespace CoppiceWallet.NetworkPrivacy

open CoppiceWallet.Lib

inductive NetworkPrivacyStatus
  | direct
  | bootstrapping
  | ready
  | failed
  deriving DecidableEq

/-- The variables of the process, with the threads that hold the locks. -/
structure RouteState (C : Type) where
  torDesired : Bool
  torStatus : NetworkPrivacyStatus
  torClient : Option C
  directRouteEpoch : Nat
  directIoWakers : List Nat
  slotLock : Option Nat
  wakersLock : Option Nat
  initLock : Option Nat

def RouteState.initial (C : Type) : RouteState C where
  torDesired := false
  torStatus := .direct
  torClient := none
  directRouteEpoch := 0
  directIoWakers := []
  slotLock := none
  wakersLock := none
  initLock := none

inductive BeginPoint
  | lockWakers
  | storeDesired
  | storeStatus
  | advanceEpoch
  | drainWakers
  | lockSlot
  | clearClient
  | unlockSlot
  | returned

inductive FailPoint
  | lockSlot
  | clearClient
  | loadDesired
  | storeStatus
  | unlockSlot

inductive EnablePoint (C : Type)
  | storeDesired
  | lockInit
  | loadDesired
  | loadStatus
  | readClient
  | storeStatus
  | createDirectory
  | bootstrap
  | lockSlot (client : C)
  | recheckDesired (client : C)
  | storeClient (client : C)
  | storeReady
  | unlockSlot (status : NetworkPrivacyStatus)
  | failing (point : FailPoint)
  | releaseInit (result : Except String NetworkPrivacyStatus)
  | returned (result : Except String NetworkPrivacyStatus)

inductive DisablePoint
  | lockSlot
  | storeDesired
  | storeStatus
  | clearClient
  | unlockSlot
  | returned

inductive RoutingPoint (C : Type)
  | readClient
  | loadDesired (client : Option C)
  | loadStatus (client : Option C) (torDesired : Bool)
  | returned (result : Except String (Option C))

/-- Where a lease of the direct route stands; it has an epoch once it is created. -/
inductive LeasePoint
  | creating
  | idle (epoch : Nat)
  | checkDesired (epoch : Nat)
  | checkEpoch (epoch : Nat)
  | running (epoch : Nat)
  | dropped

inductive RouteThread (C : Type)
  | begin (point : BeginPoint)
  | enable (point : EnablePoint C)
  | fail (point : Option FailPoint)
  | disable (point : DisablePoint)
  | routing (isolated : Bool) (point : RoutingPoint C)
  | lease (point : LeasePoint)

/-- What is up to the network, the file system and the callers. -/
inductive RouteChoice (C : Type)
  | proceed
  | fails
  | timesOut
  | abandons
  | bootstrapped (client : C)
  | drop

variable {C : Type}

def BeginPoint.advance (i : Nat) (s : RouteState C) :
    BeginPoint → Option (RouteState C × RouteThread C)
  | .lockWakers =>
    if s.wakersLock = none then some ({ s with wakersLock := some i },.begin .storeDesired)
    else none
  | .storeDesired => some ({ s with torDesired := true },.begin .storeStatus)
  | .storeStatus => some ({ s with torStatus := .bootstrapping },.begin .advanceEpoch)
  | .advanceEpoch =>
    some ({ s with directRouteEpoch := s.directRouteEpoch + 1 },.begin .drainWakers)
  | .drainWakers => some ({ s with directIoWakers := [], wakersLock := none },.begin .lockSlot)
  | .lockSlot =>
    if s.slotLock = none then some ({ s with slotLock := some i },.begin .clearClient) else none
  | .clearClient => some ({ s with torClient := none },.begin .unlockSlot)
  | .unlockSlot => some ({ s with slotLock := none },.begin .returned)
  | .returned => some (s,.enable .storeDesired)

/-- A failed bootstrap; there is no point after the last one. -/
def FailPoint.advance (i : Nat) (s : RouteState C) :
    FailPoint → Option (RouteState C × Option FailPoint)
  | .lockSlot =>
    if s.slotLock = none then some ({ s with slotLock := some i },some .clearClient) else none
  | .clearClient => some ({ s with torClient := none },some .loadDesired)
  | .loadDesired => some (s,some (if s.torDesired then .storeStatus else .unlockSlot))
  | .storeStatus => some ({ s with torStatus := .failed },some .unlockSlot)
  | .unlockSlot => some ({ s with slotLock := none },none)

def torBootstrapTimeoutMessage : String :=
  "Tor could not connect. Check your internet connection and try again."

def torBootstrapFailedMessage : String := "Bootstrap Tor"

def EnablePoint.advance (i : Nat) (choice : RouteChoice C) (s : RouteState C) :
    EnablePoint C → Option (RouteState C × EnablePoint C)
  | .storeDesired => some ({ s with torDesired := true },.lockInit)
  | .lockInit =>
    match choice with
    | .timesOut => some (s,.returned (.error torBootstrapTimeoutMessage))
    | _ => if s.initLock = none then some ({ s with initLock := some i },.loadDesired) else none
  | .loadDesired =>
    some (s,if s.torDesired then .loadStatus else .releaseInit (.ok .direct))
  | .loadStatus => some (s,if s.torStatus = .ready then .readClient else .storeStatus)
  | .readClient =>
    if s.slotLock = none then
      some (s,if s.torClient.isSome then .releaseInit (.ok .ready) else .storeStatus)
    else none
  | .storeStatus => some ({ s with torStatus := .bootstrapping },.createDirectory)
  | .createDirectory =>
    match choice with
    | .fails => some (s,.failing .lockSlot)
    | _ => some (s,.bootstrap)
  | .bootstrap =>
    match choice with
    | .bootstrapped client => some (s,.lockSlot client)
    | .fails | .timesOut => some (s,.failing .lockSlot)
    | .abandons => if s.torDesired then none else some (s,.failing .lockSlot)
    | _ => none
  | .lockSlot client =>
    if s.slotLock = none then some ({ s with slotLock := some i },.recheckDesired client) else none
  | .recheckDesired client =>
    some (s,if s.torDesired then .storeClient client else .unlockSlot .direct)
  | .storeClient client => some ({ s with torClient := some client },.storeReady)
  | .storeReady => some ({ s with torStatus := .ready },.unlockSlot .ready)
  | .unlockSlot status => some ({ s with slotLock := none },.releaseInit (.ok status))
  | .failing point =>
    (point.advance i s).map fun (s,next) =>
      (s,next.elim (.releaseInit (.error torBootstrapFailedMessage)) .failing)
  | .releaseInit result => some ({ s with initLock := none },.returned result)
  | .returned _ => none

def DisablePoint.advance (i : Nat) (s : RouteState C) :
    DisablePoint → Option (RouteState C × DisablePoint)
  | .lockSlot =>
    if s.slotLock = none then some ({ s with slotLock := some i },.storeDesired) else none
  | .storeDesired => some ({ s with torDesired := false },.storeStatus)
  | .storeStatus => some ({ s with torStatus := .direct },.clearClient)
  | .clearClient => some ({ s with torClient := none },.unlockSlot)
  | .unlockSlot => some ({ s with slotLock := none },.returned)
  | .returned => none

inductive RouteDecision
  | direct
  | torShared
  | torIsolated

def routeDecision (torDesired : Bool) (torStatus : NetworkPrivacyStatus)
    (hasClient isolated : Bool) : Except String RouteDecision :=
  if !torDesired then .ok .direct
  else if torStatus ≠ .ready ∨ hasClient = false then
    .error (match torStatus with
      | .bootstrapping => "Tor is still connecting"
      | .failed => "Tor connection failed"
      | _ => "Tor is enabled but unavailable")
  else .ok (if isolated then .torIsolated else .torShared)

/-- The client of the route: none on a direct one. -/
def clientForRoute (isolatedClient : C → C) (client : Option C) (torDesired : Bool)
    (torStatus : NetworkPrivacyStatus) (isolated : Bool) : Except String (Option C) :=
  match routeDecision torDesired torStatus client.isSome isolated with
  | .ok .direct => .ok none
  | .ok .torShared => .ok client
  | .ok .torIsolated => .ok (client.map isolatedClient)
  | .error e => .error e

def RoutingPoint.advance (isolatedClient : C → C) (isolated : Bool) (s : RouteState C) :
    RoutingPoint C → Option (RoutingPoint C)
  | .readClient => if s.slotLock = none then some (.loadDesired s.torClient) else none
  | .loadDesired client => some (.loadStatus client s.torDesired)
  | .loadStatus client torDesired =>
    some (.returned (clientForRoute isolatedClient client torDesired s.torStatus isolated))
  | .returned _ => none

/-- Creating, polling and dropping a lease. The inner I/O runs under the lock of the wakers. -/
def LeasePoint.advance (i : Nat) (choice : RouteChoice C) (s : RouteState C) :
    LeasePoint → Option (RouteState C × LeasePoint)
  | .creating => some (s,.idle s.directRouteEpoch)
  | .idle epoch =>
    if s.wakersLock = none then
      match choice with
      | .drop => some ({ s with directIoWakers := s.directIoWakers.erase i },.dropped)
      | _ => some ({ s with wakersLock := some i },.checkDesired epoch)
    else none
  | .checkDesired epoch =>
    if s.torDesired then some ({ s with wakersLock := none },.idle epoch)
    else some (s,.checkEpoch epoch)
  | .checkEpoch epoch =>
    if epoch ≠ s.directRouteEpoch then some ({ s with wakersLock := none },.idle epoch)
    else some ({ s with directIoWakers := s.directIoWakers.insert i },.running epoch)
  | .running epoch => some ({ s with wakersLock := none },.idle epoch)
  | .dropped => none

def RouteThread.advance (isolatedClient : C → C) (i : Nat) (choice : RouteChoice C)
    (s : RouteState C) : RouteThread C → Option (RouteState C × RouteThread C)
  | .begin point => point.advance i s
  | .enable point => (point.advance i choice s).map fun (s,point) => (s,.enable point)
  | .fail point => (point.bind (·.advance i s)).map fun (s,point) => (s,.fail point)
  | .disable point => (point.advance i s).map fun (s,point) => (s,.disable point)
  | .routing isolated point =>
    (point.advance isolatedClient isolated s).map fun point => (s,.routing isolated point)
  | .lease point => (point.advance i choice s).map fun (s,point) => (s,.lease point)

/-- The calls that may be made; Tor is enabled by a call that has blocked direct requests first. -/
def RouteThread.initial : RouteThread C → Bool
  | .begin .lockWakers | .fail (some .lockSlot) | .disable .lockSlot
  | .routing _ .readClient | .lease .creating => true
  | _ => false

def routeThreads (isolatedClient : C → C) : Threads (RouteState C) (RouteThread C) (RouteChoice C) where
  initial := RouteThread.initial
  advance := RouteThread.advance isolatedClient

abbrev Route (C : Type) := ThreadPool (RouteState C) (RouteThread C)

end CoppiceWallet.NetworkPrivacy
