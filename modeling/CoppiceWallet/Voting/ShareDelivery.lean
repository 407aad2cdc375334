import CoppiceWallet.Lib.Permits
import CoppiceWallet.Lib.Run

/-!
# Initial delivery of shares

Every share has as many workers as helpers it should be sent to. They draw helpers from the
candidates that remain, each with a permit, until one acknowledges the share or there is no time or
no candidate left. A share whose workers are all done is recorded with the helpers that accepted it.

A post is one call of the client. The budget may run out at any moment. Texts of errors and logs are
left out.
-/

namespace CoppiceWallet.Voting

open CoppiceWallet.Lib

structure VotingHelperState where
  consecutiveFailures : Nat
  openedAt : Option Int

structure VotingHelperHealthTracker where
  failureThreshold : Nat
  cooldown : Int
  states : String → Option VotingHelperState

namespace VotingHelperHealthTracker

/-- A helper whose cooldown is over is available again. -/
def isAvailable (tracker : VotingHelperHealthTracker) (url : String) (current : Int) :
    Bool × VotingHelperHealthTracker :=
  match (tracker.states url).bind VotingHelperState.openedAt with
  | none => (true,tracker)
  | some openedAt =>
    if tracker.cooldown ≤ current - openedAt then
      (true,{ tracker with
        states := Function.update tracker.states url (some ⟨tracker.failureThreshold - 1,none⟩) })
    else (false,tracker)

/-- Those that are available and those that are not, with the tracker after the checks. -/
def partition (current : Int) : List String → VotingHelperHealthTracker →
    List String × List String × VotingHelperHealthTracker
  | [], tracker => ([],[],tracker)
  | url :: urls, tracker =>
    let (isUp,tracker) := tracker.isAvailable url current
    let (available,unavailable,tracker) := partition current urls tracker
    if isUp then (url :: available,unavailable,tracker) else (available,url :: unavailable,tracker)

def candidateServers (tracker : VotingHelperHealthTracker) (urls : List String) (current : Int) :
    List String × VotingHelperHealthTracker :=
  let (available,unavailable,tracker) := partition current urls tracker
  (if available = [] then urls else available ++ unavailable,tracker)

def recordSuccess (tracker : VotingHelperHealthTracker) (url : String) : VotingHelperHealthTracker :=
  { tracker with states := Function.update tracker.states url none }

def recordFailure (tracker : VotingHelperHealthTracker) (url : String) (current : Int) :
    VotingHelperHealthTracker :=
  let state := (tracker.states url).getD ⟨0,none⟩
  let failures := state.consecutiveFailures + 1
  { tracker with
    states := Function.update tracker.states url (some
      ⟨failures,if tracker.failureThreshold ≤ failures then some current else state.openedAt⟩) }

end VotingHelperHealthTracker

/-- The ranking of the budget: preferred helpers first and those that timed out last. -/
def rankCandidates (preferredFallbackServers timedOutServers candidates : List String) :
    List String :=
  if timedOutServers = [] then candidates
  else
    (candidates.filter fun candidate =>
      decide (candidate ∈ preferredFallbackServers ∧ candidate ∉ timedOutServers)) ++
    (candidates.filter fun candidate =>
      decide (candidate ∉ preferredFallbackServers ∧ candidate ∉ timedOutServers)) ++
    candidates.filter fun candidate => decide (candidate ∈ timedOutServers)

structure PreparedInitialShareSubmission where
  candidateServers : List String
  targetCount : Nat
  distinct : candidateServers.Nodup
  positive : 1 ≤ targetCount
  enough : targetCount ≤ candidateServers.length

/-- The shares of a commitment, with what all of their workers use. -/
structure Delivery where
  shares : List PreparedInitialShareSubmission
  permits : Nat
  preferredFallbackServers : List String
  health : VotingHelperHealthTracker
  positive : 0 < permits

/-- What one attempt comes to. It is refused when there is no time or no candidate left. -/
inductive Attempt
  | refused
  | rejected
  | accepted (server : String)
  deriving DecidableEq

/-- A worker that is finished keeps the helper that it found. -/
inductive WorkerPoint
  | deciding
  | waiting
  | posting (server : String)
  | leaving (result : Attempt)
  | returned (result : Attempt)
  | finished (server : Option String)
  deriving DecidableEq

/-- A share with its workers. What was posted and what was acknowledged is kept. -/
structure ShareState where
  remainingServers : List String
  acceptedServers : List String
  points : Nat → WorkerPoint
  posted : List String
  acknowledged : List String

abbrev WorkerId := Nat × Nat

/-- The recorder takes the shares in the order in which they were completed. -/
structure DeliveryState where
  pool : PermitPool WorkerId
  shares : Nat → ShareState
  expired : Bool
  timedOutServers : List String
  health : VotingHelperHealthTracker
  completed : List Nat
  recording : Option Nat
  recordCalls : List (Nat × List String)
  failedResult : Option Nat
  persistenceError : Bool

def startOfShare (candidateServers : List String) : ShareState :=
  ⟨candidateServers,[],fun _ => .deciding,[],[]⟩

def Delivery.start (d : Delivery) : DeliveryState where
  pool := .ofPermits d.permits
  shares i := startOfShare ((d.shares[i]?.map (·.candidateServers)).getD [])
  expired := false
  timedOutServers := []
  health := d.health
  completed := []
  recording := none
  recordCalls := []
  failedResult := none
  persistenceError := false

inductive PostOutcome
  | acknowledged
  | failed
  | timedOut
  deriving DecidableEq

/-- A worker moves on at a time, and its post ends with an outcome if it has one in flight. -/
inductive DeliveryMove
  | advance (share worker : Nat) (now : Int) (outcome : PostOutcome)
  | expire
  | complete (share : Nat)
  | record
  | recorded (failed : Bool)
  deriving DecidableEq

def ShareState.setPoint (x : ShareState) (worker : Nat) (point : WorkerPoint) : ShareState :=
  { x with points := Function.update x.points worker point }

def DeliveryState.setShare (s : DeliveryState) (share : Nat) (x : ShareState) : DeliveryState :=
  { s with shares := Function.update s.shares share x }

/-- No time or no candidate is left. -/
def isExhausted (expired : Bool) (x : ShareState) : Bool :=
  expired || decide (x.remainingServers = [])

/-- With the permit a worker chooses its helper, or gives up. -/
def attempt (d : Delivery) (share worker : Nat) (now : Int) (s : DeliveryState) :
    Except Unit DeliveryState :=
  let x := s.shares share
  if isExhausted s.expired x then .ok (s.setShare share (x.setPoint worker (.leaving .refused)))
  else
    let (candidates,health) := s.health.candidateServers
      (rankCandidates d.preferredFallbackServers s.timedOutServers x.remainingServers) now
    match candidates.head? with
    | none => .error ()
    | some server => .ok { s.setShare share { x.setPoint worker (.posting server) with
        remainingServers := x.remainingServers.erase server
        posted := x.posted ++ [server] } with
        health := health }

/-- A post ends. -/
def respond (share worker : Nat) (server : String) (now : Int) (s : DeliveryState) :
    PostOutcome → DeliveryState
  | .acknowledged => { s.setShare share
      { (s.shares share).setPoint worker (.leaving (.accepted server)) with
        acknowledged := (s.shares share).acknowledged ++ [server] } with
      health := s.health.recordSuccess server
      timedOutServers := s.timedOutServers.filter fun other => decide (other ≠ server) }
  | .failed => { s.setShare share ((s.shares share).setPoint worker (.leaving .rejected)) with
      health := s.health.recordFailure server now }
  | .timedOut => { s.setShare share ((s.shares share).setPoint worker (.leaving .rejected)) with
      health := s.health.recordFailure server now
      timedOutServers := server :: s.timedOutServers }

def advanceWorker (d : Delivery) (share worker : Nat) (now : Int) (outcome : PostOutcome)
    (s : DeliveryState) : Except Unit DeliveryState :=
  let x := s.shares share
  match x.points worker with
  | .deciding =>
    if isExhausted s.expired x then .ok (s.setShare share (x.setPoint worker (.finished none)))
    else .ok { s.setShare share (x.setPoint worker .waiting) with
      pool := s.pool.acquire (share,worker) }
  | .waiting =>
    match s.pool.resume (share,worker) with
    | none => .error ()
    | some pool => attempt d share worker now { s with pool := pool }
  | .posting server => .ok (respond share worker server now s outcome)
  | .leaving result => .ok { s.setShare share (x.setPoint worker (.returned result)) with
      pool := s.pool.release }
  | .returned .refused => .ok (s.setShare share (x.setPoint worker (.finished none)))
  | .returned .rejected => .ok (s.setShare share (x.setPoint worker .deciding))
  | .returned (.accepted server) => .ok (s.setShare share
      { x.setPoint worker (.finished (some server)) with
        acceptedServers := x.acceptedServers ++ [server] })
  | .finished _ => .error ()

def WorkerPoint.isFinished : WorkerPoint → Bool
  | .finished _ => true
  | _ => false

def deliveryStep (d : Delivery) (move : DeliveryMove) (s : DeliveryState) :
    Except Unit DeliveryState :=
  match move with
  | .advance share worker now outcome =>
    match d.shares[share]? with
    | none => .error ()
    | some prepared =>
      if worker < prepared.targetCount then advanceWorker d share worker now outcome s
      else .error ()
  | .expire => if s.expired then .error () else .ok { s with expired := true }
  | .complete share =>
    match d.shares[share]? with
    | none => .error ()
    | some prepared =>
      if (∀ worker < prepared.targetCount, ((s.shares share).points worker).isFinished = true) ∧
          share ∉ s.recordCalls.map Prod.fst ++ s.completed then
        .ok { s with completed := s.completed ++ [share] }
      else .error ()
  | .record =>
    match s.recording, s.completed with
    | none, share :: completed =>
      let acceptedServers := (s.shares share).acceptedServers
      .ok { s with
        completed := completed
        recording := some share
        recordCalls := s.recordCalls ++ [(share,acceptedServers)]
        failedResult := s.failedResult.orElse fun _ =>
          if acceptedServers = [] then some share else none }
    | _, _ => .error ()
  | .recorded failed =>
    match s.recording with
    | none => .error ()
    | some _ => .ok { s with
        recording := none
        persistenceError := s.persistenceError || failed }

end CoppiceWallet.Voting
