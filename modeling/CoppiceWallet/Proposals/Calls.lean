import CoppiceWallet.Lib.Run
import CoppiceWallet.Proposals.Store

/-!
# The calls on a stored proposal

One call spends the proposal: `execute_proposal`, or `create_pczt_from_proposal` and then
`store_and_broadcast_signed_pczts_for_proposal`. Others finish it, discard it or retain its lock.
What the network and the database answer is an input of the step that receives it.
-/

namespace CoppiceWallet.Proposals

open CoppiceWallet.Lib
open CoppiceWallet.Store (WalletNetwork)

variable {W : Type} (db : OutputLockStore W)

/-- Where a call of `finish_stored_proposal`, `discard_stored_proposal` or
`retain_stored_proposal_lock_until_expiry` is. -/
inductive CallPoint
  | discarding
  | finishing (releaseInputs : Bool)
  | unlocking
  | removingRows (owner : LockOwner)
  | retaining
  | retainingLock (lock : StoredProposalLock)
  | returned (result : Except String Unit)

/-- The next section of a call; a fault is met wherever the section writes to the database. -/
def CallPoint.advance (proposalId : Nat) (sendFlowId : String) (fault : Option UnlockFault)
    (world : World W) : CallPoint → Option (CallPoint × World W)
  | .discarding =>
    match world.store.proposals proposalId with
    | some stored =>
      if stored.sendFlowId = sendFlowId then
        some (.finishing true,{ world with store := world.store.removeProposal proposalId })
      else some (.returned (.error sendFlowMismatch),world)
    | none =>
      match world.store.locks proposalId with
      | some lock =>
        if lock.sendFlowId = sendFlowId then some (.finishing true,world)
        else some (.returned (.error sendFlowMismatch),world)
      | none => some (.returned (.ok ()),world)
  | .finishing releaseInputs =>
    match world.store.locks proposalId with
    | none => some (.returned (.ok ()),world)
    | some lock =>
      if lock.sendFlowId ≠ sendFlowId then some (.returned (.error sendFlowMismatch),world)
      else if releaseInputs then some (.unlocking,world)
      else some (.removingRows lock.owner,{ world with store := world.store.removeLock proposalId })
  | .unlocking =>
    let (result,world) := unlockStoredProposal db proposalId sendFlowId fault world
    some (.returned result,world)
  | .removingRows owner =>
    match fault with
    | some _ => some (.returned (.error "Remove send proposal lock recovery rows"),world)
    | none => some (.returned (.ok ()),{ world with rows := removeRows world.rows owner })
  | .retaining =>
    match world.store.locks proposalId with
    | none => some (.returned (.ok ()),world)
    | some lock =>
      if lock.sendFlowId = sendFlowId then some (.retainingLock lock,world)
      else some (.returned (.error sendFlowMismatch),world)
  | .retainingLock lock =>
    let (result,world) := retainStoredLock proposalId sendFlowId lock fault.isSome world
    some (.returned result,world)
  | .returned _ => none

/-- A section that takes the capability and leaves the inputs locked. -/
def CallPoint.takesCapability : CallPoint → Bool
  | .finishing releaseInputs => !releaseInputs
  | .retainingLock _ => true
  | _ => false

/-- The three functions and their arguments. -/
inductive CallKind
  | discard
  | finish (releaseInputs : Bool)
  | retain

def CallKind.start : CallKind → CallPoint
  | .discard => .discarding
  | .finish releaseInputs => .finishing releaseInputs
  | .retain => .retaining

structure Call where
  kind : CallKind
  sendFlowId : String
  point : CallPoint

inductive PcztBroadcastAttempt
  | accepted
  | transportUnknown
  | definiteRejection (error : String)
  | routeUnavailable (error : String)

structure PcztBroadcastPlan where
  persistedPrefixLen : Nat
  broadcastedCount : Nat
  status : String

inductive PcztBroadcastStep
  | continue
  | stop (plan : PcztBroadcastPlan)
  | fail (error : String)

def pcztBroadcastStep (index totalCount : Nat) : PcztBroadcastAttempt → PcztBroadcastStep
  | .accepted =>
    if index + 1 < totalCount then .continue else .stop ⟨index + 1,index + 1,"broadcasted"⟩
  | .transportUnknown =>
    .stop ⟨index + 1,index,if index = 0 then "broadcast_unknown" else "partial_broadcast"⟩
  | .definiteRejection error =>
    if index = 0 then .fail error else .stop ⟨index,index,"partial_broadcast"⟩
  | .routeUnavailable error =>
    if index = 0 then .fail error else .stop ⟨index,index,"partial_broadcast"⟩

inductive SpendPath
  | execute
  | pczt
  deriving DecidableEq

structure SpendArguments where
  dbPath : String
  network : WalletNetwork
  sendFlowId : String

/-- Where the spending call is. -/
inductive SpendPoint
  | consuming
  | readingLock (stored : StoredProposal)
  | refreshingTip (stored : StoredProposal) (lock : StoredProposalLock)
  | creating (stored : StoredProposal) (lock : StoredProposalLock) (liveExpiryHeight : Nat)
  /-- `finish_stored_proposal` with `release_inputs`, before an error or an expired set is reported. -/
  | releasing (expired : Bool) (error : String) (call : CallPoint)
  /-- `finish_stored_proposal` without, once the transactions of `execute_proposal` are stored. -/
  | keeping (totalCount : Nat) (call : CallPoint)
  | opening (index totalCount : Nat)
  | sending (index totalCount : Nat)
  /-- `create_pczt_from_proposal` returned; the PCZT is out. -/
  | pcztCreated
  | readingLockToSend
  | preparing (lock : StoredProposalLock)
  | openingPczt (index totalCount : Nat)
  | sendingPczt (index totalCount : Nat)
  | storing (plan : PcztBroadcastPlan) (totalCount : Nat)
  | retaining (status : String) (call : CallPoint)
  | dropping (status : String) (call : CallPoint)
  | ended (answer : Except String String)

structure Spend where
  path : SpendPath
  arguments : SpendArguments
  point : SpendPoint

/-- What the section that creates the transactions hears. -/
structure CreateAnswers (W : Type) where
  openDb : Except String Unit
  lockOutputs : Except String Unit
  updateExpiry : Except String Unit
  /-- The number of transactions built. -/
  build : Except String Nat
  /-- The locks that `create_proposed_transactions` leaves. -/
  wallet : W
  markRetain : Except String Unit

/-- Reassert the locks, and record the expiry the transactions will have. -/
def reassertLocks (refs : List OutputRef) (owner : LockOwner) (liveExpiryHeight : Nat)
    (answers : CreateAnswers W) (world : World W) : Except String Unit × World W :=
  match answers.lockOutputs with
  | .error e => (.error e,world)
  | .ok () =>
    let locked := { world with wallet := db.lockOutputs world.wallet refs owner liveExpiryHeight }
    match answers.updateExpiry with
    | .error e => (.error e,locked)
    | .ok () =>
      match updateExpiry world.rows owner liveExpiryHeight with
      | .error e => (.error e,locked)
      | .ok rows => (.ok (),{ locked with rows := rows })

/-- `execute_proposal` stores what it builds; building a PCZT leaves the locks alone, and marks the
recovery rows before the PCZT gets out. -/
def buildTransactions (path : SpendPath) (owner : LockOwner) (answers : CreateAnswers W)
    (world : World W) : Except String Nat × World W :=
  match path with
  | .execute => (answers.build,{ world with wallet := answers.wallet })
  | .pczt =>
    match answers.build, answers.markRetain with
    | .error e, _ => (.error e,world)
    | .ok _, .error e => (.error e,world)
    | .ok totalCount, .ok () =>
      match markRetainUntilExpiry world.rows owner with
      | .error e => (.error e,world)
      | .ok rows => (.ok totalCount,{ world with rows := rows })

/-- `execute_proposal` looks at the target height of the wallet before it locks anything. -/
def checkTargetHeight (path : SpendPath) (stored : StoredProposal) (world : World W) :
    Except String Unit :=
  match path, world.targetHeight with
  | .pczt, _ => .ok ()
  | .execute, none => .error "Wallet must sync before executing a send proposal"
  | .execute, some height =>
    if sendProposalIsExpired stored.proposal.minTargetHeight height then
      .error "Send proposal expired; review the payment and create a new proposal"
    else .ok ()

/-- The section that creates the transactions, under the wallet write lock. -/
def createTransactions (path : SpendPath) (proposalId : Nat) (sendFlowId : String)
    (stored : StoredProposal) (lock : StoredProposalLock) (liveExpiryHeight : Nat)
    (answers : CreateAnswers W) (world : World W) : Except String Nat × World W :=
  match storedProposalLock proposalId sendFlowId world.store with
  | .error e => (.error e,world)
  | .ok current =>
    if current.owner ≠ lock.owner ∨ current.dbPath ≠ lock.dbPath ∨ current.network ≠ lock.network
    then (.error "Send proposal input lock changed while refreshing chain tip",world)
    else
      match answers.openDb, checkTargetHeight path stored world with
      | .error e, _ => (.error e,world)
      | .ok (), .error e => (.error e,world)
      | .ok (), .ok () =>
        match reassertLocks db stored.proposal.inputRefs current.owner liveExpiryHeight answers
          world with
        | (.error e,world) => (.error e,world)
        | (.ok (),world) => buildTransactions path current.owner answers world

/-- How the signed PCZTs fare before the first is sent. -/
inductive PrepareAnswer
  | failed (error : String)
  | expired (error : String)
  /-- One transaction and so many more are ready. -/
  | ready (more : Nat)

/-- How the accepted or ambiguous transactions fare in the wallet database. -/
inductive StoreAnswer (W : Type)
  | stored (wallet : W)
  /-- The first attempt failed, the fallback did not. -/
  | fallback (wallet : W)
  | failed (error : String)

inductive SpendAnswer (W : Type)
  | section
  | finish (fault : Option UnlockFault)
  | liveTip (height : Except String Nat)
  | create (answers : CreateAnswers W)
  | prepare (answer : PrepareAnswer)
  | route (opened : Except String Unit)
  | sent (attempt : PcztBroadcastAttempt)
  | store (answer : StoreAnswer W)

/-- What the run of a proposal leaves behind, for no call to read: how often the proposal was taken
from the store, the transactions handed to the network and not rejected, the transactions stored, the
expiry recorded for the inputs, whether the capability was taken with the inputs locked, and the
highest target height so far. -/
structure Trace where
  consumed : Nat
  handed : Bool
  outstanding : List Nat
  stored : List Nat
  recordedExpiry : Nat
  capabilityTaken : Bool
  highestTarget : Nat

def Trace.empty : Trace := ⟨0,false,[],[],0,false,0⟩

def Trace.hand (trace : Trace) (index : Nat) : Trace :=
  { trace with handed := true, outstanding := index :: trace.outstanding }

/-- A definite rejection settles the transaction. -/
def Trace.settle (trace : Trace) (index : Nat) : PcztBroadcastAttempt → Trace
  | .definiteRejection _ =>
    { trace with outstanding := trace.outstanding.filter fun i => decide (i ≠ index) }
  | _ => trace

/-- The proposal leaves the store once; the capability may leave it with the inputs locked. -/
def Trace.note (trace : Trace) (proposalId : Nat) (takesCapability : Bool)
    (before after : ProposalStore) : Trace :=
  { trace with
    consumed := trace.consumed +
      (if (before.proposals proposalId).isSome && (after.proposals proposalId).isNone then 1 else 0)
    capabilityTaken := trace.capabilityTaken ||
      (takesCapability && (before.locks proposalId).isSome && (after.locks proposalId).isNone) }

def notFoundMessage : SpendPath → String
  | .execute => "Proposal not found (expired or already executed)"
  | .pczt => "Proposal not found (expired or already consumed)"

/-- The arguments of the call do not fit the lock. -/
def SpendArguments.differ (arguments : SpendArguments) (path : SpendPath)
    (lock : StoredProposalLock) : Bool :=
  match path with
  | .execute => decide (lock.dbPath ≠ arguments.dbPath)
  | .pczt => decide (lock.dbPath ≠ arguments.dbPath ∨ lock.network ≠ arguments.network)

def differentDatabase : String := "Proposal belongs to a different wallet database or network"

def releaseAnswer (expired : Bool) (error : String) : Except String Unit → Except String String
  | .ok () => if expired then .ok "expired" else .error error
  | .error cleanup =>
    .error (error ++ "; additionally failed to release proposal inputs: " ++ cleanup)

/-- What `broadcast_created_transactions` reports when it stops at a transaction. -/
def stoppedStatus (index : Nat) : String :=
  if index = 0 then "pending_broadcast" else "partial_broadcast"

/-- Where a plan, an error or the next transaction leads. -/
def PcztBroadcastStep.next (index totalCount : Nat) : PcztBroadcastStep → SpendPoint
  | .continue => .openingPczt (index + 1) totalCount
  | .stop plan => .storing plan totalCount
  | .fail error => .releasing false error (.finishing true)

def storageFailedStatus (plan : PcztBroadcastPlan) (totalCount : Nat) : String :=
  if plan.broadcastedCount = totalCount then "broadcasted_storage_failed" else plan.status

/-- The steps that only wait for an answer, and touch neither the store nor the database. -/
def SpendPoint.hear (arguments : SpendArguments) (answer : SpendAnswer W) (trace : Trace) :
    SpendPoint → Option (SpendPoint × Trace)
  | .refreshingTip stored lock =>
    match answer with
    | .liveTip height =>
      match height >>= sendExpiryHeightForLiveTip stored.proposal.minTargetHeight with
      | .error e => some (.releasing false e (.finishing true),trace)
      | .ok liveExpiryHeight => some (.creating stored lock liveExpiryHeight,trace)
    | _ => none
  | .opening index totalCount =>
    match answer with
    | .route (.ok ()) => some (.sending index totalCount,trace.hand index)
    | .route (.error _) => some (.ended (.ok (stoppedStatus index)),trace)
    | _ => none
  | .sending index totalCount =>
    match answer with
    | .sent .accepted =>
      if index + 1 < totalCount then some (.opening (index + 1) totalCount,trace)
      else some (.ended (.ok "broadcasted"),trace)
    | .sent attempt => some (.ended (.ok (stoppedStatus index)),trace.settle index attempt)
    | _ => none
  | .preparing lock =>
    if arguments.differ .pczt lock then
      some (.releasing false differentDatabase (.finishing true),trace)
    else
      match answer with
      | .prepare (.failed e) => some (.releasing false e (.finishing true),trace)
      | .prepare (.expired e) => some (.releasing true e (.finishing true),trace)
      | .prepare (.ready more) => some (.sendingPczt 0 (more + 1),trace.hand 0)
      | _ => none
  | .openingPczt index totalCount =>
    match answer with
    | .route (.ok ()) => some (.sendingPczt index totalCount,trace.hand index)
    | .route (.error e) =>
      some ((pcztBroadcastStep index totalCount (.routeUnavailable e)).next index totalCount,trace)
    | _ => none
  | .sendingPczt index totalCount =>
    match answer with
    | .sent (.routeUnavailable _) => none
    | .sent attempt =>
      some ((pcztBroadcastStep index totalCount attempt).next index totalCount,
        trace.settle index attempt)
    | _ => none
  | _ => none

/-- The section of another function in which the spending call is, and what its return leads to. -/
def SpendPoint.inCall : SpendPoint → Option (CallPoint × (CallPoint → SpendPoint) ×
    (Except String Unit → SpendPoint))
  | .releasing expired error call =>
    some (call,.releasing expired error,fun result => .ended (releaseAnswer expired error result))
  | .keeping totalCount call =>
    some (call,.keeping totalCount,fun _ =>
      if totalCount = 0 then .ended (.ok "broadcasted") else .opening 0 totalCount)
  | .retaining status call => some (call,.retaining status,fun _ => .ended (.ok status))
  | .dropping status call => some (call,.dropping status,fun _ => .ended (.ok status))
  | _ => none

/-- The steps of the call's own sections. -/
def SpendPoint.section (proposalId : Nat) (path : SpendPath) (arguments : SpendArguments)
    (answer : SpendAnswer W) (world : World W) (trace : Trace) :
    SpendPoint → Option (SpendPoint × World W × Trace)
  | .consuming =>
    match consumeStoredProposal proposalId arguments.sendFlowId (notFoundMessage path)
      world.store with
    | .error e => some (.ended (.error e),world,trace)
    | .ok (stored,store) => some (.readingLock stored,{ world with store := store },trace)
  | .readingLock stored =>
    match storedProposalLock proposalId arguments.sendFlowId world.store with
    | .error e => some (.releasing false e (.finishing true),world,trace)
    | .ok lock =>
      if arguments.differ path lock then
        some (.releasing false differentDatabase (.finishing true),world,trace)
      else some (.refreshingTip stored lock,world,trace)
  | .creating stored lock liveExpiryHeight =>
    match answer with
    | .create answers =>
      match createTransactions db path proposalId arguments.sendFlowId stored lock liveExpiryHeight
        answers world, path with
      | (.error e,world), _ => some (.releasing false e (.finishing true),world,trace)
      | (.ok totalCount,world), .execute =>
        some (.keeping totalCount (.finishing false),world,
          { trace with stored := List.range totalCount, recordedExpiry := liveExpiryHeight })
      | (.ok _,world), .pczt =>
        some (.pcztCreated,world,{ trace with recordedExpiry := liveExpiryHeight })
    | _ => none
  | .readingLockToSend =>
    match storedProposalLock proposalId arguments.sendFlowId world.store with
    | .error e => some (.releasing false e (.finishing true),world,trace)
    | .ok lock => some (.preparing lock,world,trace)
  | .storing plan totalCount =>
    match answer with
    | .store (.stored wallet) | .store (.fallback wallet) =>
      some (.dropping plan.status (.finishing false),{ world with wallet := wallet },
        { trace with stored := List.range plan.persistedPrefixLen })
    | .store (.failed _) =>
      some (.retaining (storageFailedStatus plan totalCount) .retaining,world,trace)
    | _ => none
  | _ => none

/-- One step of the spending call. -/
def SpendPoint.advance (proposalId : Nat) (path : SpendPath) (arguments : SpendArguments)
    (answer : SpendAnswer W) (world : World W) (trace : Trace) (point : SpendPoint) :
    Option (SpendPoint × World W × Trace) :=
  match point.inCall with
  | some (call,within,after) =>
    match answer with
    | .finish fault =>
      match call.advance db proposalId arguments.sendFlowId fault world with
      | none => none
      | some (.returned result,world) => some (after result,world,trace)
      | some (call,world) => some (within call,world,trace)
    | _ => none
  | none =>
    match point.hear arguments answer trace with
    | some (point,trace) => some (point,world,trace)
    | none => point.section db proposalId path arguments answer world trace

/-! ## Interleavings of the calls on one proposal

The process takes the next section of any call under way, starts another call, stops and starts
again, or recovers the locks of the process before it; the target height of the wallet moves.
-/

section

variable {W : Type} (db : OutputLockStore W)

structure State (W : Type) where
  proposalId : Nat
  world : World W
  spend : Option Spend
  calls : List Call
  trace : Trace

inductive Input (W : Type)
  /-- Call `execute_proposal` or `create_pczt_from_proposal`. -/
  | spend (path : SpendPath) (arguments : SpendArguments)
  /-- Call `store_and_broadcast_signed_pczts_for_proposal`. -/
  | sendSigned (arguments : SpendArguments)
  | advanceSpend (answer : SpendAnswer W)
  | call (kind : CallKind) (sendFlowId : String)
  | advanceCall (thread : Nat) (fault : Option UnlockFault)
  | restart
  | recover (fault : Option RecoverFault)
  | setTarget (height : Option Nat)

/-- The state in which `propose_send` leaves a proposal. -/
def State.proposed (lock : StoredProposalLock) (accountId : String) (world : World W) : State W where
  proposalId := (exposeProposal db lock accountId world).1
  world := (exposeProposal db lock accountId world).2
  spend := none
  calls := []
  trace := { Trace.empty with highestTarget := world.targetHeight.getD 0 }

def SpendPoint.takesCapability (point : SpendPoint) : Bool :=
  point.inCall.any fun inner => inner.1.takesCapability

def notEnabled : String := "The step is not enabled"

/-- Start the spending call, or the second half of it. -/
def State.start (s : State W) : Input W → Except String (State W)
  | .spend path arguments =>
    match s.spend with
    | none => .ok { s with spend := some ⟨path,arguments,.consuming⟩ }
    | some _ => .error notEnabled
  | .sendSigned arguments =>
    match s.spend with
    | some ⟨.pczt,_,.pcztCreated⟩ =>
      .ok { s with spend := some ⟨.pczt,arguments,.readingLockToSend⟩ }
    | _ => .error notEnabled
  | .call kind sendFlowId => .ok { s with calls := s.calls ++ [⟨kind,sendFlowId,kind.start⟩] }
  | _ => .error notEnabled

/-- The next section of the spending call. -/
def State.advanceSpend (s : State W) (answer : SpendAnswer W) : Except String (State W) :=
  match s.spend with
  | none => .error notEnabled
  | some spend =>
    match spend.point.advance db s.proposalId spend.path spend.arguments answer s.world s.trace with
    | none => .error notEnabled
    | some (point,world,trace) =>
      .ok { s with
        world := world
        spend := some { spend with point := point }
        trace := trace.note s.proposalId spend.point.takesCapability s.world.store world.store }

/-- The next section of another call. -/
def State.advanceCall (s : State W) (thread : Nat) (fault : Option UnlockFault) :
    Except String (State W) :=
  match s.calls[thread]? with
  | none => .error notEnabled
  | some call =>
    match call.point.advance db s.proposalId call.sendFlowId fault s.world with
    | none => .error notEnabled
    | some (point,world) =>
      .ok { s with
        world := world
        calls := s.calls.set thread { call with point := point }
        trace := s.trace.note s.proposalId call.point.takesCapability s.world.store world.store }

/-- The memory of the process is gone, and every call with it. -/
def State.restart (s : State W) : State W :=
  { s with
    world := { s.world with store := .empty, sessionId := s.world.sessionId + 1 }
    spend := s.spend.map fun spend => { spend with point := .ended (.error "Process ended") }
    calls := []
    trace := { s.trace with capabilityTaken := true } }

def State.setTarget (s : State W) (height : Option Nat) : State W :=
  { s with
    world := { s.world with targetHeight := height }
    trace := { s.trace with highestTarget := max s.trace.highestTarget (height.getD 0) } }

def State.step (input : Input W) (s : State W) : Except String (State W) :=
  match input with
  | .advanceSpend answer => s.advanceSpend db answer
  | .advanceCall thread fault => s.advanceCall db thread fault
  | .restart => .ok s.restart
  | .recover fault => .ok { s with world := (recoverPreviousProcess db fault s.world).2 }
  | .setTarget height => .ok (s.setTarget height)
  | input => s.start input

/-- The flow id of the call that a step belongs to. -/
def State.flowOf (s : State W) : Input W → Option String
  | .advanceSpend _ => s.spend.map fun spend => spend.arguments.sendFlowId
  | .advanceCall thread _ => (s.calls[thread]?).map Call.sendFlowId
  | .call _ sendFlowId => some sendFlowId
  | .spend _ arguments | .sendSigned arguments => some arguments.sendFlowId
  | _ => none

/-- `store_and_broadcast_signed_pczts_for_proposal` has looked at the capability and not stored its
transactions yet. -/
def SpendPoint.sends : SpendPoint → Bool
  | .preparing _ | .openingPczt _ _ | .sendingPczt _ _ | .storing _ _ => true
  | _ => false

/-- The PCZT is out, and the capability is what will be looked at next. -/
def SpendPoint.awaitsSignatures : SpendPoint → Bool
  | .pcztCreated | .readingLockToSend => true
  | _ => false

def Trace.unstored (trace : Trace) : List Nat :=
  trace.outstanding.filter fun index => decide (index ∉ trace.stored)

/-- A transaction is about to be handed to the network, or is out there and not stored. -/
def State.exposed (s : State W) : Bool :=
  s.spend.any (fun spend => spend.point.sends) || !s.trace.unstored.isEmpty

def State.signing (s : State W) : Bool :=
  s.spend.any fun spend => spend.point.awaitsSignatures

/-- The fault leaves the inputs as they were. -/
def keepsInputs : Option UnlockFault → Bool
  | none | some .openingDb => true
  | some _ => false

/-- The step is the unlocking section of a call of the proposal's own flow, while the capability is
there. -/
def State.unlocks (s : State W) : Input W → Option (Option UnlockFault)
  | .advanceCall thread fault =>
    match s.calls[thread]?, s.world.store.locks s.proposalId with
    | some ⟨_,sendFlowId,.unlocking⟩, some lock =>
      if lock.sendFlowId = sendFlowId then some fault else none
    | _, _ => none
  | _ => none

/-- No call releases the inputs under a transaction, nor fails halfway while one waits for its
signatures. -/
def State.leavesInputs (input : Input W) (s : State W) : Bool :=
  match s.unlocks input with
  | none => true
  | some fault => !s.exposed && (!s.signing || keepsInputs fault)

def LeavesInputs (input : Input W) (s : State W) : Prop := s.leavesInputs input = true

instance (input : Input W) (s : State W) : Decidable (LeavesInputs input s) :=
  inferInstanceAs (Decidable (s.leavesInputs input = true))

end

end CoppiceWallet.Proposals
