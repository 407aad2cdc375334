import CoppiceWallet.Lib.Async
import CoppiceWallet.Swap.Intents

/-!
# Operations on swap intents

The notifier keeps the intents of the active account in memory, and the tracker saves the list of an
account as a whole. Refreshes, checkpoints, claims and account switches are asynchronous functions
over both. Accounts are named by their uuids.

A request says what its function holds of the stored list while it waits: `shared` when it goes on
to use what it read of the list, `exclusive` from the moment at which it sets out to change a
deposit until the change is saved.
-/

namespace CoppiceWallet.Swap

open CoppiceWallet.Lib

inductive Hold
  | nothing
  | shared (accountUuid : String)
  | exclusive (accountUuid : String)
  deriving DecidableEq

/-- A save names the intent whose deposit checkpoint it records. -/
inductive SwapCall
  | loadRecords (accountUuid : String)
  | saveRecords (accountUuid : String) (records : List SwapIntent) (checkpoint : Option String)
  | getStatus (intentId : String)
  | startSwap
  | submitDepositTransaction (intentId txHash : String)
  | estimateZecDepositFee
  | sendZecDeposit
  | switchToFallback (message : Option String)
  deriving DecidableEq

structure SwapRequest where
  hold : Hold
  call : SwapCall
  deriving DecidableEq

/-- Storage calls succeed; an error of another call is the message shown for it. -/
def SwapCall.Reply : SwapCall → Type
  | .loadRecords _ => List SwapIntent
  | .saveRecords _ _ _ => Unit
  | .getStatus _ => Except String SwapIntentSnapshot
  | .startSwap => Except String SwapIntentSnapshot
  | .submitDepositTransaction _ _ => Except String SwapIntentSnapshot
  | .estimateZecDepositFee => Except String Unit
  | .sendZecDeposit => Except String SwapDepositBroadcastResult
  | .switchToFallback _ => Except String Unit

abbrev SwapRequest.Reply (request : SwapRequest) : Type := request.call.Reply

/-- Uses of the lists that the operations take for granted do not occur. -/
inductive Misuse
  /-- The list in memory is used for an account whose list it is not. -/
  | foreignList (accountUuid : Option String)
  /-- A stored list is checkpointed directly although it is also in memory. -/
  | storedBesideMemory (accountUuid : String)
  /-- A started swap gets the id of an intent of the list. -/
  | repeatedId (intentId : String)
  /-- A Keystone broadcast replaces the intent of another swap, or one that is claimed since. -/
  | replacedIntent (intentId : String)
  deriving DecidableEq

/-- `loadedFor` is the account whose restored list is in memory; it and `misuses` are not in the
source. -/
structure SwapWorld where
  stored : String → List SwapIntent
  clock : Nat
  activeAccountUuid : Option String
  accountScopeGeneration : Nat
  statusRefreshInFlight : Bool
  intents : List SwapIntent
  selectedIntentId : Option String
  startSubmitting : Bool
  depositSubmitting : Bool
  depositTxHashText : String
  pendingKeystoneSigningIntent : Option SwapIntent
  lastRefreshAt : String → Option Nat
  refreshing : String → Bool
  loadedFor : Option String
  misuses : List Misuse

namespace SwapWorld

def isAccountActive (w : SwapWorld) (accountUuid : Option String) : Bool :=
  accountUuid.isNone || w.activeAccountUuid = accountUuid

/-- Whether the list in memory is the list of the account. -/
def inMemory (w : SwapWorld) (accountUuid : String) : Bool :=
  w.loadedFor = some accountUuid && w.activeAccountUuid = some accountUuid

def noteIf (w : SwapWorld) (misused : Bool) (misuse : Misuse) : SwapWorld :=
  { w with misuses := if misused then misuse :: w.misuses else w.misuses }

def useIntents (w : SwapWorld) (accountUuid : Option String) : SwapWorld :=
  w.noteIf (!accountUuid.any w.inMemory) (.foreignList accountUuid)

def useStored (w : SwapWorld) (accountUuid : String) : SwapWorld :=
  w.noteIf (w.inMemory accountUuid) (.storedBesideMemory accountUuid)

def selectedIntentOrNull (w : SwapWorld) : Option SwapIntent :=
  (w.selectedIntentId.bind (swapIntentById w.intents)).orElse fun _ => w.intents.head?

def noteReplaced (w : SwapWorld) (intents : List SwapIntent) (intent : SwapIntent) : SwapWorld :=
  w.noteIf (intents.any fun other => other.id = intent.id &&
    (other.depositAddress ≠ intent.depositAddress ||
      other.providerQuoteId ≠ intent.providerQuoteId ||
        other.depositClaimedAt ≠ intent.depositClaimedAt)) (.replacedIntent intent.id)

def noteStarted (w : SwapWorld) (intentId : String) : SwapWorld :=
  w.noteIf (w.intents.any fun other => other.id = intentId) (.repeatedId intentId)

end SwapWorld

abbrev SwapAsync (α : Type) : Type := Async SwapWorld SwapRequest SwapRequest.Reply String α

def readClock : SwapAsync Nat := do return (← Async.get).clock

def call (hold : Hold) (c : SwapCall) : SwapAsync c.Reply :=
  Async.request (⟨hold,c⟩ : SwapRequest)

def loadIntents (hold : String → Hold) : Option String → SwapAsync (List SwapIntent)
  | none => pure []
  | some accountUuid => do
    let records ← call (hold accountUuid) (.loadRecords accountUuid)
    return records.map (swapIntentFromRecord (← readClock))

/-- The records that a save of the intents writes. -/
def savedRecords (accountUuid : String) (intents : List SwapIntent) : List SwapIntent :=
  (intents.filter (isPersistableIntent · accountUuid)).map fun intent =>
    { intent with accountUuid := some accountUuid }

def saveIntents (hold : String → Hold) (checkpoint : Option String) (intents : List SwapIntent) :
    Option String → SwapAsync Unit
  | none => pure ()
  | some accountUuid =>
    call (hold accountUuid) (.saveRecords accountUuid (savedRecords accountUuid intents) checkpoint)

structure SwapActivityRefreshResult where
  intents : List SwapIntent
  requestedIds : List String
  refreshedIds : List String
  refreshError : Option String

def SwapActivityRefreshResult.didRefresh (result : SwapActivityRefreshResult) : Bool :=
  !result.refreshedIds.isEmpty

def SwapActivityRefreshResult.includesRemovedRequestedIntent (result : SwapActivityRefreshResult)
    (currentIntents : List SwapIntent) : Bool :=
  result.intents.any fun intent =>
    intent.id ∈ result.requestedIds && intent.id ∉ currentIntents.map (·.id)

/-- Ask the provider about the intents, one after the other. -/
def refreshEach (accountUuid : String) (includeTerminal : Bool) : List SwapIntent →
    SwapActivityRefreshResult → SwapAsync SwapActivityRefreshResult
  | [], result => pure result
  | intent :: rest, result =>
    if intent.id ∉ result.requestedIds ∨ !canRefreshIntent intent accountUuid includeTerminal then
      refreshEach accountUuid includeTerminal rest result
    else do
      let checkedAt ← readClock
      match ← call (.shared accountUuid) (.getStatus intent.id) with
      | .ok snapshot =>
        let updated := updateSwapIntentFromSnapshot intent snapshot checkedAt (some checkedAt)
          (← readClock)
        refreshEach accountUuid includeTerminal rest { result with
          intents := replaceSwapIntent result.intents intent.id { updated with statusError := none }
          refreshedIds := result.refreshedIds ++ [intent.id] }
      | .error message =>
        refreshEach accountUuid includeTerminal rest { result with
          intents := replaceSwapIntent result.intents intent.id
            { intent with lastStatusCheckedAt := some checkedAt, statusError := some message }
          refreshedIds := result.refreshedIds ++ [intent.id]
          refreshError := result.refreshError.orElse fun _ => some message }

def mergeRefreshed (refreshedIntents latestIntents : List SwapIntent) (refreshedIds : List String) :
    List SwapIntent :=
  refreshedIds.foldl (fun merged id =>
    match swapIntentById refreshedIntents id with
    | none => merged
    | some refreshed => replaceSwapIntent merged id refreshed) latestIntents

def saveRefreshedIntents (accountUuid : String) (refreshedIntents : List SwapIntent)
    (refreshedIds : List String) : SwapAsync Unit := do
  let latestIntents ← loadIntents .shared (some accountUuid)
  saveIntents .shared none (mergeRefreshed refreshedIntents latestIntents refreshedIds)
    (some accountUuid)

def refreshIntents (accountUuid : String) (currentIntents : List SwapIntent)
    (intentIds : List String) (includeTerminal : Bool) : SwapAsync SwapActivityRefreshResult := do
  let result ← refreshEach accountUuid includeTerminal currentIntents
    ⟨currentIntents,intentIds,[],none⟩
  if result.didRefresh && result.intents.any (isPersistableIntent · accountUuid) then
    saveRefreshedIntents accountUuid result.intents result.refreshedIds
  return result

def refreshOpenIntents (accountUuid : String) (currentIntents : List SwapIntent) :
    SwapAsync SwapActivityRefreshResult := do
  let persistedIntents ← loadIntents .shared (some accountUuid)
  let sourceIntents := if persistedIntents.isEmpty then currentIntents else persistedIntents
  let refreshableIds :=
    (sourceIntents.filter (shouldAutoRefreshIntent · accountUuid)).map (·.id)
  refreshIntents accountUuid sourceIntents refreshableIds false

def minRefreshInterval : Nat := 30000

def isRefreshDue (intent : SwapIntent) (accountUuid : String) (now : Nat) (force : Bool) : Bool :=
  shouldAutoRefreshIntent intent accountUuid &&
    (force || intent.lastStatusCheckedAt.all fun checkedAt => minRefreshInterval ≤ now - checkedAt)

/-- The refresh that the home and activity screens start. -/
def refreshOpenActivities (accountUuid : String) (force : Bool) : SwapAsync Unit := do
  let w ← Async.get
  let recent := (w.lastRefreshAt accountUuid).any fun previous =>
    w.clock - previous < minRefreshInterval
  if w.refreshing accountUuid || !force && recent then pure ()
  else
    Async.set { w with
      lastRefreshAt := fun other =>
        if other = accountUuid then some w.clock else w.lastRefreshAt other
      refreshing := fun other => other = accountUuid || w.refreshing other }
    Async.ensuring (do
      let currentIntents ← loadIntents .shared (some accountUuid)
      let dueIds :=
        (currentIntents.filter (isRefreshDue · accountUuid w.clock force)).map (·.id)
      if dueIds.isEmpty then pure ()
      else
        let _ ← refreshIntents accountUuid currentIntents dueIds false
        pure ())
      fun w => { w with refreshing := fun other => other ≠ accountUuid && w.refreshing other }

def useIntents (accountUuid : Option String) : SwapAsync (List SwapIntent) := do
  Async.modify (·.useIntents accountUuid)
  return (← Async.get).intents

def persistIntentsForAccount (hold : String → Hold) (checkpoint : Option String)
    (accountUuid : Option String) (intentsToPersist : List SwapIntent) : SwapAsync Unit :=
  saveIntents hold checkpoint intentsToPersist accountUuid

def persistCurrentIntents (hold : String → Hold) (checkpoint : Option String) : SwapAsync Unit := do
  let w ← Async.get
  persistIntentsForAccount hold checkpoint w.activeAccountUuid w.intents

def refreshIntentStatuses (intentIds : List String) (includeTerminal : Bool) : SwapAsync Unit := do
  let w ← Async.get
  match w.activeAccountUuid with
  | none => pure ()
  | some accountUuid =>
    if w.statusRefreshInFlight || intentIds.isEmpty then pure ()
    else
      Async.modify fun w => { w with statusRefreshInFlight := true }
      Async.ensuring (do
        let currentIntents ← useIntents (some accountUuid)
        let result ←
          if includeTerminal then refreshIntents accountUuid currentIntents intentIds true
          else refreshOpenIntents accountUuid currentIntents
        let w ← Async.get
        if !result.didRefresh || !w.isAccountActive (some accountUuid) then pure ()
        else
          let currentIntents ← useIntents (some accountUuid)
          let reconciledIntents :=
            reconcileRefreshedSwapIntents currentIntents result.intents result.requestedIds
          Async.modify fun w => { w with intents := reconciledIntents }
          if result.includesRemovedRequestedIntent reconciledIntents then
            persistIntentsForAccount .shared none (some accountUuid) reconciledIntents
          else pure ())
        fun w => { w with statusRefreshInFlight := false }

def refreshSelectedIntentStatus : SwapAsync Unit := do
  match (← Async.get).selectedIntentOrNull with
  | none => pure ()
  | some selected => refreshIntentStatuses [selected.id] true

def refreshOpenIntentStatuses : SwapAsync Unit := do
  refreshIntentStatuses ((← Async.get).intents.map (·.id)) false

/-- The state when the list in memory is that of a restored account. -/
def SwapWorld.restore (w : SwapWorld) (accountUuid : String) (persisted : List SwapIntent)
    (replaceExisting : Bool) : SwapWorld :=
  { w with
    intents := persisted
    selectedIntentId := persisted.head?.map (·.id)
    depositTxHashText := (persisted.head?.bind (·.depositTxHash)).getD ""
    depositSubmitting := !replaceExisting && w.depositSubmitting
    loadedFor := some accountUuid }

/-- An account without stored intents finds its list in memory when that is empty. -/
def SwapWorld.noteRestored (w : SwapWorld) (accountUuid : String) : SwapWorld :=
  { w with loadedFor := if w.intents.isEmpty then some accountUuid else w.loadedFor }

/-- Restored intents are shown unless the account is changed meanwhile. -/
def showRestored (accountUuid : String) (accountScopeGeneration : Nat) (replaceExisting : Bool)
    (persisted : List SwapIntent) : SwapAsync Unit := do
  let w ← Async.get
  if accountScopeGeneration ≠ w.accountScopeGeneration ||
      !w.isAccountActive (some accountUuid) then
    pure ()
  else if persisted.isEmpty && !replaceExisting then
    Async.set (w.noteRestored accountUuid)
  else
    Async.set (w.restore accountUuid persisted replaceExisting)
    if persisted.isEmpty then pure () else Async.unawaited refreshOpenIntentStatuses

def restorePersistedIntents (accountUuid : Option String) (replaceExisting : Bool) :
    SwapAsync Unit := do
  match accountUuid with
  | none =>
    if replaceExisting then
      Async.modify fun w => { w with
        intents := []
        selectedIntentId := none
        depositTxHashText := ""
        depositSubmitting := false
        pendingKeystoneSigningIntent := none
        loadedFor := none }
    else pure ()
  | some accountUuid =>
    let accountScopeGeneration := (← Async.get).accountScopeGeneration
    let persisted ← loadIntents .shared (some accountUuid)
    showRestored accountUuid accountScopeGeneration replaceExisting persisted

def SwapWorld.clearAccountScopedTransientState (w : SwapWorld) : SwapWorld :=
  { w with
    accountScopeGeneration := w.accountScopeGeneration + 1
    startSubmitting := false
    depositSubmitting := false
    depositTxHashText := ""
    selectedIntentId := none
    pendingKeystoneSigningIntent := none }

/-- The list in memory is saved for the account that was active. -/
def SwapWorld.leaveAccount (w : SwapWorld) (next : Option String) : SwapWorld :=
  { if w.activeAccountUuid.isSome then w.useIntents w.activeAccountUuid else w with
    activeAccountUuid := next }

/-- What the notifier does when the active account changes. -/
def switchAccount (next : Option String) : SwapAsync Unit := do
  let w ← Async.get
  if w.activeAccountUuid = next then pure ()
  else
    Async.set (w.leaveAccount next)
    Async.unawaited (persistIntentsForAccount .shared none w.activeAccountUuid w.intents)
    Async.modify (·.clearAccountScopedTransientState)
    Async.unawaited (restorePersistedIntents next true)

end CoppiceWallet.Swap
