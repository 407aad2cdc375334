import CoppiceWallet.Swap.Operations

/-! # Deposits of swaps -/

namespace CoppiceWallet.Swap

open CoppiceWallet.Lib

/-- The broadcast of a deposit as its checkpoint records it. -/
structure DepositBroadcast where
  txHash : String
  broadcastStatus : Option String
  broadcastMessage : Option String

def DepositBroadcast.notice (broadcast : DepositBroadcast) : Option String :=
  depositBroadcastNotice broadcast.broadcastStatus broadcast.broadcastMessage

def DepositBroadcast.checkpoint (broadcast : DepositBroadcast) (intent : SwapIntent)
    (statusError : Option String) (now : Nat) : SwapIntent :=
  swapIntentWithDepositCheckpoint intent broadcast.txHash statusError broadcast.notice
    broadcast.broadcastStatus (statusError.isNone && broadcast.notice.isNone)
    broadcast.notice.isNone now

def DepositBroadcast.snapshot (broadcast : DepositBroadcast) (intent : SwapIntent)
    (snapshot : SwapIntentSnapshot) (now : Nat) : SwapIntent :=
  swapIntentWithDepositSnapshot intent snapshot broadcast.txHash broadcast.notice now

def SwapDepositBroadcastResult.toBroadcast (result : SwapDepositBroadcastResult) :
    DepositBroadcast :=
  ⟨result.txHash,some result.status,result.message⟩

def switchEndpointAfterUncertainBroadcast (hold : Hold) (message : Option String) :
    SwapAsync Unit := do
  match ← call hold (.switchToFallback message) with
  | .ok () => pure ()
  | .error error => Async.throw error

def holdFor (hold : String → Hold) : Option String → Hold
  | none => .nothing
  | some accountUuid => hold accountUuid

def submitProviderDepositTransaction (accountUuid : Option String) (intentId txHash : String) :
    SwapAsync (Except String SwapIntentSnapshot) :=
  call (holdFor .shared accountUuid) (.submitDepositTransaction intentId txHash)

def submitDepositTransactionForStoredIntent (accountUuid : Option String) (intentId : String)
    (broadcast : DepositBroadcast) (submitProviderStatus : Bool) (statusError : Option String) :
    SwapAsync Unit := do
  match accountUuid with
  | none => pure ()
  | some accountUuid =>
    Async.modify (·.useStored accountUuid)
    let storedIntents ← loadIntents .exclusive (some accountUuid)
    match swapIntentById storedIntents intentId with
    | none => pure ()
    | some intent =>
      let checkpointed := broadcast.checkpoint intent statusError (← readClock)
      let updatedIntents := replaceSwapIntent storedIntents intentId checkpointed
      persistIntentsForAccount .exclusive (some intentId) (some accountUuid) updatedIntents
      if !submitProviderStatus then pure ()
      else
        match ← submitProviderDepositTransaction (some accountUuid) intentId broadcast.txHash with
        | .ok snapshot =>
          let updated := broadcast.snapshot checkpointed snapshot (← readClock)
          persistIntentsForAccount .shared none (some accountUuid)
            (replaceSwapIntent updatedIntents intentId updated)
        | .error message =>
          persistIntentsForAccount .shared none (some accountUuid)
            (replaceSwapIntent updatedIntents intentId
              { checkpointed with statusError := some message })

def recordDepositSnapshotForStoredIntent (accountUuid : Option String) (intentId : String)
    (broadcast : DepositBroadcast) (snapshot : SwapIntentSnapshot) : SwapAsync Unit := do
  let storedIntents ← loadIntents .shared accountUuid
  match swapIntentById storedIntents intentId with
  | none => pure ()
  | some intent =>
    let updated := broadcast.snapshot intent snapshot (← readClock)
    persistIntentsForAccount .shared none accountUuid
      (replaceSwapIntent storedIntents intentId updated)

/-- Put a changed intent into the list in memory and save the list. -/
def replaceAndPersist (hold : String → Hold) (checkpoint : Option String)
    (accountUuid : Option String) (intentId : String) (updated : SwapIntent)
    (depositSubmitting : Option Bool) : SwapAsync Unit := do
  let intents ← useIntents accountUuid
  Async.modify fun w => { w with
    intents := replaceSwapIntent intents intentId updated
    depositSubmitting := depositSubmitting.getD w.depositSubmitting }
  persistCurrentIntents hold checkpoint

def showDepositTxHash (intentId txHash : String) : SwapAsync Unit :=
  Async.modify fun w =>
    if w.selectedIntentId = some intentId then { w with depositTxHashText := txHash } else w

def endDepositSubmission : SwapAsync Unit :=
  Async.modify fun w => { w with depositSubmitting := false }

def submitDepositTransaction (selected : SwapIntent) (broadcast : DepositBroadcast)
    (submitProviderStatus : Bool) : SwapAsync Unit := do
  let accountUuid := selected.accountUuid
  if !(← Async.get).isAccountActive accountUuid then
    submitDepositTransactionForStoredIntent accountUuid selected.id broadcast submitProviderStatus
      none
  else
    let checkpointed := broadcast.checkpoint selected none (← readClock)
    showDepositTxHash selected.id broadcast.txHash
    replaceAndPersist .exclusive (some selected.id) accountUuid selected.id checkpointed (some true)
    if !submitProviderStatus then endDepositSubmission
    else
      match ← submitProviderDepositTransaction accountUuid selected.id broadcast.txHash with
      | .ok snapshot =>
        let updated := broadcast.snapshot checkpointed snapshot (← readClock)
        if !(← Async.get).isAccountActive accountUuid then
          recordDepositSnapshotForStoredIntent accountUuid checkpointed.id broadcast snapshot
        else
          showDepositTxHash selected.id broadcast.txHash
          replaceAndPersist .shared none accountUuid checkpointed.id updated (some false)
      | .error message =>
        if !(← Async.get).isAccountActive accountUuid then
          submitDepositTransactionForStoredIntent accountUuid selected.id broadcast false
            (some message)
        else endDepositSubmission

/-- Record the broadcast again when the checkpoint is all that the intent shows of it. -/
def showBroadcastNotice (selected : SwapIntent) (broadcast : DepositBroadcast) (notice : String) :
    SwapAsync Unit := do
  let intents ← useIntents selected.accountUuid
  match swapIntentById intents selected.id with
  | none => pure ()
  | some current =>
    if current.statusError.isSome || current.depositTxHash ≠ some broadcast.txHash then pure ()
    else
      let patched := swapIntentWithBroadcastNotice current notice broadcast.broadcastStatus
        (← readClock)
      Async.modify fun w => { w with intents := replaceSwapIntent intents selected.id patched }
      persistCurrentIntents .exclusive (some selected.id)

def submitDepositTransactionForIntent (intentId : String) (accountUuid : Option String)
    (broadcast : DepositBroadcast) : SwapAsync Unit := do
  match swapIntentById (← Async.get).intents intentId with
  | none =>
    let broadcast := { broadcast with txHash := trim broadcast.txHash }
    if broadcast.txHash = "" then pure ()
    else
      let submitProviderStatus := shouldSubmitProviderDepositStatus broadcast.broadcastStatus
      if !submitProviderStatus then
        switchEndpointAfterUncertainBroadcast .nothing broadcast.broadcastMessage
      submitDepositTransactionForStoredIntent accountUuid intentId broadcast submitProviderStatus none
  | some selected =>
    let broadcast := { broadcast with txHash := trim broadcast.txHash }
    if broadcast.txHash = "" then pure ()
    else
      Async.modify (·.useIntents selected.accountUuid)
      let submitProviderStatus := shouldSubmitProviderDepositStatus broadcast.broadcastStatus
      if !submitProviderStatus then
        switchEndpointAfterUncertainBroadcast (holdFor .shared selected.accountUuid)
          broadcast.broadcastMessage
      submitDepositTransaction selected broadcast submitProviderStatus
      match broadcast.notice with
      | none => pure ()
      | some notice => showBroadcastNotice selected broadcast notice

def submitSelectedDepositTransaction : SwapAsync Unit := do
  let w ← Async.get
  let txHash := trim w.depositTxHashText
  match w.selectedIntentOrNull with
  | none => pure ()
  | some selected =>
    if txHash = "" || w.depositSubmitting then pure ()
    else
      Async.modify (·.useIntents selected.accountUuid)
      submitDepositTransaction selected ⟨txHash,none,none⟩ true

/-- The list with the intent at its head. -/
def leadWith (intent : SwapIntent) (intents : List SwapIntent) : List SwapIntent :=
  intent :: intents.filter fun other => other.id ≠ intent.id

def SwapWorld.clearPendingKeystoneSigningIntent (w : SwapWorld) (intentId : String) : SwapWorld :=
  if w.pendingKeystoneSigningIntent.any fun pending => pending.id = intentId then
    { w with pendingKeystoneSigningIntent := none }
  else w

def recordKeystoneForStoredIntents (checkpointed : SwapIntent) (accountUuid : Option String)
    (broadcast : DepositBroadcast) (submitProviderStatus : Bool) : SwapAsync Unit := do
  match accountUuid with
  | none => pure ()
  | some accountUuid =>
    Async.modify (·.useStored accountUuid)
    let intents ← loadIntents .exclusive (some accountUuid)
    Async.modify (·.noteReplaced intents checkpointed)
    let storedIntents := leadWith checkpointed intents
    persistIntentsForAccount .exclusive (some checkpointed.id) (some accountUuid) storedIntents
    Async.modify (·.clearPendingKeystoneSigningIntent checkpointed.id)
    if !submitProviderStatus then pure ()
    else
      match ← submitProviderDepositTransaction (some accountUuid) checkpointed.id
          broadcast.txHash with
      | .ok snapshot =>
        let updated := broadcast.snapshot checkpointed snapshot (← readClock)
        persistIntentsForAccount .shared none (some accountUuid)
          (replaceSwapIntent storedIntents checkpointed.id updated)
      | .error message =>
        persistIntentsForAccount .shared none (some accountUuid)
          (replaceSwapIntent storedIntents checkpointed.id
            { checkpointed with statusError := some message })

def recordKeystoneForCurrentIntents (checkpointed : SwapIntent) (broadcast : DepositBroadcast)
    (submitProviderStatus : Bool) : SwapAsync Unit := do
  let intents ← useIntents checkpointed.accountUuid
  Async.modify fun w => { w.noteReplaced intents checkpointed with
    intents := leadWith checkpointed intents
    selectedIntentId := some checkpointed.id
    depositTxHashText := broadcast.txHash
    depositSubmitting := submitProviderStatus
    pendingKeystoneSigningIntent := none }
  persistCurrentIntents .exclusive (some checkpointed.id)
  if !submitProviderStatus then endDepositSubmission
  else
    match ← submitProviderDepositTransaction checkpointed.accountUuid checkpointed.id
        broadcast.txHash with
    | .ok snapshot =>
      let updated := broadcast.snapshot checkpointed snapshot (← readClock)
      Async.modify fun w => { w with depositTxHashText := broadcast.txHash }
      replaceAndPersist .shared none checkpointed.accountUuid checkpointed.id updated (some false)
    | .error _ => endDepositSubmission

/-- An intent that a start made. -/
structure StartedIntent where
  intent : SwapIntent
  addressed : intent.Addressed

def recordKeystoneDepositBroadcast (started : StartedIntent)
    (result : SwapDepositBroadcastResult) : SwapAsync Unit := do
  let intent := started.intent
  let broadcast := { result.toBroadcast with txHash := trim result.txHash }
  if broadcast.txHash = "" then pure ()
  else
    match swapIntentById (← Async.get).intents intent.id with
    | some existing =>
      Async.modify (·.clearPendingKeystoneSigningIntent intent.id)
      submitDepositTransactionForIntent existing.id
        (existing.accountUuid.orElse fun _ => intent.accountUuid) broadcast
    | none =>
      let submitProviderStatus := shouldSubmitProviderDepositStatus broadcast.broadcastStatus
      if !submitProviderStatus then
        switchEndpointAfterUncertainBroadcast .nothing broadcast.broadcastMessage
      let checkpointed := broadcast.checkpoint intent none (← readClock)
      if !(← Async.get).isAccountActive intent.accountUuid then
        recordKeystoneForStoredIntents checkpointed intent.accountUuid broadcast submitProviderStatus
      else recordKeystoneForCurrentIntents checkpointed broadcast submitProviderStatus

def sendAndSubmitZecDeposit (accountUuid intentId : String) : SwapAsync Unit := do
  Async.modify fun w => { w with depositSubmitting := true }
  match ← call .nothing .sendZecDeposit with
  | .error _ =>
    if (← Async.get).isAccountActive (some accountUuid) then endDepositSubmission
  | .ok result =>
    let broadcast := result.toBroadcast
    if !(← Async.get).isAccountActive (some accountUuid) then
      submitDepositTransactionForStoredIntent (some accountUuid) intentId broadcast
        result.isCertain none
    else
      match swapIntentById (← useIntents (some accountUuid)) intentId with
      | none =>
        Async.modify fun w => { w with depositTxHashText := result.txHash, depositSubmitting := false }
      | some intent =>
        let checkpointed := broadcast.checkpoint intent none (← readClock)
        Async.modify fun w => { w with depositTxHashText := result.txHash }
        replaceAndPersist .exclusive (some intentId) (some accountUuid) intentId checkpointed none
        if !result.isCertain then
          switchEndpointAfterUncertainBroadcast (.shared accountUuid) result.message
          let intents ← useIntents (some accountUuid)
          Async.modify fun w => { w with
            depositSubmitting := false
            intents := replaceSwapIntent intents intentId checkpointed }
        else
          match ← submitProviderDepositTransaction (some accountUuid) intentId result.txHash with
          | .ok snapshot =>
            let broadcast : DepositBroadcast := ⟨result.txHash,none,none⟩
            let updated := broadcast.snapshot checkpointed snapshot (← readClock)
            if !(← Async.get).isAccountActive (some accountUuid) then
              recordDepositSnapshotForStoredIntent (some accountUuid) intentId broadcast snapshot
            else
              Async.modify fun w => { w with depositTxHashText := result.txHash }
              replaceAndPersist .shared none (some accountUuid) intentId updated (some false)
          | .error message =>
            if !(← Async.get).isAccountActive (some accountUuid) then
              submitDepositTransactionForStoredIntent (some accountUuid) intentId
                ⟨result.txHash,none,none⟩ false (some message)
            else endDepositSubmission

def endStart : SwapAsync Unit := Async.modify fun w => { w with startSubmitting := false }

/-- The started intent is in the list in memory before it is saved. -/
def SwapWorld.started (w : SwapWorld) (intent : SwapIntent) : SwapWorld :=
  { w.noteStarted intent.id with
    intents := intent :: w.intents
    startSubmitting := false
    selectedIntentId := some intent.id
    depositTxHashText := ""
    pendingKeystoneSigningIntent := none }

def keepStarted (accountUuid : String) (quote : SwapQuote) (isHardware : Bool)
    (intent : SwapIntent) : SwapAsync Unit := do
  if isHardware && quote.direction = .zecToExternal then
    Async.modify fun w => { w with
      pendingKeystoneSigningIntent :=
        some { intent with nextAction := "Sign and send the ZEC deposit with Keystone." }
      startSubmitting := false
      depositTxHashText := ""
      selectedIntentId := none }
  else
    Async.modify (·.useIntents (some accountUuid))
    Async.modify (·.started intent)
    persistCurrentIntents .exclusive none
    if quote.direction = .zecToExternal then
      Async.unawaited (sendAndSubmitZecDeposit accountUuid intent.id)

/-- The caller has a quote that is not expired, reviewed for an account. -/
def startIntent (quote : SwapQuote) (reviewAccountUuid : Option String) (isHardware : Bool) :
    SwapAsync Unit := do
  let w ← Async.get
  if w.startSubmitting then pure ()
  else if reviewAccountUuid.isNone || w.activeAccountUuid ≠ reviewAccountUuid then endStart
  else
    match w.activeAccountUuid with
    | none => endStart
    | some accountUuid =>
      Async.modify fun w => { w with startSubmitting := true }
      let fee ←
        if quote.direction = .zecToExternal then call .nothing .estimateZecDepositFee
        else pure (.ok ())
      match fee with
      | .error _ => endStart
      | .ok () =>
        match ← call .nothing .startSwap with
        | .error _ => endStart
        | .ok snapshot =>
          keepStarted accountUuid quote isHardware
            (swapIntentFromSnapshot snapshot quote accountUuid (← readClock))

def markSelectedDepositClaimed : SwapAsync Unit := do
  match (← Async.get).selectedIntentOrNull with
  | none => pure ()
  | some selected =>
    if selected.depositClaimedAt.isSome || selected.status ≠ .awaitingExternalDeposit then pure ()
    else
      let updated := { selected with depositClaimedAt := some (← readClock) }
      let intents ← useIntents selected.accountUuid
      Async.modify fun w => { w with intents := replaceSwapIntent intents selected.id updated }
      persistCurrentIntents .exclusive none

inductive SwapInput
  | tick (milliseconds : Nat)
  | switchAccount (next : Option String)
  | refreshOpenActivities (accountUuid : String) (force : Bool)
  | refreshOpenIntentStatuses
  | refreshSelectedIntentStatus
  | selectIntent (intentId : String)
  | updateDepositTxHash (text : String)
  | startIntent (quote : SwapQuote) (reviewAccountUuid : Option String) (isHardware : Bool)
  | submitSelectedDepositTransaction
  | submitDepositTransactionForIntent (intentId : String) (accountUuid : Option String)
      (broadcast : DepositBroadcast)
  | recordKeystoneDepositBroadcast (started : StartedIntent) (result : SwapDepositBroadcastResult)
  | markSelectedDepositClaimed

def SwapInput.body : SwapInput → SwapAsync Unit
  | .tick milliseconds => Async.modify fun w => { w with clock := w.clock + milliseconds }
  | .switchAccount next => CoppiceWallet.Swap.switchAccount next
  | .refreshOpenActivities accountUuid force =>
    CoppiceWallet.Swap.refreshOpenActivities accountUuid force
  | .refreshOpenIntentStatuses => CoppiceWallet.Swap.refreshOpenIntentStatuses
  | .refreshSelectedIntentStatus => CoppiceWallet.Swap.refreshSelectedIntentStatus
  | .selectIntent intentId => Async.modify fun w =>
    match swapIntentById w.intents intentId with
    | none => w
    | some intent =>
      { w with selectedIntentId := some intentId, depositTxHashText := intent.depositTxHash.getD "" }
  | .updateDepositTxHash text => Async.modify fun w => { w with depositTxHashText := text }
  | .startIntent quote reviewAccountUuid isHardware =>
    CoppiceWallet.Swap.startIntent quote reviewAccountUuid isHardware
  | .submitSelectedDepositTransaction => CoppiceWallet.Swap.submitSelectedDepositTransaction
  | .submitDepositTransactionForIntent intentId accountUuid broadcast =>
    CoppiceWallet.Swap.submitDepositTransactionForIntent intentId accountUuid broadcast
  | .recordKeystoneDepositBroadcast started result =>
    CoppiceWallet.Swap.recordKeystoneDepositBroadcast started result
  | .markSelectedDepositClaimed => CoppiceWallet.Swap.markSelectedDepositClaimed

inductive SwapAnswer
  | storage
  | snapshot (result : Except String SwapIntentSnapshot)
  | broadcast (result : Except String SwapDepositBroadcastResult)
  | completion (result : Except String Unit)

/-- Serve a request, when the answer is of its kind. -/
def serveSwapRequest : (request : SwapRequest) → SwapAnswer → SwapWorld →
    Option (request.Reply × SwapWorld)
  | ⟨_,.loadRecords accountUuid⟩,.storage,w => some (w.stored accountUuid,w)
  | ⟨_,.saveRecords accountUuid records _⟩,.storage,w =>
    some ((),{ w with
      stored := fun other => if other = accountUuid then records else w.stored other })
  | ⟨_,.getStatus _⟩,.snapshot result,w => some (result,w)
  | ⟨_,.startSwap⟩,.snapshot result,w => some (result,w)
  | ⟨_,.submitDepositTransaction _ _⟩,.snapshot result,w => some (result,w)
  | ⟨_,.estimateZecDepositFee⟩,.completion result,w => some (result,w)
  | ⟨_,.sendZecDeposit⟩,.broadcast result,w => some (result,w)
  | ⟨_,.switchToFallback _⟩,.completion result,w => some (result,w)
  | _,_,_ => none

def swapFunctions : Functions SwapWorld SwapRequest SwapRequest.Reply SwapInput SwapAnswer where
  body input := input.body.start
  serve := serveSwapRequest

abbrev SwapLoop : Type := EventLoop SwapWorld SwapRequest SwapRequest.Reply

/-- The notifier is built, and restores the intents of the active account. -/
def SwapLoop.built (stored : String → List SwapIntent) (activeAccountUuid : Option String) :
    SwapLoop :=
  EventLoop.running
    ⟨{ stored := stored
       clock := 0
       activeAccountUuid := activeAccountUuid
       accountScopeGeneration := 0
       statusRefreshInFlight := false
       intents := []
       selectedIntentId := none
       startSubmitting := false
       depositSubmitting := false
       depositTxHashText := ""
       pendingKeystoneSigningIntent := none
       lastRefreshAt := fun _ => none
       refreshing := fun _ => false
       loadedFor := none
       misuses := [] },[]⟩
    (restorePersistedIntents activeAccountUuid false).start

abbrev swapStep : LoopInput SwapInput SwapAnswer → SwapLoop → Except Unit SwapLoop :=
  EventLoop.step swapFunctions

end CoppiceWallet.Swap
