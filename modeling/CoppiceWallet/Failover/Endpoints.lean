import CoppiceWallet.Lib.Run

/-!
# Failover between endpoints

Calls of the server go to the endpoint that the user configured, or to a fallback after a failure.
Each call goes on where an awaited answer arrives, and the user may configure another endpoint at
any moment.

Presets, the parser of URLs and the kind of the build are parameters. Texts of failures and the
events that are shown are left out.
-/

namespace CoppiceWallet.Failover

open CoppiceWallet.Lib

structure RpcEndpointConfig where
  networkName : String
  lightwalletdUrl : String
  presetId : Option String
  deriving DecidableEq

structure RpcEndpointPreset where
  id : String
  url : String

structure EndpointRules where
  rpcEndpointPresetsForNetwork : String → List RpcEndpointPreset
  normalizeRpcEndpointUrl : String → String
  trim : String → String
  isRegtestBuild : Bool

namespace EndpointRules

variable (rules : EndpointRules)

def normalizedLightwalletdUrl (config : RpcEndpointConfig) : String :=
  rules.normalizeRpcEndpointUrl config.lightwalletdUrl

def explicitRpcEndpointPresetFor (config : RpcEndpointConfig) : Option RpcEndpointPreset := do
  let presetId := rules.trim (← config.presetId)
  if presetId = "" ∨ presetId = "custom" then none
  else (rules.rpcEndpointPresetsForNetwork config.networkName).find? fun preset =>
    decide (preset.id = presetId)

def effectivePresetId (config : RpcEndpointConfig) : String :=
  ((rules.explicitRpcEndpointPresetFor config).map (·.id)).getD "custom"

/-- The other presets of the network, each URL once. -/
def candidatesFrom (primary : RpcEndpointConfig) (primaryPresetId : String) :
    List RpcEndpointPreset → List String → List RpcEndpointConfig
  | [], _ => []
  | preset :: presets, seenUrls =>
    let normalized := rules.normalizeRpcEndpointUrl preset.url
    if preset.id = primaryPresetId ∨ normalized = rules.normalizedLightwalletdUrl primary ∨
        normalized ∈ seenUrls then candidatesFrom primary primaryPresetId presets seenUrls
    else ⟨primary.networkName,preset.url,some preset.id⟩ ::
      candidatesFrom primary primaryPresetId presets (normalized :: seenUrls)

def fallbackRpcEndpointCandidatesFor (primary : RpcEndpointConfig) : List RpcEndpointConfig :=
  match rules.explicitRpcEndpointPresetFor primary with
  | none => []
  | some preset => rules.candidatesFrom primary preset.id
      (rules.rpcEndpointPresetsForNetwork primary.networkName) []

def sameEndpointIdentity (a b : RpcEndpointConfig) : Bool :=
  decide (a.networkName = b.networkName ∧ rules.effectivePresetId a = rules.effectivePresetId b ∧
    rules.normalizedLightwalletdUrl a = rules.normalizedLightwalletdUrl b)

def rpcChainNameMatchesNetwork (chainName networkName : String) : Bool :=
  decide (chainName = networkName) ||
    (decide (networkName = "regtest") && rules.isRegtestBuild && decide (chainName = "test"))

/-- The height that a health check finds. A call that fails has no answer. -/
def checkRpcEndpointHealth (endpoint : RpcEndpointConfig) (chainName : Option String)
    (height : Option Nat) : Option Nat := do
  if rules.rpcChainNameMatchesNetwork (← chainName) endpoint.networkName then height else none

end EndpointRules

structure RpcEndpointFailoverSettings where
  primaryProbeInterval : Int
  primaryFailureThreshold : Nat
  slowHeightWindow : Int
  minHeightIncreaseInSlowWindow : Nat
  slowFallbackLeadBlocks : Nat
  primaryReturnLagToleranceBlocks : Nat

structure RpcEndpointFailoverState where
  primary : RpcEndpointConfig
  current : RpcEndpointConfig
  fallbackCandidates : List RpcEndpointConfig
  primaryFailureCount : Nat
  lastPrimaryProbeAt : Option Int
  heightWindowStartedAt : Option Int
  heightWindowStartHeight : Option Nat
  lastObservedHeight : Option Nat
  lastObservedAt : Option Int

structure FailoverContext where
  generation : Nat
  primary : RpcEndpointConfig
  current : RpcEndpointConfig
  fallbackCandidates : List RpcEndpointConfig

structure Notifier where
  state : RpcEndpointFailoverState
  configGeneration : Nat

inductive Caller
  | getLatestBlockHeight
  | runWithEndpointFallback (allowFallback : Bool)
  | switchToFallbackFor
  | maybeProbePrimary

inductive Outcome
  | returned (value : Nat)
  | answered (result : Bool)
  | threw
  deriving DecidableEq

/-- Where a call awaits. The first of the candidates is the one whose health is checked. -/
inductive Point
  | probingPrimary (context : FailoverContext) (now : Int)
  | probingCurrent (context : FailoverContext) (now : Int) (primaryHeight : Nat)
      (currentHeight : Option Nat)
  | probed (result : Bool)
  | acting (endpoint : RpcEndpointConfig)
  | searching (context : FailoverContext) (endpoint : RpcEndpointConfig) (height : Nat) (now : Int)
      (candidates : List RpcEndpointConfig)
  | searched (context : FailoverContext) (endpoint : RpcEndpointConfig) (height : Nat) (now : Int)
      (fallback : Option (RpcEndpointConfig × Nat))
  | switching (context : FailoverContext) (attempted : RpcEndpointConfig) (nextFailureCount : Nat)
      (candidates : List RpcEndpointConfig)
  | switched (result : Bool)
  | retrying (endpoint : RpcEndpointConfig)
  | finished (outcome : Outcome)

/-- A call, the number of actions it has run and the health checks that matched the network. -/
structure Call where
  caller : Caller
  point : Point
  actions : Nat
  matched : List (RpcEndpointConfig × String)

inductive Answer
  | health (chainName : Option String) (height : Option Nat)
  | succeeded (value : Nat)
  | failed (shouldFallback : Bool)
  | resumed

variable (rules : EndpointRules) (settings : RpcEndpointFailoverSettings)

namespace Notifier

def build (primary : RpcEndpointConfig) (generation : Nat) : Notifier where
  state := ⟨primary,primary,rules.fallbackRpcEndpointCandidatesFor primary,0,none,none,none,none,
    none⟩
  configGeneration := generation

variable (n : Notifier)

def captureContext : FailoverContext :=
  ⟨n.configGeneration,n.state.primary,n.state.current,n.state.fallbackCandidates⟩

def isCurrentEndpoint (endpoint : RpcEndpointConfig) : Bool :=
  rules.sameEndpointIdentity endpoint n.state.current

def isCurrentContext (context : FailoverContext) : Bool :=
  decide (n.configGeneration = context.generation) &&
    rules.sameEndpointIdentity n.state.primary context.primary &&
    rules.sameEndpointIdentity n.state.current context.current

def isUsingFallback : Bool :=
  decide (rules.normalizedLightwalletdUrl n.state.current ≠
    rules.normalizedLightwalletdUrl n.state.primary)

def resetHeightWindow (endpoint : RpcEndpointConfig) (height : Nat) (observedAt : Int) :
    Notifier :=
  if n.isCurrentEndpoint rules endpoint then
    { n with state := { n.state with
      heightWindowStartedAt := some observedAt
      heightWindowStartHeight := some height
      lastObservedHeight := some height
      lastObservedAt := some observedAt } }
  else n

def recordEndpointSuccess (endpoint : RpcEndpointConfig) : Notifier :=
  if rules.normalizedLightwalletdUrl endpoint = rules.normalizedLightwalletdUrl n.state.primary ∧
      n.state.primaryFailureCount ≠ 0 then
    { n with state := { n.state with primaryFailureCount := 0 } }
  else n

/-- Another endpoint becomes the current one, and its height starts a window. -/
def switchTo (endpoint : RpcEndpointConfig) (primaryFailureCount : Nat)
    (lastPrimaryProbeAt : Option Int) (height : Nat) (now : Int) : Notifier :=
  { n with state := { n.state with
    current := endpoint
    primaryFailureCount := primaryFailureCount
    lastPrimaryProbeAt := lastPrimaryProbeAt
    heightWindowStartedAt := some now
    heightWindowStartHeight := some height
    lastObservedHeight := some height
    lastObservedAt := some now } }

def setFailureCount (count : Nat) : Notifier :=
  { n with state := { n.state with primaryFailureCount := count } }

def observe (height : Nat) (now : Int) : Notifier :=
  { n with state := { n.state with
    lastObservedHeight := some height
    lastObservedAt := some now } }

def maybeProbePrimary (force : Bool) (now : Int) : Notifier × Point :=
  if n.isUsingFallback rules then
    if !force && (n.state.lastPrimaryProbeAt.map fun lastProbe =>
        decide (now - lastProbe < settings.primaryProbeInterval)).getD false then (n,.probed false)
    else ({ n with state := { n.state with lastPrimaryProbeAt := some now } },
      .probingPrimary n.captureContext now)
  else (n,.probed false)

def switchToFallbackFor (attempted : RpcEndpointConfig) (shouldFallback : Bool) :
    Notifier × Point :=
  let context := n.captureContext
  if !rules.sameEndpointIdentity attempted context.current || !shouldFallback then
    (n,.switched false)
  else
    let failedPrimary := rules.sameEndpointIdentity attempted context.primary
    let nextFailureCount :=
      if failedPrimary then n.state.primaryFailureCount + 1 else n.state.primaryFailureCount
    if failedPrimary && decide (nextFailureCount < settings.primaryFailureThreshold) then
      (n.setFailureCount nextFailureCount,.switched false)
    else
      match context.fallbackCandidates.filter fun candidate =>
          decide (rules.normalizedLightwalletdUrl candidate ≠
            rules.normalizedLightwalletdUrl attempted) with
      | [] => (n.setFailureCount nextFailureCount,.switched false)
      | candidates => (n,.switching context attempted nextFailureCount candidates)

def maybeSwitchFromSlowHeight (endpoint : RpcEndpointConfig) (height : Nat) (now : Int) :
    Notifier × Point :=
  if n.isCurrentEndpoint rules endpoint then
    let context := n.captureContext
    match n.state.heightWindowStartedAt, n.state.heightWindowStartHeight with
    | some windowStartedAt, some windowStartHeight =>
      if height < windowStartHeight then
        (n.resetHeightWindow rules endpoint height now,.finished (.returned height))
      else
        let n := n.observe height now
        if now - windowStartedAt < settings.slowHeightWindow then (n,.finished (.returned height))
        else if settings.minHeightIncreaseInSlowWindow ≤ height - windowStartHeight then
          (n.resetHeightWindow rules endpoint height now,.finished (.returned height))
        else
          match context.fallbackCandidates.filter fun candidate =>
              decide (rules.normalizedLightwalletdUrl candidate ≠
                rules.normalizedLightwalletdUrl endpoint) with
          | [] => (n,.searched context endpoint height now none)
          | candidates => (n,.searching context endpoint height now candidates)
    | _, _ => (n.resetHeightWindow rules endpoint height now,.finished (.returned height))
  else (n,.finished (.returned height))

def probePrimaryAnswered (context : FailoverContext) (now : Int) (health : Option Nat) :
    Notifier × Point :=
  match health with
  | none => (n,.probed false)
  | some height =>
    if n.isCurrentContext rules context then
      (n,.probingCurrent context now height n.state.lastObservedHeight)
    else (n,.probed false)

def maxHeight : Option Nat → Nat → Nat
  | none, b => b
  | some a, b => max a b

/-- The primary is the current endpoint again where it does not lag behind. -/
def returnToPrimary (context : FailoverContext) (now : Int) (primaryHeight : Nat)
    (currentHeight : Option Nat) : Notifier × Point :=
  if (currentHeight.map fun height => decide
      (primaryHeight + settings.primaryReturnLagToleranceBlocks < height)).getD false then
    (n,.probed false)
  else (n.switchTo context.primary 0 (some now) primaryHeight now,.probed true)

def probeCurrentAnswered (context : FailoverContext) (now : Int) (primaryHeight : Nat)
    (currentHeight health : Option Nat) : Notifier × Point :=
  if n.isCurrentContext rules context then
    match health with
    | none => n.returnToPrimary settings context now primaryHeight currentHeight
    | some height =>
      let observed := maxHeight currentHeight height
      (n.observe observed now).returnToPrimary settings context now primaryHeight (some observed)
  else (n,.probed false)

def switchAnswered (context : FailoverContext) (attempted : RpcEndpointConfig)
    (nextFailureCount : Nat) (candidate : RpcEndpointConfig) (candidates : List RpcEndpointConfig)
    (health : Option Nat) (now : Int) : Notifier × Point :=
  match health, candidates with
  | some height, _ =>
    if n.isCurrentContext rules context then
      let lastPrimaryProbeAt :=
        if rules.sameEndpointIdentity attempted context.primary then some now
        else n.state.lastPrimaryProbeAt
      (n.switchTo candidate nextFailureCount lastPrimaryProbeAt height now,.switched true)
    else (n,.switched false)
  | none, next :: candidates =>
    (n,.switching context attempted nextFailureCount (next :: candidates))
  | none, [] =>
    if n.isCurrentContext rules context then (n.setFailureCount nextFailureCount,.switched false)
    else (n,.switched false)

def searchAnswered (context : FailoverContext) (endpoint : RpcEndpointConfig) (height : Nat)
    (now : Int) (candidate : RpcEndpointConfig) (candidates : List RpcEndpointConfig)
    (health : Option Nat) : Point :=
  match health.filter fun candidateHeight =>
      decide (height + settings.slowFallbackLeadBlocks ≤ candidateHeight), candidates with
  | some candidateHeight, _ =>
    .searched context endpoint height now (some (candidate,candidateHeight))
  | none, next :: candidates => .searching context endpoint height now (next :: candidates)
  | none, [] => .searched context endpoint height now none

def searchEnded (context : FailoverContext) (endpoint : RpcEndpointConfig) (height : Nat)
    (now : Int) (fallback : Option (RpcEndpointConfig × Nat)) : Notifier × Outcome :=
  if n.isCurrentContext rules context then
    match fallback with
    | none => (n.resetHeightWindow rules endpoint height now,.returned height)
    | some (candidate,candidateHeight) =>
      let lastPrimaryProbeAt :=
        if rules.sameEndpointIdentity endpoint context.primary then some now
        else n.state.lastPrimaryProbeAt
      (n.switchTo candidate n.state.primaryFailureCount lastPrimaryProbeAt candidateHeight now,
        .returned candidateHeight)
  else (n,.returned height)

/-- An action has an answer. -/
def actionSucceeded (caller : Caller) (endpoint : RpcEndpointConfig) (value : Nat) (now : Int) :
    Notifier × Point :=
  let n := n.recordEndpointSuccess rules endpoint
  match caller with
  | .getLatestBlockHeight => n.maybeSwitchFromSlowHeight rules settings endpoint value now
  | _ => (n,.finished (.returned value))

def actionFailed (caller : Caller) (endpoint : RpcEndpointConfig) (shouldFallback : Bool) :
    Notifier × Point :=
  match caller with
  | .runWithEndpointFallback false => (n,.finished .threw)
  | _ => n.switchToFallbackFor rules settings endpoint shouldFallback

def retrySucceeded (caller : Caller) (endpoint : RpcEndpointConfig) (value : Nat) (now : Int) :
    Notifier × Point :=
  let n := n.recordEndpointSuccess rules endpoint
  match caller with
  | .getLatestBlockHeight => (n.resetHeightWindow rules endpoint value now,.finished (.returned value))
  | _ => (n,.finished (.returned value))

end Notifier

namespace Call

variable (call : Call)

def moveTo (x : Notifier × Point) : Notifier × Call := (x.1,{ call with point := x.2 })

/-- An action is run on the endpoint that is the current one now. -/
def act (n : Notifier) (point : RpcEndpointConfig → Point) : Notifier × Call :=
  (n,{ call with
    point := point n.state.current
    actions := call.actions + 1 })

/-- The health checks that matched are kept. -/
def checked (endpoint : RpcEndpointConfig) (chainName : Option String) : Call :=
  match chainName with
  | none => call
  | some chainName =>
    if rules.rpcChainNameMatchesNetwork chainName endpoint.networkName then
      { call with matched := (endpoint,chainName) :: call.matched }
    else call

def goOn (n : Notifier) (answer : Answer) (now : Int) : Option (Notifier × Call) :=
  match call.point, answer with
  | .probingPrimary context started, .health chainName height =>
    some ((call.checked rules context.primary chainName).moveTo (n.probePrimaryAnswered rules context
      started (rules.checkRpcEndpointHealth context.primary chainName height)))
  | .probingCurrent context started primaryHeight currentHeight, .health chainName height =>
    some ((call.checked rules context.current chainName).moveTo (n.probeCurrentAnswered rules settings
      context started primaryHeight currentHeight
      (rules.checkRpcEndpointHealth context.current chainName height)))
  | .probed result, .resumed =>
    match call.caller with
    | .maybeProbePrimary => some (call.moveTo (n,.finished (.answered result)))
    | _ => some (call.act n .acting)
  | .acting endpoint, .succeeded value =>
    some (call.moveTo (n.actionSucceeded rules settings call.caller endpoint value now))
  | .acting endpoint, .failed shouldFallback =>
    some (call.moveTo (n.actionFailed rules settings call.caller endpoint shouldFallback))
  | .searching context endpoint height started (candidate :: candidates), .health chainName reply =>
    some ((call.checked rules candidate chainName).moveTo (n,Notifier.searchAnswered settings context
      endpoint height started candidate candidates
      (rules.checkRpcEndpointHealth candidate chainName reply)))
  | .searched context endpoint height started fallback, .resumed =>
    let (n,outcome) := n.searchEnded rules context endpoint height started fallback
    some (call.moveTo (n,.finished outcome))
  | .switching context attempted nextFailureCount (candidate :: candidates),
      .health chainName height =>
    some ((call.checked rules candidate chainName).moveTo (n.switchAnswered rules context attempted
      nextFailureCount candidate candidates
      (rules.checkRpcEndpointHealth candidate chainName height) now))
  | .switched result, .resumed =>
    match call.caller, result with
    | .switchToFallbackFor, _ => some (call.moveTo (n,.finished (.answered result)))
    | _, true => some (call.act n .retrying)
    | _, false => some (call.moveTo (n,.finished .threw))
  | .retrying endpoint, .succeeded value =>
    some (call.moveTo (n.retrySucceeded rules call.caller endpoint value now))
  | .retrying _, .failed _ => some (call.moveTo (n,.finished .threw))
  | _, _ => none

end Call

structure FailoverSystem where
  notifier : Notifier
  calls : List Call

inductive FailoverMove
  | getLatestBlockHeight (now : Int)
  | runWithEndpointFallback (allowFallback : Bool) (now : Int)
  | maybeProbePrimary (force : Bool) (now : Int)
  | switchToFallbackFor (endpoint : Option RpcEndpointConfig) (shouldFallback : Bool)
  | goOn (i : Nat) (answer : Answer) (now : Int)
  | changeEndpoint (primary : RpcEndpointConfig)

def FailoverSystem.start (s : FailoverSystem) (caller : Caller) (x : Notifier × Point) :
    FailoverSystem :=
  ⟨x.1,s.calls ++ [⟨caller,x.2,0,[]⟩]⟩

def failoverStep (move : FailoverMove) (s : FailoverSystem) : Except Unit FailoverSystem :=
  match move with
  | .getLatestBlockHeight now => .ok (s.start .getLatestBlockHeight
      (s.notifier.maybeProbePrimary rules settings false now))
  | .runWithEndpointFallback allowFallback now => .ok (s.start
      (.runWithEndpointFallback allowFallback) (s.notifier.maybeProbePrimary rules settings false now))
  | .maybeProbePrimary force now => .ok (s.start .maybeProbePrimary
      (s.notifier.maybeProbePrimary rules settings force now))
  | .switchToFallbackFor endpoint shouldFallback => .ok (s.start .switchToFallbackFor
      (s.notifier.switchToFallbackFor rules settings (endpoint.getD s.notifier.state.current)
        shouldFallback))
  | .goOn i answer now =>
    match s.calls[i]? with
    | none => .error ()
    | some call =>
      match call.goOn rules settings s.notifier answer now with
      | none => .error ()
      | some (notifier,call) => .ok ⟨notifier,s.calls.set i call⟩
  | .changeEndpoint primary =>
    .ok { s with notifier := .build rules primary (s.notifier.configGeneration + 1) }

def FailoverSystem.build (primary : RpcEndpointConfig) : FailoverSystem :=
  ⟨.build rules primary 1,[]⟩

end CoppiceWallet.Failover
