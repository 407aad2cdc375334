import CoppiceWallet.Failover.Calls

/-! # Runs of the failover -/

namespace CoppiceWallet.Failover

open CoppiceWallet.Lib

variable {rules : EndpointRules} {settings : RpcEndpointFailoverSettings} {n n' : Notifier}
  {context : FailoverContext} {endpoint : RpcEndpointConfig} {height : Nat} {now : Int}
  {x : Notifier × Point} {call : Call}

def Point.context? : Point → Option FailoverContext
  | probingPrimary context _ | probingCurrent context _ _ _ | searching context _ _ _ _
  | searched context _ _ _ _ | switching context _ _ _ => some context
  | _ => none

/-- The endpoint of an action. -/
def Point.endpoint? : Point → Option RpcEndpointConfig
  | acting endpoint | retrying endpoint => some endpoint
  | _ => none

/-- The context was captured in this generation, or the action was on the current endpoint or on
the URL of the primary. -/
def Fresh (rules : EndpointRules) (n : Notifier) (point : Point) : Prop :=
  (∃ context, point.context? = some context ∧ context.generation = n.configGeneration) ∨
    ∃ endpoint, point.endpoint? = some endpoint ∧
      (rules.sameEndpointIdentity endpoint n.state.current = true ∨
        rules.normalizedLightwalletdUrl endpoint = rules.normalizedLightwalletdUrl n.state.primary)

theorem recordEndpointSuccess_of_ne (h : rules.normalizedLightwalletdUrl endpoint ≠
    rules.normalizedLightwalletdUrl n.state.primary) :
    n.recordEndpointSuccess rules endpoint = n := by
  rw [Notifier.recordEndpointSuccess,if_neg]
  intro hboth
  exact h hboth.1

section

variable (h : ¬ rules.sameEndpointIdentity endpoint n.state.current = true)
include h

theorem resetHeightWindow_of_not_current :
    n.resetHeightWindow rules endpoint height now = n := by
  rw [Notifier.resetHeightWindow,Notifier.isCurrentEndpoint,if_neg h]

theorem maybeSwitchFromSlowHeight_of_not_current :
    n.maybeSwitchFromSlowHeight rules settings endpoint height now =
      (n,.finished (.returned height)) := by
  rw [Notifier.maybeSwitchFromSlowHeight,Notifier.isCurrentEndpoint,if_neg h]

theorem switchToFallbackFor_of_not_current (shouldFallback : Bool) :
    n.switchToFallbackFor rules settings endpoint shouldFallback = (n,.switched false) := by
  have hcurrent : n.captureContext.current = n.state.current := rfl
  rw [Bool.not_eq_true] at h
  rw [Notifier.switchToFallbackFor]
  dsimp only
  rw [hcurrent,h]
  rfl

/-- The failure of an action on another endpoint changes nothing, and no endpoint is looked for. -/
theorem actionFailed_of_not_current (caller : Caller) (shouldFallback : Bool) :
    (n.actionFailed rules settings caller endpoint shouldFallback).1 = n ∧
      ((n.actionFailed rules settings caller endpoint shouldFallback).2 = .finished .threw ∨
        (n.actionFailed rules settings caller endpoint shouldFallback).2 = .switched false) := by
  rw [Notifier.actionFailed.eq_def]
  split
  · exact ⟨rfl,.inl rfl⟩
  · rw [switchToFallbackFor_of_not_current h]
    exact ⟨rfl,.inr rfl⟩

variable (hurl : rules.normalizedLightwalletdUrl endpoint ≠
  rules.normalizedLightwalletdUrl n.state.primary)
include hurl

theorem actionSucceeded_of_ne (caller : Caller) (value : Nat) :
    (n.actionSucceeded rules settings caller endpoint value now).1 = n := by
  rw [Notifier.actionSucceeded.eq_def,recordEndpointSuccess_of_ne hurl]
  dsimp only
  split
  · rw [maybeSwitchFromSlowHeight_of_not_current h]
  · rfl

theorem retrySucceeded_of_ne (caller : Caller) (value : Nat) :
    (n.retrySucceeded rules caller endpoint value now).1 = n := by
  rw [Notifier.retrySucceeded.eq_def,recordEndpointSuccess_of_ne hurl]
  dsimp only
  split
  · exact resetHeightWindow_of_not_current h
  · rfl

end

theorem probePrimaryAnswered_fst {health : Option Nat} :
    (n.probePrimaryAnswered rules context now health).1 = n := by
  rw [Notifier.probePrimaryAnswered.eq_def]
  split
  · rfl
  · split
    · rfl
    · rfl

theorem probeCurrentAnswered_stale {primaryHeight : Nat} {currentHeight health : Option Nat}
    (h : ¬ n.isCurrentContext rules context = true) :
    (n.probeCurrentAnswered rules settings context now primaryHeight currentHeight health).1 =
      n := by
  rw [Notifier.probeCurrentAnswered.eq_def,if_neg h]

theorem switchAnswered_stale {attempted candidate : RpcEndpointConfig} {nextFailureCount : Nat}
    {candidates : List RpcEndpointConfig} {health : Option Nat}
    (h : ¬ n.isCurrentContext rules context = true) :
    (n.switchAnswered rules context attempted nextFailureCount candidate candidates health now).1 =
      n := by
  rw [Notifier.switchAnswered.eq_def]
  split
  · rw [if_neg h]
  · rfl
  · rw [if_neg h]

theorem searchEnded_stale {fallback : Option (RpcEndpointConfig × Nat)}
    (h : ¬ n.isCurrentContext rules context = true) :
    (n.searchEnded rules context endpoint height now fallback).1 = n := by
  rw [Notifier.searchEnded.eq_def,if_neg h]

/-- A call that changes the state goes on from a context of this generation, or from an action on
an endpoint of this configuration. -/
theorem fresh_of_change {answer : Answer} {y : Notifier × Call}
    (hgoOn : call.goOn rules settings n answer now = some y) (hchange : y.1 ≠ n) :
    Fresh rules n call.point := by
  have hcontext : ∀ context, call.point.context? = some context →
      (¬ n.isCurrentContext rules context = true → y.1 = n) → Fresh rules n call.point := by
    intro context hpoint hstale
    by_cases hcurrent : n.isCurrentContext rules context = true
    · exact .inl ⟨context,hpoint,isCurrentContext_generation hcurrent⟩
    · exact absurd (hstale hcurrent) hchange
  have hendpoint : ∀ endpoint, call.point.endpoint? = some endpoint →
      (¬ rules.sameEndpointIdentity endpoint n.state.current = true →
        rules.normalizedLightwalletdUrl endpoint ≠
          rules.normalizedLightwalletdUrl n.state.primary → y.1 = n) →
      Fresh rules n call.point := by
    intro endpoint hpoint hother
    by_cases hcurrent : rules.sameEndpointIdentity endpoint n.state.current = true
    · exact .inr ⟨endpoint,hpoint,.inl hcurrent⟩
    · by_cases hurl : rules.normalizedLightwalletdUrl endpoint =
        rules.normalizedLightwalletdUrl n.state.primary
      · exact .inr ⟨endpoint,hpoint,.inr hurl⟩
      · exact absurd (hother hcurrent hurl) hchange
  rw [Call.goOn.eq_def] at hgoOn
  split at hgoOn
  · cases hgoOn
    exact absurd probePrimaryAnswered_fst hchange
  · rename_i context started primaryHeight currentHeight chainName height hpoint
    cases hgoOn
    exact hcontext context (by rw [hpoint]; rfl) probeCurrentAnswered_stale
  · split at hgoOn
    · cases hgoOn
      exact absurd rfl hchange
    · cases hgoOn
      exact absurd rfl hchange
  · rename_i endpoint value hpoint
    cases hgoOn
    exact hendpoint endpoint (by rw [hpoint]; rfl) fun hcurrent hurl =>
      actionSucceeded_of_ne hcurrent hurl _ _
  · rename_i endpoint shouldFallback hpoint
    cases hgoOn
    exact hendpoint endpoint (by rw [hpoint]; rfl) fun hcurrent _ =>
      (actionFailed_of_not_current hcurrent _ _).1
  · cases hgoOn
    exact absurd rfl hchange
  · rename_i context endpoint height started fallback hpoint
    cases hgoOn
    exact hcontext context (by rw [hpoint]; rfl) searchEnded_stale
  · rename_i context attempted nextFailureCount candidate candidates chainName height hpoint
    cases hgoOn
    exact hcontext context (by rw [hpoint]; rfl) switchAnswered_stale
  · split at hgoOn
    · cases hgoOn
      exact absurd rfl hchange
    · cases hgoOn
      exact absurd rfl hchange
    · cases hgoOn
      exact absurd rfl hchange
  · rename_i endpoint value hpoint
    cases hgoOn
    exact hendpoint endpoint (by rw [hpoint]; rfl) fun hcurrent hurl =>
      retrySucceeded_of_ne hcurrent hurl _ _
  · cases hgoOn
    exact absurd rfl hchange
  · cases hgoOn

structure SystemInvariant (rules : EndpointRules) (s : FailoverSystem) : Prop where
  notifier : NotifierInvariant rules s.notifier
  calls : ∀ call ∈ s.calls, CallInvariant rules s.notifier call

variable {s s' : FailoverSystem} {move : FailoverMove}

theorem notifierInvariant_build (primary : RpcEndpointConfig) (generation : Nat) :
    NotifierInvariant rules (.build rules primary generation) := ⟨rfl,.inl rfl⟩

theorem NotifierInvariant.config (h : NotifierInvariant rules n) (hsame : SameConfig n n')
    (hcurrent : n'.state.current = n.state.current ∨ n'.state.current = n.state.primary ∨
      n'.state.current ∈ n.state.fallbackCandidates) : NotifierInvariant rules n' := by
  constructor
  · rw [hsame.candidates,hsame.primary]
    exact h.candidates
  · rw [hsame.candidates,hsame.primary]
    rcases hcurrent with hsame | hswitched
    · rw [hsame]
      exact h.current
    · exact hswitched

theorem systemInvariant_start {caller : Caller} {actions : Nat} (h : SystemInvariant rules s)
    (hx : Leads s.notifier (fun _ => False) actions x) :
    SystemInvariant rules (s.start caller x) := by
  refine ⟨h.notifier.config hx.config (hx.current.imp id And.left),?_⟩
  intro call hcall
  rcases List.mem_append.mp hcall with hcall | hcall
  · exact (h.calls call hcall).congr fun context hcaptured => hcaptured.congr hx.config
  · rw [List.mem_singleton.mp hcall]
    refine ⟨?_,Nat.zero_le _,?_⟩
    · exact hx.known.congr (fun _ hcaptured => hcaptured) fun _ hfalse => hfalse.elim
    · intro checked hchecked
      cases hchecked

theorem failoverStep_goOn {i : Nat} {answer : Answer}
    (h : failoverStep rules settings (.goOn i answer now) s = .ok s') :
    ∃ call y, s.calls[i]? = some call ∧ call.goOn rules settings s.notifier answer now = some y ∧
      s' = ⟨y.1,s.calls.set i y.2⟩ := by
  rw [failoverStep] at h
  split at h
  · cases h
  · rename_i call hcall
    split at h
    · cases h
    · rename_i notifier next hgoOn
      cases h
      exact ⟨call,(notifier,next),hcall,hgoOn,rfl⟩

theorem captured_build {primary : RpcEndpointConfig} (h : Captured n context) :
    Captured (.build rules primary (n.configGeneration + 1)) context := by
  have hle := h.le
  have hgeneration : (Notifier.build rules primary (n.configGeneration + 1)).configGeneration =
    n.configGeneration + 1 := rfl
  refine ⟨?_,?_,?_⟩
  · omega
  · intro heq
    omega
  · intro heq
    omega

theorem systemInvariant_step (h : SystemInvariant rules s)
    (hstep : failoverStep rules settings move s = .ok s') : SystemInvariant rules s' := by
  cases move with
  | getLatestBlockHeight now =>
    cases hstep
    exact systemInvariant_start h (leads_maybeProbePrimary s.notifier false)
  | runWithEndpointFallback allowFallback now =>
    cases hstep
    exact systemInvariant_start h (leads_maybeProbePrimary s.notifier false)
  | maybeProbePrimary force now =>
    cases hstep
    exact systemInvariant_start h (leads_maybeProbePrimary s.notifier force)
  | switchToFallbackFor endpoint shouldFallback =>
    cases hstep
    exact systemInvariant_start h (leads_switchToFallbackFor s.notifier shouldFallback)
  | goOn i answer now =>
    obtain ⟨call,y,hcall,hgoOn,rfl⟩ := failoverStep_goOn hstep
    have hgoes := goesOn_goOn (h.calls call (List.mem_of_getElem? hcall)) hgoOn
    refine ⟨h.notifier.config hgoes.config (hgoes.current.imp id And.left),?_⟩
    intro other hother
    rcases List.mem_or_eq_of_mem_set hother with hother | rfl
    · exact (h.calls other hother).congr fun context hcaptured => hcaptured.congr hgoes.config
    · exact hgoes.invariant
  | changeEndpoint primary =>
    cases hstep
    refine ⟨notifierInvariant_build primary _,?_⟩
    intro call hcall
    exact (h.calls call hcall).congr fun _ => captured_build

theorem systemInvariant_of_execute {primary : RpcEndpointConfig} {moves : List FailoverMove}
    (h : execute (failoverStep rules settings) moves (.build rules primary) = .ok s) :
    SystemInvariant rules s := by
  refine execute_invariant (fun _ _ _ _ hs hstep => systemInvariant_step hs hstep) h ?_
  refine ⟨notifierInvariant_build primary 1,?_⟩
  intro call hcall
  cases hcall

theorem candidatesFrom_networkName {primary candidate : RpcEndpointConfig} {presetId : String}
    {presets : List RpcEndpointPreset} {seenUrls : List String}
    (h : candidate ∈ rules.candidatesFrom primary presetId presets seenUrls) :
    candidate.networkName = primary.networkName := by
  induction presets generalizing seenUrls with
  | nil => cases h
  | cons preset presets ih =>
    rw [EndpointRules.candidatesFrom] at h
    split at h
    · exact ih h
    · rcases List.mem_cons.mp h with rfl | h
      · rfl
      · exact ih h

theorem NotifierInvariant.networkName (h : NotifierInvariant rules n) :
    n.state.current.networkName = n.state.primary.networkName := by
  have hcandidates := h.candidates
  rcases h.current with hcurrent | hcurrent
  · rw [hcurrent]
  · rw [hcandidates,EndpointRules.fallbackRpcEndpointCandidatesFor] at hcurrent
    split at hcurrent
    · cases hcurrent
    · exact candidatesFrom_networkName hcurrent

/-- What holds after every run: of the current endpoint, of a step that makes another one the
current one, of a step after the configured endpoint changed, of the number of actions, and of
calls whose action failed. -/
structure FailoverSafe (rules : EndpointRules) (settings : RpcEndpointFailoverSettings)
    (s : FailoverSystem) : Prop where
  current : s.notifier.state.current = s.notifier.state.primary ∨
    s.notifier.state.current ∈
      rules.fallbackRpcEndpointCandidatesFor s.notifier.state.primary
  switched : ∀ move s', failoverStep rules settings move s = .ok s' →
    s'.notifier.state.current ≠ s.notifier.state.current →
    (∃ primary, move = .changeEndpoint primary) ∨
      ∃ i answer now call chainName, move = .goOn i answer now ∧ s'.calls[i]? = some call ∧
        (s'.notifier.state.current,chainName) ∈ call.matched ∧
        rules.rpcChainNameMatchesNetwork chainName s'.notifier.state.primary.networkName = true
  captured : ∀ primary s', failoverStep rules settings (.changeEndpoint primary) s = .ok s' →
    ∀ call ∈ s'.calls, ∀ context, call.point.context? = some context →
      context.generation < s'.notifier.configGeneration
  changed : ∀ i answer now call s', s.calls[i]? = some call →
    failoverStep rules settings (.goOn i answer now) s = .ok s' → s'.notifier ≠ s.notifier →
      Fresh rules s.notifier call.point
  actions : ∀ call ∈ s.calls, call.actions ≤ 2
  replaced : ∀ i call endpoint shouldFallback now s', s.calls[i]? = some call →
    call.point = .acting endpoint →
    ¬ rules.sameEndpointIdentity endpoint s.notifier.state.current = true →
    failoverStep rules settings (.goOn i (.failed shouldFallback) now) s = .ok s' →
      s'.notifier = s.notifier ∧ ∃ point, (point = .finished .threw ∨ point = .switched false) ∧
        s'.calls[i]? = some { call with point := point }
  retried : ∀ i call result now s', s.calls[i]? = some call → call.point = .switched result →
    call.caller = .getLatestBlockHeight ∨ (∃ allow, call.caller = .runWithEndpointFallback allow) →
    failoverStep rules settings (.goOn i .resumed now) s = .ok s' →
      s'.calls[i]? = some (if result then { call with
        point := .retrying s.notifier.state.current
        actions := call.actions + 1 } else { call with point := .finished .threw })

section

variable (h : SystemInvariant rules s)
include h

theorem SystemInvariant.switched (hstep : failoverStep rules settings move s = .ok s')
    (hchange : s'.notifier.state.current ≠ s.notifier.state.current) :
    (∃ primary, move = .changeEndpoint primary) ∨
      ∃ i answer now call chainName, move = .goOn i answer now ∧ s'.calls[i]? = some call ∧
        (s'.notifier.state.current,chainName) ∈ call.matched ∧
        rules.rpcChainNameMatchesNetwork chainName s'.notifier.state.primary.networkName = true := by
  have hstart : ∀ (caller : Caller) (actions : Nat) (x : Notifier × Point),
      Leads s.notifier (fun _ => False) actions x → s' ≠ s.start caller x := by
    intro caller actions x hx heq
    rw [heq] at hchange
    rcases hx.current with hsame | hswitched
    · exact hchange hsame
    · exact hswitched.2
  cases move with
  | getLatestBlockHeight now =>
    cases hstep
    exact absurd rfl (hstart _ 0 _ (leads_maybeProbePrimary s.notifier false))
  | runWithEndpointFallback allowFallback now =>
    cases hstep
    exact absurd rfl (hstart _ 0 _ (leads_maybeProbePrimary s.notifier false))
  | maybeProbePrimary force now =>
    cases hstep
    exact absurd rfl (hstart _ 0 _ (leads_maybeProbePrimary s.notifier force))
  | switchToFallbackFor endpoint shouldFallback =>
    cases hstep
    exact absurd rfl (hstart _ 1 _ (leads_switchToFallbackFor s.notifier shouldFallback))
  | goOn i answer now =>
    right
    have hinvariant := systemInvariant_step h hstep
    obtain ⟨call,y,hcall,hgoOn,rfl⟩ := failoverStep_goOn hstep
    have hgoes := goesOn_goOn (h.calls call (List.mem_of_getElem? hcall)) hgoOn
    rcases hgoes.current with hsame | hswitched
    · exact absurd hsame hchange
    · obtain ⟨chainName,hchecked⟩ := hswitched.2
      have hmatches := hgoes.invariant.matched _ hchecked
      have hnetwork := hinvariant.notifier.networkName
      dsimp only at hnetwork hmatches
      rw [hnetwork] at hmatches
      have hi := (List.getElem?_eq_some_iff.mp hcall).1
      exact ⟨i,answer,now,y.2,chainName,rfl,by simp [hi],hchecked,hmatches⟩
  | changeEndpoint primary => exact .inl ⟨primary,rfl⟩

theorem SystemInvariant.captured_lt {primary : RpcEndpointConfig}
    (hstep : failoverStep rules settings (.changeEndpoint primary) s = .ok s')
    (hcall : call ∈ s'.calls) (hcontext : call.point.context? = some context) :
    context.generation < s'.notifier.configGeneration := by
  cases hstep
  have hknown := (h.calls call hcall).known
  have hcaptured : Captured s.notifier context := by
    cases hpoint : call.point with
    | probingPrimary captured now =>
      rw [hpoint] at hknown hcontext
      cases hcontext
      exact hknown
    | probingCurrent captured now primaryHeight currentHeight =>
      rw [hpoint] at hknown hcontext
      cases hcontext
      exact hknown.1
    | searching captured endpoint height now candidates =>
      rw [hpoint] at hknown hcontext
      cases hcontext
      exact hknown.1
    | searched captured endpoint height now fallback =>
      rw [hpoint] at hknown hcontext
      cases hcontext
      exact hknown.1
    | switching captured attempted nextFailureCount candidates =>
      rw [hpoint] at hknown hcontext
      cases hcontext
      exact hknown.1
    | _ =>
      rw [hpoint] at hcontext
      cases hcontext
  exact Nat.lt_succ_of_le hcaptured.le

end

theorem actionsBefore_le (point : Point) : point.actionsBefore ≤ 2 := by
  cases point with
  | retrying endpoint => exact Nat.le_refl _
  | finished outcome => exact Nat.le_refl _
  | _ => simp [Point.actionsBefore]

theorem replaced_of_step {i : Nat} {shouldFallback : Bool} (hcall : s.calls[i]? = some call)
    (hpoint : call.point = .acting endpoint)
    (hcurrent : ¬ rules.sameEndpointIdentity endpoint s.notifier.state.current = true)
    (hstep : failoverStep rules settings (.goOn i (.failed shouldFallback) now) s = .ok s') :
    s'.notifier = s.notifier ∧ ∃ point, (point = .finished .threw ∨ point = .switched false) ∧
      s'.calls[i]? = some { call with point := point } := by
  obtain ⟨found,y,hfound,hgoOn,rfl⟩ := failoverStep_goOn hstep
  rw [hcall] at hfound
  cases hfound
  have hi := (List.getElem?_eq_some_iff.mp hcall).1
  have hfailed := @actionFailed_of_not_current rules settings s.notifier endpoint hcurrent
    call.caller shouldFallback
  rw [Call.goOn.eq_def,hpoint] at hgoOn
  cases hgoOn
  exact ⟨hfailed.1,_,hfailed.2,by simp [hi,Call.moveTo]⟩

theorem retried_of_step {i : Nat} {result : Bool} (hcall : s.calls[i]? = some call)
    (hpoint : call.point = .switched result)
    (hcaller : call.caller = .getLatestBlockHeight ∨
      ∃ allow, call.caller = .runWithEndpointFallback allow)
    (hstep : failoverStep rules settings (.goOn i .resumed now) s = .ok s') :
    s'.calls[i]? = some (if result then { call with
      point := .retrying s.notifier.state.current
      actions := call.actions + 1 } else { call with point := .finished .threw }) := by
  obtain ⟨found,y,hfound,hgoOn,rfl⟩ := failoverStep_goOn hstep
  rw [hcall] at hfound
  cases hfound
  have hi := (List.getElem?_eq_some_iff.mp hcall).1
  rw [Call.goOn.eq_def,hpoint] at hgoOn
  rcases hcaller with hcaller | ⟨allow,hcaller⟩
  · rw [hcaller] at hgoOn
    cases result with
    | true =>
      cases hgoOn
      simp [hi,Call.act]
    | false =>
      cases hgoOn
      simp [hi,Call.moveTo]
  · rw [hcaller] at hgoOn
    cases result with
    | true =>
      cases hgoOn
      simp [hi,Call.act]
    | false =>
      cases hgoOn
      simp [hi,Call.moveTo]

theorem failover_safe (rules : EndpointRules) (settings : RpcEndpointFailoverSettings)
    (primary : RpcEndpointConfig) (moves : List FailoverMove) (s : FailoverSystem)
    (h : execute (failoverStep rules settings) moves (.build rules primary) = .ok s) :
    FailoverSafe rules settings s := by
  have hinvariant := systemInvariant_of_execute h
  refine ⟨?_,?_,?_,?_,?_,?_,?_⟩
  · rw [← hinvariant.notifier.candidates]
    exact hinvariant.notifier.current
  · intro move s' hstep hchange
    exact hinvariant.switched hstep hchange
  · intro primary s' hstep call hcall context hcontext
    exact hinvariant.captured_lt hstep hcall hcontext
  · intro i answer now call s' hcall hstep hchange
    obtain ⟨found,y,hfound,hgoOn,rfl⟩ := failoverStep_goOn hstep
    rw [hcall] at hfound
    cases hfound
    exact fresh_of_change hgoOn hchange
  · intro call hcall
    exact Nat.le_trans (hinvariant.calls call hcall).actions (actionsBefore_le call.point)
  · intro i call endpoint shouldFallback now s' hcall hpoint hcurrent hstep
    exact replaced_of_step hcall hpoint hcurrent hstep
  · intro i call result now s' hcall hpoint hcaller hstep
    exact retried_of_step hcall hpoint hcaller hstep

/-- A network with two presets. -/
def twoPresets : EndpointRules where
  rpcEndpointPresetsForNetwork _ := [⟨"default","a"⟩,⟨"eu","b"⟩]
  normalizeRpcEndpointUrl url := url
  trim presetId := presetId
  isRegtestBuild := false

def defaultSettings : RpcEndpointFailoverSettings := ⟨60,1,300,2,2,1⟩

/-- Two calls act on the primary. The first fails and switches to the fallback, whose health matches,
and then the second fails. -/
def replacedMoves : List FailoverMove :=
  [.runWithEndpointFallback true 0,.runWithEndpointFallback true 0,.goOn 0 .resumed 0,
    .goOn 1 .resumed 0,.goOn 0 (.failed true) 1,.goOn 0 (.health (some "main") (some 10)) 2,
    .goOn 0 .resumed 2,.goOn 1 (.failed true) 3,.goOn 1 .resumed 3]

theorem failover_safe_replaced : ∃ s,
    execute (failoverStep twoPresets defaultSettings) replacedMoves
      (.build twoPresets ⟨"main","a",some "default"⟩) = .ok s ∧
    FailoverSafe twoPresets defaultSettings s :=
  ⟨_,rfl,failover_safe twoPresets defaultSettings ⟨"main","a",some "default"⟩ replacedMoves _ rfl⟩

/-- A call acts on the endpoint that the user configured after the call started. -/
def probedMoves : List FailoverMove :=
  [.runWithEndpointFallback true 0,.changeEndpoint ⟨"main","c",some "custom"⟩,.goOn 0 .resumed 1]

/-- An action is under way when the user keeps its URL as an endpoint of their own, which fails. -/
def sameUrlMoves : List FailoverMove :=
  [.runWithEndpointFallback true 0,.goOn 0 .resumed 0,.changeEndpoint ⟨"main","a",some "custom"⟩,
    .runWithEndpointFallback true 1,.goOn 1 .resumed 1,.goOn 1 (.failed true) 2]

/-- The second call is not retried, although the current endpoint is healthy; and a call that started
before the configured endpoint changed moves the failure count, up and down. -/
theorem replaced_fails_and_earlier_counts :
    (∃ s, execute (failoverStep twoPresets defaultSettings) replacedMoves
        (.build twoPresets ⟨"main","a",some "default"⟩) = .ok s ∧
      s.notifier.state.current = ⟨"main","b",some "eu"⟩ ∧
      (s.calls.map fun call => (call.point,call.actions)) =
        [(.retrying ⟨"main","b",some "eu"⟩,2),(.finished .threw,1)]) ∧
    (∃ s s', execute (failoverStep twoPresets defaultSettings) probedMoves
        (.build twoPresets ⟨"main","a",some "default"⟩) = .ok s ∧
      failoverStep twoPresets defaultSettings (.goOn 0 (.failed true) 2) s = .ok s' ∧
      s.notifier.state.primaryFailureCount = 0 ∧ s'.notifier.state.primaryFailureCount = 1) ∧
    ∃ s s', execute (failoverStep twoPresets defaultSettings) sameUrlMoves
        (.build twoPresets ⟨"main","a",some "default"⟩) = .ok s ∧
      failoverStep twoPresets defaultSettings (.goOn 0 (.succeeded 5) 3) s = .ok s' ∧
      s.notifier.state.primaryFailureCount = 1 ∧ s'.notifier.state.primaryFailureCount = 0 :=
  ⟨⟨_,rfl,rfl,rfl⟩,⟨_,_,rfl,rfl,rfl,rfl⟩,⟨_,_,rfl,rfl,rfl,rfl⟩⟩

end CoppiceWallet.Failover
