import CoppiceWallet.Failover.Endpoints
import CoppiceWallet.Lib.Result

/-! # What the calls do -/

namespace CoppiceWallet.Failover

open CoppiceWallet.Lib

variable {rules : EndpointRules} {settings : RpcEndpointFailoverSettings}

/-- The configured endpoint is the same. -/
structure SameConfig (n n' : Notifier) : Prop where
  generation : n'.configGeneration = n.configGeneration
  primary : n'.state.primary = n.state.primary
  candidates : n'.state.fallbackCandidates = n.state.fallbackCandidates

/-- So is the current endpoint. -/
structure Keeps (n n' : Notifier) : Prop where
  config : SameConfig n n'
  current : n'.state.current = n.state.current

variable {n n' : Notifier} {context : FailoverContext} {endpoint : RpcEndpointConfig}
  {height : Nat} {now : Int} {x : Notifier × Point}

theorem Keeps.refl (n : Notifier) : Keeps n n := ⟨⟨rfl,rfl,rfl⟩,rfl⟩

theorem Keeps.trans {n'' : Notifier} (h : Keeps n n') (h' : Keeps n' n'') : Keeps n n'' :=
  ⟨⟨h'.config.generation.trans h.config.generation,h'.config.primary.trans h.config.primary,
    h'.config.candidates.trans h.config.candidates⟩,h'.current.trans h.current⟩

theorem keeps_resetHeightWindow (n : Notifier) :
    Keeps n (n.resetHeightWindow rules endpoint height now) := by
  rw [Notifier.resetHeightWindow]
  split
  · exact ⟨⟨rfl,rfl,rfl⟩,rfl⟩
  · exact .refl n

theorem keeps_recordEndpointSuccess (n : Notifier) :
    Keeps n (n.recordEndpointSuccess rules endpoint) := by
  rw [Notifier.recordEndpointSuccess]
  split
  · exact ⟨⟨rfl,rfl,rfl⟩,rfl⟩
  · exact .refl n

theorem keeps_observe (n : Notifier) : Keeps n (n.observe height now) := ⟨⟨rfl,rfl,rfl⟩,rfl⟩

theorem keeps_setFailureCount (n : Notifier) (count : Nat) : Keeps n (n.setFailureCount count) :=
  ⟨⟨rfl,rfl,rfl⟩,rfl⟩

def Call.hasChecked (call : Call) (endpoint : RpcEndpointConfig) : Prop :=
  ∃ chainName, (endpoint,chainName) ∈ call.matched

/-- A context that was captured in this generation has the configured endpoint. -/
structure Captured (n : Notifier) (context : FailoverContext) : Prop where
  le : context.generation ≤ n.configGeneration
  primary : context.generation = n.configGeneration → context.primary = n.state.primary
  candidates : context.generation = n.configGeneration →
    context.fallbackCandidates = n.state.fallbackCandidates

/-- What is known at a point, and how many actions were run before it. -/
def Point.Known (n : Notifier) (checked : RpcEndpointConfig → Prop) : Point → Prop
  | probingPrimary context _ => Captured n context
  | probingCurrent context _ _ _ => Captured n context ∧ checked context.primary
  | searching context _ _ _ candidates | switching context _ _ candidates =>
    Captured n context ∧ candidates ⊆ context.fallbackCandidates
  | searched context _ _ _ fallback => Captured n context ∧
    ∀ candidate height, fallback = some (candidate,height) →
      candidate ∈ context.fallbackCandidates ∧ checked candidate
  | probed _ | acting _ | switched _ | retrying _ | finished _ => True

def Point.actionsBefore : Point → Nat
  | probingPrimary _ _ | probingCurrent _ _ _ _ | probed _ => 0
  | acting _ | searching _ _ _ _ _ | searched _ _ _ _ _ | switching _ _ _ _ | switched _ => 1
  | retrying _ | finished _ => 2

structure CallInvariant (rules : EndpointRules) (n : Notifier) (call : Call) : Prop where
  known : call.point.Known n call.hasChecked
  actions : call.actions ≤ call.point.actionsBefore
  matched : ∀ checked ∈ call.matched,
    rules.rpcChainNameMatchesNetwork checked.2 checked.1.networkName = true

structure NotifierInvariant (rules : EndpointRules) (n : Notifier) : Prop where
  candidates : n.state.fallbackCandidates = rules.fallbackRpcEndpointCandidatesFor n.state.primary
  current : n.state.current = n.state.primary ∨ n.state.current ∈ n.state.fallbackCandidates

theorem captured_captureContext (n : Notifier) : Captured n n.captureContext :=
  ⟨Nat.le_refl _,fun _ => rfl,fun _ => rfl⟩

theorem Captured.congr (h : Captured n context) (hsame : SameConfig n n') :
    Captured n' context := by
  refine ⟨?_,?_,?_⟩
  · rw [hsame.generation]
    exact h.le
  · rw [hsame.generation,hsame.primary]
    exact h.primary
  · rw [hsame.generation,hsame.candidates]
    exact h.candidates

theorem Point.Known.congr {checked checked' : RpcEndpointConfig → Prop} {point : Point}
    (h : point.Known n checked) (hcaptured : ∀ context, Captured n context → Captured n' context)
    (hchecked : ∀ endpoint, checked endpoint → checked' endpoint) : point.Known n' checked' := by
  cases point with
  | probingPrimary context _ => exact hcaptured context h
  | probingCurrent context _ _ _ => exact ⟨hcaptured context h.1,hchecked _ h.2⟩
  | searching context _ _ _ _ => exact ⟨hcaptured context h.1,h.2⟩
  | switching context _ _ _ => exact ⟨hcaptured context h.1,h.2⟩
  | searched context _ _ _ fallback =>
    refine ⟨hcaptured context h.1,?_⟩
    intro candidate height hfallback
    have hfound := h.2 candidate height hfallback
    exact ⟨hfound.1,hchecked candidate hfound.2⟩
  | _ => trivial

theorem CallInvariant.congr {call : Call} (h : CallInvariant rules n call)
    (hcaptured : ∀ context, Captured n context → Captured n' context) :
    CallInvariant rules n' call :=
  ⟨h.known.congr hcaptured fun _ hchecked => hchecked,h.actions,h.matched⟩

theorem isCurrentContext_generation (h : n.isCurrentContext rules context = true) :
    context.generation = n.configGeneration := by
  simp only [Notifier.isCurrentContext,Bool.and_eq_true,decide_eq_true_eq] at h
  exact h.1.1.symm

/-- A function keeps the configured endpoint. If it makes another endpoint the current one, that is
the primary or a candidate, and its health was checked. -/
structure Leads (n : Notifier) (checked : RpcEndpointConfig → Prop) (actions : Nat)
    (x : Notifier × Point) : Prop where
  config : SameConfig n x.1
  current : x.1.state.current = n.state.current ∨
    (x.1.state.current = n.state.primary ∨ x.1.state.current ∈ n.state.fallbackCandidates) ∧
      checked x.1.state.current
  known : x.2.Known x.1 checked
  actions : actions ≤ x.2.actionsBefore

variable {checked : RpcEndpointConfig → Prop} {actions : Nat} {point : Point}

theorem leads_of_keeps (h : Keeps n n') (hknown : point.Known n' checked)
    (hactions : actions ≤ point.actionsBefore) : Leads n checked actions (n',point) :=
  ⟨h.config,.inl h.current,hknown,hactions⟩

theorem Keeps.leads (h : Keeps n n') (hx : Leads n' checked actions x) :
    Leads n checked actions x := by
  refine ⟨?_,?_,hx.known,hx.actions⟩
  · exact ⟨hx.config.generation.trans h.config.generation,hx.config.primary.trans h.config.primary,
      hx.config.candidates.trans h.config.candidates⟩
  · rw [← h.current,← h.config.primary,← h.config.candidates]
    exact hx.current

theorem leads_maybeProbePrimary (n : Notifier) (force : Bool) :
    Leads n checked 0 (n.maybeProbePrimary rules settings force now) := by
  rw [Notifier.maybeProbePrimary]
  split
  · split
    · exact leads_of_keeps (.refl n) trivial (Nat.le_refl _)
    · exact leads_of_keeps ⟨⟨rfl,rfl,rfl⟩,rfl⟩ ((captured_captureContext n).congr ⟨rfl,rfl,rfl⟩)
        (Nat.le_refl _)
  · exact leads_of_keeps (.refl n) trivial (Nat.le_refl _)

theorem leads_switchToFallbackFor (n : Notifier) (shouldFallback : Bool) :
    Leads n checked 1 (n.switchToFallbackFor rules settings endpoint shouldFallback) := by
  rw [Notifier.switchToFallbackFor]
  dsimp only
  generalize (if rules.sameEndpointIdentity endpoint n.captureContext.primary then
    n.state.primaryFailureCount + 1 else n.state.primaryFailureCount) = nextFailureCount
  split
  · exact leads_of_keeps (.refl n) trivial (Nat.le_refl _)
  · split
    · exact leads_of_keeps (keeps_setFailureCount n _) trivial (Nat.le_refl _)
    · split
      · exact leads_of_keeps (keeps_setFailureCount n _) trivial (Nat.le_refl _)
      · exact leads_of_keeps (.refl n)
          ⟨captured_captureContext n,fun _ => List.mem_of_mem_filter⟩ (Nat.le_refl _)

theorem leads_maybeSwitchFromSlowHeight (n : Notifier) :
    Leads n checked 1 (n.maybeSwitchFromSlowHeight rules settings endpoint height now) := by
  rw [Notifier.maybeSwitchFromSlowHeight]
  dsimp only
  split
  · split
    · split
      · exact leads_of_keeps (keeps_resetHeightWindow n) trivial (Nat.le_succ 1)
      · split
        · exact leads_of_keeps (keeps_observe n) trivial (Nat.le_succ 1)
        · split
          · exact leads_of_keeps ((keeps_observe n).trans (keeps_resetHeightWindow _)) trivial
              (Nat.le_succ 1)
          · have hcaptured : Captured (n.observe height now) n.captureContext :=
              (captured_captureContext n).congr (keeps_observe n).config
            split
            · refine leads_of_keeps (keeps_observe n) ⟨hcaptured,?_⟩ (Nat.le_refl _)
              intro candidate height hnone
              cases hnone
            · exact leads_of_keeps (keeps_observe n) ⟨hcaptured,fun _ => List.mem_of_mem_filter⟩
                (Nat.le_refl _)
    · exact leads_of_keeps (keeps_resetHeightWindow n) trivial (Nat.le_succ 1)
  · exact leads_of_keeps (.refl n) trivial (Nat.le_succ 1)

theorem leads_probePrimaryAnswered {health : Option Nat} (h : Captured n context)
    (hchecked : ∀ height, health = some height → checked context.primary) :
    Leads n checked 0 (n.probePrimaryAnswered rules context now health) := by
  rw [Notifier.probePrimaryAnswered.eq_def]
  split
  · exact leads_of_keeps (.refl n) trivial (Nat.le_refl _)
  · rename_i height
    split
    · exact leads_of_keeps (.refl n) ⟨h,hchecked height rfl⟩ (Nat.le_refl _)
    · exact leads_of_keeps (.refl n) trivial (Nat.le_refl _)

theorem leads_returnToPrimary {primaryHeight : Nat} {currentHeight : Option Nat}
    (hprimary : context.primary = n.state.primary) (hchecked : checked context.primary) :
    Leads n checked 0 (n.returnToPrimary settings context now primaryHeight currentHeight) := by
  rw [Notifier.returnToPrimary]
  split
  · exact leads_of_keeps (.refl n) trivial (Nat.le_refl _)
  · exact ⟨⟨rfl,rfl,rfl⟩,.inr ⟨.inl hprimary,hchecked⟩,trivial,Nat.le_refl _⟩

theorem leads_probeCurrentAnswered {primaryHeight : Nat} {currentHeight health : Option Nat}
    (h : Captured n context) (hchecked : checked context.primary) : Leads n checked 0
      (n.probeCurrentAnswered rules settings context now primaryHeight currentHeight health) := by
  rw [Notifier.probeCurrentAnswered.eq_def]
  split
  · rename_i hcurrent
    have hprimary := h.primary (isCurrentContext_generation hcurrent)
    split
    · exact leads_returnToPrimary hprimary hchecked
    · exact (keeps_observe n).leads (leads_returnToPrimary hprimary hchecked)
  · exact leads_of_keeps (.refl n) trivial (Nat.le_refl _)

theorem leads_switchAnswered {attempted candidate : RpcEndpointConfig} {nextFailureCount : Nat}
    {candidates : List RpcEndpointConfig} {health : Option Nat} (h : Captured n context)
    (hcandidates : candidate :: candidates ⊆ context.fallbackCandidates)
    (hchecked : ∀ height, health = some height → checked candidate) : Leads n checked 1
      (n.switchAnswered rules context attempted nextFailureCount candidate candidates health now) := by
  rw [Notifier.switchAnswered.eq_def]
  split
  · rename_i height
    split
    · rename_i hcurrent
      have hmem := hcandidates List.mem_cons_self
      rw [h.candidates (isCurrentContext_generation hcurrent)] at hmem
      exact ⟨⟨rfl,rfl,rfl⟩,.inr ⟨.inr hmem,hchecked height rfl⟩,trivial,Nat.le_refl _⟩
    · exact leads_of_keeps (.refl n) trivial (Nat.le_refl _)
  · refine leads_of_keeps (.refl n) ⟨h,?_⟩ (Nat.le_refl _)
    intro other hother
    exact hcandidates (List.mem_cons_of_mem _ hother)
  · split
    · exact leads_of_keeps (keeps_setFailureCount n _) trivial (Nat.le_refl _)
    · exact leads_of_keeps (.refl n) trivial (Nat.le_refl _)

theorem leads_searchAnswered {candidate : RpcEndpointConfig} {candidates : List RpcEndpointConfig}
    {health : Option Nat} (h : Captured n context)
    (hcandidates : candidate :: candidates ⊆ context.fallbackCandidates)
    (hchecked : ∀ height, health = some height → checked candidate) : Leads n checked 1
      (n,Notifier.searchAnswered settings context endpoint height now candidate candidates
        health) := by
  rw [Notifier.searchAnswered.eq_def]
  split
  · rename_i found hfound
    rw [Option.filter_eq_some_iff] at hfound
    refine leads_of_keeps (.refl n) ⟨h,?_⟩ (Nat.le_refl _)
    intro other otherHeight hother
    cases hother
    exact ⟨hcandidates List.mem_cons_self,hchecked found hfound.1⟩
  · refine leads_of_keeps (.refl n) ⟨h,?_⟩ (Nat.le_refl _)
    intro other hother
    exact hcandidates (List.mem_cons_of_mem _ hother)
  · refine leads_of_keeps (.refl n) ⟨h,?_⟩ (Nat.le_refl _)
    intro other otherHeight hnone
    cases hnone

theorem leads_searchEnded {fallback : Option (RpcEndpointConfig × Nat)} (h : Captured n context)
    (hfallback : ∀ candidate height, fallback = some (candidate,height) →
      candidate ∈ context.fallbackCandidates ∧ checked candidate) : Leads n checked 2
      ((n.searchEnded rules context endpoint height now fallback).1,
        .finished (n.searchEnded rules context endpoint height now fallback).2) := by
  rw [Notifier.searchEnded.eq_def]
  split
  · rename_i hcurrent
    split
    · exact leads_of_keeps (keeps_resetHeightWindow n) trivial (Nat.le_refl _)
    · rename_i candidate candidateHeight
      have hfound := hfallback candidate candidateHeight rfl
      have hmem := hfound.1
      rw [h.candidates (isCurrentContext_generation hcurrent)] at hmem
      exact ⟨⟨rfl,rfl,rfl⟩,.inr ⟨.inr hmem,hfound.2⟩,trivial,Nat.le_refl _⟩
  · exact leads_of_keeps (.refl n) trivial (Nat.le_refl _)

theorem leads_actionSucceeded {caller : Caller} {value : Nat} : Leads n checked 1
    (n.actionSucceeded rules settings caller endpoint value now) := by
  rw [Notifier.actionSucceeded.eq_def]
  dsimp only
  split
  · exact (keeps_recordEndpointSuccess n).leads (leads_maybeSwitchFromSlowHeight _)
  · exact leads_of_keeps (keeps_recordEndpointSuccess n) trivial (Nat.le_succ 1)

theorem leads_actionFailed {caller : Caller} {shouldFallback : Bool} : Leads n checked 1
    (n.actionFailed rules settings caller endpoint shouldFallback) := by
  rw [Notifier.actionFailed.eq_def]
  split
  · exact leads_of_keeps (.refl n) trivial (Nat.le_succ 1)
  · exact leads_switchToFallbackFor n shouldFallback

theorem leads_retrySucceeded {caller : Caller} {value : Nat} : Leads n checked 2
    (n.retrySucceeded rules caller endpoint value now) := by
  rw [Notifier.retrySucceeded.eq_def]
  dsimp only
  split
  · exact leads_of_keeps ((keeps_recordEndpointSuccess n).trans (keeps_resetHeightWindow _)) trivial
      (Nat.le_refl _)
  · exact leads_of_keeps (keeps_recordEndpointSuccess n) trivial (Nat.le_refl _)

/-- A call that goes on is still known, and so is what it did to the current endpoint. -/
structure GoesOn (rules : EndpointRules) (n : Notifier) (y : Notifier × Call) : Prop where
  config : SameConfig n y.1
  current : y.1.state.current = n.state.current ∨
    (y.1.state.current = n.state.primary ∨ y.1.state.current ∈ n.state.fallbackCandidates) ∧
      y.2.hasChecked y.1.state.current
  invariant : CallInvariant rules y.1 y.2

def Matched (rules : EndpointRules) (call : Call) : Prop :=
  ∀ checked ∈ call.matched, rules.rpcChainNameMatchesNetwork checked.2 checked.1.networkName = true

variable {call : Call} {chainName : Option String}

theorem goesOn_moveTo (h : Leads n call.hasChecked actions x) (hactions : call.actions ≤ actions)
    (hmatched : Matched rules call) : GoesOn rules n (call.moveTo x) :=
  ⟨h.config,h.current,h.known,Nat.le_trans hactions h.actions,hmatched⟩

theorem goesOn_act {point : RpcEndpointConfig → Point}
    (hknown : ∀ endpoint checked, (point endpoint).Known n checked)
    (hactions : ∀ endpoint, call.actions + 1 ≤ (point endpoint).actionsBefore)
    (hmatched : Matched rules call) : GoesOn rules n (call.act n point) :=
  ⟨⟨rfl,rfl,rfl⟩,.inl rfl,hknown _ _,hactions _,hmatched⟩

theorem hasChecked_checked {reply : Option Nat} {found : Nat}
    (h : rules.checkRpcEndpointHealth endpoint chainName reply = some found) :
    (call.checked rules endpoint chainName).hasChecked endpoint := by
  cases chainName with
  | none => cases h
  | some chainName =>
    simp only [EndpointRules.checkRpcEndpointHealth,Option.bind_eq_bind,Option.bind_some] at h
    split at h
    · rename_i hmatches
      refine ⟨chainName,?_⟩
      rw [Call.checked,if_pos hmatches]
      exact List.mem_cons_self
    · cases h

theorem hasChecked_mono {other : RpcEndpointConfig} (h : call.hasChecked other) :
    (call.checked rules endpoint chainName).hasChecked other := by
  obtain ⟨name,hname⟩ := h
  refine ⟨name,?_⟩
  rw [Call.checked.eq_def]
  split
  · exact hname
  · split
    · exact List.mem_cons_of_mem _ hname
    · exact hname

theorem matched_checked (h : Matched rules call) :
    Matched rules (call.checked rules endpoint chainName) := by
  rw [Call.checked.eq_def]
  split
  · exact h
  · split
    · rename_i hmatches
      intro checked hchecked
      rcases List.mem_cons.mp hchecked with rfl | hchecked
      · exact hmatches
      · exact h checked hchecked
    · exact h

theorem checked_actions (call : Call) :
    (call.checked rules endpoint chainName).actions = call.actions := by
  rw [Call.checked.eq_def]
  split
  · rfl
  · split
    · rfl
    · rfl

theorem goesOn_goOn {answer : Answer} {y : Notifier × Call} (h : CallInvariant rules n call)
    (hgoOn : call.goOn rules settings n answer now = some y) : GoesOn rules n y := by
  have hknown := h.known
  have hactions := h.actions
  have hmatched : Matched rules call := h.matched
  rw [Call.goOn.eq_def] at hgoOn
  split at hgoOn
  · rename_i context started chainName height hpoint
    rw [hpoint] at hknown hactions
    cases hgoOn
    refine goesOn_moveTo (leads_probePrimaryAnswered hknown ?_) ?_ (matched_checked hmatched)
    · intro found hfound
      exact hasChecked_checked hfound
    · rw [checked_actions]
      exact hactions
  · rename_i context started primaryHeight currentHeight chainName height hpoint
    rw [hpoint] at hknown hactions
    cases hgoOn
    refine goesOn_moveTo (leads_probeCurrentAnswered hknown.1 (hasChecked_mono hknown.2)) ?_
      (matched_checked hmatched)
    rw [checked_actions]
    exact hactions
  · rename_i result hpoint
    rw [hpoint] at hactions
    split at hgoOn
    · cases hgoOn
      exact goesOn_moveTo (leads_of_keeps (.refl n) trivial (Nat.zero_le _)) hactions hmatched
    · cases hgoOn
      exact goesOn_act (fun _ _ => trivial) (fun _ => Nat.succ_le_succ hactions) hmatched
  · rename_i endpoint value hpoint
    rw [hpoint] at hactions
    cases hgoOn
    exact goesOn_moveTo leads_actionSucceeded hactions hmatched
  · rename_i endpoint shouldFallback hpoint
    rw [hpoint] at hactions
    cases hgoOn
    exact goesOn_moveTo leads_actionFailed hactions hmatched
  · rename_i context endpoint height started candidate candidates chainName reply hpoint
    rw [hpoint] at hknown hactions
    cases hgoOn
    refine goesOn_moveTo (leads_searchAnswered hknown.1 hknown.2 ?_) ?_ (matched_checked hmatched)
    · intro found hfound
      exact hasChecked_checked hfound
    · rw [checked_actions]
      exact hactions
  · rename_i context endpoint height started fallback hpoint
    rw [hpoint] at hknown hactions
    cases hgoOn
    exact goesOn_moveTo (leads_searchEnded hknown.1 hknown.2)
      (Nat.le_trans hactions (Nat.le_succ 1)) hmatched
  · rename_i context attempted nextFailureCount candidate candidates chainName height hpoint
    rw [hpoint] at hknown hactions
    cases hgoOn
    refine goesOn_moveTo (leads_switchAnswered hknown.1 hknown.2 ?_) ?_ (matched_checked hmatched)
    · intro found hfound
      exact hasChecked_checked hfound
    · rw [checked_actions]
      exact hactions
  · rename_i result hpoint
    rw [hpoint] at hactions
    split at hgoOn
    · cases hgoOn
      exact goesOn_moveTo (leads_of_keeps (.refl n) trivial (Nat.le_succ 1)) hactions hmatched
    · cases hgoOn
      exact goesOn_act (fun _ _ => trivial) (fun _ => Nat.succ_le_succ hactions) hmatched
    · cases hgoOn
      exact goesOn_moveTo (leads_of_keeps (.refl n) trivial (Nat.le_succ 1)) hactions hmatched
  · rename_i endpoint value hpoint
    rw [hpoint] at hactions
    cases hgoOn
    exact goesOn_moveTo leads_retrySucceeded hactions hmatched
  · rename_i hpoint
    rw [hpoint] at hactions
    cases hgoOn
    exact goesOn_moveTo (leads_of_keeps (.refl n) trivial (Nat.le_refl _)) hactions hmatched
  · cases hgoOn

end CoppiceWallet.Failover
