import CoppiceWallet.Lib.Locks
import CoppiceWallet.SyncControl.Calls

/-! # What a step of the sync calls does -/

namespace CoppiceWallet.SyncControl

open CoppiceWallet.Lib

def FullSyncPoint.holdsLane : FullSyncPoint → Bool
  | .acquire | .returned _ => false
  | _ => true

def RunSyncPoint.holdsLane : RunSyncPoint → Bool
  | .createRuntime _ | .body _ _ | .release _ _ => true
  | _ => false

/-- The thread is between the acquisition and the release of the running flag. -/
def SyncThread.holdsLane : SyncThread → Bool
  | .runFullSync _ point => point.holdsLane
  | .runSync point => point.holdsLane
  | _ => false

def ObserverPoint.token : ObserverPoint → Option Nat
  | .running token _ | .teardown token _ => some token
  | _ => none

/-- The token of an observer that runs. -/
def SyncThread.token : SyncThread → Option Nat
  | .startMempoolObserver point => point.token
  | _ => none

def SyncThread.observes (thread : SyncThread) : Bool := thread.token.isSome

def OperationPoint.stops : OperationPoint → Option Nat
  | .storeCancel control | .storeMode control | .unlock control => some control
  | .returned control => control
  | .lock => none

/-- The control that a cancel or an end has taken. -/
def SyncThread.stops : SyncThread → Option Nat
  | .cancelOperation point | .endOperation point => point.stops
  | _ => none

/-- The token that a stop has found. -/
def SyncThread.stopsToken : SyncThread → Option Nat
  | .stopMempoolObserver returned => returned.join
  | _ => none

/-- Controls and tokens are added, and stopped for good. -/
structure Grows (s s' : SyncState) : Prop where
  controls : s.controls.length ≤ s'.controls.length
  cancelled : ∀ k, s.isCancelled k = true → s'.isCancelled k = true
  stopped : ∀ k, s.isStoppedMode k = true → s'.isStoppedMode k = true
  tokens : s.tokens.length ≤ s'.tokens.length
  token : ∀ t : Nat, s.tokens[t]? = some true → s'.tokens[t]? = some true

/-- What a step of a thread does to the variables. -/
structure SyncStep (s : SyncState) (thread : SyncThread) (s' : SyncState) (thread' : SyncThread) :
    Prop where
  lane : FlagStep s.syncRunning thread.holdsLane s'.syncRunning thread'.holdsLane
  observerLane : FlagStep s.observer.running thread.observes s'.observer.running thread'.observes
  grows : Grows s s'
  cancelled : ∀ k, s'.isCancelled k = true ∨ s'.isStoppedMode k = true →
    (s.isCancelled k = true ∨ s.isStoppedMode k = true) ∨ thread'.stops = some k
  token : ∀ t : Nat, s'.tokens[t]? = some true → s.tokens[t]? = some true ∨ thread'.stopsToken = some t
  mode : s'.desiredSyncMode = s.desiredSyncMode ∨ thread.holdsLane = true
  observer : s'.observer = s.observer ∨ s'.observer = ⟨false,none⟩ ∧ thread.observes = true ∨
    s'.observer = ⟨true,some s.tokens.length⟩ ∧ s.tokens.length < s'.tokens.length ∧
      s.observer.running = false
  syncCancel : s'.syncCancel = s.syncCancel ∨
    s'.syncCancel = true ∧ thread = .cancelFullSync false ∨
    ∃ mode, thread = .runFullSync mode .resetCancel
  active : s'.active = s.active ∨ s'.active = none ∨ s'.active = some s.controls.length ∧
    s.controls.length < s'.controls.length
  stops : ∀ k, thread.stops = some k → thread'.stops = some k
  stopsToken : ∀ t, thread.stopsToken = some t → thread'.stopsToken = some t

section
variable {i k : Nat} {s s' : SyncState} {thread thread' : SyncThread}

theorem SyncStep.inLane {running cancel : Bool} {mode : UInt8} {lock : Option Nat}
    (hlane : FlagStep s.syncRunning thread.holdsLane running thread'.holdsLane)
    (hobserves : thread'.observes = thread.observes)
    (hmode : mode = s.desiredSyncMode ∨ thread.holdsLane = true)
    (hcancel : cancel = s.syncCancel ∨ cancel = true ∧ thread = .cancelFullSync false ∨
      ∃ mode, thread = .runFullSync mode .resetCancel)
    (hstops : ∀ k, thread.stops = some k → thread'.stops = some k)
    (hstopsToken : ∀ t, thread.stopsToken = some t → thread'.stopsToken = some t) :
    SyncStep s thread { s with
      syncRunning := running, syncCancel := cancel, desiredSyncMode := mode, activeLock := lock }
      thread' where
  lane := hlane
  observerLane := by
    rw [hobserves]
    exact .keep
  grows := ⟨Nat.le_refl _,fun _ h => h,fun _ h => h,Nat.le_refl _,fun _ h => h⟩
  cancelled _ h := .inl h
  token _ h := .inl h
  mode := hmode
  observer := .inl rfl
  syncCancel := hcancel
  active := .inl rfl
  stops := hstops
  stopsToken := hstopsToken

theorem SyncStep.quiet (hlane : thread'.holdsLane = thread.holdsLane)
    (hobserves : thread'.observes = thread.observes)
    (hstops : ∀ k, thread.stops = some k → thread'.stops = some k)
    (hstopsToken : ∀ t, thread.stopsToken = some t → thread'.stopsToken = some t) :
    SyncStep s thread s thread' := by
  refine .inLane ?_ hobserves (.inl rfl) (.inl rfl) hstops hstopsToken
  rw [hlane]
  exact .keep

theorem fullSync_step {mode : UInt8} {point next : FullSyncPoint}
    (h : point.proceed mode s = some (s',next)) :
    SyncStep s (.runFullSync mode point) s' (.runFullSync mode next) := by
  cases point with
  | acquire =>
    rw [FullSyncPoint.proceed] at h
    split at h
    · cases h
      exact .quiet rfl rfl (fun _ h => h) (fun _ h => h)
    · rename_i hfree
      cases h
      have hfree : s.syncRunning = false := by simpa using hfree
      refine .inLane ?_ rfl (.inl rfl) (.inl rfl) (fun _ h => h) (fun _ h => h)
      rw [hfree]
      exact .take
  | storeMode =>
    cases h
    exact .inLane .keep rfl (.inr rfl) (.inl rfl) (fun _ h => h) (fun _ h => h)
  | setup | createRuntime | body =>
    cases h
    exact .quiet rfl rfl (fun _ h => h) (fun _ h => h)
  | resetCancel =>
    cases h
    exact .inLane .keep rfl (.inl rfl) (.inr (.inr ⟨mode,rfl⟩)) (fun _ h => h) (fun _ h => h)
  | release result =>
    cases h
    exact .inLane .release rfl (.inl rfl) (.inl rfl) (fun _ h => h) (fun _ h => h)
  | returned => cases h

theorem runSync_step {point next : RunSyncPoint} (h : point.proceed s = some (s',next)) :
    SyncStep s (.runSync point) s' (.runSync next) := by
  cases point with
  | takeControl =>
    obtain ⟨control,-,h⟩ := Option.map_eq_some_iff.mp h
    cases h
    cases control <;> exact .quiet rfl rfl (fun _ h => h) (fun _ h => h)
  | acquire control =>
    rw [RunSyncPoint.proceed] at h
    split at h
    · cases h
      exact .quiet rfl rfl (fun _ h => h) (fun _ h => h)
    · rename_i hfree
      cases h
      have hfree : s.syncRunning = false := by simpa using hfree
      refine .inLane ?_ rfl (.inl rfl) (.inl rfl) (fun _ h => h) (fun _ h => h)
      rw [hfree]
      exact .take
  | createRuntime | body =>
    cases h
    exact .quiet rfl rfl (fun _ h => h) (fun _ h => h)
  | release =>
    cases h
    exact .inLane .release rfl (.inl rfl) (.inl rfl) (fun _ h => h) (fun _ h => h)
  | returned => cases h

theorem isCancelled_storeCancel (s : SyncState) (k j : Nat) :
    (s.storeCancel k).isCancelled j = true ↔
      s.isCancelled j = true ∨ j = k ∧ j < s.controls.length := by
  simp only [SyncState.isCancelled,SyncState.storeCancel,List.getElem?_modify]
  by_cases hk : k = j
  · subst hk
    by_cases hlt : k < s.controls.length
    · simp [hlt]
    · simp [hlt]
  · simp [hk,Ne.symm hk]

theorem isStoppedMode_storeStoppedMode (s : SyncState) (k j : Nat) :
    (s.storeStoppedMode k).isStoppedMode j = true ↔
      s.isStoppedMode j = true ∨ j = k ∧ j < s.controls.length := by
  simp only [SyncState.isStoppedMode,SyncState.storeStoppedMode,List.getElem?_modify]
  by_cases hk : k = j
  · subst hk
    by_cases hlt : k < s.controls.length
    · simp [hlt,stoppedSyncMode,migrationPreparationSyncMode]
    · simp [hlt]
  · simp [hk,Ne.symm hk]

theorem isStoppedMode_storeCancel (s : SyncState) (k j : Nat) :
    (s.storeCancel k).isStoppedMode j = s.isStoppedMode j := by
  simp only [SyncState.isStoppedMode,SyncState.storeCancel,List.getElem?_modify]
  by_cases hk : k = j
  · cases s.controls[j]? <;> simp [hk]
  · simp [hk]

theorem isCancelled_storeStoppedMode (s : SyncState) (k j : Nat) :
    (s.storeStoppedMode k).isCancelled j = s.isCancelled j := by
  simp only [SyncState.isCancelled,SyncState.storeStoppedMode,List.getElem?_modify]
  by_cases hk : k = j
  · cases s.controls[j]? <;> simp [hk]
  · simp [hk]

theorem SyncStep.stopsControl (hlane : thread.holdsLane = false) (hlane' : thread'.holdsLane = false)
    (hobserves : thread'.observes = thread.observes) (hstops : thread.stops = some k)
    (hstops' : thread'.stops = some k) (htoken : thread.stopsToken = none)
    (hs : s' = s.storeCancel k ∨ s' = s.storeStoppedMode k) : SyncStep s thread s' thread' where
  lane := by
    rw [hlane,hlane']
    rcases hs with rfl | rfl <;> exact .keep
  observerLane := by
    rw [hobserves]
    rcases hs with rfl | rfl <;> exact .keep
  grows := by
    rcases hs with rfl | rfl
    · refine ⟨by simp [SyncState.storeCancel],fun j h => ?_,fun j h => ?_,Nat.le_refl _,fun _ h => h⟩
      · exact (isCancelled_storeCancel s k j).mpr (.inl h)
      · rw [isStoppedMode_storeCancel]
        exact h
    · refine ⟨by simp [SyncState.storeStoppedMode],fun j h => ?_,fun j h => ?_,Nat.le_refl _,
        fun _ h => h⟩
      · rw [isCancelled_storeStoppedMode]
        exact h
      · exact (isStoppedMode_storeStoppedMode s k j).mpr (.inl h)
  cancelled j h := by
    rcases hs with rfl | rfl
    · rw [isCancelled_storeCancel,isStoppedMode_storeCancel] at h
      rcases h with (h | ⟨rfl,-⟩) | h
      · exact .inl (.inl h)
      · exact .inr hstops'
      · exact .inl (.inr h)
    · rw [isStoppedMode_storeStoppedMode,isCancelled_storeStoppedMode] at h
      rcases h with h | h | ⟨rfl,-⟩
      · exact .inl (.inl h)
      · exact .inl (.inr h)
      · exact .inr hstops'
  token _ h := by
    rcases hs with rfl | rfl <;> exact .inl h
  mode := by
    rcases hs with rfl | rfl <;> exact .inl rfl
  observer := by
    rcases hs with rfl | rfl <;> exact .inl rfl
  syncCancel := by
    rcases hs with rfl | rfl <;> exact .inl rfl
  active := by
    rcases hs with rfl | rfl <;> exact .inl rfl
  stops j h := by
    rw [hstops] at h
    rw [hstops',h]
  stopsToken t h := by
    rw [htoken] at h
    cases h

theorem cancelOperation_step {point next : OperationPoint} (h : point.cancel i s = some (s',next)) :
    SyncStep s (.cancelOperation point) s' (.cancelOperation next) := by
  cases point with
  | lock =>
    obtain ⟨control,-,h⟩ := Option.map_eq_some_iff.mp h
    cases control with
    | none =>
      cases h
      exact .quiet rfl rfl (fun _ h => by cases h) (fun _ h => h)
    | some control =>
      cases h
      exact .inLane .keep rfl (.inl rfl) (.inl rfl) (fun _ h => by cases h) (fun _ h => h)
  | storeCancel control =>
    cases h
    exact .stopsControl rfl rfl rfl rfl rfl rfl (.inl rfl)
  | storeMode control =>
    cases h
    exact .stopsControl rfl rfl rfl rfl rfl rfl (.inr rfl)
  | unlock control =>
    cases h
    exact .inLane .keep rfl (.inl rfl) (.inl rfl) (fun _ h => h) (fun _ h => h)
  | returned => cases h

theorem endOperation_step {point next : OperationPoint} (h : point.end s = some (s',next)) :
    SyncStep s (.endOperation point) s' (.endOperation next) := by
  cases point with
  | lock =>
    obtain ⟨control,-,h⟩ := Option.map_eq_some_iff.mp h
    have hlock : SyncStep s (.endOperation .lock) { s with active := none } (.endOperation next) := {
      lane := .keep
      observerLane := .keep
      grows := ⟨Nat.le_refl _,fun _ h => h,fun _ h => h,Nat.le_refl _,fun _ h => h⟩
      cancelled := fun _ h => .inl h
      token := fun _ h => .inl h
      mode := .inl rfl
      observer := .inl rfl
      syncCancel := .inl rfl
      active := .inr (.inl rfl)
      stops := fun _ h => by cases h
      stopsToken := fun _ h => h }
    cases control <;> cases h <;> exact hlock
  | storeCancel control =>
    cases h
    exact .stopsControl rfl rfl rfl rfl rfl rfl (.inl rfl)
  | storeMode control =>
    cases h
    exact .stopsControl rfl rfl rfl rfl rfl rfl (.inr rfl)
  | unlock | returned => cases h

theorem getElem?_controls_append {c : MigrationPreparationControl} {P : MigrationPreparationControl → Bool}
    (hc : P c = false) (xs : List MigrationPreparationControl) (j : Nat) :
    (xs ++ [c])[j]?.any P = xs[j]?.any P := by
  by_cases hj : j < xs.length
  · rw [List.getElem?_append_left hj]
  · rw [List.getElem?_append_right (by omega),List.getElem?_eq_none (by omega : xs.length ≤ j)]
    cases h : j - xs.length with
    | zero => simp [hc]
    | succ n => simp

theorem beginOperation_step {returned : Option Nat} :
    SyncStep s (.beginOperation none) s.beginOperation.1 (.beginOperation (some returned)) := by
  rw [SyncState.beginOperation]
  split
  · exact .quiet rfl rfl (fun _ h => h) (fun _ h => h)
  · have hcancelled (j : Nat) : SyncState.isCancelled { s with
        active := some s.controls.length
        controls := s.controls ++ [MigrationPreparationControl.new] } j = s.isCancelled j :=
      getElem?_controls_append rfl s.controls j
    have hstopped (j : Nat) : SyncState.isStoppedMode { s with
        active := some s.controls.length
        controls := s.controls ++ [MigrationPreparationControl.new] } j = s.isStoppedMode j :=
      getElem?_controls_append rfl s.controls j
    exact {
      lane := .keep
      observerLane := .keep
      grows := ⟨by simp,fun j h => (hcancelled j).trans h,fun j h => (hstopped j).trans h,
        Nat.le_refl _,fun _ h => h⟩
      cancelled := fun j h => by
        rw [hcancelled,hstopped] at h
        exact .inl h
      token := fun _ h => .inl h
      mode := .inl rfl
      observer := .inl rfl
      syncCancel := .inl rfl
      active := .inr (.inr ⟨rfl,by simp⟩)
      stops := fun _ h => h
      stopsToken := fun _ h => h }

theorem SyncStep.atObserver {observer : MempoolObserverState} {tokens : List Bool}
    (hlane : thread'.holdsLane = thread.holdsLane)
    (hobserver : FlagStep s.observer.running thread.observes observer.running thread'.observes)
    (hchange : observer = s.observer ∨ observer = ⟨false,none⟩ ∧ thread.observes = true ∨
      observer = ⟨true,some s.tokens.length⟩ ∧ s.tokens.length < tokens.length ∧
        s.observer.running = false)
    (hlength : s.tokens.length ≤ tokens.length)
    (hkept : ∀ t : Nat, s.tokens[t]? = some true → tokens[t]? = some true)
    (hnew : ∀ t : Nat, tokens[t]? = some true →
      s.tokens[t]? = some true ∨ thread'.stopsToken = some t)
    (hstops : ∀ k, thread.stops = some k → thread'.stops = some k)
    (hstopsToken : ∀ t, thread.stopsToken = some t → thread'.stopsToken = some t) :
    SyncStep s thread { s with observer := observer, tokens := tokens } thread' where
  lane := by
    rw [hlane]
    exact .keep
  observerLane := hobserver
  grows := ⟨Nat.le_refl _,fun _ h => h,fun _ h => h,hlength,hkept⟩
  cancelled _ h := .inl h
  token := hnew
  mode := .inl rfl
  observer := hchange
  syncCancel := .inl rfl
  active := .inl rfl
  stops := hstops
  stopsToken := hstopsToken

theorem getElem?_tokens_append {tokens : List Bool} {t : Nat} :
    (tokens ++ [false])[t]? = some true ↔ tokens[t]? = some true := by
  by_cases ht : t < tokens.length
  · rw [List.getElem?_append_left ht]
  · rw [List.getElem?_append_right (by omega),List.getElem?_eq_none (by omega : tokens.length ≤ t)]
    cases h : t - tokens.length with
    | zero => simp
    | succ n => simp

theorem observer_step {point next : ObserverPoint} (h : point.proceed s = some (s',next)) :
    SyncStep s (.startMempoolObserver point) s' (.startMempoolObserver next) := by
  cases point with
  | install =>
    rw [ObserverPoint.proceed] at h
    split at h
    · cases h
      exact .quiet rfl rfl (fun _ h => h) (fun _ h => h)
    · rename_i hfree
      cases h
      have hfree : s.observer.running = false := by simpa using hfree
      refine .atObserver rfl ?_ (.inr (.inr ⟨rfl,by simp,hfree⟩)) (by simp)
        (fun t h => getElem?_tokens_append.mpr h) (fun t h => .inl (getElem?_tokens_append.mp h)) (fun _ h => h) (fun _ h => h)
      rw [hfree]
      exact .take
  | running token answered =>
    cases answered with
    | none | some =>
      cases h
      exact .quiet rfl rfl (fun _ h => h) (fun _ h => h)
  | teardown token result =>
    cases h
    exact .atObserver rfl .release (.inr (.inl ⟨rfl,rfl⟩)) (Nat.le_refl _) (fun _ h => h)
      (fun _ h => .inl h) (fun _ h => h) (fun _ h => h)
  | returned => cases h

theorem stopMempoolObserver_step :
    SyncStep s (.stopMempoolObserver none) s.stopMempoolObserver.1
      (.stopMempoolObserver (some s.stopMempoolObserver.2)) := by
  rw [SyncState.stopMempoolObserver]
  split
  · exact .quiet rfl rfl (fun _ h => h) (fun _ h => by cases h)
  · rename_i token _
    refine .atObserver rfl .keep (.inl rfl) (by simp) (fun t h => ?_) (fun t h => ?_) (fun _ h => h)
      (fun _ h => by cases h)
    · by_cases ht : token = t
      · subst ht
        rw [List.getElem?_set_self (List.getElem?_eq_some_iff.mp h).1]
      · rw [List.getElem?_set_ne ht]
        exact h
    · by_cases ht : token = t
      · subst ht
        exact .inr rfl
      · rw [List.getElem?_set_ne ht] at h
        exact .inl h

theorem SyncThread.proceed_step (h : thread.proceed i s = some (s',thread')) :
    SyncStep s thread s' thread' := by
  cases thread with
  | runFullSync mode point =>
    obtain ⟨⟨s₁,next⟩,hproceed,h⟩ := Option.map_eq_some_iff.mp h
    cases h
    exact fullSync_step hproceed
  | cancelFullSync returned =>
    cases returned with
    | false =>
      cases h
      exact .inLane .keep rfl (.inl rfl) (.inr (.inl ⟨rfl,rfl⟩)) (fun _ h => h) (fun _ h => h)
    | true => cases h
  | beginOperation returned =>
    cases returned with
    | none =>
      simp only [SyncThread.proceed,Option.ite_none_right_eq_some,Option.some.injEq,
        Prod.mk.injEq] at h
      obtain ⟨-,rfl,rfl⟩ := h
      exact beginOperation_step
    | some => cases h
  | cancelOperation point =>
    obtain ⟨⟨s₁,next⟩,hproceed,h⟩ := Option.map_eq_some_iff.mp h
    cases h
    exact cancelOperation_step hproceed
  | endOperation point =>
    obtain ⟨⟨s₁,next⟩,hproceed,h⟩ := Option.map_eq_some_iff.mp h
    cases h
    exact endOperation_step hproceed
  | runSync point =>
    obtain ⟨⟨s₁,next⟩,hproceed,h⟩ := Option.map_eq_some_iff.mp h
    cases h
    exact runSync_step hproceed
  | advance credential point =>
    obtain ⟨next,-,h⟩ := Option.map_eq_some_iff.mp h
    cases h
    exact .quiet rfl rfl (fun _ h => h) (fun _ h => h)
  | startMempoolObserver point =>
    obtain ⟨⟨s₁,next⟩,hproceed,h⟩ := Option.map_eq_some_iff.mp h
    cases h
    exact observer_step hproceed
  | stopMempoolObserver returned =>
    cases returned with
    | none =>
      cases h
      exact stopMempoolObserver_step
    | some => cases h

theorem SyncThread.ends_step {body : BodyEnd} (h : thread.ends body = some thread') :
    SyncStep s thread s thread' := by
  cases thread with
  | runFullSync mode point =>
    obtain ⟨next,hends,rfl⟩ := Option.map_eq_some_iff.mp h
    cases point with
    | setup | createRuntime | body =>
      cases hends
      exact .quiet rfl rfl (fun _ h => h) (fun _ h => h)
    | acquire | storeMode | resetCancel | release | returned => cases hends
  | runSync point =>
    obtain ⟨next,hends,rfl⟩ := Option.map_eq_some_iff.mp h
    cases point with
    | createRuntime | body =>
      cases hends
      exact .quiet rfl rfl (fun _ h => h) (fun _ h => h)
    | takeControl | acquire | release | returned => cases hends
  | advance credential point =>
    obtain ⟨next,-,rfl⟩ := Option.map_eq_some_iff.mp h
    exact .quiet rfl rfl (fun _ h => h) (fun _ h => h)
  | startMempoolObserver point =>
    obtain ⟨next,hends,rfl⟩ := Option.map_eq_some_iff.mp h
    cases point with
    | running =>
      cases hends
      exact .quiet rfl rfl (fun _ h => h) (fun _ h => h)
    | install | teardown | returned => cases hends
  | cancelFullSync | beginOperation | cancelOperation | endOperation | stopMempoolObserver => cases h

theorem advance_step {choice : SyncChoice}
    (h : syncThreads.advance i choice s thread = some (s',thread')) :
    SyncStep s thread s' thread' := by
  cases choice with
  | proceed => exact SyncThread.proceed_step h
  | ends body =>
    obtain ⟨next,hends,h⟩ := Option.map_eq_some_iff.mp h
    cases h
    exact SyncThread.ends_step hends

end

end CoppiceWallet.SyncControl
