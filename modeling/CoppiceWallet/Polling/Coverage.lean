import CoppiceWallet.Lib.Result
import CoppiceWallet.Polling.SyncNotifier

/-! # Polling that comes back -/

namespace CoppiceWallet.Polling

open CoppiceWallet.Lib

/-- Calls that arm the timer where they end, in a generation. -/
def Awaited.rearms (gen : Nat) : Awaited → Bool
  | startInitialSync | startSyncAnyway | cancellingForRestart | waitingForRestart => true
  | recovery g | pollCheck g => decide (g = gen)
  | stoppingSync pause | cancellingSync pause | waitingForPause pause | walletMutation pause =>
    pause.hadActiveSync || pause.hadPolling
  | _ => false

/-- Calls on the way to the stream of a generation, or about to give its sync up. -/
def Awaited.owns (gen : Nat) : Awaited → Bool
  | dbPath g | preflight g | lastHandling g _ => decide (g = gen)
  | stoppingSync _ | cancellingForRestart => true
  | _ => false

def Rearms (s : SyncNotifier) : Prop :=
  s.pollTimer = true ∨ ∃ call ∈ s.awaited, call.rearms s.syncGen = true

def Covered (s : SyncNotifier) : Prop := s.isSyncing = true ∨ Rearms s

/-- A sync that is under way has a stream whose end will be seen, or will have. -/
def Owned (s : SyncNotifier) : Prop :=
  s.isSyncing = true → s.syncGen ∈ s.streams ∨ ∃ call ∈ s.awaited, call.owns s.syncGen = true

/-- The condition on a step and the state before it. A stream that ends without an applied
completion, and a pause that clears the sync, find the timer armed or a call that will arm it. A
pause that found only the mempool observer at work leaves such a call alone. -/
def Guarded (move : SyncMove) (s : SyncNotifier) : Prop :=
  match move with
  | .streamDone gen => gen = s.syncGen → s.isSyncing = true →
      s.lastForegroundProgress.map Prod.snd ≠ some true → Rearms s
  | .lastProgressHandled gen _ => gen = s.syncGen → s.isSyncing = true → Rearms s
  | .syncStopping _ => s.isSyncing = true → Rearms s
  | .pauseForWalletMutation rustRunning mempoolRunning =>
      (s.walletMutationSyncPauseSnapshot rustRunning mempoolRunning) = ⟨false,false,true⟩ →
        ∃ call ∈ s.awaited, call.rearms (s.syncGen + 1) = true
  | _ => True

instance (s : SyncNotifier) : Decidable (Rearms s) :=
  inferInstanceAs (Decidable (s.pollTimer = true ∨ ∃ call ∈ s.awaited, call.rearms s.syncGen = true))

instance (move : SyncMove) (s : SyncNotifier) : Decidable (Guarded move s) :=
  match move with
  | .streamDone gen => inferInstanceAs (Decidable (gen = s.syncGen → s.isSyncing = true →
      s.lastForegroundProgress.map Prod.snd ≠ some true → Rearms s))
  | .lastProgressHandled gen _ =>
    inferInstanceAs (Decidable (gen = s.syncGen → s.isSyncing = true → Rearms s))
  | .syncStopping _ => inferInstanceAs (Decidable (s.isSyncing = true → Rearms s))
  | .pauseForWalletMutation rustRunning mempoolRunning => inferInstanceAs (Decidable (
      (s.walletMutationSyncPauseSnapshot rustRunning mempoolRunning) = ⟨false,false,true⟩ →
        ∃ call ∈ s.awaited, call.rearms (s.syncGen + 1) = true))
  | .startSync _ | .accountAdded _ | .startSyncAnyway _ _ _ | .restartSync | .operationStarted
  | .operationEnded _ | .pollTick | .resumed | .progress _ _ | .streamError _
  | .initialSyncReady _ | .dbPathResolved _ _ | .preflightEnded _ _ | .progressHandled _ _ _
  | .recovered _ _ _ | .polled _ _ _ | .syncCancelled _ | .pauseWaited _ _ _
  | .resumeAfterWalletMutation _ _ | .startSyncAnywayWaited _ _ | .restartCancelled
  | .restartWaited _ => inferInstanceAs (Decidable True)

variable {s s' : SyncNotifier} {call : Awaited} {move : SyncMove}

theorem exists_erase {p : Awaited → Bool} {calls : List Awaited} (hcall : p call = false)
    (h : ∃ other ∈ calls, p other = true) : ∃ other ∈ calls.erase call, p other = true := by
  obtain ⟨other,hother,hp⟩ := h
  have hne : other ≠ call := by
    intro heq
    rw [heq,hcall] at hp
    cases hp
  exact ⟨other,(List.mem_erase_of_ne hne).mpr hother,hp⟩

theorem exists_cons {p : Awaited → Bool} {calls : List Awaited}
    (h : ∃ other ∈ calls, p other = true) : ∃ other ∈ call :: calls, p other = true := by
  obtain ⟨other,hother,hp⟩ := h
  exact ⟨other,List.mem_cons_of_mem _ hother,hp⟩

theorem rearms_await_self (h : call.rearms s.syncGen = true) : Rearms (s.await call) :=
  .inr ⟨call,List.mem_cons_self,h⟩

theorem Rearms.await (h : Rearms s) : Rearms (s.await call) := h.imp id exists_cons

theorem rearms_startPolling (s : SyncNotifier) : Rearms s.startPolling := .inl rfl

theorem Rearms.erase (h : Rearms s) (hcall : call.rearms s.syncGen = false) :
    Rearms { s with awaited := s.awaited.erase call } := h.imp id (exists_erase hcall)

theorem Covered.erase (h : Covered s) (hcall : call.rearms s.syncGen = false) :
    Covered { s with awaited := s.awaited.erase call } :=
  h.imp id fun hrearms => hrearms.erase hcall

theorem Rearms.handOver {next : Awaited} (h : Rearms s)
    (hnext : call.rearms s.syncGen = true → next.rearms s.syncGen = true) :
    Rearms (SyncNotifier.await { s with awaited := s.awaited.erase call } next) := by
  cases hcall : call.rearms s.syncGen with
  | true => exact rearms_await_self (hnext hcall)
  | false => exact (h.erase hcall).await

theorem Covered.handOver {next : Awaited} (h : Covered s)
    (hnext : call.rearms s.syncGen = true → next.rearms s.syncGen = true) :
    Covered (SyncNotifier.await { s with awaited := s.awaited.erase call } next) :=
  h.imp id fun hrearms => hrearms.handOver hnext

theorem rearms_await_cancel (s : SyncNotifier) (call : Awaited) :
    Rearms (s.cancelSubscription.await call) ↔ Rearms (s.await call) := by
  rw [SyncNotifier.cancelSubscription]
  split
  · exact Iff.rfl
  · exact Iff.rfl

theorem Covered.await (h : Covered s) : Covered (s.await call) :=
  h.imp id Rearms.await

theorem covered_startPolling (s : SyncNotifier) : Covered s.startPolling :=
  .inr (rearms_startPolling s)

theorem covered_startSync {rustRunning : Bool} (h : Covered s) :
    Covered (s.startSync rustRunning) := by
  rw [SyncNotifier.startSync]
  split
  · exact h
  · split
    · exact h
    · exact .inl rfl

theorem goOn_ok {next : SyncNotifier → SyncNotifier} (h : goOn call s next = .ok s') :
    call ∈ s.awaited ∧ s' = next { s with awaited := s.awaited.erase call } := by
  rw [goOn] at h
  split at h
  · rename_i hcall
    cases h
    exact ⟨hcall,rfl⟩
  · cases h

theorem onStream_ok {gen : Nat} {next : SyncNotifier → SyncNotifier}
    (h : onStream gen s next = .ok s') :
    gen ∈ s.streams ∧ s' = if gen = s.syncGen then next s else s := by
  rw [onStream] at h
  split at h
  · rename_i hgen
    cases h
    exact ⟨hgen,rfl⟩
  · cases h

section

variable {gen : Nat} {rustRunning : Bool} {pause : WalletMutationSyncPause}

theorem covered_checkAndSync (h : Covered s) : Covered s.checkAndSync := by
  rw [SyncNotifier.checkAndSync]
  split
  · exact h
  · right
    right
    exact ⟨.pollCheck s.syncGen,List.mem_cons_self,decide_eq_true rfl⟩

theorem covered_recoverSync (s : SyncNotifier) : Covered (s.recoverSync s.syncGen) := by
  right
  right
  exact ⟨.recovery s.syncGen,List.mem_cons_self,decide_eq_true rfl⟩

theorem covered_startSyncAnyway {cancelRequested staleMempoolRunning : Bool} (h : Covered s) :
    Covered (s.startSyncAnyway rustRunning cancelRequested staleMempoolRunning) := by
  rw [SyncNotifier.startSyncAnyway]
  split
  · exact h
  · split
    · exact h.await
    · split
      · exact h
      · exact covered_startPolling _

theorem covered_resume (h : (pause.hadActiveSync || pause.hadPolling) = false → Covered s) :
    Covered (s.resumeAfterWalletMutation pause rustRunning) := by
  rw [SyncNotifier.resumeAfterWalletMutation]
  by_cases hpolling : (pause.hadPolling || pause.hadActiveSync) = true
  · rw [if_pos hpolling]
    exact covered_startPolling _
  · rw [if_neg hpolling]
    simp only [Bool.or_eq_true,not_or,Bool.not_eq_true] at hpolling
    rw [hpolling.2]
    apply h
    simp [hpolling]

theorem covered_onDbPath {found : Bool} (h : Covered s) : Covered (s.onDbPath gen found) := by
  rw [SyncNotifier.onDbPath]
  split
  · rename_i hgen
    split
    · exact h.await
    · rw [hgen]
      exact covered_recoverSync s
  · exact h

theorem covered_onPreflight {outcome : PreflightOutcome} (h : Covered s) :
    Covered (s.onPreflight gen outcome) := by
  cases outcome with
  | endpointFailed =>
    rw [SyncNotifier.onPreflight]
    split
    · exact covered_startPolling _
    · exact h
  | setupFailed =>
    rw [SyncNotifier.onPreflight]
    split
    · rename_i hgen
      rw [hgen]
      exact covered_recoverSync s
    · exact h
  | attached => exact h

theorem covered_onHandled {version : Nat} {isComplete read : Bool} (h : Covered s) :
    Covered (s.onHandled version isComplete read) := by
  rw [SyncNotifier.onHandled]
  split
  · exact covered_startPolling _
  · exact h

theorem covered_onRecovered {switched : Bool} (h : gen ≠ s.syncGen → Covered s) :
    Covered (s.onRecovered gen switched rustRunning) := by
  rw [SyncNotifier.onRecovered]
  split
  · split
    · exact covered_startPolling _
    · exact covered_startPolling _
  · rename_i hgen
    exact h hgen

@[simp] theorem startSync_syncGen (s : SyncNotifier) (rustRunning : Bool) :
    (s.startSync rustRunning).syncGen = s.syncGen ∨ (s.startSync rustRunning).isSyncing = true := by
  rw [SyncNotifier.startSync]
  split
  · exact .inl rfl
  · split
    · exact .inl rfl
    · exact .inr rfl

theorem covered_onPolled {tip : PolledTip} (h : gen ≠ s.syncGen → Covered s) :
    Covered (s.onPolled gen tip rustRunning) := by
  rw [SyncNotifier.onPolled]
  dsimp only
  by_cases hstart : tip = .known true ∧ gen = s.syncGen
  · rw [if_pos hstart]
    split
    · exact covered_startPolling _
    · rename_i hgen
      rcases startSync_syncGen s rustRunning with hsame | hsyncing
      · exact absurd (hstart.2.trans hsame.symm) hgen
      · exact .inl hsyncing
  · rw [if_neg hstart]
    split
    · exact covered_startPolling _
    · rename_i hgen
      exact h hgen

theorem covered_onDone (h : Covered s) (hguard : s.isSyncing = true →
    s.lastForegroundProgress.map Prod.snd ≠ some true → Rearms s) : Covered s.onDone := by
  rw [SyncNotifier.onDone]
  dsimp only
  split
  · rename_i hsyncing
    split
    · exact .inl hsyncing
    · rename_i hlast
      right
      apply hguard hsyncing
      intro htrue
      rw [Option.map_eq_some_iff] at htrue
      obtain ⟨progress,hprogress,hcomplete⟩ := htrue
      apply hlast progress.1
      rw [hprogress,← hcomplete]
  · exact h

theorem eq_observer_only (hwork : pause.hadWorkToPause = true)
    (hnone : (pause.hadActiveSync || pause.hadPolling) = false) : pause = ⟨false,false,true⟩ := by
  have hparts := Bool.or_eq_false_iff.mp hnone
  rw [WalletMutationSyncPause.hadWorkToPause,hnone,Bool.false_or] at hwork
  cases pause with
  | mk hadActiveSync hadPolling hadMempoolObserver =>
    dsimp only at hparts hwork
    rw [hparts.1,hparts.2,hwork]

theorem covered_pause {mempoolRunning : Bool} (h : Covered s)
    (hguard : Guarded (.pauseForWalletMutation rustRunning mempoolRunning) s) :
    Covered (s.pauseForWalletMutation rustRunning mempoolRunning) := by
  rw [SyncNotifier.pauseForWalletMutation]
  split
  · rename_i hwork
    right
    cases hactive : (s.walletMutationSyncPauseSnapshot rustRunning mempoolRunning).hadActiveSync ||
      (s.walletMutationSyncPauseSnapshot rustRunning mempoolRunning).hadPolling with
    | true => exact rearms_await_self hactive
    | false =>
      have hrearms := hguard (eq_observer_only hwork hactive)
      exact .inr (exists_cons hrearms)
  · exact h.await

end

theorem covered_step (h : Covered s) (hguard : Guarded move s) (hstep : syncStep move s = .ok s') :
    Covered s' := by
  cases move with
  | startSync rustRunning =>
    cases hstep
    exact covered_startSync h
  | accountAdded rustRunning =>
    cases hstep
    exact covered_startPolling _
  | startSyncAnyway rustRunning cancelRequested staleMempoolRunning =>
    cases hstep
    exact covered_startSyncAnyway h
  | restartSync =>
    cases hstep
    exact .inr (rearms_await_self rfl)
  | operationStarted =>
    cases hstep
    exact h
  | operationEnded rustRunning =>
    rw [syncStep] at hstep
    split at hstep
    · dsimp only at hstep
      split at hstep
      · cases hstep
        apply covered_startSync
        exact h
      · cases hstep
        exact h
    · cases hstep
  | pollTick =>
    rw [syncStep] at hstep
    split at hstep
    · cases hstep
      exact covered_checkAndSync h
    · cases hstep
  | resumed =>
    cases hstep
    exact covered_checkAndSync h
  | pauseForWalletMutation rustRunning mempoolRunning =>
    cases hstep
    exact covered_pause h hguard
  | progress gen isComplete =>
    rw [syncStep] at hstep
    have hs' := (onStream_ok hstep).2
    rw [hs']
    split
    · exact h.await
    · exact h
  | streamDone gen =>
    obtain ⟨t,ht,hs'⟩ := bind_ok hstep
    have hdone := (onStream_ok ht).2
    cases hs'
    rw [hdone]
    split
    · rename_i hgen
      exact covered_onDone h (hguard hgen)
    · exact h
  | streamError gen =>
    rw [syncStep] at hstep
    have hs' := (onStream_ok hstep).2
    rw [hs']
    split
    · rename_i hgen
      rw [hgen]
      exact covered_recoverSync s
    · exact h
  | initialSyncReady rustRunning =>
    rw [syncStep] at hstep
    rw [(goOn_ok hstep).2]
    exact covered_startPolling _
  | dbPathResolved gen found =>
    rw [syncStep] at hstep
    rw [(goOn_ok hstep).2]
    exact covered_onDbPath (h.erase rfl)
  | preflightEnded gen outcome =>
    rw [syncStep] at hstep
    rw [(goOn_ok hstep).2]
    exact covered_onPreflight (h.erase rfl)
  | progressHandled version isComplete read =>
    rw [syncStep] at hstep
    rw [(goOn_ok hstep).2]
    exact covered_onHandled (h.erase rfl)
  | lastProgressHandled gen version =>
    rw [syncStep] at hstep
    split at hstep
    · cases hstep
    · rw [(goOn_ok hstep).2]
      split
      · rename_i hown
        exact .inr ((hguard hown.1 hown.2).erase rfl)
      · exact h.erase rfl
  | recovered gen switched rustRunning =>
    rw [syncStep] at hstep
    rw [(goOn_ok hstep).2]
    exact covered_onRecovered fun hgen => h.erase (by simp [Awaited.rearms,hgen])
  | polled gen tip rustRunning =>
    rw [syncStep] at hstep
    rw [(goOn_ok hstep).2]
    exact covered_onPolled fun hgen => h.erase (by simp [Awaited.rearms,hgen])
  | syncStopping pause =>
    have hrearms : Rearms s := by
      rcases h with hsyncing | hrearms
      · exact hguard hsyncing
      · exact hrearms
    rw [syncStep] at hstep
    rw [(goOn_ok hstep).2]
    right
    rw [rearms_await_cancel]
    exact hrearms.handOver id
  | syncCancelled pause =>
    rw [syncStep] at hstep
    rw [(goOn_ok hstep).2]
    have hnext : Covered (SyncNotifier.await { s with awaited := s.awaited.erase (.cancellingSync pause) }
        (.waitingForPause pause)) := h.handOver id
    exact hnext
  | pauseWaited pause stopped rustRunning =>
    rw [syncStep] at hstep
    rw [(goOn_ok hstep).2]
    split
    · exact h.handOver id
    · exact covered_resume fun hflags => h.erase hflags
  | resumeAfterWalletMutation pause rustRunning =>
    rw [syncStep] at hstep
    rw [(goOn_ok hstep).2]
    exact covered_resume fun hflags => h.erase hflags
  | startSyncAnywayWaited stopped rustRunning =>
    rw [syncStep] at hstep
    rw [(goOn_ok hstep).2]
    split
    · exact covered_startPolling _
    · exact covered_startPolling _
  | restartCancelled =>
    rw [syncStep] at hstep
    rw [(goOn_ok hstep).2]
    exact .inr (rearms_await_self rfl)
  | restartWaited rustRunning =>
    rw [syncStep] at hstep
    rw [(goOn_ok hstep).2]
    exact covered_startPolling _

theorem Rearms.of_erase (h : Rearms { s with awaited := s.awaited.erase call }) : Rearms s := by
  refine h.imp id ?_
  intro hcall
  obtain ⟨other,hother,hrearms⟩ := hcall
  exact ⟨other,List.mem_of_mem_erase hother,hrearms⟩

theorem uncovered_step (hguard : ¬ Guarded move s) (hstep : syncStep move s = .ok s') :
    s'.isSyncing = false ∧ ¬ Rearms s' := by
  cases move with
  | streamDone gen =>
    simp only [Guarded,Classical.not_imp] at hguard
    obtain ⟨hgen,hsyncing,hlast,hrearms⟩ := hguard
    obtain ⟨t,ht,hs'⟩ := bind_ok hstep
    have hdone := (onStream_ok ht).2
    have hclean : SyncNotifier.onDone s = SyncNotifier.cleanUp { s with syncSub := none } := by
      rw [SyncNotifier.onDone]
      dsimp only
      rw [if_pos hsyncing]
      split
      · rename_i hcomplete
        rw [hcomplete] at hlast
        exact absurd rfl hlast
      · rfl
    rw [if_pos hgen,hclean] at hdone
    cases hs'
    rw [hdone]
    exact ⟨rfl,hrearms⟩
  | lastProgressHandled gen version =>
    simp only [Guarded,Classical.not_imp] at hguard
    obtain ⟨hgen,hsyncing,hrearms⟩ := hguard
    rw [syncStep] at hstep
    split at hstep
    · cases hstep
    · rw [(goOn_ok hstep).2,if_pos ⟨hgen,hsyncing⟩]
      exact ⟨rfl,fun h => hrearms h.of_erase⟩
  | syncStopping pause =>
    simp only [Guarded,Classical.not_imp] at hguard
    rw [syncStep] at hstep
    have hs' := goOn_ok hstep
    rw [hs'.2]
    constructor
    · rw [SyncNotifier.cancelSubscription]
      split
      · rfl
      · rfl
    · rw [rearms_await_cancel]
      intro h
      apply hguard.2
      rcases h with htimer | ⟨call,hcall,hrearms⟩
      · exact .inl htimer
      · rcases List.mem_cons.mp hcall with heq | hcall
        · rw [heq] at hrearms
          exact .inr ⟨.stoppingSync pause,hs'.1,hrearms⟩
        · exact .inr ⟨call,List.mem_of_mem_erase hcall,hrearms⟩
  | pauseForWalletMutation rustRunning mempoolRunning =>
    simp only [Guarded,Classical.not_imp] at hguard
    obtain ⟨hpause,hrearms⟩ := hguard
    have hsyncing : s.isSyncing = false := by
      have hactive := congrArg WalletMutationSyncPause.hadActiveSync hpause
      exact (Bool.or_eq_false_iff.mp hactive).1
    cases hstep
    rw [SyncNotifier.pauseForWalletMutation,hpause]
    refine ⟨hsyncing,?_⟩
    intro h
    rcases h with htimer | ⟨call,hcall,hcallRearms⟩
    · cases htimer
    · rcases List.mem_cons.mp hcall with heq | hcall
      · rw [heq] at hcallRearms
        cases hcallRearms
      · exact hrearms ⟨call,hcall,hcallRearms⟩
  | _ => exact absurd trivial hguard

theorem Owned.erase (h : Owned s) (hcall : call.owns s.syncGen = false) :
    Owned { s with awaited := s.awaited.erase call } :=
  fun hsyncing => (h hsyncing).imp id (exists_erase hcall)

theorem Owned.await (h : Owned s) : Owned (s.await call) :=
  fun hsyncing => (h hsyncing).imp id exists_cons

theorem owned_await_self (h : call.owns s.syncGen = true) : Owned (s.await call) :=
  fun _ => .inr ⟨call,List.mem_cons_self,h⟩

theorem owned_of_not_syncing (h : s.isSyncing = false) : Owned s := by
  intro hsyncing
  rw [h] at hsyncing
  cases hsyncing

theorem owned_startSync {rustRunning : Bool} (h : Owned s) : Owned (s.startSync rustRunning) := by
  rw [SyncNotifier.startSync]
  split
  · exact h
  · split
    · exact h
    · intro _
      exact .inr ⟨.dbPath (s.syncGen + 1),List.mem_cons_self,decide_eq_true rfl⟩

theorem Owned.startPolling (h : Owned s) : Owned s.startPolling := h

theorem owned_resume {pause : WalletMutationSyncPause} {rustRunning : Bool} (h : Owned s) :
    Owned (s.resumeAfterWalletMutation pause rustRunning) := by
  rw [SyncNotifier.resumeAfterWalletMutation]
  have hstart : Owned (if pause.hadActiveSync then s.startSync rustRunning else s) := by
    split
    · exact owned_startSync h
    · exact h
  split
  · exact hstart.startPolling
  · exact hstart

theorem owned_checkAndSync (h : Owned s) : Owned s.checkAndSync := by
  rw [SyncNotifier.checkAndSync]
  split
  · exact h
  · exact Owned.await (s := s) h

theorem owned_pause {rustRunning mempoolRunning : Bool} (h : Owned s) :
    Owned (s.pauseForWalletMutation rustRunning mempoolRunning) := by
  rw [SyncNotifier.pauseForWalletMutation]
  split
  · exact owned_await_self rfl
  · exact h.await

theorem owned_onDbPath {gen : Nat} {found : Bool} (h : gen ≠ s.syncGen → Owned s) :
    Owned (s.onDbPath gen found) := by
  rw [SyncNotifier.onDbPath]
  split
  · rename_i hgen
    split
    · exact owned_await_self (decide_eq_true hgen)
    · exact owned_of_not_syncing rfl
  · rename_i hgen
    exact h hgen

theorem owned_onPreflight {gen : Nat} {outcome : PreflightOutcome}
    (h : gen ≠ s.syncGen → Owned s) : Owned (s.onPreflight gen outcome) := by
  cases outcome with
  | endpointFailed =>
    rw [SyncNotifier.onPreflight]
    split
    · exact owned_of_not_syncing rfl
    · rename_i hgen
      exact h hgen
  | setupFailed =>
    rw [SyncNotifier.onPreflight]
    split
    · exact owned_of_not_syncing rfl
    · rename_i hgen
      exact h hgen
  | attached =>
    intro hsyncing
    by_cases hgen : gen = s.syncGen
    · left
      rw [hgen]
      exact List.mem_cons_self
    · exact (h hgen hsyncing).imp (List.mem_cons_of_mem _) id

theorem owned_onHandled {version : Nat} {isComplete read : Bool} (h : Owned s) :
    Owned (s.onHandled version isComplete read) := by
  rw [SyncNotifier.onHandled]
  split
  · exact owned_of_not_syncing rfl
  · exact h

theorem owned_onRecovered {gen : Nat} {switched rustRunning : Bool} (h : Owned s) :
    Owned (s.onRecovered gen switched rustRunning) := by
  rw [SyncNotifier.onRecovered]
  split
  · split
    · exact (owned_startSync h).startPolling
    · exact h
  · exact h

theorem owned_onPolled {gen : Nat} {tip : PolledTip} {rustRunning : Bool} (h : Owned s) :
    Owned (s.onPolled gen tip rustRunning) := by
  rw [SyncNotifier.onPolled]
  have hstart : Owned (if tip = .known true ∧ gen = s.syncGen then s.startSync rustRunning
      else s) := by
    split
    · exact owned_startSync h
    · exact h
  have hafter : ∀ t : SyncNotifier, Owned t → Owned (
      let t := { t with pollCheckInFlight := false }
      if gen = t.syncGen then t.startPolling else t) := by
    intro t ht
    dsimp only
    split
    · exact ht
    · exact ht
  exact hafter _ hstart

theorem owned_streamDone {gen : Nat} (h : Owned s) : Owned
    { (if gen = s.syncGen then s.onDone else s) with
      streams := (if gen = s.syncGen then s.onDone else s).streams.erase gen } := by
  split
  · rw [SyncNotifier.onDone]
    dsimp only
    split
    · split
      · intro _
        exact .inr ⟨_,List.mem_cons_self,decide_eq_true rfl⟩
      · exact owned_of_not_syncing rfl
    · rename_i hsyncing
      exact fun htrue => absurd htrue hsyncing
  · rename_i hgen
    intro hsyncing
    exact (h hsyncing).imp (List.mem_erase_of_ne (Ne.symm hgen)).mpr id

theorem owned_step (h : Owned s) (hstep : syncStep move s = .ok s') : Owned s' := by
  cases move with
  | startSync rustRunning =>
    cases hstep
    exact owned_startSync h
  | accountAdded rustRunning =>
    cases hstep
    exact (owned_startSync h).startPolling
  | startSyncAnyway rustRunning cancelRequested staleMempoolRunning =>
    cases hstep
    rw [SyncNotifier.startSyncAnyway]
    split
    · exact h
    · split
      · exact h.await
      · split
        · exact h
        · exact (owned_startSync h).startPolling
  | restartSync =>
    cases hstep
    exact owned_await_self rfl
  | operationStarted =>
    cases hstep
    exact h
  | operationEnded rustRunning =>
    rw [syncStep] at hstep
    split at hstep
    · dsimp only at hstep
      split at hstep
      · cases hstep
        apply owned_startSync
        exact h
      · cases hstep
        exact h
    · cases hstep
  | pollTick =>
    rw [syncStep] at hstep
    split at hstep
    · cases hstep
      exact owned_checkAndSync h
    · cases hstep
  | resumed =>
    cases hstep
    exact owned_checkAndSync h
  | pauseForWalletMutation rustRunning mempoolRunning =>
    cases hstep
    exact owned_pause h
  | progress gen isComplete =>
    rw [syncStep] at hstep
    rw [(onStream_ok hstep).2]
    split
    · exact Owned.await (s := s) h
    · exact h
  | streamDone gen =>
    obtain ⟨t,ht,hs'⟩ := bind_ok hstep
    have hdone := (onStream_ok ht).2
    cases hs'
    rw [hdone]
    exact owned_streamDone h
  | streamError gen =>
    rw [syncStep] at hstep
    rw [(onStream_ok hstep).2]
    split
    · exact owned_of_not_syncing rfl
    · exact h
  | initialSyncReady rustRunning =>
    rw [syncStep] at hstep
    rw [(goOn_ok hstep).2]
    exact (owned_startSync (h.erase rfl)).startPolling
  | dbPathResolved gen found =>
    rw [syncStep] at hstep
    rw [(goOn_ok hstep).2]
    exact owned_onDbPath fun hgen => h.erase (decide_eq_false hgen)
  | preflightEnded gen outcome =>
    rw [syncStep] at hstep
    rw [(goOn_ok hstep).2]
    exact owned_onPreflight fun hgen => h.erase (decide_eq_false hgen)
  | progressHandled version isComplete read =>
    rw [syncStep] at hstep
    rw [(goOn_ok hstep).2]
    exact owned_onHandled (h.erase rfl)
  | lastProgressHandled gen version =>
    rw [syncStep] at hstep
    split at hstep
    · cases hstep
    · rw [(goOn_ok hstep).2]
      split
      · exact owned_of_not_syncing rfl
      · rename_i hnot
        intro hsyncing
        have hgen : gen ≠ s.syncGen := fun hgen => hnot ⟨hgen,hsyncing⟩
        exact h.erase (decide_eq_false hgen) hsyncing
  | recovered gen switched rustRunning =>
    rw [syncStep] at hstep
    rw [(goOn_ok hstep).2]
    exact owned_onRecovered (h.erase rfl)
  | polled gen tip rustRunning =>
    rw [syncStep] at hstep
    rw [(goOn_ok hstep).2]
    exact owned_onPolled (h.erase rfl)
  | syncStopping pause =>
    rw [syncStep] at hstep
    rw [(goOn_ok hstep).2]
    apply owned_of_not_syncing
    rw [SyncNotifier.cancelSubscription]
    split
    · rfl
    · rfl
  | syncCancelled pause =>
    rw [syncStep] at hstep
    rw [(goOn_ok hstep).2]
    exact Owned.await (s := { s with awaited := s.awaited.erase (.cancellingSync pause) }) (h.erase rfl)
  | pauseWaited pause stopped rustRunning =>
    rw [syncStep] at hstep
    rw [(goOn_ok hstep).2]
    have herased : Owned { s with awaited := s.awaited.erase (.waitingForPause pause) } :=
      h.erase rfl
    split
    · exact herased.await
    · exact owned_resume herased
  | resumeAfterWalletMutation pause rustRunning =>
    rw [syncStep] at hstep
    rw [(goOn_ok hstep).2]
    exact owned_resume (h.erase rfl)
  | startSyncAnywayWaited stopped rustRunning =>
    rw [syncStep] at hstep
    rw [(goOn_ok hstep).2]
    have herased : Owned { s with awaited := s.awaited.erase .startSyncAnyway } := h.erase rfl
    split
    · exact (owned_startSync herased).startPolling
    · exact herased.startPolling
  | restartCancelled =>
    rw [syncStep] at hstep
    rw [(goOn_ok hstep).2]
    exact owned_of_not_syncing rfl
  | restartWaited rustRunning =>
    rw [syncStep] at hstep
    rw [(goOn_ok hstep).2]
    exact (owned_startSync (h.erase rfl)).startPolling

theorem covered_of_guarded (h : GuardedRuns syncStep Guarded build s) : Covered s ∧ Owned s := by
  refine GuardedRuns.invariant (P := fun s => Covered s ∧ Owned s) ?_ h ?_
  · intro move s t hs hguard hstep
    exact ⟨covered_step hs.1 hguard hstep,owned_step hs.2 hstep⟩
  · exact ⟨.inr (.inr ⟨.startInitialSync,List.mem_cons_self,rfl⟩),owned_of_not_syncing rfl⟩

/-- Where no call is awaited, the poll timer is armed or a sync is under way with its stream, in
every run whose steps meet the condition. A step that misses it leaves neither. -/
theorem neverSilent (h : GuardedRuns syncStep Guarded build s) :
    (s.awaited = [] → s.pollTimer = true ∨ (s.isSyncing = true ∧ s.syncGen ∈ s.streams)) ∧
    ∀ move s', syncStep move s = .ok s' → ¬ Guarded move s →
      s'.isSyncing = false ∧ s'.pollTimer = false ∧
        ∀ call ∈ s'.awaited, call.rearms s'.syncGen = false := by
  have hinvariant := covered_of_guarded h
  constructor
  · intro hquiet
    rcases hinvariant.1 with hsyncing | htimer | ⟨call,hcall,-⟩
    · right
      rcases hinvariant.2 hsyncing with hstream | ⟨call,hcall,-⟩
      · exact ⟨hsyncing,hstream⟩
      · rw [hquiet] at hcall
        cases hcall
    · exact .inl htimer
    · rw [hquiet] at hcall
      cases hcall
  · intro move s' hstep hguard
    have hleft := uncovered_step hguard hstep
    rw [Rearms,not_or,not_exists] at hleft
    refine ⟨hleft.1,by simpa using hleft.2.1,?_⟩
    intro call hcall
    simpa [hcall] using hleft.2.2 call

/-- The stream of the sync that a poll check starts fails, and no other endpoint is found. -/
def failureMoves : List SyncMove :=
  [.initialSyncReady false,.dbPathResolved 1 true,.preflightEnded 1 .attached,.progress 1 true,
    .progressHandled 2 true true,.streamDone 1,.pollTick,.polled 1 (.known true) false,
    .dbPathResolved 2 true,.preflightEnded 2 .attached,.streamError 2,.recovered 2 false false,
    .streamDone 2]

theorem neverSilent_failure : ∃ s, guardedExecute syncStep Guarded failureMoves build = some s ∧
    s.awaited = [] ∧ s.isSyncing = false ∧
      (s.pollTimer = true ∨ (s.isSyncing = true ∧ s.syncGen ∈ s.streams)) :=
  have hrun : guardedExecute syncStep Guarded failureMoves build = some _ := rfl
  ⟨_,hrun,rfl,rfl,(neverSilent (guardedRuns_of_execute hrun)).1 rfl⟩

/-- The first sync completes, a poll check finds a new block, and the sync that it starts ends
without a final event. -/
def handOffMoves : List SyncMove :=
  [.initialSyncReady false,.dbPathResolved 1 true,.preflightEnded 1 .attached,.progress 1 true,
    .progressHandled 2 true true,.streamDone 1,.pollTick,.polled 1 (.known true) false,
    .dbPathResolved 2 true,.preflightEnded 2 .attached,.streamDone 2]

theorem neverSilent_handOff : ∃ s, execute syncStep handOffMoves build = .ok s ∧
    s.awaited = [] ∧ s.isSyncing = false ∧ s.syncSub = none ∧ s.streams = [] ∧
      s.pollTimer = false :=
  ⟨_,rfl,rfl,rfl,rfl,rfl,rfl⟩

end CoppiceWallet.Polling
