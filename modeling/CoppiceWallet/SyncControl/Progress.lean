import CoppiceWallet.Lib.Rest
import CoppiceWallet.SyncControl.Calls

/-!
# The sync calls never lock up

Only a cancellation of the active operation keeps its lock over several steps, and it waits for
nothing. So every call of every run can be brought to its end, when the bodies end.
-/

namespace CoppiceWallet.SyncControl

open CoppiceWallet.Lib

def FullSyncPoint.stepsLeft : FullSyncPoint → Nat
  | .acquire => 7
  | .storeMode => 6
  | .setup => 5
  | .resetCancel => 4
  | .createRuntime => 3
  | .body _ => 2
  | .release _ => 1
  | .returned _ => 0

def RunSyncPoint.stepsLeft : RunSyncPoint → Nat
  | .takeControl => 5
  | .acquire _ => 4
  | .createRuntime _ => 3
  | .body _ _ => 2
  | .release _ _ => 1
  | .returned _ => 0

def AdvancePoint.stepsLeft : AdvancePoint → Nat
  | .takeControl => 6
  | .validate _ => 5
  | .createRuntime _ => 4
  | .body _ _ => 3
  | .report _ => 2
  | .loadCancel _ => 1
  | .finished _ _ | .failed _ => 0

def OperationPoint.stepsLeft : OperationPoint → Nat
  | .lock => 4
  | .storeCancel _ => 3
  | .storeMode _ => 2
  | .unlock _ => 1
  | .returned _ => 0

def ObserverPoint.stepsLeft : ObserverPoint → Nat
  | .install => 3
  | .running _ _ => 2
  | .teardown _ _ => 1
  | .returned _ => 0

/-- How many steps are left of a call whose body ends; an end of an operation unlocks nothing. -/
def SyncThread.stepsLeft : SyncThread → Nat
  | .runFullSync _ point => point.stepsLeft
  | .runSync point => point.stepsLeft
  | .advance _ point => point.stepsLeft
  | .endOperation (.unlock _) => 0
  | .cancelOperation point | .endOperation point => point.stepsLeft
  | .startMempoolObserver point => point.stepsLeft
  | .cancelFullSync returned => if returned then 0 else 1
  | .beginOperation returned => if returned.isSome then 0 else 1
  | .stopMempoolObserver returned => if returned.isSome then 0 else 1

/-- The step with which a call comes nearer to its end. -/
def SyncThread.next : SyncThread → SyncChoice
  | .runFullSync _ (.body _) | .runSync (.body _ _) | .advance _ (.body _ _)
  | .startMempoolObserver (.running _ _) => .ends .finishes
  | _ => .proceed

/-- The thread keeps the lock of the active operation. -/
def SyncThread.holdsActive : SyncThread → Bool
  | .cancelOperation (.storeCancel _) | .cancelOperation (.storeMode _)
  | .cancelOperation (.unlock _) => true
  | _ => false

variable {p : SyncPool} {i : Nat} {s s' : SyncState} {thread thread' : SyncThread}
  {choice : SyncChoice}

theorem next_less (hleft : 0 < thread.stepsLeft)
    (hlock : s.activeLock = none ∨ thread.holdsActive = true) :
    (syncThreads.advance i thread.next s thread).any
      (fun next => decide (next.2.stepsLeft < thread.stepsLeft)) = true := by
  have hfree : thread.holdsActive = false → s.control = some s.active := fun houtside =>
    if_pos (hlock.resolve_right (by simp [houtside]))
  cases thread with
  | runFullSync mode point =>
    cases point with
    | acquire =>
      simp only [syncThreads,SyncThread.next,SyncThread.proceed,FullSyncPoint.proceed]
      cases s.syncRunning with
      | true | false => rfl
    | returned => cases hleft
    | storeMode | setup | resetCancel | createRuntime | body | release => rfl
  | runSync point =>
    cases point with
    | takeControl =>
      simp only [syncThreads,SyncThread.next,SyncThread.proceed,RunSyncPoint.proceed,hfree rfl]
      cases s.active with
      | none | some => rfl
    | acquire =>
      simp only [syncThreads,SyncThread.next,SyncThread.proceed,RunSyncPoint.proceed]
      cases s.syncRunning with
      | true | false => rfl
    | returned => cases hleft
    | createRuntime | body | release => rfl
  | advance credential point =>
    cases point with
    | takeControl =>
      simp only [syncThreads,SyncThread.next,SyncThread.proceed,AdvancePoint.proceed,hfree rfl]
      cases s.active with
      | none | some => rfl
    | validate =>
      simp only [syncThreads,SyncThread.next,SyncThread.proceed,AdvancePoint.proceed]
      cases isValidCredential credential with
      | true | false => rfl
    | finished | failed => cases hleft
    | createRuntime | report | loadCancel | body => rfl
  | cancelOperation point =>
    cases point with
    | lock =>
      simp only [syncThreads,SyncThread.next,SyncThread.proceed,OperationPoint.cancel,hfree rfl]
      cases s.active with
      | none | some => rfl
    | returned => cases hleft
    | storeCancel | storeMode | unlock => rfl
  | endOperation point =>
    cases point with
    | lock =>
      simp only [syncThreads,SyncThread.next,SyncThread.proceed,OperationPoint.end,hfree rfl]
      cases s.active with
      | none | some => rfl
    | unlock | returned => cases hleft
    | storeCancel | storeMode => rfl
  | startMempoolObserver point =>
    cases point with
    | install =>
      simp only [syncThreads,SyncThread.next,SyncThread.proceed,ObserverPoint.proceed]
      cases s.observer.running with
      | true | false => rfl
    | returned => cases hleft
    | running | teardown => rfl
  | cancelFullSync returned =>
    cases returned with
    | true => cases hleft
    | false => rfl
  | beginOperation returned =>
    cases returned with
    | some => cases hleft
    | none =>
      have hnone : s.activeLock = none := hlock.resolve_right (by simp [SyncThread.holdsActive])
      simp only [syncThreads,SyncThread.next,SyncThread.proceed,hnone]
      rfl
  | stopMempoolObserver returned =>
    cases returned with
    | some => cases hleft
    | none => rfl

theorem advance_lockStep (h : syncThreads.advance i choice s thread = some (s',thread')) :
    LockStep i s.activeLock thread.holdsActive s'.activeLock thread'.holdsActive := by
  cases choice with
  | ends body =>
    obtain ⟨next,hnext,h⟩ := Option.map_eq_some_iff.mp h
    cases h
    have houtside : thread.holdsActive = false ∧ thread'.holdsActive = false := by
      cases thread with
      | runFullSync | runSync | advance | startMempoolObserver =>
        obtain ⟨_,_,rfl⟩ := Option.map_eq_some_iff.mp hnext
        exact ⟨rfl,rfl⟩
      | cancelFullSync | beginOperation | cancelOperation | endOperation | stopMempoolObserver =>
        cases hnext
    rw [houtside.1,houtside.2]
    exact .keep
  | proceed =>
    simp only [syncThreads] at h
    cases thread with
    | cancelOperation point =>
      obtain ⟨⟨_,next⟩,hnext,h⟩ := Option.map_eq_some_iff.mp h
      cases h
      cases point with
      | lock =>
        obtain ⟨control,hcontrol,hnext⟩ := Option.map_eq_some_iff.mp hnext
        have hfree : s.activeLock = none := by
          grind [SyncState.control]
        cases control with
        | none =>
          cases hnext
          exact .keep
        | some control =>
          cases hnext
          rw [hfree]
          exact .take
      | storeCancel | storeMode =>
        cases hnext
        exact .keep
      | unlock =>
        cases hnext
        exact .release
      | returned => cases hnext
    | runFullSync _ point | runSync point | endOperation point | startMempoolObserver point =>
      obtain ⟨⟨_,next⟩,hnext,h⟩ := Option.map_eq_some_iff.mp h
      cases h
      have hkeep : s'.activeLock = s.activeLock := by
        cases point <;> grind [FullSyncPoint.proceed,RunSyncPoint.proceed,OperationPoint.end,
          ObserverPoint.proceed.eq_def,SyncState.control,SyncState.storeCancel,
          SyncState.storeStoppedMode]
      rw [hkeep]
      exact .keep
    | advance =>
      obtain ⟨next,_,h⟩ := Option.map_eq_some_iff.mp h
      cases h
      exact .keep
    | cancelFullSync returned | beginOperation returned | stopMempoolObserver returned =>
      have hkeep : s'.activeLock = s.activeLock ∧ thread'.holdsActive = false := by
        cases returned <;> grind [SyncThread.proceed,SyncState.beginOperation,
          SyncState.stopMempoolObserver,SyncThread.holdsActive]
      rw [hkeep.1,hkeep.2]
      exact .keep

theorem syncPool_canWork (hlocked : p.Locked SyncState.activeLock SyncThread.holdsActive)
    (hi : p.threads[i]? = some thread) (hleft : 0 < thread.stepsLeft) :
    syncThreads.CanWork SyncThread.stepsLeft p := by
  refine canWork_of_locks (fun _ : Unit => SyncState.activeLock) (fun _ => SyncThread.holdsActive)
    (fun thread => if thread.holdsActive then 0 else 1) (fun _ => hlocked)
    (fun i thread hi hleft => ?_) hi hleft
  by_cases hlock : p.shared.activeLock = none ∨ thread.holdsActive = true
  · exact .inl (canWork_of_any hi (next_less hleft hlock))
  · right
    push Not at hlock
    refine ⟨(),hlock.1,fun other hother => ⟨?_,by simp [hother,hlock.2]⟩⟩
    cases other with
    | cancelOperation point =>
      cases point with
      | lock | returned => cases hother
      | storeCancel | storeMode | unlock => simp [SyncThread.stepsLeft,OperationPoint.stepsLeft]
    | runFullSync | cancelFullSync | beginOperation | endOperation | runSync | advance
      | startMempoolObserver | stopMempoolObserver => cases hother

/-- All calls of every run can be brought to their ends; none waits for ever for the lock of the
active operation. -/
theorem syncCalls_neverStuck (hrun : Runs syncThreads.step ⟨.initial,[]⟩ p) :
    syncThreads.CanRest SyncThread.stepsLeft p := by
  have houtline := (Threads.outline_trivial (m := syncThreads) fun _ _ => True).withLocks
    (fun _ : Unit => SyncState.activeLock) (fun _ => SyncThread.holdsActive)
    (fun _ thread hinitial => by
      cases thread with
      | cancelOperation point =>
        cases point with
        | lock => rfl
        | storeCancel | storeMode | unlock | returned => cases hinitial
      | _ => rfl)
    (fun _ _ h _ => advance_lockStep h)
  refine houtline.canRest
    (fun _ hp _ _ hi hleft => syncPool_canWork (hp.invariant.2 ()) hi hleft) ?_
  exact houtline.runs hrun (holds_nil ⟨trivial,fun _ => locked_nil rfl⟩)

theorem syncCalls_neverStuck_cancelling : ∃ p : SyncPool,
    Runs syncThreads.step ⟨.initial,[]⟩ p ∧
    p.threads[1]? = some (.cancelOperation (.storeCancel 0)) ∧
    p.threads[2]? = some (.runSync .takeControl) ∧ p.shared.control = none ∧
    syncThreads.CanRest SyncThread.stepsLeft p := by
  obtain ⟨p,hexecute,hcancel,hsync,hcontrol⟩ : ∃ p : SyncPool, execute syncThreads.step
      [.start (.beginOperation none),.start (.cancelOperation .lock),.start (.runSync .takeControl),
        .advance 0 .proceed,.advance 1 .proceed] ⟨.initial,[]⟩ = .ok p ∧
      p.threads[1]? = some (.cancelOperation (.storeCancel 0)) ∧
      p.threads[2]? = some (.runSync .takeControl) ∧ p.shared.control = none :=
    ⟨_,rfl,rfl,rfl,rfl⟩
  exact ⟨p,runs_of_execute hexecute,hcancel,hsync,hcontrol,
    syncCalls_neverStuck (runs_of_execute hexecute)⟩

end CoppiceWallet.SyncControl
