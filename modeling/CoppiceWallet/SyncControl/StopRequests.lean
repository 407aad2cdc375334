import CoppiceWallet.SyncControl.Controls
import CoppiceWallet.SyncControl.FullSync

/-! # Stop requests -/

namespace CoppiceWallet.SyncControl

open CoppiceWallet.Lib

variable {p q : SyncPool}

/-- The thread makes no exit check that has begun. -/
def NoCheck (i : Nat) (p : SyncPool) : Prop :=
  ∀ thread, p.threads[i]? = some thread → thread.checks = false

/-- What holds of two states `p` and `q` of a run. A stop is asked for between them, and the exit
checks that it decides begin after `q`. -/
structure SyncStops (p q : SyncPool) : Prop where
  oneBody : ∀ (i j : Nat) (thread other : SyncThread), q.threads[i]? = some thread →
    thread.holdsLane = true → q.threads[j]? = some other → other.holdsLane = true → i = j
  laneFree : (∀ thread ∈ q.threads, thread.holdsLane = false) → q.shared.syncRunning = false
  fullSyncStopped : ∀ (c i : Nat) (mode : UInt8) (point : FullSyncPoint) (r : SyncPool)
    (thread : SyncThread) (exit : Bool),
    p.threads[c]? = some (.cancelFullSync false) →
    p.threads[i]? = some (.runFullSync mode point) → point.holdsLane = true →
    q.threads[c]? = some (.cancelFullSync true) → NoCheck i q → Runs syncThreads.step q r →
    r.threads[i]? = some thread → thread.exit = some exit → exit = true
  fullSyncLater : ∀ (i : Nat) (mode : UInt8) (thread : SyncThread),
    p.threads[i]? = some (.runFullSync mode .acquire) → q.threads[i]? = some thread →
    thread.exit = some true → CancelledDuring i p q
  operationStopped : ∀ (c j k : Nat) (stop : SyncThread) (r : SyncPool) (thread : SyncThread)
    (exit : Bool),
    q.threads[c]? = some stop → stop = .cancelOperation (.returned (some k)) ∨
      stop = .endOperation (.returned (some k)) → NoCheck j q → Runs syncThreads.step q r →
    r.threads[j]? = some thread → thread.control = some k → thread.exit = some exit → exit = true
  operationLater : ∀ (i j k : Nat) (thread : SyncThread),
    p.threads[i]? = some (.beginOperation none) →
    q.threads[i]? = some (.beginOperation (some (some k))) → q.threads[j]? = some thread →
    thread.control = some k → thread.exit = some true →
    ∃ (c : Nat) (stop : SyncThread), q.threads[c]? = some stop ∧ stop.stops = some k ∧
      ∀ before, p.threads[c]? = some before → before.stops ≠ some k
  observerStopped : ∀ (c i t : Nat) (point : ObserverPoint) (r : SyncPool) (thread : SyncThread)
    (stopped : Option Nat) (exit : Bool),
    p.threads[c]? = some (.stopMempoolObserver none) →
    p.threads[i]? = some (.startMempoolObserver point) → point.token = some t →
    q.threads[c]? = some (.stopMempoolObserver (some stopped)) → NoCheck i q →
    Runs syncThreads.step q r → r.threads[i]? = some thread → thread.exit = some exit → exit = true
  observerLater : ∀ (i : Nat) (thread : SyncThread),
    p.threads[i]? = some (.startMempoolObserver .install) → q.threads[i]? = some thread →
    thread.exit = some true →
    ∃ (c t : Nat), thread.token = some t ∧
      q.threads[c]? = some (.stopMempoolObserver (some (some t))) ∧
      p.threads[c]? ≠ some (.stopMempoolObserver (some (some t)))
  panicked : ∀ (i : Nat) (message : String) (thread thread' : SyncThread),
    q.threads[i]? = some thread → thread.ends (.panics message) = some thread' →
    thread.holdsLane = true ∨ thread.observes = true →
    ∃ r, execute syncThreads.step [.advance i (.ends (.panics message)),.advance i .proceed] q = .ok r ∧
      (thread.holdsLane = true → r.shared.syncRunning = false) ∧
      (thread.observes = true → r.shared.observer = ⟨false,none⟩)

theorem FullSyncPoint.passes_of_checks {mode : UInt8} {point : FullSyncPoint}
    (h : (SyncThread.runFullSync mode point).checks = false) : point.passes = false := by
  cases point with
  | body check =>
    cases check with
    | idle => rfl
    | loadMode | answered => cases h
  | _ => rfl

theorem FullSyncPoint.exit_of_passes {mode : UInt8} {point : FullSyncPoint} {exit : Bool}
    (h : point.passes = false) (hexit : (SyncThread.runFullSync mode point).exit = some exit) :
    exit = true := by
  cases point with
  | body check =>
    cases check with
    | answered answer =>
      cases hexit
      cases exit with
      | true => rfl
      | false => cases h
    | idle | loadMode => cases hexit
  | _ => cases hexit

theorem fullSyncStopped {c i : Nat} {mode : UInt8} {point : FullSyncPoint} {r : SyncPool}
    {thread : SyncThread} {exit : Bool} (hp : p.Holds)
    (hrun : GuardedRuns syncThreads.step KeepsStops p q)
    (hc : p.threads[c]? = some (.cancelFullSync false))
    (hi : p.threads[i]? = some (.runFullSync mode point)) (hlane : point.holdsLane = true)
    (hreturned : q.threads[c]? = some (.cancelFullSync true)) (hcheck : NoCheck i q)
    (hafter : Runs syncThreads.step q r) (hthread : r.threads[i]? = some thread)
    (hexit : thread.exit = some exit) : exit = true := by
  have hstart : Cancelling c i mode p := ⟨point,hi,.inl ⟨hc,hlane⟩⟩
  obtain ⟨now,hnow,hcancelled⟩ := hstart.runs hp hrun
  have hcancelled : now.Cancelled q.shared := by
    rcases hcancelled with ⟨hpending,-⟩ | hcancelled
    · rw [hreturned] at hpending
      cases hpending
    · exact hcancelled
  have hpasses := FullSyncPoint.passes_of_checks (hcheck _ hnow)
  obtain ⟨next,hnext,hpassed⟩ := fullSync_exits (hp.runs hrun.runs) hnow hcancelled hpasses hafter
  rw [hthread] at hnext
  cases hnext
  exact FullSyncPoint.exit_of_passes hpassed hexit

theorem fullSyncLater {i : Nat} {mode : UInt8} {thread : SyncThread} (hp : p.Holds)
    (hrun : Runs syncThreads.step p q) (hi : p.threads[i]? = some (.runFullSync mode .acquire))
    (hthread : q.threads[i]? = some thread) (hexit : thread.exit = some true) :
    CancelledDuring i p q := by
  obtain ⟨point,hpoint,hanswers⟩ := fullSync_answers hp hi hrun
  rw [hthread] at hpoint
  cases hpoint
  cases point with
  | body check => exact hanswers.2.2 hexit
  | _ => cases hexit

theorem operationStopped {c j k : Nat} {stop thread : SyncThread} {r : SyncPool} {exit : Bool}
    (hq : q.Holds) (hstop : q.threads[c]? = some stop)
    (hstops : stop = .cancelOperation (.returned (some k)) ∨ stop = .endOperation (.returned (some k)))
    (hcheck : NoCheck j q) (hafter : Runs syncThreads.step q r)
    (hthread : r.threads[j]? = some thread) (hcontrol : thread.control = some k)
    (hexit : thread.exit = some exit) : exit = true := by
  have hcancelled : q.shared.isCancelled k = true := by
    apply (hq.thread c stop hstop).stopped
    rcases hstops with rfl | rfl <;> rfl
  have hpasses := operation_exits hcancelled
    (fun u hu => SyncThread.passes_of_checks (hcheck u hu)) hafter thread hthread
  cases exit with
  | true => rfl
  | false =>
    rw [SyncThread.passes_of_exit hcontrol hexit] at hpasses
    cases hpasses

theorem operationLater {i j k : Nat} {thread : SyncThread} (hp : p.Holds)
    (hrun : Runs syncThreads.step p q) (hbegin : p.threads[i]? = some (.beginOperation none))
    (hbegun : q.threads[i]? = some (.beginOperation (some (some k))))
    (hthread : q.threads[j]? = some thread) (hcontrol : thread.control = some k)
    (hexit : thread.exit = some true) :
    ∃ (c : Nat) (stop : SyncThread), q.threads[c]? = some stop ∧ stop.stops = some k ∧
      ∀ before, p.threads[c]? = some before → before.stops ≠ some k := by
  have hq := hp.runs hrun
  obtain ⟨-,returned,hreturned,hfresh⟩ := operation_fresh hbegin hrun
  rw [hbegun] at hreturned
  cases hreturned
  have hstopped := (hq.thread j thread hthread).answered k hcontrol hexit
  obtain ⟨c,stop,hstop,hstops⟩ := hq.invariant.stopped k hstopped
  refine ⟨c,stop,hstop,hstops,fun before hbefore hsame => ?_⟩
  have hold := (hp.thread c before hbefore).stops k hsame
  have hnew := hfresh k rfl
  omega

theorem observerStopped {c i t : Nat} {point : ObserverPoint} {r : SyncPool} {thread : SyncThread}
    {stopped : Option Nat} {exit : Bool} (hp : p.Holds) (hrun : Runs syncThreads.step p q)
    (hc : p.threads[c]? = some (.stopMempoolObserver none))
    (hi : p.threads[i]? = some (.startMempoolObserver point)) (htoken : point.token = some t)
    (hreturned : q.threads[c]? = some (.stopMempoolObserver (some stopped))) (hcheck : NoCheck i q)
    (hafter : Runs syncThreads.step q r) (hthread : r.threads[i]? = some thread)
    (hexit : thread.exit = some exit) : exit = true := by
  have hhas : point.Has t := by
    cases point with
    | running | teardown => exact Option.some.inj htoken
    | install | returned => cases htoken
  have hstart : StoppingObserver c i t p := ⟨point,hi,hhas,.inl hc⟩
  have hstop : q.Holds ∧ StoppingObserver c i t q := by
    apply hrun.invariant (P := fun m : SyncPool => m.Holds ∧ StoppingObserver c i t m) _ ⟨hp,hstart⟩
    intro input m m' hm hstep
    exact ⟨hm.1.runs (.tail input (.refl m) hstep),hm.2.step hm.1 hstep⟩
  obtain ⟨-,now,hnow,hhas',hfound⟩ := hstop
  have hfound : now.token = none ∨ q.shared.tokens[t]? = some true := by
    rcases hfound with hpending | hfound
    · rw [hreturned] at hpending
      cases hpending
    · exact hfound
  have hpasses : now ≠ .running t (some false) := by
    rintro rfl
    cases hcheck _ hnow
  obtain ⟨next,hnext,hnexthas,hpassed⟩ := observer_exits hnow hhas' hfound hpasses hafter
  rw [hthread] at hnext
  cases hnext
  cases exit with
  | true => rfl
  | false =>
    cases next with
    | running token answered =>
      cases hnexthas
      cases hexit
      exact absurd rfl hpassed
    | install | teardown | returned => cases hexit

theorem observerLater {i : Nat} {thread : SyncThread} (hp : p.Holds)
    (hrun : Runs syncThreads.step p q) (hi : p.threads[i]? = some (.startMempoolObserver .install))
    (hthread : q.threads[i]? = some thread) (hexit : thread.exit = some true) :
    ∃ (c t : Nat), thread.token = some t ∧
      q.threads[c]? = some (.stopMempoolObserver (some (some t))) ∧
      p.threads[c]? ≠ some (.stopMempoolObserver (some (some t))) := by
  have hq := hp.runs hrun
  obtain ⟨-,point,hpoint,hfresh⟩ := observer_fresh hi hrun
  rw [hthread] at hpoint
  cases hpoint
  cases point with
  | install | teardown | returned => cases hexit
  | running t answered =>
    have hset := (hq.thread i _ hthread).tokenAnswered t rfl hexit
    obtain ⟨c,stop,hstop,hstops⟩ := hq.invariant.token t hset
    have hstop : q.threads[c]? = some (.stopMempoolObserver (some (some t))) := by
      cases stop with
      | stopMempoolObserver returned =>
        cases returned with
        | none => cases hstops
        | some found =>
          cases hstops
          exact hstop
      | _ => cases hstops
    refine ⟨c,t,rfl,hstop,fun hbefore => ?_⟩
    have hold := (List.getElem?_eq_some_iff.mp ((hp.thread c _ hbefore).stopsToken t rfl)).1
    have hnew := hfresh t rfl
    omega

theorem panicked {i : Nat} {message : String} {thread thread' : SyncThread}
    (hthread : q.threads[i]? = some thread) (hends : thread.ends (.panics message) = some thread')
    (hinside : thread.holdsLane = true ∨ thread.observes = true) :
    ∃ r, execute syncThreads.step [.advance i (.ends (.panics message)),.advance i .proceed] q = .ok r ∧
      (thread.holdsLane = true → r.shared.syncRunning = false) ∧
      (thread.observes = true → r.shared.observer = ⟨false,none⟩) := by
  have hfirst : syncThreads.step (.advance i (.ends (.panics message))) q =
      .ok ⟨q.shared,q.threads.set i thread'⟩ := by
    apply Threads.step_of_advance hthread
    simp [syncThreads,hends]
  have hown : (q.threads.set i thread')[i]? = some thread' := getElem?_set_own hthread
  suffices h : ∃ s next, thread'.proceed i q.shared = some (s,next) ∧
      (thread.holdsLane = true → s.syncRunning = false) ∧
      (thread.observes = true → s.observer = ⟨false,none⟩) by
    obtain ⟨s,next,hproceed,hlane,hobserver⟩ := h
    have hsecond : syncThreads.step (.advance i .proceed) ⟨q.shared,q.threads.set i thread'⟩ =
        .ok ⟨s,(q.threads.set i thread').set i next⟩ := Threads.step_of_advance hown hproceed
    refine ⟨⟨s,(q.threads.set i thread').set i next⟩,?_,hlane,hobserver⟩
    rw [execute,hfirst]
    show execute syncThreads.step [.advance i .proceed] ⟨q.shared,q.threads.set i thread'⟩ = _
    rw [execute,hsecond]
    rfl
  cases thread with
  | runFullSync mode point =>
    obtain ⟨next,hpoint,rfl⟩ := Option.map_eq_some_iff.mp hends
    cases point with
    | setup | createRuntime | body =>
      cases hpoint
      exact ⟨_,_,rfl,fun _ => rfl,fun h => by cases h⟩
    | acquire | storeMode | resetCancel | release | returned => cases hpoint
  | runSync point =>
    obtain ⟨next,hpoint,rfl⟩ := Option.map_eq_some_iff.mp hends
    cases point with
    | createRuntime | body =>
      cases hpoint
      exact ⟨_,_,rfl,fun _ => rfl,fun h => by cases h⟩
    | takeControl | acquire | release | returned => cases hpoint
  | startMempoolObserver point =>
    obtain ⟨next,hpoint,rfl⟩ := Option.map_eq_some_iff.mp hends
    cases point with
    | running =>
      cases hpoint
      refine ⟨_,_,rfl,fun hlane => ?_,fun _ => rfl⟩
      cases hlane
    | install | teardown | returned => cases hpoint
  | advance => rcases hinside with h | h <;> cases h
  | cancelFullSync | beginOperation | cancelOperation | endOperation | stopMempoolObserver =>
    cases hends

/-- Stop requests are kept between any two states of a run that cancels no sync in the window. -/
theorem syncStops_runs (hbefore : GuardedRuns syncThreads.step KeepsStops ⟨SyncState.initial,[]⟩ p)
    (hrun : GuardedRuns syncThreads.step KeepsStops p q) : SyncStops p q := by
  have hp := SyncPool.holds_initial.runs hbefore.runs
  have hq := hp.runs hrun.runs
  exact {
    oneBody := fun i j thread other hthread hlane hother hlane' =>
      hq.invariant.lane.exclusive hthread hlane hother hlane'
    laneFree := by
      intro hfree
      by_contra hset
      obtain ⟨i,thread,hthread,hlane⟩ := hq.invariant.lane.threadInside (by simpa using hset)
      rw [hfree thread (List.mem_of_getElem? hthread)] at hlane
      cases hlane
    fullSyncStopped := fun c i mode point r thread exit hc hi hlane hreturned hcheck hafter
      hthread hexit => fullSyncStopped hp hrun hc hi hlane hreturned hcheck hafter hthread hexit
    fullSyncLater := fun i mode thread hi hthread hexit =>
      fullSyncLater hp hrun.runs hi hthread hexit
    operationStopped := fun c j k stop r thread exit hstop hstops hcheck hafter hthread hcontrol
      hexit => operationStopped hq hstop hstops hcheck hafter hthread hcontrol hexit
    operationLater := fun i j k thread hbegin hbegun hthread hcontrol hexit =>
      operationLater hp hrun.runs hbegin hbegun hthread hcontrol hexit
    observerStopped := fun c i t point r thread stopped exit hc hi htoken hreturned hcheck hafter
      hthread hexit =>
        observerStopped hp hrun.runs hc hi htoken hreturned hcheck hafter hthread hexit
    observerLater := fun i thread hi hthread hexit => observerLater hp hrun.runs hi hthread hexit
    panicked := fun i message thread thread' hthread hends hinside =>
      panicked hthread hends hinside }

/-- A full sync is cancelled in its body, and its next exit check is true. -/
theorem syncStops_cancelled :
    ∃ p q : SyncPool,
      GuardedRuns syncThreads.step KeepsStops ⟨SyncState.initial,[]⟩ p ∧
      GuardedRuns syncThreads.step KeepsStops p q ∧
      q.threads = [.runFullSync 1 (.body (.answered true)),.cancelFullSync true] ∧
      SyncStops p q := by
  have hbefore : ∃ p : SyncPool, guardedExecute syncThreads.step KeepsStops
      (.start (.runFullSync 1 .acquire) :: List.replicate 5 (.advance 0 .proceed) ++
        [.start (.cancelFullSync false)]) ⟨SyncState.initial,[]⟩ = some p ∧
      ∃ q : SyncPool, guardedExecute syncThreads.step KeepsStops
        [.advance 1 .proceed,.advance 0 .proceed] p = some q ∧
        q.threads = [.runFullSync 1 (.body (.answered true)),.cancelFullSync true] :=
    ⟨_,rfl,_,rfl,rfl⟩
  obtain ⟨p,hp,q,hq,hthreads⟩ := hbefore
  exact ⟨p,q,guardedRuns_of_execute hp,guardedRuns_of_execute hq,hthreads,
    syncStops_runs (guardedRuns_of_execute hp) (guardedRuns_of_execute hq)⟩

/-- A full sync that is cancelled before it resets the flag passes its next exit check. -/
theorem cancel_before_reset :
    ¬ ∀ p q : SyncPool, Runs syncThreads.step ⟨SyncState.initial,[]⟩ p →
      Runs syncThreads.step p q → SyncStops p q := by
  intro h
  have hrun : ∃ p : SyncPool, execute syncThreads.step
      [.start (.runFullSync 1 .acquire),.advance 0 .proceed,.start (.cancelFullSync false)]
        ⟨SyncState.initial,[]⟩ = .ok p ∧
      p.threads = [.runFullSync 1 .storeMode,.cancelFullSync false] ∧
      ∃ q : SyncPool, execute syncThreads.step [.advance 1 .proceed] p = .ok q ∧
        q.threads = [.runFullSync 1 .storeMode,.cancelFullSync true] ∧
        ∃ r : SyncPool, execute syncThreads.step (List.replicate 6 (.advance 0 .proceed)) q = .ok r ∧
          r.threads = [.runFullSync 1 (.body (.answered false)),.cancelFullSync true] :=
    ⟨_,rfl,rfl,_,rfl,rfl,_,rfl,rfl⟩
  obtain ⟨p,hp,hpt,q,hq,hqt,r,hr,hrt⟩ := hrun
  have hstops := h p q (runs_of_execute hp) (runs_of_execute hq)
  have hcheck : NoCheck 0 q := by
    intro thread hthread
    rw [hqt] at hthread
    cases hthread
    rfl
  have hexit := hstops.fullSyncStopped 1 0 1 .storeMode r (.runFullSync 1 (.body (.answered false)))
    false (by rw [hpt]; rfl) (by rw [hpt]; rfl) rfl (by rw [hqt]; rfl) hcheck (runs_of_execute hr)
    (by rw [hrt]; rfl) rfl
  cases hexit

end CoppiceWallet.SyncControl
