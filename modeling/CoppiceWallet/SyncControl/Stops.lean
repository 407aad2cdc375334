import CoppiceWallet.SyncControl.Lanes

/-! # Stops over a run -/

namespace CoppiceWallet.SyncControl

open CoppiceWallet.Lib

variable {p q r : SyncPool}

def ExitCheck.exit : ExitCheck → Option Bool
  | .answered exit => some exit
  | _ => none

/-- The answer of the exit check that a thread has just made. -/
def SyncThread.exit : SyncThread → Option Bool
  | .runFullSync _ (.body check) | .runSync (.body _ check) => check.exit
  | .advance _ (.body _ answered) => answered
  | .advance _ (.finished _ cancelled) => some cancelled
  | .startMempoolObserver (.running _ answered) => answered
  | _ => none

/-- An exit check is under way, or has just been answered. -/
def SyncThread.checks : SyncThread → Bool
  | .runFullSync _ (.body check) | .runSync (.body _ check) =>
    match check with
    | .idle => false
    | _ => true
  | .advance _ (.body _ answered) => answered.isSome
  | .advance _ (.finished _ _) => true
  | .startMempoolObserver (.running _ answered) => answered.isSome
  | _ => false

def RunSyncPoint.control : RunSyncPoint → Option Nat
  | .acquire control | .createRuntime control | .body control _ | .release control _ => some control
  | .takeControl | .returned _ => none

def AdvancePoint.control : AdvancePoint → Option Nat
  | .validate control | .createRuntime control | .body control _ | .report control
  | .loadCancel control | .finished control _ => some control
  | .takeControl | .failed _ => none

/-- The control that a sync or an advance has taken. -/
def SyncThread.control : SyncThread → Option Nat
  | .runSync point => point.control
  | .advance _ point => point.control
  | _ => none

/-- The thread has stopped its control. -/
def OperationPoint.stopped : OperationPoint → Option Nat
  | .storeMode control | .unlock control => some control
  | .returned control => control
  | .lock | .storeCancel _ => none

def SyncThread.stopped : SyncThread → Option Nat
  | .cancelOperation point | .endOperation point => point.stopped
  | _ => none

/-- The control is stopped, so that an exit check may answer true. -/
def SyncState.IsStopped (s : SyncState) (control : Nat) : Prop :=
  s.isCancelled control = true ∨ s.isStoppedMode control = true

/-- What holds of a thread wherever it stands. -/
structure SyncThread.Meets (s : SyncState) (thread : SyncThread) : Prop where
  control : ∀ k, thread.control = some k → k < s.controls.length
  stops : ∀ k, thread.stops = some k → k < s.controls.length
  stopped : ∀ k, thread.stopped = some k → s.isCancelled k = true
  answered : ∀ k, thread.control = some k → thread.exit = some true → s.IsStopped k
  token : ∀ t, thread.token = some t → s.observer.cancel = some t ∧ t < s.tokens.length
  tokenAnswered : ∀ t : Nat, thread.token = some t → thread.exit = some true → s.tokens[t]? = some true
  stopsToken : ∀ t : Nat, thread.stopsToken = some t → s.tokens[t]? = some true

/-- What holds of the pool. -/
structure SyncPool.Sound (p : SyncPool) : Prop where
  lane : ThreadPool.Flagged SyncState.syncRunning SyncThread.holdsLane p
  observer : ThreadPool.Flagged (fun s : SyncState => s.observer.running) SyncThread.observes p
  active : ∀ k, p.shared.active = some k → k < p.shared.controls.length
  cancel : ∀ t, p.shared.observer.cancel = some t → t < p.shared.tokens.length
  stopped : ∀ k, p.shared.IsStopped k →
    ∃ (c : Nat) (stop : SyncThread), p.threads[c]? = some stop ∧ stop.stops = some k
  token : ∀ t : Nat, p.shared.tokens[t]? = some true →
    ∃ (c : Nat) (stop : SyncThread), p.threads[c]? = some stop ∧ stop.stopsToken = some t

theorem Grows.isStopped {s s' : SyncState} (h : Grows s s') {k : Nat} (hk : s.IsStopped k) :
    s'.IsStopped k :=
  hk.imp (h.cancelled k) (h.stopped k)

theorem SyncThread.Meets.grows {s s' : SyncState} {thread : SyncThread} (h : thread.Meets s)
    (hgrows : Grows s s')
    (hcancel : ∀ t, thread.token = some t → s'.observer.cancel = s.observer.cancel) :
    thread.Meets s' where
  control k hk := Nat.lt_of_lt_of_le (h.control k hk) hgrows.controls
  stops k hk := Nat.lt_of_lt_of_le (h.stops k hk) hgrows.controls
  stopped k hk := hgrows.cancelled k (h.stopped k hk)
  answered k hk hexit := hgrows.isStopped (h.answered k hk hexit)
  token t ht := by
    rw [hcancel t ht]
    exact ⟨(h.token t ht).1,Nat.lt_of_lt_of_le (h.token t ht).2 hgrows.tokens⟩
  tokenAnswered t ht hexit := hgrows.token t (h.tokenAnswered t ht hexit)
  stopsToken t ht := hgrows.token t (h.stopsToken t ht)

section
variable {s s' : SyncState} {thread : SyncThread} {k t i : Nat}

theorem meets_of_none (hcontrol : thread.control = none) (hstops : thread.stops = none)
    (hstopped : thread.stopped = none) (htoken : thread.token = none)
    (hstopsToken : thread.stopsToken = none) : thread.Meets s where
  control := by simp [hcontrol]
  stops := by simp [hstops]
  stopped := by simp [hstopped]
  answered := by simp [hcontrol]
  token := by simp [htoken]
  tokenAnswered := by simp [htoken]
  stopsToken := by simp [hstopsToken]

theorem meets_of_control (hcontrol : thread.control = some k) (hk : k < s.controls.length)
    (hexit : thread.exit = some true → s.IsStopped k) (hstops : thread.stops = none)
    (hstopped : thread.stopped = none) (htoken : thread.token = none)
    (hstopsToken : thread.stopsToken = none) : thread.Meets s where
  control j hj := by
    rw [hcontrol] at hj
    cases hj
    exact hk
  stops := by simp [hstops]
  stopped := by simp [hstopped]
  answered j hj hanswer := by
    rw [hcontrol] at hj
    cases hj
    exact hexit hanswer
  token := by simp [htoken]
  tokenAnswered := by simp [htoken]
  stopsToken := by simp [hstopsToken]

theorem meets_of_stops (hstops : thread.stops = some k) (hk : k < s.controls.length)
    (hstopped : ∀ j, thread.stopped = some j → s.isCancelled j = true)
    (hcontrol : thread.control = none) (htoken : thread.token = none)
    (hstopsToken : thread.stopsToken = none) : thread.Meets s where
  control := by simp [hcontrol]
  stops j hj := by
    rw [hstops] at hj
    cases hj
    exact hk
  stopped := hstopped
  answered := by simp [hcontrol]
  token := by simp [htoken]
  tokenAnswered := by simp [htoken]
  stopsToken := by simp [hstopsToken]

theorem meets_storeCancel (hk : k < s.controls.length) (hstops : thread.stops = some k)
    (hstopped : thread.stopped = some k) (hcontrol : thread.control = none)
    (htoken : thread.token = none) (hstopsToken : thread.stopsToken = none) :
    thread.Meets (s.storeCancel k) := by
  refine meets_of_stops hstops (by simpa [SyncState.storeCancel] using hk) ?_ hcontrol htoken
    hstopsToken
  intro j hj
  rw [hstopped] at hj
  cases hj
  exact (isCancelled_storeCancel s k k).mpr (.inr ⟨rfl,hk⟩)

theorem meets_storeStoppedMode (hk : k < s.controls.length) (hcancelled : s.isCancelled k = true)
    (hstops : thread.stops = some k) (hstopped : thread.stopped = some k)
    (hcontrol : thread.control = none) (htoken : thread.token = none)
    (hstopsToken : thread.stopsToken = none) : thread.Meets (s.storeStoppedMode k) := by
  refine meets_of_stops hstops (by simpa [SyncState.storeStoppedMode] using hk) ?_ hcontrol htoken
    hstopsToken
  intro j hj
  rw [hstopped] at hj
  cases hj
  rw [isCancelled_storeStoppedMode]
  exact hcancelled

theorem meets_of_token (htoken : thread.token = some t) (hcancel : s.observer.cancel = some t)
    (ht : t < s.tokens.length) (hexit : thread.exit = some true → s.tokens[t]? = some true)
    (hcontrol : thread.control = none) (hstops : thread.stops = none)
    (hstopped : thread.stopped = none) (hstopsToken : thread.stopsToken = none) :
    thread.Meets s where
  control := by simp [hcontrol]
  stops := by simp [hstops]
  stopped := by simp [hstopped]
  answered := by simp [hcontrol]
  token j hj := by
    rw [htoken] at hj
    cases hj
    exact ⟨hcancel,ht⟩
  tokenAnswered j hj hanswer := by
    rw [htoken] at hj
    cases hj
    exact hexit hanswer
  stopsToken := by simp [hstopsToken]

theorem ExitCheck.proceed_exit {check : ExitCheck} {cancel modeDiffers : Bool}
    (h : (check.proceed cancel modeDiffers).exit = some true) :
    cancel = true ∨ modeDiffers = true := by
  cases check with
  | idle =>
    cases cancel with
    | true => exact .inl rfl
    | false => cases h
  | loadMode =>
    cases h
    exact .inr rfl
  | answered => cases h

theorem SyncState.control_lt (hactive : ∀ k, s.active = some k → k < s.controls.length)
    (h : s.control = some (some k)) : k < s.controls.length := by
  rw [SyncState.control] at h
  split at h
  · exact hactive k (Option.some.inj h)
  · cases h

theorem runSync_meets {point next : RunSyncPoint} (h : point.proceed s = some (s',next))
    (hactive : ∀ k, s.active = some k → k < s.controls.length)
    (hp : (SyncThread.runSync point).Meets s) : (SyncThread.runSync next).Meets s' := by
  cases point with
  | takeControl =>
    obtain ⟨control,hcontrol,h⟩ := Option.map_eq_some_iff.mp h
    cases h
    cases control with
    | none => exact meets_of_none rfl rfl rfl rfl rfl
    | some control =>
      exact meets_of_control rfl (SyncState.control_lt hactive hcontrol) (fun h => by cases h)
        rfl rfl rfl rfl
  | acquire control =>
    rw [RunSyncPoint.proceed] at h
    split at h
    · cases h
      exact meets_of_none rfl rfl rfl rfl rfl
    · cases h
      exact meets_of_control rfl (hp.control control rfl) (fun h => by cases h) rfl rfl rfl rfl
  | createRuntime control =>
    cases h
    exact meets_of_control rfl (hp.control control rfl) (fun h => by cases h) rfl rfl rfl rfl
  | body control check =>
    cases h
    exact meets_of_control rfl (hp.control control rfl) ExitCheck.proceed_exit rfl rfl rfl rfl
  | release control outcome =>
    cases h
    exact meets_of_none rfl rfl rfl rfl rfl
  | returned => cases h

theorem advance_meets {credential : List UInt8} {point next : AdvancePoint}
    (h : point.proceed credential s = some next)
    (hactive : ∀ k, s.active = some k → k < s.controls.length)
    (hp : (SyncThread.advance credential point).Meets s) :
    (SyncThread.advance credential next).Meets s := by
  cases point with
  | takeControl =>
    obtain ⟨control,hcontrol,rfl⟩ := Option.map_eq_some_iff.mp h
    cases control with
    | none => exact meets_of_none rfl rfl rfl rfl rfl
    | some control =>
      exact meets_of_control rfl (SyncState.control_lt hactive hcontrol) (fun h => by cases h)
        rfl rfl rfl rfl
  | validate control =>
    cases h
    split
    · exact meets_of_control rfl (hp.control control rfl) (fun h => by cases h) rfl rfl rfl rfl
    · exact meets_of_none rfl rfl rfl rfl rfl
  | createRuntime control | report control =>
    cases h
    exact meets_of_control rfl (hp.control control rfl) (fun h => by cases h) rfl rfl rfl rfl
  | body control answered =>
    cases answered with
    | none =>
      cases h
      exact meets_of_control rfl (hp.control control rfl) (fun h => .inl (Option.some.inj h))
        rfl rfl rfl rfl
    | some answer =>
      cases h
      exact meets_of_control rfl (hp.control control rfl) (fun h => by cases h) rfl rfl rfl rfl
  | loadCancel control =>
    cases h
    exact meets_of_control rfl (hp.control control rfl) (fun h => .inl (Option.some.inj h))
      rfl rfl rfl rfl
  | finished | failed => cases h

theorem cancelOperation_meets {point next : OperationPoint} (h : point.cancel i s = some (s',next))
    (hactive : ∀ k, s.active = some k → k < s.controls.length)
    (hp : (SyncThread.cancelOperation point).Meets s) :
    (SyncThread.cancelOperation next).Meets s' := by
  cases point with
  | lock =>
    obtain ⟨control,hcontrol,h⟩ := Option.map_eq_some_iff.mp h
    cases control with
    | none =>
      cases h
      exact meets_of_none rfl rfl rfl rfl rfl
    | some control =>
      have hlt := SyncState.control_lt hactive hcontrol
      cases h
      exact meets_of_stops rfl hlt (fun _ h => by cases h) rfl rfl rfl
  | storeCancel control =>
    cases h
    exact meets_storeCancel (hp.stops control rfl) rfl rfl rfl rfl rfl
  | storeMode control =>
    cases h
    exact meets_storeStoppedMode (hp.stops control rfl) (hp.stopped control rfl) rfl rfl rfl rfl rfl
  | unlock control =>
    cases h
    exact meets_of_stops rfl (hp.stops control rfl) hp.stopped rfl rfl rfl
  | returned => cases h

theorem endOperation_meets {point next : OperationPoint} (h : point.end s = some (s',next))
    (hactive : ∀ k, s.active = some k → k < s.controls.length)
    (hp : (SyncThread.endOperation point).Meets s) : (SyncThread.endOperation next).Meets s' := by
  cases point with
  | lock =>
    obtain ⟨control,hcontrol,h⟩ := Option.map_eq_some_iff.mp h
    cases control with
    | none =>
      cases h
      exact meets_of_none rfl rfl rfl rfl rfl
    | some control =>
      have hlt := SyncState.control_lt hactive hcontrol
      cases h
      exact meets_of_stops rfl hlt (fun _ h => by cases h) rfl rfl rfl
  | storeCancel control =>
    cases h
    exact meets_storeCancel (hp.stops control rfl) rfl rfl rfl rfl rfl
  | storeMode control =>
    cases h
    exact meets_storeStoppedMode (hp.stops control rfl) (hp.stopped control rfl) rfl rfl rfl rfl rfl
  | unlock | returned => cases h

theorem observer_meets {point next : ObserverPoint} (h : point.proceed s = some (s',next))
    (hp : (SyncThread.startMempoolObserver point).Meets s) :
    (SyncThread.startMempoolObserver next).Meets s' := by
  cases point with
  | install =>
    rw [ObserverPoint.proceed] at h
    split at h
    · cases h
      exact meets_of_none rfl rfl rfl rfl rfl
    · cases h
      exact meets_of_token rfl rfl (by simp) (fun h => by cases h) rfl rfl rfl rfl
  | running token answered =>
    obtain ⟨hcancel,hlt⟩ := hp.token token rfl
    cases answered with
    | none =>
      cases h
      refine meets_of_token rfl hcancel hlt (fun h => ?_) rfl rfl rfl rfl
      have hflag := Option.some.inj h
      rw [List.getElem?_eq_getElem hlt] at hflag ⊢
      exact congrArg some hflag
    | some answer =>
      cases h
      exact meets_of_token rfl hcancel hlt (fun h => by cases h) rfl rfl rfl rfl
  | teardown =>
    cases h
    exact meets_of_none rfl rfl rfl rfl rfl
  | returned => cases h

theorem stopMempoolObserver_meets (hcancel : ∀ t, s.observer.cancel = some t → t < s.tokens.length) :
    (SyncThread.stopMempoolObserver (some s.stopMempoolObserver.2)).Meets s.stopMempoolObserver.1 := by
  rw [SyncState.stopMempoolObserver]
  split
  · exact meets_of_none rfl rfl rfl rfl rfl
  · rename_i token htoken
    exact {
      control := fun _ h => by cases h
      stops := fun _ h => by cases h
      stopped := fun _ h => by cases h
      answered := fun _ h => by cases h
      token := fun _ h => by cases h
      tokenAnswered := fun _ h => by cases h
      stopsToken := fun t ht => by
        cases ht
        exact List.getElem?_set_self (hcancel token htoken) }

theorem SyncThread.advance_meets {thread' : SyncThread} {choice : SyncChoice}
    (h : syncThreads.advance i choice s thread = some (s',thread'))
    (hactive : ∀ k, s.active = some k → k < s.controls.length)
    (hcancel : ∀ t, s.observer.cancel = some t → t < s.tokens.length) (hp : thread.Meets s) :
    thread'.Meets s' := by
  cases choice with
  | proceed =>
    cases thread with
    | runFullSync mode point =>
      obtain ⟨⟨s₁,next⟩,-,h⟩ := Option.map_eq_some_iff.mp h
      cases h
      exact meets_of_none rfl rfl rfl rfl rfl
    | cancelFullSync returned =>
      cases returned with
      | false =>
        cases h
        exact meets_of_none rfl rfl rfl rfl rfl
      | true => cases h
    | beginOperation returned =>
      cases returned with
      | none =>
        simp only [syncThreads,SyncThread.proceed,Option.ite_none_right_eq_some,Option.some.injEq,
          Prod.mk.injEq] at h
        obtain ⟨-,rfl,rfl⟩ := h
        exact meets_of_none rfl rfl rfl rfl rfl
      | some => cases h
    | cancelOperation point =>
      obtain ⟨⟨s₁,next⟩,hproceed,h⟩ := Option.map_eq_some_iff.mp h
      cases h
      exact cancelOperation_meets hproceed hactive hp
    | endOperation point =>
      obtain ⟨⟨s₁,next⟩,hproceed,h⟩ := Option.map_eq_some_iff.mp h
      cases h
      exact endOperation_meets hproceed hactive hp
    | runSync point =>
      obtain ⟨⟨s₁,next⟩,hproceed,h⟩ := Option.map_eq_some_iff.mp h
      cases h
      exact runSync_meets hproceed hactive hp
    | advance credential point =>
      obtain ⟨next,hproceed,h⟩ := Option.map_eq_some_iff.mp h
      cases h
      exact advance_meets hproceed hactive hp
    | startMempoolObserver point =>
      obtain ⟨⟨s₁,next⟩,hproceed,h⟩ := Option.map_eq_some_iff.mp h
      cases h
      exact observer_meets hproceed hp
    | stopMempoolObserver returned =>
      cases returned with
      | none =>
        cases h
        exact stopMempoolObserver_meets hcancel
      | some => cases h
  | ends body =>
    obtain ⟨next,hends,h⟩ := Option.map_eq_some_iff.mp h
    cases h
    cases thread with
    | runFullSync mode point =>
      obtain ⟨next,-,rfl⟩ := Option.map_eq_some_iff.mp hends
      exact meets_of_none rfl rfl rfl rfl rfl
    | runSync point =>
      obtain ⟨next,hends,rfl⟩ := Option.map_eq_some_iff.mp hends
      cases point with
      | createRuntime control | body control =>
        cases hends
        exact meets_of_control rfl (hp.control control rfl) (fun h => by cases h) rfl rfl rfl rfl
      | takeControl | acquire | release | returned => cases hends
    | advance credential point =>
      obtain ⟨next,hends,rfl⟩ := Option.map_eq_some_iff.mp hends
      cases point with
      | createRuntime control | report control =>
        cases body with
        | finishes => cases hends
        | fails | panics =>
          cases hends
          exact meets_of_none rfl rfl rfl rfl rfl
      | body control answered =>
        cases body with
        | finishes =>
          cases hends
          exact meets_of_control rfl (hp.control control rfl) (fun h => by cases h) rfl rfl rfl rfl
        | fails | panics =>
          cases hends
          exact meets_of_none rfl rfl rfl rfl rfl
      | takeControl | validate | loadCancel | finished | failed => cases body <;> cases hends
    | startMempoolObserver point =>
      obtain ⟨next,hends,rfl⟩ := Option.map_eq_some_iff.mp hends
      cases point with
      | running token answered =>
        obtain ⟨hcancel,hlt⟩ := hp.token token rfl
        cases hends
        exact meets_of_token rfl hcancel hlt (fun h => by cases h) rfl rfl rfl rfl
      | install | teardown | returned => cases hends
    | cancelFullSync | beginOperation | cancelOperation | endOperation | stopMempoolObserver =>
      cases hends

end

theorem SyncThread.outside_of_initial {thread : SyncThread} (h : thread.initial = true) :
    thread.holdsLane = false ∧ thread.observes = false := by
  unfold SyncThread.initial at h
  split at h
  all_goals first | exact ⟨rfl,rfl⟩ | cases h

theorem SyncThread.initial_meets {thread : SyncThread} (h : thread.initial = true) (s : SyncState) :
    thread.Meets s := by
  unfold SyncThread.initial at h
  split at h
  all_goals first | exact meets_of_none rfl rfl rfl rfl rfl | cases h

theorem SyncPool.Sound.started {thread : SyncThread} (hp : p.Sound)
    (hinitial : thread.initial = true) : SyncPool.Sound ⟨p.shared,p.threads ++ [thread]⟩ := by
  have hstep := Threads.step_of_start (m := syncThreads) (p := p) hinitial
  exact {
    lane := hp.lane.step (fun _ h => (SyncThread.outside_of_initial h).1)
      (fun _ _ _ _ _ _ h => (advance_step h).lane) hstep
    observer := hp.observer.step (fun _ h => (SyncThread.outside_of_initial h).2)
      (fun _ _ _ _ _ _ h => (advance_step h).observerLane) hstep
    active := hp.active
    cancel := hp.cancel
    stopped := fun k hk => by
      obtain ⟨c,stop,hstop,hstops⟩ := hp.stopped k hk
      exact ⟨c,stop,getElem?_append_of_some hstop,hstops⟩
    token := fun t ht => by
      obtain ⟨c,stop,hstop,hstops⟩ := hp.token t ht
      exact ⟨c,stop,getElem?_append_of_some hstop,hstops⟩ }

section
variable {i : Nat} {choice : SyncChoice} {thread thread' : SyncThread} {s' : SyncState}

theorem stopping_advanced {f : SyncThread → Option Nat} {k : Nat}
    (hkeeps : f thread = some k → f thread' = some k) (hthread : p.threads[i]? = some thread)
    (h : ∃ (c : Nat) (stop : SyncThread), p.threads[c]? = some stop ∧ f stop = some k) :
    ∃ (c : Nat) (stop : SyncThread), (p.threads.set i thread')[c]? = some stop ∧ f stop = some k := by
  obtain ⟨c,stop,hstop,hstops⟩ := h
  by_cases hc : c = i
  · subst hc
    rw [hthread] at hstop
    cases hstop
    exact ⟨c,thread',getElem?_set_own hthread,hkeeps hstops⟩
  · exact ⟨c,stop,(getElem?_set_other hc).trans hstop,hstops⟩

theorem SyncPool.Sound.advanced (hp : p.Sound) (hthread : p.threads[i]? = some thread)
    (hadvance : syncThreads.advance i choice p.shared thread = some (s',thread')) :
    SyncPool.Sound ⟨s',p.threads.set i thread'⟩ := by
  have hstep := Threads.step_of_advance hthread hadvance
  have hsync := advance_step hadvance
  have hown : (p.threads.set i thread')[i]? = some thread' := getElem?_set_own hthread
  exact {
    lane := hp.lane.step (fun _ h => (SyncThread.outside_of_initial h).1)
      (fun _ _ _ _ _ _ h => (advance_step h).lane) hstep
    observer := hp.observer.step (fun _ h => (SyncThread.outside_of_initial h).2)
      (fun _ _ _ _ _ _ h => (advance_step h).observerLane) hstep
    active := fun k hk => by
      rcases hsync.active with h | h | ⟨h,hlt⟩
      · exact Nat.lt_of_lt_of_le (hp.active k (h.symm.trans hk)) hsync.grows.controls
      · cases h.symm.trans hk
      · cases h.symm.trans hk
        exact hlt
    cancel := fun t ht => by
      dsimp only at ht
      rcases hsync.observer with h | ⟨h,-⟩ | ⟨h,hlt,-⟩
      · rw [h] at ht
        exact Nat.lt_of_lt_of_le (hp.cancel t ht) hsync.grows.tokens
      · rw [h] at ht
        cases ht
      · rw [h] at ht
        cases ht
        exact hlt
    stopped := fun k hk => by
      rcases hsync.cancelled k hk with h | h
      · exact stopping_advanced (hsync.stops k) hthread (hp.stopped k h)
      · exact ⟨i,thread',hown,h⟩
    token := fun t ht => by
      rcases hsync.token t ht with h | h
      · exact stopping_advanced (hsync.stopsToken t) hthread (hp.token t h)
      · exact ⟨i,thread',hown,h⟩ }

theorem SyncPool.Sound.others (hp : p.Sound) (hthread : p.threads[i]? = some thread)
    (hadvance : syncThreads.advance i choice p.shared thread = some (s',thread')) {j : Nat}
    {other : SyncThread} (hne : j ≠ i) (hother : p.threads[j]? = some other)
    (hmeets : other.Meets p.shared) : other.Meets s' := by
  have hsync := advance_step hadvance
  refine hmeets.grows hsync.grows fun t ht => ?_
  have hobserves : other.observes = true := by simp [SyncThread.observes,ht]
  rcases hsync.observer with h | ⟨-,h⟩ | ⟨-,-,h⟩
  · rw [h]
  · exact absurd (hp.observer.exclusive hother hobserves hthread h) hne
  · have hrunning := hp.observer.flag_eq_true hother hobserves
    rw [h] at hrunning
    cases hrunning

theorem syncOutline : syncThreads.Outline (fun _ _ => True) SyncPool.Sound
    (fun s _ thread => thread.Meets s) where
  started hp hinitial :=
    ⟨hp.invariant.started hinitial,SyncThread.initial_meets hinitial _⟩
  own hp _ hthread hadvance :=
    ⟨hp.invariant.advanced hthread hadvance,SyncThread.advance_meets hadvance hp.invariant.active
      hp.invariant.cancel (hp.thread _ _ hthread)⟩
  others hp _ hthread hadvance j other hne hother :=
    hp.invariant.others hthread hadvance hne hother (hp.thread j other hother)

end

/-- The pool and its threads meet their assertions. -/
abbrev SyncPool.Holds (p : SyncPool) : Prop :=
  ThreadPool.Holds SyncPool.Sound (fun s _ thread => SyncThread.Meets s thread) p

theorem SyncPool.holds_initial : SyncPool.Holds ⟨SyncState.initial,[]⟩ := by
  apply holds_nil
  exact {
    lane := flagged_nil rfl
    observer := flagged_nil rfl
    active := fun _ h => by cases h
    cancel := fun _ h => by cases h
    stopped := fun _ h => by rcases h with h | h <;> cases h
    token := fun _ h => by cases h }

theorem SyncPool.Holds.runs (hp : p.Holds) (hrun : Runs syncThreads.step p q) : q.Holds :=
  syncOutline.runs hrun hp

end CoppiceWallet.SyncControl
