import CoppiceWallet.SyncControl.Stops

/-! # Stops of operations and observers -/

namespace CoppiceWallet.SyncControl

open CoppiceWallet.Lib

variable {p q : SyncPool} {c i j k t : Nat}

/-- An exit check of the control is under way that has not found it stopped. -/
def SyncThread.passes (k : Nat) : SyncThread → Bool
  | .runSync (.body control .loadMode) | .runSync (.body control (.answered false)) => control == k
  | .advance _ (.body control (some false)) | .advance _ (.finished control false) => control == k
  | _ => false

theorem SyncThread.passes_of_exit {thread : SyncThread} (hcontrol : thread.control = some k)
    (hexit : thread.exit = some false) : thread.passes k = true := by
  cases thread with
  | runSync point =>
    cases point with
    | body control check =>
      cases hcontrol
      cases check with
      | answered exit =>
        cases hexit
        simp [SyncThread.passes]
      | idle | loadMode => cases hexit
    | _ => cases hexit
  | advance credential point =>
    cases point with
    | body control answered =>
      cases hcontrol
      cases hexit
      simp [SyncThread.passes]
    | finished control cancelled =>
      cases hcontrol
      cases hexit
      simp [SyncThread.passes]
    | _ => cases hexit
  | _ => cases hcontrol

theorem SyncThread.passes_of_checks {thread : SyncThread} (h : thread.checks = false) :
    thread.passes k = false := by
  unfold SyncThread.passes
  split
  all_goals first | rfl | cases h

theorem SyncThread.advance_passes {s s' : SyncState} {thread thread' : SyncThread}
    {choice : SyncChoice} (h : syncThreads.advance i choice s thread = some (s',thread'))
    (hcancelled : s.isCancelled k = true) (hpasses : thread.passes k = false) :
    thread'.passes k = false := by
  cases choice with
  | proceed =>
    cases thread with
    | runSync point =>
      obtain ⟨⟨s₁,next⟩,hproceed,h⟩ := Option.map_eq_some_iff.mp h
      cases h
      cases point with
      | takeControl =>
        obtain ⟨control,-,h⟩ := Option.map_eq_some_iff.mp hproceed
        cases h
        cases control <;> rfl
      | acquire control =>
        rw [RunSyncPoint.proceed] at hproceed
        split at hproceed <;> cases hproceed <;> rfl
      | createRuntime | release =>
        cases hproceed
        rfl
      | body control check =>
        cases hproceed
        cases check with
        | idle =>
          by_cases hk : control = k
          · subst hk
            simp [ExitCheck.proceed,hcancelled,SyncThread.passes]
          · cases s.isCancelled control <;> simp [ExitCheck.proceed,SyncThread.passes,hk]
        | loadMode =>
          have hk : control ≠ k := by simpa [SyncThread.passes] using hpasses
          cases s.isStoppedMode control <;> simp [ExitCheck.proceed,SyncThread.passes,hk]
        | answered => rfl
      | returned => cases hproceed
    | advance credential point =>
      obtain ⟨next,hproceed,h⟩ := Option.map_eq_some_iff.mp h
      cases h
      cases point with
      | takeControl =>
        obtain ⟨control,-,rfl⟩ := Option.map_eq_some_iff.mp hproceed
        cases control <;> rfl
      | validate control =>
        cases hproceed
        split <;> rfl
      | createRuntime | report =>
        cases hproceed
        rfl
      | body control answered =>
        cases answered with
        | none =>
          cases hproceed
          by_cases hk : control = k
          · subst hk
            simp [hcancelled,SyncThread.passes]
          · cases s.isCancelled control <;> simp [SyncThread.passes,hk]
        | some =>
          cases hproceed
          rfl
      | loadCancel control =>
        cases hproceed
        by_cases hk : control = k
        · subst hk
          simp [hcancelled,SyncThread.passes]
        · cases s.isCancelled control <;> simp [SyncThread.passes,hk]
      | finished | failed => cases hproceed
    | runFullSync | cancelOperation | endOperation | startMempoolObserver =>
      obtain ⟨⟨s₁,next⟩,-,h⟩ := Option.map_eq_some_iff.mp h
      cases h
      rfl
    | cancelFullSync returned =>
      cases returned <;> cases h
      rfl
    | beginOperation returned =>
      cases returned with
      | none =>
        simp only [syncThreads,SyncThread.proceed,Option.ite_none_right_eq_some,Option.some.injEq,
          Prod.mk.injEq] at h
        obtain ⟨-,-,rfl⟩ := h
        rfl
      | some => cases h
    | stopMempoolObserver returned =>
      cases returned <;> cases h
      rfl
  | ends body =>
    obtain ⟨next,hends,h⟩ := Option.map_eq_some_iff.mp h
    cases h
    cases thread with
    | runFullSync mode point =>
      obtain ⟨next,-,rfl⟩ := Option.map_eq_some_iff.mp hends
      rfl
    | runSync point =>
      obtain ⟨next,hends,rfl⟩ := Option.map_eq_some_iff.mp hends
      cases point with
      | createRuntime | body =>
        cases hends
        rfl
      | _ => cases hends
    | advance credential point =>
      obtain ⟨next,hends,rfl⟩ := Option.map_eq_some_iff.mp hends
      cases point <;> cases body <;> cases hends <;> rfl
    | startMempoolObserver point =>
      obtain ⟨next,-,rfl⟩ := Option.map_eq_some_iff.mp hends
      rfl
    | _ => cases hends

theorem SyncThread.initial_passes {thread : SyncThread} (h : thread.initial = true) :
    thread.passes k = false := by
  unfold SyncThread.initial at h
  split at h
  all_goals first | rfl | cases h

theorem operation_exits (hcancelled : p.shared.isCancelled k = true)
    (hpasses : ∀ u, p.threads[j]? = some u → u.passes k = false)
    (hrun : Runs syncThreads.step p q) :
    ∀ u, q.threads[j]? = some u → u.passes k = false := by
  have hall : q.shared.isCancelled k = true ∧ ∀ u, q.threads[j]? = some u → u.passes k = false := by
    apply hrun.invariant (P := fun m : SyncPool => m.shared.isCancelled k = true ∧
      ∀ u, m.threads[j]? = some u → u.passes k = false) _ ⟨hcancelled,hpasses⟩
    rintro input m m' ⟨hc,hm⟩ hstep
    cases input with
    | start thread =>
      obtain ⟨hinitial,rfl⟩ := Threads.step_start hstep
      refine ⟨hc,fun u hu => ?_⟩
      rcases getElem?_started hu with hu | ⟨-,rfl⟩
      · exact hm u hu
      · exact SyncThread.initial_passes hinitial
    | advance k' choice =>
      obtain ⟨thread,s',thread',hthread,hadvance,rfl⟩ := Threads.step_advance hstep
      refine ⟨(advance_step hadvance).grows.cancelled k hc,fun u hu => ?_⟩
      rcases getElem?_advanced hu with ⟨rfl,rfl⟩ | ⟨-,hu⟩
      · exact SyncThread.advance_passes hadvance hc (hm thread hthread)
      · exact hm u hu
  exact hall.2

theorem operation_fresh (hbegin : p.threads[i]? = some (.beginOperation none))
    (hrun : Runs syncThreads.step p q) :
    p.shared.controls.length ≤ q.shared.controls.length ∧
      ∃ returned, q.threads[i]? = some (.beginOperation returned) ∧
        ∀ k, returned = some (some k) → p.shared.controls.length ≤ k := by
  apply hrun.invariant (P := fun m : SyncPool =>
    p.shared.controls.length ≤ m.shared.controls.length ∧
      ∃ returned, m.threads[i]? = some (.beginOperation returned) ∧
        ∀ k, returned = some (some k) → p.shared.controls.length ≤ k) _
    ⟨Nat.le_refl _,none,hbegin,fun k h => by cases h⟩
  rintro input m m' ⟨hle,returned,hi,hfresh⟩ hstep
  cases input with
  | start thread =>
    obtain ⟨-,rfl⟩ := Threads.step_start hstep
    exact ⟨hle,returned,getElem?_append_of_some hi,hfresh⟩
  | advance k choice =>
    obtain ⟨thread,s',thread',hthread,hadvance,rfl⟩ := Threads.step_advance hstep
    refine ⟨Nat.le_trans hle (advance_step hadvance).grows.controls,?_⟩
    by_cases hk : i = k
    · subst hk
      rw [hi] at hthread
      cases hthread
      cases choice with
      | ends body => cases hadvance
      | proceed =>
        cases returned with
        | some => cases hadvance
        | none =>
          simp only [syncThreads,SyncThread.proceed,Option.ite_none_right_eq_some,Option.some.injEq,
            Prod.mk.injEq] at hadvance
          obtain ⟨-,-,rfl⟩ := hadvance
          refine ⟨_,getElem?_set_own hi,fun k hk => ?_⟩
          have hk := Option.some.inj hk
          rw [SyncState.beginOperation] at hk
          split at hk
          · cases hk
          · cases hk
            exact hle
    · exact ⟨returned,(getElem?_set_other hk).trans hi,hfresh⟩

/-- The observer has its token, or has given it back. -/
def ObserverPoint.Has (t : Nat) : ObserverPoint → Prop
  | .install => False
  | .running token _ | .teardown token _ => token = t
  | .returned _ => True

theorem ObserverPoint.Has.advance {s s' : SyncState} {choice : SyncChoice} {point : ObserverPoint}
    {thread' : SyncThread} (h : point.Has t)
    (hadvance : syncThreads.advance i choice s (.startMempoolObserver point) = some (s',thread')) :
    ∃ next : ObserverPoint, thread' = .startMempoolObserver next ∧ next.Has t ∧
      (s.tokens[t]? = some true → point ≠ .running t (some false) →
        next ≠ .running t (some false)) := by
  cases choice with
  | proceed =>
    obtain ⟨⟨s₁,next⟩,hproceed,hsame⟩ := Option.map_eq_some_iff.mp hadvance
    cases hsame
    refine ⟨next,rfl,?_⟩
    cases point with
    | install => exact absurd h id
    | running token answered =>
      cases h
      cases answered with
      | none =>
        cases hproceed
        refine ⟨rfl,fun ht _ => ?_⟩
        simp [ht]
      | some =>
        cases hproceed
        exact ⟨rfl,fun _ _ => by simp⟩
    | teardown =>
      cases hproceed
      exact ⟨trivial,fun _ _ => by simp⟩
    | returned => cases hproceed
  | ends body =>
    obtain ⟨next',hends,hsame⟩ := Option.map_eq_some_iff.mp hadvance
    cases hsame
    obtain ⟨next,hpoint,rfl⟩ := Option.map_eq_some_iff.mp hends
    refine ⟨next,rfl,?_⟩
    cases point with
    | running =>
      cases hpoint
      exact ⟨h,fun _ _ => by simp⟩
    | install | teardown | returned => cases hpoint

/-- The stop is still to be made, or it found the token, or the observer has ended. -/
def StoppingObserver (c i t : Nat) (p : SyncPool) : Prop :=
  ∃ point : ObserverPoint, p.threads[i]? = some (.startMempoolObserver point) ∧ point.Has t ∧
    (p.threads[c]? = some (.stopMempoolObserver none) ∨ point.token = none ∨
      p.shared.tokens[t]? = some true)

theorem ObserverPoint.Has.token {point : ObserverPoint} (h : point.Has t) :
    point.token = none ∨ point.token = some t := by
  cases point with
  | install => exact .inl rfl
  | running | teardown =>
    cases h
    exact .inr rfl
  | returned => exact .inl rfl

theorem StoppingObserver.step {input : ThreadInput SyncThread SyncChoice} (hp : p.Holds)
    (h : StoppingObserver c i t p) (hstep : syncThreads.step input p = .ok q) :
    StoppingObserver c i t q := by
  obtain ⟨point,hi,hhas,hstop⟩ := h
  cases input with
  | start thread =>
    obtain ⟨-,rfl⟩ := Threads.step_start hstep
    exact ⟨point,getElem?_append_of_some hi,hhas,hstop.imp_left getElem?_append_of_some⟩
  | advance k choice =>
    obtain ⟨thread,s',thread',hthread,hadvance,rfl⟩ := Threads.step_advance hstep
    have hgrows := (advance_step hadvance).grows
    by_cases hk : k = i
    · subst hk
      rw [hi] at hthread
      cases hthread
      obtain ⟨next,rfl,hnext,-⟩ := hhas.advance hadvance
      refine ⟨next,getElem?_set_own hi,hnext,?_⟩
      rcases hstop with hc | hended | ht
      · have hne : c ≠ k := by
          rintro rfl
          rw [hi] at hc
          cases hc
        exact .inl ((getElem?_set_other hne).trans hc)
      · cases point with
        | install => exact absurd hhas id
        | running | teardown => cases hended
        | returned => cases choice <;> cases hadvance
      · exact .inr (.inr (hgrows.token t ht))
    · have hi' := (getElem?_set_other (v := thread') (Ne.symm hk)).trans hi
      refine ⟨point,hi',hhas,?_⟩
      rcases hstop with hc | hended | ht
      · by_cases hkc : k = c
        · subst hkc
          rw [hc] at hthread
          cases hthread
          cases choice with
          | ends body => cases hadvance
          | proceed =>
            cases hadvance
            refine .inr (hhas.token.imp_right fun htoken => ?_)
            have hmeets := (hp.thread i _ hi).token t htoken
            simp only [SyncState.stopMempoolObserver,hmeets.1]
            exact List.getElem?_set_self hmeets.2
        · exact .inl ((getElem?_set_other (Ne.symm hkc)).trans hc)
      · exact .inr (.inl hended)
      · exact .inr (.inr (hgrows.token t ht))

theorem observer_exits {point : ObserverPoint}
    (hi : p.threads[i]? = some (.startMempoolObserver point)) (hhas : point.Has t)
    (ht : point.token = none ∨ p.shared.tokens[t]? = some true)
    (hpasses : point ≠ .running t (some false)) (hrun : Runs syncThreads.step p q) :
    ∃ next : ObserverPoint, q.threads[i]? = some (.startMempoolObserver next) ∧ next.Has t ∧
      next ≠ .running t (some false) := by
  have hall : ∃ next : ObserverPoint, q.threads[i]? = some (.startMempoolObserver next) ∧
      next.Has t ∧ (next.token = none ∨ q.shared.tokens[t]? = some true) ∧
      next ≠ .running t (some false) := by
    apply hrun.invariant (P := fun m : SyncPool => ∃ next : ObserverPoint,
      m.threads[i]? = some (.startMempoolObserver next) ∧ next.Has t ∧
        (next.token = none ∨ m.shared.tokens[t]? = some true) ∧ next ≠ .running t (some false)) _
      ⟨point,hi,hhas,ht,hpasses⟩
    rintro input m m' ⟨now,hnow,hhas,ht,hpasses⟩ hstep
    cases input with
    | start thread =>
      obtain ⟨-,rfl⟩ := Threads.step_start hstep
      exact ⟨now,getElem?_append_of_some hnow,hhas,ht,hpasses⟩
    | advance k choice =>
      obtain ⟨thread,s',thread',hthread,hadvance,rfl⟩ := Threads.step_advance hstep
      have hgrows := (advance_step hadvance).grows
      by_cases hk : k = i
      · subst hk
        rw [hnow] at hthread
        cases hthread
        obtain ⟨next,rfl,hnext,hpassed⟩ := hhas.advance hadvance
        rcases ht with hended | ht
        · cases now with
          | install => exact absurd hhas id
          | running | teardown => cases hended
          | returned => cases choice <;> cases hadvance
        · exact ⟨next,getElem?_set_own hnow,hnext,.inr (hgrows.token t ht),hpassed ht hpasses⟩
      · exact ⟨now,(getElem?_set_other (Ne.symm hk)).trans hnow,hhas,ht.imp_right (hgrows.token t),
          hpasses⟩
  obtain ⟨next,hnext,hhas,-,hpassed⟩ := hall
  exact ⟨next,hnext,hhas,hpassed⟩

theorem observer_fresh (hinstall : p.threads[i]? = some (.startMempoolObserver .install))
    (hrun : Runs syncThreads.step p q) :
    p.shared.tokens.length ≤ q.shared.tokens.length ∧
      ∃ point : ObserverPoint, q.threads[i]? = some (.startMempoolObserver point) ∧
        ∀ t, point.token = some t → p.shared.tokens.length ≤ t := by
  apply hrun.invariant (P := fun m : SyncPool =>
    p.shared.tokens.length ≤ m.shared.tokens.length ∧
      ∃ point : ObserverPoint, m.threads[i]? = some (.startMempoolObserver point) ∧
        ∀ t, point.token = some t → p.shared.tokens.length ≤ t) _
    ⟨Nat.le_refl _,.install,hinstall,fun t h => by cases h⟩
  rintro input m m' ⟨hle,point,hi,hfresh⟩ hstep
  cases input with
  | start thread =>
    obtain ⟨-,rfl⟩ := Threads.step_start hstep
    exact ⟨hle,point,getElem?_append_of_some hi,hfresh⟩
  | advance k choice =>
    obtain ⟨thread,s',thread',hthread,hadvance,rfl⟩ := Threads.step_advance hstep
    refine ⟨Nat.le_trans hle (advance_step hadvance).grows.tokens,?_⟩
    by_cases hk : i = k
    · subst hk
      rw [hi] at hthread
      cases hthread
      cases point with
      | install =>
        cases choice with
        | ends body => cases hadvance
        | proceed =>
          obtain ⟨⟨s₁,next⟩,hproceed,hsame⟩ := Option.map_eq_some_iff.mp hadvance
          cases hsame
          refine ⟨next,getElem?_set_own hi,fun t ht => ?_⟩
          rw [ObserverPoint.proceed] at hproceed
          split at hproceed
          · cases hproceed
            cases ht
          · cases hproceed
            cases ht
            exact hle
      | running token answered =>
        have hhas : ObserverPoint.Has token (.running token answered) := rfl
        obtain ⟨next,rfl,hnext,-⟩ := hhas.advance hadvance
        refine ⟨next,getElem?_set_own hi,fun t ht => ?_⟩
        rcases hnext.token with h | h
        · cases ht.symm.trans h
        · cases ht.symm.trans h
          exact hfresh token rfl
      | teardown token result =>
        have hhas : ObserverPoint.Has token (.teardown token result) := rfl
        obtain ⟨next,rfl,hnext,-⟩ := hhas.advance hadvance
        refine ⟨next,getElem?_set_own hi,fun t ht => ?_⟩
        rcases hnext.token with h | h
        · cases ht.symm.trans h
        · cases ht.symm.trans h
          exact hfresh token rfl
      | returned => cases choice <;> cases hadvance
    · exact ⟨point,(getElem?_set_other hk).trans hi,hfresh⟩

end CoppiceWallet.SyncControl
