import CoppiceWallet.SyncControl.Stops

/-! # Stops of full syncs -/

namespace CoppiceWallet.SyncControl

open CoppiceWallet.Lib

variable {p q r : SyncPool} {i c : Nat} {mode : UInt8}

/-- A full sync that has taken the lane and has not reset the cancel flag yet. -/
def SyncThread.resetsCancel : SyncThread → Bool
  | .runFullSync _ .storeMode | .runFullSync _ .setup | .runFullSync _ .resetCancel => true
  | _ => false

def SyncThread.cancels : SyncThread → Bool
  | .cancelFullSync false => true
  | _ => false

/-- No full sync is cancelled between its acquisition of the lane and its reset of the flag. -/
def KeepsStops : ThreadInput SyncThread SyncChoice → SyncPool → Prop
  | .start _, _ => True
  | .advance i _, p =>
    (p.threads[i]?.any SyncThread.cancels && p.threads.any SyncThread.resetsCancel) = false

instance : ∀ (input : ThreadInput SyncThread SyncChoice) (p : SyncPool),
    Decidable (KeepsStops input p)
  | .start _, _ => isTrue trivial
  | .advance i _, p => inferInstanceAs (Decidable
      ((p.threads[i]?.any SyncThread.cancels && p.threads.any SyncThread.resetsCancel) = false))

/-- The sync has reset the flag, which is set again, or it has ended. -/
def FullSyncPoint.Cancelled (s : SyncState) : FullSyncPoint → Prop
  | .createRuntime | .body _ => s.syncCancel = true
  | .release _ | .returned _ => True
  | _ => False

/-- No exit check of the body comes out false. -/
def FullSyncPoint.passes : FullSyncPoint → Bool
  | .body .loadMode | .body (.answered false) => true
  | _ => false

variable {next point : FullSyncPoint} {s' : SyncState}

theorem FullSyncPoint.Cancelled.proceed {s : SyncState} (h : point.Cancelled s)
    (hproceed : point.proceed mode s = some (s',next)) :
    next.Cancelled s' ∧ (point.passes = false → next.passes = false) := by
  cases point with
  | createRuntime =>
    cases hproceed
    exact ⟨h,fun _ => rfl⟩
  | body check =>
    have hcancel : s.syncCancel = true := h
    simp only [FullSyncPoint.proceed,hcancel] at hproceed
    cases hproceed
    refine ⟨hcancel,fun hpasses => ?_⟩
    cases check with
    | idle => rfl
    | loadMode => cases hpasses
    | answered => rfl
  | release =>
    cases hproceed
    exact ⟨trivial,fun _ => rfl⟩
  | returned => cases hproceed
  | acquire | storeMode | setup | resetCancel => exact absurd h id

theorem FullSyncPoint.Cancelled.ends {s : SyncState} {body : BodyEnd}
    (hends : point.ends body = some next) : next.Cancelled s ∧ next.passes = false := by
  cases point with
  | setup | createRuntime | body =>
    cases hends
    exact ⟨trivial,rfl⟩
  | acquire | storeMode | resetCancel | release | returned => cases hends

theorem FullSyncPoint.Cancelled.others (hp : p.Sound) (h : point.Cancelled p.shared)
    (hi : p.threads[i]? = some (.runFullSync mode point)) {k : Nat} {choice : SyncChoice}
    {thread thread' : SyncThread} (hne : k ≠ i) (hthread : p.threads[k]? = some thread)
    (hadvance : syncThreads.advance k choice p.shared thread = some (s',thread')) :
    point.Cancelled s' := by
  have hkept (hlane : point.holdsLane = true) (hcancel : p.shared.syncCancel = true) :
      s'.syncCancel = true := by
    rcases (advance_step hadvance).syncCancel with hs | ⟨hs,-⟩ | ⟨mode',rfl⟩
    · exact hs.trans hcancel
    · exact hs
    · exact absurd (hp.lane.exclusive hthread rfl hi hlane) hne
  cases point with
  | createRuntime | body => exact hkept rfl h
  | release | returned => trivial
  | acquire | storeMode | setup | resetCancel => exact absurd h id

variable {input : ThreadInput SyncThread SyncChoice}

theorem fullSync_cancelled_step (hp : p.Sound) (hi : p.threads[i]? = some (.runFullSync mode point))
    (h : point.Cancelled p.shared) (hstep : syncThreads.step input p = .ok q) :
    ∃ next : FullSyncPoint, q.threads[i]? = some (.runFullSync mode next) ∧
      next.Cancelled q.shared ∧ (point.passes = false → next.passes = false) := by
  cases input with
  | start thread =>
    obtain ⟨-,rfl⟩ := Threads.step_start hstep
    exact ⟨point,getElem?_append_of_some hi,h,id⟩
  | advance k choice =>
    obtain ⟨thread,s',thread',hthread,hadvance,rfl⟩ := Threads.step_advance hstep
    by_cases hk : k = i
    · subst hk
      rw [hi] at hthread
      cases hthread
      cases choice with
      | proceed =>
        obtain ⟨⟨s₁,next⟩,hproceed,hsame⟩ := Option.map_eq_some_iff.mp hadvance
        cases hsame
        exact ⟨next,getElem?_set_own hi,h.proceed hproceed⟩
      | ends body =>
        obtain ⟨next',hends,hsame⟩ := Option.map_eq_some_iff.mp hadvance
        cases hsame
        obtain ⟨next,hpoint,rfl⟩ := Option.map_eq_some_iff.mp hends
        obtain ⟨hcancelled,hpasses⟩ := FullSyncPoint.Cancelled.ends (s := p.shared) hpoint
        exact ⟨next,getElem?_set_own hi,hcancelled,fun _ => hpasses⟩
    · exact ⟨point,(getElem?_set_other (Ne.symm hk)).trans hi,h.others hp hi hk hthread hadvance,id⟩

/-- The cancel is still to be made while the sync holds the lane, or the sync is cancelled. -/
def Cancelling (c i : Nat) (mode : UInt8) (p : SyncPool) : Prop :=
  ∃ point : FullSyncPoint, p.threads[i]? = some (.runFullSync mode point) ∧
    (p.threads[c]? = some (.cancelFullSync false) ∧ point.holdsLane = true ∨
      point.Cancelled p.shared)

theorem FullSyncPoint.proceed_holdsLane {s : SyncState} (h : point.proceed mode s = some (s',next))
    (hlane : point.holdsLane = true) : next.holdsLane = true ∨ next.Cancelled s' := by
  cases point with
  | acquire | returned => cases hlane
  | release =>
    cases h
    exact .inr trivial
  | storeMode | setup | resetCancel | createRuntime | body =>
    cases h
    exact .inl rfl

theorem FullSyncPoint.cancelled_of_holdsLane {s : SyncState} (hlane : point.holdsLane = true)
    (hreset : (SyncThread.runFullSync mode point).resetsCancel = false)
    (hcancel : s.syncCancel = true) : point.Cancelled s := by
  cases point with
  | storeMode | setup | resetCancel => cases hreset
  | createRuntime | body => exact hcancel
  | release => trivial
  | acquire | returned => cases hlane

theorem Cancelling.step (hp : p.Sound) (h : Cancelling c i mode p) (hguard : KeepsStops input p)
    (hstep : syncThreads.step input p = .ok q) : Cancelling c i mode q := by
  obtain ⟨point,hi,⟨hc,hlane⟩ | hcancelled⟩ := h
  · cases input with
    | start thread =>
      obtain ⟨-,rfl⟩ := Threads.step_start hstep
      exact ⟨point,getElem?_append_of_some hi,.inl ⟨getElem?_append_of_some hc,hlane⟩⟩
    | advance k choice =>
      obtain ⟨thread,s',thread',hthread,hadvance,rfl⟩ := Threads.step_advance hstep
      have hne : c ≠ i := by
        rintro rfl
        rw [hi] at hc
        cases hc
      by_cases hk : k = c
      · subst hk
        rw [hc] at hthread
        cases hthread
        cases choice with
        | ends body => cases hadvance
        | proceed =>
          cases hadvance
          refine ⟨point,(getElem?_set_other (Ne.symm hne)).trans hi,.inr ?_⟩
          simp only [KeepsStops,hc,Option.any_some,SyncThread.cancels,Bool.true_and,
            List.any_eq_false] at hguard
          have hreset := hguard _ (List.mem_of_getElem? hi)
          have hkept : (SyncThread.runFullSync mode point).resetsCancel = false := by
            simpa using hreset
          exact FullSyncPoint.cancelled_of_holdsLane hlane hkept rfl
      · have hc' := (getElem?_set_other (v := thread') (Ne.symm hk)).trans hc
        by_cases hki : k = i
        · subst hki
          rw [hi] at hthread
          cases hthread
          cases choice with
          | proceed =>
            obtain ⟨⟨s₁,next⟩,hproceed,hsame⟩ := Option.map_eq_some_iff.mp hadvance
            cases hsame
            exact ⟨next,getElem?_set_own hi,
              (FullSyncPoint.proceed_holdsLane hproceed hlane).imp_left fun h => ⟨hc',h⟩⟩
          | ends body =>
            obtain ⟨next',hends,hsame⟩ := Option.map_eq_some_iff.mp hadvance
            cases hsame
            obtain ⟨next,hpoint,rfl⟩ := Option.map_eq_some_iff.mp hends
            exact ⟨next,getElem?_set_own hi,.inr (FullSyncPoint.Cancelled.ends hpoint).1⟩
        · exact ⟨point,(getElem?_set_other (Ne.symm hki)).trans hi,.inl ⟨hc',hlane⟩⟩
  · obtain ⟨next,hnext,hcancelled,-⟩ := fullSync_cancelled_step hp hi hcancelled hstep
    exact ⟨next,hnext,.inr hcancelled⟩

theorem Cancelling.runs (hp : p.Holds) (h : Cancelling c i mode p)
    (hrun : GuardedRuns syncThreads.step KeepsStops p q) : Cancelling c i mode q := by
  have hboth : q.Holds ∧ Cancelling c i mode q := by
    apply hrun.invariant (P := fun m : SyncPool => m.Holds ∧ Cancelling c i mode m) _ ⟨hp,h⟩
    intro input m m' hm hguard hstep
    exact ⟨hm.1.runs (.tail input (.refl m) hstep),hm.2.step hm.1.invariant hguard hstep⟩
  exact hboth.2

theorem fullSync_exits (hp : p.Holds) (hi : p.threads[i]? = some (.runFullSync mode point))
    (h : point.Cancelled p.shared) (hpasses : point.passes = false)
    (hrun : Runs syncThreads.step p q) :
    ∃ next : FullSyncPoint, q.threads[i]? = some (.runFullSync mode next) ∧ next.passes = false := by
  have hall : q.Holds ∧ ∃ next : FullSyncPoint, q.threads[i]? = some (.runFullSync mode next) ∧
      next.Cancelled q.shared ∧ next.passes = false := by
    apply hrun.invariant (P := fun m : SyncPool => m.Holds ∧ ∃ next : FullSyncPoint,
      m.threads[i]? = some (.runFullSync mode next) ∧ next.Cancelled m.shared ∧
        next.passes = false) _ ⟨hp,point,hi,h,hpasses⟩
    rintro input m m' ⟨hm,next,hnext,hcancelled,hpassed⟩ hstep
    obtain ⟨next',hnext',hcancelled',hpasses'⟩ :=
      fullSync_cancelled_step hm.invariant hnext hcancelled hstep
    exact ⟨hm.runs (.tail input (.refl m) hstep),next',hnext',hcancelled',hpasses' hpassed⟩
  obtain ⟨-,next,hnext,-,hpassed⟩ := hall
  exact ⟨next,hnext,hpassed⟩

/-- A cancel was made between two states of a run, while the sync held the lane. -/
def CancelledDuring (i : Nat) (p q : SyncPool) : Prop :=
  ∃ (m m' : SyncPool) (c : Nat) (thread : SyncThread), Runs syncThreads.step p m ∧
    m.threads[c]? = some (.cancelFullSync false) ∧ m.threads[i]? = some thread ∧
    thread.holdsLane = true ∧ syncThreads.step (.advance c .proceed) m = .ok m' ∧
    Runs syncThreads.step m' q

theorem CancelledDuring.tail (h : CancelledDuring i p q)
    (hstep : syncThreads.step input q = .ok r) : CancelledDuring i p r := by
  obtain ⟨m,m',c,thread,hm,hc,hi,hlane,hcancel,hrun⟩ := h
  exact ⟨m,m',c,thread,hm,hc,hi,hlane,hcancel,hrun.tail input hstep⟩

/-- What a sync that started in `p` has found. -/
def FullSyncPoint.Answers (i : Nat) (mode : UInt8) (p q : SyncPool) : FullSyncPoint → Prop
  | .acquire | .storeMode | .release _ | .returned _ => True
  | .setup | .resetCancel => q.shared.desiredSyncMode = mode
  | .createRuntime => q.shared.desiredSyncMode = mode ∧
      (q.shared.syncCancel = true → CancelledDuring i p q)
  | .body check => q.shared.desiredSyncMode = mode ∧
      (q.shared.syncCancel = true → CancelledDuring i p q) ∧
      (check.exit = some true → CancelledDuring i p q)

theorem FullSyncPoint.Answers.others (hq : q.Sound) {k : Nat} {choice : SyncChoice}
    {thread thread' : SyncThread} (h : point.Answers i mode p q)
    (hi : q.threads[i]? = some (.runFullSync mode point)) (hrun : Runs syncThreads.step p q)
    (hne : k ≠ i) (hthread : q.threads[k]? = some thread)
    (hadvance : syncThreads.advance k choice q.shared thread = some (s',thread')) :
    point.Answers i mode p ⟨s',q.threads.set k thread'⟩ := by
  have hstep := Threads.step_of_advance hthread hadvance
  have hsync := advance_step hadvance
  have hmode (hlane : point.holdsLane = true) (h : q.shared.desiredSyncMode = mode) :
      s'.desiredSyncMode = mode := by
    rcases hsync.mode with hs | hs
    · exact hs.trans h
    · exact absurd (hq.lane.exclusive hthread hs hi hlane) hne
  have hcancel (hlane : point.holdsLane = true)
      (h : q.shared.syncCancel = true → CancelledDuring i p q) (hset : s'.syncCancel = true) :
      CancelledDuring i p ⟨s',q.threads.set k thread'⟩ := by
    rcases hsync.syncCancel with hs | ⟨-,rfl⟩ | ⟨mode',rfl⟩
    · exact (h (hs.symm.trans hset)).tail hstep
    · cases choice with
      | proceed => exact ⟨q,_,k,_,hrun,hthread,hi,hlane,hstep,.refl _⟩
      | ends body => cases hadvance
    · exact absurd (hq.lane.exclusive hthread rfl hi hlane) hne
  cases point with
  | acquire | storeMode | release | returned => trivial
  | setup | resetCancel => exact hmode rfl h
  | createRuntime => exact ⟨hmode rfl h.1,hcancel rfl h.2⟩
  | body check => exact ⟨hmode rfl h.1,hcancel rfl h.2.1,fun hexit => (h.2.2 hexit).tail hstep⟩

theorem FullSyncPoint.Answers.proceed {threads : List SyncThread} (h : point.Answers i mode p q)
    (hproceed : point.proceed mode q.shared = some (s',next))
    (hstep : syncThreads.step input q = .ok ⟨s',threads⟩) :
    next.Answers i mode p ⟨s',threads⟩ := by
  cases point with
  | acquire =>
    rw [FullSyncPoint.proceed] at hproceed
    split at hproceed <;> cases hproceed <;> trivial
  | storeMode =>
    cases hproceed
    rfl
  | setup =>
    cases hproceed
    exact h
  | resetCancel =>
    cases hproceed
    exact ⟨h,fun hset => by cases hset⟩
  | createRuntime =>
    cases hproceed
    exact ⟨h.1,fun hset => (h.2 hset).tail hstep,fun hexit => by cases hexit⟩
  | body check =>
    cases hproceed
    refine ⟨h.1,fun hset => (h.2.1 hset).tail hstep,fun hexit => ?_⟩
    rcases ExitCheck.proceed_exit hexit with hset | hmode
    · exact (h.2.1 hset).tail hstep
    · simp [h.1] at hmode
  | release =>
    cases hproceed
    trivial
  | returned => cases hproceed

/-- An exit check of a sync that started in `p` comes out true only when the sync was cancelled
while it held the lane. -/
theorem fullSync_answers (hp : p.Holds)
    (hi : p.threads[i]? = some (.runFullSync mode .acquire)) (hrun : Runs syncThreads.step p q) :
    ∃ point : FullSyncPoint, q.threads[i]? = some (.runFullSync mode point) ∧
      point.Answers i mode p q := by
  induction hrun with
  | refl => exact ⟨.acquire,hi,trivial⟩
  | tail input hrun hstep ih =>
    obtain ⟨point,hpoint,hanswers⟩ := ih
    have hm := hp.runs hrun
    cases input with
    | start thread =>
      have hq := (Threads.step_start hstep).2
      refine ⟨point,?_,?_⟩
      · rw [hq]
        exact getElem?_append_of_some hpoint
      · cases point with
        | acquire | storeMode | release | returned => trivial
        | setup | resetCancel =>
          rw [hq]
          exact hanswers
        | createRuntime =>
          refine ⟨by rw [hq]; exact hanswers.1,fun hset => (hanswers.2 ?_).tail hstep⟩
          rw [hq] at hset
          exact hset
        | body check =>
          refine ⟨by rw [hq]; exact hanswers.1,fun hset => (hanswers.2.1 ?_).tail hstep,
            fun hexit => (hanswers.2.2 hexit).tail hstep⟩
          rw [hq] at hset
          exact hset
    | advance k choice =>
      obtain ⟨thread,s',thread',hthread,hadvance,hq⟩ := Threads.step_advance hstep
      subst hq
      by_cases hk : k = i
      · subst hk
        rw [hpoint] at hthread
        cases hthread
        cases choice with
        | proceed =>
          obtain ⟨⟨s₁,next⟩,hproceed,hsame⟩ := Option.map_eq_some_iff.mp hadvance
          cases hsame
          exact ⟨next,getElem?_set_own hpoint,hanswers.proceed hproceed hstep⟩
        | ends body =>
          obtain ⟨next',hends,hsame⟩ := Option.map_eq_some_iff.mp hadvance
          cases hsame
          obtain ⟨next,hend,rfl⟩ := Option.map_eq_some_iff.mp hends
          refine ⟨next,getElem?_set_own hpoint,?_⟩
          cases point with
          | setup | createRuntime | body =>
            cases hend
            trivial
          | acquire | storeMode | resetCancel | release | returned => cases hend
      · exact ⟨point,(getElem?_set_other (Ne.symm hk)).trans hpoint,
          hanswers.others hm.invariant hpoint hrun hk hthread hadvance⟩

end CoppiceWallet.SyncControl
