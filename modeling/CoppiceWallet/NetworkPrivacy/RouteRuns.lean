import CoppiceWallet.NetworkPrivacy.RouteLocks

/-! # Leases and requests over a run -/

namespace CoppiceWallet.NetworkPrivacy

open CoppiceWallet.Lib

variable {C : Type} {isolatedClient : C → C} {p q r : Route C}

def LeasePoint.epoch : LeasePoint → Option Nat
  | .idle epoch | .checkDesired epoch | .checkEpoch epoch | .running epoch => some epoch
  | .creating | .dropped => none

/-- No lease is of an epoch to come, and one that runs is of the present one. -/
def Route.Epochs (p : Route C) : Prop :=
  ∀ (i : Nat) (point : LeasePoint) (epoch : Nat), p.threads[i]? = some (.lease point) →
    point.epoch = some epoch → epoch ≤ p.shared.directRouteEpoch ∧
      (point = .running epoch → epoch = p.shared.directRouteEpoch)

variable {i : Nat} {choice : RouteChoice C} {s s' : RouteState C}

theorem LeasePoint.advance_epoch {epoch : Nat} {point next : LeasePoint}
    (h : point.advance i choice s = some (s',next)) (hepoch : next.epoch = some epoch) :
    s'.directRouteEpoch = s.directRouteEpoch ∧
      (point.epoch = some epoch ∨ point = .creating ∧ epoch = s.directRouteEpoch) ∧
      (next = .running epoch → epoch = s.directRouteEpoch) := by
  cases point with
  | creating =>
    cases h
    cases hepoch
    exact ⟨rfl,.inr ⟨rfl,rfl⟩,fun hnext => by cases hnext⟩
  | idle e =>
    simp only [LeasePoint.advance,Option.ite_none_right_eq_some] at h
    cases choice with
    | drop =>
      cases h.2
      cases hepoch
    | _ =>
      cases h.2
      exact ⟨rfl,.inl hepoch,fun hnext => by cases hnext⟩
  | checkDesired e =>
    simp only [LeasePoint.advance] at h
    split at h
    all_goals
      cases h
      exact ⟨rfl,.inl hepoch,fun hnext => by cases hnext⟩
  | checkEpoch e =>
    simp only [LeasePoint.advance] at h
    split at h
    · cases h
      exact ⟨rfl,.inl hepoch,fun hnext => by cases hnext⟩
    · rename_i hsame
      cases h
      cases hepoch
      exact ⟨rfl,.inl rfl,fun _ => by simpa using hsame⟩
  | running e =>
    cases h
    exact ⟨rfl,.inl hepoch,fun hnext => by cases hnext⟩
  | dropped => cases h

theorem RouteThread.advance_lease {thread : RouteThread C} {next : LeasePoint}
    (h : thread.advance isolatedClient i choice s = some (s',.lease next)) :
    ∃ point, thread = .lease point ∧ point.advance i choice s = some (s',next) := by
  cases thread with
  | begin point =>
    cases point with
    | lockWakers | lockSlot =>
      simp [RouteThread.advance,BeginPoint.advance] at h
    | _ => cases h
  | lease point =>
    obtain ⟨⟨s₁,next'⟩,hadvance,h⟩ := Option.map_eq_some_iff.mp h
    cases h
    exact ⟨point,rfl,hadvance⟩
  | fail point => cases point <;> simp [RouteThread.advance] at h
  | enable | disable | routing => simp [RouteThread.advance] at h

variable {input : ThreadInput (RouteThread C) (RouteChoice C)}

theorem Route.Epochs.step (hp : p.Epochs) (hlocked : p.Locked)
    (hstep : (routeThreads isolatedClient).step input p = .ok q) : q.Epochs := by
  intro j point epoch hj hepoch
  cases input with
  | start thread =>
    obtain ⟨hstart,rfl⟩ := Threads.step_start hstep
    rcases getElem?_started hj with hj | ⟨-,rfl⟩
    · exact hp j point epoch hj hepoch
    · cases point with
      | creating => cases hepoch
      | _ => cases hstart
  | advance i choice =>
    obtain ⟨thread,s',thread',hthread,hadvance,rfl⟩ := Threads.step_advance hstep
    rcases getElem?_advanced hj with ⟨rfl,rfl⟩ | ⟨hne,hj⟩
    · obtain ⟨before,rfl,hlease⟩ := RouteThread.advance_lease hadvance
      obtain ⟨hsame,hbefore,hrunning⟩ := LeasePoint.advance_epoch hlease hepoch
      dsimp only
      rw [hsame]
      refine ⟨?_,hrunning⟩
      rcases hbefore with hbefore | ⟨-,rfl⟩
      · exact (hp j before epoch hthread hbefore).1
      · exact Nat.le_refl _
    · obtain ⟨hle,hrunning⟩ := hp j point epoch hj hepoch
      have hadv := RouteThread.advance_step hadvance
      rcases hadv.epoch with hsame | ⟨hnext,rfl⟩
      · dsimp only
        rw [hsame]
        exact ⟨hle,hrunning⟩
      · dsimp only
        rw [hnext]
        refine ⟨by omega,fun hpoint => ?_⟩
        have hexclusive := hlocked.wakers.exclusive hthread rfl hj hne
        rw [hpoint] at hexclusive
        cases hexclusive

/-- What all states of the route meet. -/
structure Route.Sound (p : Route C) : Prop where
  locked : p.Locked
  epochs : p.Epochs

theorem Route.Sound.step (hp : p.Sound)
    (hstep : (routeThreads isolatedClient).step input p = .ok q) : q.Sound :=
  ⟨hp.locked.step hstep,hp.epochs.step hp.locked hstep⟩

theorem Route.Sound.runs (hp : p.Sound) (hrun : Runs (routeThreads isolatedClient).step p q) :
    q.Sound :=
  hrun.invariant (fun _ _ _ hp hstep => hp.step hstep) hp

theorem Route.sound_initial : Route.Sound (⟨RouteState.initial C,[]⟩ : Route C) :=
  ⟨Route.locked_initial,fun _ _ _ h => by cases h⟩

/-- The points of a begin call that come before the new epoch. -/
def BeginPoint.beforeEpoch : BeginPoint → Bool
  | .lockWakers | .storeDesired | .storeStatus | .advanceEpoch => true
  | _ => false

/-- The lease is of an epoch that the begin call ends. -/
structure Cancelling (i j epoch : Nat) (q : Route C) : Prop where
  lease : ∃ point : LeasePoint, q.threads[j]? = some (.lease point) ∧ point ≠ .creating ∧
    ∀ e, point.epoch = some e → e = epoch
  old : epoch ≤ q.shared.directRouteEpoch
  ended : epoch < q.shared.directRouteEpoch ∨
    ∃ point : BeginPoint, q.threads[i]? = some (.begin point) ∧ point.beforeEpoch = true

theorem BeginPoint.advance_beforeEpoch {thread : RouteThread C} {point : BeginPoint}
    (h : point.advance i s = some (s',thread)) (hpoint : point.beforeEpoch = true) :
    s'.directRouteEpoch = s.directRouteEpoch + 1 ∨
      ∃ next, thread = .begin next ∧ next.beforeEpoch = true := by
  cases point with
  | lockWakers =>
    simp only [BeginPoint.advance,Option.ite_none_right_eq_some,Option.some.injEq,Prod.mk.injEq] at h
    obtain ⟨-,rfl,rfl⟩ := h
    exact .inr ⟨_,rfl,rfl⟩
  | storeDesired | storeStatus =>
    cases h
    exact .inr ⟨_,rfl,rfl⟩
  | advanceEpoch =>
    cases h
    exact .inl rfl
  | drainWakers | lockSlot | clearClient | unlockSlot | returned => cases hpoint

theorem LeasePoint.advance_created {point next : LeasePoint}
    (h : point.advance i choice s = some (s',next)) : next ≠ .creating := by
  rintro rfl
  cases point with
  | idle epoch =>
    simp only [LeasePoint.advance,Option.ite_none_right_eq_some] at h
    cases choice with
    | _ => cases h.2
  | checkDesired epoch | checkEpoch epoch =>
    simp only [LeasePoint.advance] at h
    split at h <;> cases h
  | creating | running | dropped => cases h

theorem Cancelling.step {j epoch : Nat} (h : Cancelling i j epoch p)
    (hstep : (routeThreads isolatedClient).step input p = .ok q) : Cancelling i j epoch q := by
  obtain ⟨⟨point,hlease,hcreated,hepoch⟩,hold,hended⟩ := h
  cases input with
  | start thread =>
    obtain ⟨-,rfl⟩ := Threads.step_start hstep
    refine ⟨⟨point,getElem?_append_of_some hlease,hcreated,hepoch⟩,hold,hended.imp_right ?_⟩
    rintro ⟨before,hbefore,hpoint⟩
    exact ⟨before,getElem?_append_of_some hbefore,hpoint⟩
  | advance k choice =>
    obtain ⟨thread,s',thread',hthread,hadvance,rfl⟩ := Threads.step_advance hstep
    have hle : p.shared.directRouteEpoch ≤ s'.directRouteEpoch := by
      rcases (RouteThread.advance_step hadvance).epoch with h | ⟨h,-⟩ <;> omega
    refine ⟨?_,Nat.le_trans hold hle,?_⟩
    · by_cases hk : j = k
      · subst hk
        rw [hlease] at hthread
        cases hthread
        obtain ⟨⟨s₁,next⟩,hpoint,hsame⟩ := Option.map_eq_some_iff.mp hadvance
        cases hsame
        refine ⟨next,getElem?_set_own hlease,LeasePoint.advance_created hpoint,fun e he => ?_⟩
        rcases (LeasePoint.advance_epoch hpoint he).2.1 with h | ⟨h,-⟩
        · exact hepoch e h
        · exact absurd h hcreated
      · exact ⟨point,(getElem?_set_other hk).trans hlease,hcreated,hepoch⟩
    · rcases hended with hlt | ⟨before,hbefore,hpoint⟩
      · exact .inl (Nat.lt_of_lt_of_le hlt hle)
      · by_cases hk : i = k
        · subst hk
          rw [hbefore] at hthread
          cases hthread
          rcases BeginPoint.advance_beforeEpoch hadvance hpoint with h | ⟨next,rfl,hnext⟩
          · exact .inl (by dsimp only; omega)
          · exact .inr ⟨next,getElem?_set_own hbefore,hnext⟩
        · exact .inr ⟨before,(getElem?_set_other hk).trans hbefore,hpoint⟩

/-- A lease that was created before a begin call does not run once the call has locked the
wakers. -/
theorem Route.Sound.cancelled {j epoch : Nat} {point : LeasePoint} (hp : p.Sound)
    (hrun : Runs (routeThreads isolatedClient).step p q)
    (hbegin : p.threads[i]? = some (.begin .lockWakers))
    (hlease : p.threads[j]? = some (.lease point)) (hepoch : point.epoch = some epoch)
    (hlocked : q.threads[i]? ≠ some (.begin .lockWakers)) (e : Nat) :
    q.threads[j]? ≠ some (.lease (.running e)) := by
  intro hrunning
  have hcreated : point ≠ .creating := by
    rintro rfl
    cases hepoch
  have hstart : Cancelling i j epoch p := {
    lease := ⟨point,hlease,hcreated,fun e he => Option.some.inj (he.symm.trans hepoch)⟩
    old := (hp.epochs j point epoch hlease hepoch).1
    ended := .inr ⟨_,hbegin,rfl⟩ }
  have hq := hp.runs hrun
  obtain ⟨⟨now,hnow,-,hsame⟩,-,hended⟩ := hrun.invariant (fun _ _ _ h hstep => h.step hstep) hstart
  rw [hrunning] at hnow
  cases hnow
  have hpresent := (hq.epochs j _ e hrunning rfl).2 rfl
  have hee := hsame e rfl
  rcases hended with hlt | ⟨before,hbefore,hpoint⟩
  · omega
  · have hexclusive := hq.locked.wakers.exclusive hrunning rfl hbefore
      (fun hij => by rw [hij,hrunning] at hbefore; cases hbefore)
    cases before with
    | lockWakers => exact hlocked hbefore
    | storeDesired | storeStatus | advanceEpoch => cases hexclusive
    | drainWakers | lockSlot | clearClient | unlockSlot | returned => cases hpoint

/-- Some state of the run from `p` to `q` meets a condition. -/
def Route.Saw (isolatedClient : C → C) (p : Route C) (P : RouteState C → Prop) (q : Route C) :
    Prop :=
  ∃ m, Runs (routeThreads isolatedClient).step p m ∧ Runs (routeThreads isolatedClient).step m q ∧
    P m.shared

theorem Route.Saw.tail {P : RouteState C → Prop} (h : p.Saw isolatedClient P q)
    (hstep : (routeThreads isolatedClient).step input q = .ok r) : p.Saw isolatedClient P r := by
  obtain ⟨m,hbefore,hafter,hm⟩ := h
  exact ⟨m,hbefore,hafter.tail input hstep,hm⟩

/-- What a request loaded was there during it. -/
def RoutingPoint.Meets (isolatedClient : C → C) (p q : Route C) : RoutingPoint C → Prop
  | .readClient => True
  | .loadDesired client => client.isSome = true →
      p.Saw isolatedClient (fun s => s.torClient.isSome = true) q
  | .loadStatus client torDesired =>
      (client.isSome = true → p.Saw isolatedClient (fun s => s.torClient.isSome = true) q) ∧
        (torDesired = false → p.Saw isolatedClient (fun s => s.torDesired = false) q)
  | .returned result =>
      (result = .ok none → p.Saw isolatedClient (fun s => s.torDesired = false) q) ∧
        ∀ client, result = .ok (some client) →
          p.Saw isolatedClient (fun s => s.torClient.isSome = true) q

theorem RoutingPoint.Meets.tail {point : RoutingPoint C} (h : point.Meets isolatedClient p q)
    (hstep : (routeThreads isolatedClient).step input q = .ok r) :
    point.Meets isolatedClient p r := by
  cases point with
  | readClient => trivial
  | loadDesired client => exact fun hclient => (h hclient).tail hstep
  | loadStatus client torDesired =>
    exact ⟨fun hclient => (h.1 hclient).tail hstep,fun hdirect => (h.2 hdirect).tail hstep⟩
  | returned result =>
    exact ⟨fun hnone => (h.1 hnone).tail hstep,fun c hc => (h.2 c hc).tail hstep⟩

variable {isolated : Bool}

theorem clientForRoute_none {client : Option C} {torDesired : Bool}
    {torStatus : NetworkPrivacyStatus}
    (h : clientForRoute isolatedClient client torDesired torStatus isolated = .ok none) :
    torDesired = false := by
  cases torDesired with
  | false => rfl
  | true =>
    cases client with
    | none => simp [clientForRoute,routeDecision] at h
    | some client =>
      by_cases hready : torStatus = .ready <;> cases isolated <;>
        simp [clientForRoute,routeDecision,hready] at h

theorem clientForRoute_some {client : Option C} {torDesired : Bool}
    {torStatus : NetworkPrivacyStatus} {c : C}
    (h : clientForRoute isolatedClient client torDesired torStatus isolated = .ok (some c)) :
    client.isSome = true := by
  cases client with
  | some client => rfl
  | none =>
    cases torDesired <;> simp [clientForRoute,routeDecision] at h

theorem RoutingPoint.Meets.advance {point next : RoutingPoint C}
    (h : point.Meets isolatedClient p q) (hrun : Runs (routeThreads isolatedClient).step p q)
    (hadvance : point.advance isolatedClient isolated q.shared = some next) :
    next.Meets isolatedClient p q := by
  cases point with
  | readClient =>
    simp only [RoutingPoint.advance,Option.ite_none_right_eq_some,Option.some.injEq] at hadvance
    obtain ⟨-,rfl⟩ := hadvance
    exact fun hclient => ⟨q,hrun,.refl q,hclient⟩
  | loadDesired client =>
    cases hadvance
    exact ⟨h,fun hdirect => ⟨q,hrun,.refl q,hdirect⟩⟩
  | loadStatus client torDesired =>
    cases hadvance
    exact ⟨fun hnone => h.2 (clientForRoute_none hnone),
      fun c hc => h.1 (clientForRoute_some hc)⟩
  | returned => cases hadvance

theorem Route.routing_runs (hstart : p.threads[i]? = some (.routing isolated .readClient))
    (hrun : Runs (routeThreads isolatedClient).step p q) :
    ∃ point, q.threads[i]? = some (.routing isolated point) ∧ point.Meets isolatedClient p q := by
  induction hrun with
  | refl => exact ⟨.readClient,hstart,trivial⟩
  | tail input hrun hstep ih =>
    obtain ⟨point,hpoint,hmeets⟩ := ih
    cases input with
    | start thread =>
      obtain ⟨-,hq⟩ := Threads.step_start hstep
      refine ⟨point,?_,hmeets.tail hstep⟩
      rw [hq]
      exact getElem?_append_of_some hpoint
    | advance k choice =>
      obtain ⟨thread,s',thread',hthread,hadvance,hq⟩ := Threads.step_advance hstep
      by_cases hk : i = k
      · subst hk
        rw [hpoint] at hthread
        cases hthread
        obtain ⟨next,hnext,hsame⟩ := Option.map_eq_some_iff.mp hadvance
        cases hsame
        refine ⟨next,?_,(hmeets.advance hrun hnext).tail hstep⟩
        rw [hq]
        exact getElem?_set_own hpoint
      · refine ⟨point,?_,hmeets.tail hstep⟩
        rw [hq]
        exact (getElem?_set_other hk).trans hpoint

end CoppiceWallet.NetworkPrivacy
