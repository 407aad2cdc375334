import CoppiceWallet.Lib.Locks
import CoppiceWallet.NetworkPrivacy.Route

/-! # What a step of the route does -/

namespace CoppiceWallet.NetworkPrivacy

open CoppiceWallet.Lib

variable {C : Type}

def FailPoint.holdsSlot : FailPoint → Bool
  | .lockSlot => false
  | _ => true

/-- The thread is inside the section of the client. -/
def RouteThread.holdsSlot : RouteThread C → Bool
  | .begin .clearClient | .begin .unlockSlot => true
  | .enable (.recheckDesired _) | .enable (.storeClient _) | .enable .storeReady
  | .enable (.unlockSlot _) => true
  | .enable (.failing point) | .fail (some point) => point.holdsSlot
  | .disable .storeDesired | .disable .storeStatus | .disable .clearClient
  | .disable .unlockSlot => true
  | _ => false

/-- The thread is inside the section of the epoch and the wakers. -/
def RouteThread.holdsWakers : RouteThread C → Bool
  | .begin .storeDesired | .begin .storeStatus | .begin .advanceEpoch | .begin .drainWakers => true
  | .lease (.checkDesired _) | .lease (.checkEpoch _) | .lease (.running _) => true
  | _ => false

/-- A call of begin or enable that stores the status next, outside of the section of the client. -/
def RouteThread.storesBootstrapping : RouteThread C → Bool
  | .begin .storeStatus | .enable .storeStatus => true
  | _ => false

/-- What a step of the thread `i` does to the variables. -/
structure RouteStep (i : Nat) (s : RouteState C) (thread : RouteThread C) (s' : RouteState C)
    (thread' : RouteThread C) : Prop where
  slot : LockStep i s.slotLock thread.holdsSlot s'.slotLock thread'.holdsSlot
  wakers : LockStep i s.wakersLock thread.holdsWakers s'.wakersLock thread'.holdsWakers
  client : thread.holdsSlot = false → s'.torClient = s.torClient
  desired : s'.torDesired = s.torDesired ∨
    s'.torDesired = true ∧ (thread = .begin .storeDesired ∨ thread = .enable .storeDesired) ∨
    s'.torDesired = false ∧ thread.holdsSlot = true
  status : thread.holdsSlot = false → s'.torStatus = s.torStatus ∨
    s'.torStatus = .bootstrapping ∧ s'.torDesired = s.torDesired ∧ thread.storesBootstrapping = true
  epoch : s'.directRouteEpoch = s.directRouteEpoch ∨
    s'.directRouteEpoch = s.directRouteEpoch + 1 ∧ thread = .begin .advanceEpoch

variable {i : Nat} {s s' : RouteState C} {thread thread' : RouteThread C} {choice : RouteChoice C}
  {isolatedClient : C → C}

theorem RouteStep.idle (hslot : thread'.holdsSlot = thread.holdsSlot)
    (hwakers : thread'.holdsWakers = thread.holdsWakers) : RouteStep i s thread s thread' where
  slot := by
    rw [hslot]
    exact .keep
  wakers := by
    rw [hwakers]
    exact .keep
  client _ := rfl
  desired := .inl rfl
  status _ := .inl rfl
  epoch := .inl rfl

theorem RouteStep.takesSlot (hlock : s.slotLock = none) (houtside : thread.holdsSlot = false)
    (hinside : thread'.holdsSlot = true) (hwakers : thread'.holdsWakers = thread.holdsWakers) :
    RouteStep i s thread { s with slotLock := some i } thread' where
  slot := by
    rw [hlock,houtside,hinside]
    exact .take
  wakers := by
    rw [hwakers]
    exact .keep
  client _ := rfl
  desired := .inl rfl
  status _ := .inl rfl
  epoch := .inl rfl

theorem RouteStep.releasesSlot (hinside : thread.holdsSlot = true)
    (houtside : thread'.holdsSlot = false) (hwakers : thread'.holdsWakers = thread.holdsWakers) :
    RouteStep i s thread { s with slotLock := none } thread' where
  slot := by
    rw [houtside,hinside]
    exact .release
  wakers := by
    rw [hwakers]
    exact .keep
  client _ := rfl
  desired := .inl rfl
  status _ := .inl rfl
  epoch := .inl rfl

theorem RouteStep.inSlot (hinside : thread.holdsSlot = true) (hinside' : thread'.holdsSlot = true)
    (hwakers : thread'.holdsWakers = thread.holdsWakers) (hslotLock : s'.slotLock = s.slotLock)
    (hwakersLock : s'.wakersLock = s.wakersLock)
    (hdesired : s'.torDesired = s.torDesired ∨ s'.torDesired = false)
    (hepoch : s'.directRouteEpoch = s.directRouteEpoch) : RouteStep i s thread s' thread' where
  slot := by
    rw [hinside,hinside',hslotLock]
    exact .keep
  wakers := by
    rw [hwakers,hwakersLock]
    exact .keep
  client h := by
    rw [hinside] at h
    cases h
  desired := hdesired.imp_right fun h => .inr ⟨h,hinside⟩
  status h := by
    rw [hinside] at h
    cases h
  epoch := .inl hepoch

theorem RouteStep.takesWakers {wakers : List Nat} (hlock : s.wakersLock = none)
    (houtside : thread.holdsWakers = false) (hinside : thread'.holdsWakers = true)
    (hslot : thread'.holdsSlot = thread.holdsSlot) :
    RouteStep i s thread { s with wakersLock := some i, directIoWakers := wakers } thread' where
  slot := by
    rw [hslot]
    exact .keep
  wakers := by
    rw [hlock,houtside,hinside]
    exact .take
  client _ := rfl
  desired := .inl rfl
  status _ := .inl rfl
  epoch := .inl rfl

theorem RouteStep.releasesWakers {wakers : List Nat} (hinside : thread.holdsWakers = true)
    (houtside : thread'.holdsWakers = false) (hslot : thread'.holdsSlot = thread.holdsSlot) :
    RouteStep i s thread { s with wakersLock := none, directIoWakers := wakers } thread' where
  slot := by
    rw [hslot]
    exact .keep
  wakers := by
    rw [houtside,hinside]
    exact .release
  client _ := rfl
  desired := .inl rfl
  status _ := .inl rfl
  epoch := .inl rfl

theorem RouteStep.elsewhere {wakers : List Nat} {initLock : Option Nat}
    (hslot : thread'.holdsSlot = thread.holdsSlot)
    (hwakers : thread'.holdsWakers = thread.holdsWakers) :
    RouteStep i s thread { s with directIoWakers := wakers, initLock } thread' where
  slot := by
    rw [hslot]
    exact .keep
  wakers := by
    rw [hwakers]
    exact .keep
  client _ := rfl
  desired := .inl rfl
  status _ := .inl rfl
  epoch := .inl rfl

theorem begin_step {point : BeginPoint} (h : point.advance i s = some (s',thread')) :
    RouteStep i s (.begin point) s' thread' := by
  cases point with
  | lockWakers =>
    simp only [BeginPoint.advance,Option.ite_none_right_eq_some,Option.some.injEq,Prod.mk.injEq] at h
    obtain ⟨hlock,rfl,rfl⟩ := h
    exact .takesWakers hlock rfl rfl rfl
  | lockSlot =>
    simp only [BeginPoint.advance,Option.ite_none_right_eq_some,Option.some.injEq,Prod.mk.injEq] at h
    obtain ⟨hlock,rfl,rfl⟩ := h
    exact .takesSlot hlock rfl rfl rfl
  | storeDesired =>
    cases h
    exact ⟨.keep,.keep,fun _ => rfl,.inr (.inl ⟨rfl,.inl rfl⟩),fun _ => .inl rfl,.inl rfl⟩
  | storeStatus =>
    cases h
    exact ⟨.keep,.keep,fun _ => rfl,.inl rfl,fun _ => .inr ⟨rfl,rfl,rfl⟩,.inl rfl⟩
  | advanceEpoch =>
    cases h
    exact ⟨.keep,.keep,fun _ => rfl,.inl rfl,fun _ => .inl rfl,.inr ⟨rfl,rfl⟩⟩
  | drainWakers =>
    cases h
    exact .releasesWakers rfl rfl rfl
  | clearClient =>
    cases h
    exact .inSlot rfl rfl rfl rfl rfl (.inl rfl) rfl
  | unlockSlot =>
    cases h
    exact .releasesSlot rfl rfl rfl
  | returned =>
    cases h
    exact .idle rfl rfl

theorem fail_step {point : FailPoint} {next : Option FailPoint}
    (h : point.advance i s = some (s',next)) (hslot : thread.holdsSlot = point.holdsSlot)
    (hslot' : thread'.holdsSlot = next.elim false FailPoint.holdsSlot)
    (hwakers : thread'.holdsWakers = thread.holdsWakers) : RouteStep i s thread s' thread' := by
  cases point with
  | lockSlot =>
    simp only [FailPoint.advance,Option.ite_none_right_eq_some,Option.some.injEq,Prod.mk.injEq] at h
    obtain ⟨hlock,rfl,rfl⟩ := h
    exact .takesSlot hlock hslot hslot' hwakers
  | clearClient =>
    cases h
    exact .inSlot hslot hslot' hwakers rfl rfl (.inl rfl) rfl
  | loadDesired =>
    cases h
    refine .inSlot hslot ?_ hwakers rfl rfl (.inl rfl) rfl
    rw [hslot']
    cases s.torDesired <;> rfl
  | storeStatus =>
    cases h
    exact .inSlot hslot hslot' hwakers rfl rfl (.inl rfl) rfl
  | unlockSlot =>
    cases h
    exact .releasesSlot hslot hslot' hwakers

theorem enable_step {point next : EnablePoint C} (h : point.advance i choice s = some (s',next)) :
    RouteStep i s (.enable point) s' (.enable next) := by
  cases point with
  | storeDesired =>
    cases h
    exact ⟨.keep,.keep,fun _ => rfl,.inr (.inl ⟨rfl,.inr rfl⟩),fun _ => .inl rfl,.inl rfl⟩
  | lockInit =>
    cases choice with
    | timesOut =>
      cases h
      exact .idle rfl rfl
    | _ =>
      simp only [EnablePoint.advance,Option.ite_none_right_eq_some,Option.some.injEq,
        Prod.mk.injEq] at h
      obtain ⟨-,rfl,rfl⟩ := h
      exact .elsewhere rfl rfl
  | loadDesired | loadStatus =>
    cases h
    split <;> exact .idle rfl rfl
  | readClient =>
    simp only [EnablePoint.advance,Option.ite_none_right_eq_some,Option.some.injEq,Prod.mk.injEq] at h
    obtain ⟨-,rfl,rfl⟩ := h
    split <;> exact .idle rfl rfl
  | storeStatus =>
    cases h
    exact ⟨.keep,.keep,fun _ => rfl,.inl rfl,fun _ => .inr ⟨rfl,rfl,rfl⟩,.inl rfl⟩
  | createDirectory =>
    cases choice with
    | _ =>
      cases h
      exact .idle rfl rfl
  | bootstrap =>
    cases choice with
    | bootstrapped | fails | timesOut =>
      cases h
      exact .idle rfl rfl
    | abandons =>
      simp only [EnablePoint.advance,Option.ite_none_left_eq_some,Option.some.injEq,Prod.mk.injEq] at h
      obtain ⟨-,rfl,rfl⟩ := h
      exact .idle rfl rfl
    | proceed | drop => cases h
  | lockSlot client =>
    simp only [EnablePoint.advance,Option.ite_none_right_eq_some,Option.some.injEq,Prod.mk.injEq] at h
    obtain ⟨hlock,rfl,rfl⟩ := h
    exact .takesSlot hlock rfl rfl rfl
  | recheckDesired client =>
    cases h
    split <;> exact .inSlot rfl rfl rfl rfl rfl (.inl rfl) rfl
  | storeClient | storeReady =>
    cases h
    exact .inSlot rfl rfl rfl rfl rfl (.inl rfl) rfl
  | unlockSlot status =>
    cases h
    exact .releasesSlot rfl rfl rfl
  | failing point =>
    simp only [EnablePoint.advance,Option.map_eq_some_iff] at h
    obtain ⟨⟨s₁,next'⟩,hfail,h⟩ := h
    cases h
    apply fail_step hfail rfl
    · cases next' <;> rfl
    · cases next' <;> rfl
  | releaseInit result =>
    cases h
    exact .elsewhere rfl rfl
  | returned => cases h

theorem disable_step {point next : DisablePoint} (h : point.advance i s = some (s',next)) :
    RouteStep i s (.disable point) s' (.disable next) := by
  cases point with
  | lockSlot =>
    simp only [DisablePoint.advance,Option.ite_none_right_eq_some,Option.some.injEq,Prod.mk.injEq] at h
    obtain ⟨hlock,rfl,rfl⟩ := h
    exact .takesSlot hlock rfl rfl rfl
  | storeDesired =>
    cases h
    exact .inSlot rfl rfl rfl rfl rfl (.inr rfl) rfl
  | storeStatus | clearClient =>
    cases h
    exact .inSlot rfl rfl rfl rfl rfl (.inl rfl) rfl
  | unlockSlot =>
    cases h
    exact .releasesSlot rfl rfl rfl
  | returned => cases h

theorem routing_step {isolated : Bool} {point next : RoutingPoint C} :
    RouteStep i s (.routing isolated point) s (.routing isolated next) :=
  .idle rfl rfl

theorem lease_step {point next : LeasePoint} (h : point.advance i choice s = some (s',next)) :
    RouteStep i s (.lease point) s' (.lease next) := by
  cases point with
  | creating =>
    cases h
    exact .idle rfl rfl
  | idle epoch =>
    simp only [LeasePoint.advance,Option.ite_none_right_eq_some] at h
    obtain ⟨hlock,h⟩ := h
    cases choice with
    | drop =>
      cases h
      exact .elsewhere rfl rfl
    | _ =>
      cases h
      exact .takesWakers hlock rfl rfl rfl
  | checkDesired epoch =>
    simp only [LeasePoint.advance] at h
    split at h
    · cases h
      exact .releasesWakers rfl rfl rfl
    · cases h
      exact .idle rfl rfl
  | checkEpoch epoch =>
    simp only [LeasePoint.advance] at h
    split at h
    · cases h
      exact .releasesWakers rfl rfl rfl
    · cases h
      exact .elsewhere rfl rfl
  | running epoch =>
    cases h
    exact .releasesWakers rfl rfl rfl
  | dropped => cases h

theorem RouteThread.advance_step
    (h : thread.advance isolatedClient i choice s = some (s',thread')) :
    RouteStep i s thread s' thread' := by
  cases thread with
  | begin point => exact begin_step h
  | enable point =>
    obtain ⟨⟨s₁,next⟩,hadvance,h⟩ := Option.map_eq_some_iff.mp h
    cases h
    exact enable_step hadvance
  | fail point =>
    obtain ⟨⟨s₁,next⟩,hadvance,h⟩ := Option.map_eq_some_iff.mp h
    cases h
    obtain ⟨point,rfl,hadvance⟩ := Option.bind_eq_some_iff.mp hadvance
    apply fail_step hadvance rfl
    · cases next <;> rfl
    · rfl
  | disable point =>
    obtain ⟨⟨s₁,next⟩,hadvance,h⟩ := Option.map_eq_some_iff.mp h
    cases h
    exact disable_step hadvance
  | routing isolated point =>
    obtain ⟨next,hadvance,h⟩ := Option.map_eq_some_iff.mp h
    cases h
    exact routing_step
  | lease point =>
    obtain ⟨⟨s₁,next⟩,hadvance,h⟩ := Option.map_eq_some_iff.mp h
    cases h
    exact lease_step hadvance

/-- Each lock records the thread in its section, if there is one. -/
structure Route.Locked (p : Route C) : Prop where
  slot : ThreadPool.Locked RouteState.slotLock RouteThread.holdsSlot p
  wakers : ThreadPool.Locked RouteState.wakersLock RouteThread.holdsWakers p

theorem RouteThread.outside_of_initial {thread : RouteThread C} (h : thread.initial = true) :
    thread.holdsSlot = false ∧ thread.holdsWakers = false := by
  unfold RouteThread.initial at h
  split at h
  all_goals first | exact ⟨rfl,rfl⟩ | cases h

theorem Route.Locked.step {input : ThreadInput (RouteThread C) (RouteChoice C)} {p q : Route C}
    (hp : p.Locked) (hstep : (routeThreads isolatedClient).step input p = .ok q) : q.Locked where
  slot := hp.slot.step (fun _ h => (RouteThread.outside_of_initial h).1)
    (fun _ _ _ _ _ _ h => (RouteThread.advance_step h).slot) hstep
  wakers := hp.wakers.step (fun _ h => (RouteThread.outside_of_initial h).2)
    (fun _ _ _ _ _ _ h => (RouteThread.advance_step h).wakers) hstep

theorem Route.locked_initial : Route.Locked (⟨RouteState.initial C,[]⟩ : Route C) :=
  ⟨locked_nil rfl,locked_nil rfl⟩

end CoppiceWallet.NetworkPrivacy
