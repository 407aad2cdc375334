import CoppiceWallet.NetworkPrivacy.RouteRuns

/-! # Coherence of the route -/

namespace CoppiceWallet.NetworkPrivacy

open CoppiceWallet.Lib

variable {C : Type} {isolatedClient : C → C} {p q : Route C}

/-- The lease has found the route direct and runs its inner I/O next, or now. -/
def RouteThread.polls (epoch : Nat) : RouteThread C → Bool
  | .lease (.checkEpoch e) => e == epoch
  | .lease (.running _) => true
  | _ => false

/-- A disable call that stores the direct status next. -/
def RouteThread.storesDirect : RouteThread C → Bool
  | .disable .storeStatus => true
  | _ => false

/-- What a thread may do next: an enable call makes a direct route desire Tor only while no lease
runs, the status becomes connecting only on a route that desires Tor or is about to be direct, and
a begin call takes no client of a ready route. -/
def RouteThread.keepsRoute (p : Route C) : RouteThread C → Bool
  | .enable .storeDesired =>
    p.shared.torDesired || !p.threads.any (RouteThread.polls p.shared.directRouteEpoch)
  | .begin .storeStatus | .enable .storeStatus =>
    p.shared.torDesired || p.threads.any RouteThread.storesDirect
  | .begin .clearClient => p.shared.torStatus ≠ .ready
  | _ => true

def KeepsRoute : ThreadInput (RouteThread C) (RouteChoice C) → Route C → Prop
  | .start _, _ => True
  | .advance i _, p => (p.threads[i]?.all (RouteThread.keepsRoute p)) = true

instance : ∀ (input : ThreadInput (RouteThread C) (RouteChoice C)) (p : Route C),
    Decidable (KeepsRoute input p)
  | .start _, _ => isTrue trivial
  | .advance i _, p => inferInstanceAs (Decidable ((p.threads[i]?.all (RouteThread.keepsRoute p)) = true))

/-- A direct route has its status and no client, and a ready one has a client. -/
structure RouteState.Coherent (s : RouteState C) : Prop where
  direct : s.torDesired = false → s.torStatus = .direct ∧ s.torClient = none
  ready : s.torStatus = .ready → s.torClient.isSome = true

/-- What holds at the points of a failure inside the section. -/
def FailPoint.Meets (s : RouteState C) : FailPoint → Prop
  | .lockSlot => True
  | .clearClient | .unlockSlot => s.Coherent
  | .loadDesired => s.torClient = none ∧ (s.torDesired = false → s.torStatus = .direct)
  | .storeStatus => s.torClient = none ∧ s.torDesired = true

/-- What holds at the points inside the section of the client, and of a lease that polls. -/
def RouteThread.Meets (s : RouteState C) : RouteThread C → Prop
  | .begin .clearClient | .begin .unlockSlot => s.Coherent
  | .enable (.recheckDesired _) | .enable (.unlockSlot _) => s.Coherent
  | .enable (.storeClient _) => s.torDesired = true
  | .enable .storeReady => s.torDesired = true ∧ s.torClient.isSome = true
  | .enable (.failing point) | .fail (some point) => point.Meets s
  | .disable .storeDesired | .disable .unlockSlot => s.Coherent
  | .disable .clearClient => s.torStatus ≠ .ready ∧ (s.torDesired = false → s.torStatus = .direct)
  | .lease (.checkEpoch epoch) => epoch = s.directRouteEpoch → s.torDesired = false
  | .lease (.running _) => s.torDesired = false
  | _ => True

/-- What a thread outside of the section may change: Tor becomes desired, and the status of a route
that desires Tor connecting. -/
structure Outside (s s' : RouteState C) : Prop where
  client : s'.torClient = s.torClient
  desired : s'.torDesired = s.torDesired ∨ s'.torDesired = true
  status : s'.torStatus = s.torStatus ∨ s'.torStatus = .bootstrapping ∧ s'.torDesired = true

section
variable {s s' : RouteState C} (h : Outside s s')

include h

theorem Outside.direct (hdirect : s'.torDesired = false) :
    s.torDesired = false ∧ s'.torStatus = s.torStatus := by
  constructor
  · rcases h.desired with hd | hd
    · exact hd.symm.trans hdirect
    · rw [hdirect] at hd
      cases hd
  · rcases h.status with hs | ⟨-,hd⟩
    · exact hs
    · rw [hdirect] at hd
      cases hd

theorem Outside.desires (hdesired : s.torDesired = true) : s'.torDesired = true := by
  rcases h.desired with hd | hd
  · exact hd.trans hdesired
  · exact hd

theorem Outside.ready (hready : s'.torStatus = .ready) : s.torStatus = .ready := by
  rcases h.status with hs | ⟨hs,-⟩
  · exact hs.symm.trans hready
  · rw [hready] at hs
    cases hs

theorem Outside.coherent (hs : s.Coherent) : s'.Coherent where
  direct hdirect := by
    obtain ⟨hd,hstatus⟩ := h.direct hdirect
    rw [hstatus,h.client]
    exact hs.direct hd
  ready hready := by
    rw [h.client]
    exact hs.ready (h.ready hready)

theorem Outside.fail {point : FailPoint} (hpoint : point.Meets s) : point.Meets s' := by
  cases point with
  | lockSlot => trivial
  | clearClient | unlockSlot => exact h.coherent hpoint
  | loadDesired =>
    refine ⟨h.client.trans hpoint.1,fun hdirect => ?_⟩
    obtain ⟨hd,hstatus⟩ := h.direct hdirect
    exact hstatus.trans (hpoint.2 hd)
  | storeStatus => exact ⟨h.client.trans hpoint.1,h.desires hpoint.2⟩

theorem Outside.section {thread : RouteThread C} (hinside : thread.holdsSlot = true)
    (hthread : thread.Meets s) : thread.Meets s' := by
  cases thread with
  | begin point =>
    cases point with
    | clearClient | unlockSlot => exact h.coherent hthread
    | _ => cases hinside
  | enable point =>
    cases point with
    | recheckDesired | unlockSlot => exact h.coherent hthread
    | storeClient => exact h.desires hthread
    | storeReady =>
      refine ⟨h.desires hthread.1,?_⟩
      rw [h.client]
      exact hthread.2
    | failing => exact h.fail hthread
    | _ => cases hinside
  | fail point =>
    cases point with
    | none => cases hinside
    | some point => exact h.fail hthread
  | disable point =>
    cases point with
    | storeDesired | unlockSlot => exact h.coherent hthread
    | storeStatus => trivial
    | clearClient =>
      refine ⟨fun hready => hthread.1 (h.ready hready),fun hdirect => ?_⟩
      obtain ⟨hd,hstatus⟩ := h.direct hdirect
      exact hstatus.trans (hthread.2 hd)
    | _ => cases hinside
  | routing => cases hinside
  | lease => cases hinside

end

section
variable {i : Nat} {choice : RouteChoice C} {s s' : RouteState C} {thread thread' : RouteThread C}

theorem RouteStep.outside (h : RouteStep i p.shared thread s' thread')
    (houtside : thread.holdsSlot = false) (hguard : thread.keepsRoute p = true)
    (hnone : p.threads.any RouteThread.storesDirect = false) : Outside p.shared s' where
  client := h.client houtside
  desired := by
    rcases h.desired with hd | ⟨hd,-⟩ | ⟨-,hinside⟩
    · exact .inl hd
    · exact .inr hd
    · rw [houtside] at hinside
      cases hinside
  status := by
    refine (h.status houtside).imp_right ?_
    rintro ⟨hstatus,hsame,hstores⟩
    refine ⟨hstatus,hsame.trans ?_⟩
    have hdesired : p.shared.torDesired || p.threads.any RouteThread.storesDirect := by
      cases thread with
      | begin point =>
        cases point with
        | storeStatus => exact hguard
        | _ => cases hstores
      | enable point =>
        cases point with
        | storeStatus => exact hguard
        | _ => cases hstores
      | fail | disable | routing | lease => cases hstores
    simpa [hnone] using hdesired

theorem FailPoint.advance_meets {point next : FailPoint} (h : point.advance i s = some (s',some next))
    (hfree : s.slotLock = none → s.Coherent) (hp : point.Meets s) : next.Meets s' := by
  cases point with
  | lockSlot =>
    simp only [FailPoint.advance,Option.ite_none_right_eq_some,Option.some.injEq,Prod.mk.injEq] at h
    obtain ⟨hlock,rfl,rfl⟩ := h
    exact ⟨(hfree hlock).direct,(hfree hlock).ready⟩
  | clearClient =>
    cases h
    exact ⟨rfl,fun hdirect => (hp.direct hdirect).1⟩
  | loadDesired =>
    cases hd : s.torDesired with
    | true =>
      simp only [FailPoint.advance,hd] at h
      cases h
      exact ⟨hp.1,hd⟩
    | false =>
      simp only [FailPoint.advance,hd] at h
      cases h
      refine ⟨fun hdirect => ⟨hp.2 hdirect,hp.1⟩,fun hready => ?_⟩
      rw [hp.2 hd] at hready
      cases hready
  | storeStatus =>
    cases h
    refine ⟨fun hdirect => ?_,fun hready => by cases hready⟩
    rw [hp.2] at hdirect
    cases hdirect
  | unlockSlot => cases h

theorem begin_meets {point : BeginPoint} (h : point.advance i s = some (s',thread'))
    (hfree : s.slotLock = none → s.Coherent) (hp : (RouteThread.begin point : RouteThread C).Meets s)
    (hguard : point = .clearClient → s.torStatus ≠ .ready) : thread'.Meets s' := by
  cases point with
  | lockWakers =>
    simp only [BeginPoint.advance,Option.ite_none_right_eq_some,Option.some.injEq,Prod.mk.injEq] at h
    obtain ⟨-,rfl,rfl⟩ := h
    trivial
  | lockSlot =>
    simp only [BeginPoint.advance,Option.ite_none_right_eq_some,Option.some.injEq,Prod.mk.injEq] at h
    obtain ⟨hlock,rfl,rfl⟩ := h
    exact ⟨(hfree hlock).direct,(hfree hlock).ready⟩
  | clearClient =>
    cases h
    exact ⟨fun hdirect => ⟨(hp.direct hdirect).1,rfl⟩,fun hready => absurd hready (hguard rfl)⟩
  | storeDesired | storeStatus | advanceEpoch | drainWakers | unlockSlot | returned =>
    cases h
    trivial

theorem enable_meets {point next : EnablePoint C} (h : point.advance i choice s = some (s',next))
    (hfree : s.slotLock = none → s.Coherent) (hp : (RouteThread.enable point).Meets s) :
    (RouteThread.enable next).Meets s' := by
  cases point with
  | lockInit =>
    cases choice with
    | timesOut =>
      cases h
      trivial
    | _ =>
      simp only [EnablePoint.advance,Option.ite_none_right_eq_some,Option.some.injEq,
        Prod.mk.injEq] at h
      obtain ⟨-,rfl,rfl⟩ := h
      trivial
  | loadDesired | loadStatus =>
    cases h
    split <;> trivial
  | readClient =>
    simp only [EnablePoint.advance,Option.ite_none_right_eq_some,Option.some.injEq,Prod.mk.injEq] at h
    obtain ⟨-,rfl,rfl⟩ := h
    split <;> trivial
  | createDirectory =>
    cases choice with
    | _ =>
      cases h
      trivial
  | bootstrap =>
    cases choice with
    | bootstrapped | fails | timesOut =>
      cases h
      trivial
    | abandons =>
      simp only [EnablePoint.advance,Option.ite_none_left_eq_some,Option.some.injEq,Prod.mk.injEq] at h
      obtain ⟨-,rfl,rfl⟩ := h
      trivial
    | proceed | drop => cases h
  | lockSlot client =>
    simp only [EnablePoint.advance,Option.ite_none_right_eq_some,Option.some.injEq,Prod.mk.injEq] at h
    obtain ⟨hlock,rfl,rfl⟩ := h
    exact ⟨(hfree hlock).direct,(hfree hlock).ready⟩
  | recheckDesired client =>
    cases h
    split
    · assumption
    · exact hp
  | storeClient client =>
    cases h
    exact ⟨hp,rfl⟩
  | storeReady =>
    cases h
    refine ⟨fun hdirect => ?_,fun _ => hp.2⟩
    rw [hp.1] at hdirect
    cases hdirect
  | failing point =>
    simp only [EnablePoint.advance,Option.map_eq_some_iff] at h
    obtain ⟨⟨s₁,next'⟩,hfail,h⟩ := h
    cases h
    cases next' with
    | none => trivial
    | some next => exact FailPoint.advance_meets hfail hfree hp
  | storeDesired | storeStatus | unlockSlot | releaseInit =>
    cases h
    trivial
  | returned => cases h

theorem disable_meets {point next : DisablePoint} (h : point.advance i s = some (s',next))
    (hfree : s.slotLock = none → s.Coherent) (hp : (RouteThread.disable point : RouteThread C).Meets s) :
    (RouteThread.disable next : RouteThread C).Meets s' := by
  cases point with
  | lockSlot =>
    simp only [DisablePoint.advance,Option.ite_none_right_eq_some,Option.some.injEq,Prod.mk.injEq] at h
    obtain ⟨hlock,rfl,rfl⟩ := h
    exact ⟨(hfree hlock).direct,(hfree hlock).ready⟩
  | storeStatus =>
    cases h
    exact ⟨NetworkPrivacyStatus.noConfusion,fun _ => rfl⟩
  | clearClient =>
    cases h
    exact ⟨fun hdirect => ⟨hp.2 hdirect,rfl⟩,fun hready => absurd hready hp.1⟩
  | storeDesired | unlockSlot =>
    cases h
    trivial
  | returned => cases h

theorem lease_meets {point next : LeasePoint} (h : point.advance i choice s = some (s',next))
    (hp : (RouteThread.lease point : RouteThread C).Meets s) :
    (RouteThread.lease next : RouteThread C).Meets s' := by
  cases point with
  | idle epoch =>
    simp only [LeasePoint.advance,Option.ite_none_right_eq_some] at h
    cases choice with
    | _ =>
      cases h.2
      trivial
  | checkDesired epoch =>
    simp only [LeasePoint.advance] at h
    split at h
    · cases h
      trivial
    · rename_i hdirect
      cases h
      exact fun _ => by simpa using hdirect
  | checkEpoch epoch =>
    simp only [LeasePoint.advance] at h
    split at h
    · cases h
      trivial
    · rename_i hsame
      cases h
      exact hp (by simpa using hsame)
  | creating | running =>
    cases h
    trivial
  | dropped => cases h

theorem RouteThread.advance_meets (h : thread.advance isolatedClient i choice p.shared = some (s',thread'))
    (hguard : thread.keepsRoute p = true) (hfree : p.shared.slotLock = none → p.shared.Coherent)
    (hp : thread.Meets p.shared) : thread'.Meets s' := by
  cases thread with
  | begin point =>
    apply begin_meets h hfree hp
    rintro rfl
    simpa [RouteThread.keepsRoute] using hguard
  | enable point =>
    obtain ⟨⟨s₁,next⟩,hadvance,h⟩ := Option.map_eq_some_iff.mp h
    cases h
    exact enable_meets hadvance hfree hp
  | fail point =>
    obtain ⟨⟨s₁,next⟩,hadvance,h⟩ := Option.map_eq_some_iff.mp h
    cases h
    obtain ⟨point,rfl,hadvance⟩ := Option.bind_eq_some_iff.mp hadvance
    cases next with
    | none => trivial
    | some next => exact FailPoint.advance_meets hadvance hfree hp
  | disable point =>
    obtain ⟨⟨s₁,next⟩,hadvance,h⟩ := Option.map_eq_some_iff.mp h
    cases h
    exact disable_meets hadvance hfree hp
  | routing isolated point =>
    obtain ⟨next,hadvance,h⟩ := Option.map_eq_some_iff.mp h
    cases h
    trivial
  | lease point =>
    obtain ⟨⟨s₁,next⟩,hadvance,h⟩ := Option.map_eq_some_iff.mp h
    cases h
    exact lease_meets hadvance hp

theorem FailPoint.advance_ne_lockSlot {point : FailPoint} :
    point.advance i s ≠ some (s',some .lockSlot) := by
  cases point with
  | loadDesired => cases h : s.torDesired <;> simp [FailPoint.advance,h]
  | _ => simp [FailPoint.advance]

theorem FailPoint.advance_coherent {point : FailPoint} (h : point.advance i s = some (s',none))
    (hp : point.Meets s) : s'.Coherent := by
  cases point with
  | lockSlot => simp [FailPoint.advance] at h
  | unlockSlot =>
    cases h
    exact ⟨hp.direct,hp.ready⟩
  | clearClient | loadDesired | storeStatus => cases h

theorem RouteThread.advance_coherent (h : thread.advance isolatedClient i choice s = some (s',thread'))
    (hinside : thread.holdsSlot = true) (houtside : thread'.holdsSlot = false)
    (hp : thread.Meets s) : s'.Coherent := by
  cases thread with
  | begin point =>
    cases point with
    | clearClient =>
      cases h
      cases houtside
    | unlockSlot =>
      cases h
      exact ⟨hp.direct,hp.ready⟩
    | _ => cases hinside
  | enable point =>
    obtain ⟨⟨s₁,next⟩,hadvance,h⟩ := Option.map_eq_some_iff.mp h
    cases h
    cases point with
    | unlockSlot status =>
      cases hadvance
      exact ⟨hp.direct,hp.ready⟩
    | recheckDesired client =>
      cases hadvance
      split at houtside <;> cases houtside
    | storeClient client | storeReady =>
      cases hadvance
      cases houtside
    | failing point =>
      simp only [EnablePoint.advance,Option.map_eq_some_iff] at hadvance
      obtain ⟨⟨s₂,next'⟩,hfail,h⟩ := hadvance
      cases h
      cases next' with
      | none => exact FailPoint.advance_coherent hfail hp
      | some next =>
        cases next with
        | lockSlot => exact absurd hfail FailPoint.advance_ne_lockSlot
        | _ => cases houtside
    | _ => cases hinside
  | fail point =>
    obtain ⟨⟨s₁,next⟩,hadvance,h⟩ := Option.map_eq_some_iff.mp h
    cases h
    obtain ⟨point,rfl,hadvance⟩ := Option.bind_eq_some_iff.mp hadvance
    cases next with
    | none => exact FailPoint.advance_coherent hadvance hp
    | some next =>
      cases next with
      | lockSlot => exact absurd hadvance FailPoint.advance_ne_lockSlot
      | _ => cases houtside
  | disable point =>
    obtain ⟨⟨s₁,next⟩,hadvance,h⟩ := Option.map_eq_some_iff.mp h
    cases h
    cases point with
    | unlockSlot =>
      cases hadvance
      exact ⟨hp.direct,hp.ready⟩
    | storeDesired | storeStatus | clearClient =>
      cases hadvance
      cases houtside
    | _ => cases hinside
  | routing => cases hinside
  | lease => cases hinside

end

/-- The locks and epochs of the route are sound, and a route whose client no call holds is
coherent. -/
structure Route.Kept (p : Route C) : Prop where
  sound : p.Sound
  free : p.shared.slotLock = none → p.shared.Coherent

section
variable {i : Nat} {choice : RouteChoice C} {s' : RouteState C} {thread thread' : RouteThread C}

theorem storesDirect_eq_false
    (h : ∀ (j : Nat) (other : RouteThread C), p.threads[j]? = some other →
      other.holdsSlot = true → other.storesDirect = false) : p.threads.any RouteThread.storesDirect = false := by
  rw [List.any_eq_false]
  intro other hother hstores
  obtain ⟨j,hj⟩ := List.mem_iff_getElem?.mp hother
  have hinside : other.holdsSlot = true := by
    cases other with
    | disable point =>
      cases point with
      | storeStatus => rfl
      | _ => cases hstores
    | begin | enable | fail | routing | lease => cases hstores
  rw [h j other hj hinside] at hstores
  cases hstores

theorem Route.Kept.free_step (hp : p.Kept) (hthread : p.threads[i]? = some thread)
    (hadvance : thread.advance isolatedClient i choice p.shared = some (s',thread'))
    (hguard : thread.keepsRoute p = true) (hmeets : thread.Meets p.shared)
    (hfree : s'.slotLock = none) : s'.Coherent := by
  have hstep := RouteThread.advance_step hadvance
  have hlocks := hp.sound.locked
  by_cases hinside : thread.holdsSlot = true
  · apply RouteThread.advance_coherent hadvance hinside _ hmeets
    have hheld := (hlocks.slot.advanced hthread hstep.slot).held (getElem?_set_own hthread)
    by_contra hstays
    rw [hheld (by simpa using hstays)] at hfree
    cases hfree
  · have houtside : thread.holdsSlot = false := by simpa using hinside
    have hbefore : p.shared.slotLock = none := by
      have hslot := hstep.slot
      rw [hfree,houtside] at hslot
      exact hslot.free
    refine (hstep.outside houtside hguard (storesDirect_eq_false ?_)).coherent
      (hp.free hbefore)
    intro j other hother hholds
    rw [hlocks.slot.held hother hholds] at hbefore
    cases hbefore

theorem Route.Kept.polls_step (hp : p.Kept) (hthread : p.threads[i]? = some thread)
    (hadvance : thread.advance isolatedClient i choice p.shared = some (s',thread'))
    (hguard : thread.keepsRoute p = true) {j : Nat} {point : LeasePoint} (hne : j ≠ i)
    (hlease : p.threads[j]? = some (.lease point))
    (hinside : (RouteThread.lease point : RouteThread C).holdsWakers = true) :
    s'.directRouteEpoch = p.shared.directRouteEpoch ∧
      ((RouteThread.lease point : RouteThread C).polls p.shared.directRouteEpoch = true →
        p.shared.torDesired = false → s'.torDesired = false) := by
  have hstep := RouteThread.advance_step hadvance
  have houtside := hp.sound.locked.wakers.exclusive hlease hinside hthread (Ne.symm hne)
  constructor
  · rcases hstep.epoch with hsame | ⟨-,rfl⟩
    · exact hsame
    · cases houtside
  · intro hpolls hdirect
    rcases hstep.desired with hsame | ⟨-,rfl | rfl⟩ | ⟨hfalse,-⟩
    · exact hsame.trans hdirect
    · cases houtside
    · have hany : p.threads.any (RouteThread.polls p.shared.directRouteEpoch) = true :=
        List.any_eq_true.mpr ⟨_,List.mem_of_getElem? hlease,hpolls⟩
      simp [RouteThread.keepsRoute,hdirect,hany] at hguard
    · exact hfalse

theorem Route.Kept.others_step (hp : p.Kept) (hthread : p.threads[i]? = some thread)
    (hadvance : thread.advance isolatedClient i choice p.shared = some (s',thread'))
    (hguard : thread.keepsRoute p = true) {j : Nat} {other : RouteThread C} (hne : j ≠ i)
    (hother : p.threads[j]? = some other) (hmeets : other.Meets p.shared) : other.Meets s' := by
  have hstep := RouteThread.advance_step hadvance
  have hlocks := hp.sound.locked
  by_cases hinside : other.holdsSlot = true
  · by_cases hdirect : other.storesDirect = true
    · cases other with
      | disable point =>
        cases point with
        | storeStatus => trivial
        | _ => cases hdirect
      | begin | enable | fail | routing | lease => cases hdirect
    · have houtside := hlocks.slot.exclusive hother hinside hthread (Ne.symm hne)
      refine (hstep.outside houtside hguard (storesDirect_eq_false ?_)).section hinside hmeets
      intro k holder hholder hholds
      have hsame := (hlocks.slot.held hother hinside).symm.trans (hlocks.slot.held hholder hholds)
      cases hsame
      rw [hother] at hholder
      cases hholder
      simpa using hdirect
  · cases other with
    | lease point =>
      cases point with
      | checkEpoch epoch =>
        obtain ⟨hepoch,hstays⟩ := hp.polls_step hthread hadvance hguard hne hother rfl
        intro hsame
        rw [hepoch] at hsame
        exact hstays (by simp [RouteThread.polls,hsame]) (hmeets hsame)
      | running epoch =>
        exact (hp.polls_step hthread hadvance hguard hne hother rfl).2 rfl hmeets
      | _ => trivial
    | begin point =>
      cases point with
      | clearClient | unlockSlot => exact absurd rfl hinside
      | _ => trivial
    | enable point =>
      cases point with
      | recheckDesired | storeClient | storeReady | unlockSlot => exact absurd rfl hinside
      | failing point =>
        cases point with
        | lockSlot => trivial
        | _ => exact absurd rfl hinside
      | _ => trivial
    | fail point =>
      cases point with
      | none => trivial
      | some point =>
        cases point with
        | lockSlot => trivial
        | _ => exact absurd rfl hinside
    | disable point =>
      cases point with
      | storeDesired | storeStatus | clearClient | unlockSlot => exact absurd rfl hinside
      | _ => trivial
    | routing => trivial

end

end CoppiceWallet.NetworkPrivacy
