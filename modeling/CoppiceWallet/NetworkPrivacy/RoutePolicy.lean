import CoppiceWallet.NetworkPrivacy.RouteCoherence

/-! # The policy of the network route -/

namespace CoppiceWallet.NetworkPrivacy

open CoppiceWallet.Lib

variable {C : Type} {isolatedClient : C → C} {p q : Route C}

/-- A call that turns Tor on or off, or reports a failure, is between its first and last steps. -/
def RouteThread.underWay : RouteThread C → Bool
  | .begin .returned | .enable (.returned _) | .fail none | .disable .returned => false
  | .routing _ _ | .lease _ => false
  | _ => true

/-- The policy of the route in a state and the runs from it. -/
structure RoutePolicy (isolatedClient : C → C) (p : Route C) : Prop where
  direct : ∀ (i epoch : Nat), p.threads[i]? = some (.lease (.running epoch)) →
    p.shared.torDesired = false
  cancelled : ∀ (q : Route C) (i j epoch : Nat) (point : LeasePoint),
    Runs (routeThreads isolatedClient).step p q →
    p.threads[i]? = some (.begin .lockWakers) → p.threads[j]? = some (.lease point) →
    point.epoch = some epoch → q.threads[i]? ≠ some (.begin .lockWakers) →
      ∀ e, q.threads[j]? ≠ some (.lease (.running e))
  routed : ∀ (q : Route C) (i : Nat) (isolated : Bool) (result : Except String (Option C)),
    Runs (routeThreads isolatedClient).step p q →
    p.threads[i]? = some (.routing isolated .readClient) →
    q.threads[i]? = some (.routing isolated (.returned result)) →
      (result = .ok none → p.Saw isolatedClient (fun s => s.torDesired = false) q) ∧
      ∀ client, result = .ok (some client) →
        p.Saw isolatedClient (fun s => s.torClient.isSome = true) q
  quiet : (∀ thread ∈ p.threads, thread.underWay = false) →
    (p.shared.torDesired = false → p.shared.torStatus = .direct ∧ p.shared.torClient = none) ∧
    (p.shared.torStatus = .ready → p.shared.torDesired = true ∧ p.shared.torClient.isSome = true)

theorem RouteThread.initial_meets {thread : RouteThread C} (h : thread.initial = true)
    (s : RouteState C) : thread.Meets s := by
  unfold RouteThread.initial at h
  split at h
  all_goals trivial

theorem routeOutline : (routeThreads isolatedClient).Outline KeepsRoute Route.Kept
    (fun s _ thread => thread.Meets s) where
  started hp hinitial := by
    have hsound := hp.invariant.sound.step (Threads.step_of_start hinitial)
    exact ⟨⟨hsound,hp.invariant.free⟩,RouteThread.initial_meets hinitial _⟩
  own {p i choice thread s' thread'} hp hguard hthread hadvance := by
    have hkeeps : thread.keepsRoute p = true := by simpa [KeepsRoute,hthread] using hguard
    have hmeets := hp.thread i thread hthread
    have hsound := hp.invariant.sound.step (Threads.step_of_advance hthread hadvance)
    exact ⟨⟨hsound,hp.invariant.free_step hthread hadvance hkeeps hmeets⟩,
      RouteThread.advance_meets hadvance hkeeps hp.invariant.free hmeets⟩
  others {p i choice thread s' thread'} hp hguard hthread hadvance j other hne hother := by
    have hkeeps : thread.keepsRoute p = true := by simpa [KeepsRoute,hthread] using hguard
    exact hp.invariant.others_step hthread hadvance hkeeps hne hother (hp.thread j other hother)

theorem RouteThread.underWay_of_holdsSlot {thread : RouteThread C}
    (h : thread.holdsSlot = true) : thread.underWay = true := by
  cases thread with
  | begin point => cases point <;> first | rfl | cases h
  | enable point => cases point <;> first | rfl | cases h
  | fail point => cases point <;> first | rfl | cases h
  | disable point => cases point <;> first | rfl | cases h
  | routing | lease => cases h

theorem Route.Locked.slot_free (hp : p.Locked)
    (hquiet : ∀ thread ∈ p.threads, thread.underWay = false) : p.shared.slotLock = none := by
  cases hlock : p.shared.slotLock with
  | none => rfl
  | some i =>
    obtain ⟨thread,hthread,hinside⟩ := (hp.slot i).mp hlock
    have hquiet' := hquiet thread (List.mem_of_getElem? hthread)
    rw [RouteThread.underWay_of_holdsSlot hinside] at hquiet'
    cases hquiet'

/-- The policy holds in every state of a run that keeps the route. -/
theorem routePolicy_runs
    (hrun : GuardedRuns (routeThreads isolatedClient).step KeepsRoute ⟨RouteState.initial C,[]⟩ p) :
    RoutePolicy isolatedClient p := by
  have hkept := routeOutline.guardedRuns hrun
    (holds_nil ⟨Route.sound_initial,fun _ => ⟨fun _ => ⟨rfl,rfl⟩,fun h => by cases h⟩⟩)
  have hsound := hkept.invariant.sound
  exact {
    direct := fun i epoch hi => hkept.thread i _ hi
    cancelled := fun q i j epoch point hpq hbegin hlease hepoch hlocked =>
      hsound.cancelled hpq hbegin hlease hepoch hlocked
    routed := by
      intro q i isolated result hpq hstart hreturned
      obtain ⟨point,hpoint,hmeets⟩ := Route.routing_runs hstart hpq
      rw [hreturned] at hpoint
      cases hpoint
      exact hmeets
    quiet := by
      intro hquiet
      have hcoherent := hkept.invariant.free (hsound.locked.slot_free hquiet)
      refine ⟨hcoherent.direct,fun hready => ⟨?_,hcoherent.ready hready⟩⟩
      by_contra hdirect
      have hstatus := (hcoherent.direct (by simpa using hdirect)).1
      rw [hready] at hstatus
      cases hstatus }

/-- A route that becomes ready while a lease of the earlier epoch waits, and is direct again. -/
theorem routePolicy_toggle :
    ∃ p : Route Unit, GuardedRuns (routeThreads id).step KeepsRoute ⟨RouteState.initial Unit,[]⟩ p ∧
      p.shared.torStatus = .direct ∧ RoutePolicy id p := by
  have hrun : ∃ p : Route Unit, guardedExecute (routeThreads id).step KeepsRoute
      (.start (.lease .creating) :: .advance 0 .proceed :: .start (.begin .lockWakers) ::
        List.replicate 15 (.advance 1 .proceed) ++ .advance 1 (.bootstrapped ()) ::
        List.replicate 6 (.advance 1 .proceed) ++ .start (.routing false .readClient) ::
        List.replicate 3 (.advance 2 .proceed) ++ .start (.disable .lockSlot) ::
        List.replicate 5 (.advance 3 .proceed)) ⟨RouteState.initial Unit,[]⟩ = some p ∧
      p.shared.torStatus = .direct := ⟨_,rfl,rfl⟩
  obtain ⟨p,hp,hstatus⟩ := hrun
  exact ⟨p,guardedRuns_of_execute hp,hstatus,routePolicy_runs (guardedRuns_of_execute hp)⟩

/-- A disable call between the two stores of a begin call leaves a direct route connecting. -/
theorem begin_over_disable :
    ¬ ∀ p : Route Unit, Runs (routeThreads id).step ⟨RouteState.initial Unit,[]⟩ p →
      RoutePolicy id p := by
  intro h
  have hrun : ∃ p : Route Unit, execute (routeThreads id).step
      (.start (.begin .lockWakers) :: List.replicate 2 (.advance 0 .proceed) ++
        .start (.disable .lockSlot) :: List.replicate 5 (.advance 1 .proceed) ++
        List.replicate 6 (.advance 0 .proceed)) ⟨RouteState.initial Unit,[]⟩ = .ok p ∧
      p.threads = [.begin .returned,.disable .returned] ∧ p.shared.torDesired = false ∧
      p.shared.torStatus = .bootstrapping := ⟨_,rfl,rfl,rfl,rfl⟩
  obtain ⟨p,hp,hthreads,hdirect,hstatus⟩ := hrun
  have hquiet := (h p (runs_of_execute hp)).quiet (by simp [hthreads,RouteThread.underWay])
  rw [(hquiet.1 hdirect).1] at hstatus
  cases hstatus

end CoppiceWallet.NetworkPrivacy
