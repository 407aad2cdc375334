import CoppiceWallet.Lib.Rest
import CoppiceWallet.Migration.DeletionBarrier

/-!
# The registry never locks up

A queued call waits for calls that were accepted before it, and a revocation for accepted calls. So
some call can always go on until all calls have ended and every revocation has its handle.
-/

namespace CoppiceWallet.Migration

open CoppiceWallet.Lib

variable {p : Registry}

/-- How many steps are left of a call; a handle waits for whoever has it. -/
def RegistryThread.stepsLeft : RegistryThread → Nat
  | .run _ _ => 4
  | .queued _ => 3
  | .executing _ | .revokeAndWait _ _ => 2
  | .finished _ _ | .draining _ _ _ _ => 1
  | .ended _ _ | .rejected _ | .revocation _ _ _ | .alreadyStopping _ => 0

/-- A thread waits for those of lower levels only. -/
def RegistryThread.level (s : OperationRegistry) : RegistryThread → Nat
  | .queued call => call.ahead.length
  | .draining key _ _ _ => (s.accepted key).length
  | _ => 0

theorem stepsLeft_decreases {i : Nat} {choice : RegistryChoice} {s s' : OperationRegistry}
    {thread thread' : RegistryThread} (hleft : 0 < thread.stepsLeft)
    (h : thread.advance i choice s = some (s',thread')) :
    thread'.stepsLeft < thread.stepsLeft := by
  cases thread with
  | run | queued | executing | finished | revokeAndWait | draining =>
    simp only [RegistryThread.advance] at h
    grind [RegistryThread.stepsLeft]
  | ended | rejected | revocation | alreadyStopping => cases hleft

theorem canWork_of_advance (choice : RegistryChoice) {i : Nat} {thread thread' : RegistryThread}
    {s' : OperationRegistry} (hi : p.threads[i]? = some thread) (hleft : 0 < thread.stepsLeft)
    (h : thread.advance i choice p.shared = some (s',thread')) :
    registryThreads.CanWork RegistryThread.stepsLeft p :=
  ⟨i,choice,thread,s',thread',hi,h,stepsLeft_decreases hleft h⟩

theorem waits_for_call (hp : p.Holds Registry.Sound RegistryThread.Meets) {key : String} {k : Nat}
    (hk : k ∈ p.shared.accepted key) (hpending : ¬ p.shared.completed k = true) :
    ∃ thread : RegistryThread, p.threads[k]? = some thread ∧ 0 < thread.stepsLeft ∧
      ∃ ahead, k :: ahead <:+ p.shared.accepted key ∧
        thread.level p.shared ≤ ahead.length := by
  obtain ⟨thread,call,hthread,hcall,rfl⟩ := hp.invariant.call key k hk
  refine ⟨thread,hthread,?_⟩
  have hmeets := hp.thread k thread hthread
  cases thread with
  | queued | executing | finished =>
    cases hcall
    refine ⟨by simp [RegistryThread.stepsLeft],call.ahead,hmeets.place,?_⟩
    simp [RegistryThread.level]
  | ended => exact absurd hmeets.2 hpending
  | run | rejected | revokeAndWait | draining | revocation | alreadyStopping => cases hcall

theorem queued_waits (hp : p.Holds Registry.Sound RegistryThread.Meets) {i : Nat}
    {call : OperationCall} (hqueued : Queued p.shared i call)
    (hprevious : ¬ call.previous.all p.shared.completed = true) :
    ∃ (k : Nat) (other : RegistryThread), p.threads[k]? = some other ∧ 0 < other.stepsLeft ∧
      other.level p.shared < call.ahead.length := by
  cases hcase : call.previous with
  | none => simp [hcase] at hprevious
  | some k =>
    obtain ⟨older,holder⟩ := head_suffix (hqueued.previous k hcase)
    have hplace : k :: older <:+ p.shared.accepted call.key := by
      rw [← holder]
      exact (List.suffix_cons i call.ahead).trans hqueued.place
    obtain ⟨other,hother,hleft,ahead,hahead,hlevel⟩ := waits_for_call hp (mem_of_place hplace)
      (by simpa [hcase] using hprevious)
    refine ⟨k,other,hother,hleft,?_⟩
    rw [suffix_tail_eq (hp.invariant.nodup call.key) hahead hplace] at hlevel
    rw [holder,List.length_cons]
    omega

theorem draining_waits (hp : p.Holds Registry.Sound RegistryThread.Meets) {key : String}
    {tail : Option Nat} (hdraining : Draining p.shared key tail)
    (htail : ¬ tail.all p.shared.completed = true) :
    ∃ (k : Nat) (other : RegistryThread), p.threads[k]? = some other ∧ 0 < other.stepsLeft ∧
      other.level p.shared < (p.shared.accepted key).length := by
  cases tail with
  | none => simp at htail
  | some k =>
    obtain ⟨older,holder⟩ := head_suffix (hdraining.tail k rfl)
    obtain ⟨other,hother,hleft,ahead,hahead,hlevel⟩ := waits_for_call hp
      (show k ∈ p.shared.accepted key by simp [holder]) (by simpa using htail)
    have hlength := hahead.length_le
    rw [List.length_cons] at hlength
    exact ⟨k,other,hother,hleft,by omega⟩

theorem registry_canWork (hp : p.Holds Registry.Sound RegistryThread.Meets) {i : Nat}
    {thread : RegistryThread} (hthread : p.threads[i]? = some thread)
    (hleft : 0 < thread.stepsLeft) : registryThreads.CanWork RegistryThread.stepsLeft p := by
  refine canWork_of_level (RegistryThread.level p.shared) (fun i thread hi hleft => ?_) hthread
    hleft
  have hmeets := hp.thread i thread hi
  cases thread with
  | run network accountUuid =>
    left
    by_cases hrevoked : p.shared.isRevoked (operationKey network accountUuid) = true
    · exact canWork_of_advance .proceed hi hleft (if_pos hrevoked)
    · exact canWork_of_advance .proceed hi hleft (if_neg hrevoked)
  | executing call =>
    exact .inl (canWork_of_advance .throws hi hleft rfl)
  | finished call outcome =>
    exact .inl (canWork_of_advance .proceed hi hleft (if_pos hmeets.previous))
  | revokeAndWait network accountUuid =>
    obtain ⟨next,hnext⟩ : ∃ next, RegistryThread.advance i .proceed p.shared
        (.revokeAndWait network accountUuid) = some next := by
      simp only [RegistryThread.advance]
      split
      · split
        · exact ⟨_,rfl⟩
        · exact ⟨_,rfl⟩
      · exact ⟨_,rfl⟩
    exact .inl (canWork_of_advance .proceed hi hleft hnext)
  | queued call =>
    by_cases hprevious : call.previous.all p.shared.completed = true
    · left
      by_cases hrevoked : p.shared.isRevoked call.key = true
      · exact canWork_of_advance .proceed hi hleft
          ((if_pos hprevious).trans (if_pos hrevoked))
      · exact canWork_of_advance .proceed hi hleft
          ((if_pos hprevious).trans (if_neg hrevoked))
    · exact .inr (queued_waits hp hmeets hprevious)
  | draining key token committed tail =>
    by_cases htail : tail.all p.shared.completed = true
    · exact .inl (canWork_of_advance .proceed hi hleft (if_pos htail))
    · right
      cases committed with
      | false => exact draining_waits hp hmeets.2 htail
      | true => exact draining_waits hp hmeets.2 htail
  | ended | rejected | revocation | alreadyStopping => cases hleft

/-- Calls and revocations of every run can all be brought to their ends, and each of their steps
brings them nearer to it. -/
theorem operationRegistry_neverStuck (hrun : Runs registryThreads.step ⟨.empty,[]⟩ p) :
    registryThreads.CanRest RegistryThread.stepsLeft p ∧
      ∀ (i : Nat) choice (thread thread' : RegistryThread) s', p.threads[i]? = some thread →
        0 < thread.stepsLeft → thread.advance i choice p.shared = some (s',thread') →
          thread'.stepsLeft < thread.stepsLeft :=
  ⟨registry_outline.canRest (fun _ hp _ _ hi hleft => registry_canWork hp hi hleft)
    (registry_holds hrun),fun _ _ _ _ _ _ hleft h => stepsLeft_decreases hleft h⟩

theorem operationRegistry_neverStuck_queued : ∃ p : Registry,
    Runs registryThreads.step ⟨.empty,[]⟩ p ∧
    p.threads[1]? = some (.queued ⟨operationKey "main" "a",some 0,[0]⟩) ∧
    p.threads[2]? = some (.draining (operationKey "main" "a") 2 false (some 1)) ∧
    registryThreads.CanRest RegistryThread.stepsLeft p := by
  obtain ⟨p,hexecute,hsecond,hthird⟩ : ∃ p : Registry, execute registryThreads.step
      [.start (.run "main" "a"),.start (.run "main" "a"),.advance 0 .proceed,.advance 1 .proceed,
        .start (.revokeAndWait "main" "a"),.advance 2 .proceed] ⟨.empty,[]⟩ = .ok p ∧
      p.threads[1]? = some (.queued ⟨operationKey "main" "a",some 0,[0]⟩) ∧
      p.threads[2]? = some (.draining (operationKey "main" "a") 2 false (some 1)) :=
    ⟨_,rfl,rfl,rfl⟩
  exact ⟨p,runs_of_execute hexecute,hsecond,hthird,
    (operationRegistry_neverStuck (runs_of_execute hexecute)).1⟩

end CoppiceWallet.Migration
