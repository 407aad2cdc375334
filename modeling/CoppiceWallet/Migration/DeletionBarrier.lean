import CoppiceWallet.Migration.OperationBarrier

/-! # Runs of the operation registry -/

namespace CoppiceWallet.Migration

open CoppiceWallet.Lib

variable {p q : Registry} {i : Nat} {choice : RegistryChoice}

/-- What a step of a thread does to the registry, as the others see it. -/
structure SafeStep (p : Registry) (i : Nat) (s' : OperationRegistry) (thread' : RegistryThread) :
    Prop where
  sound : Registry.Sound ⟨s',p.threads.set i thread'⟩
  own : thread'.Meets s' i
  others : ∀ j, j ≠ i → Frame p.shared s' j

theorem advance_safe (hp : p.Holds Registry.Sound RegistryThread.Meets) {thread thread' : RegistryThread}
    {s' : OperationRegistry} (hthread : p.threads[i]? = some thread)
    (h : thread.advance i choice p.shared = some (s',thread')) : SafeStep p i s' thread' := by
  have hmeets := hp.thread i thread hthread
  have hsound := hp.invariant
  cases thread with
  | run network accountUuid =>
    simp only [RegistryThread.advance] at h
    by_cases hrevoked : p.shared.isRevoked (operationKey network accountUuid) = true
    · rw [if_pos hrevoked] at h
      cases h
      exact ⟨hsound.stay hthread rfl,trivial,fun j _ => frame_refl _ j⟩
    · rw [if_neg hrevoked] at h
      cases h
      have hrevoked' : p.shared.isRevoked (operationKey network accountUuid) = false := by
        simpa using hrevoked
      refine ⟨hsound.accept hthread hmeets hrevoked',⟨?_,fun k hk => hsound.tailSome _ k hk,
        fun hnone => hsound.tailNone _ hnone,hmeets.released,hsound.started _⟩,
        fun j hj => frame_accept hj hrevoked'⟩
      rw [accepted_accept,if_pos rfl]
  | queued call =>
    simp only [RegistryThread.advance] at h
    split at h
    · rename_i hprevious
      have hahead := Queued.ahead_released hsound hmeets hprevious
      split at h
      · cases h
        exact ⟨hsound.release hthread rfl rfl hmeets.place hahead,
          ⟨hmeets.place,hprevious,fun k hk => by rw [released_release,hahead k hk,Bool.or_true],
            by simp [released_release]⟩,fun j hj => frame_release hj⟩
      · cases h
        exact ⟨hsound.begin hthread hmeets hahead,⟨hmeets.place,hprevious,hahead,hmeets.pending⟩,
          fun j hj => frame_begin hj hmeets.place hahead hmeets.started⟩
    · cases h
  | executing call =>
    have hrelease : ∀ outcome, SafeStep p i (p.shared.release i call.key) (.finished call outcome) :=
      fun outcome => ⟨hsound.release hthread rfl rfl hmeets.place hmeets.ahead,
        ⟨hmeets.place,hmeets.previous,
          fun k hk => by rw [released_release,hmeets.ahead k hk,Bool.or_true],
          by simp [released_release]⟩,fun j hj => frame_release hj⟩
    simp only [RegistryThread.advance] at h
    split at h
    · cases h
      exact hrelease .threw
    · cases h
      exact hrelease .returned
  | finished call outcome =>
    simp only [RegistryThread.advance] at h
    split at h
    · cases h
      have hcompleted : ∀ k, p.shared.completed k = true →
          (p.shared.complete i).completed k = true := by
        intro k hk
        by_cases hik : k = i
        · simp [OperationRegistry.complete,hik]
        · simp [OperationRegistry.complete,hik,hk]
      exact ⟨hsound.complete hthread hmeets,
        ⟨⟨hmeets.place,all_completed hcompleted hmeets.previous,hmeets.ahead,hmeets.released⟩,
          by simp [OperationRegistry.complete]⟩,fun j hj => frame_complete hj⟩
    · cases h
  | ended | rejected | alreadyStopping => cases h
  | revokeAndWait network accountUuid =>
    simp only [RegistryThread.advance] at h
    split at h
    · rename_i token htoken
      split at h
      · rename_i hcommitted
        cases h
        exact ⟨hsound.stay hthread rfl,⟨⟨htoken,hcommitted⟩,
          fun hnone => hsound.tailNone _ hnone,fun k hk => hsound.tailSome _ k hk⟩,
          fun j _ => frame_refl _ j⟩
      · cases h
        exact ⟨hsound.stay hthread rfl,trivial,fun j _ => frame_refl _ j⟩
    · rename_i hnone
      cases h
      have huncommitted : p.shared.committedRevocations (operationKey network accountUuid) = false := by
        by_contra hcontra
        have hsome := hsound.committed _ (by simpa using hcontra)
        rw [hnone] at hsome
        cases hsome
      exact ⟨hsound.revoke hthread (by rfl) hnone,
        ⟨⟨rfl,by simp [OperationRegistry.revoke],huncommitted⟩,
          fun hnone => hsound.tailNone _ hnone,fun k hk => hsound.tailSome _ k hk⟩,
        fun j hj => frame_revoke hj hnone⟩
  | draining key token committed tail =>
    simp only [RegistryThread.advance] at h
    split at h
    · rename_i htail
      cases h
      refine ⟨hsound.stay hthread rfl,?_,fun j _ => frame_refl _ j⟩
      cases committed with
      | false => exact ⟨hmeets.1,hmeets.2.drained hsound htail⟩
      | true => exact ⟨hmeets.1,hmeets.2.drained hsound htail⟩
    · cases h
  | revocation key token status =>
    cases status with
    | «open» =>
      have hrevoking : Revoking p.shared i key token := hmeets.1
      simp only [RegistryThread.advance] at h
      split at h
      · cases h
        refine ⟨hsound.commit hthread (by rfl) hrevoking,?_,fun j hj => frame_commit hj hrevoking⟩
        rw [OperationRegistry.commitRevocation,hrevoking.token,if_pos hrevoking.revocations]
        exact ⟨⟨hrevoking.revocations,Function.update_self ..⟩,hmeets.2⟩
      · split at h
        · cases h
          exact ⟨hsound.rollback hthread (by rfl) hrevoking,trivial,
            fun j hj => frame_rollback hj hrevoking⟩
        · cases h
    | committed | rolledBack =>
      cases h
      exact ⟨hsound.stay hthread rfl,hmeets,fun j _ => frame_refl _ j⟩

theorem registry_outline : registryThreads.Outline (fun _ _ => True) Registry.Sound
    RegistryThread.Meets where
  started := by
    intro p thread hp hinitial
    have hsound := hp.invariant
    refine ⟨⟨fun k hk => ?_,fun key k hk => ?_,hsound.nodup,hsound.tailNone,hsound.tailSome,
      hsound.completed,hsound.started,hsound.committed⟩,?_⟩
    · rw [List.length_append,List.length_singleton] at hk
      exact hsound.unused k (by omega)
    · obtain ⟨other,call,hother,hcall,hkey⟩ := hsound.call key k hk
      exact ⟨other,call,getElem?_append_of_some hother,hcall,hkey⟩
    · have hunused := hsound.unused p.threads.length le_rfl
      cases thread with
      | run | revokeAndWait => exact hunused
      | queued | executing | finished | ended | rejected | draining | revocation
        | alreadyStopping => cases hinitial
  own hp _ hthread h := ⟨(advance_safe hp hthread h).sound,(advance_safe hp hthread h).own⟩
  others hp _ hthread h j other hj hother :=
    ((advance_safe hp hthread h).others j hj).meets (hp.thread j other hother)

theorem registry_holds (hrun : Runs registryThreads.step ⟨.empty,[]⟩ p) :
    p.Holds Registry.Sound RegistryThread.Meets := by
  refine registry_outline.runs hrun (holds_nil ?_)
  constructor <;> simp [OperationRegistry.empty,Drained]
  · intro k
    constructor <;> simp

/-- The call is over: its operation returned or threw, or it was turned away. -/
def RegistryThread.isOver : RegistryThread → Bool
  | .finished _ _ | .ended _ _ => true
  | _ => false

structure BarrierHolds (p : Registry) : Prop where
  serial : ∀ (i j : Nat) (call call' : OperationCall), p.threads[i]? = some (.executing call) →
    p.threads[j]? = some (.executing call') → call.key = call'.key → i = j
  ordered : ∀ key, (p.shared.started key).Sublist (p.shared.accepted key)
  idle : ∀ (i : Nat) (key : String) (token : Nat) (status : RevocationStatus),
    p.threads[i]? = some (.revocation key token status) → status ≠ .rolledBack →
      p.shared.isRevoked key = true ∧
      (∀ (j : Nat) (call : OperationCall), p.threads[j]? = some (.executing call) →
        call.key ≠ key) ∧
      ∀ (j : Nat) choice (q : Registry) (call : OperationCall),
        registryThreads.step (.advance j choice) p = .ok q →
          q.threads[j]? = some (.executing call) → call.key ≠ key
  committed : ∀ (i : Nat) (key : String) (token : Nat),
    p.threads[i]? = some (.revocation key token .committed) →
      ∀ q, Runs registryThreads.step p q → q.shared.revocations key = some token
  /-- A call whose turn has come can go on, whatever became of those ahead of it. -/
  unblocked : ∀ (i : Nat) (call : OperationCall), p.threads[i]? = some (.queued call) →
    (∀ k ∈ call.ahead, ∀ thread : RegistryThread, p.threads[k]? = some thread →
      thread.isOver = true) →
      ∃ q q' : Registry, Runs registryThreads.step p q ∧
        q.shared.isRevoked call.key = p.shared.isRevoked call.key ∧
        registryThreads.step (.advance i .proceed) q = .ok q' ∧
        q'.threads[i]? = some (if p.shared.isRevoked call.key then .finished call .revoked
          else .executing call)

section
variable (hp : p.Holds Registry.Sound RegistryThread.Meets)

include hp

theorem executing_serial {j : Nat} {call call' : OperationCall}
    (hi : p.threads[i]? = some (.executing call)) (hj : p.threads[j]? = some (.executing call'))
    (hkey : call.key = call'.key) : i = j := by
  by_contra hne
  have hown : Executing p.shared i call := hp.thread i _ hi
  have hother : Executing p.shared j call' := hp.thread j _ hj
  have hplace := hother.place
  rw [← hkey] at hplace
  rcases ahead_cases hown.place hplace hne with hbehind | hbehind
  · have hreleased := hother.ahead i (hbehind.subset List.mem_cons_self)
    rw [hown.pending] at hreleased
    cases hreleased
  · have hreleased := hown.ahead j (hbehind.subset List.mem_cons_self)
    rw [hother.pending] at hreleased
    cases hreleased

theorem drained_of_revocation {key : String} {token : Nat} {status : RevocationStatus}
    (hi : p.threads[i]? = some (.revocation key token status)) (hstatus : status ≠ .rolledBack) :
    p.shared.isRevoked key = true ∧ Drained p.shared key := by
  have hmeets := hp.thread i _ hi
  cases status with
  | «open» =>
    have hrevoking : Revoking p.shared i key token := hmeets.1
    exact ⟨by rw [OperationRegistry.isRevoked,hrevoking.revocations]; rfl,hmeets.2⟩
  | committed =>
    have hcommitted : Committed p.shared key token := hmeets.1
    exact ⟨by rw [OperationRegistry.isRevoked,hcommitted.revocations]; rfl,hmeets.2⟩
  | rolledBack => exact absurd rfl hstatus

theorem not_executing_of_drained {key : String} (hdrained : Drained p.shared key) {j : Nat}
    {call : OperationCall} (hj : p.threads[j]? = some (.executing call)) : call.key ≠ key := by
  intro hkey
  have hexecuting : Executing p.shared j call := hp.thread j _ hj
  have hreleased := hdrained j (by rw [← hkey]; exact mem_of_place hexecuting.place)
  rw [hexecuting.pending] at hreleased
  cases hreleased

end

/-- Nothing starts on a revoked key. -/
theorem not_started_of_revoked {key : String} (hrevoked : p.shared.isRevoked key = true)
    (hstep : registryThreads.step (.advance i choice) p = .ok q) {call : OperationCall}
    (hcall : q.threads[i]? = some (.executing call)) : call.key ≠ key := by
  obtain ⟨thread,s',thread',hthread,hadvance,rfl⟩ := Threads.step_advance hstep
  rw [getElem?_set_own hthread] at hcall
  obtain rfl := Option.some.inj hcall
  rintro rfl
  change thread.advance i choice p.shared = _ at hadvance
  cases thread with
  | queued other =>
    simp only [RegistryThread.advance] at hadvance
    split at hadvance
    · split at hadvance
      · cases hadvance
      · rename_i hnot
        cases hadvance
        exact hnot hrevoked
    · cases hadvance
  | run =>
    simp only [RegistryThread.advance] at hadvance
    split at hadvance <;> cases hadvance
  | executing =>
    simp only [RegistryThread.advance] at hadvance
    split at hadvance <;> cases hadvance
  | finished =>
    simp only [RegistryThread.advance] at hadvance
    split at hadvance <;> cases hadvance
  | ended | rejected | alreadyStopping => cases hadvance
  | revokeAndWait =>
    simp only [RegistryThread.advance] at hadvance
    split at hadvance
    · split at hadvance <;> cases hadvance
    · cases hadvance
  | draining =>
    simp only [RegistryThread.advance] at hadvance
    split at hadvance <;> cases hadvance
  | revocation key token status =>
    cases status with
    | «open» =>
      simp only [RegistryThread.advance] at hadvance
      split at hadvance
      · cases hadvance
      · split at hadvance <;> cases hadvance
    | committed | rolledBack => cases hadvance

theorem revocation_stays_committed {key : String} {token : Nat}
    (hi : p.threads[i]? = some (.revocation key token .committed))
    (hrun : Runs registryThreads.step p q) :
    q.threads[i]? = some (.revocation key token .committed) := by
  refine hrun.invariant (P := fun q : Registry => q.threads[i]? =
    some (.revocation key token .committed)) (fun input s t hs hstep => ?_) hi
  cases input with
  | start thread =>
    obtain ⟨_,rfl⟩ := Threads.step_start hstep
    exact getElem?_append_of_some hs
  | advance j choice =>
    obtain ⟨thread,s',thread',hthread,hadvance,rfl⟩ := Threads.step_advance hstep
    by_cases hj : i = j
    · subst hj
      obtain rfl := Option.some.inj (hs.symm.trans hthread)
      cases hadvance
      exact getElem?_set_own hthread
    · exact (getElem?_set_other hj).trans hs

theorem queued_unblocked (hp : p.Holds Registry.Sound RegistryThread.Meets) {call : OperationCall}
    (hi : p.threads[i]? = some (.queued call))
    (hover : ∀ k ∈ call.ahead, ∀ thread, p.threads[k]? = some thread → thread.isOver = true) :
    ∃ q, Runs registryThreads.step p q ∧ q.threads[i]? = some (.queued call) ∧
      q.shared.revocations = p.shared.revocations ∧
      call.previous.all q.shared.completed = true := by
  have hqueued : Queued p.shared i call := hp.thread i _ hi
  cases hprevious : call.previous with
  | none => exact ⟨p,.refl p,hi,rfl,rfl⟩
  | some k =>
    obtain ⟨older,holder⟩ := head_suffix (hqueued.previous k hprevious)
    have hmem : k ∈ call.ahead := by
      rw [holder]
      exact List.mem_cons_self
    have haccepted : k ∈ p.shared.accepted call.key :=
      hqueued.place.subset (List.mem_cons_of_mem _ hmem)
    obtain ⟨thread,other,hthread,hcall,_⟩ := hp.invariant.call call.key k haccepted
    have hthreadOver := hover k hmem thread hthread
    cases thread with
    | finished other outcome =>
      have hfinished : Finished p.shared k other := hp.thread k _ hthread
      have hstep : registryThreads.step (.advance k .proceed) p =
          .ok ⟨p.shared.complete k,p.threads.set k (.ended other outcome)⟩ := by
        refine Threads.step_of_advance hthread ?_
        show RegistryThread.advance k .proceed p.shared (.finished other outcome) = _
        rw [RegistryThread.advance,if_pos hfinished.previous]
      have hne : i ≠ k := by
        rintro rfl
        rw [hi] at hthread
        cases hthread
      refine ⟨_,.tail _ (.refl p) hstep,(getElem?_set_other hne).trans hi,rfl,?_⟩
      simp [OperationRegistry.complete]
    | ended other outcome =>
      have hended : Finished p.shared k other ∧ p.shared.completed k = true := hp.thread k _ hthread
      exact ⟨p,.refl p,hi,rfl,hended.2⟩
    | run | queued | executing | rejected | revokeAndWait | draining | revocation
      | alreadyStopping => cases hthreadOver

/-- The barrier holds in every state of the registry, whatever calls are made on whatever keys. -/
theorem operationRegistry_barrier (hrun : Runs registryThreads.step ⟨.empty,[]⟩ p) :
    BarrierHolds p := by
  have hp := registry_holds hrun
  refine ⟨fun i j call call' hi hj hkey => executing_serial hp hi hj hkey,hp.invariant.started,
    fun i key token status hi hstatus => ?_,fun i key token hi q hq => ?_,fun i call hi hover => ?_⟩
  · obtain ⟨hrevoked,hdrained⟩ := drained_of_revocation hp hi hstatus
    exact ⟨hrevoked,fun j call hj => not_executing_of_drained hp hdrained hj,
      fun j choice q call hstep hcall => not_started_of_revoked hrevoked hstep hcall⟩
  · have hcommitted : Committed q.shared key token ∧ Drained q.shared key :=
      (registry_outline.runs hq hp).thread i _ (revocation_stays_committed hi hq)
    exact hcommitted.1.revocations
  · obtain ⟨q,hq,hthread,hrevocations,hprevious⟩ := queued_unblocked hp hi hover
    have hrevoked : q.shared.isRevoked call.key = p.shared.isRevoked call.key := by
      rw [OperationRegistry.isRevoked,hrevocations]
      rfl
    have hadvance : RegistryThread.advance i .proceed q.shared (.queued call) =
        if q.shared.isRevoked call.key then
          some (q.shared.release i call.key,.finished call .revoked)
        else some (q.shared.begin i call.key,.executing call) := by
      rw [RegistryThread.advance,if_pos hprevious]
    by_cases hrev : q.shared.isRevoked call.key = true
    · rw [if_pos hrev] at hadvance
      refine ⟨q,_,hq,hrevoked,Threads.step_of_advance hthread hadvance,?_⟩
      rw [← hrevoked,if_pos hrev]
      exact getElem?_set_own hthread
    · rw [if_neg hrev] at hadvance
      refine ⟨q,_,hq,hrevoked,Threads.step_of_advance hthread hadvance,?_⟩
      rw [← hrevoked,if_neg hrev]
      exact getElem?_set_own hthread

/-- Two calls and a revocation; the second call is turned away once the first one threw. -/
theorem revokedAccount_barrier : ∃ p : Registry,
    Runs registryThreads.step ⟨.empty,[]⟩ p ∧
    p.threads[1]? = some (.finished ⟨operationKey "main" "a",some 0,[0]⟩ .revoked) ∧
    p.threads[2]? = some (.draining (operationKey "main" "a") 2 false (some 1)) ∧
    BarrierHolds p := by
  obtain ⟨p,hexecute,hsecond,hthird⟩ : ∃ p : Registry, execute registryThreads.step
      [.start (.run "main" "a"),.start (.run "main" "a"),.advance 0 .proceed,.advance 1 .proceed,
        .advance 0 .proceed,.start (.revokeAndWait "main" "a"),.advance 2 .proceed,
        .advance 0 .throws,.advance 0 .proceed,.advance 1 .proceed] ⟨.empty,[]⟩ = .ok p ∧
      p.threads[1]? = some (.finished ⟨operationKey "main" "a",some 0,[0]⟩ .revoked) ∧
      p.threads[2]? = some (.draining (operationKey "main" "a") 2 false (some 1)) :=
    ⟨_,rfl,rfl,rfl⟩
  exact ⟨p,runs_of_execute hexecute,hsecond,hthird,
    operationRegistry_barrier (runs_of_execute hexecute)⟩

end CoppiceWallet.Migration
