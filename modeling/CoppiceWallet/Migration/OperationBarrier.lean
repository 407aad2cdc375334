import CoppiceWallet.Migration.OperationRegistry

/-! # The barrier of account deletion -/

namespace CoppiceWallet.Migration

open CoppiceWallet.Lib

variable {s : OperationRegistry} {i : Nat}

/-- The index is that of no call and of no token yet. -/
structure Unused (s : OperationRegistry) (i : Nat) : Prop where
  accepted : ∀ key, i ∉ s.accepted key
  released : s.released i = false
  completed : s.completed i = false
  revocations : ∀ key, s.revocations key ≠ some i

structure Queued (s : OperationRegistry) (i : Nat) (call : OperationCall) : Prop where
  place : i :: call.ahead <:+ s.accepted call.key
  previous : ∀ k, call.previous = some k → call.ahead.head? = some k
  unblocked : call.previous = none → ∀ k ∈ call.ahead, s.released k = true
  pending : s.released i = false
  started : (s.started call.key).Sublist call.ahead

structure Executing (s : OperationRegistry) (i : Nat) (call : OperationCall) : Prop where
  place : i :: call.ahead <:+ s.accepted call.key
  previous : call.previous.all s.completed = true
  ahead : ∀ k ∈ call.ahead, s.released k = true
  pending : s.released i = false

structure Finished (s : OperationRegistry) (i : Nat) (call : OperationCall) : Prop where
  place : i :: call.ahead <:+ s.accepted call.key
  previous : call.previous.all s.completed = true
  ahead : ∀ k ∈ call.ahead, s.released k = true
  released : s.released i = true

/-- The revocation that the thread made stands, and is not committed. -/
structure Revoking (s : OperationRegistry) (i : Nat) (key : String) (token : Nat) : Prop where
  token : token = i
  revocations : s.revocations key = some i
  committed : s.committedRevocations key = false

structure Committed (s : OperationRegistry) (key : String) (token : Nat) : Prop where
  revocations : s.revocations key = some token
  committed : s.committedRevocations key = true

/-- Every accepted call is released once the tail has completed. -/
structure Draining (s : OperationRegistry) (key : String) (tail : Option Nat) : Prop where
  unblocked : tail = none → ∀ k ∈ s.accepted key, s.released k = true
  tail : ∀ k, tail = some k → (s.accepted key).head? = some k

def Drained (s : OperationRegistry) (key : String) : Prop :=
  ∀ k ∈ s.accepted key, s.released k = true

/-- What holds of a thread at its point. -/
def RegistryThread.Meets (s : OperationRegistry) (i : Nat) : RegistryThread → Prop
  | .run _ _ | .revokeAndWait _ _ => Unused s i
  | .queued call => Queued s i call
  | .executing call => Executing s i call
  | .finished call _ => Finished s i call
  | .ended call _ => Finished s i call ∧ s.completed i = true
  | .draining key token false tail => Revoking s i key token ∧ Draining s key tail
  | .draining key token true tail => Committed s key token ∧ Draining s key tail
  | .revocation key token .open => Revoking s i key token ∧ Drained s key
  | .revocation key token .committed => Committed s key token ∧ Drained s key
  | .revocation _ _ .rolledBack | .rejected _ | .alreadyStopping _ => True

def RegistryThread.call : RegistryThread → Option OperationCall
  | .queued call | .executing call | .finished call _ | .ended call _ => some call
  | _ => none

/-- What holds of the registry. -/
structure Registry.Sound (p : Registry) : Prop where
  unused : ∀ k, p.threads.length ≤ k → Unused p.shared k
  call : ∀ key k, k ∈ p.shared.accepted key → ∃ thread call, p.threads[k]? = some thread ∧
    thread.call = some call ∧ call.key = key
  nodup : ∀ key, (p.shared.accepted key).Nodup
  tailNone : ∀ key, p.shared.tails key = none → Drained p.shared key
  tailSome : ∀ key k, p.shared.tails key = some k → (p.shared.accepted key).head? = some k
  completed : ∀ key k older, k :: older <:+ p.shared.accepted key → p.shared.completed k = true →
    ∀ j ∈ k :: older, p.shared.released j = true
  started : ∀ key, (p.shared.started key).Sublist (p.shared.accepted key)
  committed : ∀ key, p.shared.committedRevocations key = true →
    (p.shared.revocations key).isSome = true

theorem mem_of_place {key : String} {ahead : List Nat} (h : i :: ahead <:+ s.accepted key) :
    i ∈ s.accepted key :=
  h.subset List.mem_cons_self

theorem ahead_cases {xs a b : List Nat} {i j : Nat} (hi : i :: a <:+ xs) (hj : j :: b <:+ xs)
    (hne : i ≠ j) : i :: a <:+ b ∨ j :: b <:+ a := by
  rcases List.suffix_or_suffix_of_suffix hi hj with h | h
  · rcases List.suffix_cons_iff.mp h with h | h
    · exact absurd (List.cons.inj h).1 hne
    · exact .inl h
  · rcases List.suffix_cons_iff.mp h with h | h
    · exact absurd (List.cons.inj h).1 (Ne.symm hne)
    · exact .inr h

theorem suffix_tail_eq {xs a b : List Nat} {i : Nat} (hxs : xs.Nodup) (ha : i :: a <:+ xs)
    (hb : i :: b <:+ xs) : a = b := by
  rcases List.suffix_or_suffix_of_suffix ha hb with h | h
  · rcases List.suffix_cons_iff.mp h with h | h
    · exact (List.cons.inj h).2
    · exact absurd (h.subset List.mem_cons_self)
        (List.nodup_cons.mp (hb.sublist.nodup hxs)).1
  · rcases List.suffix_cons_iff.mp h with h | h
    · exact (List.cons.inj h).2.symm
    · exact absurd (h.subset List.mem_cons_self)
        (List.nodup_cons.mp (ha.sublist.nodup hxs)).1

theorem head_suffix {xs : List Nat} {k : Nat} (h : xs.head? = some k) : ∃ older, xs = k :: older := by
  cases xs with
  | nil => cases h
  | cons x older =>
    cases h
    exact ⟨older,rfl⟩

theorem Queued.ahead_released {p : Registry} (hp : p.Sound) {call : OperationCall}
    (h : Queued p.shared i call) (hprevious : call.previous.all p.shared.completed = true) :
    ∀ k ∈ call.ahead, p.shared.released k = true := by
  cases hcall : call.previous with
  | none => exact h.unblocked hcall
  | some k =>
    rw [hcall] at hprevious
    obtain ⟨older,holder⟩ := head_suffix (h.previous k hcall)
    have hsuffix : k :: older <:+ p.shared.accepted call.key := by
      rw [← holder]
      exact (List.suffix_cons i _).trans h.place
    rw [holder]
    exact hp.completed call.key k older hsuffix hprevious

theorem Draining.drained {p : Registry} (hp : p.Sound) {key : String} {tail : Option Nat}
    (h : Draining p.shared key tail) (htail : tail.all p.shared.completed = true) :
    Drained p.shared key := by
  cases htailCase : tail with
  | none => exact h.unblocked htailCase
  | some k =>
    rw [htailCase] at htail
    obtain ⟨older,holder⟩ := head_suffix (h.tail k htailCase)
    rw [Drained,holder]
    exact hp.completed key k older (by rw [holder]) htail

/-- What a thread needs of the steps that others take. -/
structure Frame (s s' : OperationRegistry) (j : Nat) : Prop where
  unused : Unused s j → Unused s' j
  accepted : ∀ key, s.accepted key <:+ s'.accepted key
  released : ∀ k, s.released k = true → s'.released k = true
  pending : s.released j = false → s'.released j = false
  completed : ∀ k, s.completed k = true → s'.completed k = true
  started : ∀ call, Queued s j call → (s'.started call.key).Sublist call.ahead
  revocation : ∀ key token, s.revocations key = some token →
    token = j ∨ s.committedRevocations key = true →
      s'.revocations key = some token ∧
        s'.committedRevocations key = s.committedRevocations key ∧ s'.accepted key = s.accepted key

theorem all_completed {s s' : OperationRegistry}
    (h : ∀ k, s.completed k = true → s'.completed k = true) {previous : Option Nat}
    (hprevious : previous.all s.completed = true) : previous.all s'.completed = true := by
  cases previous with
  | none => rfl
  | some k => exact h k hprevious

section
variable {s' : OperationRegistry} {j : Nat} (h : Frame s s' j)

include h

theorem Frame.finished {call : OperationCall} (hcall : Finished s j call) : Finished s' j call where
  place := hcall.place.trans (h.accepted _)
  previous := all_completed h.completed hcall.previous
  ahead k hk := h.released k (hcall.ahead k hk)
  released := h.released j hcall.released

theorem Frame.revoking {key : String} {token : Nat} (hrevoking : Revoking s j key token) :
    Revoking s' j key token ∧ s'.accepted key = s.accepted key := by
  obtain ⟨hrevocations,hcommitted,haccepted⟩ :=
    h.revocation key j hrevoking.revocations (.inl rfl)
  exact ⟨⟨hrevoking.token,hrevocations,hcommitted.trans hrevoking.committed⟩,haccepted⟩

theorem Frame.committed {key : String} {token : Nat} (hcommitted : Committed s key token) :
    Committed s' key token ∧ s'.accepted key = s.accepted key := by
  obtain ⟨hrevocations,hcommitted',haccepted⟩ :=
    h.revocation key token hcommitted.revocations (.inr hcommitted.committed)
  exact ⟨⟨hrevocations,hcommitted'.trans hcommitted.committed⟩,haccepted⟩

theorem Frame.draining {key : String} {tail : Option Nat} (hdraining : Draining s key tail)
    (haccepted : s'.accepted key = s.accepted key) : Draining s' key tail where
  unblocked htail k hk := by
    rw [haccepted] at hk
    exact h.released k (hdraining.unblocked htail k hk)
  tail k hk := by
    rw [haccepted]
    exact hdraining.tail k hk

theorem Frame.drained {key : String} (hdrained : Drained s key)
    (haccepted : s'.accepted key = s.accepted key) : Drained s' key := by
  intro k hk
  rw [haccepted] at hk
  exact h.released k (hdrained k hk)

theorem Frame.meets {thread : RegistryThread} (hthread : thread.Meets s j) : thread.Meets s' j := by
  cases thread with
  | run | revokeAndWait => exact h.unused hthread
  | queued call =>
    exact ⟨hthread.place.trans (h.accepted _),hthread.previous,
      fun hprevious k hk => h.released k (hthread.unblocked hprevious k hk),
      h.pending hthread.pending,h.started call hthread⟩
  | executing call =>
    exact ⟨hthread.place.trans (h.accepted _),all_completed h.completed hthread.previous,
      fun k hk => h.released k (hthread.ahead k hk),h.pending hthread.pending⟩
  | finished call outcome => exact h.finished hthread
  | ended call outcome => exact ⟨h.finished hthread.1,h.completed j hthread.2⟩
  | rejected | alreadyStopping => trivial
  | draining key token committed tail =>
    cases committed with
    | false =>
      obtain ⟨hrevoking,haccepted⟩ := h.revoking hthread.1
      exact ⟨hrevoking,h.draining hthread.2 haccepted⟩
    | true =>
      obtain ⟨hcommitted,haccepted⟩ := h.committed hthread.1
      exact ⟨hcommitted,h.draining hthread.2 haccepted⟩
  | revocation key token status =>
    cases status with
    | «open» =>
      obtain ⟨hrevoking,haccepted⟩ := h.revoking hthread.1
      exact ⟨hrevoking,h.drained hthread.2 haccepted⟩
    | committed =>
      obtain ⟨hcommitted,haccepted⟩ := h.committed hthread.1
      exact ⟨hcommitted,h.drained hthread.2 haccepted⟩
    | rolledBack => trivial

end

section
variable {j : Nat} {key : String}

theorem frame_refl (s : OperationRegistry) (j : Nat) : Frame s s j where
  unused h := h
  accepted _ := List.suffix_rfl
  released _ h := h
  pending h := h
  completed _ h := h
  started _ h := h.started
  revocation _ _ h _ := ⟨h,rfl,rfl⟩

theorem accepted_accept (s : OperationRegistry) (i : Nat) (key : String) (key' : String) :
    (s.accept i key).accepted key' =
      if key' = key then i :: s.accepted key else s.accepted key' := by
  by_cases h : key' = key
  · rw [h]
    simp [OperationRegistry.accept]
  · simp [OperationRegistry.accept,h]

theorem frame_accept (hj : j ≠ i) (hrevoked : s.isRevoked key = false) :
    Frame s (s.accept i key) j where
  unused h := ⟨fun key' => by
    rw [accepted_accept]
    split
    · exact List.not_mem_cons_of_ne_of_not_mem hj (h.accepted _)
    · exact h.accepted _,h.released,h.completed,h.revocations⟩
  accepted key' := by
    rw [accepted_accept]
    split
    · rename_i hkey
      rw [hkey]
      exact List.suffix_cons _ _
    · exact List.suffix_rfl
  released _ h := h
  pending h := h
  completed _ h := h
  started _ h := h.started
  revocation key' token h _ := by
    refine ⟨h,rfl,?_⟩
    rw [accepted_accept,if_neg]
    intro hkey
    rw [← hkey,OperationRegistry.isRevoked,h] at hrevoked
    cases hrevoked

theorem released_release (s : OperationRegistry) (i : Nat) (key : String) (k : Nat) :
    (s.release i key).released k = (decide (k = i) || s.released k) := by
  by_cases h : k = i
  · simp [OperationRegistry.release,h]
  · simp [OperationRegistry.release,h]

theorem frame_release (hj : j ≠ i) : Frame s (s.release i key) j where
  unused h := ⟨h.accepted,by simp [released_release,hj,h.released],h.completed,h.revocations⟩
  accepted _ := List.suffix_rfl
  released k h := by simp [released_release,h]
  pending h := by simp [released_release,hj,h]
  completed _ h := h
  started _ h := h.started
  revocation _ _ h _ := ⟨h,rfl,rfl⟩

theorem frame_begin (hj : j ≠ i) {call : OperationCall}
    (hplace : i :: call.ahead <:+ s.accepted call.key)
    (hahead : ∀ k ∈ call.ahead, s.released k = true)
    (hstarted : (s.started call.key).Sublist call.ahead) : Frame s (s.begin i call.key) j where
  unused h := ⟨h.accepted,h.released,h.completed,h.revocations⟩
  accepted _ := List.suffix_rfl
  released _ h := h
  pending h := h
  completed _ h := h
  started other h := by
    by_cases hkey : other.key = call.key
    · rw [hkey]
      have hother := h.place
      rw [hkey] at hother
      simp only [OperationRegistry.begin,Function.update_self]
      rcases ahead_cases hother hplace hj with hbehind | hbehind
      · have hreleased := hahead j (hbehind.subset List.mem_cons_self)
        rw [h.pending] at hreleased
        cases hreleased
      · exact (hstarted.cons_cons i).trans hbehind.sublist
    · simp only [OperationRegistry.begin,Function.update_of_ne hkey]
      exact h.started
  revocation _ _ h _ := ⟨h,rfl,rfl⟩

theorem frame_complete (hj : j ≠ i) : Frame s (s.complete i) j where
  unused h := ⟨h.accepted,h.released,by
    simp [OperationRegistry.complete,hj,h.completed],h.revocations⟩
  accepted _ := List.suffix_rfl
  released _ h := h
  pending h := h
  completed k h := by
    by_cases hk : k = i
    · simp [OperationRegistry.complete,hk]
    · simp [OperationRegistry.complete,hk,h]
  started _ h := h.started
  revocation _ _ h _ := ⟨h,rfl,rfl⟩

theorem frame_revoke (hj : j ≠ i) (hnone : s.revocations key = none) :
    Frame s (s.revoke i key) j where
  unused h := ⟨h.accepted,h.released,h.completed,fun key' => by
    by_cases hkey : key' = key
    · simp [OperationRegistry.revoke,hkey,Ne.symm hj]
    · simpa [OperationRegistry.revoke,hkey] using h.revocations key'⟩
  accepted _ := List.suffix_rfl
  released _ h := h
  pending h := h
  completed _ h := h
  started _ h := h.started
  revocation key' token h _ := by
    have hkey : key' ≠ key := by
      intro hkey
      rw [hkey,hnone] at h
      cases h
    exact ⟨by simpa [OperationRegistry.revoke,hkey] using h,rfl,rfl⟩

theorem Revoking.key_ne {token token' : Nat} {key' : String} (h : Revoking s i key token)
    (hj : j ≠ i) (hrevocation : s.revocations key' = some token')
    (hother : token' = j ∨ s.committedRevocations key' = true) : key' ≠ key := by
  intro hkey
  rw [hkey] at hrevocation hother
  rcases hother with hother | hother
  · exact hj (hother.symm.trans (Option.some.inj (hrevocation.symm.trans h.revocations)))
  · rw [h.committed] at hother
    cases hother

theorem frame_commit {token : Nat} (hj : j ≠ i) (hrevoking : Revoking s i key token) :
    Frame s (s.commitRevocation key token) j := by
  have hcommit : s.commitRevocation key token = { s with
      committedRevocations := Function.update s.committedRevocations key true } := by
    rw [OperationRegistry.commitRevocation,hrevoking.token,if_pos hrevoking.revocations]
  rw [hcommit]
  exact {
    unused := fun h => ⟨h.accepted,h.released,h.completed,h.revocations⟩
    accepted := fun _ => List.suffix_rfl
    released := fun _ h => h
    pending := fun h => h
    completed := fun _ h => h
    started := fun _ h => h.started
    revocation := fun key' token' h hother =>
      ⟨h,Function.update_of_ne (hrevoking.key_ne hj h hother) _ _,rfl⟩ }

theorem frame_rollback {token : Nat} (hj : j ≠ i) (hrevoking : Revoking s i key token) :
    Frame s (s.rollbackRevocation key token) j := by
  have hrollback : s.rollbackRevocation key token = { s with
      revocations := Function.update s.revocations key none
      committedRevocations := Function.update s.committedRevocations key false } := by
    rw [OperationRegistry.rollbackRevocation,hrevoking.token,if_pos hrevoking.revocations]
  rw [hrollback]
  exact {
    unused := fun h => ⟨h.accepted,h.released,h.completed,fun key' => by
      by_cases hkey : key' = key
      · simp [hkey]
      · simpa [hkey] using h.revocations key'⟩
    accepted := fun _ => List.suffix_rfl
    released := fun _ h => h
    pending := fun h => h
    completed := fun _ h => h
    started := fun _ h => h.started
    revocation := fun key' token' h hother =>
      ⟨(Function.update_of_ne (hrevoking.key_ne hj h hother) _ _).trans h,
        Function.update_of_ne (hrevoking.key_ne hj h hother) _ _,rfl⟩ }

end

section
variable {p : Registry} {thread thread' : RegistryThread}

theorem Registry.Sound.key_eq (hp : p.Sound) (hthread : p.threads[i]? = some thread)
    {call : OperationCall} (hcall : thread.call = some call) {key : String}
    (hkey : i ∈ p.shared.accepted key) : call.key = key := by
  obtain ⟨other,call',hother,hcall',rfl⟩ := hp.call key i hkey
  obtain rfl := Option.some.inj (hthread.symm.trans hother)
  rw [Option.some.inj (hcall.symm.trans hcall')]

theorem Registry.Sound.step {s' : OperationRegistry} (hp : p.Sound)
    (hthread : p.threads[i]? = some thread) (hcall : thread'.call = thread.call)
    (hframe : ∀ j, j ≠ i → Frame p.shared s' j) (haccepted : s'.accepted = p.shared.accepted)
    (htailNone : ∀ key, s'.tails key = none → Drained s' key)
    (htailSome : ∀ key k, s'.tails key = some k → p.shared.tails key = some k)
    (hcompleted : ∀ key k older, k :: older <:+ p.shared.accepted key → s'.completed k = true →
      ∀ j ∈ k :: older, s'.released j = true)
    (hstarted : ∀ key, (s'.started key).Sublist (p.shared.accepted key))
    (hcommitted : ∀ key, s'.committedRevocations key = true → (s'.revocations key).isSome = true) :
    Registry.Sound ⟨s',p.threads.set i thread'⟩ where
  unused k hk := by
    rw [List.length_set] at hk
    have hlt := (List.getElem?_eq_some_iff.mp hthread).1
    exact (hframe k (by omega)).unused (hp.unused k hk)
  call key k hk := by
    rw [haccepted] at hk
    obtain ⟨other,call,hother,hcallOther,hkey⟩ := hp.call key k hk
    by_cases hik : k = i
    · subst hik
      obtain rfl := Option.some.inj (hthread.symm.trans hother)
      exact ⟨thread',call,getElem?_set_own hthread,hcall.trans hcallOther,hkey⟩
    · exact ⟨other,call,(getElem?_set_other hik).trans hother,hcallOther,hkey⟩
  nodup key := by
    rw [haccepted]
    exact hp.nodup key
  tailNone := htailNone
  tailSome key k hk := by
    rw [haccepted]
    exact hp.tailSome key k (htailSome key k hk)
  completed key k older hsuffix hk := by
    rw [haccepted] at hsuffix
    exact hcompleted key k older hsuffix hk
  started key := by
    rw [haccepted]
    exact hstarted key
  committed := hcommitted

theorem Registry.Sound.stay (hp : p.Sound) (hthread : p.threads[i]? = some thread)
    (hcall : thread'.call = thread.call) : Registry.Sound ⟨p.shared,p.threads.set i thread'⟩ :=
  hp.step hthread hcall (fun j _ => frame_refl p.shared j) rfl hp.tailNone (fun _ _ h => h)
    hp.completed hp.started hp.committed

theorem Registry.Sound.accept (hp : p.Sound) {network accountUuid : String}
    (hthread : p.threads[i]? = some (.run network accountUuid))
    (hunused : Unused p.shared i) {key : String} (hrevoked : p.shared.isRevoked key = false) :
    Registry.Sound ⟨p.shared.accept i key,
      p.threads.set i (.queued ⟨key,p.shared.tails key,p.shared.accepted key⟩)⟩ where
  unused k hk := by
    rw [List.length_set] at hk
    have hlt := (List.getElem?_eq_some_iff.mp hthread).1
    exact (frame_accept (by omega) hrevoked).unused (hp.unused k hk)
  call key' k hk := by
    dsimp only at hk
    rw [accepted_accept] at hk
    by_cases hik : k = i
    · subst hik
      refine ⟨_,_,getElem?_set_own hthread,rfl,?_⟩
      by_cases hkey : key' = key
      · exact hkey.symm
      · rw [if_neg hkey] at hk
        exact absurd hk (hunused.accepted key')
    · have hk' : k ∈ p.shared.accepted key' := by
        split at hk
        · rename_i hkey
          rw [hkey]
          exact (List.mem_cons.mp hk).resolve_left hik
        · exact hk
      obtain ⟨other,call,hother,hcall,hkey⟩ := hp.call key' k hk'
      exact ⟨other,call,(getElem?_set_other hik).trans hother,hcall,hkey⟩
  nodup key' := by
    dsimp only
    rw [accepted_accept]
    split
    · exact List.nodup_cons.mpr ⟨hunused.accepted key,hp.nodup key⟩
    · exact hp.nodup key'
  tailNone key' htail := by
    dsimp only at htail ⊢
    by_cases hkey : key' = key
    · subst hkey
      simp [OperationRegistry.accept] at htail
    · intro k hk
      rw [accepted_accept,if_neg hkey] at hk
      simp only [OperationRegistry.accept,Function.update_of_ne hkey] at htail
      exact hp.tailNone key' htail k hk
  tailSome key' k htail := by
    dsimp only at htail ⊢
    rw [accepted_accept]
    by_cases hkey : key' = key
    · subst hkey
      simp only [OperationRegistry.accept,Function.update_self,Option.some.injEq] at htail
      rw [if_pos rfl,List.head?_cons,htail]
    · simp only [OperationRegistry.accept,Function.update_of_ne hkey] at htail
      rw [if_neg hkey]
      exact hp.tailSome key' k htail
  completed key' k older hsuffix hk := by
    dsimp only at hsuffix hk ⊢
    rw [accepted_accept] at hsuffix
    by_cases hkey : key' = key
    · rw [if_pos hkey] at hsuffix
      rcases List.suffix_cons_iff.mp hsuffix with heq | hsuffix
      · obtain ⟨rfl,_⟩ := List.cons.inj heq
        have hnot := hunused.completed
        rw [show p.shared.completed k = true from hk] at hnot
        cases hnot
      · exact hp.completed key k older hsuffix hk
    · rw [if_neg hkey] at hsuffix
      exact hp.completed key' k older hsuffix hk
  started key' := by
    dsimp only
    rw [accepted_accept]
    split
    · rename_i hkey
      rw [hkey]
      exact (hp.started key).cons i
    · exact hp.started key'
  committed := hp.committed

theorem Registry.Sound.release (hp : p.Sound) (hthread : p.threads[i]? = some thread)
    {call : OperationCall} (hcall : thread.call = some call) (hcall' : thread'.call = some call)
    (hplace : i :: call.ahead <:+ p.shared.accepted call.key)
    (hahead : ∀ k ∈ call.ahead, p.shared.released k = true) :
    Registry.Sound ⟨p.shared.release i call.key,p.threads.set i thread'⟩ := by
  have hreleased : ∀ k, p.shared.released k = true →
      (p.shared.release i call.key).released k = true := by
    intro k hk
    rw [released_release,hk,Bool.or_true]
  refine hp.step hthread (hcall'.trans hcall.symm) (fun j hj => frame_release hj) rfl
    (fun key htail => ?_) (fun key k htail => ?_)
    (fun key k older hsuffix hk j hj => hreleased j (hp.completed key k older hsuffix hk j hj))
    hp.started hp.committed
  · by_cases hnone : p.shared.tails key = none
    · exact fun k hk => hreleased k (hp.tailNone key hnone k hk)
    · have hlast : p.shared.tails call.key = some i ∧ key = call.key := by
        by_contra hcontra
        simp only [OperationRegistry.release] at htail
        split at htail
        · rename_i htails
          by_cases hkey : key = call.key
          · exact hcontra ⟨htails,hkey⟩
          · rw [Function.update_of_ne hkey] at htail
            exact hnone htail
        · exact hnone htail
      obtain ⟨htails,rfl⟩ := hlast
      obtain ⟨older,holder⟩ := head_suffix (hp.tailSome _ i htails)
      have hall : call.ahead = older :=
        suffix_tail_eq (hp.nodup _) hplace (by rw [holder])
      intro k hk
      rw [released_release]
      change k ∈ p.shared.accepted call.key at hk
      rw [holder,← hall] at hk
      rcases List.mem_cons.mp hk with rfl | hk
      · simp
      · simp [hahead k hk]
  · simp only [OperationRegistry.release] at htail
    split at htail
    · by_cases hkey : key = call.key
      · rw [hkey,Function.update_self] at htail
        cases htail
      · rw [Function.update_of_ne hkey] at htail
        exact htail
    · exact htail

theorem Registry.Sound.begin (hp : p.Sound) {call : OperationCall}
    (hthread : p.threads[i]? = some (.queued call)) (hqueued : Queued p.shared i call)
    (hahead : ∀ k ∈ call.ahead, p.shared.released k = true) :
    Registry.Sound ⟨p.shared.begin i call.key,p.threads.set i (.executing call)⟩ := by
  refine hp.step hthread rfl
    (fun j hj => frame_begin hj hqueued.place hahead hqueued.started) rfl hp.tailNone
    (fun _ _ h => h) hp.completed (fun key => ?_) hp.committed
  by_cases hkey : key = call.key
  · rw [hkey]
    simp only [OperationRegistry.begin,Function.update_self]
    exact (hqueued.started.cons_cons i).trans hqueued.place.sublist
  · simp only [OperationRegistry.begin,Function.update_of_ne hkey]
    exact hp.started key

theorem Registry.Sound.complete (hp : p.Sound) {call : OperationCall} {outcome : OperationOutcome}
    (hthread : p.threads[i]? = some (.finished call outcome)) (hfinished : Finished p.shared i call) :
    Registry.Sound ⟨p.shared.complete i,p.threads.set i (.ended call outcome)⟩ := by
  refine hp.step hthread rfl (fun j hj => frame_complete hj) rfl hp.tailNone
    (fun _ _ h => h) (fun key k older hsuffix hk => ?_) hp.started hp.committed
  by_cases hik : k = i
  · subst hik
    obtain rfl := hp.key_eq hthread rfl (hsuffix.subset List.mem_cons_self)
    rw [← suffix_tail_eq (hp.nodup _) hfinished.place hsuffix]
    intro j hj
    rcases List.mem_cons.mp hj with rfl | hj
    · exact hfinished.released
    · exact hfinished.ahead j hj
  · simp only [OperationRegistry.complete,Function.update_of_ne hik] at hk
    exact hp.completed key k older hsuffix hk

theorem Registry.Sound.revoke (hp : p.Sound) (hthread : p.threads[i]? = some thread)
    (hcall : thread'.call = thread.call) {key : String} (hnone : p.shared.revocations key = none) :
    Registry.Sound ⟨p.shared.revoke i key,p.threads.set i thread'⟩ := by
  refine hp.step hthread hcall (fun j hj => frame_revoke hj hnone) rfl hp.tailNone
    (fun _ _ h => h) hp.completed hp.started fun key' hcommitted => ?_
  by_cases hkey : key' = key
  · simp [OperationRegistry.revoke,hkey]
  · simpa [OperationRegistry.revoke,hkey] using hp.committed key' hcommitted

theorem Registry.Sound.commit (hp : p.Sound) (hthread : p.threads[i]? = some thread)
    (hcall : thread'.call = thread.call) {key : String} {token : Nat}
    (hrevoking : Revoking p.shared i key token) :
    Registry.Sound ⟨p.shared.commitRevocation key token,p.threads.set i thread'⟩ := by
  have hframe := fun j (hj : j ≠ i) => frame_commit hj hrevoking
  rw [OperationRegistry.commitRevocation,hrevoking.token,if_pos hrevoking.revocations] at hframe ⊢
  refine hp.step hthread hcall hframe rfl hp.tailNone (fun _ _ h => h) hp.completed hp.started
    fun key' hcommitted => ?_
  by_cases hkey : key' = key
  · rw [hkey]
    simp [hrevoking.revocations]
  · simp only [Function.update_of_ne hkey] at hcommitted
    exact hp.committed key' hcommitted

theorem Registry.Sound.rollback (hp : p.Sound) (hthread : p.threads[i]? = some thread)
    (hcall : thread'.call = thread.call) {key : String} {token : Nat}
    (hrevoking : Revoking p.shared i key token) :
    Registry.Sound ⟨p.shared.rollbackRevocation key token,p.threads.set i thread'⟩ := by
  have hframe := fun j (hj : j ≠ i) => frame_rollback hj hrevoking
  rw [OperationRegistry.rollbackRevocation,hrevoking.token,if_pos hrevoking.revocations] at hframe ⊢
  refine hp.step hthread hcall hframe rfl hp.tailNone (fun _ _ h => h) hp.completed hp.started
    fun key' hcommitted => ?_
  by_cases hkey : key' = key
  · dsimp only at hcommitted
    rw [hkey,Function.update_self] at hcommitted
    cases hcommitted
  · simp only [Function.update_of_ne hkey] at hcommitted ⊢
    exact hp.committed key' hcommitted

end

end CoppiceWallet.Migration
