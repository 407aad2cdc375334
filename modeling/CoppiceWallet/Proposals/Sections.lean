import CoppiceWallet.Proposals.Calls
import CoppiceWallet.Proposals.Recovery

/-! # What the sections of a call can do -/

namespace CoppiceWallet.Proposals

open CoppiceWallet.Lib

variable {W : Type} {db : OutputLockStore W} {id : Nat} {lock : StoredProposalLock} {flow : String}
  {world world' : World W} {point point' : CallPoint} {fault : Option UnlockFault}

/-- The entries under the id, while they last, are those of the proposal. -/
structure StoreSound (id : Nat) (lock : StoredProposalLock) (store : ProposalStore) : Prop where
  locks : ∀ l, store.locks id = some l → l = lock
  proposals : ∀ p, store.proposals id = some p →
    p.sendFlowId = lock.sendFlowId ∧ p.proposal = lock.proposal

/-- What a call carries from one section to the next belongs to the proposal. -/
def CallPoint.Sound (lock : StoredProposalLock) (flow : String) : CallPoint → Prop
  | .removingRows owner => owner = lock.owner ∧ lock.sendFlowId = flow
  | .retainingLock l => l = lock ∧ lock.sendFlowId = flow
  | _ => True

inductive SectionEffect (db : OutputLockStore W) (id : Nat) (lock : StoredProposalLock)
    (flow : String) (world : World W) : CallPoint → Option UnlockFault → World W → Prop
  | quiet (point : CallPoint) (fault : Option UnlockFault) :
      SectionEffect db id lock flow world point fault world
  | discarded (fault : Option UnlockFault) (hflow : lock.sendFlowId = flow) :
      SectionEffect db id lock flow world .discarding fault
        { world with store := world.store.removeProposal id }
  | kept (fault : Option UnlockFault) (hflow : lock.sendFlowId = flow)
      (hlock : world.store.locks id = some lock) :
      SectionEffect db id lock flow world (.finishing false) fault
        { world with store := world.store.removeLock id }
  | unlockedSome (fault : Option UnlockFault) (hflow : lock.sendFlowId = flow)
      (hlock : world.store.locks id = some lock) (hfault : keepsInputs fault = false)
      (outputs : List (OutputRef × LockOwner)) :
      SectionEffect db id lock flow world .unlocking fault
        { world with wallet := unlockOutputs db world.wallet outputs }
  | unlocked (fault : Option UnlockFault) (hflow : lock.sendFlowId = flow)
      (hlock : world.store.locks id = some lock) :
      SectionEffect db id lock flow world .unlocking fault
        { world with
          wallet := unlockProposalInputs db world.wallet lock.proposal.inputRefs lock.owner
          rows := removeRows world.rows lock.owner
          store := world.store.removeLock id }
  | removedRows (fault : Option UnlockFault) (hflow : lock.sendFlowId = flow) :
      SectionEffect db id lock flow world (.removingRows lock.owner) fault
        { world with rows := removeRows world.rows lock.owner }
  | retained (fault : Option UnlockFault) (hflow : lock.sendFlowId = flow)
      (hlock : world.store.locks id = some lock) (rows : LockRows)
      (hrows : markRetainUntilExpiry world.rows lock.owner = .ok rows) (store : ProposalStore)
      (hlocks : store.locks id = none) (hproposals : store.proposals id = none) :
      SectionEffect db id lock flow world (.retainingLock lock) fault
        { world with rows := rows, store := store }

theorem unlockStoredProposal_effect (hs : StoreSound id lock world.store) :
    SectionEffect db id lock flow world .unlocking fault
      (unlockStoredProposal db id flow fault world).2 := by
  unfold unlockStoredProposal
  cases hcap : world.store.locks id with
  | none =>
    cases fault with
    | none => exact .quiet _ _
    | some fault => cases fault <;> exact .quiet _ _
  | some current =>
    obtain rfl := hs.locks current hcap
    by_cases hflow : current.sendFlowId = flow
    · cases fault with
      | none =>
        simp only [ne_eq,hflow,not_true_eq_false,if_false]
        exact .unlocked none hflow hcap
      | some fault =>
        cases fault with
        | openingDb => exact .quiet _ _
        | unlocking unlocked =>
          simp only [ne_eq,hflow,not_true_eq_false,if_false]
          exact .unlockedSome _ hflow hcap rfl _
        | removingRows =>
          simp only [ne_eq,hflow,not_true_eq_false,if_false]
          exact .unlockedSome _ hflow hcap rfl _
    · cases fault with
      | none =>
        simp only [ne_eq,hflow,not_false_eq_true,if_true]
        exact .quiet _ _
      | some fault =>
        cases fault <;> simp only [ne_eq,hflow,not_false_eq_true,if_true] <;> exact .quiet _ _

theorem retainStoredLock_effect (hs : StoreSound id lock world.store) (hflow : lock.sendFlowId = flow)
    (faulty : Bool) :
    SectionEffect db id lock flow world (.retainingLock lock) fault
      (retainStoredLock id flow lock faulty world).2 := by
  unfold retainStoredLock
  cases hcap : world.store.locks id with
  | none => exact .quiet _ _
  | some current =>
    obtain rfl := hs.locks current hcap
    simp only [hflow,ne_eq,not_true_eq_false,or_self,if_false]
    cases faulty with
    | true => exact .quiet _ _
    | false =>
      simp only [Bool.false_eq_true,if_false]
      cases hrows : markRetainUntilExpiry world.rows current.owner with
      | error e => exact .quiet _ _
      | ok rows =>
        cases hproposal : world.store.proposals id with
        | none => exact .retained _ hflow hcap rows hrows _ (by simp) (by simpa using hproposal)
        | some stored =>
          have hsame : stored.sendFlowId = flow := (hs.proposals stored hproposal).1.trans hflow
          simp only [hsame,not_true_eq_false,if_false]
          exact .retained _ hflow hcap rows hrows _ (by simp) (by simp)

theorem CallPoint.advance_effect (hs : StoreSound id lock world.store) (hp : point.Sound lock flow)
    (h : point.advance db id flow fault world = some (point',world')) :
    SectionEffect db id lock flow world point fault world' ∧ point'.Sound lock flow := by
  cases point with
  | discarding =>
    simp only [CallPoint.advance] at h
    cases hproposal : world.store.proposals id with
    | some stored =>
      rw [hproposal] at h
      have hstored := hs.proposals stored hproposal
      by_cases hflow : stored.sendFlowId = flow
      · simp only [hflow,if_true] at h
        cases h
        exact ⟨.discarded _ (hstored.1.symm.trans hflow),trivial⟩
      · simp only [hflow,if_false] at h
        cases h
        exact ⟨.quiet _ _,trivial⟩
    | none =>
      rw [hproposal] at h
      dsimp only at h
      split at h
      · split at h <;> cases h <;> exact ⟨.quiet _ _,trivial⟩
      · cases h
        exact ⟨.quiet _ _,trivial⟩
  | finishing releaseInputs =>
    simp only [CallPoint.advance] at h
    cases hcap : world.store.locks id with
    | none =>
      rw [hcap] at h
      cases h
      exact ⟨.quiet _ _,trivial⟩
    | some current =>
      rw [hcap] at h
      obtain rfl := hs.locks current hcap
      by_cases hflow : current.sendFlowId = flow
      · simp only [ne_eq,hflow,not_true_eq_false,if_false] at h
        cases releaseInputs with
        | true =>
          cases h
          exact ⟨.quiet _ _,trivial⟩
        | false =>
          cases h
          exact ⟨.kept _ hflow hcap,rfl,hflow⟩
      · simp only [ne_eq,hflow,not_false_eq_true,if_true] at h
        cases h
        exact ⟨.quiet _ _,trivial⟩
  | unlocking =>
    cases h
    exact ⟨unlockStoredProposal_effect hs,trivial⟩
  | removingRows owner =>
    obtain ⟨rfl,hflow⟩ := hp
    cases fault with
    | none =>
      cases h
      exact ⟨.removedRows _ hflow,trivial⟩
    | some fault =>
      cases h
      exact ⟨.quiet _ _,trivial⟩
  | retaining =>
    simp only [CallPoint.advance] at h
    cases hcap : world.store.locks id with
    | none =>
      rw [hcap] at h
      cases h
      exact ⟨.quiet _ _,trivial⟩
    | some current =>
      rw [hcap] at h
      obtain rfl := hs.locks current hcap
      by_cases hflow : current.sendFlowId = flow
      · simp only [hflow,if_true] at h
        cases h
        exact ⟨.quiet _ _,rfl,hflow⟩
      · simp only [hflow,if_false] at h
        cases h
        exact ⟨.quiet _ _,trivial⟩
  | retainingLock l =>
    obtain ⟨rfl,hflow⟩ := hp
    cases h
    exact ⟨retainStoredLock_effect hs hflow _,trivial⟩
  | returned result => cases h

namespace SectionEffect

theorem storeSound (h : SectionEffect db id lock flow world point fault world')
    (hs : StoreSound id lock world.store) : StoreSound id lock world'.store := by
  cases h with
  | quiet | unlockedSome | removedRows => exact hs
  | discarded => exact ⟨by simpa using hs.locks,by simp⟩
  | kept | unlocked => exact ⟨by simp,by simpa using hs.proposals⟩
  | retained _ _ _ rows _ store hlocks hproposals => exact ⟨by simp [hlocks],by simp [hproposals]⟩

theorem eq_of_flow_ne (h : SectionEffect db id lock flow world point fault world')
    (hne : flow ≠ lock.sendFlowId) : world' = world := by
  cases h with
  | quiet => rfl
  | discarded _ hflow | kept _ hflow | unlockedSome _ hflow | unlocked _ hflow
  | removedRows _ hflow | retained _ hflow => exact absurd hflow.symm hne

theorem targetHeight (h : SectionEffect db id lock flow world point fault world') :
    world'.targetHeight = world.targetHeight := by
  cases h <;> rfl

/-- What left the store does not come back. -/
theorem proposals_none (h : SectionEffect db id lock flow world point fault world')
    (hnone : world.store.proposals id = none) : world'.store.proposals id = none := by
  cases h with
  | retained _ _ _ rows _ store hlocks hproposals => exact hproposals
  | discarded => simp
  | _ => exact hnone

theorem locks_none (h : SectionEffect db id lock flow world point fault world')
    (hnone : world.store.locks id = none) : world'.store.locks id = none := by
  cases h with
  | retained _ _ _ rows _ store hlocks hproposals => exact hlocks
  | kept | unlocked => simp
  | _ => exact hnone

theorem wallet (h : SectionEffect db id lock flow world point fault world')
    (hpoint : point = .unlocking → lock.sendFlowId = flow → world.store.locks id = none) :
    world'.wallet = world.wallet := by
  cases h with
  | unlockedSome _ hflow hlock | unlocked _ hflow hlock =>
    rw [hpoint rfl hflow] at hlock
    cases hlock
  | _ => rfl

/-- The unlocking section, when it does not fail halfway, leaves the locks or takes the capability. -/
theorem wallet_or_none (h : SectionEffect db id lock flow world point fault world')
    (hfault : point = .unlocking → keepsInputs fault = true) :
    world'.wallet = world.wallet ∨ world'.store.locks id = none := by
  cases h with
  | unlockedSome _ _ _ hkeeps =>
    rw [hfault rfl] at hkeeps
    cases hkeeps
  | unlocked => exact .inr (by simp)
  | _ => exact .inl rfl

theorem rowsRetained {expiry : Nat} (h : SectionEffect db id lock flow world point fault world')
    (hrows : RowsRetained lock expiry world.rows) : RowsRetained lock expiry world'.rows := by
  cases h with
  | unlocked | removedRows => exact fun row hrow => hrows row (mem_removeRows.mp hrow).1
  | retained _ _ _ rows hmark =>
    intro row hrow howner
    obtain ⟨old,hold,rfl⟩ := mem_markRetainUntilExpiry hmark hrow
    by_cases hown : old.owner = lock.owner
    · rw [if_pos hown]
      exact ⟨rfl,(hrows old hold hown).2⟩
    · rw [if_neg hown] at howner
      exact absurd howner hown
  | _ => exact hrows

/-- When the capability is gone and no section took it with the inputs locked, they are released. -/
theorem released (h : SectionEffect db id lock flow world point fault world')
    (hbefore : world.store.locks id = none → InputsReleased db lock world)
    (hnone : world'.store.locks id = none)
    (htakes : point.takesCapability = true → world.store.locks id = none) :
    InputsReleased db lock world' := by
  cases h with
  | quiet => exact hbefore hnone
  | discarded =>
    have hgone := hbefore hnone
    exact ⟨hgone.outputs,hgone.rows⟩
  | unlockedSome _ _ hlock =>
    rw [hlock] at hnone
    cases hnone
  | kept _ _ hlock | retained _ _ hlock =>
    rw [htakes rfl] at hlock
    cases hlock
  | unlocked =>
    refine ⟨fun ref href => unlockOutputs_released ?_,fun row hrow => (mem_removeRows.mp hrow).2⟩
    exact List.mem_map.mpr ⟨ref,href,rfl⟩
  | removedRows =>
    have hgone := hbefore hnone
    exact ⟨hgone.outputs,fun row hrow => (mem_removeRows.mp hrow).2⟩

end SectionEffect

end CoppiceWallet.Proposals
