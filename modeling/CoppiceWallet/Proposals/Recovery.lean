import CoppiceWallet.Proposals.Store

/-! # Recovery leaves retained locks alone -/

namespace CoppiceWallet.Proposals

open CoppiceWallet.Lib

variable {W : Type} {db : OutputLockStore W}

/-- The owner holds a lock on the output. -/
def OutputLockStore.Holds (db : OutputLockStore W) (wallet : W) (owner : LockOwner)
    (ref : OutputRef) : Prop :=
  (db.lockOf wallet ref).map Prod.fst = some owner

variable {wallet : W} {owner : LockOwner} {ref : OutputRef} {outputs : List (OutputRef × LockOwner)}

theorem not_holds_unlockOutput (other : OutputRef) (owner' : LockOwner)
    (h : ¬db.Holds wallet owner ref) : ¬db.Holds (db.unlockOutput wallet other owner') owner ref := by
  unfold OutputLockStore.Holds at h ⊢
  by_cases href : ref = other
  · subst href
    by_cases hown : db.Holds wallet owner' ref
    · simp [db.lockOf_unlockOutput wallet ref owner' hown]
    · rw [db.lockOf_unlockOutput_owner wallet ref owner' hown]
      exact h
  · rw [db.lockOf_unlockOutput_ne wallet other owner' ref href]
    exact h

theorem not_holds_unlocked : ¬db.Holds (db.unlockOutput wallet ref owner) owner ref := by
  by_cases hown : db.Holds wallet owner ref
  · simp [OutputLockStore.Holds,db.lockOf_unlockOutput wallet ref owner hown]
  · exact not_holds_unlockOutput ref owner hown

theorem lockOf_unlockOutput_other (other : OutputRef) {owner' : LockOwner} (hne : owner' ≠ owner)
    {expiry : Nat} (h : db.lockOf wallet ref = some (owner,expiry)) :
    db.lockOf (db.unlockOutput wallet other owner') ref = some (owner,expiry) := by
  by_cases href : ref = other
  · subst href
    have hown : ¬db.Holds wallet owner' ref := by simp [OutputLockStore.Holds,h,Ne.symm hne]
    rw [db.lockOf_unlockOutput_owner wallet ref owner' hown,h]
  · rw [db.lockOf_unlockOutput_ne wallet other owner' ref href,h]

theorem not_holds_unlockOutputs (h : ¬db.Holds wallet owner ref) :
    ¬db.Holds (unlockOutputs db wallet outputs) owner ref := by
  induction outputs generalizing wallet with
  | nil => exact h
  | cons output outputs ih => exact ih (not_holds_unlockOutput output.1 output.2 h)

theorem unlockOutputs_released (h : (ref,owner) ∈ outputs) :
    ¬db.Holds (unlockOutputs db wallet outputs) owner ref := by
  induction outputs generalizing wallet with
  | nil => cases h
  | cons output outputs ih =>
    change ¬db.Holds (unlockOutputs db (db.unlockOutput wallet output.1 output.2) outputs) owner ref
    cases h with
    | head => exact not_holds_unlockOutputs not_holds_unlocked
    | tail _ h => exact ih h

theorem lockOf_unlockOutputs {expiry : Nat} (hne : ∀ output ∈ outputs, output.2 ≠ owner)
    (h : db.lockOf wallet ref = some (owner,expiry)) :
    db.lockOf (unlockOutputs db wallet outputs) ref = some (owner,expiry) := by
  induction outputs generalizing wallet with
  | nil => exact h
  | cons output outputs ih =>
    have hfirst := hne output List.mem_cons_self
    exact ih (fun output' h' => hne output' (List.mem_cons_of_mem _ h'))
      (lockOf_unlockOutput_other output.1 hfirst h)

variable {rows rows' : LockRows}

theorem mem_markRetainUntilExpiry (h : markRetainUntilExpiry rows owner = .ok rows') {row : LockRow}
    (hrow : row ∈ rows'.rows) : ∃ old ∈ rows.rows,
      row = if old.owner = owner then { old with retainUntilExpiry := true } else old := by
  unfold markRetainUntilExpiry at h
  split at h
  · cases h
  · cases h
    obtain ⟨old,hold,rfl⟩ := Table.mem_update.mp hrow
    exact ⟨old,hold,by simp⟩

theorem mem_updateExpiry {expiryHeight : Nat} (h : updateExpiry rows owner expiryHeight = .ok rows')
    {row : LockRow} (hrow : row ∈ rows'.rows) : ∃ old ∈ rows.rows,
      row = if old.owner = owner then { old with expiryHeight := expiryHeight } else old := by
  unfold updateExpiry at h
  split at h
  · cases h
  · cases h
    obtain ⟨old,hold,rfl⟩ := Table.mem_update.mp hrow
    exact ⟨old,hold,by simp⟩

theorem mem_removeRows {row : LockRow} :
    row ∈ (removeRows rows owner).rows ↔ row ∈ rows.rows ∧ row.owner ≠ owner := by
  simp [removeRows,Table.mem_delete]

/-- A row that an entry of the map speaks for. -/
def OrphanLocks.From (entry : OrphanLocks) (row : LockRow) : Prop :=
  row.owner = entry.owner ∧ row.expiryHeight = entry.expiry ∧ row.retainUntilExpiry = entry.retain

theorem collectOrphan_from {entries entries' : List OrphanLocks} {row : LockRow} {P : LockRow → Prop}
    (h : collectOrphan entries row = .ok entries') (hrow : P row)
    (hentries : ∀ entry ∈ entries, ∃ row, P row ∧ entry.From row) :
    ∀ entry ∈ entries', ∃ row, P row ∧ entry.From row := by
  induction entries generalizing entries' with
  | nil =>
    cases h
    intro entry hentry
    obtain rfl := List.mem_singleton.mp hentry
    exact ⟨row,hrow,rfl,rfl,rfl⟩
  | cons first entries ih =>
    have hfirst := hentries first List.mem_cons_self
    have hrest : ∀ entry ∈ entries, ∃ row, P row ∧ entry.From row := fun entry hentry =>
      hentries entry (List.mem_cons_of_mem _ hentry)
    unfold collectOrphan at h
    split at h
    · split at h
      · cases h
        intro entry hentry
        cases hentry with
        | head => exact hfirst
        | tail _ hentry => exact hrest entry hentry
      · cases h
    · obtain ⟨collected,hcollected,rfl⟩ := map_ok h
      intro entry hentry
      cases hentry with
      | head => exact hfirst
      | tail _ hentry => exact ih hcollected hrest entry hentry

theorem readPreviousSessionLocks_from {sessionId : Nat} {locks : List OrphanLocks}
    (h : readPreviousSessionLocks rows sessionId = .ok locks) :
    ∀ entry ∈ locks, ∃ row ∈ rows.rows, entry.From row := by
  unfold readPreviousSessionLocks at h
  refine foldlM_invariant (P := fun entries => ∀ entry ∈ entries, ∃ row ∈ rows.rows, entry.From row) h
    (by simp) ?_
  intro entries entries' row hrow hentries hcollect
  exact collectOrphan_from hcollect (List.mem_of_mem_filter hrow) hentries

/-- The inputs of the proposal are locked by its owner until the height, or the height was reached. -/
def InputsLocked (db : OutputLockStore W) (lock : StoredProposalLock) (expiry highestTarget : Nat)
    (wallet : W) : Prop :=
  expiry ≤ highestTarget ∨
    ∀ ref ∈ lock.proposal.inputRefs, db.lockOf wallet ref = some (lock.owner,expiry)

/-- The recovery rows of the proposal keep its locks until the height. -/
def RowsRetained (lock : StoredProposalLock) (expiry : Nat) (rows : LockRows) : Prop :=
  ∀ row ∈ rows.rows, row.owner = lock.owner →
    row.retainUntilExpiry = true ∧ row.expiryHeight = expiry

/-- The owner of the proposal holds none of its inputs and has no recovery row. -/
structure InputsReleased (db : OutputLockStore W) (lock : StoredProposalLock) (world : World W) :
    Prop where
  outputs : ∀ ref ∈ lock.proposal.inputRefs, ¬db.Holds world.wallet lock.owner ref
  rows : ∀ row ∈ world.rows.rows, row.owner ≠ lock.owner

variable {lock : StoredProposalLock} {expiry highestTarget : Nat} {world : World W}
  {fault : Option RecoverFault}

theorem inputsLocked_unlockOutputs (h : InputsLocked db lock expiry highestTarget wallet)
    (hne : highestTarget < expiry → ∀ output ∈ outputs, output.2 ≠ lock.owner) :
    InputsLocked db lock expiry highestTarget (unlockOutputs db wallet outputs) := by
  by_cases hreached : expiry ≤ highestTarget
  · exact .inl hreached
  · have hlocked := h.resolve_left hreached
    have hothers := hne (Nat.lt_of_not_le hreached)
    exact .inr fun ref href => lockOf_unlockOutputs hothers (hlocked ref href)

theorem orphanOutputs_ne (hrows : RowsRetained lock expiry rows) {sessionId : Nat}
    {locks : List OrphanLocks} (h : readPreviousSessionLocks rows sessionId = .ok locks)
    {targetHeight : Option Nat} (htarget : targetHeight.getD 0 ≤ highestTarget)
    (hexpiry : highestTarget < expiry) :
    ∀ output ∈ orphanOutputs locks targetHeight, output.2 ≠ lock.owner := by
  intro output houtput howner
  obtain ⟨entry,hentry,houtput⟩ := List.mem_flatMap.mp houtput
  obtain ⟨hentry,hrelease⟩ := List.mem_filter.mp hentry
  obtain ⟨_,_,rfl⟩ := List.mem_map.mp houtput
  obtain ⟨row,hrow,hown,hexp,hretain⟩ := readPreviousSessionLocks_from h entry hentry
  have hkept := hrows row hrow (hown.trans howner)
  rw [← hretain,← hexp,hkept.1,hkept.2] at hrelease
  cases targetHeight with
  | none => simp [shouldReleaseAfterRestart] at hrelease
  | some height =>
    simp only [Option.getD_some] at htarget
    simp [shouldReleaseAfterRestart] at hrelease
    omega

theorem recover_inputsLocked (h : InputsLocked db lock expiry highestTarget world.wallet)
    (hrows : RowsRetained lock expiry world.rows)
    (htarget : world.targetHeight.getD 0 ≤ highestTarget) :
    InputsLocked db lock expiry highestTarget (recoverPreviousProcess db fault world).2.wallet := by
  unfold recoverPreviousProcess
  cases hread : readPreviousSessionLocks world.rows world.sessionId with
  | error e => exact h
  | ok locks =>
    have hne : highestTarget < expiry → ∀ output ∈ orphanOutputs locks world.targetHeight,
        output.2 ≠ lock.owner := orphanOutputs_ne hrows hread htarget
    cases locks with
    | nil => exact h
    | cons first locks =>
      cases fault with
      | none => exact inputsLocked_unlockOutputs h hne
      | some fault =>
        cases fault with
        | beforeUnlocking => exact h
        | unlocking unlocked =>
          exact inputsLocked_unlockOutputs h fun hlt output houtput =>
            hne hlt output (List.mem_of_mem_take houtput)
        | deletingRows => exact inputsLocked_unlockOutputs h hne

theorem mem_removeOrphans {locks : List OrphanLocks} {targetHeight : Option Nat} {row : LockRow}
    (h : row ∈ (removeOrphans rows locks targetHeight).rows) : row ∈ rows.rows := by
  unfold removeOrphans at h
  generalize locks.filter _ = released at h
  induction released generalizing rows with
  | nil => exact h
  | cons entry entries ih => exact (mem_removeRows.mp (ih h)).1

theorem recover_frame (db : OutputLockStore W) (fault : Option RecoverFault) (world : World W) :
    (recoverPreviousProcess db fault world).2.store = world.store ∧
    (recoverPreviousProcess db fault world).2.targetHeight = world.targetHeight ∧
    (∀ row ∈ (recoverPreviousProcess db fault world).2.rows.rows, row ∈ world.rows.rows) ∧
    ∀ owner ref, ¬db.Holds world.wallet owner ref →
      ¬db.Holds (recoverPreviousProcess db fault world).2.wallet owner ref := by
  unfold recoverPreviousProcess
  cases readPreviousSessionLocks world.rows world.sessionId with
  | error e => simp
  | ok locks =>
    cases locks with
    | nil => simp
    | cons first locks =>
      cases fault with
      | none => exact ⟨rfl,rfl,fun row => mem_removeOrphans,fun owner ref => not_holds_unlockOutputs⟩
      | some fault =>
        cases fault with
        | beforeUnlocking => simp
        | unlocking unlocked =>
          exact ⟨rfl,rfl,fun row hrow => hrow,fun owner ref => not_holds_unlockOutputs⟩
        | deletingRows =>
          exact ⟨rfl,rfl,fun row hrow => hrow,fun owner ref => not_holds_unlockOutputs⟩

end CoppiceWallet.Proposals
