import CoppiceWallet.Store.Recovery
import CoppiceWallet.Store.ReorgSound

/-! # What the operations do to pending rows -/

namespace CoppiceWallet.Store

open CoppiceWallet.Lib

/-- A row that was inserted: it has no place on the recovery ladder, and is scheduled in its
expiry bucket if at all. -/
structure InsertedRow (row : PendingTx) : Prop where
  offset : row.rebuildBlockOffset = none
  canonical : row.status = .scheduled → CanonicalExpiry row.scheduledHeight row.expiryHeight

/-- What may become of a row that stays. It is scheduled afterwards only at the height it had, at a
height in its expiry bucket, or because it was lost from the chain. -/
structure RowStep (lost : PendingTx → Prop) (old new : PendingTx) : Prop where
  txid : new.txid = old.txid
  expiry : new.expiryHeight = old.expiryHeight
  offset : new.rebuildBlockOffset = old.rebuildBlockOffset
  scheduled : new.status = .scheduled →
    (old.status = .scheduled ∧ new.scheduledHeight = old.scheduledHeight) ∨
    CanonicalExpiry new.scheduledHeight new.expiryHeight ∨
    (lost old ∧ new.scheduledHeight = old.targetHeight)

/-- No row is lost. -/
def noneLost (_ : PendingTx) : Prop := False

variable {lost : PendingTx → Prop}

theorem RowStep.refl (row : PendingTx) : RowStep lost row row :=
  ⟨rfl,rfl,rfl,fun h => .inl ⟨h,rfl⟩⟩

theorem RowStep.trans {old mid new : PendingTx} (h : RowStep lost old mid)
    (h' : RowStep noneLost mid new) : RowStep lost old new where
  txid := h'.txid.trans h.txid
  expiry := h'.expiry.trans h.expiry
  offset := h'.offset.trans h.offset
  scheduled := by
    intro hnew
    rcases h'.scheduled hnew with ⟨hmid,hheight⟩ | hcanonical | ⟨hnone,_⟩
    · rw [hheight,h'.expiry]
      exact h.scheduled hmid
    · exact .inr (.inl hcanonical)
    · cases hnone

theorem InsertedRow.step {old new : PendingTx} (h : InsertedRow old)
    (h' : RowStep noneLost old new) : InsertedRow new where
  offset := h'.offset.trans h.offset
  canonical := by
    intro hnew
    rcases h'.scheduled hnew with ⟨hold,hheight⟩ | hcanonical | ⟨hnone,_⟩
    · rw [hheight,h'.expiry]
      exact h.canonical hold
    · exact hcanonical
    · cases hnone

variable {row : PendingTx}

theorem rowStep_withStatus {status : PendingStatus} (h : status ≠ .scheduled) :
    RowStep lost row { row with status } :=
  ⟨rfl,rfl,rfl,fun hnew => absurd hnew h⟩

theorem rowStep_reschedule {scheduledHeight : Nat} {scheduleStartHeight : Option Nat}
    (h : CanonicalExpiry scheduledHeight row.expiryHeight) :
    RowStep lost row { row with scheduledHeight, scheduleStartHeight } :=
  ⟨rfl,rfl,rfl,fun _ => .inr (.inl h)⟩

theorem rowStep_reconcileRow (chain : ChainView) (row : PendingTx) :
    RowStep (fun row => unmined chain row = true) row (reconcileRow chain row) := by
  unfold reconcileRow
  split
  · exact rowStep_withStatus (by decide)
  · exact rowStep_withStatus (by decide)
  · rename_i hoff hconfirmed
    exact ⟨rfl,rfl,rfl,fun _ => .inr (.inr ⟨by simp [unmined,hoff,hconfirmed],rfl⟩)⟩
  · exact .refl row

/-- Every row afterwards comes from a row before. -/
def RowsKept (lost : PendingTx → Prop) (db db' : RunState) : Prop :=
  ∀ row ∈ db'.pending.rows, ∃ old ∈ db.pending.rows, RowStep lost old row

/-- Every row afterwards was inserted or comes from a row before. -/
def RowsStep (lost : PendingTx → Prop) (db db' : RunState) : Prop :=
  ∀ row ∈ db'.pending.rows, InsertedRow row ∨ ∃ old ∈ db.pending.rows, RowStep lost old row

namespace RowsKept

theorem of_subset {db db' : RunState} (h : db'.pending.rows ⊆ db.pending.rows) :
    RowsKept lost db db' :=
  fun row hrow => ⟨row,h hrow,.refl row⟩

theorem of_eq {db db' : RunState} (h : db'.pending = db.pending) : RowsKept lost db db' :=
  of_subset (h ▸ fun _ hrow => hrow)

theorem refl (db : RunState) : RowsKept lost db db := of_eq rfl

theorem trans {a b c : RunState} (h : RowsKept lost a b) (h' : RowsKept noneLost b c) :
    RowsKept lost a c := by
  intro row hrow
  obtain ⟨mid,hmid,hstep⟩ := h' row hrow
  obtain ⟨old,hold,hstep'⟩ := h mid hmid
  exact ⟨old,hold,hstep'.trans hstep⟩

theorem updatePending {db : RunState} {p : PendingTx → Bool} {f : PendingTx → PendingTx}
    {hf : ∀ r, (f r).txid = r.txid}
    (h : ∀ row ∈ db.pending.rows, p row = true → RowStep lost row (f row)) :
    RowsKept lost db (db.updatePending p f hf) := by
  intro row hrow
  have hmem : row ∈ (db.pending.update p f hf).rows := hrow
  obtain ⟨old,hold,rfl⟩ := Table.mem_update.mp hmem
  refine ⟨old,hold,?_⟩
  split
  · exact h old hold ‹_›
  · exact .refl old

theorem setStatus (db : RunState) (p : PendingTx → Bool) {status : PendingStatus}
    (h : status ≠ .scheduled) : RowsKept lost db (db.setStatus p status) :=
  updatePending fun _ _ _ => rowStep_withStatus h

theorem delete (db : RunState) (p : PendingTx → Bool) :
    RowsKept lost db { db with pending := db.pending.delete p } :=
  of_subset (List.filter_subset_self _)

theorem rowsStep {db db' : RunState} (h : RowsKept lost db db') : RowsStep lost db db' :=
  fun row hrow => .inr (h row hrow)

end RowsKept

theorem RowsStep.trans {a b c : RunState} (h : RowsStep lost a b) (h' : RowsStep noneLost b c) :
    RowsStep lost a c := by
  intro row hrow
  rcases h' row hrow with hinserted | ⟨mid,hmid,hstep⟩
  · exact .inl hinserted
  · rcases h mid hmid with hinserted | ⟨old,hold,hstep'⟩
    · exact .inl (hinserted.step hstep)
    · exact .inr ⟨old,hold,hstep'.trans hstep⟩

variable {db db' : RunState}

theorem RowsStep.weaken (h : RowsStep noneLost db db') : RowsStep lost db db' :=
  (RowsKept.refl db).rowsStep.trans h

theorem insertPendingRow_ok (h : insertPendingRow row db = .ok db') :
    ∃ pending, db' = { db with pending } ∧ pending.rows = db.pending.rows ++ [row] := by
  unfold insertPendingRow at h
  split at h
  · cases h
  · obtain ⟨pending,hpending,h⟩ := bind_ok h
    cases h
    exact ⟨pending,rfl,(Table.insert_eq_some (okOr_ok hpending)).1⟩

variable {key : PayloadKey} {pending : PendingMigrationTxInsert}

theorem pendingRow_ok {start : Nat} {original : Option Nat}
    (h : pendingRow key pending start original = .ok row) : ∃ encryptedRawTx, row =
      { txid := pending.txid
        partIndex := some pending.partIndex
        encryptedRawTx
        targetHeight := pending.targetHeight
        anchorBoundaryHeight := pending.anchorBoundaryHeight
        expiryHeight := pending.expiryHeight
        value := pending.value
        fee := pending.fee
        selectedNote := pending.selectedNote
        scheduleStartHeight := some start
        scheduledHeight := pending.scheduledHeight
        originalScheduledHeight := original
        rebuildBlockOffset := none
        status := .scheduled } := by
  obtain ⟨encrypted,_,h⟩ := bind_ok h
  cases h
  exact ⟨encrypted,rfl⟩

theorem pendingRow_inserted {start : Nat} {original : Option Nat}
    (h : pendingRow key pending start original = .ok row)
    (hcanonical : CanonicalExpiry pending.scheduledHeight pending.expiryHeight) :
    InsertedRow row := by
  obtain ⟨_,rfl⟩ := pendingRow_ok h
  exact ⟨rfl,fun _ => hcanonical⟩

theorem insertPendingRow_rowsStep (hrow : InsertedRow row) (h : insertPendingRow row db = .ok db') :
    RowsStep lost db db' := by
  obtain ⟨pending,rfl,hrows⟩ := insertPendingRow_ok h
  intro r hr
  rw [hrows,List.mem_append,List.mem_singleton] at hr
  rcases hr with hr | rfl
  · exact .inr ⟨r,hr,.refl r⟩
  · exact .inl hrow

theorem schedulePendingTx_canonical {scheduled : PendingMigrationTxInsert} {origin : Nat}
    {incoming incoming' : Option Nat}
    (h : schedulePendingTx db pending incoming = .ok (scheduled, origin, incoming')) :
    CanonicalExpiry scheduled.scheduledHeight scheduled.expiryHeight := by
  unfold schedulePendingTx at h
  obtain ⟨entry,_,h⟩ := bind_ok h
  obtain ⟨height,_,h⟩ := bind_ok h
  obtain ⟨_,_,h⟩ := bind_ok h
  obtain ⟨_,_,h⟩ := bind_ok h
  obtain ⟨canonicalExpiry,hcanonical,h⟩ := bind_ok h
  split at h
  · cases h
  · rename_i hexpiry
    cases h
    rw [ne_eq,not_not] at hexpiry
    rw [CanonicalExpiry,hexpiry]
    exact hcanonical

variable {pendingTxs : List PendingMigrationTxInsert}

theorem schedulePendingTxs_canonical {seen : List Nat} {incoming incoming' : Option Nat}
    {scheduled : List (PendingMigrationTxInsert × Nat)}
    (h : schedulePendingTxs db pendingTxs seen incoming = .ok (scheduled, incoming')) :
    ∀ p ∈ scheduled, CanonicalExpiry p.1.scheduledHeight p.1.expiryHeight := by
  induction pendingTxs generalizing seen incoming scheduled with
  | nil =>
    cases h
    exact fun p hp => nomatch hp
  | cons pending rest ih =>
    rw [schedulePendingTxs] at h
    split at h
    · cases h
    · obtain ⟨⟨first,origin,next⟩,hfirst,h⟩ := bind_ok h
      obtain ⟨⟨tail,last⟩,htail,h⟩ := bind_ok h
      cases h
      intro p hp
      rcases List.mem_cons.mp hp with rfl | hp
      · exact schedulePendingTx_canonical hfirst
      · exact ih htail p hp

theorem insertScheduledPendingTxs_rowsStep {scheduled : List (PendingMigrationTxInsert × Nat)}
    (hcanonical : ∀ p ∈ scheduled, CanonicalExpiry p.1.scheduledHeight p.1.expiryHeight)
    (h : insertScheduledPendingTxs key scheduled db = .ok db') : RowsStep noneLost db db' := by
  induction scheduled generalizing db with
  | nil =>
    cases h
    exact (RowsKept.refl _).rowsStep
  | cons p scheduled ih =>
    obtain ⟨pending,origin⟩ := p
    rw [insertScheduledPendingTxs] at h
    obtain ⟨row,hrow,h⟩ := bind_ok h
    obtain ⟨next,hnext,h⟩ := bind_ok h
    have hinserted := pendingRow_inserted hrow (hcanonical (pending, origin) List.mem_cons_self)
    exact (insertPendingRow_rowsStep hinserted hnext).trans
      (ih (fun q hq => hcanonical q (List.mem_cons_of_mem _ hq)) h)

variable {rng : Rng}

theorem insertPendingTxs_rowsStep {key : StoreResult PayloadKey}
    (h : insertPendingTxs rng key pendingTxs db = .ok db') : RowsStep noneLost db db' := by
  unfold insertPendingTxs at h
  obtain ⟨_,_,h⟩ := bind_ok h
  obtain ⟨⟨scheduled,incoming⟩,hscheduled,h⟩ := bind_ok h
  obtain ⟨key,_,h⟩ := bind_ok h
  obtain ⟨inserted,hinserted,h⟩ := bind_ok h
  cases h
  have hstep := insertScheduledPendingTxs_rowsStep (schedulePendingTxs_canonical hscheduled) hinserted
  exact hstep

theorem updateChildScheduledHeight_foldl (updates : List (Text × Nat)) (db : RunState) :
    (updates.foldl updateChildScheduledHeight db).pending = db.pending ∧
    (updates.foldl updateChildScheduledHeight db).run = db.run := by
  induction updates generalizing db with
  | nil => exact ⟨rfl,rfl⟩
  | cons update updates ih =>
    rw [List.foldl_cons]
    exact ih (updateChildScheduledHeight db update)

theorem rebaseInitialSignedSchedule_keeps {height : Nat} {applied : Bool}
    (h : rebaseInitialSignedSchedule height db = .ok (applied, db')) :
    db'.pending = db.pending ∧ ∃ signedScheduleOriginHeight initialScheduleRebasedOriginHeight,
      db'.run =
        { db.run with signedScheduleOriginHeight, initialScheduleRebasedOriginHeight } := by
  unfold rebaseInitialSignedSchedule at h
  split at h
  · dsimp only at h
    split at h
    · cases h
      exact ⟨rfl,_,_,rfl⟩
    · obtain ⟨decision,_,h⟩ := bind_ok h
      split at h
      · cases h
        exact ⟨rfl,_,_,rfl⟩
      · cases h
        exact ⟨rfl,_,_,rfl⟩
      · cases h
        rename_i signedScheduleOrigin _ _ _ _ _ updates _
        obtain ⟨hpending,hrun⟩ := updateChildScheduledHeight_foldl updates db
        refine ⟨hpending,some (max signedScheduleOrigin height),
          some (max signedScheduleOrigin height),?_⟩
        rw [RunState.setRun_run,hrun]
  · cases h
    exact ⟨rfl,_,_,rfl⟩

theorem promote_rowsStep {key : StoreResult PayloadKey} {scanned retry : Nat}
    (h : promoteSignedChildPcztsToPendingTxs rng key pendingTxs scanned retry db = .ok db') :
    RowsStep noneLost db db' := by
  unfold promoteSignedChildPcztsToPendingTxs at h
  split at h
  · cases h
    exact (RowsKept.refl _).rowsStep
  · split at h
    · cases h
    · obtain ⟨⟨_,rebased⟩,hrebased,h⟩ := bind_ok h
      obtain ⟨refreshed,_,h⟩ := bind_ok h
      obtain ⟨inserted,hinserted,h⟩ := bind_ok h
      cases h
      have hsame : RowsStep noneLost db rebased :=
        (RowsKept.of_eq (rebaseInitialSignedSchedule_keeps hrebased).1).rowsStep
      have hinner : RowsStep noneLost rebased inserted := insertPendingTxs_rowsStep hinserted
      exact hsame.trans hinner

variable {children : List SignedMigrationPcztInsert}

theorem insertSignedChildRows_keeps {mode : SignedChildInsertMode} {origin origin' : Option Nat}
    (h : insertSignedChildRows key mode children origin db = .ok (db', origin')) :
    ∃ table, db' = { db with children := table } := by
  induction children generalizing origin db with
  | nil =>
    cases h
    exact ⟨db'.children,rfl⟩
  | cons child children ih =>
    rw [insertSignedChildRows] at h
    obtain ⟨_,_,h⟩ := bind_ok h
    split at h
    · cases h
    · obtain ⟨_,_,h⟩ := bind_ok h
      obtain ⟨_,_,h⟩ := bind_ok h
      obtain ⟨_,_,h⟩ := bind_ok h
      obtain ⟨table,rfl⟩ := ih h
      exact ⟨table,rfl⟩

theorem insertSignedChildPczts_keeps {key : StoreResult PayloadKey} {mode : SignedChildInsertMode}
    (h : insertSignedChildPczts key mode children db = .ok db') :
    db'.pending = db.pending ∧ db'.run.phase = db.run.phase ∧
    db'.run.recoveryScheduleOriginHeight = db.run.recoveryScheduleOriginHeight ∧
    db'.run.recoveryScheduleMaxBlockOffset = db.run.recoveryScheduleMaxBlockOffset := by
  unfold insertSignedChildPczts at h
  split at h
  · cases h
    exact ⟨rfl,rfl,rfl,rfl⟩
  · obtain ⟨_,_,h⟩ := bind_ok h
    obtain ⟨⟨stored,_⟩,hstored,h⟩ := bind_ok h
    obtain ⟨table,rfl⟩ := insertSignedChildRows_keeps hstored
    cases h
    split <;> exact ⟨rfl,rfl,rfl,rfl⟩

theorem persistSignedChildPczts_rowsKept {key : StoreResult PayloadKey}
    (h : persistSignedChildPczts key children db = .ok db') : RowsKept lost db db' := by
  unfold persistSignedChildPczts at h
  split at h
  · cases h
  · obtain ⟨stored,hstored,h⟩ := bind_ok h
    split at h
    · cases h
      exact .of_eq (insertSignedChildPczts_keeps hstored).1
    · cases h

variable {recoveryOrigin : Option Nat}

theorem checkReplacement_canonical {original : PendingTx} {start : Nat}
    (h : checkReplacement recoveryOrigin original pending = .ok start) :
    CanonicalExpiry pending.scheduledHeight pending.expiryHeight := by
  unfold checkReplacement at h
  split at h
  · cases h
  · split at h
    · cases h
    · obtain ⟨canonicalExpiry,hcanonical,h⟩ := bind_ok h
      split at h
      · cases h
      · rename_i hexpiry
        rw [ne_eq,not_not] at hexpiry
        rw [CanonicalExpiry,hexpiry]
        exact hcanonical

theorem replaceResignedPart_ok {r : PendingMigrationTxReplacement}
    (h : replaceResignedPart key recoveryOrigin r db = .ok db') :
    RowsStep noneLost db db' ∧ db'.run = db.run := by
  unfold replaceResignedPart at h
  obtain ⟨original,_,h⟩ := bind_ok h
  obtain ⟨start,hstart,h⟩ := bind_ok h
  obtain ⟨row,hrow,h⟩ := bind_ok h
  have hinserted := pendingRow_inserted hrow (checkReplacement_canonical hstart)
  have hdeleted : RowsStep noneLost db (deletePending db r.oldTxid) :=
    (RowsKept.delete db _).rowsStep
  refine ⟨hdeleted.trans (insertPendingRow_rowsStep hinserted h),?_⟩
  obtain ⟨pending,rfl,_⟩ := insertPendingRow_ok h
  rfl

theorem replaceResignedParts_ok {replacements : List PendingMigrationTxReplacement}
    (h : replaceResignedParts key recoveryOrigin replacements db = .ok db') :
    RowsStep noneLost db db' ∧ db'.run = db.run := by
  induction replacements generalizing db with
  | nil =>
    cases h
    exact ⟨(RowsKept.refl _).rowsStep,rfl⟩
  | cons r replacements ih =>
    rw [replaceResignedParts] at h
    obtain ⟨next,hnext,h⟩ := bind_ok h
    obtain ⟨hrows,hrun⟩ := replaceResignedPart_ok hnext
    obtain ⟨hrows',hrun'⟩ := ih h
    exact ⟨hrows.trans hrows',hrun'.trans hrun⟩

theorem replaceResignedPendingParts_ok {key : StoreResult PayloadKey}
    {replacements : List PendingMigrationTxReplacement}
    (h : replaceResignedPendingParts key replacements children db = .ok db') :
    RowsStep noneLost db db' ∧
    db'.run.recoveryScheduleOriginHeight = db.run.recoveryScheduleOriginHeight ∧
    db'.run.recoveryScheduleMaxBlockOffset = db.run.recoveryScheduleMaxBlockOffset := by
  unfold replaceResignedPendingParts at h
  split at h
  · cases h
    exact ⟨(RowsKept.refl _).rowsStep,rfl,rfl⟩
  · obtain ⟨_,_,h⟩ := bind_ok h
    dsimp only at h
    split at h
    · cases h
    · obtain ⟨replaced,hreplaced,h⟩ := bind_ok h
      obtain ⟨stored,hstored,h⟩ := bind_ok h
      cases h
      obtain ⟨hrows,hrun⟩ := replaceResignedParts_ok hreplaced
      obtain ⟨hpending,_,horigin,hmax⟩ := insertSignedChildPczts_keeps hstored
      have hsame : RowsStep noneLost replaced stored := (RowsKept.of_eq hpending).rowsStep
      rw [hrun] at horigin hmax
      exact ⟨hrows.trans hsame,horigin,hmax⟩

/-- The rows that stay scheduled at their construction height when a reconciliation finds that they
left the chain and the rows with `p` are then marked for signing. -/
def leftUnmined (chain : ChainView) (p : PendingTx → Bool) (db : RunState) (row : PendingTx) :
    Prop :=
  db.isTerminal = false ∧ unmined chain row = true ∧ p (reconcileRow chain row) = false

theorem markForResign_rowsKept (chain : ChainView) (p : PendingTx → Bool) (db : RunState) :
    RowsKept (leftUnmined chain p db) db
      ((reconcileRunConfirmations chain db).setStatus p .needsResign) := by
  intro row hrow
  obtain ⟨mid,hmid,rfl⟩ := List.mem_map.mp hrow
  obtain ⟨old,hold,rfl⟩ := mem_reconcileRunConfirmations hmid
  refine ⟨old,hold,?_⟩
  cases hterminal : db.isTerminal with
  | true =>
    simp only [if_true]
    split
    · exact rowStep_withStatus (by decide)
    · exact .refl old
  | false =>
    simp only [Bool.false_eq_true,if_false]
    have hstep := rowStep_reconcileRow chain old
    split
    · exact ⟨hstep.txid,hstep.expiry,hstep.offset,fun hnew => by cases hnew⟩
    · rename_i hunmarked
      refine ⟨hstep.txid,hstep.expiry,hstep.offset,fun hnew => ?_⟩
      refine (hstep.scheduled hnew).imp_right (Or.imp_right fun hlost => ?_)
      exact ⟨⟨hterminal,hlost.1,Bool.eq_false_iff.mpr hunmarked⟩,hlost.2⟩

theorem setStatus_of_none {p : PendingTx → Bool} {status : PendingStatus}
    (h : db.pending.count p = 0) : db.setStatus p status = db := by
  have hnone : ∀ row ∈ db.pending.rows, ¬ p row = true := List.countP_eq_zero.mp h
  have hsame : db.pending.update p (fun r => { r with status }) (fun _ => rfl) = db.pending :=
    Table.update_congr fun row hrow hp => absurd hp (hnone row hrow)
  rw [RunState.setStatus,RunState.updatePending,hsame]

theorem markForResign_pending (p : PendingTx → Bool) (phase : Phase) (lastError : Option String)
    (db : RunState) :
    (if 0 < db.pending.count p then (db.setStatus p .needsResign).setPhase phase lastError
      else db).pending = (db.setStatus p .needsResign).pending := by
  split
  · rfl
  · rw [setStatus_of_none (Nat.eq_zero_of_not_pos ‹_›)]

theorem setPhase_rowsKept (phase : Phase) (lastError : Option String) (h : RowsKept lost db db') :
    RowsKept lost db (db'.setPhase phase lastError) :=
  h

theorem updateRunAfterPendingBroadcast_pending (db : RunState) :
    (updateRunAfterPendingBroadcast db).pending = db.pending := by
  unfold updateRunAfterPendingBroadcast
  dsimp only
  split
  · rfl
  · split <;> rfl

theorem markPendingBroadcasted_rowsKept (txid : TxidHex) (db : RunState) :
    RowsKept noneLost db (markPendingBroadcasted txid db) :=
  (RowsKept.setStatus db _ (by decide)).trans
    (.of_eq (updateRunAfterPendingBroadcast_pending _))

/-- What was read of the rows is still so: the expiry of a transaction does not change. -/
def ExpiriesKnown (entries : List (TxidHex × Nat)) (db : RunState) : Prop :=
  ∀ entry ∈ entries, ∀ row ∈ db.pending.rows, row.txid = entry.1 → row.expiryHeight = entry.2

theorem ExpiriesKnown.step {entries : List (TxidHex × Nat)} (h : ExpiriesKnown entries db)
    (hkept : RowsKept lost db db') : ExpiriesKnown entries db' := by
  intro entry hentry row hrow htxid
  obtain ⟨old,hold,hstep⟩ := hkept row hrow
  rw [hstep.expiry]
  exact h entry hentry old hold (hstep.txid ▸ htxid)

theorem overduePendingTxs_known (tip : Nat) (excluded : Option TxidHex) (db : RunState) :
    ExpiriesKnown (overduePendingTxs tip excluded db) db := by
  intro entry hentry row hrow htxid
  obtain ⟨hmem,_⟩ := List.mem_filter.mp hentry
  obtain ⟨read,hread,rfl⟩ := List.mem_map.mp hmem
  rw [db.pending.eq_of_key hrow (List.mem_filter.mp hread).1 htxid]

variable {crossed : Bool}

theorem redrawPendingTxs_rowsKept {tip minimum : Nat} {draws : List ((TxidHex × Nat) × Nat)}
    (hknown : ExpiriesKnown (draws.map Prod.fst) db)
    (h : redrawPendingTxs tip minimum draws db = .ok (db', crossed)) :
    RowsKept noneLost db db' := by
  induction draws generalizing db crossed with
  | nil =>
    cases h
    exact .refl _
  | cons draw draws ih =>
    obtain ⟨⟨txid,expiryHeight⟩,offset⟩ := draw
    have hrest : ExpiriesKnown (draws.map Prod.fst) db :=
      fun entry hentry => hknown entry (List.mem_cons_of_mem _ hentry)
    rw [redrawPendingTxs] at h
    obtain ⟨scheduledHeight,_,h⟩ := bind_ok h
    obtain ⟨canonicalExpiry,hcanonical,h⟩ := bind_ok h
    split at h
    · obtain ⟨⟨next,_⟩,hnext,h⟩ := bind_ok h
      cases h
      have hmarked : RowsKept noneLost db (db.setStatus (stillScheduled txid) .needsResign) :=
        .setStatus db _ (by decide)
      exact hmarked.trans (ih (hrest.step hmarked) hnext)
    · rename_i hexpiry
      rw [ne_eq,not_not] at hexpiry
      have hredrawn : RowsKept noneLost db (db.updatePending (stillScheduled txid)
          (fun row => { row with scheduledHeight, scheduleStartHeight := some tip })
          fun _ => rfl) := by
        refine .updatePending fun row hrow hstill => rowStep_reschedule ?_
        rw [hknown _ List.mem_cons_self row hrow (of_decide_eq_true hstill).1,← hexpiry]
        exact hcanonical
      exact hredrawn.trans (ih (hrest.step hredrawn) h)

theorem redrawPendingTxs_crossed {tip minimum : Nat} {draws : List ((TxidHex × Nat) × Nat)}
    (h : redrawPendingTxs tip minimum draws db = .ok (db', crossed)) :
    db'.run = db.run ∧ (crossed = false ↔
      ∀ draw ∈ draws, CanonicalExpiry (tip + max draw.2 minimum) draw.1.2) := by
  induction draws generalizing db crossed with
  | nil =>
    cases h
    exact ⟨rfl,iff_of_true rfl fun draw hdraw => nomatch hdraw⟩
  | cons draw draws ih =>
    obtain ⟨⟨txid,expiryHeight⟩,offset⟩ := draw
    rw [redrawPendingTxs] at h
    obtain ⟨scheduledHeight,hheight,h⟩ := bind_ok h
    obtain ⟨canonicalExpiry,hcanonical,h⟩ := bind_ok h
    obtain ⟨rfl,_⟩ := checkedAddU32_eq_some.mp (okOr_ok hheight)
    rw [List.forall_mem_cons]
    have hfirst : CanonicalExpiry (tip + max offset minimum) expiryHeight ↔
        canonicalExpiry = expiryHeight := by
      rw [CanonicalExpiry,hcanonical,Except.ok.injEq]
    split at h
    · rename_i hcrossed
      obtain ⟨⟨next,_⟩,hnext,h⟩ := bind_ok h
      cases h
      obtain ⟨hrun,_⟩ := ih hnext
      exact ⟨hrun,iff_of_false (by decide) fun hall => hcrossed (hfirst.mp hall.1)⟩
    · rename_i hbucket
      rw [ne_eq,not_not] at hbucket
      obtain ⟨hrun,hcrossed⟩ := ih h
      exact ⟨hrun,hcrossed.trans (and_iff_right (hfirst.mpr hbucket)).symm⟩

variable {network : WalletNetwork}

theorem redraws_known {overdue : List (TxidHex × Nat)} (h : ExpiriesKnown overdue db) :
    ExpiriesKnown ((redraws rng network overdue db).map Prod.fst) db := by
  intro entry hentry
  obtain ⟨draw,hdraw,rfl⟩ := List.mem_map.mp hentry
  exact h _ ((rng.mem_shuffle).mp (List.of_mem_zip hdraw).1)

theorem commitReschedule_rowsKept {tip minimum : Nat} {overdue : List (TxidHex × Nat)}
    (hknown : ExpiriesKnown overdue db)
    (h : commitReschedule rng network tip minimum overdue db = .ok db') :
    RowsKept noneLost db db' := by
  unfold commitReschedule at h
  split at h
  · cases h
    exact .refl _
  · obtain ⟨⟨redrawn,crossed⟩,hredrawn,h⟩ := bind_ok h
    cases h
    have hkept := redrawPendingTxs_rowsKept (redraws_known hknown) hredrawn
    split
    · exact setPhase_rowsKept _ _ hkept
    · exact hkept

/-- An item names one row. -/
theorem hasItemId_unique {itemId : Text} {r s : PendingTx} (hr : r ∈ db.pending.rows)
    (hs : s ∈ db.pending.rows) (hri : hasItemId itemId r = true) (hsi : hasItemId itemId s = true) :
    r = s := by
  have hsame := (of_decide_eq_true hri).trans (of_decide_eq_true hsi).symm
  exact db.pending.eq_of_key hr hs (TxidHex.eq_of_lower hsame)

theorem applyScheduleUpdate_rowsKept {itemId : Text} {update : MigrationOutboxScheduleUpdate}
    (h : applyScheduleUpdate itemId update db = .ok (db', crossed)) : RowsKept noneLost db db' := by
  obtain ⟨row,hrow,h⟩ := bind_ok h
  obtain ⟨canonicalExpiry,hcanonical,h⟩ := bind_ok h
  obtain ⟨hmem,hitem⟩ := Table.find?_eq_some (okOr_ok hrow)
  split at h
  · split at h
    · cases h
      exact .setStatus db _ (by decide)
    · rename_i hexpiry
      rw [ne_eq,not_not] at hexpiry
      cases h
      refine .updatePending fun r hr hselected => rowStep_reschedule ?_
      rw [Bool.and_eq_true] at hselected
      rw [hasItemId_unique hr hmem hselected.1 hitem,← hexpiry]
      exact hcanonical
  · split at h
    · cases h
    · cases h
      exact .refl _

theorem applyScheduleUpdates_rowsKept {updates : List (Text × MigrationOutboxScheduleUpdate)}
    (h : applyScheduleUpdates updates db = .ok (db', crossed)) : RowsKept noneLost db db' := by
  induction updates generalizing db crossed with
  | nil =>
    cases h
    exact .refl _
  | cons update updates ih =>
    obtain ⟨itemId,update⟩ := update
    rw [applyScheduleUpdates] at h
    obtain ⟨⟨next,_⟩,hnext,h⟩ := bind_ok h
    obtain ⟨⟨last,_⟩,hlast,h⟩ := bind_ok h
    cases h
    exact (applyScheduleUpdate_rowsKept hnext).trans (ih hlast)

theorem acceptPendingTx_rowsKept (acceptedTxid : Text) (status : PendingStatus) (db : RunState) :
    RowsKept noneLost db (acceptPendingTx acceptedTxid status db) := by
  unfold acceptPendingTx
  split
  · exact (RowsKept.setStatus db _ (by decide)).trans
      (.of_eq (updateRunAfterPendingBroadcast_pending _))
  · exact .refl db

theorem receipt_rowsKept {receipt : AcceptedOutboxReceipt}
    (h : applyAcceptedMigrationOutboxReceipt receipt db = .ok db') : RowsKept noneLost db db' := by
  unfold applyAcceptedMigrationOutboxReceipt at h
  obtain ⟨_,_,h⟩ := bind_ok h
  obtain ⟨accepted,_,h⟩ := bind_ok h
  dsimp only at h
  obtain ⟨_,_,h⟩ := bind_ok h
  split at h
  · cases h
  · obtain ⟨⟨updated,crossed⟩,hupdated,h⟩ := bind_ok h
    cases h
    have hkept := applyScheduleUpdates_rowsKept hupdated
    refine RowsKept.trans ?_ (acceptPendingTx_rowsKept _ _ _)
    split
    · exact setPhase_rowsKept _ _ hkept
    · exact hkept

/-- Assigning offsets changes nothing else of a row. -/
def OffsetsOnly (db db' : RunState) : Prop :=
  ∀ row ∈ db'.pending.rows, ∃ old ∈ db.pending.rows, ∃ offset,
    row = { old with rebuildBlockOffset := offset }

theorem OffsetsOnly.refl (db : RunState) : OffsetsOnly db db :=
  fun row hrow => ⟨row,hrow,row.rebuildBlockOffset,rfl⟩

theorem OffsetsOnly.trans {a b c : RunState} (h : OffsetsOnly a b) (h' : OffsetsOnly b c) :
    OffsetsOnly a c := by
  intro row hrow
  obtain ⟨mid,hmid,offset,rfl⟩ := h' row hrow
  obtain ⟨old,hold,_,rfl⟩ := h mid hmid
  exact ⟨old,hold,offset,rfl⟩

theorem assignRebuildOffset_offsetsOnly (row : PendingTx) (assigned : Nat) (db : RunState) :
    OffsetsOnly db (assignRebuildOffset row assigned db) := by
  intro r hr
  obtain ⟨old,hold,rfl⟩ := List.mem_map.mp hr
  refine ⟨old,hold,?_⟩
  split
  · exact ⟨some assigned,rfl⟩
  · exact ⟨old.rebuildBlockOffset,rfl⟩

theorem assignRebuildOffsets_offsetsOnly {base : Nat} {parts : List (PendingTx × Nat)}
    {offsets : List (Text × Nat)} (h : assignRebuildOffsets base parts db = .ok (db', offsets)) :
    OffsetsOnly db db' := by
  induction parts generalizing db offsets with
  | nil =>
    cases h
    exact .refl _
  | cons part parts ih =>
    obtain ⟨row,fresh⟩ := part
    rw [assignRebuildOffsets] at h
    obtain ⟨assigned,_,h⟩ := bind_ok h
    obtain ⟨⟨next,_⟩,hnext,h⟩ := bind_ok h
    cases h
    exact (assignRebuildOffset_offsetsOnly row assigned db).trans (ih hnext)

theorem ensureRebuild_offsetsOnly {candidate : Nat} {generation : Option RebuildScheduleGeneration}
    (h : ensureRebuildScheduleGeneration rng network candidate db = .ok (generation, db')) :
    OffsetsOnly db db' := by
  unfold ensureRebuildScheduleGeneration at h
  dsimp only at h
  split at h
  · cases h
    exact .refl _
  · obtain ⟨_,_,h⟩ := bind_ok h
    obtain ⟨_,_,h⟩ := bind_ok h
    obtain ⟨_,_,h⟩ := bind_ok h
    obtain ⟨⟨assigned,_⟩,hassigned,h⟩ := bind_ok h
    cases h
    have hoffsets : OffsetsOnly db assigned := assignRebuildOffsets_offsetsOnly hassigned
    exact hoffsets

theorem assignRebuildOffsets_run {base : Nat} {parts : List (PendingTx × Nat)}
    {offsets : List (Text × Nat)} (h : assignRebuildOffsets base parts db = .ok (db', offsets)) :
    db'.run = db.run := by
  induction parts generalizing db offsets with
  | nil =>
    cases h
    rfl
  | cons part parts ih =>
    obtain ⟨row,fresh⟩ := part
    rw [assignRebuildOffsets] at h
    obtain ⟨_,_,h⟩ := bind_ok h
    obtain ⟨⟨_,_⟩,hnext,h⟩ := bind_ok h
    cases h
    have hrun := ih hnext
    exact hrun

theorem ensureRebuild_phase {candidate : Nat} {generation : Option RebuildScheduleGeneration}
    (h : ensureRebuildScheduleGeneration rng network candidate db = .ok (generation, db')) :
    db'.run.phase = db.run.phase := by
  unfold ensureRebuildScheduleGeneration at h
  dsimp only at h
  split at h
  · cases h
    rfl
  · obtain ⟨_,_,h⟩ := bind_ok h
    obtain ⟨_,_,h⟩ := bind_ok h
    obtain ⟨_,_,h⟩ := bind_ok h
    obtain ⟨⟨_,_⟩,hassigned,h⟩ := bind_ok h
    cases h
    have hrun := congrArg Run.phase (assignRebuildOffsets_run hassigned)
    exact hrun

theorem resetMigrationChildren_rowsKept (chain : ChainView) (txids : List TxidHex)
    (db : RunState) :
    RowsKept noneLost db (resetMigrationChildrenForReorgedDenominations chain txids db).2 := by
  unfold resetMigrationChildrenForReorgedDenominations
  split
  · exact .refl db
  · rw [resetDenomination_foldl]
    dsimp only
    split
    · exact .of_subset (List.filter_subset_self _)
    · exact .of_subset (List.filter_subset_self _)

theorem abandonRun_rowsKept {accountUuid : Text} (h : abandonRun accountUuid network db = .ok db') :
    RowsKept noneLost db db' := by
  unfold abandonRun at h
  split at h
  · cases h
  · split at h
    · cases h
      exact .refl db
    · split at h
      · cases h
      · cases h
        exact .of_subset (List.filter_subset_self _)

end CoppiceWallet.Store
