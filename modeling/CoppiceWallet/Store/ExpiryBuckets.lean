import CoppiceWallet.Store.Operation

/-! # Expiry buckets of scheduled transfers -/

namespace CoppiceWallet.Store

open CoppiceWallet.Lib

def ScheduledCanonical (db : RunState) : Prop :=
  ∀ row ∈ db.pending.rows, row.status = .scheduled →
    CanonicalExpiry row.scheduledHeight row.expiryHeight

/-- The rows that an operation leaves scheduled at their construction height expire in its bucket. -/
def KeepsBuckets (op : Operation) (db : RunState) : Prop :=
  ∀ row ∈ db.pending.rows, op.loses db row → CanonicalExpiry row.targetHeight row.expiryHeight

variable {db db' : RunState}

theorem RowsStep.scheduledCanonical {lost : PendingTx → Prop} (h : RowsStep lost db db')
    (hlost : ∀ row ∈ db.pending.rows, lost row → CanonicalExpiry row.targetHeight row.expiryHeight)
    (hdb : ScheduledCanonical db) : ScheduledCanonical db' := by
  intro row hrow hscheduled
  rcases h row hrow with hinserted | ⟨old,hold,hstep⟩
  · exact hinserted.canonical hscheduled
  · rcases hstep.scheduled hscheduled with ⟨hstatus,hheight⟩ | hcanonical | ⟨hleft,hheight⟩
    · rw [hheight,hstep.expiry]
      exact hdb old hold hstatus
    · exact hcanonical
    · rw [hheight,hstep.expiry]
      exact hlost old hold hleft

theorem OffsetsOnly.scheduledCanonical (h : OffsetsOnly db db') (hdb : ScheduledCanonical db) :
    ScheduledCanonical db' := by
  intro row hrow hscheduled
  obtain ⟨old,hold,_,rfl⟩ := h row hrow
  exact hdb old hold hscheduled

theorem apply_scheduledCanonical {op : Operation} (hdb : ScheduledCanonical db)
    (hkeeps : KeepsBuckets op db) (h : op.apply db = .ok db') : ScheduledCanonical db' := by
  rcases Operation.apply_rows h with hstep | ⟨_,hoffsets⟩
  · exact hstep.scheduledCanonical hkeeps hdb
  · exact hoffsets.scheduledCanonical hdb

variable {chain : ChainView}

theorem mem_markForResign {p : PendingTx → Bool} {row : PendingTx} (hrow : row ∈ db.pending.rows)
    (hactive : db.isTerminal = false) (hspared : p (reconcileRow chain row) = false) :
    reconcileRow chain row ∈
      ((reconcileRunConfirmations chain db).setStatus p .needsResign).pending.rows := by
  refine List.mem_map.mpr ⟨reconcileRow chain row,?_,by simp [hspared]⟩
  rw [reconcileRunConfirmations_pending,reconcileRows_pending hactive]
  exact List.mem_map_of_mem hrow

theorem apply_lost {op : Operation} {row : PendingTx} (hrow : row ∈ db.pending.rows)
    (hlost : op.loses db row) (h : op.apply db = .ok db') :
    { row with
      status := .scheduled
      scheduleStartHeight := some row.targetHeight
      scheduledHeight := row.targetHeight } ∈ db'.pending.rows := by
  obtain ⟨chain,hchain,hactive,hunmined,hspared⟩ := hlost
  have hmem := mem_markForResign hrow hactive hspared
  have hreconciled : reconcileRow chain row =
      { row with
        status := .scheduled
        scheduleStartHeight := some row.targetHeight
        scheduledHeight := row.targetHeight } := by
    simp only [unmined,Bool.and_eq_true,decide_eq_true_eq,Bool.not_eq_true'] at hunmined
    rw [reconcileRow,hunmined.1,hunmined.2]
  rw [hreconciled] at hmem
  rw [Operation.apply_marks hchain h]
  exact hmem

/-- The condition on a step is exact. -/
theorem apply_scheduledCanonical_iff {op : Operation} (hdb : ScheduledCanonical db)
    (h : op.apply db = .ok db') : ScheduledCanonical db' ↔ KeepsBuckets op db := by
  constructor
  · intro hdb' row hrow hlost
    have hcanonical := hdb' _ (apply_lost hrow hlost h) rfl
    exact hcanonical
  · intro hkeeps
    exact apply_scheduledCanonical hdb hkeeps h

variable {key : PayloadKey} {e : String}

theorem selectDuePendingTx_error {tip : Nat} (hdb : ScheduledCanonical db)
    (h : selectDuePendingTx key chain tip db = .error e) :
    ∃ payload, key.decrypt payload = .error e := by
  unfold selectDuePendingTx at h
  dsimp only at h
  split at h
  · cases h
  · rename_i row hfound
    have hdue := List.mem_of_find?_eq_some hfound
    rw [List.mem_insertionSort] at hdue
    obtain ⟨hrow,hscheduled⟩ := List.mem_filter.mp hdue
    have hcanonical := hdb row hrow (of_decide_eq_true hscheduled).1
    rw [CanonicalExpiry] at hcanonical
    rw [hcanonical] at h
    rcases bind_error h with hnone | ⟨canonicalExpiry,hsome,h⟩
    · cases hnone
    · cases hsome
      rw [if_neg (not_not_intro rfl)] at h
      rcases bind_error h with hdecrypt | ⟨_,_,h⟩
      · exact ⟨_,hdecrypt⟩
      · cases h

theorem duePendingTxs_error {tip : Nat} (hdb : ScheduledCanonical db)
    (hkeeps : KeepsBuckets (.reconcileRunConfirmations chain) db)
    (h : duePendingTxs key chain tip db = .error e) : ∃ payload, key.decrypt payload = .error e :=
  selectDuePendingTx_error (apply_scheduledCanonical hdb hkeeps rfl) h

theorem migrationOutboxItem_error {row : PendingTx}
    (hcanonical : CanonicalExpiry row.scheduledHeight row.expiryHeight)
    (h : migrationOutboxItem key row = .error e) :
    e ≠ outboxExpiryNotCanonical ∨ ∃ payload, key.decrypt payload = .error e := by
  unfold migrationOutboxItem at h
  rcases bind_error h with hpart | ⟨_,_,h⟩
  · exact .inl (okOr_error hpart ▸ by decide)
  rcases bind_error h with hanchor | ⟨_,_,h⟩
  · exact .inl (okOr_error hanchor ▸ by decide)
  rcases bind_error h with hstart | ⟨_,_,h⟩
  · exact .inl (okOr_error hstart ▸ by decide)
  rw [CanonicalExpiry] at hcanonical
  split at h
  · cases h
    exact .inl (by decide)
  · rw [hcanonical] at h
    rcases bind_error h with hnone | ⟨canonicalExpiry,hsome,h⟩
    · cases hnone
    · cases hsome
      rw [if_neg (not_not_intro rfl)] at h
      rcases bind_error h with hdecrypt | ⟨_,_,h⟩
      · exact .inr ⟨_,hdecrypt⟩
      · cases h

theorem migrationOutboxItems_error (hdb : ScheduledCanonical db)
    (h : migrationOutboxItems key db = .error e) :
    e ≠ outboxExpiryNotCanonical ∨ ∃ payload, key.decrypt payload = .error e := by
  obtain ⟨row,hrow,hitem⟩ := mapM_error h
  rw [List.mem_insertionSort] at hrow
  obtain ⟨hmem,hscheduled⟩ := List.mem_filter.mp hrow
  exact migrationOutboxItem_error (hdb row hmem (of_decide_eq_true hscheduled)) hitem

variable {ready : StoreResult (Option Nat)}

theorem scheduledMigrationOutboxBatch_error (hdb : ScheduledCanonical db)
    (h : scheduledMigrationOutboxBatch key ready db = .error e) :
    e ≠ outboxExpiryNotCanonical ∨ ready = .error e ∨ ∃ payload, key.decrypt payload = .error e := by
  unfold scheduledMigrationOutboxBatch at h
  dsimp only at h
  split at h
  · cases h
  · split at h
    · rcases bind_error h with hnone | ⟨_,_,h⟩
      · cases hnone
      · rcases bind_error h with hitems | ⟨_,_,h⟩
        · exact (migrationOutboxItems_error hdb hitems).imp_right .inr
        · cases h
    · rcases bind_error h with hready | ⟨_,_,h⟩
      · exact .inr (.inl (map_error hready))
      · rcases bind_error h with hitems | ⟨_,_,h⟩
        · exact (migrationOutboxItems_error hdb hitems).imp_right .inr
        · cases h

theorem exportScheduledMigrationOutbox_error {tip : Option Nat} (hdb : ScheduledCanonical db)
    (hkeeps : ∀ chainTipHeight, tip = some chainTipHeight → activeRun db = true →
      KeepsBuckets (.markDuePartsForResign chain chainTipHeight) db)
    (h : exportScheduledMigrationOutbox key chain tip ready db = .error e) :
    e ≠ outboxExpiryNotCanonical ∨ ready = .error e ∨ ∃ payload, key.decrypt payload = .error e := by
  have hbatch : ∀ {checked : RunState}, ScheduledCanonical checked →
      (do
        let batch ← scheduledMigrationOutboxBatch key ready checked
        return (checked, batch)) = .error e →
      e ≠ outboxExpiryNotCanonical ∨ ready = .error e ∨
        ∃ payload, key.decrypt payload = .error e := by
    intro checked hchecked herror
    rcases bind_error herror with herror | ⟨_,_,herror⟩
    · exact scheduledMigrationOutboxBatch_error hchecked herror
    · cases herror
  cases tip with
  | none => exact hbatch hdb h
  | some chainTipHeight =>
    unfold exportScheduledMigrationOutbox at h
    dsimp only at h
    split at h
    · rename_i hactive
      rcases bind_error h with hmarked | ⟨checked,hmarked,h⟩
      · rcases bind_error hmarked with hoverflow | ⟨_,_,hmarked⟩
        · exact .inl (canonicalMigrationExpiryHeight_error hoverflow ▸ by decide)
        · cases hmarked
      · exact hbatch (apply_scheduledCanonical hdb (hkeeps _ rfl hactive) hmarked) h
    · exact hbatch hdb h

/-- In a run whose steps all keep the buckets, every scheduled row is in its bucket, the next step
breaks this only if it does not keep them, and neither the selection nor the export of the outbox
fails at an expiry. -/
theorem scheduledTransfers_stayInBuckets (hstart : db.pending.rows = [])
    (hruns : GuardedRuns Operation.apply KeepsBuckets db db') :
    ScheduledCanonical db' ∧
    (∀ op next, Operation.apply op db' = .ok next →
      (ScheduledCanonical next ↔ KeepsBuckets op db')) ∧
    (∀ key chain tip e, KeepsBuckets (.reconcileRunConfirmations chain) db' →
      duePendingTxs key chain tip db' = .error e → ∃ payload, key.decrypt payload = .error e) ∧
    ∀ key chain tip ready e,
      (∀ chainTipHeight, tip = some chainTipHeight → activeRun db' = true →
        KeepsBuckets (.markDuePartsForResign chain chainTipHeight) db') →
      exportScheduledMigrationOutbox key chain tip ready db' = .error e →
      e ≠ outboxExpiryNotCanonical ∨ ready = .error e ∨
        ∃ payload, key.decrypt payload = .error e := by
  have hcreated : ScheduledCanonical db := by
    intro row hrow
    rw [hstart] at hrow
    cases hrow
  have hcanonical : ScheduledCanonical db' :=
    hruns.invariant (fun _ _ _ hdb hkeeps h => apply_scheduledCanonical hdb hkeeps h) hcreated
  exact ⟨hcanonical,fun _ _ h => apply_scheduledCanonical_iff hcanonical h,
    fun _ _ _ _ hkeeps h => duePendingTxs_error hcanonical hkeeps h,
    fun _ _ _ _ _ hkeeps h => exportScheduledMigrationOutbox_error hcanonical hkeeps h⟩

/-- A part constructed in the last block of a bucket and scheduled in the next one. -/
def bucketEdgePart : PendingMigrationTxInsert where
  partIndex := 0
  txid := childTxid
  rawTx := [1]
  targetHeight := 34559
  anchorBoundaryHeight := some 34550
  expiryHeight := 103680
  scheduledHeight := 34600
  value := 1000000
  fee := 15000
  selectedNote := ⟨splitTxid.text,0,1015000⟩

def bucketEdgeRun : RunState := .created
  { accountUuid := []
    network := .test
    phase := .readyToMigrate
    targetValues := [1000000]
    schedule := [⟨some 0,1000000,42⟩]
    timingPolicy := .standard90Minutes }

/-- A chain that includes the part. -/
def minedPartChain : ChainView :=
  { emptyChain with localDenominationChainIdentity := fun txid =>
      if txid = childTxid then some ⟨34600,1⟩ else none }

/-- While the part stays on the chain, its run keeps the buckets. -/
theorem minedPart_staysInBucket : ∃ mined,
    GuardedRuns Operation.apply KeepsBuckets bucketEdgeRun mined ∧
    ScheduledCanonical mined ∧
    (∀ op next, Operation.apply op mined = .ok next →
      (ScheduledCanonical next ↔ KeepsBuckets op mined)) ∧
    (∀ key chain tip e, KeepsBuckets (.reconcileRunConfirmations chain) mined →
      duePendingTxs key chain tip mined = .error e → ∃ payload, key.decrypt payload = .error e) ∧
    ∀ key chain tip ready e,
      (∀ chainTipHeight, tip = some chainTipHeight → activeRun mined = true →
        KeepsBuckets (.markDuePartsForResign chain chainTipHeight) mined) →
      exportScheduledMigrationOutbox key chain tip ready mined = .error e →
      e ≠ outboxExpiryNotCanonical ∨ ready = .error e ∨
        ∃ payload, key.decrypt payload = .error e := by
  obtain ⟨inserted,hinserted⟩ : ∃ inserted, Operation.apply
      (.insertPendingTxs default (.ok default) [bucketEdgePart]) bucketEdgeRun = .ok inserted :=
    ⟨_,rfl⟩
  have hkeeps : KeepsBuckets (.insertPendingTxs default (.ok default) [bucketEdgePart])
      bucketEdgeRun := fun row hrow => nomatch hrow
  have hruns := (GuardedRuns.refl bucketEdgeRun).tail _ hkeeps hinserted
  exact ⟨inserted,hruns,scheduledTransfers_stayInBuckets rfl hruns⟩

theorem exportScheduledMigrationOutbox_of_active {tip : Nat} (hactive : activeRun db = true)
    (h : markDuePartsWithNoncanonicalBroadcastHeightForResign chain tip db >>=
      scheduledMigrationOutboxBatch key ready = .error e) :
    exportScheduledMigrationOutbox key chain (some tip) ready db = .error e := by
  unfold exportScheduledMigrationOutbox
  dsimp only
  rw [if_pos hactive]
  rcases bind_error h with hmarked | ⟨marked,hmarked,hbatch⟩
  · rw [hmarked]
    rfl
  · rw [hmarked]
    change scheduledMigrationOutboxBatch key ready marked >>= _ = _
    rw [hbatch]
    rfl

/-- The run after its part was mined and a reorganisation took it back. -/
def unminedBucketEdge : RunState :=
  let part : PendingTx :=
    { bucketEdgePart with
      partIndex := some 0
      encryptedRawTx := [1]
      scheduleStartHeight := some 34559
      scheduledHeight := 34559
      originalScheduledHeight := some 34600
      rebuildBlockOffset := none
      status := .scheduled }
  { bucketEdgeRun with
    run := { bucketEdgeRun.run with
      phase := .broadcastScheduled
      signedScheduleOriginHeight := some 34558 }
    pending := ⟨[part],by decide⟩ }

/-- It is scheduled in the bucket before the one that it expires in. -/
theorem unminedBucketEdge_leavesBucket :
    Runs Operation.apply bucketEdgeRun unminedBucketEdge ∧
    ¬ ScheduledCanonical unminedBucketEdge ∧
    duePendingTxs default emptyChain 34600 unminedBucketEdge = .error dueExpiryNotCanonical ∧
    exportScheduledMigrationOutbox default emptyChain (some 34600) (.ok none) unminedBucketEdge =
      .error outboxExpiryNotCanonical := by
  have hsteps : execute Operation.apply
      [.insertPendingTxs default (.ok default) [bucketEdgePart],
        .reconcileRunConfirmations minedPartChain, .reconcileRunConfirmations emptyChain]
      bucketEdgeRun = .ok unminedBucketEdge := rfl
  refine ⟨runs_of_execute hsteps,fun hcanonical => ?_,by decide,?_⟩
  · have hedge := hcanonical _ List.mem_cons_self rfl
    exact absurd hedge (by decide)
  · exact exportScheduledMigrationOutbox_of_active rfl rfl

end CoppiceWallet.Store
