import CoppiceWallet.Store.Receipt

/-! # Delivering a receipt twice -/

namespace CoppiceWallet.Store

open CoppiceWallet.Lib

variable {db db' : RunState}

/-- The rows' places in the schedule and the phase are the same. -/
structure SameSchedule (db db' : RunState) : Prop where
  rows : db'.pending.rows.map (fun row =>
      (row.txid, row.status, row.scheduledHeight, row.scheduleStartHeight)) =
    db.pending.rows.map fun row =>
      (row.txid, row.status, row.scheduledHeight, row.scheduleStartHeight)
  phase : db'.run.phase = db.run.phase

/-- Every waiting peer takes its update in its own expiry bucket, or has the update's height. -/
def Replayable (receipt : AcceptedOutboxReceipt) (db : RunState) : Prop :=
  ∀ update ∈ receipt.scheduleUpdates, ∀ row ∈ db.pending.rows,
    hasItemId (lower update.itemId) row = true → row.status = .scheduled →
      CanonicalExpiry update.scheduledHeight row.expiryHeight ∨
      (row.scheduledHeight = update.scheduledHeight ∧
        row.scheduleStartHeight = some update.scheduleStartHeight)

theorem updatePeer_not_crosses (update : MigrationOutboxScheduleUpdate) (row : PendingTx) :
    ¬ CrossesBucket update (updatePeer update row) := by
  by_cases hscheduled : row.status = .scheduled
  · by_cases hbucket : CanonicalExpiry update.scheduledHeight row.expiryHeight
    · rw [updatePeer_of_canonical hscheduled hbucket]
      exact fun h => h.2 hbucket
    · rw [updatePeer_of_crosses ⟨hscheduled,hbucket⟩]
      exact fun h => nomatch h.1
  · have hfixed : updatePeer update row = row := if_neg hscheduled
    rw [hfixed]
    exact fun h => hscheduled h.1

theorem updatePeer_idem (update : MigrationOutboxScheduleUpdate) (row : PendingTx) :
    updatePeer update (updatePeer update row) = updatePeer update row := by
  by_cases hscheduled : row.status = .scheduled
  · by_cases hbucket : CanonicalExpiry update.scheduledHeight row.expiryHeight
    · rw [updatePeer_of_canonical hscheduled hbucket]
      exact updatePeer_of_canonical hscheduled hbucket
    · rw [updatePeer_of_crosses ⟨hscheduled,hbucket⟩]
      exact if_neg fun h => nomatch h
  · have hfixed : updatePeer update row = row := if_neg hscheduled
    rw [hfixed,hfixed]

theorem takesUpdate_updatePeer {update : MigrationOutboxScheduleUpdate} {row : PendingTx}
    (h : TakesUpdate update row) : TakesUpdate update (updatePeer update row) ↔
      (row.status = .scheduled → CanonicalExpiry update.scheduledHeight row.expiryHeight ∨
        (row.scheduledHeight = update.scheduledHeight ∧
          row.scheduleStartHeight = some update.scheduleStartHeight)) := by
  by_cases hscheduled : row.status = .scheduled
  · by_cases hbucket : CanonicalExpiry update.scheduledHeight row.expiryHeight
    · rw [updatePeer_of_canonical hscheduled hbucket]
      exact iff_of_true (.inr ⟨rfl,rfl⟩) fun _ => .inl hbucket
    · rw [updatePeer_of_crosses ⟨hscheduled,hbucket⟩]
      simp [TakesUpdate,hscheduled,hbucket]
  · have hfixed : updatePeer update row = row := if_neg hscheduled
    rw [hfixed]
    exact iff_of_true h fun habsurd => absurd habsurd hscheduled

theorem movePeers_pending (updates : List (Text × MigrationOutboxScheduleUpdate)) (crossed : Bool)
    (db : RunState) :
    (movePeers updates crossed db).pending = (updates.foldl applyUpdate db).pending := by
  unfold movePeers
  split <;> rfl

theorem setStatus_find? (p : PendingTx → Bool) (status : PendingStatus) (itemId : Text)
    (db : RunState) : (db.setStatus p status).pending.find? (hasItemId itemId) =
      (db.pending.find? (hasItemId itemId)).map fun row =>
        if p row then { row with status } else row :=
  Table.find?_update (f := fun row : PendingTx => { row with status }) (fun _ => rfl) fun _ => rfl

theorem acceptPendingTx_other {acceptedTxid itemId : Text} {status : PendingStatus}
    (hne : itemId ≠ acceptedTxid) :
    (acceptPendingTx acceptedTxid status db).pending.find? (hasItemId itemId) =
      db.pending.find? (hasItemId itemId) := by
  unfold acceptPendingTx
  split
  · rw [updateRunAfterPendingBroadcast_pending,setStatus_find?]
    refine (Option.map_congr fun row hrow => ?_).trans Option.map_id'
    have hitem := of_decide_eq_true (Table.find?_eq_some hrow).2
    have hother : hasItemId acceptedTxid row = false :=
      decide_eq_false fun habsurd => hne (hitem.symm.trans habsurd)
    rw [hother,Bool.false_and,if_neg Bool.false_ne_true]
  · rfl

theorem acceptPendingTx_accepted {acceptedTxid : Text} {accepted : PendingTx}
    (haccepted : db.pending.find? (hasItemId acceptedTxid) = some accepted) :
    ∃ again, (acceptPendingTx acceptedTxid accepted.status db).pending.find?
        (hasItemId acceptedTxid) = some again ∧
      ¬ (again.status = .scheduled ∨ again.status = .needsResign) := by
  unfold acceptPendingTx
  split
  · rename_i hwaiting
    rw [updateRunAfterPendingBroadcast_pending,setStatus_find?,haccepted]
    have hselected : (hasItemId acceptedTxid accepted &&
        decide (accepted.status = .scheduled ∨ accepted.status = .needsResign)) = true := by
      rw [(Table.find?_eq_some haccepted).2,Bool.true_and]
      exact decide_eq_true hwaiting
    refine ⟨_,congrArg some (if_pos hselected),?_⟩
    rintro (h | h)
    · cases h
    · cases h
  · exact ⟨accepted,haccepted,‹_›⟩

theorem foldl_applyUpdate_of_fixed {updates : List (Text × MigrationOutboxScheduleUpdate)}
    (h : ∀ update ∈ updates, applyUpdate db update = db) : updates.foldl applyUpdate db = db := by
  induction updates with
  | nil => rfl
  | cons update updates ih =>
    rw [List.forall_mem_cons] at h
    rw [List.foldl_cons,h.1,ih h.2]

/-- What the first delivery leaves of the run and its rows. -/
structure Delivered (receipt : AcceptedOutboxReceipt) (db delivered : RunState) : Prop where
  run : ∃ phase lastError, delivered.run = { db.run with phase, lastError }
  accepted : ∃ again, delivered.pending.find? (hasItemId (lower receipt.txid)) = some again ∧
    ¬ (again.status = .scheduled ∨ again.status = .needsResign)
  peer : ∀ update ∈ suppliedUpdates receipt.scheduleUpdates,
    delivered.pending.find? (hasItemId update.1) =
      (db.pending.find? (hasItemId update.1)).map (updatePeer update.2)

variable {receipt : AcceptedOutboxReceipt} {delivered : RunState}

theorem delivered_of_ok (h : applyAcceptedMigrationOutboxReceipt receipt db = .ok delivered) :
    Delivered receipt db delivered := by
  have hrun := receipt_run h
  obtain ⟨_,accepted,haccepted,hcheck,_,_,crossed,_,rfl⟩ := receipt_ok_iff.mp h
  obtain ⟨hitems,hothers⟩ := checkScheduleUpdates_ok hcheck
  have hnodup := suppliedUpdates_nodup hitems
  have hother : ∀ update ∈ suppliedUpdates receipt.scheduleUpdates,
      update.1 ≠ lower receipt.txid := by
    intro update hupdate
    obtain ⟨u,hu,rfl⟩ := mem_suppliedUpdates.mp hupdate
    exact (hothers u hu).1
  refine ⟨hrun,?_,?_⟩
  · refine acceptPendingTx_accepted ?_
    rw [movePeers_pending,applyUpdates_other,haccepted]
    rintro hmem
    obtain ⟨update,hupdate,hsame⟩ := List.mem_map.mp hmem
    exact hother update hupdate hsame
  · intro update hupdate
    rw [acceptPendingTx_other (hother update hupdate),movePeers_pending,
      applyUpdates_peer hnodup hupdate]

theorem Delivered.takes (h : Delivered receipt db delivered)
    (htakes : ∀ update ∈ suppliedUpdates receipt.scheduleUpdates, PeerTakes db update) :
    (∀ update ∈ suppliedUpdates receipt.scheduleUpdates, PeerTakes delivered update) ↔
      Replayable receipt db := by
  constructor
  · intro hagain update hupdate row hrow hitem hscheduled
    have hsupplied := mem_suppliedUpdates.mpr ⟨update,hupdate,rfl⟩
    obtain ⟨read,hread,_,hfirst⟩ := htakes _ hsupplied
    obtain ⟨_,hfind,_,hsecond⟩ := hagain _ hsupplied
    rw [h.peer _ hsupplied,hread,Option.map_some,Option.some.injEq] at hfind
    rw [← hfind] at hsecond
    obtain ⟨hreadRow,hreadItem⟩ := Table.find?_eq_some hread
    rw [hasItemId_unique hreadRow hrow hreadItem hitem] at hfirst hsecond
    exact (takesUpdate_updatePeer hfirst).mp hsecond hscheduled
  · intro hreplayable update hsupplied
    obtain ⟨u,hu,rfl⟩ := mem_suppliedUpdates.mp hsupplied
    obtain ⟨row,hread,hbucket,hfirst⟩ := htakes _ hsupplied
    obtain ⟨hrow,hitem⟩ := Table.find?_eq_some hread
    refine ⟨updatePeer u row,?_,hbucket,?_⟩
    · rw [h.peer _ hsupplied,hread,Option.map_some]
    · exact (takesUpdate_updatePeer hfirst).mpr (hreplayable u hu row hrow hitem)

theorem Delivered.fixed (h : Delivered receipt db delivered)
    (htakes : ∀ update ∈ suppliedUpdates receipt.scheduleUpdates, PeerTakes db update) :
    (suppliedUpdates receipt.scheduleUpdates).foldl applyUpdate delivered = delivered := by
  refine foldl_applyUpdate_of_fixed fun update hupdate => ?_
  obtain ⟨row,hread,_⟩ := htakes update hupdate
  have hfind := h.peer update hupdate
  rw [hread,Option.map_some] at hfind
  exact applyUpdate_of_fixed hfind (updatePeer_idem update.2 row)

theorem Delivered.not_crosses (h : Delivered receipt db delivered) :
    ¬ ∃ update ∈ suppliedUpdates receipt.scheduleUpdates, PeerCrosses delivered update := by
  rintro ⟨update,hupdate,row,hfind,hcrosses⟩
  rw [h.peer update hupdate] at hfind
  obtain ⟨read,_,rfl⟩ := Option.map_eq_some_iff.mp hfind
  exact updatePeer_not_crosses update.2 read hcrosses

/-- A second delivery is accepted, and changes nothing, exactly when every waiting peer could take
its update. -/
theorem applyAcceptedMigrationOutboxReceipt_replays {receipt : AcceptedOutboxReceipt}
    {delivered : RunState} (h : applyAcceptedMigrationOutboxReceipt receipt db = .ok delivered) :
    (∃ again, applyAcceptedMigrationOutboxReceipt receipt delivered = .ok again ∧
      SameSchedule delivered again) ↔ Replayable receipt db := by
  obtain ⟨hrun,_,_,hcheck,_,htakes,_⟩ := receipt_ok_iff.mp h
  have hdelivered := delivered_of_ok h
  rw [← hdelivered.takes htakes]
  constructor
  · rintro ⟨again,hagain,_⟩
    obtain ⟨_,_,_,_,_,htakesAgain,_⟩ := receipt_ok_iff.mp hagain
    exact htakesAgain
  · intro htakesAgain
    obtain ⟨phase,lastError,hsame⟩ := hdelivered.run
    obtain ⟨again,hfind,hstatus⟩ := hdelivered.accepted
    refine ⟨delivered,receipt_ok_iff.mpr ⟨?_,again,hfind,?_,?_,htakesAgain,false,?_,?_⟩,rfl,rfl⟩
    · rw [hsame]
      exact hrun
    · rw [hsame]
      exact hcheck
    · exact fun hscheduled => absurd (.inl hscheduled) hstatus
    · exact iff_of_false Bool.false_ne_true hdelivered.not_crosses
    · rw [acceptPendingTx,if_neg hstatus,movePeers,if_neg Bool.false_ne_true,
        hdelivered.fixed htakes]

/-- A part that waits near the end of the first bucket. -/
def waitingPart (txid : TxidHex) (partIndex scheduledHeight : Nat) : PendingTx where
  txid := txid
  partIndex := some partIndex
  encryptedRawTx := []
  targetHeight := 34501
  anchorBoundaryHeight := some 34490
  expiryHeight := 69120
  value := 1000000
  fee := 15000
  selectedNote := ⟨splitTxid.text,partIndex,1015000⟩
  scheduleStartHeight := some 34500
  scheduledHeight := scheduledHeight
  originalScheduledHeight := some scheduledHeight
  rebuildBlockOffset := none
  status := .scheduled

def waitingRun : RunState :=
  let run : Run :=
    { accountUuid := []
      network := .test
      phase := .broadcastScheduled
      targetValues := [1000000,1000000] }
  { RunState.created run with
    pending := ⟨[waitingPart childTxid 0 34540,waitingPart descendantTxid 1 34545],by decide⟩ }

/-- The outbox broadcast the first part and moved the second one, which was overdue. -/
def receiptMovingPeerTo (scheduledHeight : Nat) : AcceptedOutboxReceipt where
  accountUuid := []
  network := .test
  txid := childTxid.text
  remoteHeight := 34550
  scheduleUpdates := [⟨descendantTxid.text,scheduledHeight,34550⟩]

theorem receiptInBucket_replays : ∃ delivered,
    applyAcceptedMigrationOutboxReceipt (receiptMovingPeerTo 34555) waitingRun = .ok delivered ∧
    ((∃ again, applyAcceptedMigrationOutboxReceipt (receiptMovingPeerTo 34555) delivered =
      .ok again ∧ SameSchedule delivered again) ↔
      Replayable (receiptMovingPeerTo 34555) waitingRun) := by
  obtain ⟨delivered,h⟩ : ∃ delivered, applyAcceptedMigrationOutboxReceipt
      (receiptMovingPeerTo 34555) waitingRun = .ok delivered := ⟨_,rfl⟩
  exact ⟨delivered,h,applyAcceptedMigrationOutboxReceipt_replays h⟩

/-- A receipt that moves the peer into the next bucket is refused the second time. -/
theorem receiptAcrossBuckets_refused : ∃ delivered,
    applyAcceptedMigrationOutboxReceipt (receiptMovingPeerTo 34570) waitingRun = .ok delivered ∧
    applyAcceptedMigrationOutboxReceipt (receiptMovingPeerTo 34570) delivered =
      .error "Migration outbox schedule item is no longer scheduled" :=
  ⟨_,rfl,rfl⟩

end CoppiceWallet.Store
