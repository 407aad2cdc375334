import CoppiceWallet.Store.Rows

/-! # What a receipt does -/

namespace CoppiceWallet.Store

open CoppiceWallet.Lib

variable {db db' : RunState}

/-- The peer of an update accepts it: it still waits, or it has the update's height already. -/
def TakesUpdate (update : MigrationOutboxScheduleUpdate) (row : PendingTx) : Prop :=
  row.status = .scheduled ∨ (row.scheduledHeight = update.scheduledHeight ∧
    row.scheduleStartHeight = some update.scheduleStartHeight)

/-- The update would move its peer into another expiry bucket. -/
def CrossesBucket (update : MigrationOutboxScheduleUpdate) (row : PendingTx) : Prop :=
  row.status = .scheduled ∧ ¬ CanonicalExpiry update.scheduledHeight row.expiryHeight

instance (update : MigrationOutboxScheduleUpdate) : DecidablePred (CrossesBucket update) :=
  fun row => inferInstanceAs (Decidable (row.status = .scheduled ∧
    ¬ CanonicalExpiry update.scheduledHeight row.expiryHeight))

def updatePeer (update : MigrationOutboxScheduleUpdate) (row : PendingTx) : PendingTx :=
  if row.status = .scheduled then
    if CanonicalExpiry update.scheduledHeight row.expiryHeight then
      { row with
        scheduledHeight := update.scheduledHeight
        scheduleStartHeight := some update.scheduleStartHeight }
    else { row with status := .needsResign }
  else row

@[simp] theorem updatePeer_txid (update : MigrationOutboxScheduleUpdate) (row : PendingTx) :
    (updatePeer update row).txid = row.txid := by
  unfold updatePeer
  split
  · split <;> rfl
  · rfl

variable {update : MigrationOutboxScheduleUpdate} {row : PendingTx}

theorem updatePeer_of_crosses (h : CrossesBucket update row) :
    updatePeer update row = { row with status := .needsResign } := by
  rw [updatePeer,if_pos h.1,if_neg h.2]

theorem updatePeer_of_canonical (h : row.status = .scheduled)
    (hcanonical : CanonicalExpiry update.scheduledHeight row.expiryHeight) :
    updatePeer update row =
      { row with
        scheduledHeight := update.scheduledHeight
        scheduleStartHeight := some update.scheduleStartHeight } := by
  rw [updatePeer,if_pos h,if_pos hcanonical]

def applyUpdate (db : RunState) (update : Text × MigrationOutboxScheduleUpdate) : RunState :=
  db.updatePending (hasItemId update.1) (updatePeer update.2) (updatePeer_txid update.2)

variable {itemId : Text}

theorem applyUpdate_eq {p : PendingTx → Bool} {f : PendingTx → PendingTx}
    {hf : ∀ r, (f r).txid = r.txid} (hfind : db.pending.find? (hasItemId itemId) = some row)
    (h : (if p row then f row else row) = updatePeer update row)
    (hp : ∀ r, p r = true → hasItemId itemId r = true) :
    db.updatePending p f hf = applyUpdate db (itemId, update) := by
  obtain ⟨hrow,hitem⟩ := Table.find?_eq_some hfind
  have hrows : db.pending.update p f hf = (applyUpdate db (itemId, update)).pending := by
    refine Table.ext (List.map_congr_left fun r hr => ?_)
    cases hr' : hasItemId itemId r with
    | true =>
      rw [hasItemId_unique hr hrow hr' hitem]
      exact h
    | false =>
      rw [if_neg fun habsurd => by rw [hp r habsurd] at hr'; cases hr']
      rfl
  rw [RunState.updatePending,hrows]
  rfl

theorem setStatus_eq_applyUpdate (hfind : db.pending.find? (hasItemId itemId) = some row)
    (h : CrossesBucket update row) :
    db.setStatus (fun r => hasItemId itemId r && decide (r.status = .scheduled)) .needsResign =
      applyUpdate db (itemId, update) := by
  refine applyUpdate_eq hfind ?_ fun r hr => (Bool.and_eq_true_iff.mp hr).1
  rw [updatePeer_of_crosses h,if_pos (by simp [(Table.find?_eq_some hfind).2,h.1])]

theorem reschedule_eq_applyUpdate (hfind : db.pending.find? (hasItemId itemId) = some row)
    (hscheduled : row.status = .scheduled)
    (hcanonical : CanonicalExpiry update.scheduledHeight row.expiryHeight) :
    db.updatePending (fun r => hasItemId itemId r && decide (r.status = .scheduled))
      (fun r => { r with
        scheduledHeight := update.scheduledHeight
        scheduleStartHeight := some update.scheduleStartHeight }) (fun _ => rfl) =
      applyUpdate db (itemId, update) := by
  refine applyUpdate_eq hfind ?_ fun r hr => (Bool.and_eq_true_iff.mp hr).1
  rw [updatePeer_of_canonical hscheduled hcanonical,
    if_pos (by simp [(Table.find?_eq_some hfind).2,hscheduled])]

theorem applyUpdate_of_fixed (hfind : db.pending.find? (hasItemId itemId) = some row)
    (h : updatePeer update row = row) : applyUpdate db (itemId, update) = db := by
  obtain ⟨hrow,hitem⟩ := Table.find?_eq_some hfind
  have hsame : db.pending.update (hasItemId itemId) (updatePeer update)
      (updatePeer_txid update) = db.pending := by
    refine Table.update_congr fun r hr hri => ?_
    rw [hasItemId_unique hr hrow hri hitem]
    exact h
  rw [applyUpdate,RunState.updatePending,hsame]

theorem applyScheduleUpdate_eq_ok {crossed : Bool} :
    applyScheduleUpdate itemId update db = .ok (db', crossed) ↔
      ∃ row, db.pending.find? (hasItemId itemId) = some row ∧
        (∃ expiryHeight, CanonicalExpiry update.scheduledHeight expiryHeight) ∧
        TakesUpdate update row ∧ db' = applyUpdate db (itemId, update) ∧
        crossed = decide (CrossesBucket update row) := by
  unfold applyScheduleUpdate
  cases hfind : db.pending.find? (hasItemId itemId) with
  | none => simp [okOr,bind,Except.bind]
  | some row =>
    cases hexpiry : zip318CanonicalMigrationExpiryHeight update.scheduledHeight with
    | error e => simp [okOr,bind,Except.bind,CanonicalExpiry,hexpiry]
    | ok canonicalExpiry =>
      have hcanonical : ∀ e, CanonicalExpiry update.scheduledHeight e ↔ canonicalExpiry = e := by
        intro e
        rw [CanonicalExpiry,hexpiry,Except.ok.injEq]
      have hresult : ∀ (next : RunState) (b : Bool),
          (pure (next, b) : StoreResult (RunState × Bool)) = .ok (db', crossed) ↔
            db' = next ∧ crossed = b := by
        intro next b
        constructor
        · intro h
          cases h
          exact ⟨rfl,rfl⟩
        · rintro ⟨rfl,rfl⟩
          rfl
      simp only [okOr,bind,Except.bind,Option.some.injEq,exists_eq_left',hcanonical]
      by_cases hscheduled : row.status = .scheduled
      · rw [if_pos hscheduled]
        by_cases hbucket : canonicalExpiry = row.expiryHeight
        · rw [if_neg (not_not_intro hbucket),hresult,
            reschedule_eq_applyUpdate hfind hscheduled ((hcanonical _).mpr hbucket)]
          simp [TakesUpdate,CrossesBucket,hscheduled,hcanonical,hbucket]
        · have hcrosses : CrossesBucket update row :=
            ⟨hscheduled,fun h => hbucket ((hcanonical _).mp h)⟩
          rw [if_pos hbucket,hresult,setStatus_eq_applyUpdate hfind hcrosses]
          simp [TakesUpdate,hscheduled,hcrosses]
      · have hfixed : updatePeer update row = row := if_neg hscheduled
        rw [if_neg hscheduled,applyUpdate_of_fixed hfind hfixed]
        have htakes : TakesUpdate update row ↔ ¬ (row.scheduledHeight ≠ update.scheduledHeight ∨
            row.scheduleStartHeight ≠ some update.scheduleStartHeight) := by
          simp [TakesUpdate,hscheduled]
        rw [htakes]
        split
        · simp [*]
        · rw [hresult]
          simp [*,CrossesBucket]

def PeerTakes (db : RunState) (update : Text × MigrationOutboxScheduleUpdate) : Prop :=
  ∃ row, db.pending.find? (hasItemId update.1) = some row ∧
    (∃ expiryHeight, CanonicalExpiry update.2.scheduledHeight expiryHeight) ∧
    TakesUpdate update.2 row

def PeerCrosses (db : RunState) (update : Text × MigrationOutboxScheduleUpdate) : Prop :=
  ∃ row, db.pending.find? (hasItemId update.1) = some row ∧ CrossesBucket update.2 row

theorem applyScheduleUpdate_ok_iff {update : Text × MigrationOutboxScheduleUpdate}
    {crossed : Bool} : applyScheduleUpdate update.1 update.2 db = .ok (db', crossed) ↔
      PeerTakes db update ∧ db' = applyUpdate db update ∧
        (crossed = true ↔ PeerCrosses db update) := by
  rw [applyScheduleUpdate_eq_ok]
  constructor
  · rintro ⟨row,hfind,hbucket,htakes,hdb,rfl⟩
    refine ⟨⟨row,hfind,hbucket,htakes⟩,hdb,?_⟩
    rw [decide_eq_true_iff]
    constructor
    · exact fun hcrosses => ⟨row,hfind,hcrosses⟩
    · rintro ⟨row',hfind',hcrosses⟩
      rw [hfind,Option.some.injEq] at hfind'
      exact hfind' ▸ hcrosses
  · rintro ⟨⟨row,hfind,hbucket,htakes⟩,hdb,hcrossed⟩
    refine ⟨row,hfind,hbucket,htakes,hdb,?_⟩
    rw [Bool.eq_iff_iff,hcrossed,decide_eq_true_iff]
    constructor
    · rintro ⟨row',hfind',hcrosses⟩
      rw [hfind,Option.some.injEq] at hfind'
      exact hfind' ▸ hcrosses
    · exact fun hcrosses => ⟨row,hfind,hcrosses⟩

theorem hasItemId_updatePeer (itemId : Text) (update : MigrationOutboxScheduleUpdate)
    (row : PendingTx) : hasItemId itemId (updatePeer update row) = hasItemId itemId row := by
  rw [hasItemId,hasItemId,updatePeer_txid]

theorem applyUpdate_find? (update : Text × MigrationOutboxScheduleUpdate) (itemId : Text) :
    (applyUpdate db update).pending.find? (hasItemId itemId) =
      (db.pending.find? (hasItemId itemId)).map fun row =>
        if hasItemId update.1 row then updatePeer update.2 row else row :=
  Table.find?_update (updatePeer_txid update.2) fun row => hasItemId_updatePeer itemId update.2 row

theorem applyUpdate_peer (update : Text × MigrationOutboxScheduleUpdate) :
    (applyUpdate db update).pending.find? (hasItemId update.1) =
      (db.pending.find? (hasItemId update.1)).map (updatePeer update.2) := by
  rw [applyUpdate_find?]
  refine Option.map_congr fun row hrow => ?_
  rw [if_pos (Table.find?_eq_some hrow).2]

theorem applyUpdate_other {update : Text × MigrationOutboxScheduleUpdate}
    (hne : update.1 ≠ itemId) : (applyUpdate db update).pending.find? (hasItemId itemId) =
      db.pending.find? (hasItemId itemId) := by
  rw [applyUpdate_find?]
  refine (Option.map_congr fun row hrow => ?_).trans Option.map_id'
  have hitem := of_decide_eq_true (Table.find?_eq_some hrow).2
  rw [if_neg fun habsurd => hne ((of_decide_eq_true habsurd).symm.trans hitem)]

variable {updates : List (Text × MigrationOutboxScheduleUpdate)}

theorem applyUpdates_other (hne : itemId ∉ updates.map Prod.fst) :
    (updates.foldl applyUpdate db).pending.find? (hasItemId itemId) =
      db.pending.find? (hasItemId itemId) := by
  induction updates generalizing db with
  | nil => rfl
  | cons update updates ih =>
    rw [List.map_cons,List.mem_cons,not_or] at hne
    rw [List.foldl_cons,ih hne.2,applyUpdate_other (Ne.symm hne.1)]

theorem applyUpdates_peer (hnodup : (updates.map Prod.fst).Nodup)
    {update : Text × MigrationOutboxScheduleUpdate} (hupdate : update ∈ updates) :
    (updates.foldl applyUpdate db).pending.find? (hasItemId update.1) =
      (db.pending.find? (hasItemId update.1)).map (updatePeer update.2) := by
  induction updates generalizing db with
  | nil => cases hupdate
  | cons first updates ih =>
    rw [List.map_cons,List.nodup_cons] at hnodup
    rw [List.foldl_cons]
    rcases List.mem_cons.mp hupdate with rfl | hrest
    · rw [applyUpdates_other hnodup.1,applyUpdate_peer]
    · have hne : first.1 ≠ update.1 := fun h => hnodup.1 (h ▸ List.mem_map_of_mem hrest)
      rw [ih hnodup.2 hrest,applyUpdate_other hne]

theorem applyUpdates_run (updates : List (Text × MigrationOutboxScheduleUpdate)) (db : RunState) :
    (updates.foldl applyUpdate db).run = db.run := by
  induction updates generalizing db with
  | nil => rfl
  | cons update updates ih => exact ih (applyUpdate db update)

theorem peerTakes_applyUpdate {first update : Text × MigrationOutboxScheduleUpdate}
    (hne : first.1 ≠ update.1) : PeerTakes (applyUpdate db first) update ↔ PeerTakes db update := by
  rw [PeerTakes,applyUpdate_other hne,PeerTakes]

theorem peerCrosses_applyUpdate {first update : Text × MigrationOutboxScheduleUpdate}
    (hne : first.1 ≠ update.1) :
    PeerCrosses (applyUpdate db first) update ↔ PeerCrosses db update := by
  rw [PeerCrosses,applyUpdate_other hne,PeerCrosses]

private theorem exists_bool_iff (p : Prop) : ∃ b : Bool, (b = true ↔ p) := by
  classical exact ⟨decide p,decide_eq_true_iff⟩

theorem applyScheduleUpdates_ok_iff (hnodup : (updates.map Prod.fst).Nodup) {crossed : Bool} :
    applyScheduleUpdates updates db = .ok (db', crossed) ↔
      (∀ update ∈ updates, PeerTakes db update) ∧ db' = updates.foldl applyUpdate db ∧
        (crossed = true ↔ ∃ update ∈ updates, PeerCrosses db update) := by
  induction updates generalizing db db' crossed with
  | nil =>
    simp [applyScheduleUpdates,eq_comm]
  | cons first updates ih =>
    rw [List.map_cons,List.nodup_cons] at hnodup
    have hne : ∀ update ∈ updates, first.1 ≠ update.1 :=
      fun update hupdate h => hnodup.1 (h ▸ List.mem_map_of_mem hupdate)
    have htakes : (∀ update ∈ updates, PeerTakes (applyUpdate db first) update) ↔
        ∀ update ∈ updates, PeerTakes db update :=
      forall₂_congr fun update hupdate => peerTakes_applyUpdate (hne update hupdate)
    have hcrosses : (∃ update ∈ updates, PeerCrosses (applyUpdate db first) update) ↔
        ∃ update ∈ updates, PeerCrosses db update :=
      exists_congr fun update => and_congr_right fun hupdate =>
        peerCrosses_applyUpdate (hne update hupdate)
    have hany : (∃ update ∈ first :: updates, PeerCrosses db update) ↔
        PeerCrosses db first ∨ ∃ update ∈ updates, PeerCrosses db update := by
      simp
    rw [List.forall_mem_cons,List.foldl_cons,hany]
    constructor
    · intro h
      obtain ⟨⟨next,headCrossed⟩,hhead,h⟩ := bind_ok h
      obtain ⟨⟨last,tailCrossed⟩,htail,h⟩ := bind_ok h
      cases h
      obtain ⟨hfirst,rfl,hheadCrossed⟩ := applyScheduleUpdate_ok_iff.mp hhead
      obtain ⟨hrest,rfl,htailCrossed⟩ := (ih hnodup.2).mp htail
      rw [htakes] at hrest
      rw [hcrosses] at htailCrossed
      refine ⟨⟨hfirst,hrest⟩,rfl,?_⟩
      rw [Bool.or_eq_true,hheadCrossed,htailCrossed]
    · rintro ⟨⟨hfirst,hrest⟩,rfl,hcrossed⟩
      obtain ⟨headCrossed,hheadCrossed⟩ := exists_bool_iff (PeerCrosses db first)
      obtain ⟨tailCrossed,htailCrossed⟩ :=
        exists_bool_iff (∃ update ∈ updates, PeerCrosses (applyUpdate db first) update)
      have hhead := applyScheduleUpdate_ok_iff.mpr ⟨hfirst,rfl,hheadCrossed⟩
      have htail := (ih hnodup.2).mpr ⟨htakes.mpr hrest,rfl,htailCrossed⟩
      have hboth : crossed = (headCrossed || tailCrossed) := by
        rw [Bool.eq_iff_iff,Bool.or_eq_true,hcrossed,hheadCrossed,htailCrossed,hcrosses]
      rw [applyScheduleUpdates,hhead,hboth]
      change applyScheduleUpdates updates (applyUpdate db first) >>= _ = _
      rw [htail]
      rfl

theorem checkScheduleUpdates_ok {acceptedTxid : Text} {remoteHeight timingMaxBlocks previous : Nat}
    {updates : List MigrationOutboxScheduleUpdate} {supplied : List Text}
    (h : checkScheduleUpdates acceptedTxid remoteHeight timingMaxBlocks updates supplied previous =
      .ok ()) :
    (updates.map fun update => lower update.itemId).Nodup ∧
    ∀ update ∈ updates, lower update.itemId ≠ acceptedTxid ∧ lower update.itemId ∉ supplied := by
  induction updates generalizing supplied previous with
  | nil => exact ⟨.nil,fun update hupdate => nomatch hupdate⟩
  | cons update updates ih =>
    unfold checkScheduleUpdates at h
    dsimp only at h
    split at h
    · cases h
    · split at h
      · cases h
      · split at h
        · cases h
        · obtain ⟨_,_,h⟩ := bind_ok h
          split at h
          · cases h
          · obtain ⟨hnodup,hrest⟩ := ih h
            have hfresh : lower update.itemId ∉ supplied := by
              simpa using ‹¬ supplied.contains (lower update.itemId) = true›
            refine ⟨List.nodup_cons.mpr ⟨?_,hnodup⟩,List.forall_mem_cons.mpr ⟨⟨‹_›,hfresh⟩,?_⟩⟩
            · intro hmem
              obtain ⟨later,hlater,hsame⟩ := List.mem_map.mp hmem
              exact (hrest later hlater).2 (hsame ▸ List.mem_cons_self)
            · exact fun later hlater => ⟨(hrest later hlater).1,
                fun hmem => (hrest later hlater).2 (List.mem_cons_of_mem _ hmem)⟩

theorem mem_suppliedUpdates {updates : List MigrationOutboxScheduleUpdate}
    {update : Text × MigrationOutboxScheduleUpdate} :
    update ∈ suppliedUpdates updates ↔ ∃ u ∈ updates, (lower u.itemId, u) = update := by
  rw [suppliedUpdates,List.mem_insertionSort,List.mem_map]

theorem suppliedUpdates_nodup {updates : List MigrationOutboxScheduleUpdate}
    (h : (updates.map fun update => lower update.itemId).Nodup) :
    ((suppliedUpdates updates).map Prod.fst).Nodup := by
  have hperm := (List.perm_insertionSort (fun a b : Text × MigrationOutboxScheduleUpdate =>
    a.1 ≤ b.1) (updates.map fun update => (lower update.itemId, update))).map Prod.fst
  rw [List.map_map] at hperm
  exact hperm.nodup_iff.mpr h

/-- The rows and the phase once the updates are applied. -/
def movePeers (updates : List (Text × MigrationOutboxScheduleUpdate)) (crossed : Bool)
    (db : RunState) : RunState :=
  if crossed then (updates.foldl applyUpdate db).setPhase .readyToMigrate (some scheduleCrossedBoundary)
  else updates.foldl applyUpdate db

theorem movePeers_run (updates : List (Text × MigrationOutboxScheduleUpdate)) (crossed : Bool)
    (db : RunState) : ∃ phase lastError,
      (movePeers updates crossed db).run = { db.run with phase, lastError } := by
  unfold movePeers
  split
  · refine ⟨.readyToMigrate,some scheduleCrossedBoundary,?_⟩
    rw [RunState.setPhase,RunState.setRun_run,applyUpdates_run]
  · exact ⟨db.run.phase,db.run.lastError,applyUpdates_run updates db⟩

theorem updateRunAfterPendingBroadcast_run (db : RunState) : ∃ phase lastError,
    (updateRunAfterPendingBroadcast db).run = { db.run with phase, lastError } := by
  unfold updateRunAfterPendingBroadcast
  dsimp only
  split
  · exact ⟨_,_,rfl⟩
  · split
    · exact ⟨_,_,rfl⟩
    · exact ⟨_,_,rfl⟩

theorem acceptPendingTx_run (acceptedTxid : Text) (status : PendingStatus) (db : RunState) :
    ∃ phase lastError,
      (acceptPendingTx acceptedTxid status db).run = { db.run with phase, lastError } := by
  unfold acceptPendingTx
  split
  · exact updateRunAfterPendingBroadcast_run _
  · exact ⟨_,_,rfl⟩

theorem receipt_ok_iff {receipt : AcceptedOutboxReceipt} :
    applyAcceptedMigrationOutboxReceipt receipt db = .ok db' ↔
      (db.run.accountUuid = receipt.accountUuid ∧ db.run.network = receipt.network) ∧
      ∃ accepted, db.pending.find? (hasItemId (lower receipt.txid)) = some accepted ∧
        checkScheduleUpdates (lower receipt.txid) receipt.remoteHeight
          (scheduleParametersWithPolicy receipt.network db.run.timingPolicy).2
          receipt.scheduleUpdates [] receipt.remoteHeight = .ok () ∧
        (accepted.status = .scheduled → sameIds ((suppliedUpdates receipt.scheduleUpdates).map
          Prod.fst) (overdueOutboxPeers (lower receipt.txid) receipt.remoteHeight db) = true) ∧
        (∀ update ∈ suppliedUpdates receipt.scheduleUpdates, PeerTakes db update) ∧
        ∃ crossed : Bool, (crossed = true ↔
            ∃ update ∈ suppliedUpdates receipt.scheduleUpdates, PeerCrosses db update) ∧
          db' = acceptPendingTx (lower receipt.txid) accepted.status
            (movePeers (suppliedUpdates receipt.scheduleUpdates) crossed db) := by
  constructor
  · intro h
    unfold applyAcceptedMigrationOutboxReceipt at h
    obtain ⟨_,hrun,h⟩ := bind_ok h
    obtain ⟨accepted,haccepted,h⟩ := bind_ok h
    dsimp only at h
    obtain ⟨_,hcheck,h⟩ := bind_ok h
    have hnodup := suppliedUpdates_nodup (checkScheduleUpdates_ok hcheck).1
    split at h
    · cases h
    · rename_i hpeers
      obtain ⟨⟨updated,crossed⟩,hupdated,h⟩ := bind_ok h
      obtain ⟨htakes,rfl,hcrossed⟩ := (applyScheduleUpdates_ok_iff hnodup).mp hupdated
      cases h
      refine ⟨?_,accepted,okOr_ok haccepted,hcheck,fun hscheduled => ?_,htakes,crossed,hcrossed,rfl⟩
      · unfold migrationOutboxRunPhase at hrun
        split at hrun
        · rename_i hmatch
          exact hmatch
        · cases hrun
      · rw [not_and,Bool.not_eq_false] at hpeers
        exact hpeers hscheduled
  · rintro ⟨hrun,accepted,haccepted,hcheck,hsame,htakes,crossed,hcrossed,rfl⟩
    have hnodup := suppliedUpdates_nodup (checkScheduleUpdates_ok hcheck).1
    have hupdated := (applyScheduleUpdates_ok_iff hnodup).mpr ⟨htakes,rfl,hcrossed⟩
    have hpeers : ¬ (accepted.status = .scheduled ∧ sameIds
        ((suppliedUpdates receipt.scheduleUpdates).map Prod.fst)
        (overdueOutboxPeers (lower receipt.txid) receipt.remoteHeight db) = false) := by
      rintro ⟨hscheduled,habsurd⟩
      rw [hsame hscheduled] at habsurd
      cases habsurd
    simp only [applyAcceptedMigrationOutboxReceipt,migrationOutboxRunPhase,if_pos hrun,haccepted,
      okOr,hcheck,bind,Except.bind,if_neg hpeers,hupdated]
    rfl

theorem receipt_run {receipt : AcceptedOutboxReceipt}
    (h : applyAcceptedMigrationOutboxReceipt receipt db = .ok db') :
    ∃ phase lastError, db'.run = { db.run with phase, lastError } := by
  obtain ⟨_,accepted,_,_,_,_,crossed,_,rfl⟩ := receipt_ok_iff.mp h
  obtain ⟨_,_,hmoved⟩ := movePeers_run (suppliedUpdates receipt.scheduleUpdates) crossed db
  obtain ⟨phase,lastError,hrun⟩ := acceptPendingTx_run (lower receipt.txid) accepted.status
    (movePeers (suppliedUpdates receipt.scheduleUpdates) crossed db)
  rw [hrun,hmoved]
  exact ⟨phase,lastError,rfl⟩

end CoppiceWallet.Store
