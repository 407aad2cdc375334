import CoppiceWallet.Store.Operation

/-! # The signed schedule under promotion -/

namespace CoppiceWallet.Store

open CoppiceWallet.Lib

/-- What the insertion checks of every child, in both of its modes. -/
def ChildrenAccepted (db : RunState) : Prop :=
  ∀ child ∈ db.children.rows, CanonicalExpiry child.scheduledHeight child.expiryHeight

variable {db db' : RunState}

theorem ChildrenAccepted.of_eq (h : db'.children = db.children) (haccepted : ChildrenAccepted db) :
    ChildrenAccepted db' := by
  unfold ChildrenAccepted
  rw [h]
  exact haccepted

theorem ChildrenAccepted.of_empty (h : db.children = .empty) : ChildrenAccepted db := by
  unfold ChildrenAccepted
  rw [h]
  exact fun child hchild => nomatch hchild

theorem encryptSignedChild_heights {key : PayloadKey} {child : SignedMigrationPcztInsert}
    {row : SignedChild} (h : encryptSignedChild key child = .ok row) :
    row.scheduledHeight = child.scheduledHeight ∧ row.expiryHeight = child.expiryHeight := by
  unfold encryptSignedChild at h
  obtain ⟨_,_,h⟩ := bind_ok h
  obtain ⟨_,_,h⟩ := bind_ok h
  cases h
  exact ⟨rfl,rfl⟩

theorem insertSignedChildRows_accepted {key : PayloadKey} {mode : SignedChildInsertMode}
    {children : List SignedMigrationPcztInsert} {origin origin' : Option Nat}
    (haccepted : ChildrenAccepted db)
    (h : insertSignedChildRows key mode children origin db = .ok (db', origin')) :
    ChildrenAccepted db' := by
  induction children generalizing origin db with
  | nil =>
    cases h
    exact haccepted
  | cons child children ih =>
    rw [insertSignedChildRows] at h
    obtain ⟨canonicalExpiry,hcanonical,h⟩ := bind_ok h
    split at h
    · cases h
    · rename_i hexpiry
      rw [ne_eq,not_not] at hexpiry
      obtain ⟨_,_,h⟩ := bind_ok h
      obtain ⟨_,_,h⟩ := bind_ok h
      obtain ⟨row,hrow,h⟩ := bind_ok h
      refine ih (fun stored hstored => ?_) h
      rcases Table.mem_replace.mp hstored with ⟨hold,_⟩ | rfl
      · exact haccepted stored hold
      · obtain ⟨hheight,hrowexpiry⟩ := encryptSignedChild_heights hrow
        rw [CanonicalExpiry,hheight,hrowexpiry,hexpiry]
        exact hcanonical

variable {key : StoreResult PayloadKey}

theorem insertSignedChildPczts_accepted {mode : SignedChildInsertMode}
    {children : List SignedMigrationPcztInsert} (haccepted : ChildrenAccepted db)
    (h : insertSignedChildPczts key mode children db = .ok db') : ChildrenAccepted db' := by
  unfold insertSignedChildPczts at h
  split at h
  · cases h
    exact haccepted
  · obtain ⟨_,_,h⟩ := bind_ok h
    obtain ⟨⟨stored,_⟩,hstored,h⟩ := bind_ok h
    have hrows := insertSignedChildRows_accepted haccepted hstored
    cases h
    split
    · exact hrows.of_eq rfl
    · exact hrows

/-- How far the rebase moves the heights of the children. -/
def rebaseShift (currentScannedHeight : Nat) (db : RunState) : StoreResult Nat :=
  match rebaseOrigin currentScannedHeight db, rebaseCandidates db with
  | some signedScheduleOrigin, some children => do
    let newOrigin := max signedScheduleOrigin currentScannedHeight
    if newOrigin = signedScheduleOrigin then return 0
    else do
      let decision ← rebaseSignedChildren db.run.schedule db.run.targetValues signedScheduleOrigin
        newOrigin children
      match decision with
      | .rewrite _ => return newOrigin - signedScheduleOrigin
      | _ => return 0
  | _, _ => .ok 0

def SignedChild.shifted (shift : Nat) (child : SignedChild) : SignedChild :=
  { child with scheduledHeight := child.scheduledHeight + shift }

theorem SignedChild.shifted_zero (child : SignedChild) : child.shifted 0 = child := rfl

variable {children : List SignedChild}

/-- Children that are rewritten are moved by the distance between the origins, within their
buckets. -/
theorem rebaseSignedChildren_rewrite {schedule : List MigrationScheduleEntry}
    {targetValues : List Nat} {origin newOrigin : Nat} {updates : List (Text × Nat)}
    (hle : origin ≤ newOrigin)
    (h : rebaseSignedChildren schedule targetValues origin newOrigin children =
      .ok (.rewrite updates)) :
    updates = children.map (fun c => (c.messageId, c.scheduledHeight + (newOrigin - origin))) ∧
    ∀ c ∈ children, CanonicalExpiry (c.scheduledHeight + (newOrigin - origin)) c.expiryHeight := by
  induction children generalizing updates with
  | nil =>
    cases h
    exact ⟨rfl,fun c hc => nomatch hc⟩
  | cons child children ih =>
    rw [rebaseSignedChildren] at h
    split at h
    · cases h
    · rename_i blockOffset _
      split at h
      · cases h
      · rename_i horigin
        split at h
        · cases h
        · rename_i newHeight hnew
          rw [ne_eq,not_not,checkedSub_eq_some] at horigin
          rw [checkedAddU32_eq_some] at hnew
          have hheight : child.scheduledHeight + (newOrigin - origin) = newHeight := by omega
          obtain ⟨newExpiry,hexpiry,h⟩ := bind_ok h
          split at h
          · cases h
          · rename_i hsame
            rw [ne_eq,not_not] at hsame
            subst hsame
            obtain ⟨rest,hrest,h⟩ := bind_ok h
            cases rest with
            | freeze => cases h
            | leave => cases h
            | rewrite tail =>
              cases h
              obtain ⟨htail,hcanonical⟩ := ih hrest
              refine ⟨by rw [htail,List.map_cons,hheight],?_⟩
              intro c hc
              rcases List.mem_cons.mp hc with rfl | hc
              · rw [hheight]
                exact hexpiry
              · exact hcanonical c hc

theorem updateChildScheduledHeight_foldl_rows {updates : List (Text × Nat)} (db : RunState)
    (h : (updates.map Prod.fst).Nodup) :
    (updates.foldl updateChildScheduledHeight db).children.rows = db.children.rows.map fun c =>
      match updates.find? (fun u => decide (u.1 = c.messageId)) with
      | some update => { c with scheduledHeight := update.2 }
      | none => c := by
  induction updates generalizing db with
  | nil => exact (List.map_id _).symm
  | cons update updates ih =>
    rw [List.map_cons,List.nodup_cons] at h
    rw [List.foldl_cons,ih _ h.2]
    change (db.children.rows.map _).map _ = _
    rw [List.map_map]
    refine List.map_congr_left fun c _ => ?_
    by_cases hc : c.messageId = update.1
    · have hnone : updates.find? (fun u => decide (u.1 = c.messageId)) = none := by
        refine List.find?_eq_none.mpr fun u hu hkey => h.1 ?_
        rw [← hc,← of_decide_eq_true hkey]
        exact List.mem_map_of_mem hu
      simp [hc,hc ▸ hnone]
    · simp [hc,Ne.symm hc]

theorem updateChildScheduledHeight_foldl_shifted (db : RunState)
    (hperm : children.Perm db.children.rows) (shift : Nat) :
    ((children.map fun c => (c.messageId, c.scheduledHeight + shift)).foldl
      updateChildScheduledHeight db).children.rows =
    db.children.rows.map (SignedChild.shifted shift) := by
  have hnodup : (children.map SignedChild.messageId).Nodup :=
    (hperm.map _).nodup_iff.mpr db.children.keys_nodup
  rw [updateChildScheduledHeight_foldl_rows db (by simpa [Function.comp_def] using hnodup)]
  refine List.map_congr_left fun c hc => ?_
  have hfind := find?_filterMap_key (g := fun c => some (c.scheduledHeight + shift)) hnodup
    (hperm.mem_iff.mpr hc)
  simp only [Option.map_some,List.filterMap_eq_map'] at hfind
  rw [hfind]
  rfl

theorem rebaseCandidates_perm (h : rebaseCandidates db = some children) :
    children.Perm db.children.rows := by
  unfold rebaseCandidates at h
  dsimp only at h
  split at h
  · cases h
  · split at h
    · cases h
      exact List.perm_insertionSort _ _
    · cases h

variable {scanned : Nat} {rebased : RunState}

theorem rebaseInitialSignedSchedule_shift {applied : Bool}
    (h : rebaseInitialSignedSchedule scanned db = .ok (applied, rebased)) :
    ∃ shift, rebaseShift scanned db = .ok shift ∧
      rebased.children.rows = db.children.rows.map (SignedChild.shifted shift) ∧
      (shift = 0 ∨ ∀ c ∈ rebased.children.rows,
        CanonicalExpiry c.scheduledHeight c.expiryHeight) := by
  have hsame : db.children.rows = db.children.rows.map (SignedChild.shifted 0) := by
    rw [show SignedChild.shifted 0 = id from funext SignedChild.shifted_zero,List.map_id]
  unfold rebaseInitialSignedSchedule at h
  split at h
  · rename_i origin children horigin hcandidates
    dsimp only at h
    rw [rebaseShift,horigin,hcandidates]
    dsimp only
    split at h
    · cases h
      rw [if_pos ‹_›]
      exact ⟨0,rfl,hsame,.inl rfl⟩
    · rw [if_neg ‹_›]
      obtain ⟨decision,hdecision,h⟩ := bind_ok h
      rw [hdecision]
      split at h
      · cases h
        exact ⟨0,rfl,hsame,.inl rfl⟩
      · cases h
        exact ⟨0,rfl,hsame,.inl rfl⟩
      · cases h
        rename_i updates
        obtain ⟨rfl,hcanonical⟩ :=
          rebaseSignedChildren_rewrite (le_max_left origin scanned) hdecision
        have hperm := rebaseCandidates_perm hcandidates
        have hrows := updateChildScheduledHeight_foldl_shifted db hperm
          (max origin scanned - origin)
        refine ⟨max origin scanned - origin,rfl,hrows,.inr fun c hc => ?_⟩
        rw [RunState.setRun_children,hrows,List.mem_map] at hc
        obtain ⟨c,hc,rfl⟩ := hc
        exact hcanonical c (hperm.mem_iff.mpr hc)
  · rename_i hno
    cases h
    refine ⟨0,?_,hsame,.inl rfl⟩
    unfold rebaseShift
    split
    · exact absurd ‹_› (hno _ _ ‹_›)
    · rfl

/-- The recovery of legacy heights leaves a child alone: its height is no marker, or what the marker
would stand for lies in another bucket or is the height itself. -/
def SurvivesRecovery (scheduledHeight targetHeight expiryHeight blockOffset : Nat) : Prop :=
  scheduledHeight = targetHeight →
    targetHeight - 1 + blockOffset = targetHeight ∨
    ∃ legacyExpiry, CanonicalExpiry (targetHeight - 1 + blockOffset) legacyExpiry ∧
      legacyExpiry ≠ expiryHeight

theorem canonicalExpiry_lt {scheduledHeight expiryHeight : Nat}
    (h : CanonicalExpiry scheduledHeight expiryHeight) : scheduledHeight < u32Limit := by
  rw [canonicalExpiry_iff] at h
  have hmod : scheduledHeight % zip318ExpiryModulus < zip318ExpiryModulus :=
    Nat.mod_lt _ (by decide)
  omega

variable {pending : PendingMigrationTxInsert}

theorem recoverLegacyScheduledHeight_marker {blockOffset : Nat}
    (hcanonical : CanonicalExpiry pending.scheduledHeight pending.expiryHeight)
    (hmarker : pending.scheduledHeight = pending.targetHeight) :
    recoverLegacyScheduledHeight pending blockOffset = (do
      let legacyScheduledHeight ← okOr (checkedAddU32 (pending.targetHeight - 1) blockOffset)
        "Legacy migration scheduled height overflow"
      let legacyExpiry ← zip318CanonicalMigrationExpiryHeight legacyScheduledHeight
      if pending.expiryHeight = legacyExpiry then .ok legacyScheduledHeight
      else .ok pending.scheduledHeight) := by
  have htarget : zip318CanonicalMigrationExpiryHeight pending.targetHeight =
      .ok pending.expiryHeight := hmarker ▸ hcanonical
  unfold recoverLegacyScheduledHeight
  rw [if_neg (not_not.mpr hmarker),htarget]
  exact if_neg (not_not.mpr rfl)

theorem recoverLegacyScheduledHeight_self_iff {blockOffset : Nat}
    (hcanonical : CanonicalExpiry pending.scheduledHeight pending.expiryHeight) :
    recoverLegacyScheduledHeight pending blockOffset = .ok pending.scheduledHeight ↔
      SurvivesRecovery pending.scheduledHeight pending.targetHeight pending.expiryHeight
        blockOffset := by
  by_cases hmarker : pending.scheduledHeight = pending.targetHeight
  · rw [recoverLegacyScheduledHeight_marker hcanonical hmarker,SurvivesRecovery]
    constructor
    · intro h _
      obtain ⟨legacy,hlegacy,h⟩ := bind_ok h
      obtain ⟨legacyExpiry,hexpiry,h⟩ := bind_ok h
      obtain ⟨rfl,_⟩ := checkedAddU32_eq_some.mp (okOr_ok hlegacy)
      split at h
      · rw [Except.ok.injEq,hmarker] at h
        exact .inl h
      · exact .inr ⟨legacyExpiry,hexpiry,Ne.symm ‹_›⟩
    · intro h
      have hlt := canonicalExpiry_lt hcanonical
      obtain hsame | ⟨legacyExpiry,hexpiry,hne⟩ := h hmarker
      · have hadd : checkedAddU32 (pending.targetHeight - 1) blockOffset =
            some pending.scheduledHeight :=
          checkedAddU32_eq_some.mpr ⟨hsame.trans hmarker.symm,hlt⟩
        have hexpiry : zip318CanonicalMigrationExpiryHeight pending.scheduledHeight =
          .ok pending.expiryHeight := hcanonical
        rw [hadd,okOr_some,ok_bind,hexpiry,ok_bind,if_pos rfl]
      · have hadd : checkedAddU32 (pending.targetHeight - 1) blockOffset =
            some (pending.targetHeight - 1 + blockOffset) :=
          checkedAddU32_eq_some.mpr ⟨rfl,canonicalExpiry_lt hexpiry⟩
        rw [CanonicalExpiry] at hexpiry
        rw [hadd,okOr_some,ok_bind,hexpiry,ok_bind,if_neg hne.symm]
  · unfold recoverLegacyScheduledHeight
    rw [if_pos hmarker]
    exact ⟨fun _ h => absurd h hmarker,fun _ => rfl⟩

theorem checkScheduleOrigin_retained (origin : Nat)
    (hretained : matchesRetainedReplacement db pending = true) :
    ∃ incoming, checkScheduleOrigin db pending origin none = .ok incoming := by
  unfold checkScheduleOrigin
  split
  · exact ⟨none,if_pos (.inr hretained)⟩
  · exact ⟨some origin,rfl⟩

theorem schedulePendingTx_self_iff
    (hcanonical : CanonicalExpiry pending.scheduledHeight pending.expiryHeight)
    (hretained : matchesRetainedReplacement db pending = true) :
    (∃ scheduled origin incoming,
      schedulePendingTx db pending none = .ok (scheduled, origin, incoming) ∧
      scheduled.scheduledHeight = pending.scheduledHeight) ↔
    ∃ entry, scheduleEntryForPart db.run.schedule db.run.targetValues pending.partIndex
        pending.value = some entry ∧
      entry.blockOffset ≤ pending.scheduledHeight ∧
      SurvivesRecovery pending.scheduledHeight pending.targetHeight pending.expiryHeight
        entry.blockOffset := by
  constructor
  · rintro ⟨scheduled,origin,incoming,h,hsame⟩
    unfold schedulePendingTx at h
    obtain ⟨entry,hentry,h⟩ := bind_ok h
    obtain ⟨height,hheight,h⟩ := bind_ok h
    dsimp only at h
    obtain ⟨_,horigin,h⟩ := bind_ok h
    obtain ⟨_,_,h⟩ := bind_ok h
    obtain ⟨_,_,h⟩ := bind_ok h
    split at h
    · cases h
    · cases h
      dsimp only at hsame
      subst hsame
      exact ⟨entry,okOr_ok hentry,(checkedSub_eq_some.mp (okOr_ok horigin)).1,
        (recoverLegacyScheduledHeight_self_iff hcanonical).mp hheight⟩
  · rintro ⟨entry,hentry,hle,hsurvives⟩
    have hheight := (recoverLegacyScheduledHeight_self_iff hcanonical).mpr hsurvives
    have horigin : checkedSub pending.scheduledHeight entry.blockOffset =
        some (pending.scheduledHeight - entry.blockOffset) := checkedSub_eq_some.mpr ⟨hle,rfl⟩
    obtain ⟨incoming,hincoming⟩ :=
      checkScheduleOrigin_retained (pending.scheduledHeight - entry.blockOffset) hretained
    refine ⟨pending,pending.scheduledHeight - entry.blockOffset,incoming,?_,rfl⟩
    have hexpiry : zip318CanonicalMigrationExpiryHeight pending.scheduledHeight =
      .ok pending.expiryHeight := hcanonical
    unfold schedulePendingTx
    rw [hentry,okOr_some,ok_bind,hheight,ok_bind]
    dsimp only
    rw [horigin,okOr_some,ok_bind,hincoming,ok_bind,hexpiry,ok_bind,if_neg (not_not.mpr rfl)]
    rfl

theorem schedulePendingTx_ok {scheduled : PendingMigrationTxInsert} {origin : Nat}
    {incoming incoming' : Option Nat}
    (h : schedulePendingTx db pending incoming = .ok (scheduled, origin, incoming')) :
    scheduled = { pending with scheduledHeight := scheduled.scheduledHeight } := by
  unfold schedulePendingTx at h
  obtain ⟨_,_,h⟩ := bind_ok h
  obtain ⟨_,_,h⟩ := bind_ok h
  dsimp only at h
  obtain ⟨_,_,h⟩ := bind_ok h
  obtain ⟨_,_,h⟩ := bind_ok h
  obtain ⟨_,_,h⟩ := bind_ok h
  split at h
  · cases h
  · cases h
    rfl

/-- A transaction proved from a child; its height is read again when it is promoted. -/
structure ProvedFrom (child : SignedChild) (pending : PendingMigrationTxInsert) : Prop where
  partIndex : pending.partIndex = child.childIndex
  targetHeight : pending.targetHeight = child.targetHeight
  expiryHeight : pending.expiryHeight = child.expiryHeight
  value : pending.value = child.value

/-- Neither the part nor the transaction is pending, and the raw transaction can be encrypted. -/
structure Insertable (key : StoreResult PayloadKey) (pending : PendingMigrationTxInsert)
    (db : RunState) : Prop where
  unpromoted : ∀ row ∈ db.pending.rows, row.partIndex ≠ some pending.partIndex
  fresh : ∀ row ∈ db.pending.rows, row.txid ≠ pending.txid
  encrypts : ∃ opened encrypted, key = .ok opened ∧ opened.encrypt pending.rawTx = .ok encrypted

/-- The schedule of a run lets a child keep its height. -/
def KeepsHeight (run : Run) (child : SignedChild) : Prop :=
  validateScheduleWithPolicy run.schedule run.targetValues run.network run.timingPolicy = .ok () ∧
  ∃ entry, scheduleEntryForPart run.schedule run.targetValues child.childIndex child.value =
      some entry ∧
    entry.blockOffset ≤ child.scheduledHeight ∧
    SurvivesRecovery child.scheduledHeight child.targetHeight child.expiryHeight entry.blockOffset

theorem insertPendingRow_fresh {row : PendingTx}
    (hpart : ∀ r ∈ db.pending.rows, r.partIndex ≠ row.partIndex)
    (htxid : ∀ r ∈ db.pending.rows, r.txid ≠ row.txid) :
    ∃ db', insertPendingRow row db = .ok db' := by
  have hany : db.pending.rows.any (fun p => decide (p.partIndex = row.partIndex)) = false := by
    simpa using hpart
  obtain ⟨table,htable,_⟩ := Table.insert_fresh (t := db.pending) (r := row) (by simpa using htxid)
  unfold insertPendingRow
  rw [hany,Bool.and_false,htable]
  exact ⟨_,rfl⟩

theorem insertPendingTxs_one (rng : Rng) (key : StoreResult PayloadKey)
    (pending : PendingMigrationTxInsert) (db : RunState) :
    insertPendingTxs rng key [pending] db = (do
      let db := db.setRun (ensureApprovedSchedule rng)
      validateScheduleWithPolicy db.run.schedule db.run.targetValues db.run.network
        db.run.timingPolicy
      let (scheduled, origin, incomingOrigin) ← schedulePendingTx db pending none
      let key ← key
      let row ← pendingRow key scheduled origin (some scheduled.scheduledHeight)
      let db ← insertPendingRow row db
      return db.setRun fun run =>
        { run with
          signedScheduleOriginHeight := run.signedScheduleOriginHeight.or incomingOrigin
          phase := .broadcastScheduled
          lastError := none }) := by
  simp [insertPendingTxs,schedulePendingTxs,insertScheduledPendingTxs,ok_bind,-bind_pure_comp]

theorem insertPendingTxs_one_ok {rng : Rng} (h : insertPendingTxs rng key [pending] db = .ok db') :
    let run := ensureApprovedSchedule rng db.run
    validateScheduleWithPolicy run.schedule run.targetValues run.network run.timingPolicy =
      .ok () ∧
    ∃ scheduled origin incoming row,
      schedulePendingTx (db.setRun (ensureApprovedSchedule rng)) pending none =
        .ok (scheduled, origin, incoming) ∧
      db'.pending.rows = db.pending.rows ++ [row] ∧ row.txid = scheduled.txid ∧
      row.scheduledHeight = scheduled.scheduledHeight ∧ db'.children = db.children := by
  rw [insertPendingTxs_one] at h
  obtain ⟨_,hvalid,h⟩ := bind_ok h
  obtain ⟨⟨scheduled,origin,incoming⟩,hscheduled,h⟩ := bind_ok h
  obtain ⟨opened,_,h⟩ := bind_ok h
  obtain ⟨row,hrow,h⟩ := bind_ok h
  obtain ⟨stored,hstored,h⟩ := bind_ok h
  cases h
  obtain ⟨table,rfl,hrows⟩ := insertPendingRow_ok hstored
  obtain ⟨_,rfl⟩ := pendingRow_ok hrow
  exact ⟨hvalid,scheduled,origin,incoming,_,hscheduled,hrows,rfl,rfl,rfl⟩

theorem insertPendingTxs_one_fresh {rng : Rng} {origin : Nat} {incoming : Option Nat}
    (hvalid : validateScheduleWithPolicy (ensureApprovedSchedule rng db.run).schedule
      (ensureApprovedSchedule rng db.run).targetValues (ensureApprovedSchedule rng db.run).network
      (ensureApprovedSchedule rng db.run).timingPolicy = .ok ())
    (hscheduled : schedulePendingTx (db.setRun (ensureApprovedSchedule rng)) pending none =
      .ok (pending, origin, incoming))
    (hinsertable : Insertable key pending db) :
    ∃ db', insertPendingTxs rng key [pending] db = .ok db' := by
  obtain ⟨opened,encrypted,rfl,hencrypted⟩ := hinsertable.encrypts
  obtain ⟨row,hrow⟩ : ∃ row, pendingRow opened pending origin (some pending.scheduledHeight) =
      .ok row := by
    unfold pendingRow
    rw [hencrypted]
    exact ⟨_,rfl⟩
  obtain ⟨_,hfields⟩ := pendingRow_ok hrow
  obtain ⟨stored,hstored⟩ : ∃ stored,
      insertPendingRow row (db.setRun (ensureApprovedSchedule rng)) = .ok stored := by
    refine insertPendingRow_fresh ?_ ?_
    · rw [hfields]
      exact hinsertable.unpromoted
    · rw [hfields]
      exact hinsertable.fresh
  rw [insertPendingTxs_one]
  dsimp only [RunState.setRun_run]
  rw [hvalid,ok_bind,hscheduled,ok_bind,ok_bind,hrow,ok_bind,hstored]
  exact ⟨_,rfl⟩

variable {child : SignedChild}

/-- One transaction is inserted under the height of its child exactly when the schedule allows. -/
theorem insertPendingTxs_keeps_iff (rng : Rng)
    (hcanonical : CanonicalExpiry child.scheduledHeight child.expiryHeight)
    (hchild : child ∈ db.children.rows) (hproved : ProvedFrom child pending)
    (hheight : pending.scheduledHeight = child.scheduledHeight)
    (hinsertable : Insertable key pending db) :
    (∃ db', insertPendingTxs rng key [pending] db = .ok db' ∧ db'.children = db.children ∧
      ∃ row ∈ db'.pending.rows, row.txid = pending.txid ∧
        row.scheduledHeight = child.scheduledHeight) ↔
    KeepsHeight (ensureApprovedSchedule rng db.run) child := by
  have hretained : matchesRetainedReplacement (db.setRun (ensureApprovedSchedule rng)) pending =
      true := by
    refine List.any_eq_true.mpr ⟨child,hchild,decide_eq_true ?_⟩
    exact ⟨hproved.partIndex.symm,hheight.symm,hproved.expiryHeight.symm,hproved.value.symm⟩
  have hpending : CanonicalExpiry pending.scheduledHeight pending.expiryHeight := by
    rw [hheight,hproved.expiryHeight]
    exact hcanonical
  have hself := schedulePendingTx_self_iff hpending hretained
  rw [hproved.partIndex,hproved.targetHeight,hproved.expiryHeight,hproved.value,hheight] at hself
  constructor
  · rintro ⟨db',h,_,row,hrow,htxid,hrowheight⟩
    obtain ⟨hvalid,scheduled,origin,incoming,inserted,hscheduled,hrows,_,hinserted,_⟩ :=
      insertPendingTxs_one_ok h
    rw [hrows,List.mem_append,List.mem_singleton] at hrow
    rcases hrow with hrow | rfl
    · exact absurd htxid (hinsertable.fresh row hrow)
    · exact ⟨hvalid,hself.mp ⟨scheduled,origin,incoming,hscheduled,hinserted.symm.trans hrowheight⟩⟩
  · rintro ⟨hvalid,hentry⟩
    obtain ⟨scheduled,origin,incoming,hscheduled,hsame⟩ := hself.mpr hentry
    have hkept : scheduled = pending := by
      rw [schedulePendingTx_ok hscheduled,hsame,← hheight]
    subst hkept
    obtain ⟨db',h⟩ := insertPendingTxs_one_fresh hvalid hscheduled hinsertable
    obtain ⟨_,scheduled',_,_,row,hscheduled',hrows,htxid,hrowheight,hchildren⟩ :=
      insertPendingTxs_one_ok h
    rw [hscheduled] at hscheduled'
    cases hscheduled'
    exact ⟨db',h,hchildren,row,by simp [hrows],htxid,hrowheight.trans hheight⟩

/-- A promotion of one child, as the finalization of a run makes it: all parts are assigned, the
child is the retained one of its index, and its transaction was just proved. -/
structure PromotionCall (key : StoreResult PayloadKey) (pending : PendingMigrationTxInsert)
    (child : SignedChild) (db : RunState) : Prop where
  assigned : db.migrationPartAssignmentComplete = true
  retained : db.children.find? (fun c => decide (c.childIndex = pending.partIndex)) = some child
  proved : ProvedFrom child pending
  insertable : Insertable key pending db

/-- The pending transaction has the height that its child has in the database. -/
def PromotedAtSignedHeight (pending : PendingMigrationTxInsert) (db : RunState) : Prop :=
  ∃ child, db.children.find? (fun c => decide (c.childIndex = pending.partIndex)) = some child ∧
    ∃ row ∈ db.pending.rows, row.txid = pending.txid ∧ row.scheduledHeight = child.scheduledHeight

theorem rebase_find {shift : Nat}
    (hrows : rebased.children.rows = db.children.rows.map (SignedChild.shifted shift))
    (h : db.children.find? (fun c => decide (c.childIndex = pending.partIndex)) = some child) :
    rebased.children.find? (fun c => decide (c.childIndex = pending.partIndex)) =
      some (child.shifted shift) := by
  rw [Table.find?,hrows,List.find?_map]
  exact congrArg (Option.map _) h

theorem rebaseShift_ok {shift : Nat} (h : rebaseShift scanned db = .ok shift) :
    ∃ applied rebased, rebaseInitialSignedSchedule scanned db = .ok (applied, rebased) := by
  unfold rebaseShift at h
  split at h
  · rename_i origin children horigin hcandidates
    rw [rebaseInitialSignedSchedule,horigin,hcandidates]
    dsimp only at h ⊢
    split at h
    · rw [if_pos ‹_›]
      exact ⟨_,_,rfl⟩
    · rw [if_neg ‹_›]
      obtain ⟨decision,hdecision,h⟩ := bind_ok h
      rw [hdecision,ok_bind]
      cases decision <;> exact ⟨_,_,rfl⟩
  · rename_i hno
    unfold rebaseInitialSignedSchedule
    split
    · exact absurd ‹_› (hno _ _ ‹_›)
    · exact ⟨false,db,rfl⟩

theorem promote_one {rng : Rng} {retry : Nat} {applied : Bool}
    (hassigned : db.migrationPartAssignmentComplete = true)
    (hrebased : rebaseInitialSignedSchedule scanned db = .ok (applied, rebased))
    (hchild : rebased.children.find? (fun c => decide (c.childIndex = pending.partIndex)) =
      some child) :
    promoteSignedChildPcztsToPendingTxs rng key [pending] scanned retry db = (do
      let db ← insertPendingTxs rng key [{ pending with scheduledHeight := child.scheduledHeight }]
        rebased
      return db.setRun fun run =>
        { run with proofRetryHeight := if hasUnprovedChild db then some retry else none }) := by
  have hrefresh : [pending].mapM (refreshScheduledHeight rebased) =
      .ok [{ pending with scheduledHeight := child.scheduledHeight }] := by
    rw [List.mapM_cons,refreshScheduledHeight,hchild]
    rfl
  rw [promoteSignedChildPcztsToPendingTxs,if_neg (by simp),hassigned,if_neg (by simp),hrebased,
    ok_bind]
  dsimp only
  rw [hrefresh,ok_bind]

theorem keepsHeight_origins (rng : Rng) (run : Run) (signedScheduleOriginHeight
    initialScheduleRebasedOriginHeight : Option Nat) (child : SignedChild) :
    KeepsHeight (ensureApprovedSchedule rng
      { run with signedScheduleOriginHeight, initialScheduleRebasedOriginHeight }) child ↔
    KeepsHeight (ensureApprovedSchedule rng run) child := by
  unfold ensureApprovedSchedule KeepsHeight
  dsimp only
  split <;> rfl

theorem promote_rebased_iff {rng : Rng} {retry : Nat} {applied : Bool}
    (haccepted : CanonicalExpiry child.scheduledHeight child.expiryHeight)
    (hcall : PromotionCall key pending child db)
    (hrebased : rebaseInitialSignedSchedule scanned db = .ok (applied, rebased)) :
    ∃ shift, rebaseShift scanned db = .ok shift ∧
      ((∃ db', promoteSignedChildPcztsToPendingTxs rng key [pending] scanned retry db = .ok db' ∧
        PromotedAtSignedHeight pending db') ↔
      KeepsHeight (ensureApprovedSchedule rng db.run) (child.shifted shift)) := by
  obtain ⟨hpending,_,_,hrun⟩ := rebaseInitialSignedSchedule_keeps hrebased
  obtain ⟨shift,hshift,hrows,hcanonical⟩ := rebaseInitialSignedSchedule_shift hrebased
  refine ⟨shift,hshift,?_⟩
  have hfind := rebase_find hrows hcall.retained
  have hmem := (Table.find?_eq_some hfind).1
  have hshifted : CanonicalExpiry (child.shifted shift).scheduledHeight
      (child.shifted shift).expiryHeight := by
    rcases hcanonical with rfl | hcanonical
    · exact haccepted
    · exact hcanonical _ hmem
  have hproved : ProvedFrom (child.shifted shift)
      { pending with scheduledHeight := (child.shifted shift).scheduledHeight } :=
    ⟨hcall.proved.partIndex,hcall.proved.targetHeight,hcall.proved.expiryHeight,hcall.proved.value⟩
  have hinsertable : Insertable key
      { pending with scheduledHeight := (child.shifted shift).scheduledHeight } rebased := by
    refine ⟨?_,?_,hcall.insertable.encrypts⟩
    · rw [hpending]
      exact hcall.insertable.unpromoted
    · rw [hpending]
      exact hcall.insertable.fresh
  have hkeeps := insertPendingTxs_keeps_iff rng hshifted hmem hproved rfl hinsertable
  rw [hrun,keepsHeight_origins] at hkeeps
  rw [← hkeeps,promote_one hcall.assigned hrebased hfind]
  constructor
  · rintro ⟨db',h,promoted,hpromoted,row,hrow,htxid,hheight⟩
    obtain ⟨inserted,hinserted,h⟩ := bind_ok h
    cases h
    obtain ⟨_,_,_,_,_,_,_,_,_,hchildren⟩ := insertPendingTxs_one_ok hinserted
    rw [RunState.setRun_children,hchildren,hfind] at hpromoted
    cases hpromoted
    exact ⟨inserted,hinserted,hchildren,row,hrow,htxid,hheight⟩
  · rintro ⟨inserted,hinserted,hchildren,row,hrow,htxid,hheight⟩
    rw [hinserted]
    refine ⟨_,rfl,child.shifted shift,?_,row,hrow,htxid,hheight⟩
    rw [RunState.setRun_children,hchildren]
    exact hfind

/-- A promotion keeps the signed height exactly when the rebase and the schedule let it. -/
theorem promotedChild_keepsSignedHeight {rng : Rng} {key : StoreResult PayloadKey}
    {pending : PendingMigrationTxInsert} {child : SignedChild} {scanned retry : Nat} {db : RunState}
    (haccepted : CanonicalExpiry child.scheduledHeight child.expiryHeight)
    (hcall : PromotionCall key pending child db) :
    (∃ db', promoteSignedChildPcztsToPendingTxs rng key [pending] scanned retry db = .ok db' ∧
      PromotedAtSignedHeight pending db') ↔
    ∃ shift, rebaseShift scanned db = .ok shift ∧
      KeepsHeight (ensureApprovedSchedule rng db.run) (child.shifted shift) := by
  constructor
  · rintro ⟨db',h,hpromoted⟩
    have hrebase : ∃ applied rebased,
        rebaseInitialSignedSchedule scanned db = .ok (applied, rebased) := by
      unfold promoteSignedChildPcztsToPendingTxs at h
      rw [if_neg (by simp),hcall.assigned,if_neg (by simp)] at h
      obtain ⟨⟨applied,rebased⟩,hrebased,_⟩ := bind_ok h
      exact ⟨applied,rebased,hrebased⟩
    obtain ⟨applied,rebased,hrebased⟩ := hrebase
    obtain ⟨shift,hshift,hiff⟩ := promote_rebased_iff haccepted hcall hrebased
    exact ⟨shift,hshift,hiff.mp ⟨db',h,hpromoted⟩⟩
  · rintro ⟨shift,hshift,hkeeps⟩
    obtain ⟨applied,rebased,hrebased⟩ := rebaseShift_ok hshift
    obtain ⟨shift',hshift',hiff⟩ := promote_rebased_iff haccepted hcall hrebased
    rw [hshift] at hshift'
    cases hshift'
    exact hiff.mpr hkeeps

def edgeTxid : TxidHex := ⟨['c'],by decide⟩

/-- A child of a single part that is due at the first block of the schedule. -/
def firstBlockChild : SignedMigrationPcztInsert where
  messageId := ['m']
  childIndex := 0
  basePczt := [1]
  compactSigs := [2]
  targetHeight := 101
  anchorBoundaryHeight := none
  expiryHeight := 69120
  scheduledHeight := 100
  value := 1000000
  fee := 15000
  selectedNote := ⟨['n'],0,1015000⟩

def firstBlockRun : RunState :=
  .created
    { accountUuid := ['a']
      network := .test
      phase := .readyToMigrate
      targetValues := [1000000]
      schedule := [⟨some 0,1000000,0⟩]
      proofRetryHeight := some 101 }

def firstBlockPending : PendingMigrationTxInsert where
  partIndex := 0
  txid := edgeTxid
  rawTx := [3]
  targetHeight := 101
  anchorBoundaryHeight := some 100
  expiryHeight := 69120
  scheduledHeight := 100
  value := 1000000
  fee := 15000
  selectedNote := ⟨['n'],0,1015000⟩

/-- The child as it is stored. -/
def firstBlockSigned : SignedChild where
  messageId := ['m']
  childIndex := 0
  encryptedBasePczt := [1]
  encryptedCompactSigs := [2]
  targetHeight := 101
  anchorBoundaryHeight := none
  expiryHeight := 69120
  scheduledHeight := 100
  value := 1000000
  fee := 15000
  selectedNote := ⟨['n'],0,1015000⟩

/-- The run with its one signature. -/
def firstBlockReady : RunState :=
  { firstBlockRun with
    run := { firstBlockRun.run with signedScheduleOriginHeight := some 100 }
    children := ⟨[firstBlockSigned],by decide⟩ }

theorem firstBlockReady_stored :
    insertSignedChildPczts (.ok default) .initial [firstBlockChild] firstBlockRun =
      .ok firstBlockReady := by
  have hcanonical : zip318CanonicalMigrationExpiryHeight 100 = .ok 69120 := by decide
  have horigin : signedScheduleOriginWith firstBlockRun.run.schedule firstBlockRun.run.targetValues
      .initial firstBlockChild none = .ok (some 100) := by decide
  unfold insertSignedChildPczts insertSignedChildRows insertSignedChildRows
  rw [show firstBlockChild.scheduledHeight = 100 from rfl,hcanonical]
  dsimp only [ok_bind]
  rw [if_neg (by decide),if_pos rfl,if_neg (by decide),
    show firstBlockRun.run.signedScheduleOriginHeight = none from rfl,horigin]
  rfl

theorem firstBlockSigned_accepted :
    CanonicalExpiry firstBlockSigned.scheduledHeight firstBlockSigned.expiryHeight :=
  insertSignedChildPczts_accepted (.of_empty rfl) firstBlockReady_stored _ List.mem_cons_self

theorem firstBlockReady_call :
    PromotionCall (.ok default) firstBlockPending firstBlockSigned firstBlockReady where
  assigned := by decide
  retained := rfl
  proved := ⟨rfl,rfl,rfl,rfl⟩
  insertable := {
    unpromoted := fun _ h => nomatch h
    fresh := fun _ h => nomatch h
    encrypts := ⟨default,[3],rfl,rfl⟩ }

/-- Promoted one block after its construction, the child is shifted to the height that marks legacy
rows, and refused. -/
theorem firstBlockChild_refused :
    insertSignedChildPczts (.ok default) .initial [firstBlockChild] firstBlockRun =
      .ok firstBlockReady ∧
    CanonicalExpiry firstBlockSigned.scheduledHeight firstBlockSigned.expiryHeight ∧
    PromotionCall (.ok default) firstBlockPending firstBlockSigned firstBlockReady ∧
    ¬ ∃ db', promoteSignedChildPcztsToPendingTxs default (.ok default) [firstBlockPending] 101 120
      firstBlockReady = .ok db' ∧ PromotedAtSignedHeight firstBlockPending db' := by
  refine ⟨firstBlockReady_stored,firstBlockSigned_accepted,firstBlockReady_call,?_⟩
  rintro ⟨db',h,_⟩
  have hrefused : promoteSignedChildPcztsToPendingTxs default (.ok default) [firstBlockPending] 101
      120 firstBlockReady = .error
        "Signed migration child no longer matches the immutable signed schedule origin" := rfl
  rw [hrefused] at h
  cases h

/-- Promoted later, it moves with the schedule. -/
theorem firstBlockChild_promoted :
    ∃ db', promoteSignedChildPcztsToPendingTxs default (.ok default) [firstBlockPending] 340 400
      firstBlockReady = .ok db' ∧ PromotedAtSignedHeight firstBlockPending db' := by
  refine (promotedChild_keepsSignedHeight firstBlockSigned_accepted firstBlockReady_call).mpr
    ⟨240,rfl,rfl,?_⟩
  exact ⟨⟨some 0,1000000,0⟩,rfl,by decide,fun h => absurd h (by decide)⟩

end CoppiceWallet.Store
