import CoppiceWallet.Lib.Lists
import CoppiceWallet.Store.Operation
import CoppiceWallet.Store.Receipt

/-! # The recovery ladder -/

namespace CoppiceWallet.Store

open CoppiceWallet.Lib

variable {db db' : RunState}

variable {row : PendingTx}

theorem mem_assignRebuildOffset {assigned : Nat} (hrow : row ∈ db.pending.rows)
    (hwaiting : row.status = .needsResign) {r : PendingTx} :
    r ∈ (assignRebuildOffset row assigned db).pending.rows ↔
      (r ∈ db.pending.rows ∧ r.txid ≠ row.txid) ∨
      r = { row with rebuildBlockOffset := some assigned } := by
  have hselected : ∀ old ∈ db.pending.rows, (decide (old.txid = row.txid ∧
      old.status = .needsResign ∧ old.rebuildBlockOffset = row.rebuildBlockOffset) = true ↔
      old = row) := by
    intro old hold
    rw [decide_eq_true_iff]
    constructor
    · exact fun h => db.pending.eq_of_key hold hrow h.1
    · rintro rfl
      exact ⟨rfl,hwaiting,rfl⟩
  constructor
  · intro hr
    obtain ⟨old,hold,rfl⟩ := List.mem_map.mp hr
    split
    · rename_i hold'
      rw [(hselected old hold).mp hold']
      exact .inr rfl
    · rename_i hother
      refine .inl ⟨hold,fun hkey => hother ?_⟩
      exact (hselected old hold).mpr (db.pending.eq_of_key hold hrow hkey)
  · rintro (⟨hr,hother⟩ | rfl)
    · refine List.mem_map.mpr ⟨r,hr,if_neg fun h => hother ?_⟩
      rw [(hselected r hr).mp h]
    · exact List.mem_map.mpr ⟨row,hrow,if_pos ((hselected row hrow).mpr rfl)⟩

variable {parts : List (PendingTx × Nat)}

theorem assignRebuildOffsets_spec {base : Nat} {offsets : List (Text × Nat)}
    (hnodup : (parts.map fun part => part.1.txid).Nodup)
    (hparts : ∀ part ∈ parts, part.1 ∈ db.pending.rows ∧ part.1.status = .needsResign)
    (h : assignRebuildOffsets base parts db = .ok (db', offsets)) :
    offsets = parts.map (fun part => (lower part.1.txid.text, base + part.2)) ∧
    ∀ row, row ∈ db'.pending.rows ↔
      (row ∈ db.pending.rows ∧ row.txid ∉ parts.map fun part => part.1.txid) ∨
      ∃ part ∈ parts, row = { part.1 with rebuildBlockOffset := some (base + part.2) } := by
  induction parts generalizing db offsets with
  | nil =>
    cases h
    exact ⟨rfl,fun row => by simp⟩
  | cons part parts ih =>
    obtain ⟨row,fresh⟩ := part
    rw [assignRebuildOffsets] at h
    obtain ⟨assigned,hassigned,h⟩ := bind_ok h
    obtain ⟨⟨next,rest⟩,hnext,h⟩ := bind_ok h
    cases h
    obtain ⟨rfl,_⟩ := checkedAddU32_eq_some.mp (okOr_ok hassigned)
    obtain ⟨hfresh,hnodup⟩ := List.nodup_cons.mp hnodup
    obtain ⟨⟨hrow,hwaiting⟩,hparts⟩ := List.forall_mem_cons.mp hparts
    have hstill : ∀ part ∈ parts,
        part.1 ∈ (assignRebuildOffset row (base + fresh) db).pending.rows ∧
        part.1.status = .needsResign := by
      intro part hpart
      refine ⟨(mem_assignRebuildOffset hrow hwaiting).mpr (.inl ⟨(hparts part hpart).1,?_⟩),
        (hparts part hpart).2⟩
      exact fun hkey => hfresh (List.mem_map.mpr ⟨part,hpart,hkey⟩)
    obtain ⟨rfl,hrows⟩ := ih hnodup hstill hnext
    refine ⟨rfl,fun r => ?_⟩
    rw [hrows,mem_assignRebuildOffset hrow hwaiting,List.map_cons,List.mem_cons,not_or]
    constructor
    · rintro (⟨⟨hr,hother⟩ | rfl,hrest⟩ | ⟨part,hpart,rfl⟩)
      · exact .inl ⟨hr,hother,hrest⟩
      · exact .inr ⟨_,List.mem_cons_self,rfl⟩
      · exact .inr ⟨part,List.mem_cons_of_mem _ hpart,rfl⟩
    · rintro (⟨hr,hother,hrest⟩ | ⟨part,hpart,rfl⟩)
      · exact .inl ⟨.inl ⟨hr,hother⟩,hrest⟩
      · rcases List.mem_cons.mp hpart with rfl | hpart
        · exact .inl ⟨.inr rfl,hfresh⟩
        · exact .inr ⟨part,hpart,rfl⟩

theorem mem_needsResignRows :
    row ∈ needsResignRows db ↔ row ∈ db.pending.rows ∧ row.status = .needsResign := by
  rw [needsResignRows,List.mem_insertionSort,Table.select,List.mem_filter,decide_eq_true_iff]

theorem needsResignRows_nodup (db : RunState) : ((needsResignRows db).map PendingTx.txid).Nodup := by
  have hperm := (List.perm_insertionSort rowBefore
    (db.pending.select fun row => decide (row.status = .needsResign))).map PendingTx.txid
  exact hperm.nodup_iff.mpr (db.pending.keys_nodup.sublist (List.filter_sublist.map _))

theorem toAssign_eq_false {elapsedCursor : Nat} : toAssign elapsedCursor row = false ↔
      ∃ offset, row.rebuildBlockOffset = some offset ∧ elapsedCursor ≤ offset := by
  unfold toAssign
  cases row.rebuildBlockOffset <;> simp

variable {rows : List PendingTx}

theorem mem_keptOffsets {elapsedCursor : Nat} {entry : Text × Nat} :
    entry ∈ keptOffsets elapsedCursor rows ↔ ∃ row ∈ rows, toAssign elapsedCursor row = false ∧
      entry.1 = lower row.txid.text ∧ row.rebuildBlockOffset = some entry.2 := by
  obtain ⟨itemId,offset⟩ := entry
  simp only [keptOffsets,List.mem_filterMap,List.mem_filter,Bool.not_eq_true',
    Option.map_eq_some_iff,Prod.mk.injEq,and_assoc]
  refine exists_congr fun row => and_congr_right fun _ => and_congr_right fun _ => ?_
  constructor
  · rintro ⟨_,hoffset,rfl,rfl⟩
    exact ⟨rfl,hoffset⟩
  · rintro ⟨rfl,hoffset⟩
    exact ⟨offset,hoffset,rfl,rfl⟩

/-- What a call draws: an offset above `base` for each of the rows that need one. -/
structure Drawn (elapsedCursor base : Nat) (drawn : List (PendingTx × Nat)) (db db' : RunState) :
    Prop where
  parts : drawn.map Prod.fst = (needsResignRows db).filter (toAssign elapsedCursor)
  rows : ∀ row, row ∈ db'.pending.rows ↔
    (row ∈ db.pending.rows ∧ row.txid ∉ drawn.map fun part => part.1.txid) ∨
    ∃ part ∈ drawn, row = { part.1 with rebuildBlockOffset := some (base + part.2) }

namespace Drawn

variable {elapsedCursor base : Nat} {drawn : List (PendingTx × Nat)}

theorem mem_drawn (h : Drawn elapsedCursor base drawn db db') {part : PendingTx × Nat}
    (hpart : part ∈ drawn) : part.1 ∈ db.pending.rows ∧ part.1.status = .needsResign ∧
      toAssign elapsedCursor part.1 = true := by
  have hmem : part.1 ∈ drawn.map Prod.fst := List.mem_map_of_mem hpart
  rw [h.parts,List.mem_filter,mem_needsResignRows] at hmem
  exact ⟨hmem.1.1,hmem.1.2,hmem.2⟩

theorem cases (h : Drawn elapsedCursor base drawn db db') {row : PendingTx}
    (hrow : row ∈ db'.pending.rows) (hwaiting : row.status = .needsResign) :
    (row ∈ db.pending.rows ∧ toAssign elapsedCursor row = false) ∨
    ∃ part ∈ drawn, row = { part.1 with rebuildBlockOffset := some (base + part.2) } := by
  rcases (h.rows row).mp hrow with ⟨hold,hother⟩ | hdrawn
  · refine .inl ⟨hold,?_⟩
    rw [Bool.eq_false_iff]
    intro hassign
    have hmem : row ∈ drawn.map Prod.fst := by
      rw [h.parts,List.mem_filter,mem_needsResignRows]
      exact ⟨⟨hold,hwaiting⟩,hassign⟩
    obtain ⟨part,hpart,hsame⟩ := List.mem_map.mp hmem
    exact hother (List.mem_map.mpr ⟨part,hpart,congrArg PendingTx.txid hsame⟩)
  · exact .inr hdrawn

theorem kept (h : Drawn elapsedCursor base drawn db db') {row : PendingTx}
    (hrow : row ∈ db.pending.rows) (hkept : toAssign elapsedCursor row = false) :
    row ∈ db'.pending.rows := by
  refine (h.rows row).mpr (.inl ⟨hrow,fun hmem => ?_⟩)
  obtain ⟨part,hpart,hkey⟩ := List.mem_map.mp hmem
  obtain ⟨hpartRow,_,hassign⟩ := h.mem_drawn hpart
  rw [db.pending.eq_of_key hpartRow hrow hkey,hkept] at hassign
  cases hassign

theorem mem_offsets (h : Drawn elapsedCursor base drawn db db') {entry : Text × Nat} :
    entry ∈ keptOffsets elapsedCursor (needsResignRows db) ++
        drawn.map (fun part => (lower part.1.txid.text, base + part.2)) ↔
      ∃ row ∈ db'.pending.rows, row.status = .needsResign ∧ entry.1 = lower row.txid.text ∧
        row.rebuildBlockOffset = some entry.2 := by
  rw [List.mem_append,mem_keptOffsets,List.mem_map]
  constructor
  · rintro (⟨row,hrow,hkept,hentry⟩ | ⟨part,hpart,rfl⟩)
    · obtain ⟨hrow,hwaiting⟩ := mem_needsResignRows.mp hrow
      exact ⟨row,h.kept hrow hkept,hwaiting,hentry⟩
    · obtain ⟨_,hwaiting,_⟩ := h.mem_drawn hpart
      exact ⟨_,(h.rows _).mpr (.inr ⟨part,hpart,rfl⟩),hwaiting,rfl,rfl⟩
  · rintro ⟨row,hrow,hwaiting,hid,hoffset⟩
    rcases h.cases hrow hwaiting with ⟨hold,hkept⟩ | ⟨part,hpart,rfl⟩
    · exact .inl ⟨row,mem_needsResignRows.mpr ⟨hold,hwaiting⟩,hkept,hid,hoffset⟩
    · refine .inr ⟨part,hpart,?_⟩
      exact Prod.ext hid.symm (Option.some.inj hoffset)

end Drawn

variable {rng : Rng} {network : WalletNetwork}

theorem freshRebuildOffsets_length {run : Run} {assigning : List (PendingTx × Nat)}
    {offsets : List Nat} (h : freshRebuildOffsets rng network run assigning = .ok offsets) :
    offsets.length = assigning.length := by
  unfold freshRebuildOffsets at h
  split at h
  · rename_i hempty
    cases h
    rw [List.isEmpty_iff.mp hempty]
    rfl
  · rw [rebuildScheduleBlockOffsets_length h,List.length_map]

theorem parts_isSome (h : (rows.mapM fun row => do
      let partIndex ← okOr row.partIndex
        "Migration part waiting for re-sign is missing its part index"
      return (row, partIndex)) = .ok parts) : ∀ row ∈ rows, row.partIndex.isSome = true := by
  intro row hrow
  obtain ⟨_,_,hpart⟩ := forall₂_mem_left (mapM_ok h) hrow
  obtain ⟨partIndex,hindex,_⟩ := bind_ok hpart
  rw [okOr_ok hindex]
  rfl

theorem parts_fst (h : (rows.mapM fun row => do
      let partIndex ← okOr row.partIndex
        "Migration part waiting for re-sign is missing its part index"
      return (row, partIndex)) = .ok parts) : parts.map Prod.fst = rows := by
  have hmap := forall₂_map_eq (f := id) (g := Prod.fst) (mapM_ok h) fun row part hpart => by
    obtain ⟨_,_,hpart⟩ := bind_ok hpart
    cases hpart
    rfl
  rwa [List.map_id] at hmap

/-- What a call that finds waiting rows does. -/
structure LadderCall (tip base maximum : Nat) (drawn : List (PendingTx × Nat))
    (generation : RebuildScheduleGeneration) (db db' : RunState) : Prop where
  waiting : needsResignRows db ≠ []
  partIndexes : ∀ row ∈ needsResignRows db, row.partIndex.isSome = true
  originHeight : generation.originHeight = db.run.recoveryScheduleOriginHeight.getD tip
  baseOffset : recoveryBaseOffset db.run (needsResignRows db) (tip - generation.originHeight) =
    .ok base
  drawnRows : Drawn (tip - generation.originHeight) base drawn db db'
  offsets : generation.offsetsByTxid =
    keptOffsets (tip - generation.originHeight) (needsResignRows db) ++
      drawn.map fun part => (lower part.1.txid.text, base + part.2)
  maximum_eq : maximum = (drawn.map fun part => base + part.2).foldl max base
  run : db'.run =
    { db.run with
      recoveryScheduleOriginHeight := some generation.originHeight
      recoveryScheduleMaxBlockOffset := some maximum }

theorem ensureRebuildScheduleGeneration_ok {tip : Nat} {result : Option RebuildScheduleGeneration}
    (h : ensureRebuildScheduleGeneration rng network tip db = .ok (result, db')) :
    (needsResignRows db = [] ∧ result = none ∧ db' = db) ∨
    ∃ base maximum drawn generation, result = some generation ∧
      LadderCall tip base maximum drawn generation db db' := by
  unfold ensureRebuildScheduleGeneration at h
  dsimp only at h
  split at h
  · cases h
    exact .inl ⟨List.isEmpty_iff.mp ‹_›,rfl,rfl⟩
  · rename_i hnonempty
    obtain ⟨parts,hparts,h⟩ := bind_ok h
    obtain ⟨base,hbase,h⟩ := bind_ok h
    obtain ⟨fresh,hfresh,h⟩ := bind_ok h
    obtain ⟨⟨next,assigned⟩,hassigned,h⟩ := bind_ok h
    cases h
    have hrows := parts_fst hparts
    generalize hdrawn : ((parts.filter fun part => toAssign (tip -
      db.run.recoveryScheduleOriginHeight.getD tip) part.1).map Prod.fst).zip fresh = drawn
      at hassigned
    have hfst : drawn.map Prod.fst = (needsResignRows db).filter
        (toAssign (tip - db.run.recoveryScheduleOriginHeight.getD tip)) := by
      rw [← hdrawn,List.map_fst_zip (by
        rw [List.length_map]
        exact (freshRebuildOffsets_length hfresh).ge),← hrows,List.filter_map]
      rfl
    have hwaiting : ∀ part ∈ drawn, part.1 ∈ db.pending.rows ∧ part.1.status = .needsResign := by
      intro part hpart
      have hmem : part.1 ∈ drawn.map Prod.fst := List.mem_map_of_mem hpart
      rw [hfst] at hmem
      exact mem_needsResignRows.mp (List.mem_filter.mp hmem).1
    have hnodup : (drawn.map fun part => part.1.txid).Nodup := by
      have hsublist := (List.filter_sublist (p := toAssign (tip -
        db.run.recoveryScheduleOriginHeight.getD tip)) (l := needsResignRows db)).map PendingTx.txid
      rw [← hfst,List.map_map] at hsublist
      exact (needsResignRows_nodup db).sublist hsublist
    obtain ⟨rfl,hnext⟩ := assignRebuildOffsets_spec hnodup hwaiting hassigned
    refine .inr ⟨base,(drawn.map fun part => base + part.2).foldl max base,drawn,_,rfl,
      fun hnone => hnonempty (List.isEmpty_iff.mpr hnone),parts_isSome hparts,rfl,hbase,⟨hfst,hnext⟩,rfl,rfl,?_⟩
    rw [RunState.setRun_run,assignRebuildOffsets_run hassigned,List.map_map]
    rfl

/-- The origin and the maximum are set together, and no offset lies above the maximum. -/
structure OnLadder (db : RunState) : Prop where
  complete : db.run.recoveryScheduleOriginHeight = none ↔
    db.run.recoveryScheduleMaxBlockOffset = none
  below : ∀ row ∈ db.pending.rows, ∀ offset, row.rebuildBlockOffset = some offset →
    ∃ maximum, db.run.recoveryScheduleMaxBlockOffset = some maximum ∧ offset ≤ maximum

theorem observedMaxOffset_le {maximum : Nat}
    (h : ∀ row ∈ rows, ∀ offset, row.rebuildBlockOffset = some offset → offset ≤ maximum) :
    observedMaxOffset rows ≤ maximum := by
  refine foldl_max_le_iff.mpr ⟨Nat.zero_le _,fun offset hoffset => ?_⟩
  obtain ⟨row,hrow,hoffset⟩ := List.mem_filterMap.mp hoffset
  exact h row hrow offset hoffset

theorem OnLadder.recoveryBaseOffset (h : OnLadder db) (elapsedCursor : Nat) :
    recoveryBaseOffset db.run (needsResignRows db) elapsedCursor =
      .ok (max (db.run.recoveryScheduleMaxBlockOffset.getD 0) elapsedCursor) := by
  unfold Store.recoveryBaseOffset
  cases hmax : db.run.recoveryScheduleMaxBlockOffset with
  | none =>
    have hnone : ∀ row ∈ needsResignRows db, row.rebuildBlockOffset = none := by
      intro row hrow
      rw [Option.eq_none_iff_forall_ne_some]
      intro offset hoffset
      obtain ⟨_,hsome,_⟩ := h.below row (mem_needsResignRows.mp hrow).1 offset hoffset
      rw [hmax] at hsome
      cases hsome
    have hany : ((needsResignRows db).any fun row => row.rebuildBlockOffset.isSome) = false := by
      rw [List.any_eq_false]
      intro row hrow
      rw [hnone row hrow]
      exact Bool.false_ne_true
    have hobserved : observedMaxOffset (needsResignRows db) = 0 := by
      refine Nat.le_zero.mp (observedMaxOffset_le fun row hrow offset hoffset => ?_)
      rw [hnone row hrow] at hoffset
      cases hoffset
    rw [h.complete.mpr hmax,hany,hobserved]
    rfl
  | some maximum =>
    have horigin : db.run.recoveryScheduleOriginHeight.isNone = false := by
      rw [Bool.eq_false_iff]
      intro hnone
      rw [h.complete.mp (Option.isNone_iff_eq_none.mp hnone)] at hmax
      cases hmax
    have hobserved : observedMaxOffset (needsResignRows db) ≤ maximum := by
      refine observedMaxOffset_le fun row hrow offset hoffset => ?_
      obtain ⟨_,hsome,hle⟩ := h.below row (mem_needsResignRows.mp hrow).1 offset hoffset
      rw [hmax,Option.some.injEq] at hsome
      exact hsome ▸ hle
    rw [horigin,Bool.false_and,if_neg Bool.false_ne_true]
    exact if_pos hobserved

namespace LadderCall

variable {tip base maximum : Nat} {drawn : List (PendingTx × Nat)}
  {generation : RebuildScheduleGeneration}

theorem base_eq (h : LadderCall tip base maximum drawn generation db db') (hdb : OnLadder db) :
    base = max (db.run.recoveryScheduleMaxBlockOffset.getD 0) (tip - generation.originHeight) :=
  Except.ok.inj (h.baseOffset.symm.trans (hdb.recoveryBaseOffset _))

theorem base_le (h : LadderCall tip base maximum drawn generation db db') : base ≤ maximum :=
  h.maximum_eq ▸ (foldl_max_le_iff.mp le_rfl).1

theorem drawn_le (h : LadderCall tip base maximum drawn generation db db') {part : PendingTx × Nat}
    (hpart : part ∈ drawn) : base + part.2 ≤ maximum :=
  h.maximum_eq ▸ (foldl_max_le_iff.mp le_rfl).2 _ (List.mem_map_of_mem hpart)

theorem max_le (h : LadderCall tip base maximum drawn generation db db') (hdb : OnLadder db)
    {before : Nat} (hbefore : db.run.recoveryScheduleMaxBlockOffset = some before) :
    before ≤ base := by
  rw [h.base_eq hdb,hbefore]
  exact le_max_left _ _

theorem onLadder (h : LadderCall tip base maximum drawn generation db db') (hdb : OnLadder db) :
    OnLadder db' where
  complete := by
    rw [h.run]
    exact iff_of_false (Option.some_ne_none _) (Option.some_ne_none _)
  below := by
    intro row hrow offset hoffset
    refine ⟨maximum,by rw [h.run],?_⟩
    rcases (h.drawnRows.rows row).mp hrow with ⟨hold,_⟩ | ⟨part,hpart,rfl⟩
    · obtain ⟨before,hbefore,hle⟩ := hdb.below row hold offset hoffset
      exact hle.trans ((h.max_le hdb hbefore).trans h.base_le)
    · cases hoffset
      exact h.drawn_le hpart

end LadderCall

/-- The recovery columns of the run stay as they are. -/
structure SameRecovery (db db' : RunState) : Prop where
  origin : db'.run.recoveryScheduleOriginHeight = db.run.recoveryScheduleOriginHeight
  maximum : db'.run.recoveryScheduleMaxBlockOffset = db.run.recoveryScheduleMaxBlockOffset

namespace SameRecovery

theorem refl (db : RunState) : SameRecovery db db := ⟨rfl,rfl⟩

theorem trans {a b c : RunState} (h : SameRecovery a b) (h' : SameRecovery b c) :
    SameRecovery a c :=
  ⟨h'.origin.trans h.origin,h'.maximum.trans h.maximum⟩

theorem of_run (h : db'.run = db.run) : SameRecovery db db' := ⟨by rw [h],by rw [h]⟩

theorem of_phase (h : ∃ phase lastError, db'.run = { db.run with phase, lastError }) :
    SameRecovery db db' := by
  obtain ⟨_,_,h⟩ := h
  exact ⟨by rw [h],by rw [h]⟩

theorem setPhase (db : RunState) (phase : Phase) (lastError : Option String) :
    SameRecovery db (db.setPhase phase lastError) :=
  ⟨rfl,rfl⟩

end SameRecovery

theorem insertScheduledPendingTxs_run {key : PayloadKey}
    {scheduled : List (PendingMigrationTxInsert × Nat)}
    (h : insertScheduledPendingTxs key scheduled db = .ok db') : db'.run = db.run := by
  induction scheduled generalizing db with
  | nil =>
    cases h
    rfl
  | cons first rest ih =>
    obtain ⟨pending,origin⟩ := first
    rw [insertScheduledPendingTxs] at h
    obtain ⟨_,_,h⟩ := bind_ok h
    obtain ⟨next,hnext,h⟩ := bind_ok h
    obtain ⟨_,rfl,_⟩ := insertPendingRow_ok hnext
    have hrun := ih h
    exact hrun

variable {key : StoreResult PayloadKey}

theorem insertPendingTxs_sameRecovery {pendingTxs : List PendingMigrationTxInsert}
    (h : insertPendingTxs rng key pendingTxs db = .ok db') : SameRecovery db db' := by
  unfold insertPendingTxs at h
  obtain ⟨_,_,h⟩ := bind_ok h
  obtain ⟨⟨_,_⟩,_,h⟩ := bind_ok h
  obtain ⟨_,_,h⟩ := bind_ok h
  obtain ⟨inserted,hinserted,h⟩ := bind_ok h
  cases h
  have hschedule : SameRecovery db (db.setRun (ensureApprovedSchedule rng)) := by
    unfold ensureApprovedSchedule RunState.setRun
    dsimp only
    split
    · exact ⟨rfl,rfl⟩
    · exact ⟨rfl,rfl⟩
  have hrows := SameRecovery.of_run (insertScheduledPendingTxs_run hinserted)
  exact (hschedule.trans hrows).trans ⟨rfl,rfl⟩

theorem promote_sameRecovery {pendingTxs : List PendingMigrationTxInsert} {scanned retry : Nat}
    (h : promoteSignedChildPcztsToPendingTxs rng key pendingTxs scanned retry db = .ok db') :
    SameRecovery db db' := by
  unfold promoteSignedChildPcztsToPendingTxs at h
  split at h
  · cases h
    exact .refl _
  · split at h
    · cases h
    · obtain ⟨⟨_,rebased⟩,hrebased,h⟩ := bind_ok h
      obtain ⟨_,_,h⟩ := bind_ok h
      obtain ⟨inserted,hinserted,h⟩ := bind_ok h
      cases h
      obtain ⟨_,_,_,hrun⟩ := rebaseInitialSignedSchedule_keeps hrebased
      have hrebase : SameRecovery db rebased := ⟨by rw [hrun],by rw [hrun]⟩
      exact (hrebase.trans (insertPendingTxs_sameRecovery hinserted)).trans ⟨rfl,rfl⟩

theorem persistSignedChildPczts_sameRecovery {children : List SignedMigrationPcztInsert}
    (h : persistSignedChildPczts key children db = .ok db') : SameRecovery db db' := by
  unfold persistSignedChildPczts at h
  split at h
  · cases h
  · obtain ⟨stored,hstored,h⟩ := bind_ok h
    obtain ⟨_,_,horigin,hmaximum⟩ := insertSignedChildPczts_keeps hstored
    split at h
    · cases h
      exact ⟨horigin,hmaximum⟩
    · cases h

theorem commitReschedule_sameRecovery {tip minimum : Nat} {overdue : List (TxidHex × Nat)}
    (h : commitReschedule rng network tip minimum overdue db = .ok db') : SameRecovery db db' := by
  unfold commitReschedule at h
  split at h
  · cases h
    exact .refl _
  · obtain ⟨⟨redrawn,crossed⟩,hredrawn,h⟩ := bind_ok h
    have hsame := SameRecovery.of_run (redrawPendingTxs_crossed hredrawn).1
    cases h
    split
    · exact hsame.trans (.setPhase _ _ _)
    · exact hsame

theorem resumeMaterialization_sameRecovery (db : RunState) :
    SameRecovery db (resumeMaterialization db) := by
  unfold resumeMaterialization
  split
  · exact .setPhase _ _ _
  · exact .refl db

theorem reconcileRunConfirmations_sameRecovery (chain : ChainView) (db : RunState) :
    SameRecovery db (reconcileRunConfirmations chain db) := by
  have hrows : SameRecovery db (reconcileRows chain db) := by
    unfold reconcileRows
    dsimp only
    split
    · exact .refl db
    · split
      · exact ⟨rfl,rfl⟩
      · exact ⟨rfl,rfl⟩
  have hcomplete : ∀ unpromotedCount next,
      SameRecovery next (completeConfirmedRun chain unpromotedCount next) := by
    intro unpromotedCount next
    unfold completeConfirmedRun completeRun
    dsimp only
    split
    · exact .refl next
    · split
      · exact resumeMaterialization_sameRecovery next
      · split
        · split
          · exact .refl next
          · exact ⟨rfl,rfl⟩
        · exact .refl next
  unfold reconcileRunConfirmations
  dsimp only
  refine SameRecovery.trans ?_ (hcomplete _ _)
  split
  · exact hrows.trans (resumeMaterialization_sameRecovery _)
  · exact hrows

theorem markForResign_sameRecovery (p : PendingTx → Bool) (phase : Phase)
    (lastError : Option String) (db : RunState) : SameRecovery db
      (if 0 < db.pending.count p then (db.setStatus p .needsResign).setPhase phase lastError
        else db) := by
  split
  · exact ⟨rfl,rfl⟩
  · exact .refl db

theorem resetMigrationChildren_sameRecovery (chain : ChainView) (txids : List TxidHex)
    (db : RunState) :
    SameRecovery db (resetMigrationChildrenForReorgedDenominations chain txids db).2 := by
  unfold resetMigrationChildrenForReorgedDenominations
  split
  · exact .refl db
  · rw [resetDenomination_foldl]
    dsimp only
    split
    · exact ⟨rfl,rfl⟩
    · exact ⟨rfl,rfl⟩

/-- A stopped run retires its ladder. -/
def KeepsLadder (op : Operation) (_ : RunState) : Prop :=
  ∀ accountUuid network, op ≠ .abandonRun accountUuid network

theorem Operation.apply_sameRecovery {op : Operation} (hdraws : op.drawsOffsets = false)
    (hkeeps : KeepsLadder op db) (h : op.apply db = .ok db') : SameRecovery db db' := by
  cases op with
  | ensureRebuildScheduleGeneration rng network candidate => cases hdraws
  | abandonRun accountUuid network => exact absurd rfl (hkeeps accountUuid network)
  | insertPendingTxs rng key pendingTxs => exact insertPendingTxs_sameRecovery h
  | persistSignedChildPczts key signedChildren => exact persistSignedChildPczts_sameRecovery h
  | promoteSignedChildPczts rng key pendingTxs scanned retry => exact promote_sameRecovery h
  | replaceResignedPendingParts key replacements signedChildren =>
    obtain ⟨_,horigin,hmaximum⟩ := replaceResignedPendingParts_ok h
    exact ⟨horigin,hmaximum⟩
  | rescheduleOverduePendingTxs rng network tip minimum excluded =>
    exact commitReschedule_sameRecovery h
  | applyAcceptedMigrationOutboxReceipt receipt => exact .of_phase (receipt_run h)
  | reconcileRunConfirmations chain =>
    cases h
    exact reconcileRunConfirmations_sameRecovery chain db
  | markExpiredPendingPartsForResign chain tip =>
    cases h
    exact (reconcileRunConfirmations_sameRecovery chain db).trans
      (markForResign_sameRecovery _ _ _ _)
  | markDuePartsForResign chain tip =>
    obtain ⟨_,_,h⟩ := bind_ok h
    cases h
    exact (reconcileRunConfirmations_sameRecovery chain db).trans
      (markForResign_sameRecovery _ _ _ _)
  | markPendingBroadcasted txid =>
    cases h
    have hphase := updateRunAfterPendingBroadcast_run
      (db.setStatus (fun row => decide (row.txid = txid)) .broadcasted)
    exact .of_phase hphase
  | resetMigrationChildren chain txids =>
    cases h
    exact resetMigrationChildren_sameRecovery chain txids db
  | markRunPhase phase message =>
    cases h
    exact .setPhase _ _ _
  | retireRunForRebuild message =>
    cases h
    exact ⟨rfl,rfl⟩

/-- What a step may do to the ladder of a run: the origin is kept once set, and the maximum does not
fall. -/
structure LadderStep (db db' : RunState) : Prop where
  onLadder : OnLadder db → OnLadder db'
  origin : ∀ origin, db.run.recoveryScheduleOriginHeight = some origin →
    db'.run.recoveryScheduleOriginHeight = some origin
  maximum : OnLadder db → ∀ before, db.run.recoveryScheduleMaxBlockOffset = some before →
    ∃ after, db'.run.recoveryScheduleMaxBlockOffset = some after ∧ before ≤ after

theorem RowsStep.onLadder {lost : PendingTx → Prop} (h : RowsStep lost db db')
    (hsame : SameRecovery db db') (hdb : OnLadder db) : OnLadder db' where
  complete := by
    rw [hsame.origin,hsame.maximum]
    exact hdb.complete
  below := by
    intro row hrow offset hoffset
    rw [hsame.maximum]
    rcases h row hrow with hinserted | ⟨old,hold,hstep⟩
    · rw [hinserted.offset] at hoffset
      cases hoffset
    · exact hdb.below old hold offset (hstep.offset ▸ hoffset)

theorem ensureRebuildScheduleGeneration_ladderStep {tip : Nat}
    {result : Option RebuildScheduleGeneration}
    (h : ensureRebuildScheduleGeneration rng network tip db = .ok (result, db')) :
    LadderStep db db' := by
  rcases ensureRebuildScheduleGeneration_ok h with
    ⟨_,_,rfl⟩ | ⟨base,maximum,drawn,generation,_,hcall⟩
  · exact ⟨id,fun _ horigin => horigin,fun _ before hbefore => ⟨before,hbefore,le_rfl⟩⟩
  · refine ⟨hcall.onLadder,fun origin horigin => ?_,fun hdb before hbefore => ⟨maximum,?_,?_⟩⟩
    · rw [hcall.run,hcall.originHeight,horigin]
      rfl
    · rw [hcall.run]
    · exact (hcall.max_le hdb hbefore).trans hcall.base_le

theorem Operation.apply_ladderStep {op : Operation} (hkeeps : KeepsLadder op db)
    (h : op.apply db = .ok db') : LadderStep db db' := by
  cases hdraws : op.drawsOffsets with
  | false =>
    have hsame := Operation.apply_sameRecovery hdraws hkeeps h
    have hrows : RowsStep (op.loses db) db db' := by
      refine (Operation.apply_rows h).resolve_right fun hoffsets => ?_
      rw [hdraws] at hoffsets
      cases hoffsets.1
    refine ⟨hrows.onLadder hsame,fun origin horigin => ?_,fun _ before hbefore => ⟨before,?_,le_rfl⟩⟩
    · rw [hsame.origin,horigin]
    · rw [hsame.maximum,hbefore]
  | true =>
    cases op with
    | ensureRebuildScheduleGeneration rng network candidate =>
      obtain ⟨⟨_,_⟩,hensure,rfl⟩ := map_ok h
      exact ensureRebuildScheduleGeneration_ladderStep hensure
    | _ => cases hdraws

theorem assignRebuildOffsets_error {base : Nat} {e : String}
    (h : assignRebuildOffsets base parts db = .error e) :
    e = "Migration rebuild schedule offset overflow" := by
  induction parts generalizing db with
  | nil => cases h
  | cons part parts ih =>
    obtain ⟨row,fresh⟩ := part
    rw [assignRebuildOffsets] at h
    rcases bind_error h with hoverflow | ⟨_,_,h⟩
    · exact okOr_error hoverflow
    · rcases bind_error h with hrest | ⟨_,_,h⟩
      · exact ih hrest
      · cases h

theorem ensureRebuildScheduleGeneration_error {tip : Nat} {e : String} (hdb : OnLadder db)
    (h : ensureRebuildScheduleGeneration rng network tip db = .error e) :
    e ≠ recoveryMetadataIncomplete ∧ e ≠ recoveryMaximumBelowOffset := by
  unfold ensureRebuildScheduleGeneration at h
  dsimp only at h
  split at h
  · cases h
  rcases bind_error h with hparts | ⟨_,_,h⟩
  · obtain ⟨row,_,hrow⟩ := mapM_error hparts
    rcases bind_error hrow with hindex | ⟨_,_,hrow⟩
    · exact okOr_error hindex ▸ ⟨by decide,by decide⟩
    · cases hrow
  rcases bind_error h with hbase | ⟨_,_,h⟩
  · rw [hdb.recoveryBaseOffset] at hbase
    cases hbase
  rcases bind_error h with hfresh | ⟨_,_,h⟩
  · unfold freshRebuildOffsets rebuildScheduleBlockOffsets at hfresh
    split at hfresh
    · cases hfresh
    · rcases bind_error hfresh with hmissing | ⟨_,_,hfresh⟩
      · obtain ⟨part,_,hpart⟩ := mapM_error hmissing
        exact okOr_error hpart ▸ ⟨by decide,by decide⟩
      · cases hfresh
  rcases bind_error h with hassign | ⟨_,_,h⟩
  · exact assignRebuildOffsets_error hassign ▸ ⟨by decide,by decide⟩
  · cases h

/-- What the ladder promises of a call that finds waiting rows. -/
structure ClimbsLadder (tip : Nat) (generation : RebuildScheduleGeneration) (db db' : RunState) :
    Prop where
  origin : db'.run.recoveryScheduleOriginHeight = some generation.originHeight
  covered : ∀ row ∈ db.pending.rows, row.status = .needsResign →
    ∃ offset, (lower row.txid.text, offset) ∈ generation.offsetsByTxid
  ahead : ∀ entry ∈ generation.offsetsByTxid, tip ≤ generation.originHeight + entry.2
  above : ∀ row ∈ db.pending.rows, ∀ offset,
    (lower row.txid.text, offset) ∈ generation.offsetsByTxid →
    row.rebuildBlockOffset = some offset ∨
    ∀ before, db.run.recoveryScheduleMaxBlockOffset = some before → before ≤ offset
  again : ∀ rng network, ∃ same,
    ensureRebuildScheduleGeneration rng network tip db' = .ok (some same, db') ∧
    same.originHeight = generation.originHeight ∧
    ∀ entry, entry ∈ same.offsetsByTxid ↔ entry ∈ generation.offsetsByTxid

theorem ensureRebuildScheduleGeneration_settled (rng : Rng) (network : WalletNetwork) {tip : Nat}
    {origin : Nat} (hdb : OnLadder db) (horigin : db.run.recoveryScheduleOriginHeight = some origin)
    (hparts : ∀ row ∈ needsResignRows db, row.partIndex.isSome = true)
    (hkept : ∀ row ∈ needsResignRows db, toAssign (tip - origin) row = false)
    (hsome : needsResignRows db ≠ []) :
    ensureRebuildScheduleGeneration rng network tip db =
      .ok (some ⟨origin,keptOffsets (tip - origin) (needsResignRows db)⟩, db) := by
  obtain ⟨maximum,hmaximum,helapsed⟩ : ∃ maximum,
      db.run.recoveryScheduleMaxBlockOffset = some maximum ∧ tip - origin ≤ maximum := by
    obtain ⟨row,hrow⟩ := List.exists_mem_of_ne_nil _ hsome
    obtain ⟨offset,hoffset,hle⟩ := toAssign_eq_false.mp (hkept row hrow)
    obtain ⟨maximum,hmaximum,hbelow⟩ :=
      hdb.below row (mem_needsResignRows.mp hrow).1 offset hoffset
    exact ⟨maximum,hmaximum,hle.trans hbelow⟩
  have hread : ((needsResignRows db).mapM fun row => do
      let partIndex ← okOr row.partIndex
        "Migration part waiting for re-sign is missing its part index"
      return (row, partIndex)) =
      .ok ((needsResignRows db).map fun row => (row, row.partIndex.getD 0)) := by
    refine mapM_pure fun row hrow => ?_
    obtain ⟨partIndex,hindex⟩ := Option.isSome_iff_exists.mp (hparts row hrow)
    rw [hindex]
    rfl
  have hnone : (((needsResignRows db).map fun row => (row, row.partIndex.getD 0)).filter
      fun part => toAssign (tip - origin) part.1) = [] := by
    rw [List.filter_eq_nil_iff]
    rintro _ hpart
    obtain ⟨row,hrow,rfl⟩ := List.mem_map.mp hpart
    simp [hkept row hrow]
  have hbase : max (db.run.recoveryScheduleMaxBlockOffset.getD 0) (tip - origin) = maximum := by
    rw [hmaximum]
    exact max_eq_left helapsed
  have hsame : db.setRun (fun run =>
      { run with
        recoveryScheduleOriginHeight := some origin
        recoveryScheduleMaxBlockOffset := some maximum }) = db := by
    rw [RunState.setRun,← horigin,← hmaximum]
  unfold ensureRebuildScheduleGeneration
  dsimp only
  rw [if_neg (by rwa [List.isEmpty_iff]),horigin,Option.getD_some,hread,hdb.recoveryBaseOffset,hbase]
  simp only [bind,Except.bind,hnone,freshRebuildOffsets,List.isEmpty_nil,if_true,List.map_nil,
    List.zip_nil_left,assignRebuildOffsets,List.foldl_nil,hsame,List.append_nil]
  rfl

theorem LadderCall.climbs {tip base maximum : Nat} {drawn : List (PendingTx × Nat)}
    {generation : RebuildScheduleGeneration}
    (h : LadderCall tip base maximum drawn generation db db') (hdb : OnLadder db) :
    ClimbsLadder tip generation db db' := by
  have hbase : tip - generation.originHeight ≤ base := by
    rw [h.base_eq hdb]
    exact le_max_right _ _
  have hwaiting : ∀ row ∈ db'.pending.rows, row.status = .needsResign →
      toAssign (tip - generation.originHeight) row = false := by
    intro row hrow hstatus
    rcases h.drawnRows.cases hrow hstatus with ⟨_,hkept⟩ | ⟨part,_,rfl⟩
    · exact hkept
    · exact toAssign_eq_false.mpr ⟨base + part.2,rfl,hbase.trans (Nat.le_add_right _ _)⟩
  have horigin : db'.run.recoveryScheduleOriginHeight = some generation.originHeight := by
    rw [h.run]
  have hcovered : ∀ row ∈ db.pending.rows, row.status = .needsResign →
      ∃ offset, (lower row.txid.text, offset) ∈ generation.offsetsByTxid := by
    intro row hrow hstatus
    rw [h.offsets]
    cases hassign : toAssign (tip - generation.originHeight) row with
    | false =>
      obtain ⟨offset,hoffset,_⟩ := toAssign_eq_false.mp hassign
      exact ⟨offset,h.drawnRows.mem_offsets.mpr
        ⟨row,h.drawnRows.kept hrow hassign,hstatus,rfl,hoffset⟩⟩
    | true =>
      have hmem : row ∈ drawn.map Prod.fst := by
        rw [h.drawnRows.parts,List.mem_filter,mem_needsResignRows]
        exact ⟨⟨hrow,hstatus⟩,hassign⟩
      obtain ⟨part,hpart,rfl⟩ := List.mem_map.mp hmem
      exact ⟨base + part.2,List.mem_append_right _ (List.mem_map_of_mem hpart)⟩
  refine ⟨horigin,hcovered,?_,?_,fun rng network => ?_⟩
  · intro entry hentry
    rw [h.offsets,h.drawnRows.mem_offsets] at hentry
    obtain ⟨row,hrow,hstatus,_,hoffset⟩ := hentry
    obtain ⟨offset,hoffset',hle⟩ := toAssign_eq_false.mp (hwaiting row hrow hstatus)
    rw [hoffset,Option.some.injEq] at hoffset'
    omega
  · intro row hrow offset hentry
    rw [h.offsets,List.mem_append] at hentry
    rcases hentry with hkept | hdrawn
    · obtain ⟨same,hsame,_,hid,hoffset⟩ := mem_keptOffsets.mp hkept
      have hkey := TxidHex.eq_of_lower hid
      rw [db.pending.eq_of_key hrow (mem_needsResignRows.mp hsame).1 hkey]
      exact .inl hoffset
    · obtain ⟨part,_,hpart⟩ := List.mem_map.mp hdrawn
      rw [Prod.mk.injEq] at hpart
      obtain ⟨_,rfl⟩ := hpart
      exact .inr fun before hbefore => (h.max_le hdb hbefore).trans (Nat.le_add_right _ _)
  · have hsome : needsResignRows db' ≠ [] := by
      obtain ⟨row,hrow⟩ := List.exists_mem_of_ne_nil _ h.waiting
      obtain ⟨hmem,hstatus⟩ := mem_needsResignRows.mp hrow
      obtain ⟨offset,hentry⟩ := hcovered row hmem hstatus
      rw [h.offsets,h.drawnRows.mem_offsets] at hentry
      obtain ⟨after,hafter,hafterStatus,_⟩ := hentry
      exact List.ne_nil_of_mem (mem_needsResignRows.mpr ⟨hafter,hafterStatus⟩)
    have hparts : ∀ row ∈ needsResignRows db', row.partIndex.isSome = true := by
      intro row hrow
      obtain ⟨hmem,hstatus⟩ := mem_needsResignRows.mp hrow
      rcases h.drawnRows.cases hmem hstatus with ⟨hold,_⟩ | ⟨part,hpart,rfl⟩
      · exact h.partIndexes row (mem_needsResignRows.mpr ⟨hold,hstatus⟩)
      · obtain ⟨hold,hwaits,_⟩ := h.drawnRows.mem_drawn hpart
        exact h.partIndexes part.1 (mem_needsResignRows.mpr ⟨hold,hwaits⟩)
    have hkept : ∀ row ∈ needsResignRows db',
        toAssign (tip - generation.originHeight) row = false := by
      intro row hrow
      obtain ⟨hmem,hstatus⟩ := mem_needsResignRows.mp hrow
      exact hwaiting row hmem hstatus
    refine ⟨_,ensureRebuildScheduleGeneration_settled rng network (h.onLadder hdb) horigin hparts
      hkept hsome,rfl,fun entry => ?_⟩
    rw [h.offsets,h.drawnRows.mem_offsets,mem_keptOffsets]
    constructor
    · rintro ⟨row,hrow,_,hentry⟩
      obtain ⟨hmem,hstatus⟩ := mem_needsResignRows.mp hrow
      exact ⟨row,hmem,hstatus,hentry⟩
    · rintro ⟨row,hmem,hstatus,hentry⟩
      exact ⟨row,mem_needsResignRows.mpr ⟨hmem,hstatus⟩,hwaiting row hmem hstatus,hentry⟩

/-- No recovery was ever scheduled. -/
structure NoRecovery (db : RunState) : Prop where
  origin : db.run.recoveryScheduleOriginHeight = none
  maximum : db.run.recoveryScheduleMaxBlockOffset = none
  rows : ∀ row ∈ db.pending.rows, row.rebuildBlockOffset = none

theorem NoRecovery.onLadder (h : NoRecovery db) : OnLadder db where
  complete := iff_of_true h.origin h.maximum
  below := by
    intro row hrow offset hoffset
    rw [h.rows row hrow] at hoffset
    cases hoffset

theorem guardedRuns_onLadder (hdb : OnLadder db)
    (hruns : GuardedRuns Operation.apply KeepsLadder db db') : OnLadder db' :=
  hruns.invariant (fun _ _ _ hon hkeeps h => (Operation.apply_ladderStep hkeeps h).onLadder hon) hdb

theorem guardedRuns_climb (hdb : OnLadder db)
    (hruns : GuardedRuns Operation.apply KeepsLadder db db') :
    (∀ origin, db.run.recoveryScheduleOriginHeight = some origin →
      db'.run.recoveryScheduleOriginHeight = some origin) ∧
    ∀ before, db.run.recoveryScheduleMaxBlockOffset = some before →
      ∃ after, db'.run.recoveryScheduleMaxBlockOffset = some after ∧ before ≤ after := by
  induction hruns with
  | refl => exact ⟨fun _ horigin => horigin,fun before hbefore => ⟨before,hbefore,le_rfl⟩⟩
  | tail op hearlier hkeeps happly ih =>
    have hstep := Operation.apply_ladderStep hkeeps happly
    refine ⟨fun origin horigin => hstep.origin origin (ih.1 origin horigin),?_⟩
    intro before hbefore
    obtain ⟨middle,hmiddle,hle⟩ := ih.2 before hbefore
    obtain ⟨after,hafter,hle'⟩ := hstep.maximum (guardedRuns_onLadder hdb hearlier) middle hmiddle
    exact ⟨after,hafter,hle.trans hle'⟩

theorem replacementScheduleStartHeight_error {pending : PendingMigrationTxInsert} {e : String}
    (hdb : OnLadder db) (hrow : row ∈ db.pending.rows) (hoffset : row.rebuildBlockOffset ≠ none)
    (h : replacementScheduleStartHeight db.run.recoveryScheduleOriginHeight row.rebuildBlockOffset
      pending = .error e) : e ≠ recoveryMetadataIncomplete := by
  obtain ⟨offset,hsome⟩ := Option.ne_none_iff_exists'.mp hoffset
  obtain ⟨_,hmaximum,_⟩ := hdb.below row hrow offset hsome
  obtain ⟨origin,horigin⟩ := Option.ne_none_iff_exists'.mp fun hnone => by
    rw [hdb.complete.mp hnone] at hmaximum
    cases hmaximum
  rw [hsome,horigin] at h
  rcases bind_error h with hoverflow | ⟨_,_,h⟩
  · exact okOr_error hoverflow ▸ by decide
  · split at h
    · cases h
      decide
    · cases h

/-- What a run keeps of its ladder from an earlier state to a later one. -/
structure KeepsClimbing (earlier later : RunState) : Prop where
  origin : ∀ origin, earlier.run.recoveryScheduleOriginHeight = some origin →
    later.run.recoveryScheduleOriginHeight = some origin
  maximum : ∀ before, earlier.run.recoveryScheduleMaxBlockOffset = some before →
    ∃ after, later.run.recoveryScheduleMaxBlockOffset = some after ∧ before ≤ after
  onLadder : OnLadder later
  metadata : ∀ rng network tip e,
    ensureRebuildScheduleGeneration rng network tip later = .error e →
      e ≠ recoveryMetadataIncomplete ∧ e ≠ recoveryMaximumBelowOffset
  replaceable : ∀ row ∈ later.pending.rows, row.rebuildBlockOffset ≠ none → ∀ pending e,
    replacementScheduleStartHeight later.run.recoveryScheduleOriginHeight row.rebuildBlockOffset
      pending = .error e → e ≠ recoveryMetadataIncomplete
  idle : ∀ rng network tip done,
    ensureRebuildScheduleGeneration rng network tip later = .ok (none, done) →
      (∀ row ∈ later.pending.rows, row.status ≠ .needsResign) ∧ done = later
  climbs : ∀ rng network tip generation done,
    ensureRebuildScheduleGeneration rng network tip later = .ok (some generation, done) →
      ClimbsLadder tip generation later done

/-- In every run that was not stopped, from any earlier state on: the origin is kept, the maximum
does not fall and bounds every offset, no call fails for its metadata, and a call that finds waiting
rows puts them all ahead of the chain, the fresh ones above every earlier maximum. -/
theorem recoveryLadder_climbs {start earlier later : RunState} (hstart : NoRecovery start)
    (hearlier : GuardedRuns Operation.apply KeepsLadder start earlier)
    (hlater : GuardedRuns Operation.apply KeepsLadder earlier later) :
    KeepsClimbing earlier later := by
  have hon := guardedRuns_onLadder hstart.onLadder hearlier
  have hlaterOn := guardedRuns_onLadder hon hlater
  obtain ⟨horigin,hmaximum⟩ := guardedRuns_climb hon hlater
  refine ⟨horigin,hmaximum,hlaterOn,fun _ _ _ _ h => ensureRebuildScheduleGeneration_error hlaterOn h,
    fun _ hrow hoffset _ _ h => replacementScheduleStartHeight_error hlaterOn hrow hoffset h,
    fun rng network tip done h => ?_,fun rng network tip generation done h => ?_⟩
  · rcases ensureRebuildScheduleGeneration_ok h with ⟨hnone,_,rfl⟩ | ⟨_,_,_,_,habsurd,_⟩
    · refine ⟨fun row hrow hstatus => ?_,rfl⟩
      have hmem := mem_needsResignRows.mpr ⟨hrow,hstatus⟩
      rw [hnone] at hmem
      cases hmem
    · cases habsurd
  · rcases ensureRebuildScheduleGeneration_ok h with ⟨_,habsurd,_⟩ | ⟨_,_,_,_,hsame,hcall⟩
    · cases habsurd
    · cases hsame
      exact hcall.climbs hlaterOn

def expiredRun : RunState :=
  let run : Run :=
    { accountUuid := []
      network := .test
      phase := .readyToMigrate
      targetValues := [1000000]
      schedule := [⟨some 0,1000000,5⟩] }
  { RunState.created run with
    pending := ⟨[{ childOf splitTxid with status := .needsResign }],by decide⟩ }

theorem expiredRun_climbs : ∃ rescheduled,
    GuardedRuns Operation.apply KeepsLadder expiredRun rescheduled ∧
    KeepsClimbing rescheduled rescheduled := by
  obtain ⟨rescheduled,h⟩ : ∃ rescheduled, Operation.apply
      (.ensureRebuildScheduleGeneration default .test 150) expiredRun = .ok rescheduled := ⟨_,rfl⟩
  have hkeeps : KeepsLadder (.ensureRebuildScheduleGeneration default .test 150) expiredRun :=
    fun _ _ => nofun
  have hruns := (GuardedRuns.refl expiredRun).tail _ hkeeps h
  exact ⟨rescheduled,hruns,recoveryLadder_climbs ⟨rfl,rfl,by decide⟩ hruns (.refl rescheduled)⟩

end CoppiceWallet.Store
