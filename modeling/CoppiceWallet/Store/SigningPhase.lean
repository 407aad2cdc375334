import CoppiceWallet.Store.TerminalPhase

/-! # Parts that wait for a signature -/

namespace CoppiceWallet.Store

open CoppiceWallet.Lib

def AwaitsSignature (db : RunState) : Prop :=
  ∃ row ∈ db.pending.rows, row.status = .needsResign

/-- The phases of an active run in which the wallet asks for signatures, and those of a run that was
stopped. -/
def asksForSignatures : Phase → Bool
  | .readyToMigrate => true
  | .waitingDenomConfirmations => true
  | .failedTerminal => true
  | .abandoned => true
  | _ => false

def SigningPhase (db : RunState) : Prop :=
  AwaitsSignature db → asksForSignatures db.run.phase = true

variable {db db' : RunState}

theorem SigningPhase.of_none (h : ¬ AwaitsSignature db) : SigningPhase db :=
  fun hawaits => absurd hawaits h

theorem SigningPhase.of_phase {phase : Phase} (h : db.run.phase = phase)
    (hphase : asksForSignatures phase = true) : SigningPhase db :=
  fun _ => h ▸ hphase

theorem SigningPhase.of_same (h : SigningPhase db) (hphase : db'.run.phase = db.run.phase)
    (hawaits : AwaitsSignature db' → AwaitsSignature db) : SigningPhase db' :=
  fun hdb' => by
    rw [hphase]
    exact h (hawaits hdb')

theorem signingPhase_iff_none {phase : Phase} (h : db.run.phase = phase)
    (hphase : asksForSignatures phase = false) : SigningPhase db ↔ ¬ AwaitsSignature db := by
  refine ⟨fun hsigning hawaits => ?_,.of_none⟩
  have hasks := hsigning hawaits
  rw [h,hphase] at hasks
  cases hasks

theorem awaitsSignature_of_eq (h : db'.pending = db.pending) :
    AwaitsSignature db' ↔ AwaitsSignature db := by
  rw [AwaitsSignature,h,AwaitsSignature]

theorem awaitsSignature_count :
    0 < db.countPendingWithStatus .needsResign ↔ AwaitsSignature db := by
  rw [RunState.countPendingWithStatus,Table.count,List.countP_pos_iff]
  exact exists_congr fun row => and_congr_right fun _ => decide_eq_true_iff

/-- A reconciliation that takes a confirmed part back for broadcast. -/
def TakesBack (chain : ChainView) (db : RunState) : Prop :=
  db.isTerminal = false ∧ ∃ row ∈ db.pending.rows, unmined chain row = true

def Operation.KeepsSigningPhase : Operation → RunState → Prop
  | insertPendingTxs .., db => ¬ AwaitsSignature db
  | promoteSignedChildPczts _ _ pendingTxs _ _, db => pendingTxs = [] ∨ ¬ AwaitsSignature db
  | replaceResignedPendingParts _ replacements _, db =>
    replacements = [] ∨ ∀ row ∈ db.pending.rows, row.status = .needsResign →
      ∃ r ∈ replacements, r.oldTxid = row.txid
  | reconcileRunConfirmations chain, db => TakesBack chain db → ¬ AwaitsSignature db
  | markExpiredPendingPartsForResign chain chainTipHeight, db =>
    TakesBack chain db → AwaitsSignature db → ∃ row ∈ db.pending.rows,
      pendingRowIsExpiredForResign chain chainTipHeight (reconcileRow chain row) = true
  | markDuePartsForResign chain chainTipHeight, db =>
    TakesBack chain db → AwaitsSignature db → ∃ row ∈ db.pending.rows,
      scheduledBy chainTipHeight (reconcileRow chain row) = true ∧
        ¬ CanonicalExpiry chainTipHeight row.expiryHeight
  | markRunPhase phase _, db => asksForSignatures phase = true ∨ ¬ AwaitsSignature db
  | _, _ => True

def ReconcileStatement.KeepsSigningPhase : ReconcileStatement → RunState → Prop
  | markConfirmed _, _ => True
  | rescheduleReorged _, _ => True
  | markBroadcastScheduled, db => db.isTerminal = true ∨ ¬ AwaitsSignature db
  | resumeMaterialization, _ => True
  | completeRun, db => db.isTerminal = true ∨ ¬ AwaitsSignature db

def KeepsSigningPhase : StoreTransaction → RunState → Prop
  | .call op, db => op.KeepsSigningPhase db
  | .reconcileStatement statement, db => statement.KeepsSigningPhase db
  | _, _ => True

theorem updateRunAfterPendingBroadcast_signing (db : RunState) :
    SigningPhase (updateRunAfterPendingBroadcast db) := by
  intro hawaits
  rw [awaitsSignature_of_eq (updateRunAfterPendingBroadcast_pending db)] at hawaits
  rw [updateRunAfterPendingBroadcast,if_pos (awaitsSignature_count.mpr hawaits)]
  rfl

theorem awaitsSignature_updatePending {p : PendingTx → Bool} {f : PendingTx → PendingTx}
    {hf : ∀ r, (f r).txid = r.txid} (h : ∀ r, p r = true → (f r).status ≠ .needsResign) :
    AwaitsSignature (db.updatePending p f hf) → AwaitsSignature db := by
  rintro ⟨row,hrow,hstatus⟩
  obtain ⟨old,hold,rfl⟩ := List.mem_map.mp hrow
  split at hstatus
  · exact absurd hstatus (h old ‹_›)
  · exact ⟨old,hold,hstatus⟩

theorem redrawPendingTxs_signing {tip minimum : Nat} {draws : List ((TxidHex × Nat) × Nat)}
    (h : redrawPendingTxs tip minimum draws db = .ok (db', false)) :
    AwaitsSignature db' → AwaitsSignature db := by
  induction draws generalizing db with
  | nil =>
    cases h
    exact id
  | cons draw draws ih =>
    obtain ⟨⟨txid,expiryHeight⟩,offset⟩ := draw
    rw [redrawPendingTxs] at h
    obtain ⟨scheduledHeight,_,h⟩ := bind_ok h
    obtain ⟨canonicalExpiry,_,h⟩ := bind_ok h
    split at h
    · obtain ⟨⟨next,_⟩,_,h⟩ := bind_ok h
      cases h
    · refine fun hawaits => awaitsSignature_updatePending (fun row hstill => ?_) (ih h hawaits)
      change row.status ≠ .needsResign
      rw [(of_decide_eq_true hstill).2]
      decide

theorem commitReschedule_signing {rng : Rng} {network : WalletNetwork} {tip minimum : Nat}
    {overdue : List (TxidHex × Nat)} (hsigning : SigningPhase db)
    (h : commitReschedule rng network tip minimum overdue db = .ok db') : SigningPhase db' := by
  unfold commitReschedule at h
  split at h
  · cases h
    exact hsigning
  · obtain ⟨⟨redrawn,crossed⟩,hredrawn,h⟩ := bind_ok h
    cases h
    cases crossed with
    | true => exact .of_phase rfl rfl
    | false =>
      have hrun := (redrawPendingTxs_crossed hredrawn).1
      exact hsigning.of_same (congrArg Run.phase hrun) (redrawPendingTxs_signing hredrawn)

theorem applyScheduleUpdate_signing {itemId : Text} {update : MigrationOutboxScheduleUpdate}
    (h : applyScheduleUpdate itemId update db = .ok (db', false)) :
    db'.run = db.run ∧ (AwaitsSignature db' → AwaitsSignature db) := by
  obtain ⟨row,_,h⟩ := bind_ok h
  obtain ⟨canonicalExpiry,_,h⟩ := bind_ok h
  split at h
  · split at h
    · cases h
    · cases h
      refine ⟨rfl,awaitsSignature_updatePending fun r hselected => ?_⟩
      rw [Bool.and_eq_true,decide_eq_true_iff] at hselected
      change r.status ≠ .needsResign
      rw [hselected.2]
      decide
  · split at h
    · cases h
    · cases h
      exact ⟨rfl,id⟩

theorem applyScheduleUpdates_signing {updates : List (Text × MigrationOutboxScheduleUpdate)}
    (h : applyScheduleUpdates updates db = .ok (db', false)) :
    db'.run = db.run ∧ (AwaitsSignature db' → AwaitsSignature db) := by
  induction updates generalizing db with
  | nil =>
    cases h
    exact ⟨rfl,id⟩
  | cons update updates ih =>
    obtain ⟨itemId,update⟩ := update
    rw [applyScheduleUpdates] at h
    obtain ⟨⟨next,crossed⟩,hnext,h⟩ := bind_ok h
    obtain ⟨⟨last,laterCrossed⟩,hlast,h⟩ := bind_ok h
    cases crossed
    · cases laterCrossed
      · cases h
        obtain ⟨hrun,hawaits⟩ := applyScheduleUpdate_signing hnext
        obtain ⟨hrun',hawaits'⟩ := ih hlast
        exact ⟨hrun'.trans hrun,hawaits ∘ hawaits'⟩
      · cases h
    · cases h

theorem receipt_signing {receipt : AcceptedOutboxReceipt} (hsigning : SigningPhase db)
    (h : applyAcceptedMigrationOutboxReceipt receipt db = .ok db') : SigningPhase db' := by
  unfold applyAcceptedMigrationOutboxReceipt at h
  obtain ⟨_,_,h⟩ := bind_ok h
  obtain ⟨accepted,_,h⟩ := bind_ok h
  dsimp only at h
  obtain ⟨_,_,h⟩ := bind_ok h
  split at h
  · cases h
  · obtain ⟨⟨updated,crossed⟩,hupdated,h⟩ := bind_ok h
    cases h
    unfold acceptPendingTx
    split
    · exact updateRunAfterPendingBroadcast_signing _
    · cases crossed with
      | true => exact .of_phase rfl rfl
      | false =>
        obtain ⟨hrun,hawaits⟩ := applyScheduleUpdates_signing hupdated
        exact hsigning.of_same (congrArg Run.phase hrun) hawaits

theorem insertScheduledPendingTxs_rows {key : PayloadKey}
    {scheduled : List (PendingMigrationTxInsert × Nat)}
    (h : insertScheduledPendingTxs key scheduled db = .ok db') :
    ∃ rows, db'.pending.rows = db.pending.rows ++ rows ∧ ∀ row ∈ rows, row.status = .scheduled := by
  induction scheduled generalizing db with
  | nil =>
    cases h
    exact ⟨[],(List.append_nil _).symm,fun _ hrow => nomatch hrow⟩
  | cons p scheduled ih =>
    obtain ⟨pending,origin⟩ := p
    rw [insertScheduledPendingTxs] at h
    obtain ⟨row,hrow,h⟩ := bind_ok h
    obtain ⟨next,hnext,h⟩ := bind_ok h
    obtain ⟨rows,hrows,hstatus⟩ := ih h
    obtain ⟨table,rfl,htable⟩ := insertPendingRow_ok hnext
    refine ⟨row :: rows,?_,List.forall_mem_cons.mpr ⟨?_,hstatus⟩⟩
    · rw [hrows,htable,List.append_assoc]
      rfl
    · obtain ⟨_,rfl⟩ := pendingRow_ok hrow
      rfl

theorem awaitsSignature_append {rows : List PendingTx}
    (h : db'.pending.rows = db.pending.rows ++ rows) (hstatus : ∀ row ∈ rows, row.status = .scheduled) :
    AwaitsSignature db' ↔ AwaitsSignature db := by
  unfold AwaitsSignature
  rw [h]
  constructor
  · rintro ⟨row,hrow,hwaits⟩
    rcases List.mem_append.mp hrow with hrow | hrow
    · exact ⟨row,hrow,hwaits⟩
    · rw [hstatus row hrow] at hwaits
      cases hwaits
  · rintro ⟨row,hrow,hwaits⟩
    exact ⟨row,List.mem_append_left _ hrow,hwaits⟩

variable {pendingTxs : List PendingMigrationTxInsert} {key : StoreResult PayloadKey}

theorem insertPendingTxs_awaits {rng : Rng} (h : insertPendingTxs rng key pendingTxs db = .ok db') :
    AwaitsSignature db' ↔ AwaitsSignature db := by
  unfold insertPendingTxs at h
  obtain ⟨_,_,h⟩ := bind_ok h
  obtain ⟨⟨scheduled,_⟩,_,h⟩ := bind_ok h
  obtain ⟨_,_,h⟩ := bind_ok h
  obtain ⟨inserted,hinserted,h⟩ := bind_ok h
  cases h
  obtain ⟨rows,hrows,hstatus⟩ := insertScheduledPendingTxs_rows hinserted
  exact awaitsSignature_append hrows hstatus

theorem insertPendingTxs_signing {rng : Rng}
    (h : insertPendingTxs rng key pendingTxs db = .ok db') :
    SigningPhase db' ↔ ¬ AwaitsSignature db :=
  (signingPhase_iff_none (insertPendingTxs_phase h) rfl).trans
    (not_congr (insertPendingTxs_awaits h))

theorem promote_signing {rng : Rng} {scanned retry : Nat} (hsigning : SigningPhase db)
    (h : promoteSignedChildPcztsToPendingTxs rng key pendingTxs scanned retry db = .ok db') :
    SigningPhase db' ↔ pendingTxs = [] ∨ ¬ AwaitsSignature db := by
  unfold promoteSignedChildPcztsToPendingTxs at h
  split at h
  · cases h
    exact iff_of_true hsigning (.inl (List.isEmpty_iff.mp ‹_›))
  · rename_i hnonempty
    split at h
    · cases h
    · obtain ⟨⟨_,rebased⟩,hrebased,h⟩ := bind_ok h
      obtain ⟨refreshed,_,h⟩ := bind_ok h
      obtain ⟨inserted,hinserted,h⟩ := bind_ok h
      cases h
      have hsame := awaitsSignature_of_eq (rebaseInitialSignedSchedule_keeps hrebased).1
      have hinsert := insertPendingTxs_signing hinserted
      rw [hsame] at hinsert
      refine Iff.trans hinsert (Iff.symm (or_iff_right fun hempty => ?_))
      exact hnonempty (List.isEmpty_iff.mpr hempty)

theorem mem_swapRemove {α : Type} {xs : List α} {i : Nat} {x : α} (h : i < xs.length) :
    x ∈ xs ↔ x = xs[i] ∨ x ∈ swapRemove xs i := by
  obtain ⟨front,last,rfl⟩ := (List.eq_nil_or_concat' xs).resolve_left fun hnil => by
    rw [hnil] at h
    exact absurd h (Nat.not_lt_zero i)
  rw [swapRemove,List.getLast?_concat]
  dsimp only
  by_cases hi : i < front.length
  · rw [List.set_append_left _ _ hi,List.dropLast_concat,List.getElem_append_left hi]
    have hsplit : front.take i ++ front[i] :: front.drop (i + 1) = front := by
      rw [← List.drop_eq_getElem_cons hi,List.take_append_drop]
    have hmem : x ∈ front ↔ x ∈ front.take i ++ front[i] :: front.drop (i + 1) := by
      rw [hsplit]
    rw [List.set_eq_take_append_cons_drop,if_pos hi,List.mem_append,hmem]
    simp only [List.mem_append,List.mem_cons,List.not_mem_nil,or_false]
    grind
  · have hlast : i = front.length := by
      rw [List.length_append,List.length_singleton] at h
      omega
    subst hlast
    simp [or_comm]

variable {replacements : List PendingMigrationTxReplacement}

theorem mem_scheduledReplacements {schedule : List MigrationScheduleEntry}
    {r : PendingMigrationTxReplacement} :
    r ∈ replacements ↔ r ∈ (scheduledReplacements schedule replacements).1 ∨
      r ∈ (scheduledReplacements schedule replacements).2 := by
  induction schedule generalizing replacements with
  | nil => simp [scheduledReplacements]
  | cons entry schedule ih =>
    rw [scheduledReplacements]
    cases hfind : replacements.findIdx? (matchesEntry entry) with
    | none => exact ih
    | some i =>
      obtain ⟨hi,_⟩ := List.findIdx?_eq_some_iff_getElem.mp hfind
      rw [mem_swapRemove hi,ih]
      simp [List.getElem?_eq_getElem hi,or_assoc]

theorem replaceResignedPart_rows {key : PayloadKey} {recoveryOrigin : Option Nat}
    {r : PendingMigrationTxReplacement} (h : replaceResignedPart key recoveryOrigin r db = .ok db') :
    ∃ row, db'.pending.rows = (deletePending db r.oldTxid).pending.rows ++ [row] ∧
      row.status = .scheduled := by
  unfold replaceResignedPart at h
  obtain ⟨original,_,h⟩ := bind_ok h
  obtain ⟨start,_,h⟩ := bind_ok h
  obtain ⟨row,hrow,h⟩ := bind_ok h
  obtain ⟨_,rfl,hrows⟩ := insertPendingRow_ok h
  refine ⟨row,hrows,?_⟩
  obtain ⟨_,rfl⟩ := pendingRow_ok hrow
  rfl

theorem replaceResignedParts_awaits {key : PayloadKey} {recoveryOrigin : Option Nat}
    (h : replaceResignedParts key recoveryOrigin replacements db = .ok db') :
    AwaitsSignature db' ↔ ∃ row ∈ db.pending.rows, row.status = .needsResign ∧
      ∀ r ∈ replacements, r.oldTxid ≠ row.txid := by
  induction replacements generalizing db with
  | nil =>
    cases h
    exact exists_congr fun row => and_congr_right fun _ =>
      (and_iff_left fun r hr => nomatch hr).symm
  | cons r replacements ih =>
    rw [replaceResignedParts] at h
    obtain ⟨next,hnext,h⟩ := bind_ok h
    obtain ⟨inserted,hrows,hstatus⟩ := replaceResignedPart_rows hnext
    rw [ih h,hrows]
    constructor
    · rintro ⟨row,hrow,hwaits,hothers⟩
      rcases List.mem_append.mp hrow with hrow | hrow
      · obtain ⟨hrow,hkept⟩ := Table.mem_delete.mp hrow
        refine ⟨row,hrow,hwaits,List.forall_mem_cons.mpr ⟨?_,hothers⟩⟩
        exact fun htxid => of_decide_eq_false hkept htxid.symm
      · rw [List.mem_singleton.mp hrow,hstatus] at hwaits
        cases hwaits
    · rintro ⟨row,hrow,hwaits,hothers⟩
      obtain ⟨hfirst,hothers⟩ := List.forall_mem_cons.mp hothers
      refine ⟨row,List.mem_append_left _ (Table.mem_delete.mpr ⟨hrow,?_⟩),hwaits,hothers⟩
      exact decide_eq_false (Ne.symm hfirst)

theorem replaceResignedPendingParts_signing {signedChildren : List SignedMigrationPcztInsert}
    (hsigning : SigningPhase db)
    (h : replaceResignedPendingParts key replacements signedChildren db = .ok db') :
    SigningPhase db' ↔ replacements = [] ∨ ∀ row ∈ db.pending.rows, row.status = .needsResign →
      ∃ r ∈ replacements, r.oldTxid = row.txid := by
  unfold replaceResignedPendingParts at h
  split at h
  · cases h
    exact iff_of_true hsigning (.inl (List.isEmpty_iff.mp ‹_›))
  · rename_i hnonempty
    obtain ⟨_,_,h⟩ := bind_ok h
    dsimp only at h
    split at h
    · cases h
    · rename_i hleft
      obtain ⟨replaced,hreplaced,h⟩ := bind_ok h
      obtain ⟨stored,hstored,h⟩ := bind_ok h
      cases h
      rw [Bool.not_eq_true,Bool.not_eq_false',List.isEmpty_iff] at hleft
      have hmem : ∀ r, r ∈ (scheduledReplacements db.run.schedule replacements).1 ↔
          r ∈ replacements := by
        intro r
        have hr : r ∈ replacements ↔
            r ∈ (scheduledReplacements db.run.schedule replacements).1 ∨
              r ∈ (scheduledReplacements db.run.schedule replacements).2 :=
          mem_scheduledReplacements
        rw [hr,hleft]
        exact (or_iff_left List.not_mem_nil).symm
      have hawaits := (awaitsSignature_of_eq (insertSignedChildPczts_keeps hstored).1).trans
        (replaceResignedParts_awaits hreplaced)
      have hphase : (stored.setPhase .broadcastScheduled none).run.phase = .broadcastScheduled := rfl
      refine ((signingPhase_iff_none hphase rfl).trans (not_congr hawaits)).trans ?_
      rw [or_iff_right fun hempty => hnonempty (List.isEmpty_iff.mpr hempty)]
      push Not
      refine forall₃_congr fun row _ _ => exists_congr fun r => and_congr_left' (hmem r)

theorem reconcileRow_waits (chain : ChainView) (row : PendingTx) :
    (reconcileRow chain row).status = .needsResign ↔ row.status = .needsResign := by
  unfold reconcileRow
  split <;> simp_all

theorem reconcileRow_expiryHeight (chain : ChainView) (row : PendingTx) :
    (reconcileRow chain row).expiryHeight = row.expiryHeight := by
  unfold reconcileRow
  split <;> rfl

theorem reconcileRows_awaits (chain : ChainView) (db : RunState) :
    AwaitsSignature (reconcileRows chain db) ↔ AwaitsSignature db := by
  cases hterminal : db.isTerminal with
  | true => rw [reconcileRows_of_terminal hterminal]
  | false =>
    unfold AwaitsSignature
    rw [reconcileRows_pending hterminal]
    simp only [List.mem_map,exists_exists_and_eq_and,reconcileRow_waits]

theorem reconcileRunConfirmations_awaits (chain : ChainView) (db : RunState) :
    AwaitsSignature (reconcileRunConfirmations chain db) ↔ AwaitsSignature db :=
  (awaitsSignature_of_eq (reconcileRunConfirmations_pending chain db)).trans
    (reconcileRows_awaits chain db)

theorem completeConfirmedRun_of_awaits (chain : ChainView) (unpromotedCount : Nat)
    (h : AwaitsSignature db) : completeConfirmedRun chain unpromotedCount db = db := by
  obtain ⟨row,hrow,hstatus⟩ := h
  have hlt : db.countPendingWithStatus .confirmed < db.pending.length := by
    refine Nat.lt_of_le_of_ne List.countP_le_length fun hall => ?_
    have hconfirmed := of_decide_eq_true (List.countP_eq_length.mp hall row hrow)
    rw [hstatus] at hconfirmed
    cases hconfirmed
  exact if_pos (.inr hlt)

theorem reconcileRows_phase (chain : ChainView) (db : RunState) :
    (TakesBack chain db ∧ (reconcileRows chain db).run.phase = .broadcastScheduled) ∨
    (¬ TakesBack chain db ∧ (reconcileRows chain db).run.phase = db.run.phase) := by
  unfold TakesBack reconcileRows
  cases hterminal : db.isTerminal with
  | true => exact .inr ⟨fun h => Bool.noConfusion h.1,rfl⟩
  | false =>
    rw [if_neg Bool.false_ne_true]
    dsimp only
    split
    · exact .inl ⟨⟨rfl,List.any_eq_true.mp ‹_›⟩,rfl⟩
    · exact .inr ⟨fun h => absurd (List.any_eq_true.mpr h.2) ‹_›,rfl⟩

theorem resumeMaterialization_of_phase (h : db.run.phase ≠ .waitingMigrationConfirmations) :
    resumeMaterialization db = db :=
  if_neg h

theorem reconcileRunConfirmations_signing {chain : ChainView} (hsigning : SigningPhase db) :
    SigningPhase (reconcileRunConfirmations chain db) ↔
      (TakesBack chain db → ¬ AwaitsSignature db) := by
  by_cases hawaits : AwaitsSignature db
  · have hrows := (reconcileRows_awaits chain db).mpr hawaits
    have hasks := hsigning hawaits
    have hresume : resumeMaterialization (reconcileRows chain db) = reconcileRows chain db := by
      refine resumeMaterialization_of_phase fun hphase => ?_
      rcases reconcileRows_phase chain db with ⟨_,h⟩ | ⟨_,h⟩
      · rw [h] at hphase
        cases hphase
      · rw [← h,hphase] at hasks
        cases hasks
    have hreconcile : reconcileRunConfirmations chain db = reconcileRows chain db := by
      rw [reconcileRunConfirmations,hresume,ite_self,completeConfirmedRun_of_awaits _ _ hrows]
    rw [hreconcile]
    rcases reconcileRows_phase chain db with ⟨htakes,hphase⟩ | ⟨hkept,hphase⟩
    · rw [signingPhase_iff_none hphase rfl,reconcileRows_awaits]
      exact iff_of_false (not_not.mpr hawaits) fun h => h htakes hawaits
    · exact iff_of_true (hsigning.of_same hphase (reconcileRows_awaits chain db).mp)
        fun htakes => absurd htakes hkept
  · refine iff_of_true (.of_none ?_) fun _ => hawaits
    rw [reconcileRunConfirmations_awaits]
    exact hawaits

theorem markForResign_signing {chain : ChainView} {p : PendingTx → Bool} {lastError : Option String}
    (hsigning : SigningPhase db) :
    SigningPhase (if 0 < (reconcileRunConfirmations chain db).pending.count p then
        ((reconcileRunConfirmations chain db).setStatus p .needsResign).setPhase .readyToMigrate
          lastError
      else reconcileRunConfirmations chain db) ↔
    (TakesBack chain db → AwaitsSignature db →
      ∃ row ∈ db.pending.rows, p (reconcileRow chain row) = true) := by
  have hsome : TakesBack chain db → (0 < (reconcileRunConfirmations chain db).pending.count p ↔
      ∃ row ∈ db.pending.rows, p (reconcileRow chain row) = true) := by
    intro htakes
    rw [reconcileRunConfirmations_pending,Table.count,reconcileRows_pending htakes.1,
      List.countP_pos_iff]
    simp only [List.mem_map,exists_exists_and_eq_and]
  split
  · rename_i hcount
    exact iff_of_true (.of_phase rfl rfl) fun htakes _ => (hsome htakes).mp hcount
  · rename_i hcount
    rw [reconcileRunConfirmations_signing hsigning]
    exact forall_congr' fun htakes => imp_congr_right fun _ =>
      iff_of_false not_false ((hsome htakes).not.mp hcount)

theorem markDuePartsForResign_signing {chain : ChainView} {chainTipHeight : Nat}
    (hsigning : SigningPhase db)
    (h : markDuePartsWithNoncanonicalBroadcastHeightForResign chain chainTipHeight db = .ok db') :
    SigningPhase db' ↔ (TakesBack chain db → AwaitsSignature db → ∃ row ∈ db.pending.rows,
      scheduledBy chainTipHeight (reconcileRow chain row) = true ∧
        ¬ CanonicalExpiry chainTipHeight row.expiryHeight) := by
  obtain ⟨canonicalExpiry,hcanonical,h⟩ := bind_ok h
  cases h
  refine (markForResign_signing hsigning).trans ?_
  refine imp_congr_right fun _ => imp_congr_right fun _ => exists_congr fun row =>
    and_congr_right fun _ => ?_
  rw [dueWithOtherExpiry,Bool.and_eq_true,reconcileRow_expiryHeight,decide_eq_true_iff,
    CanonicalExpiry,hcanonical,Except.ok.injEq,ne_comm]

theorem ReconcileStatement.apply_signing {statement : ReconcileStatement}
    (hsigning : SigningPhase db) :
    SigningPhase (statement.apply db) ↔ statement.KeepsSigningPhase db := by
  cases statement with
  | markConfirmed txid =>
    refine iff_of_true ?_ trivial
    rw [apply]
    split
    · exact hsigning
    · refine hsigning.of_same rfl (awaitsSignature_updatePending ?_)
      intro _ _ h
      cases h
  | rescheduleReorged txid =>
    refine iff_of_true ?_ trivial
    rw [apply]
    split
    · exact hsigning
    · refine hsigning.of_same rfl (awaitsSignature_updatePending ?_)
      intro _ _ h
      cases h
  | markBroadcastScheduled =>
    rw [apply]
    split
    · exact iff_of_true hsigning (.inl ‹_›)
    · rename_i hactive
      exact (signingPhase_iff_none rfl rfl).trans (or_iff_right hactive).symm
  | resumeMaterialization =>
    refine iff_of_true ?_ trivial
    rw [apply]
    by_cases hphase : db.run.phase = .waitingMigrationConfirmations
    · refine .of_none ?_
      rw [awaitsSignature_of_eq (resumeMaterialization_pending db)]
      exact (signingPhase_iff_none hphase rfl).mp hsigning
    · rw [resumeMaterialization_of_phase hphase]
      exact hsigning
  | completeRun =>
    rw [apply,Store.completeRun]
    split
    · exact iff_of_true hsigning (.inl ‹_›)
    · rename_i hactive
      exact (signingPhase_iff_none rfl rfl).trans (or_iff_right hactive).symm

theorem cleanUpChildren_signing (chain : ChainView) (plan : ReorgPlan) (hsigning : SigningPhase db) :
    SigningPhase (cleanUpChildren chain plan db) := by
  cases hterminal : db.isTerminal with
  | true =>
    rw [cleanUpChildren_of_terminal hterminal]
    exact hsigning
  | false =>
    rw [cleanUpChildren_eq hterminal]
    split
    · exact .of_phase rfl rfl
    · exact hsigning

theorem recordIdentities_stages {identities : List (TxidHex × ChainIdentity)}
    (h : recordIdentities identities db = .ok db') : ∃ stages, db' = { db with stages } := by
  induction identities generalizing db with
  | nil =>
    cases h
    exact ⟨_,rfl⟩
  | cons identity identities ih =>
    rw [recordIdentities] at h
    obtain ⟨recorded,hrecorded,h⟩ := bind_ok h
    obtain ⟨stages,rfl⟩ := ih h
    unfold replaceDenominationStageConfirmationIdentity at hrecorded
    split at hrecorded
    · cases hrecorded
      exact ⟨stages,rfl⟩
    · cases hrecorded

theorem commitStageUpdate_stages {rng : Rng} {plan : ReorgPlan}
    {context : Option (WalletNetwork × Nat)}
    (h : commitStageUpdate rng plan context db = .ok db') : ∃ stages, db' = { db with stages } := by
  unfold commitStageUpdate at h
  split at h
  · cases h
    exact ⟨_,rfl⟩
  · split at h
    · cases h
      exact ⟨_,rfl⟩
    · obtain ⟨reset,hreset,h⟩ := bind_ok h
      obtain ⟨recorded,hrecorded,h⟩ := bind_ok h
      obtain ⟨_,rfl,_⟩ := resetStages_ok hreset
      obtain ⟨_,rfl⟩ := recordIdentities_stages hrecorded
      obtain ⟨stages,rfl,_⟩ := restartSpacing_ok h
      exact ⟨stages,rfl⟩

theorem markDenominationReorg_signing (plan : ReorgPlan) (hsigning : SigningPhase db) :
    SigningPhase (markDenominationReorg plan db) := by
  unfold markDenominationReorg
  split
  · exact hsigning
  · exact .of_phase rfl rfl

theorem abandonRun_signing {accountUuid : Text} {network : WalletNetwork}
    (hsigning : SigningPhase db) (h : abandonRun accountUuid network db = .ok db') :
    SigningPhase db' := by
  unfold abandonRun at h
  split at h
  · cases h
  · split at h
    · cases h
      exact hsigning.of_same rfl id
    · split at h
      · cases h
      · cases h
        exact .of_phase rfl rfl

theorem Operation.apply_signing {op : Operation} (hsigning : SigningPhase db)
    (h : op.apply db = .ok db') : SigningPhase db' ↔ op.KeepsSigningPhase db := by
  cases op with
  | insertPendingTxs rng key pendingTxs => exact insertPendingTxs_signing h
  | persistSignedChildPczts key signedChildren =>
    refine iff_of_true ?_ trivial
    rw [Operation.apply,Store.persistSignedChildPczts] at h
    split at h
    · cases h
    · obtain ⟨stored,hstored,h⟩ := bind_ok h
      split at h
      · cases h
        exact .of_phase ‹_› rfl
      · cases h
  | promoteSignedChildPczts rng key pendingTxs scanned retry => exact promote_signing hsigning h
  | replaceResignedPendingParts key replacements signedChildren =>
    exact replaceResignedPendingParts_signing hsigning h
  | ensureRebuildScheduleGeneration rng network candidate =>
    obtain ⟨⟨_,_⟩,hensure,rfl⟩ := map_ok h
    refine iff_of_true (hsigning.of_same (ensureRebuild_phase hensure) ?_) trivial
    rintro ⟨row,hrow,hstatus⟩
    obtain ⟨old,hold,_,rfl⟩ := ensureRebuild_offsetsOnly hensure row hrow
    exact ⟨old,hold,hstatus⟩
  | rescheduleOverduePendingTxs rng network tip minimum excluded =>
    exact iff_of_true (commitReschedule_signing hsigning h) trivial
  | applyAcceptedMigrationOutboxReceipt receipt =>
    exact iff_of_true (receipt_signing hsigning h) trivial
  | reconcileRunConfirmations chain =>
    cases h
    exact reconcileRunConfirmations_signing hsigning
  | markExpiredPendingPartsForResign chain tip =>
    cases h
    exact markForResign_signing hsigning
  | markDuePartsForResign chain tip => exact markDuePartsForResign_signing hsigning h
  | markPendingBroadcasted txid =>
    cases h
    exact iff_of_true (updateRunAfterPendingBroadcast_signing _) trivial
  | resetMigrationChildren chain txids =>
    cases h
    exact iff_of_true (cleanUpChildren_signing chain { ReorgPlan.none with affected := txids }
      hsigning) trivial
  | markRunPhase phase message =>
    cases h
    cases hphase : asksForSignatures phase with
    | true => exact iff_of_true (.of_phase rfl hphase) (.inl hphase)
    | false =>
      refine (signingPhase_iff_none rfl hphase).trans (or_iff_right ?_).symm
      rw [hphase]
      exact Bool.false_ne_true
  | retireRunForRebuild message =>
    cases h
    exact iff_of_true (.of_phase rfl rfl) trivial
  | abandonRun accountUuid network => exact iff_of_true (abandonRun_signing hsigning h) trivial

theorem StoreTransaction.apply_signing {step : StoreTransaction} (hsigning : SigningPhase db)
    (h : step.apply db = .ok db') : SigningPhase db' ↔ KeepsSigningPhase step db := by
  cases step with
  | call op => exact Operation.apply_signing hsigning h
  | reconcileStatement statement =>
    cases h
    exact statement.apply_signing hsigning
  | commitReschedule rng network tip minimum overdue =>
    exact iff_of_true (commitReschedule_signing hsigning h) trivial
  | cleanUpChildren chain plan =>
    cases h
    exact iff_of_true (cleanUpChildren_signing chain plan hsigning) trivial
  | commitStageUpdate rng plan context =>
    obtain ⟨_,rfl⟩ := commitStageUpdate_stages h
    exact iff_of_true (hsigning.of_same rfl id) trivial
  | markDenominationReorg plan =>
    cases h
    exact iff_of_true (markDenominationReorg_signing plan hsigning) trivial

def twoPartRun : RunState :=
  .created
    { accountUuid := ['a']
      network := .test
      phase := .readyToMigrate
      targetValues := [1000000,2000000]
      schedule := [⟨some 0,1000000,0⟩,⟨some 1,2000000,0⟩] }

def provedPart (partIndex : Nat) (txid : TxidHex) (targetHeight expiryHeight value : Nat) :
    PendingMigrationTxInsert where
  partIndex := partIndex
  txid := txid
  rawTx := [1]
  targetHeight := targetHeight
  anchorBoundaryHeight := none
  expiryHeight := expiryHeight
  scheduledHeight := targetHeight
  value := value
  fee := 15000
  selectedNote := ⟨['n'],partIndex,value + 15000⟩

def firstPartTxid : TxidHex := ⟨['d'],by decide⟩

def secondPartTxid : TxidHex := ⟨['e'],by decide⟩

def rebuiltPartTxid : TxidHex := ⟨['f'],by decide⟩

def insertBoth : StoreTransaction :=
  .call (.insertPendingTxs default (.ok default)
    [provedPart 0 firstPartTxid 101 69120 1000000,provedPart 1 secondPartTxid 101 69120 2000000])

def expireBoth : StoreTransaction :=
  .call (.markExpiredPendingPartsForResign emptyChain 69120)

def drawOffsets : StoreTransaction :=
  .call (.ensureRebuildScheduleGeneration default .test 69121)

/-- One of the parts comes back with a new signature. -/
def replaceFirst : StoreTransaction :=
  .call (.replaceResignedPendingParts (.ok default)
    [⟨firstPartTxid,provedPart 0 rebuiltPartTxid 69121 138240 1000000⟩] [])

end CoppiceWallet.Store
