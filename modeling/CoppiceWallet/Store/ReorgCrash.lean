import CoppiceWallet.Store.ReorgSound

/-! # A reconciliation that is interrupted -/

namespace CoppiceWallet.Store

open CoppiceWallet.Lib

/-- The transactions of one reconciliation in the order of their commits. -/
def reorgTransactions (rng : Rng) (chain : ChainView) (plan : ReorgPlan)
    (context : Option (WalletNetwork × Nat)) : List (RunState → StoreResult RunState) :=
  [fun db => .ok (cleanUpChildren chain plan db),
    commitStageUpdate rng plan context,
    fun db => .ok (markDenominationReorg plan db)]

/-- The state in which the process leaves the database when it stops after `cut` transactions. -/
def interruptedReconciliation (rng : Rng) (chain : ChainView) (chainTipHeight : StoreResult Nat)
    (cut : Nat) (db : RunState) : StoreResult RunState :=
  let records := denominationStageChainRecords db
  if records.isEmpty then .ok db
  else do
    let plan := reorgPlan chain records
    let context ← recoveryContext plan chainTipHeight db
    ((reorgTransactions rng chain plan context).take cut).foldlM (fun db commit => commit db) db

variable {rng : Rng} {chain : ChainView} {chainTip : StoreResult Nat} {db : RunState}

theorem interruptedReconciliation_all (cut : Nat) :
    interruptedReconciliation rng chain chainTip (cut + 3) db =
      reconcileDenominationStageChainState rng chain chainTip db := by
  unfold interruptedReconciliation reconcileDenominationStageChainState
  dsimp only
  split
  · rfl
  · refine congrArg _ (funext fun context => ?_)
    rw [List.take_of_length_le (by simp [reorgTransactions])]
    simp only [reorgTransactions,List.foldlM_cons,List.foldlM_nil]
    rfl

/-- The stages, the pending children and the phase. -/
structure SameOutcome (a b : RunState) : Prop where
  stages : a.stages = b.stages
  pending : a.pending = b.pending
  phase : a.run.phase = b.run.phase

/-- The phase is written together with the children, or there is no need to write it. -/
def PhaseKeptByCleanUp (chain : ChainView) (db : RunState) : Prop :=
  db.isTerminal = true ∨ db.run.phase = .waitingDenomConfirmations ∨
  (∀ txid, ¬ Affected chain db txid) ∨
  ∃ txid, Affected chain db txid ∧ ((∃ row ∈ db.pending.rows, removedChild chain txid row = true) ∨
    ∃ note ∈ db.preparedNotes, staleNote chain txid db note = true)

theorem needsCleanUp_iff : needsCleanUp chain
      (reorgPlan chain (denominationStageChainRecords db)).affected db = true ↔
    ∃ txid, Affected chain db txid ∧ ((∃ row ∈ db.pending.rows, removedChild chain txid row = true) ∨
      ∃ note ∈ db.preparedNotes, staleNote chain txid db note = true) := by
  rw [needsCleanUp,List.any_eq_true]
  refine exists_congr fun txid => and_congr mem_affectedStages ?_
  rw [Bool.or_eq_true,List.any_eq_true,List.any_eq_true]

theorem affected_isEmpty_iff :
    (reorgPlan chain (denominationStageChainRecords db)).affected.isEmpty = true ↔
      ∀ txid, ¬ Affected chain db txid := by
  rw [List.isEmpty_iff,List.eq_nil_iff_forall_not_mem]
  exact forall_congr' fun txid => not_congr mem_affectedStages

theorem commitStageUpdate_of_terminal {plan : ReorgPlan} {context : Option (WalletNetwork × Nat)}
    (h : db.isTerminal = true) : commitStageUpdate rng plan context db = .ok db := by
  unfold commitStageUpdate
  split
  · rfl
  · rfl

theorem markDenominationReorg_of_terminal {plan : ReorgPlan} (h : db.isTerminal = true) :
    markDenominationReorg plan db = db :=
  if_pos (by simp [h])

theorem cleaned_idem (chain : ChainView) (txids : List TxidHex) (db : RunState) :
    cleaned chain txids (cleaned chain txids db) = cleaned chain txids db := by
  have hpending : (cleaned chain txids (cleaned chain txids db)).pending =
      (cleaned chain txids db).pending := by
    refine Table.ext ?_
    simp only [cleaned,Table.delete,List.filter_filter,Bool.and_self]
  have hnotes : (cleaned chain txids (cleaned chain txids db)).preparedNotes =
      (cleaned chain txids db).preparedNotes := by
    show resetNotes chain txids (cleaned chain txids db) = resetNotes chain txids db
    simp only [resetNotes,staleNote_cleaned]
    simp only [cleaned,resetNotes,List.map_map]
    refine List.map_congr_left fun note _ => ?_
    simp only [Function.comp_apply]
    split
    · split <;> rfl
    · rfl
  rw [RunState.mk.injEq]
  exact ⟨rfl,hpending,rfl,hnotes,rfl⟩

theorem cleanUpChildren_idem (plan : ReorgPlan) (db : RunState) :
    cleanUpChildren chain plan (cleanUpChildren chain plan db) = cleanUpChildren chain plan db := by
  cases h : db.isTerminal with
  | true => rw [cleanUpChildren_of_terminal h,cleanUpChildren_of_terminal h]
  | false =>
    rw [cleanUpChildren_eq h]
    split
    · rw [cleanUpChildren_eq rfl]
      split
      · have hidem := cleaned_idem chain plan.affected db
        rw [RunState.mk.injEq] at hidem ⊢
        exact ⟨rfl,hidem.2.1,rfl,hidem.2.2.2.1,rfl⟩
      · rfl
    · rw [cleanUpChildren_eq h,if_neg ‹_›]

theorem reconcile_cleanUpChildren :
    reconcileDenominationStageChainState rng chain chainTip
      (cleanUpChildren chain (reorgPlan chain (denominationStageChainRecords db)) db) =
      reconcileDenominationStageChainState rng chain chainTip db := by
  obtain ⟨hnetwork,hpolicy,_⟩ :=
    cleanUpChildren_run chain (reorgPlan chain (denominationStageChainRecords db)) db
  have hrecords : denominationStageChainRecords (cleanUpChildren chain
      (reorgPlan chain (denominationStageChainRecords db)) db) =
      denominationStageChainRecords db := by
    rw [denominationStageChainRecords,cleanUpChildren_stages]
    rfl
  unfold reconcileDenominationStageChainState
  rw [hrecords]
  dsimp only
  split
  · rename_i hempty
    rw [List.isEmpty_iff.mp hempty]
    cases h : db.isTerminal with
    | true => rw [cleanUpChildren_of_terminal h]
    | false =>
      rw [cleanUpChildren_eq h]
      rfl
  · rw [cleanUpChildren_idem]
    unfold recoveryContext
    rw [hnetwork,hpolicy]

theorem cleanUpChildren_phase (hactive : db.isTerminal = false) :
    (cleanUpChildren chain (reorgPlan chain (denominationStageChainRecords db)) db).run.phase =
      .waitingDenomConfirmations ↔ db.run.phase = .waitingDenomConfirmations ∨
        needsCleanUp chain (reorgPlan chain (denominationStageChainRecords db)).affected db =
          true := by
  rw [cleanUpChildren_eq hactive]
  split
  · rename_i hneeds
    simp [hneeds]
  · rename_i hneeds
    simp [hneeds]

theorem reorgPlan_commitStageUpdate {context : Option (WalletNetwork × Nat)} {committed : RunState}
    (hactive : db.isTerminal = false)
    (h : commitStageUpdate rng (reorgPlan chain (denominationStageChainRecords db)) context
      (cleanUpChildren chain (reorgPlan chain (denominationStageChainRecords db)) db) =
        .ok committed) :
    reorgPlan chain (denominationStageChainRecords committed) = .none ∧
    committed.run =
      (cleanUpChildren chain (reorgPlan chain (denominationStageChainRecords db)) db).run := by
  obtain ⟨_,_,hterminal⟩ :=
    cleanUpChildren_run chain (reorgPlan chain (denominationStageChainRecords db)) db
  obtain ⟨stages,rfl,_,hrows⟩ := commitStageUpdate_ok (cleanUpChildren_stages _ db)
    (hterminal.trans hactive) h
  exact ⟨reorgPlan_of_settled hrows,rfl⟩

theorem interruptedReconciliation_of_terminal {cut : Nat} {partialState : RunState}
    (hterminal : db.isTerminal = true)
    (h : interruptedReconciliation rng chain chainTip cut db = .ok partialState) :
    partialState = db := by
  unfold interruptedReconciliation at h
  dsimp only at h
  split at h
  · exact (Except.ok.inj h).symm
  · obtain ⟨context,_,h⟩ := bind_ok h
    have hall : ∀ commit ∈ (reorgTransactions rng chain
        (reorgPlan chain (denominationStageChainRecords db)) context).take cut,
        commit db = .ok db := by
      intro commit hcommit
      have hmem := List.mem_of_mem_take hcommit
      simp only [reorgTransactions,List.mem_cons,List.not_mem_nil,or_false] at hmem
      rcases hmem with rfl | rfl | rfl
      · exact congrArg _ (cleanUpChildren_of_terminal hterminal)
      · exact commitStageUpdate_of_terminal hterminal
      · exact congrArg _ (markDenominationReorg_of_terminal hterminal)
    have hfold : ∀ commits : List (RunState → StoreResult RunState),
        (∀ commit ∈ commits, commit db = .ok db) →
        commits.foldlM (fun db commit => commit db) db = .ok db := by
      intro commits
      induction commits with
      | nil => exact fun _ => rfl
      | cons commit commits ih =>
        intro hcommits
        rw [List.foldlM_cons,hcommits commit List.mem_cons_self]
        exact ih fun c hc => hcommits c (List.mem_cons_of_mem _ hc)
    rw [hfold _ hall] at h
    exact (Except.ok.inj h).symm

theorem markDenominationReorg_settled {plan : ReorgPlan}
    (h : reorgPlan chain (denominationStageChainRecords db) = .none) :
    reorgPlan chain (denominationStageChainRecords (markDenominationReorg plan db)) = .none := by
  unfold markDenominationReorg
  split
  · exact h
  · exact h

/-- What a resumed reconciliation ends in: the outcome of the whole one, except that a process
that stopped after the second transaction keeps the phase it had then. -/
theorem interruptedReconciliation_resumed {cut : Nat} {done partialState : RunState}
    (hactive : db.isTerminal = false)
    (h : reconcileDenominationStageChainState rng chain chainTip db = .ok done)
    (hcut : interruptedReconciliation rng chain chainTip cut db = .ok partialState) :
    ∃ resumed, reconcileDenominationStageChainState rng chain chainTip partialState = .ok resumed ∧
      (resumed = done ∨ done = markDenominationReorg
          (reorgPlan chain (denominationStageChainRecords db)) resumed ∧
        resumed.run = (cleanUpChildren chain
          (reorgPlan chain (denominationStageChainRecords db)) db).run) := by
  have hwhole := h
  unfold reconcileDenominationStageChainState at h
  unfold interruptedReconciliation at hcut
  dsimp only at h hcut
  split at h
  · rename_i hempty
    rw [if_pos hempty] at hcut
    cases hcut
    exact ⟨done,hwhole,.inl rfl⟩
  · rename_i hempty
    rw [if_neg hempty] at hcut
    obtain ⟨context,hcontext,h⟩ := bind_ok h
    obtain ⟨committed,hcommitted,h⟩ := bind_ok h
    obtain ⟨context',hcontext',hcut⟩ := bind_ok hcut
    rw [hcontext] at hcontext'
    cases hcontext'
    cases h
    obtain ⟨hsettled,hrun⟩ := reorgPlan_commitStageUpdate hactive hcommitted
    match cut, hcut with
    | 0, hcut =>
      cases hcut
      exact ⟨_,hwhole,.inl rfl⟩
    | 1, hcut =>
      cases hcut
      exact ⟨_,reconcile_cleanUpChildren.trans hwhole,.inl rfl⟩
    | 2, hcut =>
      have hpartial : committed = partialState := by
        simp only [reorgTransactions,List.take_succ_cons,List.take_zero,List.foldlM_cons,
          List.foldlM_nil] at hcut
        obtain ⟨cleaned,hcleaned,hcut⟩ := bind_ok hcut
        cases hcleaned
        rw [hcommitted] at hcut
        exact Except.ok.inj hcut
      subst hpartial
      exact ⟨committed,reconcileDenominationStageChainState_of_none hsettled,.inr ⟨rfl,hrun⟩⟩
    | cut + 3, hcut =>
      have hpartial : interruptedReconciliation rng chain chainTip (cut + 3) db =
          .ok partialState := by
        unfold interruptedReconciliation
        dsimp only
        rw [if_neg hempty,hcontext]
        exact hcut
      rw [interruptedReconciliation_all,hwhole] at hpartial
      cases hpartial
      exact ⟨_,reconcileDenominationStageChainState_of_none (markDenominationReorg_settled hsettled),
        .inl rfl⟩

theorem interruptedReconciliation_two {done : RunState} (hactive : db.isTerminal = false)
    (hnonempty : (denominationStageChainRecords db).isEmpty = false)
    (h : reconcileDenominationStageChainState rng chain chainTip db = .ok done) :
    ∃ committed, interruptedReconciliation rng chain chainTip 2 db = .ok committed ∧
      reorgPlan chain (denominationStageChainRecords committed) = .none ∧
      committed.run =
        (cleanUpChildren chain (reorgPlan chain (denominationStageChainRecords db)) db).run := by
  unfold reconcileDenominationStageChainState at h
  unfold interruptedReconciliation
  dsimp only at h ⊢
  rw [hnonempty] at h ⊢
  obtain ⟨context,hcontext,h⟩ := bind_ok h
  obtain ⟨committed,hcommitted,_⟩ := bind_ok h
  obtain ⟨hsettled,hrun⟩ := reorgPlan_commitStageUpdate hactive hcommitted
  refine ⟨committed,?_,hsettled,hrun⟩
  simp only [Bool.false_eq_true,if_false,hcontext,reorgTransactions,List.take_succ_cons,
    List.take_zero,List.foldlM_cons,List.foldlM_nil]
  show commitStageUpdate rng _ context (cleanUpChildren chain _ db) >>= pure = .ok committed
  rw [hcommitted]
  rfl

theorem reconcile_phase {done : RunState} (hactive : db.isTerminal = false)
    (haffected : ∃ txid, Affected chain db txid)
    (h : reconcileDenominationStageChainState rng chain chainTip db = .ok done) :
    done.run.phase = .waitingDenomConfirmations := by
  unfold reconcileDenominationStageChainState at h
  dsimp only at h
  split at h
  · rename_i hempty
    obtain ⟨txid,htxid⟩ := haffected
    rw [← mem_affectedStages,List.isEmpty_iff.mp hempty] at htxid
    cases htxid
  · obtain ⟨context,_,h⟩ := bind_ok h
    obtain ⟨committed,hcommitted,h⟩ := bind_ok h
    cases h
    obtain ⟨_,_,hterminal⟩ :=
      cleanUpChildren_run chain (reorgPlan chain (denominationStageChainRecords db)) db
    obtain ⟨_,hrun⟩ := reorgPlan_commitStageUpdate hactive hcommitted
    have hcommittedActive : committed.isTerminal = false := by
      rw [RunState.isTerminal,hrun]
      exact hterminal.trans hactive
    have hnonempty : (reorgPlan chain (denominationStageChainRecords db)).affected.isEmpty =
        false := by
      rw [Bool.eq_false_iff]
      intro hempty
      obtain ⟨txid,htxid⟩ := haffected
      exact affected_isEmpty_iff.mp hempty txid htxid
    rw [markDenominationReorg,hnonempty,hcommittedActive]
    rfl

/-- Whatever the cut, a resumed reconciliation ends as an uninterrupted one, exactly when the phase
does not depend on the third transaction. -/
theorem interruptedReconciliation_resumes {rng : Rng} {chain : ChainView}
    {chainTip : StoreResult Nat} {db done : RunState}
    (h : reconcileDenominationStageChainState rng chain chainTip db = .ok done) :
    (∀ cut partialState, interruptedReconciliation rng chain chainTip cut db = .ok partialState →
      ∃ resumed, reconcileDenominationStageChainState rng chain chainTip partialState =
          .ok resumed ∧ SameOutcome resumed done ∧
        (db.isTerminal = false → (∃ txid, Affected chain db txid) →
          resumed.run.phase = .waitingDenomConfirmations)) ↔
    PhaseKeptByCleanUp chain db := by
  cases hterminal : db.isTerminal with
  | true =>
    refine iff_of_true (fun cut partialState hcut => ?_) (.inl hterminal)
    rw [interruptedReconciliation_of_terminal hterminal hcut]
    exact ⟨done,h,⟨rfl,rfl,rfl⟩,fun hactive => by cases hactive⟩
  | false =>
    constructor
    · intro hresumes
      by_cases hnone : ∀ txid, ¬ Affected chain db txid
      · exact .inr (.inr (.inl hnone))
      · have haffected : ∃ txid, Affected chain db txid := by
          simpa only [not_forall,not_not] using hnone
        have hnonempty : (denominationStageChainRecords db).isEmpty = false := by
          rw [Bool.eq_false_iff]
          intro hempty
          obtain ⟨txid,htxid⟩ := haffected
          rw [← mem_affectedStages,List.isEmpty_iff.mp hempty] at htxid
          cases htxid
        obtain ⟨committed,hcut,hsettled,hrun⟩ := interruptedReconciliation_two hterminal hnonempty h
        obtain ⟨resumed,hresumed,_,hphase⟩ := hresumes 2 committed hcut
        rw [reconcileDenominationStageChainState_of_none hsettled] at hresumed
        cases hresumed
        have hclean := hphase rfl haffected
        rw [hrun,cleanUpChildren_phase hterminal,needsCleanUp_iff] at hclean
        rcases hclean with hwaiting | hneeds
        · exact .inr (.inl hwaiting)
        · exact .inr (.inr (.inr hneeds))
    · intro hkept cut partialState hcut
      obtain ⟨resumed,hresumed,hcases⟩ := interruptedReconciliation_resumed hterminal h hcut
      refine ⟨resumed,hresumed,?_⟩
      rcases hcases with rfl | ⟨rfl,hrun⟩
      · exact ⟨⟨rfl,rfl,rfl⟩,fun _ haffected => reconcile_phase hterminal haffected h⟩
      · have hwaiting : (∃ txid, Affected chain db txid) →
            resumed.run.phase = .waitingDenomConfirmations := by
          intro haffected
          rw [hrun,cleanUpChildren_phase hterminal,needsCleanUp_iff]
          rcases hkept with habsurd | hwaiting | hnone | hneeds
          · rw [hterminal] at habsurd
            cases habsurd
          · exact .inl hwaiting
          · obtain ⟨txid,htxid⟩ := haffected
            exact absurd htxid (hnone txid)
          · exact .inr hneeds
        refine ⟨?_,fun _ => hwaiting⟩
        unfold markDenominationReorg
        split
        · exact ⟨rfl,rfl,rfl⟩
        · rename_i hmark
          have haffected : ∃ txid, Affected chain db txid := by
            rw [Bool.or_eq_true,not_or,affected_isEmpty_iff] at hmark
            simpa only [not_forall,not_not] using hmark.1
          exact ⟨rfl,rfl,hwaiting haffected⟩

theorem lostSplit_resumes : ∃ done,
    reconcileDenominationStageChainState default emptyChain (.ok 130) lostSplit = .ok done ∧
    ((∀ cut partialState, interruptedReconciliation default emptyChain (.ok 130) cut lostSplit =
        .ok partialState → ∃ resumed, reconcileDenominationStageChainState default emptyChain
          (.ok 130) partialState = .ok resumed ∧ SameOutcome resumed done ∧
        (lostSplit.isTerminal = false → (∃ txid, Affected emptyChain lostSplit txid) →
          resumed.run.phase = .waitingDenomConfirmations)) ↔
    PhaseKeptByCleanUp emptyChain lostSplit) := by
  obtain ⟨done,h⟩ : ∃ done, reconcileDenominationStageChainState default emptyChain (.ok 130)
      lostSplit = .ok done := ⟨_,rfl⟩
  exact ⟨done,h,interruptedReconciliation_resumes h⟩

/-- A chain that includes the split one block later, and the child. -/
def movedChain : ChainView :=
  { emptyChain with localDenominationChainIdentity := fun txid =>
      if txid = splitTxid then some ⟨101,2⟩ else if txid = childTxid then some ⟨125,3⟩ else none }

/-- A run whose only part is mined, before a reorganisation that moves its split. -/
def movedSplit : RunState :=
  let run : Run :=
    { accountUuid := []
      network := .test
      phase := .waitingMigrationConfirmations
      targetValues := [1000000] }
  { RunState.created run with
    pending := ⟨[{ childOf splitTxid with status := .confirmed }],by decide⟩
    preparedNotes := [⟨splitTxid.text,0,none,.locked⟩]
    stages := ⟨[⟨0,splitTxid,90,none,.confirmed ⟨100,1⟩ none,[]⟩],by decide⟩ }

/-- Stopped after its second transaction, the reconciliation never returns the run to the phase in
which it waits for its split. -/
theorem movedSplit_loses_phase :
    Affected movedChain movedSplit splitTxid ∧
    RunState.isTerminal movedSplit = false ∧
    (fun done : RunState => done.run.phase) <$> reconcileDenominationStageChainState default
      movedChain (.ok 130) movedSplit = .ok .waitingDenomConfirmations ∧
    (fun resumed : RunState => resumed.run.phase) <$>
      (interruptedReconciliation default movedChain (.ok 130) 2 movedSplit >>=
        reconcileDenominationStageChainState default movedChain (.ok 130)) =
      .ok .waitingMigrationConfirmations :=
  ⟨⟨splitTxid,⟨_,List.mem_singleton.mpr rfl,rfl,by decide⟩,.refl⟩,rfl,rfl,rfl⟩

end CoppiceWallet.Store
