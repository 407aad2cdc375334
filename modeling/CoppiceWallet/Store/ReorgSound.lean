import CoppiceWallet.Store.Reorg

/-! # A reconciliation settles the stages -/

namespace CoppiceWallet.Store

open CoppiceWallet.Lib

section Graph

variable (chain : ChainView) (db : RunState)

/-- A stage that spends an output of another one. -/
def PlannedParent : TxidHex → TxidHex → Prop :=
  Edge Stage.expectedTxid Stage.parentTxids db.stages.rows

/-- A stage that was un-mined or moved to another inclusion. -/
def InclusionChanged (txid : TxidHex) : Prop :=
  ∃ stage ∈ db.stages.rows, stage.expectedTxid = txid ∧ inclusionChanged chain stage = true

/-- A changed stage or a planned descendant of one. -/
def Affected (txid : TxidHex) : Prop :=
  ∃ changed, InclusionChanged chain db changed ∧
    Relation.ReflTransGen (PlannedParent db) changed txid

end Graph

variable {chain : ChainView} {db : RunState}

theorem mem_denominationStageChainRecords {stage : Stage} :
    stage ∈ denominationStageChainRecords db ↔ stage ∈ db.stages.rows :=
  List.mem_insertionSort _

theorem records_perm (db : RunState) :
    (denominationStageChainRecords db).Perm db.stages.rows :=
  List.perm_insertionSort _ _

theorem records_nodup (db : RunState) :
    ((denominationStageChainRecords db).map Stage.expectedTxid).Nodup :=
  ((records_perm db).map _).nodup_iff.mpr db.stages.keys_nodup

theorem mem_affectedStages {txid : TxidHex} :
    txid ∈ affectedStages chain (denominationStageChainRecords db) ↔ Affected chain db txid := by
  have hedge : Edge Stage.expectedTxid Stage.parentTxids (denominationStageChainRecords db) =
      PlannedParent db := by
    funext parent child
    exact propext (exists_congr fun _ => and_congr_left' mem_denominationStageChainRecords)
  have hsub : (((denominationStageChainRecords db).filter (inclusionChanged chain)).map
      Stage.expectedTxid).Sublist ((denominationStageChainRecords db).map Stage.expectedTxid) :=
    List.filter_sublist.map _
  rw [affectedStages,mem_saturate (hsub.nodup (records_nodup db)) (fun _ h => hsub.subset h)
    (by omega),hedge]
  refine exists_congr fun changed => and_congr_left fun _ => ?_
  simp only [List.mem_map,List.mem_filter,mem_denominationStageChainRecords,InclusionChanged]
  exact exists_congr fun _ => by tauto

/-- Every note of the stages that no included child spends, given back to be proved again. -/
def resetNotes (chain : ChainView) (txids : List TxidHex) (db : RunState) : List PreparedNote :=
  db.preparedNotes.map fun note =>
    if txids.any fun txid => staleNote chain txid db note then resetNote note else note

/-- What the clean-up leaves, for all the stages at once. -/
def cleaned (chain : ChainView) (txids : List TxidHex) (db : RunState) : RunState :=
  let pending := db.pending.delete fun row => txids.any fun txid => removedChild chain txid row
  { db with pending, preparedNotes := resetNotes chain txids db }

/-- Whether there is something to clean up for one of the stages. -/
def needsCleanUp (chain : ChainView) (txids : List TxidHex) (db : RunState) : Bool :=
  txids.any fun txid => db.pending.rows.any (removedChild chain txid) ||
    db.preparedNotes.any (staleNote chain txid db)

theorem staleNote_of_included {db db' : RunState} (txid : TxidHex)
    (h : db'.pending.rows.filter (fun row => fundedBy txid row && chain.onChain row.txid) =
      db.pending.rows.filter (fun row => fundedBy txid row && chain.onChain row.txid)) :
    staleNote chain txid db' = staleNote chain txid db := by
  funext note
  simp only [staleNote,Table.select,h]

theorem staleNote_cleaned (txids : List TxidHex) (txid : TxidHex) (db : RunState) :
    staleNote chain txid (cleaned chain txids db) = staleNote chain txid db := by
  refine staleNote_of_included txid ?_
  simp only [cleaned,Table.delete,List.filter_filter]
  refine List.filter_congr fun row _ => ?_
  cases hon : chain.onChain row.txid with
  | true => simp [removedChild,hon]
  | false => simp

theorem resetDenomination_eq (txid : TxidHex) (resetAny : Bool) (db : RunState) :
    resetDenomination chain (resetAny, db) txid =
      (resetAny || needsCleanUp chain [txid] db, cleaned chain [txid] db) := by
  simp only [resetDenomination,needsCleanUp,cleaned,resetNotes,List.any_cons,List.any_nil,
    Bool.or_false,Bool.or_assoc]

theorem cleaned_cons (txid : TxidHex) (txids : List TxidHex) (db : RunState) :
    cleaned chain txids (cleaned chain [txid] db) = cleaned chain (txid :: txids) db := by
  have hpending : (cleaned chain txids (cleaned chain [txid] db)).pending =
      (cleaned chain (txid :: txids) db).pending := by
    refine Table.ext ?_
    simp only [cleaned,Table.delete,List.filter_filter,List.any_cons,List.any_nil,Bool.or_false,
      Bool.not_or]
    exact List.filter_congr fun row _ => Bool.and_comm _ _
  have hnotes : (cleaned chain txids (cleaned chain [txid] db)).preparedNotes =
      (cleaned chain (txid :: txids) db).preparedNotes := by
    show resetNotes chain txids (cleaned chain [txid] db) = resetNotes chain (txid :: txids) db
    simp only [resetNotes,staleNote_cleaned]
    simp only [cleaned,resetNotes,List.map_map]
    refine List.map_congr_left fun note _ => ?_
    cases hstale : staleNote chain txid db note with
    | true => simp [hstale,resetNote]
    | false => simp [hstale]
  rw [RunState.mk.injEq]
  exact ⟨rfl,hpending,rfl,hnotes,rfl⟩

theorem cleaned_of_not_needsCleanUp {txids : List TxidHex} {db : RunState}
    (h : needsCleanUp chain txids db = false) : cleaned chain txids db = db := by
  rw [needsCleanUp,List.any_eq_false] at h
  have hpending : (cleaned chain txids db).pending = db.pending := by
    refine Table.ext (List.filter_eq_self.mpr fun row hrow => ?_)
    rw [Bool.not_eq_true',List.any_eq_false]
    intro txid htxid hremoved
    exact h txid htxid (by simp [List.any_eq_true.mpr ⟨row,hrow,hremoved⟩])
  have hnotes : (cleaned chain txids db).preparedNotes = db.preparedNotes := by
    refine (List.map_congr_left fun note hnote => ?_).trans (List.map_id _)
    rw [if_neg]
    · rfl
    · rw [List.any_eq_true]
      rintro ⟨txid,htxid,hstale⟩
      exact h txid htxid (by simp [List.any_eq_true.mpr ⟨note,hnote,hstale⟩])
  rw [RunState.mk.injEq]
  exact ⟨rfl,hpending,rfl,hnotes,rfl⟩

theorem resetDenomination_foldl (txids : List TxidHex) (resetAny : Bool) (db : RunState) :
    txids.foldl (resetDenomination chain) (resetAny, db) =
      (resetAny || needsCleanUp chain txids db, cleaned chain txids db) := by
  induction txids generalizing resetAny db with
  | nil =>
    have hnone : needsCleanUp chain [] db = false := rfl
    rw [hnone,cleaned_of_not_needsCleanUp hnone,Bool.or_false,List.foldl_nil]
  | cons txid txids ih =>
    rw [List.foldl_cons,resetDenomination_eq,ih,cleaned_cons]
    refine congrArg (·, cleaned chain (txid :: txids) db) ?_
    have hsplit : needsCleanUp chain (txid :: txids) db =
        (needsCleanUp chain [txid] db || needsCleanUp chain txids db) := by
      simp [needsCleanUp]
    rw [hsplit,Bool.or_assoc]
    -- After a clean-up of this stage the flag is set; without one the state is the same.
    cases hfirst : needsCleanUp chain [txid] db with
    | true => simp
    | false => rw [cleaned_of_not_needsCleanUp hfirst]

theorem cleanUpChildren_eq {plan : ReorgPlan} {db : RunState} (h : db.isTerminal = false) :
    cleanUpChildren chain plan db = if needsCleanUp chain plan.affected db then
      ((cleaned chain plan.affected db).setPhase .waitingDenomConfirmations none).setRun fun run =>
        { run with proofRetryHeight := none }
    else db := by
  unfold cleanUpChildren resetMigrationChildrenForReorgedDenominations
  rw [h,Bool.or_false]
  split
  · rename_i hempty
    rw [List.isEmpty_iff.mp hempty]
    rfl
  · rw [resetDenomination_foldl,Bool.false_or]
    dsimp only
    split
    · rfl
    · exact cleaned_of_not_needsCleanUp (Bool.eq_false_iff.mpr ‹_›)

theorem cleanUpChildren_of_terminal {plan : ReorgPlan} {db : RunState}
    (h : db.isTerminal = true) : cleanUpChildren chain plan db = db := by
  rw [cleanUpChildren,resetMigrationChildrenForReorgedDenominations,if_pos (by simp [h])]

theorem cleanUpChildren_stages (plan : ReorgPlan) (db : RunState) :
    (cleanUpChildren chain plan db).stages = db.stages := by
  cases h : db.isTerminal with
  | true => rw [cleanUpChildren_of_terminal h]
  | false =>
    rw [cleanUpChildren_eq h]
    split <;> rfl

variable (chain) in
theorem cleanUpChildren_pending (plan : ReorgPlan) {db : RunState} (h : db.isTerminal = false) :
    (cleanUpChildren chain plan db).pending.rows = db.pending.rows.filter fun row =>
      !plan.affected.any fun txid => removedChild chain txid row := by
  rw [cleanUpChildren_eq h]
  split
  · rfl
  · have hsame := cleaned_of_not_needsCleanUp (Bool.eq_false_iff.mpr ‹_›)
    conv_lhs => rw [← hsame]
    rfl

variable (chain) in
theorem cleanUpChildren_run (plan : ReorgPlan) (db : RunState) :
    (cleanUpChildren chain plan db).run.network = db.run.network ∧
    (cleanUpChildren chain plan db).run.preparationTimingPolicy = db.run.preparationTimingPolicy ∧
    (cleanUpChildren chain plan db).isTerminal = db.isTerminal := by
  cases h : db.isTerminal with
  | true =>
    rw [cleanUpChildren_of_terminal h]
    exact ⟨rfl,rfl,h⟩
  | false =>
    rw [cleanUpChildren_eq h]
    split
    · exact ⟨rfl,rfl,rfl⟩
    · exact ⟨rfl,rfl,h⟩

/-- The resets, on one stage. -/
def resetIn (txids : List TxidHex) (stage : Stage) : Stage :=
  if stage.expectedTxid ∈ txids then { stage with state := .awaitingInputs } else stage

/-- The recordings, on one stage. -/
def recordFrom (identities : List (TxidHex × ChainIdentity)) (stage : Stage) : Stage :=
  match identities.find? fun identity => decide (identity.1 = stage.expectedTxid) with
  | some identity =>
    { stage with state := .confirmed identity.2 stage.state.encryptedRawTx }
  | none => stage

private theorem resetIn_nil : resetIn [] = id := by
  funext stage
  simp [resetIn]

private theorem recordFrom_nil : recordFrom [] = id := by
  funext stage
  simp [recordFrom]

theorem resetStages_ok {txids : List TxidHex} {db db' : RunState}
    (h : resetStages txids db = .ok db') : ∃ stages, db' = { db with stages } ∧
      stages.rows = db.stages.rows.map (resetIn txids) := by
  induction txids generalizing db with
  | nil =>
    cases h
    exact ⟨db'.stages,rfl,by rw [resetIn_nil,List.map_id]⟩
  | cons txid txids ih =>
    rw [resetStages] at h
    obtain ⟨next,hnext,h⟩ := bind_ok h
    unfold resetDenominationStageExact at hnext
    split at hnext
    · cases hnext
      obtain ⟨stages,rfl,hrows⟩ := ih h
      refine ⟨stages,rfl,hrows.trans ?_⟩
      rw [updateStage,Table.update,List.map_map]
      refine List.map_congr_left fun s _ => ?_
      by_cases hs : s.expectedTxid = txid
      · simp [resetIn,hs]
      · simp [resetIn,hs]
    · cases hnext

theorem recordIdentities_ok {identities : List (TxidHex × ChainIdentity)} {db db' : RunState}
    (hnodup : (identities.map Prod.fst).Nodup) (h : recordIdentities identities db = .ok db') :
    ∃ stages, db' = { db with stages } ∧
      stages.rows = db.stages.rows.map (recordFrom identities) := by
  induction identities generalizing db with
  | nil =>
    cases h
    exact ⟨db'.stages,rfl,by rw [recordFrom_nil,List.map_id]⟩
  | cons identity identities ih =>
    rw [recordIdentities] at h
    obtain ⟨next,hnext,h⟩ := bind_ok h
    unfold replaceDenominationStageConfirmationIdentity at hnext
    rw [List.map_cons,List.nodup_cons] at hnodup
    split at hnext
    · cases hnext
      obtain ⟨stages,rfl,hrows⟩ := ih hnodup.2 h
      refine ⟨stages,rfl,hrows.trans ?_⟩
      rw [updateStage,Table.update,List.map_map]
      refine List.map_congr_left fun s _ => ?_
      by_cases hs : s.expectedTxid = identity.1
      · have hnone : identities.find? (fun other => decide (other.1 = identity.1)) = none := by
          rw [List.find?_eq_none]
          intro other hother heq
          exact hnodup.1 (of_decide_eq_true heq ▸ List.mem_map_of_mem hother)
        simp [recordFrom,hs,hnone]
      · simp [recordFrom,hs,Ne.symm hs]
    · cases hnext

/-- Spacing the remaining broadcasts changes only the heights before which they may not happen. -/
theorem rerandomizeStages_ok {rng : Rng} {mean max draw preceding : Nat} {remaining : List Stage}
    {db db' : RunState} (h : rerandomizeStages rng mean max draw preceding remaining db = .ok db') :
    ∃ stages, db' = { db with stages } ∧ ∃ notBefore : Stage → Option Nat,
      stages.rows = db.stages.rows.map fun s =>
        { s with broadcastNotBeforeHeight := notBefore s } := by
  induction remaining generalizing draw preceding db with
  | nil =>
    cases h
    exact ⟨db'.stages,rfl,Stage.broadcastNotBeforeHeight,(List.map_id _).symm⟩
  | cons stage remaining ih =>
    rw [rerandomizeStages] at h
    obtain ⟨randomized,_,h⟩ := bind_ok h
    obtain ⟨stages,rfl,notBefore,hrows⟩ := ih h
    refine ⟨stages,rfl,fun s => notBefore
      (if decide (s.stageIndex = stage.stageIndex) && s.state.unsubmitted then
        { s with broadcastNotBeforeHeight := some (Max.max (Max.max randomized stage.scheduledHeight)
          (stage.broadcastNotBeforeHeight.getD 0)) } else s),hrows.trans ?_⟩
    rw [setBroadcastNotBeforeHeight,Table.update,List.map_map]
    refine List.map_congr_left fun s _ => ?_
    simp only [Function.comp_apply]
    split <;> rfl

theorem restartSpacing_ok {rng : Rng} {recovered : Bool} {context : Option (WalletNetwork × Nat)}
    {db db' : RunState} (h : restartSpacing rng recovered context db = .ok db') :
    ∃ stages, db' = { db with stages } ∧ ∃ notBefore : Stage → Option Nat,
      stages.rows = db.stages.rows.map fun s =>
        { s with broadcastNotBeforeHeight := notBefore s } := by
  have hsame : ∃ stages, db = { db with stages } ∧ ∃ notBefore : Stage → Option Nat,
      stages.rows = db.stages.rows.map fun s =>
        { s with broadcastNotBeforeHeight := notBefore s } :=
    ⟨db.stages,rfl,Stage.broadcastNotBeforeHeight,(List.map_id _).symm⟩
  unfold restartSpacing at h
  split at h
  · unfold rerandomizeRemainingPreparationBroadcastHeights at h
    split at h
    · cases h
      exact hsame
    · exact rerandomizeStages_ok h
  · cases h
    exact hsame

/-- The state that the chain and the affected stages call for. -/
def settledState (chain : ChainView) (affected : List TxidHex) (stage : Stage) : StageState :=
  match chain.localDenominationChainIdentity stage.expectedTxid with
  | some identity => .confirmed identity stage.state.encryptedRawTx
  | none => if stage.expectedTxid ∈ affected then .awaitingInputs else stage.state

/-- What a reconciliation leaves of a stage. -/
def settledStage (chain : ChainView) (affected : List TxidHex) (notBefore : Stage → Option Nat)
    (stage : Stage) : Stage :=
  { stage with
    state := settledState chain affected stage
    broadcastNotBeforeHeight := notBefore stage }

theorem mem_invalidStages {records : List Stage} {txid : TxidHex} :
    txid ∈ (reorgPlan chain records).invalidStages ↔
      txid ∈ (reorgPlan chain records).affected ∧ chain.onChain txid = false := by
  simp [reorgPlan]

theorem identitiesToRecord_valid (records : List Stage) :
    ((reorgPlan chain records).identitiesToRecord.filter fun identity =>
      !(reorgPlan chain records).invalidStages.contains identity.1) =
      (reorgPlan chain records).identitiesToRecord := by
  rw [List.filter_eq_self]
  intro identity hmem
  rw [Bool.not_eq_true',List.contains_eq_mem,decide_eq_false_iff_not,mem_invalidStages]
  rintro ⟨_,hoff⟩
  obtain ⟨stage,_,hrecord⟩ := List.mem_filterMap.mp hmem
  obtain ⟨inclusion,hinclusion,rfl⟩ := Option.map_eq_some_iff.mp hrecord
  cases hchain : chain.localDenominationChainIdentity stage.expectedTxid with
  | some _ => simp [ChainView.onChain,hchain] at hoff
  | none =>
    unfold identityToRecord at hinclusion
    rw [hchain] at hinclusion
    split at hinclusion <;> simp_all

theorem identitiesToRecord_nodup (db : RunState) :
    ((reorgPlan chain (denominationStageChainRecords db)).identitiesToRecord.map
      Prod.fst).Nodup := by
  have hkeys : ∀ records : List Stage,
      ((reorgPlan chain records).identitiesToRecord.map Prod.fst).Sublist
        (records.map Stage.expectedTxid) := by
    intro records
    induction records with
    | nil => exact List.nil_sublist _
    | cons stage records ih =>
      simp only [reorgPlan,List.filterMap_cons,List.map_cons] at ih ⊢
      cases identityToRecord chain stage with
      | none => exact ih.cons _
      | some identity => exact ih.cons_cons _
  exact (hkeys _).nodup (records_nodup db)

variable (chain) in
theorem recordFrom_resetIn {stage : Stage} (hstage : stage ∈ db.stages.rows) :
    let plan := reorgPlan chain (denominationStageChainRecords db)
    recordFrom plan.identitiesToRecord (resetIn plan.invalidStages stage) =
      settledStage chain plan.affected Stage.broadcastNotBeforeHeight stage := by
  intro plan
  have htxid : (resetIn plan.invalidStages stage).expectedTxid = stage.expectedTxid := by
    unfold resetIn
    split <;> rfl
  unfold recordFrom settledStage
  rw [htxid]
  have hfind : plan.identitiesToRecord.find? (fun identity =>
      decide (identity.1 = stage.expectedTxid)) =
      (identityToRecord chain stage).map fun identity => (stage.expectedTxid, identity) :=
    find?_filterMap_key (records_nodup db) (mem_denominationStageChainRecords.mpr hstage)
  rw [hfind]
  cases hchain : chain.localDenominationChainIdentity stage.expectedTxid with
  | none =>
    have hrecord : identityToRecord chain stage = none := by
      unfold identityToRecord
      rw [hchain]
      split <;> simp_all
    have hoff : chain.onChain stage.expectedTxid = false := by simp [ChainView.onChain,hchain]
    simp only [hrecord,Option.map_none,resetIn,plan,mem_invalidStages,hoff,and_true,settledState,
      hchain]
    split <;> rfl
  | some identity =>
    have hvalid : stage.expectedTxid ∉ plan.invalidStages := by
      simp [plan,mem_invalidStages,ChainView.onChain,hchain]
    simp only [resetIn,if_neg hvalid,settledState,hchain]
    unfold identityToRecord
    rw [hchain]
    cases hstate : stage.state with
    | confirmed inclusion raw =>
      by_cases hsame : inclusion = identity
      · subst hsame
        simp [StageState.encryptedRawTx,← hstate]
      · simp [hsame]
    | awaitingInputs => simp
    | pending raw => simp
    | broadcasted raw => simp

theorem commitStageUpdate_ok {rng : Rng} {context : Option (WalletNetwork × Nat)}
    {start db' : RunState} (hstages : start.stages = db.stages) (hactive : start.isTerminal = false)
    (h : commitStageUpdate rng (reorgPlan chain (denominationStageChainRecords db)) context start =
      .ok db') :
    ∃ stages, db' = { start with stages } ∧ ∃ notBefore : Stage → Option Nat,
      stages.rows = db.stages.rows.map (settledStage chain
        (reorgPlan chain (denominationStageChainRecords db)).affected notBefore) := by
  unfold commitStageUpdate at h
  split at h
  · rename_i hempty
    cases h
    rw [Bool.and_eq_true,List.isEmpty_iff,List.isEmpty_iff] at hempty
    refine ⟨start.stages,rfl,Stage.broadcastNotBeforeHeight,?_⟩
    rw [hstages]
    refine Eq.symm ((List.map_congr_left fun stage hstage => ?_).trans (List.map_id _))
    have hsettled := recordFrom_resetIn chain hstage
    simpa only [hempty.1,hempty.2,resetIn_nil,recordFrom_nil,id_eq] using hsettled.symm
  · rw [if_neg (by simp [hactive]),identitiesToRecord_valid] at h
    obtain ⟨reset,hreset,h⟩ := bind_ok h
    obtain ⟨recorded,hrecorded,h⟩ := bind_ok h
    obtain ⟨resetStages,rfl,hresetRows⟩ := resetStages_ok hreset
    obtain ⟨recordedStages,rfl,hrecordedRows⟩ :=
      recordIdentities_ok (identitiesToRecord_nodup db) hrecorded
    obtain ⟨stages,rfl,notBefore,hrows⟩ := restartSpacing_ok h
    have hmiddle : recordedStages.rows = db.stages.rows.map (settledStage chain
        (reorgPlan chain (denominationStageChainRecords db)).affected
        Stage.broadcastNotBeforeHeight) := by
      rw [hrecordedRows,hresetRows,hstages,List.map_map]
      exact List.map_congr_left fun _ hstage => recordFrom_resetIn chain hstage
    refine ⟨stages,rfl,fun stage => notBefore (settledStage chain
      (reorgPlan chain (denominationStageChainRecords db)).affected
      Stage.broadcastNotBeforeHeight stage),?_⟩
    rw [hrows,hmiddle,List.map_map]
    rfl

theorem inclusionChanged_settledStage (affected : List TxidHex) (notBefore : Stage → Option Nat)
    {stage : Stage} (h : inclusionChanged chain stage = true → stage.expectedTxid ∈ affected) :
    inclusionChanged chain (settledStage chain affected notBefore stage) = false := by
  unfold settledStage settledState
  cases hchain : chain.localDenominationChainIdentity stage.expectedTxid with
  | some identity => simp [inclusionChanged,hchain]
  | none =>
    by_cases hmem : stage.expectedTxid ∈ affected
    · simp [inclusionChanged,hmem]
    · have hkept : inclusionChanged chain stage = false := Bool.eq_false_iff.mpr fun hc => hmem (h hc)
      simpa [inclusionChanged,hmem] using hkept

theorem identityToRecord_settledStage (affected : List TxidHex) (notBefore : Stage → Option Nat)
    (stage : Stage) :
    identityToRecord chain (settledStage chain affected notBefore stage) = none := by
  unfold settledStage settledState
  cases hchain : chain.localDenominationChainIdentity stage.expectedTxid with
  | some identity => simp [identityToRecord,hchain]
  | none =>
    unfold identityToRecord
    simp only [hchain]
    split <;> simp_all

theorem recoveredPending_settledStage (affected : List TxidHex) (notBefore : Stage → Option Nat)
    (stage : Stage) :
    recoveredPending chain (settledStage chain affected notBefore stage) = false := by
  unfold settledStage settledState
  cases hchain : chain.localDenominationChainIdentity stage.expectedTxid with
  | some identity => simp [recoveredPending]
  | none =>
    unfold recoveredPending
    split
    · simp [ChainView.onChain,hchain]
    · rfl

/-- The plan in which nothing happens. -/
def ReorgPlan.none : ReorgPlan := ⟨[],[],[],[]⟩

theorem reorgPlan_eq_none {db : RunState}
    (hchanged : ∀ stage ∈ db.stages.rows, inclusionChanged chain stage = false)
    (hrecord : ∀ stage ∈ db.stages.rows, identityToRecord chain stage = Option.none)
    (hpending : ∀ stage ∈ db.stages.rows, recoveredPending chain stage = false) :
    reorgPlan chain (denominationStageChainRecords db) = .none := by
  have haffected : affectedStages chain (denominationStageChainRecords db) = [] := by
    refine List.eq_nil_iff_forall_not_mem.mpr fun txid htxid => ?_
    obtain ⟨_,⟨stage,hstage,_,hc⟩,_⟩ := mem_affectedStages.mp htxid
    rw [hchanged stage hstage] at hc
    cases hc
  have hidentities : (denominationStageChainRecords db).filterMap (fun stage =>
      (identityToRecord chain stage).map fun identity => (stage.expectedTxid, identity)) = [] := by
    rw [List.filterMap_eq_nil_iff]
    intro stage hstage
    rw [hrecord stage (mem_denominationStageChainRecords.mp hstage)]
    rfl
  have hrecovered : (denominationStageChainRecords db).filter (recoveredPending chain) = [] := by
    rw [List.filter_eq_nil_iff]
    intro stage hstage
    simp [hpending stage (mem_denominationStageChainRecords.mp hstage)]
  simp only [reorgPlan,haffected,hidentities,hrecovered,List.filter_nil,List.map_nil,
    ReorgPlan.none]

theorem reconcileDenominationStageChainState_of_none {rng : Rng} {chainTip : StoreResult Nat}
    {db : RunState} (h : reorgPlan chain (denominationStageChainRecords db) = .none) :
    reconcileDenominationStageChainState rng chain chainTip db = .ok db := by
  unfold reconcileDenominationStageChainState
  dsimp only
  split
  · rfl
  · rw [h]
    rfl

theorem reorgPlan_of_settled {db db' : RunState} {notBefore : Stage → Option Nat}
    (h : db'.stages.rows = db.stages.rows.map (settledStage chain
      (reorgPlan chain (denominationStageChainRecords db)).affected notBefore)) :
    reorgPlan chain (denominationStageChainRecords db') = .none := by
  refine reorgPlan_eq_none ?_ ?_ ?_ <;> intro new hnew <;> rw [h,List.mem_map] at hnew <;>
    obtain ⟨stage,hstage,rfl⟩ := hnew
  · refine inclusionChanged_settledStage _ _ fun hc => mem_affectedStages.mpr ?_
    exact ⟨stage.expectedTxid,⟨stage,hstage,rfl,hc⟩,.refl⟩
  · exact identityToRecord_settledStage _ _ stage
  · exact recoveredPending_settledStage _ _ stage

/-- What a reconciliation must make of one stage. -/
structure StageReconciled (chain : ChainView) (db : RunState) (old new : Stage) : Prop where
  planned : new.stageIndex = old.stageIndex ∧ new.expectedTxid = old.expectedTxid ∧
    new.scheduledHeight = old.scheduledHeight ∧ new.parentTxids = old.parentTxids
  confirmed : ∀ identity, chain.localDenominationChainIdentity old.expectedTxid = some identity →
    new.state = .confirmed identity old.state.encryptedRawTx
  reset : chain.onChain old.expectedTxid = false →
    ((∃ inclusion raw, old.state = .confirmed inclusion raw) ∨
      ∃ ancestor, InclusionChanged chain db ancestor ∧
        Relation.TransGen (PlannedParent db) ancestor old.expectedTxid) →
    new.state = .awaitingInputs
  kept : chain.onChain old.expectedTxid = false →
    ¬((∃ inclusion raw, old.state = .confirmed inclusion raw) ∨
      ∃ ancestor, InclusionChanged chain db ancestor ∧
        Relation.TransGen (PlannedParent db) ancestor old.expectedTxid) →
    new.state = old.state

theorem affected_iff {stage : Stage} (hstage : stage ∈ db.stages.rows)
    (hoff : chain.onChain stage.expectedTxid = false) :
    Affected chain db stage.expectedTxid ↔
      (∃ inclusion raw, stage.state = .confirmed inclusion raw) ∨
      ∃ ancestor, InclusionChanged chain db ancestor ∧
        Relation.TransGen (PlannedParent db) ancestor stage.expectedTxid := by
  have hnone : chain.localDenominationChainIdentity stage.expectedTxid = none := by
    simpa [ChainView.onChain] using hoff
  have hself : InclusionChanged chain db stage.expectedTxid ↔
      ∃ inclusion raw, stage.state = .confirmed inclusion raw := by
    constructor
    · rintro ⟨other,hother,htxid,hchanged⟩
      obtain rfl := db.stages.eq_of_key hother hstage htxid
      cases hstate : other.state with
      | confirmed inclusion raw => exact ⟨inclusion,raw,rfl⟩
      | awaitingInputs => simp [inclusionChanged,hstate] at hchanged
      | pending raw => simp [inclusionChanged,hstate] at hchanged
      | broadcasted raw => simp [inclusionChanged,hstate] at hchanged
    · rintro ⟨inclusion,raw,hstate⟩
      exact ⟨stage,hstage,rfl,by simp [inclusionChanged,hstate,hnone]⟩
  constructor
  · rintro ⟨changed,hchanged,hreach⟩
    rcases Relation.reflTransGen_iff_eq_or_transGen.mp hreach with heq | hreach
    · exact .inl (hself.mp (heq ▸ hchanged))
    · exact .inr ⟨changed,hchanged,hreach⟩
  · rintro (hconfirmed | ⟨ancestor,hchanged,hreach⟩)
    · exact ⟨_,hself.mpr hconfirmed,.refl⟩
    · exact ⟨ancestor,hchanged,hreach.to_reflTransGen⟩

theorem settledStage_reconciled (notBefore : Stage → Option Nat) {stage : Stage}
    (hstage : stage ∈ db.stages.rows) : StageReconciled chain db stage (settledStage chain
      (reorgPlan chain (denominationStageChainRecords db)).affected notBefore stage) where
  planned := ⟨rfl,rfl,rfl,rfl⟩
  confirmed := by
    intro identity hidentity
    simp [settledStage,settledState,hidentity]
  reset := by
    intro hoff hcause
    have hmem : stage.expectedTxid ∈
        (reorgPlan chain (denominationStageChainRecords db)).affected :=
      mem_affectedStages.mpr ((affected_iff hstage hoff).mpr hcause)
    rw [ChainView.onChain,Option.isSome_eq_false_iff,Option.isNone_iff_eq_none] at hoff
    simp [settledStage,settledState,hoff,hmem]
  kept := by
    intro hoff hcause
    have hmem : stage.expectedTxid ∉
        (reorgPlan chain (denominationStageChainRecords db)).affected :=
      fun h => hcause ((affected_iff hstage hoff).mp (mem_affectedStages.mp h))
    rw [ChainView.onChain,Option.isSome_eq_false_iff,Option.isNone_iff_eq_none] at hoff
    simp [settledStage,settledState,hoff,hmem]

theorem reconcileDenominationStageChainState_ok {rng : Rng} {chainTip : StoreResult Nat}
    {db done : RunState} (hactive : db.isTerminal = false)
    (h : reconcileDenominationStageChainState rng chain chainTip db = .ok done) :
    ∃ notBefore : Stage → Option Nat,
      done.stages.rows = db.stages.rows.map (settledStage chain
        (reorgPlan chain (denominationStageChainRecords db)).affected notBefore) ∧
      done.pending.rows = db.pending.rows.filter fun row =>
        !(reorgPlan chain (denominationStageChainRecords db)).affected.any fun txid =>
          removedChild chain txid row := by
  unfold reconcileDenominationStageChainState at h
  dsimp only at h
  split at h
  · rename_i hempty
    cases h
    have hrows : db.stages.rows = [] := by
      have hperm := records_perm db
      rw [List.isEmpty_iff.mp hempty] at hperm
      exact hperm.nil_eq.symm
    refine ⟨fun _ => none,by simp [hrows],?_⟩
    simp [List.isEmpty_iff.mp hempty,reorgPlan,affectedStages,saturate,spread]
  · obtain ⟨context,_,h⟩ := bind_ok h
    obtain ⟨committed,hcommitted,h⟩ := bind_ok h
    cases h
    obtain ⟨_,_,hterminal⟩ := cleanUpChildren_run chain
      (reorgPlan chain (denominationStageChainRecords db)) db
    obtain ⟨stages,rfl,notBefore,hrows⟩ := commitStageUpdate_ok
      (cleanUpChildren_stages _ db) (hterminal.trans hactive) hcommitted
    have hpending := cleanUpChildren_pending chain
      (reorgPlan chain (denominationStageChainRecords db)) hactive
    refine ⟨notBefore,?_,?_⟩ <;> unfold markDenominationReorg <;> split
    · exact hrows
    · exact hrows
    · exact hpending
    · exact hpending

/-- Reconciling brings every stage to what the chain and the planned graph call for, removes
exactly the off-chain children of affected stages, and has nothing left to do afterwards. -/
theorem reconcileDenominationStageChainState_settles {rng : Rng} {chain : ChainView}
    {chainTip : StoreResult Nat} {db done : RunState} (hactive : db.isTerminal = false)
    (h : reconcileDenominationStageChainState rng chain chainTip db = .ok done) :
    List.Forall₂ (StageReconciled chain db) db.stages.rows done.stages.rows ∧
    (∀ row, row ∈ done.pending.rows ↔ row ∈ db.pending.rows ∧
      ¬(chain.onChain row.txid = false ∧ ∃ txid, Affected chain db txid ∧ fundedBy txid row)) ∧
    ∀ rng' chainTip', reconcileDenominationStageChainState rng' chain chainTip' done =
      .ok done := by
  obtain ⟨notBefore,hstages,hpending⟩ := reconcileDenominationStageChainState_ok hactive h
  refine ⟨?_,fun row => ?_,fun _ _ =>
    reconcileDenominationStageChainState_of_none (reorgPlan_of_settled hstages)⟩
  · rw [hstages,List.forall₂_map_right_iff,List.forall₂_same]
    exact fun stage hstage => settledStage_reconciled notBefore hstage
  · rw [hpending,List.mem_filter]
    refine and_congr_right fun _ => ?_
    rw [Bool.not_eq_true',List.any_eq_false,not_and]
    have haffected : ∀ txid, txid ∈ (reorgPlan chain (denominationStageChainRecords db)).affected ↔
      Affected chain db txid := fun _ => mem_affectedStages
    constructor
    · rintro hnone hoff ⟨txid,htxid,hfunded⟩
      exact hnone txid ((haffected txid).mpr htxid) (by simp [removedChild,hfunded,hoff])
    · intro hnone txid htxid hremoved
      rw [removedChild,Bool.and_eq_true,Bool.not_eq_true'] at hremoved
      exact hnone hremoved.2 ⟨txid,(haffected txid).mp htxid,hremoved.1⟩

def splitTxid : TxidHex := ⟨"aa".toList,by decide⟩
def descendantTxid : TxidHex := ⟨"bb".toList,by decide⟩
def childTxid : TxidHex := ⟨"cc".toList,by decide⟩

/-- A chain that includes nothing of the wallet. -/
def emptyChain : ChainView where
  localDenominationChainIdentity := fun _ => none
  localTransactionRaw := fun _ => false
  syncedOrchardConfirmationCount := fun _ => 0
  denominationConfirmationsRequired := 3

/-- A child broadcast at height 120 that spends the first output of a transaction. -/
def childOf (txid : TxidHex) : PendingTx where
  txid := childTxid
  partIndex := some 0
  encryptedRawTx := []
  targetHeight := 110
  anchorBoundaryHeight := some 100
  expiryHeight := 69120
  value := 1000000
  fee := 15000
  selectedNote := ⟨txid.text,0,1015000⟩
  scheduleStartHeight := some 110
  scheduledHeight := 120
  originalScheduledHeight := some 120
  rebuildBlockOffset := none
  status := .broadcasted

/-- A confirmed split whose block is lost, a broadcasted descendant and a child of that one. -/
def lostSplit : RunState :=
  let run : Run :=
    { accountUuid := [], network := .test, phase := .broadcastScheduled, targetValues := [1000000] }
  { RunState.created run with
    pending := ⟨[childOf descendantTxid],by decide⟩
    stages := ⟨[⟨0,splitTxid,90,none,.confirmed ⟨100,1⟩ none,[]⟩,
      ⟨1,descendantTxid,95,none,.broadcasted [],[splitTxid]⟩],by decide⟩ }

theorem lostSplit_settles : ∃ done,
    reconcileDenominationStageChainState default emptyChain (.ok 130) lostSplit = .ok done ∧
    List.Forall₂ (StageReconciled emptyChain lostSplit) lostSplit.stages.rows done.stages.rows ∧
    (∀ row, row ∈ done.pending.rows ↔ row ∈ lostSplit.pending.rows ∧
      ¬(emptyChain.onChain row.txid = false ∧
        ∃ txid, Affected emptyChain lostSplit txid ∧ fundedBy txid row)) ∧
    ∀ rng' chainTip', reconcileDenominationStageChainState rng' emptyChain chainTip' done =
      .ok done := by
  obtain ⟨done,h⟩ : ∃ done, reconcileDenominationStageChainState default emptyChain (.ok 130)
      lostSplit = .ok done := ⟨_,rfl⟩
  exact ⟨done,h,reconcileDenominationStageChainState_settles rfl h⟩

end CoppiceWallet.Store
