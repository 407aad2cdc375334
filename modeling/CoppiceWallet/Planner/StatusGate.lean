import CoppiceWallet.Planner.FinishTotal
import CoppiceWallet.Planner.Replay
import CoppiceWallet.Store.Model

/-!
# The status of a balance that is not being migrated

The status asks whether a balance can be migrated by planning its total as if it were one note. The
planner looks at the notes, and a note that is worth exactly a denomination and its fee needs no
preparation.
-/

namespace CoppiceWallet.Planner

open CoppiceWallet.Lib

def minIronwoodMigrationOutputZatoshi : Nat := 1
def migrationStatusFeeEstimateZatoshi : Nat := 15000
def denominationSplitStatusFeeEstimateZatoshi : Nat := 80000

/-- Take the largest denomination while one fits, which the remaining value bounds. -/
def planDenominationsLoop (migrationFee : Nat) :
    Nat → Nat → List Nat → PlanResult (Nat × List Nat)
  | 0, _, _ => .error (.aborted .outOfFuel)
  | fuel + 1, remaining, outputs =>
    match checkedSub remaining migrationFee with
    | none => .ok (remaining, outputs)
    | some spendableAfterFee =>
      match largestZip318DenominationAtOrBelow spendableAfterFee with
      | none => .ok (remaining, outputs)
      | some denomination => do
        let remaining ← okOr
          ((checkedSub remaining denomination).bind fun value => checkedSub value migrationFee)
          "Canonical denomination fee underflow"
        planDenominationsLoop migrationFee fuel remaining (outputs ++ [denomination])

def planDenominations (totalInput splitFee migrationFee minimumOutput : Nat) :
    PlanResult DenominationPlan :=
  if totalInput ≤ splitFee then .ok ⟨[], none, totalInput, migrationFee, totalInput, 0⟩
  else do
    let remaining ← okOr (checkedSub totalInput splitFee) "Denomination split fee underflow"
    let (remaining, outputs) ← planDenominationsLoop migrationFee (remaining + 1) remaining []
    let totalMigratable ← checkedSum outputs "Migratable total overflow"
    .ok ⟨outputs, if minimumOutput ≤ remaining then some remaining else none, splitFee,
      migrationFee, totalInput, totalMigratable⟩

def orchardBalanceCanCreateMigrationOutput (orchardSpendable : Nat) : PlanResult Bool :=
  if orchardSpendable = 0 then .ok false
  else do
    let plan ← planDenominations orchardSpendable denominationSplitStatusFeeEstimateZatoshi
      migrationStatusFeeEstimateZatoshi minIronwoodMigrationOutputZatoshi
    .ok !plan.migrationOutputs.isEmpty

/-- The phase that is shown when no run is active; the latest completed run has a phase of its
own. -/
def statusPhaseWithoutRun (latestCompletedRun : Option Store.Phase)
    (orchardSpendable orchardPending ironwoodSpendable ironwoodPending : Nat) :
    PlanResult Store.Phase := do
  let orchardMigratable ← orchardBalanceCanCreateMigrationOutput orchardSpendable
  match if orchardPending = 0 ∧ orchardMigratable = false then latestCompletedRun else none with
  | some phase => .ok phase
  | none => .ok (
    if 0 < orchardPending then .waitingForSpendableOrchard
    else if orchardMigratable then .readyToPrepare
    else if 0 < ironwoodSpendable then .complete
    else if 0 < ironwoodPending then .waitingForIronwoodSpendability
    else .noOrchardFunds)

/-- One multiplier of a magnitude. -/
def pickDenomination (value magnitude : Nat) (best : Option Nat) (multiplier : Nat) : Option Nat :=
  match checkedMul magnitude multiplier with
  | none => best
  | some denomination =>
    if denomination ≤ value ∧ denomination ≤ zip318MaxMigrationDenominationZatoshi then
      some denomination
    else best

theorem bestOfMagnitude_eq (value magnitude : Nat) (best : Option Nat) :
    bestOfMagnitude value magnitude best =
      [1,2,5].foldl (pickDenomination value magnitude) best := rfl

variable {magnitude value : Nat} {best : Option Nat}

theorem pickDenomination_isSome {multiplier : Nat} (h : best.isSome = true) :
    (pickDenomination value magnitude best multiplier).isSome = true := by
  rw [pickDenomination]
  split
  · exact h
  · split
    · rfl
    · exact h

theorem pickDenomination_above {multiplier : Nat} (h : value < magnitude * multiplier) :
    pickDenomination value magnitude best multiplier = best := by
  rw [pickDenomination,checkedMul]
  by_cases hlimit : magnitude * multiplier < u64Limit
  · rw [if_pos hlimit]
    exact if_neg fun hle => absurd hle.1 (by omega)
  · rw [if_neg hlimit]

theorem bestOfMagnitude_above (h : value < magnitude) :
    bestOfMagnitude value magnitude best = best := by
  rw [bestOfMagnitude_eq]
  simp only [List.foldl_cons,List.foldl_nil]
  rw [pickDenomination_above (by omega),pickDenomination_above (by omega),
    pickDenomination_above (by omega)]

theorem nextMagnitude (h : ¬zip318MaxMigrationDenominationZatoshi ≤ magnitude) :
    checkedMul magnitude 10 = some (magnitude * 10) := by
  have hlimit : magnitude * 10 < u64Limit := by
    simp only [zip318MaxMigrationDenominationZatoshi,zatoshisPerZec,u64Limit] at h ⊢
    omega
  rw [checkedMul,if_pos hlimit]

theorem largestDenominationLoop_isSome {fuel : Nat} (h : best.isSome = true) :
    (largestDenominationLoop value fuel magnitude best).isSome = true := by
  induction fuel generalizing magnitude best with
  | zero => exact h
  | succ fuel ih =>
    have hbest : (bestOfMagnitude value magnitude best).isSome = true :=
      pickDenomination_isSome (pickDenomination_isSome (pickDenomination_isSome h))
    rw [largestDenominationLoop]
    split
    · exact hbest
    · rename_i hsmall
      rw [nextMagnitude hsmall]
      exact ih hbest

theorem largestDenominationLoop_above {fuel : Nat} (h : value < magnitude) :
    largestDenominationLoop value fuel magnitude best = best := by
  induction fuel generalizing magnitude with
  | zero => rfl
  | succ fuel ih =>
    rw [largestDenominationLoop,bestOfMagnitude_above h]
    split
    · rfl
    · rename_i hsmall
      rw [nextMagnitude hsmall]
      exact ih (by omega)

theorem largestZip318Denomination_isSome (h : zip318MaxResidualValueZatoshi ≤ value) :
    (largestZip318DenominationAtOrBelow value).isSome = true := by
  have hfirst : pickDenomination value zip318MaxResidualValueZatoshi none 1 =
      some zip318MaxResidualValueZatoshi := if_pos ⟨h,by decide⟩
  have hbest : (bestOfMagnitude value zip318MaxResidualValueZatoshi none).isSome = true := by
    rw [bestOfMagnitude_eq]
    simp only [List.foldl_cons,List.foldl_nil,hfirst]
    exact pickDenomination_isSome (pickDenomination_isSome rfl)
  rw [largestZip318DenominationAtOrBelow,if_neg (Nat.not_lt.mpr h),largestDenominationLoop,
    if_neg (by decide),nextMagnitude (by decide)]
  exact largestDenominationLoop_isSome hbest

theorem largestZip318Denomination_first (h : zip318MaxResidualValueZatoshi ≤ value)
    (hlt : value < 2 * zip318MaxResidualValueZatoshi) :
    largestZip318DenominationAtOrBelow value = some zip318MaxResidualValueZatoshi := by
  have hfirst : pickDenomination value zip318MaxResidualValueZatoshi none 1 =
      some zip318MaxResidualValueZatoshi := if_pos ⟨h,by decide⟩
  have hbest : bestOfMagnitude value zip318MaxResidualValueZatoshi none =
      some zip318MaxResidualValueZatoshi := by
    rw [bestOfMagnitude_eq]
    simp only [List.foldl_cons,List.foldl_nil,hfirst]
    rw [pickDenomination_above (by omega),pickDenomination_above (by omega)]
  rw [largestZip318DenominationAtOrBelow,if_neg (Nat.not_lt.mpr h),largestDenominationLoop,
    if_neg (by decide),nextMagnitude (by decide),hbest]
  exact largestDenominationLoop_above (by omega)

theorem pickDenomination_ge {multiplier low : Nat} (hbest : ∀ b ∈ best, low ≤ b)
    (hlow : low ≤ magnitude * multiplier) :
    ∀ b ∈ pickDenomination value magnitude best multiplier, low ≤ b := by
  intro b hb
  rw [pickDenomination,checkedMul] at hb
  split at hb
  · exact hbest b hb
  · rename_i denomination hdenomination
    split at hb
    · cases hb
      split at hdenomination
      · cases hdenomination
        exact hlow
      · cases hdenomination
    · exact hbest b hb

theorem largestDenominationLoop_ge {fuel low : Nat} (hbest : ∀ b ∈ best, low ≤ b)
    (hlow : low ≤ magnitude) :
    ∀ b ∈ largestDenominationLoop value fuel magnitude best, low ≤ b := by
  induction fuel generalizing magnitude best with
  | zero => exact hbest
  | succ fuel ih =>
    have hnext : ∀ b ∈ bestOfMagnitude value magnitude best, low ≤ b :=
      pickDenomination_ge (pickDenomination_ge (pickDenomination_ge hbest (by omega)) (by omega))
        (by omega)
    rw [largestDenominationLoop]
    split
    · exact hnext
    · rename_i hsmall
      rw [nextMagnitude hsmall]
      exact ih hnext (by omega)

theorem largestZip318Denomination_ge {denomination : Nat}
    (h : largestZip318DenominationAtOrBelow value = some denomination) :
    zip318MaxResidualValueZatoshi ≤ denomination := by
  rw [largestZip318DenominationAtOrBelow] at h
  split at h
  · cases h
  · exact largestDenominationLoop_ge (fun _ hb => by cases hb) le_rfl _ h

theorem canonical_bounds (h : isZip318CanonicalDenomination value = true) :
    zip318MaxResidualValueZatoshi ≤ value ∧
      (value < 2 * zip318MaxResidualValueZatoshi → value = zip318MaxResidualValueZatoshi) := by
  have hvalue : largestZip318DenominationAtOrBelow value = some value := eq_of_beq h
  have hle := largestZip318Denomination_ge hvalue
  refine ⟨hle,?_⟩
  intro hlt
  rw [largestZip318Denomination_first hle hlt] at hvalue
  exact (Option.some.inj hvalue).symm

theorem planDenominationsLoop_ok {migrationFee fuel remaining : Nat} {outputs : List Nat}
    (hfuel : remaining < fuel) :
    ∃ rest added, planDenominationsLoop migrationFee fuel remaining outputs =
        .ok (rest,outputs ++ added) ∧ added.sum ≤ remaining ∧
      (added ≠ [] ↔ zip318MaxResidualValueZatoshi + migrationFee ≤ remaining) := by
  induction fuel generalizing remaining outputs with
  | zero => exact absurd hfuel (Nat.not_lt_zero _)
  | succ fuel ih =>
    rw [planDenominationsLoop]
    by_cases henough : zip318MaxResidualValueZatoshi + migrationFee ≤ remaining
    · have hsome := largestZip318Denomination_isSome
        (show zip318MaxResidualValueZatoshi ≤ remaining - migrationFee by omega)
      obtain ⟨denomination,hdenomination⟩ := Option.isSome_iff_exists.mp hsome
      have hle := largestZip318DenominationAtOrBelow_le hdenomination
      have hpositive : 0 < denomination :=
        (show 0 < zip318MaxResidualValueZatoshi by decide).trans_le
          (largestZip318Denomination_ge hdenomination)
      rw [checkedSub,if_pos (by omega)]
      dsimp only
      rw [hdenomination]
      dsimp only
      rw [checkedSub,if_pos (by omega),Option.bind_some,checkedSub,if_pos (by omega),okOr,ok_bind]
      have hrest : remaining - denomination - migrationFee < fuel := by omega
      obtain ⟨rest,added,hloop,hsum,_⟩ := @ih _ (outputs ++ [denomination]) hrest
      refine ⟨rest,denomination :: added,?_,?_,?_⟩
      · rw [hloop,List.append_assoc,List.singleton_append]
      · rw [List.sum_cons]
        omega
      · simp [henough]
    · refine ⟨remaining,[],?_,Nat.zero_le _,by simp [henough]⟩
      rw [List.append_nil]
      split
      · rfl
      · rename_i spendable hspendable
        obtain ⟨hle,hspendable⟩ := checkedSub_eq_some hspendable
        rw [largestZip318DenominationAtOrBelow,if_pos (by omega)]

/-- The least total that pays for a preparation transaction and a migration. -/
def minimumGateInput : Nat :=
  denominationSplitStatusFeeEstimateZatoshi + migrationStatusFeeEstimateZatoshi +
    zip318MaxResidualValueZatoshi

theorem orchardBalanceCanCreateMigrationOutput_eq {total : Nat} (h : total < u64Limit) :
    orchardBalanceCanCreateMigrationOutput total = .ok (decide (minimumGateInput ≤ total)) := by
  rw [orchardBalanceCanCreateMigrationOutput]
  by_cases hzero : total = 0
  · subst hzero
    rfl
  · rw [if_neg hzero,planDenominations]
    by_cases hsmall : total ≤ denominationSplitStatusFeeEstimateZatoshi
    · rw [if_pos hsmall,ok_bind]
      have hnot : ¬minimumGateInput ≤ total := by
        simp only [minimumGateInput,zip318MaxResidualValueZatoshi,zatoshisPerZec]
        omega
      simp [hnot]
    · obtain ⟨rest,added,hloop,hsum,hiff⟩ := @planDenominationsLoop_ok
        migrationStatusFeeEstimateZatoshi _ (total - denominationSplitStatusFeeEstimateZatoshi) []
        (Nat.lt_succ_self _)
      rw [if_neg hsmall,checkedSub,if_pos (by omega),okOr,ok_bind,hloop,ok_bind]
      dsimp only
      rw [List.nil_append,checkedSum_eq,if_pos (by omega),ok_bind,ok_bind]
      have hgate : added ≠ [] ↔ minimumGateInput ≤ total := by
        rw [hiff,minimumGateInput]
        omega
      by_cases hnil : added = []
      · have hnot : ¬minimumGateInput ≤ total := fun hle => hgate.mpr hle hnil
        simp [hnil,hnot]
      · have hyes := hgate.mp hnil
        simp [hnil,hyes]

variable {sort : NoteSort} {notes : List Nat} {context : PlanningContext}
  {feePerStage migrationFee : Nat}

theorem planningContext_limit {minimumOutput : Nat}
    (h : planningContext notes feePerStage minimumOutput = .ok (some context)) :
    context.totalInputZatoshi < u64Limit := by
  simp only [planningContext] at h
  split at h
  · cases h
  split at h
  · cases h
  split at h
  · cases h
  obtain ⟨total,htotal,h⟩ := bind_ok h
  obtain ⟨available,_,h⟩ := bind_ok h
  obtain ⟨prepFee,_,h⟩ := bind_ok h
  cases h
  rw [checkedSum_eq] at htotal
  split at htotal
  · cases htotal
    assumption
  · cases htotal

theorem planned_selection {σ : Type} {refine : Nat → σ → DenominationRefinement × σ} {state : σ}
    {minimumOutput : Nat} {plan : PaddedDenominationPlan}
    (h : planPaddedDenominationsWithRefiner refine state sort notes feePerStage migrationFee
      minimumOutput = .ok (some plan)) :
    notes.sum < u64Limit ∧ plan.denominations.migrationOutputs ≠ [] ∧
    ∃ (context : PlanningContext) (selection : Selection), context.Of notes ∧
      selection.Fits sort context feePerStage migrationFee ∧ selection.crossingValues ≠ [] ∧
      ∀ c ∈ selection.crossingValues, isZip318CanonicalDenomination c = true := by
  obtain ⟨answer,hanswer,h⟩ := bind_ok h
  split at h
  · cases h
  · rename_i context
    obtain ⟨minimumNote,_,h⟩ := bind_ok h
    obtain ⟨selection,hloop,h⟩ := bind_ok h
    obtain ⟨hcontext,_,_⟩ := planningContext_ok hanswer
    have hfits := (planLoop_fits hloop).resolve_left fun hempty => by
      rw [finishPlan,if_pos hempty] at h
      cases h
    obtain ⟨hne,houtputs⟩ := finishPlan_migrationOutputs hfits.funding.1 h
    refine ⟨hcontext.total ▸ planningContext_limit hanswer,?_,context,selection,hcontext,hfits,hne,
      planLoop_canonical hloop⟩
    rw [houtputs]
    intro hnil
    exact hne (List.Perm.eq_nil (hnil ▸ (sortDescending_perm selection.crossingValues).symm))

theorem fundingNote_mem {selection : Selection} (hcontext : context.Of notes)
    (hfits : selection.Fits sort context feePerStage migrationFee)
    (hcount : selection.preparation.transactionCount = 0) (hpositive : 0 < value)
    (hvalue : value ∈ selection.fundingValues) : value ∈ notes := by
  obtain ⟨typed,htyped,hprep,_⟩ := hfits.prepared
  have hsound := hfits.funding.2
  have htarget : value ∈ positiveTargets typed := by
    rw [positiveTargets,sortDescending,List.mem_insertionSort,List.mem_filter,htyped]
    exact ⟨hvalue,by simpa using hpositive⟩
  have hnote := (planPreparation_delivers hprep).funding.mem_iff.mpr htarget
  have hlayers : selection.preparation.layers.flatten = [] := by
    rw [← List.length_eq_zero_iff,List.length_flatten]
    exact hcount
  rw [PreparationPlan.fundingNotes,PreparationPlan.allOutputs,hlayers] at hnote
  obtain ⟨amount,hamount,rfl⟩ := List.mem_map.mp hnote
  obtain ⟨p,hp,rfl⟩ := List.mem_map.mp hamount
  have havailable := List.mem_map_of_mem (f := Zatoshis.value)
    (List.mem_of_getElem? (hsound.direct p hp))
  rw [hcontext.available] at havailable
  exact (List.mem_filter.mp havailable).1

/-- A plan is worth the gate's total, or it takes a note of the least denomination and its fee as it
is. -/
theorem planned_total {σ : Type} {refine : Nat → σ → DenominationRefinement × σ} {state : σ}
    {plan : PaddedDenominationPlan}
    (h : planPaddedDenominationsWithRefiner refine state sort notes
      denominationSplitStatusFeeEstimateZatoshi migrationStatusFeeEstimateZatoshi
      minIronwoodMigrationOutputZatoshi = .ok (some plan)) :
    minimumGateInput ≤ notes.sum ∨
      zip318MaxResidualValueZatoshi + migrationStatusFeeEstimateZatoshi ∈ notes := by
  obtain ⟨_,_,context,selection,hcontext,hfits,hne,hcanonical⟩ := planned_selection h
  obtain ⟨_,_,_,committed,hcommitted,hle⟩ := hfits.prepared
  obtain ⟨_,_,hcommitted⟩ := committedValue_ok hcommitted
  have hfunding := hfits.funding.1
  obtain ⟨crossing,rest,hcrossings⟩ := List.exists_cons_of_ne_nil hne
  have hcrossing : crossing ∈ selection.crossingValues := hcrossings ▸ List.mem_cons_self
  obtain ⟨hleast,hfirst⟩ := canonical_bounds (hcanonical crossing hcrossing)
  have hmem : crossing + migrationStatusFeeEstimateZatoshi ∈ selection.fundingValues :=
    hfunding ▸ List.mem_map_of_mem hcrossing
  have hsum := List.single_le_sum (fun _ _ => Nat.zero_le _) _ hmem
  rw [hcontext.total] at hle
  by_cases hcount : selection.preparation.transactionCount = 0
  · by_cases htotal : minimumGateInput ≤ notes.sum
    · exact .inl htotal
    · right
      have hone := hfirst (by
        simp only [minimumGateInput,denominationSplitStatusFeeEstimateZatoshi,
          migrationStatusFeeEstimateZatoshi,zip318MaxResidualValueZatoshi,zatoshisPerZec] at *
        omega)
      rw [← hone]
      exact fundingNote_mem hcontext hfits hcount (Nat.add_pos_right _ (by decide)) hmem
  · left
    have hfees := Nat.mul_le_mul_left denominationSplitStatusFeeEstimateZatoshi
      (Nat.one_le_iff_ne_zero.mpr hcount)
    rw [minimumGateInput]
    omega

/-- The note of the least denomination and its fee. -/
def exactFundingNote : Nat := zip318MaxResidualValueZatoshi + migrationStatusFeeEstimateZatoshi

theorem positive_sum_le (values : List Nat) : (values.filter (0 < ·)).sum ≤ values.sum :=
  (List.filter_sublist (p := fun v => decide (0 < v)) (l := values)).sum_le_sum
    (fun _ _ => Nat.zero_le _)

theorem planningContext_total {note : Nat} (hnote : note ∈ notes) (hpositive : 0 < note)
    (hfee : 0 < feePerStage) (hfeeMoney : feePerStage ≤ maxMoney) (hsum : notes.sum ≤ maxMoney) :
    ∃ context, planningContext notes feePerStage 1 = .ok (some context) := by
  have hmem : note ∈ notes.filter (0 < ·) := List.mem_filter.mpr ⟨hnote,by simpa using hpositive⟩
  have hindices : positiveIndices notes ≠ [] := by
    intro hnil
    have hlength := positive_lengths notes
    rw [hnil,List.length_nil,List.length_eq_zero_iff] at hlength
    exact List.ne_nil_of_mem hmem hlength
  have htyped : ∀ v ∈ notes.filter (0 < ·), ∃ typed : Zatoshis,
      okOr (Zatoshis.fromU64 v) "Selected Orchard note exceeds the maximum money supply" =
        .ok typed ∧ True := by
    intro v hv
    have hle := List.single_le_sum (fun _ _ => Nat.zero_le _) v (List.mem_of_mem_filter hv)
    rw [Zatoshis.fromU64,dif_pos (hle.trans hsum)]
    exact ⟨_,rfl,trivial⟩
  obtain ⟨typed,htyped,_⟩ := mapM_exists htyped
  have hfilter : (notes.filter (0 < ·)).sum < u64Limit := by
    have := positive_sum_le notes
    have := maxMoney_lt
    omega
  rw [planningContext]
  dsimp only
  rw [if_neg hindices,if_neg hfee.ne',if_neg (not_not.mpr rfl),checkedSum_eq,if_pos hfilter,ok_bind,
    htyped,ok_bind,Zatoshis.fromU64,dif_pos hfeeMoney,okOr,ok_bind]
  exact ⟨_,rfl⟩

theorem planPreparation_exact (sort : NoteSort) {available : List Zatoshis} {funding : Zatoshis}
    (fee : Zatoshis) (hmem : funding ∈ available) (hpositive : 0 < funding.value)
    (hsum : (available.map Zatoshis.value).sum ≤ maxMoney) :
    ∃ index, planPreparation sort available [funding] fee = .ok ⟨[],[(index,funding)]⟩ := by
  have htotals : totalsValid available [funding] = true := by
    simp [totalsValid,hsum,funding.le_maxMoney]
  have htargets : positiveTargets [funding] = [funding.value] := by
    simp [positiveTargets,sortDescending,hpositive]
  have hunused : ∃ index, unusedPosition (available.map Zatoshis.value)
      (List.replicate (available.map Zatoshis.value).length false) funding.value = some index := by
    rw [← Option.isSome_iff_exists,unusedPosition,List.findIdx?_isSome,List.any_eq_true]
    obtain ⟨i,hi⟩ := List.mem_iff_getElem?.mp hmem
    refine ⟨(funding.value,false),?_,by simp⟩
    obtain ⟨hlt,_⟩ := List.getElem?_eq_some_iff.mp hi
    apply List.mem_of_getElem? (i := i)
    rw [List.getElem?_zip_eq_some,List.getElem?_map,hi]
    exact ⟨rfl,List.getElem?_replicate_of_lt (by simpa using hlt)⟩
  obtain ⟨index,hindex⟩ := hunused
  have hzat : zat funding.value = .ok funding := by
    rw [zat,Zatoshis.fromU64_value]
  refine ⟨index,?_⟩
  have hgreedy : planPreparationGreedy sort available [funding] fee =
      .ok ⟨[],[(index,funding)]⟩ := by
    rw [planPreparationGreedy,htotals,htargets]
    simp only [Bool.not_true,Bool.false_eq_true,if_false]
    rw [extractDirectFunding,hindex]
    dsimp only
    rw [hzat,ok_bind,extractDirectFunding,ok_bind,ok_bind]
    rfl
  rw [planPreparation,hgreedy]

/-- The exact note as an amount. -/
def exactFundingZatoshis : Zatoshis := ⟨exactFundingNote,by decide⟩

/-- What the planner selects of a balance that is hardly more than the exact note. -/
def exactSelection (index : Nat) : Selection :=
  ⟨[zip318MaxResidualValueZatoshi],[exactFundingNote],⟨[],[(index,exactFundingZatoshis)]⟩⟩

theorem preparationForCrossings_exact (sort : NoteSort) (hcontext : context.Of notes)
    (hnote : exactFundingNote ∈ notes) (hsum : notes.sum ≤ maxMoney) :
    ∃ index, preparationForCrossings sort context [zip318MaxResidualValueZatoshi]
      denominationSplitStatusFeeEstimateZatoshi migrationStatusFeeEstimateZatoshi =
        .ok (some ([exactFundingNote],(exactSelection index).preparation)) := by
  have hmem : exactFundingZatoshis ∈ context.available := by
    have hvalue : exactFundingNote ∈ context.available.map Zatoshis.value := by
      rw [hcontext.available]
      exact List.mem_filter.mpr ⟨hnote,by decide⟩
    obtain ⟨amount,hamount,heq⟩ := List.mem_map.mp hvalue
    exact (Zatoshis.ext heq : amount = exactFundingZatoshis) ▸ hamount
  have havailable : (context.available.map Zatoshis.value).sum ≤ maxMoney := by
    rw [hcontext.available]
    exact (positive_sum_le notes).trans hsum
  obtain ⟨index,hprep⟩ := planPreparation_exact sort context.prepFee hmem (by decide) havailable
  have hle := List.single_le_sum (fun _ _ => Nat.zero_le _) _ hnote
  have hfunding : ([zip318MaxResidualValueZatoshi].mapM fun crossing =>
      okOr (checkedAdd crossing migrationStatusFeeEstimateZatoshi)
        "Prepared migration note value overflow") = .ok [exactFundingNote] := rfl
  have htyped : ([exactFundingNote].mapM fun value =>
      okOr (Zatoshis.fromU64 value) "Prepared migration note value is invalid") =
        .ok [exactFundingZatoshis] := rfl
  have hcommitted : committedValue [exactFundingNote] ⟨[],[(index,exactFundingZatoshis)]⟩
      denominationSplitStatusFeeEstimateZatoshi = .ok exactFundingNote := rfl
  refine ⟨index,?_⟩
  rw [preparationForCrossings,hfunding,ok_bind,htyped,ok_bind,hprep]
  dsimp only
  rw [hcommitted,ok_bind,if_pos (by rwa [hcontext.total])]
  rfl

theorem selectDenomination_exact (draws : Draws) {sort : NoteSort} {index affordable : Nat}
    (hprep : preparationForCrossings sort context [zip318MaxResidualValueZatoshi]
      denominationSplitStatusFeeEstimateZatoshi migrationStatusFeeEstimateZatoshi =
        .ok (some ([exactFundingNote],(exactSelection index).preparation)))
    (hleast : zip318MaxResidualValueZatoshi ≤ affordable)
    (hfirst : affordable < 2 * zip318MaxResidualValueZatoshi) :
    selectDenomination (refineDenomination aggressiveRefinementPolicy) sort context []
      denominationSplitStatusFeeEstimateZatoshi migrationStatusFeeEstimateZatoshi affordable
      affordable draws = .ok (some (exactSelection index),draws) := by
  have hlargest := largestZip318Denomination_first hleast hfirst
  have hpositive : 0 < zip318MaxResidualValueZatoshi := by decide
  have hrefine : refineDenomination aggressiveRefinementPolicy zip318MaxResidualValueZatoshi draws =
      (.leaf zip318MaxResidualValueZatoshi,draws) := rfl
  have hvalue : (DenominationRefinement.leaf zip318MaxResidualValueZatoshi).value =
      zip318MaxResidualValueZatoshi := rfl
  have hcandidates : refinementCandidates (.leaf zip318MaxResidualValueZatoshi) =
      .ok [[zip318MaxResidualValueZatoshi]] := by
    rw [DenominationRefinement.leaf,refinementCandidates]
    rfl
  cases affordable with
  | zero => omega
  | succ fuel =>
    rw [selectDenomination,if_neg (Nat.not_lt.mpr hleast),hlargest]
    dsimp only
    rw [hrefine]
    dsimp only
    rw [if_neg (not_not.mpr hvalue),hcandidates,ok_bind,tryCandidates,List.nil_append,hprep,
      ok_bind,ok_bind,if_pos (.inl rfl)]
    rfl

theorem planLoop_exact (sort : NoteSort) (draws : Draws) (hcontext : context.Of notes)
    (hnote : exactFundingNote ∈ notes) (hsmall : notes.sum < minimumGateInput) :
    ∃ index, planLoop (refineDenomination aggressiveRefinementPolicy) sort context exactFundingNote
      denominationSplitStatusFeeEstimateZatoshi migrationStatusFeeEstimateZatoshi
      (context.totalInputZatoshi + 1) .empty draws = .ok (exactSelection index) := by
  have hle := List.single_le_sum (fun _ _ => Nat.zero_le _) _ hnote
  have htotal := hcontext.total
  obtain ⟨index,hprep⟩ := preparationForCrossings_exact sort hcontext hnote
    (hsmall.le.trans (by decide))
  have hstart : committedValue [] ⟨[],[]⟩ denominationSplitStatusFeeEstimateZatoshi = .ok 0 := rfl
  have hcommitted : committedValue (exactSelection index).fundingValues
      (exactSelection index).preparation denominationSplitStatusFeeEstimateZatoshi =
        .ok exactFundingNote := rfl
  have haffordable : zip318MaxResidualValueZatoshi ≤
        affordableCrossing context.totalInputZatoshi migrationStatusFeeEstimateZatoshi ∧
      affordableCrossing context.totalInputZatoshi migrationStatusFeeEstimateZatoshi <
        2 * zip318MaxResidualValueZatoshi := by
    simp only [affordableCrossing,minimumGateInput,denominationSplitStatusFeeEstimateZatoshi,
      exactFundingNote,migrationStatusFeeEstimateZatoshi,zip318MaxResidualValueZatoshi,
      zip318MaxMigrationDenominationZatoshi,zatoshisPerZec] at *
    omega
  have hselect := selectDenomination_exact draws hprep haffordable.1 haffordable.2
  have hpositive : 0 < exactFundingNote := by decide
  obtain ⟨fuel,hfuel⟩ := Nat.exists_eq_succ_of_ne_zero
    (show context.totalInputZatoshi ≠ 0 by omega)
  refine ⟨index,?_⟩
  rw [planLoop,Selection.empty,hstart,ok_bind]
  dsimp only
  rw [Nat.sub_zero,if_neg (by omega),hselect,ok_bind]
  dsimp only
  rw [hfuel,planLoop,hcommitted,ok_bind]
  dsimp only
  rw [if_pos]
  rw [htotal]
  simp only [minimumGateInput,denominationSplitStatusFeeEstimateZatoshi,exactFundingNote,
    migrationStatusFeeEstimateZatoshi,zip318MaxResidualValueZatoshi,zatoshisPerZec] at *
  omega

theorem planPaddedDenominations_exact (draws : Draws) (sort : NoteSort)
    (hnote : exactFundingNote ∈ notes) (hsmall : notes.sum < minimumGateInput) :
    ∃ plan, planPaddedDenominations draws sort notes denominationSplitStatusFeeEstimateZatoshi
      migrationStatusFeeEstimateZatoshi minIronwoodMigrationOutputZatoshi = .ok (some plan) := by
  obtain ⟨context,hcontext⟩ := planningContext_total hnote (by decide)
    (show 0 < denominationSplitStatusFeeEstimateZatoshi by decide) (by decide)
    (hsmall.le.trans (by decide))
  obtain ⟨hof,_,_⟩ := planningContext_ok hcontext
  obtain ⟨index,hloop⟩ := planLoop_exact sort draws hof hnote hsmall
  have hminimum : minimumFundingNote migrationStatusFeeEstimateZatoshi = .ok exactFundingNote := rfl
  -- every positive note is worth something, so that there are few
  have hcount : context.available.length ≤ notes.sum := by
    have hlength := congrArg List.length hof.available
    rw [List.length_map] at hlength
    rw [hlength]
    refine (List.length_le_sum_of_one_le _ ?_).trans (positive_sum_le notes)
    intro value hvalue
    simpa [Nat.one_le_iff_ne_zero,Nat.pos_iff_ne_zero] using (List.mem_filter.mp hvalue).2
  obtain ⟨plan,hplan⟩ := planLoop_finishes hcontext hloop (by
    simp only [exactSelection,List.length_singleton,minimumGateInput,
      denominationSplitStatusFeeEstimateZatoshi,migrationStatusFeeEstimateZatoshi,
      zip318MaxResidualValueZatoshi,zatoshisPerZec] at *
    omega)
  cases plan with
  | none =>
    rw [finishPlan] at hplan
    split at hplan
    · rename_i hnil
      cases hnil
    split at hplan
    · cases hplan
    obtain ⟨_,_,hplan⟩ := bind_ok hplan
    obtain ⟨_,_,hplan⟩ := bind_ok hplan
    obtain ⟨_,_,hplan⟩ := bind_ok hplan
    obtain ⟨_,_,hplan⟩ := bind_ok hplan
    obtain ⟨_,_,hplan⟩ := bind_ok hplan
    cases hplan
  | some plan =>
    refine ⟨plan,?_⟩
    rw [planPaddedDenominations,planPaddedDenominationsWithRefiner,
      minIronwoodMigrationOutputZatoshi,hcontext,ok_bind]
    dsimp only
    rw [hminimum,ok_bind,hloop,ok_bind]
    exact hplan

/-- When the planner has a plan for the notes, the gate lets their sum through, and the status
neither calls the migration complete nor the balance empty. -/
def GateAgrees (notes : List Nat) : Prop :=
  ∀ (draws : Draws) (sort : NoteSort) (plan : PaddedDenominationPlan),
    planPaddedDenominations draws sort notes denominationSplitStatusFeeEstimateZatoshi
      migrationStatusFeeEstimateZatoshi minIronwoodMigrationOutputZatoshi = .ok (some plan) →
    plan.denominations.migrationOutputs ≠ [] →
      orchardBalanceCanCreateMigrationOutput notes.sum = .ok true ∧
      ∀ (latestCompletedRun : Option Store.Phase)
        (orchardPending ironwoodSpendable ironwoodPending : Nat) (phase : Store.Phase),
        statusPhaseWithoutRun latestCompletedRun notes.sum orchardPending ironwoodSpendable
          ironwoodPending = .ok phase → phase ≠ .complete ∧ phase ≠ .noOrchardFunds

theorem statusPhaseWithoutRun_migratable {latestCompletedRun : Option Store.Phase}
    {orchardSpendable orchardPending ironwoodSpendable ironwoodPending : Nat} {phase : Store.Phase}
    (hgate : orchardBalanceCanCreateMigrationOutput orchardSpendable = .ok true)
    (h : statusPhaseWithoutRun latestCompletedRun orchardSpendable orchardPending ironwoodSpendable
      ironwoodPending = .ok phase) : phase ≠ .complete ∧ phase ≠ .noOrchardFunds := by
  rw [statusPhaseWithoutRun,hgate,ok_bind,if_neg (by simp)] at h
  cases h
  split
  · simp
  · simp

/-- The gate agrees with the planner unless the balance is less than the gate asks for and has a
note that needs no preparation. -/
theorem gateAgrees_iff (notes : List Nat) :
    GateAgrees notes ↔ minimumGateInput ≤ notes.sum ∨ exactFundingNote ∉ notes := by
  constructor
  · intro h
    by_contra hneither
    rw [not_or,not_le,not_not] at hneither
    obtain ⟨plan,hplan⟩ := planPaddedDenominations_exact (fun _ => 0) insertionNoteSort hneither.2
      hneither.1
    obtain ⟨hlimit,houtputs,_⟩ := planned_selection hplan
    have hgate := (h _ _ plan hplan houtputs).1
    rw [orchardBalanceCanCreateMigrationOutput_eq hlimit,decide_eq_false
      (Nat.not_le.mpr hneither.1)] at hgate
    cases hgate
  · intro h draws sort plan hplan _
    have htotal : minimumGateInput ≤ notes.sum :=
      h.elim id fun hnone => (planned_total hplan).resolve_right hnone
    have hgate : orchardBalanceCanCreateMigrationOutput notes.sum = .ok true := by
      rw [orchardBalanceCanCreateMigrationOutput_eq (planned_selection hplan).1,
        decide_eq_true htotal]
    refine ⟨hgate,?_⟩
    intro latestCompletedRun orchardPending ironwoodSpendable ironwoodPending phase hphase
    exact statusPhaseWithoutRun_migratable hgate hphase

/-- The exact note alone can be migrated, and the status calls the migration complete. -/
theorem exactNote_complete : ¬GateAgrees [exactFundingNote] ∧
    statusPhaseWithoutRun none [exactFundingNote].sum 0 100000000 0 = .ok .complete := by
  refine ⟨?_,rfl⟩
  intro h
  obtain ⟨plan,hplan⟩ := planPaddedDenominations_exact (fun _ => 0) insertionNoteSort
    (List.mem_singleton_self exactFundingNote) (by decide)
  have hgate := (h _ _ plan hplan (planned_selection hplan).2.1).1
  have hclosed : orchardBalanceCanCreateMigrationOutput [exactFundingNote].sum = .ok false := rfl
  rw [hclosed] at hgate
  cases hgate

end CoppiceWallet.Planner
