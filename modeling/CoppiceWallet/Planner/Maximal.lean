import CoppiceWallet.Planner.StatusGate

/-!
# Plans are maximal

What an approved plan leaves as change does not pay for another denomination: with any one that fits
into the change the planner refuses to plan.
-/

namespace CoppiceWallet.Planner

open CoppiceWallet.Lib

variable {sort : NoteSort} {context : PlanningContext} {feePerStage migrationFee : Nat}

section Denominations

variable {value value' magnitude multiplier : Nat} {best best' : Option Nat}

theorem pickDenomination_mono (hvalue : value ≤ value')
    (hbest : ∀ b ∈ best, b ≤ magnitude * multiplier ∧ b ≤ zip318MaxMigrationDenominationZatoshi ∧
      ∃ b' ∈ best', b ≤ b') :
    ∀ b ∈ pickDenomination value magnitude best multiplier, b ≤ magnitude * multiplier ∧
      b ≤ zip318MaxMigrationDenominationZatoshi ∧
      ∃ b' ∈ pickDenomination value' magnitude best' multiplier, b ≤ b' := by
  intro b hb
  simp only [pickDenomination,checkedMul] at hb ⊢
  by_cases hlimit : magnitude * multiplier < u64Limit
  · simp only [if_pos hlimit] at hb ⊢
    by_cases hpick : magnitude * multiplier ≤ value ∧
        magnitude * multiplier ≤ zip318MaxMigrationDenominationZatoshi
    · rw [if_pos hpick] at hb
      cases hb
      rw [if_pos ⟨hpick.1.trans hvalue,hpick.2⟩]
      exact ⟨le_rfl,hpick.2,_,rfl,le_rfl⟩
    · rw [if_neg hpick] at hb
      obtain ⟨hle,hmax,b',hb',hbb'⟩ := hbest b hb
      split
      · exact ⟨hle,hmax,_,rfl,hle⟩
      · exact ⟨hle,hmax,b',hb',hbb'⟩
  · simp only [if_neg hlimit] at hb ⊢
    exact hbest b hb

theorem largestDenominationLoop_mono {fuel : Nat} (hvalue : value ≤ value')
    (hbest : ∀ b ∈ best, b ≤ magnitude ∧ b ≤ zip318MaxMigrationDenominationZatoshi ∧
      ∃ b' ∈ best', b ≤ b') :
    ∀ b ∈ largestDenominationLoop value fuel magnitude best,
      b ≤ zip318MaxMigrationDenominationZatoshi ∧
      ∃ b' ∈ largestDenominationLoop value' fuel magnitude best', b ≤ b' := by
  induction fuel generalizing magnitude best best' with
  | zero => exact fun b hb => (hbest b hb).2
  | succ fuel ih =>
    have hnext : ∀ b ∈ bestOfMagnitude value magnitude best, b ≤ magnitude * 5 ∧
        b ≤ zip318MaxMigrationDenominationZatoshi ∧
        ∃ b' ∈ bestOfMagnitude value' magnitude best', b ≤ b' := by
      refine pickDenomination_mono hvalue fun b hb => ?_
      refine (pickDenomination_mono hvalue fun b hb => ?_) b hb |>.imp_left (by omega)
      refine (pickDenomination_mono hvalue fun b hb => ?_) b hb |>.imp_left (by omega)
      exact (hbest b hb).imp_left (by omega)
    simp only [largestDenominationLoop]
    split
    · exact fun b hb => (hnext b hb).2
    · rename_i hsmall
      rw [nextMagnitude hsmall]
      exact ih fun b hb => (hnext b hb).imp_left (by omega)

theorem canonical_le_largest {denomination : Nat}
    (h : isZip318CanonicalDenomination denomination = true) (hle : denomination ≤ value) :
    denomination ≤ zip318MaxMigrationDenominationZatoshi ∧
      ∃ largest, largestZip318DenominationAtOrBelow value = some largest ∧
        denomination ≤ largest := by
  have hself : largestZip318DenominationAtOrBelow denomination = some denomination := eq_of_beq h
  have hlow := (canonical_bounds h).1
  rw [largestZip318DenominationAtOrBelow,if_neg (by omega)] at hself ⊢
  exact largestDenominationLoop_mono hle (fun _ hb => by cases hb) _ hself

end Denominations

theorem refused_of_canAppendLoop {crossings : List Nat} {fuel affordable denomination : Nat}
    (hfuel : affordable ≤ fuel) (hcanonical : isZip318CanonicalDenomination denomination = true)
    (hle : denomination ≤ affordable)
    (h : canAppendLoop sort context crossings feePerStage migrationFee fuel affordable =
      .ok false) :
    preparationForCrossings sort context (crossings ++ [denomination]) feePerStage migrationFee =
      .ok none := by
  have hlow := (canonical_bounds hcanonical).1
  have hpositive : 0 < zip318MaxResidualValueZatoshi := by decide
  induction fuel generalizing affordable with
  | zero => omega
  | succ fuel ih =>
    obtain ⟨_,largest,hlargest,hdenomination⟩ := canonical_le_largest hcanonical hle
    have hlargestLe := largestZip318DenominationAtOrBelow_le hlargest
    rw [canAppendLoop,if_neg (by omega)] at h
    simp only [hlargest] at h
    obtain ⟨answer,hanswer,h⟩ := bind_ok h
    cases answer with
    | some _ => cases h
    | none =>
      by_cases heq : denomination = largest
      · rw [heq]
        exact hanswer
      · simp only at h
        rw [if_neg (by omega)] at h
        exact ih (by omega) (by omega) h

theorem finishPlan_change {selection : Selection} {committed minimumOutput : Nat}
    {plan : PaddedDenominationPlan}
    (hcommitted : committedValue selection.fundingValues selection.preparation feePerStage =
      .ok committed)
    (h : finishPlan context selection feePerStage migrationFee minimumOutput = .ok (some plan)) :
    plan.denominations.orchardChange.getD 0 ≤ context.totalInputZatoshi - committed := by
  obtain ⟨_,_,hvalue⟩ := committedValue_ok hcommitted
  simp only [finishPlan] at h
  split at h
  · cases h
  split at h
  · cases h
  rename_i hlength
  obtain ⟨splitFee,hsplit,h⟩ := bind_ok h
  obtain ⟨fundingTotal,htotal,h⟩ := bind_ok h
  obtain ⟨remaining,hremaining,h⟩ := bind_ok h
  obtain ⟨_,_,h⟩ := bind_ok h
  obtain ⟨translated,htranslated,h⟩ := bind_ok h
  cases h
  have hfee := checkedMul_eq_some (okOr_ok hsplit)
  obtain ⟨afterFunding,hfunding,hfees⟩ := Option.bind_eq_some_iff.mp (okOr_ok hremaining)
  have hafter := (checkedSub_eq_some hfunding).2
  have hleft := (checkedSub_eq_some hfees).2
  have hsum : fundingTotal = selection.fundingValues.sum := by
    rw [checkedSum_ok htotal,((List.perm_insertionSort _ _).map Prod.snd).sum_eq,
      List.map_snd_zip (by omega)]
  rw [(translatePreparationPlan_ok htranslated).1]
  dsimp only
  split
  · rw [Option.getD_some]
    omega
  · exact Nat.zero_le _

/-- What the targets planner accepts, it refuses together with a denomination that the change could
pay for. -/
theorem refused_of_targets {inputValues targets targets' : List Nat}
    {minimumOutput denomination : Nat} {plan : PaddedDenominationPlan}
    (h : planPaddedDenominationsForTargets sort inputValues targets feePerStage migrationFee
      minimumOutput = .ok (some plan))
    (hcanonical : isZip318CanonicalDenomination denomination = true)
    (hchange : denomination + migrationFee ≤ plan.denominations.orchardChange.getD 0)
    (hperm : targets'.Perm (denomination :: targets)) (plan' : PaddedDenominationPlan) :
    planPaddedDenominationsForTargets sort inputValues targets' feePerStage migrationFee
      minimumOutput ≠ .ok (some plan') := by
  unfold planPaddedDenominationsForTargets at h
  split at h
  · cases h
  split at h
  · cases h
  split at h
  · cases h
  obtain ⟨answer,hcontext,h⟩ := bind_ok h
  split at h
  · cases h
  rename_i context
  obtain ⟨answer,_,h⟩ := bind_ok h
  split at h
  · cases h
  rename_i fundingValues preparation
  obtain ⟨append,happend,h⟩ := bind_ok h
  split at h
  · cases h
  rename_i hstop
  obtain ⟨committed,hcommitted,happend⟩ := bind_ok happend
  obtain ⟨minimumNote,hminimum,happend⟩ := bind_ok happend
  have hremaining := finishPlan_change hcommitted h
  have hlow := (canonical_bounds hcanonical).1
  have hnote := checkedAdd_eq_some (okOr_ok hminimum)
  rw [if_neg (by omega),Bool.eq_false_iff.mpr hstop] at happend
  have hrefused := refused_of_canAppendLoop le_rfl hcanonical
    (le_min (by omega) (canonical_le_largest hcanonical le_rfl).1) happend
  have hperm' : (targets ++ [denomination]).Perm targets' :=
    List.perm_append_comm.trans hperm.symm
  have hnone := preparationForCrossings_perm hperm' hrefused
  intro haccepted
  simp only [planPaddedDenominationsForTargets,hcontext,hnone,bind,Except.bind] at haccepted
  grind

/-- An approved plan cannot be extended: planned together with any denomination that its change
could pay for, its own denominations are refused. -/
theorem planPaddedDenominations_maximal (draws : Draws) (sort : NoteSort)
    (inputValues targets : List Nat) (feePerStage migrationFee minimumOutput denomination : Nat)
    (plan plan' : PaddedDenominationPlan)
    (h : planPaddedDenominations draws sort inputValues feePerStage migrationFee minimumOutput =
      .ok (some plan))
    (hcanonical : isZip318CanonicalDenomination denomination = true)
    (hchange : denomination + migrationFee ≤ plan.denominations.orchardChange.getD 0)
    (hperm : targets.Perm (denomination :: plan.denominations.migrationOutputs)) :
    planPaddedDenominationsForTargets sort inputValues targets feePerStage migrationFee
      minimumOutput ≠ .ok (some plan') :=
  refused_of_targets (withRefiner_replays (refineDenomination aggressiveRefinementPolicy) draws h)
    hcanonical hchange hperm plan'

/-- The second note is worth a denomination and its fee, but not the transaction it would take. -/
theorem directPlan_maximal :
    planPaddedDenominationsForTargets insertionNoteSort [1015000,1050000] [1000000,1000000] 80000
      15000 1 ≠ .ok (some ⟨⟨[1000000,1000000],some 0,80000,15000,2065000,2000000⟩,[],0,[]⟩) :=
  planPaddedDenominations_maximal (fun _ => 0) insertionNoteSort [1015000,1050000]
    [1000000,1000000] 80000 15000 1 1000000
    ⟨⟨[1000000],some 1050000,0,15000,2065000,1000000⟩,[],0,[⟨0,0,1015000⟩]⟩ _
    (by decide +kernel) (by decide) (by decide) (by decide)

end CoppiceWallet.Planner
