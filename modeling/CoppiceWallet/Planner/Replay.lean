import CoppiceWallet.Planner.PlanSound

/-! # An approved plan replays -/

namespace CoppiceWallet.Planner

open CoppiceWallet.Lib

theorem sortDescending_perm (values : List Nat) : (sortDescending values).Perm values :=
  List.perm_insertionSort _ values

theorem sortDescending_pairwise (values : List Nat) :
    (sortDescending values).Pairwise (fun a b => b ≤ a) := by
  have : Std.Total (fun a b : Nat => b ≤ a) := ⟨fun a b => Nat.le_total b a⟩
  have : IsTrans Nat (fun a b => b ≤ a) := ⟨fun _ _ _ hab hbc => hbc.trans hab⟩
  exact List.pairwise_insertionSort _ values

theorem sortDescending_eq_of_perm {values values' : List Nat} (h : values.Perm values') :
    sortDescending values = sortDescending values' :=
  List.Perm.eq_of_pairwise (fun _ _ _ _ hab hba => Nat.le_antisymm hba hab)
    (sortDescending_pairwise values) (sortDescending_pairwise values')
    (((sortDescending_perm values).trans h).trans (sortDescending_perm values').symm)

theorem checkedSum_eq (values : List Nat) (text : String) : checkedSum values text =
    if values.sum < u64Limit then .ok values.sum else .error (.message text) := by
  have hfold (start : Nat) (hstart : start < u64Limit) :
      values.foldlM (fun total value => okOr (checkedAdd total value) text) start =
        if start + values.sum < u64Limit then Except.ok (start + values.sum)
        else .error (.message text) := by
    induction values generalizing start with
    | nil => simp [hstart,pure,Except.pure]
    | cons value values ih =>
      rw [List.foldlM_cons,List.sum_cons,← Nat.add_assoc]
      by_cases hadd : start + value < u64Limit
      · simp only [okOr,checkedAdd,hadd,if_true]
        exact ih _ hadd
      · have hover : ¬ start + value + values.sum < u64Limit := by omega
        simp only [okOr,checkedAdd,hadd,hover,if_false]
        rfl
  have hzero := hfold 0 (by decide)
  rwa [Nat.zero_add] at hzero

theorem planPreparation_perm {sort : NoteSort} {available funding funding' : List Zatoshis}
    {feePerTx : Zatoshis} (h : funding.Perm funding') :
    planPreparation sort available funding feePerTx =
      planPreparation sort available funding' feePerTx := by
  have hvalues := h.map Zatoshis.value
  have htotals : totalsValid available funding = totalsValid available funding' := by
    rw [totalsValid,totalsValid,hvalues.sum_eq]
  have htargets : positiveTargets funding = positiveTargets funding' :=
    sortDescending_eq_of_perm (hvalues.filter _)
  unfold planPreparation planPreparationGreedy planPreparationViaConsolidation
  rw [htotals,htargets]

theorem committedValue_perm {fundingValues fundingValues' : List Nat} {preparation : PreparationPlan}
    {feePerStage : Nat} (h : fundingValues.Perm fundingValues') :
    committedValue fundingValues preparation feePerStage =
      committedValue fundingValues' preparation feePerStage := by
  unfold committedValue
  rw [checkedSum_eq,checkedSum_eq,h.sum_eq]

/-- A reordered list of crossings gets the same preparation, with its funding in the new order. -/
theorem preparationForCrossings_perm {sort : NoteSort} {context : PlanningContext}
    {crossings crossings' : List Nat} {feePerStage migrationFee : Nat}
    {answer : Option (List Nat × PreparationPlan)} (h : crossings.Perm crossings')
    (hanswer : preparationForCrossings sort context crossings feePerStage migrationFee =
      .ok answer) :
    preparationForCrossings sort context crossings' feePerStage migrationFee =
      .ok (answer.map fun p => (crossings'.map (· + migrationFee),p.2)) := by
  obtain ⟨funding,hfunding,hanswer⟩ := bind_ok hanswer
  obtain ⟨typed,htyped,hanswer⟩ := bind_ok hanswer
  obtain ⟨funding',hfunding',hperm⟩ := mapM_perm h hfunding
  obtain ⟨typed',htyped',htypedPerm⟩ := mapM_perm hperm htyped
  have hvalues : funding' = crossings'.map (· + migrationFee) := by
    have hall := forall₂_map_eq (g := id) (mapM_ok hfunding') fun _ _ hv =>
      checkedAdd_eq_some (okOr_ok hv)
    rwa [List.map_id] at hall
  simp only [preparationForCrossings,hfunding',htyped',bind,Except.bind]
  rw [← planPreparation_perm htypedPerm]
  split at hanswer <;> rename_i hprep
  · cases hanswer
    rfl
  · cases hanswer
  · cases hanswer
  · obtain ⟨committed,hcommitted,hanswer⟩ := bind_ok hanswer
    rw [committedValue_perm hperm] at hcommitted
    simp only [hcommitted]
    cases hanswer
    split
    · rw [Option.map_some,hvalues]
    · rfl

theorem mem_dedupAdjacent {candidates : List (List Nat)} {c : List Nat} :
    c ∈ dedupAdjacent candidates ↔ c ∈ candidates := by
  fun_induction dedupAdjacent candidates with
  | case1 => rfl
  | case2 => rfl
  | case3 second rest ih => simp [ih]
  | case4 first second rest _ ih => simp [ih]

private def allCanonical (values : List Nat) : Prop :=
  ∀ value ∈ values, isZip318CanonicalDenomination value = true

mutual

theorem refinementCandidates_ok (refinement : DenominationRefinement)
    (candidates : List (List Nat)) (h : refinementCandidates refinement = .ok candidates) :
    [refinement.value] ∈ candidates ∧ ∀ c ∈ candidates, allCanonical c := by
  match refinement with
  | .node value children =>
    unfold refinementCandidates at h
    split at h
    · cases h
    rename_i hvalue
    have hroot : allCanonical [value] := by
      intro v hv
      rw [List.mem_singleton.mp hv]
      simpa using hvalue
    split at h
    · cases h
      exact ⟨List.mem_singleton.mpr rfl,fun c hc => List.mem_singleton.mp hc ▸ hroot⟩
    obtain ⟨total,_,h⟩ := bind_ok h
    split at h
    · cases h
    obtain ⟨expanded,hexpanded,h⟩ := bind_ok h
    cases h
    have hchildren := combineCandidates_ok children [[]] expanded (by simp [allCanonical]) hexpanded
    simp only [mem_dedupAdjacent,List.mem_insertionSort,List.mem_map,List.mem_append,
      List.mem_singleton]
    refine ⟨⟨[value],.inr rfl,rfl⟩,?_⟩
    rintro c ⟨c',hc',rfl⟩ v hv
    rw [(sortDescending_perm c').mem_iff] at hv
    rcases hc' with hc' | rfl
    · exact hchildren c' hc' v hv
    · exact hroot v hv

theorem combineCandidates_ok (children : List DenominationRefinement)
    (expanded result : List (List Nat)) (hexpanded : ∀ c ∈ expanded, allCanonical c)
    (h : combineCandidates children expanded = .ok result) : ∀ c ∈ result, allCanonical c := by
  match children with
  | [] =>
    unfold combineCandidates at h
    cases h
    exact hexpanded
  | child :: children =>
    unfold combineCandidates at h
    obtain ⟨candidates,hcandidates,h⟩ := bind_ok h
    obtain ⟨count,_,h⟩ := bind_ok h
    refine combineCandidates_ok children _ result ?_ h
    intro c hc v hv
    obtain ⟨front,hfront,hc⟩ := List.mem_flatMap.mp hc
    obtain ⟨candidate,hcandidate,rfl⟩ := List.mem_map.mp hc
    rcases List.mem_append.mp hv with hv | hv
    · exact hexpanded front hfront v hv
    · exact (refinementCandidates_ok child candidates hcandidates).2 candidate hcandidate v hv

end

variable {σ : Type} {refine : Nat → σ → DenominationRefinement × σ} {sort : NoteSort}
  {context : PlanningContext} {feePerStage migrationFee : Nat}

theorem tryCandidates_none {crossingValues candidate : List Nat} {candidates : List (List Nat)}
    (h : tryCandidates sort context crossingValues feePerStage migrationFee candidates = .ok none)
    (hc : candidate ∈ candidates) :
    preparationForCrossings sort context (crossingValues ++ candidate) feePerStage migrationFee =
      .ok none := by
  induction candidates with
  | nil => cases hc
  | cons first candidates ih =>
    obtain ⟨answer,hanswer,h⟩ := bind_ok h
    split at h
    · cases h
    · rcases List.mem_cons.mp hc with rfl | hc
      · exact hanswer
      · exact ih h hc

/-- Where no refinement fits, no unrefined denomination can be appended, in any order of the
accepted crossings. -/
theorem canAppendLoop_of_select {crossingValues crossingValues' : List Nat} {fuel affordable : Nat}
    {state state' : σ} (hperm : crossingValues.Perm crossingValues')
    (h : selectDenomination refine sort context crossingValues feePerStage migrationFee fuel
      affordable state = .ok (none,state')) :
    canAppendLoop sort context crossingValues' feePerStage migrationFee fuel affordable =
      .ok false := by
  induction fuel generalizing affordable state with
  | zero => rfl
  | succ fuel ih =>
    simp only [selectDenomination] at h
    unfold canAppendLoop
    split at h
    · rw [if_pos ‹_›]
    rw [if_neg ‹_›]
    cases hlargest : largestZip318DenominationAtOrBelow affordable with
    | none => rfl
    | some greedy =>
      simp only [hlargest] at h ⊢
      split at h
      · cases h
      rename_i hvalue
      obtain ⟨candidates,hcandidates,h⟩ := bind_ok h
      obtain ⟨accepted,haccepted,h⟩ := bind_ok h
      have hroot := (refinementCandidates_ok _ _ hcandidates).1
      rw [not_not.mp hvalue] at hroot
      -- A selection that ends with nothing has accepted nothing in this round either.
      have hnone : accepted = none := by
        cases accepted with
        | none => rfl
        | some selection =>
          rw [if_pos (.inl rfl)] at h
          cases h
      subst hnone
      have hfails := preparationForCrossings_perm (hperm.append_right [greedy])
        (tryCandidates_none haccepted hroot)
      simp only [hfails,Option.map_none,bind,Except.bind]
      split
      · rfl
      · rename_i hgreedy
        rw [if_neg (by simp [hgreedy])] at h
        exact ih h

/-- Every accepted crossing is canonical. -/
theorem planLoop_canonical {minimumNote fuel : Nat} {result : Selection} {state : σ}
    (h : planLoop refine sort context minimumNote feePerStage migrationFee fuel .empty state =
      .ok result) : allCanonical result.crossingValues := by
  refine (planLoop_invariant (P := fun selection => allCanonical selection.crossingValues)
    (fun {selection accepted _ _ _} hcanonical hselect => ?_) (by simp [allCanonical,Selection.empty])
    h).1
  obtain ⟨_,candidates,hcandidates,hfirst⟩ := selectDenomination_some hselect
  obtain ⟨_,candidate,hcandidate,heq⟩ := tryCandidates_fits hfirst
  intro c hc
  rw [heq] at hc
  rcases List.mem_append.mp hc with hc | hc
  · exact hcanonical c hc
  · exact (refinementCandidates_ok _ _ hcandidates).2 candidate hcandidate c hc

theorem nonIncreasing_of_pairwise {values : List Nat} (h : values.Pairwise (fun a b => b ≤ a)) :
    nonIncreasing values = true := by
  fun_induction nonIncreasing values with
  | case1 first second rest ih =>
    obtain ⟨hfirst,hrest⟩ := List.pairwise_cons.mp h
    simp [hfirst second (List.mem_cons_self ..),ih hrest]
  | case2 => rfl

private theorem sorted_pairs (crossings : List Nat) (migrationFee : Nat) :
    (crossings.zip (crossings.map (· + migrationFee))).insertionSort (fun a b => b.1 ≤ a.1) =
      (sortDescending crossings).map fun c => (c,c + migrationFee) := by
  rw [← List.map_prod_left_eq_zip,sortDescending,
    List.map_insertionSort (fun a b : Nat => b ≤ a) (fun a b : Nat × Nat => b.1 ≤ a.1)
      (fun c => (c,c + migrationFee))]
  exact fun _ _ _ _ => Iff.rfl

theorem finishPlan_perm {crossings crossings' : List Nat} {preparation : PreparationPlan}
    {minimumOutput : Nat} (h : crossings.Perm crossings') :
    finishPlan context ⟨crossings,crossings.map (· + migrationFee),preparation⟩ feePerStage
        migrationFee minimumOutput =
      finishPlan context ⟨crossings',crossings'.map (· + migrationFee),preparation⟩ feePerStage
        migrationFee minimumOutput := by
  have hnil : crossings = [] ↔ crossings' = [] := by
    rw [← List.length_eq_zero_iff,h.length_eq,List.length_eq_zero_iff]
  simp only [finishPlan,hnil,List.length_map,ne_eq,not_true_eq_false,if_false,sorted_pairs,
    sortDescending_eq_of_perm h]

theorem finishPlan_migrationOutputs {selection : Selection} {minimumOutput : Nat}
    {plan : PaddedDenominationPlan}
    (hfunding : selection.fundingValues = selection.crossingValues.map (· + migrationFee))
    (h : finishPlan context selection feePerStage migrationFee minimumOutput = .ok (some plan)) :
    selection.crossingValues ≠ [] ∧
      plan.denominations.migrationOutputs = sortDescending selection.crossingValues := by
  simp only [finishPlan] at h
  split at h
  · cases h
  split at h
  · cases h
  obtain ⟨splitFee,_,h⟩ := bind_ok h
  obtain ⟨fundingTotal,_,h⟩ := bind_ok h
  obtain ⟨remaining,_,h⟩ := bind_ok h
  obtain ⟨totalMigratable,_,h⟩ := bind_ok h
  obtain ⟨translated,htranslated,h⟩ := bind_ok h
  cases h
  refine ⟨‹_›,?_⟩
  rw [(translatePreparationPlan_ok htranslated).1,hfunding,sorted_pairs,List.map_map]
  exact List.map_id _

theorem canAppend_of_planLoop {minimumNote fuel : Nat} {result : Selection} {state : σ}
    {crossings : List Nat} (hperm : result.crossingValues.Perm crossings)
    (hfunding : result.fundingValues = result.crossingValues.map (· + migrationFee))
    (hminimum : minimumFundingNote migrationFee = .ok minimumNote)
    (h : planLoop refine sort context minimumNote feePerStage migrationFee fuel .empty state =
      .ok result) :
    canAppendCanonicalDenomination sort context
      ⟨crossings,crossings.map (· + migrationFee),result.preparation⟩ feePerStage migrationFee =
        .ok false := by
  obtain ⟨_,committed,hcommitted,hlast⟩ :=
    planLoop_invariant (P := fun _ => True) (fun _ _ => trivial) trivial h
  rw [hfunding,committedValue_perm (hperm.map _)] at hcommitted
  simp only [canAppendCanonicalDenomination,hcommitted,hminimum,bind,Except.bind]
  split
  · rfl
  · rename_i hbudget
    obtain ⟨_,_,hselect⟩ := hlast.resolve_left hbudget
    exact canAppendLoop_of_select hperm hselect

theorem withRefiner_replays (refine : Nat → σ → DenominationRefinement × σ) (state : σ)
    {inputValues : List Nat} {minimumOutput : Nat} {plan : PaddedDenominationPlan}
    (h : planPaddedDenominationsWithRefiner refine state sort inputValues feePerStage migrationFee
      minimumOutput = .ok (some plan)) :
    planPaddedDenominationsForTargets sort inputValues plan.denominations.migrationOutputs
      feePerStage migrationFee minimumOutput = .ok (some plan) := by
  obtain ⟨answer,hcontext,h⟩ := bind_ok h
  split at h
  · cases h
  rename_i context
  obtain ⟨minimumNote,hminimum,h⟩ := bind_ok h
  obtain ⟨selection,hloop,h⟩ := bind_ok h
  have hfits := (planLoop_fits hloop).resolve_left fun hempty => by
    rw [finishPlan,if_pos hempty] at h
    cases h
  obtain ⟨hfunding,_⟩ := hfits.funding
  obtain ⟨hne,houtputs⟩ := finishPlan_migrationOutputs hfunding h
  have hperm := (sortDescending_perm selection.crossingValues).symm
  have hprep := preparationForCrossings_perm hperm hfits
  have happend := canAppend_of_planLoop hperm hfunding hminimum hloop
  have hcanonical : (sortDescending selection.crossingValues).find?
      (fun value => !isZip318CanonicalDenomination value) = none := by
    rw [List.find?_eq_none]
    intro c hc
    rw [planLoop_canonical hloop c (hperm.mem_iff.mpr hc)]
    decide
  have hsorted := nonIncreasing_of_pairwise (sortDescending_pairwise selection.crossingValues)
  have hne' : sortDescending selection.crossingValues ≠ [] := fun hnil =>
    hne (List.Perm.eq_nil (hnil ▸ hperm))
  rw [houtputs]
  simp only [planPaddedDenominationsForTargets,hne',hcanonical,hsorted,hcontext,hprep,happend,
    bind,Except.bind,if_false,Option.map_some,Bool.not_true,Bool.false_eq_true]
  rw [← finishPlan_perm hperm,← hfunding]
  exact h

/-- An approved plan is planned again from its own denominations, exactly as it was. -/
theorem planPaddedDenominations_replays (draws : Draws) (sort : NoteSort) (inputValues : List Nat)
    (feePerStage migrationFee minimumOutput : Nat) (plan : PaddedDenominationPlan)
    (h : planPaddedDenominations draws sort inputValues feePerStage migrationFee minimumOutput =
      .ok (some plan)) :
    planPaddedDenominationsForTargets sort inputValues plan.denominations.migrationOutputs
      feePerStage migrationFee minimumOutput = .ok (some plan) :=
  withRefiner_replays (refineDenomination aggressiveRefinementPolicy) draws h

theorem fragmentedPlan_replays :
    planPaddedDenominationsForTargets insertionNoteSort [600000, 0, 600000, 600000, 1015000]
      [2000000] 80000 15000 1 = .ok (some fragmentedPlan) :=
  planPaddedDenominations_replays (fun _ => 0) insertionNoteSort
    [600000, 0, 600000, 600000, 1015000] 80000 15000 1 fragmentedPlan (by decide +kernel)

end CoppiceWallet.Planner
