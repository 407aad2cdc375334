import CoppiceWallet.Planner.PreparationSound
import CoppiceWallet.Planner.SplitPlan

/-! # What the planner selects -/

namespace CoppiceWallet.Planner

open CoppiceWallet.Lib

theorem okOr_ok {α : Type} {value : Option α} {text : String} {a : α}
    (h : okOr value text = .ok a) : value = some a := by
  unfold okOr at h
  split at h
  · cases h
    rfl
  · cases h

private theorem foldlM_checkedAdd {values : List Nat} {text : String} {start total : Nat}
    (h : values.foldlM (fun total value => okOr (checkedAdd total value) text) start = .ok total) :
    total = start + values.sum := by
  induction values generalizing start with
  | nil =>
    cases h
    simp
  | cons value values ih =>
    obtain ⟨next,hnext,h⟩ := bind_ok h
    have hnext := checkedAdd_eq_some (okOr_ok hnext)
    rw [ih h,hnext,List.sum_cons,Nat.add_assoc]

theorem checkedSum_ok {values : List Nat} {text : String} {total : Nat}
    (h : checkedSum values text = .ok total) : total = values.sum := by
  rw [foldlM_checkedAdd h,Nat.zero_add]

private def positiveNotes (inputValues : List Nat) : List (Nat × Nat) :=
  inputValues.zipIdx.filter fun (value, _) => decide (0 < value)

private theorem positiveIndices_eq (inputValues : List Nat) :
    positiveIndices inputValues = (positiveNotes inputValues).map Prod.snd := by
  unfold positiveIndices positiveNotes
  generalize inputValues.zipIdx = notes
  induction notes with
  | nil => rfl
  | cons note notes ih =>
    by_cases hn : 0 < note.1 <;> simp [hn,ih]

private theorem filter_positive_eq (inputValues : List Nat) :
    inputValues.filter (0 < ·) = (positiveNotes inputValues).map Prod.fst := by
  have h := List.filter_map (f := Prod.fst) (p := fun value : Nat => decide (0 < value))
    (l := inputValues.zipIdx)
  rw [List.zipIdx_map_fst] at h
  exact h

theorem positiveIndices_nodup (inputValues : List Nat) : (positiveIndices inputValues).Nodup := by
  rw [positiveIndices_eq]
  refine List.Nodup.sublist (List.filter_sublist.map _) ?_
  rw [List.zipIdx_map_snd]
  exact List.nodup_range'

theorem positive_lengths (inputValues : List Nat) :
    (inputValues.filter (0 < ·)).length = (positiveIndices inputValues).length := by
  rw [positiveIndices_eq,filter_positive_eq,List.length_map,List.length_map]

theorem positive_note {inputValues : List Nat} {k index value : Nat}
    (hi : (positiveIndices inputValues)[k]? = some index)
    (hv : (inputValues.filter (0 < ·))[k]? = some value) : inputValues[index]? = some value := by
  rw [positiveIndices_eq,List.getElem?_map] at hi
  rw [filter_positive_eq,List.getElem?_map] at hv
  obtain ⟨note,hnote,rfl⟩ := Option.map_eq_some_iff.mp hi
  rw [hnote] at hv
  cases hv
  exact List.mem_zipIdx_iff_getElem?.mp (List.mem_filter.mp (List.mem_of_getElem? hnote)).1

private theorem sum_positive (values : List Nat) : (values.filter (0 < ·)).sum = values.sum := by
  induction values with
  | nil => rfl
  | cons value values ih =>
    by_cases hv : 0 < value
    · simpa [hv] using ih
    · simp [Nat.eq_zero_of_not_pos hv,ih]

structure PlanningContext.Of (context : PlanningContext) (inputValues : List Nat) : Prop where
  indices : context.positiveInputIndices = positiveIndices inputValues
  total : context.totalInputZatoshi = inputValues.sum
  available : context.available.map Zatoshis.value = inputValues.filter (0 < ·)

theorem planningContext_ok {inputValues : List Nat} {feePerStage minimumOutput : Nat}
    {context : PlanningContext}
    (h : planningContext inputValues feePerStage minimumOutput = .ok (some context)) :
    context.Of inputValues ∧ minimumOutput = 1 ∧ context.prepFee.value = feePerStage := by
  simp only [planningContext] at h
  split at h
  · cases h
  split at h
  · cases h
  split at h
  · cases h
  rename_i hmin
  obtain ⟨total,htotal,h⟩ := bind_ok h
  obtain ⟨available,havailable,h⟩ := bind_ok h
  obtain ⟨prepFee,hfee,h⟩ := bind_ok h
  cases h
  refine ⟨⟨rfl,?_,?_⟩,not_not.mp hmin,Zatoshis.fromU64_eq_some (okOr_ok hfee)⟩
  · rw [checkedSum_ok htotal,sum_positive]
  · have hall := forall₂_map_eq (f := id) (mapM_ok havailable) fun _ _ hz =>
      Zatoshis.fromU64_eq_some (okOr_ok hz)
    rwa [List.map_id] at hall

/-- The selection is the preparation planner's answer for its own crossings. -/
def Selection.Fits (sort : NoteSort) (context : PlanningContext) (feePerStage migrationFee : Nat)
    (selection : Selection) : Prop :=
  preparationForCrossings sort context selection.crossingValues feePerStage migrationFee =
    .ok (some (selection.fundingValues,selection.preparation))

variable {σ : Type} {refine : Nat → σ → DenominationRefinement × σ} {sort : NoteSort}
  {context : PlanningContext} {feePerStage migrationFee : Nat}

theorem tryCandidates_fits {crossingValues : List Nat} {candidates : List (List Nat)}
    {selection : Selection}
    (h : tryCandidates sort context crossingValues feePerStage migrationFee candidates =
      .ok (some selection)) :
    selection.Fits sort context feePerStage migrationFee ∧
      ∃ candidate ∈ candidates, selection.crossingValues = crossingValues ++ candidate := by
  induction candidates with
  | nil => cases h
  | cons candidate candidates ih =>
    obtain ⟨answer,hanswer,h⟩ := bind_ok h
    split at h
    · cases h
      exact ⟨hanswer,candidate,List.mem_cons_self ..,rfl⟩
    · obtain ⟨hfits,c,hc,heq⟩ := ih h
      exact ⟨hfits,c,List.mem_cons_of_mem _ hc,heq⟩

theorem selectDenomination_some {crossingValues : List Nat} {fuel affordable : Nat}
    {state state' : σ} {selection : Selection}
    (h : selectDenomination refine sort context crossingValues feePerStage migrationFee fuel
      affordable state = .ok (some selection,state')) :
    ∃ refinement candidates, refinementCandidates refinement = .ok candidates ∧
      tryCandidates sort context crossingValues feePerStage migrationFee candidates =
        .ok (some selection) := by
  induction fuel generalizing affordable state with
  | zero => cases h
  | succ fuel ih =>
    simp only [selectDenomination] at h
    split at h
    · cases h
    split at h
    · cases h
    split at h
    · cases h
    obtain ⟨candidates,hcandidates,h⟩ := bind_ok h
    obtain ⟨accepted,haccepted,h⟩ := bind_ok h
    split at h
    · cases h
      exact ⟨_,candidates,hcandidates,haccepted⟩
    · exact ih h

theorem planLoop_invariant {P : Selection → Prop} {minimumNote fuel : Nat}
    {selection result : Selection} {state : σ}
    (hstep : ∀ {selection accepted fuel state state'}, P selection →
      selectDenomination refine sort context selection.crossingValues feePerStage migrationFee fuel
        fuel state = .ok (some accepted,state') → P accepted)
    (hselection : P selection)
    (h : planLoop refine sort context minimumNote feePerStage migrationFee fuel selection state =
      .ok result) :
    P result ∧ ∃ committed, committedValue result.fundingValues result.preparation feePerStage =
        .ok committed ∧
      (context.totalInputZatoshi - committed < minimumNote ∨
        ∃ state state', selectDenomination refine sort context result.crossingValues feePerStage
          migrationFee
          (affordableCrossing (context.totalInputZatoshi - committed) migrationFee)
          (affordableCrossing (context.totalInputZatoshi - committed) migrationFee) state =
            .ok (none,state')) := by
  induction fuel generalizing selection state with
  | zero => cases h
  | succ fuel ih =>
    obtain ⟨committed,hcommitted,h⟩ := bind_ok h
    simp only at h
    split at h
    · cases h
      exact ⟨hselection,committed,hcommitted,.inl ‹_›⟩
    obtain ⟨⟨accepted,state'⟩,hselect,h⟩ := bind_ok h
    simp only at h
    split at h
    · cases h
      exact ⟨hselection,committed,hcommitted,.inr ⟨state,state',hselect⟩⟩
    · exact ih (hstep hselection hselect) h

theorem planLoop_fits {minimumNote fuel : Nat} {result : Selection} {state : σ}
    (h : planLoop refine sort context minimumNote feePerStage migrationFee fuel .empty state =
      .ok result) :
    result.crossingValues = [] ∨ result.Fits sort context feePerStage migrationFee := by
  refine (planLoop_invariant (P := fun selection => selection.crossingValues = [] ∨
    selection.Fits sort context feePerStage migrationFee) (fun _ hselect => ?_) (.inl rfl) h).1
  obtain ⟨_,candidates,_,hfirst⟩ := selectDenomination_some hselect
  exact .inr (tryCandidates_fits hfirst).1

theorem Selection.Fits.funding {selection : Selection}
    (h : selection.Fits sort context feePerStage migrationFee) :
    selection.fundingValues = selection.crossingValues.map (· + migrationFee) ∧
      selection.preparation.Sound context.available := by
  obtain ⟨funding,hfunding,h⟩ := bind_ok h
  obtain ⟨typed,_,h⟩ := bind_ok h
  split at h
  · cases h
  · cases h
  · cases h
  · rename_i preparation hprep
    obtain ⟨committed,_,h⟩ := bind_ok h
    split at h
    · cases h
      refine ⟨?_,planPreparation_sound hprep⟩
      have hall := forall₂_map_eq (g := id) (mapM_ok hfunding) fun _ _ hv =>
        checkedAdd_eq_some (okOr_ok hv)
      rwa [List.map_id] at hall
    · cases h

end CoppiceWallet.Planner
