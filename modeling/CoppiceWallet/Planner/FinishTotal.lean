import CoppiceWallet.Planner.PlanTotal
import CoppiceWallet.Planner.Replay

/-! # The translation of a plan is total -/

namespace CoppiceWallet.Planner

open CoppiceWallet.Lib

variable {indices : List Nat} {parts : AvailableParts} {values : List Nat}
  {coordinates : Coordinates} {feePerStage migrationFee : Nat} {sort : NoteSort}
  {context : PlanningContext}

theorem takePartIndex_total {value : Nat} (h : (parts.map Prod.fst).Perm (value :: values)) :
    ∃ part rest, takePartIndex parts value = .ok (part,rest) ∧
      (rest.map Prod.fst).Perm values := by
  have hmem : value ∈ parts.map Prod.fst := h.mem_iff.mpr List.mem_cons_self
  obtain ⟨p,hp,hvalue⟩ := List.mem_map.mp hmem
  have hsome : (parts.find? (fun part => part.1 == value)).isSome := by
    rw [List.find?_isSome]
    exact ⟨p,hp,by simpa using hvalue⟩
  obtain ⟨found,hfound⟩ := Option.isSome_iff_exists.mp hsome
  have hrun : takePartIndex parts value = .ok (found.2,parts.erase found) := by
    simp only [takePartIndex,hfound]
  have hrest := ((takePartIndex_perm hrun).map Prod.fst).symm.trans h
  exact ⟨found.2,parts.erase found,hrun,(List.perm_cons value).mp hrest⟩

theorem translateDirect_total {direct : List (Nat × Zatoshis)}
    (hindex : ∀ p ∈ direct, p.1 < indices.length)
    (h : (parts.map Prod.fst).Perm (direct.map (·.2.value) ++ values)) :
    ∃ inputs rest, translateDirect indices direct parts = .ok (inputs,rest) ∧
      (rest.map Prod.fst).Perm values := by
  induction direct generalizing parts with
  | nil => exact ⟨[],parts,rfl,h⟩
  | cons p direct ih =>
    obtain ⟨index,value⟩ := p
    obtain ⟨hhead,htail⟩ := List.forall_mem_cons.mp hindex
    obtain ⟨part,parts',hpart,hperm⟩ := takePartIndex_total h
    obtain ⟨inputs,rest,hrun,hrest⟩ := ih htail hperm
    have hinput : okOr indices[index]? "Direct funding input index is out of range" =
        .ok indices[index] := by
      rw [List.getElem?_eq_getElem hhead]
      rfl
    refine ⟨⟨indices[index],part,value.value⟩ :: inputs,rest,?_,hrest⟩
    simp only [translateDirect,hinput,hpart,hrun,ok_bind]

theorem translateOutputs_total {outputs : List PrepOutput}
    (h : (parts.map Prod.fst).Perm
      ((outputs.filterMap PrepOutput.fundingNote).map Zatoshis.value ++ values)) :
    ∃ stageOutputs rest, translateOutputs outputs parts = .ok (stageOutputs,rest) ∧
      stageOutputs.map SplitStageOutput.value = outputs.map (·.value.value) ∧
      (rest.map Prod.fst).Perm values := by
  induction outputs generalizing parts with
  | nil => exact ⟨[],parts,rfl,rfl,h⟩
  | cons output outputs ih =>
    cases output with
    | funding value =>
      obtain ⟨part,parts',hpart,hperm⟩ := takePartIndex_total h
      obtain ⟨tail,rest,hrun,hvalues,hrest⟩ := ih hperm
      refine ⟨⟨value.value,.migration,some part⟩ :: tail,rest,?_,?_,hrest⟩
      · simp only [translateOutputs,hpart,hrun,ok_bind]
      · simp [hvalues,PrepOutput.value]
    | intermediate value =>
      obtain ⟨tail,rest,hrun,hvalues,hrest⟩ := ih h
      refine ⟨⟨value.value,.continuation,none⟩ :: tail,rest,?_,?_,hrest⟩
      · simp only [translateOutputs,hrun,ok_bind]
      · simp [hvalues,PrepOutput.value]
    | change value =>
      obtain ⟨tail,rest,hrun,hvalues,hrest⟩ := ih h
      refine ⟨⟨value.value,.orchardChange,none⟩ :: tail,rest,?_,?_,hrest⟩
      · simp only [translateOutputs,hrun,ok_bind]
      · simp [hvalues,PrepOutput.value]

/-- The translation knows the note that the input names. -/
def PrepInput.Known (indices : List Nat) (coordinates : Coordinates) : PrepInput → Prop
  | .wallet index _ => index < indices.length
  | .prior l t _ _ => (coordinates.lookup (l,t)).isSome

theorem PrepInput.Known.push {input : PrepInput} (h : input.Known indices coordinates)
    (key : Nat × Nat) (stage : Nat) : input.Known indices ((key,stage) :: coordinates) := by
  cases input with
  | wallet index value => exact h
  | prior l t o value =>
    have hold : (coordinates.lookup (l,t)).isSome := h
    simp only [PrepInput.Known,List.lookup_cons]
    split
    · rfl
    · exact hold

theorem translateInput_total {input : PrepInput} (h : input.Known indices coordinates) :
    ∃ stageInput, translateInput indices coordinates input = .ok stageInput ∧
      stageInput.value = input.value.value := by
  cases input with
  | wallet index value =>
    have hlt : index < indices.length := h
    refine ⟨.original indices[index] value.value,?_,rfl⟩
    simp only [translateInput,List.getElem?_eq_getElem hlt]
    rfl
  | prior l t o value =>
    obtain ⟨stage,hstage⟩ := Option.isSome_iff_exists.mp h
    refine ⟨.prior stage o value.value,?_,rfl⟩
    simp only [translateInput,hstage]
    rfl

theorem translateInputs_total {inputs : List PrepInput}
    (h : ∀ input ∈ inputs, input.Known indices coordinates) :
    ∃ stageInputs, inputs.mapM (translateInput indices coordinates) = .ok stageInputs ∧
      stageInputs.map SplitStageInput.value = inputs.map (·.value.value) := by
  induction inputs with
  | nil => exact ⟨[],rfl,rfl⟩
  | cons input inputs ih =>
    obtain ⟨hhead,htail⟩ := List.forall_mem_cons.mp h
    obtain ⟨stageInput,hinput,hvalue⟩ := translateInput_total hhead
    obtain ⟨rest,hrest,hvalues⟩ := ih htail
    refine ⟨stageInput :: rest,?_,by simp [hvalue,hvalues]⟩
    rw [List.mapM_cons,hinput,ok_bind,hrest,ok_bind]
    rfl

theorem sum_le_length_mul (amounts : List Zatoshis) :
    (amounts.map Zatoshis.value).sum ≤ amounts.length * maxMoney := by
  induction amounts with
  | nil => exact Nat.zero_le _
  | cons amount amounts ih =>
    have hle := amount.le_maxMoney
    rw [List.map_cons,List.sum_cons,List.length_cons,Nat.succ_mul]
    omega

theorem sum_lt_u64 (amounts : List Zatoshis) (h : amounts.length ≤ prepTxActions) :
    (amounts.map Zatoshis.value).sum < u64Limit := by
  have hsum := sum_le_length_mul amounts
  have hcount := Nat.mul_le_mul_right maxMoney h
  have hlimit := maxMoney_lt
  unfold prepTxActions at hcount
  omega

theorem okOr_checkedAdd (text : String) {a b : Nat} (h : a + b < u64Limit) :
    okOr (checkedAdd a b) text = .ok (a + b) := by
  simp only [checkedAdd,if_pos h,okOr]

theorem checkedSum_total (text : String) {amounts : List Nat} (h : amounts.sum < u64Limit) :
    checkedSum amounts text = .ok amounts.sum := by
  rw [checkedSum_eq,if_pos h]

theorem translateTransaction_total (layer : Nat) {tx : PrepTransaction}
    (hbalanced : tx.Balanced feePerStage)
    (hknown : ∀ input ∈ tx.inputs, input.Known indices coordinates)
    (h : (parts.map Prod.fst).Perm (tx.minted ++ values)) :
    ∃ stage rest, translateTransaction indices feePerStage layer coordinates tx parts =
      .ok (stage,rest) ∧ (rest.map Prod.fst).Perm values := by
  obtain ⟨inputs,hinputs,hin⟩ := translateInputs_total hknown
  obtain ⟨outputs,rest,houtputs,hout,hrest⟩ := translateOutputs_total h
  have hvalue := hbalanced.value
  have hactions := hbalanced.actions
  have hinLength : inputs.length = tx.inputs.length := by simpa using congrArg List.length hin
  have houtLength : outputs.length = tx.outputs.length := by simpa using congrArg List.length hout
  have hinSum : (inputs.map SplitStageInput.value).sum = poolValue tx.inputs := by
    rw [hin]
    rfl
  have hinLimit : poolValue tx.inputs < u64Limit := by
    have hlimit := sum_lt_u64 (tx.inputs.map PrepInput.value) (by
      rw [List.length_map]
      omega)
    rw [List.map_map] at hlimit
    exact hlimit
  rw [← hout] at hvalue
  have hcount : okOr (checkedAdd inputs.length outputs.length)
      "Preparation action count overflow" = .ok (inputs.length + outputs.length) :=
    okOr_checkedAdd _ (by
      rw [hinLength,houtLength]
      exact hactions.trans_lt (by decide))
  have hbudget : ¬ denominationSplitActions < inputs.length + outputs.length := by
    rw [hinLength,houtLength]
    exact not_lt.mpr hactions
  have hinTotal := checkedSum_total "Preparation input total overflow" (hinSum ▸ hinLimit)
  have houtLimit : (outputs.map SplitStageOutput.value).sum < u64Limit := by omega
  have houtTotal := checkedSum_total "Preparation output total overflow" houtLimit
  have hspent : okOr (checkedAdd (outputs.map SplitStageOutput.value).sum feePerStage)
      "Preparation transaction value overflow" =
        .ok ((outputs.map SplitStageOutput.value).sum + feePerStage) :=
    okOr_checkedAdd _ (by omega)
  have hconserved : ¬ (inputs.map SplitStageInput.value).sum ≠
      (outputs.map SplitStageOutput.value).sum + feePerStage := by
    rw [hinSum,not_not]
    exact hvalue
  refine ⟨⟨layer,inputs,outputs,feePerStage,inputs.length + outputs.length⟩,rest,?_,hrest⟩
  unfold translateTransaction
  simp only [hinputs,houtputs,ok_bind,hcount,if_neg hbudget,hinTotal,houtTotal,hspent,
    if_neg hconserved]

/-- Every transaction of the layers before `l` has its stage. -/
def Placed (layers : Layers) (l : Nat) (coordinates : Coordinates) : Prop :=
  ∀ l' t tx, l' < l → layers.cell l' t = some tx → (coordinates.lookup (l',t)).isSome

theorem lookup_push {key : Nat × Nat} (new : Nat × Nat) (stage : Nat)
    (h : (coordinates.lookup key).isSome) :
    (List.lookup key ((new,stage) :: coordinates)).isSome := by
  rw [List.lookup_cons]
  split
  · rfl
  · exact h

theorem translateLayer_total (layer t : Nat) {txs : List PrepTransaction}
    (translation : Translation) (hbalanced : AllBalanced feePerStage txs)
    (hknown : ∀ tx ∈ txs, ∀ input ∈ tx.inputs, input.Known indices translation.coordinates)
    (h : (translation.parts.map Prod.fst).Perm (txs.flatMap PrepTransaction.minted ++ values)) :
    ∃ result, translateLayer indices feePerStage layer t txs translation = .ok result ∧
      (∀ key, (translation.coordinates.lookup key).isSome →
        (result.coordinates.lookup key).isSome) ∧
      (∀ i < txs.length, (result.coordinates.lookup (layer,t + i)).isSome) ∧
      (result.parts.map Prod.fst).Perm values := by
  induction txs generalizing t translation with
  | nil => exact ⟨translation,rfl,fun _ hkey => hkey,fun _ hi => absurd hi (Nat.not_lt_zero _),h⟩
  | cons tx txs ih =>
    obtain ⟨coordinates,stages,parts⟩ := translation
    obtain ⟨htx,hrest⟩ := List.forall_mem_cons.mp hbalanced
    obtain ⟨hinputs,hothers⟩ := List.forall_mem_cons.mp hknown
    rw [List.flatMap_cons,List.append_assoc] at h
    obtain ⟨stage,rest,hstage,hperm⟩ := translateTransaction_total layer htx hinputs h
    obtain ⟨result,hrun,hkept,hplaced,hparts⟩ := ih (t + 1)
      ⟨((layer,t),stages.length) :: coordinates,stages ++ [stage],rest⟩ hrest
      (fun tx htx input hi => (hothers tx htx input hi).push _ _) hperm
    refine ⟨result,?_,fun key hkey => hkept key (lookup_push _ _ hkey),fun i hi => ?_,hparts⟩
    · simp only [translateLayer,hstage,ok_bind]
      exact hrun
    · cases i with
      | zero => exact hkept _ (by simp)
      | succ i =>
        have hnext := hplaced i (by simpa using hi)
        rwa [Nat.add_assoc,Nat.add_comm 1] at hnext

theorem translateLayers_total {layers rest : Layers} (l : Nat) (translation : Translation)
    (hdrop : layers.drop l = rest) (hbalanced : AllBalanced feePerStage layers.flatten)
    (hknown : ∀ l t tx, layers.cell l t = some tx → ∀ input ∈ tx.inputs,
      ∀ coordinates, Placed layers l coordinates → input.Known indices coordinates)
    (hplaced : Placed layers l translation.coordinates)
    (h : (translation.parts.map Prod.fst).Perm
      (rest.flatten.flatMap PrepTransaction.minted ++ values)) :
    ∃ result, translateLayers indices feePerStage l rest translation = .ok result ∧
      (result.parts.map Prod.fst).Perm values := by
  induction rest generalizing l translation with
  | nil => exact ⟨translation,rfl,h⟩
  | cons layer rest ih =>
    have hlayer : layers[l]? = some layer := by
      have hhead := congrArg List.head? hdrop
      rwa [List.head?_drop,List.head?_cons] at hhead
    have hcell (t : Nat) : layers.cell l t = layer[t]? := by simp [Grid.cell,hlayer]
    have hmem {tx : PrepTransaction} (htx : tx ∈ layer) : ∃ t, layers.cell l t = some tx := by
      obtain ⟨t,ht⟩ := List.mem_iff_getElem?.mp htx
      exact ⟨t,(hcell t).trans ht⟩
    have hlayerBalanced : AllBalanced feePerStage layer := fun tx htx => by
      obtain ⟨t,ht⟩ := hmem htx
      exact hbalanced tx (Grid.mem_flatten.mpr ⟨l,t,ht⟩)
    rw [List.flatten_cons,List.flatMap_append,List.append_assoc] at h
    obtain ⟨middle,hrun,hkept,hnew,hparts⟩ := translateLayer_total l 0 translation
      hlayerBalanced (fun tx htx input hi => by
        obtain ⟨t,ht⟩ := hmem htx
        exact hknown l t tx ht input hi _ hplaced) h
    have hnext : layers.drop (l + 1) = rest := by
      rw [← List.drop_drop,hdrop]
      rfl
    have hmiddle : Placed layers (l + 1) middle.coordinates := fun l' t tx hl ht => by
      by_cases heq : l' = l
      · subst heq
        rw [hcell] at ht
        have hlocated := hnew t (List.getElem?_eq_some_iff.mp ht).1
        rwa [Nat.zero_add] at hlocated
      · exact hkept _ (hplaced l' t tx (by omega) ht)
    obtain ⟨result,hresult,hperm⟩ := ih (l + 1) middle hnext hmiddle hparts
    refine ⟨result,?_,hperm⟩
    simp only [translateLayers,hrun,ok_bind]
    exact hresult

variable {preparation : PreparationPlan}

theorem PreparationPlan.Sound.known {available : List Zatoshis} (h : preparation.Sound available)
    (hindices : available.length ≤ indices.length) {l t : Nat} {tx : PrepTransaction}
    (htx : preparation.layers.cell l t = some tx) {input : PrepInput} (hi : input ∈ tx.inputs)
    (hplaced : Placed preparation.layers l coordinates) : input.Known indices coordinates := by
  have hconsumed : input ∈ consumed preparation.layers :=
    List.mem_flatMap.mpr ⟨tx,Grid.mem_flatten.mpr ⟨l,t,htx⟩,hi⟩
  cases input with
  | wallet index value =>
    have hvalue := (h.wallet index value hconsumed).1
    exact (List.getElem?_eq_some_iff.mp hvalue).1.trans_le hindices
  | prior l' t' o value =>
    obtain ⟨prior,hprior,_⟩ := (h.intermediate l' t' o value).mp hconsumed
    exact hplaced l' t' prior (h.spent l t tx htx _ hi) hprior

theorem translatePreparationPlan_total {available : List Zatoshis}
    (denominations : DenominationPlan) {fundingValues : List Nat}
    (hsound : preparation.Sound available) (hbalanced : preparation.Balanced feePerStage)
    (hindices : available.length ≤ indices.length)
    (hfunding : fundingValues.Perm (preparation.fundingNotes.map Zatoshis.value)) :
    ∃ plan, translatePreparationPlan preparation denominations indices fundingValues feePerStage =
      .ok plan := by
  have hminted : preparation.layers.flatten.flatMap PrepTransaction.minted =
      (preparation.allOutputs.filterMap PrepOutput.fundingNote).map Zatoshis.value := by
    rw [PreparationPlan.allOutputs,List.filterMap_flatMap,List.map_flatMap]
    rfl
  have hparts : (fundingValues.zipIdx.map Prod.fst).Perm
      (preparation.directFunding.map (·.2.value) ++
        (preparation.layers.flatten.flatMap PrepTransaction.minted ++ [])) := by
    rw [List.zipIdx_map_fst,List.append_nil,hminted]
    rw [PreparationPlan.fundingNotes,List.map_append,List.map_map] at hfunding
    exact hfunding.trans List.perm_append_comm
  have hdirectIndex (p : Nat × Zatoshis) (hp : p ∈ preparation.directFunding) :
      p.1 < indices.length :=
    (List.getElem?_eq_some_iff.mp (hsound.direct p hp)).1.trans_le hindices
  obtain ⟨direct,rest,hdirect,hrest⟩ := translateDirect_total hdirectIndex hparts
  obtain ⟨translation,hlayers,hdone⟩ := translateLayers_total 0 ⟨[],[],rest⟩
    (List.drop_zero ..) hbalanced
    (fun l t tx htx input hi coordinates hplaced => hsound.known hindices htx hi hplaced)
    (fun _ _ _ hl => absurd hl (Nat.not_lt_zero _)) hrest
  have hempty : translation.parts = [] := by simpa using hdone.eq_nil
  unfold translatePreparationPlan
  simp only [hdirect,ok_bind,hlayers,hempty,ne_eq,not_true_eq_false,if_false]
  exact ⟨_,rfl⟩

theorem canonical_positive {value : Nat} (h : isZip318CanonicalDenomination value = true) :
    0 < value := by
  by_contra hzero
  have hvalue : value = 0 := Nat.eq_zero_of_not_pos hzero
  subst hvalue
  exact absurd h (by decide)

variable {inputValues : List Nat}

theorem PlanningContext.Of.indices_length (h : context.Of inputValues) :
    context.available.length = context.positiveInputIndices.length := by
  have hvalues := congrArg List.length h.available
  rw [List.length_map] at hvalues
  rw [hvalues,h.indices]
  exact positive_lengths inputValues

variable {selection : Selection}

theorem Selection.Fits.prepared (h : selection.Fits sort context feePerStage migrationFee) :
    ∃ typed : List Zatoshis, typed.map Zatoshis.value = selection.fundingValues ∧
      planPreparation sort context.available typed context.prepFee = .ok selection.preparation ∧
      ∃ committed, committedValue selection.fundingValues selection.preparation feePerStage =
        .ok committed ∧ committed ≤ context.totalInputZatoshi := by
  obtain ⟨funding,hfunding,h⟩ := bind_ok h
  obtain ⟨typed,htyped,h⟩ := bind_ok h
  have hvalues := forall₂_map_eq (f := id) (mapM_ok htyped) fun _ _ hv =>
    Zatoshis.fromU64_eq_some (okOr_ok hv)
  split at h
  · cases h
  · cases h
  · cases h
  · rename_i preparation hprep
    obtain ⟨committed,hcommitted,h⟩ := bind_ok h
    split at h
    · rename_i hle
      cases h
      refine ⟨typed,?_,hprep,committed,hcommitted,hle⟩
      rwa [List.map_id] at hvalues
    · cases h

theorem committedValue_ok {fundingValues : List Nat} {committed : Nat}
    (h : committedValue fundingValues preparation feePerStage = .ok committed) :
    fundingValues.sum < u64Limit ∧ feePerStage * preparation.transactionCount < u64Limit ∧
      committed = fundingValues.sum + feePerStage * preparation.transactionCount := by
  obtain ⟨total,htotal,h⟩ := bind_ok h
  obtain ⟨fees,hfees,h⟩ := bind_ok h
  have hcommitted := checkedAdd_eq_some (okOr_ok h)
  have hvalue := checkedMul_eq_some (okOr_ok hfees)
  have hsum := checkedSum_ok htotal
  have hfeeLimit : feePerStage * preparation.transactionCount < u64Limit := by
    by_contra hover
    rw [checkedMul,if_neg hover] at hfees
    cases hfees
  have hsumLimit : fundingValues.sum < u64Limit := by
    by_contra hover
    rw [checkedSum_eq,if_neg hover] at htotal
    cases htotal
  exact ⟨hsumLimit,hfeeLimit,by omega⟩

theorem sum_le_sum_add (crossings : List Nat) (migrationFee : Nat) :
    crossings.sum ≤ (crossings.map (· + migrationFee)).sum := by
  induction crossings with
  | nil => exact le_rfl
  | cons crossing crossings ih =>
    rw [List.map_cons,List.sum_cons,List.sum_cons]
    omega

theorem positiveTargets_perm {funding : List Zatoshis} (h : ∀ v ∈ funding, 0 < v.value) :
    (positiveTargets funding).Perm (funding.map Zatoshis.value) := by
  refine (List.perm_insertionSort _ _).trans ?_
  rw [List.filter_eq_self.mpr]
  intro v hv
  obtain ⟨z,hz,rfl⟩ := List.mem_map.mp hv
  simpa using h z hz

theorem finishPlan_total (minimumOutput : Nat) (hcontext : context.Of inputValues)
    (hfee : context.prepFee.value = feePerStage)
    (hfits : selection.Fits sort context feePerStage migrationFee)
    (hcanonical : ∀ c ∈ selection.crossingValues, isZip318CanonicalDenomination c = true)
    (hfees : feePerStage * (2 * selection.fundingValues.length + context.available.length) <
      2 ^ 63) :
    ∃ plan, finishPlan context selection feePerStage migrationFee minimumOutput = .ok plan := by
  by_cases hempty : selection.crossingValues = []
  · exact ⟨none,by rw [finishPlan,if_pos hempty]⟩
  obtain ⟨hfunding,hsound⟩ := hfits.funding
  obtain ⟨typed,htyped,hprep,committed,hcommitted,hle⟩ := hfits.prepared
  obtain ⟨hsumLimit,hfeeLimit,hcommitted⟩ := committedValue_ok hcommitted
  have hlength : selection.crossingValues.length = selection.fundingValues.length := by
    rw [hfunding,List.length_map]
  have hcount : typed.length = selection.fundingValues.length := by
    rw [← htyped,List.length_map]
  -- Every funding note is worth a denomination and more, so none is left out as a zero.
  have hpositive : ∀ v ∈ typed, 0 < v.value := fun v hv => by
    have hmem : v.value ∈ selection.fundingValues := htyped ▸ List.mem_map_of_mem hv
    rw [hfunding] at hmem
    obtain ⟨c,hc,hvalue⟩ := List.mem_map.mp hmem
    have hc := canonical_positive (hcanonical c hc)
    omega
  have hbalanced : selection.preparation.Balanced feePerStage := by
    rw [← hfee]
    exact (planPreparation_settles sort (by rwa [hfee,hcount])).result _ hprep
  have hpairs := List.perm_insertionSort (fun a b : Nat × Nat => b.1 ≤ a.1)
    (selection.crossingValues.zip selection.fundingValues)
  simp only [finishPlan,if_neg hempty,if_neg (not_not.mpr hlength)]
  generalize (selection.crossingValues.zip selection.fundingValues).insertionSort
    (fun a b => b.1 ≤ a.1) = pairs at hpairs ⊢
  have hcrossings : (pairs.map Prod.fst).Perm selection.crossingValues := by
    have hfst := hpairs.map Prod.fst
    rwa [List.map_fst_zip hlength.le] at hfst
  have hnotes : (pairs.map Prod.snd).Perm selection.fundingValues := by
    have hsnd := hpairs.map Prod.snd
    rwa [List.map_snd_zip hlength.ge] at hsnd
  have hcrossingSum : (pairs.map Prod.fst).sum ≤ selection.fundingValues.sum := by
    rw [hcrossings.sum_eq,hfunding]
    exact sum_le_sum_add _ _
  have hdelivered : (pairs.map Prod.snd).Perm
      (selection.preparation.fundingNotes.map Zatoshis.value) :=
    hnotes.trans (htyped ▸ (positiveTargets_perm hpositive).symm.trans
      (planPreparation_delivers hprep).funding.symm)
  have hsplitFee : okOr (checkedMul feePerStage selection.preparation.transactionCount)
      "Preparation fee total overflow" =
        .ok (feePerStage * selection.preparation.transactionCount) := by
    rw [checkedMul,if_pos hfeeLimit]
    rfl
  have hfundingTotal := checkedSum_total "Migration funding total overflow"
    (hnotes.sum_eq.symm ▸ hsumLimit)
  have hmigratable := checkedSum_total "Migratable denomination total overflow"
    (hcrossingSum.trans_lt hsumLimit)
  have hremaining : (checkedSub context.totalInputZatoshi (pairs.map Prod.snd).sum).bind
      (checkedSub · (feePerStage * selection.preparation.transactionCount)) =
        some (context.totalInputZatoshi - (pairs.map Prod.snd).sum -
          feePerStage * selection.preparation.transactionCount) := by
    rw [hnotes.sum_eq,checkedSub,if_pos (by omega),Option.bind_some,checkedSub,if_pos (by omega)]
  obtain ⟨plan,hplan⟩ := translatePreparationPlan_total
    ⟨pairs.map Prod.fst,
      if minimumOutput ≤ context.totalInputZatoshi - (pairs.map Prod.snd).sum -
          feePerStage * selection.preparation.transactionCount then
        some (context.totalInputZatoshi - (pairs.map Prod.snd).sum -
          feePerStage * selection.preparation.transactionCount)
      else none,
      feePerStage * selection.preparation.transactionCount,migrationFee,
      context.totalInputZatoshi,(pairs.map Prod.fst).sum⟩
    hsound hbalanced hcontext.indices_length.le hdelivered
  refine ⟨some plan,?_⟩
  rw [hsplitFee,ok_bind,hfundingTotal,ok_bind,hremaining,okOr,ok_bind,hmigratable,ok_bind,hplan,
    ok_bind]

theorem planLoop_finishes {σ : Type} {refine : Nat → σ → DenominationRefinement × σ} {state : σ}
    {minimumOutput minimumNote fuel : Nat}
    (hcontext : planningContext inputValues feePerStage minimumOutput = .ok (some context))
    (hloop : planLoop refine sort context minimumNote feePerStage migrationFee fuel .empty state =
      .ok selection)
    (hfees : feePerStage * (2 * selection.fundingValues.length + context.available.length) <
      2 ^ 63) :
    ∃ plan, finishPlan context selection feePerStage migrationFee minimumOutput = .ok plan := by
  obtain ⟨hof,_,hfee⟩ := planningContext_ok hcontext
  rcases planLoop_fits hloop with hempty | hfits
  · exact ⟨none,by rw [finishPlan,if_pos hempty]⟩
  · exact finishPlan_total minimumOutput hof hfee hfits (planLoop_canonical hloop) hfees

/-- The planner ends in a plan or in one of its two errors, does the same with overflow checks as
without, and what it plans for the crossings of a denomination plan is translated. -/
theorem planner_total (sort : NoteSort) :
    (∀ (available funding : List Zatoshis) (feePerTx : Zatoshis),
      feePerTx.value * (2 * funding.length + available.length) < 2 ^ 63 →
        Checked.planPreparation sort available funding feePerTx =
          planPreparation sort available funding feePerTx ∧
        ∀ e, planPreparation sort available funding feePerTx = .error e →
          e = .insufficientFunds ∨ e = .balanceInvalid) ∧
    (∀ (σ : Type) (refine : Nat → σ → DenominationRefinement × σ) (state : σ)
      (inputValues : List Nat) (feePerStage migrationFee minimumOutput minimumNote fuel : Nat)
      (context : PlanningContext) (selection : Selection),
      planningContext inputValues feePerStage minimumOutput = .ok (some context) →
      planLoop refine sort context minimumNote feePerStage migrationFee fuel .empty state =
        .ok selection →
      feePerStage * (2 * selection.fundingValues.length + context.available.length) < 2 ^ 63 →
        ∃ plan, finishPlan context selection feePerStage migrationFee minimumOutput = .ok plan) := by
  constructor
  · intro available funding feePerTx hfees
    have hsettles := planPreparation_settles sort hfees
    exact ⟨hsettles.same,hsettles.error⟩
  · intro σ refine state inputValues feePerStage migrationFee minimumOutput minimumNote fuel context
      selection hcontext hloop hfees
    exact planLoop_finishes hcontext hloop hfees

/-- The four fragments of `fragmentedPlan` as the planner sees them. -/
def fragmentedContext : PlanningContext where
  positiveInputIndices := [0, 2, 3, 4]
  totalInputZatoshi := 2815000
  available := [⟨600000,by decide⟩,⟨600000,by decide⟩,⟨600000,by decide⟩,⟨1015000,by decide⟩]
  prepFee := ⟨80000,by decide⟩

def fragmentedSelection : Selection where
  crossingValues := [2000000]
  fundingValues := [2015000]
  preparation :=
    ⟨[[⟨[.wallet 3 ⟨1015000,by decide⟩,.wallet 0 ⟨600000,by decide⟩,.wallet 1 ⟨600000,by decide⟩,
          .wallet 2 ⟨600000,by decide⟩],[.intermediate ⟨2735000,by decide⟩]⟩],
        [⟨[.prior 0 0 0 ⟨2735000,by decide⟩],
          [.funding ⟨2015000,by decide⟩,.change ⟨640000,by decide⟩]⟩]],
      []⟩

theorem fragmentedSelection_total :
    (Checked.planPreparation insertionNoteSort fragmentedContext.available [⟨2015000,by decide⟩]
        ⟨80000,by decide⟩ =
      planPreparation insertionNoteSort fragmentedContext.available [⟨2015000,by decide⟩]
        ⟨80000,by decide⟩ ∧
      ∀ e, planPreparation insertionNoteSort fragmentedContext.available [⟨2015000,by decide⟩]
          ⟨80000,by decide⟩ = .error e →
        e = .insufficientFunds ∨ e = .balanceInvalid) ∧
    ∃ plan, finishPlan fragmentedContext fragmentedSelection 80000 15000 1 = .ok plan := by
  obtain ⟨hprep,hfinish⟩ := planner_total insertionNoteSort
  refine ⟨hprep _ _ _ (by decide),?_⟩
  exact hfinish Draws (refineDenomination aggressiveRefinementPolicy) (fun _ => 0)
    [600000, 0, 600000, 600000, 1015000] 80000 15000 1 1015000 2815001 fragmentedContext
    fragmentedSelection (by decide +kernel) (by decide +kernel) (by decide)

end CoppiceWallet.Planner
