import CoppiceWallet.Planner.PlanSound
import CoppiceWallet.Planner.SplitTotal

/-! # The planner is total -/

namespace CoppiceWallet.Planner

open CoppiceWallet.Lib

variable {available funding : List Zatoshis} {used : List Bool} {layers : Layers} {fee : Nat}
  {sort : NoteSort}

theorem allBalanced_sum {txs : List PrepTransaction} (h : AllBalanced fee txs) :
    poolValue (txs.flatMap PrepTransaction.inputs) =
      ((txs.flatMap PrepTransaction.outputs).map (·.value.value)).sum + fee * txs.length := by
  induction txs with
  | nil => rfl
  | cons tx txs ih =>
    obtain ⟨htx,hrest⟩ := List.forall_mem_cons.mp h
    have hvalue := htx.value
    have ih := ih hrest
    simp only [List.flatMap_cons,poolValue_append,List.map_append,List.sum_append,List.length_cons]
    rw [Nat.mul_add]
    omega

theorem relabelOutput_value (spent : List Coordinate) (l t o : Nat) (output : PrepOutput) :
    (relabelOutput spent l t o output).value = output.value := by
  cases output with
  | funding value => rfl
  | change value => rfl
  | intermediate value =>
    by_cases hs : (l,t,o) ∈ spent <;> simp [relabelOutput,hs,PrepOutput.value]

theorem relabelTransaction_balanced {spent : List Coordinate} {l t : Nat} {tx : PrepTransaction}
    (h : tx.Balanced fee) : (relabelTransaction spent l t tx).Balanced fee where
  value := by
    have hvalues : (relabelTransaction spent l t tx).outputs.map (·.value.value) =
        tx.outputs.map (·.value.value) := by
      have hidx := List.zipIdx_map_fst 0 tx.outputs
      unfold relabelTransaction
      conv_rhs => rw [← hidx]
      simp only [List.map_map,Function.comp_def,relabelOutput_value]
    rw [hvalues]
    exact h.value
  actions := by
    have hlength : (relabelTransaction spent l t tx).outputs.length = tx.outputs.length := by
      simp [relabelTransaction]
    rw [hlength]
    exact h.actions

theorem relabelUnspent_balanced (h : AllBalanced fee layers.flatten) :
    AllBalanced fee (relabelUnspent layers).flatten := by
  intro tx htx
  obtain ⟨l,t,hcell⟩ := Grid.mem_flatten.mp htx
  rw [relabelUnspent_cell] at hcell
  obtain ⟨old,hold,rfl⟩ := Option.map_eq_some_iff.mp hcell
  exact relabelTransaction_balanced (h old (Grid.mem_flatten.mpr ⟨l,t,hold⟩))

def PrepInput.walletNote : PrepInput → Option (Nat × Nat)
  | .wallet index value => some (index, value.value)
  | .prior _ _ _ _ => none

theorem inputs_sum (inputs : List PrepInput) : poolValue inputs =
    ((inputs.filterMap PrepInput.walletNote).map Prod.snd).sum +
      (inputs.map PrepInput.priorValue).sum := by
  induction inputs with
  | nil => rfl
  | cons input inputs ih =>
    cases input <;>
      simp [List.filterMap_cons,ih,PrepInput.walletNote,PrepInput.priorValue,PrepInput.value] <;>
      omega

theorem outputs_sum_le (outputs : List PrepOutput) :
    (outputs.map PrepOutput.intermediateValue).sum +
      ((outputs.filterMap PrepOutput.residualNote).map Zatoshis.value).sum ≤
      (outputs.map (·.value.value)).sum := by
  induction outputs with
  | nil => exact le_rfl
  | cons output outputs ih =>
    have hoffer : output.intermediateValue + (output.residualNote.map Zatoshis.value).getD 0 ≤
        output.value.value := by
      cases output with
      | funding value => exact Nat.zero_le _
      | intermediate value => exact le_rfl
      | change value => exact (Nat.zero_add _).le
    have hresidual : (((output :: outputs).filterMap PrepOutput.residualNote).map
        Zatoshis.value).sum = (output.residualNote.map Zatoshis.value).getD 0 +
          ((outputs.filterMap PrepOutput.residualNote).map Zatoshis.value).sum := by
      rw [List.filterMap_cons]
      cases output.residualNote <;> simp
    rw [hresidual]
    simp only [List.map_cons,List.sum_cons]
    omega

theorem walletNotes_sum_le (h : Sound available used layers []) :
    (((consumed layers).filterMap PrepInput.walletNote).map Prod.snd).sum ≤
      (available.map Zatoshis.value).sum := by
  have hconsumed : (consumed layers).Nodup := by simpa using h.nodup
  have hvalue : ∀ p ∈ (consumed layers).filterMap PrepInput.walletNote,
      (available.map Zatoshis.value)[p.1]? = some p.2 := by
    intro p hp
    obtain ⟨input,hi,hp⟩ := List.mem_filterMap.mp hp
    cases input with
    | wallet index value =>
      cases hp
      rw [List.getElem?_map,(h.consumed_spendable hi).1,Option.map_some]
    | prior l t o value => cases hp
  have hnotes : ((consumed layers).filterMap PrepInput.walletNote).Nodup := by
    refine hconsumed.filterMap fun a b note ha hb => ?_
    cases a with
    | prior l t o value => cases ha
    | wallet i v =>
      cases b with
      | prior l t o value => cases hb
      | wallet j w =>
        cases ha
        injection hb with hb
        injection hb with hi hv
        rw [hi,Zatoshis.ext hv]
  have hnodup := hnotes.map_on (f := Prod.fst) fun p hp q hq heq => by
    have hvalues := (hvalue p hp).symm.trans ((congrArg _ heq).trans (hvalue q hq))
    exact Prod.ext heq (Option.some.inj hvalues)
  have hsum := sum_picked_add_rest _ _ hnodup hvalue
  omega

theorem unconsumed_value_le {values : List Nat} (h : Sound available used layers [])
    (hbalanced : AllBalanced fee layers.flatten) (hmints : Mints layers.flatten values) :
    poolValue (unconsumedFeeders layers) ≤ (available.map Zatoshis.value).sum := by
  have hsound : PreparationPlan.Sound available ⟨relabelUnspent layers,[]⟩ :=
    relabelUnspent_sound h (by simp) (by simp) (by simp)
  have hprior : ((consumed (relabelUnspent layers)).map PrepInput.priorValue).sum =
      (((relabelUnspent layers).flatten.flatMap PrepTransaction.outputs).map
        PrepOutput.intermediateValue).sum := hsound.prior_sum
  have hresiduals : PreparationPlan.residualNotes ⟨relabelUnspent layers,[]⟩ = _ :=
    residualNotes_relabelUnspent hmints.residuals
  have htotal := allBalanced_sum (relabelUnspent_balanced hbalanced)
  have hwallet := walletNotes_sum_le h
  have hinputs := inputs_sum (consumed (relabelUnspent layers))
  have houtputs := outputs_sum_le ((relabelUnspent layers).flatten.flatMap PrepTransaction.outputs)
  have hunspent : poolValue (unconsumedFeeders layers) =
      ((PreparationPlan.residualNotes ⟨relabelUnspent layers,[]⟩).map Zatoshis.value).sum := by
    rw [hresiduals,List.map_map]
    rfl
  rw [consumed_relabelUnspent] at hprior hinputs
  simp only [PreparationPlan.residualNotes,PreparationPlan.allOutputs] at hunspent
  change poolValue (consumed (relabelUnspent layers)) = _ at htotal
  rw [consumed_relabelUnspent] at htotal
  omega

theorem extractDirectFunding_total (values : List Nat) {targets : List Nat} (used : List Bool)
    (h : ∀ v ∈ targets, v ≤ maxMoney) :
    ∃ result, extractDirectFunding values targets used = .ok result := by
  induction targets generalizing used with
  | nil => exact ⟨_,rfl⟩
  | cons funding targets ih =>
    obtain ⟨hfunding,htargets⟩ := List.forall_mem_cons.mp h
    simp only [extractDirectFunding]
    split
    · obtain ⟨amount,hamount,_⟩ := zat_total hfunding
      obtain ⟨result,hresult⟩ := ih _ htargets
      rw [hamount,ok_bind,hresult]
      exact ⟨_,rfl⟩
    · obtain ⟨result,hresult⟩ := ih _ htargets
      rw [hresult]
      exact ⟨_,rfl⟩

/-- What direct funding leaves to mint. -/
structure Remains (funding : List Zatoshis) (kept : List Nat) : Prop where
  sum : kept.sum ≤ (funding.map Zatoshis.value).sum
  length : kept.length ≤ funding.length
  positive : ∀ v ∈ kept, 0 < v

theorem extractDirectFunding_remains {values kept : List Nat} {used used' : List Bool}
    {direct : List (Nat × Zatoshis)}
    (h : extractDirectFunding values (positiveTargets funding) used = .ok (used',direct,kept)) :
    Remains funding kept := by
  have hperm := (extractDirectFunding_perm h).trans (List.perm_insertionSort _ _)
  have hsub := List.filter_sublist (p := fun v => decide (0 < v)) (l := funding.map Zatoshis.value)
  have hsum := hperm.sum_eq
  have hlength := hperm.length_eq
  have hle := hsub.sum_le_sum fun _ _ => Nat.zero_le _
  have hcount := hsub.length_le
  rw [List.sum_append] at hsum
  rw [List.length_append] at hlength
  rw [List.length_map] at hcount
  refine ⟨by omega,by omega,fun v hv => ?_⟩
  have hmem := hperm.mem_iff.mp (List.mem_append_right _ hv)
  simpa using (List.mem_filter.mp hmem).2

theorem Remains.affordable {kept : List Nat} (h : Remains funding kept)
    (hfunding : (funding.map Zatoshis.value).sum ≤ maxMoney) (havailable : available ≠ [])
    (hfees : fee * (2 * funding.length + available.length) < 2 ^ 63) : Affordable fee kept := by
  have hpos := List.length_pos_iff.mpr havailable
  have hfee := Nat.mul_le_mul_left fee
    (by have := h.length; omega : 2 * kept.length + 1 ≤ 2 * funding.length + available.length)
  have hsum := h.sum
  have hlength := List.length_le_sum_of_one_le kept h.positive
  have hmoney : maxMoney = 2100000000000000 := rfl
  constructor
  · unfold u64Limit
    omega
  · unfold u64Limit
    omega

theorem largestUnused_ne_nil {values : List Nat} {index value : Nat}
    (h : largestUnused values used = some (index,value)) : values ≠ [] := by
  rintro rfl
  cases h

theorem splitLargest_total (used : List Bool) {remaining : List Nat} (hsome : remaining ≠ [])
    (hafford : available ≠ [] → Affordable fee remaining) :
    Total (Checked.splitLargest fee (available.map Zatoshis.value) used remaining)
      (splitLargest fee (available.map Zatoshis.value) used remaining)
      fun result => AllBalanced fee result.2.flatten ∧ result.1.length ≤ remaining.length ∧
        result.1.sum ≤ remaining.sum := by
  have hnone : AllBalanced fee (List.flatten ([] : Layers)) := AllBalanced.nil fee
  unfold Checked.splitLargest splitLargest
  cases hlargest : largestUnused (available.map Zatoshis.value) used with
  | none => exact .ok ⟨hnone,le_rfl,le_rfl⟩
  | some best =>
    obtain ⟨index,big⟩ := best
    have havailable : available ≠ [] := fun hnil =>
      largestUnused_ne_nil hlargest (by rw [hnil,List.map_nil])
    obtain ⟨hchecked,_⟩ := subtreeCost_total hsome (hafford havailable)
    simp only [hchecked,ok_bind]
    by_cases hcost : (subtreeCost remaining fee).2 ≤ big
    · rw [if_pos hcost,if_pos hcost]
      obtain ⟨hnote,_⟩ := largestUnused_spec hlargest
      rw [List.getElem?_map] at hnote
      obtain ⟨z,_,rfl⟩ := Option.map_eq_some_iff.mp hnote
      refine (zat_total z.le_maxMoney).bind fun value hvalue => ?_
      have hsource : (PrepInput.wallet index value).value.value = z.value := hvalue
      refine (buildSplit_total hsource (Nat.lt_succ_self _) hsome (hafford havailable) hcost
        hnone).bind fun layers hlayers => ?_
      exact .ok ⟨hlayers,Nat.zero_le _,Nat.zero_le _⟩
    · rw [if_neg hcost,if_neg hcost]
      exact .ok ⟨hnone,le_rfl,le_rfl⟩

private theorem poolValue_filterMap_le {f : (Zatoshis × Bool) × Nat → Option PrepInput}
    (hf : ∀ entry, poolValue (f entry).toList ≤ entry.1.1.value) (available : List Zatoshis)
    (used : List Bool) (start : Nat) :
    poolValue (((available.zip used).zipIdx start).filterMap f) ≤
      (available.map Zatoshis.value).sum := by
  induction available generalizing used start with
  | nil => exact Nat.zero_le _
  | cons value available ih =>
    cases used with
    | nil => exact Nat.zero_le _
    | cons mark used =>
      have ih := ih used (start + 1)
      have hone := hf ((value,mark),start)
      rw [List.zip_cons_cons,List.zipIdx_cons,List.filterMap_cons,List.map_cons,List.sum_cons]
      cases hentry : f ((value,mark),start) with
      | none =>
        dsimp only
        omega
      | some note =>
        rw [hentry,Option.toList_some,poolValue_cons,poolValue_nil] at hone
        dsimp only
        rw [poolValue_cons]
        dsimp only at hone
        omega

theorem walletNotes_value_le (available : List Zatoshis) (used : List Bool) (keep : Nat → Bool) :
    poolValue (walletNotes available used keep) ≤ (available.map Zatoshis.value).sum := by
  refine poolValue_filterMap_le (fun entry => ?_) available used 0
  obtain ⟨⟨value,mark⟩,index⟩ := entry
  by_cases hkeep : (!mark && keep value.value) = true
  · simp only [if_pos hkeep,Option.toList_some,poolValue_cons,poolValue_nil,PrepInput.value]
    exact le_rfl
  · simp only [if_neg hkeep]
    exact Nat.zero_le _

/-- A plan whose transactions conserve value within the action budget. -/
def PreparationPlan.Balanced (fee : Nat) (plan : PreparationPlan) : Prop :=
  AllBalanced fee plan.layers.flatten

theorem targets_le_maxMoney (h : (funding.map Zatoshis.value).sum ≤ maxMoney) :
    ∀ v ∈ positiveTargets funding, v ≤ maxMoney := fun v hv => by
  have hmem := (List.perm_insertionSort _ _).mem_iff.mp hv
  have hle := mem_le_sum (List.mem_filter.mp hmem).1
  omega

theorem planPreparationGreedy_settles (sort : NoteSort) {feePerTx : Zatoshis}
    (hfees : feePerTx.value * (2 * funding.length + available.length) < 2 ^ 63) :
    Settles (Checked.planPreparationGreedy sort available funding feePerTx)
      (planPreparationGreedy sort available funding feePerTx)
      (PreparationPlan.Balanced feePerTx.value) := by
  unfold Checked.planPreparationGreedy planPreparationGreedy
  by_cases hvalid : totalsValid available funding = true
  swap
  · rw [if_pos (by simpa using hvalid),if_pos (by simpa using hvalid)]
    exact .invalid
  rw [if_neg (by simpa using hvalid),if_neg (by simpa using hvalid)]
  simp only [totalsValid,Bool.and_eq_true,decide_eq_true_eq] at hvalid
  obtain ⟨⟨used,direct,remaining⟩,hdirect⟩ := extractDirectFunding_total
    (available.map Zatoshis.value) (List.replicate (available.map Zatoshis.value).length false)
    (targets_le_maxMoney hvalid.2)
  simp only [hdirect,ok_bind]
  by_cases hdone : remaining = []
  · rw [if_pos hdone,if_pos hdone]
    exact .ok (AllBalanced.nil _)
  rw [if_neg hdone,if_neg hdone]
  have hremains := extractDirectFunding_remains hdirect
  have hremaining := hremains.sum
  obtain ⟨⟨remaining',layers⟩,hchecked,hsplit,hlayers,_,hsum⟩ := splitLargest_total used hdone
    fun havailable => hremains.affordable hvalid.2 havailable hfees
  simp only at hsum hlayers
  rw [hchecked,hsplit,ok_bind,ok_bind]
  dsimp only
  have hnotes := walletNotes_value_le available used fun _ => true
  refine (greedyLoop_settles (Nat.lt_succ_self _) (by omega) (by omega) hlayers).bind
    fun greedy hgreedy hbalanced => ?_
  obtain ⟨placed,hplaced,_⟩ := splitLargest_mints hsplit
  have hunspent := unconsumed_value_le (greedyLayers_sound hsplit hgreedy) hbalanced
    (greedyLoop_mints hplaced hgreedy)
  refine (residualLoop_settles (Nat.lt_succ_self _) (by omega) hbalanced).bind
    fun residual _ hresidual => ?_
  exact .ok (relabelUnspent_balanced hresidual)

theorem planPreparationViaConsolidation_settles (sort : NoteSort) {feePerTx : Zatoshis}
    (hfees : feePerTx.value * (2 * funding.length + available.length) < 2 ^ 63) :
    Settles (Checked.planPreparationViaConsolidation sort available funding feePerTx)
      (planPreparationViaConsolidation sort available funding feePerTx)
      (PreparationPlan.Balanced feePerTx.value) := by
  unfold Checked.planPreparationViaConsolidation planPreparationViaConsolidation
  by_cases hvalid : totalsValid available funding = true
  swap
  · rw [if_pos (by simpa using hvalid),if_pos (by simpa using hvalid)]
    exact .invalid
  rw [if_neg (by simpa using hvalid),if_neg (by simpa using hvalid)]
  simp only [totalsValid,Bool.and_eq_true,decide_eq_true_eq] at hvalid
  obtain ⟨⟨used,direct,targets⟩,hdirect⟩ := extractDirectFunding_total
    (available.map Zatoshis.value) (List.replicate (available.map Zatoshis.value).length false)
    (targets_le_maxMoney hvalid.2)
  simp only [hdirect,ok_bind]
  by_cases hdone : targets = []
  · rw [if_pos hdone,if_pos hdone]
    exact .ok (AllBalanced.nil _)
  rw [if_neg hdone,if_neg hdone]
  by_cases hempty : walletNotes available used (0 < ·) = []
  · rw [if_pos hempty,if_pos hempty]
    exact .insufficient
  rw [if_neg hempty,if_neg hempty]
  have havailable : available ≠ [] := by
    rintro rfl
    exact hempty rfl
  have hremains := extractDirectFunding_remains hdirect
  have hafford := hremains.affordable hvalid.2 havailable hfees
  have hnotes := walletNotes_value_le available used fun value => decide (0 < value)
  have hstart : AllBalanced feePerTx.value (List.flatten ([] : Layers)) := AllBalanced.nil _
  refine (mergeLoop_settles (Nat.lt_succ_self _) hempty (by omega)
    hstart).bind fun merged _ hmerged => ?_
  obtain ⟨current,layers⟩ := merged
  simp only
  cases hlast : current.getLast? with
  | none => exact absurd (List.getLast?_eq_none_iff.mp hlast) hmerged.some
  | some source =>
    obtain ⟨hchecked,_⟩ := subtreeCost_total hdone hafford
    simp only [hchecked,ok_bind]
    by_cases hcost : source.value.value < (subtreeCost targets feePerTx.value).2
    · rw [if_pos hcost,if_pos hcost]
      exact .insufficient
    rw [if_neg hcost,if_neg hcost]
    refine (buildSplit_total rfl (Nat.lt_succ_self _) hdone hafford (not_lt.mp hcost)
      hmerged.balanced).bindSettles fun built hbuilt => ?_
    exact .ok (relabelUnspent_balanced hbuilt)

theorem planPreparation_settles (sort : NoteSort) {feePerTx : Zatoshis}
    (hfees : feePerTx.value * (2 * funding.length + available.length) < 2 ^ 63) :
    Settles (Checked.planPreparation sort available funding feePerTx)
      (planPreparation sort available funding feePerTx)
      (PreparationPlan.Balanced feePerTx.value) := by
  have hgreedy := planPreparationGreedy_settles sort hfees
  have hmerge := planPreparationViaConsolidation_settles sort hfees
  unfold Checked.planPreparation planPreparation
  rw [hgreedy.same]
  cases hrun : planPreparationGreedy sort available funding feePerTx with
  | ok plan => exact .ok (hgreedy.result plan hrun)
  | error e =>
    rcases hgreedy.error e hrun with rfl | rfl
    · exact hmerge
    · exact .invalid

end CoppiceWallet.Planner
