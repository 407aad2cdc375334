import CoppiceWallet.Planner.MergeTotal

/-! # The balanced split is total -/

namespace CoppiceWallet.Planner

open CoppiceWallet.Lib

variable {targets : List Nat}

theorem slices_lengths {sizes : List Nat} (h : sizes.sum = targets.length) :
    (slices sizes targets).map List.length = sizes := by
  induction sizes generalizing targets with
  | nil => rfl
  | cons size sizes ih =>
    rw [List.sum_cons] at h
    rw [slices,List.map_cons,List.length_take_of_le (by omega),
      ih (by rw [List.length_drop]; omega)]

/-- The number of groups of a split. -/
def groupCount (targets : List Nat) : Nat :=
  divCeil targets.length (subtreeCapacity (splitDepth targets.length - 1))

theorem splitGroups_lengths (h : targets ≠ []) :
    (splitGroups targets).map List.length = evenGroupSizes targets.length (groupCount targets) :=
  slices_lengths
    (evenGroupSizes_sum (divCeil_pos (List.length_pos_iff.mpr h) (subtreeCapacity_pos _)))

theorem splitGroups_length (h : targets ≠ []) :
    (splitGroups targets).length = groupCount targets := by
  have hlengths := congrArg List.length (splitGroups_lengths h)
  rwa [List.length_map,evenGroupSizes,List.length_map,List.length_range] at hlengths

theorem capacity_lt_length (h : 1 < splitDepth targets.length) :
    subtreeCapacity (splitDepth targets.length - 1) < targets.length := by
  by_contra hle
  have := splitDepth_le (not_lt.mp hle) (by omega)
  omega

theorem ne_nil_of_depth (h : 1 < splitDepth targets.length) : targets ≠ [] := by
  rintro rfl
  simp [splitDepth] at h

theorem groupCount_bounds (h : 1 < splitDepth targets.length) :
    2 ≤ groupCount targets ∧ groupCount targets ≤ fundingOutputsPerTx ∧
      groupCount targets ≤ targets.length := by
  have hlt := capacity_lt_length h
  have hle := le_capacity_splitDepth targets.length
  have hpos := subtreeCapacity_pos (splitDepth targets.length - 1)
  have hpow : subtreeCapacity (splitDepth targets.length) =
      fundingOutputsPerTx * subtreeCapacity (splitDepth targets.length - 1) := by
    obtain ⟨d,hd⟩ : ∃ d, splitDepth targets.length = d + 1 :=
      ⟨splitDepth targets.length - 1,by omega⟩
    rw [hd]
    exact Nat.pow_succ'
  unfold groupCount divCeil
  generalize subtreeCapacity (splitDepth targets.length - 1) = cap at *
  rw [hpow] at hle
  refine ⟨(Nat.le_div_iff_mul_le hpos).mpr (by omega),?_,?_⟩
  · exact Nat.lt_succ_iff.mp ((Nat.div_lt_iff_lt_mul hpos).mpr (by
      rw [Nat.succ_mul]
      omega))
  · refine Nat.div_le_of_le_mul ?_
    obtain ⟨c,rfl⟩ : ∃ c, cap = c + 1 := ⟨cap - 1,by omega⟩
    obtain ⟨l,hl⟩ : ∃ l, targets.length = l + 1 := ⟨targets.length - 1,by omega⟩
    rw [hl,Nat.add_mul,Nat.mul_add]
    omega

theorem splitGroups_ne_nil {group : List Nat} (h : 1 < splitDepth targets.length)
    (hgroup : group ∈ splitGroups targets) : group ≠ [] := by
  have hmem := List.mem_map_of_mem (f := List.length) hgroup
  rw [splitGroups_lengths (ne_nil_of_depth h)] at hmem
  obtain ⟨i,_,hi⟩ := List.mem_map.mp hmem
  have hbounds := groupCount_bounds h
  have hpos : 0 < targets.length / groupCount targets := Nat.div_pos hbounds.2.2 (by omega)
  rintro rfl
  simp only [List.length_nil] at hi
  omega

variable {fee : Nat}

theorem wrap_of_lt {n : Nat} (h : n < u64Limit) : wrap n = n := Nat.mod_eq_of_lt h

theorem wrapSub_of_le {a b : Nat} (hle : b ≤ a) (ha : a < u64Limit) : wrapSub a b = a - b := by
  unfold wrapSub u64Limit at *
  omega

theorem wrapSub_leftover {value fee total : Nat} (hle : fee + total ≤ value)
    (hvalue : value < u64Limit) :
    wrapSub (wrapSub value fee) (wrap total) = value - fee - total := by
  rw [wrapSub_of_le (by omega) hvalue,wrap_of_lt (by omega),
    wrapSub_of_le (by omega) (by omega)]

/-- The cost of a split: `k` transactions, whose fees the source pays beside the values. -/
def Costs (fee : Nat) (targets : List Nat) (cost : Nat × Nat) : Prop :=
  cost.2 = targets.sum + fee * cost.1 ∧ 1 ≤ cost.1 ∧ cost.1 < 2 * targets.length

/-- Neither the fees of a split nor the number of its transactions leave `u64`. -/
structure Affordable (fee : Nat) (targets : List Nat) : Prop where
  value : targets.sum + fee * (2 * targets.length + 1) < u64Limit
  count : 2 * targets.length + 1 < u64Limit

theorem Affordable.of_sublist {group : List Nat} (h : Affordable fee targets)
    (hsum : group.sum ≤ targets.sum) (hlength : group.length ≤ targets.length) :
    Affordable fee group where
  value := by
    have hmul := Nat.mul_le_mul_left fee (Nat.mul_le_mul_left 2 hlength)
    have hvalue := h.value
    rw [Nat.mul_add] at hvalue ⊢
    omega
  count := by
    have hcount := h.count
    omega

variable {groups : List (List Nat)}

theorem mem_flatten_bounds {group : List Nat} (h : group ∈ groups) :
    group.sum ≤ groups.flatten.sum ∧ group.length ≤ groups.flatten.length := by
  obtain ⟨before,after,rfl⟩ := List.append_of_mem h
  simp only [List.flatten_append,List.flatten_cons,List.sum_append,List.length_append]
  omega

theorem foldlM_cost_total {checked : List Nat → PrepResult (Nat × Nat)}
    {cost : List Nat → Nat × Nat} (txs value : Nat)
    (hgroups : ∀ group ∈ groups, checked group = .ok (cost group) ∧ Costs fee group (cost group))
    (htxs : txs + 2 * groups.flatten.length < u64Limit)
    (hvalue : value + groups.flatten.sum + fee * (2 * groups.flatten.length) < u64Limit) :
    ∃ k, groups.length ≤ k ∧ k + groups.length ≤ 2 * groups.flatten.length ∧
      groups.foldlM (fun (txs, value) group => do
        let (t, v) ← checked group
        let txs ← Checked.add txs t
        let value ← Checked.add value v
        .ok (txs, value)) (txs,value) =
        .ok (txs + k,value + groups.flatten.sum + fee * k) ∧
      groups.foldl (fun (txs, value) group =>
        (wrap (txs + (cost group).1),wrap (value + (cost group).2))) (txs,value) =
        (txs + k,value + groups.flatten.sum + fee * k) := by
  induction groups generalizing txs value with
  | nil => exact ⟨0,le_rfl,by simp,rfl,rfl⟩
  | cons group groups ih =>
    obtain ⟨⟨hchecked,hcost,hone,htwo⟩,hgroups⟩ := List.forall_mem_cons.mp hgroups
    simp only [List.flatten_cons,List.sum_append,List.length_append] at htxs hvalue ⊢
    obtain ⟨t,v,hc⟩ : ∃ t v, cost group = (t,v) := ⟨_,_,rfl⟩
    rw [hc] at hchecked hcost hone htwo
    simp only at hcost hone htwo
    have hfees : fee * t ≤ fee * (2 * group.length) := Nat.mul_le_mul_left fee htwo.le
    rw [Nat.mul_add 2,Nat.mul_add fee] at hvalue
    obtain ⟨k,hk,hk2,hfoldM,hfold⟩ := ih (txs + t) (value + v) hgroups (by omega) (by omega)
    refine ⟨t + k,?_,?_,?_,?_⟩
    · rw [List.length_cons]
      omega
    · rw [List.length_cons]
      omega
    · rw [List.foldlM_cons,hchecked,ok_bind]
      simp only [add_ok (by omega : txs + t < u64Limit),add_ok (by omega : value + v < u64Limit),
        ok_bind,hfoldM]
      rw [Nat.mul_add]
      congr 2 <;> omega
    · rw [List.foldl_cons]
      simp only [hc,wrap_of_lt (by omega : txs + t < u64Limit),
        wrap_of_lt (by omega : value + v < u64Limit),hfold]
      rw [Nat.mul_add]
      congr 1 <;> omega

theorem subtreeCostLoop_leaf_total (fuel : Nat) (hdepth : splitDepth targets.length ≤ 1)
    (hsome : targets ≠ []) (h : Affordable fee targets) :
    Checked.subtreeCostLoop fee fuel targets = .ok (subtreeCostLoop fee fuel targets) ∧
      Costs fee targets (subtreeCostLoop fee fuel targets) := by
  have hlength := List.length_pos_iff.mpr hsome
  have hvalue := h.value
  rw [Nat.mul_add] at hvalue
  have hsum : targets.sum + fee < u64Limit := by omega
  rw [subtreeCostLoop_leaf fuel hdepth,wrap_of_lt hsum]
  refine ⟨?_,by simp,le_rfl,by simp only; omega⟩
  cases fuel with
  | zero => rw [Checked.subtreeCostLoop,sum_ok (by omega),ok_bind,add_ok hsum,ok_bind]
  | succ fuel =>
    rw [Checked.subtreeCostLoop,if_pos hdepth,sum_ok (by omega),ok_bind,add_ok hsum,ok_bind]

theorem subtreeCostLoop_total {fuel : Nat} (hfuel : splitDepth targets.length ≤ fuel + 1)
    (hsome : targets ≠ []) (h : Affordable fee targets) :
    Checked.subtreeCostLoop fee fuel targets = .ok (subtreeCostLoop fee fuel targets) ∧
      Costs fee targets (subtreeCostLoop fee fuel targets) := by
  induction fuel generalizing targets with
  | zero => exact subtreeCostLoop_leaf_total 0 hfuel hsome h
  | succ fuel ih =>
    by_cases hleaf : splitDepth targets.length ≤ 1
    · exact subtreeCostLoop_leaf_total _ hleaf hsome h
    have hdepth : 1 < splitDepth targets.length := by omega
    have hflatten := splitGroups_flatten hsome
    have hcount := groupCount_bounds hdepth
    rw [← splitGroups_length hsome] at hcount
    have hgroups : ∀ group ∈ splitGroups targets,
        Checked.subtreeCostLoop fee fuel group = .ok (subtreeCostLoop fee fuel group) ∧
          Costs fee group (subtreeCostLoop fee fuel group) := fun group hgroup => by
      have hlt := splitGroups_depth hdepth hgroup
      have hbounds := mem_flatten_bounds hgroup
      rw [hflatten] at hbounds
      exact ih (by omega) (splitGroups_ne_nil hdepth hgroup)
        (h.of_sublist hbounds.1 hbounds.2)
    have hvalue := h.value
    have hlimit := h.count
    rw [Nat.mul_add,Nat.mul_one] at hvalue
    rw [← hflatten] at hvalue hlimit
    obtain ⟨k,hk,hk2,hfoldM,hfold⟩ := foldlM_cost_total 1 fee hgroups (by omega) (by omega)
    rw [hflatten] at hk2 hfoldM hfold
    have hcost : subtreeCostLoop fee (fuel + 1) targets =
        (1 + k,fee + targets.sum + fee * k) := by
      rw [subtreeCostLoop,if_neg hleaf]
      exact hfold
    rw [hcost]
    refine ⟨?_,?_,by simp only; omega,by simp only; omega⟩
    · rw [Checked.subtreeCostLoop,if_neg hleaf]
      exact hfoldM
    · simp only
      rw [Nat.mul_add]
      omega

theorem subtreeCost_total (hsome : targets ≠ []) (h : Affordable fee targets) :
    Checked.subtreeCost targets fee = .ok (subtreeCost targets fee) ∧
      Costs fee targets (subtreeCost targets fee) :=
  subtreeCostLoop_total (Nat.le_succ _) hsome h

theorem costs_sum_le {cost : List Nat → Nat × Nat}
    (h : ∀ group ∈ groups, Costs fee group (cost group)) :
    (groups.map fun group => (cost group).2).sum ≤
      groups.flatten.sum + fee * (2 * groups.flatten.length) := by
  induction groups with
  | nil => simp
  | cons group groups ih =>
    obtain ⟨⟨hcost,_,htwo⟩,hrest⟩ := List.forall_mem_cons.mp h
    have ih := ih hrest
    have hfees : fee * (cost group).1 ≤ fee * (2 * group.length) := Nat.mul_le_mul_left fee htwo.le
    simp only [List.map_cons,List.sum_cons,List.flatten_cons,List.sum_append,List.length_append]
    rw [Nat.mul_add 2,Nat.mul_add fee]
    omega

theorem subtreeCost_children (hdepth : 1 < splitDepth targets.length) (h : Affordable fee targets) :
    (subtreeCost targets fee).2 =
      fee + ((splitGroups targets).map fun group => (subtreeCost group fee).2).sum := by
  have hsome := ne_nil_of_depth hdepth
  have hflatten := splitGroups_flatten hsome
  obtain ⟨_,hcosts,_,htwo⟩ := subtreeCost_total hsome h
  have hgroups := costs_sum_le fun group (hgroup : group ∈ splitGroups targets) => by
    have hbounds := mem_flatten_bounds hgroup
    rw [hflatten] at hbounds
    exact (subtreeCost_total (splitGroups_ne_nil hdepth hgroup)
      (h.of_sublist hbounds.1 hbounds.2)).2
  rw [hflatten] at hgroups
  have hvalue := h.value
  have hfees := Nat.mul_le_mul_left fee htwo.le
  rw [Nat.mul_add] at hvalue
  have hmod : (subtreeCost targets fee).2 % u64Limit = (fee +
      ((splitGroups targets).map fun group => (subtreeCost group fee).2).sum) % u64Limit := by
    rw [subtreeCost_node hdepth,foldl_cost_mod]
  rwa [Nat.mod_eq_of_lt (by omega),Nat.mod_eq_of_lt (by omega)] at hmod

theorem leftoverOutput_total {leftover : Nat} (h : leftover ≤ maxMoney) :
    ∃ outputs, leftoverOutput leftover = .ok outputs ∧
      (outputs.map (·.value.value)).sum = leftover ∧ outputs.length ≤ 1 := by
  unfold leftoverOutput
  by_cases hpos : 0 < leftover
  · obtain ⟨amount,hamount,_,hvalue⟩ := zat_total h
    rw [if_pos hpos,hamount]
    exact ⟨[.intermediate amount],rfl,by simpa [PrepOutput.value] using hvalue,le_rfl⟩
  · rw [if_neg hpos]
    exact ⟨[],rfl,by simp; omega,Nat.zero_le 1⟩

theorem flatten_push_balanced {layers : Layers} {tx : PrepTransaction} (layer : Nat)
    (h : AllBalanced fee layers.flatten) (htx : tx.Balanced fee) :
    AllBalanced fee ((layers.pad layer).push layer tx).flatten := by
  intro t ht
  have hperm := Grid.flatten_push_perm (layers.pad layer) layer tx
  rw [Grid.flatten_pad] at hperm
  rcases List.mem_cons.mp (hperm.mem_iff.mp ht) with rfl | ht
  · exact htx
  · exact h t ht

theorem buildChildren_total {checked build : PrepInput → Nat → List Nat → Layers →
      PrepResult Layers} {layer txIndex o : Nat} {children : List (List Nat × Nat)}
    {layers : Layers}
    (hbuild : ∀ child ∈ children, child.2 ≤ maxMoney ∧ ∀ (o : Nat) (value : Zatoshis) layers,
      value.value = child.2 → AllBalanced fee (List.flatten layers) →
        Total (checked (.prior layer txIndex o value) child.2 child.1 layers)
          (build (.prior layer txIndex o value) child.2 child.1 layers)
          fun r => AllBalanced fee r.flatten)
    (h : AllBalanced fee layers.flatten) :
    Total (buildChildren checked layer txIndex o children layers)
      (buildChildren build layer txIndex o children layers) fun r => AllBalanced fee r.flatten := by
  induction children generalizing o layers with
  | nil => exact .ok h
  | cons child children ih =>
    obtain ⟨⟨hmoney,hchild⟩,hrest⟩ := List.forall_mem_cons.mp hbuild
    obtain ⟨group,childValue⟩ := child
    refine (zat_total hmoney).bind fun value hvalue => ?_
    exact (hchild o value layers hvalue h).bind fun layers' h' => ih hrest h'

theorem buildSplit_total {fuel : Nat} {source : PrepInput} {sourceValue : Nat}
    {layer : Nat} {layers : Layers} (hsource : source.value.value = sourceValue)
    (hfuel : splitDepth targets.length < fuel) (hsome : targets ≠ []) (h : Affordable fee targets)
    (hcost : (subtreeCost targets fee).2 ≤ sourceValue) (hlayers : AllBalanced fee layers.flatten) :
    Total (Checked.buildSplit fee fuel source sourceValue targets layer layers)
      (buildSplit fee fuel source sourceValue targets layer layers)
      fun r => AllBalanced fee r.flatten := by
  induction fuel generalizing source sourceValue targets layer layers with
  | zero => omega
  | succ fuel ih =>
    obtain ⟨hchecked,hcosts,hone,htwo⟩ := subtreeCost_total hsome h
    have hmoney : sourceValue ≤ maxMoney := hsource ▸ source.value.le_maxMoney
    have hlimit := maxMoney_lt
    have hfee : fee ≤ fee * (subtreeCost targets fee).1 := Nat.le_mul_of_pos_right fee hone
    simp only [Checked.buildSplit,buildSplit]
    by_cases hleaf : splitDepth targets.length ≤ 1
    · rw [if_pos hleaf,if_pos hleaf]
      have htargets : ∀ v ∈ targets, v ≤ maxMoney := fun v hv => by
        have hle := mem_le_sum hv
        omega
      obtain ⟨outputs,houtputs,hvalues⟩ :=
        mapM_zat_total PrepOutput.funding (fun _ => rfl) htargets
      obtain ⟨leftover,hleftover,hvalue,hlength⟩ := leftoverOutput_total
        (by omega : sourceValue - fee - targets.sum ≤ maxMoney)
      rw [houtputs,ok_bind,ok_bind,sum_ok (by omega),ok_bind,sub_ok (by omega),ok_bind,
        sub_ok (by omega),ok_bind,wrapSub_leftover (by omega) (by omega),hleftover,ok_bind]
      refine .ok (flatten_push_balanced layer hlayers ⟨?_,?_⟩)
      · rw [List.map_append,List.sum_append,hvalues,hvalue]
        simp only [poolValue_cons,poolValue_nil,hsource]
        omega
      · have hcount := congrArg List.length hvalues
        have hcapacity := (le_capacity_splitDepth targets.length).trans
          (Nat.pow_le_pow_right (by decide : 0 < fundingOutputsPerTx) hleaf)
        rw [List.length_map] at hcount
        rw [Nat.pow_one] at hcapacity
        simp only [List.length_append,List.length_singleton,hcount]
        unfold fundingOutputsPerTx prepTxActions at *
        omega
    · have hdepth : 1 < splitDepth targets.length := by omega
      have hflatten := splitGroups_flatten hsome
      have hgroups : ∀ group ∈ splitGroups targets, group ≠ [] ∧ Affordable fee group ∧
          splitDepth group.length < fuel := fun group hgroup => by
        have hlt := splitGroups_depth hdepth hgroup
        have hbounds := mem_flatten_bounds hgroup
        rw [hflatten] at hbounds
        exact ⟨splitGroups_ne_nil hdepth hgroup,h.of_sublist hbounds.1 hbounds.2,by omega⟩
      have hchecks : (splitGroups targets).mapM
          (fun group => Prod.snd <$> Checked.subtreeCost group fee) =
          .ok ((splitGroups targets).map fun group => (subtreeCost group fee).2) :=
        mapM_pure fun group hgroup => by
          rw [(subtreeCost_total (hgroups group hgroup).1 (hgroups group hgroup).2.1).1]
          rfl
      have hsum := subtreeCost_children hdepth h
      have hcount : ((splitGroups targets).map fun group => (subtreeCost group fee).2).length ≤
          fundingOutputsPerTx := by
        rw [List.length_map,splitGroups_length hsome]
        exact (groupCount_bounds hdepth).2.1
      rw [if_neg hleaf,if_neg hleaf,hchecks,ok_bind]
      have hmem : ∀ group ∈ splitGroups targets, (subtreeCost group fee).2 ≤ maxMoney :=
        fun group hgroup => by
          have hle := mem_le_sum (List.mem_map_of_mem (f := fun group =>
            (subtreeCost group fee).2) hgroup)
          omega
      have hvalues : ∀ v ∈ (splitGroups targets).map fun group => (subtreeCost group fee).2,
          v ≤ maxMoney := fun v hv => by
        obtain ⟨group,hgroup,rfl⟩ := List.mem_map.mp hv
        exact hmem group hgroup
      have hchildren : ∀ child ∈ (splitGroups targets).zip
          ((splitGroups targets).map fun group => (subtreeCost group fee).2),
          child.1 ∈ splitGroups targets ∧ child.2 = (subtreeCost child.1 fee).2 :=
        fun child hchild => by
          rw [← List.map_prod_left_eq_zip] at hchild
          obtain ⟨group,hgroup,rfl⟩ := List.mem_map.mp hchild
          exact ⟨hgroup,rfl⟩
      generalize (splitGroups targets).map (fun group => (subtreeCost group fee).2) = childValues
        at hsum hcount hvalues hchildren ⊢
      obtain ⟨outputs,houtputs,hout⟩ :=
        mapM_zat_total PrepOutput.intermediate (fun _ => rfl) hvalues
      obtain ⟨leftover,hleftover,hvalue,hlength⟩ := leftoverOutput_total
        (by omega : sourceValue - fee - childValues.sum ≤ maxMoney)
      rw [houtputs,ok_bind,ok_bind,sum_ok (by omega),ok_bind,sub_ok (by omega),ok_bind,
        sub_ok (by omega),ok_bind,wrapSub_leftover (by omega) (by omega),hleftover,ok_bind,ok_bind]
      refine buildChildren_total (fun child hchild => ?_)
        (flatten_push_balanced layer hlayers ⟨?_,?_⟩)
      · obtain ⟨hgroup,hcost⟩ := hchildren child hchild
        obtain ⟨hne,hafford,hlt⟩ := hgroups child.1 hgroup
        refine ⟨hcost ▸ hmem child.1 hgroup,fun o value layers hv hb => ?_⟩
        exact ih hv hlt hne hafford hcost.ge hb
      · rw [List.map_append,List.sum_append,hout,hvalue]
        simp only [poolValue_cons,poolValue_nil,hsource]
        omega
      · have hcounts := congrArg List.length hout
        rw [List.length_map] at hcounts
        simp only [List.length_append,List.length_singleton,hcounts]
        unfold fundingOutputsPerTx prepTxActions at *
        omega

end CoppiceWallet.Planner
