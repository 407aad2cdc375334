import CoppiceWallet.Planner.Preparation

/-! # The shape and the cost of the balanced split -/

namespace CoppiceWallet.Planner

theorem subtreeCapacity_lt {a b : Nat} : subtreeCapacity a < subtreeCapacity b ↔ a < b :=
  Nat.pow_lt_pow_iff_right (by decide)

theorem splitDepthLoop_le {n d fuel depth : Nat} (hn : n ≤ subtreeCapacity d) (hd : depth ≤ d) :
    splitDepthLoop n fuel depth ≤ d := by
  induction fuel generalizing depth with
  | zero => exact hd
  | succ fuel ih =>
    simp only [splitDepthLoop]
    split
    · rename_i hlt
      exact ih (subtreeCapacity_lt.mp (hlt.trans_le hn))
    · exact hd

theorem splitDepth_le {n d : Nat} (hn : n ≤ subtreeCapacity d) (hd : 1 ≤ d) :
    splitDepth n ≤ d := by
  unfold splitDepth
  split
  · exact Nat.zero_le d
  · exact splitDepthLoop_le hn hd

theorem le_splitDepthLoop {n fuel depth : Nat} (h : n ≤ depth + fuel) :
    n ≤ subtreeCapacity (splitDepthLoop n fuel depth) := by
  induction fuel generalizing depth with
  | zero => exact h.trans (Nat.lt_pow_self (by decide)).le
  | succ fuel ih =>
    simp only [splitDepthLoop]
    split
    · exact ih (by omega)
    · omega

theorem le_capacity_splitDepth (n : Nat) : n ≤ subtreeCapacity (splitDepth n) := by
  unfold splitDepth
  split
  · omega
  · exact le_splitDepthLoop (by omega)

theorem sum_range_extra (n m b : Nat) (hm : m ≤ n) :
    ((List.range n).map fun i => b + if i < m then 1 else 0).sum = n * b + m := by
  induction n generalizing m with
  | zero => simp [Nat.le_zero.mp hm]
  | succ n ih =>
    rw [List.range_succ,List.map_append,List.sum_append]
    rcases Nat.lt_or_eq_of_le hm with hlt | rfl
    · have hnot : ¬n < m := by omega
      simp only [List.map_singleton,List.sum_singleton,if_neg hnot]
      rw [ih m (by omega),Nat.add_mul]
      omega
    · have hall : ((List.range n).map fun i => b + if i < n + 1 then 1 else 0) =
          (List.range n).map fun i => b + if i < n then 1 else 0 := by
        refine List.map_congr_left fun i hi => ?_
        have hi := List.mem_range.mp hi
        rw [if_pos hi,if_pos (by omega)]
      simp only [List.map_singleton,List.sum_singleton,if_pos (Nat.lt_succ_self n)]
      rw [hall,ih n le_rfl,Nat.add_mul]
      omega

theorem evenGroupSizes_sum {len g : Nat} (hg : 0 < g) : (evenGroupSizes len g).sum = len := by
  rw [evenGroupSizes,sum_range_extra g (len % g) (len / g) (Nat.mod_lt len hg).le]
  exact Nat.div_add_mod len g

theorem slices_flatten (sizes targets : List Nat) (h : targets.length ≤ sizes.sum) :
    (slices sizes targets).flatten = targets := by
  induction sizes generalizing targets with
  | nil =>
    have hnil : targets = [] := List.eq_nil_of_length_eq_zero (by simpa using h)
    rw [hnil]
    rfl
  | cons size sizes ih =>
    have hrest : (targets.drop size).length ≤ sizes.sum := by
      rw [List.length_drop]
      simp only [List.sum_cons] at h
      omega
    rw [slices,List.flatten_cons,ih _ hrest,List.take_append_drop]

theorem divCeil_pos {a b : Nat} (ha : 0 < a) (hb : 0 < b) : 0 < divCeil a b :=
  Nat.div_pos (by omega) hb

theorem subtreeCapacity_pos (depth : Nat) : 0 < subtreeCapacity depth :=
  Nat.pow_pos (by decide)

variable {targets : List Nat}

theorem splitGroups_flatten (h : targets ≠ []) : (splitGroups targets).flatten = targets := by
  have hlen : 0 < targets.length := List.length_pos_iff.mpr h
  exact slices_flatten _ _
    (evenGroupSizes_sum (divCeil_pos hlen (subtreeCapacity_pos _))).ge


theorem mem_evenGroupSizes_le {len g cap size : Nat} (hcap : len ≤ g * cap)
    (h : size ∈ evenGroupSizes len g) : size ≤ cap := by
  obtain ⟨i,hi,rfl⟩ := List.mem_map.mp h
  have hi := List.mem_range.mp hi
  have hdiv := Nat.div_add_mod len g
  have hle : len / g ≤ cap := Nat.div_le_of_le_mul hcap
  by_cases hextra : i < len % g
  · rw [if_pos hextra]
    -- A group with an extra target leaves room below the capacity.
    rcases Nat.lt_or_eq_of_le hle with hlt | heq
    · exact hlt
    · rw [heq] at hdiv
      omega
  · rwa [if_neg hextra]

theorem mem_slices {sizes group : List Nat} (h : group ∈ slices sizes targets) :
    ∃ size ∈ sizes, group.length ≤ size := by
  induction sizes generalizing targets with
  | nil => cases h
  | cons size sizes ih =>
    rcases List.mem_cons.mp h with rfl | h
    · exact ⟨size,List.mem_cons_self ..,List.length_take_le ..⟩
    · obtain ⟨s,hs,hle⟩ := ih h
      exact ⟨s,List.mem_cons_of_mem _ hs,hle⟩

theorem le_divCeil_mul (a : Nat) {b : Nat} (hb : 0 < b) : a ≤ divCeil a b * b := by
  have h := Nat.div_add_mod (a + b - 1) b
  have hlt := Nat.mod_lt (a + b - 1) hb
  rw [Nat.mul_comm] at h
  unfold divCeil
  omega

theorem splitGroups_depth {group : List Nat} (hdepth : 1 < splitDepth targets.length)
    (h : group ∈ splitGroups targets) : splitDepth group.length < splitDepth targets.length := by
  obtain ⟨size,hsize,hle⟩ := mem_slices h
  have hcap := mem_evenGroupSizes_le (le_divCeil_mul _ (subtreeCapacity_pos _)) hsize
  have := splitDepth_le (hle.trans hcap) (by omega)
  omega

variable {fee : Nat}

theorem subtreeCostLoop_leaf (fuel : Nat) (h : splitDepth targets.length ≤ 1) :
    subtreeCostLoop fee fuel targets = (1,wrap (targets.sum + fee)) := by
  cases fuel with
  | zero => rfl
  | succ fuel => rw [subtreeCostLoop,if_pos h]

theorem subtreeCostLoop_fuel {fuel : Nat} (fuel' : Nat) (h : splitDepth targets.length ≤ fuel + 1)
    (h' : splitDepth targets.length ≤ fuel' + 1) :
    subtreeCostLoop fee fuel targets = subtreeCostLoop fee fuel' targets := by
  induction fuel generalizing fuel' targets with
  | zero => rw [subtreeCostLoop_leaf 0 h,subtreeCostLoop_leaf fuel' h]
  | succ fuel ih =>
    by_cases hdepth : splitDepth targets.length ≤ 1
    · rw [subtreeCostLoop_leaf _ hdepth,subtreeCostLoop_leaf _ hdepth]
    · cases fuel' with
      | zero => exact absurd h' hdepth
      | succ fuel' =>
        rw [subtreeCostLoop,subtreeCostLoop,if_neg hdepth,if_neg hdepth]
        refine List.foldl_ext _ _ _ fun total group hgroup => ?_
        have hlt := splitGroups_depth (by omega) hgroup
        rw [ih fuel' (by omega : splitDepth group.length ≤ fuel + 1) (by omega)]

theorem subtreeCost_leaf (h : splitDepth targets.length ≤ 1) :
    subtreeCost targets fee = (1,wrap (targets.sum + fee)) :=
  subtreeCostLoop_leaf _ h

/-- The cost of a split above a leaf: its own fee and transaction, and the costs of its groups. -/
theorem subtreeCost_node (h : 1 < splitDepth targets.length) :
    subtreeCost targets fee = (splitGroups targets).foldl (fun (txs, value) group =>
      (wrap (txs + (subtreeCost group fee).1),wrap (value + (subtreeCost group fee).2)))
      (1,fee) := by
  obtain ⟨fuel,hfuel⟩ : ∃ fuel, splitDepth targets.length = fuel + 1 := 
    ⟨splitDepth targets.length - 1,by omega⟩
  rw [subtreeCost,hfuel,subtreeCostLoop,if_neg (by omega)]
  refine List.foldl_ext _ _ _ fun total group hgroup => ?_
  have hlt := splitGroups_depth h hgroup
  rw [subtreeCost,subtreeCostLoop_fuel (splitDepth group.length) (by omega) (by omega)]

theorem foldl_cost_mod {cost : List Nat → Nat × Nat} {groups : List (List Nat)} {txs value : Nat} :
    (groups.foldl (fun (txs, value) group =>
      (wrap (txs + (cost group).1),wrap (value + (cost group).2))) (txs,value)).2 % u64Limit =
      (value + (groups.map fun group => (cost group).2).sum) % u64Limit := by
  induction groups generalizing txs value with
  | nil => rfl
  | cons group groups ih =>
    rw [List.foldl_cons,ih,List.map_cons,List.sum_cons,wrap,Nat.mod_add_mod,Nat.add_assoc]

theorem wrapSub_cost {cost total : Nat} (h : cost % u64Limit = (fee + total) % u64Limit) :
    wrapSub (wrapSub cost fee) (wrap total) = 0 := by
  unfold wrapSub wrap u64Limit at *
  omega

theorem subtreeCost_leaf_exact (h : splitDepth targets.length ≤ 1) :
    wrapSub (wrapSub (subtreeCost targets fee).2 fee) (wrap targets.sum) = 0 := by
  refine wrapSub_cost ?_
  rw [subtreeCost_leaf h,wrap,Nat.mod_mod,Nat.add_comm]

theorem subtreeCost_node_exact (h : 1 < splitDepth targets.length) :
    wrapSub (wrapSub (subtreeCost targets fee).2 fee)
      (wrap ((splitGroups targets).map fun group => (subtreeCost group fee).2).sum) = 0 := by
  refine wrapSub_cost ?_
  rw [subtreeCost_node h,foldl_cost_mod]

end CoppiceWallet.Planner
