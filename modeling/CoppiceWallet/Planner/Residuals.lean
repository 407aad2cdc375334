import CoppiceWallet.Planner.FundingNotes
import Mathlib.Algebra.Order.BigOperators.Group.List

/-! # The residual notes of a plan -/

namespace CoppiceWallet.Planner

open CoppiceWallet.Lib

theorem relabelTransaction_residuals {spent : List Coordinate} {l t : Nat} {tx : PrepTransaction}
    (h : tx.residuals = []) : (relabelTransaction spent l t tx).residuals =
      ((feedersOf l t tx).filter (fun input => !input.spentIn spent)).map PrepInput.value := by
  unfold PrepTransaction.residuals relabelTransaction feedersOf
  rw [List.filterMap_map,List.filter_filterMap,List.map_filterMap]
  refine List.filterMap_congr fun entry hentry => ?_
  obtain ⟨output,o⟩ := entry
  have hnone : output.residualNote = none := List.filterMap_eq_nil_iff.mp h output
    (List.mem_of_getElem? (List.mem_zipIdx_iff_getElem?.mp hentry))
  cases output with
  | funding value => rfl
  | change value => cases hnone
  | intermediate value =>
    by_cases hs : (l,t,o) ∈ spent <;>
      simp [relabelOutput,hs,PrepOutput.residualNote,PrepInput.spentIn,PrepInput.priorCoordinate,
        PrepInput.value]

variable {direct : List (Nat × Zatoshis)}

theorem residualNotes_relabelUnspent {layers : Layers}
    (h : ∀ tx ∈ layers.flatten, tx.residuals = []) :
    PreparationPlan.residualNotes ⟨relabelUnspent layers,direct⟩ =
      (unconsumedFeeders layers).map PrepInput.value := by
  have hcell : (relabelUnspent layers).flatten.map PrepTransaction.residuals =
      (layers.mapIdx feedersOf).flatten.map fun refs =>
        (refs.filter fun input => !input.spentIn (spentCoordinates layers)).map PrepInput.value :=
    Grid.map_flatten_mapIdx_congr fun _ _ tx htx => relabelTransaction_residuals (h tx htx)
  rw [PreparationPlan.residualNotes,PreparationPlan.allOutputs,List.filterMap_flatMap,
    unconsumedFeeders,intermediateRefs,List.filter_flatten,List.map_flatten,List.map_map]
  exact congrArg List.flatten hcell

variable {sort : NoteSort} {fee layer : Nat}

theorem consolidationBatchSizes_sum {fuel n : Nat} (h : n ≤ fuel) :
    (consolidationBatchSizes fuel n).sum = n := by
  induction fuel generalizing n with
  | zero => simp [Nat.le_zero.mp h,consolidationBatchSizes]
  | succ fuel ih =>
    cases n with
    | zero => rfl
    | succ n =>
      simp only [consolidationBatchSizes,List.sum_cons]
      generalize htake : (if n + 1 ≤ consolidationInputsPerTx then n + 1
        else if n + 1 - consolidationInputsPerTx = 1 then consolidationInputsPerTx - 1
        else consolidationInputsPerTx) = take
      have hbounds : 1 ≤ take ∧ take ≤ n + 1 := by
        unfold consolidationInputsPerTx prepTxActions at htake
        split at htake
        · omega
        · split at htake <;> omega
      rw [ih (by omega)]
      omega

theorem value_le_sum {notes : List PrepInput} {note : PrepInput} (h : note ∈ notes) :
    note.value.value ≤ (notes.map (·.value.value)).sum :=
  List.single_le_sum (fun _ _ => Nat.zero_le _) _ (List.mem_map_of_mem h)

variable {result : Consolidation} {leftover : List PrepInput} {txs : List PrepTransaction}

/-- The transactions only grow, and when a batch makes none its notes are worth at most the fee. -/
theorem consolidateBatches_idle {sizes : List Nat} {pool : List PrepInput}
    {next : List PrepInput} (hsizes : pool.length ≤ sizes.sum)
    (hrun : consolidateBatches layer fee sizes pool txs next leftover = .ok result) :
    txs.length ≤ result.txs.length ∧
      (result.txs.length = txs.length → ∀ note ∈ pool, note.value.value ≤ fee) := by
  induction sizes generalizing pool txs next leftover with
  | nil =>
    cases hrun
    have hpool : pool = [] := List.eq_nil_of_length_eq_zero (by simpa using hsizes)
    exact ⟨le_rfl,fun _ => by simp [hpool]⟩
  | cons size sizes ih =>
    have hdrop : (pool.drop size).length ≤ sizes.sum := by
      rw [List.length_drop]
      simp only [List.sum_cons] at hsizes
      omega
    simp only [consolidateBatches] at hrun
    split at hrun
    · rename_i hsum
      have ih := ih hdrop hrun
      refine ⟨ih.1,fun hidle note hnote => ?_⟩
      rw [← List.take_append_drop size pool] at hnote
      rcases List.mem_append.mp hnote with hnote | hnote
      · exact (value_le_sum hnote).trans hsum
      · exact ih.2 hidle note hnote
    · obtain ⟨feeder,_,hrun⟩ := bind_ok hrun
      have hgrown := (ih hdrop hrun).1
      rw [List.length_append,List.length_singleton] at hgrown
      exact ⟨by omega,fun hidle => by omega⟩

theorem consolidate_idle {pool next : List PrepInput} (hpool : 2 ≤ pool.length)
    (hrun : consolidate sort pool layer fee [] [] = .ok ⟨[],next,leftover⟩) :
    ∀ note ∈ pool, note.value.value ≤ fee := by
  unfold consolidate at hrun
  rw [if_neg (by omega)] at hrun
  have hlength := (sort.perm pool).length_eq
  have hidle := (consolidateBatches_idle
    (by rw [consolidationBatchSizes_sum le_rfl,hlength]) hrun).2 rfl
  exact fun note hnote => hidle note ((sort.perm pool).mem_iff.mpr hnote)

theorem residualLoop_exit {fuel : Nat} {layers result : Layers}
    (hrun : residualLoop sort fee fuel layers = .ok result) :
    (unconsumedFeeders result).length ≤ 1 ∨
      ∀ note ∈ unconsumedFeeders result, note.value.value ≤ fee := by
  induction fuel generalizing layers with
  | zero => cases hrun
  | succ fuel ih =>
    simp only [residualLoop] at hrun
    split at hrun
    · cases hrun
      exact .inl ‹_›
    · rename_i hpool
      obtain ⟨⟨txs,next,leftover⟩,hc,hrun⟩ := bind_ok hrun
      simp only at hrun
      split at hrun
      · rename_i hidle
        cases hrun
        cases hidle
        exact .inr (consolidate_idle (by omega) hc)
      · exact ih hrun

/-- Every feeder that no transaction spends is in the pool. -/
def Covers (layers : Layers) (pool : List PrepInput) : Prop :=
  ∀ l t tx o v, layers.cell l t = some tx → tx.outputs[o]? = some (.intermediate v) →
    (∀ w, .prior l t o w ∉ consumed layers) → .prior l t o v ∈ pool

variable {layers : Layers} {pool : List PrepInput}

theorem Covers.nil (pool : List PrepInput) : Covers [] pool := fun l t tx o v h => by
  simp [Grid.cell] at h

theorem Covers.unconsumed (h : Covers layers pool) {input : PrepInput}
    (hi : input ∈ unconsumedFeeders layers) : input ∈ pool := by
  obtain ⟨href,hspent⟩ := List.mem_filter.mp hi
  obtain ⟨l,t,tx,hcell,hf⟩ := mem_intermediateRefs.mp href
  obtain ⟨o,v,ho,rfl⟩ := mem_feedersOf.mp hf
  refine h l t tx o v hcell ho fun w hw => ?_
  have hmem : (l,t,o) ∈ spentCoordinates layers := mem_spentCoordinates.mpr ⟨w,hw⟩
  simp [PrepInput.spentIn,PrepInput.priorCoordinate,hmem] at hspent

theorem Covers.mono {pool' : List PrepInput} (h : Covers layers pool) (hsub : pool ⊆ pool') :
    Covers layers pool' :=
  fun l t tx o v hcell ho hfree => hsub (h l t tx o v hcell ho hfree)

theorem Covers.congr {layers' : Layers} (h : Covers layers pool)
    (hcell : ∀ l t, layers'.cell l t = layers.cell l t)
    (hflat : layers'.flatten = layers.flatten) : Covers layers' pool := by
  intro l t tx o v htx ho hfree
  rw [hcell] at htx
  rw [consumed,hflat] at hfree
  exact h l t tx o v htx ho hfree

theorem Covers.pad (h : Covers layers pool) (i : Nat) : Covers (layers.pad i) pool :=
  h.congr (fun l t => Grid.cell_pad layers i l t) (Grid.flatten_pad layers i)

theorem Covers.openLayer (h : Covers layers pool) : Covers (layers ++ [[]]) pool :=
  h.congr (fun l t => Grid.cell_append_nil layers l t) (by simp)

theorem Covers.push (l : Nat) (tx : PrepTransaction) (rest : List PrepInput)
    (h : Covers layers pool) (hsub : pool ⊆ tx.inputs ++ rest) :
    Covers (layers.push l tx) (rest ++ feedersOf l (layers.rowLength l) tx) := by
  intro k t tx' o v hcell ho hfree
  have hconsumed := consumed_push_perm layers l tx
  rw [Grid.cell_push] at hcell
  split at hcell
  · rename_i hkt
    cases hcell
    obtain ⟨rfl,rfl⟩ := hkt
    exact List.mem_append_right _ (mem_feedersOf.mpr ⟨o,v,ho,rfl⟩)
  · have hold := h k t tx' o v hcell ho fun w hw =>
      hfree w (hconsumed.mem_iff.mpr (List.mem_append_right _ hw))
    rcases List.mem_append.mp (hsub hold) with hin | hrest
    · exact absurd (hconsumed.mem_iff.mpr (List.mem_append_left _ hin)) (hfree v)
    · exact List.mem_append_left _ hrest

theorem Covers.pushLast (tx : PrepTransaction) (rest : List PrepInput)
    (h : Covers (layers ++ [txs]) pool) (hsub : pool ⊆ tx.inputs ++ rest) :
    Covers (layers ++ [txs ++ [tx]]) (rest ++ feedersOf layers.length txs.length tx) := by
  have hpush := h.push layers.length tx rest hsub
  rwa [Grid.push_last,Grid.rowLength_append_last] at hpush

theorem consolidateBatches_covers {sizes : List Nat} {next : List PrepInput}
    (hsizes : pool.length ≤ sizes.sum) (h : Covers (layers ++ [txs]) (pool ++ (next ++ leftover)))
    (hrun : consolidateBatches layers.length fee sizes pool txs next leftover = .ok result) :
    Covers (layers ++ [result.txs]) (result.next ++ result.leftover) := by
  induction sizes generalizing pool txs next leftover with
  | nil =>
    cases hrun
    have hpool : pool = [] := List.eq_nil_of_length_eq_zero (by simpa using hsizes)
    rwa [hpool,List.nil_append] at h
  | cons size sizes ih =>
    have hdrop : (pool.drop size).length ≤ sizes.sum := by
      rw [List.length_drop]
      simp only [List.sum_cons] at hsizes
      omega
    rw [← List.take_append_drop size pool,List.append_assoc] at h
    simp only [consolidateBatches] at hrun
    split at hrun
    · refine ih hdrop (h.mono fun input hi => ?_) hrun
      simp only [List.mem_append] at hi ⊢
      tauto
    · obtain ⟨feeder,_,hrun⟩ := bind_ok hrun
      have hpush := h.pushLast ⟨pool.take size,[.intermediate feeder]⟩ _ (List.Subset.refl _)
      refine ih hdrop (hpush.mono fun input hi => ?_) hrun
      simp only [feedersOf_single,List.mem_append] at hi ⊢
      tauto

theorem consolidate_covers (h : Covers layers pool)
    (hrun : consolidate sort pool layers.length fee [] [] = .ok result) :
    Covers (layers ++ [result.txs]) (result.next ++ result.leftover) := by
  unfold consolidate at hrun
  split at hrun
  · cases hrun
    exact h.openLayer
  · have hperm := sort.perm pool
    refine consolidateBatches_covers ?_ (h.openLayer.mono fun input hi => ?_) hrun
    · rw [consolidationBatchSizes_sum le_rfl,hperm.length_eq]
    · exact List.mem_append_left _ (hperm.mem_iff.mpr hi)

theorem mergeLoop_covers {fuel : Nat} {current : List PrepInput}
    {result : List PrepInput × Layers} (h : Covers layers current)
    (hrun : mergeLoop sort fee fuel current layers = .ok result) :
    Covers result.2 result.1 ∧ result.1.length ≤ 1 :=
  mergeLoop_rule consolidate_covers h hrun

theorem outputRefs_append (l t o : Nat) (amounts extra : List Zatoshis) :
    outputRefs l t o (amounts ++ extra) =
      outputRefs l t o amounts ++ outputRefs l t (o + amounts.length) extra := by
  rw [outputRefs,List.zipIdx_append,List.map_append]
  rfl

theorem outputRefs_length (l t o : Nat) (amounts : List Zatoshis) :
    (outputRefs l t o amounts).length = amounts.length := by
  simp [outputRefs]

theorem feedersOf_subset (l t : Nat) (inputs : List PrepInput) (fundings amounts : List Zatoshis) :
    feedersOf l t ⟨inputs,fundings.map PrepOutput.funding ++ amounts.map PrepOutput.intermediate⟩ ⊆
      outputRefs l t fundings.length amounts := by
  intro input hi
  obtain ⟨o,v,ho,rfl⟩ := mem_feedersOf.mp hi
  rw [List.getElem?_append,List.length_map] at ho
  by_cases hlt : o < fundings.length
  · rw [if_pos hlt,List.getElem?_map] at ho
    obtain ⟨_,_,h⟩ := Option.map_eq_some_iff.mp ho
    cases h
  · rw [if_neg hlt,List.getElem?_map] at ho
    obtain ⟨w,hw,h⟩ := Option.map_eq_some_iff.mp ho
    cases h
    refine List.mem_map.mpr ⟨(v,o),?_,rfl⟩
    exact List.mem_zipIdx_iff_le_and_getElem?_sub.mpr ⟨not_lt.mp hlt,hw⟩

theorem buildChildren_covers (fee : Nat) {build : PrepInput → Nat → List Nat → Layers → PrepResult Layers}
    (hbuild : ∀ {child value group layers result pool}, Covers layers (child :: pool) →
      value = (subtreeCost group fee).2 → build child value group layers = .ok result →
        Covers result pool)
    {children : List (List Nat × Nat)} (amounts : List Zatoshis) {t o : Nat} {result : Layers}
    (hcosts : ∀ child ∈ children, child.2 = (subtreeCost child.1 fee).2)
    (hamounts : amounts.map Zatoshis.value = children.map Prod.snd)
    (h : Covers layers (outputRefs layer t o amounts ++ pool))
    (hrun : buildChildren build layer t o children layers = .ok result) : Covers result pool := by
  induction children generalizing amounts o layers with
  | nil =>
    cases hrun
    rw [List.map_eq_nil_iff.mp hamounts] at h
    exact h
  | cons child children ih =>
    obtain ⟨group,childValue⟩ := child
    obtain ⟨hcost,hcosts⟩ := List.forall_mem_cons.mp hcosts
    obtain ⟨value,hvalue,hrun⟩ := bind_ok hrun
    obtain ⟨layers',hchild,hrest⟩ := bind_ok hrun
    obtain ⟨amount,amounts,rfl,hamount,hamounts⟩ := List.map_eq_cons_iff.mp hamounts
    rw [← Zatoshis.ext (hamount.trans (zat_ok hvalue).symm)] at hchild
    exact ih amounts hcosts hamounts (hbuild h hcost hchild) hrest

theorem leftover_length {amounts : List Zatoshis} {leftover : Nat}
    (h : amounts.map Zatoshis.value = if 0 < leftover then [leftover] else []) :
    amounts.length ≤ 1 := by
  have hlength := congrArg List.length h
  rw [List.length_map] at hlength
  split at hlength
  · exact hlength.le
  · exact hlength.le.trans (Nat.zero_le 1)

theorem buildSplit_covers {fuel : Nat} {source : PrepInput} {sourceValue : Nat}
    {targets : List Nat} {result : Layers} (h : Covers layers (source :: pool))
    (hrun : buildSplit fee fuel source sourceValue targets layer layers = .ok result) :
    ∃ extra, Covers result (pool ++ extra) ∧ extra.length ≤ 1 ∧
      (sourceValue = (subtreeCost targets fee).2 → extra = []) := by
  induction fuel generalizing source sourceValue targets layer layers result pool with
  | zero => cases hrun
  | succ fuel ih =>
    have hpush (fundings amounts : List Zatoshis) := ((h.pad layer).push layer
      ⟨[source],fundings.map PrepOutput.funding ++ amounts.map PrepOutput.intermediate⟩
      pool (List.Subset.refl _)).mono
        (List.append_subset.mpr ⟨List.subset_append_left _ _,fun _ hi =>
          List.mem_append_right _ (feedersOf_subset _ _ _ _ _ hi)⟩)
    simp only [buildSplit] at hrun
    split at hrun
    · rename_i hdepth
      obtain ⟨outputs,houtputs,hrun⟩ := bind_ok hrun
      obtain ⟨leftover,hleftover,hrun⟩ := bind_ok hrun
      cases hrun
      obtain ⟨amounts,rfl,_⟩ := mapM_zat houtputs
      obtain ⟨extra,rfl,hextra⟩ := leftoverOutput_ok hleftover
      refine ⟨_,hpush amounts extra,?_,?_⟩
      · rw [outputRefs_length]
        exact leftover_length hextra
      · rintro rfl
        rw [subtreeCost_leaf_exact hdepth] at hextra
        simp only [lt_irrefl,if_false,List.map_eq_nil_iff] at hextra
        rw [hextra]
        rfl
    · rename_i hdepth
      obtain ⟨outputs,houtputs,hrun⟩ := bind_ok hrun
      obtain ⟨leftover,hleftover,hrun⟩ := bind_ok hrun
      obtain ⟨amounts,rfl,hamounts⟩ := mapM_zat houtputs
      obtain ⟨extra,rfl,hextra⟩ := leftoverOutput_ok hleftover
      have hnode := hpush [] (amounts ++ extra)
      rw [List.map_nil,List.nil_append,List.map_append,outputRefs_append] at hnode
      generalize hrefs : outputRefs layer ((layers.pad layer).rowLength layer)
        (([] : List Zatoshis).length + amounts.length) extra = refs at hnode
      have hlength : refs.length = extra.length := hrefs ▸ outputRefs_length _ _ _ _
      have hpool : Covers _ (outputRefs layer ((layers.pad layer).rowLength layer) 0 amounts ++
          (pool ++ refs)) := hnode.mono fun input hi => by
        simp only [List.mem_append,List.length_nil] at hi ⊢
        tauto
      refine ⟨refs,buildChildren_covers fee ?_ amounts ?_ ?_ hpool hrun,?_,?_⟩
      · intro child value group layers result pool hc hcost hr
        obtain ⟨rest,hcovers,_,hexact⟩ := ih hc hr
        rwa [hexact hcost,List.append_nil] at hcovers
      · intro child hchild
        rw [← List.map_prod_left_eq_zip] at hchild
        obtain ⟨group,_,rfl⟩ := List.mem_map.mp hchild
        rfl
      · rw [hamounts,List.map_snd_zip (by simp)]
      · rw [hlength]
        exact leftover_length hextra
      · rintro rfl
        rw [subtreeCost_node_exact (by omega)] at hextra
        simp only [lt_irrefl,if_false,List.map_eq_nil_iff] at hextra
        exact List.eq_nil_of_length_eq_zero (by rw [hlength,hextra]; rfl)

private theorem residualNotes_of_mints {values : List Nat} (h : Mints layers.flatten values) :
    PreparationPlan.residualNotes ⟨relabelUnspent layers,direct⟩ =
      (unconsumedFeeders layers).map PrepInput.value :=
  residualNotes_relabelUnspent h.residuals

private theorem filter_length_le {notes : List PrepInput} (h : notes.length ≤ 1 ∨
    ∀ note ∈ notes, note.value.value ≤ fee) :
    ((notes.map PrepInput.value).filter fun v => decide (fee < v.value)).length ≤ 1 := by
  rcases h with h | h
  · exact (List.length_filter_le _ _).trans (by rwa [List.length_map])
  · have hnone : (notes.map PrepInput.value).filter (fun v => decide (fee < v.value)) = [] := by
      rw [List.filter_eq_nil_iff]
      intro v hv
      obtain ⟨note,hnote,rfl⟩ := List.mem_map.mp hv
      simpa using h note hnote
    rw [hnone]
    exact Nat.zero_le 1

theorem splitLargest_mints {values : List Nat} {used : List Bool} {remaining remaining' : List Nat}
    {layers : Layers}
    (h : splitLargest fee values used remaining = .ok (remaining',layers)) :
    ∃ placed, Mints layers.flatten placed ∧ (placed ++ remaining').Perm remaining := by
  unfold splitLargest at h
  split at h
  · split at h
    · obtain ⟨value,_,h⟩ := bind_ok h
      obtain ⟨built,hbuilt,h⟩ := bind_ok h
      cases h
      have hmints := buildSplit_mints Mints.start hbuilt
      rw [List.append_nil] at hmints
      exact ⟨remaining,hmints,by simp⟩
    · cases h
      exact ⟨[],Mints.start,.refl _⟩
  · cases h
    exact ⟨[],Mints.start,.refl _⟩

/-- What both planners establish of their plans. -/
structure Delivers (plan : PreparationPlan) (funding : List Zatoshis) (fee : Nat) : Prop where
  funding : (plan.fundingNotes.map Zatoshis.value).Perm (positiveTargets funding)
  residuals : (plan.residualNotes.filter fun v => decide (fee < v.value)).length ≤ 1

variable {funding : List Zatoshis}

theorem delivers_of_mints {values kept : List Nat} {used used' : List Bool}
    (hdirect : extractDirectFunding values (positiveTargets funding) used =
      .ok (used',direct,kept))
    (h : Mints layers.flatten kept)
    (hrest : (unconsumedFeeders layers).length ≤ 1 ∨
      ∀ note ∈ unconsumedFeeders layers, note.value.value ≤ fee) :
    Delivers ⟨relabelUnspent layers,direct⟩ funding fee := by
  constructor
  · have hminted := h.minted
    rw [← relabelUnspent_minted] at hminted
    rw [PreparationPlan.fundingNotes,PreparationPlan.allOutputs,List.map_append,
      List.filterMap_flatMap,List.map_flatMap]
    refine (hminted.append_right _).trans (List.perm_append_comm.trans ?_)
    rw [List.map_map]
    exact extractDirectFunding_perm hdirect
  · rw [residualNotes_of_mints h]
    exact filter_length_le hrest

variable {available : List Zatoshis} {feePerTx : Zatoshis}

theorem planPreparationGreedy_delivers {plan : PreparationPlan}
    (h : planPreparationGreedy sort available funding feePerTx = .ok plan) :
    Delivers plan funding feePerTx.value := by
  unfold planPreparationGreedy at h
  split at h
  · cases h
  obtain ⟨⟨used,direct,remaining⟩,hdirect,h⟩ := bind_ok h
  simp only at h
  split at h
  · rename_i hremaining
    cases h
    subst hremaining
    exact delivers_of_mints hdirect Mints.start (.inl (by decide))
  · obtain ⟨⟨remaining',layers⟩,hsplit,h⟩ := bind_ok h
    obtain ⟨greedy,hgreedy,h⟩ := bind_ok h
    obtain ⟨residual,hresidual,h⟩ := bind_ok h
    cases h
    obtain ⟨placed,hplaced,hperm⟩ := splitLargest_mints hsplit
    have hmints := residualLoop_mints (greedyLoop_mints hplaced hgreedy) hresidual
    exact delivers_of_mints hdirect (hmints.perm (.refl _) hperm) (residualLoop_exit hresidual)

theorem planPreparationViaConsolidation_delivers {plan : PreparationPlan}
    (h : planPreparationViaConsolidation sort available funding feePerTx = .ok plan) :
    Delivers plan funding feePerTx.value := by
  unfold planPreparationViaConsolidation at h
  split at h
  · cases h
  obtain ⟨⟨used,direct,targets⟩,hdirect,h⟩ := bind_ok h
  simp only at h
  split at h
  · rename_i htargets
    cases h
    subst htargets
    exact delivers_of_mints hdirect Mints.start (.inl (by decide))
  split at h
  · cases h
  obtain ⟨⟨current,layers⟩,hmerge,h⟩ := bind_ok h
  simp only at h
  split at h
  · cases h
  · rename_i source hlast
    split at h
    · cases h
    obtain ⟨built,hbuilt,h⟩ := bind_ok h
    cases h
    obtain ⟨hcovers,hone⟩ := mergeLoop_covers (Covers.nil _) hmerge
    have hcurrent : current = [source] := by
      cases current with
      | nil => cases hlast
      | cons first rest =>
        have hnil : rest = [] := List.eq_nil_of_length_eq_zero (by simpa using hone)
        subst hnil
        cases hlast
        rfl
    rw [hcurrent] at hcovers
    obtain ⟨extra,hextra,hlength,_⟩ := buildSplit_covers hcovers hbuilt
    have hmints := buildSplit_mints (mergeLoop_mints Mints.start hmerge) hbuilt
    rw [List.append_nil] at hmints
    have hunspent : unconsumedFeeders built ⊆ extra := fun input hi => hextra.unconsumed hi
    have hnodup : (unconsumedFeeders built).Nodup := (intermediateRefs_nodup built).filter _
    have hcount := (List.subperm_of_subset hnodup hunspent).length_le
    exact delivers_of_mints hdirect hmints (.inl (hcount.trans hlength))

theorem planPreparation_delivers {plan : PreparationPlan}
    (h : planPreparation sort available funding feePerTx = .ok plan) :
    Delivers plan funding feePerTx.value := by
  unfold planPreparation at h
  split at h
  · exact planPreparationViaConsolidation_delivers h
  · exact planPreparationGreedy_delivers h

/-- A plan mints exactly the positive funding values, and at most one of the notes it leaves in
the source pool is worth more than the fee of a transaction. -/
theorem planPreparation_residual {sort : NoteSort} {available funding : List Zatoshis}
    {feePerTx : Zatoshis} {plan : PreparationPlan}
    (h : planPreparation sort available funding feePerTx = .ok plan) :
    plan.fundingNotes.Perm (funding.filter fun v => decide (0 < v.value)) ∧
      (plan.residualNotes.filter fun v => decide (feePerTx.value < v.value)).length ≤ 1 := by
  obtain ⟨hfunding,hresiduals⟩ := planPreparation_delivers h
  have hinjective : Function.Injective Zatoshis.value := fun _ _ => Zatoshis.ext
  have hpositive : (positiveTargets funding).Perm
      ((funding.filter fun v => decide (0 < v.value)).map Zatoshis.value) := by
    refine (List.perm_insertionSort _ _).trans ?_
    rw [List.filter_map]
    exact .refl _
  exact ⟨(List.map_perm_map_iff hinjective).mp (hfunding.trans hpositive),hresiduals⟩

/-- Two notes of 100 are merged for the funding note of 150; 30 is left. -/
def mergedPlan : PreparationPlan where
  layers := [
    [⟨[.wallet 1 ⟨100,by decide⟩,.wallet 2 ⟨100,by decide⟩],[.intermediate ⟨190,by decide⟩]⟩],
    [⟨[.prior 0 0 0 ⟨190,by decide⟩],[.funding ⟨150,by decide⟩,.change ⟨30,by decide⟩]⟩]]
  directFunding := [(0,⟨100,by decide⟩)]

theorem mergedPlan_residual :
    mergedPlan.fundingNotes.Perm
      ([⟨100,by decide⟩,⟨150,by decide⟩] : List Zatoshis) ∧
      (mergedPlan.residualNotes.filter fun v => decide (10 < v.value)).length ≤ 1 :=
  have hplan : planPreparation insertionNoteSort
      [⟨100,by decide⟩,⟨100,by decide⟩,⟨100,by decide⟩] [⟨100,by decide⟩,⟨150,by decide⟩]
      ⟨10,by decide⟩ = .ok mergedPlan := by decide +kernel
  planPreparation_residual hplan

end CoppiceWallet.Planner
