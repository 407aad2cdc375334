import CoppiceWallet.Planner.PreparationSound
import CoppiceWallet.Planner.SplitTree

/-! # The funding notes of a plan -/

namespace CoppiceWallet.Planner

open CoppiceWallet.Lib

def PrepOutput.fundingNote : PrepOutput → Option Zatoshis
  | .funding value => some value
  | _ => none

def PrepOutput.residualNote : PrepOutput → Option Zatoshis
  | .change value => some value
  | _ => none

def PreparationPlan.allOutputs (plan : PreparationPlan) : List PrepOutput :=
  plan.layers.flatten.flatMap PrepTransaction.outputs

def PreparationPlan.fundingNotes (plan : PreparationPlan) : List Zatoshis :=
  plan.allOutputs.filterMap PrepOutput.fundingNote ++ plan.directFunding.map Prod.snd

def PreparationPlan.residualNotes (plan : PreparationPlan) : List Zatoshis :=
  plan.allOutputs.filterMap PrepOutput.residualNote

def PrepTransaction.minted (tx : PrepTransaction) : List Nat :=
  (tx.outputs.filterMap PrepOutput.fundingNote).map Zatoshis.value

def PrepTransaction.residuals (tx : PrepTransaction) : List Zatoshis :=
  tx.outputs.filterMap PrepOutput.residualNote

/-- The transactions mint the given values and leave no change. -/
structure Mints (txs : List PrepTransaction) (values : List Nat) : Prop where
  minted : (txs.flatMap PrepTransaction.minted).Perm values
  residuals : ∀ tx ∈ txs, tx.residuals = []

theorem Mints.nil : Mints [] [] := ⟨.nil,by simp⟩

theorem Mints.start : Mints (List.flatten ([] : Layers)) [] := Mints.nil

variable {txs txs' : List PrepTransaction}

theorem Mints.perm {values values' : List Nat} (h : Mints txs values) (htxs : txs'.Perm txs)
    (hvalues : values.Perm values') : Mints txs' values' :=
  ⟨(htxs.flatMap_right _).trans (h.minted.trans hvalues),
    fun tx htx => h.residuals tx (htxs.mem_iff.mp htx)⟩

theorem Mints.cons {values : List Nat} {tx : PrepTransaction} (h : Mints txs values)
    (hchange : tx.residuals = []) : Mints (tx :: txs) (tx.minted ++ values) :=
  ⟨by simpa using h.minted.append_left tx.minted,List.forall_mem_cons.mpr ⟨hchange,h.residuals⟩⟩

theorem Mints.append {values values' : List Nat} (h : Mints txs values) (h' : Mints txs' values') :
    Mints (txs ++ txs') (values ++ values') :=
  ⟨by simpa using h.minted.append h'.minted,
    fun tx htx => (List.mem_append.mp htx).elim (h.residuals tx) (h'.residuals tx)⟩

theorem Mints.snoc {values : List Nat} {tx : PrepTransaction} (h : Mints txs values)
    (hchange : tx.residuals = []) : Mints (txs ++ [tx]) (values ++ tx.minted) := by
  have hone : Mints [tx] (tx.minted ++ []) := Mints.nil.cons hchange
  rw [List.append_nil] at hone
  exact h.append hone

theorem Mints.push {layers : Layers} {values : List Nat} {tx : PrepTransaction}
    (h : Mints layers.flatten values) (layer : Nat) (hchange : tx.residuals = []) :
    Mints (layers.push layer tx).flatten (tx.minted ++ values) :=
  (h.cons hchange).perm (Grid.flatten_push_perm layers layer tx) (.refl _)

theorem leftoverOutput_ok {leftover : Nat} {outputs : List PrepOutput}
    (h : leftoverOutput leftover = .ok outputs) :
    ∃ amounts : List Zatoshis, outputs = amounts.map PrepOutput.intermediate ∧
      amounts.map Zatoshis.value = if 0 < leftover then [leftover] else [] := by
  unfold leftoverOutput at h
  split at h
  · obtain ⟨amount,hamount,h⟩ := bind_ok h
    cases h
    exact ⟨[amount],rfl,by rw [if_pos ‹_›,List.map_singleton,zat_ok hamount]⟩
  · cases h
    exact ⟨[],rfl,by rw [if_neg ‹_›,List.map_nil]⟩

theorem mapM_zat {kind : Zatoshis → PrepOutput} {values : List Nat} {outputs : List PrepOutput}
    (h : values.mapM (fun v => kind <$> zat v) = .ok outputs) :
    ∃ amounts : List Zatoshis, outputs = amounts.map kind ∧
      amounts.map Zatoshis.value = values := by
  have hall := mapM_ok h
  clear h
  induction hall with
  | nil => exact ⟨[],rfl,rfl⟩
  | cons hx _ ih =>
    obtain ⟨amounts,rfl,hamounts⟩ := ih
    obtain ⟨amount,hamount,rfl⟩ := map_ok hx
    exact ⟨amount :: amounts,rfl,by rw [List.map_cons,zat_ok hamount,hamounts]⟩

@[simp] theorem fundingNote_funding (value : Zatoshis) :
    (PrepOutput.funding value).fundingNote = some value := rfl

@[simp] theorem fundingNote_intermediate (value : Zatoshis) :
    (PrepOutput.intermediate value).fundingNote = none := rfl

@[simp] theorem residualNote_funding (value : Zatoshis) :
    (PrepOutput.funding value).residualNote = none := rfl

@[simp] theorem residualNote_intermediate (value : Zatoshis) :
    (PrepOutput.intermediate value).residualNote = none := rfl

theorem minted_outputs (inputs : List PrepInput) (fundings intermediates : List Zatoshis) :
    PrepTransaction.minted ⟨inputs,
      fundings.map PrepOutput.funding ++ intermediates.map PrepOutput.intermediate⟩ =
      fundings.map Zatoshis.value := by
  simp [PrepTransaction.minted,Function.comp_def]

theorem residuals_outputs (inputs : List PrepInput) (fundings intermediates : List Zatoshis) :
    PrepTransaction.residuals ⟨inputs,
      fundings.map PrepOutput.funding ++ intermediates.map PrepOutput.intermediate⟩ = [] := by
  simp [PrepTransaction.residuals]

variable {sort : NoteSort} {fee layer : Nat} {values : List Nat} {layers : Layers}

theorem consolidateBatches_mints {sizes : List Nat} {pool : List PrepInput}
    {next leftover : List PrepInput} {result : Consolidation} (h : Mints txs values)
    (hrun : consolidateBatches layer fee sizes pool txs next leftover = .ok result) :
    Mints result.txs values := by
  induction sizes generalizing pool txs next leftover with
  | nil =>
    cases hrun
    exact h
  | cons size sizes ih =>
    simp only [consolidateBatches] at hrun
    split at hrun
    · exact ih h hrun
    · obtain ⟨feeder,_,hrun⟩ := bind_ok hrun
      have hsnoc := h.snoc (residuals_outputs (pool.take size) [] [feeder])
      rw [minted_outputs,List.map_nil,List.map_nil,List.append_nil] at hsnoc
      exact ih hsnoc hrun

theorem consolidate_mints {pool : List PrepInput} {next : List PrepInput} {result : Consolidation}
    (h : Mints txs values) (hrun : consolidate sort pool layer fee txs next = .ok result) :
    Mints result.txs values := by
  unfold consolidate at hrun
  split at hrun
  · cases hrun
    exact h
  · exact consolidateBatches_mints h hrun

theorem mints_append_layer {new : List Nat} (h : Mints layers.flatten values)
    (htxs : Mints txs new) : Mints (layers ++ [txs]).flatten (values ++ new) := by
  rw [List.flatten_append,List.flatten_singleton]
  exact h.append htxs

theorem round_mints {pool : List PrepInput} {result : Consolidation}
    (h : Mints layers.flatten values)
    (hrun : consolidate sort pool layer fee [] [] = .ok result) :
    Mints (layers ++ [result.txs]).flatten values := by
  have happend := mints_append_layer h (consolidate_mints Mints.nil hrun)
  rwa [List.append_nil] at happend

theorem mergeLoop_mints {fuel : Nat} {current : List PrepInput}
    {result : List PrepInput × Layers} (h : Mints layers.flatten values)
    (hrun : mergeLoop sort fee fuel current layers = .ok result) :
    Mints result.2.flatten values :=
  (mergeLoop_rule (P := fun layers _ => Mints layers.flatten values) round_mints h hrun).1

variable {result : Layers}

theorem residualLoop_mints {fuel : Nat} (h : Mints layers.flatten values)
    (hrun : residualLoop sort fee fuel layers = .ok result) : Mints result.flatten values :=
  residualLoop_rule (P := fun layers => Mints layers.flatten values) round_mints h hrun

theorem assignFunding_perm (budget : Nat) (remaining : List Nat) (count used : Nat) :
    ((assignFunding budget remaining count used).1 ++
      (assignFunding budget remaining count used).2.1).Perm remaining := by
  induction remaining generalizing count used with
  | nil => exact .nil
  | cons value remaining ih =>
    simp only [assignFunding]
    split
    · split
      · exact (ih _ _).cons value
      · exact List.perm_middle.trans ((ih _ _).cons value)
    · exact .refl _

theorem assignPass_perm (fee : Nat) (notes : List PrepInput) (remaining : List Nat) :
    ((assignPass fee notes remaining).1.flatMap PartialTx.assigned ++
      (assignPass fee notes remaining).2.2).Perm remaining := by
  induction notes generalizing remaining with
  | nil => exact .refl _
  | cons input notes ih =>
    simp only [assignPass]
    split
    · exact ih remaining
    · split
      · exact ih remaining
      · simp only [List.flatMap_cons,List.append_assoc]
        exact ((ih _).append_left _).trans (assignFunding_perm _ _ _ _)

theorem mintPass_mints {partials : List PartialTx} {next next' : List PrepInput}
    (h : Mints txs values) (hrun : mintPass layer partials txs next = .ok (txs',next')) :
    Mints txs' (values ++ partials.flatMap PartialTx.assigned) := by
  induction partials generalizing txs next values with
  | nil =>
    cases hrun
    simpa using h
  | cons partialTx partials ih =>
    obtain ⟨input,assigned,leftover⟩ := partialTx
    obtain ⟨outputs,houtputs,hrest⟩ := bind_ok hrun
    obtain ⟨amounts,rfl,hassigned⟩ := mapM_zat houtputs
    have hsnoc (extra : List Zatoshis) := h.snoc (residuals_outputs [input] amounts extra)
    simp only [minted_outputs,hassigned] at hsnoc
    rw [List.flatMap_cons,← List.append_assoc]
    split at hrest
    · obtain ⟨amount,_,hrest⟩ := bind_ok hrest
      exact ih (hsnoc [amount]) hrest
    · have hsnoc := hsnoc []
      rw [List.map_nil,List.append_nil] at hsnoc
      exact ih hsnoc hrest

theorem greedyLoop_mints {fuel : Nat} {remaining : List Nat} {current : List PrepInput}
    (h : Mints layers.flatten values)
    (hrun : greedyLoop sort fee fuel remaining current layers = .ok result) :
    Mints result.flatten (values ++ remaining) := by
  induction fuel generalizing remaining current layers values with
  | zero => cases hrun
  | succ fuel ih =>
    simp only [greedyLoop] at hrun
    split at hrun
    · rename_i hremaining
      cases hrun
      rw [hremaining,List.append_nil]
      exact h
    split at hrun
    · cases hrun
    obtain ⟨⟨txs,next⟩,hmint,hrun⟩ := bind_ok hrun
    obtain ⟨⟨txs',next',leftover⟩,hc,hrun⟩ := bind_ok hrun
    simp only at hrun
    split at hrun
    · cases hrun
    have hlayer := mints_append_layer h (consolidate_mints (mintPass_mints Mints.nil hmint) hc)
    refine (ih hlayer hrun).perm (.refl _) ?_
    rw [List.append_assoc,List.nil_append]
    exact (assignPass_perm fee (sort.sort current) remaining).append_left values

theorem buildChildren_mints {build : PrepInput → Nat → List Nat → Layers → PrepResult Layers}
    (hbuild : ∀ {child value group layers result values}, Mints (List.flatten layers) values →
      build child value group layers = .ok result → Mints (List.flatten result) (group ++ values))
    {txIndex o : Nat} {children : List (List Nat × Nat)} (h : Mints layers.flatten values)
    (hrun : buildChildren build layer txIndex o children layers = .ok result) :
    Mints result.flatten ((children.map Prod.fst).flatten ++ values) := by
  induction children generalizing o layers values with
  | nil =>
    cases hrun
    exact h
  | cons child children ih =>
    obtain ⟨group,childValue⟩ := child
    obtain ⟨value,_,hrun⟩ := bind_ok hrun
    obtain ⟨layers',hchild,hrun⟩ := bind_ok hrun
    refine (ih (hbuild h hchild) hrun).perm (.refl _) ?_
    rw [List.map_cons,List.flatten_cons,← List.append_assoc]
    exact List.perm_append_comm.append_right values

theorem buildSplit_mints {fuel : Nat} {source : PrepInput} {sourceValue : Nat}
    {targets : List Nat} (h : Mints layers.flatten values)
    (hrun : buildSplit fee fuel source sourceValue targets layer layers = .ok result) :
    Mints result.flatten (targets ++ values) := by
  induction fuel generalizing source sourceValue targets layer layers result values with
  | zero => cases hrun
  | succ fuel ih =>
    have hpad : Mints (layers.pad layer).flatten values := by rwa [Grid.flatten_pad]
    simp only [buildSplit] at hrun
    split at hrun
    · obtain ⟨outputs,houtputs,hrun⟩ := bind_ok hrun
      obtain ⟨leftover,hleftover,hrun⟩ := bind_ok hrun
      cases hrun
      obtain ⟨amounts,rfl,rfl⟩ := mapM_zat houtputs
      obtain ⟨extra,rfl,_⟩ := leftoverOutput_ok hleftover
      have hpush := hpad.push layer (residuals_outputs [source] amounts extra)
      rwa [minted_outputs] at hpush
    · rename_i hdepth
      obtain ⟨outputs,houtputs,hrun⟩ := bind_ok hrun
      obtain ⟨leftover,hleftover,hrun⟩ := bind_ok hrun
      obtain ⟨amounts,rfl,_⟩ := mapM_zat houtputs
      obtain ⟨extra,rfl,_⟩ := leftoverOutput_ok hleftover
      have hpush := hpad.push layer (residuals_outputs [source] [] (amounts ++ extra))
      rw [minted_outputs,List.map_nil,List.map_nil,List.nil_append,List.nil_append,
        List.map_append] at hpush
      have hchildren := buildChildren_mints (fun hm hr => ih hm hr) hpush hrun
      have hne : targets ≠ [] := fun hnil => hdepth (by simp [hnil,splitDepth])
      rwa [List.map_fst_zip (by simp),splitGroups_flatten hne] at hchildren

theorem extractDirectFunding_perm {values targets kept : List Nat} {used used' : List Bool}
    {direct : List (Nat × Zatoshis)}
    (h : extractDirectFunding values targets used = .ok (used',direct,kept)) :
    (direct.map (·.2.value) ++ kept).Perm targets := by
  induction targets generalizing used direct kept with
  | nil =>
    cases h
    exact .nil
  | cons funding targets ih =>
    simp only [extractDirectFunding] at h
    split at h
    · obtain ⟨amount,hamount,h⟩ := bind_ok h
      obtain ⟨⟨used₁,direct₁,kept₁⟩,hrest,h⟩ := bind_ok h
      cases h
      rw [List.map_cons,zat_ok hamount]
      exact (ih hrest).cons funding
    · obtain ⟨⟨used₁,direct₁,kept₁⟩,hrest,h⟩ := bind_ok h
      cases h
      exact List.perm_middle.trans ((ih hrest).cons funding)

theorem relabelOutput_fundingNote (spent : List Coordinate) (l t o : Nat) (output : PrepOutput) :
    (relabelOutput spent l t o output).fundingNote = output.fundingNote := by
  cases output with
  | funding value => rfl
  | change value => rfl
  | intermediate value =>
    by_cases hs : (l,t,o) ∈ spent <;> simp [relabelOutput,hs,PrepOutput.fundingNote]

theorem relabelTransaction_minted (spent : List Coordinate) (l t : Nat) (tx : PrepTransaction) :
    (relabelTransaction spent l t tx).minted = tx.minted := by
  have hidx := List.zipIdx_map_fst 0 tx.outputs
  unfold PrepTransaction.minted relabelTransaction
  conv_rhs => rw [← hidx]
  simp only [List.filterMap_map,Function.comp_def,relabelOutput_fundingNote]

theorem relabelUnspent_minted (layers : Layers) :
    (relabelUnspent layers).flatten.flatMap PrepTransaction.minted =
      layers.flatten.flatMap PrepTransaction.minted := by
  have hflat := Grid.map_flatten_mapIdx (f := relabelTransaction (spentCoordinates layers))
    (h := PrepTransaction.minted) (k := PrepTransaction.minted)
    (relabelTransaction_minted _) layers
  rw [List.flatMap_def,List.flatMap_def,relabelUnspent,hflat]

end CoppiceWallet.Planner
