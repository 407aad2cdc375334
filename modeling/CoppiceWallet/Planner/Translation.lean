import CoppiceWallet.Planner.Selection

/-! # The translation keeps the graph -/

namespace CoppiceWallet.Planner

open CoppiceWallet.Lib

abbrev Entry := (Nat × Nat) × PrepTransaction

/-- The transactions of a plan in plan order, each with its coordinate. -/
def entriesFrom (start : Nat) (layers : Layers) : List Entry :=
  (layers.zipIdx start).flatMap fun (layer, l) => layer.zipIdx.map fun (tx, t) => ((l, t), tx)

theorem entriesFrom_zero (layers : Layers) :
    entriesFrom 0 layers = (layers.mapIdx fun l t tx => ((l, t), tx)).flatten := rfl

theorem mem_entries {layers : Layers} {l t : Nat} {tx : PrepTransaction} :
    ((l,t),tx) ∈ entriesFrom 0 layers ↔ layers.cell l t = some tx := by
  rw [entriesFrom_zero,Grid.mem_flatten]
  simp only [Grid.cell_mapIdx,Option.map_eq_some_iff]
  constructor
  · rintro ⟨_,_,tx,htx,heq⟩
    cases heq
    exact htx
  · intro htx
    exact ⟨l,t,tx,htx,rfl⟩

theorem entries_map_snd (layers : Layers) :
    (entriesFrom 0 layers).map Prod.snd = layers.flatten := by
  have h := Grid.map_flatten_mapIdx (f := fun l t (tx : PrepTransaction) => ((l,t),tx))
    (h := Prod.snd) (k := id) (fun _ _ _ => rfl) layers
  rwa [List.map_id] at h

theorem entries_keys_nodup (layers : Layers) :
    ((entriesFrom 0 layers).map Prod.fst).Nodup := by
  rw [List.Nodup,List.pairwise_map]
  exact Grid.pairwise_mapIdx (R := fun a b => a.1 ≠ b.1)
    (f := fun l t (tx : PrepTransaction) => ((l,t),tx)) fun _ _ _ _ _ _ hne => hne

/-- An input of a stage is the translation of an input of its transaction. -/
inductive InputOf (indices : List Nat) (done : List Entry) : PrepInput → SplitStageInput → Prop
  | wallet {index inputIndex : Nat} {value : Zatoshis} (h : indices[index]? = some inputIndex) :
      InputOf indices done (.wallet index value) (.original inputIndex value.value)
  | prior {l t o stage : Nat} {value : Zatoshis} {tx : PrepTransaction}
      (h : done[stage]? = some ((l,t),tx)) :
      InputOf indices done (.prior l t o value) (.prior stage o value.value)

def PrepOutput.terminalKind : PrepOutput → SplitTerminalKind
  | .funding _ => .migration
  | .intermediate _ => .continuation
  | .change _ => .orchardChange

structure OutputOf (output : PrepOutput) (stageOutput : SplitStageOutput) : Prop where
  value : stageOutput.value = output.value.value
  kind : stageOutput.kind = output.terminalKind
  part : stageOutput.partIndex.isSome = true ↔ output.terminalKind = .migration

structure StageOf (indices : List Nat) (feePerStage : Nat) (done : List Entry) (entry : Entry)
    (stage : SplitStagePlan) : Prop where
  layer : stage.layerIndex = entry.1.1
  inputs : List.Forall₂ (InputOf indices done) entry.2.inputs stage.inputs
  outputs : List.Forall₂ OutputOf entry.2.outputs stage.outputs
  fee : stage.fee = feePerStage
  actions : stage.inputs.length + stage.outputs.length ≤ denominationSplitActions
  conserved : (stage.inputs.map SplitStageInput.value).sum =
    (stage.outputs.map SplitStageOutput.value).sum + stage.fee

/-- A translation in progress: one stage for each entry done, and coordinates that find it. -/
structure Staged (indices : List Nat) (feePerStage : Nat) (done : List Entry)
    (translation : Translation) : Prop where
  length : translation.stages.length = done.length
  located : ∀ l t stage, translation.coordinates.lookup (l,t) = some stage →
    ∃ tx, done[stage]? = some ((l,t),tx)
  stage : ∀ i stage, translation.stages[i]? = some stage →
    ∃ entry, done[i]? = some entry ∧ StageOf indices feePerStage (done.take i) entry stage

variable {indices : List Nat} {feePerStage : Nat} {done : List Entry}

theorem translateInput_ok {coordinates : Coordinates} {input : PrepInput}
    {stageInput : SplitStageInput}
    (hlocated : ∀ l t stage, coordinates.lookup (l,t) = some stage →
      ∃ tx, done[stage]? = some ((l,t),tx))
    (h : translateInput indices coordinates input = .ok stageInput) :
    InputOf indices done input stageInput := by
  cases input with
  | wallet index value =>
    obtain ⟨inputIndex,hindex,h⟩ := bind_ok h
    cases h
    exact .wallet (okOr_ok hindex)
  | prior l t o value =>
    obtain ⟨stage,hstage,h⟩ := bind_ok h
    cases h
    obtain ⟨tx,htx⟩ := hlocated l t stage (okOr_ok hstage)
    exact .prior htx

def SplitStageOutput.assignment (output : SplitStageOutput) : Option (Nat × Nat) :=
  output.partIndex.map fun part => (output.value,part)

variable {parts rest : AvailableParts}

theorem takePartIndex_perm {value part : Nat} (h : takePartIndex parts value = .ok (part,rest)) :
    parts.Perm ((value,part) :: rest) := by
  unfold takePartIndex at h
  split at h
  · rename_i found hfound
    cases h
    have hvalue : found.1 = value := by simpa using List.find?_some hfound
    subst hvalue
    exact List.perm_cons_erase (List.mem_of_find?_eq_some hfound)
  · cases h

theorem translateOutputs_ok {outputs : List PrepOutput} {stageOutputs : List SplitStageOutput}
    (h : translateOutputs outputs parts = .ok (stageOutputs,rest)) :
    List.Forall₂ OutputOf outputs stageOutputs ∧
      parts.Perm (stageOutputs.filterMap SplitStageOutput.assignment ++ rest) := by
  induction outputs generalizing parts stageOutputs with
  | nil =>
    cases h
    exact ⟨.nil,List.Perm.refl _⟩
  | cons output outputs ih =>
    cases output with
    | funding value =>
      obtain ⟨⟨part,parts'⟩,hpart,h⟩ := bind_ok h
      obtain ⟨⟨tail,rest'⟩,htail,h⟩ := bind_ok h
      cases h
      obtain ⟨hout,hperm⟩ := ih htail
      exact ⟨.cons ⟨rfl,rfl,by simp [PrepOutput.terminalKind]⟩ hout,
        (takePartIndex_perm hpart).trans (hperm.cons _)⟩
    | intermediate value =>
      obtain ⟨⟨tail,rest'⟩,htail,h⟩ := bind_ok h
      cases h
      obtain ⟨hout,hperm⟩ := ih htail
      exact ⟨.cons ⟨rfl,rfl,by simp [PrepOutput.terminalKind]⟩ hout,hperm⟩
    | change value =>
      obtain ⟨⟨tail,rest'⟩,htail,h⟩ := bind_ok h
      cases h
      obtain ⟨hout,hperm⟩ := ih htail
      exact ⟨.cons ⟨rfl,rfl,by simp [PrepOutput.terminalKind]⟩ hout,hperm⟩

theorem translateDirect_ok {direct : List (Nat × Zatoshis)} {inputs : List DirectMigrationInput}
    (h : translateDirect indices direct parts = .ok (inputs,rest)) :
    List.Forall₂ (fun p input => indices[p.1]? = some input.inputIndex ∧ input.value = p.2.value)
      direct inputs ∧
      parts.Perm (inputs.map (fun input => (input.value,input.partIndex)) ++ rest) := by
  induction direct generalizing parts inputs with
  | nil =>
    cases h
    exact ⟨.nil,List.Perm.refl _⟩
  | cons p direct ih =>
    obtain ⟨index,hindex,h⟩ := bind_ok h
    obtain ⟨⟨part,parts'⟩,hpart,h⟩ := bind_ok h
    obtain ⟨⟨tail,rest'⟩,htail,h⟩ := bind_ok h
    cases h
    obtain ⟨hall,hperm⟩ := ih htail
    exact ⟨.cons ⟨okOr_ok hindex,rfl⟩ hall,(takePartIndex_perm hpart).trans (hperm.cons _)⟩

theorem translateTransaction_ok {coordinates : Coordinates} {tx : PrepTransaction} {l t : Nat}
    {stage : SplitStagePlan} (hlocated : ∀ l t stage, coordinates.lookup (l,t) = some stage →
      ∃ tx, done[stage]? = some ((l,t),tx))
    (h : translateTransaction indices feePerStage l coordinates tx parts = .ok (stage,rest)) :
    StageOf indices feePerStage done ((l,t),tx) stage ∧
      parts.Perm (stage.outputs.filterMap SplitStageOutput.assignment ++ rest) := by
  obtain ⟨inputs,hinputs,h⟩ := bind_ok h
  obtain ⟨⟨outputs,parts'⟩,houtputs,h⟩ := bind_ok h
  obtain ⟨actions,hactions,h⟩ := bind_ok h
  split at h
  · cases h
  rename_i hle
  obtain ⟨inputTotal,hin,h⟩ := bind_ok h
  obtain ⟨outputTotal,hout,h⟩ := bind_ok h
  obtain ⟨spent,hspent,h⟩ := bind_ok h
  split at h
  · cases h
  rename_i heq
  cases h
  obtain ⟨hall,hperm⟩ := translateOutputs_ok houtputs
  refine ⟨⟨rfl,(mapM_ok hinputs).imp fun _ _ hi => translateInput_ok hlocated hi,hall,rfl,?_,?_⟩,hperm⟩
  · have hcount := checkedAdd_eq_some (okOr_ok hactions)
    simp only
    omega
  · have hin := checkedSum_ok hin
    have hout := checkedSum_ok hout
    have hspent := checkedAdd_eq_some (okOr_ok hspent)
    simp only
    omega

variable {translation : Translation}

theorem Staged.push (h : Staged indices feePerStage done translation) {l t : Nat}
    {tx : PrepTransaction} {stage : SplitStagePlan}
    (hstage : StageOf indices feePerStage done ((l,t),tx) stage) :
    Staged indices feePerStage (done ++ [((l,t),tx)])
      ⟨((l,t),translation.stages.length) :: translation.coordinates,
        translation.stages ++ [stage],parts⟩ where
  length := by simp [h.length]
  located l' t' s hs := by
    rw [List.lookup_cons] at hs
    split at hs
    · rename_i hkey
      cases hs
      have hkey : (l',t') = (l,t) := by simpa using hkey
      cases hkey
      exact ⟨tx,by simp [h.length]⟩
    · obtain ⟨tx',htx'⟩ := h.located l' t' s hs
      exact ⟨tx',List.getElem?_append_left (List.getElem?_eq_some_iff.mp htx').1 ▸ htx'⟩
  stage i st hst := by
    rcases lt_trichotomy i done.length with hi | hi | hi
    · rw [List.getElem?_append_left (by rw [h.length]; exact hi)] at hst
      obtain ⟨entry,hentry,hof⟩ := h.stage i st hst
      refine ⟨entry,by rw [List.getElem?_append_left hi,hentry],?_⟩
      rw [List.take_append_of_le_length hi.le]
      exact hof
    · subst hi
      have hst : stage = st := by simpa [← h.length] using hst
      subst hst
      refine ⟨((l,t),tx),by simp,?_⟩
      rw [List.take_append_of_le_length le_rfl,List.take_length]
      exact hstage
    · rw [List.getElem?_eq_none (by simp [h.length]; omega)] at hst
      cases hst

theorem translateLayer_ok {l t : Nat} {txs : List PrepTransaction} {result : Translation}
    (h : Staged indices feePerStage done translation)
    (hrun : translateLayer indices feePerStage l t txs translation = .ok result) :
    Staged indices feePerStage (done ++ (txs.zipIdx t).map fun (tx, t) => ((l, t), tx)) result ∧
      (translation.stages.flatMap (·.outputs.filterMap SplitStageOutput.assignment) ++
        translation.parts).Perm
        (result.stages.flatMap (·.outputs.filterMap SplitStageOutput.assignment) ++
          result.parts) := by
  induction txs generalizing t done translation with
  | nil =>
    cases hrun
    simpa using h
  | cons tx txs ih =>
    obtain ⟨coordinates,stages,parts⟩ := translation
    obtain ⟨⟨stage,rest⟩,hstage,hrun⟩ := bind_ok hrun
    obtain ⟨hof,hperm⟩ := translateTransaction_ok (t := t) h.located hstage
    obtain ⟨hstaged,hrest⟩ := ih (h.push hof) hrun
    refine ⟨by simpa using hstaged,List.Perm.trans ?_ hrest⟩
    simp only [List.flatMap_append,List.flatMap_singleton,List.append_assoc]
    exact hperm.append_left _

theorem translateLayers_ok {l : Nat} {layers : Layers} {result : Translation}
    (h : Staged indices feePerStage done translation)
    (hrun : translateLayers indices feePerStage l layers translation = .ok result) :
    Staged indices feePerStage (done ++ entriesFrom l layers) result ∧
      (translation.stages.flatMap (·.outputs.filterMap SplitStageOutput.assignment) ++
        translation.parts).Perm
        (result.stages.flatMap (·.outputs.filterMap SplitStageOutput.assignment) ++
          result.parts) := by
  induction layers generalizing l done translation with
  | nil =>
    cases hrun
    simpa [entriesFrom] using h
  | cons layer layers ih =>
    obtain ⟨middle,hlayer,hrun⟩ := bind_ok hrun
    obtain ⟨hmiddle,hperm⟩ := translateLayer_ok h hlayer
    obtain ⟨hresult,hperm'⟩ := ih hmiddle hrun
    refine ⟨?_,hperm.trans hperm'⟩
    simpa [entriesFrom] using hresult

/-- What a translated plan has to do with the preparation plan it came from. -/
structure Translated (indices : List Nat) (feePerStage : Nat) (fundingValues : List Nat)
    (preparation : PreparationPlan) (plan : PaddedDenominationPlan) : Prop where
  length : plan.stages.length = (entriesFrom 0 preparation.layers).length
  stage : ∀ i stage, plan.stages[i]? = some stage →
    ∃ entry, (entriesFrom 0 preparation.layers)[i]? = some entry ∧
      StageOf indices feePerStage ((entriesFrom 0 preparation.layers).take i) entry stage
  direct : ∃ inputs, inputs.Perm plan.directMigrationInputs ∧
    List.Forall₂ (fun p input => indices[p.1]? = some input.inputIndex ∧ input.value = p.2.value)
      preparation.directFunding inputs
  parts : fundingValues.zipIdx.Perm
    (plan.directMigrationInputs.map (fun input => (input.value,input.partIndex)) ++
      plan.stages.flatMap (·.outputs.filterMap SplitStageOutput.assignment))

theorem translatePreparationPlan_ok {preparation : PreparationPlan}
    {denominations : DenominationPlan} {fundingValues : List Nat} {plan : PaddedDenominationPlan}
    (h : translatePreparationPlan preparation denominations indices fundingValues feePerStage =
      .ok plan) :
    plan.denominations = denominations ∧
      Translated indices feePerStage fundingValues preparation plan := by
  obtain ⟨⟨direct,parts⟩,hdirect,h⟩ := bind_ok h
  obtain ⟨translation,hlayers,h⟩ := bind_ok h
  split at h
  · cases h
  rename_i hparts
  cases h
  obtain ⟨hall,hperm⟩ := translateDirect_ok hdirect
  have hstart : Staged indices feePerStage [] ⟨[],[],parts⟩ :=
    ⟨rfl,fun _ _ _ h => by simp at h,fun _ _ h => by simp at h⟩
  obtain ⟨hstaged,hrest⟩ := translateLayers_ok hstart hlayers
  have hsort := List.perm_insertionSort (fun a b => a.partIndex ≤ b.partIndex) direct
  refine ⟨rfl,hstaged.length,hstaged.stage,⟨direct,hsort.symm,hall⟩,hperm.trans ?_⟩
  rw [not_not.mp hparts,List.append_nil] at hrest
  exact (hsort.symm.map _).append hrest

end CoppiceWallet.Planner
