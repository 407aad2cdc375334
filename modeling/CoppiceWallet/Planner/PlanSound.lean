import CoppiceWallet.Planner.Translation

/-! # The stage graph of a plan is sound -/

namespace CoppiceWallet.Planner

open CoppiceWallet.Lib

def SplitStageInput.originalIndex : SplitStageInput → Option Nat
  | .original inputIndex _ => some inputIndex
  | .prior _ _ _ => none

def SplitStageInput.priorOutput : SplitStageInput → Option (Nat × Nat)
  | .original _ _ => none
  | .prior stageIndex outputIndex _ => some (stageIndex, outputIndex)

namespace PaddedDenominationPlan

def stageInputs (plan : PaddedDenominationPlan) : List SplitStageInput :=
  plan.stages.flatMap SplitStagePlan.inputs

def stageOutputs (plan : PaddedDenominationPlan) : List SplitStageOutput :=
  plan.stages.flatMap SplitStagePlan.outputs

/-- The wallet notes a plan spends, directly or in a stage. -/
def usedInputs (plan : PaddedDenominationPlan) : List Nat :=
  plan.directMigrationInputs.map DirectMigrationInput.inputIndex ++
    plan.stageInputs.filterMap SplitStageInput.originalIndex

def spentOutputs (plan : PaddedDenominationPlan) : List (Nat × Nat) :=
  plan.stageInputs.filterMap SplitStageInput.priorOutput

def outputsOfKind (plan : PaddedDenominationPlan) (kind : SplitTerminalKind) :
    List SplitStageOutput :=
  plan.stageOutputs.filter (fun output => decide (output.kind = kind))

/-- Every note that becomes a migration transfer, with the part it is assigned. -/
def assignedParts (plan : PaddedDenominationPlan) : List (Option Nat × Nat) :=
  plan.directMigrationInputs.map (fun input => (some input.partIndex, input.value)) ++
    (plan.outputsOfKind .migration).map (fun output => (output.partIndex, output.value))

/-- The values of the positive inputs a plan leaves alone. -/
def unusedValues (plan : PaddedDenominationPlan) (inputValues : List Nat) : List Nat :=
  (inputValues.zipIdx.filter fun (value, index) =>
    decide (0 < value) && !plan.usedInputs.contains index).map Prod.fst

/-- Structural soundness of a plan for the given wallet notes. -/
structure Sound (plan : PaddedDenominationPlan) (inputValues : List Nat)
    (feePerStage migrationFee : Nat) : Prop where
  used_nodup : plan.usedInputs.Nodup
  direct_value : ∀ input ∈ plan.directMigrationInputs,
    inputValues[input.inputIndex]? = some input.value
  original_value : ∀ index value, .original index value ∈ plan.stageInputs →
    inputValues[index]? = some value
  prior : ∀ (s : Nat) stage p o value, plan.stages[s]? = some stage →
    .prior p o value ∈ stage.inputs →
    p < s ∧ ∃ parent, plan.stages[p]? = some parent ∧ parent.layerIndex < stage.layerIndex ∧
      parent.outputs[o]? = some ⟨value, .continuation, none⟩
  spent_once : ∀ (s : Nat) stage (o : Nat) output, plan.stages[s]? = some stage →
    stage.outputs[o]? = some output →
    plan.spentOutputs.count (s, o) = if output.kind = .continuation then 1 else 0
  parts : plan.assignedParts.Perm
    (plan.denominations.migrationOutputs.zipIdx.map fun (value, part) =>
      (some part, value + migrationFee))
  stage_actions : ∀ stage ∈ plan.stages, stage.inputs.length + stage.outputs.length ≤ 16
  stage_value : ∀ stage ∈ plan.stages, stage.fee = feePerStage ∧
    (stage.inputs.map SplitStageInput.value).sum =
      (stage.outputs.map SplitStageOutput.value).sum + stage.fee
  change : ((plan.outputsOfKind .orchardChange).map SplitStageOutput.value).sum +
    (plan.unusedValues inputValues).sum = plan.denominations.orchardChange.getD 0

end PaddedDenominationPlan

variable {indices : List Nat} {feePerStage : Nat} {fundingValues : List Nat}
  {preparation : PreparationPlan} {plan : PaddedDenominationPlan}

theorem InputOf.mono {done done' : List Entry} {input : PrepInput} {stageInput : SplitStageInput}
    (h : InputOf indices done input stageInput)
    (hdone : ∀ (i : Nat) entry, done[i]? = some entry → done'[i]? = some entry) :
    InputOf indices done' input stageInput := by
  cases h with
  | wallet h => exact .wallet h
  | prior h => exact .prior (hdone _ _ h)

private theorem getElem?_of_take {α : Type} {xs : List α} {n i : Nat} {x : α}
    (h : (xs.take n)[i]? = some x) : i < n ∧ xs[i]? = some x := by
  rw [List.getElem?_take] at h
  split at h
  · exact ⟨‹_›,h⟩
  · cases h

theorem Translated.entries_stages (h : Translated indices feePerStage fundingValues preparation plan) :
    List.Forall₂ (StageOf indices feePerStage (entriesFrom 0 preparation.layers))
      (entriesFrom 0 preparation.layers) plan.stages := by
  rw [List.forall₂_iff_get]
  refine ⟨h.length.symm,fun i hi hs => ?_⟩
  obtain ⟨entry,hentry,hof⟩ := h.stage i _ (List.getElem?_eq_getElem hs)
  rw [List.getElem?_eq_getElem hi] at hentry
  cases hentry
  exact { hof with
    inputs := hof.inputs.imp fun _ _ hin => hin.mono fun _ _ hd => (getElem?_of_take hd).2 }

theorem consumed_eq_entries (layers : Layers) :
    consumed layers = (entriesFrom 0 layers).flatMap (·.2.inputs) := by
  rw [consumed,← entries_map_snd,List.flatMap_map]

theorem Translated.inputs (h : Translated indices feePerStage fundingValues preparation plan) :
    List.Forall₂ (InputOf indices (entriesFrom 0 preparation.layers))
      (consumed preparation.layers) plan.stageInputs := by
  rw [consumed_eq_entries]
  exact List.rel_flatMap h.entries_stages fun _ _ hof => hof.inputs

theorem Translated.outputs (h : Translated indices feePerStage fundingValues preparation plan) :
    List.Forall₂ OutputOf (preparation.layers.flatten.flatMap PrepTransaction.outputs)
      plan.stageOutputs := by
  rw [← entries_map_snd,List.flatMap_map]
  exact List.rel_flatMap h.entries_stages fun _ _ hof => hof.outputs

private theorem entries_functional {layers : Layers} {i j l t : Nat} {tx tx' : PrepTransaction}
    (hi : (entriesFrom 0 layers)[i]? = some ((l,t),tx))
    (hj : (entriesFrom 0 layers)[j]? = some ((l,t),tx')) : i = j := by
  have hik : ((entriesFrom 0 layers).map Prod.fst)[i]? = some (l,t) := by simp [hi]
  have hjk : ((entriesFrom 0 layers).map Prod.fst)[j]? = some (l,t) := by simp [hj]
  exact (List.getElem?_inj (by simpa using (List.getElem?_eq_some_iff.mp hi).1)
    (entries_keys_nodup layers)).mp (hik.trans hjk.symm)

/-! ### Notes are spent once -/

/-- What an input spends, without its value: a wallet note or an output of a transaction. -/
def PrepInput.source : PrepInput → Nat ⊕ Coordinate
  | .wallet index _ => .inl index
  | .prior layer transaction output _ => .inr (layer, transaction, output)

def SplitStageInput.source : SplitStageInput → Nat ⊕ (Nat × Nat)
  | .original inputIndex _ => .inl inputIndex
  | .prior stageIndex outputIndex _ => .inr (stageIndex, outputIndex)

/-- All notes a preparation plan spends. -/
def PreparationPlan.sources (preparation : PreparationPlan) : List (Nat ⊕ Coordinate) :=
  preparation.directFunding.map (fun p => .inl p.1) ++
    (consumed preparation.layers).map PrepInput.source

def PaddedDenominationPlan.sources (plan : PaddedDenominationPlan) : List (Nat ⊕ (Nat × Nat)) :=
  plan.directMigrationInputs.map (fun input => .inl input.inputIndex) ++
    plan.stageInputs.map SplitStageInput.source

def SourceOf (indices : List Nat) (entries : List Entry) :
    Nat ⊕ Coordinate → Nat ⊕ (Nat × Nat) → Prop
  | .inl index, .inl inputIndex => indices[index]? = some inputIndex
  | .inr (l, t, o), .inr (stage, o') => o = o' ∧ ∃ tx, entries[stage]? = some ((l,t),tx)
  | _, _ => False

theorem PreparationPlan.Sound.sources_nodup {available : List Zatoshis}
    (h : preparation.Sound available) : preparation.sources.Nodup := by
  refine List.Nodup.append ?_ ?_ ?_
  · have hmap := h.direct_nodup.map (f := Sum.inl (β := Coordinate)) Sum.inl_injective
    rwa [List.map_map] at hmap
  · refine (List.nodup_map_iff_inj_on h.nodup).mpr ?_
    intro a ha b hb hab
    cases a with
    | wallet i v =>
      cases b with
      | wallet j w =>
        cases hab
        have hv := (h.wallet i v ha).1
        rw [(h.wallet i w hb).1] at hv
        cases hv
        rfl
      | prior l t o w => cases hab
    | prior l t o v =>
      cases b with
      | wallet j w => cases hab
      | prior l' t' o' w =>
        cases hab
        obtain ⟨tx,htx,ho⟩ := (h.intermediate l t o v).mp ha
        obtain ⟨tx',htx',ho'⟩ := (h.intermediate l t o w).mp hb
        rw [htx] at htx'
        cases htx'
        rw [ho] at ho'
        cases ho'
        rfl
  · intro s hd hc
    obtain ⟨p,hp,rfl⟩ := List.mem_map.mp hd
    obtain ⟨input,hi,heq⟩ := List.mem_map.mp hc
    cases input with
    | wallet i v =>
      cases heq
      exact (h.wallet _ v hi).2 (List.mem_map_of_mem hp)
    | prior l t o v => cases heq

theorem Translated.sources_nodup {available : List Zatoshis}
    (h : Translated indices feePerStage fundingValues preparation plan)
    (hsound : preparation.Sound available) (hindices : indices.Nodup) : plan.sources.Nodup := by
  obtain ⟨inputs,hperm,hdirect⟩ := h.direct
  rw [PaddedDenominationPlan.sources,← ((hperm.map _).append_right _).nodup_iff]
  refine forall₂_nodup (R := SourceOf indices (entriesFrom 0 preparation.layers))
    (List.rel_append ?_ ?_) hsound.sources_nodup ?_
  · rw [List.forall₂_map_left_iff,List.forall₂_map_right_iff]
    exact hdirect.imp fun _ _ hd => hd.1
  · rw [List.forall₂_map_left_iff,List.forall₂_map_right_iff]
    refine h.inputs.imp fun _ _ hin => ?_
    cases hin with
    | wallet hi => exact hi
    | prior hi => exact ⟨rfl,_,hi⟩
  · rintro (i | ⟨l,t,o⟩) (j | ⟨l',t',o'⟩) (k | ⟨s,p⟩) hx hx'
    · exact congrArg Sum.inl ((List.getElem?_inj (List.getElem?_eq_some_iff.mp hx).1 hindices).mp
        (hx.trans hx'.symm))
    all_goals first | exact hx.elim | exact hx'.elim | skip
    obtain ⟨rfl,tx,htx⟩ := hx
    obtain ⟨rfl,tx',htx'⟩ := hx'
    rw [htx] at htx'
    cases htx'
    rfl

theorem PaddedDenominationPlan.usedInputs_eq (plan : PaddedDenominationPlan) :
    plan.usedInputs = plan.sources.filterMap Sum.getLeft? := by
  rw [usedInputs,sources,List.filterMap_append,List.filterMap_map,List.filterMap_map]
  congr 1
  · rw [← List.filterMap_eq_map]
    rfl
  · refine List.filterMap_congr fun input _ => ?_
    cases input <;> rfl

theorem PaddedDenominationPlan.spentOutputs_eq (plan : PaddedDenominationPlan) :
    plan.spentOutputs = plan.sources.filterMap Sum.getRight? := by
  have hdirect : plan.directMigrationInputs.filterMap
      (Sum.getRight? ∘ fun input => (.inl input.inputIndex : Nat ⊕ (Nat × Nat))) = [] :=
    List.filterMap_eq_nil_iff.mpr fun _ _ => rfl
  rw [spentOutputs,sources,List.filterMap_append,List.filterMap_map,List.filterMap_map,hdirect,
    List.nil_append]
  refine List.filterMap_congr fun input _ => ?_
  cases input <;> rfl

theorem PaddedDenominationPlan.mem_spentOutputs {plan : PaddedDenominationPlan} {s o : Nat} :
    (s,o) ∈ plan.spentOutputs ↔ ∃ value, .prior s o value ∈ plan.stageInputs := by
  rw [spentOutputs,List.mem_filterMap]
  constructor
  · rintro ⟨input,hi,hs⟩
    cases input with
    | original i v => cases hs
    | prior s' o' v =>
      cases hs
      exact ⟨v,hi⟩
  · rintro ⟨v,hv⟩
    exact ⟨_,hv,rfl⟩

private theorem getLeft?_injective {α β : Type} (a a' : α ⊕ β) (b : α) (h : b ∈ a.getLeft?)
    (h' : b ∈ a'.getLeft?) : a = a' := by
  rw [Option.mem_def,Sum.getLeft?_eq_some_iff] at h h'
  rw [h,h']

private theorem getRight?_injective {α β : Type} (a a' : α ⊕ β) (b : β) (h : b ∈ a.getRight?)
    (h' : b ∈ a'.getRight?) : a = a' := by
  rw [Option.mem_def,Sum.getRight?_eq_some_iff] at h h'
  rw [h,h']

/-! ### References -/

theorem StageOf.output {done : List Entry} {entry : Entry} {stage : SplitStagePlan}
    (h : StageOf indices feePerStage done entry stage) {o : Nat} {output : SplitStageOutput}
    (ho : stage.outputs[o]? = some output) :
    ∃ prepOutput, entry.2.outputs[o]? = some prepOutput ∧ OutputOf prepOutput output :=
  forall₂_getElem? h.outputs ho

theorem OutputOf.continuation {value : Zatoshis} {output : SplitStageOutput}
    (h : OutputOf (.intermediate value) output) : output = ⟨value.value,.continuation,none⟩ := by
  obtain ⟨v,kind,part⟩ := output
  have hv : v = value.value := h.value
  have hk : kind = .continuation := h.kind
  have hp : part = none := by
    have hpart := h.part
    simpa [PrepOutput.terminalKind] using hpart
  rw [hv,hk,hp]

theorem OutputOf.intermediate {prepOutput : PrepOutput} {output : SplitStageOutput}
    (h : OutputOf prepOutput output) (hk : output.kind = .continuation) :
    ∃ value, prepOutput = .intermediate value := by
  cases prepOutput with
  | intermediate value => exact ⟨value,rfl⟩
  | funding value => cases hk.symm.trans h.kind
  | change value => cases hk.symm.trans h.kind

theorem Translated.prior {available : List Zatoshis}
    (h : Translated indices feePerStage fundingValues preparation plan)
    (hsound : preparation.Sound available) {s p o value : Nat} {stage : SplitStagePlan}
    (hs : plan.stages[s]? = some stage) (hin : .prior p o value ∈ stage.inputs) :
    p < s ∧ ∃ parent, plan.stages[p]? = some parent ∧ parent.layerIndex < stage.layerIndex ∧
      parent.outputs[o]? = some ⟨value,.continuation,none⟩ := by
  obtain ⟨⟨⟨l,t⟩,tx⟩,hentry,hof⟩ := h.stage s stage hs
  obtain ⟨input,hi,hinput⟩ := forall₂_mem_right hof.inputs hin
  cases hinput with
  | @prior l' t' _ _ zatoshis tx' hparent =>
    obtain ⟨hlt,hparent⟩ := getElem?_of_take hparent
    have hcell := mem_entries.mp (List.mem_of_getElem? hentry)
    have hmem : PrepInput.prior l' t' o zatoshis ∈ consumed preparation.layers := by
      rw [consumed_eq_entries]
      exact List.mem_flatMap.mpr ⟨_,List.mem_of_getElem? hentry,hi⟩
    obtain ⟨tx'',hcell'',ho⟩ := (hsound.intermediate l' t' o zatoshis).mp hmem
    have hcell' := mem_entries.mp (List.mem_of_getElem? hparent)
    rw [hcell'] at hcell''
    cases hcell''
    have hplt : p < plan.stages.length := by
      have hp := (List.getElem?_eq_some_iff.mp hparent).1
      rw [h.length]
      exact hp
    obtain ⟨entry,hentry',hparentOf⟩ := h.stage p _ (List.getElem?_eq_getElem hplt)
    rw [hparent] at hentry'
    cases hentry'
    refine ⟨hlt,_,List.getElem?_eq_getElem hplt,?_,?_⟩
    · rw [hparentOf.layer,hof.layer]
      exact hsound.spent l t tx hcell _ hi
    · obtain ⟨output,houtput,hout⟩ := forall₂_getElem? (R := fun output prepOutput =>
        OutputOf prepOutput output) hparentOf.outputs.flip ho
      rw [houtput,hout.continuation]

theorem Translated.mem_spentOutputs {available : List Zatoshis}
    (h : Translated indices feePerStage fundingValues preparation plan)
    (hsound : preparation.Sound available) {s o : Nat} {stage : SplitStagePlan}
    {output : SplitStageOutput} (hs : plan.stages[s]? = some stage)
    (ho : stage.outputs[o]? = some output) :
    (s,o) ∈ plan.spentOutputs ↔ output.kind = .continuation := by
  rw [PaddedDenominationPlan.mem_spentOutputs]
  constructor
  · rintro ⟨value,hv⟩
    obtain ⟨child,hchild,hin⟩ := List.mem_flatMap.mp hv
    obtain ⟨c,hc⟩ := List.mem_iff_getElem?.mp hchild
    obtain ⟨_,parent,hparent,_,hout⟩ := h.prior hsound hc hin
    rw [hs] at hparent
    cases hparent
    rw [ho] at hout
    cases hout
    rfl
  · intro hk
    obtain ⟨⟨⟨l,t⟩,tx⟩,hentry,hof⟩ := h.stage s stage hs
    obtain ⟨prepOutput,hprep,hout⟩ := hof.output ho
    obtain ⟨value,rfl⟩ := hout.intermediate hk
    have hcell := mem_entries.mp (List.mem_of_getElem? hentry)
    have hmem := (hsound.intermediate l t o value).mpr ⟨tx,hcell,hprep⟩
    obtain ⟨stageInput,hi,hin⟩ := forall₂_mem_left h.inputs hmem
    cases hin with
    | @prior _ _ _ p _ tx' hp =>
      cases entries_functional hp hentry
      exact ⟨value.value,hi⟩

/-! ### Parts -/

private theorem assignments_eq {outputs : List SplitStageOutput}
    (h : ∀ output ∈ outputs, output.partIndex.isSome = true ↔ output.kind = .migration) :
    (outputs.filterMap SplitStageOutput.assignment).map (fun p => (some p.2,p.1)) =
      (outputs.filter (fun output => decide (output.kind = .migration))).map
        (fun output => (output.partIndex,output.value)) := by
  induction outputs with
  | nil => rfl
  | cons output outputs ih =>
    obtain ⟨hout,hrest⟩ := List.forall_mem_cons.mp h
    obtain ⟨value,kind,part⟩ := output
    cases part with
    | none =>
      have hk : kind ≠ .migration := fun hk => by simp [hk] at hout
      simpa [List.filterMap_cons,SplitStageOutput.assignment,hk] using ih hrest
    | some part =>
      have hk : kind = .migration := hout.mp rfl
      simpa [SplitStageOutput.assignment,hk] using ih hrest

theorem Translated.parts_of_funding {migrationFee : Nat} {values : List Nat}
    (h : Translated indices feePerStage (values.map (· + migrationFee)) preparation plan) :
    plan.assignedParts.Perm
      (values.zipIdx.map fun (value, part) => (some part,value + migrationFee)) := by
  have hparts := h.parts.map (fun p => (some p.2,p.1))
  have hkind : ∀ output ∈ plan.stageOutputs,
      output.partIndex.isSome = true ↔ output.kind = .migration := by
    intro output ho
    obtain ⟨prepOutput,_,hof⟩ := forall₂_mem_right h.outputs ho
    rw [hof.part,hof.kind]
  rw [List.map_append,List.map_map,← List.filterMap_flatMap,
    show plan.stages.flatMap SplitStagePlan.outputs = plan.stageOutputs from rfl,
    assignments_eq hkind,List.zipIdx_map,List.map_map] at hparts
  exact hparts.symm

/-! ### Value -/

def SplitStageInput.originalNote : SplitStageInput → Option (Nat × Nat)
  | .original inputIndex value => some (inputIndex, value)
  | .prior _ _ _ => none

def SplitStageInput.priorValue : SplitStageInput → Nat
  | .original _ _ => 0
  | .prior _ _ value => value

def PrepInput.priorValue : PrepInput → Nat
  | .wallet _ _ => 0
  | .prior _ _ _ value => value.value

def PrepOutput.intermediateValue : PrepOutput → Nat
  | .intermediate value => value.value
  | _ => 0

private theorem feedersOf_sum (l t : Nat) (tx : PrepTransaction) :
    ((feedersOf l t tx).map PrepInput.priorValue).sum =
      (tx.outputs.map PrepOutput.intermediateValue).sum := by
  have hfrom (f : PrepOutput × Nat → Option PrepInput)
      (hf : ∀ output n, ((f (output,n)).map PrepInput.priorValue).getD 0 = output.intermediateValue)
      (outputs : List PrepOutput) (n : Nat) :
      (((outputs.zipIdx n).filterMap f).map PrepInput.priorValue).sum =
        (outputs.map PrepOutput.intermediateValue).sum := by
    induction outputs generalizing n with
    | nil => rfl
    | cons output outputs ih =>
      have hoffer := hf output n
      rw [List.zipIdx_cons,List.filterMap_cons,List.map_cons,List.sum_cons,← ih (n + 1)]
      cases hfed : f (output,n) <;> simp [hfed] at hoffer ⊢ <;> omega
  refine hfrom _ ?_ tx.outputs 0
  intro output n
  cases output <;> rfl

theorem PreparationPlan.Sound.prior_sum {available : List Zatoshis}
    (h : preparation.Sound available) :
    ((consumed preparation.layers).map PrepInput.priorValue).sum =
      ((preparation.layers.flatten.flatMap PrepTransaction.outputs).map
        PrepOutput.intermediateValue).sum := by
  have hperm : ((consumed preparation.layers).filter (fun input => input.priorCoordinate.isSome)).Perm
      (intermediateRefs preparation.layers) := by
    rw [List.perm_ext_iff_of_nodup (h.nodup.filter _) (intermediateRefs_nodup _)]
    intro input
    rw [List.mem_filter,mem_intermediateRefs]
    constructor
    · rintro ⟨hi,hprior⟩
      cases input with
      | wallet i v => cases hprior
      | prior l t o v =>
        obtain ⟨tx,htx,ho⟩ := (h.intermediate l t o v).mp hi
        exact ⟨l,t,tx,htx,mem_feedersOf.mpr ⟨o,v,ho,rfl⟩⟩
    · rintro ⟨l,t,tx,htx,hf⟩
      obtain ⟨o,v,ho,rfl⟩ := mem_feedersOf.mp hf
      exact ⟨(h.intermediate l t o v).mpr ⟨tx,htx,ho⟩,rfl⟩
  have hfilter : ((consumed preparation.layers).map PrepInput.priorValue).sum =
      (((consumed preparation.layers).filter (fun input => input.priorCoordinate.isSome)).map
        PrepInput.priorValue).sum := by
    rw [sum_map_filter]
    congr 1
    refine List.map_congr_left fun input _ => ?_
    cases input <;> rfl
  have hrefs := Grid.map_flatten_mapIdx (f := feedersOf)
    (h := fun refs => (refs.map PrepInput.priorValue).sum)
    (k := fun tx => (tx.outputs.map PrepOutput.intermediateValue).sum) feedersOf_sum
    preparation.layers
  rw [hfilter,(hperm.map _).sum_eq,intermediateRefs,← List.flatMap_id,sum_flatMap_map,
    sum_flatMap_map]
  simpa using congrArg List.sum hrefs

theorem Translated.stage_value (h : Translated indices feePerStage fundingValues preparation plan) :
    ∀ stage ∈ plan.stages, stage.fee = feePerStage ∧
      (stage.inputs.map SplitStageInput.value).sum =
        (stage.outputs.map SplitStageOutput.value).sum + stage.fee := by
  intro stage hs
  obtain ⟨entry,_,hof⟩ := forall₂_mem_right h.entries_stages hs
  exact ⟨hof.fee,hof.conserved⟩

theorem Translated.stages_balance
    (h : Translated indices feePerStage fundingValues preparation plan) :
    (plan.stageInputs.map SplitStageInput.value).sum =
      (plan.stageOutputs.map SplitStageOutput.value).sum + feePerStage * plan.stages.length := by
  have hall := h.stage_value
  unfold PaddedDenominationPlan.stageInputs PaddedDenominationPlan.stageOutputs
  generalize plan.stages = stages at hall
  induction stages with
  | nil => rfl
  | cons stage stages ih =>
    obtain ⟨⟨hfee,hstage⟩,hrest⟩ := List.forall_mem_cons.mp hall
    have ih := ih hrest
    simp only [List.flatMap_cons,List.map_append,List.sum_append,List.length_cons]
    rw [Nat.mul_add]
    omega

theorem Translated.length_eq (h : Translated indices feePerStage fundingValues preparation plan) :
    plan.stages.length = preparation.transactionCount := by
  rw [h.length,PreparationPlan.transactionCount,← List.length_flatten,← entries_map_snd,
    List.length_map]

private theorem kinds_sum (outputs : List SplitStageOutput) :
    (outputs.map SplitStageOutput.value).sum =
      ((outputs.filter (fun output => decide (output.kind = .migration))).map
        SplitStageOutput.value).sum +
      ((outputs.filter (fun output => decide (output.kind = .orchardChange))).map
        SplitStageOutput.value).sum +
      ((outputs.filter (fun output => decide (output.kind = .continuation))).map
        SplitStageOutput.value).sum := by
  induction outputs with
  | nil => rfl
  | cons output outputs ih =>
    obtain ⟨value,kind,part⟩ := output
    cases kind <;> simp [ih] <;> omega

private theorem originals_sum (inputs : List SplitStageInput) :
    (inputs.map SplitStageInput.value).sum =
      ((inputs.filterMap SplitStageInput.originalNote).map Prod.snd).sum +
        (inputs.map SplitStageInput.priorValue).sum := by
  induction inputs with
  | nil => rfl
  | cons input inputs ih =>
    cases input <;>
      simp [List.filterMap_cons,ih,SplitStageInput.originalNote,SplitStageInput.priorValue,
        SplitStageInput.value] <;>
      omega

theorem Translated.continuation_sum {available : List Zatoshis}
    (h : Translated indices feePerStage fundingValues preparation plan)
    (hsound : preparation.Sound available) :
    ((plan.outputsOfKind .continuation).map SplitStageOutput.value).sum =
      (plan.stageInputs.map SplitStageInput.priorValue).sum := by
  have hin : plan.stageInputs.map SplitStageInput.priorValue =
      (consumed preparation.layers).map PrepInput.priorValue :=
    forall₂_map_eq h.inputs fun _ _ hof => by cases hof <;> rfl
  have hout : plan.stageOutputs.map (fun output =>
      if decide (output.kind = .continuation) then output.value else 0) =
      (preparation.layers.flatten.flatMap PrepTransaction.outputs).map
        PrepOutput.intermediateValue :=
    forall₂_map_eq h.outputs fun prepOutput output hof => by
      rw [hof.kind,hof.value]
      cases prepOutput <;> rfl
  rw [PaddedDenominationPlan.outputsOfKind,sum_map_filter,hout,hin,hsound.prior_sum]

variable {sort : NoteSort} {context : PlanningContext} {inputValues : List Nat}
  {migrationFee minimumOutput : Nat}

/-- Index and value of every wallet note the plan spends. -/
def PaddedDenominationPlan.usedNotes (plan : PaddedDenominationPlan) : List (Nat × Nat) :=
  plan.directMigrationInputs.map (fun input => (input.inputIndex, input.value)) ++
    plan.stageInputs.filterMap SplitStageInput.originalNote

theorem PaddedDenominationPlan.usedNotes_map_fst (plan : PaddedDenominationPlan) :
    plan.usedNotes.map Prod.fst = plan.usedInputs := by
  rw [usedNotes,usedInputs,List.map_append,List.map_map,List.map_filterMap]
  congr 1
  refine List.filterMap_congr fun input _ => ?_
  cases input <;> rfl

theorem Translated.direct_value
    (h : Translated (positiveIndices inputValues) feePerStage fundingValues preparation plan)
    (hcontext : context.Of inputValues) (hsound : preparation.Sound context.available) :
    ∀ input ∈ plan.directMigrationInputs, inputValues[input.inputIndex]? = some input.value := by
  intro input hi
  obtain ⟨inputs,hperm,hall⟩ := h.direct
  obtain ⟨p,hp,hindex,hvalue⟩ := forall₂_mem_right hall (hperm.mem_iff.mpr hi)
  have hav : (context.available.map Zatoshis.value)[p.1]? = some p.2.value := by
    rw [List.getElem?_map,hsound.direct p hp,Option.map_some]
  rw [hvalue]
  exact positive_note hindex (hcontext.available ▸ hav)

theorem Translated.original_value
    (h : Translated (positiveIndices inputValues) feePerStage fundingValues preparation plan)
    (hcontext : context.Of inputValues) (hsound : preparation.Sound context.available)
    {index value : Nat} (hi : .original index value ∈ plan.stageInputs) :
    inputValues[index]? = some value := by
  obtain ⟨input,hin,hof⟩ := forall₂_mem_right h.inputs hi
  cases hof with
  | @wallet k _ zatoshis hindex =>
    have hav : (context.available.map Zatoshis.value)[k]? = some zatoshis.value := by
      rw [List.getElem?_map,(hsound.wallet k zatoshis hin).1,Option.map_some]
    exact positive_note hindex (hcontext.available ▸ hav)

theorem Translated.usedNotes_value
    (h : Translated (positiveIndices inputValues) feePerStage fundingValues preparation plan)
    (hcontext : context.Of inputValues) (hsound : preparation.Sound context.available) :
    ∀ p ∈ plan.usedNotes, inputValues[p.1]? = some p.2 := by
  intro p hp
  rcases List.mem_append.mp hp with hp | hp
  · obtain ⟨input,hi,rfl⟩ := List.mem_map.mp hp
    exact h.direct_value hcontext hsound input hi
  · obtain ⟨input,hi,hp⟩ := List.mem_filterMap.mp hp
    cases input with
    | original index value =>
      cases hp
      exact h.original_value hcontext hsound hi
    | prior s o value => cases hp

theorem Translated.usedInputs_nodup {available : List Zatoshis}
    (h : Translated (positiveIndices inputValues) feePerStage fundingValues preparation plan)
    (hsound : preparation.Sound available) : plan.usedInputs.Nodup := by
  rw [plan.usedInputs_eq]
  exact (h.sources_nodup hsound (positiveIndices_nodup inputValues)).filterMap getLeft?_injective

theorem Translated.value_balance
    (h : Translated (positiveIndices inputValues) feePerStage fundingValues preparation plan)
    (hcontext : context.Of inputValues) (hsound : preparation.Sound context.available) :
    ((plan.outputsOfKind .orchardChange).map SplitStageOutput.value).sum +
      (plan.unusedValues inputValues).sum + fundingValues.sum +
        feePerStage * preparation.transactionCount = context.totalInputZatoshi := by
  have hused := sum_picked_add_rest inputValues plan.usedNotes
    (by rw [plan.usedNotes_map_fst]; exact h.usedInputs_nodup hsound)
    (h.usedNotes_value hcontext hsound)
  rw [plan.usedNotes_map_fst] at hused
  have hnotes : (plan.usedNotes.map Prod.snd).sum =
      (plan.directMigrationInputs.map DirectMigrationInput.value).sum +
        ((plan.stageInputs.filterMap SplitStageInput.originalNote).map Prod.snd).sum := by
    rw [PaddedDenominationPlan.usedNotes,List.map_append,List.sum_append,List.map_map]
    rfl
  have hfunding : fundingValues.sum =
      (plan.directMigrationInputs.map DirectMigrationInput.value).sum +
        ((plan.outputsOfKind .migration).map SplitStageOutput.value).sum := by
    have hkind : ∀ output ∈ plan.stageOutputs,
        output.partIndex.isSome = true ↔ output.kind = .migration := by
      intro output ho
      obtain ⟨prepOutput,_,hof⟩ := forall₂_mem_right h.outputs ho
      rw [hof.part,hof.kind]
    have hparts := (h.parts.map Prod.fst).sum_eq
    have hassigned := congrArg (List.map Prod.snd) (assignments_eq hkind)
    rw [List.map_map,List.map_map] at hassigned
    rw [List.zipIdx_map_fst,List.map_append,List.sum_append,List.map_map,
      ← List.filterMap_flatMap] at hparts
    exact hparts.trans (congrArg _ (congrArg List.sum hassigned))
  have hstages := h.stages_balance
  have hinputs := originals_sum plan.stageInputs
  have houtputs := kinds_sum plan.stageOutputs
  have hprior := h.continuation_sum hsound
  have hcount := h.length_eq
  have htotal := hcontext.total
  rw [hcount] at hstages
  simp only [PaddedDenominationPlan.outputsOfKind,PaddedDenominationPlan.unusedValues] at *
  omega

theorem finishPlan_sound {selection : Selection} (hcontext : context.Of inputValues)
    (hfits : selection.Fits sort context feePerStage migrationFee)
    (h : finishPlan context selection feePerStage migrationFee 1 = .ok (some plan)) :
    plan.Sound inputValues feePerStage migrationFee := by
  obtain ⟨hfunding,hsound⟩ := hfits.funding
  simp only [finishPlan] at h
  split at h
  · cases h
  split at h
  · cases h
  obtain ⟨splitFee,hfee,h⟩ := bind_ok h
  obtain ⟨fundingTotal,htotal,h⟩ := bind_ok h
  obtain ⟨remaining,hremaining,h⟩ := bind_ok h
  obtain ⟨totalMigratable,_,h⟩ := bind_ok h
  obtain ⟨translated,htranslated,h⟩ := bind_ok h
  cases h
  obtain ⟨hdenominations,htranslated⟩ := translatePreparationPlan_ok htranslated
  -- The sorted pairs still pair each crossing with its own funding note.
  have hpairs : ((selection.crossingValues.zip selection.fundingValues).insertionSort
      (fun a b => b.1 ≤ a.1)).map Prod.snd =
      (((selection.crossingValues.zip selection.fundingValues).insertionSort
        (fun a b => b.1 ≤ a.1)).map Prod.fst).map (· + migrationFee) := by
    rw [List.map_map]
    refine List.map_congr_left fun p hp => ?_
    rw [List.mem_insertionSort,hfunding,← List.map_prod_left_eq_zip] at hp
    obtain ⟨c,_,rfl⟩ := List.mem_map.mp hp
    rfl
  rw [hcontext.indices] at htranslated
  have hbalance := htranslated.value_balance hcontext hsound
  rw [hpairs] at htranslated
  refine ⟨htranslated.usedInputs_nodup hsound,htranslated.direct_value hcontext hsound,
    fun _ _ hi => htranslated.original_value hcontext hsound hi,
    fun _ _ _ _ _ hs hin => htranslated.prior hsound hs hin,?_,?_,?_,htranslated.stage_value,?_⟩
  · intro s stage o output hs ho
    have hnodup : plan.spentOutputs.Nodup := by
      rw [plan.spentOutputs_eq]
      exact (htranslated.sources_nodup hsound (positiveIndices_nodup inputValues)).filterMap
        getRight?_injective
    have hmem := htranslated.mem_spentOutputs hsound hs ho
    split
    · exact List.count_eq_one_of_mem hnodup (hmem.mpr ‹_›)
    · exact List.count_eq_zero_of_not_mem (fun hin => absurd (hmem.mp hin) ‹_›)
  · rw [hdenominations]
    exact htranslated.parts_of_funding
  · intro stage hs
    obtain ⟨entry,_,hof⟩ := forall₂_mem_right htranslated.entries_stages hs
    exact hof.actions
  · have hfee := checkedMul_eq_some (okOr_ok hfee)
    have htotal := checkedSum_ok htotal
    obtain ⟨afterFunding,hafter,hremaining⟩ := Option.bind_eq_some_iff.mp (okOr_ok hremaining)
    obtain ⟨_,hafter⟩ := checkedSub_eq_some hafter
    obtain ⟨_,hremaining⟩ := checkedSub_eq_some hremaining
    rw [hdenominations]
    simp only
    split
    · rw [Option.getD_some]
      omega
    · rw [Option.getD_none]
      omega

/-- Whatever the refiner draws, and for every approved list of targets, a plan is sound. -/
theorem paddedDenominationPlan_sound {σ : Type} (refine : Nat → σ → DenominationRefinement × σ)
    (state : σ) (sort : NoteSort) (inputValues targetValues : List Nat)
    (feePerStage migrationFee minimumOutput : Nat) (plan : PaddedDenominationPlan)
    (h : planPaddedDenominationsWithRefiner refine state sort inputValues feePerStage migrationFee
        minimumOutput = .ok (some plan) ∨
      planPaddedDenominationsForTargets sort inputValues targetValues feePerStage migrationFee
        minimumOutput = .ok (some plan)) :
    plan.Sound inputValues feePerStage migrationFee := by
  rcases h with h | h
  · obtain ⟨answer,hanswer,h⟩ := bind_ok h
    split at h
    · cases h
    rename_i context
    obtain ⟨minimumNote,_,h⟩ := bind_ok h
    obtain ⟨selection,hloop,h⟩ := bind_ok h
    obtain ⟨hcontext,rfl,_⟩ := planningContext_ok hanswer
    rcases planLoop_fits hloop with hempty | hfits
    · rw [finishPlan,if_pos hempty] at h
      cases h
    · exact finishPlan_sound hcontext hfits h
  · unfold planPaddedDenominationsForTargets at h
    split at h
    · cases h
    split at h
    · cases h
    split at h
    · cases h
    obtain ⟨answer,hanswer,h⟩ := bind_ok h
    split at h
    · cases h
    rename_i context
    obtain ⟨answer,hprep,h⟩ := bind_ok h
    split at h
    · cases h
    obtain ⟨append,_,h⟩ := bind_ok h
    split at h
    · cases h
    obtain ⟨hcontext,rfl,_⟩ := planningContext_ok hanswer
    have hfits : Selection.Fits sort context feePerStage migrationFee ⟨targetValues,_,_⟩ := hprep
    exact finishPlan_sound hcontext hfits h

/-- Four fragments are merged in a first layer and split in a second one. -/
def fragmentedPlan : PaddedDenominationPlan where
  denominations := ⟨[2000000], some 640000, 160000, 15000, 2815000, 2000000⟩
  stages := [
    ⟨0, [.original 4 1015000, .original 0 600000, .original 2 600000, .original 3 600000],
      [⟨2735000, .continuation, none⟩], 80000, 5⟩,
    ⟨1, [.prior 0 0 2735000],
      [⟨2015000, .migration, some 0⟩, ⟨640000, .orchardChange, none⟩], 80000, 3⟩]
  layerCount := 2
  directMigrationInputs := []

theorem fragmentedPlan_sound :
    fragmentedPlan.Sound [600000, 0, 600000, 600000, 1015000] 80000 15000 :=
  paddedDenominationPlan_sound (refineDenomination aggressiveRefinementPolicy) (fun _ => 0)
    insertionNoteSort [600000, 0, 600000, 600000, 1015000] [2000000] 80000 15000 1 fragmentedPlan
    (.inl (by decide +kernel))

end CoppiceWallet.Planner
