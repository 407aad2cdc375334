import CoppiceWallet.Store.Reorg

/-!
# The heights of the preparation transactions

The transactions of a layer spend outputs of the layer before, so a layer starts when the one before
it is confirmed. The generator is used anew for each layer, and the required confirmations are a
parameter.
-/

namespace CoppiceWallet.Store

open CoppiceWallet.Lib

/-- The stages of a layer, in their order. -/
def stagesOfLayer (stageLayers : List Nat) (layerIndex : Nat) : List Nat :=
  stageLayers.zipIdx.filterMap fun p => if p.1 = layerIndex then some p.2 else none

def nextScheduledHeight (preparationPolicy : PreparationTimingPolicy)
    (scheduledHeight delay : Nat) : StoreResult Nat :=
  if preparationPolicy = .zip318Spaced then
    okOr (checkedAddU32 scheduledHeight delay) "Migration preparation scheduled height overflow"
  else .ok scheduledHeight

/-- Give the stages of a layer their heights, each a delay after the one before it. -/
def scheduleStages (preparationPolicy : PreparationTimingPolicy) (delay : Nat → Nat) :
    Nat → Nat → List Nat → List Nat → StoreResult (Nat × List Nat)
  | _, scheduledHeight, [], heights => .ok (scheduledHeight, heights)
  | draw, scheduledHeight, stageIndex :: stageIndices, heights => do
    let scheduledHeight ← nextScheduledHeight preparationPolicy scheduledHeight (delay draw)
    scheduleStages preparationPolicy delay (draw + 1) scheduledHeight stageIndices
      (heights.set stageIndex scheduledHeight)

section Schedule

variable (rngs : Nat → Rng) (network : WalletNetwork) (preparationPolicy : PreparationTimingPolicy)
  (timingPolicy : MigrationTimingPolicy) (confirmationsRequired : Nat)

/-- Give each of the remaining layers its heights. -/
def scheduleLayers (stageLayers : List Nat) : Nat → Nat → Nat → List Nat → StoreResult (List Nat)
  | 0, _, _, heights => .ok heights
  | remaining + 1, layerIndex, layerBase, heights => do
    let stageIndices := stagesOfLayer stageLayers layerIndex
    if stageIndices.isEmpty then
      .error ("Migration preparation schedule is missing layer " ++ toString layerIndex)
    else
      let stageIndices :=
        if preparationPolicy = .zip318Spaced then (rngs layerIndex).shuffle stageIndices
        else stageIndices
      let (meanDelayBlocks, maxDelayBlocks) := preparationScheduleParametersForTransactionCount
        network timingPolicy stageLayers.length
      let (scheduledHeight, heights) ← scheduleStages preparationPolicy
        (fun draw => (rngs layerIndex).delay draw meanDelayBlocks maxDelayBlocks) 0 layerBase
        stageIndices heights
      let layerBase ← okOr (checkedAddU32 scheduledHeight confirmationsRequired)
        "Migration preparation layer height overflow"
      scheduleLayers stageLayers remaining (layerIndex + 1) layerBase heights

def plannedPreparationScheduledHeights (targetHeight : Nat) (stageLayers : List Nat) :
    StoreResult (List Nat) :=
  match stageLayers.max? with
  | none => .ok []
  | some lastLayer =>
    scheduleLayers rngs network preparationPolicy timingPolicy confirmationsRequired stageLayers
      (lastLayer + 1) 0 (targetHeight - 1) (List.replicate stageLayers.length 0)

end Schedule

theorem mem_stagesOfLayer {stageLayers : List Nat} {layerIndex i : Nat} :
    i ∈ stagesOfLayer stageLayers layerIndex ↔ stageLayers[i]? = some layerIndex := by
  rw [stagesOfLayer,List.mem_filterMap]
  constructor
  · intro ⟨p,hp,hi⟩
    split at hi
    · rename_i heq
      cases hi
      rw [← heq]
      exact List.mem_zipIdx_iff_getElem?.mp hp
    · cases hi
  · intro h
    exact ⟨(layerIndex,i),List.mem_zipIdx_iff_getElem?.mpr h,if_pos rfl⟩

theorem nextScheduledHeight_ok {preparationPolicy : PreparationTimingPolicy}
    {height delay next : Nat} (h : nextScheduledHeight preparationPolicy height delay = .ok next) :
    height ≤ next ∧ next ≤ height + delay := by
  rw [nextScheduledHeight] at h
  split at h
  · have := (checkedAddU32_eq_some.mp (okOr_ok h)).1
    omega
  · cases h
    omega

theorem nextScheduledHeight_error {preparationPolicy : PreparationTimingPolicy}
    {height delay : Nat} {e : String}
    (h : nextScheduledHeight preparationPolicy height delay = .error e) :
    e = "Migration preparation scheduled height overflow" ∧ u32Limit ≤ height + delay := by
  rw [nextScheduledHeight] at h
  split at h
  · refine ⟨okOr_error h,?_⟩
    by_contra hlt
    rw [checkedAddU32,if_pos (by omega)] at h
    cases h
  · cases h

/-- What the stages of a layer are given, the others keeping theirs. -/
structure LayerHeights (stageIndices : List Nat) (first last : Nat) (heights heights' : List Nat) :
    Prop where
  le : first ≤ last
  length : heights'.length = heights.length
  given : ∀ i h : Nat, i ∈ stageIndices → heights'[i]? = some h → first ≤ h ∧ h ≤ last
  kept : ∀ i : Nat, i ∉ stageIndices → heights'[i]? = heights[i]?

theorem scheduleStages_ok {preparationPolicy : PreparationTimingPolicy} {delay : Nat → Nat}
    {draw first last : Nat} {stageIndices heights heights' : List Nat}
    (h : scheduleStages preparationPolicy delay draw first stageIndices heights =
      .ok (last,heights')) : LayerHeights stageIndices first last heights heights' := by
  induction stageIndices generalizing draw first heights with
  | nil =>
    cases h
    exact ⟨le_rfl,rfl,fun _ _ hmem => absurd hmem List.not_mem_nil,fun _ _ => rfl⟩
  | cons stage stages ih =>
    rw [scheduleStages] at h
    obtain ⟨height,hheight,hrest⟩ := bind_ok h
    have hle := (nextScheduledHeight_ok hheight).1
    have hall := ih hrest
    constructor
    · exact hle.trans hall.le
    · rw [hall.length,List.length_set]
    · intro i h hi hgiven
      by_cases hlater : i ∈ stages
      · have hbetween := hall.given i h hlater hgiven
        exact ⟨hle.trans hbetween.1,hbetween.2⟩
      · have hstage : i = stage := by simpa [hlater] using hi
        subst hstage
        rw [hall.kept i hlater,List.getElem?_set_self'] at hgiven
        obtain ⟨_,_,rfl⟩ := Option.map_eq_some_iff.mp hgiven
        exact ⟨hle,hall.le⟩
    · intro i hi
      rw [List.mem_cons,not_or] at hi
      rw [hall.kept i hi.2,List.getElem?_set_ne (Ne.symm hi.1)]

theorem scheduleStages_le {preparationPolicy : PreparationTimingPolicy} {delay : Nat → Nat}
    {draw first last bound : Nat} {stageIndices heights heights' : List Nat}
    (hdelay : ∀ draw, delay draw ≤ bound)
    (h : scheduleStages preparationPolicy delay draw first stageIndices heights =
      .ok (last,heights')) : last ≤ first + stageIndices.length * bound := by
  induction stageIndices generalizing draw first heights with
  | nil =>
    cases h
    exact Nat.le_add_right ..
  | cons stage stages ih =>
    rw [scheduleStages] at h
    obtain ⟨height,hheight,hrest⟩ := bind_ok h
    have hnext := (nextScheduledHeight_ok hheight).2
    have hlast := ih hrest
    have := hdelay draw
    rw [List.length_cons,Nat.add_mul,Nat.one_mul]
    omega

theorem scheduleStages_error {preparationPolicy : PreparationTimingPolicy} {delay : Nat → Nat}
    {draw first bound : Nat} {stageIndices heights : List Nat} {e : String}
    (hdelay : ∀ draw, delay draw ≤ bound)
    (h : scheduleStages preparationPolicy delay draw first stageIndices heights = .error e) :
    e = "Migration preparation scheduled height overflow" ∧
      u32Limit ≤ first + stageIndices.length * bound := by
  induction stageIndices generalizing draw first heights with
  | nil => cases h
  | cons stage stages ih =>
    rw [scheduleStages] at h
    have hbound := hdelay draw
    rw [List.length_cons,Nat.add_mul,Nat.one_mul]
    cases hnext : nextScheduledHeight preparationPolicy first (delay draw) with
    | error e' =>
      rw [hnext] at h
      cases h
      have hover := nextScheduledHeight_error hnext
      exact ⟨hover.1,by omega⟩
    | ok height =>
      rw [hnext,ok_bind] at h
      have hle := (nextScheduledHeight_ok hnext).2
      have hover := ih h
      exact ⟨hover.1,by omega⟩

/-- The layers below `layer` have their heights, and the next one starts at the base. -/
structure Layered (stageLayers : List Nat) (confirmationsRequired start layer base : Nat)
    (heights : List Nat) : Prop where
  start_le : start ≤ base
  length : heights.length = stageLayers.length
  above : ∀ i k h : Nat, stageLayers[i]? = some k → k < layer → heights[i]? = some h →
    start ≤ h ∧ (k + 1 = layer → h + confirmationsRequired ≤ base)
  spaced : ∀ i j k h h' : Nat, stageLayers[i]? = some k → stageLayers[j]? = some (k + 1) →
    k + 1 < layer → heights[i]? = some h → heights[j]? = some h' → h + confirmationsRequired ≤ h'

theorem Layered.next {stageLayers stageIndices heights heights' : List Nat}
    {confirmationsRequired start layer base last : Nat}
    (h : Layered stageLayers confirmationsRequired start layer base heights)
    (hmem : ∀ i, i ∈ stageIndices ↔ stageLayers[i]? = some layer)
    (hlayer : LayerHeights stageIndices base last heights heights') :
    Layered stageLayers confirmationsRequired start (layer + 1) (last + confirmationsRequired)
      heights' := by
  have hold : ∀ i k : Nat, stageLayers[i]? = some k → k < layer → heights'[i]? = heights[i]? := by
    intro i k hk hlt
    apply hlayer.kept
    intro hi
    rw [(hmem i).mp hi] at hk
    cases hk
    exact lt_irrefl _ hlt
  have hstart := h.start_le
  have hle := hlayer.le
  constructor
  · omega
  · rw [hlayer.length,h.length]
  · intro i k height hk hlt hheight
    rcases Nat.lt_succ_iff_lt_or_eq.mp hlt with hlower | rfl
    · rw [hold i k hk hlower] at hheight
      exact ⟨(h.above i k height hk hlower hheight).1,by omega⟩
    · have := hlayer.given i height ((hmem i).mpr hk) hheight
      exact ⟨by omega,fun _ => by omega⟩
  · intro i j k height height' hk hk' hlt hheight hheight'
    rw [hold i k hk (by omega)] at hheight
    rcases Nat.lt_succ_iff_lt_or_eq.mp hlt with hlower | rfl
    · rw [hold j (k + 1) hk' hlower] at hheight'
      exact h.spaced i j k height height' hk hk' hlower hheight hheight'
    · have hbase := (h.above i k height hk (by omega) hheight).2 rfl
      have := (hlayer.given j height' ((hmem j).mpr hk') hheight').1
      omega

section Runs

variable {rngs : Nat → Rng} {network : WalletNetwork}
  {preparationPolicy : PreparationTimingPolicy} {timingPolicy : MigrationTimingPolicy}
  {confirmationsRequired : Nat} {stageLayers : List Nat}

theorem stagesOfLayer_shuffled (rng : Rng) (preparationPolicy : PreparationTimingPolicy)
    (stageLayers : List Nat) (layer : Nat) :
    (if preparationPolicy = .zip318Spaced then rng.shuffle (stagesOfLayer stageLayers layer)
      else stagesOfLayer stageLayers layer).Perm (stagesOfLayer stageLayers layer) := by
  split
  · exact rng.shuffle_perm _
  · exact .refl _

theorem stagesOfLayer_length (stageLayers : List Nat) (layer : Nat) :
    (stagesOfLayer stageLayers layer).length ≤ stageLayers.length := by
  have := List.length_filterMap_le
    (fun p : Nat × Nat => if p.1 = layer then some p.2 else none) stageLayers.zipIdx
  rwa [List.length_zipIdx] at this

theorem scheduleLayers_ok {remaining layer start base : Nat} {heights heights' : List Nat}
    (hlayered : Layered stageLayers confirmationsRequired start layer base heights)
    (h : scheduleLayers rngs network preparationPolicy timingPolicy confirmationsRequired stageLayers
      remaining layer base heights = .ok heights') :
    ∃ base', Layered stageLayers confirmationsRequired start (layer + remaining) base' heights' := by
  induction remaining generalizing layer base heights with
  | zero =>
    cases h
    exact ⟨base,hlayered⟩
  | succ remaining ih =>
    rw [scheduleLayers] at h
    dsimp only at h
    split at h
    · cases h
    · obtain ⟨⟨last,heights'⟩,hstages,h⟩ := bind_ok h
      obtain ⟨base',hbase,h⟩ := bind_ok h
      obtain ⟨rfl,_⟩ := checkedAddU32_eq_some.mp (okOr_ok hbase)
      have hnext := hlayered.next (fun i => (stagesOfLayer_shuffled ..).mem_iff.trans mem_stagesOfLayer)
        (scheduleStages_ok hstages)
      rw [Nat.add_comm remaining,← Nat.add_assoc]
      exact ih hnext h

/-- What a layer adds to the height at most. -/
def layerSpan (network : WalletNetwork) (timingPolicy : MigrationTimingPolicy)
    (confirmationsRequired transactionCount : Nat) : Nat :=
  transactionCount * (preparationScheduleParametersForTransactionCount network timingPolicy
    transactionCount).2 + confirmationsRequired

theorem scheduleLayers_error {remaining layer base : Nat} {heights : List Nat} {e : String}
    (hinhabited : ∀ k, layer ≤ k → k < layer + remaining → k ∈ stageLayers)
    (h : scheduleLayers rngs network preparationPolicy timingPolicy confirmationsRequired stageLayers
      remaining layer base heights = .error e) :
    (e = "Migration preparation scheduled height overflow" ∨
      e = "Migration preparation layer height overflow") ∧
    u32Limit ≤ base + remaining *
      layerSpan network timingPolicy confirmationsRequired stageLayers.length := by
  induction remaining generalizing layer base heights with
  | zero => cases h
  | succ remaining ih =>
    obtain ⟨i,hi⟩ := List.mem_iff_getElem?.mp (hinhabited layer le_rfl (by omega))
    have hmem := mem_stagesOfLayer.mpr hi
    have hnonempty : ¬(stagesOfLayer stageLayers layer).isEmpty = true := by
      rw [List.isEmpty_iff]
      exact List.ne_nil_of_mem hmem
    have hcount := (stagesOfLayer_shuffled (rngs layer) preparationPolicy stageLayers
      layer).length_eq
    have hspan := Nat.mul_le_mul_right (preparationScheduleParametersForTransactionCount network
      timingPolicy stageLayers.length).2 (stagesOfLayer_length stageLayers layer)
    rw [Nat.add_mul,Nat.one_mul]
    rw [scheduleLayers] at h
    dsimp only at h
    rw [if_neg hnonempty] at h
    cases hstages : scheduleStages preparationPolicy
      (fun draw => (rngs layer).delay draw
        (preparationScheduleParametersForTransactionCount network timingPolicy stageLayers.length).1
        (preparationScheduleParametersForTransactionCount network timingPolicy stageLayers.length).2)
      0 base
      (if preparationPolicy = .zip318Spaced then
        (rngs layer).shuffle (stagesOfLayer stageLayers layer)
      else stagesOfLayer stageLayers layer) heights with
    | error e' =>
      rw [hstages] at h
      cases h
      have hover := scheduleStages_error (fun draw => (rngs layer).delay_le draw _ _) hstages
      rw [hcount] at hover
      refine ⟨.inl hover.1,?_⟩
      rw [layerSpan]
      omega
    | ok result =>
      have hlast := scheduleStages_le (fun draw => (rngs layer).delay_le draw _ _) hstages
      rw [hcount] at hlast
      rw [hstages,ok_bind] at h
      cases hbase : checkedAddU32 result.1 confirmationsRequired with
      | none =>
        rw [hbase] at h
        cases h
        refine ⟨.inr rfl,?_⟩
        rw [layerSpan]
        by_contra hlt
        rw [checkedAddU32,if_pos (by omega)] at hbase
        cases hbase
      | some base' =>
        rw [hbase,okOr_some,ok_bind] at h
        obtain ⟨hsum,_⟩ := checkedAddU32_eq_some.mp hbase
        have hover := ih (fun k hge hlt => hinhabited k (by omega) (by omega)) h
        refine ⟨hover.1,?_⟩
        rw [layerSpan] at hover ⊢
        omega

end Runs

/-- When every layer up to the last has a stage, a layer is scheduled the required confirmations
after all of the layer before, nothing before the target height is reached, and only heights that
are too large make the schedule fail. -/
theorem plannedPreparationScheduledHeights_layered (rngs : Nat → Rng) (network : WalletNetwork)
    (preparationPolicy : PreparationTimingPolicy) (timingPolicy : MigrationTimingPolicy)
    (confirmationsRequired targetHeight : Nat) (stageLayers : List Nat)
    (hinhabited : ∀ top ∈ stageLayers, ∀ k ≤ top, k ∈ stageLayers) :
    (∀ heights, plannedPreparationScheduledHeights rngs network preparationPolicy timingPolicy
        confirmationsRequired targetHeight stageLayers = .ok heights →
      heights.length = stageLayers.length ∧
      (∀ i h : Nat, heights[i]? = some h → targetHeight - 1 ≤ h) ∧
      ∀ i j k h h' : Nat, stageLayers[i]? = some k → stageLayers[j]? = some (k + 1) →
        heights[i]? = some h → heights[j]? = some h' → h + confirmationsRequired ≤ h') ∧
    ∀ e, plannedPreparationScheduledHeights rngs network preparationPolicy timingPolicy
        confirmationsRequired targetHeight stageLayers = .error e →
      (e = "Migration preparation scheduled height overflow" ∨
        e = "Migration preparation layer height overflow") ∧
      ∃ lastLayer ∈ stageLayers, u32Limit ≤ targetHeight - 1 + (lastLayer + 1) *
        layerSpan network timingPolicy confirmationsRequired stageLayers.length := by
  rw [plannedPreparationScheduledHeights]
  cases hlast : stageLayers.max? with
  | none =>
    rw [List.max?_eq_none_iff] at hlast
    subst hlast
    simp
  | some lastLayer =>
    obtain ⟨hmem,hmax⟩ := List.max?_eq_some_iff.mp hlast
    constructor
    · intro heights h
      have hstart : Layered stageLayers confirmationsRequired (targetHeight - 1) 0
          (targetHeight - 1) (List.replicate stageLayers.length 0) :=
        ⟨le_rfl,List.length_replicate,fun _ _ _ _ hlt => absurd hlt (Nat.not_lt_zero _),
          fun _ _ _ _ _ _ _ hlt => absurd hlt (Nat.not_lt_zero _)⟩
      obtain ⟨base,hall⟩ := scheduleLayers_ok hstart h
      have hlt : ∀ i k : Nat, stageLayers[i]? = some k → k < 0 + (lastLayer + 1) := by
        intro i k hk
        have := hmax k (List.mem_of_getElem? hk)
        omega
      refine ⟨hall.length,?_,?_⟩
      · intro i height hheight
        obtain ⟨hi,_⟩ := List.getElem?_eq_some_iff.mp hheight
        have hk := List.getElem?_eq_getElem (hall.length ▸ hi)
        exact (hall.above i _ height hk (hlt i _ hk) hheight).1
      · intro i j k height height' hk hk'
        exact hall.spaced i j k height height' hk hk' (hlt j _ hk')
    · intro e h
      have hover := scheduleLayers_error
        (fun k _ hk => hinhabited lastLayer hmem k (by omega)) h
      exact ⟨hover.1,lastLayer,hmem,hover.2⟩

/-- Two stages and, three confirmations later, the stage that spends their outputs. -/
theorem plannedPreparationScheduledHeights_two :
    plannedPreparationScheduledHeights default .main .immediate .standard 3 101 [0,0,1] =
      .ok [100,100,103] ∧ 100 + 3 ≤ 103 :=
  ⟨rfl,((plannedPreparationScheduledHeights_layered default .main .immediate .standard 3 101 [0,0,1]
    (by decide)).1 [100,100,103] rfl).2.2 0 2 0 100 103 rfl rfl rfl rfl⟩

end CoppiceWallet.Store
