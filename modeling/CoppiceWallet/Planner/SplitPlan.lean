import CoppiceWallet.Planner.Preparation

/-!
# Denomination selection and the stage graph

The planner grows a list of canonical crossings one accepted candidate at a time, and translates the
last accepted preparation into stages. A refiner is a function of its own state, so one model covers
every refiner.
-/

namespace CoppiceWallet.Planner

inductive PlanError
  | message (text : String)
  | aborted (reason : PrepError)
  deriving DecidableEq

abbrev PlanResult := Except PlanError

def okOr {α : Type} (value : Option α) (text : String) : PlanResult α :=
  match value with
  | some value => .ok value
  | none => .error (.message text)

def checkedSum (values : List Nat) (text : String) : PlanResult Nat :=
  values.foldlM (fun total value => okOr (checkedAdd total value) text) 0

def denominationSplitActions : Nat := prepTxActions

def tenThousandZecZatoshi : Nat := zip318MaxMigrationDenominationZatoshi

def fiveThousandZecZatoshi : Nat := tenThousandZecZatoshi / 2

def twoThousandZecZatoshi : Nat := tenThousandZecZatoshi / 5

def oneThousandZecZatoshi : Nat := tenThousandZecZatoshi / 10

/-- The constructor of the source asserts that no percentage exceeds 100. -/
structure DenominationRefinementPolicy where
  tenThousandSplitPercent : Nat
  fiveThousandSplitPercent : Nat
  twoThousandSplitPercent : Nat
  percent_le : tenThousandSplitPercent ≤ 100 ∧ fiveThousandSplitPercent ≤ 100 ∧
    twoThousandSplitPercent ≤ 100

def DenominationRefinementPolicy.splitRule (policy : DenominationRefinementPolicy)
    (denomination : Nat) : Option (Nat × List Nat) :=
  if denomination = tenThousandZecZatoshi then
    some (policy.tenThousandSplitPercent, [fiveThousandZecZatoshi, fiveThousandZecZatoshi])
  else if denomination = fiveThousandZecZatoshi then
    some (policy.fiveThousandSplitPercent,
      [twoThousandZecZatoshi, twoThousandZecZatoshi, oneThousandZecZatoshi])
  else if denomination = twoThousandZecZatoshi then
    some (policy.twoThousandSplitPercent, [oneThousandZecZatoshi, oneThousandZecZatoshi])
  else none

def aggressiveRefinementPolicy : DenominationRefinementPolicy := ⟨80, 55, 35, by decide⟩

def approvedPlanStaleError : String :=
  "Approved migration plan no longer matches the spendable Orchard balance. Review the migration plan again."

def approvedPlanOrderError : String :=
  "Approved migration denominations are not in canonical part order. Review the migration plan again."

inductive DenominationRefinement
  | node (value : Nat) (children : List DenominationRefinement)

def DenominationRefinement.value : DenominationRefinement → Nat
  | .node value _ => value

def DenominationRefinement.leaf (value : Nat) : DenominationRefinement := .node value []

/-- A stream of `next_u32` draws. -/
abbrev Draws := Nat → Nat

/-- `children.iter().map(..).collect()`: the draws are consumed from left to right. -/
def refineChildren (refine : Nat → Draws → DenominationRefinement × Draws) :
    List Nat → Draws → List DenominationRefinement × Draws
  | [], draws => ([], draws)
  | child :: children, draws =>
    let (refined, draws) := refine child draws
    let (rest, draws) := refineChildren refine children draws
    (refined :: rest, draws)

/-- Each rule at least halves its denomination, so three levels of splits reach the 1,000 ZEC
floor, which has no rule. -/
def refineDenominationLoop (policy : DenominationRefinementPolicy) :
    Nat → Nat → Draws → DenominationRefinement × Draws
  | 0, denomination, draws => (.leaf denomination, draws)
  | fuel + 1, denomination, draws =>
    match policy.splitRule denomination with
    | none => (.leaf denomination, draws)
    | some (splitPercent, children) =>
      if splitPercent = 0 then (.leaf denomination, draws)
      else if splitPercent ≤ draws 0 % 100 then (.leaf denomination, fun i => draws (i + 1))
      else
        let (children, draws) :=
          refineChildren (refineDenominationLoop policy fuel) children (fun i => draws (i + 1))
        (.node denomination children, draws)

def refineDenomination (policy : DenominationRefinementPolicy) (denomination : Nat)
    (draws : Draws) : DenominationRefinement × Draws :=
  refineDenominationLoop policy 4 denomination draws

/-- Adjacent equal elements collapse, as in `Vec::dedup`. -/
def dedupAdjacent : List (List Nat) → List (List Nat)
  | [] => []
  | [candidate] => [candidate]
  | first :: second :: rest =>
    if first = second then dedupAdjacent (second :: rest)
    else first :: dedupAdjacent (second :: rest)

/-- Longest candidates first, equal lengths in lexicographic order. -/
def candidateLe (left right : List Nat) : Bool :=
  decide (right.length < left.length) ||
    (decide (right.length = left.length) && decide (left ≤ right))

mutual

/-- Every pruning of a refinement tree, the most split one first. -/
def refinementCandidates : DenominationRefinement → PlanResult (List (List Nat))
  | .node value children =>
    if !isZip318CanonicalDenomination value then
      .error (.message "Denomination refinement produced a noncanonical value")
    else if children.isEmpty then .ok [[value]]
    else do
      let total ← checkedSum (children.map DenominationRefinement.value)
        "Denomination refinement total overflow"
      if total ≠ value then
        .error (.message "Denomination refinement must preserve the selected value")
      else do
        let expanded ← combineCandidates children [[]]
        .ok (dedupAdjacent
          (((expanded ++ [[value]]).map sortDescending).insertionSort
            (fun left right => candidateLe left right = true)))

def combineCandidates :
    List DenominationRefinement → List (List Nat) → PlanResult (List (List Nat))
  | [], expanded => .ok expanded
  | child :: children, expanded => do
    let childCandidates ← refinementCandidates child
    let _ ← okOr (checkedMul expanded.length childCandidates.length)
      "Denomination refinement candidate count overflow"
    combineCandidates children
      (expanded.flatMap fun front => childCandidates.map fun candidate => front ++ candidate)

end

structure PlanningContext where
  positiveInputIndices : List Nat
  totalInputZatoshi : Nat
  available : List Zatoshis
  prepFee : Zatoshis
  deriving DecidableEq

def positiveIndices (inputValues : List Nat) : List Nat :=
  inputValues.zipIdx.filterMap fun (value, index) => if 0 < value then some index else none

def planningContext (inputValues : List Nat) (feePerStage minimumOutput : Nat) :
    PlanResult (Option PlanningContext) :=
  let indices := positiveIndices inputValues
  if indices = [] then .ok none
  else if feePerStage = 0 then
    .error (.message "Padded denomination stage fee must be positive")
  else if minimumOutput ≠ 1 then
    .error (.message
      "Padded denomination stages require a 1-zatoshi minimum output to preserve the exact ZIP 317 fee")
  else do
    let values := inputValues.filter (0 < ·)
    let total ← checkedSum values "Selected Orchard value overflow"
    let available ← values.mapM fun value =>
      okOr (Zatoshis.fromU64 value) "Selected Orchard note exceeds the maximum money supply"
    let prepFee ← okOr (Zatoshis.fromU64 feePerStage) "Padded denomination fee is invalid"
    .ok (some ⟨indices, total, available, prepFee⟩)

def committedValue (fundingValues : List Nat) (preparation : PreparationPlan)
    (feePerStage : Nat) : PlanResult Nat := do
  let fundingTotal ← checkedSum fundingValues "Migration funding total overflow"
  let prepFees ← okOr (checkedMul feePerStage preparation.transactionCount)
    "Preparation fee total overflow"
  okOr (checkedAdd fundingTotal prepFees) "Migration committed value overflow"

def preparationForCrossings (sort : NoteSort) (context : PlanningContext)
    (crossingValues : List Nat) (feePerStage migrationFee : Nat) :
    PlanResult (Option (List Nat × PreparationPlan)) := do
  let fundingValues ← crossingValues.mapM fun crossing =>
    okOr (checkedAdd crossing migrationFee) "Prepared migration note value overflow"
  let typedFunding ← fundingValues.mapM fun value =>
    okOr (Zatoshis.fromU64 value) "Prepared migration note value is invalid"
  match planPreparation sort context.available typedFunding context.prepFee with
  | .error .insufficientFunds => .ok none
  | .error .balanceInvalid => .error (.message "Migration preparation balance is invalid")
  | .error reason => .error (.aborted reason)
  | .ok preparation =>
    let committed ← committedValue fundingValues preparation feePerStage
    .ok (if committed ≤ context.totalInputZatoshi then some (fundingValues, preparation) else none)

def minimumFundingNote (migrationFee : Nat) : PlanResult Nat :=
  okOr (checkedAdd zip318MaxResidualValueZatoshi migrationFee)
    "Minimum migration funding note overflow"

/-- What the planner has accepted so far: crossings, their funding notes, their preparation. -/
structure Selection where
  crossingValues : List Nat
  fundingValues : List Nat
  preparation : PreparationPlan
  deriving DecidableEq

def Selection.empty : Selection := ⟨[], [], ⟨[], []⟩⟩

def tryCandidates (sort : NoteSort) (context : PlanningContext) (crossingValues : List Nat)
    (feePerStage migrationFee : Nat) : List (List Nat) → PlanResult (Option Selection)
  | [] => .ok none
  | candidate :: candidates => do
    let extended := crossingValues ++ candidate
    match ← preparationForCrossings sort context extended feePerStage migrationFee with
    | some (fundingValues, preparation) => .ok (some ⟨extended, fundingValues, preparation⟩)
    | none =>
      tryCandidates sort context crossingValues feePerStage migrationFee candidates

/-- The inner `while`: from the largest affordable denomination downwards, the first whose
refinement has a candidate that fits. Each round lowers `affordable`, which bounds the rounds. -/
def selectDenomination {σ : Type} (refine : Nat → σ → DenominationRefinement × σ)
    (sort : NoteSort) (context : PlanningContext) (crossingValues : List Nat)
    (feePerStage migrationFee : Nat) :
    Nat → Nat → σ → PlanResult (Option Selection × σ)
  | 0, _, state => .ok (none, state)
  | fuel + 1, affordable, state =>
    if affordable < zip318MaxResidualValueZatoshi then .ok (none, state)
    else
      match largestZip318DenominationAtOrBelow affordable with
      | none => .ok (none, state)
      | some greedy =>
        let (refinement, state) := refine greedy state
        if refinement.value ≠ greedy then
          .error (.message "Denomination refinement must preserve the selected value")
        else do
          let candidates ← refinementCandidates refinement
          let accepted ←
            tryCandidates sort context crossingValues feePerStage migrationFee candidates
          if accepted.isSome ∨ greedy = zip318MaxResidualValueZatoshi then .ok (accepted, state)
          else
            selectDenomination refine sort context crossingValues feePerStage migrationFee fuel
              (greedy - 1) state

def affordableCrossing (budget migrationFee : Nat) : Nat :=
  min (budget - migrationFee) zip318MaxMigrationDenominationZatoshi

/-- The outer loop. Every accepted round commits at least one more minimum denomination out of
the total input, so the total bounds the rounds. -/
def planLoop {σ : Type} (refine : Nat → σ → DenominationRefinement × σ) (sort : NoteSort)
    (context : PlanningContext) (minimumNote feePerStage migrationFee : Nat) :
    Nat → Selection → σ → PlanResult Selection
  | 0, _, _ => .error (.aborted .outOfFuel)
  | fuel + 1, selection, state => do
    let committed ← committedValue selection.fundingValues selection.preparation feePerStage
    let budget := context.totalInputZatoshi - committed
    if budget < minimumNote then .ok selection
    else do
      let affordable := affordableCrossing budget migrationFee
      let (accepted, state) ← selectDenomination refine sort context selection.crossingValues
        feePerStage migrationFee affordable affordable state
      match accepted with
      | none => .ok selection
      | some selection =>
        planLoop refine sort context minimumNote feePerStage migrationFee fuel selection state

/-- The rounds after the first one that fails are the check for an appendable denomination. -/
def canAppendLoop (sort : NoteSort) (context : PlanningContext) (crossingValues : List Nat)
    (feePerStage migrationFee : Nat) : Nat → Nat → PlanResult Bool
  | 0, _ => .ok false
  | fuel + 1, affordable =>
    if affordable < zip318MaxResidualValueZatoshi then .ok false
    else
      match largestZip318DenominationAtOrBelow affordable with
      | none => .ok false
      | some crossing => do
        match ← preparationForCrossings sort context (crossingValues ++ [crossing]) feePerStage
            migrationFee with
        | some _ => .ok true
        | none =>
          if crossing = zip318MaxResidualValueZatoshi then .ok false
          else canAppendLoop sort context crossingValues feePerStage migrationFee fuel (crossing - 1)

def canAppendCanonicalDenomination (sort : NoteSort) (context : PlanningContext)
    (selection : Selection) (feePerStage migrationFee : Nat) : PlanResult Bool := do
  let committed ← committedValue selection.fundingValues selection.preparation feePerStage
  let budget := context.totalInputZatoshi - committed
  let minimumNote ← minimumFundingNote migrationFee
  if budget < minimumNote then .ok false
  else
    let affordable := affordableCrossing budget migrationFee
    canAppendLoop sort context selection.crossingValues feePerStage migrationFee affordable
      affordable

inductive SplitStageInput
  | original (inputIndex value : Nat)
  | prior (stageIndex outputIndex value : Nat)
  deriving DecidableEq

def SplitStageInput.value : SplitStageInput → Nat
  | .original _ value => value
  | .prior _ _ value => value

inductive SplitTerminalKind
  | migration
  | orchardChange
  | continuation
  deriving DecidableEq

structure SplitStageOutput where
  value : Nat
  kind : SplitTerminalKind
  partIndex : Option Nat
  deriving DecidableEq

structure SplitStagePlan where
  layerIndex : Nat
  inputs : List SplitStageInput
  outputs : List SplitStageOutput
  fee : Nat
  requestedActions : Nat
  deriving DecidableEq

structure DirectMigrationInput where
  inputIndex : Nat
  partIndex : Nat
  value : Nat
  deriving DecidableEq

structure DenominationPlan where
  migrationOutputs : List Nat
  orchardChange : Option Nat
  splitFee : Nat
  migrationFee : Nat
  totalInput : Nat
  totalMigratable : Nat
  deriving DecidableEq

structure PaddedDenominationPlan where
  denominations : DenominationPlan
  stages : List SplitStagePlan
  layerCount : Nat
  directMigrationInputs : List DirectMigrationInput
  deriving DecidableEq

/-- The parts not yet taken, as `(value, part index)` in part order. The source keeps one stack
for each value with its smallest part on top, so a pop is the first entry of that value. -/
abbrev AvailableParts := List (Nat × Nat)

def takePartIndex (parts : AvailableParts) (value : Nat) : PlanResult (Nat × AvailableParts) :=
  match parts.find? (fun part => part.1 == value) with
  | some part => .ok (part.2, parts.erase part)
  | none => .error (.message s!"Preparation plan produced unexpected funding value {value}")

def translateDirect (positiveInputIndices : List Nat) :
    List (Nat × Zatoshis) → AvailableParts →
      PlanResult (List DirectMigrationInput × AvailableParts)
  | [], parts => .ok ([], parts)
  | (index, value) :: direct, parts => do
    let inputIndex ← okOr (positiveInputIndices[index]?)
      "Direct funding input index is out of range"
    let (partIndex, parts) ← takePartIndex parts value.value
    let (rest, parts) ← translateDirect positiveInputIndices direct parts
    .ok (⟨inputIndex, partIndex, value.value⟩ :: rest, parts)

/-- Stage indexes by layer and transaction. -/
abbrev Coordinates := List ((Nat × Nat) × Nat)

def translateInput (positiveInputIndices : List Nat) (coordinates : Coordinates) :
    PrepInput → PlanResult SplitStageInput
  | .wallet index value => do
    let inputIndex ← okOr (positiveInputIndices[index]?)
      "Preparation wallet input index is out of range"
    .ok (.original inputIndex value.value)
  | .prior layer transaction output value => do
    let stageIndex ← okOr (coordinates.lookup (layer, transaction))
      "Preparation input references an unknown prior transaction"
    .ok (.prior stageIndex output value.value)

def translateOutputs :
    List PrepOutput → AvailableParts → PlanResult (List SplitStageOutput × AvailableParts)
  | [], parts => .ok ([], parts)
  | .funding value :: outputs, parts => do
    let (partIndex, parts) ← takePartIndex parts value.value
    let (rest, parts) ← translateOutputs outputs parts
    .ok (⟨value.value, .migration, some partIndex⟩ :: rest, parts)
  | .intermediate value :: outputs, parts => do
    let (rest, parts) ← translateOutputs outputs parts
    .ok (⟨value.value, .continuation, none⟩ :: rest, parts)
  | .change value :: outputs, parts => do
    let (rest, parts) ← translateOutputs outputs parts
    .ok (⟨value.value, .orchardChange, none⟩ :: rest, parts)

def translateTransaction (positiveInputIndices : List Nat) (feePerStage layerIndex : Nat)
    (coordinates : Coordinates) (transaction : PrepTransaction) (parts : AvailableParts) :
    PlanResult (SplitStagePlan × AvailableParts) := do
  let inputs ← transaction.inputs.mapM (translateInput positiveInputIndices coordinates)
  let (outputs, parts) ← translateOutputs transaction.outputs parts
  let requestedActions ← okOr (checkedAdd inputs.length outputs.length)
    "Preparation action count overflow"
  if denominationSplitActions < requestedActions then
    .error (.message
      s!"Preparation transaction requests {requestedActions} actions instead of at most {denominationSplitActions}")
  else do
    let inputTotal ← checkedSum (inputs.map SplitStageInput.value)
      "Preparation input total overflow"
    let outputTotal ← checkedSum (outputs.map SplitStageOutput.value)
      "Preparation output total overflow"
    let spent ← okOr (checkedAdd outputTotal feePerStage) "Preparation transaction value overflow"
    if inputTotal ≠ spent then
      .error (.message "Preparation transaction does not conserve value")
    else .ok (⟨layerIndex, inputs, outputs, feePerStage, requestedActions⟩, parts)

structure Translation where
  coordinates : Coordinates
  stages : List SplitStagePlan
  parts : AvailableParts

def translateLayer (positiveInputIndices : List Nat) (feePerStage layerIndex : Nat) :
    Nat → List PrepTransaction → Translation → PlanResult Translation
  | _, [], translation => .ok translation
  | transactionIndex, transaction :: transactions, ⟨coordinates, stages, parts⟩ => do
    let (stage, parts) ← translateTransaction positiveInputIndices feePerStage layerIndex
      coordinates transaction parts
    translateLayer positiveInputIndices feePerStage layerIndex (transactionIndex + 1) transactions
      ⟨((layerIndex, transactionIndex), stages.length) :: coordinates, stages ++ [stage], parts⟩

def translateLayers (positiveInputIndices : List Nat) (feePerStage : Nat) :
    Nat → Layers → Translation → PlanResult Translation
  | _, [], translation => .ok translation
  | layerIndex, layer :: layers, translation => do
    let translation ←
      translateLayer positiveInputIndices feePerStage layerIndex 0 layer translation
    translateLayers positiveInputIndices feePerStage (layerIndex + 1) layers translation

def translatePreparationPlan (preparation : PreparationPlan) (denominations : DenominationPlan)
    (positiveInputIndices fundingValues : List Nat) (feePerStage : Nat) :
    PlanResult PaddedDenominationPlan := do
  let (direct, parts) ← translateDirect positiveInputIndices preparation.directFunding
    fundingValues.zipIdx
  let translation ←
    translateLayers positiveInputIndices feePerStage 0 preparation.layers ⟨[], [], parts⟩
  if translation.parts ≠ [] then
    .error (.message "Preparation plan did not assign every migration part")
  else
    .ok ⟨denominations, translation.stages, preparation.layers.length,
      direct.insertionSort (fun a b => a.partIndex ≤ b.partIndex)⟩

def finishPlan (context : PlanningContext) (selection : Selection)
    (feePerStage migrationFee minimumOutput : Nat) : PlanResult (Option PaddedDenominationPlan) :=
  if selection.crossingValues = [] then .ok none
  else if selection.crossingValues.length ≠ selection.fundingValues.length then
    .error (.message "Migration denomination and funding note counts differ")
  else do
    let pairs := (selection.crossingValues.zip selection.fundingValues).insertionSort
      (fun a b => b.1 ≤ a.1)
    let crossingValues := pairs.map Prod.fst
    let fundingValues := pairs.map Prod.snd
    let splitFee ← okOr (checkedMul feePerStage selection.preparation.transactionCount)
      "Preparation fee total overflow"
    let fundingTotal ← checkedSum fundingValues "Migration funding total overflow"
    let remaining ← okOr
      ((checkedSub context.totalInputZatoshi fundingTotal).bind (checkedSub · splitFee))
      "Migration preparation plan exceeds selected Orchard value"
    let totalMigratable ← checkedSum crossingValues "Migratable denomination total overflow"
    let plan ← translatePreparationPlan selection.preparation
      ⟨crossingValues, if minimumOutput ≤ remaining then some remaining else none, splitFee,
        migrationFee, context.totalInputZatoshi, totalMigratable⟩
      context.positiveInputIndices fundingValues feePerStage
    .ok (some plan)

def planPaddedDenominationsWithRefiner {σ : Type}
    (refine : Nat → σ → DenominationRefinement × σ) (state : σ) (sort : NoteSort)
    (inputValues : List Nat) (feePerStage migrationFee minimumOutput : Nat) :
    PlanResult (Option PaddedDenominationPlan) := do
  match ← planningContext inputValues feePerStage minimumOutput with
  | none => .ok none
  | some context => do
    let minimumNote ← minimumFundingNote migrationFee
    let selection ← planLoop refine sort context minimumNote feePerStage migrationFee
      (context.totalInputZatoshi + 1) .empty state
    finishPlan context selection feePerStage migrationFee minimumOutput

def planPaddedDenominations (draws : Draws) (sort : NoteSort) (inputValues : List Nat)
    (feePerStage migrationFee minimumOutput : Nat) : PlanResult (Option PaddedDenominationPlan) :=
  planPaddedDenominationsWithRefiner (refineDenomination aggressiveRefinementPolicy) draws sort
    inputValues feePerStage migrationFee minimumOutput

def planPaddedDenominationsWithoutRefinement (sort : NoteSort) (inputValues : List Nat)
    (feePerStage migrationFee minimumOutput : Nat) : PlanResult (Option PaddedDenominationPlan) :=
  planPaddedDenominationsWithRefiner (fun greedy state => (.leaf greedy, state)) () sort
    inputValues feePerStage migrationFee minimumOutput

def nonIncreasing : List Nat → Bool
  | first :: second :: rest => decide (second ≤ first) && nonIncreasing (second :: rest)
  | _ => true

def planPaddedDenominationsForTargets (sort : NoteSort) (inputValues targetValues : List Nat)
    (feePerStage migrationFee minimumOutput : Nat) :
    PlanResult (Option PaddedDenominationPlan) :=
  if targetValues = [] then .ok none
  else
    match targetValues.find? (fun value => !isZip318CanonicalDenomination value) with
    | some value =>
      .error (.message s!"Approved migration denomination {value} is not canonical")
    | none =>
      if !nonIncreasing targetValues then .error (.message approvedPlanOrderError)
      else do
        match ← planningContext inputValues feePerStage minimumOutput with
        | none => .error (.message approvedPlanStaleError)
        | some context => do
          match ← preparationForCrossings sort context targetValues feePerStage migrationFee with
          | none => .error (.message approvedPlanStaleError)
          | some (fundingValues, preparation) => do
            let selection : Selection := ⟨targetValues, fundingValues, preparation⟩
            if ← canAppendCanonicalDenomination sort context selection feePerStage migrationFee then
              .error (.message approvedPlanStaleError)
            else finishPlan context selection feePerStage migrationFee minimumOutput

end CoppiceWallet.Planner
