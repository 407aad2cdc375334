import CoppiceWallet.Lib.Grid
import CoppiceWallet.Planner.Denomination

/-!
# The preparation planner

Which padded transactions restructure the spendable notes into the requested funding notes. A
transaction names the note it spends by its wallet index or by the layer, transaction and output of
an earlier transaction.

`sort_unstable_by_key` leaves the order of equal notes open, so the planner takes the sort as a
parameter that carries its documented behaviour. Loops run on fuel that bounds their rounds;
exhausted fuel is `outOfFuel`, kept apart from every result of the source.
-/

namespace CoppiceWallet.Planner

open CoppiceWallet.Lib

def prepTxActions : Nat := 16

def fundingOutputsPerTx : Nat := prepTxActions - 2

def consolidationInputsPerTx : Nat := prepTxActions - 1

inductive PrepInput
  | wallet (index : Nat) (value : Zatoshis)
  | prior (layer transaction output : Nat) (value : Zatoshis)
  deriving DecidableEq

def PrepInput.value : PrepInput → Zatoshis
  | .wallet _ value => value
  | .prior _ _ _ value => value

inductive PrepOutput
  | funding (value : Zatoshis)
  | intermediate (value : Zatoshis)
  | change (value : Zatoshis)
  deriving DecidableEq

def PrepOutput.value : PrepOutput → Zatoshis
  | .funding value => value
  | .intermediate value => value
  | .change value => value

structure PrepTransaction where
  inputs : List PrepInput
  outputs : List PrepOutput
  deriving DecidableEq

abbrev Layers := Grid PrepTransaction

structure PreparationPlan where
  layers : Layers
  directFunding : List (Nat × Zatoshis)
  deriving DecidableEq

def PreparationPlan.transactionCount (plan : PreparationPlan) : Nat :=
  (plan.layers.map List.length).sum

/-- `insufficientFunds` and `balanceInvalid` are the source's errors, `panicked` is a failed
`expect`. -/
inductive PrepError
  | insufficientFunds
  | balanceInvalid
  | panicked
  | outOfFuel
  deriving DecidableEq

abbrev PrepResult := Except PrepError

/-- `sort_unstable_by_key(Reverse(value))`: largest first, equal values in any order. -/
structure NoteSort where
  sort : List PrepInput → List PrepInput
  perm : ∀ notes, (sort notes).Perm notes
  sorted : ∀ notes, (sort notes).Pairwise (fun a b => b.value.value ≤ a.value.value)

/-- A sort of descending values, the one `sort_unstable_by(|a, b| b.cmp(a))` gives on integers. -/
def sortDescending (values : List Nat) : List Nat := values.insertionSort (fun a b => b ≤ a)

def zat (value : Nat) : PrepResult Zatoshis :=
  match Zatoshis.fromU64 value with
  | some amount => .ok amount
  | none => .error .panicked

def unusedPosition (available : List Nat) (used : List Bool) (funding : Nat) : Option Nat :=
  (available.zip used).findIdx? (fun (value, used) => !used && value == funding)

/-- The `retain` pass: each funding value takes the first unused note of exactly its value. -/
def extractDirectFunding (available : List Nat) :
    List Nat → List Bool → PrepResult (List Bool × List (Nat × Zatoshis) × List Nat)
  | [], used => .ok (used, [], [])
  | funding :: remaining, used =>
    match unusedPosition available used funding with
    | some index => do
      let amount ← zat funding
      let (used, direct, kept) ← extractDirectFunding available remaining (used.set index true)
      .ok (used, (index, amount) :: direct, kept)
    | none => do
      let (used, direct, kept) ← extractDirectFunding available remaining used
      .ok (used, direct, funding :: kept)

/-- Batches of at most fifteen notes, never a lone last note. -/
def consolidationBatchSizes : Nat → Nat → List Nat
  | 0, _ => []
  | _ + 1, 0 => []
  | fuel + 1, n =>
    let take :=
      if n ≤ consolidationInputsPerTx then n
      else if n - consolidationInputsPerTx = 1 then consolidationInputsPerTx - 1
      else consolidationInputsPerTx
    take :: consolidationBatchSizes fuel (n - take)

structure Consolidation where
  txs : List PrepTransaction
  next : List PrepInput
  leftover : List PrepInput

/-- The batch loop of `consolidate`: one transaction for each batch that can pay its fee. -/
def consolidateBatches (layer fee : Nat) :
    List Nat → List PrepInput → List PrepTransaction → List PrepInput → List PrepInput →
      PrepResult Consolidation
  | [], _, txs, next, leftover => .ok ⟨txs, next, leftover⟩
  | size :: sizes, pool, txs, next, leftover =>
    let batch := pool.take size
    let sum := (batch.map (·.value.value)).sum
    if sum ≤ fee then
      consolidateBatches layer fee sizes (pool.drop size) txs next (leftover ++ batch)
    else do
      let feeder ← zat (sum - fee)
      consolidateBatches layer fee sizes (pool.drop size)
        (txs ++ [⟨batch, [.intermediate feeder]⟩])
        (next ++ [.prior layer txs.length 0 feeder]) leftover

def consolidate (sort : NoteSort) (pool : List PrepInput) (layer fee : Nat)
    (txs : List PrepTransaction) (next : List PrepInput) : PrepResult Consolidation :=
  if pool.length < 2 then .ok ⟨txs, next, pool⟩
  else
    consolidateBatches layer fee (consolidationBatchSizes pool.length pool.length)
      (sort.sort pool) txs next []

abbrev Coordinate := Nat × Nat × Nat

def PrepInput.priorCoordinate : PrepInput → Option Coordinate
  | .wallet _ _ => none
  | .prior layer transaction output _ => some (layer, transaction, output)

/-- Every prior output that some transaction spends, in plan order. -/
def spentCoordinates (layers : Layers) : List Coordinate :=
  layers.flatten.flatMap (fun tx => tx.inputs.filterMap PrepInput.priorCoordinate)

/-- The intermediate outputs of the transaction at a coordinate, as inputs. -/
def feedersOf (layer transaction : Nat) (tx : PrepTransaction) : List PrepInput :=
  tx.outputs.zipIdx.filterMap fun (output, oi) =>
    match output with
    | .intermediate value => some (.prior layer transaction oi value)
    | _ => none

/-- Every intermediate output, in plan order. -/
def intermediateRefs (layers : Layers) : List PrepInput := (layers.mapIdx feedersOf).flatten.flatten

def PrepInput.spentIn (spent : List Coordinate) (input : PrepInput) : Bool :=
  match input.priorCoordinate with
  | some coordinate => spent.contains coordinate
  | none => false

def unconsumedFeeders (layers : Layers) : List PrepInput :=
  (intermediateRefs layers).filter (fun input => !input.spentIn (spentCoordinates layers))

def relabelOutput (spent : List Coordinate) (li ti oi : Nat) : PrepOutput → PrepOutput
  | .intermediate value =>
    if spent.contains (li, ti, oi) then .intermediate value else .change value
  | output => output

def relabelTransaction (spent : List Coordinate) (li ti : Nat) (tx : PrepTransaction) :
    PrepTransaction :=
  { tx with outputs := tx.outputs.zipIdx.map fun (output, oi) =>
      relabelOutput spent li ti oi output }

/-- The final pass: an intermediate output that nothing spends becomes change. -/
def relabelUnspent (layers : Layers) : Layers :=
  layers.mapIdx (relabelTransaction (spentCoordinates layers))

def subtreeCapacity (depth : Nat) : Nat := fundingOutputsPerTx ^ depth

def splitDepthLoop (n : Nat) : Nat → Nat → Nat
  | 0, depth => depth
  | fuel + 1, depth => if subtreeCapacity depth < n then splitDepthLoop n fuel (depth + 1) else depth

def splitDepth (n : Nat) : Nat := if n = 0 then 0 else splitDepthLoop n n 1

def divCeil (a b : Nat) : Nat := (a + b - 1) / b

def evenGroupSizes (len g : Nat) : List Nat :=
  (List.range g).map fun i => len / g + if i < len % g then 1 else 0

/-- The consecutive slices of `targets` with the given sizes. -/
def slices : List Nat → List Nat → List (List Nat)
  | [], _ => []
  | size :: sizes, targets => targets.take size :: slices sizes (targets.drop size)

def splitGroups (targets : List Nat) : List (List Nat) :=
  let childCap := subtreeCapacity (splitDepth targets.length - 1)
  slices (evenGroupSizes targets.length (divCeil targets.length childCap)) targets

/-- Transaction count and source value of a balanced split. The sums are unchecked `u64` sums. -/
def subtreeCostLoop (fee : Nat) : Nat → List Nat → Nat × Nat
  | 0, targets => (1, wrap (targets.sum + fee))
  | fuel + 1, targets =>
    if splitDepth targets.length ≤ 1 then (1, wrap (targets.sum + fee))
    else
      (splitGroups targets).foldl
        (fun (txs, value) group =>
          let (t, v) := subtreeCostLoop fee fuel group
          (wrap (txs + t), wrap (value + v)))
        (1, fee)

def subtreeCost (targets : List Nat) (fee : Nat) : Nat × Nat :=
  subtreeCostLoop fee (splitDepth targets.length) targets

def leftoverOutput (leftover : Nat) : PrepResult (List PrepOutput) :=
  if 0 < leftover then do
    let amount ← zat leftover
    .ok [.intermediate amount]
  else .ok []

/-- The children of a split, each spending the feeder output of its own position. -/
def buildChildren (build : PrepInput → Nat → List Nat → Layers → PrepResult Layers)
    (layer txIndex : Nat) : Nat → List (List Nat × Nat) → Layers → PrepResult Layers
  | _, [], layers => .ok layers
  | output, (group, childValue) :: rest, layers => do
    let value ← zat childValue
    let layers ← build (.prior layer txIndex output value) childValue group layers
    buildChildren build layer txIndex (output + 1) rest layers

def buildSplit (fee : Nat) : Nat → PrepInput → Nat → List Nat → Nat → Layers → PrepResult Layers
  | 0, _, _, _, _, _ => .error .outOfFuel
  | fuel + 1, source, sourceValue, targets, layer, layers =>
    let layers := layers.pad layer
    let txIndex := layers.rowLength layer
    if splitDepth targets.length ≤ 1 then do
      let outputs ← targets.mapM (fun v => PrepOutput.funding <$> zat v)
      let leftover ← leftoverOutput (wrapSub (wrapSub sourceValue fee) (wrap targets.sum))
      .ok (layers.push layer ⟨[source], outputs ++ leftover⟩)
    else do
      let groups := splitGroups targets
      let childValues := groups.map fun group => (subtreeCost group fee).2
      let outputs ← childValues.mapM (fun v => PrepOutput.intermediate <$> zat v)
      let leftover ← leftoverOutput (wrapSub (wrapSub sourceValue fee) (wrap childValues.sum))
      buildChildren
        (fun child value group layers => buildSplit fee fuel child value group (layer + 1) layers)
        layer txIndex 0 (groups.zip childValues)
        (layers.push layer ⟨[source], outputs ++ leftover⟩)

/-- Largest first, the funding values one note can pay for, at most fourteen of them. The result
is the assigned values, the values left, and the amount used. -/
def assignFunding (budget : Nat) : List Nat → Nat → Nat → List Nat × List Nat × Nat
  | [], _, used => ([], [], used)
  | value :: remaining, count, used =>
    if count < fundingOutputsPerTx then
      if used + value ≤ budget then
        let (assigned, kept, used) := assignFunding budget remaining (count + 1) (used + value)
        (value :: assigned, kept, used)
      else
        let (assigned, kept, used) := assignFunding budget remaining count used
        (assigned, value :: kept, used)
    else ([], value :: remaining, used)

structure PartialTx where
  input : PrepInput
  assigned : List Nat
  leftover : Nat

/-- Pass 1 of a layer. Notes met after the last funding value is scheduled stay in the wallet. -/
def assignPass (fee : Nat) :
    List PrepInput → List Nat → List PartialTx × List PrepInput × List Nat
  | [], remaining => ([], [], remaining)
  | input :: notes, remaining =>
    match remaining.getLast? with
    | none => assignPass fee notes remaining
    | some smallest =>
      let value := input.value.value
      if value ≤ fee ∨ value - fee < smallest then
        let (partials, consolidatable, remaining) := assignPass fee notes remaining
        (partials, input :: consolidatable, remaining)
      else
        let budget := value - fee
        let (assigned, kept, used) := assignFunding budget remaining 0 0
        let (partials, consolidatable, remaining) := assignPass fee notes kept
        (⟨input, assigned, budget - used⟩ :: partials, consolidatable, remaining)

/-- Pass 2 of a layer: mint the assigned notes and route each leftover forward. -/
def mintPass (layer : Nat) :
    List PartialTx → List PrepTransaction → List PrepInput →
      PrepResult (List PrepTransaction × List PrepInput)
  | [], txs, next => .ok (txs, next)
  | ⟨input, assigned, leftover⟩ :: partials, txs, next => do
    let outputs ← assigned.mapM (fun v => PrepOutput.funding <$> zat v)
    if 0 < leftover then do
      let amount ← zat leftover
      mintPass layer partials (txs ++ [⟨[input], outputs ++ [.intermediate amount]⟩])
        (next ++ [.prior layer txs.length outputs.length amount])
    else mintPass layer partials (txs ++ [⟨[input], outputs⟩]) next

def greedyLoop (sort : NoteSort) (fee : Nat) :
    Nat → List Nat → List PrepInput → Layers → PrepResult Layers
  | 0, _, _, _ => .error .outOfFuel
  | fuel + 1, remaining, current, layers =>
    if remaining = [] then .ok layers
    else if current = [] then .error .insufficientFunds
    else do
      let (partials, consolidatable, remaining) := assignPass fee (sort.sort current) remaining
      let (txs, next) ← mintPass layers.length partials [] []
      let ⟨txs, next, _⟩ ← consolidate sort consolidatable layers.length fee txs next
      if txs = [] then .error .insufficientFunds
      else greedyLoop sort fee fuel remaining next (layers ++ [txs])

/-- Merge the feeders no layer spends, as long as a merge pays its fee. -/
def residualLoop (sort : NoteSort) (fee : Nat) : Nat → Layers → PrepResult Layers
  | 0, _ => .error .outOfFuel
  | fuel + 1, layers =>
    let pool := unconsumedFeeders layers
    if pool.length ≤ 1 then .ok layers
    else do
      let ⟨txs, _, _⟩ ← consolidate sort pool layers.length fee [] []
      if txs = [] then .ok layers else residualLoop sort fee fuel (layers ++ [txs])

/-- One comparison of `max_by_key`, which keeps the later of two equal notes. -/
def keepLargest (best : Option (Nat × Nat)) : (Nat × Bool) × Nat → Option (Nat × Nat)
  | ((value, _), index) =>
    match best with
    | none => some (index, value)
    | some (i, v) => if v ≤ value then some (index, value) else some (i, v)

/-- Index and value of the largest unused note. -/
def largestUnused (available : List Nat) (used : List Bool) : Option (Nat × Nat) :=
  ((available.zip used).zipIdx.filter (fun ((_, used), _) => !used)).foldl keepLargest none

def walletNotes (available : List Zatoshis) (used : List Bool) (keep : Nat → Bool) :
    List PrepInput :=
  (available.zip used).zipIdx.filterMap fun ((value, used), index) =>
    if !used && keep value.value then some (.wallet index value) else none

def totalsValid (available funding : List Zatoshis) : Bool :=
  (available.map Zatoshis.value).sum ≤ maxMoney && (funding.map Zatoshis.value).sum ≤ maxMoney

def positiveTargets (funding : List Zatoshis) : List Nat :=
  sortDescending ((funding.map Zatoshis.value).filter (0 < ·))

/-- The first step of the greedy planner: when the largest unused note pays for a balanced split
of everything, split it. The result is the funding values still to place and the layers. -/
def splitLargest (fee : Nat) (values : List Nat) (used : List Bool) (remaining : List Nat) :
    PrepResult (List Nat × Layers) :=
  match largestUnused values used with
  | some (index, big) =>
    if (subtreeCost remaining fee).2 ≤ big then do
      let value ← zat big
      let layers ← buildSplit fee (splitDepth remaining.length + 1) (.wallet index value) big
        remaining 0 []
      .ok ([], layers)
    else .ok (remaining, [])
  | none => .ok (remaining, [])

def planPreparationGreedy (sort : NoteSort) (available funding : List Zatoshis)
    (feePerTx : Zatoshis) : PrepResult PreparationPlan :=
  if !totalsValid available funding then .error .balanceInvalid
  else do
    let fee := feePerTx.value
    let values := available.map Zatoshis.value
    let (used, directFunding, remaining) ←
      extractDirectFunding values (positiveTargets funding) (List.replicate values.length false)
    if remaining = [] then .ok ⟨[], directFunding⟩
    else do
      let (remaining, layers) ← splitLargest fee values used remaining
      let current := walletNotes available used (fun _ => true)
      let layers ←
        greedyLoop sort fee (remaining.length + current.length + 1) remaining current layers
      let layers ← residualLoop sort fee ((unconsumedFeeders layers).length + 1) layers
      .ok ⟨relabelUnspent layers, directFunding⟩

def mergeLoop (sort : NoteSort) (fee : Nat) :
    Nat → List PrepInput → Layers → PrepResult (List PrepInput × Layers)
  | 0, _, _ => .error .outOfFuel
  | fuel + 1, current, layers =>
    if current.length ≤ 1 then .ok (current, layers)
    else do
      let ⟨txs, next, leftover⟩ ← consolidate sort current layers.length fee [] []
      if txs = [] then .error .insufficientFunds
      else mergeLoop sort fee fuel (next ++ leftover) (layers ++ [txs])

def planPreparationViaConsolidation (sort : NoteSort) (available funding : List Zatoshis)
    (feePerTx : Zatoshis) : PrepResult PreparationPlan :=
  if !totalsValid available funding then .error .balanceInvalid
  else do
    let fee := feePerTx.value
    let values := available.map Zatoshis.value
    let (used, directFunding, targets) ←
      extractDirectFunding values (positiveTargets funding) (List.replicate values.length false)
    if targets = [] then .ok ⟨[], directFunding⟩
    else do
      let current := walletNotes available used (0 < ·)
      if current = [] then .error .insufficientFunds
      else do
        let (current, layers) ← mergeLoop sort fee (current.length + 1) current []
        match current.getLast? with
        | none => .error .panicked
        | some source =>
          if source.value.value < (subtreeCost targets fee).2 then .error .insufficientFunds
          else do
            let layers ← buildSplit fee (splitDepth targets.length + 1) source source.value.value
              targets layers.length layers
            .ok ⟨relabelUnspent layers, directFunding⟩

def planPreparation (sort : NoteSort) (available funding : List Zatoshis) (feePerTx : Zatoshis) :
    PrepResult PreparationPlan :=
  match planPreparationGreedy sort available funding feePerTx with
  | .error .insufficientFunds => planPreparationViaConsolidation sort available funding feePerTx
  | result => result

/-- One such sort, for running the planner. -/
def insertionNoteSort : NoteSort where
  sort notes := notes.insertionSort (fun a b => b.value.value ≤ a.value.value)
  perm notes := List.perm_insertionSort _ notes
  sorted notes := by
    have : Std.Total (fun a b : PrepInput => b.value.value ≤ a.value.value) :=
      ⟨fun a b => Nat.le_total b.value.value a.value.value⟩
    have : IsTrans PrepInput (fun a b => b.value.value ≤ a.value.value) :=
      ⟨fun _ _ _ hab hbc => hbc.trans hab⟩
    exact List.pairwise_insertionSort _ notes

end CoppiceWallet.Planner
