import CoppiceWallet.Lib.Result
import CoppiceWallet.Planner.Preparation

/-!
# The preparation planner with overflow checks

The planner as a build with overflow checks runs it: every sum and every subtraction of amounts
panics where it leaves `u64`. The passes without arithmetic are shared.
-/

namespace CoppiceWallet.Planner.Checked

open CoppiceWallet.Lib

def orPanic (value : Option Nat) : PrepResult Nat :=
  match value with
  | some value => .ok value
  | none => .error .panicked

def add (a b : Nat) : PrepResult Nat := orPanic (checkedAdd a b)

def sub (a b : Nat) : PrepResult Nat := orPanic (checkedSub a b)

def sum (values : List Nat) : PrepResult Nat := values.foldlM add 0

def consolidateBatches (layer fee : Nat) :
    List Nat → List PrepInput → List PrepTransaction → List PrepInput → List PrepInput →
      PrepResult Consolidation
  | [], _, txs, next, leftover => .ok ⟨txs, next, leftover⟩
  | size :: sizes, pool, txs, next, leftover => do
    let batch := pool.take size
    let sum ← sum (batch.map (·.value.value))
    if sum ≤ fee then
      consolidateBatches layer fee sizes (pool.drop size) txs next (leftover ++ batch)
    else do
      let feeder ← sub sum fee
      let feeder ← zat feeder
      consolidateBatches layer fee sizes (pool.drop size)
        (txs ++ [⟨batch, [.intermediate feeder]⟩])
        (next ++ [.prior layer txs.length 0 feeder]) leftover

def consolidate (sort : NoteSort) (pool : List PrepInput) (layer fee : Nat)
    (txs : List PrepTransaction) (next : List PrepInput) : PrepResult Consolidation :=
  if pool.length < 2 then .ok ⟨txs, next, pool⟩
  else
    consolidateBatches layer fee (consolidationBatchSizes pool.length pool.length)
      (sort.sort pool) txs next []

def subtreeCostLoop (fee : Nat) : Nat → List Nat → PrepResult (Nat × Nat)
  | 0, targets => do
    let total ← sum targets
    let value ← add total fee
    .ok (1, value)
  | fuel + 1, targets =>
    if splitDepth targets.length ≤ 1 then do
      let total ← sum targets
      let value ← add total fee
      .ok (1, value)
    else
      (splitGroups targets).foldlM
        (fun (txs, value) group => do
          let (t, v) ← subtreeCostLoop fee fuel group
          let txs ← add txs t
          let value ← add value v
          .ok (txs, value))
        (1, fee)

def subtreeCost (targets : List Nat) (fee : Nat) : PrepResult (Nat × Nat) :=
  subtreeCostLoop fee (splitDepth targets.length) targets

def buildSplit (fee : Nat) : Nat → PrepInput → Nat → List Nat → Nat → Layers → PrepResult Layers
  | 0, _, _, _, _, _ => .error .outOfFuel
  | fuel + 1, source, sourceValue, targets, layer, layers =>
    let layers := layers.pad layer
    let txIndex := layers.rowLength layer
    if splitDepth targets.length ≤ 1 then do
      let outputs ← targets.mapM (fun v => PrepOutput.funding <$> zat v)
      let spent ← sum targets
      let leftover ← sub sourceValue fee
      let leftover ← sub leftover spent
      let leftover ← leftoverOutput leftover
      .ok (layers.push layer ⟨[source], outputs ++ leftover⟩)
    else do
      let groups := splitGroups targets
      let childValues ← groups.mapM fun group => Prod.snd <$> subtreeCost group fee
      let outputs ← childValues.mapM (fun v => PrepOutput.intermediate <$> zat v)
      let spent ← sum childValues
      let leftover ← sub sourceValue fee
      let leftover ← sub leftover spent
      let leftover ← leftoverOutput leftover
      buildChildren
        (fun child value group layers => buildSplit fee fuel child value group (layer + 1) layers)
        layer txIndex 0 (groups.zip childValues)
        (layers.push layer ⟨[source], outputs ++ leftover⟩)

def assignFunding (budget : Nat) :
    List Nat → Nat → Nat → PrepResult (List Nat × List Nat × Nat)
  | [], _, used => .ok ([], [], used)
  | value :: remaining, count, used =>
    if count < fundingOutputsPerTx then do
      let total ← add used value
      if total ≤ budget then do
        let (assigned, kept, used) ← assignFunding budget remaining (count + 1) total
        .ok (value :: assigned, kept, used)
      else do
        let (assigned, kept, used) ← assignFunding budget remaining count used
        .ok (assigned, value :: kept, used)
    else .ok ([], value :: remaining, used)

/-- Whether a note is too small for the smallest remaining funding value. -/
def tooSmall (value fee smallest : Nat) : PrepResult Bool :=
  if value ≤ fee then .ok true
  else do
    let rest ← sub value fee
    .ok (decide (rest < smallest))

def assignPass (fee : Nat) :
    List PrepInput → List Nat → PrepResult (List PartialTx × List PrepInput × List Nat)
  | [], remaining => .ok ([], [], remaining)
  | input :: notes, remaining =>
    match remaining.getLast? with
    | none => assignPass fee notes remaining
    | some smallest => do
      let value := input.value.value
      if ← tooSmall value fee smallest then do
        let (partials, consolidatable, remaining) ← assignPass fee notes remaining
        .ok (partials, input :: consolidatable, remaining)
      else do
        let budget ← sub value fee
        let (assigned, kept, used) ← assignFunding budget remaining 0 0
        let leftover ← sub budget used
        let (partials, consolidatable, remaining) ← assignPass fee notes kept
        .ok (⟨input, assigned, leftover⟩ :: partials, consolidatable, remaining)

def greedyLoop (sort : NoteSort) (fee : Nat) :
    Nat → List Nat → List PrepInput → Layers → PrepResult Layers
  | 0, _, _, _ => .error .outOfFuel
  | fuel + 1, remaining, current, layers =>
    if remaining = [] then .ok layers
    else if current = [] then .error .insufficientFunds
    else do
      let (partials, consolidatable, remaining) ← assignPass fee (sort.sort current) remaining
      let (txs, next) ← mintPass layers.length partials [] []
      let ⟨txs, next, _⟩ ← consolidate sort consolidatable layers.length fee txs next
      if txs = [] then .error .insufficientFunds
      else greedyLoop sort fee fuel remaining next (layers ++ [txs])

def residualLoop (sort : NoteSort) (fee : Nat) : Nat → Layers → PrepResult Layers
  | 0, _ => .error .outOfFuel
  | fuel + 1, layers =>
    let pool := unconsumedFeeders layers
    if pool.length ≤ 1 then .ok layers
    else do
      let ⟨txs, _, _⟩ ← consolidate sort pool layers.length fee [] []
      if txs = [] then .ok layers else residualLoop sort fee fuel (layers ++ [txs])

def splitLargest (fee : Nat) (values : List Nat) (used : List Bool) (remaining : List Nat) :
    PrepResult (List Nat × Layers) :=
  match largestUnused values used with
  | some (index, big) => do
    let cost ← subtreeCost remaining fee
    if cost.2 ≤ big then do
      let value ← zat big
      let layers ← buildSplit fee (splitDepth remaining.length + 1) (.wallet index value) big
        remaining 0 []
      .ok ([], layers)
    else .ok (remaining, [])
  | none => .ok (remaining, [])

def planPreparationGreedy (sort : NoteSort) (available funding : List Zatoshis)
    (feePerTx : Zatoshis) : PrepResult PreparationPlan :=
  if !totalsValid available funding then .error .balanceInvalid
  else do
    let fee := feePerTx.value
    let values := available.map Zatoshis.value
    let (used, directFunding, remaining) ←
      extractDirectFunding values (positiveTargets funding) (List.replicate values.length false)
    if remaining = [] then .ok ⟨[], directFunding⟩
    else do
      let (remaining, layers) ← splitLargest fee values used remaining
      let current := walletNotes available used (fun _ => true)
      let layers ←
        greedyLoop sort fee (remaining.length + current.length + 1) remaining current layers
      let layers ← residualLoop sort fee ((unconsumedFeeders layers).length + 1) layers
      .ok ⟨relabelUnspent layers, directFunding⟩

def mergeLoop (sort : NoteSort) (fee : Nat) :
    Nat → List PrepInput → Layers → PrepResult (List PrepInput × Layers)
  | 0, _, _ => .error .outOfFuel
  | fuel + 1, current, layers =>
    if current.length ≤ 1 then .ok (current, layers)
    else do
      let ⟨txs, next, leftover⟩ ← consolidate sort current layers.length fee [] []
      if txs = [] then .error .insufficientFunds
      else mergeLoop sort fee fuel (next ++ leftover) (layers ++ [txs])

def planPreparationViaConsolidation (sort : NoteSort) (available funding : List Zatoshis)
    (feePerTx : Zatoshis) : PrepResult PreparationPlan :=
  if !totalsValid available funding then .error .balanceInvalid
  else do
    let fee := feePerTx.value
    let values := available.map Zatoshis.value
    let (used, directFunding, targets) ←
      extractDirectFunding values (positiveTargets funding) (List.replicate values.length false)
    if targets = [] then .ok ⟨[], directFunding⟩
    else do
      let current := walletNotes available used (0 < ·)
      if current = [] then .error .insufficientFunds
      else do
        let (current, layers) ← mergeLoop sort fee (current.length + 1) current []
        match current.getLast? with
        | none => .error .panicked
        | some source => do
          let cost ← subtreeCost targets fee
          if source.value.value < cost.2 then .error .insufficientFunds
          else do
            let layers ← buildSplit fee (splitDepth targets.length + 1) source source.value.value
              targets layers.length layers
            .ok ⟨relabelUnspent layers, directFunding⟩

def planPreparation (sort : NoteSort) (available funding : List Zatoshis) (feePerTx : Zatoshis) :
    PrepResult PreparationPlan :=
  match planPreparationGreedy sort available funding feePerTx with
  | .error .insufficientFunds => planPreparationViaConsolidation sort available funding feePerTx
  | result => result

end CoppiceWallet.Planner.Checked
