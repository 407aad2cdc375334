import CoppiceWallet.Store.Model
import Mathlib.Data.List.Basic

/-!
# Transfer schedules

How broadcast offsets are drawn, stored and checked. The exponential sampling is a parameter: a
delay stays within its maximum and a shuffle is a permutation.
-/

namespace CoppiceWallet.Store

open CoppiceWallet.Lib

def zip318TransferMeanDelayBlocks : Nat := 144
def zip318TransferMaxDelayBlocks : Nat := 576
def ninetyMinuteTransferMeanDelayBlocks : Nat := 66
def regtestTransferMeanDelayBlocks : Nat := 1
def regtestTransferMaxDelayBlocks : Nat := 4
def fastTestnetTransferMeanDelayBlocks : Nat := 12
def fastTestnetTransferMaxDelayBlocks : Nat := 48
def denseMigrationPartThreshold : Nat := 10

/-- The mean and the maximal delay between two transfers. -/
def scheduleParametersWithPolicy (network : WalletNetwork) (timingPolicy : MigrationTimingPolicy) :
    Nat × Nat :=
  match network, timingPolicy with
  | .regtest, .fastTestnet => (fastTestnetTransferMeanDelayBlocks, fastTestnetTransferMaxDelayBlocks)
  | .regtest, _ => (regtestTransferMeanDelayBlocks, regtestTransferMaxDelayBlocks)
  | .test, .fastTestnet => (fastTestnetTransferMeanDelayBlocks, fastTestnetTransferMaxDelayBlocks)
  | _, .standard90Minutes => (ninetyMinuteTransferMeanDelayBlocks, zip318TransferMaxDelayBlocks)
  | _, .standard90MinutesLatestAnchor =>
    (ninetyMinuteTransferMeanDelayBlocks, zip318TransferMaxDelayBlocks)
  | _, _ => (zip318TransferMeanDelayBlocks, zip318TransferMaxDelayBlocks)

def scheduleParametersWithPolicyForPartCount (network : WalletNetwork)
    (timingPolicy : MigrationTimingPolicy) (partCount : Nat) : Nat × Nat :=
  let (meanDelayBlocks, maxDelayBlocks) := scheduleParametersWithPolicy network timingPolicy
  (if denseMigrationPartThreshold < partCount then max (meanDelayBlocks / 2) 1
    else meanDelayBlocks, maxDelayBlocks)

/-- One use of the random generator: the delays it samples, by draw, mean and maximum, and the order
into which it shuffles the indices below a count. -/
structure Rng where
  delay : Nat → Nat → Nat → Nat
  delay_le : ∀ draw mean max, delay draw mean max ≤ max
  shuffled : Nat → List Nat
  shuffled_perm : ∀ count, (shuffled count).Perm (List.range count)

namespace Rng

/-- The generator that never delays and shuffles nothing. -/
instance : Inhabited Rng :=
  ⟨{ delay := fun _ _ _ => 0
     delay_le := fun _ _ _ => Nat.zero_le _
     shuffled := List.range
     shuffled_perm := fun _ => .refl _ }⟩

def shuffle {α : Type} (rng : Rng) (xs : List α) : List α :=
  (rng.shuffled xs.length).filterMap fun i => xs[i]?

theorem shuffle_perm {α : Type} (rng : Rng) (xs : List α) : (rng.shuffle xs).Perm xs := by
  refine ((rng.shuffled_perm xs.length).filterMap _).trans (List.Perm.of_eq ?_)
  refine List.ext_getElem? fun i => ?_
  induction xs generalizing i with
  | nil => rfl
  | cons x xs ih =>
    rw [List.length_cons,List.range_succ_eq_map,List.filterMap_cons,List.filterMap_map]
    cases i with
    | zero => rfl
    | succ i => simpa [Function.comp_def] using ih i

theorem mem_shuffle {α : Type} (rng : Rng) {xs : List α} {x : α} : x ∈ rng.shuffle xs ↔ x ∈ xs :=
  (rng.shuffle_perm xs).mem_iff

end Rng

def randomScheduleBlockOffsetsFrom (rng : Rng) (meanDelayBlocks maxDelayBlocks : Nat) :
    Nat → Nat → Nat → List Nat
  | _, _, 0 => []
  | elapsedBlocks, draw, count + 1 =>
    let elapsedBlocks :=
      saturatingAddU32 elapsedBlocks (rng.delay draw meanDelayBlocks maxDelayBlocks)
    elapsedBlocks ::
      randomScheduleBlockOffsetsFrom rng meanDelayBlocks maxDelayBlocks elapsedBlocks (draw + 1) count

/-- Cumulative offsets of `count` transfers. -/
def randomScheduleBlockOffsets (rng : Rng) (count meanDelayBlocks maxDelayBlocks : Nat) : List Nat :=
  randomScheduleBlockOffsetsFrom rng meanDelayBlocks maxDelayBlocks 0 0 count

theorem randomScheduleBlockOffsetsFrom_length (rng : Rng) (mean max elapsed draw count : Nat) :
    (randomScheduleBlockOffsetsFrom rng mean max elapsed draw count).length = count := by
  induction count generalizing elapsed draw with
  | zero => rfl
  | succ count ih => rw [randomScheduleBlockOffsetsFrom,List.length_cons,ih]

@[simp] theorem randomScheduleBlockOffsets_length (rng : Rng) (count mean max : Nat) :
    (randomScheduleBlockOffsets rng count mean max).length = count :=
  randomScheduleBlockOffsetsFrom_length rng mean max 0 0 count

def plannedTransferScheduleWithPolicy (rng : Rng) (values : List Nat) (network : WalletNetwork)
    (timingPolicy : MigrationTimingPolicy) : List MigrationScheduleEntry :=
  let parts := rng.shuffle ((List.range values.length).zip values)
  let (meanDelayBlocks, maxDelayBlocks) :=
    scheduleParametersWithPolicyForPartCount network timingPolicy parts.length
  let offsets := randomScheduleBlockOffsets rng parts.length meanDelayBlocks maxDelayBlocks
  parts.zipWith (fun part blockOffset => ⟨some part.1,part.2,blockOffset⟩) offsets

/-- The entry of a part. Legacy schedules carry no part indexes; equal values are then matched by
their rank in the plan. -/
def scheduleEntryForPart (schedule : List MigrationScheduleEntry) (targetValues : List Nat)
    (partIndex value : Nat) : Option MigrationScheduleEntry :=
  if schedule.all (fun entry => entry.partIndex.isSome) then
    schedule.find? fun entry => decide (entry.partIndex = some partIndex ∧ entry.value = value)
  else if targetValues[partIndex]? ≠ some value then none
  else
    let equalValueRank := (targetValues.take partIndex).countP fun v => decide (v = value)
    (schedule.filter fun entry => decide (entry.value = value))[equalValueRank]?

def scheduleBlockOffsetForPart (schedule : List MigrationScheduleEntry) (targetValues : List Nat)
    (partIndex value : Nat) : Option Nat :=
  (scheduleEntryForPart schedule targetValues partIndex value).map MigrationScheduleEntry.blockOffset

def validateScheduleEntryPartIndexes (targetValues : List Nat) :
    List Nat → List MigrationScheduleEntry → StoreResult Unit
  | _, [] => .ok ()
  | seen, entry :: entries => do
    let partIndex ← okOr entry.partIndex "Approved migration schedule part indexes are incomplete"
    let value ← okOr targetValues[partIndex]?
      "Approved migration schedule part index is outside the plan"
    if seen.contains partIndex then .error "Approved migration schedule part index is duplicated"
    else if value ≠ entry.value then .error "Approved migration schedule part value changed"
    else validateScheduleEntryPartIndexes targetValues (partIndex :: seen) entries

def validateSchedulePartIndexes (schedule : List MigrationScheduleEntry) (targetValues : List Nat) :
    StoreResult Unit :=
  if schedule.all (fun entry => entry.partIndex.isNone) then .ok ()
  else if schedule.any (fun entry => entry.partIndex.isNone) then
    .error "Approved migration schedule part indexes are incomplete"
  else validateScheduleEntryPartIndexes targetValues [] schedule

def validateScheduleGaps (maxDelayBlocks : Nat) :
    Nat → List MigrationScheduleEntry → StoreResult Unit
  | _, [] => .ok ()
  | previousOffset, entry :: entries => do
    let gap ← okOr (checkedSub entry.blockOffset previousOffset)
      "Approved migration schedule is not ordered"
    if maxDelayBlocks < gap then .error "Approved migration schedule delay is outside policy"
    else validateScheduleGaps maxDelayBlocks entry.blockOffset entries

def validateScheduleWithPolicy (schedule : List MigrationScheduleEntry) (targetValues : List Nat)
    (network : WalletNetwork) (timingPolicy : MigrationTimingPolicy) : StoreResult Unit :=
  if schedule.length ≠ targetValues.length then .error "Approved migration schedule count changed"
  else if (schedule.map MigrationScheduleEntry.value).insertionSort (· ≤ ·) ≠
      targetValues.insertionSort (· ≤ ·) then
    .error "Approved migration schedule values changed"
  else do
    validateSchedulePartIndexes schedule targetValues
    validateScheduleGaps (scheduleParametersWithPolicy network timingPolicy).2 0 schedule

/-- Hand the offset at each position of `slots` to the index that stands there. -/
def assignSlots (count : Nat) (slots offsets : List Nat) : List Nat :=
  (slots.zip offsets).foldl (fun assigned p => assigned.set p.1 p.2) (List.replicate count 0)

/-- Fresh cumulative offsets for rebuilt parts, in the order of `recoveries` and handed out in a
shuffled order. -/
def rebuildScheduleBlockOffsets (rng : Rng) (schedule : List MigrationScheduleEntry)
    (targetValues : List Nat) (recoveries : List (Nat × Nat)) (network : WalletNetwork)
    (timingPolicy : MigrationTimingPolicy) : StoreResult (List Nat) := do
  let _ ← recoveries.mapM fun part =>
    okOr (scheduleBlockOffsetForPart schedule targetValues part.1 part.2)
      "Approved migration schedule is missing a recovery child"
  let (meanDelayBlocks, maxDelayBlocks) := scheduleParametersWithPolicy network timingPolicy
  let offsets := randomScheduleBlockOffsets rng recoveries.length meanDelayBlocks maxDelayBlocks
  return assignSlots recoveries.length (rng.shuffled recoveries.length) offsets

private theorem assignSlots_foldl_length (ps : List (Nat × Nat)) (xs : List Nat) :
    (ps.foldl (fun assigned p => assigned.set p.1 p.2) xs).length = xs.length := by
  induction ps generalizing xs with
  | nil => rfl
  | cons p ps ih => rw [List.foldl_cons,ih,List.length_set]

theorem rebuildScheduleBlockOffsets_length {rng : Rng} {schedule : List MigrationScheduleEntry}
    {targetValues : List Nat} {recoveries : List (Nat × Nat)} {network : WalletNetwork}
    {timingPolicy : MigrationTimingPolicy} {offsets : List Nat}
    (h : rebuildScheduleBlockOffsets rng schedule targetValues recoveries network timingPolicy =
      .ok offsets) : offsets.length = recoveries.length := by
  rw [rebuildScheduleBlockOffsets] at h
  obtain ⟨_,_,h⟩ := bind_ok h
  cases h
  rw [assignSlots,assignSlots_foldl_length,List.length_replicate]

end CoppiceWallet.Store
