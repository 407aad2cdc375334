import Mathlib.Data.List.Basic

/-! # What the sync engine remembers of its runs -/

namespace CoppiceWallet.SyncEngine

def witnessCheckPolicyVersion : Nat := 1

def witnessCheckMaxCleanAgeBlocks : Nat := 10000

def syncCompletionPolicyVersion : Nat := 1

/-- The rows of `ext_vizor_sync_meta`, read as numbers. -/
structure SyncMeta where
  witnessCheckPolicyVersion : Option Nat
  witnessCheckLastCleanHeight : Option Nat
  syncCompletionPolicyVersion : Option Nat
  lastCompletedSyncHeight : Option Nat
  syncInProgress : Option Nat
  deriving DecidableEq

namespace SyncMeta

/-- A wallet that no run of this version has touched. -/
def empty : SyncMeta := ⟨none,none,none,none,none⟩

def markWitnessCheckClean (rows : SyncMeta) (currentTipHeight : Nat) : SyncMeta :=
  { rows with
    witnessCheckPolicyVersion := some SyncEngine.witnessCheckPolicyVersion
    witnessCheckLastCleanHeight := some currentTipHeight }

/-- `initialize_sync_completion_policy`: the first writer of the policy row decides. -/
def initializeSyncCompletionPolicy (rows : SyncMeta) (legacyCompletedHeight : Option Nat) :
    SyncMeta :=
  match rows.syncCompletionPolicyVersion with
  | some _ => rows
  | none =>
    { rows with
      syncCompletionPolicyVersion := some SyncEngine.syncCompletionPolicyVersion
      syncInProgress := some (rows.syncInProgress.getD 0)
      lastCompletedSyncHeight :=
        match legacyCompletedHeight with
        | some height => some height
        | none => rows.lastCompletedSyncHeight }

def markSyncStarted (rows : SyncMeta) : SyncMeta :=
  { rows with
    syncCompletionPolicyVersion := some SyncEngine.syncCompletionPolicyVersion
    syncInProgress := some 1 }

def markSyncCompleted (rows : SyncMeta) (completedTipHeight : Nat) : SyncMeta :=
  { rows with
    syncCompletionPolicyVersion := some SyncEngine.syncCompletionPolicyVersion
    lastCompletedSyncHeight := some completedTipHeight
    syncInProgress := some 0 }

/-- The in-progress row is a number that counts as set unless it is zero. -/
def inProgress (rows : SyncMeta) : Option Bool :=
  rows.syncInProgress.map (· != 0)

/-- The completed height, unless a run is in progress. -/
def completedUnlessInProgress (rows : SyncMeta) : Option Nat :=
  if rows.inProgress = some false then rows.lastCompletedSyncHeight else none

end SyncMeta

structure WitnessCheckMeta where
  policyVersion : Option Nat
  lastCleanHeight : Option Nat
  deriving DecidableEq

inductive WitnessCheckRunReason
  | forced
  | missingMarker
  | policyVersionChanged (stored : Nat)
  | tipBelowLastClean (lastCleanHeight : Nat)
  | maxCleanAgeReached (ageBlocks : Nat)
  | metadataUnavailable
  deriving DecidableEq

inductive WitnessCheckDecision
  | run (reason : WitnessCheckRunReason)
  | skip (lastCleanHeight ageBlocks : Nat)
  deriving DecidableEq

/-- The check is skipped only on a marker of this policy that is neither above the tip nor too
old. -/
def decideWitnessCheck (rows : WitnessCheckMeta) (currentTipHeight : Nat) (forceCheck : Bool) :
    WitnessCheckDecision :=
  if forceCheck then .run .forced
  else
    match rows.policyVersion with
    | none => .run .missingMarker
    | some stored =>
      if stored ≠ witnessCheckPolicyVersion then .run (.policyVersionChanged stored)
      else
        match rows.lastCleanHeight with
        | none => .run .missingMarker
        | some lastCleanHeight =>
          if currentTipHeight < lastCleanHeight then .run (.tipBelowLastClean lastCleanHeight)
          else if witnessCheckMaxCleanAgeBlocks ≤ currentTipHeight - lastCleanHeight then
            .run (.maxCleanAgeReached (currentTipHeight - lastCleanHeight))
          else .skip lastCleanHeight (currentTipHeight - lastCleanHeight)

def readWitnessCheckMeta (rows : SyncMeta) : WitnessCheckMeta :=
  ⟨rows.witnessCheckPolicyVersion,rows.witnessCheckLastCleanHeight⟩

/-- Rows that cannot be read are no reason to skip. -/
def witnessCheckDecision (rows : SyncMeta) (readable : Bool) (currentTipHeight : Nat)
    (forceCheck : Bool) : WitnessCheckDecision :=
  if readable then decideWitnessCheck (readWitnessCheckMeta rows) currentTipHeight forceCheck
  else .run .metadataUnavailable

theorem decideWitnessCheck_forced (rows : WitnessCheckMeta) (currentTipHeight : Nat) :
    decideWitnessCheck rows currentTipHeight true = .run .forced := rfl

/-- Where a status read is between two of its transactions. -/
inductive StatusRead
  | reading (scannedHeight chainTipHeight : Nat)
  | initializing (scannedHeight chainTipHeight : Nat)
  | rereading
  deriving DecidableEq

/-- The tip that a wallet without a policy row counts as completed: one that it has scanned
fully. -/
def legacyCompletedHeight (scannedHeight chainTipHeight : Nat) : Option Nat :=
  if 0 < chainTipHeight ∧ chainTipHeight ≤ scannedHeight then some chainTipHeight else none

/-- `completed_sync_height_for_status`, one transaction at a time: the answer, or where the read
goes on. -/
def StatusRead.advance (rows : SyncMeta) : StatusRead → SyncMeta × (Option Nat ⊕ StatusRead)
  | .reading scannedHeight chainTipHeight =>
    match rows.syncCompletionPolicyVersion with
    | some version =>
      if version = syncCompletionPolicyVersion then
        (rows,.inl rows.completedUnlessInProgress)
      else (rows,.inl none)
    | none => (rows,.inr (.initializing scannedHeight chainTipHeight))
  | .initializing scannedHeight chainTipHeight =>
    (rows.initializeSyncCompletionPolicy (legacyCompletedHeight scannedHeight chainTipHeight),
      .inr .rereading)
  | .rereading => (rows,.inl rows.completedUnlessInProgress)

end CoppiceWallet.SyncEngine
