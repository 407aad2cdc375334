import Mathlib.Algebra.GroupWithZero.Nat
import CoppiceWallet.Lib.Result
import CoppiceWallet.SyncEngine.Markers

/-!
# Tips, scan ranges and rewinds

What the engine reads of the wallet database, how it relates a tip of the server to it, and when it
takes a scan as complete.
-/

namespace CoppiceWallet.SyncEngine

open CoppiceWallet.Lib

inductive SyncError
  | continuity (atHeight : Nat)
  | network
  | db
  | parse
  | other
  deriving DecidableEq

inductive RecoveryStrategy
  | retryWithBackoff
  | rewind (toHeight : Nat)
  | fatal
  deriving DecidableEq

def rewindDistance : Nat := 10

def maxRewindsPerRun : Nat := 3

def SyncError.recoveryStrategy : SyncError → RecoveryStrategy
  | .continuity atHeight => .rewind (atHeight - rewindDistance)
  | .network | .other => .retryWithBackoff
  | .db | .parse => .fatal

/-- A lock that another connection holds is worth a retry. -/
def databaseError (lockContention : Bool) : SyncError :=
  if lockContention then .other else .db

def blockHeightFromU64 (height : Nat) : Except SyncError Nat :=
  if height < 2 ^ 32 then .ok height else .error .parse

inductive ScanPriority
  | ignored | scanned | historic | openAdjacent | foundNote | chainTip | verify
  deriving DecidableEq

/-- A range of the scan queue, which is never empty. -/
structure ScanRange where
  start : Nat
  stop : Nat
  priority : ScanPriority
  nonempty : start < stop

abbrev BlockHash := { bytes : List UInt8 // bytes.length = 32 }

def BlockHash.tryFromSlice (bytes : List UInt8) : Option BlockHash :=
  if h : bytes.length = 32 then some ⟨bytes,h⟩ else none

/-- What the engine reads of the wallet database: `suggest_scan_ranges`, `wallet_scan_heights` (the
fully scanned height and the chain tip) and `get_block_hash`. -/
structure WalletView where
  suggestScanRanges : List ScanRange
  walletScanHeights : Option (Nat × Nat)
  getBlockHash : Nat → Option BlockHash

def isPendingScanRange (range : ScanRange) : Bool :=
  range.priority != .ignored && range.priority != .scanned

def pendingScanBlocks (ranges : List ScanRange) : Nat :=
  ((ranges.filter isPendingScanRange).map fun range => range.stop - range.start).sum

theorem pendingScanBlocks_eq_zero {ranges : List ScanRange} :
    pendingScanBlocks ranges = 0 ↔ ∀ range ∈ ranges, isPendingScanRange range = false := by
  unfold pendingScanBlocks
  rw [List.sum_eq_zero_iff_forall_eq_nat]
  constructor
  · intro h range hrange
    by_contra hpending
    have hmem : range ∈ ranges.filter isPendingScanRange :=
      List.mem_filter.mpr ⟨hrange,by simpa using hpending⟩
    have hzero := h _ (List.mem_map_of_mem hmem)
    have hnonempty := range.nonempty
    omega
  · intro h n hn
    obtain ⟨range,hrange,-⟩ := List.mem_map.mp hn
    have hpending := List.mem_filter.mp hrange
    simp [h range hpending.1] at hpending

def WalletView.pending (wallet : WalletView) : Nat := pendingScanBlocks wallet.suggestScanRanges

/-- A `BlockID`, whose hash the server may leave out. -/
structure ServerTip where
  height : Nat
  hash : List UInt8

inductive RefreshedTipRelation
  | unchanged
  | unchangedUnverified
  | advanced
  | reorg
  | serverBehind
  deriving DecidableEq

def storedHashForRefreshedTip (wallet : WalletView) (currentHeight freshHeight : Nat) :
    Option BlockHash :=
  if freshHeight ≠ currentHeight then none else wallet.getBlockHash freshHeight

def parseFreshHash (freshHash : List UInt8) : Except SyncError (Option BlockHash) :=
  if freshHash.isEmpty then .ok none
  else
    match BlockHash.tryFromSlice freshHash with
    | some hash => .ok (some hash)
    | none => .error .network

def classifyRefreshedTip (currentHeight : Nat) (storedHash : Option BlockHash) (freshHeight : Nat)
    (freshHash : List UInt8) : Except SyncError RefreshedTipRelation :=
  if freshHeight < currentHeight then .ok .serverBehind
  else
    match parseFreshHash freshHash with
    | .error error => .error error
    | .ok freshHash =>
      if currentHeight < freshHeight then .ok .advanced
      else
        match storedHash,freshHash with
        | some _,none => .error .network
        | some stored,some fresh => .ok (if stored ≠ fresh then .reorg else .unchanged)
        | none,_ => .ok (if 0 < currentHeight then .unchangedUnverified else .unchanged)

def tipHashFallbackRequired (currentHeight : Nat) (storedHash : Option BlockHash)
    (freshHeight : Nat) (freshHash : List UInt8) : Bool :=
  freshHeight == currentHeight && storedHash.isSome && freshHash.isEmpty

/-- A server that leaves out the hash of the tip is asked for the compact block at its height. -/
def classifyRefreshedTipWithFallback (wallet : WalletView) (currentHeight : Nat) (tip : ServerTip)
    (compactBlockHash : Except SyncError BlockHash) : Except SyncError RefreshedTipRelation :=
  let storedHash := storedHashForRefreshedTip wallet currentHeight tip.height
  if tipHashFallbackRequired currentHeight storedHash tip.height tip.hash then
    match compactBlockHash with
    | .error error => .error error
    | .ok hash => classifyRefreshedTip currentHeight storedHash tip.height hash.val
  else classifyRefreshedTip currentHeight storedHash tip.height tip.hash

def finalTipRefreshMinAge : Nat := 5

def tipRefreshInterval : Nat := 600

def shouldRefreshTipBeforeCompletion (validationRequired : Bool) (validationAge : Nat) : Bool :=
  validationRequired || finalTipRefreshMinAge ≤ validationAge

/-- What `truncate_to_height` answers. -/
inductive TruncateAnswer
  | truncated (height : Nat) (wallet : WalletView)
  | requestedRewindInvalid (safeRewindHeight : Option Nat)
  | failed (lockContention : Bool)

/-- `truncate_to_height`, and once more at the height the wallet reports as safe. The wallet that a
truncation leaves, if there was one, and the height or the error; `validate` looks at a safe height
before it is used and at the height that was reached. -/
def truncateWalletWith (validate : Nat → Except SyncError Nat) (first retry : TruncateAnswer) :
    Option WalletView × Except SyncError Nat :=
  match first with
  | .truncated height wallet => (some wallet,validate height)
  | .requestedRewindInvalid none => (none,.error .db)
  | .failed lockContention => (none,.error (databaseError lockContention))
  | .requestedRewindInvalid (some safeHeight) =>
    match validate safeHeight with
    | .error error => (none,.error error)
    | .ok _ =>
      match retry with
      | .truncated height wallet => (some wallet,validate height)
      | .requestedRewindInvalid _ => (none,.error .db)
      | .failed lockContention => (none,.error (databaseError lockContention))

def validateReorgRewindHeight (freshTipHeight rewindHeight : Nat) : Except SyncError Nat :=
  if rewindHeight < freshTipHeight then .ok rewindHeight else .error .db

def confirmedReorgRewindTarget (freshTipHeight : Nat) : Except SyncError Nat :=
  if freshTipHeight = 0 then .error .network else .ok (freshTipHeight - 1)

def sandblastingStart : Nat := 1710000

def sandblastingEnd : Nat := 2050000

def batchSizeSandblasting : Nat := 100

def plannedBatchEnd (baseBatchSize start rangeEnd : Nat) : Option (Nat × Nat) :=
  if rangeEnd ≤ start then none
  else if start < sandblastingStart then
    some (baseBatchSize,min (start + baseBatchSize) (min rangeEnd sandblastingStart))
  else if start < sandblastingEnd then
    some (batchSizeSandblasting,min (start + batchSizeSandblasting) (min rangeEnd sandblastingEnd))
  else some (baseBatchSize,min (start + baseBatchSize) rangeEnd)

def chainTipExclusiveEnd (currentTipHeight : Nat) : Nat :=
  min (min currentTipHeight (2 ^ 32 - 1) + 1) (2 ^ 32 - 1)

def scannableBatchEnd (baseBatchSize start rangeEnd currentTipHeight : Nat) :
    Option (Nat × Nat) :=
  let availableEnd := min rangeEnd (chainTipExclusiveEnd currentTipHeight)
  if availableEnd ≤ start then none else plannedBatchEnd baseBatchSize start availableEnd

def validateCompleteScanHeights (currentTipHeight : Nat) (walletHeights : Option (Nat × Nat)) :
    Except SyncError (Nat × Nat) :=
  match walletHeights with
  | none => if currentTipHeight = 0 then .ok (0,0) else .error .db
  | some (fullyScannedHeight,dbTipHeight) =>
    if dbTipHeight ≠ currentTipHeight then .error (.continuity currentTipHeight)
    else if fullyScannedHeight ≠ dbTipHeight then .error (.continuity dbTipHeight)
    else .ok (fullyScannedHeight,dbTipHeight)

def validateCompleteTipHash (currentTipHeight : Nat) (storedTipHash : Option BlockHash) :
    Except SyncError Unit :=
  if currentTipHeight = 0 ∨ storedTipHash.isSome then .ok () else .error .db

/-- No hash is asked for at height zero. -/
def storedTipHash (wallet : WalletView) (currentTipHeight : Nat) :
    Except SyncError (Option BlockHash) :=
  if currentTipHeight = 0 then .ok none
  else (blockHeightFromU64 currentTipHeight).map wallet.getBlockHash

def ensureCompleteScanState (wallet : WalletView) (currentTipHeight : Nat) :
    Except SyncError (Nat × Nat) := do
  if 0 < wallet.pending then
    throw (.continuity currentTipHeight)
  let heights ← validateCompleteScanHeights currentTipHeight wallet.walletScanHeights
  let hash ← storedTipHash wallet currentTipHeight
  validateCompleteTipHash currentTipHeight hash
  pure heights

/-- What a wallet has to show for a completed sync at a height: at height zero, a wallet may know no
heights and stores no hash. -/
structure ScannedTo (wallet : WalletView) (height : Nat) : Prop where
  drained : ∀ range ∈ wallet.suggestScanRanges, isPendingScanRange range = false
  heights : wallet.walletScanHeights = some (height,height) ∨
    height = 0 ∧ wallet.walletScanHeights = none
  hash : height ≠ 0 → (wallet.getBlockHash height).isSome

theorem validateCompleteScanHeights_ok {currentTipHeight : Nat}
    {walletHeights : Option (Nat × Nat)} {heights : Nat × Nat}
    (h : validateCompleteScanHeights currentTipHeight walletHeights = .ok heights) :
    heights = (currentTipHeight,currentTipHeight) ∧
      (walletHeights = some (currentTipHeight,currentTipHeight) ∨
        currentTipHeight = 0 ∧ walletHeights = none) := by
  unfold validateCompleteScanHeights at h
  split at h
  · split at h
    · rename_i hzero
      cases h
      exact ⟨by rw [hzero],.inr ⟨hzero,rfl⟩⟩
    · cases h
  · split at h
    · cases h
    · rename_i htip
      split at h
      · cases h
      · rename_i hscanned
        have htip := not_not.mp htip
        have hscanned := not_not.mp hscanned
        cases h
        subst hscanned htip
        exact ⟨rfl,.inl rfl⟩

theorem blockHeightFromU64_ok {height height' : Nat}
    (h : blockHeightFromU64 height = .ok height') : height' = height := by
  unfold blockHeightFromU64 at h
  split at h
  · exact (Except.ok.inj h).symm
  · cases h

theorem validateCompleteTipHash_ok {currentTipHeight : Nat} {storedTipHash : Option BlockHash}
    (h : validateCompleteTipHash currentTipHeight storedTipHash = .ok ()) :
    currentTipHeight ≠ 0 → storedTipHash.isSome := by
  unfold validateCompleteTipHash at h
  split at h
  · rename_i hpresent
    exact hpresent.resolve_left
  · cases h

theorem storedTipHash_ok {wallet : WalletView} {currentTipHeight : Nat} {hash : Option BlockHash}
    (h : storedTipHash wallet currentTipHeight = .ok hash) (hzero : currentTipHeight ≠ 0) :
    hash = wallet.getBlockHash currentTipHeight := by
  unfold storedTipHash at h
  rw [if_neg hzero] at h
  obtain ⟨height,hheight,rfl⟩ := map_ok h
  rw [blockHeightFromU64_ok hheight]

theorem ensureCompleteScanState_ok {wallet : WalletView} {currentTipHeight : Nat}
    {heights : Nat × Nat} (h : ensureCompleteScanState wallet currentTipHeight = .ok heights) :
    heights = (currentTipHeight,currentTipHeight) ∧ ScannedTo wallet currentTipHeight := by
  unfold ensureCompleteScanState at h
  by_cases hpending : 0 < wallet.pending
  · rw [if_pos hpending] at h
    cases h
  rw [if_neg hpending] at h
  have hdrained : wallet.pending = 0 := by omega
  obtain ⟨heights',hheights,h⟩ := bind_ok h
  obtain ⟨hequal,hknown⟩ := validateCompleteScanHeights_ok hheights
  obtain ⟨hash,hstored,h⟩ := bind_ok h
  obtain ⟨_,hhash,h⟩ := bind_ok h
  cases h
  refine ⟨hequal,pendingScanBlocks_eq_zero.mp hdrained,hknown,fun hzero => ?_⟩
  rw [← storedTipHash_ok hstored hzero]
  exact validateCompleteTipHash_ok hhash hzero

end CoppiceWallet.SyncEngine
