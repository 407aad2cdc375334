import CoppiceWallet.Store.Model
import CoppiceWallet.Lib.CyclicSweep
import CoppiceWallet.Lib.Lists
import Mathlib.Data.List.Induction
import Mathlib.Data.List.Sort

/-!
# Refreshing the outputs of the external addresses

A round asks for the outputs of the newest addresses and of a window of the older ones. What was
asked for is kept for each address, and the window's place in the list.
-/

namespace CoppiceWallet.Receive

open CoppiceWallet.Lib
open CoppiceWallet.Store (WalletNetwork)

structure ExternalTransparentAddress where
  childIndex : UInt32
  address : String
  hasReceived : Bool
deriving DecidableEq, Repr

structure CachedExternalAddress where
  childIndex : UInt32
  address : String
  hasReceived : Bool
deriving DecidableEq, Repr

structure CachedUtxoCheck where
  childIndex : UInt32
  nextStartHeight : Nat
deriving DecidableEq, Repr

structure CacheRecord where
  version : Nat
  network : String
  dirty : Bool
  refreshedScannedHeight : Option Nat
  externalAddresses : List CachedExternalAddress
  utxoSweepNextOffset : Nat
  utxoCheckedHeights : List CachedUtxoCheck
deriving DecidableEq, Repr

structure TransparentUtxoRefreshBatch where
  addresses : List String
  childIndices : List UInt32
  startHeight : Nat
  nextSweepOffset : Option Nat
deriving DecidableEq, Repr

def cacheVersion : Nat := 3

def transparentUtxoRequeryLookback : Nat := 100

def networkCacheKey : WalletNetwork → String
  | .main => "main"
  | .test => "test"
  | .regtest => "regtest"

def readCompatibleRecord (network : WalletNetwork) (stored : Option CacheRecord) :
    Option CacheRecord :=
  stored.filter fun record =>
    record.version = cacheVersion && record.network = networkCacheKey network

def emptyRecord (network : WalletNetwork) (scannedHeight : Option Nat) : CacheRecord where
  version := cacheVersion
  network := networkCacheKey network
  dirty := false
  refreshedScannedHeight := scannedHeight
  externalAddresses := []
  utxoSweepNextOffset := 0
  utxoCheckedHeights := []

def ExternalTransparentAddress.cached (address : ExternalTransparentAddress) :
    CachedExternalAddress where
  childIndex := address.childIndex
  address := address.address
  hasReceived := address.hasReceived

/-- The stable sort by child index. -/
def sortByChildIndex (addresses : List CachedExternalAddress) : List CachedExternalAddress :=
  addresses.insertionSort fun a b => a.childIndex ≤ b.childIndex

def allExternalAddresses (addresses : List ExternalTransparentAddress) :
    List CachedExternalAddress :=
  sortByChildIndex ((addresses.filter fun address => !address.address.isEmpty).map
    ExternalTransparentAddress.cached)

def projectedExternalAddresses (addresses : List ExternalTransparentAddress) :
    List CachedExternalAddress :=
  let firstUnusedIndex := ((addresses.filter fun address =>
    !address.address.isEmpty && !address.hasReceived).map
      ExternalTransparentAddress.childIndex).min?
  sortByChildIndex ((addresses.filter fun address => !address.address.isEmpty &&
    (address.hasReceived || some address.childIndex = firstUnusedIndex)).map
      ExternalTransparentAddress.cached)

abbrev CheckedHeights := Std.TreeMap UInt32 Nat

def checkedHeightsOf (entries : List CachedUtxoCheck) : CheckedHeights :=
  entries.foldl (fun checked entry => checked.insert entry.childIndex entry.nextStartHeight) ∅

def CheckedHeights.entries (checked : CheckedHeights) : List CachedUtxoCheck :=
  checked.toList.map fun entry => { childIndex := entry.1, nextStartHeight := entry.2 }

def preservedUtxoCheckedHeights (record : CacheRecord)
    (externalAddresses : List CachedExternalAddress) : List CachedUtxoCheck :=
  let known := externalAddresses.map CachedExternalAddress.childIndex
  (checkedHeightsOf (record.utxoCheckedHeights.filter fun entry =>
    known.contains entry.childIndex)).entries

/-- Where the outputs of one address are asked for from. -/
def addressStartHeight (checkedHeights : CheckedHeights) (initialStartHeight : Nat)
    (childIndex : UInt32) : Nat :=
  match checkedHeights[childIndex]? with
  | some height => max (height - transparentUtxoRequeryLookback) initialStartHeight
  | none => initialStartHeight

def refreshBatch (addresses : List CachedExternalAddress) (checkedHeights : CheckedHeights)
    (accountBirthdayHeight safetyStartHeight : Nat) (nextSweepOffset : Option Nat) :
    Option TransparentUtxoRefreshBatch :=
  if addresses.isEmpty then none
  else
    let initialStartHeight := min accountBirthdayHeight safetyStartHeight
    some {
      addresses := addresses.map CachedExternalAddress.address
      childIndices := addresses.map CachedExternalAddress.childIndex
      startHeight := (addresses.map fun address =>
        addressStartHeight checkedHeights initialStartHeight address.childIndex).min?.getD
          initialStartHeight
      nextSweepOffset }

/-- The newest address first. -/
def eligibleAddresses (addresses : List CachedExternalAddress) : List CachedExternalAddress :=
  addresses.insertionSort fun a b => b.childIndex ≤ a.childIndex

def recentAddresses (recentLimit : Nat) (addresses : List CachedExternalAddress) :
    List CachedExternalAddress :=
  (eligibleAddresses addresses).take recentLimit

def oldAddresses (recentLimit : Nat) (addresses : List CachedExternalAddress) :
    List CachedExternalAddress :=
  (eligibleAddresses addresses).drop (recentAddresses recentLimit addresses).length

/-- The batch of the older addresses, from the offset on and round to the start again. -/
def sweepBatch (addresses : List CachedExternalAddress) (checkedHeights : CheckedHeights)
    (utxoSweepNextOffset accountBirthdayHeight safetyStartHeight recentLimit sweepLimit : Nat) :
    Option TransparentUtxoRefreshBatch :=
  let old := oldAddresses recentLimit addresses
  if !old.isEmpty && 0 < sweepLimit then
    let offset := utxoSweepNextOffset % old.length
    let take := min sweepLimit old.length
    refreshBatch (cyclicWindow old take offset) checkedHeights accountBirthdayHeight
      safetyStartHeight (some ((offset + take) % old.length))
  else none

def externalUtxoRefreshBatches (addresses : List CachedExternalAddress)
    (utxoCheckedHeights : List CachedUtxoCheck) (utxoSweepNextOffset accountBirthdayHeight
      safetyStartHeight recentLimit sweepLimit : Nat) : List TransparentUtxoRefreshBatch :=
  if addresses.isEmpty then []
  else
    let checkedHeights := checkedHeightsOf utxoCheckedHeights
    (refreshBatch (recentAddresses recentLimit addresses) checkedHeights accountBirthdayHeight
      safetyStartHeight none).toList ++
    (sweepBatch addresses checkedHeights utxoSweepNextOffset accountBirthdayHeight safetyStartHeight
      recentLimit sweepLimit).toList

/-- The record as the plan leaves it, before it is written. -/
def plannedRecord (network : WalletNetwork) (stored : Option CacheRecord)
    (addresses : List ExternalTransparentAddress) : CacheRecord :=
  let record := (readCompatibleRecord network stored).getD (emptyRecord network none)
  { record with
    version := cacheVersion
    network := networkCacheKey network
    dirty := false
    utxoCheckedHeights := preservedUtxoCheckedHeights record (allExternalAddresses addresses)
    externalAddresses := projectedExternalAddresses addresses }

/-- The record that is written, and the batches. -/
def planExternalUtxoRefresh (network : WalletNetwork) (stored : Option CacheRecord)
    (addresses : List ExternalTransparentAddress)
    (accountBirthdayHeight safetyStartHeight recentLimit sweepLimit : Nat) :
    CacheRecord × List TransparentUtxoRefreshBatch :=
  let record := plannedRecord network stored addresses
  (record,externalUtxoRefreshBatches (allExternalAddresses addresses) record.utxoCheckedHeights
    record.utxoSweepNextOffset accountBirthdayHeight safetyStartHeight recentLimit sweepLimit)

def markUtxoRefreshBatchComplete (network : WalletNetwork) (stored : Option CacheRecord)
    (childIndices : List UInt32) (nextStartHeight : Nat) (nextSweepOffset : Option Nat) :
    Option CacheRecord :=
  if childIndices.isEmpty then stored
  else
    match readCompatibleRecord network stored with
    | none => stored
    | some record =>
      let checked := childIndices.foldl
        (fun checked childIndex => checked.insert childIndex nextStartHeight)
        (checkedHeightsOf record.utxoCheckedHeights)
      some { record with
        utxoCheckedHeights := checked.entries
        utxoSweepNextOffset := nextSweepOffset.getD record.utxoSweepNextOffset }

section Heights

variable {entries : List CachedUtxoCheck} {checked : CheckedHeights} {childIndex : UInt32}

theorem checkedHeightsOf_snoc (entry : CachedUtxoCheck) :
    (checkedHeightsOf (entries ++ [entry]))[childIndex]? =
      if entry.childIndex = childIndex then some entry.nextStartHeight
      else (checkedHeightsOf entries)[childIndex]? := by
  simp [checkedHeightsOf,Std.TreeMap.getElem?_insert]

theorem checkedHeightsOf_none (h : childIndex ∉ entries.map CachedUtxoCheck.childIndex) :
    (checkedHeightsOf entries)[childIndex]? = none := by
  induction entries using List.reverseRecOn with
  | nil => rfl
  | append_singleton entries entry ih =>
    simp only [List.map_append,List.map_cons,List.map_nil,List.mem_append,List.mem_singleton,
      not_or] at h
    rw [checkedHeightsOf_snoc,if_neg (Ne.symm h.2),ih h.1]

theorem checkedHeightsOf_some (hnodup : (entries.map CachedUtxoCheck.childIndex).Nodup)
    {entry : CachedUtxoCheck} (h : entry ∈ entries) :
    (checkedHeightsOf entries)[entry.childIndex]? = some entry.nextStartHeight := by
  induction entries using List.reverseRecOn with
  | nil => cases h
  | append_singleton entries last ih =>
    rw [List.map_append,List.nodup_append] at hnodup
    rw [checkedHeightsOf_snoc]
    rcases List.mem_append.mp h with h | h
    · have hne : entry.childIndex ≠ last.childIndex :=
        hnodup.2.2 _ (List.mem_map_of_mem h) _ (by simp)
      rw [if_neg hne.symm,ih hnodup.1 h]
    · rw [List.mem_singleton.mp h,if_pos rfl]

theorem entries_nodup : (checked.entries.map CachedUtxoCheck.childIndex).Nodup := by
  have hdistinct := Std.TreeMap.distinct_keys_toList (t := checked)
  simp only [CheckedHeights.entries,List.map_map,List.Nodup,List.pairwise_map]
  exact hdistinct.imp fun h heq => h (by simpa using heq)

@[simp] theorem checkedHeightsOf_entries :
    (checkedHeightsOf checked.entries)[childIndex]? = checked[childIndex]? := by
  cases h : checked[childIndex]? with
  | some height =>
    have hmem : CachedUtxoCheck.mk childIndex height ∈ checked.entries :=
      List.mem_map.mpr ⟨_,Std.TreeMap.mem_toList_iff_getElem?_eq_some.mpr h,rfl⟩
    exact checkedHeightsOf_some entries_nodup hmem
  | none =>
    refine checkedHeightsOf_none ?_
    intro hmem
    obtain ⟨entry,hentry,hchild⟩ := List.mem_map.mp hmem
    obtain ⟨pair,hpair,heq⟩ := List.mem_map.mp hentry
    have hsome := Std.TreeMap.mem_toList_iff_getElem?_eq_some.mp hpair
    rw [← heq] at hchild
    rw [show pair.1 = childIndex from hchild,h] at hsome
    cases hsome

theorem preserved_checked (record : CacheRecord) (addresses : List CachedExternalAddress) :
    (checkedHeightsOf (preservedUtxoCheckedHeights record addresses))[childIndex]? =
      if childIndex ∈ addresses.map CachedExternalAddress.childIndex then
        (checkedHeightsOf record.utxoCheckedHeights)[childIndex]?
      else none := by
  rw [preservedUtxoCheckedHeights,checkedHeightsOf_entries]
  induction record.utxoCheckedHeights using List.reverseRecOn with
  | nil => simp [checkedHeightsOf]
  | append_singleton entries entry ih =>
    rw [List.filter_append,checkedHeightsOf_snoc]
    by_cases hknown : entry.childIndex ∈ addresses.map CachedExternalAddress.childIndex
    · rw [List.filter_cons_of_pos (by simpa using hknown),List.filter_nil,checkedHeightsOf_snoc,ih]
      by_cases heq : entry.childIndex = childIndex
      · rw [if_pos heq,if_pos heq,if_pos (heq ▸ hknown)]
      · rw [if_neg heq,if_neg heq]
    · rw [List.filter_cons_of_neg (by simpa using hknown),List.filter_nil,List.append_nil,ih]
      by_cases heq : entry.childIndex = childIndex
      · rw [if_neg (heq ▸ hknown),if_neg (heq ▸ hknown)]
      · rw [if_neg heq]

theorem foldl_insert_checked (childIndices : List UInt32) (height : Nat) :
    (childIndices.foldl (fun checked child => checked.insert child height) checked)[childIndex]? =
      if childIndex ∈ childIndices then some height else checked[childIndex]? := by
  induction childIndices using List.reverseRecOn with
  | nil => simp
  | append_singleton childIndices child ih =>
    rw [List.foldl_append,List.foldl_cons,List.foldl_nil,Std.TreeMap.getElem?_insert,ih]
    by_cases heq : child = childIndex
    · simp [heq]
    · simp [heq,Ne.symm heq]

end Heights

section Addresses

/-- The child indexes of the addresses that have a text. -/
def knownIndices (addresses : List ExternalTransparentAddress) : List UInt32 :=
  (addresses.filter fun address => !address.address.isEmpty).map
    ExternalTransparentAddress.childIndex

/-- The same, the newest first. -/
def eligibleIndices (addresses : List ExternalTransparentAddress) : List UInt32 :=
  (eligibleAddresses (allExternalAddresses addresses)).map CachedExternalAddress.childIndex

def oldIndices (recentLimit : Nat) (addresses : List ExternalTransparentAddress) : List UInt32 :=
  (eligibleIndices addresses).drop recentLimit

instance childIndex_total : Std.Total fun a b : CachedExternalAddress =>
    b.childIndex ≤ a.childIndex :=
  ⟨fun a b => UInt32.le_total b.childIndex a.childIndex⟩

instance childIndex_trans : IsTrans CachedExternalAddress fun a b =>
    b.childIndex ≤ a.childIndex :=
  ⟨fun _ _ _ hab hbc => UInt32.le_trans hbc hab⟩

variable (addresses : List ExternalTransparentAddress)

theorem map_allExternalAddresses :
    ((allExternalAddresses addresses).map CachedExternalAddress.childIndex).Perm
      (knownIndices addresses) := by
  refine ((List.perm_insertionSort _ _).map CachedExternalAddress.childIndex).trans ?_
  rw [List.map_map]
  rfl

theorem eligibleIndices_perm : (eligibleIndices addresses).Perm (knownIndices addresses) :=
  ((List.perm_insertionSort _ _).map CachedExternalAddress.childIndex).trans
    (map_allExternalAddresses addresses)

variable {addresses}

theorem eligibleIndices_nodup
    (h : (addresses.map ExternalTransparentAddress.childIndex).Nodup) :
    (eligibleIndices addresses).Nodup :=
  (eligibleIndices_perm addresses).nodup_iff.mpr (h.sublist (List.filter_sublist.map _))

theorem eligibleIndices_pairwise
    (h : (addresses.map ExternalTransparentAddress.childIndex).Nodup) :
    (eligibleIndices addresses).Pairwise (· > ·) := by
  have hsorted := List.pairwise_insertionSort
    (fun a b : CachedExternalAddress => b.childIndex ≤ a.childIndex) (allExternalAddresses addresses)
  have hle : (eligibleIndices addresses).Pairwise fun a b => b ≤ a :=
    List.pairwise_map.mpr hsorted
  exact (hle.and (eligibleIndices_nodup h)).imp fun h => UInt32.lt_of_le_of_ne h.1 (Ne.symm h.2)

theorem map_recentAddresses (recentLimit : Nat) (addresses : List ExternalTransparentAddress) :
    (recentAddresses recentLimit (allExternalAddresses addresses)).map
      CachedExternalAddress.childIndex = (eligibleIndices addresses).take recentLimit :=
  List.map_take

theorem map_oldAddresses (recentLimit : Nat) (addresses : List ExternalTransparentAddress) :
    (oldAddresses recentLimit (allExternalAddresses addresses)).map
      CachedExternalAddress.childIndex = oldIndices recentLimit addresses := by
  rw [oldAddresses,List.map_drop,oldIndices,eligibleIndices,recentAddresses,List.length_take]
  by_cases hle : recentLimit ≤ (eligibleAddresses (allExternalAddresses addresses)).length
  · rw [Nat.min_eq_left hle]
  · rw [Nat.min_eq_right (by omega),List.drop_eq_nil_of_le (by simp),
      List.drop_eq_nil_of_le (by simp; omega)]

end Addresses

/-- A batch starts low enough for each of its members, and no lower than a first check would. -/
structure StartsFrom (checkedHeights : CheckedHeights) (initialStartHeight : Nat)
    (batch : TransparentUtxoRefreshBatch) : Prop where
  le : ∀ childIndex ∈ batch.childIndices,
    batch.startHeight ≤ addressStartHeight checkedHeights initialStartHeight childIndex
  initial_le : initialStartHeight ≤ batch.startHeight

section Batch

variable {addresses : List CachedExternalAddress} {checkedHeights : CheckedHeights}
  {accountBirthdayHeight safetyStartHeight : Nat} {nextSweepOffset : Option Nat}
  {batch : TransparentUtxoRefreshBatch}

theorem initial_le_addressStartHeight (initialStartHeight : Nat) (childIndex : UInt32) :
    initialStartHeight ≤ addressStartHeight checkedHeights initialStartHeight childIndex := by
  simp only [addressStartHeight]
  split <;> simp

theorem min?_spec (heights : List Nat) (initial : Nat) (hinitial : ∀ height ∈ heights,
      initial ≤ height) :
    (∀ height ∈ heights, heights.min?.getD initial ≤ height) ∧ initial ≤ heights.min?.getD initial := by
  cases hmin : heights.min? with
  | none =>
    rw [List.min?_eq_none_iff.mp hmin]
    simp
  | some least =>
    have hspec := List.min?_eq_some_iff.mp hmin
    exact ⟨hspec.2,hinitial least hspec.1⟩

theorem refreshBatch_some (h : refreshBatch addresses checkedHeights accountBirthdayHeight
      safetyStartHeight nextSweepOffset = some batch) :
    batch.childIndices = addresses.map CachedExternalAddress.childIndex ∧
      batch.childIndices ≠ [] ∧ batch.nextSweepOffset = nextSweepOffset ∧
      StartsFrom checkedHeights (min accountBirthdayHeight safetyStartHeight) batch := by
  unfold refreshBatch at h
  split at h
  · cases h
  · rename_i hne
    cases h
    have hmin := min?_spec (addresses.map fun address => addressStartHeight checkedHeights
      (min accountBirthdayHeight safetyStartHeight) address.childIndex)
      (min accountBirthdayHeight safetyStartHeight)
      (by
        intro height hheight
        obtain ⟨address,_,rfl⟩ := List.mem_map.mp hheight
        exact initial_le_addressStartHeight _ _)
    refine ⟨rfl,by simpa using hne,rfl,?_,hmin.2⟩
    intro childIndex hchild
    obtain ⟨address,haddress,rfl⟩ := List.mem_map.mp hchild
    exact hmin.1 _ (List.mem_map_of_mem haddress)

end Batch

section Plan

variable {network : WalletNetwork} {stored : Option CacheRecord}
  {addresses : List ExternalTransparentAddress}
  {accountBirthdayHeight safetyStartHeight recentLimit sweepLimit : Nat}
  {batch : TransparentUtxoRefreshBatch}

/-- The batch of the newest addresses. -/
def IsRecentBatch (recentLimit : Nat) (addresses : List ExternalTransparentAddress)
    (batch : TransparentUtxoRefreshBatch) : Prop :=
  batch.nextSweepOffset = none ∧ batch.childIndices = (eligibleIndices addresses).take recentLimit

/-- The batch of the older addresses whose turn it is at an offset. -/
def IsSweepBatch (recentLimit sweepLimit offset : Nat)
    (addresses : List ExternalTransparentAddress) (batch : TransparentUtxoRefreshBatch) : Prop :=
  let old := oldIndices recentLimit addresses
  let take := min sweepLimit old.length
  batch.nextSweepOffset = some ((offset % old.length + take) % old.length) ∧
    batch.childIndices = cyclicWindow old take (offset % old.length)

theorem refreshBatch_recent {checkedHeights : CheckedHeights} (h : refreshBatch
      (recentAddresses recentLimit (allExternalAddresses addresses)) checkedHeights
      accountBirthdayHeight safetyStartHeight none = some batch) :
    IsRecentBatch recentLimit addresses batch := by
  have hspec := refreshBatch_some h
  exact ⟨hspec.2.2.1,hspec.1.trans (map_recentAddresses recentLimit addresses)⟩

theorem sweepBatch_some {checkedHeights : CheckedHeights} {offset : Nat}
    (h : sweepBatch (allExternalAddresses addresses) checkedHeights offset accountBirthdayHeight
      safetyStartHeight recentLimit sweepLimit = some batch) :
    IsSweepBatch recentLimit sweepLimit offset addresses batch ∧ batch.childIndices ≠ [] ∧
      StartsFrom checkedHeights (min accountBirthdayHeight safetyStartHeight) batch := by
  simp only [sweepBatch] at h
  split at h
  · obtain ⟨hchildren,hne,hoffset,hstarts⟩ := refreshBatch_some h
    have hold := map_oldAddresses recentLimit addresses
    have hlength := congrArg List.length hold
    rw [List.length_map] at hlength
    refine ⟨⟨?_,?_⟩,hne,hstarts⟩
    · rw [hoffset,hlength]
    · rw [hchildren,map_cyclicWindow,hold,hlength]
  · cases h

theorem mem_planned (h : batch ∈ (planExternalUtxoRefresh network stored addresses
      accountBirthdayHeight safetyStartHeight recentLimit sweepLimit).2) :
    (IsRecentBatch recentLimit addresses batch ∨ IsSweepBatch recentLimit sweepLimit
      (plannedRecord network stored addresses).utxoSweepNextOffset addresses batch) ∧
    batch.childIndices ≠ [] ∧ StartsFrom
      (checkedHeightsOf (plannedRecord network stored addresses).utxoCheckedHeights)
      (min accountBirthdayHeight safetyStartHeight) batch := by
  simp only [planExternalUtxoRefresh,externalUtxoRefreshBatches] at h
  split at h
  · cases h
  · rcases List.mem_append.mp h with h | h
    · have hbatch := Option.mem_toList.mp h
      have hspec := refreshBatch_some hbatch
      exact ⟨.inl (refreshBatch_recent hbatch),hspec.2.1,hspec.2.2.2⟩
    · have hspec := sweepBatch_some (Option.mem_toList.mp h)
      exact ⟨.inr hspec.1,hspec.2⟩

theorem planned_disjoint (hdistinct : (addresses.map ExternalTransparentAddress.childIndex).Nodup) :
    (planExternalUtxoRefresh network stored addresses accountBirthdayHeight safetyStartHeight
      recentLimit sweepLimit).2.Pairwise fun batch batch' =>
        List.Disjoint batch.childIndices batch'.childIndices := by
  simp only [planExternalUtxoRefresh,externalUtxoRefreshBatches]
  split
  · exact List.Pairwise.nil
  · apply pairwise_toList
    intro recent hrecent sweep hsweep
    have hsplit := List.disjoint_take_drop (eligibleIndices_nodup hdistinct) (Nat.le_refl recentLimit)
    rw [(refreshBatch_recent hrecent).2,(sweepBatch_some hsweep).1.2]
    exact fun child hin hout => hsplit hin (cyclicWindow_subset _ hout)

end Plan

section Mark

/-- The record is one that this version wrote for the network. -/
def Compatible (network : WalletNetwork) (record : CacheRecord) : Prop :=
  record.version = cacheVersion ∧ record.network = networkCacheKey network

variable {network : WalletNetwork} {record : CacheRecord}

theorem readCompatibleRecord_eq (h : Compatible network record) :
    readCompatibleRecord network (some record) = some record := by
  simp [readCompatibleRecord,Option.filter,h.1,h.2]

theorem plannedRecord_compatible (stored : Option CacheRecord)
    (addresses : List ExternalTransparentAddress) :
    Compatible network (plannedRecord network stored addresses) :=
  ⟨rfl,rfl⟩

/-- The height from which on the outputs of an address are not known. -/
def CacheRecord.nextStart (record : CacheRecord) (childIndex : UInt32) : Option Nat :=
  (checkedHeightsOf record.utxoCheckedHeights)[childIndex]?

theorem mark_spec (h : Compatible network record) {childIndices : List UInt32}
    (hne : childIndices ≠ []) (nextStartHeight : Nat) (nextSweepOffset : Option Nat) :
    ∃ record', markUtxoRefreshBatchComplete network (some record) childIndices nextStartHeight
        nextSweepOffset = some record' ∧ Compatible network record' ∧
      record'.utxoSweepNextOffset = nextSweepOffset.getD record.utxoSweepNextOffset ∧
      ∀ childIndex, record'.nextStart childIndex =
        if childIndex ∈ childIndices then some nextStartHeight else record.nextStart childIndex := by
  simp only [markUtxoRefreshBatchComplete,List.isEmpty_iff,hne,if_false,readCompatibleRecord_eq h]
  refine ⟨_,rfl,h,rfl,?_⟩
  intro childIndex
  simp only [CacheRecord.nextStart,checkedHeightsOf_entries,foldl_insert_checked]

theorem plannedRecord_nextStart (network : WalletNetwork) (stored : Option CacheRecord)
    (addresses : List ExternalTransparentAddress) (childIndex : UInt32) :
    (plannedRecord network stored addresses).nextStart childIndex =
      if childIndex ∈ knownIndices addresses then
        (readCompatibleRecord network stored).bind fun record => record.nextStart childIndex
      else none := by
  have hmem := (map_allExternalAddresses addresses).mem_iff (a := childIndex)
  simp only [CacheRecord.nextStart,plannedRecord,preserved_checked,hmem]
  cases readCompatibleRecord network stored with
  | none => simp [emptyRecord,checkedHeightsOf]
  | some record => rfl

end Mark

end CoppiceWallet.Receive
