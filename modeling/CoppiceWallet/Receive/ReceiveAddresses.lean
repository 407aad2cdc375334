import Mathlib.Data.List.MinMax
import CoppiceWallet.Receive.UtxoRefresh

/-!
# Receive addresses from the cache

A record keeps the addresses that received something and the first unused one; that is enough to
answer as the wallet database does. The calls run one at a time.
-/

namespace CoppiceWallet.Receive

open CoppiceWallet.Store (WalletNetwork)

def firstUnusedExternalTransparentAddress (addresses : List ExternalTransparentAddress) :
    Option String :=
  ((addresses.filter fun address => !address.hasReceived).argmin fun address =>
    address.childIndex.toNat).map ExternalTransparentAddress.address

/-- The index of the first unused address, or else the highest index. -/
def latestIndex (addresses : List ExternalTransparentAddress) : Option UInt32 :=
  ((addresses.filter fun address => !address.hasReceived).map
      ExternalTransparentAddress.childIndex).min?.or
    (addresses.map ExternalTransparentAddress.childIndex).max?

def recentExternalTransparentAddresses (addresses : List ExternalTransparentAddress)
    (limit : Nat) : List String :=
  if limit = 0 then []
  else
    match latestIndex addresses with
    | none => []
    | some latest =>
      (((addresses.filter fun address => address.childIndex ≤ latest).insertionSort fun a b =>
        b.childIndex ≤ a.childIndex).take limit).map ExternalTransparentAddress.address

def getRecentTransparentReceiveAddressesFromDb (addresses : List ExternalTransparentAddress)
    (limit : Nat) : List String :=
  if limit = 0 then [] else recentExternalTransparentAddresses addresses (min limit 100)

def CachedExternalAddress.external (address : CachedExternalAddress) :
    ExternalTransparentAddress where
  childIndex := address.childIndex
  address := address.address
  hasReceived := address.hasReceived

def CacheRecord.asExternalTransparentAddresses (record : CacheRecord) :
    List ExternalTransparentAddress :=
  record.externalAddresses.map CachedExternalAddress.external

def cleanRecord (network : WalletNetwork) (stored : Option CacheRecord) : Option CacheRecord :=
  stored.filter fun record => record.version = cacheVersion &&
    record.network = networkCacheKey network && !record.dirty

def getCleanAddress (network : WalletNetwork) (stored : Option CacheRecord) : Option String :=
  (cleanRecord network stored).bind fun record =>
    firstUnusedExternalTransparentAddress record.asExternalTransparentAddresses

def getRecentAddresses (network : WalletNetwork) (limit : Nat) (stored : Option CacheRecord) :
    Option (List String) :=
  if limit = 0 then some []
  else (cleanRecord network stored).map fun record =>
    recentExternalTransparentAddresses record.asExternalTransparentAddresses (min limit 100)

def writeCleanAddresses (network : WalletNetwork) (addresses : List ExternalTransparentAddress)
    (scannedHeight : Option Nat) (stored : Option CacheRecord) : CacheRecord :=
  let existing := readCompatibleRecord network stored
  { version := cacheVersion
    network := networkCacheKey network
    dirty := false
    refreshedScannedHeight := scannedHeight
    externalAddresses := projectedExternalAddresses addresses
    utxoSweepNextOffset := existing.elim 0 CacheRecord.utxoSweepNextOffset
    utxoCheckedHeights := existing.elim [] fun record =>
      preservedUtxoCheckedHeights record (allExternalAddresses addresses) }

/-- What the wallet does to the record of an account, with the addresses that it read. -/
inductive CacheOperation
  | refresh (network : WalletNetwork) (addresses : List ExternalTransparentAddress)
      (scannedHeight : Option Nat)
  | plan (network : WalletNetwork) (addresses : List ExternalTransparentAddress)
      (accountBirthdayHeight safetyStartHeight recentLimit sweepLimit : Nat)
  | batchComplete (network : WalletNetwork) (childIndices : List UInt32) (nextStartHeight : Nat)
      (nextSweepOffset : Option Nat)
  | markDirty
  | delete

def CacheOperation.apply (stored : Option CacheRecord) : CacheOperation → Option CacheRecord
  | .refresh network addresses scannedHeight =>
    some (writeCleanAddresses network addresses scannedHeight stored)
  | .plan network addresses birthday safety recentLimit sweepLimit =>
    some (planExternalUtxoRefresh network stored addresses birthday safety recentLimit sweepLimit).1
  | .batchComplete network childIndices nextStartHeight nextSweepOffset =>
    markUtxoRefreshBatchComplete network stored childIndices nextStartHeight nextSweepOffset
  | .markDirty => stored.map fun record => { record with dirty := true }
  | .delete => none

/-- The network and the addresses of the last read, unless they were called outdated since. -/
def CacheOperation.lastRead (read : Option (WalletNetwork × List ExternalTransparentAddress)) :
    CacheOperation → Option (WalletNetwork × List ExternalTransparentAddress)
  | .refresh network addresses _ | .plan network addresses _ _ _ _ => some (network,addresses)
  | .batchComplete _ _ _ _ => read
  | .markDirty | .delete => none

/-- The addresses of the last read that may be shown, on the network that is asked for. -/
def freshAddresses (network : WalletNetwork) (operations : List CacheOperation) :
    Option (List ExternalTransparentAddress) :=
  ((operations.foldl CacheOperation.lastRead none).filter fun read => read.1 = network).map
    fun read => read.2.filter fun address => !address.address.isEmpty

section Projection

variable {addresses : List ExternalTransparentAddress}

/-- The projected addresses, in any order. -/
def kept (shown : List ExternalTransparentAddress) : List ExternalTransparentAddress :=
  shown.filter fun address => address.hasReceived || some address.childIndex =
    ((shown.filter fun address => !address.hasReceived).map
      ExternalTransparentAddress.childIndex).min?

theorem projected_perm (addresses : List ExternalTransparentAddress) :
    ((projectedExternalAddresses addresses).map CachedExternalAddress.external).Perm
      (kept (addresses.filter fun address => !address.address.isEmpty)) := by
  have hsort := (List.perm_insertionSort
    (fun a b : CachedExternalAddress => a.childIndex ≤ b.childIndex)
    ((addresses.filter fun address => !address.address.isEmpty && (address.hasReceived ||
      some address.childIndex = ((addresses.filter fun address =>
        !address.address.isEmpty && !address.hasReceived).map
          ExternalTransparentAddress.childIndex).min?)).map
      ExternalTransparentAddress.cached)).map CachedExternalAddress.external
  rw [List.map_map] at hsort
  refine hsort.trans ?_
  have hid : CachedExternalAddress.external ∘ ExternalTransparentAddress.cached = id := rfl
  rw [hid,List.map_id,kept,List.filter_filter]
  simp only [List.filter_filter,Bool.and_comm]
  exact .refl _

variable {shown l : List ExternalTransparentAddress}

theorem argmin_unique {m : ExternalTransparentAddress} (hm : m ∈ l)
    (h : ∀ a ∈ l, a.childIndex ≤ m.childIndex → a = m) :
    l.argmin (fun address => address.childIndex.toNat) = some m := by
  cases hleast : l.argmin fun address => address.childIndex.toNat with
  | none =>
    rw [List.argmin_eq_none.mp hleast] at hm
    cases hm
  | some a =>
    have hle := List.le_of_mem_argmin hm hleast
    exact congrArg some (h a (List.argmin_mem hleast) (UInt32.le_iff_toNat_le.mpr hle))

instance lawfulOrderMax : Std.LawfulOrderMax UInt32 :=
  .of_max_le_iff (fun a b c => by
    have hmax : max a b = if a ≤ b then b else a := rfl
    grind) (fun a b => by
    have hmax : max a b = if a ≤ b then b else a := rfl
    grind)

/-- The projected addresses have the same first unused one, the same latest index, and no others
up to it. -/
structure SameAnswers (l shown : List ExternalTransparentAddress) : Prop where
  firstUnused : firstUnusedExternalTransparentAddress l =
    firstUnusedExternalTransparentAddress shown
  latest : latestIndex l = latestIndex shown
  below : ∀ latest, latestIndex shown = some latest →
    (l.filter fun address => address.childIndex ≤ latest).Perm
      (shown.filter fun address => address.childIndex ≤ latest)

theorem sameAnswers_of_perm (h : l.Perm shown)
    (hreceived : shown.filter (fun address => !address.hasReceived) = []) :
    SameAnswers l shown := by
  have hnone : l.filter (fun address => !address.hasReceived) = [] :=
    List.Perm.eq_nil (hreceived ▸ h.filter _)
  refine ⟨?_,?_,fun _ _ => h.filter _⟩
  · simp [firstUnusedExternalTransparentAddress,hnone,hreceived]
  · have hmax : (l.map ExternalTransparentAddress.childIndex).max? =
        (shown.map ExternalTransparentAddress.childIndex).max? := by
      apply Option.ext
      intro latest
      simp only [List.max?_eq_some_iff,(h.map _).mem_iff]
    simp [latestIndex,hnone,hreceived,hmax]

/-- Up to the first unused address none is left out. -/
theorem filter_kept {m : ExternalTransparentAddress}
    (hfirst : ((shown.filter fun address => !address.hasReceived).map
      ExternalTransparentAddress.childIndex).min? = some m.childIndex)
    (hlowest : ∀ a ∈ shown, a.hasReceived = false → m.childIndex ≤ a.childIndex) :
    (kept shown).filter (fun address => address.childIndex ≤ m.childIndex) =
      shown.filter fun address => address.childIndex ≤ m.childIndex := by
  rw [kept,List.filter_filter]
  apply List.filter_congr
  intro a ha
  cases hreceived : a.hasReceived with
  | true => simp
  | false =>
    have hlow := hlowest a ha hreceived
    by_cases hle : a.childIndex ≤ m.childIndex
    · simp [hfirst,UInt32.le_antisymm hle hlow]
    · simp [hle]

theorem sameAnswers_kept (hdistinct : (shown.map ExternalTransparentAddress.childIndex).Nodup)
    (h : l.Perm (kept shown)) : SameAnswers l shown := by
  cases hfirst : ((shown.filter fun address => !address.hasReceived).map
      ExternalTransparentAddress.childIndex).min? with
  | none =>
    have hreceived : shown.filter (fun address => !address.hasReceived) = [] := by
      simpa using hfirst
    have hall : kept shown = shown := by
      apply List.filter_eq_self.mpr
      intro a ha
      have hused : a.hasReceived = true := by
        simpa using List.filter_eq_nil_iff.mp hreceived a ha
      simp [hused]
    exact sameAnswers_of_perm (hall ▸ h) hreceived
  | some first =>
    obtain ⟨hmem,hleast⟩ := List.min?_eq_some_iff.mp hfirst
    obtain ⟨m,hm,rfl⟩ := List.mem_map.mp hmem
    have hunused := List.mem_filter.mp hm
    have hlowest : ∀ a ∈ shown, a.hasReceived = false → m.childIndex ≤ a.childIndex :=
      fun a ha hnew => hleast _ (List.mem_map_of_mem (List.mem_filter.mpr ⟨ha,by simp [hnew]⟩))
    have hsame : ∀ a ∈ shown, a.childIndex ≤ m.childIndex → a.hasReceived = false → a = m := by
      intro a ha hle hnew
      exact List.inj_on_of_nodup_map hdistinct ha hunused.1
        (UInt32.le_antisymm hle (hlowest a ha hnew))
    have hkept : ∀ a, a ∈ l ↔ a ∈ shown ∧ (a.hasReceived = true ∨ a.childIndex = m.childIndex) := by
      intro a
      simp [h.mem_iff,kept,hfirst]
    have hml : m ∈ l.filter fun address => !address.hasReceived :=
      List.mem_filter.mpr ⟨(hkept m).mpr ⟨hunused.1,.inr rfl⟩,hunused.2⟩
    have honly : ∀ a ∈ l.filter fun address => !address.hasReceived, a = m := by
      intro a ha
      obtain ⟨hal,hnew⟩ := List.mem_filter.mp ha
      have hnew : a.hasReceived = false := by simpa using hnew
      obtain ⟨hshown,hindex⟩ := (hkept a).mp hal
      exact hsame a hshown (UInt32.le_of_eq (hindex.resolve_left (by simp [hnew]))) hnew
    have hfirst' : ((l.filter fun address => !address.hasReceived).map
        ExternalTransparentAddress.childIndex).min? = some m.childIndex := by
      apply List.min?_eq_some_iff.mpr
      refine ⟨List.mem_map_of_mem hml,fun index hindex => ?_⟩
      obtain ⟨a,ha,rfl⟩ := List.mem_map.mp hindex
      rw [honly a ha]
      exact UInt32.le_refl _
    have hlatest : latestIndex shown = some m.childIndex := by simp [latestIndex,hfirst]
    refine ⟨?_,?_,fun latest hle => ?_⟩
    · rw [firstUnusedExternalTransparentAddress,firstUnusedExternalTransparentAddress,
        argmin_unique hml fun a ha _ => honly a ha,argmin_unique hm fun a ha hle => ?_]
      obtain ⟨hshown,hnew⟩ := List.mem_filter.mp ha
      exact hsame a hshown hle (by simpa using hnew)
    · rw [hlatest,latestIndex,hfirst']
      rfl
    · rw [hlatest] at hle
      cases hle
      exact (h.filter _).trans (.of_eq (filter_kept hfirst hlowest))

instance external_total : Std.Total fun a b : ExternalTransparentAddress =>
    b.childIndex ≤ a.childIndex :=
  ⟨fun a b => UInt32.le_total b.childIndex a.childIndex⟩

instance external_trans : IsTrans ExternalTransparentAddress fun a b =>
    b.childIndex ≤ a.childIndex :=
  ⟨fun _ _ _ hab hbc => UInt32.le_trans hbc hab⟩

theorem newestFirst_eq (h : l.Perm shown)
    (hdistinct : (shown.map ExternalTransparentAddress.childIndex).Nodup) :
    (l.insertionSort fun a b => b.childIndex ≤ a.childIndex) =
      shown.insertionSort fun a b => b.childIndex ≤ a.childIndex := by
  have hleft := List.perm_insertionSort (fun a b : ExternalTransparentAddress =>
    b.childIndex ≤ a.childIndex) l
  have hright := List.perm_insertionSort (fun a b : ExternalTransparentAddress =>
    b.childIndex ≤ a.childIndex) shown
  refine List.Perm.eq_of_pairwise (fun a b ha hb hab hba => ?_) (List.pairwise_insertionSort _ l)
    (List.pairwise_insertionSort _ shown) ((hleft.trans h).trans hright.symm)
  exact List.inj_on_of_nodup_map hdistinct (h.mem_iff.mp (hleft.mem_iff.mp ha))
    (hright.mem_iff.mp hb) (UInt32.le_antisymm hba hab)

theorem SameAnswers.recent (h : SameAnswers l shown)
    (hdistinct : (shown.map ExternalTransparentAddress.childIndex).Nodup) (limit : Nat) :
    recentExternalTransparentAddresses l limit =
      recentExternalTransparentAddresses shown limit := by
  simp only [recentExternalTransparentAddresses,h.latest]
  cases hlatest : latestIndex shown with
  | none => rfl
  | some latest =>
    simp only [newestFirst_eq (h.below latest hlatest)
      (hdistinct.sublist (List.filter_sublist.map _))]

end Projection

section Runs

/-- The addresses of a read have different child indexes. -/
def CacheOperation.Distinct : CacheOperation → Prop
  | .refresh _ addresses _ | .plan _ addresses _ _ _ _ =>
    (addresses.map ExternalTransparentAddress.childIndex).Nodup
  | _ => True

/-- The clean record holds the projection of the last read, and there is none otherwise. -/
def Holds (stored : Option CacheRecord)
    (read : Option (WalletNetwork × List ExternalTransparentAddress)) : Prop :=
  match read with
  | none => ∀ record, stored = some record → record.dirty = true
  | some (network,addresses) => (addresses.map ExternalTransparentAddress.childIndex).Nodup ∧
      ∃ record, stored = some record ∧ Compatible network record ∧ record.dirty = false ∧
        record.externalAddresses = projectedExternalAddresses addresses

theorem mark_keeps (network : WalletNetwork) (stored : Option CacheRecord)
    (childIndices : List UInt32) (nextStartHeight : Nat) (nextSweepOffset : Option Nat) :
    ∃ f : CacheRecord → CacheRecord,
      markUtxoRefreshBatchComplete network stored childIndices nextStartHeight nextSweepOffset =
        stored.map f ∧ ∀ record, (f record).version = record.version ∧
          (f record).network = record.network ∧ (f record).dirty = record.dirty ∧
          (f record).externalAddresses = record.externalAddresses := by
  unfold markUtxoRefreshBatchComplete
  split
  · exact ⟨id,by simp,fun _ => ⟨rfl,rfl,rfl,rfl⟩⟩
  · split
    · exact ⟨id,by simp,fun _ => ⟨rfl,rfl,rfl,rfl⟩⟩
    · rename_i record hrecord
      have hstored : stored = some record := by
        cases stored with
        | none => cases hrecord
        | some stored => exact (Option.filter_eq_some_iff.mp hrecord).1
      subst hstored
      exact ⟨fun record => { record with
          utxoCheckedHeights := (childIndices.foldl
            (fun checked childIndex => checked.insert childIndex nextStartHeight)
            (checkedHeightsOf record.utxoCheckedHeights)).entries
          utxoSweepNextOffset := nextSweepOffset.getD record.utxoSweepNextOffset },rfl,
        fun _ => ⟨rfl,rfl,rfl,rfl⟩⟩

theorem holds_apply {stored : Option CacheRecord} {operation : CacheOperation}
    {read : Option (WalletNetwork × List ExternalTransparentAddress)} (h : Holds stored read)
    (hdistinct : operation.Distinct) :
    Holds (operation.apply stored) (operation.lastRead read) := by
  cases operation with
  | refresh network addresses scannedHeight => exact ⟨hdistinct,_,rfl,⟨rfl,rfl⟩,rfl,rfl⟩
  | plan network addresses => exact ⟨hdistinct,_,rfl,⟨rfl,rfl⟩,rfl,rfl⟩
  | batchComplete network childIndices nextStartHeight nextSweepOffset =>
    obtain ⟨f,hf,hkeeps⟩ := mark_keeps network stored childIndices nextStartHeight nextSweepOffset
    simp only [CacheOperation.apply,CacheOperation.lastRead,hf]
    cases read with
    | none =>
      intro record hrecord
      obtain ⟨before,hbefore,rfl⟩ := Option.map_eq_some_iff.mp hrecord
      exact (hkeeps before).2.2.1.trans (h before hbefore)
    | some read =>
      obtain ⟨hnodup,record,rfl,hcompatible,hclean,hexternal⟩ := h
      obtain ⟨hversion,hnetwork,hdirty,hkept⟩ := hkeeps record
      exact ⟨hnodup,f record,rfl,⟨hversion.trans hcompatible.1,hnetwork.trans hcompatible.2⟩,
        hdirty.trans hclean,hkept.trans hexternal⟩
  | markDirty =>
    intro record hrecord
    obtain ⟨before,-,rfl⟩ := Option.map_eq_some_iff.mp hrecord
    rfl
  | delete =>
    intro record hrecord
    cases hrecord

theorem networkCacheKey_inj {network other : WalletNetwork}
    (h : networkCacheKey network = networkCacheKey other) : network = other := by
  cases network <;> cases other <;> first | rfl | exact absurd h (by decide)

/-- After any operations the cache answers for a network as the wallet database does for the
addresses of the last read, and not at all when they are of another network or outdated. -/
theorem receiveCache_agrees (operations : List CacheOperation)
    (hdistinct : ∀ operation ∈ operations, operation.Distinct) (network : WalletNetwork) :
    getCleanAddress network (operations.foldl CacheOperation.apply none) =
        (freshAddresses network operations).bind firstUnusedExternalTransparentAddress ∧
      ∀ limit, 0 < limit →
        getRecentAddresses network limit (operations.foldl CacheOperation.apply none) =
          (freshAddresses network operations).map fun addresses =>
            getRecentTransparentReceiveAddressesFromDb addresses limit := by
  have hholds : Holds (operations.foldl CacheOperation.apply none)
      (operations.foldl CacheOperation.lastRead none) := by
    induction operations using List.reverseRecOn with
    | nil =>
      intro record hrecord
      cases hrecord
    | append_singleton operations operation ih =>
      rw [List.foldl_append,List.foldl_append]
      exact holds_apply (ih fun other hother => hdistinct other (List.mem_append_left _ hother))
        (hdistinct operation (by simp))
  unfold freshAddresses
  generalize operations.foldl CacheOperation.lastRead none = read at hholds ⊢
  generalize operations.foldl CacheOperation.apply none = stored at hholds ⊢
  cases read with
  | none =>
    have hnone : cleanRecord network stored = none := by
      cases stored with
      | none => rfl
      | some record => simp [cleanRecord,Option.filter,hholds record rfl]
    refine ⟨by simp [getCleanAddress,hnone],fun limit hlimit => ?_⟩
    simp [getRecentAddresses,hnone,Nat.ne_of_gt hlimit]
  | some read =>
    obtain ⟨hnodup,record,rfl,hcompatible,hclean,hexternal⟩ := hholds
    by_cases hnetwork : read.1 = network
    · subst hnetwork
      have hrecord : cleanRecord read.1 (some record) = some record := by
        simp [cleanRecord,Option.filter,hcompatible.1,hcompatible.2,hclean]
      have hshown := hnodup.sublist (List.Sublist.map _
        (List.filter_sublist (p := fun address => !address.address.isEmpty) (l := read.2)))
      have hsame := sameAnswers_kept hshown (projected_perm read.2)
      have haddresses : record.asExternalTransparentAddresses =
          (projectedExternalAddresses read.2).map CachedExternalAddress.external := by
        rw [CacheRecord.asExternalTransparentAddresses,hexternal]
      rw [Option.filter_some_pos (by simp)]
      refine ⟨?_,fun limit hlimit => ?_⟩
      · simpa [getCleanAddress,hrecord,haddresses] using hsame.firstUnused
      · simpa [getRecentAddresses,hrecord,haddresses,Nat.ne_of_gt hlimit,
          getRecentTransparentReceiveAddressesFromDb] using hsame.recent hshown (min limit 100)
    · have hnone : cleanRecord network (some record) = none := by
        have hkey : ¬ networkCacheKey read.1 = networkCacheKey network :=
          fun heq => hnetwork (networkCacheKey_inj heq)
        simp [cleanRecord,Option.filter,hcompatible.2,hkey]
      rw [Option.filter_some_neg (by simpa using hnetwork)]
      refine ⟨by simp [getCleanAddress,hnone],fun limit hlimit => ?_⟩
      simp [getRecentAddresses,hnone,Nat.ne_of_gt hlimit]

/-- Two addresses are unused; the record keeps the first of them. -/
def receiveOperations : List CacheOperation :=
  [.refresh .main [⟨0,"t0",true⟩,⟨1,"t1",false⟩,⟨2,"t2",false⟩] none,
    .batchComplete .main [0] 9 none]

theorem receiveCache_agrees_read :
    getCleanAddress .main (receiveOperations.foldl CacheOperation.apply none) = some "t1" ∧
      getRecentAddresses .main 5 (receiveOperations.foldl CacheOperation.apply none) =
        some ["t1","t0"] := by
  have hagrees := receiveCache_agrees receiveOperations
    (by simp [receiveOperations,CacheOperation.Distinct]) .main
  constructor
  · rw [hagrees.1]
    decide
  · rw [hagrees.2 5 (by decide)]
    decide

end Runs

end CoppiceWallet.Receive
