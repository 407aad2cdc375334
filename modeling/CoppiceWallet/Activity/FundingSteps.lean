import CoppiceWallet.Activity.Details
import CoppiceWallet.Lib.Groups
import CoppiceWallet.Lib.Lists
import CoppiceWallet.Lib.Matching
import Mathlib.Data.List.Sort

/-! # Funding steps -/

namespace CoppiceWallet.Activity

open CoppiceWallet.Lib
open CoppiceWallet.Store (Bytes)

structure FundingStepMatchKey where
  created : String
  expiry : Int
  amount : Nat
  deriving DecidableEq

def externalSendKey (base : TxBase) (summary : ActivitySummary) : Option FundingStepMatchKey :=
  if summary.hasExternalTransparentSend = false ∨ base.totalSpent = 0 ∨ base.transactionId < 0 then
    none
  else base.created.map fun created => ⟨created,base.expiryKey,base.totalSpent⟩

def fundingStepKey (base : TxBase) (summary : ActivitySummary) : Option FundingStepMatchKey :=
  if summary.ownTransparentOutputAmount = 0 ∨ base.transactionId < 0 then none
  else base.created.map fun created =>
    ⟨created,base.expiryKey,summary.ownTransparentOutputAmount⟩

def shouldSuppressFundingStep (base : TxBase) (summary : ActivitySummary)
    (externalSendKeys : List FundingStepMatchKey) : Bool :=
  !base.isShielding && decide (0 < base.totalSpent) && decide (0 < base.totalReceived) &&
    decide (base.accountBalanceDelta ≤ 0) && base.created.isSome &&
    decide (summary.sent.amount = 0) && decide (summary.received.amount = 0) &&
    summary.hasOwnTransparentOutput &&
    ((fundingStepKey base summary).map fun key => decide (key ∈ externalSendKeys)).getD false

/-- The summaries, by transaction. -/
abbrev Summaries := Bytes → Option ActivitySummary

/-- A set of keys, as the list of the keys inserted. -/
def buildExternalSendKeys (bases : List TxBase) (summaries : Summaries) :
    List FundingStepMatchKey :=
  bases.filterMap fun base => (summaries base.txid).bind fun summary => externalSendKey base summary

structure SuppressedFundingStepFees where
  suppressedFundingTxids : List Int
  extraFeeByExternalTxid : Int → Option Nat

def SuppressedFundingStepFees.empty : SuppressedFundingStepFees := ⟨[],fun _ => none⟩

def SuppressedFundingStepFees.insert (matched : SuppressedFundingStepFees)
    (pair : (Int × Nat) × Int) : SuppressedFundingStepFees where
  suppressedFundingTxids := pair.1.1 :: matched.suppressedFundingTxids
  extraFeeByExternalTxid := Function.update matched.extraFeeByExternalTxid pair.2
    (some (saturatingAdd ((matched.extraFeeByExternalTxid pair.2).getD 0) pair.1.2))

/-- The steps of one key, and its external sends from `external_index` on. -/
def matchFundingSteps : List (Int × Nat) → List Int → SuppressedFundingStepFees →
    SuppressedFundingStepFees
  | [], _, matched => matched
  | step :: steps, externalSends, matched =>
    match externalSends.dropWhile fun externalId => decide (externalId ≤ step.1) with
    | [] => matchFundingSteps steps [] matched
    | externalId :: externalSends =>
      matchFundingSteps steps externalSends (matched.insert (step,externalId))

/-- The steps with the key of each. -/
def fundingStep (summaries : Summaries) (externalSendKeys : List FundingStepMatchKey)
    (base : TxBase) : Option (FundingStepMatchKey × (Int × Nat)) :=
  let summary := (summaries base.txid).getD .empty
  if shouldSuppressFundingStep base summary externalSendKeys then
    (fundingStepKey base summary).map fun key => (key,base.transactionId,base.fee)
  else none

def externalSend (summaries : Summaries) (base : TxBase) : Option (FundingStepMatchKey × Int) :=
  (externalSendKey base ((summaries base.txid).getD .empty)).map fun key => (key,base.transactionId)

/-- The loop over the keys, in the order the hash map gives them. -/
def matchGroups (fundingByKey : Groups FundingStepMatchKey (Int × Nat)) :
    List FundingStepMatchKey → Groups FundingStepMatchKey Int → SuppressedFundingStepFees →
    SuppressedFundingStepFees
  | [], _, matched => matched
  | key :: keys, externalByKey, matched =>
    match externalByKey.lookup key with
    | none => matchGroups fundingByKey keys externalByKey matched
    | some externalSends =>
      matchGroups fundingByKey keys (externalByKey.remove key)
        (matchFundingSteps ((fundingByKey.get key).insertionSort fun a b => a.1 ≤ b.1)
          (externalSends.insertionSort (· ≤ ·)) matched)

/-- The order in which a hash map gives its keys. -/
structure KeyOrder where
  order : List FundingStepMatchKey → List FundingStepMatchKey
  perm : ∀ keys, (order keys).Perm keys

def buildSuppressedFundingStepFees (keyOrder : KeyOrder) (bases : List TxBase)
    (summaries : Summaries) (externalSendKeys : List FundingStepMatchKey) :
    SuppressedFundingStepFees :=
  let fundingByKey := Groups.collect (fundingStep summaries externalSendKeys) bases
  matchGroups fundingByKey (keyOrder.order fundingByKey.keys)
    (Groups.collect (externalSend summaries) bases) .empty

section Pairs

variable {steps : List (Int × Nat)} {sends : List Int} {pairs : List ((Int × Nat) × Int)}
  {matched : SuppressedFundingStepFees}

/-- The pairs that the walk finds. -/
def stepPairs : List (Int × Nat) → List Int → List ((Int × Nat) × Int)
  | [], _ => []
  | step :: steps, externalSends =>
    match externalSends.dropWhile fun externalId => decide (externalId ≤ step.1) with
    | [] => stepPairs steps []
    | externalId :: externalSends => (step,externalId) :: stepPairs steps externalSends

@[simp] theorem stepPairs_nil (steps : List (Int × Nat)) : stepPairs steps [] = [] := by
  induction steps with
  | nil => rfl
  | cons step steps ih => simpa [stepPairs] using ih

theorem matchFundingSteps_eq : matchFundingSteps steps sends matched =
    (stepPairs steps sends).foldl SuppressedFundingStepFees.insert matched := by
  induction steps generalizing sends matched with
  | nil => rfl
  | cons step steps ih =>
    rw [matchFundingSteps,stepPairs]
    cases sends.dropWhile fun externalId => decide (externalId ≤ step.1) with
    | nil => exact ih
    | cons externalId sends => exact ih

theorem stepPairs_ids (steps : List (Int × Nat)) (sends : List Int) :
    (stepPairs steps sends).map (fun p => (p.1.1,p.2)) = matchAscending (steps.map Prod.fst) sends := by
  induction steps generalizing sends with
  | nil => rfl
  | cons step steps ih =>
    rw [stepPairs,List.map_cons,matchAscending]
    cases sends.dropWhile fun externalId => decide (externalId ≤ step.1) with
    | nil => simp
    | cons externalId sends => simp [ih sends]

theorem stepPairs_fst_sublist (steps : List (Int × Nat)) (sends : List Int) :
    ((stepPairs steps sends).map Prod.fst).Sublist steps := by
  induction steps generalizing sends with
  | nil => exact .slnil
  | cons step steps ih =>
    rw [stepPairs]
    cases sends.dropWhile fun externalId => decide (externalId ≤ step.1) with
    | nil => simp
    | cons externalId sends => exact (ih sends).cons_cons step

theorem stepPairs_snd_sublist (steps : List (Int × Nat)) (sends : List Int) :
    ((stepPairs steps sends).map Prod.snd).Sublist sends := by
  have hids := (matchAscending_sublist (steps.map Prod.fst) sends).2.1
  rw [← stepPairs_ids] at hids
  simpa [Function.comp_def] using hids

theorem stepPairs_lt {pair : (Int × Nat) × Int} (h : pair ∈ stepPairs steps sends) :
    pair.1.1 < pair.2 := by
  have hids := (matchAscending_sublist (steps.map Prod.fst) sends).2.2
  rw [← stepPairs_ids] at hids
  exact hids (pair.1.1,pair.2) (List.mem_map.mpr ⟨pair,h,rfl⟩)

theorem mem_suppressed_foldl {id : Int} :
    id ∈ (pairs.foldl SuppressedFundingStepFees.insert matched).suppressedFundingTxids ↔
      id ∈ matched.suppressedFundingTxids ∨ ∃ pair ∈ pairs, pair.1.1 = id := by
  induction pairs generalizing matched with
  | nil => simp
  | cons pair pairs ih =>
    rw [List.foldl_cons,ih]
    simp only [SuppressedFundingStepFees.insert,List.mem_cons]
    grind

theorem extraFee_foldl_of_notMem {id : Int} (h : id ∉ pairs.map Prod.snd) :
    (pairs.foldl SuppressedFundingStepFees.insert matched).extraFeeByExternalTxid id =
      matched.extraFeeByExternalTxid id := by
  induction pairs generalizing matched with
  | nil => rfl
  | cons pair pairs ih =>
    simp only [List.map_cons,List.mem_cons,not_or] at h
    rw [List.foldl_cons,ih h.2]
    exact Function.update_of_ne h.1 _ _

theorem extraFee_foldl {pair : (Int × Nat) × Int} (hpairs : (pairs.map Prod.snd).Nodup)
    (h : pair ∈ pairs) (hfresh : matched.extraFeeByExternalTxid pair.2 = none) :
    (pairs.foldl SuppressedFundingStepFees.insert matched).extraFeeByExternalTxid pair.2 =
      some (saturatingAdd 0 pair.1.2) := by
  induction pairs generalizing matched with
  | nil => cases h
  | cons first pairs ih =>
    obtain ⟨hnew,hpairs⟩ := List.nodup_cons.mp hpairs
    rw [List.foldl_cons]
    rcases List.mem_cons.mp h with rfl | h
    · rw [extraFee_foldl_of_notMem hnew]
      simp [SuppressedFundingStepFees.insert,hfresh]
    · apply ih hpairs h
      have hne : pair.2 ≠ first.2 := fun heq => hnew (heq ▸ List.mem_map_of_mem h)
      simpa [SuppressedFundingStepFees.insert,Function.update_of_ne hne] using hfresh

end Pairs

section Keys

variable {summaries : Summaries} {externalSendKeys : List FundingStepMatchKey}
  {bases bases' : List TxBase} {key : FundingStepMatchKey}

variable (summaries) in
def sortedSends (bases : List TxBase) (key : FundingStepMatchKey) : List Int :=
  (bases.filterMap (withKey (externalSend summaries) key)).insertionSort (· ≤ ·)

variable (summaries externalSendKeys) in
def sortedSteps (bases : List TxBase) (key : FundingStepMatchKey) : List (Int × Nat) :=
  (bases.filterMap (withKey (fundingStep summaries externalSendKeys) key)).insertionSort
    fun a b => a.1 ≤ b.1

variable (summaries externalSendKeys) in
def keyPairs (bases : List TxBase) (key : FundingStepMatchKey) : List ((Int × Nat) × Int) :=
  stepPairs (sortedSteps summaries externalSendKeys bases key) (sortedSends summaries bases key)

theorem matchGroups_eq {keys : List FundingStepMatchKey} {externals : Groups FundingStepMatchKey Int}
    {matched : SuppressedFundingStepFees} (hkeys : keys.Nodup)
    (hexternals : ∀ key ∈ keys,
      externals.lookup key = (Groups.collect (externalSend summaries) bases).lookup key) :
    matchGroups (Groups.collect (fundingStep summaries externalSendKeys) bases) keys externals
        matched =
      (keys.flatMap (keyPairs summaries externalSendKeys bases)).foldl
        SuppressedFundingStepFees.insert matched := by
  induction keys generalizing externals matched with
  | nil => rfl
  | cons key keys ih =>
    obtain ⟨hnew,hkeys⟩ := List.nodup_cons.mp hkeys
    have hlookup := hexternals key List.mem_cons_self
    rw [Groups.lookup_collect] at hlookup
    rw [matchGroups,List.flatMap_cons,List.foldl_append]
    by_cases hnil : bases.filterMap (withKey (externalSend summaries) key) = []
    · rw [if_pos hnil] at hlookup
      rw [hlookup,keyPairs,sortedSends,hnil]
      simpa using ih hkeys fun k hk => hexternals k (List.mem_cons_of_mem _ hk)
    · rw [if_neg hnil] at hlookup
      simp only [hlookup,Groups.get_collect,matchFundingSteps_eq]
      refine ih hkeys ?_
      intro k hk
      have hne : k ≠ key := fun heq => hnew (heq ▸ hk)
      rw [Groups.lookup_remove_of_ne externals hne,hexternals k (List.mem_cons_of_mem _ hk)]

theorem buildSuppressedFundingStepFees_eq (keyOrder : KeyOrder) (bases : List TxBase)
    (summaries : Summaries) (externalSendKeys : List FundingStepMatchKey) :
    buildSuppressedFundingStepFees keyOrder bases summaries externalSendKeys =
      ((keyOrder.order (Groups.collect (fundingStep summaries externalSendKeys) bases).keys).flatMap
        (keyPairs summaries externalSendKeys bases)).foldl SuppressedFundingStepFees.insert .empty := by
  refine matchGroups_eq ?_ fun _ _ => rfl
  exact (keyOrder.perm _).nodup_iff.mpr (Groups.keys_collect_nodup _ _)

theorem fundingStep_eq_some {base : TxBase} {step : Int × Nat}
    (h : fundingStep summaries externalSendKeys base = some (key,step)) :
    step = (base.transactionId,base.fee) ∧
      shouldSuppressFundingStep base ((summaries base.txid).getD .empty) externalSendKeys = true ∧
      fundingStepKey base ((summaries base.txid).getD .empty) = some key := by
  simp only [fundingStep] at h
  split at h
  · obtain ⟨k,hk,heq⟩ := Option.map_eq_some_iff.mp h
    cases heq
    exact ⟨rfl,‹_›,hk⟩
  · cases h

theorem externalSend_eq_some {base : TxBase} {id : Int} :
    externalSend summaries base = some (key,id) ↔ id = base.transactionId ∧
      externalSendKey base ((summaries base.txid).getD .empty) = some key := by
  simp only [externalSend,Option.map_eq_some_iff,Prod.mk.injEq]
  grind

theorem mem_sortedSteps {step : Int × Nat} :
    step ∈ sortedSteps summaries externalSendKeys bases key ↔
      ∃ base ∈ bases, fundingStep summaries externalSendKeys base = some (key,step) := by
  simp [sortedSteps,List.mem_insertionSort,withKey_eq_some]

theorem mem_sortedSends {id : Int} : id ∈ sortedSends summaries bases key ↔
    ∃ base ∈ bases, externalSend summaries base = some (key,id) := by
  simp [sortedSends,List.mem_insertionSort,withKey_eq_some]

theorem sends_nodup (hids : (bases.map TxBase.transactionId).Nodup) :
    (bases.filterMap (withKey (externalSend summaries) key)).Nodup := by
  refine (filterMap_sublist_map ?_ bases).nodup hids
  intro base id h
  exact (externalSend_eq_some.mp (withKey_eq_some.mp h)).1

theorem steps_nodup (hids : (bases.map TxBase.transactionId).Nodup) :
    ((bases.filterMap (withKey (fundingStep summaries externalSendKeys) key)).map Prod.fst).Nodup := by
  rw [List.map_filterMap]
  refine (filterMap_sublist_map ?_ bases).nodup hids
  intro base id h
  obtain ⟨step,hstep,rfl⟩ := Option.map_eq_some_iff.mp h
  rw [(fundingStep_eq_some (withKey_eq_some.mp hstep)).1]

theorem sortedSends_pairwise (hids : (bases.map TxBase.transactionId).Nodup) :
    (sortedSends summaries bases key).Pairwise (· < ·) := by
  have hsorted := List.pairwise_insertionSort (· ≤ ·)
    (bases.filterMap (withKey (externalSend summaries) key))
  have hnodup : (sortedSends summaries bases key).Nodup :=
    (List.perm_insertionSort _ _).nodup_iff.mpr (sends_nodup hids)
  exact (hsorted.and hnodup).imp fun h => lt_of_le_of_ne h.1 h.2

theorem sortedSteps_pairwise (hids : (bases.map TxBase.transactionId).Nodup) :
    ((sortedSteps summaries externalSendKeys bases key).map Prod.fst).Pairwise (· < ·) := by
  have hsorted := List.pairwise_insertionSort (fun a b : Int × Nat => a.1 ≤ b.1)
    (bases.filterMap (withKey (fundingStep summaries externalSendKeys) key))
  have hnodup : ((sortedSteps summaries externalSendKeys bases key).map Prod.fst).Nodup :=
    ((List.perm_insertionSort _ _).map Prod.fst).nodup_iff.mpr (steps_nodup hids)
  refine ((List.pairwise_map.mpr hsorted).and hnodup).imp ?_
  exact fun h => lt_of_le_of_ne h.1 h.2

theorem card_le_keyPairs (hids : (bases.map TxBase.transactionId).Nodup) {pairs : Finset (Int × Int)}
    (h : IsMatching ((sortedSteps summaries externalSendKeys bases key).map Prod.fst)
      (sortedSends summaries bases key) pairs) :
    pairs.card ≤ (keyPairs summaries externalSendKeys bases key).length := by
  have hcard := card_le_matchAscending (sortedSteps_pairwise hids) (sortedSends_pairwise hids) h
  rwa [← stepPairs_ids,List.length_map] at hcard

theorem eq_of_transactionId (hids : (bases.map TxBase.transactionId).Nodup) {base base' : TxBase}
    (hbase : base ∈ bases) (hbase' : base' ∈ bases)
    (h : base.transactionId = base'.transactionId) : base = base' :=
  List.inj_on_of_nodup_map hids hbase hbase' h

theorem keyPairs_bases {pair : (Int × Nat) × Int}
    (h : pair ∈ keyPairs summaries externalSendKeys bases key) :
    (∃ step ∈ bases, fundingStep summaries externalSendKeys step = some (key,pair.1)) ∧
      ∃ send ∈ bases, externalSend summaries send = some (key,pair.2) := by
  have hstep := (stepPairs_fst_sublist _ _).subset (List.mem_map_of_mem h)
  have hsend := (stepPairs_snd_sublist _ _).subset (List.mem_map_of_mem h)
  exact ⟨mem_sortedSteps.mp hstep,mem_sortedSends.mp hsend⟩

theorem keyPairs_steps_nodup (hids : (bases.map TxBase.transactionId).Nodup) :
    ((keyPairs summaries externalSendKeys bases key).map fun pair => pair.1.1).Nodup := by
  have hsub := (stepPairs_fst_sublist (sortedSteps summaries externalSendKeys bases key)
    (sortedSends summaries bases key)).map Prod.fst
  have hnodup := hsub.nodup ((sortedSteps_pairwise hids).imp fun h => h.ne)
  simpa [keyPairs,Function.comp_def] using hnodup

theorem keyPairs_sends_nodup (hids : (bases.map TxBase.transactionId).Nodup) :
    ((keyPairs summaries externalSendKeys bases key).map Prod.snd).Nodup :=
  (stepPairs_snd_sublist _ _).nodup ((sortedSends_pairwise hids).imp fun h => h.ne)

/-- Keys share no transaction. -/
theorem keyPairs_steps_disjoint (hids : (bases.map TxBase.transactionId).Nodup)
    {key' : FundingStepMatchKey} (hne : key ≠ key') {pair pair' : (Int × Nat) × Int}
    (h : pair ∈ keyPairs summaries externalSendKeys bases key)
    (h' : pair' ∈ keyPairs summaries externalSendKeys bases key') : pair.1.1 ≠ pair'.1.1 := by
  obtain ⟨base,hbase,hstep⟩ := (keyPairs_bases h).1
  obtain ⟨base',hbase',hstep'⟩ := (keyPairs_bases h').1
  intro heq
  rw [(fundingStep_eq_some hstep).1,(fundingStep_eq_some hstep').1] at heq
  obtain rfl := eq_of_transactionId hids hbase hbase' heq
  rw [hstep] at hstep'
  exact hne (congrArg Prod.fst (Option.some.inj hstep'))

theorem keyPairs_sends_disjoint (hids : (bases.map TxBase.transactionId).Nodup)
    {key' : FundingStepMatchKey} (hne : key ≠ key') {pair pair' : (Int × Nat) × Int}
    (h : pair ∈ keyPairs summaries externalSendKeys bases key)
    (h' : pair' ∈ keyPairs summaries externalSendKeys bases key') : pair.2 ≠ pair'.2 := by
  obtain ⟨base,hbase,hsend⟩ := (keyPairs_bases h).2
  obtain ⟨base',hbase',hsend'⟩ := (keyPairs_bases h').2
  intro heq
  rw [(externalSend_eq_some.mp hsend).1,(externalSend_eq_some.mp hsend').1] at heq
  obtain rfl := eq_of_transactionId hids hbase hbase' heq
  rw [hsend] at hsend'
  exact hne (congrArg Prod.fst (Option.some.inj hsend'))

variable {keys : List FundingStepMatchKey}

theorem allPairs_steps_nodup (hids : (bases.map TxBase.transactionId).Nodup) (hkeys : keys.Nodup) :
    ((keys.flatMap (keyPairs summaries externalSendKeys bases)).map fun pair => pair.1.1).Nodup := by
  rw [List.map_flatMap]
  refine List.nodup_flatMap.mpr ⟨fun key _ => keyPairs_steps_nodup hids,?_⟩
  refine hkeys.imp ?_
  intro key key' hne id hid hid'
  obtain ⟨pair,hpair,rfl⟩ := List.mem_map.mp hid
  obtain ⟨pair',hpair',heq⟩ := List.mem_map.mp hid'
  exact keyPairs_steps_disjoint hids hne hpair hpair' heq.symm

theorem allPairs_sends_nodup (hids : (bases.map TxBase.transactionId).Nodup) (hkeys : keys.Nodup) :
    ((keys.flatMap (keyPairs summaries externalSendKeys bases)).map Prod.snd).Nodup := by
  rw [List.map_flatMap]
  refine List.nodup_flatMap.mpr ⟨fun key _ => keyPairs_sends_nodup hids,?_⟩
  refine hkeys.imp ?_
  intro key key' hne id hid hid'
  obtain ⟨pair,hpair,rfl⟩ := List.mem_map.mp hid
  obtain ⟨pair',hpair',heq⟩ := List.mem_map.mp hid'
  exact keyPairs_sends_disjoint hids hne hpair hpair' heq.symm

theorem sortedSends_perm (h : bases'.Perm bases) :
    sortedSends summaries bases' key = sortedSends summaries bases key := by
  have hperm := ((List.perm_insertionSort (· ≤ ·) _).trans
    (h.filterMap (withKey (externalSend summaries) key))).trans
    (List.perm_insertionSort (· ≤ ·) _).symm
  exact hperm.eq_of_pairwise (fun _ _ _ _ => Int.le_antisymm) (List.pairwise_insertionSort _ _)
    (List.pairwise_insertionSort _ _)

theorem sortedSteps_perm (hids : (bases.map TxBase.transactionId).Nodup) (h : bases'.Perm bases) :
    sortedSteps summaries externalSendKeys bases' key =
      sortedSteps summaries externalSendKeys bases key := by
  have hperm := ((List.perm_insertionSort (fun a b : Int × Nat => a.1 ≤ b.1) _).trans
    (h.filterMap (withKey (fundingStep summaries externalSendKeys) key))).trans
    (List.perm_insertionSort (fun a b : Int × Nat => a.1 ≤ b.1) _).symm
  refine hperm.eq_of_pairwise ?_ (List.pairwise_insertionSort _ _) (List.pairwise_insertionSort _ _)
  intro step step' hstep hstep' hle hge
  have hmem : step ∈ sortedSteps summaries externalSendKeys bases key := hperm.subset hstep
  have hnodup : ((sortedSteps summaries externalSendKeys bases key).map Prod.fst).Nodup :=
    (sortedSteps_pairwise hids).imp fun h => h.ne
  exact List.inj_on_of_nodup_map hnodup hmem hstep' (Int.le_antisymm hle hge)

theorem keyPairs_perm (hids : (bases.map TxBase.transactionId).Nodup) (h : bases'.Perm bases) :
    keyPairs summaries externalSendKeys bases' key =
      keyPairs summaries externalSendKeys bases key := by
  rw [keyPairs,keyPairs,sortedSteps_perm hids h,sortedSends_perm h]

theorem fundingStep_congr {keys' : List FundingStepMatchKey}
    (h : ∀ key, key ∈ externalSendKeys ↔ key ∈ keys') :
    fundingStep summaries externalSendKeys = fundingStep summaries keys' := by
  have hdecide : (fun key => decide (key ∈ externalSendKeys)) = fun key => decide (key ∈ keys') := by
    funext key
    simp [h key]
  have hsuppress : ∀ base summary, shouldSuppressFundingStep base summary externalSendKeys =
      shouldSuppressFundingStep base summary keys' := by
    intro base summary
    simp only [shouldSuppressFundingStep,hdecide]
  funext base
  simp only [fundingStep,hsuppress]

end Keys

end CoppiceWallet.Activity
