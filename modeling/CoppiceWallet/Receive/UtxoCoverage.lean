import CoppiceWallet.Receive.UtxoRefresh
import Mathlib.Algebra.Order.Floor.Div
import Mathlib.Data.Fintype.Card

/-! # What a run of rounds asks for -/

namespace CoppiceWallet.Receive

open CoppiceWallet.Lib
open CoppiceWallet.Store (WalletNetwork)

structure RefreshLimits where
  recentLimit : Nat
  sweepLimit : Nat
  recent_pos : 0 < recentLimit
  sweep_pos : 0 < sweepLimit

/-- What a round finds, and the batches that complete in the order in which they are marked. -/
structure Round where
  addresses : List ExternalTransparentAddress
  distinct : (addresses.map ExternalTransparentAddress.childIndex).Nodup
  accountBirthdayHeight : Nat
  safetyStartHeight : Nat
  tipHeight : Nat
  completed : List TransparentUtxoRefreshBatch

namespace Round

variable (network : WalletNetwork) (limits : RefreshLimits) (stored : Option CacheRecord)

def initialStartHeight (round : Round) : Nat :=
  min round.accountBirthdayHeight round.safetyStartHeight

def plan (round : Round) : CacheRecord × List TransparentUtxoRefreshBatch :=
  planExternalUtxoRefresh network stored round.addresses round.accountBirthdayHeight
    round.safetyStartHeight limits.recentLimit limits.sweepLimit

/-- What is stored after the round. -/
def mark (round : Round) : Option CacheRecord :=
  round.completed.foldl (fun stored batch => markUtxoRefreshBatchComplete network stored
    batch.childIndices (round.tipHeight + 1) batch.nextSweepOffset)
    (some (round.plan network limits stored).1)

/-- Only batches that were planned complete. -/
def Planned (round : Round) : Prop :=
  ∀ batch ∈ round.completed, batch ∈ (round.plan network limits stored).2

def sweepCompleted (round : Round) : Bool :=
  round.completed.any fun batch => batch.nextSweepOffset.isSome

/-- The outputs of an address were asked for. -/
def Checks (round : Round) (childIndex : UInt32) : Prop :=
  ∃ batch ∈ round.completed, childIndex ∈ batch.childIndices

def old (round : Round) : List UInt32 := oldIndices limits.recentLimit round.addresses

def pass (round : Round) : Pass where
  count := (round.old limits).length
  completed := round.sweepCompleted

end Round

def runRounds (network : WalletNetwork) (limits : RefreshLimits) (stored : Option CacheRecord)
    (rounds : List Round) : Option CacheRecord :=
  rounds.foldl (fun stored round => round.mark network limits stored) stored

def PlannedRounds (network : WalletNetwork) (limits : RefreshLimits) :
    Option CacheRecord → List Round → Prop
  | _,[] => True
  | stored,round :: rounds => round.Planned network limits stored ∧
      PlannedRounds network limits (round.mark network limits stored) rounds

/-- A run of rounds, from what was stored before. -/
structure RefreshRun (network : WalletNetwork) (limits : RefreshLimits) where
  stored : Option CacheRecord
  rounds : List Round
  planned : PlannedRounds network limits stored rounds

/-- From which height on the outputs of an address are not known. -/
def nextStartOf (network : WalletNetwork) (stored : Option CacheRecord) (childIndex : UInt32) :
    Option Nat :=
  (readCompatibleRecord network stored).bind fun record => record.nextStart childIndex

def sweepOffsetOf (network : WalletNetwork) (stored : Option CacheRecord) : Nat :=
  ((readCompatibleRecord network stored).map CacheRecord.utxoSweepNextOffset).getD 0

section Marks

variable {network : WalletNetwork} {limits : RefreshLimits} {stored : Option CacheRecord}
  {round : Round}

theorem foldl_mark_spec (nextStartHeight : Nat) (batches : List TransparentUtxoRefreshBatch)
    (hne : ∀ batch ∈ batches, batch.childIndices ≠ []) {record : CacheRecord}
    (h : Compatible network record) :
    ∃ record', batches.foldl (fun stored batch => markUtxoRefreshBatchComplete network stored
        batch.childIndices nextStartHeight batch.nextSweepOffset) (some record) = some record' ∧
      Compatible network record' ∧
      record'.utxoSweepNextOffset =
        ((batches.filterMap TransparentUtxoRefreshBatch.nextSweepOffset).getLast?).getD
          record.utxoSweepNextOffset ∧
      (∀ childIndex, (∃ batch ∈ batches, childIndex ∈ batch.childIndices) →
        record'.nextStart childIndex = some nextStartHeight) ∧
      ∀ childIndex, (¬ ∃ batch ∈ batches, childIndex ∈ batch.childIndices) →
        record'.nextStart childIndex = record.nextStart childIndex := by
  induction batches using List.reverseRecOn with
  | nil => exact ⟨record,rfl,h,rfl,by simp,by simp⟩
  | append_singleton batches batch ih =>
    obtain ⟨middle,hmiddle,hcompatible,hoffset,hchecked,hother⟩ :=
      ih fun b hb => hne b (List.mem_append_left _ hb)
    obtain ⟨record',hrecord,hcompatible',hoffset',hheights⟩ := mark_spec hcompatible
      (hne batch (by simp)) nextStartHeight batch.nextSweepOffset
    refine ⟨record',?_,hcompatible',?_,?_,?_⟩
    · rw [List.foldl_append,hmiddle]
      exact hrecord
    · rw [hoffset',hoffset,List.filterMap_append]
      cases hnext : batch.nextSweepOffset <;> simp [hnext]
    · rintro childIndex ⟨other,hother',hchild⟩
      rw [hheights]
      by_cases hlast : childIndex ∈ batch.childIndices
      · rw [if_pos hlast]
      · rw [if_neg hlast]
        rcases List.mem_append.mp hother' with hmem | hmem
        · exact hchecked childIndex ⟨other,hmem,hchild⟩
        · rw [List.mem_singleton.mp hmem] at hchild
          exact absurd hchild hlast
    · intro childIndex hnone
      have hlast : childIndex ∉ batch.childIndices := fun hin => hnone ⟨batch,by simp,hin⟩
      rw [hheights,if_neg hlast]
      exact hother childIndex fun ⟨other,hmem,hin⟩ =>
        hnone ⟨other,List.mem_append_left _ hmem,hin⟩

theorem plannedRecord_offset (addresses : List ExternalTransparentAddress) :
    (plannedRecord network stored addresses).utxoSweepNextOffset = sweepOffsetOf network stored := by
  simp only [plannedRecord,sweepOffsetOf]
  cases readCompatibleRecord network stored <;> rfl

variable (limits stored) in
theorem plan_compatible (round : Round) :
    Compatible network (round.plan network limits stored).1 :=
  plannedRecord_compatible stored round.addresses

theorem sweepOffsetOf_mark (h : round.Planned network limits stored) :
    sweepOffsetOf network (round.mark network limits stored) =
      (round.pass limits).next limits.sweepLimit (sweepOffsetOf network stored) := by
  obtain ⟨record,hrecord,hcompatible,hoffset,_⟩ := foldl_mark_spec (round.tipHeight + 1)
    round.completed (fun batch hbatch => (mem_planned (h batch hbatch)).2.1)
    (plan_compatible limits stored round)
  have hplanned : (round.plan network limits stored).1.utxoSweepNextOffset =
      sweepOffsetOf network stored := plannedRecord_offset round.addresses
  have hnext : ∀ offset ∈ round.completed.filterMap TransparentUtxoRefreshBatch.nextSweepOffset,
      offset = (sweepOffsetOf network stored % (round.old limits).length +
        min limits.sweepLimit (round.old limits).length) % (round.old limits).length := by
    intro offset hmem
    obtain ⟨batch,hbatch,heq⟩ := List.mem_filterMap.mp hmem
    rcases (mem_planned (h batch hbatch)).1 with hrecent | hsweep
    · rw [hrecent.1] at heq
      cases heq
    · rw [hsweep.1,plannedRecord_offset] at heq
      exact (Option.some.inj heq).symm
  rw [sweepOffsetOf,Round.mark,hrecord,readCompatibleRecord_eq hcompatible,Option.map_some,
    Option.getD_some,hoffset,hplanned]
  cases hlast : (round.completed.filterMap
      TransparentUtxoRefreshBatch.nextSweepOffset).getLast? with
  | none =>
    have hnil := List.getLast?_eq_none_iff.mp hlast
    have hfalse : round.sweepCompleted = false := by
      simpa [Round.sweepCompleted] using List.filterMap_eq_nil_iff.mp hnil
    simp [Pass.next,Round.pass,hfalse]
  | some offset =>
    have hmem := List.mem_of_getLast? hlast
    have htrue : round.sweepCompleted = true := by
      obtain ⟨batch,hbatch,heq⟩ := List.mem_filterMap.mp hmem
      exact List.any_eq_true.mpr ⟨batch,hbatch,by simp [heq]⟩
    simp [Pass.next,Round.pass,htrue,hnext offset hmem]

theorem nextStartOf_mark (h : round.Planned network limits stored) (childIndex : UInt32) :
    (round.Checks childIndex → nextStartOf network (round.mark network limits stored) childIndex =
        some (round.tipHeight + 1)) ∧
      (¬ round.Checks childIndex → ∀ height,
        nextStartOf network (round.mark network limits stored) childIndex = some height →
          nextStartOf network stored childIndex = some height) := by
  obtain ⟨record,hrecord,hcompatible,_,hchecked,hother⟩ := foldl_mark_spec (round.tipHeight + 1)
    round.completed (fun batch hbatch => (mem_planned (h batch hbatch)).2.1)
    (plan_compatible limits stored round)
  rw [nextStartOf,Round.mark,hrecord,readCompatibleRecord_eq hcompatible,Option.bind_some]
  constructor
  · exact hchecked childIndex
  · intro hnone height hheight
    rw [hother childIndex hnone] at hheight
    have hplanned := plannedRecord_nextStart network stored round.addresses childIndex
    rw [Round.plan,planExternalUtxoRefresh,hplanned] at hheight
    split at hheight
    · exact hheight
    · cases hheight

end Marks

/-- From where to where the outputs of an address were asked for, by each batch that completed. -/
def completedRanges (rounds : List Round) (childIndex : UInt32) : List (Nat × Nat) :=
  rounds.flatMap fun round =>
    (round.completed.filter fun batch => decide (childIndex ∈ batch.childIndices)).map
      fun batch => (batch.startHeight,round.tipHeight + 1)

/-- Where the last batch that completed ended, or what was known before the run. -/
def lastNextStart (network : WalletNetwork) (stored : Option CacheRecord) (rounds : List Round)
    (childIndex : UInt32) : Option Nat :=
  ((completedRanges rounds childIndex).getLast?.map Prod.snd).or
    (nextStartOf network stored childIndex)

section Heights

variable {network : WalletNetwork} {limits : RefreshLimits} {stored : Option CacheRecord}
  {rounds : List Round} {round : Round} {childIndex : UInt32}

theorem plannedRounds_append_singleton : ∀ {rounds : List Round} {stored : Option CacheRecord},
    PlannedRounds network limits stored (rounds ++ [round]) →
      PlannedRounds network limits stored rounds ∧
        round.Planned network limits (runRounds network limits stored rounds) := by
  intro rounds
  induction rounds with
  | nil =>
    intro stored h
    exact ⟨trivial,h.1⟩
  | cons first rounds ih =>
    intro stored h
    have hrest := ih h.2
    exact ⟨⟨h.1,hrest.1⟩,hrest.2⟩

theorem completedRanges_snoc : completedRanges (rounds ++ [round]) childIndex =
    completedRanges rounds childIndex ++
      (round.completed.filter fun batch => decide (childIndex ∈ batch.childIndices)).map
        fun batch => (batch.startHeight,round.tipHeight + 1) := by
  simp [completedRanges]

theorem lastNextStart_checked (h : round.Checks childIndex) :
    lastNextStart network stored (rounds ++ [round]) childIndex = some (round.tipHeight + 1) := by
  obtain ⟨batch,hbatch,hchild⟩ := h
  have hmem : batch ∈ round.completed.filter fun batch => decide (childIndex ∈ batch.childIndices) :=
    List.mem_filter.mpr ⟨hbatch,decide_eq_true hchild⟩
  cases hlast : (round.completed.filter fun batch =>
      decide (childIndex ∈ batch.childIndices)).getLast? with
  | none =>
    rw [List.getLast?_eq_none_iff.mp hlast] at hmem
    cases hmem
  | some last => simp [lastNextStart,completedRanges_snoc,List.getLast?_append,hlast]

theorem lastNextStart_unchecked (h : ¬ round.Checks childIndex) :
    lastNextStart network stored (rounds ++ [round]) childIndex =
      lastNextStart network stored rounds childIndex := by
  have hnil : (round.completed.filter fun batch => decide (childIndex ∈ batch.childIndices)) = [] := by
    refine List.filter_eq_nil_iff.mpr ?_
    intro batch hbatch hchild
    exact h ⟨batch,hbatch,of_decide_eq_true hchild⟩
  rw [lastNextStart,completedRanges_snoc,hnil,List.map_nil,List.append_nil]
  rfl

theorem nextStartOf_runRounds (h : PlannedRounds network limits stored rounds) {height : Nat}
    (hheight : nextStartOf network (runRounds network limits stored rounds) childIndex =
      some height) :
    lastNextStart network stored rounds childIndex = some height := by
  induction rounds using List.reverseRecOn generalizing height with
  | nil => exact hheight
  | append_singleton rounds round ih =>
    obtain ⟨hrounds,hround⟩ := plannedRounds_append_singleton h
    rw [runRounds,List.foldl_append] at hheight
    have hspec := nextStartOf_mark hround childIndex
    by_cases hchecks : round.Checks childIndex
    · rw [lastNextStart_checked hchecks]
      exact (hspec.1 hchecks).symm.trans hheight
    · rw [lastNextStart_unchecked hchecks]
      exact ih hrounds (hspec.2 hchecks height hheight)

theorem plan_startHeight (h : PlannedRounds network limits stored rounds)
    {batch : TransparentUtxoRefreshBatch}
    (hbatch : batch ∈ (round.plan network limits (runRounds network limits stored rounds)).2)
    (hchild : childIndex ∈ batch.childIndices) :
    (∀ height, lastNextStart network stored rounds childIndex = some height →
        batch.startHeight ≤ max height round.initialStartHeight) ∧
      (lastNextStart network stored rounds childIndex = none →
        batch.startHeight = round.initialStartHeight) := by
  have hstarts := (mem_planned hbatch).2.2
  have hle := hstarts.le childIndex hchild
  have hplanned : ∀ height, (plannedRecord network (runRounds network limits stored rounds)
      round.addresses).nextStart childIndex = some height →
        lastNextStart network stored rounds childIndex = some height := by
    intro height hheight
    rw [plannedRecord_nextStart] at hheight
    split at hheight
    · exact nextStartOf_runRounds h hheight
    · cases hheight
  simp only [CacheRecord.nextStart] at hplanned
  unfold addressStartHeight at hle
  constructor
  · intro height hlast
    split at hle
    · rename_i known hknown
      have heq := Option.some.inj ((hplanned known hknown).symm.trans hlast)
      rw [heq] at hle
      exact hle.trans (max_le_max (Nat.sub_le _ _) (Nat.le_refl _))
    · exact hle.trans (Nat.le_max_right _ _)
  · intro hnone
    split at hle
    · rename_i known hknown
      rw [hplanned known hknown] at hnone
      cases hnone
    · exact Nat.le_antisymm hle hstarts.initial_le

theorem completedRanges_noGap (h : PlannedRounds network limits stored rounds) {height next : Nat}
    (hnext : lastNextStart network stored rounds childIndex = some next) (hlt : height < next)
    (hinitial : ∀ round ∈ rounds, round.Checks childIndex → round.initialStartHeight ≤ height)
    (hstored : ∀ known, nextStartOf network stored childIndex = some known → known ≤ height) :
    ∃ range ∈ completedRanges rounds childIndex, range.1 ≤ height ∧ height < range.2 := by
  induction rounds using List.reverseRecOn generalizing next with
  | nil =>
    have hknown := hstored next hnext
    omega
  | append_singleton rounds round ih =>
    obtain ⟨hrounds,hround⟩ := plannedRounds_append_singleton h
    have hbefore : ∀ {earlier : Nat},
        lastNextStart network stored rounds childIndex = some earlier → height < earlier →
        ∃ range ∈ completedRanges (rounds ++ [round]) childIndex,
          range.1 ≤ height ∧ height < range.2 := by
      intro earlier hearlier hless
      obtain ⟨range,hrange,hin⟩ := ih hrounds hearlier hless
        fun r hr => hinitial r (List.mem_append_left _ hr)
      rw [completedRanges_snoc]
      exact ⟨range,List.mem_append_left _ hrange,hin⟩
    by_cases hchecks : round.Checks childIndex
    · rw [lastNextStart_checked hchecks] at hnext
      have hend := Option.some.inj hnext
      have hround_initial := hinitial round (by simp) hchecks
      obtain ⟨batch,hbatch,hchild⟩ := hchecks
      have hstart := plan_startHeight hrounds (hround batch hbatch) hchild
      have hrange : (batch.startHeight,round.tipHeight + 1) ∈
          completedRanges (rounds ++ [round]) childIndex := by
        rw [completedRanges_snoc]
        exact List.mem_append_right _ (List.mem_map_of_mem
          (List.mem_filter.mpr ⟨hbatch,decide_eq_true hchild⟩))
      by_cases hbelow : batch.startHeight ≤ height
      · exact ⟨_,hrange,hbelow,by omega⟩
      · -- the batch starts above it, so an earlier one went beyond it
        cases hlast : lastNextStart network stored rounds childIndex with
        | none =>
          have heq := hstart.2 hlast
          omega
        | some earlier =>
          have hle := hstart.1 earlier hlast
          exact hbefore hlast (by omega)
    · rw [lastNextStart_unchecked hchecks] at hnext
      exact hbefore hnext hlt

end Heights

/-- Addresses are added with higher child indexes than all there are. -/
structure Grown (before after : List ExternalTransparentAddress) : Prop where
  kept : ∀ childIndex ∈ knownIndices before, childIndex ∈ knownIndices after
  higher : ∀ childIndex ∈ knownIndices after, childIndex ∉ knownIndices before →
    ∀ known ∈ knownIndices before, known < childIndex

def GrownRounds : List ExternalTransparentAddress → List Round → Prop
  | _,[] => True
  | addresses,round :: rounds =>
    Grown addresses round.addresses ∧ GrownRounds round.addresses rounds

theorem nodup_of_decreasing {list : List UInt32} (h : list.Pairwise (· > ·)) : list.Nodup := by
  refine List.Pairwise.imp ?_ h
  intro a b hlt heq
  rw [heq] at hlt
  exact UInt32.lt_irrefl b hlt

theorem suffix_of_higher {before after : List UInt32} (hbefore : before.Pairwise (· > ·))
    (hafter : after.Pairwise (· > ·)) (hkept : before ⊆ after)
    (hhigher : ∀ child ∈ after, child ∉ before → ∀ known ∈ before, known < child) :
    before <:+ after := by
  induction after with
  | nil =>
    rw [List.subset_nil.mp hkept]
  | cons first after ih =>
    rw [List.pairwise_cons] at hafter
    by_cases hfirst : first ∈ before
    · -- nothing is higher than the first, so nothing is new
      have hsubset : first :: after ⊆ before := by
        intro child hchild
        rcases List.mem_cons.mp hchild with heq | hmem
        · rw [heq]
          exact hfirst
        · by_contra hnew
          have hlt := hhigher child hchild hnew first hfirst
          exact UInt32.lt_irrefl _ (UInt32.lt_trans hlt (hafter.1 child hmem))
      have hcons : (first :: after).Pairwise (· > ·) := List.pairwise_cons.mpr hafter
      have hperm : before.Perm (first :: after) := (List.perm_ext_iff_of_nodup
        (nodup_of_decreasing hbefore) (nodup_of_decreasing hcons)).mpr fun child =>
          ⟨fun h => hkept h,fun h => hsubset h⟩
      have heq := hperm.eq_of_pairwise
        (fun a b _ _ hab hba => absurd (UInt32.lt_trans hab hba) (UInt32.lt_irrefl _)) hbefore hcons
      rw [heq]
    · have hrest : before ⊆ after := by
        intro child hchild
        exact (List.mem_cons.mp (hkept hchild)).resolve_left fun heq => hfirst (heq ▸ hchild)
      exact (ih hafter.2 hrest fun child hchild => hhigher child (List.mem_cons_of_mem _ hchild)).trans
        (List.suffix_cons first after)

theorem suffix_drop {α : Type*} {before after : List α} (h : before <:+ after) (n : Nat) :
    before.drop n <:+ after.drop n := by
  refine List.suffix_of_suffix_length_le ((List.drop_suffix n before).trans h)
    (List.drop_suffix n after) ?_
  have hle := h.length_le
  simp only [List.length_drop]
  omega

theorem Grown.old_suffix {before after : List ExternalTransparentAddress} (h : Grown before after)
    (hbefore : (before.map ExternalTransparentAddress.childIndex).Nodup)
    (hafter : (after.map ExternalTransparentAddress.childIndex).Nodup) (recentLimit : Nat) :
    oldIndices recentLimit before <:+ oldIndices recentLimit after := by
  have hmem := fun child => (eligibleIndices_perm before).mem_iff (a := child)
  have hmem' := fun child => (eligibleIndices_perm after).mem_iff (a := child)
  refine suffix_drop (suffix_of_higher (eligibleIndices_pairwise hbefore)
    (eligibleIndices_pairwise hafter) ?_ ?_) recentLimit
  · intro child hchild
    exact (hmem' child).mpr (h.kept child ((hmem child).mp hchild))
  · intro child hchild hnew known hknown
    exact h.higher child ((hmem' child).mp hchild) (fun hin => hnew ((hmem child).mpr hin)) known
      ((hmem known).mp hknown)

/-- A batch of older addresses with this one completed. -/
def Swept (rounds : List Round) (childIndex : UInt32) : Prop :=
  ∃ round ∈ rounds, ∃ batch ∈ round.completed,
    batch.nextSweepOffset.isSome = true ∧ childIndex ∈ batch.childIndices

def completedSweeps (rounds : List Round) : Nat := rounds.countP Round.sweepCompleted

section Sweeps

variable {network : WalletNetwork} {limits : RefreshLimits} {stored : Option CacheRecord}
  {addresses : List ExternalTransparentAddress} {rounds : List Round} {round : Round}
  {childIndex : UInt32} {rest : List UInt32}

theorem completions_passes :
    completions (rounds.map (Round.pass limits)) = completedSweeps rounds := by
  rw [completions,List.countP_map]
  rfl

theorem GrownRounds.old_suffix (h : GrownRounds addresses rounds)
    (hdistinct : (addresses.map ExternalTransparentAddress.childIndex).Nodup) :
    ∀ round ∈ rounds, oldIndices limits.recentLimit addresses <:+ round.old limits := by
  induction rounds generalizing addresses with
  | nil => simp
  | cons first rounds ih =>
    have hfirst := h.1.old_suffix hdistinct first.distinct limits.recentLimit
    intro round hround
    rcases List.mem_cons.mp hround with heq | hmem
    · rw [heq]
      exact hfirst
    · exact hfirst.trans (ih h.2 first.distinct round hmem)

theorem GrownRounds.growing (h : GrownRounds addresses rounds)
    (hdistinct : (addresses.map ExternalTransparentAddress.childIndex).Nodup) :
    Growing (oldIndices limits.recentLimit addresses).length (rounds.map (Round.pass limits)) := by
  induction rounds generalizing addresses with
  | nil => trivial
  | cons first rounds ih =>
    exact ⟨(h.1.old_suffix hdistinct first.distinct limits.recentLimit).length_le,
      ih h.2 first.distinct⟩

theorem pass_misses (hplanned : round.Planned network limits stored)
    (hsuffix : childIndex :: rest <:+ round.old limits)
    (hunswept : ¬ Swept [round] childIndex) :
    (round.pass limits).Misses limits.sweepLimit (rest.length + 1) (sweepOffsetOf network stored) := by
  intro hcompleted
  obtain ⟨batch,hbatch,hsome⟩ := List.any_eq_true.mp hcompleted
  by_contra hlt
  refine hunswept ⟨round,by simp,batch,hbatch,hsome,?_⟩
  rcases (mem_planned (hplanned batch hbatch)).1 with hrecent | hsweep
  · rw [hrecent.1] at hsome
    cases hsome
  · obtain ⟨before,hbefore⟩ := hsuffix
    have hold : oldIndices limits.recentLimit round.addresses = before ++ childIndex :: rest :=
      hbefore.symm
    have hlength : (round.old limits).length = before.length + (rest.length + 1) := by
      rw [← hbefore]
      simp
    have hentry : (oldIndices limits.recentLimit round.addresses)[(round.old limits).length -
        (rest.length + 1)]? = some childIndex := by
      rw [hold,hlength,Nat.add_sub_cancel]
      simp
    rw [hsweep.2,plannedRecord_offset]
    exact mem_cyclicWindow (Nat.mod_lt _ (show 0 < (round.old limits).length by omega)) hentry
      (Nat.lt_of_not_le hlt)

theorem missed_of_unswept (hplanned : PlannedRounds network limits stored rounds)
    (hold : ∀ round ∈ rounds, childIndex :: rest <:+ round.old limits)
    (hunswept : ¬ Swept rounds childIndex) :
    Missed limits.sweepLimit (rest.length + 1) (sweepOffsetOf network stored)
      (rounds.map (Round.pass limits)) := by
  induction rounds generalizing stored with
  | nil => trivial
  | cons round rounds ih =>
    have hfirst : ¬ Swept [round] childIndex := by
      rintro ⟨r,hr,hbatch⟩
      exact hunswept ⟨r,by rw [List.mem_singleton.mp hr]; simp,hbatch⟩
    have hrest : ¬ Swept rounds childIndex := by
      rintro ⟨r,hr,hbatch⟩
      exact hunswept ⟨r,List.mem_cons_of_mem _ hr,hbatch⟩
    refine ⟨pass_misses hplanned.1 (hold round (by simp)) hfirst,?_⟩
    rw [← sweepOffsetOf_mark hplanned.1]
    exact ih hplanned.2 (fun r hr => hold r (List.mem_cons_of_mem _ hr)) hrest

theorem old_length_le (round : Round) : (round.old limits).length ≤ 2 ^ 32 := by
  have hnodup : (round.old limits).Nodup :=
    (eligibleIndices_nodup round.distinct).sublist (List.drop_sublist _ _)
  have hmap : ((round.old limits).map UInt32.toFin).Nodup :=
    hnodup.map fun a b h => UInt32.toFin_inj.mp h
  have hcard := hmap.length_le_card
  rwa [List.length_map,Fintype.card_fin] at hcard

theorem old_split (hchild : childIndex ∈ oldIndices limits.recentLimit addresses)
    (hsuffix : ∀ round ∈ rounds, oldIndices limits.recentLimit addresses <:+ round.old limits) :
    ∃ rest, childIndex :: rest <:+ oldIndices limits.recentLimit addresses ∧
      (∀ round ∈ rounds, childIndex :: rest <:+ round.old limits) ∧
      ∀ pass ∈ rounds.map (Round.pass limits), rest.length + 1 ≤ pass.count ∧
        pass.count ≤ 2 ^ 32 := by
  obtain ⟨before,rest,heq⟩ := List.append_of_mem hchild
  have hrest : childIndex :: rest <:+ oldIndices limits.recentLimit addresses := ⟨before,heq.symm⟩
  refine ⟨rest,hrest,fun round hround => hrest.trans (hsuffix round hround),?_⟩
  intro pass hpass
  obtain ⟨round,hround,rfl⟩ := List.mem_map.mp hpass
  have hlength := (hrest.trans (hsuffix round hround)).length_le
  rw [List.length_cons] at hlength
  exact ⟨hlength,old_length_le round⟩

theorem swept_of_unchanged (hplanned : PlannedRounds network limits stored rounds)
    (hsame : ∀ round ∈ rounds, round.old limits = oldIndices limits.recentLimit addresses)
    (hchild : childIndex ∈ oldIndices limits.recentLimit addresses)
    (hsweeps : (oldIndices limits.recentLimit addresses).length ≤
      completedSweeps rounds * limits.sweepLimit) :
    Swept rounds childIndex := by
  by_contra hunswept
  obtain ⟨rest,hrest,hold,hcounts⟩ := old_split hchild
    fun round hround => (hsame round hround) ▸ List.suffix_refl _
  have hmissed := missed_of_unswept hplanned hold hunswept
  have hlength := hrest.length_le
  rw [List.length_cons] at hlength
  have hcount : ∀ pass ∈ rounds.map (Round.pass limits),
      pass.count = (oldIndices limits.recentLimit addresses).length := by
    intro pass hpass
    obtain ⟨round,hround,rfl⟩ := List.mem_map.mp hpass
    exact congrArg List.length (hsame round hround)
  have hlt := missed_lt (Nat.succ_pos rest.length) hlength (Nat.le_refl _)
    (fun pass hpass => ⟨(hcounts pass hpass).1,(hcount pass hpass).le⟩) hmissed
  rw [growths_eq_zero hcount,completions_passes] at hlt
  omega

/-- As there are no more child indexes than a word has values, the list does not grow for ever. -/
theorem swept_of_grown (hplanned : PlannedRounds network limits stored rounds)
    (hdistinct : (addresses.map ExternalTransparentAddress.childIndex).Nodup)
    (hgrown : GrownRounds addresses rounds)
    (hchild : childIndex ∈ oldIndices limits.recentLimit addresses)
    (hsweeps : 2 ^ 64 ≤ completedSweeps rounds) : Swept rounds childIndex := by
  by_contra hunswept
  obtain ⟨rest,hrest,hold,hcounts⟩ := old_split hchild (hgrown.old_suffix hdistinct)
  have hmissed := missed_of_unswept hplanned hold hunswept
  have hlength := hrest.length_le
  rw [List.length_cons] at hlength
  have hlimit : (oldIndices limits.recentLimit addresses).length ≤ 2 ^ 32 :=
    old_length_le ⟨addresses,hdistinct,0,0,0,[]⟩
  have hlt := missed_lt (Nat.succ_pos rest.length) hlength hlimit hcounts hmissed
  have hgrowths := growths_add_le hlimit (hgrown.growing hdistinct)
    fun pass hpass => (hcounts pass hpass).2
  rw [completions_passes] at hlt
  have hmul := Nat.mul_le_mul_left (completedSweeps rounds) limits.sweep_pos
  omega

theorem swept_of_slowGrowth (hplanned : PlannedRounds network limits stored rounds)
    (hdistinct : (addresses.map ExternalTransparentAddress.childIndex).Nodup)
    (hgrown : GrownRounds addresses rounds)
    (hslow : SlowGrowth limits.sweepLimit (oldIndices limits.recentLimit addresses).length
      (rounds.map (Round.pass limits)))
    (hchild : childIndex ∈ oldIndices limits.recentLimit addresses)
    (hsweeps : ((oldIndices limits.recentLimit addresses).length + limits.sweepLimit) *
      (limits.sweepLimit + 1) ≤ completedSweeps rounds) : Swept rounds childIndex := by
  by_contra hunswept
  obtain ⟨rest,hrest,hold,_⟩ := old_split hchild (hgrown.old_suffix hdistinct)
  have hmissed := missed_of_unswept hplanned hold hunswept
  have hlength := hrest.length_le
  rw [List.length_cons] at hlength
  have hlt := missed_lt_of_slowGrowth limits.sweep_pos (Nat.succ_pos rest.length) hlength
    (hgrown.growing hdistinct) hslow hmissed
  rw [completions_passes] at hlt
  omega

end Sweeps

/-- The rounds find the same addresses, in whatever order. -/
def Unchanged (addresses : List ExternalTransparentAddress) (rounds : List Round) : Prop :=
  ∀ round ∈ rounds, ∀ childIndex,
    childIndex ∈ knownIndices addresses ↔ childIndex ∈ knownIndices round.addresses

theorem Unchanged.old_eq {limits : RefreshLimits} {addresses : List ExternalTransparentAddress}
    {rounds : List Round} (h : Unchanged addresses rounds)
    (hdistinct : (addresses.map ExternalTransparentAddress.childIndex).Nodup) :
    ∀ round ∈ rounds, round.old limits = oldIndices limits.recentLimit addresses := by
  intro round hround
  have hperm : (eligibleIndices addresses).Perm (eligibleIndices round.addresses) :=
    (List.perm_ext_iff_of_nodup (eligibleIndices_nodup hdistinct)
      (eligibleIndices_nodup round.distinct)).mpr fun child => by
        rw [(eligibleIndices_perm addresses).mem_iff,(eligibleIndices_perm round.addresses).mem_iff]
        exact h round hround child
  have heq := hperm.eq_of_pairwise
    (fun a b _ _ hab hba => absurd (UInt32.lt_trans hab hba) (UInt32.lt_irrefl _))
    (eligibleIndices_pairwise hdistinct) (eligibleIndices_pairwise round.distinct)
  rw [Round.old,oldIndices,oldIndices,heq]

/-- What a run of rounds does for every address with a text. -/
structure Covered {network : WalletNetwork} {limits : RefreshLimits}
    (run : RefreshRun network limits) : Prop where
  disjoint : ∀ round : Round, (round.plan network limits
    (runRounds network limits run.stored run.rounds)).2.Pairwise fun batch batch' =>
      List.Disjoint batch.childIndices batch'.childIndices
  starts : ∀ round : Round, ∀ batch ∈ (round.plan network limits
    (runRounds network limits run.stored run.rounds)).2, ∀ childIndex ∈ batch.childIndices,
    (∀ height, lastNextStart network run.stored run.rounds childIndex = some height →
      batch.startHeight ≤ max height round.initialStartHeight) ∧
    (lastNextStart network run.stored run.rounds childIndex = none →
      batch.startHeight = round.initialStartHeight)
  noGap : ∀ childIndex height next,
    lastNextStart network run.stored run.rounds childIndex = some next → height < next →
    (∀ round ∈ run.rounds, round.Checks childIndex → round.initialStartHeight ≤ height) →
    (∀ known, nextStartOf network run.stored childIndex = some known → known ≤ height) →
    ∃ range ∈ completedRanges run.rounds childIndex, range.1 ≤ height ∧ height < range.2
  recent : ∀ round : Round, ∀ batch ∈ (round.plan network limits
    (runRounds network limits run.stored run.rounds)).2, batch.nextSweepOffset = none →
    ∀ childIndex ∈ knownIndices round.addresses, childIndex ∉ round.old limits →
      childIndex ∈ batch.childIndices
  unchanged : ∀ addresses, (addresses.map ExternalTransparentAddress.childIndex).Nodup →
    Unchanged addresses run.rounds → ∀ childIndex ∈ oldIndices limits.recentLimit addresses,
    (oldIndices limits.recentLimit addresses).length ⌈/⌉ limits.sweepLimit ≤
      completedSweeps run.rounds → Swept run.rounds childIndex
  grown : ∀ addresses, (addresses.map ExternalTransparentAddress.childIndex).Nodup →
    GrownRounds addresses run.rounds → ∀ childIndex ∈ oldIndices limits.recentLimit addresses,
    2 ^ 64 ≤ completedSweeps run.rounds → Swept run.rounds childIndex
  slow : ∀ addresses, (addresses.map ExternalTransparentAddress.childIndex).Nodup →
    GrownRounds addresses run.rounds →
    SlowGrowth limits.sweepLimit (oldIndices limits.recentLimit addresses).length
      (run.rounds.map (Round.pass limits)) →
    ∀ childIndex ∈ oldIndices limits.recentLimit addresses,
    ((oldIndices limits.recentLimit addresses).length + limits.sweepLimit) *
      (limits.sweepLimit + 1) ≤ completedSweeps run.rounds → Swept run.rounds childIndex

theorem recent_complete {recentLimit : Nat} {addresses : List ExternalTransparentAddress}
    {batch : TransparentUtxoRefreshBatch} (h : IsRecentBatch recentLimit addresses batch)
    {childIndex : UInt32} (hknown : childIndex ∈ knownIndices addresses)
    (hold : childIndex ∉ oldIndices recentLimit addresses) : childIndex ∈ batch.childIndices := by
  have hmem := (eligibleIndices_perm addresses).mem_iff.mpr hknown
  rw [← List.take_append_drop recentLimit (eligibleIndices addresses)] at hmem
  rw [h.2]
  exact (List.mem_append.mp hmem).resolve_right hold

def lowTipLimits : RefreshLimits := ⟨1,1,Nat.one_pos,Nat.one_pos⟩

def lowTipBatch : TransparentUtxoRefreshBatch := ⟨["t1"],[0],100,none⟩

/-- The chain is not yet at the account's birthday. -/
def lowTipRound : Round :=
  ⟨[⟨0,"t1",false⟩],List.nodup_singleton 0,100,100,49,[lowTipBatch]⟩

theorem lowTipRound_planned : lowTipRound.Planned .main lowTipLimits none := by
  intro batch hbatch
  rw [List.mem_singleton.mp hbatch]
  decide

def lowTipRun : RefreshRun .main lowTipLimits := ⟨none,[lowTipRound],lowTipRound_planned,trivial⟩

end CoppiceWallet.Receive
