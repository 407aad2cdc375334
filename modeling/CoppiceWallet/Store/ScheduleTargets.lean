import CoppiceWallet.Store.ScheduleSlots

/-! # The target values of a schedule -/

namespace CoppiceWallet.Store

open CoppiceWallet.Lib

def placeTargetValues : List (Option Nat) → List MigrationScheduleEntry →
    StoreResult (List (Option Nat))
  | targetValues, [] => .ok targetValues
  | targetValues, entry :: entries => do
    let partIndex ← okOr entry.partIndex "all schedule entries were checked above"
    let slot ← okOr targetValues[partIndex]?
      "Approved migration schedule part index is outside the plan"
    if slot.isSome then .error "Approved migration schedule part index is duplicated"
    else placeTargetValues (targetValues.set partIndex (some entry.value)) entries

def targetValuesFromSchedule (schedule : List MigrationScheduleEntry) : StoreResult (List Nat) :=
  if schedule.isEmpty then .ok []
  else if schedule.all (fun entry => entry.partIndex.isNone) then
    .error "Approved migration schedule does not identify migration parts"
  else if schedule.any (fun entry => entry.partIndex.isNone) then
    .error "Approved migration schedule part indexes are incomplete"
  else do
    let targetValues ← placeTargetValues (List.replicate schedule.length none) schedule
    targetValues.mapM fun value =>
      okOr value "Approved migration schedule part indexes are incomplete"

def plannedTransferScheduleForPartsWithPolicy (rng : Rng) (parts : List (Nat × Nat))
    (network : WalletNetwork) (timingPolicy : MigrationTimingPolicy) : List MigrationScheduleEntry :=
  let parts := rng.shuffle parts
  let (meanDelayBlocks, maxDelayBlocks) :=
    scheduleParametersWithPolicyForPartCount network timingPolicy parts.length
  let offsets := randomScheduleBlockOffsets rng parts.length meanDelayBlocks maxDelayBlocks
  parts.zipWith (fun part blockOffset => ⟨some part.1,part.2,blockOffset⟩) offsets

variable {schedule entries : List MigrationScheduleEntry} {targetValues : List Nat}

/-- The entries fill free slots, each its own. -/
structure Fills (slots : List (Option Nat)) (entries : List MigrationScheduleEntry) : Prop where
  free : ∀ entry ∈ entries, ∃ i, entry.partIndex = some i ∧ slots[i]? = some none
  distinct : (entries.map MigrationScheduleEntry.partIndex).Nodup

/-- The slots after the entries are placed. -/
structure Placed (slots : List (Option Nat)) (entries : List MigrationScheduleEntry)
    (placed : List (Option Nat)) : Prop where
  length : placed.length = slots.length
  values : ∀ entry ∈ entries, ∀ i, entry.partIndex = some i → placed[i]? = some (some entry.value)
  kept : ∀ i value : Nat, slots[i]? = some (some value) → placed[i]? = some (some value)

theorem Fills.place {slots : List (Option Nat)} (h : Fills slots entries) :
    ∃ placed, placeTargetValues slots entries = .ok placed ∧ Placed slots entries placed := by
  induction entries generalizing slots with
  | nil =>
    refine ⟨slots,rfl,rfl,?_,fun _ _ h => h⟩
    exact fun _ hentry => absurd hentry List.not_mem_nil
  | cons entry entries ih =>
    obtain ⟨i,hi,hfree⟩ := h.free entry List.mem_cons_self
    have hdistinct := h.distinct
    rw [List.map_cons,List.nodup_cons] at hdistinct
    have hrest : Fills (slots.set i (some entry.value)) entries := by
      refine ⟨?_,hdistinct.2⟩
      intro other hother
      obtain ⟨j,hj,hjfree⟩ := h.free other (List.mem_cons_of_mem _ hother)
      have hne : i ≠ j := by
        intro heq
        subst heq
        exact hdistinct.1 (List.mem_map.mpr ⟨other,hother,hj.trans hi.symm⟩)
      exact ⟨j,hj,by rw [List.getElem?_set_ne hne]; exact hjfree⟩
    obtain ⟨placed,hplaced,hall⟩ := ih hrest
    obtain ⟨hlt,_⟩ := List.getElem?_eq_some_iff.mp hfree
    refine ⟨placed,?_,?_,?_,?_⟩
    · rw [placeTargetValues,hi,okOr_some,ok_bind,hfree,okOr_some,ok_bind]
      exact hplaced
    · rw [hall.length,List.length_set]
    · intro other hother j hj
      rcases List.mem_cons.mp hother with rfl | hother
      · rw [hi] at hj
        cases hj
        exact hall.kept i _ (List.getElem?_set_self hlt)
      · exact hall.values other hother j hj
    · intro j value hj
      have hne : i ≠ j := by
        intro heq
        subst heq
        rw [hfree] at hj
        cases hj
      apply hall.kept
      rw [List.getElem?_set_ne hne]
      exact hj

theorem fills_of_place {slots placed : List (Option Nat)}
    (h : placeTargetValues slots entries = .ok placed) : Fills slots entries := by
  induction entries generalizing slots with
  | nil => exact ⟨fun _ hentry => absurd hentry List.not_mem_nil,List.nodup_nil⟩
  | cons entry entries ih =>
    rw [placeTargetValues] at h
    obtain ⟨i,hi,h⟩ := bind_ok h
    obtain ⟨slot,hslot,hrest⟩ := bind_ok h
    have hi := okOr_ok hi
    have hslot := okOr_ok hslot
    split at hrest
    · cases hrest
    · rename_i hnone
      rw [Option.not_isSome_iff_eq_none] at hnone
      subst hnone
      have hfills := ih hrest
      obtain ⟨hlt,_⟩ := List.getElem?_eq_some_iff.mp hslot
      have hother : ∀ other ∈ entries, ∃ j, other.partIndex = some j ∧ i ≠ j ∧
          slots[j]? = some none := by
        intro other hmem
        obtain ⟨j,hj,hfree⟩ := hfills.free other hmem
        have hne : i ≠ j := by
          intro heq
          subst heq
          rw [List.getElem?_set_self hlt] at hfree
          cases hfree
        rw [List.getElem?_set_ne hne] at hfree
        exact ⟨j,hj,hne,hfree⟩
      constructor
      · intro other hmem
        rcases List.mem_cons.mp hmem with rfl | hmem
        · exact ⟨i,hi,hslot⟩
        · obtain ⟨j,hj,_,hfree⟩ := hother other hmem
          exact ⟨j,hj,hfree⟩
      · rw [List.map_cons,List.nodup_cons]
        refine ⟨?_,hfills.distinct⟩
        intro hmem
        obtain ⟨other,hmem,heq⟩ := List.mem_map.mp hmem
        obtain ⟨j,hj,hne,_⟩ := hother other hmem
        rw [hi,hj] at heq
        exact hne (Option.some.inj heq).symm

theorem mapM_okOr {slots : List (Option Nat)} {message : String} :
    (slots.mapM fun value => okOr value message) = .ok targetValues ↔
      slots = targetValues.map some := by
  constructor
  · intro h
    have hforall := mapM_ok h
    clear h
    induction hforall with
    | nil => rfl
    | cons hvalue _ ih => rw [List.map_cons,okOr_ok hvalue,ih]
  · intro h
    subst h
    induction targetValues with
    | nil => rfl
    | cons value values ih =>
      rw [List.map_cons,List.mapM_cons,ih]
      rfl

theorem Placed.eq {placed : List (Option Nat)}
    (h : Placed (List.replicate schedule.length none) schedule placed)
    (hindexed : PartIndexed targetValues [] schedule)
    (hlength : schedule.length = targetValues.length) : placed = targetValues.map some := by
  apply List.ext_getElem?
  intro p
  by_cases hp : p < targetValues.length
  · obtain ⟨entry,hentry,hindex⟩ := hindexed.covers hlength hp
    obtain ⟨i,hi,hvalue⟩ := hindexed.indexed entry hentry
    rw [hindex] at hi
    cases hi
    rw [h.values entry hentry p hindex,List.getElem?_map,hvalue]
    rfl
  · have hlength' := h.length
    rw [List.length_replicate] at hlength'
    rw [List.getElem?_eq_none (by omega),List.getElem?_eq_none (by simp; omega)]

theorem targetValuesFromSchedule_iff (hne : schedule ≠ []) :
    targetValuesFromSchedule schedule = .ok targetValues ↔
      PartIndexed targetValues [] schedule ∧ schedule.length = targetValues.length := by
  have hempty : ¬schedule.isEmpty = true := by simp [hne]
  rw [targetValuesFromSchedule,if_neg hempty]
  constructor
  · intro h
    split at h
    · cases h
    · split at h
      · cases h
      · obtain ⟨slots,hslots,hvalues⟩ := bind_ok h
        have hfills := fills_of_place hslots
        obtain ⟨placed,hplaced,hall⟩ := hfills.place
        cases hslots.symm.trans hplaced
        have heq := mapM_okOr.mp hvalues
        have hlength := hall.length
        rw [heq,List.length_map,List.length_replicate] at hlength
        refine ⟨⟨?_,?_,hfills.distinct⟩,hlength.symm⟩
        · intro entry hentry
          obtain ⟨i,hi,_⟩ := hfills.free entry hentry
          have hvalue := hall.values entry hentry i hi
          rw [heq,List.getElem?_map,Option.map_eq_some_iff] at hvalue
          obtain ⟨value,hvalue,hsame⟩ := hvalue
          exact ⟨i,hi,hvalue.trans hsame⟩
        · exact fun _ _ _ hi => absurd hi List.not_mem_nil
  · rintro ⟨hindexed,hlength⟩
    have hsome : ∀ entry ∈ schedule, entry.partIndex.isNone = false := by
      intro entry hentry
      obtain ⟨i,hi,_⟩ := hindexed.indexed entry hentry
      rw [hi]
      rfl
    obtain ⟨entry,hentry⟩ := List.exists_mem_of_ne_nil schedule hne
    have hall : ¬schedule.all (fun entry => entry.partIndex.isNone) = true := by
      intro hall
      have hnone := List.all_eq_true.mp hall entry hentry
      rw [hsome entry hentry] at hnone
      cases hnone
    have hany : ¬schedule.any (fun entry => entry.partIndex.isNone) = true := by
      intro hany
      obtain ⟨other,hother,hnone⟩ := List.any_eq_true.mp hany
      rw [hsome other hother] at hnone
      cases hnone
    have hfills : Fills (List.replicate schedule.length none) schedule := by
      refine ⟨?_,hindexed.distinct⟩
      intro other hother
      obtain ⟨i,hi,hvalue⟩ := hindexed.indexed other hother
      obtain ⟨hlt,_⟩ := List.getElem?_eq_some_iff.mp hvalue
      exact ⟨i,hi,List.getElem?_replicate_of_lt (by omega)⟩
    obtain ⟨placed,hplaced,hplaced'⟩ := hfills.place
    rw [if_neg hall,if_neg hany,hplaced,ok_bind,mapM_okOr]
    exact hplaced'.eq hindexed hlength

theorem PartIndexed.values_perm (h : PartIndexed targetValues [] schedule)
    (hlength : schedule.length = targetValues.length) :
    (schedule.map MigrationScheduleEntry.value).Perm targetValues := by
  have hindexes : (schedule.map MigrationScheduleEntry.partIndex).Perm
      ((List.range targetValues.length).map some) := by
    apply (List.subperm_of_subset h.distinct _).perm_of_length_le (by simp [hlength])
    intro i hi
    obtain ⟨entry,hentry,rfl⟩ := List.mem_map.mp hi
    obtain ⟨j,hj,hvalue⟩ := h.indexed entry hentry
    obtain ⟨hlt,_⟩ := List.getElem?_eq_some_iff.mp hvalue
    rw [hj]
    exact List.mem_map_of_mem (List.mem_range.mpr hlt)
  have hvalues := hindexes.map fun i => i.bind fun i => targetValues[i]?
  have hleft : (schedule.map MigrationScheduleEntry.partIndex).map
      (fun i => i.bind fun i => targetValues[i]?) =
        (schedule.map MigrationScheduleEntry.value).map some := by
    rw [List.map_map,List.map_map]
    apply List.map_congr_left
    intro entry hentry
    obtain ⟨i,hi,hvalue⟩ := h.indexed entry hentry
    simp [hi,hvalue]
  have hright : ((List.range targetValues.length).map some).map
      (fun i => i.bind fun i => targetValues[i]?) = targetValues.map some := by
    rw [List.map_map]
    apply List.ext_getElem
    · simp
    · intro i hi _
      rw [List.length_map,List.length_range] at hi
      simp [hi]
  rw [hleft,hright] at hvalues
  exact (List.map_perm_map_iff (Option.some_injective _)).mp hvalues

theorem validateScheduleGaps_random {rng : Rng} {mean max elapsed draw : Nat}
    {parts : List (Nat × Nat)} (helapsed : elapsed < u32Limit) :
    validateScheduleGaps max elapsed
      (parts.zipWith (fun part blockOffset => ⟨some part.1,part.2,blockOffset⟩)
        (randomScheduleBlockOffsetsFrom rng mean max elapsed draw parts.length)) = .ok () := by
  induction parts generalizing elapsed draw with
  | nil => rfl
  | cons part parts ih =>
    have hdelay := rng.delay_le draw mean max
    have hnext : elapsed ≤ saturatingAddU32 elapsed (rng.delay draw mean max) ∧
        saturatingAddU32 elapsed (rng.delay draw mean max) - elapsed ≤ max ∧
        saturatingAddU32 elapsed (rng.delay draw mean max) < u32Limit := by
      simp only [saturatingAddU32,u32Limit] at helapsed ⊢
      omega
    rw [List.length_cons,randomScheduleBlockOffsetsFrom,List.zipWith_cons_cons,
      validateScheduleGaps,checkedSub,if_pos hnext.1,okOr_some,ok_bind,
      if_neg (Nat.not_lt.mpr hnext.2.1)]
    exact ih hnext.2.2

section Generated

variable (rng : Rng) (values : List Nat) (network : WalletNetwork)
  (timingPolicy : MigrationTimingPolicy)

theorem plannedTransferSchedule_map {α : Type} (parts : List (Nat × Nat))
    (f : MigrationScheduleEntry → α) (g : Nat × Nat → α)
    (h : ∀ part blockOffset, f ⟨some part.1,part.2,blockOffset⟩ = g part) :
    ((plannedTransferScheduleForPartsWithPolicy rng parts network timingPolicy).map f).Perm
      (parts.map g) := by
  have hmap : ∀ (parts : List (Nat × Nat)) (offsets : List Nat), offsets.length = parts.length →
      (parts.zipWith (fun part blockOffset => (⟨some part.1,part.2,blockOffset⟩ :
        MigrationScheduleEntry)) offsets).map f = parts.map g := by
    intro parts
    induction parts with
    | nil => simp
    | cons part parts ih =>
      intro offsets hlength
      cases offsets with
      | nil => simp at hlength
      | cons offset offsets =>
        simp only [List.length_cons,Nat.add_right_cancel_iff] at hlength
        rw [List.zipWith_cons_cons,List.map_cons,List.map_cons,h,ih offsets hlength]
  rw [plannedTransferScheduleForPartsWithPolicy]
  dsimp only
  rw [hmap _ _ (randomScheduleBlockOffsets_length ..)]
  exact (rng.shuffle_perm parts).map g

theorem plannedTransferSchedule_partIndexed :
    PartIndexed values [] (plannedTransferScheduleForPartsWithPolicy rng
      ((List.range values.length).zip values) network timingPolicy) := by
  have hindexes := plannedTransferSchedule_map rng network timingPolicy
    ((List.range values.length).zip values) MigrationScheduleEntry.partIndex (fun part => some part.1)
    (fun _ _ => rfl)
  have hparts := plannedTransferSchedule_map rng network timingPolicy
    ((List.range values.length).zip values) (fun entry => (entry.partIndex,entry.value))
    (fun part => (some part.1,part.2)) (fun _ _ => rfl)
  constructor
  · intro entry hentry
    have hmem := hparts.mem_iff.mp (List.mem_map_of_mem hentry)
    obtain ⟨part,hzip,heq⟩ := List.mem_map.mp hmem
    rw [Prod.mk.injEq] at heq
    obtain ⟨i,hi⟩ := List.mem_iff_getElem?.mp hzip
    rw [List.getElem?_zip_eq_some,List.getElem?_eq_some_iff] at hi
    obtain ⟨⟨hlt,hindex⟩,hvalue⟩ := hi
    rw [List.getElem_range] at hindex
    subst hindex
    rw [heq.2] at hvalue
    exact ⟨part.1,heq.1.symm,hvalue⟩
  · exact fun _ _ _ h => absurd h List.not_mem_nil
  · have hnodup : (((List.range values.length).zip values).map fun part => some part.1).Nodup := by
      rw [show (fun part : Nat × Nat => some part.1) = some ∘ Prod.fst from rfl,← List.map_map,
        List.map_fst_zip (by simp)]
      exact List.nodup_range.map (Option.some_injective _)
    exact hindexes.nodup_iff.mpr hnodup

theorem plannedTransferSchedule_length :
    (plannedTransferScheduleForPartsWithPolicy rng ((List.range values.length).zip values) network
      timingPolicy).length = values.length := by
  have hlength := (plannedTransferSchedule_map rng network timingPolicy
    ((List.range values.length).zip values) (fun _ => ()) (fun _ => ()) (fun _ _ => rfl)).length_eq
  simpa using hlength

theorem plannedTransferSchedule_values_perm :
    ((plannedTransferScheduleForPartsWithPolicy rng ((List.range values.length).zip values) network
      timingPolicy).map MigrationScheduleEntry.value).Perm values := by
  have hperm := plannedTransferSchedule_map rng network timingPolicy
    ((List.range values.length).zip values) MigrationScheduleEntry.value Prod.snd (fun _ _ => rfl)
  rwa [List.map_snd_zip (by simp)] at hperm

theorem plannedTransferSchedule_valid :
    validateScheduleWithPolicy (plannedTransferScheduleForPartsWithPolicy rng
      ((List.range values.length).zip values) network timingPolicy) values network timingPolicy =
        .ok () := by
  have hlength := plannedTransferSchedule_length rng values network timingPolicy
  have hvalues := plannedTransferSchedule_values_perm rng values network timingPolicy
  have hindexed := plannedTransferSchedule_partIndexed rng values network timingPolicy
  rw [validateScheduleWithPolicy,if_neg (not_not.mpr hlength),
    if_neg (not_not.mpr (insertionSort_eq_iff.mpr hvalues)),
    validateSchedulePartIndexes_iff.mpr (.inr hindexed),ok_bind]
  -- the mean of many parts is smaller, the maximum is the same
  exact validateScheduleGaps_random (by decide)

theorem targetValuesFromSchedule_planned :
    targetValuesFromSchedule (plannedTransferScheduleForPartsWithPolicy rng
      ((List.range values.length).zip values) network timingPolicy) = .ok values := by
  have hlength := plannedTransferSchedule_length rng values network timingPolicy
  cases values with
  | nil =>
    rw [List.length_nil,List.length_eq_zero_iff] at hlength
    rw [List.length_nil,hlength]
    rfl
  | cons value values =>
    apply (targetValuesFromSchedule_iff _).mpr
    · exact ⟨plannedTransferSchedule_partIndexed rng _ network timingPolicy,hlength⟩
    · intro hnil
      rw [hnil] at hlength
      cases hlength

end Generated

/-- Generated schedules are valid for the values they are generated from, and these are read back
from them; a schedule from which values are read back is indexed by them, and its values are theirs
in some order. -/
theorem plannedTransferSchedule_invertible (rng : Rng) (values : List Nat)
    (network : WalletNetwork) (timingPolicy : MigrationTimingPolicy) :
    (let schedule := plannedTransferScheduleForPartsWithPolicy rng
      ((List.range values.length).zip values) network timingPolicy
    validateScheduleWithPolicy schedule values network timingPolicy = .ok () ∧
      targetValuesFromSchedule schedule = .ok values) ∧
    ∀ (schedule : List MigrationScheduleEntry) (readBack : List Nat), schedule ≠ [] →
      targetValuesFromSchedule schedule = .ok readBack →
        validateSchedulePartIndexes schedule readBack = .ok () ∧
          (schedule.map MigrationScheduleEntry.value).Perm readBack := by
  constructor
  · exact ⟨plannedTransferSchedule_valid rng values network timingPolicy,
      targetValuesFromSchedule_planned rng values network timingPolicy⟩
  · intro schedule readBack hne hread
    have hindexed := (targetValuesFromSchedule_iff hne).mp hread
    constructor
    · exact validateSchedulePartIndexes_iff.mpr (.inr hindexed.1)
    · exact hindexed.1.values_perm hindexed.2

/-- Two parts, the second one first. -/
theorem plannedTransferSchedule_invertible_swapped :
    validateSchedulePartIndexes [⟨some 1,20,3⟩,⟨some 0,10,5⟩] [10,20] = .ok () ∧
      ([⟨some 1,20,3⟩,⟨some 0,10,5⟩].map MigrationScheduleEntry.value).Perm [10,20] :=
  (plannedTransferSchedule_invertible default [] .main .standard).2
    [⟨some 1,20,3⟩,⟨some 0,10,5⟩] [10,20] (by simp) rfl

end CoppiceWallet.Store
