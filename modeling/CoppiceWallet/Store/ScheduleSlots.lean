import Mathlib.Data.List.FinRange
import Mathlib.Data.List.Nodup
import Mathlib.Data.List.Perm.Subperm
import Mathlib.Data.List.Sigma
import Mathlib.Data.List.Sort
import CoppiceWallet.Store.Schedule

/-! # The slots of the parts -/

namespace CoppiceWallet.Store

open CoppiceWallet.Lib

/-- The entry for a pending transaction, and its place in the schedule. -/
def scheduleEntryForPending (schedule : List MigrationScheduleEntry) (targetValues : List Nat)
    (partIndex value : Nat) : Option (MigrationScheduleEntry × Nat) :=
  if schedule.all (fun entry => entry.partIndex.isSome) then
    schedule.zipIdx.find? fun p => decide (p.1.partIndex = some partIndex ∧ p.1.value = value)
  else if targetValues[partIndex]? ≠ some value then none
  else
    let equalValueRank := (targetValues.take partIndex).countP fun v => decide (v = value)
    (schedule.zipIdx.filter fun p => decide (p.1.value = value))[equalValueRank]?

variable {schedule : List MigrationScheduleEntry} {targetValues : List Nat} {p q value : Nat}

theorem scheduleEntryForPart_eq : scheduleEntryForPart schedule targetValues p value =
    (scheduleEntryForPending schedule targetValues p value).map Prod.fst := by
  have hzip : schedule.zipIdx.map Prod.fst = schedule := List.zipIdx_map_fst 0 schedule
  rw [scheduleEntryForPart,scheduleEntryForPending]
  split
  · conv_lhs => rw [← hzip]
    rw [List.find?_map]
    rfl
  · split
    · rfl
    · conv_lhs => rw [← hzip]
      rw [List.filter_map,List.getElem?_map]
      rfl

theorem scheduleBlockOffsetForPart_eq :
    scheduleBlockOffsetForPart schedule targetValues p value =
      (scheduleEntryForPending schedule targetValues p value).map fun slot => slot.1.blockOffset := by
  rw [scheduleBlockOffsetForPart,scheduleEntryForPart_eq,Option.map_map]
  rfl

theorem scheduleEntryForPending_entry {slot : MigrationScheduleEntry × Nat}
    (h : scheduleEntryForPending schedule targetValues p value = some slot) :
    schedule[slot.2]? = some slot.1 ∧ slot.1.value = value := by
  rw [scheduleEntryForPending] at h
  split at h
  · have hfound := List.find?_some h
    simp only [decide_eq_true_eq] at hfound
    exact ⟨List.mem_zipIdx_iff_getElem?.mp (List.mem_of_find?_eq_some h),hfound.2⟩
  · split at h
    · cases h
    · obtain ⟨hmem,hvalue⟩ := List.mem_filter.mp (List.mem_of_getElem? h)
      simp only [decide_eq_true_eq] at hvalue
      exact ⟨List.mem_zipIdx_iff_getElem?.mp hmem,hvalue⟩

/-- The part indexes of the entries after those that are seen. -/
structure PartIndexed (targetValues seen : List Nat) (entries : List MigrationScheduleEntry) :
    Prop where
  indexed : ∀ entry ∈ entries, ∃ partIndex, entry.partIndex = some partIndex ∧
    targetValues[partIndex]? = some entry.value
  fresh : ∀ entry ∈ entries, ∀ partIndex ∈ seen, entry.partIndex ≠ some partIndex
  distinct : (entries.map MigrationScheduleEntry.partIndex).Nodup

theorem validateScheduleEntryPartIndexes_iff {seen : List Nat}
    {entries : List MigrationScheduleEntry} :
    validateScheduleEntryPartIndexes targetValues seen entries = .ok () ↔
      PartIndexed targetValues seen entries := by
  induction entries generalizing seen with
  | nil =>
    refine ⟨fun _ => ⟨?_,?_,List.nodup_nil⟩,fun _ => rfl⟩
    · exact fun _ h => absurd h List.not_mem_nil
    · exact fun _ h => absurd h List.not_mem_nil
  | cons entry entries ih =>
    constructor
    · intro h
      rw [validateScheduleEntryPartIndexes] at h
      obtain ⟨partIndex,hindex,h⟩ := bind_ok h
      obtain ⟨v,hvalue,hrest⟩ := bind_ok h
      have hindex := okOr_ok hindex
      have hvalue := okOr_ok hvalue
      split at hrest
      · cases hrest
      · rename_i hseen
        split at hrest
        · cases hrest
        · rename_i heq
          have hrest := ih.mp hrest
          have hsame : v = entry.value := not_not.mp heq
          subst hsame
          constructor
          · intro other hother
            rcases List.mem_cons.mp hother with rfl | hother
            · exact ⟨partIndex,hindex,hvalue⟩
            · exact hrest.indexed other hother
          · intro other hother i hi
            rcases List.mem_cons.mp hother with rfl | hother
            · intro heq'
              rw [hindex] at heq'
              cases heq'
              exact hseen (List.contains_iff_mem.mpr hi)
            · exact hrest.fresh other hother i (List.mem_cons_of_mem _ hi)
          · rw [List.map_cons,List.nodup_cons]
            refine ⟨?_,hrest.distinct⟩
            intro hmem
            obtain ⟨other,hother,heq'⟩ := List.mem_map.mp hmem
            exact hrest.fresh other hother partIndex List.mem_cons_self (heq'.trans hindex)
    · intro h
      obtain ⟨partIndex,hindex,hvalue⟩ := h.indexed entry List.mem_cons_self
      have hdistinct := h.distinct
      rw [List.map_cons,List.nodup_cons] at hdistinct
      have hseen : ¬seen.contains partIndex = true := fun hi =>
        h.fresh entry List.mem_cons_self partIndex (List.contains_iff_mem.mp hi) hindex
      rw [validateScheduleEntryPartIndexes,hindex,okOr_some,ok_bind,hvalue,okOr_some,ok_bind,
        if_neg hseen,if_neg (not_not.mpr rfl),ih]
      constructor
      · exact fun other hother => h.indexed other (List.mem_cons_of_mem _ hother)
      · intro other hother i hi
        rcases List.mem_cons.mp hi with rfl | hi
        · intro heq
          exact hdistinct.1 (List.mem_map.mpr ⟨other,hother,heq.trans hindex.symm⟩)
        · exact h.fresh other (List.mem_cons_of_mem _ hother) i hi
      · exact hdistinct.2

theorem validateSchedulePartIndexes_iff :
    validateSchedulePartIndexes schedule targetValues = .ok () ↔
      (∀ entry ∈ schedule, entry.partIndex = none) ∨ PartIndexed targetValues [] schedule := by
  rw [validateSchedulePartIndexes]
  split
  · rename_i hnone
    simp only [List.all_eq_true,Option.isNone_iff_eq_none] at hnone
    exact ⟨fun _ => .inl hnone,fun _ => rfl⟩
  · rename_i hnone
    simp only [List.all_eq_true,Option.isNone_iff_eq_none] at hnone
    split
    · rename_i hany
      simp only [List.any_eq_true,Option.isNone_iff_eq_none] at hany
      obtain ⟨entry,hentry,hmissing⟩ := hany
      constructor
      · intro h
        cases h
      · intro h
        obtain ⟨i,hi,_⟩ := (h.resolve_left hnone).indexed entry hentry
        rw [hmissing] at hi
        cases hi
    · rw [validateScheduleEntryPartIndexes_iff]
      exact ⟨.inr,fun h => h.resolve_left hnone⟩

/-- What the validation of a schedule ensures of its values. -/
structure Approved (schedule : List MigrationScheduleEntry) (targetValues : List Nat) : Prop where
  values : (schedule.map MigrationScheduleEntry.value).Perm targetValues
  parts : (∀ entry ∈ schedule, entry.partIndex = none) ∨ PartIndexed targetValues [] schedule

theorem Approved.length (h : Approved schedule targetValues) :
    schedule.length = targetValues.length := by
  have hlength := h.values.length_eq
  rwa [List.length_map] at hlength

theorem insertionSort_eq_iff {xs ys : List Nat} :
    xs.insertionSort (· ≤ ·) = ys.insertionSort (· ≤ ·) ↔ xs.Perm ys := by
  constructor
  · intro h
    have hxs := (List.perm_insertionSort (· ≤ ·) xs).symm
    rw [h] at hxs
    exact hxs.trans (List.perm_insertionSort (· ≤ ·) ys)
  · intro h
    have hperm := ((List.perm_insertionSort (· ≤ ·) xs).trans h).trans
      (List.perm_insertionSort (· ≤ ·) ys).symm
    exact hperm.eq_of_pairwise (fun _ _ _ _ => Nat.le_antisymm) (List.pairwise_insertionSort _ xs)
      (List.pairwise_insertionSort _ ys)

theorem approved_of_valid {network : WalletNetwork} {timingPolicy : MigrationTimingPolicy}
    (h : validateScheduleWithPolicy schedule targetValues network timingPolicy = .ok ()) :
    Approved schedule targetValues := by
  rw [validateScheduleWithPolicy] at h
  split at h
  · cases h
  · split at h
    · cases h
    · rename_i hvalues
      obtain ⟨_,hparts,_⟩ := bind_ok h
      exact ⟨insertionSort_eq_iff.mp (not_not.mp hvalues),validateSchedulePartIndexes_iff.mp hparts⟩

theorem rank_lt (h : targetValues[p]? = some value) {k : Nat} (hk : p < k) :
    (targetValues.take p).countP (fun v => decide (v = value)) <
      (targetValues.take k).countP fun v => decide (v = value) := by
  obtain ⟨hlt,rfl⟩ := List.getElem?_eq_some_iff.mp h
  have hsplit : targetValues.take (p + 1) = targetValues.take p ++ [targetValues[p]] := by
    rw [List.take_add_one,List.getElem?_eq_getElem hlt]
    rfl
  have hprefix : targetValues.take (p + 1) <+: targetValues.take k :=
    List.take_prefix_take_left hk
  have hle := hprefix.sublist.countP_le (p := fun v => decide (v = targetValues[p]))
  rw [hsplit,List.countP_append] at hle
  simp only [List.countP_singleton,decide_true,if_true] at hle
  omega

theorem PartIndexed.covers (h : PartIndexed targetValues [] schedule)
    (hlength : schedule.length = targetValues.length) (hp : p < targetValues.length) :
    ∃ entry ∈ schedule, entry.partIndex = some p := by
  have hsubset : schedule.map MigrationScheduleEntry.partIndex ⊆
      (List.range targetValues.length).map some := by
    intro i hi
    obtain ⟨entry,hentry,rfl⟩ := List.mem_map.mp hi
    obtain ⟨partIndex,hindex,hvalue⟩ := h.indexed entry hentry
    obtain ⟨hlt,_⟩ := List.getElem?_eq_some_iff.mp hvalue
    rw [hindex]
    exact List.mem_map_of_mem (List.mem_range.mpr hlt)
  have hperm := (List.subperm_of_subset h.distinct hsubset).perm_of_length_le (by simp [hlength])
  have hmem : some p ∈ schedule.map MigrationScheduleEntry.partIndex :=
    hperm.mem_iff.mpr (List.mem_map_of_mem (List.mem_range.mpr hp))
  exact List.mem_map.mp hmem

theorem Approved.indexed (h : Approved schedule targetValues)
    (hall : schedule.all (fun entry => entry.partIndex.isSome) = true) :
    PartIndexed targetValues [] schedule := by
  rcases h.parts with hlegacy | hindexed
  · have hempty : schedule = [] := by
      cases schedule with
      | nil => rfl
      | cons entry entries =>
        rw [List.all_cons,hlegacy entry List.mem_cons_self] at hall
        cases hall
    subst hempty
    exact validateScheduleEntryPartIndexes_iff.mp rfl
  · exact hindexed

/-- Every part has an entry. -/
theorem Approved.defined (h : Approved schedule targetValues)
    (hp : targetValues[p]? = some value) :
    ∃ slot, scheduleEntryForPending schedule targetValues p value = some slot := by
  obtain ⟨hlt,_⟩ := List.getElem?_eq_some_iff.mp hp
  rw [scheduleEntryForPending]
  split
  · rename_i hall
    have hindexed := h.indexed hall
    obtain ⟨entry,hentry,hindex⟩ := hindexed.covers h.length hlt
    obtain ⟨i,hi,hvalue⟩ := hindexed.indexed entry hentry
    rw [hindex] at hi
    cases hi
    rw [hp] at hvalue
    obtain ⟨slot,hslot⟩ := List.getElem?_of_mem hentry
    apply Option.isSome_iff_exists.mp
    rw [List.find?_isSome]
    refine ⟨(entry,slot),List.mem_zipIdx_iff_getElem?.mpr hslot,?_⟩
    simp [hindex,Option.some.inj hvalue]
  · rw [if_neg (not_not.mpr hp)]
    have hcount : (schedule.zipIdx.filter fun slot => decide (slot.1.value = value)).length =
        targetValues.countP fun v => decide (v = value) := by
      rw [← h.values.countP_eq,List.countP_map,← List.countP_eq_length_filter]
      conv_rhs => rw [← List.zipIdx_map_fst 0 schedule,List.countP_map]
      rfl
    have hrank := rank_lt hp hlt
    rw [List.take_length,← hcount] at hrank
    exact ⟨_,List.getElem?_eq_getElem hrank⟩

theorem scheduleEntryForPending_indexed {slot : MigrationScheduleEntry × Nat}
    (hall : schedule.all (fun entry => entry.partIndex.isSome) = true)
    (h : scheduleEntryForPending schedule targetValues p value = some slot) :
    slot.1.partIndex = some p := by
  rw [scheduleEntryForPending,if_pos hall] at h
  have hfound := List.find?_some h
  simp only [decide_eq_true_eq] at hfound
  exact hfound.1

theorem scheduleEntryForPending_legacy {slot : MigrationScheduleEntry × Nat}
    (hall : ¬schedule.all (fun entry => entry.partIndex.isSome) = true)
    (h : scheduleEntryForPending schedule targetValues p value = some slot) :
    targetValues[p]? = some value ∧
      (schedule.zipIdx.filter fun slot => decide (slot.1.value = value))[
        (targetValues.take p).countP fun v => decide (v = value)]? = some slot := by
  rw [scheduleEntryForPending,if_neg hall] at h
  split at h
  · cases h
  · rename_i hvalue
    exact ⟨not_not.mp hvalue,h⟩

/-- No two parts have one slot. -/
theorem scheduleEntryForPending_injective {v w : Nat} {slot slot' : MigrationScheduleEntry × Nat}
    (hp : scheduleEntryForPending schedule targetValues p v = some slot)
    (hq : scheduleEntryForPending schedule targetValues q w = some slot')
    (hslot : slot.2 = slot'.2) : p = q := by
  obtain ⟨hentry,hv⟩ := scheduleEntryForPending_entry hp
  obtain ⟨hentry',hw⟩ := scheduleEntryForPending_entry hq
  rw [hslot,hentry'] at hentry
  have hsame : slot'.1 = slot.1 := Option.some.inj hentry
  by_cases hall : schedule.all (fun entry => entry.partIndex.isSome) = true
  · have hindex := scheduleEntryForPending_indexed hall hp
    rw [← hsame,scheduleEntryForPending_indexed hall hq] at hindex
    exact (Option.some.inj hindex).symm
  · have hvw : v = w := by rw [← hv,← hw,hsame]
    subst hvw
    obtain ⟨hvalue,hrank⟩ := scheduleEntryForPending_legacy hall hp
    obtain ⟨hvalue',hrank'⟩ := scheduleEntryForPending_legacy hall hq
    -- the entries of one value stand at distinct places, so the ranks are the same
    have hnodup : (schedule.zipIdx.filter fun slot => decide (slot.1.value = v)).Nodup :=
      (List.Nodup.of_map _ (List.nodup_zipIdx_map_snd schedule)).filter _
    have hslots : slot = slot' := Prod.ext hsame.symm hslot
    rw [← hslots] at hrank'
    obtain ⟨hlt,hget⟩ := List.getElem?_eq_some_iff.mp hrank
    obtain ⟨hlt',hget'⟩ := List.getElem?_eq_some_iff.mp hrank'
    have heq := hnodup.getElem_inj_iff.mp (hget.trans hget'.symm)
    rcases Nat.lt_trichotomy p q with hlt | heq' | hgt
    · have hrank := rank_lt hvalue hlt
      omega
    · exact heq'
    · have hrank := rank_lt hvalue' hgt
      omega

theorem offsets_eq (schedule : List MigrationScheduleEntry) :
    (List.range schedule.length).map (fun i => schedule[i]?.map MigrationScheduleEntry.blockOffset) =
      schedule.map fun entry => some entry.blockOffset := by
  apply List.ext_getElem
  · simp
  · intro i hi _
    rw [List.length_map,List.length_range] at hi
    simp [hi]

theorem Approved.offsets_perm (h : Approved schedule targetValues) :
    ((List.range targetValues.length).map fun p =>
      targetValues[p]?.bind (scheduleBlockOffsetForPart schedule targetValues p)).Perm
        (schedule.map fun entry => some entry.blockOffset) := by
  have hslots : ∀ p : Fin targetValues.length, ∃ slot,
      scheduleEntryForPending schedule targetValues p targetValues[p] = some slot :=
    fun p => h.defined (List.getElem?_eq_getElem p.isLt)
  choose slotOf hslotOf using hslots
  have hlt (p : Fin targetValues.length) : (slotOf p).2 < schedule.length :=
    (List.getElem?_eq_some_iff.mp (scheduleEntryForPending_entry (hslotOf p)).1).1
  -- an injective map into as many slots takes each of them
  have hperm : ((List.finRange targetValues.length).map fun p => (slotOf p).2).Perm
      (List.range schedule.length) := by
    have hnodup : ((List.finRange targetValues.length).map fun p => (slotOf p).2).Nodup := by
      apply (List.nodup_finRange _).map
      intro p q hpq
      exact Fin.ext (scheduleEntryForPending_injective (hslotOf p) (hslotOf q) hpq)
    apply (List.subperm_of_subset hnodup _).perm_of_length_le
    · simp [h.length]
    · intro i hi
      obtain ⟨p,_,rfl⟩ := List.mem_map.mp hi
      exact List.mem_range.mpr (hlt p)
  have hmap := hperm.map fun i => schedule[i]?.map MigrationScheduleEntry.blockOffset
  rw [offsets_eq] at hmap
  refine (List.Perm.of_eq ?_).trans hmap
  rw [← List.map_coe_finRange_eq_range,List.map_map,List.map_map]
  apply List.map_congr_left
  intro p _
  have hentry := (scheduleEntryForPending_entry (hslotOf p)).1
  simp only [Function.comp_apply,List.getElem?_eq_getElem p.isLt,Option.bind_some,
    scheduleBlockOffsetForPart_eq,hentry]
  exact congrArg (Option.map fun slot => slot.1.blockOffset) (hslotOf p)

/-- The offsets that are given out as the parts are promoted, whatever the batches. -/
def promotedOffsets (schedule : List MigrationScheduleEntry) (targetValues : List Nat)
    (batches : List (List Nat)) : List (Option Nat) :=
  batches.flatMap fun batch => batch.map fun p =>
    targetValues[p]?.bind (scheduleBlockOffsetForPart schedule targetValues p)

theorem partSlots_bijective {network : WalletNetwork} {timingPolicy : MigrationTimingPolicy}
    (h : validateScheduleWithPolicy schedule targetValues network timingPolicy = .ok ()) :
    (∀ p value, targetValues[p]? = some value → ∃ slot,
      scheduleEntryForPending schedule targetValues p value = some slot ∧
        schedule[slot.2]? = some slot.1 ∧ slot.1.value = value ∧
          scheduleBlockOffsetForPart schedule targetValues p value = some slot.1.blockOffset) ∧
    (∀ p q v w slot slot', scheduleEntryForPending schedule targetValues p v = some slot →
      scheduleEntryForPending schedule targetValues q w = some slot' → p ≠ q → slot.2 ≠ slot'.2) ∧
    ∀ batches : List (List Nat), batches.flatten.Perm (List.range targetValues.length) →
      (promotedOffsets schedule targetValues batches).Perm
        (schedule.map fun entry => some entry.blockOffset) := by
  have happroved := approved_of_valid h
  refine ⟨?_,?_,?_⟩
  · intro p value hp
    obtain ⟨slot,hslot⟩ := happroved.defined hp
    obtain ⟨hentry,hvalue⟩ := scheduleEntryForPending_entry hslot
    refine ⟨slot,hslot,hentry,hvalue,?_⟩
    rw [scheduleBlockOffsetForPart_eq,hslot]
    rfl
  · intro p q v w slot slot' hp hq hne hslot
    exact hne (scheduleEntryForPending_injective hp hq hslot)
  · intro batches hbatches
    rw [promotedOffsets,← List.map_flatMap,List.flatMap_id']
    exact (hbatches.map _).trans happroved.offsets_perm

/-- Two equal parts of a legacy schedule, promoted one by one in reverse order. -/
theorem partSlots_legacy :
    scheduleBlockOffsetForPart [⟨none,5,1⟩,⟨none,5,3⟩] [5,5] 1 5 = some 3 ∧
      (promotedOffsets [⟨none,5,1⟩,⟨none,5,3⟩] [5,5] [[1],[0]]).Perm [some 1,some 3] := by
  have hvalid : validateScheduleWithPolicy [⟨none,5,1⟩,⟨none,5,3⟩] [5,5] .main .standard =
      .ok () := rfl
  exact ⟨rfl,(partSlots_bijective hvalid).2.2 [[1],[0]] (List.Perm.swap _ _ _)⟩

end CoppiceWallet.Store
