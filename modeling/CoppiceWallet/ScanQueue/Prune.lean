import CoppiceWallet.Lib.DisjointRanges
import CoppiceWallet.Lib.Result
import CoppiceWallet.Lib.Run
import Mathlib.Data.Int.Order.Basic

/-!
# Pruning the scan queue

When an account is gone, ranges of blocks below the birthdays of the remaining accounts are set to
be ignored; a range across the lowest birthday is split there. A statement goes through the rows one
by one. The priorities are the codes of the table, of which `Ignored` is the lowest.
-/

namespace CoppiceWallet.ScanQueue

open CoppiceWallet.Lib

structure ScanRange where
  blockRangeStart : Int
  blockRangeEnd : Int
  priority : Nat
  deriving DecidableEq

inductive ConstraintViolation
  | rangeStartUniq
  | rangeEndUniq
  | rangeBoundsOrder
  deriving DecidableEq

def priorityIgnored : Nat := 0

/-- The constraints on a row, given the other rows of the table. -/
def checkRow (others : List ScanRange) (row : ScanRange) : Except ConstraintViolation Unit :=
  if row.blockRangeEnd ≤ row.blockRangeStart then .error .rangeBoundsOrder
  else if others.any fun other => decide (other.blockRangeStart = row.blockRangeStart) then
    .error .rangeStartUniq
  else if others.any fun other => decide (other.blockRangeEnd = row.blockRangeEnd) then
    .error .rangeEndUniq
  else .ok ()

/-- An `UPDATE` of the rows that match, with how many it changed; the rows of the first list are
done. -/
def updateRows (isMatch : ScanRange → Bool) (set : ScanRange → ScanRange) :
    List ScanRange → List ScanRange → Except ConstraintViolation (List ScanRange × Nat)
  | done, [] => .ok (done,0)
  | done, row :: rest =>
    if isMatch row then do
      checkRow (done ++ rest) (set row)
      let updated ← updateRows isMatch set (done ++ [set row]) rest
      .ok (updated.1,updated.2 + 1)
    else updateRows isMatch set (done ++ [row]) rest

def insertRow (row : ScanRange) (queue : List ScanRange) :
    Except ConstraintViolation (List ScanRange) := do
  checkRow queue row
  .ok (queue ++ [row])

def isStraddling (minBirthday : Int) (row : ScanRange) : Bool :=
  decide (row.blockRangeStart < minBirthday) && decide (minBirthday < row.blockRangeEnd) &&
    decide (priorityIgnored < row.priority)

def isOrphaned (minBirthday : Int) (row : ScanRange) : Bool :=
  decide (row.blockRangeEnd ≤ minBirthday) && decide (priorityIgnored < row.priority)

/-- The part at and above the birthday keeps the row, the part below is inserted as ignored. -/
def splitStraddling (minBirthday : Int) (queue : List ScanRange) :
    Except ConstraintViolation (List ScanRange × Nat) :=
  match queue.find? (isStraddling minBirthday) with
  | none => .ok (queue,0)
  | some straddling => do
    let shrunk ← updateRows
      (fun row => decide (row.blockRangeStart = straddling.blockRangeStart))
      (fun row => { row with blockRangeStart := minBirthday }) [] queue
    let inserted ← insertRow ⟨straddling.blockRangeStart,minBirthday,priorityIgnored⟩ shrunk.1
    .ok (inserted,1)

def pruneOrphanedScanRangesInConn (birthdayHeights : List Int) (queue : List ScanRange) :
    Except ConstraintViolation (List ScanRange × Nat) :=
  match birthdayHeights.min? with
  | none => .ok (queue,0)
  | some minBirthday => do
    let split ← splitStraddling minBirthday queue
    let demoted ← updateRows (isOrphaned minBirthday)
      (fun row => { row with priority := priorityIgnored }) [] split.1
    .ok (demoted.1,split.2 + demoted.2)

abbrev DisjointQueue (queue : List ScanRange) : Prop :=
  DisjointRanges ScanRange.blockRangeStart ScanRange.blockRangeEnd queue

abbrev ScanRange.Contains (row : ScanRange) (height : Int) : Prop :=
  ContainsPoint ScanRange.blockRangeStart ScanRange.blockRangeEnd row height

/-- A range of the queue has the height, with this priority. -/
def HasPriority (queue : List ScanRange) (height : Int) (priority : Nat) : Prop :=
  ∃ row ∈ queue, row.Contains height ∧ row.priority = priority

def Covered (queue : List ScanRange) (height : Int) : Prop :=
  ∃ priority, HasPriority queue height priority

theorem checkRow_ok {row : ScanRange} (before after : List ScanRange)
    (h : DisjointQueue (before ++ row :: after)) : checkRow (before ++ after) row = .ok () := by
  have hbounds : ¬ row.blockRangeEnd ≤ row.blockRangeStart := by
    have hrow := h.nonempty row (by simp)
    omega
  have hstart : ¬ ((before ++ after).any fun other =>
      decide (other.blockRangeStart = row.blockRangeStart)) = true := by
    intro hany
    obtain ⟨other,hother,heq⟩ := List.any_eq_true.mp hany
    exact (h.ends_ne hother).1 (of_decide_eq_true heq)
  have hend : ¬ ((before ++ after).any fun other =>
      decide (other.blockRangeEnd = row.blockRangeEnd)) = true := by
    intro hany
    obtain ⟨other,hother,heq⟩ := List.any_eq_true.mp hany
    exact (h.ends_ne hother).2 (of_decide_eq_true heq)
  rw [checkRow,if_neg hbounds,if_neg hstart,if_neg hend]

theorem updateRows_ok {isMatch : ScanRange → Bool} {set : ScanRange → ScanRange}
    (done rest : List ScanRange) (h : DisjointQueue (done ++ rest))
    (hset : ∀ row ∈ rest, isMatch row = true →
      Within ScanRange.blockRangeStart ScanRange.blockRangeEnd (set row) row) :
    updateRows isMatch set done rest =
        .ok (done ++ rest.map fun row => if isMatch row then set row else row,
          rest.countP isMatch) ∧
      DisjointQueue (done ++ rest.map fun row => if isMatch row then set row else row) := by
  induction rest generalizing done with
  | nil => exact ⟨by simp [updateRows],by simpa using h⟩
  | cons row rest ih =>
    have htail : ∀ row ∈ rest, isMatch row = true →
        Within ScanRange.blockRangeStart ScanRange.blockRangeEnd (set row) row :=
      fun other hother => hset other (List.mem_cons_of_mem _ hother)
    by_cases hmatch : isMatch row = true
    · have hshrunk : DisjointQueue (done ++ set row :: rest) :=
        h.shrink (hset row List.mem_cons_self hmatch)
      have hnext : DisjointQueue ((done ++ [set row]) ++ rest) := by simpa using hshrunk
      obtain ⟨hrun,hdisjoint⟩ := ih _ hnext htail
      constructor
      · simp [updateRows,hmatch,checkRow_ok done rest hshrunk,hrun,bind,Except.bind]
      · simpa [hmatch] using hdisjoint
    · have hnext : DisjointQueue ((done ++ [row]) ++ rest) := by simpa using h
      obtain ⟨hrun,hdisjoint⟩ := ih _ hnext htail
      constructor
      · simp [updateRows,hmatch,hrun]
      · simpa [hmatch] using hdisjoint

theorem isStraddling_iff {minBirthday : Int} {row : ScanRange} :
    isStraddling minBirthday row = true ↔ row.blockRangeStart < minBirthday ∧
      minBirthday < row.blockRangeEnd ∧ priorityIgnored < row.priority := by
  simp [isStraddling,and_assoc]

theorem isOrphaned_iff {minBirthday : Int} {row : ScanRange} :
    isOrphaned minBirthday row = true ↔ row.blockRangeEnd ≤ minBirthday ∧
      priorityIgnored < row.priority := by
  simp [isOrphaned]

/-- What the split does to the heights: those from the birthday on keep their priority, and no
range of another priority than ignored goes across it. -/
structure SplitAt (minBirthday : Int) (queue split : List ScanRange) : Prop where
  disjoint : DisjointQueue split
  above : ∀ height priority, minBirthday ≤ height →
    (HasPriority split height priority ↔ HasPriority queue height priority)
  covered : ∀ height, Covered split height ↔ Covered queue height
  none : ∀ row ∈ split, isStraddling minBirthday row = false

section Straddling

variable {queue : List ScanRange} {minBirthday : Int} {straddling : ScanRange}

theorem mem_shrunk (h : DisjointQueue queue) (hmem : straddling ∈ queue) (row : ScanRange) :
    (row ∈ queue.map fun row =>
        if decide (row.blockRangeStart = straddling.blockRangeStart) then
          { row with blockRangeStart := minBirthday } else row) ↔
      row = { straddling with blockRangeStart := minBirthday } ∨
        row ∈ queue ∧ row ≠ straddling := by
  have hsame : ∀ other ∈ queue, other.blockRangeStart = straddling.blockRangeStart →
      other = straddling := by
    intro other hother heq
    have hlt := h.nonempty other hother
    have hlt' := h.nonempty straddling hmem
    apply h.eq_of_contains hother hmem (x := straddling.blockRangeStart)
    · exact ⟨heq.le,heq ▸ hlt⟩
    · exact ⟨le_refl _,hlt'⟩
  simp only [List.mem_map]
  constructor
  · rintro ⟨other,hother,rfl⟩
    by_cases heq : other.blockRangeStart = straddling.blockRangeStart
    · rw [hsame other hother heq]
      exact .inl (by simp)
    · refine .inr ?_
      simp only [heq,decide_false,Bool.false_eq_true,if_false]
      exact ⟨hother,fun hst => heq (congrArg ScanRange.blockRangeStart hst)⟩
  · rintro (rfl | ⟨hrow,hne⟩)
    · exact ⟨straddling,hmem,by simp⟩
    · have heq : row.blockRangeStart ≠ straddling.blockRangeStart :=
        fun heq => hne (hsame row hrow heq)
      exact ⟨row,hrow,by simp [heq]⟩

theorem splitStraddling_some (h : DisjointQueue queue) (hmem : straddling ∈ queue)
    (hstraddling : isStraddling minBirthday straddling = true) {shrunk : List ScanRange}
    (hshrunk : DisjointQueue shrunk)
    (hrows : ∀ row, row ∈ shrunk ↔ row = { straddling with blockRangeStart := minBirthday } ∨
      row ∈ queue ∧ row ≠ straddling) :
    SplitAt minBirthday queue
      (shrunk ++ [⟨straddling.blockRangeStart,minBirthday,priorityIgnored⟩]) := by
  obtain ⟨hlow,hhigh,hpriority⟩ := isStraddling_iff.mp hstraddling
  have hlower : Within ScanRange.blockRangeStart ScanRange.blockRangeEnd
      ⟨straddling.blockRangeStart,minBirthday,priorityIgnored⟩ straddling :=
    ⟨hlow,le_refl _,hhigh.le⟩
  have hmem' : ∀ row, row ∈ shrunk ++
      [⟨straddling.blockRangeStart,minBirthday,priorityIgnored⟩] ↔
      row = { straddling with blockRangeStart := minBirthday } ∨
        (row ∈ queue ∧ row ≠ straddling) ∨
        row = ⟨straddling.blockRangeStart,minBirthday,priorityIgnored⟩ := by
    intro row
    rw [List.mem_append,hrows,List.mem_singleton,or_assoc]
  constructor
  · constructor
    · intro row hrow
      rcases List.mem_append.mp hrow with hrow | hrow
      · exact hshrunk.nonempty row hrow
      · cases List.mem_singleton.mp hrow
        exact hlow
    · apply List.pairwise_append.mpr
      refine ⟨hshrunk.apart,List.pairwise_singleton _ _,?_⟩
      intro row hrow last hlast
      cases List.mem_singleton.mp hlast
      rcases (hrows row).mp hrow with rfl | ⟨hrow,hne⟩
      · exact .inr (le_refl _)
      · exact (h.apart.forall hrow hmem hne).within (within_self (h.nonempty row hrow)) hlower
  · intro height priority habove
    constructor
    · rintro ⟨row,hrow,hcontains,rfl⟩
      rcases (hmem' row).mp hrow with rfl | ⟨hrow,_⟩ | rfl
      · exact ⟨straddling,hmem,⟨hlow.le.trans hcontains.1,hcontains.2⟩,rfl⟩
      · exact ⟨row,hrow,hcontains,rfl⟩
      · exact absurd hcontains.2 (by simpa using habove)
    · rintro ⟨row,hrow,hcontains,rfl⟩
      by_cases hsame : row = straddling
      · subst hsame
        exact ⟨{ row with blockRangeStart := minBirthday },(hmem' _).mpr (.inl rfl),
          ⟨habove,hcontains.2⟩,rfl⟩
      · exact ⟨row,(hmem' row).mpr (.inr (.inl ⟨hrow,hsame⟩)),hcontains,rfl⟩
  · intro height
    constructor
    · rintro ⟨priority,row,hrow,hcontains,_⟩
      rcases (hmem' row).mp hrow with rfl | ⟨hrow,_⟩ | rfl
      · exact ⟨_,straddling,hmem,⟨hlow.le.trans hcontains.1,hcontains.2⟩,rfl⟩
      · exact ⟨_,row,hrow,hcontains,rfl⟩
      · exact ⟨_,straddling,hmem,⟨hcontains.1,hcontains.2.trans hhigh⟩,rfl⟩
    · rintro ⟨priority,row,hrow,hcontains,_⟩
      by_cases hsame : row = straddling
      · subst hsame
        by_cases hbelow : height < minBirthday
        · exact ⟨_,_,(hmem' _).mpr (.inr (.inr rfl)),⟨hcontains.1,hbelow⟩,rfl⟩
        · exact ⟨_,_,(hmem' _).mpr (.inl rfl),⟨not_lt.mp hbelow,hcontains.2⟩,rfl⟩
      · exact ⟨_,row,(hmem' row).mpr (.inr (.inl ⟨hrow,hsame⟩)),hcontains,rfl⟩
  · intro row hrow
    rw [Bool.eq_false_iff]
    intro hrow'
    obtain ⟨hlow',hhigh',hpriority'⟩ := isStraddling_iff.mp hrow'
    rcases (hmem' row).mp hrow with rfl | ⟨hrow,hne⟩ | rfl
    · exact absurd hlow' (lt_irrefl _)
    · exact hne (h.eq_of_contains hrow hmem (x := minBirthday) ⟨hlow'.le,hhigh'⟩ ⟨hlow.le,hhigh⟩)
    · exact absurd hhigh' (lt_irrefl _)

end Straddling

theorem splitStraddling_spec (minBirthday : Int) {queue : List ScanRange}
    (h : DisjointQueue queue) : ∃ split count,
      splitStraddling minBirthday queue = .ok (split,count) ∧ SplitAt minBirthday queue split ∧
      ((∀ row ∈ queue, isStraddling minBirthday row = false) → split = queue ∧ count = 0) := by
  unfold splitStraddling
  cases hfind : queue.find? (isStraddling minBirthday) with
  | none =>
    have hnone : ∀ row ∈ queue, isStraddling minBirthday row = false := fun row hrow => by
      simpa using List.find?_eq_none.mp hfind row hrow
    exact ⟨queue,0,rfl,⟨h,fun _ _ _ => Iff.rfl,fun _ => Iff.rfl,hnone⟩,fun _ => ⟨rfl,rfl⟩⟩
  | some straddling =>
    have hmem := List.mem_of_find?_eq_some hfind
    have hstraddling := List.find?_some hfind
    have hset : ∀ row ∈ queue,
        (decide (row.blockRangeStart = straddling.blockRangeStart)) = true →
        Within ScanRange.blockRangeStart ScanRange.blockRangeEnd
          { row with blockRangeStart := minBirthday } row := by
      intro row hrow hsame
      have heq := of_decide_eq_true hsame
      have hlt := h.nonempty row hrow
      have hlt' := h.nonempty straddling hmem
      have hrow' : row = straddling := h.eq_of_contains hrow hmem
        (x := straddling.blockRangeStart) ⟨heq.le,heq ▸ hlt⟩ ⟨le_refl _,hlt'⟩
      obtain ⟨hlow,hhigh,_⟩ := isStraddling_iff.mp hstraddling
      rw [hrow']
      exact ⟨hhigh,hlow.le,le_refl _⟩
    obtain ⟨hrun,hshrunk⟩ := updateRows_ok [] queue h hset
    rw [List.nil_append] at hrun hshrunk
    have hsplit := splitStraddling_some h hmem hstraddling hshrunk
      (mem_shrunk h hmem)
    have hinsert := checkRow_ok _ [] hsplit.disjoint
    rw [List.append_nil] at hinsert
    refine ⟨_,1,?_,hsplit,?_⟩
    · simp only [hrun,bind,Except.bind,insertRow,hinsert]
    · intro hnone
      rw [hnone straddling hmem] at hstraddling
      cases hstraddling

/-- What the prune leaves. -/
structure PrunedAt (minBirthday : Int) (queue pruned : List ScanRange) : Prop where
  disjoint : DisjointQueue pruned
  covered : ∀ height, Covered pruned height ↔ Covered queue height
  below : ∀ height priority, height < minBirthday → HasPriority pruned height priority →
    priority = priorityIgnored
  above : ∀ height priority, minBirthday ≤ height →
    (HasPriority pruned height priority ↔ HasPriority queue height priority)

/-- The row after the demotion. -/
def demoted (minBirthday : Int) (row : ScanRange) : ScanRange :=
  if isOrphaned minBirthday row then { row with priority := priorityIgnored } else row

theorem demoted_range (minBirthday : Int) (row : ScanRange) :
    (demoted minBirthday row).blockRangeStart = row.blockRangeStart ∧
      (demoted minBirthday row).blockRangeEnd = row.blockRangeEnd := by
  unfold demoted
  split <;> exact ⟨rfl,rfl⟩

theorem demoted_contains {minBirthday height : Int} {row : ScanRange} :
    (demoted minBirthday row).Contains height ↔ row.Contains height := by
  have hrange := demoted_range minBirthday row
  unfold ScanRange.Contains ContainsPoint
  rw [hrange.1,hrange.2]

theorem demoted_priority_above {minBirthday height : Int} {row : ScanRange}
    (habove : minBirthday ≤ height) (hcontains : row.Contains height) :
    (demoted minBirthday row).priority = row.priority := by
  have hkept : isOrphaned minBirthday row = false := by
    rw [Bool.eq_false_iff]
    intro horphaned
    exact absurd (hcontains.2.trans_le (isOrphaned_iff.mp horphaned).1) (not_lt.mpr habove)
  simp [demoted,hkept]

theorem demoted_priority_below {minBirthday height : Int} {row : ScanRange}
    (hbelow : height < minBirthday) (hcontains : row.Contains height)
    (hnone : isStraddling minBirthday row = false) :
    (demoted minBirthday row).priority = priorityIgnored := by
  unfold demoted
  split
  · rfl
  · rename_i horphaned
    by_contra hne
    have hpriority : priorityIgnored < row.priority := Nat.pos_of_ne_zero hne
    have hhigh : minBirthday < row.blockRangeEnd := by
      by_contra hle
      exact horphaned (isOrphaned_iff.mpr ⟨not_lt.mp hle,hpriority⟩)
    rw [isStraddling_iff.mpr ⟨hcontains.1.trans_lt hbelow,hhigh,hpriority⟩] at hnone
    cases hnone

theorem prunedAt_demoted {minBirthday : Int} {queue split : List ScanRange}
    (h : SplitAt minBirthday queue split)
    (hdisjoint : DisjointQueue (split.map (demoted minBirthday))) :
    PrunedAt minBirthday queue (split.map (demoted minBirthday)) where
  disjoint := hdisjoint
  covered := by
    intro height
    rw [← h.covered]
    constructor
    · rintro ⟨priority,row,hrow,hcontains,_⟩
      obtain ⟨other,hother,rfl⟩ := List.mem_map.mp hrow
      exact ⟨_,other,hother,demoted_contains.mp hcontains,rfl⟩
    · rintro ⟨priority,row,hrow,hcontains,_⟩
      exact ⟨_,_,List.mem_map_of_mem hrow,demoted_contains.mpr hcontains,rfl⟩
  below := by
    rintro height priority hbelow ⟨row,hrow,hcontains,rfl⟩
    obtain ⟨other,hother,rfl⟩ := List.mem_map.mp hrow
    exact demoted_priority_below hbelow (demoted_contains.mp hcontains) (h.none other hother)
  above := by
    intro height priority habove
    rw [← h.above height priority habove]
    constructor
    · rintro ⟨row,hrow,hcontains,rfl⟩
      obtain ⟨other,hother,rfl⟩ := List.mem_map.mp hrow
      have hcontains' := demoted_contains.mp hcontains
      exact ⟨other,hother,hcontains',(demoted_priority_above habove hcontains').symm⟩
    · rintro ⟨row,hrow,hcontains,rfl⟩
      exact ⟨_,List.mem_map_of_mem hrow,demoted_contains.mpr hcontains,
        demoted_priority_above habove hcontains⟩

theorem demote_spec (minBirthday : Int) {split : List ScanRange} (h : DisjointQueue split) :
    updateRows (isOrphaned minBirthday) (fun row => { row with priority := priorityIgnored }) []
        split =
      .ok (split.map (demoted minBirthday),split.countP (isOrphaned minBirthday)) ∧
      DisjointQueue (split.map (demoted minBirthday)) := by
  have hset : ∀ row ∈ split, isOrphaned minBirthday row = true →
      Within ScanRange.blockRangeStart ScanRange.blockRangeEnd
        { row with priority := priorityIgnored } row :=
    fun row hrow _ => ⟨h.nonempty row hrow,le_refl _,le_refl _⟩
  exact updateRows_ok [] split h hset

theorem prune_noop {birthdayHeights : List Int} {minBirthday : Int}
    (hmin : birthdayHeights.min? = some minBirthday) {queue : List ScanRange}
    (h : DisjointQueue queue)
    (hignored : ∀ height priority, height < minBirthday → HasPriority queue height priority →
      priority = priorityIgnored) :
    pruneOrphanedScanRangesInConn birthdayHeights queue = .ok (queue,0) := by
  have hlow : ∀ row ∈ queue, row.blockRangeStart < minBirthday → row.priority = 0 :=
    fun row hrow hlt => hignored row.blockRangeStart row.priority hlt
      ⟨row,hrow,⟨le_refl _,h.nonempty row hrow⟩,rfl⟩
  have hstraddling : ∀ row ∈ queue, isStraddling minBirthday row = false := by
    intro row hrow
    rw [Bool.eq_false_iff]
    intro hmatch
    obtain ⟨hlt,_,hpriority⟩ := isStraddling_iff.mp hmatch
    exact absurd (hlow row hrow hlt) (Nat.pos_iff_ne_zero.mp hpriority)
  have horphaned : ∀ row ∈ queue, isOrphaned minBirthday row = false := by
    intro row hrow
    rw [Bool.eq_false_iff]
    intro hmatch
    obtain ⟨hle,hpriority⟩ := isOrphaned_iff.mp hmatch
    have hlt := (h.nonempty row hrow).trans_le hle
    exact absurd (hlow row hrow hlt) (Nat.pos_iff_ne_zero.mp hpriority)
  obtain ⟨split,count,hrun,_,hsame⟩ := splitStraddling_spec minBirthday h
  obtain ⟨rfl,rfl⟩ := hsame hstraddling
  have hmap : split.map (demoted minBirthday) = split := by
    calc split.map (demoted minBirthday)
        = split.map id := List.map_congr_left fun row hrow => by simp [demoted,horphaned row hrow]
      _ = split := List.map_id split
  have hcount : split.countP (isOrphaned minBirthday) = 0 := by
    apply List.countP_eq_zero.mpr
    intro row hrow
    simp [horphaned row hrow]
  simp only [pruneOrphanedScanRangesInConn,hmin,hrun,bind,Except.bind,(demote_spec minBirthday h).1,
    hmap,hcount]

/-- The prune succeeds, and a second one changes nothing. -/
theorem prune_exact {birthdayHeights : List Int} {minBirthday : Int}
    (hmin : birthdayHeights.min? = some minBirthday) {queue : List ScanRange}
    (h : DisjointQueue queue) :
    ∃ pruned count, pruneOrphanedScanRangesInConn birthdayHeights queue = .ok (pruned,count) ∧
      PrunedAt minBirthday queue pruned ∧
      pruneOrphanedScanRangesInConn birthdayHeights pruned = .ok (pruned,0) := by
  obtain ⟨split,count,hrun,hsplit,_⟩ := splitStraddling_spec minBirthday h
  obtain ⟨hdemote,hdisjoint⟩ := demote_spec minBirthday hsplit.disjoint
  have hpruned := prunedAt_demoted hsplit hdisjoint
  refine ⟨split.map (demoted minBirthday),count + split.countP (isOrphaned minBirthday),?_,hpruned,
    prune_noop hmin hdisjoint hpruned.below⟩
  simp only [pruneOrphanedScanRangesInConn,hmin,hrun,bind,Except.bind,hdemote]

/-- The range of found notes from 40 to 80 is split at 50. -/
theorem prune_exact_straddling :
    ∃ pruned count, pruneOrphanedScanRangesInConn [100,50] [⟨10,40,10⟩,⟨40,80,40⟩,⟨90,95,20⟩] =
        .ok (pruned,count) ∧
      PrunedAt 50 [⟨10,40,10⟩,⟨40,80,40⟩,⟨90,95,20⟩] pruned ∧
      pruneOrphanedScanRangesInConn [100,50] pruned = .ok (pruned,0) :=
  prune_exact (by decide) ⟨by decide,by simp [Apart]⟩

/-- The prune that follows the deletion of an account, given the birthdays that remain. -/
def pruneStep (birthdayHeights : List Int) (queue : List ScanRange) :
    Except ConstraintViolation (List ScanRange) :=
  (pruneOrphanedScanRangesInConn birthdayHeights queue).map Prod.fst

/-- The height was below all birthdays after one of the deletions. -/
def Orphaned (tables : List (List Int)) (height : Int) : Prop :=
  ∃ birthdayHeights ∈ tables, ∃ minBirthday, birthdayHeights.min? = some minBirthday ∧
    height < minBirthday

theorem prune_spec {birthdayHeights : List Int} {minBirthday : Int}
    (hmin : birthdayHeights.min? = some minBirthday) {queue : List ScanRange}
    (h : DisjointQueue queue) :
    ∃ pruned, pruneStep birthdayHeights queue = .ok pruned ∧ PrunedAt minBirthday queue pruned := by
  obtain ⟨split,count,hrun,hsplit,_⟩ := splitStraddling_spec minBirthday h
  obtain ⟨hdemote,hdisjoint⟩ := demote_spec minBirthday hsplit.disjoint
  refine ⟨split.map (demoted minBirthday),?_,prunedAt_demoted hsplit hdisjoint⟩
  simp only [pruneStep,pruneOrphanedScanRangesInConn,hmin,hrun,bind,Except.bind,hdemote,Except.map]

/-- Prunes after any deletions all succeed, and leave exactly the heights that none of them found
orphaned to be scanned as before. -/
theorem prunes_exact (tables : List (List Int)) {queue : List ScanRange} (h : DisjointQueue queue) :
    ∃ pruned, execute pruneStep tables queue = .ok pruned ∧ DisjointQueue pruned ∧
      ∀ height priority, HasPriority pruned height priority ↔
        Orphaned tables height ∧ Covered queue height ∧ priority = priorityIgnored ∨
        ¬ Orphaned tables height ∧ HasPriority queue height priority := by
  induction tables generalizing queue with
  | nil => exact ⟨queue,rfl,h,by simp [Orphaned]⟩
  | cons birthdayHeights tables ih =>
    cases hmin : birthdayHeights.min? with
    | none =>
      have hstep : pruneStep birthdayHeights queue = .ok queue := by
        simp [pruneStep,pruneOrphanedScanRangesInConn,hmin,Except.map]
      obtain ⟨pruned,hrun,hdisjoint,hpruned⟩ := ih h
      refine ⟨pruned,?_,hdisjoint,fun height priority => ?_⟩
      · rw [execute,hstep]
        exact hrun
      · rw [hpruned]
        simp [Orphaned,hmin]
    | some minBirthday =>
      obtain ⟨first,hstep,hfirst⟩ := prune_spec hmin h
      obtain ⟨pruned,hrun,hdisjoint,hpruned⟩ := ih hfirst.disjoint
      refine ⟨pruned,?_,hdisjoint,fun height priority => ?_⟩
      · rw [execute,hstep]
        exact hrun
      have horphaned : Orphaned (birthdayHeights :: tables) height ↔
          height < minBirthday ∨ Orphaned tables height := by
        simp [Orphaned,hmin]
      rw [hpruned,hfirst.covered,horphaned]
      by_cases hbelow : height < minBirthday
      · have hignored : HasPriority first height priority ↔
            Covered queue height ∧ priority = priorityIgnored := by
          rw [← hfirst.covered]
          constructor
          · intro hpriority
            exact ⟨⟨priority,hpriority⟩,hfirst.below height priority hbelow hpriority⟩
          · rintro ⟨⟨other,hother⟩,rfl⟩
            exact hfirst.below height other hbelow hother ▸ hother
        rw [hignored]
        by_cases hlater : Orphaned tables height
        · simp [hbelow,hlater]
        · simp [hbelow,hlater]
      · rw [hfirst.above height priority (by omega)]
        simp [hbelow]

theorem prunes_exact_twice :
    ∃ pruned, execute pruneStep [[100,60],[100]] [⟨10,40,10⟩,⟨40,80,40⟩,⟨90,95,20⟩] = .ok pruned ∧
      DisjointQueue pruned ∧ ∀ height priority, HasPriority pruned height priority ↔
        Orphaned [[100,60],[100]] height ∧
          Covered [⟨10,40,10⟩,⟨40,80,40⟩,⟨90,95,20⟩] height ∧ priority = priorityIgnored ∨
        ¬ Orphaned [[100,60],[100]] height ∧
          HasPriority [⟨10,40,10⟩,⟨40,80,40⟩,⟨90,95,20⟩] height priority :=
  prunes_exact _ ⟨by decide,by simp [Apart]⟩

end CoppiceWallet.ScanQueue
