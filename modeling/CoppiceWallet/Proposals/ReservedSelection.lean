import CoppiceWallet.Lib.Result
import CoppiceWallet.Lib.Selection
import CoppiceWallet.Store.Model
import Mathlib.Data.List.Sort
import Mathlib.Data.List.Dedup

/-!
# Selection past the reserved notes

`ReservedInputSource` hands every selection on to the wallet, with the reserved notes added to the
excluded ones. Notes that a migration has locked are known by their outpoint only, so they are taken
out of what comes back.
-/

namespace CoppiceWallet.Proposals

open CoppiceWallet.Lib
open CoppiceWallet.Store (Text lower)

inductive ShieldedPool
  | sapling
  | orchard
  | ironwood
  deriving DecidableEq

structure ReceivedNote (Ref : Type) where
  internalNoteId : Ref
  txid : Text
  outputIndex : Nat
  value : Nat
  deriving DecidableEq

structure ReceivedNotes (Ref : Type) where
  sapling : List (ReceivedNote Ref)
  orchard : List (ReceivedNote Ref)
  ironwood : List (ReceivedNote Ref)

structure ConsolidationNotes (Ref : Type) where
  funding : ReceivedNotes Ref
  additional : ReceivedNotes Ref

inductive MaxSpendMode
  | maxSpendable
  | everything
  deriving DecidableEq

inductive TargetValue
  | atLeast (value : Nat)
  | allFunds (mode : MaxSpendMode)
  deriving DecidableEq

/-- The two selections of a wallet. A query is the account, the pools, the heights and the policies,
which are handed on as they are. -/
structure InputSource (Query Ref Error : Type) where
  selectSpendableNotes : Query → TargetValue → List Ref → Except Error (ReceivedNotes Ref)
  selectSpendableNotesForConsolidation :
    Query → Nat → List Ref → Nat → Except Error (ConsolidationNotes Ref)

structure Reservations (Ref : Type) where
  reserved : List Ref
  migrationLocks : List (Text × Nat)

structure ReservedInputSource (Query Ref Error : Type) extends Reservations Ref where
  inner : InputSource Query Ref Error

variable {Query Ref Error : Type} [LinearOrder Ref]

/-- `sort_unstable` and `dedup` -/
def sorted (refs : List Ref) : List Ref := (refs.insertionSort (· ≤ ·)).dedup

namespace Reservations

variable (reservations : Reservations Ref)

def mergedExcludes (exclude : List Ref) : List Ref := sorted (exclude ++ reservations.reserved)

def noteIsLocked (note : ReceivedNote Ref) : Bool :=
  decide ((lower note.txid,note.outputIndex) ∈ reservations.migrationLocks)

def migrationLockedNoteIds (notes : ReceivedNotes Ref) : List Ref :=
  (notes.orchard.filter reservations.noteIsLocked).map ReceivedNote.internalNoteId ++
    (notes.ironwood.filter reservations.noteIsLocked).map ReceivedNote.internalNoteId

end Reservations

namespace ReservedInputSource

variable (source : ReservedInputSource Query Ref Error)

def selectSpendableNotes (query : Query) (target : TargetValue) (exclude : List Ref) :
    Except Error (ReceivedNotes Ref) := do
  let selected ← source.inner.selectSpendableNotes query target (source.mergedExcludes exclude)
  .ok ⟨selected.sapling,selected.orchard.filter fun note => !source.noteIsLocked note,
    selected.ironwood.filter fun note => !source.noteIsLocked note⟩

/-- The loop, for so many rounds at most. -/
def consolidationRounds (query : Query) (value maxAdditional : Nat) :
    Nat → List Ref → Option (Except Error (ConsolidationNotes Ref))
  | 0, _ => none
  | rounds + 1, mergedExcludes =>
    match source.inner.selectSpendableNotesForConsolidation query value mergedExcludes
      maxAdditional with
    | .error e => some (.error e)
    | .ok ⟨funding,additional⟩ =>
      let newlyExcluded :=
        source.migrationLockedNoteIds funding ++ source.migrationLockedNoteIds additional
      if newlyExcluded.isEmpty then some (.ok ⟨funding,additional⟩)
      else consolidationRounds query value maxAdditional rounds (sorted (mergedExcludes ++ newlyExcluded))

def selectSpendableNotesForConsolidation (query : Query) (value : Nat) (exclude : List Ref)
    (maxAdditional rounds : Nat) : Option (Except Error (ConsolidationNotes Ref)) :=
  source.consolidationRounds query value maxAdditional rounds (source.mergedExcludes exclude)

end ReservedInputSource

/-- A note with the pool it is in. -/
abbrev PoolNote (Ref : Type) := ShieldedPool × ReceivedNote Ref

def ReceivedNotes.all (notes : ReceivedNotes Ref) : List (PoolNote Ref) :=
  notes.sapling.map (Prod.mk .sapling) ++ notes.orchard.map (Prod.mk .orchard) ++
    notes.ironwood.map (Prod.mk .ironwood)

/-- The notes that a query may be answered with, each known by its reference. -/
structure SpendableNotes (Ref : Type) where
  notes : ReceivedNotes Ref
  distinct : (notes.all.map fun note => note.2.internalNoteId).Nodup

def SpendableNotes.stock (spendable : SpendableNotes Ref) : Stock (PoolNote Ref) Ref where
  items := spendable.notes.all
  key note := note.2.internalNoteId
  worth note := note.2.value
  keys_nodup := spendable.distinct

def noteTotal (notes : List (PoolNote Ref)) : Nat := (notes.map fun note => note.2.value).sum

/-- Notes can meet a target. All funds are as much as there is. -/
def TargetValue.CanBeMet (available : List (PoolNote Ref)) : TargetValue → Prop
  | .atLeast value => value ≤ noteTotal available
  | .allFunds _ => True

/-- The notes selected among those available meet a target. -/
def TargetValue.Met (available selected : List (PoolNote Ref)) : TargetValue → Prop
  | .atLeast value => value ≤ noteTotal selected
  | .allFunds _ => ∀ note ∈ available, note ∈ selected

/-- The wallet selects among the notes of the query that are not excluded, and meets the target
whenever they can. -/
structure InputSource.Lawful (inner : InputSource Query Ref Error) (query : Query)
    (spendable : SpendableNotes Ref) : Prop where
  selects : ∀ target exclude notes, inner.selectSpendableNotes query target exclude = .ok notes →
    List.Subperm notes.all (spendable.stock.left exclude)
  meets : ∀ target : TargetValue, ∀ exclude, target.CanBeMet (spendable.stock.left exclude) →
    ∃ notes, inner.selectSpendableNotes query target exclude = .ok notes ∧
      target.Met (spendable.stock.left exclude) notes.all
  consolidates : ∀ value exclude maxAdditional notes,
    inner.selectSpendableNotesForConsolidation query value exclude maxAdditional = .ok notes →
      List.Subperm (notes.funding.all ++ notes.additional.all) (spendable.stock.left exclude)
  funds : ∀ value exclude maxAdditional, value ≤ noteTotal (spendable.stock.left exclude) →
    ∃ notes, inner.selectSpendableNotesForConsolidation query value exclude maxAdditional =
      .ok notes ∧ value ≤ noteTotal notes.funding.all

namespace Reservations

variable (reservations : Reservations Ref)

/-- A migration has locked the note; locks are about Orchard and Ironwood. -/
def locked (note : PoolNote Ref) : Bool :=
  decide (note.1 ≠ .sapling) && reservations.noteIsLocked note.2

omit reservations in
local instance lawfulRef : LawfulBEq Ref := instLawfulBEq

/-- The note is neither excluded nor reserved. -/
def allowed (exclude : List Ref) (note : PoolNote Ref) : Bool :=
  decide (note.2.internalNoteId ∉ exclude ∧ note.2.internalNoteId ∉ reservations.reserved)

/-- The notes that are neither excluded, nor reserved, nor locked. -/
def rest (spendable : SpendableNotes Ref) (exclude : List Ref) : List (PoolNote Ref) :=
  spendable.notes.all.filter fun note =>
    reservations.allowed exclude note && !reservations.locked note

/-- The locked notes that are neither excluded nor reserved. -/
def lockedRest (spendable : SpendableNotes Ref) (exclude : List Ref) : List (PoolNote Ref) :=
  spendable.notes.all.filter fun note =>
    reservations.allowed exclude note && reservations.locked note

/-- Dropping the locked notes from a selection cannot make it fall short: the rest is short of the
target itself, or no part of it is that reaches the target together with all the locked notes. -/
def DropsSafely (spendable : SpendableNotes Ref) (exclude : List Ref) : TargetValue → Prop
  | .atLeast value => noteTotal (reservations.rest spendable exclude) < value ∨
      ∀ notes, List.Subperm notes (reservations.rest spendable exclude) →
        value ≤ noteTotal notes + noteTotal (reservations.lockedRest spendable exclude) →
        value ≤ noteTotal notes
  | .allFunds _ => True

end Reservations

namespace ReservedInputSource

variable (source : ReservedInputSource Query Ref Error)

/-- `select_spendable_notes` selects from the rest. -/
structure Selects (query : Query) (spendable : SpendableNotes Ref) (target : TargetValue)
    (exclude : List Ref) : Prop where
  selects : ∀ notes, source.selectSpendableNotes query target exclude = .ok notes →
    List.Subperm notes.all (source.rest spendable exclude)
  meets : target.CanBeMet (source.rest spendable exclude) →
    ∃ notes, source.selectSpendableNotes query target exclude = .ok notes ∧
      target.Met (source.rest spendable exclude) notes.all

/-- `select_spendable_notes_for_consolidation` ends with a result, which selects from the rest. -/
structure Consolidates (query : Query) (spendable : SpendableNotes Ref) (value : Nat)
    (exclude : List Ref) (maxAdditional : Nat) (result : Except Error (ConsolidationNotes Ref)) :
    Prop where
  ends : ∀ rounds > spendable.notes.all.length, source.selectSpendableNotesForConsolidation query
    value exclude maxAdditional rounds = some result
  selects : ∀ notes, result = .ok notes →
    List.Subperm (notes.funding.all ++ notes.additional.all) (source.rest spendable exclude)
  funds : value ≤ noteTotal (source.rest spendable exclude) →
    ∃ notes, result = .ok notes ∧ value ≤ noteTotal notes.funding.all

end ReservedInputSource

section Lemmas

variable {reservations : Reservations Ref} {spendable : SpendableNotes Ref} {exclude refs : List Ref}
  {notes : ReceivedNotes Ref} {note : PoolNote Ref} {ref : Ref}

@[simp] theorem mem_sorted : ref ∈ sorted refs ↔ ref ∈ refs := by
  simp [sorted,List.mem_insertionSort]

theorem mem_mergedExcludes :
    ref ∈ reservations.mergedExcludes exclude ↔ ref ∈ exclude ∨ ref ∈ reservations.reserved := by
  simp [Reservations.mergedExcludes]

omit [LinearOrder Ref] in
theorem mem_migrationLockedNoteIds : ref ∈ reservations.migrationLockedNoteIds notes ↔
    ∃ note ∈ notes.all, reservations.locked note = true ∧ note.2.internalNoteId = ref := by
  have hpool : ∀ (pool : ShieldedPool) (notes : List (ReceivedNote Ref)), pool ≠ ShieldedPool.sapling →
      (ref ∈ (notes.filter reservations.noteIsLocked).map ReceivedNote.internalNoteId ↔
        ∃ note ∈ notes.map (Prod.mk pool), reservations.locked note = true ∧
          note.2.internalNoteId = ref) := by
    intro pool notes hpool
    simp [Reservations.locked,hpool,and_assoc]
  have hsapling : ∀ note ∈ notes.sapling.map (Prod.mk ShieldedPool.sapling),
      reservations.locked note = false := by
    simp [Reservations.locked]
  rw [Reservations.migrationLockedNoteIds,List.mem_append,hpool .orchard _ (by decide),
    hpool .ironwood _ (by decide)]
  grind [ReceivedNotes.all]

omit [LinearOrder Ref] in
theorem all_withoutLocked : ReceivedNotes.all ⟨notes.sapling,
      notes.orchard.filter fun note => !reservations.noteIsLocked note,
      notes.ironwood.filter fun note => !reservations.noteIsLocked note⟩ =
    notes.all.filter fun note => !reservations.locked note := by
  simp [ReceivedNotes.all,Reservations.locked,List.filter_map,Function.comp_def]

theorem left_mergedExcludes : spendable.stock.left (reservations.mergedExcludes exclude) =
    spendable.notes.all.filter (reservations.allowed exclude) := by
  refine List.filter_congr ?_
  intro note _
  simp [SpendableNotes.stock,mem_mergedExcludes,Reservations.allowed]

theorem rest_eq : reservations.rest spendable exclude =
    (spendable.stock.left (reservations.mergedExcludes exclude)).filter fun note =>
      !reservations.locked note := by
  rw [left_mergedExcludes,List.filter_filter]
  simp [Reservations.rest,Bool.and_comm]

theorem lockedRest_eq : reservations.lockedRest spendable exclude =
    (spendable.stock.left (reservations.mergedExcludes exclude)).filter reservations.locked := by
  rw [left_mergedExcludes,List.filter_filter]
  simp [Reservations.lockedRest,Bool.and_comm]

end Lemmas

section Ordinary

variable {source : ReservedInputSource Query Ref Error} {query : Query}
  {spendable : SpendableNotes Ref} {target : TargetValue} {exclude : List Ref}

theorem selectSpendableNotes_ok {notes : ReceivedNotes Ref}
    (h : source.selectSpendableNotes query target exclude = .ok notes) :
    ∃ selected, source.inner.selectSpendableNotes query target (source.mergedExcludes exclude) =
        .ok selected ∧
      notes.all = selected.all.filter fun note => !source.locked note := by
  obtain ⟨selected,hselected,h⟩ := bind_ok h
  cases h
  exact ⟨selected,hselected,all_withoutLocked⟩

/-- No reserved, excluded or locked note is selected. -/
theorem select_clear (hinner : source.inner.Lawful query spendable) {notes : ReceivedNotes Ref}
    (h : source.selectSpendableNotes query target exclude = .ok notes) :
    List.Subperm notes.all (source.rest spendable exclude) := by
  obtain ⟨selected,hselected,hnotes⟩ := selectSpendableNotes_ok h
  rw [hnotes,rest_eq]
  exact (hinner.selects target _ selected hselected).filter _

omit [LinearOrder Ref] in
theorem noteTotal_split (spendable : SpendableNotes Ref) (p : PoolNote Ref → Bool)
    (notes : List (PoolNote Ref)) :
    noteTotal notes = noteTotal (notes.filter fun note => !p note) + noteTotal (notes.filter p) :=
  spendable.stock.total_split p notes

theorem noteTotal_rest : noteTotal (spendable.stock.left (source.mergedExcludes exclude)) =
    noteTotal (source.rest spendable exclude) + noteTotal (source.lockedRest spendable exclude) := by
  rw [rest_eq,lockedRest_eq]
  exact noteTotal_split spendable source.locked _

theorem select_meets (hinner : source.inner.Lawful query spendable)
    (hsafe : source.DropsSafely spendable exclude target)
    (h : target.CanBeMet (source.rest spendable exclude)) :
    ∃ notes, source.selectSpendableNotes query target exclude = .ok notes ∧
      target.Met (source.rest spendable exclude) notes.all := by
  have hcan : target.CanBeMet (spendable.stock.left (source.mergedExcludes exclude)) := by
    cases target with
    | atLeast value =>
      simp only [TargetValue.CanBeMet,noteTotal_rest] at h ⊢
      omega
    | allFunds mode => trivial
  obtain ⟨selected,hselected,hmet⟩ := hinner.meets target _ hcan
  have hsub := hinner.selects target _ selected hselected
  refine ⟨_,by rw [ReservedInputSource.selectSpendableNotes,hselected]; rfl,?_⟩
  rw [all_withoutLocked]
  cases target with
  | atLeast value =>
    have hrest := hsafe.resolve_left (by simpa [TargetValue.CanBeMet] using h)
      (selected.all.filter fun note => !source.locked note) (by rw [rest_eq]; exact hsub.filter _)
    have hlocked : noteTotal (selected.all.filter source.locked) ≤
        noteTotal (source.lockedRest spendable exclude) := by
      rw [lockedRest_eq]
      exact spendable.stock.total_le (hsub.filter _)
    have hsplit := noteTotal_split spendable source.locked selected.all
    have hvalue : value ≤ noteTotal selected.all := hmet
    exact hrest (by omega)
  | allFunds mode =>
    intro note hnote
    rw [rest_eq,List.mem_filter] at hnote
    exact List.mem_filter.mpr ⟨hmet note hnote.1,hnote.2⟩

end Ordinary

section Consolidation

variable {source : ReservedInputSource Query Ref Error} {query : Query}
  {spendable : SpendableNotes Ref} {exclude excludes : List Ref}

/-- The growing list excludes what it has to, and none of the rest. -/
structure ExcludesLocked (reservations : Reservations Ref) (spendable : SpendableNotes Ref)
    (exclude excludes : List Ref) : Prop where
  merged : ∀ ref ∈ reservations.mergedExcludes exclude, ref ∈ excludes
  rest : ∀ note ∈ reservations.rest spendable exclude, note.2.internalNoteId ∉ excludes

theorem excludesLocked_merged {reservations : Reservations Ref} :
    ExcludesLocked reservations spendable exclude (reservations.mergedExcludes exclude) where
  merged _ href := href
  rest note hnote := by
    rw [rest_eq,List.mem_filter] at hnote
    exact (spendable.stock.mem_left.mp hnote.1).2

omit [LinearOrder Ref] in
theorem mem_newlyExcluded {reservations : Reservations Ref} {notes : ConsolidationNotes Ref}
    {ref : Ref} : ref ∈ reservations.migrationLockedNoteIds notes.funding ++
        reservations.migrationLockedNoteIds notes.additional ↔
      ∃ note ∈ notes.funding.all ++ notes.additional.all, reservations.locked note = true ∧
        note.2.internalNoteId = ref := by
  simp only [List.mem_append,mem_migrationLockedNoteIds]
  grind

theorem ExcludesLocked.step {reservations : Reservations Ref} {notes : ConsolidationNotes Ref}
    (h : ExcludesLocked reservations spendable exclude excludes)
    (hsub : List.Subperm (notes.funding.all ++ notes.additional.all)
      (spendable.stock.left excludes)) :
    ExcludesLocked reservations spendable exclude (sorted (excludes ++
      (reservations.migrationLockedNoteIds notes.funding ++
        reservations.migrationLockedNoteIds notes.additional))) where
  merged ref href := by simp [h.merged ref href]
  rest note hnote hmem := by
    rcases List.mem_append.mp (mem_sorted.mp hmem) with hmem | hmem
    · exact h.rest note hnote hmem
    · obtain ⟨other,hother,hlocked,hkey⟩ := mem_newlyExcluded.mp hmem
      have hitem : other ∈ spendable.notes.all := (spendable.stock.mem_left.mp (hsub.subset hother)).1
      rw [Reservations.rest,List.mem_filter] at hnote
      obtain rfl : other = note := spendable.stock.eq_of_key hitem hnote.1 hkey
      simp [hlocked] at hnote

theorem ExcludesLocked.selects {reservations : Reservations Ref} {notes : ConsolidationNotes Ref}
    (h : ExcludesLocked reservations spendable exclude excludes)
    (hsub : List.Subperm (notes.funding.all ++ notes.additional.all)
      (spendable.stock.left excludes))
    (hnone : ∀ note ∈ notes.funding.all ++ notes.additional.all,
      reservations.locked note = false) :
    List.Subperm (notes.funding.all ++ notes.additional.all)
      (reservations.rest spendable exclude) := by
  obtain ⟨selected,hperm,hsublist⟩ := hsub
  have hnodup : (notes.funding.all ++ notes.additional.all).Nodup :=
    hperm.nodup_iff.mp (hsublist.nodup spendable.stock.left_nodup)
  refine List.subperm_of_subset hnodup ?_
  intro note hnote
  have hleft := spendable.stock.mem_left.mp (hsublist.subset (hperm.mem_iff.mpr hnote))
  rw [rest_eq,List.mem_filter]
  refine ⟨spendable.stock.mem_left.mpr ⟨hleft.1,?_⟩,by simp [hnone note hnote]⟩
  exact fun hmerged => hleft.2 (h.merged _ hmerged)

theorem ExcludesLocked.total {reservations : Reservations Ref}
    (h : ExcludesLocked reservations spendable exclude excludes) :
    noteTotal (reservations.rest spendable exclude) ≤ noteTotal (spendable.stock.left excludes) := by
  have hnodup : (reservations.rest spendable exclude).Nodup := spendable.stock.items_nodup.filter _
  refine spendable.stock.total_le (spendable.stock.subperm_left hnodup ?_)
  intro note hnote
  exact ⟨List.mem_of_mem_filter hnote,h.rest note hnote⟩

theorem consolidationRounds_ends (hinner : source.inner.Lawful query spendable)
    (value maxAdditional : Nat)
    (h : ExcludesLocked source.toReservations spendable exclude excludes) :
    ∃ result, (∀ rounds > (spendable.stock.left excludes).length,
        source.consolidationRounds query value maxAdditional rounds excludes = some result) ∧
      (∀ notes, result = .ok notes →
        List.Subperm (notes.funding.all ++ notes.additional.all) (source.rest spendable exclude)) ∧
      (value ≤ noteTotal (source.rest spendable exclude) →
        ∃ notes, result = .ok notes ∧ value ≤ noteTotal notes.funding.all) := by
  induction hn : (spendable.stock.left excludes).length using Nat.strong_induction_on
    generalizing excludes with
  | _ n ih =>
    have hfunds := fun hvalue : value ≤ noteTotal (source.rest spendable exclude) =>
      hinner.funds value excludes maxAdditional (hvalue.trans h.total)
    cases hselect : source.inner.selectSpendableNotesForConsolidation query value excludes
      maxAdditional with
    | error e =>
      refine ⟨.error e,?_,by simp,?_⟩
      · intro rounds hrounds
        obtain ⟨rounds,rfl⟩ := Nat.exists_eq_add_one_of_ne_zero (by omega : rounds ≠ 0)
        simp [ReservedInputSource.consolidationRounds,hselect]
      · intro hvalue
        obtain ⟨notes,hnotes,_⟩ := hfunds hvalue
        rw [hselect] at hnotes
        cases hnotes
    | ok notes =>
      have hsub := hinner.consolidates value excludes maxAdditional notes hselect
      by_cases hempty : (source.migrationLockedNoteIds notes.funding ++
          source.migrationLockedNoteIds notes.additional).isEmpty = true
      · refine ⟨.ok notes,?_,?_,?_⟩
        · intro rounds hrounds
          obtain ⟨rounds,rfl⟩ := Nat.exists_eq_add_one_of_ne_zero (by omega : rounds ≠ 0)
          simp only [ReservedInputSource.consolidationRounds,hselect,hempty,if_true]
        · intro notes' hnotes
          cases hnotes
          refine h.selects hsub ?_
          intro note hnote
          by_contra hlocked
          have hmem := mem_newlyExcluded.mpr ⟨note,hnote,by simpa using hlocked,rfl⟩
          rw [List.isEmpty_iff.mp hempty] at hmem
          cases hmem
        · intro hvalue
          obtain ⟨notes',hnotes,hfunded⟩ := hfunds hvalue
          rw [hselect] at hnotes
          cases hnotes
          exact ⟨notes,rfl,hfunded⟩
      · have hstep := h.step hsub
        obtain ⟨ref,href⟩ := List.exists_mem_of_ne_nil _ fun hnil =>
          hempty (List.isEmpty_iff.mpr hnil)
        obtain ⟨note,hnote,hlocked,rfl⟩ := mem_newlyExcluded.mp href
        have hlt := spendable.stock.left_length_lt (sorted (excludes ++
            (source.migrationLockedNoteIds notes.funding ++
              source.migrationLockedNoteIds notes.additional)))
          (by simp +contextual) (hsub.subset hnote)
          (mem_sorted.mpr (List.mem_append_right _ href))
        obtain ⟨result,hends,hresult⟩ := ih _ (hn ▸ hlt) hstep rfl
        refine ⟨result,?_,hresult⟩
        intro rounds hrounds
        obtain ⟨rounds,rfl⟩ := Nat.exists_eq_add_one_of_ne_zero (by omega : rounds ≠ 0)
        simp only [ReservedInputSource.consolidationRounds,hselect,hempty]
        exact hends rounds (by omega)

theorem consolidates (hinner : source.inner.Lawful query spendable) (value : Nat)
    (exclude : List Ref) (maxAdditional : Nat) :
    ∃ result, source.Consolidates query spendable value exclude maxAdditional result := by
  have hmerged : ExcludesLocked source.toReservations spendable exclude
      (source.mergedExcludes exclude) := excludesLocked_merged
  obtain ⟨result,hends,hselects,hfunds⟩ := consolidationRounds_ends hinner value maxAdditional hmerged
  refine ⟨result,?_,hselects,hfunds⟩
  intro rounds hrounds
  refine hends rounds ?_
  have hle : (spendable.stock.left (source.mergedExcludes exclude)).length ≤
      spendable.notes.all.length := List.length_filter_le _ _
  omega

end Consolidation

section Picking

variable {query : Query} {spendable : SpendableNotes Ref} {exclude : List Ref}
  {pick : TargetValue → List (PoolNote Ref) → List (PoolNote Ref)}

def ReceivedNotes.ofAll (notes : List (PoolNote Ref)) : ReceivedNotes Ref where
  sapling := (notes.filter fun note => decide (note.1 = .sapling)).map Prod.snd
  orchard := (notes.filter fun note => decide (note.1 = .orchard)).map Prod.snd
  ironwood := (notes.filter fun note => decide (note.1 = .ironwood)).map Prod.snd

omit [LinearOrder Ref] in
theorem all_ofAll (notes : List (PoolNote Ref)) : (ReceivedNotes.ofAll notes).all.Perm notes := by
  induction notes with
  | nil => rfl
  | cons note notes ih =>
    obtain ⟨pool,note⟩ := note
    refine List.Perm.trans ?_ (ih.cons _)
    cases pool with
    | sapling => simp [ReceivedNotes.ofAll,ReceivedNotes.all]
    | orchard => simp [ReceivedNotes.ofAll,ReceivedNotes.all]
    | ironwood =>
      simp [ReceivedNotes.ofAll,ReceivedNotes.all]
      rw [← List.append_assoc,← List.append_assoc]
      exact List.perm_middle

omit [LinearOrder Ref] in
theorem noteTotal_ofAll (notes : List (PoolNote Ref)) :
    noteTotal (ReceivedNotes.ofAll notes).all = noteTotal notes :=
  ((all_ofAll notes).map fun note : PoolNote Ref => note.2.value).sum_nat

/-- A wallet that picks from what is left. -/
def pickingSource (Query Error : Type) (spendable : SpendableNotes Ref)
    (pick : TargetValue → List (PoolNote Ref) → List (PoolNote Ref)) :
    InputSource Query Ref Error where
  selectSpendableNotes _ target exclude := .ok (.ofAll (pick target (spendable.stock.left exclude)))
  selectSpendableNotesForConsolidation _ value exclude _ :=
    .ok ⟨.ofAll (pick (.atLeast value) (spendable.stock.left exclude)),.ofAll []⟩

theorem pickingSource_lawful
    (hpick : ∀ target available, List.Subperm (pick target available) available)
    (hmet : ∀ (target : TargetValue) available, target.CanBeMet available →
      target.Met available (pick target available)) :
    (pickingSource Query Error spendable pick).Lawful query spendable where
  selects target exclude notes h := by
    cases h
    exact (all_ofAll _).subperm.trans (hpick _ _)
  meets target exclude h := by
    refine ⟨_,rfl,?_⟩
    have hpicked := hmet target _ h
    cases target with
    | atLeast value => simpa [TargetValue.Met,noteTotal_ofAll] using hpicked
    | allFunds mode => exact fun note hnote => (all_ofAll _).mem_iff.mpr (hpicked note hnote)
  consolidates value exclude maxAdditional notes h := by
    cases h
    simpa [ReceivedNotes.ofAll,ReceivedNotes.all] using (all_ofAll _).subperm.trans (hpick _ _)
  funds value exclude maxAdditional h := by
    refine ⟨_,rfl,?_⟩
    have hpicked := hmet (.atLeast value) _ h
    simpa [TargetValue.Met,noteTotal_ofAll] using hpicked

theorem dropsSafely_of_selects {reservations : Reservations Ref} {target : TargetValue}
    (h : ∀ inner : InputSource Query Ref Error, inner.Lawful query spendable →
      ReservedInputSource.Selects ⟨reservations,inner⟩ query spendable target exclude) :
    reservations.DropsSafely spendable exclude target := by
  cases target with
  | allFunds mode => trivial
  | atLeast value =>
    by_contra hsafe
    simp only [Reservations.DropsSafely,not_or,Nat.not_lt,not_forall] at hsafe
    obtain ⟨hrest,short,hshort,hreach,hfalls⟩ := hsafe
    let left := spendable.stock.left (reservations.mergedExcludes exclude)
    let picked := short ++ reservations.lockedRest spendable exclude
    have hpicked : List.Subperm picked left := by
      have hperm : (reservations.rest spendable exclude ++
          reservations.lockedRest spendable exclude).Perm left := by
        rw [rest_eq,lockedRest_eq]
        simpa using List.filter_append_perm (fun note => !reservations.locked note) left
      exact ((List.subperm_append_right _).mpr hshort).trans hperm.subperm
    let pick := fun (target : TargetValue) (available : List (PoolNote Ref)) =>
      if target = .atLeast value ∧ available = left then picked else available
    have hlawful : (pickingSource Query Error spendable pick).Lawful query spendable := by
      apply pickingSource_lawful
      · intro target available
        by_cases hcase : target = .atLeast value ∧ available = left
        · simpa [pick,hcase] using hpicked
        · simp [pick,hcase,List.Subperm.refl]
      · intro target available hcan
        by_cases hcase : target = .atLeast value ∧ available = left
        · obtain ⟨rfl,rfl⟩ := hcase
          have hsum : noteTotal picked =
            noteTotal short + noteTotal (reservations.lockedRest spendable exclude) :=
              spendable.stock.total_append
          simpa [pick,TargetValue.Met,hsum] using hreach
        · simp only [pick,hcase,if_false]
          cases target with
          | atLeast value => exact hcan
          | allFunds mode => exact fun note hnote => hnote
    obtain ⟨notes,hnotes,hmet⟩ := (h _ hlawful).meets hrest
    obtain ⟨selected,hselected,hall⟩ := selectSpendableNotes_ok hnotes
    obtain rfl : ReceivedNotes.ofAll picked = selected := by
      simpa [pickingSource,pick,left] using hselected
    have hunlocked : (picked.filter fun note => !reservations.locked note) = short := by
      have hkept : (short.filter fun note => !reservations.locked note) = short := by
        refine List.filter_eq_self.mpr ?_
        intro note hnote
        have hmem := hshort.subset hnote
        rw [rest_eq,List.mem_filter] at hmem
        exact hmem.2
      have hdropped : ((reservations.lockedRest spendable exclude).filter fun note =>
          !reservations.locked note) = [] := by
        refine List.filter_eq_nil_iff.mpr ?_
        intro note hnote
        rw [lockedRest_eq,List.mem_filter] at hnote
        simp [hnote.2]
      simp [picked,hkept,hdropped]
    have htotal : noteTotal notes.all = noteTotal short := by
      rw [hall,← hunlocked]
      exact (((all_ofAll picked).filter _).map fun note : PoolNote Ref => note.2.value).sum_nat
    have hvalue : value ≤ noteTotal notes.all := hmet
    omega

end Picking

/-- Whatever wallet lies below, no reserved, excluded or locked note is selected, and the selection
for a consolidation ends and meets its target whenever the rest can. The ordinary selection meets its
target over every wallet exactly when dropping the locked notes is safe. -/
theorem reservedSelection_iff (query : Query) (reservations : Reservations Ref)
    (spendable : SpendableNotes Ref) (target : TargetValue) (exclude : List Ref)
    (value maxAdditional : Nat) :
    (∀ inner : InputSource Query Ref Error, inner.Lawful query spendable →
      let source : ReservedInputSource Query Ref Error := ⟨reservations,inner⟩
      (∀ notes, source.selectSpendableNotes query target exclude = .ok notes →
        List.Subperm notes.all (reservations.rest spendable exclude)) ∧
      ∃ result, source.Consolidates query spendable value exclude maxAdditional result) ∧
    ((∀ inner : InputSource Query Ref Error, inner.Lawful query spendable →
      let source : ReservedInputSource Query Ref Error := ⟨reservations,inner⟩
      source.Selects query spendable target exclude ∧
        ∃ result, source.Consolidates query spendable value exclude maxAdditional result) ↔
      reservations.DropsSafely spendable exclude target) := by
  refine ⟨?_,?_,?_⟩
  · intro inner hinner
    exact ⟨fun notes hnotes => select_clear hinner hnotes,
      consolidates hinner value exclude maxAdditional⟩
  · intro h
    exact dropsSafely_of_selects fun inner hinner => (h inner hinner).1
  · intro hsafe inner hinner
    exact ⟨⟨fun notes hnotes => select_clear hinner hnotes,select_meets hinner hsafe⟩,
      consolidates hinner value exclude maxAdditional⟩

/-- As many notes as it takes, from the first on. -/
def takeUntil : Nat → List (PoolNote Ref) → List (PoolNote Ref)
  | _, [] => []
  | value, note :: notes =>
    if value = 0 then [] else note :: takeUntil (value - note.2.value) notes

def firstNotes : TargetValue → List (PoolNote Ref) → List (PoolNote Ref)
  | .atLeast value, notes => takeUntil value notes
  | .allFunds _, notes => notes

omit [LinearOrder Ref] in
theorem takeUntil_sublist (value : Nat) (notes : List (PoolNote Ref)) :
    (takeUntil value notes).Sublist notes := by
  induction notes generalizing value with
  | nil => exact .slnil
  | cons note notes ih =>
    rw [takeUntil]
    split
    · exact List.nil_sublist _
    · exact (ih _).cons_cons note

omit [LinearOrder Ref] in
theorem takeUntil_total (value : Nat) (notes : List (PoolNote Ref)) (h : value ≤ noteTotal notes) :
    value ≤ noteTotal (takeUntil value notes) := by
  induction notes generalizing value with
  | nil => exact h
  | cons note notes ih =>
    rw [takeUntil]
    split
    · omega
    · simp only [noteTotal,List.map_cons,List.sum_cons] at h ih ⊢
      have hrest := ih (value - note.2.value) (by omega)
      omega

theorem firstNotes_lawful (query : Query) (spendable : SpendableNotes Ref) :
    (pickingSource Query Error spendable firstNotes).Lawful query spendable := by
  apply pickingSource_lawful
  · intro target available
    cases target with
    | atLeast value => exact (takeUntil_sublist value available).subperm
    | allFunds mode => exact List.Subperm.refl _
  · intro target available hcan
    cases target with
    | atLeast value => exact takeUntil_total value available hcan
    | allFunds mode => exact fun note hnote => hnote

/-- Two Orchard notes of the same value. -/
def twoNotes : SpendableNotes Nat where
  notes := ⟨[],[⟨1,['0','7'],0,100000⟩,⟨2,['0','8'],0,100000⟩],[]⟩
  distinct := by decide

/-- The first one is locked by a migration. -/
def firstLocked : Reservations Nat := ⟨[],[(['0','7'],0)]⟩

/-- The wallet stops at the locked note, which is dropped, and the other one is not asked for. -/
theorem twoNotes_short : ¬∀ inner : InputSource Unit Nat String, inner.Lawful () twoNotes →
    let source : ReservedInputSource Unit Nat String := ⟨firstLocked,inner⟩
    source.Selects () twoNotes (.atLeast 50000) [] ∧
      ∃ result, source.Consolidates () twoNotes 50000 [] 4 result := by
  intro h
  obtain ⟨hselects,_⟩ := h (pickingSource Unit String twoNotes firstNotes)
    (firstNotes_lawful () twoNotes)
  have hcan : TargetValue.CanBeMet (firstLocked.rest twoNotes []) (.atLeast 50000) := by
    show 50000 ≤ noteTotal (firstLocked.rest twoNotes [])
    decide
  obtain ⟨notes,hnotes,hmet⟩ := hselects.meets hcan
  cases hnotes
  have hvalue : 50000 ≤ noteTotal [] := hmet
  revert hvalue
  decide

end CoppiceWallet.Proposals
