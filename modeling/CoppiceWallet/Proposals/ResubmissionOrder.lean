import CoppiceWallet.Lib.Lists
import CoppiceWallet.Lib.TopologicalOrder
import Mathlib.Data.Fintype.Card
import Mathlib.Data.List.Dedup
import Mathlib.Data.List.FinRange
import Mathlib.Data.List.Sort
import Mathlib.Data.Prod.Lex

/-!
# The order of a resubmission

A transaction comes after the listed transactions whose transparent outputs it spends, and among
those that are ready the least id comes first. What depends on itself comes last.

A candidate is its index in the list. What the source would panic on gives `none`.
-/

namespace CoppiceWallet.Proposals

open CoppiceWallet.Lib

structure ResubmittableTx (Txid Raw : Type) where
  txidBytes : Txid
  rawTx : Raw
  deriving DecidableEq

/-- What is read of a raw transaction: its id, and the ids that its transparent inputs spend from. -/
structure ReadTransaction (Txid : Type) where
  txid : Txid
  transparentBundle : Option (List Txid)
  deriving DecidableEq

structure OrderedResubmittableTx (Txid Raw : Type) where
  tx : ResubmittableTx Txid Raw
  parentTxids : List Txid
  deriving DecidableEq

/-- The queue of ready candidates, how many parents of each are still missing, and the order so
far. -/
structure TopologicalState (Txid : Type) (n : Nat) where
  ready : List (Txid ×ₗ Fin n)
  indegree : Fin n → Nat
  order : List (Fin n)

section Definitions

variable {Raw Txid : Type} [LinearOrder Txid] (read : Raw → Option (ReadTransaction Txid))
  (candidates : List (ResubmittableTx Txid Raw))

/-- The first candidate with this id. -/
def byTxid (txid : Txid) : Option (Fin candidates.length) :=
  (List.finRange candidates.length).find? fun index => decide (candidates[index].txidBytes = txid)

/-- A transaction that cannot be read, or that has another id, has no known inputs. -/
def parsedCandidate (candidate : ResubmittableTx Txid Raw) : Option (ReadTransaction Txid) :=
  match read candidate.rawTx with
  | none => none
  | some transaction =>
    if transaction.txid = candidate.txidBytes then some transaction else none

def transparentInputs (candidate : ResubmittableTx Txid Raw) : List Txid :=
  match parsedCandidate read candidate with
  | none => []
  | some transaction => transaction.transparentBundle.getD []

def parentIndices (child : Fin candidates.length) : List (Fin candidates.length) :=
  ((transparentInputs read candidates[child]).filterMap (byTxid candidates)).dedup

def parentTxidsOf (child : Fin candidates.length) : List Txid :=
  ((parentIndices read candidates child).map fun parent =>
    candidates[parent].txidBytes).insertionSort (· ≤ ·)

def childrenOf (parent : Fin candidates.length) : List (Fin candidates.length) :=
  (List.finRange candidates.length).filter fun child =>
    decide (parent ∈ parentIndices read candidates child)

def readyKey (index : Fin candidates.length) : Txid ×ₗ Fin candidates.length :=
  toLex (candidates[index].txidBytes,index)

def initialTopologicalState : TopologicalState Txid candidates.length where
  ready := (List.finRange candidates.length).foldl (fun ready index =>
    if (parentIndices read candidates index).length = 0 then
      insertAscending (readyKey candidates index) ready
    else ready) []
  indegree := fun index => (parentIndices read candidates index).length
  order := []

/-- One parent less for each of the children. -/
def releaseChildren : List (Fin candidates.length) → TopologicalState Txid candidates.length →
    Option (TopologicalState Txid candidates.length)
  | [], s => some s
  | child :: children, s =>
    match s.indegree child with
    | 0 => none
    | missing + 1 => releaseChildren children { s with
        indegree := Function.update s.indegree child missing
        ready := if missing = 0 then insertAscending (readyKey candidates child) s.ready
          else s.ready }

/-- The loop over the ready candidates; each turn takes one of them. -/
def topologicalLoop : Nat → TopologicalState Txid candidates.length →
    Option (TopologicalState Txid candidates.length)
  | 0, s => if s.ready.isEmpty then some s else none
  | fuel + 1, s =>
    match s.ready with
    | [] => some s
    | key :: ready =>
      let index := (ofLex key).2
      (releaseChildren candidates (childrenOf read candidates index)
        { s with ready := ready, order := s.order ++ [index] }).bind (topologicalLoop fuel)

/-- `sort_by`, which is stable, on what the loop did not reach. -/
def unresolved (order : List (Fin candidates.length)) : List (Fin candidates.length) :=
  ((List.finRange candidates.length).filter fun index => decide (index ∉ order)).insertionSort
    fun left right => candidates[left].txidBytes ≤ candidates[right].txidBytes

/-- Each candidate and its parents are taken out of their slots. -/
def takeCandidates (slots : Fin candidates.length → Option (ResubmittableTx Txid Raw))
    (parentTxids : Fin candidates.length → List Txid) :
    List (Fin candidates.length) → Option (List (OrderedResubmittableTx Txid Raw))
  | [] => some []
  | index :: order =>
    match slots index with
    | none => none
    | some tx =>
      (takeCandidates (Function.update slots index none) (Function.update parentTxids index [])
        order).map (⟨tx,parentTxids index⟩ :: ·)

def orderResubmittableTransactions : Option (List (OrderedResubmittableTx Txid Raw)) :=
  (topologicalLoop read candidates candidates.length
    (initialTopologicalState read candidates)).bind fun s =>
      let order := if s.order.length ≠ candidates.length then s.order ++ unresolved candidates s.order
        else s.order
      takeCandidates candidates (fun index => some candidates[index])
        (parentTxidsOf read candidates) order

end Definitions

/-!
# The loop takes the candidates in greedy order

The queue has exactly the candidates that are not taken and whose parents all are, and the count of
a candidate is the number of its parents that are not taken. The loop therefore never panics, and
ends when no candidate is ready.
-/

section Loop

variable {Raw Txid : Type} [LinearOrder Txid] (read : Raw → Option (ReadTransaction Txid))
  (candidates : List (ResubmittableTx Txid Raw))

def IsParent (parent child : Fin candidates.length) : Prop :=
  parent ∈ parentIndices read candidates child

def KeyLe (a b : Fin candidates.length) : Prop := readyKey candidates a ≤ readyKey candidates b

/-- All parents have been taken. -/
def ParentsTaken (order : List (Fin candidates.length)) (child : Fin candidates.length) : Prop :=
  ∀ parent ∈ parentIndices read candidates child, parent ∈ order

structure LoopInvariant (s : TopologicalState Txid candidates.length) : Prop where
  greedy : GreedyPrefix (fun _ => True) (IsParent read candidates) (KeyLe candidates) s.order
  indegree : ∀ child, s.indegree child =
    ((parentIndices read candidates child).filter fun parent =>
      decide (parent ∉ s.order)).length
  ready : ∀ key, key ∈ s.ready ↔ ∃ index, key = readyKey candidates index ∧ index ∉ s.order ∧
    ParentsTaken read candidates s.order index
  ascending : s.ready.Pairwise (· < ·)

variable {read candidates}

omit [LinearOrder Txid] in
@[simp] theorem readyKey_inj {a b : Fin candidates.length} :
    readyKey candidates a = readyKey candidates b ↔ a = b := by
  constructor
  · intro h
    exact congrArg (fun key => (ofLex key).2) h
  · intro h
    rw [h]

theorem nodup_parentIndices (child : Fin candidates.length) :
    (parentIndices read candidates child).Nodup :=
  List.nodup_dedup _

theorem mem_childrenOf {parent child : Fin candidates.length} :
    child ∈ childrenOf read candidates parent ↔ parent ∈ parentIndices read candidates child := by
  simp [childrenOf]

variable (read) in
theorem nodup_childrenOf (parent : Fin candidates.length) :
    (childrenOf read candidates parent).Nodup :=
  (List.nodup_finRange _).filter _

variable {s : TopologicalState Txid candidates.length}

theorem releaseChildren_spec {children : List (Fin candidates.length)} (hnodup : children.Nodup)
    (hpos : ∀ child ∈ children, 0 < s.indegree child) (hascending : s.ready.Pairwise (· < ·)) :
    ∃ s', releaseChildren candidates children s = some s' ∧ s'.order = s.order ∧
      (∀ index, s'.indegree index =
        if index ∈ children then s.indegree index - 1 else s.indegree index) ∧
      (∀ key, key ∈ s'.ready ↔ key ∈ s.ready ∨ ∃ child ∈ children,
        key = readyKey candidates child ∧ s.indegree child = 1) ∧
      s'.ready.Pairwise (· < ·) := by
  induction children generalizing s with
  | nil => exact ⟨s,rfl,rfl,by simp,by simp,hascending⟩
  | cons child children ih =>
    have hparts := List.nodup_cons.mp hnodup
    obtain ⟨missing,hmissing⟩ := Nat.exists_eq_succ_of_ne_zero
      (Nat.pos_iff_ne_zero.mp (hpos child List.mem_cons_self))
    let t : TopologicalState Txid candidates.length := { s with
      indegree := Function.update s.indegree child missing
      ready := if missing = 0 then insertAscending (readyKey candidates child) s.ready
        else s.ready }
    have hkept : ∀ other ∈ children, t.indegree other = s.indegree other := by
      intro other hother
      have hne : other ≠ child := fun h => hparts.1 (h ▸ hother)
      simp [t,hne]
    have htascending : t.ready.Pairwise (· < ·) := by
      by_cases hzero : missing = 0
      · simpa [t,hzero] using ascending_insert hascending
      · simpa [t,hzero] using hascending
    obtain ⟨s',hrun,horder,hindegree,hready,hsorted⟩ := ih hparts.2 (s := t)
      (fun other hother => by
        rw [hkept other hother]
        exact hpos other (List.mem_cons_of_mem _ hother)) htascending
    refine ⟨s',?_,horder,?_,?_,hsorted⟩
    · simpa [releaseChildren,hmissing] using hrun
    · intro index
      rw [hindegree]
      by_cases hsame : index = child
      · subst hsame
        simp [hparts.1,t,hmissing]
      · by_cases hmem : index ∈ children
        · simp [hmem,hkept index hmem]
        · simp [hmem,hsame,t]
    · intro key
      rw [hready]
      have hrest : (∃ other ∈ children, key = readyKey candidates other ∧ t.indegree other = 1) ↔
          ∃ other ∈ children, key = readyKey candidates other ∧ s.indegree other = 1 := by
        constructor
        · rintro ⟨other,hother,hkey,hone⟩
          exact ⟨other,hother,hkey,hkept other hother ▸ hone⟩
        · rintro ⟨other,hother,hkey,hone⟩
          exact ⟨other,hother,hkey,(hkept other hother).symm ▸ hone⟩
      rw [hrest]
      by_cases hzero : missing = 0
      · simp [t,hzero,hmissing]
        tauto
      · simp [t,hzero,hmissing]

theorem missing_eq_zero {order : List (Fin candidates.length)} {child : Fin candidates.length} :
    ((parentIndices read candidates child).filter fun parent =>
      decide (parent ∉ order)).length = 0 ↔ ParentsTaken read candidates order child := by
  simp [ParentsTaken,List.filter_eq_nil_iff]

variable (read) in
theorem missing_snoc (child : Fin candidates.length) {index : Fin candidates.length}
    {order : List (Fin candidates.length)} (hindex : index ∉ order) :
    ((parentIndices read candidates child).filter fun parent =>
        decide (parent ∉ order ++ [index])).length =
      if index ∈ parentIndices read candidates child then
        ((parentIndices read candidates child).filter fun parent =>
          decide (parent ∉ order)).length - 1
      else ((parentIndices read candidates child).filter fun parent =>
        decide (parent ∉ order)).length := by
  have hfilter : ((parentIndices read candidates child).filter fun parent =>
        decide (parent ∉ order ++ [index])) =
      ((parentIndices read candidates child).filter fun parent =>
        decide (parent ∉ order)).erase index := by
    rw [((nodup_parentIndices child).filter _).erase_eq_filter,List.filter_filter]
    apply List.filter_congr
    intro parent _
    by_cases hsame : parent = index <;> simp [hsame]
  rw [hfilter,List.length_erase]
  simp [hindex]

variable (read candidates) in
theorem loopInvariant_initial :
    LoopInvariant read candidates (initialTopologicalState read candidates) := by
  have hfold : ∀ (indices : List (Fin candidates.length)) (ready : List (Txid ×ₗ Fin candidates.length)),
      ready.Pairwise (· < ·) →
      (indices.foldl (fun ready index =>
        if (parentIndices read candidates index).length = 0 then
          insertAscending (readyKey candidates index) ready
        else ready) ready).Pairwise (· < ·) ∧
      ∀ key, key ∈ indices.foldl (fun ready index =>
        if (parentIndices read candidates index).length = 0 then
          insertAscending (readyKey candidates index) ready
        else ready) ready ↔ key ∈ ready ∨ ∃ index ∈ indices, key = readyKey candidates index ∧
          parentIndices read candidates index = [] := by
    intro indices
    induction indices with
    | nil =>
      intro ready hready
      exact ⟨hready,by simp⟩
    | cons index indices ih =>
      intro ready hready
      by_cases hroot : parentIndices read candidates index = []
      · have hstep := ih (insertAscending (readyKey candidates index) ready)
          (ascending_insert hready)
        constructor
        · simpa [hroot] using hstep.1
        · intro key
          simp only [List.foldl_cons,hroot,List.length_nil,if_true]
          rw [hstep.2,mem_insertAscending]
          simp [hroot]
          tauto
      · have hstep := ih ready hready
        constructor
        · simpa [hroot] using hstep.1
        · intro key
          simp only [List.foldl_cons,List.length_eq_zero_iff,hroot,if_false]
          simpa [hroot] using hstep.2 key
  have hready := hfold (List.finRange candidates.length) [] List.Pairwise.nil
  constructor
  · exact greedyPrefix_nil
  · intro child
    simp [initialTopologicalState]
  · intro key
    rw [initialTopologicalState,hready.2]
    simp [ParentsTaken,List.eq_nil_iff_forall_not_mem]
  · exact hready.1

/-- After `index` has been taken, a candidate is ready if it was so before, or if `index` was the
last parent that it missed. -/
theorem ready_snoc (h : LoopInvariant read candidates s) {index : Fin candidates.length}
    {rest : List (Txid ×ₗ Fin candidates.length)}
    (hready : s.ready = readyKey candidates index :: rest) (d : Fin candidates.length) :
    (readyKey candidates d ∈ rest ∨ index ∈ parentIndices read candidates d ∧ s.indegree d = 1) ↔
      d ∉ s.order ++ [index] ∧ ParentsTaken read candidates (s.order ++ [index]) d := by
  have hof : ∀ d, readyKey candidates d ∈ s.ready ↔
      d ∉ s.order ∧ ParentsTaken read candidates s.order d := by
    intro d
    rw [h.ready]
    constructor
    · rintro ⟨e,heq,he⟩
      rw [readyKey_inj.mp heq]
      exact he
    · exact fun hd => ⟨d,rfl,hd⟩
  have hindex := (hof index).mp (by simp [hready])
  have hsorted := h.ascending
  rw [hready,List.pairwise_cons] at hsorted
  have hrest : readyKey candidates d ∈ rest ↔
      d ≠ index ∧ d ∉ s.order ∧ ParentsTaken read candidates s.order d := by
    rw [← hof d,hready,List.mem_cons,readyKey_inj]
    constructor
    · intro hmem
      refine ⟨?_,.inr hmem⟩
      rintro rfl
      exact lt_irrefl _ (hsorted.1 _ hmem)
    · rintro ⟨hne,heq | hmem⟩
      · exact absurd heq hne
      · exact hmem
  rw [hrest,List.mem_append,List.mem_singleton,not_or,h.indegree]
  by_cases hparent : index ∈ parentIndices read candidates d
  · have hself : d ≠ index := fun heq => hindex.1 (hindex.2 index (heq ▸ hparent))
    have hnew : d ∉ s.order := fun hd => hindex.1 (h.greedy.predecessor_mem hd hparent)
    have hopen : ¬ ParentsTaken read candidates s.order d := fun htaken =>
      hindex.1 (htaken index hparent)
    have hmissing := missing_snoc read d hindex.1
    rw [if_pos hparent] at hmissing
    have hpositive : ((parentIndices read candidates d).filter fun parent =>
        decide (parent ∉ s.order)).length ≠ 0 := fun hzero => hopen (missing_eq_zero.mp hzero)
    have hafter : ParentsTaken read candidates (s.order ++ [index]) d ↔
        ((parentIndices read candidates d).filter fun parent =>
          decide (parent ∉ s.order)).length - 1 = 0 := by
      rw [← missing_eq_zero,hmissing]
    rw [hafter]
    simp only [hself,hnew,hopen,hparent,ne_eq,not_false_eq_true,and_false,true_and,false_or]
    omega
  · have hsame : ParentsTaken read candidates (s.order ++ [index]) d ↔
        ParentsTaken read candidates s.order d := by
      apply forall₂_congr
      intro parent hmem
      have hne : parent ≠ index := fun heq => hparent (heq ▸ hmem)
      simp [hne]
    rw [hsame]
    simp only [hparent,false_and,or_false]
    tauto

theorem loopInvariant_step (h : LoopInvariant read candidates s)
    {key : Txid ×ₗ Fin candidates.length} {rest : List (Txid ×ₗ Fin candidates.length)}
    (hready : s.ready = key :: rest) :
    ∃ s', releaseChildren candidates (childrenOf read candidates (ofLex key).2)
        { s with ready := rest, order := s.order ++ [(ofLex key).2] } = some s' ∧
      s'.order = s.order ++ [(ofLex key).2] ∧ LoopInvariant read candidates s' := by
  obtain ⟨index,rfl,hnew,htaken⟩ := (h.ready key).mp (by simp [hready])
  have hsorted := h.ascending
  rw [hready,List.pairwise_cons] at hsorted
  have hself : index ∉ parentIndices read candidates index := fun hself => hnew (htaken index hself)
  have hpos : ∀ child ∈ childrenOf read candidates index, 0 < s.indegree child := by
    intro child hchild
    rw [h.indegree]
    apply List.length_pos_of_mem (a := index)
    simp [mem_childrenOf.mp hchild,hnew]
  obtain ⟨s',hrun,horder,hindegree,hkeys,hascending⟩ := releaseChildren_spec
    (nodup_childrenOf read index)
    (s := { s with ready := rest, order := s.order ++ [index] }) hpos hsorted.2
  have hcount : ∀ child, s'.indegree child =
      ((parentIndices read candidates child).filter fun parent =>
        decide (parent ∉ s.order ++ [index])).length := by
    intro child
    rw [hindegree,missing_snoc read child hnew]
    simp only [mem_childrenOf,h.indegree]
  refine ⟨s',hrun,horder,?_,?_,?_,hascending⟩
  · rw [horder]
    apply h.greedy.snoc trivial hnew htaken
    intro d _ hd hdtaken
    have hmem : readyKey candidates d ∈ s.ready := (h.ready _).mpr ⟨d,rfl,hd,hdtaken⟩
    rw [hready] at hmem
    rcases List.mem_cons.mp hmem with heq | hmem
    · exact heq.ge
    · exact (hsorted.1 _ hmem).le
  · intro child
    rw [horder]
    exact hcount child
  · intro key
    have hkey : key ∈ s'.ready ↔ ∃ d, key = readyKey candidates d ∧
        (readyKey candidates d ∈ rest ∨
          index ∈ parentIndices read candidates d ∧ s.indegree d = 1) := by
      rw [hkeys]
      constructor
      · rintro (hmem | ⟨d,hd,heq,hone⟩)
        · obtain ⟨d,rfl,_⟩ := (h.ready key).mp (by simp [hready,hmem])
          exact ⟨d,rfl,.inl hmem⟩
        · exact ⟨d,heq,.inr ⟨mem_childrenOf.mp hd,hone⟩⟩
      · rintro ⟨d,rfl,hmem | ⟨hparent,hone⟩⟩
        · exact .inl hmem
        · exact .inr ⟨d,mem_childrenOf.mpr hparent,rfl,hone⟩
    rw [hkey,horder]
    simp only [ready_snoc h hready]

theorem topologicalLoop_spec (fuel : Nat) (h : LoopInvariant read candidates s)
    (hfuel : candidates.length ≤ s.order.length + fuel) :
    ∃ s', topologicalLoop read candidates fuel s = some s' ∧ LoopInvariant read candidates s' ∧
      s'.ready = [] := by
  induction fuel generalizing s with
  | zero =>
    -- every candidate has been taken
    have hall : ∀ index, index ∈ s.order := by
      intro index
      by_contra hnew
      have hle := (List.nodup_cons.mpr ⟨hnew,h.greedy.nodup⟩).length_le_card
      rw [List.length_cons,Fintype.card_fin] at hle
      omega
    have hempty : s.ready = [] := by
      apply List.eq_nil_iff_forall_not_mem.mpr
      intro key hkey
      obtain ⟨index,_,hnew,_⟩ := (h.ready key).mp hkey
      exact hnew (hall index)
    exact ⟨s,by simp [topologicalLoop,hempty],h,hempty⟩
  | succ fuel ih =>
    cases hready : s.ready with
    | nil => exact ⟨s,by simp [topologicalLoop,hready],h,hready⟩
    | cons key rest =>
      obtain ⟨t,hrun,horder,ht⟩ := loopInvariant_step h hready
      have hlen : candidates.length ≤ t.order.length + fuel := by
        rw [horder,List.length_append,List.length_singleton]
        omega
      obtain ⟨s',hloop,hs',hempty⟩ := ih ht hlen
      refine ⟨s',?_,hs',hempty⟩
      simp only [topologicalLoop,hready,hrun,Option.bind_some]
      exact hloop

end Loop

/-!
# The ordered candidates

The result has every candidate once. A candidate that is not on or below a cycle comes after its
parents, and when the ids are different the result does not depend on how the candidates were
listed.
-/

section Sorted

variable {Raw Txid : Type} [LinearOrder Txid] (read : Raw → Option (ReadTransaction Txid))
  (candidates : List (ResubmittableTx Txid Raw))

def orderedCandidate (index : Fin candidates.length) : OrderedResubmittableTx Txid Raw :=
  ⟨candidates[index],parentTxidsOf read candidates index⟩

/-- The id is the id of one of the candidates. -/
def Listed (txid : Txid) : Prop := ∃ candidate ∈ candidates, candidate.txidBytes = txid

variable {read candidates}

omit [LinearOrder Txid] in
theorem listed_txid (index : Fin candidates.length) :
    Listed candidates candidates[index].txidBytes :=
  ⟨candidates[index],List.getElem_mem index.isLt,rfl⟩

variable {index : Fin candidates.length}

theorem byTxid_some {txid : Txid} (h : byTxid candidates txid = some index) :
    candidates[index].txidBytes = txid := by
  simpa using List.find?_some h

theorem byTxid_listed {txid : Txid} (h : Listed candidates txid) :
    ∃ index, byTxid candidates txid = some index := by
  obtain ⟨candidate,hmem,htxid⟩ := h
  obtain ⟨i,hi,rfl⟩ := List.mem_iff_getElem.mp hmem
  cases hfind : byTxid candidates txid with
  | some index => exact ⟨index,rfl⟩
  | none =>
    have hnone := List.find?_eq_none.mp hfind ⟨i,hi⟩ (List.mem_finRange _)
    simp [htxid] at hnone

variable {child : Fin candidates.length}

theorem mem_parentIndices {parent : Fin candidates.length} :
    parent ∈ parentIndices read candidates child ↔
      candidates[parent].txidBytes ∈ transparentInputs read candidates[child] ∧
        byTxid candidates candidates[parent].txidBytes = some parent := by
  simp only [parentIndices,List.mem_dedup,List.mem_filterMap]
  constructor
  · rintro ⟨txid,hinput,hfind⟩
    have htxid := byTxid_some hfind
    subst htxid
    exact ⟨hinput,hfind⟩
  · exact fun h => ⟨_,h⟩

theorem mem_parentTxidsOf {txid : Txid} : txid ∈ parentTxidsOf read candidates child ↔
      txid ∈ transparentInputs read candidates[child] ∧ Listed candidates txid := by
  simp only [parentTxidsOf,List.mem_insertionSort,List.mem_map]
  constructor
  · rintro ⟨parent,hparent,rfl⟩
    exact ⟨(mem_parentIndices.mp hparent).1,listed_txid parent⟩
  · rintro ⟨hinput,hlisted⟩
    obtain ⟨parent,hfind⟩ := byTxid_listed hlisted
    have htxid := byTxid_some hfind
    subst htxid
    exact ⟨parent,mem_parentIndices.mpr ⟨hinput,hfind⟩,rfl⟩

theorem nodup_parentTxidsOf (child : Fin candidates.length) :
    (parentTxidsOf read candidates child).Nodup := by
  apply (List.perm_insertionSort _ _).nodup_iff.mpr
  apply (nodup_parentIndices child).map_on
  intro a ha b hb heq
  have hb' := (mem_parentIndices.mp hb).2
  rw [← heq,(mem_parentIndices.mp ha).2] at hb'
  exact Option.some.inj hb'

variable {order : List (Fin candidates.length)}

theorem takeCandidates_spec (hnodup : order.Nodup)
    (slots : Fin candidates.length → Option (ResubmittableTx Txid Raw))
    (parentTxids : Fin candidates.length → List Txid)
    (hslots : ∀ index ∈ order, slots index = some candidates[index])
    (hparents : ∀ index ∈ order, parentTxids index = parentTxidsOf read candidates index) :
    takeCandidates candidates slots parentTxids order =
      some (order.map (orderedCandidate read candidates)) := by
  induction order generalizing slots parentTxids with
  | nil => rfl
  | cons index order ih =>
    have hparts := List.nodup_cons.mp hnodup
    have hne : ∀ other ∈ order, other ≠ index := fun other hother heq => hparts.1 (heq ▸ hother)
    have hrest := ih hparts.2 (Function.update slots index none)
      (Function.update parentTxids index [])
      (fun other hother => by
        simpa [hne other hother] using hslots other (List.mem_cons_of_mem _ hother))
      (fun other hother => by
        simpa [hne other hother] using hparents other (List.mem_cons_of_mem _ hother))
    simp [takeCandidates,hslots index List.mem_cons_self,hparents index List.mem_cons_self,hrest,
      orderedCandidate]

theorem mem_unresolved : index ∈ unresolved candidates order ↔ index ∉ order := by
  simp [unresolved]

theorem nodup_unresolved (order : List (Fin candidates.length)) :
    (unresolved candidates order).Nodup :=
  (List.perm_insertionSort _ _).nodup_iff.mpr ((List.nodup_finRange _).filter _)

variable (read candidates) in
theorem orderResubmittable_spec : ∃ taken : List (Fin candidates.length),
    GreedyPrefix (fun _ => True) (IsParent read candidates) (KeyLe candidates) taken ∧
    Exhausted (fun _ => True) (IsParent read candidates) taken ∧
    orderResubmittableTransactions read candidates =
      some ((taken ++ unresolved candidates taken).map (orderedCandidate read candidates)) := by
  obtain ⟨s,hrun,hs,hready⟩ := topologicalLoop_spec candidates.length
    (loopInvariant_initial read candidates) (by simp)
  have hall : Exhausted (fun _ => True) (IsParent read candidates) s.order := by
    intro d _ htaken
    by_contra hnew
    have hmem := (hs.ready (readyKey candidates d)).mpr ⟨d,rfl,hnew,htaken⟩
    simp [hready] at hmem
  have horder : (if s.order.length ≠ candidates.length then
      s.order ++ unresolved candidates s.order else s.order) =
      s.order ++ unresolved candidates s.order := by
    by_cases hlen : s.order.length = candidates.length
    · have hnone : unresolved candidates s.order = [] := by
        apply List.eq_nil_iff_forall_not_mem.mpr
        intro index hindex
        have hle := (List.nodup_cons.mpr ⟨mem_unresolved.mp hindex,hs.greedy.nodup⟩).length_le_card
        rw [List.length_cons,Fintype.card_fin] at hle
        omega
      simp [hlen,hnone]
    · simp [hlen]
  have hnodup : (s.order ++ unresolved candidates s.order).Nodup := by
    apply hs.greedy.nodup.append (nodup_unresolved _)
    intro index hindex hindex'
    exact mem_unresolved.mp hindex' hindex
  refine ⟨s.order,hs.greedy,hall,?_⟩
  simp only [orderResubmittableTransactions,hrun,Option.bind_some,horder]
  exact takeCandidates_spec hnodup _ _ (fun _ _ => rfl) (fun _ _ => rfl)

variable {taken : List (Fin candidates.length)}

theorem mem_taken (hgreedy : GreedyPrefix (fun _ => True) (IsParent read candidates)
      (KeyLe candidates) taken)
    (hall : Exhausted (fun _ => True) (IsParent read candidates) taken) :
    index ∈ taken ↔ ¬ OnOrBelowCycle (IsParent read candidates) index := by
  rw [← acc_iff_not_onOrBelowCycle]
  constructor
  · exact hgreedy.acc
  · exact fun hacc => mem_of_acc hall (fun _ _ _ => trivial) hacc trivial

theorem nodup_order (hgreedy : GreedyPrefix (fun _ => True) (IsParent read candidates)
      (KeyLe candidates) taken) : (taken ++ unresolved candidates taken).Nodup := by
  apply hgreedy.nodup.append (nodup_unresolved _)
  intro index hindex hindex'
  exact mem_unresolved.mp hindex' hindex

theorem perm_finRange_order (hgreedy : GreedyPrefix (fun _ => True) (IsParent read candidates)
      (KeyLe candidates) taken) :
    (taken ++ unresolved candidates taken).Perm (List.finRange candidates.length) := by
  apply (List.perm_ext_iff_of_nodup (nodup_order hgreedy) (List.nodup_finRange _)).mpr
  intro index
  simp only [List.mem_append,mem_unresolved,List.mem_finRange,iff_true]
  exact em _

theorem parents_before (hgreedy : GreedyPrefix (fun _ => True) (IsParent read candidates)
      (KeyLe candidates) taken) {before after : List (Fin candidates.length)}
    {parent : Fin candidates.length}
    (horder : taken ++ unresolved candidates taken = before ++ child :: after)
    (hchild : child ∈ taken) (hparent : parent ∈ parentIndices read candidates child) :
    parent ∈ before := by
  have hnodup := nodup_order hgreedy
  rcases List.append_eq_append_iff.mp horder with ⟨rest,hbefore,_⟩ | ⟨rest,htaken,hrest⟩
  · rw [horder,List.nodup_middle,List.nodup_cons] at hnodup
    exact absurd (by simp [hbefore,hchild]) hnodup.1
  · cases rest with
    | nil =>
      have hlast : child ∈ unresolved candidates taken := by
        rw [List.nil_append] at hrest
        simp [← hrest]
      exact absurd hchild (mem_unresolved.mp hlast)
    | cons first rest =>
      rw [List.cons_append,List.cons.injEq] at hrest
      exact hgreedy.ready before child rest (hrest.1 ▸ htaken) parent hparent

theorem map_tx_perm (hgreedy : GreedyPrefix (fun _ => True) (IsParent read candidates)
      (KeyLe candidates) taken) :
    (((taken ++ unresolved candidates taken).map (orderedCandidate read candidates)).map
      (·.tx)).Perm candidates := by
  have hperm := (perm_finRange_order hgreedy).map fun index => candidates[index]
  rw [List.map_map]
  have hall : (List.finRange candidates.length).map (fun index => candidates[index]) =
      candidates := by
    simp
  rw [hall] at hperm
  exact hperm

variable (read candidates) in
/-- The parents of a transaction among the candidates, by their ids. -/
def TxidParent (parent child : Txid) : Prop :=
  ∃ candidate ∈ candidates, candidate.txidBytes = child ∧
    parent ∈ transparentInputs read candidate ∧ Listed candidates parent

omit [LinearOrder Txid] in
theorem txid_injective (hdistinct : (candidates.map (·.txidBytes)).Nodup) :
    Function.Injective fun index : Fin candidates.length => candidates[index].txidBytes := by
  intro a b heq
  have hget := List.inj_on_of_nodup_map hdistinct (List.getElem_mem a.isLt)
    (List.getElem_mem b.isLt) heq
  have hnodup := hdistinct.of_map
  exact Fin.ext (hnodup.getElem_inj_iff.mp hget)

theorem txidParent_iff (hdistinct : (candidates.map (·.txidBytes)).Nodup) (txid : Txid)
    (child : Fin candidates.length) :
    TxidParent read candidates txid candidates[child].txidBytes ↔
      ∃ parent, IsParent read candidates parent child ∧ candidates[parent].txidBytes = txid := by
  constructor
  · rintro ⟨candidate,hmem,heq,hinput,hlisted⟩
    have hsame := List.inj_on_of_nodup_map hdistinct hmem (List.getElem_mem child.isLt) heq
    obtain ⟨parent,hfind⟩ := byTxid_listed hlisted
    have htxid := byTxid_some hfind
    subst htxid
    exact ⟨parent,mem_parentIndices.mpr ⟨hsame ▸ hinput,hfind⟩,rfl⟩
  · rintro ⟨parent,hparent,rfl⟩
    exact ⟨candidates[child],List.getElem_mem child.isLt,rfl,(mem_parentIndices.mp hparent).1,
      listed_txid parent⟩

theorem keyLe_txid {a b : Fin candidates.length} (h : KeyLe candidates a b) :
    candidates[a].txidBytes ≤ candidates[b].txidBytes := by
  rcases Prod.Lex.le_iff.mp h with hlt | ⟨heq,_⟩
  · exact le_of_lt hlt
  · exact le_of_eq heq

theorem greedy_txids (hdistinct : (candidates.map (·.txidBytes)).Nodup)
    (hgreedy : GreedyPrefix (fun _ => True) (IsParent read candidates) (KeyLe candidates) taken)
    (hall : Exhausted (fun _ => True) (IsParent read candidates) taken) :
    GreedyPrefix (Listed candidates) (TxidParent read candidates) (· ≤ ·)
        (taken.map fun index => candidates[index].txidBytes) ∧
      Exhausted (Listed candidates) (TxidParent read candidates)
        (taken.map fun index => candidates[index].txidBytes) := by
  have hnode : ∀ txid, Listed candidates txid ↔
      ∃ index : Fin candidates.length, True ∧ candidates[index].txidBytes = txid := by
    intro txid
    constructor
    · rintro ⟨candidate,hmem,rfl⟩
      obtain ⟨i,hi,rfl⟩ := List.mem_iff_getElem.mp hmem
      exact ⟨⟨i,hi⟩,trivial,rfl⟩
    · rintro ⟨index,_,rfl⟩
      exact listed_txid index
  constructor
  · exact hgreedy.map (txid_injective hdistinct) hnode (txidParent_iff hdistinct)
      fun _ _ => keyLe_txid
  · exact hall.map (txid_injective hdistinct) hnode (txidParent_iff hdistinct)

theorem unresolved_txids_sorted (order : List (Fin candidates.length)) :
    ((unresolved candidates order).map fun index => candidates[index].txidBytes).Pairwise
      (· ≤ ·) := by
  apply List.pairwise_map.mpr
  have htotal : Std.Total fun left right : Fin candidates.length =>
      candidates[left].txidBytes ≤ candidates[right].txidBytes := ⟨fun _ _ => le_total _ _⟩
  have htrans : IsTrans (Fin candidates.length) fun left right =>
      candidates[left].txidBytes ≤ candidates[right].txidBytes := ⟨fun _ _ _ => le_trans⟩
  exact List.pairwise_insertionSort _ _

theorem mem_unresolved_txids (hdistinct : (candidates.map (·.txidBytes)).Nodup)
    {txid : Txid} :
    (txid ∈ (unresolved candidates order).map fun index => candidates[index].txidBytes) ↔
      Listed candidates txid ∧
        txid ∉ order.map fun index => candidates[index].txidBytes := by
  simp only [List.mem_map,mem_unresolved,not_exists,not_and]
  constructor
  · rintro ⟨index,hnew,rfl⟩
    refine ⟨listed_txid index,?_⟩
    intro other hother heq
    exact hnew (txid_injective hdistinct heq ▸ hother)
  · rintro ⟨⟨candidate,hmem,rfl⟩,hnew⟩
    obtain ⟨i,hi,rfl⟩ := List.mem_iff_getElem.mp hmem
    exact ⟨⟨i,hi⟩,fun hmem => hnew ⟨i,hi⟩ hmem rfl,rfl⟩

variable {candidates' : List (ResubmittableTx Txid Raw)}

theorem parentTxidsOf_congr (hsame : ∀ txid, Listed candidates txid ↔ Listed candidates' txid)
    {index' : Fin candidates'.length} (heq : candidates[index] = candidates'[index']) :
    parentTxidsOf read candidates index = parentTxidsOf read candidates' index' := by
  have hperm : (parentTxidsOf read candidates index).Perm
      (parentTxidsOf read candidates' index') := by
    apply (List.perm_ext_iff_of_nodup (nodup_parentTxidsOf _) (nodup_parentTxidsOf _)).mpr
    intro txid
    rw [mem_parentTxidsOf,mem_parentTxidsOf,heq,hsame]
  exact hperm.eq_of_pairwise (fun a b _ _ => le_antisymm) (List.pairwise_insertionSort _ _)
    (List.pairwise_insertionSort _ _)

variable (read) in
theorem orderResubmittable_perm (hdistinct : (candidates.map (·.txidBytes)).Nodup)
    (hperm : candidates.Perm candidates') :
    orderResubmittableTransactions read candidates =
      orderResubmittableTransactions read candidates' := by
  have hdistinct' : (candidates'.map (·.txidBytes)).Nodup :=
    (hperm.map _).nodup_iff.mp hdistinct
  have hlisted : Listed candidates = Listed candidates' := by
    funext txid
    simp only [Listed,hperm.mem_iff]
  have hparent : TxidParent read candidates = TxidParent read candidates' := by
    funext parent child
    simp only [TxidParent,hperm.mem_iff,hlisted]
  obtain ⟨taken,hgreedy,hall,hrun⟩ := orderResubmittable_spec read candidates
  obtain ⟨taken',hgreedy',hall',hrun'⟩ := orderResubmittable_spec read candidates'
  have htxids := greedy_txids hdistinct hgreedy hall
  have htxids' := greedy_txids hdistinct' hgreedy' hall'
  rw [← hlisted,← hparent] at htxids'
  have htaken := htxids.1.unique (fun _ _ => le_antisymm) htxids.2 htxids'.1 htxids'.2
  have hrest : ((unresolved candidates taken).map fun index => candidates[index].txidBytes) =
      (unresolved candidates' taken').map fun index => candidates'[index].txidBytes := by
    have hsame : ((unresolved candidates taken).map fun index => candidates[index].txidBytes).Perm
        ((unresolved candidates' taken').map fun index => candidates'[index].txidBytes) := by
      apply (List.perm_ext_iff_of_nodup ((nodup_unresolved _).map (txid_injective hdistinct))
        ((nodup_unresolved _).map (txid_injective hdistinct'))).mpr
      intro txid
      rw [mem_unresolved_txids hdistinct,mem_unresolved_txids hdistinct',hlisted,htaken]
    exact hsame.eq_of_pairwise (fun a b _ _ => le_antisymm) (unresolved_txids_sorted _)
      (unresolved_txids_sorted _)
  have hids : ((taken ++ unresolved candidates taken).map fun index =>
        candidates[index].txidBytes) =
      (taken' ++ unresolved candidates' taken').map fun index => candidates'[index].txidBytes := by
    rw [List.map_append,List.map_append,htaken,hrest]
  have hforall : List.Forall₂ (fun (i : Fin candidates.length) (j : Fin candidates'.length) =>
      candidates[i].txidBytes = candidates'[j].txidBytes) (taken ++ unresolved candidates taken)
      (taken' ++ unresolved candidates' taken') := by
    have hmapped : List.Forall₂ (· = ·)
        ((taken ++ unresolved candidates taken).map fun index => candidates[index].txidBytes)
        ((taken' ++ unresolved candidates' taken').map fun index =>
          candidates'[index].txidBytes) := by
      rw [hids]
      exact List.forall₂_same.mpr fun _ _ => rfl
    simpa only [List.forall₂_map_left_iff,List.forall₂_map_right_iff] using hmapped
  rw [hrun,hrun']
  congr 1
  apply Eq.symm
  apply forall₂_map_eq hforall
  intro i j heq
  have hentry : candidates[i] = candidates'[j] :=
    List.inj_on_of_nodup_map hdistinct (List.getElem_mem i.isLt)
      (hperm.mem_iff.mpr (List.getElem_mem j.isLt)) heq
  simp only [orderedCandidate,hentry,OrderedResubmittableTx.mk.injEq,true_and]
  exact (parentTxidsOf_congr (fun txid => by rw [hlisted]) hentry).symm

end Sorted

end CoppiceWallet.Proposals
