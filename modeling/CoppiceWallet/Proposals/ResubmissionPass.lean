import CoppiceWallet.Proposals.ResubmissionOrder

/-!
# A pass over the pending transactions

The ordered transactions are handed to the server one after the other, each at most twice, and only
when the parents have been accepted in the same pass. The answers and the cancellation are streams.
-/

namespace CoppiceWallet.Proposals

open CoppiceWallet.Lib

structure ResubmitStats where
  attempted : Nat
  succeeded : Nat
  failed : Nat
  deriving DecidableEq

/-- The default of the statistics. -/
def noResubmitStats : ResubmitStats := ⟨0,0,0⟩

/-- A transaction handed to the server: its position in the ordered list, and the answer. -/
structure Sending where
  position : Nat
  accepted : Bool
  deriving DecidableEq

/-- How often the cancellation has been looked at, and what has been done so far. -/
structure PassState (Txid : Type) where
  exitChecks : Nat
  sendings : List Sending
  succeededTxids : List Txid
  succeeded : Nat
  failed : Nat

structure PassReport where
  stats : ResubmitStats
  sendings : List Sending
  deriving DecidableEq

section Definitions

variable {Txid Raw : Type} [DecidableEq Txid]

def PassState.sent (s : PassState Txid) (position : Nat) (accepted : Bool) : PassState Txid :=
  { s with sendings := s.sendings ++ [⟨position,accepted⟩] }

def PassState.success (s : PassState Txid) (txid : Txid) : PassState Txid :=
  { s with succeeded := s.succeeded + 1, succeededTxids := s.succeededTxids ++ [txid] }

def PassState.failure (s : PassState Txid) : PassState Txid := { s with failed := s.failed + 1 }

def PassState.checked (s : PassState Txid) : PassState Txid :=
  { s with exitChecks := s.exitChecks + 1 }

def resubmitDependenciesSucceeded (candidate : OrderedResubmittableTx Txid Raw)
    (succeededTxids : List Txid) : Bool :=
  candidate.parentTxids.all fun txid => decide (txid ∈ succeededTxids)

/-- The body of the loop for one transaction; `false` breaks out of the loop. -/
def resubmitCandidate (shouldExit send : Nat → Bool) (position : Nat)
    (candidate : OrderedResubmittableTx Txid Raw) (s : PassState Txid) : PassState Txid × Bool :=
  if shouldExit s.exitChecks then (s.checked,false)
  else if resubmitDependenciesSucceeded candidate s.succeededTxids = false then
    (s.checked.failure,true)
  else if send s.sendings.length then
    ((s.checked.sent position true).success candidate.tx.txidBytes,true)
  else if shouldExit (s.exitChecks + 1) then
    ((s.checked.sent position false).checked.failure,false)
  else if send (s.sendings.length + 1) then
    (((s.checked.sent position false).checked.sent position true).success
      candidate.tx.txidBytes,true)
  else (((s.checked.sent position false).checked.sent position false).failure,true)

def resubmitFrom (shouldExit send : Nat → Bool) :
    Nat → List (OrderedResubmittableTx Txid Raw) → PassState Txid → PassState Txid
  | _, [], s => s
  | position, candidate :: candidates, s =>
    let next := resubmitCandidate shouldExit send position candidate s
    if next.2 then resubmitFrom shouldExit send (position + 1) candidates next.1 else next.1

end Definitions

variable {Txid Raw : Type} [LinearOrder Txid]

/-- The pass, with the answer of the database; `none` where the ordering would panic. -/
def resubmitPendingTransactions {E : Type} (read : Raw → Option (ReadTransaction Txid))
    (shouldExit send : Nat → Bool) (query : Except E (List (ResubmittableTx Txid Raw))) :
    Option PassReport :=
  if shouldExit 0 then some ⟨noResubmitStats,[]⟩
  else
    match query with
    | .error _ => some ⟨noResubmitStats,[]⟩
    | .ok candidates =>
      (orderResubmittableTransactions read candidates).map fun ordered =>
        if ordered.isEmpty then ⟨noResubmitStats,[]⟩
        else
          let s := resubmitFrom shouldExit send 0 ordered ⟨1,[],[],0,0⟩
          ⟨⟨ordered.length,s.succeeded,s.failed⟩,s.sendings⟩

section Loop

omit [LinearOrder Txid]
variable [DecidableEq Txid] {shouldExit send : Nat → Bool}

/-- What happens to one transaction: it is handed over at most twice, and only when its parents
were accepted; without a cancellation the loop goes on, and it is counted once. -/
theorem resubmitCandidate_spec (shouldExit send : Nat → Bool) (position : Nat)
    (candidate : OrderedResubmittableTx Txid Raw) (s : PassState Txid) :
    ∃ answers : List Bool, answers.length ≤ 2 ∧
      (resubmitCandidate shouldExit send position candidate s).1.sendings =
        s.sendings ++ answers.map (Sending.mk position) ∧
      (resubmitCandidate shouldExit send position candidate s).1.succeededTxids =
        s.succeededTxids ++ (if true ∈ answers then [candidate.tx.txidBytes] else []) ∧
      (answers ≠ [] → ∀ txid ∈ candidate.parentTxids, txid ∈ s.succeededTxids) ∧
      ((∀ k, shouldExit k = false) →
        (resubmitCandidate shouldExit send position candidate s).2 = true ∧
        (resubmitCandidate shouldExit send position candidate s).1.succeeded +
          (resubmitCandidate shouldExit send position candidate s).1.failed =
            s.succeeded + s.failed + 1) := by
  unfold resubmitCandidate
  by_cases hexit : shouldExit s.exitChecks = true
  · refine ⟨[],by simp,by simp [hexit,PassState.checked],by simp [hexit,PassState.checked],
      by simp,?_⟩
    intro hnever
    simp [hnever] at hexit
  by_cases hready : resubmitDependenciesSucceeded candidate s.succeededTxids = true
  · have hparents : ∀ txid ∈ candidate.parentTxids, txid ∈ s.succeededTxids := by
      simpa [resubmitDependenciesSucceeded] using hready
    by_cases hfirst : send s.sendings.length = true
    · refine ⟨[true],by simp,?_,?_,fun _ => hparents,?_⟩
      · simp [hexit,hready,hfirst,PassState.checked,PassState.sent,PassState.success]
      · simp [hexit,hready,hfirst,PassState.checked,PassState.sent,PassState.success]
      · simp [hexit,hready,hfirst,PassState.checked,PassState.sent,PassState.success]
        omega
    by_cases hstop : shouldExit (s.exitChecks + 1) = true
    · refine ⟨[false],by simp,?_,?_,fun _ => hparents,?_⟩
      · simp [hexit,hready,hfirst,hstop,PassState.checked,PassState.sent,PassState.failure]
      · simp [hexit,hready,hfirst,hstop,PassState.checked,PassState.sent,PassState.failure]
      · intro hnever
        simp [hnever] at hstop
    by_cases hretry : send (s.sendings.length + 1) = true
    · refine ⟨[false,true],by simp,?_,?_,fun _ => hparents,?_⟩
      · simp [hexit,hready,hfirst,hstop,hretry,PassState.checked,PassState.sent,PassState.success]
      · simp [hexit,hready,hfirst,hstop,hretry,PassState.checked,PassState.sent,PassState.success]
      · simp [hexit,hready,hfirst,hstop,hretry,PassState.checked,PassState.sent,PassState.success]
        omega
    · refine ⟨[false,false],by simp,?_,?_,fun _ => hparents,?_⟩
      · simp [hexit,hready,hfirst,hstop,hretry,PassState.checked,PassState.sent,PassState.failure]
      · simp [hexit,hready,hfirst,hstop,hretry,PassState.checked,PassState.sent,PassState.failure]
      · simp [hexit,hready,hfirst,hstop,hretry,PassState.checked,PassState.sent,PassState.failure]
        omega
  · refine ⟨[],by simp,?_,?_,by simp,?_⟩
    · simp [hexit,hready,PassState.checked,PassState.failure]
    · simp [hexit,hready,PassState.checked,PassState.failure]
    · simp [hexit,hready,PassState.checked,PassState.failure]
      omega

/-- One of the sendings was accepted, of a transaction with this id. -/
def AcceptedAt (ordered : List (OrderedResubmittableTx Txid Raw)) (sendings : List Sending)
    (txid : Txid) : Prop :=
  ∃ sending ∈ sendings, sending.accepted = true ∧
    ∃ entry, ordered[sending.position]? = some entry ∧ entry.tx.txidBytes = txid

/-- What holds before the transaction at this position. -/
structure PassInvariant (ordered : List (OrderedResubmittableTx Txid Raw)) (position : Nat)
    (s : PassState Txid) : Prop where
  positions : ∀ sending ∈ s.sendings, sending.position < position
  twice : ∀ k, (s.sendings.map (·.position)).count k ≤ 2
  accepted : ∀ txid ∈ s.succeededTxids, AcceptedAt ordered s.sendings txid
  parents : ∀ before sending after, s.sendings = before ++ sending :: after →
    ∃ entry, ordered[sending.position]? = some entry ∧
      ∀ txid ∈ entry.parentTxids, AcceptedAt ordered before txid

omit [DecidableEq Txid] in
theorem AcceptedAt.mono {ordered : List (OrderedResubmittableTx Txid Raw)}
    {sendings sendings' : List Sending} {txid : Txid} (h : AcceptedAt ordered sendings txid)
    (hsub : sendings ⊆ sendings') : AcceptedAt ordered sendings' txid := by
  obtain ⟨sending,hmem,hrest⟩ := h
  exact ⟨sending,hsub hmem,hrest⟩

variable (shouldExit send) in
theorem passInvariant_step {ordered : List (OrderedResubmittableTx Txid Raw)} {position : Nat}
    {s : PassState Txid} (h : PassInvariant ordered position s)
    {candidate : OrderedResubmittableTx Txid Raw} (hcandidate : ordered[position]? = some candidate) :
    PassInvariant ordered (position + 1)
      (resubmitCandidate shouldExit send position candidate s).1 := by
  obtain ⟨answers,hlen,hsendings,hsucceeded,hparents,_⟩ :=
    resubmitCandidate_spec shouldExit send position candidate s
  have hnew : ∀ sending ∈ answers.map (Sending.mk position), sending.position = position := by
    intro sending hmem
    obtain ⟨answer,_,rfl⟩ := List.mem_map.mp hmem
    rfl
  constructor
  · intro sending hmem
    rw [hsendings] at hmem
    rcases List.mem_append.mp hmem with hmem | hmem
    · exact Nat.lt_succ_of_lt (h.positions sending hmem)
    · rw [hnew sending hmem]
      exact Nat.lt_succ_self position
  · intro k
    rw [hsendings,List.map_append,List.count_append]
    by_cases hk : k = position
    · have hold : (s.sendings.map (·.position)).count k = 0 := by
        apply List.count_eq_zero.mpr
        intro hmem
        obtain ⟨sending,hsending,heq⟩ := List.mem_map.mp hmem
        have hlt := h.positions sending hsending
        omega
      have hcount := List.count_le_length (a := k)
        (l := (answers.map (Sending.mk position)).map (·.position))
      simp only [List.length_map] at hcount
      omega
    · have hrest : ((answers.map (Sending.mk position)).map (·.position)).count k = 0 := by
        apply List.count_eq_zero.mpr
        intro hmem
        obtain ⟨sending,hsending,heq⟩ := List.mem_map.mp hmem
        exact hk (heq ▸ hnew sending hsending)
      rw [hrest]
      exact h.twice k
  · intro txid htxid
    rw [hsucceeded] at htxid
    rw [hsendings]
    rcases List.mem_append.mp htxid with hold | hlast
    · exact (h.accepted txid hold).mono (List.subset_append_left _ _)
    · split at hlast
      · rename_i htrue
        refine ⟨⟨position,true⟩,?_,rfl,candidate,hcandidate,(List.mem_singleton.mp hlast).symm⟩
        exact List.mem_append_right _ (List.mem_map_of_mem htrue)
      · cases hlast
  · intro before sending after hsplit
    rw [hsendings] at hsplit
    have hlast : sending ∈ answers.map (Sending.mk position) → s.sendings ⊆ before →
        ∃ entry, ordered[sending.position]? = some entry ∧
          ∀ txid ∈ entry.parentTxids, AcceptedAt ordered before txid := by
      intro hmem hsub
      have hanswers : answers ≠ [] := by
        rintro rfl
        cases hmem
      refine ⟨candidate,by rw [hnew sending hmem,hcandidate],?_⟩
      intro txid htxid
      exact (h.accepted txid (hparents hanswers txid htxid)).mono hsub
    rcases List.append_eq_append_iff.mp hsplit with ⟨rest,hbefore,hrest⟩ | ⟨rest,hbefore,hrest⟩
    · apply hlast
      · simp [hrest]
      · simp [hbefore]
    · cases rest with
      | nil =>
        rw [List.append_nil] at hbefore
        rw [List.nil_append] at hrest
        apply hlast
        · simp [← hrest]
        · simp [hbefore]
      | cons first rest =>
        rw [List.cons_append,List.cons.injEq] at hrest
        exact h.parents before sending rest (hrest.1 ▸ hbefore)

variable (shouldExit send) in
theorem passInvariant_run {ordered rest : List (OrderedResubmittableTx Txid Raw)} {position : Nat}
    {s : PassState Txid} (h : PassInvariant ordered position s)
    (hrest : ordered.drop position = rest) :
    ∃ position', PassInvariant ordered position'
      (resubmitFrom shouldExit send position rest s) := by
  induction rest generalizing position s with
  | nil => exact ⟨position,h⟩
  | cons candidate rest ih =>
    have hcandidate : ordered[position]? = some candidate := by
      have hhead : (ordered.drop position)[0]? = some candidate := by
        rw [hrest]
        rfl
      simpa using hhead
    have htail : ordered.drop (position + 1) = rest := by
      rw [← List.tail_drop,hrest,List.tail_cons]
    have hnext := passInvariant_step shouldExit send h hcandidate
    unfold resubmitFrom
    dsimp only
    split
    · exact ih hnext htail
    · exact ⟨position + 1,hnext⟩

variable (send) in
theorem resubmitFrom_totals (hnever : ∀ k, shouldExit k = false)
    (rest : List (OrderedResubmittableTx Txid Raw)) (position : Nat) (s : PassState Txid) :
    (resubmitFrom shouldExit send position rest s).succeeded +
      (resubmitFrom shouldExit send position rest s).failed =
        s.succeeded + s.failed + rest.length := by
  induction rest generalizing position s with
  | nil => rfl
  | cons candidate rest ih =>
    obtain ⟨_,_,_,_,_,htotals⟩ := resubmitCandidate_spec shouldExit send position candidate s
    obtain ⟨hgo,hcount⟩ := htotals hnever
    simp only [resubmitFrom,hgo,if_true,ih,hcount,List.length_cons]
    omega

end Loop

end CoppiceWallet.Proposals
