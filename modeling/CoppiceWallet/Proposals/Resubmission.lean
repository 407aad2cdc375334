import CoppiceWallet.Proposals.ResubmissionPass

/-! # A resubmission respects the dependencies -/

namespace CoppiceWallet.Proposals

open CoppiceWallet.Lib

variable {Txid Raw : Type} [LinearOrder Txid] (read : Raw → Option (ReadTransaction Txid))
  (candidates : List (ResubmittableTx Txid Raw))

/-- The ordering returns every candidate once; one that is not on or below a cycle comes after its
parents. -/
structure OrderedByParents (order : List (Fin candidates.length)) : Prop where
  result : orderResubmittableTransactions read candidates =
    some (order.map (orderedCandidate read candidates))
  perm : ((order.map (orderedCandidate read candidates)).map (·.tx)).Perm candidates
  parents : ∀ before child after, order = before ++ child :: after →
    ¬ OnOrBelowCycle (IsParent read candidates) child →
      ∀ parent, IsParent read candidates parent child → parent ∈ before

/-- The candidate at this position of the order was accepted. -/
def AcceptedCandidate (order : List (Fin candidates.length)) (sendings : List Sending)
    (index : Fin candidates.length) : Prop :=
  ∃ sending ∈ sendings, sending.accepted = true ∧ order[sending.position]? = some index

/-- Each of the sendings comes after the acceptance of the parents. -/
def SentAfterParents (order : List (Fin candidates.length)) (sendings : List Sending) : Prop :=
  ∀ before sending after, sendings = before ++ sending :: after →
    ∃ index, order[sending.position]? = some index ∧
      ∀ txid ∈ transparentInputs read candidates[index], Listed candidates txid →
        ∃ parent, candidates[parent].txidBytes = txid ∧
          AcceptedCandidate candidates order before parent

/-- A candidate on or below a cycle is sent only after the acceptance of one that is not, under the
id of one that is. -/
def CyclesDeferred (order : List (Fin candidates.length)) (sendings : List Sending) : Prop :=
  ∀ before sending after index, sendings = before ++ sending :: after →
    order[sending.position]? = some index → OnOrBelowCycle (IsParent read candidates) index →
      ∃ other, AcceptedCandidate candidates order before other ∧
        ¬ OnOrBelowCycle (IsParent read candidates) other ∧
        ∃ member, OnOrBelowCycle (IsParent read candidates) member ∧
          candidates[other].txidBytes = candidates[member].txidBytes

/-- What a pass over the ordered candidates does. -/
structure PassRespectsParents (order : List (Fin candidates.length)) (shouldExit : Nat → Bool)
    (report : PassReport) : Prop where
  parents : SentAfterParents read candidates order report.sendings
  twice : ∀ position, (report.sendings.map (·.position)).count position ≤ 2
  cycles : CyclesDeferred read candidates order report.sendings
  distinct : (candidates.map (·.txidBytes)).Nodup → ∀ sending ∈ report.sendings, ∀ index,
    order[sending.position]? = some index → ¬ OnOrBelowCycle (IsParent read candidates) index
  totals : (∀ k, shouldExit k = false) → report.stats.attempted = candidates.length ∧
    report.stats.succeeded + report.stats.failed = report.stats.attempted

variable {read candidates}

theorem exists_orderedByParents (read : Raw → Option (ReadTransaction Txid))
    (candidates : List (ResubmittableTx Txid Raw)) :
    ∃ order, OrderedByParents read candidates order := by
  obtain ⟨taken,hgreedy,hall,hrun⟩ := orderResubmittable_spec read candidates
  refine ⟨taken ++ unresolved candidates taken,hrun,map_tx_perm hgreedy,?_⟩
  intro before child after horder hcycle parent hparent
  exact parents_before hgreedy horder ((mem_taken hgreedy hall).mpr hcycle) hparent

theorem acceptedCandidate_of_acceptedAt {order : List (Fin candidates.length)}
    {sendings : List Sending} {txid : Txid}
    (h : AcceptedAt (order.map (orderedCandidate read candidates)) sendings txid) :
    ∃ parent, candidates[parent].txidBytes = txid ∧
      AcceptedCandidate candidates order sendings parent := by
  obtain ⟨sending,hmem,haccepted,entry,hentry,htxid⟩ := h
  rw [List.getElem?_map,Option.map_eq_some_iff] at hentry
  obtain ⟨parent,hparent,rfl⟩ := hentry
  exact ⟨parent,htxid,sending,hmem,haccepted,hparent⟩

variable {order : List (Fin candidates.length)} {sendings : List Sending}

theorem PassInvariant.sentAfterParents {position : Nat} {s : PassState Txid}
    (h : PassInvariant (order.map (orderedCandidate read candidates)) position s) :
    SentAfterParents read candidates order s.sendings := by
  intro before sending after hsplit
  obtain ⟨entry,hentry,hparents⟩ := h.parents before sending after hsplit
  rw [List.getElem?_map,Option.map_eq_some_iff] at hentry
  obtain ⟨index,hindex,rfl⟩ := hentry
  refine ⟨index,hindex,?_⟩
  intro txid hinput hlisted
  exact acceptedCandidate_of_acceptedAt (hparents txid (mem_parentTxidsOf.mpr ⟨hinput,hlisted⟩))

omit [LinearOrder Txid] in
theorem AcceptedCandidate.mono {sendings' : List Sending} {index : Fin candidates.length}
    (h : AcceptedCandidate candidates order sendings index) (hsub : sendings ⊆ sendings') :
    AcceptedCandidate candidates order sendings' index := by
  obtain ⟨sending,hmem,hrest⟩ := h
  exact ⟨sending,hsub hmem,hrest⟩

/-- By induction on what was sent before. A parent on or below a cycle was accepted under its id:
either by a candidate that is not, or by one that is and was itself sent earlier. -/
theorem SentAfterParents.cyclesDeferred (h : SentAfterParents read candidates order sendings) :
    CyclesDeferred read candidates order sendings := by
  intro before
  induction hlen : before.length using Nat.strong_induction_on generalizing before with
  | _ n ih =>
    intro sending after index hsplit hindex hcycle
    obtain ⟨parent,hparent,hcycle'⟩ := hcycle.predecessor
    obtain ⟨index',hindex',hparents⟩ := h before sending after hsplit
    have hsame : index' = index := Option.some.inj (hindex'.symm.trans hindex)
    subst hsame
    obtain ⟨accepted,htxid,haccepted⟩ := hparents _ (mem_parentIndices.mp hparent).1
      (listed_txid parent)
    by_cases hother : OnOrBelowCycle (IsParent read candidates) accepted
    · obtain ⟨earlier,hmem,_,hposition⟩ := haccepted
      obtain ⟨first,last,hbefore⟩ := List.append_of_mem hmem
      have hshorter : first.length < n := by
        rw [← hlen,hbefore]
        simp
      obtain ⟨other,hother',hrest⟩ := ih first.length hshorter first rfl earlier
        (last ++ sending :: after) accepted (by simp [hsplit,hbefore]) hposition hother
      exact ⟨other,hother'.mono (by simp [hbefore]),hrest⟩
    · exact ⟨accepted,haccepted,hother,parent,hcycle',htxid⟩

theorem CyclesDeferred.distinct (h : CyclesDeferred read candidates order sendings)
    (hdistinct : (candidates.map (·.txidBytes)).Nodup) {sending : Sending}
    (hmem : sending ∈ sendings) {index : Fin candidates.length}
    (hindex : order[sending.position]? = some index) :
    ¬ OnOrBelowCycle (IsParent read candidates) index := by
  intro hcycle
  obtain ⟨before,after,hsplit⟩ := List.append_of_mem hmem
  obtain ⟨other,_,hother,member,hmember,htxid⟩ := h before sending after index hsplit hindex hcycle
  exact hother (txid_injective hdistinct htxid ▸ hmember)

omit [LinearOrder Txid] in
theorem passInvariant_initial (ordered : List (OrderedResubmittableTx Txid Raw)) :
    PassInvariant ordered 0 ⟨1,[],[],0,0⟩ := by
  constructor <;> simp

theorem passRespectsParents_nothing {shouldExit : Nat → Bool}
    (hnever : (∀ k, shouldExit k = false) → candidates = []) :
    PassRespectsParents read candidates order shouldExit ⟨noResubmitStats,[]⟩ where
  parents := by simp [SentAfterParents]
  twice := by simp
  cycles := by simp [CyclesDeferred]
  distinct := by simp
  totals := fun h => by simp [noResubmitStats,hnever h]

variable (read) in
theorem resubmitPending_respects {E : Type} (h : OrderedByParents read candidates order)
    (shouldExit send : Nat → Bool) :
    ∃ report, resubmitPendingTransactions read shouldExit send
        (.ok candidates : Except E (List (ResubmittableTx Txid Raw))) = some report ∧
      PassRespectsParents read candidates order shouldExit report := by
  by_cases hexit : shouldExit 0 = true
  · refine ⟨⟨noResubmitStats,[]⟩,by simp [resubmitPendingTransactions,hexit],?_⟩
    apply passRespectsParents_nothing
    intro hnever
    simp [hnever] at hexit
  have hlength : candidates.length = order.length := by
    simpa using h.perm.length_eq.symm
  by_cases hempty : order = []
  · refine ⟨⟨noResubmitStats,[]⟩,by simp [resubmitPendingTransactions,hexit,h.result,hempty],?_⟩
    apply passRespectsParents_nothing
    intro _
    apply List.length_eq_zero_iff.mp
    simp [hlength,hempty]
  obtain ⟨position,hinv⟩ := passInvariant_run shouldExit send
    (passInvariant_initial (order.map (orderedCandidate read candidates))) (List.drop_zero)
  have hparents := hinv.sentAfterParents
  let s := resubmitFrom shouldExit send 0 (order.map (orderedCandidate read candidates))
    ⟨1,[],[],0,0⟩
  refine ⟨⟨⟨order.length,s.succeeded,s.failed⟩,s.sendings⟩,?_,?_⟩
  · simp [resubmitPendingTransactions,hexit,h.result,hempty,s]
  constructor
  · exact hparents
  · exact hinv.twice
  · exact hparents.cyclesDeferred
  · exact fun hdistinct sending hmem index hindex =>
      hparents.cyclesDeferred.distinct hdistinct hmem hindex
  · intro hnever
    have htotals := resubmitFrom_totals send hnever
      (order.map (orderedCandidate read candidates)) 0 ⟨1,[],[],0,0⟩
    simpa [hlength,s] using htotals

variable (read candidates) in
/-- The ordering, for every list, and the pass, for every sequence of answers and cancellations. -/
theorem resubmission_respectsDependencies {E : Type} :
    (∃ order, OrderedByParents read candidates order ∧
      ∀ shouldExit send : Nat → Bool, ∃ report, resubmitPendingTransactions read shouldExit send
          (.ok candidates : Except E (List (ResubmittableTx Txid Raw))) = some report ∧
        PassRespectsParents read candidates order shouldExit report) ∧
    ((candidates.map (·.txidBytes)).Nodup → ∀ candidates', candidates.Perm candidates' →
      orderResubmittableTransactions read candidates =
        orderResubmittableTransactions read candidates') := by
  constructor
  · obtain ⟨order,horder⟩ := exists_orderedByParents read candidates
    exact ⟨order,horder,resubmitPending_respects read horder⟩
  · exact fun hdistinct candidates' hperm => orderResubmittable_perm read hdistinct hperm

/-- Transactions 10 and 11 spend each other's outputs; nothing else can be read. -/
def cyclicRead : Nat → Option (ReadTransaction Nat)
  | 10 => some ⟨10,some [11]⟩
  | 11 => some ⟨11,some [10]⟩
  | _ => none

/-- The last entry has the id of the first one, and bytes that cannot be read. -/
def cyclicCandidates : List (ResubmittableTx Nat Nat) := [⟨10,10⟩,⟨11,11⟩,⟨10,0⟩]

theorem cyclicCandidates_cycle :
    OnOrBelowCycle (IsParent cyclicRead cyclicCandidates) ⟨1,by decide⟩ := by
  have hfirst : IsParent cyclicRead cyclicCandidates ⟨1,by decide⟩ ⟨0,by decide⟩ := by
    unfold IsParent
    decide
  have hsecond : IsParent cyclicRead cyclicCandidates ⟨0,by decide⟩ ⟨1,by decide⟩ := by
    unfold IsParent
    decide
  exact ⟨_,.tail (.single hfirst) hsecond,.refl⟩

/-- The last entry is accepted, and so the member of the cycle that spends from its id is sent. -/
theorem secondEntry_opensCycle :
    ∃ (order : List (Fin cyclicCandidates.length)) (report : PassReport) (sending : Sending)
      (index : Fin cyclicCandidates.length),
    orderResubmittableTransactions cyclicRead cyclicCandidates =
        some (order.map (orderedCandidate cyclicRead cyclicCandidates)) ∧
      resubmitPendingTransactions cyclicRead (fun _ => false) (fun _ => true)
        (.ok cyclicCandidates : Except String _) = some report ∧
      sending ∈ report.sendings ∧ order[sending.position]? = some index ∧
      OnOrBelowCycle (IsParent cyclicRead cyclicCandidates) index := by
  refine ⟨[⟨2,by decide⟩,⟨0,by decide⟩,⟨1,by decide⟩],⟨⟨3,2,1⟩,[⟨0,true⟩,⟨2,true⟩]⟩,⟨2,true⟩,
    ⟨1,by decide⟩,by decide,by decide,by decide,rfl,cyclicCandidates_cycle⟩

end CoppiceWallet.Proposals
