import CoppiceWallet.Voting.ShareWorkers

/-! # Runs of the delivery -/

namespace CoppiceWallet.Voting

open CoppiceWallet.Lib

def DeliveryState.known (s : DeliveryState) : List Nat :=
  s.recordCalls.map Prod.fst ++ s.completed

structure DeliveryInvariant (d : Delivery) (s : DeliveryState) : Prop where
  shares : ∀ i prepared, d.shares[i]? = some prepared →
    ShareInvariant prepared s.expired (s.shares i)
  outside : ∀ i, d.shares[i]? = none → ∀ j, (s.shares i).points j = .deciding
  permits : Accounted d.permits s.pool s.point
  nodup : s.known.Nodup
  done : ∀ i ∈ s.known, ∃ prepared, d.shares[i]? = some prepared ∧
    ∀ j < prepared.targetCount, ((s.shares i).points j).isFinished = true
  calls : ∀ call ∈ s.recordCalls, call.2 = (s.shares call.1).acceptedServers

variable {prepared : PreparedInitialShareSubmission} {share worker : Nat} {s s' : DeliveryState}
  {d : Delivery} {move : DeliveryMove}

theorem deliveryInvariant_start (d : Delivery) : DeliveryInvariant d d.start where
  shares i prepared hprepared := by
    have hstart := shareInvariant_start prepared
    simpa [Delivery.start,hprepared] using hstart
  outside _ _ _ := rfl
  permits := Accounted.start d.permits
  nodup := .nil
  done _ h := by cases h
  calls _ h := by cases h

theorem DeliveryInvariant.advances (h : DeliveryInvariant d s)
    (hprepared : d.shares[share]? = some prepared) (hworker : worker < prepared.targetCount)
    (hunfinished : ((s.shares share).points worker).isFinished = false)
    (hadvances : Advances d.permits prepared share s s') : DeliveryInvariant d s' := by
  have hknown : s'.known = s.known := by
    rw [DeliveryState.known,DeliveryState.known,hadvances.recordCalls,hadvances.completed]
  have hne : ∀ i ∈ s.known, i ≠ share := by
    intro i hi heq
    obtain ⟨found,hfound,hfinished⟩ := h.done i hi
    rw [heq] at hfound hfinished
    rw [hprepared] at hfound
    cases hfound
    have htrue := hfinished worker hworker
    rw [hunfinished] at htrue
    cases htrue
  refine ⟨?_,?_,hadvances.permits,?_,?_,?_⟩
  · intro i found hfound
    rw [hadvances.expired]
    by_cases hi : i = share
    · subst hi
      rw [hprepared] at hfound
      cases hfound
      exact hadvances.own
    · rw [hadvances.others i hi]
      exact h.shares i found hfound
  · intro i hnone
    have hi : i ≠ share := by
      intro heq
      rw [heq,hprepared] at hnone
      cases hnone
    rw [hadvances.others i hi]
    exact h.outside i hnone
  · rw [hknown]
    exact h.nodup
  · rw [hknown]
    intro i hi
    rw [hadvances.others i (hne i hi)]
    exact h.done i hi
  · rw [hadvances.recordCalls]
    intro call hcall
    have hmem : call.1 ∈ s.known := List.mem_append_left _ (List.mem_map_of_mem hcall)
    rw [hadvances.others call.1 (hne call.1 hmem)]
    exact h.calls call hcall

theorem deliveryStep_advance {current : Int} {outcome : PostOutcome}
    (h : deliveryStep d (.advance share worker current outcome) s = .ok s') :
    ∃ prepared, d.shares[share]? = some prepared ∧ worker < prepared.targetCount ∧
      advanceWorker d share worker current outcome s = .ok s' := by
  rw [deliveryStep] at h
  split at h
  · cases h
  · rename_i prepared hprepared
    split at h
    · rename_i hworker
      exact ⟨prepared,hprepared,hworker,h⟩
    · cases h

theorem deliveryInvariant_step (h : DeliveryInvariant d s) (hstep : deliveryStep d move s = .ok s') :
    DeliveryInvariant d s' := by
  cases move with
  | advance share worker current outcome =>
    obtain ⟨prepared,hprepared,hworker,hadvance⟩ := deliveryStep_advance hstep
    exact h.advances hprepared hworker (unfinished_of_advance hadvance)
      (advances_advanceWorker (h.shares share prepared hprepared) h.permits hworker hadvance)
  | expire =>
    rw [deliveryStep] at hstep
    split at hstep
    · cases hstep
    · cases hstep
      exact ⟨fun i prepared hprepared => (h.shares i prepared hprepared).expire,h.outside,h.permits,
        h.nodup,h.done,h.calls⟩
  | complete share =>
    rw [deliveryStep] at hstep
    split at hstep
    · cases hstep
    · rename_i prepared hprepared
      split at hstep
      · rename_i hcomplete
        cases hstep
        have hperm : (s.recordCalls.map Prod.fst ++ (s.completed ++ [share])).Perm
            (share :: s.known) := by
          rw [← List.append_assoc]
          exact List.perm_append_singleton _ _
        refine ⟨h.shares,h.outside,h.permits,?_,?_,h.calls⟩
        · rw [DeliveryState.known,hperm.nodup_iff]
          exact List.nodup_cons.mpr ⟨hcomplete.2,h.nodup⟩
        · intro i hi
          rw [DeliveryState.known,hperm.mem_iff,List.mem_cons] at hi
          rcases hi with rfl | hi
          · exact ⟨prepared,hprepared,hcomplete.1⟩
          · exact h.done i hi
      · cases hstep
  | record =>
    rw [deliveryStep] at hstep
    split at hstep
    · rename_i share completed hrecording hcompleted
      cases hstep
      have hknown : (s.recordCalls ++ [(share,(s.shares share).acceptedServers)]).map Prod.fst ++
          completed = s.known := by
        rw [DeliveryState.known,hcompleted]
        simp
      refine ⟨h.shares,h.outside,h.permits,?_,?_,?_⟩
      · rw [DeliveryState.known,hknown]
        exact h.nodup
      · rw [DeliveryState.known,hknown]
        exact h.done
      · intro call hcall
        rcases List.mem_append.mp hcall with hcall | hcall
        · exact h.calls call hcall
        · rw [List.mem_singleton] at hcall
          rw [hcall]
    · cases hstep
  | recorded failed =>
    rw [deliveryStep] at hstep
    split at hstep
    · cases hstep
    · cases hstep
      exact ⟨h.shares,h.outside,h.permits,h.nodup,h.done,h.calls⟩

def Delivery.targetCount (d : Delivery) (share : Nat) : Nat :=
  (d.shares[share]?.map (·.targetCount)).getD 0

/-- What the workers have left to do, and then the recorder. -/
def deliveryRank (d : Delivery) (s : DeliveryState) : Nat :=
  ((List.range d.shares.length).map fun i => shareRank (d.targetCount i) (s.shares i)).sum +
    3 * (d.shares.length - s.known.length) + 2 * s.completed.length +
    (if s.recording.isSome then 1 else 0) + if s.expired then 0 else 1

/-- No delivery makes more moves. -/
def Delivery.bound (d : Delivery) : Nat :=
  (d.shares.map fun prepared =>
    5 * prepared.candidateServers.length + 5 * prepared.targetCount).sum + 3 * d.shares.length + 1

theorem deliveryRank_start (d : Delivery) : deliveryRank d d.start = d.bound := by
  have hshares : (List.range d.shares.length).map (fun i =>
      shareRank (d.targetCount i) (d.start.shares i)) = d.shares.map fun prepared =>
        5 * prepared.candidateServers.length + 5 * prepared.targetCount := by
    apply List.ext_getElem
    · simp
    · intro i hleft hright
      rw [List.length_map] at hright
      have hstart := shareRank_startOfShare d.shares[i]
      simpa [Delivery.targetCount,Delivery.start,List.getElem?_eq_getElem hright] using hstart
  rw [deliveryRank,hshares]
  simp [Delivery.start,DeliveryState.known,Delivery.bound]

theorem DeliveryInvariant.lt_of_known (h : DeliveryInvariant d s) {i : Nat} (hi : i ∈ s.known) :
    i < d.shares.length := by
  obtain ⟨prepared,hprepared,-⟩ := h.done i hi
  exact (List.getElem?_eq_some_iff.mp hprepared).1

theorem length_le_of_nodup_of_lt {list : List Nat} {n : Nat} (hnodup : list.Nodup)
    (h : ∀ i ∈ list, i < n) : list.length ≤ n := by
  have hsub : list ⊆ List.range n := fun i hi => List.mem_range.mpr (h i hi)
  simpa using (List.subperm_of_subset hnodup hsub).length_le

theorem deliveryRank_lt (h : DeliveryInvariant d s) (hstep : deliveryStep d move s = .ok s') :
    deliveryRank d s' < deliveryRank d s := by
  cases move with
  | advance share worker current outcome =>
    obtain ⟨prepared,hprepared,hworker,hadvance⟩ := deliveryStep_advance hstep
    have hadvances := advances_advanceWorker (h.shares share prepared hprepared) h.permits hworker
      hadvance
    have hshare := (List.getElem?_eq_some_iff.mp hprepared).1
    have htarget : d.targetCount share = prepared.targetCount := by
      rw [Delivery.targetCount,hprepared]
      rfl
    have hsum := sum_update (f := fun i => shareRank (d.targetCount i) (s.shares i))
      (g := fun i => shareRank (d.targetCount i) (s'.shares i)) List.nodup_range
      (List.mem_range.mpr hshare) fun i hi => by rw [hadvances.others i hi]
    have hrank := hadvances.rank
    simp only [htarget] at hsum
    rw [deliveryRank,deliveryRank,DeliveryState.known,DeliveryState.known,hadvances.recordCalls,
      hadvances.completed,hadvances.recording,hadvances.expired]
    omega
  | expire =>
    rw [deliveryStep] at hstep
    split at hstep
    · cases hstep
    · rename_i hexpired
      cases hstep
      simp [deliveryRank,hexpired,DeliveryState.known]
  | complete share =>
    rw [deliveryStep] at hstep
    split at hstep
    · cases hstep
    · rename_i prepared hprepared
      split at hstep
      · rename_i hcomplete
        cases hstep
        have hshare := (List.getElem?_eq_some_iff.mp hprepared).1
        have hlength : (share :: s.known).length ≤ d.shares.length := by
          apply length_le_of_nodup_of_lt (List.nodup_cons.mpr ⟨hcomplete.2,h.nodup⟩)
          intro i hi
          rcases List.mem_cons.mp hi with rfl | hi
          · exact hshare
          · exact h.lt_of_known hi
        simp only [List.length_cons,DeliveryState.known,List.length_append] at hlength
        simp only [deliveryRank,DeliveryState.known,List.length_append,List.length_singleton]
        omega
      · cases hstep
  | record =>
    rw [deliveryStep] at hstep
    split at hstep
    · rename_i share completed hrecording hcompleted
      cases hstep
      simp only [deliveryRank,DeliveryState.known,hrecording,hcompleted,List.length_append,
        List.length_map,List.length_cons,List.length_nil,Option.isSome_some,Option.isSome_none,
        if_true,Bool.false_eq_true,if_false]
      omega
    · cases hstep
  | recorded failed =>
    rw [deliveryStep] at hstep
    split at hstep
    · cases hstep
    · rename_i share hrecording
      cases hstep
      simp [deliveryRank,hrecording,DeliveryState.known]

/-- Nothing is left to happen but that time runs out. -/
def IsFinal (d : Delivery) (s : DeliveryState) : Prop :=
  ∀ move, move ≠ .expire → deliveryStep d move s = .error ()

theorem advanceWorker_ok (d : Delivery) (current : Int) (outcome : PostOutcome)
    (hwaiting : (s.shares share).points worker ≠ .waiting)
    (hunfinished : ((s.shares share).points worker).isFinished = false) :
    ∃ s', advanceWorker d share worker current outcome s = .ok s' := by
  rw [advanceWorker]
  dsimp only
  cases hpoint : (s.shares share).points worker with
  | deciding =>
    dsimp only
    split
    · exact ⟨_,rfl⟩
    · exact ⟨_,rfl⟩
  | waiting => exact absurd hpoint hwaiting
  | returned result => cases result <;> exact ⟨_,rfl⟩
  | finished found =>
    rw [hpoint] at hunfinished
    cases hunfinished
  | _ => exact ⟨_,rfl⟩

theorem advanceWorker_granted (d : Delivery) (current : Int) (outcome : PostOutcome)
    (hpoint : (s.shares share).points worker = .waiting)
    (hgranted : (share,worker) ∈ s.pool.granted) :
    ∃ s', advanceWorker d share worker current outcome s = .ok s' := by
  rw [advanceWorker,hpoint]
  dsimp only
  rw [PermitPool.resume,if_pos hgranted]
  dsimp only
  rw [attempt]
  dsimp only
  split
  · exact ⟨_,rfl⟩
  · rename_i hexhausted
    have hremaining : (s.shares share).remainingServers ≠ [] := by
      intro hnone
      apply hexhausted
      simp [isExhausted,hnone]
    obtain ⟨server,-,hdrawn⟩ := exists_drawn d s current hremaining
    rw [hdrawn]
    exact ⟨_,rfl⟩

namespace DeliveryInvariant

variable (h : DeliveryInvariant d s)
include h

theorem exists_prepared {w : WorkerId} (hpoint : s.point w ≠ .deciding) :
    ∃ prepared, d.shares[w.1]? = some prepared ∧ w.2 < prepared.targetCount := by
  cases hprepared : d.shares[w.1]? with
  | none => exact absurd (h.outside w.1 hprepared w.2) hpoint
  | some prepared =>
    refine ⟨prepared,rfl,?_⟩
    by_contra hle
    exact hpoint ((h.shares w.1 prepared hprepared).idle w.2 (by omega))

omit h in
theorem advance_ok (hfinal : IsFinal d s) {w : WorkerId} {prepared : PreparedInitialShareSubmission}
    (hprepared : d.shares[w.1]? = some prepared) (hworker : w.2 < prepared.targetCount) :
    ¬ ∃ s', advanceWorker d w.1 w.2 0 .failed s = .ok s' := by
  intro hok
  obtain ⟨s',hs'⟩ := hok
  have herror := hfinal (.advance w.1 w.2 0 .failed) DeliveryMove.noConfusion
  rw [deliveryStep,hprepared] at herror
  dsimp only at herror
  rw [if_pos hworker,hs'] at herror
  cases herror

theorem not_waiting (hfinal : IsFinal d s) (w : WorkerId) : s.point w ≠ .waiting := by
  intro hwaiting
  obtain ⟨holders,-,hmem,haccounts⟩ := h.permits
  rcases haccounts.progress d.positive hwaiting with hgranted | hholders
  · obtain ⟨v,hv⟩ := List.exists_mem_of_ne_nil _ hgranted
    have hpoint := (haccounts.waits v).mp (List.mem_append_right _ hv)
    obtain ⟨prepared,hprepared,hworker⟩ := h.exists_prepared (w := v) (by
      rw [hpoint]
      exact WorkerPoint.noConfusion)
    exact advance_ok hfinal hprepared hworker (advanceWorker_granted d 0 .failed hpoint hv)
  · obtain ⟨v,hv⟩ := List.exists_mem_of_ne_nil _ hholders
    have hholds := (hmem v).mp hv
    have hpoint : s.point v ≠ .deciding ∧ s.point v ≠ .waiting ∧
        (s.point v).isFinished = false := by
      cases hp : s.point v with
      | posting server => exact ⟨WorkerPoint.noConfusion,WorkerPoint.noConfusion,rfl⟩
      | leaving result => exact ⟨WorkerPoint.noConfusion,WorkerPoint.noConfusion,rfl⟩
      | _ =>
        rw [hp] at hholds
        cases hholds
    obtain ⟨prepared,hprepared,hworker⟩ := h.exists_prepared hpoint.1
    exact advance_ok hfinal hprepared hworker
      (advanceWorker_ok d 0 .failed hpoint.2.1 hpoint.2.2)

theorem finished (hfinal : IsFinal d s) {w : WorkerId}
    {prepared : PreparedInitialShareSubmission} (hprepared : d.shares[w.1]? = some prepared)
    (hworker : w.2 < prepared.targetCount) : (s.point w).isFinished = true := by
  cases hfinished : (s.point w).isFinished with
  | true => rfl
  | false => exact (advance_ok hfinal hprepared hworker
      (advanceWorker_ok d 0 .failed (h.not_waiting hfinal w) hfinished)).elim

theorem free (hfinal : IsFinal d s) : s.pool = .ofPermits d.permits := by
  obtain ⟨holders,-,hmem,haccounts⟩ := h.permits
  have hcount := haccounts.count
  have hqueue : s.pool.waiters ++ s.pool.granted = [] := by
    rw [List.eq_nil_iff_forall_not_mem]
    intro w hw
    exact h.not_waiting hfinal w ((haccounts.waits w).mp hw)
  have hholders : holders = [] := by
    rw [List.eq_nil_iff_forall_not_mem]
    intro w hw
    have hholds := (hmem w).mp hw
    have hne : s.point w ≠ .deciding := by
      intro hpoint
      rw [hpoint] at hholds
      cases hholds
    obtain ⟨prepared,hprepared,hworker⟩ := h.exists_prepared hne
    have hfinished := h.finished hfinal hprepared hworker
    cases hp : s.point w with
    | finished found =>
      rw [hp] at hholds
      cases hholds
    | _ =>
      rw [hp] at hfinished
      cases hfinished
  rw [List.append_eq_nil_iff] at hqueue
  rw [hqueue.2,hholders,List.length_nil] at hcount
  have hpool : s.pool = ⟨s.pool.availablePermits,s.pool.waiters,s.pool.granted⟩ := rfl
  have hpermits : s.pool.availablePermits = d.permits := by omega
  rw [hpool,hqueue.1,hqueue.2,hpermits]
  rfl

theorem recorded (hfinal : IsFinal d s) {i : Nat} (hi : i < d.shares.length) :
    i ∈ s.recordCalls.map Prod.fst := by
  have hrecording : s.recording = none := by
    cases hr : s.recording with
    | none => rfl
    | some share =>
      have herror := hfinal (.recorded false) DeliveryMove.noConfusion
      rw [deliveryStep,hr] at herror
      cases herror
  have hcompleted : s.completed = [] := by
    cases hc : s.completed with
    | nil => rfl
    | cons share completed =>
      have herror := hfinal .record DeliveryMove.noConfusion
      rw [deliveryStep,hrecording,hc] at herror
      cases herror
  by_contra hnot
  have herror := hfinal (.complete i) DeliveryMove.noConfusion
  rw [deliveryStep,List.getElem?_eq_getElem hi] at herror
  dsimp only at herror
  rw [if_pos] at herror
  · cases herror
  · refine ⟨?_,?_⟩
    · intro worker hworker
      exact h.finished hfinal (w := (i,worker)) (List.getElem?_eq_getElem hi) hworker
    · rw [hcompleted,List.append_nil]
      exact hnot

end DeliveryInvariant

theorem deliveryInvariant_of_execute {moves : List DeliveryMove}
    (h : execute (deliveryStep d) moves d.start = .ok s) : DeliveryInvariant d s :=
  execute_invariant (fun _ _ _ _ hs hstep => deliveryInvariant_step hs hstep) h
    (deliveryInvariant_start d)

/-- What holds of a share that was recorded with a list of helpers. -/
structure RecordedExactly (prepared : PreparedInitialShareSubmission) (s : DeliveryState)
    (share : Nat) (acceptedServers : List String) : Prop where
  accepted : acceptedServers = (s.shares share).acceptedServers
  nodup : acceptedServers.Nodup
  acknowledged : ∀ server, server ∈ acceptedServers ↔ server ∈ (s.shares share).acknowledged
  length_le : acceptedServers.length ≤ prepared.targetCount
  fewer : acceptedServers.length < prepared.targetCount → s.expired = true ∨
    ∀ server ∈ prepared.candidateServers, server ∈ (s.shares share).posted

/-- Two shares with one permit, of which the first has two workers. -/
def twoShares : Delivery where
  shares := [⟨["a","b"],2,by decide,by decide,by decide⟩,⟨["a"],1,by decide,by decide,by decide⟩]
  permits := 1
  preferredFallbackServers := ["b"]
  health := ⟨2,30,fun _ => none⟩
  positive := by decide

/-- The first helper times out, and a record call fails. -/
def twoSharesMoves : List DeliveryMove :=
  [.advance 0 0 0 .failed,.advance 0 1 0 .failed,.advance 1 0 0 .failed,.advance 0 0 0 .failed,
    .advance 0 0 1 .timedOut,.advance 0 0 1 .failed,.advance 0 1 1 .failed,
    .advance 0 1 2 .acknowledged,.advance 0 1 2 .failed,.advance 0 1 2 .failed,
    .advance 0 0 2 .failed,.advance 0 0 2 .failed,.advance 1 0 3 .failed,.complete 0,
    .advance 1 0 4 .acknowledged,.advance 1 0 4 .failed,.record,.advance 1 0 4 .failed,
    .complete 1,.recorded true,.record,.recorded false]

end CoppiceWallet.Voting
