import CoppiceWallet.Voting.ShareSteps

/-! # Workers of the shares -/

namespace CoppiceWallet.Voting

open CoppiceWallet.Lib

namespace VotingHelperHealthTracker

theorem partition_perm (current : Int) (urls : List String) (tracker : VotingHelperHealthTracker) :
    ((partition current urls tracker).1 ++ (partition current urls tracker).2.1).Perm urls := by
  induction urls generalizing tracker with
  | nil => exact .nil
  | cons url urls ih =>
    have hrest := ih (tracker.isAvailable url current).2
    rw [partition]
    dsimp only
    split
    · exact hrest.cons url
    · exact List.perm_middle.trans (hrest.cons url)

theorem candidateServers_perm (tracker : VotingHelperHealthTracker) (urls : List String)
    (current : Int) : (tracker.candidateServers urls current).1.Perm urls := by
  rw [candidateServers]
  dsimp only
  split
  · exact .refl _
  · exact partition_perm current urls tracker

end VotingHelperHealthTracker

theorem count_filter_ite {α : Type} [DecidableEq α] (p : α → Bool) (a : α) (list : List α) :
    (list.filter p).count a = if p a then list.count a else 0 := by
  by_cases ha : p a
  · rw [if_pos ha,List.count_filter ha]
  · rw [if_neg ha]
    apply List.count_eq_zero_of_not_mem
    simp [ha]

theorem filter_three_perm {α : Type} [DecidableEq α] (p q : α → Prop) [DecidablePred p]
    [DecidablePred q] (list : List α) :
    ((list.filter fun a => decide (p a ∧ ¬ q a)) ++ (list.filter fun a => decide (¬ p a ∧ ¬ q a)) ++
      list.filter fun a => decide (q a)).Perm list := by
  rw [List.perm_iff_count]
  intro a
  simp only [List.count_append,count_filter_ite]
  by_cases hp : p a <;> by_cases hq : q a <;> simp [hp,hq]

theorem rankCandidates_perm (preferredFallbackServers timedOutServers candidates : List String) :
    (rankCandidates preferredFallbackServers timedOutServers candidates).Perm candidates := by
  rw [rankCandidates]
  split
  · exact .refl _
  · exact filter_three_perm _ _ candidates

theorem exists_drawn (d : Delivery) (s : DeliveryState) (now : Int) {remaining : List String}
    (hremaining : remaining ≠ []) :
    ∃ server ∈ remaining, (s.health.candidateServers
      (rankCandidates d.preferredFallbackServers s.timedOutServers remaining) now).1.head? =
        some server := by
  have hperm := (VotingHelperHealthTracker.candidateServers_perm s.health
    (rankCandidates d.preferredFallbackServers s.timedOutServers remaining) now).trans
      (rankCandidates_perm _ _ _)
  cases hdrawn : (s.health.candidateServers
    (rankCandidates d.preferredFallbackServers s.timedOutServers remaining) now).1 with
  | nil =>
    rw [hdrawn] at hperm
    exact absurd hperm.nil_eq.symm hremaining
  | cons server servers =>
    rw [hdrawn] at hperm
    exact ⟨server,hperm.mem_iff.mp List.mem_cons_self,rfl⟩

/-- Permits are with the workers that post or leave, and those that wait are in the queue. -/
def Accounted (permits : Nat) (pool : PermitPool WorkerId) (point : WorkerId → WorkerPoint) : Prop :=
  ∃ holders : List WorkerId, holders.Nodup ∧ (∀ w, w ∈ holders ↔ (point w).holds = true) ∧
    pool.Accounts permits holders fun w => point w = .waiting

namespace Accounted

variable {permits : Nat} {pool pool' : PermitPool WorkerId} {point : WorkerId → WorkerPoint}
  {w : WorkerId} {p : WorkerPoint}

theorem start (permits : Nat) : Accounted permits (.ofPermits permits) fun _ => .deciding :=
  ⟨[],.nil,fun _ => by simp [WorkerPoint.holds],PermitPool.accounts_ofPermits fun _ h => by cases h⟩

variable (h : Accounted permits pool point)
include h

theorem stay (hholds : p.holds = (point w).holds) (hp : p ≠ .waiting) (hw : point w ≠ .waiting) :
    Accounted permits pool (Function.update point w p) := by
  obtain ⟨holders,hnodup,hmem,haccounts⟩ := h
  refine ⟨holders,hnodup,?_,haccounts.congr ?_⟩
  · intro v
    by_cases hv : v = w
    · subst hv
      rw [Function.update_self,hholds,hmem]
    · rw [Function.update_of_ne hv,hmem]
  · intro v
    by_cases hv : v = w
    · subst hv
      rw [Function.update_self]
      exact iff_of_false hw hp
    · rw [Function.update_of_ne hv]

theorem acquire (hw : point w = .deciding) :
    Accounted permits (pool.acquire w) (Function.update point w .waiting) := by
  obtain ⟨holders,hnodup,hmem,haccounts⟩ := h
  have hnot : ¬ point w = .waiting := by
    rw [hw]
    exact WorkerPoint.noConfusion
  refine ⟨holders,hnodup,?_,haccounts.acquire hnot ?_⟩
  · intro v
    by_cases hv : v = w
    · subst hv
      rw [Function.update_self,hmem,hw]
      rfl
    · rw [Function.update_of_ne hv,hmem]
  · intro v
    by_cases hv : v = w
    · subst hv
      simp
    · rw [Function.update_of_ne hv]
      simp [hv]

theorem resume (hw : point w = .waiting) (hresume : pool.resume w = some pool')
    (hp : p.holds = true) : Accounted permits pool' (Function.update point w p) := by
  obtain ⟨holders,hnodup,hmem,haccounts⟩ := h
  have hnot : w ∉ holders := by
    intro hholds
    have hpoint := (hmem w).mp hholds
    rw [hw] at hpoint
    cases hpoint
  have hne : p ≠ .waiting := by
    intro heq
    rw [heq] at hp
    cases hp
  refine ⟨w :: holders,List.nodup_cons.mpr ⟨hnot,hnodup⟩,?_,haccounts.resume hresume ?_⟩
  · intro v
    by_cases hv : v = w
    · subst hv
      simp [hp]
    · rw [Function.update_of_ne hv,← hmem]
      simp [hv]
  · intro v
    by_cases hv : v = w
    · subst hv
      simp [hne]
    · rw [Function.update_of_ne hv]
      simp [hv]

theorem release (hw : (point w).holds = true) (hp : p.holds = false) (hne : p ≠ .waiting) :
    Accounted permits pool.release (Function.update point w p) := by
  obtain ⟨holders,hnodup,hmem,haccounts⟩ := h
  have hnot : point w ≠ .waiting := by
    intro heq
    rw [heq] at hw
    cases hw
  have hreleased := haccounts.release (List.perm_cons_erase ((hmem w).mpr hw))
  refine ⟨holders.erase w,hnodup.erase w,?_,hreleased.congr ?_⟩
  · intro v
    rw [hnodup.mem_erase_iff,hmem]
    by_cases hv : v = w
    · subst hv
      simp [hp]
    · rw [Function.update_of_ne hv]
      simp [hv]
  · intro v
    by_cases hv : v = w
    · subst hv
      rw [Function.update_self]
      exact iff_of_false hnot hne
    · rw [Function.update_of_ne hv]

/-- No more workers post than there are permits. -/
theorem length_le {workers : List WorkerId} (hnodup : workers.Nodup)
    (hposting : ∀ v ∈ workers, (point v).isPosting = true) : workers.length ≤ permits := by
  obtain ⟨holders,-,hmem,haccounts⟩ := h
  have hcount := haccounts.count
  have hsub : workers ⊆ holders := by
    intro v hv
    rw [hmem]
    have hpoint := hposting v hv
    cases hv : point v with
    | posting server => rfl
    | _ =>
      rw [hv] at hpoint
      cases hpoint
  have hle := (List.subperm_of_subset hnodup hsub).length_le
  omega

end Accounted

/-- How much a worker has left to do with the helper that it has. -/
def WorkerPoint.weight : WorkerPoint → Nat
  | posting _ => 8
  | leaving .rejected => 7
  | returned .rejected => 6
  | deciding => 5
  | waiting => 4
  | leaving _ => 2
  | returned _ => 1
  | finished _ => 0

/-- A helper that is drawn takes the weight of what its worker does with it. -/
def shareRank (targetCount : Nat) (x : ShareState) : Nat :=
  5 * x.remainingServers.length +
    ((List.range targetCount).map fun j => (x.points j).weight).sum

variable {prepared : PreparedInitialShareSubmission} {permits share worker now : Nat}
  {s s' : DeliveryState} {x : ShareState}

theorem shareRank_setPoint {targetCount : Nat} (x : ShareState) (hworker : worker < targetCount)
    (p : WorkerPoint) : shareRank targetCount (x.setPoint worker p) + (x.points worker).weight =
      shareRank targetCount x + p.weight := by
  have hsame : ∀ k, k ≠ worker →
      ((x.setPoint worker p).points k).weight = (x.points k).weight := by
    intro k hk
    rw [setPoint_other x p hk]
  have hsum := sum_update List.nodup_range (List.mem_range.mpr hworker) hsame
  rw [setPoint_own] at hsum
  rw [shareRank,shareRank]
  have hremaining : (x.setPoint worker p).remainingServers = x.remainingServers := rfl
  rw [hremaining]
  omega

theorem shareRank_startOfShare (prepared : PreparedInitialShareSubmission) :
    shareRank prepared.targetCount (startOfShare prepared.candidateServers) =
      5 * prepared.candidateServers.length + 5 * prepared.targetCount := by
  simp [shareRank,startOfShare,WorkerPoint.weight,mul_comm]

def DeliveryState.point (s : DeliveryState) (w : WorkerId) : WorkerPoint :=
  (s.shares w.1).points w.2

/-- A worker changes its own share and the pool, and less is left to do. -/
structure Advances (permits : Nat) (prepared : PreparedInitialShareSubmission) (share : Nat)
    (s s' : DeliveryState) : Prop where
  others : ∀ k, k ≠ share → s'.shares k = s.shares k
  own : ShareInvariant prepared s.expired (s'.shares share)
  permits : Accounted permits s'.pool s'.point
  expired : s'.expired = s.expired
  completed : s'.completed = s.completed
  recording : s'.recording = s.recording
  recordCalls : s'.recordCalls = s.recordCalls
  rank : shareRank prepared.targetCount (s'.shares share) <
    shareRank prepared.targetCount (s.shares share)

theorem point_setShare {p : WorkerPoint} (s : DeliveryState)
    (hpoints : x.points = Function.update (s.shares share).points worker p) :
    (s.setShare share x).point = Function.update s.point (share,worker) p := by
  funext w
  rw [DeliveryState.point,DeliveryState.setShare]
  dsimp only
  by_cases hshare : w.1 = share
  · rw [hshare,Function.update_self,hpoints]
    by_cases hworker : w.2 = worker
    · have hw : w = (share,worker) := Prod.ext hshare hworker
      rw [hworker,hw,Function.update_self,Function.update_self]
    · have hw : w ≠ (share,worker) := fun heq => hworker (congrArg Prod.snd heq)
      rw [Function.update_of_ne hworker,Function.update_of_ne hw,DeliveryState.point,hshare]
  · have hw : w ≠ (share,worker) := fun heq => hshare (congrArg Prod.fst heq)
    rw [Function.update_of_ne hshare,Function.update_of_ne hw]
    rfl

theorem advances_setShare {p : WorkerPoint} {pool : PermitPool WorkerId}
    {health : VotingHelperHealthTracker} {timedOutServers : List String}
    (hs' : s' = { s.setShare share x with
      pool := pool
      health := health
      timedOutServers := timedOutServers })
    (hpoints : x.points = Function.update (s.shares share).points worker p)
    (hown : ShareInvariant prepared s.expired x)
    (hpermits : Accounted permits pool (Function.update s.point (share,worker) p))
    (hrank : shareRank prepared.targetCount x <
      shareRank prepared.targetCount (s.shares share)) :
    Advances permits prepared share s s' := by
  have hshare : (s.setShare share x).shares share = x := Function.update_self _ _ _
  subst hs'
  refine ⟨?_,?_,?_,rfl,rfl,rfl,rfl,?_⟩
  · intro k hk
    exact Function.update_of_ne hk _ _
  · dsimp only
    rw [hshare]
    exact hown
  · have hpoint := point_setShare s hpoints
    rw [← hpoint] at hpermits
    exact hpermits
  · dsimp only
    rw [hshare]
    exact hrank

section

variable {d : Delivery} {current : Int} {outcome : PostOutcome}
  (hown : ShareInvariant prepared s.expired (s.shares share))
  (hpermits : Accounted permits s.pool s.point) (hworker : worker < prepared.targetCount)
include hown hpermits hworker

omit hpermits in
theorem advances_move {p : WorkerPoint} {pool : PermitPool WorkerId}
    {health : VotingHelperHealthTracker} {timedOutServers : List String}
    (hs' : s' = { s.setShare share ((s.shares share).setPoint worker p) with
      pool := pool
      health := health
      timedOutServers := timedOutServers })
    (hhelper : ∀ server, p.helper = some server →
      ((s.shares share).points worker).helper = some server)
    (hacknowledged : p.acknowledged = ((s.shares share).points worker).acknowledged)
    (hwon : p.won = ((s.shares share).points worker).won)
    (hgaveUp : p.gaveUp = true → isExhausted s.expired (s.shares share) = true)
    (hpool : Accounted permits pool (Function.update s.point (share,worker) p))
    (hweight : p.weight < ((s.shares share).points worker).weight) :
    Advances permits prepared share s s' := by
  have hrank := shareRank_setPoint (s.shares share) hworker p
  exact advances_setShare hs' rfl (hown.move hworker hhelper hacknowledged hwon hgaveUp) hpool
    (by omega)

theorem advances_attempt {pool : PermitPool WorkerId}
    (hpoint : (s.shares share).points worker = .waiting)
    (hresume : s.pool.resume (share,worker) = some pool)
    (h : attempt d share worker current { s with pool := pool } = .ok s') :
    Advances permits prepared share s s' := by
  rw [attempt] at h
  dsimp only at h
  split at h
  · rename_i hexhausted
    cases h
    refine advances_move hown hworker rfl ?_ ?_ ?_ (fun _ => hexhausted)
      (hpermits.resume hpoint hresume rfl) ?_
    · intro server hserver
      cases hserver
    · rw [hpoint]
      rfl
    · rw [hpoint]
      rfl
    · rw [hpoint]
      exact (by decide : 2 < 4)
  · rename_i hexhausted
    have hremaining : (s.shares share).remainingServers ≠ [] := by
      intro hnone
      apply hexhausted
      simp [isExhausted,hnone]
    obtain ⟨server,hserver,hdrawn⟩ := exists_drawn d s current hremaining
    rw [hdrawn] at h
    cases h
    have hrank := shareRank_setPoint (s.shares share) hworker (.posting server)
    have hlength := List.length_erase_of_mem hserver
    have hpositive := List.length_pos_of_mem hserver
    refine advances_setShare rfl rfl (hown.post hworker hpoint hserver)
      (hpermits.resume hpoint hresume rfl) ?_
    rw [hpoint] at hrank
    simp only [shareRank,WorkerPoint.weight] at hrank ⊢
    rw [hlength]
    dsimp only [ShareState.setPoint] at hrank ⊢
    omega

theorem advances_respond {server : String}
    (hpoint : (s.shares share).points worker = .posting server) :
    Advances permits prepared share s (respond share worker server current s outcome) := by
  have hstay : ∀ result, Accounted permits s.pool
      (Function.update s.point (share,worker) (.leaving result)) := by
    intro result
    refine hpermits.stay ?_ WorkerPoint.noConfusion ?_
    · rw [DeliveryState.point,hpoint]
      rfl
    · rw [DeliveryState.point,hpoint]
      exact WorkerPoint.noConfusion
  have hrejected : ∀ health timedOutServers, Advances permits prepared share s
      { s.setShare share ((s.shares share).setPoint worker (.leaving .rejected)) with
        health := health
        timedOutServers := timedOutServers } := by
    intro health timedOutServers
    refine advances_move hown hworker rfl ?_ ?_ ?_ ?_ (hstay .rejected) ?_
    · intro server hserver
      cases hserver
    · rw [hpoint]
      rfl
    · rw [hpoint]
      rfl
    · intro hgaveUp
      cases hgaveUp
    · rw [hpoint]
      exact (by decide : 7 < 8)
  cases outcome with
  | acknowledged =>
    have hrank := shareRank_setPoint (s.shares share) hworker (.leaving (.accepted server))
    rw [hpoint] at hrank
    refine advances_setShare rfl rfl (hown.acknowledge hworker hpoint) (hstay _) ?_
    simp only [shareRank,WorkerPoint.weight] at hrank ⊢
    omega
  | failed => exact hrejected _ _
  | timedOut => exact hrejected _ _

theorem advances_leave {result : Attempt}
    (hpoint : (s.shares share).points worker = .leaving result) :
    Advances permits prepared share s
      { s.setShare share ((s.shares share).setPoint worker (.returned result)) with
        pool := s.pool.release } := by
  have hpool : Accounted permits s.pool.release
      (Function.update s.point (share,worker) (.returned result)) := by
    refine hpermits.release ?_ rfl WorkerPoint.noConfusion
    rw [DeliveryState.point,hpoint]
    rfl
  have hgaveUp := hown.gaveUp worker
  rw [hpoint] at hgaveUp
  refine advances_move hown hworker rfl ?_ ?_ ?_ ?_ hpool ?_
  · rw [hpoint]
    cases result <;> exact fun _ h => h
  · rw [hpoint]
    cases result <;> rfl
  · rw [hpoint]
    rfl
  · cases result <;> exact hgaveUp
  · rw [hpoint]
    cases result <;> simp [WorkerPoint.weight]

theorem advances_advanceWorker
    (h : advanceWorker d share worker current outcome s = .ok s') :
    Advances permits prepared share s s' := by
  have hstay : ∀ p : WorkerPoint, p.holds = ((s.shares share).points worker).holds →
      p ≠ .waiting → (s.shares share).points worker ≠ .waiting →
      Accounted permits s.pool (Function.update s.point (share,worker) p) :=
    fun p hholds hp hpoint => hpermits.stay hholds hp hpoint
  rw [advanceWorker] at h
  dsimp only at h
  cases hpoint : (s.shares share).points worker with
  | deciding =>
    rw [hpoint] at h
    dsimp only at h
    split at h
    · rename_i hexhausted
      cases h
      refine advances_move hown hworker rfl ?_ ?_ ?_ (fun _ => hexhausted) (hstay _ ?_ ?_ ?_) ?_
      · intro server hserver
        cases hserver
      all_goals simp [hpoint,WorkerPoint.acknowledged,WorkerPoint.won,WorkerPoint.holds,
        WorkerPoint.weight]
    · cases h
      refine advances_move hown hworker rfl ?_ ?_ ?_ ?_ (hpermits.acquire hpoint) ?_
      · intro server hserver
        cases hserver
      all_goals simp [hpoint,WorkerPoint.acknowledged,WorkerPoint.won,WorkerPoint.gaveUp,
        WorkerPoint.weight]
  | waiting =>
    rw [hpoint] at h
    dsimp only at h
    split at h
    · cases h
    · rename_i pool hresume
      exact advances_attempt hown hpermits hworker hpoint hresume h
  | posting server =>
    rw [hpoint] at h
    cases h
    exact advances_respond hown hpermits hworker hpoint
  | leaving result =>
    rw [hpoint] at h
    cases h
    exact advances_leave hown hpermits hworker hpoint
  | returned result =>
    rw [hpoint] at h
    have hgaveUp := hown.gaveUp worker
    rw [hpoint] at hgaveUp
    cases result with
    | refused =>
      cases h
      refine advances_move hown hworker rfl ?_ ?_ ?_ (fun _ => hgaveUp rfl) (hstay _ ?_ ?_ ?_) ?_
      · intro server hserver
        cases hserver
      all_goals simp [hpoint,WorkerPoint.acknowledged,WorkerPoint.won,WorkerPoint.holds,
        WorkerPoint.weight]
    | rejected =>
      cases h
      refine advances_move hown hworker rfl ?_ ?_ ?_ ?_ (hstay _ ?_ ?_ ?_) ?_
      · intro server hserver
        cases hserver
      all_goals simp [hpoint,WorkerPoint.acknowledged,WorkerPoint.won,WorkerPoint.holds,
        WorkerPoint.gaveUp,WorkerPoint.weight]
    | accepted server =>
      cases h
      have hrank := shareRank_setPoint (s.shares share) hworker (.finished (some server))
      rw [hpoint] at hrank
      refine advances_setShare rfl rfl (hown.accept hworker hpoint) (hstay _ ?_ ?_ ?_) ?_
      · rw [hpoint]
        rfl
      · exact WorkerPoint.noConfusion
      · rw [hpoint]
        exact WorkerPoint.noConfusion
      · simp only [shareRank,WorkerPoint.weight] at hrank ⊢
        omega
  | finished found =>
    rw [hpoint] at h
    cases h

end

theorem unfinished_of_advance {d : Delivery} {current : Int} {outcome : PostOutcome}
    (h : advanceWorker d share worker current outcome s = .ok s') :
    ((s.shares share).points worker).isFinished = false := by
  cases hpoint : (s.shares share).points worker with
  | finished found =>
    rw [advanceWorker,hpoint] at h
    cases h
  | _ => rfl

end CoppiceWallet.Voting
