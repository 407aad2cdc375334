import CoppiceWallet.Lib.Lists
import CoppiceWallet.Voting.ShareDelivery

/-! # Steps of one share -/

namespace CoppiceWallet.Voting

open CoppiceWallet.Lib

namespace WorkerPoint

/-- The helper that a worker has to do with. -/
def helper : WorkerPoint → Option String
  | posting server | leaving (.accepted server) | returned (.accepted server) => some server
  | finished server => server
  | _ => none

/-- A helper that has acknowledged the share to this worker. -/
def acknowledged : WorkerPoint → Option String
  | leaving (.accepted server) | returned (.accepted server) => some server
  | finished server => server
  | _ => none

def won : WorkerPoint → Option String
  | finished server => server
  | _ => none

def gaveUp : WorkerPoint → Bool
  | leaving .refused | returned .refused | finished none => true
  | _ => false

def isPosting : WorkerPoint → Bool
  | posting _ => true
  | _ => false

def holds : WorkerPoint → Bool
  | posting _ | leaving _ => true
  | _ => false

theorem helper_of_acknowledged {p : WorkerPoint} {server : String}
    (h : p.acknowledged = some server) : p.helper = some server := by
  cases p with
  | leaving result => cases result <;> exact h
  | returned result => cases result <;> exact h
  | finished found => exact h
  | _ => cases h

theorem acknowledged_of_won {p : WorkerPoint} {server : String} (h : p.won = some server) :
    p.acknowledged = some server := by
  cases p with
  | finished found => exact h
  | _ => cases h

end WorkerPoint

structure ShareInvariant (prepared : PreparedInitialShareSubmission) (expired : Bool)
    (x : ShareState) : Prop where
  drawn : (x.posted ++ x.remainingServers).Perm prepared.candidateServers
  helpers : ∀ j server, (x.points j).helper = some server → server ∈ x.posted
  distinct : ∀ j k server, (x.points j).helper = some server → (x.points k).helper = some server →
    j = k
  acknowledged : ∀ server, server ∈ x.acknowledged ↔
    ∃ j, (x.points j).acknowledged = some server
  accepted : x.acceptedServers.Perm
    ((List.range prepared.targetCount).filterMap fun j => (x.points j).won)
  gaveUp : ∀ j, (x.points j).gaveUp = true → isExhausted expired x = true
  idle : ∀ j, prepared.targetCount ≤ j → x.points j = .deciding

variable {prepared : PreparedInitialShareSubmission} {expired : Bool} {x : ShareState} {j : Nat}

theorem shareInvariant_start (prepared : PreparedInitialShareSubmission) :
    ShareInvariant prepared false (startOfShare prepared.candidateServers) where
  drawn := .refl _
  helpers _ _ h := by cases h
  distinct _ _ _ h := by cases h
  acknowledged _ := by simp [startOfShare,WorkerPoint.acknowledged]
  accepted := by simp [startOfShare,WorkerPoint.won]
  gaveUp _ h := by cases h
  idle _ _ := rfl

@[simp] theorem setPoint_own (x : ShareState) (j : Nat) (p : WorkerPoint) :
    (x.setPoint j p).points j = p := Function.update_self _ _ _

@[simp] theorem setPoint_posted (x : ShareState) (j : Nat) (p : WorkerPoint) :
    (x.setPoint j p).posted = x.posted := rfl

@[simp] theorem setPoint_acknowledged (x : ShareState) (j : Nat) (p : WorkerPoint) :
    (x.setPoint j p).acknowledged = x.acknowledged := rfl

theorem setPoint_other (x : ShareState) {j k : Nat} (p : WorkerPoint) (h : k ≠ j) :
    (x.setPoint j p).points k = x.points k := Function.update_of_ne h _ _

theorem map_setPoint {β : Type} {f : WorkerPoint → β} {p : WorkerPoint}
    (hown : f p = f (x.points j)) :
    (fun k => f ((x.setPoint j p).points k)) = fun k => f (x.points k) := by
  funext k
  by_cases hk : k = j
  · rw [hk,setPoint_own,hown]
  · rw [setPoint_other x p hk]

theorem map_setPoint_apply {β : Type} {f : WorkerPoint → β} {p : WorkerPoint}
    (hown : f p = f (x.points j)) (k : Nat) : f ((x.setPoint j p).points k) = f (x.points k) :=
  congrFun (map_setPoint hown) k

namespace ShareInvariant

variable (h : ShareInvariant prepared expired x) (hj : j < prepared.targetCount)
include h

theorem posted_nodup : (x.posted ++ x.remainingServers).Nodup :=
  h.drawn.nodup_iff.mpr prepared.distinct

theorem expire : ShareInvariant prepared true x :=
  ⟨h.drawn,h.helpers,h.distinct,h.acknowledged,h.accepted,fun _ _ => rfl,h.idle⟩

include hj

theorem idle_setPoint (p : WorkerPoint) :
    ∀ k, prepared.targetCount ≤ k → (x.setPoint j p).points k = .deciding := by
  intro k hk
  have hne : k ≠ j := by omega
  rw [setPoint_other x p hne]
  exact h.idle k hk

theorem move {p : WorkerPoint} (hhelper : ∀ server, p.helper = some server →
      (x.points j).helper = some server)
    (hacknowledged : p.acknowledged = (x.points j).acknowledged) (hwon : p.won = (x.points j).won)
    (hgaveUp : p.gaveUp = true → isExhausted expired x = true) :
    ShareInvariant prepared expired (x.setPoint j p) := by
  have hhelpers : ∀ k server, ((x.setPoint j p).points k).helper = some server →
      (x.points k).helper = some server := by
    intro k server hk
    by_cases heq : k = j
    · subst heq
      rw [setPoint_own] at hk
      exact hhelper server hk
    · rwa [setPoint_other x p heq] at hk
  refine ⟨h.drawn,?_,?_,?_,?_,?_,?_⟩
  · exact fun k server hk => h.helpers k server (hhelpers k server hk)
  · exact fun k l server hk hl => h.distinct k l server (hhelpers k server hk) (hhelpers l server hl)
  · intro server
    simp only [map_setPoint_apply hacknowledged]
    exact h.acknowledged server
  · rw [map_setPoint hwon]
    exact h.accepted
  · intro k hk
    by_cases heq : k = j
    · subst heq
      rw [setPoint_own] at hk
      exact hgaveUp hk
    · rw [setPoint_other x p heq] at hk
      exact h.gaveUp k hk
  · exact h.idle_setPoint hj p

theorem post {server : String} (hpoint : x.points j = .waiting)
    (hserver : server ∈ x.remainingServers) :
    ShareInvariant prepared expired { x.setPoint j (.posting server) with
      remainingServers := x.remainingServers.erase server
      posted := x.posted ++ [server] } := by
  have hnodup := List.nodup_append.mp h.posted_nodup
  have hfresh : server ∉ x.posted := fun hmem => hnodup.2.2 server hmem server hserver rfl
  have hown : WorkerPoint.acknowledged (.posting server) = (x.points j).acknowledged := by
    rw [hpoint]
    rfl
  have hwon : WorkerPoint.won (.posting server) = (x.points j).won := by
    rw [hpoint]
    rfl
  refine ⟨?_,?_,?_,?_,?_,?_,?_⟩
  · refine List.Perm.trans ?_ h.drawn
    rw [List.append_assoc]
    exact (List.perm_cons_erase hserver).symm.append_left _
  · intro k other hk
    by_cases heq : k = j
    · subst heq
      simp only [ShareState.setPoint,Function.update_self] at hk
      cases hk
      exact List.mem_append_right _ (List.mem_singleton.mpr rfl)
    · simp only [ShareState.setPoint,Function.update_of_ne heq] at hk
      exact List.mem_append_left _ (h.helpers k other hk)
  · intro k l other hk hl
    by_cases hkj : k = j
    · by_cases hlj : l = j
      · rw [hkj,hlj]
      · subst hkj
        simp only [ShareState.setPoint,Function.update_self] at hk
        simp only [ShareState.setPoint,Function.update_of_ne hlj] at hl
        cases hk
        exact absurd (h.helpers l server hl) hfresh
    · simp only [ShareState.setPoint,Function.update_of_ne hkj] at hk
      by_cases hlj : l = j
      · subst hlj
        simp only [ShareState.setPoint,Function.update_self] at hl
        cases hl
        exact absurd (h.helpers k server hk) hfresh
      · simp only [ShareState.setPoint,Function.update_of_ne hlj] at hl
        exact h.distinct k l other hk hl
  · intro other
    have hsame := map_setPoint_apply (p := .posting server) hown
    dsimp only
    simp only [hsame]
    exact h.acknowledged other
  · have hsame := map_setPoint (p := .posting server) hwon
    dsimp only
    rw [hsame]
    exact h.accepted
  · intro k hk
    by_cases heq : k = j
    · subst heq
      simp only [ShareState.setPoint,Function.update_self] at hk
      cases hk
    · simp only [ShareState.setPoint,Function.update_of_ne heq] at hk
      have hexhausted := h.gaveUp k hk
      simp only [isExhausted,Bool.or_eq_true,decide_eq_true_eq] at hexhausted ⊢
      rcases hexhausted with hexpired | hnone
      · exact .inl hexpired
      · rw [hnone] at hserver
        cases hserver
  · exact h.idle_setPoint hj _

theorem acknowledge {server : String} (hpoint : x.points j = .posting server) :
    ShareInvariant prepared expired { x.setPoint j (.leaving (.accepted server)) with
      acknowledged := x.acknowledged ++ [server] } := by
  have hhelper := map_setPoint_apply (x := x) (j := j) (f := WorkerPoint.helper)
    (p := .leaving (.accepted server)) (by rw [hpoint]; rfl)
  have hwon := map_setPoint (x := x) (j := j) (f := WorkerPoint.won)
    (p := .leaving (.accepted server)) (by rw [hpoint]; rfl)
  have hgaveUp := map_setPoint_apply (x := x) (j := j) (f := WorkerPoint.gaveUp)
    (p := .leaving (.accepted server)) (by rw [hpoint]; rfl)
  refine ⟨h.drawn,?_,?_,?_,?_,?_,h.idle_setPoint hj _⟩
  · simpa only [hhelper,setPoint_posted] using h.helpers
  · simpa only [hhelper] using h.distinct
  · intro other
    have hold := h.acknowledged other
    simp only [List.mem_append,List.mem_singleton,hold]
    constructor
    · intro hother
      rcases hother with ⟨k,hk⟩ | rfl
      · have hne : k ≠ j := by
          intro heq
          rw [heq,hpoint] at hk
          cases hk
        refine ⟨k,?_⟩
        rw [setPoint_other x _ hne]
        exact hk
      · refine ⟨j,?_⟩
        rw [setPoint_own]
        rfl
    · intro hother
      obtain ⟨k,hk⟩ := hother
      by_cases heq : k = j
      · subst heq
        rw [setPoint_own] at hk
        cases hk
        exact .inr rfl
      · rw [setPoint_other x _ heq] at hk
        exact .inl ⟨k,hk⟩
  · dsimp only
    rw [hwon]
    exact h.accepted
  · intro k hk
    dsimp only at hk
    rw [hgaveUp] at hk
    exact h.gaveUp k hk

theorem accept {server : String} (hpoint : x.points j = .returned (.accepted server)) :
    ShareInvariant prepared expired { x.setPoint j (.finished (some server)) with
      acceptedServers := x.acceptedServers ++ [server] } := by
  have hhelper := map_setPoint_apply (x := x) (j := j) (f := WorkerPoint.helper)
    (p := .finished (some server)) (by rw [hpoint]; rfl)
  have hacknowledged := map_setPoint_apply (x := x) (j := j) (f := WorkerPoint.acknowledged)
    (p := .finished (some server)) (by rw [hpoint]; rfl)
  have hgaveUp := map_setPoint_apply (x := x) (j := j) (f := WorkerPoint.gaveUp)
    (p := .finished (some server)) (by rw [hpoint]; rfl)
  refine ⟨h.drawn,?_,?_,?_,?_,?_,h.idle_setPoint hj _⟩
  · simpa only [hhelper,setPoint_posted] using h.helpers
  · simpa only [hhelper] using h.distinct
  · simpa only [hacknowledged,setPoint_acknowledged] using h.acknowledged
  · have hnone : (x.points j).won = none := by
      rw [hpoint]
      rfl
    have hfound : ((x.setPoint j (.finished (some server))).points j).won = some server := by
      rw [setPoint_own]
      rfl
    have hsame : ∀ k, k ≠ j →
        ((x.setPoint j (.finished (some server))).points k).won = (x.points k).won := by
      intro k hk
      rw [setPoint_other x _ hk]
    have hadded := filterMap_update List.nodup_range (List.mem_range.mpr hj) hsame hnone hfound
    refine List.Perm.trans ?_ hadded.symm
    exact (List.perm_append_singleton _ _).trans (h.accepted.cons server)
  · intro k hk
    dsimp only at hk
    rw [hgaveUp] at hk
    exact h.gaveUp k hk

omit hj

theorem accepted_nodup : x.acceptedServers.Nodup := by
  rw [h.accepted.nodup_iff]
  refine List.Nodup.filterMap ?_ List.nodup_range
  intro j k server hj hk
  exact h.distinct j k server
    (WorkerPoint.helper_of_acknowledged (WorkerPoint.acknowledged_of_won hj))
    (WorkerPoint.helper_of_acknowledged (WorkerPoint.acknowledged_of_won hk))

theorem accepted_length_le : x.acceptedServers.length ≤ prepared.targetCount := by
  rw [h.accepted.length_eq]
  exact (List.length_filterMap_le _ _).trans_eq List.length_range

theorem mem_accepted (hfinished : ∀ j < prepared.targetCount, (x.points j).isFinished = true)
    (server : String) :
    server ∈ x.acceptedServers ↔ server ∈ x.acknowledged := by
  rw [h.accepted.mem_iff,h.acknowledged,List.mem_filterMap]
  constructor
  · intro hwon
    obtain ⟨j,-,hj⟩ := hwon
    exact ⟨j,WorkerPoint.acknowledged_of_won hj⟩
  · intro hacknowledged
    obtain ⟨j,hj⟩ := hacknowledged
    have hlt : j < prepared.targetCount := by
      by_contra hle
      rw [h.idle j (by omega)] at hj
      cases hj
    have hpoint := hfinished j hlt
    refine ⟨j,List.mem_range.mpr hlt,?_⟩
    cases hp : x.points j with
    | finished found =>
      rw [hp] at hj
      exact hj
    | _ =>
      rw [hp] at hpoint
      cases hpoint

theorem exhausted (hfinished : ∀ j < prepared.targetCount, (x.points j).isFinished = true)
    (hfewer : x.acceptedServers.length < prepared.targetCount) :
    expired = true ∨ ∀ server ∈ prepared.candidateServers, server ∈ x.posted := by
  rw [h.accepted.length_eq] at hfewer
  have hone : ∃ j < prepared.targetCount, (x.points j).won = none := by
    by_contra hnone
    push Not at hnone
    have hall : ((List.range prepared.targetCount).filterMap fun j => (x.points j).won).length =
        (List.range prepared.targetCount).length := by
      rw [List.length_filterMap_eq_countP,List.countP_eq_length]
      intro j hj
      exact Option.isSome_iff_ne_none.mpr (hnone j (List.mem_range.mp hj))
    rw [hall,List.length_range] at hfewer
    omega
  obtain ⟨j,hj,hwon⟩ := hone
  have hpoint := hfinished j hj
  have hgaveUp : (x.points j).gaveUp = true := by
    cases hp : x.points j with
    | finished found =>
      rw [hp] at hwon
      cases found with
      | none => rfl
      | some server => cases hwon
    | _ =>
      rw [hp] at hpoint
      cases hpoint
  have hexhausted := h.gaveUp j hgaveUp
  simp only [isExhausted,Bool.or_eq_true,decide_eq_true_eq] at hexhausted
  rcases hexhausted with hexpired | hnone
  · exact .inl hexpired
  · right
    intro server hserver
    have hdrawn := h.drawn
    rw [hnone,List.append_nil] at hdrawn
    exact hdrawn.mem_iff.mpr hserver

end ShareInvariant

end CoppiceWallet.Voting
