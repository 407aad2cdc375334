import Mathlib.Algebra.GroupWithZero.Nat
import Mathlib.Algebra.Order.BigOperators.Group.List
import Mathlib.Algebra.Order.Group.Nat
import CoppiceWallet.Lib.Locks

/-!
# Threads that can come to rest

A rank says how much a thread has left to do; at rest it is zero. When some thread can always go on
with less left to do, as long as one is not at rest, no thread waits for ever: the threads of every
pool that is reached can be brought to rest, whatever was started before.
-/

namespace CoppiceWallet.Lib

variable {σ τ ι : Type}

/-- What the threads have left to do. -/
def ThreadPool.work (rank : τ → Nat) (p : ThreadPool σ τ) : Nat := (p.threads.map rank).sum

variable {m : Threads σ τ ι} {rank : τ → Nat} {p q : ThreadPool σ τ}

/-- A thread goes on, with less left to do. -/
def Threads.CanWork (m : Threads σ τ ι) (rank : τ → Nat) (p : ThreadPool σ τ) : Prop :=
  ∃ i choice thread s' thread', p.threads[i]? = some thread ∧
    m.advance i choice p.shared thread = some (s',thread') ∧ rank thread' < rank thread

/-- Moves of the threads that are there, no more than there is to do, bring all of them to rest. -/
def Threads.CanRest (m : Threads σ τ ι) (rank : τ → Nat) (p : ThreadPool σ τ) : Prop :=
  ∃ (moves : List (Nat × ι)) (q : ThreadPool σ τ), moves.length ≤ p.work rank ∧
    execute m.step (moves.map fun move => .advance move.1 move.2) p = .ok q ∧
    ∀ thread ∈ q.threads, rank thread = 0

theorem canWork_of_any {i : Nat} {choice : ι} {thread : τ} (hi : p.threads[i]? = some thread)
    (h : (m.advance i choice p.shared thread).any
      (fun next => decide (rank next.2 < rank thread)) = true) : m.CanWork rank p := by
  obtain ⟨⟨s',thread'⟩,hadvance,hless⟩ := (Option.any_eq_true _ _).mp h
  exact ⟨i,choice,thread,s',thread',hi,hadvance,of_decide_eq_true hless⟩

theorem work_set (rank : τ → Nat) {threads : List τ} {i : Nat} {thread : τ} (thread' : τ)
    (h : threads[i]? = some thread) :
    ((threads.set i thread').map rank).sum + rank thread =
      (threads.map rank).sum + rank thread' := by
  induction threads generalizing i with
  | nil => simp at h
  | cons first rest ih =>
    cases i with
    | zero =>
      have hfirst : first = thread := by simpa using h
      simp only [List.set_cons_zero,List.map_cons,List.sum_cons,hfirst]
      omega
    | succ i =>
      have hrest := ih (by simpa using h)
      simp only [List.set_cons_succ,List.map_cons,List.sum_cons]
      omega

theorem canWork_of_level (level : τ → Nat)
    (h : ∀ (i : Nat) (thread : τ), p.threads[i]? = some thread → 0 < rank thread →
      m.CanWork rank p ∨ ∃ (j : Nat) (other : τ), p.threads[j]? = some other ∧ 0 < rank other ∧
        level other < level thread)
    {i : Nat} {thread : τ} (hthread : p.threads[i]? = some thread) (hrank : 0 < rank thread) :
    m.CanWork rank p := by
  induction hlevel : level thread using Nat.strongRecOn generalizing i thread with
  | _ n ih =>
    rcases h i thread hthread hrank with hwork | ⟨j,other,hother,hpositive,hlower⟩
    · exact hwork
    · exact ih (level other) (hlevel ▸ hlower) hother hpositive rfl

variable {κ : Type} (lock : κ → σ → Option Nat) (inside : κ → τ → Bool)

theorem canWork_of_locks (level : τ → Nat) (hlocked : ∀ k, p.Locked (lock k) (inside k))
    (h : ∀ (i : Nat) (thread : τ), p.threads[i]? = some thread → 0 < rank thread →
      m.CanWork rank p ∨ ∃ k, lock k p.shared ≠ none ∧ ∀ other, inside k other = true →
        0 < rank other ∧ level other < level thread)
    {i : Nat} {thread : τ} (hthread : p.threads[i]? = some thread) (hrank : 0 < rank thread) :
    m.CanWork rank p := by
  refine canWork_of_level level (fun i thread hi hrank => ?_) hthread hrank
  refine (h i thread hi hrank).imp_right fun ⟨k,hheld,hlower⟩ => ?_
  obtain ⟨j,hj⟩ := Option.ne_none_iff_exists'.mp hheld
  obtain ⟨other,hother,hinside⟩ := (hlocked k j).mp hj
  exact ⟨j,other,hother,hlower other hinside⟩

variable {I : ThreadPool σ τ → Prop} {Q : σ → Nat → τ → Prop}

theorem Threads.outline_trivial (guard : ThreadInput τ ι → ThreadPool σ τ → Prop) :
    m.Outline guard (fun _ => True) (fun _ _ _ => True) where
  started _ _ := ⟨trivial,trivial⟩
  own _ _ _ _ := ⟨trivial,trivial⟩
  others _ _ _ _ _ _ _ _ := trivial

theorem Threads.Outline.withLocks {guard : ThreadInput τ ι → ThreadPool σ τ → Prop}
    (h : m.Outline guard I Q)
    (hinitial : ∀ k thread, m.initial thread = true → inside k thread = false)
    (hadvance : ∀ {p : ThreadPool σ τ} {i choice thread s' thread'}, p.Holds I Q →
      p.threads[i]? = some thread → m.advance i choice p.shared thread = some (s',thread') →
        ∀ k, LockStep i (lock k p.shared) (inside k thread) (lock k s') (inside k thread')) :
    m.Outline guard (fun p => I p ∧ ∀ k, p.Locked (lock k) (inside k)) Q where
  started hp hstart :=
    have hstarted := h.started ⟨hp.invariant.1,hp.thread⟩ hstart
    ⟨⟨hstarted.1,fun k => HeldBy.started (hp.invariant.2 k) (hinitial k _ hstart)⟩,hstarted.2⟩
  own hp hguard hthread hadv :=
    have hown := h.own ⟨hp.invariant.1,hp.thread⟩ hguard hthread hadv
    ⟨⟨hown.1,fun k => (hp.invariant.2 k).advanced hthread
      (hadvance ⟨hp.invariant.1,hp.thread⟩ hthread hadv k)⟩,hown.2⟩
  others hp hguard hthread hadv := h.others ⟨hp.invariant.1,hp.thread⟩ hguard hthread hadv

theorem Threads.Outline.canRest (h : m.Outline (fun _ _ => True) I Q)
    (hwork : ∀ p : ThreadPool σ τ, p.Holds I Q → ∀ (i : Nat) (thread : τ),
      p.threads[i]? = some thread → 0 < rank thread → m.CanWork rank p)
    (hp : p.Holds I Q) : m.CanRest rank p := by
  induction hn : p.work rank using Nat.strongRecOn generalizing p with
  | _ n ih =>
    by_cases hrest : ∀ thread ∈ p.threads, rank thread = 0
    · exact ⟨[],p,Nat.zero_le _,rfl,hrest⟩
    · push Not at hrest
      obtain ⟨thread,hmem,hrank⟩ := hrest
      obtain ⟨i,hi⟩ := List.getElem?_of_mem hmem
      obtain ⟨j,choice,next,s',next',hnext,hadvance,hless⟩ :=
        hwork p hp i thread hi (Nat.pos_of_ne_zero hrank)
      have hstep := Threads.step_of_advance hnext hadvance
      have hset := work_set rank next' hnext
      have hlower : ThreadPool.work rank ⟨s',p.threads.set j next'⟩ + 1 ≤ p.work rank := by
        simp only [ThreadPool.work]
        omega
      obtain ⟨moves,q,hlength,hrun,hq⟩ := ih _ (by omega) (h.step hp trivial hstep) rfl
      refine ⟨(j,choice) :: moves,q,?_,?_,hq⟩
      · rw [List.length_cons]
        omega
      · rw [List.map_cons,execute,hstep]
        exact hrun

end CoppiceWallet.Lib
