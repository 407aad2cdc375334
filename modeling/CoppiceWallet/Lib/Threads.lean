import Mathlib.Data.List.Basic
import CoppiceWallet.Lib.Run

/-!
# Threads over a shared state

A pool is a shared state with the threads that work on it. Assertions about the shared state and the
point of a thread hold in every pool that is reached, when the steps of a thread keep its own
assertion and break no other one.
-/

namespace CoppiceWallet.Lib

structure ThreadPool (σ τ : Type) where
  shared : σ
  threads : List τ

inductive ThreadInput (τ ι : Type)
  | start (thread : τ)
  | advance (thread : Nat) (choice : ι)

/-- The points at which threads start, and what the thread with an index does at a point; a thread
without a step waits. -/
structure Threads (σ τ ι : Type) where
  initial : τ → Bool
  advance : Nat → ι → σ → τ → Option (σ × τ)

variable {σ τ ι : Type} {m : Threads σ τ ι}

def Threads.step (m : Threads σ τ ι) : ThreadInput τ ι → ThreadPool σ τ → Except Unit (ThreadPool σ τ)
  | .start thread, p =>
    if m.initial thread then .ok ⟨p.shared,p.threads ++ [thread]⟩ else .error ()
  | .advance i choice, p =>
    match p.threads[i]? with
    | none => .error ()
    | some thread =>
      match m.advance i choice p.shared thread with
      | none => .error ()
      | some (shared,thread) => .ok ⟨shared,p.threads.set i thread⟩

variable {p q : ThreadPool σ τ} {thread : τ}

theorem Threads.step_start (h : m.step (.start thread) p = .ok q) :
    m.initial thread = true ∧ q = ⟨p.shared,p.threads ++ [thread]⟩ := by
  rw [Threads.step] at h
  split at h
  · rename_i hinitial
    cases h
    exact ⟨hinitial,rfl⟩
  · cases h

theorem Threads.step_advance {i : Nat} {choice : ι} (h : m.step (.advance i choice) p = .ok q) :
    ∃ thread shared thread', p.threads[i]? = some thread ∧
      m.advance i choice p.shared thread = some (shared,thread') ∧
      q = ⟨shared,p.threads.set i thread'⟩ := by
  rw [Threads.step] at h
  split at h
  · cases h
  · rename_i thread hthread
    split at h
    · cases h
    · rename_i shared thread' hadvance
      cases h
      exact ⟨thread,shared,thread',hthread,hadvance,rfl⟩

theorem Threads.step_of_start (h : m.initial thread = true) :
    m.step (.start thread) p = .ok ⟨p.shared,p.threads ++ [thread]⟩ := by
  rw [Threads.step,if_pos h]

theorem Threads.step_of_advance {i : Nat} {choice : ι} {thread' : τ} {shared : σ}
    (hthread : p.threads[i]? = some thread)
    (hadvance : m.advance i choice p.shared thread = some (shared,thread')) :
    m.step (.advance i choice) p = .ok ⟨shared,p.threads.set i thread'⟩ := by
  simp only [Threads.step,hthread,hadvance]

variable {threads : List τ}

theorem getElem?_advanced {i j : Nat} {u : τ} (h : (threads.set i thread)[j]? = some u) :
    j = i ∧ u = thread ∨ j ≠ i ∧ threads[j]? = some u := by
  by_cases hj : i = j
  · subst hj
    rw [List.getElem?_set_self'] at h
    obtain ⟨v,hv,rfl⟩ := Option.map_eq_some_iff.mp h
    exact .inl ⟨rfl,rfl⟩
  · rw [List.getElem?_set_ne hj] at h
    exact .inr ⟨Ne.symm hj,h⟩

theorem getElem?_started {j : Nat} {u : τ} (h : (threads ++ [thread])[j]? = some u) :
    threads[j]? = some u ∨ j = threads.length ∧ u = thread := by
  by_cases hj : j < threads.length
  · rw [List.getElem?_append_left hj] at h
    exact .inl h
  · have hlt := (List.getElem?_eq_some_iff.mp h).1
    rw [List.length_append,List.length_singleton] at hlt
    have hlast : j = threads.length := by omega
    subst hlast
    rw [List.getElem?_concat_length] at h
    exact .inr ⟨rfl,(Option.some.inj h).symm⟩

theorem getElem?_set_other {i j : Nat} {v : τ} (h : j ≠ i) : (threads.set i v)[j]? = threads[j]? :=
  List.getElem?_set_ne (Ne.symm h)

theorem getElem?_set_own {i : Nat} {v u : τ} (h : threads[i]? = some u) :
    (threads.set i v)[i]? = some v :=
  List.getElem?_set_self (List.getElem?_eq_some_iff.mp h).1

theorem getElem?_append_of_some {i : Nat} {u : τ} (h : threads[i]? = some u) :
    (threads ++ [thread])[i]? = some u := by
  rw [List.getElem?_append_left (List.getElem?_eq_some_iff.mp h).1]
  exact h

/-- The pool meets an invariant, and every thread of it the assertion of its point. -/
structure ThreadPool.Holds (I : ThreadPool σ τ → Prop) (Q : σ → Nat → τ → Prop) (p : ThreadPool σ τ) : Prop where
  invariant : I p
  thread : ∀ i thread, p.threads[i]? = some thread → Q p.shared i thread

/-- What makes assertions hold throughout: a thread starts with its own, keeps it and the invariant
by its steps, and does not interfere with those of others. -/
structure Threads.Outline (m : Threads σ τ ι) (guard : ThreadInput τ ι → ThreadPool σ τ → Prop)
    (I : ThreadPool σ τ → Prop) (Q : σ → Nat → τ → Prop) : Prop where
  started : ∀ {p : ThreadPool σ τ} {thread}, p.Holds I Q → m.initial thread = true →
    I ⟨p.shared,p.threads ++ [thread]⟩ ∧ Q p.shared p.threads.length thread
  own : ∀ {p : ThreadPool σ τ} {i choice thread s' thread'}, p.Holds I Q → guard (.advance i choice) p →
    p.threads[i]? = some thread → m.advance i choice p.shared thread = some (s',thread') →
      I ⟨s',p.threads.set i thread'⟩ ∧ Q s' i thread'
  others : ∀ {p : ThreadPool σ τ} {i choice thread s' thread'}, p.Holds I Q →
    guard (.advance i choice) p → p.threads[i]? = some thread →
    m.advance i choice p.shared thread = some (s',thread') →
      ∀ j other, j ≠ i → p.threads[j]? = some other → Q s' j other

variable {guard : ThreadInput τ ι → ThreadPool σ τ → Prop} {I : ThreadPool σ τ → Prop} {Q : σ → Nat → τ → Prop}

theorem Threads.Outline.step (h : m.Outline guard I Q) {input : ThreadInput τ ι} (hp : p.Holds I Q)
    (hguard : guard input p) (hstep : m.step input p = .ok q) : q.Holds I Q := by
  cases input with
  | start thread =>
    obtain ⟨hinitial,rfl⟩ := Threads.step_start hstep
    obtain ⟨hinvariant,hown⟩ := h.started hp hinitial
    refine ⟨hinvariant,fun j u hu => ?_⟩
    rcases getElem?_started hu with hu | ⟨rfl,rfl⟩
    · exact hp.thread j u hu
    · exact hown
  | advance i choice =>
    obtain ⟨thread,shared,thread',hthread,hadvance,rfl⟩ := Threads.step_advance hstep
    obtain ⟨hinvariant,hown⟩ := h.own hp hguard hthread hadvance
    refine ⟨hinvariant,fun j u hu => ?_⟩
    rcases getElem?_advanced hu with ⟨rfl,rfl⟩ | ⟨hj,hu⟩
    · exact hown
    · exact h.others hp hguard hthread hadvance j u hj hu

theorem Threads.Outline.guardedRuns (h : m.Outline guard I Q) (hrun : GuardedRuns m.step guard p q)
    (hp : p.Holds I Q) : q.Holds I Q :=
  hrun.invariant (P := fun p => p.Holds I Q) (fun _ _ _ hp hguard hstep => h.step hp hguard hstep) hp

theorem Threads.Outline.runs (h : m.Outline (fun _ _ => True) I Q) (hrun : Runs m.step p q)
    (hp : p.Holds I Q) : q.Holds I Q :=
  hrun.invariant (P := fun p => p.Holds I Q) (fun _ _ _ hp hstep => h.step hp trivial hstep) hp

theorem holds_nil {s : σ} (h : I ⟨s,[]⟩) : ThreadPool.Holds I Q ⟨s,[]⟩ :=
  ⟨h,fun _ _ hthread => by cases hthread⟩

end CoppiceWallet.Lib
