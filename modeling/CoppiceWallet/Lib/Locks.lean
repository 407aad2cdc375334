import CoppiceWallet.Lib.Threads

/-!
# Locks of threads

A lock records the index of the thread that is inside its section, a flag only that there is one.
One thread is inside while it is taken, and none otherwise.
-/

namespace CoppiceWallet.Lib

/-- What a step of the thread `i` does to a lock, with whether the thread is inside the section. -/
inductive LockStep (i : Nat) : Option Nat → Bool → Option Nat → Bool → Prop
  | keep {lock : Option Nat} {inside : Bool} : LockStep i lock inside lock inside
  | take : LockStep i none false (some i) true
  | release {lock : Option Nat} : LockStep i lock true none false

/-- What a step does to a flag. -/
inductive FlagStep : Bool → Bool → Bool → Bool → Prop
  | keep {flag inside : Bool} : FlagStep flag inside flag inside
  | take : FlagStep false false true true
  | release {flag : Bool} : FlagStep flag true false false

theorem LockStep.free {i : Nat} {lock : Option Nat} {inside : Bool}
    (h : LockStep i lock false none inside) : lock = none := by
  cases h
  rfl

variable {σ τ ι : Type} {m : Threads σ τ ι} {inside : τ → Bool}

/-- The thread inside is the one of the lock, and there is no other one. -/
def HeldBy (inside : τ → Bool) (threads : List τ) (lock : Option Nat) : Prop :=
  ∀ i, lock = some i ↔ ∃ thread, threads[i]? = some thread ∧ inside thread = true

section
variable {threads : List τ} {lock : Option Nat}

theorem HeldBy.held {i : Nat} {thread : τ} (h : HeldBy inside threads lock)
    (hthread : threads[i]? = some thread) (hinside : inside thread = true) : lock = some i :=
  (h i).mpr ⟨thread,hthread,hinside⟩

theorem heldBy_nil : HeldBy inside [] none := by
  intro i
  simp

theorem HeldBy.started {thread : τ} (h : HeldBy inside threads lock)
    (houtside : inside thread = false) : HeldBy inside (threads ++ [thread]) lock := by
  intro i
  constructor
  · intro hi
    obtain ⟨u,hu,hinside⟩ := (h i).mp hi
    exact ⟨u,getElem?_append_of_some hu,hinside⟩
  · rintro ⟨u,hu,hinside⟩
    rcases getElem?_started hu with hu | ⟨-,rfl⟩
    · exact h.held hu hinside
    · rw [houtside] at hinside
      cases hinside

theorem HeldBy.advanced {i : Nat} {thread thread' : τ} {lock' : Option Nat}
    (h : HeldBy inside threads lock) (hthread : threads[i]? = some thread)
    (hstep : LockStep i lock (inside thread) lock' (inside thread')) :
    HeldBy inside (threads.set i thread') lock' := by
  generalize hb : inside thread = b at hstep
  generalize hb' : inside thread' = b' at hstep
  have hown := getElem?_set_own (v := thread') hthread
  intro j
  constructor
  · intro hj
    by_cases hij : j = i
    · subst hij
      refine ⟨thread',hown,?_⟩
      cases hstep with
      | keep =>
        obtain ⟨u,hu,hinside⟩ := (h j).mp hj
        rw [hthread] at hu
        cases hu
        rw [hb',← hb,hinside]
      | take => exact hb'
      | release => cases hj
    · have hbefore : lock = some j := by
        cases hstep with
        | keep => exact hj
        | take => exact absurd (Option.some.inj hj).symm hij
        | release => cases hj
      obtain ⟨u,hu,hinside⟩ := (h j).mp hbefore
      exact ⟨u,(getElem?_set_other hij).trans hu,hinside⟩
  · rintro ⟨u,hu,hinside⟩
    rcases getElem?_advanced hu with ⟨rfl,rfl⟩ | ⟨hij,hu⟩
    · have hin : b' = true := hb'.symm.trans hinside
      cases hstep with
      | keep => exact h.held hthread (hb.trans hin)
      | take => rfl
      | release => cases hin
    · have hheld := h.held hu hinside
      cases hstep with
      | keep => exact hheld
      | take => cases hheld
      | release =>
        have hsame := (h.held hthread hb).symm.trans hheld
        exact absurd (Option.some.inj hsame).symm hij

end

/-- The threads inside are those that the lock records. -/
def ThreadPool.Locked (lock : σ → Option Nat) (inside : τ → Bool) (p : ThreadPool σ τ) : Prop :=
  HeldBy inside p.threads (lock p.shared)

/-- The flag is set while a thread is inside, and then there is one. -/
def ThreadPool.Flagged (flag : σ → Bool) (inside : τ → Bool) (p : ThreadPool σ τ) : Prop :=
  ∃ lock, flag p.shared = lock.isSome ∧ HeldBy inside p.threads lock

variable {lock : σ → Option Nat} {flag : σ → Bool} {p q : ThreadPool σ τ}

theorem ThreadPool.Locked.held {i : Nat} {thread : τ} (hp : p.Locked lock inside)
    (hthread : p.threads[i]? = some thread) (hinside : inside thread = true) :
    lock p.shared = some i :=
  HeldBy.held hp hthread hinside

theorem ThreadPool.Locked.exclusive {i j : Nat} {thread other : τ} (hp : p.Locked lock inside)
    (hthread : p.threads[i]? = some thread) (hinside : inside thread = true)
    (hother : p.threads[j]? = some other) (hne : j ≠ i) : inside other = false := by
  by_contra h
  have hheld := hp.held hother (by simpa using h)
  rw [hp.held hthread hinside] at hheld
  exact hne (Option.some.inj hheld).symm

theorem locked_nil {s : σ} (h : lock s = none) : ThreadPool.Locked lock inside ⟨s,[]⟩ := by
  rw [ThreadPool.Locked,h]
  exact heldBy_nil

theorem ThreadPool.Locked.advanced {i : Nat} {thread thread' : τ} {s' : σ}
    (hp : p.Locked lock inside) (hthread : p.threads[i]? = some thread)
    (hstep : LockStep i (lock p.shared) (inside thread) (lock s') (inside thread')) :
    ThreadPool.Locked lock inside ⟨s',p.threads.set i thread'⟩ :=
  HeldBy.advanced hp hthread hstep

theorem ThreadPool.Locked.step {input : ThreadInput τ ι}
    (hinitial : ∀ thread, m.initial thread = true → inside thread = false)
    (hadvance : ∀ i choice s thread s' thread', m.advance i choice s thread = some (s',thread') →
      LockStep i (lock s) (inside thread) (lock s') (inside thread'))
    (hp : p.Locked lock inside) (hstep : m.step input p = .ok q) : q.Locked lock inside := by
  cases input with
  | start thread =>
    obtain ⟨hstart,rfl⟩ := Threads.step_start hstep
    exact HeldBy.started hp (hinitial _ hstart)
  | advance i choice =>
    obtain ⟨thread,shared,thread',hthread,hadv,rfl⟩ := Threads.step_advance hstep
    exact hp.advanced hthread (hadvance _ _ _ _ _ _ hadv)

theorem ThreadPool.Flagged.exclusive {i j : Nat} {thread other : τ} (hp : p.Flagged flag inside)
    (hthread : p.threads[i]? = some thread) (hinside : inside thread = true)
    (hother : p.threads[j]? = some other) (hinside' : inside other = true) : i = j := by
  obtain ⟨lock,-,hlock⟩ := hp
  exact Option.some.inj ((hlock.held hthread hinside).symm.trans (hlock.held hother hinside'))

theorem ThreadPool.Flagged.flag_eq_true {i : Nat} {thread : τ} (hp : p.Flagged flag inside)
    (hthread : p.threads[i]? = some thread) (hinside : inside thread = true) :
    flag p.shared = true := by
  obtain ⟨lock,hflag,hlock⟩ := hp
  rw [hflag,hlock.held hthread hinside]
  rfl

theorem ThreadPool.Flagged.threadInside (hp : p.Flagged flag inside) (h : flag p.shared = true) :
    ∃ (i : Nat) (thread : τ), p.threads[i]? = some thread ∧ inside thread = true := by
  obtain ⟨lock,hflag,hlock⟩ := hp
  rw [hflag] at h
  obtain ⟨i,hi⟩ := Option.isSome_iff_exists.mp h
  obtain ⟨thread,hthread⟩ := (hlock i).mp hi
  exact ⟨i,thread,hthread⟩

theorem flagged_nil {s : σ} (h : flag s = false) : ThreadPool.Flagged flag inside ⟨s,[]⟩ :=
  ⟨none,h,heldBy_nil⟩

theorem ThreadPool.Flagged.step {input : ThreadInput τ ι}
    (hinitial : ∀ thread, m.initial thread = true → inside thread = false)
    (hadvance : ∀ i choice s thread s' thread', m.advance i choice s thread = some (s',thread') →
      FlagStep (flag s) (inside thread) (flag s') (inside thread'))
    (hp : p.Flagged flag inside) (hstep : m.step input p = .ok q) : q.Flagged flag inside := by
  obtain ⟨lock,hflag,hlock⟩ := hp
  cases input with
  | start thread =>
    obtain ⟨hstart,rfl⟩ := Threads.step_start hstep
    exact ⟨lock,hflag,hlock.started (hinitial _ hstart)⟩
  | advance i choice =>
    obtain ⟨thread,s',thread',hthread,hadv,rfl⟩ := Threads.step_advance hstep
    have hstep := hadvance _ _ _ _ _ _ hadv
    suffices h : ∃ lock', flag s' = lock'.isSome ∧
        LockStep i lock (inside thread) lock' (inside thread') by
      obtain ⟨lock',hflag',hlocks⟩ := h
      exact ⟨lock',hflag',hlock.advanced hthread hlocks⟩
    rw [hflag] at hstep
    generalize inside thread = b at hstep ⊢
    generalize inside thread' = b' at hstep ⊢
    generalize flag s' = f' at hstep ⊢
    generalize hf : lock.isSome = f at hstep
    cases hstep with
    | keep => exact ⟨lock,hf.symm,.keep⟩
    | take =>
      cases lock with
      | none => exact ⟨some i,rfl,.take⟩
      | some k => cases hf
    | release => exact ⟨none,rfl,.release⟩

end CoppiceWallet.Lib
