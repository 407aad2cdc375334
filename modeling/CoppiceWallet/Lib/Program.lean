import CoppiceWallet.Lib.Run

/-!
# Programs made of atomic sections

A program looks at a shared state and acts on it, one atomic section at a time, alone or as one
thread of a pool. An action that fails leaves the state as it was; the program goes on with what it
saw.
-/

namespace CoppiceWallet.Lib

variable {σ ι ε α β : Type}

inductive Program (σ ι ε α : Type)
  | finish (result : Except ε α)
  /-- Look at the state, and act on it unless the section only looks. -/
  | atomic (action : Option ι) (next : σ → Program σ ι ε α)

namespace Program

def bind : Program σ ι ε α → (α → Program σ ι ε β) → Program σ ι ε β
  | .finish (.ok a), f => f a
  | .finish (.error e), _ => .finish (.error e)
  | .atomic action next, f => .atomic action fun s => (next s).bind f

instance : Monad (Program σ ι ε) where
  pure a := .finish (.ok a)
  bind := bind

def look (f : σ → Except ε α) : Program σ ι ε α := .atomic none fun s => .finish (f s)

def perform (step : ι → σ → Except ε σ) (i : ι) : Program σ ι ε Unit :=
  .atomic (some i) fun s => .finish ((step i s).map fun _ => ())

/-- Perform an action after the program, however it ends. -/
def ensuring : Program σ ι ε α → ι → Program σ ι ε α
  | .finish result, i => .atomic (some i) fun _ => .finish result
  | .atomic action next, i => .atomic action fun s => (next s).ensuring i

/-- The state that a section leaves. -/
def after (step : ι → σ → Except ε σ) : Option ι → σ → σ
  | none, s => s
  | some i, s =>
    match step i s with
    | .ok t => t
    | .error _ => s

def run (step : ι → σ → Except ε σ) : Program σ ι ε α → σ → Except ε α × σ
  | .finish result, s => (result,s)
  | .atomic action next, s => (next s).run step (after step action s)

variable {step : ι → σ → Except ε σ}

@[simp] theorem run_finish (result : Except ε α) (s : σ) :
    (finish result : Program σ ι ε α).run step s = (result,s) := rfl

@[simp] theorem run_look (f : σ → Except ε α) (s : σ) :
    (look f : Program σ ι ε α).run step s = (f s,s) := rfl

@[simp] theorem run_perform (i : ι) (s : σ) :
    (perform step i).run step s = ((step i s).map fun _ => (),after step (some i) s) := rfl

theorem after_ok {i : ι} {s t : σ} (h : step i s = .ok t) : after step (some i) s = t := by
  simp [after,h]

theorem after_error {i : ι} {s : σ} {e : ε} (h : step i s = .error e) :
    after step (some i) s = s := by
  simp [after,h]

theorem run_perform_ok {i : ι} {s t : σ} (h : (perform step i).run step s = (.ok (),t)) :
    step i s = .ok t := by
  cases hi : step i s with
  | ok u =>
    rw [run_perform,hi,after_ok hi] at h
    cases h
    rfl
  | error e =>
    rw [run_perform,hi] at h
    cases h

theorem run_bind (p : Program σ ι ε α) (f : α → Program σ ι ε β) (s : σ) :
    (p >>= f).run step s =
      match p.run step s with
      | (.ok a,t) => (f a).run step t
      | (.error e,t) => (.error e,t) := by
  show (p.bind f).run step s = _
  induction p generalizing s with
  | finish result => cases result <;> rfl
  | atomic action next ih => exact ih s (after step action s)

theorem run_ensuring (p : Program σ ι ε α) (i : ι) (s : σ) :
    (p.ensuring i).run step s =
      ((p.run step s).1,after step (some i) (p.run step s).2) := by
  induction p generalizing s with
  | finish result => rfl
  | atomic action next ih => exact ih s (after step action s)

theorem after_invariant {P : σ → Prop} {i : ι} {s : σ} (h : ∀ t, step i s = .ok t → P t)
    (hs : P s) : P (after step (some i) s) := by
  cases hi : step i s with
  | ok t =>
    rw [after_ok hi]
    exact h t hi
  | error e =>
    rw [after_error hi]
    exact hs

/-- From a state with `pre`, a success ends in `post` and a failure in `fail`. -/
def Triple (step : ι → σ → Except ε σ) (pre : σ → Prop) (p : Program σ ι ε α)
    (post : α → σ → Prop) (fail : σ → Prop) : Prop :=
  ∀ s, pre s → match p.run step s with
    | (.ok a,t) => post a t
    | (.error _,t) => fail t

variable {pre : σ → Prop} {post : α → σ → Prop} {fail : σ → Prop}

theorem triple_finish {result : Except ε α} (hok : ∀ a s, pre s → result = .ok a → post a s)
    (herror : ∀ s, pre s → fail s) : Triple step pre (finish result) post fail := by
  intro s hs
  cases result with
  | ok a => exact hok a s hs rfl
  | error e => exact herror s hs

theorem triple_pure {a : α} (h : ∀ s, pre s → post a s) :
    Triple step pre (pure a : Program σ ι ε α) post fail :=
  fun s hs => h s hs

theorem triple_look {f : σ → Except ε α} (hok : ∀ a s, pre s → f s = .ok a → post a s)
    (herror : ∀ s, pre s → fail s) : Triple step pre (look f) post fail := by
  intro s hs
  rw [run_look]
  cases h : f s with
  | ok a => exact hok a s hs h
  | error e => exact herror s hs

theorem triple_perform {i : ι} {post : Unit → σ → Prop}
    (hok : ∀ s t, pre s → step i s = .ok t → post () t) (herror : ∀ s, pre s → fail s) :
    Triple step pre (perform step i) post fail := by
  intro s hs
  rw [run_perform]
  cases h : step i s with
  | ok t =>
    rw [after_ok h]
    exact hok s t hs h
  | error e =>
    rw [after_error h]
    exact herror s hs

theorem Triple.bind {p : Program σ ι ε α} {f : α → Program σ ι ε β} {post' : β → σ → Prop}
    (hp : Triple step pre p post fail) (hf : ∀ a, Triple step (post a) (f a) post' fail) :
    Triple step pre (p >>= f) post' fail := by
  intro s hs
  have hps := hp s hs
  rw [run_bind]
  cases hrun : p.run step s with
  | mk result t =>
    rw [hrun] at hps
    cases result with
    | ok a => exact hf a t hps
    | error e => exact hps

theorem Triple.mono {p : Program σ ι ε α} {pre' : σ → Prop} {post' : α → σ → Prop}
    {fail' : σ → Prop} (hp : Triple step pre p post fail) (hpre : ∀ s, pre' s → pre s)
    (hpost : ∀ a s, post a s → post' a s) (hfail : ∀ s, fail s → fail' s) :
    Triple step pre' p post' fail' := by
  intro s hs
  have hps := hp s (hpre s hs)
  split at hps
  · exact hpost _ _ hps
  · exact hfail _ hps

theorem triple_assume {p : Program σ ι ε α} {q : Prop} (hp : q → Triple step pre p post fail) :
    Triple step (fun s => pre s ∧ q) p post fail :=
  fun s hs => hp hs.2 s hs.1

theorem Triple.ensuring {p : Program σ ι ε α} {i : ι} (hp : Triple step pre p post fail)
    (hok : ∀ a s t, post a s → step i s = .ok t → post a t)
    (herror : ∀ s t, fail s → step i s = .ok t → fail t) :
    Triple step pre (p.ensuring i) post fail := by
  intro s hs
  have hps := hp s hs
  rw [run_ensuring]
  cases hrun : p.run step s with
  | mk result t =>
    rw [hrun] at hps
    cases result with
    | ok a => exact after_invariant (fun u => hok a t u hps) hps
    | error e => exact after_invariant (fun u => herror t u hps) hps

theorem Triple.last {p : Program σ ι ε α} {P : σ → Prop}
    (hp : Triple step pre p (fun _ => P) P) {s : σ} (hs : pre s) : P (p.run step s).2 := by
  have hps := hp s hs
  cases hrun : p.run step s with
  | mk result t =>
    rw [hrun] at hps
    cases result with
    | ok a => exact hps
    | error e => exact hps

theorem triple_of_last {p : Program σ ι ε α} {P : σ → Prop}
    (h : ∀ s, pre s → P (p.run step s).2) : Triple step pre p (fun _ => P) P := by
  intro s hs
  have hps := h s hs
  cases hrun : p.run step s with
  | mk result t =>
    rw [hrun] at hps
    cases result with
    | ok a => exact hps
    | error e => exact hps

end Program

/-- Threads that share a state. -/
structure Pool (σ ι ε α : Type) where
  state : σ
  threads : List (Program σ ι ε α)

/-- The thread takes its next section, unless its action has to wait. -/
def Pool.advance (step : ι → σ → Except ε σ) (waits : ι → σ → Bool) (thread : Nat)
    (pool : Pool σ ι ε α) : Except Unit (Pool σ ι ε α) :=
  match pool.threads[thread]? with
  | some (.atomic action next) =>
    if action.any fun i => waits i pool.state then .error ()
    else .ok ⟨Program.after step action pool.state,pool.threads.set thread (next pool.state)⟩
  | _ => .error ()

/-- A condition on the action that the thread is about to perform. -/
def Pool.Guard (guard : ι → σ → Prop) (thread : Nat) (pool : Pool σ ι ε α) : Prop :=
  ∀ i next, pool.threads[thread]? = some (.atomic (some i) next) → guard i pool.state

theorem Pool.advance_ok {step : ι → σ → Except ε σ} {waits : ι → σ → Bool} {thread : Nat}
    {pool pool' : Pool σ ι ε α} (h : Pool.advance step waits thread pool = .ok pool') :
    ∃ action next, pool.threads[thread]? = some (.atomic action next) ∧
      pool' = ⟨Program.after step action pool.state,pool.threads.set thread (next pool.state)⟩ := by
  unfold Pool.advance at h
  split at h
  · rename_i action next hthread
    split at h
    · cases h
    · cases h
      exact ⟨action,next,hthread,rfl⟩
  · cases h

theorem Pool.invariant {step : ι → σ → Except ε σ} {waits : ι → σ → Bool} {guard : ι → σ → Prop}
    {P : σ → Prop} (h : ∀ i s t, P s → guard i s → step i s = .ok t → P t)
    {pool pool' : Pool σ ι ε α}
    (hrun : GuardedRuns (Pool.advance step waits) (Pool.Guard guard) pool pool')
    (hP : P pool.state) : P pool'.state := by
  refine hrun.invariant (P := fun pool => P pool.state) (fun thread pool pool' hs hguard hstep => ?_)
    hP
  obtain ⟨action,next,hthread,rfl⟩ := Pool.advance_ok hstep
  cases action with
  | none => exact hs
  | some i => exact Program.after_invariant (fun t => h i _ t hs (hguard i next hthread)) hs

end CoppiceWallet.Lib
