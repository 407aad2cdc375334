import Mathlib.Order.Basic

/-!
# Runs of a state machine

A machine is a partial step function. What one step preserves, under a condition on the step and the
state before it, a whole run preserves under the condition at each of its steps.
-/

namespace CoppiceWallet.Lib

variable {σ ι ε : Type}

/-- The runs of `step`, from the first state to the last. -/
inductive Runs (step : ι → σ → Except ε σ) : σ → σ → Prop
  | refl (s : σ) : Runs step s s
  | tail {s t u : σ} (i : ι) (h : Runs step s t) (hstep : step i t = .ok u) : Runs step s u

/-- The runs whose steps all meet a condition on the step and the state before it. -/
inductive GuardedRuns (step : ι → σ → Except ε σ) (guard : ι → σ → Prop) : σ → σ → Prop
  | refl (s : σ) : GuardedRuns step guard s s
  | tail {s t u : σ} (i : ι) (h : GuardedRuns step guard s t) (hguard : guard i t)
      (hstep : step i t = .ok u) : GuardedRuns step guard s u

variable {step : ι → σ → Except ε σ} {guard : ι → σ → Prop}

theorem Runs.invariant {P : σ → Prop} (hstep : ∀ i s t, P s → step i s = .ok t → P t) {s t : σ}
    (h : Runs step s t) (hs : P s) : P t := by
  induction h with
  | refl => exact hs
  | tail i _ hi ih => exact hstep i _ _ ih hi

theorem GuardedRuns.invariant {P : σ → Prop}
    (hstep : ∀ i s t, P s → guard i s → step i s = .ok t → P t) {s t : σ}
    (h : GuardedRuns step guard s t) (hs : P s) : P t := by
  induction h with
  | refl => exact hs
  | tail i _ hguard hi ih => exact hstep i _ _ ih hguard hi

theorem GuardedRuns.runs {s t : σ} (h : GuardedRuns step guard s t) : Runs step s t := by
  induction h with
  | refl => exact .refl _
  | tail i _ _ hstep ih => exact .tail i ih hstep

theorem GuardedRuns.weaken {guard' : ι → σ → Prop} (himp : ∀ i s, guard i s → guard' i s) {s t : σ}
    (h : GuardedRuns step guard s t) : GuardedRuns step guard' s t := by
  induction h with
  | refl => exact .refl _
  | tail i _ hguard hi ih => exact .tail i ih (himp i _ hguard) hi

/-- The state after a list of steps, when none of them fails. -/
def execute (step : ι → σ → Except ε σ) : List ι → σ → Except ε σ
  | [], s => .ok s
  | i :: is, s => step i s >>= execute step is

theorem Runs.head {s t u : σ} {i : ι} (hi : step i s = .ok t) (h : Runs step t u) :
    Runs step s u := by
  induction h with
  | refl => exact .tail i (.refl _) hi
  | tail j _ hj ih => exact .tail j ih hj

theorem runs_of_execute {is : List ι} {s t : σ} (h : execute step is s = .ok t) :
    Runs step s t := by
  induction is generalizing s with
  | nil =>
    cases h
    exact .refl _
  | cons i is ih =>
    cases hi : step i s with
    | error e =>
      rw [execute,hi] at h
      cases h
    | ok u =>
      rw [execute,hi] at h
      exact (ih h).head hi

theorem execute_invariant {P : σ → Prop} {is : List ι}
    (hstep : ∀ i ∈ is, ∀ s t, P s → step i s = .ok t → P t) {s t : σ}
    (h : execute step is s = .ok t) (hs : P s) : P t := by
  induction is generalizing s with
  | nil =>
    cases h
    exact hs
  | cons i is ih =>
    cases hi : step i s with
    | error e =>
      rw [execute,hi] at h
      cases h
    | ok u =>
      rw [execute,hi] at h
      exact ih (fun j hj => hstep j (List.mem_cons_of_mem _ hj)) h (hstep i List.mem_cons_self s u hs hi)

theorem execute_length_le {P : σ → Prop} {rank : σ → Nat}
    (hstep : ∀ i s t, P s → step i s = .ok t → P t ∧ rank t < rank s) {is : List ι} {s t : σ}
    (h : execute step is s = .ok t) (hs : P s) : is.length + rank t ≤ rank s := by
  induction is generalizing s with
  | nil =>
    cases h
    simp
  | cons i is ih =>
    cases hi : step i s with
    | error e =>
      rw [execute,hi] at h
      cases h
    | ok u =>
      rw [execute,hi] at h
      have hu := hstep i s u hs hi
      have hrest := ih h hu.1
      rw [List.length_cons]
      omega

theorem GuardedRuns.head {s t u : σ} {i : ι} (hguard : guard i s) (hi : step i s = .ok t)
    (h : GuardedRuns step guard t u) : GuardedRuns step guard s u := by
  induction h with
  | refl => exact .tail i (.refl _) hguard hi
  | tail j _ hj hstep ih => exact .tail j ih hj hstep

/-- The state after a list of steps, when none of them fails or misses its condition. -/
def guardedExecute (step : ι → σ → Except ε σ) (guard : ι → σ → Prop)
    [∀ i s, Decidable (guard i s)] : List ι → σ → Option σ
  | [], s => some s
  | i :: is, s =>
    if guard i s then
      match step i s with
      | .ok t => guardedExecute step guard is t
      | .error _ => none
    else none

theorem guardedRuns_of_execute [∀ i s, Decidable (guard i s)] {is : List ι} {s t : σ}
    (h : guardedExecute step guard is s = some t) : GuardedRuns step guard s t := by
  induction is generalizing s with
  | nil =>
    cases h
    exact .refl _
  | cons i is ih =>
    unfold guardedExecute at h
    split at h
    · rename_i hguard
      split at h
      · rename_i hi
        exact (ih h).head hguard hi
      · cases h
    · cases h

/-- A condition on every step of a run, and the state before it. -/
def EveryStep (next : σ → ι → σ) (P : σ → ι → Prop) : σ → List ι → Prop
  | _, [] => True
  | s, i :: is => P s i ∧ EveryStep next P (next s i) is

section

variable {next : σ → ι → σ} {P Q : σ → ι → Prop} {I : σ → Prop} {s : σ}

theorem EveryStep.of_append {is js : List ι} (h : EveryStep next P s (is ++ js)) :
    EveryStep next P s is := by
  induction is generalizing s with
  | nil => trivial
  | cons i is ih => exact ⟨h.1,ih h.2⟩

theorem EveryStep.invariant {is : List ι} (hstep : ∀ s i, I s → P s i → I (next s i)) (hs : I s)
    (h : EveryStep next P s is) : I (is.foldl next s) := by
  induction is generalizing s with
  | nil => exact hs
  | cons i is ih => exact ih (hstep s i hs h.1) h.2

theorem everyStep_congr {is : List ι} (hcongr : ∀ s i, I s → (P s i ↔ Q s i))
    (hstep : ∀ s i, I s → Q s i → I (next s i)) (hs : I s) :
    EveryStep next P s is ↔ EveryStep next Q s is := by
  induction is generalizing s with
  | nil => exact Iff.rfl
  | cons i is ih =>
    constructor
    · intro h
      have hi := (hcongr s i hs).mp h.1
      exact ⟨hi,(ih (hstep s i hs hi)).mp h.2⟩
    · intro h
      exact ⟨(hcongr s i hs).mpr h.1,(ih (hstep s i hs h.1)).mpr h.2⟩

end

/-! ## Histories

A history lists the events of a run, the latest first. A property that relates an event to the events
before it holds of a whole history when it holds of each event as it is recorded.
-/

section

variable {α : Type} {P Q : α → List α → Prop} {e : α} {history : List α}

/-- Every event stands in the relation to the events before it. -/
def Grounded (P : α → List α → Prop) (history : List α) : Prop :=
  ∀ newer e older, history = newer ++ e :: older → P e older

theorem grounded_nil : Grounded P [] := by
  intro newer e older h
  simp at h

theorem Grounded.cons (h : Grounded P history) (he : P e history) : Grounded P (e :: history) := by
  intro newer e' older heq
  cases newer with
  | nil =>
    cases heq
    exact he
  | cons first newer =>
    exact h newer e' older (List.cons.inj heq).2

theorem Grounded.older {newer : List α} (h : Grounded P (newer ++ history)) :
    Grounded P history := by
  intro newer' e older heq
  exact h (newer ++ newer') e older (by rw [heq,List.append_assoc])

end

end CoppiceWallet.Lib
