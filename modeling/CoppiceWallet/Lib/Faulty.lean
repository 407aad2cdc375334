import CoppiceWallet.Lib.Run

/-!
# Programs whose operations may fail

An operation is done, fails with an error, or never happens because the process stops before it. An
error may be caught; a stop is not, and leaves the state as it is.
-/

namespace CoppiceWallet.Lib

inductive Fate
  | done
  | fails
  | stops
  deriving DecidableEq

/-- How a program ends. -/
inductive Ending (ε α : Type)
  | returned (a : α)
  | threw (e : ε)
  | stopped

/-- A program over states `σ` in an environment `ρ`, which counts its operations. -/
def Faulty (ρ σ ε α : Type) : Type := ρ → Nat → σ → Ending ε α × σ × Nat

variable {ρ σ ε α β : Type}

namespace Faulty

def bind (m : Faulty ρ σ ε α) (f : α → Faulty ρ σ ε β) : Faulty ρ σ ε β := fun env n s =>
  match m env n s with
  | (.returned a,s,n) => f a env n s
  | (.threw e,s,n) => (.threw e,s,n)
  | (.stopped,s,n) => (.stopped,s,n)

instance : Monad (Faulty ρ σ ε) where
  pure a := fun _ n s => (.returned a,s,n)
  bind := bind

def throw (e : ε) : Faulty ρ σ ε α := fun _ n s => (.threw e,s,n)

def tryCatch (m : Faulty ρ σ ε α) (handler : ε → Faulty ρ σ ε α) : Faulty ρ σ ε α :=
  fun env n s =>
    match m env n s with
    | (.threw e,s,n) => handler e env n s
    | (.returned a,s,n) => (.returned a,s,n)
    | (.stopped,s,n) => (.stopped,s,n)

/-- An action in memory, which neither fails nor stops. -/
def inMemory (f : σ → α × σ) : Faulty ρ σ ε α := fun _ n s => (.returned (f s).1,(f s).2,n)

/-- A value of the environment. -/
def ask (f : ρ → Nat → α) : Faulty ρ σ ε α := fun env n s => (.returned (f env n),s,n + 1)

/-- An operation that meets its fate. -/
def attempt (fate : ρ → Nat → Fate) (e : ε) (f : ρ → Nat → σ → α × σ) : Faulty ρ σ ε α :=
  fun env n s =>
    match fate env n with
    | .done => (.returned (f env n s).1,(f env n s).2,n + 1)
    | .fails => (.threw e,s,n + 1)
    | .stops => (.stopped,s,n + 1)

/-- From a state with `pre`, the program returns in `post`, throws in `err` and stops in `stop`. -/
def Triple (env : ρ) (pre : σ → Prop) (m : Faulty ρ σ ε α) (post : α → σ → Prop)
    (err : ε → σ → Prop) (stop : σ → Prop) : Prop :=
  ∀ n s, pre s → match m env n s with
    | (.returned a,t,_) => post a t
    | (.threw e,t,_) => err e t
    | (.stopped,t,_) => stop t

variable {env : ρ} {pre : σ → Prop} {post : α → σ → Prop} {err : ε → σ → Prop} {stop : σ → Prop}

theorem triple_pure {a : α} (h : ∀ s, pre s → post a s) :
    Triple env pre (pure a : Faulty ρ σ ε α) post err stop :=
  fun _ s hs => h s hs

theorem triple_throw {e : ε} (h : ∀ s, pre s → err e s) :
    Triple env pre (throw e : Faulty ρ σ ε α) post err stop :=
  fun _ s hs => h s hs

theorem triple_inMemory {f : σ → α × σ} (h : ∀ s, pre s → post (f s).1 (f s).2) :
    Triple env pre (inMemory f : Faulty ρ σ ε α) post err stop :=
  fun _ s hs => h s hs

theorem triple_ask {f : ρ → Nat → α} (h : ∀ n s, pre s → post (f env n) s) :
    Triple env pre (ask f : Faulty ρ σ ε α) post err stop :=
  fun n s hs => h n s hs

theorem triple_attempt {fate : ρ → Nat → Fate} {e : ε} {f : ρ → Nat → σ → α × σ}
    (hdone : ∀ n s, pre s → post (f env n s).1 (f env n s).2)
    (hfails : ∀ n s, pre s → fate env n = .fails → err e s)
    (hstops : ∀ n s, pre s → fate env n = .stops → stop s) :
    Triple env pre (attempt fate e f) post err stop := by
  intro n s hs
  rw [attempt]
  cases h : fate env n with
  | done => exact hdone n s hs
  | fails => exact hfails n s hs h
  | stops => exact hstops n s hs h

theorem triple_bind {m : Faulty ρ σ ε α} {f : α → Faulty ρ σ ε β} {q : α → σ → Prop}
    {post : β → σ → Prop} (hm : Triple env pre m q err stop)
    (hf : ∀ a, Triple env (q a) (f a) post err stop) :
    Triple env pre (m >>= f) post err stop := by
  intro n s hs
  show match bind m f env n s with
    | (.returned b,t,_) => post b t
    | (.threw e,t,_) => err e t
    | (.stopped,t,_) => stop t
  have hfirst := hm n s hs
  rw [bind]
  cases h : m env n s with
  | mk ending rest =>
    obtain ⟨t,n'⟩ := rest
    rw [h] at hfirst
    cases ending with
    | returned a => exact hf a n' t hfirst
    | threw e => exact hfirst
    | stopped => exact hfirst

theorem triple_tryCatch {m : Faulty ρ σ ε α} {handler : ε → Faulty ρ σ ε α} {q : ε → σ → Prop}
    (hm : Triple env pre m post q stop)
    (hhandler : ∀ e, Triple env (q e) (handler e) post err stop) :
    Triple env pre (tryCatch m handler) post err stop := by
  intro n s hs
  have hfirst := hm n s hs
  rw [tryCatch]
  cases h : m env n s with
  | mk ending rest =>
    obtain ⟨t,n'⟩ := rest
    rw [h] at hfirst
    cases ending with
    | returned a => exact hfirst
    | threw e => exact hhandler e n' t hfirst
    | stopped => exact hfirst

theorem Triple.weaken {m : Faulty ρ σ ε α} {pre' : σ → Prop} {post' : α → σ → Prop}
    {err' : ε → σ → Prop} {stop' : σ → Prop} (h : Triple env pre m post err stop)
    (hpre : ∀ s, pre' s → pre s) (hpost : ∀ a s, post a s → post' a s)
    (herr : ∀ e s, err e s → err' e s) (hstop : ∀ s, stop s → stop' s) :
    Triple env pre' m post' err' stop' := by
  intro n s hs
  have hm := h n s (hpre s hs)
  cases hrun : m env n s with
  | mk ending rest =>
    obtain ⟨t,n'⟩ := rest
    rw [hrun] at hm
    cases ending with
    | returned a => exact hpost a t hm
    | threw e => exact herr e t hm
    | stopped => exact hstop t hm

theorem Triple.and {m : Faulty ρ σ ε α} {pre' : σ → Prop} {post' : α → σ → Prop}
    {err' : ε → σ → Prop} {stop' : σ → Prop} (h : Triple env pre m post err stop)
    (h' : Triple env pre' m post' err' stop') :
    Triple env (fun s => pre s ∧ pre' s) m (fun a s => post a s ∧ post' a s)
      (fun e s => err e s ∧ err' e s) fun s => stop s ∧ stop' s := by
  intro n s hs
  have hm := h n s hs.1
  have hm' := h' n s hs.2
  cases hrun : m env n s with
  | mk ending rest =>
    obtain ⟨t,n'⟩ := rest
    rw [hrun] at hm hm'
    cases ending with
    | returned a => exact ⟨hm,hm'⟩
    | threw e => exact ⟨hm,hm'⟩
    | stopped => exact ⟨hm,hm'⟩

theorem triple_of_state {m : Faulty ρ σ ε α}
    (h : ∀ s, pre s → Triple env (fun t => t = s) m post err stop) :
    Triple env pre m post err stop :=
  fun n s hs => h s hs n s rfl

theorem triple_bind_read {m : Faulty ρ σ ε α} {f : α → Faulty ρ σ ε β} {s : σ} {p : α → Prop}
    {post : β → σ → Prop}
    (hm : Triple env (fun t => t = s) m (fun a t => p a ∧ t = s) (fun _ t => t = s) (fun t => t = s))
    (hf : ∀ a, p a → Triple env (fun t => t = s) (f a) post err stop)
    (herr : ∀ e, err e s) (hstop : stop s) :
    Triple env (fun t => t = s) (m >>= f) post err stop := by
  apply triple_bind (q := fun a t => p a ∧ t = s)
  · apply hm.weaken (fun _ h => h) (fun _ _ h => h)
    · intro e t ht
      rw [ht]
      exact herr e
    · intro t ht
      rw [ht]
      exact hstop
  · intro a n t ht
    exact hf a ht.1 n t ht.2

theorem triple_ite {c : Prop} [Decidable c] {m m' : Faulty ρ σ ε α}
    (ht : c → Triple env pre m post err stop) (hf : ¬c → Triple env pre m' post err stop) :
    Triple env pre (if c then m else m') post err stop := by
  split
  · exact ht ‹_›
  · exact hf ‹_›

def Maintains (env : ρ) (P : σ → Prop) (m : Faulty ρ σ ε α) : Prop :=
  Triple env P m (fun _ => P) (fun _ => P) P

variable {P : σ → Prop}

theorem maintains_pure {a : α} : Maintains env P (pure a : Faulty ρ σ ε α) :=
  triple_pure fun _ hs => hs

theorem maintains_attempt {fate : ρ → Nat → Fate} {e : ε} {f : ρ → Nat → σ → α × σ}
    (h : ∀ n s, P s → P (f env n s).2) : Maintains env P (attempt fate e f) :=
  triple_attempt h (fun _ _ hs _ => hs) fun _ _ hs _ => hs

theorem maintains_bind {m : Faulty ρ σ ε α} {f : α → Faulty ρ σ ε β} (hm : Maintains env P m)
    (hf : ∀ a, Maintains env P (f a)) : Maintains env P (m >>= f) :=
  triple_bind hm hf

end Faulty

end CoppiceWallet.Lib
