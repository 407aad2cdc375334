import Mathlib.Data.List.Perm.Basic
import CoppiceWallet.Lib.Async

/-!
# Contracts of asynchronous functions

A function relies on what others leave alone while its request is not answered, and guarantees
something of each of its own steps. When every function keeps its contract, the contracts hold in
every loop that a run reaches.
-/

namespace CoppiceWallet.Lib

variable {σ ε : Type} {reply : ε → Type} {κ ι : Type}

/-- `rely` says what may happen to the state while a request is not answered. `served` says what
serving a request does, and `ran` what a function does between the request that it was resumed from,
if any, and the requests that it leaves. A function keeps its contract in the runs that are
`allowed`. -/
structure Contract (σ ε : Type) where
  rely : ε → σ → σ → Prop
  served : ε → σ → σ → Prop
  allowed : Option ε → σ → σ → List ε → Prop
  ran : Option ε → σ → σ → List ε → Prop

variable (m : Functions σ ε reply κ ι) (c : Contract σ ε)

/-- A pending request keeps the contract: it is served as agreed, and whatever resumes from it
runs as agreed and leaves requests that keep the contract. -/
inductive Keeps : Pending σ ε reply → σ → Prop
  | intro {p : Pending σ ε reply} {s : σ}
      (served : ∀ t, c.rely p.request s t → ∀ choice r u, m.serve p.request choice t = some (r,u) →
        c.served p.request t u)
      (ran : ∀ t, c.rely p.request s t → ∀ choice r u, m.serve p.request choice t = some (r,u) →
        ∀ v, c.rely p.request u v →
          c.allowed (some p.request) v ((p.next r).run v).1 (((p.next r).run v).2.map Pending.request) →
            c.ran (some p.request) v ((p.next r).run v).1 (((p.next r).run v).2.map Pending.request))
      (next : ∀ t, c.rely p.request s t → ∀ choice r u, m.serve p.request choice t = some (r,u) →
        ∀ v, c.rely p.request u v →
          c.allowed (some p.request) v ((p.next r).run v).1 (((p.next r).run v).2.map Pending.request) →
            ∀ q ∈ ((p.next r).run v).2, Keeps q ((p.next r).run v).1) : Keeps p s

/-- Code that runs from `s`, in a run that began at `start` after `request` and has left the
requests `left`, keeps the contract. -/
def Sat (request : Option ε) (start : σ) (left : List (Pending σ ε reply)) (code : Code σ ε reply)
    (s : σ) : Prop :=
  c.allowed request start (code.run s).1 ((left ++ (code.run s).2).map Pending.request) →
    c.ran request start (code.run s).1 ((left ++ (code.run s).2).map Pending.request) ∧
      ∀ q ∈ left ++ (code.run s).2, Keeps m c q (code.run s).1

def Task.Sound : Task σ ε reply → σ → Prop
  | .waiting p, s => Keeps m c p s
  | .ready e code, s => ∀ t, c.rely e s t → Sat m c (some e) t [] code t

variable {m c}

theorem Keeps.sat {p : Pending σ ε reply} {s t u v : σ} {choice : ι} {r : reply p.request}
    (h : Keeps m c p s) (ht : c.rely p.request s t) (hserve : m.serve p.request choice t = some (r,u))
    (hv : c.rely p.request u v) : Sat m c (some p.request) v [] (p.next r) v := by
  cases h with
  | intro served ran next =>
    intro hallowed
    exact ⟨ran t ht choice r u hserve v hv hallowed,next t ht choice r u hserve v hv hallowed⟩

theorem Keeps.serve {p : Pending σ ε reply} {s t u : σ} {choice : ι} {r : reply p.request}
    (h : Keeps m c p s) (ht : c.rely p.request s t)
    (hserve : m.serve p.request choice t = some (r,u)) : c.served p.request t u := by
  cases h with
  | intro served ran next => exact served t ht choice r u hserve

theorem keeps_of_sat {p : Pending σ ε reply} {s : σ}
    (h : ∀ t, c.rely p.request s t → ∀ choice r u, m.serve p.request choice t = some (r,u) →
      c.served p.request t u ∧
        ∀ v, c.rely p.request u v → Sat m c (some p.request) v [] (p.next r) v) :
    Keeps m c p s := by
  apply Keeps.intro
  · intro t ht choice r u hserve
    exact (h t ht choice r u hserve).1
  · intro t ht choice r u hserve v hv hallowed
    exact ((h t ht choice r u hserve).2 v hv hallowed).1
  · intro t ht choice r u hserve v hv hallowed
    exact ((h t ht choice r u hserve).2 v hv hallowed).2

section Code

variable {request : Option ε} {start s : σ} {left : List (Pending σ ε reply)}

theorem sat_done (h : c.allowed request start s (left.map Pending.request) →
    c.ran request start s (left.map Pending.request) ∧ ∀ q ∈ left, Keeps m c q s) :
    Sat m c request start left .done s := by
  intro hallowed
  simp only [Code.run_done,List.append_nil] at hallowed ⊢
  exact h hallowed

theorem sat_await {p : Pending σ ε reply}
    (h : c.allowed request start s ((left ++ [p]).map Pending.request) →
      c.ran request start s ((left ++ [p]).map Pending.request) ∧
        ∀ q ∈ left ++ [p], Keeps m c q s) :
    Sat m c request start left (.await p.request p.next) s :=
  h

theorem sat_get {next : σ → Code σ ε reply} (h : Sat m c request start left (next s) s) :
    Sat m c request start left (.get next) s :=
  h

theorem sat_set {t : σ} {next : Code σ ε reply} (h : Sat m c request start left next t) :
    Sat m c request start left (.set t next) s :=
  h

theorem sat_fork_last {child : Code σ ε reply} (h : Sat m c request start left child s) :
    Sat m c request start left (.fork child .done) s := by
  intro hallowed
  simp only [Code.run_fork,Code.run_done,List.append_nil] at hallowed ⊢
  exact h hallowed

end Code

/-- What the contracts say of a step, where `kept` are the requests of the other tasks. -/
inductive Move (c : Contract σ ε) (l l' : EventLoop σ ε reply) (kept : List ε) :
    LoopInput κ ι → Prop
  | called (call : κ) (left : List ε) (ran : c.ran none l.state l'.state left)
      (hbefore : l.requests = kept) (hafter : l'.requests = kept ++ left) :
      Move c l l' kept (.call call)
  | served (i : Nat) (choice : ι) (task : Task σ ε reply) (htask : l.tasks[i]? = some task)
      (served : c.served task.request l.state l'.state)
      (hbefore : l.requests.Perm (task.request :: kept))
      (hafter : l'.requests = kept ++ [task.request]) : Move c l l' kept (.serve i choice)
  | resumed (i : Nat) (e : ε) (left : List ε) (ran : c.ran (some e) l.state l'.state left)
      (hbefore : l.requests.Perm (e :: kept)) (hafter : l'.requests = kept ++ left) :
      Move c l l' kept (.resume i)

def EventLoop.Sound (m : Functions σ ε reply κ ι) (c : Contract σ ε) (l : EventLoop σ ε reply) :
    Prop :=
  ∀ task ∈ l.tasks, task.Sound m c l.state

theorem Task.Sound.rely {task : Task σ ε reply} {s t : σ} (h : task.Sound m c s)
    (htrans : ∀ e s t u, c.rely e s t → c.rely e t u → c.rely e s u)
    (ht : c.rely task.request s t) : task.Sound m c t := by
  cases task with
  | waiting p =>
    apply keeps_of_sat
    intro u hu choice r v hserve
    have hsu := htrans _ _ _ _ ht hu
    exact ⟨Keeps.serve h hsu hserve,fun w hw => Keeps.sat h hsu hserve hw⟩
  | ready e code =>
    intro u hu
    exact h u (htrans _ _ _ _ ht hu)

theorem requests_perm {l : EventLoop σ ε reply} {i : Nat} {task : Task σ ε reply}
    (h : l.tasks[i]? = some task) :
    l.requests.Perm (task.request :: (l.tasks.eraseIdx i).map Task.request) := by
  obtain ⟨hi,rfl⟩ := List.getElem?_eq_some_iff.mp h
  exact (List.getElem_cons_eraseIdx_perm hi).symm.map Task.request

/-- The condition on the run that a step of the loop has to meet. -/
def Allowed (m : Functions σ ε reply κ ι) (c : Contract σ ε) : LoopInput κ ι →
    EventLoop σ ε reply → Prop
  | .call call, l => c.allowed none l.state ((m.body call).run l.state).1
      (((m.body call).run l.state).2.map Pending.request)
  | .serve _ _, _ => True
  | .resume i, l =>
    ∀ e code, l.tasks[i]? = some (.ready e code) →
      c.allowed (some e) l.state (code.run l.state).1 ((code.run l.state).2.map Pending.request)

/-- A step of a sound loop is a move, and leaves a sound loop when it leaves alone what the other
tasks rely on. -/
theorem EventLoop.Sound.step {l l' : EventLoop σ ε reply} {input : LoopInput κ ι}
    (h : l.Sound m c) (htrans : ∀ e s t u, c.rely e s t → c.rely e t u → c.rely e s u)
    (hrefl : ∀ e ∈ l.requests, c.rely e l.state l.state)
    (hcall : ∀ call, input = .call call → Sat m c none l.state [] (m.body call) l.state)
    (hallowed : Allowed m c input l) (hstep : EventLoop.step m input l = .ok l') :
    ∃ kept, Move c l l' kept input ∧
      ((∀ e ∈ kept, c.rely e l.state l'.state) → l'.Sound m c) := by
  cases input with
  | call call =>
    cases hstep
    have hsat := hcall call rfl hallowed
    refine ⟨l.requests,.called call _ hsat.1 rfl ?_,?_⟩
    · simp [requests,running,Function.comp_def]
    · intro hrely task htask
      rcases List.mem_append.mp htask with hold | hnew
      · exact (h task hold).rely htrans (hrely _ (List.mem_map_of_mem hold))
      · obtain ⟨p,hp,rfl⟩ := List.mem_map.mp hnew
        exact hsat.2 p hp
  | serve i choice =>
    obtain ⟨p,r,s,hp,hserve,rfl⟩ := step_serve hstep
    have hmem := List.mem_of_getElem? hp
    have hself := hrefl _ (List.mem_map_of_mem hmem)
    refine ⟨_,.served i choice _ hp (Keeps.serve (h _ hmem) hself hserve) (requests_perm hp) ?_,?_⟩
    · simp [requests]
    · intro hrely task htask
      rcases List.mem_append.mp htask with hold | hnew
      · exact (h task (List.mem_of_mem_eraseIdx hold)).rely htrans
          (hrely _ (List.mem_map_of_mem hold))
      · cases List.mem_singleton.mp hnew
        intro v hv
        exact Keeps.sat (h _ hmem) hself hserve hv
  | resume i =>
    obtain ⟨e,code,hcode,rfl⟩ := step_resume hstep
    have hmem := List.mem_of_getElem? hcode
    have hsat := h _ hmem l.state (hrefl _ (List.mem_map_of_mem hmem)) (hallowed e code hcode)
    refine ⟨_,.resumed i e _ hsat.1 (requests_perm hcode) ?_,?_⟩
    · simp [requests,running,removeTask,Function.comp_def]
    · intro hrely task htask
      rcases List.mem_append.mp htask with hold | hnew
      · exact (h task (List.mem_of_mem_eraseIdx hold)).rely htrans
          (hrely _ (List.mem_map_of_mem hold))
      · obtain ⟨p,hp,rfl⟩ := List.mem_map.mp hnew
        exact hsat.2 p hp

end CoppiceWallet.Lib
