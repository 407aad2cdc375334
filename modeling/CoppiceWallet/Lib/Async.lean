import CoppiceWallet.Lib.Run

/-!
# Asynchronous functions on an event loop

A function runs without interruption until it awaits the reply to a request. Between the request and
the reply, and between the reply and the moment the function goes on, other functions run.
-/

namespace CoppiceWallet.Lib

/-- What is left to do of a function. -/
inductive Code (σ ε : Type) (reply : ε → Type)
  | done
  | get (next : σ → Code σ ε reply)
  | set (s : σ) (next : Code σ ε reply)
  | await (request : ε) (next : reply request → Code σ ε reply)
  /-- Call a function without awaiting it. -/
  | fork (child next : Code σ ε reply)

/-- A function that returns an `α` or throws a `χ`. -/
def Async (σ ε : Type) (reply : ε → Type) (χ α : Type) : Type :=
  (α → Code σ ε reply) → (χ → Code σ ε reply) → Code σ ε reply

variable {σ ε : Type} {reply : ε → Type} {χ α β κ ι : Type}

namespace Async

instance : Monad (Async σ ε reply χ) where
  pure a := fun next _ => next a
  bind m f := fun next caught => m (fun a => f a next caught) caught

def get : Async σ ε reply χ σ := fun next _ => .get next

def set (s : σ) : Async σ ε reply χ Unit := fun next _ => .set s (next ())

def modify (f : σ → σ) : Async σ ε reply χ Unit := fun next _ => .get fun s => .set (f s) (next ())

def request (e : ε) : Async σ ε reply χ (reply e) := fun next _ => .await e next

def throw (e : χ) : Async σ ε reply χ α := fun _ caught => caught e

def tryCatch (m : Async σ ε reply χ α) (handler : χ → Async σ ε reply χ α) :
    Async σ ε reply χ α :=
  fun next caught => m next fun e => handler e next caught

/-- Perform an action however the function ends. -/
def ensuring (m : Async σ ε reply χ α) (action : σ → σ) : Async σ ε reply χ α :=
  fun next caught => m (fun a => .get fun s => .set (action s) (next a))
    fun e => .get fun s => .set (action s) (caught e)

/-- The code of a call whose result nobody takes. -/
def start (m : Async σ ε reply χ α) : Code σ ε reply := m (fun _ => .done) fun _ => .done

def unawaited (m : Async σ ε reply χ α) : Async σ ε reply χ Unit :=
  fun next _ => .fork m.start (next ())

variable (next : α → Code σ ε reply) (caught : χ → Code σ ε reply)

@[simp] theorem pure_apply (a : α) :
    (pure a : Async σ ε reply χ α) next caught = next a := rfl

@[simp] theorem bind_apply (m : Async σ ε reply χ β) (f : β → Async σ ε reply χ α) :
    (m >>= f) next caught = m (fun b => f b next caught) caught := rfl

@[simp] theorem get_apply (next : σ → Code σ ε reply) :
    (get : Async σ ε reply χ σ) next caught = .get next := rfl

@[simp] theorem set_apply (s : σ) (next : Unit → Code σ ε reply) :
    (set s : Async σ ε reply χ Unit) next caught = .set s (next ()) := rfl

@[simp] theorem modify_apply (f : σ → σ) (next : Unit → Code σ ε reply) :
    (modify f : Async σ ε reply χ Unit) next caught = .get fun s => .set (f s) (next ()) := rfl

@[simp] theorem request_apply (e : ε) (next : reply e → Code σ ε reply) :
    (request e : Async σ ε reply χ (reply e)) next caught = .await e next := rfl

@[simp] theorem throw_apply (e : χ) :
    (throw e : Async σ ε reply χ α) next caught = caught e := rfl

@[simp] theorem ensuring_apply (m : Async σ ε reply χ α) (action : σ → σ) :
    m.ensuring action next caught = m (fun a => .get fun s => .set (action s) (next a))
      fun e => .get fun s => .set (action s) (caught e) := rfl

@[simp] theorem unawaited_apply (m : Async σ ε reply χ α) (next : Unit → Code σ ε reply) :
    m.unawaited next caught = .fork m.start (next ()) := rfl

end Async

/-- A request with the code that its reply resumes. -/
structure Pending (σ ε : Type) (reply : ε → Type) where
  request : ε
  next : reply request → Code σ ε reply

/-- A suspended function: its request is not served, or the code waits to be resumed. -/
inductive Task (σ ε : Type) (reply : ε → Type)
  | waiting (p : Pending σ ε reply)
  | ready (request : ε) (code : Code σ ε reply)

namespace Task

def request : Task σ ε reply → ε
  | .waiting p => p.request
  | .ready e _ => e

@[simp] theorem request_waiting (p : Pending σ ε reply) :
    (waiting p : Task σ ε reply).request = p.request := rfl

@[simp] theorem request_ready (e : ε) (code : Code σ ε reply) :
    (ready e code : Task σ ε reply).request = e := rfl

end Task

namespace Code

/-- Run the code until it awaits: the state it leaves, and the requests of it and of the functions
it called. -/
def run : Code σ ε reply → σ → σ × List (Pending σ ε reply)
  | .done, s => (s,[])
  | .get next, s => (next s).run s
  | .set s next, _ => next.run s
  | .await e next, s => (s,[⟨e,next⟩])
  | .fork child next, s =>
    ((next.run (child.run s).1).1,(child.run s).2 ++ (next.run (child.run s).1).2)

@[simp] theorem run_done (s : σ) : (done : Code σ ε reply).run s = (s,[]) := rfl

@[simp] theorem run_get (next : σ → Code σ ε reply) (s : σ) :
    (get next).run s = (next s).run s := rfl

@[simp] theorem run_set (s t : σ) (next : Code σ ε reply) : (set t next).run s = next.run t := rfl

@[simp] theorem run_await (e : ε) (next : reply e → Code σ ε reply) (s : σ) :
    (await e next).run s = (s,[⟨e,next⟩]) := rfl

@[simp] theorem run_fork (child next : Code σ ε reply) (s : σ) :
    (fork child next).run s =
      ((next.run (child.run s).1).1,(child.run s).2 ++ (next.run (child.run s).1).2) := rfl

end Code

structure EventLoop (σ ε : Type) (reply : ε → Type) where
  state : σ
  tasks : List (Task σ ε reply)

inductive LoopInput (κ ι : Type)
  | call (c : κ)
  /-- The request of a task is served. -/
  | serve (task : Nat) (choice : ι)
  | resume (task : Nat)

/-- The functions that may be called, and what serving a request does. -/
structure Functions (σ ε : Type) (reply : ε → Type) (κ ι : Type) where
  body : κ → Code σ ε reply
  serve : (request : ε) → ι → σ → Option (reply request × σ)

variable {m : Functions σ ε reply κ ι}

namespace EventLoop

/-- Run the code of a task that is no longer there. -/
def running (l : EventLoop σ ε reply) (code : Code σ ε reply) : EventLoop σ ε reply :=
  ⟨(code.run l.state).1,l.tasks ++ (code.run l.state).2.map .waiting⟩

def removeTask (l : EventLoop σ ε reply) (task : Nat) : EventLoop σ ε reply :=
  ⟨l.state,l.tasks.eraseIdx task⟩

def requests (l : EventLoop σ ε reply) : List ε := l.tasks.map Task.request

def step (m : Functions σ ε reply κ ι) : LoopInput κ ι → EventLoop σ ε reply →
    Except Unit (EventLoop σ ε reply)
  | .call c, l => .ok (l.running (m.body c))
  | .serve i choice, l =>
    match l.tasks[i]? with
    | some (.waiting p) =>
      match m.serve p.request choice l.state with
      | some (r,s) => .ok ⟨s,l.tasks.eraseIdx i ++ [.ready p.request (p.next r)]⟩
      | none => .error ()
    | _ => .error ()
  | .resume i, l =>
    match l.tasks[i]? with
    | some (.ready _ code) => .ok ((l.removeTask i).running code)
    | _ => .error ()

@[simp] theorem state_removeTask (l : EventLoop σ ε reply) (i : Nat) :
    (l.removeTask i).state = l.state := rfl

theorem step_serve {i : Nat} {choice : ι} {l l' : EventLoop σ ε reply}
    (h : step m (.serve i choice) l = .ok l') :
    ∃ p r s, l.tasks[i]? = some (.waiting p) ∧ m.serve p.request choice l.state = some (r,s) ∧
      l' = ⟨s,l.tasks.eraseIdx i ++ [.ready p.request (p.next r)]⟩ := by
  rw [step] at h
  split at h
  · rename_i p hp
    split at h
    · rename_i r s hserve
      cases h
      exact ⟨p,r,s,hp,hserve,rfl⟩
    · cases h
  · cases h

theorem step_resume {i : Nat} {l l' : EventLoop σ ε reply} (h : step m (.resume i) l = .ok l') :
    ∃ e code, l.tasks[i]? = some (.ready e code) ∧ l' = (l.removeTask i).running code := by
  rw [step] at h
  split at h
  · rename_i e code hcode
    cases h
    exact ⟨e,code,hcode,rfl⟩
  · cases h

end EventLoop

end CoppiceWallet.Lib
