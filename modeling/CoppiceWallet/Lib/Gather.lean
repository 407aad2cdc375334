import Mathlib.Data.List.Sort
import Mathlib.Data.List.Forall2

/-!
# Gathering results in their order

The tasks of a group end in any order, each with its position. Sorted by position their results
stand as the tasks did.
-/

namespace CoppiceWallet.Lib

variable {α β : Type}

/-- Of a group some tasks are open and the others have ended with a result. -/
structure Gathers (R : α → β → Prop) (group : List α) (tasks : List (α × Nat))
    (finished : List (β × Nat)) : Prop where
  positions : (tasks.map Prod.snd ++ finished.map Prod.snd).Perm (List.range group.length)
  isOpen : ∀ task ∈ tasks, group[task.2]? = some task.1
  hasEnded : ∀ result ∈ finished, ∃ a, group[result.2]? = some a ∧ R a result.1

variable {R : α → β → Prop} {group : List α} {tasks tasks' : List (α × Nat)}
  {finished : List (β × Nat)}

theorem Gathers.begin (R : α → β → Prop) (group : List α) : Gathers R group group.zipIdx [] where
  positions := by simp [List.range_eq_range']
  isOpen := fun _ htask => List.mem_zipIdx_iff_getElem?.mp htask
  hasEnded := by
    intro result hresult
    cases hresult

theorem Gathers.perm (h : Gathers R group tasks finished) (hperm : tasks'.Perm tasks) :
    Gathers R group tasks' finished where
  positions := ((hperm.map _).append_right _).trans h.positions
  isOpen := fun task htask => h.isOpen task (hperm.mem_iff.mp htask)
  hasEnded := h.hasEnded

theorem Gathers.finish {a : α} {position : Nat} {b : β}
    (h : Gathers R group ((a,position) :: tasks) finished) (hresult : R a b) :
    Gathers R group tasks (finished ++ [(b,position)]) where
  positions := by
    have hmoved : (tasks.map Prod.snd ++ (finished ++ [(b,position)]).map Prod.snd).Perm
        (((a,position) :: tasks).map Prod.snd ++ finished.map Prod.snd) := by
      simp only [List.map_append,List.map_cons,List.map_nil,← List.append_assoc]
      exact List.perm_append_singleton _ _
    exact hmoved.trans h.positions
  isOpen := fun task htask => h.isOpen task (List.mem_cons_of_mem _ htask)
  hasEnded := by
    intro result hmem
    rcases List.mem_append.mp hmem with hmem | hmem
    · exact h.hasEnded result hmem
    · rw [List.mem_singleton] at hmem
      subst hmem
      exact ⟨a,h.isOpen _ List.mem_cons_self,hresult⟩

theorem Gathers.collect (h : Gathers R group [] finished) :
    List.Forall₂ R group ((finished.insertionSort fun a b => a.2 ≤ b.2).map Prod.fst) := by
  have hperm := List.perm_insertionSort (fun a b : β × Nat => a.2 ≤ b.2) finished
  have hsorted : (finished.insertionSort fun a b => a.2 ≤ b.2).Pairwise fun a b => a.2 ≤ b.2 :=
    haveI : Std.Total fun a b : β × Nat => a.2 ≤ b.2 := ⟨fun _ _ => Nat.le_total _ _⟩
    haveI : IsTrans (β × Nat) fun a b => a.2 ≤ b.2 := ⟨fun _ _ _ => Nat.le_trans⟩
    List.pairwise_insertionSort _ _
  generalize (finished.insertionSort fun a b => a.2 ≤ b.2) = sorted at hperm hsorted
  have hpositions : sorted.map Prod.snd = List.range group.length := by
    apply List.Perm.eq_of_pairwise (fun _ _ _ _ => Nat.le_antisymm) (List.pairwise_map.mpr hsorted)
    · exact List.pairwise_lt_range.imp Nat.le_of_lt
    · exact (hperm.map _).trans (by simpa using h.positions)
  have hlength : sorted.length = group.length := by
    have hlength := congrArg List.length hpositions
    simpa using hlength
  apply List.forall₂_iff_get.mpr
  refine ⟨by simp [hlength],?_⟩
  intro i hi hi'
  have hisorted : i < sorted.length := by omega
  have hposition : (sorted[i]).2 = i := by
    have hposition := congrArg (fun positions => positions[i]?) hpositions
    simpa [hisorted,hi] using hposition
  obtain ⟨a,ha,hr⟩ := h.hasEnded sorted[i] (hperm.mem_iff.mp (List.getElem_mem hisorted))
  rw [hposition,List.getElem?_eq_getElem hi] at ha
  cases ha
  simpa using hr

theorem perm_cons_eraseP {p : α → Bool} {x : α} {xs : List α} (h : xs.find? p = some x) :
    xs.Perm (x :: xs.eraseP p) := by
  obtain ⟨hx,l,r,rfl,hl⟩ := List.find?_eq_some_iff_append.mp h
  have hl' : ∀ y ∈ l, ¬ p y = true := by
    intro y hy
    simpa using hl y hy
  rw [List.eraseP_append_right _ hl',List.eraseP_cons_of_pos hx]
  exact List.perm_middle

end CoppiceWallet.Lib
