import Mathlib.Data.List.Sort

/-!
# Rows that only grow

A list of rows with one operation: append an element to a row. Elements keep their coordinates,
which is what makes a coordinate a stable name for an element.
-/

namespace CoppiceWallet.Lib

abbrev Grid (α : Type) := List (List α)

namespace Grid

variable {α β : Type}

def cell (g : Grid α) (i j : Nat) : Option α := g[i]?.bind (·[j]?)

def rowLength (g : Grid α) (i : Nat) : Nat := (g.getD i []).length

/-- Create the rows up to row `i`. -/
def pad (g : Grid α) (i : Nat) : Grid α := g ++ List.replicate (i + 1 - g.length) []

def push (g : Grid α) (i : Nat) (a : α) : Grid α := (g.pad i).modify i (· ++ [a])

def mapIdx (f : Nat → Nat → α → β) (g : Grid α) : Grid β :=
  g.zipIdx.map fun (row, i) => row.zipIdx.map fun (a, j) => f i j a

theorem cell_eq_getD (g : Grid α) (i j : Nat) : g.cell i j = (g.getD i [])[j]? := by
  unfold cell
  rw [List.getD_eq_getElem?_getD]
  cases g[i]? <;> simp

variable {g : Grid α}

theorem lt_length_of_cell {i j : Nat} {a : α} (h : g.cell i j = some a) : i < g.length := by
  by_contra hi
  rw [cell,List.getElem?_eq_none (by omega)] at h
  cases h

theorem lt_rowLength_of_cell {i j : Nat} {a : α} (h : g.cell i j = some a) : j < g.rowLength i := by
  rw [cell_eq_getD] at h
  exact (List.getElem?_eq_some_iff.mp h).1

theorem getD_pad (g : Grid α) (i k : Nat) : (g.pad i).getD k [] = g.getD k [] := by
  unfold pad
  simp only [List.getD_eq_getElem?_getD,List.getElem?_append,List.getElem?_replicate]
  by_cases hk : k < g.length
  · simp [hk]
  · simp only [hk,if_false]
    split <;> simp [List.getElem?_eq_none (not_lt.mp hk)]

@[simp] theorem cell_pad (g : Grid α) (i k j : Nat) : (g.pad i).cell k j = g.cell k j := by
  rw [cell_eq_getD,cell_eq_getD,getD_pad]

theorem lt_length_pad (g : Grid α) (i : Nat) : i < (g.pad i).length := by
  simp only [pad,List.length_append,List.length_replicate]
  omega

theorem getD_push (g : Grid α) (i k : Nat) (a : α) :
    (g.push i a).getD k [] = if k = i then g.getD i [] ++ [a] else g.getD k [] := by
  have hi := g.lt_length_pad i
  by_cases hk : k = i
  · subst k
    rw [if_pos rfl,← getD_pad g i i,push]
    simp [List.getD_eq_getElem?_getD,List.getElem?_eq_getElem hi]
  · rw [if_neg hk,← getD_pad g i k,push,List.getD_eq_getElem?_getD,List.getElem?_modify_ne _ _ (Ne.symm hk),
      List.getD_eq_getElem?_getD]

theorem cell_push (g : Grid α) (i k j : Nat) (a : α) :
    (g.push i a).cell k j = if k = i ∧ j = g.rowLength i then some a else g.cell k j := by
  rw [cell_eq_getD,getD_push]
  by_cases hk : k = i
  · subst k
    rw [if_pos rfl,cell_eq_getD,List.getElem?_append,rowLength]
    rcases lt_trichotomy j (g.getD i []).length with hj | rfl | hj
    · rw [if_pos hj,if_neg (fun h => hj.ne h.2)]
    · simp
    · rw [if_neg hj.not_gt,if_neg (fun h => hj.ne' h.2),List.getElem?_eq_none hj.le]
      exact List.getElem?_eq_none (by simp only [List.length_singleton]; omega)
  · rw [if_neg hk,if_neg (fun h => hk h.1),cell_eq_getD]

theorem cell_push_self (g : Grid α) (i : Nat) (a : α) :
    (g.push i a).cell i (g.rowLength i) = some a := by
  rw [cell_push,if_pos ⟨rfl,rfl⟩]

theorem cell_push_of_some {i k j : Nat} {a b : α} (h : g.cell k j = some b) :
    (g.push i a).cell k j = some b := by
  rw [cell_push,if_neg,h]
  rintro ⟨rfl,rfl⟩
  exact (lt_rowLength_of_cell h).ne rfl

theorem cell_rowLength (g : Grid α) (i : Nat) : g.cell i (g.rowLength i) = none := by
  rw [cell_eq_getD,rowLength]
  exact List.getElem?_eq_none le_rfl

theorem mem_flatten {a : α} : a ∈ g.flatten ↔ ∃ i j, g.cell i j = some a := by
  constructor
  · intro h
    obtain ⟨row,hrow,ha⟩ := List.mem_flatten.mp h
    obtain ⟨i,hi⟩ := List.mem_iff_getElem?.mp hrow
    obtain ⟨j,hj⟩ := List.mem_iff_getElem?.mp ha
    exact ⟨i,j,by simp [cell,hi,hj]⟩
  · rintro ⟨i,j,h⟩
    obtain ⟨row,hrow,ha⟩ := Option.bind_eq_some_iff.mp h
    exact List.mem_flatten.mpr ⟨row,List.mem_of_getElem? hrow,List.mem_of_getElem? ha⟩

theorem flatten_pad (g : Grid α) (i : Nat) : (g.pad i).flatten = g.flatten := by
  simp [pad]

private theorem flatten_modify_perm (g : Grid α) (i : Nat) (a : α) (hi : i < g.length) :
    (g.modify i (· ++ [a])).flatten.Perm (a :: g.flatten) := by
  induction g generalizing i with
  | nil => simp at hi
  | cons row g ih =>
    cases i with
    | zero =>
      simp only [List.modify_zero_cons,List.flatten_cons,List.append_assoc]
      exact List.perm_middle
    | succ i =>
      simp only [List.modify_succ_cons,List.flatten_cons]
      exact ((ih i (by simpa using hi)).append_left row).trans List.perm_middle

theorem flatten_push_perm (g : Grid α) (i : Nat) (a : α) :
    (g.push i a).flatten.Perm (a :: g.flatten) := by
  have h := flatten_modify_perm (g.pad i) i a (g.lt_length_pad i)
  rwa [flatten_pad] at h

theorem push_last (g : Grid α) (row : List α) (a : α) :
    push (g ++ [row]) g.length a = g ++ [row ++ [a]] := by
  have hp : pad (g ++ [row]) g.length = g ++ [row] := by simp [pad]
  rw [push,hp]
  apply List.ext_getElem?
  intro k
  rcases lt_trichotomy k g.length with hk | rfl | hk
  · simp [List.getElem?_append,hk,hk.ne']
  · simp
  · have hone : 1 ≤ k - g.length := by omega
    simp [List.getElem?_append,hk.ne,hk.not_gt,List.getElem?_eq_none,hone]

@[simp] theorem cell_append_nil (g : Grid α) (i j : Nat) : cell (g ++ [[]]) i j = g.cell i j := by
  rw [cell_eq_getD,cell_eq_getD,List.getD_eq_getElem?_getD,List.getD_eq_getElem?_getD,
    List.getElem?_append]
  by_cases hi : i < g.length
  · simp [hi]
  · rw [if_neg hi,List.getElem?_eq_none (not_lt.mp hi)]
    cases i - g.length <;> simp

theorem rowLength_append_last (g : Grid α) (row : List α) :
    rowLength (g ++ [row]) g.length = row.length := by
  simp [rowLength,List.getD_eq_getElem?_getD]

theorem cell_mapIdx (f : Nat → Nat → α → β) (g : Grid α) (i j : Nat) :
    (g.mapIdx f).cell i j = (g.cell i j).map (f i j) := by
  simp only [cell,mapIdx,List.getElem?_map,List.getElem?_zipIdx,Option.map_map]
  cases g[i]? with
  | none => rfl
  | some row =>
    simp only [Option.map_some,Option.bind_some,Function.comp_apply,List.getElem?_map,
      List.getElem?_zipIdx,Option.map_map]
    cases row[j]? <;> simp

variable {f : Nat → Nat → α → β}

theorem map_flatten_mapIdx {γ : Type} {h : β → γ} {k : α → γ} (hf : ∀ i j a, h (f i j a) = k a)
    (g : Grid α) : (g.mapIdx f).flatten.map h = g.flatten.map k := by
  have hrow (i : Nat) (row : List α) :
      (row.zipIdx.map fun (a, j) => f i j a).map h = row.map k := by
    rw [List.map_map,← List.zipIdx_map_fst 0 row,List.map_map]
    simp [Function.comp_def,hf]
  rw [List.map_flatten,List.map_flatten,mapIdx,List.map_map]
  congr 1
  rw [← List.zipIdx_map_fst 0 g,List.map_map]
  simp [Function.comp_def,hrow]

theorem map_flatten_mapIdx_congr {γ δ : Type} {f' : Nat → Nat → α → δ} {h : β → γ} {h' : δ → γ}
    (hf : ∀ i j a, a ∈ g.flatten → h (f i j a) = h' (f' i j a)) :
    (g.mapIdx f).flatten.map h = (g.mapIdx f').flatten.map h' := by
  rw [List.map_flatten,List.map_flatten,mapIdx,mapIdx,List.map_map,List.map_map]
  congr 1
  refine List.map_congr_left fun entry hentry => ?_
  obtain ⟨row,i⟩ := entry
  have hrow : row ∈ g := List.mem_of_getElem? (List.mem_zipIdx_iff_getElem?.mp hentry)
  simp only [Function.comp_apply,List.map_map]
  refine List.map_congr_left fun cell hcell => ?_
  have hmem := List.mem_of_getElem? (List.mem_zipIdx_iff_getElem?.mp hcell)
  exact hf i cell.2 cell.1 (List.mem_flatten.mpr ⟨row,hrow,hmem⟩)

private theorem pairwise_zipIdx_map {γ : Type} {R : β → β → Prop} {f : γ × Nat → β}
    (hR : ∀ a i b j, i ≠ j → R (f (a,i)) (f (b,j))) (xs : List γ) (n : Nat) :
    ((xs.zipIdx n).map f).Pairwise R := by
  induction xs generalizing n with
  | nil => exact .nil
  | cons x xs ih =>
    rw [List.zipIdx_cons,List.map_cons,List.pairwise_cons]
    refine ⟨fun b hb => ?_,ih (n + 1)⟩
    obtain ⟨⟨y,m⟩,hm,rfl⟩ := List.mem_map.mp hb
    have hle := List.le_snd_of_mem_zipIdx hm
    exact hR x n y m (by simp only at hle; omega)

theorem pairwise_mapIdx {R : β → β → Prop}
    (hR : ∀ i j a i' j' a', (i,j) ≠ (i',j') → R (f i j a) (f i' j' a')) :
    (g.mapIdx f).flatten.Pairwise R := by
  rw [List.pairwise_flatten]
  constructor
  · intro row hrow
    obtain ⟨⟨row,i⟩,_,rfl⟩ := List.mem_map.mp hrow
    exact pairwise_zipIdx_map (fun a j b j' hj => hR i j a i j' b (by simp [hj])) row 0
  · refine pairwise_zipIdx_map ?_ g 0
    intro row i row' i' hi x hx y hy
    obtain ⟨⟨a,j⟩,_,rfl⟩ := List.mem_map.mp hx
    obtain ⟨⟨b,j'⟩,_,rfl⟩ := List.mem_map.mp hy
    exact hR i j a i' j' b (by simp [hi])

end Grid

end CoppiceWallet.Lib
