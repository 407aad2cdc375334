import Mathlib.Algebra.GroupWithZero.Nat
import Mathlib.Algebra.Order.BigOperators.Group.List
import Mathlib.Algebra.Order.Group.Nat
import Mathlib.Data.List.Nodup
import Mathlib.Data.List.Perm.Subperm

/-!
# Selection from a stock

A stock is a list of items, each with a key of its own and a worth. Whoever selects from it is told
the keys to exclude; what is left only shrinks when keys are added.
-/

namespace CoppiceWallet.Lib

variable {ι κ : Type}

structure Stock (ι κ : Type) where
  items : List ι
  key : ι → κ
  worth : ι → Nat
  keys_nodup : (items.map key).Nodup

namespace Stock

variable (s : Stock ι κ) {xs ys : List ι} {x y : ι}

def total (xs : List ι) : Nat := (xs.map s.worth).sum

@[simp] theorem total_cons : s.total (x :: xs) = s.worth x + s.total xs := by
  simp [total]

@[simp] theorem total_append : s.total (xs ++ ys) = s.total xs + s.total ys := by
  simp [total]

theorem total_perm (h : xs.Perm ys) : s.total xs = s.total ys := (h.map s.worth).sum_nat

theorem total_le (h : List.Subperm xs ys) : s.total xs ≤ s.total ys := by
  obtain ⟨zs,hperm,hsub⟩ := h
  rw [← s.total_perm hperm]
  exact (hsub.map s.worth).sum_le_sum (by simp)

theorem total_split (p : ι → Bool) (xs : List ι) :
    s.total xs = s.total (xs.filter fun x => !p x) + s.total (xs.filter p) := by
  induction xs with
  | nil => rfl
  | cons x xs ih =>
    cases hp : p x with
    | true => simp [hp,ih]; omega
    | false => simp [hp,ih]; omega

theorem items_nodup : s.items.Nodup := List.Nodup.of_map s.key s.keys_nodup

theorem eq_of_key (hx : x ∈ s.items) (hy : y ∈ s.items) (h : s.key x = s.key y) : x = y :=
  List.inj_on_of_nodup_map s.keys_nodup hx hy h

variable [DecidableEq κ] {exclude : List κ}

/-- What may be selected. -/
def left (exclude : List κ) : List ι := s.items.filter fun x => decide (s.key x ∉ exclude)

@[simp] theorem mem_left : x ∈ s.left exclude ↔ x ∈ s.items ∧ s.key x ∉ exclude := by
  simp [left]

theorem left_nodup : (s.left exclude).Nodup := s.items_nodup.filter _

theorem subperm_left (hxs : xs.Nodup) (h : ∀ x ∈ xs, x ∈ s.items ∧ s.key x ∉ exclude) :
    List.Subperm xs (s.left exclude) :=
  List.subperm_of_subset hxs fun x hx => s.mem_left.mpr (h x hx)

theorem left_length_lt (exclude' : List κ) (hmono : ∀ k ∈ exclude, k ∈ exclude') (hx : x ∈ s.left exclude)
    (hkey : s.key x ∈ exclude') : (s.left exclude').length < (s.left exclude).length := by
  have hsub : List.Subperm (x :: s.left exclude') (s.left exclude) := by
    refine List.subperm_of_subset (List.nodup_cons.mpr ⟨by simp [hkey],s.left_nodup⟩) ?_
    intro y hy
    cases hy with
    | head => exact hx
    | tail _ hy =>
      have hy := s.mem_left.mp hy
      exact s.mem_left.mpr ⟨hy.1,fun hmem => hy.2 (hmono _ hmem)⟩
  exact hsub.length_le

end Stock

end CoppiceWallet.Lib
