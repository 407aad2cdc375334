import Mathlib.Data.List.Forall2
import Mathlib.Data.List.Sort
import Mathlib.Data.List.Nodup
import Mathlib.Algebra.BigOperators.Group.List.Basic
import Mathlib.Tactic.Ring

/-!
# Elementwise related lists, and sums over parts of a list

Two facts carry a translation: what is distinct stays distinct under an injective relation, and
what is a member has a related member. The sums split a list by a choice of positions.
-/

namespace CoppiceWallet.Lib

variable {α β γ : Type} {R : α → β → Prop} {xs : List α} {ys : List β}

theorem forall₂_map_eq {f : α → γ} {g : β → γ} (h : List.Forall₂ R xs ys)
    (hR : ∀ x y, R x y → g y = f x) : ys.map g = xs.map f := by
  induction h with
  | nil => rfl
  | cons hxy _ ih => rw [List.map_cons,List.map_cons,hR _ _ hxy,ih]

theorem forall₂_trans {S : α → α → Prop} (hS : ∀ x y z, S x y → S y z → S x z) {xs ys zs : List α}
    (h : List.Forall₂ S xs ys) (h' : List.Forall₂ S ys zs) : List.Forall₂ S xs zs := by
  induction h generalizing zs with
  | nil =>
    cases h'
    exact .nil
  | cons hxy _ ih =>
    cases h' with
    | cons hyz h' => exact .cons (hS _ _ _ hxy hyz) (ih h')

theorem forall₂_getElem? (h : List.Forall₂ R xs ys) {i : Nat} {y : β} (hy : ys[i]? = some y) :
    ∃ x, xs[i]? = some x ∧ R x y := by
  induction h generalizing i with
  | nil => simp at hy
  | cons hxy _ ih =>
    cases i with
    | zero =>
      simp only [List.getElem?_cons_zero,Option.some.injEq] at hy ⊢
      subst hy
      exact ⟨_,rfl,hxy⟩
    | succ i => exact ih (by simpa using hy)

theorem forall₂_mem_left (h : List.Forall₂ R xs ys) {x : α} (hx : x ∈ xs) : ∃ y ∈ ys, R x y := by
  induction h with
  | nil => cases hx
  | cons hxy _ ih =>
    rcases List.mem_cons.mp hx with rfl | hx
    · exact ⟨_,List.mem_cons_self ..,hxy⟩
    · obtain ⟨y,hy,hr⟩ := ih hx
      exact ⟨y,List.mem_cons_of_mem _ hy,hr⟩

theorem forall₂_mem_right (h : List.Forall₂ R xs ys) {y : β} (hy : y ∈ ys) :
    ∃ x ∈ xs, R x y := by
  obtain ⟨i,hi⟩ := List.mem_iff_getElem?.mp hy
  obtain ⟨x,hx,hr⟩ := forall₂_getElem? h hi
  exact ⟨x,List.mem_of_getElem? hx,hr⟩

/-- Distinct elements relate to distinct elements. -/
theorem forall₂_nodup (h : List.Forall₂ R xs ys) (hxs : xs.Nodup)
    (hinj : ∀ x x' y, R x y → R x' y → x = x') : ys.Nodup := by
  induction h with
  | nil => exact .nil
  | cons hxy htail ih =>
    obtain ⟨hx,hxs⟩ := List.nodup_cons.mp hxs
    refine List.nodup_cons.mpr ⟨fun hy => hx ?_,ih hxs⟩
    obtain ⟨x',hx',hr⟩ := forall₂_mem_right htail hy
    exact hinj _ _ _ hxy hr ▸ hx'

theorem filterMap_sublist_map {g : α → Option β} {h : α → β} (hg : ∀ x y, g x = some y → y = h x)
    (xs : List α) : (xs.filterMap g).Sublist (xs.map h) := by
  induction xs with
  | nil => exact .slnil
  | cons x xs ih =>
    cases hx : g x with
    | none => simpa [hx] using ih.cons (h x)
    | some y =>
      obtain rfl := hg x y hx
      simpa [hx] using ih.cons_cons (h x)

theorem foldl_max_le_iff {xs : List Nat} {b m : Nat} :
    xs.foldl max b ≤ m ↔ b ≤ m ∧ ∀ x ∈ xs, x ≤ m := by
  induction xs generalizing b with
  | nil => simp
  | cons x xs ih => rw [List.foldl_cons,ih,max_le_iff,and_assoc,List.forall_mem_cons]

theorem sum_flatMap_map (xs : List α) (f : α → List β) (w : β → Nat) :
    ((xs.flatMap f).map w).sum = (xs.map fun x => ((f x).map w).sum).sum := by
  induction xs with
  | nil => rfl
  | cons x xs ih => simp [ih]

theorem sum_map_filter (xs : List α) (p : α → Bool) (w : α → Nat) :
    ((xs.filter p).map w).sum = (xs.map fun x => if p x then w x else 0).sum := by
  induction xs with
  | nil => rfl
  | cons x xs ih =>
    by_cases hx : p x <;> simp [hx,ih]

/-- Positions picked once, with their values, and the positive values left over make up the
whole list. -/
theorem sum_picked_add_rest (values : List Nat) (picked : List (Nat × Nat))
    (hnodup : (picked.map Prod.fst).Nodup) (hvalue : ∀ p ∈ picked, values[p.1]? = some p.2) :
    (picked.map Prod.snd).sum + ((values.zipIdx.filter fun (value, index) =>
      decide (0 < value) && !(picked.map Prod.fst).contains index).map Prod.fst).sum =
      values.sum := by
  have hzip : values.zipIdx.Nodup := List.Nodup.of_map Prod.snd (by
    rw [List.zipIdx_map_snd]
    exact List.nodup_range')
  have hpicked : (values.zipIdx.filter fun p => (picked.map Prod.fst).contains p.2).Perm
      (picked.map Prod.swap) := by
    rw [List.perm_ext_iff_of_nodup (hzip.filter _)
      (hnodup.of_map.map Prod.swap_injective)]
    rintro ⟨value,index⟩
    simp only [List.mem_filter,List.mem_zipIdx_iff_getElem?,List.contains_iff_mem,List.mem_map,
      Prod.exists]
    constructor
    · rintro ⟨hget,i,v,hmem,rfl⟩
      have hv := hvalue _ hmem
      simp only at hv hget
      rw [hv] at hget
      cases hget
      exact ⟨i,_,hmem,rfl⟩
    · rintro ⟨i,v,hmem,heq⟩
      cases heq
      exact ⟨hvalue _ hmem,_,_,hmem,rfl⟩
  have hall : (values.zipIdx.map Prod.fst).sum = values.sum := by rw [List.zipIdx_map_fst]
  rw [← hall,← (List.filter_append_perm
    (fun p => (picked.map Prod.fst).contains p.2) values.zipIdx).map Prod.fst |>.sum_eq,
    List.map_append,List.sum_append,(hpicked.map Prod.fst).sum_eq,List.map_map]
  congr 1
  rw [sum_map_filter,sum_map_filter]
  congr 1
  refine List.map_congr_left fun p _ => ?_
  by_cases hp : p.2 ∈ picked.map Prod.fst <;> by_cases hz : p.1 = 0 <;>
    simp [hp,hz,Nat.pos_iff_ne_zero]

/-- Put a value in the place of the first element that satisfies a predicate. -/
def replaceFirst (p : α → Bool) (y : α) : List α → List α
  | [] => []
  | x :: xs => if p x then y :: xs else x :: replaceFirst p y xs

theorem replaceFirst_append {p : α → Bool} {x y : α} {l r : List α} (hl : ∀ z ∈ l, p z = false)
    (hx : p x = true) : replaceFirst p y (l ++ x :: r) = l ++ y :: r := by
  induction l with
  | nil => exact if_pos hx
  | cons z l ih =>
    have hz : ¬ p z = true := by simp [hl z (List.mem_cons_self ..)]
    rw [List.cons_append,replaceFirst,if_neg hz,ih fun z hz => hl z (List.mem_cons_of_mem _ hz)]
    rfl

theorem replaceFirst_split {p : α → Bool} {x : α} {xs : List α} (h : xs.find? p = some x) :
    p x = true ∧ ∃ l r, xs = l ++ x :: r ∧ ∀ y, replaceFirst p y xs = l ++ y :: r := by
  obtain ⟨hx,l,r,rfl,hl⟩ := List.find?_eq_some_iff_append.mp h
  refine ⟨hx,l,r,rfl,fun y => ?_⟩
  apply replaceFirst_append _ hx
  intro z hz
  simpa using hl z hz

theorem find?_replaceFirst {p : α → Bool} {x y : α} {xs : List α}
    (h : xs.find? p = some x) (hy : p y = true) : (replaceFirst p y xs).find? p = some y := by
  induction xs with
  | nil => cases h
  | cons z xs ih =>
    cases hz : p z with
    | true => simp [replaceFirst,hz,hy]
    | false =>
      rw [List.find?_cons,hz] at h
      simp only [replaceFirst,hz,Bool.false_eq_true,if_false,List.find?_cons]
      exact ih h

theorem flatMap_eq_single {α β : Type*} {f : α → List β} {list : List α} (hnodup : list.Nodup)
    {a : α} (ha : a ∈ list) (h : ∀ b ∈ list, b ≠ a → f b = []) : list.flatMap f = f a := by
  induction list with
  | nil => cases ha
  | cons b list ih =>
    rw [List.nodup_cons] at hnodup
    rw [List.flatMap_cons]
    by_cases hb : b = a
    · have hrest : list.flatMap f = [] := List.flatMap_eq_nil_iff.mpr fun c hc =>
        h c (List.mem_cons_of_mem b hc) fun hca => hnodup.1 (by rwa [hb,← hca])
      rw [hrest,hb,List.append_nil]
    · rw [h b (by simp) hb,List.nil_append]
      exact ih hnodup.2 ((List.mem_cons.mp ha).resolve_left (Ne.symm hb))
        fun c hc => h c (List.mem_cons_of_mem b hc)

theorem pairwise_toList {α : Type*} {r : α → α → Prop} {first second : Option α}
    (h : ∀ a ∈ first, ∀ b ∈ second, r a b) : (first.toList ++ second.toList).Pairwise r := by
  cases first with
  | none => cases second <;> simp
  | some a =>
    cases second with
    | none => simp
    | some b => simpa using h a rfl b rfl

section

variable {α β : Type} [DecidableEq α] {list : List α} {a : α}

theorem forall_erase_of_nodup {P : α → Prop} (hnodup : list.Nodup) (h : ∀ b, b ≠ a → P b) :
    ∀ b ∈ list.erase a, P b := fun b hb => h b (hnodup.mem_erase_iff.mp hb).1

theorem filterMap_update {f g : α → Option β} (hnodup : list.Nodup) (ha : a ∈ list)
    (hsame : ∀ b, b ≠ a → g b = f b) {c : β} (hf : f a = none) (hg : g a = some c) :
    (list.filterMap g).Perm (c :: list.filterMap f) := by
  have herase := List.perm_cons_erase ha
  have hrest : (list.erase a).filterMap g = (list.erase a).filterMap f :=
    List.filterMap_congr (forall_erase_of_nodup hnodup hsame)
  have hfirst := herase.filterMap g
  have hsecond := herase.filterMap f
  rw [List.filterMap_cons,hg] at hfirst
  rw [List.filterMap_cons,hf] at hsecond
  simp only [hrest] at hfirst
  exact hfirst.trans (hsecond.symm.cons c)

theorem sum_update {f g : α → Nat} (hnodup : list.Nodup) (ha : a ∈ list)
    (hsame : ∀ b, b ≠ a → g b = f b) : (list.map g).sum + f a = (list.map f).sum + g a := by
  have herase := List.perm_cons_erase ha
  have hrest : (list.erase a).map g = (list.erase a).map f :=
    List.map_congr_left (forall_erase_of_nodup hnodup hsame)
  have hfirst := (herase.map g).sum_eq
  have hsecond := (herase.map f).sum_eq
  simp only [List.map_cons,List.sum_cons,hrest] at hfirst hsecond
  omega

end

/-! ## Sets as ascending lists

A set that is kept in order, as the strictly ascending list of its members: the least one is the
head.
-/

section

variable {κ : Type} [LinearOrder κ]

def insertAscending (x : κ) : List κ → List κ
  | [] => [x]
  | y :: ys =>
    if x < y then x :: y :: ys
    else if x = y then y :: ys
    else y :: insertAscending x ys

@[simp] theorem mem_insertAscending {x z : κ} {ys : List κ} :
    z ∈ insertAscending x ys ↔ z = x ∨ z ∈ ys := by
  induction ys with
  | nil => simp [insertAscending]
  | cons y ys ih =>
    unfold insertAscending
    split
    · simp
    · split
      · rename_i heq
        simp [heq]
      · simp only [List.mem_cons,ih]
        exact or_left_comm

theorem ascending_insert {x : κ} {ys : List κ} (h : ys.Pairwise (· < ·)) :
    (insertAscending x ys).Pairwise (· < ·) := by
  induction ys with
  | nil => simp [insertAscending]
  | cons y ys ih =>
    have hparts := List.pairwise_cons.mp h
    unfold insertAscending
    split
    · rename_i hlt
      apply List.pairwise_cons.mpr
      refine ⟨?_,h⟩
      intro z hz
      rcases List.mem_cons.mp hz with rfl | hz
      · exact hlt
      · exact hlt.trans (hparts.1 z hz)
    · rename_i hnot
      split
      · exact h
      · rename_i hne
        have hlt : y < x := lt_of_le_of_ne (not_lt.mp hnot) (Ne.symm hne)
        apply List.pairwise_cons.mpr
        refine ⟨?_,ih hparts.2⟩
        intro z hz
        rcases mem_insertAscending.mp hz with rfl | hz
        · exact hlt
        · exact hparts.1 z hz

end

end CoppiceWallet.Lib
