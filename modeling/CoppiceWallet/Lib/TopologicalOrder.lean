import Mathlib.Data.Fintype.Pigeonhole
import Mathlib.Logic.Relation
import Mathlib.Order.WellFounded

/-!
# Greedy topological orders

A greedy order takes, again and again, the least of the nodes whose predecessors have all been
taken. What it takes are the nodes that are not on or below a cycle, and the order does not depend
on how the nodes were listed.
-/

namespace CoppiceWallet.Lib

open Relation

variable {α : Type} {R : α → α → Prop}

variable (R) in
/-- A cycle leads to the node. -/
def OnOrBelowCycle (node : α) : Prop := ∃ v, TransGen R v v ∧ ReflTransGen R v node

theorem not_transGen_self_of_acc {node : α} (h : Acc R node) : ¬ TransGen R node node := by
  have htrans : Acc (TransGen R) node := h.transGen
  induction htrans with
  | intro node _ ih => exact fun hcycle => ih node hcycle (h.inv_of_transGen hcycle) hcycle

theorem acc_of_reflTransGen {v node : α} (hpath : ReflTransGen R v node) (h : Acc R node) :
    Acc R v := by
  induction hpath with
  | refl => exact h
  | tail _ hlast ih => exact ih (h.inv hlast)

theorem transGen_of_descent {f : Nat → α} (hf : ∀ n, R (f (n + 1)) (f n)) (i k : Nat) :
    TransGen R (f (i + k + 1)) (f i) := by
  induction k with
  | zero => exact .single (hf i)
  | succ k ih => exact .head (hf (i + k + 1)) ih

theorem reflTransGen_of_descent {f : Nat → α} (hf : ∀ n, R (f (n + 1)) (f n)) (i : Nat) :
    ReflTransGen R (f i) (f 0) := by
  induction i with
  | zero => exact .refl
  | succ i ih => exact .head (hf i) ih

theorem acc_iff_not_onOrBelowCycle [Finite α] {node : α} :
    Acc R node ↔ ¬ OnOrBelowCycle R node := by
  constructor
  · intro h hcycle
    obtain ⟨v,hv,hpath⟩ := hcycle
    exact not_transGen_self_of_acc (acc_of_reflTransGen hpath h) hv
  · intro h
    by_contra hacc
    obtain ⟨f,hzero,hf⟩ := not_acc_iff_exists_descending_chain.mp hacc
    -- an infinite descent in a finite graph comes back to a node
    obtain ⟨i,j,hne,heq⟩ := Finite.exists_ne_map_eq_of_infinite f
    apply h
    rcases Nat.lt_or_gt_of_ne hne with hlt | hlt
    · obtain ⟨k,rfl⟩ := Nat.exists_eq_add_of_lt hlt
      have hcycle := transGen_of_descent hf i k
      rw [← heq] at hcycle
      exact ⟨f i,hcycle,hzero ▸ reflTransGen_of_descent hf i⟩
    · obtain ⟨k,rfl⟩ := Nat.exists_eq_add_of_lt hlt
      have hcycle := transGen_of_descent hf j k
      rw [heq] at hcycle
      exact ⟨f j,hcycle,hzero ▸ reflTransGen_of_descent hf j⟩

theorem OnOrBelowCycle.predecessor {node : α} (h : OnOrBelowCycle R node) :
    ∃ p, R p node ∧ OnOrBelowCycle R p := by
  obtain ⟨v,hv,hpath⟩ := h
  rcases hpath.cases_tail with rfl | ⟨p,hp,hlast⟩
  · obtain ⟨p,hp,hlast⟩ := TransGen.tail'_iff.mp hv
    exact ⟨p,hlast,_,hv,hp⟩
  · exact ⟨p,hlast,v,hv,hp⟩

/-- Each node of the list is the least of those whose predecessors all stand before it. -/
structure GreedyPrefix (Node : α → Prop) (R le : α → α → Prop) (order : List α) : Prop where
  nodup : order.Nodup
  node : ∀ c ∈ order, Node c
  ready : ∀ before c after, order = before ++ c :: after → ∀ p, R p c → p ∈ before
  least : ∀ before c after, order = before ++ c :: after →
    ∀ d, Node d → d ∉ before → (∀ p, R p d → p ∈ before) → le c d

/-- No node is left whose predecessors have all been taken. -/
def Exhausted (Node : α → Prop) (R : α → α → Prop) (order : List α) : Prop :=
  ∀ d, Node d → (∀ p, R p d → p ∈ order) → d ∈ order

variable {Node : α → Prop} {le : α → α → Prop} {order : List α}

theorem greedyPrefix_nil : GreedyPrefix Node R le [] where
  nodup := List.nodup_nil
  node := by simp
  ready := by simp
  least := by simp

theorem snoc_eq_append_cons {a c : α} {before after : List α}
    (h : order ++ [a] = before ++ c :: after) :
    (∃ rest, order = before ++ c :: rest) ∨ (c = a ∧ before = order) := by
  induction after using List.reverseRecOn with
  | nil =>
    have hsplit := List.append_inj' h rfl
    exact .inr ⟨(List.singleton_inj.mp hsplit.2).symm,hsplit.1.symm⟩
  | append_singleton rest last _ =>
    rw [← List.cons_append,← List.append_assoc] at h
    exact .inl ⟨rest,(List.append_inj' h rfl).1⟩

theorem GreedyPrefix.snoc (h : GreedyPrefix Node R le order) {a : α} (hnode : Node a)
    (hnew : a ∉ order) (hready : ∀ p, R p a → p ∈ order)
    (hleast : ∀ d, Node d → d ∉ order → (∀ p, R p d → p ∈ order) → le a d) :
    GreedyPrefix Node R le (order ++ [a]) where
  nodup := h.nodup.append (List.nodup_singleton a) (List.disjoint_singleton.mpr hnew)
  node := by
    intro c hc
    rcases List.mem_append.mp hc with hc | hc
    · exact h.node c hc
    · exact List.mem_singleton.mp hc ▸ hnode
  ready := by
    intro before c after heq
    rcases snoc_eq_append_cons heq with ⟨rest,horder⟩ | ⟨rfl,rfl⟩
    · exact h.ready before c rest horder
    · exact hready
  least := by
    intro before c after heq
    rcases snoc_eq_append_cons heq with ⟨rest,horder⟩ | ⟨rfl,rfl⟩
    · exact h.least before c rest horder
    · exact hleast

theorem GreedyPrefix.predecessor_mem (h : GreedyPrefix Node R le order) {c p : α}
    (hc : c ∈ order) (hp : R p c) : p ∈ order := by
  obtain ⟨before,after,rfl⟩ := List.append_of_mem hc
  exact List.mem_append_left _ (h.ready before c after rfl p hp)

theorem GreedyPrefix.acc (h : GreedyPrefix Node R le order) {c : α} (hc : c ∈ order) :
    Acc R c := by
  have hbefore : ∀ before after, order = before ++ after → ∀ c ∈ before, Acc R c := by
    intro before
    induction before using List.reverseRecOn with
    | nil => simp
    | append_singleton before last ih =>
      intro after horder c hc
      rw [List.append_assoc,List.singleton_append] at horder
      rcases List.mem_append.mp hc with hc | hc
      · exact ih _ horder c hc
      · rw [List.mem_singleton.mp hc]
        exact Acc.intro last fun p hp => ih _ horder p (h.ready before last after horder p hp)
  exact hbefore order [] (by simp) c hc

theorem mem_of_acc (hall : Exhausted Node R order) (hnode : ∀ p c, R p c → Node p) {c : α}
    (h : Acc R c) (hc : Node c) : c ∈ order := by
  induction h with
  | intro c _ ih => exact hall c hc fun p hp => ih p hp (hnode p c hp)

theorem GreedyPrefix.not_mem_before (h : GreedyPrefix Node R le order) {c : α}
    {before after : List α} (horder : order = before ++ c :: after) : c ∉ before := by
  have hnodup := h.nodup
  rw [horder,List.nodup_middle,List.nodup_cons] at hnodup
  exact fun hc => hnodup.1 (List.mem_append_left _ hc)

theorem GreedyPrefix.nil_of_exhausted {before rest : List α}
    (h : GreedyPrefix Node R le (before ++ rest)) (hall : Exhausted Node R before) : rest = [] := by
  cases rest with
  | nil => rfl
  | cons c after =>
    have hc := hall c (h.node c (by simp)) (h.ready before c after rfl)
    exact absurd hc (h.not_mem_before rfl)

/-- The greedy order is unique. -/
theorem GreedyPrefix.unique (hantisymm : ∀ a b, le a b → le b a → a = b) {order' : List α}
    (h : GreedyPrefix Node R le order) (hall : Exhausted Node R order)
    (h' : GreedyPrefix Node R le order') (hall' : Exhausted Node R order') : order = order' := by
  have hrest : ∀ before rest rest', order = before ++ rest → order' = before ++ rest' →
      rest = rest' := by
    intro before rest
    induction rest generalizing before with
    | nil =>
      intro rest' heq heq'
      rw [List.append_nil] at heq
      exact (GreedyPrefix.nil_of_exhausted (heq' ▸ h') (heq ▸ hall)).symm
    | cons c after ih =>
      intro rest' heq heq'
      cases rest' with
      | nil =>
        rw [List.append_nil] at heq'
        exact GreedyPrefix.nil_of_exhausted (heq ▸ h) (heq' ▸ hall')
      | cons c' after' =>
        have hle : le c c' := h.least before c after heq c' (h'.node c' (by simp [heq']))
          (h'.not_mem_before heq') (h'.ready before c' after' heq')
        have hle' : le c' c := h'.least before c' after' heq' c (h.node c (by simp [heq]))
          (h.not_mem_before heq) (h.ready before c after heq)
        have hsame := hantisymm c c' hle hle'
        subst hsame
        rw [ih (before ++ [c]) after' (by simp [heq]) (by simp [heq'])]
  exact hrest [] order order' rfl rfl

section Rename

variable {β : Type} {f : α → β} {Node' : β → Prop} {R' le' : β → β → Prop}

theorem GreedyPrefix.map (h : GreedyPrefix Node R le order) (hinj : Function.Injective f)
    (hnode : ∀ b, Node' b ↔ ∃ a, Node a ∧ f a = b)
    (hparent : ∀ b c, R' b (f c) ↔ ∃ p, R p c ∧ f p = b)
    (hle : ∀ a b, le a b → le' (f a) (f b)) : GreedyPrefix Node' R' le' (order.map f) where
  nodup := h.nodup.map hinj
  node := by
    intro b hb
    obtain ⟨a,ha,rfl⟩ := List.mem_map.mp hb
    exact (hnode _).mpr ⟨a,h.node a ha,rfl⟩
  ready := by
    intro before b after heq b' hb'
    obtain ⟨before',rest,rfl,rfl,hrest⟩ := List.map_eq_append_iff.mp heq
    obtain ⟨c,after',rfl,rfl,rfl⟩ := List.map_eq_cons_iff.mp hrest
    obtain ⟨p,hp,rfl⟩ := (hparent b' c).mp hb'
    exact List.mem_map_of_mem (h.ready before' c after' rfl p hp)
  least := by
    intro before b after heq d hd hnew hready
    obtain ⟨before',rest,rfl,rfl,hrest⟩ := List.map_eq_append_iff.mp heq
    obtain ⟨c,after',rfl,rfl,rfl⟩ := List.map_eq_cons_iff.mp hrest
    obtain ⟨a,ha,rfl⟩ := (hnode d).mp hd
    apply hle
    apply h.least before' c after' rfl a ha
    · exact fun hmem => hnew (List.mem_map_of_mem hmem)
    · intro p hp
      have hmem := hready (f p) ((hparent _ a).mpr ⟨p,hp,rfl⟩)
      exact (List.mem_map_of_injective hinj).mp hmem

theorem Exhausted.map (h : Exhausted Node R order) (hinj : Function.Injective f)
    (hnode : ∀ b, Node' b ↔ ∃ a, Node a ∧ f a = b)
    (hparent : ∀ b c, R' b (f c) ↔ ∃ p, R p c ∧ f p = b) :
    Exhausted Node' R' (order.map f) := by
  intro d hd hready
  obtain ⟨a,ha,rfl⟩ := (hnode d).mp hd
  apply List.mem_map_of_mem
  apply h a ha
  intro p hp
  have hmem := hready (f p) ((hparent _ a).mpr ⟨p,hp,rfl⟩)
  exact (List.mem_map_of_injective hinj).mp hmem

end Rename

end CoppiceWallet.Lib
