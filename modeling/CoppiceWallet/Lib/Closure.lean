import Mathlib.Data.List.Infix
import Mathlib.Data.List.Nodup
import Mathlib.Data.List.Perm.Subperm
import Mathlib.Logic.Relation

/-!
# Marking the descendants in a finite graph

A graph is a list of nodes, each with a name and the names of its parents. Marking every node with a
marked parent, until nothing new is marked, marks what can be reached from the first marks.
-/

namespace CoppiceWallet.Lib

variable {ρ κ : Type} [DecidableEq κ] (name : ρ → κ) (parents : ρ → List κ)

def spreadNode (marked : List κ) (node : ρ) : List κ :=
  if (parents node).any marked.contains then marked.insert (name node) else marked

/-- One pass over the nodes. -/
def spread (nodes : List ρ) (marked : List κ) : List κ :=
  nodes.foldl (spreadNode name parents) marked

/-- Passes until one of them marks nothing. -/
def saturate (nodes : List ρ) : Nat → List κ → List κ
  | 0, marked => marked
  | fuel + 1, marked =>
    let next := spread name parents nodes marked
    if next.length = marked.length then next else saturate nodes fuel next

def Edge (nodes : List ρ) (parent child : κ) : Prop :=
  ∃ node ∈ nodes, name node = child ∧ parent ∈ parents node

variable {name parents}

theorem suffix_spreadNode (marked : List κ) (node : ρ) :
    marked <:+ spreadNode name parents marked node := by
  unfold spreadNode
  split
  · exact List.suffix_insert _ _
  · exact List.suffix_refl _

theorem suffix_spread (nodes : List ρ) (marked : List κ) :
    marked <:+ spread name parents nodes marked := by
  induction nodes generalizing marked with
  | nil => exact List.suffix_refl _
  | cons node nodes ih => exact (suffix_spreadNode marked node).trans (ih _)

variable {marked : List κ} {nodes : List ρ}

theorem name_mem_spread {node : ρ} {parent : κ} (hnode : node ∈ nodes)
    (hparent : parent ∈ parents node) (hmarked : parent ∈ marked) :
    name node ∈ spread name parents nodes marked := by
  induction nodes generalizing marked with
  | nil => cases hnode
  | cons head nodes ih =>
    rcases List.mem_cons.mp hnode with rfl | hnode
    · refine (suffix_spread nodes _).subset ?_
      have hany : (parents node).any marked.contains = true :=
        List.any_eq_true.mpr ⟨parent,hparent,by simpa using hmarked⟩
      rw [spreadNode,if_pos hany]
      exact List.mem_insert_self
    · exact ih hnode ((suffix_spreadNode marked head).subset hmarked)

theorem spread_forall {P : κ → Prop} (hedge : ∀ p k, Edge name parents nodes p k → P p → P k)
    (h : ∀ k ∈ marked, P k) : ∀ k ∈ spread name parents nodes marked, P k := by
  have hstep : ∀ (sub : List ρ), sub ⊆ nodes → ∀ marked : List κ, (∀ k ∈ marked, P k) →
      ∀ k ∈ spread name parents sub marked, P k := by
    intro sub
    induction sub with
    | nil => exact fun _ marked h => h
    | cons node sub ih =>
      intro hsub marked h
      refine ih (fun n hn => hsub (List.mem_cons_of_mem _ hn)) _ fun k hk => ?_
      unfold spreadNode at hk
      split at hk
      · rename_i hany
        obtain ⟨parent,hparent,hmarked⟩ := List.any_eq_true.mp hany
        rcases List.mem_insert_iff.mp hk with rfl | hk
        · exact hedge parent _ ⟨node,hsub List.mem_cons_self,rfl,hparent⟩
            (h parent (by simpa using hmarked))
        · exact h k hk
      · exact h k hk
  exact hstep nodes (fun _ h => h) marked h

theorem saturate_forall {P : κ → Prop} (hedge : ∀ p k, Edge name parents nodes p k → P p → P k)
    {fuel : Nat} (h : ∀ k ∈ marked, P k) : ∀ k ∈ saturate name parents nodes fuel marked, P k := by
  induction fuel generalizing marked with
  | zero => exact h
  | succ fuel ih =>
    rw [saturate]
    split
    · exact spread_forall hedge h
    · exact ih (spread_forall hedge h)

theorem suffix_saturate (nodes : List ρ) (fuel : Nat) (marked : List κ) :
    marked <:+ saturate name parents nodes fuel marked := by
  induction fuel generalizing marked with
  | zero => exact List.suffix_refl _
  | succ fuel ih =>
    rw [saturate]
    split
    · exact suffix_spread nodes marked
    · exact (suffix_spread nodes marked).trans (ih _)

theorem spread_nodup (h : marked.Nodup) : (spread name parents nodes marked).Nodup := by
  induction nodes generalizing marked with
  | nil => exact h
  | cons node nodes ih =>
    refine ih ?_
    unfold spreadNode
    split
    · exact List.Nodup.insert h
    · exact h

omit [DecidableEq κ] in
private theorem names_bound {nodes : List ρ} {marked : List κ} (hnodup : marked.Nodup)
    (h : ∀ k ∈ marked, k ∈ nodes.map name) : marked.length ≤ nodes.length := by
  have hsub : marked.Subperm (nodes.map name) := List.subperm_of_subset hnodup h
  simpa using hsub.length_le

theorem spread_saturate {fuel : Nat} (hnodup : marked.Nodup) (h : ∀ k ∈ marked, k ∈ nodes.map name)
    (hfuel : nodes.length < fuel + marked.length) :
    spread name parents nodes (saturate name parents nodes fuel marked) =
      saturate name parents nodes fuel marked := by
  induction fuel generalizing marked with
  | zero =>
    have hbound := names_bound hnodup h
    omega
  | succ fuel ih =>
    rw [saturate]
    split
    · have hsame : marked = spread name parents nodes marked :=
        (suffix_spread nodes marked).eq_of_length (Eq.symm ‹_›)
      rw [← hsame,← hsame]
    · have hgrow : marked.length ≤ (spread name parents nodes marked).length :=
        (suffix_spread nodes marked).length_le
      refine ih (spread_nodup hnodup) (spread_forall ?_ h) (by omega)
      rintro _ _ ⟨node,hnode,rfl,_⟩ _
      exact List.mem_map_of_mem hnode

theorem mem_saturate {fuel : Nat} {seeds : List κ} {k : κ} (hnodup : seeds.Nodup)
    (h : ∀ k ∈ seeds, k ∈ nodes.map name) (hfuel : nodes.length < fuel + seeds.length) :
    k ∈ saturate name parents nodes fuel seeds ↔
      ∃ seed ∈ seeds, Relation.ReflTransGen (Edge name parents nodes) seed k := by
  constructor
  · have hedge : ∀ p c, Edge name parents nodes p c →
        (∃ seed ∈ seeds, Relation.ReflTransGen (Edge name parents nodes) seed p) →
        ∃ seed ∈ seeds, Relation.ReflTransGen (Edge name parents nodes) seed c := by
      rintro parent child hedge ⟨seed,hseed,hreach⟩
      exact ⟨seed,hseed,hreach.tail hedge⟩
    exact saturate_forall hedge (fun seed hseed => ⟨seed,hseed,.refl⟩) k
  · rintro ⟨seed,hseed,hreach⟩
    induction hreach with
    | refl => exact (suffix_saturate nodes fuel seeds).subset hseed
    | tail _ hedge ih =>
      obtain ⟨node,hnode,rfl,hparent⟩ := hedge
      rw [← spread_saturate hnodup h hfuel]
      exact name_mem_spread hnode hparent ih

end CoppiceWallet.Lib
