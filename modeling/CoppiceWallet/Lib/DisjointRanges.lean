import Mathlib.Data.List.Pairwise
import Mathlib.Order.Lattice

/-!
# Lists of disjoint ranges

Rows that each carry a range, from a first point to a point that is not in it any more. The ranges
are not empty and do not overlap; a row may be replaced by one with a smaller range.
-/

namespace CoppiceWallet.Lib

variable {ρ α : Type} [LinearOrder α]

section Relations

variable (lo hi : ρ → α)

def ContainsPoint (row : ρ) (x : α) : Prop := lo row ≤ x ∧ x < hi row

def Apart (row other : ρ) : Prop := hi row ≤ lo other ∨ hi other ≤ lo row

/-- The first row has a part of the range of the second one. -/
structure Within (part row : ρ) : Prop where
  nonempty : lo part < hi part
  low : lo row ≤ lo part
  high : hi part ≤ hi row

structure DisjointRanges (rows : List ρ) : Prop where
  nonempty : ∀ row ∈ rows, lo row < hi row
  apart : rows.Pairwise (Apart lo hi)

end Relations

variable {lo hi : ρ → α} {rows : List ρ}

theorem within_self {row : ρ} (h : lo row < hi row) : Within lo hi row row :=
  ⟨h,le_refl _,le_refl _⟩

instance : Std.Symm (Apart lo hi) := ⟨fun _ _ h => Or.symm h⟩

theorem Apart.within {row other part part' : ρ} (h : Apart lo hi row other)
    (hpart : Within lo hi part row) (hpart' : Within lo hi part' other) :
    Apart lo hi part part' := by
  rcases h with h | h
  · exact .inl (hpart.high.trans (h.trans hpart'.low))
  · exact .inr (hpart'.high.trans (h.trans hpart.low))

theorem Apart.not_both {row other : ρ} (h : Apart lo hi row other) {x : α}
    (hrow : ContainsPoint lo hi row x) : ¬ ContainsPoint lo hi other x := by
  intro hother
  rcases h with h | h
  · exact absurd (hrow.2.trans_le (h.trans hother.1)) (lt_irrefl x)
  · exact absurd (hother.2.trans_le (h.trans hrow.1)) (lt_irrefl x)

theorem Apart.ends_ne {row other : ρ} (h : Apart lo hi row other) (hrow : lo row < hi row)
    (hother : lo other < hi other) : lo row ≠ lo other ∧ hi row ≠ hi other := by
  rcases h with h | h
  · exact ⟨(hrow.trans_le h).ne,(h.trans_lt hother).ne⟩
  · exact ⟨(hother.trans_le h).ne',(h.trans_lt hrow).ne'⟩

/-- Two rows with a common point are one. -/
theorem DisjointRanges.eq_of_contains (h : DisjointRanges lo hi rows) {row other : ρ}
    (hrow : row ∈ rows) (hother : other ∈ rows) {x : α} (hx : ContainsPoint lo hi row x)
    (hx' : ContainsPoint lo hi other x) : row = other := by
  by_contra hne
  exact (h.apart.forall hrow hother hne).not_both hx hx'

theorem DisjointRanges.shrink {before after : List ρ} {row part : ρ}
    (h : DisjointRanges lo hi (before ++ row :: after)) (hpart : Within lo hi part row) :
    DisjointRanges lo hi (before ++ part :: after) := by
  obtain ⟨hbefore,hrest,hcross⟩ := List.pairwise_append.mp h.apart
  obtain ⟨hrow,hafter⟩ := List.pairwise_cons.mp hrest
  have hnonempty : ∀ other ∈ before ++ after, lo other < hi other := by
    intro other hother
    apply h.nonempty
    rcases List.mem_append.mp hother with hother | hother
    · exact List.mem_append_left _ hother
    · exact List.mem_append_right _ (List.mem_cons_of_mem _ hother)
  constructor
  · intro other hother
    rcases List.mem_append.mp hother with hother | hother
    · exact hnonempty other (List.mem_append_left _ hother)
    · rcases List.mem_cons.mp hother with rfl | hother
      · exact hpart.nonempty
      · exact hnonempty other (List.mem_append_right _ hother)
  · apply List.pairwise_append.mpr
    refine ⟨hbefore,List.pairwise_cons.mpr ⟨?_,hafter⟩,?_⟩
    · intro other hother
      have hself := within_self (hnonempty other (List.mem_append_right _ hother))
      exact (hrow other hother).within hpart hself
    · intro other hother last hlast
      rcases List.mem_cons.mp hlast with rfl | hlast
      · have hself := within_self (hnonempty other (List.mem_append_left _ hother))
        exact (hcross other hother row List.mem_cons_self).within hself hpart
      · exact hcross other hother last (List.mem_cons_of_mem _ hlast)

theorem DisjointRanges.ends_ne {before after : List ρ} {row : ρ}
    (h : DisjointRanges lo hi (before ++ row :: after)) {other : ρ}
    (hother : other ∈ before ++ after) : lo other ≠ lo row ∧ hi other ≠ hi row := by
  have hrow : lo row < hi row := h.nonempty row (by simp)
  have hnonempty : lo other < hi other := by
    apply h.nonempty
    rcases List.mem_append.mp hother with hother | hother
    · exact List.mem_append_left _ hother
    · exact List.mem_append_right _ (List.mem_cons_of_mem _ hother)
  obtain ⟨_,hrest,hcross⟩ := List.pairwise_append.mp h.apart
  rcases List.mem_append.mp hother with hother | hother
  · exact (hcross other hother row List.mem_cons_self).ends_ne hnonempty hrow
  · have hne := ((List.pairwise_cons.mp hrest).1 other hother).ends_ne hrow hnonempty
    exact ⟨hne.1.symm,hne.2.symm⟩

end CoppiceWallet.Lib
