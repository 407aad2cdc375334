import Mathlib.Data.Finset.Card
import Mathlib.Data.Finset.Image
import Mathlib.Data.List.Nodup
import Mathlib.Logic.Equiv.Basic
import Mathlib.Order.Basic

/-!
# Matching each number with a larger one

Two lists of numbers are matched by a walk over both in ascending order: each number of the first list
takes the first number of the second that is larger and not yet passed. No matching has more pairs.
-/

namespace CoppiceWallet.Lib

variable {α : Type} [LinearOrder α]

/-- Pairs of a smaller and a larger number, in which no number of either list is used twice. -/
structure IsMatching (lows highs : List α) (pairs : Finset (α × α)) : Prop where
  low_mem : ∀ p ∈ pairs, p.1 ∈ lows
  high_mem : ∀ p ∈ pairs, p.2 ∈ highs
  lt : ∀ p ∈ pairs, p.1 < p.2
  low_inj : ∀ p ∈ pairs, ∀ q ∈ pairs, p.1 = q.1 → p = q
  high_inj : ∀ p ∈ pairs, ∀ q ∈ pairs, p.2 = q.2 → p = q

/-- The walk. -/
def matchAscending : List α → List α → List (α × α)
  | [], _ => []
  | low :: lows, highs =>
    match highs.dropWhile fun high => decide (high ≤ low) with
    | [] => []
    | high :: highs => (low,high) :: matchAscending lows highs

variable {lows highs : List α} {low high : α} {pairs : Finset (α × α)}

theorem dropWhile_sublist_of_eq (h : (highs.dropWhile fun x => decide (x ≤ low)) = high :: lows) :
    (high :: lows).Sublist highs := h ▸ List.dropWhile_sublist _

theorem lt_of_dropWhile_eq (h : (highs.dropWhile fun x => decide (x ≤ low)) = high :: lows) :
    low < high := by
  have hhead := List.head?_dropWhile_not (fun x => decide (x ≤ low)) highs
  simpa [h] using hhead

theorem mem_dropWhile_of_lt (hsorted : highs.Pairwise (· < ·)) {x : α} (hx : x ∈ highs)
    (hlt : low < x) : x ∈ highs.dropWhile fun y => decide (y ≤ low) := by
  induction highs with
  | nil => cases hx
  | cons y highs ih =>
    by_cases hy : y ≤ low
    · rw [List.dropWhile_cons_of_pos (by simpa using hy)]
      rcases List.mem_cons.mp hx with rfl | hx
      · exact absurd hlt (not_lt.mpr hy)
      · exact ih (List.pairwise_cons.mp hsorted).2 hx
    · rwa [List.dropWhile_cons_of_neg (by simpa using hy)]

theorem IsMatching.high_mem_dropWhile (h : IsMatching (low :: lows) highs pairs)
    (hlows : (low :: lows).Pairwise (· < ·)) (hhighs : highs.Pairwise (· < ·)) {p : α × α}
    (hp : p ∈ pairs) : p.2 ∈ highs.dropWhile fun x => decide (x ≤ low) := by
  refine mem_dropWhile_of_lt hhighs (h.high_mem p hp) ?_
  rcases List.mem_cons.mp (h.low_mem p hp) with heq | hmem
  · exact heq ▸ h.lt p hp
  · exact ((List.pairwise_cons.mp hlows).1 _ hmem).trans (h.lt p hp)

theorem IsMatching.swap (h : IsMatching (low :: lows) highs pairs)
    (hlows : (low :: lows).Pairwise (· < ·)) (hhighs : highs.Pairwise (· < ·)) {rest : List α}
    (hrest : (highs.dropWhile fun x => decide (x ≤ low)) = high :: rest) :
    ∃ pairs', IsMatching (low :: lows) highs pairs' ∧ pairs'.card = pairs.card ∧
      ∀ p ∈ pairs', p.1 = low → p.2 = high := by
  by_cases hlow : ∃ partner, (low,partner) ∈ pairs
  · obtain ⟨partner,hpartner⟩ := hlow
    have hsorted : (high :: rest).Pairwise (· < ·) := hhighs.sublist (dropWhile_sublist_of_eq hrest)
    have hfirst : ∀ p ∈ pairs, p.2 ∈ high :: rest := fun p hp =>
      hrest ▸ h.high_mem_dropWhile hlows hhighs hp
    have hle : ∀ p ∈ pairs, high ≤ p.2 := by
      intro p hp
      rcases List.mem_cons.mp (hfirst p hp) with heq | hmem
      · exact heq.ge
      · exact ((List.pairwise_cons.mp hsorted).1 _ hmem).le
    have hhigh : high ∈ highs := (dropWhile_sublist_of_eq hrest).subset List.mem_cons_self
    let f : α × α → α × α := fun p => (p.1,Equiv.swap high partner p.2)
    have hinj : Function.Injective f := by
      intro p q hpq
      have hpair : p.1 = q.1 ∧ Equiv.swap high partner p.2 = Equiv.swap high partner q.2 :=
        Prod.ext_iff.mp hpq
      exact Prod.ext hpair.1 ((Equiv.swap high partner).injective hpair.2)
    -- the number that had the first larger one takes the partner
    have hvalid : ∀ p ∈ pairs, (f p).2 ∈ highs ∧ p.1 < (f p).2 := by
      intro p hp
      by_cases hph : p.2 = high
      · have hval : (f p).2 = partner := by simp [f,hph]
        rw [hval]
        exact ⟨h.high_mem _ hpartner,(hph ▸ h.lt p hp).trans_le (hle _ hpartner)⟩
      · by_cases hpp : p.2 = partner
        · obtain rfl := h.high_inj p hp _ hpartner hpp
          have hval : (f (low,partner)).2 = high := by simp [f]
          rw [hval]
          exact ⟨hhigh,lt_of_dropWhile_eq hrest⟩
        · have hval : (f p).2 = p.2 := Equiv.swap_apply_of_ne_of_ne hph hpp
          rw [hval]
          exact ⟨h.high_mem p hp,h.lt p hp⟩
    refine ⟨pairs.image f,⟨?_,?_,?_,?_,?_⟩,Finset.card_image_of_injective pairs hinj,?_⟩
    · intro q hq
      obtain ⟨p,hp,rfl⟩ := Finset.mem_image.mp hq
      exact h.low_mem p hp
    · intro q hq
      obtain ⟨p,hp,rfl⟩ := Finset.mem_image.mp hq
      exact (hvalid p hp).1
    · intro q hq
      obtain ⟨p,hp,rfl⟩ := Finset.mem_image.mp hq
      exact (hvalid p hp).2
    · intro q hq q' hq' heq
      obtain ⟨p,hp,rfl⟩ := Finset.mem_image.mp hq
      obtain ⟨p',hp',rfl⟩ := Finset.mem_image.mp hq'
      rw [h.low_inj p hp p' hp' heq]
    · intro q hq q' hq' heq
      obtain ⟨p,hp,rfl⟩ := Finset.mem_image.mp hq
      obtain ⟨p',hp',rfl⟩ := Finset.mem_image.mp hq'
      rw [h.high_inj p hp p' hp' ((Equiv.swap high partner).injective heq)]
    · intro q hq heq
      obtain ⟨p,hp,rfl⟩ := Finset.mem_image.mp hq
      obtain rfl := h.low_inj p hp _ hpartner heq
      simp [f]
  · refine ⟨pairs,h,rfl,?_⟩
    intro p hp heq
    exact absurd ⟨p.2,heq ▸ hp⟩ hlow

theorem IsMatching.tail (h : IsMatching (low :: lows) highs pairs)
    (hlows : (low :: lows).Pairwise (· < ·)) (hhighs : highs.Pairwise (· < ·)) {rest : List α}
    (hrest : (highs.dropWhile fun x => decide (x ≤ low)) = high :: rest)
    (hfirst : ∀ p ∈ pairs, p.1 = low → p.2 = high) :
    ∃ pairs', IsMatching lows rest pairs' ∧ pairs.card ≤ pairs'.card + 1 := by
  refine ⟨pairs.filter fun p => p.2 ≠ high,⟨?_,?_,?_,?_,?_⟩,?_⟩
  · intro p hp
    obtain ⟨hp,hne⟩ := Finset.mem_filter.mp hp
    exact (List.mem_cons.mp (h.low_mem p hp)).resolve_left fun heq => hne (hfirst p hp heq)
  · intro p hp
    obtain ⟨hp,hne⟩ := Finset.mem_filter.mp hp
    have hmem : p.2 ∈ high :: rest := hrest ▸ h.high_mem_dropWhile hlows hhighs hp
    exact (List.mem_cons.mp hmem).resolve_left hne
  · exact fun p hp => h.lt p (Finset.mem_of_mem_filter p hp)
  · exact fun p hp q hq => h.low_inj p (Finset.mem_of_mem_filter p hp) q (Finset.mem_of_mem_filter q hq)
  · exact fun p hp q hq => h.high_inj p (Finset.mem_of_mem_filter p hp) q
      (Finset.mem_of_mem_filter q hq)
  · have hone : (pairs.filter fun p => p.2 = high).card ≤ 1 := by
      refine Finset.card_le_one.mpr ?_
      intro p hp q hq
      obtain ⟨hp,hpe⟩ := Finset.mem_filter.mp hp
      obtain ⟨hq,hqe⟩ := Finset.mem_filter.mp hq
      exact h.high_inj p hp q hq (hpe.trans hqe.symm)
    have hsplit := pairs.card_filter_add_card_filter_not fun p => p.2 = high
    simp only [ne_eq] at hsplit ⊢
    omega

theorem card_le_matchAscending (hlows : lows.Pairwise (· < ·)) (hhighs : highs.Pairwise (· < ·))
    (h : IsMatching lows highs pairs) : pairs.card ≤ (matchAscending lows highs).length := by
  induction lows generalizing highs pairs with
  | nil =>
    have hempty : pairs = ∅ := Finset.eq_empty_of_forall_notMem fun p hp => by
      simpa using h.low_mem p hp
    simp [hempty]
  | cons low lows ih =>
    rw [matchAscending]
    cases hrest : highs.dropWhile fun x => decide (x ≤ low) with
    | nil =>
      have hempty : pairs = ∅ := Finset.eq_empty_of_forall_notMem fun p hp => by
        simpa [hrest] using h.high_mem_dropWhile hlows hhighs hp
      simp [hempty]
    | cons high rest =>
      obtain ⟨swapped,hswapped,hcard,hfirst⟩ := h.swap hlows hhighs hrest
      obtain ⟨tail,htail,hle⟩ := hswapped.tail hlows hhighs hrest hfirst
      have hsorted : (high :: rest).Pairwise (· < ·) := hhighs.sublist (dropWhile_sublist_of_eq hrest)
      have hlength := ih (List.pairwise_cons.mp hlows).2 (List.pairwise_cons.mp hsorted).2 htail
      simp only [List.length_cons]
      omega

theorem matchAscending_sublist (lows highs : List α) :
    ((matchAscending lows highs).map Prod.fst).Sublist lows ∧
      ((matchAscending lows highs).map Prod.snd).Sublist highs ∧
      ∀ p ∈ matchAscending lows highs, p.1 < p.2 := by
  induction lows generalizing highs with
  | nil => simp [matchAscending]
  | cons low lows ih =>
    rw [matchAscending]
    cases hrest : highs.dropWhile fun x => decide (x ≤ low) with
    | nil => simp
    | cons high rest =>
      obtain ⟨hlow,hhigh,hlt⟩ := ih rest
      refine ⟨?_,?_,?_⟩
      · exact hlow.cons_cons low
      · exact (hhigh.cons_cons high).trans (dropWhile_sublist_of_eq hrest)
      · intro p hp
        cases hp with
        | head => exact lt_of_dropWhile_eq hrest
        | tail _ hp => exact hlt p hp

end CoppiceWallet.Lib
