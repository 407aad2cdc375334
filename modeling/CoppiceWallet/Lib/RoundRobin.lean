import Mathlib.Data.Finset.Card
import Mathlib.Order.Defs.LinearOrder

/-!
# Taking turns

At each turn the next key after the last chosen one is chosen, going round at the end. A key that is
always present is reached after as many turns as there are different keys.
-/

namespace CoppiceWallet.Lib

variable {κ : Type} [LinearOrder κ]

/-- The chosen key is the first one after the last, or the first one when none is after it. -/
def InTurn (last : Option κ) (keys : List κ) (chosen : κ) : Prop :=
  chosen ∈ keys ∧ match last with
    | none => ∀ key ∈ keys, chosen ≤ key
    | some last => (last < chosen ∧ ∀ key ∈ keys, last < key → chosen ≤ key) ∨
      (∀ key ∈ keys, key ≤ last) ∧ ∀ key ∈ keys, chosen ≤ key

/-- From after the last key up to the goal, going round. -/
def UpTo (last : Option κ) (goal key : κ) : Prop :=
  match last with
  | none => key ≤ goal
  | some last => (last < goal → last < key ∧ key ≤ goal) ∧ (goal ≤ last → last < key ∨ key ≤ goal)

theorem upTo_goal (last : Option κ) (goal : κ) : UpTo last goal goal := by
  cases last with
  | none => exact le_refl goal
  | some last => exact ⟨fun h => ⟨h,le_refl goal⟩,fun _ => .inr (le_refl goal)⟩

variable {last : Option κ} {keys : List κ} {chosen goal key : κ}

theorem InTurn.upTo (h : InTurn last keys chosen) (hgoal : goal ∈ keys) : UpTo last goal chosen := by
  cases last with
  | none => exact h.2 goal hgoal
  | some last =>
    rcases h.2 with ⟨hafter,hfirst⟩ | ⟨hend,hfirst⟩
    · exact ⟨fun hlt => ⟨hafter,hfirst goal hgoal hlt⟩,fun _ => .inl hafter⟩
    · exact ⟨fun hlt => absurd (hend goal hgoal) (not_le_of_gt hlt),fun _ => .inr (hfirst goal hgoal)⟩

theorem InTurn.upTo_next (h : InTurn last keys chosen) (hgoal : goal ∈ keys) (hne : chosen ≠ goal)
    (hkey : UpTo (some chosen) goal key) : UpTo last goal key ∧ key ≠ chosen := by
  have hchosen := h.upTo hgoal
  rcases lt_or_gt_of_ne hne with hlt | hgt
  · obtain ⟨hafter,hbefore⟩ := hkey.1 hlt
    refine ⟨?_,hafter.ne'⟩
    cases last with
    | none => exact hbefore
    | some last => exact ⟨fun hl => ⟨(hchosen.1 hl).1.trans hafter,hbefore⟩,fun _ => .inr hbefore⟩
  · have hround := hkey.2 hgt.le
    constructor
    · cases last with
      | none => exact absurd hchosen (not_le_of_gt hgt)
      | some last =>
        refine ⟨fun hl => absurd (hchosen.1 hl).2 (not_le_of_gt hgt),fun hl => ?_⟩
        rcases hround with hafter | hbefore
        · rcases hchosen.2 hl with hlast | hlast
          · exact .inl (hlast.trans hafter)
          · exact absurd hlast (not_le_of_gt hgt)
        · exact .inr hbefore
    · rcases hround with hafter | hbefore
      · exact hafter.ne'
      · exact (hbefore.trans_lt hgt).ne

/-- Turns one after another, each from the key chosen before. -/
def Turns : Option κ → List (List κ × κ) → Prop
  | _, [] => True
  | last, (keys,chosen) :: turns => InTurn last keys chosen ∧ Turns (some chosen) turns

open Classical in
/-- A key that is present at every turn is chosen, when there are as many turns as keys before it. -/
theorem Turns.reaches {turns : List (List κ × κ)} {among : Finset κ} (h : Turns last turns)
    (hgoal : ∀ turn ∈ turns, goal ∈ turn.1) (hamong : ∀ turn ∈ turns, ∀ key ∈ turn.1, key ∈ among)
    (hmem : goal ∈ among) (hmany : (among.filter (UpTo last goal)).card ≤ turns.length) :
    ∃ turn ∈ turns, turn.2 = goal := by
  induction turns generalizing last with
  | nil =>
    have hpos : 0 < (among.filter (UpTo last goal)).card :=
      Finset.card_pos.mpr ⟨goal,Finset.mem_filter.mpr ⟨hmem,upTo_goal last goal⟩⟩
    rw [List.length_nil] at hmany
    omega
  | cons turn turns ih =>
    obtain ⟨keys,chosen⟩ := turn
    obtain ⟨hturn,hrest⟩ := h
    have hpresent : goal ∈ keys := hgoal _ List.mem_cons_self
    by_cases hreached : chosen = goal
    · exact ⟨_,List.mem_cons_self,hreached⟩
    have hless : among.filter (UpTo (some chosen) goal) ⊆
        (among.filter (UpTo last goal)).erase chosen := by
      intro key hkey
      obtain ⟨hin,hup⟩ := Finset.mem_filter.mp hkey
      obtain ⟨hbefore,hne⟩ := hturn.upTo_next hpresent hreached hup
      exact Finset.mem_erase.mpr ⟨hne,Finset.mem_filter.mpr ⟨hin,hbefore⟩⟩
    have hchosen : chosen ∈ among.filter (UpTo last goal) := Finset.mem_filter.mpr
      ⟨hamong _ List.mem_cons_self chosen hturn.1,hturn.upTo hpresent⟩
    have hcard := Finset.card_le_card hless
    have hpos := Finset.card_pos.mpr ⟨chosen,hchosen⟩
    rw [Finset.card_erase_of_mem hchosen] at hcard
    have hfew : (among.filter (UpTo (some chosen) goal)).card ≤ turns.length := by
      rw [List.length_cons] at hmany
      omega
    obtain ⟨turn,hturn,hfound⟩ := ih hrest (fun t ht => hgoal t (List.mem_cons_of_mem _ ht))
      (fun t ht => hamong t (List.mem_cons_of_mem _ ht)) hfew
    exact ⟨turn,List.mem_cons_of_mem _ hturn,hfound⟩

end CoppiceWallet.Lib
