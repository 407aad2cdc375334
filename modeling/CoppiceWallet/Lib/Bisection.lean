import CoppiceWallet.Lib.Result

/-!
# The last accepted count, by halving

What the search returns was accepted and the count after it was refused: nothing is assumed about
the order of the answers.
-/

namespace CoppiceWallet.Lib

variable {ε α : Type} (probe : Nat → Except ε α) (accept : α → Bool)

/-- The counts from `low` to `high` are open; `best` is the last one that was accepted. -/
def bisect (low high : Nat) (hlow : 0 < low) (best : Option (Nat × α)) :
    Except ε (Option (Nat × α)) :=
  if low ≤ high then do
    let candidate := low + (high - low) / 2
    let size ← probe candidate
    if accept size then bisect (candidate + 1) high (Nat.succ_pos _) (some (candidate,size))
    else bisect low (candidate - 1) hlow best
  else .ok best
termination_by high + 1 - low
decreasing_by all_goals omega

def Accepted (count : Nat) (a : α) : Prop := probe count = .ok a ∧ accept a = true

def Refused (count : Nat) : Prop := ∃ a, probe count = .ok a ∧ accept a = false

/-- What has been found when the counts from `low` to `high` are open: the one below was accepted,
the one above was refused. -/
structure Bracketed (limit low high : Nat) (best : Option (Nat × α)) : Prop where
  below : low ≤ high + 1
  bounded : high ≤ limit
  found : ∀ count a, best = some (count,a) → count + 1 = low ∧ 0 < count ∧ Accepted probe accept count a
  unfound : best = none → low = 1
  above : high = limit ∨ Refused probe accept (high + 1)

variable {probe accept}

theorem Bracketed.start (limit : Nat) : Bracketed probe accept limit 1 limit none where
  below := by omega
  bounded := Nat.le_refl _
  found := by
    intro count a h
    cases h
  unfound := fun _ => rfl
  above := .inl rfl

theorem bisect_bracketed {limit low high : Nat} {hlow : 0 < low} {best result : Option (Nat × α)}
    (hinv : Bracketed probe accept limit low high best)
    (h : bisect probe accept low high hlow best = .ok result) :
    ∃ last, Bracketed probe accept limit (last + 1) last result := by
  induction low, high, hlow, best using bisect.induct with
  | case1 low high hlow best hopen candidate ihup ihdown =>
    rw [bisect,if_pos hopen] at h
    obtain ⟨size,hsize,h⟩ := bind_ok h
    have hlower : low ≤ candidate := Nat.le_add_right _ _
    have hupper : candidate ≤ high := by
      simp only [candidate]
      omega
    cases haccept : accept size with
    | true =>
      rw [if_pos haccept] at h
      apply ihup size ?_ h
      exact {
        below := by omega
        bounded := hinv.bounded
        found := by
          intro count a hbest
          cases hbest
          exact ⟨rfl,by omega,hsize,haccept⟩
        unfound := by
          intro hbest
          cases hbest
        above := hinv.above }
    | false =>
      rw [if_neg (by simp [haccept])] at h
      apply ihdown ?_ h
      have hrefused : probe (candidate - 1 + 1) = .ok size := by
        rw [Nat.sub_add_cancel (by omega)]
        exact hsize
      exact {
        below := by omega
        bounded := by
          have := hinv.bounded
          omega
        found := hinv.found
        unfound := hinv.unfound
        above := .inr ⟨size,hrefused,haccept⟩ }
  | case2 low high hlow best hclosed =>
    rw [bisect,if_neg hclosed] at h
    cases h
    have hend : low = high + 1 := by
      have := hinv.below
      omega
    subst hend
    exact ⟨high,hinv⟩

theorem bisect_error {low high : Nat} {hlow : 0 < low} {best : Option (Nat × α)} {e : ε}
    (h : bisect probe accept low high hlow best = .error e) : ∃ count, probe count = .error e := by
  induction low, high, hlow, best using bisect.induct with
  | case1 low high hlow best hopen candidate ihup ihdown =>
    rw [bisect,if_pos hopen] at h
    rcases bind_error h with hprobe | ⟨size,_,h⟩
    · exact ⟨_,hprobe⟩
    · cases haccept : accept size with
      | true =>
        rw [if_pos haccept] at h
        exact ihup size h
      | false =>
        rw [if_neg (by simp [haccept])] at h
        exact ihdown h
  | case2 low high hlow best hclosed =>
    rw [bisect,if_neg hclosed] at h
    cases h

theorem bisect_some {limit count : Nat} {a : α}
    (h : bisect probe accept 1 limit Nat.one_pos none = .ok (some (count,a))) :
    0 < count ∧ count ≤ limit ∧ Accepted probe accept count a ∧
      (count = limit ∨ Refused probe accept (count + 1)) := by
  obtain ⟨last,hinv⟩ := bisect_bracketed (.start limit) h
  obtain ⟨hlast,hpos,haccepted⟩ := hinv.found count a rfl
  have hcount : count = last := by omega
  subst hcount
  exact ⟨hpos,hinv.bounded,haccepted,hinv.above⟩

theorem bisect_none {limit : Nat} (hlimit : 0 < limit)
    (h : bisect probe accept 1 limit Nat.one_pos none = .ok none) : Refused probe accept 1 := by
  obtain ⟨last,hinv⟩ := bisect_bracketed (.start limit) h
  have hlast : last = 0 := by
    have := hinv.unfound rfl
    omega
  subst hlast
  rcases hinv.above with habove | habove
  · omega
  · exact habove

end CoppiceWallet.Lib
