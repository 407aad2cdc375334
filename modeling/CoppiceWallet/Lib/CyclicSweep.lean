import Mathlib.Data.List.Nodup
import Mathlib.Tactic.Linarith

/-!
# Sweeping round a list that grows at its front

An offset walks round a list, a window of entries at a time; it only moves when the window is done
with. Entries are added at the front, which moves the others away from the offset.
-/

namespace CoppiceWallet.Lib

def cyclicWindow {α : Type*} (entries : List α) (take offset : Nat) : List α :=
  (List.range take).filterMap fun i => entries[(offset + i) % entries.length]?

/-- How many entries after the offset a position is, going round. -/
def ahead (count offset position : Nat) : Nat :=
  if offset ≤ position then position - offset else count - offset + position

theorem mod_of_lt_two {count a : Nat} (h : a < 2 * count) :
    a % count = if a < count then a else a - count := by
  by_cases hlt : a < count
  · simp [hlt,Nat.mod_eq_of_lt hlt]
  · rw [Nat.mod_eq_sub_mod (by omega),Nat.mod_eq_of_lt (by omega),if_neg hlt]

section Window

variable {count offset position take : Nat}

theorem ahead_lt (offset : Nat) (hposition : position < count) : ahead count offset position < count := by
  simp only [ahead]
  split <;> omega

theorem ahead_spec (hoffset : offset < count) (hposition : position < count) :
    (offset + ahead count offset position) % count = position := by
  have hlt := ahead_lt offset hposition
  rw [mod_of_lt_two (by omega)]
  simp only [ahead] at *
  split <;> split <;> omega

theorem ahead_next (hoffset : offset < count) (hposition : position < count) (htake : take ≤ count)
    (h : take ≤ ahead count offset position) :
    ahead count ((offset + take) % count) position + take = ahead count offset position := by
  have hlt := ahead_lt offset hposition
  rw [mod_of_lt_two (by omega)]
  by_cases hbehind : offset ≤ position
  · simp only [ahead,hbehind,if_true] at h ⊢
    have hwrap : offset + take < count := by omega
    have hnext : offset + take ≤ position := by omega
    simp only [hwrap,hnext,if_true]
    omega
  · simp only [ahead,hbehind,if_false] at h ⊢
    by_cases hwrap : offset + take < count
    · have hnext : ¬ offset + take ≤ position := by omega
      simp only [hwrap,hnext,if_true,if_false]
      omega
    · have hnext : offset + take - count ≤ position := by omega
      simp only [hwrap,hnext,if_true,if_false]
      omega

theorem mem_cyclicWindow {α : Type*} {entries : List α} {entry : α}
    (hoffset : offset < entries.length) (hentry : entries[position]? = some entry)
    (h : ahead entries.length offset position < take) :
    entry ∈ cyclicWindow entries take offset := by
  have hposition : position < entries.length := (List.getElem?_eq_some_iff.mp hentry).1
  refine List.mem_filterMap.mpr ⟨ahead entries.length offset position,List.mem_range.mpr h,?_⟩
  rw [ahead_spec hoffset hposition,hentry]

theorem map_cyclicWindow {α β : Type*} (f : α → β) (entries : List α) :
    (cyclicWindow entries take offset).map f = cyclicWindow (entries.map f) take offset := by
  simp [cyclicWindow,List.map_filterMap]

theorem cyclicWindow_subset {α : Type*} (entries : List α) :
    cyclicWindow entries take offset ⊆ entries := by
  intro entry hentry
  obtain ⟨i,_,hi⟩ := List.mem_filterMap.mp hentry
  exact List.mem_of_getElem? hi

end Window

/-- One visit to the list: how many entries it has by then, and whether the window was done with. -/
structure Pass where
  count : Nat
  completed : Bool
deriving DecidableEq, Repr

namespace Pass

/-- The offset that the next visit finds. -/
def next (size : Nat) (pass : Pass) (offset : Nat) : Nat :=
  if pass.completed then (offset % pass.count + min size pass.count) % pass.count else offset

/-- The window that was done with did not contain the entry that `tail` entries end with. -/
def Misses (size tail : Nat) (pass : Pass) (offset : Nat) : Prop :=
  pass.completed = true →
    min size pass.count ≤ ahead pass.count (offset % pass.count) (pass.count - tail)

end Pass

def Missed (size tail : Nat) : Nat → List Pass → Prop
  | _,[] => True
  | offset,pass :: passes =>
    pass.Misses size tail offset ∧ Missed size tail (pass.next size offset) passes

def completions (passes : List Pass) : Nat := passes.countP Pass.completed

/-- How often the list was not as long as at the visit before. -/
def growths : Nat → List Pass → Nat
  | _,[] => 0
  | count,pass :: passes => (if pass.count = count then 0 else 1) + growths pass.count passes

/-- No visit finds fewer entries than the one before. -/
def Growing : Nat → List Pass → Prop
  | _,[] => True
  | count,pass :: passes => count ≤ pass.count ∧ Growing pass.count passes

section Bound

variable {size tail limit : Nat}

theorem growths_eq_zero {count : Nat} {passes : List Pass}
    (h : ∀ pass ∈ passes, pass.count = count) : growths count passes = 0 := by
  induction passes with
  | nil => rfl
  | cons pass passes ih =>
    have hcount := h pass (by simp)
    simp only [growths,hcount,if_true,Nat.zero_add]
    exact ih fun p hp => h p (List.mem_cons_of_mem _ hp)

theorem growths_add_le {passes : List Pass} : ∀ {count : Nat}, count ≤ limit →
    Growing count passes → (∀ pass ∈ passes, pass.count ≤ limit) →
    growths count passes + count ≤ limit := by
  induction passes with
  | nil =>
    intro count hcount _ _
    simpa [growths] using hcount
  | cons pass passes ih =>
    intro count _ hgrowing hlimit
    have hrest := ih (hlimit pass (by simp)) hgrowing.2
      fun p hp => hlimit p (List.mem_cons_of_mem _ hp)
    have hle := hgrowing.1
    simp only [growths]
    split <;> omega

theorem completions_cons (pass : Pass) (passes : List Pass) :
    completions (pass :: passes) = completions passes + if pass.completed then 1 else 0 := by
  simp [completions,List.countP_cons]

theorem ahead_pass {pass : Pass} {offset : Nat} (htail : 0 < tail) (hcount : tail ≤ pass.count)
    (hmiss : pass.Misses size tail offset) :
    ahead pass.count (pass.next size offset % pass.count) (pass.count - tail) +
        (if pass.completed then size else 0) ≤
      ahead pass.count (offset % pass.count) (pass.count - tail) := by
  have hoffset : offset % pass.count < pass.count := Nat.mod_lt _ (by omega)
  have hposition : pass.count - tail < pass.count := by omega
  by_cases hcompleted : pass.completed = true
  · have hle := hmiss hcompleted
    have hlt := ahead_lt (offset % pass.count) hposition
    have hnext := ahead_next hoffset hposition (Nat.min_le_right size pass.count) hle
    have hmod := Nat.mod_mod (offset % pass.count + min size pass.count) pass.count
    simp only [Pass.next,hcompleted,if_true,hmod]
    omega
  · simp [Pass.next,hcompleted]

theorem missed_ahead : ∀ {passes : List Pass} {offset count : Nat}, 0 < tail → tail ≤ count →
    (∀ pass ∈ passes, tail ≤ pass.count ∧ pass.count ≤ limit) → Missed size tail offset passes →
    completions passes * size + growths count passes ≤
      ahead count (offset % count) (count - tail) + growths count passes * limit := by
  intro passes
  induction passes with
  | nil =>
    intro offset count _ _ _ _
    simp [completions,growths]
  | cons pass passes ih =>
    intro offset count htail hcount hpasses hmissed
    have hpass := hpasses pass (by simp)
    have hrest := ih htail hpass.1 (fun p hp => hpasses p (List.mem_cons_of_mem _ hp)) hmissed.2
    have hstep := ahead_pass htail hpass.1 hmissed.1
    have hsize : completions (pass :: passes) * size =
        completions passes * size + if pass.completed then size else 0 := by
      rw [completions_cons,Nat.add_mul]
      split <;> simp
    by_cases hsame : pass.count = count
    · simp only [growths,hsame,if_true,Nat.zero_add,hsize]
      rw [hsame] at hrest hstep
      omega
    · -- the entry may now be anywhere, but before the end of the list
      have hlt := ahead_lt (offset % pass.count)
        (show pass.count - tail < pass.count by omega)
      simp only [growths,hsame,if_false,hsize,Nat.add_mul,Nat.one_mul]
      omega

/-- Windows of `size` entries go round a list in one turn, and in another for each time it grew. -/
theorem missed_lt {passes : List Pass} {offset count : Nat} (htail : 0 < tail)
    (hcount : tail ≤ count) (hlimit : count ≤ limit)
    (hpasses : ∀ pass ∈ passes, tail ≤ pass.count ∧ pass.count ≤ limit)
    (hmissed : Missed size tail offset passes) :
    completions passes * size < (growths count passes + 1) * limit := by
  have hbound := missed_ahead htail hcount hpasses hmissed
  have hlt := ahead_lt (offset % count) (show count - tail < count by omega)
  rw [Nat.add_mul]
  omega

end Bound

/-- An offset behind the position has to reach it, one ahead of it has to reach the end first. -/
def lag (size count offset position : Nat) : Nat :=
  if offset ≤ position then position - offset else (count - offset) * size + position

/-- At no visit are there `size` entries more than when a window was last done with. -/
def SlowGrowth (size : Nat) : Nat → List Pass → Prop
  | _,[] => True
  | base,pass :: passes =>
    pass.count < base + size ∧ SlowGrowth size (if pass.completed then pass.count else base) passes

section Slow

variable {size tail count offset position : Nat}

theorem lag_lt_mul (size : Nat) (hoffset : offset < count) (hposition : position < count) :
    lag size count offset position < count * (size + 1) := by
  have hmul : (count - offset) * size ≤ count * size := Nat.mul_le_mul_right size (by omega)
  simp only [lag,Nat.mul_add,Nat.mul_one]
  split <;> omega

theorem lag_next (grown : Nat) (hoffset : offset < count) (hposition : position < count)
    (hgrown : grown < size) (h : min size count ≤ ahead count offset position) :
    lag size (count + grown) ((offset + min size count) % count) (position + grown) <
      lag size count offset position := by
  have hlt := ahead_lt offset hposition
  have htake : min size count = size := by omega
  rw [htake] at h ⊢
  rw [mod_of_lt_two (by omega)]
  by_cases hbehind : offset ≤ position
  · simp only [ahead,hbehind,if_true] at h
    have hwrap : offset + size < count := by omega
    have hnext : offset + size ≤ position + grown := by omega
    simp only [lag,hbehind,hwrap,hnext,if_true]
    omega
  · simp only [ahead,hbehind,if_false] at h
    by_cases hwrap : offset + size < count
    · have hnext : ¬ offset + size ≤ position + grown := by omega
      have hmul : (count + grown - (offset + size)) * size + size ≤ (count - offset) * size := by
        rw [← Nat.succ_mul]
        exact Nat.mul_le_mul_right size (by omega)
      simp only [lag,hbehind,hwrap,hnext,if_true,if_false]
      omega
    · have hnext : offset + size - count ≤ position + grown := by omega
      have hmul : 1 * size ≤ (count - offset) * size := Nat.mul_le_mul_right size (by omega)
      simp only [lag,hbehind,hwrap,hnext,if_true,if_false]
      omega

/-- However the list grows until the next window is done with, the entry is less than `bound` away. -/
def LagBound (size tail base count offset bound : Nat) : Prop :=
  ∀ entries, count ≤ entries → entries < base + size →
    lag size entries (offset % entries) (entries - tail) < bound

theorem LagBound.next {pass : Pass} {base bound : Nat} (htail : 0 < tail)
    (hcount : tail ≤ pass.count) (hpass : pass.count < base + size)
    (hmiss : pass.Misses size tail offset) (hcompleted : pass.completed = true)
    (h : LagBound size tail base pass.count offset bound) :
    LagBound size tail pass.count pass.count (pass.next size offset) (bound - 1) := by
  intro entries hentries hlt
  have hoffset : offset % pass.count < pass.count := Nat.mod_lt _ (by omega)
  have hlag := lag_next (entries - pass.count) hoffset
    (show pass.count - tail < pass.count by omega) (by omega) (hmiss hcompleted)
  have hbound := h pass.count (Nat.le_refl _) hpass
  have hnext : pass.next size offset < pass.count := by
    simp only [Pass.next,hcompleted,if_true]
    exact Nat.mod_lt _ (by omega)
  have hmod : pass.next size offset % entries = pass.next size offset :=
    Nat.mod_eq_of_lt (by omega)
  have hgrown : pass.count + (entries - pass.count) = entries := by omega
  have hposition : pass.count - tail + (entries - pass.count) = entries - tail := by omega
  rw [hgrown,hposition] at hlag
  rw [hmod]
  simp only [Pass.next,hcompleted,if_true]
  omega

theorem missed_lagBound (hsize : 0 < size) (htail : 0 < tail) :
    ∀ {passes : List Pass} {offset base count bound : Nat}, tail ≤ count → count < base + size →
    LagBound size tail base count offset bound → Growing count passes →
    SlowGrowth size base passes → Missed size tail offset passes →
    completions passes < bound := by
  intro passes
  induction passes with
  | nil =>
    intro offset base count bound _ hlt hbound _ _ _
    have hpos := hbound count (Nat.le_refl _) hlt
    simp only [completions,List.countP_nil]
    omega
  | cons pass passes ih =>
    intro offset base count bound hcount _ hbound hgrowing hgrowth hmissed
    have hpasscount := hcount.trans hgrowing.1
    have hpass : LagBound size tail base pass.count offset bound := fun entries hle hlt =>
      hbound entries (hgrowing.1.trans hle) hlt
    rw [completions_cons]
    by_cases hcompleted : pass.completed = true
    · have hrest := hpass.next htail hpasscount hgrowth.1 hmissed.1 hcompleted
      have hlt := ih hpasscount (by omega) hrest hgrowing.2 (by simpa [hcompleted] using hgrowth.2)
        hmissed.2
      simp only [hcompleted,if_true]
      omega
    · have hlt := ih hpasscount hgrowth.1 (by simpa [Pass.next,hcompleted] using hpass) hgrowing.2
        (by simpa [hcompleted] using hgrowth.2) hmissed.2
      simpa [hcompleted] using hlt

theorem missed_lt_of_slowGrowth {passes : List Pass} {offset count : Nat} (hsize : 0 < size)
    (htail : 0 < tail) (hcount : tail ≤ count) (hgrowing : Growing count passes)
    (hgrowth : SlowGrowth size count passes) (hmissed : Missed size tail offset passes) :
    completions passes < (count + size) * (size + 1) := by
  refine missed_lagBound hsize htail hcount (by omega) ?_ hgrowing hgrowth hmissed
  intro entries hle hlt
  have hlag := lag_lt_mul size (Nat.mod_lt offset (show 0 < entries by omega))
    (show entries - tail < entries by omega)
  exact hlag.trans_le (Nat.mul_le_mul_right (size + 1) (by omega))

end Slow

end CoppiceWallet.Lib
