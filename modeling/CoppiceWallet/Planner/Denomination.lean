import Mathlib.Algebra.BigOperators.Group.List.Basic
import Mathlib.Algebra.GroupWithZero.Nat
import Mathlib.Data.List.Lex
import Mathlib.Data.List.Sort

/-!
# Zatoshi amounts and ZIP 318 denominations

Amounts are natural numbers of zatoshi. `Zatoshis` carries the bound of the money supply, as the
Rust type does; `wrap` is the release-build result of an unchecked `u64` operation.
-/

namespace CoppiceWallet.Planner

def zatoshisPerZec : Nat := 100000000

def zip318MaxResidualValueZatoshi : Nat := zatoshisPerZec / 100

def zip318MaxMigrationDenominationZatoshi : Nat := 10000 * zatoshisPerZec

/-- The money supply bound of the `Zatoshis` type. -/
def maxMoney : Nat := 21000000 * zatoshisPerZec

def u64Limit : Nat := 2 ^ 64

/-- An unchecked `u64` result. -/
def wrap (n : Nat) : Nat := n % u64Limit

def wrapSub (a b : Nat) : Nat := (a + (u64Limit - b % u64Limit)) % u64Limit

def checkedAdd (a b : Nat) : Option Nat := if a + b < u64Limit then some (a + b) else none

def checkedMul (a b : Nat) : Option Nat := if a * b < u64Limit then some (a * b) else none

def checkedSub (a b : Nat) : Option Nat := if b ≤ a then some (a - b) else none

theorem checkedAdd_eq_some {a b c : Nat} (h : checkedAdd a b = some c) : c = a + b := by
  unfold checkedAdd at h
  split at h <;> simp_all

theorem checkedMul_eq_some {a b c : Nat} (h : checkedMul a b = some c) : c = a * b := by
  unfold checkedMul at h
  split at h <;> simp_all

theorem checkedSub_eq_some {a b c : Nat} (h : checkedSub a b = some c) : b ≤ a ∧ c = a - b := by
  unfold checkedSub at h
  split at h <;> simp_all

/-- An amount inside the money supply. -/
@[ext] structure Zatoshis where
  value : Nat
  le_maxMoney : value ≤ maxMoney
  deriving DecidableEq

def Zatoshis.fromU64 (value : Nat) : Option Zatoshis :=
  if h : value ≤ maxMoney then some ⟨value, h⟩ else none

theorem Zatoshis.fromU64_eq_some {v : Nat} {z : Zatoshis} (h : fromU64 v = some z) :
    z.value = v := by
  unfold fromU64 at h
  split at h
  · cases h
    rfl
  · cases h

@[simp] theorem Zatoshis.fromU64_value (z : Zatoshis) : fromU64 z.value = some z := by
  simp [fromU64, z.le_maxMoney]

/-- One pass over the multipliers of a magnitude: the last one that fits wins. -/
def bestOfMagnitude (value magnitude : Nat) (best : Option Nat) : Option Nat :=
  [1, 2, 5].foldl
    (fun best multiplier =>
      match checkedMul magnitude multiplier with
      | none => best
      | some denomination =>
        if denomination ≤ value ∧ denomination ≤ zip318MaxMigrationDenominationZatoshi then
          some denomination
        else best)
    best

/-- The magnitude loop. It multiplies by ten from 0.01 ZEC until 10,000 ZEC, so the fuel only
has to cover seven rounds. -/
def largestDenominationLoop (value : Nat) : Nat → Nat → Option Nat → Option Nat
  | 0, _, best => best
  | fuel + 1, magnitude, best =>
    let best := bestOfMagnitude value magnitude best
    if zip318MaxMigrationDenominationZatoshi ≤ magnitude then best
    else
      match checkedMul magnitude 10 with
      | none => none
      | some magnitude => largestDenominationLoop value fuel magnitude best

def largestZip318DenominationAtOrBelow (value : Nat) : Option Nat :=
  if value < zip318MaxResidualValueZatoshi then none
  else largestDenominationLoop value 7 zip318MaxResidualValueZatoshi none

def isZip318CanonicalDenomination (value : Nat) : Bool :=
  largestZip318DenominationAtOrBelow value == some value

theorem bestOfMagnitude_le (value magnitude d : Nat) (best : Option Nat)
    (hb : ∀ b, best = some b → b ≤ value)
    (h : bestOfMagnitude value magnitude best = some d) : d ≤ value := by
  have step (best : Option Nat) (m : Nat) (hb : ∀ b, best = some b → b ≤ value) :
      ∀ b, (match checkedMul magnitude m with
        | none => best
        | some denomination =>
          if denomination ≤ value ∧ denomination ≤ zip318MaxMigrationDenominationZatoshi then
            some denomination
          else best) = some b → b ≤ value := by
    intro b h
    split at h
    · exact hb b h
    · split at h
      · rename_i hd
        cases h
        exact hd.1
      · exact hb b h
  exact step _ 5 (step _ 2 (step _ 1 hb)) d h

theorem largestDenominationLoop_le (value d fuel magnitude : Nat) (best : Option Nat)
    (hb : ∀ b, best = some b → b ≤ value)
    (h : largestDenominationLoop value fuel magnitude best = some d) : d ≤ value := by
  induction fuel generalizing magnitude best with
  | zero => exact hb d h
  | succ fuel ih =>
    simp only [largestDenominationLoop] at h
    split at h
    · exact bestOfMagnitude_le value magnitude d best hb h
    · split at h
      · cases h
      · exact ih _ _ (fun b hb' => bestOfMagnitude_le value magnitude b best hb hb') h

theorem largestZip318DenominationAtOrBelow_le {value d : Nat}
    (h : largestZip318DenominationAtOrBelow value = some d) : d ≤ value := by
  unfold largestZip318DenominationAtOrBelow at h
  split at h
  · cases h
  · exact largestDenominationLoop_le value d 7 _ none (by simp) h

example : largestZip318DenominationAtOrBelow 1185000 = some 1000000 := by decide

end CoppiceWallet.Planner
