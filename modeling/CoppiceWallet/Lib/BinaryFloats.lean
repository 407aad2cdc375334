import Mathlib.Algebra.Order.Field.Power
import Mathlib.Algebra.Order.Monoid.WithTop
import Mathlib.Data.Int.Log
import Mathlib.Data.Rat.Floor
import Mathlib.Tactic.Linarith

/-!
# Binary floating point

A number is rounded to a multiple of a power of two that depends on its size, halves to even. It
stays on its side of a number of the format that it is not within half a unit of.
-/

namespace CoppiceWallet.Lib

def roundHalfEven (x : ℚ) : ℤ :=
  if x - ⌊x⌋ < 1 / 2 then ⌊x⌋
  else if 1 / 2 < x - ⌊x⌋ then ⌊x⌋ + 1
  else if ⌊x⌋ % 2 = 0 then ⌊x⌋ else ⌊x⌋ + 1

section

variable {x : ℚ} {n : ℤ}

theorem roundHalfEven_le (h : x ≤ n) : roundHalfEven x ≤ n := by
  have hfloor : ⌊x⌋ ≤ n := by
    have hcast := (Int.floor_le x).trans h
    exact_mod_cast hcast
  unfold roundHalfEven
  by_cases heq : ⌊x⌋ = n
  · rw [if_pos (by rw [heq]; linarith)]
    exact hfloor
  · split_ifs <;> omega

theorem le_roundHalfEven (h : n ≤ x) : n ≤ roundHalfEven x := by
  have hfloor := Int.le_floor.mpr h
  unfold roundHalfEven
  split_ifs <;> omega

theorem lt_roundHalfEven (h : n + 1 / 2 < x) : n < roundHalfEven x := by
  have hfloor : n ≤ ⌊x⌋ := Int.le_floor.mpr (by linarith)
  unfold roundHalfEven
  by_cases heq : ⌊x⌋ = n
  · have hhalf : 1 / 2 < x - ⌊x⌋ := by
      rw [heq]
      linarith
    rw [if_neg hhalf.not_gt,if_pos hhalf]
    omega
  · split_ifs <;> omega

end

structure BinaryFormat where
  fractionBits : ℕ
  minExponent : ℤ
  maxExponent : ℤ

namespace BinaryFormat

variable (F : BinaryFormat)

/-- The last digit of a number of this size. -/
def unitExponent (v : ℚ) : ℤ := max (Int.log 2 v - F.fractionBits) F.minExponent

def rounded (v : ℚ) : ℚ :=
  roundHalfEven (v / 2 ^ F.unitExponent v) * (2 : ℚ) ^ F.unitExponent v

/-- What is too large is infinite. -/
def nearest (v : ℚ) : WithTop ℚ := if 2 ^ F.maxExponent ≤ F.rounded v then ⊤ else F.rounded v

variable {F} {n v : ℚ} {k : ℤ}

theorem unitExponent_mono (hv : 0 < v) (h : v ≤ n) : F.unitExponent v ≤ F.unitExponent n := by
  have hlog : Int.log 2 v ≤ Int.log 2 n := Int.log_mono_right hv h
  unfold unitExponent
  omega

theorem rounded_le (hk : n = k * (2 : ℚ) ^ F.unitExponent n) (hv : 0 < v) (h : v ≤ n) :
    F.rounded v ≤ n := by
  have hunit := unitExponent_mono (F := F) hv h
  have hpow : (0 : ℚ) < 2 ^ F.unitExponent v := zpow_pos (by norm_num) _
  -- a number of the format is a multiple of every smaller unit
  have hmultiple : n = (k * 2 ^ (F.unitExponent n - F.unitExponent v).toNat : ℤ) *
      (2 : ℚ) ^ F.unitExponent v := by
    have hexponent : ((F.unitExponent n - F.unitExponent v).toNat : ℤ) + F.unitExponent v =
        F.unitExponent n := by omega
    push_cast
    rw [mul_assoc,← zpow_natCast,← zpow_add₀ (by norm_num),hexponent]
    exact hk
  have hround := roundHalfEven_le ((div_le_iff₀ hpow).mpr (h.trans hmultiple.le))
  unfold rounded
  rw [hmultiple]
  exact mul_le_mul_of_nonneg_right (by exact_mod_cast hround) hpow.le

theorem lt_rounded (hn : 0 < n) (hk : n = k * (2 : ℚ) ^ F.unitExponent n)
    (h : n + 2 ^ F.unitExponent n / 2 < v) : n < F.rounded v := by
  have hpow : ∀ e : ℤ, (0 : ℚ) < 2 ^ e := zpow_pos (by norm_num)
  have hlt : n < v := by linarith [hpow (F.unitExponent n)]
  have hunit := unitExponent_mono (F := F) hn hlt.le
  unfold rounded
  by_cases heq : F.unitExponent v = F.unitExponent n
  · rw [heq]
    have hround : k < roundHalfEven (v / 2 ^ F.unitExponent n) := by
      apply lt_roundHalfEven
      rw [lt_div_iff₀ (hpow _),add_mul,← hk]
      linarith
    have hcast : (k : ℚ) < roundHalfEven (v / 2 ^ F.unitExponent n) := by exact_mod_cast hround
    calc n = k * (2 : ℚ) ^ F.unitExponent n := hk
      _ < _ := mul_lt_mul_of_pos_right hcast (hpow _)
  · -- the first number of the size of v is a number of the format
    have hlog : F.unitExponent v = Int.log 2 v - F.fractionBits ∧ Int.log 2 n < Int.log 2 v := by
      unfold unitExponent at hunit heq ⊢
      omega
    have hfirst : (2 : ℚ) ^ Int.log 2 v = (2 ^ F.fractionBits : ℤ) * (2 : ℚ) ^ F.unitExponent v := by
      rw [hlog.1]
      push_cast
      rw [← zpow_natCast,← zpow_add₀ (by norm_num)]
      congr 1
      omega
    have hle : (2 : ℚ) ^ Int.log 2 v ≤ v := by
      have hself := Int.zpow_log_le_self (b := 2) (by decide) (hn.trans hlt)
      exact_mod_cast hself
    have hround := le_roundHalfEven ((le_div_iff₀ (hpow _)).mpr (hfirst.ge.trans hle))
    have hbelow : n < (2 : ℚ) ^ Int.log 2 v := by
      have hself := Int.lt_zpow_succ_log_self (b := 2) (by decide) n
      have hmono : (2 : ℚ) ^ (Int.log 2 n + 1) ≤ 2 ^ Int.log 2 v :=
        zpow_le_zpow_right₀ (by norm_num) (by omega)
      exact lt_of_lt_of_le (by exact_mod_cast hself) hmono
    calc n < (2 : ℚ) ^ Int.log 2 v := hbelow
      _ = _ := hfirst
      _ ≤ _ := mul_le_mul_of_nonneg_right (by exact_mod_cast hround) (hpow _).le

theorem lt_nearest_iff (hn : 0 < n) (hmax : n < 2 ^ F.maxExponent)
    (hk : n = k * (2 : ℚ) ^ F.unitExponent n) (hv : 0 < v)
    (hgap : v ≤ n ∨ n + 2 ^ F.unitExponent n / 2 < v) : (n : WithTop ℚ) < F.nearest v ↔ n < v := by
  unfold nearest
  rcases hgap with hle | hgap
  · have hrounded := rounded_le hk hv hle
    rw [if_neg (not_le.mpr (hrounded.trans_lt hmax)),WithTop.coe_lt_coe]
    exact iff_of_false hrounded.not_gt hle.not_gt
  · have hrounded := lt_rounded hn hk hgap
    have hpow : (0 : ℚ) < 2 ^ F.unitExponent n := zpow_pos (by norm_num) _
    have hlt : n < v := by linarith
    split
    · exact iff_of_true (WithTop.coe_lt_top n) hlt
    · exact iff_of_true (WithTop.coe_lt_coe.mpr hrounded) hlt

end BinaryFormat

/-- Numbers of 64 bits. -/
def binary64 : BinaryFormat := ⟨52,-1074,1024⟩

end CoppiceWallet.Lib
