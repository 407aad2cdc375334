import Mathlib.Algebra.Order.Field.Rat
import Mathlib.Algebra.Order.GroupWithZero.Basic
import Mathlib.Data.List.DropRight
import Mathlib.Tactic.Ring

/-!
# Decimal numerals

A numeral has a sign, digits before and after a point, and an exponent. Its text determines it, and
it has a value when it has a digit and its exponent is an integer.
-/

namespace CoppiceWallet.Lib

-- Decided along the list, and never over all characters.
instance decidableForallMem {p : Char → Prop} [DecidablePred p] (cs : List Char) :
    Decidable (∀ c ∈ cs, p c) := List.decidableBAll p cs

theorem eq_and_eq_of_append_eq {α : Type} {P : α → Bool} {xs ys us vs : List α}
    (hxs : ∀ x ∈ xs, P x = true) (hys : ∀ y ∈ ys, P y = true)
    (hus : ∀ u ∈ us.head?, P u = false) (hvs : ∀ v ∈ vs.head?, P v = false)
    (h : xs ++ us = ys ++ vs) : xs = ys ∧ us = vs := by
  have htake : ∀ {ws : List α}, (∀ w ∈ ws.head?, P w = false) → ws.takeWhile P = [] := by
    intro ws hws
    cases ws with
    | nil => rfl
    | cons w ws => simp [hws w rfl]
  have hfirst : xs = ys := by
    have heq := congrArg (List.takeWhile P) h
    rwa [List.takeWhile_append_of_pos hxs,List.takeWhile_append_of_pos hys,htake hus,htake hvs,
      List.append_nil,List.append_nil] at heq
  subst hfirst
  exact ⟨rfl,List.append_cancel_left h⟩

theorem exists_zeros (cs : List Char) :
    ∃ k, cs = cs.rdropWhile (fun c => decide (c = '0')) ++ List.replicate k '0' := by
  refine ⟨(cs.rtakeWhile fun c => decide (c = '0')).length,?_⟩
  have hzeros : cs.rtakeWhile (fun c => decide (c = '0')) =
      List.replicate (cs.rtakeWhile fun c => decide (c = '0')).length '0' := by
    apply List.eq_replicate_iff.mpr
    exact ⟨rfl,fun c hc => by simpa using List.mem_rtakeWhile_imp hc⟩
  rw [← hzeros,List.rdropWhile_append_rtakeWhile]

/-- What digits are worth. -/
def digitsValue (cs : List Char) : Nat := Nat.ofDigitChars 10 cs 0

theorem digitsValue_append (cs ds : List Char) :
    digitsValue (cs ++ ds) = 10 ^ ds.length * digitsValue cs + digitsValue ds := by
  rw [digitsValue,Nat.ofDigitChars_append,Nat.ofDigitChars_eq_ofDigitChars_zero]
  rfl

theorem digitsValue_zeros (cs : List Char) (k : Nat) :
    digitsValue (cs ++ List.replicate k '0') = digitsValue cs * 10 ^ k := by
  rw [digitsValue_append,List.length_replicate,digitsValue,digitsValue,
    Nat.ofDigitChars_replicate_zero,Nat.mul_zero,Nat.add_zero,Nat.mul_comm]

theorem digitsValue_cons_zero (cs : List Char) : digitsValue ('0' :: cs) = digitsValue cs := by
  simp [digitsValue,Nat.ofDigitChars_cons]

theorem digitsValue_zeros_append (k : Nat) (cs : List Char) :
    digitsValue (List.replicate k '0' ++ cs) = digitsValue cs := by
  induction k with
  | zero => rfl
  | succ k ih => rw [List.replicate_succ,List.cons_append,digitsValue_cons_zero,ih]

theorem digitsValue_toDigits (n : Nat) : digitsValue (Nat.toDigits 10 n) = n :=
  Nat.ofDigitChars_ten_toDigits

theorem digitChar_of_isDigit {c : Char} (h : c.isDigit = true) :
    c.toNat - 48 < 10 ∧ Nat.digitChar (c.toNat - 48) = c := by
  have hrange : 48 ≤ c.toNat ∧ c.toNat ≤ 57 := by
    simp only [Char.isDigit,Bool.and_eq_true,decide_eq_true_eq,ge_iff_le,
      UInt32.le_iff_toNat_le] at h
    exact h
  have hlt : c.toNat - 48 < 10 := by omega
  refine ⟨hlt,Char.toNat_inj.mp ?_⟩
  rw [Nat.toNat_digitChar_of_lt_ten hlt]
  omega

theorem digitsValue_singleton (c : Char) : digitsValue [c] = c.toNat - 48 := by
  simp [digitsValue,Nat.ofDigitChars_cons]

theorem digit_pos {c : Char} (h : c.isDigit = true) (hne : c ≠ '0') : 0 < c.toNat - 48 := by
  apply Nat.pos_of_ne_zero
  intro hzero
  apply hne
  rw [← (digitChar_of_isDigit h).2,hzero]
  rfl

theorem digitsValue_concat (cs : List Char) (c : Char) :
    digitsValue (cs ++ [c]) = 10 * digitsValue cs + (c.toNat - 48) := by
  rw [digitsValue_append,digitsValue_singleton]
  rfl

theorem toDigits_digitsValue {cs : List Char} (hcs : ∀ c ∈ cs, c.isDigit = true) (hne : cs ≠ [])
    (hhead : cs.head? ≠ some '0') : 0 < digitsValue cs ∧ Nat.toDigits 10 (digitsValue cs) = cs := by
  induction cs using List.reverseRecOn with
  | nil => exact absurd rfl hne
  | append_singleton cs c ih =>
    have hdigit : c.isDigit = true := hcs c (by simp)
    obtain ⟨hlt,hchar⟩ := digitChar_of_isDigit hdigit
    by_cases hnil : cs = []
    · subst hnil
      have hpos : 0 < c.toNat - 48 := digit_pos hdigit fun hzero => hhead (by simp [hzero])
      rw [List.nil_append,digitsValue_singleton,Nat.toDigits_of_lt_base hlt,hchar]
      exact ⟨hpos,rfl⟩
    · obtain ⟨hpos,hdigits⟩ := ih (fun d hd => hcs d (by simp [hd])) hnil (by
        rwa [List.head?_append_of_ne_nil _ hnil] at hhead)
      rw [digitsValue_concat,← Nat.toDigits_append_toDigits (by decide) hpos hlt,hdigits,
        Nat.toDigits_of_lt_base hlt,hchar]
      exact ⟨by omega,rfl⟩

theorem digitsValue_pos {cs : List Char} (hcs : ∀ c ∈ cs, c.isDigit = true) (hne : cs ≠ [])
    (hlast : cs.getLast? ≠ some '0') : 0 < digitsValue cs := by
  cases cs using List.reverseRecOn with
  | nil => exact absurd rfl hne
  | append_singleton cs c =>
    have hc := digit_pos (hcs c (by simp)) fun hzero => hlast (by simp [hzero])
    rw [digitsValue_concat]
    omega

inductive Sign
  | unsigned
  | plus
  | minus
  deriving DecidableEq

def Sign.text : Sign → List Char
  | .unsigned => []
  | .plus => ['+']
  | .minus => ['-']

def Sign.factor : Sign → Int
  | .minus => -1
  | _ => 1

theorem factor_eq_one {sign : Sign} (h : sign ≠ .minus) : sign.factor = 1 := by
  cases sign with
  | minus => exact absurd rfl h
  | _ => rfl

def splitSign : List Char → Sign × List Char
  | '+' :: cs => (.plus,cs)
  | '-' :: cs => (.minus,cs)
  | cs => (.unsigned,cs)

/-- The integer that an optional sign with digits stands for. -/
def signedInteger (cs : List Char) : Option Int :=
  if (splitSign cs).2 ≠ [] ∧ ∀ c ∈ (splitSign cs).2, c.isDigit = true then
    some ((splitSign cs).1.factor * digitsValue (splitSign cs).2)
  else none

theorem splitSign_unsigned {cs : List Char} (h : ∀ c ∈ cs.head?, c ≠ '+' ∧ c ≠ '-') :
    splitSign cs = (.unsigned,cs) := by
  cases cs with
  | nil => rfl
  | cons c cs =>
    have hc := h c rfl
    unfold splitSign
    split
    · rename_i heq
      exact absurd (List.cons.inj heq).1 hc.1
    · rename_i heq
      exact absurd (List.cons.inj heq).1 hc.2
    · rfl

theorem splitSign_text (sign : Sign) {cs : List Char} (h : ∀ c ∈ cs.head?, c ≠ '+' ∧ c ≠ '-') :
    splitSign (sign.text ++ cs) = (sign,cs) := by
  cases sign with
  | unsigned => exact splitSign_unsigned h
  | plus => rfl
  | minus => rfl

theorem text_splitSign (cs : List Char) : (splitSign cs).1.text ++ (splitSign cs).2 = cs := by
  unfold splitSign
  split <;> rfl

theorem signedInteger_some {cs : List Char} {e : Int} (h : signedInteger cs = some e) :
    (splitSign cs).2 ≠ [] ∧ (∀ c ∈ (splitSign cs).2, c.isDigit = true) ∧
      e = (splitSign cs).1.factor * digitsValue (splitSign cs).2 := by
  unfold signedInteger at h
  split at h
  · rename_i hdigits
    exact ⟨hdigits.1,hdigits.2,(Option.some.inj h).symm⟩
  · cases h

theorem splitSign_append {cs : List Char} (h : cs ≠ []) (ds : List Char) :
    splitSign (cs ++ ds) = ((splitSign cs).1,(splitSign cs).2 ++ ds) := by
  cases cs with
  | nil => exact absurd rfl h
  | cons c cs =>
    by_cases hplus : c = '+'
    · rw [hplus]
      rfl
    · by_cases hminus : c = '-'
      · rw [hminus]
        rfl
      · have hhead : ∀ d ∈ (c :: cs).head?, d ≠ '+' ∧ d ≠ '-' := by simp [hplus,hminus]
        have hhead' : ∀ d ∈ (c :: cs ++ ds).head?, d ≠ '+' ∧ d ≠ '-' := by simp [hplus,hminus]
        rw [splitSign_unsigned hhead,splitSign_unsigned hhead']

theorem signedInteger_zeros {cs : List Char} {e : Int} (h : signedInteger cs = some e) (k : Nat) :
    signedInteger (cs ++ List.replicate k '0') = some (e * 10 ^ k) := by
  obtain ⟨hne,hdigits,hvalue⟩ := signedInteger_some h
  have hcs : cs ≠ [] := by
    rintro rfl
    exact hne rfl
  have hall : ∀ c ∈ (splitSign cs).2 ++ List.replicate k '0', c.isDigit = true := by
    intro c hc
    rcases List.mem_append.mp hc with hc | hc
    · exact hdigits c hc
    · rw [(List.mem_replicate.mp hc).2]
      decide
  rw [signedInteger,splitSign_append hcs,if_pos ⟨by simp [hne],hall⟩,digitsValue_zeros,hvalue]
  push_cast
  rw [Int.mul_assoc]

theorem signedInteger_ne_zero {cs : List Char} {e : Int} (h : signedInteger cs = some e)
    (hlast : cs.getLast? ≠ some '0') : e ≠ 0 := by
  obtain ⟨hne,hdigits,hvalue⟩ := signedInteger_some h
  have hlast' : (splitSign cs).2.getLast? ≠ some '0' := by
    rw [← text_splitSign cs,List.getLast?_append_of_ne_nil _ hne] at hlast
    exact hlast
  have hpos := digitsValue_pos hdigits hne hlast'
  rw [hvalue]
  cases (splitSign cs).1 <;> simp only [Sign.factor] <;> omega

structure Exponent where
  marker : Char
  text : List Char
  isMarker : marker = 'e' ∨ marker = 'E'

structure Numeral where
  sign : Sign
  whole : List Char
  fraction : Option (List Char)
  exponent : Option Exponent
  wholeDigits : ∀ c ∈ whole, c.isDigit = true
  fractionDigits : ∀ cs ∈ fraction, ∀ c ∈ cs, c.isDigit = true

namespace Numeral

def fractionText (p : Numeral) : List Char :=
  match p.fraction with
  | none => []
  | some cs => '.' :: cs

def exponentText (p : Numeral) : List Char :=
  match p.exponent with
  | none => []
  | some exponent => exponent.marker :: exponent.text

def text (p : Numeral) : List Char :=
  p.sign.text ++ (p.whole ++ (p.fractionText ++ p.exponentText))

def digits (p : Numeral) : List Char := p.whole ++ p.fraction.getD []

def mantissa (p : Numeral) : Nat := digitsValue p.digits

/-- How many digits stand after the point. -/
def places (p : Numeral) : Nat := (p.fraction.getD []).length

def exponentValue (p : Numeral) : Option Int :=
  match p.exponent with
  | none => some 0
  | some exponent => signedInteger exponent.text

def value (p : Numeral) : Option ℚ :=
  if p.digits = [] then none
  else p.exponentValue.map fun e => p.sign.factor * p.mantissa * (10 : ℚ) ^ (e - p.places : ℤ)

/-! ### The text of a numeral -/

theorem fractionText_none {p : Numeral} (h : p.fraction = none) : p.fractionText = [] := by
  rw [fractionText,h]

theorem fractionText_some {p : Numeral} {cs : List Char} (h : p.fraction = some cs) :
    p.fractionText = '.' :: cs := by
  rw [fractionText,h]

theorem exponentText_none {p : Numeral} (h : p.exponent = none) : p.exponentText = [] := by
  rw [exponentText,h]

theorem exponentText_some {p : Numeral} {exponent : Exponent} (h : p.exponent = some exponent) :
    p.exponentText = exponent.marker :: exponent.text := by
  rw [exponentText,h]

theorem isDigit_ne {c : Char} (h : c.isDigit = true) :
    c ≠ '+' ∧ c ≠ '-' ∧ c ≠ '.' ∧ c ≠ 'e' ∧ c ≠ 'E' := by
  refine ⟨?_,?_,?_,?_,?_⟩ <;> · rintro rfl; exact absurd h (by decide)

theorem exponentText_head {p : Numeral} : ∀ c ∈ p.exponentText.head?, c = 'e' ∨ c = 'E' := by
  intro c hc
  unfold exponentText at hc
  split at hc
  · cases hc
  · rename_i exponent _
    cases hc
    exact exponent.isMarker

theorem fractionText_head {p : Numeral} :
    ∀ c ∈ (p.fractionText ++ p.exponentText).head?, c = '.' ∨ c = 'e' ∨ c = 'E' := by
  intro c hc
  unfold fractionText at hc
  split at hc
  · exact .inr (exponentText_head c hc)
  · cases hc
    exact .inl rfl

theorem exponentText_not_digit {p : Numeral} :
    ∀ c ∈ p.exponentText.head?, c.isDigit = false := by
  intro c hc
  rcases exponentText_head c hc with rfl | rfl <;> rfl

theorem fractionText_not_digit {p : Numeral} :
    ∀ c ∈ (p.fractionText ++ p.exponentText).head?, c.isDigit = false := by
  intro c hc
  rcases fractionText_head c hc with rfl | rfl | rfl <;> rfl

theorem unsigned_head {p : Numeral} :
    ∀ c ∈ (p.whole ++ (p.fractionText ++ p.exponentText)).head?, c ≠ '+' ∧ c ≠ '-' := by
  intro c hc
  cases hwhole : p.whole with
  | nil =>
    rw [hwhole] at hc
    rcases fractionText_head c hc with rfl | rfl | rfl <;> decide
  | cons d ds =>
    rw [hwhole] at hc
    cases hc
    have hne := isDigit_ne (p.wholeDigits c (by rw [hwhole]; exact List.mem_cons_self))
    exact ⟨hne.1,hne.2.1⟩

theorem splitSign_numeral (p : Numeral) :
    splitSign p.text = (p.sign,p.whole ++ (p.fractionText ++ p.exponentText)) :=
  splitSign_text p.sign unsigned_head

theorem exponentText_injective {p q : Numeral} (h : p.exponentText = q.exponentText) :
    p.exponent = q.exponent := by
  unfold exponentText at h
  cases hp : p.exponent with
  | none =>
    cases hq : q.exponent with
    | none => rfl
    | some exponent =>
      rw [hp,hq] at h
      cases h
  | some exponent =>
    cases hq : q.exponent with
    | none =>
      rw [hp,hq] at h
      cases h
    | some other =>
      rw [hp,hq] at h
      cases exponent
      cases other
      cases h
      rfl

theorem fractionText_injective {p q : Numeral}
    (h : p.fractionText ++ p.exponentText = q.fractionText ++ q.exponentText) :
    p.fraction = q.fraction ∧ p.exponentText = q.exponentText := by
  have hpoint : ∀ (r : Numeral) (cs : List Char), r.exponentText ≠ '.' :: cs := by
    intro r cs heq
    have hhead := exponentText_head (p := r) '.' (by rw [heq]; rfl)
    revert hhead
    decide
  unfold fractionText at h
  cases hp : p.fraction with
  | none =>
    cases hq : q.fraction with
    | none =>
      rw [hp,hq] at h
      exact ⟨rfl,h⟩
    | some ds =>
      rw [hp,hq] at h
      exact absurd h (hpoint p _)
  | some cs =>
    cases hq : q.fraction with
    | none =>
      rw [hp,hq] at h
      exact absurd h.symm (hpoint q _)
    | some ds =>
      rw [hp,hq] at h
      obtain ⟨hdigits,hrest⟩ := eq_and_eq_of_append_eq (p.fractionDigits cs hp)
        (q.fractionDigits ds hq) exponentText_not_digit exponentText_not_digit
        (List.cons.inj h).2
      exact ⟨congrArg some hdigits,hrest⟩

theorem text_injective {p q : Numeral} (h : p.text = q.text) : p = q := by
  have hsplit := congrArg splitSign h
  rw [splitSign_numeral,splitSign_numeral] at hsplit
  obtain ⟨hsign,hrest⟩ := Prod.mk.inj hsplit
  obtain ⟨hwhole,hrest⟩ := eq_and_eq_of_append_eq p.wholeDigits q.wholeDigits
    fractionText_not_digit fractionText_not_digit hrest
  obtain ⟨hfraction,hrest⟩ := fractionText_injective hrest
  have hexponent := exponentText_injective hrest
  cases p
  cases q
  cases hsign
  cases hwhole
  cases hfraction
  cases hexponent
  rfl

theorem digits_isDigit (p : Numeral) : ∀ c ∈ p.digits, c.isDigit = true := by
  intro c hc
  rcases List.mem_append.mp hc with hc | hc
  · exact p.wholeDigits c hc
  · cases hfraction : p.fraction with
    | none => simp [hfraction] at hc
    | some cs => exact p.fractionDigits cs hfraction c (by simpa [hfraction] using hc)

theorem places_le (p : Numeral) : p.places ≤ p.digits.length := by
  simp [places,digits]

theorem length_digits_le (p : Numeral) : p.digits.length ≤ p.text.length := by
  have hfraction : (p.fraction.getD []).length ≤ p.fractionText.length := by
    unfold fractionText
    cases p.fraction <;> simp
  simp only [digits,text,List.length_append]
  omega

end Numeral

theorem cast_mul_pow_eq_iff {m k d : ℕ} {e : ℤ} :
    ((m * 10 ^ k : ℕ) : ℚ) = m * (10 : ℚ) ^ e * 10 ^ d ↔ m = 0 ∨ (k : ℤ) = e + d := by
  have hpow : (m : ℚ) * (10 : ℚ) ^ e * 10 ^ d = m * (10 : ℚ) ^ (e + d) := by
    rw [zpow_add₀ (by norm_num),zpow_natCast,mul_assoc]
  have hcast : ((m * 10 ^ k : ℕ) : ℚ) = m * (10 : ℚ) ^ (k : ℤ) := by
    rw [zpow_natCast]
    push_cast
    rfl
  rw [hpow,hcast,mul_eq_mul_left_iff,zpow_right_inj₀ (by norm_num) (by norm_num),or_comm,
    Nat.cast_eq_zero]

def Denotes (text : List Char) (v : ℚ) : Prop := ∃ p : Numeral, p.text = text ∧ p.value = some v

theorem denotes_iff {p : Numeral} {v : ℚ} : Denotes p.text v ↔ p.value = some v := by
  constructor
  · rintro ⟨q,htext,hvalue⟩
    rw [← Numeral.text_injective htext]
    exact hvalue
  · intro h
    exact ⟨p,rfl,h⟩

end CoppiceWallet.Lib
