import CoppiceWallet.Quotes.Amounts

/-!
# ZEC amounts

Amounts are kept in zatoshi and written in ZEC, with at most eight digits after the point. Text that
is only shown may have fewer digits; what comes after them is cut off. Denominations are left out.

An assertion that fails gives nothing.
-/

namespace CoppiceWallet.Zec

open CoppiceWallet.Lib CoppiceWallet.Store CoppiceWallet.Quotes

def zatoshiPerZec : Nat := 100000000

/-- `_formatZecAmount`, of which `formatZecAmount` is the one with all digits. -/
def formatZecAmountWith (zatoshi : Int) (minFractionDigits maxFractionDigits : Nat)
    (trimTrailingZeros : Bool) : Option Text :=
  if minFractionDigits ≤ 8 ∧ maxFractionDigits ≤ 8 ∧ minFractionDigits ≤ maxFractionDigits then
    let sign := if zatoshi < 0 then ['-'] else []
    let abs := zatoshi.natAbs
    let whole := Nat.toDigits 10 (abs / zatoshiPerZec)
    let padded := padLeft (Nat.toDigits 10 (abs % zatoshiPerZec)) 8
    let cut := if maxFractionDigits < 8 then padded.take maxFractionDigits else padded
    let trimmed := if trimTrailingZeros then cut.rdropWhile fun c => decide (c = '0') else cut
    let fraction :=
      if trimmed.length < minFractionDigits then padRight trimmed minFractionDigits else trimmed
    some (if fraction = [] then sign ++ whole else sign ++ whole ++ '.' :: fraction)
  else none

def formatZecAmount (zatoshi : Int) (minFractionDigits : Nat) : Option Text :=
  formatZecAmountWith zatoshi minFractionDigits 8 true

def digitsOnly (value : Text) : Bool := value.all Char.isDigit

def parseZecAmount (input : Text) : Option Nat :=
  let value := trim input
  if value = [] ∨ value = ['.'] ∨ ',' ∈ value then none
  else
    let value := if value.head? = some '.' then '0' :: value else value
    let parts := split '.' value
    if 2 < parts.length then none
    else
      let wholePart := parts.getD 0 []
      let fractionPart := parts.getD 1 []
      if ¬digitsOnly wholePart ∨ ¬digitsOnly fractionPart then none
      else if 8 < fractionPart.length then none
      else
        let whole := digitsValue (if wholePart = [] then ['0'] else wholePart)
        let fraction := digitsValue (padRight fractionPart 8)
        some (whole * zatoshiPerZec + fraction)

/-- The text of an amount field after an edit. -/
def formatEditUpdate (oldText newText : Text) : Text :=
  let text := newText.map fun c => if c = ',' then '.' else c
  if text = [] then text
  else if ¬ ∀ c ∈ text, c.isDigit = true ∨ c = '.' then oldText
  else if 1 < text.count '.' then oldText
  else
    let dotIndex := indexOf '.' text
    if dotIndex ≠ -1 ∧ 8 < text.length - dotIndex - 1 then oldText else text

structure ZecAmountPretty where
  zatoshi : Int
  minFractionDigits : Nat
  maxFractionDigits : Nat
  signed : Bool
  trimTrailingZeros : Bool
  hideZeroFraction : Bool
  amountTextOverride : Option Text

/-- Only zeros after the point, and only digits before it. -/
def withoutZeroFraction (value : Text) : Text :=
  match split '.' value with
  | [whole,fraction] =>
    let digits := if whole.head? = some '-' then whole.tail else whole
    if digits ≠ [] ∧ digitsOnly digits ∧ fraction ≠ [] ∧ ∀ c ∈ fraction, c = '0' then whole
    else value
  | _ => value

def ZecAmountPretty.amountText (amount : ZecAmountPretty) : Option Text :=
  match amount.amountTextOverride with
  | some override => some override
  | none => (formatZecAmountWith amount.zatoshi amount.minFractionDigits amount.maxFractionDigits
      amount.trimTrailingZeros).map fun value =>
    let value := if amount.hideZeroFraction then withoutZeroFraction value else value
    if amount.signed ∧ 0 < amount.zatoshi then '+' :: value else value

def pretty (zatoshi : Int) (minFractionDigits maxFractionDigits : Nat) (signed hideZeroFraction : Bool) :
    ZecAmountPretty :=
  ⟨zatoshi,minFractionDigits,maxFractionDigits,signed,true,hideZeroFraction,none⟩

def zatoshiUnitForFractionDigits (fractionDigits : Nat) : Nat := 10 ^ (8 - fractionDigits)

def adaptiveFractionDigits (absZatoshi minFractionDigits maxFractionDigits : Nat) : Nat :=
  let integerDigits := (Nat.toDigits 10 (absZatoshi / zatoshiPerZec)).length
  let fractionDigits : Int := maxFractionDigits - integerDigits + 1
  let fractionDigits :=
    if fractionDigits < minFractionDigits then (minFractionDigits : Int) else fractionDigits
  let fractionDigits :=
    if fractionDigits > maxFractionDigits then (maxFractionDigits : Int) else fractionDigits
  fractionDigits.toNat

def compactBalancePretty (zatoshi : Int) (minFractionDigits maxFractionDigits : Nat)
    (hideZeroFraction : Bool) : Option ZecAmountPretty :=
  if minFractionDigits ≤ 8 ∧ maxFractionDigits ≤ 8 ∧ minFractionDigits ≤ maxFractionDigits then
    let abs := zatoshi.natAbs
    let minimumVisibleZatoshi := zatoshiUnitForFractionDigits maxFractionDigits
    if 0 < abs ∧ abs < minimumVisibleZatoshi then
      (formatZecAmountWith minimumVisibleZatoshi maxFractionDigits maxFractionDigits true).map
        fun visibleMinimum =>
          let sign := if zatoshi < 0 then ['-'] else []
          ⟨zatoshi,minFractionDigits,maxFractionDigits,false,true,hideZeroFraction,
            some (sign ++ '<' :: visibleMinimum)⟩
    else
      let fractionDigits := adaptiveFractionDigits abs minFractionDigits maxFractionDigits
      some (pretty zatoshi minFractionDigits fractionDigits false hideZeroFraction)
  else none

def compactBalance (zatoshi : Int) : Option ZecAmountPretty := compactBalancePretty zatoshi 2 6 true

/-- Values below 0.01 are shown with all digits. -/
def activity (zatoshi : Int) (signed : Bool) : ZecAmountPretty :=
  let abs := zatoshi.natAbs
  let whole := abs / zatoshiPerZec
  let fraction := abs % zatoshiPerZec
  let showFullFraction := decide (whole = 0 ∧ 0 < fraction ∧ fraction < 1000000)
  ⟨if signed then zatoshi else abs,0,if showFullFraction then 8 else 4,signed,true,false,none⟩

end CoppiceWallet.Zec
