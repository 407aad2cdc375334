import CoppiceWallet.Lib.Numerals
import CoppiceWallet.Store.Model

/-!
# Amounts of swap quotes

The provider takes amounts in base units; they are typed and shown as decimal texts. Integers have
64 bits and wrap around. Strings may be as long as an integer can say.
-/

namespace CoppiceWallet.Quotes

open CoppiceWallet.Lib CoppiceWallet.Store

def int64 (x : Int) : Int := (x + 2 ^ 63) % 2 ^ 64 - 2 ^ 63

abbrev DartInt := { x : Int // -2 ^ 63 ≤ x ∧ x < 2 ^ 63 }

abbrev DartString := { text : Text // text.length < 2 ^ 63 }

inductive DartException
  | oneClickApi (message : String) (operation : Option String)
  | format
  | range
  deriving DecidableEq

abbrev DartResult := Except DartException

/-- White space as `trim` has it. -/
def isWhitespace (c : Char) : Bool :=
  let n := c.toNat
  (9 ≤ n && n ≤ 13) || n = 32 || n = 0x85 || n = 0xA0 || n = 0x1680 || (0x2000 ≤ n && n ≤ 0x200A) ||
    n = 0x2028 || n = 0x2029 || n = 0x202F || n = 0x205F || n = 0x3000 || n = 0xFEFF

def trimWhile (isSpace : Char → Bool) (text : Text) : Text :=
  (text.dropWhile isSpace).rdropWhile isSpace

def trim (text : Text) : Text := trimWhile isWhitespace text

/-- Every piece between two separators. -/
def split (separator : Char) : Text → List Text
  | [] => [[]]
  | c :: cs =>
    if c = separator then [] :: split separator cs
    else match split separator cs with
      | [] => [[c]]
      | piece :: pieces => (c :: piece) :: pieces

def indexOf (c : Char) (text : Text) : Int := if c ∈ text then text.idxOf c else -1

def padLeft (text : Text) (width : Int) : Text :=
  List.replicate (width - text.length).toNat '0' ++ text

def padRight (text : Text) (width : Int) : Text :=
  text ++ List.replicate (width - text.length).toNat '0'

def substring (text : Text) (start stop : Int) : DartResult Text :=
  if 0 ≤ start ∧ start ≤ stop ∧ stop ≤ text.length then
    .ok ((text.take stop.toNat).drop start.toNat)
  else .error .range

def isHexDigit (c : Char) : Bool :=
  c.isDigit || (decide ('a' ≤ c) && decide (c ≤ 'f')) || (decide ('A' ≤ c) && decide (c ≤ 'F'))

def hexDigitValue (c : Char) : Nat :=
  if c.isDigit then c.toNat - 48 else if 'a' ≤ c then c.toNat - 87 else c.toNat - 55

/-- The base of a literal, which is sixteen after `0x`, and what its digits are worth. -/
def literalMagnitude (body : Text) : Option (Nat × Nat) :=
  if body.take 2 = ['0','x'] ∨ body.take 2 = ['0','X'] then
    if body.drop 2 ≠ [] ∧ ∀ c ∈ body.drop 2, isHexDigit c = true then
      some (16,(body.drop 2).foldl (fun value c => 16 * value + hexDigitValue c) 0)
    else none
  else if body ≠ [] ∧ ∀ c ∈ body, c.isDigit = true then some (10,digitsValue body)
  else none

/-- A hexadecimal literal without a minus may have all 64 bits. -/
def intTryParse (source : Text) : Option Int :=
  let (sign,body) := splitSign (trim source)
  (literalMagnitude body).bind fun (base,n) =>
    if sign = .minus then
      if n ≤ 2 ^ 63 then some (-n) else none
    else if n < 2 ^ 63 then some n
    else if base = 16 ∧ n < 2 ^ 64 then some (int64 n)
    else none

/-- A regular expression reads big integers, for which `NEL` is no white space. -/
def bigIntTryParse (source : Text) : Option Int :=
  let (sign,body) := splitSign (trimWhile (fun c => isWhitespace c && c.toNat ≠ 0x85) source)
  (literalMagnitude body).map fun (_,n) => sign.factor * n

/-- `^0+(?=\d)` replaced by nothing. -/
def withoutLeadingZeros : Text → Text
  | '0' :: c :: cs => if c.isDigit then withoutLeadingZeros (c :: cs) else '0' :: c :: cs
  | cs => cs

def invalidQuoteAmount : DartException := .oneClickApi "Invalid quote amount" none

def mantissaToBaseUnits (mantissa : Text) (exponent decimals : Int) : DartResult Text :=
  if 1 < mantissa.count '.' then .error invalidQuoteAmount
  else
    let pointIndex := indexOf '.' mantissa
    let fractionalDigits := if pointIndex = -1 then 0 else mantissa.length - pointIndex - 1
    let digits := mantissa.filter fun c => decide (c ≠ '.')
    if digits = [] ∨ ¬ ∀ c ∈ digits, c.isDigit = true then .error invalidQuoteAmount
    else
      let decimalPlaces := int64 (fractionalDigits - exponent)
      let shift := int64 (decimals - decimalPlaces)
      if 0 ≤ shift then
        .ok (withoutLeadingZeros (padRight digits (int64 (digits.length + shift))))
      else .error (.oneClickApi "Amount exceeds token precision" none)

/-- Only `E` has the lower case of a character that an amount may have. -/
def decimalStringToBaseUnits (value : Text) (decimals : Int) : DartResult Text :=
  let trimmed := lower (trim value)
  let normalized := if trimmed.head? = some '+' then trimmed.tail else trimmed
  if normalized.head? = some '-' ∨ normalized = [] then .error invalidQuoteAmount
  else match split 'e' normalized with
    | [mantissa] =>
      if mantissa = [] then .error invalidQuoteAmount
      else mantissaToBaseUnits mantissa 0 decimals
    | [mantissa,exponentText] =>
      if mantissa = [] then .error invalidQuoteAmount
      else match intTryParse exponentText with
        | none => .error invalidQuoteAmount
        | some exponent => mantissaToBaseUnits mantissa exponent decimals
    | _ => .error invalidQuoteAmount

def swapTrimDecimal (value : Text) : Text :=
  let text := trim value
  if '.' ∉ text then text
  else
    let text := text.rdropWhile fun c => decide (c = '0')
    if text.getLast? = some '.' then text.dropLast else text

def swapBaseUnitsToDecimal (amount : Text) (decimals : Int) : DartResult Text := do
  let negative := decide (amount.head? = some '-')
  let digits := if negative then amount.tail else amount
  if decimals ≤ 0 then
    .ok (if negative then '-' :: digits else digits)
  else
    let padded := padLeft digits (int64 (decimals + 1))
    let whole ← substring padded 0 (padded.length - decimals)
    let fraction ← substring padded (padded.length - decimals) padded.length
    let decimal := swapTrimDecimal (whole ++ '.' :: fraction)
    .ok (if negative then '-' :: decimal else decimal)

end CoppiceWallet.Quotes
