import CoppiceWallet.Lib.Result
import CoppiceWallet.Quotes.Formatting
import Mathlib.Tactic.NormNum

/-! # Responses to quote requests -/

namespace CoppiceWallet.Quotes

open CoppiceWallet.Lib CoppiceWallet.Store

inductive SwapQuoteMode
  | exactInput
  | exactOutput
  | flexInput
  deriving DecidableEq

def SwapQuoteMode.oneClickSwapType : SwapQuoteMode → Text
  | .exactInput => "EXACT_INPUT".toList
  | .exactOutput => "EXACT_OUTPUT".toList
  | .flexInput => "FLEX_INPUT".toList

def SwapQuoteMode.usesInputAmount (mode : SwapQuoteMode) : Bool := decide (mode ≠ .exactOutput)

structure OneClickToken where
  decimals : DartInt

structure OneClickQuoteRequest where
  mode : SwapQuoteMode
  swapTypeRaw : Option Text
  amount : Option Text
  refundTo : Option Text
  recipient : Option Text
  slippageToleranceBps : Option Int

structure OneClickQuote where
  amountIn : Option Text
  amountInFormatted : DartString
  amountOut : Option Text
  amountOutFormatted : DartString

structure OneClickQuoteResponse where
  quoteRequest : OneClickQuoteRequest
  quote : OneClickQuote

/-- What the request asked for. -/
structure ExpectedQuote where
  mode : SwapQuoteMode
  fixedAmountBaseUnits : Text
  slippageBps : Int
  refundTo : Text
  recipient : Text

def toBaseUnits (amount : Text) (decimals : Int) : DartResult Text :=
  if decimals < 0 then .error (.oneClickApi "Invalid token decimals" none)
  else decimalStringToBaseUnits amount decimals

def parseBaseUnits (value : Option Text) (fieldName : String) : DartResult Nat :=
  match value with
  | none => .error (.oneClickApi ("Missing " ++ fieldName ++ " amount") none)
  | some value => match bigIntTryParse value with
    | none => .error (.oneClickApi ("Invalid " ++ fieldName ++ " amount") none)
    | some parsed =>
      if parsed < 0 then .error (.oneClickApi ("Invalid " ++ fieldName ++ " amount") none)
      else .ok parsed.toNat

/-- An exception of the provider's gets the operation. -/
def withOperation (operation : String) : DartException → DartException
  | .oneClickApi message _ => .oneClickApi message (some operation)
  | exception => exception

def parseQuoteResponseBaseUnits (value : Option Text) (fieldName : String) : DartResult Nat :=
  (parseBaseUnits value fieldName).mapError (withOperation "quote")

def bigIntParse (source : Text) : DartResult Int :=
  match bigIntTryParse source with
  | some n => .ok n
  | none => .error .format

def validateFormattedAmountMatchesBaseUnits (formatted : Text) (baseUnits : Nat) (decimals : Int)
    (fieldName operation : String) : DartResult Unit := do
  let formattedBaseUnitsText ←
    (decimalStringToBaseUnits formatted decimals).mapError (withOperation operation)
  let formattedBaseUnits ← bigIntParse formattedBaseUnitsText
  if formattedBaseUnits ≠ baseUnits then
    .error (.oneClickApi ("Mismatched " ++ fieldName ++ " formatted and base-unit amounts")
      (some operation))
  else .ok ()

section Validation

variable (toUpperCase : Text → Text)

def hasMismatchedSwapType (actual : OneClickQuoteRequest) (expectedMode : SwapQuoteMode) : Bool :=
  match actual.swapTypeRaw with
  | none => decide (actual.mode ≠ expectedMode)
  | some swapType => decide (toUpperCase (trim swapType) ≠ expectedMode.oneClickSwapType)

def mismatched (what : String) : DartException :=
  .oneClickApi ("1Click quote response did not match the requested " ++ what) (some "quote")

def validateQuoteResponseRequest (response : OneClickQuoteResponse) (expected : ExpectedQuote)
    (sellToken receiveToken : OneClickToken) (allowFlexibleQuotedAmount : Bool) :
    DartResult Unit := do
  let actual := response.quoteRequest
  if hasMismatchedSwapType toUpperCase actual expected.mode then .error (mismatched "route")
  else
    let quote := response.quote
    let amountField := if expected.mode.usesInputAmount then quote.amountIn else quote.amountOut
    let amountFieldName := if expected.mode.usesInputAmount then "amountIn" else "amountOut"
    let expectedFixedAmount ← bigIntParse expected.fixedAmountBaseUnits
    let responseFixedAmount ← parseQuoteResponseBaseUnits amountField amountFieldName
    let requestFixedAmount ← parseQuoteResponseBaseUnits actual.amount "quoteRequest.amount"
    if (requestFixedAmount : Int) ≠ expectedFixedAmount ∨
        (allowFlexibleQuotedAmount = false ∧ (responseFixedAmount : Int) ≠ expectedFixedAmount) then
      .error (mismatched "amount")
    else
      let amountIn ← parseQuoteResponseBaseUnits quote.amountIn "amountIn"
      validateFormattedAmountMatchesBaseUnits quote.amountInFormatted amountIn sellToken.decimals
        "amountIn" "quote"
      let amountOut ← parseQuoteResponseBaseUnits quote.amountOut "amountOut"
      validateFormattedAmountMatchesBaseUnits quote.amountOutFormatted amountOut
        receiveToken.decimals "amountOut" "quote"
      if actual.slippageToleranceBps ≠ some expected.slippageBps then .error (mismatched "slippage")
      else if actual.refundTo.map trim ≠ some expected.refundTo ∨
          actual.recipient.map trim ≠ some expected.recipient then
        .error (mismatched "addresses")
      else .ok ()

end Validation

structure SwapAsset where
  symbol : Text

/-- The amounts of a quote, in base units and as the user sees them. -/
structure SwapQuote where
  sellAmountBaseUnits : Nat
  sellAmountText : Text
  receiveEstimateText : Text

def amountText (formatted : Text) (asset : SwapAsset) : Text :=
  swapTrimDecimal formatted ++ ' ' :: asset.symbol

section Quote

variable {Double : Type} (doubleTryParse : Text → Option Double)

def parseAmount (value : Text) (fieldName : String) : DartResult Double :=
  match doubleTryParse value with
  | some parsed => .ok parsed
  | none => .error (.oneClickApi ("Invalid amount field: " ++ fieldName) none)

def quoteFromOneClick (response : OneClickQuoteResponse) (sellAsset receiveAsset : SwapAsset) :
    DartResult SwapQuote := do
  let quote := response.quote
  let _sellAmount ← parseAmount doubleTryParse quote.amountInFormatted "amountIn"
  let _receiveAmount ← parseAmount doubleTryParse quote.amountOutFormatted "amountOut"
  let sellAmountBaseUnits ← parseBaseUnits quote.amountIn "amountIn"
  .ok {
    sellAmountBaseUnits := sellAmountBaseUnits
    sellAmountText := amountText quote.amountInFormatted sellAsset
    receiveEstimateText := amountText quote.amountOutFormatted receiveAsset }

end Quote

theorem bigIntParse_toDigits (n : Nat) : bigIntParse (Nat.toDigits 10 n) = .ok n := by
  have hdigits := toDigits_isDigit n
  have hspace : ∀ c ∈ Nat.toDigits 10 n,
      (isWhitespace c && decide (c.toNat ≠ 0x85)) = false := by
    intro c hc
    rw [isWhitespace_digit (hdigits c hc)]
    rfl
  have hsign : splitSign (Nat.toDigits 10 n) = (.unsigned,Nat.toDigits 10 n) := by
    apply splitSign_unsigned
    intro c hc
    have hne := Numeral.isDigit_ne (hdigits c (List.mem_of_head? hc))
    exact ⟨hne.1,hne.2.1⟩
  have hparsed : bigIntTryParse (Nat.toDigits 10 n) = some (n : Int) := by
    rw [bigIntTryParse,trimWhile_eq_self hspace]
    simp [hsign,literalMagnitude_digits Nat.toDigits_ne_nil hdigits,digitsValue_toDigits,
      Sign.factor]
  rw [bigIntParse,hparsed]

theorem mapError_ok {α : Type} {f : DartException → DartException} {x : DartResult α} {a : α}
    (h : x.mapError f = .ok a) : x = .ok a := by
  cases x with
  | error e => cases h
  | ok b => exact h

theorem validateFormattedAmount_ok {formatted : Text} {baseUnits : Nat} {decimals : Int}
    {fieldName operation : String} (h : validateFormattedAmountMatchesBaseUnits formatted baseUnits
      decimals fieldName operation = .ok ()) :
    ∃ result, decimalStringToBaseUnits formatted decimals = .ok result ∧
      bigIntParse result = .ok (baseUnits : Int) := by
  obtain ⟨result,hresult,h⟩ := bind_ok h
  obtain ⟨n,hn,h⟩ := bind_ok h
  split at h
  · cases h
  · rename_i heq
    exact ⟨result,mapError_ok hresult,by rw [hn,not_not.mp heq]⟩

theorem validateFormattedAmount_shown {formatted : DartString} {baseUnits : Nat} {decimals : DartInt}
    (hdecimals : 0 ≤ decimals.1) {fieldName operation : String}
    (h : validateFormattedAmountMatchesBaseUnits formatted baseUnits decimals fieldName operation =
      .ok ()) :
    Denotes (swapTrimDecimal formatted) (baseUnits / 10 ^ decimals.1.toNat) ↔
      ∃ p : Numeral, p.text = trim formatted ∧ ShownExactly p decimals.1.toNat := by
  obtain ⟨result,hresult,hparsed⟩ := validateFormattedAmount_ok h
  have hnat : decimals.1 = (decimals.1.toNat : Int) := (Int.toNat_of_nonneg hdecimals).symm
  have hlt : decimals.1.toNat < 2 ^ 63 := by
    have hrange := decimals.2.2
    omega
  rw [hnat] at hresult
  obtain ⟨p,e,k,hp⟩ := decimalStringToBaseUnits_parsed hlt hresult
  have hunits : result = Nat.toDigits 10 baseUnits := by
    have heq := hp.result
    rw [heq,bigIntParse_toDigits] at hparsed
    rw [heq,Int.ofNat_inj.mp (Except.ok.inj hparsed)]
  rw [hp.shown_iff hunits]
  constructor
  · intro hshown
    exact ⟨p,hp.text,hshown⟩
  · rintro ⟨q,htext,hshown⟩
    rw [Numeral.text_injective (hp.text.trans htext.symm)]
    exact hshown

theorem validateQuoteResponse_ok {toUpperCase : Text → Text} {response : OneClickQuoteResponse}
    {expected : ExpectedQuote} {sellToken receiveToken : OneClickToken}
    {allowFlexibleQuotedAmount : Bool}
    (h : validateQuoteResponseRequest toUpperCase response expected sellToken receiveToken
      allowFlexibleQuotedAmount = .ok ()) :
    ∃ amountIn amountOut, parseBaseUnits response.quote.amountIn "amountIn" = .ok amountIn ∧
      parseBaseUnits response.quote.amountOut "amountOut" = .ok amountOut ∧
      validateFormattedAmountMatchesBaseUnits response.quote.amountInFormatted amountIn
        sellToken.decimals "amountIn" "quote" = .ok () ∧
      validateFormattedAmountMatchesBaseUnits response.quote.amountOutFormatted amountOut
        receiveToken.decimals "amountOut" "quote" = .ok () := by
  simp only [validateQuoteResponseRequest] at h
  split at h
  · cases h
  · obtain ⟨_,_,h⟩ := bind_ok h
    obtain ⟨_,_,h⟩ := bind_ok h
    obtain ⟨_,_,h⟩ := bind_ok h
    split at h
    · cases h
    · obtain ⟨amountIn,hin,h⟩ := bind_ok h
      obtain ⟨_,hformattedIn,h⟩ := bind_ok h
      obtain ⟨amountOut,hout,h⟩ := bind_ok h
      obtain ⟨_,hformattedOut,_⟩ := bind_ok h
      exact ⟨amountIn,amountOut,mapError_ok hin,mapError_ok hout,hformattedIn,hformattedOut⟩

theorem quoteFromOneClick_ok {Double : Type} {doubleTryParse : Text → Option Double}
    {response : OneClickQuoteResponse} {sellAsset receiveAsset : SwapAsset} {quote : SwapQuote}
    (h : quoteFromOneClick doubleTryParse response sellAsset receiveAsset = .ok quote) :
    parseBaseUnits response.quote.amountIn "amountIn" = .ok quote.sellAmountBaseUnits ∧
      quote.sellAmountText = amountText response.quote.amountInFormatted sellAsset ∧
      quote.receiveEstimateText = amountText response.quote.amountOutFormatted receiveAsset := by
  obtain ⟨_,_,h⟩ := bind_ok h
  obtain ⟨_,_,h⟩ := bind_ok h
  obtain ⟨units,hunits,h⟩ := bind_ok h
  cases h
  exact ⟨hunits,rfl,rfl⟩

/-- The result is the text of what the value denotes, in base units. -/
def ReadsValue (value : Text) (decimals : Nat) (result : Text) : Prop :=
  ∃ (v : ℚ) (n : Nat), Denotes (trim value) v ∧ result = Nat.toDigits 10 n ∧
    (n : ℚ) = v * 10 ^ decimals

/-- The shortened text denotes the base units. -/
def ShowsUnits (formatted : Text) (units decimals : Nat) : Prop :=
  Denotes (swapTrimDecimal formatted) (units / 10 ^ decimals)

/-- When the base units of a text, the way there and back, and the texts of an accepted response are
exact. -/
theorem quoteAmounts_exact (decimals : Nat) :
    (∀ (value : DartString) (result : Text), decimals < 2 ^ 63 →
      decimalStringToBaseUnits value decimals = .ok result →
      (ReadsValue value decimals result ↔
        ∃ p : Numeral, p.text = trim value ∧ ReadExactly p decimals)) ∧
    (∀ n : Nat, (Nat.toDigits 10 n).length < 2 ^ 63 → decimals < 2 ^ 63 →
      ((swapBaseUnitsToDecimal (Nat.toDigits 10 n) decimals >>= fun text =>
          decimalStringToBaseUnits text decimals) = .ok (Nat.toDigits 10 n) ↔
        decimals + 1 < 2 ^ 63 ∨ (Nat.toDigits 10 n).length = decimals)) ∧
    ∀ (toUpperCase : Text → Text) (response : OneClickQuoteResponse) (expected : ExpectedQuote)
      (sellToken receiveToken : OneClickToken) (allowFlexibleQuotedAmount : Bool),
      0 ≤ sellToken.decimals.1 → 0 ≤ receiveToken.decimals.1 →
      validateQuoteResponseRequest toUpperCase response expected sellToken receiveToken
        allowFlexibleQuotedAmount = .ok () →
      ∃ amountIn amountOut, parseBaseUnits response.quote.amountIn "amountIn" = .ok amountIn ∧
        parseBaseUnits response.quote.amountOut "amountOut" = .ok amountOut ∧
        (ShowsUnits response.quote.amountInFormatted amountIn sellToken.decimals.1.toNat ↔
          ∃ p : Numeral, p.text = trim response.quote.amountInFormatted ∧
            ShownExactly p sellToken.decimals.1.toNat) ∧
        (ShowsUnits response.quote.amountOutFormatted amountOut receiveToken.decimals.1.toNat ↔
          ∃ p : Numeral, p.text = trim response.quote.amountOutFormatted ∧
            ShownExactly p receiveToken.decimals.1.toNat) ∧
        ∀ (Double : Type) (doubleTryParse : Text → Option Double) (sellAsset receiveAsset : SwapAsset)
          (quote : SwapQuote),
          quoteFromOneClick doubleTryParse response sellAsset receiveAsset = .ok quote →
          quote.sellAmountBaseUnits = amountIn ∧
            quote.sellAmountText = amountText response.quote.amountInFormatted sellAsset ∧
            quote.receiveEstimateText = amountText response.quote.amountOutFormatted receiveAsset := by
  refine ⟨?_,fun n => swapBaseUnitsToDecimal_roundTrip,?_⟩
  · intro value result hdecimals hresult
    obtain ⟨p,e,k,hp⟩ := decimalStringToBaseUnits_parsed hdecimals hresult
    rw [ReadsValue,hp.exact_iff]
    constructor
    · intro hread
      exact ⟨p,hp.text,hread⟩
    · rintro ⟨q,htext,hread⟩
      rw [Numeral.text_injective (hp.text.trans htext.symm)]
      exact hread
  · intro toUpperCase response expected sellToken receiveToken allow hsell hreceive h
    obtain ⟨amountIn,amountOut,hin,hout,hformattedIn,hformattedOut⟩ := validateQuoteResponse_ok h
    refine ⟨amountIn,amountOut,hin,hout,validateFormattedAmount_shown hsell hformattedIn,
      validateFormattedAmount_shown hreceive hformattedOut,?_⟩
    intro Double doubleTryParse sellAsset receiveAsset quote hquote
    obtain ⟨hunits,htexts⟩ := quoteFromOneClick_ok hquote
    exact ⟨Except.ok.inj (hunits.symm.trans hin),htexts⟩

/-- An amount of 0.0015 with eight decimals. -/
theorem quoteAmounts_exact_roundTrip :
    (swapBaseUnitsToDecimal (Nat.toDigits 10 150000) (8 : Nat) >>= fun text =>
      decimalStringToBaseUnits text (8 : Nat)) = .ok (Nat.toDigits 10 150000) :=
  ((quoteAmounts_exact 8).2.1 150000 (by decide) (by decide)).mpr (.inl (by decide))

def smallAmount : DartString := ⟨"1.5e-10".toList,of_decide_eq_true rfl⟩

def smallAmountResponse : OneClickQuoteResponse where
  quoteRequest := {
    mode := .exactInput
    swapTypeRaw := some "EXACT_INPUT".toList
    amount := some "150000000".toList
    refundTo := some "refund".toList
    recipient := some "recipient".toList
    slippageToleranceBps := some 100 }
  quote := {
    amountIn := some "150000000".toList
    amountInFormatted := smallAmount
    amountOut := some "1".toList
    amountOutFormatted := ⟨"0.00000001".toList,of_decide_eq_true rfl⟩ }

def smallAmountExpected : ExpectedQuote where
  mode := .exactInput
  fixedAmountBaseUnits := "150000000".toList
  slippageBps := 100
  refundTo := "refund".toList
  recipient := "recipient".toList

def etherToken : OneClickToken := ⟨⟨18,of_decide_eq_true rfl⟩⟩

def zecToken : OneClickToken := ⟨⟨8,of_decide_eq_true rfl⟩⟩

def upper (text : Text) : Text := text.map Char.toUpper

/-- An accepted response of 0.00000000015 ETH that is shown as 0.15 ETH. -/
theorem smallAmount_shownAsAnother :
    validateQuoteResponseRequest upper smallAmountResponse smallAmountExpected etherToken zecToken
        false = .ok () ∧
      parseBaseUnits smallAmountResponse.quote.amountIn "amountIn" = .ok 150000000 ∧
      amountText smallAmountResponse.quote.amountInFormatted ⟨"ETH".toList⟩ = "1.5e-1 ETH".toList ∧
      ¬ ShowsUnits smallAmountResponse.quote.amountInFormatted 150000000 18 := by
  refine ⟨by decide,by decide,by decide,?_⟩
  let shown : Numeral := ⟨.unsigned,['1'],some ['5'],some ⟨'e',['-','1'],.inl rfl⟩,by decide,by decide⟩
  have htext : swapTrimDecimal smallAmountResponse.quote.amountInFormatted = shown.text := by decide
  have hvalue : shown.value = some (15 * (10 : ℚ) ^ (-1 - 1 : ℤ)) := by
    have hexponent : shown.exponentValue = some (-1) := by decide
    have hmantissa : shown.mantissa = 15 := by decide
    have hplaces : shown.places = 1 := rfl
    rw [Numeral.value,if_neg (by decide),hexponent,hmantissa,hplaces]
    norm_num [shown,Sign.factor]
  rw [ShowsUnits,htext,denotes_iff,hvalue]
  norm_num

end CoppiceWallet.Quotes
