import CoppiceWallet.Lib.BinaryFloats
import CoppiceWallet.Lib.Result
import CoppiceWallet.Quotes.Amounts

/-!
# ZIP-321 payment requests

A payment request is a URI with parameters of several payments, in any order. The index of a
parameter says which payment it is for. The first payment has no index, and its address may be the
path.
-/

namespace CoppiceWallet.Zip321

open CoppiceWallet.Lib CoppiceWallet.Store CoppiceWallet.Quotes

inductive DartException
  | zip321Parse (message : String)
  | format
  | argument
  deriving DecidableEq

abbrev DartResult := Except DartException

def parseError {α : Type} (message : String) : DartResult α := .error (.zip321Parse message)

def isLetter (c : Char) : Bool :=
  (decide ('A' ≤ c) && decide (c ≤ 'Z')) || (decide ('a' ≤ c) && decide (c ≤ 'z'))

def isBase64UrlChar (c : Char) : Bool := isLetter c || c.isDigit || c == '_' || c == '-'

def base64Value (c : Char) : Option Nat :=
  if 'A' ≤ c ∧ c ≤ 'Z' then some (c.toNat - 65)
  else if 'a' ≤ c ∧ c ≤ 'z' then some (c.toNat - 71)
  else if c.isDigit then some (c.toNat + 4)
  else if c = '-' ∨ c = '+' then some 62
  else if c = '_' ∨ c = '/' then some 63
  else none

def toBytes (bits count : Nat) : List UInt8 :=
  (List.range count).map fun i => UInt8.ofNat (bits / 256 ^ (count - 1 - i))

/-- Groups of four, of which the last may be padded. The bits that it has too many are zeros. -/
def base64UrlDecode : Text → DartResult (List UInt8)
  | [] => .ok []
  | a :: b :: c :: d :: rest =>
    if d = '=' ∧ rest = [] then
      if c = '=' then
        match base64Value a, base64Value b with
        | some a, some b =>
          if b % 16 = 0 then .ok (toBytes ((a * 64 + b) / 16) 1) else .error .format
        | _, _ => .error .format
      else
        match base64Value a, base64Value b, base64Value c with
        | some a, some b, some c =>
          if c % 4 = 0 then .ok (toBytes (((a * 64 + b) * 64 + c) / 4) 2) else .error .format
        | _, _, _ => .error .format
    else
      match base64Value a, base64Value b, base64Value c, base64Value d with
      | some a, some b, some c, some d =>
        (base64UrlDecode rest).map (toBytes (((a * 64 + b) * 64 + c) * 64 + d) 3 ++ ·)
      | _, _, _, _ => .error .format
  | _ => .error .format

/-- Without a mark at the start that tells the order of bytes. -/
def utf8Decode (bytes : List UInt8) : DartResult Text :=
  match (ByteArray.mk bytes.toArray).utf8Decode? with
  | none => .error .format
  | some chars =>
    .ok (if chars.toList.head? = some '\uFEFF' then chars.toList.tail else chars.toList)

def percentDecode : Text → DartResult (List UInt8)
  | [] => .ok []
  | c :: rest =>
    if c = '%' then
      match rest with
      | a :: b :: rest =>
        if isHexDigit a && isHexDigit b then
          (percentDecode rest).map (UInt8.ofNat (16 * hexDigitValue a + hexDigitValue b) :: ·)
        else .error .argument
      | _ => .error .argument
    else if 127 < c.toNat then .error .argument
    else (percentDecode rest).map (UInt8.ofNat c.toNat :: ·)

/-- `Uri.decodeComponent` -/
def decodeComponent (text : Text) : DartResult Text :=
  if ∀ c ∈ text, c.toNat ≤ 127 ∧ c ≠ '%' then .ok text else percentDecode text >>= utf8Decode

/-- `double.tryParse` of digits with at most one point. -/
def doubleTryParse (value : Text) : Option (WithTop ℚ) :=
  match split '.' value with
  | [whole] => some (binary64.nearest (digitsValue whole))
  | [whole,fraction] =>
    some (binary64.nearest (digitsValue (whole ++ fraction) / 10 ^ fraction.length))
  | _ => none

def validateAddress (value : Text) : DartResult Unit :=
  if value ≠ [] ∧ ∀ c ∈ value, (isLetter c || c.isDigit) = true then .ok ()
  else parseError "Invalid ZIP-321 payment address."

def isAmount (value : Text) : Bool :=
  match split '.' value with
  | [whole] => decide (whole ≠ []) && whole.all Char.isDigit
  | [whole,fraction] => decide (whole ≠ []) && whole.all Char.isDigit &&
      decide (fraction ≠ []) && fraction.all Char.isDigit && decide (fraction.length ≤ 8)
  | _ => false

def validateAmount (value : Text) : DartResult Unit :=
  if '%' ∈ value then parseError "ZIP-321 amount must not be percent-encoded."
  else if isAmount value then
    match doubleTryParse value with
    | none => parseError "ZIP-321 amount exceeds the ZEC supply."
    | some parsed =>
      if ((21000000 : ℚ) : WithTop ℚ) < parsed then
        parseError "ZIP-321 amount exceeds the ZEC supply."
      else .ok ()
  else parseError "Invalid ZIP-321 ZEC amount."

def validateBase64Url (value : Text) (label : String) : DartResult Unit :=
  if ∀ c ∈ value, isBase64UrlChar c = true then .ok ()
  else parseError (label ++ " must be base64url without padding.")

def decodeBase64UrlBytes (value : Text) (label : String) : DartResult (List UInt8) :=
  match base64UrlDecode (value ++ List.replicate ((4 - value.length % 4) % 4) '=') with
  | .error .format => parseError (label ++ " is not valid base64url.")
  | result => result

/-- The text of a memo, or none if it is binary. -/
def parseMemo (value : Text) : DartResult (Option Text) := do
  validateBase64Url value "memo"
  let bytes ← decodeBase64UrlBytes value "memo"
  if 512 < bytes.length then parseError "ZIP-321 memo exceeds 512 bytes."
  else match utf8Decode bytes with
    | .ok text => .ok (some text)
    | .error .format => .ok none
    | .error e => .error e

def decodeQChar (value : Text) (label : String) : DartResult Text :=
  match decodeComponent value with
  | .ok text => .ok text
  | .error _ => parseError ("Invalid percent encoding in " ++ label ++ ".")

inductive Field
  | address
  | amount
  | label
  | message
  | memo
  | reqAsset
  deriving DecidableEq

def Field.text : Field → String
  | .address => "address"
  | .amount => "amount"
  | .label => "label"
  | .message => "message"
  | .memo => "memo"
  | .reqAsset => "req-asset"

def recognizedParamNames : List Field := [.address,.amount,.label,.message,.memo,.reqAsset]

def recognize (name : Text) : Option Field :=
  recognizedParamNames.find? fun field => decide (field.text.toList = name)

structure Zip321PaymentBuilder where
  address : Option Text
  amount : Option Text
  label : Option Text
  message : Option Text
  memo : Option Text
  memoText : Option Text
  memoIsBinary : Bool
  reqAsset : Option Text
  deriving DecidableEq

def Zip321PaymentBuilder.empty : Zip321PaymentBuilder := ⟨none,none,none,none,none,none,false,none⟩

/-- What is stored for a field, which for a memo is its value with the text in it. -/
structure Reading where
  text : Text
  memoText : Option Text
  memoIsBinary : Bool
  deriving DecidableEq

def Reading.plain (text : Text) : Reading := ⟨text,none,false⟩

def readValue (field : Field) (rawValue : Text) : DartResult Reading :=
  match field with
  | .address => (fun _ => .plain rawValue) <$> validateAddress rawValue
  | .amount => (fun _ => .plain rawValue) <$> validateAmount rawValue
  | .label => .plain <$> decodeQChar rawValue "label"
  | .message => .plain <$> decodeQChar rawValue "message"
  | .memo => (fun memo => ⟨rawValue,memo,decide (memo = none)⟩) <$> parseMemo rawValue
  | .reqAsset => (fun _ => .plain rawValue) <$> validateBase64Url rawValue "req-asset"

def Zip321PaymentBuilder.set (builder : Zip321PaymentBuilder) (field : Field) (reading : Reading) :
    Zip321PaymentBuilder :=
  match field with
  | .address => { builder with address := some reading.text }
  | .amount => { builder with amount := some reading.text }
  | .label => { builder with label := some reading.text }
  | .message => { builder with message := some reading.text }
  | .memo => { builder with
      memo := some reading.text
      memoText := reading.memoText
      memoIsBinary := reading.memoIsBinary }
  | .reqAsset => { builder with reqAsset := some reading.text }

structure Zip321Payment where
  address : Text
  amount : Option Text
  label : Option Text
  message : Option Text
  memoBase64Url : Option Text
  memoText : Option Text
  memoIsBinary : Bool
  reqAssetBase64Url : Option Text
  deriving DecidableEq

def isTransparentAddress (address : Text) : Bool := decide (address.head? = some 't')

def toPayment (builder : Zip321PaymentBuilder) : DartResult Zip321Payment :=
  match builder.address with
  | none => parseError "Each ZIP-321 payment must include an address."
  | some address =>
    if builder.amount ≠ none ∧ builder.reqAsset ≠ none then
      parseError "A ZIP-321 payment cannot include both amount and req-asset."
    else if builder.memo ≠ none ∧ isTransparentAddress address then
      parseError "Transparent ZIP-321 payments cannot include a memo."
    else .ok ⟨address,builder.amount,builder.label,builder.message,builder.memo,builder.memoText,
      builder.memoIsBinary,builder.reqAsset⟩

def isParamName (name : Text) : Bool :=
  name.head?.any isLetter && name.all fun c => isLetter c || c.isDigit || c == '+' || c == '-'

def isParamIndex (index : Text) : Bool :=
  decide (index ≠ []) && decide (index.head? ≠ some '0') && index.all Char.isDigit &&
    decide (index.length ≤ 4)

/-- The name with the index, which is empty if there is none. -/
def parseParamName (rawName : Text) : DartResult (Text × Text) :=
  if '%' ∈ rawName then parseError "ZIP-321 parameter names must not be percent-encoded."
  else match split '.' rawName with
    | [name] =>
      if isParamName name then .ok (name,[]) else parseError "Invalid ZIP-321 parameter name."
    | [name,index] =>
      if isParamName name ∧ isParamIndex index then .ok (name,index)
      else parseError "Invalid ZIP-321 parameter name."
    | _ => parseError "Invalid ZIP-321 parameter name."

structure ParseState where
  builders : List (Text × Zip321PaymentBuilder)
  seenKeys : List Text
  hasCustomAsset : Bool

/-- `putIfAbsent`, with an update of what is there then. -/
def putBuilder (builders : List (Text × Zip321PaymentBuilder)) (index : Text) (field : Field)
    (reading : Reading) : List (Text × Zip321PaymentBuilder) :=
  if index ∈ builders.map Prod.fst then
    builders.map fun entry =>
      if entry.1 = index then (entry.1,entry.2.set field reading) else entry
  else builders ++ [(index,Zip321PaymentBuilder.empty.set field reading)]

def seenKey (name index : Text) : Text := name ++ ':' :: index

/-- One parameter of the query. -/
def parseParam (state : ParseState) (rawParam : Text) : DartResult ParseState :=
  if rawParam = [] then .ok state
  else do
    let rawName := rawParam.takeWhile fun c => decide (c ≠ '=')
    let rawValue := (rawParam.dropWhile fun c => decide (c ≠ '=')).tail
    let (name,index) ← parseParamName rawName
    match recognize name with
    | none =>
      if "req-".toList.isPrefixOf name then
        parseError ("Required ZIP-321 parameter " ++ String.ofList name ++ " is not supported.")
      else .ok state
    | some field =>
      if seenKey name index ∈ state.seenKeys then
        parseError ("Duplicate " ++ String.ofList name ++ " parameter.")
      else do
        let reading ← readValue field rawValue
        .ok ⟨putBuilder state.builders index field reading,state.seenKeys ++ [seenKey name index],
          state.hasCustomAsset || decide (field = .reqAsset)⟩

/-- The path of a URI and its parameters. -/
structure UriParts where
  addressPart : Text
  params : List Text
  deriving DecidableEq

def splitUri (trimmed : Text) : DartResult UriParts :=
  if trimmed = [] then parseError "Paste a zcash: payment URI."
  else if ¬ "zcash:".toList.isPrefixOf (lower trimmed) then
    parseError "ZIP-321 requests must start with zcash:."
  else
    let body := trimmed.drop (trimmed.idxOf ':' + 1)
    if "//".toList.isPrefixOf body then parseError "ZIP-321 URIs must not include //."
    else
      let addressPart := body.takeWhile fun c => decide (c ≠ '?')
      let query := (body.dropWhile fun c => decide (c ≠ '?')).tail
      .ok ⟨addressPart,if query = [] then [] else split '&' query⟩

def initialState (addressPart : Text) : DartResult ParseState :=
  if addressPart = [] then .ok ⟨[],[],false⟩
  else do
    validateAddress addressPart
    .ok ⟨[([],Zip321PaymentBuilder.empty.set .address (.plain addressPart))],
      [seenKey "address".toList []],false⟩

def indexSortValue (index : Text) : Nat := if index = [] then 0 else digitsValue index

/-- `int.parse` throws on an index that is no number. -/
def sortBuilders (builders : List (Text × Zip321PaymentBuilder)) :
    DartResult (List (Text × Zip321PaymentBuilder)) :=
  if ∀ entry ∈ builders, ∀ c ∈ entry.1, c.isDigit = true then
    .ok (builders.insertionSort fun a b => indexSortValue a.1 ≤ indexSortValue b.1)
  else .error .format

structure Zip321PaymentRequest where
  payments : List Zip321Payment
  unsupportedReason : Option String
  deriving DecidableEq

def unsupportedReason (payments : List Zip321Payment) (hasCustomAsset : Bool) : Option String :=
  if 1 < payments.length then
    some "Multiple-recipient ZIP-321 requests are parsed but not supported yet."
  else if payments.any Zip321Payment.memoIsBinary then
    some "Binary ZIP-321 memos are parsed but not supported yet."
  else if hasCustomAsset then
    some "Custom asset ZIP-321 requests are parsed but not supported yet."
  else none

def parseParts (parts : UriParts) : DartResult Zip321PaymentRequest := do
  let state ← initialState parts.addressPart
  let state ← parts.params.foldlM parseParam state
  if state.builders = [] then parseError "ZIP-321 request has no payment address."
  else
    let entries ← sortBuilders state.builders
    let payments ← entries.mapM fun entry => toPayment entry.2
    .ok ⟨payments,unsupportedReason payments state.hasCustomAsset⟩

def parse (input : Text) : DartResult Zip321PaymentRequest := splitUri (trim input) >>= parseParts

end CoppiceWallet.Zip321
