import Mathlib.Data.List.SplitLengths
import CoppiceWallet.Lib.Bisection
import CoppiceWallet.Keystone.CompactSignatures

/-!
# Signing rounds

Messages are dealt out to rounds that the device can show and sign. The planner measures a round
with the longest request id, the encoder again with its own. Parsing a PCZT, the two encodings and
the fragmentation are library code.
-/

namespace CoppiceWallet.Keystone

open CoppiceWallet.Lib CoppiceWallet.Store

def saturatingAddUsize (a b : Nat) : Nat := min (a + b) (usizeLimit - 1)

structure ZcashBatchMessageInput where
  id : Text
  pcztBytes : Bytes
  expectedSignatureCount : UInt32
  deriving DecidableEq

/-- What the wallet uses of the PCZT and the UR libraries. -/
structure BatchLibrary (Pczt : Type) where
  parse : Bytes → Except String Pczt
  resolveFields : Pczt → Except String Pczt
  /-- `BatchSignRequest::new(pczts).serialize()`, in Postcard. -/
  batchSignRequest : List Pczt → Except String Bytes
  /-- The CBOR envelope of a request id and a request. -/
  zcashSignBatch : Bytes → Bytes → Except String Bytes
  /-- The parts of a `zcash-sign-batch` UR, in upper case. -/
  urParts : Bytes → Nat → Except String (List Text)

/-- An envelope with a shorter request id is no longer. -/
def BatchLibrary.EnvelopeMonotone {Pczt : Type} (library : BatchLibrary Pczt) : Prop :=
  ∀ id id' request cbor, id'.length ≤ id.length → library.zcashSignBatch id request = .ok cbor →
    ∃ cbor', library.zcashSignBatch id' request = .ok cbor' ∧ cbor'.length ≤ cbor.length

def zcashSignBatchMaxMessages : Nat := 40

def zcashSignBatchMaxCompactCborBytes : Nat := 80 * 1024

def zcashSignBatchMaxSignatures : Nat := 96

def zcashSignBatchMaxTotalBytes : Nat := 466 * 1024

def zcashSignBatchMaxResolvedTotalBytes : Nat := zcashSignBatchMaxTotalBytes

inductive BatchError
  | emptyRequestId
  | zeroMessageLimit
  | messageCount
  | emptyMessageId
  | duplicateId (id : Text)
  | emptyPayload (id : Text)
  | duplicatePayload
  | payloadOverflow
  | payloadLimit
  | invalidPczt (id : Text) (e : String)
  | resolveFields (id : Text) (e : String)
  | signatureOverflow
  | signatureLimit
  | encodeRequest (e : String)
  | encodeCompactRequest (e : String)
  | encodeCompactEnvelope (e : String)
  | encodeResolvedRequest (e : String)
  | exceedsRoundLimits (id : Text)
  | roundCountOverflow
  | requestLimit
  | encodeEnvelope (e : String)
  | qrLimit
  | urEncoder (e : String)
  deriving DecidableEq

def BatchError.text : BatchError → String
  | .emptyRequestId => "Zcash batch request id must not be empty"
  | .zeroMessageLimit => "Zcash signing round message limit must be positive"
  | .messageCount => s!"Zcash batch requires 1 to {zcashSignBatchMaxMessages} messages"
  | .emptyMessageId => "Zcash batch message id must not be empty"
  | .duplicateId id => s!"Duplicate Zcash batch message id {String.ofList id}"
  | .emptyPayload id => s!"Zcash batch message {String.ofList id} has an empty payload"
  | .duplicatePayload => "Duplicate Zcash batch payload"
  | .payloadOverflow => "Zcash batch payload byte count overflow"
  | .payloadLimit => s!"Zcash batch PCZTs exceed {zcashSignBatchMaxTotalBytes} bytes"
  | .invalidPczt id e => s!"Invalid PCZT for batch message {String.ofList id}: {e}"
  | .resolveFields id e => s!"Resolve PCZT fields for batch message {String.ofList id}: {e}"
  | .signatureOverflow => "Zcash batch signature count overflow"
  | .signatureLimit =>
    s!"Zcash batch expects more than {zcashSignBatchMaxSignatures} spend signatures"
  | .encodeRequest e => s!"Encode PCZT batch signing request: {e}"
  | .encodeCompactRequest e => s!"Encode compact PCZT batch signing request: {e}"
  | .encodeCompactEnvelope e => s!"Encode compact zcash-sign-batch envelope: {e}"
  | .encodeResolvedRequest e => s!"Encode resolved PCZT batch signing request: {e}"
  | .exceedsRoundLimits id =>
    s!"Zcash batch message {String.ofList id} exceeds Keystone's signing round limits"
  | .roundCountOverflow => "Zcash signing round message count exceeds u32"
  | .requestLimit => s!"Zcash batch request exceeds {zcashSignBatchMaxTotalBytes} bytes"
  | .encodeEnvelope e => s!"Encode zcash-sign-batch CBOR envelope: {e}"
  | .qrLimit => s!"Zcash batch QR request exceeds {zcashSignBatchMaxCompactCborBytes} bytes"
  | .urEncoder e => s!"UR encoder: {e}"

abbrev BatchResult := Except BatchError

def orFail {α : Type} (value : Option α) (error : BatchError) : BatchResult α :=
  match value with
  | some value => .ok value
  | none => .error error

/-- The UTF-8 bytes of a text. -/
def asBytes (text : Text) : Bytes := text.flatMap String.utf8EncodeChar

def decimal (n : Nat) : Text := Nat.toDigits 10 n

/-- The request id of one round. -/
def roundRequestId (requestId : Text) (round rounds : Nat) : Text :=
  requestId ++ "-round-".toList ++ decimal round ++ "-of-".toList ++ decimal rounds

variable {Pczt : Type} (library : BatchLibrary Pczt)

structure PostcardTotals (Pczt : Type) where
  ids : List Text
  payloads : List Bytes
  pczts : List Pczt
  payloadBytes : Nat
  signatureCount : Nat

/-- One message of the encoder's loop; what has been read so far is in the totals, the last PCZT
first. -/
def addPostcardMessage (totals : PostcardTotals Pczt) (message : ZcashBatchMessageInput) :
    BatchResult (PostcardTotals Pczt) :=
  if message.id.isEmpty then .error .emptyMessageId
  else if message.id ∈ totals.ids then .error (.duplicateId message.id)
  else if message.pcztBytes.isEmpty then .error (.emptyPayload message.id)
  else if message.pcztBytes ∈ totals.payloads then .error .duplicatePayload
  else do
    let payloadBytes ← orFail (checkedUsize (totals.payloadBytes + message.pcztBytes.length))
      .payloadOverflow
    if payloadBytes > zcashSignBatchMaxTotalBytes then .error .payloadLimit
    else do
      let pczt ← (library.parse message.pcztBytes).mapError (.invalidPczt message.id)
      let signatureCount ←
        orFail (checkedUsize (totals.signatureCount + message.expectedSignatureCount.toNat))
          .signatureOverflow
      if signatureCount > zcashSignBatchMaxSignatures then .error .signatureLimit
      else .ok {
        ids := message.id :: totals.ids
        payloads := message.pcztBytes :: totals.payloads
        pczts := pczt :: totals.pczts
        payloadBytes := payloadBytes
        signatureCount := signatureCount }

def encodeZcashSignBatchPostcard (messages : List ZcashBatchMessageInput) : BatchResult Bytes :=
  if messages.isEmpty ∨ messages.length > zcashSignBatchMaxMessages then .error .messageCount
  else do
    let totals ← messages.foldlM (addPostcardMessage library) ⟨[],[],[],0,0⟩
    (library.batchSignRequest totals.pczts.reverse).mapError .encodeRequest

/-- The encoder up to the fragmentation. -/
def encodeZcashSignBatchCbor (requestId : Text) (messages : List ZcashBatchMessageInput) :
    BatchResult Bytes :=
  if requestId.isEmpty then .error .emptyRequestId
  else do
    let postcard ← encodeZcashSignBatchPostcard library messages
    if saturatingAddUsize (asBytes requestId).length postcard.length > zcashSignBatchMaxTotalBytes
    then .error .requestLimit
    else do
      let cbor ← (library.zcashSignBatch (asBytes requestId) postcard).mapError .encodeEnvelope
      if cbor.length > zcashSignBatchMaxCompactCborBytes then .error .qrLimit
      else .ok cbor

def encodeZcashSignBatchUrParts (requestId : Text) (messages : List ZcashBatchMessageInput)
    (maxFragmentLen : Nat) : BatchResult (List Text) := do
  let cbor ← encodeZcashSignBatchCbor library requestId messages
  (library.urParts cbor maxFragmentLen).mapError .urEncoder

structure PreparedZcashBatchMessage (Pczt : Type) where
  compactPczt : Pczt
  resolvedPczt : Pczt
  compactPayloadLen : Nat
  expectedSignatureCount : Nat

structure ZcashSignBatchRoundSize where
  compactPayloadBytes : Nat
  compactRequestBytes : Nat
  compactCborBytes : Nat
  resolvedRequestBytes : Nat
  expectedSignatureCount : Nat

def ZcashSignBatchRoundSize.fits (size : ZcashSignBatchRoundSize) (requestIdLen : Nat) : Bool :=
  size.compactPayloadBytes ≤ zcashSignBatchMaxTotalBytes &&
    saturatingAddUsize requestIdLen size.compactRequestBytes ≤ zcashSignBatchMaxTotalBytes &&
    size.compactCborBytes ≤ zcashSignBatchMaxCompactCborBytes &&
    saturatingAddUsize requestIdLen size.resolvedRequestBytes ≤
      zcashSignBatchMaxResolvedTotalBytes &&
    size.expectedSignatureCount ≤ zcashSignBatchMaxSignatures

def prepareZcashBatchMessage (message : ZcashBatchMessageInput) :
    BatchResult (PreparedZcashBatchMessage Pczt) := do
  let compactPczt ← (library.parse message.pcztBytes).mapError (.invalidPczt message.id)
  let resolvedPczt ← (library.resolveFields compactPczt).mapError (.resolveFields message.id)
  .ok {
    compactPczt := compactPczt
    resolvedPczt := resolvedPczt
    compactPayloadLen := message.pcztBytes.length
    expectedSignatureCount := message.expectedSignatureCount.toNat }

/-- The rest of the messages, after those with these ids and payloads. -/
def prepareRest : List Text → List Bytes → List ZcashBatchMessageInput →
    BatchResult (List (PreparedZcashBatchMessage Pczt))
  | _, _, [] => .ok []
  | ids, payloads, message :: messages =>
    if message.id.isEmpty then .error .emptyMessageId
    else if message.id ∈ ids then .error (.duplicateId message.id)
    else if message.pcztBytes.isEmpty then .error (.emptyPayload message.id)
    else if message.pcztBytes ∈ payloads then .error .duplicatePayload
    else do
      let first ← prepareZcashBatchMessage library message
      let rest ← prepareRest (message.id :: ids) (message.pcztBytes :: payloads) messages
      .ok (first :: rest)

def prepareZcashBatchMessages (messages : List ZcashBatchMessageInput) :
    BatchResult (List (PreparedZcashBatchMessage Pczt)) :=
  prepareRest library [] [] messages

def checkedTotal (error : BatchError) (values : List Nat) : BatchResult Nat :=
  values.foldlM (fun total value => orFail (checkedUsize (total + value)) error) 0

def zcashSignBatchRoundSize (messages : List (PreparedZcashBatchMessage Pczt))
    (requestIdLen : Nat) : BatchResult ZcashSignBatchRoundSize := do
  let compactPayloadBytes ← checkedTotal .payloadOverflow (messages.map (·.compactPayloadLen))
  let expectedSignatureCount ←
    checkedTotal .signatureOverflow (messages.map (·.expectedSignatureCount))
  let compactRequest ←
    (library.batchSignRequest (messages.map (·.compactPczt))).mapError .encodeCompactRequest
  let compactCbor ← (library.zcashSignBatch (List.replicate requestIdLen 114) compactRequest).mapError
    .encodeCompactEnvelope
  let resolvedRequest ←
    (library.batchSignRequest (messages.map (·.resolvedPczt))).mapError .encodeResolvedRequest
  .ok {
    compactPayloadBytes := compactPayloadBytes
    compactRequestBytes := compactRequest.length
    compactCborBytes := compactCbor.length
    resolvedRequestBytes := resolvedRequest.length
    expectedSignatureCount := expectedSignatureCount }

/-- The rounds from the message at which the loop stands; `fuel` bounds their number, and every
round takes a message. -/
def planRounds (roundLimit maxRoundRequestIdLen : Nat) : Nat → List ZcashBatchMessageInput →
    List (PreparedZcashBatchMessage Pczt) → BatchResult (List Nat)
  | fuel + 1, message :: messages, prepared => do
    let maxCount := min prepared.length roundLimit
    let best ← bisect
      (fun candidateCount => zcashSignBatchRoundSize library (prepared.take candidateCount)
        maxRoundRequestIdLen)
      (fun size => size.fits maxRoundRequestIdLen) 1 maxCount Nat.one_pos none
    match best with
    | none => .error (.exceedsRoundLimits message.id)
    | some (count,_) =>
      let count ← orFail (u32TryFrom count) .roundCountOverflow
      let counts ← planRounds roundLimit maxRoundRequestIdLen fuel ((message :: messages).drop count)
        (prepared.drop count)
      .ok (count :: counts)
  | _, _, _ => .ok []

def zcashSignBatchRoundMessageCounts (requestId : Text) (messages : List ZcashBatchMessageInput)
    (maxMessages : Nat) : BatchResult (List Nat) :=
  if requestId.isEmpty then .error .emptyRequestId
  else if messages.isEmpty then .ok []
  else if maxMessages = 0 then .error .zeroMessageLimit
  else do
    let prepared ← prepareZcashBatchMessages library messages
    let roundLimit := min maxMessages zcashSignBatchMaxMessages
    let maxRoundRequestIdLen :=
      (asBytes (roundRequestId requestId messages.length messages.length)).length
    planRounds library roundLimit maxRoundRequestIdLen messages.length messages prepared

variable {error : BatchError}

theorem orFail_ok {α : Type} {value : Option α} {a : α} (h : orFail value error = .ok a) :
    value = some a := by
  cases value with
  | none => cases h
  | some b =>
    cases h
    rfl

theorem orFail_error {α : Type} {value : Option α} {e : BatchError}
    (h : orFail value error = .error e) : e = error := by
  cases value with
  | none =>
    cases h
    rfl
  | some a => cases h

theorem mapError_ok {ε ε' α : Type} {x : Except ε α} {f : ε → ε'} {a : α}
    (h : x.mapError f = .ok a) : x = .ok a := by
  cases x with
  | error e => cases h
  | ok b =>
    cases h
    rfl

theorem mapError_error {ε ε' α : Type} {x : Except ε α} {f : ε → ε'} {e : ε'}
    (h : x.mapError f = .error e) : ∃ e', e = f e' := by
  cases x with
  | error e' =>
    cases h
    exact ⟨e',rfl⟩
  | ok b => cases h

theorem checkedTotal_ok {values : List Nat} {start total : Nat}
    (h : values.foldlM (fun total value => orFail (checkedUsize (total + value)) error) start =
      .ok total) : total = start + values.sum := by
  induction values generalizing start with
  | nil =>
    cases h
    simp
  | cons value values ih =>
    rw [List.foldlM_cons] at h
    obtain ⟨next,hnext,h⟩ := bind_ok h
    obtain ⟨rfl,_⟩ := checkedUsize_eq_some.mp (orFail_ok hnext)
    rw [ih h,List.sum_cons,Nat.add_assoc]

theorem checkedTotal_error {e : BatchError} {values : List Nat} {start : Nat}
    (h : values.foldlM (fun total value => orFail (checkedUsize (total + value)) error) start =
      .error e) : e = error := by
  induction values generalizing start with
  | nil => cases h
  | cons value values ih =>
    rw [List.foldlM_cons] at h
    rcases bind_error h with hnext | ⟨next,_,h⟩
    · exact orFail_error hnext
    · exact ih h

theorem asBytes_append (text text' : Text) : asBytes (text ++ text') = asBytes text ++ asBytes text' :=
  List.flatMap_append

theorem asBytes_decimal (n : Nat) : (asBytes (decimal n)).length = (decimal n).length := by
  have hdigits : ∀ c ∈ decimal n, c.utf8Size = 1 := by
    intro c hc
    have hdigit := Nat.isDigit_of_mem_toDigits (by decide) (by decide) hc
    simp only [Char.isDigit,Bool.and_eq_true,decide_eq_true_eq,UInt32.le_iff_toNat_le] at hdigit
    rw [Char.utf8Size_eq_one_iff,UInt32.le_iff_toNat_le]
    exact hdigit.2.trans (by decide)
  rw [asBytes,List.length_flatMap]
  simp only [String.length_utf8EncodeChar]
  rw [List.map_congr_left hdigits]
  simp

theorem decimal_length_le {m n : Nat} (h : m ≤ n) : (decimal m).length ≤ (decimal n).length := by
  have hpos : 0 < (decimal n).length := Nat.length_toDigits_pos
  have hlt : n < 10 ^ (decimal n).length :=
    (Nat.length_toDigits_le_iff (by decide) hpos).mp (le_refl _)
  exact (Nat.length_toDigits_le_iff (by decide) hpos).mpr (h.trans_lt hlt)

theorem roundRequestId_length_le (requestId : Text) {round rounds messages : Nat}
    (hround : round ≤ rounds) (hrounds : rounds ≤ messages) :
    (asBytes (roundRequestId requestId round rounds)).length ≤
      (asBytes (roundRequestId requestId messages messages)).length := by
  have hfirst := decimal_length_le (hround.trans hrounds)
  have hsecond := decimal_length_le hrounds
  simp only [roundRequestId,asBytes_append,List.length_append,asBytes_decimal]
  omega

variable {library}

/-- Messages with contents, no two of which share an id or a payload. -/
structure DistinctMessages (messages : List ZcashBatchMessageInput) : Prop where
  filled : ∀ message ∈ messages, message.id ≠ [] ∧ message.pcztBytes ≠ []
  ids : (messages.map (·.id)).Nodup
  payloads : (messages.map (·.pcztBytes)).Nodup

variable {messages : List ZcashBatchMessageInput}

theorem DistinctMessages.sublist {messages' : List ZcashBatchMessageInput}
    (h : DistinctMessages messages) (hsub : messages'.Sublist messages) :
    DistinctMessages messages' where
  filled := fun message hmessage => h.filled message (hsub.subset hmessage)
  ids := h.ids.sublist (hsub.map _)
  payloads := h.payloads.sublist (hsub.map _)

variable {payloads : List Bytes}

/-- Two messages of the list differ, so what is new to the messages before the first one is also new
to those up to it. -/
theorem DistinctMessages.rest_new {message : ZcashBatchMessageInput}
    {ids : List Text} (h : DistinctMessages (message :: messages))
    (hnew : ∀ other ∈ message :: messages, other.id ∉ ids ∧ other.pcztBytes ∉ payloads) :
    ∀ other ∈ messages, other.id ∉ message.id :: ids ∧
      other.pcztBytes ∉ message.pcztBytes :: payloads := by
  intro other hother
  have hids := List.nodup_cons.mp h.ids
  have hpayloads := List.nodup_cons.mp h.payloads
  have hold := hnew other (List.mem_cons_of_mem _ hother)
  constructor
  · intro hmem
    rcases List.mem_cons.mp hmem with hsame | hmem
    · exact hids.1 (List.mem_map.mpr ⟨other,hother,hsame⟩)
    · exact hold.1 hmem
  · intro hmem
    rcases List.mem_cons.mp hmem with hsame | hmem
    · exact hpayloads.1 (List.mem_map.mpr ⟨other,hother,hsame⟩)
    · exact hold.2 hmem

def PreparedAs (library : BatchLibrary Pczt) :
    List ZcashBatchMessageInput → List (PreparedZcashBatchMessage Pczt) → Prop :=
  List.Forall₂ fun message prepared => prepareZcashBatchMessage library message = .ok prepared

variable {prepared : List (PreparedZcashBatchMessage Pczt)}

theorem prepareRest_iff {ids : List Text} :
    prepareRest library ids payloads messages = .ok prepared ↔
      DistinctMessages messages ∧ PreparedAs library messages prepared ∧
        ∀ message ∈ messages, message.id ∉ ids ∧ message.pcztBytes ∉ payloads := by
  induction messages generalizing ids payloads prepared with
  | nil =>
    constructor
    · intro h
      cases h
      exact ⟨⟨by simp,List.nodup_nil,List.nodup_nil⟩,.nil,by simp⟩
    · intro h
      cases h.2.1
      rfl
  | cons message messages ih =>
    constructor
    · intro h
      by_cases hid : message.id = []
      · simp [prepareRest,hid] at h
      by_cases hseen : message.id ∈ ids
      · simp [prepareRest,hid,hseen] at h
      by_cases hpayload : message.pcztBytes = []
      · simp [prepareRest,hid,hseen,hpayload] at h
      by_cases hrepeated : message.pcztBytes ∈ payloads
      · simp [prepareRest,hid,hseen,hpayload,hrepeated] at h
      simp only [prepareRest,List.isEmpty_iff,hid,hseen,hpayload,hrepeated,if_false] at h
      obtain ⟨first,hfirst,h⟩ := bind_ok h
      obtain ⟨rest,hrest,h⟩ := bind_ok h
      cases h
      obtain ⟨hdistinct,hprepared,hnew⟩ := ih.mp hrest
      refine ⟨⟨?_,?_,?_⟩,.cons hfirst hprepared,?_⟩
      · simpa using ⟨⟨hid,hpayload⟩,hdistinct.filled⟩
      · rw [List.map_cons,List.nodup_cons]
        refine ⟨?_,hdistinct.ids⟩
        intro hmem
        obtain ⟨other,hother,hsame⟩ := List.mem_map.mp hmem
        exact (hnew other hother).1 (hsame ▸ List.mem_cons_self)
      · rw [List.map_cons,List.nodup_cons]
        refine ⟨?_,hdistinct.payloads⟩
        intro hmem
        obtain ⟨other,hother,hsame⟩ := List.mem_map.mp hmem
        exact (hnew other hother).2 (hsame ▸ List.mem_cons_self)
      · intro other hother
        rcases List.mem_cons.mp hother with rfl | hother
        · exact ⟨hseen,hrepeated⟩
        · have hother := hnew other hother
          exact ⟨fun h => hother.1 (List.mem_cons_of_mem _ h),
            fun h => hother.2 (List.mem_cons_of_mem _ h)⟩
    · intro h
      obtain ⟨hdistinct,hprepared,hnew⟩ := h
      cases hprepared with
      | cons hfirst hrest =>
        obtain ⟨hid,hpayload⟩ := hdistinct.filled message List.mem_cons_self
        obtain ⟨hseen,hrepeated⟩ := hnew message List.mem_cons_self
        have htail := ih.mpr
          ⟨hdistinct.sublist (List.sublist_cons_self _ _),hrest,hdistinct.rest_new hnew⟩
        simp only [prepareRest,List.isEmpty_iff,hid,hseen,hpayload,hrepeated,if_false,hfirst,htail,
          ok_bind]

theorem prepareZcashBatchMessages_iff : prepareZcashBatchMessages library messages = .ok prepared ↔
      DistinctMessages messages ∧ PreparedAs library messages prepared := by
  rw [prepareZcashBatchMessages,prepareRest_iff]
  simp

theorem prepared_taken (hdistinct : DistinctMessages messages)
    (hprepared : PreparedAs library messages prepared) (count : Nat) :
    prepareZcashBatchMessages library (messages.take count) = .ok (prepared.take count) :=
  prepareZcashBatchMessages_iff.mpr
    ⟨hdistinct.sublist (List.take_sublist _ _),List.forall₂_take count hprepared⟩

variable (library)

/-- The size that the planner measures for these messages as one round. -/
def MeasuresRound (requestIdLen : Nat) (round : List ZcashBatchMessageInput)
    (size : ZcashSignBatchRoundSize) : Prop :=
  ∃ prepared, prepareZcashBatchMessages library round = .ok prepared ∧
    zcashSignBatchRoundSize library prepared requestIdLen = .ok size

def FitsRound (requestIdLen : Nat) (round : List ZcashBatchMessageInput) : Prop :=
  ∃ size, MeasuresRound library requestIdLen round size ∧ size.fits requestIdLen = true

/-- These messages together are over one of the limits of a round. -/
def ExceedsLimit (requestIdLen : Nat) (round : List ZcashBatchMessageInput) : Prop :=
  ∃ size, MeasuresRound library requestIdLen round size ∧ size.fits requestIdLen = false

variable {library}

variable {requestIdLen : Nat} {size : ZcashSignBatchRoundSize}

theorem zcashSignBatchRoundSize_ok
    (h : zcashSignBatchRoundSize library prepared requestIdLen = .ok size) :
    size.compactPayloadBytes = (prepared.map (·.compactPayloadLen)).sum ∧
    size.expectedSignatureCount = (prepared.map (·.expectedSignatureCount)).sum ∧
    ∃ request cbor, library.batchSignRequest (prepared.map (·.compactPczt)) = .ok request ∧
      request.length = size.compactRequestBytes ∧
      library.zcashSignBatch (List.replicate requestIdLen 114) request = .ok cbor ∧
      cbor.length = size.compactCborBytes := by
  obtain ⟨payloadBytes,hpayload,h⟩ := bind_ok h
  obtain ⟨signatures,hsignatures,h⟩ := bind_ok h
  obtain ⟨request,hrequest,h⟩ := bind_ok h
  obtain ⟨cbor,hcbor,h⟩ := bind_ok h
  obtain ⟨resolved,_,h⟩ := bind_ok h
  cases h
  have hpayloadSum := checkedTotal_ok hpayload
  have hsignatureSum := checkedTotal_ok hsignatures
  rw [Nat.zero_add] at hpayloadSum hsignatureSum
  exact ⟨hpayloadSum,hsignatureSum,request,cbor,mapError_ok hrequest,rfl,mapError_ok hcbor,rfl⟩

theorem zcashSignBatchRoundSize_error {id : Text} :
    zcashSignBatchRoundSize library prepared requestIdLen ≠ .error (.exceedsRoundLimits id) := by
  intro h
  rcases bind_error h with hpayload | ⟨_,_,h⟩
  · cases checkedTotal_error hpayload
  rcases bind_error h with hsignatures | ⟨_,_,h⟩
  · cases checkedTotal_error hsignatures
  rcases bind_error h with hrequest | ⟨_,_,h⟩
  · obtain ⟨_,he⟩ := mapError_error hrequest
    cases he
  rcases bind_error h with hcbor | ⟨_,_,h⟩
  · obtain ⟨_,he⟩ := mapError_error hcbor
    cases he
  rcases bind_error h with hresolved | ⟨_,_,h⟩
  · obtain ⟨_,he⟩ := mapError_error hresolved
    cases he
  · cases h

theorem prepareRest_error {ids : List Text} {id : Text} :
    prepareRest library ids payloads messages ≠ .error (.exceedsRoundLimits id) := by
  induction messages generalizing ids payloads with
  | nil =>
    intro h
    cases h
  | cons message messages ih =>
    intro h
    by_cases hid : message.id = []
    · simp [prepareRest,hid] at h
    by_cases hseen : message.id ∈ ids
    · simp [prepareRest,hid,hseen] at h
    by_cases hpayload : message.pcztBytes = []
    · simp [prepareRest,hid,hseen,hpayload] at h
    by_cases hrepeated : message.pcztBytes ∈ payloads
    · simp [prepareRest,hid,hseen,hpayload,hrepeated] at h
    simp only [prepareRest,List.isEmpty_iff,hid,hseen,hpayload,hrepeated,if_false] at h
    rcases bind_error h with hfirst | ⟨_,_,h⟩
    · rcases bind_error hfirst with hparse | ⟨_,_,hfirst⟩
      · obtain ⟨_,he⟩ := mapError_error hparse
        cases he
      · rcases bind_error hfirst with hresolve | ⟨_,_,hfirst⟩
        · obtain ⟨_,he⟩ := mapError_error hresolve
          cases he
        · cases hfirst
    · rcases bind_error h with hrest | ⟨_,_,h⟩
      · exact ih hrest
      · cases h

theorem saturatingAddUsize_le_iff {a b : Nat} :
    saturatingAddUsize a b ≤ zcashSignBatchMaxTotalBytes ↔ a + b ≤ zcashSignBatchMaxTotalBytes := by
  simp only [saturatingAddUsize,zcashSignBatchMaxTotalBytes,usizeLimit]
  omega

theorem addPostcardMessages (totals : PostcardTotals Pczt) (hdistinct : DistinctMessages messages)
    (hprepared : PreparedAs library messages prepared)
    (hnew : ∀ message ∈ messages, message.id ∉ totals.ids ∧ message.pcztBytes ∉ totals.payloads)
    (hpayload : totals.payloadBytes + (prepared.map (·.compactPayloadLen)).sum ≤
      zcashSignBatchMaxTotalBytes)
    (hsignatures : totals.signatureCount + (prepared.map (·.expectedSignatureCount)).sum ≤
      zcashSignBatchMaxSignatures) :
    ∃ totals', messages.foldlM (addPostcardMessage library) totals = .ok totals' ∧
      totals'.pczts.reverse = totals.pczts.reverse ++ prepared.map (·.compactPczt) := by
  induction hprepared generalizing totals with
  | nil => exact ⟨totals,rfl,by simp⟩
  | @cons message first messages prepared hfirst hrest ih =>
    obtain ⟨pczt,hparse,hfirst⟩ := bind_ok hfirst
    obtain ⟨resolved,_,hfirst⟩ := bind_ok hfirst
    cases hfirst
    obtain ⟨hid,hbytes⟩ := hdistinct.filled message List.mem_cons_self
    obtain ⟨hseen,hrepeated⟩ := hnew message List.mem_cons_self
    simp only [List.map_cons,List.sum_cons] at hpayload hsignatures
    have hpayloadFits : totals.payloadBytes + message.pcztBytes.length < usizeLimit := by
      simp only [usizeLimit,zcashSignBatchMaxTotalBytes] at *
      omega
    have hsignatureFits : totals.signatureCount + message.expectedSignatureCount.toNat < usizeLimit := by
      simp only [usizeLimit,zcashSignBatchMaxSignatures] at *
      omega
    have hpayloadLimit : ¬ totals.payloadBytes + message.pcztBytes.length >
        zcashSignBatchMaxTotalBytes := by omega
    have hsignatureLimit : ¬ totals.signatureCount + message.expectedSignatureCount.toNat >
        zcashSignBatchMaxSignatures := by omega
    let next : PostcardTotals Pczt := {
      ids := message.id :: totals.ids
      payloads := message.pcztBytes :: totals.payloads
      pczts := pczt :: totals.pczts
      payloadBytes := totals.payloadBytes + message.pcztBytes.length
      signatureCount := totals.signatureCount + message.expectedSignatureCount.toNat }
    have hstep : addPostcardMessage library totals message = .ok next := by
      simp only [addPostcardMessage,List.isEmpty_iff,hid,hseen,hbytes,hrepeated,if_false,checkedUsize,
        hpayloadFits,hsignatureFits,if_true,orFail,ok_bind,hpayloadLimit,hsignatureLimit,
        mapError_ok hparse,Except.mapError,next]
    have hnextPayload : next.payloadBytes + (prepared.map (·.compactPayloadLen)).sum ≤
        zcashSignBatchMaxTotalBytes := by simpa [next,Nat.add_assoc] using hpayload
    have hnextSignatures : next.signatureCount + (prepared.map (·.expectedSignatureCount)).sum ≤
        zcashSignBatchMaxSignatures := by simpa [next,Nat.add_assoc] using hsignatures
    rw [List.foldlM_cons,hstep,ok_bind]
    obtain ⟨totals',hrun,hpczts⟩ := ih next (hdistinct.sublist (List.sublist_cons_self _ _))
      (hdistinct.rest_new hnew) hnextPayload hnextSignatures
    exact ⟨totals',hrun,by simp [hpczts,next]⟩

theorem encode_of_fits (hmono : library.EnvelopeMonotone) {requestId : Text}
    {round : List ZcashBatchMessageInput} (hid : requestId ≠ [])
    (hidLen : (asBytes requestId).length ≤ requestIdLen) (hround : round ≠ [])
    (hcount : round.length ≤ zcashSignBatchMaxMessages) (hfits : FitsRound library requestIdLen round) :
    ∃ cbor, encodeZcashSignBatchCbor library requestId round = .ok cbor := by
  obtain ⟨size,⟨prepared,hprepare,hsize⟩,hfits⟩ := hfits
  obtain ⟨hdistinct,hprepared⟩ := prepareZcashBatchMessages_iff.mp hprepare
  obtain ⟨hpayload,hsignatures,request,cbor,hrequest,hrequestLen,hcbor,hcborLen⟩ :=
    zcashSignBatchRoundSize_ok hsize
  simp only [ZcashSignBatchRoundSize.fits,Bool.and_eq_true,decide_eq_true_eq,
    saturatingAddUsize_le_iff] at hfits
  have hbytes : saturatingAddUsize (asBytes requestId).length request.length ≤
      zcashSignBatchMaxTotalBytes := by
    rw [saturatingAddUsize_le_iff]
    omega
  obtain ⟨totals,htotals,hpczts⟩ := addPostcardMessages ⟨[],[],[],0,0⟩ hdistinct hprepared
    (by simp) (by simpa [← hpayload] using hfits.1.1.1.1) (by simpa [← hsignatures] using hfits.2)
  have hpostcard : encodeZcashSignBatchPostcard library round = .ok request := by
    have hpcztList : totals.pczts.reverse = prepared.map (·.compactPczt) := by simpa using hpczts
    have hlimits : ¬ (round.isEmpty ∨ round.length > zcashSignBatchMaxMessages) := by
      simp [hround,hcount]
    rw [encodeZcashSignBatchPostcard,if_neg hlimits,htotals,ok_bind,hpcztList,hrequest]
    rfl
  obtain ⟨own,hown,hownLen⟩ := hmono _ (asBytes requestId) request cbor (by simpa using hidLen) hcbor
  have hqr : ¬ own.length > zcashSignBatchMaxCompactCborBytes := by omega
  have hidEmpty : ¬ requestId.isEmpty = true := by simp [hid]
  refine ⟨own,?_⟩
  rw [encodeZcashSignBatchCbor,if_neg hidEmpty,hpostcard,ok_bind,if_neg (by omega),hown]
  simp only [Except.mapError,ok_bind,hqr,if_false]

variable (library)

/-- The round that begins at the first of these messages takes `count` of them: they fit, and one
more would be over a limit or is not there. -/
structure PlannedRound (roundLimit requestIdLen : Nat) (rest : List ZcashBatchMessageInput)
    (count : Nat) : Prop where
  pos : 0 < count
  available : count ≤ rest.length
  limited : count ≤ roundLimit
  fits : FitsRound library requestIdLen (rest.take count)
  maximal : count = rest.length ∨ count = roundLimit ∨
    ExceedsLimit library requestIdLen (rest.take (count + 1))

variable {library}

theorem measuresRound_of_probe {count : Nat} (hdistinct : DistinctMessages messages)
    (hprepared : PreparedAs library messages prepared)
    (h : zcashSignBatchRoundSize library (prepared.take count) requestIdLen = .ok size) :
    MeasuresRound library requestIdLen (messages.take count) size :=
  ⟨prepared.take count,prepared_taken hdistinct hprepared count,h⟩

theorem plannedRound_of_search {roundLimit count : Nat} (hdistinct : DistinctMessages messages)
    (hprepared : PreparedAs library messages prepared)
    (h : bisect (fun count => zcashSignBatchRoundSize library (prepared.take count) requestIdLen)
      (fun size => size.fits requestIdLen) 1 (min prepared.length roundLimit) Nat.one_pos none =
      .ok (some (count,size))) : PlannedRound library roundLimit requestIdLen messages count := by
  obtain ⟨hpos,hbound,⟨hsize,hfits⟩,hmax⟩ := bisect_some h
  have hlength : messages.length = prepared.length := hprepared.length_eq
  refine ⟨hpos,by omega,by omega,⟨size,measuresRound_of_probe hdistinct hprepared hsize,hfits⟩,?_⟩
  rcases hmax with hmax | hmax
  · omega
  · obtain ⟨larger,hlarger,hexceeds⟩ := hmax
    exact .inr (.inr ⟨larger,measuresRound_of_probe hdistinct hprepared hlarger,hexceeds⟩)

theorem planRounds_ok {roundLimit fuel : Nat} {counts : List Nat} (hfuel : messages.length ≤ fuel)
    (hdistinct : DistinctMessages messages) (hprepared : PreparedAs library messages prepared)
    (h : planRounds library roundLimit requestIdLen fuel messages prepared = .ok counts) :
    counts.sum = messages.length ∧ ∀ x count, counts[x]? = some count →
      PlannedRound library roundLimit requestIdLen (messages.drop (counts.take x).sum) count := by
  induction fuel generalizing messages prepared counts with
  | zero =>
    obtain rfl : messages = [] := List.length_eq_zero_iff.mp (by omega)
    cases h
    simp
  | succ fuel ih =>
    cases messages with
    | nil =>
      cases h
      simp
    | cons message messages =>
      obtain ⟨best,hbest,h⟩ := bind_ok h
      cases best with
      | none => cases h
      | some best =>
        obtain ⟨count,size⟩ := best
        have hround := plannedRound_of_search hdistinct hprepared hbest
        obtain ⟨count',hcount',h⟩ := bind_ok h
        obtain ⟨rfl,_⟩ := u32TryFrom_eq_some.mp (orFail_ok hcount')
        obtain ⟨rest,hrest,h⟩ := bind_ok h
        cases h
        have hpos := hround.pos
        have havailable := hround.available
        have hrestLength : ((message :: messages).drop count).length ≤ fuel := by
          rw [List.length_drop]
          omega
        obtain ⟨hsum,hrounds⟩ := ih hrestLength
          (hdistinct.sublist (List.drop_sublist _ _)) (List.forall₂_drop count hprepared) hrest
        constructor
        · rw [List.sum_cons,hsum,List.length_drop]
          omega
        · intro x taken hx
          cases x with
          | zero =>
            cases hx
            exact hround
          | succ x =>
            have hplanned := hrounds x taken hx
            rwa [List.drop_drop] at hplanned

theorem planRounds_error {roundLimit fuel : Nat} {id : Text} (hlimit : 0 < roundLimit)
    (hdistinct : DistinctMessages messages) (hprepared : PreparedAs library messages prepared)
    (h : planRounds library roundLimit requestIdLen fuel messages prepared =
      .error (.exceedsRoundLimits id)) :
    ∃ message ∈ messages, message.id = id ∧ ExceedsLimit library requestIdLen [message] := by
  induction fuel generalizing messages prepared with
  | zero => cases h
  | succ fuel ih =>
    cases messages with
    | nil => cases h
    | cons message messages =>
      rcases bind_error h with hbest | ⟨best,hbest,h⟩
      · obtain ⟨_,hsize⟩ := bisect_error hbest
        exact absurd hsize zcashSignBatchRoundSize_error
      · cases best with
        | none =>
          cases h
          have hlength : (message :: messages).length = prepared.length := hprepared.length_eq
          have hsome : 0 < min prepared.length roundLimit := by
            rw [List.length_cons] at hlength
            omega
          obtain ⟨size,hsize,hexceeds⟩ := bisect_none hsome hbest
          exact ⟨message,List.mem_cons_self,rfl,size,
            measuresRound_of_probe hdistinct hprepared hsize,hexceeds⟩
        | some best =>
          rcases bind_error h with hcount | ⟨count,_,h⟩
          · cases orFail_error hcount
          · rcases bind_error h with hrest | ⟨_,_,h⟩
            · obtain ⟨other,hother,hfound⟩ := ih (hdistinct.sublist (List.drop_sublist _ _))
                (List.forall₂_drop count hprepared) hrest
              exact ⟨other,List.mem_of_mem_drop hother,hfound⟩
            · cases h

variable (library)

/-- The length of the longest id that a round of these messages can have. -/
def maxRoundRequestIdLen (requestId : Text) (messages : List ZcashBatchMessageInput) : Nat :=
  (asBytes (roundRequestId requestId messages.length messages.length)).length

/-- What is planned can be shown. The rounds take all messages, each as many as the limits allow,
and the encoder accepts every round under its own id; when a round cannot be planned, one message
is over a limit by itself. -/
theorem signingRounds_encode (hmono : library.EnvelopeMonotone) (requestId : Text)
    (messages : List ZcashBatchMessageInput) (maxMessages : Nat) :
    (∀ counts, zcashSignBatchRoundMessageCounts library requestId messages maxMessages = .ok counts →
      (∀ count ∈ counts, 0 < count) ∧ counts.sum = messages.length ∧
      ∀ x count, counts[x]? = some count →
        (count = (messages.drop (counts.take x).sum).length ∨
          count = min maxMessages zcashSignBatchMaxMessages ∨
          ExceedsLimit library (maxRoundRequestIdLen requestId messages)
            ((messages.drop (counts.take x).sum).take (count + 1))) ∧
        ∃ cbor, encodeZcashSignBatchCbor library (roundRequestId requestId (x + 1) counts.length)
            ((messages.drop (counts.take x).sum).take count) = .ok cbor ∧
          ∀ maxFragmentLen, encodeZcashSignBatchUrParts library
            (roundRequestId requestId (x + 1) counts.length)
            ((messages.drop (counts.take x).sum).take count) maxFragmentLen =
              (library.urParts cbor maxFragmentLen).mapError .urEncoder) ∧
    ∀ id, zcashSignBatchRoundMessageCounts library requestId messages maxMessages =
        .error (.exceedsRoundLimits id) →
      ∃ message ∈ messages, message.id = id ∧
        ExceedsLimit library (maxRoundRequestIdLen requestId messages) [message] := by
  by_cases hid : requestId = []
  · simp [zcashSignBatchRoundMessageCounts,hid]
  by_cases hempty : messages = []
  · simp [zcashSignBatchRoundMessageCounts,hid,hempty]
  by_cases hzero : maxMessages = 0
  · simp [zcashSignBatchRoundMessageCounts,hid,hempty,hzero]
  simp only [zcashSignBatchRoundMessageCounts,List.isEmpty_iff,hid,hempty,hzero,if_false]
  constructor
  · intro counts h
    obtain ⟨prepared,hprepare,h⟩ := bind_ok h
    obtain ⟨hdistinct,hprepared⟩ := prepareZcashBatchMessages_iff.mp hprepare
    obtain ⟨hsum,hrounds⟩ := planRounds_ok (le_refl _) hdistinct hprepared h
    have hpos : ∀ count ∈ counts, 0 < count := by
      intro count hcount
      obtain ⟨x,hx⟩ := List.mem_iff_getElem?.mp hcount
      exact (hrounds x count hx).pos
    have hmany : counts.length ≤ messages.length := by
      rw [← hsum]
      exact List.length_le_sum_of_one_le counts hpos
    refine ⟨hpos,hsum,?_⟩
    intro x count hx
    have hround := hrounds x count hx
    have hxlt : x < counts.length := (List.getElem?_eq_some_iff.mp hx).1
    have hlength : ((messages.drop (counts.take x).sum).take count).length = count := by
      rw [List.length_take]
      exact Nat.min_eq_left hround.available
    have hcbor : ∃ cbor, encodeZcashSignBatchCbor library
        (roundRequestId requestId (x + 1) counts.length)
        ((messages.drop (counts.take x).sum).take count) = .ok cbor := by
      apply encode_of_fits hmono ?_ (roundRequestId_length_le requestId hxlt hmany) ?_ ?_ hround.fits
      · simp [roundRequestId]
      · intro hnone
        have hcountPos := hround.pos
        rw [hnone] at hlength
        simp only [List.length_nil] at hlength
        omega
      · have hlimited := hround.limited
        omega
    obtain ⟨cbor,hcbor⟩ := hcbor
    refine ⟨hround.maximal,cbor,hcbor,?_⟩
    intro maxFragmentLen
    rw [encodeZcashSignBatchUrParts,hcbor,ok_bind]
  · intro id h
    rcases bind_error h with hprepare | ⟨prepared,hprepare,h⟩
    · exact absurd hprepare prepareRest_error
    · obtain ⟨hdistinct,hprepared⟩ := prepareZcashBatchMessages_iff.mp hprepare
      have hlimit : 0 < min maxMessages zcashSignBatchMaxMessages := by
        simp only [zcashSignBatchMaxMessages]
        omega
      exact planRounds_error hlimit hdistinct hprepared h

/-- A CBOR byte string. -/
def cborByteString (bytes : Bytes) : Bytes :=
  if bytes.length < 24 then UInt8.ofNat (64 + bytes.length) :: bytes
  else if bytes.length < 256 then 88 :: UInt8.ofNat bytes.length :: bytes
  else if bytes.length < 65536 then 89 :: (leBytes 2 bytes.length).reverse ++ bytes
  else 90 :: (leBytes 4 bytes.length).reverse ++ bytes

theorem cborByteString_length_le {bytes bytes' : Bytes} (h : bytes'.length ≤ bytes.length) :
    (cborByteString bytes').length ≤ (cborByteString bytes).length := by
  simp only [cborByteString]
  split_ifs <;> simp <;> omega

/-- A library whose PCZTs are their bytes, with a version and a count before them in a request. -/
def plainLibrary : BatchLibrary Bytes where
  parse := .ok
  resolveFields := .ok
  batchSignRequest := fun pczts => .ok (1 :: UInt8.ofNat pczts.length :: pczts.flatten)
  zcashSignBatch := fun id request => .ok (162 :: 1 :: cborByteString id ++ 2 :: cborByteString request)
  urParts := fun _ _ => .ok []

theorem plainLibrary_monotone : plainLibrary.EnvelopeMonotone := by
  intro id id' request cbor hlength h
  cases h
  have hid := cborByteString_length_le hlength
  refine ⟨_,rfl,?_⟩
  simp
  omega

theorem signingRounds_encode_pair :
    zcashSignBatchRoundMessageCounts plainLibrary ['r'] [⟨['a'],[1],1⟩,⟨['b'],[2],1⟩] 1 =
      .ok [1,1] ∧
    ∃ cbor, encodeZcashSignBatchCbor plainLibrary (roundRequestId ['r'] 2 2) [⟨['b'],[2],1⟩] =
      .ok cbor := by
  have hplan : zcashSignBatchRoundMessageCounts plainLibrary ['r']
      [⟨['a'],[1],1⟩,⟨['b'],[2],1⟩] 1 = .ok [1,1] := by
    decide +kernel
  obtain ⟨cbor,hcbor,_⟩ := (((signingRounds_encode plainLibrary plainLibrary_monotone ['r']
    [⟨['a'],[1],1⟩,⟨['b'],[2],1⟩] 1).1 [1,1] hplan).2.2 1 1 rfl).2
  exact ⟨hplan,cbor,hcbor⟩

end CoppiceWallet.Keystone
