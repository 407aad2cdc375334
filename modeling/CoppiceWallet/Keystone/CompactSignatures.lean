import CoppiceWallet.Lib.ByteRecords
import CoppiceWallet.Store.Model

/-!
# The compact form of the device's signatures

The signatures of a message are stored as one blob: their number, then one record of 69 bytes for
each.
-/

namespace CoppiceWallet.Keystone

open CoppiceWallet.Lib CoppiceWallet.Store

/-- A `usize` has 64 bits. -/
def usizeLimit : Nat := 2 ^ 64

def checkedUsize (n : Nat) : Option Nat := if n < usizeLimit then some n else none

def u32TryFrom (n : Nat) : Option Nat := if n < u32Limit then some n else none

theorem checkedUsize_eq_some {n m : Nat} : checkedUsize n = some m ↔ n = m ∧ n < usizeLimit := by
  by_cases h : n < usizeLimit <;> simp [checkedUsize,h]

theorem u32TryFrom_eq_some {n m : Nat} : u32TryFrom n = some m ↔ n = m ∧ n < u32Limit := by
  by_cases h : n < u32Limit <;> simp [u32TryFrom,h]

inductive ValuePool
  | orchard
  | ironwood
  deriving DecidableEq

def zcashSigPoolOrchard : Nat := 0

def zcashSigPoolIronwood : Nat := 1

def zcashSigLen : Nat := 64

structure SpendAuthSignature where
  valuePool : ValuePool
  actionIndex : Nat
  signature : Vector UInt8 zcashSigLen
  deriving DecidableEq

def compactActionSigLen : Nat := 1 + 4 + zcashSigLen

def encodeSignaturePool : ValuePool → UInt8
  | .orchard => 0
  | .ironwood => 1

def decodeSignaturePool (pool : Nat) : StoreResult ValuePool :=
  if pool = zcashSigPoolOrchard then .ok .orchard
  else if pool = zcashSigPoolIronwood then .ok .ironwood
  else .error s!"Unsupported zcash-batch-sig-result pool {pool}"

/-- One record: the pool, the action index and the signature. -/
def encodeSignatureRecord (sig : SpendAuthSignature) : StoreResult Bytes := do
  let actionIndex ← okOr (u32TryFrom sig.actionIndex) "Compact signature action index exceeds u32"
  .ok (encodeSignaturePool sig.valuePool :: leBytes 4 actionIndex ++ sig.signature.toList)

def signatureOfBytes (bytes : Bytes) : StoreResult (Vector UInt8 zcashSigLen) :=
  if h : bytes.length = zcashSigLen then .ok ⟨bytes.toArray,h⟩
  else .error "Compact signature record has wrong signature length"

def decodeSignatureRecord : Bytes → StoreResult SpendAuthSignature
  | pool :: b₁ :: b₂ :: b₃ :: b₄ :: rest => do
    let valuePool ← decodeSignaturePool pool.toNat
    let signature ← signatureOfBytes rest
    .ok ⟨valuePool,leValue [b₁,b₂,b₃,b₄],signature⟩
  -- Indexing such a record would panic; a record has 69 bytes.
  | _ => .error "index out of bounds"

theorem decodeSignaturePool_encode (valuePool : ValuePool) :
    decodeSignaturePool (encodeSignaturePool valuePool).toNat = .ok valuePool := by
  cases valuePool <;> rfl

theorem encodeSignaturePool_decode {pool : UInt8} {valuePool : ValuePool}
    (h : decodeSignaturePool pool.toNat = .ok valuePool) : encodeSignaturePool valuePool = pool := by
  apply UInt8.toNat_inj.mp
  by_cases horchard : pool.toNat = zcashSigPoolOrchard
  · rw [decodeSignaturePool,if_pos horchard] at h
    cases h
    exact horchard.symm
  · by_cases hironwood : pool.toNat = zcashSigPoolIronwood
    · rw [decodeSignaturePool,if_neg horchard,if_pos hironwood] at h
      cases h
      exact hironwood.symm
    · rw [decodeSignaturePool,if_neg horchard,if_neg hironwood] at h
      cases h

theorem encodeSignatureRecord_ok {sig : SpendAuthSignature} {record : Bytes}
    (h : encodeSignatureRecord sig = .ok record) : sig.actionIndex < u32Limit ∧
      record = encodeSignaturePool sig.valuePool :: leBytes 4 sig.actionIndex ++
        sig.signature.toList := by
  obtain ⟨index,hindex,h⟩ := bind_ok h
  obtain ⟨rfl,hlt⟩ := u32TryFrom_eq_some.mp (okOr_ok hindex)
  cases h
  exact ⟨hlt,rfl⟩

/-- The record of a signature, as the codec of the whole blob uses it. -/
def signatureRecords : RecordCodec String SpendAuthSignature UInt8 where
  width := compactActionSigLen
  encode := encodeSignatureRecord
  decode := decodeSignatureRecord
  encode_length := by
    intro sig record h
    obtain ⟨_,rfl⟩ := encodeSignatureRecord_ok h
    simp [compactActionSigLen]
    omega
  decode_encode := by
    intro sig record h
    obtain ⟨hindex,rfl⟩ := encodeSignatureRecord_ok h
    have hvalue : leValue (leBytes 4 sig.actionIndex) = sig.actionIndex := leValue_leBytes hindex
    simp only [leBytes] at hvalue
    have hsignature : signatureOfBytes sig.signature.toList = .ok sig.signature := by
      simp [signatureOfBytes]
      rfl
    simp [decodeSignatureRecord,leBytes,decodeSignaturePool_encode,hsignature,hvalue,ok_bind]
  encode_decode := by
    intro sig record hlength h
    match record with
    | pool :: b₁ :: b₂ :: b₃ :: b₄ :: rest =>
      obtain ⟨valuePool,hpool,h⟩ := bind_ok h
      obtain ⟨signature,hsig,h⟩ := bind_ok h
      cases h
      have hindex : leValue [b₁,b₂,b₃,b₄] < u32Limit := by
        have hlt := leValue_lt [b₁,b₂,b₃,b₄]
        simpa [u32Limit] using hlt
      have hbytes : leBytes 4 (leValue [b₁,b₂,b₃,b₄]) = [b₁,b₂,b₃,b₄] :=
        leBytes_leValue [b₁,b₂,b₃,b₄]
      have hrest : signature.toList = rest := by
        by_cases hlen : rest.length = zcashSigLen
        · rw [signatureOfBytes,dif_pos hlen] at hsig
          cases hsig
          rfl
        · rw [signatureOfBytes,dif_neg hlen] at hsig
          cases hsig
      simp [encodeSignatureRecord,u32TryFrom,hindex,okOr,ok_bind,hbytes,hrest,
        encodeSignaturePool_decode hpool]

def encodeCompactActionSigs (sigs : List SpendAuthSignature) : StoreResult Bytes := do
  let count ← okOr (u32TryFrom sigs.length) "Too many compact signatures to encode"
  let bodyLen ← okOr (checkedUsize (sigs.length * compactActionSigLen))
    "Compact signature blob length overflow"
  let _ ← okOr (checkedUsize (bodyLen + 4)) "Compact signature blob length overflow"
  let records ← signatureRecords.encodeAll sigs
  .ok (leBytes 4 count ++ records)

def decodeCompactActionSigs (bytes : Bytes) : StoreResult (List SpendAuthSignature) :=
  if bytes.length < 4 then .error "Compact signature blob is too short for its count header"
  else do
    let count := leValue (bytes.take 4)
    let body := bytes.drop 4
    let expected ← okOr (checkedUsize (count * compactActionSigLen))
      "Compact signature blob length overflow"
    if body.length ≠ expected then
      .error s!"Compact signature blob has {body.length} body bytes, expected {expected} for {count} signatures"
    else signatureRecords.decodeAll (body.length / compactActionSigLen) body

theorem usize_bodyLen {count : Nat} (h : count < u32Limit) :
    count * compactActionSigLen + 4 < usizeLimit := by
  simp only [u32Limit,compactActionSigLen,zcashSigLen,usizeLimit] at *
  omega

variable {bytes : Bytes} {sigs : List SpendAuthSignature}

theorem encodeCompactActionSigs_iff :
    encodeCompactActionSigs sigs = .ok bytes ↔ sigs.length < u32Limit ∧
      ∃ records, signatureRecords.encodeAll sigs = .ok records ∧
        bytes = leBytes 4 sigs.length ++ records := by
  by_cases hcount : sigs.length < u32Limit
  · have htotal := usize_bodyLen hcount
    have hbody : sigs.length * compactActionSigLen < usizeLimit := by omega
    simp only [encodeCompactActionSigs,u32TryFrom,hcount,if_true,okOr,checkedUsize,hbody,htotal,
      ok_bind,true_and]
    constructor
    · intro h
      obtain ⟨records,hrecords,h⟩ := bind_ok h
      exact ⟨records,hrecords,(Except.ok.inj h).symm⟩
    · intro h
      obtain ⟨records,hrecords,h⟩ := h
      rw [hrecords,h]
      rfl
  · simp [encodeCompactActionSigs,u32TryFrom,hcount,okOr]
    intro h
    cases h

theorem decodeCompactActionSigs_iff : decodeCompactActionSigs bytes = .ok sigs ↔
      bytes.length = 4 + leValue (bytes.take 4) * compactActionSigLen ∧
        signatureRecords.decodeAll (leValue (bytes.take 4)) (bytes.drop 4) = .ok sigs := by
  by_cases hshort : bytes.length < 4
  · rw [decodeCompactActionSigs,if_pos hshort]
    constructor
    · intro h
      cases h
    · intro h
      omega
  · have hcount : leValue (bytes.take 4) < u32Limit := by
      have h := leValue_lt (bytes.take 4)
      rwa [List.length_take,Nat.min_eq_left (by omega)] at h
    have htotal := usize_bodyLen hcount
    have hexpected : leValue (bytes.take 4) * compactActionSigLen < usizeLimit := by omega
    rw [decodeCompactActionSigs,if_neg hshort]
    simp only [checkedUsize,hexpected,if_true,okOr,ok_bind]
    by_cases hbody : (bytes.drop 4).length = leValue (bytes.take 4) * compactActionSigLen
    · have hdiv : (bytes.drop 4).length / compactActionSigLen = leValue (bytes.take 4) := by
        rw [hbody]
        exact Nat.mul_div_cancel _ (by decide)
      have hlength : bytes.length = 4 + leValue (bytes.take 4) * compactActionSigLen := by
        rw [List.length_drop] at hbody
        omega
      rw [if_neg (not_not_intro hbody),hdiv]
      exact (and_iff_right hlength).symm
    · rw [if_pos hbody]
      constructor
      · intro h
        cases h
      · intro h
        rw [List.length_drop] at hbody
        omega

theorem encodeCompactActionSigs_exists (hcount : sigs.length < u32Limit)
    (hindex : ∀ sig ∈ sigs, sig.actionIndex < u32Limit) :
    ∃ bytes, encodeCompactActionSigs sigs = .ok bytes := by
  have hrecords : ∃ records, signatureRecords.encodeAll sigs = .ok records := by
    apply signatureRecords.encodeAll_exists
    intro sig hsig
    simp [signatureRecords,encodeSignatureRecord,u32TryFrom,hindex sig hsig,okOr,ok_bind]
  obtain ⟨records,hrecords⟩ := hrecords
  exact ⟨_,encodeCompactActionSigs_iff.mpr ⟨hcount,records,hrecords,rfl⟩⟩

theorem decode_of_encode (h : encodeCompactActionSigs sigs = .ok bytes) :
    decodeCompactActionSigs bytes = .ok sigs := by
  obtain ⟨hcount,records,hrecords,rfl⟩ := encodeCompactActionSigs_iff.mp h
  have hvalue : leValue (leBytes 4 sigs.length) = sigs.length := leValue_leBytes hcount
  have hlength := signatureRecords.encodeAll_length hrecords
  apply decodeCompactActionSigs_iff.mpr
  rw [List.take_left' (leBytes_length 4 _),List.drop_left' (leBytes_length 4 _),hvalue,
    List.length_append,leBytes_length,hlength]
  exact ⟨rfl,signatureRecords.decodeAll_encodeAll hrecords⟩

theorem encode_of_decode (h : decodeCompactActionSigs bytes = .ok sigs) :
    encodeCompactActionSigs sigs = .ok bytes := by
  obtain ⟨hlength,hread⟩ := decodeCompactActionSigs_iff.mp h
  have hheader : (bytes.take 4).length = 4 := by
    rw [List.length_take]
    omega
  have hbody : (bytes.drop 4).length = leValue (bytes.take 4) * compactActionSigLen := by
    rw [List.length_drop]
    omega
  obtain ⟨hcount,hrecords⟩ := signatureRecords.encodeAll_decodeAll hbody hread
  have hlt : leValue (bytes.take 4) < u32Limit := by
    have hlt := leValue_lt (bytes.take 4)
    rwa [hheader] at hlt
  have hbytes : leBytes 4 (leValue (bytes.take 4)) = bytes.take 4 := by
    have hbytes := leBytes_leValue (bytes.take 4)
    rwa [hheader] at hbytes
  apply encodeCompactActionSigs_iff.mpr
  rw [hcount]
  exact ⟨hlt,_,hrecords,by rw [hbytes,List.take_append_drop]⟩

variable {sigs' : List SpendAuthSignature}

theorem decoded_length_eq {bytes' : Bytes} (h : decodeCompactActionSigs bytes = .ok sigs)
    (h' : decodeCompactActionSigs bytes' = .ok sigs') (hheader : bytes.take 4 = bytes'.take 4) :
    bytes.length = bytes'.length := by
  have hlength := (decodeCompactActionSigs_iff.mp h).1
  have hlength' := (decodeCompactActionSigs_iff.mp h').1
  rw [hlength,hlength',hheader]

theorem truncated_not_decoded (h : decodeCompactActionSigs bytes = .ok sigs) {n : Nat}
    (hn : n < bytes.length) : decodeCompactActionSigs (bytes.take n) ≠ .ok sigs' := by
  intro h'
  have hlong := (decodeCompactActionSigs_iff.mp h').1
  rw [List.length_take] at hlong
  have hheader : (bytes.take n).take 4 = bytes.take 4 := by
    rw [List.take_take,Nat.min_eq_left (by omega)]
  have hsame := decoded_length_eq h' h hheader
  rw [List.length_take] at hsame
  omega

theorem extended_not_decoded {extra : Bytes} (h : decodeCompactActionSigs bytes = .ok sigs)
    (hextra : extra ≠ []) : decodeCompactActionSigs (bytes ++ extra) ≠ .ok sigs' := by
  intro h'
  have hlong := (decodeCompactActionSigs_iff.mp h).1
  have hheader : (bytes ++ extra).take 4 = bytes.take 4 := List.take_append_of_le_length (by omega)
  have hsame := decoded_length_eq h' h hheader
  have hpos := List.length_pos_iff.mpr hextra
  rw [List.length_append] at hsame
  omega

theorem decodeSignatureRecord_foreign {record : Bytes} {pool : UInt8}
    (hpool : record.head? = some pool) (hforeign : 1 < pool.toNat) :
    ∃ e, decodeSignatureRecord record = .error e := by
  have herror : ∃ e, decodeSignaturePool pool.toNat = .error e := by
    have horchard : pool.toNat ≠ zcashSigPoolOrchard := Nat.ne_of_gt (Nat.zero_lt_of_lt hforeign)
    have hironwood : pool.toNat ≠ zcashSigPoolIronwood := Nat.ne_of_gt hforeign
    rw [decodeSignaturePool,if_neg horchard,if_neg hironwood]
    exact ⟨_,rfl⟩
  obtain ⟨e,he⟩ := herror
  match record with
  | first :: b₁ :: b₂ :: b₃ :: b₄ :: rest =>
    obtain rfl : first = pool := by simpa using hpool
    simp only [decodeSignatureRecord,he]
    exact ⟨e,rfl⟩
  | [] | [_] | [_,_] | [_,_,_] | [_,_,_,_] => exact ⟨_,rfl⟩

theorem foreign_not_decoded {i : Nat} {pool : UInt8} (hi : i < leValue (bytes.take 4))
    (hpool : bytes[4 + i * compactActionSigLen]? = some pool) (hforeign : 1 < pool.toNat) :
    decodeCompactActionSigs bytes ≠ .ok sigs := by
  intro h
  have hread := (decodeCompactActionSigs_iff.mp h).2
  have hhead : (((bytes.drop 4).drop (i * compactActionSigLen)).take compactActionSigLen).head? =
      some pool := by
    rw [List.head?_take,if_neg (by decide),List.head?_drop,List.getElem?_drop,hpool]
  obtain ⟨e,he⟩ := decodeSignatureRecord_foreign hhead hforeign
  obtain ⟨e',he'⟩ := mapM_error_of_mem (mem_chunksExact hi) he
  have hfailed : signatureRecords.decodeAll (leValue (bytes.take 4)) (bytes.drop 4) = .error e' :=
    he'
  rw [hfailed] at hread
  cases hread

/-- What is encoded is read back, what is read is the encoding of what was read, and so a blob that
was cut short, made longer or names another pool is rejected. -/
theorem compactActionSigs_lossless :
    (∀ sigs : List SpendAuthSignature, sigs.length ≤ 2 ^ 32 - 1 →
      (∀ sig ∈ sigs, sig.actionIndex < 2 ^ 32) →
      (encodeCompactActionSigs sigs >>= decodeCompactActionSigs) = .ok sigs) ∧
    (∀ (bytes : Bytes) (sigs : List SpendAuthSignature), decodeCompactActionSigs bytes = .ok sigs →
      encodeCompactActionSigs sigs = .ok bytes) ∧
    (∀ (sigs : List SpendAuthSignature) (bytes : Bytes), encodeCompactActionSigs sigs = .ok bytes →
      (∀ n < bytes.length, ∃ e, decodeCompactActionSigs (bytes.take n) = .error e) ∧
      ∀ extra ≠ [], ∃ e, decodeCompactActionSigs (bytes ++ extra) = .error e) ∧
    (∀ (bytes : Bytes) (i : Nat) (pool : UInt8), i < leValue (bytes.take 4) →
      bytes[4 + i * compactActionSigLen]? = some pool → 1 < pool.toNat →
      ∃ e, decodeCompactActionSigs bytes = .error e) := by
  refine ⟨?_,fun _ _ => encode_of_decode,?_,?_⟩
  · intro sigs hcount hindex
    have hlt : sigs.length < u32Limit := by
      simp only [u32Limit]
      omega
    obtain ⟨bytes,hbytes⟩ := encodeCompactActionSigs_exists hlt hindex
    rw [hbytes,ok_bind]
    exact decode_of_encode hbytes
  · intro sigs bytes h
    have hread := decode_of_encode h
    constructor
    · intro n hn
      exact exists_error fun _ => truncated_not_decoded hread hn
    · intro extra hextra
      exact exists_error fun _ => extended_not_decoded hread hextra
  · intro bytes i pool hi hpool hforeign
    exact exists_error fun _ => foreign_not_decoded hi hpool hforeign

theorem compactActionSigs_lossless_single :
    (encodeCompactActionSigs [⟨.ironwood,7,Vector.replicate 64 1⟩] >>= decodeCompactActionSigs) =
      .ok [⟨.ironwood,7,Vector.replicate 64 1⟩] :=
  compactActionSigs_lossless.1 _ (by simp) (by simp)

end CoppiceWallet.Keystone
