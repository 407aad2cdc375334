import CoppiceWallet.Lib.Lists
import CoppiceWallet.Lib.Result

/-!
# Little-endian words and records of one width

A word of fixed width and its number determine each other. So do a list of values and the
concatenation of their records, when all records have one width.
-/

namespace CoppiceWallet.Lib

/-- The `width` little-endian bytes of a number. -/
def leBytes : Nat → Nat → List UInt8
  | 0, _ => []
  | width + 1, n => UInt8.ofNat n :: leBytes width (n / 256)

def leValue : List UInt8 → Nat
  | [] => 0
  | byte :: bytes => byte.toNat + 256 * leValue bytes

@[simp] theorem leBytes_length (width n : Nat) : (leBytes width n).length = width := by
  induction width generalizing n with
  | zero => rfl
  | succ width ih => simp [leBytes,ih]

theorem leValue_leBytes {width n : Nat} (h : n < 256 ^ width) : leValue (leBytes width n) = n := by
  induction width generalizing n with
  | zero =>
    have hn : n = 0 := by simpa using h
    simp [leBytes,leValue,hn]
  | succ width ih =>
    have hrest : n / 256 < 256 ^ width := by
      apply Nat.div_lt_of_lt_mul
      rwa [Nat.pow_succ,Nat.mul_comm] at h
    simp only [leBytes,leValue,ih hrest,UInt8.toNat_ofNat']
    omega

theorem leValue_lt (bytes : List UInt8) : leValue bytes < 256 ^ bytes.length := by
  induction bytes with
  | nil => simp [leValue]
  | cons byte bytes ih =>
    have hbyte := byte.toNat_lt
    simp only [leValue,List.length_cons,Nat.pow_succ]
    omega

theorem leBytes_leValue (bytes : List UInt8) : leBytes bytes.length (leValue bytes) = bytes := by
  induction bytes with
  | nil => rfl
  | cons byte bytes ih =>
    have hbyte := byte.toNat_lt
    have hhead : UInt8.ofNat (byte.toNat + 256 * leValue bytes) = byte := by
      apply UInt8.toNat_inj.mp
      rw [UInt8.toNat_ofNat']
      omega
    have htail : (byte.toNat + 256 * leValue bytes) / 256 = leValue bytes := by omega
    simp only [List.length_cons,leBytes,leValue,hhead,htail,ih]

/-- A partial encoding of values as records of one width, on which it can be undone. -/
structure RecordCodec (ε α β : Type) where
  width : Nat
  encode : α → Except ε (List β)
  decode : List β → Except ε α
  encode_length : ∀ {a record}, encode a = .ok record → record.length = width
  decode_encode : ∀ {a record}, encode a = .ok record → decode record = .ok a
  encode_decode : ∀ {a record}, record.length = width → decode record = .ok a →
    encode a = .ok record

/-- The first `count` pieces of length `width`, one after the other. -/
def chunksExact {β : Type} (width : Nat) : Nat → List β → List (List β)
  | 0, _ => []
  | count + 1, xs => xs.take width :: chunksExact width count (xs.drop width)

namespace RecordCodec

variable {ε α β : Type} (codec : RecordCodec ε α β)

def encodeAll : List α → Except ε (List β)
  | [] => .ok []
  | a :: as => do
    let record ← codec.encode a
    let records ← encodeAll as
    .ok (record ++ records)

def decodeAll (count : Nat) (records : List β) : Except ε (List α) :=
  (chunksExact codec.width count records).mapM codec.decode

theorem encodeAll_length {as : List α} {records : List β} (h : codec.encodeAll as = .ok records) :
    records.length = as.length * codec.width := by
  induction as generalizing records with
  | nil =>
    cases h
    simp
  | cons a as ih =>
    obtain ⟨record,hrecord,h⟩ := bind_ok h
    obtain ⟨rest,hrest,h⟩ := bind_ok h
    cases h
    simp only [List.length_append,codec.encode_length hrecord,ih hrest,List.length_cons]
    rw [Nat.succ_mul,Nat.add_comm]

theorem decodeAll_encodeAll {as : List α} {records : List β}
    (h : codec.encodeAll as = .ok records) : codec.decodeAll as.length records = .ok as := by
  induction as generalizing records with
  | nil => rfl
  | cons a as ih =>
    obtain ⟨record,hrecord,h⟩ := bind_ok h
    obtain ⟨rest,hrest,h⟩ := bind_ok h
    cases h
    have hwidth := codec.encode_length hrecord
    have htail : (chunksExact codec.width as.length rest).mapM codec.decode = .ok as := ih hrest
    simp only [decodeAll,List.length_cons,chunksExact,List.take_left' hwidth,
      List.drop_left' hwidth,List.mapM_cons,codec.decode_encode hrecord,htail]
    rfl

theorem encodeAll_decodeAll {count : Nat} {as : List α} {records : List β}
    (hlength : records.length = count * codec.width)
    (h : codec.decodeAll count records = .ok as) :
    as.length = count ∧ codec.encodeAll as = .ok records := by
  induction count generalizing records as with
  | zero =>
    have hnil : records = [] := by simpa using hlength
    subst hnil
    cases h
    exact ⟨rfl,rfl⟩
  | succ count ih =>
    simp only [decodeAll,chunksExact,List.mapM_cons] at h
    obtain ⟨a,hfirst,h⟩ := bind_ok h
    obtain ⟨rest,htail,h⟩ := bind_ok h
    cases h
    rw [Nat.succ_mul] at hlength
    obtain ⟨hcount,hrest⟩ := ih (by simp [hlength]) htail
    have hrecord := codec.encode_decode (by simp [hlength]) hfirst
    refine ⟨by simp [hcount],?_⟩
    simp only [encodeAll,hrecord,hrest,ok_bind,List.take_append_drop]

theorem encodeAll_exists {as : List α} (h : ∀ a ∈ as, ∃ record, codec.encode a = .ok record) :
    ∃ records, codec.encodeAll as = .ok records := by
  induction as with
  | nil => exact ⟨[],rfl⟩
  | cons a as ih =>
    obtain ⟨record,hrecord⟩ := h a List.mem_cons_self
    obtain ⟨rest,hrest⟩ := ih fun b hb => h b (List.mem_cons_of_mem _ hb)
    exact ⟨record ++ rest,by simp only [encodeAll,hrecord,hrest,ok_bind]⟩

end RecordCodec

theorem exists_error {ε α : Type} {x : Except ε α} (h : ∀ a, x ≠ .ok a) : ∃ e, x = .error e := by
  cases x with
  | error e => exact ⟨e,rfl⟩
  | ok a => exact absurd rfl (h a)

theorem mapM_error_of_mem {ε α β : Type} {f : α → Except ε β} {xs : List α} {x : α} {e : ε}
    (hx : x ∈ xs) (h : f x = .error e) : ∃ e', xs.mapM f = .error e' := by
  cases hall : xs.mapM f with
  | error e' => exact ⟨e',rfl⟩
  | ok ys =>
    have hread := mapM_ok hall
    obtain ⟨y,_,hy⟩ := forall₂_mem_left hread hx
    rw [h] at hy
    cases hy

theorem mem_chunksExact {β : Type} {width count i : Nat} {xs : List β} (hi : i < count) :
    (xs.drop (i * width)).take width ∈ chunksExact width count xs := by
  induction count generalizing i xs with
  | zero => omega
  | succ count ih =>
    cases i with
    | zero => simp [chunksExact]
    | succ i =>
      apply List.mem_cons_of_mem
      have h : ((xs.drop width).drop (i * width)).take width ∈
          chunksExact width count (xs.drop width) := ih (by omega)
      rwa [List.drop_drop,Nat.add_comm,← Nat.succ_mul] at h

end CoppiceWallet.Lib
