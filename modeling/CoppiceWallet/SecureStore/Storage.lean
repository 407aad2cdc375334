import CoppiceWallet.Lib.Faulty
import CoppiceWallet.Lib.Table

/-!
# The secure store

Account mnemonics, voting hotkeys and what belongs to the wallet password are kept in platform
storage, where an operation may fail, or the process may stop before it. Each kind of key is a field
of its own here. An empty value, which the code takes for a missing one, is never written.
-/

namespace CoppiceWallet.SecureStore

open CoppiceWallet.Lib

/-- Stored values with the keys they are under. -/
abbrev Entries (κ : Type) := Table (κ × String) κ Prod.fst

namespace Entries

variable {κ : Type} [DecidableEq κ]

def value (t : Entries κ) (k : κ) : Option String := (t.get k).map Prod.snd

def write (t : Entries κ) (k : κ) (v : String) : Entries κ := t.replace (k,v)

def erase (t : Entries κ) (k : κ) : Entries κ := t.delete fun r => decide (r.1 = k)

variable {t : Entries κ} {k j : κ} {v : String}

theorem value_eq_some : t.value k = some v ↔ (k,v) ∈ t.rows := by
  simp only [value,Option.map_eq_some_iff,Table.get_eq_some]
  constructor
  · rintro ⟨⟨k',v'⟩,⟨hmem,rfl⟩,rfl⟩
    exact hmem
  · intro hmem
    exact ⟨(k,v),⟨hmem,rfl⟩,rfl⟩

theorem value_write : (t.write k v).value j = if k = j then some v else t.value j := by
  apply Option.ext
  intro w
  by_cases hk : k = j
  · rw [if_pos hk,value_eq_some,write,Table.mem_replace,Option.some.injEq]
    subst hk
    simp [eq_comm]
  · rw [if_neg hk,value_eq_some,value_eq_some,write,Table.mem_replace]
    simp [Ne.symm hk]

theorem value_erase : (t.erase k).value j = if k = j then none else t.value j := by
  apply Option.ext
  intro w
  by_cases hk : k = j
  · rw [if_pos hk,value_eq_some,erase,Table.mem_delete]
    simp [hk]
  · rw [if_neg hk,value_eq_some,value_eq_some,erase,Table.mem_delete]
    simp [Ne.symm hk]

end Entries

inductive SecretKey
  | accountMnemonic (accountUuid : String)
  | votingHotkey (name : String)
  deriving DecidableEq

inductive StorageKey
  | secret (key : SecretKey)
  | legacyMnemonic (accountUuid : String)
  | passwordVerifier
  | passwordVerifierSalt
  | secureStoreSalt
  | passwordRotationInProgress
  | accountMnemonicMigrationComplete
  deriving DecidableEq

inductive StorageOperation
  | read (key : StorageKey)
  | write (key : StorageKey)
  | delete (key : StorageKey)
  | readAllMnemonics
  | readAll
  deriving DecidableEq

/-- What is up to the platform: the fate of the operation with a number, the order in which
all entries are read, and random bytes. -/
structure StorageEnvironment where
  fate : Nat → StorageOperation → Fate
  arrange : Nat → List (SecretKey × String) → List (SecretKey × String)
  arrange_perm : ∀ n xs, (arrange n xs).Perm xs
  arrangeLegacy : Nat → List (String × String) → List (String × String)
  arrangeLegacy_perm : ∀ n xs, (arrangeLegacy n xs).Perm xs
  randomBytes : Nat → String

/-- The functions on payloads and passwords, and the platform. -/
structure SecretFunctions where
  encryptSecretPayload : String → String → String → String
  decryptSecretPayload : String → String → String → Option String
  deriveSecretPasswordVerifier : String → String → String
  isEncryptedPayload : String → Bool
  usesSeparateMnemonicStorage : Bool
  walletPasswordMinLength : Nat

/-- What is relied on: the password that a payload was encrypted with opens it, and no other one;
what is encrypted has the format of a payload; and verifiers tell passwords apart. -/
structure SecretFunctions.Lawful (f : SecretFunctions) : Prop where
  decrypt_encrypt : ∀ x p s, f.decryptSecretPayload (f.encryptSecretPayload x p s) p s = some x
  password : ∀ x y p q s, f.decryptSecretPayload (f.encryptSecretPayload x p s) q s = some y → p = q
  isEncrypted : ∀ x p s, f.isEncryptedPayload (f.encryptSecretPayload x p s) = true
  verifier : ∀ p q s, f.deriveSecretPasswordVerifier p s = f.deriveSecretPasswordVerifier q s → p = q

/-- What a payload of a password begins with: the length of the password, and the password. -/
def payloadHead (password : String) : List Char :=
  List.replicate password.toList.length '*' ++ '|' :: password.toList

/-- Payloads that name their password in clear, with which the assumptions hold. -/
def plainFunctions : SecretFunctions where
  encryptSecretPayload text password _ := String.ofList (payloadHead password ++ text.toList)
  decryptSecretPayload payload password _ :=
    if (payloadHead password).isPrefixOf payload.toList then
      some (String.ofList (payload.toList.drop (payloadHead password).length))
    else none
  deriveSecretPasswordVerifier password _ := password
  isEncryptedPayload payload := payload.toList.contains '|'
  usesSeparateMnemonicStorage := true
  walletPasswordMinLength := 6

theorem replicate_inj {n m : Nat} {x y : List Char}
    (h : List.replicate n '*' ++ '|' :: x = List.replicate m '*' ++ '|' :: y) : n = m ∧ x = y := by
  induction n generalizing m with
  | zero =>
    cases m with
    | zero => simpa using h
    | succ m => simp [List.replicate_succ] at h
  | succ n ih =>
    cases m with
    | zero => simp [List.replicate_succ] at h
    | succ m =>
      rw [List.replicate_succ,List.replicate_succ,List.cons_append,List.cons_append,
        List.cons.injEq] at h
      obtain ⟨hn,hxy⟩ := ih h.2
      exact ⟨by rw [hn],hxy⟩

theorem payloadHead_inj {p q : String} {x y : List Char}
    (h : payloadHead p ++ x = payloadHead q ++ y) : p = q := by
  rw [payloadHead,payloadHead,List.append_assoc,List.append_assoc,List.cons_append,
    List.cons_append] at h
  obtain ⟨hlength,hrest⟩ := replicate_inj h
  exact String.toList_inj.mp (List.append_inj hrest hlength).1

theorem plainFunctions_lawful : plainFunctions.Lawful where
  decrypt_encrypt x p s := by
    simp [plainFunctions]
  password x y p q s h := by
    simp only [plainFunctions,String.toList_ofList] at h
    split at h
    · rename_i hprefix
      obtain ⟨rest,hrest⟩ := List.isPrefixOf_iff_prefix.mp hprefix
      exact (payloadHead_inj hrest).symm
    · cases h
  isEncrypted x p s := by
    simp [plainFunctions,payloadHead]
  verifier p q s h := h

/-- Storage in which every operation is done. -/
def reliableStorage : StorageEnvironment where
  fate _ _ := .done
  arrange _ xs := xs
  arrange_perm _ xs := .refl xs
  arrangeLegacy _ xs := xs
  arrangeLegacy_perm _ xs := .refl xs
  randomBytes n := toString n

structure PasswordRotationRecord where
  newVerifierSalt : String
  newVerifier : String
  entries : List (SecretKey × String)

inductive RecoveryRecord
  | rotation (record : PasswordRotationRecord)
  | rollbackFailed

/-- What a secret was last written to, or the payload that was stored from the start. -/
inductive Written
  | clear (text : String)
  | legacy (payload : String)

/-- The storages and the session. What was written under each key is kept beside them, for no code
to read. -/
structure AppSecureStore where
  secrets : Entries SecretKey
  legacyMnemonics : Entries String
  passwordVerifier : Option String
  passwordVerifierSalt : Option String
  secureStoreSalt : Option String
  passwordRotationInProgress : Option RecoveryRecord
  accountMnemonicMigrationComplete : Bool
  sessionPassword : Option String
  written : SecretKey → Option Written

inductive SecureStoreError
  | storageUnavailable
  | passwordRotationRecoveryFailed
  | argument (message : String)
  | state (message : String)

abbrev SecureStoreM (α : Type) := Faulty StorageEnvironment AppSecureStore SecureStoreError α

/-- A platform operation; its failures surface as unavailable storage. -/
def runStorageOperation {α : Type} (op : StorageOperation)
    (body : StorageEnvironment → Nat → AppSecureStore → α × AppSecureStore) : SecureStoreM α :=
  .attempt (fun env n => env.fate n op) .storageUnavailable body

def readPlain {α : Type} (key : StorageKey) (field : AppSecureStore → α) : SecureStoreM α :=
  runStorageOperation (.read key) fun _ _ s => (field s,s)

def writePlain (key : StorageKey) (f : AppSecureStore → AppSecureStore) : SecureStoreM Unit :=
  runStorageOperation (.write key) fun _ _ s => ((),f s)

def deletePlain (key : StorageKey) (f : AppSecureStore → AppSecureStore) : SecureStoreM Unit :=
  runStorageOperation (.delete key) fun _ _ s => ((),f s)

def setSessionPassword (password : String) : SecureStoreM Unit :=
  .inMemory fun s => ((),{ s with sessionPassword := some password })

def clearSessionPassword : SecureStoreM Unit :=
  .inMemory fun s => ((),{ s with sessionPassword := none })

end CoppiceWallet.SecureStore
