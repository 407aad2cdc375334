import CoppiceWallet.SecureStore.Storage

/-! # Secrets and the wallet password -/

namespace CoppiceWallet.SecureStore

open CoppiceWallet.Lib

variable (f : SecretFunctions)

def isWalletPasswordAsciiOnly (value : String) : Bool :=
  value.toList.all fun c => 0x21 ≤ c.toNat && c.toNat ≤ 0x7E

def kWalletPasswordMinLengthMessage (minLength : Nat) : String :=
  "Password must be at least " ++ toString minLength ++ " characters."

def kWalletPasswordAsciiMessage : String := "Use only English letters, numbers, and symbols."

def kWalletPasswordMustDifferMessage : String := "Use a different password."

def validateWalletPassword (value : String) : Option String :=
  if value.isEmpty then none
  else if !isWalletPasswordAsciiOnly value then some kWalletPasswordAsciiMessage
  else if value.length < f.walletPasswordMinLength then
    some (kWalletPasswordMinLengthMessage f.walletPasswordMinLength)
  else none

def validateRequiredWalletPassword (value : String) : Option String :=
  if value.isEmpty then some (kWalletPasswordMinLengthMessage f.walletPasswordMinLength)
  else validateWalletPassword f value

def isWalletPasswordValid (value : String) : Bool :=
  !value.isEmpty && (validateWalletPassword f value).isNone

/-- A password that the stored verifier accepts. -/
def AppSecureStore.accepts (s : AppSecureStore) (password : String) : Bool :=
  isWalletPasswordValid f password &&
    match s.passwordVerifierSalt,s.passwordVerifier with
    | some salt,some verifier => f.deriveSecretPasswordVerifier password salt == verifier
    | _,_ => false

def verifyPasswordOnly (password : String) : SecureStoreM Bool :=
  if isWalletPasswordValid f password then do
    let encodedSalt ← readPlain .passwordVerifierSalt (·.passwordVerifierSalt)
    let storedVerifier ← readPlain .passwordVerifier (·.passwordVerifier)
    match encodedSalt,storedVerifier with
    | some salt,some verifier =>
      pure (f.deriveSecretPasswordVerifier password salt == verifier)
    | _,_ => pure false
  else pure false

def getOrCreateSaltBase64 : SecureStoreM String := do
  match ← readPlain .secureStoreSalt (·.secureStoreSalt) with
  | some encoded => pure encoded
  | none =>
    let generated ← Faulty.ask fun env n => env.randomBytes n
    writePlain .secureStoreSalt fun s => { s with secureStoreSalt := some generated }
    pure generated

def encryptSecretString (value : String) : SecureStoreM String := do
  match ← Faulty.inMemory (fun s : AppSecureStore => (s.sessionPassword,s)) with
  | none => Faulty.throw (.state "Secret storage requires an unlocked session.")
  | some password =>
    let saltBase64 ← getOrCreateSaltBase64
    pure (f.encryptSecretPayload value password saltBase64)

def AppSecureStore.writeSecret (s : AppSecureStore) (key : SecretKey) (payload : String)
    (value : String) : AppSecureStore :=
  { s with
    secrets := s.secrets.write key payload
    written := fun k => if k = key then some (.clear value) else s.written k }

def AppSecureStore.eraseSecret (s : AppSecureStore) (key : SecretKey) : AppSecureStore :=
  { s with
    secrets := s.secrets.erase key
    written := fun k => if k = key ∧ (s.secrets.value key).isSome then none else s.written k }

/-- The deletion of the older mnemonic, where the own storage no longer has one. -/
def AppSecureStore.eraseLegacySecret (s : AppSecureStore) (accountUuid : String) :
    AppSecureStore :=
  { s with
    legacyMnemonics := s.legacyMnemonics.erase accountUuid
    written := fun k => if k = .accountMnemonic accountUuid then none else s.written k }

def writeSecret (key : SecretKey) (value : String) : SecureStoreM Unit := do
  let payload ← encryptSecretString f value
  writePlain (.secret key) fun s => s.writeSecret key payload value

def writeAccountMnemonic (accountUuid mnemonic : String) : SecureStoreM Unit :=
  writeSecret f (.accountMnemonic accountUuid) mnemonic

def writeVotingHotkey (name hotkey : String) : SecureStoreM Unit :=
  writeSecret f (.votingHotkey name) hotkey

def deleteLegacyAccountMnemonicBestEffort (accountUuid : String) : SecureStoreM Unit :=
  if f.usesSeparateMnemonicStorage then
    (deletePlain (.legacyMnemonic accountUuid) (·.eraseLegacySecret accountUuid)).tryCatch
      fun _ => pure ()
  else pure ()

def deleteAccountMnemonic (accountUuid : String) : SecureStoreM Unit := do
  deletePlain (.secret (.accountMnemonic accountUuid)) (·.eraseSecret (.accountMnemonic accountUuid))
  deleteLegacyAccountMnemonicBestEffort f accountUuid

def deleteVotingHotkey (name : String) : SecureStoreM Unit :=
  deletePlain (.secret (.votingHotkey name)) (·.eraseSecret (.votingHotkey name))

def deleteVotingHotkeys : List String → SecureStoreM Unit
  | [] => pure ()
  | name :: names => do
    deleteVotingHotkey name
    deleteVotingHotkeys names

def SecretKey.isMnemonic : SecretKey → Bool
  | .accountMnemonic _ => true
  | .votingHotkey _ => false

def readAllMnemonics : SecureStoreM (List (SecretKey × String)) :=
  runStorageOperation .readAllMnemonics fun env n s =>
    (env.arrange n (s.secrets.rows.filter (·.1.isMnemonic)),s)

def readAllVotingHotkeys : SecureStoreM (List (SecretKey × String)) :=
  runStorageOperation .readAll fun env n s =>
    (env.arrange n (s.secrets.rows.filter (!·.1.isMnemonic)),s)

def SecretKey.hotkeyName? : SecretKey → Option String
  | .votingHotkey name => some name
  | .accountMnemonic _ => none

/-- Deletes the hotkeys whose names begin as those of the account do. -/
def deleteVotingHotkeysForAccount (accountUuid : String) : SecureStoreM Unit := do
  let storedValues ← readAllVotingHotkeys
  deleteVotingHotkeys ((storedValues.filterMap (·.1.hotkeyName?)).filter
    ((accountUuid ++ "_").toList.isPrefixOf ·.toList))

structure AccountMnemonicMigrationResult where
  mnemonicsAvailable : Bool
  legacyCleanupComplete : Bool

def AccountMnemonicMigrationResult.complete : AccountMnemonicMigrationResult := ⟨true,true⟩

/-- Copies a mnemonic of the regular storage, unless there is one already. -/
def copyLegacyMnemonic (accountUuid value : String) : SecureStoreM Unit := do
  let existing ← readPlain (.secret (.accountMnemonic accountUuid))
    (·.secrets.value (.accountMnemonic accountUuid))
  match existing with
  | some _ => pure ()
  | none => writePlain (.secret (.accountMnemonic accountUuid)) fun s =>
      { s with secrets := s.secrets.write (.accountMnemonic accountUuid) value }

/-- Whether the mnemonic was copied, and whether the older one was deleted. -/
def migrateLegacyMnemonic (accountUuid value : String) :
    SecureStoreM AccountMnemonicMigrationResult := do
  let copied ← (do copyLegacyMnemonic accountUuid value; pure true).tryCatch fun _ => pure false
  if copied then
    let deleted ← (do
      deletePlain (.legacyMnemonic accountUuid) fun s =>
        { s with legacyMnemonics := s.legacyMnemonics.erase accountUuid }
      pure true).tryCatch fun _ => pure false
    pure ⟨true,deleted⟩
  else pure ⟨false,false⟩

def migrateLegacyMnemonics : List (String × String) → SecureStoreM AccountMnemonicMigrationResult
  | [] => pure .complete
  | (accountUuid,value) :: rest => do
    let first ← migrateLegacyMnemonic accountUuid value
    let others ← migrateLegacyMnemonics rest
    pure ⟨first.mnemonicsAvailable && others.mnemonicsAvailable,
      first.legacyCleanupComplete && others.legacyCleanupComplete⟩

def migrateAccountMnemonicsAfterUnlockLocked : SecureStoreM AccountMnemonicMigrationResult :=
  if f.usesSeparateMnemonicStorage then do
    if ← readPlain .accountMnemonicMigrationComplete (·.accountMnemonicMigrationComplete) then
      pure .complete
    else do
      let legacyValues ← runStorageOperation .readAll fun env n s =>
        (env.arrangeLegacy n s.legacyMnemonics.rows,s)
      let migration ← migrateLegacyMnemonics legacyValues
      if migration.legacyCleanupComplete then
        (writePlain .accountMnemonicMigrationComplete fun s =>
          { s with accountMnemonicMigrationComplete := true }).tryCatch fun _ => pure ()
        pure migration
      else pure migration
  else pure .complete

def migrateAccountMnemonicsAfterUnlock : SecureStoreM Bool := do
  let migration ← migrateAccountMnemonicsAfterUnlockLocked f
  pure migration.mnemonicsAvailable

def verifyPassword (password : String) : SecureStoreM Bool := do
  let isMatch ← verifyPasswordOnly f password
  if isMatch then
    setSessionPassword password
    (do
      let migratedForRead ← migrateAccountMnemonicsAfterUnlock f
      if migratedForRead then pure true
      else
        clearSessionPassword
        pure false).tryCatch fun _ => do
      clearSessionPassword
      pure false
  else pure false

end CoppiceWallet.SecureStore
