import CoppiceWallet.SecureStore.Calls

/-!
# Password rotation

A change of the password encrypts every secret anew. A journal of the new payloads is written first;
when a later write fails, the old ones are put back, and when the process stops, the journal is
carried out at the next start.
-/

namespace CoppiceWallet.SecureStore

open CoppiceWallet.Lib

variable (f : SecretFunctions)

structure PasswordRotationRollbackSnapshot where
  oldVerifierSalt : Option String
  oldVerifier : Option String
  entries : List (SecretKey × String)

/-- The payload for the new password. -/
def rotatePayload (currentPassword newPassword saltBase64 : String) (entry : SecretKey × String) :
    Except SecureStoreError (SecretKey × String) :=
  if f.isEncryptedPayload entry.2 then
    match f.decryptSecretPayload entry.2 currentPassword saltBase64 with
    | none => .error (.state "Failed to decrypt secure-storage value.")
    | some clearText => .ok (entry.1,f.encryptSecretPayload clearText newPassword saltBase64)
  else .error (.state "Failed to parse secure-storage value.")

def rotatePayloads (currentPassword newPassword saltBase64 : String)
    (entries : List (SecretKey × String)) : SecureStoreM (List (SecretKey × String)) :=
  match entries.mapM (rotatePayload f currentPassword newPassword saltBase64) with
  | .ok rotated => pure rotated
  | .error error => Faulty.throw error

/-- Writes payloads in place, which is no new value of a secret. -/
def writeEntries : List (SecretKey × String) → SecureStoreM Unit
  | [] => pure ()
  | (key,payload) :: entries => do
    writePlain (.secret key) fun s => { s with secrets := s.secrets.write key payload }
    writeEntries entries

def writeRotatedPasswordState (rotation : PasswordRotationRecord) : SecureStoreM Unit := do
  writeEntries rotation.entries
  writePlain .passwordVerifierSalt fun s =>
    { s with passwordVerifierSalt := some rotation.newVerifierSalt }
  writePlain .passwordVerifier fun s => { s with passwordVerifier := some rotation.newVerifier }

def deleteRotationRecordBestEffort : SecureStoreM Unit :=
  (deletePlain .passwordRotationInProgress fun s =>
    { s with passwordRotationInProgress := none }).tryCatch fun _ => pure ()

def markRollbackFailedBestEffort : SecureStoreM Unit :=
  (writePlain .passwordRotationInProgress fun s =>
    { s with passwordRotationInProgress := some .rollbackFailed }).tryCatch fun _ => pure ()

/-- Puts a plain value back, or removes it where there was none. -/
def restorePlain (key : StorageKey) (old : Option String)
    (set : Option String → AppSecureStore → AppSecureStore) : SecureStoreM Unit :=
  match old with
  | none => deletePlain key (set none)
  | some value => writePlain key (set (some value))

def rollbackPasswordRotation (rollback : PasswordRotationRollbackSnapshot)
    (currentPassword : String) : SecureStoreM Unit :=
  (do
    writeEntries rollback.entries
    restorePlain .passwordVerifierSalt rollback.oldVerifierSalt fun v s =>
      { s with passwordVerifierSalt := v }
    restorePlain .passwordVerifier rollback.oldVerifier fun v s => { s with passwordVerifier := v }
    setSessionPassword currentPassword
    deleteRotationRecordBestEffort).tryCatch fun _ => markRollbackFailedBestEffort

/-- The rotation once the journal is known: the journal is written, and then carried out. -/
def performRotation (rotation : PasswordRotationRecord) (rollback : PasswordRotationRollbackSnapshot)
    (currentPassword newPassword : String) : SecureStoreM Bool := do
  writePlain .passwordRotationInProgress fun s =>
    { s with passwordRotationInProgress := some (.rotation rotation) }
  (writeRotatedPasswordState rotation).tryCatch fun error => do
    rollbackPasswordRotation rollback currentPassword
    Faulty.throw error
  setSessionPassword newPassword
  deleteRotationRecordBestEffort
  pure true

/-- The rotation of a store whose current password was checked. -/
def rotatePassword (currentPassword newPassword : String) : SecureStoreM Bool := do
  let oldVerifierSalt ← readPlain .passwordVerifierSalt (·.passwordVerifierSalt)
  let oldVerifier ← readPlain .passwordVerifier (·.passwordVerifier)
  let secretSaltBase64 ← getOrCreateSaltBase64
  let migration ← migrateAccountMnemonicsAfterUnlockLocked f
  if migration.legacyCleanupComplete then do
    let storedValues ← readAllMnemonics
    let rotatedMnemonics ← rotatePayloads f currentPassword newPassword secretSaltBase64 storedValues
    let votingHotkeyValues ← readAllVotingHotkeys
    let rotatedHotkeys ←
      rotatePayloads f currentPassword newPassword secretSaltBase64 votingHotkeyValues
    let newVerifierSalt ← Faulty.ask fun env n => env.randomBytes n
    performRotation
      { newVerifierSalt
        newVerifier := f.deriveSecretPasswordVerifier newPassword newVerifierSalt
        entries := rotatedMnemonics ++ rotatedHotkeys }
      { oldVerifierSalt
        oldVerifier
        entries := storedValues ++ votingHotkeyValues } currentPassword newPassword
  else
    Faulty.throw (.state "Failed to migrate account mnemonics before password rotation.")

def changePassword (currentPassword newPassword : String) : SecureStoreM Bool := do
  let existingRecoveryRecord ←
    readPlain .passwordRotationInProgress (·.passwordRotationInProgress)
  match existingRecoveryRecord with
  | some .rollbackFailed => Faulty.throw .passwordRotationRecoveryFailed
  | _ =>
    if isWalletPasswordValid f currentPassword then
      if currentPassword = newPassword then
        Faulty.throw (.argument kWalletPasswordMustDifferMessage)
      else
        match validateRequiredWalletPassword f newPassword with
        | some newPasswordError => Faulty.throw (.argument newPasswordError)
        | none => do
          if ← verifyPasswordOnly f currentPassword then
            rotatePassword f currentPassword newPassword
          else pure false
    else pure false

def recoverInterruptedPasswordRotation : SecureStoreM Unit := do
  let raw ← readPlain .passwordRotationInProgress (·.passwordRotationInProgress)
  match raw with
  | none => pure ()
  | some .rollbackFailed => Faulty.throw .passwordRotationRecoveryFailed
  | some (.rotation rotation) => do
    writeRotatedPasswordState rotation
    deleteRotationRecordBestEffort
    clearSessionPassword

/-! ## Sessions of the app

The calls that the app makes, one at a time, and its restarts. A process that stops forgets the
session; the app opens again where the recovery of the restart lets it.
-/

section

inductive SecretCall
  | restart
  | verifyPassword (password : String)
  | migrateAccountMnemonicsAfterUnlock
  | writeAccountMnemonic (accountUuid mnemonic : String)
  | writeVotingHotkey (name hotkey : String)
  | deleteAccountMnemonic (accountUuid : String)
  | deleteVotingHotkey (name : String)
  | deleteVotingHotkeysForAccount (accountUuid : String)
  | changePassword (currentPassword newPassword : String)

variable (f : SecretFunctions)

/-- A call, and whether it reports success. -/
def SecretCall.run : SecretCall → SecureStoreM Bool
  | .restart => do
    recoverInterruptedPasswordRotation
    pure true
  | .verifyPassword password => SecureStore.verifyPassword f password
  | .migrateAccountMnemonicsAfterUnlock => SecureStore.migrateAccountMnemonicsAfterUnlock f
  | .writeAccountMnemonic accountUuid mnemonic => do
    SecureStore.writeAccountMnemonic f accountUuid mnemonic
    pure true
  | .writeVotingHotkey name hotkey => do
    SecureStore.writeVotingHotkey f name hotkey
    pure true
  | .deleteAccountMnemonic accountUuid => do
    SecureStore.deleteAccountMnemonic f accountUuid
    pure true
  | .deleteVotingHotkey name => do
    SecureStore.deleteVotingHotkey name
    pure true
  | .deleteVotingHotkeysForAccount accountUuid => do
    SecureStore.deleteVotingHotkeysForAccount accountUuid
    pure true
  | .changePassword currentPassword newPassword =>
    SecureStore.changePassword f currentPassword newPassword

structure SecretInput where
  call : SecretCall
  environment : StorageEnvironment

/-- The storages, and whether the app is open. -/
structure SecretApp where
  store : AppSecureStore
  isOpen : Bool

def AppSecureStore.forgetSession (s : AppSecureStore) : AppSecureStore :=
  { s with sessionPassword := none }

/-- The store a call starts from: a restart is a new process. -/
def SecretCall.entry (call : SecretCall) (s : AppSecureStore) : AppSecureStore :=
  match call with
  | .restart => s.forgetSession
  | _ => s

/-- How a call ends, and the store that it leaves. -/
def SecretInput.outcome (i : SecretInput) (s : AppSecureStore) :
    Ending SecureStoreError Bool × AppSecureStore :=
  let (ending,t,_) := i.call.run f i.environment 0 (i.call.entry s)
  (ending,t)

/-- Unavailable storage at a restart keeps the app closed; it opens after any other end. -/
def SecretCall.opens (call : SecretCall) (ending : Ending SecureStoreError Bool) : Bool :=
  match call,ending with
  | _,.stopped => false
  | .restart,.threw .storageUnavailable => false
  | _,_ => true

/-- The app after a call. -/
def SecretInput.next (i : SecretInput) (s : AppSecureStore) : SecretApp :=
  match i.outcome f s with
  | (.stopped,t) => ⟨t.forgetSession,false⟩
  | (ending,t) => ⟨t,i.call.opens ending⟩

/-- An app that is closed can only be restarted. -/
def SecretInput.step (i : SecretInput) (app : SecretApp) : Except Unit SecretApp :=
  match i.call,app.isOpen with
  | .restart,_ => .ok (i.next f app.store)
  | _,true => .ok (i.next f app.store)
  | _,false => .error ()

theorem SecretInput.step_eq {i : SecretInput} {app app' : SecretApp}
    (h : i.step f app = .ok app') :
    (i.call = .restart ∨ app.isOpen = true) ∧ app' = i.next f app.store := by
  rw [SecretInput.step] at h
  split at h
  · cases h
    exact ⟨.inl ‹_›,rfl⟩
  · cases h
    exact ⟨.inr ‹_›,rfl⟩
  · cases h

end

end CoppiceWallet.SecureStore
