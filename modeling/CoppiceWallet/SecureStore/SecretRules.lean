import CoppiceWallet.SecureStore.LegacyMnemonics
import CoppiceWallet.SecureStore.Rotation

/-! # Rules for the calls -/

namespace CoppiceWallet.SecureStore

open CoppiceWallet.Lib CoppiceWallet.Lib.Faulty

variable {f : SecretFunctions} {env : StorageEnvironment} {s t : AppSecureStore}

theorem readPlain_triple {α : Type} {key : StorageKey} {field : AppSecureStore → α} :
    Triple env (fun t => t = s) (readPlain key field) (fun a t => a = field s ∧ t = s)
      (fun _ t => t = s) (fun t => t = s) := by
  apply triple_attempt
  · rintro n t rfl
    exact ⟨rfl,rfl⟩
  · intro n t ht _
    exact ht
  · intro n t ht _
    exact ht

theorem verifyPasswordOnly_triple {password : String} :
    Triple env (fun t => t = s) (verifyPasswordOnly f password)
      (fun isMatch t => isMatch = s.accepts f password ∧ t = s) (fun _ t => t = s)
      (fun t => t = s) := by
  rw [verifyPasswordOnly]
  apply triple_ite
  · intro hvalid
    refine triple_bind_read readPlain_triple ?_ (fun _ => rfl) rfl
    rintro _ rfl
    refine triple_bind_read readPlain_triple ?_ (fun _ => rfl) rfl
    rintro _ rfl
    cases hsalt : s.passwordVerifierSalt with
    | none =>
      apply triple_pure
      rintro t rfl
      simp [AppSecureStore.accepts,hsalt]
    | some salt =>
      cases hverifier : s.passwordVerifier with
      | none =>
        apply triple_pure
        rintro t rfl
        simp [AppSecureStore.accepts,hverifier]
      | some verifier =>
        apply triple_pure
        rintro t rfl
        simp [AppSecureStore.accepts,hvalid,hsalt,hverifier]
  · intro hinvalid
    apply triple_pure
    rintro t rfl
    rw [AppSecureStore.accepts]
    simp [hinvalid]

/-- The salt may have been made. -/
def Salted (s t : AppSecureStore) : Prop :=
  t = { s with secureStoreSalt := t.secureStoreSalt } ∧
    ∀ salt, s.secureStoreSalt = some salt → t.secureStoreSalt = some salt

theorem Salted.refl (s : AppSecureStore) : Salted s s := ⟨rfl,fun _ h => h⟩

theorem getOrCreateSaltBase64_triple :
    Triple env (fun t => t = s) getOrCreateSaltBase64
      (fun salt t => Salted s t ∧ t.secureStoreSalt = some salt) (fun _ t => t = s)
      (fun t => t = s) := by
  rw [getOrCreateSaltBase64]
  apply triple_bind readPlain_triple
  intro encoded
  cases encoded with
  | some salt =>
    apply triple_pure
    rintro t ⟨hsalt,rfl⟩
    exact ⟨.refl t,hsalt.symm⟩
  | none =>
    apply triple_bind (q := fun _ t => none = s.secureStoreSalt ∧ t = s)
    · apply triple_ask
      intro n t ht
      exact ht
    · intro generated
      apply triple_bind (q := fun _ t => Salted s t ∧ t.secureStoreSalt = some generated)
      · apply triple_attempt
        · rintro n t ⟨hnone,rfl⟩
          refine ⟨⟨rfl,fun salt hsalt => ?_⟩,rfl⟩
          rw [hsalt] at hnone
          cases hnone
        · intro n t ht _
          exact ht.2
        · intro n t ht _
          exact ht.2
      · intro _
        apply triple_pure
        intro t ht
        exact ht

/-- What a write of a secret leaves: its payload, for the password of the session. -/
structure SecretWritten (f : SecretFunctions) (key : SecretKey) (value : String)
    (s t : AppSecureStore) (password salt : String) (u : AppSecureStore) : Prop where
  salted : Salted s u
  session : s.sessionPassword = some password
  made : u.secureStoreSalt = some salt
  result : t = u.writeSecret key (f.encryptSecretPayload value password salt) value

theorem writeSecret_triple {key : SecretKey} {value : String} :
    Triple env (fun t => t = s) (writeSecret f key value)
      (fun _ t => ∃ password salt u, SecretWritten f key value s t password salt u)
      (fun _ t => Salted s t) (fun t => Salted s t) := by
  rw [writeSecret,encryptSecretString]
  apply triple_bind (q := fun payload t => Salted s t ∧ ∃ password salt,
    s.sessionPassword = some password ∧ t.secureStoreSalt = some salt ∧
      payload = f.encryptSecretPayload value password salt)
  · apply triple_bind (q := fun session t => session = s.sessionPassword ∧ t = s)
    · apply triple_inMemory
      rintro t rfl
      exact ⟨rfl,rfl⟩
    · intro session
      cases session with
      | none =>
        apply triple_throw
        rintro t ⟨-,rfl⟩
        exact .refl t
      | some password =>
        apply triple_of_state
        rintro t ⟨hsession,rfl⟩
        apply triple_bind (getOrCreateSaltBase64_triple.weaken (fun _ h => h) (fun _ _ h => h)
          (fun _ u h => h ▸ .refl _) (fun u h => h ▸ .refl _))
        intro salt
        apply triple_pure
        rintro u ⟨hsalted,hsalt⟩
        exact ⟨hsalted,password,salt,hsession.symm,hsalt,rfl⟩
  · intro payload
    apply triple_attempt
    · rintro n u ⟨hsalted,password,salt,hsession,hmade,hpayload⟩
      rw [hpayload]
      exact ⟨password,salt,u,hsalted,hsession,hmade,rfl⟩
    · intro n t ht _
      exact ht.1
    · intro n t ht _
      exact ht.1

/-- How a deletion of a mnemonic may end. -/
inductive MnemonicDeleted (f : SecretFunctions) (env : StorageEnvironment) (uuid : String)
    (s t : AppSecureStore) : Prop
  | both (h : f.usesSeparateMnemonicStorage = true)
      (ht : t = (s.eraseSecret (.accountMnemonic uuid)).eraseLegacySecret uuid)
  | own (h : f.usesSeparateMnemonicStorage = false)
      (ht : t = s.eraseSecret (.accountMnemonic uuid))
  | legacyFailed (n : Nat) (h : env.fate n (.delete (.legacyMnemonic uuid)) = .fails)
      (ht : t = s.eraseSecret (.accountMnemonic uuid))

theorem deleteAccountMnemonic_triple {uuid : String} :
    Triple env (fun t => t = s) (deleteAccountMnemonic f uuid)
      (fun _ t => MnemonicDeleted f env uuid s t) (fun _ t => t = s)
      (fun t => t = s ∨ t = s.eraseSecret (.accountMnemonic uuid) ∧
        ∃ n, env.fate n (.delete (.legacyMnemonic uuid)) = .stops) := by
  rw [deleteAccountMnemonic]
  apply triple_bind (q := fun _ t => t = s.eraseSecret (.accountMnemonic uuid))
  · apply triple_attempt
    · rintro n t rfl
      rfl
    · intro n t ht _
      exact ht
    · intro n t ht _
      exact .inl ht
  · intro _
    rw [deleteLegacyAccountMnemonicBestEffort]
    apply triple_ite
    · intro hseparate
      apply triple_tryCatch (q := fun _ t => t = s.eraseSecret (.accountMnemonic uuid) ∧
        ∃ n, env.fate n (.delete (.legacyMnemonic uuid)) = .fails)
      · apply triple_attempt
        · rintro n t rfl
          exact .both hseparate rfl
        · intro n t ht hfate
          exact ⟨ht,n,hfate⟩
        · intro n t ht hfate
          exact .inr ⟨ht,n,hfate⟩
      · intro e
        apply triple_pure
        rintro t ⟨ht,n,hfate⟩
        exact .legacyFailed n hfate ht
    · intro hsame
      apply triple_pure
      intro t ht
      exact .own (by simpa using hsame) ht

section
variable {P : AppSecureStore → Prop}

theorem deleteVotingHotkey_maintains {name : String}
    (h : ∀ s, P s → P (s.eraseSecret (.votingHotkey name))) :
    Maintains env P (deleteVotingHotkey name) :=
  maintains_attempt fun _ => h

theorem deleteVotingHotkeys_maintains {names : List String}
    (h : ∀ name ∈ names, ∀ s, P s → P (s.eraseSecret (.votingHotkey name))) :
    Maintains env P (deleteVotingHotkeys names) := by
  induction names with
  | nil => exact maintains_pure
  | cons name names ih =>
    apply maintains_bind
    · exact deleteVotingHotkey_maintains (h name List.mem_cons_self)
    · intro _
      exact ih fun other hother => h other (List.mem_cons_of_mem _ hother)

/-- The names of the hotkeys of an account. -/
def hotkeyOf (accountUuid name : String) : Bool :=
  (accountUuid ++ "_").toList.isPrefixOf name.toList

theorem deleteVotingHotkeysForAccount_maintains {accountUuid : String}
    (h : ∀ name, hotkeyOf accountUuid name = true → ∀ s, P s →
      P (s.eraseSecret (.votingHotkey name))) :
    Maintains env P (deleteVotingHotkeysForAccount accountUuid) := by
  apply maintains_bind
  · exact maintains_attempt fun _ _ hs => hs
  · intro storedValues
    apply deleteVotingHotkeys_maintains
    intro name hname
    exact h name (List.mem_filter.mp hname).2

end

end CoppiceWallet.SecureStore
