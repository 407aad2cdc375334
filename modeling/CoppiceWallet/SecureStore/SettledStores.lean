import CoppiceWallet.SecureStore.SecretRecords

/-! # Settled stores -/

namespace CoppiceWallet.SecureStore

open CoppiceWallet.Lib CoppiceWallet.Lib.Faulty

variable {f : SecretFunctions} {env : StorageEnvironment} {s t m : AppSecureStore} {p q : String}

def Opens (f : SecretFunctions) (secretSalt : Option String) (password : String) :
    Written → String → Prop
  | .clear text,payload => ∃ salt, secretSalt = some salt ∧
      payload = f.encryptSecretPayload text password salt
  | .legacy _,_ => False

theorem Opens.mono {secretSalt secretSalt' : Option String} {w : Written} {payload : String}
    (h : Opens f secretSalt p w payload)
    (hsalt : ∀ salt, secretSalt = some salt → secretSalt' = some salt) :
    Opens f secretSalt' p w payload := by
  cases w with
  | clear text =>
    obtain ⟨salt,hsome,hpayload⟩ := h
    exact ⟨salt,hsalt salt hsome,hpayload⟩
  | legacy raw => exact h.elim

theorem Opens.rotate (hf : f.Lawful) {secretSalt : Option String} {w : Written}
    {payload salt text : String} (h : Opens f secretSalt p w payload)
    (hsalt : secretSalt = some salt) (hopens : f.decryptSecretPayload payload p salt = some text) :
    Opens f secretSalt q w (f.encryptSecretPayload text q salt) := by
  cases w with
  | clear written =>
    obtain ⟨salt',hsome,rfl⟩ := h
    cases hsome.symm.trans hsalt
    rw [hf.opens hopens]
    exact ⟨salt,hsalt,rfl⟩
  | legacy raw => exact h.elim

/-- The stored payloads open with a password. -/
structure AppSecureStore.OpensWith (f : SecretFunctions) (p : String) (s : AppSecureStore) :
    Prop where
  own : ∀ key w payload, s.written key = some w → s.secrets.value key = some payload →
    Opens f s.secureStoreSalt p w payload
  legacy : ∀ uuid w payload, s.written (.accountMnemonic uuid) = some w → s.mnemonic uuid = none →
    s.legacyMnemonics.value uuid = some payload → Opens f s.secureStoreSalt p w payload

theorem accepts_iff : s.accepts f p = true ↔ isWalletPasswordValid f p = true ∧
    ∃ salt, s.passwordVerifierSalt = some salt ∧
      s.passwordVerifier = some (f.deriveSecretPasswordVerifier p salt) := by
  rw [AppSecureStore.accepts,Bool.and_eq_true]
  cases hsalt : s.passwordVerifierSalt with
  | none => simp
  | some salt =>
    cases hverifier : s.passwordVerifier with
    | none => simp
    | some verifier =>
      constructor
      · rintro ⟨hvalid,h⟩
        exact ⟨hvalid,salt,rfl,by rw [beq_iff_eq.mp h]⟩
      · rintro ⟨hvalid,_,⟨⟩,⟨⟩⟩
        exact ⟨hvalid,beq_self_eq_true _⟩

theorem accepts_congr (hsalt : t.passwordVerifierSalt = s.passwordVerifierSalt)
    (hverifier : t.passwordVerifier = s.passwordVerifier) : t.accepts f p = s.accepts f p := by
  rw [AppSecureStore.accepts,AppSecureStore.accepts,hsalt,hverifier]

theorem accepts_unique (hf : f.Lawful) (hp : s.accepts f p = true) (hq : s.accepts f q = true) :
    p = q := by
  obtain ⟨-,salt,hsalt,hverifier⟩ := accepts_iff.mp hp
  obtain ⟨-,salt',hsalt',hverifier'⟩ := accepts_iff.mp hq
  cases hsalt.symm.trans hsalt'
  rw [hverifier,Option.some.injEq] at hverifier'
  exact hf.verifier p q salt hverifier'

theorem isWalletPasswordValid_of_required (h : validateRequiredWalletPassword f p = none) :
    isWalletPasswordValid f p = true := by
  rw [validateRequiredWalletPassword] at h
  split at h
  · cases h
  · rename_i hempty
    simp [isWalletPasswordValid,hempty,h]

/-- A journal that brings payloads for a password. -/
structure JournalFor (f : SecretFunctions) (p : String) (s : AppSecureStore)
    (rotation : PasswordRotationRecord) : Prop where
  valid : isWalletPasswordValid f p = true
  verifier : rotation.newVerifier = f.deriveSecretPasswordVerifier p rotation.newVerifierSalt
  entries : ∀ entry ∈ rotation.entries, ∃ w, s.written entry.1 = some w ∧
    Opens f s.secureStoreSalt p w entry.2

/-- The store of a session. -/
structure Settled (f : SecretFunctions) (p : String) (s : AppSecureStore) : Prop where
  accepts : s.accepts f p = true
  opens : s.OpensWith f p
  session : ∀ password, s.sessionPassword = some password → password = p
  unmarked : s.passwordRotationInProgress ≠ some .rollbackFailed
  journal : ∀ rotation, s.passwordRotationInProgress = some (.rotation rotation) →
    JournalFor f p s rotation

/-- A store that a recovery settles. -/
structure Recoverable (f : SecretFunctions) (p : String) (s : AppSecureStore) : Prop where
  clean : s.passwordRotationInProgress = none → s.accepts f p = true ∧ s.OpensWith f p
  unmarked : s.passwordRotationInProgress ≠ some .rollbackFailed
  journal : ∀ rotation, s.passwordRotationInProgress = some (.rotation rotation) →
    JournalFor f p s rotation
  others : ∀ rotation, s.passwordRotationInProgress = some (.rotation rotation) →
    ∀ key w payload, (∀ entry ∈ rotation.entries, entry.1 ≠ key) → s.written key = some w →
      s.secrets.value key = some payload → Opens f s.secureStoreSalt p w payload
  legacy : ∀ uuid w payload, s.written (.accountMnemonic uuid) = some w → s.mnemonic uuid = none →
    s.legacyMnemonics.value uuid = some payload → Opens f s.secureStoreSalt p w payload

theorem Settled.recoverable (h : Settled f p s) : Recoverable f p s.forgetSession where
  clean _ := ⟨h.accepts,h.opens.own,h.opens.legacy⟩
  unmarked := h.unmarked
  journal rotation hrotation :=
    ⟨(h.journal rotation hrotation).valid,(h.journal rotation hrotation).verifier,
      (h.journal rotation hrotation).entries⟩
  others _ _ key w payload _ := h.opens.own key w payload
  legacy := h.opens.legacy

theorem Recoverable.forgetSession (h : Recoverable f p s) : Recoverable f p s.forgetSession where
  clean hnone := ⟨(h.clean hnone).1,(h.clean hnone).2.own,(h.clean hnone).2.legacy⟩
  unmarked := h.unmarked
  journal rotation hrotation :=
    ⟨(h.journal rotation hrotation).valid,(h.journal rotation hrotation).verifier,
      (h.journal rotation hrotation).entries⟩
  others := h.others
  legacy := h.legacy

theorem JournalFor.congr {rotation : PasswordRotationRecord} (h : JournalFor f p s rotation)
    (hwritten : ∀ entry ∈ rotation.entries, t.written entry.1 = s.written entry.1)
    (hsalt : ∀ salt, s.secureStoreSalt = some salt → t.secureStoreSalt = some salt) :
    JournalFor f p t rotation where
  valid := h.valid
  verifier := h.verifier
  entries entry hentry := by
    obtain ⟨w,hw,hopens⟩ := h.entries entry hentry
    exact ⟨w,(hwritten entry hentry).trans hw,hopens.mono hsalt⟩

theorem Settled.salted (h : Settled f p s) (hsalted : Salted s t) : Settled f p t := by
  obtain ⟨ht,hsalt⟩ := hsalted
  have hjournal : t.passwordRotationInProgress = s.passwordRotationInProgress := by rw [ht]
  have hwritten : t.written = s.written := by rw [ht]
  exact {
    accepts := by
      rw [ht]
      exact h.accepts
    opens := {
      own := by
        intro key w payload hw hpayload
        rw [ht] at hw hpayload
        exact (h.opens.own key w payload hw hpayload).mono hsalt
      legacy := by
        intro uuid w payload hw hnone hpayload
        rw [ht] at hw hnone hpayload
        exact (h.opens.legacy uuid w payload hw hnone hpayload).mono hsalt }
    session := by
      rw [ht]
      exact h.session
    unmarked := by
      rw [hjournal]
      exact h.unmarked
    journal := by
      intro rotation hrotation
      rw [hjournal] at hrotation
      exact (h.journal rotation hrotation).congr (fun _ _ => by rw [hwritten]) hsalt }

theorem AppSecureStore.OpensWith.migrating (h : s.OpensWith f p) (hmigrating : Migrating s t) :
    t.OpensWith f p where
  own key w payload hw hpayload := by
    rw [hmigrating.written] at hw
    rw [hmigrating.secureStoreSalt]
    cases key with
    | votingHotkey name =>
      rw [hmigrating.secrets _ (by simp)] at hpayload
      exact h.own _ w payload hw hpayload
    | accountMnemonic uuid =>
      rcases hmigrating.copied uuid payload hpayload with hown | ⟨hnone,hlegacy⟩
      · exact h.own _ w payload hw hown
      · exact h.legacy uuid w payload hw hnone hlegacy
  legacy uuid w payload hw hnone hpayload := by
    rw [hmigrating.written] at hw
    rw [hmigrating.secureStoreSalt]
    exact h.legacy uuid w payload hw (hmigrating.mnemonic_none hnone)
      (hmigrating.stays uuid payload hpayload)

theorem Settled.migrating (h : Settled f p s) (hmigrating : Migrating s t) : Settled f p t where
  accepts := by
    rw [accepts_congr hmigrating.passwordVerifierSalt hmigrating.passwordVerifier]
    exact h.accepts
  opens := h.opens.migrating hmigrating
  session := by
    rw [hmigrating.sessionPassword]
    exact h.session
  unmarked := by
    rw [hmigrating.passwordRotationInProgress]
    exact h.unmarked
  journal rotation hrotation := by
    rw [hmigrating.passwordRotationInProgress] at hrotation
    apply (h.journal rotation hrotation).congr
    · intro _ _
      rw [hmigrating.written]
    · rw [hmigrating.secureStoreSalt]
      exact fun _ hsalt => hsalt

theorem Settled.withSession (h : Settled f p s) {session : Option String}
    (hsession : ∀ password, session = some password → password = p) :
    Settled f p { s with sessionPassword := session } where
  accepts := h.accepts
  opens := ⟨h.opens.own,h.opens.legacy⟩
  session := hsession
  unmarked := h.unmarked
  journal rotation hrotation := (h.journal rotation hrotation).congr (fun _ _ => rfl) fun _ h => h

theorem Settled.unlocked (hf : f.Lawful) (h : Settled f p s) {password : String} {unlocked : Bool}
    (hunlocked : Unlocked f password s unlocked t) : Settled f p t := by
  apply Settled.migrating (h.withSession _) hunlocked.migrating
  intro other hother
  rcases hunlocked.session with hsame | hnone | ⟨hsome,haccepts⟩
  · exact h.session other (hsame.symm.trans hother)
  · rw [hnone] at hother
    cases hother
  · rw [hsome,Option.some.injEq] at hother
    rw [← hother]
    exact accepts_unique hf haccepts h.accepts

theorem Settled.writeSecret (h : Settled f p s) {key : SecretKey} {value salt : String}
    (hsalt : s.secureStoreSalt = some salt) (hjournal : s.Unjournaled key) :
    Settled f p (s.writeSecret key (f.encryptSecretPayload value p salt) value) where
  accepts := h.accepts
  opens := {
    own := by
      intro other w payload hw hpayload
      rw [written_writeSecret] at hw
      simp only [AppSecureStore.writeSecret,Entries.value_write] at hpayload
      by_cases hkey : key = other
      · rw [if_pos hkey.symm] at hw
        rw [if_pos hkey] at hpayload
        cases hw
        cases hpayload
        exact ⟨salt,hsalt,rfl⟩
      · rw [if_neg (Ne.symm hkey)] at hw
        rw [if_neg hkey] at hpayload
        exact h.opens.own other w payload hw hpayload
    legacy := by
      intro uuid w payload hw hnone hpayload
      rw [written_writeSecret] at hw
      simp only [AppSecureStore.mnemonic,AppSecureStore.writeSecret,Entries.value_write] at hnone
      by_cases hkey : key = .accountMnemonic uuid
      · rw [if_pos hkey] at hnone
        cases hnone
      · rw [if_neg (Ne.symm hkey)] at hw
        rw [if_neg hkey] at hnone
        exact h.opens.legacy uuid w payload hw hnone hpayload }
  session := h.session
  unmarked := h.unmarked
  journal rotation hrotation := by
    apply (h.journal rotation hrotation).congr
    · intro entry hentry
      rw [written_writeSecret,if_neg (hjournal rotation hrotation entry hentry)]
    · exact fun _ h => h

theorem Settled.eraseSecret (h : Settled f p s) {key : SecretKey} (hjournal : s.Unjournaled key) :
    Settled f p (s.eraseSecret key) where
  accepts := h.accepts
  opens := {
    own := by
      intro other w payload hw hpayload
      rw [written_eraseSecret] at hw
      simp only [AppSecureStore.eraseSecret,Entries.value_erase] at hpayload
      split at hw
      · cases hw
      · split at hpayload
        · cases hpayload
        · exact h.opens.own other w payload hw hpayload
    legacy := by
      intro uuid w payload hw hnone hpayload
      rw [written_eraseSecret] at hw
      split at hw
      · cases hw
      · rename_i hkey
        apply h.opens.legacy uuid w payload hw _ hpayload
        simp only [AppSecureStore.mnemonic,AppSecureStore.eraseSecret,Entries.value_erase] at hnone ⊢
        split at hnone
        · rename_i hsame
          cases hvalue : s.secrets.value (.accountMnemonic uuid) with
          | none => rfl
          | some payload => exact absurd ⟨hsame.symm,by rw [hsame,hvalue]; rfl⟩ hkey
        · exact hnone }
  session := h.session
  unmarked := h.unmarked
  journal rotation hrotation := by
    apply (h.journal rotation hrotation).congr
    · intro entry hentry
      rw [written_eraseSecret,if_neg]
      exact fun hkey => hjournal rotation hrotation entry hentry hkey.1
    · exact fun _ h => h

theorem Settled.eraseLegacySecret (h : Settled f p s) {uuid : String}
    (hjournal : s.Unjournaled (.accountMnemonic uuid)) :
    Settled f p (s.eraseLegacySecret uuid) where
  accepts := h.accepts
  opens := {
    own := by
      intro key w payload hw hpayload
      simp only [AppSecureStore.eraseLegacySecret] at hw
      split at hw
      · cases hw
      · exact h.opens.own key w payload hw hpayload
    legacy := by
      intro other w payload hw hnone hpayload
      simp only [AppSecureStore.eraseLegacySecret,Entries.value_erase] at hw hpayload
      split at hw
      · cases hw
      · split at hpayload
        · cases hpayload
        · exact h.opens.legacy other w payload hw hnone hpayload }
  session := h.session
  unmarked := h.unmarked
  journal rotation hrotation := by
    apply (h.journal rotation hrotation).congr
    · intro entry hentry
      simp only [AppSecureStore.eraseLegacySecret]
      rw [if_neg (hjournal rotation hrotation entry hentry)]
    · exact fun _ h => h

end CoppiceWallet.SecureStore
