import CoppiceWallet.SecureStore.RotationRules

/-! # Held secrets -/

namespace CoppiceWallet.SecureStore

open CoppiceWallet.Lib CoppiceWallet.Lib.Faulty

variable {f : SecretFunctions} {env : StorageEnvironment} {s t m : AppSecureStore}

/-- A payload of what was written: what an older version left may be as it was, or opened with some
password and encrypted again. -/
def Held (f : SecretFunctions) (secretSalt : Option String) : Written → String → Prop
  | .clear text,payload => ∃ password salt, secretSalt = some salt ∧
      payload = f.encryptSecretPayload text password salt
  | .legacy raw,payload => payload = raw ∨ ∃ password newPassword salt text, secretSalt = some salt ∧
      f.decryptSecretPayload raw password salt = some text ∧
      payload = f.encryptSecretPayload text newPassword salt

theorem Held.mono {secretSalt secretSalt' : Option String} {w : Written} {payload : String}
    (h : Held f secretSalt w payload)
    (hsalt : ∀ salt, secretSalt = some salt → secretSalt' = some salt) :
    Held f secretSalt' w payload := by
  cases w with
  | clear text =>
    obtain ⟨password,salt,hsome,hpayload⟩ := h
    exact ⟨password,salt,hsalt salt hsome,hpayload⟩
  | legacy raw =>
    rcases h with hraw | ⟨password,newPassword,salt,text,hsome,hpayload⟩
    · exact .inl hraw
    · exact .inr ⟨password,newPassword,salt,text,hsalt salt hsome,hpayload⟩

theorem rotatePayload_ok {currentPassword newPassword salt : String} {entry entry' : SecretKey × String}
    (h : rotatePayload f currentPassword newPassword salt entry = .ok entry') :
    entry'.1 = entry.1 ∧ ∃ text, f.decryptSecretPayload entry.2 currentPassword salt = some text ∧
      entry'.2 = f.encryptSecretPayload text newPassword salt := by
  rw [rotatePayload] at h
  split at h
  · split at h
    · cases h
    · rename_i text htext
      cases h
      exact ⟨rfl,text,htext,rfl⟩
  · cases h

theorem SecretFunctions.Lawful.opens (hf : f.Lawful) {text text' p q salt : String}
    (h : f.decryptSecretPayload (f.encryptSecretPayload text p salt) q salt = some text') :
    text' = text := by
  have hpassword := hf.password _ _ _ _ _ h
  subst hpassword
  rw [hf.decrypt_encrypt,Option.some.injEq] at h
  exact h.symm

theorem Held.rotate (hf : f.Lawful) {secretSalt : Option String} {w : Written}
    {payload currentPassword newPassword salt text : String} (h : Held f secretSalt w payload)
    (hsalt : secretSalt = some salt)
    (hopens : f.decryptSecretPayload payload currentPassword salt = some text) :
    Held f secretSalt w (f.encryptSecretPayload text newPassword salt) := by
  cases w with
  | clear written =>
    obtain ⟨password,salt',hsome,rfl⟩ := h
    cases hsome.symm.trans hsalt
    rw [hf.opens hopens]
    exact ⟨newPassword,salt,hsalt,rfl⟩
  | legacy raw =>
    rcases h with rfl | ⟨password,_,salt',written,hsome,hraw,rfl⟩
    · exact .inr ⟨currentPassword,newPassword,salt,text,hsalt,hopens,rfl⟩
    · cases hsome.symm.trans hsalt
      rw [hf.opens hopens]
      exact .inr ⟨password,newPassword,salt,written,hsalt,hraw,rfl⟩

/-- What was written is held, also by the journal. -/
structure AppSecureStore.Sound (f : SecretFunctions) (s : AppSecureStore) : Prop where
  keeps : s.Keeps (Held f s.secureStoreSalt)
  journal : ∀ rotation, s.passwordRotationInProgress = some (.rotation rotation) →
    ∀ entry ∈ rotation.entries, ∃ w, s.written entry.1 = some w ∧
      Held f s.secureStoreSalt w entry.2
  platform : f.usesSeparateMnemonicStorage = false → s.NoLegacy

/-- No journal in the store has an entry for the secret. -/
def AppSecureStore.Unjournaled (s : AppSecureStore) (key : SecretKey) : Prop :=
  ∀ rotation, s.passwordRotationInProgress = some (.rotation rotation) →
    ∀ entry ∈ rotation.entries, entry.1 ≠ key

section
variable {held held' : Written → String → Prop}

theorem AppSecureStore.Keeps.mono (h : s.Keeps held) (hheld : ∀ w p, held w p → held' w p) :
    s.Keeps held' where
  written key w payload hw hpayload := hheld _ _ (h.written key w payload hw hpayload)
  hotkey := h.hotkey
  mnemonic uuid w hw hnone := by
    obtain ⟨payload,hpayload,hpay⟩ := h.mnemonic uuid w hw hnone
    exact ⟨payload,hpayload,hheld _ _ hpay⟩
  unwritten := h.unwritten
  legacy := h.legacy
  migrated := h.migrated

theorem AppSecureStore.Keeps.same (h : s.Keeps held) (hsecrets : t.secrets = s.secrets)
    (hlegacy : t.legacyMnemonics = s.legacyMnemonics) (hwritten : t.written = s.written)
    (hflag : t.accountMnemonicMigrationComplete = s.accountMnemonicMigrationComplete) :
    t.Keeps held where
  written := by
    rw [hsecrets,hwritten]
    exact h.written
  hotkey := by
    rw [hsecrets,hwritten]
    exact h.hotkey
  mnemonic uuid w hw hnone := by
    rw [hlegacy]
    rw [hwritten] at hw
    apply h.mnemonic uuid w hw
    rw [AppSecureStore.mnemonic,hsecrets] at hnone
    exact hnone
  unwritten := by
    rw [hsecrets,hwritten]
    exact h.unwritten
  legacy := by
    rw [hlegacy,hwritten]
    exact h.legacy
  migrated := by
    rw [hlegacy,hflag]
    exact h.migrated

theorem AppSecureStore.Keeps.mixed (h : s.Keeps held) {entries : List (SecretKey × String)}
    {secrets : Entries SecretKey} (hmixed : Mixed entries s.secrets secrets)
    (hentries : ∀ entry ∈ entries, ∃ w, s.written entry.1 = some w ∧ held w entry.2) :
    ({ s with secrets } : AppSecureStore).Keeps held where
  written key w payload hw hpayload := by
    rcases hmixed key with hsame | ⟨other,hmem,hvalue⟩
    · exact h.written key w payload hw (hsame ▸ hpayload)
    · obtain ⟨w',hw',hheld⟩ := hentries _ hmem
      cases hw.symm.trans hw'
      cases hpayload.symm.trans hvalue
      exact hheld
  hotkey name w hw := by
    rcases hmixed (.votingHotkey name) with hsame | ⟨other,-,hvalue⟩
    · obtain ⟨payload,hpayload⟩ := h.hotkey name w hw
      exact ⟨payload,hsame.trans hpayload⟩
    · exact ⟨other,hvalue⟩
  mnemonic uuid w hw hnone := by
    rcases hmixed (.accountMnemonic uuid) with hsame | ⟨other,-,hvalue⟩
    · exact h.mnemonic uuid w hw (hsame.symm.trans hnone)
    · cases hvalue.symm.trans hnone
  unwritten key hw := by
    rcases hmixed key with hsame | ⟨other,hmem,-⟩
    · exact hsame.trans (h.unwritten key hw)
    · obtain ⟨w,hw',-⟩ := hentries _ hmem
      cases hw.symm.trans hw'
  legacy := h.legacy
  migrated := h.migrated

end

theorem AppSecureStore.Sound.salted (h : s.Sound f) (hsalted : Salted s t) : t.Sound f := by
  obtain ⟨ht,hsalt⟩ := hsalted
  have hkeeps := h.keeps.mono fun _ _ hheld => Held.mono hheld hsalt
  rw [ht]
  exact {
    keeps := hkeeps.same rfl rfl rfl rfl
    journal := by
      intro rotation hrotation entry hentry
      obtain ⟨w,hw,hheld⟩ := h.journal rotation hrotation entry hentry
      exact ⟨w,hw,hheld.mono hsalt⟩
    platform := h.platform }

theorem AppSecureStore.Sound.migrating (h : s.Sound f) (hkeeps : t.Keeps (Held f s.secureStoreSalt))
    (hmigrating : Migrating s t) : t.Sound f where
  keeps := by
    rw [hmigrating.secureStoreSalt]
    exact hkeeps
  journal := by
    rw [hmigrating.passwordRotationInProgress,hmigrating.written,hmigrating.secureStoreSalt]
    exact h.journal
  platform hplatform uuid := hmigrating.legacy uuid (h.platform hplatform uuid)

theorem AppSecureStore.Sound.writeSecret (h : s.Sound f) {key : SecretKey} {value payload : String}
    (hjournal : s.Unjournaled key) (hheld : Held f s.secureStoreSalt (.clear value) payload) :
    (s.writeSecret key payload value).Sound f where
  keeps := {
    written := by
      intro other w payload' hw hpayload
      simp only [AppSecureStore.writeSecret,Entries.value_write] at hw hpayload
      by_cases hkey : key = other
      · rw [if_pos hkey] at hpayload
        rw [if_pos hkey.symm] at hw
        cases hw
        cases hpayload
        exact hheld
      · rw [if_neg hkey] at hpayload
        rw [if_neg (Ne.symm hkey)] at hw
        exact h.keeps.written other w payload' hw hpayload
    hotkey := by
      intro name w hw
      simp only [AppSecureStore.writeSecret,Entries.value_write] at hw ⊢
      by_cases hkey : key = .votingHotkey name
      · exact ⟨payload,if_pos hkey⟩
      · rw [if_neg (Ne.symm hkey)] at hw
        rw [if_neg hkey]
        exact h.keeps.hotkey name w hw
    mnemonic := by
      intro uuid w hw hnone
      simp only [AppSecureStore.mnemonic,AppSecureStore.writeSecret,Entries.value_write] at hw hnone ⊢
      by_cases hkey : key = .accountMnemonic uuid
      · rw [if_pos hkey] at hnone
        cases hnone
      · rw [if_neg (Ne.symm hkey)] at hw
        rw [if_neg hkey] at hnone
        exact h.keeps.mnemonic uuid w hw hnone
    unwritten := by
      intro other hw
      simp only [AppSecureStore.writeSecret,Entries.value_write] at hw ⊢
      by_cases hkey : key = other
      · rw [if_pos hkey.symm] at hw
        cases hw
      · rw [if_neg (Ne.symm hkey)] at hw
        rw [if_neg hkey]
        exact h.keeps.unwritten other hw
    legacy := by
      intro uuid hw
      simp only [AppSecureStore.writeSecret] at hw
      split at hw
      · cases hw
      · exact h.keeps.legacy uuid hw
    migrated := h.keeps.migrated }
  journal := by
    intro rotation hrotation entry hentry
    obtain ⟨w,hw,hheld⟩ := h.journal rotation hrotation entry hentry
    refine ⟨w,?_,hheld⟩
    simp only [AppSecureStore.writeSecret]
    rw [if_neg (hjournal rotation hrotation entry hentry),hw]
  platform := h.platform

theorem written_eraseSecret {key other : SecretKey} : (s.eraseSecret key).written other =
    if other = key ∧ (s.secrets.value key).isSome then none else s.written other := rfl

theorem AppSecureStore.Sound.eraseSecret (h : s.Sound f) {key : SecretKey}
    (hjournal : s.Unjournaled key)
    (hlegacy : ∀ uuid, key = .accountMnemonic uuid → s.mnemonic uuid ≠ none →
      s.legacyMnemonics.value uuid = none) :
    (s.eraseSecret key).Sound f where
  keeps := {
    written := by
      intro other w payload hw hpayload
      simp only [AppSecureStore.eraseSecret,Entries.value_erase] at hw hpayload
      split at hpayload
      · cases hpayload
      · split at hw
        · cases hw
        · exact h.keeps.written other w payload hw hpayload
    hotkey := by
      intro name w hw
      rw [written_eraseSecret] at hw
      split at hw
      · cases hw
      · rename_i hkey
        obtain ⟨payload,hpayload⟩ := h.keeps.hotkey name w hw
        refine ⟨payload,?_⟩
        simp only [AppSecureStore.eraseSecret,Entries.value_erase]
        rw [if_neg,hpayload]
        rintro rfl
        exact hkey ⟨rfl,by rw [hpayload]; rfl⟩
    mnemonic := by
      intro uuid w hw hnone
      rw [written_eraseSecret] at hw
      split at hw
      · cases hw
      · rename_i hkey
        apply h.keeps.mnemonic uuid w hw
        simp only [AppSecureStore.mnemonic,AppSecureStore.eraseSecret,Entries.value_erase] at hnone ⊢
        split at hnone
        · rename_i hsame
          cases hvalue : s.secrets.value (.accountMnemonic uuid) with
          | none => rfl
          | some payload => exact absurd ⟨hsame.symm,by rw [hsame,hvalue]; rfl⟩ hkey
        · exact hnone
    unwritten := by
      intro other hw
      simp only [AppSecureStore.eraseSecret,Entries.value_erase] at hw ⊢
      split
      · rfl
      · rename_i hkey
        rw [if_neg (fun h => hkey h.1.symm)] at hw
        exact h.keeps.unwritten other hw
    legacy := by
      intro uuid hw
      rw [written_eraseSecret] at hw
      split at hw
      · rename_i hkey
        apply hlegacy uuid hkey.1.symm
        rw [AppSecureStore.mnemonic,hkey.1]
        exact Option.isSome_iff_ne_none.mp hkey.2
      · exact h.keeps.legacy uuid hw
    migrated := h.keeps.migrated }
  journal := by
    intro rotation hrotation entry hentry
    obtain ⟨w,hw,hheld⟩ := h.journal rotation hrotation entry hentry
    refine ⟨w,?_,hheld⟩
    rw [written_eraseSecret,if_neg (fun hkey => hjournal rotation hrotation entry hentry hkey.1)]
    exact hw
  platform := h.platform

theorem written_eraseBoth {uuid : String} {key : SecretKey} :
    ((s.eraseSecret (.accountMnemonic uuid)).eraseLegacySecret uuid).written key =
      if key = .accountMnemonic uuid then none else s.written key := by
  simp only [AppSecureStore.eraseLegacySecret,written_eraseSecret]
  by_cases hkey : key = .accountMnemonic uuid
  · rw [if_pos hkey,if_pos hkey]
  · rw [if_neg hkey,if_neg hkey,if_neg (fun h => hkey h.1)]

theorem AppSecureStore.Sound.eraseBoth (h : s.Sound f) {uuid : String}
    (hjournal : s.Unjournaled (.accountMnemonic uuid)) :
    ((s.eraseSecret (.accountMnemonic uuid)).eraseLegacySecret uuid).Sound f := by
  have hsecrets (key : SecretKey) : ((s.eraseSecret (.accountMnemonic uuid)).eraseLegacySecret
      uuid).secrets.value key = if .accountMnemonic uuid = key then none else s.secrets.value key :=
    Entries.value_erase
  have hlegacy (other : String) : ((s.eraseSecret (.accountMnemonic uuid)).eraseLegacySecret
      uuid).legacyMnemonics.value other =
        if uuid = other then none else s.legacyMnemonics.value other :=
    Entries.value_erase
  have hnoLegacy (other : String) (hnone : s.legacyMnemonics.value other = none) :
      ((s.eraseSecret (.accountMnemonic uuid)).eraseLegacySecret uuid).legacyMnemonics.value other =
        none := by
    rw [hlegacy]
    split
    · rfl
    · exact hnone
  refine ⟨⟨fun key w payload hw hpayload => ?_,fun name w hw => ?_,fun other w hw hnone => ?_,
    fun key hw => ?_,fun other hw => ?_,fun hflag other => ?_⟩,
    fun rotation hrotation entry hentry => ?_,fun hplatform other => ?_⟩
  · rw [written_eraseBoth] at hw
    rw [hsecrets] at hpayload
    split at hw
    · cases hw
    · rename_i hkey
      rw [if_neg (Ne.symm hkey)] at hpayload
      exact h.keeps.written key w payload hw hpayload
  · rw [written_eraseBoth,if_neg (by simp)] at hw
    rw [hsecrets,if_neg (by simp)]
    exact h.keeps.hotkey name w hw
  · rw [written_eraseBoth] at hw
    rw [AppSecureStore.mnemonic,hsecrets] at hnone
    split at hw
    · cases hw
    · rename_i hkey
      rw [if_neg (Ne.symm hkey)] at hnone
      rw [hlegacy,if_neg (fun huuid => hkey (by rw [huuid]))]
      exact h.keeps.mnemonic other w hw hnone
  · rw [written_eraseBoth] at hw
    rw [hsecrets]
    split
    · rfl
    · rename_i hkey
      rw [if_neg (Ne.symm hkey)] at hw
      exact h.keeps.unwritten key hw
  · rw [written_eraseBoth] at hw
    split at hw
    · rename_i hkey
      rw [hlegacy,if_pos (SecretKey.accountMnemonic.inj hkey).symm]
    · exact hnoLegacy other (h.keeps.legacy other hw)
  · exact hnoLegacy other (h.keeps.migrated hflag other)
  · obtain ⟨w,hw,hheld⟩ := h.journal rotation hrotation entry hentry
    refine ⟨w,?_,hheld⟩
    rw [written_eraseBoth,if_neg (hjournal rotation hrotation entry hentry)]
    exact hw
  · exact hnoLegacy other (h.platform hplatform other)

theorem AppSecureStore.Sound.interrupted (h : s.Sound f) {entries : List (SecretKey × String)}
    (hinterrupted : Interrupted entries s t)
    (hentries : ∀ entry ∈ entries, ∃ w, s.written entry.1 = some w ∧
      Held f s.secureStoreSalt w entry.2) : t.Sound f := by
  obtain ⟨secrets,salt,verifier,session,hmixed,rfl⟩ := hinterrupted
  exact {
    keeps := (h.keeps.mixed hmixed hentries).same rfl rfl rfl rfl
    journal := h.journal
    platform := h.platform }

theorem AppSecureStore.Sound.withJournal (h : s.Sound f) {journal : Option RecoveryRecord}
    (hjournal : ∀ rotation, journal = some (.rotation rotation) →
      ∀ entry ∈ rotation.entries, ∃ w, s.written entry.1 = some w ∧
        Held f s.secureStoreSalt w entry.2) :
    ({ s with passwordRotationInProgress := journal } : AppSecureStore).Sound f where
  keeps := h.keeps.same rfl rfl rfl rfl
  journal := hjournal
  platform := h.platform

theorem AppSecureStore.Sound.withSession (h : s.Sound f) (password : Option String) :
    ({ s with sessionPassword := password } : AppSecureStore).Sound f where
  keeps := h.keeps.same rfl rfl rfl rfl
  journal := h.journal
  platform := h.platform

theorem AppSecureStore.Sound.recovered (h : s.Sound f) {rotation : PasswordRotationRecord}
    (hrotation : s.passwordRotationInProgress = some (.rotation rotation))
    (hrecovered : Recovered rotation s t) : t.Sound f := by
  obtain ⟨secrets,journal,hmixed,-,hjournal,rfl⟩ := hrecovered
  have hentries := h.journal rotation hrotation
  have hwritten := h.interrupted (t := { s with
    secrets
    passwordVerifierSalt := some rotation.newVerifierSalt
    passwordVerifier := some rotation.newVerifier
    sessionPassword := none }) ⟨secrets,_,_,_,hmixed,rfl⟩ hentries
  apply hwritten.withJournal
  intro other hother
  rcases hjournal with rfl | rfl
  · cases hother
  · cases hother
    exact hentries

theorem AppSecureStore.Sound.recoveryCut (h : s.Sound f) (hcut : RecoveryCut s t) : t.Sound f := by
  rcases hcut with rfl | ⟨rotation,hrotation,hinterrupted⟩
  · exact h
  · exact h.interrupted hinterrupted (h.journal rotation hrotation)

end CoppiceWallet.SecureStore
