import CoppiceWallet.SecureStore.PasswordRotation

/-! # Runs with rotations -/

namespace CoppiceWallet.SecureStore

open CoppiceWallet.Lib CoppiceWallet.Lib.Faulty

variable {f : SecretFunctions} {env : StorageEnvironment} {s t : AppSecureStore}
  {i : SecretInput} {p : String} {app app' : SecretApp}

/-- The mark of a rollback that failed. -/
def AppSecureStore.Marked (s : AppSecureStore) : Prop :=
  s.passwordRotationInProgress = some .rollbackFailed

/-- Where a write of a rotation fails, neither the deletion of its journal nor the mark does. -/
def KeepsNoJournal (env : StorageEnvironment) : Prop :=
  ¬RotationWriteFails env ∨ ∀ n, env.fate n (.delete .passwordRotationInProgress) ≠ .fails ∧
    env.fate n (.write .passwordRotationInProgress) ≠ .fails

theorem changePassword_settled (hf : f.Lawful) (hs : s.Sound f) (h : Settled f p s)
    (henv : KeepsNoJournal env) {currentPassword newPassword : String} :
    Triple env (fun t => t = s) (changePassword f currentPassword newPassword)
      (fun changed t => ∃ q, Settled f q t ∧ (changed = false → q = p))
      (fun _ t => Settled f p t ∨ t.Marked) (fun t => ∃ q, Recoverable f q t.forgetSession) := by
  apply (changePassword_triple hs).weaken (fun _ h => h)
  · rintro changed t (⟨-,rfl⟩ | ⟨rfl,hallowed,m,rotation,rollback,hplan,hdone⟩)
    · exact ⟨p,h,fun _ => rfl⟩
    · cases accepts_unique hf hallowed.accepts h.accepts
      exact ⟨newPassword,hplan.settled_done hf (hplan.prepared.settled h) hallowed.validated hdone,
        by simp⟩
  · rintro _ t (hprepared | ⟨hallowed,m,rotation,rollback,hplan,u,hthrew⟩)
    · exact .inl (hprepared.settled h)
    · cases accepts_unique hf hallowed.accepts h.accepts
      have hm := hplan.prepared.settled h
      have hfates := henv.resolve_left (not_not.mpr hthrew.fails)
      cases hthrew.rolledBack with
      | restored v hv ht =>
        rw [ht]
        exact .inl (hplan.settled_restored hm hthrew.interrupted hv)
      | journalLeft hv n hfate => exact absurd hfate (hfates n).1
      | marked v hv ht =>
        rw [ht]
        exact .inr rfl
      | unmarked hv n hfate => exact absurd hfate (hfates n).2
  · rintro t (hprepared | ⟨hallowed,m,rotation,rollback,hplan,hstopped⟩)
    · exact ⟨p,(hprepared.settled h).recoverable⟩
    · cases accepts_unique hf hallowed.accepts h.accepts
      exact ⟨newPassword,(hplan.recoverable_stopped hf (hplan.prepared.settled h) hallowed.validated
        hstopped).forgetSession⟩

theorem writeSecret_settled {key : SecretKey} {value : String} (h : Settled f p s)
    (hjournal : s.Unjournaled key) :
    Triple env (fun t => t = s) (writeSecret f key value) (fun _ t => Settled f p t)
      (fun _ t => Settled f p t) (fun t => Settled f p t) := by
  apply writeSecret_triple.weaken (fun _ h => h)
  · rintro _ t ⟨password,salt,u,hwritten⟩
    cases h.session password hwritten.session
    rw [hwritten.result]
    apply (h.salted hwritten.salted).writeSecret hwritten.made
    intro rotation hrotation
    rw [hwritten.salted.1] at hrotation
    exact hjournal rotation hrotation
  · intro _ t ht
    exact h.salted ht
  · intro t ht
    exact h.salted ht

theorem deleteAccountMnemonic_settled {uuid : String} (h : Settled f p s)
    (hjournal : s.Unjournaled (.accountMnemonic uuid)) :
    Triple env (fun t => t = s) (deleteAccountMnemonic f uuid) (fun _ t => Settled f p t)
      (fun _ t => Settled f p t) (fun t => Settled f p t) := by
  have herased := h.eraseSecret hjournal
  apply deleteAccountMnemonic_triple.weaken (fun _ h => h)
  · intro _ t ht
    cases ht with
    | both hseparate ht =>
      rw [ht]
      exact herased.eraseLegacySecret hjournal
    | own hsame ht =>
      rw [ht]
      exact herased
    | legacyFailed n hfate ht =>
      rw [ht]
      exact herased
  · rintro _ t rfl
    exact h
  · rintro t (rfl | ⟨rfl,-⟩)
    · exact h
    · exact herased

/-- The calls of a session but a change of the password. -/
def SecretCall.isPlain : SecretCall → Bool
  | .restart => false
  | .changePassword _ _ => false
  | _ => true

theorem plainCall_settled (hf : f.Lawful) (hs : s.Sound f) (h : Settled f p s)
    (hjournal : i.KeepsJournal s) (hplain : i.call.isPlain = true) :
    Triple i.environment (fun t => t = i.call.entry s) (i.call.run f) (fun _ t => Settled f p t)
      (fun _ t => Settled f p t) (fun t => Settled f p t) := by
  have hkeys (key : SecretKey) (hkey : i.call.touches key) : s.Unjournaled key := hjournal key hkey
  have hhotkeys (P : AppSecureStore → Prop)
      (hP : ∀ t, P t ↔ Settled f p t ∧
        t.passwordRotationInProgress = s.passwordRotationInProgress) (name : String)
      (hname : i.call.deletes (.votingHotkey name)) (t : AppSecureStore) (ht : P t) :
      P (t.eraseSecret (.votingHotkey name)) := by
    obtain ⟨hsettled,hsame⟩ := (hP t).mp ht
    refine (hP _).mpr ⟨hsettled.eraseSecret ?_,hsame⟩
    intro rotation hrotation
    rw [hsame] at hrotation
    exact hkeys _ (.inr hname) rotation hrotation
  cases hcall : i.call with
  | restart => simp [hcall,SecretCall.isPlain] at hplain
  | changePassword _ _ => simp [hcall,SecretCall.isPlain] at hplain
  | verifyPassword password =>
    exact (verifyPassword_triple hs).weaken (fun _ h => h) (fun _ _ ht => h.unlocked hf ht)
      (fun _ _ ht => h.unlocked hf ht) (fun _ ht => h.unlocked hf ht)
  | migrateAccountMnemonicsAfterUnlock =>
    exact (migrateAccountMnemonicsAfterUnlock_triple hs).weaken (fun _ h => h)
      (fun _ _ ht => h.migrating ht.2.1) (fun _ _ ht => h.migrating ht.2)
      (fun _ ht => h.migrating ht.2)
  | writeAccountMnemonic uuid mnemonic =>
    rw [hcall] at hkeys
    exact triple_bind (writeSecret_settled h (hkeys _ (.inl ⟨mnemonic,rfl⟩)))
      fun _ => triple_pure fun _ ht => ht
  | writeVotingHotkey name hotkey =>
    rw [hcall] at hkeys
    exact triple_bind (writeSecret_settled h (hkeys _ (.inl ⟨hotkey,rfl⟩)))
      fun _ => triple_pure fun _ ht => ht
  | deleteAccountMnemonic uuid =>
    rw [hcall] at hkeys
    exact triple_bind (deleteAccountMnemonic_settled h (hkeys _ (.inr rfl)))
      fun _ => triple_pure fun _ ht => ht
  | deleteVotingHotkey name =>
    rw [hcall] at hhotkeys
    have hmaintains : Maintains i.environment _ (deleteVotingHotkey name) :=
      deleteVotingHotkey_maintains (hhotkeys _ (fun _ => Iff.rfl) name rfl)
    apply triple_bind (hmaintains.weaken (fun _ ht => by rw [ht]; exact ⟨h,rfl⟩) (fun _ _ ht => ht.1)
      (fun _ _ ht => ht.1) (fun _ ht => ht.1))
    exact fun _ => triple_pure fun _ ht => ht
  | deleteVotingHotkeysForAccount uuid =>
    rw [hcall] at hhotkeys
    have hmaintains : Maintains i.environment _ (deleteVotingHotkeysForAccount uuid) :=
      deleteVotingHotkeysForAccount_maintains (fun name hname => hhotkeys _ (fun _ => Iff.rfl) name ⟨name,hname,rfl⟩)
    apply triple_bind (hmaintains.weaken (fun _ ht => by rw [ht]; exact ⟨h,rfl⟩) (fun _ _ ht => ht.1)
      (fun _ _ ht => ht.1) (fun _ ht => ht.1))
    exact fun _ => triple_pure fun _ ht => ht

theorem restart_settled (h : Recoverable f p s.forgetSession) :
    Triple env (fun t => t = s.forgetSession) (SecretCall.run f .restart)
      (fun _ t => Settled f p t) (fun e t => e = .storageUnavailable ∧ Recoverable f p t)
      (fun t => Recoverable f p t) := by
  apply triple_bind (recoverInterruptedPasswordRotation_triple.weaken (fun _ h => h)
    (fun _ _ h => h) ?_ (fun _ hcut => h.recoveryCut hcut))
  · intro _
    apply triple_pure
    rintro t (⟨hnone,rfl⟩ | ⟨rotation,hrotation,hrecovered⟩)
    · exact h.settled hnone rfl
    · exact h.recovered hrotation hrecovered
  · rintro e t (⟨he,hcut⟩ | ⟨hmarker,-⟩)
    · exact ⟨he,h.recoveryCut hcut⟩
    · exact absurd hmarker h.unmarked

theorem call_marked (hs : s.Sound f) (hmarked : s.Marked) :
    Triple i.environment (fun t => t = i.call.entry s) (i.call.run f) (fun _ t => t.Marked)
      (fun _ t => t.Marked) (fun t => t.Marked) := by
  have hsalted {t : AppSecureStore} (h : Salted s t) : t.Marked := by
    rw [AppSecureStore.Marked,h.1]
    exact hmarked
  have hmigrating {t : AppSecureStore} (h : Migrating s t) : t.Marked :=
    h.passwordRotationInProgress.trans hmarked
  have hwrites (key : SecretKey) (value : String) :
      Triple i.environment (fun t => t = s) (do writeSecret f key value; pure true)
        (fun _ t => t.Marked) (fun _ t => t.Marked) (fun t => t.Marked) := by
    apply triple_bind (writeSecret_triple.weaken (fun _ h => h) (fun _ _ h => h)
      (fun _ _ h => hsalted h) (fun _ h => hsalted h))
    intro _
    apply triple_pure
    rintro t ⟨password,salt,u,hwritten⟩
    rw [hwritten.result]
    have hu : u.Marked := hsalted hwritten.salted
    exact hu
  cases hcall : i.call with
  | restart =>
    apply triple_bind (recoverInterruptedPasswordRotation_triple.weaken (fun _ h => h)
      (fun _ _ h => h) ?_ ?_)
    · intro _
      apply triple_pure
      rintro t (⟨hnone,-⟩ | ⟨rotation,hrotation,-⟩)
      · cases hmarked.symm.trans hnone
      · cases hmarked.symm.trans hrotation
    · rintro _ t (⟨-,rfl | ⟨rotation,hrotation,-⟩⟩ | ⟨hmarker,rfl⟩)
      · exact hmarked
      · cases hmarked.symm.trans hrotation
      · exact hmarker
    · rintro t (rfl | ⟨rotation,hrotation,-⟩)
      · exact hmarked
      · cases hmarked.symm.trans hrotation
  | verifyPassword password =>
    exact (verifyPassword_triple hs).weaken (fun _ h => h)
      (fun _ _ ht => ht.migrating.passwordRotationInProgress.trans hmarked)
      (fun _ _ ht => ht.migrating.passwordRotationInProgress.trans hmarked)
      (fun _ ht => ht.migrating.passwordRotationInProgress.trans hmarked)
  | migrateAccountMnemonicsAfterUnlock =>
    exact (migrateAccountMnemonicsAfterUnlock_triple hs).weaken (fun _ h => h)
      (fun _ _ ht => hmigrating ht.2.1) (fun _ _ ht => hmigrating ht.2) (fun _ ht => hmigrating ht.2)
  | writeAccountMnemonic uuid mnemonic => exact hwrites _ _
  | writeVotingHotkey name hotkey => exact hwrites _ _
  | deleteAccountMnemonic uuid =>
    apply triple_bind (deleteAccountMnemonic_triple.weaken (fun _ h => h) (fun _ _ h => h) ?_ ?_)
    · intro _
      apply triple_pure
      rintro t (⟨-,rfl⟩ | ⟨-,rfl⟩ | ⟨n,-,rfl⟩)
      · exact hmarked
      · exact hmarked
      · exact hmarked
    · rintro _ t rfl
      exact hmarked
    · rintro t (rfl | ⟨rfl,-⟩)
      · exact hmarked
      · exact hmarked
  | deleteVotingHotkey name =>
    have hmaintains : Maintains i.environment AppSecureStore.Marked (deleteVotingHotkey name) :=
      deleteVotingHotkey_maintains fun _ ht => ht
    exact (maintains_bind hmaintains fun _ => maintains_pure).weaken (fun _ ht => ht ▸ hmarked)
      (fun _ _ ht => ht) (fun _ _ ht => ht) (fun _ ht => ht)
  | deleteVotingHotkeysForAccount uuid =>
    have hmaintains : Maintains i.environment AppSecureStore.Marked
        (deleteVotingHotkeysForAccount uuid) :=
      deleteVotingHotkeysForAccount_maintains fun _ _ _ ht => ht
    exact (maintains_bind hmaintains fun _ => maintains_pure).weaken (fun _ ht => ht ▸ hmarked)
      (fun _ _ ht => ht) (fun _ _ ht => ht) (fun _ ht => ht)
  | changePassword currentPassword newPassword =>
    have hprepared {t : AppSecureStore} (h : Prepared f s t) : t.Marked := by
      obtain ⟨u,hu,hm⟩ := h.prepared
      exact hm.passwordRotationInProgress.trans (hsalted hu)
    apply (changePassword_triple hs).weaken (fun _ h => h)
    · rintro changed t (⟨-,rfl⟩ | ⟨-,hallowed,-⟩)
      · exact hmarked
      · exact absurd hmarked hallowed.unmarked
    · rintro _ t (h | ⟨hallowed,-⟩)
      · exact hprepared h
      · exact absurd hmarked hallowed.unmarked
    · rintro t (h | ⟨hallowed,-⟩)
      · exact hprepared h
      · exact absurd hmarked hallowed.unmarked

/-- The condition on a call. -/
def KeepsRotations (i : SecretInput) (app : SecretApp) : Prop :=
  i.KeepsJournal app.store ∧ i.DeletesLegacy app.store ∧
    ∀ currentPassword newPassword, i.call = .changePassword currentPassword newPassword →
      KeepsNoJournal i.environment

/-- The store is settled for a password, or a restart settles it; a failed rollback is out of it. -/
def SecretApp.SettledFor (f : SecretFunctions) (p : String) (app : SecretApp) : Prop :=
  app.store.Marked ∨ app.isOpen = true ∧ Settled f p app.store ∨
    app.isOpen = false ∧ Recoverable f p app.store.forgetSession

/-- A change of the password that does not throw, and does not refuse. -/
def SecretInput.MayChange (f : SecretFunctions) (i : SecretInput) (s : AppSecureStore) : Prop :=
  (∃ currentPassword newPassword, i.call = .changePassword currentPassword newPassword) ∧
    ((i.outcome f s).1 = .returned true ∨ (i.outcome f s).1 = .stopped)

theorem next_of_outcome {ending : Ending SecureStoreError Bool} : i.outcome f s = (ending,t) →
    i.next f s = match ending with
      | .stopped => ⟨t.forgetSession,false⟩
      | _ => ⟨t,i.call.opens ending⟩ := by
  intro h
  rw [SecretInput.next,h]
  cases ending <;> rfl

theorem settledFor_next (hf : f.Lawful) (hs : app.store.Sound f) (h : app.SettledFor f p)
    (hguard : KeepsRotations i app) (hopen : i.call = .restart ∨ app.isOpen = true) :
    ∃ q, (i.next f app.store).SettledFor f q ∧ (¬i.MayChange f app.store → q = p) := by
  obtain ⟨hjournal,-,hrotation⟩ := hguard
  cases hout : i.outcome f app.store with
  | mk ending t =>
    rw [next_of_outcome hout]
    by_cases hmarked : app.store.Marked
    · have hends := outcome_triple (call_marked (i := i) hs hmarked)
      rw [hout] at hends
      cases ending with
      | returned r => exact ⟨p,.inl hends,fun _ => rfl⟩
      | threw e => exact ⟨p,.inl hends,fun _ => rfl⟩
      | stopped => exact ⟨p,.inl hends,fun _ => rfl⟩
    · have hstore : Recoverable f p app.store.forgetSession ∧
          (app.isOpen = true → Settled f p app.store) := by
        rcases h with hm | ⟨-,hsettled⟩ | ⟨hclosed,hrecoverable⟩
        · exact absurd hm hmarked
        · exact ⟨hsettled.recoverable,fun _ => hsettled⟩
        · exact ⟨hrecoverable,by simp [hclosed]⟩
      obtain ⟨hrecoverable,hsettled⟩ := hstore
      by_cases hrestart : i.call = .restart
      · have hrestarted : Triple i.environment (fun t => t = i.call.entry app.store) (i.call.run f)
            (fun _ t => Settled f p t) (fun e t => e = .storageUnavailable ∧ Recoverable f p t)
            (fun t => Recoverable f p t) := by
          rw [hrestart]
          exact restart_settled hrecoverable
        have hends := outcome_triple hrestarted
        rw [hout] at hends
        cases ending with
        | returned r => exact ⟨p,.inr (.inl ⟨by rw [hrestart]; rfl,hends⟩),fun _ => rfl⟩
        | threw e =>
          obtain ⟨rfl,ht⟩ := hends
          exact ⟨p,.inr (.inr ⟨by rw [hrestart]; rfl,ht.forgetSession⟩),fun _ => rfl⟩
        | stopped => exact ⟨p,.inr (.inr ⟨rfl,hends.forgetSession.forgetSession⟩),fun _ => rfl⟩
      · have hsettled' := hsettled (hopen.resolve_left hrestart)
        have hopens (ending : Ending SecureStoreError Bool) (hending : ending ≠ .stopped) :
            i.call.opens ending = true := by
          cases hcall : i.call with
          | restart => exact absurd hcall hrestart
          | _ =>
            cases ending with
            | stopped => exact absurd rfl hending
            | returned r => rfl
            | threw e => cases e <;> rfl
        by_cases hplain : i.call.isPlain = true
        · have hends := outcome_triple (plainCall_settled hf hs hsettled' hjournal hplain)
          rw [hout] at hends
          cases ending with
          | returned r => exact ⟨p,.inr (.inl ⟨hopens (.returned r) (by simp),hends⟩),fun _ => rfl⟩
          | threw e => exact ⟨p,.inr (.inl ⟨hopens (.threw e) (by simp),hends⟩),fun _ => rfl⟩
          | stopped =>
            exact ⟨p,.inr (.inr ⟨rfl,hends.recoverable.forgetSession⟩),fun _ => rfl⟩
        · obtain ⟨currentPassword,newPassword,hcall⟩ :
              ∃ currentPassword newPassword, i.call = .changePassword currentPassword newPassword := by
            cases hcall : i.call with
            | changePassword currentPassword newPassword => exact ⟨_,_,rfl⟩
            | restart => exact absurd hcall hrestart
            | _ => simp [hcall,SecretCall.isPlain] at hplain
          have hchanged : Triple i.environment (fun t => t = i.call.entry app.store) (i.call.run f)
              (fun changed t => ∃ q, Settled f q t ∧ (changed = false → q = p))
              (fun _ t => Settled f p t ∨ t.Marked)
              (fun t => ∃ q, Recoverable f q t.forgetSession) := by
            rw [hcall]
            exact changePassword_settled hf hs hsettled' (hrotation _ _ hcall)
          have hends := outcome_triple hchanged
          rw [hout] at hends
          cases ending with
          | returned r =>
            obtain ⟨q,hq,hsame⟩ := hends
            refine ⟨q,.inr (.inl ⟨hopens (.returned r) (by simp),hq⟩),fun hnot => hsame ?_⟩
            cases r with
            | false => rfl
            | true => exact absurd ⟨⟨_,_,hcall⟩,.inl (by rw [hout])⟩ hnot
          | threw e =>
            rcases hends with hq | hm
            · exact ⟨p,.inr (.inl ⟨hopens (.threw e) (by simp),hq⟩),fun _ => rfl⟩
            · exact ⟨p,.inl hm,fun _ => rfl⟩
          | stopped =>
            obtain ⟨q,hq⟩ := hends
            exact ⟨q,.inr (.inr ⟨rfl,hq.forgetSession⟩),fun hnot =>
              absurd ⟨⟨_,_,hcall⟩,.inr (by rw [hout])⟩ hnot⟩

theorem sound_next (hf : f.Lawful) (hs : app.store.Sound f) (hguard : KeepsRotations i app) :
    (i.next f app.store).store.Sound f := by
  have hleaves := (callLeaves hf hs hguard.1 hguard.2.1).outcome.1
  rcases next_store (f := f) (i := i) (s := app.store) with hnext | hnext
  · rw [hnext]
    exact hleaves
  · rw [hnext]
    exact hleaves.withSession none

/-- The wallet with a password whose secrets were all written with it. -/
structure AppSecureStore.Configured (f : SecretFunctions) (s : AppSecureStore) (p : String) :
    Prop where
  sound : s.Sound f
  accepts : s.accepts f p = true
  opens : s.OpensWith f p
  session : ∀ password, s.sessionPassword = some password → password = p
  journal : s.passwordRotationInProgress = none

/-- A payload decrypts to a text. -/
def AppSecureStore.Decrypts (f : SecretFunctions) (s : AppSecureStore) (p payload text : String) :
    Prop :=
  ∃ salt, s.secureStoreSalt = some salt ∧ f.decryptSecretPayload payload p salt = some text

/-- There is an accepted password, and it decrypts every stored secret to what was written last. -/
structure SecretsReadable (f : SecretFunctions) (s : AppSecureStore) : Prop where
  accepted : ∃ p, s.accepts f p = true
  own : ∀ p, s.accepts f p = true → ∀ key payload, s.secrets.value key = some payload →
    ∃ text, s.written key = some (.clear text) ∧ s.Decrypts f p payload text
  legacy : ∀ p, s.accepts f p = true → ∀ uuid payload, s.mnemonic uuid = none →
    s.legacyMnemonics.value uuid = some payload →
      ∃ text, s.written (.accountMnemonic uuid) = some (.clear text) ∧ s.Decrypts f p payload text
  stored : ∀ key w, s.written key = some w → (∃ payload, s.secrets.value key = some payload) ∨
    ∃ uuid payload, key = .accountMnemonic uuid ∧ s.legacyMnemonics.value uuid = some payload
  deleted : ∀ key, s.written key = none → s.secrets.value key = none
  legacyDeleted : ∀ uuid, s.written (.accountMnemonic uuid) = none →
    s.legacyMnemonics.value uuid = none

theorem Opens.decrypts (hf : f.Lawful) {w : Written} {payload : String}
    (h : Opens f s.secureStoreSalt p w payload) :
    ∃ text, w = .clear text ∧ s.Decrypts f p payload text := by
  cases w with
  | clear text =>
    obtain ⟨salt,hsalt,rfl⟩ := h
    exact ⟨text,rfl,salt,hsalt,hf.decrypt_encrypt text p salt⟩
  | legacy raw => exact h.elim

theorem Settled.readable (hf : f.Lawful) (hs : s.Sound f) (h : Settled f p s) :
    SecretsReadable f s where
  accepted := ⟨p,h.accepts⟩
  own q hq key payload hpayload := by
    cases accepts_unique hf hq h.accepts
    cases hw : s.written key with
    | none =>
      rw [hs.keeps.unwritten key hw] at hpayload
      cases hpayload
    | some w =>
      obtain ⟨text,rfl,hdecrypts⟩ := (h.opens.own key w payload hw hpayload).decrypts hf
      exact ⟨text,rfl,hdecrypts⟩
  legacy q hq uuid payload hnone hpayload := by
    cases accepts_unique hf hq h.accepts
    cases hw : s.written (.accountMnemonic uuid) with
    | none =>
      rw [hs.keeps.legacy uuid hw] at hpayload
      cases hpayload
    | some w =>
      obtain ⟨text,rfl,hdecrypts⟩ := (h.opens.legacy uuid w payload hw hnone hpayload).decrypts hf
      exact ⟨text,rfl,hdecrypts⟩
  stored key w hw := by
    cases key with
    | votingHotkey name => exact .inl (hs.keeps.hotkey name w hw)
    | accountMnemonic uuid =>
      cases hmnemonic : s.mnemonic uuid with
      | some payload => exact .inl ⟨payload,hmnemonic⟩
      | none =>
        obtain ⟨payload,hpayload,-⟩ := hs.keeps.mnemonic uuid w hw hmnemonic
        exact .inr ⟨uuid,payload,rfl,hpayload⟩
  deleted := hs.keeps.unwritten
  legacyDeleted := hs.keeps.legacy

theorem settledFor_runs (hf : f.Lawful) (hs : app.store.Sound f) (h : app.SettledFor f p)
    (hrun : GuardedRuns (SecretInput.step f) KeepsRotations app app') :
    app'.store.Sound f ∧ ∃ q, app'.SettledFor f q := by
  apply hrun.invariant (P := fun app => app.store.Sound f ∧ ∃ q, app.SettledFor f q)
  · rintro i app app' ⟨hs,q,hq⟩ hguard hstep
    obtain ⟨hopen,rfl⟩ := SecretInput.step_eq f hstep
    obtain ⟨q',hq',-⟩ := settledFor_next hf hs hq hguard hopen
    exact ⟨sound_next hf hs hguard,q',hq'⟩
  · exact ⟨hs,p,h⟩

/-- The condition on a call, and that it does not change the password. -/
def KeepsPassword (f : SecretFunctions) (i : SecretInput) (app : SecretApp) : Prop :=
  KeepsRotations i app ∧ ¬i.MayChange f app.store

theorem samePassword_runs (hf : f.Lawful) (hs : app.store.Sound f) (h : app.SettledFor f p)
    (hrun : GuardedRuns (SecretInput.step f) (KeepsPassword f) app app') :
    app'.store.Sound f ∧ app'.SettledFor f p := by
  apply hrun.invariant (P := fun app => app.store.Sound f ∧ app.SettledFor f p)
  · rintro i app app' ⟨hs,hp⟩ ⟨hguard,hsame⟩ hstep
    obtain ⟨hopen,rfl⟩ := SecretInput.step_eq f hstep
    obtain ⟨q,hq,heq⟩ := settledFor_next hf hs hp hguard hopen
    rw [heq hsame] at hq
    exact ⟨sound_next hf hs hguard,hq⟩
  · exact ⟨hs,h⟩

/-- What is promised of an app that is open, and in whose store no rollback failed. -/
structure RotationSafe (f : SecretFunctions) (app : SecretApp) : Prop where
  readable : SecretsReadable f app.store
  recorded : ∀ i, KeepsRotations i app →
    RecordedCall i app.store (i.outcome f app.store).1 (i.outcome f app.store).2
  thrown : ∀ i, KeepsRotations i app → ∀ e, (i.outcome f app.store).1 = .threw e →
    ∀ p, app.store.accepts f p = true → ∀ app',
      GuardedRuns (SecretInput.step f) (KeepsPassword f) (i.next f app.store) app' →
        app'.isOpen = true → ¬app'.store.Marked → app'.store.accepts f p = true

/-- In every run from a wallet with a password whose calls all meet the condition, what is promised
holds in each session in which no rollback failed. -/
theorem passwordRotation_runs (hf : f.Lawful) (hconfigured : app.store.Configured f p)
    (hrun : GuardedRuns (SecretInput.step f) KeepsRotations app app') (hopen : app'.isOpen = true)
    (hunmarked : ¬app'.store.Marked) : RotationSafe f app' := by
  have hsettled : Settled f p app.store := {
    accepts := hconfigured.accepts
    opens := hconfigured.opens
    session := hconfigured.session
    unmarked := by simp [hconfigured.journal]
    journal := by simp [hconfigured.journal] }
  have hstart : app.SettledFor f p := by
    cases happ : app.isOpen with
    | true => exact .inr (.inl ⟨happ,hsettled⟩)
    | false => exact .inr (.inr ⟨happ,hsettled.recoverable⟩)
  have hsettledOf {q : String} {app : SecretApp} (h : app.SettledFor f q) (ho : app.isOpen = true)
      (hm : ¬app.store.Marked) : Settled f q app.store := by
    rcases h with hm' | ⟨-,hq⟩ | ⟨hclosed,-⟩
    · exact absurd hm' hm
    · exact hq
    · rw [ho] at hclosed
      cases hclosed
  obtain ⟨hs,q,hq⟩ := settledFor_runs hf hconfigured.sound hstart hrun
  have hq' := hsettledOf hq hopen hunmarked
  refine ⟨hq'.readable hf hs,fun i hguard => (callLeaves hf hs hguard.1 hguard.2.1).outcome.2,?_⟩
  intro i hguard e hthrew p' hp' app'' hrun' hopen' hunmarked'
  obtain ⟨q',hnext,hsame⟩ := settledFor_next hf hs hq hguard (.inr hopen)
  have hnot : ¬i.MayChange f app'.store := by
    rintro ⟨-,hreturned | hstopped⟩
    · rw [hthrew] at hreturned
      cases hreturned
    · rw [hthrew] at hstopped
      cases hstopped
  rw [hsame hnot] at hnext
  cases accepts_unique hf hp' hq'.accepts
  obtain ⟨-,hafter⟩ := samePassword_runs hf (sound_next hf hs hguard) hnext hrun'
  exact (hsettledOf hafter hopen' hunmarked').accepts

/-- A wallet with one mnemonic. -/
def rotationStore : AppSecureStore where
  secrets := ⟨[(.accountMnemonic "a",plainFunctions.encryptSecretPayload "seed" "abcdef" "salt")],
    List.nodup_singleton _⟩
  legacyMnemonics := .empty
  passwordVerifier := some "abcdef"
  passwordVerifierSalt := some "salt"
  secureStoreSalt := some "salt"
  passwordRotationInProgress := none
  accountMnemonicMigrationComplete := true
  sessionPassword := some "abcdef"
  written key := if key = .accountMnemonic "a" then some (.clear "seed") else none

theorem rotationStore_value {key : SecretKey} : rotationStore.secrets.value key =
    if key = .accountMnemonic "a" then
      some (plainFunctions.encryptSecretPayload "seed" "abcdef" "salt")
    else none := by
  by_cases h : key = .accountMnemonic "a"
  · subst h
    rfl
  · simp [rotationStore,Entries.value,Table.get,Table.find?,h,Ne.symm h]

theorem rotationStore_configured : rotationStore.Configured plainFunctions "abcdef" := by
  have hopens (key : SecretKey) (w : Written) (payload : String)
      (hw : rotationStore.written key = some w)
      (hpayload : rotationStore.secrets.value key = some payload) :
      w = .clear "seed" ∧ payload = plainFunctions.encryptSecretPayload "seed" "abcdef" "salt" := by
    rw [rotationStore_value] at hpayload
    simp only [rotationStore] at hw
    split at hw
    · rw [if_pos ‹_›] at hpayload
      cases hw
      cases hpayload
      exact ⟨rfl,rfl⟩
    · cases hw
  refine ⟨⟨⟨?_,?_,?_,?_,fun _ _ => rfl,fun _ _ => rfl⟩,by simp [rotationStore],
    by simp [plainFunctions]⟩,by decide,⟨?_,?_⟩,by simp [rotationStore],rfl⟩
  · intro key w payload hw hpayload
    obtain ⟨rfl,rfl⟩ := hopens key w payload hw hpayload
    exact ⟨"abcdef","salt",rfl,rfl⟩
  · intro name w hw
    simp [rotationStore] at hw
  · intro uuid w hw hnone
    rw [AppSecureStore.mnemonic,rotationStore_value] at hnone
    simp only [rotationStore] at hw
    split at hw
    · rw [if_pos ‹_›] at hnone
      cases hnone
    · cases hw
  · intro key hw
    rw [rotationStore_value]
    simp only [rotationStore] at hw
    split at hw
    · cases hw
    · rw [if_neg ‹_›]
  · intro key w payload hw hpayload
    obtain ⟨rfl,rfl⟩ := hopens key w payload hw hpayload
    exact ⟨"salt",rfl,rfl⟩
  · intro uuid w payload _ _ hpayload
    cases hpayload

theorem keepsRotations_untouched (htouches : ∀ key, ¬i.call.touches key)
    (henv : i.environment = reliableStorage) : KeepsRotations i app := by
  refine ⟨fun key hkey => absurd hkey (htouches key),fun uuid hcall => ?_,fun _ _ _ => .inl ?_⟩
  · have hdeletes : i.call.touches (.accountMnemonic uuid) := by
      rw [hcall]
      exact .inr rfl
    exact absurd hdeletes (htouches _)
  · rintro ⟨n,key,-,hfate⟩
    rw [henv] at hfate
    cases hfate

/-- A change of the password, a restart and an unlock. -/
theorem password_rotated :
    ∃ app : SecretApp,
      GuardedRuns (SecretInput.step plainFunctions) KeepsRotations ⟨rotationStore,true⟩ app ∧
      app.store.accepts plainFunctions "ghijkl" = true ∧
      app.store.sessionPassword = some "ghijkl" ∧ RotationSafe plainFunctions app := by
  obtain ⟨app,happ,app',happ',app'',happ'',hopen,hjournal,haccepts,hsession⟩ : ∃ app,
      SecretInput.step plainFunctions ⟨.changePassword "abcdef" "ghijkl",reliableStorage⟩
        ⟨rotationStore,true⟩ = .ok app ∧
      ∃ app', SecretInput.step plainFunctions ⟨.restart,reliableStorage⟩ app = .ok app' ∧
      ∃ app'', SecretInput.step plainFunctions ⟨.verifyPassword "ghijkl",reliableStorage⟩ app' =
        .ok app'' ∧ app''.isOpen = true ∧ app''.store.passwordRotationInProgress = none ∧
        app''.store.accepts plainFunctions "ghijkl" = true ∧
        app''.store.sessionPassword = some "ghijkl" := ⟨_,rfl,_,rfl,_,rfl,rfl,rfl,rfl,rfl⟩
  have hrun : GuardedRuns (SecretInput.step plainFunctions) KeepsRotations ⟨rotationStore,true⟩
      app'' := by
    apply GuardedRuns.tail _ (GuardedRuns.tail _ (GuardedRuns.tail _ (.refl _) _ happ) _ happ') _ happ''
    · apply keepsRotations_untouched _ rfl
      rintro key (⟨value,h⟩ | h) <;> cases h
    · apply keepsRotations_untouched _ rfl
      rintro key (⟨value,h⟩ | h) <;> cases h
    · apply keepsRotations_untouched _ rfl
      rintro key (⟨value,h⟩ | h) <;> cases h
  refine ⟨app'',hrun,haccepts,hsession,
    passwordRotation_runs plainFunctions_lawful rotationStore_configured hrun hopen ?_⟩
  rw [AppSecureStore.Marked,hjournal]
  simp

/-- Storage in which the journal cannot be deleted. -/
def journalStuckStorage : StorageEnvironment :=
  { reliableStorage with
    fate := fun _ op => if op = .delete .passwordRotationInProgress then .fails else .done }

/-- A mnemonic that is written after a rotation whose journal stays is overwritten at the next
start. -/
theorem stale_journal_overwrites :
    ¬ ∀ app app' : SecretApp, app.store.Configured plainFunctions "abcdef" →
      Runs (SecretInput.step plainFunctions) app app' → app'.isOpen = true →
        ¬app'.store.Marked → SecretsReadable plainFunctions app'.store := by
  intro h
  obtain ⟨app,happ,hopen,hjournal,haccepts,hvalue,hwritten⟩ : ∃ app,
      execute (SecretInput.step plainFunctions)
        [⟨.changePassword "abcdef" "ghijkl",journalStuckStorage⟩,
          ⟨.writeAccountMnemonic "a" "other",reliableStorage⟩,⟨.restart,reliableStorage⟩]
        ⟨rotationStore,true⟩ = .ok app ∧ app.isOpen = true ∧
      app.store.passwordRotationInProgress = none ∧
      app.store.accepts plainFunctions "ghijkl" = true ∧
      app.store.secrets.value (.accountMnemonic "a") =
        some (plainFunctions.encryptSecretPayload "seed" "ghijkl" "salt") ∧
      app.store.written (.accountMnemonic "a") = some (.clear "other") :=
    ⟨_,rfl,rfl,rfl,rfl,rfl,rfl⟩
  have hreadable := h ⟨rotationStore,true⟩ app rotationStore_configured (runs_of_execute happ) hopen
    (by rw [AppSecureStore.Marked,hjournal]; simp)
  obtain ⟨text,htext,salt,-,hdecrypts⟩ := hreadable.own "ghijkl" haccepts _ _ hvalue
  rw [hwritten] at htext
  cases htext
  have hopens := plainFunctions_lawful.decrypt_encrypt "seed" "ghijkl" "salt"
  have hother := hopens.symm.trans hdecrypts
  simp at hother

end CoppiceWallet.SecureStore
