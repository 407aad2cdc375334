import CoppiceWallet.SecureStore.SecretRecords

/-! # The mnemonic store -/

namespace CoppiceWallet.SecureStore

open CoppiceWallet.Lib CoppiceWallet.Lib.Faulty

variable {f : SecretFunctions} {i : SecretInput} {s t : AppSecureStore}

/-- Each mnemonic is held by its own storage, or by the regular one while it is not yet copied, and
one that is deleted is in neither. -/
structure MnemonicsHeld (f : SecretFunctions) (s : AppSecureStore) : Prop where
  held : ∀ uuid w, s.written (.accountMnemonic uuid) = some w →
    (∃ payload, s.mnemonic uuid = some payload ∧ Held f s.secureStoreSalt w payload) ∨
    (s.mnemonic uuid = none ∧ ∃ payload, s.legacyMnemonics.value uuid = some payload ∧
      Held f s.secureStoreSalt w payload)
  deleted : ∀ uuid, s.written (.accountMnemonic uuid) = none →
    s.mnemonic uuid = none ∧ s.legacyMnemonics.value uuid = none

/-- The calls that move mnemonics for a read. -/
def SecretCall.unlocks : SecretCall → Bool
  | .verifyPassword _ => true
  | .migrateAccountMnemonicsAfterUnlock => true
  | _ => false

/-- What a call does to mnemonics, and to the record of what was written last. -/
structure MnemonicCall (i : SecretInput) (s : AppSecureStore)
    (ending : Ending SecureStoreError Bool) (t : AppSecureStore) : Prop where
  recorded : RecordedCall i s ending t
  kept : i.call.unlocks = true → ∀ uuid payload, s.mnemonic uuid = some payload →
    t.mnemonic uuid = some payload
  available : i.call.unlocks = true → ending = .returned true → t.Available

theorem AppSecureStore.Sound.mnemonicsHeld (h : s.Sound f) : MnemonicsHeld f s where
  held uuid w hw := by
    cases hmnemonic : s.mnemonic uuid with
    | some payload => exact .inl ⟨payload,rfl,h.keeps.written _ w payload hw hmnemonic⟩
    | none => exact .inr ⟨rfl,h.keeps.mnemonic uuid w hw hmnemonic⟩
  deleted uuid hw := ⟨h.keeps.unwritten _ hw,h.keeps.legacy uuid hw⟩

/-- An unlock never takes a mnemonic that is in its own storage from the regular one, and reports
success only when all are there. -/
theorem unlocks_triple (hs : s.Sound f) (hunlocks : i.call.unlocks = true) :
    Triple i.environment (fun t => t = i.call.entry s) (i.call.run f)
      (fun unlocked t => (∀ uuid payload, s.mnemonic uuid = some payload →
        t.mnemonic uuid = some payload) ∧ (unlocked = true → t.Available))
      (fun _ t => ∀ uuid payload, s.mnemonic uuid = some payload → t.mnemonic uuid = some payload)
      (fun t => ∀ uuid payload, s.mnemonic uuid = some payload →
        t.mnemonic uuid = some payload) := by
  cases hcall : i.call with
  | verifyPassword password =>
    exact (verifyPassword_triple hs).weaken (fun _ h => h)
      (fun _ _ h => ⟨fun _ payload => h.migrating.kept _ payload,h.available⟩)
      (fun _ _ h _ payload => h.migrating.kept _ payload)
      (fun _ h _ payload => h.migrating.kept _ payload)
  | migrateAccountMnemonicsAfterUnlock =>
    exact (migrateAccountMnemonicsAfterUnlock_triple hs).weaken (fun _ h => h)
      (fun _ _ h => ⟨fun _ payload => h.2.1.kept _ payload,h.2.2⟩)
      (fun _ _ h _ payload => h.2.kept _ payload) (fun _ h _ payload => h.2.kept _ payload)
  | _ => simp [hcall,SecretCall.unlocks] at hunlocks

theorem mnemonicCall (hf : f.Lawful) (hs : s.Sound f) (hjournal : i.KeepsJournal s)
    (hlegacy : i.DeletesLegacy s) :
    MnemonicCall i s (i.outcome f s).1 (i.outcome f s).2 where
  recorded := (callLeaves hf hs hjournal hlegacy).outcome.2
  kept hunlocks := by
    have h := outcome_triple (unlocks_triple hs hunlocks)
    cases hends : i.outcome f s with
    | mk ending t =>
      rw [hends] at h
      cases ending with
      | returned r => exact h.1
      | threw e => exact h
      | stopped => exact h
  available hunlocks := by
    have h := outcome_triple (unlocks_triple hs hunlocks)
    cases hends : i.outcome f s with
    | mk ending t =>
      rw [hends] at h
      rintro ⟨⟩
      exact h.2 rfl

/-- The condition on a call. -/
def KeepsMnemonics (i : SecretInput) (app : SecretApp) : Prop :=
  i.KeepsJournal app.store ∧ i.DeletesLegacy app.store

/-- A store that an older version may leave: what its storages hold counts as written, and a
mnemonic of the mnemonic storage goes before one of the regular storage. -/
structure AppSecureStore.Initial (f : SecretFunctions) (s : AppSecureStore) : Prop where
  mnemonic : ∀ uuid, s.written (.accountMnemonic uuid) =
    ((s.mnemonic uuid).or (s.legacyMnemonics.value uuid)).map .legacy
  hotkey : ∀ name, s.written (.votingHotkey name) =
    (s.secrets.value (.votingHotkey name)).map .legacy
  migrated : s.accountMnemonicMigrationComplete = true → s.NoLegacy
  platform : f.usesSeparateMnemonicStorage = false → s.NoLegacy
  journal : s.passwordRotationInProgress = none

theorem AppSecureStore.Initial.sound (h : s.Initial f) : s.Sound f where
  keeps := {
    written := by
      intro key w payload hw hpayload
      cases key with
      | accountMnemonic uuid =>
        rw [h.mnemonic,AppSecureStore.mnemonic,hpayload] at hw
        cases hw
        exact .inl rfl
      | votingHotkey name =>
        rw [h.hotkey,hpayload] at hw
        cases hw
        exact .inl rfl
    hotkey := by
      intro name w hw
      rw [h.hotkey,Option.map_eq_some_iff] at hw
      obtain ⟨payload,hpayload,-⟩ := hw
      exact ⟨payload,hpayload⟩
    mnemonic := by
      intro uuid w hw hnone
      rw [h.mnemonic,hnone,Option.none_or,Option.map_eq_some_iff] at hw
      obtain ⟨payload,hpayload,rfl⟩ := hw
      exact ⟨payload,hpayload,.inl rfl⟩
    unwritten := by
      intro key hw
      cases key with
      | accountMnemonic uuid =>
        rw [h.mnemonic,Option.map_eq_none_iff,Option.or_eq_none_iff] at hw
        exact hw.1
      | votingHotkey name =>
        rw [h.hotkey,Option.map_eq_none_iff] at hw
        exact hw
    legacy := by
      intro uuid hw
      rw [h.mnemonic,Option.map_eq_none_iff,Option.or_eq_none_iff] at hw
      exact hw.2
    migrated := h.migrated }
  journal rotation hrotation := by
    rw [h.journal] at hrotation
    cases hrotation
  platform := h.platform

/-- In every run that starts from what an older version left, and whose calls all meet the
condition, every mnemonic is held, and each further such call does what it should. -/
theorem mnemonics_runs (hf : f.Lawful) {app app' : SecretApp} (hinitial : app.store.Initial f)
    (hrun : GuardedRuns (SecretInput.step f) KeepsMnemonics app app') :
    MnemonicsHeld f app'.store ∧ ∀ i, KeepsMnemonics i app' → ∀ app'', i.step f app' = .ok app'' →
      MnemonicCall i app'.store (i.outcome f app'.store).1 (i.outcome f app'.store).2 := by
  have hsound : app'.store.Sound f := by
    apply hrun.invariant (P := fun app => app.store.Sound f)
    · intro i app app' hs hguard hstep
      obtain ⟨-,rfl⟩ := SecretInput.step_eq f hstep
      have hleaves := (callLeaves hf hs hguard.1 hguard.2).outcome.1
      rcases next_store (f := f) (i := i) (s := app.store) with hnext | hnext
      · rw [hnext]
        exact hleaves
      · rw [hnext]
        exact hleaves.withSession none
    · exact hinitial.sound
  refine ⟨hsound.mnemonicsHeld,fun i hguard app'' _ => ?_⟩
  exact mnemonicCall hf hsound hguard.1 hguard.2

/-- A store of an older version, with one mnemonic in the regular storage. -/
def legacyStore : AppSecureStore where
  secrets := .empty
  legacyMnemonics := ⟨[("a",plainFunctions.encryptSecretPayload "seed" "abcdef" "salt")],by simp⟩
  passwordVerifier := some "abcdef"
  passwordVerifierSalt := some "salt"
  secureStoreSalt := some "salt"
  passwordRotationInProgress := none
  accountMnemonicMigrationComplete := false
  sessionPassword := none
  written key :=
    if key = .accountMnemonic "a" then
      some (.legacy (plainFunctions.encryptSecretPayload "seed" "abcdef" "salt"))
    else none

theorem legacyStore_initial : legacyStore.Initial plainFunctions where
  mnemonic uuid := by
    by_cases h : uuid = "a"
    · subst h
      rfl
    · simp [legacyStore,AppSecureStore.mnemonic,Entries.value,Table.get,Table.find?,Table.empty,h,
        Ne.symm h]
  hotkey name := rfl
  migrated := by simp [legacyStore]
  platform := by simp [plainFunctions]
  journal := rfl

/-- An unlock moves the mnemonic, and a deletion removes it for good. -/
theorem mnemonics_moved :
    ∃ app app', GuardedRuns (SecretInput.step plainFunctions) KeepsMnemonics ⟨legacyStore,true⟩ app ∧
      GuardedRuns (SecretInput.step plainFunctions) KeepsMnemonics ⟨legacyStore,true⟩ app' ∧
      app.store.legacyMnemonics.value "a" = none ∧ (app.store.mnemonic "a").isSome = true ∧
      app'.store.mnemonic "a" = none ∧ MnemonicsHeld plainFunctions app.store ∧
      MnemonicsHeld plainFunctions app'.store := by
  obtain ⟨app,happ,hlegacy,hmnemonic,hjournal⟩ : ∃ app,
      SecretInput.step plainFunctions ⟨.verifyPassword "abcdef",reliableStorage⟩
        ⟨legacyStore,true⟩ = .ok app ∧
      app.store.legacyMnemonics.value "a" = none ∧ (app.store.mnemonic "a").isSome = true ∧
      app.store.passwordRotationInProgress = none ∧
      ∃ app', SecretInput.step plainFunctions ⟨.deleteAccountMnemonic "a",reliableStorage⟩ app =
        .ok app' ∧ app'.store.mnemonic "a" = none := ⟨_,rfl,rfl,rfl,rfl,_,rfl,rfl⟩
  obtain ⟨hjournal,app',happ',hdeleted⟩ := hjournal
  have hrun : GuardedRuns (SecretInput.step plainFunctions) KeepsMnemonics ⟨legacyStore,true⟩ app := by
    apply GuardedRuns.tail _ (.refl _) _ happ
    constructor
    · intro key _ rotation hrotation
      cases hrotation
    · intro uuid h
      cases h
  have hrun' : GuardedRuns (SecretInput.step plainFunctions) KeepsMnemonics ⟨legacyStore,true⟩
      app' := by
    apply hrun.tail _ _ happ'
    constructor
    · intro key _ rotation hrotation
      rw [hjournal] at hrotation
      cases hrotation
    · rintro uuid ⟨⟩
      exact .inl hlegacy
  exact ⟨app,app',hrun,hrun',hlegacy,hmnemonic,hdeleted,
    (mnemonics_runs plainFunctions_lawful legacyStore_initial hrun).1,
    (mnemonics_runs plainFunctions_lawful legacyStore_initial hrun').1⟩

/-- A mnemonic that was moved, but is still in the regular storage too. -/
def copiedStore : AppSecureStore :=
  { legacyStore with
    secrets := ⟨[(.accountMnemonic "a",
      plainFunctions.encryptSecretPayload "seed" "abcdef" "salt")],by simp⟩ }

theorem copiedStore_initial : copiedStore.Initial plainFunctions where
  mnemonic uuid := by
    by_cases h : uuid = "a"
    · subst h
      rfl
    · simp [copiedStore,legacyStore,AppSecureStore.mnemonic,Entries.value,Table.get,Table.find?,h,
        Ne.symm h]
  hotkey name := rfl
  migrated := by simp [copiedStore,legacyStore]
  platform := by simp [plainFunctions]
  journal := rfl

/-- Storage in which an older mnemonic cannot be deleted. -/
def stickyStorage : StorageEnvironment :=
  { reliableStorage with
    fate := fun _ op => if op = .delete (.legacyMnemonic "a") then .fails else .done }

/-- A mnemonic whose deletion returned is there again after the next unlock. -/
theorem deleted_mnemonic_returns :
    ¬ ∀ app app' : SecretApp, app.store.Initial plainFunctions →
      Runs (SecretInput.step plainFunctions) app app' → MnemonicsHeld plainFunctions app'.store := by
  intro h
  obtain ⟨app,happ,hdeleted,hmnemonic⟩ : ∃ app, execute (SecretInput.step plainFunctions)
      [⟨.deleteAccountMnemonic "a",stickyStorage⟩,⟨.verifyPassword "abcdef",reliableStorage⟩]
        ⟨copiedStore,true⟩ = .ok app ∧
      app.store.written (.accountMnemonic "a") = none ∧
      (app.store.mnemonic "a").isSome = true := ⟨_,rfl,rfl,rfl⟩
  have hheld := h ⟨copiedStore,true⟩ app copiedStore_initial (runs_of_execute happ)
  rw [(hheld.deleted "a" hdeleted).1] at hmnemonic
  cases hmnemonic

end CoppiceWallet.SecureStore
