import CoppiceWallet.SecureStore.PasswordChange

/-! # What a call leaves of what was written -/

namespace CoppiceWallet.SecureStore

open CoppiceWallet.Lib CoppiceWallet.Lib.Faulty

variable {f : SecretFunctions} {env : StorageEnvironment} {s t m : AppSecureStore}

def SecretCall.writes : SecretCall → Option (SecretKey × String)
  | .writeAccountMnemonic uuid mnemonic => some (.accountMnemonic uuid,mnemonic)
  | .writeVotingHotkey name hotkey => some (.votingHotkey name,hotkey)
  | _ => none

def SecretCall.deletes : SecretCall → SecretKey → Prop
  | .deleteAccountMnemonic uuid,key => key = .accountMnemonic uuid
  | .deleteVotingHotkey name,key => key = .votingHotkey name
  | .deleteVotingHotkeysForAccount uuid,key =>
    ∃ name, hotkeyOf uuid name = true ∧ key = .votingHotkey name
  | _,_ => False

/-- The secrets that a call may write or delete. -/
def SecretCall.touches (call : SecretCall) (key : SecretKey) : Prop :=
  (∃ value, call.writes = some (key,value)) ∨ call.deletes key

/-- What is recorded of a call: what it wrote, once it returns, and that what it deleted is gone. -/
structure RecordedCall (i : SecretInput) (s : AppSecureStore)
    (ending : Ending SecureStoreError Bool) (t : AppSecureStore) : Prop where
  written : ∀ key value, i.call.writes = some (key,value) → ending = .returned true →
    t.written key = some (.clear value)
  unwritten : ∀ key value, i.call.writes = some (key,value) → ending ≠ .returned true →
    t.written = s.written
  deleted : ∀ key, i.call.deletes key → ending = .returned true → t.written key = none
  untouched : ∀ key, ¬i.call.touches key → t.written key = s.written key

theorem RecordedCall.same {i : SecretInput} {ending : Ending SecureStoreError Bool}
    (hwritten : t.written = s.written)
    (h : ending ≠ .returned true ∨ i.call.writes = none ∧ ∀ key, ¬i.call.deletes key) :
    RecordedCall i s ending t where
  written key value hwrites hreturned := by
    rcases h with hending | ⟨hnone,-⟩
    · exact absurd hreturned hending
    · rw [hnone] at hwrites
      cases hwrites
  unwritten _ _ _ _ := hwritten
  deleted key hdeletes hreturned := by
    rcases h with hending | ⟨-,hnone⟩
    · exact absurd hreturned hending
    · exact absurd hdeletes (hnone key)
  untouched key _ := by rw [hwritten]

/-- A deletion of a mnemonic that the regular storage has too deletes it there as well, or stops
where no other one was there. -/
def SecretInput.DeletesLegacy (i : SecretInput) (s : AppSecureStore) : Prop :=
  ∀ uuid, i.call = .deleteAccountMnemonic uuid → s.legacyMnemonics.value uuid = none ∨
    ∀ n, i.environment.fate n (.delete (.legacyMnemonic uuid)) = .done ∨
      i.environment.fate n (.delete (.legacyMnemonic uuid)) = .stops ∧ s.mnemonic uuid = none

/-- A call writes and deletes no secret that a journal in the store has an entry for. -/
def SecretInput.KeepsJournal (i : SecretInput) (s : AppSecureStore) : Prop :=
  ∀ key, i.call.touches key → s.Unjournaled key

theorem outcome_triple {i : SecretInput} {post : Bool → AppSecureStore → Prop}
    {err : SecureStoreError → AppSecureStore → Prop} {stop : AppSecureStore → Prop}
    (h : Triple i.environment (fun t => t = i.call.entry s) (i.call.run f) post err stop) :
    match i.outcome f s with
    | (.returned r,t) => post r t
    | (.threw e,t) => err e t
    | (.stopped,t) => stop t := by
  have hrun := h 0 (i.call.entry s) rfl
  rw [SecretInput.outcome]
  cases hends : i.call.run f i.environment 0 (i.call.entry s) with
  | mk ending rest =>
    obtain ⟨t,n⟩ := rest
    rw [hends] at hrun
    cases ending with
    | returned r => exact hrun
    | threw e => exact hrun
    | stopped => exact hrun

theorem migrateAccountMnemonicsAfterUnlock_triple (hs : s.Sound f) :
    Triple env (fun t => t = s) (migrateAccountMnemonicsAfterUnlock f)
      (fun available t => t.Sound f ∧ Migrating s t ∧ (available = true → t.Available))
      (fun _ t => t.Sound f ∧ Migrating s t) (fun t => t.Sound f ∧ Migrating s t) := by
  apply triple_bind ((migrateAccountMnemonicsAfterUnlockLocked_triple hs.keeps hs.platform).weaken
    (fun _ h => h) (fun _ _ h => h) (fun _ _ h => ⟨hs.migrating h.1 h.2,h.2⟩)
    (fun _ h => ⟨hs.migrating h.1 h.2,h.2⟩))
  intro migration
  apply triple_pure
  intro t ht
  exact ⟨hs.migrating ht.keeps ht.migrating,ht.migrating,ht.available⟩

/-- What an unlock leaves: the migration, and the session of a password that is right. -/
structure Unlocked (f : SecretFunctions) (password : String) (s : AppSecureStore)
    (unlocked : Bool) (t : AppSecureStore) : Prop where
  sound : t.Sound f
  migrating : Migrating { s with sessionPassword := t.sessionPassword } t
  session : t.sessionPassword = s.sessionPassword ∨ t.sessionPassword = none ∨
    t.sessionPassword = some password ∧ s.accepts f password = true
  available : unlocked = true → t.Available

theorem Unlocked.clearSession {password : String} {unlocked : Bool}
    (h : Unlocked f password s unlocked t) :
    Unlocked f password s false { t with sessionPassword := none } where
  sound := h.sound.withSession none
  migrating := ⟨h.migrating.passwordVerifier,h.migrating.passwordVerifierSalt,
    h.migrating.secureStoreSalt,h.migrating.passwordRotationInProgress,rfl,h.migrating.written,
    h.migrating.secrets,h.migrating.kept,h.migrating.copied,h.migrating.stays⟩
  session := .inr (.inl rfl)
  available := by simp

theorem verifyPassword_triple (hs : s.Sound f) {password : String} :
    Triple env (fun t => t = s) (verifyPassword f password) (Unlocked f password s)
      (fun _ t => Unlocked f password s false t) (fun t => Unlocked f password s false t) := by
  have hself : Unlocked f password s false s := ⟨hs,.refl s,.inl rfl,by simp⟩
  rw [verifyPassword]
  apply triple_bind_read verifyPasswordOnly_triple _ (fun _ => hself) hself
  intro isMatch hmatch
  apply triple_ite
  · rintro rfl
    apply triple_bind (q := fun _ t => t = { s with sessionPassword := some password })
    · apply triple_inMemory
      rintro t rfl
      rfl
    · intro _
      apply triple_of_state
      rintro u rfl
      have hu := hs.withSession (some password)
      have hmoved {t : AppSecureStore} (hsound : t.Sound f)
          (ht : Migrating { s with sessionPassword := some password } t) (unlocked : Bool)
          (havailable : unlocked = true → t.Available) : Unlocked f password s unlocked t := by
        have hsession : t.sessionPassword = some password := ht.sessionPassword
        refine ⟨hsound,?_,.inr (.inr ⟨hsession,hmatch.symm⟩),havailable⟩
        rw [hsession]
        exact ht
      apply triple_tryCatch (q := fun _ t => Unlocked f password s false t)
      · apply triple_bind ((migrateAccountMnemonicsAfterUnlock_triple hu).weaken (fun _ h => h)
          (fun _ _ h => h) (fun _ _ h => hmoved h.1 h.2 false (by simp))
          (fun _ h => hmoved h.1 h.2 false (by simp)))
        intro migratedForRead
        apply triple_ite
        · rintro rfl
          apply triple_pure
          rintro t ⟨hsound,hmigrating,havailable⟩
          exact hmoved hsound hmigrating true havailable
        · intro _
          apply triple_bind (q := fun _ t => Unlocked f password s false t)
          · apply triple_inMemory
            rintro t ⟨hsound,hmigrating,-⟩
            exact (hmoved hsound hmigrating false (by simp)).clearSession
          · intro _
            apply triple_pure
            intro t ht
            exact ht
      · intro e
        apply triple_bind (q := fun _ t => Unlocked f password s false t)
        · apply triple_inMemory
          intro t ht
          exact ht.clearSession
        · intro _
          apply triple_pure
          intro t ht
          exact ht
  · intro hfalse
    apply triple_pure
    rintro t rfl
    simpa using hself

theorem written_writeSecret {key other : SecretKey} {payload value : String} :
    (s.writeSecret key payload value).written other =
      if other = key then some (.clear value) else s.written other := rfl

theorem writeSecret_sound {key : SecretKey} {value : String} (hs : s.Sound f)
    (hjournal : s.Unjournaled key) :
    Triple env (fun t => t = s) (writeSecret f key value)
      (fun _ t => t.Sound f ∧ ∀ other, t.written other =
        if other = key then some (.clear value) else s.written other)
      (fun _ t => t.Sound f ∧ t.written = s.written)
      (fun t => t.Sound f ∧ t.written = s.written) := by
  have hsalted (t : AppSecureStore) (ht : Salted s t) : t.Sound f ∧ t.written = s.written := by
    refine ⟨hs.salted ht,?_⟩
    rw [ht.1]
  apply writeSecret_triple.weaken (fun _ h => h)
  · rintro _ t ⟨password,salt,u,hwritten⟩
    obtain ⟨hu,huwritten⟩ := hsalted u hwritten.salted
    rw [hwritten.result]
    constructor
    · apply hu.writeSecret
      · intro rotation hrotation
        rw [hwritten.salted.1] at hrotation
        exact hjournal rotation hrotation
      · exact ⟨password,salt,hwritten.made,rfl⟩
    · intro other
      rw [written_writeSecret,huwritten]
  · intro _ t ht
    exact hsalted t ht
  · exact hsalted

theorem deleteVotingHotkeys_erases {names : List String} (erased : SecretKey → Prop) :
    Triple env (fun t => ∀ key, erased key → t.secrets.value key = none) (deleteVotingHotkeys names)
      (fun _ t => ∀ key, erased key ∨ (∃ name ∈ names, key = .votingHotkey name) →
        t.secrets.value key = none) (fun _ _ => True) (fun _ => True) := by
  induction names generalizing erased with
  | nil =>
    apply triple_pure
    rintro t ht key (hkey | ⟨name,hname,-⟩)
    · exact ht key hkey
    · cases hname
  | cons name names ih =>
    apply triple_bind (q := fun _ t => ∀ key, erased key ∨ key = .votingHotkey name →
      t.secrets.value key = none)
    · apply triple_attempt
      · intro n t ht key hkey
        have hvalue : (t.eraseSecret (.votingHotkey name)).secrets.value key =
            if .votingHotkey name = key then none else t.secrets.value key := Entries.value_erase
        rw [hvalue]
        split
        · rfl
        · rename_i hne
          exact ht key (hkey.resolve_right (Ne.symm hne))
      · intro _ _ _ _
        trivial
      · intro _ _ _ _
        trivial
    · intro _
      apply (ih _).weaken (fun _ h => h) _ (fun _ _ _ => trivial) (fun _ _ => trivial)
      rintro _ t ht key (hkey | ⟨other,hother,hkey⟩)
      · exact ht key (.inl (.inl hkey))
      · rcases List.mem_cons.mp hother with rfl | hother
        · exact ht key (.inl (.inr hkey))
        · exact ht key (.inr ⟨other,hother,hkey⟩)

theorem deleteVotingHotkeysForAccount_erases {uuid : String} :
    Triple env (fun t => t = s) (deleteVotingHotkeysForAccount uuid)
      (fun _ t => ∀ name, hotkeyOf uuid name = true → t.secrets.value (.votingHotkey name) = none)
      (fun _ _ => True) (fun _ => True) := by
  apply triple_bind_read readAll_triple _ (fun _ => trivial) trivial
  intro storedValues hstored
  apply (deleteVotingHotkeys_erases fun key => s.secrets.value key = none).weaken _ _
    (fun _ _ _ => trivial) (fun _ _ => trivial)
  · rintro t rfl key hkey
    exact hkey
  · intro _ t ht name hname
    apply ht
    cases hvalue : s.secrets.value (.votingHotkey name) with
    | none => exact .inl rfl
    | some payload =>
      refine .inr ⟨name,List.mem_filter.mpr ⟨List.mem_filterMap.mpr ⟨(.votingHotkey name,payload),?_,
        rfl⟩,hname⟩,rfl⟩
      rw [hstored.mem_iff,List.mem_filter]
      exact ⟨Entries.value_eq_some.mp hvalue,rfl⟩

end CoppiceWallet.SecureStore
