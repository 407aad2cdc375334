import CoppiceWallet.SecureStore.Calls

/-! # Moving mnemonics out of the regular storage -/

namespace CoppiceWallet.SecureStore

open CoppiceWallet.Lib CoppiceWallet.Lib.Faulty

variable {f : SecretFunctions} {env : StorageEnvironment} {s t : AppSecureStore}
  {held : Written → String → Prop}

def AppSecureStore.mnemonic (s : AppSecureStore) (accountUuid : String) : Option String :=
  s.secrets.value (.accountMnemonic accountUuid)

/-- Every secret that is written is held, and no other one; the flag of the migration is set only
when no mnemonic is left in the regular storage. -/
structure AppSecureStore.Keeps (held : Written → String → Prop) (s : AppSecureStore) : Prop where
  written : ∀ key w payload, s.written key = some w → s.secrets.value key = some payload →
    held w payload
  hotkey : ∀ name w, s.written (.votingHotkey name) = some w →
    ∃ payload, s.secrets.value (.votingHotkey name) = some payload
  mnemonic : ∀ uuid w, s.written (.accountMnemonic uuid) = some w → s.mnemonic uuid = none →
    ∃ payload, s.legacyMnemonics.value uuid = some payload ∧ held w payload
  unwritten : ∀ key, s.written key = none → s.secrets.value key = none
  legacy : ∀ uuid, s.written (.accountMnemonic uuid) = none → s.legacyMnemonics.value uuid = none
  migrated : s.accountMnemonicMigrationComplete = true → ∀ uuid, s.legacyMnemonics.value uuid = none

/-- No mnemonic is in the regular storage. -/
def AppSecureStore.NoLegacy (s : AppSecureStore) : Prop :=
  ∀ uuid, s.legacyMnemonics.value uuid = none

/-- Every secret that is written is in its own storage. -/
def AppSecureStore.Available (s : AppSecureStore) : Prop :=
  ∀ key w, s.written key = some w → ∃ payload, s.secrets.value key = some payload

/-- What the migration leaves as it is: all but the secrets that the regular storage holds too, and
what it holds. -/
structure Migrating (s t : AppSecureStore) : Prop where
  passwordVerifier : t.passwordVerifier = s.passwordVerifier
  passwordVerifierSalt : t.passwordVerifierSalt = s.passwordVerifierSalt
  secureStoreSalt : t.secureStoreSalt = s.secureStoreSalt
  passwordRotationInProgress : t.passwordRotationInProgress = s.passwordRotationInProgress
  sessionPassword : t.sessionPassword = s.sessionPassword
  written : t.written = s.written
  secrets : ∀ key, (∀ uuid, key = .accountMnemonic uuid → s.legacyMnemonics.value uuid = none) →
    t.secrets.value key = s.secrets.value key
  kept : ∀ key payload, s.secrets.value key = some payload → t.secrets.value key = some payload
  copied : ∀ uuid payload, t.mnemonic uuid = some payload → s.mnemonic uuid = some payload ∨
    s.mnemonic uuid = none ∧ s.legacyMnemonics.value uuid = some payload
  stays : ∀ uuid payload, t.legacyMnemonics.value uuid = some payload →
    s.legacyMnemonics.value uuid = some payload

theorem Migrating.legacy (h : Migrating s t) (uuid : String)
    (hnone : s.legacyMnemonics.value uuid = none) : t.legacyMnemonics.value uuid = none := by
  cases hvalue : t.legacyMnemonics.value uuid with
  | none => rfl
  | some payload =>
    rw [h.stays uuid payload hvalue] at hnone
    cases hnone

theorem Migrating.refl (s : AppSecureStore) : Migrating s s :=
  ⟨rfl,rfl,rfl,rfl,rfl,rfl,fun _ _ => rfl,fun _ _ h => h,fun _ _ h => .inl h,fun _ _ h => h⟩

theorem Migrating.mnemonic_none (h : Migrating s t) {uuid : String} (hnone : t.mnemonic uuid = none) :
    s.mnemonic uuid = none := by
  cases hvalue : s.mnemonic uuid with
  | none => rfl
  | some payload =>
    rw [AppSecureStore.mnemonic,h.kept _ payload hvalue] at hnone
    cases hnone

theorem Migrating.trans {u : AppSecureStore} (h : Migrating s t) (h' : Migrating t u) :
    Migrating s u where
  passwordVerifier := h'.passwordVerifier.trans h.passwordVerifier
  passwordVerifierSalt := h'.passwordVerifierSalt.trans h.passwordVerifierSalt
  secureStoreSalt := h'.secureStoreSalt.trans h.secureStoreSalt
  passwordRotationInProgress := h'.passwordRotationInProgress.trans h.passwordRotationInProgress
  sessionPassword := h'.sessionPassword.trans h.sessionPassword
  written := h'.written.trans h.written
  secrets key hkey := (h'.secrets key fun uuid huuid => h.legacy uuid (hkey uuid huuid)).trans
    (h.secrets key hkey)
  kept key payload hkey := h'.kept key payload (h.kept key payload hkey)
  copied uuid payload hvalue := by
    rcases h'.copied uuid payload hvalue with hown | ⟨hnone,hlegacy⟩
    · exact h.copied uuid payload hown
    · exact .inr ⟨h.mnemonic_none hnone,h.stays uuid payload hlegacy⟩
  stays uuid payload hvalue := h.stays uuid payload (h'.stays uuid payload hvalue)

/-- The mnemonic copied, unless there is one already. -/
def AppSecureStore.copyLegacy (s : AppSecureStore) (uuid value : String) : AppSecureStore :=
  if s.mnemonic uuid = none then
    { s with secrets := s.secrets.write (.accountMnemonic uuid) value }
  else s

def AppSecureStore.eraseLegacy (s : AppSecureStore) (uuid : String) : AppSecureStore :=
  { s with legacyMnemonics := s.legacyMnemonics.erase uuid }

section
variable {uuid value : String}

theorem value_copyLegacy (key : SecretKey) : (s.copyLegacy uuid value).secrets.value key =
    if key = .accountMnemonic uuid ∧ s.mnemonic uuid = none then some value
    else s.secrets.value key := by
  rw [AppSecureStore.copyLegacy]
  by_cases h : s.mnemonic uuid = none
  · rw [if_pos h]
    simp only [Entries.value_write,h,and_true]
    by_cases hkey : key = .accountMnemonic uuid
    · rw [if_pos hkey,if_pos hkey.symm]
    · rw [if_neg hkey,if_neg (Ne.symm hkey)]
  · simp [h]

theorem mnemonic_copyLegacy : (s.copyLegacy uuid value).mnemonic uuid ≠ none := by
  rw [AppSecureStore.mnemonic,value_copyLegacy]
  split
  · simp
  · rename_i h
    intro hnone
    exact h ⟨rfl,hnone⟩

theorem migrating_copyLegacy (h : s.legacyMnemonics.value uuid = some value) :
    Migrating s (s.copyLegacy uuid value) := by
  have hvalue : ∀ key, (s.copyLegacy uuid value).secrets.value key =
      if key = .accountMnemonic uuid ∧ s.mnemonic uuid = none then some value
      else s.secrets.value key := value_copyLegacy
  have hrest : ∃ secrets, s.copyLegacy uuid value = { s with secrets } := by
    rw [AppSecureStore.copyLegacy]
    split
    · exact ⟨_,rfl⟩
    · exact ⟨_,rfl⟩
  obtain ⟨secrets,hcopy⟩ := hrest
  refine ⟨?_,?_,?_,?_,?_,?_,fun key hkey => ?_,fun key payload hkey => ?_,
    fun other payload hother => ?_,?_⟩
  · rw [hcopy]
  · rw [hcopy]
  · rw [hcopy]
  · rw [hcopy]
  · rw [hcopy]
  · rw [hcopy]
  · rw [hvalue,if_neg]
    rintro ⟨hmnemonic,-⟩
    rw [hkey uuid hmnemonic] at h
    cases h
  · rw [hvalue,if_neg]
    · exact hkey
    · rintro ⟨rfl,hnone⟩
      rw [AppSecureStore.mnemonic,hkey] at hnone
      cases hnone
  · rw [AppSecureStore.mnemonic,hvalue] at hother
    split at hother
    · rename_i hcopied
      obtain ⟨hsame,hnone⟩ := hcopied
      cases hsame
      cases hother
      exact .inr ⟨hnone,h⟩
    · exact .inl hother
  · rw [hcopy]
    exact fun _ _ h => h

theorem migrating_eraseLegacy : Migrating s (s.eraseLegacy uuid) where
  passwordVerifier := rfl
  passwordVerifierSalt := rfl
  secureStoreSalt := rfl
  passwordRotationInProgress := rfl
  sessionPassword := rfl
  written := rfl
  secrets _ _ := rfl
  kept _ _ h := h
  copied _ _ h := .inl h
  stays other payload h := by
    simp only [AppSecureStore.eraseLegacy,Entries.value_erase] at h
    split at h
    · cases h
    · exact h

theorem AppSecureStore.Keeps.copyLegacy (hs : s.Keeps held)
    (h : s.legacyMnemonics.value uuid = some value) : (s.copyLegacy uuid value).Keeps held := by
  have hmigrating := migrating_copyLegacy h
  have hlegacy : (s.copyLegacy uuid value).legacyMnemonics = s.legacyMnemonics := by
    rw [AppSecureStore.copyLegacy]
    split <;> rfl
  have hflag : (s.copyLegacy uuid value).accountMnemonicMigrationComplete =
      s.accountMnemonicMigrationComplete := by
    rw [AppSecureStore.copyLegacy]
    split <;> rfl
  refine ⟨fun key w payload hw hpayload => ?_,fun name w hw => ?_,fun other w hw hnone => ?_,
    fun key hw => ?_,fun other hw => ?_,fun hcomplete other => ?_⟩
  · rw [hmigrating.written] at hw
    rw [value_copyLegacy] at hpayload
    split at hpayload
    · rename_i hcopied
      cases hpayload
      obtain ⟨rfl,hnone⟩ := hcopied
      obtain ⟨payload,hold,hheld⟩ := hs.mnemonic uuid w hw hnone
      rw [h] at hold
      cases hold
      exact hheld
    · exact hs.written key w payload hw hpayload
  · rw [hmigrating.written] at hw
    obtain ⟨payload,hpayload⟩ := hs.hotkey name w hw
    exact ⟨payload,hmigrating.kept _ _ hpayload⟩
  · rw [hmigrating.written] at hw
    rw [hlegacy]
    apply hs.mnemonic other w hw
    cases hbefore : s.mnemonic other with
    | none => rfl
    | some payload =>
      rw [AppSecureStore.mnemonic,hmigrating.kept _ _ hbefore] at hnone
      cases hnone
  · rw [hmigrating.written] at hw
    rw [value_copyLegacy,if_neg]
    · exact hs.unwritten key hw
    · rintro ⟨rfl,-⟩
      rw [hs.legacy uuid hw] at h
      cases h
  · rw [hmigrating.written] at hw
    rw [hlegacy]
    exact hs.legacy other hw
  · rw [hflag] at hcomplete
    rw [hlegacy]
    exact hs.migrated hcomplete other

theorem AppSecureStore.Keeps.eraseLegacy (hs : s.Keeps held)
    (h : s.written (.accountMnemonic uuid) = none ∨ s.mnemonic uuid ≠ none) :
    (s.eraseLegacy uuid).Keeps held where
  written := hs.written
  hotkey := hs.hotkey
  mnemonic other w hw hnone := by
    obtain ⟨payload,hpayload,hheld⟩ := hs.mnemonic other w hw hnone
    refine ⟨payload,?_,hheld⟩
    simp only [AppSecureStore.eraseLegacy,Entries.value_erase]
    rw [if_neg,hpayload]
    rintro rfl
    rcases h with h | h
    · cases hw.symm.trans h
    · exact h hnone
  unwritten := hs.unwritten
  legacy other hw := migrating_eraseLegacy.legacy other (hs.legacy other hw)
  migrated hcomplete other := migrating_eraseLegacy.legacy other (hs.migrated hcomplete other)

theorem migrateLegacyMnemonic_triple :
    Triple env (fun t => t = s) (migrateLegacyMnemonic uuid value)
      (fun r t => r = ⟨false,false⟩ ∧ t = s ∨ r = ⟨true,false⟩ ∧ t = s.copyLegacy uuid value ∨
        r = ⟨true,true⟩ ∧ t = (s.copyLegacy uuid value).eraseLegacy uuid)
      (fun _ _ => False) (fun t => t = s ∨ t = s.copyLegacy uuid value) := by
  rw [migrateLegacyMnemonic]
  apply triple_bind (q := fun copied t =>
    copied = true ∧ t = s.copyLegacy uuid value ∨ copied = false ∧ t = s)
  · apply triple_tryCatch (q := fun _ t => t = s)
    · apply triple_bind (q := fun _ t => t = s.copyLegacy uuid value)
      · rw [copyLegacyMnemonic]
        apply triple_bind (q := fun existing t => existing = s.mnemonic uuid ∧ t = s)
        · apply triple_attempt
          · rintro n u rfl
            exact ⟨rfl,rfl⟩
          · intro n u hu _
            exact hu
          · intro n u hu _
            exact .inl hu
        · intro existing
          cases existing with
          | some payload =>
            apply triple_pure
            rintro u ⟨hexisting,rfl⟩
            rw [AppSecureStore.copyLegacy,← hexisting,if_neg (by simp)]
          | none =>
            apply triple_attempt
            · rintro n u ⟨hexisting,rfl⟩
              rw [AppSecureStore.copyLegacy,← hexisting,if_pos rfl]
            · intro n u hu _
              exact hu.2
            · intro n u hu _
              exact .inl hu.2
      · intro _
        apply triple_pure
        intro u hu
        exact .inl ⟨rfl,hu⟩
    · intro e
      apply triple_pure
      intro u hu
      exact .inr ⟨rfl,hu⟩
  · intro copied
    cases copied with
    | false =>
      apply triple_pure
      rintro u (⟨h,-⟩ | ⟨-,hu⟩)
      · cases h
      · exact .inl ⟨rfl,hu⟩
    | true =>
      apply triple_bind (q := fun deleted t =>
        deleted = true ∧ t = (s.copyLegacy uuid value).eraseLegacy uuid ∨
          deleted = false ∧ t = s.copyLegacy uuid value)
      · apply triple_tryCatch (q := fun _ t => t = s.copyLegacy uuid value)
        · apply triple_bind (q := fun _ t => t = (s.copyLegacy uuid value).eraseLegacy uuid)
          · apply triple_attempt
            · rintro n u (⟨-,rfl⟩ | ⟨h,-⟩)
              · rfl
              · cases h
            · rintro n u (⟨-,hu⟩ | ⟨h,-⟩) _
              · exact hu
              · cases h
            · rintro n u (⟨-,hu⟩ | ⟨h,-⟩) _
              · exact .inr hu
              · cases h
          · intro _
            apply triple_pure
            intro u hu
            exact .inl ⟨rfl,hu⟩
        · intro e
          apply triple_pure
          intro u hu
          exact .inr ⟨rfl,hu⟩
      · intro deleted
        apply triple_pure
        rintro u (⟨rfl,hu⟩ | ⟨rfl,hu⟩)
        · exact .inr (.inr ⟨rfl,hu⟩)
        · exact .inr (.inl ⟨rfl,hu⟩)

end

theorem AppSecureStore.Keeps.eraseCopied {uuid value : String} (hs : s.Keeps held)
    (h : s.legacyMnemonics.value uuid = some value) :
    ((s.copyLegacy uuid value).eraseLegacy uuid).Keeps held :=
  (hs.copyLegacy h).eraseLegacy (.inr mnemonic_copyLegacy)

theorem value_eraseLegacy_of_ne {uuid other : String} (hne : uuid ≠ other) :
    (s.eraseLegacy uuid).legacyMnemonics.value other = s.legacyMnemonics.value other := by
  simp only [AppSecureStore.eraseLegacy,Entries.value_erase,if_neg hne]

theorem legacyMnemonics_copyLegacy {uuid value : String} :
    (s.copyLegacy uuid value).legacyMnemonics = s.legacyMnemonics := by
  rw [AppSecureStore.copyLegacy]
  split <;> rfl

theorem Migrating.mnemonic_ne_none (h : Migrating s t) {uuid : String} (hs : s.mnemonic uuid ≠ none) :
    t.mnemonic uuid ≠ none := by
  obtain ⟨payload,hpayload⟩ := Option.ne_none_iff_exists'.mp hs
  rw [AppSecureStore.mnemonic,h.kept _ _ hpayload]
  simp

theorem migrateLegacyMnemonics_triple {entries : List (String × String)} (hs : s.Keeps held)
    (hentries : ∀ entry ∈ entries, s.legacyMnemonics.value entry.1 = some entry.2)
    (hnodup : (entries.map Prod.fst).Nodup) :
    Triple env (fun t => t = s) (migrateLegacyMnemonics entries)
      (fun r t => t.Keeps held ∧ Migrating s t ∧
        (r.mnemonicsAvailable = true → ∀ entry ∈ entries, t.mnemonic entry.1 ≠ none) ∧
        (r.legacyCleanupComplete = true → ∀ entry ∈ entries, t.legacyMnemonics.value entry.1 = none))
      (fun _ _ => False) (fun t => t.Keeps held ∧ Migrating s t) := by
  induction entries generalizing s with
  | nil =>
    apply triple_pure
    rintro t rfl
    exact ⟨hs,.refl t,by simp,by simp⟩
  | cons entry entries ih =>
    obtain ⟨uuid,value⟩ := entry
    have hfirst : s.legacyMnemonics.value uuid = some value := hentries _ List.mem_cons_self
    have hcopy := migrating_copyLegacy hfirst
    have herase : Migrating s ((s.copyLegacy uuid value).eraseLegacy uuid) :=
      hcopy.trans migrating_eraseLegacy
    rw [List.map_cons,List.nodup_cons] at hnodup
    rw [migrateLegacyMnemonics]
    apply triple_bind (migrateLegacyMnemonic_triple.weaken (fun _ h => h) (fun _ _ h => h)
      (fun _ _ h => h.elim) ?_)
    · intro first
      apply triple_of_state
      intro u hu
      have hu' : u.Keeps held ∧ Migrating s u ∧
          (first.mnemonicsAvailable = true → u.mnemonic uuid ≠ none) ∧
          (first.legacyCleanupComplete = true → u.legacyMnemonics.value uuid = none) ∧
          ∀ other, uuid ≠ other → u.legacyMnemonics.value other = s.legacyMnemonics.value other := by
        rcases hu with ⟨rfl,rfl⟩ | ⟨rfl,rfl⟩ | ⟨rfl,rfl⟩
        · exact ⟨hs,.refl u,by simp,by simp,fun _ _ => rfl⟩
        · refine ⟨hs.copyLegacy hfirst,hcopy,fun _ => mnemonic_copyLegacy,by simp,
            fun other _ => ?_⟩
          rw [legacyMnemonics_copyLegacy]
        · refine ⟨hs.eraseCopied hfirst,herase,fun _ => mnemonic_copyLegacy,fun _ => ?_,
            fun other hother => ?_⟩
          · simp [AppSecureStore.eraseLegacy,Entries.value_erase]
          · rw [value_eraseLegacy_of_ne hother,legacyMnemonics_copyLegacy]
      obtain ⟨hkeeps,hmigrating,havailable,hcleanup,hothers⟩ := hu'
      have hrest : ∀ entry ∈ entries, u.legacyMnemonics.value entry.1 = some entry.2 := by
        intro entry hentry
        rw [hothers]
        · exact hentries entry (List.mem_cons_of_mem _ hentry)
        · rintro rfl
          exact hnodup.1 (List.mem_map.mpr ⟨entry,hentry,rfl⟩)
      apply triple_bind ((ih hkeeps hrest hnodup.2).weaken (fun _ h => h) (fun _ _ h => h)
        (fun _ _ h => h.elim) ?_)
      · intro others
        apply triple_pure
        rintro t ⟨ht,hafter,hothersAvailable,hothersCleanup⟩
        refine ⟨ht,hmigrating.trans hafter,fun h entry hentry => ?_,fun h entry hentry => ?_⟩
        · obtain ⟨hone,hall⟩ := Bool.and_eq_true_iff.mp h
          rcases List.mem_cons.mp hentry with rfl | hentry
          · exact hafter.mnemonic_ne_none (havailable hone)
          · exact hothersAvailable hall entry hentry
        · obtain ⟨hone,hall⟩ := Bool.and_eq_true_iff.mp h
          rcases List.mem_cons.mp hentry with rfl | hentry
          · exact hafter.legacy uuid (hcleanup hone)
          · exact hothersCleanup hall entry hentry
      · rintro t ⟨ht,hafter⟩
        exact ⟨ht,hmigrating.trans hafter⟩
    · rintro t (rfl | rfl)
      · exact ⟨hs,.refl t⟩
      · exact ⟨hs.copyLegacy hfirst,hcopy⟩

/-- What the migration leaves, and what its result says about it. -/
structure Migrated (held : Written → String → Prop) (s t : AppSecureStore)
    (r : AccountMnemonicMigrationResult) : Prop where
  keeps : t.Keeps held
  migrating : Migrating s t
  available : r.mnemonicsAvailable = true → t.Available
  cleanup : r.legacyCleanupComplete = true → t.NoLegacy

theorem AppSecureStore.Keeps.available (hs : s.Keeps held)
    (h : ∀ uuid, s.mnemonic uuid = none → s.legacyMnemonics.value uuid = none) : s.Available := by
  intro key w hw
  cases key with
  | votingHotkey name => exact hs.hotkey name w hw
  | accountMnemonic uuid =>
    cases hmnemonic : s.mnemonic uuid with
    | some payload => exact ⟨payload,hmnemonic⟩
    | none =>
      obtain ⟨payload,hpayload,-⟩ := hs.mnemonic uuid w hw hmnemonic
      rw [h uuid hmnemonic] at hpayload
      cases hpayload

theorem migrateAccountMnemonicsAfterUnlockLocked_triple (hs : s.Keeps held)
    (hplatform : f.usesSeparateMnemonicStorage = false → s.NoLegacy) :
    Triple env (fun t => t = s) (migrateAccountMnemonicsAfterUnlockLocked f)
      (fun r t => Migrated held s t r) (fun _ t => t.Keeps held ∧ Migrating s t)
      (fun t => t.Keeps held ∧ Migrating s t) := by
  have hcomplete (h : s.NoLegacy) : Migrated held s s .complete :=
    ⟨hs,.refl s,fun _ => hs.available fun uuid _ => h uuid,fun _ => h⟩
  rw [migrateAccountMnemonicsAfterUnlockLocked]
  apply triple_ite
  · intro _
    apply triple_bind (q := fun flag t => flag = s.accountMnemonicMigrationComplete ∧ t = s)
    · apply triple_attempt
      · rintro n t rfl
        exact ⟨rfl,rfl⟩
      · rintro n t rfl _
        exact ⟨hs,.refl t⟩
      · rintro n t rfl _
        exact ⟨hs,.refl t⟩
    · intro flag
      apply triple_ite
      · rintro rfl
        apply triple_pure
        rintro t ⟨hflag,rfl⟩
        exact hcomplete (hs.migrated hflag.symm)
      · intro _
        apply triple_bind (q := fun legacyValues t =>
          legacyValues.Perm s.legacyMnemonics.rows ∧ t = s)
        · apply triple_attempt
          · rintro n t ⟨-,rfl⟩
            exact ⟨env.arrangeLegacy_perm n _,rfl⟩
          · rintro n t ⟨-,rfl⟩ _
            exact ⟨hs,.refl t⟩
          · rintro n t ⟨-,rfl⟩ _
            exact ⟨hs,.refl t⟩
        · intro legacyValues
          apply triple_of_state
          rintro t ⟨hperm,rfl⟩
          have hentries : ∀ entry ∈ legacyValues, t.legacyMnemonics.value entry.1 = some entry.2 :=
            fun entry hentry => Entries.value_eq_some.mpr (hperm.mem_iff.mp hentry)
          have hnodup : (legacyValues.map Prod.fst).Nodup :=
            (hperm.map Prod.fst).nodup_iff.mpr t.legacyMnemonics.keys_nodup
          have hall (u : AppSecureStore) (hu : Migrating t u)
              (h : ∀ entry ∈ legacyValues, u.legacyMnemonics.value entry.1 = none) : u.NoLegacy := by
            intro uuid
            cases hbefore : t.legacyMnemonics.value uuid with
            | none => exact hu.legacy uuid hbefore
            | some value => exact h _ (hperm.mem_iff.mpr (Entries.value_eq_some.mp hbefore))
          have havailable (u : AppSecureStore) (hkeeps : u.Keeps held) (hu : Migrating t u)
              (h : ∀ entry ∈ legacyValues, u.mnemonic entry.1 ≠ none) : u.Available := by
            apply hkeeps.available
            intro uuid hnone
            cases hbefore : t.legacyMnemonics.value uuid with
            | none => exact hu.legacy uuid hbefore
            | some value =>
              exact absurd hnone (h _ (hperm.mem_iff.mpr (Entries.value_eq_some.mp hbefore)))
          apply triple_bind ((migrateLegacyMnemonics_triple hs hentries hnodup).weaken (fun _ h => h)
            (fun _ _ h => h) (fun _ _ h => h.elim) (fun _ h => h))
          intro r
          have hmigrated (u : AppSecureStore)
              (hu : u.Keeps held ∧ Migrating t u ∧
                (r.mnemonicsAvailable = true → ∀ entry ∈ legacyValues, u.mnemonic entry.1 ≠ none) ∧
                (r.legacyCleanupComplete = true →
                  ∀ entry ∈ legacyValues, u.legacyMnemonics.value entry.1 = none)) :
              Migrated held t u r :=
            ⟨hu.1,hu.2.1,fun h => havailable u hu.1 hu.2.1 (hu.2.2.1 h),
              fun h => hall u hu.2.1 (hu.2.2.2 h)⟩
          apply triple_ite
          · intro hcleanup
            apply triple_bind (q := fun _ u => Migrated held t u r)
            · apply triple_tryCatch (q := fun _ u => Migrated held t u r)
              · apply triple_attempt
                · intro n u hu
                  have hm := hmigrated u hu
                  have hkeeps := hm.keeps
                  exact ⟨⟨hkeeps.written,hkeeps.hotkey,hkeeps.mnemonic,hkeeps.unwritten,hkeeps.legacy,
                    fun _ => hm.cleanup hcleanup⟩,
                    ⟨hm.migrating.passwordVerifier,hm.migrating.passwordVerifierSalt,
                      hm.migrating.secureStoreSalt,hm.migrating.passwordRotationInProgress,
                      hm.migrating.sessionPassword,hm.migrating.written,hm.migrating.secrets,
                      hm.migrating.kept,hm.migrating.copied,hm.migrating.stays⟩,hm.available,hm.cleanup⟩
                · intro n u hu _
                  exact hmigrated u hu
                · intro n u hu _
                  exact ⟨hu.1,hu.2.1⟩
              · intro e
                apply triple_pure
                intro u hu
                exact hu
            · intro _
              apply triple_pure
              intro u hu
              exact hu
          · intro _
            apply triple_pure
            intro u hu
            exact hmigrated u hu
  · intro hsame
    apply triple_pure
    rintro t rfl
    exact hcomplete (hplatform (by simpa using hsame))

end CoppiceWallet.SecureStore
