import CoppiceWallet.SecureStore.SecretRules

/-! # Rules for the rotation -/

namespace CoppiceWallet.SecureStore

open CoppiceWallet.Lib CoppiceWallet.Lib.Faulty

variable {f : SecretFunctions} {env : StorageEnvironment} {s t : AppSecureStore}
  {entries entries' : List (SecretKey × String)} {old new new' : Entries SecretKey}

/-- Some of the entries are written. -/
def Mixed (entries : List (SecretKey × String)) (old new : Entries SecretKey) : Prop :=
  ∀ key, new.value key = old.value key ∨
    ∃ payload, (key,payload) ∈ entries ∧ new.value key = some payload

/-- All entries are written. -/
def Overwritten (entries : List (SecretKey × String)) (new : Entries SecretKey) : Prop :=
  ∀ entry ∈ entries, ∃ payload, (entry.1,payload) ∈ entries ∧ new.value entry.1 = some payload

theorem Mixed.refl (entries : List (SecretKey × String)) (old : Entries SecretKey) :
    Mixed entries old old := fun _ => .inl rfl

theorem Mixed.trans (h : Mixed entries old new) (h' : Mixed entries' new new') :
    Mixed (entries ++ entries') old new' := by
  intro key
  rcases h' key with hsame | ⟨payload,hmem,hvalue⟩
  · rw [hsame]
    rcases h key with hbefore | ⟨payload,hmem,hvalue⟩
    · exact .inl hbefore
    · exact .inr ⟨payload,List.mem_append_left _ hmem,hvalue⟩
  · exact .inr ⟨payload,List.mem_append_right _ hmem,hvalue⟩

theorem Mixed.mono (h : Mixed entries old new) (hsub : entries ⊆ entries') :
    Mixed entries' old new := by
  intro key
  rcases h key with hsame | ⟨payload,hmem,hvalue⟩
  · exact .inl hsame
  · exact .inr ⟨payload,hsub hmem,hvalue⟩

theorem mixed_write {key : SecretKey} {payload : String} (h : (key,payload) ∈ entries) :
    Mixed entries old (old.write key payload) := by
  intro other
  rw [Entries.value_write]
  split
  · rename_i hkey
    subst hkey
    exact .inr ⟨payload,h,rfl⟩
  · exact .inl rfl

theorem writeEntries_triple :
    Triple env (fun t => t = s) (writeEntries entries)
      (fun _ t => ∃ secrets, Mixed entries s.secrets secrets ∧ Overwritten entries secrets ∧
        t = { s with secrets })
      (fun e t => (e = .storageUnavailable ∧ ∃ n key, env.fate n (.write (.secret key)) = .fails) ∧
        ∃ secrets, Mixed entries s.secrets secrets ∧ t = { s with secrets })
      (fun t => ∃ secrets, Mixed entries s.secrets secrets ∧ t = { s with secrets }) := by
  induction entries generalizing s with
  | nil =>
    apply triple_pure
    rintro t rfl
    exact ⟨t.secrets,.refl _ _,by simp [Overwritten],rfl⟩
  | cons entry entries ih =>
    obtain ⟨key,payload⟩ := entry
    have hfirst : Mixed ((key,payload) :: entries) s.secrets (s.secrets.write key payload) :=
      mixed_write List.mem_cons_self
    have hmixed (secrets : Entries SecretKey)
        (h : Mixed entries (s.secrets.write key payload) secrets) :
        Mixed ((key,payload) :: entries) s.secrets secrets :=
      (hfirst.trans h).mono (by simp)
    apply triple_bind (q := fun _ t => t = { s with secrets := s.secrets.write key payload })
    · apply triple_attempt
      · rintro n t rfl
        rfl
      · rintro n t rfl hfate
        exact ⟨⟨rfl,n,key,hfate⟩,t.secrets,.refl _ _,rfl⟩
      · rintro n t rfl _
        exact ⟨t.secrets,.refl _ _,rfl⟩
    · intro _
      apply ih.weaken (fun _ h => h)
      · rintro _ t ⟨secrets,hrest,hover,rfl⟩
        refine ⟨secrets,hmixed secrets hrest,fun entry hentry => ?_,rfl⟩
        rcases List.mem_cons.mp hentry with rfl | hentry
        · rcases hrest key with hsame | ⟨other,hmem,hvalue⟩
          · rw [Entries.value_write,if_pos rfl] at hsame
            exact ⟨payload,List.mem_cons_self,hsame⟩
          · exact ⟨other,List.mem_cons_of_mem _ hmem,hvalue⟩
        · obtain ⟨other,hmem,hvalue⟩ := hover entry hentry
          exact ⟨other,List.mem_cons_of_mem _ hmem,hvalue⟩
      · rintro _ t ⟨hfails,secrets,hrest,rfl⟩
        exact ⟨hfails,secrets,hmixed secrets hrest,rfl⟩
      · rintro t ⟨secrets,hrest,rfl⟩
        exact ⟨secrets,hmixed secrets hrest,rfl⟩

/-- What a rotation writes apart from its journal. -/
def StorageKey.isRotated : StorageKey → Bool
  | .secret _ => true
  | .passwordVerifierSalt => true
  | .passwordVerifier => true
  | _ => false

def RotationWriteFails (env : StorageEnvironment) : Prop :=
  ∃ n key, key.isRotated = true ∧ env.fate n (.write key) = .fails

/-- A rotation, or its rollback, that is cut off. -/
def Interrupted (entries : List (SecretKey × String)) (s t : AppSecureStore) : Prop :=
  ∃ secrets verifierSalt verifier sessionPassword, Mixed entries s.secrets secrets ∧
    t = { s with
      secrets
      passwordVerifierSalt := verifierSalt
      passwordVerifier := verifier
      sessionPassword }

theorem writeRotatedPasswordState_triple {rotation : PasswordRotationRecord} :
    Triple env (fun t => t = s) (writeRotatedPasswordState rotation)
      (fun _ t => ∃ secrets, Mixed rotation.entries s.secrets secrets ∧
        Overwritten rotation.entries secrets ∧
        t = { s with
          secrets
          passwordVerifierSalt := some rotation.newVerifierSalt
          passwordVerifier := some rotation.newVerifier })
      (fun e t => (e = .storageUnavailable ∧ RotationWriteFails env) ∧
        Interrupted rotation.entries s t)
      (fun t => Interrupted rotation.entries s t) := by
  rw [writeRotatedPasswordState]
  apply triple_bind (writeEntries_triple.weaken (fun _ h => h) (fun _ _ h => h) ?_ ?_)
  · intro _
    apply triple_of_state
    rintro t ⟨secrets,hmixed,hover,rfl⟩
    have hcut (salt : Option String) : Interrupted rotation.entries s
        { s with secrets := secrets, passwordVerifierSalt := salt } :=
      ⟨secrets,salt,s.passwordVerifier,s.sessionPassword,hmixed,rfl⟩
    apply triple_bind (q := fun _ t => t =
      { s with secrets := secrets, passwordVerifierSalt := some rotation.newVerifierSalt })
    · apply triple_attempt
      · rintro n t rfl
        rfl
      · rintro n t rfl hfate
        exact ⟨⟨rfl,n,_,rfl,hfate⟩,hcut s.passwordVerifierSalt⟩
      · rintro n t rfl _
        exact hcut s.passwordVerifierSalt
    · intro _
      apply triple_attempt
      · rintro n t rfl
        exact ⟨secrets,hmixed,hover,rfl⟩
      · rintro n t rfl hfate
        exact ⟨⟨rfl,n,_,rfl,hfate⟩,hcut _⟩
      · rintro n t rfl _
        exact hcut _
  · rintro _ t ⟨⟨rfl,n,key,hfate⟩,secrets,hmixed,rfl⟩
    exact ⟨⟨rfl,n,_,rfl,hfate⟩,secrets,s.passwordVerifierSalt,s.passwordVerifier,s.sessionPassword,
      hmixed,rfl⟩
  · rintro t ⟨secrets,hmixed,rfl⟩
    exact ⟨secrets,s.passwordVerifierSalt,s.passwordVerifier,s.sessionPassword,hmixed,rfl⟩

theorem deleteRotationRecordBestEffort_triple :
    Triple env (fun t => t = s) deleteRotationRecordBestEffort
      (fun _ t => t = { s with passwordRotationInProgress := none } ∨ t = s ∧
        ∃ n, env.fate n (.delete .passwordRotationInProgress) = .fails)
      (fun _ _ => False) (fun t => t = s) := by
  apply triple_tryCatch (q := fun _ t => t = s ∧
    ∃ n, env.fate n (.delete .passwordRotationInProgress) = .fails)
  · apply triple_attempt
    · rintro n t rfl
      exact .inl rfl
    · intro n t ht hfate
      exact ⟨ht,n,hfate⟩
    · intro n t ht _
      exact ht
  · intro e
    apply triple_pure
    intro t ht
    exact .inr ht

theorem markRollbackFailedBestEffort_triple :
    Triple env (fun t => t = s) markRollbackFailedBestEffort
      (fun _ t => t = { s with passwordRotationInProgress := some .rollbackFailed } ∨ t = s ∧
        ∃ n, env.fate n (.write .passwordRotationInProgress) = .fails)
      (fun _ _ => False) (fun t => t = s) := by
  apply triple_tryCatch (q := fun _ t => t = s ∧
    ∃ n, env.fate n (.write .passwordRotationInProgress) = .fails)
  · apply triple_attempt
    · rintro n t rfl
      exact .inl rfl
    · intro n t ht hfate
      exact ⟨ht,n,hfate⟩
    · intro n t ht _
      exact ht
  · intro e
    apply triple_pure
    intro t ht
    exact .inr ht

theorem restorePlain_triple {key : StorageKey} {value : Option String}
    {set : Option String → AppSecureStore → AppSecureStore} :
    Triple env (fun t => t = s) (restorePlain key value set) (fun _ t => t = set value s)
      (fun _ t => t = s) (fun t => t = s) := by
  cases value with
  | none =>
    apply triple_attempt
    · rintro n t rfl
      rfl
    · intro n t ht _
      exact ht
    · intro n t ht _
      exact ht
  | some value =>
    apply triple_attempt
    · rintro n t rfl
      rfl
    · intro n t ht _
      exact ht
    · intro n t ht _
      exact ht

/-- The old payloads and the old verifier are back, and so is the session. -/
def Restored (rollback : PasswordRotationRollbackSnapshot) (currentPassword : String)
    (s t : AppSecureStore) : Prop :=
  ∃ secrets, Mixed rollback.entries s.secrets secrets ∧ Overwritten rollback.entries secrets ∧
    t = { s with
      secrets
      passwordVerifierSalt := rollback.oldVerifierSalt
      passwordVerifier := rollback.oldVerifier
      sessionPassword := some currentPassword }

/-- How a rollback may end. -/
inductive RolledBack (env : StorageEnvironment) (rollback : PasswordRotationRollbackSnapshot)
    (currentPassword : String) (s t : AppSecureStore) : Prop
  | restored (u : AppSecureStore) (h : Restored rollback currentPassword s u)
      (ht : t = { u with passwordRotationInProgress := none })
  | journalLeft (h : Restored rollback currentPassword s t) (n : Nat)
      (hfate : env.fate n (.delete .passwordRotationInProgress) = .fails)
  | marked (u : AppSecureStore) (h : Interrupted rollback.entries s u)
      (ht : t = { u with passwordRotationInProgress := some .rollbackFailed })
  | unmarked (h : Interrupted rollback.entries s t) (n : Nat)
      (hfate : env.fate n (.write .passwordRotationInProgress) = .fails)

theorem rollbackPasswordRotation_triple {rollback : PasswordRotationRollbackSnapshot}
    {currentPassword : String} :
    Triple env (fun t => t = s) (rollbackPasswordRotation rollback currentPassword)
      (fun _ t => RolledBack env rollback currentPassword s t) (fun _ _ => False)
      (fun t => Interrupted rollback.entries s t) := by
  rw [rollbackPasswordRotation]
  apply triple_tryCatch (q := fun _ t => Interrupted rollback.entries s t)
  · apply triple_bind (writeEntries_triple.weaken (fun _ h => h) (fun _ _ h => h) ?_ ?_)
    · intro _
      apply triple_of_state
      rintro t ⟨secrets,hmixed,hover,rfl⟩
      have hcut (salt verifier : Option String) : Interrupted rollback.entries s
          { s with secrets := secrets, passwordVerifierSalt := salt, passwordVerifier := verifier } :=
        ⟨secrets,salt,verifier,s.sessionPassword,hmixed,rfl⟩
      apply triple_bind (restorePlain_triple.weaken (fun _ h => h) (fun _ _ h => h)
        (fun _ t h => h ▸ hcut s.passwordVerifierSalt s.passwordVerifier)
        (fun t h => h ▸ hcut s.passwordVerifierSalt s.passwordVerifier))
      intro _
      apply triple_of_state
      rintro t rfl
      apply triple_bind (restorePlain_triple.weaken (fun _ h => h) (fun _ _ h => h)
        (fun _ t h => h ▸ hcut _ _) (fun t h => h ▸ hcut _ _))
      intro _
      apply triple_bind (q := fun _ t => Restored rollback currentPassword s t)
      · apply triple_inMemory
        rintro t rfl
        exact ⟨secrets,hmixed,hover,rfl⟩
      · intro _
        apply triple_of_state
        intro t ht
        apply deleteRotationRecordBestEffort_triple.weaken (fun _ h => h)
        · rintro _ u (hu | ⟨rfl,n,hfate⟩)
          · exact .restored t ht hu
          · exact .journalLeft ht n hfate
        · intro _ _ h
          exact h.elim
        · rintro u rfl
          obtain ⟨secrets,hmixed,-,rfl⟩ := ht
          exact ⟨secrets,_,_,_,hmixed,rfl⟩
    · rintro _ t ⟨-,secrets,hmixed,rfl⟩
      exact ⟨secrets,s.passwordVerifierSalt,s.passwordVerifier,s.sessionPassword,hmixed,rfl⟩
    · rintro t ⟨secrets,hmixed,rfl⟩
      exact ⟨secrets,s.passwordVerifierSalt,s.passwordVerifier,s.sessionPassword,hmixed,rfl⟩
  · intro e
    apply triple_of_state
    intro t ht
    apply markRollbackFailedBestEffort_triple.weaken (fun _ h => h)
    · rintro _ u (hu | ⟨rfl,n,hfate⟩)
      · exact .marked t ht hu
      · exact .unmarked ht n hfate
    · intro _ _ h
      exact h.elim
    · rintro u rfl
      exact ht

/-- The new payloads and the new verifier are written, and so is the session. -/
def RotationDone (rotation : PasswordRotationRecord) (newPassword : String)
    (s t : AppSecureStore) : Prop :=
  ∃ secrets journal, Mixed rotation.entries s.secrets secrets ∧
    Overwritten rotation.entries secrets ∧
    (journal = none ∨ journal = some (.rotation rotation)) ∧
    t = { s with
      secrets
      passwordVerifierSalt := some rotation.newVerifierSalt
      passwordVerifier := some rotation.newVerifier
      sessionPassword := some newPassword
      passwordRotationInProgress := journal }

def AppSecureStore.journaled (s : AppSecureStore) (rotation : PasswordRotationRecord) :
    AppSecureStore :=
  { s with passwordRotationInProgress := some (.rotation rotation) }

/-- A rotation whose writes failed, and its rollback. -/
structure RotationThrew (env : StorageEnvironment) (rotation : PasswordRotationRecord)
    (rollback : PasswordRotationRollbackSnapshot) (currentPassword : String)
    (s u t : AppSecureStore) : Prop where
  fails : RotationWriteFails env
  interrupted : Interrupted rotation.entries (s.journaled rotation) u
  rolledBack : RolledBack env rollback currentPassword u t

/-- The process stopped with the journal in the store. -/
def RotationStopped (rotation : PasswordRotationRecord)
    (rollback : PasswordRotationRollbackSnapshot) (s t : AppSecureStore) : Prop :=
  Interrupted (rotation.entries ++ rollback.entries) (s.journaled rotation) t

theorem Interrupted.trans {u : AppSecureStore} (h : Interrupted entries s t)
    (h' : Interrupted entries' t u) : Interrupted (entries ++ entries') s u := by
  obtain ⟨secrets,salt,verifier,session,hmixed,rfl⟩ := h
  obtain ⟨secrets',salt',verifier',session',hmixed',rfl⟩ := h'
  exact ⟨secrets',salt',verifier',session',hmixed.trans hmixed',rfl⟩

theorem Interrupted.mono (h : Interrupted entries s t) (hsub : entries ⊆ entries') :
    Interrupted entries' s t := by
  obtain ⟨secrets,salt,verifier,session,hmixed,rfl⟩ := h
  exact ⟨secrets,salt,verifier,session,hmixed.mono hsub,rfl⟩

theorem performRotation_triple {rotation : PasswordRotationRecord}
    {rollback : PasswordRotationRollbackSnapshot} {currentPassword newPassword : String} :
    Triple env (fun t => t = s) (performRotation rotation rollback currentPassword newPassword)
      (fun rotated t => rotated = true ∧ RotationDone rotation newPassword s t)
      (fun _ t => t = s ∨ ∃ u, RotationThrew env rotation rollback currentPassword s u t)
      (fun t => t = s ∨ RotationStopped rotation rollback s t) := by
  rw [performRotation]
  apply triple_bind (q := fun _ t => t = s.journaled rotation)
  · apply triple_attempt
    · rintro n t rfl
      rfl
    · intro n t ht _
      exact .inl ht
    · intro n t ht _
      exact .inl ht
  · intro _
    apply triple_bind (q := fun _ t => ∃ secrets, Mixed rotation.entries s.secrets secrets ∧
      Overwritten rotation.entries secrets ∧
      t = { s.journaled rotation with
        secrets
        passwordVerifierSalt := some rotation.newVerifierSalt
        passwordVerifier := some rotation.newVerifier })
    · apply triple_tryCatch (writeRotatedPasswordState_triple.weaken (fun _ h => h) (fun _ _ h => h)
        (fun _ _ h => h) (fun _ h => .inr (h.mono (List.subset_append_left _ _))))
      intro e
      apply triple_of_state
      rintro u ⟨⟨-,hfails⟩,hinterrupted⟩
      apply triple_bind (rollbackPasswordRotation_triple.weaken (fun _ h => h) (fun _ _ h => h)
        (fun _ _ h => h.elim) (fun _ h => .inr (hinterrupted.trans h)))
      intro _
      apply triple_throw
      intro t ht
      exact .inr ⟨u,hfails,hinterrupted,ht⟩
    · intro _
      apply triple_of_state
      rintro t ⟨secrets,hmixed,hover,rfl⟩
      apply triple_bind (q := fun _ t => t = { s.journaled rotation with
        secrets
        passwordVerifierSalt := some rotation.newVerifierSalt
        passwordVerifier := some rotation.newVerifier
        sessionPassword := some newPassword })
      · apply triple_inMemory
        rintro t rfl
        rfl
      · intro _
        apply triple_of_state
        rintro t rfl
        apply triple_bind (deleteRotationRecordBestEffort_triple.weaken (fun _ h => h)
          (fun _ _ h => h) (fun _ _ h => h.elim) ?_)
        · intro _
          apply triple_pure
          rintro t (rfl | ⟨rfl,-⟩)
          · exact ⟨rfl,secrets,none,hmixed,hover,.inl rfl,rfl⟩
          · exact ⟨rfl,secrets,_,hmixed,hover,.inr rfl,rfl⟩
        · rintro t rfl
          exact .inr ⟨secrets,_,_,_,hmixed.mono (List.subset_append_left _ _),rfl⟩

/-- The journal was carried out. -/
def Recovered (rotation : PasswordRotationRecord) (s t : AppSecureStore) : Prop :=
  ∃ secrets journal, Mixed rotation.entries s.secrets secrets ∧
    Overwritten rotation.entries secrets ∧
    (journal = none ∨ journal = some (.rotation rotation)) ∧
    t = { s with
      secrets
      passwordVerifierSalt := some rotation.newVerifierSalt
      passwordVerifier := some rotation.newVerifier
      sessionPassword := none
      passwordRotationInProgress := journal }

/-- The recovery is cut off, before or after it carries out some of the journal. -/
def RecoveryCut (s t : AppSecureStore) : Prop :=
  t = s ∨ ∃ rotation, s.passwordRotationInProgress = some (.rotation rotation) ∧
    Interrupted rotation.entries s t

theorem recoverInterruptedPasswordRotation_triple :
    Triple env (fun t => t = s) recoverInterruptedPasswordRotation
      (fun _ t => s.passwordRotationInProgress = none ∧ t = s ∨
        ∃ rotation, s.passwordRotationInProgress = some (.rotation rotation) ∧
          Recovered rotation s t)
      (fun e t => e = .storageUnavailable ∧ RecoveryCut s t ∨
        s.passwordRotationInProgress = some .rollbackFailed ∧ t = s)
      (fun t => RecoveryCut s t) := by
  apply triple_bind (q := fun raw t => raw = s.passwordRotationInProgress ∧ t = s)
  · apply triple_attempt
    · rintro n t rfl
      exact ⟨rfl,rfl⟩
    · intro n t ht _
      exact .inl ⟨rfl,.inl ht⟩
    · intro n t ht _
      exact .inl ht
  · intro raw
    apply triple_of_state
    rintro _ ⟨rfl,rfl⟩
    rename_i s
    split
    · rename_i hnone
      apply triple_pure
      intro t ht
      exact .inl ⟨hnone,ht⟩
    · rename_i hmarker
      apply triple_throw
      intro t ht
      exact .inr ⟨hmarker,ht⟩
    · rename_i rotation hrotation
      apply triple_bind (writeRotatedPasswordState_triple.weaken (fun _ h => h) (fun _ _ h => h)
        (fun _ t h => .inl ⟨h.1.1,.inr ⟨rotation,hrotation,h.2⟩⟩)
        (fun t h => .inr ⟨rotation,hrotation,h⟩))
      intro _
      apply triple_of_state
      rintro t ⟨secrets,hmixed,hover,rfl⟩
      apply triple_bind (deleteRotationRecordBestEffort_triple.weaken (fun _ h => h)
        (fun _ _ h => h) (fun _ _ h => h.elim) ?_)
      · intro _
        apply triple_inMemory
        rintro t (rfl | ⟨rfl,-⟩)
        · exact .inr ⟨rotation,hrotation,secrets,none,hmixed,hover,.inl rfl,rfl⟩
        · exact .inr ⟨rotation,hrotation,secrets,_,hmixed,hover,.inr hrotation,rfl⟩
      · rintro t rfl
        exact .inr ⟨rotation,hrotation,secrets,_,_,_,hmixed,rfl⟩

end CoppiceWallet.SecureStore
