import CoppiceWallet.Lib.Lists
import CoppiceWallet.Lib.Result
import CoppiceWallet.SecureStore.HeldSecrets

/-! # Changes of the password -/

namespace CoppiceWallet.SecureStore

open CoppiceWallet.Lib CoppiceWallet.Lib.Faulty

variable {f : SecretFunctions} {env : StorageEnvironment} {s t m : AppSecureStore}
  {currentPassword newPassword : String} {rotation : PasswordRotationRecord}
  {rollback : PasswordRotationRollbackSnapshot}

/-- The store once the salt is there and mnemonics may have been moved. -/
structure Prepared (f : SecretFunctions) (s m : AppSecureStore) : Prop where
  sound : m.Sound f
  prepared : ∃ u, Salted s u ∧ Migrating u m

theorem Prepared.refl (hs : s.Sound f) : Prepared f s s := ⟨hs,s,.refl s,.refl s⟩

/-- What a rotation writes and puts back. -/
structure RotationPlan (f : SecretFunctions) (currentPassword newPassword : String)
    (s m : AppSecureStore) (rotation : PasswordRotationRecord)
    (rollback : PasswordRotationRollbackSnapshot) : Prop where
  prepared : Prepared f s m
  noLegacy : m.NoLegacy
  snapshot : ∀ key payload,
    m.secrets.value key = some payload ↔ (key,payload) ∈ rollback.entries
  oldVerifierSalt : rollback.oldVerifierSalt = s.passwordVerifierSalt
  oldVerifier : rollback.oldVerifier = s.passwordVerifier
  newVerifier : rotation.newVerifier =
    f.deriveSecretPasswordVerifier newPassword rotation.newVerifierSalt
  rotated : ∃ salt, m.secureStoreSalt = some salt ∧
    List.Forall₂ (fun entry entry' =>
      rotatePayload f currentPassword newPassword salt entry = .ok entry')
      rollback.entries rotation.entries

theorem rotatePayloads_triple {salt : String} {entries : List (SecretKey × String)} :
    Triple env (fun t => t = s) (rotatePayloads f currentPassword newPassword salt entries)
      (fun rotated t => List.Forall₂ (fun entry entry' =>
        rotatePayload f currentPassword newPassword salt entry = .ok entry') entries rotated ∧ t = s)
      (fun _ t => t = s) (fun t => t = s) := by
  rw [rotatePayloads]
  split
  · rename_i rotated hrotated
    apply triple_pure
    intro t ht
    exact ⟨mapM_ok hrotated,ht⟩
  · apply triple_throw
    intro t ht
    exact ht

theorem readAll_triple {op : StorageOperation} {kind : SecretKey × String → Bool} :
    Triple env (fun t => t = s)
      (runStorageOperation op fun env n s => (env.arrange n (s.secrets.rows.filter kind),s))
      (fun values t => values.Perm (s.secrets.rows.filter kind) ∧ t = s) (fun _ t => t = s)
      (fun t => t = s) := by
  apply triple_attempt
  · rintro n t rfl
    exact ⟨env.arrange_perm n _,rfl⟩
  · intro n t ht _
    exact ht
  · intro n t ht _
    exact ht

/-- How a rotation of a checked password ends. -/
def RotationEnds (f : SecretFunctions) (currentPassword newPassword : String) (s : AppSecureStore)
    (ends : PasswordRotationRecord → PasswordRotationRollbackSnapshot → AppSecureStore → Prop) :
    Prop :=
  ∃ m rotation rollback, RotationPlan f currentPassword newPassword s m rotation rollback ∧
    ends rotation rollback m

theorem rotatePassword_triple (hs : s.Sound f) :
    Triple env (fun t => t = s) (rotatePassword f currentPassword newPassword)
      (fun rotated t => rotated = true ∧
        RotationEnds f currentPassword newPassword s fun rotation _ m =>
          RotationDone rotation newPassword m t)
      (fun _ t => Prepared f s t ∨
        RotationEnds f currentPassword newPassword s fun rotation rollback m =>
          ∃ u, RotationThrew env rotation rollback currentPassword m u t)
      (fun t => Prepared f s t ∨
        RotationEnds f currentPassword newPassword s fun rotation rollback m =>
          RotationStopped rotation rollback m t) := by
  rw [rotatePassword]
  have hself : Prepared f s s := .refl hs
  apply triple_bind_read readPlain_triple _ (fun _ => .inl hself) (.inl hself)
  rintro _ rfl
  apply triple_bind_read readPlain_triple _ (fun _ => .inl hself) (.inl hself)
  rintro _ rfl
  apply triple_bind (getOrCreateSaltBase64_triple.weaken (fun _ h => h) (fun _ _ h => h)
    (fun _ t h => .inl (h ▸ hself)) (fun t h => .inl (h ▸ hself)))
  intro salt
  apply triple_of_state
  rintro u ⟨hsalted,hsalt⟩
  have hu : u.Sound f := hs.salted hsalted
  have hprepared (t : AppSecureStore) (hkeeps : t.Keeps (Held f u.secureStoreSalt))
      (hmigrating : Migrating u t) : Prepared f s t :=
    ⟨hu.migrating hkeeps hmigrating,u,hsalted,hmigrating⟩
  apply triple_bind ((migrateAccountMnemonicsAfterUnlockLocked_triple hu.keeps hu.platform).weaken
    (fun _ h => h) (fun _ _ h => h) (fun _ t h => .inl (hprepared t h.1 h.2))
    (fun t h => .inl (hprepared t h.1 h.2)))
  intro migration
  apply triple_of_state
  intro m hm
  have hm' : Prepared f s m := hprepared m hm.keeps hm.migrating
  apply triple_ite
  · intro hcleanup
    apply triple_bind_read readAll_triple _ (fun _ => .inl hm') (.inl hm')
    intro storedValues hstored
    apply triple_bind_read rotatePayloads_triple _ (fun _ => .inl hm') (.inl hm')
    intro rotatedMnemonics hmnemonics
    apply triple_bind_read readAll_triple _ (fun _ => .inl hm') (.inl hm')
    intro votingHotkeyValues hhotkeyValues
    apply triple_bind_read rotatePayloads_triple _ (fun _ => .inl hm') (.inl hm')
    intro rotatedHotkeys hhotkeys
    apply triple_bind (q := fun _ t => t = m)
    · apply triple_ask
      intro _ _ h
      exact h
    · intro newVerifierSalt
      have hplan : RotationPlan f currentPassword newPassword s m
          { newVerifierSalt
            newVerifier := f.deriveSecretPasswordVerifier newPassword newVerifierSalt
            entries := rotatedMnemonics ++ rotatedHotkeys }
          { oldVerifierSalt := s.passwordVerifierSalt
            oldVerifier := s.passwordVerifier
            entries := storedValues ++ votingHotkeyValues } := {
        prepared := hm'
        noLegacy := hm.cleanup hcleanup
        snapshot := by
          intro key payload
          rw [Entries.value_eq_some,List.mem_append,hstored.mem_iff,hhotkeyValues.mem_iff,
            List.mem_filter,List.mem_filter]
          cases key with
          | accountMnemonic uuid => simp [SecretKey.isMnemonic]
          | votingHotkey name => simp [SecretKey.isMnemonic]
        oldVerifierSalt := rfl
        oldVerifier := rfl
        newVerifier := rfl
        rotated := by
          refine ⟨salt,?_,List.rel_append hmnemonics hhotkeys⟩
          rw [hm.migrating.secureStoreSalt]
          exact hsalt }
      apply performRotation_triple.weaken (fun _ h => h)
      · rintro rotated t ⟨hrotated,hdone⟩
        exact ⟨hrotated,m,_,_,hplan,hdone⟩
      · rintro _ t (rfl | hthrew)
        · exact .inl hm'
        · exact .inr ⟨m,_,_,hplan,hthrew⟩
      · rintro t (rfl | hstopped)
        · exact .inl hm'
        · exact .inr ⟨m,_,_,hplan,hstopped⟩
  · intro _
    apply triple_throw
    rintro t rfl
    exact .inl hm'

/-- A change of the password that comes to the rotation. -/
structure ChangeAllowed (f : SecretFunctions) (currentPassword newPassword : String)
    (s : AppSecureStore) : Prop where
  accepts : s.accepts f currentPassword = true
  validated : validateRequiredWalletPassword f newPassword = none
  differs : currentPassword ≠ newPassword
  unmarked : s.passwordRotationInProgress ≠ some .rollbackFailed

theorem changePassword_triple (hs : s.Sound f) :
    Triple env (fun t => t = s) (changePassword f currentPassword newPassword)
      (fun changed t => changed = false ∧ t = s ∨ changed = true ∧
        ChangeAllowed f currentPassword newPassword s ∧
        RotationEnds f currentPassword newPassword s fun rotation _ m =>
          RotationDone rotation newPassword m t)
      (fun _ t => Prepared f s t ∨ ChangeAllowed f currentPassword newPassword s ∧
        RotationEnds f currentPassword newPassword s fun rotation rollback m =>
          ∃ u, RotationThrew env rotation rollback currentPassword m u t)
      (fun t => Prepared f s t ∨ ChangeAllowed f currentPassword newPassword s ∧
        RotationEnds f currentPassword newPassword s fun rotation rollback m =>
          RotationStopped rotation rollback m t) := by
  have hself : Prepared f s s := .refl hs
  have hsame (t : AppSecureStore) (ht : t = s) : Prepared f s t := by
    rw [ht]
    exact hself
  rw [changePassword]
  apply triple_bind_read readPlain_triple _ (fun _ => .inl hself) (.inl hself)
  rintro _ rfl
  split
  · apply triple_throw
    intro t ht
    exact .inl (hsame t ht)
  · rename_i hunmarked
    apply triple_ite
    · intro _
      apply triple_ite
      · intro _
        apply triple_throw
        intro t ht
        exact .inl (hsame t ht)
      · intro hdiffers
        split
        · apply triple_throw
          intro t ht
          exact .inl (hsame t ht)
        · rename_i hnew
          apply triple_bind_read verifyPasswordOnly_triple _ (fun _ => .inl hself) (.inl hself)
          intro isMatch hmatch
          apply triple_ite
          · rintro rfl
            have hallowed : ChangeAllowed f currentPassword newPassword s :=
              ⟨hmatch.symm,hnew,hdiffers,hunmarked⟩
            apply (rotatePassword_triple hs).weaken (fun _ h => h)
            · rintro changed t ⟨hchanged,hends⟩
              exact .inr ⟨hchanged,hallowed,hends⟩
            · rintro _ t (hprepared | hends)
              · exact .inl hprepared
              · exact .inr ⟨hallowed,hends⟩
            · rintro t (hprepared | hends)
              · exact .inl hprepared
              · exact .inr ⟨hallowed,hends⟩
          · intro _
            apply triple_pure
            intro t ht
            exact .inl ⟨rfl,ht⟩
    · intro _
      apply triple_pure
      intro t ht
      exact .inl ⟨rfl,ht⟩

namespace RotationPlan

variable (h : RotationPlan f currentPassword newPassword s m rotation rollback)

include h in
theorem heldRollback : ∀ entry ∈ rollback.entries, ∃ w, m.written entry.1 = some w ∧
    Held f m.secureStoreSalt w entry.2 := by
  intro entry hentry
  have hvalue := (h.snapshot entry.1 entry.2).mpr hentry
  have hkeeps := h.prepared.sound.keeps
  cases hw : m.written entry.1 with
  | none =>
    rw [hkeeps.unwritten _ hw] at hvalue
    cases hvalue
  | some w => exact ⟨w,rfl,hkeeps.written _ w _ hw hvalue⟩

include h in
theorem heldRotation (hf : f.Lawful) : ∀ entry ∈ rotation.entries,
    ∃ w, m.written entry.1 = some w ∧ Held f m.secureStoreSalt w entry.2 := by
  intro entry hentry
  obtain ⟨salt,hsalt,hrotated⟩ := h.rotated
  obtain ⟨before,hbefore,hpayload⟩ := forall₂_mem_right hrotated hentry
  obtain ⟨hkey,text,htext,hvalue⟩ := rotatePayload_ok hpayload
  obtain ⟨w,hw,hheld⟩ := h.heldRollback before hbefore
  rw [hkey,hvalue]
  exact ⟨w,hw,hheld.rotate hf hsalt htext⟩

include h in
theorem held (hf : f.Lawful) : ∀ entry ∈ rotation.entries ++ rollback.entries,
    ∃ w, m.written entry.1 = some w ∧ Held f m.secureStoreSalt w entry.2 := by
  intro entry hentry
  rcases List.mem_append.mp hentry with hentry | hentry
  · exact h.heldRotation hf entry hentry
  · exact h.heldRollback entry hentry

include h in
theorem sound_journaled (hf : f.Lawful) : (m.journaled rotation).Sound f := by
  apply h.prepared.sound.withJournal
  rintro _ ⟨⟩
  exact h.heldRotation hf

include h in
theorem sound_done (hf : f.Lawful) (hdone : RotationDone rotation newPassword m t) : t.Sound f := by
  obtain ⟨secrets,journal,hmixed,-,hjournal,rfl⟩ := hdone
  have hwritten := h.prepared.sound.interrupted
    ⟨secrets,some rotation.newVerifierSalt,some rotation.newVerifier,some newPassword,hmixed,rfl⟩
    (h.heldRotation hf)
  apply hwritten.withJournal
  rintro other hother
  rcases hjournal with rfl | rfl
  · cases hother
  · cases hother
    exact h.heldRotation hf

include h in
theorem sound_stopped (hf : f.Lawful) (hstopped : RotationStopped rotation rollback m t) :
    t.Sound f :=
  (h.sound_journaled hf).interrupted hstopped (h.held hf)

include h in
theorem sound_threw (hf : f.Lawful) {u : AppSecureStore}
    (hthrew : RotationThrew env rotation rollback currentPassword m u t) : t.Sound f := by
  have hu := (h.sound_journaled hf).interrupted hthrew.interrupted (h.heldRotation hf)
  have hentries : ∀ entry ∈ rollback.entries, ∃ w, u.written entry.1 = some w ∧
      Held f u.secureStoreSalt w entry.2 := by
    obtain ⟨secrets,_,_,_,-,rfl⟩ := hthrew.interrupted
    exact h.heldRollback
  have hrestored {v : AppSecureStore} (hv : Restored rollback currentPassword u v) : v.Sound f := by
    obtain ⟨secrets,hmixed,-,rfl⟩ := hv
    exact hu.interrupted ⟨secrets,_,_,_,hmixed,rfl⟩ hentries
  cases hthrew.rolledBack with
  | restored v hv ht =>
    rw [ht]
    exact (hrestored hv).withJournal (by simp)
  | journalLeft hv n hfate => exact hrestored hv
  | marked v hv ht =>
    rw [ht]
    exact (hu.interrupted hv hentries).withJournal (by simp)
  | unmarked hv n hfate => exact hu.interrupted hv hentries

end RotationPlan

end CoppiceWallet.SecureStore
