import CoppiceWallet.SecureStore.CallRules

/-! # What is recorded of a call -/

namespace CoppiceWallet.SecureStore

open CoppiceWallet.Lib CoppiceWallet.Lib.Faulty

variable {f : SecretFunctions} {i : SecretInput} {s t : AppSecureStore}

/-- A call leaves the store sound and recorded. -/
def Leaves (f : SecretFunctions) (i : SecretInput) (s : AppSecureStore)
    (ending : Ending SecureStoreError Bool) (t : AppSecureStore) : Prop :=
  t.Sound f ∧ RecordedCall i s ending t

def CallLeaves (f : SecretFunctions) (i : SecretInput) (s : AppSecureStore) : Prop :=
  Triple i.environment (fun t => t = i.call.entry s) (i.call.run f)
    (fun r t => Leaves f i s (.returned r) t) (fun e t => Leaves f i s (.threw e) t)
    (fun t => Leaves f i s .stopped t)

theorem Leaves.same {ending : Ending SecureStoreError Bool} (hsound : t.Sound f)
    (hwritten : t.written = s.written)
    (h : ending ≠ .returned true ∨ i.call.writes = none ∧ ∀ key, ¬i.call.deletes key) :
    Leaves f i s ending t :=
  ⟨hsound,.same hwritten h⟩

theorem Interrupted.written {entries : List (SecretKey × String)} (h : Interrupted entries s t) :
    t.written = s.written := by
  obtain ⟨_,_,_,_,-,rfl⟩ := h
  rfl

theorem Prepared.written {m : AppSecureStore} (h : Prepared f s m) : m.written = s.written := by
  obtain ⟨u,hsalted,hmigrating⟩ := h.prepared
  rw [hmigrating.written,hsalted.1]

theorem Restored.written {rollback : PasswordRotationRollbackSnapshot} {currentPassword : String}
    (h : Restored rollback currentPassword s t) : t.written = s.written := by
  obtain ⟨_,-,-,rfl⟩ := h
  rfl

theorem RotationThrew.written {env : StorageEnvironment} {rotation : PasswordRotationRecord}
    {rollback : PasswordRotationRollbackSnapshot} {currentPassword : String} {u : AppSecureStore}
    (h : RotationThrew env rotation rollback currentPassword s u t) : t.written = s.written := by
  have hu : u.written = s.written := h.interrupted.written
  cases h.rolledBack with
  | restored v hv ht =>
    rw [ht]
    exact hv.written.trans hu
  | journalLeft hv n hfate => exact hv.written.trans hu
  | marked v hv ht =>
    rw [ht]
    exact hv.written.trans hu
  | unmarked hv n hfate => exact hv.written.trans hu

theorem changePassword_leaves (hf : f.Lawful) (hs : s.Sound f) {currentPassword newPassword : String}
    (hcall : i.call = .changePassword currentPassword newPassword) : CallLeaves f i s := by
  have hleaves {ending : Ending SecureStoreError Bool} {t : AppSecureStore} (hsound : t.Sound f)
      (hwritten : t.written = s.written) : Leaves f i s ending t := by
    apply Leaves.same hsound hwritten
    rw [hcall]
    exact .inr ⟨rfl,fun _ h => h⟩
  rw [CallLeaves,hcall]
  apply (changePassword_triple hs).weaken (fun _ h => h)
  · rintro changed t (⟨-,rfl⟩ | ⟨-,-,m,rotation,rollback,hplan,hdone⟩)
    · exact hleaves hs rfl
    · apply hleaves (hplan.sound_done hf hdone)
      obtain ⟨_,_,-,-,-,rfl⟩ := hdone
      exact hplan.prepared.written
  · rintro _ t (hprepared | ⟨-,m,rotation,rollback,hplan,u,hthrew⟩)
    · exact hleaves hprepared.sound hprepared.written
    · exact hleaves (hplan.sound_threw hf hthrew) (hthrew.written.trans hplan.prepared.written)
  · rintro t (hprepared | ⟨-,m,rotation,rollback,hplan,hstopped⟩)
    · exact hleaves hprepared.sound hprepared.written
    · exact hleaves (hplan.sound_stopped hf hstopped)
        (hstopped.written.trans hplan.prepared.written)

theorem restart_leaves (hs : s.Sound f) (hcall : i.call = .restart) : CallLeaves f i s := by
  have hleaves {ending : Ending SecureStoreError Bool} {t : AppSecureStore}
      (h : t.Sound f ∧ t.written = s.written) : Leaves f i s ending t := by
    apply Leaves.same h.1 h.2
    rw [hcall]
    exact .inr ⟨rfl,fun _ h => h⟩
  rw [CallLeaves,hcall]
  have hs' : s.forgetSession.Sound f := hs.withSession none
  have hcut {t : AppSecureStore} (h : RecoveryCut s.forgetSession t) : t.written = s.written := by
    rcases h with rfl | ⟨rotation,-,hinterrupted⟩
    · rfl
    · exact hinterrupted.written
  apply triple_bind (recoverInterruptedPasswordRotation_triple.weaken (fun _ h => h)
    (fun _ _ h => h) ?_ (fun _ h => hleaves ⟨hs'.recoveryCut h,hcut h⟩))
  · intro _
    apply triple_pure
    rintro t (⟨-,rfl⟩ | ⟨rotation,hrotation,hrecovered⟩)
    · exact hleaves ⟨hs',rfl⟩
    · apply hleaves ⟨hs'.recovered hrotation hrecovered,?_⟩
      obtain ⟨_,_,-,-,-,rfl⟩ := hrecovered
      rfl
  · rintro _ t (⟨-,h⟩ | ⟨-,rfl⟩)
    · exact hleaves ⟨hs'.recoveryCut h,hcut h⟩
    · exact hleaves ⟨hs',rfl⟩

theorem verifyPassword_leaves (hs : s.Sound f) {password : String}
    (hcall : i.call = .verifyPassword password) : CallLeaves f i s := by
  have hleaves {ending : Ending SecureStoreError Bool} {unlocked : Bool} {t : AppSecureStore}
      (h : Unlocked f password s unlocked t) : Leaves f i s ending t := by
    apply Leaves.same (s := s) h.sound h.migrating.written
    rw [hcall]
    exact .inr ⟨rfl,fun _ h => h⟩
  rw [CallLeaves,hcall]
  exact (verifyPassword_triple hs).weaken (fun _ h => h) (fun _ _ h => hleaves h)
    (fun _ _ h => hleaves h) (fun _ h => hleaves h)

theorem migrateAccountMnemonicsAfterUnlock_leaves (hs : s.Sound f)
    (hcall : i.call = .migrateAccountMnemonicsAfterUnlock) : CallLeaves f i s := by
  have hleaves {ending : Ending SecureStoreError Bool} {t : AppSecureStore} (hsound : t.Sound f)
      (h : Migrating s t) : Leaves f i s ending t := by
    apply Leaves.same hsound h.written
    rw [hcall]
    exact .inr ⟨rfl,fun _ h => h⟩
  rw [CallLeaves,hcall]
  exact (migrateAccountMnemonicsAfterUnlock_triple hs).weaken (fun _ h => h)
    (fun _ _ h => hleaves h.1 h.2.1) (fun _ _ h => hleaves h.1 h.2) (fun _ h => hleaves h.1 h.2)

theorem writeSecret_leaves (hs : s.Sound f) {key : SecretKey} {value : String}
    (hwrites : i.call.writes = some (key,value)) (hdeletes : ∀ other, ¬i.call.deletes other)
    (hentry : i.call.entry s = s)
    (hrun : i.call.run f = (do writeSecret f key value; pure true))
    (hjournal : i.KeepsJournal s) : CallLeaves f i s := by
  have hkey : s.Unjournaled key := hjournal key (.inl ⟨value,hwrites⟩)
  rw [CallLeaves,hentry,hrun]
  apply triple_bind ((writeSecret_sound hs hkey).weaken (fun _ h => h) (fun _ _ h => h)
    (fun _ _ h => .same h.1 h.2 (.inl (by simp))) (fun _ h => .same h.1 h.2 (.inl (by simp))))
  intro _
  apply triple_pure
  rintro t ⟨hsound,hwritten⟩
  refine ⟨hsound,{
    written := ?_
    unwritten := fun _ _ _ hreturned => absurd rfl hreturned
    deleted := fun other hother => absurd hother (hdeletes other)
    untouched := ?_ }⟩
  · intro other value' hother _
    rw [hwrites] at hother
    cases hother
    rw [hwritten,if_pos rfl]
  · intro other hother
    rw [hwritten,if_neg]
    rintro rfl
    exact hother (.inl ⟨value,hwrites⟩)

theorem deleteAccountMnemonic_leaves (hs : s.Sound f) {uuid : String}
    (hcall : i.call = .deleteAccountMnemonic uuid) (hjournal : i.KeepsJournal s)
    (hlegacy : i.DeletesLegacy s) : CallLeaves f i s := by
  have hkey : s.Unjournaled (.accountMnemonic uuid) := by
    apply hjournal
    rw [hcall]
    exact .inr rfl
  have huntouched (key : SecretKey) (hkey : ¬i.call.touches key) : key ≠ .accountMnemonic uuid := by
    rintro rfl
    rw [hcall] at hkey
    exact hkey (.inr rfl)
  have hboth {ending : Ending SecureStoreError Bool} (hending : ending = .returned true ∨
      ending = .stopped) (hsound : (s.eraseSecret (.accountMnemonic uuid)).Sound f)
      (hdeleted : ending = .returned true →
        (s.eraseSecret (.accountMnemonic uuid)).written (.accountMnemonic uuid) = none) :
      Leaves f i s ending (s.eraseSecret (.accountMnemonic uuid)) :=
    ⟨hsound,{
      written := by simp [hcall,SecretCall.writes]
      unwritten := by simp [hcall,SecretCall.writes]
      deleted := by
        intro other hdelete hreturned
        rw [hcall] at hdelete
        cases hdelete
        exact hdeleted hreturned
      untouched := by
        intro key htouches
        rw [written_eraseSecret,if_neg (fun h => huntouched key htouches h.1)] }⟩
  have herased (hnone : s.legacyMnemonics.value uuid = none) :
      (s.eraseSecret (.accountMnemonic uuid)).Sound f ∧
        (s.eraseSecret (.accountMnemonic uuid)).written (.accountMnemonic uuid) = none := by
    have hsound : (s.eraseSecret (.accountMnemonic uuid)).Sound f := by
      apply hs.eraseSecret hkey
      rintro other ⟨⟩ _
      exact hnone
    refine ⟨hsound,?_⟩
    cases hw : (s.eraseSecret (.accountMnemonic uuid)).written (.accountMnemonic uuid) with
    | none => rfl
    | some w =>
      obtain ⟨payload,hpayload,-⟩ := hsound.keeps.mnemonic uuid w hw (by
        simp [AppSecureStore.mnemonic,AppSecureStore.eraseSecret,Entries.value_erase])
      have hstill : s.legacyMnemonics.value uuid = some payload := hpayload
      rw [hnone] at hstill
      cases hstill
  rw [CallLeaves,hcall]
  apply triple_bind (deleteAccountMnemonic_triple.weaken (fun _ h => h) (fun _ _ h => h) ?_ ?_)
  · intro _
    apply triple_pure
    intro t ht
    cases ht with
    | both hseparate ht =>
      rw [ht]
      refine ⟨hs.eraseBoth hkey,{
        written := by simp [hcall,SecretCall.writes]
        unwritten := by simp [hcall,SecretCall.writes]
        deleted := ?_
        untouched := ?_ }⟩
      · intro other hdelete _
        rw [hcall] at hdelete
        cases hdelete
        rw [written_eraseBoth,if_pos rfl]
      · intro key htouches
        rw [written_eraseBoth]
        exact if_neg (huntouched key htouches)
    | own hsame ht =>
      rw [ht]
      obtain ⟨hsound,hdeleted⟩ := herased (hs.platform hsame uuid)
      exact hboth (.inl rfl) hsound fun _ => hdeleted
    | legacyFailed n hfate ht =>
      rw [ht]
      rcases hlegacy uuid hcall with hnone | hall
      · obtain ⟨hsound,hdeleted⟩ := herased hnone
        exact hboth (.inl rfl) hsound fun _ => hdeleted
      · have hfates := hall n
        rw [hfate] at hfates
        simp at hfates
  · rintro _ t rfl
    exact .same hs rfl (.inl (by simp))
  · rintro t (rfl | ⟨rfl,n,hfate⟩)
    · exact .same hs rfl (.inl (by simp))
    · apply hboth (.inr rfl) _ (by simp)
      rcases hlegacy uuid hcall with hnone | hall
      · exact (herased hnone).1
      · have hfates := hall n
        rw [hfate] at hfates
        apply hs.eraseSecret hkey
        rintro other ⟨⟩ hmnemonic
        exact absurd (by simpa using hfates) hmnemonic

theorem deleteVotingHotkeys_leaves (hs : s.Sound f) (hjournal : i.KeepsJournal s)
    (hwrites : i.call.writes = none) (hentry : i.call.entry s = s)
    (hhotkeys : ∀ key, i.call.deletes key → ∃ name, key = .votingHotkey name)
    (hrun : ∀ P : AppSecureStore → Prop, (∀ name, i.call.deletes (.votingHotkey name) →
      ∀ s, P s → P (s.eraseSecret (.votingHotkey name))) →
        Maintains i.environment P (i.call.run f))
    (herases : Triple i.environment (fun t => t = s) (i.call.run f)
      (fun _ t => ∀ key, i.call.deletes key → t.secrets.value key = none) (fun _ _ => True)
      (fun _ => True)) : CallLeaves f i s := by
  have hmaintains := hrun (fun t => t.Sound f ∧
    t.passwordRotationInProgress = s.passwordRotationInProgress ∧
    ∀ key, ¬i.call.touches key → t.written key = s.written key) (by
      rintro name hname t ⟨hsound,hsame,huntouched⟩
      refine ⟨?_,hsame,fun key hkey => ?_⟩
      · apply hsound.eraseSecret
        · intro rotation hrotation
          rw [hsame] at hrotation
          exact hjournal _ (.inr hname) rotation hrotation
        · intro uuid h
          cases h
      · rw [written_eraseSecret,if_neg]
        · exact huntouched key hkey
        · rintro ⟨rfl,-⟩
          exact hkey (.inr hname))
  rw [CallLeaves,hentry]
  apply (hmaintains.and herases).weaken
  · rintro t rfl
    exact ⟨⟨hs,rfl,fun _ _ => rfl⟩,rfl⟩
  · rintro r t ⟨⟨hsound,-,huntouched⟩,herased⟩
    refine ⟨hsound,{
      written := by simp [hwrites]
      unwritten := by simp [hwrites]
      deleted := ?_
      untouched := huntouched }⟩
    intro key hkey _
    obtain ⟨name,rfl⟩ := hhotkeys key hkey
    cases hw : t.written (.votingHotkey name) with
    | none => rfl
    | some w =>
      obtain ⟨payload,hpayload⟩ := hsound.keeps.hotkey name w hw
      rw [herased _ hkey] at hpayload
      cases hpayload
  · rintro e t ⟨⟨hsound,-,huntouched⟩,-⟩
    exact ⟨hsound,by simp [hwrites],by simp [hwrites],by simp,huntouched⟩
  · rintro t ⟨⟨hsound,-,huntouched⟩,-⟩
    exact ⟨hsound,by simp [hwrites],by simp [hwrites],by simp,huntouched⟩

theorem callLeaves (hf : f.Lawful) (hs : s.Sound f) (hjournal : i.KeepsJournal s)
    (hlegacy : i.DeletesLegacy s) : CallLeaves f i s := by
  cases hcall : i.call with
  | restart => exact restart_leaves hs hcall
  | verifyPassword password => exact verifyPassword_leaves hs hcall
  | migrateAccountMnemonicsAfterUnlock => exact migrateAccountMnemonicsAfterUnlock_leaves hs hcall
  | writeAccountMnemonic uuid mnemonic =>
    apply writeSecret_leaves hs _ _ _ _ hjournal
    · exact .accountMnemonic uuid
    · exact mnemonic
    · rw [hcall]
      rfl
    · rw [hcall]
      exact fun _ h => h
    · rw [hcall]
      rfl
    · rw [hcall]
      rfl
  | writeVotingHotkey name hotkey =>
    apply writeSecret_leaves hs _ _ _ _ hjournal
    · exact .votingHotkey name
    · exact hotkey
    · rw [hcall]
      rfl
    · rw [hcall]
      exact fun _ h => h
    · rw [hcall]
      rfl
    · rw [hcall]
      rfl
  | deleteAccountMnemonic uuid => exact deleteAccountMnemonic_leaves hs hcall hjournal hlegacy
  | deleteVotingHotkey name =>
    apply deleteVotingHotkeys_leaves hs hjournal
    · rw [hcall]
      rfl
    · rw [hcall]
      rfl
    · rw [hcall]
      exact fun key hkey => ⟨name,hkey⟩
    · intro P hP
      rw [hcall] at hP ⊢
      exact maintains_bind (deleteVotingHotkey_maintains (hP name rfl)) fun _ => maintains_pure
    · rw [hcall]
      apply triple_bind (q := fun _ t => t.secrets.value (.votingHotkey name) = none)
      · apply triple_attempt
        · rintro n t rfl
          exact Entries.value_erase.trans (if_pos rfl)
        · intro _ _ _ _
          trivial
        · intro _ _ _ _
          trivial
      · intro _
        apply triple_pure
        rintro t ht _ rfl
        exact ht
  | deleteVotingHotkeysForAccount uuid =>
    apply deleteVotingHotkeys_leaves hs hjournal
    · rw [hcall]
      rfl
    · rw [hcall]
      rfl
    · rw [hcall]
      exact fun key hkey => ⟨hkey.choose,hkey.choose_spec.2⟩
    · intro P hP
      rw [hcall] at hP ⊢
      apply maintains_bind
      · apply deleteVotingHotkeysForAccount_maintains
        intro name hname
        exact hP name ⟨name,hname,rfl⟩
      · intro _
        exact maintains_pure
    · rw [hcall]
      apply triple_bind deleteVotingHotkeysForAccount_erases
      intro _
      apply triple_pure
      rintro t ht _ ⟨name,hname,rfl⟩
      exact ht name hname
  | changePassword currentPassword newPassword => exact changePassword_leaves hf hs hcall

theorem CallLeaves.outcome (h : CallLeaves f i s) :
    Leaves f i s (i.outcome f s).1 (i.outcome f s).2 := by
  have hends := outcome_triple h
  cases hout : i.outcome f s with
  | mk ending t =>
    rw [hout] at hends
    cases ending with
    | returned r => exact hends
    | threw e => exact hends
    | stopped => exact hends

theorem next_store : (i.next f s).store = (i.outcome f s).2 ∨
    (i.next f s).store = (i.outcome f s).2.forgetSession := by
  rw [SecretInput.next]
  cases i.outcome f s with
  | mk ending t =>
    cases ending with
    | returned r => exact .inl rfl
    | threw e => exact .inl rfl
    | stopped => exact .inr rfl

end CoppiceWallet.SecureStore
