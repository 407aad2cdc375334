import CoppiceWallet.SecureStore.SettledStores

/-! # Rotations and recoveries keep every secret readable -/

namespace CoppiceWallet.SecureStore

open CoppiceWallet.Lib CoppiceWallet.Lib.Faulty

variable {f : SecretFunctions} {env : StorageEnvironment} {s t u m : AppSecureStore}
  {i : SecretInput} {p q : String} {currentPassword newPassword : String}
  {rotation : PasswordRotationRecord} {rollback : PasswordRotationRollbackSnapshot}

theorem Recoverable.interrupted (h : Recoverable f p s)
    (hrotation : s.passwordRotationInProgress = some (.rotation rotation))
    (hinterrupted : Interrupted rotation.entries s t) : Recoverable f p t := by
  obtain ⟨secrets,salt,verifier,session,hmixed,rfl⟩ := hinterrupted
  have hentries := (h.journal rotation hrotation).entries
  have hown (key : SecretKey) (payload : String) (hvalue : secrets.value key = some payload) :
      s.secrets.value key = some payload ∨ (key,payload) ∈ rotation.entries := by
    rcases hmixed key with hsame | ⟨other,hmem,hother⟩
    · exact .inl (hsame.symm.trans hvalue)
    · cases hvalue.symm.trans hother
      exact .inr hmem
  exact {
    clean := by
      intro hnone
      have hnone' : s.passwordRotationInProgress = none := hnone
      rw [hrotation] at hnone'
      cases hnone'
    unmarked := h.unmarked
    journal := by
      intro other hother
      exact (h.journal other hother).congr (fun _ _ => rfl) fun _ h => h
    others := by
      intro other hother key w payload hkey hw hpayload
      cases hrotation.symm.trans hother
      rcases hown key payload hpayload with hsame | hmem
      · exact h.others rotation hrotation key w payload hkey hw hsame
      · exact absurd rfl (hkey _ hmem)
    legacy := by
      intro uuid w payload hw hnone hpayload
      apply h.legacy uuid w payload hw _ hpayload
      rcases hmixed (.accountMnemonic uuid) with hsame | ⟨other,-,hother⟩
      · exact hsame.symm.trans hnone
      · cases hother.symm.trans hnone }

theorem Recoverable.recovered (h : Recoverable f p s)
    (hrotation : s.passwordRotationInProgress = some (.rotation rotation))
    (hrecovered : Recovered rotation s t) : Settled f p t := by
  obtain ⟨secrets,journal,hmixed,hover,hjournal,rfl⟩ := hrecovered
  have hfor := h.journal rotation hrotation
  exact {
    accepts := accepts_iff.mpr ⟨hfor.valid,rotation.newVerifierSalt,rfl,by rw [hfor.verifier]⟩
    opens := {
      own := by
        intro key w payload hw hpayload
        by_cases hkey : ∀ entry ∈ rotation.entries, entry.1 ≠ key
        · rcases hmixed key with hsame | ⟨other,hmem,-⟩
          · exact h.others rotation hrotation key w payload hkey hw (hsame.symm.trans hpayload)
          · exact absurd rfl (hkey _ hmem)
        · simp only [not_forall,not_not] at hkey
          obtain ⟨entry,hentry,rfl⟩ := hkey
          obtain ⟨other,hmem,hvalue⟩ := hover entry hentry
          cases hpayload.symm.trans hvalue
          obtain ⟨w',hw',hopens⟩ := hfor.entries _ hmem
          cases hw.symm.trans hw'
          exact hopens
      legacy := by
        intro uuid w payload hw hnone hpayload
        apply h.legacy uuid w payload hw _ hpayload
        rcases hmixed (.accountMnemonic uuid) with hsame | ⟨other,-,hother⟩
        · exact hsame.symm.trans hnone
        · cases hother.symm.trans hnone }
    session := by
      intro password hpassword
      cases hpassword
    unmarked := by
      rcases hjournal with rfl | rfl
      · simp
      · simp
    journal := by
      intro other hother
      rcases hjournal with rfl | rfl
      · cases hother
      · cases hother
        exact hfor.congr (fun _ _ => rfl) fun _ h => h }

theorem Recoverable.recoveryCut (h : Recoverable f p s) (hcut : RecoveryCut s t) :
    Recoverable f p t := by
  rcases hcut with rfl | ⟨rotation,hrotation,hinterrupted⟩
  · exact h
  · exact h.interrupted hrotation hinterrupted

theorem Recoverable.settled (h : Recoverable f p s)
    (hnone : s.passwordRotationInProgress = none) (hsession : s.sessionPassword = none) :
    Settled f p s where
  accepts := (h.clean hnone).1
  opens := (h.clean hnone).2
  session password hpassword := by
    rw [hsession] at hpassword
    cases hpassword
  unmarked := h.unmarked
  journal := h.journal

theorem Prepared.settled (h : Prepared f s m) (hs : Settled f p s) : Settled f p m := by
  obtain ⟨v,hsalted,hmigrating⟩ := h.prepared
  exact (hs.salted hsalted).migrating hmigrating

theorem opensWith_of_entries {entries : List (SecretKey × String)} (hnoLegacy : t.NoLegacy)
    (hvalues : ∀ key payload, t.secrets.value key = some payload → (key,payload) ∈ entries)
    (hentries : ∀ entry ∈ entries, ∃ w, t.written entry.1 = some w ∧
      Opens f t.secureStoreSalt p w entry.2) : t.OpensWith f p where
  own key w payload hw hpayload := by
    obtain ⟨w',hw',hopens⟩ := hentries _ (hvalues key payload hpayload)
    cases hw.symm.trans hw'
    exact hopens
  legacy uuid w payload _ _ hpayload := by
    rw [hnoLegacy uuid] at hpayload
    cases hpayload

namespace RotationPlan

variable (h : RotationPlan f currentPassword newPassword s m rotation rollback)

include h in
theorem keys : ∀ key payload, m.secrets.value key = some payload →
    ∃ payload', (key,payload') ∈ rotation.entries := by
  intro key payload hvalue
  obtain ⟨salt,-,hrotated⟩ := h.rotated
  obtain ⟨entry,hentry,hpayload⟩ := forall₂_mem_left hrotated ((h.snapshot key payload).mp hvalue)
  obtain ⟨hkey,-⟩ := rotatePayload_ok hpayload
  refine ⟨entry.2,?_⟩
  have hpair : (key,entry.2) = entry := Prod.ext hkey.symm rfl
  rw [hpair]
  exact hentry

include h in
theorem present : ∀ entry ∈ rotation.entries ++ rollback.entries,
    ∃ payload, m.secrets.value entry.1 = some payload := by
  intro entry hentry
  rcases List.mem_append.mp hentry with hentry | hentry
  · obtain ⟨salt,-,hrotated⟩ := h.rotated
    obtain ⟨before,hbefore,hpayload⟩ := forall₂_mem_right hrotated hentry
    rw [(rotatePayload_ok hpayload).1]
    exact ⟨before.2,(h.snapshot _ _).mpr hbefore⟩
  · exact ⟨entry.2,(h.snapshot _ _).mpr hentry⟩

include h in
theorem keys_of_mixed {entries : List (SecretKey × String)} {secrets : Entries SecretKey}
    (hentries : entries ⊆ rotation.entries ++ rollback.entries)
    (hmixed : Mixed entries m.secrets secrets) {key : SecretKey} {payload : String}
    (hvalue : secrets.value key = some payload) : ∃ payload', m.secrets.value key = some payload' := by
  rcases hmixed key with hsame | ⟨other,hmem,-⟩
  · exact ⟨payload,hsame.symm.trans hvalue⟩
  · exact h.present _ (hentries hmem)

include h in
theorem opensRollback (hm : Settled f currentPassword m) : ∀ entry ∈ rollback.entries,
    ∃ w, m.written entry.1 = some w ∧ Opens f m.secureStoreSalt currentPassword w entry.2 := by
  intro entry hentry
  have hvalue := (h.snapshot entry.1 entry.2).mpr hentry
  obtain ⟨w,hw,-⟩ := h.heldRollback entry hentry
  exact ⟨w,hw,hm.opens.own _ w _ hw hvalue⟩

include h in
theorem journalFor (hf : f.Lawful) (hm : Settled f currentPassword m)
    (hnew : validateRequiredWalletPassword f newPassword = none) :
    JournalFor f newPassword m rotation where
  valid := isWalletPasswordValid_of_required hnew
  verifier := h.newVerifier
  entries entry hentry := by
    obtain ⟨salt,hsalt,hrotated⟩ := h.rotated
    obtain ⟨before,hbefore,hpayload⟩ := forall₂_mem_right hrotated hentry
    obtain ⟨hkey,text,htext,hvalue⟩ := rotatePayload_ok hpayload
    obtain ⟨w,hw,hopens⟩ := h.opensRollback hm before hbefore
    rw [hkey,hvalue]
    exact ⟨w,hw,hopens.rotate hf hsalt htext⟩

include h in
theorem recoverable_stopped (hf : f.Lawful) (hm : Settled f currentPassword m)
    (hnew : validateRequiredWalletPassword f newPassword = none)
    (hstopped : RotationStopped rotation rollback m t) : Recoverable f newPassword t := by
  obtain ⟨secrets,salt,verifier,session,hmixed,rfl⟩ := hstopped
  have hfor := h.journalFor hf hm hnew
  exact {
    clean := by
      intro hnone
      cases hnone
    unmarked := by
      intro hmarker
      cases hmarker
    journal := by
      rintro other ⟨⟩
      exact hfor.congr (fun _ _ => rfl) fun _ h => h
    others := by
      rintro other ⟨⟩ key w payload hkey hw hpayload
      obtain ⟨payload',hvalue⟩ := h.keys_of_mixed (fun _ h => h) hmixed hpayload
      obtain ⟨payload'',hmem⟩ := h.keys key payload' hvalue
      exact absurd rfl (hkey _ hmem)
    legacy := by
      intro uuid w payload _ _ hpayload
      have hnone : m.legacyMnemonics.value uuid = some payload := hpayload
      rw [h.noLegacy uuid] at hnone
      cases hnone }

include h in
theorem settled_done (hf : f.Lawful) (hm : Settled f currentPassword m)
    (hnew : validateRequiredWalletPassword f newPassword = none)
    (hdone : RotationDone rotation newPassword m t) : Settled f newPassword t := by
  obtain ⟨secrets,journal,hmixed,hover,hjournal,rfl⟩ := hdone
  have hfor := h.journalFor hf hm hnew
  exact {
    accepts := accepts_iff.mpr ⟨hfor.valid,rotation.newVerifierSalt,rfl,by rw [hfor.verifier]⟩
    opens := by
      refine opensWith_of_entries h.noLegacy ?_ hfor.entries
      intro key payload hvalue
      obtain ⟨payload',hbefore⟩ := h.keys_of_mixed (List.subset_append_left _ _) hmixed hvalue
      obtain ⟨payload'',hmem⟩ := h.keys key payload' hbefore
      obtain ⟨other,hother,hwritten⟩ := hover _ hmem
      cases hvalue.symm.trans hwritten
      exact hother
    session := by
      rintro password ⟨⟩
      rfl
    unmarked := by
      rcases hjournal with rfl | rfl
      · simp
      · simp
    journal := by
      intro other hother
      rcases hjournal with rfl | rfl
      · cases hother
      · cases hother
        exact hfor.congr (fun _ _ => rfl) fun _ h => h }

include h in
theorem settled_restored (hm : Settled f currentPassword m)
    (hinterrupted : Interrupted rotation.entries (m.journaled rotation) u)
    (hrestored : Restored rollback currentPassword u t) :
    Settled f currentPassword { t with passwordRotationInProgress := none } := by
  obtain ⟨secrets,salt,verifier,session,hmixed,rfl⟩ := hinterrupted
  obtain ⟨secrets',hmixed',hover,rfl⟩ := hrestored
  obtain ⟨v,hsalted,hmigrating⟩ := h.prepared.prepared
  have hsaltSame : rollback.oldVerifierSalt = m.passwordVerifierSalt := by
    rw [h.oldVerifierSalt,hmigrating.passwordVerifierSalt,hsalted.1]
  have hverifierSame : rollback.oldVerifier = m.passwordVerifier := by
    rw [h.oldVerifier,hmigrating.passwordVerifier,hsalted.1]
  exact {
    accepts := by
      rw [accepts_congr (s := m) hsaltSame hverifierSame]
      exact hm.accepts
    opens := by
      refine opensWith_of_entries h.noLegacy ?_ (h.opensRollback hm)
      intro key payload hvalue
      obtain ⟨payload',hbefore⟩ := h.keys_of_mixed (fun _ h => h) (hmixed.trans hmixed') hvalue
      obtain ⟨other,hother,hwritten⟩ := hover _ ((h.snapshot key payload').mp hbefore)
      cases hvalue.symm.trans hwritten
      exact hother
    session := by
      rintro password ⟨⟩
      rfl
    unmarked := by
      intro hmarker
      cases hmarker
    journal := by
      rintro other ⟨⟩ }

end RotationPlan

end CoppiceWallet.SecureStore
