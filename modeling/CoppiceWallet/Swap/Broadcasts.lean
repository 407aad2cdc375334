import CoppiceWallet.Swap.Checkpoints

/-!
# Broadcasts, starts and claims keep the deposits
-/

namespace CoppiceWallet.Swap

open CoppiceWallet.Lib

variable {request : Option SwapRequest} {start w : SwapWorld} {a : String} {α : Type}
  {caught : String → Code SwapWorld SwapRequest SwapRequest.Reply} {x y u : SwapIntent}
  {checkpoint : Option String} {v : List DepositCard}

variable {broadcast : DepositBroadcast} {selected : SwapIntent}

theorem sat_showBroadcastNotice {notice : String} (hw : Segment request start w)
    (haccount : selected.accountUuid = some a) : SwapSat request start
      (showBroadcastNotice selected broadcast notice (fun _ => .done) caught) w := by
  simp only [showBroadcastNotice,useIntents,Async.bind_apply,Async.modify_apply,Async.get_apply,
    Async.pure_apply,haccount]
  apply sat_get
  apply sat_set
  apply sat_get
  cases hfound : swapIntentById (w.useIntents (some a)).intents selected.id with
  | none => exact (hw.useIntents (some a)).sat_end
  | some current =>
    obtain ⟨hcurrent,hid⟩ := swapIntentById_mem hfound
    dsimp only
    split
    · exact (hw.useIntents (some a)).sat_end
    · simp only [readClock,Async.bind_apply,Async.get_apply,Async.pure_apply,Async.modify_apply]
      apply sat_get
      apply sat_get
      apply sat_set
      refine sat_persistCurrent_exclusive (a := a) hw rfl rfl rfl ?_ ?_ ?_ ?_
      · exact fun left hallowed => useIntents_misuses hw.misuses hallowed.misuses
      · intro left _ hintents
        have hknown : Known a (ledger a (w.stored a)) current := ⟨_,hintents,hcurrent⟩
        have hupdates := updates_notice current notice broadcast.broadcastStatus w.clock
        have hreplaced := hknown.replace hupdates hintents
        rw [hid] at hreplaced
        exact hreplaced
      · intro hnone
        apply sat_end
        intro hallowed
        have hin := useIntents_misuses hw.misuses hallowed.misuses
        rw [inMemory_iff,hnone] at hin
        cases hin.2
      · exact fun c v hv hsync _ => (resumed_exclusive hv hsync).segment.sat_end

variable {message : Option String} {next : Unit → Code SwapWorld SwapRequest SwapRequest.Reply}

theorem sat_switchEndpoint {hold : Hold} (hcaught : Continues caught) (hw : Segment request start w)
    (hheld : ∀ t v, swapContract.rely ⟨hold,.switchToFallback message⟩ t v →
      Resumed (some ⟨hold,.switchToFallback message⟩) v)
    (hnext : SwapAllowed request start w [⟨hold,.switchToFallback message⟩] → ∀ v,
      swapContract.rely ⟨hold,.switchToFallback message⟩ w v →
        SwapSat (some ⟨hold,.switchToFallback message⟩) v (next ()) v) :
    SwapSat request start (switchEndpointAfterUncertainBroadcast hold message next caught) w := by
  simp only [switchEndpointAfterUncertainBroadcast,Async.bind_apply]
  apply sat_call (c := .switchToFallback message) rfl hw
  intro hallowed t _ r v ht _ hv
  cases r with
  | ok result => exact hnext hallowed v (swapContract_trans _ _ _ _ ht hv)
  | error error => exact hcaught _ _ _ _ (hheld t v hv).segment

theorem sat_switchEndpoint_nothing (hcaught : Continues caught) (hw : Segment request start w)
    (hnext : Continues next) :
    SwapSat request start (switchEndpointAfterUncertainBroadcast .nothing message next caught) w :=
  sat_switchEndpoint hcaught hw (fun _ _ hv => resumed_nothing hv)
    fun _ _ hv => hnext _ _ _ _ (resumed_nothing hv).segment

theorem sat_switchEndpoint_shared (hcaught : Continues caught) (hw : Segment request start w)
    (hselected : selected ∈ w.intents)
    (hnext : ∀ v, SharedRely a w v → Known a (ledger a (v.stored a)) selected →
      SwapSat (some ⟨.shared a,.switchToFallback message⟩) v (next ()) v) :
    SwapSat request start (switchEndpointAfterUncertainBroadcast (.shared a) message next caught)
      (w.useIntents (some a)) := by
  apply sat_switchEndpoint hcaught (hw.useIntents (some a)) fun _ _ hv => resumed_shared hv
  intro hallowed v hv
  have hused : SharedRely a (w.useIntents (some a)) v := hv
  have hrely : SharedRely a w v := ⟨hused.kept,hused.ledger,hused.sync⟩
  have hin := useIntents_misuses hw.misuses hallowed.misuses
  have hsync := (hw.useIntents (some a)).inSync hallowed hin
  apply hnext v hrely
  rw [hrely.ledger]
  exact ⟨w.intents,⟨hw.kept.memory,hsync⟩,hselected⟩

theorem Segment.account (hw : Segment request start w) (hx : x ∈ w.intents) :
    ∃ a, x.accountUuid = some a :=
  Option.isSome_iff_exists.mp (hw.kept.memory.addressed x hx).accountUuid

theorem selectedIntentOrNull_mem (h : w.selectedIntentOrNull = some x) : x ∈ w.intents := by
  rw [SwapWorld.selectedIntentOrNull] at h
  cases hselected : w.selectedIntentId.bind (swapIntentById w.intents) with
  | none =>
    rw [hselected] at h
    exact List.mem_of_mem_head? h
  | some y =>
    rw [hselected] at h
    cases h
    obtain ⟨id,_,hfound⟩ := Option.bind_eq_some_iff.mp hselected
    exact (swapIntentById_mem hfound).1

theorem continues_notice (haccount : selected.accountUuid = some a) : Continues fun _ : Unit =>
      ((match broadcast.notice with
        | none => pure ()
        | some notice => showBroadcastNotice selected broadcast notice : SwapAsync Unit)
          (fun _ => .done) fun _ => .done) := by
  intro request start w _ hw
  cases broadcast.notice with
  | none => exact hw.sat_end
  | some notice => exact sat_showBroadcastNotice hw haccount

theorem sat_submitDepositTransactionForIntent {id : String} {accountUuid : Option String}
    (hw : Segment request start w) :
    SwapSat request start (submitDepositTransactionForIntent id accountUuid broadcast).start w := by
  simp only [Async.start,submitDepositTransactionForIntent,Async.bind_apply,Async.get_apply]
  apply sat_get
  cases hfound : swapIntentById w.intents id with
  | none =>
    dsimp only
    split
    · exact hw.sat_end
    · have hstored : Continues fun _ : Unit => submitDepositTransactionForStoredIntent accountUuid id
          { broadcast with txHash := trim broadcast.txHash }
          (shouldSubmitProviderDepositStatus broadcast.broadcastStatus) none (fun _ => .done)
          fun _ => .done := by
        intro request start w _ hw
        cases accountUuid with
        | none => exact hw.sat_end
        | some a => exact sat_submitDepositTransactionForStoredIntent continues_done hw
      split
      · exact sat_switchEndpoint_nothing continues_done hw hstored
      · exact hstored _ _ _ () hw
  | some selected =>
    obtain ⟨hselected,_⟩ := swapIntentById_mem hfound
    obtain ⟨a,haccount⟩ := hw.account hselected
    dsimp only
    split
    · exact hw.sat_end
    · simp only [Async.bind_apply,Async.modify_apply,haccount]
      apply sat_get
      apply sat_set
      split
      · rename_i hsubmit
        apply sat_switchEndpoint_shared continues_done hw hselected
        intro v hv hknown
        apply sat_submitDepositTransaction (continues_notice haccount) (resumed_shared hv).segment
          haccount
        · exact fun _ => hknown
        · intro h
          rw [Bool.not_eq_true'] at hsubmit
          rw [h] at hsubmit
          cases hsubmit
      · apply sat_submitDepositTransaction (continues_notice haccount) (hw.useIntents (some a))
          haccount
        · exact fun hintents => ⟨_,hintents,hselected⟩
        · exact fun _ => hselected

theorem sat_submitSelectedDepositTransaction (hw : Segment request start w) :
    SwapSat request start submitSelectedDepositTransaction.start w := by
  simp only [Async.start,submitSelectedDepositTransaction,Async.bind_apply,Async.get_apply]
  apply sat_get
  cases hfound : w.selectedIntentOrNull with
  | none => exact hw.sat_end
  | some selected =>
    have hselected := selectedIntentOrNull_mem hfound
    obtain ⟨a,haccount⟩ := hw.account hselected
    dsimp only
    split
    · exact hw.sat_end
    · simp only [Async.bind_apply,Async.modify_apply,haccount]
      apply sat_get
      apply sat_set
      apply sat_submitDepositTransaction continues_done (hw.useIntents (some a)) haccount
      · exact fun hintents => ⟨_,hintents,hselected⟩
      · exact fun _ => hselected

theorem wellKept_leadWith {intents : List SwapIntent} (h : WellKept intents) (hx : x.Addressed) :
    WellKept (leadWith x intents) := by
  constructor
  · rw [leadWith,List.map_cons,List.nodup_cons]
    constructor
    · intro hmem
      obtain ⟨y,hy,hid⟩ := List.mem_map.mp hmem
      have hne := (List.mem_filter.mp hy).2
      simp only [decide_eq_true_eq] at hne
      exact hne hid
    · exact h.ids.sublist (List.filter_sublist.map _)
  · intro y hy
    rcases List.mem_cons.mp hy with rfl | hy
    · exact hx
    · exact h.addressed y (List.mem_filter.mp hy).1

theorem noteIf_misuses {misused : Bool} {misuse : Misuse} (hsuffix : start.misuses <:+ w.misuses)
    (h : (w.noteIf misused misuse).misuses = start.misuses) : misused = false := by
  cases misused with
  | false => rfl
  | true =>
    have hlength := congrArg List.length h
    have hle := hsuffix.length_le
    simp [SwapWorld.noteIf] at hlength
    omega

theorem noteIf_suffix {misused : Bool} {misuse : Misuse} :
    w.misuses <:+ (w.noteIf misused misuse).misuses := by
  simp only [SwapWorld.noteIf]
  split
  · exact List.suffix_cons _ _
  · exact List.suffix_rfl

theorem misuses_eq {u : SwapWorld} (h : start.misuses <:+ w.misuses) (h' : w.misuses <:+ u.misuses)
    (heq : u.misuses = start.misuses) : w.misuses = start.misuses := by
  rw [heq] at h'
  exact (h.eq_of_length_le h'.length_le).symm

theorem Segment.noteReplaced (h : Segment request start w) (intents : List SwapIntent)
    (x : SwapIntent) : Segment request start (w.noteReplaced intents x) :=
  h.quiet ⟨rfl,rfl,rfl,rfl⟩ noteIf_suffix

theorem extends_leadWith {intents : List SwapIntent} {statusError : Option String} {now : Nat}
    (haccount : x.accountUuid = some a) (hx : x.Addressed) (hsuffix : start.misuses <:+ w.misuses)
    (hmisuses : (w.noteReplaced intents (broadcast.checkpoint x statusError now)).misuses =
      start.misuses) :
    Extends (some x.id) (ledger a intents)
      (ledger a (leadWith (broadcast.checkpoint x statusError now) intents)) := by
  have hsame := noteIf_misuses hsuffix hmisuses
  have hsaved : isPersistableIntent (broadcast.checkpoint x statusError now) a = true :=
    isPersistableIntent_iff.mpr ⟨haccount,hx.direction,hx.depositAddress,.inr rfl⟩
  intro old hold
  obtain ⟨y,hy,hysaved,rfl⟩ := mem_ledger.mp hold
  by_cases hid : y.id = (broadcast.checkpoint x statusError now).id
  · refine ⟨_,card_mem_ledger List.mem_cons_self hsaved,?_⟩
    simp only [List.any_eq_false,Bool.and_eq_true,Bool.or_eq_true,decide_eq_true_eq,not_and,not_or,
      ne_eq,not_not] at hsame
    obtain ⟨⟨haddress,hquote⟩,hclaim⟩ := hsame y hy hid
    exact ⟨hid.symm,haddress.symm,hquote.symm,fun _ => hclaim.symm,
      fun _ => .inl (congrArg some hid.symm)⟩
  · refine ⟨y.card,card_mem_ledger (List.mem_cons_of_mem _ ?_) hysaved,.refl _ _⟩
    exact List.mem_filter.mpr ⟨hy,decide_eq_true hid⟩

theorem quiet_clearPending (w : SwapWorld) (id : String) :
    Quiet w (w.clearPendingKeystoneSigningIntent id) := by
  rw [SwapWorld.clearPendingKeystoneSigningIntent]
  split <;> exact ⟨rfl,rfl,rfl,rfl⟩

theorem Segment.clearPending (h : Segment request start w) (id : String) :
    Segment request start (w.clearPendingKeystoneSigningIntent id) := by
  apply h.quiet (quiet_clearPending w id)
  rw [SwapWorld.clearPendingKeystoneSigningIntent]
  split <;> exact List.suffix_rfl

theorem sat_recordKeystoneForStoredIntents {now : Nat} {submitProviderStatus : Bool}
    (hw : Segment request start w) (haccount : x.accountUuid = some a) (hx : x.Addressed) :
    SwapSat request start (recordKeystoneForStoredIntents (broadcast.checkpoint x none now) (some a)
      broadcast submitProviderStatus (fun _ => .done) caught) w := by
  have haddressed := (updates_checkpoint broadcast x none now).addressed hx
  simp only [recordKeystoneForStoredIntents,Async.bind_apply,Async.modify_apply]
  apply sat_get
  apply sat_set
  apply sat_load_exclusive (hw.useStored a)
  intro hallowed loaded v hv hloaded
  have hnot : ¬v.inMemory a = true := by
    have hstored := useStored_misuses hw.misuses hallowed.misuses
    rw [hv.inMemory]
    exact hstored
  have hwv := hv.segment (c := .loadRecords a) fun hin => absurd hin hnot
  have hnoted := hwv.noteReplaced loaded (broadcast.checkpoint x none now)
  apply sat_get
  apply sat_set
  apply sat_save_exclusive (hnoted.ran _ _ (.refl _))
  · intro hallowed'
    refine ⟨wellKept_leadWith hloaded.wellKept haddressed,?_,fun hin => absurd hin hnot⟩
    rw [show (v.noteReplaced loaded (broadcast.checkpoint x none now)).stored = v.stored from rfl,
      ← hloaded.ledger]
    exact extends_leadWith haccount hx hwv.misuses hallowed'.misuses
  · intro c t ht hsync hintents
    have hwt : Segment (some ⟨.exclusive a,c⟩) t t := (resumed_exclusive ht hsync).segment
    have hknown : Known a (ledger a (t.stored a)) (broadcast.checkpoint x none now) :=
      ⟨_,hintents,List.mem_cons_self⟩
    rw [← (quiet_clearPending t x.id).stored] at hknown hintents
    apply sat_get
    apply sat_set
    split
    · exact (hwt.clearPending x.id).sat_end
    · apply sat_tellProvider (hwt.clearPending x.id)
      intro r t' ht'
      cases r with
      | ok snapshot =>
        apply sat_get
        exact sat_saveKnown continues_done ht' hknown hintents rfl
          (alike_depositSnapshot haddressed rfl snapshot _) rfl
          (addressed_depositSnapshot haddressed snapshot _)
      | error message =>
        exact sat_saveKnown continues_done ht' hknown hintents rfl
          (.of_fields rfl rfl rfl rfl rfl rfl rfl rfl) rfl (haddressed.of_fields rfl rfl rfl)

theorem sat_recordKeystoneForCurrentIntents {now : Nat} {submitProviderStatus : Bool}
    (hw : Segment request start w) (haccount : x.accountUuid = some a) (hx : x.Addressed)
    (hactive : w.activeAccountUuid = some a) :
    SwapSat request start (recordKeystoneForCurrentIntents (broadcast.checkpoint x none now)
      broadcast submitProviderStatus (fun _ => .done) caught) w := by
  have haddressed := (updates_checkpoint broadcast x none now).addressed hx
  have haccount' : (broadcast.checkpoint x none now).accountUuid = some a := haccount
  simp only [recordKeystoneForCurrentIntents,useIntents,Async.bind_apply,Async.modify_apply,
    Async.get_apply,Async.pure_apply,haccount']
  apply sat_get
  apply sat_set
  apply sat_get
  apply sat_get
  apply sat_set
  refine sat_persistCurrent_exclusive (a := a) hw rfl rfl rfl ?_ ?_ ?_ ?_
  · intro left hallowed
    apply useIntents_misuses hw.misuses
    apply misuses_eq (hw.useIntents (some a)).misuses _ hallowed.misuses
    exact noteIf_suffix
  · intro left hallowed hintents
    refine ⟨wellKept_leadWith hintents.wellKept haddressed,?_⟩
    rw [← hintents.ledger]
    exact extends_leadWith haccount hx (hw.useIntents (some a)).misuses hallowed.misuses
  · intro hnone
    rw [hactive] at hnone
    cases hnone
  · intro c v hv hsync hintents
    have hwv : Segment (some ⟨.exclusive a,c⟩) v v := (resumed_exclusive hv hsync).segment
    have hknown : Known a (ledger a (v.stored a)) (broadcast.checkpoint x none now) :=
      ⟨_,hintents,List.mem_cons_self⟩
    split
    · exact sat_endDepositSubmission continues_done hwv
    · apply sat_tellProvider hwv
      intro r t ht
      have hwt : Segment (some ⟨.shared a,.submitDepositTransaction x.id broadcast.txHash⟩) t t :=
        (resumed_shared ht).segment
      rw [← ht.ledger] at hknown
      cases r with
      | ok snapshot =>
        apply sat_get
        apply sat_get
        apply sat_set
        refine sat_replaceAndPersist_shared continues_done (.inr rfl)
          (hwt.quiet ⟨rfl,rfl,rfl,rfl⟩ List.suffix_rfl) ht.sync hknown ?_ ?_ ?_
        · exact alike_depositSnapshot haddressed rfl snapshot _
        · rfl
        · exact addressed_depositSnapshot haddressed snapshot _
      | error message => exact sat_endDepositSubmission continues_done hwt

theorem sat_recordKeystoneDepositBroadcast {started : StartedIntent}
    {result : SwapDepositBroadcastResult} (hw : Segment request start w) :
    SwapSat request start (recordKeystoneDepositBroadcast started result).start w := by
  obtain ⟨intent,haddressed⟩ := started
  obtain ⟨a,haccount⟩ := Option.isSome_iff_exists.mp haddressed.accountUuid
  simp only [Async.start,recordKeystoneDepositBroadcast]
  split
  · exact hw.sat_end
  · simp only [Async.bind_apply,Async.get_apply]
    apply sat_get
    cases swapIntentById w.intents intent.id with
    | some existing =>
      simp only [Async.bind_apply,Async.modify_apply]
      apply sat_get
      apply sat_set
      exact sat_submitDepositTransactionForIntent (hw.clearPending intent.id)
    | none =>
      have hrecord (broadcast : DepositBroadcast) (submitProviderStatus : Bool) :
          Continues fun _ : Unit => ((do
            let checkpointed := broadcast.checkpoint intent none (← readClock)
            if !(← Async.get).isAccountActive intent.accountUuid then
              recordKeystoneForStoredIntents checkpointed intent.accountUuid broadcast
                submitProviderStatus
            else recordKeystoneForCurrentIntents checkpointed broadcast submitProviderStatus :
              SwapAsync Unit) (fun _ => .done) fun _ => .done) := by
        intro request start w _ hw
        simp only [readClock,Async.bind_apply,Async.get_apply,Async.pure_apply,haccount]
        apply sat_get
        apply sat_get
        split
        · exact sat_recordKeystoneForStoredIntents hw haccount haddressed
        · rename_i hactive
          simp only [Bool.not_eq_true',Bool.not_eq_false,isAccountActive_some] at hactive
          exact sat_recordKeystoneForCurrentIntents hw haccount haddressed hactive
      dsimp only
      split
      · exact sat_switchEndpoint_nothing continues_done hw (hrecord _ _)
      · exact hrecord _ _ _ _ _ () hw

theorem sat_sendSaved {id : String} {result : SwapDepositBroadcastResult} {c : SwapCall}
    (hkept : w.Kept) (hsync : w.InSync a) (hid : x.id = id)
    (hhash : x.depositTxHash = some result.txHash) (hknown : Known a (ledger a (w.stored a)) x) :
    SwapSat (some ⟨.exclusive a,c⟩) w ((do
      if !result.isCertain then
        switchEndpointAfterUncertainBroadcast (.shared a) result.message
        let intents ← useIntents (some a)
        Async.modify fun w => { w with
          depositSubmitting := false
          intents := replaceSwapIntent intents id x }
      else
        match ← submitProviderDepositTransaction (some a) id result.txHash with
        | .ok snapshot =>
          let broadcast : DepositBroadcast := ⟨result.txHash,none,none⟩
          let updated := broadcast.snapshot x snapshot
            (← readClock)
          if !(← Async.get).isAccountActive (some a) then
            recordDepositSnapshotForStoredIntent (some a) id broadcast snapshot
          else
            Async.modify fun w => { w with depositTxHashText := result.txHash }
            replaceAndPersist .shared none (some a) id updated (some false)
        | .error message =>
          if !(← Async.get).isAccountActive (some a) then
            submitDepositTransactionForStoredIntent (some a) id ⟨result.txHash,none,none⟩ false
              (some message)
          else endDepositSubmission : SwapAsync Unit) (fun _ => .done) fun _ => .done) w := by
  subst hid
  have hw : Segment (some ⟨.exclusive a,c⟩) w w := (resumed_exclusive hkept hsync).segment
  split
  · apply sat_switchEndpoint continues_done hw fun _ _ hv => resumed_shared hv
    intro _ v hv
    have hrely : SharedRely a w v := hv
    have hwv : Segment (some ⟨.shared a,.switchToFallback result.message⟩) v v :=
      (resumed_shared hrely).segment
    apply sat_get
    apply sat_set
    apply sat_get
    apply sat_get
    apply sat_set
    apply sat_end
    intro hallowed
    have hin := useIntents_misuses hwv.misuses hallowed.misuses
    have hkeep : Refreshed a (ledger a (v.stored a))
        (replaceSwapIntent v.intents x.id x) := by
      rw [← hrely.ledger] at hknown
      exact hknown.keep ⟨rfl,fun _ => rfl⟩ rfl hknown.addressed ⟨hrely.kept.memory,hrely.sync hin⟩
    exact hwv.ran_memory rfl rfl hkeep.wellKept hin (.inl ⟨_,rfl,Hold.holds_shared.mpr rfl⟩)
      (.inr hkeep.ledger)
  · apply sat_tellProvider hw
    intro r t ht
    have hwt : Segment (some ⟨.shared a,.submitDepositTransaction x.id result.txHash⟩) t t :=
      (resumed_shared ht).segment
    rw [← ht.ledger] at hknown
    cases r with
    | ok snapshot =>
      apply sat_get
      apply sat_get
      dsimp only
      split
      · exact sat_recordDepositSnapshotForStoredIntent continues_done hwt hknown hhash
      · rename_i hactive
        simp only [Bool.not_eq_true',Bool.not_eq_false,isAccountActive_some] at hactive
        apply sat_get
        apply sat_set
        refine sat_replaceAndPersist_shared continues_done (.inl hactive)
          (hwt.quiet ⟨rfl,rfl,rfl,rfl⟩ List.suffix_rfl) ht.sync hknown ?_ ?_ ?_
        · exact alike_depositSnapshot hknown.addressed hhash snapshot _
        · rfl
        · exact addressed_depositSnapshot hknown.addressed snapshot _
    | error message =>
      apply sat_get
      dsimp only
      split
      · exact sat_submitDepositTransactionForStoredIntent continues_done hwt
      · exact sat_endDepositSubmission continues_done hwt

theorem sat_sendAndSubmitZecDeposit {id : String} (hw : Segment request start w) :
    SwapSat request start (sendAndSubmitZecDeposit a id).start w := by
  simp only [Async.start,sendAndSubmitZecDeposit,Async.bind_apply,Async.modify_apply]
  apply sat_get
  apply sat_set
  refine sat_call (c := .sendZecDeposit) rfl (hw.quiet ⟨rfl,rfl,rfl,rfl⟩ List.suffix_rfl) ?_
  intro _ t _ r v _ _ hv
  have hwv : Segment (some ⟨.nothing,.sendZecDeposit⟩) v v := (resumed_nothing hv).segment
  cases r with
  | error message =>
    apply sat_get
    dsimp only
    split
    · exact sat_endDepositSubmission continues_done hwv
    · exact hwv.sat_end
  | ok result =>
    apply sat_get
    dsimp only
    split
    · exact sat_submitDepositTransactionForStoredIntent continues_done hwv
    · rename_i hactive
      simp only [Bool.not_eq_true',Bool.not_eq_false,isAccountActive_some] at hactive
      simp only [useIntents,Async.bind_apply,Async.modify_apply,Async.get_apply,Async.pure_apply]
      apply sat_get
      apply sat_set
      apply sat_get
      cases hfound : swapIntentById (v.useIntents (some a)).intents id with
      | none =>
        apply sat_get
        apply sat_set
        apply Segment.sat_end
        exact (hwv.useIntents (some a)).quiet ⟨rfl,rfl,rfl,rfl⟩ List.suffix_rfl
      | some intent =>
        obtain ⟨hintent,hid⟩ := swapIntentById_mem hfound
        apply sat_get
        apply sat_get
        apply sat_set
        subst hid
        refine sat_replaceAndPersist_exclusive
          ((hwv.useIntents (some a)).quiet ⟨rfl,rfl,rfl,rfl⟩ List.suffix_rfl) hactive ?_
          (updates_checkpoint result.toBroadcast intent none _) ?_
        · exact fun hintents => ⟨_,hintents,hintent⟩
        · intro c u hu hsync hintents
          exact sat_sendSaved hu hsync rfl rfl ⟨_,hintents,mem_replace hintent rfl⟩

theorem sat_endStart (hw : Segment request start w) :
    SwapSat request start (endStart (fun _ => .done) caught) w := by
  simp only [endStart,Async.modify_apply]
  apply sat_get
  apply sat_set
  apply Segment.sat_end
  exact hw.quiet ⟨rfl,rfl,rfl,rfl⟩ List.suffix_rfl

theorem started_misuses {intent : SwapIntent} (hsuffix : start.misuses <:+ w.misuses)
    (h : ((w.useIntents (some a)).started intent).misuses = start.misuses) :
    w.inMemory a = true ∧ intent.id ∉ w.intents.map (·.id) := by
  have hused := hsuffix.trans (useIntents_suffix (some a))
  have hnoted : (w.useIntents (some a)).misuses <:+
      ((w.useIntents (some a)).started intent).misuses := noteIf_suffix
  refine ⟨useIntents_misuses hsuffix (misuses_eq hused hnoted h),?_⟩
  intro hmem
  obtain ⟨y,hy,hid⟩ := List.mem_map.mp hmem
  have hfalse := noteIf_misuses hused h
  simp only [List.any_eq_false,decide_eq_true_eq] at hfalse
  exact hfalse y hy hid

theorem sat_keepStarted {quote : SwapQuote} {isHardware : Bool} {intent : SwapIntent}
    (hw : Segment request start w) (hintent : intent.Addressed) :
    SwapSat request start (keepStarted a quote isHardware intent (fun _ => .done) fun _ => .done)
      w := by
  simp only [keepStarted]
  split
  · apply sat_get
    apply sat_set
    apply Segment.sat_end
    exact hw.quiet ⟨rfl,rfl,rfl,rfl⟩ List.suffix_rfl
  · simp only [Async.bind_apply,Async.modify_apply]
    apply sat_get
    apply sat_set
    apply sat_get
    apply sat_set
    refine sat_persistCurrent_exclusive (a := a) hw rfl rfl rfl ?_ ?_ ?_ ?_
    · exact fun left hallowed => (started_misuses hw.misuses hallowed.misuses).1
    · intro left hallowed hintents
      constructor
      · constructor
        · exact List.nodup_cons.mpr ⟨(started_misuses hw.misuses hallowed.misuses).2,hintents.wellKept.ids⟩
        · intro y hy
          rcases List.mem_cons.mp hy with rfl | hy
          · exact hintent
          · exact hintents.wellKept.addressed y hy
      · rw [← hintents.ledger]
        apply extends_of_subset
        intro old hold
        obtain ⟨y,hy,hsaved,rfl⟩ := mem_ledger.mp hold
        exact card_mem_ledger (List.mem_cons_of_mem _ hy) hsaved
    · intro hnone
      have hnot {u : SwapWorld} {left : List SwapRequest} (hmisuses : u.misuses =
          ((w.useIntents (some a)).started intent).misuses) : ¬SwapAllowed request start u left := by
        intro hallowed
        have hin := (started_misuses hw.misuses (hmisuses.symm.trans hallowed.misuses)).1
        rw [inMemory_iff,hnone] at hin
        cases hin.2
      split
      · apply sat_fork_last
        apply sat_get
        apply sat_set
        exact sat_wait (p := ⟨_,_⟩) (fun h => absurd h (hnot rfl)) fun h => absurd h (hnot rfl)
      · exact CoppiceWallet.Swap.sat_end fun h => absurd h (hnot rfl)
    · intro c v hv hsync _
      have hwv : Segment (some ⟨.exclusive a,c⟩) v v := (resumed_exclusive hv hsync).segment
      split
      · exact sat_fork_last (sat_sendAndSubmitZecDeposit hwv)
      · exact hwv.sat_end

theorem addressed_started (snapshot : SwapIntentSnapshot) (quote : SwapQuote) (now : Nat) :
    (swapIntentFromSnapshot snapshot quote a now).Addressed :=
  ⟨rfl,rfl,rfl⟩

theorem continues_start (a : String) (quote : SwapQuote) (isHardware : Bool) :
    Continues fun fee : Except String Unit => ((match fee with
      | .error _ => endStart
      | .ok () => do
        match ← call .nothing .startSwap with
        | .error _ => endStart
        | .ok snapshot =>
          keepStarted a quote isHardware
            (swapIntentFromSnapshot snapshot quote a (← readClock)) : SwapAsync Unit)
              (fun _ => .done) fun _ => .done) := by
  intro request start w fee hw
  cases fee with
  | error message => exact sat_endStart hw
  | ok _ =>
    refine sat_call (c := .startSwap) rfl hw ?_
    intro _ t _ r v _ _ hv
    have hwv : Segment (some ⟨.nothing,.startSwap⟩) v v := (resumed_nothing hv).segment
    cases r with
    | error message => exact sat_endStart hwv
    | ok snapshot =>
      apply sat_get
      exact sat_keepStarted hwv (addressed_started snapshot quote _)

theorem sat_startIntent {quote : SwapQuote} {reviewAccountUuid : Option String} {isHardware : Bool}
    (hw : Segment request start w) :
    SwapSat request start (startIntent quote reviewAccountUuid isHardware).start w := by
  simp only [Async.start,startIntent,Async.bind_apply,Async.get_apply]
  apply sat_get
  split
  · exact hw.sat_end
  · split
    · exact sat_endStart hw
    · cases w.activeAccountUuid with
      | none => exact sat_endStart hw
      | some a =>
        have hstart := continues_start a quote isHardware
        have hsubmitting : Segment request start { w with startSubmitting := true } :=
          hw.quiet ⟨rfl,rfl,rfl,rfl⟩ List.suffix_rfl
        simp only [Async.bind_apply,Async.modify_apply]
        apply sat_get
        apply sat_set
        split
        · refine sat_call (c := .estimateZecDepositFee) rfl hsubmitting ?_
          intro _ t _ r v _ _ hv
          exact hstart _ _ _ r (resumed_nothing hv).segment
        · exact hstart _ _ _ (.ok ()) hsubmitting

theorem sat_markSelectedDepositClaimed (hw : Segment request start w) :
    SwapSat request start markSelectedDepositClaimed.start w := by
  simp only [Async.start,markSelectedDepositClaimed,Async.bind_apply,Async.get_apply]
  apply sat_get
  cases hfound : w.selectedIntentOrNull with
  | none => exact hw.sat_end
  | some selected =>
    have hselected := selectedIntentOrNull_mem hfound
    obtain ⟨a,haccount⟩ := hw.account hselected
    dsimp only
    split
    · exact hw.sat_end
    · rename_i hclaimed
      simp only [Bool.or_eq_true,not_or] at hclaimed
      simp only [readClock,useIntents,Async.bind_apply,Async.modify_apply,Async.get_apply,
        Async.pure_apply,haccount]
      apply sat_get
      apply sat_get
      apply sat_set
      apply sat_get
      apply sat_get
      apply sat_set
      refine sat_persistCurrent_exclusive (a := a) hw rfl rfl rfl ?_ ?_ ?_ ?_
      · exact fun left hallowed => useIntents_misuses hw.misuses hallowed.misuses
      · intro left _ hintents
        have hknown : Known a (ledger a (w.stored a)) selected := ⟨_,hintents,hselected⟩
        have hupdates := updates_claim hclaimed.1 w.clock
        rw [haccount] at hupdates
        exact hknown.replace hupdates hintents
      · intro hnone
        apply CoppiceWallet.Swap.sat_end
        intro hallowed
        have hin := useIntents_misuses hw.misuses hallowed.misuses
        rw [inMemory_iff,hnone] at hin
        cases hin.2
      · exact fun c v hv hsync _ => (resumed_exclusive hv hsync).segment.sat_end

theorem sat_body (input : SwapInput) (hkept : w.Kept) : SwapSat none w input.body.start w := by
  have hw : Segment none w w := (resumed_none hkept).segment
  cases input with
  | tick milliseconds =>
    apply sat_get
    apply sat_set
    apply Segment.sat_end
    exact hw.quiet ⟨rfl,rfl,rfl,rfl⟩ List.suffix_rfl
  | switchAccount next => exact sat_switchAccount hkept
  | refreshOpenActivities accountUuid force => exact sat_refreshOpenActivities hw
  | refreshOpenIntentStatuses => exact sat_refreshOpenIntentStatuses hw
  | refreshSelectedIntentStatus => exact sat_refreshSelectedIntentStatus hw
  | selectIntent intentId =>
    apply sat_get
    apply sat_set
    apply Segment.sat_end
    dsimp only
    split
    · exact hw
    · exact hw.quiet ⟨rfl,rfl,rfl,rfl⟩ List.suffix_rfl
  | updateDepositTxHash text =>
    apply sat_get
    apply sat_set
    apply Segment.sat_end
    exact hw.quiet ⟨rfl,rfl,rfl,rfl⟩ List.suffix_rfl
  | startIntent quote reviewAccountUuid isHardware => exact sat_startIntent hw
  | submitSelectedDepositTransaction => exact sat_submitSelectedDepositTransaction hw
  | submitDepositTransactionForIntent intentId accountUuid broadcast =>
    exact sat_submitDepositTransactionForIntent hw
  | recordKeystoneDepositBroadcast started result => exact sat_recordKeystoneDepositBroadcast hw
  | markSelectedDepositClaimed => exact sat_markSelectedDepositClaimed hw

end CoppiceWallet.Swap
