import CoppiceWallet.Swap.Refreshes

/-! # Checkpoints keep the deposits -/

namespace CoppiceWallet.Swap

open CoppiceWallet.Lib

/-- The same swap with another record of its deposit. -/
structure Updates (checkpoint : Option String) (x y : SwapIntent) : Prop where
  id : y.id = x.id
  accountUuid : y.accountUuid = x.accountUuid
  direction : y.direction = x.direction
  depositAddress : y.depositAddress = x.depositAddress
  providerQuoteId : y.providerQuoteId = x.providerQuoteId
  depositTxHash : x.depositTxHash.isSome → y.depositTxHash.isSome
  depositClaimedAt : x.depositClaimedAt.isSome → y.depositClaimedAt = x.depositClaimedAt
  deposit : checkpoint = some x.id ∨
    y.depositTxHash = x.depositTxHash ∧ y.broadcastStatus = x.broadcastStatus

variable {request : Option SwapRequest} {start w : SwapWorld} {a : String} {α : Type}
  {caught : String → Code SwapWorld SwapRequest SwapRequest.Reply} {x y u : SwapIntent}
  {checkpoint : Option String} {v : List DepositCard}

theorem isPersistableIntent_iff : isPersistableIntent x a = true ↔
    x.accountUuid = some a ∧ x.direction.isSome = true ∧ x.depositAddress.isSome = true ∧
      (x.providerQuoteId.isSome = true ∨ x.depositTxHash.isSome = true) := by
  simp [isPersistableIntent,and_assoc]

theorem Updates.addressed (h : Updates checkpoint x y) (hx : x.Addressed) : y.Addressed :=
  hx.of_fields h.depositAddress h.accountUuid h.direction

theorem Updates.supersedes (h : Updates checkpoint y u) (hxy : Alike a x y)
    (hx : isPersistableIntent x a = true) :
    isPersistableIntent u a = true ∧ Supersedes checkpoint x.card u.card := by
  have hy := hxy.1.trans hx
  have hcard := hxy.2 hx
  rw [isPersistableIntent_iff] at hy
  constructor
  · rw [isPersistableIntent_iff,h.accountUuid,h.direction,h.depositAddress,h.providerQuoteId]
    exact ⟨hy.1,hy.2.1,hy.2.2.1,hy.2.2.2.imp_right h.depositTxHash⟩
  · rw [← hcard]
    exact ⟨h.id,h.depositAddress,h.providerQuoteId,h.depositClaimedAt,fun _ => h.deposit⟩

theorem updates_checkpoint (broadcast : DepositBroadcast) (x : SwapIntent)
    (statusError : Option String) (now : Nat) :
    Updates (some x.id) x (broadcast.checkpoint x statusError now) where
  id := rfl
  accountUuid := rfl
  direction := rfl
  depositAddress := rfl
  providerQuoteId := rfl
  depositTxHash _ := rfl
  depositClaimedAt _ := rfl
  deposit := .inl rfl

theorem updates_notice (x : SwapIntent) (notice : String) (broadcastStatus : Option String)
    (now : Nat) : Updates (some x.id) x (swapIntentWithBroadcastNotice x notice broadcastStatus now)
    where
  id := rfl
  accountUuid := rfl
  direction := rfl
  depositAddress := rfl
  providerQuoteId := rfl
  depositTxHash h := h
  depositClaimedAt _ := rfl
  deposit := .inl rfl

theorem updates_claim (h : ¬x.depositClaimedAt.isSome = true) (now : Nat) :
    Updates none x { x with depositClaimedAt := some now } where
  id := rfl
  accountUuid := rfl
  direction := rfl
  depositAddress := rfl
  providerQuoteId := rfl
  depositTxHash h := h
  depositClaimedAt hx := absurd hx h
  deposit := .inr ⟨rfl,rfl⟩

variable {broadcast : DepositBroadcast}

theorem address_depositSnapshot (haddress : x.Addressed) (snapshot : SwapIntentSnapshot)
    (now : Nat) : (broadcast.snapshot x snapshot now).depositAddress = x.depositAddress :=
  address_updateSwapIntentFromSnapshot haddress snapshot now none now

theorem alike_depositSnapshot (haddress : x.Addressed)
    (hhash : x.depositTxHash = some broadcast.txHash) (snapshot : SwapIntentSnapshot) (now : Nat) :
    Alike a x (broadcast.snapshot x snapshot now) :=
  Alike.of_fields rfl rfl rfl (address_depositSnapshot haddress snapshot now) rfl hhash.symm rfl rfl

theorem addressed_depositSnapshot (haddress : x.Addressed) (snapshot : SwapIntentSnapshot)
    (now : Nat) : (broadcast.snapshot x snapshot now).Addressed :=
  haddress.of_fields (address_depositSnapshot haddress snapshot now) rfl rfl

theorem Alike.trans (h : Alike a x y) (h' : Alike a y u) : Alike a x u :=
  ⟨h'.1.trans h.1,fun hx => (h'.2 (h.1.trans hx)).trans (h.2 hx)⟩

/-- The intent is of a list with this ledger. -/
def Known (a : String) (v : List DepositCard) (x : SwapIntent) : Prop :=
  ∃ intents, Refreshed a v intents ∧ x ∈ intents

variable {intents : List SwapIntent}

theorem Known.alike (h : Known a v x) (hintents : Refreshed a v intents) (hy : y ∈ intents)
    (hid : y.id = x.id) : Alike a y x := by
  obtain ⟨others,hothers,hx⟩ := h
  exact alike_of_ledger hintents.wellKept hothers.wellKept (hothers.ledger.trans
    hintents.ledger.symm) hy hx hid.symm

theorem Known.addressed (h : Known a v x) : x.Addressed := by
  obtain ⟨intents,hintents,hx⟩ := h
  exact hintents.wellKept.addressed x hx

theorem Known.replace (h : Known a v x) (hu : Updates checkpoint x u)
    (hintents : Refreshed a v intents) : WellKept (replaceSwapIntent intents x.id u) ∧
      Extends checkpoint v (ledger a (replaceSwapIntent intents x.id u)) := by
  refine ⟨hintents.wellKept.replace hu.id (hu.addressed h.addressed),?_⟩
  rw [← hintents.ledger]
  apply extends_replace
  intro y hy hid hsaved
  exact hu.supersedes (h.alike hintents hy hid) hsaved

theorem Known.keep (h : Known a v x) (hu : Alike a x u) (hid : u.id = x.id) (haddress : u.Addressed)
    (hintents : Refreshed a v intents) : Refreshed a v (replaceSwapIntent intents x.id u) :=
  hintents.replace (fun _ hy hyid => (h.alike hintents hy hyid).trans hu) hid haddress

/-- The rest of a function keeps the contract from wherever it is reached. -/
def Continues (next : α → Code SwapWorld SwapRequest SwapRequest.Reply) : Prop :=
  ∀ request start w r, Segment request start w → SwapSat request start (next r) w

theorem continues_done :
    Continues (fun _ : α => (.done : Code SwapWorld SwapRequest SwapRequest.Reply)) :=
  fun _ _ _ _ hw => hw.sat_end

theorem useIntents_suffix (accountUuid : Option String) :
    w.misuses <:+ (w.useIntents accountUuid).misuses := by
  simp only [SwapWorld.useIntents,SwapWorld.noteIf]
  split
  · exact List.suffix_cons _ _
  · exact List.suffix_rfl

theorem Segment.useIntents (h : Segment request start w) (accountUuid : Option String) :
    Segment request start (w.useIntents accountUuid) :=
  h.quiet ⟨rfl,rfl,rfl,rfl⟩ (useIntents_suffix accountUuid)

theorem useStored_suffix : w.misuses <:+ (w.useStored a).misuses := by
  simp only [SwapWorld.useStored,SwapWorld.noteIf]
  split
  · exact List.suffix_cons _ _
  · exact List.suffix_rfl

theorem Segment.useStored (h : Segment request start w) (a : String) :
    Segment request start (w.useStored a) :=
  h.quiet ⟨rfl,rfl,rfl,rfl⟩ useStored_suffix

theorem useStored_misuses (hsuffix : start.misuses <:+ w.misuses)
    (h : (w.useStored a).misuses = start.misuses) : ¬w.inMemory a = true := by
  intro hin
  have hlength := congrArg List.length h
  have hle := hsuffix.length_le
  simp [SwapWorld.useStored,SwapWorld.noteIf,hin] at hlength
  omega

theorem ExclusiveRely.segment {c : SwapCall} {v : SwapWorld} (h : ExclusiveRely a w v)
    (hsync : v.InSync a) : Segment (some ⟨.exclusive a,c⟩) v v :=
  (resumed_exclusive h.kept hsync).segment

theorem sat_load_exclusive {next : List SwapIntent → Code SwapWorld SwapRequest SwapRequest.Reply}
    (hw : Segment request start w)
    (hnext : SwapAllowed request start w [⟨.exclusive a,.loadRecords a⟩] → ∀ loaded v,
      ExclusiveRely a w v → Loaded a (ledger a (v.stored a)) loaded →
        SwapSat (some ⟨.exclusive a,.loadRecords a⟩) v (next loaded) v) :
    SwapSat request start (loadIntents .exclusive (some a) next caught) w := by
  apply sat_call (c := .loadRecords a) rfl hw
  intro hallowed t answer r v ht hserve hv
  have hr' : r = t.stored a := by
    cases answer <;> cases hserve
    rfl
  subst hr'
  have hv : ExclusiveRely a t v := hv
  apply hnext hallowed _ v (ExclusiveRely.trans ht hv)
  rw [hv.stored]
  exact loaded_stored (swapContract_kept ht) _

variable {next : Unit → Code SwapWorld SwapRequest SwapRequest.Reply}

/-- A save that may change the ledger. The list in memory is saved, or another list of an account
that is not in memory. -/
theorem sat_save_exclusive (hran : SwapAllowed request start w
      [⟨.exclusive a,.saveRecords a (savedRecords a intents) checkpoint⟩] →
        SwapRan request start w [⟨.exclusive a,.saveRecords a (savedRecords a intents) checkpoint⟩])
    (hintents : SwapAllowed request start w
      [⟨.exclusive a,.saveRecords a (savedRecords a intents) checkpoint⟩] →
        WellKept intents ∧ Extends checkpoint (ledger a (w.stored a)) (ledger a intents) ∧
          (w.inMemory a = true → w.intents = intents))
    (hnext : ∀ c v, v.Kept → v.InSync a → Refreshed a (ledger a (v.stored a)) intents →
      SwapSat (some ⟨.exclusive a,c⟩) v (next ()) v) :
    SwapSat request start (saveIntents .exclusive checkpoint intents (some a) next caught) w := by
  refine sat_wait (p := ⟨⟨.exclusive a,.saveRecords a (savedRecords a intents) checkpoint⟩,next⟩)
    hran fun hallowed => ?_
  obtain ⟨hwell,hextends,hmemory⟩ := hintents hallowed
  apply keeps_of_sat
  intro t ht answer r u hserve
  cases serve_save hserve
  have ht : ExclusiveRely a w t := ht
  constructor
  · apply served_save ht.kept hwell (by simp) _ (.inl rfl)
    simpa [SwapCall.checkpoint,ht.stored] using hextends
  · intro v hv
    have hv : ExclusiveRely a (t.save a (savedRecords a intents)) v := hv
    have hstored : ledger a (v.stored a) = ledger a intents := by
      rw [hv.stored,stored_save,ledger_savedRecords]
    refine hnext _ v hv.kept ?_ ⟨hwell,hstored.symm⟩
    intro hin
    have hint : t.inMemory a = true := hv.inMemory ▸ hin
    have hinw : w.inMemory a = true := ht.inMemory ▸ hint
    rw [hv.intents hint,hstored]
    exact congrArg _ ((ht.intents hinw).trans (hmemory hinw))

theorem sat_tellProvider {hash : String}
    {next : Except String SwapIntentSnapshot → Code SwapWorld SwapRequest SwapRequest.Reply}
    {id : String} (hw : Segment request start w)
    (hnext : ∀ r u, SharedRely a w u →
      SwapSat (some ⟨.shared a,.submitDepositTransaction id hash⟩) u (next r) u) :
    SwapSat request start (submitProviderDepositTransaction (some a) id hash next caught) w :=
  sat_call_shared (c := .submitDepositTransaction id hash) rfl hw hnext

theorem sat_saveKnown {id : String} (hnext : Continues next) {c : SwapCall} {t : SwapWorld}
    (ht : SharedRely a w t) (hknown : Known a (ledger a (w.stored a)) x)
    (hintents : Refreshed a (ledger a (w.stored a)) intents) (hid : x.id = id) (hu : Alike a x u)
    (huid : u.id = x.id) (haddress : u.Addressed) :
    SwapSat (some ⟨.shared a,c⟩) t
      (persistIntentsForAccount .shared none (some a) (replaceSwapIntent intents id u) next caught)
        t := by
  subst hid
  apply sat_save_shared
  · intro _
    rw [ht.ledger]
    exact hknown.keep hu huid haddress hintents
  · exact (resumed_shared ht).segment.ran t _ (.refl t)
  · exact fun c v hv => hnext _ _ _ _ (resumed_shared hv).segment

theorem sat_submitDepositTransactionForStoredIntent {id : String} {submitProviderStatus : Bool}
    {statusError : Option String} (hnext : Continues next) (hw : Segment request start w) :
    SwapSat request start (submitDepositTransactionForStoredIntent (some a) id broadcast
      submitProviderStatus statusError next caught) w := by
  simp only [submitDepositTransactionForStoredIntent,Async.bind_apply,Async.modify_apply]
  apply sat_get
  apply sat_set
  apply sat_load_exclusive (hw.useStored a)
  intro hallowed loaded v hv hloaded
  have hnot : ¬v.inMemory a = true := by
    have hstored := useStored_misuses hw.misuses hallowed.misuses
    rw [hv.inMemory]
    exact hstored
  have hwv := hv.segment (c := .loadRecords a) fun hin => absurd hin hnot
  cases hfound : swapIntentById loaded id with
  | none => exact hnext _ _ _ _ hwv
  | some x =>
    obtain ⟨hx,hid⟩ := swapIntentById_mem hfound
    have hknown : Known a (ledger a (v.stored a)) x := ⟨loaded,hloaded.toRefreshed,hx⟩
    simp only [readClock,Async.bind_apply,Async.get_apply,Async.pure_apply]
    apply sat_get
    have hupdates := updates_checkpoint broadcast x statusError v.clock
    have hreplaced := hknown.replace hupdates hloaded.toRefreshed
    rw [hid] at hreplaced hupdates
    apply sat_save_exclusive (hwv.ran v _ (.refl v))
    · exact fun _ => ⟨hreplaced.1,hreplaced.2,fun hin => absurd hin hnot⟩
    · intro c t ht hsync hintents
      have hwt : Segment (some ⟨.exclusive a,c⟩) t t := (resumed_exclusive ht hsync).segment
      have hmem := mem_replace (u := broadcast.checkpoint x statusError v.clock) hx hid
      have hcheckpointed : Known a (ledger a (t.stored a))
          (broadcast.checkpoint x statusError v.clock) := ⟨_,hintents,hmem⟩
      split
      · exact hnext _ _ _ _ hwt
      · apply sat_tellProvider hwt
        intro r t' ht'
        cases r with
        | ok snapshot =>
          apply sat_get
          exact sat_saveKnown hnext ht' hcheckpointed hintents hid
            (alike_depositSnapshot hcheckpointed.addressed rfl snapshot _) rfl
            (addressed_depositSnapshot hcheckpointed.addressed snapshot _)
        | error message =>
          exact sat_saveKnown hnext ht' hcheckpointed hintents hid
            (.of_fields rfl rfl rfl rfl rfl rfl rfl rfl) rfl
            (hcheckpointed.addressed.of_fields rfl rfl rfl)

theorem sat_recordDepositSnapshotForStoredIntent {snapshot : SwapIntentSnapshot}
    (hnext : Continues next) (hw : Segment request start w)
    (hknown : Known a (ledger a (w.stored a)) x) (hhash : x.depositTxHash = some broadcast.txHash) :
    SwapSat request start (recordDepositSnapshotForStoredIntent (some a) x.id broadcast snapshot next
      caught) w := by
  simp only [recordDepositSnapshotForStoredIntent,Async.bind_apply]
  apply sat_loadIntents hw
  intro loaded v hv hloaded
  cases hfound : swapIntentById loaded x.id with
  | none => exact hnext _ _ _ _ (resumed_shared hv).segment
  | some y =>
    obtain ⟨hy,hid⟩ := swapIntentById_mem hfound
    have halike := hknown.alike hloaded.toRefreshed hy hid
    have hhash' : y.depositTxHash = some broadcast.txHash := by
      have hcard := halike.2 (hloaded.saved y hy)
      exact (congrArg DepositCard.depositTxHash hcard).symm.trans hhash
    have hknown' : Known a (ledger a (w.stored a)) y := ⟨loaded,hloaded.toRefreshed,hy⟩
    apply sat_get
    exact sat_saveKnown hnext hv hknown' hloaded.toRefreshed hid
      (alike_depositSnapshot hknown'.addressed hhash' snapshot _) rfl
      (addressed_depositSnapshot hknown'.addressed snapshot _)

theorem sat_persistCurrent_exclusive {w' : SwapWorld}
    (hw : Segment request start w) (hstored : w'.stored = w.stored)
    (hactive : w'.activeAccountUuid = w.activeAccountUuid) (hloadedFor : w'.loadedFor = w.loadedFor)
    (hin : ∀ left, SwapAllowed request start w' left → w.inMemory a = true)
    (hchange : ∀ left, SwapAllowed request start w' left →
      Refreshed a (ledger a (w.stored a)) w.intents →
        WellKept w'.intents ∧ Extends checkpoint (ledger a (w.stored a)) (ledger a w'.intents))
    (hnone : w.activeAccountUuid = none → SwapSat request start (next ()) w')
    (hnext : ∀ c v, v.Kept → v.InSync a → Refreshed a (ledger a (v.stored a)) w'.intents →
      SwapSat (some ⟨.exclusive a,c⟩) v (next ()) v) :
    SwapSat request start (persistCurrentIntents .exclusive checkpoint next caught) w' := by
  simp only [persistCurrentIntents,persistIntentsForAccount,Async.bind_apply,Async.get_apply]
  apply sat_get
  rw [hactive]
  cases hcurrent : w.activeAccountUuid with
  | none => exact hnone hcurrent
  | some b =>
    by_cases hba : b = a
    · subst hba
      have hmemory : w'.inMemory b = w.inMemory b := by
        simp only [SwapWorld.inMemory,hloadedFor,hactive]
      have hheld (checkpoint : Option String) : SwapRequest.Held request
          [⟨.exclusive b,.saveRecords b (savedRecords b w'.intents) checkpoint⟩] b :=
        .inr ⟨_,List.mem_singleton_self _,Hold.holds_exclusive.mpr rfl⟩
      have hsync (hallowed : SwapAllowed request start w'
          [⟨.exclusive b,.saveRecords b (savedRecords b w'.intents) checkpoint⟩]) :
          Refreshed b (ledger b (w.stored b)) w.intents :=
        ⟨hw.kept.memory,hw.sync _ _ b hallowed (hheld _) (hin _ hallowed)⟩
      apply sat_save_exclusive _ _ hnext
      · intro hallowed
        have hwell := (hchange _ hallowed (hsync hallowed)).1
        exact hw.ran_memory hstored hactive hwell (hmemory.trans (hin _ hallowed)) (hheld _)
          (.inl ⟨_,List.mem_singleton_self _,rfl⟩)
      · intro hallowed
        obtain ⟨hwell,hextends⟩ := hchange _ hallowed (hsync hallowed)
        rw [hstored]
        exact ⟨hwell,hextends,fun _ => rfl⟩
    · have hnot (left : List SwapRequest) : ¬SwapAllowed request start w' left := by
        intro hallowed
        have hb := (inMemory_iff.mp (hin left hallowed)).2
        rw [hcurrent] at hb
        exact hba (Option.some.inj hb)
      exact sat_wait (p := ⟨_,_⟩) (fun h => absurd h (hnot _)) fun h => absurd h (hnot _)

theorem sat_replaceAndPersist_shared {c : SwapCall} {t : SwapWorld} {depositSubmitting : Option Bool}
    (hnext : Continues next) (hend : w.activeAccountUuid = some a ∨ next () = .done)
    (hw : Segment (some ⟨.shared a,c⟩) t w) (hsync : w.InSync a)
    (hknown : Known a (ledger a (w.stored a)) x) (hu : Alike a x u) (hid : u.id = x.id)
    (haddress : u.Addressed) :
    SwapSat (some ⟨.shared a,c⟩) t
      (replaceAndPersist .shared none (some a) x.id u depositSubmitting next caught) w := by
  simp only [replaceAndPersist,useIntents,persistCurrentIntents,persistIntentsForAccount,
    Async.bind_apply,Async.modify_apply,Async.get_apply,Async.pure_apply]
  apply sat_get
  apply sat_set
  apply sat_get
  apply sat_get
  apply sat_set
  apply sat_get
  have hheld (left : List SwapRequest) : SwapRequest.Held (some ⟨.shared a,c⟩) left a :=
    .inl ⟨_,rfl,Hold.holds_shared.mpr rfl⟩
  have hkeep (hin : w.inMemory a = true) :
      Refreshed a (ledger a (w.stored a)) (replaceSwapIntent w.intents x.id u) :=
    hknown.keep hu hid haddress ⟨hw.kept.memory,hsync hin⟩
  show SwapSat _ _ (saveIntents .shared none _ w.activeAccountUuid next caught) _
  cases hactive : w.activeAccountUuid with
  | none =>
    have hdone : next () = .done := by
      rcases hend with hsome | hdone
      · rw [hactive] at hsome
        cases hsome
      · exact hdone
    show SwapSat _ _ (next ()) _
    rw [hdone]
    apply sat_end
    intro hallowed
    have hin := useIntents_misuses hw.misuses hallowed.misuses
    have hsome := (inMemory_iff.mp hin).2
    rw [hactive] at hsome
    cases hsome
  | some b =>
    by_cases hba : b = a
    · subst hba
      apply sat_save_shared
      · intro hallowed
        exact hkeep (useIntents_misuses hw.misuses hallowed.misuses)
      · intro hallowed
        have hin := useIntents_misuses hw.misuses hallowed.misuses
        have hkept := hkeep hin
        exact hw.ran_memory rfl rfl hkept.wellKept hin (hheld _) (.inr hkept.ledger)
      · exact fun c v hv => hnext _ _ _ _ (resumed_shared hv).segment
    · have hnot {w' : SwapWorld} {left : List SwapRequest} (hmisuses : w'.misuses =
          (w.useIntents (some a)).misuses) : ¬SwapAllowed (some ⟨.shared a,c⟩) t w' left := by
        intro hallowed
        have hin := useIntents_misuses hw.misuses (hmisuses.symm.trans hallowed.misuses)
        have hsome := (inMemory_iff.mp hin).2
        rw [hactive] at hsome
        exact hba (Option.some.inj hsome)
      exact sat_wait (p := ⟨_,_⟩) (fun h => absurd h (hnot rfl)) fun h => absurd h (hnot rfl)

theorem sat_replaceAndPersist_exclusive {depositSubmitting : Option Bool}
    (hw : Segment request start w) (hactive : w.activeAccountUuid = some a)
    (hknown : Refreshed a (ledger a (w.stored a)) w.intents → Known a (ledger a (w.stored a)) x)
    (hu : Updates checkpoint x u)
    (hnext : ∀ c v, v.Kept → v.InSync a →
      Refreshed a (ledger a (v.stored a)) (replaceSwapIntent w.intents x.id u) →
        SwapSat (some ⟨.exclusive a,c⟩) v (next ()) v) :
    SwapSat request start
      (replaceAndPersist .exclusive checkpoint (some a) x.id u depositSubmitting next caught) w := by
  simp only [replaceAndPersist,useIntents,Async.bind_apply,Async.modify_apply,Async.get_apply,
    Async.pure_apply]
  apply sat_get
  apply sat_set
  apply sat_get
  apply sat_get
  apply sat_set
  refine sat_persistCurrent_exclusive hw rfl rfl rfl ?_ ?_ ?_ hnext
  · exact fun left hallowed => useIntents_misuses hw.misuses hallowed.misuses
  · exact fun left _ hintents => (hknown hintents).replace hu hintents
  · intro hnone
    rw [hactive] at hnone
    cases hnone

theorem sat_endDepositSubmission (hnext : Continues next) (hw : Segment request start w) :
    SwapSat request start (endDepositSubmission next caught) w := by
  simp only [endDepositSubmission,Async.modify_apply]
  apply sat_get
  apply sat_set
  apply hnext
  exact hw.quiet ⟨rfl,rfl,rfl,rfl⟩ List.suffix_rfl

theorem quiet_showDepositTxHash (w : SwapWorld) (id hash : String) :
    Quiet w (if w.selectedIntentId = some id then { w with depositTxHashText := hash } else w) := by
  split <;> exact ⟨rfl,rfl,rfl,rfl⟩

theorem sat_showDepositTxHash {id hash : String}
    (hnext : ∀ w', Quiet w w' → Segment request start w' → SwapSat request start (next ()) w')
    (hw : Segment request start w) :
    SwapSat request start (showDepositTxHash id hash next caught) w := by
  simp only [showDepositTxHash,Async.modify_apply]
  apply sat_get
  apply sat_set
  have hquiet := quiet_showDepositTxHash w id hash
  apply hnext _ hquiet
  apply hw.quiet hquiet
  split <;> exact List.suffix_rfl

theorem sat_submitDepositTransaction {selected : SwapIntent} {submitProviderStatus : Bool}
    (hnext : Continues next) (hw : Segment request start w)
    (haccount : selected.accountUuid = some a)
    (hknown : Refreshed a (ledger a (w.stored a)) w.intents →
      Known a (ledger a (w.stored a)) selected)
    (hmem : submitProviderStatus = true → selected ∈ w.intents) :
    SwapSat request start
      (submitDepositTransaction selected broadcast submitProviderStatus next caught) w := by
  simp only [submitDepositTransaction,Async.bind_apply,Async.get_apply,haccount]
  apply sat_get
  split
  · exact sat_submitDepositTransactionForStoredIntent hnext hw
  · rename_i hactive
    simp only [Bool.not_eq_true',Bool.not_eq_false,isAccountActive_some] at hactive
    simp only [readClock,Async.bind_apply,Async.get_apply,Async.pure_apply]
    apply sat_get
    apply sat_showDepositTxHash _ hw
    intro w' hquiet hw'
    apply sat_replaceAndPersist_exclusive hw' (hquiet.active.trans hactive) _
      (updates_checkpoint broadcast selected none w.clock)
    · intro c v hv hsync hintents
      have hwv : Segment (some ⟨.exclusive a,c⟩) v v := (resumed_exclusive hv hsync).segment
      split
      · exact sat_endDepositSubmission hnext hwv
      · rename_i hsubmit
        rw [Bool.not_eq_true',Bool.not_eq_false] at hsubmit
        have hselected : selected ∈ w'.intents := hquiet.intents ▸ hmem hsubmit
        have hcheckpointed : Known a (ledger a (v.stored a))
            (broadcast.checkpoint selected none w.clock) :=
          ⟨_,hintents,mem_replace hselected rfl⟩
        apply sat_tellProvider hwv
        intro r t ht
        have hwt : Segment (some ⟨.shared a,.submitDepositTransaction selected.id broadcast.txHash⟩)
            t t := (resumed_shared ht).segment
        have hcheckpointed' : Known a (ledger a (t.stored a))
            (broadcast.checkpoint selected none w.clock) := ht.ledger.symm ▸ hcheckpointed
        cases r with
        | ok snapshot =>
          apply sat_get
          apply sat_get
          dsimp only
          split
          · exact sat_recordDepositSnapshotForStoredIntent hnext hwt hcheckpointed' rfl
          · rename_i hactive'
            simp only [Bool.not_eq_true',Bool.not_eq_false,isAccountActive_some] at hactive'
            apply sat_showDepositTxHash _ hwt
            intro t' hquiet' hwt'
            have hactive'' := hquiet'.active.trans hactive'
            apply sat_replaceAndPersist_shared hnext (.inl hactive'') hwt' (hquiet'.inSync ht.sync)
            · rw [hquiet'.stored]
              exact hcheckpointed'
            · exact alike_depositSnapshot hcheckpointed.addressed rfl snapshot _
            · rfl
            · exact addressed_depositSnapshot hcheckpointed.addressed snapshot _
        | error message =>
          apply sat_get
          dsimp only
          split
          · exact sat_submitDepositTransactionForStoredIntent hnext hwt
          · exact sat_endDepositSubmission hnext hwt
    · rw [hquiet.stored,hquiet.intents]
      exact hknown

end CoppiceWallet.Swap
