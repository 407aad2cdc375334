import CoppiceWallet.Outbox.DeliveryRuns

/-! # Paused batches -/

namespace CoppiceWallet.Outbox

open CoppiceWallet.Lib CoppiceWallet.Store

variable {op : OutboxOperation} {digestHex : Bytes → Text} {s s' t u : Snapshot} {batchId : Text}

/-- The app still has to look at an outcome that pauses the batch. -/
def Snapshot.awaitsUser (batchId : Text) (s : Snapshot) : Prop :=
  ∃ r ∈ s.receipts, r.batchId = batchId ∧ r.outcome.terminal = true

def Unarmed (batchId : Text) (s : Snapshot) : Prop :=
  ∀ b ∈ s.batches, b.batchId = batchId → b.armedAt = none

/-- The operation adds a receipt that pauses the batch. -/
def Pauses (batchId : Text) (s s' : Snapshot) : Prop :=
  ∃ r ∈ s'.receipts, r ∉ s.receipts ∧ r.batchId = batchId ∧ r.outcome.terminal = true

theorem Changed.unarmed_of_new (h : Changed op s s') (hs' : Coherent s') {r : Receipt}
    (hr : r ∈ s'.receipts) (hnew : r ∉ s.receipts) (hbatch : r.batchId = batchId)
    (hterminal : r.outcome.terminal = true) : Unarmed batchId s' := by
  obtain ⟨ps,hps,hbatches,hreceipts⟩ := h
  rw [hreceipts,List.mem_append] at hr
  obtain ⟨p,hp,hr⟩ := List.mem_flatMap.mp (hr.resolve_left hnew)
  obtain ⟨b,hb,hchange⟩ := forall₂_mem_right hps hp
  have hmem : p.1 ∈ s'.batches := by
    rw [hbatches]
    exact List.mem_map_of_mem hp
  intro c hc hcid
  have hid : c.batchId = p.1.batchId := by
    rw [hcid,hchange.batchId,← hbatch,(hchange.receipt_named r hr).2]
  rw [hs'.batch_unique hc hmem hid]
  exact hchange.paused r hr hterminal

theorem apply_unarmed (hcoherent : Coherent s) (hfresh : ItemsFresh op s)
    (hrearms : ¬ op.rearms batchId) (h : op.apply digestHex s = .ok s')
    (hs : s.awaitsUser batchId → Unarmed batchId s) (hs' : s'.awaitsUser batchId) :
    Unarmed batchId s' := by
  have hcoherent' := apply_coherent hfresh h hcoherent
  rcases apply_cases h with hchanged | ⟨batch,rfl,hstageable,hstaged⟩ | ⟨receiptIds,rfl,rfl⟩
  · obtain ⟨r,hr,hbatch,hterminal⟩ := hs'
    by_cases hold : r ∈ s.receipts
    · intro c hc hcid
      obtain ⟨b,hb,receipts,hchange⟩ := hchanged.batch hc
      have hbid : b.batchId = batchId := hchange.batchId.symm.trans hcid
      rcases hchange.asleep (hs ⟨r,hold,hbatch,hterminal⟩ b hb hbid) with hnone | habsurd
      · exact hnone
      · exact absurd (hbid ▸ habsurd) hrearms
    · exact hchanged.unarmed_of_new hcoherent' hr hold hbatch hterminal
  · obtain ⟨r,hr,hbatch,hterminal⟩ := hs'
    rw [hstaged.receipts] at hr
    have hunarmed := hs ⟨r,hr,hbatch,hterminal⟩
    cases hstaged with
    | fresh hnew hs' =>
      rw [hs']
      intro c hc hcid
      rcases List.mem_append.mp hc with hc | hc
      · exact hunarmed c hc hcid
      · -- The batch of the receipt is there, so the new batch is another one.
        cases List.mem_singleton.mp hc
        obtain ⟨b,hb,x,hx,hslot⟩ := hcoherent.item_of_receipt hr
        exact absurd ((congrArg Slot.batchId hslot).trans (hbatch.trans hcid.symm)) (hnew b hb)
    | extended b b' l r added hsplit hs' hid hbatchId _ _ _ harmed =>
      rw [hs']
      intro c hc hcid
      have hold : ∀ d, d ∈ l ++ b :: r → d.batchId = batchId → d.armedAt = none := by
        rw [← hsplit]
        exact hunarmed
      rcases List.mem_append.mp hc with hc | hc
      · exact hold c (List.mem_append_left _ hc) hcid
      · rcases List.mem_cons.mp hc with rfl | hc
        · rw [harmed]
          exact hold b (List.mem_append_right _ (List.mem_cons_self ..)) (hbatchId ▸ hcid)
        · exact hold c (List.mem_append_right _ (List.mem_cons_of_mem _ hc)) hcid
  · obtain ⟨r,hr,hbatch,hterminal⟩ := hs'
    have hunarmed := hs ⟨r,(List.mem_filter.mp hr).1,hbatch,hterminal⟩
    intro c hc hcid
    rw [acknowledge_batches] at hc
    obtain ⟨b,hb,rfl⟩ := List.mem_map.mp (List.mem_filter.mp hc).1
    exact hunarmed b (List.mem_filter.mp hb).1 hcid

theorem run_unarmed (hs : Coherent s) (hfresh : ItemsFresh op s)
    (hstep : op.apply digestHex s = .ok t) (hpauses : Pauses batchId s t)
    (hrun : GuardedRuns (OutboxOperation.apply digestHex)
      (fun op s => ItemsFresh op s ∧ ¬ op.rearms batchId) t u)
    (hu : u.awaitsUser batchId) : Unarmed batchId u := by
  have ht := apply_coherent hfresh hstep hs
  have hfirst : Unarmed batchId t := by
    obtain ⟨r,hr,hnew,hbatch,hterminal⟩ := hpauses
    rcases apply_cases hstep with hchanged | ⟨batch,rfl,hstageable,hstaged⟩ | ⟨receiptIds,rfl,rfl⟩
    · exact hchanged.unarmed_of_new ht hr hnew hbatch hterminal
    · exact absurd (hstaged.receipts ▸ hr) hnew
    · exact absurd (List.mem_filter.mp hr).1 hnew
  have hboth : Coherent u ∧ (u.awaitsUser batchId → Unarmed batchId u) := by
    apply hrun.invariant (P := fun s => Coherent s ∧ (s.awaitsUser batchId → Unarmed batchId s))
    · intro op s t hs hguard hstep
      exact ⟨apply_coherent hguard.1 hstep hs.1,
        apply_unarmed hs.1 hguard.1 hguard.2 hstep hs.2⟩
    · exact ⟨ht,fun _ => hfirst⟩
  exact hboth.2 hu

theorem selectDue_armed {remoteHeight : Nat} {endpoint : Option Text} {date : Date}
    {selection : Selection} (h : s.selectDue remoteHeight endpoint date = some (selection,s'))
    (hunarmed : Unarmed batchId s) : selection.batchId ≠ batchId := by
  obtain ⟨_,-,b,hb,hcandidate,hselect⟩ := selectDue_batches h
  obtain ⟨x,-,rfl⟩ := Option.map_eq_some_iff.mp hselect
  intro hid
  have harmed := hunarmed b hb hid
  simp [Batch.candidate,harmed] at hcandidate

/-- A paused batch sends nothing until it is armed or recovered again. -/
def PausesUntilArmed (digestHex : Bytes → Text) (s : Snapshot) : Prop :=
  ∀ op t u batchId, ItemsFresh op s → op.apply digestHex s = .ok t → Pauses batchId s t →
    GuardedRuns (OutboxOperation.apply digestHex)
      (fun op s => ItemsFresh op s ∧ ¬ op.rearms batchId) t u →
    u.awaitsUser batchId → ∀ remoteHeight endpoint date selection v,
      u.selectDue remoteHeight endpoint date = some (selection,v) → selection.batchId ≠ batchId

/-- The delivery state in every snapshot that is reached while an item id stands in one batch. -/
theorem outbox_coherent (hrun : GuardedRuns (OutboxOperation.apply digestHex) ItemsFresh
      Snapshot.empty s) :
    OneToOne s ∧
      ((∀ r ∈ s.receipts, ':' ∉ r.itemId) → (s.receipts.map Receipt.receiptId).Nodup) ∧
      (GuardedRuns (OutboxOperation.apply digestHex)
        (fun op s => ItemsFresh op s ∧ OneAtATime op s) Snapshot.empty s →
          s.submittingCount ≤ 1) ∧
      PausesUntilArmed digestHex s := by
  have hs := run_coherent hrun coherent_empty
  refine ⟨hs.oneToOne,hs.receiptIds,run_submittingCount,?_⟩
  intro op t u batchId hfresh hstep hpauses hsegment hu remoteHeight endpoint date selection v hselect
  exact selectDue_armed hselect (run_unarmed hs hfresh hstep hpauses hsegment hu)

def stagedItem (itemId : Text) (partIndex : Nat) : Item where
  itemId := itemId
  partIndex := partIndex
  txidHex := itemId
  rawTransaction := [1]
  payloadDigestHex := []
  anchorBoundaryHeight := 0
  scheduledHeight := 10
  scheduleStartHeight := 5
  expiryHeight := 69120
  status := .staged
  attemptCount := 0
  attemptId := none
  attemptStartedAt := none
  nextAttemptAt := none
  lastError := none

def stagedBatch (batchId : Text) (items : List Item) : Batch where
  batchId := batchId
  network := "main".toList
  accountUuid := ['u']
  runId := ['r']
  lightwalletdUrl := ['e']
  timingMeanBlocks := 1
  timingMaxBlocks := 4
  createdAt := 0
  armedAt := none
  nextProofHeight := none
  proofReadyNotificationPendingAt := none
  proofReadyNotifiedAt := none
  proofReadyHeightNoticePendingAt := none
  proofReadyHeightNoticedAt := none
  broadcastCompleteNotificationPendingAt := none
  broadcastCompleteNotifiedAt := none
  items := items

def noDigest : Bytes → Text := fun _ => []

/-- A batch of two armed items. -/
def armedPair : List OutboxOperation :=
  [.stage (stagedBatch ['b'] [stagedItem ['x'] 0,stagedItem ['y'] 1]),
    .armBatch ['b'] [(['x'],[]),(['y'],[])] 0]

def rejectFirst : List OutboxOperation :=
  armedPair ++ [.beginSubmission ['x'] [] 0,.recordRejected ['x'] 10 1 [] 0]

theorem rejectFirst_coherent : ∃ s, s.receipts.length = 1 ∧ OneToOne s ∧
    PausesUntilArmed noDigest s := by
  obtain ⟨s,hexecute,hreceipts⟩ : ∃ s, guardedExecute (OutboxOperation.apply noDigest) ItemsFresh
      rejectFirst Snapshot.empty = some s ∧ s.receipts.length = 1 := ⟨_,rfl,rfl⟩
  obtain ⟨hone,-,-,hpauses⟩ := outbox_coherent (guardedRuns_of_execute hexecute)
  exact ⟨s,hreceipts,hone,hpauses⟩

/-- The batches `a` and `a:b` with the items `b:c` and `c`, both expired. -/
def collidingIds : List OutboxOperation :=
  [.stage (stagedBatch ['a'] [stagedItem ['b',':','c'] 0]),
    .stage (stagedBatch ['a',':','b'] [stagedItem ['c'] 0]),
    .armBatch ['a'] [(['b',':','c'],[])] 0,.armBatch ['a',':','b'] [(['c'],[])] 0,
    .expireItems 69120 ['e'] 0]

/-- Receipt ids collide, two submissions are under way at once, and arming a batch again wakes it
before its rejection was acknowledged. -/
theorem outbox_incoherent :
    (¬ ∀ s, GuardedRuns (OutboxOperation.apply noDigest) ItemsFresh Snapshot.empty s →
      (s.receipts.map Receipt.receiptId).Nodup) ∧
    (¬ ∀ s, GuardedRuns (OutboxOperation.apply noDigest) ItemsFresh Snapshot.empty s →
      s.submittingCount ≤ 1) ∧
    ¬ ∀ s batchId, GuardedRuns (OutboxOperation.apply noDigest) ItemsFresh Snapshot.empty s →
      s.awaitsUser batchId → ∀ remoteHeight endpoint date selection t,
        s.selectDue remoteHeight endpoint date = some (selection,t) →
          selection.batchId ≠ batchId := by
  refine ⟨fun hclaim => ?_,fun hclaim => ?_,fun hclaim => ?_⟩
  · obtain ⟨s,hexecute,hids⟩ : ∃ s, guardedExecute (OutboxOperation.apply noDigest) ItemsFresh
        collidingIds Snapshot.empty = some s ∧ s.receipts.map Receipt.receiptId =
          [receiptIdOf ['a'] ['b',':','c'] .expired,receiptIdOf ['a',':','b'] ['c'] .expired] :=
      ⟨_,rfl,rfl⟩
    have hnodup := hclaim s (guardedRuns_of_execute hexecute)
    rw [hids] at hnodup
    revert hnodup
    decide
  · obtain ⟨s,hexecute,hcount⟩ : ∃ s, guardedExecute (OutboxOperation.apply noDigest) ItemsFresh
        (armedPair ++ [.beginSubmission ['x'] [] 0,.beginSubmission ['y'] [] 0]) Snapshot.empty =
          some s ∧ s.submittingCount = 2 := ⟨_,rfl,rfl⟩
    have hone := hclaim s (guardedRuns_of_execute hexecute)
    omega
  · obtain ⟨s,hexecute,hawaits,selection,t,hselect,hbatch⟩ : ∃ s,
        guardedExecute (OutboxOperation.apply noDigest) ItemsFresh
          (rejectFirst ++ [.armBatch ['b'] [(['y'],[])] 0]) Snapshot.empty = some s ∧
        (∃ r, r ∈ s.receipts ∧ r.batchId = ['b'] ∧ r.outcome.terminal = true) ∧
        ∃ selection t, s.selectDue 10 none 0 = some (selection,t) ∧ selection.batchId = ['b'] :=
      ⟨_,rfl,⟨_,List.mem_cons_self ..,rfl,rfl⟩,_,_,rfl,rfl⟩
    exact hclaim s ['b'] (guardedRuns_of_execute hexecute) hawaits 10 none 0 selection t hselect
      hbatch

end CoppiceWallet.Outbox
