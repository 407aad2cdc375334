import CoppiceWallet.Outbox.Pauses
import CoppiceWallet.Outbox.Runner
import Mathlib.Data.List.Flatten
import Mathlib.Data.List.Pairwise

/-! # Attempts are not forgotten -/

namespace CoppiceWallet.Outbox

open CoppiceWallet.Lib CoppiceWallet.Store

variable {op : OutboxOperation} {digestHex : Bytes → Text} {s s' : Snapshot} {h : HandedOver}
  {P Q : Item → Prop}

theorem HandedOver.Has.mono (hs : h.Has P s) (hPQ : ∀ x, P x → Q x) : h.Has Q s := by
  obtain ⟨b,hb,hid,x,hx,hitem,htxid,hraw,hP⟩ := hs
  exact ⟨b,hb,hid,x,hx,hitem,htxid,hraw,hPQ x hP⟩

variable {b : Batch} {x : Item}

theorem Coherent.owner_unique (hs : Coherent s) {c : Batch} {y : Item} (hb : b ∈ s.batches)
    (hc : c ∈ s.batches) (hx : x ∈ b.items) (hy : y ∈ c.items) (hid : x.itemId = y.itemId) :
    b = c := by
  have hsame := hs.item_unique (mem_items.mpr ⟨b,hb,hx⟩) (mem_items.mpr ⟨c,hc,hy⟩) hid
  by_contra hne
  have hsymm : Std.Symm (Function.onFun List.Disjoint Batch.items) :=
    ⟨fun _ _ hdisjoint _ hx hx' => hdisjoint hx' hx⟩
  have hdisjoint := (List.nodup_flatMap.mp (List.Nodup.of_map _ hs.itemIds)).2
  exact hdisjoint.forall hb hc hne hx (hsame ▸ hy)

theorem Changed.forward (hchanged : Changed op s s') (hb : b ∈ s.batches) :
    ∃ c ∈ s'.batches, ∃ receipts, BatchChange op b (c,receipts) := by
  obtain ⟨ps,hps,hbatches,-⟩ := hchanged
  obtain ⟨p,hp,hchange⟩ := forall₂_mem_left hps hb
  refine ⟨p.1,?_,p.2,hchange⟩
  rw [hbatches]
  exact List.mem_map_of_mem hp

theorem BatchChange.forward {p : Batch × List Receipt} (hchange : BatchChange op b p)
    (hx : x ∈ b.items) : ∃ y ∈ p.1.items, ∃ receipt, ItemChange op b x (y,receipt) := by
  obtain ⟨qs,hqs,hitems,-⟩ := hchange.items
  obtain ⟨q,hq,hitem⟩ := forall₂_mem_left hqs hx
  refine ⟨q.1,?_,q.2,hitem⟩
  rw [hitems]
  exact List.mem_map_of_mem hq

theorem Changed.has (hchanged : Changed op s s')
    (hPQ : ∀ b x y receipt, x.itemId = h.item.itemId → ItemChange op b x (y,receipt) → P x → Q y)
    (hs : h.Has P s) : h.Has Q s' := by
  obtain ⟨b,hb,hid,x,hx,hitem,htxid,hraw,hP⟩ := hs
  obtain ⟨c,hc,receipts,hchange⟩ := hchanged.forward hb
  obtain ⟨y,hy,receipt,hy'⟩ := hchange.forward hx
  exact ⟨c,hc,hchange.batchId.trans hid,y,hy,hy'.itemId.trans hitem,hy'.txidHex.trans htxid,
    hy'.rawTransaction.trans hraw,hPQ b x y receipt hitem hy' hP⟩

def Attempted (x : Item) : Prop := x.attempted = true

def Retried (x : Item) : Prop := 0 < x.attemptCount

/-- Under way, as far as the outbox knows. -/
def InFlight (x : Item) : Prop := x.attempted = true ∧ x.status.awaiting = false

theorem Retried.attempted (hx : Retried x) : Attempted x := by
  simp only [Attempted,Item.attempted,decide_eq_true (show 0 < x.attemptCount from hx),Bool.true_or]

theorem Changed.has_attempted (hchanged : Changed op s s') (hop : ¬ op.cancels h.item.itemId)
    (hs : h.Has Attempted s) : h.Has Attempted s' := by
  refine hchanged.has (fun b x y receipt hid hitem hx => ?_) hs
  rcases hitem.attempted hx with hy | habsurd
  · exact hy
  · exact absurd (hid ▸ habsurd) hop

theorem Changed.has_retried (hchanged : Changed op s s') (hs : h.Has Retried s) :
    h.Has Retried s' :=
  hchanged.has (fun _ _ _ _ _ hitem hx => lt_of_lt_of_le hx hitem.attempts) hs

theorem Changed.has_inFlight (hchanged : Changed op s s') (hop : ¬ op.cancels h.item.itemId)
    (hcoherent : Coherent s) (hreceipts : s'.receipts = s.receipts) (hs : h.Has InFlight s) :
    h.Has InFlight s' := by
  have hcoherent' := hchanged.coherent hcoherent
  obtain ⟨b,hb,hid,x,hx,hitem,htxid,hraw,hattempted,hquiet⟩ := hs
  obtain ⟨c,hc,receipts,hchange⟩ := hchanged.forward hb
  obtain ⟨y,hy,receipt,hy'⟩ := hchange.forward hx
  refine ⟨c,hc,hchange.batchId.trans hid,y,hy,hy'.itemId.trans hitem,hy'.txidHex.trans htxid,
    hy'.rawTransaction.trans hraw,?_,?_⟩
  · rcases hy'.attempted hattempted with hy | habsurd
    · exact hy
    · exact absurd (hitem ▸ habsurd) hop
  · by_contra hawaiting
    obtain ⟨r,hr,hslot⟩ := hcoherent'.receipt_of_item hc hy (by simpa using hawaiting)
    rw [hreceipts] at hr
    obtain ⟨d,hd,z,hz,hslot'⟩ := hcoherent.item_of_receipt hr
    have hzx : z = x := by
      apply hcoherent.item_unique (mem_items.mpr ⟨d,hd,hz⟩) (mem_items.mpr ⟨b,hb,hx⟩)
      exact (congrArg Slot.itemId (hslot'.trans hslot)).trans hy'.itemId
    have hstatus : x.status = r.outcome.status := by
      rw [← hzx]
      exact congrArg Slot.status hslot'
    rw [hstatus,ReceiptOutcome.status_awaiting] at hquiet
    cases hquiet

theorem Staged.has {batch : Batch} (hstaged : Staged batch s s') (hs : h.Has P s) :
    h.Has P s' := by
  obtain ⟨b,hb,hid,x,hx⟩ := hs
  cases hstaged with
  | fresh hnew hs' =>
    rw [hs']
    exact ⟨b,List.mem_append_left _ hb,hid,x,hx⟩
  | extended c c' l r added hsplit hs' _ hbatchId _ _ _ _ hitems =>
    rw [hsplit] at hb
    rw [hs']
    rcases List.mem_append.mp hb with hb | hb
    · exact ⟨b,List.mem_append_left _ hb,hid,x,hx⟩
    · rcases List.mem_cons.mp hb with rfl | hb
      · refine ⟨c',List.mem_append_right _ (List.mem_cons_self ..),hbatchId.trans hid,x,?_,hx.2⟩
        rw [hitems]
        exact List.mem_append_left _ hx.1
      · exact ⟨b,List.mem_append_right _ (List.mem_cons_of_mem _ hb),hid,x,hx⟩

theorem acknowledge_has {receiptIds : List Text}
    (hitem : h.item.itemId ∉ (s.acknowledged receiptIds).map Receipt.itemId)
    (hbatch : h.batchId ∉ s.removableTerminalBatchIds receiptIds) (hs : h.Has P s) :
    h.Has P (s.acknowledgeReceipts receiptIds) := by
  obtain ⟨b,hb,hid,x,hx,hxid,hrest⟩ := hs
  have hkept : x ∈ (keptItems ((s.acknowledged receiptIds).map Receipt.itemId) b).items := by
    apply List.mem_filter.mpr ⟨hx,_⟩
    rw [hxid]
    simpa using hitem
  refine ⟨keptItems ((s.acknowledged receiptIds).map Receipt.itemId) b,?_,hid,x,hkept,hxid,hrest⟩
  rw [acknowledge_batches]
  apply List.mem_filter.mpr ⟨List.mem_map_of_mem (List.mem_filter.mpr ⟨hb,_⟩),_⟩
  · rw [hid]
    simpa using hbatch
  · have hne := List.ne_nil_of_mem hkept
    simp [Batch.stays,hne]

variable {batchId : Text}

theorem discardBatch_ok (hdiscard : s.discardBatch batchId = .ok s') :
    s' = s ∨ ∃ b ∈ s.batches, b.batchId = batchId ∧
      (∀ x ∈ b.items, x.status ≠ .submitting ∧ x.attemptCount = 0) ∧
      (∀ r ∈ s.receipts, r.batchId ≠ batchId) ∧
      s' = { s with batches := s.batches.eraseP (isBatch batchId) } := by
  unfold Snapshot.discardBatch at hdiscard
  split at hdiscard
  · cases hdiscard
    exact .inl rfl
  · rename_i b hfind
    split at hdiscard
    · cases hdiscard
    · rename_i hquiet
      cases hdiscard
      rw [Bool.not_eq_true,Bool.or_eq_false_iff,List.any_eq_false,List.any_eq_false] at hquiet
      have hid : isBatch batchId b = true := List.find?_some hfind
      refine .inr ⟨b,List.mem_of_find?_eq_some hfind,of_decide_eq_true hid,fun x hx => ?_,
        fun r hr hbatch => hquiet.2 r hr (decide_eq_true hbatch),rfl⟩
      have hitem := hquiet.1 x hx
      simp only [decide_eq_true_iff,not_or,Nat.not_lt,Nat.le_zero] at hitem
      exact hitem

theorem discard_coherent (hs : Coherent s) (hdiscard : s.discardBatch batchId = .ok s') :
    Coherent s' := by
  rcases discardBatch_ok hdiscard with rfl | ⟨b,hb,hid,-,hreceipts,rfl⟩
  · exact hs
  · have hsub : (s.batches.eraseP (isBatch batchId)).Sublist s.batches := List.eraseP_sublist
    have hitems : (Snapshot.items { s with batches := s.batches.eraseP (isBatch batchId) }).Sublist
        s.items := hsub.flatMap Batch.items
    have hgone : b.awaiting = [] := by
      apply List.eq_nil_iff_forall_not_mem.mpr
      intro slot hslot
      obtain ⟨x,hx,rfl⟩ := List.mem_map.mp hslot
      obtain ⟨hx,hawaiting⟩ := List.mem_filter.mp hx
      obtain ⟨r,hr,hr'⟩ := hs.receipt_of_item hb hx hawaiting
      exact hreceipts r hr ((congrArg Slot.batchId hr').trans hid)
    refine ⟨hs.batchIds.sublist (hsub.map _),hs.itemIds.sublist (hitems.map _),?_,hs.named,
      fun x hx => hs.payload x (hitems.subset hx)⟩
    obtain ⟨c,l,r,_,hc,hsplit,herase⟩ := List.exists_of_eraseP hb
      (show isBatch batchId b = true from decide_eq_true hid)
    have hcb : c = b := by
      apply hs.batch_unique (hsplit ▸ List.mem_append_right _ (List.mem_cons_self ..)) hb
      exact (of_decide_eq_true hc).trans hid.symm
    have hawaiting : Snapshot.awaiting { s with batches := s.batches.eraseP (isBatch batchId) } =
        s.awaiting := by
      rw [Snapshot.awaiting,Snapshot.awaiting,herase,hsplit,List.flatMap_append,
        List.flatMap_append,List.flatMap_cons,hcb,hgone,List.nil_append]
    rw [hawaiting]
    exact hs.paired

theorem discard_has (hs : Coherent s) (hP : ∀ x, P x → Attempted x)
    (hdiscard : s.discardBatch batchId = .ok s') (hhas : h.Has P s) : h.Has P s' := by
  rcases discardBatch_ok hdiscard with rfl | ⟨b,hb,hid,hitems,hreceipts,rfl⟩
  · exact hhas
  · obtain ⟨c,hc,hcid,x,hx,hxid,htxid,hraw,hx'⟩ := hhas
    have hne : ¬ isBatch batchId c = true := by
      intro habsurd
      have hcb := hs.batch_unique hc hb ((of_decide_eq_true habsurd).trans hid.symm)
      rw [hcb] at hx
      obtain ⟨hstatus,hcount⟩ := hitems x hx
      have hattempted := hP x hx'
      simp only [Attempted,Item.attempted,hcount,hstatus,Bool.or_eq_true,decide_eq_true_iff,
        Nat.lt_irrefl,false_or] at hattempted
      have hawaiting : x.status.awaiting = true := by
        rcases hattempted with h | h <;> rw [h] <;> rfl
      obtain ⟨r,hr,hslot⟩ := hs.receipt_of_item hb hx hawaiting
      exact hreceipts r hr ((congrArg Slot.batchId hslot).trans hid)
    exact ⟨c,(List.mem_eraseP_of_neg hne).mpr hc,hcid,x,hx,hxid,htxid,hraw,hx'⟩

theorem changed_of_noticed (op : OutboxOperation) {f : Batch → Batch}
    (hf : ∀ b, (f b).batchId = b.batchId ∧ (f b).network = b.network ∧
      (f b).accountUuid = b.accountUuid ∧ (f b).runId = b.runId ∧ (f b).items = b.items ∧
      (f b).armedAt = b.armedAt) :
    Changed op s { s with batches := s.batches.map f } := by
  apply changed_of_map (fun b => (f b,[])) rfl (by simp)
  intro b _
  obtain ⟨hid,hnetwork,haccount,hrun,hitems,harmed⟩ := hf b
  exact .of_map (g := id) hid hnetwork haccount hrun (by rw [hitems,List.map_id])
    (fun x _ => .refl op b x) fun h => .inl (harmed.trans h)

theorem markProofReadyIfNeeded_changed (op : OutboxOperation) (remoteHeight : Nat)
    (endpoint : Text) (date : Date) (s : Snapshot) :
    Changed op s (s.markProofReadyIfNeeded remoteHeight endpoint date) := by
  unfold Snapshot.markProofReadyIfNeeded
  split
  · exact .refl op s
  · apply changed_of_noticed
    intro b
    split <;> exact ⟨rfl,rfl,rfl,rfl,rfl,rfl⟩

theorem markBroadcastCompleteIfNeeded_changed (op : OutboxOperation) (batchId : Text) (date : Date)
    (s : Snapshot) : Changed op s (s.markBroadcastCompleteIfNeeded batchId date) := by
  apply changed_of_noticed
  intro b
  split <;> exact ⟨rfl,rfl,rfl,rfl,rfl,rfl⟩

theorem nextEndpointForInspection_batches (s : Snapshot) :
    s.nextEndpointForInspection.2.batches = s.batches ∧
      s.nextEndpointForInspection.2.receipts = s.receipts := by
  unfold Snapshot.nextEndpointForInspection
  dsimp only
  split <;> exact ⟨rfl,rfl⟩

theorem Changed.congr {t : Snapshot} (hchanged : Changed op s s') (hbatches : t.batches = s'.batches)
    (hreceipts : t.receipts = s'.receipts) : Changed op s t := by
  obtain ⟨ps,hps,hbatches',hreceipts'⟩ := hchanged
  exact ⟨ps,hps,hbatches.trans hbatches',hreceipts.trans hreceipts'⟩

theorem inspectUpdate_changed (op : OutboxOperation) (now : Date) (s : Snapshot) :
    Changed op s (inspectUpdate now s).2 := by
  obtain ⟨hbatches,hreceipts⟩ :=
    nextEndpointForInspection_batches (s.recoverInterruptedSubmissions now)
  exact (recoverInterruptedSubmissions_changed op now s).congr hbatches hreceipts

/-- What is kept by changes that call nothing off. -/
structure Kept (s s' : Snapshot) : Prop where
  coherent : Coherent s → Coherent s'
  attempted : ∀ h : HandedOver, h.Has Attempted s → h.Has Attempted s'

theorem Kept.trans {t : Snapshot} (h₁ : Kept s s') (h₂ : Kept s' t) : Kept s t :=
  ⟨fun hs => h₂.coherent (h₁.coherent hs),fun h hh => h₂.attempted h (h₁.attempted h hh)⟩

theorem Changed.kept (hchanged : Changed op s s') (hop : ∀ id, ¬ op.cancels id) : Kept s s' :=
  ⟨hchanged.coherent,fun h => hchanged.has_attempted (hop h.item.itemId)⟩

theorem withdrawUpdate_kept (endpoint : Text) (remoteHeight : Nat) (now : Date) (verified : Bool)
    (s : Snapshot) : Kept s (withdrawUpdate endpoint remoteHeight now verified s) := by
  have hexpire := (expireItems_changed (.expireItems remoteHeight endpoint now) remoteHeight endpoint
    now s).kept fun _ => id
  have hresign := (markDueItemsNeedingResign_changed (.expireItems remoteHeight endpoint now)
    remoteHeight endpoint now (s.expireItems remoteHeight endpoint now)).kept fun _ => id
  unfold withdrawUpdate
  dsimp only
  split
  · exact hexpire.trans hresign
  · exact (hexpire.trans hresign).trans ((markProofReadyIfNeeded_changed
      (.expireItems remoteHeight endpoint now) remoteHeight endpoint now _).kept fun _ => id)

variable {remoteHeight : Nat} {selection : Selection}

theorem select_due {date : Date} (hselect : b.select remoteHeight date = some selection) :
    selection.batchId = b.batchId ∧ selection.item ∈ b.items ∧ selection.item.status = .armed := by
  obtain ⟨x,hx,rfl⟩ := Option.map_eq_some_iff.mp hselect
  have hmem := List.mem_of_mem_head? hx
  obtain ⟨hx,hdue⟩ := List.mem_filter.mp ((List.mem_insertionSort _).mp hmem)
  exact ⟨rfl,hx,(of_decide_eq_true (Bool.and_eq_true_iff.mp hdue).1).1⟩

theorem beginSubmission_inFlight {itemId attemptId : Text} {date : Date} (hs : Coherent s)
    (hb : b ∈ s.batches) (hx : x ∈ b.items) (hid : x.itemId = itemId)
    (hbegin : s.beginSubmission itemId attemptId date = .ok s') :
    HandedOver.Has ⟨b.batchId,x⟩ InFlight s' := by
  obtain ⟨⟨c,y⟩,hlocation,hbegin⟩ := bind_ok hbegin
  have hlocated := itemLocation_ok hlocation
  obtain ⟨l,r,hsplit,hsettle⟩ := hlocated.batch
  obtain ⟨l',r',hitems,hset⟩ := hlocated.item
  have hc : c ∈ s.batches := hsplit ▸ List.mem_append_right _ (List.mem_cons_self ..)
  have hy : y ∈ c.items := hitems ▸ List.mem_append_right _ (List.mem_cons_self ..)
  have hxy : x.itemId = y.itemId := hid.trans hlocated.isItem.symm
  rw [hs.owner_unique hb hc hx hy hxy,
    hs.item_unique (mem_items.mpr ⟨b,hb,hx⟩) (mem_items.mpr ⟨c,hc,hy⟩) hxy]
  dsimp only at hbegin
  split at hbegin
  · cases hbegin
  · cases hbegin
    have hbegun := hset { y with
      status := .submitting
      attemptId := some attemptId
      attemptStartedAt := some date } hlocated.isItem
    rw [hsettle,hbegun]
    refine ⟨_,List.mem_append_right _ (List.mem_cons_self ..),rfl,_,
      List.mem_append_right _ (List.mem_cons_self ..),rfl,rfl,rfl,?_,rfl⟩
    simp [Item.attempted]

theorem armed_retried (hattempted : Attempted x) (harmed : x.status = .armed) : Retried x := by
  simpa [Attempted,Retried,Item.attempted,harmed] using hattempted

/-- What the second update of the runner does to what is handed over and to the item it selects. -/
theorem selectUpdate_ok {endpoint attemptId : Text} {now : Date} {verified : Bool}
    {selection : Option Selection} (hs : Coherent s)
    (hupdate : selectUpdate endpoint remoteHeight attemptId now verified s = .ok (selection,s')) :
    Kept s s' ∧ ∀ selected, selection = some selected →
      HandedOver.Has ⟨selected.batchId,selected.item⟩ InFlight s' ∧
      ∀ h : HandedOver, h.item.itemId = selected.item.itemId → h.Has Attempted s →
        h.Has Retried s' := by
  have hwithdraw := withdrawUpdate_kept endpoint remoteHeight now verified s
  unfold selectUpdate at hupdate
  dsimp only at hupdate
  split at hupdate
  · cases hupdate
    exact ⟨hwithdraw,fun _ habsurd => nomatch habsurd⟩
  · rename_i selected t hselect
    obtain ⟨_,-,hupdate⟩ := bind_ok hupdate
    obtain ⟨u,hbegin,hupdate⟩ := bind_ok hupdate
    cases hupdate
    obtain ⟨scope,rfl,b,hb,-,hdue⟩ := selectDue_batches hselect
    obtain ⟨hbatch,hx,harmed⟩ := select_due hdue
    have hcoherent := hwithdraw.coherent hs
    have hcoherent' : Coherent { withdrawUpdate endpoint remoteHeight now verified s with
        lastAttemptedScopeKey := some scope } :=
      ⟨hcoherent.batchIds,hcoherent.itemIds,hcoherent.paired,hcoherent.named,hcoherent.payload⟩
    have hchanged : Changed (.beginSubmission selected.item.itemId attemptId now) _ s' :=
      beginSubmission_changed rfl hbegin
    refine ⟨hwithdraw.trans ⟨fun _ => hchanged.coherent hcoherent',fun h hh =>
      hchanged.has_attempted id hh⟩,fun _ hselected => ?_⟩
    cases hselected
    refine ⟨?_,fun h hid hh => ?_⟩
    · rw [hbatch]
      exact beginSubmission_inFlight hcoherent' hb hx rfl hbegin
    · obtain ⟨c,hc,hcid,y,hy,hyid,htxid,hraw,hattempted⟩ := hwithdraw.attempted h hh
      have hyx := hcoherent.item_unique (mem_items.mpr ⟨c,hc,hy⟩) (mem_items.mpr ⟨b,hb,hx⟩)
        (hyid.trans hid)
      have hretried : Retried y := armed_retried hattempted (hyx ▸ harmed)
      exact hchanged.has_retried ⟨c,hc,hcid,y,hy,hyid,htxid,hraw,hretried⟩

/-- What the runner is about to send, or has sent. -/
def RunnerState.flight : RunnerState → Option HandedOver
  | .selected selection _ | .sent selection _ => some ⟨selection.batchId,selection.item⟩
  | _ => none

/-- The transactions that were handed over are attempted items, and an earlier attempt of the item
that is selected now is counted. -/
structure Tracked (sys : OutboxSystem) : Prop where
  coherent : Coherent sys.snapshot
  attempted : ∀ h ∈ sys.handedOver, h.Has Attempted sys.snapshot
  flight : ∀ h, sys.runner.flight = some h → h.Has InFlight sys.snapshot
  earlier : ∀ selection remoteHeight, sys.runner = .selected selection remoteHeight →
    ∀ h ∈ sys.handedOver, h.item.itemId = selection.item.itemId → h.Has Retried sys.snapshot

variable {sys : OutboxSystem}

theorem Tracked.update {f : Snapshot → OutboxResult Snapshot} {sys' : OutboxSystem}
    (hs : Tracked sys) (hupdate : sys.update f = .ok sys')
    (hf : ∀ t, f sys.snapshot = .ok t → Coherent t ∧
      ∀ h : HandedOver, (h.Has Attempted sys.snapshot → h.Has Attempted t) ∧
        (h.Has InFlight sys.snapshot → h.Has InFlight t) ∧
        (h.Has Retried sys.snapshot → h.Has Retried t)) : Tracked sys' := by
  obtain ⟨t,ht,hupdate⟩ := bind_ok hupdate
  cases hupdate
  obtain ⟨hcoherent,hkeeps⟩ := hf t ht
  exact ⟨hcoherent,fun h hh => (hkeeps h).1 (hs.attempted h hh),
    fun h hh => (hkeeps h).2.1 (hs.flight h hh),
    fun selection remoteHeight hselected h hh hid =>
      (hkeeps h).2.2 (hs.earlier selection remoteHeight hselected h hh hid)⟩

theorem Tracked.changed (op : OutboxOperation) {sys' : OutboxSystem}
    {f : Snapshot → OutboxResult Snapshot} (hs : Tracked sys) (hupdate : sys.update f = .ok sys') (hop : ∀ id, ¬ op.cancels id)
    (hf : ∀ t, f sys.snapshot = .ok t →
      Changed op sys.snapshot t ∧ t.receipts = sys.snapshot.receipts) : Tracked sys' := by
  apply hs.update hupdate
  intro t ht
  obtain ⟨hchanged,hreceipts⟩ := hf t ht
  exact ⟨hchanged.coherent hs.coherent,fun h => ⟨hchanged.has_attempted (hop h.item.itemId),
    hchanged.has_inFlight (hop h.item.itemId) hs.coherent hreceipts,hchanged.has_retried⟩⟩

theorem tracked_idle {snapshot : Snapshot} {handedOver : List HandedOver}
    (hcoherent : Coherent snapshot) (hattempted : ∀ h ∈ handedOver, h.Has Attempted snapshot) :
    Tracked ⟨snapshot,.idle,handedOver⟩ :=
  ⟨hcoherent,hattempted,fun _ habsurd => (nomatch habsurd),fun _ _ habsurd => (nomatch habsurd)⟩

theorem Tracked.finish {result : OutboxResult Snapshot} (hs : Tracked sys)
    (hresult : ∀ t, result = .ok t → Kept sys.snapshot t) : Tracked (sys.finish result) := by
  cases result with
  | error => exact tracked_idle hs.coherent hs.attempted
  | ok t =>
    have hkept := hresult t rfl
    exact tracked_idle (hkept.coherent hs.coherent) fun h hh => hkept.attempted h (hs.attempted h hh)

theorem onBatch_receipts {f : Batch → OutboxResult Batch}
    (honBatch : s.onBatch batchId f = .ok s') : s'.receipts = s.receipts := by
  obtain ⟨_,_,_,_,_,_,_,rfl⟩ := onBatch_ok honBatch
  rfl

theorem recoverBatch_receipts {network accountUuid runId lightwalletdUrl : Text}
    {expectedTxids : List Text} {date : Date}
    (hrecover : s.recoverBatch batchId network accountUuid runId expectedTxids lightwalletdUrl date =
      .ok s') : s'.receipts = s.receipts := by
  unfold Snapshot.recoverBatch at hrecover
  split at hrecover
  · cases hrecover
  · split at hrecover
    · cases hrecover
      rfl
    · exact onBatch_receipts hrecover

theorem acknowledge_tracked {receiptIds : List Text} (hs : Tracked sys)
    (hkeeps : KeepsAttempts (.acknowledgeReceipts receiptIds) sys) :
    Tracked ⟨sys.snapshot.acknowledgeReceipts receiptIds,sys.runner,
      sys.handedOver.filter fun h => !((sys.snapshot.acknowledged receiptIds).map
        Receipt.itemId).contains h.item.itemId⟩ := by
  have hhas : ∀ {P : Item → Prop} {h : HandedOver}, (∀ x, P x → Attempted x) →
      h.item.itemId ∉ (sys.snapshot.acknowledged receiptIds).map Receipt.itemId →
      h.Has P sys.snapshot → h.Has P (sys.snapshot.acknowledgeReceipts receiptIds) := by
    intro P h hP hitem hh
    refine acknowledge_has hitem (fun habsurd => ?_) hh
    obtain ⟨b,hb,hid,x,hx,hxid,-,-,hx'⟩ := hh
    exact hitem (hxid ▸ hkeeps b hb (hid ▸ habsurd) x hx (hP x hx'))
  have hunacknowledged : ∀ h ∈ sys.handedOver.filter (fun h =>
      !((sys.snapshot.acknowledged receiptIds).map Receipt.itemId).contains h.item.itemId),
      h ∈ sys.handedOver ∧
        h.item.itemId ∉ (sys.snapshot.acknowledged receiptIds).map Receipt.itemId := by
    intro h hh
    obtain ⟨hh,hitem⟩ := List.mem_filter.mp hh
    exact ⟨hh,by simpa using hitem⟩
  constructor
  · exact acknowledge_coherent hs.coherent
  · intro h hh
    obtain ⟨hh,hitem⟩ := hunacknowledged h hh
    exact hhas (fun _ => id) hitem (hs.attempted h hh)
  · intro h hflight
    have hinFlight := hs.flight h hflight
    refine hhas (fun _ hx => hx.1) (fun habsurd => ?_) hinFlight
    -- What is in flight has no receipt, so none of it is acknowledged.
    obtain ⟨r,hr,hrid⟩ := List.mem_map.mp habsurd
    obtain ⟨d,hd,z,hz,hslot⟩ := hs.coherent.item_of_receipt (mem_acknowledged.mp hr).1
    obtain ⟨b,hb,-,x,hx,hxid,-,-,-,hquiet⟩ := hinFlight
    have hzx : z = x := by
      apply hs.coherent.item_unique (mem_items.mpr ⟨d,hd,hz⟩) (mem_items.mpr ⟨b,hb,hx⟩)
      exact (congrArg Slot.itemId hslot).trans (hrid.trans hxid.symm)
    have hstatus : z.status = r.outcome.status := congrArg Slot.status hslot
    rw [← hzx,hstatus,ReceiptOutcome.status_awaiting] at hquiet
    cases hquiet
  · intro selection remoteHeight hselected h hh hid
    obtain ⟨hh,hitem⟩ := hunacknowledged h hh
    exact hhas (fun _ => Retried.attempted) hitem
      (hs.earlier selection remoteHeight hselected h hh hid)

theorem acceptedUpdate_kept {rng : Rng} {equivalent : Bool} {responseCode : Int}
    {responseMessage : Text} {now : Date}
    (hupdate : acceptedUpdate rng selection remoteHeight equivalent responseCode responseMessage now
      s = .ok s') : Kept s s' := by
  obtain ⟨t,haccepted,hupdate⟩ := bind_ok hupdate
  cases hupdate
  have hchanged : Changed (.expireItems remoteHeight [] now) s t := recordAccepted_changed haccepted
  exact (hchanged.kept fun _ => id).trans ((markBroadcastCompleteIfNeeded_changed
    (.expireItems remoteHeight [] now) selection.batchId now t).kept fun _ => id)

theorem perform_tracked {step : SystemStep} {sys' : OutboxSystem} (hs : Tracked sys)
    (hkeeps : KeepsAttempts step sys)
    (hstep : OutboxSystem.perform digestHex step sys = .ok sys') : Tracked sys' := by
  cases step with
  | stage batch =>
    apply hs.update hstep
    intro t ht
    obtain ⟨hstageable,hstaged⟩ := stage_ok ht
    exact ⟨hstaged.coherent hstageable hkeeps hs.coherent,fun h =>
      ⟨hstaged.has,hstaged.has,hstaged.has⟩⟩
  | armBatch batchId expectedDigests date =>
    apply Tracked.changed (.armBatch batchId expectedDigests date) hs hstep fun _ => id
    intro t ht
    exact ⟨armBatch_changed rfl ht,onBatch_receipts ht⟩
  | recoverBatch batchId network accountUuid runId expectedTxids lightwalletdUrl date =>
    apply Tracked.changed (.recoverBatch batchId network accountUuid runId expectedTxids
      lightwalletdUrl date) hs hstep fun _ => id
    intro t ht
    exact ⟨recoverBatch_changed rfl ht,recoverBatch_receipts ht⟩
  | discardBatch batchId =>
    apply hs.update hstep
    intro t ht
    exact ⟨discard_coherent hs.coherent ht,fun h =>
      ⟨discard_has hs.coherent (fun _ => id) ht,discard_has hs.coherent (fun _ hx => hx.1) ht,
        discard_has hs.coherent (fun _ => Retried.attempted) ht⟩⟩
  | acknowledgeReceipts receiptIds =>
    cases hstep
    exact acknowledge_tracked hs hkeeps
  | inspect now =>
    unfold OutboxSystem.perform at hstep
    dsimp only at hstep
    split at hstep
    · have hchanged := inspectUpdate_changed (.recoverInterruptedSubmissions now) now sys.snapshot
      have hkept := hchanged.kept fun _ => id
      cases hstep
      refine ⟨hkept.coherent hs.coherent,fun h hh => hkept.attempted h (hs.attempted h hh),
        fun h hflight => ?_,fun selection remoteHeight hselected => ?_⟩
      · cases hendpoint : (inspectUpdate now sys.snapshot).1 <;> simp [hendpoint,RunnerState.flight] at hflight
      · cases hendpoint : (inspectUpdate now sys.snapshot).1 <;> simp [hendpoint] at hselected
    · cases hstep
  | select remoteHeight attemptId now verified =>
    unfold OutboxSystem.perform at hstep
    dsimp only at hstep
    split at hstep
    · split at hstep
      · rename_i endpoint _ selection snapshot hupdate
        cases hstep
        obtain ⟨hkept,hselected⟩ := selectUpdate_ok hs.coherent hupdate
        obtain ⟨hflight,hretried⟩ := hselected selection rfl
        refine ⟨hkept.coherent hs.coherent,fun h hh => hkept.attempted h (hs.attempted h hh),
          fun h hh => ?_,fun selected _ hh h hmem hid => ?_⟩
        · cases hh
          exact hflight
        · cases hh
          exact hretried h hid (hs.attempted h hmem)
      · rename_i hupdate
        cases hstep
        obtain ⟨hkept,-⟩ := selectUpdate_ok hs.coherent hupdate
        exact tracked_idle (hkept.coherent hs.coherent) fun h hh =>
          hkept.attempted h (hs.attempted h hh)
      · cases hstep
        exact tracked_idle hs.coherent hs.attempted
    · cases hstep
  | cancel error =>
    unfold OutboxSystem.perform at hstep
    dsimp only at hstep
    split at hstep
    · rename_i selection remoteHeight hrunner
      cases hstep
      unfold OutboxSystem.finish
      split
      · rename_i t hcancel
        have hchanged : Changed (.recordCancelledBeforeSubmission selection.item.itemId error)
            sys.snapshot t := recordCancelledBeforeSubmission_changed rfl hcancel
        refine tracked_idle (hchanged.coherent hs.coherent) fun h hh => ?_
        by_cases hid : h.item.itemId = selection.item.itemId
        · exact (hchanged.has_retried (hs.earlier selection remoteHeight hrunner h hh hid)).mono
            fun _ => Retried.attempted
        · exact hchanged.has_attempted hid (hs.attempted h hh)
      · exact tracked_idle hs.coherent hs.attempted
    · cases hstep
  | send =>
    unfold OutboxSystem.perform at hstep
    dsimp only at hstep
    split at hstep
    · rename_i selection remoteHeight hrunner
      cases hstep
      have hflight := hs.flight ⟨selection.batchId,selection.item⟩ (by rw [hrunner]; rfl)
      refine ⟨hs.coherent,fun h hh => ?_,fun h hh => ?_,fun _ _ habsurd => (nomatch habsurd)⟩
      · rcases List.mem_cons.mp hh with rfl | hh
        · exact hflight.mono fun _ hx => hx.1
        · exact hs.attempted h hh
      · cases hh
        exact hflight
    · cases hstep
  | uncertain error now =>
    unfold OutboxSystem.perform at hstep
    dsimp only at hstep
    split at hstep
    · cases hstep
      apply hs.finish
      intro t ht
      have hchanged : Changed (.recordUncertain [] error now) sys.snapshot t :=
        recordUncertain_changed ht
      exact hchanged.kept fun _ => id
    · cases hstep
  | accepted rng equivalent responseCode responseMessage now =>
    unfold OutboxSystem.perform at hstep
    dsimp only at hstep
    split at hstep
    · cases hstep
      exact hs.finish fun t ht => acceptedUpdate_kept ht
    · cases hstep
  | rejected responseCode responseMessage now =>
    unfold OutboxSystem.perform at hstep
    dsimp only at hstep
    split at hstep
    · rename_i selection remoteHeight hrunner
      cases hstep
      unfold OutboxSystem.finishRejected
      split
      · rename_i t hrejected
        have hchanged : Changed (.recordUncertain [] [] now) sys.snapshot t :=
          recordRejected_changed hrejected
        have hkept := hchanged.kept fun _ => id
        exact tracked_idle (hkept.coherent hs.coherent) fun h hh =>
          hkept.attempted h (hs.attempted h (List.mem_filter.mp hh).1)
      · exact tracked_idle hs.coherent hs.attempted
    · cases hstep
  | stop =>
    cases hstep
    exact tracked_idle hs.coherent hs.attempted

theorem run_tracked (hrun : GuardedRuns (OutboxSystem.perform digestHex) KeepsAttempts .empty sys) :
    Tracked sys :=
  hrun.invariant (fun _ _ _ hs hkeeps hstep => perform_tracked hs hkeeps hstep)
    (tracked_idle coherent_empty fun _ habsurd => nomatch habsurd)

theorem HandedOver.Has.reported (hs : h.Has Attempted s) : h.Reported s := by
  obtain ⟨b,hb,hid,x,hx,hxid,htxid,hraw,hattempted⟩ := hs
  refine ⟨b,hb,hid,x,hx,hxid,hraw,?_⟩
  rw [← htxid]
  refine List.mem_map_of_mem (List.mem_filter.mpr ⟨?_,hattempted⟩)
  exact List.mem_flatMap.mpr ⟨b,List.mem_filter.mpr ⟨hb,decide_eq_true ⟨rfl,rfl,rfl⟩⟩,hx⟩

theorem itemLocation_found {itemId : Text} (hb : b ∈ s.batches) (hx : x ∈ b.items)
    (hid : x.itemId = itemId) : ∃ p, s.itemLocation itemId = .ok p := by
  unfold Snapshot.itemLocation
  split
  · rename_i hnone
    have habsurd := List.find?_eq_none.mp hnone b hb
    exact absurd (List.any_eq_true.mpr ⟨x,hx,decide_eq_true hid⟩) habsurd
  · rename_i c hc
    have hany : Snapshot.hasItem itemId c = true := List.find?_some hc
    split
    · rename_i hnone
      obtain ⟨y,hy,hyid⟩ := List.any_eq_true.mp hany
      exact absurd hyid (List.find?_eq_none.mp hnone y hy)
    · exact ⟨_,rfl⟩

theorem rescheduleFrom_error {rng : Rng} {mean max elapsed draw : Nat} {items : List Item}
    {e : OutboxError}
    (herror : Snapshot.rescheduleFrom rng mean max remoteHeight elapsed draw items = .error e) :
    e = .invalidSchedule := by
  induction items generalizing elapsed draw with
  | nil => cases herror
  | cons item items ih =>
    unfold Snapshot.rescheduleFrom at herror
    dsimp only at herror
    split at herror
    · cases herror
      rfl
    · split at herror
      · cases herror
        rfl
      · rcases bind_error herror with hrest | ⟨_,_,habsurd⟩
        · exact ih hrest
        · cases habsurd

theorem acceptedUpdate_error {rng : Rng} {equivalent : Bool} {responseCode : Int}
    {responseMessage : Text} {now : Date} {e : OutboxError}
    (hfound : ∃ p, s.itemLocation selection.item.itemId = .ok p)
    (herror : acceptedUpdate rng selection remoteHeight equivalent responseCode responseMessage now
      s = .error e) : e = .invalidTransition ∨ e = .invalidSchedule := by
  obtain ⟨⟨b,x⟩,hlocation⟩ := hfound
  rcases bind_error herror with herror | ⟨_,_,habsurd⟩
  · unfold Snapshot.recordAccepted at herror
    rw [hlocation] at herror
    rcases bind_error herror with habsurd | ⟨_,hfirst,herror⟩
    · cases habsurd
    · cases hfirst
      dsimp only at herror
      split at herror
      · cases herror
        exact .inl rfl
      · rcases bind_error herror with herror | ⟨_,_,habsurd⟩
        · unfold Snapshot.rescheduleOverdueItems at herror
          split at herror
          · cases herror
            exact .inr rfl
          · rcases bind_error herror with herror | ⟨_,_,habsurd⟩
            · exact .inr (rescheduleFrom_error herror)
            · cases habsurd
        · cases habsurd
  · cases habsurd

/-- However the app and the runner interleave, what was handed over is remembered, as long as no
acknowledgement takes an attempted item away with the batch of another. -/
theorem handedOver_remembered {sys : OutboxSystem}
    (hrun : GuardedRuns (OutboxSystem.perform digestHex) KeepsAttempts .empty sys) :
    Remembers sys := by
  have hs := run_tracked hrun
  refine ⟨fun h hh => (hs.attempted h hh).reported,?_⟩
  intro selection remoteHeight hsent rng equivalent responseCode responseMessage now herror
  obtain ⟨b,hb,-,x,hx,hxid,-⟩ := hs.flight ⟨selection.batchId,selection.item⟩ (by rw [hsent]; rfl)
  rcases acceptedUpdate_error (itemLocation_found hb hx hxid) herror with habsurd | habsurd <;>
    cases habsurd

/-- The first item of a batch is sent and its outcome stays unknown. -/
def uncertainFirst : List SystemStep :=
  [.stage (stagedBatch ['b'] [stagedItem ['x'] 0,stagedItem ['y'] 1]),
    .armBatch ['b'] [(['x'],[]),(['y'],[])] 0,.inspect 0,.select 10 [] 0 true,.send,
    .uncertain [] 0]

theorem uncertainFirst_remembered : ∃ sys : OutboxSystem, sys.handedOver.length = 1 ∧
    Remembers sys := by
  obtain ⟨sys,hexecute,hhanded⟩ : ∃ sys, guardedExecute (OutboxSystem.perform noDigest)
      KeepsAttempts uncertainFirst .empty = some sys ∧ sys.handedOver.length = 1 := ⟨_,rfl,rfl⟩
  exact ⟨sys,hhanded,handedOver_remembered (guardedRuns_of_execute hexecute)⟩

/-- The second item is rejected; its acknowledgement takes the batch away. -/
def acknowledgedSecond : List SystemStep :=
  uncertainFirst ++ [.inspect 0,.select 10 [] 0 true,.send,.rejected 1 [] 0,
    .acknowledgeReceipts [receiptIdOf ['b'] ['y'] .rejected]]

/-- The receipt of an expired peer is acknowledged while the other item is on its way. -/
def acknowledgedInFlight : List SystemStep :=
  [.stage (stagedBatch ['b'] [stagedItem ['x'] 0,{ stagedItem ['y'] 1 with expiryHeight := 11 }]),
    .armBatch ['b'] [(['x'],[]),(['y'],[])] 0,.inspect 0,.select 11 [] 0 true,
    .armBatch ['b'] [(['x'],[])] 0,.inspect 0,.select 11 [] 0 true,.send,
    .acknowledgeReceipts [receiptIdOf ['b'] ['y'] .expired]]

/-- Acknowledging one item forgets the other, whether its outcome is uncertain or still to come. -/
theorem handedOver_forgotten :
    (¬ ∀ sys, Runs (OutboxSystem.perform noDigest) .empty sys →
      ∀ h ∈ sys.handedOver, h.Reported sys.snapshot) ∧
    ¬ ∀ sys, Runs (OutboxSystem.perform noDigest) .empty sys →
      ∀ selection remoteHeight, sys.runner = .sent selection remoteHeight →
        ∀ rng equivalent responseCode responseMessage now,
          acceptedUpdate rng selection remoteHeight equivalent responseCode responseMessage now
            sys.snapshot ≠ .error .itemNotFound := by
  refine ⟨fun hclaim => ?_,fun hclaim => ?_⟩
  · obtain ⟨sys,hexecute,⟨h,hh⟩,hgone⟩ : ∃ sys, execute (OutboxSystem.perform noDigest)
        acknowledgedSecond .empty = .ok sys ∧ (∃ h, h ∈ sys.handedOver) ∧
          sys.snapshot.batches = [] := ⟨_,rfl,⟨_,List.mem_cons_self ..⟩,rfl⟩
    obtain ⟨b,hb,-⟩ := hclaim sys (runs_of_execute hexecute) h hh
    rw [hgone] at hb
    cases hb
  · obtain ⟨sys,hexecute,selection,remoteHeight,hsent,haccepted⟩ : ∃ sys,
        execute (OutboxSystem.perform noDigest) acknowledgedInFlight .empty = .ok sys ∧
          ∃ selection remoteHeight, sys.runner = .sent selection remoteHeight ∧
            acceptedUpdate default selection remoteHeight false 0 [] 0 sys.snapshot =
              .error .itemNotFound := ⟨_,rfl,_,_,rfl,rfl⟩
    exact hclaim sys (runs_of_execute hexecute) selection remoteHeight hsent default false 0 [] 0
      haccepted

end CoppiceWallet.Outbox
