import CoppiceWallet.Outbox.Changes

/-! # Receipts and the items that wait for the app -/

namespace CoppiceWallet.Outbox

open CoppiceWallet.Lib CoppiceWallet.Store

def Snapshot.items (s : Snapshot) : List Item := s.batches.flatMap Batch.items

def Batch.awaiting (batch : Batch) : List Slot :=
  (batch.items.filter fun item => item.status.awaiting).map batch.slot

def Snapshot.awaiting (s : Snapshot) : List Slot := s.batches.flatMap Batch.awaiting

structure Coherent (s : Snapshot) : Prop where
  batchIds : (s.batches.map Batch.batchId).Nodup
  itemIds : (s.items.map Item.itemId).Nodup
  paired : (s.receipts.map Receipt.slot).Perm s.awaiting
  named : ∀ r ∈ s.receipts, r.Named
  payload : ∀ x ∈ s.items, x.rawTransaction ≠ []

variable {op : OutboxOperation} {b : Batch} {s s' : Snapshot}

theorem mem_items {x : Item} : x ∈ s.items ↔ ∃ b ∈ s.batches, x ∈ b.items := List.mem_flatMap

theorem mem_awaiting {slot : Slot} : slot ∈ s.awaiting ↔
    ∃ b ∈ s.batches, ∃ x ∈ b.items, x.status.awaiting = true ∧ b.slot x = slot := by
  simp [Snapshot.awaiting,Batch.awaiting,and_assoc]

theorem awaiting_itemIds (s : Snapshot) :
    (s.awaiting.map Slot.itemId).Sublist (s.items.map Item.itemId) := by
  unfold Snapshot.awaiting Snapshot.items
  induction s.batches with
  | nil => exact .slnil
  | cons b bs ih =>
    rw [List.flatMap_cons,List.flatMap_cons,List.map_append,List.map_append]
    refine List.Sublist.append ?_ ih
    rw [Batch.awaiting,List.map_map]
    exact List.filter_sublist.map _

theorem Coherent.receipt_itemIds (h : Coherent s) : (s.receipts.map Receipt.itemId).Nodup := by
  have hperm := h.paired.map Slot.itemId
  rw [List.map_map] at hperm
  exact hperm.nodup_iff.mpr (h.itemIds.sublist (awaiting_itemIds s))

theorem Coherent.receipt_unique (h : Coherent s) {r r' : Receipt} (hr : r ∈ s.receipts)
    (hr' : r' ∈ s.receipts) (hid : r.itemId = r'.itemId) : r = r' :=
  List.inj_on_of_nodup_map h.receipt_itemIds hr hr' hid

theorem Coherent.item_unique (h : Coherent s) {x y : Item} (hx : x ∈ s.items) (hy : y ∈ s.items)
    (hid : x.itemId = y.itemId) : x = y :=
  List.inj_on_of_nodup_map h.itemIds hx hy hid

theorem Coherent.batch_unique (h : Coherent s) {b b' : Batch} (hb : b ∈ s.batches)
    (hb' : b' ∈ s.batches) (hid : b.batchId = b'.batchId) : b = b' :=
  List.inj_on_of_nodup_map h.batchIds hb hb' hid

theorem Coherent.item_of_receipt (h : Coherent s) {r : Receipt} (hr : r ∈ s.receipts) :
    ∃ b ∈ s.batches, ∃ x ∈ b.items, b.slot x = r.slot := by
  have hslot := h.paired.mem_iff.mp (List.mem_map_of_mem hr)
  obtain ⟨b,hb,x,hx,-,hslot⟩ := mem_awaiting.mp hslot
  exact ⟨b,hb,x,hx,hslot⟩

theorem Coherent.receipt_of_item (h : Coherent s) {b : Batch} {x : Item} (hb : b ∈ s.batches)
    (hx : x ∈ b.items) (hawaiting : x.status.awaiting = true) :
    ∃ r ∈ s.receipts, r.slot = b.slot x := by
  have hslot := h.paired.mem_iff.mpr (mem_awaiting.mpr ⟨b,hb,x,hx,hawaiting,rfl⟩)
  exact List.mem_map.mp hslot

theorem coherent_empty : Coherent Snapshot.empty :=
  ⟨.nil,.nil,.nil,fun _ h => (nomatch h),fun _ h => (nomatch h)⟩

theorem itemChanges_awaiting {xs : List Item} {qs : List (Item × Option Receipt)}
    (h : List.Forall₂ (ItemChange op b) xs qs) :
    (((qs.map Prod.fst).filter fun x => x.status.awaiting).map b.slot).Perm
      ((xs.filter fun x => x.status.awaiting).map b.slot ++
        (qs.filterMap Prod.snd).map Receipt.slot) := by
  induction h with
  | nil => exact .nil
  | @cons x q xs qs hq _ ih =>
    rw [List.map_cons,List.filter_cons,List.filter_cons,List.filterMap_cons]
    cases hreceipt : q.2 with
    | none =>
      rcases hq.quiet hreceipt with hstatus | ⟨hq',hx⟩
      · have hslot : b.slot q.1 = b.slot x := by
          rw [Batch.slot,hq.itemId,hq.txidHex,hstatus]
          rfl
        rw [hstatus]
        split
        · rw [List.map_cons,List.map_cons,hslot]
          exact ih.cons _
        · exact ih
      · rw [hq',hx]
        exact ih
    | some r =>
      obtain ⟨hx,hslot,-⟩ := hq.receipt r hreceipt
      have hawaiting : q.1.status.awaiting = true := by
        have hstatus := congrArg Slot.status hslot
        rw [← show r.outcome.status = q.1.status from hstatus]
        exact ReceiptOutcome.status_awaiting _
      rw [hx,if_pos hawaiting,if_neg Bool.false_ne_true,List.map_cons,List.map_cons,hslot]
      exact (ih.cons _).trans List.perm_middle.symm

variable {p : Batch × List Receipt}

theorem BatchChange.awaiting (h : BatchChange op b p) :
    p.1.awaiting.Perm (b.awaiting ++ p.2.map Receipt.slot) := by
  obtain ⟨qs,hqs,hitems,hreceipts⟩ := h.items
  have hslot : p.1.slot = b.slot := by
    funext x
    rw [Batch.slot,h.batchId,Batch.slot]
  rw [Batch.awaiting,hslot,hitems,hreceipts]
  exact itemChanges_awaiting hqs

theorem BatchChange.itemIds (h : BatchChange op b p) :
    p.1.items.map Item.itemId = b.items.map Item.itemId := by
  obtain ⟨qs,hqs,hitems,-⟩ := h.items
  rw [hitems,List.map_map]
  exact forall₂_map_eq hqs fun x q hq => hq.itemId

theorem BatchChange.item (h : BatchChange op b p) {y : Item} (hy : y ∈ p.1.items) :
    ∃ x ∈ b.items, ∃ receipt, ItemChange op b x (y,receipt) := by
  obtain ⟨qs,hqs,hitems,-⟩ := h.items
  rw [hitems] at hy
  obtain ⟨q,hq,rfl⟩ := List.mem_map.mp hy
  obtain ⟨x,hx,hchange⟩ := forall₂_mem_right hqs hq
  exact ⟨x,hx,q.2,hchange⟩

theorem BatchChange.receipt_named (h : BatchChange op b p) :
    ∀ r ∈ p.2, r.Named ∧ r.batchId = b.batchId := by
  obtain ⟨qs,hqs,-,hreceipts⟩ := h.items
  rw [hreceipts]
  intro r hr
  obtain ⟨q,hq,hqr⟩ := List.mem_filterMap.mp hr
  obtain ⟨x,_,hchange⟩ := forall₂_mem_right hqs hq
  obtain ⟨-,hslot,hnamed⟩ := hchange.receipt r hqr
  exact ⟨hnamed,congrArg Slot.batchId hslot⟩

theorem batchChanges_awaiting {bs : List Batch} {ps : List (Batch × List Receipt)}
    (h : List.Forall₂ (BatchChange op) bs ps) :
    ((ps.map Prod.fst).flatMap Batch.awaiting).Perm
      (bs.flatMap Batch.awaiting ++ (ps.flatMap Prod.snd).map Receipt.slot) := by
  induction h with
  | nil => exact .nil
  | @cons b p bs ps hp _ ih =>
    rw [List.map_cons,List.flatMap_cons,List.flatMap_cons,List.flatMap_cons,List.map_append]
    refine (hp.awaiting.append ih).trans ?_
    rw [List.append_assoc,List.append_assoc]
    refine List.Perm.append_left _ ?_
    rw [← List.append_assoc,← List.append_assoc]
    exact List.perm_append_comm.append_right _

theorem batchChanges_itemIds {bs : List Batch} {ps : List (Batch × List Receipt)}
    (h : List.Forall₂ (BatchChange op) bs ps) :
    ((ps.map Prod.fst).flatMap Batch.items).map Item.itemId =
      (bs.flatMap Batch.items).map Item.itemId := by
  induction h with
  | nil => rfl
  | cons hp _ ih =>
    rw [List.map_cons,List.flatMap_cons,List.flatMap_cons,List.map_append,List.map_append,
      hp.itemIds,ih]

theorem Changed.batch (h : Changed op s s') {c : Batch} (hc : c ∈ s'.batches) :
    ∃ b ∈ s.batches, ∃ receipts, BatchChange op b (c,receipts) := by
  obtain ⟨ps,hps,hbatches,-⟩ := h
  rw [hbatches] at hc
  obtain ⟨p,hp,rfl⟩ := List.mem_map.mp hc
  obtain ⟨b,hb,hchange⟩ := forall₂_mem_right hps hp
  exact ⟨b,hb,p.2,hchange⟩

theorem Changed.coherent (h : Changed op s s') (hs : Coherent s) : Coherent s' := by
  have hback := @Changed.batch op s s' h
  obtain ⟨ps,hps,hbatches,hreceipts⟩ := h
  constructor
  · have hids : ps.map (Batch.batchId ∘ Prod.fst) = s.batches.map Batch.batchId :=
      forall₂_map_eq hps fun b p hp => hp.batchId
    rw [hbatches,List.map_map,hids]
    exact hs.batchIds
  · rw [Snapshot.items,hbatches,batchChanges_itemIds hps]
    exact hs.itemIds
  · rw [Snapshot.awaiting,hbatches,hreceipts,List.map_append]
    exact (hs.paired.append_right _).trans (batchChanges_awaiting hps).symm
  · intro r hr
    rw [hreceipts,List.mem_append] at hr
    rcases hr with hr | hr
    · exact hs.named r hr
    · obtain ⟨p,hp,hr⟩ := List.mem_flatMap.mp hr
      obtain ⟨b,_,hchange⟩ := forall₂_mem_right hps hp
      exact (hchange.receipt_named r hr).1
  · intro y hy
    obtain ⟨c,hc,hy⟩ := mem_items.mp hy
    obtain ⟨b,hb,receipts,hchange⟩ := hback hc
    obtain ⟨x,hx,_,hitem⟩ := hchange.item hy
    rw [hitem.rawTransaction]
    exact hs.payload x (mem_items.mpr ⟨b,hb,hx⟩)

/-- The items of a batch are in no other batch. -/
def ItemsApart (batch : Batch) (s : Snapshot) : Prop :=
  ∀ b ∈ s.batches, b.batchId ≠ batch.batchId → ∀ x ∈ b.items, ∀ y ∈ batch.items,
    x.itemId ≠ y.itemId

variable {batch : Batch} {digestHex : Bytes → Text}

theorem stageable_itemIds (h : batch.stageable digestHex = true) :
    (batch.items.map Item.itemId).Nodup := by
  simp only [Batch.stageable,Bool.and_eq_true,decide_eq_true_iff] at h
  exact h.1.1.2

theorem stageable_item (h : batch.stageable digestHex = true) {x : Item} (hx : x ∈ batch.items) :
    x.status = .staged ∧ x.rawTransaction ≠ [] := by
  simp only [Batch.stageable,Bool.and_eq_true,List.all_eq_true,decide_eq_true_iff] at h
  have hitem := h.2 x hx
  refine ⟨hitem.2,fun hempty => ?_⟩
  have hpayload := hitem.1.1.1.2
  rw [hempty] at hpayload
  cases hpayload

theorem awaiting_of_staged {items : List Item} (h : ∀ x ∈ items, x.status = .staged) :
    items.filter (fun x => x.status.awaiting) = [] := by
  apply List.filter_eq_nil_iff.mpr
  intro x hx
  rw [h x hx]
  exact Bool.false_ne_true

theorem Staged.receipts (h : Staged batch s s') : s'.receipts = s.receipts := by
  cases h with
  | fresh _ hs' => rw [hs']
  | extended _ _ _ _ _ _ hs' => rw [hs']

theorem Staged.batchIds (h : Staged batch s s') (hs : (s.batches.map Batch.batchId).Nodup) :
    (s'.batches.map Batch.batchId).Nodup := by
  cases h with
  | fresh hfresh hs' =>
    rw [hs',List.map_append,List.map_singleton,List.nodup_append]
    refine ⟨hs,List.nodup_singleton _,fun a ha c hc => ?_⟩
    obtain ⟨b,hb,rfl⟩ := List.mem_map.mp ha
    rw [List.mem_singleton.mp hc]
    exact hfresh b hb
  | extended b b' l r added hsplit hs' _ hbatchId =>
    rw [hs',List.map_append,List.map_cons,hbatchId,← List.map_cons,← List.map_append,← hsplit]
    exact hs

theorem Staged.items (h : Staged batch s s') (happart : ItemsApart batch s) (hs : Coherent s) :
    ∃ added, added.Sublist batch.items ∧ s'.items.Perm (s.items ++ added) ∧
      ∀ a ∈ added, ∀ x ∈ s.items, x.itemId ≠ a.itemId := by
  cases h with
  | fresh hfresh hs' =>
    refine ⟨batch.items,.refl _,?_,fun a ha x hx => ?_⟩
    · rw [hs',Snapshot.items,List.flatMap_append,List.flatMap_singleton]
      exact .refl _
    · obtain ⟨b,hb,hx⟩ := mem_items.mp hx
      exact happart b hb (hfresh b hb) x hx a ha
  | extended b b' l r added hsplit hs' hid hbatchId _ _ _ _ hitems hadded hnew =>
    refine ⟨added,hadded,?_,fun a ha x hx => ?_⟩
    · rw [hs',Snapshot.items,Snapshot.items,hsplit,List.flatMap_append,List.flatMap_cons,
        List.flatMap_append,List.flatMap_cons,hitems,List.append_assoc,List.append_assoc,
        List.append_assoc]
      exact ((List.perm_append_comm.append_left _).append_left _)
    · obtain ⟨c,hc,hx⟩ := mem_items.mp hx
      by_cases hcid : c.batchId = batch.batchId
      · have hbmem : b ∈ s.batches := hsplit ▸ List.mem_append_right _ (List.mem_cons_self ..)
        rw [hs.batch_unique hc hbmem (hcid.trans hid.symm)] at hx
        exact hnew a ha x hx
      · exact happart c hc hcid x hx a (hadded.subset ha)

theorem Staged.awaiting (h : Staged batch s s') (hstaged : ∀ x ∈ batch.items, x.status = .staged) :
    s'.awaiting = s.awaiting := by
  cases h with
  | fresh hfresh hs' =>
    rw [hs',Snapshot.awaiting,List.flatMap_append,List.flatMap_singleton,Batch.awaiting,
      awaiting_of_staged hstaged]
    exact List.append_nil _
  | extended b b' l r added hsplit hs' hid hbatchId _ _ _ _ hitems hadded =>
    have hslot : b'.slot = b.slot := by
      funext x
      rw [Batch.slot,hbatchId,Batch.slot]
    have hbatch : b'.awaiting = b.awaiting := by
      rw [Batch.awaiting,hitems,hslot,List.filter_append,
        awaiting_of_staged fun x hx => hstaged x (hadded.subset hx),List.append_nil,Batch.awaiting]
    rw [hs',Snapshot.awaiting,Snapshot.awaiting,hsplit,List.flatMap_append,List.flatMap_append,
      List.flatMap_cons,List.flatMap_cons,hbatch]

theorem Staged.coherent (h : Staged batch s s') (hstageable : batch.stageable digestHex = true)
    (happart : ItemsApart batch s) (hs : Coherent s) : Coherent s' := by
  obtain ⟨added,hadded,hitems,hnew⟩ := h.items happart hs
  constructor
  · exact h.batchIds hs.batchIds
  · rw [(hitems.map Item.itemId).nodup_iff,List.map_append,List.nodup_append]
    refine ⟨hs.itemIds,(stageable_itemIds hstageable).sublist (hadded.map _),fun i hi j hj => ?_⟩
    obtain ⟨x,hx,rfl⟩ := List.mem_map.mp hi
    obtain ⟨a,ha,rfl⟩ := List.mem_map.mp hj
    exact hnew a ha x hx
  · rw [h.receipts,h.awaiting fun x hx => (stageable_item hstageable hx).1]
    exact hs.paired
  · rw [h.receipts]
    exact hs.named
  · intro x hx
    rcases List.mem_append.mp (hitems.mem_iff.mp hx) with hx | hx
    · exact hs.payload x hx
    · exact (stageable_item hstageable (hadded.subset hx)).2

variable {receiptIds : List Text}

/-- What stays when receipts are acknowledged. -/
def Snapshot.keeps (receiptIds : List Text) (s : Snapshot) (slot : Slot) : Bool :=
  !(s.removableTerminalBatchIds receiptIds).contains slot.batchId &&
    !((s.acknowledged receiptIds).map Receipt.itemId).contains slot.itemId

theorem mem_acknowledged {r : Receipt} :
    r ∈ s.acknowledged receiptIds ↔ r ∈ s.receipts ∧ r.receiptId ∈ receiptIds := by
  rw [Snapshot.acknowledged,List.mem_filter,List.contains_iff_mem]

theorem mem_removable {batchId : Text} :
    batchId ∈ s.removableTerminalBatchIds receiptIds ↔
      (∃ r ∈ s.receipts, r.receiptId ∈ receiptIds ∧ r.outcome.terminal = true ∧
        r.batchId = batchId) ∧
      ∀ r ∈ s.receipts, r.batchId = batchId → r.receiptId ∈ receiptIds := by
  simp only [Snapshot.removableTerminalBatchIds,Snapshot.acknowledged,List.mem_filter,List.mem_map,
    Bool.not_eq_true',List.any_eq_false,Bool.and_eq_true,decide_eq_true_iff,
    List.contains_iff_mem]
  constructor
  · intro h
    obtain ⟨⟨r,⟨⟨hr,hid⟩,hterminal⟩,hbatch⟩,hall⟩ := h
    refine ⟨⟨r,hr,hid,hterminal,hbatch⟩,fun r' hr' hbatch' => ?_⟩
    by_contra habsurd
    exact hall r' hr' ⟨by simpa using habsurd,hbatch'⟩
  · intro h
    obtain ⟨⟨r,hr,hid,hterminal,hbatch⟩,hall⟩ := h
    refine ⟨⟨r,⟨⟨hr,hid⟩,hterminal⟩,hbatch⟩,fun r' hr' habsurd => ?_⟩
    have hid' := hall r' hr' habsurd.2
    simp [hid'] at habsurd

theorem Coherent.keeps_receipt (h : Coherent s) {r : Receipt} (hr : r ∈ s.receipts) :
    s.keeps receiptIds r.slot = !receiptIds.contains r.receiptId := by
  rw [Bool.eq_iff_iff]
  simp only [Snapshot.keeps,Bool.and_eq_true,Bool.not_eq_true',List.contains_eq_mem,
    decide_eq_false_iff_not]
  constructor
  · intro hkeeps hid
    exact hkeeps.2 (List.mem_map_of_mem (mem_acknowledged.mpr ⟨hr,hid⟩))
  · intro hid
    refine ⟨fun habsurd => hid ((mem_removable.mp habsurd).2 r hr rfl),fun habsurd => ?_⟩
    obtain ⟨r',hr',hitem⟩ := List.mem_map.mp habsurd
    obtain ⟨hr',hid'⟩ := mem_acknowledged.mp hr'
    rw [h.receipt_unique hr' hr hitem] at hid'
    exact hid hid'

/-- The batches that an acknowledgement leaves, with the items it leaves them. -/
def keptItems (acknowledgedItemIds : List Text) (batch : Batch) : Batch :=
  { batch with items := batch.items.filter fun item => !acknowledgedItemIds.contains item.itemId }

def Batch.stays (batch : Batch) : Bool :=
  !(batch.items.isEmpty && batch.nextProofHeight.isNone &&
    batch.broadcastCompleteNotificationPendingAt.isNone)

theorem acknowledge_batches (receiptIds : List Text) (s : Snapshot) :
    (s.acknowledgeReceipts receiptIds).batches =
      ((s.batches.filter fun batch =>
        !(s.removableTerminalBatchIds receiptIds).contains batch.batchId).map
          (keptItems ((s.acknowledged receiptIds).map Receipt.itemId))).filter Batch.stays := rfl

theorem keptItems_awaiting {removable acknowledgedItemIds : List Text}
    (h : removable.contains batch.batchId = false) :
    (keptItems acknowledgedItemIds batch).awaiting =
      batch.awaiting.filter fun slot => !removable.contains slot.batchId &&
        !acknowledgedItemIds.contains slot.itemId := by
  rw [Batch.awaiting,Batch.awaiting,List.filter_map,keptItems,List.filter_filter,
    List.filter_filter]
  have hslot : (keptItems acknowledgedItemIds batch).slot = batch.slot := rfl
  refine congrArg (List.map batch.slot) (List.filter_congr fun x _ => ?_)
  show _ = ((!removable.contains batch.batchId && !acknowledgedItemIds.contains x.itemId) && _)
  rw [h,Bool.not_false,Bool.true_and,Bool.and_comm]

theorem kept_awaiting (removable acknowledgedItemIds : List Text) (bs : List Batch) :
    (((bs.filter fun batch => !removable.contains batch.batchId).map
      (keptItems acknowledgedItemIds)).filter Batch.stays).flatMap Batch.awaiting =
    (bs.flatMap Batch.awaiting).filter fun slot => !removable.contains slot.batchId &&
      !acknowledgedItemIds.contains slot.itemId := by
  induction bs with
  | nil => rfl
  | cons b bs ih =>
    rw [List.flatMap_cons,List.filter_append,← ih]
    by_cases hb : removable.contains b.batchId = true
    · have hgone : b.awaiting.filter (fun slot => !removable.contains slot.batchId &&
          !acknowledgedItemIds.contains slot.itemId) = [] := by
        apply List.filter_eq_nil_iff.mpr
        intro slot hslot
        obtain ⟨x,_,rfl⟩ := List.mem_map.mp hslot
        simp only [Batch.slot,hb,Bool.not_true,Bool.false_and]
        exact Bool.false_ne_true
      rw [hgone,List.filter_cons_of_neg (by simp only [hb]; decide),List.nil_append]
    · have hb := Bool.eq_false_iff.mpr hb
      rw [← keptItems_awaiting hb,List.filter_cons_of_pos (by simp only [hb]; decide),List.map_cons]
      by_cases hstays : (keptItems acknowledgedItemIds b).stays = true
      · rw [List.filter_cons_of_pos hstays,List.flatMap_cons]
      · have hnone : (keptItems acknowledgedItemIds b).items = [] := by
          by_contra hitems
          apply hstays
          simp [Batch.stays,hitems]
        rw [List.filter_cons_of_neg hstays,Batch.awaiting,hnone]
        rfl

theorem acknowledge_items (receiptIds : List Text) (s : Snapshot) :
    (s.acknowledgeReceipts receiptIds).items.Sublist s.items := by
  rw [Snapshot.items,acknowledge_batches,Snapshot.items]
  induction s.batches with
  | nil => exact .slnil
  | cons b bs ih =>
    rw [List.flatMap_cons]
    by_cases hb : (!(s.removableTerminalBatchIds receiptIds).contains b.batchId) = true
    · rw [List.filter_cons,if_pos hb,List.map_cons]
      by_cases hstays :
          (keptItems ((s.acknowledged receiptIds).map Receipt.itemId) b).stays = true
      · rw [List.filter_cons_of_pos hstays,List.flatMap_cons]
        exact List.Sublist.append List.filter_sublist ih
      · rw [List.filter_cons_of_neg hstays]
        exact ih.trans (List.sublist_append_right _ _)
    · rw [List.filter_cons,if_neg hb]
      exact ih.trans (List.sublist_append_right _ _)

theorem acknowledge_batchIds (receiptIds : List Text) (s : Snapshot) :
    ((s.acknowledgeReceipts receiptIds).batches.map Batch.batchId).Sublist
      (s.batches.map Batch.batchId) := by
  rw [acknowledge_batches]
  refine (List.filter_sublist.map _).trans ?_
  rw [List.map_map]
  exact List.filter_sublist.map Batch.batchId

theorem acknowledge_coherent (hs : Coherent s) : Coherent (s.acknowledgeReceipts receiptIds) := by
  constructor
  · exact hs.batchIds.sublist (acknowledge_batchIds receiptIds s)
  · exact hs.itemIds.sublist ((acknowledge_items receiptIds s).map _)
  · have hslots : (s.acknowledgeReceipts receiptIds).receipts.map Receipt.slot =
        (s.receipts.map Receipt.slot).filter (s.keeps receiptIds) := by
      rw [List.filter_map]
      refine congrArg (List.map Receipt.slot) (List.filter_congr fun r hr => ?_)
      exact (hs.keeps_receipt hr).symm
    rw [hslots,Snapshot.awaiting,acknowledge_batches,kept_awaiting]
    exact hs.paired.filter _
  · intro r hr
    exact hs.named r (List.mem_filter.mp hr).1
  · intro x hx
    exact hs.payload x ((acknowledge_items receiptIds s).subset hx)

end CoppiceWallet.Outbox
