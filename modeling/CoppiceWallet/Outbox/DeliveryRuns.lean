import CoppiceWallet.Outbox.Delivery

/-! # Runs of the outbox -/

namespace CoppiceWallet.Outbox

open CoppiceWallet.Lib CoppiceWallet.Store

variable {op : OutboxOperation} {digestHex : Bytes → Text} {s s' t u : Snapshot} {batchId : Text}

instance (batch : Batch) (s : Snapshot) : Decidable (ItemsApart batch s) :=
  inferInstanceAs (Decidable (∀ b ∈ s.batches, b.batchId ≠ batch.batchId → ∀ x ∈ b.items,
    ∀ y ∈ batch.items, x.itemId ≠ y.itemId))

/-- Staged items are in no other batch. -/
def ItemsFresh (op : OutboxOperation) (s : Snapshot) : Prop :=
  match op with
  | .stage batch => ItemsApart batch s
  | _ => True

instance (op : OutboxOperation) (s : Snapshot) : Decidable (ItemsFresh op s) := by
  unfold ItemsFresh
  split <;> infer_instance

/-- A submission begins only while none is under way. -/
def OneAtATime (op : OutboxOperation) (s : Snapshot) : Prop :=
  match op with
  | .beginSubmission _ _ _ => ∀ x ∈ s.items, x.status ≠ .submitting
  | _ => True

theorem apply_cases (h : op.apply digestHex s = .ok s') :
    Changed op s s' ∨
    (∃ batch, op = .stage batch ∧ batch.stageable digestHex = true ∧ Staged batch s s') ∨
    ∃ receiptIds, op = .acknowledgeReceipts receiptIds ∧ s' = s.acknowledgeReceipts receiptIds := by
  cases op with
  | stage batch =>
    obtain ⟨hstageable,hstaged⟩ := stage_ok h
    exact .inr (.inl ⟨batch,rfl,hstageable,hstaged⟩)
  | armBatch => exact .inl (armBatch_changed rfl h)
  | recoverBatch => exact .inl (recoverBatch_changed rfl h)
  | recoverInterruptedSubmissions =>
    obtain rfl := Except.ok.inj h
    exact .inl (recoverInterruptedSubmissions_changed ..)
  | expireItems =>
    obtain rfl := Except.ok.inj h
    exact .inl (expireItems_changed ..)
  | markDueItemsNeedingResign =>
    obtain rfl := Except.ok.inj h
    exact .inl (markDueItemsNeedingResign_changed ..)
  | selectDue =>
    obtain rfl := Except.ok.inj h
    exact .inl (selectDue_changed ..)
  | beginSubmission => exact .inl (beginSubmission_changed rfl h)
  | recordUncertain => exact .inl (recordUncertain_changed h)
  | recordCancelledBeforeSubmission => exact .inl (recordCancelledBeforeSubmission_changed rfl h)
  | recordAccepted => exact .inl (recordAccepted_changed h)
  | recordRejected => exact .inl (recordRejected_changed h)
  | acknowledgeReceipts receiptIds => exact .inr (.inr ⟨receiptIds,rfl,(Except.ok.inj h).symm⟩)

theorem apply_coherent (hfresh : ItemsFresh op s) (h : op.apply digestHex s = .ok s')
    (hs : Coherent s) : Coherent s' := by
  rcases apply_cases h with hchanged | ⟨batch,rfl,hstageable,hstaged⟩ | ⟨receiptIds,rfl,rfl⟩
  · exact hchanged.coherent hs
  · exact hstaged.coherent hstageable hfresh hs
  · exact acknowledge_coherent hs

theorem run_coherent (h : GuardedRuns (OutboxOperation.apply digestHex) ItemsFresh s t)
    (hs : Coherent s) : Coherent t :=
  h.invariant (fun _ _ _ hs hfresh hstep => apply_coherent hfresh hstep hs) hs

/-- The items that wait for the app and the receipts correspond. -/
structure OneToOne (s : Snapshot) : Prop where
  receipt : ∀ b ∈ s.batches, ∀ x ∈ b.items, x.status.awaiting = true →
    ∃! r, r ∈ s.receipts ∧ r.slot = b.slot x
  item : ∀ r ∈ s.receipts, ∃! p : Batch × Item,
    p.1 ∈ s.batches ∧ p.2 ∈ p.1.items ∧ p.1.slot p.2 = r.slot
  transaction : ∀ r ∈ s.receipts, ∃ raw, s.receiptTransaction r = some raw ∧ raw ≠ []

theorem Coherent.oneToOne (h : Coherent s) : OneToOne s := by
  have hitem : ∀ r ∈ s.receipts, ∃ b ∈ s.batches, ∃ x ∈ b.items, b.slot x = r.slot ∧
      ∀ c ∈ s.batches, ∀ y ∈ c.items, y.itemId = r.itemId → c.batchId = r.batchId →
        c = b ∧ y = x := by
    intro r hr
    obtain ⟨b,hb,x,hx,hslot⟩ := h.item_of_receipt hr
    refine ⟨b,hb,x,hx,hslot,fun c hc y hy hyid hcid => ⟨?_,?_⟩⟩
    · exact h.batch_unique hc hb (hcid.trans (congrArg Slot.batchId hslot).symm)
    · exact h.item_unique (mem_items.mpr ⟨c,hc,hy⟩) (mem_items.mpr ⟨b,hb,hx⟩)
        (hyid.trans (congrArg Slot.itemId hslot).symm)
  constructor
  · intro b hb x hx hawaiting
    obtain ⟨r,hr,hslot⟩ := h.receipt_of_item hb hx hawaiting
    refine ⟨r,⟨hr,hslot⟩,fun r' hr' => ?_⟩
    exact h.receipt_unique hr'.1 hr
      ((congrArg Slot.itemId hr'.2).trans (congrArg Slot.itemId hslot).symm)
  · intro r hr
    obtain ⟨b,hb,x,hx,hslot,hunique⟩ := hitem r hr
    refine ⟨(b,x),⟨hb,hx,hslot⟩,fun p hp => ?_⟩
    obtain ⟨hc,hy⟩ := hunique p.1 hp.1 p.2 hp.2.1 (congrArg Slot.itemId hp.2.2)
      (congrArg Slot.batchId hp.2.2)
    exact Prod.ext hc hy
  · intro r hr
    obtain ⟨b,hb,x,hx,hslot,hunique⟩ := hitem r hr
    have hfindBatch : s.batches.find? (isBatch r.batchId) = some b := by
      cases hfind : s.batches.find? (isBatch r.batchId) with
      | none =>
        have hnone := List.find?_eq_none.mp hfind b hb
        exact absurd (decide_eq_true (congrArg Slot.batchId hslot)) hnone
      | some c =>
        have hc : isBatch r.batchId c = true := List.find?_some hfind
        rw [h.batch_unique (List.mem_of_find?_eq_some hfind) hb
          ((of_decide_eq_true hc).trans (congrArg Slot.batchId hslot).symm)]
    have hfindItem : b.items.find? (fun item => decide (item.itemId = r.itemId)) = some x := by
      cases hfind : b.items.find? (fun item => decide (item.itemId = r.itemId)) with
      | none =>
        have hnone := List.find?_eq_none.mp hfind x hx
        exact absurd (decide_eq_true (congrArg Slot.itemId hslot)) hnone
      | some y =>
        have hy := List.find?_some hfind
        rw [(hunique b hb y (List.mem_of_find?_eq_some hfind) (of_decide_eq_true hy)
          (congrArg Slot.batchId hslot)).2]
    refine ⟨x.rawTransaction,?_,h.payload x (mem_items.mpr ⟨b,hb,hx⟩)⟩
    rw [Snapshot.receiptTransaction,hfindBatch]
    show (b.items.find? _ >>= _) = _
    rw [hfindItem]
    rfl

theorem append_colon_inj {a a' c c' : Text} (hc : ':' ∉ c) (hc' : ':' ∉ c')
    (h : a ++ ':' :: c = a' ++ ':' :: c') : a = a' ∧ c = c' := by
  rcases List.append_eq_append_iff.mp h with ⟨d,ha,hd⟩ | ⟨d,ha,hd⟩
  · cases d with
    | nil =>
      rw [List.append_nil] at ha
      exact ⟨ha.symm,by simpa using hd⟩
    | cons e d =>
      rw [List.cons_append,List.cons.injEq] at hd
      rw [hd.2] at hc
      exact absurd (List.mem_append_right _ (List.mem_cons_self ..)) hc
  · cases d with
    | nil =>
      rw [List.append_nil] at ha
      exact ⟨ha,(by simpa using hd : c' = c).symm⟩
    | cons e d =>
      rw [List.cons_append,List.cons.injEq] at hd
      rw [hd.2] at hc'
      exact absurd (List.mem_append_right _ (List.mem_cons_self ..)) hc'

theorem rawValue_colon (outcome : ReceiptOutcome) : ':' ∉ outcome.rawValue := by
  cases outcome <;> decide

theorem Coherent.receiptIds (h : Coherent s) (hcolon : ∀ r ∈ s.receipts, ':' ∉ r.itemId) :
    (s.receipts.map Receipt.receiptId).Nodup := by
  refine List.Nodup.map_on (fun r hr r' hr' hid => ?_) (List.Nodup.of_map _ h.receipt_itemIds)
  rw [h.named r hr,h.named r' hr',receiptIdOf,receiptIdOf] at hid
  obtain ⟨hid,-⟩ := append_colon_inj (rawValue_colon _) (rawValue_colon _) hid
  obtain ⟨-,hitem⟩ := append_colon_inj (hcolon r hr) (hcolon r' hr') hid
  exact h.receipt_unique hr hr' hitem

/-- Submissions are of one item. -/
def OneSubmission (s : Snapshot) : Prop :=
  ∀ x ∈ s.items, ∀ y ∈ s.items, x.status = .submitting → y.status = .submitting → x.itemId = y.itemId

theorem Changed.item (h : Changed op s s') {y : Item} (hy : y ∈ s'.items) :
    ∃ b ∈ s.batches, ∃ x ∈ b.items, ∃ receipt, ItemChange op b x (y,receipt) := by
  obtain ⟨c,hc,hy⟩ := mem_items.mp hy
  obtain ⟨b,hb,receipts,hchange⟩ := h.batch hc
  obtain ⟨x,hx,receipt,hitem⟩ := hchange.item hy
  exact ⟨b,hb,x,hx,receipt,hitem⟩

theorem Changed.submitting (h : Changed op s s') {y : Item} (hy : y ∈ s'.items)
    (hsubmitting : y.status = .submitting) :
    (∃ x ∈ s.items, x.status = .submitting ∧ y.itemId = x.itemId) ∨ op.begins y.itemId := by
  obtain ⟨b,hb,x,hx,_,hitem⟩ := h.item hy
  rcases hitem.submitting hsubmitting with hx' | hbegins
  · exact .inl ⟨x,mem_items.mpr ⟨b,hb,hx⟩,hx',hitem.itemId⟩
  · rw [← hitem.itemId] at hbegins
    exact .inr hbegins

theorem begins_unique {id id' : Text} (h : op.begins id) (h' : op.begins id') : id = id' := by
  cases op with
  | beginSubmission itemId => exact h.trans h'.symm
  | _ => cases h

theorem none_submitting {id : Text} (hone : OneAtATime op s) (h : op.begins id) :
    ∀ x ∈ s.items, x.status ≠ .submitting := by
  cases op with
  | beginSubmission itemId => exact hone
  | _ => cases h

theorem apply_oneSubmission (hcoherent : Coherent s) (hfresh : ItemsFresh op s)
    (hone : OneAtATime op s) (h : op.apply digestHex s = .ok s') (hs : OneSubmission s) :
    OneSubmission s' := by
  rcases apply_cases h with hchanged | ⟨batch,rfl,hstageable,hstaged⟩ | ⟨receiptIds,rfl,rfl⟩
  · intro x hx y hy hxs hys
    rcases hchanged.submitting hx hxs with ⟨x',hx',hxs',hxid⟩ | hbegins
    · rcases hchanged.submitting hy hys with ⟨y',hy',hys',hyid⟩ | hbegins
      · rw [hxid,hyid]
        exact hs x' hx' y' hy' hxs' hys'
      · exact absurd hxs' (none_submitting hone hbegins x' hx')
    · rcases hchanged.submitting hy hys with ⟨y',hy',hys',hyid⟩ | hbegins'
      · exact absurd hys' (none_submitting hone hbegins y' hy')
      · exact begins_unique hbegins hbegins'
  · obtain ⟨added,hadded,hitems,-⟩ := hstaged.items hfresh hcoherent
    have hold : ∀ x ∈ s'.items, x.status = .submitting → x ∈ s.items := by
      intro x hx hxs
      rcases List.mem_append.mp (hitems.mem_iff.mp hx) with hx | hx
      · exact hx
      · rw [(stageable_item hstageable (hadded.subset hx)).1] at hxs
        cases hxs
    intro x hx y hy hxs hys
    exact hs x (hold x hx hxs) y (hold y hy hys) hxs hys
  · have hold := (acknowledge_items receiptIds s).subset
    intro x hx y hy
    exact hs x (hold hx) y (hold hy)

def Snapshot.submittingCount (s : Snapshot) : Nat :=
  s.items.countP fun x => decide (x.status = .submitting)

theorem OneSubmission.count (h : OneSubmission s) (hs : Coherent s) : s.submittingCount ≤ 1 := by
  have hnodup : (s.items.filter fun x => decide (x.status = .submitting)).Nodup :=
    (List.Nodup.of_map _ hs.itemIds).sublist List.filter_sublist
  have hsame : ∀ x ∈ s.items.filter (fun x => decide (x.status = .submitting)),
      ∀ y ∈ s.items.filter (fun x => decide (x.status = .submitting)), x = y := by
    intro x hx y hy
    obtain ⟨hx,hxs⟩ := List.mem_filter.mp hx
    obtain ⟨hy,hys⟩ := List.mem_filter.mp hy
    exact hs.item_unique hx hy (h x hx y hy (of_decide_eq_true hxs) (of_decide_eq_true hys))
  rw [Snapshot.submittingCount,List.countP_eq_length_filter]
  generalize s.items.filter (fun x => decide (x.status = .submitting)) = xs at hnodup hsame
  match xs with
  | [] => exact Nat.zero_le _
  | [_] => exact le_rfl
  | x :: y :: xs =>
    have hxy := hsame x (List.mem_cons_self ..) y (List.mem_cons_of_mem _ (List.mem_cons_self ..))
    rw [hxy] at hnodup
    exact absurd (List.mem_cons_self ..) (List.nodup_cons.mp hnodup).1

theorem run_submittingCount (h : GuardedRuns (OutboxOperation.apply digestHex)
      (fun op s => ItemsFresh op s ∧ OneAtATime op s) Snapshot.empty s) :
    s.submittingCount ≤ 1 := by
  have hboth : Coherent s ∧ OneSubmission s := by
    apply h.invariant (P := fun s => Coherent s ∧ OneSubmission s)
    · intro op s t hs hguard hstep
      exact ⟨apply_coherent hguard.1 hstep hs.1,
        apply_oneSubmission hs.1 hguard.1 hguard.2 hstep hs.2⟩
    · exact ⟨coherent_empty,fun x hx => nomatch hx⟩
  exact hboth.2.count hboth.1

end CoppiceWallet.Outbox
