import CoppiceWallet.Lib.Run
import CoppiceWallet.Outbox.Submission

/-! # What an operation changes -/

namespace CoppiceWallet.Outbox

open CoppiceWallet.Lib CoppiceWallet.Store

inductive OutboxOperation
  | stage (batch : Batch)
  | armBatch (batchId : Text) (expectedDigests : List (Text × Text)) (date : Date)
  | recoverBatch (batchId network accountUuid runId : Text) (expectedTxids : List Text)
      (lightwalletdUrl : Text) (date : Date)
  | recoverInterruptedSubmissions (date : Date)
  | expireItems (remoteHeight : Nat) (endpoint : Text) (date : Date)
  | markDueItemsNeedingResign (remoteHeight : Nat) (endpoint : Text) (date : Date)
  | selectDue (remoteHeight : Nat) (endpoint : Option Text) (date : Date)
  | beginSubmission (itemId attemptId : Text) (date : Date)
  | recordUncertain (itemId error : Text) (date : Date)
  | recordCancelledBeforeSubmission (itemId error : Text)
  | recordAccepted (rng : Rng) (itemId : Text) (equivalent : Bool) (remoteHeight : Nat)
      (responseCode : Int) (responseMessage : Text) (date : Date)
  | recordRejected (itemId : Text) (remoteHeight : Nat) (responseCode : Int)
      (responseMessage : Text) (date : Date)
  | acknowledgeReceipts (receiptIds : List Text)

namespace OutboxOperation

def apply (digestHex : Bytes → Text) : OutboxOperation → Snapshot → OutboxResult Snapshot
  | .stage batch, s => s.stage digestHex batch
  | .armBatch batchId expectedDigests date, s => s.armBatch batchId expectedDigests date
  | .recoverBatch batchId network accountUuid runId expectedTxids lightwalletdUrl date, s =>
    s.recoverBatch batchId network accountUuid runId expectedTxids lightwalletdUrl date
  | .recoverInterruptedSubmissions date, s => .ok (s.recoverInterruptedSubmissions date)
  | .expireItems remoteHeight endpoint date, s => .ok (s.expireItems remoteHeight endpoint date)
  | .markDueItemsNeedingResign remoteHeight endpoint date, s =>
    .ok (s.markDueItemsNeedingResign remoteHeight endpoint date)
  | .selectDue remoteHeight endpoint date, s =>
    .ok ((s.selectDue remoteHeight endpoint date).elim s Prod.snd)
  | .beginSubmission itemId attemptId date, s => s.beginSubmission itemId attemptId date
  | .recordUncertain itemId error date, s => s.recordUncertain itemId error date
  | .recordCancelledBeforeSubmission itemId error, s =>
    s.recordCancelledBeforeSubmission itemId error
  | .recordAccepted rng itemId equivalent remoteHeight responseCode responseMessage date, s =>
    s.recordAccepted rng itemId equivalent remoteHeight responseCode responseMessage date
  | .recordRejected itemId remoteHeight responseCode responseMessage date, s =>
    s.recordRejected itemId remoteHeight responseCode responseMessage date
  | .acknowledgeReceipts receiptIds, s => .ok (s.acknowledgeReceipts receiptIds)

/-- The item that an operation starts to submit. -/
def begins : OutboxOperation → Text → Prop
  | .beginSubmission itemId _ _, id => id = itemId
  | _, _ => False

/-- The item whose submission an operation calls off. -/
def cancels : OutboxOperation → Text → Prop
  | .recordCancelledBeforeSubmission itemId _, id => id = itemId
  | _, _ => False

/-- The batch that an operation may arm. -/
def rearms : OutboxOperation → Text → Prop
  | .armBatch batchId _ _, id => id = batchId
  | .recoverBatch batchId _ _ _ _ _ _, id => id = batchId
  | _, _ => False

end OutboxOperation

def ItemStatus.awaiting : ItemStatus → Bool
  | .staged | .armed | .submitting => false
  | _ => true

/-- The status of an item that has a receipt. -/
def ReceiptOutcome.status : ReceiptOutcome → ItemStatus
  | .accepted | .acceptedEquivalent => .acceptedAwaitingReconciliation
  | .rejected => .rejectedAwaitingReconciliation
  | .expired => .expiredAwaitingReconciliation
  | .needsResign => .needsResignAwaitingReconciliation

@[simp] theorem ReceiptOutcome.status_awaiting (outcome : ReceiptOutcome) :
    outcome.status.awaiting = true := by
  cases outcome <;> rfl

/-- What an item and its receipt agree on. -/
structure Slot where
  batchId : Text
  itemId : Text
  txidHex : Text
  status : ItemStatus
  deriving DecidableEq

def Batch.slot (batch : Batch) (item : Item) : Slot :=
  ⟨batch.batchId,item.itemId,item.txidHex,item.status⟩

def Receipt.slot (receipt : Receipt) : Slot :=
  ⟨receipt.batchId,receipt.itemId,receipt.txidHex,receipt.outcome.status⟩

def receiptIdOf (batchId itemId : Text) (outcome : ReceiptOutcome) : Text :=
  batchId ++ ':' :: itemId ++ ':' :: outcome.rawValue

/-- The id of a receipt is made of its batch, its item and its outcome. -/
def Receipt.Named (receipt : Receipt) : Prop :=
  receipt.receiptId = receiptIdOf receipt.batchId receipt.itemId receipt.outcome

/-- An operation changes an item, and may leave a receipt. -/
structure ItemChange (op : OutboxOperation) (batch : Batch) (x : Item)
    (q : Item × Option Receipt) : Prop where
  itemId : q.1.itemId = x.itemId
  txidHex : q.1.txidHex = x.txidHex
  rawTransaction : q.1.rawTransaction = x.rawTransaction
  submitting : q.1.status = .submitting → x.status = .submitting ∨ op.begins x.itemId
  attempts : x.attemptCount ≤ q.1.attemptCount
  attempted : x.attempted = true → q.1.attempted = true ∨ op.cancels x.itemId
  quiet : q.2 = none →
    q.1.status = x.status ∨ (q.1.status.awaiting = false ∧ x.status.awaiting = false)
  receipt : ∀ r, q.2 = some r →
    x.status.awaiting = false ∧ r.slot = batch.slot q.1 ∧ r.Named

/-- An operation changes a batch and leaves receipts. -/
structure BatchChange (op : OutboxOperation) (b : Batch) (p : Batch × List Receipt) : Prop where
  batchId : p.1.batchId = b.batchId
  network : p.1.network = b.network
  accountUuid : p.1.accountUuid = b.accountUuid
  runId : p.1.runId = b.runId
  items : ∃ qs, List.Forall₂ (ItemChange op b) b.items qs ∧ p.1.items = qs.map Prod.fst ∧
    p.2 = qs.filterMap Prod.snd
  asleep : b.armedAt = none → p.1.armedAt = none ∨ op.rearms b.batchId
  paused : ∀ r ∈ p.2, r.outcome.terminal = true → p.1.armedAt = none

def Changed (op : OutboxOperation) (s s' : Snapshot) : Prop :=
  ∃ ps, List.Forall₂ (BatchChange op) s.batches ps ∧ s'.batches = ps.map Prod.fst ∧
    s'.receipts = s.receipts ++ ps.flatMap Prod.snd

variable {op : OutboxOperation} {b b' : Batch} {s s' : Snapshot}

theorem ItemChange.refl (op : OutboxOperation) (b : Batch) (x : Item) :
    ItemChange op b x (x,none) where
  itemId := rfl
  txidHex := rfl
  rawTransaction := rfl
  submitting := .inl
  attempts := le_rfl
  attempted := .inl
  quiet _ := .inl rfl
  receipt _ h := by cases h

theorem forall₂_itemChange {g : Item → Item} {xs : List Item}
    (hg : ∀ x ∈ xs, ItemChange op b x (g x,none)) :
    List.Forall₂ (ItemChange op b) xs (xs.map fun x => (g x,none)) := by
  induction xs with
  | nil => exact .nil
  | cons x xs ih =>
    exact .cons (hg x (List.mem_cons_self ..)) (ih fun y hy => hg y (List.mem_cons_of_mem _ hy))

theorem filterMap_silent (g : Item → Item) (xs : List Item) :
    (xs.map fun x => (g x,(none : Option Receipt))).filterMap Prod.snd = [] := by
  rw [List.filterMap_map,List.filterMap_eq_nil_iff]
  intro _ _
  rfl

theorem BatchChange.of_map {g : Item → Item} (hid : b'.batchId = b.batchId)
    (hnetwork : b'.network = b.network) (haccount : b'.accountUuid = b.accountUuid)
    (hrun : b'.runId = b.runId) (hitems : b'.items = b.items.map g)
    (hg : ∀ x ∈ b.items, ItemChange op b x (g x,none))
    (harmed : b.armedAt = none → b'.armedAt = none ∨ op.rearms b.batchId) :
    BatchChange op b (b',[]) where
  batchId := hid
  network := hnetwork
  accountUuid := haccount
  runId := hrun
  items := by
    refine ⟨_,forall₂_itemChange hg,?_,(filterMap_silent g b.items).symm⟩
    rw [hitems,List.map_map]
    rfl
  asleep := harmed
  paused r hr := by cases hr

theorem BatchChange.refl (op : OutboxOperation) (b : Batch) : BatchChange op b (b,[]) :=
  .of_map (g := id) rfl rfl rfl rfl (by rw [List.map_id]) (fun x _ => .refl op b x) .inl

variable {x : Item}

theorem BatchChange.of_split {g : Item → Item} {l r : List Item} {q : Item × Option Receipt}
    {receipts : List Receipt} (hreceipts : receipts = q.2.toList) (hid : b'.batchId = b.batchId)
    (hnetwork : b'.network = b.network) (haccount : b'.accountUuid = b.accountUuid)
    (hrun : b'.runId = b.runId) (hb : b.items = l ++ x :: r)
    (hb' : b'.items = l.map g ++ q.1 :: r.map g) (hg : ∀ y, ItemChange op b y (g y,none))
    (hq : ItemChange op b x q) (harmed : b.armedAt = none → b'.armedAt = none ∨ op.rearms b.batchId)
    (hpaused : ∀ r, q.2 = some r → r.outcome.terminal = true → b'.armedAt = none) :
    BatchChange op b (b',receipts) where
  batchId := hid
  network := hnetwork
  accountUuid := haccount
  runId := hrun
  items := by
    refine ⟨(l.map fun y => (g y,none)) ++ q :: r.map fun y => (g y,none),?_,?_,?_⟩
    · rw [hb]
      exact List.rel_append (forall₂_itemChange fun y _ => hg y)
        (.cons hq (forall₂_itemChange fun y _ => hg y))
    · rw [hb',List.map_append,List.map_cons,List.map_map,List.map_map]
      rfl
    · rw [hreceipts,List.filterMap_append,List.filterMap_cons,filterMap_silent,filterMap_silent]
      cases q.2 <;> rfl
  asleep := harmed
  paused receipt hreceipt := hpaused receipt (Option.mem_toList.mp (hreceipts ▸ hreceipt))

theorem forall₂_batchChange {f : Batch → Batch × List Receipt} {bs : List Batch}
    (hf : ∀ b ∈ bs, BatchChange op b (f b)) : List.Forall₂ (BatchChange op) bs (bs.map f) := by
  induction bs with
  | nil => exact .nil
  | cons b bs ih =>
    exact .cons (hf b (List.mem_cons_self ..)) (ih fun c hc => hf c (List.mem_cons_of_mem _ hc))

theorem changed_of_map (f : Batch → Batch × List Receipt)
    (hbatches : s'.batches = s.batches.map fun b => (f b).1)
    (hreceipts : s'.receipts = s.receipts ++ s.batches.flatMap fun b => (f b).2)
    (hf : ∀ b ∈ s.batches, BatchChange op b (f b)) : Changed op s s' := by
  refine ⟨s.batches.map f,forall₂_batchChange hf,?_,?_⟩
  · rw [hbatches,List.map_map]
    rfl
  · rw [hreceipts,List.flatMap_map]

theorem changed_of_split {l r : List Batch} {p : Batch × List Receipt}
    (hs : s.batches = l ++ b :: r) (hs' : s'.batches = l ++ p.1 :: r)
    (hreceipts : s'.receipts = s.receipts ++ p.2) (hp : BatchChange op b p) : Changed op s s' := by
  have hothers : ∀ bs : List Batch, List.Forall₂ (BatchChange op) bs (bs.map fun b => (b,[])) :=
    fun bs => forall₂_batchChange fun b _ => .refl op b
  have hbatches : ∀ bs : List Batch, (bs.map fun b => (b,([] : List Receipt))).map Prod.fst = bs := by
    intro bs
    rw [List.map_map]
    exact List.map_id bs
  have hsilent : ∀ bs : List Batch,
      (bs.map fun b => (b,([] : List Receipt))).flatMap Prod.snd = [] := by
    intro bs
    simp
  refine ⟨l.map (fun b => (b,[])) ++ p :: r.map fun b => (b,[]),?_,?_,?_⟩
  · rw [hs]
    exact List.rel_append (hothers l) (.cons hp (hothers r))
  · rw [hs',List.map_append,List.map_cons,hbatches,hbatches]
  · rw [hreceipts,List.flatMap_append,List.flatMap_cons,hsilent,hsilent,List.nil_append,
      List.append_nil]

theorem onBatch_ok {batchId : Text} {f : Batch → OutboxResult Batch}
    (h : s.onBatch batchId f = .ok s') :
    ∃ b b' l r, s.batches = l ++ b :: r ∧ b.batchId = batchId ∧ f b = .ok b' ∧
      s' = { s with batches := l ++ b' :: r } := by
  unfold Snapshot.onBatch at h
  split at h
  · cases h
  · rename_i b hfind
    obtain ⟨b',hb',h⟩ := bind_ok h
    cases h
    obtain ⟨hid,l,r,hs,hreplace⟩ := replaceFirst_split hfind
    exact ⟨b,b',l,r,hs,of_decide_eq_true hid,hb',by rw [hreplace]⟩

/-- Where an item is, and what replacing it and its batch does. -/
structure Located (itemId : Text) (s : Snapshot) (b : Batch) (x : Item) : Prop where
  isItem : x.itemId = itemId
  batch : ∃ l r, s.batches = l ++ b :: r ∧ ∀ b' receipts,
    s.settle itemId b' receipts =
      { s with batches := l ++ b' :: r, receipts := s.receipts ++ receipts }
  item : ∃ l r, b.items = l ++ x :: r ∧ ∀ y : Item, y.itemId = itemId →
    setItem y b = { b with items := l ++ y :: r }

variable {itemId : Text}

theorem itemLocation_ok (h : s.itemLocation itemId = .ok (b,x)) : Located itemId s b x := by
  unfold Snapshot.itemLocation at h
  split at h
  · cases h
  · rename_i batch hbatch
    split at h
    · cases h
    · rename_i item hitem
      cases h
      obtain ⟨-,l,r,hs,hreplace⟩ := replaceFirst_split hbatch
      obtain ⟨hid,l',r',hb,hreplace'⟩ := replaceFirst_split hitem
      refine ⟨of_decide_eq_true hid,⟨l,r,hs,fun b' receipts => ?_⟩,⟨l',r',hb,fun y hy => ?_⟩⟩
      · rw [Snapshot.settle,hreplace]
      · rw [setItem,hy,hreplace']

theorem Located.changed {receipts : List Receipt} (h : Located itemId s b x)
    (hb : BatchChange op b (b',receipts)) : Changed op s (s.settle itemId b' receipts) := by
  obtain ⟨l,r,hs,hsettle⟩ := h.batch
  rw [hsettle]
  exact changed_of_split hs rfl rfl hb

theorem Located.changed_item {y : Item} (h : Located itemId s b x) (hy : y.itemId = itemId)
    (hchange : ItemChange op b x (y,none)) : Changed op s (s.settle itemId (setItem y b) []) := by
  obtain ⟨l,r,hb,hset⟩ := h.item
  apply h.changed
  rw [hset y hy]
  refine BatchChange.of_split (g := id) (q := (y,none)) rfl rfl rfl rfl rfl hb ?_ (ItemChange.refl op b)
    hchange .inl fun receipt hreceipt => by cases hreceipt
  rw [List.map_id,List.map_id]

theorem armItem_change (expectedDigests : List (Text × Text)) (x : Item) :
    ItemChange op b x (Snapshot.armItem expectedDigests x,none) := by
  unfold Snapshot.armItem
  split
  · rename_i harmed
    have hstatus : x.status = .staged := by simpa using (Bool.and_eq_true_iff.mp harmed).2
    constructor <;> simp [Item.attempted,ItemStatus.awaiting,hstatus]
    exact .inl
  · exact .refl op b x

variable {date : Date}

theorem interrupted_change {error : Text} (hx : x.status = .submitting) :
    ItemChange op b x (Snapshot.interrupted error date x,none) := by
  constructor <;> simp [Snapshot.interrupted,Item.attempted,ItemStatus.awaiting,hx]

theorem recoverItem_change (date : Date) (x : Item) :
    ItemChange op b x (Snapshot.recoverItem date x,none) := by
  unfold Snapshot.recoverItem
  split
  · rename_i hx
    exact interrupted_change hx
  · split
    · rename_i hx
      constructor <;> simp [Item.attempted,ItemStatus.awaiting,hx]
      exact .inl
    · exact .refl op b x

theorem recoverInterruptedItem_change (date : Date) (x : Item) :
    ItemChange op b x (Snapshot.recoverInterruptedItem date x,none) := by
  unfold Snapshot.recoverInterruptedItem
  split
  · rename_i hx
    exact interrupted_change hx
  · exact .refl op b x

theorem moveItem_change (updates : List ScheduleUpdate) (x : Item) :
    ItemChange op b x (Snapshot.moveItem updates x,none) := by
  unfold Snapshot.moveItem
  split
  · exact ⟨rfl,rfl,rfl,.inl,le_rfl,.inl,fun _ => .inl rfl,fun _ h => by cases h⟩
  · exact .refl op b x

theorem armBatch_changed {batchId : Text} {expectedDigests : List (Text × Text)}
    (hop : op.rearms batchId) (h : s.armBatch batchId expectedDigests date = .ok s') :
    Changed op s s' := by
  obtain ⟨b,b',l,r,hs,hid,hb,rfl⟩ := onBatch_ok h
  have hchange : BatchChange op b (b',[]) := by
    split at hb
    · cases hb
    · cases hb
      exact .of_map rfl rfl rfl rfl rfl (fun x _ => armItem_change _ x) fun _ => .inr (hid ▸ hop)
  exact changed_of_split hs rfl (List.append_nil _).symm hchange

theorem recoverBatch_changed {batchId network accountUuid runId lightwalletdUrl : Text}
    {expectedTxids : List Text} (hop : op.rearms batchId)
    (h : s.recoverBatch batchId network accountUuid runId expectedTxids lightwalletdUrl date =
      .ok s') : Changed op s s' := by
  unfold Snapshot.recoverBatch at h
  split at h
  · cases h
  · split at h
    · cases h
      exact changed_of_map (fun b => (b,[])) (List.map_id' _).symm (by simp) fun b _ => .refl op b
    · obtain ⟨b,b',l,r,hs,hid,hb,rfl⟩ := onBatch_ok h
      have hchange : BatchChange op b (b',[]) := by
        split at hb
        · cases hb
          exact .of_map rfl rfl rfl rfl rfl (fun x _ => recoverItem_change _ x) fun _ =>
            .inr (hid ▸ hop)
        · cases hb
      exact changed_of_split hs rfl (List.append_nil _).symm hchange

theorem recoverInterruptedSubmissions_changed (op : OutboxOperation) (date : Date) (s : Snapshot) :
    Changed op s (s.recoverInterruptedSubmissions date) := by
  apply changed_of_map (fun b =>
    ({ b with items := b.items.map (Snapshot.recoverInterruptedItem date) },[])) rfl (by
      simp [Snapshot.recoverInterruptedSubmissions])
  intro b _
  exact .of_map rfl rfl rfl rfl rfl (fun x _ => recoverInterruptedItem_change date x) .inl

/-! ### Withdrawals -/

/-- An item that is withdrawn leaves its receipt. -/
def withdrawItem (retires : Item → Bool) (status : ItemStatus) (receipt : Item → Receipt)
    (x : Item) : Item × Option Receipt :=
  if retires x then ({ x with status },some (receipt x)) else (x,none)

theorem withdrawItem_fst (retires : Item → Bool) (status : ItemStatus) (receipt : Item → Receipt)
    (xs : List Item) : (xs.map (withdrawItem retires status receipt)).map Prod.fst =
      xs.map fun x => if retires x then { x with status } else x := by
  rw [List.map_map]
  apply List.map_congr_left
  intro x _
  show (withdrawItem retires status receipt x).1 = _
  unfold withdrawItem
  split <;> rfl

theorem withdrawItem_snd (retires : Item → Bool) (status : ItemStatus) (receipt : Item → Receipt)
    (xs : List Item) : (xs.map (withdrawItem retires status receipt)).filterMap Prod.snd =
      (xs.filter retires).map receipt := by
  induction xs with
  | nil => rfl
  | cons x xs ih =>
    by_cases hx : retires x = true
    · rw [List.map_cons,List.filterMap_cons,List.filter_cons_of_pos hx,List.map_cons,ih,
        withdrawItem,if_pos hx]
    · rw [List.map_cons,List.filterMap_cons,List.filter_cons_of_neg hx,ih,withdrawItem,if_neg hx]

variable {retires : Item → Bool} {outcome : ReceiptOutcome}

theorem withdrawItem_change {receipt : Item → Receipt}
    (hretires : ∀ x, retires x = true → x.status = .armed)
    (hreceipt : ∀ x, (receipt x).slot = b.slot { x with status := outcome.status } ∧
      (receipt x).Named) (x : Item) :
    ItemChange op b x (withdrawItem retires outcome.status receipt x) := by
  unfold withdrawItem
  split
  · rename_i hx
    have hstatus := hretires x hx
    refine ⟨rfl,rfl,rfl,fun h => ?_,le_rfl,fun h => .inl ?_,fun h => (nomatch h),fun r hr => ?_⟩
    · have hawaiting := ReceiptOutcome.status_awaiting outcome
      rw [show outcome.status = .submitting from h] at hawaiting
      cases hawaiting
    · rw [Item.attempted,hstatus] at h
      rw [Item.attempted]
      simp at h
      simp [h]
    · cases hr
      exact ⟨by rw [hstatus]; rfl,hreceipt x⟩
  · exact .refl op b x

theorem withdraw_batchChange {receipt : Item → Receipt}
    (hretires : ∀ x, retires x = true → x.status = .armed)
    (hreceipt : ∀ x, (receipt x).slot = b.slot { x with status := outcome.status } ∧
      (receipt x).Named) :
    BatchChange op b (b.withdraw retires outcome.status,(b.items.filter retires).map receipt) := by
  have hitems : ∃ qs, List.Forall₂ (ItemChange op b) b.items qs ∧
      (b.withdraw retires outcome.status).items = qs.map Prod.fst ∧
      (b.items.filter retires).map receipt = qs.filterMap Prod.snd := by
    refine ⟨b.items.map (withdrawItem retires outcome.status receipt),?_,?_,
      (withdrawItem_snd ..).symm⟩
    · rw [List.forall₂_map_right_iff]
      exact List.forall₂_same.mpr fun x _ => withdrawItem_change hretires hreceipt x
    · rw [withdrawItem_fst]
      unfold Batch.withdraw
      split <;> rfl
  unfold Batch.withdraw at hitems ⊢
  split at hitems
  · rename_i hany
    rw [if_pos hany]
    exact ⟨rfl,rfl,rfl,rfl,hitems,fun _ => .inl rfl,fun _ _ _ => rfl⟩
  · rename_i hany
    rw [if_neg hany]
    refine ⟨rfl,rfl,rfl,rfl,hitems,.inl,fun r hr _ => ?_⟩
    obtain ⟨x,hx,_⟩ := List.mem_map.mp hr
    exact absurd (List.any_eq_true.mpr ⟨x,(List.mem_filter.mp hx).1,(List.mem_filter.mp hx).2⟩) hany

theorem withdraw_changed (outcome : ReceiptOutcome) {endpoint : Text}
    {receipt : Batch → Item → Receipt} (hretires : ∀ x, retires x = true → x.status = .armed)
    (hreceipt : ∀ b x, (receipt b x).slot = b.slot { x with status := outcome.status } ∧
      (receipt b x).Named) :
    Changed op s (s.withdraw endpoint retires outcome.status receipt) := by
  apply changed_of_map (fun b =>
    if b.lightwalletdUrl = endpoint then
      (b.withdraw retires outcome.status,(b.items.filter retires).map (receipt b))
    else (b,[]))
  · apply List.map_congr_left
    intro b _
    split <;> rfl
  · have hflat : ∀ bs : List Batch,
        (bs.filter fun b => decide (b.lightwalletdUrl = endpoint)).flatMap
          (fun b => (b.items.filter retires).map (receipt b)) =
        bs.flatMap fun b => (if b.lightwalletdUrl = endpoint then
          (b.withdraw retires outcome.status,(b.items.filter retires).map (receipt b))
          else (b,[])).2 := by
      intro bs
      induction bs with
      | nil => rfl
      | cons b bs ih =>
        by_cases hb : b.lightwalletdUrl = endpoint <;> simp [hb,ih]
    rw [Snapshot.withdraw,hflat]
  · intro b _
    split
    · exact withdraw_batchChange hretires (hreceipt b)
    · exact .refl op b

theorem expireItems_changed (op : OutboxOperation) (remoteHeight : Nat) (endpoint : Text)
    (date : Date) (s : Snapshot) : Changed op s (s.expireItems remoteHeight endpoint date) := by
  apply withdraw_changed .expired
  · intro x hx
    exact (of_decide_eq_true hx).1
  · intro b x
    exact ⟨rfl,rfl⟩

theorem Changed.refl (op : OutboxOperation) (s : Snapshot) : Changed op s s :=
  changed_of_map (fun b => (b,[])) (List.map_id' _).symm (by simp) fun b _ => .refl op b

theorem markDueItemsNeedingResign_changed (op : OutboxOperation) (remoteHeight : Nat)
    (endpoint : Text) (date : Date) (s : Snapshot) :
    Changed op s (s.markDueItemsNeedingResign remoteHeight endpoint date) := by
  unfold Snapshot.markDueItemsNeedingResign
  split
  · exact .refl op s
  · apply withdraw_changed .needsResign
    · intro x hx
      exact (of_decide_eq_true hx).1
    · intro b x
      exact ⟨rfl,rfl⟩

/-! ### Submissions -/

theorem beginSubmission_changed {attemptId : Text} (hop : op.begins itemId)
    (h : s.beginSubmission itemId attemptId date = .ok s') : Changed op s s' := by
  obtain ⟨⟨b,x⟩,hlocation,h⟩ := bind_ok h
  have hlocated := itemLocation_ok hlocation
  dsimp only at h
  split at h
  · cases h
  · rename_i hstatus
    cases h
    have harmed : x.status = .armed := not_not.mp hstatus
    refine hlocated.changed_item hlocated.isItem ?_
    constructor <;> simp [Item.attempted,ItemStatus.awaiting,harmed,hlocated.isItem,hop]

theorem recordUncertain_changed {error : Text} (h : s.recordUncertain itemId error date = .ok s') :
    Changed op s s' := by
  obtain ⟨⟨b,x⟩,hlocation,h⟩ := bind_ok h
  have hlocated := itemLocation_ok hlocation
  dsimp only at h
  split at h
  · cases h
  · rename_i hstatus
    cases h
    exact hlocated.changed_item hlocated.isItem (interrupted_change (not_not.mp hstatus))

theorem recordCancelledBeforeSubmission_changed {error : Text} (hop : op.cancels itemId)
    (h : s.recordCancelledBeforeSubmission itemId error = .ok s') : Changed op s s' := by
  obtain ⟨⟨b,x⟩,hlocation,h⟩ := bind_ok h
  have hlocated := itemLocation_ok hlocation
  dsimp only at h
  split at h
  · cases h
  · rename_i hstatus
    cases h
    have hsubmitting : x.status = .submitting := not_not.mp hstatus
    refine hlocated.changed_item hlocated.isItem ?_
    constructor <;> simp [ItemStatus.awaiting,hsubmitting,hlocated.isItem,hop]

variable {updates : List ScheduleUpdate} {remoteHeight : Nat}

theorem concluded_change {status : ItemStatus} {responseCode : Option Int}
    {responseMessage : Option Text} {c : Batch} (hx : x.status = .submitting)
    (hc : c.batchId = b.batchId) (houtcome : outcome.status = status)
    (hstatus : status = .acceptedAwaitingReconciliation ∨ status = .rejectedAwaitingReconciliation) :
    ItemChange op b x (Snapshot.concluded status x,some (makeReceipt c x outcome remoteHeight
      responseCode responseMessage updates date)) := by
  refine ⟨rfl,rfl,rfl,fun _ => .inl hx,le_rfl,fun _ => .inl ?_,fun h => (nomatch h),fun r hr => ?_⟩
  · rcases hstatus with h | h <;> simp [Snapshot.concluded,Item.attempted,h]
  · cases hr
    refine ⟨by rw [hx]; rfl,?_,rfl⟩
    simp [Receipt.slot,Batch.slot,makeReceipt,Snapshot.concluded,hc,houtcome]

theorem moveItem_concluded {status : ItemStatus}
    (h : ∀ update ∈ updates, update.itemId ≠ x.itemId) :
    Snapshot.moveItem updates (Snapshot.concluded status x) = Snapshot.concluded status x := by
  have hnone : updates.find? (fun update =>
      decide (update.itemId = (Snapshot.concluded status x).itemId)) = none := by
    apply List.find?_eq_none.mpr
    intro update hupdate
    simp [Snapshot.concluded,h update hupdate]
  rw [Snapshot.moveItem,hnone]

theorem rescheduleFrom_itemIds {rng : Rng} {mean max elapsed draw : Nat} {items : List Item}
    (h : Snapshot.rescheduleFrom rng mean max remoteHeight elapsed draw items = .ok updates) :
    updates.map ScheduleUpdate.itemId = items.map Item.itemId := by
  induction items generalizing elapsed draw updates with
  | nil =>
    cases h
    rfl
  | cons item items ih =>
    unfold Snapshot.rescheduleFrom at h
    dsimp only at h
    split at h
    · cases h
    · split at h
      · cases h
      · obtain ⟨rest,hrest,h⟩ := bind_ok h
        cases h
        rw [List.map_cons,List.map_cons,ih hrest]

theorem rescheduleOverdueItems_ok {rng : Rng}
    (h : Snapshot.rescheduleOverdueItems rng itemId remoteHeight b = .ok (b',updates)) :
    b' = { b with items := b.items.map (Snapshot.moveItem updates) } ∧
      (updates.map ScheduleUpdate.itemId).Perm
        ((Snapshot.overdue itemId remoteHeight b.items).map Item.itemId) := by
  unfold Snapshot.rescheduleOverdueItems at h
  split at h
  · cases h
  · obtain ⟨updates,hupdates,h⟩ := bind_ok h
    cases h
    refine ⟨rfl,?_⟩
    rw [rescheduleFrom_itemIds hupdates]
    exact ((List.perm_insertionSort _ _).trans (rng.shuffle_perm _)).map _

theorem recordAccepted_changed {rng : Rng} {responseMessage : Text} {equivalent : Bool}
    {responseCode : Int}
    (h : s.recordAccepted rng itemId equivalent remoteHeight responseCode responseMessage date =
      .ok s') : Changed op s s' := by
  obtain ⟨⟨b,x⟩,hlocation,h⟩ := bind_ok h
  have hlocated := itemLocation_ok hlocation
  dsimp only at h
  split at h
  · cases h
  · rename_i hstatus
    obtain ⟨⟨b',updates⟩,hreschedule,h⟩ := bind_ok h
    cases h
    obtain ⟨rfl,hids⟩ := rescheduleOverdueItems_ok hreschedule
    obtain ⟨l,r,hb,hset⟩ := hlocated.item
    apply hlocated.changed
    rw [hset (Snapshot.concluded .acceptedAwaitingReconciliation x) hlocated.isItem]
    have hothers : ∀ update ∈ updates, update.itemId ≠ x.itemId := by
      intro update hupdate
      have hmem := hids.mem_iff.mp (List.mem_map_of_mem hupdate)
      obtain ⟨y,hy,hyid⟩ := List.mem_map.mp hmem
      rw [← hyid,hlocated.isItem]
      exact (of_decide_eq_true (List.mem_filter.mp hy).2).1
    have houtcome : (if equivalent then ReceiptOutcome.acceptedEquivalent else .accepted).status =
        .acceptedAwaitingReconciliation := by
      cases equivalent <;> rfl
    have hchange : ∀ c : Batch, c.batchId = b.batchId → ItemChange op b x
        (Snapshot.concluded .acceptedAwaitingReconciliation x,some (makeReceipt c x
          (if equivalent then .acceptedEquivalent else .accepted) remoteHeight (some responseCode)
          (some responseMessage) updates date)) := by
      intro c hc
      exact concluded_change (not_not.mp hstatus) hc houtcome (.inl rfl)
    refine BatchChange.of_split rfl rfl rfl rfl rfl hb ?_ (moveItem_change updates) (hchange _ rfl) .inl ?_
    · rw [List.map_append,List.map_cons,moveItem_concluded hothers]
    · intro receipt hreceipt hterminal
      cases hreceipt
      cases equivalent <;> cases hterminal

theorem recordRejected_changed {responseMessage : Text} {responseCode : Int}
    (h : s.recordRejected itemId remoteHeight responseCode responseMessage date = .ok s') :
    Changed op s s' := by
  obtain ⟨⟨b,x⟩,hlocation,h⟩ := bind_ok h
  have hlocated := itemLocation_ok hlocation
  dsimp only at h
  split at h
  · cases h
  · rename_i hstatus
    cases h
    obtain ⟨l,r,hb,hset⟩ := hlocated.item
    apply hlocated.changed
    rw [hset (Snapshot.concluded .rejectedAwaitingReconciliation x) hlocated.isItem]
    have hchange : ItemChange op b x (Snapshot.concluded .rejectedAwaitingReconciliation x,
        some (makeReceipt b x .rejected remoteHeight (some responseCode) (some responseMessage) []
          date)) :=
      concluded_change (not_not.mp hstatus) rfl rfl (.inr rfl)
    refine BatchChange.of_split (g := id) rfl rfl rfl rfl rfl hb ?_ (ItemChange.refl op b) hchange
      (fun _ => .inl rfl) fun _ _ _ => rfl
    rw [List.map_id,List.map_id]

/-! ### Selecting and staging -/

theorem selectDue_batches {endpoint : Option Text} {selection : Selection}
    (h : s.selectDue remoteHeight endpoint date = some (selection,s')) :
    ∃ scope, s' = { s with lastAttemptedScopeKey := some scope } ∧
      ∃ b ∈ s.batches, b.candidate remoteHeight endpoint date = true ∧
        b.select remoteHeight date = some selection := by
  unfold Snapshot.selectDue at h
  obtain ⟨scope,-,h⟩ := Option.bind_eq_some_iff.mp h
  obtain ⟨b,hb,h⟩ := Option.bind_eq_some_iff.mp h
  obtain ⟨found,hfound,h⟩ := Option.bind_eq_some_iff.mp h
  cases h
  obtain ⟨hb,hcandidate⟩ := List.mem_filter.mp (List.mem_of_find?_eq_some hb)
  exact ⟨scope,rfl,b,hb,hcandidate,hfound⟩

theorem selectDue_changed (op : OutboxOperation) (remoteHeight : Nat) (endpoint : Option Text)
    (date : Date) (s : Snapshot) :
    Changed op s ((s.selectDue remoteHeight endpoint date).elim s Prod.snd) := by
  cases h : s.selectDue remoteHeight endpoint date with
  | none => exact .refl op s
  | some p =>
    obtain ⟨selection,s'⟩ := p
    obtain ⟨scope,rfl,-⟩ := selectDue_batches h
    exact .refl op s

/-- Staging extends the batch of its id, or adds it. -/
inductive Staged (batch : Batch) (s s' : Snapshot) : Prop
  | fresh (hfresh : ∀ b ∈ s.batches, b.batchId ≠ batch.batchId)
      (hs' : s' = { s with batches := s.batches ++ [batch] })
  | extended (b b' : Batch) (l r : List Batch) (added : List Item)
      (hs : s.batches = l ++ b :: r) (hs' : s' = { s with batches := l ++ b' :: r })
      (hid : b.batchId = batch.batchId) (hbatchId : b'.batchId = b.batchId)
      (hnetwork : b'.network = b.network) (haccount : b'.accountUuid = b.accountUuid)
      (hrun : b'.runId = b.runId) (harmed : b'.armedAt = b.armedAt)
      (hitems : b'.items = b.items ++ added) (hadded : added.Sublist batch.items)
      (hnew : ∀ a ∈ added, ∀ x ∈ b.items, x.itemId ≠ a.itemId)

theorem restageItem_ok {existing added : List Item} {incoming : Item}
    (h : restageItem existing incoming = .ok added) :
    added.Sublist [incoming] ∧ ∀ a ∈ added, ∀ x ∈ existing, x.itemId ≠ a.itemId := by
  unfold restageItem at h
  split at h
  · split at h
    · cases h
      exact ⟨List.nil_sublist _,fun a ha => nomatch ha⟩
    · cases h
  · rename_i hnone
    split at h
    · cases h
    · cases h
      refine ⟨.refl _,fun a ha x hx hid => ?_⟩
      cases List.mem_singleton.mp ha
      exact List.find?_eq_none.mp hnone x hx (decide_eq_true hid)

theorem restageItems_ok {existing incoming : List Item} {added : List (List Item)}
    (h : incoming.mapM (restageItem existing) = .ok added) :
    added.flatten.Sublist incoming ∧
      ∀ a ∈ added.flatten, ∀ x ∈ existing, x.itemId ≠ a.itemId := by
  have hrows := mapM_ok h
  clear h
  induction hrows with
  | nil => exact ⟨.slnil,fun a ha => nomatch ha⟩
  | cons hitem _ ih =>
    obtain ⟨hsublist,hnew⟩ := restageItem_ok hitem
    refine ⟨hsublist.append ih.1,fun a ha => ?_⟩
    rcases List.mem_append.mp ha with ha | ha
    · exact hnew a ha
    · exact ih.2 a ha

theorem stage_ok {digestHex : Bytes → Text} {batch : Batch}
    (h : s.stage digestHex batch = .ok s') :
    batch.stageable digestHex = true ∧ Staged batch s s' := by
  unfold Snapshot.stage at h
  split at h
  · cases h
  · rename_i hstageable
    have hstageable : batch.stageable digestHex = true := by simpa using hstageable
    refine ⟨hstageable,?_⟩
    split at h
    · obtain ⟨b,b',l,r,hs,hid,hb,hs'⟩ := onBatch_ok h
      unfold Batch.restage at hb
      split at hb
      · cases hb
      · split at hb
        · cases hb
        · split at hb
          · cases hb
          · obtain ⟨added,hadded,hb⟩ := bind_ok hb
            cases hb
            obtain ⟨hsublist,hnew⟩ := restageItems_ok hadded
            exact .extended b _ l r added.flatten hs hs' hid rfl rfl rfl rfl rfl rfl hsublist hnew
    · rename_i hany
      cases h
      apply Staged.fresh _ rfl
      intro b hb hid
      exact hany (List.any_eq_true.mpr ⟨b,hb,decide_eq_true hid⟩)

end CoppiceWallet.Outbox
