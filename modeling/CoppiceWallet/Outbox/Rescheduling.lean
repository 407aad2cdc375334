import Mathlib.Data.List.Chain
import CoppiceWallet.Outbox.Pauses

/-!
# Rescheduling after an acceptance

Before a transaction is sent, a check asks whether the overdue items of its batch could still be
moved. The rescheduler asks for more: before the first expiry it wants a block for every item.
-/

namespace CoppiceWallet.Outbox

open CoppiceWallet.Lib CoppiceWallet.Store

/-- Each height is after the one before it, by at most `maxBlocks`. -/
def Spaced (maxBlocks : Nat) (heights : List Nat) : Prop :=
  heights.IsChain fun a b => a < b ∧ b ≤ a + maxBlocks

variable {maxBlocks : Nat}

theorem sampleDelay_bounds (rng : Rng) (draw mean : Nat) (h : 0 < maxBlocks) :
    0 < sampleDelay rng draw mean maxBlocks ∧ sampleDelay rng draw mean maxBlocks ≤ maxBlocks := by
  simp only [sampleDelay]
  omega

theorem saturatingAdd_eq {a b : Nat} (h : a + b < u64Limit) : saturatingAdd a b = a + b := by
  simp only [saturatingAdd]
  omega

/-- The heights that a run of the rescheduler chose. -/
structure Chosen (remoteHeight maxBlocks from_ : Nat) (items : List Item)
    (updates : List ScheduleUpdate) : Prop where
  spaced : Spaced maxBlocks (from_ :: updates.map ScheduleUpdate.scheduledHeight)
  inTime : List.Forall₂ (fun item update => update.itemId = item.itemId ∧
    update.scheduledHeight < item.expiryHeight ∧ update.scheduleStartHeight = remoteHeight)
    items updates

variable {items : List Item}

/-- The items are ordered by expiry and each has room for itself and those after it, if the first
one has: what one turn takes it leaves to the next. -/
theorem rescheduleFrom_exists (rng : Rng) (mean elapsed draw : Nat) {remoteHeight : Nat}
    (hmax : 0 < maxBlocks) (hsorted : items.Pairwise fun a b => a.expiryHeight ≤ b.expiryHeight)
    (hheights : ∀ x ∈ items, x.expiryHeight < u64Limit)
    (hroom : ∀ x ∈ items.head?, remoteHeight + elapsed + items.length < x.expiryHeight) :
    ∃ updates, Snapshot.rescheduleFrom rng mean maxBlocks remoteHeight elapsed draw items =
      .ok updates ∧ Chosen remoteHeight maxBlocks (remoteHeight + elapsed) items updates := by
  induction items generalizing elapsed draw with
  | nil => exact ⟨[],rfl,.singleton _,.nil⟩
  | cons item items ih =>
    have hfirst : remoteHeight + elapsed + (items.length + 1) < item.expiryHeight := hroom item rfl
    have hexpiry := hheights item List.mem_cons_self
    have hcurrent : saturatingAdd remoteHeight elapsed = remoteHeight + elapsed :=
      saturatingAdd_eq (by omega)
    obtain ⟨delay,hdelay⟩ : ∃ delay, delay = sampleDelay rng draw mean
      (min maxBlocks (item.expiryHeight - items.length - 1 - (remoteHeight + elapsed))) := ⟨_,rfl⟩
    have hbounds : 0 < delay ∧ delay ≤
        min maxBlocks (item.expiryHeight - items.length - 1 - (remoteHeight + elapsed)) := by
      rw [hdelay]
      exact sampleDelay_bounds rng draw mean (by omega)
    have helapsed : saturatingAdd elapsed delay = elapsed + delay := saturatingAdd_eq (by omega)
    have hnext : saturatingAdd remoteHeight (elapsed + delay) = remoteHeight + (elapsed + delay) :=
      saturatingAdd_eq (by omega)
    have hroomAfter : ∀ x ∈ items.head?,
        remoteHeight + (elapsed + delay) + items.length < x.expiryHeight := by
      intro x hx
      have hle := (List.pairwise_cons.mp hsorted).1 x (List.mem_of_mem_head? hx)
      omega
    obtain ⟨updates,hupdates,hchosen⟩ := ih (elapsed + delay) (draw + 1)
      (List.pairwise_cons.mp hsorted).2
      (fun x hx => hheights x (List.mem_cons_of_mem _ hx)) hroomAfter
    refine ⟨⟨item.itemId,remoteHeight + (elapsed + delay),remoteHeight⟩ :: updates,?_,?_,?_⟩
    · rw [Snapshot.rescheduleFrom]
      simp only [hcurrent]
      rw [if_neg (by omega),if_neg (by omega),← hdelay,helapsed,hupdates,hnext]
      rfl
    · apply List.IsChain.cons_cons ?_ hchosen.spaced
      constructor <;> omega
    · exact .cons ⟨rfl,by simp only; omega,rfl⟩ hchosen.inTime

variable {updates : List ScheduleUpdate}

theorem room_of_rescheduleFrom {rng : Rng} {mean remoteHeight draw : Nat}
    (hremote : remoteHeight < u64Limit)
    (h : Snapshot.rescheduleFrom rng mean maxBlocks remoteHeight 0 draw items = .ok updates) :
    ∀ x ∈ items.head?, remoteHeight + items.length < x.expiryHeight := by
  intro x hx
  cases items with
  | nil => cases hx
  | cons item items =>
    cases hx
    have hcurrent : saturatingAdd remoteHeight 0 = remoteHeight := saturatingAdd_eq hremote
    rw [Snapshot.rescheduleFrom] at h
    simp only [hcurrent] at h
    by_cases hearly : x.expiryHeight ≤ items.length + 1
    · rw [if_pos hearly] at h
      cases h
    by_cases hlate : x.expiryHeight - items.length - 1 ≤ remoteHeight
    · rw [if_neg hearly,if_pos hlate] at h
      cases h
    rw [List.length_cons]
    omega

/-- An armed item that the height has passed, other than the given one. -/
def Overdue (itemId : Text) (remoteHeight : Nat) (x : Item) : Prop :=
  x.itemId ≠ itemId ∧ x.status = .armed ∧ x.scheduledHeight ≤ remoteHeight

theorem mem_overdue {itemId : Text} {remoteHeight : Nat} {x : Item} :
    x ∈ Snapshot.overdue itemId remoteHeight items ↔ x ∈ items ∧ Overdue itemId remoteHeight x := by
  rw [Snapshot.overdue,List.mem_filter,decide_eq_true_iff]
  rfl

/-- Every overdue item expires after as many blocks as there are overdue items. -/
def RoomForAll (remoteHeight : Nat) (overdueItems : List Item) : Prop :=
  ∀ x ∈ overdueItems, remoteHeight + overdueItems.length < x.expiryHeight

instance (remoteHeight : Nat) (overdueItems : List Item) :
    Decidable (RoomForAll remoteHeight overdueItems) :=
  inferInstanceAs (Decidable (∀ x ∈ overdueItems, remoteHeight + overdueItems.length < x.expiryHeight))

/-- The rescheduler's order: by expiry, and by the shuffle between equal ones. -/
def byExpiry (rng : Rng) (items : List Item) : List Item :=
  (rng.shuffle items).insertionSort fun a b => a.expiryHeight ≤ b.expiryHeight

theorem byExpiry_perm (rng : Rng) (items : List Item) : (byExpiry rng items).Perm items :=
  (List.perm_insertionSort _ _).trans (rng.shuffle_perm _)

theorem byExpiry_sorted (rng : Rng) (items : List Item) :
    (byExpiry rng items).Pairwise fun a b => a.expiryHeight ≤ b.expiryHeight :=
  haveI : Std.Total fun a b : Item => a.expiryHeight ≤ b.expiryHeight := ⟨fun _ _ => Nat.le_total _ _⟩
  haveI : IsTrans Item fun a b => a.expiryHeight ≤ b.expiryHeight := ⟨fun _ _ _ => Nat.le_trans⟩
  List.pairwise_insertionSort _ _

theorem roomForAll_iff {rng : Rng} {remoteHeight : Nat} : (∀ x ∈ (byExpiry rng items).head?,
      remoteHeight + (byExpiry rng items).length < x.expiryHeight) ↔ RoomForAll remoteHeight items := by
  have hperm := byExpiry_perm rng items
  have hsorted := byExpiry_sorted rng items
  rw [hperm.length_eq]
  constructor
  · intro h x hx
    have hmem := hperm.mem_iff.mpr hx
    cases horder : byExpiry rng items with
    | nil =>
      rw [horder] at hmem
      cases hmem
    | cons first rest =>
      rw [horder] at h hmem hsorted
      have hfirst := h first rfl
      rcases List.mem_cons.mp hmem with rfl | hmem
      · exact hfirst
      · exact hfirst.trans_le ((List.pairwise_cons.mp hsorted).1 x hmem)
  · intro h x hx
    exact h x (hperm.mem_iff.mp (List.mem_of_mem_head? hx))

theorem itemLocation_settle {itemId : Text} {receipts : List Receipt} {s : Snapshot} {b : Batch}
    {x y : Item} (h : s.itemLocation itemId = .ok (b,x)) (hy : y.itemId = itemId) :
    (s.settle itemId (setItem y b) receipts).itemLocation itemId = .ok (setItem y b,y) := by
  unfold Snapshot.itemLocation at h
  cases hbatch : s.batches.find? (Snapshot.hasItem itemId) with
  | none =>
    rw [hbatch] at h
    cases h
  | some batch =>
    simp only [hbatch] at h
    cases hitem : batch.items.find? fun item => decide (item.itemId = itemId) with
    | none =>
      rw [hitem] at h
      cases h
    | some item =>
      simp only [hitem] at h
      cases h
      have hfound : (setItem y b).items.find? (fun item => decide (item.itemId = itemId)) =
          some y := by
        have hfound := find?_replaceFirst hitem (decide_eq_true hy)
        simpa only [setItem,hy] using hfound
      have hhas : Snapshot.hasItem itemId (setItem y b) = true :=
        List.any_eq_true.mpr ⟨y,List.mem_of_find?_eq_some hfound,decide_eq_true hy⟩
      have hagain := find?_replaceFirst hbatch hhas
      simp only [Snapshot.itemLocation,Snapshot.settle,hagain,hfound]

theorem overdue_setItem {itemId : Text} {remoteHeight : Nat} {y : Item} (b : Batch)
    (hy : y.itemId = itemId) : Snapshot.overdue itemId remoteHeight (setItem y b).items =
      Snapshot.overdue itemId remoteHeight b.items := by
  simp only [setItem,hy]
  induction b.items with
  | nil => rfl
  | cons x items ih =>
    by_cases hx : x.itemId = itemId
    · simp [replaceFirst,Snapshot.overdue,hx,hy]
    · have hx' : decide (x.itemId = itemId) = false := decide_eq_false hx
      rw [replaceFirst,hx']
      simp only [Bool.false_eq_true,if_false]
      simp only [Snapshot.overdue,List.filter_cons] at ih ⊢
      rw [ih]

/-- What the acceptance makes of the items of its batch, one by one. -/
structure ItemAccepted (itemId : Text) (remoteHeight : Nat) (updates : List ScheduleUpdate)
    (before after : Item) : Prop where
  accepted : before.itemId = itemId →
    after = Snapshot.concluded .acceptedAwaitingReconciliation before
  kept : before.itemId ≠ itemId → ¬ Overdue itemId remoteHeight before → after = before
  moved : Overdue itemId remoteHeight before → ∃ update ∈ updates,
    update.itemId = before.itemId ∧ remoteHeight < update.scheduledHeight ∧
    update.scheduledHeight < before.expiryHeight ∧ update.scheduleStartHeight = remoteHeight ∧
    after = Snapshot.replacingSchedule before update

/-- The acceptance is recorded: each overdue item of the batch has one new height, in increasing
order and at most `timingMaxBlocks` apart, and everything else stays. -/
def Recorded (itemId : Text) (remoteHeight : Nat) (b : Batch) (s s' : Snapshot) : Prop :=
  ∃ receipt l r items, s.batches = l ++ b :: r ∧
    s' = { s with
      batches := l ++ { b with items := items } :: r
      receipts := s.receipts ++ [receipt] } ∧
    (receipt.scheduleUpdates.map ScheduleUpdate.itemId).Perm
      ((Snapshot.overdue itemId remoteHeight b.items).map Item.itemId) ∧
    Spaced b.timingMaxBlocks
      (remoteHeight :: receipt.scheduleUpdates.map ScheduleUpdate.scheduledHeight) ∧
    List.Forall₂ (ItemAccepted itemId remoteHeight receipt.scheduleUpdates) b.items items

theorem Spaced.lt_of_mem {height next : Nat} {heights : List Nat}
    (h : Spaced maxBlocks (height :: heights)) (hnext : next ∈ heights) : height < next := by
  have hlt : (height :: heights).IsChain (· < ·) := List.IsChain.imp (fun _ _ hab => hab.1) h
  exact (List.pairwise_cons.mp (List.isChain_iff_pairwise.mp hlt)).1 next hnext

theorem moveItem_accepted {itemId : Text} {remoteHeight : Nat} {order : List Item} {y : Item}
    (hids : (items.map Item.itemId).Nodup)
    (hperm : order.Perm (Snapshot.overdue itemId remoteHeight items))
    (hchosen : Chosen remoteHeight maxBlocks remoteHeight order updates) (hy : y ∈ items)
    (hne : y.itemId ≠ itemId) :
    ItemAccepted itemId remoteHeight updates y (Snapshot.moveItem updates y) := by
  have hown : ∀ update ∈ updates, update.itemId = y.itemId → Overdue itemId remoteHeight y ∧
      update.scheduledHeight < y.expiryHeight ∧ update.scheduleStartHeight = remoteHeight := by
    intro update hupdate hid
    obtain ⟨z,hz,hzid,hrest⟩ := forall₂_mem_right hchosen.inTime hupdate
    obtain ⟨hzmem,hover⟩ := mem_overdue.mp (hperm.mem_iff.mp hz)
    have hzy : z = y := List.inj_on_of_nodup_map hids hzmem hy (hzid.symm.trans hid)
    subst hzy
    exact ⟨hover,hrest⟩
  constructor
  · intro hid
    exact absurd hid hne
  · intro _ hnot
    have hnone : updates.find? (fun update => decide (update.itemId = y.itemId)) = none := by
      apply List.find?_eq_none.mpr
      intro update hupdate hid
      exact hnot (hown update hupdate (of_decide_eq_true hid)).1
    rw [Snapshot.moveItem,hnone]
  · intro hover
    have hmem : y ∈ order := hperm.mem_iff.mpr (mem_overdue.mpr ⟨hy,hover⟩)
    obtain ⟨first,hfirst,hfirstId,_⟩ := forall₂_mem_left hchosen.inTime hmem
    cases hfind : updates.find? fun update => decide (update.itemId = y.itemId) with
    | none => exact absurd (decide_eq_true hfirstId) (List.find?_eq_none.mp hfind first hfirst)
    | some update =>
      have hupdate := List.mem_of_find?_eq_some hfind
      have hid : update.itemId = y.itemId := by simpa using List.find?_some hfind
      obtain ⟨_,hexpiry,hstart⟩ := hown update hupdate hid
      have hlater := hchosen.spaced.lt_of_mem (List.mem_map_of_mem hupdate)
      exact ⟨update,hupdate,hid,hlater,hexpiry,hstart,by rw [Snapshot.moveItem,hfind]⟩

variable {s : Snapshot} {itemId : Text} {remoteHeight : Nat} {b : Batch} {x : Item}

theorem rescheduleOverdueItems_exists (rng : Rng) {b : Batch}
    (htiming : 0 < b.timingMeanBlocks ∧ b.timingMeanBlocks ≤ b.timingMaxBlocks)
    (hheights : ∀ y ∈ b.items, y.expiryHeight < u64Limit)
    (hroom : RoomForAll remoteHeight (Snapshot.overdue itemId remoteHeight b.items)) :
    ∃ updates, Snapshot.rescheduleOverdueItems rng itemId remoteHeight b =
        .ok ({ b with items := b.items.map (Snapshot.moveItem updates) },updates) ∧
      Chosen remoteHeight b.timingMaxBlocks remoteHeight
        (byExpiry rng (Snapshot.overdue itemId remoteHeight b.items)) updates := by
  have hmax : 0 < b.timingMaxBlocks := by omega
  have hexpiry : ∀ y ∈ byExpiry rng (Snapshot.overdue itemId remoteHeight b.items),
      y.expiryHeight < u64Limit := by
    intro y hy
    exact hheights y (mem_overdue.mp ((byExpiry_perm _ _).mem_iff.mp hy)).1
  obtain ⟨updates,hupdates,hchosen⟩ := rescheduleFrom_exists rng b.timingMeanBlocks 0 0 hmax
    (byExpiry_sorted _ _) hexpiry (roomForAll_iff.mpr hroom)
  refine ⟨updates,?_,hchosen⟩
  have hpositive : ¬ ¬ (0 < b.timingMeanBlocks ∧ 0 < b.timingMaxBlocks ∧
      b.timingMeanBlocks ≤ b.timingMaxBlocks) := not_not_intro ⟨htiming.1,hmax,htiming.2⟩
  simp only [byExpiry] at hupdates
  simp only [Snapshot.rescheduleOverdueItems,if_neg hpositive,hupdates]
  rfl

theorem recordAccepted_recorded (hlocation : s.itemLocation itemId = .ok (b,x))
    (hstatus : x.status = .submitting) (hids : (b.items.map Item.itemId).Nodup)
    (htiming : 0 < b.timingMeanBlocks ∧ b.timingMeanBlocks ≤ b.timingMaxBlocks)
    (hheights : ∀ y ∈ b.items, y.expiryHeight < u64Limit)
    (hroom : RoomForAll remoteHeight (Snapshot.overdue itemId remoteHeight b.items))
    (rng : Rng) (equivalent : Bool) (responseCode : Int) (responseMessage : Text) (date : Date) :
    ∃ s', s.recordAccepted rng itemId equivalent remoteHeight responseCode responseMessage date =
      .ok s' ∧ Recorded itemId remoteHeight b s s' := by
  have hlocated := itemLocation_ok hlocation
  have hid := hlocated.isItem
  obtain ⟨l,r,hitems,hset⟩ := hlocated.item
  obtain ⟨front,back,hbatches,hsettle⟩ := hlocated.batch
  let accepted := Snapshot.concluded .acceptedAwaitingReconciliation x
  have hput : setItem accepted b = { b with items := l ++ accepted :: r } := hset accepted hid
  have hpeers : Snapshot.overdue itemId remoteHeight (setItem accepted b).items =
      Snapshot.overdue itemId remoteHeight b.items := overdue_setItem b hid
  have hheights' : ∀ y ∈ (setItem accepted b).items, y.expiryHeight < u64Limit := by
    intro y hy
    rw [hput] at hy
    rw [hitems] at hheights
    rcases List.mem_append.mp hy with hy | hy
    · exact hheights y (List.mem_append_left _ hy)
    · rcases List.mem_cons.mp hy with rfl | hy
      · exact hheights x (List.mem_append_right _ List.mem_cons_self)
      · exact hheights y (List.mem_append_right _ (List.mem_cons_of_mem _ hy))
  obtain ⟨updates,hreschedule,hchosen⟩ :=
    rescheduleOverdueItems_exists rng (b := setItem accepted b) htiming hheights' (by rwa [hpeers])
  rw [hpeers] at hchosen
  have hperm := byExpiry_perm rng (Snapshot.overdue itemId remoteHeight b.items)
  have hupdateIds : (updates.map ScheduleUpdate.itemId).Perm
      ((Snapshot.overdue itemId remoteHeight b.items).map Item.itemId) := by
    have hsame : updates.map ScheduleUpdate.itemId =
        (byExpiry rng (Snapshot.overdue itemId remoteHeight b.items)).map Item.itemId :=
      forall₂_map_eq hchosen.inTime fun _ _ h => h.1
    rw [hsame]
    exact hperm.map _
  have hothers : ∀ update ∈ updates, update.itemId ≠ x.itemId := by
    intro update hupdate
    obtain ⟨y,hy,hyId,_⟩ := forall₂_mem_right hchosen.inTime hupdate
    rw [hyId,hid]
    exact (mem_overdue.mp (hperm.mem_iff.mp hy)).2.1
  have hpeer : ∀ y, y ∈ l ∨ y ∈ r → ItemAccepted itemId remoteHeight updates y
      (Snapshot.moveItem updates y) := by
    intro y hy
    have hmem : y ∈ b.items := by
      rw [hitems,List.mem_append,List.mem_cons]
      tauto
    have hne : y.itemId ≠ itemId := by
      rw [hitems,List.map_append,List.map_cons,List.nodup_append] at hids
      obtain ⟨_,hright,hacross⟩ := hids
      rw [← hid]
      rcases hy with hy | hy
      · exact hacross _ (List.mem_map_of_mem hy) _ List.mem_cons_self
      · intro hsame
        exact (List.nodup_cons.mp hright).1 (hsame ▸ List.mem_map_of_mem hy)
    exact moveItem_accepted hids hperm hchosen hmem hne
  have hown : ItemAccepted itemId remoteHeight updates x (Snapshot.moveItem updates accepted) := by
    rw [moveItem_concluded hothers]
    exact ⟨fun _ => rfl,fun hne => absurd hid hne,fun hover => absurd hid hover.1⟩
  have hall : List.Forall₂ (ItemAccepted itemId remoteHeight updates) b.items
      ((setItem accepted b).items.map (Snapshot.moveItem updates)) := by
    rw [hput,hitems,List.map_append,List.map_cons]
    apply List.rel_append
    · rw [List.forall₂_map_right_iff,List.forall₂_same]
      exact fun y hy => hpeer y (.inl hy)
    · apply List.Forall₂.cons hown
      rw [List.forall₂_map_right_iff,List.forall₂_same]
      exact fun y hy => hpeer y (.inr hy)
  have hrun : s.recordAccepted rng itemId equivalent remoteHeight responseCode responseMessage date =
      .ok (s.settle itemId
        { setItem accepted b with
          items := (setItem accepted b).items.map (Snapshot.moveItem updates) }
        [makeReceipt { setItem accepted b with
          items := (setItem accepted b).items.map (Snapshot.moveItem updates) } x
          (if equivalent then .acceptedEquivalent else .accepted) remoteHeight (some responseCode)
          (some responseMessage) updates date]) := by
    rw [Snapshot.recordAccepted,hlocation,ok_bind]
    simp only [hstatus,ne_eq,not_true,if_false]
    rw [hreschedule]
    rfl
  refine ⟨_,hrun,_,front,back,_,hbatches,hsettle _ _,hupdateIds,hchosen.spaced,hall⟩

theorem room_of_rescheduleOverdueItems {rng : Rng} {b' : Batch} (hremote : remoteHeight < u64Limit)
    (h : Snapshot.rescheduleOverdueItems rng itemId remoteHeight b = .ok (b',updates)) :
    RoomForAll remoteHeight (Snapshot.overdue itemId remoteHeight b.items) := by
  by_cases htiming : 0 < b.timingMeanBlocks ∧ 0 < b.timingMaxBlocks ∧
      b.timingMeanBlocks ≤ b.timingMaxBlocks
  · rw [Snapshot.rescheduleOverdueItems,if_neg (not_not_intro htiming)] at h
    obtain ⟨updates',hupdates,_⟩ := bind_ok h
    exact roomForAll_iff.mp (room_of_rescheduleFrom hremote hupdates)
  · rw [Snapshot.rescheduleOverdueItems,if_pos htiming] at h
    cases h

theorem room_of_recordAccepted {rng : Rng} {equivalent : Bool} {responseCode : Int}
    {responseMessage : Text} {date : Date} {s' : Snapshot} (hremote : remoteHeight < u64Limit)
    (hlocation : s.itemLocation itemId = .ok (b,x))
    (h : s.recordAccepted rng itemId equivalent remoteHeight responseCode responseMessage date =
      .ok s') : RoomForAll remoteHeight (Snapshot.overdue itemId remoteHeight b.items) := by
  have hid := (itemLocation_ok hlocation).isItem
  rw [Snapshot.recordAccepted,hlocation,ok_bind] at h
  by_cases hstatus : x.status = .submitting
  · simp only [hstatus,ne_eq,not_true,if_false] at h
    obtain ⟨⟨b',updates⟩,hreschedule,_⟩ := bind_ok h
    have hroom := room_of_rescheduleOverdueItems hremote hreschedule
    rwa [overdue_setItem b (y := Snapshot.concluded .acceptedAwaitingReconciliation x) hid] at hroom
  · simp only [hstatus,ne_eq,not_false_eq_true,if_true] at h
    cases h

/-- The item while it is being sent. -/
def submitted (attemptId : Text) (startedAt : Date) (x : Item) : Item :=
  { x with status := .submitting, attemptId := some attemptId, attemptStartedAt := some startedAt }

theorem beginSubmission_ok {attemptId : Text} {startedAt : Date} {s' : Snapshot}
    (hlocation : s.itemLocation itemId = .ok (b,x))
    (h : s.beginSubmission itemId attemptId startedAt = .ok s') : x.status = .armed ∧
      s'.itemLocation itemId =
        .ok (setItem (submitted attemptId startedAt x) b,submitted attemptId startedAt x) := by
  have hid := (itemLocation_ok hlocation).isItem
  rw [Snapshot.beginSubmission,hlocation,ok_bind] at h
  by_cases hstatus : x.status = .armed
  · simp only [hstatus,ne_eq,not_true,if_false] at h
    cases h
    exact ⟨hstatus,itemLocation_settle hlocation (y := submitted attemptId startedAt x) hid⟩
  · simp only [hstatus,ne_eq,not_false_eq_true,if_true] at h
    cases h

def crowdedBatch : Batch :=
  stagedBatch ['b'] [stagedItem ['x'] 0,{ stagedItem ['y'] 1 with expiryHeight := 202 },
    { stagedItem ['z'] 2 with expiryHeight := 1000 }]

/-- The batch when its items are armed. -/
def crowdedSnapshot : Snapshot where
  batches := [{ crowdedBatch with
    armedAt := some 0
    items := crowdedBatch.items.map fun item => { item with status := .armed } }]
  receipts := []
  lastAttemptedScopeKey := none
  lastInspectedEndpoint := none
  announcedBroadcastCompleteBatchIds := []

end CoppiceWallet.Outbox
