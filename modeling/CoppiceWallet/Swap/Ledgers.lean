import Mathlib.Data.List.Nodup
import CoppiceWallet.Swap.Deposits

/-! # The deposits of a list of intents -/

namespace CoppiceWallet.Swap

structure DepositCard where
  id : String
  depositAddress : Option String
  providerQuoteId : Option String
  depositTxHash : Option String
  broadcastStatus : Option String
  depositClaimedAt : Option Nat
  deriving DecidableEq

def SwapIntent.card (intent : SwapIntent) : DepositCard :=
  ⟨intent.id,intent.depositAddress,intent.providerQuoteId,intent.depositTxHash,
    intent.broadcastStatus,intent.depositClaimedAt⟩

def ledger (accountUuid : String) (intents : List SwapIntent) : List DepositCard :=
  (intents.filter (isPersistableIntent · accountUuid)).map SwapIntent.card

/-- Lists in which an id names one intent. -/
structure WellKept (intents : List SwapIntent) : Prop where
  ids : (intents.map (·.id)).Nodup
  addressed : ∀ intent ∈ intents, intent.Addressed

/-- A record of the deposit that keeps all that is saved, unless a checkpoint replaces the hash. -/
structure Supersedes (checkpoint : Option String) (old new : DepositCard) : Prop where
  id : new.id = old.id
  depositAddress : new.depositAddress = old.depositAddress
  providerQuoteId : new.providerQuoteId = old.providerQuoteId
  depositClaimedAt : old.depositClaimedAt.isSome → new.depositClaimedAt = old.depositClaimedAt
  depositTxHash : old.depositTxHash.isSome → checkpoint = some old.id ∨
    new.depositTxHash = old.depositTxHash ∧ new.broadcastStatus = old.broadcastStatus

def Extends (checkpoint : Option String) (v v' : List DepositCard) : Prop :=
  ∀ old ∈ v, ∃ new ∈ v', Supersedes checkpoint old new

theorem Supersedes.refl (checkpoint : Option String) (card : DepositCard) :
    Supersedes checkpoint card card :=
  ⟨rfl,rfl,rfl,fun _ => rfl,fun _ => .inr ⟨rfl,rfl⟩⟩

variable {v : List DepositCard}

theorem extends_of_subset {checkpoint : Option String} {v' : List DepositCard} (h : v ⊆ v') :
    Extends checkpoint v v' := by
  intro old hold
  exact ⟨old,h hold,.refl checkpoint old⟩

variable {a : String} {intents : List SwapIntent} {x y u : SwapIntent}

theorem mem_ledger {card : DepositCard} : card ∈ ledger a intents ↔
    ∃ x ∈ intents, isPersistableIntent x a = true ∧ x.card = card := by
  simp [ledger,and_assoc]

theorem card_mem_ledger (hx : x ∈ intents) (h : isPersistableIntent x a = true) :
    x.card ∈ ledger a intents :=
  mem_ledger.mpr ⟨x,hx,h,rfl⟩

theorem id_of_card (h : x.card = y.card) : x.id = y.id := congrArg DepositCard.id h

theorem isPersistableIntent_account (h : isPersistableIntent x a = true) :
    x.accountUuid = some a := by
  simp only [isPersistableIntent,Bool.and_eq_true,decide_eq_true_eq] at h
  exact h.1.1.1

/-- The second intent is saved when the first is, and then with the same deposit. -/
def Alike (a : String) (x y : SwapIntent) : Prop :=
  isPersistableIntent y a = isPersistableIntent x a ∧
    (isPersistableIntent x a = true → y.card = x.card)

theorem Alike.of_fields (hid : y.id = x.id) (haccount : y.accountUuid = x.accountUuid)
    (hdirection : y.direction = x.direction) (haddress : y.depositAddress = x.depositAddress)
    (hquote : y.providerQuoteId = x.providerQuoteId) (hhash : y.depositTxHash = x.depositTxHash)
    (hstatus : y.broadcastStatus = x.broadcastStatus)
    (hclaim : y.depositClaimedAt = x.depositClaimedAt) : Alike a x y := by
  constructor
  · simp only [isPersistableIntent,haccount,hdirection,haddress,hquote,hhash]
  · intro _
    simp only [SwapIntent.card,hid,haddress,hquote,hhash,hstatus,hclaim]

theorem SwapIntent.Addressed.of_fields (h : x.Addressed) (haddress : y.depositAddress = x.depositAddress)
    (haccount : y.accountUuid = x.accountUuid) (hdirection : y.direction = x.direction) :
    y.Addressed :=
  ⟨hdirection ▸ h.direction,haddress ▸ h.depositAddress,haccount ▸ h.accountUuid⟩

theorem address_updateSwapIntentFromSnapshot (h : x.Addressed) (snapshot : SwapIntentSnapshot)
    (timestamp : Nat) (checkedAt : Option Nat) (now : Nat) :
    (updateSwapIntentFromSnapshot x snapshot timestamp checkedAt now).depositAddress =
      x.depositAddress := by
  obtain ⟨address,hsome⟩ := Option.isSome_iff_exists.mp h.depositAddress
  show x.depositAddress.orElse _ = x.depositAddress
  rw [hsome]
  rfl

theorem ledger_map_alike {f : SwapIntent → SwapIntent} (h : ∀ x ∈ intents, Alike a x (f x)) :
    ledger a (intents.map f) = ledger a intents := by
  induction intents with
  | nil => rfl
  | cons x xs ih =>
    have hrest := ih fun y hy => h y (List.mem_cons_of_mem _ hy)
    obtain ⟨hsaved,hcard⟩ := h x List.mem_cons_self
    simp only [ledger,List.map_cons,List.filter_cons,hsaved] at hrest ⊢
    split
    · rename_i hx
      simp only [List.map_cons,hcard hx,hrest]
    · exact hrest

theorem alike_swapIntentFromRecord (now : Nat) : Alike a x (swapIntentFromRecord now x) :=
  .of_fields rfl rfl rfl rfl rfl rfl rfl rfl

theorem WellKept.map {f : SwapIntent → SwapIntent} (h : WellKept intents)
    (hid : ∀ x ∈ intents, (f x).id = x.id)
    (haddress : ∀ x ∈ intents, x.Addressed → (f x).Addressed) :
    WellKept (intents.map f) := by
  constructor
  · have hids : (intents.map f).map (·.id) = intents.map (·.id) := by
      rw [List.map_map]
      exact List.map_congr_left hid
    rw [hids]
    exact h.ids
  · intro y hy
    obtain ⟨x,hx,rfl⟩ := List.mem_map.mp hy
    exact haddress x hx (h.addressed x hx)

theorem wellKept_records (h : WellKept intents) (now : Nat) :
    WellKept (intents.map (swapIntentFromRecord now)) :=
  h.map (fun _ _ => rfl) fun _ _ h => ⟨h.direction,h.depositAddress,h.accountUuid⟩

theorem ledger_records (now : Nat) :
    ledger a (intents.map (swapIntentFromRecord now)) = ledger a intents :=
  ledger_map_alike fun _ _ => alike_swapIntentFromRecord now

variable {id : String}

theorem swapIntentById_mem (h : swapIntentById intents id = some x) : x ∈ intents ∧ x.id = id := by
  have hid := List.find?_some h
  exact ⟨List.mem_of_find?_eq_some h,by simpa using hid⟩

theorem WellKept.eq (h : WellKept intents) (hx : x ∈ intents) (hy : y ∈ intents)
    (hid : x.id = y.id) : x = y :=
  List.inj_on_of_nodup_map h.ids hx hy hid

theorem alike_of_ledger {other : List SwapIntent} (h : WellKept intents) (hother : WellKept other)
    (hledger : ledger a other = ledger a intents) (hx : x ∈ intents) (hy : y ∈ other)
    (hid : y.id = x.id) : Alike a x y := by
  have hforward : isPersistableIntent x a = true → isPersistableIntent y a = true ∧
      y.card = x.card := by
    intro hsaved
    have hmem := card_mem_ledger hx hsaved
    rw [← hledger] at hmem
    obtain ⟨z,hz,hzsaved,hcard⟩ := mem_ledger.mp hmem
    have heq : z = y := hother.eq hz hy ((id_of_card hcard).trans hid.symm)
    exact heq ▸ ⟨hzsaved,hcard⟩
  have hbackward : isPersistableIntent y a = true → isPersistableIntent x a = true := by
    intro hsaved
    have hmem := card_mem_ledger hy hsaved
    rw [hledger] at hmem
    obtain ⟨z,hz,hzsaved,hcard⟩ := mem_ledger.mp hmem
    have heq : z = x := h.eq hz hx ((id_of_card hcard).trans hid)
    exact heq ▸ hzsaved
  constructor
  · cases hsaved : isPersistableIntent x a with
    | true => exact (hforward hsaved).1
    | false =>
      cases hy' : isPersistableIntent y a with
      | false => rfl
      | true => rw [hbackward hy'] at hsaved; cases hsaved
  · exact fun hsaved => (hforward hsaved).2

theorem ledger_replace (h : ∀ x ∈ intents, x.id = id → Alike a x u) :
    ledger a (replaceSwapIntent intents id u) = ledger a intents := by
  apply ledger_map_alike
  intro x hx
  split
  · rename_i hid
    exact h x hx hid
  · exact ⟨rfl,fun _ => rfl⟩

theorem ids_replace (hid : u.id = id) :
    (replaceSwapIntent intents id u).map (·.id) = intents.map (·.id) := by
  rw [replaceSwapIntent,List.map_map]
  apply List.map_congr_left
  intro x _
  simp only [Function.comp_apply]
  split
  · rename_i hx
    rw [hid,hx]
  · rfl

theorem WellKept.replace (h : WellKept intents) (hid : u.id = id) (haddress : u.Addressed) :
    WellKept (replaceSwapIntent intents id u) := by
  constructor
  · rw [ids_replace hid]
    exact h.ids
  · intro y hy
    obtain ⟨x,hx,rfl⟩ := List.mem_map.mp hy
    split
    · exact haddress
    · exact h.addressed x hx

theorem mem_replace (hx : x ∈ intents) (hid : x.id = id) : u ∈ replaceSwapIntent intents id u :=
  List.mem_map.mpr ⟨x,hx,if_pos hid⟩

theorem extends_replace {checkpoint : Option String}
    (h : ∀ x ∈ intents, x.id = id → isPersistableIntent x a = true →
      isPersistableIntent u a = true ∧ Supersedes checkpoint x.card u.card) :
    Extends checkpoint (ledger a intents) (ledger a (replaceSwapIntent intents id u)) := by
  intro old hold
  obtain ⟨x,hx,hsaved,rfl⟩ := mem_ledger.mp hold
  by_cases hid : x.id = id
  · obtain ⟨husaved,hcard⟩ := h x hx hid hsaved
    exact ⟨u.card,card_mem_ledger (mem_replace hx hid) husaved,hcard⟩
  · have hmem : x ∈ replaceSwapIntent intents id u := List.mem_map.mpr ⟨x,hx,if_neg hid⟩
    exact ⟨x.card,card_mem_ledger hmem hsaved,.refl checkpoint _⟩

/-- What a refresh holds of the intents that it was started with. -/
structure Refreshed (a : String) (v : List DepositCard) (intents : List SwapIntent) : Prop where
  wellKept : WellKept intents
  ledger : ledger a intents = v

/-- What is found in the stored list of an account. -/
structure Loaded (a : String) (v : List DepositCard) (intents : List SwapIntent) : Prop extends
    Refreshed a v intents where
  saved : ∀ x ∈ intents, isPersistableIntent x a = true

theorem Refreshed.replace (h : Refreshed a v intents) (hx : ∀ x ∈ intents, x.id = id → Alike a x u)
    (hid : u.id = id) (haddress : u.Addressed) : Refreshed a v (replaceSwapIntent intents id u) :=
  ⟨h.wellKept.replace hid haddress,(ledger_replace hx).trans h.ledger⟩

theorem Refreshed.merge {refreshed latest : List SwapIntent} (h : Refreshed a v refreshed)
    (hlatest : Refreshed a v latest) (ids : List String) :
    Refreshed a v (mergeRefreshed refreshed latest ids) := by
  rw [mergeRefreshed]
  induction ids generalizing latest with
  | nil => exact hlatest
  | cons id ids ih =>
    rw [List.foldl_cons]
    apply ih
    cases hfound : swapIntentById refreshed id with
    | none => exact hlatest
    | some y =>
      obtain ⟨hy,hid⟩ := swapIntentById_mem hfound
      apply hlatest.replace _ hid (h.wellKept.addressed y hy)
      intro x hx hxid
      exact alike_of_ledger hlatest.wellKept h.wellKept (h.ledger.trans hlatest.ledger.symm) hx hy
        (hid.trans hxid.symm)

theorem Refreshed.reconcile {refreshed current : List SwapIntent} (h : Refreshed a v refreshed)
    (hcurrent : Refreshed a v current) (ids : List String) :
    Refreshed a v (reconcileRefreshedSwapIntents current refreshed ids) := by
  have halike : ∀ x ∈ current, ∀ y, swapIntentById refreshed.reverse x.id = some y →
      Alike a x y ∧ y.id = x.id ∧ y.Addressed := by
    intro x hx y hy
    obtain ⟨hmem,hid⟩ := swapIntentById_mem hy
    rw [List.mem_reverse] at hmem
    exact ⟨alike_of_ledger hcurrent.wellKept h.wellKept (h.ledger.trans hcurrent.ledger.symm) hx
      hmem hid,hid,h.wellKept.addressed y hmem⟩
  constructor
  · apply hcurrent.wellKept.map
    · intro x hx
      split
      · cases hy : swapIntentById refreshed.reverse x.id with
        | none => rfl
        | some y => exact (halike x hx y hy).2.1
      · rfl
    · intro x hx haddress
      split
      · cases hy : swapIntentById refreshed.reverse x.id with
        | none => exact haddress
        | some y => exact (halike x hx y hy).2.2
      · exact haddress
  · rw [← hcurrent.ledger]
    apply ledger_map_alike
    intro x hx
    split
    · cases hy : swapIntentById refreshed.reverse x.id with
      | none => exact ⟨rfl,fun _ => rfl⟩
      | some y => exact (halike x hx y hy).1
    · exact ⟨rfl,fun _ => rfl⟩

theorem isPersistableIntent_saved : ∀ x ∈ savedRecords a intents, isPersistableIntent x a = true := by
  intro x hx
  obtain ⟨y,hy,rfl⟩ := List.mem_map.mp hx
  have hsaved := (List.mem_filter.mp hy).2
  simp only [isPersistableIntent,Bool.and_eq_true,decide_eq_true_eq] at hsaved ⊢
  exact ⟨⟨⟨trivial,hsaved.1.1.2⟩,hsaved.1.2⟩,hsaved.2⟩

theorem savedRecords_eq : savedRecords a intents =
    intents.filter (isPersistableIntent · a) := by
  rw [savedRecords]
  conv_rhs => rw [← List.map_id (intents.filter _)]
  apply List.map_congr_left
  intro x hx
  have haccount := isPersistableIntent_account (List.mem_filter.mp hx).2
  cases x
  simp only [id_eq] at haccount ⊢
  rw [haccount]

theorem ledger_savedRecords : ledger a (savedRecords a intents) = ledger a intents := by
  rw [savedRecords_eq,ledger,List.filter_filter]
  simp [ledger]

theorem WellKept.savedRecords (h : WellKept intents) : WellKept (savedRecords a intents) := by
  rw [savedRecords_eq]
  constructor
  · exact h.ids.sublist (List.filter_sublist.map _)
  · intro x hx
    exact h.addressed x (List.mem_filter.mp hx).1

end CoppiceWallet.Swap
