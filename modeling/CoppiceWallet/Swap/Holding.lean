import CoppiceWallet.Lib.Contracts
import CoppiceWallet.Swap.Ledgers

/-! # What the operations hold -/

namespace CoppiceWallet.Swap

open CoppiceWallet.Lib

namespace Hold

def holds : Hold → String → Bool
  | .nothing,_ => false
  | .shared b,a => b = a
  | .exclusive b,a => b = a

def conflicts : Hold → Hold → Bool
  | .exclusive a,hold => hold.holds a
  | hold,.exclusive a => hold.holds a
  | _,_ => false

@[simp] theorem holds_shared {a b : String} : (shared b).holds a = true ↔ b = a := by
  simp [holds]

@[simp] theorem holds_exclusive {a b : String} : (exclusive b).holds a = true ↔ b = a := by
  simp [holds]

@[simp] theorem holds_nothing {a : String} : ¬nothing.holds a = true := by
  simp [holds]

end Hold

/-- The intent whose checkpoint a save of the account records. -/
def SwapCall.checkpoint (call : SwapCall) (accountUuid : String) : Option String :=
  match call with
  | .saveRecords other _ checkpoint => if other = accountUuid then checkpoint else none
  | _ => none

/-- The lists are as saves and restores leave them. -/
structure SwapWorld.Kept (w : SwapWorld) : Prop where
  saved : ∀ a, ∀ x ∈ w.stored a, isPersistableIntent x a = true
  stored : ∀ a, WellKept (w.stored a)
  memory : WellKept w.intents
  idle : w.activeAccountUuid = none → w.loadedFor = none

def SwapWorld.InSync (w : SwapWorld) (a : String) : Prop :=
  w.inMemory a = true → ledger a w.intents = ledger a (w.stored a)

/-- What others leave of an account's lists while a function holds them shared. -/
structure SharedRely (a : String) (w w' : SwapWorld) : Prop where
  kept : w'.Kept
  ledger : ledger a (w'.stored a) = ledger a (w.stored a)
  sync : w'.InSync a

/-- What others leave of an account's lists while a function holds them exclusively. -/
structure ExclusiveRely (a : String) (w w' : SwapWorld) : Prop where
  kept : w'.Kept
  stored : w'.stored a = w.stored a
  inMemory : w'.inMemory a = w.inMemory a
  intents : w.inMemory a = true → w'.intents = w.intents

def SwapRequest.Held (request : Option SwapRequest) (left : List SwapRequest) (a : String) : Prop :=
  (∃ q ∈ request, q.hold.holds a = true) ∨ ∃ r ∈ left, r.hold.holds a = true

/-- What serving a request does to the stored lists. -/
structure SwapServed (request : SwapRequest) (w w' : SwapWorld) : Prop where
  kept : w'.Kept
  others : ∃ stored, w' = { w with stored := stored }
  extends' : ∀ a, Extends (request.call.checkpoint a) (ledger a (w.stored a)) (ledger a (w'.stored a))
  ledger : ∀ a, request.hold ≠ .exclusive a → ledger a (w'.stored a) = ledger a (w.stored a)
  stored : ∀ a, ¬request.hold.holds a = true → w'.stored a = w.stored a

/-- Nothing is misused, and what a function comes to hold is in sync. -/
structure SwapAllowed (request : Option SwapRequest) (w w' : SwapWorld) (left : List SwapRequest) :
    Prop where
  misuses : w'.misuses = w.misuses
  sync : ∀ a, (∃ r ∈ left, r.hold.holds a = true) →
    (∀ q ∈ request, q.hold ≠ .exclusive a) → w.InSync a

structure SwapRan (request : Option SwapRequest) (w w' : SwapWorld) (left : List SwapRequest) :
    Prop where
  kept : w'.Kept
  stored : w'.stored = w.stored
  held : ∀ a, SwapRequest.Held request left a →
    (∃ r ∈ left, r.hold = .exclusive a) ∨ w'.InSync a
  untouched : ∀ a, ¬SwapRequest.Held request left a →
    w'.inMemory a = w.inMemory a ∧ (w.inMemory a = true → w'.intents = w.intents)

def swapContract : Contract SwapWorld SwapRequest where
  rely request w w' :=
    match request.hold with
    | .nothing => w'.Kept
    | .shared a => SharedRely a w w'
    | .exclusive a => ExclusiveRely a w w'
  served := SwapServed
  allowed := SwapAllowed
  ran := SwapRan

abbrev SwapSat (request : Option SwapRequest) (start : SwapWorld)
    (code : Code SwapWorld SwapRequest SwapRequest.Reply) (w : SwapWorld) : Prop :=
  Sat swapFunctions swapContract request start [] code w

abbrev SwapKeeps (p : Pending SwapWorld SwapRequest SwapRequest.Reply) (w : SwapWorld) : Prop :=
  Keeps swapFunctions swapContract p w

theorem SharedRely.trans {a : String} {u v w : SwapWorld} (h : SharedRely a u v)
    (h' : SharedRely a v w) : SharedRely a u w :=
  ⟨h'.kept,h'.ledger.trans h.ledger,h'.sync⟩

theorem ExclusiveRely.trans {a : String} {u v w : SwapWorld} (h : ExclusiveRely a u v)
    (h' : ExclusiveRely a v w) : ExclusiveRely a u w where
  kept := h'.kept
  stored := h'.stored.trans h.stored
  inMemory := h'.inMemory.trans h.inMemory
  intents hin := (h'.intents (h.inMemory.trans hin)).trans (h.intents hin)

theorem swapContract_trans (request : SwapRequest) (u v w : SwapWorld)
    (h : swapContract.rely request u v) (h' : swapContract.rely request v w) :
    swapContract.rely request u w := by
  obtain ⟨hold,call⟩ := request
  cases hold with
  | nothing => exact h'
  | shared a => exact SharedRely.trans h h'
  | exclusive a => exact ExclusiveRely.trans h h'

theorem swapContract_kept {request : SwapRequest} {u v : SwapWorld}
    (h : swapContract.rely request u v) : v.Kept := by
  obtain ⟨hold,call⟩ := request
  cases hold with
  | nothing => exact h
  | shared a => exact SharedRely.kept h
  | exclusive a => exact ExclusiveRely.kept h

variable {request : Option SwapRequest} {start w : SwapWorld} {a : String}

/-- The lists that a resumed function held are in sync. -/
structure Resumed (request : Option SwapRequest) (start : SwapWorld) : Prop where
  kept : start.Kept
  sync : ∀ q ∈ request, ∀ a, q.hold.holds a = true → start.InSync a

/-- The lists are as they were. -/
structure Quiet (start w : SwapWorld) : Prop where
  stored : w.stored = start.stored
  intents : w.intents = start.intents
  active : w.activeAccountUuid = start.activeAccountUuid
  loadedFor : w.loadedFor = start.loadedFor

theorem Quiet.refl (w : SwapWorld) : Quiet w w := ⟨rfl,rfl,rfl,rfl⟩

theorem Quiet.trans {u : SwapWorld} (h : Quiet start w) (h' : Quiet w u) : Quiet start u :=
  ⟨h'.stored.trans h.stored,h'.intents.trans h.intents,h'.active.trans h.active,
    h'.loadedFor.trans h.loadedFor⟩

theorem Quiet.inMemory (h : Quiet start w) (a : String) : w.inMemory a = start.inMemory a := by
  simp only [SwapWorld.inMemory,h.loadedFor,h.active]

theorem Quiet.inSync (h : Quiet start w) (hsync : start.InSync a) : w.InSync a := by
  intro hin
  rw [h.inMemory] at hin
  rw [h.intents,h.stored]
  exact hsync hin

theorem Quiet.kept (h : Quiet start w) (hkept : start.Kept) : w.Kept where
  saved := h.stored ▸ hkept.saved
  stored := h.stored ▸ hkept.stored
  memory := h.intents ▸ hkept.memory
  idle := by
    rw [h.active,h.loadedFor]
    exact hkept.idle

theorem resumed_none (h : start.Kept) : Resumed none start :=
  ⟨h,fun _ hq => by cases hq⟩

theorem resumed_nothing {c : SwapCall} (h : start.Kept) : Resumed (some ⟨.nothing,c⟩) start := by
  refine ⟨h,?_⟩
  intro q hq b hb
  cases hq
  exact absurd hb Hold.holds_nothing

theorem resumed_shared {c : SwapCall} {u : SwapWorld} (h : SharedRely a u start) :
    Resumed (some ⟨.shared a,c⟩) start := by
  refine ⟨h.kept,?_⟩
  intro q hq b hb
  cases hq
  cases Hold.holds_shared.mp hb
  exact h.sync

theorem resumed_exclusive {c : SwapCall} (h : start.Kept) (hsync : start.InSync a) :
    Resumed (some ⟨.exclusive a,c⟩) start := by
  refine ⟨h,?_⟩
  intro q hq b hb
  cases hq
  cases Hold.holds_exclusive.mp hb
  exact hsync

theorem Resumed.inSync {left : List SwapRequest} (h : Resumed request start)
    (hallowed : SwapAllowed request start w left) (ha : SwapRequest.Held request left a) :
    start.InSync a := by
  rcases ha with ⟨q,hq,ha⟩ | hleft
  · exact h.sync q hq a ha
  · by_cases hexclusive : ∀ q ∈ request, q.hold ≠ .exclusive a
    · exact hallowed.sync a hleft hexclusive
    · push Not at hexclusive
      obtain ⟨q,hq,hhold⟩ := hexclusive
      exact h.sync q hq a (by rw [hhold]; simp)

theorem inMemory_iff : w.inMemory a = true ↔
    w.loadedFor = some a ∧ w.activeAccountUuid = some a := by
  simp [SwapWorld.inMemory]

@[simp] theorem isAccountActive_some : w.isAccountActive (some a) = true ↔
    w.activeAccountUuid = some a := by
  simp [SwapWorld.isAccountActive]

theorem inMemory_unique {b : String} (h : w.inMemory a = true) (h' : w.inMemory b = true) : a = b := by
  rw [inMemory_iff] at h h'
  exact Option.some.inj (h.1.symm.trans h'.1)

theorem ran_memory {left : List SwapRequest} {intents : List SwapIntent} (hkept : start.Kept)
    (hstored : w.stored = start.stored) (hactive : w.activeAccountUuid = start.activeAccountUuid)
    (hintents : w.intents = intents) (hwell : WellKept intents) (hin : w.inMemory a = true)
    (hheld : SwapRequest.Held request left a)
    (hsync : (∃ r ∈ left, r.hold = .exclusive a) ∨
      ledger a intents = ledger a (start.stored a)) : SwapRan request start w left := by
  rw [inMemory_iff] at hin
  have hsame {b : String} (hb : w.inMemory b = true) : b = a :=
    inMemory_unique hb (inMemory_iff.mpr hin)
  have hstart {b : String} (hb : start.inMemory b = true) : b = a := by
    rw [inMemory_iff,← hactive,hin.2] at hb
    exact (Option.some.inj hb.2).symm
  constructor
  · refine ⟨hstored ▸ hkept.saved,hstored ▸ hkept.stored,hintents ▸ hwell,?_⟩
    rw [hin.2]
    simp
  · exact hstored
  · intro b hb
    by_cases hba : b = a
    · subst hba
      rcases hsync with hexclusive | hledger
      · exact .inl hexclusive
      · refine .inr fun _ => ?_
        rw [hintents,hstored]
        exact hledger
    · exact .inr fun hb => absurd (hsame hb) hba
  · intro b hb
    have hne : b ≠ a := fun heq => hb (heq ▸ hheld)
    have hfalse : w.inMemory b = false := by
      cases h : w.inMemory b with
      | false => rfl
      | true => exact absurd (hsame h) hne
    have hfalse' : start.inMemory b = false := by
      cases h : start.inMemory b with
      | false => rfl
      | true => exact absurd (hstart h) hne
    rw [hfalse,hfalse']
    exact ⟨rfl,fun h => by cases h⟩

/-- What a function did so far is as agreed, when it ends or asks from here, or changes the list
in memory of an account that it holds. -/
structure Segment (request : Option SwapRequest) (start w : SwapWorld) : Prop where
  kept : w.Kept
  misuses : start.misuses <:+ w.misuses
  stored : w.stored = start.stored
  active : w.activeAccountUuid = start.activeAccountUuid
  startKept : start.Kept
  sync : ∀ w' left b, SwapAllowed request start w' left → SwapRequest.Held request left b → w.InSync b
  ran : ∀ w' left, Quiet w w' → SwapAllowed request start w' left →
    SwapRan request start w' left

theorem Resumed.segment (h : Resumed request start) : Segment request start start where
  kept := h.kept
  misuses := List.suffix_rfl
  stored := rfl
  active := rfl
  startKept := h.kept
  sync _ _ _ hallowed ha := h.inSync hallowed ha
  ran _ _ hquiet hallowed :=
    { kept := hquiet.kept h.kept
      stored := hquiet.stored
      held := fun _ ha => .inr (hquiet.inSync (h.inSync hallowed ha))
      untouched := fun _ _ => ⟨hquiet.inMemory _,fun _ => hquiet.intents⟩ }

theorem Segment.quiet {w' : SwapWorld} (h : Segment request start w) (hquiet : Quiet w w')
    (hmisuses : w.misuses <:+ w'.misuses) : Segment request start w' where
  kept := hquiet.kept h.kept
  misuses := h.misuses.trans hmisuses
  stored := hquiet.stored.trans h.stored
  active := hquiet.active.trans h.active
  startKept := h.startKept
  sync u left b hallowed hb := hquiet.inSync (h.sync u left b hallowed hb)
  ran u left hu hallowed := h.ran u left (hquiet.trans hu) hallowed

theorem Segment.ran_memory {w' : SwapWorld} {left : List SwapRequest} (h : Segment request start w)
    (hstored : w'.stored = w.stored) (hactive : w'.activeAccountUuid = w.activeAccountUuid)
    (hwell : WellKept w'.intents) (hin : w'.inMemory a = true)
    (hheld : SwapRequest.Held request left a)
    (hsync : (∃ r ∈ left, r.hold = .exclusive a) ∨
      ledger a w'.intents = ledger a (w.stored a)) : SwapRan request start w' left :=
  CoppiceWallet.Swap.ran_memory h.startKept (hstored.trans h.stored) (hactive.trans h.active) rfl
    hwell hin hheld (h.stored ▸ hsync)

theorem Segment.memory {w' : SwapWorld} (h : Segment request start w)
    (hstored : w'.stored = w.stored) (hactive : w'.activeAccountUuid = w.activeAccountUuid)
    (hwell : WellKept w'.intents) (hin : w'.inMemory a = true)
    (hheld : ∀ left, SwapRequest.Held request left a)
    (hledger : ledger a w'.intents = ledger a (w.stored a))
    (hmisuses : w.misuses <:+ w'.misuses) : Segment request start w' where
  kept := by
    have hran : SwapRan request start w' [] := h.ran_memory hstored hactive hwell hin (hheld _) (.inr hledger)
    exact hran.kept
  misuses := h.misuses.trans hmisuses
  stored := hstored.trans h.stored
  active := hactive.trans h.active
  startKept := h.startKept
  sync _ _ b _ _ hb := by
    cases inMemory_unique hin hb
    rw [hledger,hstored]
  ran u left hu _ := by
    apply h.ran_memory (hu.stored.trans hstored) (hu.active.trans hactive) _ _ (hheld _) (.inr _)
    · exact hu.intents ▸ hwell
    · exact (hu.inMemory a).trans hin
    · exact hu.intents ▸ hledger

end CoppiceWallet.Swap
