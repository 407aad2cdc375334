import CoppiceWallet.Swap.Broadcasts

/-! # No deposit record is lost -/

namespace CoppiceWallet.Swap

open CoppiceWallet.Lib

variable {l l' : SwapLoop} {a : String} {request : Option SwapRequest}

/-- No function holds a list that another function holds exclusively. -/
def Disciplined (requests : List SwapRequest) : Prop :=
  requests.Pairwise fun q r => ¬q.hold.conflicts r.hold = true

theorem Hold.conflicts_comm (hold other : Hold) : hold.conflicts other = other.conflicts hold := by
  cases hold <;> cases other <;> simp [conflicts,holds,eq_comm]

theorem Hold.conflicts_of_exclusive {hold : Hold} (h : hold.holds a = true) :
    (exclusive a).conflicts hold = true :=
  h

theorem Disciplined.perm {requests requests' : List SwapRequest} (h : Disciplined requests)
    (hperm : requests.Perm requests') : Disciplined requests' := by
  refine (hperm.pairwise_iff ?_).mp h
  intro q r hqr
  rw [Hold.conflicts_comm]
  exact hqr

theorem Disciplined.apart {requests : List SwapRequest} {e : SwapRequest}
    (h : Disciplined (e :: requests)) {q : SwapRequest} (hq : q ∈ requests) :
    ¬e.hold.conflicts q.hold = true :=
  (List.pairwise_cons.mp h).1 q hq

instance (requests : List SwapRequest) : Decidable (Disciplined requests) :=
  inferInstanceAs (Decidable (List.Pairwise _ _))

/-- A step keeps the discipline and misuses nothing. -/
def Orderly (input : LoopInput SwapInput SwapAnswer) (l : SwapLoop) : Prop :=
  match swapStep input l with
  | .ok l' => Disciplined l'.requests ∧ l'.state.misuses = l.state.misuses
  | .error _ => True

instance (input : LoopInput SwapInput SwapAnswer) (l : SwapLoop) : Decidable (Orderly input l) :=
  match h : swapStep input l with
  | .ok l' =>
    decidable_of_iff (Disciplined l'.requests ∧ l'.state.misuses = l.state.misuses)
      (by rw [Orderly,h])
  | .error _ => .isTrue (by rw [Orderly,h]; trivial)

/-- The intent whose checkpoint a step saves for the account. -/
def checkpointOf (input : LoopInput SwapInput SwapAnswer) (l : SwapLoop) (a : String) :
    Option String :=
  match input with
  | .serve i _ => l.tasks[i]?.bind fun task => task.request.call.checkpoint a
  | _ => none

/-- The lists of an account agree unless somebody is about to save a change. -/
structure Safe (l : SwapLoop) : Prop where
  sound : l.Sound swapFunctions swapContract
  kept : l.state.Kept
  disciplined : Disciplined l.requests
  sync : ∀ a, (∃ q ∈ l.requests, q.hold = .exclusive a) ∨ l.state.InSync a

theorem Safe.inSync (h : Safe l) {q : SwapRequest} (hq : q ∈ l.requests) (hshared : q.hold = .shared a) :
    l.state.InSync a := by
  rcases h.sync a with ⟨e,he,hexclusive⟩ | hsync
  · have hne : e ≠ q := by
      intro heq
      rw [heq,hshared] at hexclusive
      cases hexclusive
    obtain ⟨rest,hperm⟩ : ∃ rest, l.requests.Perm (e :: rest) := ⟨_,List.perm_cons_erase he⟩
    have hmem : q ∈ rest := by
      have hcons := hperm.mem_iff.mp hq
      exact (List.mem_cons.mp hcons).resolve_left (Ne.symm hne)
    have hapart := (h.disciplined.perm hperm).apart hmem
    rw [hexclusive,hshared] at hapart
    exact absurd (Hold.conflicts_of_exclusive (Hold.holds_shared.mpr rfl)) hapart
  · exact hsync

variable {left : List SwapRequest}

theorem rely_of_ran {w w' : SwapWorld} {e : SwapRequest} (hran : SwapRan request w w' left)
    (hbefore : ∀ q ∈ request, ¬e.hold.conflicts q.hold = true)
    (hafter : ∀ r ∈ left, ¬e.hold.conflicts r.hold = true)
    (hsync : ∀ a, e.hold = .shared a → w.InSync a) : swapContract.rely e w w' := by
  obtain ⟨hold,call⟩ := e
  cases hold with
  | nothing => exact hran.kept
  | shared a =>
    refine ⟨hran.kept,by rw [hran.stored],?_⟩
    by_cases hheld : SwapRequest.Held request left a
    · rcases hran.held a hheld with ⟨r,hr,hexclusive⟩ | hin
      · have hapart := hafter r hr
        rw [hexclusive,Hold.conflicts_comm] at hapart
        exact absurd (Hold.conflicts_of_exclusive (Hold.holds_shared.mpr rfl)) hapart
      · exact hin
    · obtain ⟨hmemory,hintents⟩ := hran.untouched a hheld
      intro hin
      rw [hmemory] at hin
      rw [hintents hin,hran.stored]
      exact hsync a rfl hin
  | exclusive a =>
    have hheld : ¬SwapRequest.Held request left a := by
      rintro (⟨q,hq,ha⟩ | ⟨r,hr,ha⟩)
      · exact hbefore q hq (Hold.conflicts_of_exclusive ha)
      · exact hafter r hr (Hold.conflicts_of_exclusive ha)
    obtain ⟨hmemory,hintents⟩ := hran.untouched a hheld
    exact ⟨hran.kept,by rw [hran.stored],hmemory,hintents⟩

theorem rely_of_served {w w' : SwapWorld} {q e : SwapRequest} (hserved : SwapServed q w w')
    (hapart : ¬q.hold.conflicts e.hold = true) (hsync : ∀ a, e.hold = .shared a → w.InSync a) :
    swapContract.rely e w w' := by
  obtain ⟨hold,call⟩ := e
  obtain ⟨stored,hstored⟩ := hserved.others
  cases hold with
  | nothing => exact hserved.kept
  | shared a =>
    have hne : q.hold ≠ .exclusive a := by
      intro hexclusive
      rw [hexclusive] at hapart
      exact hapart (Hold.conflicts_of_exclusive (Hold.holds_shared.mpr rfl))
    refine ⟨hserved.kept,hserved.ledger a hne,?_⟩
    intro hin
    rw [hserved.ledger a hne]
    subst hstored
    exact hsync a rfl hin
  | exclusive a =>
    have hnot : ¬q.hold.holds a = true := by
      intro ha
      rw [Hold.conflicts_comm] at hapart
      exact hapart (Hold.conflicts_of_exclusive ha)
    refine ⟨hserved.kept,hserved.stored a hnot,?_,?_⟩
    · subst hstored
      rfl
    · intro _
      subst hstored
      rfl

theorem sync_of_ran {w w' : SwapWorld} (hran : SwapRan request w w' left)
    (hsync : (∃ q ∈ request, q.hold = .exclusive a) ∨ w.InSync a) :
    (∃ r ∈ left, r.hold = .exclusive a) ∨ w'.InSync a := by
  by_cases hheld : SwapRequest.Held request left a
  · exact hran.held a hheld
  · obtain ⟨hmemory,hintents⟩ := hran.untouched a hheld
    rcases hsync with ⟨q,hq,hexclusive⟩ | hsync
    · exact absurd (.inl ⟨q,hq,by rw [hexclusive]; simp⟩) hheld
    · refine .inr fun hin => ?_
      rw [hmemory] at hin
      rw [hintents hin,hran.stored]
      exact hsync hin

variable {kept : List SwapRequest}

theorem Safe.allowed (h : Safe l) {w' : SwapWorld}
    (hbefore : l.requests.Perm (request.toList ++ kept)) (hafter : Disciplined (kept ++ left))
    (hmisuses : w'.misuses = l.state.misuses) : SwapAllowed request l.state w' left := by
  refine ⟨hmisuses,?_⟩
  intro a ⟨r,hr,ha⟩ hnot
  rcases h.sync a with ⟨e,he,hexclusive⟩ | hsync
  · rcases List.mem_append.mp (hbefore.mem_iff.mp he) with hown | hkept
    · exact absurd hexclusive (hnot e (Option.mem_toList.mp hown))
    · have hapart := (List.pairwise_append.mp hafter).2.2 e hkept r hr
      rw [hexclusive] at hapart
      exact absurd (Hold.conflicts_of_exclusive ha) hapart
  · exact hsync

theorem Safe.ran (h : Safe l) (hran : SwapRan request l.state l'.state left)
    (hbefore : l.requests.Perm (request.toList ++ kept)) (hafter : l'.requests = kept ++ left)
    (hdisciplined : Disciplined l'.requests)
    (hsound : (∀ e ∈ kept, swapContract.rely e l.state l'.state) →
      l'.Sound swapFunctions swapContract) : Safe l' := by
  have hapart := h.disciplined.perm hbefore
  have hapart' := hdisciplined
  rw [hafter] at hapart'
  refine ⟨hsound ?_,hran.kept,hdisciplined,?_⟩
  · intro e he
    have hmem : e ∈ l.requests := hbefore.mem_iff.mpr (List.mem_append_right _ he)
    apply rely_of_ran hran
    · intro q hq
      rw [Hold.conflicts_comm]
      exact (List.pairwise_append.mp hapart).2.2 q (Option.mem_toList.mpr hq) e he
    · intro r hr
      exact (List.pairwise_append.mp hapart').2.2 e he r hr
    · exact fun a ha => h.inSync hmem ha
  · intro a
    rw [hafter]
    rcases h.sync a with ⟨e,he,hexclusive⟩ | hsync
    · rcases List.mem_append.mp (hbefore.mem_iff.mp he) with hown | hkept
      · rcases sync_of_ran hran (.inl ⟨e,Option.mem_toList.mp hown,hexclusive⟩) with
          ⟨r,hr,hr'⟩ | hsync
        · exact .inl ⟨r,List.mem_append_right _ hr,hr'⟩
        · exact .inr hsync
      · exact .inl ⟨e,List.mem_append_left _ hkept,hexclusive⟩
    · rcases sync_of_ran hran (.inr hsync) with ⟨r,hr,hr'⟩ | hsync
      · exact .inl ⟨r,List.mem_append_right _ hr,hr'⟩
      · exact .inr hsync

theorem Safe.served (h : Safe l) {q : SwapRequest} (hserved : SwapServed q l.state l'.state)
    (hbefore : l.requests.Perm (q :: kept)) (hafter : l'.requests = kept ++ [q])
    (hsound : (∀ e ∈ kept, swapContract.rely e l.state l'.state) →
      l'.Sound swapFunctions swapContract) : Safe l' := by
  have hperm : l.requests.Perm l'.requests := by
    rw [hafter]
    exact hbefore.trans (List.perm_append_singleton q kept).symm
  refine ⟨hsound ?_,hserved.kept,h.disciplined.perm hperm,?_⟩
  · intro e he
    have hmem : e ∈ l.requests := hbefore.mem_iff.mpr (List.mem_cons_of_mem _ he)
    exact rely_of_served hserved ((h.disciplined.perm hbefore).apart he) fun a ha => h.inSync hmem ha
  · intro a
    by_cases hexclusive : q.hold = .exclusive a
    · exact .inl ⟨q,by simp [hafter],hexclusive⟩
    · rcases h.sync a with ⟨e,he,hexclusive'⟩ | hsync
      · exact .inl ⟨e,hperm.mem_iff.mp he,hexclusive'⟩
      · refine .inr fun hin => ?_
        rw [hserved.ledger a hexclusive]
        obtain ⟨stored,hstored⟩ := hserved.others
        rw [hstored] at hin ⊢
        exact hsync hin

theorem requests_running (l : SwapLoop) (code : Code SwapWorld SwapRequest SwapRequest.Reply) :
    (l.running code).requests = l.requests ++ (code.run l.state).2.map Pending.request := by
  simp [EventLoop.requests,EventLoop.running,Function.comp_def]

variable {input : LoopInput SwapInput SwapAnswer}

theorem Safe.allows (h : Safe l) (horderly : Orderly input l) (hstep : swapStep input l = .ok l') :
    Allowed swapFunctions swapContract input l := by
  rw [Orderly,hstep] at horderly
  cases input with
  | call input =>
    cases hstep
    have hbefore : l.requests.Perm ((none : Option SwapRequest).toList ++ l.requests) := .refl _
    apply h.allowed hbefore _ horderly.2
    rw [← requests_running]
    exact horderly.1
  | serve i answer => trivial
  | resume i =>
    intro e code htask
    obtain ⟨e',code',htask',rfl⟩ := EventLoop.step_resume hstep
    cases htask.symm.trans htask'
    apply h.allowed (requests_perm htask) _ horderly.2
    have hdisciplined := horderly.1
    rw [requests_running] at hdisciplined
    exact hdisciplined

theorem Safe.rely (h : Safe l) {e : SwapRequest} (he : e ∈ l.requests) :
    swapContract.rely e l.state l.state := by
  obtain ⟨hold,call⟩ := e
  cases hold with
  | nothing => exact h.kept
  | shared a => exact ⟨h.kept,rfl,h.inSync he rfl⟩
  | exclusive a => exact ⟨h.kept,rfl,rfl,fun _ => rfl⟩

theorem Safe.step (h : Safe l) (horderly : Orderly input l) (hstep : swapStep input l = .ok l') :
    Safe l' ∧ ∀ a, Extends (checkpointOf input l a) (ledger a (l.state.stored a))
      (ledger a (l'.state.stored a)) := by
  have hallowed := h.allows horderly hstep
  rw [Orderly,hstep] at horderly
  obtain ⟨kept,hmove,hsound⟩ := h.sound.step swapContract_trans (fun e he => h.rely he)
    (fun input _ => sat_body input h.kept) hallowed hstep
  have hsame {left : List SwapRequest} {request : Option SwapRequest}
      (hran : SwapRan request l.state l'.state left) (checkpoint : Option String) (a : String) :
      Extends checkpoint (ledger a (l.state.stored a)) (ledger a (l'.state.stored a)) := by
    rw [hran.stored]
    exact extends_of_subset fun _ hx => hx
  cases hmove with
  | called input left ran hbefore hafter =>
    refine ⟨h.ran ran (by simp [hbefore]) hafter horderly.1 hsound,?_⟩
    exact fun a => hsame ran _ a
  | served i answer task htask served hbefore hafter =>
    refine ⟨h.served served hbefore hafter hsound,?_⟩
    intro a
    rw [checkpointOf,htask]
    exact served.extends' a
  | resumed i e left ran hbefore hafter =>
    refine ⟨h.ran ran hbefore hafter horderly.1 hsound,?_⟩
    exact fun a => hsame ran _ a

/-- Every list is in the form in which it is saved. -/
structure WellStored (stored : String → List SwapIntent) : Prop where
  saved : ∀ a, ∀ x ∈ stored a, isPersistableIntent x a = true
  ids : ∀ a, ((stored a).map (·.id)).Nodup

theorem WellStored.wellKept {stored : String → List SwapIntent} (h : WellStored stored) (a : String) :
    WellKept (stored a) where
  ids := h.ids a
  addressed x hx := by
    obtain ⟨haccount,hdirection,haddress,_⟩ := isPersistableIntent_iff.mp (h.saved a x hx)
    exact ⟨hdirection,haddress,by rw [haccount]; rfl⟩

theorem safe_built {stored : String → List SwapIntent} (h : WellStored stored)
    (activeAccountUuid : Option String) : Safe (.built stored activeAccountUuid) := by
  have hmemory (b : String) : ¬(SwapLoop.built stored activeAccountUuid).state.inMemory b = true := by
    cases activeAccountUuid <;> exact fun h => by cases (inMemory_iff.mp h).1
  constructor
  · intro task htask
    cases activeAccountUuid with
    | none => cases htask
    | some a =>
      cases List.mem_singleton.mp htask
      exact keeps_restore
  · cases activeAccountUuid <;>
      exact ⟨h.saved,h.wellKept,⟨List.nodup_nil,fun _ hx => by cases hx⟩,fun _ => rfl⟩
  · cases activeAccountUuid
    · exact List.Pairwise.nil
    · exact List.pairwise_singleton _ _
  · exact fun b => .inr fun hb => absurd hb (hmemory b)

/-- What a later list still records of a deposit, whatever checkpoints it. -/
def Recorded (x : SwapIntent) (intents : List SwapIntent) : Prop :=
  ∃ y ∈ intents, y.id = x.id ∧ y.depositAddress = x.depositAddress ∧
    y.providerQuoteId = x.providerQuoteId ∧
      (x.depositClaimedAt.isSome → y.depositClaimedAt = x.depositClaimedAt)

/-- What a later list still records of a deposit transaction. -/
def HashRecorded (x : SwapIntent) (intents : List SwapIntent) : Prop :=
  ∃ y ∈ intents, y.id = x.id ∧ (x.depositTxHash.isSome →
    y.depositTxHash = x.depositTxHash ∧ y.broadcastStatus = x.broadcastStatus)

theorem Safe.keeps (h : Safe l) (horderly : Orderly input l) (hstep : swapStep input l = .ok l')
    {x : SwapIntent} (hx : x ∈ l.state.stored a) :
    ∃ y ∈ l'.state.stored a, Supersedes (checkpointOf input l a) x.card y.card := by
  obtain ⟨_,hextends⟩ := h.step horderly hstep
  obtain ⟨new,hnew,hcard⟩ := hextends a _ (card_mem_ledger hx (h.kept.saved a x hx))
  obtain ⟨y,hy,_,rfl⟩ := mem_ledger.mp hnew
  exact ⟨y,hy,hcard⟩

theorem no_deposit_record_lost {stored : String → List SwapIntent} (hstored : WellStored stored)
    {activeAccountUuid : Option String}
    (hrun : GuardedRuns swapStep Orderly (.built stored activeAccountUuid) l) {x : SwapIntent}
    (hx : x ∈ l.state.stored a) :
    (∀ l', GuardedRuns swapStep Orderly l l' → Recorded x (l'.state.stored a)) ∧
      ∀ l', GuardedRuns swapStep
        (fun input l => Orderly input l ∧ checkpointOf input l a ≠ some x.id) l l' →
          HashRecorded x (l'.state.stored a) := by
  have hsafe : Safe l := hrun.invariant (fun _ _ _ hs hguard hstep => (hs.step hguard hstep).1)
    (safe_built hstored activeAccountUuid)
  constructor
  · intro l' hrun'
    have hboth : Safe l' ∧ Recorded x (l'.state.stored a) := by
      apply hrun'.invariant (P := fun l' => Safe l' ∧ Recorded x (l'.state.stored a))
      · intro input s t ⟨hs,y,hy,hid,haddress,hquote,hclaim⟩ hguard hstep
        obtain ⟨z,hz,hcard⟩ := hs.keeps hguard hstep hy
        refine ⟨(hs.step hguard hstep).1,z,hz,hcard.id.trans hid,hcard.depositAddress.trans haddress,
          hcard.providerQuoteId.trans hquote,?_⟩
        intro hclaimed
        have hy' := hclaim hclaimed
        have hsome : y.card.depositClaimedAt.isSome := by
          show y.depositClaimedAt.isSome
          rw [hy']
          exact hclaimed
        exact (hcard.depositClaimedAt hsome).trans hy'
      · exact ⟨hsafe,x,hx,rfl,rfl,rfl,fun _ => rfl⟩
    exact hboth.2
  · intro l' hrun'
    have hboth : Safe l' ∧ HashRecorded x (l'.state.stored a) := by
      apply hrun'.invariant (P := fun l' => Safe l' ∧ HashRecorded x (l'.state.stored a))
      · intro input s t ⟨hs,y,hy,hid,hhash⟩ ⟨hguard,hcheckpoint⟩ hstep
        obtain ⟨z,hz,hcard⟩ := hs.keeps hguard hstep hy
        refine ⟨(hs.step hguard hstep).1,z,hz,hcard.id.trans hid,?_⟩
        intro hsome
        obtain ⟨hash,hstatus⟩ := hhash hsome
        have hsome' : y.card.depositTxHash.isSome := by
          show y.depositTxHash.isSome
          rw [hash]
          exact hsome
        have hkept := (hcard.depositTxHash hsome').resolve_left fun heq =>
          hcheckpoint (heq.trans (congrArg some hid))
        exact ⟨hkept.1.trans hash,hkept.2.trans hstatus⟩
      · exact ⟨hsafe,x,hx,rfl,fun _ => ⟨rfl,rfl⟩⟩
    exact hboth.2

def waitingIntent : SwapIntent where
  id := "x"
  status := .processing
  nextAction := ""
  direction := some .zecToExternal
  depositAddress := some "t1"
  depositMemo := none
  depositTxHash := none
  providerQuoteId := some "q"
  originChainTxHash := none
  providerRefundInfo := none
  lastStatusCheckedAt := none
  statusError := none
  broadcastNotice := none
  broadcastStatus := none
  depositDeadline := none
  accountUuid := some "b"
  updatedAt := none
  completedAt := none
  depositClaimedAt := none

def waitingStore (accountUuid : String) : List SwapIntent :=
  if accountUuid = "b" then [waitingIntent] else []

def waitingSnapshot : SwapIntentSnapshot :=
  ⟨"x",.processing,"","t1",none,none,none,none⟩

/-- The restored list is refreshed, and the refresh asks the provider about the intent. -/
def refreshAsks : List (LoopInput SwapInput SwapAnswer) :=
  [.serve 0 .storage,.resume 0,.serve 0 .storage,.resume 0]

/-- The hash of the deposit transaction is saved. -/
def hashSaved : List (LoopInput SwapInput SwapAnswer) :=
  [.call (.submitDepositTransactionForIntent "x" (some "b") ⟨"h",none,none⟩),.serve 1 .storage]

/-- The refresh gets its answer, reads the list again and is about to save it. -/
def refreshSaves : List (LoopInput SwapInput SwapAnswer) :=
  [.serve 0 (.snapshot (.ok waitingSnapshot)),.resume 1,.serve 1 .storage,.resume 1]

theorem wellStored_waiting : WellStored waitingStore where
  saved a x hx := by
    by_cases h : a = "b"
    · subst h
      cases List.mem_singleton.mp hx
      rfl
    · rw [waitingStore,if_neg h] at hx
      cases hx
  ids a := by
    by_cases h : a = "b"
    · subst h
      exact List.nodup_singleton _
    · rw [waitingStore,if_neg h]
      exact List.nodup_nil

/-- The refresh puts the intent back that it captured before the hash was saved. -/
theorem deposit_hash_lost : ∃ l l', WellStored waitingStore ∧
    Runs swapStep (.built waitingStore (some "b")) l ∧
      swapStep (.serve 1 .storage) l = .ok l' ∧ checkpointOf (.serve 1 .storage) l "b" = none ∧
        (l.state.stored "b").map (·.depositTxHash) = [some "h"] ∧
          (l'.state.stored "b").map (·.depositTxHash) = [none] := by
  obtain ⟨l,hl,l',hl',hcheckpoint,hsaved,hlost⟩ : ∃ l,
      execute swapStep (refreshAsks ++ hashSaved ++ refreshSaves)
        (.built waitingStore (some "b")) = .ok l ∧
      ∃ l', swapStep (.serve 1 .storage) l = .ok l' ∧
        checkpointOf (.serve 1 .storage) l "b" = none ∧
          (l.state.stored "b").map (·.depositTxHash) = [some "h"] ∧
            (l'.state.stored "b").map (·.depositTxHash) = [none] := ⟨_,rfl,_,rfl,rfl,rfl,rfl⟩
  exact ⟨l,l',wellStored_waiting,runs_of_execute hl,hl',hcheckpoint,hsaved,hlost⟩

/-- The refresh ends before the hash is saved, which then stays. -/
theorem deposit_hash_kept : ∃ l x, x ∈ l.state.stored "b" ∧ x.depositTxHash = some "h" ∧
    ∃ l', GuardedRuns swapStep
        (fun input l => Orderly input l ∧ checkpointOf input l "b" ≠ some x.id) l l' ∧
      Recorded x (l'.state.stored "b") ∧ HashRecorded x (l'.state.stored "b") := by
  obtain ⟨l,hl,x,hx,hhash,l',hl'⟩ : ∃ l,
      guardedExecute swapStep Orderly (refreshAsks ++
        [.serve 0 (.snapshot (.ok waitingSnapshot)),.resume 0,.serve 0 .storage,.resume 0,
          .serve 0 .storage,.resume 0] ++
        [.call (.submitDepositTransactionForIntent "x" (some "b") ⟨"h",none,none⟩),
          .serve 0 .storage]) (.built waitingStore (some "b")) = some l ∧
      ∃ x, x ∈ l.state.stored "b" ∧ x.depositTxHash = some "h" ∧
        ∃ l', guardedExecute swapStep
          (fun input l => Orderly input l ∧ checkpointOf input l "b" ≠ some x.id)
            [.resume 0,.serve 0 (.snapshot (.ok waitingSnapshot)),.resume 0,.serve 0 .storage] l =
              some l' :=
    ⟨_,rfl,_,List.mem_cons_self,rfl,_,rfl⟩
  have hrun := guardedRuns_of_execute hl'
  have hkept := no_deposit_record_lost wellStored_waiting (guardedRuns_of_execute hl) hx
  exact ⟨l,x,hx,hhash,l',hrun,hkept.1 l' (hrun.weaken fun _ _ h => h.1),hkept.2 l' hrun⟩

end CoppiceWallet.Swap
