import CoppiceWallet.Proposals.Sections

/-! # What the spending call can do -/

namespace CoppiceWallet.Proposals

open CoppiceWallet.Lib

variable {W : Type} {db : OutputLockStore W} {id : Nat} {lock : StoredProposalLock} {flow : String}
  {world world' : World W} {point point' : SpendPoint} {path : SpendPath}
  {arguments : SpendArguments} {answer : SpendAnswer W} {trace trace' : Trace}

section Create

variable {stored : StoredProposal} {current : StoredProposalLock} {expiry : Nat}
  {answers : CreateAnswers W}

theorem storedProposalLock_ok {l : StoredProposalLock} {store : ProposalStore}
    (h : storedProposalLock id flow store = .ok l) : store.locks id = some l ∧ l.sendFlowId = flow := by
  unfold storedProposalLock at h
  split at h
  · cases h
  · split at h
    · cases h
      exact ⟨‹_›,‹_›⟩
    · cases h

theorem reassertLocks_frame (refs : List OutputRef) (owner : LockOwner) :
    (reassertLocks db refs owner expiry answers world).2.store = world.store ∧
      (reassertLocks db refs owner expiry answers world).2.targetHeight = world.targetHeight := by
  unfold reassertLocks
  cases answers.lockOutputs with
  | error e => simp
  | ok u =>
    cases answers.updateExpiry with
    | error e => simp
    | ok u =>
      cases updateExpiry world.rows owner expiry with
      | error e => simp
      | ok rows => simp

theorem buildTransactions_frame (owner : LockOwner) :
    (buildTransactions path owner answers world).2.store = world.store ∧
      (buildTransactions path owner answers world).2.targetHeight = world.targetHeight := by
  unfold buildTransactions
  cases path with
  | execute => simp
  | pczt =>
    cases answers.build with
    | error e => simp
    | ok totalCount =>
      cases answers.markRetain with
      | error e => simp
      | ok u =>
        cases markRetainUntilExpiry world.rows owner with
        | error e => simp
        | ok rows => simp

/-- Locking and building, for the owner that holds the capability. -/
def lockAndBuild (db : OutputLockStore W) (path : SpendPath) (refs : List OutputRef)
    (owner : LockOwner) (expiry : Nat) (answers : CreateAnswers W) (world : World W) :
    Except String Nat × World W :=
  match reassertLocks db refs owner expiry answers world with
  | (.error e,world) => (.error e,world)
  | (.ok (),world) => buildTransactions path owner answers world

theorem lockAndBuild_frame {refs : List OutputRef} {owner : LockOwner}
    {created : Except String Nat × World W}
    (h : lockAndBuild db path refs owner expiry answers world = created) :
    created.2.store = world.store ∧ created.2.targetHeight = world.targetHeight := by
  have hreassert : (reassertLocks db refs owner expiry answers world).2.store = world.store ∧
      (reassertLocks db refs owner expiry answers world).2.targetHeight = world.targetHeight :=
    reassertLocks_frame refs owner
  unfold lockAndBuild at h
  generalize reassertLocks db refs owner expiry answers world = locked at h hreassert
  obtain ⟨result,locked⟩ := locked
  cases result with
  | error e =>
    subst h
    exact hreassert
  | ok u =>
    subst h
    have hbuild : (buildTransactions path owner answers locked).2.store = locked.store ∧
        (buildTransactions path owner answers locked).2.targetHeight = locked.targetHeight :=
      buildTransactions_frame owner
    exact ⟨hbuild.1.trans hreassert.1,hbuild.2.trans hreassert.2⟩

theorem lockAndBuild_pczt {totalCount : Nat} {built : World W}
    (h : lockAndBuild db .pczt lock.proposal.inputRefs lock.owner expiry answers world =
      (.ok totalCount,built)) (highestTarget : Nat) :
    InputsLocked db lock expiry highestTarget built.wallet ∧ RowsRetained lock expiry built.rows := by
  simp only [lockAndBuild,reassertLocks,buildTransactions] at h
  cases hlock : answers.lockOutputs with
  | error e => simp [hlock] at h
  | ok u =>
    cases hexpiry : answers.updateExpiry with
    | error e => simp [hlock,hexpiry] at h
    | ok u =>
      cases hupdate : updateExpiry world.rows lock.owner expiry with
      | error e => simp [hlock,hexpiry,hupdate] at h
      | ok rows =>
        cases hbuild : answers.build with
        | error e => simp [hlock,hexpiry,hupdate,hbuild] at h
        | ok n =>
          cases hretain : answers.markRetain with
          | error e => simp [hlock,hexpiry,hupdate,hbuild,hretain] at h
          | ok u =>
            cases hmark : markRetainUntilExpiry rows lock.owner with
            | error e => simp [hlock,hexpiry,hupdate,hbuild,hretain,hmark] at h
            | ok marked =>
              simp only [hlock,hexpiry,hupdate,hbuild,hretain,hmark] at h
              obtain ⟨_,rfl⟩ := Prod.mk.inj h
              refine ⟨.inr fun ref href => db.lockOf_lockOutputs _ _ _ _ ref href,?_⟩
              intro row hrow howner
              obtain ⟨old,hold,rfl⟩ := mem_markRetainUntilExpiry hmark hrow
              obtain ⟨older,_,rfl⟩ := mem_updateExpiry hupdate hold
              by_cases hown : older.owner = lock.owner
              · simp [hown]
              · simp [hown] at howner

theorem createTransactions_cases {created : Except String Nat × World W}
    (hs : StoreSound id lock world.store) (hstored : stored.proposal = lock.proposal)
    (h : createTransactions db path id flow stored current expiry answers world = created) :
    (∃ e, created = (.error e,world)) ∨ world.store.locks id = some lock ∧
      lockAndBuild db path lock.proposal.inputRefs lock.owner expiry answers world = created := by
  unfold createTransactions at h
  cases hlock : storedProposalLock id flow world.store with
  | error e =>
    rw [hlock] at h
    exact .inl ⟨e,h.symm⟩
  | ok l =>
    rw [hlock] at h
    have hcap := (storedProposalLock_ok hlock).1
    obtain rfl := hs.locks l hcap
    dsimp only at h
    split at h
    · exact .inl ⟨_,h.symm⟩
    · cases hopen : answers.openDb with
      | error e =>
        rw [hopen] at h
        exact .inl ⟨_,h.symm⟩
      | ok u =>
        cases hcheck : checkTargetHeight path stored world with
        | error e =>
          rw [hopen,hcheck] at h
          exact .inl ⟨_,h.symm⟩
        | ok u =>
          rw [hopen,hcheck,hstored] at h
          exact .inr ⟨hcap,h⟩

end Create

/-- The call retains the lock. -/
def CallPoint.Retains : CallPoint → Prop
  | .retaining | .retainingLock _ | .returned _ => True
  | _ => False

/-- What the spending call carries from one section to the next belongs to the proposal. -/
def SpendPoint.Sound (lock : StoredProposalLock) (flow : String) : SpendPoint → Prop
  | .readingLock stored => stored.proposal = lock.proposal ∧ lock.sendFlowId = flow
  | .refreshingTip stored l | .creating stored l _ =>
    stored.proposal = lock.proposal ∧ l = lock ∧ lock.sendFlowId = flow
  | .releasing _ _ call | .keeping _ call | .dropping _ call => call.Sound lock flow
  | .retaining _ call => call.Sound lock flow ∧ call.Retains
  | .preparing _ | .openingPczt _ _ | .sendingPczt _ _ | .storing _ _ => lock.sendFlowId = flow
  | _ => True

/-- What was handed to the network is, or will be, a part of what is stored. -/
def SpendPoint.Settled (trace : Trace) : SpendPoint → Prop
  | .consuming | .readingLock _ | .refreshingTip _ _ | .creating _ _ _ | .releasing _ _ _
  | .pcztCreated | .readingLockToSend | .preparing _ => trace.outstanding = []
  | .keeping totalCount _ => trace.outstanding = [] ∧ trace.stored = List.range totalCount
  | .opening index totalCount | .sending index totalCount =>
    index < totalCount ∧ trace.stored = List.range totalCount ∧
      ∀ k ∈ trace.outstanding, k < totalCount
  | .openingPczt index _ => trace.handed = true ∧ ∀ k ∈ trace.outstanding, k < index
  | .sendingPczt index _ => trace.handed = true ∧ ∀ k ∈ trace.outstanding, k < index + 1
  | .storing plan _ => trace.handed = true ∧ ∀ k ∈ trace.outstanding, k < plan.persistedPrefixLen
  | .dropping _ _ => trace.unstored = []
  | .retaining _ _ | .ended _ => True

theorem unstored_of_outstanding (h : trace.outstanding = []) : trace.unstored = [] := by
  simp [Trace.unstored,h]

theorem unstored_of_range {n : Nat} (hstored : trace.stored = List.range n)
    (h : ∀ k ∈ trace.outstanding, k < n) : trace.unstored = [] := by
  simpa [Trace.unstored,hstored] using h

theorem settled_note (takes : Bool) (before after : ProposalStore) :
    point.Settled (trace.note id takes before after) ↔ point.Settled trace := by
  cases point <;> rfl

/-- The parts of the trace that neither the network nor the database changes. -/
structure Trace.Continues (trace trace' : Trace) : Prop where
  consumed : trace'.consumed = trace.consumed
  capabilityTaken : trace'.capabilityTaken = trace.capabilityTaken
  highestTarget : trace'.highestTarget = trace.highestTarget
  handed : trace'.handed = false → trace.handed = false

theorem Trace.continues_refl (trace : Trace) : trace.Continues trace := ⟨rfl,rfl,rfl,fun h => h⟩

theorem Trace.continues_hand (trace : Trace) (index : Nat) : trace.Continues (trace.hand index) :=
  ⟨rfl,rfl,rfl,fun h => by cases h⟩

theorem Trace.continues_settle (trace : Trace) (index : Nat) (attempt : PcztBroadcastAttempt) :
    trace.Continues (trace.settle index attempt) := by
  cases attempt <;> exact ⟨rfl,rfl,rfl,fun h => h⟩

variable {totalCount : Nat}

theorem next_settled {index : Nat} {attempt : PcztBroadcastAttempt} (hhanded : trace.handed = true)
    (houtstanding : ∀ k ∈ trace.outstanding, k < index + 1)
    (hsettled : (∃ e, attempt = .definiteRejection e ∨ attempt = .routeUnavailable e) →
      ∀ k ∈ trace.outstanding, k < index) :
    ((pcztBroadcastStep index totalCount attempt).next index totalCount).Settled trace := by
  cases attempt with
  | accepted =>
    by_cases hlast : index + 1 < totalCount
    · rw [pcztBroadcastStep,if_pos hlast]
      exact ⟨hhanded,houtstanding⟩
    · rw [pcztBroadcastStep,if_neg hlast]
      exact ⟨hhanded,houtstanding⟩
  | transportUnknown => exact ⟨hhanded,houtstanding⟩
  | definiteRejection e =>
    have hless := hsettled ⟨e,.inl rfl⟩
    by_cases hfirst : index = 0
    · subst hfirst
      simpa [pcztBroadcastStep,PcztBroadcastStep.next,SpendPoint.Settled,
        List.eq_nil_iff_forall_not_mem] using hless
    · simpa [pcztBroadcastStep,hfirst,PcztBroadcastStep.next,SpendPoint.Settled] using
        ⟨hhanded,hless⟩
  | routeUnavailable e =>
    have hless := hsettled ⟨e,.inr rfl⟩
    by_cases hfirst : index = 0
    · subst hfirst
      simpa [pcztBroadcastStep,PcztBroadcastStep.next,SpendPoint.Settled,
        List.eq_nil_iff_forall_not_mem] using hless
    · simpa [pcztBroadcastStep,hfirst,PcztBroadcastStep.next,SpendPoint.Settled] using
        ⟨hhanded,hless⟩

theorem next_sound {index : Nat} (step : PcztBroadcastStep) (h : lock.sendFlowId = flow) :
    (step.next index totalCount).Sound lock flow := by
  cases step with
  | fail error => trivial
  | _ => exact h

theorem next_awaits {index : Nat} (step : PcztBroadcastStep) :
    (step.next index totalCount).awaitsSignatures = false := by
  cases step <;> rfl

theorem next_settle (index totalCount : Nat) (attempt : PcztBroadcastAttempt)
    (hattempt : ∀ e, attempt ≠ .routeUnavailable e) (hhanded : trace.handed = true)
    (houtstanding : ∀ k ∈ trace.outstanding, k < index + 1) :
    ((pcztBroadcastStep index totalCount attempt).next index totalCount).Settled
      (trace.settle index attempt) := by
  have hmem : ∀ k ∈ (trace.settle index attempt).outstanding, k ∈ trace.outstanding := by
    cases attempt with
    | definiteRejection e => exact fun k hk => List.mem_of_mem_filter hk
    | _ => exact fun k hk => hk
  refine next_settled ?_ (fun k hk => houtstanding k (hmem k hk)) ?_
  · cases attempt <;> exact hhanded
  · rintro ⟨e,rfl | rfl⟩
    · intro k hk
      obtain ⟨hk,hne⟩ := List.mem_filter.mp hk
      have hlt := houtstanding k hk
      have hne : k ≠ index := by simpa using hne
      omega
    · exact absurd rfl (hattempt e)

/-- Between two sections nothing becomes exposed that was not, and what is handed is accounted for. -/
theorem hear_sound (hp : point.Sound lock flow) (hs : point.Settled trace)
    (h : point.hear arguments answer trace = some (point',trace')) :
    point'.Sound lock flow ∧ point'.Settled trace' ∧ trace.Continues trace' ∧
      trace'.recordedExpiry = trace.recordedExpiry ∧ point'.awaitsSignatures = false ∧
      (point.sends = false → point'.sends = false ∧ trace'.unstored = []) := by
  cases point with
  | refreshingTip stored l =>
    cases answer with
    | liveTip height =>
      simp only [SpendPoint.hear] at h
      split at h
      · cases h
        exact ⟨trivial,hs,trace.continues_refl,rfl,rfl,fun _ => ⟨rfl,unstored_of_outstanding hs⟩⟩
      · cases h
        exact ⟨hp,hs,trace.continues_refl,rfl,rfl,fun _ => ⟨rfl,unstored_of_outstanding hs⟩⟩
    | _ => cases h
  | opening index totalCount =>
    obtain ⟨hlt,hstored,hout⟩ := hs
    cases answer with
    | route opened =>
      cases opened with
      | ok u =>
        cases h
        have hhanded : ∀ k ∈ (trace.hand index).outstanding, k < totalCount :=
          List.forall_mem_cons.mpr ⟨hlt,hout⟩
        exact ⟨trivial,⟨hlt,hstored,hhanded⟩,trace.continues_hand index,rfl,rfl,
          fun _ => ⟨rfl,unstored_of_range hstored hhanded⟩⟩
      | error e =>
        cases h
        exact ⟨trivial,trivial,trace.continues_refl,rfl,rfl,
          fun _ => ⟨rfl,unstored_of_range hstored hout⟩⟩
    | _ => cases h
  | sending index totalCount =>
    obtain ⟨hlt,hstored,hout⟩ := hs
    cases answer with
    | sent attempt =>
      cases attempt with
      | accepted =>
        simp only [SpendPoint.hear] at h
        split at h
        · cases h
          exact ⟨trivial,⟨‹_›,hstored,hout⟩,trace.continues_refl,rfl,rfl,
            fun _ => ⟨rfl,unstored_of_range hstored hout⟩⟩
        · cases h
          exact ⟨trivial,trivial,trace.continues_refl,rfl,rfl,
            fun _ => ⟨rfl,unstored_of_range hstored hout⟩⟩
      | definiteRejection e =>
        cases h
        have hless : ∀ k ∈ (trace.settle index (.definiteRejection e)).outstanding,
            k < totalCount := fun k hk => hout k (List.mem_of_mem_filter hk)
        exact ⟨trivial,trivial,trace.continues_settle index _,rfl,rfl,
          fun _ => ⟨rfl,unstored_of_range hstored hless⟩⟩
      | transportUnknown | routeUnavailable e =>
        cases h
        exact ⟨trivial,trivial,trace.continues_refl,rfl,rfl,
          fun _ => ⟨rfl,unstored_of_range hstored hout⟩⟩
    | _ => cases h
  | preparing l =>
    simp only [SpendPoint.hear] at h
    split at h
    · cases h
      exact ⟨trivial,hs,trace.continues_refl,rfl,rfl,(nomatch ·)⟩
    · cases answer with
      | prepare answer =>
        cases answer with
        | failed e | expired e =>
          cases h
          exact ⟨trivial,hs,trace.continues_refl,rfl,rfl,(nomatch ·)⟩
        | ready more =>
          cases h
          have hs : trace.outstanding = [] := hs
          have hhanded : ∀ k ∈ (trace.hand 0).outstanding, k < 0 + 1 := by
            simp [Trace.hand,hs]
          exact ⟨hp,⟨rfl,hhanded⟩,trace.continues_hand 0,rfl,rfl,(nomatch ·)⟩
      | _ => cases h
  | openingPczt index totalCount =>
    obtain ⟨hhanded,hout⟩ := hs
    cases answer with
    | route opened =>
      cases opened with
      | ok u =>
        cases h
        have hout' : ∀ k ∈ (trace.hand index).outstanding, k < index + 1 :=
          List.forall_mem_cons.mpr ⟨Nat.lt_succ_self index,fun k hk => Nat.lt_succ_of_lt (hout k hk)⟩
        exact ⟨hp,⟨rfl,hout'⟩,trace.continues_hand index,rfl,rfl,(nomatch ·)⟩
      | error e =>
        cases h
        exact ⟨next_sound _ hp,next_settled hhanded (fun k hk => Nat.lt_succ_of_lt (hout k hk))
          fun _ => hout,trace.continues_refl,rfl,next_awaits _,(nomatch ·)⟩
    | _ => cases h
  | sendingPczt index totalCount =>
    obtain ⟨hhanded,hout⟩ := hs
    cases answer with
    | sent attempt =>
      have hattempt : ∀ e, attempt ≠ .routeUnavailable e := by
        rintro e rfl
        cases h
      have hnext : (pcztBroadcastStep index totalCount attempt).next index totalCount = point' ∧
          trace.settle index attempt = trace' := by
        cases attempt <;> cases h <;> exact ⟨rfl,rfl⟩
      obtain ⟨rfl,rfl⟩ := hnext
      have hsettle := next_settle index totalCount attempt hattempt hhanded hout
      have hrecorded : (trace.settle index attempt).recordedExpiry = trace.recordedExpiry := by
        cases attempt <;> rfl
      exact ⟨next_sound _ hp,hsettle,trace.continues_settle index attempt,hrecorded,next_awaits _,
        (nomatch ·)⟩
    | _ => cases h
  | _ => cases h

/-- What a step of the spending call keeps. -/
structure SpendStep (id : Nat) (lock : StoredProposalLock) (flow : String) (world : World W)
    (trace : Trace) (point' : SpendPoint) (world' : World W) (trace' : Trace) : Prop where
  store : StoreSound id lock world'.store
  targetHeight : world'.targetHeight = world.targetHeight
  proposals : world.store.proposals id = none → world'.store.proposals id = none
  locks : world.store.locks id = none → world'.store.locks id = none
  frame : flow ≠ lock.sendFlowId → world' = world
  sound : point'.Sound lock flow
  settled : point'.Settled trace'
  continues : trace.Continues trace'

theorem spendStep_of_world (hstore : StoreSound id lock world.store) (hsound : point'.Sound lock flow)
    (hsettled : point'.Settled trace') (hcontinues : trace.Continues trace') :
    SpendStep id lock flow world trace point' world trace' :=
  ⟨hstore,rfl,fun h => h,fun h => h,fun _ => rfl,hsound,hsettled,hcontinues⟩

variable {call call' : CallPoint} {fault : Option UnlockFault}

theorem Retains.advance (h : call.Retains)
    (hadvance : call.advance db id flow fault world = some (call',world')) : call'.Retains := by
  cases call with
  | retaining =>
    simp only [CallPoint.advance] at hadvance
    split at hadvance
    · cases hadvance
      trivial
    · split at hadvance <;> cases hadvance <;> trivial
  | retainingLock l =>
    cases hadvance
    trivial
  | returned result => cases hadvance
  | _ => cases h

variable {within : CallPoint → SpendPoint} {after : Except String Unit → SpendPoint}

theorem inCall_sound (hp : point.Sound lock flow) (hs : point.Settled trace)
    (h : point.inCall = some (call,within,after))
    (hadvance : call.advance db id flow fault world = some (call',world')) :
    call.Sound lock flow ∧ (call'.Sound lock flow → (within call').Sound lock flow) ∧
      (within call').Settled trace ∧
      ∀ result, (after result).Sound lock flow ∧ (after result).Settled trace := by
  cases point with
  | releasing expired error call =>
    cases h
    exact ⟨hp,fun h => h,hs,fun result => ⟨trivial,trivial⟩⟩
  | keeping totalCount call =>
    cases h
    refine ⟨hp,fun h => h,hs,fun result => ?_⟩
    by_cases hzero : totalCount = 0
    · rw [if_pos hzero]
      exact ⟨trivial,trivial⟩
    · rw [if_neg hzero]
      exact ⟨trivial,Nat.pos_of_ne_zero hzero,hs.2,by simp [hs.1]⟩
  | retaining status call =>
    cases h
    exact ⟨hp.1,fun h => ⟨h,Retains.advance hp.2 hadvance⟩,trivial,
      fun result => ⟨trivial,trivial⟩⟩
  | dropping status call =>
    cases h
    exact ⟨hp,fun h => h,hs,fun result => ⟨trivial,trivial⟩⟩
  | _ => cases h

theorem SpendPoint.advance_cases
    (h : point.advance db id path arguments answer world trace = some (point',world',trace')) :
    (∃ call within after fault call', point.inCall = some (call,within,after) ∧
        call.advance db id arguments.sendFlowId fault world = some (call',world') ∧
        trace' = trace ∧ (point' = within call' ∨ ∃ result, point' = after result)) ∨
      (point.hear arguments answer trace = some (point',trace') ∧ world' = world) ∨
      point.section db id path arguments answer world trace = some (point',world',trace') := by
  unfold SpendPoint.advance at h
  cases hin : point.inCall with
  | some inner =>
    obtain ⟨call,within,after⟩ := inner
    rw [hin] at h
    cases answer with
    | finish fault =>
      dsimp only at h
      split at h
      · cases h
      · rename_i hadvance
        cases h
        exact .inl ⟨call,within,after,fault,_,rfl,hadvance,rfl,.inr ⟨_,rfl⟩⟩
      · rename_i hadvance
        cases h
        exact .inl ⟨call,within,after,fault,_,rfl,hadvance,rfl,.inl rfl⟩
    | _ => cases h
  | none =>
    rw [hin] at h
    dsimp only at h
    split at h
    · rename_i hhear
      cases h
      exact .inr (.inl ⟨hhear,rfl⟩)
    · exact .inr (.inr h)

theorem inCall_step (hstore : StoreSound id lock world.store) (hp : point.Sound lock flow)
    (hs : point.Settled trace) (h : point.inCall = some (call,within,after))
    (hadvance : call.advance db id flow fault world = some (call',world'))
    (hnext : point' = within call' ∨ ∃ result, point' = after result) :
    SpendStep id lock flow world trace point' world' trace ∧
      SectionEffect db id lock flow world call fault world' := by
  obtain ⟨hcall,hwithin,hwithinSettled,hafter⟩ := inCall_sound hp hs h hadvance
  obtain ⟨heffect,hcall'⟩ := CallPoint.advance_effect hstore hcall hadvance
  have hkeeps : point'.Sound lock flow ∧ point'.Settled trace := by
    rcases hnext with rfl | ⟨result,rfl⟩
    · exact ⟨hwithin hcall',hwithinSettled⟩
    · exact hafter result
  exact ⟨⟨heffect.storeSound hstore,heffect.targetHeight,heffect.proposals_none,heffect.locks_none,
    heffect.eq_of_flow_ne,hkeeps.1,hkeeps.2,trace.continues_refl⟩,heffect⟩

theorem storedProposalLock_sound {l : StoredProposalLock} (hstore : StoreSound id lock world.store)
    (h : storedProposalLock id flow world.store = .ok l) : l = lock ∧ lock.sendFlowId = flow := by
  obtain ⟨hcap,hflow⟩ := storedProposalLock_ok h
  obtain rfl := hstore.locks l hcap
  exact ⟨rfl,hflow⟩

theorem consuming_step (hstore : StoreSound id lock world.store)
    (hs : SpendPoint.consuming.Settled trace)
    (h : SpendPoint.consuming.section db id path arguments answer world trace =
      some (point',world',trace')) :
    SpendStep id lock arguments.sendFlowId world trace point' world' trace' ∧
      world'.wallet = world.wallet ∧ world'.rows = world.rows ∧
      world'.store.locks = world.store.locks := by
  simp only [SpendPoint.section,consumeStoredProposal] at h
  cases hproposal : world.store.proposals id with
  | none =>
    rw [hproposal] at h
    cases h
    exact ⟨spendStep_of_world hstore trivial trivial trace.continues_refl,rfl,rfl,rfl⟩
  | some stored =>
    rw [hproposal] at h
    obtain ⟨hflow,hsame⟩ := hstore.proposals stored hproposal
    by_cases hown : stored.sendFlowId = arguments.sendFlowId
    · simp only [hown,if_true] at h
      cases h
      have hflow := hflow.symm.trans hown
      refine ⟨⟨⟨by simpa using hstore.locks,by simp⟩,rfl,by simp,by simp,?_,⟨hsame,hflow⟩,hs,
        trace.continues_refl⟩,rfl,rfl,rfl⟩
      exact fun hne => absurd hflow.symm hne
    · simp only [hown,if_false] at h
      cases h
      exact ⟨spendStep_of_world hstore trivial trivial trace.continues_refl,rfl,rfl,rfl⟩

theorem readingLock_step {stored : StoredProposal} (hstore : StoreSound id lock world.store)
    (hp : (SpendPoint.readingLock stored).Sound lock arguments.sendFlowId)
    (hs : (SpendPoint.readingLock stored).Settled trace)
    (h : (SpendPoint.readingLock stored).section db id path arguments answer world trace =
      some (point',world',trace')) :
    SpendStep id lock arguments.sendFlowId world trace point' world' trace' ∧ world' = world := by
  simp only [SpendPoint.section] at h
  cases hlock : storedProposalLock id arguments.sendFlowId world.store with
  | error e =>
    rw [hlock] at h
    cases h
    exact ⟨spendStep_of_world hstore trivial hs trace.continues_refl,rfl⟩
  | ok l =>
    rw [hlock] at h
    obtain ⟨rfl,hflow⟩ := storedProposalLock_sound hstore hlock
    dsimp only at h
    split at h
    · cases h
      exact ⟨spendStep_of_world hstore trivial hs trace.continues_refl,rfl⟩
    · cases h
      exact ⟨spendStep_of_world hstore ⟨hp.1,rfl,hflow⟩ hs trace.continues_refl,rfl⟩

theorem creating_step {stored : StoredProposal} {l : StoredProposalLock} {expiry : Nat}
    (hstore : StoreSound id lock world.store)
    (hp : (SpendPoint.creating stored l expiry).Sound lock arguments.sendFlowId)
    (hs : (SpendPoint.creating stored l expiry).Settled trace)
    (h : (SpendPoint.creating stored l expiry).section db id path arguments answer world trace =
      some (point',world',trace')) :
    SpendStep id lock arguments.sendFlowId world trace point' world' trace' ∧
      (world' = world ∨ world'.store.locks id = some lock) ∧
      point'.sends = false ∧ trace'.unstored = [] ∧
      (point'.awaitsSignatures = true →
        InputsLocked db lock trace'.recordedExpiry trace'.highestTarget world'.wallet ∧
          RowsRetained lock trace'.recordedExpiry world'.rows) := by
  obtain ⟨hstored,rfl,hflow⟩ := hp
  have hs : trace.outstanding = [] := hs
  have hunstored := unstored_of_outstanding hs
  cases answer with
  | create answers =>
    simp only [SpendPoint.section] at h
    generalize hcreated : createTransactions db path id arguments.sendFlowId stored l expiry answers
      world = created at h
    rcases createTransactions_cases hstore hstored hcreated with ⟨e,rfl⟩ | ⟨hcap,hbuilt⟩
    · cases h
      exact ⟨spendStep_of_world hstore trivial hs trace.continues_refl,.inl rfl,rfl,hunstored,
        (nomatch ·)⟩
    · obtain ⟨result,built⟩ := created
      have hframe := lockAndBuild_frame hbuilt
      have hlocks : built.store.locks id = some l := by rw [hframe.1,hcap]
      have hstep : ∀ point' trace', point'.Sound l arguments.sendFlowId → point'.Settled trace' →
          trace.Continues trace' →
          SpendStep id l arguments.sendFlowId world trace point' built trace' := by
        intro point' trace' hsound hsettled hcontinues
        refine ⟨?_,hframe.2,?_,?_,fun hne => absurd hflow.symm hne,hsound,hsettled,hcontinues⟩
        · exact ⟨by rw [hframe.1]; exact hstore.locks,by rw [hframe.1]; exact hstore.proposals⟩
        · exact fun hnone => by rw [hframe.1,hnone]
        · exact fun hnone => by rw [hframe.1,hnone]
      cases result with
      | error e =>
        cases h
        exact ⟨hstep _ _ trivial hs trace.continues_refl,.inr hlocks,rfl,hunstored,(nomatch ·)⟩
      | ok totalCount =>
        cases path with
        | execute =>
          cases h
          exact ⟨hstep _ _ trivial ⟨hs,rfl⟩ ⟨rfl,rfl,rfl,fun h => h⟩,.inr hlocks,rfl,
            unstored_of_outstanding hs,(nomatch ·)⟩
        | pczt =>
          cases h
          exact ⟨hstep _ _ trivial hs ⟨rfl,rfl,rfl,fun h => h⟩,.inr hlocks,rfl,hunstored,
            fun _ => lockAndBuild_pczt hbuilt trace.highestTarget⟩
  | _ => cases h

theorem readingLockToSend_step (hstore : StoreSound id lock world.store)
    (hs : SpendPoint.readingLockToSend.Settled trace)
    (h : SpendPoint.readingLockToSend.section db id path arguments answer world trace =
      some (point',world',trace')) :
    SpendStep id lock arguments.sendFlowId world trace point' world' trace' ∧ world' = world ∧
      trace' = trace ∧ point'.awaitsSignatures = false ∧
      (point'.sends = true → world.store.locks id ≠ none) := by
  simp only [SpendPoint.section] at h
  cases hlock : storedProposalLock id arguments.sendFlowId world.store with
  | error e =>
    rw [hlock] at h
    cases h
    exact ⟨spendStep_of_world hstore trivial hs trace.continues_refl,rfl,rfl,rfl,(nomatch ·)⟩
  | ok l =>
    rw [hlock] at h
    have hcap := (storedProposalLock_ok hlock).1
    obtain ⟨rfl,hflow⟩ := storedProposalLock_sound hstore hlock
    cases h
    exact ⟨spendStep_of_world hstore hflow hs trace.continues_refl,rfl,rfl,rfl,
      fun _ => by simp [hcap]⟩

theorem storing_step {plan : PcztBroadcastPlan} (hstore : StoreSound id lock world.store)
    (hp : (SpendPoint.storing plan totalCount).Sound lock arguments.sendFlowId)
    (hs : (SpendPoint.storing plan totalCount).Settled trace)
    (h : (SpendPoint.storing plan totalCount).section db id path arguments answer world trace =
      some (point',world',trace')) :
    SpendStep id lock arguments.sendFlowId world trace point' world' trace' ∧
      point'.sends = false ∧ point'.awaitsSignatures = false ∧
      (trace'.unstored = [] ∨ world' = world ∧ trace' = trace) := by
  have hp : lock.sendFlowId = arguments.sendFlowId := hp
  have hstored : ∀ wallet : W, SpendStep id lock arguments.sendFlowId world trace
      (.dropping plan.status (.finishing false)) { world with wallet := wallet }
      { trace with stored := List.range plan.persistedPrefixLen } := fun wallet =>
    ⟨hstore,rfl,fun h => h,fun h => h,fun hne => absurd hp.symm hne,trivial,
      unstored_of_range rfl hs.2,⟨rfl,rfl,rfl,fun h => h⟩⟩
  cases answer with
  | store answer =>
    cases answer with
    | stored wallet | fallback wallet =>
      cases h
      exact ⟨hstored wallet,rfl,rfl,.inl (unstored_of_range rfl hs.2)⟩
    | failed e =>
      cases h
      exact ⟨spendStep_of_world hstore ⟨trivial,trivial⟩ trivial trace.continues_refl,rfl,rfl,
        .inr ⟨rfl,rfl⟩⟩
  | _ => cases h

theorem hear_step (hstore : StoreSound id lock world.store) (hp : point.Sound lock flow)
    (hs : point.Settled trace) (h : point.hear arguments answer trace = some (point',trace')) :
    SpendStep id lock flow world trace point' world trace' := by
  obtain ⟨hsound,hsettled,hcontinues,_⟩ := hear_sound hp hs h
  exact spendStep_of_world hstore hsound hsettled hcontinues

theorem SpendPoint.advance_step (hstore : StoreSound id lock world.store)
    (hp : point.Sound lock arguments.sendFlowId) (hs : point.Settled trace)
    (h : point.advance db id path arguments answer world trace = some (point',world',trace')) :
    SpendStep id lock arguments.sendFlowId world trace point' world' trace' := by
  rcases SpendPoint.advance_cases h with ⟨call,within,after,fault,call',hin,hadvance,rfl,hnext⟩ |
    ⟨hhear,rfl⟩ | hsection
  · exact (inCall_step hstore hp hs hin hadvance hnext).1
  · exact hear_step hstore hp hs hhear
  · cases point with
    | consuming => exact (consuming_step hstore hs hsection).1
    | readingLock stored => exact (readingLock_step hstore hp hs hsection).1
    | creating stored l expiry => exact (creating_step hstore hp hs hsection).1
    | readingLockToSend => exact (readingLockToSend_step hstore hs hsection).1
    | storing plan totalCount => exact (storing_step hstore hp hs hsection).1
    | _ => cases hsection

/-- Unless a section took the capability with the inputs locked, or a transaction was handed over, the
inputs are released once the capability is gone. -/
theorem SpendPoint.advance_released (hstore : StoreSound id lock world.store)
    (hp : point.Sound lock arguments.sendFlowId) (hs : point.Settled trace)
    (h : point.advance db id path arguments answer world trace = some (point',world',trace'))
    (hbefore : world.store.locks id = none → InputsReleased db lock world)
    (htakes : point.takesCapability = true → world.store.locks id = none)
    (hnone : world'.store.locks id = none) (hhanded : trace'.handed = false) :
    InputsReleased db lock world' := by
  rcases SpendPoint.advance_cases h with ⟨call,within,after,fault,call',hin,hadvance,rfl,hnext⟩ |
    ⟨hhear,rfl⟩ | hsection
  · have htakes : call.takesCapability = true → world.store.locks id = none := by
      intro hcall
      exact htakes (by simp [SpendPoint.takesCapability,hin,hcall])
    exact (inCall_step hstore hp hs hin hadvance hnext).2.released hbefore hnone htakes
  · exact hbefore hnone
  · cases point with
    | consuming =>
      obtain ⟨_,hwallet,hrows,hlocks⟩ := consuming_step hstore hs hsection
      rw [hlocks] at hnone
      have hgone := hbefore hnone
      exact ⟨by rw [hwallet]; exact hgone.outputs,by rw [hrows]; exact hgone.rows⟩
    | readingLock stored =>
      obtain ⟨_,rfl⟩ := readingLock_step hstore hp hs hsection
      exact hbefore hnone
    | creating stored l expiry =>
      obtain ⟨_,rfl | hlocks,_⟩ := creating_step hstore hp hs hsection
      · exact hbefore hnone
      · rw [hlocks] at hnone
        cases hnone
    | readingLockToSend =>
      obtain ⟨_,rfl,_⟩ := readingLockToSend_step hstore hs hsection
      exact hbefore hnone
    | storing plan totalCount =>
      have hcontinues := (storing_step hstore hp hs hsection).1.continues
      have hnot := hcontinues.handed hhanded
      rw [hs.1] at hnot
      cases hnot
    | _ => cases hsection

/-- The inputs are locked and will stay so across a restart. -/
def Secured (db : OutputLockStore W) (lock : StoredProposalLock) (world : World W) (trace : Trace) :
    Prop :=
  InputsLocked db lock trace.recordedExpiry trace.highestTarget world.wallet ∧
    RowsRetained lock trace.recordedExpiry world.rows

/-- While a transaction is about to be handed over, or is out there and not stored, the inputs are
secured; while a PCZT waits for its signatures, they are as long as the capability is there. -/
structure Protected (db : OutputLockStore W) (id : Nat) (lock : StoredProposalLock)
    (sends awaits : Bool) (world : World W) (trace : Trace) : Prop where
  exposed : sends = true ∨ trace.unstored ≠ [] → Secured db lock world trace
  signing : awaits = true → RowsRetained lock trace.recordedExpiry world.rows ∧
    (world.store.locks id = none ∨
      InputsLocked db lock trace.recordedExpiry trace.highestTarget world.wallet)

theorem protected_quiet {sends awaits : Bool} (hsends : sends = false) (hawaits : awaits = false)
    (hstored : trace.unstored = []) : Protected db id lock sends awaits world trace := by
  subst hsends
  subst hawaits
  constructor
  · intro h
    cases h with
    | inl h => cases h
    | inr h => exact absurd hstored h
  · intro h
    cases h

theorem inCall_next (h : point.inCall = some (call,within,after))
    (hnext : point' = within call' ∨ ∃ result, point' = after result) :
    point'.sends = false ∧ point'.awaitsSignatures = false := by
  cases point with
  | keeping totalCount call =>
    cases h
    rcases hnext with rfl | ⟨result,rfl⟩
    · exact ⟨rfl,rfl⟩
    · dsimp only
      split <;> exact ⟨rfl,rfl⟩
  | releasing expired error call | retaining status call | dropping status call =>
    cases h
    rcases hnext with rfl | ⟨result,rfl⟩ <;> exact ⟨rfl,rfl⟩
  | _ => cases h

theorem inCall_protected (hp : point.Sound lock flow) (hs : point.Settled trace)
    (h : point.inCall = some (call,within,after))
    (heffect : SectionEffect db id lock flow world call fault world')
    (hnext : point' = within call' ∨ ∃ result, point' = after result)
    (hbefore : Protected db id lock point.sends point.awaitsSignatures world trace) :
    Protected db id lock point'.sends point'.awaitsSignatures world' trace := by
  have hpoint := inCall_next h hnext
  cases point with
  | releasing expired error call =>
    exact protected_quiet hpoint.1 hpoint.2 (unstored_of_outstanding hs)
  | keeping totalCount call =>
    exact protected_quiet hpoint.1 hpoint.2 (unstored_of_outstanding hs.1)
  | dropping status call => exact protected_quiet hpoint.1 hpoint.2 hs
  | retaining status call =>
    cases h
    have hwallet : world'.wallet = world.wallet := heffect.wallet fun hunlocking => by
      rw [hunlocking] at hp
      cases hp.2
    refine ⟨fun hexposed => ?_,fun hawaits => ?_⟩
    · have hunstored := hexposed.resolve_left (by simp [hpoint.1])
      have hsecured := hbefore.exposed (.inr hunstored)
      exact ⟨by rw [hwallet]; exact hsecured.1,heffect.rowsRetained hsecured.2⟩
    · rw [hpoint.2] at hawaits
      cases hawaits
  | _ => cases h

theorem SpendPoint.advance_protected (hstore : StoreSound id lock world.store)
    (hp : point.Sound lock arguments.sendFlowId) (hs : point.Settled trace)
    (h : point.advance db id path arguments answer world trace = some (point',world',trace'))
    (hbefore : Protected db id lock point.sends point.awaitsSignatures world trace) :
    Protected db id lock point'.sends point'.awaitsSignatures world' trace' := by
  rcases SpendPoint.advance_cases h with ⟨call,within,after,fault,call',hin,hadvance,rfl,hnext⟩ |
    ⟨hhear,rfl⟩ | hsection
  · exact inCall_protected hp hs hin (inCall_step hstore hp hs hin hadvance hnext).2 hnext hbefore
  · obtain ⟨_,_,hcontinues,hrecorded,hawaits,hquiet⟩ := hear_sound hp hs hhear
    cases hsends : point.sends with
    | false => exact protected_quiet (hquiet hsends).1 hawaits (hquiet hsends).2
    | true =>
      have hsecured := hbefore.exposed (.inl hsends)
      refine ⟨fun _ => ?_,fun h => ?_⟩
      · unfold Secured
        rw [hrecorded,hcontinues.highestTarget]
        exact hsecured
      · rw [hawaits] at h
        cases h
  · cases point with
    | consuming =>
      simp only [SpendPoint.section] at hsection
      have hunstored := unstored_of_outstanding hs
      split at hsection <;> cases hsection <;> exact protected_quiet rfl rfl hunstored
    | readingLock stored =>
      simp only [SpendPoint.section] at hsection
      have hunstored := unstored_of_outstanding hs
      split at hsection
      · cases hsection
        exact protected_quiet rfl rfl hunstored
      · split at hsection <;> cases hsection <;> exact protected_quiet rfl rfl hunstored
    | creating stored l expiry =>
      obtain ⟨_,_,hsends,hunstored,hawaits⟩ := creating_step hstore hp hs hsection
      refine ⟨fun hexposed => ?_,fun h => ?_⟩
      · rw [hsends,hunstored] at hexposed
        simp at hexposed
      · exact ⟨(hawaits h).2,.inr (hawaits h).1⟩
    | readingLockToSend =>
      obtain ⟨_,rfl,rfl,hawaits,hcap⟩ := readingLockToSend_step hstore hs hsection
      refine ⟨fun hexposed => ?_,fun h => ?_⟩
      · have hsends := hexposed.resolve_right (by simp [unstored_of_outstanding hs])
        have hsigning := hbefore.signing rfl
        exact ⟨hsigning.2.resolve_left (hcap hsends),hsigning.1⟩
      · rw [hawaits] at h
        cases h
    | storing plan totalCount =>
      obtain ⟨_,hsends,hawaits,hstored | ⟨rfl,rfl⟩⟩ := storing_step hstore hp hs hsection
      · exact protected_quiet hsends hawaits hstored
      · refine ⟨fun _ => hbefore.exposed (.inl rfl),fun h => ?_⟩
        rw [hawaits] at h
        cases h
    | _ => cases hsection

end CoppiceWallet.Proposals
