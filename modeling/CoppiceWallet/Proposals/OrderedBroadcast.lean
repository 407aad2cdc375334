import CoppiceWallet.Proposals.InputLocks

/-!
# The broadcast of signed PCZTs, uninterrupted

The transactions are sent one after the other; those that may be on the network are stored, all or
none. What the server answers and whether the database accepts a transaction are parameters.
-/

namespace CoppiceWallet.Proposals

open CoppiceWallet.Lib

/-- What `prepare_signed_pczts` returns: at least one transaction, and none twice. -/
structure PreparedPczts (Tx : Type) where
  transactions : List Tx
  nonempty : transactions ≠ []
  distinct : transactions.Nodup

/-- The transaction was handed to the server. -/
def PcztBroadcastAttempt.isSent : PcztBroadcastAttempt → Bool
  | .routeUnavailable _ => false
  | _ => true

def PcztBroadcastAttempt.mayBeOnNetwork : PcztBroadcastAttempt → Bool
  | .accepted | .transportUnknown => true
  | _ => false

/-- What the loop leaves: the transactions handed to the server, in order, and the plan or the error
it ended with. -/
structure BroadcastRun where
  sent : List Nat
  ending : Except String PcztBroadcastPlan

/-- The loop from a transaction on; `none` is the `unreachable!` behind it. -/
def broadcastFrom (attempt : Nat → PcztBroadcastAttempt) (totalCount : Nat) :
    Nat → Nat → List Nat → Option BroadcastRun
  | 0, _, _ => none
  | remaining + 1, index, sent =>
    let sent := if (attempt index).isSent then sent ++ [index] else sent
    match pcztBroadcastStep index totalCount (attempt index) with
    | .continue => broadcastFrom attempt totalCount remaining (index + 1) sent
    | .stop plan => some ⟨sent,.ok plan⟩
    | .fail error => some ⟨sent,.error error⟩

/-- What the wallet crate does with a transaction: store it from its PCZT, or from its bytes as the
scan of the chain would. A call that succeeds stores this transaction, and unlocking stores none. -/
structure TransactionStore {W : Type} (db : OutputLockStore W) (Tx : Type) where
  stored : W → Tx → Prop
  extractAndStore : W → Tx → Except String W
  decryptAndStore : W → Tx → Except String W
  stored_extract : ∀ w tx w', extractAndStore w tx = .ok w' →
    ∀ other, stored w' other ↔ stored w other ∨ other = tx
  stored_decrypt : ∀ w tx w', decryptAndStore w tx = .ok w' →
    ∀ other, stored w' other ↔ stored w other ∨ other = tx
  stored_unlock : ∀ w ref owner tx, stored (db.unlockOutput w ref owner) tx ↔ stored w tx

def storeRounds {W Tx : Type} (store : W → Tx → Except String W) (label : String) :
    Nat → List Tx → W → Except String W
  | _, [], wallet => .ok wallet
  | index, tx :: txs, wallet => do
    let wallet ← (store wallet tx).mapError fun error =>
      label ++ toString (index + 1) ++ ": " ++ error
    storeRounds store label (index + 1) txs wallet

/-- A failing body leaves the database as it was. -/
def transactionally {W : Type} (body : W → Except String W) (wallet : W) :
    Except String Unit × W :=
  match body wallet with
  | .ok wallet => (.ok (),wallet)
  | .error e => (.error e,wallet)

variable {W Tx : Type} {db : OutputLockStore W} (transactions : TransactionStore db Tx)

/-- Store from the PCZTs, and when this fails from the transactions. -/
def storeBroadcastPczts (openDb : Except String Unit) (txs : List Tx) (wallet : W) :
    Except String Unit × W :=
  match openDb with
  | .error e => (.error e,wallet)
  | .ok () =>
    match transactionally
      (storeRounds transactions.extractAndStore "Store signed PCZT round " 0 txs) wallet with
    | (.ok (),wallet) => (.ok (),wallet)
    | (.error primary,wallet) =>
      match transactionally (storeRounds transactions.decryptAndStore
        "Fallback-store broadcast PCZT round " 0 txs) wallet with
      | (.ok (),wallet) => (.ok (),wallet)
      | (.error fallback,wallet) =>
        (.error ("Primary PCZT storage failed: " ++ primary ++ ". Fallback storage failed: " ++
          fallback),wallet)

section Locks

variable (db)

def finishStoredProposal (proposalId : Nat) (sendFlowId : String) (releaseInputs : Bool)
    (fault : Option UnlockFault) (world : World W) : Except String Unit × World W :=
  match world.store.locks proposalId with
  | none => (.ok (),world)
  | some lock =>
    if lock.sendFlowId ≠ sendFlowId then (.error sendFlowMismatch,world)
    else if releaseInputs then unlockStoredProposal db proposalId sendFlowId fault world
    else
      let world := { world with store := world.store.removeLock proposalId }
      match fault with
      | some _ => (.error "Remove send proposal lock recovery rows",world)
      | none => (.ok (),{ world with rows := removeRows world.rows lock.owner })

def retainStoredProposalLockUntilExpiry (proposalId : Nat) (sendFlowId : String)
    (fault : Option UnlockFault) (world : World W) : Except String Unit × World W :=
  match world.store.locks proposalId with
  | none => (.ok (),world)
  | some lock =>
    if lock.sendFlowId = sendFlowId then
      retainStoredLock proposalId sendFlowId lock fault.isSome world
    else (.error sendFlowMismatch,world)

end Locks

/-- What the call leaves: the run of the loop, how the store fared, the call on the proposal's inputs
with its result, the answer, and the world. -/
structure BroadcastOutcome (W : Type) where
  run : BroadcastRun
  storage : Option (Except String Unit)
  call : CallKind
  result : Except String Unit
  answer : Except String String
  world : World W

/-- `store_and_broadcast_signed_pczts_for_proposal` once its PCZTs are prepared and not expired. -/
def storeAndBroadcastPrepared (proposalId : Nat) (sendFlowId : String)
    (prepared : PreparedPczts Tx) (attempt : Nat → PcztBroadcastAttempt)
    (openDb : Except String Unit) (fault : Option UnlockFault) (world : World W) :
    Option (BroadcastOutcome W) :=
  let totalCount := prepared.transactions.length
  match broadcastFrom attempt totalCount totalCount 0 [] with
  | none => none
  | some ⟨sent,.error error⟩ =>
    let (result,world) := finishStoredProposal db proposalId sendFlowId true fault world
    some ⟨⟨sent,.error error⟩,none,.finish true,result,releaseAnswer false error result,world⟩
  | some ⟨sent,.ok plan⟩ =>
    match storeBroadcastPczts transactions openDb
      (prepared.transactions.take plan.persistedPrefixLen) world.wallet with
    | (.error e,wallet) =>
      let (result,world) := retainStoredProposalLockUntilExpiry proposalId sendFlowId fault
        { world with wallet := wallet }
      some ⟨⟨sent,.ok plan⟩,some (.error e),.retain,result,
        .ok (storageFailedStatus plan totalCount),world⟩
    | (.ok (),wallet) =>
      let (result,world) := finishStoredProposal db proposalId sendFlowId false fault
        { world with wallet := wallet }
      some ⟨⟨sent,.ok plan⟩,some (.ok ()),.finish false,result,.ok plan.status,world⟩

section Loop

variable {attempt : Nat → PcztBroadcastAttempt} {total index n : Nat} {run : BroadcastRun}

/-- The transaction may be on the network. -/
def BroadcastRun.Exposed (run : BroadcastRun) (attempt : Nat → PcztBroadcastAttempt) (i : Nat) :
    Prop :=
  i ∈ run.sent ∧ (attempt i).mayBeOnNetwork = true

/-- Transactions are sent in order, each once those before it are accepted, so that a transaction
whose fate is unknown is the last one. A plan counts the accepted ones and stores exactly those that
may be on the network. -/
structure BroadcastRun.Ordered (attempt : Nat → PcztBroadcastAttempt) (total : Nat)
    (run : BroadcastRun) : Prop where
  sent : run.sent = List.range run.sent.length
  within : run.sent.length ≤ total
  accepted : ∀ i ∈ run.sent, ∀ j < i, attempt j = .accepted
  unknown : ∀ i ∈ run.sent, attempt i = .transportUnknown → i + 1 = run.sent.length
  plan : ∀ plan, run.ending = .ok plan → 0 < plan.persistedPrefixLen ∧
    plan.persistedPrefixLen ≤ total ∧ (∀ i, i < plan.persistedPrefixLen ↔ run.Exposed attempt i) ∧
    ∀ i, i < plan.broadcastedCount ↔ i ∈ run.sent ∧ attempt i = .accepted
  failed : ∀ e, run.ending = .error e → ∀ i, ¬run.Exposed attempt i

theorem ordered_of_range (index : Nat) {ending : Except String PcztBroadcastPlan} (hindex : index ≤ n)
    (hn : n ≤ index + 1) (htotal : n ≤ total) (haccepted : ∀ j < index, attempt j = .accepted)
    (hplan : ∀ plan, ending = .ok plan → 0 < plan.persistedPrefixLen ∧
      plan.persistedPrefixLen ≤ total ∧
      (∀ i, i < plan.persistedPrefixLen ↔ i < n ∧ (attempt i).mayBeOnNetwork = true) ∧
      ∀ i, i < plan.broadcastedCount ↔ i < n ∧ attempt i = .accepted)
    (hfailed : ∀ e, ending = .error e → ∀ i < n, (attempt i).mayBeOnNetwork = false) :
    BroadcastRun.Ordered attempt total ⟨List.range n,ending⟩ where
  sent := by simp
  within := by simpa using htotal
  accepted i hi j hj := by
    have hi : i < n := List.mem_range.mp hi
    exact haccepted j (by omega)
  unknown i hi hunknown := by
    have hi : i < n := List.mem_range.mp hi
    have hlast : ¬i < index := by
      intro hlt
      simp [haccepted i hlt] at hunknown
    simp
    omega
  plan plan hending := by simpa [BroadcastRun.Exposed] using hplan plan hending
  failed e hending i hexposed := by
    have hi : i < n := List.mem_range.mp hexposed.1
    simp [BroadcastRun.Exposed,hfailed e hending i hi] at hexposed

theorem mayBeOnNetwork_of_lt (haccepted : ∀ j < index, attempt j = .accepted) {i : Nat}
    (hi : i < index) : (attempt i).mayBeOnNetwork = true := by
  simp [haccepted i hi,PcztBroadcastAttempt.mayBeOnNetwork]

theorem ordered_of_stop {plan : PcztBroadcastPlan} (hindex : index < total)
    (hn : n = index ∨ n = index + 1) (haccepted : ∀ j < index, attempt j = .accepted)
    (hpos : 0 < plan.persistedPrefixLen)
    (hexposed : plan.persistedPrefixLen = index ∧
        (n = index ∨ (attempt index).mayBeOnNetwork = false) ∨
      plan.persistedPrefixLen = index + 1 ∧ n = index + 1 ∧
        (attempt index).mayBeOnNetwork = true)
    (hcount : plan.broadcastedCount = index ∧ (n = index ∨ attempt index ≠ .accepted) ∨
      plan.broadcastedCount = index + 1 ∧ n = index + 1 ∧ attempt index = .accepted) :
    BroadcastRun.Ordered attempt total ⟨List.range n,.ok plan⟩ := by
  refine ordered_of_range index (by omega) (by omega) (by omega) haccepted ?_
    (fun e he => by cases he)
  intro plan' hplan
  cases hplan
  refine ⟨by omega,by omega,?_,?_⟩
  · intro i
    rcases Nat.lt_trichotomy i index with hlt | rfl | hlt
    · simp [mayBeOnNetwork_of_lt haccepted hlt]
      omega
    · grind
    · have hout : ¬i < n := by omega
      simp [hout]
      omega
  · intro i
    rcases Nat.lt_trichotomy i index with hlt | rfl | hlt
    · simp [haccepted i hlt]
      omega
    · grind
    · have hout : ¬i < n := by omega
      simp [hout]
      omega

theorem ordered_of_fail (n : Nat) {error : String} (hn : n ≤ 1) (htotal : 0 < total)
    (hattempt : (attempt 0).mayBeOnNetwork = false) :
    BroadcastRun.Ordered attempt total ⟨List.range n,.error error⟩ := by
  refine ordered_of_range 0 (by omega) (by omega) (by omega) (by simp)
    (fun plan hplan => by cases hplan) ?_
  intro e _ i hi
  obtain rfl : i = 0 := by omega
  exact hattempt

theorem broadcastFrom_ordered (attempt : Nat → PcztBroadcastAttempt) (remaining index : Nat)
    (htotal : remaining + index = total) (hpos : 0 < remaining)
    (haccepted : ∀ j < index, attempt j = .accepted) :
    ∃ run, broadcastFrom attempt total remaining index (List.range index) = some run ∧
      run.Ordered attempt total := by
  induction remaining generalizing index with
  | zero => omega
  | succ remaining ih =>
    have hindex : index < total := by omega
    rw [broadcastFrom]
    cases hattempt : attempt index with
    | accepted =>
      have hnext : ∀ j < index + 1, attempt j = .accepted := by
        intro j hj
        rcases Nat.lt_succ_iff_lt_or_eq.mp hj with hlt | rfl
        · exact haccepted j hlt
        · exact hattempt
      by_cases hlast : index + 1 < total
      · have hrun := ih (index + 1) (by omega) (by omega) hnext
        simpa [pcztBroadcastStep,hlast,PcztBroadcastAttempt.isSent,← List.range_succ] using hrun
      · simp [pcztBroadcastStep,hlast,PcztBroadcastAttempt.isSent,← List.range_succ]
        exact ordered_of_stop hindex (.inr rfl) haccepted (Nat.succ_pos _)
          (.inr ⟨rfl,rfl,by simp [hattempt,PcztBroadcastAttempt.mayBeOnNetwork]⟩)
          (.inr ⟨rfl,rfl,hattempt⟩)
    | transportUnknown =>
      simp [pcztBroadcastStep,PcztBroadcastAttempt.isSent,← List.range_succ]
      exact ordered_of_stop hindex (.inr rfl) haccepted (Nat.succ_pos _)
        (.inr ⟨rfl,rfl,by simp [hattempt,PcztBroadcastAttempt.mayBeOnNetwork]⟩)
        (.inl ⟨rfl,.inr (by simp [hattempt])⟩)
    | definiteRejection error =>
      have hrejected : (attempt index).mayBeOnNetwork = false := by
        simp [hattempt,PcztBroadcastAttempt.mayBeOnNetwork]
      by_cases hfirst : index = 0
      · subst hfirst
        simp [pcztBroadcastStep,PcztBroadcastAttempt.isSent]
        exact ordered_of_fail 1 (by omega) hindex hrejected
      · simp [pcztBroadcastStep,hfirst,PcztBroadcastAttempt.isSent,← List.range_succ]
        exact ordered_of_stop hindex (.inr rfl) haccepted
          (Nat.pos_of_ne_zero hfirst) (.inl ⟨rfl,.inr hrejected⟩) (.inl ⟨rfl,.inr (by simp [hattempt])⟩)
    | routeUnavailable error =>
      have hunsent : (attempt index).mayBeOnNetwork = false := by
        simp [hattempt,PcztBroadcastAttempt.mayBeOnNetwork]
      by_cases hfirst : index = 0
      · subst hfirst
        simp [pcztBroadcastStep,PcztBroadcastAttempt.isSent]
        exact ordered_of_fail 0 (by omega) hindex hunsent
      · simp [pcztBroadcastStep,hfirst,PcztBroadcastAttempt.isSent]
        exact ordered_of_stop hindex (.inl rfl) haccepted (Nat.pos_of_ne_zero hfirst)
          (.inl ⟨rfl,.inl rfl⟩) (.inl ⟨rfl,.inl rfl⟩)

end Loop

section Storing

variable {transactions} {txs : List Tx} {wallet wallet' : W}

theorem stored_storeRounds {store : W → Tx → Except String W} (label : String) (index : Nat)
    (hstore : ∀ w tx w', store w tx = .ok w' →
      ∀ other, transactions.stored w' other ↔ transactions.stored w other ∨ other = tx)
    (h : storeRounds store label index txs wallet = .ok wallet') (tx : Tx) :
    transactions.stored wallet' tx ↔ transactions.stored wallet tx ∨ tx ∈ txs := by
  induction txs generalizing index wallet with
  | nil =>
    cases h
    simp
  | cons first txs ih =>
    rw [storeRounds] at h
    cases hfirst : store wallet first with
    | error e =>
      rw [hfirst] at h
      cases h
    | ok next =>
      rw [hfirst] at h
      rw [ih (index + 1) h,hstore wallet first next hfirst tx,List.mem_cons,or_assoc]

theorem stored_transactionally (transactions : TransactionStore db Tx) (txs : List Tx) (wallet : W)
    {body : W → Except String W}
    (hbody : ∀ w', body wallet = .ok w' → ∀ tx,
      transactions.stored w' tx ↔ transactions.stored wallet tx ∨ tx ∈ txs) :
    ((transactionally body wallet).1 = .ok () ∧ ∀ tx,
        transactions.stored (transactionally body wallet).2 tx ↔
          transactions.stored wallet tx ∨ tx ∈ txs) ∨
      (∃ e, (transactionally body wallet).1 = .error e) ∧
        (transactionally body wallet).2 = wallet := by
  unfold transactionally
  cases h : body wallet with
  | error e => exact .inr ⟨⟨e,rfl⟩,rfl⟩
  | ok next => exact .inl ⟨rfl,hbody next h⟩

theorem storeBroadcastPczts_atomic (transactions : TransactionStore db Tx) (openDb : Except String Unit) (txs : List Tx) (wallet : W) :
    ((storeBroadcastPczts transactions openDb txs wallet).1 = .ok () ∧ ∀ tx,
        transactions.stored (storeBroadcastPczts transactions openDb txs wallet).2 tx ↔
          transactions.stored wallet tx ∨ tx ∈ txs) ∨
      (∃ e, (storeBroadcastPczts transactions openDb txs wallet).1 = .error e) ∧
        (storeBroadcastPczts transactions openDb txs wallet).2 = wallet := by
  have hprimary := stored_transactionally transactions txs wallet fun w' h =>
      stored_storeRounds "Store signed PCZT round " 0
        transactions.stored_extract h
  have hfallback := stored_transactionally transactions txs wallet fun w' h =>
      stored_storeRounds "Fallback-store broadcast PCZT round " 0
        transactions.stored_decrypt h
  cases openDb with
  | error e => exact .inr ⟨⟨e,rfl⟩,rfl⟩
  | ok _ =>
    unfold storeBroadcastPczts
    rcases hrun : transactionally (storeRounds transactions.extractAndStore
      "Store signed PCZT round " 0 txs) wallet with ⟨_ | _,next⟩
    · rw [hrun] at hprimary
      obtain rfl : next = wallet := by simpa using hprimary
      rcases hagain : transactionally (storeRounds transactions.decryptAndStore
        "Fallback-store broadcast PCZT round " 0 txs) next with ⟨_ | _,last⟩
      · rw [hagain] at hfallback
        simpa [hrun,hagain] using hfallback
      · rw [hagain] at hfallback
        simpa [hrun,hagain] using hfallback
    · rw [hrun] at hprimary
      simpa [hrun] using hprimary

end Storing

section Inputs

variable {id : Nat} {flow : String} {lock : StoredProposalLock} {world : World W}
  {fault : Option UnlockFault} {answer : Except String Unit × World W}

theorem finish_released (hlock : world.store.locks id = some lock) (hflow : lock.sendFlowId = flow)
    (h : finishStoredProposal db id flow true fault world = answer) :
    (answer.1 = .ok () → InputsReleased db lock answer.2) ∧ (fault = none → answer.1 = .ok ()) := by
  subst h
  simp only [finishStoredProposal,hlock,hflow,ne_eq,not_true_eq_false,if_false,if_true]
  cases fault with
  | none =>
    simp only [unlockStoredProposal,hlock,hflow,ne_eq,not_true_eq_false,if_false]
    refine ⟨fun _ => ⟨?_,?_⟩,fun _ => trivial⟩
    · intro ref href
      exact unlockOutputs_released (List.mem_map.mpr ⟨ref,href,rfl⟩)
    · intro row hrow
      exact (mem_removeRows.mp hrow).2
  | some fault =>
    cases fault <;> simp [unlockStoredProposal,hlock,hflow]

theorem finish_kept (hlock : world.store.locks id = some lock) (hflow : lock.sendFlowId = flow)
    (h : finishStoredProposal db id flow false fault world = answer) :
    answer.2.wallet = world.wallet ∧ answer.2.store.locks id = none := by
  subst h
  cases fault <;> simp [finishStoredProposal,hlock,hflow]

theorem retain_retained (hlock : world.store.locks id = some lock) (hflow : lock.sendFlowId = flow)
    (h : retainStoredProposalLockUntilExpiry id flow fault world = answer) :
    answer.2.wallet = world.wallet ∧
      (answer.1 = .ok () → answer.2.store.locks id = none ∧
        ∀ row ∈ answer.2.rows.rows, row.owner = lock.owner → row.retainUntilExpiry = true) ∧
      (fault = none → ∀ row ∈ world.rows.rows, row.owner = lock.owner →
        world.store.proposals id = none → answer.1 = .ok ()) := by
  subst h
  cases fault with
  | some fault => simp [retainStoredProposalLockUntilExpiry,retainStoredLock,hlock,hflow]
  | none =>
    simp only [retainStoredProposalLockUntilExpiry,retainStoredLock,hlock,hflow,if_true,ne_eq,
      not_true_eq_false,or_self,if_false,Option.isSome_none,Bool.false_eq_true]
    cases hmark : markRetainUntilExpiry world.rows lock.owner with
    | error e =>
      have hnone : ∀ row ∈ world.rows.rows, row.owner ≠ lock.owner := by
        by_contra hsome
        rw [markRetainUntilExpiry,if_neg (by simpa [Table.count] using hsome)] at hmark
        cases hmark
      simp
      intro row hrow howner
      exact absurd howner (hnone row hrow)
    | ok rows =>
      have hretained : ∀ row ∈ rows.rows, row.owner = lock.owner → row.retainUntilExpiry = true := by
        intro row hrow howner
        obtain ⟨old,_,rfl⟩ := mem_markRetainUntilExpiry hmark hrow
        by_cases hold : old.owner = lock.owner
        · simp [hold]
        · simp [hold] at howner
      cases hproposal : world.store.proposals id with
      | none => simpa using hretained
      | some stored =>
        by_cases hsame : stored.sendFlowId = flow
        · simpa [hsame] using hretained
        · simp [hsame]

end Inputs

/-- What the call stores, and what becomes of the inputs of the proposal. -/
structure BroadcastOutcome.Sound (transactions : TransactionStore db Tx) (id : Nat)
    (lock : StoredProposalLock) (txs : List Tx) (attempt : Nat → PcztBroadcastAttempt)
    (openDb : Except String Unit) (fault : Option UnlockFault) (world : World W)
    (o : BroadcastOutcome W) : Prop where
  run : o.run.Ordered attempt txs.length
  /-- The store is tried when some transaction may be on the network. -/
  tried : o.storage = none ↔ ∀ i, ¬o.run.Exposed attempt i
  storedAll : o.storage = some (.ok ()) → ∀ tx, transactions.stored o.world.wallet tx ↔
    transactions.stored world.wallet tx ∨ ∃ i, o.run.Exposed attempt i ∧ txs[i]? = some tx
  storedNone : o.storage ≠ some (.ok ()) → ∀ tx, transactions.stored o.world.wallet tx ↔
    transactions.stored world.wallet tx
  /-- A transaction that was rejected or not sent is not stored. -/
  withheld : ∀ i tx, txs[i]? = some tx → ¬o.run.Exposed attempt i →
    ¬transactions.stored world.wallet tx → ¬transactions.stored o.world.wallet tx
  releases : o.call = .finish true ↔ ∀ i, ¬o.run.Exposed attempt i
  retains : o.call = .retain ↔ ∃ e, o.storage = some (.error e)
  leaves : o.call = .finish false ↔ o.storage = some (.ok ())
  released : o.call = .finish true → (o.result = .ok () → InputsReleased db lock o.world) ∧
    (fault = none → o.result = .ok ())
  retained : o.call = .retain → o.world.wallet = world.wallet ∧
    (o.result = .ok () → o.world.store.locks id = none ∧
      ∀ row ∈ o.world.rows.rows, row.owner = lock.owner → row.retainUntilExpiry = true) ∧
    (fault = none → ∀ row ∈ world.rows.rows, row.owner = lock.owner →
      world.store.proposals id = none → o.result = .ok ())
  /-- The locks are those that the store left, and nothing can unlock them for the proposal. -/
  left : o.call = .finish false → o.world.store.locks id = none ∧
    ∃ plan, o.run.ending = .ok plan ∧
      storeBroadcastPczts transactions openDb (txs.take plan.persistedPrefixLen) world.wallet =
        (.ok (),o.world.wallet)

theorem mem_take_iff {txs : List Tx} {n : Nat} {tx : Tx} :
    tx ∈ txs.take n ↔ ∃ i < n, txs[i]? = some tx := by
  simp only [List.mem_iff_getElem?,List.getElem?_take]
  grind

section Outcomes

variable {transactions} {id : Nat} {flow : String} {lock : StoredProposalLock}
  {prepared : PreparedPczts Tx} {attempt : Nat → PcztBroadcastAttempt} {openDb : Except String Unit}
  {fault : Option UnlockFault} {world world' : World W} {sent : List Nat}
  {result : Except String Unit} {answer : Except String String}

theorem stored_unlockOutputs (wallet : W) (outputs : List (OutputRef × LockOwner)) (tx : Tx) :
    transactions.stored (unlockOutputs db wallet outputs) tx ↔ transactions.stored wallet tx := by
  induction outputs generalizing wallet with
  | nil => rfl
  | cons output outputs ih =>
    have hfirst := transactions.stored_unlock wallet output.1 output.2 tx
    exact (ih (db.unlockOutput wallet output.1 output.2)).trans hfirst

theorem stored_finish (releaseInputs : Bool)
    (h : finishStoredProposal db id flow releaseInputs fault world = (result,world')) (tx : Tx) :
    transactions.stored world'.wallet tx ↔ transactions.stored world.wallet tx := by
  obtain rfl := congrArg Prod.snd h
  cases hlock : world.store.locks id with
  | none => simp [finishStoredProposal,hlock]
  | some lock =>
    by_cases hflow : lock.sendFlowId = flow
    · cases releaseInputs with
      | false => cases fault <;> simp [finishStoredProposal,hlock,hflow]
      | true =>
        cases fault with
        | none =>
          simp [finishStoredProposal,unlockStoredProposal,unlockProposalInputs,hlock,hflow,
            stored_unlockOutputs]
        | some fault =>
          cases fault <;> simp [finishStoredProposal,unlockStoredProposal,unlockProposalInputs,
            hlock,hflow,stored_unlockOutputs]
    · simp [finishStoredProposal,hlock,hflow]

theorem sound_of_failed {error : String} (hcap : world.store.locks id = some lock)
    (hflow : lock.sendFlowId = flow)
    (hordered : BroadcastRun.Ordered attempt prepared.transactions.length ⟨sent,.error error⟩)
    (hfinish : finishStoredProposal db id flow true fault world = (result,world')) :
    BroadcastOutcome.Sound transactions id lock prepared.transactions attempt openDb fault world
      ⟨⟨sent,.error error⟩,none,.finish true,result,answer,world'⟩ := by
  have hnone := hordered.failed error rfl
  have hstored : ∀ tx, transactions.stored world'.wallet tx ↔ transactions.stored world.wallet tx :=
    stored_finish true hfinish
  have hreleased := finish_released hcap hflow hfinish
  constructor <;> simp_all

theorem sound_of_unstored {plan : PcztBroadcastPlan} {error : String}
    (hcap : world.store.locks id = some lock) (hflow : lock.sendFlowId = flow)
    (hordered : BroadcastRun.Ordered attempt prepared.transactions.length ⟨sent,.ok plan⟩)
    (hretain : retainStoredProposalLockUntilExpiry id flow fault world = (result,world')) :
    BroadcastOutcome.Sound transactions id lock prepared.transactions attempt openDb fault world
      ⟨⟨sent,.ok plan⟩,some (.error error),.retain,result,answer,world'⟩ := by
  obtain ⟨hpos,_,hexposed,_⟩ := hordered.plan plan rfl
  have hsome : ∃ i, BroadcastRun.Exposed ⟨sent,.ok plan⟩ attempt i := ⟨0,(hexposed 0).mp hpos⟩
  have hretained := retain_retained hcap hflow hretain
  have hwallet : world'.wallet = world.wallet := hretained.1
  refine ⟨hordered,by simpa using hsome,by simp,by simp [hwallet],by simp [hwallet],
    by simpa using hsome,by simp,by simp,by simp,fun _ => hretained,by simp⟩

theorem sound_of_stored {plan : PcztBroadcastPlan} {wallet : W}
    (hcap : world.store.locks id = some lock) (hflow : lock.sendFlowId = flow)
    (hordered : BroadcastRun.Ordered attempt prepared.transactions.length ⟨sent,.ok plan⟩)
    (hstore : storeBroadcastPczts transactions openDb
      (prepared.transactions.take plan.persistedPrefixLen) world.wallet = (.ok (),wallet))
    (hfinish : finishStoredProposal db id flow false fault { world with wallet := wallet } =
      (result,world')) :
    BroadcastOutcome.Sound transactions id lock prepared.transactions attempt openDb fault world
      ⟨⟨sent,.ok plan⟩,some (.ok ()),.finish false,result,answer,world'⟩ := by
  obtain ⟨hpos,_,hexposed,_⟩ := hordered.plan plan rfl
  have hsome : ∃ i, BroadcastRun.Exposed ⟨sent,.ok plan⟩ attempt i := ⟨0,(hexposed 0).mp hpos⟩
  have hkept : world'.wallet = wallet ∧ world'.store.locks id = none :=
    finish_kept (by exact hcap) hflow hfinish
  have hwallet : world'.wallet = wallet := hkept.1
  have hstored : ∀ tx, transactions.stored world'.wallet tx ↔ transactions.stored world.wallet tx ∨
      ∃ i, BroadcastRun.Exposed ⟨sent,.ok plan⟩ attempt i ∧ prepared.transactions[i]? = some tx := by
    intro tx
    have hatomic := storeBroadcastPczts_atomic transactions openDb
      (prepared.transactions.take plan.persistedPrefixLen) world.wallet
    rw [hstore] at hatomic
    have hall := (hatomic.resolve_right (by simp)).2 tx
    simpa [hwallet,mem_take_iff,hexposed] using hall
  refine ⟨hordered,by simpa using hsome,fun _ => hstored,by simp,?_,by simpa using hsome,by simp,
    by simp,by simp,by simp,fun _ => ⟨hkept.2,plan,rfl,hwallet ▸ hstore⟩⟩
  intro i tx hi hwithheld hold hnew
  obtain ⟨j,hj,htx⟩ := ((hstored tx).mp hnew).resolve_left hold
  -- no transaction is prepared twice
  obtain rfl : i = j := by
    have hilen : i < prepared.transactions.length := (List.getElem?_eq_some_iff.mp hi).1
    exact (List.getElem?_inj hilen prepared.distinct).mp (hi.trans htx.symm)
  exact hwithheld hj

end Outcomes

/-- The ordered broadcast stores exactly the transactions that may be on the network, or none of them
when the database refuses, and releases the inputs exactly when there is no such transaction. -/
theorem storeAndBroadcastPrepared_sound (id : Nat) (flow : String) (prepared : PreparedPczts Tx)
    (attempt : Nat → PcztBroadcastAttempt) (openDb : Except String Unit)
    (fault : Option UnlockFault) (world : World W) (lock : StoredProposalLock)
    (hlock : storedProposalLock id flow world.store = .ok lock) :
    ∃ o, storeAndBroadcastPrepared transactions id flow prepared attempt openDb fault world = some o ∧
      o.Sound transactions id lock prepared.transactions attempt openDb fault world := by
  obtain ⟨hcap,hflow⟩ := storedProposalLock_ok hlock
  have hlength : 0 < prepared.transactions.length := List.length_pos_iff.mpr prepared.nonempty
  obtain ⟨⟨sent,ending⟩,hrun,hordered⟩ : ∃ run, broadcastFrom attempt prepared.transactions.length
      prepared.transactions.length 0 [] = some run ∧ run.Ordered attempt prepared.transactions.length :=
    broadcastFrom_ordered attempt prepared.transactions.length 0 rfl hlength (by simp)
  unfold storeAndBroadcastPrepared
  simp only [hrun]
  cases ending with
  | error error =>
    rcases hfinish : finishStoredProposal db id flow true fault world with ⟨result,world'⟩
    exact ⟨_,rfl,sound_of_failed hcap hflow hordered hfinish⟩
  | ok plan =>
    rcases hstore : storeBroadcastPczts transactions openDb
      (prepared.transactions.take plan.persistedPrefixLen) world.wallet with ⟨_ | _,wallet⟩
    · have hatomic := storeBroadcastPczts_atomic transactions openDb
        (prepared.transactions.take plan.persistedPrefixLen) world.wallet
      rw [hstore] at hatomic
      obtain rfl : wallet = world.wallet := by simpa using hatomic
      rcases hretain : retainStoredProposalLockUntilExpiry id flow fault world with ⟨result,world'⟩
      simp only [hstore,hretain]
      exact ⟨_,rfl,sound_of_unstored hcap hflow hordered hretain⟩
    · rcases hfinish : finishStoredProposal db id flow false fault
        { world with wallet := wallet } with ⟨result,world'⟩
      simp only [hstore,hfinish]
      exact ⟨_,rfl,sound_of_stored hcap hflow hordered hstore hfinish⟩

/-- Output locks beside the list of the transactions stored. -/
def ledgerLocks : OutputLockStore (NoteLocks × List String) where
  lockOf wallet := outputLocks.lockOf wallet.1
  lockOutputs wallet refs owner expiry := (outputLocks.lockOutputs wallet.1 refs owner expiry,wallet.2)
  unlockOutput wallet ref owner := (outputLocks.unlockOutput wallet.1 ref owner,wallet.2)
  lockOf_lockOutputs wallet := outputLocks.lockOf_lockOutputs wallet.1
  lockOf_unlockOutput wallet := outputLocks.lockOf_unlockOutput wallet.1
  lockOf_unlockOutput_owner wallet := outputLocks.lockOf_unlockOutput_owner wallet.1
  lockOf_unlockOutput_ne wallet := outputLocks.lockOf_unlockOutput_ne wallet.1

theorem mem_append_singleton {txs : List String} {tx other : String} :
    other ∈ txs ++ [tx] ↔ other ∈ txs ∨ other = tx := by
  simp

/-- The second transaction has no form that can be stored from its PCZT. -/
def ledger : TransactionStore ledgerLocks String where
  stored wallet tx := tx ∈ wallet.2
  extractAndStore wallet tx :=
    if tx = "tx1" then .error "unknown recipient" else .ok (wallet.1,wallet.2 ++ [tx])
  decryptAndStore wallet tx := .ok (wallet.1,wallet.2 ++ [tx])
  stored_extract wallet tx wallet' h other := by
    split at h
    · cases h
    · cases h
      exact mem_append_singleton
  stored_decrypt wallet tx wallet' h other := by
    cases h
    exact mem_append_singleton
  stored_unlock _ _ _ _ := Iff.rfl

def twoPczts : PreparedPczts String := ⟨["tx0","tx1"],by decide,by decide⟩

/-- The second transaction ends with a lost connection. -/
def lostSecond : Nat → PcztBroadcastAttempt
  | 0 => .accepted
  | _ => .transportUnknown

def lockedWorld : World (NoteLocks × List String) :=
  { store := { ProposalStore.empty with locks := fun _ => some proposalLock }
    wallet := (fun _ => some (⟨7⟩,140),[])
    rows := persist .empty 0 ⟨7⟩ [noteRef] 140
    sessionId := 0
    targetHeight := some 100 }

theorem twoPczts_sound :
    ∃ o, storeAndBroadcastPrepared ledger 1 "send-1" twoPczts lostSecond (.ok ()) none lockedWorld =
        some o ∧
      o.Sound ledger 1 proposalLock twoPczts.transactions lostSecond (.ok ()) none lockedWorld :=
  storeAndBroadcastPrepared_sound ledger 1 "send-1" twoPczts lostSecond (.ok ()) none lockedWorld
    proposalLock rfl

end CoppiceWallet.Proposals
