import Mathlib.Data.List.ReduceOption
import CoppiceWallet.Lib.Run
import CoppiceWallet.Names.Sidecar

/-! # The reference to a COMMIT -/

namespace CoppiceWallet.Names

open CoppiceWallet.Lib CoppiceWallet.Store

/-- The observations of COMMITs in the transactional Names store. -/
structure CommitStore (S : Type) where
  observation : S → Bytes32 → StoreResult (Option CommitRef)
  recordWalletCommit : Bytes32 → CommitRef → S → StoreResult S
  resetForReplay : S → StoreResult S
  rollbackToHeightOrReset : Nat → S → StoreResult S

/-- A recorded observation is the one found; a rollback and a reset only remove observations. -/
structure CommitStore.Lawful {S : Type} (store : CommitStore S) : Prop where
  record : ∀ {c reference s s'}, store.recordWalletCommit c reference s = .ok s' →
    ∀ c', store.observation s' c' =
      if c' = c then .ok (some reference) else store.observation s c'
  reset : ∀ {s s'}, store.resetForReplay s = .ok s' → ∀ {c reference},
    store.observation s' c = .ok (some reference) → store.observation s c = .ok (some reference)
  rollback : ∀ {height s s'}, store.rollbackToHeightOrReset height s = .ok s' →
    ∀ {c reference}, store.observation s' c = .ok (some reference) →
      store.observation s c = .ok (some reference)

variable {S : Type} {store : CommitStore S}

def recordWalletCommits (store : CommitStore S) :
    List (Bytes32 × CommitRef) → S → StoreResult S
  | [], s => .ok s
  | (commitment,reference) :: accepted, s => do
    let s ← store.recordWalletCommit commitment reference s
    recordWalletCommits store accepted s

/-- A rebuild of the reducer from its activation forgets what it had observed. -/
def CommitStore.beforeReplay (store : CommitStore S) (resetForReplay : Bool) (s : S) :
    StoreResult S :=
  if resetForReplay then store.resetForReplay s else .ok s

/-- The wallet transaction of a scan, as far as COMMITs go. -/
def persistTransactionalState (store : CommitStore S) (accepted : List (Bytes32 × CommitRef))
    (resetForReplay : Bool) (s : S) : StoreResult S := do
  let s ← store.beforeReplay resetForReplay s
  recordWalletCommits store accepted s

structure SyncState (S : Type) where
  transactional : S
  sidecar : StoredNamesWallet

inductive SyncStep
  /-- A batch, with both of its writes. -/
  | scan (tipHeight : Nat) (accepted : List (Bytes32 × CommitRef))
  /-- The replay that brings the store up to a batch; the sidecar is given its tip alone. -/
  | replay (tipHeight : Nat) (accepted : List (Bytes32 × CommitRef)) (resetForReplay : Bool)
  /-- A batch or a replay that stops between its two writes. -/
  | interrupted (accepted : List (Bytes32 × CommitRef)) (resetForReplay : Bool)
  | rollback (height : Nat)
  | load

def SyncStep.apply (store : CommitStore S) (parameters : NamesParameters) (step : SyncStep)
    (s : SyncState S) : StoreResult (SyncState S) :=
  match step with
  | .scan tipHeight accepted => do
    let transactional ← persistTransactionalState store accepted false s.transactional
    let sidecar ← persistAfterScan parameters tipHeight accepted s.sidecar
    return ⟨transactional,sidecar⟩
  | .replay tipHeight accepted resetForReplay => do
    let transactional ← persistTransactionalState store accepted resetForReplay s.transactional
    let sidecar ← persistAfterScan parameters tipHeight [] s.sidecar
    return ⟨transactional,sidecar⟩
  | .interrupted accepted resetForReplay => do
    let transactional ← persistTransactionalState store accepted resetForReplay s.transactional
    return ⟨transactional,s.sidecar⟩
  | .rollback height => do
    let transactional ← store.rollbackToHeightOrReset height s.transactional
    return ⟨transactional,s.sidecar⟩
  | .load => do
    let sidecar ← loadForSync (store.observation s.transactional) s.sidecar
    return ⟨s.transactional,sidecar⟩

def Carries (r : StoredRegistration) (reference : CommitRef) : Prop :=
  r.commitHeight = some reference.height ∧ r.commitTxIndex = some reference.txIndex

/-- A reference that differs from the observation is missing, so that a load repairs it. -/
def Repairable (observation : Bytes32 → StoreResult (Option CommitRef)) (r : StoredRegistration) :
    Prop :=
  ∀ reference, observation r.commitment = .ok (some reference) →
    r.commitTxid = some reference.txid → r.commitHeight = none ∨ Carries r reference

def DistinctCommitments (registrations : Registrations) : Prop :=
  (registrations.rows.map StoredRegistration.commitment).Nodup

/-- The last reference that a batch accepts for a commitment. -/
def lastAccepted (accepted : List (Bytes32 × CommitRef)) (commitment : Bytes32) :
    Option CommitRef :=
  accepted.foldl (fun last entry => if entry.1 = commitment then some entry.2 else last) none

/-- A lost or absent sidecar write loses no reference that the repair would not bring back. -/
def KeepsReferences (step : SyncStep) (s : SyncState S) : Prop :=
  match step with
  | .replay _ accepted _ | .interrupted accepted _ =>
    ∀ r ∈ s.sidecar.registrations.rows, ∀ reference,
      lastAccepted accepted r.commitment = some reference →
      r.commitTxid = some reference.txid → r.commitHeight = none ∨ Carries r reference
  | _ => True

theorem foldl_lastAccepted (accepted : List (Bytes32 × CommitRef)) (commitment : Bytes32)
    (last : Option CommitRef) :
    accepted.foldl (fun last entry => if entry.1 = commitment then some entry.2 else last) last =
      (lastAccepted accepted commitment).or last := by
  induction accepted generalizing last with
  | nil => rfl
  | cons entry accepted ih =>
    rw [lastAccepted,List.foldl_cons,List.foldl_cons,ih,ih]
    by_cases h : entry.1 = commitment
    · rw [if_pos h,if_pos h]
      cases lastAccepted accepted commitment <;> rfl
    · rw [if_neg h,if_neg h,Option.or_none]

theorem lastAccepted_cons (entry : Bytes32 × CommitRef) (accepted : List (Bytes32 × CommitRef))
    (commitment : Bytes32) :
    lastAccepted (entry :: accepted) commitment =
      (lastAccepted accepted commitment).or
        (if entry.1 = commitment then some entry.2 else none) := by
  rw [lastAccepted,List.foldl_cons,foldl_lastAccepted]

variable {accepted : List (Bytes32 × CommitRef)}

theorem recordWalletCommits_observation (hstore : store.Lawful)
    {s s' : S} (h : recordWalletCommits store accepted s = .ok s') (commitment : Bytes32) :
    store.observation s' commitment =
      match lastAccepted accepted commitment with
      | some reference => .ok (some reference)
      | none => store.observation s commitment := by
  induction accepted generalizing s with
  | nil =>
    cases h
    rfl
  | cons entry accepted ih =>
    obtain ⟨t,ht,h⟩ := bind_ok h
    rw [ih h,lastAccepted_cons,hstore.record ht]
    by_cases hentry : entry.1 = commitment
    · cases lastAccepted accepted commitment <;> simp [hentry]
    · have hne : commitment ≠ entry.1 := Ne.symm hentry
      cases lastAccepted accepted commitment <;> simp [hentry,hne]

variable {reference : CommitRef}

theorem persistTransactionalState_observation (hstore : store.Lawful)
    {resetForReplay : Bool} {s s' : S}
    (h : persistTransactionalState store accepted resetForReplay s = .ok s')
    {commitment : Bytes32} (hobserved : store.observation s' commitment = .ok (some reference)) :
    lastAccepted accepted commitment = some reference ∨
      lastAccepted accepted commitment = none ∧
        store.observation s commitment = .ok (some reference) := by
  obtain ⟨t,ht,h⟩ := bind_ok h
  rw [recordWalletCommits_observation hstore h] at hobserved
  cases hlast : lastAccepted accepted commitment with
  | some last =>
    rw [hlast] at hobserved
    cases hobserved
    exact .inl rfl
  | none =>
    rw [hlast] at hobserved
    refine .inr ⟨rfl,?_⟩
    unfold CommitStore.beforeReplay at ht
    split at ht
    · exact hstore.reset ht hobserved
    · cases ht
      exact hobserved

variable {registrations : Registrations} {r : StoredRegistration}

theorem DistinctCommitments.eq (hdistinct : DistinctCommitments registrations)
    {s : StoredRegistration} (hr : r ∈ registrations.rows) (hs : s ∈ registrations.rows)
    (h : r.commitment = s.commitment) : r = s :=
  List.inj_on_of_nodup_map hdistinct hr hs h

theorem DistinctCommitments.map {registrations' : Registrations}
    {f : StoredRegistration → StoredRegistration} (hdistinct : DistinctCommitments registrations)
    (hrows : registrations'.rows = registrations.rows.map f)
    (hf : ∀ r, (f r).commitment = r.commitment) : DistinctCommitments registrations' := by
  have hsame : StoredRegistration.commitment ∘ f = StoredRegistration.commitment := funext hf
  rw [DistinctCommitments,hrows,List.map_map,hsame]
  exact hdistinct

theorem recordAcceptedCommit_rows (hdistinct : DistinctCommitments registrations)
    (accepted : Bytes32 × CommitRef) : (recordAcceptedCommit registrations accepted).rows =
      registrations.rows.map fun r =>
        if decide (r.commitment = accepted.1) then r.withAcceptedCommit accepted.2 else r := by
  unfold recordAcceptedCommit
  split
  · exact (Table.rows_map_find_none ‹_›).symm
  · refine Table.rows_overwrite_find (f := fun r : StoredRegistration => r.withAcceptedCommit accepted.2)
      (fun _ => rfl) (fun r hr s hs hpr hps => ?_) ‹_›
    exact hdistinct.eq hr hs ((of_decide_eq_true hpr).trans (of_decide_eq_true hps).symm)

/-- A registration after the COMMITs of a batch. -/
def afterAccepted (accepted : List (Bytes32 × CommitRef)) (r : StoredRegistration) :
    StoredRegistration :=
  match lastAccepted accepted r.commitment with
  | none => r
  | some reference => r.withAcceptedCommit reference

theorem afterAccepted_commitment (accepted : List (Bytes32 × CommitRef)) (r : StoredRegistration) :
    (afterAccepted accepted r).commitment = r.commitment := by
  unfold afterAccepted
  split <;> rfl

theorem withAcceptedCommit_twice (r : StoredRegistration) (first last : CommitRef) :
    (r.withAcceptedCommit first).withAcceptedCommit last = r.withAcceptedCommit last := by
  unfold StoredRegistration.withAcceptedCommit StoredRegistration.withCommitReference
  by_cases h : r.revealTxid.isNone <;> simp [h]

theorem afterAccepted_cons (entry : Bytes32 × CommitRef) (accepted : List (Bytes32 × CommitRef))
    (r : StoredRegistration) :
    afterAccepted (entry :: accepted) r =
      afterAccepted accepted (if decide (r.commitment = entry.1) then r.withAcceptedCommit entry.2
        else r) := by
  by_cases h : r.commitment = entry.1
  · rw [if_pos (decide_eq_true h),afterAccepted,lastAccepted_cons,if_pos h.symm]
    show _ = match lastAccepted accepted r.commitment with
      | none => r.withAcceptedCommit entry.2
      | some reference => (r.withAcceptedCommit entry.2).withAcceptedCommit reference
    cases lastAccepted accepted r.commitment with
    | none => rfl
    | some reference => exact (withAcceptedCommit_twice r entry.2 reference).symm
  · have hne : ¬decide (r.commitment = entry.1) = true := by simpa using h
    rw [if_neg hne,afterAccepted,lastAccepted_cons,if_neg (Ne.symm h),Option.or_none]
    rfl

theorem foldl_recordAcceptedCommit_rows (accepted : List (Bytes32 × CommitRef))
    (hdistinct : DistinctCommitments registrations) :
    (accepted.foldl recordAcceptedCommit registrations).rows =
      registrations.rows.map (afterAccepted accepted) := by
  induction accepted generalizing registrations with
  | nil => exact (List.map_id _).symm
  | cons entry accepted ih =>
    have hrows := recordAcceptedCommit_rows hdistinct entry
    have hdistinct' := hdistinct.map hrows fun r => by split <;> rfl
    rw [List.foldl_cons,ih hdistinct',hrows,List.map_map]
    exact List.map_congr_left fun r _ => (afterAccepted_cons entry accepted r).symm

variable {parameters : NamesParameters} {stored stored' : StoredNamesWallet}

theorem persistAfterScan_rows {tipHeight : Nat}
    (hdistinct : DistinctCommitments stored.registrations)
    (h : persistAfterScan parameters tipHeight accepted stored = .ok stored') :
    List.Forall₂ (fun r r' => ∃ phase, r' = { afterAccepted accepted r with phase := phase })
      stored.registrations.rows stored'.registrations.rows := by
  obtain ⟨registrations,hregistrations,h⟩ := bind_ok h
  cases h
  have hrows := Table.rewrite_ok hregistrations
  rw [foldl_recordAcceptedCommit_rows accepted hdistinct,List.forall₂_map_left_iff] at hrows
  refine hrows.imp fun r r' hr => ?_
  obtain ⟨phase,_,rfl⟩ := withPhaseAfterScan_ok hr
  exact ⟨phase,rfl⟩

theorem recoverCommit_rows (hdistinct : DistinctCommitments registrations)
    (recovered : Bytes32 × CommitRef) : (recoverCommit registrations recovered).rows =
      registrations.rows.map fun r =>
        if decide (r.commitment = recovered.1) && decide (r.commitTxid = some recovered.2.txid)
        then r.withCommitReference recovered.2 else r := by
  unfold recoverCommit
  split
  · exact (Table.rows_map_find_none ‹_›).symm
  · refine Table.rows_overwrite_find (f := fun r : StoredRegistration => r.withCommitReference recovered.2)
      (fun _ => rfl) (fun r hr s hs hpr hps => ?_) ‹_›
    rw [Bool.and_eq_true,decide_eq_true_iff] at hpr hps
    exact hdistinct.eq hr hs (hpr.1.trans hps.1.symm)

variable {observation : Bytes32 → StoreResult (Option CommitRef)}

theorem foldl_recoverCommit {recovered : List (Bytes32 × CommitRef)}
    (hdistinct : DistinctCommitments registrations)
    (hobserved : ∀ entry ∈ recovered, observation entry.1 = .ok (some entry.2))
    (h : ∀ r ∈ registrations.rows, ∀ reference,
      observation r.commitment = .ok (some reference) → r.commitTxid = some reference.txid →
        (r.commitment,reference) ∈ recovered ∨ Carries r reference) :
    DistinctCommitments (recovered.foldl recoverCommit registrations) ∧
      ∀ r ∈ (recovered.foldl recoverCommit registrations).rows, ∀ reference,
        observation r.commitment = .ok (some reference) → r.commitTxid = some reference.txid →
          Carries r reference := by
  induction recovered generalizing registrations with
  | nil =>
    refine ⟨hdistinct,fun r hr reference hr1 hr2 => ?_⟩
    exact (h r hr reference hr1 hr2).resolve_left List.not_mem_nil
  | cons entry recovered ih =>
    have hrows := recoverCommit_rows hdistinct entry
    refine ih (hdistinct.map hrows fun r => by split <;> rfl)
      (fun e he => hobserved e (List.mem_cons_of_mem _ he)) ?_
    rw [hrows]
    intro r' hr' reference
    obtain ⟨r,hr,rfl⟩ := List.mem_map.mp hr'
    split
    · rename_i hentry
      intro hreference _
      rw [Bool.and_eq_true,decide_eq_true_iff] at hentry
      have hsame : some reference = some entry.2 := by
        refine Except.ok.inj (hreference.symm.trans ?_)
        show observation r.commitment = .ok (some entry.2)
        rw [hentry.1]
        exact hobserved entry List.mem_cons_self
      cases hsame
      exact .inr ⟨rfl,rfl⟩
    · rename_i hentry
      intro hreference htxid
      refine (h r hr reference hreference htxid).imp_left fun hmem => ?_
      rcases List.mem_cons.mp hmem with rfl | hmem
      · simp [htxid] at hentry
      · exact hmem

theorem unrecordedCommit_some {entry : Bytes32 × CommitRef}
    (h : unrecordedCommit observation r = .ok (some entry)) :
    observation entry.1 = .ok (some entry.2) := by
  unfold unrecordedCommit at h
  split at h
  · cases h
  · split at h
    · cases h
    · obtain ⟨observed,hobserved,h⟩ := bind_ok h
      cases observed with
      | none => cases h
      | some reference =>
        dsimp only at h
        split at h
        · cases h
        · cases h
          exact hobserved

theorem unrecordedCommit_of_observed (hheight : r.commitHeight = none)
    (hobserved : observation r.commitment = .ok (some reference))
    (htxid : r.commitTxid = some reference.txid) :
    unrecordedCommit observation r = .ok (some (r.commitment,reference)) := by
  simp [unrecordedCommit,hheight,htxid,hobserved,ok_bind]
  rfl

theorem loadForSync_carries (hdistinct : DistinctCommitments stored.registrations)
    (hrepairable : ∀ r ∈ stored.registrations.rows, Repairable observation r)
    (h : loadForSync observation stored = .ok stored') :
    DistinctCommitments stored'.registrations ∧
      ∀ r ∈ stored'.registrations.rows, ∀ reference,
        observation r.commitment = .ok (some reference) → r.commitTxid = some reference.txid →
          Carries r reference := by
  obtain ⟨recovered,hrecovered,h⟩ := bind_ok h
  cases h
  have hrows := mapM_ok hrecovered
  refine foldl_recoverCommit hdistinct ?_ ?_
  · intro entry hentry
    obtain ⟨r,_,hr⟩ := forall₂_mem_right hrows (List.reduceOption_mem_iff.mp hentry)
    exact unrecordedCommit_some hr
  · intro r hr reference hreference htxid
    refine (hrepairable r hr reference hreference htxid).imp_left fun hheight => ?_
    obtain ⟨entry,hentry,hr⟩ := forall₂_mem_left hrows hr
    rw [unrecordedCommit_of_observed hheight hreference htxid] at hr
    cases hr
    exact List.reduceOption_mem_iff.mpr hentry

theorem acceptedCommit_of_carries {pendingCommit : Text → CommitRef → Option Bytes32}
    (hdistinct : DistinctCommitments stored.registrations) (hr : r ∈ stored.registrations.rows)
    (hcarries : Carries r reference) (htxid : r.commitTxid = some reference.txid)
    (hpending : pendingCommit r.name reference = some r.commitment) :
    acceptedCommit pendingCommit stored r.commitment = some reference := by
  have hfind : stored.registrations.find? (fun s => decide (s.commitment = r.commitment)) =
      some r := by
    cases h : stored.registrations.find? fun s => decide (s.commitment = r.commitment) with
    | none => simpa using List.find?_eq_none.mp h r hr
    | some s =>
      obtain ⟨hs,hcommitment⟩ := Table.find?_eq_some h
      rw [hdistinct.eq hs hr (of_decide_eq_true hcommitment)]
  simp [acceptedCommit,hfind,hcarries.1,hcarries.2,htxid,hpending]

/-- After every step, a reference that is wrong is missing. -/
def SyncState.Sound (store : CommitStore S) (s : SyncState S) : Prop :=
  DistinctCommitments s.sidecar.registrations ∧
    ∀ r ∈ s.sidecar.registrations.rows, Repairable (store.observation s.transactional) r

theorem afterAccepted_repairable {observation' : Bytes32 → StoreResult (Option CommitRef)}
    (hr : Repairable observation r)
    (hobserved : ∀ reference, observation' r.commitment = .ok (some reference) →
      lastAccepted accepted r.commitment = some reference ∨
        lastAccepted accepted r.commitment = none ∧
          observation r.commitment = .ok (some reference)) :
    Repairable observation' (afterAccepted accepted r) := by
  intro reference hreference htxid
  rw [afterAccepted_commitment] at hreference
  rcases hobserved reference hreference with hlast | ⟨hlast,hbefore⟩
  · refine .inr ?_
    rw [afterAccepted,hlast]
    exact ⟨rfl,rfl⟩
  · rw [afterAccepted,hlast] at htxid ⊢
    exact hr reference hbefore htxid

theorem persistAfterScan_sound {tipHeight : Nat}
    {observation' : Bytes32 → StoreResult (Option CommitRef)}
    (hdistinct : DistinctCommitments stored.registrations)
    (hrepairable : ∀ r ∈ stored.registrations.rows,
      Repairable observation' (afterAccepted accepted r))
    (h : persistAfterScan parameters tipHeight accepted stored = .ok stored') :
    DistinctCommitments stored'.registrations ∧
      ∀ r ∈ stored'.registrations.rows, Repairable observation' r := by
  have hrows := persistAfterScan_rows hdistinct h
  constructor
  · have hsame : stored'.registrations.rows.map StoredRegistration.commitment =
        stored.registrations.rows.map StoredRegistration.commitment := by
      refine forall₂_map_eq hrows fun r r' => ?_
      rintro ⟨phase,rfl⟩
      exact afterAccepted_commitment accepted r
    rw [DistinctCommitments,hsame]
    exact hdistinct
  · intro r' hr'
    obtain ⟨r,hr,phase,rfl⟩ := forall₂_mem_right hrows hr'
    exact hrepairable r hr

theorem SyncStep.sound (hstore : store.Lawful) {step : SyncStep} {s s' : SyncState S}
    (hs : s.Sound store) (hguard : KeepsReferences step s)
    (h : step.apply store parameters s = .ok s') : s'.Sound store := by
  obtain ⟨hdistinct,hrepairable⟩ := hs
  cases step with
  | scan tipHeight accepted =>
    obtain ⟨transactional,htransactional,h⟩ := bind_ok h
    obtain ⟨sidecar,hsidecar,h⟩ := bind_ok h
    cases h
    exact persistAfterScan_sound hdistinct
      (fun r hr => afterAccepted_repairable (hrepairable r hr) fun reference =>
        persistTransactionalState_observation hstore htransactional) hsidecar
  | replay tipHeight accepted resetForReplay =>
    obtain ⟨transactional,htransactional,h⟩ := bind_ok h
    obtain ⟨sidecar,hsidecar,h⟩ := bind_ok h
    cases h
    refine persistAfterScan_sound hdistinct (fun r hr reference hreference htxid => ?_) hsidecar
    rcases persistTransactionalState_observation hstore htransactional hreference with
      hlast | ⟨_,hbefore⟩
    · exact hguard r hr reference hlast htxid
    · exact hrepairable r hr reference hbefore htxid
  | interrupted accepted resetForReplay =>
    obtain ⟨transactional,htransactional,h⟩ := bind_ok h
    cases h
    refine ⟨hdistinct,fun r hr reference hreference htxid => ?_⟩
    rcases persistTransactionalState_observation hstore htransactional hreference with
      hlast | ⟨_,hbefore⟩
    · exact hguard r hr reference hlast htxid
    · exact hrepairable r hr reference hbefore htxid
  | rollback height =>
    obtain ⟨transactional,htransactional,h⟩ := bind_ok h
    cases h
    exact ⟨hdistinct,fun r hr reference hreference =>
      hrepairable r hr reference (hstore.rollback htransactional hreference)⟩
  | load =>
    obtain ⟨sidecar,hsidecar,h⟩ := bind_ok h
    cases h
    obtain ⟨hdistinct',hcarries⟩ := loadForSync_carries hdistinct hrepairable hsidecar
    exact ⟨hdistinct',fun r hr reference hreference htxid =>
      .inr (hcarries r hr reference hreference htxid)⟩

/-- After the next load, a registration carries what was observed of its COMMIT. -/
theorem loadedCommit_followsObservation (hstore : store.Lawful) {parameters : NamesParameters}
    {start s : SyncState S} {stored : StoredNamesWallet}
    (hdistinct : DistinctCommitments start.sidecar.registrations)
    (hstart : ∀ r ∈ start.sidecar.registrations.rows,
      Repairable (store.observation start.transactional) r)
    (hrun : GuardedRuns (SyncStep.apply store parameters) KeepsReferences start s)
    (hload : loadForSync (store.observation s.transactional) s.sidecar = .ok stored)
    {r : StoredRegistration} (hr : r ∈ stored.registrations.rows) {reference : CommitRef}
    (hobserved : store.observation s.transactional r.commitment = .ok (some reference))
    (htxid : r.commitTxid = some reference.txid) :
    Carries r reference ∧
      ∀ pendingCommit : Text → CommitRef → Option Bytes32,
        pendingCommit r.name reference = some r.commitment →
          acceptedCommit pendingCommit stored r.commitment = some reference := by
  have hsound : s.Sound store :=
    hrun.invariant (P := SyncState.Sound store)
      (fun _ _ _ hs hguard hstep => SyncStep.sound hstore hs hguard hstep) ⟨hdistinct,hstart⟩
  obtain ⟨hdistinct',hcarries⟩ := loadForSync_carries hsound.1 hsound.2 hload
  have hr' := hcarries r hr reference hobserved htxid
  exact ⟨hr',fun _ hpending => acceptedCommit_of_carries hdistinct' hr hr' htxid hpending⟩

/-- A store that holds the observations and nothing else. -/
def observedCommits : CommitStore (Bytes32 → Option CommitRef) where
  observation s c := .ok (s c)
  recordWalletCommit c reference s := .ok fun c' => if c' = c then some reference else s c'
  resetForReplay _ := .ok fun _ => none
  rollbackToHeightOrReset height s :=
    .ok fun c => (s c).filter fun reference => decide (reference.height ≤ height)

theorem observedCommits_lawful : observedCommits.Lawful where
  record := by
    intro c reference s s' h c'
    cases h
    show Except.ok (if c' = c then some reference else s c') = _
    split <;> rfl
  reset := by
    intro s s' h c reference hobserved
    cases h
    cases hobserved
  rollback := by
    intro height s s' h c reference hobserved
    cases h
    have hfilter := Except.ok.inj hobserved
    exact congrArg Except.ok (Option.filter_eq_some_iff.mp hfilter).1

def thousandBlockEpochs : NamesParameters where
  activationHeight := 100
  commitMaturityBlocks := 2
  commitTtlBlocks := 100
  cooldownBlocks := 50
  epoch height := .ok (height / 1000)
  window _ epoch := .ok ⟨1000 * epoch,1000 * epoch + 1000⟩
  acceptsCommit _ _ := true

def broadcastCommit : StoredRegistration where
  accountUuid := ['a']
  name := ['n']
  ua := ['u']
  commitment := 5
  targetEpoch := 0
  targetRevealHeight := 150
  sendFlowId := some ['f']
  bondTxid := none
  bondOutputIndex := none
  commitHeight := none
  commitTxIndex := none
  phase := .commitBroadcast
  commitTxid := some 7
  revealTxid := none

def beforeCommit : SyncState (Bytes32 → Option CommitRef) where
  transactional _ := none
  sidecar := ⟨⟨[broadcastCommit],by simp⟩,[]⟩

/-- The first observation of a COMMIT survives a stop. -/
theorem firstObservation_survivesStop :
    ∃ s stored, ∃ r ∈ stored.registrations.rows,
      SyncStep.apply observedCommits thousandBlockEpochs (.interrupted [(5,⟨110,2,7⟩)] false)
        beforeCommit = .ok s ∧
      loadForSync (observedCommits.observation s.transactional) s.sidecar = .ok stored ∧
      Carries r ⟨110,2,7⟩ := by
  have hguard : KeepsReferences (.interrupted [(5,⟨110,2,7⟩)] false) beforeCommit := by
    intro r hr reference _ _
    rw [List.mem_singleton.mp hr]
    exact .inl rfl
  have hstart : ∀ r ∈ beforeCommit.sidecar.registrations.rows,
      Repairable (observedCommits.observation beforeCommit.transactional) r := by
    intro r _ reference hobserved
    cases hobserved
  have hdistinct : DistinctCommitments beforeCommit.sidecar.registrations :=
    List.nodup_singleton _
  have hrun : GuardedRuns (SyncStep.apply observedCommits thousandBlockEpochs) KeepsReferences
      beforeCommit ⟨_,beforeCommit.sidecar⟩ := .tail _ (.refl _) hguard rfl
  exact ⟨_,_,_,List.mem_cons_self,rfl,rfl,(loadedCommit_followsObservation observedCommits_lawful
    hdistinct hstart hrun rfl List.mem_cons_self rfl rfl).1⟩

/-- A COMMIT is mined at height 110 and rolled back; it is mined again at 112 by a batch whose
sidecar write is lost. The registration keeps height 110. -/
theorem reminedCommit_keepsOldHeight :
    ¬ ∀ s stored,
      Runs (SyncStep.apply observedCommits thousandBlockEpochs) beforeCommit s →
      loadForSync (observedCommits.observation s.transactional) s.sidecar = .ok stored →
      ∀ r ∈ stored.registrations.rows, ∀ reference,
        observedCommits.observation s.transactional r.commitment = .ok (some reference) →
        r.commitTxid = some reference.txid → Carries r reference := by
  intro hclaim
  have hexecute : execute (SyncStep.apply observedCommits thousandBlockEpochs)
      [.scan 110 [(5,⟨110,2,7⟩)],.rollback 105,.interrupted [(5,⟨112,1,7⟩)] false] beforeCommit =
        .ok _ := rfl
  have hcarries := hclaim _ _ (runs_of_execute hexecute) rfl _ List.mem_cons_self ⟨112,1,7⟩ rfl rfl
  cases hcarries.1

end CoppiceWallet.Names
