import CoppiceWallet.Names.BondLocks

/-! # The txids of broadcasts under interleaving -/

namespace CoppiceWallet.Names

open CoppiceWallet.Lib CoppiceWallet.Store

variable {W Seed : Type} {env : LifecycleEnv W Seed}

inductive BroadcastKind
  | commit
  | reveal

def StoredRegistration.txid (r : StoredRegistration) : BroadcastKind → Option Bytes32
  | .commit => r.commitTxid
  | .reveal => r.revealTxid

/-- The phases before the COMMIT is broadcast. -/
def RegistrationPhase.unbroadcast (phase : RegistrationPhase) : Bool :=
  decide (phase = .awaitingBond) || decide (phase = .bondReserved) ||
    decide (phase = .commitProposed)

def StoredRegistration.recorded (r : StoredRegistration) (kind : BroadcastKind) (txid : Bytes32) :
    Prop :=
  r.txid kind = some txid ∧ r.phase.unbroadcast = false

/-- The registration has the txid, in a phase after the broadcast. -/
def Recorded (kind : BroadcastKind) (key : Text × Text) (txid : Bytes32) (s : NamesState W) : Prop :=
  s.sidecar.registrations.Holds key fun r => r.recorded kind txid

abbrev NamesPool (W : Type) := Pool (NamesState W) (NamesAction W) String Unit

def namesPool (env : LifecycleEnv W Seed) (operations : List (NamesOperation W Seed))
    (s : NamesState W) : NamesPool W :=
  ⟨s,operations.map (NamesOperation.program env)⟩

/-- Only the lock of the wallet database makes a thread wait. -/
def waits (action : NamesAction W) (s : NamesState W) : Bool :=
  match action with
  | .lockWallet => s.walletLocked
  | _ => false

/-- The action records the txid in the registration. -/
def Records (kind : BroadcastKind) (key : Text × Text) (txid : Bytes32) (s : NamesState W)
    (action : NamesAction W) : Prop :=
  match kind,action with
  | .commit,.recordCommitBroadcast sendFlowId newTxid =>
    newTxid = txid ∧ ∃ r, s.sidecar.registrations.find?
      (fun r => decide (r.sendFlowId = some sendFlowId)) = some r ∧ r.key = key
  | .reveal,.recordRevealBroadcast accountUuid name newTxid =>
    newTxid = txid ∧ (accountUuid,name) = key ∧ (registration s.sidecar accountUuid name).isSome
  | _,_ => False

/-- No other txid takes the place of one that is recorded. -/
def KeepsTxid (kind : BroadcastKind) (key : Text × Text) (s : NamesState W)
    (action : NamesAction W) : Prop :=
  match kind,action with
  | kind,.replaceRegistration r =>
    r.key = key → ∀ x ∈ s.sidecar.registrations.rows, x.key = key → x.txid kind = none
  | _,.takeRegistrationWorkflow accountUuid name => (accountUuid,name) ≠ key
  | .commit,.recordCommitBroadcast sendFlowId newTxid =>
    ∀ x ∈ s.sidecar.registrations.rows, x.key = key → x.sendFlowId = some sendFlowId →
      ∀ txid, x.commitTxid = some txid → newTxid = txid
  | .reveal,.recordRevealBroadcast accountUuid name newTxid =>
    ∀ x ∈ s.sidecar.registrations.rows, x.key = key → (accountUuid,name) = key →
      ∀ txid, x.revealTxid = some txid → newTxid = txid
  | .commit,.persistAfterScan _ accepted =>
    ∀ entry ∈ accepted, ∀ x ∈ s.sidecar.registrations.rows, x.key = key →
      x.commitment = entry.1 → ∀ txid, x.commitTxid = some txid → entry.2.txid = txid
  | _,_ => True

section
variable {kind : BroadcastKind} {key : Text × Text} {txid : Bytes32} {s t : NamesState W}
  {action : NamesAction W}

theorem perform_records (hrecords : Records kind key txid s action) :
    ∃ t, env.perform action s = .ok t ∧ Recorded kind key txid t := by
  cases kind with
  | commit =>
    cases action with
    | recordCommitBroadcast sendFlowId newTxid =>
      obtain ⟨rfl,r,hr,hkey⟩ := hrecords
      have hget := Table.get_eq_some.mpr ⟨(Table.find?_eq_some hr).1,hkey⟩
      have hkey' : (r.withCommitBroadcast newTxid).key = key := hkey
      refine ⟨_,by rw [LifecycleEnv.perform,NamesState.onSidecar,recordCommitBroadcast,hr]; rfl,
        r.withCommitBroadcast newTxid,?_,rfl,rfl⟩
      rw [Table.get_overwrite,if_pos hkey',hget,Option.map_some]
    | _ => exact hrecords.elim
  | reveal =>
    cases action with
    | recordRevealBroadcast accountUuid name newTxid =>
      obtain ⟨rfl,rfl,hr⟩ := hrecords
      obtain ⟨r,hget⟩ := Option.isSome_iff_exists.mp hr
      rw [registration] at hget
      have hkey : (r.withRevealBroadcast newTxid).key = (accountUuid,name) :=
        (Table.get_eq_some.mp hget).2
      refine ⟨_,by rw [LifecycleEnv.perform,NamesState.onSidecar,recordRevealBroadcast,hget]; rfl,
        r.withRevealBroadcast newTxid,?_,rfl,rfl⟩
      rw [Table.get_overwrite,if_pos hkey,hget,Option.map_some]
    | _ => exact hrecords.elim

theorem unbroadcast_afterScan {parameters : NamesParameters} {tipHeight : Nat}
    {r : StoredRegistration} {phase : RegistrationPhase} (hr : r.phase.unbroadcast = false)
    (h : phaseAfterScan parameters tipHeight r = .ok phase) : phase.unbroadcast = false := by
  rcases phaseAfterScan_cases h with rfl | rfl | rfl
  · exact hr
  · rfl
  · rfl

theorem recorded_withAcceptedCommit {r : StoredRegistration} {reference : CommitRef}
    (hr : r.recorded kind txid) (hreference : kind = .commit → reference.txid = txid) :
    (r.withAcceptedCommit reference).recorded kind txid := by
  refine ⟨?_,?_⟩
  · cases kind with
    | commit => exact congrArg some (hreference rfl)
    | reveal => exact hr.1
  · show (if r.revealTxid.isNone then RegistrationPhase.commitAccepted else r.phase).unbroadcast =
      false
    split
    · rfl
    · exact hr.2

theorem perform_recorded (h : env.perform action s = .ok t) (hs : Recorded kind key txid s)
    (hkeeps : KeepsTxid kind key s action) : Recorded kind key txid t := by
  obtain ⟨x,hx,hrecorded⟩ := hs
  obtain ⟨hmem,hkey⟩ := Table.get_eq_some.mp hx
  -- no write that is allowed changes the commitment, by which a scan finds the registration
  have hholds : t.sidecar.registrations.Holds key fun r =>
      r.recorded kind txid ∧ r.commitment = x.commitment := by
    refine perform_holds h ⟨x,hx,hrecorded,rfl⟩ ?_
    cases action with
    | replaceRegistration r =>
      intro hr
      have hnone : x.txid kind = none := by cases kind <;> exact hkeeps hr x hmem hkey
      rw [hrecorded.1] at hnone
      cases hnone
    | takeCancelledRegistration sendFlowId =>
      intro r hr hproposed
      have hphase := hr.1.2
      rw [hproposed] at hphase
      cases hphase
    | takeRegistrationWorkflow accountUuid name => cases kind <;> exact hkeeps
    | recordCommitBroadcast sendFlowId newTxid =>
      intro r hr hrkey hflow
      rw [s.sidecar.registrations.eq_of_key hr hmem (hrkey.trans hkey.symm)] at hflow ⊢
      cases kind with
      | commit => exact ⟨⟨congrArg some (hkeeps x hmem hkey hflow txid hrecorded.1),rfl⟩,rfl⟩
      | reveal => exact ⟨⟨hrecorded.1,rfl⟩,rfl⟩
    | recordRevealBroadcast accountUuid name newTxid =>
      intro r hr hrkey hname
      rw [s.sidecar.registrations.eq_of_key hr hmem (hrkey.trans hkey.symm)]
      cases kind with
      | commit => exact ⟨⟨hrecorded.1,rfl⟩,rfl⟩
      | reveal => exact ⟨⟨congrArg some (hkeeps x hmem hkey hname txid hrecorded.1),rfl⟩,rfl⟩
    | persistAfterScan tipHeight accepted =>
      refine ⟨fun entry hentry r _ hcommitment hr => ⟨?_,hr.2⟩,fun r phase _ hr hafter => ?_⟩
      · refine recorded_withAcceptedCommit hr.1 fun hkind => ?_
        subst hkind
        exact hkeeps entry hentry x hmem hkey (hr.2.symm.trans hcommitment) txid hrecorded.1
      · refine ⟨⟨?_,unbroadcast_afterScan hr.1.2 hafter⟩,hr.2⟩
        cases kind <;> exact hr.1.1
    | _ => trivial
  obtain ⟨r,hr,hrecorded,_⟩ := hholds
  exact ⟨r,hr,hrecorded⟩

end

/-- A txid that a thread has recorded stays, however the sections of the threads interleave. -/
theorem recordedTxid_stays {kind : BroadcastKind} {key : Text × Text} {txid : Bytes32}
    {thread : Nat} {action : NamesAction W} {next : NamesState W → NamesProgram W Unit}
    {pool recorded final : NamesPool W}
    (hthread : pool.threads[thread]? = some (.atomic (some action) next))
    (hrecords : Records kind key txid pool.state action)
    (hstep : Pool.advance env.perform waits thread pool = .ok recorded)
    (hrun : GuardedRuns (Pool.advance env.perform waits)
      (Pool.Guard fun action s => KeepsTxid kind key s action) recorded final) :
    Recorded kind key txid final.state := by
  refine Pool.invariant (fun _ _ _ hs hkeeps h => perform_recorded h hs hkeeps) hrun ?_
  obtain ⟨_,_,hthread',rfl⟩ := Pool.advance_ok hstep
  rw [hthread] at hthread'
  cases hthread'
  obtain ⟨t,ht,hrecorded⟩ :
      ∃ t, env.perform action pool.state = .ok t ∧ Recorded kind key txid t :=
    perform_records hrecords
  rw [Program.after_ok ht]
  exact hrecorded

def draftedName : NamesState (OutputRef → Option Bytes32) :=
  ((draftName.program oneNoteEnv).run oneNoteEnv.perform noBonds).2

def beginName (sendFlowId : Text) : NamesOperation (OutputRef → Option Bytes32) Unit :=
  .beginRegistration ['a'] sendFlowId ['n'] ['u'] ()

/-- A second proposal runs beside the first one and its broadcast. -/
def twoProposals : NamesPool (OutputRef → Option Bytes32) :=
  namesPool oneNoteEnv [beginName ['1'],beginName ['2'],.recordCommitBroadcast ['1'] 7] draftedName

/-- A scan that finds the COMMIT runs beside its proposal and its broadcast. -/
def proposalAndScan : NamesPool (OutputRef → Option Bytes32) :=
  namesPool oneNoteEnv [beginName ['1'],.recordCommitBroadcast ['1'] 7,
    .persistAfterScan 165 [(163,⟨164,0,7⟩)]] draftedName

theorem scannedTxid_stays :
    ∃ proposed recorded final,
      execute (Pool.advance oneNoteEnv.perform waits) [0,0,0,0] proposalAndScan = .ok proposed ∧
      Pool.advance oneNoteEnv.perform waits 1 proposed = .ok recorded ∧
      Pool.advance oneNoteEnv.perform waits 2 recorded = .ok final ∧
      Recorded .commit (['a'],['n']) 7 final.state := by
  obtain ⟨next,scan,proposed,recorded,final,hproposed,hthread,hrecords,hrecorded,hscan,hfinal,hrows⟩ :
      ∃ next scan proposed recorded final,
        execute (Pool.advance oneNoteEnv.perform waits) [0,0,0,0] proposalAndScan = .ok proposed ∧
        proposed.threads[1]? = some (.atomic (some (.recordCommitBroadcast ['1'] 7)) next) ∧
        Records .commit (['a'],['n']) 7 proposed.state (.recordCommitBroadcast ['1'] 7) ∧
        Pool.advance oneNoteEnv.perform waits 1 proposed = .ok recorded ∧
        recorded.threads[2]? =
          some (.atomic (some (.persistAfterScan 165 [(163,⟨164,0,7⟩)])) scan) ∧
        Pool.advance oneNoteEnv.perform waits 2 recorded = .ok final ∧
        recorded.state.sidecar.registrations.rows.map (·.commitTxid) = [some 7] :=
    ⟨_,_,_,_,_,rfl,rfl,⟨rfl,_,rfl,rfl⟩,rfl,rfl,rfl,rfl⟩
  refine ⟨proposed,recorded,final,hproposed,hrecorded,hfinal,
    recordedTxid_stays hthread hrecords hrecorded (.tail 2 (.refl _) ?_ hfinal)⟩
  intro action next' hnext
  rw [hscan] at hnext
  cases hnext
  intro entry hentry x hx _ _ txid htxid
  cases List.mem_singleton.mp hentry
  have hmem := List.mem_map_of_mem (f := (·.commitTxid)) hx
  rw [hrows,htxid,List.mem_singleton] at hmem
  exact (Option.some.inj hmem).symm

/-- The second proposal writes back the registration that it read before the broadcast. -/
theorem staleProposal_losesTxid :
    ¬ ∀ thread next (pool recorded final : NamesPool (OutputRef → Option Bytes32)),
      Runs (Pool.advance oneNoteEnv.perform waits) twoProposals pool →
      pool.threads[thread]? = some (.atomic (some (.recordCommitBroadcast ['1'] 7)) next) →
      Records .commit (['a'],['n']) 7 pool.state (.recordCommitBroadcast ['1'] 7) →
      Pool.advance oneNoteEnv.perform waits thread pool = .ok recorded →
      Runs (Pool.advance oneNoteEnv.perform waits) recorded final →
      Recorded .commit (['a'],['n']) 7 final.state := by
  intro hclaim
  obtain ⟨next,pool,recorded,final,hproposed,hthread,hrecords,hrecorded,hstale,hlost⟩ :
      ∃ next pool recorded final,
        execute (Pool.advance oneNoteEnv.perform waits) [1,1,0,0,0,0] twoProposals = .ok pool ∧
        pool.threads[2]? = some (.atomic (some (.recordCommitBroadcast ['1'] 7)) next) ∧
        Records .commit (['a'],['n']) 7 pool.state (.recordCommitBroadcast ['1'] 7) ∧
        Pool.advance oneNoteEnv.perform waits 2 pool = .ok recorded ∧
        execute (Pool.advance oneNoteEnv.perform waits) [1,1] recorded = .ok final ∧
        (registration final.state.sidecar ['a'] ['n']).map (·.commitTxid) = some none :=
    ⟨_,_,_,_,rfl,rfl,⟨rfl,_,rfl,rfl⟩,rfl,rfl,rfl⟩
  obtain ⟨r,hr,htxid,_⟩ := hclaim 2 next pool recorded final (runs_of_execute hproposed) hthread
    hrecords hrecorded (runs_of_execute hstale)
  rw [registration,hr] at hlost
  cases htxid.symm.trans (Option.some.inj hlost)

end CoppiceWallet.Names
