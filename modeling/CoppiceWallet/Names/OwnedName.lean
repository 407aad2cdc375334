import CoppiceWallet.Names.CommitReference
import CoppiceWallet.Names.Rows

/-! # Owned names stay managed -/

namespace CoppiceWallet.Names

open CoppiceWallet.Lib CoppiceWallet.Store

variable {W Seed : Type} {env : LifecycleEnv W Seed} {key : Text × Text}

def RegistrationPhase.removable (phase : RegistrationPhase) : Bool :=
  phase.discardable || decide (phase = .commitProposed)

variable {phase : RegistrationPhase}

theorem removable_of_discardable (h : phase.discardable = true) : phase.removable = true := by
  simp [RegistrationPhase.removable,h]

variable {r : StoredRegistration}

theorem removable_of_needsBond (h : r.needsBond = true) : r.phase.removable = true := by
  refine removable_of_discardable ?_
  simp only [StoredRegistration.needsBond,Bool.or_eq_true,decide_eq_true_eq] at h
  rcases h with h | h <;> rw [h] <;> rfl

/-- The registration is there, in a phase in which nothing removes it. -/
abbrev ManagedRow (key : Text × Text) (registrations : Registrations) : Prop :=
  registrations.Holds key fun r => r.phase.removable = false

def Managed (key : Text × Text) (s : NamesState W) : Prop := ManagedRow key s.sidecar.registrations

theorem recordRevealBroadcast_manages {accountUuid name : Text} {txid : Bytes32}
    {stored stored' : StoredNamesWallet}
    (h : recordRevealBroadcast accountUuid name txid stored = .ok stored') :
    ManagedRow (accountUuid,name) stored'.registrations := by
  obtain ⟨r,hr,h⟩ := bind_ok h
  cases h
  have hget := okOr_ok hr
  have hkey : (r.withRevealBroadcast txid).key = (accountUuid,name) :=
    (Table.get_eq_some.mp hget).2
  exact ⟨_,by rw [Table.get_overwrite,if_pos hkey,hget,Option.map_some],rfl⟩

/-- The scan finds the registration revealed, or within its COMMIT and its window. -/
def ScanKeeps (parameters : NamesParameters) (tipHeight : Nat)
    (accepted : List (Bytes32 × CommitRef)) (key : Text × Text) (stored : StoredNamesWallet) :
    Prop :=
  ∀ r, (accepted.foldl recordAcceptedCommit stored.registrations).get key = some r →
    r.revealTxid.isSome = true ∨
      commitExpired parameters tipHeight r = false ∧
        ∀ window, parameters.window r.name r.targetEpoch = .ok window →
          saturatingAddU32 tipHeight 1 < window.stop

theorem phaseAfterScan_kept {parameters : NamesParameters} {tipHeight : Nat}
    (hkeeps : r.revealTxid.isSome = true ∨
      commitExpired parameters tipHeight r = false ∧
        ∀ window, parameters.window r.name r.targetEpoch = .ok window →
          saturatingAddU32 tipHeight 1 < window.stop)
    (h : phaseAfterScan parameters tipHeight r = .ok phase) : phase = r.phase := by
  unfold phaseAfterScan at h
  by_cases hreveal : r.revealTxid.isSome = true
  · rw [if_pos hreveal] at h
    exact (Except.ok.inj h).symm
  · obtain ⟨hexpired,hwindow⟩ := hkeeps.resolve_left hreveal
    rw [if_neg hreveal,if_neg (by simp [hexpired])] at h
    obtain ⟨window,hok,h⟩ := bind_ok h
    rw [if_neg (Nat.not_le.mpr (hwindow window hok))] at h
    exact (Except.ok.inj h).symm

/-- The condition on an action under which it keeps the registration managed. -/
def KeepsManaged (env : LifecycleEnv W Seed) (key : Text × Text) (s : NamesState W) :
    NamesAction W → Prop
  | .replaceRegistration r => r.key ≠ key
  | .takeRegistrationWorkflow accountUuid name => (accountUuid,name) ≠ key
  | .persistAfterScan tipHeight accepted =>
    ScanKeeps env.parameters tipHeight accepted key s.sidecar
  | _ => True

variable {s : NamesState W}

theorem perform_managed {action : NamesAction W} {t : NamesState W}
    (h : env.perform action s = .ok t) (hs : Managed key s)
    (hkeeps : KeepsManaged env key s action) : Managed key t := by
  refine perform_holds h hs ?_
  cases action with
  | replaceRegistration r => exact fun hkey => absurd hkey hkeeps
  | takeCancelledRegistration sendFlowId =>
    intro r hphase hproposed
    rw [hproposed] at hphase
    cases hphase
  | takeRegistrationWorkflow accountUuid name => exact hkeeps
  | recordCommitBroadcast | recordRevealBroadcast => exact fun _ _ _ _ => rfl
  | persistAfterScan tipHeight accepted =>
    refine ⟨fun entry _ r _ _ hphase => ?_,fun r phase hr hphase hafter => ?_⟩
    · show (if r.revealTxid.isNone then RegistrationPhase.commitAccepted else r.phase).removable =
        false
      split
      · rfl
      · exact hphase
    · show phase.removable = false
      rw [phaseAfterScan_kept (hkeeps r hr) hafter]
      exact hphase
  | _ => trivial

/-- A program that keeps the registration managed, however it ends. -/
abbrev KeepsProgram (env : LifecycleEnv W Seed) (key : Text × Text) {α : Type}
    (p : NamesProgram W α) (post : α → Prop) : Prop :=
  Program.Triple env.perform (Managed key) p (fun a s => Managed key s ∧ post a) (Managed key)

theorem keeps_act {action : NamesAction W} (hkeeps : ∀ s, KeepsManaged env key s action) :
    KeepsProgram env key (env.act action) fun _ => True :=
  Program.triple_perform (fun s _ hs h => ⟨perform_managed h hs (hkeeps s),trivial⟩)
    fun _ hs => hs

theorem keeps_ofResult {α : Type} (result : StoreResult α) :
    KeepsProgram env key (NamesProgram.ofResult result) fun a => result = .ok a :=
  triple_ofResult result fun _ hs => hs

theorem keeps_fail {α : Type} {post : α → Prop} (e : String) :
    KeepsProgram env key (NamesProgram.fail e) post :=
  triple_fail e fun _ hs => hs

theorem keeps_pure {α : Type} {post : α → Prop} {a : α} (h : post a) :
    KeepsProgram env key (pure a) post :=
  Program.triple_pure fun _ hs => ⟨hs,h⟩

theorem keeps_ofWallet {α : Type} (f : W → StoreResult α) :
    KeepsProgram env key (NamesProgram.ofWallet f) fun _ => True :=
  Program.triple_look (fun _ _ hs _ => ⟨hs,trivial⟩) fun _ hs => hs

theorem keeps_stored : KeepsProgram env key NamesProgram.stored
    fun stored => ManagedRow key stored.registrations :=
  Program.triple_look (fun _ _ hs h => ⟨hs,Except.ok.inj h ▸ hs⟩) fun _ hs => hs

theorem KeepsProgram.bind {α β : Type} {p : NamesProgram W α} {f : α → NamesProgram W β}
    {post : α → Prop} {post' : β → Prop} (hp : KeepsProgram env key p post)
    (hf : ∀ a, post a → KeepsProgram env key (f a) post') :
    KeepsProgram env key (p >>= f) post' :=
  Program.Triple.bind hp fun a s hs => hf a hs.2 s hs.1

theorem KeepsProgram.withLock {p : NamesProgram W Unit}
    (hp : KeepsProgram env key p fun _ => True) :
    KeepsProgram env key (withWalletDbWriteLock env p) fun _ => True := by
  refine KeepsProgram.bind (keeps_act fun _ => trivial) fun _ _ => hp.ensuring ?_ ?_
  · intro _ s t hs h
    cases h
    exact hs
  · intro s t hs h
    cases h
    exact hs

theorem keeps_reserveBond {targetHeight : Nat} (hr : r.needsBond = true → r.key ≠ key) :
    KeepsProgram env key (reserveBond env targetHeight r) fun _ => True := by
  unfold reserveBond
  split
  · refine KeepsProgram.bind (keeps_ofWallet _) fun selected _ => ?_
    split
    · exact keeps_pure trivial
    · refine KeepsProgram.bind (keeps_ofResult _) fun window _ => ?_
      refine KeepsProgram.bind (keeps_act fun _ => trivial) fun _ _ => ?_
      exact keeps_act fun _ => hr ‹_›
  · exact keeps_pure trivial

theorem keeps_reserveBonds {targetHeight : Nat} {registrations : List StoredRegistration}
    (h : ∀ r ∈ registrations, r.needsBond = true → r.key ≠ key) :
    KeepsProgram env key (reserveBonds env targetHeight registrations) fun _ => True := by
  induction registrations with
  | nil => exact keeps_pure trivial
  | cons r registrations ih =>
    refine KeepsProgram.bind (keeps_reserveBond (h r List.mem_cons_self)) fun _ _ => ?_
    exact ih fun s hs => h s (List.mem_cons_of_mem _ hs)

theorem keeps_reservePendingBonds :
    KeepsProgram env key (reservePendingBonds env) fun _ => True := by
  refine KeepsProgram.withLock (KeepsProgram.bind keeps_stored fun stored hstored => ?_)
  refine KeepsProgram.bind (keeps_ofWallet _) fun targetHeight _ => ?_
  refine keeps_reserveBonds fun r hr hneeds hkey => ?_
  have hkept := hstored.of_mem hr hkey
  rw [removable_of_needsBond hneeds] at hkept
  cases hkept

theorem keeps_draftRegistration (accountUuid name : Text) (missing : String) :
    KeepsProgram env key (draftRegistration accountUuid name missing)
      fun r => r.phase.removable = true → r.key ≠ key := by
  refine (draftRegistration_spec accountUuid name missing fun _ hs => hs).mono (fun _ hs => hs)
    (fun r s hs => ⟨hs.1,fun hphase hkey => ?_⟩) fun _ hs => hs
  have hkept := hs.1.of_mem (Table.get_eq_some.mp hs.2).1 hkey
  rw [hphase] at hkept
  cases hkept

theorem keeps_retargetDraft (accountUuid name : Text) (seed : Seed) (nextHeight : Nat) :
    KeepsProgram env key (retargetDraft env accountUuid name seed nextHeight) fun _ => True := by
  refine KeepsProgram.bind (keeps_draftRegistration _ _ _) fun r hr => ?_
  split
  · rename_i hphase
    refine KeepsProgram.bind (keeps_ofResult _) fun delayedCommitHeight _ => ?_
    refine KeepsProgram.bind (keeps_ofResult _) fun target _ => ?_
    refine KeepsProgram.bind (keeps_ofResult _) fun prepared _ => ?_
    exact keeps_act fun _ => hr (by rw [hphase]; rfl)
  · exact keeps_pure trivial

/-- The name of the draft is not missing on the chain, if it is the one that is owned. -/
def DraftAllowed (env : LifecycleEnv W Seed) (key : Text × Text) (accountUuid name : Text)
    (s : NamesState W) : Prop :=
  ∀ canonical, env.canonicalRegistrationName name = .ok canonical →
    (accountUuid,canonical) = key → ∀ resolution,
      env.acceptedManagedResolution canonical s.wallet = .ok (some resolution) →
        resolution.lifecycle ≠ .missing

theorem storeRegistrationDraft_keeps (accountUuid name paymentAddress : Text) (seed : Seed) :
    Program.Triple env.perform
      (fun s => Managed key s ∧ DraftAllowed env key accountUuid name s)
      (storeRegistrationDraft env accountUuid name paymentAddress seed)
      (fun _ s => Managed key s ∧ True) (Managed key) := by
  intro s hs
  obtain ⟨hmanaged,hallowed⟩ := hs
  have hspec := storeRegistrationDraft_spec env accountUuid name paymentAddress seed s s rfl
  cases hrun : (storeRegistrationDraft env accountUuid name paymentAddress seed).run env.perform s with
  | mk result t =>
    rw [hrun] at hspec
    cases result with
    | error e =>
      cases hspec
      exact hmanaged
    | ok drafted =>
      obtain ⟨draft,hdraft⟩ := hspec
      obtain ⟨sidecar,rfl,hstored | ⟨hreplaced,resolution,haccepted,hmissing⟩⟩ := hdraft.stored
      · exact ⟨storeRegistration_holds hstored hmanaged,trivial⟩
      · refine ⟨replaceRegistration_holds hreplaced hmanaged fun hkey => ?_,trivial⟩
        exact absurd hmissing (hallowed _ hdraft.named (hdraft.key.symm.trans hkey) resolution
          haccepted)

theorem prepareRegistrationDraft_keeps (accountUuid name paymentAddress : Text) (seed : Seed) :
    Program.Triple env.perform
      (fun s => Managed key s ∧ DraftAllowed env key accountUuid name s)
      (prepareRegistrationDraft env accountUuid name paymentAddress seed)
      (fun _ s => Managed key s ∧ True) (Managed key) :=
  (storeRegistrationDraft_keeps accountUuid name paymentAddress seed).bind fun _ =>
    (keeps_reservePendingBonds.bind fun _ _ => keeps_retargetDraft _ _ _ _).mono
      (fun _ hs => hs.1) (fun _ _ hs => hs) fun _ hs => hs

theorem keeps_missRegistration (hr : r.key ≠ key) (phase : RegistrationPhase) (e : String) :
    KeepsProgram env key (missRegistration env r phase e) fun _ => True :=
  KeepsProgram.bind (keeps_act fun _ => hr) fun _ _ => keeps_fail e

theorem keeps_commitWithinWindow (hr : r.key ≠ key) (accountUuid sendFlowId name : Text)
    (seed : Seed) (commitHeight : Nat) : KeepsProgram env key
      (commitWithinWindow env accountUuid sendFlowId name seed r commitHeight) fun _ => True := by
  refine KeepsProgram.bind (keeps_ofResult _) fun window _ => ?_
  split
  · exact keeps_missRegistration hr _ _
  · split
    · exact keeps_fail _
    · split
      · refine KeepsProgram.bind (keeps_ofResult _) fun prepared _ => ?_
        split
        · exact keeps_fail _
        · exact KeepsProgram.bind (keeps_act fun _ => trivial) fun _ _ => keeps_act fun _ => hr
      · split
        · exact keeps_fail _
        · exact keeps_missRegistration hr _ _

theorem keeps_reservedDraft (accountUuid name : Text) :
    KeepsProgram env key (reservedDraft env accountUuid name)
      fun r => r.phase.removable = true → r.key ≠ key := by
  refine KeepsProgram.bind (keeps_draftRegistration _ _ _) fun r hr => ?_
  split
  · exact KeepsProgram.bind keeps_reservePendingBonds fun _ _ => keeps_draftRegistration _ _ _
  · exact keeps_pure hr

theorem keeps_beginRegistration (accountUuid sendFlowId name paymentAddress : Text)
    (seed : Seed) :
    KeepsProgram env key
      (beginRegistration env accountUuid sendFlowId name paymentAddress seed) fun _ => True := by
  refine KeepsProgram.bind (keeps_ofWallet _) fun tipHeight _ => ?_
  refine KeepsProgram.bind (keeps_ofResult _) fun canonical _ => ?_
  refine KeepsProgram.bind (keeps_reservedDraft _ _) fun r hr => ?_
  split
  · exact keeps_fail _
  · rename_i hphase
    have hkey : r.key ≠ key := hr (by rw [not_not.mp hphase]; rfl)
    refine KeepsProgram.bind (keeps_ofResult _) fun ua _ => ?_
    split
    · exact keeps_fail _
    · refine KeepsProgram.bind (keeps_ofResult _) fun commitHeight _ => ?_
      exact keeps_commitWithinWindow hkey _ _ _ _ _

theorem keeps_cancelRegistrationProposal (sendFlowId : Text) :
    KeepsProgram env key (cancelRegistrationProposal env sendFlowId) fun _ => True := by
  have htake : KeepsProgram env key (takeCancelled sendFlowId) fun _ => True :=
    fun s hs => ⟨Program.after_invariant (fun _ h => perform_managed h hs trivial) hs,trivial⟩
  refine KeepsProgram.bind htake fun removed _ => ?_
  split
  · exact keeps_pure trivial
  · split
    · exact keeps_pure trivial
    · exact KeepsProgram.withLock (keeps_act fun _ => trivial)

theorem keeps_discardRegistrationWorkflow (accountUuid name : Text) :
    KeepsProgram env key (discardRegistrationWorkflow env accountUuid name) fun _ => True := by
  refine KeepsProgram.bind (keeps_ofResult _) fun canonical _ => ?_
  refine KeepsProgram.bind keeps_stored fun stored hstored => ?_
  split
  · exact keeps_pure trivial
  · rename_i r hr
    split
    · exact keeps_fail _
    · rename_i hphase
      obtain ⟨hmem,hrkey⟩ := Table.get_eq_some.mp hr
      have hkey : (accountUuid,canonical) ≠ key := by
        intro hkey
        have hkept := hstored.of_mem hmem (hrkey.trans hkey)
        rw [removable_of_discardable (by simpa using hphase)] at hkept
        cases hkept
      have htake : KeepsProgram env key (takeWorkflow accountUuid canonical) fun _ => True :=
        fun s hs => ⟨Program.after_invariant (fun _ h => perform_managed h hs hkey) hs,trivial⟩
      refine KeepsProgram.bind htake fun taken _ => ?_
      refine KeepsProgram.bind (keeps_ofResult _) fun removed _ => ?_
      split
      · exact keeps_pure trivial
      · refine KeepsProgram.withLock ?_
        exact fun s hs =>
          ⟨Program.after_invariant (fun _ h => perform_managed h hs trivial) hs,trivial⟩

theorem keeps_recoverRegistration (accountUuid name : Text) (seed : Seed) :
    KeepsProgram env key (recoverRegistration env accountUuid name seed) fun _ => True := by
  refine KeepsProgram.bind (keeps_ofResult _) fun canonical _ => ?_
  refine KeepsProgram.bind keeps_stored fun stored _ => ?_
  split
  · exact keeps_fail _
  · refine KeepsProgram.bind (keeps_ofWallet _) fun _ _ => ?_
    refine KeepsProgram.bind (keeps_act fun _ => trivial) fun _ _ => ?_
    refine KeepsProgram.bind (keeps_ofWallet _) fun found _ => ?_
    refine KeepsProgram.bind (keeps_ofResult _) fun recovered _ => ?_
    split
    · exact keeps_fail _
    · exact KeepsProgram.bind (keeps_act fun _ => trivial) fun _ _ => keeps_act fun _ => trivial

theorem KeepsProgram.last {p : NamesProgram W Unit} (hp : KeepsProgram env key p fun _ => True)
    (hs : Managed key s) : Managed key (p.run env.perform s).2 :=
  (Program.Triple.mono hp (fun _ hs => hs) (fun _ _ hs => hs.1) fun _ hs => hs).last hs

/-- The condition on an operation under which an owned name stays managed. -/
def KeepsOwned (env : LifecycleEnv W Seed) (key : Text × Text)
    (operation : NamesOperation W Seed) (s : NamesState W) : Prop :=
  match operation with
  | .prepareRegistrationDraft accountUuid name _ _ => DraftAllowed env key accountUuid name s
  | .persistAfterScan tipHeight accepted =>
    ScanKeeps env.parameters tipHeight accepted key s.sidecar
  | _ => True

theorem NamesOperation.apply_managed {operation : NamesOperation W Seed} {t : NamesState W}
    (h : operation.apply env s = .ok t) (hs : Managed key s)
    (hkeeps : KeepsOwned env key operation s) : Managed key t := by
  cases h
  cases operation with
  | prepareRegistrationDraft accountUuid name paymentAddress seed =>
    exact ((prepareRegistrationDraft_keeps accountUuid name paymentAddress seed).mono
      (fun _ hs => hs) (fun _ _ hs => hs.1) fun _ hs => hs).last ⟨hs,hkeeps⟩
  | reservePendingBonds => exact keeps_reservePendingBonds.last hs
  | beginRegistration => exact (keeps_beginRegistration _ _ _ _ _).last hs
  | cancelRegistrationProposal => exact (keeps_cancelRegistrationProposal _).last hs
  | discardRegistrationWorkflow => exact (keeps_discardRegistrationWorkflow _ _).last hs
  | recoverRegistration => exact (keeps_recoverRegistration _ _ _).last hs
  | recordCommitBroadcast sendFlowId txid =>
    exact KeepsProgram.last (p := env.act (.recordCommitBroadcast sendFlowId txid))
      (keeps_act fun _ => trivial) hs
  | recordRevealBroadcast accountUuid name txid =>
    exact KeepsProgram.last (p := env.act (.recordRevealBroadcast accountUuid name txid))
      (keeps_act fun _ => trivial) hs
  | environment wallet =>
    exact KeepsProgram.last (p := env.act (.environment wallet)) (keeps_act fun _ => trivial) hs
  | persistAfterScan tipHeight accepted =>
    exact Program.after_invariant (fun _ h => perform_managed h hs hkeeps) hs

/-- The operations that make the account manage an owned name. -/
def NamesOperation.Attaches (env : LifecycleEnv W Seed) (key : Text × Text) :
    NamesOperation W Seed → Prop
  | .recordRevealBroadcast accountUuid name _ => (accountUuid,name) = key
  | .recoverRegistration accountUuid name _ =>
    accountUuid = key.1 ∧ env.canonicalRegistrationName name = .ok key.2
  | _ => False

theorem recoverableHead_phase {resolution : Option ManagedResolution} {head : Head}
    {origin : BondOrigin} {position : Nat}
    (h : recoverableHead resolution = .ok (phase,head,origin,position)) :
    phase.removable = false := by
  obtain ⟨managed,_,h⟩ := bind_ok h
  obtain ⟨found,hfound,h⟩ := bind_ok h
  obtain ⟨_,_,h⟩ := bind_ok h
  obtain ⟨_,_,h⟩ := bind_ok h
  obtain ⟨_,_,h⟩ := bind_ok h
  cases h
  unfold recoveredPhase at hfound
  split at hfound
  · cases hfound
  · cases hfound
    rfl
  · cases hfound
    rfl

theorem storeRecoveredRegistration_manages {stored stored' : StoredNamesWallet}
    (h : storeRecoveredRegistration r stored = .ok stored') (hr : r.phase.removable = false) :
    ManagedRow r.key stored'.registrations := by
  unfold storeRecoveredRegistration at h
  split at h
  · split at h <;> cases h
  · obtain ⟨registrations,hregistrations,h⟩ := bind_ok h
    cases h
    exact ⟨r,by rw [Table.get_insert (okOr_ok hregistrations),if_pos rfl],hr⟩

theorem recoverRegistration_manages (accountUuid : Text) {name canonical : Text} (seed : Seed)
    (hname : env.canonicalRegistrationName name = .ok canonical) :
    Program.Triple env.perform (fun _ => True) (recoverRegistration env accountUuid name seed)
      (fun _ => Managed (accountUuid,canonical)) fun _ => True := by
  refine (triple_ofResult _ fun _ _ => trivial).bind fun found => ?_
  refine Program.triple_assume fun hfound => triple_stored.bind fun stored => ?_
  rw [hname] at hfound
  cases hfound
  split
  · exact triple_fail _ fun _ _ => trivial
  · refine (triple_ofWallet _ fun _ _ => trivial).bind fun _ => ?_
    have hact : ∀ action, Program.Triple env.perform (fun _ => True) (env.act action)
        (fun _ _ => True) fun _ => True :=
      fun _ => Program.triple_perform (fun _ _ _ _ => trivial) fun _ _ => trivial
    have hhead : Program.Triple env.perform (fun _ => True)
        (NamesProgram.ofWallet fun wallet =>
          env.acceptedManagedResolution canonical wallet >>= recoverableHead)
        (fun resolved _ => True ∧ resolved.1.removable = false) fun _ => True := by
      refine Program.triple_look (fun resolved s _ h => ?_) fun _ _ => trivial
      obtain ⟨_,_,h⟩ := bind_ok h
      exact ⟨trivial,recoverableHead_phase h⟩
    refine ((hact _).mono (fun _ _ => trivial) (fun _ _ h => h) fun _ h => h).bind fun _ => ?_
    refine hhead.bind fun resolved => Program.triple_assume fun hphase => ?_
    refine (triple_ofResult _ fun _ _ => trivial).bind fun recovered => ?_
    split
    · exact triple_fail _ fun _ _ => trivial
    · refine ((hact _).mono (fun _ _ => trivial) (fun _ _ h => h) fun _ h => h).bind fun _ => ?_
      refine Program.triple_perform (fun s t _ h => ?_) fun _ _ => trivial
      obtain ⟨sidecar,hsidecar,rfl⟩ := onSidecar_ok h
      exact storeRecoveredRegistration_manages hsidecar hphase

theorem NamesOperation.attaches {operation : NamesOperation W Seed} {t : NamesState W}
    (hattaches : operation.Attaches env key)
    (h : (operation.program env).run env.perform s = (.ok (),t)) : Managed key t := by
  cases operation with
  | recordRevealBroadcast accountUuid name txid =>
    cases hattaches
    obtain ⟨sidecar,hsidecar,rfl⟩ := onSidecar_ok (Program.run_perform_ok h)
    exact recordRevealBroadcast_manages hsidecar
  | recoverRegistration accountUuid name seed =>
    obtain ⟨rfl,hname⟩ := hattaches
    change (Names.recoverRegistration env key.1 name seed).run env.perform s = _ at h
    have ht := recoverRegistration_manages key.1 seed hname s trivial
    rw [h] at ht
    exact ht
  | _ => exact hattaches.elim

/-- The account manages the name, and nothing takes the registration from the table. -/
def StaysManaged (env : LifecycleEnv W Seed) (key : Text × Text) (s : NamesState W) : Prop :=
  ∃ r, registration s.sidecar key.1 key.2 = some r ∧ r.phase.removable = false ∧
    requiresManagedScanning s.sidecar = true ∧
    (∀ name, env.canonicalRegistrationName name = .ok key.2 →
      (discardRegistrationWorkflow env key.1 name).run env.perform s =
        (.error "only an unbroadcast registration workflow can be discarded",s)) ∧
    ∀ sendFlowId,
      registration (takeCancelledRegistration sendFlowId s.sidecar).2 key.1 key.2 = some r

theorem Managed.stays (hs : Managed key s) : StaysManaged env key s := by
  obtain ⟨r,hr,hphase⟩ := hs
  refine ⟨r,hr,hphase,?_,fun name hname => ?_,fun sendFlowId => ?_⟩
  · have hmem := (Table.get_eq_some.mp hr).1
    cases hrows : s.sidecar.registrations.rows with
    | nil =>
      rw [hrows] at hmem
      cases hmem
    | cons x rows => simp [requiresManagedScanning,hrows]
  · have hdiscardable : r.phase.discardable = false := by
      cases h : r.phase.discardable with
      | false => rfl
      | true =>
        rw [removable_of_discardable h] at hphase
        cases hphase
    have hregistration : registration s.sidecar key.1 key.2 = some r := hr
    simp [discardRegistrationWorkflow,Program.run_bind,NamesProgram.ofResult,NamesProgram.stored,
      NamesProgram.fail,hname,hregistration,hdiscardable]
  · obtain ⟨x,hx,rfl⟩ := takeCancelledRegistration_holds (P := fun x => x = r) sendFlowId
      ⟨r,hr,rfl⟩ fun x hxr hproposed => by
        rw [← hxr,hproposed] at hphase
        cases hphase
    exact hx

/-- An account that revealed or recovered a name keeps managing it. -/
theorem ownedName_staysManaged {operation : NamesOperation W Seed}
    {start attached s : NamesState W} (hattaches : operation.Attaches env key)
    (hsucceeds : (operation.program env).run env.perform start = (.ok (),attached))
    (hrun : GuardedRuns (NamesOperation.apply env) (KeepsOwned env key) attached s) :
    StaysManaged env key s :=
  (hrun.invariant (P := Managed key)
    (fun _ _ _ hs hkeeps h => NamesOperation.apply_managed h hs hkeeps)
    (NamesOperation.attaches hattaches hsucceeds)).stays

def activeName : ManagedResolution where
  name := ['n']
  lifecycle := .active
  head := some {
    producer := ⟨150,1,8,0⟩
    producerEpoch := 0
    ua := ['u']
    commitment := 5
    futureNf := 6
    expiryHeight := 3000
    terminalHeight := none }
  markedPosition := some 3
  bondOrigin := some (.reveal ⟨110,2,7⟩ 0 ['u'] 0 4)

/-- The wallet whose seed owns the name. -/
def ownerEnv : LifecycleEnv Unit Unit where
  parameters := thousandBlockEpochs
  canonicalRegistrationName := .ok
  canonicalUa := .ok
  prepareCommit _ _ _ := .ok ⟨0,5⟩
  recoverCurrentBond _ _ _ := .ok (5,6)
  lifecycleTip _ := .ok 160
  acceptedManagedResolution _ _ := .ok (some activeName)
  targetHeight _ := .ok 161
  unspentIronwoodNotes _ _ _ := .ok []
  spendableNote _ _ _ := none
  lockOutputs _ _ _ wallet := .ok wallet
  unlockOutput _ _ wallet := .ok wallet
  proposeSend _ _ wallet := .ok wallet
  recoverableAccount _ _ := .ok ()
  resolveName _ wallet := .ok wallet
  markRecoveredNamesBond _ _ _ wallet := .ok wallet

def noNames : NamesState Unit := ⟨⟨Table.empty,[]⟩,(),false⟩

def recoverName : NamesOperation Unit Unit := .recoverRegistration ['a'] ['n'] ()

def recoveredNames : NamesState Unit :=
  ((recoverName.program ownerEnv).run ownerEnv.perform noNames).2

theorem recoverName_succeeds :
    (recoverName.program ownerEnv).run ownerEnv.perform noNames = (.ok (),recoveredNames) := rfl

theorem recoveredName_staysManaged :
    ∃ s, NamesOperation.apply ownerEnv (.persistAfterScan 160 []) recoveredNames = .ok s ∧
      StaysManaged ownerEnv (['a'],['n']) s := by
  have hattaches : recoverName.Attaches ownerEnv (['a'],['n']) := ⟨rfl,rfl⟩
  have hkeeps : KeepsOwned ownerEnv (['a'],['n']) (.persistAfterScan 160 []) recoveredNames := by
    intro r hr
    cases hr
    refine .inr ⟨rfl,fun window hwindow => ?_⟩
    cases hwindow
    decide
  exact ⟨_,rfl,ownedName_staysManaged hattaches recoverName_succeeds
    (.tail _ (.refl _) hkeeps rfl)⟩

/-- The window of the epoch in which the recovered name was last produced ends at height 1000. -/
theorem recoveredName_isDiscarded :
    ¬ ∀ attached s, (recoverName.program ownerEnv).run ownerEnv.perform noNames =
        (.ok (),attached) →
      Runs (NamesOperation.apply ownerEnv) attached s →
      StaysManaged ownerEnv (['a'],['n']) s := by
  intro hclaim
  have hexecute : execute (NamesOperation.apply ownerEnv)
      [.persistAfterScan 999 [],.discardRegistrationWorkflow ['a'] ['n']] recoveredNames =
        .ok _ := rfl
  obtain ⟨_,_,_,hscanning,_⟩ := hclaim _ _ recoverName_succeeds (runs_of_execute hexecute)
  cases hscanning

end CoppiceWallet.Names
