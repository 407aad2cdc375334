import CoppiceWallet.Names.Operations

/-! # How long an operation stays valid -/

namespace CoppiceWallet.Names

open CoppiceWallet.Lib CoppiceWallet.Store

variable {W Seed Prepared : Type} {env : OperationEnv W Seed Prepared}

/-- The rules of the protocol: a window lies inside its epoch, operations are accepted exactly in
the windows, COMMITs by their age, and a head is active exactly below `activeUntil`, which is its
expiry while it has no terminal height. -/
structure OperationEnv.Follows (env : OperationEnv W Seed Prepared) (activeUntil : Head → Nat) :
    Prop where
  inside : ∀ name epoch window height, env.parameters.window name epoch = .ok window →
    window.start ≤ height → height < window.stop → env.parameters.epoch height = .ok epoch
  operation : ∀ name height, env.acceptsOperation name height = true ↔
    ∃ epoch window, env.parameters.epoch height = .ok epoch ∧
      env.parameters.window name epoch = .ok window ∧ window.start ≤ height ∧ height < window.stop
  commit : env.parameters.AcceptsByAge
  active : ∀ head height, env.lifecycle head height = .active ↔ height < activeUntil head
  expiry : ∀ head, head.terminalHeight = none → activeUntil head = head.expiryHeight

/-- The height lies in the window of the name in the epoch, and operations are accepted there. -/
def OperationEnv.InWindow (env : OperationEnv W Seed Prepared) (name : Text) (epoch height : Nat) :
    Prop :=
  env.parameters.epoch height = .ok epoch ∧ env.acceptsOperation name height = true ∧
    ∃ window, env.parameters.window name epoch = .ok window ∧ window.start ≤ height ∧
      height < window.stop

def NamesTransaction.Covers (transaction : NamesTransaction) (height : Nat) : Prop :=
  transaction.validFromHeight ≤ height ∧ height ≤ transaction.expiryHeight

instance (transaction : NamesTransaction) (height : Nat) :
    Decidable (transaction.Covers height) :=
  inferInstanceAs (Decidable (_ ∧ _))

section
variable {activeUntil : Head → Nat} {name : Text} {epoch height : Nat} {window : Window}

theorem OperationEnv.Follows.window_of_accepted (h : env.Follows activeUntil)
    (haccepts : env.acceptsOperation name height = true)
    (hepoch : env.parameters.epoch height = .ok epoch)
    (hwindow : env.parameters.window name epoch = .ok window) :
    window.start ≤ height ∧ height < window.stop := by
  obtain ⟨epoch',window',hepoch',hwindow',hinside⟩ := (h.operation name height).mp haccepts
  rw [hepoch] at hepoch'
  cases hepoch'
  rw [hwindow] at hwindow'
  cases hwindow'
  exact hinside

theorem OperationEnv.Follows.inWindow (h : env.Follows activeUntil)
    (hwindow : env.parameters.window name epoch = .ok window) (hstart : window.start ≤ height)
    (hstop : height < window.stop) : env.InWindow name epoch height := by
  have hepoch := h.inside name epoch window height hwindow hstart hstop
  have haccepts := (h.operation name height).mpr ⟨epoch,window,hepoch,hwindow,hstart,hstop⟩
  exact ⟨hepoch,haccepts,window,hwindow,hstart,hstop⟩

end

section
variable {activeUntil : Head → Nat} {accountUuid name : Text} {wallet : W}

theorem revealSchedule_valid (hrules : env.Follows activeUntil) {schedule : RevealSchedule}
    (h : revealSchedule env accountUuid name wallet = .ok schedule) {height : Nat}
    (hfrom : schedule.operationHeight ≤ height) (hto : height ≤ schedule.expiryHeight) :
    env.InWindow name schedule.epoch height ∧
      env.parameters.acceptsCommit schedule.commit.height height = true := by
  obtain ⟨found,_,h⟩ := bind_ok h
  obtain ⟨r,_,h⟩ := bind_ok h
  split at h
  · cases h
  obtain ⟨accepted,_,h⟩ := bind_ok h
  obtain ⟨commit,_,h⟩ := bind_ok h
  obtain ⟨tipHeight,_,h⟩ := bind_ok h
  obtain ⟨operationHeight,_,h⟩ := bind_ok h
  obtain ⟨epoch,hepoch,h⟩ := bind_ok h
  split at h
  · cases h
  rename_i hchecks
  obtain ⟨window,hwindow,h⟩ := bind_ok h
  cases h
  simp only [not_or,Bool.not_eq_true',Bool.not_eq_false] at hchecks
  obtain ⟨_,haccepts,hcommit⟩ := hchecks
  obtain ⟨hstart,hstop⟩ := hrules.window_of_accepted haccepts hepoch hwindow
  have hage := (hrules.commit _ _).mp hcommit
  simp only [saturatingAddU32] at hfrom hto
  dsimp only
  have hwindowEnd : height ≤ window.stop - 1 := hto.trans (min_le_left _ _)
  have hcommitEnd : height ≤ commit.height + (env.parameters.commitTtlBlocks - 1) :=
    hto.trans ((min_le_right _ _).trans (min_le_left _ _))
  refine ⟨hrules.inWindow hwindow (hstart.trans hfrom) (by omega),?_⟩
  exact (hrules.commit _ _).mpr (by omega)

/-- What a REFRESH is scheduled by: the last block of its window, and nothing about its head. -/
structure RefreshSchedule.Of (schedule : RefreshSchedule) (env : OperationEnv W Seed Prepared)
    (name : Text) (window : Window) : Prop where
  scheduled : env.parameters.window name schedule.epoch = .ok window
  started : window.start ≤ schedule.operationHeight
  unfinished : schedule.operationHeight < window.stop
  expiry : schedule.expiryHeight = window.stop - 1
  active : env.lifecycle schedule.predecessor schedule.operationHeight = .active

theorem refreshSchedule_of (hrules : env.Follows activeUntil) {schedule : RefreshSchedule}
    (h : refreshSchedule env name wallet = .ok schedule) :
    ∃ window, schedule.Of env name window := by
  obtain ⟨tipHeight,_,h⟩ := bind_ok h
  obtain ⟨found,_,h⟩ := bind_ok h
  obtain ⟨resolution,_,h⟩ := bind_ok h
  obtain ⟨predecessor,_,h⟩ := bind_ok h
  obtain ⟨origin,_,h⟩ := bind_ok h
  obtain ⟨position,_,h⟩ := bind_ok h
  obtain ⟨operationHeight,_,h⟩ := bind_ok h
  split at h
  · cases h
  rename_i hchecks
  obtain ⟨epoch,hepoch,h⟩ := bind_ok h
  obtain ⟨window,hwindow,h⟩ := bind_ok h
  cases h
  simp only [not_or,not_not,Bool.not_eq_true',Bool.not_eq_false] at hchecks
  obtain ⟨hactive,haccepts⟩ := hchecks
  obtain ⟨hstart,hstop⟩ := hrules.window_of_accepted haccepts hepoch hwindow
  exact ⟨window,hwindow,hstart,hstop,rfl,hactive⟩

theorem RefreshSchedule.Of.valid_iff (hrules : env.Follows activeUntil)
    {schedule : RefreshSchedule} {window : Window} (h : schedule.Of env name window) :
    (∀ height, schedule.operationHeight ≤ height → height ≤ schedule.expiryHeight →
      env.InWindow name schedule.epoch height ∧
        env.lifecycle schedule.predecessor height = .active) ↔
      window.stop ≤ activeUntil schedule.predecessor := by
  have hunfinished := h.unfinished
  have hexpiry := h.expiry
  constructor
  · intro hvalid
    obtain ⟨_,hactive⟩ := hvalid schedule.expiryHeight (by omega) le_rfl
    have hlast := (hrules.active _ _).mp hactive
    omega
  · intro houtlives height hfrom hto
    have hactive := (hrules.active schedule.predecessor height).mpr (by omega)
    exact ⟨hrules.inWindow h.scheduled (h.started.trans hfrom) (by omega),hactive⟩

end

theorem run_bind_ok {α β : Type} {p : OperationProgram W α} {f : α → OperationProgram W β}
    {b : β} {s t : W} (h : (p >>= f).run env.perform s = (.ok b,t)) :
    ∃ a u, p.run env.perform s = (.ok a,u) ∧ (f a).run env.perform u = (.ok b,t) := by
  rw [Program.run_bind] at h
  cases hp : p.run env.perform s with
  | mk result u =>
    rw [hp] at h
    cases result with
    | error e => cases h
    | ok a => exact ⟨a,u,rfl,h⟩

theorem run_look_ok {α : Type} {f : W → StoreResult α} {a : α} {s t : W}
    (h : (Program.look f : OperationProgram W α).run env.perform s = (.ok a,t)) :
    f s = .ok a ∧ t = s := by
  rw [Program.run_look] at h
  injection h with hresult hstate
  exact ⟨hresult,hstate.symm⟩

theorem run_finish_ok {α : Type} {result : StoreResult α} {a : α} {s t : W}
    (h : (.finish result : OperationProgram W α).run env.perform s = (.ok a,t)) :
    result = .ok a ∧ t = s := by
  rw [Program.run_finish] at h
  injection h with hresult hstate
  exact ⟨hresult,hstate.symm⟩

theorem releaseAndFail_run {α : Type} (env : OperationEnv W Seed Prepared)
    (reservation : NamesFeeReservation) (e : String) (s : W) :
    ((releaseAndFail env reservation e : OperationProgram W α).run env.perform s).1 = .error e := by
  cases hunlock : env.unlockOutput reservation.output reservation.owner s <;>
    simp only [releaseAndFail,Program.run,hunlock]

theorem assembleReserved_ok {reservation : NamesFeeReservation}
    {assemble : W → StoreResult NamesTransaction} {transaction : NamesTransaction} {s t : W}
    (h : (assembleReserved env reservation assemble).run env.perform s = (.ok transaction,t)) :
    assemble s = .ok transaction := by
  unfold assembleReserved Program.run at h
  dsimp only [Program.after] at h
  cases hrun : assemble s with
  | ok built =>
    rw [hrun] at h
    cases h
    rfl
  | error e =>
    rw [hrun] at h
    have hfailed := releaseAndFail_run (α := NamesTransaction) env reservation e s
    rw [h] at hfailed
    cases hfailed

theorem buildReveal_schedule {owner : Bytes32} {accountUuid name : Text} {seed : Seed}
    {transaction : NamesTransaction} {s t : W}
    (h : (buildReveal env owner accountUuid name seed).run env.perform s = (.ok transaction,t)) :
    ∃ canonical schedule, env.canonicalRegistrationName name = .ok canonical ∧
      revealSchedule env accountUuid canonical s = .ok schedule ∧
      transaction.validFromHeight = schedule.operationHeight ∧
      transaction.expiryHeight = schedule.expiryHeight := by
  obtain ⟨canonical,s₁,hcanonical,hnamed⟩ := run_bind_ok h
  obtain ⟨hname,rfl⟩ := run_finish_ok hcanonical
  obtain ⟨schedule,s₂,hschedule,hscheduled⟩ := run_bind_ok hnamed
  obtain ⟨hschedule,_⟩ := run_look_ok hschedule
  obtain ⟨draft,s₃,_,hdrafted⟩ := run_bind_ok hscheduled
  obtain ⟨_,s₄,_,hreserved⟩ := run_bind_ok hdrafted
  have hassembled := assembleReserved_ok hreserved
  obtain ⟨⟨raw,txid⟩,_,hbuilt⟩ := bind_ok hassembled
  cases hbuilt
  exact ⟨canonical,schedule,hname,hschedule,rfl,rfl⟩

theorem buildRefresh_schedule {owner : Bytes32} {accountUuid name : Text}
    {requestedUa : Option Text} {seed : Seed} {transaction : NamesTransaction} {s t : W}
    (h : (buildRefresh env owner accountUuid name requestedUa seed).run env.perform s =
      (.ok transaction,t)) :
    ∃ canonical schedule, env.canonicalRegistrationName name = .ok canonical ∧
      refreshSchedule env canonical s = .ok schedule ∧
      transaction.validFromHeight = schedule.operationHeight ∧
      transaction.expiryHeight = schedule.expiryHeight := by
  obtain ⟨canonical,s₁,hcanonical,hnamed⟩ := run_bind_ok h
  obtain ⟨hname,rfl⟩ := run_finish_ok hcanonical
  obtain ⟨schedule,s₂,hschedule,hscheduled⟩ := run_bind_ok hnamed
  obtain ⟨hschedule,_⟩ := run_look_ok hschedule
  obtain ⟨draft,s₃,_,hdrafted⟩ := run_bind_ok hscheduled
  obtain ⟨_,s₄,_,hreserved⟩ := run_bind_ok hdrafted
  have hassembled := assembleReserved_ok hreserved
  obtain ⟨⟨raw,txid⟩,_,hbuilt⟩ := bind_ok hassembled
  cases hbuilt
  exact ⟨canonical,schedule,hname,hschedule,rfl,rfl⟩

/-- A built REVEAL is valid at every height it covers. A built REFRESH is valid at every height it
covers exactly when its window ends before its head stops being active. -/
theorem builtOperations_valid (activeUntil : Head → Nat) (hrules : env.Follows activeUntil) :
    (∀ owner accountUuid name seed transaction s t,
      (buildReveal env owner accountUuid name seed).run env.perform s = (.ok transaction,t) →
        ∃ canonical schedule, env.canonicalRegistrationName name = .ok canonical ∧
          revealSchedule env accountUuid canonical s = .ok schedule ∧
          ∀ height, transaction.Covers height →
            env.InWindow canonical schedule.epoch height ∧
              env.parameters.acceptsCommit schedule.commit.height height = true) ∧
    (∀ owner accountUuid name requestedUa seed transaction s t,
      (buildRefresh env owner accountUuid name requestedUa seed).run env.perform s =
        (.ok transaction,t) →
        ∃ canonical schedule window, env.canonicalRegistrationName name = .ok canonical ∧
          refreshSchedule env canonical s = .ok schedule ∧
          env.parameters.window canonical schedule.epoch = .ok window ∧
          ((∀ height, transaction.Covers height →
            env.InWindow canonical schedule.epoch height ∧
              env.lifecycle schedule.predecessor height = .active) ↔
            window.stop ≤ activeUntil schedule.predecessor)) := by
  constructor
  · intro owner accountUuid name seed transaction s t h
    obtain ⟨canonical,schedule,hname,hschedule,hfrom,hto⟩ := buildReveal_schedule h
    refine ⟨canonical,schedule,hname,hschedule,fun height hcovers => ?_⟩
    rw [NamesTransaction.Covers,hfrom,hto] at hcovers
    exact revealSchedule_valid hrules hschedule hcovers.1 hcovers.2
  · intro owner accountUuid name requestedUa seed transaction s t h
    obtain ⟨canonical,schedule,hname,hschedule,hfrom,hto⟩ := buildRefresh_schedule h
    obtain ⟨window,hof⟩ := refreshSchedule_of hrules hschedule
    refine ⟨canonical,schedule,window,hname,hschedule,hof.scheduled,?_⟩
    simp only [NamesTransaction.Covers,hfrom,hto,and_imp]
    exact hof.valid_iff hrules

def oldHead : Head := ⟨⟨3,0,1,0⟩,0,['u'],2,3,15,none⟩

/-- One name whose head expires at the fourth block of a window of six, and one fee note. -/
def oldHeadEnv : OperationEnv Unit Unit Unit where
  parameters := tenBlockEpochs 6
  acceptsOperation _ height := decide (10 * (height / 10) + 2 ≤ height ∧
    height < 10 * (height / 10) + 8 ∧ 10 * (height / 10) + 8 < u32Limit)
  lifecycle head height := if height < head.expiryHeight then .active else .cooldown
  canonicalRegistrationName := .ok
  canonicalUa := .ok
  registration _ _ _ := .ok none
  acceptedCommit _ _ := .ok none
  acceptedManagedResolution name _ :=
    .ok (some ⟨name,.active,some oldHead,some 7,some (.reveal ⟨3,0,1⟩ 0 ['u'] 0 4)⟩)
  lifecycleTip _ := .ok 12
  softwareAccount _ _ _ := .ok ()
  recoverCurrentBond _ _ _ := .ok 2
  unspentIronwoodNotes _ _ _ := .ok [⟨⟨9,0⟩,50000⟩]
  spendableNote _ _ _ := .ok true
  prepareReveal _ _ _ _ _ _ := .ok ()
  prepareRefresh _ _ _ _ _ _ := .ok ()
  frames _ := 1
  requiredFee _ _ := .ok 20000
  assembleReveal _ _ _ := .ok ([1],1)
  assembleRefresh _ _ _ _ := .ok ([1],1)
  persistEphemeralProposalLock _ _ _ _ := .ok ()
  lockOutputs _ _ _ _ := .ok ()
  unlockOutput _ _ _ := .ok ()
  removeEphemeralProposalLock _ _ := .ok ()

def oldHeadRefresh : NamesTransaction :=
  ⟨[1],1,['n'],['a'],13,17,20000,some ⟨⟨9,0⟩,8⟩⟩

theorem oldHeadEnv_follows : oldHeadEnv.Follows Head.expiryHeight where
  inside name epoch window height hwindow hstart hstop := by
    have hshape := tenBlockEpochs_window hwindow
    subst hshape
    have hepoch : height / 10 = epoch := by
      simp only at hstart hstop
      omega
    exact congrArg Except.ok hepoch
  operation name height := by
    constructor
    · intro haccepts
      obtain ⟨hstart,hstop,hlimit⟩ := of_decide_eq_true haccepts
      exact ⟨height / 10,_,rfl,if_pos hlimit,hstart,hstop⟩
    · rintro ⟨epoch,window,hepoch,hwindow,hstart,hstop⟩
      have hshape := tenBlockEpochs_window hwindow
      cases hepoch
      subst hshape
      refine decide_eq_true ⟨hstart,hstop,?_⟩
      by_contra hlimit
      have herror : (tenBlockEpochs 6).window name (height / 10) = .error "Names window overflow" :=
        if_neg hlimit
      rw [oldHeadEnv,herror] at hwindow
      cases hwindow
  commit := tenBlockEpochs_accepts 6
  active head height := by
    change (if height < head.expiryHeight then Lifecycle.active else .cooldown) = .active ↔ _
    split <;> simp_all
  expiry _ _ := rfl

/-- The transaction covers a height at which its head is no longer active. -/
theorem oldHeadRefresh_outlives :
    (buildRefresh oldHeadEnv 8 ['a'] ['n'] none ()).run oldHeadEnv.perform () =
        (.ok oldHeadRefresh,()) ∧
      oldHeadEnv.Follows Head.expiryHeight ∧
      refreshSchedule oldHeadEnv ['n'] () =
        .ok ⟨oldHead,.reveal ⟨3,0,1⟩ 0 ['u'] 0 4,7,13,1,17⟩ ∧
      oldHeadRefresh.Covers 16 ∧ oldHeadEnv.lifecycle oldHead 16 ≠ .active :=
  ⟨rfl,oldHeadEnv_follows,rfl,by decide,by decide⟩

theorem oldHeadRefresh_valid_iff :
    ∃ canonical schedule window, oldHeadEnv.canonicalRegistrationName ['n'] = .ok canonical ∧
      refreshSchedule oldHeadEnv canonical () = .ok schedule ∧
      oldHeadEnv.parameters.window canonical schedule.epoch = .ok window ∧
      ((∀ height, oldHeadRefresh.Covers height →
        oldHeadEnv.InWindow canonical schedule.epoch height ∧
          oldHeadEnv.lifecycle schedule.predecessor height = .active) ↔
        window.stop ≤ schedule.predecessor.expiryHeight) :=
  (builtOperations_valid Head.expiryHeight oldHeadEnv_follows).2 8 ['a'] ['n'] none () oldHeadRefresh
    () () rfl

end CoppiceWallet.Names
