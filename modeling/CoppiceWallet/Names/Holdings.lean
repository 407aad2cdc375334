import CoppiceWallet.Names.StaleWrites
import CoppiceWallet.Planner.Denomination
import Mathlib.Data.List.Dedup

/-! # The holdings of a wallet -/

namespace CoppiceWallet.Names

open CoppiceWallet.Lib CoppiceWallet.Store

variable {W Seed : Type} {env : LifecycleEnv W Seed}

/-- What the holdings are read from, beside the sidecar. -/
structure HoldingsView where
  /-- The resolutions of the managed names, when the sidecar has a checkpoint. -/
  managedResolutions : Option (List ManagedResolution)
  /-- The heights at which a transaction was mined and expires, under either byte order. -/
  transaction : Bytes32 → Option (Option Nat × Option Nat)
  chainTipHeight : Nat

/-- The names whose current head points at an unspent bond. -/
def HoldingsView.bonded (view : HoldingsView) : List Text :=
  ((view.managedResolutions.getD []).filter fun resolution => resolution.markedPosition.isSome).map
    (·.name)

def bondedNames (view : HoldingsView) (accountUuid : Text) (stored : StoredNamesWallet) :
    List Text :=
  (stored.registrations.rows.filter fun r =>
    decide (r.accountUuid = accountUuid) && view.bonded.contains r.name).map (·.name)

/-- The RELEASE is in the wallet and can still be mined. -/
def HoldingsView.pendingRelease (view : HoldingsView) (activity : StoredNamesActivity) : Bool :=
  match view.transaction activity.txid with
  | some (none,expiry) =>
    expiry.all fun height => decide (height = 0) || decide (view.chainTipHeight < height)
  | _ => false

def namesLockedZatoshi (view : HoldingsView) (accountUuid : Text) (stored : StoredNamesWallet) :
    StoreResult Nat :=
  let releases := stored.activities.filter fun activity =>
    decide (activity.accountUuid = accountUuid) && decide (activity.action = "release")
  let bonded := (bondedNames view accountUuid stored).filter fun name =>
    !releases.any fun activity => decide (activity.name = name) && view.pendingRelease activity
  okOr (Planner.checkedMul bonded.length requiredBondZatoshis) "Names locked balance overflow"

/-- A bonded name is a holding of one account, and worth one bond. -/
structure CountsOnce (view : HoldingsView) (stored : StoredNamesWallet) : Prop where
  oneAccount : ∀ name a b, name ∈ bondedNames view a stored → name ∈ bondedNames view b stored →
    a = b
  total : ∀ accounts : List Text, accounts.Nodup → ∀ locked,
    accounts.mapM (fun a => namesLockedZatoshi view a stored) = .ok locked →
      locked.sum ≤ view.bonded.dedup.length * requiredBondZatoshis

/-- The accounts that have a registration, with its name. -/
def NamesState.keys (s : NamesState W) : List (Text × Text) :=
  s.sidecar.registrations.rows.map StoredRegistration.key

/-- No two accounts have a registration of one name. -/
def NamesApart (keys : List (Text × Text)) : Prop :=
  ∀ k ∈ keys, ∀ k' ∈ keys, k.2 = k'.2 → k = k'

variable {stored : StoredNamesWallet}

theorem mem_bondedNames {view : HoldingsView} {a name : Text} : name ∈ bondedNames view a stored ↔
      (a,name) ∈ stored.registrations.rows.map StoredRegistration.key ∧ name ∈ view.bonded := by
  simp only [bondedNames,List.mem_map,List.mem_filter,Bool.and_eq_true,decide_eq_true_iff,
    List.contains_iff_mem]
  constructor
  · intro h
    obtain ⟨r,⟨hr,rfl,hbonded⟩,rfl⟩ := h
    exact ⟨⟨r,hr,rfl⟩,hbonded⟩
  · intro h
    obtain ⟨⟨r,hr,hkey⟩,hbonded⟩ := h
    cases hkey
    exact ⟨r,⟨hr,rfl,hbonded⟩,rfl⟩

theorem bondedNames_nodup (view : HoldingsView) (a : Text) (stored : StoredNamesWallet) :
    (bondedNames view a stored).Nodup := by
  refine List.Nodup.of_map (fun name => (a,name)) ?_
  rw [bondedNames,List.map_map]
  have hkeys := stored.registrations.keys_nodup.sublist
    ((List.filter_sublist (p := fun r : StoredRegistration =>
      decide (r.accountUuid = a) && view.bonded.contains r.name)).map StoredRegistration.key)
  refine (List.map_congr_left fun r hr => ?_) ▸ hkeys
  have haccount := (List.mem_filter.mp hr).2
  rw [Bool.and_eq_true,decide_eq_true_iff] at haccount
  show (r.accountUuid,r.name) = (a,r.name)
  rw [haccount.1]

theorem namesLockedZatoshi_le {view : HoldingsView} {a : Text} {locked : Nat}
    (h : namesLockedZatoshi view a stored = .ok locked) :
    locked ≤ (bondedNames view a stored).length * requiredBondZatoshis := by
  have hlocked := okOr_ok h
  unfold Planner.checkedMul at hlocked
  split at hlocked
  · cases hlocked
    exact Nat.mul_le_mul_right _ (List.length_filter_le _ _)
  · cases hlocked

theorem countsOnce_of_apart
    (hapart : NamesApart (stored.registrations.rows.map StoredRegistration.key))
    (view : HoldingsView) : CountsOnce view stored := by
  have honce : ∀ name a b, name ∈ bondedNames view a stored → name ∈ bondedNames view b stored →
      a = b := by
    intro name a b ha hb
    exact congrArg Prod.fst (hapart (a,name) (mem_bondedNames.mp ha).1 (b,name)
      (mem_bondedNames.mp hb).1 rfl)
  refine ⟨honce,fun accounts haccounts locked hlocked => ?_⟩
  have hsum : locked.sum ≤
      (accounts.flatMap fun a => bondedNames view a stored).length * requiredBondZatoshis := by
    have hrows := mapM_ok hlocked
    clear hlocked haccounts
    induction hrows with
    | nil => exact Nat.zero_le _
    | cons ha _ ih =>
      rw [List.sum_cons,List.flatMap_cons,List.length_append,Nat.add_mul]
      exact Nat.add_le_add (namesLockedZatoshi_le ha) ih
  have hnodup : (accounts.flatMap fun a => bondedNames view a stored).Nodup := by
    refine List.nodup_flatMap.mpr ⟨fun a _ => bondedNames_nodup view a stored,
      haccounts.imp fun hne name ha hb => hne (honce name _ _ ha hb)⟩
  have hlength := (List.subperm_of_subset hnodup fun name hname => by
    obtain ⟨a,_,ha⟩ := List.mem_flatMap.mp hname
    exact List.mem_dedup.mpr (mem_bondedNames.mp ha).2).length_le
  exact hsum.trans (Nat.mul_le_mul_right _ hlength)

/-- The rows of an update belong to registrations that were there. -/
def KeysWithin (stored stored' : StoredNamesWallet) : Prop :=
  ∀ k ∈ stored'.registrations.rows.map StoredRegistration.key,
    k ∈ stored.registrations.rows.map StoredRegistration.key

variable {r : StoredRegistration}

theorem overwrite_keys {registrations : Registrations} {k : Text × Text}
    (h : k ∈ (registrations.overwrite r).rows.map StoredRegistration.key) :
    k ∈ registrations.rows.map StoredRegistration.key := by
  obtain ⟨x,hx,rfl⟩ := List.mem_map.mp h
  rcases Table.mem_overwrite.mp hx with ⟨hx,_⟩ | ⟨rfl,y,hy,hkey⟩
  · exact List.mem_map_of_mem hx
  · rw [← hkey]
    exact List.mem_map_of_mem hy

theorem removeRegistration_keys (r : StoredRegistration) (stored : StoredNamesWallet) :
    KeysWithin stored (removeRegistration r stored) := by
  intro k hk
  obtain ⟨x,hx,rfl⟩ := List.mem_map.mp hk
  exact List.mem_map_of_mem (Table.mem_delete.mp hx).1

theorem foldl_recordAcceptedCommit_keys {accepted : List (Bytes32 × CommitRef)}
    {registrations : Registrations} {k : Text × Text}
    (h : k ∈ (accepted.foldl recordAcceptedCommit registrations).rows.map StoredRegistration.key) :
    k ∈ registrations.rows.map StoredRegistration.key := by
  induction accepted generalizing registrations with
  | nil => exact h
  | cons entry accepted ih =>
    have hk := ih h
    unfold recordAcceptedCommit at hk
    split at hk
    · exact hk
    · exact overwrite_keys hk

variable {stored' : StoredNamesWallet}

theorem persistAfterScan_keys {parameters : NamesParameters} {tipHeight : Nat}
    {accepted : List (Bytes32 × CommitRef)}
    (h : persistAfterScan parameters tipHeight accepted stored = .ok stored') :
    KeysWithin stored stored' := by
  obtain ⟨registrations,hregistrations,h⟩ := bind_ok h
  cases h
  intro k hk
  obtain ⟨x,hx,rfl⟩ := List.mem_map.mp hk
  obtain ⟨r,hr,hx⟩ := forall₂_mem_right (Table.rewrite_ok hregistrations) hx
  rw [withPhaseAfterScan_key r x hx]
  exact foldl_recordAcceptedCommit_keys (List.mem_map_of_mem hr)

theorem storeRegistration_keys (h : storeRegistration r stored = .ok stored') :
    stored'.registrations.rows.map StoredRegistration.key =
      stored.registrations.rows.map StoredRegistration.key ++ [r.key] := by
  obtain ⟨registrations,hregistrations,h⟩ := bind_ok h
  cases h
  rw [(Table.insert_eq_some (okOr_ok hregistrations)).1,List.map_append]
  rfl

theorem storeRecoveredRegistration_fresh (h : storeRecoveredRegistration r stored = .ok stored') :
    ∀ x ∈ stored.registrations.rows, x.name ≠ r.name := by
  unfold storeRecoveredRegistration at h
  split at h
  · split at h <;> cases h
  · rename_i hnone
    intro x hx hname
    have hfound := List.find?_eq_none.mp hnone x hx
    exact hfound (decide_eq_true hname)

theorem NamesApart.within (hwithin : KeysWithin stored stored')
    (h : NamesApart (stored.registrations.rows.map StoredRegistration.key)) :
    NamesApart (stored'.registrations.rows.map StoredRegistration.key) :=
  fun k hk k' hk' => h k (hwithin k hk) k' (hwithin k' hk')

theorem NamesApart.store (h : NamesApart (stored.registrations.rows.map StoredRegistration.key))
    (hstore : storeRegistration r stored = .ok stored')
    (hr : ∀ x ∈ stored.registrations.rows, x.name = r.name → x.accountUuid = r.accountUuid) :
    NamesApart (stored'.registrations.rows.map StoredRegistration.key) := by
  rw [storeRegistration_keys hstore]
  have hsame : ∀ k ∈ stored.registrations.rows.map StoredRegistration.key, k.2 = r.name →
      k = r.key := by
    intro k hk hname
    obtain ⟨x,hx,rfl⟩ := List.mem_map.mp hk
    exact Prod.ext (hr x hx hname) hname
  intro k hk k' hk' hname
  rw [List.mem_append,List.mem_singleton] at hk hk'
  rcases hk with hk | rfl
  · rcases hk' with hk' | rfl
    · exact h k hk k' hk' hname
    · exact hsame k hk hname
  · rcases hk' with hk' | rfl
    · exact (hsame k' hk' hname.symm).symm
    · rfl

/-- A draft is not stored beside another account's registration of its name. -/
def DraftsApart (action : NamesAction W) (s : NamesState W) : Prop :=
  match action with
  | .storeRegistration r =>
    ∀ x ∈ s.sidecar.registrations.rows, x.name = r.name → x.accountUuid = r.accountUuid
  | _ => True

theorem perform_apart {action : NamesAction W} {s t : NamesState W}
    (h : env.perform action s = .ok t) (hs : NamesApart s.keys) (haction : DraftsApart action s) :
    NamesApart t.keys := by
  cases action with
  | lockWallet =>
    rw [lockWallet_ok h]
    exact hs
  | unlockWallet | environment =>
    cases h
    exact hs
  | storeRegistration r =>
    obtain ⟨sidecar,hsidecar,rfl⟩ := onSidecar_ok h
    exact NamesApart.store hs hsidecar haction
  | storeRecoveredRegistration r =>
    obtain ⟨sidecar,hsidecar,rfl⟩ := onSidecar_ok h
    exact NamesApart.store hs (storeRecoveredRegistration_ok hsidecar) fun x hx hname =>
      absurd hname (storeRecoveredRegistration_fresh hsidecar x hx)
  | replaceRegistration r =>
    obtain ⟨sidecar,hsidecar,rfl⟩ := onSidecar_ok h
    obtain ⟨_,_,_,hrows⟩ := replaceRegistration_rows hsidecar
    refine NamesApart.within (fun k hk => ?_) hs
    rw [hrows] at hk
    exact overwrite_keys hk
  | takeCancelledRegistration sendFlowId =>
    cases h
    refine NamesApart.within ?_ hs
    unfold takeCancelledRegistration
    split
    · exact fun _ hk => hk
    · exact removeRegistration_keys _ _
  | takeRegistrationWorkflow accountUuid name =>
    cases h
    refine NamesApart.within ?_ hs
    unfold takeRegistrationWorkflow
    split
    · exact fun _ hk => hk
    · exact removeRegistration_keys _ _
  | recordCommitBroadcast sendFlowId txid =>
    obtain ⟨sidecar,hsidecar,rfl⟩ := onSidecar_ok h
    obtain ⟨r,_,hsidecar⟩ := bind_ok hsidecar
    cases hsidecar
    exact NamesApart.within (fun k hk => overwrite_keys hk) hs
  | recordRevealBroadcast accountUuid name txid =>
    obtain ⟨sidecar,hsidecar,rfl⟩ := onSidecar_ok h
    obtain ⟨r,_,hsidecar⟩ := bind_ok hsidecar
    cases hsidecar
    exact NamesApart.within (fun k hk => overwrite_keys hk) hs
  | persistAfterScan tipHeight accepted =>
    obtain ⟨sidecar,hsidecar,rfl⟩ := onSidecar_ok h
    exact NamesApart.within (persistAfterScan_keys hsidecar) hs
  | lockOutputs | unlockOutput | proposeSend | resolveName | markRecoveredNamesBond =>
    obtain ⟨wallet,_,rfl⟩ := onWallet_ok h
    exact hs

/-- Bonded names count once, as long as no draft is stored beside the registration of its name in
another account, however the operations on the names interleave. -/
theorem bondedName_countsOnce {pool final : NamesPool W}
    (hstart : pool.state.sidecar.registrations = Table.empty)
    (hrun : GuardedRuns (Pool.advance env.perform waits) (Pool.Guard DraftsApart) pool final)
    (view : HoldingsView) : CountsOnce view final.state.sidecar := by
  refine countsOnce_of_apart ?_ view
  refine Pool.invariant (P := fun s => NamesApart s.keys)
    (fun _ _ _ hs hguard h => perform_apart h hs hguard) hrun ?_
  intro k hk
  rw [NamesState.keys,hstart] at hk
  cases hk

def bondedName : ManagedResolution := ⟨['n'],.active,none,some 0,none⟩

def bondedView : HoldingsView := ⟨some [bondedName],fun _ => none,200⟩

theorem draftedName_countsOnce :
    ∃ final : NamesPool (OutputRef → Option Bytes32),
      bondedNames bondedView ['a'] final.state.sidecar = [['n']] ∧
      CountsOnce bondedView final.state.sidecar := by
  obtain ⟨first,second,third,next,final,h1,h2,h3,hfirst,hsecond,hthird,hstore,hempty,h4,hbonded⟩ :
      ∃ first second third next final,
        Pool.advance oneNoteEnv.perform waits 0 (namesPool oneNoteEnv [draftName] noBonds) =
          .ok first ∧
        Pool.advance oneNoteEnv.perform waits 0 first = .ok second ∧
        Pool.advance oneNoteEnv.perform waits 0 second = .ok third ∧
        (∃ next, (namesPool oneNoteEnv [draftName] noBonds).threads[0]? = some (.atomic none next)) ∧
        (∃ next, first.threads[0]? = some (.atomic none next)) ∧
        (∃ next, second.threads[0]? = some (.atomic none next)) ∧
        third.threads[0]? = some (.atomic (some (.storeRegistration next.1)) next.2) ∧
        third.state.sidecar.registrations.rows = [] ∧
        Pool.advance oneNoteEnv.perform waits 0 third = .ok final ∧
        bondedNames bondedView ['a'] final.state.sidecar = [['n']] :=
    ⟨_,_,_,(_,_),_,rfl,rfl,rfl,⟨_,rfl⟩,⟨_,rfl⟩,⟨_,rfl⟩,rfl,rfl,rfl,rfl⟩
  have hlook : ∀ pool : NamesPool (OutputRef → Option Bytes32),
      (∃ next, pool.threads[0]? = some (.atomic none next)) → Pool.Guard DraftsApart 0 pool := by
    intro pool hpool action next hnext
    obtain ⟨next',hpool⟩ := hpool
    rw [hpool] at hnext
    cases hnext
  have hdraft : Pool.Guard DraftsApart 0 third := by
    intro action next' hnext
    rw [hstore] at hnext
    cases hnext
    intro x hx
    rw [hempty] at hx
    cases hx
  have hrun : GuardedRuns (Pool.advance oneNoteEnv.perform waits) (Pool.Guard DraftsApart)
      (namesPool oneNoteEnv [draftName] noBonds) final :=
    .tail 0 (.tail 0 (.tail 0 (.tail 0 (.refl _) (hlook _ hfirst) h1) (hlook _ hsecond) h2)
      (hlook _ hthird) h3) hdraft h4
  exact ⟨final,hbonded,bondedName_countsOnce rfl hrun bondedView⟩

/-- Two accounts draft one name, and the bond of the first is revealed. -/
def sharedName : List (NamesOperation (OutputRef → Option Bytes32) Unit) :=
  [draftName,.prepareRegistrationDraft ['b'] ['n'] ['u'] (),
    .beginRegistration ['a'] ['f'] ['n'] ['u'] (),.recordCommitBroadcast ['f'] 1,
    .recordRevealBroadcast ['a'] ['n'] 2]

/-- The name is bonded once and held by both of the accounts that drafted it. -/
theorem sharedName_countsTwice :
    ¬ ∀ s view, Runs (NamesOperation.apply oneNoteEnv) noBonds s → CountsOnce view s.sidecar := by
  intro hclaim
  obtain ⟨s,hexecute,ha,hb⟩ : ∃ s,
      execute (NamesOperation.apply oneNoteEnv) sharedName noBonds = .ok s ∧
      bondedNames bondedView ['a'] s.sidecar = [['n']] ∧
      bondedNames bondedView ['b'] s.sidecar = [['n']] :=
    ⟨_,rfl,rfl,rfl⟩
  have hsame := (hclaim s bondedView (runs_of_execute hexecute)).oneAccount ['n'] ['a'] ['b']
    (by rw [ha]; exact List.mem_singleton_self _) (by rw [hb]; exact List.mem_singleton_self _)
  cases hsame

end CoppiceWallet.Names
