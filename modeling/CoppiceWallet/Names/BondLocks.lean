import CoppiceWallet.Names.OwnedName

/-! # The locks of bonds -/

namespace CoppiceWallet.Names

open CoppiceWallet.Lib CoppiceWallet.Store

variable {W Seed : Type} {env : LifecycleEnv W Seed}

/-- The locks that the wallet database holds under the commitments of registrations, and what the
calls do to them. A lock whose expiry is reached is no longer held. -/
structure BondLocks (env : LifecycleEnv W Seed) where
  held : W → OutputRef → Option Bytes32
  locked : ∀ {output owner expiry targetHeight wallet wallet'},
    env.lockOutputs output owner expiry wallet = .ok wallet' →
    env.targetHeight wallet = .ok targetHeight → targetHeight < expiry →
    ∀ o, held wallet' o = if o = output then some owner else held wallet o
  locked_targetHeight : ∀ {output owner expiry wallet wallet'},
    env.lockOutputs output owner expiry wallet = .ok wallet' →
      env.targetHeight wallet' = env.targetHeight wallet
  unlocked : ∀ {output owner wallet wallet'}, env.unlockOutput output owner wallet = .ok wallet' →
    ∀ o, held wallet' o =
      if o = output ∧ held wallet output = some owner then none else held wallet o
  spendable : ∀ {output targetHeight wallet value}, env.targetHeight wallet = .ok targetHeight →
    env.spendableNote output targetHeight wallet = some value → held wallet output = none
  targetHeight_lt : ∀ {targetHeight wallet}, env.targetHeight wallet = .ok targetHeight →
    targetHeight + 1 < u32Limit
  proposed : ∀ {accountUuid sendFlowId wallet wallet'},
    env.proposeSend accountUuid sendFlowId wallet = .ok wallet' → held wallet' = held wallet
  resolved : ∀ {name wallet wallet'}, env.resolveName name wallet = .ok wallet' →
    held wallet' = held wallet
  marked : ∀ {producer position commitment wallet wallet'},
    env.markRecoveredNamesBond producer position commitment wallet = .ok wallet' →
      held wallet' = held wallet

structure BondsAccounted (registrations : Registrations) (held : OutputRef → Option Bytes32) :
    Prop where
  owned : ∀ output owner, held output = some owner →
    ∃ r ∈ registrations.rows, r.commitment = owner ∧ r.bond = some output
  distinct : ∀ r ∈ registrations.rows, ∀ x ∈ registrations.rows, ∀ output,
    r.bond = some output → x.bond = some output → r = x
  reserved : ∀ r ∈ registrations.rows, r.phase = .bondReserved →
    ∃ output, r.bond = some output ∧ held output = some r.commitment

/-- With what the operations need besides: a registration that waits for its bond has none. -/
structure Accounted (registrations : Registrations) (held : OutputRef → Option Bytes32) : Prop
    extends BondsAccounted registrations held where
  awaiting : ∀ r ∈ registrations.rows, r.phase = .awaitingBond → r.bond = none

variable {registrations registrations' : Registrations} {held held' : OutputRef → Option Bytes32}

/-- A change of a registration that concerns neither its bond nor the owner of its lock. -/
structure SameBond (r r' : StoredRegistration) : Prop where
  key : r'.key = r.key
  commitment : r'.commitment = r.commitment
  bond : r'.bond = r.bond
  reserved : r'.phase = .bondReserved → r.phase = .bondReserved
  awaiting : r'.phase = .awaitingBond → r.phase = .awaitingBond

theorem SameBond.refl (r : StoredRegistration) : SameBond r r := ⟨rfl,rfl,rfl,id,id⟩

variable {r r' : StoredRegistration}

theorem SameBond.trans {r'' : StoredRegistration} (h : SameBond r r') (h' : SameBond r' r'') :
    SameBond r r'' :=
  ⟨h'.key.trans h.key,h'.commitment.trans h.commitment,h'.bond.trans h.bond,
    h.reserved ∘ h'.reserved,h.awaiting ∘ h'.awaiting⟩

theorem Accounted.frame (hs : Accounted registrations held)
    (hrows : List.Forall₂ SameBond registrations.rows registrations'.rows) :
    Accounted registrations' held where
  owned output owner howner := by
    obtain ⟨r,hr,hcommitment,hbond⟩ := hs.owned output owner howner
    obtain ⟨r',hr',hsame⟩ := forall₂_mem_left hrows hr
    exact ⟨r',hr',hsame.commitment.trans hcommitment,hsame.bond.trans hbond⟩
  distinct r' hr' x' hx' output hbond hbond' := by
    obtain ⟨r,hr,hsame⟩ := forall₂_mem_right hrows hr'
    obtain ⟨x,hx,hsame'⟩ := forall₂_mem_right hrows hx'
    have hrx := hs.distinct r hr x hx output (hsame.bond.symm.trans hbond)
      (hsame'.bond.symm.trans hbond')
    exact registrations'.eq_of_key hr' hx' (hsame.key.trans (hrx ▸ hsame'.key.symm))
  reserved r' hr' hphase := by
    obtain ⟨r,hr,hsame⟩ := forall₂_mem_right hrows hr'
    obtain ⟨output,hbond,hheld⟩ := hs.reserved r hr (hsame.reserved hphase)
    exact ⟨output,hsame.bond.trans hbond,hsame.commitment ▸ hheld⟩
  awaiting r' hr' hphase := by
    obtain ⟨r,hr,hsame⟩ := forall₂_mem_right hrows hr'
    exact hsame.bond.trans (hs.awaiting r hr (hsame.awaiting hphase))

theorem sameBond_overwrite (hr : r ∈ registrations.rows) (h : SameBond r r') :
    List.Forall₂ SameBond registrations.rows (registrations.overwrite r').rows := by
  refine List.forall₂_map_right_iff.mpr (List.forall₂_same.mpr fun x hx => ?_)
  by_cases hkey : x.key = r'.key
  · rw [if_pos hkey,registrations.eq_of_key hx hr (hkey.trans h.key)]
    exact h
  · rw [if_neg hkey]
    exact .refl x

theorem Accounted.overwrite (hs : Accounted registrations held) (hr : r ∈ registrations.rows)
    (h : SameBond r r') : Accounted (registrations.overwrite r') held :=
  hs.frame (sameBond_overwrite hr h)

/-- A registration without a bond holds no lock. -/
theorem Accounted.insert (hs : Accounted registrations held)
    (h : registrations.insert r = some registrations') (hbond : r.bond = none)
    (hphase : r.phase ≠ .bondReserved) : Accounted registrations' held := by
  obtain ⟨hrows,_⟩ := Table.insert_eq_some h
  have hmem : ∀ x, x ∈ registrations'.rows ↔ x ∈ registrations.rows ∨ x = r := by
    intro x
    rw [hrows,List.mem_append,List.mem_singleton]
  constructor
  · constructor
    · intro output owner howner
      obtain ⟨x,hx,hx'⟩ := hs.owned output owner howner
      exact ⟨x,(hmem x).mpr (.inl hx),hx'⟩
    · intro x hx y hy output hxbond hybond
      rcases (hmem x).mp hx with hx | rfl
      · rcases (hmem y).mp hy with hy | rfl
        · exact hs.distinct x hx y hy output hxbond hybond
        · rw [hbond] at hybond
          cases hybond
      · rw [hbond] at hxbond
        cases hxbond
    · intro x hx hreserved
      rcases (hmem x).mp hx with hx | rfl
      · exact hs.reserved x hx hreserved
      · exact absurd hreserved hphase
  · intro x hx hawaiting
    rcases (hmem x).mp hx with hx | rfl
    · exact hs.awaiting x hx hawaiting
    · exact hbond

theorem Accounted.unbond (hs : Accounted registrations held) (hr : r ∈ registrations.rows)
    (hkey : r'.key = r.key)
    (hfree : ∀ output, r.bond = some output → held output ≠ some r.commitment)
    (hbond : r'.bond = none) (hphase : r'.phase ≠ .bondReserved) :
    Accounted (registrations.overwrite r') held := by
  constructor
  · constructor
    · intro output owner howner
      obtain ⟨x,hx,hcommitment,hxbond⟩ := hs.owned output owner howner
      refine ⟨x,Table.mem_overwrite.mpr (.inl ⟨hx,fun hxkey => ?_⟩),hcommitment,hxbond⟩
      rw [registrations.eq_of_key hx hr (hxkey.trans hkey)] at hcommitment hxbond
      exact hfree output hxbond (hcommitment ▸ howner)
    · intro x hx y hy output hxbond hybond
      rcases Table.mem_overwrite.mp hx with ⟨hx,_⟩ | ⟨rfl,_⟩
      · rcases Table.mem_overwrite.mp hy with ⟨hy,_⟩ | ⟨rfl,_⟩
        · exact hs.distinct x hx y hy output hxbond hybond
        · rw [hbond] at hybond
          cases hybond
      · rw [hbond] at hxbond
        cases hxbond
    · intro x hx hreserved
      rcases Table.mem_overwrite.mp hx with ⟨hx,_⟩ | ⟨rfl,_⟩
      · exact hs.reserved x hx hreserved
      · exact absurd hreserved hphase
  · intro x hx hawaiting
    rcases Table.mem_overwrite.mp hx with ⟨hx,_⟩ | ⟨rfl,_⟩
    · exact hs.awaiting x hx hawaiting
    · exact hbond

theorem Accounted.reserve (hs : Accounted registrations held) {output : OutputRef}
    (hr : r ∈ registrations.rows) (hbond : r.bond = some output ∨
      r.bond = none ∧ ∀ x ∈ registrations.rows, x.bond ≠ some output)
    (hheld : ∀ o, held' o = if o = output then some r.commitment else held o) :
    Accounted (registrations.overwrite (r.withBond output)) held' := by
  -- another registration does not record the note
  have hother : ∀ x ∈ registrations.rows, x.key ≠ r.key → x.bond ≠ some output := by
    intro x hx hkey hxbond
    rcases hbond with hbond | ⟨_,hfresh⟩
    · exact hkey (congrArg _ (hs.distinct x hx r hr output hxbond hbond))
    · exact hfresh x hx hxbond
  constructor
  · constructor
    · intro o owner howner
      rw [hheld] at howner
      split at howner
      · rename_i ho
        cases howner
        exact ⟨_,Table.mem_overwrite.mpr (.inr ⟨rfl,r,hr,rfl⟩),rfl,ho ▸ rfl⟩
      · rename_i ho
        obtain ⟨x,hx,hcommitment,hxbond⟩ := hs.owned o owner howner
        refine ⟨x,Table.mem_overwrite.mpr (.inl ⟨hx,fun hkey => ho ?_⟩),hcommitment,hxbond⟩
        rw [registrations.eq_of_key hx hr hkey] at hxbond
        rcases hbond with hbond | ⟨hbond,_⟩
        · exact Option.some.inj (hxbond.symm.trans hbond)
        · rw [hbond] at hxbond
          cases hxbond
    · intro x hx y hy o hxbond hybond
      rcases Table.mem_overwrite.mp hx with ⟨hx,hxkey⟩ | ⟨rfl,_⟩
      · rcases Table.mem_overwrite.mp hy with ⟨hy,_⟩ | ⟨rfl,_⟩
        · exact hs.distinct x hx y hy o hxbond hybond
        · exact absurd (hxbond.trans hybond.symm) (hother x hx hxkey)
      · rcases Table.mem_overwrite.mp hy with ⟨hy,hykey⟩ | ⟨rfl,_⟩
        · exact absurd (hybond.trans hxbond.symm) (hother y hy hykey)
        · rfl
    · intro x hx hreserved
      rcases Table.mem_overwrite.mp hx with ⟨hx,hxkey⟩ | ⟨rfl,_⟩
      · obtain ⟨o,hxbond,hxheld⟩ := hs.reserved x hx hreserved
        have hne : o ≠ output := fun ho => hother x hx hxkey (hxbond.trans (congrArg some ho))
        exact ⟨o,hxbond,by rw [hheld,if_neg hne,hxheld]⟩
      · exact ⟨output,rfl,by rw [hheld,if_pos rfl]; rfl⟩
  · intro x hx hawaiting
    rcases Table.mem_overwrite.mp hx with ⟨hx,_⟩ | ⟨rfl,_⟩
    · exact hs.awaiting x hx hawaiting
    · cases hawaiting

theorem Accounted.release (hs : Accounted registrations held) (hr : r ∈ registrations.rows)
    (hreleased : ∀ o owner, held' o = some owner →
      held o = some owner ∧ ¬(r.bond = some o ∧ r.commitment = owner))
    (hkept : ∀ o, r.bond ≠ some o → held' o = held o) :
    Accounted (registrations.delete fun existing => decide (existing.key = r.key)) held' := by
  have hmem : ∀ x, x ∈ (registrations.delete fun existing => decide (existing.key = r.key)).rows ↔
      x ∈ registrations.rows ∧ x.key ≠ r.key := by
    intro x
    rw [Table.mem_delete,decide_eq_false_iff_not]
  constructor
  · constructor
    · intro o owner howner
      obtain ⟨howner,hnot⟩ := hreleased o owner howner
      obtain ⟨x,hx,hcommitment,hxbond⟩ := hs.owned o owner howner
      refine ⟨x,(hmem x).mpr ⟨hx,fun hkey => hnot ?_⟩,hcommitment,hxbond⟩
      rw [← registrations.eq_of_key hx hr hkey]
      exact ⟨hxbond,hcommitment⟩
    · intro x hx y hy
      exact hs.distinct x ((hmem x).mp hx).1 y ((hmem y).mp hy).1
    · intro x hx hreserved
      obtain ⟨hx,hkey⟩ := (hmem x).mp hx
      obtain ⟨o,hxbond,hxheld⟩ := hs.reserved x hx hreserved
      refine ⟨o,hxbond,?_⟩
      rw [hkept o fun hbond => hkey (congrArg _ (hs.distinct x hx r hr o hxbond hbond))]
      exact hxheld
  · intro x hx
    exact hs.awaiting x ((hmem x).mp hx).1

theorem Accounted.expire (hs : Accounted registrations held)
    (hexpired : ∀ o owner, held' o = some owner → held o = some owner)
    (hkept : ∀ r ∈ registrations.rows, r.phase = .bondReserved → ∀ o, r.bond = some o →
      held' o = held o) : Accounted registrations held' where
  owned o owner howner := hs.owned o owner (hexpired o owner howner)
  distinct := hs.distinct
  reserved r hr hphase := by
    obtain ⟨o,hbond,hheld⟩ := hs.reserved r hr hphase
    exact ⟨o,hbond,(hkept r hr hphase o hbond).trans hheld⟩
  awaiting := hs.awaiting

theorem sameBond_withAcceptedCommit (r : StoredRegistration) (reference : CommitRef) :
    SameBond r (r.withAcceptedCommit reference) := by
  have hphase : (r.withAcceptedCommit reference).phase =
      if r.revealTxid.isNone then .commitAccepted else r.phase := rfl
  refine ⟨rfl,rfl,rfl,fun h => ?_,fun h => ?_⟩ <;>
  · rw [hphase] at h
    split at h
    · cases h
    · exact h

theorem foldl_recordAcceptedCommit_sameBond (accepted : List (Bytes32 × CommitRef)) :
    List.Forall₂ SameBond registrations.rows
      (accepted.foldl recordAcceptedCommit registrations).rows := by
  induction accepted generalizing registrations with
  | nil => exact List.forall₂_same.mpr fun r _ => .refl r
  | cons entry accepted ih =>
    have hstep : List.Forall₂ SameBond registrations.rows
        (recordAcceptedCommit registrations entry).rows := by
      unfold recordAcceptedCommit
      split
      · exact List.forall₂_same.mpr fun r _ => .refl r
      · exact sameBond_overwrite (Table.find?_eq_some ‹_›).1 (sameBond_withAcceptedCommit _ _)
    exact forall₂_trans (S := SameBond) (fun _ _ _ => SameBond.trans) hstep ih

theorem sameBond_withPhaseAfterScan {parameters : NamesParameters} {tipHeight : Nat}
    (h : withPhaseAfterScan parameters tipHeight r = .ok r') : SameBond r r' := by
  obtain ⟨phase,hphase,rfl⟩ := withPhaseAfterScan_ok h
  refine ⟨rfl,rfl,rfl,fun h => ?_,fun h => ?_⟩ <;>
  · rcases phaseAfterScan_cases hphase with rfl | rfl | rfl
    · exact h
    · cases h
    · cases h

variable {stored stored' : StoredNamesWallet}

theorem persistAfterScan_accounted {parameters : NamesParameters} {tipHeight : Nat}
    {accepted : List (Bytes32 × CommitRef)}
    (h : persistAfterScan parameters tipHeight accepted stored = .ok stored')
    (hs : Accounted stored.registrations held) : Accounted stored'.registrations held := by
  obtain ⟨registrations,hregistrations,h⟩ := bind_ok h
  cases h
  refine hs.frame (forall₂_trans (S := SameBond) (fun _ _ _ => SameBond.trans)
    (foldl_recordAcceptedCommit_sameBond accepted) ?_)
  exact (Table.rewrite_ok hregistrations).imp fun _ _ => sameBond_withPhaseAfterScan

variable {sendFlowId : Text}

theorem recordCommitBroadcast_accounted {txid : Bytes32}
    (h : recordCommitBroadcast sendFlowId txid stored = .ok stored')
    (hs : Accounted stored.registrations held) : Accounted stored'.registrations held := by
  obtain ⟨r,hr,h⟩ := bind_ok h
  cases h
  refine hs.overwrite (Table.find?_eq_some (okOr_ok hr)).1 ⟨rfl,rfl,rfl,fun h => ?_,fun h => ?_⟩ <;>
    cases h

variable {accountUuid : Text}

theorem recordRevealBroadcast_accounted {name : Text} {txid : Bytes32}
    (h : recordRevealBroadcast accountUuid name txid stored = .ok stored')
    (hs : Accounted stored.registrations held) : Accounted stored'.registrations held := by
  obtain ⟨r,hr,h⟩ := bind_ok h
  cases h
  refine hs.overwrite (Table.get_eq_some.mp (okOr_ok hr)).1 ⟨rfl,rfl,rfl,fun h => ?_,fun h => ?_⟩ <;>
    cases h

theorem storeRegistration_accounted (h : storeRegistration r stored = .ok stored')
    (hs : Accounted stored.registrations held) (hbond : r.bond = none)
    (hphase : r.phase ≠ .bondReserved) : Accounted stored'.registrations held := by
  obtain ⟨registrations,hregistrations,h⟩ := bind_ok h
  cases h
  exact hs.insert (okOr_ok hregistrations) hbond hphase

theorem lt_bondExpiry {targetHeight : Nat} (parameters : NamesParameters) (window : Window)
    (h : targetHeight + 1 < u32Limit) : targetHeight < bondExpiry parameters targetHeight window := by
  unfold bondExpiry saturatingAddU32
  omega

variable {s : NamesState W}

theorem reserveBond_run (env : LifecycleEnv W Seed) (targetHeight : Nat)
    (hr : r ∈ s.sidecar.registrations.rows) :
    ((reserveBond env targetHeight r).run env.perform s).2 = s ∨
      ∃ output window wallet, r.needsBond = true ∧
        (r.bond = some output ∨ r.bond = none ∧
          selectBond env r.accountUuid targetHeight s.wallet = .ok (some output)) ∧
        env.lockOutputs output r.commitment (bondExpiry env.parameters targetHeight window)
          s.wallet = .ok wallet ∧
        (reserveBond env targetHeight r).run env.perform s =
          (.ok (),{ s with
            sidecar := { s.sidecar with
              registrations := s.sidecar.registrations.overwrite (r.withBond output) }
            wallet := wallet }) := by
  unfold reserveBond
  by_cases hneeds : r.needsBond = true
  · rw [if_pos hneeds,Program.run_bind,NamesProgram.ofWallet,Program.run_look]
    cases hselected : selectBond env r.accountUuid targetHeight s.wallet with
    | error e => exact .inl rfl
    | ok selected =>
      dsimp only
      cases hbond : r.bond.or selected with
      | none => exact .inl rfl
      | some output =>
        have hsource : r.bond = some output ∨ r.bond = none ∧ selected = some output := by
          cases h : r.bond with
          | none =>
            rw [h] at hbond
            exact .inr ⟨rfl,hbond⟩
          | some o =>
            rw [h] at hbond
            exact .inl hbond
        dsimp only
        unfold lockBond
        rw [Program.run_bind,NamesProgram.ofResult,Program.run_finish]
        cases hwindow : env.parameters.window r.name r.targetEpoch with
        | error e => exact .inl rfl
        | ok window =>
          dsimp only
          cases hlock : env.lockOutputs output r.commitment
              (bondExpiry env.parameters targetHeight window) s.wallet with
          | error e =>
            have hperform : env.perform (.lockOutputs output r.commitment
                (bondExpiry env.parameters targetHeight window)) s = .error e := by
              show s.onWallet _ = _
              rw [NamesState.onWallet,hlock]
              rfl
            refine .inl ?_
            rw [Program.run_bind,LifecycleEnv.act,Program.run_perform,hperform]
            exact Program.after_error hperform
          | ok wallet =>
            refine .inr ⟨output,window,wallet,hneeds,?_,hlock,?_⟩
            · exact hsource.imp_right fun h => ⟨h.1,congrArg _ h.2⟩
            · have hperform : env.perform (.lockOutputs output r.commitment
                  (bondExpiry env.parameters targetHeight window)) s =
                    .ok { s with wallet := wallet } := by
                show s.onWallet _ = _
                rw [NamesState.onWallet,hlock]
                rfl
              have hget : s.sidecar.registrations.get (r.withBond output).key = some r :=
                Table.get_eq_some.mpr ⟨hr,rfl⟩
              have hreplace : env.perform (.replaceRegistration (r.withBond output))
                  { s with wallet := wallet } = .ok { s with
                    sidecar := { s.sidecar with
                      registrations := s.sidecar.registrations.overwrite (r.withBond output) }
                    wallet := wallet } := by
                show NamesState.onSidecar _ _ = _
                rw [NamesState.onSidecar,replaceRegistration,hget]
                rfl
              rw [Program.run_bind,LifecycleEnv.act,Program.run_perform,hperform,
                Program.after_ok hperform]
              show (Program.perform env.perform _).run env.perform _ = _
              rw [Program.run_perform,hreplace,Program.after_ok hreplace]
              rfl
  · rw [if_neg hneeds]
    exact .inl rfl

/-- No turn that succeeds records a note that a registration records already. -/
def FreshSelections (env : LifecycleEnv W Seed) (targetHeight : Nat) :
    List StoredRegistration → NamesState W → Prop
  | [], _ => True
  | r :: registrations, s =>
    ∀ t, (reserveBond env targetHeight r).run env.perform s = (.ok (),t) →
      (r.needsBond = true → r.bond = none → ∀ output,
        selectBond env r.accountUuid targetHeight s.wallet = .ok (some output) →
          ∀ x ∈ s.sidecar.registrations.rows, x.bond ≠ some output) ∧
      FreshSelections env targetHeight registrations t

/-- The registrations and the locks of a state agree. -/
abbrev AccountedState (locks : BondLocks env) (s : NamesState W) : Prop :=
  Accounted s.sidecar.registrations (locks.held s.wallet)

theorem reserveBonds_accounted (locks : BondLocks env) {targetHeight : Nat}
    {registrations : List StoredRegistration} (hs : AccountedState locks s)
    (hrows : ∀ r ∈ registrations, r ∈ s.sidecar.registrations.rows)
    (hkeys : (registrations.map StoredRegistration.key).Nodup)
    (htarget : env.targetHeight s.wallet = .ok targetHeight)
    (hfresh : FreshSelections env targetHeight registrations s) :
    AccountedState locks ((reserveBonds env targetHeight registrations).run env.perform s).2 := by
  induction registrations generalizing s with
  | nil => exact hs
  | cons r registrations ih =>
    obtain ⟨hkey,hkeys⟩ := List.nodup_cons.mp hkeys
    have hr := hrows r List.mem_cons_self
    rw [reserveBonds,Program.run_bind]
    rcases reserveBond_run env targetHeight hr with
      hsame | ⟨output,window,wallet,hneeds,hsource,hlock,hrun⟩
    · cases hrun : (reserveBond env targetHeight r).run env.perform s with
      | mk result t =>
        rw [hrun] at hsame
        subst hsame
        cases result with
        | error e => exact hs
        | ok _ =>
          exact ih hs (fun x hx => hrows x (List.mem_cons_of_mem _ hx)) hkeys htarget
            (hfresh _ hrun).2
    · rw [hrun]
      have hbond : r.bond = some output ∨
          r.bond = none ∧ ∀ x ∈ s.sidecar.registrations.rows, x.bond ≠ some output :=
        hsource.imp_right fun h => ⟨h.1,(hfresh _ hrun).1 hneeds h.1 output h.2⟩
      have hheld := locks.locked hlock htarget
        (lt_bondExpiry env.parameters window (locks.targetHeight_lt htarget))
      refine ih (hs.reserve hr hbond hheld) (fun x hx => ?_) hkeys
        ((locks.locked_targetHeight hlock).trans htarget) (hfresh _ hrun).2
      refine Table.mem_overwrite.mpr (.inl ⟨hrows x (List.mem_cons_of_mem _ hx),fun hxkey => ?_⟩)
      exact hkey (hxkey ▸ List.mem_map_of_mem hx)

/-- The reservation, when it runs now. -/
def FreshReservation (env : LifecycleEnv W Seed) (s : NamesState W) : Prop :=
  ∀ targetHeight, env.targetHeight s.wallet = .ok targetHeight →
    FreshSelections env targetHeight s.sidecar.registrations.rows { s with walletLocked := true }

/-- The registrations and the locks agree, and no one holds the lock of the wallet database. -/
def Settled (locks : BondLocks env) (s : NamesState W) : Prop :=
  AccountedState locks s ∧ s.walletLocked = false

theorem reservePendingBonds_settled (locks : BondLocks env) :
    Program.Triple env.perform (fun s => Settled locks s ∧ FreshReservation env s)
      (reservePendingBonds env) (fun _ => Settled locks) (Settled locks) := by
  refine Program.triple_of_last fun s hs => ?_
  obtain ⟨⟨haccounted,hunlocked⟩,hfresh⟩ := hs
  rw [reservePendingBonds,run_withWalletDbWriteLock _ hunlocked]
  refine ⟨?_,rfl⟩
  show AccountedState locks
    ((reservePendingBondsLocked env).run env.perform { s with walletLocked := true }).2
  rw [reservePendingBondsLocked,Program.run_bind,NamesProgram.stored,Program.run_look]
  dsimp only
  rw [Program.run_bind,NamesProgram.ofWallet,Program.run_look]
  cases htarget : env.targetHeight s.wallet with
  | error e => exact haccounted
  | ok targetHeight =>
    exact reserveBonds_accounted locks (s := { s with walletLocked := true }) haccounted
      (fun _ hr => hr) s.sidecar.registrations.keys_nodup htarget (hfresh targetHeight htarget)

variable {locks : BondLocks env}

theorem act_replaceRegistration_settled (h : SameBond r r') :
    Program.Triple env.perform (fun s => Settled locks s ∧ r ∈ s.sidecar.registrations.rows)
      (env.act (.replaceRegistration r')) (fun _ => Settled locks) (Settled locks) := by
  refine Program.triple_perform (fun s t hs hperform => ?_) fun _ hs => hs.1
  obtain ⟨sidecar,hsidecar,rfl⟩ := onSidecar_ok hperform
  obtain ⟨x,_,_,hrows⟩ := replaceRegistration_rows hsidecar
  refine ⟨?_,hs.1.2⟩
  show Accounted sidecar.registrations _
  rw [hrows]
  exact hs.1.1.overwrite hs.2 h

theorem retargetDraft_settled (locks : BondLocks env) (accountUuid name : Text) (seed : Seed)
    (nextHeight : Nat) :
    Program.Triple env.perform (Settled locks)
      (retargetDraft env accountUuid name seed nextHeight) (fun _ => Settled locks)
      (Settled locks) := by
  refine (draftRegistration_spec accountUuid name _ fun _ hs => hs).bind fun r => ?_
  split
  · rename_i hphase
    refine (triple_ofResult _ fun _ hs => hs.1).bind fun delayedCommitHeight => ?_
    refine (triple_ofResult _ fun _ hs => hs.1.1).bind fun target => ?_
    refine (triple_ofResult _ fun _ hs => hs.1.1.1).bind fun prepared => ?_
    refine Program.triple_perform (fun s t hs h => ?_) fun _ hs => hs.1.1.1.1
    obtain ⟨⟨⟨⟨hsettled,hr⟩,_⟩,_⟩,_⟩ := hs
    obtain ⟨sidecar,hsidecar,rfl⟩ := onSidecar_ok h
    obtain ⟨x,_,_,hrows⟩ := replaceRegistration_rows hsidecar
    have hmem := (Table.get_eq_some.mp hr).1
    have hbond := hsettled.1.awaiting r hmem hphase
    refine ⟨?_,hsettled.2⟩
    show Accounted sidecar.registrations _
    rw [hrows]
    refine hsettled.1.unbond hmem rfl (fun output houtput => ?_) hbond ?_
    · rw [hbond] at houtput
      cases houtput
    · show r.phase ≠ .bondReserved
      rw [hphase]
      decide
  · exact Program.triple_pure fun _ hs => hs.1

/-- A draft drops no locked note, and the reservation that follows it is fresh. -/
def DraftKeepsBonds (locks : BondLocks env) (accountUuid name paymentAddress : Text) (seed : Seed)
    (s : NamesState W) : Prop :=
  ∀ drafted t, (storeRegistrationDraft env accountUuid name paymentAddress seed).run env.perform s =
      (.ok drafted,t) →
    (∀ r, registration s.sidecar accountUuid drafted.1 = some r → ∀ output,
      r.bond = some output → locks.held s.wallet output ≠ some r.commitment) ∧
    FreshReservation env t

theorem prepareRegistrationDraft_settled {name paymentAddress : Text} {seed : Seed}
    (hs : Settled locks s)
    (hkeeps : DraftKeepsBonds locks accountUuid name paymentAddress seed s) :
    Settled locks
      ((prepareRegistrationDraft env accountUuid name paymentAddress seed).run env.perform s).2 := by
  rw [prepareRegistrationDraft,Program.run_bind]
  have hspec := storeRegistrationDraft_spec env accountUuid name paymentAddress seed s s rfl
  cases hrun : (storeRegistrationDraft env accountUuid name paymentAddress seed).run env.perform s with
  | mk result t =>
    rw [hrun] at hspec
    cases result with
    | error e =>
      cases hspec
      exact hs
    | ok drafted =>
      obtain ⟨hfree,hfresh⟩ := hkeeps drafted t hrun
      obtain ⟨draft,hdraft⟩ := hspec
      have hphase : draft.phase ≠ .bondReserved := by
        rw [hdraft.phase]
        decide
      have ht : Settled locks t := by
        obtain ⟨sidecar,rfl,hstored | ⟨hreplaced,_⟩⟩ := hdraft.stored
        · exact ⟨storeRegistration_accounted hstored hs.1 hdraft.bond hphase,hs.2⟩
        · obtain ⟨x,hx,hkey,hrows⟩ := replaceRegistration_rows hreplaced
          have hget := Table.get_eq_some.mpr ⟨hx,hkey.trans hdraft.key⟩
          refine ⟨?_,hs.2⟩
          show Accounted sidecar.registrations _
          rw [hrows]
          exact hs.1.unbond hx hkey.symm (hfree x hget) hdraft.bond hphase
      exact ((reservePendingBonds_settled locks).bind fun _ =>
        retargetDraft_settled locks _ _ _ _).last ⟨ht,hfresh⟩

theorem sameBond_phase (r : StoredRegistration) {phase : RegistrationPhase}
    (hreserved : phase ≠ .bondReserved) (hawaiting : phase ≠ .awaitingBond) :
    SameBond r { r with phase := phase } :=
  ⟨rfl,rfl,rfl,fun h => absurd h hreserved,fun h => absurd h hawaiting⟩

theorem missRegistration_settled {phase : RegistrationPhase} (e : String)
    (hreserved : phase ≠ .bondReserved) (hawaiting : phase ≠ .awaitingBond) :
    Program.Triple env.perform (fun s => Settled locks s ∧ r ∈ s.sidecar.registrations.rows)
      (missRegistration env r phase e) (fun _ => Settled locks) (Settled locks) :=
  (act_replaceRegistration_settled (sameBond_phase r hreserved hawaiting)).bind fun _ =>
    triple_fail e fun _ hs => hs

theorem proposeCommit_settled (accountUuid sendFlowId name : Text) (seed : Seed) :
    Program.Triple env.perform (fun s => Settled locks s ∧ r ∈ s.sidecar.registrations.rows)
      (proposeCommit env accountUuid sendFlowId name seed r) (fun _ => Settled locks)
      (Settled locks) := by
  refine (triple_ofResult _ fun _ hs => hs.1).bind fun prepared => Program.triple_assume fun _ => ?_
  split
  · exact triple_fail _ fun _ hs => hs.1
  · have hproposed : SameBond r
        { r with sendFlowId := some sendFlowId, phase := .commitProposed } := by
      refine ⟨rfl,rfl,rfl,fun h => ?_,fun h => ?_⟩ <;> cases h
    refine Program.Triple.bind (Program.triple_perform (fun s t hs h => ?_) fun _ hs => hs.1)
      fun _ => act_replaceRegistration_settled hproposed
    obtain ⟨wallet,hwallet,rfl⟩ := onWallet_ok h
    refine ⟨⟨?_,hs.1.2⟩,hs.2⟩
    show Accounted _ (locks.held wallet)
    rw [locks.proposed hwallet]
    exact hs.1.1

theorem commitWithinWindow_settled (accountUuid sendFlowId name : Text) (seed : Seed)
    (commitHeight : Nat) :
    Program.Triple env.perform (fun s => Settled locks s ∧ r ∈ s.sidecar.registrations.rows)
      (commitWithinWindow env accountUuid sendFlowId name seed r commitHeight)
      (fun _ => Settled locks) (Settled locks) := by
  refine (triple_ofResult _ fun _ hs => hs.1).bind fun window => Program.triple_assume fun _ => ?_
  split
  · exact missRegistration_settled _ (by decide) (by decide)
  · split
    · exact triple_fail _ fun _ hs => hs.1
    · split
      · exact proposeCommit_settled _ _ _ _
      · split
        · exact triple_fail _ fun _ hs => hs.1
        · exact missRegistration_settled _ (by decide) (by decide)

/-- The reservation that a proposal makes for a draft without a bond is fresh. -/
def BeginKeepsBonds (env : LifecycleEnv W Seed) (accountUuid name : Text) (s : NamesState W) :
    Prop :=
  ∀ canonical r, env.canonicalRegistrationName name = .ok canonical →
    registration s.sidecar accountUuid canonical = some r → r.phase = .awaitingBond →
      FreshReservation env s

theorem beginRegistration_settled (locks : BondLocks env)
    (accountUuid sendFlowId name paymentAddress : Text) (seed : Seed) :
    Program.Triple env.perform (fun s => Settled locks s ∧ BeginKeepsBonds env accountUuid name s)
      (beginRegistration env accountUuid sendFlowId name paymentAddress seed)
      (fun _ => Settled locks) (Settled locks) := by
  refine (triple_ofWallet _ fun _ hs => hs.1).bind fun tipHeight => ?_
  refine (triple_ofResult _ fun _ hs => hs.1.1).bind fun canonical => ?_
  refine Program.triple_assume fun hname => ?_
  have hreserved : Program.Triple env.perform
      (fun s => (Settled locks s ∧ BeginKeepsBonds env accountUuid name s) ∧
        env.lifecycleTip s.wallet = .ok tipHeight)
      (reservedDraft env accountUuid canonical)
      (fun r s => Settled locks s ∧ r ∈ s.sidecar.registrations.rows) (Settled locks) := by
    refine (draftRegistration_spec accountUuid canonical _ fun _ hs => hs.1.1).bind fun r => ?_
    split
    · rename_i hphase
      refine ((reservePendingBonds_settled locks).mono
        (fun s hs => ⟨hs.1.1.1,hs.1.1.2 canonical r hname hs.2 hphase⟩) (fun _ _ hs => hs)
        fun _ hs => hs).bind fun _ => ?_
      exact (draftRegistration_spec accountUuid canonical _ fun _ hs => hs).mono (fun _ hs => hs)
        (fun r s hs => ⟨hs.1,(Table.get_eq_some.mp hs.2).1⟩) fun _ hs => hs
    · exact Program.triple_pure fun s hs => ⟨hs.1.1.1,(Table.get_eq_some.mp hs.2).1⟩
  refine hreserved.bind fun r => ?_
  split
  · exact triple_fail _ fun _ hs => hs.1
  · refine (triple_ofResult _ fun _ hs => hs.1).bind fun ua => Program.triple_assume fun _ => ?_
    split
    · exact triple_fail _ fun _ hs => hs.1
    · refine (triple_ofResult _ fun _ hs => hs.1).bind fun commitHeight =>
        Program.triple_assume fun _ => ?_
      exact commitWithinWindow_settled _ _ _ _ _

/-- The lock of a registration that is removed can be released. -/
def Releases (locks : BondLocks env) (r : StoredRegistration) (s : NamesState W) : Prop :=
  ∀ output, r.bond = some output → locks.held s.wallet output = some r.commitment →
    ∃ wallet, env.unlockOutput output r.commitment s.wallet = .ok wallet

theorem removeRegistration_settled (hs : Settled locks s) (hr : r ∈ s.sidecar.registrations.rows)
    (hreleases : Releases locks r s) {output : OutputRef} (hbond : r.bond = some output) :
    AccountedState locks (Program.after env.perform (some (.unlockOutput output r.commitment))
      { s with sidecar := removeRegistration r s.sidecar, walletLocked := true }) := by
  have hother : ∀ o, r.bond ≠ some o → o ≠ output := by
    intro o ho hoeq
    exact ho (hoeq ▸ hbond)
  cases hunlock : env.unlockOutput output r.commitment s.wallet with
  | ok wallet =>
    have hperform : env.perform (.unlockOutput output r.commitment)
        { s with sidecar := removeRegistration r s.sidecar, walletLocked := true } =
          .ok { s with
            sidecar := removeRegistration r s.sidecar, wallet := wallet, walletLocked := true } := by
      show NamesState.onWallet _ _ = _
      rw [NamesState.onWallet,hunlock]
      rfl
    rw [Program.after_ok hperform]
    refine hs.1.release hr (fun o owner howner => ?_) fun o ho => ?_
    · rw [locks.unlocked hunlock] at howner
      split at howner
      · cases howner
      · rename_i hnot
        refine ⟨howner,fun ⟨hro,hcommitment⟩ => hnot ?_⟩
        have ho : o = output := Option.some.inj (hro.symm.trans hbond)
        exact ⟨ho,by rw [← ho,howner,hcommitment]⟩
    · rw [locks.unlocked hunlock,if_neg fun h => hother o ho h.1]
  | error e =>
    have hperform : env.perform (.unlockOutput output r.commitment)
        { s with sidecar := removeRegistration r s.sidecar, walletLocked := true } = .error e := by
      show NamesState.onWallet _ _ = _
      rw [NamesState.onWallet,hunlock]
      rfl
    rw [Program.after_error hperform]
    refine hs.1.release hr (fun o owner howner => ⟨howner,fun ⟨hro,hcommitment⟩ => ?_⟩)
      fun _ _ => rfl
    -- the lock was not held, or it could have been released
    have ho : o = output := Option.some.inj (hro.symm.trans hbond)
    obtain ⟨wallet,hwallet⟩ := hreleases output hbond (by rw [← ho,howner,hcommitment])
    rw [hunlock] at hwallet
    cases hwallet

theorem removeUnbonded_settled (hs : Settled locks s) (hr : r ∈ s.sidecar.registrations.rows)
    (hbond : r.bond = none) :
    Settled locks { s with sidecar := removeRegistration r s.sidecar } := by
  refine ⟨hs.1.release hr (fun o owner howner => ⟨howner,fun ⟨hro,_⟩ => ?_⟩) fun _ _ => rfl,hs.2⟩
  rw [hbond] at hro
  cases hro

theorem takeCancelledRegistration_some
    (h : (takeCancelledRegistration sendFlowId stored).1 = some r) :
    r ∈ stored.registrations.rows ∧
      (takeCancelledRegistration sendFlowId stored).2 = removeRegistration r stored := by
  unfold takeCancelledRegistration at h ⊢
  split at h
  · cases h
  · rename_i x hx
    cases h
    exact ⟨(Table.find?_eq_some hx).1,rfl⟩

theorem takeCancelledRegistration_none
    (h : (takeCancelledRegistration sendFlowId stored).1 = none) :
    (takeCancelledRegistration sendFlowId stored).2 = stored := by
  unfold takeCancelledRegistration at h ⊢
  split at h
  · rfl
  · cases h

theorem cancelRegistrationProposal_settled (hs : Settled locks s)
    (hreleases : ∀ r, (takeCancelledRegistration sendFlowId s.sidecar).1 = some r →
      Releases locks r s) :
    Settled locks ((cancelRegistrationProposal env sendFlowId).run env.perform s).2 := by
  have htake : (takeCancelled sendFlowId).run env.perform s =
      (.ok (takeCancelledRegistration sendFlowId s.sidecar).1,
        { s with sidecar := (takeCancelledRegistration sendFlowId s.sidecar).2 }) := rfl
  rw [cancelRegistrationProposal,Program.run_bind,htake]
  cases htaken : (takeCancelledRegistration sendFlowId s.sidecar).1 with
  | none =>
    rw [takeCancelledRegistration_none htaken]
    exact hs
  | some r =>
    obtain ⟨hr,hremoved⟩ := takeCancelledRegistration_some htaken
    rw [hremoved]
    dsimp only
    cases hbond : r.bond with
    | none => exact removeUnbonded_settled hs hr hbond
    | some output =>
      dsimp only
      rw [run_withWalletDbWriteLock _ (s := { s with sidecar := removeRegistration r s.sidecar }) hs.2]
      exact ⟨removeRegistration_settled hs hr (hreleases r htaken) hbond,rfl⟩

theorem discardRegistrationWorkflow_settled {name : Text} (hs : Settled locks s)
    (hreleases : ∀ canonical r, env.canonicalRegistrationName name = .ok canonical →
      registration s.sidecar accountUuid canonical = some r → r.phase.discardable = true →
        Releases locks r s) :
    Settled locks ((discardRegistrationWorkflow env accountUuid name).run env.perform s).2 := by
  rw [discardRegistrationWorkflow,Program.run_bind,NamesProgram.ofResult,Program.run_finish]
  cases hname : env.canonicalRegistrationName name with
  | error e => exact hs
  | ok canonical =>
    dsimp only
    rw [Program.run_bind,NamesProgram.stored,Program.run_look]
    dsimp only
    cases hget : registration s.sidecar accountUuid canonical with
    | none => exact hs
    | some r =>
      dsimp only
      cases hphase : r.phase.discardable with
      | false => exact hs
      | true =>
        have hr := (Table.get_eq_some.mp hget).1
        have htake : (takeWorkflow accountUuid canonical).run env.perform s =
            (.ok (some r),{ s with sidecar := removeRegistration r s.sidecar }) := by
          have hworkflow : takeRegistrationWorkflow accountUuid canonical s.sidecar =
              (some r,removeRegistration r s.sidecar) := by
            rw [takeRegistrationWorkflow]
            rw [registration] at hget
            rw [hget]
          show (Except.ok (takeRegistrationWorkflow accountUuid canonical s.sidecar).1,
            ({ s with sidecar := (takeRegistrationWorkflow accountUuid canonical s.sidecar).2 } :
              NamesState W)) = _
          rw [hworkflow]
        rw [if_neg (by simp),Program.run_bind,htake]
        dsimp only
        rw [Program.run_bind,NamesProgram.ofResult,okOr,Program.run_finish]
        dsimp only
        cases hbond : r.bond with
        | none => exact removeUnbonded_settled hs hr hbond
        | some output =>
          dsimp only
          rw [run_withWalletDbWriteLock _
            (s := { s with sidecar := removeRegistration r s.sidecar }) hs.2]
          exact ⟨removeRegistration_settled hs hr (hreleases canonical r hname hget hphase) hbond,
            rfl⟩

theorem recoverRegistration_settled (locks : BondLocks env) (accountUuid name : Text)
    (seed : Seed) :
    Program.Triple env.perform (Settled locks) (recoverRegistration env accountUuid name seed)
      (fun _ => Settled locks) (Settled locks) := by
  refine (triple_ofResult _ fun _ hs => hs).bind fun canonical => ?_
  refine Program.triple_assume fun _ => triple_stored.bind fun stored => ?_
  split
  · exact triple_fail _ fun _ hs => hs.1
  · have hresolve : Program.Triple env.perform (Settled locks) (env.act (.resolveName canonical))
        (fun _ => Settled locks) (Settled locks) := by
      refine Program.triple_perform (fun s t hs h => ?_) fun _ hs => hs
      obtain ⟨wallet,hwallet,rfl⟩ := onWallet_ok h
      refine ⟨?_,hs.2⟩
      show Accounted _ (locks.held wallet)
      rw [locks.resolved hwallet]
      exact hs.1
    have hhead : Program.Triple env.perform (Settled locks)
        (NamesProgram.ofWallet fun wallet =>
          env.acceptedManagedResolution canonical wallet >>= recoverableHead)
        (fun resolved s => Settled locks s ∧ resolved.1.removable = false) (Settled locks) := by
      refine Program.triple_look (fun resolved s hs h => ?_) fun _ hs => hs
      obtain ⟨_,_,h⟩ := bind_ok h
      exact ⟨hs,recoverableHead_phase h⟩
    refine (triple_ofWallet _ fun _ hs => hs.1).bind fun _ => ?_
    refine (hresolve.mono (fun _ hs => hs.1.1) (fun _ _ hs => hs) fun _ hs => hs).bind fun _ => ?_
    refine hhead.bind fun resolved => Program.triple_assume fun hphase => ?_
    refine (triple_ofResult _ fun _ hs => hs).bind fun recovered => Program.triple_assume fun _ => ?_
    split
    · exact triple_fail _ fun _ hs => hs
    · have hmark : Program.Triple env.perform (Settled locks)
          (env.act (.markRecoveredNamesBond resolved.2.1.producer resolved.2.2.2
            resolved.2.1.commitment)) (fun _ => Settled locks) (Settled locks) := by
        refine Program.triple_perform (fun s t hs h => ?_) fun _ hs => hs
        obtain ⟨wallet,hwallet,rfl⟩ := onWallet_ok h
        refine ⟨?_,hs.2⟩
        show Accounted _ (locks.held wallet)
        rw [locks.marked hwallet]
        exact hs.1
      refine hmark.bind fun _ => Program.triple_perform (fun s t hs h => ?_) fun _ hs => hs
      obtain ⟨sidecar,hsidecar,rfl⟩ := onSidecar_ok h
      refine ⟨storeRegistration_accounted (storeRecoveredRegistration_ok hsidecar) hs.1 rfl
        fun hreserved => ?_,hs.2⟩
      change resolved.1 = .bondReserved at hreserved
      rw [hreserved] at hphase
      cases hphase

/-- The condition on an operation under which the bonds stay accounted for. -/
def KeepsBonds (locks : BondLocks env) (operation : NamesOperation W Seed) (s : NamesState W) :
    Prop :=
  match operation with
  | .prepareRegistrationDraft accountUuid name paymentAddress seed =>
    DraftKeepsBonds locks accountUuid name paymentAddress seed s
  | .reservePendingBonds => FreshReservation env s
  | .beginRegistration accountUuid _ name _ _ => BeginKeepsBonds env accountUuid name s
  | .cancelRegistrationProposal sendFlowId =>
    ∀ r, (takeCancelledRegistration sendFlowId s.sidecar).1 = some r → Releases locks r s
  | .discardRegistrationWorkflow accountUuid name =>
    ∀ canonical r, env.canonicalRegistrationName name = .ok canonical →
      registration s.sidecar accountUuid canonical = some r → r.phase.discardable = true →
        Releases locks r s
  | .environment wallet =>
    (∀ output owner, locks.held wallet output = some owner →
      locks.held s.wallet output = some owner) ∧
    ∀ r ∈ s.sidecar.registrations.rows, r.phase = .bondReserved → ∀ output,
      r.bond = some output → locks.held wallet output = locks.held s.wallet output
  | _ => True

theorem NamesOperation.apply_settled {operation : NamesOperation W Seed} {t : NamesState W}
    (h : operation.apply env s = .ok t) (hs : Settled locks s)
    (hkeeps : KeepsBonds locks operation s) : Settled locks t := by
  cases h
  cases operation with
  | prepareRegistrationDraft => exact prepareRegistrationDraft_settled hs hkeeps
  | reservePendingBonds => exact (reservePendingBonds_settled locks).last ⟨hs,hkeeps⟩
  | beginRegistration => exact (beginRegistration_settled locks _ _ _ _ _).last ⟨hs,hkeeps⟩
  | cancelRegistrationProposal => exact cancelRegistrationProposal_settled hs hkeeps
  | discardRegistrationWorkflow => exact discardRegistrationWorkflow_settled hs hkeeps
  | recoverRegistration => exact (recoverRegistration_settled locks _ _ _).last hs
  | recordCommitBroadcast sendFlowId txid =>
    refine Program.after_invariant (fun t h => ?_) hs
    obtain ⟨sidecar,hsidecar,rfl⟩ := onSidecar_ok h
    exact ⟨recordCommitBroadcast_accounted hsidecar hs.1,hs.2⟩
  | recordRevealBroadcast accountUuid name txid =>
    refine Program.after_invariant (fun t h => ?_) hs
    obtain ⟨sidecar,hsidecar,rfl⟩ := onSidecar_ok h
    exact ⟨recordRevealBroadcast_accounted hsidecar hs.1,hs.2⟩
  | persistAfterScan tipHeight accepted =>
    refine Program.after_invariant (fun t h => ?_) hs
    obtain ⟨sidecar,hsidecar,rfl⟩ := onSidecar_ok h
    exact ⟨persistAfterScan_accounted hsidecar hs.1,hs.2⟩
  | environment wallet => exact ⟨hs.1.expire hkeeps.1 hkeeps.2,hs.2⟩

def missingName : ManagedResolution := ⟨['n'],.missing,none,none,none⟩

/-- A wallet with one note that is worth a bond; its state is the table of its locks. -/
def oneNoteEnv : LifecycleEnv (OutputRef → Option Bytes32) Unit where
  parameters := thousandBlockEpochs
  canonicalRegistrationName := .ok
  canonicalUa := .ok
  prepareCommit _ _ revealHeight := .ok ⟨0,BitVec.ofNat 256 revealHeight⟩
  recoverCurrentBond _ _ _ := .ok (5,6)
  lifecycleTip _ := .ok 160
  acceptedManagedResolution _ _ := .ok (some missingName)
  targetHeight _ := .ok 161
  unspentIronwoodNotes _ _ _ := .ok [⟨1,0⟩]
  spendableNote output _ locks := if locks output = none then some requiredBondZatoshis else none
  lockOutputs output owner _ locks := .ok fun o => if o = output then some owner else locks o
  unlockOutput output owner locks :=
    .ok fun o => if o = output ∧ locks output = some owner then none else locks o
  proposeSend _ _ locks := .ok locks
  recoverableAccount _ _ := .ok ()
  resolveName _ locks := .ok locks
  markRecoveredNamesBond _ _ _ locks := .ok locks

def oneNoteLocks : BondLocks oneNoteEnv where
  held := id
  locked := by
    intro output owner expiry targetHeight wallet wallet' h _ _ o
    cases h
    rfl
  locked_targetHeight _ := rfl
  unlocked := by
    intro output owner wallet wallet' h o
    cases h
    rfl
  spendable := by
    intro output targetHeight wallet value _ h
    change (if wallet output = none then _ else _) = _ at h
    split at h
    · rename_i hfree
      exact hfree
    · cases h
  targetHeight_lt := by
    intro targetHeight wallet h
    cases h
    decide
  proposed h := by
    cases h
    rfl
  resolved h := by
    cases h
    rfl
  marked h := by
    cases h
    rfl

def noBonds : NamesState (OutputRef → Option Bytes32) := ⟨⟨Table.empty,[]⟩,fun _ => none,false⟩

def draftName : NamesOperation (OutputRef → Option Bytes32) Unit :=
  .prepareRegistrationDraft ['a'] ['n'] ['u'] ()

theorem noBonds_settled : Settled oneNoteLocks noBonds := by
  refine ⟨⟨⟨fun _ _ h => ?_,fun _ h => ?_,fun _ h => ?_⟩,fun _ h => ?_⟩,rfl⟩ <;> cases h

end CoppiceWallet.Names
