import CoppiceWallet.Names.Lifecycle

/-! # One registration under the actions of the lifecycle -/

namespace CoppiceWallet.Names

open CoppiceWallet.Lib CoppiceWallet.Store

variable {W Seed : Type} {env : LifecycleEnv W Seed} {key : Text × Text}
  {P : StoredRegistration → Prop} {stored stored' : StoredNamesWallet}

variable {r : StoredRegistration}

theorem storeRegistration_holds (h : storeRegistration r stored = .ok stored')
    (hs : stored.registrations.Holds key P) : stored'.registrations.Holds key P := by
  obtain ⟨registrations,hregistrations,h⟩ := bind_ok h
  cases h
  exact hs.insert (okOr_ok hregistrations)

theorem storeRecoveredRegistration_ok (h : storeRecoveredRegistration r stored = .ok stored') :
    storeRegistration r stored = .ok stored' := by
  unfold storeRecoveredRegistration at h
  split at h
  · split at h <;> cases h
  · exact h

theorem replaceRegistration_rows (h : replaceRegistration r stored = .ok stored') :
    ∃ x ∈ stored.registrations.rows, x.key = r.key ∧
      stored'.registrations = stored.registrations.overwrite r := by
  unfold replaceRegistration at h
  split at h
  · cases h
  · rename_i x hx
    cases h
    obtain ⟨hx,hkey⟩ := Table.get_eq_some.mp hx
    exact ⟨x,hx,hkey,rfl⟩

theorem replaceRegistration_holds (h : replaceRegistration r stored = .ok stored')
    (hs : stored.registrations.Holds key P) (hr : r.key = key → P r) :
    stored'.registrations.Holds key P := by
  obtain ⟨_,_,_,hrows⟩ := replaceRegistration_rows h
  rw [hrows]
  exact hs.overwrite hr

theorem removeRegistration_holds (hs : stored.registrations.Holds key P) (hr : r.key ≠ key) :
    (removeRegistration r stored).registrations.Holds key P :=
  hs.delete fun _ _ hx => decide_eq_false fun hkey => hr (hkey.symm.trans hx)

theorem takeCancelledRegistration_holds (sendFlowId : Text)
    (hs : stored.registrations.Holds key P) (hP : ∀ r, P r → r.phase ≠ .commitProposed) :
    (takeCancelledRegistration sendFlowId stored).2.registrations.Holds key P := by
  unfold takeCancelledRegistration
  split
  · exact hs
  · rename_i r hr
    obtain ⟨hmem,hproposed⟩ := Table.find?_eq_some hr
    rw [Bool.and_eq_true,decide_eq_true_iff,decide_eq_true_iff] at hproposed
    exact removeRegistration_holds hs fun hkey => hP r (hs.of_mem hmem hkey) hproposed.2

theorem takeRegistrationWorkflow_holds {accountUuid name : Text}
    (hs : stored.registrations.Holds key P) (hkey : (accountUuid,name) ≠ key) :
    (takeRegistrationWorkflow accountUuid name stored).2.registrations.Holds key P := by
  unfold takeRegistrationWorkflow
  split
  · exact hs
  · rename_i r hr
    exact removeRegistration_holds hs ((Table.get_eq_some.mp hr).2 ▸ hkey)

theorem recordCommitBroadcast_holds {sendFlowId : Text} {txid : Bytes32}
    (h : recordCommitBroadcast sendFlowId txid stored = .ok stored')
    (hs : stored.registrations.Holds key P)
    (hP : ∀ r ∈ stored.registrations.rows, r.key = key → r.sendFlowId = some sendFlowId →
      P (r.withCommitBroadcast txid)) : stored'.registrations.Holds key P := by
  obtain ⟨r,hr,h⟩ := bind_ok h
  cases h
  obtain ⟨hmem,hflow⟩ := Table.find?_eq_some (okOr_ok hr)
  exact hs.overwrite fun hkey => hP r hmem hkey (of_decide_eq_true hflow)

theorem recordRevealBroadcast_holds {accountUuid name : Text} {txid : Bytes32}
    (h : recordRevealBroadcast accountUuid name txid stored = .ok stored')
    (hs : stored.registrations.Holds key P)
    (hP : ∀ r ∈ stored.registrations.rows, r.key = key → (accountUuid,name) = key →
      P (r.withRevealBroadcast txid)) : stored'.registrations.Holds key P := by
  obtain ⟨r,hr,h⟩ := bind_ok h
  cases h
  obtain ⟨hmem,hrkey⟩ := Table.get_eq_some.mp (okOr_ok hr)
  exact hs.overwrite fun hkey => hP r hmem hkey (hrkey.symm.trans hkey)

theorem foldl_recordAcceptedCommit_holds {accepted : List (Bytes32 × CommitRef)}
    {registrations : Registrations} (hs : registrations.Holds key P)
    (hP : ∀ entry ∈ accepted, ∀ r, r.key = key → r.commitment = entry.1 → P r →
      P (r.withAcceptedCommit entry.2)) :
    (accepted.foldl recordAcceptedCommit registrations).Holds key P := by
  induction accepted generalizing registrations with
  | nil => exact hs
  | cons entry accepted ih =>
    refine ih ?_ fun e he => hP e (List.mem_cons_of_mem _ he)
    unfold recordAcceptedCommit
    split
    · exact hs
    · rename_i r hr
      obtain ⟨hmem,hcommitment⟩ := Table.find?_eq_some hr
      exact hs.overwrite fun hkey => hP entry List.mem_cons_self r hkey
        (of_decide_eq_true hcommitment) (hs.of_mem hmem hkey)

theorem phaseAfterScan_cases {parameters : NamesParameters} {tipHeight : Nat}
    {phase : RegistrationPhase} (h : phaseAfterScan parameters tipHeight r = .ok phase) :
    phase = r.phase ∨ phase = .commitExpired ∨ phase = .windowMissed := by
  unfold phaseAfterScan at h
  split at h
  · exact .inl (Except.ok.inj h).symm
  · split at h
    · exact .inr (.inl (Except.ok.inj h).symm)
    · obtain ⟨window,_,h⟩ := bind_ok h
      split at h
      · exact .inr (.inr (Except.ok.inj h).symm)
      · exact .inl (Except.ok.inj h).symm

theorem persistAfterScan_holds {parameters : NamesParameters} {tipHeight : Nat}
    {accepted : List (Bytes32 × CommitRef)} {P' : StoredRegistration → Prop}
    (h : persistAfterScan parameters tipHeight accepted stored = .ok stored')
    (hs : (accepted.foldl recordAcceptedCommit stored.registrations).Holds key P)
    (hP : ∀ r phase, (accepted.foldl recordAcceptedCommit stored.registrations).get key = some r →
      P r → phaseAfterScan parameters tipHeight r = .ok phase → P' { r with phase := phase }) :
    stored'.registrations.Holds key P' := by
  obtain ⟨registrations,hregistrations,h⟩ := bind_ok h
  cases h
  refine hs.rewrite hregistrations fun r r' hr hPr hr' => ?_
  obtain ⟨phase,hphase,rfl⟩ := withPhaseAfterScan_ok hr'
  exact hP r phase hr hPr hphase

/-- What an action writes over the registration satisfies `P`. -/
def WritesHold (env : LifecycleEnv W Seed) (key : Text × Text) (P : StoredRegistration → Prop)
    (s : NamesState W) : NamesAction W → Prop
  | .replaceRegistration r => r.key = key → P r
  | .takeCancelledRegistration _ => ∀ r, P r → r.phase ≠ .commitProposed
  | .takeRegistrationWorkflow accountUuid name => (accountUuid,name) ≠ key
  | .recordCommitBroadcast sendFlowId txid =>
    ∀ r ∈ s.sidecar.registrations.rows, r.key = key → r.sendFlowId = some sendFlowId →
      P (r.withCommitBroadcast txid)
  | .recordRevealBroadcast accountUuid name txid =>
    ∀ r ∈ s.sidecar.registrations.rows, r.key = key → (accountUuid,name) = key →
      P (r.withRevealBroadcast txid)
  | .persistAfterScan tipHeight accepted =>
    (∀ entry ∈ accepted, ∀ r, r.key = key → r.commitment = entry.1 → P r →
      P (r.withAcceptedCommit entry.2)) ∧
    ∀ r phase,
      (accepted.foldl recordAcceptedCommit s.sidecar.registrations).get key = some r → P r →
        phaseAfterScan env.parameters tipHeight r = .ok phase → P { r with phase := phase }
  | _ => True

theorem perform_holds {action : NamesAction W} {s t : NamesState W}
    (h : env.perform action s = .ok t) (hs : s.sidecar.registrations.Holds key P)
    (hwrites : WritesHold env key P s action) : t.sidecar.registrations.Holds key P := by
  cases action with
  | lockWallet =>
    rw [lockWallet_ok h]
    exact hs
  | unlockWallet | environment =>
    cases h
    exact hs
  | storeRegistration r =>
    obtain ⟨sidecar,hsidecar,rfl⟩ := onSidecar_ok h
    exact storeRegistration_holds hsidecar hs
  | storeRecoveredRegistration r =>
    obtain ⟨sidecar,hsidecar,rfl⟩ := onSidecar_ok h
    exact storeRegistration_holds (storeRecoveredRegistration_ok hsidecar) hs
  | replaceRegistration r =>
    obtain ⟨sidecar,hsidecar,rfl⟩ := onSidecar_ok h
    exact replaceRegistration_holds hsidecar hs hwrites
  | takeCancelledRegistration sendFlowId =>
    cases h
    exact takeCancelledRegistration_holds sendFlowId hs hwrites
  | takeRegistrationWorkflow accountUuid name =>
    cases h
    exact takeRegistrationWorkflow_holds hs hwrites
  | recordCommitBroadcast sendFlowId txid =>
    obtain ⟨sidecar,hsidecar,rfl⟩ := onSidecar_ok h
    exact recordCommitBroadcast_holds hsidecar hs hwrites
  | recordRevealBroadcast accountUuid name txid =>
    obtain ⟨sidecar,hsidecar,rfl⟩ := onSidecar_ok h
    exact recordRevealBroadcast_holds hsidecar hs hwrites
  | persistAfterScan tipHeight accepted =>
    obtain ⟨sidecar,hsidecar,rfl⟩ := onSidecar_ok h
    exact persistAfterScan_holds hsidecar (foldl_recordAcceptedCommit_holds hs hwrites.1) hwrites.2
  | lockOutputs | unlockOutput | proposeSend | resolveName | markRecoveredNamesBond =>
    obtain ⟨wallet,_,rfl⟩ := onWallet_ok h
    exact hs

end CoppiceWallet.Names
