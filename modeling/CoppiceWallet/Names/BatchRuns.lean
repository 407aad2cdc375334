import CoppiceWallet.Names.HostBatches

/-! # Runs of batches -/

namespace CoppiceWallet.Names

open CoppiceWallet.Lib CoppiceWallet.Store

variable {R : Type} {env : HostEnv R} {chain : CompactChain} {client : CompactClient}
  {serve : Bytes32 → Bytes}

theorem primeRecentCompactBlocks_same {blocks : List CompactBlock} {host primed : NamesHost R}
    (h : primeRecentCompactBlocks env blocks host = .ok primed) : SameState host primed := by
  unfold primeRecentCompactBlocks at h
  split at h
  · cases h
    exact .refl host
  · obtain ⟨last,_,h⟩ := bind_ok h
    split at h
    · cases h
    · obtain ⟨tail,_,h⟩ := bind_ok h
      cases h
      exact ⟨rfl,rfl,rfl⟩

theorem startBatch_same {first : CompactBlock} {host primed : NamesHost R}
    (h : startBatch env client first host = .ok primed) : SameState host primed := by
  obtain ⟨height,_,h⟩ := bind_ok h
  split at h
  · cases h
  · unfold ensureRecentCompactTail at h
    split at h
    · cases h
      exact .refl host
    · obtain ⟨tail,_,h⟩ := bind_ok h
      exact primeRecentCompactBlocks_same h

theorem applyCompactBlocks_error {blocks : List CompactBlock} {host next : NamesHost R} {e : String}
    (h : applyCompactBlocks env client blocks host = (.error e,next)) : SameState host next := by
  cases blocks with
  | nil => cases h
  | cons first rest =>
    rw [applyCompactBlocks] at h
    split at h
    · cases h
      exact .refl host
    · rename_i primed hstart
      split at h
      · cases h
        exact startBatch_same hstart
      · cases h

/-- What a wallet does with its host. -/
inductive ChainStep
  | batch (stop : Nat)
  | reload
  | watch (registrations : List StoredRegistration)

def ChainStep.apply (env : HostEnv R) (client : CompactClient) (chain : CompactChain) :
    ChainStep → NamesHost R → StoreResult (NamesHost R)
  | .batch stop, host =>
    .ok (applyCompactBlocks env client (chain.segment (host.core.height + 1) stop) host).2
  | .reload, host => saveCheckpoint env host >>= loadCheckpoint env
  | .watch registrations, host => .ok (watchRegistrations registrations host)

structure OnChain (laws : CheckpointLaws env) (chain : CompactChain) (host : NamesHost R) : Prop where
  sound : SoundHost laws host
  follows : FollowsChain env chain host

theorem SoundHost.same {laws : CheckpointLaws env} {host other : NamesHost R}
    (h : SoundHost laws host) (hsame : SameState host other) : SoundHost laws other := by
  constructor
  · rw [hsame.core]
    exact h.core
  · rw [hsame.core,hsame.resolvers]
    exact h.resolvers

theorem applyBlocks_sound (laws : CheckpointLaws env) {prepared : List PreparedBlock}
    {host : NamesHost R} {result : NamesHost R × List ManagedBlockDelta}
    (h : applyBlocks env prepared host = .ok result) (hsound : SoundHost laws host) :
    SoundHost laws result.1 := by
  induction prepared generalizing host result with
  | nil =>
    cases h
    exact hsound
  | cons p prepared ih =>
    obtain ⟨next,last,hnext,hlast,rfl⟩ := applyBlocks_cons h
    dsimp only
    exact ih hlast (applyBlock_sound laws hnext hsound)

theorem applyCompactBlocks_onChain {laws : CheckpointLaws env} (replayLaws : ReplayLaws env)
    (hchain : chain.Linked) (hclient : client.Follows chain) {host : NamesHost R}
    (hhost : OnChain laws chain host) (stop : Nat) :
    OnChain laws chain
      (applyCompactBlocks env client (chain.segment (host.core.height + 1) stop) host).2 := by
  by_cases hstop : host.core.height + 1 < stop
  · rw [segment_cons hstop,applyCompactBlocks]
    cases hstart : startBatch env client (chain (host.core.height + 1)) host with
    | error e => exact hhost
    | ok primed =>
      obtain ⟨hsame,hfollows,hretains⟩ := startBatch_primed hchain hclient hhost.follows hstart
      dsimp only
      rw [← segment_cons hstop]
      cases happly : applyBatch env client (chain.segment (host.core.height + 1) stop) primed with
      | error e => exact ⟨hhost.sound.same hsame,hfollows⟩
      | ok next =>
        rw [← hsame.core] at happly hstop
        obtain ⟨prepared,_,hblocks⟩ := bind_ok happly
        exact ⟨applyBlocks_sound laws hblocks (hhost.sound.same hsame),
          (applyBatch_follows replayLaws hchain (by omega) hfollows hretains happly).1⟩
  · rw [CompactChain.segment,Nat.sub_eq_zero_of_le (Nat.not_lt.mp hstop)]
    exact hhost

theorem loadCheckpoint_onChain {laws : CheckpointLaws env} {host loaded : NamesHost R}
    (hhost : OnChain laws chain host)
    (h : (saveCheckpoint env host >>= loadCheckpoint env) = .ok loaded) :
    OnChain laws chain loaded := by
  rw [loadCheckpoint_eq hhost.sound h]
  exact ⟨⟨hhost.sound.core,hhost.sound.resolvers⟩,
    hhost.follows.fits,hhost.follows.hash,hhost.follows.base,.inl rfl⟩

theorem watchRegistrations_onChain {laws : CheckpointLaws env} {host : NamesHost R}
    (hhost : OnChain laws chain host) (registrations : List StoredRegistration) :
    OnChain laws chain (watchRegistrations registrations host) :=
  ⟨⟨hhost.sound.core,hhost.sound.resolvers⟩,
    hhost.follows.fits,hhost.follows.hash,hhost.follows.base,hhost.follows.tail⟩

theorem ChainStep.onChain {laws : CheckpointLaws env} (replayLaws : ReplayLaws env)
    (hchain : chain.Linked) (hclient : client.Follows chain) (step : ChainStep)
    (host next : NamesHost R) (hhost : OnChain laws chain host)
    (h : step.apply env client chain host = .ok next) : OnChain laws chain next := by
  cases step with
  | batch stop =>
    cases h
    exact applyCompactBlocks_onChain replayLaws hchain hclient hhost stop
  | reload => exact loadCheckpoint_onChain hhost h
  | watch registrations =>
    cases h
    exact watchRegistrations_onChain hhost registrations

theorem fromCheckpoint_onChain {laws : CheckpointLaws env} {checkpoint : CorePosition}
    {names : List Text} {host : NamesHost R}
    (h : fromCheckpoint env checkpoint names = .ok host)
    (hactivation : checkedAddU32 checkpoint.height 1 = some env.parameters.activationHeight)
    (hhash : (chain checkpoint.height).hash = some checkpoint.hash) : OnChain laws chain host := by
  refine ⟨fromCheckpoint_sound laws h hactivation,?_⟩
  obtain ⟨_,_,h⟩ := bind_ok h
  obtain ⟨resolvers,_,h⟩ := bind_ok h
  cases h
  obtain ⟨hheight,hfits⟩ := checkedAddU32_eq_some.mp hactivation
  exact ⟨by dsimp only; omega,hhash,by dsimp only; omega,.inl rfl⟩

/-- The batches are applied in turn; between them the host may be saved and reloaded, and then
watches the registrations that it watched before. -/
inductive BatchRun (env : HostEnv R) (client : CompactClient) :
    List (List CompactBlock) → NamesHost R → List ManagedBlockDelta → NamesHost R → Prop
  | done (host) : BatchRun env client [] host [] host
  | batch {blocks batches host next final deltas deltas'} :
    applyCompactBlocks env client blocks host = (.ok deltas,next) →
      BatchRun env client batches next deltas' final →
        BatchRun env client (blocks :: batches) host (deltas ++ deltas') final
  | reload (registrations) {batches host loaded final deltas} :
    (saveCheckpoint env host >>= loadCheckpoint env) = .ok loaded →
      watchRegistrations registrations host = host →
        BatchRun env client batches (watchRegistrations registrations loaded) deltas final →
          BatchRun env client batches host deltas final

theorem segment_eq_append {start stop : Nat} (hstop : start ≤ stop) {blocks rest : List CompactBlock}
    (h : blocks ++ rest = chain.segment start stop) :
    ∃ mid, start ≤ mid ∧ mid ≤ stop ∧ blocks = chain.segment start mid ∧
      rest = chain.segment mid stop := by
  have hlength : blocks.length ≤ stop - start := by
    have hlength := congrArg List.length h
    rw [List.length_append,CompactChain.segment,List.length_map,List.length_range'] at hlength
    omega
  have hsplit : blocks ++ rest =
      chain.segment start (start + blocks.length) ++ chain.segment (start + blocks.length) stop := by
    rw [segment_append (by omega) (by omega),h]
  refine ⟨start + blocks.length,by omega,by omega,List.append_inj hsplit ?_⟩
  rw [CompactChain.segment,List.length_map,List.length_range']
  omega

theorem applyBlocks_endsAt (laws : ReplayLaws env) (hchain : chain.Linked)
    {prepared : List PreparedBlock} {host : NamesHost R} {stop : Nat}
    (hblocks : prepared.map (·.block) = chain.segment (host.core.height + 1) stop)
    (hactivation : env.parameters.activationHeight ≤ host.core.height + 1)
    (htail : EndsAt chain host.core.height host.recentCompactBlocks)
    {result : NamesHost R × List ManagedBlockDelta}
    (h : applyBlocks env prepared host = .ok result) :
    EndsAt chain result.1.core.height result.1.recentCompactBlocks := by
  induction prepared generalizing host result with
  | nil =>
    cases h
    exact htail
  | cons p prepared ih =>
    obtain ⟨_,hblock,hrest⟩ := segment_eq_cons hblocks
    obtain ⟨next,last,hnext,hlast,rfl⟩ := applyBlocks_cons h
    obtain ⟨hheight,hends,_⟩ := applyBlock_follows laws hchain hblock hnext hactivation htail
    rw [← hheight] at hrest
    dsimp only
    exact ih hrest (by omega) hends hlast

theorem Serves.mono {low low' stop stop' : Nat} {names : List Text} (hlow : low ≤ low')
    (hstop : stop' ≤ stop) (h : Serves env client serve (Requestable env names chain low stop)) :
    Serves env client serve (Requestable env names chain low' stop') := by
  have hrequestable : ∀ txid, Requestable env names chain low' stop' txid →
      Requestable env names chain low stop txid := by
    intro txid hrequest
    obtain ⟨height,transaction,hlow',hstop',hrest⟩ := hrequest
    exact ⟨height,transaction,by omega,by omega,hrest⟩
  exact ⟨fun txid hrequest => h.served txid (hrequestable txid hrequest),
    fun txid hrequest => h.bounded txid (hrequestable txid hrequest),
    fun txids hnodup hrequests => h.capped txids hnodup fun txid htxid =>
      hrequestable txid (hrequests txid htxid)⟩

theorem reload_same {laws : CheckpointLaws env} {host loaded : NamesHost R}
    {registrations : List StoredRegistration} (hsound : SoundHost laws host)
    (h : (saveCheckpoint env host >>= loadCheckpoint env) = .ok loaded)
    (hwatch : watchRegistrations registrations host = host) :
    SameState host (watchRegistrations registrations loaded) := by
  have hwatched := congrArg NamesHost.watchedCommitTxids hwatch
  rw [loadCheckpoint_eq hsound h]
  exact ⟨rfl,rfl,hwatched⟩

theorem chainReplay_endsAt (laws : ReplayLaws env) (hchain : chain.Linked) {host : NamesHost R}
    {stop : Nat} (hfollows : FollowsChain env chain host)
    {result : NamesHost R × List ManagedBlockDelta}
    (h : chainReplay env chain serve (chain.segment (host.core.height + 1) stop) host =
      .ok result) :
    result.1.names = host.names ∧
      EndsAt chain result.1.core.height result.1.recentCompactBlocks := by
  obtain ⟨prepared,hprepared,h⟩ := bind_ok h
  exact ⟨(applyBlocks_names h).1,applyBlocks_endsAt laws hchain (chainPrepared_blocks hprepared)
    hfollows.base hfollows.endsAt h⟩

section
variable {checkpointLaws : CheckpointLaws env} (laws : ReplayLaws env) (hchain : chain.Linked)
  (hclient : client.Follows chain)

include laws hchain hclient

theorem BatchRun.replays {batches : List (List CompactBlock)} {host final : NamesHost R}
    {deltas : List ManagedBlockDelta} (hrun : BatchRun env client batches host deltas final)
    (hhost : OnChain checkpointLaws chain host) {low stop : Nat} (hstop : host.core.height < stop)
    (hlow : low ≤ host.core.height + 1 - env.parameters.commitTtlBlocks)
    (hserves : Serves env client serve (Requestable env host.names chain low stop))
    (hbatches : batches.flatten = chain.segment (host.core.height + 1) stop) :
    ∃ result, chainReplay env chain serve (chain.segment (host.core.height + 1) stop) host =
        .ok result ∧ SameState result.1 final ∧ result.2 = deltas ∧
      OnChain checkpointLaws chain final ∧ final.core.height + 1 = stop ∧
      final.names = host.names := by
  induction hrun generalizing stop with
  | done host =>
    have hlength := congrArg List.length hbatches
    rw [CompactChain.segment,List.length_map,List.length_range',List.flatten_nil,
      List.length_nil] at hlength
    rw [← hbatches]
    exact ⟨(host,[]),rfl,.refl host,rfl,hhost,by omega,rfl⟩
  | @batch blocks batches host next final deltas deltas' happly hrest ih =>
    rw [List.flatten_cons] at hbatches
    obtain ⟨mid,hstart,hmid,rfl,htail⟩ := segment_eq_append hstop hbatches
    obtain ⟨first,hfirst,hsame,rfl,hfollows,hheight⟩ := applyCompactBlocks_replays laws hchain hclient
      hhost.follows hstart hlow (hserves.mono le_rfl hmid) happly
    have hnext := applyCompactBlocks_onChain laws hchain hclient hhost mid
    rw [happly] at hnext
    obtain ⟨hnames,hends⟩ := chainReplay_endsAt laws hchain hhost.follows hfirst
    have hnames' : next.names = host.names := by
      rw [← hnames,NamesHost.names,hsame.resolvers]
      rfl
    obtain ⟨second,hsecond,hsame',rfl,hfinal,hheight',hnames''⟩ := ih hnext
      (show next.core.height < stop by omega) (by omega) (by rw [hnames']; exact hserves)
      (by rw [hheight]; exact htail)
    obtain ⟨last,hlast,hsame'',hdeltas⟩ := chainReplay_same laws hchain hsame.symm hfollows.base
      hfollows.endsAt (by rw [hsame.core]; exact hends) hsecond
    rw [hheight] at hlast
    refine ⟨(last.1,first.2 ++ last.2),?_,hsame''.symm.trans hsame',by rw [hdeltas],hfinal,hheight',
      hnames''.trans hnames'⟩
    rw [← segment_append hstart hmid]
    exact chainReplay_append.mpr ⟨first,last,hfirst,hlast,rfl⟩
  | @reload registrations batches host loaded final deltas hload hwatch hrest ih =>
    have hsame := reload_same hhost.sound hload hwatch
    have hreloaded := watchRegistrations_onChain (loadCheckpoint_onChain hhost hload) registrations
    have hnames : (watchRegistrations registrations loaded).names = host.names := by
      rw [NamesHost.names,hsame.resolvers]
      rfl
    rw [← hsame.core] at hstop hlow hbatches ⊢
    obtain ⟨result,hresult,hsame',hdeltas,hfinal,hheight,hnames'⟩ := ih hreloaded hstop hlow
      (by rw [hnames]; exact hserves) hbatches
    obtain ⟨result',hresult',hsame'',hdeltas'⟩ := chainReplay_same laws hchain hsame.symm
      hreloaded.follows.base hreloaded.follows.endsAt
      (by rw [hsame.core]; exact hhost.follows.endsAt) hresult
    exact ⟨result',hresult',hsame''.symm.trans hsame',hdeltas'.trans hdeltas,hfinal,hheight,
      hnames'.trans hnames⟩

theorem BatchRun.continues {batches rest : List (List CompactBlock)} {batch : List CompactBlock}
    {host mid whole : NamesHost R} {deltas deltas' : List ManagedBlockDelta}
    (hrun : BatchRun env client batches host deltas' mid) (hhost : OnChain checkpointLaws chain host)
    {low stop : Nat} (hstop : host.core.height < stop)
    (hlow : low ≤ host.core.height + 1 - env.parameters.commitTtlBlocks)
    (hserves : Serves env client serve (Requestable env host.names chain low stop))
    (hbatches : (batches ++ batch :: rest).flatten = chain.segment (host.core.height + 1) stop)
    (hwhole : applyCompactBlocks env client (chain.segment (host.core.height + 1) stop) host =
      (.ok deltas,whole)) :
    ∃ delta next, applyCompactBlocks env client batch mid = (.ok delta,next) := by
  obtain ⟨all,hall,_⟩ := applyCompactBlocks_replays laws hchain hclient hhost.follows hstop hlow
    hserves hwhole
  rw [List.flatten_append,List.flatten_cons] at hbatches
  obtain ⟨cut,hstart,hcut,hdone,hrest⟩ := segment_eq_append hstop hbatches
  obtain ⟨cut',hstart',hcut',rfl,_⟩ := segment_eq_append hcut hrest
  obtain ⟨first,hfirst,hsame,_,hmid,hheight,hnames⟩ := hrun.replays laws hchain hclient hhost hstart
    hlow (hserves.mono le_rfl hcut) hdone
  rw [← segment_append hstart hcut,← segment_append hstart' hcut'] at hall
  obtain ⟨first',_,hfirst',hall,_⟩ := chainReplay_append.mp hall
  rw [Except.ok.inj (hfirst'.symm.trans hfirst)] at hall
  obtain ⟨second,_,hsecond,_⟩ := chainReplay_append.mp hall
  rw [← hheight,hsame.core] at hsecond
  obtain ⟨replayed,hreplayed,_⟩ := chainReplay_same laws hchain hsame
    (by rw [← hsame.core]; exact hmid.follows.base)
    (chainReplay_endsAt laws hchain hhost.follows hfirst).2
    (by rw [← hsame.core]; exact hmid.follows.endsAt) hsecond
  rw [← hsame.core] at hreplayed
  rw [← hheight] at hstart' ⊢
  obtain ⟨next,hnext,_⟩ := applyCompactBlocks_of_replay laws hchain hclient hmid.follows hstart'
    (show low ≤ mid.core.height + 1 - env.parameters.commitTtlBlocks by omega)
    (by rw [hnames]; exact hserves.mono le_rfl hcut') hreplayed
  exact ⟨_,next,hnext⟩

end

/-- However the next blocks of a host are cut into batches, and wherever the host is reloaded in
between, the batches do what one batch of all the blocks does. None of them fails when that one
does not, and one that fails changes nothing but the tail. -/
theorem batches_replay (checkpointLaws : CheckpointLaws env) (laws : ReplayLaws env)
    (hchain : chain.Linked) (hclient : client.Follows chain) {checkpoint : CorePosition}
    {names : List Text} {start host : NamesHost R}
    (hstart : fromCheckpoint env checkpoint names = .ok start)
    (hactivation : checkedAddU32 checkpoint.height 1 = some env.parameters.activationHeight)
    (hhash : (chain checkpoint.height).hash = some checkpoint.hash)
    (hrun : Runs (ChainStep.apply env client chain) start host) (count : Nat)
    (hserves : Serves env client serve (Requestable env host.names chain
      (host.core.height + 1 - env.parameters.commitTtlBlocks) (host.core.height + 1 + count)))
    (batches : List (List CompactBlock))
    (hbatches : batches.flatten =
      chain.segment (host.core.height + 1) (host.core.height + 1 + count)) :
    (∀ deltas final, BatchRun env client batches host deltas final →
      ∃ whole, applyCompactBlocks env client batches.flatten host = (.ok deltas,whole) ∧
        SameState final whole) ∧
    (∀ deltas whole, applyCompactBlocks env client batches.flatten host = (.ok deltas,whole) →
      ∀ done batch rest deltas' mid, batches = done ++ batch :: rest →
        BatchRun env client done host deltas' mid →
          ∃ delta next, applyCompactBlocks env client batch mid = (.ok delta,next)) ∧
    ∀ batch mid e next, applyCompactBlocks env client batch mid = (.error e,next) →
      SameState mid next := by
  have hhost : OnChain checkpointLaws chain host := hrun.invariant (P := OnChain checkpointLaws chain)
    (ChainStep.onChain laws hchain hclient) (fromCheckpoint_onChain hstart hactivation hhash)
  have hstop : host.core.height < host.core.height + 1 + count := by omega
  refine ⟨fun deltas final hbatchRun => ?_,fun deltas whole hwhole done batch rest deltas' mid heq hdone =>
    ?_,fun batch mid e next h => applyCompactBlocks_error h⟩
  · obtain ⟨result,hresult,hsame,rfl,_⟩ := hbatchRun.replays laws hchain hclient hhost hstop le_rfl
      hserves hbatches
    obtain ⟨whole,hwhole,hsame'⟩ := applyCompactBlocks_of_replay laws hchain hclient hhost.follows
      hstop le_rfl hserves hresult
    rw [hbatches]
    exact ⟨whole,hwhole,hsame.symm.trans hsame'⟩
  · rw [hbatches] at hwhole
    rw [heq] at hbatches
    exact hdone.continues laws hchain hclient hhost hstop le_rfl hserves hbatches hwhole

theorem leaseChain_linked : CompactChain.Linked leaseChain where
  height _ := rfl
  hash _ := rfl
  prevHash _ := rfl
  link _ := rfl

def leaseClient : CompactClient where
  downloadBlocks first last := .ok (CompactChain.segment leaseChain first (last + 1))
  getTransaction _ := .ok [7]

theorem leaseReplayLaws : ReplayLaws leaseEnv where
  applied := by
    intro core block source observeGeneric routes context h
    change (if _ then _ else _) = _ at h
    split at h
    · rename_i hblock
      cases h
      refine ⟨rfl,?_⟩
      rw [hblock.2]
    · cases h
  requests _ _ := rfl

theorem lease_requestable {names : List Text} {low stop : Nat} {txid : Bytes32}
    (h : Requestable leaseEnv names leaseChain low stop txid) : txid ∈ [(8 : Bytes32),9] := by
  obtain ⟨height,transaction,_,_,hmem,htxid,_⟩ := h
  rw [leaseChain,leaseBlock] at hmem
  obtain ⟨entry,hentry,rfl⟩ := List.mem_map.mp hmem
  cases htxid
  split at hentry
  · rw [List.mem_singleton.mp hentry]
    exact List.mem_cons_self
  · split at hentry
    · rw [List.mem_singleton.mp hentry]
      exact List.mem_cons_of_mem _ List.mem_cons_self
    · cases hentry

theorem lease_serves (names : List Text) (low stop : Nat) :
    Serves leaseEnv leaseClient (fun _ => [7]) (Requestable leaseEnv names leaseChain low stop) where
  served _ _ := rfl
  bounded _ _ := by decide
  capped txids hnodup hrequests := by
    have hlength := (List.subperm_of_subset hnodup fun txid htxid =>
      lease_requestable (hrequests txid htxid)).length_le
    rw [List.map_const',List.sum_replicate_nat]
    exact (Nat.mul_le_mul_right _ hlength).trans (by decide)

theorem leaseBatches_replay :
    ∃ start host deltas final whole,
      fromCheckpoint leaseEnv leaseCheckpoint [['n']] = .ok start ∧
      execute (ChainStep.apply leaseEnv leaseClient leaseChain) [.batch 101] start = .ok host ∧
      BatchRun leaseEnv leaseClient [[leaseChain 101],[leaseChain 102]] host deltas final ∧
      applyCompactBlocks leaseEnv leaseClient [leaseChain 101,leaseChain 102] host =
        (.ok deltas,whole) ∧ SameState final whole := by
  obtain ⟨start,host,deltas,final,hstart,hexecute,hheight,hrun⟩ :
      ∃ start host deltas final, fromCheckpoint leaseEnv leaseCheckpoint [['n']] = .ok start ∧
        execute (ChainStep.apply leaseEnv leaseClient leaseChain) [.batch 101] start = .ok host ∧
        host.core.height = 100 ∧
        BatchRun leaseEnv leaseClient [[leaseChain 101],[leaseChain 102]] host deltas final :=
    ⟨_,_,_,_,rfl,rfl,rfl,.batch rfl (.reload [] rfl rfl (.batch rfl (.done _)))⟩
  obtain ⟨whole,hwhole,hsame⟩ := (batches_replay leaseLaws leaseReplayLaws leaseChain_linked
    (fun _ _ _ => rfl) hstart rfl rfl (runs_of_execute hexecute) 2 (lease_serves _ _ _)
    [[leaseChain 101],[leaseChain 102]] (by rw [hheight]; rfl)).1 deltas final hrun
  exact ⟨start,host,deltas,final,whole,hstart,hexecute,hrun,hwhole,hsame⟩

end CoppiceWallet.Names
