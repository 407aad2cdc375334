import CoppiceWallet.Names.HostPrepare

/-! # Batches of the Names replay -/

namespace CoppiceWallet.Names

open CoppiceWallet.Lib CoppiceWallet.Store

variable {R : Type} {env : HostEnv R} {chain : CompactChain} {client : CompactClient}
  {serve : Bytes32 → Bytes}

/-- The Core runtime goes to the block it is given, and reads of the source what it requests. -/
structure ReplayLaws (env : HostEnv R) : Prop where
  applied : ∀ {core block source observeGeneric routes context},
    env.applyCore core block source observeGeneric routes = .ok context →
      context.height = block.height ∧ block.hash = some context.hash
  requests : ∀ {block source source' observeGeneric routes},
    (∀ transaction ∈ block.vtx, ∀ txid, transaction.txid = some txid →
      CoreRequests env observeGeneric routes transaction → source txid = source' txid) →
    ∀ core, env.applyCore core block source observeGeneric routes =
      env.applyCore core block source' observeGeneric routes

theorem applyBlock_withSource (laws : ReplayLaws env) {source : Bytes32 → Option Bytes}
    {prepared : PreparedBlock} (hsource : prepared.source = fun txid => some (serve txid))
    {host : NamesHost R} (hserves : SourceServes env host.names serve source prepared) :
    applyBlock env (prepared.withSource source) host = applyBlock env prepared host := by
  have hcontext : blockContext env (prepared.withSource source) host.names host.core =
      blockContext env prepared host.names host.core := by
    refine bind_ok_congr fun height hheight => bind_ok_congr fun routes hroutes => ?_
    rw [hsource]
    refine laws.requests (fun transaction htransaction txid htxid hrequests => ?_) _
    refine hserves routes ?_ transaction htransaction txid htxid hrequests
    unfold u32Height at hheight
    split at hheight
    · cases hheight
      exact hroutes
    · cases hheight
  unfold applyBlock
  rw [hcontext]
  rfl

theorem applyBlock_names {prepared : PreparedBlock} {host : NamesHost R}
    {result : NamesHost R × ManagedBlockDelta} (h : applyBlock env prepared host = .ok result) :
    result.1.names = host.names ∧ result.1.watchedCommitTxids = host.watchedCommitTxids := by
  obtain ⟨context,resolvers,delta,tail,_,happlied,_,rfl⟩ := applyBlock_ok h
  refine ⟨forall₂_map_eq (applyAuthenticatedBlock_ok happlied) fun managed managed' hmanaged => ?_,rfl⟩
  obtain ⟨outcome,hmanaged⟩ := hmanaged
  exact applyManaged_name managed (managed',outcome) hmanaged

theorem applyBlock_same (hchain : chain.Linked) {prepared : PreparedBlock}
    {host other : NamesHost R} (hsame : SameState host other)
    (hblock : prepared.block = chain (host.core.height + 1))
    (htail : EndsAt chain host.core.height other.recentCompactBlocks)
    {result : NamesHost R × ManagedBlockDelta} (h : applyBlock env prepared host = .ok result) :
    ∃ result', applyBlock env prepared other = .ok result' ∧ SameState result.1 result'.1 ∧
      result'.2 = result.2 := by
  obtain ⟨context,resolvers,delta,tail,hcontext,happlied,_,rfl⟩ := applyBlock_ok h
  have hfits := (blockContext_ok hcontext).1
  rw [hblock,hchain.height] at hfits
  obtain ⟨tail',htail',_⟩ := htail.remember hchain hfits env.parameters.commitTtlBlocks
  have hnames : other.names = host.names := by rw [NamesHost.names,hsame.resolvers]; rfl
  refine ⟨(⟨context.toCorePosition,resolvers,tail',other.watchedCommitTxids⟩,delta),?_,
    ⟨rfl,rfl,hsame.watched⟩,rfl⟩
  rw [applyBlock,hnames,hsame.core,hcontext,ok_bind,hsame.resolvers,happlied,ok_bind,hblock,htail']
  rfl

theorem applyBlock_follows (laws : ReplayLaws env) (hchain : chain.Linked) {prepared : PreparedBlock}
    {host : NamesHost R} (hblock : prepared.block = chain (host.core.height + 1))
    {result : NamesHost R × ManagedBlockDelta} (h : applyBlock env prepared host = .ok result)
    (hactivation : env.parameters.activationHeight ≤ host.core.height + 1)
    (htail : EndsAt chain host.core.height host.recentCompactBlocks) :
    result.1.core.height = host.core.height + 1 ∧
      EndsAt chain result.1.core.height result.1.recentCompactBlocks ∧
      (Retains env chain host.core.height host.recentCompactBlocks →
        Retains env chain result.1.core.height result.1.recentCompactBlocks ∧
          FollowsChain env chain result.1) := by
  obtain ⟨context,resolvers,delta,tail,hcontext,_,hremember,rfl⟩ := applyBlock_ok h
  obtain ⟨hfits,routes,_,hcore⟩ := blockContext_ok hcontext
  obtain ⟨hheight,hhash⟩ := laws.applied hcore
  rw [hblock,hchain.height] at hfits hheight
  rw [hblock] at hremember hhash
  obtain ⟨tail',htail',hends⟩ := htail.remember hchain hfits env.parameters.commitTtlBlocks
  have heq : tail' = tail := Except.ok.inj (htail'.symm.trans hremember)
  rw [heq] at hends
  dsimp only
  rw [hheight]
  refine ⟨rfl,hends,fun hretains => ?_⟩
  have hretains' := hretains.remember hchain hfits hremember
  exact ⟨hretains',by rw [hheight]; exact hfits,by rw [hheight]; exact hhash,
    by rw [hheight]; omega,.inr (by rw [hheight]; exact hretains')⟩

variable {blocks : List CompactBlock}

theorem segment_eq_cons {start stop : Nat} {block : CompactBlock}
    (h : block :: blocks = chain.segment start stop) :
    start < stop ∧ block = chain start ∧ blocks = chain.segment (start + 1) stop := by
  by_cases hlt : start < stop
  · rw [segment_cons hlt] at h
    exact ⟨hlt,(List.cons.inj h).1,(List.cons.inj h).2⟩
  · rw [CompactChain.segment,Nat.sub_eq_zero_of_le (Nat.not_lt.mp hlt)] at h
    cases h

variable {result : NamesHost R × List ManagedBlockDelta}

theorem applyBlocks_cons {prepared : PreparedBlock} {rest : List PreparedBlock} {host : NamesHost R}
    (h : applyBlocks env (prepared :: rest) host = .ok result) :
    ∃ next last, applyBlock env prepared host = .ok next ∧ applyBlocks env rest next.1 = .ok last ∧
      result = (last.1,next.2 :: last.2) := by
  obtain ⟨next,hnext,h⟩ := bind_ok h
  obtain ⟨last,hlast,h⟩ := bind_ok h
  cases h
  exact ⟨next,last,hnext,hlast,rfl⟩

variable {prepared : List PreparedBlock}

theorem applyBlocks_withSource (laws : ReplayLaws env) {source : Bytes32 → Option Bytes}
    (hsource : ∀ p ∈ prepared, p.source = fun txid => some (serve txid)) {host : NamesHost R}
    (hserves : ∀ p ∈ prepared, SourceServes env host.names serve source p) :
    applyBlocks env (prepared.map (·.withSource source)) host = applyBlocks env prepared host := by
  induction prepared generalizing host with
  | nil => rfl
  | cons p prepared ih =>
    rw [List.map_cons,applyBlocks,applyBlocks,
      applyBlock_withSource laws (hsource p List.mem_cons_self) (hserves p List.mem_cons_self)]
    refine bind_ok_congr fun next hnext => ?_
    dsimp only
    rw [ih (fun q hq => hsource q (List.mem_cons_of_mem _ hq)) fun q hq => ?_]
    rw [(applyBlock_names hnext).1]
    exact hserves q (List.mem_cons_of_mem _ hq)

theorem applyBlocks_names {host : NamesHost R} (h : applyBlocks env prepared host = .ok result) :
    result.1.names = host.names ∧ result.1.watchedCommitTxids = host.watchedCommitTxids := by
  induction prepared generalizing host result with
  | nil =>
    cases h
    exact ⟨rfl,rfl⟩
  | cons p prepared ih =>
    obtain ⟨next,last,hnext,hlast,rfl⟩ := applyBlocks_cons h
    obtain ⟨hnames,hwatched⟩ := applyBlock_names hnext
    obtain ⟨hnames',hwatched'⟩ := ih hlast
    exact ⟨hnames'.trans hnames,hwatched'.trans hwatched⟩

theorem applyBlocks_same (laws : ReplayLaws env) (hchain : chain.Linked)
    {host other : NamesHost R} {stop : Nat} (hsame : SameState host other)
    (hblocks : prepared.map (·.block) = chain.segment (host.core.height + 1) stop)
    (hactivation : env.parameters.activationHeight ≤ host.core.height + 1)
    (htail : EndsAt chain host.core.height host.recentCompactBlocks)
    (htail' : EndsAt chain host.core.height other.recentCompactBlocks)
    (h : applyBlocks env prepared host = .ok result) :
    ∃ result', applyBlocks env prepared other = .ok result' ∧ SameState result.1 result'.1 ∧
      result'.2 = result.2 := by
  induction prepared generalizing host other result with
  | nil =>
    cases h
    exact ⟨_,rfl,hsame,rfl⟩
  | cons p prepared ih =>
    obtain ⟨_,hblock,hrest⟩ := segment_eq_cons hblocks
    obtain ⟨next,last,hnext,hlast,rfl⟩ := applyBlocks_cons h
    obtain ⟨next',hnext',hsame',hdelta⟩ := applyBlock_same hchain hsame hblock htail' hnext
    obtain ⟨hheight,hends,_⟩ := applyBlock_follows laws hchain hblock hnext hactivation htail
    have hblock' : p.block = chain (other.core.height + 1) := by rw [hsame.core]; exact hblock
    obtain ⟨_,hends',_⟩ := applyBlock_follows laws hchain hblock' hnext'
      (by rw [hsame.core]; exact hactivation) (by rw [hsame.core]; exact htail')
    rw [hsame'.core] at hends'
    rw [← hheight] at hrest
    obtain ⟨last',hlast',hsame'',hdeltas⟩ := ih hsame' hrest (by omega) hends hends' hlast
    refine ⟨(last'.1,next'.2 :: last'.2),?_,hsame'',by rw [hdelta,hdeltas]⟩
    rw [applyBlocks,hnext',ok_bind]
    dsimp only
    rw [hlast']
    rfl

theorem applyBlocks_follows (laws : ReplayLaws env) (hchain : chain.Linked)
    {host : NamesHost R} {stop : Nat} (hstop : host.core.height < stop)
    (hblocks : prepared.map (·.block) = chain.segment (host.core.height + 1) stop)
    (hfollows : FollowsChain env chain host)
    (hretains : Retains env chain host.core.height host.recentCompactBlocks)
    (h : applyBlocks env prepared host = .ok result) :
    FollowsChain env chain result.1 ∧ result.1.core.height + 1 = stop := by
  induction prepared generalizing host result with
  | nil =>
    cases h
    refine ⟨hfollows,?_⟩
    have hlength := congrArg List.length hblocks
    rw [CompactChain.segment] at hlength
    simp at hlength
    dsimp only
    omega
  | cons p prepared ih =>
    obtain ⟨hlt,hblock,hrest⟩ := segment_eq_cons hblocks
    obtain ⟨next,last,hnext,hlast,rfl⟩ := applyBlocks_cons h
    obtain ⟨hheight,_,hkept⟩ :=
      applyBlock_follows laws hchain hblock hnext hfollows.base hretains.endsAt
    obtain ⟨hretains',hfollows'⟩ := hkept hretains
    rw [← hheight] at hrest
    dsimp only
    exact ih (by omega) hrest hfollows' hretains' hlast

theorem applyBlocks_append {prepared' : List PreparedBlock} {host : NamesHost R} :
    applyBlocks env (prepared ++ prepared') host = .ok result ↔
      ∃ mid last, applyBlocks env prepared host = .ok mid ∧
        applyBlocks env prepared' mid.1 = .ok last ∧ result = (last.1,mid.2 ++ last.2) := by
  induction prepared generalizing host result with
  | nil =>
    constructor
    · intro h
      exact ⟨(host,[]),result,rfl,h,rfl⟩
    · rintro ⟨mid,last,hmid,hlast,rfl⟩
      cases hmid
      exact hlast
  | cons p prepared ih =>
    constructor
    · intro h
      obtain ⟨next,last,hnext,hlast,rfl⟩ := applyBlocks_cons h
      obtain ⟨mid,last',hmid,hlast',rfl⟩ := ih.mp hlast
      refine ⟨(mid.1,next.2 :: mid.2),last',?_,hlast',rfl⟩
      rw [applyBlocks,hnext,ok_bind]
      dsimp only
      rw [hmid]
      rfl
    · rintro ⟨mid,last,hmid,hlast,rfl⟩
      obtain ⟨next,mid',hnext,hmid',rfl⟩ := applyBlocks_cons hmid
      rw [List.cons_append,applyBlocks,hnext,ok_bind]
      dsimp only
      rw [ih.mpr ⟨mid',last,hmid',hlast,rfl⟩]
      rfl

/-- The blocks one after another, each prepared from the chain. -/
def chainReplay (env : HostEnv R) (chain : CompactChain) (serve : Bytes32 → Bytes)
    (blocks : List CompactBlock) (host : NamesHost R) :
    StoreResult (NamesHost R × List ManagedBlockDelta) := do
  let prepared ← blocks.mapM (chainPrepared env chain serve host.names host.watchedCommitTxids)
  applyBlocks env prepared host

theorem chainPrepared_ok {names : List Text} {watched : List Bytes32} {block : CompactBlock}
    {prepared : PreparedBlock}
    (h : chainPrepared env chain serve names watched block = .ok prepared) :
    block.height < u32Limit ∧ prepared.block = block ∧
      prepared.source = fun txid => some (serve txid) := by
  obtain ⟨scanned,hscanned,h⟩ := bind_ok h
  obtain ⟨requests,_,h⟩ := bind_ok h
  obtain ⟨referenced,_,h⟩ := bind_ok h
  cases h
  exact ⟨(scanBlock_ok hscanned).1,(scanBlock_ok hscanned).2.1,rfl⟩

theorem chainPrepared_blocks {names : List Text} {watched : List Bytes32}
    (h : blocks.mapM (chainPrepared env chain serve names watched) = .ok prepared) :
    prepared.map (·.block) = blocks := by
  have hrows := forall₂_map_eq (f := id) (g := (·.block)) (mapM_ok h)
    fun block p hp => (chainPrepared_ok hp).2.1
  rw [List.map_id] at hrows
  exact hrows

theorem chainReplay_append {blocks' : List CompactBlock} {host : NamesHost R} :
    chainReplay env chain serve (blocks ++ blocks') host = .ok result ↔
      ∃ mid last, chainReplay env chain serve blocks host = .ok mid ∧
        chainReplay env chain serve blocks' mid.1 = .ok last ∧
        result = (last.1,mid.2 ++ last.2) := by
  constructor
  · intro h
    obtain ⟨prepared,hprepared,h⟩ := bind_ok h
    obtain ⟨first,second,hfirst,hsecond,rfl⟩ := mapM_append_ok.mp hprepared
    obtain ⟨mid,last,hmid,hlast,rfl⟩ := applyBlocks_append.mp h
    obtain ⟨hnames,hwatched⟩ := applyBlocks_names hmid
    refine ⟨mid,last,?_,?_,rfl⟩
    · rw [chainReplay,hfirst]
      exact hmid
    · rw [chainReplay,hnames,hwatched,hsecond]
      exact hlast
  · rintro ⟨mid,last,hmid,hlast,rfl⟩
    obtain ⟨first,hfirst,hmid⟩ := bind_ok hmid
    obtain ⟨hnames,hwatched⟩ := applyBlocks_names hmid
    obtain ⟨second,hsecond,hlast⟩ := bind_ok hlast
    rw [hnames,hwatched] at hsecond
    rw [chainReplay,mapM_append_ok.mpr ⟨first,second,hfirst,hsecond,rfl⟩]
    exact applyBlocks_append.mpr ⟨mid,last,hmid,hlast,rfl⟩

theorem chainReplay_same (laws : ReplayLaws env) (hchain : chain.Linked) {host other : NamesHost R}
    {stop : Nat} (hsame : SameState host other)
    (hactivation : env.parameters.activationHeight ≤ host.core.height + 1)
    (htail : EndsAt chain host.core.height host.recentCompactBlocks)
    (htail' : EndsAt chain host.core.height other.recentCompactBlocks)
    (h : chainReplay env chain serve (chain.segment (host.core.height + 1) stop) host =
      .ok result) :
    ∃ result', chainReplay env chain serve (chain.segment (host.core.height + 1) stop) other =
        .ok result' ∧ SameState result.1 result'.1 ∧ result'.2 = result.2 := by
  obtain ⟨prepared,hprepared,h⟩ := bind_ok h
  obtain ⟨result',hresult',hsame',hdeltas⟩ := applyBlocks_same laws hchain hsame
    (chainPrepared_blocks hprepared) hactivation htail htail' h
  have hnames : other.names = host.names := by rw [NamesHost.names,hsame.resolvers]; rfl
  refine ⟨result',?_,hsame',hdeltas⟩
  rw [chainReplay,hnames,hsame.watched,hprepared]
  exact hresult'

theorem FollowsChain.endsAt {host : NamesHost R} (h : FollowsChain env chain host) :
    EndsAt chain host.core.height host.recentCompactBlocks := by
  rcases h.tail with hempty | hretains
  · rw [hempty]
    exact endsAt_nil _
  · exact hretains.endsAt

theorem applyBatch_iff (laws : ReplayLaws env) (hchain : chain.Linked) {host : NamesHost R}
    {low stop : Nat} (hretains : Retains env chain host.core.height host.recentCompactBlocks)
    (hlow : low ≤ host.core.height + 1 - env.parameters.commitTtlBlocks)
    (hserves : Serves env client serve (Requestable env host.names chain low stop)) :
    applyBatch env client (chain.segment (host.core.height + 1) stop) host = .ok result ↔
      chainReplay env chain serve (chain.segment (host.core.height + 1) stop) host =
        .ok result := by
  rcases prepareBatch_cases hchain hretains rfl hlow hserves with
    ⟨prepared,source,hprepared,hbatch,hsource⟩ | ⟨e,e',hprepared,hbatch⟩
  · rw [applyBatch,hbatch,chainReplay,hprepared,ok_bind,ok_bind,applyBlocks_withSource laws ?_ hsource]
    intro p hp
    obtain ⟨block,_,hblock⟩ := forall₂_mem_right (mapM_ok hprepared) hp
    exact (chainPrepared_ok hblock).2.2
  · rw [applyBatch,hbatch,chainReplay,hprepared]
    constructor <;> intro h <;> cases h

theorem startBatch_follows (hchain : chain.Linked) (hclient : client.Follows chain)
    {host : NamesHost R} (hfollows : FollowsChain env chain host)
    (hfits : host.core.height + 1 < u32Limit) :
    ∃ primed, startBatch env client (chain (host.core.height + 1)) host = .ok primed ∧
      SameState host primed ∧ FollowsChain env chain primed ∧
      Retains env chain primed.core.height primed.recentCompactBlocks := by
  obtain ⟨primed,hprimed,hsame,hretains⟩ := ensureRecentCompactTail_follows hchain hclient hfollows
  refine ⟨primed,?_,hsame,?_,hretains⟩
  · rw [startBatch,hchain.height,u32Height,if_pos hfits,ok_bind,
      checkedAddU32_eq_some.mpr ⟨rfl,hfits⟩,if_neg (by simp),hprimed]
  · refine ⟨?_,?_,?_,.inr hretains⟩ <;> rw [hsame.core]
    · exact hfollows.fits
    · exact hfollows.hash
    · exact hfollows.base

theorem startBatch_primed (hchain : chain.Linked) (hclient : client.Follows chain)
    {host primed : NamesHost R} (hfollows : FollowsChain env chain host)
    (h : startBatch env client (chain (host.core.height + 1)) host = .ok primed) :
    SameState host primed ∧ FollowsChain env chain primed ∧
      Retains env chain primed.core.height primed.recentCompactBlocks := by
  obtain ⟨first,hfirst,_⟩ := bind_ok h
  have hfits : host.core.height + 1 < u32Limit := by
    rw [hchain.height] at hfirst
    unfold u32Height at hfirst
    split at hfirst
    · rename_i hfits
      exact hfits
    · cases hfirst
  obtain ⟨primed',hprimed',hrest⟩ := startBatch_follows hchain hclient hfollows hfits
  rw [Except.ok.inj (hprimed'.symm.trans h)] at hrest
  exact hrest

theorem prepareBatch_blocks {host : NamesHost R}
    (h : prepareBatch env client blocks host = .ok prepared) :
    prepared.map (·.block) = blocks := by
  obtain ⟨scanned,hscanned,h⟩ := bind_ok h
  obtain ⟨acquired,_,h⟩ := bind_ok h
  obtain ⟨requests,hrequests,h⟩ := bind_ok h
  obtain ⟨acquired',_,h⟩ := bind_ok h
  obtain ⟨referenced,hreferenced,h⟩ := bind_ok h
  cases h
  have hlength : scanned.length ≤ referenced.length := by
    rw [(mapM_ok hrequests).length_eq,(mapM_ok hreferenced).length_eq]
  have hblocks := forall₂_map_eq (f := id) (g := (·.block)) (mapM_ok hscanned)
    fun block s hs => (scanBlock_ok hs).2.1
  rw [List.map_id] at hblocks
  calc (List.zipWith (preparedBlock acquired'.get) scanned referenced).map (·.block)
      = ((scanned.zip referenced).map Prod.fst).map (·.block) := by
        rw [← List.map_uncurry_zip_eq_zipWith,List.map_map,List.map_map]
        rfl
    _ = scanned.map (·.block) := by rw [List.map_fst_zip hlength]
    _ = blocks := hblocks

theorem applyBatch_follows (laws : ReplayLaws env) (hchain : chain.Linked) {host : NamesHost R}
    {stop : Nat} (hstop : host.core.height < stop) (hfollows : FollowsChain env chain host)
    (hretains : Retains env chain host.core.height host.recentCompactBlocks)
    (h : applyBatch env client (chain.segment (host.core.height + 1) stop) host = .ok result) :
    FollowsChain env chain result.1 ∧ result.1.core.height + 1 = stop := by
  obtain ⟨prepared,hprepared,h⟩ := bind_ok h
  exact applyBlocks_follows laws hchain hstop (prepareBatch_blocks hprepared) hfollows hretains h

section
variable (laws : ReplayLaws env) (hchain : chain.Linked) (hclient : client.Follows chain)
  {host : NamesHost R} (hfollows : FollowsChain env chain host) {low stop : Nat}
  (hstop : host.core.height < stop)
  (hlow : low ≤ host.core.height + 1 - env.parameters.commitTtlBlocks)
  (hserves : Serves env client serve (Requestable env host.names chain low stop))

include laws hchain hclient hfollows hstop hlow hserves

theorem applyCompactBlocks_replays {deltas : List ManagedBlockDelta} {final : NamesHost R}
    (h : applyCompactBlocks env client (chain.segment (host.core.height + 1) stop) host =
      (.ok deltas,final)) :
    ∃ result, chainReplay env chain serve (chain.segment (host.core.height + 1) stop) host =
        .ok result ∧ SameState result.1 final ∧ result.2 = deltas ∧
      FollowsChain env chain final ∧ final.core.height + 1 = stop := by
  by_cases hempty : stop = host.core.height + 1
  · rw [hempty,segment_self] at h ⊢
    cases h
    exact ⟨(host,[]),rfl,.refl host,rfl,hfollows,rfl⟩
  · have hcons : chain.segment (host.core.height + 1) stop =
        chain (host.core.height + 1) :: chain.segment (host.core.height + 1 + 1) stop :=
      segment_cons (by omega)
    rw [hcons,applyCompactBlocks] at h
    split at h
    · cases h
    · rename_i primed hstart
      split at h
      · cases h
      · rename_i next deltas' happly
        cases h
        obtain ⟨hsame,hfollows',hretains⟩ := startBatch_primed hchain hclient hfollows hstart
        rw [← hcons,← hsame.core] at happly
        obtain ⟨hfollows'',hheight⟩ := applyBatch_follows laws hchain (by rw [hsame.core]; exact hstop)
          hfollows' hretains happly
        have hnames : primed.names = host.names := by rw [NamesHost.names,hsame.resolvers]; rfl
        have hreplay : chainReplay env chain serve (chain.segment (host.core.height + 1) stop)
            primed = .ok (final,deltas) := by
          rw [← hsame.core] at hlow ⊢
          exact (applyBatch_iff laws hchain hretains hlow (by rw [hnames]; exact hserves)).mp happly
        obtain ⟨result,hresult,hsame',hdeltas⟩ := chainReplay_same laws hchain hsame.symm
          hfollows'.base hfollows'.endsAt (by rw [hsame.core]; exact hfollows.endsAt)
          (by rw [hsame.core]; exact hreplay)
        rw [hsame.core] at hresult
        exact ⟨result,hresult,hsame'.symm,hdeltas,hfollows'',hheight⟩

theorem applyCompactBlocks_of_replay {result : NamesHost R × List ManagedBlockDelta}
    (h : chainReplay env chain serve (chain.segment (host.core.height + 1) stop) host =
      .ok result) :
    ∃ final, applyCompactBlocks env client (chain.segment (host.core.height + 1) stop) host =
      (.ok result.2,final) ∧ SameState result.1 final := by
  by_cases hempty : stop = host.core.height + 1
  · rw [hempty,segment_self] at h ⊢
    cases h
    exact ⟨host,rfl,.refl host⟩
  · have hcons : chain.segment (host.core.height + 1) stop =
        chain (host.core.height + 1) :: chain.segment (host.core.height + 1 + 1) stop :=
      segment_cons (by omega)
    have hfits : host.core.height + 1 < u32Limit := by
      obtain ⟨prepared,hprepared,_⟩ := bind_ok h
      rw [hcons,List.mapM_cons] at hprepared
      obtain ⟨p,hp,_⟩ := bind_ok hprepared
      have hfits := (chainPrepared_ok hp).1
      rw [hchain.height] at hfits
      exact hfits
    obtain ⟨primed,hprimed,hsame,hfollows',hretains⟩ :=
      startBatch_follows hchain hclient hfollows hfits
    have hnames : primed.names = host.names := by rw [NamesHost.names,hsame.resolvers]; rfl
    obtain ⟨next,hnext,hsame',hdeltas⟩ := chainReplay_same laws hchain hsame hfollows.base
      hfollows.endsAt (by rw [← hsame.core]; exact hfollows'.endsAt) h
    have happly : applyBatch env client (chain.segment (host.core.height + 1) stop) primed =
        .ok next := by
      rw [← hsame.core] at hnext hlow ⊢
      exact (applyBatch_iff laws hchain hretains hlow (by rw [hnames]; exact hserves)).mpr hnext
    rw [hcons] at happly ⊢
    refine ⟨next.1,?_,hsame'⟩
    rw [applyCompactBlocks,hprimed]
    dsimp only
    rw [happly]
    dsimp only
    rw [hdeltas]

end

end CoppiceWallet.Names
