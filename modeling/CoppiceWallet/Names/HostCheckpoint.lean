import CoppiceWallet.Names.CommitReference
import CoppiceWallet.Names.Host

/-! # The checkpoint of the Names host -/

namespace CoppiceWallet.Names

open CoppiceWallet.Lib CoppiceWallet.Store

variable {R : Type} {env : HostEnv R}

inductive HostStep
  | applyBlock (prepared : PreparedBlock)
  | primeCompactBlocks (tail : List CompactBlock)
  | watchRegistrations (registrations : List StoredRegistration)

def HostStep.apply (env : HostEnv R) : HostStep → NamesHost R → StoreResult (NamesHost R)
  | .applyBlock prepared, host => Prod.fst <$> Names.applyBlock env prepared host
  | .primeCompactBlocks tail, host => .ok { host with recentCompactBlocks := tail }
  | .watchRegistrations registrations, host => .ok (Names.watchRegistrations registrations host)

variable {context : BlockContext} {core : CorePosition} {prepared : PreparedBlock}

theorem blockContext_ok {names : List Text}
    (h : blockContext env prepared names core = .ok context) :
    prepared.block.height < u32Limit ∧ ∃ routes,
      namedRoutesForHeight env names prepared.block.height = .ok routes ∧
      env.applyCore core prepared.block prepared.source prepared.observeGeneric
        (routes.map Prod.snd) = .ok context := by
  obtain ⟨height,hheight,h⟩ := bind_ok h
  unfold u32Height at hheight
  split at hheight
  · rename_i hfits
    cases hheight
    obtain ⟨routes,hroutes,h⟩ := bind_ok h
    exact ⟨hfits,routes,hroutes,h⟩
  · cases hheight

variable {host : NamesHost R}

theorem applyBlock_ok {result : NamesHost R × ManagedBlockDelta}
    (h : applyBlock env prepared host = .ok result) : ∃ context resolvers delta tail,
      blockContext env prepared host.names host.core = .ok context ∧
      applyAuthenticatedBlock env context prepared.referenced host.resolvers =
        .ok (resolvers,delta) ∧
      rememberCompactBlock env.parameters.commitTtlBlocks host.recentCompactBlocks
        prepared.block = .ok tail ∧
      result = (⟨context.toCorePosition,resolvers,tail,host.watchedCommitTxids⟩,delta) := by
  obtain ⟨context,hcontext,h⟩ := bind_ok h
  obtain ⟨⟨resolvers,delta⟩,hresolvers,h⟩ := bind_ok h
  obtain ⟨tail,htail,h⟩ := bind_ok h
  cases h
  exact ⟨context,resolvers,delta,tail,hcontext,hresolvers,htail,rfl⟩

theorem applyAuthenticatedBlock_ok {referenced : Text → List ReferencedCommit}
    {resolvers resolvers' : ManagedResolvers R} {delta : ManagedBlockDelta}
    (h : applyAuthenticatedBlock env context referenced resolvers = .ok (resolvers',delta)) :
    List.Forall₂ (fun managed managed' => ∃ outcome,
      applyManaged env context referenced managed = .ok (managed',outcome))
      resolvers.rows resolvers'.rows := by
  obtain ⟨⟨applied,outcomes⟩,happlied,h⟩ := bind_ok h
  obtain ⟨delta,_,h⟩ := bind_ok h
  cases h
  exact Table.traverse_ok happlied

/-- What the protocol crates promise: canonical values stay canonical, a resolver that applied a
block stands at it, its snapshot gives it back, and positions lie inside the tree. -/
structure CheckpointLaws (env : HostEnv R) where
  nameOf : R → Text
  parsed : ∀ {value name}, env.parseName value = .ok name → env.parseName name = .ok name
  fresh : ∀ {name hash resolver}, env.resolver.new name hash = .ok resolver →
    nameOf resolver = name ∧ env.resolver.tip resolver = none
  snapshot : ∀ resolver, ∃ bytes, env.resolver.saveSnapshot resolver = .ok bytes ∧
    env.resolver.loadSnapshot (nameOf resolver) bytes = .ok resolver
  applied : ∀ {resolver block referenced resolver' stateDelta},
    env.resolver.applyBlockDetailed resolver block referenced = .ok (resolver',stateDelta) →
      nameOf resolver' = nameOf resolver ∧
        env.resolver.tip resolver' = some ⟨block.height,block.hash⟩
  futureNf : ∀ {resolver height resolution head},
    env.resolver.resolve resolver height = .ok resolution → resolution.head = some head →
      env.canonicalField head.futureNf = true
  inspected : ∀ {context name block}, env.inspectBlock context name = .ok block →
    (⟨block.height,block.hash⟩ : ChainPoint) = context.toChainPoint
  nullifiers : ∀ {context name block}, env.inspectBlock context name = .ok block →
    ∀ transaction ∈ block.transactions, ∀ nullifier ∈ transaction.nullifiers,
      env.canonicalField nullifier = true
  uas : ∀ {context name block}, env.inspectBlock context name = .ok block →
    ∀ transaction ∈ block.transactions,
      (∀ commit ua actionIndex, transaction.operation = some (.reveal commit ua actionIndex) →
        ∃ parsed, env.parseUa ua = .ok parsed) ∧
      ∀ predecessor ua actionIndex,
        transaction.operation = some (.refresh predecessor ua actionIndex) →
          ∃ parsed, env.parseUa ua = .ok parsed
  cores : ∀ {core block source observeGeneric routes context},
    env.applyCore core block source observeGeneric routes = .ok context →
      env.newCore context.toCorePosition = .ok () ∧ core.treeSize ≤ context.treeSize
  positions : ∀ {core block source observeGeneric routes context},
    env.applyCore core block source observeGeneric routes = .ok context →
      ∀ {txIndex actionIndex position},
        env.actionPosition context txIndex actionIndex = .ok position →
          position < context.treeSize

/-- A bond position that a checkpoint may hold. -/
def SoundPosition (env : HostEnv R) (treeSize : Nat) (entry : Bytes32 × Nat) : Prop :=
  env.canonicalField entry.1 = true ∧ entry.2 < treeSize

def CanonicalOrigin (env : HostEnv R) (origin : BondOrigin) : Prop :=
  (∃ parsed, env.parseUa origin.ua = .ok parsed) ∧
    env.canonicalField origin.actionNullifier = true

structure SoundResolver (laws : CheckpointLaws env) (core : CorePosition)
    (managed : ManagedResolver R) : Prop where
  name : env.parseName managed.name = .ok managed.name
  named : laws.nameOf managed.resolver = managed.name
  tip : tipMatches env core managed.resolver = true
  positions : ∀ entry ∈ managed.bondPositions.rows, SoundPosition env core.treeSize entry
  origin : ∀ origin, managed.bondOrigin = some origin → CanonicalOrigin env origin
  resolves : managed.bondOrigin.isSome → ∃ resolution,
    env.resolver.resolve managed.resolver core.height = .ok resolution

structure SoundHost (laws : CheckpointLaws env) (host : NamesHost R) : Prop where
  core : env.newCore host.core = .ok ()
  resolvers : ∀ managed ∈ host.resolvers.rows, SoundResolver laws host.core managed

theorem fromCheckpoint_sound (laws : CheckpointLaws env) {checkpoint : CorePosition}
    {names : List Text} (h : fromCheckpoint env checkpoint names = .ok host)
    (hactivation : checkedAddU32 checkpoint.height 1 = some env.parameters.activationHeight) :
    SoundHost laws host := by
  obtain ⟨_,hcore,h⟩ := bind_ok h
  obtain ⟨resolvers,hresolvers,h⟩ := bind_ok h
  cases h
  refine ⟨hcore,?_⟩
  refine foldlM_invariant
    (P := fun resolvers : ManagedResolvers R => ∀ managed ∈ resolvers.rows,
      SoundResolver laws checkpoint managed) hresolvers (fun _ h => by cases h) ?_
  intro acc acc' value _ hacc hadd
  obtain ⟨name,hname,hadd⟩ := bind_ok hadd
  obtain ⟨resolver,hresolver,hadd⟩ := bind_ok hadd
  rw [(Table.insert_eq_some (okOr_ok hadd)).1]
  intro managed hmanaged
  rcases List.mem_append.mp hmanaged with hmanaged | hmanaged
  · exact hacc managed hmanaged
  · obtain ⟨hnamed,htip⟩ := laws.fresh hresolver
    rw [List.mem_singleton.mp hmanaged]
    refine ⟨laws.parsed hname,hnamed,?_,fun _ h => ?_,fun _ h => ?_,fun h => ?_⟩
    · rw [tipMatches,htip]
      exact decide_eq_true hactivation
    all_goals cases h

theorem producedOrigin_canonical (laws : CheckpointLaws env) {name : Text} {block : ExactBlock}
    (hblock : env.inspectBlock context name = .ok block) {head : Head} {origin : BondOrigin}
    (h : producedOrigin block head = .ok origin) : CanonicalOrigin env origin := by
  obtain ⟨producer,hproducer,h⟩ := bind_ok h
  obtain ⟨nullifier,hnullifier,h⟩ := bind_ok h
  have hmem := List.mem_of_find?_eq_some (okOr_ok hproducer)
  have hcanonical := laws.nullifiers hblock producer hmem nullifier
    (List.mem_of_getElem? (okOr_ok hnullifier))
  obtain ⟨hreveal,hrefresh⟩ := laws.uas hblock producer hmem
  split at h
  · rename_i hoperation
    cases h
    exact ⟨hreveal _ _ _ hoperation,hcanonical⟩
  · rename_i hoperation
    cases h
    exact ⟨hrefresh _ _ _ hoperation,hcanonical⟩
  · cases h

theorem newBond_some {block : ExactBlock} {head : Option Head} {bond : Bytes32 × Nat × BondOrigin}
    (h : newBond env context block head = .ok (some bond)) :
    ∃ produced, head = some produced ∧ bond.1 = produced.futureNf ∧
      env.actionPosition context produced.producer.txIndex produced.producer.actionIndex =
        .ok bond.2.1 ∧ producedOrigin block produced = .ok bond.2.2 := by
  cases head with
  | none => cases h
  | some produced =>
    rw [newBond] at h
    split at h
    · cases h
    · obtain ⟨position,hposition,h⟩ := bind_ok h
      obtain ⟨origin,horigin,h⟩ := bind_ok h
      cases h
      exact ⟨produced,rfl,rfl,hposition,horigin⟩

variable {managed : ManagedResolver R}

theorem applyManaged_sound (laws : CheckpointLaws env) {block : CompactBlock}
    {source : Bytes32 → Option Bytes} {observeGeneric : Bool} {routes : List Bytes}
    {referenced : Text → List ReferencedCommit} {managed' : ManagedResolver R}
    {outcome : ExactOutcome}
    (hcontext : env.applyCore core block source observeGeneric routes = .ok context)
    (h : applyManaged env context referenced managed = .ok (managed',outcome))
    (hsound : SoundResolver laws core managed) :
    SoundResolver laws context.toCorePosition managed' := by
  obtain ⟨exactBlock,resolver,stateDelta,resolution,bond,hexact,happly,hresolution,hbond,rfl⟩ :=
    applyManaged_ok h
  obtain ⟨hnamed,htip⟩ := laws.applied happly
  have hpoint := laws.inspected hexact
  have hresolves : env.resolver.resolve resolver context.height = .ok resolution := by
    rw [← hpoint]
    exact hresolution
  have htip' : tipMatches env context.toCorePosition resolver = true := by
    rw [tipMatches,htip,hpoint]
    exact decide_eq_true rfl
  have hkept : ∀ entry ∈ (unspentPositions managed.bondPositions exactBlock).rows,
      SoundPosition env context.treeSize entry := by
    intro entry hentry
    obtain ⟨hcanonical,hlt⟩ := hsound.positions entry (Table.mem_delete.mp hentry).1
    exact ⟨hcanonical,hlt.trans_le (laws.cores hcontext).2⟩
  cases bond with
  | none =>
    exact ⟨hsound.name,hnamed.trans hsound.named,htip',hkept,hsound.origin,
      fun _ => ⟨resolution,hresolves⟩⟩
  | some bond =>
    obtain ⟨futureNf,position,origin⟩ := bond
    obtain ⟨head,hhead,rfl,hposition,horigin⟩ := newBond_some hbond
    refine ⟨hsound.name,hnamed.trans hsound.named,htip',fun entry hentry => ?_,fun _ h => ?_,
      fun _ => ⟨resolution,hresolves⟩⟩
    · rcases Table.mem_replace.mp hentry with ⟨hentry,_⟩ | rfl
      · exact hkept entry hentry
      · exact ⟨laws.futureNf hresolution hhead,laws.positions hcontext hposition⟩
    · cases h
      exact producedOrigin_canonical laws hexact horigin

theorem applyBlock_sound (laws : CheckpointLaws env) {result : NamesHost R × ManagedBlockDelta}
    (h : applyBlock env prepared host = .ok result) (hsound : SoundHost laws host) :
    SoundHost laws result.1 := by
  obtain ⟨context,resolvers,delta,tail,hcontext,happlied,_,rfl⟩ := applyBlock_ok h
  obtain ⟨_,routes,_,hcontext⟩ := blockContext_ok hcontext
  refine ⟨(laws.cores hcontext).1,fun managed' hmanaged' => ?_⟩
  obtain ⟨managed,hmanaged,outcome,hmanaged'⟩ :=
    forall₂_mem_right (applyAuthenticatedBlock_ok happlied) hmanaged'
  exact applyManaged_sound laws hcontext hmanaged' (hsound.resolvers managed hmanaged)

theorem HostStep.sound (laws : CheckpointLaws env) {step : HostStep} {host' : NamesHost R}
    (h : step.apply env host = .ok host') (hsound : SoundHost laws host) :
    SoundHost laws host' := by
  cases step with
  | applyBlock prepared =>
    obtain ⟨result,hresult,rfl⟩ := map_ok h
    exact applyBlock_sound laws hresult hsound
  | primeCompactBlocks | watchRegistrations =>
    cases h
    exact ⟨hsound.core,hsound.resolvers⟩

theorem loadBondPositions_ok {positions : BondPositions} {treeSize : Nat}
    (h : ∀ entry ∈ positions.rows, SoundPosition env treeSize entry) :
    positions.rows.foldlM (loadBondPosition env treeSize) Table.empty = .ok positions := by
  refine Table.foldlM_insert (S := fun entry entry' => entry' = entry ∧
    SoundPosition env treeSize entry) positions (List.forall₂_same.mpr fun entry hentry =>
      ⟨rfl,h entry hentry⟩) ?_
  rintro entry _ ⟨rfl,hcanonical,hlt⟩ acc acc' hinsert
  rw [loadBondPosition,hcanonical,if_neg (by simp),if_neg (Nat.not_le.mpr hlt),hinsert]
  rfl

/-- The head that the name resolves to at the tip is the one that its bond belongs to. -/
def OriginResolves (env : HostEnv R) (core : CorePosition) (managed : ManagedResolver R) : Prop :=
  ∀ origin, managed.bondOrigin = some origin → ∃ resolution head,
    env.resolver.resolve managed.resolver core.height = .ok resolution ∧
      resolution.head = some head ∧ origin.belongsTo head

variable {laws : CheckpointLaws env}

theorem checkBondOrigin_iff (hsound : SoundResolver laws core managed) :
    checkBondOrigin env core managed.resolver managed.bondOrigin = .ok () ↔
      OriginResolves env core managed := by
  cases horigin : managed.bondOrigin with
  | none =>
    refine iff_of_true rfl fun origin h => ?_
    rw [horigin] at h
    cases h
  | some origin =>
    obtain ⟨⟨parsed,hparsed⟩,hfield⟩ := hsound.origin origin horigin
    obtain ⟨resolution,hresolution⟩ := hsound.resolves (by rw [horigin]; rfl)
    have hresolves : OriginResolves env core managed ↔
        ∃ head, resolution.head = some head ∧ origin.belongsTo head := by
      constructor
      · intro h
        obtain ⟨resolution',head,hresolution',hhead,hbelongs⟩ := h origin horigin
        rw [hresolution] at hresolution'
        cases hresolution'
        exact ⟨head,hhead,hbelongs⟩
      · rintro ⟨head,hhead,hbelongs⟩ origin' horigin'
        rw [horigin] at horigin'
        cases horigin'
        exact ⟨resolution,head,hresolution,hhead,hbelongs⟩
    rw [hresolves,checkBondOrigin,hparsed,ok_bind,hfield,if_neg (by simp),hresolution,ok_bind]
    cases hhead : resolution.head with
    | none =>
      constructor
      · intro h
        cases h
      · rintro ⟨head,h,_⟩
        cases h
    | some head =>
      rw [okOr_some,ok_bind]
      by_cases hbelongs : origin.belongsTo head
      · rw [if_pos hbelongs]
        exact ⟨fun _ => ⟨head,rfl,hbelongs⟩,fun _ => rfl⟩
      · rw [if_neg hbelongs]
        constructor
        · intro h
          cases h
        · rintro ⟨_,h,hbelongs'⟩
          cases h
          exact absurd hbelongs' hbelongs

/-- What is stored of a sound resolver. -/
structure Stores (env : HostEnv R) (managed : ManagedResolver R) (stored : StoredManagedResolver) :
    Prop where
  name : stored.name = managed.name
  resolver : env.resolver.loadSnapshot managed.name stored.resolver = .ok managed.resolver
  bondPositions : stored.bondPositions = managed.bondPositions.rows
  bondOrigin : stored.bondOrigin = managed.bondOrigin

theorem saveResolver_ok (hsound : SoundResolver laws core managed) :
    ∃ stored, saveResolver env managed = .ok stored ∧ Stores env managed stored := by
  obtain ⟨bytes,hsave,hload⟩ := laws.snapshot managed.resolver
  rw [hsound.named] at hload
  exact ⟨_,by rw [saveResolver,hsave]; rfl,rfl,hload,rfl,rfl⟩

theorem loadResolver_eq {stored : StoredManagedResolver} (hstores : Stores env managed stored)
    (hsound : SoundResolver laws core managed) (resolvers : ManagedResolvers R) :
    loadResolver env core resolvers stored =
      (checkBondOrigin env core managed.resolver managed.bondOrigin >>= fun _ =>
        okOr (resolvers.insert managed) "checkpoint contains a duplicate managed name") := by
  rw [loadResolver,hstores.name,hsound.name,ok_bind,hstores.resolver,ok_bind,hsound.tip,
    if_neg (by simp),hstores.bondPositions,loadBondPositions_ok hsound.positions,ok_bind,
    hstores.bondOrigin]

theorem saveResolvers_ok (hsound : SoundHost laws host) :
    ∃ stored, host.resolvers.rows.mapM (saveResolver env) = .ok stored ∧
      List.Forall₂ (fun managed x => managed ∈ host.resolvers.rows ∧ Stores env managed x)
        host.resolvers.rows stored := by
  refine mapM_exists fun managed hmanaged => ?_
  obtain ⟨x,hx,hstores⟩ := saveResolver_ok (hsound.resolvers managed hmanaged)
  exact ⟨x,hx,hmanaged,hstores⟩

theorem loadCheckpoint_resolves {loaded : NamesHost R} (hsound : SoundHost laws host)
    (h : (saveCheckpoint env host >>= loadCheckpoint env) = .ok loaded) :
    ∀ managed ∈ host.resolvers.rows, OriginResolves env host.core managed := by
  obtain ⟨stored,hstored,hrows⟩ := saveResolvers_ok hsound
  rw [saveCheckpoint,hstored,ok_bind,pure_bind,loadCheckpoint,if_neg (by simp)] at h
  dsimp only at h
  rw [hsound.core,ok_bind] at h
  intro managed hmanaged
  obtain ⟨resolvers,hresolvers,_⟩ := bind_ok h
  obtain ⟨x,hx,_,hstores⟩ := forall₂_mem_left hrows hmanaged
  obtain ⟨acc,acc',hload⟩ := foldlM_ok_mem hresolvers hx
  rw [loadResolver_eq hstores (hsound.resolvers managed hmanaged)] at hload
  obtain ⟨_,hcheck,_⟩ := bind_ok hload
  exact (checkBondOrigin_iff (hsound.resolvers managed hmanaged)).mp hcheck

theorem loadCheckpoint_of_resolves (hsound : SoundHost laws host)
    (h : ∀ managed ∈ host.resolvers.rows, OriginResolves env host.core managed) :
    (saveCheckpoint env host >>= loadCheckpoint env) =
      .ok { host with recentCompactBlocks := [], watchedCommitTxids := [] } := by
  obtain ⟨stored,hstored,hrows⟩ := saveResolvers_ok hsound
  have hload : stored.foldlM (loadResolver env host.core) Table.empty = .ok host.resolvers := by
    refine Table.foldlM_insert host.resolvers hrows fun managed x hx acc acc' hinsert => ?_
    obtain ⟨hmanaged,hstores⟩ := hx
    have hsound := hsound.resolvers managed hmanaged
    rw [loadResolver_eq hstores hsound,(checkBondOrigin_iff hsound).mpr (h managed hmanaged),
      ok_bind,hinsert]
    rfl
  rw [saveCheckpoint,hstored,ok_bind,pure_bind,loadCheckpoint,if_neg (by simp)]
  dsimp only
  rw [hsound.core,ok_bind,hload]
  rfl

theorem loadCheckpoint_eq {loaded : NamesHost R} (hsound : SoundHost laws host)
    (h : (saveCheckpoint env host >>= loadCheckpoint env) = .ok loaded) :
    loaded = { host with recentCompactBlocks := [], watchedCommitTxids := [] } := by
  have hloads := loadCheckpoint_of_resolves hsound (loadCheckpoint_resolves hsound h)
  rw [h] at hloads
  exact Except.ok.inj hloads

/-- The COMMIT of the name goes to the wallet's route, its REVEAL to the route of the name. -/
def commitAction : Bytes := [1]

def revealAction : Bytes := [2]

/-- A block that stands at its own height in the hash, with at most one transaction. -/
def leaseBlock (height : Nat) (transactions : List (Bytes32 × Bytes)) : CompactBlock where
  height := height
  hash := some (BitVec.ofNat 256 height)
  prevHash := some (BitVec.ofNat 256 (height - 1))
  vtx := transactions.map fun (txid,action) => ⟨0,some txid,[action]⟩

def leaseHead (height : Nat) : Head where
  producer := ⟨height,0,9,0⟩
  producerEpoch := 0
  ua := ['u']
  commitment := 5
  futureNf := 6
  expiryHeight := height + 1
  terminalHeight := none

/-- The blocks since the activation, the newest first, each marked when it gave the name a head.
A head lasts for two blocks. -/
def leaseResolver : ExactResolver Bytes where
  new name _ := if name = ['n'] then .ok [] else .error "another name"
  tip
    | [] => none
    | _ :: marks => some ⟨100 + marks.length,BitVec.ofNat 256 (100 + marks.length)⟩
  resolve marks height :=
    match marks.findIdx? fun mark => decide (mark = 1) with
    | some age =>
      if height < 99 + marks.length - age + 2 then
        .ok ⟨.active,some (leaseHead (99 + marks.length - age))⟩
      else .ok ⟨.missing,none⟩
    | none => .ok ⟨.missing,none⟩
  applyBlockDetailed marks block referenced :=
    if block.height = 100 + marks.length ∧ block.hash = BitVec.ofNat 256 block.height then
      .ok ((if block.transactions.isEmpty || referenced.isEmpty then 0 else 1) :: marks,
        ⟨none,some ⟨block.height,block.hash⟩,[],[]⟩)
    else .error "the block does not follow the tip"
  pendingCommit _ _ := none
  saveSnapshot := .ok
  loadSnapshot _ := .ok

def leaseEnv : HostEnv Bytes where
  parameters := thousandBlockEpochs
  resolver := leaseResolver
  parseName := .ok
  parseUa := .ok
  canonicalField _ := true
  rendezvous := commitAction
  nameRoute _ := .ok revealAction
  acceptsOperation _ _ := true
  compactAction := some
  isRendezvous route action := decide (route = action)
  newCore _ := .ok ()
  applyCore core block _ _ _ :=
    if block.height = core.height + 1 ∧ block.hash = some (BitVec.ofNat 256 block.height) then
      .ok {
        height := block.height
        hash := BitVec.ofNat 256 block.height
        treeSize := core.treeSize + block.vtx.length
        transactions := block.vtx.map fun transaction =>
          ⟨transaction.index,[0],transaction.ironwoodActions.flatten⟩ }
    else .error "the block does not follow the tip"
  actionPosition context _ _ :=
    if 0 < context.treeSize then .ok (context.treeSize - 1) else .error "no action"
  inspectBlock context _ := .ok {
    height := context.height
    hash := context.hash
    transactions := (context.transactions.filter fun transaction =>
      decide (transaction.content = revealAction)).map fun transaction =>
        ⟨transaction.txIndex,9,[3],some (.reveal ⟨100,0,8⟩ ['u'] 0),transaction.content⟩ }
  authenticate _ _ _ := .ok ()
  inspectName _ _ _ _ := .ok (some (.reveal ⟨100,0,8⟩ ['u'] 0))
  inspectCommit _ _ _ := .ok (some (.commit 5))
  maxFullTransactionBytes := 1000

def leaseLaws : CheckpointLaws leaseEnv where
  nameOf _ := ['n']
  parsed _ := rfl
  fresh := by
    intro name hash resolver h
    change (if name = ['n'] then _ else _) = _ at h
    split at h
    · rename_i hname
      cases h
      exact ⟨hname.symm,rfl⟩
    · cases h
  snapshot resolver := ⟨resolver,rfl,rfl⟩
  applied := by
    intro marks block referenced resolver' stateDelta h
    change (if _ then _ else _) = _ at h
    split at h
    · rename_i hblock
      cases h
      refine ⟨rfl,?_⟩
      show some _ = _
      rw [hblock.2,hblock.1]
    · cases h
  futureNf _ _ := rfl
  inspected h := by
    cases h
    rfl
  nullifiers _ _ _ _ _ := rfl
  uas _ _ _ := ⟨fun _ ua _ _ => ⟨ua,rfl⟩,fun _ ua _ _ => ⟨ua,rfl⟩⟩
  cores := by
    intro core block source observeGeneric routes context h
    change (if _ then _ else _) = _ at h
    split at h
    · cases h
      exact ⟨rfl,Nat.le_add_right _ _⟩
    · cases h
  positions := by
    intro core block source observeGeneric routes context _ txIndex actionIndex position h
    change (if _ then _ else _) = _ at h
    split at h
    · rename_i hsize
      cases h
      exact Nat.sub_one_lt_of_lt hsize
    · cases h

def leaseChain (height : Nat) : CompactBlock :=
  leaseBlock height
    (if height = 100 then [(8,commitAction)] else if height = 102 then [(9,revealAction)] else [])

def leaseCheckpoint : CorePosition := ⟨⟨99,99⟩,0⟩

def leaseStep (height : Nat) : HostStep :=
  .applyBlock ⟨leaseChain height,fun _ => none,false,fun _ =>
    if height = 102 then [⟨⟨100,0,8⟩,5⟩] else []⟩

end CoppiceWallet.Names
