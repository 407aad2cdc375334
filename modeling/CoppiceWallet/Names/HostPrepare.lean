import CoppiceWallet.Names.CompactTail

/-! # Preparing a batch -/

namespace CoppiceWallet.Names

open CoppiceWallet.Lib CoppiceWallet.Store

variable {R : Type} {env : HostEnv R} {chain : CompactChain}

theorem historyEntries_height {block : CompactBlock} {entry : CommitRef × CompactTx}
    (h : entry ∈ historyEntries block) : entry.1.height = block.height := by
  obtain ⟨transaction,_,h⟩ := List.mem_filterMap.mp h
  split at h
  · obtain ⟨txid,_,rfl⟩ := Option.map_eq_some_iff.mp h
    rfl
  · cases h

variable {reference : CommitRef}

theorem find_historyEntries_none {blocks : List CompactBlock}
    (h : ∀ block ∈ blocks, block.height ≠ reference.height) :
    ((blocks.flatMap historyEntries).reverse.find? fun entry => decide (entry.1 = reference)) =
      none := by
  refine List.find?_eq_none.mpr fun entry hentry => ?_
  obtain ⟨block,hblock,hentry⟩ := List.mem_flatMap.mp (List.mem_reverse.mp hentry)
  intro hreference
  rw [← of_decide_eq_true hreference] at h
  exact h block hblock (historyEntries_height hentry).symm

theorem history_segment (hchain : chain.Linked) {prior current : List CompactBlock} {a b : Nat}
    (hblocks : prior ++ current = chain.segment a b) (ha : a ≤ reference.height)
    (hb : reference.height < b) : compactTransactionHistory prior current reference =
      compactTransactionHistory [] [chain reference.height] reference := by
  have hbefore : ∀ block ∈ chain.segment a reference.height, block.height ≠ reference.height := by
    intro block hblock
    obtain ⟨h,hlt,rfl⟩ := mem_segment.mp hblock
    rw [hchain.height]
    omega
  have hafter : ∀ block ∈ chain.segment (reference.height + 1) b,
      block.height ≠ reference.height := by
    intro block hblock
    obtain ⟨h,hlt,rfl⟩ := mem_segment.mp hblock
    rw [hchain.height]
    omega
  rw [compactTransactionHistory,hblocks,← segment_append ha hb.le,segment_cons hb,
    List.flatMap_append,List.flatMap_cons,List.reverse_append,List.reverse_append,
    List.find?_append,List.find?_append,find_historyEntries_none hbefore,
    find_historyEntries_none hafter]
  simp [compactTransactionHistory]

/-- Every transaction that may be requested is served, within the limits of the acquisition. -/
structure Serves (env : HostEnv R) (client : CompactClient) (serve : Bytes32 → Bytes)
    (requestable : Bytes32 → Prop) : Prop where
  served : ∀ txid, requestable txid → client.getTransaction txid = .ok (serve txid)
  bounded : ∀ txid, requestable txid → (serve txid).length ≤ env.maxFullTransactionBytes
  capped : ∀ txids : List Bytes32, txids.Nodup → (∀ txid ∈ txids, requestable txid) →
    (txids.map fun txid => (serve txid).length).sum ≤ maxAcquiredFullTransactionBytes

structure Acquired.From (acquired : Acquired) (serve : Bytes32 → Bytes)
    (requestable : Bytes32 → Prop) : Prop where
  nodup : (acquired.transactions.map Prod.fst).Nodup
  served : ∀ entry ∈ acquired.transactions, requestable entry.1 ∧ entry.2 = serve entry.1
  bytes : acquired.bytes = (acquired.transactions.map fun entry => entry.2.length).sum

variable {client : CompactClient} {serve : Bytes32 → Bytes} {requestable : Bytes32 → Prop}

variable {acquired : Acquired}

theorem Acquired.From.get (h : acquired.From serve requestable) {txid : Bytes32}
    (hget : (acquired.get txid).isSome) : acquired.get txid = some (serve txid) := by
  obtain ⟨raw,hraw⟩ := Option.isSome_iff_exists.mp hget
  obtain ⟨entry,hentry,rfl⟩ := Option.map_eq_some_iff.mp hraw
  have htxid : entry.1 = txid := by simpa using List.find?_some hentry
  rw [hraw,(h.served entry (List.mem_of_find?_eq_some hentry)).2,htxid]

theorem Acquired.get_cons (acquired : Acquired) (txid txid' : Bytes32) (raw : Bytes) (bytes : Nat) :
    Acquired.get ⟨(txid,raw) :: acquired.transactions,bytes⟩ txid' =
      if txid = txid' then some raw else acquired.get txid' := by
  by_cases h : txid = txid'
  · simp [Acquired.get,h]
  · simp [Acquired.get,h]

theorem fetch_served (hserves : Serves env client serve requestable)
    (hacquired : acquired.From serve requestable) {txid : Bytes32} (htxid : requestable txid) :
    ∃ acquired', fetchFullTransaction env client acquired txid = .ok acquired' ∧
      acquired'.From serve requestable ∧
      ∀ t, t = txid ∨ acquired.get t = some (serve t) → acquired'.get t = some (serve t) := by
  rw [fetchFullTransaction]
  by_cases hsome : (acquired.get txid).isSome = true
  · rw [if_pos hsome]
    refine ⟨acquired,rfl,hacquired,fun t ht => ?_⟩
    rcases ht with rfl | ht
    · exact hacquired.get hsome
    · exact ht
  · have hfresh : txid ∉ acquired.transactions.map Prod.fst := by
      intro hmem
      obtain ⟨entry,hentry,rfl⟩ := List.mem_map.mp hmem
      refine hsome ?_
      rw [Acquired.get,Option.isSome_map,List.find?_isSome]
      exact ⟨entry,hentry,decide_eq_true rfl⟩
    have hsame : acquired.transactions.map (fun entry => entry.2.length) =
        (acquired.transactions.map Prod.fst).map fun txid => (serve txid).length := by
      rw [List.map_map]
      refine List.map_congr_left fun entry hentry => ?_
      rw [(hacquired.served entry hentry).2]
      rfl
    have hcap := hserves.capped (txid :: acquired.transactions.map Prod.fst)
      (List.nodup_cons.mpr ⟨hfresh,hacquired.nodup⟩) (by
        intro t ht
        rcases List.mem_cons.mp ht with rfl | ht
        · exact htxid
        · obtain ⟨entry,hentry,rfl⟩ := List.mem_map.mp ht
          exact (hacquired.served entry hentry).1)
    rw [List.map_cons,List.sum_cons,← hsame,← hacquired.bytes] at hcap
    rw [if_neg hsome,hserves.served txid htxid,ok_bind,
      if_neg (Nat.not_lt.mpr (hserves.bounded txid htxid)),if_neg (by omega)]
    refine ⟨_,rfl,⟨?_,?_,?_⟩,fun t ht => ?_⟩
    · exact List.nodup_cons.mpr ⟨hfresh,hacquired.nodup⟩
    · intro entry hentry
      rcases List.mem_cons.mp hentry with rfl | hentry
      · exact ⟨htxid,rfl⟩
      · exact hacquired.served entry hentry
    · rw [List.map_cons,List.sum_cons,← hacquired.bytes,Nat.add_comm]
    · rw [Acquired.get_cons]
      split
      · rename_i h
        rw [h]
      · rename_i h
        exact ht.resolve_left fun ht => h ht.symm

theorem fetchAll_served (hserves : Serves env client serve requestable) {txids : List Bytes32}
    (hacquired : acquired.From serve requestable) (htxids : ∀ txid ∈ txids, requestable txid) :
    ∃ acquired', txids.foldlM (fetchFullTransaction env client) acquired = .ok acquired' ∧
      acquired'.From serve requestable ∧
      ∀ t, t ∈ txids ∨ acquired.get t = some (serve t) → acquired'.get t = some (serve t) := by
  induction txids generalizing acquired with
  | nil => exact ⟨acquired,rfl,hacquired,fun t ht => ht.resolve_left (by simp)⟩
  | cons txid txids ih =>
    obtain ⟨next,hnext,hfrom,hget⟩ := fetch_served hserves hacquired (htxids txid List.mem_cons_self)
    obtain ⟨last,hlast,hfrom',hget'⟩ := ih hfrom fun t ht => htxids t (List.mem_cons_of_mem _ ht)
    refine ⟨last,by rw [List.foldlM_cons,hnext]; exact hlast,hfrom',fun t ht => hget' t ?_⟩
    rcases ht with ht | ht
    · rcases List.mem_cons.mp ht with rfl | ht
      · exact .inr (hget t (.inl rfl))
      · exact .inl ht
    · exact .inr (hget t (.inr ht))

/-- An action of the transaction goes to the generic route or to that of one of the names. -/
def OnRoute (env : HostEnv R) (names : List Text) (transaction : CompactTx) : Prop :=
  ∃ encoded ∈ transaction.ironwoodActions, ∃ action, env.compactAction encoded = some action ∧
    (env.isRendezvous env.rendezvous action = true ∨
      ∃ name ∈ names, ∃ route, env.nameRoute name = .ok route ∧ env.isRendezvous route action = true)

/-- What the Core runtime requests of a block: the transactions on the observed routes. -/
def CoreRequests (env : HostEnv R) (observeGeneric : Bool) (routes : List Bytes)
    (transaction : CompactTx) : Prop :=
  ∃ encoded ∈ transaction.ironwoodActions, ∃ action, env.compactAction encoded = some action ∧
    (observeGeneric = true ∧ env.isRendezvous env.rendezvous action = true ∨
      ∃ route ∈ routes, env.isRendezvous route action = true)

variable {routes : List (Text × Bytes)} {names : List Text}

theorem namedRoutes_mem {height : Nat} (h : namedRoutesForHeight env names height = .ok routes)
    {route : Text × Bytes} (hroute : route ∈ routes) :
    route.1 ∈ names ∧ env.nameRoute route.1 = .ok route.2 := by
  obtain ⟨name,hname,hroute⟩ := forall₂_mem_right (mapM_ok h) hroute
  obtain ⟨bytes,hbytes,hroute⟩ := bind_ok hroute
  cases hroute
  exact ⟨List.mem_of_mem_filter hname,hbytes⟩

variable {transaction : CompactTx}

theorem scanTx_ok {t : ScannedTx} (h : scanTx env routes transaction = .ok t) :
    t.compact = transaction ∧ transaction.txid = some t.txid ∧ ∃ actions,
      List.Forall₂ (fun encoded action => env.compactAction encoded = some action)
        transaction.ironwoodActions actions ∧
      t.generic = actions.any (env.isRendezvous env.rendezvous) ∧
      t.names = (routes.filter fun route => actions.any (env.isRendezvous route.2)).map Prod.fst := by
  obtain ⟨txid,htxid,h⟩ := bind_ok h
  obtain ⟨hits,hhits,h⟩ := bind_ok h
  obtain ⟨actions,hactions,hhits⟩ := bind_ok hhits
  cases hhits
  cases h
  exact ⟨rfl,okOr_ok htxid,actions,(mapM_ok hactions).imp fun _ _ h => okOr_ok h,rfl,rfl⟩

theorem scanTx_onRoute {height : Nat} (hroutes : namedRoutesForHeight env names height = .ok routes)
    {t : ScannedTx} (h : scanTx env routes transaction = .ok t)
    (ht : t.generic = true ∨ t.names.isEmpty = false) : OnRoute env names transaction := by
  obtain ⟨_,_,actions,hactions,hgeneric,hnames⟩ := scanTx_ok h
  rcases ht with ht | ht
  · rw [hgeneric,List.any_eq_true] at ht
    obtain ⟨action,haction,hhit⟩ := ht
    obtain ⟨encoded,hencoded,hdecoded⟩ := forall₂_mem_right hactions haction
    exact ⟨encoded,hencoded,action,hdecoded,.inl hhit⟩
  · obtain ⟨name,hname⟩ := List.exists_mem_of_ne_nil t.names (by
      intro hnil
      rw [hnil] at ht
      cases ht)
    rw [hnames] at hname
    obtain ⟨route,hroute,rfl⟩ := List.mem_map.mp hname
    obtain ⟨hroute,hany⟩ := List.mem_filter.mp hroute
    obtain ⟨action,haction,hhit⟩ := List.any_eq_true.mp hany
    obtain ⟨encoded,hencoded,hdecoded⟩ := forall₂_mem_right hactions haction
    obtain ⟨hname,hnamed⟩ := namedRoutes_mem hroutes hroute
    exact ⟨encoded,hencoded,action,hdecoded,.inr ⟨route.1,hname,route.2,hnamed,hhit⟩⟩

theorem scanTx_requested {observeGeneric : Bool} {t : ScannedTx}
    (h : scanTx env routes transaction = .ok t)
    (hrequests : CoreRequests env observeGeneric (routes.map Prod.snd) transaction) :
    (!t.names.isEmpty || observeGeneric && t.generic) = true := by
  obtain ⟨_,_,actions,hactions,hgeneric,hnames⟩ := scanTx_ok h
  obtain ⟨encoded,hencoded,action,hdecoded,hhit⟩ := hrequests
  obtain ⟨action',haction,hdecoded'⟩ := forall₂_mem_left hactions hencoded
  rw [hdecoded] at hdecoded'
  cases hdecoded'
  rcases hhit with ⟨hobserve,hhit⟩ | ⟨_,hmap,hhit⟩
  · rw [hobserve,hgeneric,List.any_eq_true.mpr ⟨action,haction,hhit⟩]
    simp
  · obtain ⟨route,hroute,rfl⟩ := List.mem_map.mp hmap
    have hmem : route.1 ∈ t.names := by
      rw [hnames]
      exact List.mem_map_of_mem (List.mem_filter.mpr
        ⟨hroute,List.any_eq_true.mpr ⟨action,haction,hhit⟩⟩)
    cases hempty : t.names with
    | nil =>
      rw [hempty] at hmem
      cases hmem
    | cons name rest => rfl

theorem scanBlock_ok {watched : List Bytes32} {block : CompactBlock} {scanned : ScannedBlock}
    (h : scanBlock env names watched block = .ok scanned) :
    block.height < u32Limit ∧ scanned.block = block ∧ ∃ routes,
      namedRoutesForHeight env names block.height = .ok routes ∧
      List.Forall₂ (fun transaction t => scanTx env routes transaction = .ok t) block.vtx
        scanned.transactions := by
  obtain ⟨height,hheight,h⟩ := bind_ok h
  unfold u32Height at hheight
  split at hheight
  · rename_i hlt
    cases hheight
    obtain ⟨routes,hroutes,h⟩ := bind_ok h
    obtain ⟨transactions,htransactions,h⟩ := bind_ok h
    cases h
    exact ⟨hlt,rfl,routes,hroutes,mapM_ok htransactions⟩
  · cases hheight

/-- The transactions that the replay of the blocks from `low` on may ask for. -/
def Requestable (env : HostEnv R) (names : List Text) (chain : CompactChain) (low stop : Nat)
    (txid : Bytes32) : Prop :=
  ∃ h transaction, low ≤ h ∧ h < stop ∧ transaction ∈ (chain h).vtx ∧
    transaction.txid = some txid ∧ OnRoute env names transaction

theorem scanned_requestable {watched : List Bytes32} {low stop h : Nat} {scanned : ScannedBlock}
    (hscanned : scanBlock env names watched (chain h) = .ok scanned) (hlow : low ≤ h)
    (hstop : h < stop) {txid : Bytes32} (htxid : txid ∈ scanned.txids) :
    Requestable env names chain low stop txid := by
  obtain ⟨_,_,routes,hroutes,htransactions⟩ := scanBlock_ok hscanned
  obtain ⟨t,ht,rfl⟩ := List.mem_map.mp htxid
  obtain ⟨ht,hrequested⟩ := List.mem_filter.mp ht
  obtain ⟨transaction,htransaction,hscan⟩ := forall₂_mem_right htransactions ht
  refine ⟨h,transaction,hlow,hstop,htransaction,(scanTx_ok hscan).2.1,
    scanTx_onRoute hroutes hscan ?_⟩
  rw [Bool.or_eq_true,Bool.and_eq_true,Bool.not_eq_true'] at hrequested
  exact hrequested.symm.imp And.right id

/-- The chain itself as the history. -/
def chainHistory (chain : CompactChain) (reference : CommitRef) : Option CompactTx :=
  compactTransactionHistory [] [chain reference.height] reference

theorem chainHistory_some {compact : CompactTx} (h : chainHistory chain reference = some compact) :
    compact ∈ (chain reference.height).vtx ∧ compact.txid = some reference.txid := by
  obtain ⟨entry,hentry,rfl⟩ := Option.map_eq_some_iff.mp h
  have hreference : entry.1 = reference := by simpa using List.find?_some hentry
  have hmem := List.mem_of_find?_eq_some hentry
  rw [List.mem_reverse,List.nil_append,List.flatMap_singleton] at hmem
  obtain ⟨transaction,htransaction,hsome⟩ := List.mem_filterMap.mp hmem
  split at hsome
  · obtain ⟨txid,htxid,rfl⟩ := Option.map_eq_some_iff.mp hsome
    rw [← hreference]
    exact ⟨by rw [← hreference] at htransaction; exact htransaction,htxid⟩
  · cases hsome

variable {history : CommitRef → Option CompactTx}

theorem requestedCommit_congr {history' : CommitRef → Option CompactTx} {revealHeight : Nat}
    (h : ∀ reference, env.parameters.refersTo revealHeight reference = true →
      history reference = history' reference) (compact : CompactTx) (bytes : Bytes) (name : Text) :
    requestedCommit env history revealHeight compact bytes name =
      requestedCommit env history' revealHeight compact bytes name := by
  unfold requestedCommit
  congr 1
  funext parsed
  congr 1
  funext status
  split
  · rename_i commit _ _
    by_cases hrefers : env.parameters.refersTo revealHeight commit = true
    · rw [if_pos hrefers,if_pos hrefers,h commit hrefers]
    · rw [if_neg hrefers,if_neg hrefers]
  · rfl

theorem requestedCommits_congr {history' : CommitRef → Option CompactTx}
    {acquired acquired' : Bytes32 → Option Bytes} {scanned : ScannedBlock}
    (h : ∀ reference, env.parameters.refersTo scanned.block.height reference = true →
      history reference = history' reference)
    (hacquired : ∀ txid ∈ scanned.txids, acquired txid = acquired' txid) :
    requestedCommits env history acquired scanned =
      requestedCommits env history' acquired' scanned := by
  unfold requestedCommits
  congr 1
  refine mapM_congr fun t ht => ?_
  obtain ⟨ht,hnames⟩ := List.mem_filter.mp ht
  have htxid : t.txid ∈ scanned.txids :=
    List.mem_map_of_mem (List.mem_filter.mpr ⟨ht,by rw [hnames,Bool.true_or]⟩)
  unfold requestedByTx
  rw [hacquired t.txid htxid]
  congr 1
  funext bytes
  congr 1
  funext _
  rw [mapM_congr fun name _ => requestedCommit_congr h t.compact bytes name]

theorem requestedCommit_some {revealHeight : Nat} {compact : CompactTx} {bytes : Bytes}
    {name : Text} {request : RequestedCommit}
    (h : requestedCommit env history revealHeight compact bytes name = .ok (some request)) :
    env.parameters.refersTo revealHeight request.reference = true ∧
      history request.reference = some request.compact ∧
      matchesRoute env env.rendezvous request.compact.ironwoodActions = .ok true := by
  obtain ⟨parsed,_,h⟩ := bind_ok h
  obtain ⟨status,_,h⟩ := bind_ok h
  split at h
  · split at h
    · rename_i hrefers
      split at h
      · cases h
      · rename_i referenced hhistory
        obtain ⟨hit,hhit,h⟩ := bind_ok h
        split at h
        · rename_i htrue
          cases h
          rw [htrue] at hhit
          exact ⟨hrefers,hhistory,hhit⟩
        · cases h
    · cases h
  · cases h

theorem requestedCommits_mem {acquired : Bytes32 → Option Bytes} {scanned : ScannedBlock}
    {requests : List RequestedCommit}
    (h : requestedCommits env history acquired scanned = .ok requests) {request : RequestedCommit}
    (hrequest : request ∈ requests) :
    env.parameters.refersTo scanned.block.height request.reference = true ∧
      history request.reference = some request.compact ∧
      matchesRoute env env.rendezvous request.compact.ironwoodActions = .ok true := by
  obtain ⟨requested,hrequested,rfl⟩ := map_ok h
  obtain ⟨part,hpart,hrequest⟩ := List.mem_flatten.mp hrequest
  obtain ⟨t,_,ht⟩ := forall₂_mem_right (mapM_ok hrequested) hpart
  obtain ⟨bytes,_,ht⟩ := bind_ok ht
  obtain ⟨_,_,ht⟩ := bind_ok ht
  obtain ⟨found,hfound,ht⟩ := bind_ok ht
  cases ht
  obtain ⟨name,_,hname⟩ := forall₂_mem_right (mapM_ok hfound) (List.reduceOption_mem_iff.mp hrequest)
  exact requestedCommit_some hname

theorem matchesRoute_true {route : Bytes} {actions : List Bytes}
    (h : matchesRoute env route actions = .ok true) :
    ∃ encoded ∈ actions, ∃ action, env.compactAction encoded = some action ∧
      env.isRendezvous route action = true := by
  induction actions with
  | nil => cases h
  | cons encoded actions ih =>
    obtain ⟨action,haction,h⟩ := bind_ok h
    split at h
    · exact ⟨encoded,List.mem_cons_self,action,okOr_ok haction,‹_›⟩
    · obtain ⟨encoded',hencoded',hhit⟩ := ih h
      exact ⟨encoded',List.mem_cons_of_mem _ hencoded',hhit⟩

theorem referencedCommits_congr {acquired acquired' : Bytes32 → Option Bytes}
    {requests : List RequestedCommit}
    (h : ∀ request ∈ requests, acquired request.reference.txid = acquired' request.reference.txid) :
    referencedCommits env acquired requests = referencedCommits env acquired' requests := by
  unfold referencedCommits
  congr 1
  refine mapM_congr fun request hrequest => ?_
  unfold referencedCommit
  rw [h request hrequest]

/-- The preparation of a block on its own, from the chain and the served transactions. -/
def chainPrepared (env : HostEnv R) (chain : CompactChain) (serve : Bytes32 → Bytes)
    (names : List Text) (watched : List Bytes32) (block : CompactBlock) :
    StoreResult PreparedBlock :=
  scanBlock env names watched block >>= fun scanned =>
    requestedCommits env (chainHistory chain) (fun txid => some (serve txid)) scanned >>=
      fun requests => referencedCommits env (fun txid => some (serve txid)) requests >>=
        fun referenced => pure (preparedBlock (fun txid => some (serve txid)) scanned referenced)

def PreparedBlock.withSource (source : Bytes32 → Option Bytes) (prepared : PreparedBlock) :
    PreparedBlock :=
  { prepared with source := source }

/-- The source has what the Core runtime requests of the block. -/
def SourceServes (env : HostEnv R) (names : List Text) (serve : Bytes32 → Bytes)
    (source : Bytes32 → Option Bytes) (prepared : PreparedBlock) : Prop :=
  ∀ routes, namedRoutesForHeight env names prepared.block.height = .ok routes →
    ∀ transaction ∈ prepared.block.vtx, ∀ txid, transaction.txid = some txid →
      CoreRequests env prepared.observeGeneric (routes.map Prod.snd) transaction →
        source txid = some (serve txid)

section
variable {blocks : List CompactBlock} {host : NamesHost R} {low stop : Nat}
  {scanned : List ScannedBlock}

theorem history_chain (hchain : chain.Linked)
    (hretains : Retains env chain host.core.height host.recentCompactBlocks)
    (hblocks : blocks = chain.segment (host.core.height + 1) stop) {h : Nat}
    (hh : host.core.height + 1 ≤ h ∧ h < stop) {reference : CommitRef}
    (hrefers : env.parameters.refersTo h reference = true) :
    compactTransactionHistory host.recentCompactBlocks blocks reference =
      chainHistory chain reference := by
  obtain ⟨start,hstart,htail,hcovers⟩ := hretains
  simp only [NamesParameters.refersTo,Bool.and_eq_true,decide_eq_true_eq] at hrefers
  refine history_segment hchain (a := start) (b := stop) ?_ ?_ (by omega)
  · rw [htail,hblocks]
    exact segment_append hstart (by omega)
  · by_cases hlow : reference.height ≤ host.core.height
    · exact hcovers reference.height hrefers.1.1.2 hlow (by omega)
    · omega

theorem scanned_block (hscanned : blocks.mapM (scanBlock env host.names host.watchedCommitTxids) =
      .ok scanned) (hblocks : blocks = chain.segment (host.core.height + 1) stop)
    {s : ScannedBlock} (hs : s ∈ scanned) :
    ∃ h, (host.core.height + 1 ≤ h ∧ h < stop) ∧
      scanBlock env host.names host.watchedCommitTxids (chain h) = .ok s := by
  obtain ⟨block,hblock,hs⟩ := forall₂_mem_right (mapM_ok hscanned) hs
  rw [hblocks] at hblock
  obtain ⟨h,hh,rfl⟩ := mem_segment.mp hblock
  exact ⟨h,hh,hs⟩

theorem prepareBatch_scanned (hchain : chain.Linked)
    (hretains : Retains env chain host.core.height host.recentCompactBlocks)
    (hblocks : blocks = chain.segment (host.core.height + 1) stop)
    (hlow : low ≤ host.core.height + 1 - env.parameters.commitTtlBlocks)
    (hserves : Serves env client serve (Requestable env host.names chain low stop))
    (hscanned : blocks.mapM (scanBlock env host.names host.watchedCommitTxids) = .ok scanned) :
    ∃ acquired : Acquired,
      acquired.From serve (Requestable env host.names chain low stop) ∧
      (∀ s ∈ scanned, ∀ txid ∈ s.txids, acquired.get txid = some (serve txid)) ∧
      prepareBatch env client blocks host =
        scanned.mapM (requestedCommits env (chainHistory chain) fun txid => some (serve txid)) >>=
          fun requests => (requests.flatten.map (·.reference.txid)).foldlM
            (fetchFullTransaction env client) acquired >>=
          fun acquired => requests.mapM (referencedCommits env acquired.get) >>=
          fun referenced => pure (List.zipWith (preparedBlock acquired.get) scanned referenced) := by
  have hrequestable : ∀ txid ∈ scanned.flatMap (·.txids),
      Requestable env host.names chain low stop txid := by
    intro txid htxid
    obtain ⟨s,hs,htxid⟩ := List.mem_flatMap.mp htxid
    obtain ⟨h,hh,hscan⟩ := scanned_block hscanned hblocks hs
    exact scanned_requestable hscan (by omega) hh.2 htxid
  have hnothing : Acquired.From ⟨[],0⟩ serve (Requestable env host.names chain low stop) :=
    ⟨.nil,by simp,rfl⟩
  obtain ⟨acquired,hacquired,hfrom,hget⟩ := fetchAll_served hserves hnothing hrequestable
  refine ⟨acquired,hfrom,fun s hs txid htxid => hget txid (.inl (List.mem_flatMap.mpr ⟨s,hs,htxid⟩)),
    ?_⟩
  rw [prepareBatch,hscanned,ok_bind,hacquired,ok_bind]
  dsimp only
  congr 1
  refine mapM_congr fun s hs => requestedCommits_congr (fun reference hrefers => ?_) fun txid htxid =>
    hget txid (.inl (List.mem_flatMap.mpr ⟨s,hs,htxid⟩))
  obtain ⟨h,hh,hscan⟩ := scanned_block hscanned hblocks hs
  obtain ⟨_,hblock,_⟩ := scanBlock_ok hscan
  rw [hblock,hchain.height] at hrefers
  exact history_chain hchain hretains hblocks hh hrefers

theorem requests_requestable (hchain : chain.Linked)
    (hblocks : blocks = chain.segment (host.core.height + 1) stop)
    (hlow : low ≤ host.core.height + 1 - env.parameters.commitTtlBlocks)
    (hscanned : blocks.mapM (scanBlock env host.names host.watchedCommitTxids) = .ok scanned)
    {acquired : Bytes32 → Option Bytes} {requests : List (List RequestedCommit)}
    (hrequests : scanned.mapM (requestedCommits env (chainHistory chain) acquired) = .ok requests) :
    ∀ txid ∈ requests.flatten.map (·.reference.txid),
      Requestable env host.names chain low stop txid := by
  intro txid htxid
  obtain ⟨request,hrequest,rfl⟩ := List.mem_map.mp htxid
  obtain ⟨part,hpart,hrequest⟩ := List.mem_flatten.mp hrequest
  obtain ⟨s,hs,hpart⟩ := forall₂_mem_right (mapM_ok hrequests) hpart
  obtain ⟨h,hh,hscan⟩ := scanned_block hscanned hblocks hs
  obtain ⟨hrefers,hhistory,hhit⟩ := requestedCommits_mem hpart hrequest
  obtain ⟨_,hblock,_⟩ := scanBlock_ok hscan
  rw [hblock,hchain.height] at hrefers
  simp only [NamesParameters.refersTo,Bool.and_eq_true,decide_eq_true_eq] at hrefers
  obtain ⟨hmem,htxid⟩ := chainHistory_some hhistory
  obtain ⟨encoded,hencoded,action,haction,hhit⟩ := matchesRoute_true hhit
  exact ⟨request.reference.height,request.compact,by omega,by omega,hmem,htxid,
    encoded,hencoded,action,haction,.inl hhit⟩

theorem sourceServes (hscanned : blocks.mapM (scanBlock env host.names host.watchedCommitTxids) =
      .ok scanned) {s : ScannedBlock} (hs : s ∈ scanned) {source source' : Bytes32 → Option Bytes}
    (hsource : ∀ txid ∈ s.txids, source txid = some (serve txid))
    (referenced : List (Text × ReferencedCommit)) :
    SourceServes env host.names serve source (preparedBlock source' s referenced) := by
  obtain ⟨block,_,hscan⟩ := forall₂_mem_right (mapM_ok hscanned) hs
  obtain ⟨_,rfl,routes,hroutes,htransactions⟩ := scanBlock_ok hscan
  intro routes' hroutes' transaction htransaction txid htxid hrequests
  have hsame : routes' = routes := Except.ok.inj (hroutes'.symm.trans hroutes)
  rw [hsame] at hrequests
  obtain ⟨t,ht,hscan⟩ := forall₂_mem_left htransactions htransaction
  have ht' : t.txid = txid := Option.some.inj ((scanTx_ok hscan).2.1.symm.trans htxid)
  rw [← ht']
  exact hsource _ (List.mem_map_of_mem (List.mem_filter.mpr ⟨ht,scanTx_requested hscan hrequests⟩))

theorem referenced_served {requests : List (List RequestedCommit)} {acquired : Acquired}
    {known : Bytes32 → Prop}
    (hget : ∀ t, t ∈ requests.flatten.map (·.reference.txid) ∨ known t →
      acquired.get t = some (serve t)) :
    requests.mapM (referencedCommits env acquired.get) =
      requests.mapM (referencedCommits env fun txid => some (serve txid)) := by
  refine mapM_congr fun part hpart => referencedCommits_congr fun request hrequest => hget _ (.inl ?_)
  exact List.mem_map_of_mem (List.mem_flatten.mpr ⟨part,hpart,hrequest⟩)

theorem prepareBatch_cases (hchain : chain.Linked)
    (hretains : Retains env chain host.core.height host.recentCompactBlocks)
    (hblocks : blocks = chain.segment (host.core.height + 1) stop)
    (hlow : low ≤ host.core.height + 1 - env.parameters.commitTtlBlocks)
    (hserves : Serves env client serve (Requestable env host.names chain low stop)) :
    (∃ prepared source, blocks.mapM (chainPrepared env chain serve host.names
        host.watchedCommitTxids) = .ok prepared ∧
      prepareBatch env client blocks host = .ok (prepared.map (·.withSource source)) ∧
      ∀ p ∈ prepared, SourceServes env host.names serve source p) ∨
    ∃ e e', blocks.mapM (chainPrepared env chain serve host.names host.watchedCommitTxids) =
      .error e ∧ prepareBatch env client blocks host = .error e' := by
  cases hprepared : blocks.mapM (chainPrepared env chain serve host.names
      host.watchedCommitTxids) with
  | ok prepared =>
    obtain ⟨scanned,requests,referenced,hscanned,hrequests,hreferenced,rfl⟩ :=
      mapM_stages.mp hprepared
    obtain ⟨acquired,hfrom,hget,hbatch⟩ :=
      prepareBatch_scanned hchain hretains hblocks hlow hserves hscanned
    obtain ⟨last,hlast,_,hget'⟩ := fetchAll_served hserves hfrom
      (requests_requestable hchain hblocks hlow hscanned hrequests)
    refine .inl ⟨_,last.get,rfl,?_,fun p hp => ?_⟩
    · rw [hbatch,hrequests,ok_bind,hlast,ok_bind,referenced_served hget',hreferenced,ok_bind,
        List.map_zipWith]
      rfl
    · rw [← List.map_uncurry_zip_eq_zipWith] at hp
      obtain ⟨pair,hpair,rfl⟩ := List.mem_map.mp hp
      have hs := List.of_mem_zip hpair
      exact sourceServes hscanned hs.1 (fun txid htxid => hget' txid (.inr (hget _ hs.1 txid htxid))) _
  | error e =>
    refine .inr ?_
    cases hresult : prepareBatch env client blocks host with
    | error e' => exact ⟨e,e',rfl,rfl⟩
    | ok batch =>
      obtain ⟨scanned,hscanned,_⟩ := bind_ok hresult
      obtain ⟨acquired,hfrom,_,hbatch⟩ :=
        prepareBatch_scanned hchain hretains hblocks hlow hserves hscanned
      rw [hbatch] at hresult
      obtain ⟨requests,hrequests,hresult⟩ := bind_ok hresult
      obtain ⟨last,hlast,_,hget'⟩ := fetchAll_served hserves hfrom
        (requests_requestable hchain hblocks hlow hscanned hrequests)
      rw [hlast,ok_bind,referenced_served hget'] at hresult
      obtain ⟨referenced,hreferenced,_⟩ := bind_ok hresult
      have hchainPrepared : blocks.mapM (chainPrepared env chain serve host.names
          host.watchedCommitTxids) = .ok _ :=
        mapM_stages.mpr ⟨scanned,requests,referenced,hscanned,hrequests,hreferenced,rfl⟩
      rw [hprepared] at hchainPrepared
      cases hchainPrepared

end

end CoppiceWallet.Names
