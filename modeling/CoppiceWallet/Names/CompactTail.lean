import CoppiceWallet.Names.HostReplay

/-! # The tail of compact blocks -/

namespace CoppiceWallet.Names

open CoppiceWallet.Lib CoppiceWallet.Store

variable {R : Type} {env : HostEnv R}

abbrev CompactChain := Nat → CompactBlock

structure CompactChain.Linked (chain : CompactChain) : Prop where
  height : ∀ h, (chain h).height = h
  hash : ∀ h, (chain h).hash.isSome
  prevHash : ∀ h, (chain h).prevHash.isSome
  link : ∀ h, (chain (h + 1)).prevHash = (chain h).hash

variable {chain : CompactChain} {client : CompactClient}

/-- The blocks from `start` up to the one before `stop`. -/
def CompactChain.segment (chain : CompactChain) (start stop : Nat) : List CompactBlock :=
  (List.range' start (stop - start)).map chain

theorem segment_append {a b c : Nat} (hab : a ≤ b) (hbc : b ≤ c) :
    chain.segment a b ++ chain.segment b c = chain.segment a c := by
  have hrange := List.range'_append_1 (s := a) (m := b - a) (n := c - b)
  rw [show a + (b - a) = b by omega,show b - a + (c - b) = c - a by omega] at hrange
  rw [CompactChain.segment,CompactChain.segment,CompactChain.segment,← List.map_append,hrange]

theorem mem_segment {a b : Nat} {block : CompactBlock} :
    block ∈ chain.segment a b ↔ ∃ h, (a ≤ h ∧ h < b) ∧ chain h = block := by
  rw [CompactChain.segment,List.mem_map]
  refine exists_congr fun h => and_congr_left fun _ => ?_
  rw [List.mem_range'_1]
  omega

theorem segment_self (a : Nat) : chain.segment a a = [] := by
  rw [CompactChain.segment,Nat.sub_self]
  rfl

theorem segment_succ (a : Nat) : chain.segment a (a + 1) = [chain a] := by
  rw [CompactChain.segment,Nat.add_sub_cancel_left]
  rfl

theorem segment_cons {a b : Nat} (h : a < b) :
    chain.segment a b = chain a :: chain.segment (a + 1) b := by
  rw [← segment_append (Nat.le_succ a) h,segment_succ]
  rfl

theorem segment_concat {a b : Nat} (h : a ≤ b) :
    chain.segment a (b + 1) = chain.segment a b ++ [chain b] := by
  rw [← segment_append h (Nat.le_succ b),segment_succ]
variable {height start : Nat}

theorem pruneCompactBlocks_segment (hchain : chain.Linked) {ttl : Nat} (hfits : height < u32Limit)
    (hstart : start ≤ height + 1) :
    pruneCompactBlocks ttl height (chain.segment start (height + 1)) =
      chain.segment (max start (height + 1 - ttl)) (height + 1) := by
  induction hn : height + 1 - start generalizing start with
  | zero =>
    have hempty : start = height + 1 := by omega
    rw [hempty,segment_self,Nat.max_eq_left (Nat.sub_le _ _),segment_self]
    rfl
  | succ n ih =>
    by_cases hold : ttl ≤ height - start
    · rw [segment_cons (show start < height + 1 by omega),pruneCompactBlocks,List.dropWhile_cons_of_pos,
        ← pruneCompactBlocks,ih (by omega) (by omega)]
      · congr 1
        omega
      · rw [hchain.height,Bool.and_eq_true,decide_eq_true_iff,decide_eq_true_iff]
        omega
    · rw [Nat.max_eq_left (by omega),segment_cons (show start < height + 1 by omega),
        pruneCompactBlocks,List.dropWhile_cons_of_neg]
      rw [hchain.height,Bool.and_eq_true,decide_eq_true_iff,decide_eq_true_iff]
      omega

theorem rememberCompactBlock_segment (hchain : chain.Linked) {ttl : Nat} (hfits : height < u32Limit)
    (hstart : start ≤ height) :
    rememberCompactBlock ttl (chain.segment start height) (chain height) =
      .ok (chain.segment (max start (height + 1 - ttl)) (height + 1)) := by
  have hordered : ((chain.segment start height).getLast?.any fun prior =>
      decide (prior.height < u32Limit) && decide (height ≤ prior.height)) = false := by
    rw [Option.any_eq_false]
    intro prior hprior
    obtain ⟨h,hh,rfl⟩ := mem_segment.mp (List.mem_of_mem_getLast? hprior)
    rw [hchain.height,Bool.and_eq_false_iff,decide_eq_false_iff_not,decide_eq_false_iff_not]
    omega
  rw [rememberCompactBlock,hchain.height,u32Height,if_pos hfits,ok_bind,hordered,if_neg (by simp),
    ← segment_concat hstart,pruneCompactBlocks_segment hchain hfits (by omega)]
  rfl

/-- The tail reaches back to every block that a REVEAL above the tip may refer to. -/
def Retains (env : HostEnv R) (chain : CompactChain) (height : Nat) (tail : List CompactBlock) :
    Prop :=
  ∃ start ≤ height + 1, tail = chain.segment start (height + 1) ∧
    ∀ h, env.parameters.activationHeight ≤ h → h ≤ height →
      height + 1 < h + env.parameters.commitTtlBlocks → start ≤ h

/-- The tail ends at the tip. -/
def EndsAt (chain : CompactChain) (height : Nat) (tail : List CompactBlock) : Prop :=
  ∃ start ≤ height + 1, tail = chain.segment start (height + 1)

variable {tail : List CompactBlock}

theorem Retains.endsAt (h : Retains env chain height tail) : EndsAt chain height tail := by
  obtain ⟨start,hstart,htail,_⟩ := h
  exact ⟨start,hstart,htail⟩

theorem endsAt_nil (height : Nat) : EndsAt chain height [] :=
  ⟨height + 1,le_rfl,(segment_self _).symm⟩

theorem EndsAt.remember (hchain : chain.Linked) (h : EndsAt chain height tail)
    (hfits : height + 1 < u32Limit) (ttl : Nat) :
    ∃ tail', rememberCompactBlock ttl tail (chain (height + 1)) = .ok tail' ∧
      EndsAt chain (height + 1) tail' := by
  obtain ⟨start,hstart,rfl⟩ := h
  exact ⟨_,rememberCompactBlock_segment hchain hfits hstart,_,by omega,rfl⟩

theorem Retains.remember (hchain : chain.Linked) {tail' : List CompactBlock}
    (h : Retains env chain height tail) (hfits : height + 1 < u32Limit)
    (htail : rememberCompactBlock env.parameters.commitTtlBlocks tail (chain (height + 1)) =
      .ok tail') : Retains env chain (height + 1) tail' := by
  obtain ⟨start,hstart,rfl,hcovers⟩ := h
  rw [rememberCompactBlock_segment hchain hfits hstart] at htail
  cases htail
  refine ⟨_,by omega,rfl,fun h hactivation hh httl => ?_⟩
  by_cases hlast : h ≤ height
  · have := hcovers h hactivation hlast (by omega)
    omega
  · omega

/-- The client serves the blocks of the chain. -/
def CompactClient.Follows (client : CompactClient) (chain : CompactChain) : Prop :=
  ∀ first last, first ≤ last → client.downloadBlocks first last = .ok (chain.segment first (last + 1))

theorem linkCompactBlock_chain (hchain : chain.Linked) (hfits : height < u32Limit) {hash : Bytes32}
    (hhash : (chain height).hash = some hash) {previous : Option ChainPoint}
    (hprevious : ∀ prior ∈ previous, prior.height + 1 = height ∧
      (chain prior.height).hash = some prior.hash) :
    linkCompactBlock previous (chain height) = .ok (some ⟨height,hash⟩) := by
  obtain ⟨prevHash,hprevHash⟩ := Option.isSome_iff_exists.mp (hchain.prevHash height)
  rw [linkCompactBlock,hchain.height,u32Height,if_pos hfits,ok_bind,hhash,okOr_some,ok_bind,
    hprevHash,okOr_some,ok_bind,if_neg]
  · rfl
  · cases previous with
    | none => simp
    | some prior =>
      obtain ⟨rfl,hprior⟩ := hprevious prior rfl
      rw [hchain.link,hprior] at hprevHash
      have hadd : checkedAddU32 prior.height 1 = some (prior.height + 1) :=
        checkedAddU32_eq_some.mpr ⟨rfl,hfits⟩
      simp [hadd,Option.some.inj hprevHash]

theorem linkCompactBlock_segment (hchain : chain.Linked) {last : Nat} (hfits : last < u32Limit)
    {hash : Bytes32} (hhash : (chain last).hash = some hash) (hstart : start ≤ last)
    {previous : Option ChainPoint} (hprevious : ∀ prior ∈ previous, prior.height + 1 = start ∧
      (chain prior.height).hash = some prior.hash) :
    (chain.segment start (last + 1)).foldlM linkCompactBlock previous = .ok (some ⟨last,hash⟩) := by
  induction hn : last - start generalizing start previous with
  | zero =>
    have hlast : start = last := by omega
    subst hlast
    rw [segment_succ,List.foldlM_cons,linkCompactBlock_chain hchain hfits hhash hprevious]
    rfl
  | succ n ih =>
    obtain ⟨hash',hhash'⟩ := Option.isSome_iff_exists.mp (hchain.hash start)
    rw [segment_cons (by omega),List.foldlM_cons,
      linkCompactBlock_chain hchain (by omega) hhash' hprevious]
    refine ih (by omega) (fun prior hprior => ?_) (by omega)
    cases hprior
    exact ⟨rfl,hhash'⟩

theorem rememberCompactBlocks_segment (hchain : chain.Linked) {ttl last : Nat}
    (hfits : last < u32Limit) {first : Nat} (hstart : start ≤ last) (hfirst : first ≤ start) :
    (chain.segment start (last + 1)).foldlM (rememberCompactBlock ttl) (chain.segment first start) =
      .ok (chain.segment (max first (last + 1 - ttl)) (last + 1)) := by
  induction hn : last - start generalizing first start with
  | zero =>
    have hlast : start = last := by omega
    subst hlast
    rw [segment_succ,List.foldlM_cons,rememberCompactBlock_segment hchain hfits hfirst]
    rfl
  | succ n ih =>
    rw [segment_cons (show start < last + 1 by omega),List.foldlM_cons,
      rememberCompactBlock_segment hchain (by omega) hfirst,ok_bind,ih (by omega) (by omega) (by omega)]
    congr 2
    omega

/-- What holds of a host that follows the chain. -/
structure FollowsChain (env : HostEnv R) (chain : CompactChain) (host : NamesHost R) : Prop where
  fits : host.core.height < u32Limit
  hash : (chain host.core.height).hash = some host.core.hash
  base : env.parameters.activationHeight ≤ host.core.height + 1
  tail : host.recentCompactBlocks = [] ∨
    Retains env chain host.core.height host.recentCompactBlocks

/-- Two hosts that differ in their tails alone. -/
structure SameState (host host' : NamesHost R) : Prop where
  core : host'.core = host.core
  resolvers : host'.resolvers = host.resolvers
  watched : host'.watchedCommitTxids = host.watchedCommitTxids

theorem SameState.refl (host : NamesHost R) : SameState host host := ⟨rfl,rfl,rfl⟩

variable {host : NamesHost R}

theorem SameState.symm {host' : NamesHost R} (h : SameState host host') : SameState host' host :=
  ⟨h.core.symm,h.resolvers.symm,h.watched.symm⟩

theorem SameState.trans {host' host'' : NamesHost R} (h : SameState host host')
    (h' : SameState host' host'') : SameState host host'' :=
  ⟨h'.core.trans h.core,h'.resolvers.trans h.resolvers,h'.watched.trans h.watched⟩

theorem primeRecentCompactBlocks_follows (hchain : chain.Linked) (h : FollowsChain env chain host)
    (hempty : host.recentCompactBlocks = []) (hstart : start ≤ host.core.height) :
    primeRecentCompactBlocks env (chain.segment start (host.core.height + 1)) host =
      .ok ⟨host.core,host.resolvers,
        chain.segment (max start (host.core.height + 1 - env.parameters.commitTtlBlocks))
          (host.core.height + 1),host.watchedCommitTxids⟩ := by
  have hnonempty : (chain.segment start (host.core.height + 1)).isEmpty = false := by
    rw [segment_cons (by omega)]
    rfl
  have hremember : (chain.segment start (host.core.height + 1)).foldlM
      (rememberCompactBlock env.parameters.commitTtlBlocks) (chain.segment start start) =
        .ok (chain.segment (max start (host.core.height + 1 - env.parameters.commitTtlBlocks))
          (host.core.height + 1)) :=
    rememberCompactBlocks_segment hchain h.fits hstart le_rfl
  rw [segment_self] at hremember
  rw [primeRecentCompactBlocks,hempty,hnonempty,if_neg (by simp),
    linkCompactBlock_segment hchain h.fits h.hash hstart (by simp),ok_bind,if_neg (by simp),hremember]
  rfl

theorem ensureRecentCompactTail_follows (hchain : chain.Linked) (hclient : client.Follows chain)
    (h : FollowsChain env chain host) :
    ∃ primed, ensureRecentCompactTail env client host = .ok primed ∧ SameState host primed ∧
      Retains env chain primed.core.height primed.recentCompactBlocks := by
  rw [ensureRecentCompactTail]
  by_cases hempty : host.recentCompactBlocks = []
  · by_cases hactivation : host.core.height < env.parameters.activationHeight
    · rw [if_pos (by simp [hactivation])]
      refine ⟨host,rfl,.refl host,host.core.height + 1,le_rfl,?_,fun _ _ _ _ => by omega⟩
      rw [hempty,segment_self]
    · have hstart : max (host.core.height - (env.parameters.commitTtlBlocks - 2))
          env.parameters.activationHeight ≤ host.core.height := by omega
      rw [if_neg (by simp [hempty,hactivation])]
      dsimp only
      rw [hclient _ _ hstart,ok_bind,primeRecentCompactBlocks_follows hchain h hempty hstart]
      refine ⟨_,rfl,⟨rfl,rfl,rfl⟩,_,?_,rfl,?_⟩
      · dsimp only
        omega
      · dsimp only
        intro h _ _ _
        omega
  · rw [if_pos (by simp [hempty])]
    exact ⟨host,rfl,.refl host,h.tail.resolve_left hempty⟩

end CoppiceWallet.Names
