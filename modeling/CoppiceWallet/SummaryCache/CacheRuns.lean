import CoppiceWallet.SummaryCache.Steps

/-! # Runs of the cache -/

namespace CoppiceWallet.SummaryCache

open CoppiceWallet.Lib

variable {Path Network Content Summary : Type} {summarize : Network → Content → Summary}
  {s s' : Process Path Network Content Summary} {i : Nat} {key : Path × Network}

/-- A step that changes nothing but the slots and the map to them. -/
structure SlotStep (s s' : Process Path Network Content Summary) : Prop where
  contents : s'.contents = s.contents
  epoch : s'.epoch = s.epoch
  writeLock : s'.writeLock = s.writeLock
  moments : s'.moments = s.moments
  slotCount : s.slotCount ≤ s'.slotCount
  key : ∀ slot < s.slotCount, (s'.slots slot).key = (s.slots slot).key

theorem SlotStep.refl (s : Process Path Network Content Summary) : SlotStep s s :=
  ⟨rfl,rfl,rfl,rfl,Nat.le_refl _,fun _ _ => rfl⟩

theorem slotStep_setSlot (s : Process Path Network Content Summary) (slot : Nat)
    {f : EntrySlot Path Network Summary → EntrySlot Path Network Summary}
    (hf : ∀ entry, (f entry).key = entry.key) : SlotStep s (s.setSlot slot f) := by
  refine ⟨rfl,rfl,rfl,rfl,Nat.le_refl _,?_⟩
  intro other _
  by_cases hsame : other = slot
  · subst hsame
    simp [Process.setSlot,hf]
  · simp [Process.setSlot,hsame]

theorem slotStep_cache (s : Process Path Network Content Summary) (slot : Nat)
    (cached : Option (CacheEntry Summary)) : SlotStep s (s.cache slot cached) :=
  slotStep_setSlot s slot fun _ => rfl

theorem slotStep_lock (s : Process Path Network Content Summary) (slot : Nat)
    (holder : Option Nat) : SlotStep s (s.lock slot holder) :=
  slotStep_setSlot s slot fun _ => rfl

theorem prefix_record (hmoments : s'.moments = s.moments) : s.moments <+: s'.record.moments := by
  simp [Process.record,hmoments]

theorem SlotStep.evolves (h : SlotStep s s') : Evolves i s s'.record where
  moments := prefix_record h.moments
  slotCount := h.slotCount
  key := h.key
  writer := fun _ _ hlock => ⟨h.writeLock.trans hlock,h.epoch⟩

theorem SlotStep.present (h : SlotStep s s') : AtMoment s'.record s.moments.length fun m =>
    m.contents = s.contents ∧ m.epoch = s.epoch :=
  ⟨⟨s'.contents,s'.epoch⟩,by simp [Process.record,h.moments],h.contents,h.epoch⟩

theorem SlotStep.good (h : SlotStep s s') (hs : ProcessGood summarize s)
    (hslots : SlotsGood summarize s'.record) : ProcessGood summarize s'.record where
  timeline := by
    apply hs.timeline.record h.moments
    rw [h.contents,h.epoch]
    exact Moment.precedes_refl _
  idle := by
    intro hlock
    have hepoch : s'.record.epoch = s.epoch := h.epoch
    rw [hepoch]
    exact hs.idle (h.writeLock.symm.trans hlock)
  slots := hslots

theorem SlotsGood.record (h : SlotsGood summarize s) : SlotsGood summarize s.record where
  mapped := h.mapped
  cached := fun slot hslot entry hentry =>
    (h.cached slot hslot entry hentry).mono (prefix_record rfl)

theorem SlotsGood.cache (h : SlotsGood summarize s) {slot : Nat} (hslot : slot < s.slotCount)
    {cached : Option (CacheEntry Summary)}
    (hcached : ∀ entry, cached = some entry →
      EntryGood summarize s.record (s.slots slot).key entry) :
    SlotsGood summarize (s.cache slot cached).record where
  mapped := by
    intro key other hother
    have hmapped := h.mapped key other hother
    exact ⟨hmapped.1,((slotStep_cache s slot cached).key other hmapped.1).trans hmapped.2⟩
  cached := by
    intro other hother entry hentry
    have hkey := (slotStep_cache s slot cached).key other hother
    have hgood : EntryGood summarize s.record (s.slots other).key entry := by
      by_cases hsame : other = slot
      · subst hsame
        apply hcached
        simpa [Process.record,Process.cache,Process.setSlot] using hentry
      · apply h.record.cached other hother
        simpa [Process.record,Process.cache,Process.setSlot,hsame] using hentry
    have hkey' : ((s.cache slot cached).record.slots other).key = (s.slots other).key := hkey
    rw [hkey']
    exact hgood.mono (List.prefix_rfl)

theorem SlotsGood.lock (h : SlotsGood summarize s) (slot : Nat) (holder : Option Nat) :
    SlotsGood summarize (s.lock slot holder).record where
  mapped := by
    intro key other hother
    have hmapped := h.mapped key other hother
    exact ⟨hmapped.1,((slotStep_lock s slot holder).key other hmapped.1).trans hmapped.2⟩
  cached := by
    intro other hother entry hentry
    have hkey : ((s.lock slot holder).record.slots other).key = (s.slots other).key :=
      (slotStep_lock s slot holder).key other hother
    have hsame : (s.slots other).cached = some entry := by
      by_cases hsame : other = slot
      · subst hsame
        simpa [Process.record,Process.lock,Process.setSlot] using hentry
      · simpa [Process.record,Process.lock,Process.setSlot,hsame] using hentry
    rw [hkey]
    exact (h.record.cached other hother entry hsame).mono List.prefix_rfl

section SlotFor

variable [DecidableEq Path] [DecidableEq Network]

theorem slotFor_spec (key : Path × Network) (hs : SlotsGood summarize s) :
    SlotStep s (slotFor key s).1 ∧ SlotsGood summarize (slotFor key s).1.record ∧
      (slotFor key s).2 < (slotFor key s).1.slotCount ∧
      ((slotFor key s).1.slots (slotFor key s).2).key = key := by
  unfold slotFor
  split
  · rename_i slot hslot
    have hmapped := hs.mapped key slot hslot
    exact ⟨.refl s,hs.record,hmapped.1,hmapped.2⟩
  · have hold : ∀ slot < s.slotCount, Function.update s.slots s.slotCount ⟨key,none,none⟩ slot =
        s.slots slot := by
      intro slot hslot
      simp [Nat.ne_of_lt hslot]
    refine ⟨⟨rfl,rfl,rfl,rfl,Nat.le_succ _,?_⟩,⟨?_,?_⟩,Nat.lt_succ_self _,by simp⟩
    · intro slot hslot
      simp only [hold slot hslot]
    · intro other slot hother
      simp only [Process.record] at hother ⊢
      by_cases hsame : other = key
      · subst hsame
        have hslot : s.slotCount = slot := by simpa using hother
        subst hslot
        simp
      · have hmapped := hs.mapped other slot (by simpa [hsame] using hother)
        rw [hold slot hmapped.1]
        exact ⟨Nat.lt_succ_of_lt hmapped.1,hmapped.2⟩
    · intro slot hslot entry hentry
      simp only [Process.record] at hslot hentry ⊢
      by_cases hnew : slot = s.slotCount
      · subst hnew
        simp at hentry
      · have hlt : slot < s.slotCount := by omega
        rw [hold slot hlt] at hentry ⊢
        exact (hs.cached slot hlt entry hentry).mono (prefix_record rfl)

omit [DecidableEq Path] [DecidableEq Network] in
theorem InCall.step {began slot : Nat} (h : InCall s key began slot) (hstep : SlotStep s s') :
    InCall s'.record key began slot :=
  h.mono (i := 0) hstep.evolves

theorem readerStep_good {choice : Choice Path Content} {path : Path} {network : Network}
    {point point' : ReaderPoint Summary} (hs : ProcessGood summarize s)
    (hpoint : ReaderGood summarize s (path,network) point)
    (hstep : readerStep summarize i path network choice s point = some (s',point')) :
    SlotStep s s' ∧ SlotsGood summarize s'.record ∧
      ReaderGood summarize s'.record (path,network) point' := by
  have hpresent : AtMoment s.record s.moments.length fun m =>
      m.contents = s.contents ∧ m.epoch = s.epoch := (SlotStep.refl s).present
  cases point with
  | start =>
    obtain ⟨hslot,hgood,hlt,hkey⟩ := slotFor_spec (path,network) hs.slots
    cases hstep
    refine ⟨hslot,hgood,?_,hlt,hkey⟩
    simp [Process.record,hslot.moments]
  | slotted began slot =>
    simp only [readerStep] at hstep
    split at hstep
    · cases hstep
    · cases hstep
      exact ⟨slotStep_lock s slot _,hs.slots.lock slot _,InCall.step hpoint (slotStep_lock s slot _)⟩
  | locked began slot =>
    have hcall : InCall s (path,network) began slot := hpoint
    simp only [readerStep] at hstep
    split at hstep
    · cases hstep
      exact ⟨.refl s,hs.slots.record,hcall.step (.refl s)⟩
    · rename_i entry hentry
      split at hstep
      · rename_i hepoch
        cases hstep
        have hgood := hs.slots.cached slot hcall.inUse entry hentry
        rw [hcall.hasKey] at hgood
        obtain ⟨m,hm,_,hmepoch⟩ := hpresent
        exact ⟨.refl s,hs.slots.record,hcall.step (.refl s),hgood.mono (prefix_record rfl),
          Nat.le_of_lt hcall.began,m,hm,hmepoch.trans hepoch.1⟩
      · cases hstep
        exact ⟨slotStep_cache s slot none,hs.slots.cache hcall.inUse (by simp),
          hcall.step (slotStep_cache s slot none)⟩
  | checking began slot entry checkedAt =>
    obtain ⟨hcall,hserved⟩ := hpoint
    simp only [readerStep] at hstep
    split at hstep
    · cases hstep
      exact ⟨.refl s,hs.slots.record,hcall.step (.refl s),hserved.mono (prefix_record rfl)⟩
    · cases hstep
      exact ⟨slotStep_cache s slot none,hs.slots.cache hcall.inUse (by simp),
        hcall.step (slotStep_cache s slot none)⟩
    · cases hstep
  | missed began slot =>
    cases hstep
    obtain ⟨m,hm,_,hmepoch⟩ := hpresent
    exact ⟨.refl s,hs.slots.record,InCall.step hpoint (.refl s),m,hm,hmepoch⟩
  | loading began slot epochBefore loadBegan =>
    obtain ⟨hcall,hbegan⟩ := hpoint
    have hlater : loadBegan ≤ s.moments.length := by
      obtain ⟨m,hm,_⟩ := hbegan
      exact Nat.le_of_lt (List.getElem?_eq_some_iff.mp hm).1
    have hnow : s.moments.length < s.record.moments.length := by simp [Process.record]
    simp only [readerStep] at hstep
    split at hstep
    · cases hstep
      refine ⟨.refl s,hs.slots.record,hcall.step (.refl s),hbegan.mono (prefix_record rfl),hlater,
        hnow,?_⟩
      intro summary hsummary
      cases hsummary
      obtain ⟨m,hm,hcontents,_⟩ := hpresent
      refine ⟨m,hm,?_⟩
      show summarize network (s.contents path) = summarize network (m.contents path)
      rw [hcontents]
    · cases hstep
      refine ⟨.refl s,hs.slots.record,hcall.step (.refl s),hbegan.mono (prefix_record rfl),hlater,
        hnow,?_⟩
      intro summary hsummary
      cases hsummary
    · cases hstep
      exact ⟨.refl s,hs.slots.record,hcall.step (.refl s),trivial⟩
    · cases hstep
  | loaded began slot epochBefore loadBegan loadedAt result =>
    obtain ⟨hcall,hbegan,hlater,hnow,hread⟩ := hpoint
    cases result with
    | error error =>
      cases hstep
      exact ⟨slotStep_cache s slot none,hs.slots.cache hcall.inUse (by simp),
        hcall.step (slotStep_cache s slot none),trivial⟩
    | ok summary =>
      simp only [readerStep] at hstep
      split at hstep
      · rename_i hepoch
        cases hstep
        have hentry : EntryGood summarize s.record (path,network)
            ⟨epochBefore,summary,loadBegan,s.moments.length⟩ := by
          refine ⟨hepoch.2,hbegan.mono (prefix_record rfl),?_,loadedAt,hlater,Nat.le_of_lt hnow,
            (hread summary rfl).mono (prefix_record rfl)⟩
          obtain ⟨m,hm,_,hmepoch⟩ := hpresent
          exact ⟨m,hm,hmepoch.trans hepoch.1.symm⟩
        refine ⟨slotStep_cache s slot _,hs.slots.cache hcall.inUse ?_,
          hcall.step (slotStep_cache s slot _),trivial⟩
        intro entry heq
        cases heq
        rw [hcall.hasKey]
        exact hentry
      · cases hstep
        exact ⟨slotStep_cache s slot none,hs.slots.cache hcall.inUse (by simp),
          hcall.step (slotStep_cache s slot none),trivial⟩
  | unlocking began slot served =>
    obtain ⟨_,hserved⟩ := hpoint
    cases hstep
    exact ⟨slotStep_lock s slot none,hs.slots.lock slot none,
      ServedGood.mono hserved (prefix_record (slotStep_lock s slot none).moments)⟩
  | returned began served => cases hstep

end SlotFor

theorem writerStep_process (hs : ProcessGood summarize s) (hmoments : s'.moments = s.moments)
    (hentries : s'.entries = s.entries) (hslots : s'.slots = s.slots)
    (hcount : s'.slotCount = s.slotCount)
    (hnext : (⟨s.contents,s.epoch⟩ : Moment Path Content).Precedes ⟨s'.contents,s'.epoch⟩)
    (hidle : s'.writeLock = none → s'.epoch % 2 = 0) : ProcessGood summarize s'.record where
  timeline := hs.timeline.record hmoments hnext
  idle := hidle
  slots := by
    constructor
    · intro key slot hslot
      have hmapped := hs.slots.mapped key slot (hentries ▸ hslot)
      simp only [Process.record,hcount,hslots]
      exact hmapped
    · intro slot hslot entry hentry
      simp only [Process.record,hcount,hslots] at hslot hentry ⊢
      exact (hs.slots.cached slot hslot entry hentry).mono (prefix_record hmoments)

theorem moment_precedes_of_epoch {contents contents' : Path → Content} {epoch : Nat} :
    (⟨contents,epoch⟩ : Moment Path Content).Precedes ⟨contents',epoch + 1⟩ :=
  ⟨Nat.le_succ _,fun heq => absurd heq (Nat.ne_of_lt (Nat.lt_succ_self _))⟩

theorem evolves_of_locked (hmoments : s'.moments = s.moments) (hslots : s'.slots = s.slots)
    (hcount : s'.slotCount = s.slotCount) (hlock : s.writeLock = some i) : Evolves i s s'.record where
  moments := prefix_record hmoments
  slotCount := Nat.le_of_eq hcount.symm
  key := fun slot _ => by simp only [Process.record,hslots]
  writer := by
    intro j hj hheld
    exact absurd (Option.some.inj (hheld.symm.trans hlock)) hj

theorem writerStep_good {choice : Choice Path Content} {point point' : WriterPoint}
    (hs : ProcessGood summarize s) (hpoint : WriterGood s i point)
    (hstep : writerStep i choice s point = some (s',point')) :
    ProcessGood summarize s'.record ∧ Evolves i s s'.record ∧ WriterGood s'.record i point' := by
  cases point with
  | start =>
    simp only [writerStep] at hstep
    split at hstep
    · cases hstep
    · rename_i hfree
      cases hstep
      refine ⟨writerStep_process hs rfl rfl rfl rfl (Moment.precedes_refl _) (by simp),?_,rfl,
        hs.idle hfree⟩
      refine ⟨prefix_record rfl,Nat.le_refl _,fun _ _ => rfl,?_⟩
      intro j _ hheld
      simp [hfree] at hheld
  | locked =>
    obtain ⟨hlock,heven⟩ := hpoint
    cases hstep
    refine ⟨writerStep_process hs rfl rfl rfl rfl moment_precedes_of_epoch (by simp [hlock]),
      evolves_of_locked rfl rfl rfl hlock,hlock,?_⟩
    simp only [Process.record]
    omega
  | writing =>
    obtain ⟨hlock,hodd⟩ := hpoint
    simp only [writerStep] at hstep
    split at hstep
    · cases hstep
      refine ⟨writerStep_process hs rfl rfl rfl rfl ⟨Nat.le_refl _,?_⟩ (by simp [hlock]),
        evolves_of_locked rfl rfl rfl hlock,hlock,hodd⟩
      intro _ heven
      simp only at heven
      omega
    · cases hstep
      refine ⟨writerStep_process hs rfl rfl rfl rfl moment_precedes_of_epoch (by simp [hlock]),
        evolves_of_locked rfl rfl rfl hlock,hlock,?_⟩
      simp only [Process.record]
      omega
    · cases hstep
  | finished =>
    obtain ⟨hlock,heven⟩ := hpoint
    cases hstep
    exact ⟨writerStep_process hs rfl rfl rfl rfl (Moment.precedes_refl _) (fun _ => heven),
      evolves_of_locked rfl rfl rfl hlock,trivial⟩
  | returned => cases hstep

variable [DecidableEq Path] [DecidableEq Network]

theorem threadStep_good {choice : Choice Path Content}
    {thread thread' : CacheThread Path Network Summary} (hs : ProcessGood summarize s)
    (hthread : ThreadGood summarize s i thread)
    (hstep : threadStep summarize i choice s thread = some (s',thread')) :
    ProcessGood summarize s'.record ∧ Evolves i s s'.record ∧
      ThreadGood summarize s'.record i thread' := by
  cases thread with
  | reader path network point =>
    obtain ⟨⟨t,point'⟩,hreader,heq⟩ := Option.map_eq_some_iff.mp hstep
    cases heq
    obtain ⟨hslot,hslots,hgood⟩ := readerStep_good hs hthread hreader
    exact ⟨hslot.good hs hslots,hslot.evolves,hgood⟩
  | writer point =>
    obtain ⟨⟨t,point'⟩,hwriter,heq⟩ := Option.map_eq_some_iff.mp hstep
    cases heq
    exact writerStep_good hs hthread hwriter
  | evictor path returned =>
    cases returned with
    | true => cases hstep
    | false =>
      cases hstep
      have hslot : SlotStep s (evictDb path s) := ⟨rfl,rfl,rfl,rfl,Nat.le_refl _,fun _ _ => rfl⟩
      refine ⟨hslot.good hs ⟨?_,?_⟩,hslot.evolves,trivial⟩
      · intro key slot hmapped
        apply hs.slots.mapped
        simp only [Process.record,evictDb] at hmapped
        split at hmapped
        · cases hmapped
        · exact hmapped
      · intro slot hlt entry hentry
        exact (hs.slots.cached slot hlt entry hentry).mono (prefix_record hslot.moments)

theorem cacheThreads_outline (summarize : Network → Content → Summary) :
    (@cacheThreads Path _ _ _ _ _ summarize).Outline (fun _ _ => True)
      (fun p => ProcessGood summarize p.shared) (ThreadGood summarize) where
  started := by
    intro p thread hp hinitial
    refine ⟨hp.invariant,?_⟩
    cases thread with
    | reader path network point =>
      cases point <;> trivial
    | writer point =>
      cases point <;> trivial
    | evictor path returned => trivial
  own := by
    intro p i choice thread s' thread' hp _ hthread hadvance
    obtain ⟨⟨t,next⟩,hstep,heq⟩ := Option.map_eq_some_iff.mp hadvance
    cases heq
    obtain ⟨hgood,_,hown⟩ := threadStep_good hp.invariant (hp.thread i thread hthread) hstep
    exact ⟨hgood,hown⟩
  others := by
    intro p i choice thread s' thread' hp _ hthread hadvance j other hj hother
    obtain ⟨⟨t,next⟩,hstep,heq⟩ := Option.map_eq_some_iff.mp hadvance
    cases heq
    obtain ⟨_,hevolves,_⟩ := threadStep_good hp.invariant (hp.thread i thread hthread) hstep
    exact (hp.thread j other hother).mono hj hevolves

omit [DecidableEq Path] [DecidableEq Network] in
theorem processGood_initial (summarize : Network → Content → Summary) (contents : Path → Content)
    (slots : Nat → EntrySlot Path Network Summary) :
    ProcessGood summarize (initialProcess contents slots) where
  timeline := ⟨List.pairwise_singleton _ _,rfl⟩
  idle := fun _ => rfl
  slots := by
    constructor
    · intro key slot h
      cases h
    · exact fun slot h => absurd h (Nat.not_lt_zero slot)

/-! ## No cached summary is stale

A summary that a call returns from the cache is what the database held at a moment of that call at
which no write section was active. It was read by a load that succeeded and that no write section
overlapped.
-/

section

variable {Path Network Content Summary : Type}

/-- What holds of a summary served from the cache to a call that began at a moment. -/
structure ServedFresh (summarize : Network → Content → Summary)
    (s : Process Path Network Content Summary) (path : Path) (network : Network) (began : Nat)
    (entry : CacheEntry Summary) (checkedAt : Nat) : Prop where
  /-- At a moment of the call the database held it, and no write section was active. -/
  fresh : began ≤ checkedAt ∧ AtMoment s checkedAt fun m =>
    ¬ m.Active ∧ entry.summary = summarize network (m.contents path)
  /-- Every write section that had ended before the call has its changes in it. -/
  sections : ∀ k m n, k ≤ began → s.moments[k]? = some m → s.moments[checkedAt]? = some n →
    m.sectionsEnded ≤ n.sectionsEnded
  /-- It comes from a load that succeeded, -/
  loaded : ∃ k, entry.loadBegan ≤ k ∧ k ≤ entry.loadEnded ∧
    AtMoment s k fun m => entry.summary = summarize network (m.contents path)
  /-- and no write section was active at any moment of the load. -/
  quiet : ∀ k, entry.loadBegan ≤ k → k ≤ entry.loadEnded →
    AtMoment s k fun m => ¬ m.Active

variable {summarize : Network → Content → Summary} {s : Process Path Network Content Summary}

theorem servedFresh_of_good {path : Path} {network : Network} {began checkedAt : Nat}
    {entry : CacheEntry Summary} (hs : Timeline s)
    (h : ServedGood summarize s (path,network) began (.cached entry checkedAt)) :
    ServedFresh summarize s path network began entry checkedAt := by
  obtain ⟨hgood,hcall,n,hn,hnepoch⟩ := h
  obtain ⟨first,hfirst,hfirstEpoch⟩ := hgood.began
  obtain ⟨last,hlast,hlastEpoch⟩ := hgood.ended
  have heven := hgood.even
  -- the epoch stood still during the load
  have hstill : ∀ k, entry.loadBegan ≤ k → k ≤ entry.loadEnded →
      AtMoment s k fun m => m.epoch = entry.epoch := by
    intro k hbegan hended
    have hlt : k < s.moments.length := by
      have hlen := (List.getElem?_eq_some_iff.mp hlast).1
      omega
    have hk := List.getElem?_eq_getElem hlt
    have hup := (hs.precedes hbegan hfirst hk).epoch
    have hdown := (hs.precedes hended hk hlast).epoch
    refine ⟨_,hk,?_⟩
    show s.moments[k].epoch = entry.epoch
    omega
  constructor
  · refine ⟨hcall,n,hn,?_,?_⟩
    · unfold Moment.Active
      omega
    · obtain ⟨k,hbegan,hended,m,hm,hread⟩ := hgood.read
      obtain ⟨m',hm',hepoch⟩ := hstill k hbegan hended
      cases hm.symm.trans hm'
      have hsame : m.contents = n.contents := by
        rcases Nat.le_total k checkedAt with hle | hle
        · exact (hs.precedes hle hm hn).quiet (by omega) (by omega)
        · exact ((hs.precedes hle hn hm).quiet (by omega) (by omega)).symm
      rw [hread,hsame]
  · intro k m n' hk hm hn'
    exact Nat.div_le_div_right (hs.precedes (Nat.le_trans hk hcall) hm hn').epoch
  · exact hgood.read
  · intro k hbegan hended
    obtain ⟨m,hm,hepoch⟩ := hstill k hbegan hended
    refine ⟨m,hm,?_⟩
    unfold Moment.Active
    omega

variable [DecidableEq Path] [DecidableEq Network]

/-- Over every interleaving of readers, write sections and evictions. -/
theorem cachedSummary_fresh (summarize : Network → Content → Summary) (contents : Path → Content)
    (slots : Nat → EntrySlot Path Network Summary)
    {p : ThreadPool (Process Path Network Content Summary) (CacheThread Path Network Summary)}
    (hrun : Runs (cacheThreads summarize).step ⟨initialProcess contents slots,[]⟩ p) (i : Nat)
    (path : Path) (network : Network) (began checkedAt : Nat) (entry : CacheEntry Summary)
    (hreturned : p.threads[i]? =
      some (.reader path network (.returned began (.cached entry checkedAt)))) :
    ServedFresh summarize p.shared path network began entry checkedAt := by
  have hp := (cacheThreads_outline summarize).runs hrun
    (holds_nil (processGood_initial summarize contents slots))
  exact servedFresh_of_good hp.invariant.timeline (hp.thread i _ hreturned)

def sampleThreads : Threads (Process Bool Unit Nat Nat) (CacheThread Bool Unit Nat)
    (Choice Bool Nat) := cacheThreads fun _ content => content

/-- The last of the threads returns what the one before it loaded. -/
def sampleInputs : List (ThreadInput (CacheThread Bool Unit Nat) (Choice Bool Nat)) :=
  [.start (.writer .start),.start (.reader true () .start),.start (.reader true () .start),
    .advance 0 .proceed,.advance 0 .proceed,.advance 0 (.write fun _ => 5),.advance 0 .proceed,
    .advance 0 .proceed,
    .advance 1 .proceed,.advance 1 .proceed,.advance 1 .proceed,.advance 1 .proceed,
    .advance 1 (.load .reads),.advance 1 .proceed,.advance 1 .proceed,
    .advance 2 .proceed,.advance 2 .proceed,.advance 2 .proceed,.advance 2 (.pathExists true),
    .advance 2 .proceed]

def sampleStart : ThreadPool (Process Bool Unit Nat Nat) (CacheThread Bool Unit Nat) :=
  ⟨initialProcess (fun _ => 4) (fun _ => ⟨(true,()),none,none⟩),[]⟩

def samplePool : ThreadPool (Process Bool Unit Nat Nat) (CacheThread Bool Unit Nat) :=
  match execute sampleThreads.step sampleInputs sampleStart with
  | .ok p => p
  | .error _ => sampleStart

theorem sampleRun : execute sampleThreads.step sampleInputs sampleStart = .ok samplePool := rfl

theorem cachedSummary_fresh_afterLoad :
    ServedFresh (fun _ content => content) samplePool.shared true () 13 ⟨2,5,9,11⟩ 15 :=
  cachedSummary_fresh _ _ _ (runs_of_execute sampleRun) 2 true () 13 15 ⟨2,5,9,11⟩ rfl

end

end CoppiceWallet.SummaryCache
