import CoppiceWallet.Lib.Rest
import CoppiceWallet.SummaryCache.CacheRuns

/-!
# One load at a time

The lock of a slot is held from the look at the cached summary to the end of the load. Readers of
one key share a slot until the key's database is evicted, so without an eviction they never load at
the same time. A reader waits for the readers of its slot only, and a writer for the writers.
-/

namespace CoppiceWallet.SummaryCache

open CoppiceWallet.Lib

variable {Path Network Content Summary : Type}

/-- The slot that a call was given. -/
def ReaderPoint.slot : ReaderPoint Summary → Option Nat
  | .slotted _ slot | .locked _ slot | .checking _ slot _ _ | .missed _ slot
  | .loading _ slot _ _ | .loaded _ slot _ _ _ _ | .unlocking _ slot _ => some slot
  | .start | .returned _ _ => none

/-- The slot whose lock the call has. -/
def ReaderPoint.lockedSlot : ReaderPoint Summary → Option Nat
  | .slotted _ _ => none
  | point => point.slot

/-- The thread has the lock of the slot, or the lock of the writers. -/
def CacheThread.holds : Option Nat → CacheThread Path Network Summary → Bool
  | some slot,.reader _ _ point => point.lockedSlot == some slot
  | none,.writer .locked | none,.writer .writing | none,.writer .finished => true
  | _,_ => false

/-- The lock of a slot in use, or the lock of the writers. -/
def Process.lockOf (s : Process Path Network Content Summary) : Option Nat → Option Nat
  | some slot => if slot < s.slotCount then (s.slots slot).lockedBy else none
  | none => s.writeLock

/-- How many steps are left of a call. -/
def CacheThread.stepsLeft : CacheThread Path Network Summary → Nat
  | .reader _ _ .start => 8
  | .reader _ _ (.slotted _ _) => 7
  | .reader _ _ (.locked _ _) => 6
  | .reader _ _ (.checking _ _ _ _) => 5
  | .reader _ _ (.missed _ _) | .writer .start => 4
  | .reader _ _ (.loading _ _ _ _) | .writer .locked => 3
  | .reader _ _ (.loaded _ _ _ _ _ _) | .writer .writing => 2
  | .reader _ _ (.unlocking _ _ _) | .writer .finished | .evictor _ false => 1
  | .reader _ _ (.returned _ _) | .writer .returned | .evictor _ true => 0

/-- The lock that the thread waits for. -/
def CacheThread.wants : CacheThread Path Network Summary → Option (Option Nat)
  | .reader _ _ (.slotted _ slot) => some (some slot)
  | .writer .start => some none
  | _ => none

theorem wants_none_of_holds {k : Option Nat} {thread : CacheThread Path Network Summary}
    (h : thread.holds k = true) : thread.wants = none ∧ 0 < thread.stepsLeft := by
  cases thread with
  | reader path network point =>
    cases point with
    | start | slotted | returned => cases k <;> cases h
    | locked | checking | missed | loading | loaded | unlocking =>
      exact ⟨rfl,by simp [CacheThread.stepsLeft]⟩
  | writer point =>
    cases point with
    | start | returned => cases k <;> cases h
    | locked | writing | finished => exact ⟨rfl,by simp [CacheThread.stepsLeft]⟩
  | evictor => cases k <;> cases h

variable {s s' : Process Path Network Content Summary} {i slot : Nat} {k : Option Nat}

@[simp] theorem lockOf_record : s.record.lockOf k = s.lockOf k := by
  cases k <;> rfl

@[simp] theorem lockOf_cache (cached : Option (CacheEntry Summary)) :
    (s.cache slot cached).lockOf k = s.lockOf k := by
  cases k with
  | none => rfl
  | some other =>
    by_cases hsame : other = slot
    · simp [Process.lockOf,Process.cache,Process.setSlot,hsame]
    · simp [Process.lockOf,Process.cache,Process.setSlot,hsame]

theorem lockOf_lock (holder : Option Nat) (hk : k ≠ some slot) :
    (s.lock slot holder).lockOf k = s.lockOf k := by
  cases k with
  | none => rfl
  | some other =>
    have hother : other ≠ slot := fun hsame => hk (congrArg some hsame)
    simp [Process.lockOf,Process.lock,Process.setSlot,hother]

theorem lockOf_lock_self (holder : Option Nat) (hslot : slot < s.slotCount) :
    (s.lock slot holder).lockOf (some slot) = holder := by
  simp [Process.lockOf,Process.lock,Process.setSlot,hslot]

variable {choice : Choice Path Content}

theorem writerStep_slots {point point' : WriterPoint}
    (hstep : writerStep i choice s point = some (s',point')) :
    s'.entries = s.entries ∧ s'.slots = s.slots ∧ s'.slotCount = s.slotCount := by
  cases point <;> simp only [writerStep] at hstep <;> grind

theorem writerStep_lockStep {point point' : WriterPoint}
    (hstep : writerStep i choice s point = some (s',point')) :
    LockStep i s.writeLock ((.writer point : CacheThread Path Network Summary).holds none)
      s'.writeLock ((.writer point' : CacheThread Path Network Summary).holds none) := by
  cases point with
  | start =>
    simp only [writerStep] at hstep
    split at hstep
    · cases hstep
    · rename_i hfree
      cases hstep
      rw [hfree]
      exact .take
  | locked =>
    cases hstep
    exact .keep
  | writing =>
    simp only [writerStep] at hstep
    split at hstep
    · cases hstep
      exact .keep
    · cases hstep
      exact .keep
    · cases hstep
  | finished =>
    cases hstep
    exact .release
  | returned => cases hstep

variable [DecidableEq Path] [DecidableEq Network]

theorem lockOf_slotFor (key : Path × Network) : (slotFor key s).1.lockOf k = s.lockOf k := by
  unfold slotFor
  split
  · rfl
  · cases k with
    | none => rfl
    | some other =>
      by_cases hnew : other = s.slotCount
      · simp [Process.lockOf,hnew]
      · have hlt : other < s.slotCount + 1 ↔ other < s.slotCount := by omega
        simp [Process.lockOf,hnew,hlt]

variable {summarize : Network → Content → Summary}

theorem readerStep_lockStep {path : Path} {network : Network} {point point' : ReaderPoint Summary}
    (hgood : ReaderGood summarize s (path,network) point)
    (hstep : readerStep summarize i path network choice s point = some (s',point')) (slot : Nat) :
    LockStep i (s.lockOf (some slot)) (point.lockedSlot == some slot) (s'.lockOf (some slot))
      (point'.lockedSlot == some slot) := by
  cases point with
  | start =>
    cases hstep
    rw [lockOf_slotFor]
    exact .keep
  | slotted began own =>
    have hcall : InCall s (path,network) began own := hgood
    simp only [readerStep] at hstep
    split at hstep
    · cases hstep
    · rename_i hfree
      cases hstep
      by_cases hsame : slot = own
      · have hlock : s.lockOf (some own) = none := (if_pos hcall.inUse).trans hfree
        subst hsame
        rw [hlock,lockOf_lock_self _ hcall.inUse]
        simpa [ReaderPoint.lockedSlot,ReaderPoint.slot] using LockStep.take
      · have hother : (own == slot) = false := beq_false_of_ne (Ne.symm hsame)
        rw [lockOf_lock _ (by simpa using hsame)]
        simpa [ReaderPoint.lockedSlot,ReaderPoint.slot,hother] using LockStep.keep
  | unlocking began own served =>
    have hcall : InCall s (path,network) began own := hgood.1
    cases hstep
    by_cases hsame : slot = own
    · subst hsame
      rw [lockOf_lock_self _ hcall.inUse]
      simpa [ReaderPoint.lockedSlot,ReaderPoint.slot] using LockStep.release
    · have hother : (own == slot) = false := beq_false_of_ne (Ne.symm hsame)
      rw [lockOf_lock _ (by simpa using hsame)]
      simpa [ReaderPoint.lockedSlot,ReaderPoint.slot,hother] using LockStep.keep
  | returned => cases hstep
  | locked began own | checking began own | missed began own | loading began own
    | loaded began own =>
    have hkeep : s'.lockOf (some slot) = s.lockOf (some slot) ∧ point'.lockedSlot = some own := by
      simp only [readerStep] at hstep
      grind [ReaderPoint.lockedSlot,ReaderPoint.slot,lockOf_cache]
    rw [hkeep.1,hkeep.2]
    exact .keep

theorem threadStep_lockStep {thread thread' : CacheThread Path Network Summary}
    (hs : ProcessGood summarize s) (hgood : ThreadGood summarize s i thread)
    (hstep : threadStep summarize i choice s thread = some (s',thread')) (k : Option Nat) :
    LockStep i (s.lockOf k) (thread.holds k) (s'.lockOf k) (thread'.holds k) := by
  cases thread with
  | reader path network point =>
    obtain ⟨⟨t,point'⟩,hreader,heq⟩ := Option.map_eq_some_iff.mp hstep
    cases heq
    cases k with
    | some slot => exact readerStep_lockStep hgood hreader slot
    | none =>
      have hkeep : t.writeLock = s.writeLock := (readerStep_good hs hgood hreader).1.writeLock
      show LockStep i s.writeLock false t.writeLock false
      rw [hkeep]
      exact .keep
  | writer point =>
    obtain ⟨⟨t,point'⟩,hwriter,heq⟩ := Option.map_eq_some_iff.mp hstep
    cases heq
    cases k with
    | none => exact writerStep_lockStep hwriter
    | some slot =>
      show LockStep i (s.lockOf (some slot)) false (t.lockOf (some slot)) false
      simp only [Process.lockOf,(writerStep_slots hwriter).2]
      exact .keep
  | evictor path returned =>
    cases returned with
    | false =>
      cases hstep
      cases k with
      | none => exact .keep
      | some slot => exact .keep
    | true => cases hstep

theorem cacheThreads_locks (summarize : Network → Content → Summary) :
    (@cacheThreads Path _ _ _ _ _ summarize).Outline (fun _ _ => True)
      (fun p => ProcessGood summarize p.shared ∧
        ∀ k, p.Locked (fun s => s.lockOf k) (fun thread => thread.holds k))
      (ThreadGood summarize) := by
  apply (cacheThreads_outline summarize).withLocks (fun k s => s.lockOf k)
    (fun k thread => thread.holds k)
  · intro k thread hinitial
    cases thread with
    | reader path network point =>
      cases point with
      | start => cases k <;> rfl
      | _ => cases hinitial
    | writer point =>
      cases point with
      | start => cases k <;> rfl
      | _ => cases hinitial
    | evictor => cases k <;> rfl
  · intro p i choice thread s' thread' hp hthread hadvance k
    obtain ⟨⟨next,following⟩,hstep,heq⟩ := Option.map_eq_some_iff.mp hadvance
    cases heq
    rw [lockOf_record]
    exact threadStep_lockStep hp.invariant (hp.thread i thread hthread) hstep k

/-- What lets the call go on: the file exists, the loader reads, and a section writes no more. -/
def CacheThread.next : CacheThread Path Network Summary → Choice Path Content
  | .reader _ _ (.checking _ _ _ _) => .pathExists true
  | .reader _ _ (.loading _ _ _ _) => .load .reads
  | _ => .proceed

theorem next_less {thread : CacheThread Path Network Summary}
    (hgood : ThreadGood summarize s i thread) (hleft : 0 < thread.stepsLeft)
    (hfree : ∀ k, thread.wants = some k → s.lockOf k = none) :
    ((cacheThreads summarize).advance i thread.next s thread).any
      (fun next => decide (next.2.stepsLeft < thread.stepsLeft)) = true := by
  cases thread with
  | reader path network point =>
    cases point with
    | slotted began slot =>
      have hcall : InCall s (path,network) began slot := hgood
      have hlock : (s.slots slot).lockedBy = none := by
        have hslot := hfree (some slot) rfl
        rwa [Process.lockOf,if_pos hcall.inUse] at hslot
      simp [cacheThreads,threadStep,readerStep,hlock,CacheThread.stepsLeft]
    | locked began slot =>
      simp only [cacheThreads,threadStep,readerStep]
      cases (s.slots slot).cached with
      | none => rfl
      | some entry =>
        by_cases hepoch : s.epoch = entry.epoch ∧ s.epoch % 2 = 0
        · simp only [if_pos hepoch]
          rfl
        · simp only [if_neg hepoch]
          rfl
    | loaded began slot epochBefore loadBegan loadedAt result =>
      simp only [cacheThreads,threadStep,readerStep]
      cases result with
      | error error => rfl
      | ok summary =>
        by_cases hepoch : epochBefore = s.epoch ∧ epochBefore % 2 = 0
        · simp only [if_pos hepoch]
          rfl
        · simp only [if_neg hepoch]
          rfl
    | returned => cases hleft
    | start | checking | missed | loading | unlocking => rfl
  | writer point =>
    cases point with
    | start =>
      have hlock : s.writeLock = none := hfree none rfl
      simp [cacheThreads,threadStep,writerStep,hlock,CacheThread.stepsLeft]
    | returned => cases hleft
    | locked | writing | finished => rfl
  | evictor path returned =>
    cases returned with
    | false => rfl
    | true => cases hleft

variable {p : ThreadPool (Process Path Network Content Summary) (CacheThread Path Network Summary)}

/-- Every reader, writer and eviction of every run can be brought to its end. -/
theorem cache_neverStuck (contents : Path → Content)
    (slots : Nat → EntrySlot Path Network Summary)
    (hrun : Runs (cacheThreads summarize).step ⟨initialProcess contents slots,[]⟩ p) :
    (cacheThreads summarize).CanRest CacheThread.stepsLeft p := by
  have hlocks := @cacheThreads_locks Path _ _ _ _ _ summarize
  refine hlocks.canRest (fun p hp i thread hthread hleft => ?_) (hlocks.runs hrun (holds_nil
    ⟨processGood_initial summarize contents slots,fun k => locked_nil (by cases k <;> rfl)⟩))
  apply canWork_of_locks (fun k s => s.lockOf k) (fun k thread => thread.holds k)
    (fun thread => if thread.wants.isSome then 1 else 0) hp.invariant.2 _ hthread hleft
  intro i thread hthread hleft
  by_cases hfree : ∀ k, thread.wants = some k → p.shared.lockOf k = none
  · exact .inl (canWork_of_any hthread (next_less (hp.thread i thread hthread) hleft hfree))
  · push Not at hfree
    obtain ⟨k,hk,hheld⟩ := hfree
    refine .inr ⟨k,hheld,fun other hother => ?_⟩
    have hnone := wants_none_of_holds hother
    exact ⟨hnone.2,by simp [hnone.1,hk]⟩

theorem cache_neverStuck_waiting : ∃ p, Runs sampleThreads.step sampleStart p ∧
    p.threads[0]? = some (.reader true () (.loading 1 0 0 4)) ∧
    p.threads[1]? = some (.reader true () (.slotted 5 0)) ∧ p.shared.lockOf (some 0) = some 0 ∧
    sampleThreads.CanRest CacheThread.stepsLeft p := by
  obtain ⟨p,hexecute,hfirst,hsecond,hlock⟩ : ∃ p, execute sampleThreads.step
      [.start (.reader true () .start),.start (.reader true () .start),.advance 0 .proceed,
        .advance 0 .proceed,.advance 0 .proceed,.advance 0 .proceed,.advance 1 .proceed]
        sampleStart = .ok p ∧
      p.threads[0]? = some (.reader true () (.loading 1 0 0 4)) ∧
      p.threads[1]? = some (.reader true () (.slotted 5 0)) ∧ p.shared.lockOf (some 0) = some 0 :=
    ⟨_,rfl,rfl,rfl,rfl⟩
  exact ⟨p,runs_of_execute hexecute,hfirst,hsecond,hlock,
    cache_neverStuck _ _ (runs_of_execute hexecute)⟩

/-- Every call has the slot of its key, unless the slots of its database were forgotten. -/
def Mapped (p : ThreadPool (Process Path Network Content Summary)
    (CacheThread Path Network Summary)) : Prop :=
  ∀ (i : Nat) path network point slot, p.threads[i]? = some (.reader path network point) →
    point.slot = some slot → (∃ e : Nat, p.threads[e]? = some (.evictor path true)) ∨
      p.shared.entries (path,network) = some slot

theorem readerStep_slot {path : Path} {network : Network} {point point' : ReaderPoint Summary}
    (hstep : readerStep summarize i path network choice s point = some (s',point'))
    (hslot : point'.slot = some slot) :
    point.slot = some slot ∨ s'.entries (path,network) = some slot := by
  cases point with
  | start =>
    cases hstep
    right
    unfold slotFor at hslot ⊢
    cases hentry : s.entries (path,network) with
    | some own => simpa [hentry,ReaderPoint.slot] using hslot
    | none => simpa [hentry,ReaderPoint.slot] using hslot
  | returned => cases hstep
  | slotted | locked | checking | missed | loading | loaded | unlocking =>
    left
    simp only [readerStep] at hstep
    grind [ReaderPoint.slot]

theorem threadStep_entries {thread thread' : CacheThread Path Network Summary}
    (hstep : threadStep summarize i choice s thread = some (s',thread')) {path : Path}
    {network : Network} (hentry : s.entries (path,network) = some slot) :
    s'.entries (path,network) = some slot ∨ thread' = .evictor path true := by
  cases thread with
  | reader other network' point =>
    obtain ⟨⟨t,point'⟩,hreader,heq⟩ := Option.map_eq_some_iff.mp hstep
    cases heq
    left
    cases point with
    | start =>
      cases hreader
      unfold slotFor
      split
      · exact hentry
      · rename_i hnone
        have hne : (path,network) ≠ (other,network') := by
          intro heq
          rw [heq,hnone] at hentry
          cases hentry
        simpa [Function.update,hne] using hentry
    | returned => cases hreader
    | slotted | locked | checking | missed | loading | loaded | unlocking =>
      simp only [readerStep] at hreader
      grind [Process.cache,Process.lock,Process.setSlot]
  | writer point =>
    obtain ⟨⟨t,point'⟩,hwriter,heq⟩ := Option.map_eq_some_iff.mp hstep
    cases heq
    rw [(writerStep_slots hwriter).1]
    exact .inl hentry
  | evictor other returned =>
    cases returned with
    | true => cases hstep
    | false =>
      cases hstep
      by_cases hsame : path = other
      · exact .inr (congrArg (CacheThread.evictor · true) hsame.symm)
      · exact .inl ((if_neg hsame).trans hentry)

/-- An eviction stays, and without one the slot of a key does. -/
theorem entry_kept {thread next : CacheThread Path Network Summary}
    (hthread : p.threads[i]? = some thread)
    (hnext : threadStep summarize i choice p.shared thread = some (s',next)) {path : Path}
    {network : Network} (h : (∃ e : Nat, p.threads[e]? = some (.evictor path true)) ∨
      p.shared.entries (path,network) = some slot) :
    (∃ e : Nat, (p.threads.set i next)[e]? = some (.evictor path true)) ∨
      s'.entries (path,network) = some slot := by
  rcases h with ⟨e,he⟩ | hentry
  · have hne : e ≠ i := by
      intro heq
      subst heq
      cases hthread.symm.trans he
      cases hnext
    exact .inl ⟨e,(getElem?_set_other hne).trans he⟩
  · rcases threadStep_entries hnext hentry with hentry | rfl
    · exact .inr hentry
    · exact .inl ⟨i,getElem?_set_own hthread⟩

theorem mapped_step {input : ThreadInput (CacheThread Path Network Summary) (Choice Path Content)}
    {q : ThreadPool (Process Path Network Content Summary) (CacheThread Path Network Summary)}
    (hp : Mapped p) (hstep : (cacheThreads summarize).step input p = .ok q) : Mapped q := by
  cases input with
  | start thread =>
    obtain ⟨hinitial,rfl⟩ := Threads.step_start hstep
    intro i path network point slot hi hslot
    rcases getElem?_started hi with hi | ⟨-,rfl⟩
    · exact (hp i path network point slot hi hslot).imp_left fun ⟨e,he⟩ =>
        ⟨e,getElem?_append_of_some he⟩
    · cases point with
      | start => cases hslot
      | _ => cases hinitial
  | advance i choice =>
    obtain ⟨thread,shared,thread',hthread,hadvance,rfl⟩ := Threads.step_advance hstep
    obtain ⟨⟨s',next⟩,hnext,heq⟩ := Option.map_eq_some_iff.mp hadvance
    cases heq
    intro j path network point slot hj hslot
    rcases getElem?_advanced hj with ⟨rfl,heq⟩ | ⟨-,hj⟩
    · subst heq
      cases thread with
      | reader path' network' before =>
        obtain ⟨⟨t,point'⟩,hreader,heq⟩ := Option.map_eq_some_iff.mp hnext
        cases heq
        rcases readerStep_slot hreader hslot with hbefore | hentry
        · exact entry_kept hthread hnext (hp j _ _ before slot hthread hbefore)
        · exact .inr hentry
      | writer before =>
        obtain ⟨_,_,heq⟩ := Option.map_eq_some_iff.mp hnext
        cases heq
      | evictor path' returned =>
        cases returned with
        | true => cases hnext
        | false => cases hnext
    · exact entry_kept hthread hnext (hp j path network point slot hj hslot)

/-- Two calls with one key are in their sections at the same time only after an eviction of the
key's database; their loads never overlap otherwise. -/
theorem cacheSections_exclusive (contents : Path → Content)
    (slots : Nat → EntrySlot Path Network Summary)
    (hrun : Runs (cacheThreads summarize).step ⟨initialProcess contents slots,[]⟩ p) {i j : Nat}
    {path : Path} {network : Network} {point point' : ReaderPoint Summary}
    (hi : p.threads[i]? = some (.reader path network point))
    (hj : p.threads[j]? = some (.reader path network point')) (hne : i ≠ j)
    (hpoint : point.lockedSlot ≠ none) (hpoint' : point'.lockedSlot ≠ none) :
    ∃ e : Nat, p.threads[e]? = some (.evictor path true) := by
  have hlocks := (@cacheThreads_locks Path _ _ _ _ _ summarize).runs hrun (holds_nil
    ⟨processGood_initial summarize contents slots,fun k => locked_nil (by cases k <;> rfl)⟩)
  have hmapped : Mapped p := hrun.invariant (P := Mapped) (fun _ _ _ => mapped_step) (by
    intro i path network point slot hi
    cases hi)
  obtain ⟨slot,hslot⟩ := Option.ne_none_iff_exists'.mp hpoint
  obtain ⟨slot',hslot'⟩ := Option.ne_none_iff_exists'.mp hpoint'
  have hgiven : ∀ {point : ReaderPoint Summary} {slot : Nat}, point.lockedSlot = some slot →
      point.slot = some slot := by
    intro point slot h
    cases point with
    | slotted => cases h
    | _ => exact h
  by_contra hevicted
  have hentry := (hmapped i path network point slot hi (hgiven hslot)).resolve_left hevicted
  have hentry' := (hmapped j path network point' slot' hj (hgiven hslot')).resolve_left hevicted
  cases hentry.symm.trans hentry'
  have houtside := (hlocks.invariant.2 (some slot)).exclusive hi (by simp [CacheThread.holds,hslot])
    hj hne.symm
  simp [CacheThread.holds,hslot'] at houtside

/-- The second call was given a new slot after the eviction, and loads while the first one does. -/
theorem cacheSections_exclusive_evicted : ∃ p, Runs sampleThreads.step sampleStart p ∧
    p.threads[0]? = some (.reader true () (.missed 1 0)) ∧
    p.threads[2]? = some (.reader true () (.missed 5 1)) ∧
    ∃ e : Nat, p.threads[e]? = some (.evictor true true) := by
  obtain ⟨p,hexecute,hfirst,hsecond⟩ : ∃ p, execute sampleThreads.step
      [.start (.reader true () .start),.start (.evictor true false),.start (.reader true () .start),
        .advance 0 .proceed,.advance 0 .proceed,.advance 0 .proceed,.advance 1 .proceed,
        .advance 2 .proceed,.advance 2 .proceed,.advance 2 .proceed] sampleStart = .ok p ∧
      p.threads[0]? = some (.reader true () (.missed 1 0)) ∧
      p.threads[2]? = some (.reader true () (.missed 5 1)) := ⟨_,rfl,rfl,rfl⟩
  exact ⟨p,runs_of_execute hexecute,hfirst,hsecond,
    cacheSections_exclusive _ _ (runs_of_execute hexecute) hfirst hsecond (by decide)
      (by simp [ReaderPoint.lockedSlot,ReaderPoint.slot])
      (by simp [ReaderPoint.lockedSlot,ReaderPoint.slot])⟩

end CoppiceWallet.SummaryCache
