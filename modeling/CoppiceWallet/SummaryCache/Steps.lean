import CoppiceWallet.SummaryCache.Cache

/-! # What the steps keep -/

namespace CoppiceWallet.SummaryCache

open CoppiceWallet.Lib

variable {Path Network Content Summary : Type}

/-- The epoch never goes back, and while it stands at an even value the databases do not change. -/
structure Moment.Precedes (m n : Moment Path Content) : Prop where
  epoch : m.epoch ≤ n.epoch
  quiet : m.epoch = n.epoch → m.epoch % 2 = 0 → m.contents = n.contents

theorem Moment.precedes_refl (m : Moment Path Content) : m.Precedes m :=
  ⟨Nat.le_refl _,fun _ _ => rfl⟩

theorem Moment.Precedes.trans {l m n : Moment Path Content} (h : l.Precedes m)
    (h' : m.Precedes n) : l.Precedes n := by
  have hlm := h.epoch
  have hmn := h'.epoch
  constructor
  · omega
  · intro heq heven
    have hsame : l.epoch = m.epoch := by omega
    exact (h.quiet hsame heven).trans (h'.quiet (by omega) (by omega))

variable [DecidableEq Path] [DecidableEq Network]

/-- The moments are in order, and the last one is the present. -/
structure Timeline (s : Process Path Network Content Summary) : Prop where
  ordered : s.moments.Pairwise Moment.Precedes
  present : s.moments.getLast? = some ⟨s.contents,s.epoch⟩

omit [DecidableEq Path] [DecidableEq Network] in
theorem Timeline.precedes {s : Process Path Network Content Summary} (h : Timeline s) {i j : Nat}
    {m n : Moment Path Content} (hij : i ≤ j) (hm : s.moments[i]? = some m)
    (hn : s.moments[j]? = some n) : m.Precedes n := by
  rcases Nat.eq_or_lt_of_le hij with rfl | hlt
  · cases hm.symm.trans hn
    exact m.precedes_refl
  · obtain ⟨hi,rfl⟩ := List.getElem?_eq_some_iff.mp hm
    obtain ⟨hj,rfl⟩ := List.getElem?_eq_some_iff.mp hn
    exact List.pairwise_iff_getElem.mp h.ordered i j hi hj hlt

omit [DecidableEq Path] [DecidableEq Network] in
theorem Timeline.record {s s' : Process Path Network Content Summary} (h : Timeline s)
    (hmoments : s'.moments = s.moments)
    (hnext : (⟨s.contents,s.epoch⟩ : Moment Path Content).Precedes ⟨s'.contents,s'.epoch⟩) :
    Timeline s'.record := by
  constructor
  · simp only [Process.record,hmoments]
    apply List.pairwise_append.mpr
    refine ⟨h.ordered,List.pairwise_singleton _ _,?_⟩
    intro m hm n hn
    cases List.mem_singleton.mp hn
    obtain ⟨i,hi,rfl⟩ := List.mem_iff_getElem.mp hm
    have hlast : s.moments[s.moments.length - 1]? = some ⟨s.contents,s.epoch⟩ := by
      rw [← List.getLast?_eq_getElem?]
      exact h.present
    exact (h.precedes (by omega) (List.getElem?_eq_getElem hi) hlast).trans hnext
  · simp [Process.record]

/-- The moment with this index, when it has passed. -/
def AtMoment (s : Process Path Network Content Summary) (k : Nat)
    (P : Moment Path Content → Prop) : Prop :=
  ∃ m, s.moments[k]? = some m ∧ P m

/-- The summary was read between two looks at the epoch that both saw the same even value. -/
structure EntryGood (summarize : Network → Content → Summary)
    (s : Process Path Network Content Summary) (key : Path × Network)
    (entry : CacheEntry Summary) : Prop where
  even : entry.epoch % 2 = 0
  began : AtMoment s entry.loadBegan fun m => m.epoch = entry.epoch
  ended : AtMoment s entry.loadEnded fun m => m.epoch = entry.epoch
  read : ∃ k, entry.loadBegan ≤ k ∧ k ≤ entry.loadEnded ∧
    AtMoment s k fun m => entry.summary = summarize key.2 (m.contents key.1)

/-- The slots in use, what the map says of them, and what they cache. -/
structure SlotsGood (summarize : Network → Content → Summary)
    (s : Process Path Network Content Summary) : Prop where
  mapped : ∀ key slot, s.entries key = some slot → slot < s.slotCount ∧ (s.slots slot).key = key
  cached : ∀ slot < s.slotCount, ∀ entry, (s.slots slot).cached = some entry →
    EntryGood summarize s (s.slots slot).key entry

/-- What is known of a result: a cached one was checked in the call, at its own epoch. -/
def ServedGood (summarize : Network → Content → Summary)
    (s : Process Path Network Content Summary) (key : Path × Network) (began : Nat) :
    Served Summary → Prop
  | .cached entry checkedAt => EntryGood summarize s key entry ∧ began ≤ checkedAt ∧
      AtMoment s checkedAt fun m => m.epoch = entry.epoch
  | _ => True

/-- The call has begun, and its slot is a slot of its key. -/
structure InCall (s : Process Path Network Content Summary) (key : Path × Network)
    (began slot : Nat) : Prop where
  began : began < s.moments.length
  inUse : slot < s.slotCount
  hasKey : (s.slots slot).key = key

def ReaderGood (summarize : Network → Content → Summary)
    (s : Process Path Network Content Summary) (key : Path × Network) :
    ReaderPoint Summary → Prop
  | .start => True
  | .slotted began slot | .locked began slot | .missed began slot => InCall s key began slot
  | .checking began slot entry checkedAt => InCall s key began slot ∧
      ServedGood summarize s key began (.cached entry checkedAt)
  | .loading began slot epochBefore loadBegan => InCall s key began slot ∧
      AtMoment s loadBegan fun m => m.epoch = epochBefore
  | .loaded began slot epochBefore loadBegan loadedAt result => InCall s key began slot ∧
      (AtMoment s loadBegan fun m => m.epoch = epochBefore) ∧ loadBegan ≤ loadedAt ∧
      loadedAt < s.moments.length ∧
      ∀ summary, result = .ok summary →
        AtMoment s loadedAt fun m => summary = summarize key.2 (m.contents key.1)
  | .unlocking began slot served => InCall s key began slot ∧
      ServedGood summarize s key began served
  | .returned began served => ServedGood summarize s key began served

/-- A writer has the lock, and the epoch is odd exactly in its section. -/
def WriterGood (s : Process Path Network Content Summary) (i : Nat) : WriterPoint → Prop
  | .start | .returned => True
  | .locked | .finished => s.writeLock = some i ∧ s.epoch % 2 = 0
  | .writing => s.writeLock = some i ∧ s.epoch % 2 = 1

def ThreadGood (summarize : Network → Content → Summary)
    (s : Process Path Network Content Summary) (i : Nat) :
    CacheThread Path Network Summary → Prop
  | .reader path network point => ReaderGood summarize s (path,network) point
  | .writer point => WriterGood s i point
  | .evictor _ _ => True

structure ProcessGood (summarize : Network → Content → Summary)
    (s : Process Path Network Content Summary) : Prop where
  timeline : Timeline s
  idle : s.writeLock = none → s.epoch % 2 = 0
  slots : SlotsGood summarize s

/-- A step of the thread `i` keeps the moments, the keys of the slots, and what belongs to a writer
that is another thread. -/
structure Evolves (i : Nat) (s s' : Process Path Network Content Summary) : Prop where
  moments : s.moments <+: s'.moments
  slotCount : s.slotCount ≤ s'.slotCount
  key : ∀ slot < s.slotCount, (s'.slots slot).key = (s.slots slot).key
  writer : ∀ j, j ≠ i → s.writeLock = some j → s'.writeLock = some j ∧ s'.epoch = s.epoch

variable {summarize : Network → Content → Summary} {s s' : Process Path Network Content Summary}
  {i : Nat} {key : Path × Network}

omit [DecidableEq Path] [DecidableEq Network]

theorem AtMoment.mono {k : Nat} {P : Moment Path Content → Prop} (h : AtMoment s k P)
    (hmoments : s.moments <+: s'.moments) : AtMoment s' k P := by
  obtain ⟨m,hm,hP⟩ := h
  obtain ⟨later,hlater⟩ := hmoments
  refine ⟨m,?_,hP⟩
  rw [← hlater,List.getElem?_append_left (List.getElem?_eq_some_iff.mp hm).1]
  exact hm

theorem EntryGood.mono {entry : CacheEntry Summary} (h : EntryGood summarize s key entry)
    (hmoments : s.moments <+: s'.moments) : EntryGood summarize s' key entry where
  even := h.even
  began := h.began.mono hmoments
  ended := h.ended.mono hmoments
  read := by
    obtain ⟨k,hbegan,hended,hread⟩ := h.read
    exact ⟨k,hbegan,hended,hread.mono hmoments⟩

theorem ServedGood.mono {began : Nat} {served : Served Summary}
    (h : ServedGood summarize s key began served) (hmoments : s.moments <+: s'.moments) :
    ServedGood summarize s' key began served := by
  cases served with
  | cached entry checkedAt => exact ⟨h.1.mono hmoments,h.2.1,h.2.2.mono hmoments⟩
  | loaded summary => trivial
  | failed error => trivial
  | panicked => trivial

theorem InCall.mono {began slot : Nat} (h : InCall s key began slot) (hstep : Evolves i s s') :
    InCall s' key began slot where
  began := Nat.lt_of_lt_of_le h.began hstep.moments.length_le
  inUse := Nat.lt_of_lt_of_le h.inUse hstep.slotCount
  hasKey := (hstep.key slot h.inUse).trans h.hasKey

theorem ReaderGood.mono {point : ReaderPoint Summary} (h : ReaderGood summarize s key point)
    (hstep : Evolves i s s') : ReaderGood summarize s' key point := by
  cases point with
  | start => trivial
  | slotted began slot => exact InCall.mono h hstep
  | locked began slot => exact InCall.mono h hstep
  | missed began slot => exact InCall.mono h hstep
  | checking began slot entry checkedAt => exact ⟨h.1.mono hstep,h.2.mono hstep.moments⟩
  | loading began slot epochBefore loadBegan => exact ⟨h.1.mono hstep,h.2.mono hstep.moments⟩
  | loaded began slot epochBefore loadBegan loadedAt result =>
    exact ⟨h.1.mono hstep,h.2.1.mono hstep.moments,h.2.2.1,
      Nat.lt_of_lt_of_le h.2.2.2.1 hstep.moments.length_le,
      fun summary hresult => (h.2.2.2.2 summary hresult).mono hstep.moments⟩
  | unlocking began slot served => exact ⟨h.1.mono hstep,h.2.mono hstep.moments⟩
  | returned began served => exact ServedGood.mono h hstep.moments

theorem WriterGood.mono {j : Nat} {point : WriterPoint} (h : WriterGood s j point) (hj : j ≠ i)
    (hstep : Evolves i s s') : WriterGood s' j point := by
  cases point with
  | start => trivial
  | returned => trivial
  | locked =>
    have hkept := hstep.writer j hj h.1
    exact ⟨hkept.1,hkept.2 ▸ h.2⟩
  | finished =>
    have hkept := hstep.writer j hj h.1
    exact ⟨hkept.1,hkept.2 ▸ h.2⟩
  | writing =>
    have hkept := hstep.writer j hj h.1
    exact ⟨hkept.1,hkept.2 ▸ h.2⟩

theorem ThreadGood.mono {j : Nat} {thread : CacheThread Path Network Summary}
    (h : ThreadGood summarize s j thread) (hj : j ≠ i) (hstep : Evolves i s s') :
    ThreadGood summarize s' j thread := by
  cases thread with
  | reader path network point => exact ReaderGood.mono h hstep
  | writer point => exact WriterGood.mono h hj hstep
  | evictor path returned => trivial

end CoppiceWallet.SummaryCache
