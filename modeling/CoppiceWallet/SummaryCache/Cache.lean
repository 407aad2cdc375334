import CoppiceWallet.Lib.Threads
import Mathlib.Logic.Function.Basic

/-!
# The cache of wallet summaries

A reader takes the slot of its key and holds the slot's lock while it looks at the cached summary or
loads a new one. Writers make the epoch odd while they are active; the epoch decides whether a
cached summary is still good and whether a loaded one may be kept. Eviction forgets the slots of a
database.

The loads and additions of the epoch are single steps, in one order for all threads, and the epoch
does not wrap. The `moments` list the states that the process went through; only what is said about
the cache reads them.
-/

namespace CoppiceWallet.SummaryCache

open CoppiceWallet.Lib

variable (Path Network Content Summary : Type)

/-- A cached summary, with the moments at which its load looked at the epoch. -/
structure CacheEntry where
  epoch : Nat
  summary : Summary
  loadBegan : Nat
  loadEnded : Nat
  deriving DecidableEq

structure EntrySlot where
  key : Path × Network
  lockedBy : Option Nat
  cached : Option (CacheEntry Summary)

structure Moment where
  contents : Path → Content
  epoch : Nat

/-- The databases, the writers' epoch and lock, and the slots with the map that leads to them. -/
structure Process where
  contents : Path → Content
  epoch : Nat
  writeLock : Option Nat
  entries : Path × Network → Option Nat
  slots : Nat → EntrySlot Path Network Summary
  slotCount : Nat
  moments : List (Moment Path Content)

inductive LoadOutcome
  | reads
  | fails (error : String)
  | panics

/-- What a step leaves open: whether the file exists, how the loader ends, what is written. -/
inductive Choice
  | proceed
  | pathExists (answer : Bool)
  | load (outcome : LoadOutcome)
  | write (contents : Path → Content)

inductive Served
  | cached (entry : CacheEntry Summary) (checkedAt : Nat)
  | loaded (summary : Summary)
  | failed (error : String)
  | panicked

/-- Where a call of `get_or_load_with` stands; it remembers the moment after its first step. -/
inductive ReaderPoint
  | start
  | slotted (began slot : Nat)
  | locked (began slot : Nat)
  | checking (began slot : Nat) (entry : CacheEntry Summary) (checkedAt : Nat)
  | missed (began slot : Nat)
  | loading (began slot epochBefore loadBegan : Nat)
  | loaded (began slot epochBefore loadBegan loadedAt : Nat) (result : Except String Summary)
  | unlocking (began slot : Nat) (served : Served Summary)
  | returned (began : Nat) (served : Served Summary)

/-- Where a section of the write lock stands; it ends in the same way when it unwinds. -/
inductive WriterPoint
  | start
  | locked
  | writing
  | finished
  | returned

inductive CacheThread
  | reader (path : Path) (network : Network) (point : ReaderPoint Summary)
  | writer (point : WriterPoint)
  | evictor (path : Path) (returned : Bool)

variable {Path Network Content Summary}

/-- A write section is active. -/
def Moment.Active (m : Moment Path Content) : Prop := m.epoch % 2 = 1

/-- How many write sections have ended. -/
def Moment.sectionsEnded (m : Moment Path Content) : Nat := m.epoch / 2

def CacheThread.isStart : CacheThread Path Network Summary → Bool
  | .reader _ _ .start => true
  | .writer .start => true
  | .evictor _ false => true
  | _ => false

section Steps

variable [DecidableEq Path] [DecidableEq Network]

def Process.setSlot (s : Process Path Network Content Summary) (slot : Nat)
    (f : EntrySlot Path Network Summary → EntrySlot Path Network Summary) :
    Process Path Network Content Summary :=
  { s with slots := Function.update s.slots slot (f (s.slots slot)) }

def Process.cache (s : Process Path Network Content Summary) (slot : Nat)
    (cached : Option (CacheEntry Summary)) : Process Path Network Content Summary :=
  s.setSlot slot fun entry => { entry with cached := cached }

def Process.lock (s : Process Path Network Content Summary) (slot : Nat) (holder : Option Nat) :
    Process Path Network Content Summary :=
  s.setSlot slot fun entry => { entry with lockedBy := holder }

def slotFor (key : Path × Network) (s : Process Path Network Content Summary) :
    Process Path Network Content Summary × Nat :=
  match s.entries key with
  | some slot => (s,slot)
  | none => ({ s with
      entries := Function.update s.entries key (some s.slotCount)
      slots := Function.update s.slots s.slotCount ⟨key,none,none⟩
      slotCount := s.slotCount + 1 },s.slotCount)

def evictDb (path : Path) (s : Process Path Network Content Summary) :
    Process Path Network Content Summary :=
  { s with entries := fun key => if key.1 = path then none else s.entries key }

/-- The steps of `get_or_load_with`. -/
def readerStep (summarize : Network → Content → Summary) (i : Nat) (path : Path) (network : Network)
    (choice : Choice Path Content) (s : Process Path Network Content Summary) :
    ReaderPoint Summary → Option (Process Path Network Content Summary × ReaderPoint Summary)
  | .start =>
    let slotted := slotFor (path,network) s
    some (slotted.1,.slotted s.moments.length slotted.2)
  | .slotted began slot =>
    match (s.slots slot).lockedBy with
    | some _ => none
    | none => some (s.lock slot (some i),.locked began slot)
  | .locked began slot =>
    match (s.slots slot).cached with
    | none => some (s,.missed began slot)
    | some entry =>
      if s.epoch = entry.epoch ∧ s.epoch % 2 = 0 then
        some (s,.checking began slot entry s.moments.length)
      else some (s.cache slot none,.missed began slot)
  | .checking began slot entry checkedAt =>
    match choice with
    | .pathExists true => some (s,.unlocking began slot (.cached entry checkedAt))
    | .pathExists false => some (s.cache slot none,.missed began slot)
    | _ => none
  | .missed began slot => some (s,.loading began slot s.epoch s.moments.length)
  | .loading began slot epochBefore loadBegan =>
    match choice with
    | .load .reads => some (s,.loaded began slot epochBefore loadBegan s.moments.length
        (.ok (summarize network (s.contents path))))
    | .load (.fails error) =>
      some (s,.loaded began slot epochBefore loadBegan s.moments.length (.error error))
    | .load .panics => some (s,.unlocking began slot .panicked)
    | _ => none
  | .loaded began slot epochBefore loadBegan _ result =>
    match result with
    | .error error => some (s.cache slot none,.unlocking began slot (.failed error))
    | .ok summary =>
      if epochBefore = s.epoch ∧ epochBefore % 2 = 0 then
        some (s.cache slot (some ⟨epochBefore,summary,loadBegan,s.moments.length⟩),
          .unlocking began slot (.loaded summary))
      else some (s.cache slot none,.unlocking began slot (.loaded summary))
  | .unlocking began slot served => some (s.lock slot none,.returned began served)
  | .returned _ _ => none

/-- The steps of `with_wallet_db_write_lock`; only an active section changes the databases. -/
def writerStep (i : Nat) (choice : Choice Path Content)
    (s : Process Path Network Content Summary) :
    WriterPoint → Option (Process Path Network Content Summary × WriterPoint)
  | .start =>
    match s.writeLock with
    | some _ => none
    | none => some ({ s with writeLock := some i },.locked)
  | .locked => some ({ s with epoch := s.epoch + 1 },.writing)
  | .writing =>
    match choice with
    | .write contents => some ({ s with contents := contents },.writing)
    | .proceed => some ({ s with epoch := s.epoch + 1 },.finished)
    | _ => none
  | .finished => some ({ s with writeLock := none },.returned)
  | .returned => none

def threadStep (summarize : Network → Content → Summary) (i : Nat) (choice : Choice Path Content)
    (s : Process Path Network Content Summary) :
    CacheThread Path Network Summary →
      Option (Process Path Network Content Summary × CacheThread Path Network Summary)
  | .reader path network point =>
    (readerStep summarize i path network choice s point).map fun next =>
      (next.1,.reader path network next.2)
  | .writer point => (writerStep i choice s point).map fun next => (next.1,.writer next.2)
  | .evictor path false => some (evictDb path s,.evictor path true)
  | .evictor _ true => none

/-- The state after a step is the next moment. -/
def Process.record (s : Process Path Network Content Summary) :
    Process Path Network Content Summary :=
  { s with moments := s.moments ++ [⟨s.contents,s.epoch⟩] }

def cacheThreads (summarize : Network → Content → Summary) :
    Threads (Process Path Network Content Summary) (CacheThread Path Network Summary)
      (Choice Path Content) where
  initial := CacheThread.isStart
  advance := fun i choice s thread =>
    (threadStep summarize i choice s thread).map fun next => (next.1.record,next.2)

def initialProcess (contents : Path → Content) (slots : Nat → EntrySlot Path Network Summary) :
    Process Path Network Content Summary where
  contents := contents
  epoch := 0
  writeLock := none
  entries := fun _ => none
  slots := slots
  slotCount := 0
  moments := [⟨contents,0⟩]

end Steps

end CoppiceWallet.SummaryCache
