import CoppiceWallet.Lib.Lists
import CoppiceWallet.Lib.Run
import Mathlib.Data.List.Perm.Subperm

/-!
# A pass over the transparent refreshes

The refreshes are downloaded in groups of at most four at a time. A group is stored in one
transaction, and only then are its refreshes marked in the cache. Between two groups the active
account is moved to the front.

A pass is a machine: its events are what the loop does next, the ends of single downloads and the
exit signal.
-/

namespace CoppiceWallet.Receive

open CoppiceWallet.Lib

inductive TransparentRefreshOutcome
  | completed
  | cancelled
  deriving DecidableEq

structure TransparentRefreshCompletion where
  childIndices : List UInt32
  nextSweepOffset : Option Nat
  deriving DecidableEq

structure TransparentRefresh where
  addresses : List String
  startHeight : Nat
  label : String
  accountUuid : String
  completion : Option TransparentRefreshCompletion
  deriving DecidableEq

/-- A download takes the addresses out of its refresh. -/
def TransparentRefresh.asked (refresh : TransparentRefresh) : TransparentRefresh :=
  { refresh with addresses := [] }

structure DownloadedTransparentRefresh (O : Type) where
  refresh : TransparentRefresh
  outputs : List O
  deriving DecidableEq

inductive CacheUpdate
  | dirty (accountUuid : String)
  | batchComplete (accountUuid : String) (childIndices : List UInt32) (nextStartHeight : Nat)
    (nextSweepOffset : Option Nat)
  deriving DecidableEq

def maxConcurrentTransparentUtxoStreams : Nat := 4

/-- `sort_by_key` with the key "is another account". -/
def prioritizePendingTransparentRefreshes (active : Option String)
    (pending : List TransparentRefresh) : List TransparentRefresh :=
  match active with
  | none => pending
  | some uuid =>
    if pending.any fun refresh => decide (refresh.accountUuid = uuid) then
      pending.mergeSort fun a b => decide (a.accountUuid = uuid) || !decide (b.accountUuid = uuid)
    else pending

section Pass

variable {O E : Type}

def updateTransparentRefreshCacheMetadata (tipHeight : Nat)
    (downloaded : DownloadedTransparentRefresh O) : List CacheUpdate :=
  (if downloaded.outputs.isEmpty then [] else [.dirty downloaded.refresh.accountUuid]) ++
    match downloaded.refresh.completion with
    | none => []
    | some completion => [.batchComplete downloaded.refresh.accountUuid completion.childIndices
        (tipHeight + 1) completion.nextSweepOffset]

/-- One transaction; without outputs the database is not asked. -/
def storeTransparentOutputs (outcome : Except E Unit)
    (downloaded : List (DownloadedTransparentRefresh O)) (database : List O) : Except E (List O) :=
  if downloaded.all fun batch => batch.outputs.isEmpty then .ok database
  else do
    outcome
    .ok (database ++ downloaded.flatMap (·.outputs))

variable (O E) in
inductive PassPhase
  | top
  /-- A download has its position in the group. -/
  | downloading (queued inFlight : List (TransparentRefresh × Nat))
    (finished : List (Option (DownloadedTransparentRefresh O) × Nat))
  | downloaded (result : Except E (List (Option (DownloadedTransparentRefresh O))))
  | persisting (batch : List (DownloadedTransparentRefresh O))
  | marking (rest : List (DownloadedTransparentRefresh O))
  | returned (result : Except E TransparentRefreshOutcome)

variable (O E) in
/-- The pending refreshes and the phase, with what has been done so far: the groups taken, the
downloads begun, the groups stored and the refreshes marked. -/
structure RefreshPass where
  pending : List TransparentRefresh
  phase : PassPhase O E
  shouldExit : Bool
  taken : List (List TransparentRefresh)
  begun : List TransparentRefresh
  stored : List (List (DownloadedTransparentRefresh O))
  database : List O
  marked : List (DownloadedTransparentRefresh O)
  cache : List CacheUpdate

variable (O E) in
inductive PassEvent
  /-- The exit signal is raised. -/
  | exit
  /-- The loop begins a turn; this account is active at that moment. -/
  | turn (active : Option String)
  | start
  | finish (position : Nat) (outcome : Except E (Option (List O)))
  | join
  /-- The loop looks at the exit signal and at the downloads. -/
  | inspect
  | store (outcome : Except E Unit)
  | mark

def PassEvent.isExit : PassEvent O E → Bool
  | .exit => true
  | _ => false

def PassEvent.active : PassEvent O E → Option String
  | .turn active => active
  | _ => none

namespace RefreshPass

def initial (refreshes : List TransparentRefresh) : RefreshPass O E where
  pending := refreshes
  phase := .top
  shouldExit := false
  taken := []
  begun := []
  stored := []
  database := []
  marked := []
  cache := []

def turn (active : Option String) (s : RefreshPass O E) : Except Unit (RefreshPass O E) :=
  match s.phase with
  | .top =>
    if s.shouldExit then .ok { s with phase := .returned (.ok .cancelled) }
    else
      let pending := prioritizePendingTransparentRefreshes active s.pending
      let group := pending.take maxConcurrentTransparentUtxoStreams
      if group.isEmpty then .ok { s with pending, phase := .returned (.ok .completed) }
      else .ok { s with
        pending := pending.drop maxConcurrentTransparentUtxoStreams
        phase := .downloading group.zipIdx [] []
        taken := s.taken ++ [group] }
  | _ => .error ()

def start (s : RefreshPass O E) : Except Unit (RefreshPass O E) :=
  match s.phase with
  | .downloading (next :: queued) inFlight finished =>
    if inFlight.length < maxConcurrentTransparentUtxoStreams then .ok { s with
      phase := .downloading queued (inFlight ++ [next]) finished
      begun := s.begun ++ [next.1] }
    else .error ()
  | _ => .error ()

/-- The first error ends the group; the other downloads are dropped. -/
def finish (position : Nat) (outcome : Except E (Option (List O))) (s : RefreshPass O E) :
    Except Unit (RefreshPass O E) :=
  match s.phase with
  | .downloading queued inFlight finished =>
    match inFlight.find? fun download => decide (download.2 = position) with
    | none => .error ()
    | some (refresh,_) =>
      match outcome with
      | .error e => .ok { s with phase := .downloaded (.error e) }
      | .ok outputs => .ok { s with
        phase := .downloading queued (inFlight.eraseP fun download => decide (download.2 = position))
          (finished ++ [(outputs.map fun outputs => ⟨refresh.asked,outputs⟩,position)]) }
  | _ => .error ()

/-- The results in the order of the group. -/
def join (s : RefreshPass O E) : Except Unit (RefreshPass O E) :=
  match s.phase with
  | .downloading [] [] finished => .ok { s with
    phase := .downloaded (.ok ((finished.insertionSort fun a b => a.2 ≤ b.2).map Prod.fst)) }
  | _ => .error ()

def inspect (s : RefreshPass O E) : Except Unit (RefreshPass O E) :=
  match s.phase with
  | .downloaded result =>
    if s.shouldExit then .ok { s with phase := .returned (.ok .cancelled) }
    else match result with
      | .error e => .ok { s with phase := .returned (.error e) }
      | .ok downloaded =>
        match downloaded.mapM id with
        | none => .ok { s with phase := .returned (.ok .cancelled) }
        | some batch => .ok { s with phase := .persisting batch }
  | _ => .error ()

def store (outcome : Except E Unit) (s : RefreshPass O E) : Except Unit (RefreshPass O E) :=
  match s.phase with
  | .persisting batch =>
    match storeTransparentOutputs outcome batch s.database with
    | .error e => .ok { s with phase := .returned (.error e) }
    | .ok database => .ok { s with
      database
      stored := s.stored ++ [batch]
      phase := .marking batch }
  | _ => .error ()

def mark (tipHeight : Nat) (s : RefreshPass O E) : Except Unit (RefreshPass O E) :=
  match s.phase with
  | .marking (downloaded :: rest) => .ok { s with
    marked := s.marked ++ [downloaded]
    cache := s.cache ++ updateTransparentRefreshCacheMetadata tipHeight downloaded
    phase := .marking rest }
  | .marking [] => .ok { s with phase := .top }
  | _ => .error ()

/-- An event that cannot happen in a phase is an error. -/
def step (tipHeight : Nat) (event : PassEvent O E) (s : RefreshPass O E) :
    Except Unit (RefreshPass O E) :=
  match event with
  | .exit => .ok { s with shouldExit := true }
  | .turn active => s.turn active
  | .start => s.start
  | .finish position outcome => s.finish position outcome
  | .join => s.join
  | .inspect => s.inspect
  | .store outcome => s.store outcome
  | .mark => s.mark tipHeight

def inFlight (s : RefreshPass O E) : List (TransparentRefresh × Nat) :=
  match s.phase with
  | .downloading _ inFlight _ => inFlight
  | _ => []

end RefreshPass

end Pass

end CoppiceWallet.Receive
