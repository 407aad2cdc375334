import CoppiceWallet.Lib.Run
import CoppiceWallet.Store.Model

/-!
# Voting hotkeys

An action of a notifier gets its hotkey from the store, or from an ensure: a future that reads the
store, generates a key, reads again and writes. A notifier merges its own concurrent ensures in a
table, which a disposal, a rebuild or an account switch clears.
-/

namespace CoppiceWallet.Voting

open CoppiceWallet.Store

structure HotkeyKey where
  accountUuid : Text
  roundId : Text
  deriving DecidableEq

/-- An empty entry of the store reads as a missing one. -/
structure Hotkey where
  bytes : List UInt8
  nonempty : bytes ≠ []
  deriving DecidableEq

inductive EnsurePoint
  | read
  | generate
  | reread (hotkey : Hotkey)
  | write (hotkey : Hotkey)
  | returned (hotkey : Hotkey)
  /-- The hotkey is unavailable, or the notifier is gone. -/
  | failed
  deriving DecidableEq

/-- `alreadyBound` is what the caller knows and what the plans of its context say. -/
structure Ensure where
  notifier : Nat
  key : HotkeyKey
  alreadyBound : Bool
  point : EnsurePoint
  deriving DecidableEq

def Ensure.ended (ensure : Ensure) : Bool :=
  match ensure.point with
  | .returned _ => true
  | .failed => true
  | _ => false

abbrev HotkeyStore := HotkeyKey → Option Hotkey

def HotkeyStore.writeHotkey (store : HotkeyStore) (key : HotkeyKey) (hotkey : Hotkey) :
    HotkeyStore :=
  Function.update store key (some hotkey)

/-- The next point of `_ensureHotkeyUncached`; `fresh` is what the generator returns. -/
def Ensure.next (store : HotkeyStore) (fresh : Hotkey) (ensure : Ensure) : EnsurePoint :=
  match ensure.point with
  | .read =>
    match store ensure.key with
    | some hotkey => .returned hotkey
    | none => if ensure.alreadyBound then .failed else .generate
  | .generate => .reread fresh
  | .reread hotkey =>
    match store ensure.key with
    | some stored => .returned stored
    | none => .write hotkey
  | .write hotkey => .returned hotkey
  | point => point

def Ensure.writes (store : HotkeyStore) (ensure : Ensure) : HotkeyStore :=
  match ensure.point with
  | .write hotkey => store.writeHotkey ensure.key hotkey
  | _ => store

inductive HotkeyActionKind
  | castVotes
  | delegatePendingBundles
  | delegatePendingBundlesWithKeystoneSignatures
  | prepareKeystoneSigning
  deriving DecidableEq

inductive ActionPoint
  | started
  | awaiting (ensure : Nat)
  | holds (hotkey : Hotkey)
  | ended
  deriving DecidableEq

/-- An action of a notifier, at the account and round of its own context. -/
structure HotkeyAction where
  notifier : Nat
  key : HotkeyKey
  kind : HotkeyActionKind
  hasSignatures : Bool
  /-- The round plan says that a hotkey is bound. -/
  planBound : Bool
  /-- The plans of the context say that a hotkey is bound. -/
  contextBound : Bool
  point : ActionPoint
  deriving DecidableEq

structure HotkeyState where
  store : HotkeyStore
  /-- `_hotkeyEnsures` of each notifier. -/
  inFlight : Nat → HotkeyKey → Option Nat
  ensures : List Ensure
  actions : List HotkeyAction
  /-- The delegation requests, payloads and vote commitments built so far, with their hotkeys. -/
  built : List (HotkeyKey × Hotkey)

/-- `_ensureHotkey`: join the ensure in flight, or start one. -/
def HotkeyState.ensureHotkey (s : HotkeyState) (notifier : Nat) (key : HotkeyKey)
    (alreadyBound : Bool) : HotkeyState × Nat :=
  match s.inFlight notifier key with
  | some ensure => (s,ensure)
  | none =>
    ({ s with
        ensures := s.ensures ++ [⟨notifier,key,alreadyBound,.read⟩]
        inFlight := fun n k =>
          if n = notifier ∧ k = key then some s.ensures.length else s.inFlight n k },
      s.ensures.length)

def HotkeyState.setAction (s : HotkeyState) (i : Nat) (action : HotkeyAction)
    (point : ActionPoint) : HotkeyState :=
  { s with actions := s.actions.set i { action with point := point } }

def HotkeyState.awaitEnsure (s : HotkeyState) (i : Nat) (action : HotkeyAction)
    (alreadyBound : Bool) : HotkeyState :=
  let (s,ensure) := s.ensureHotkey action.notifier action.key (alreadyBound || action.contextBound)
  s.setAction i action (.awaiting ensure)

/-- The start of an action: vote casting and Keystone preparation read the store first, and a
preparation fails when its hotkey is bound and missing. -/
def HotkeyState.startAction (s : HotkeyState) (i : Nat) (action : HotkeyAction) : HotkeyState :=
  match action.kind with
  | .castVotes =>
    match s.store action.key with
    | some hotkey => s.setAction i action (.holds hotkey)
    | none => s.awaitEnsure i action false
  | .delegatePendingBundles => s.awaitEnsure i action false
  | .delegatePendingBundlesWithKeystoneSignatures => s.awaitEnsure i action action.hasSignatures
  | .prepareKeystoneSigning =>
    match s.store action.key with
    | some hotkey => s.setAction i action (.holds hotkey)
    | none =>
      if action.hasSignatures || action.planBound then s.setAction i action .ended
      else s.awaitEnsure i action action.hasSignatures

/-- An action goes on: it starts, gets the result of its ensure, or builds with its hotkey. -/
def HotkeyState.advanceAction (s : HotkeyState) (i : Nat) (action : HotkeyAction) :
    Except Unit HotkeyState :=
  match action.point with
  | .started => .ok (s.startAction i action)
  | .awaiting e =>
    match s.ensures[e]?.map Ensure.point with
    | some (.returned hotkey) => .ok (s.setAction i action (.holds hotkey))
    | some .failed => .ok (s.setAction i action .ended)
    | _ => .error ()
  | .holds hotkey => .ok { s with built := (action.key,hotkey) :: s.built }
  | .ended => .error ()

/-- An ensure moves to a point. When it ends it leaves the table of its notifier, unless another
ensure has taken its place. -/
def HotkeyState.moveEnsure (s : HotkeyState) (e : Nat) (ensure : Ensure) (point : EnsurePoint) :
    HotkeyState :=
  { s with
    store := if point = .failed then s.store else ensure.writes s.store
    ensures := s.ensures.set e { ensure with point := point }
    inFlight := fun n k =>
      if ({ ensure with point := point } : Ensure).ended && decide (s.inFlight n k = some e) then
        none
      else s.inFlight n k }

inductive HotkeyEvent
  /-- The notifier is disposed, rebuilt or switched to another account. -/
  | clear (notifier : Nat)
  /-- The queue of a notifier starts its next action. -/
  | call (action : HotkeyAction)
  | advanceAction (i : Nat)
  /-- An action goes stale, fails or ends. -/
  | endAction (i : Nat)
  | advanceEnsure (e : Nat) (fresh : Hotkey)
  | failEnsure (e : Nat)

def HotkeyState.busy (s : HotkeyState) (notifier : Nat) : Bool :=
  s.actions.any fun action => decide (action.notifier = notifier) && decide (action.point ≠ .ended)

def HotkeyEvent.step (event : HotkeyEvent) (s : HotkeyState) : Except Unit HotkeyState :=
  match event with
  | .clear notifier =>
    .ok { s with inFlight := fun n k => if n = notifier then none else s.inFlight n k }
  | .call action =>
    if s.busy action.notifier || decide (action.point ≠ .started) then .error ()
    else .ok { s with actions := s.actions ++ [action] }
  | .advanceAction i =>
    match s.actions[i]? with
    | some action => s.advanceAction i action
    | none => .error ()
  | .endAction i =>
    match s.actions[i]? with
    | some action => .ok (s.setAction i action .ended)
    | none => .error ()
  | .advanceEnsure e fresh =>
    match s.ensures[e]? with
    | some ensure =>
      if ensure.ended then .error () else .ok (s.moveEnsure e ensure (ensure.next s.store fresh))
    | none => .error ()
  | .failEnsure e =>
    match s.ensures[e]? with
    | some ensure => if ensure.ended then .error () else .ok (s.moveEnsure e ensure .failed)
    | none => .error ()

end CoppiceWallet.Voting
