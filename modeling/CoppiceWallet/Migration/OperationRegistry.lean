import Mathlib.Data.List.Infix
import Mathlib.Logic.Function.Basic
import CoppiceWallet.Lib.Threads

/-!
# The operation registry of migrations

Operations of an account run one after another: each waits for the future that was the tail when its
call was accepted. A revocation turns calls away and waits for the tail. A future and a token are
named after the call that made them.
-/

namespace CoppiceWallet.Migration

open CoppiceWallet.Lib

/-- The accepted and the started calls of a key are listed newest first. -/
structure OperationRegistry where
  tails : String → Option Nat
  revocations : String → Option Nat
  committedRevocations : String → Bool
  released : Nat → Bool
  completed : Nat → Bool
  accepted : String → List Nat
  started : String → List Nat

def OperationRegistry.empty : OperationRegistry where
  tails _ := none
  revocations _ := none
  committedRevocations _ := false
  released _ := false
  completed _ := false
  accepted _ := []
  started _ := []

def operationKey (network accountUuid : String) : String := network ++ ":" ++ accountUuid

def OperationRegistry.isRevoked (s : OperationRegistry) (key : String) : Bool :=
  (s.revocations key).isSome

def OperationRegistry.accept (s : OperationRegistry) (i : Nat) (key : String) :
    OperationRegistry :=
  { s with
    tails := Function.update s.tails key (some i)
    accepted := Function.update s.accepted key (i :: s.accepted key) }

def OperationRegistry.begin (s : OperationRegistry) (i : Nat) (key : String) : OperationRegistry :=
  { s with started := Function.update s.started key (i :: s.started key) }

/-- The end of a call, whether its operation returned, threw or was never started. -/
def OperationRegistry.release (s : OperationRegistry) (i : Nat) (key : String) :
    OperationRegistry :=
  { s with
    released := Function.update s.released i true
    tails := if s.tails key = some i then Function.update s.tails key none else s.tails }

def OperationRegistry.complete (s : OperationRegistry) (i : Nat) : OperationRegistry :=
  { s with completed := Function.update s.completed i true }

def OperationRegistry.revoke (s : OperationRegistry) (i : Nat) (key : String) :
    OperationRegistry :=
  { s with revocations := Function.update s.revocations key (some i) }

def OperationRegistry.rollbackRevocation (s : OperationRegistry) (key : String) (token : Nat) :
    OperationRegistry :=
  if s.revocations key = some token then
    { s with
      revocations := Function.update s.revocations key none
      committedRevocations := Function.update s.committedRevocations key false }
  else s

def OperationRegistry.commitRevocation (s : OperationRegistry) (key : String) (token : Nat) :
    OperationRegistry :=
  if s.revocations key = some token then
    { s with committedRevocations := Function.update s.committedRevocations key true }
  else s

inductive OperationOutcome
  | returned
  | threw
  | revoked
  deriving DecidableEq

/-- An accepted call, with the tail it waits for and the calls of its key that are ahead of it. -/
structure OperationCall where
  key : String
  previous : Option Nat
  ahead : List Nat
  deriving DecidableEq

/-- A handle is finished unless it is open. -/
inductive RevocationStatus
  | open
  | committed
  | rolledBack
  deriving DecidableEq

inductive RegistryThread
  | run (network accountUuid : String)
  | queued (call : OperationCall)
  | executing (call : OperationCall)
  | finished (call : OperationCall) (outcome : OperationOutcome)
  | ended (call : OperationCall) (outcome : OperationOutcome)
  | rejected (key : String)
  | revokeAndWait (network accountUuid : String)
  | draining (key : String) (token : Nat) (committed : Bool) (tail : Option Nat)
  | revocation (key : String) (token : Nat) (status : RevocationStatus)
  | alreadyStopping (key : String)
  deriving DecidableEq

/-- What an executing operation does, and what is done with a handle. -/
inductive RegistryChoice
  | proceed
  | throws
  | commit
  | rollback
  deriving DecidableEq

def RegistryThread.advance (i : Nat) (choice : RegistryChoice) (s : OperationRegistry) :
    RegistryThread → Option (OperationRegistry × RegistryThread)
  | .run network accountUuid =>
    let key := operationKey network accountUuid
    if s.isRevoked key then some (s,.rejected key)
    else some (s.accept i key,.queued ⟨key,s.tails key,s.accepted key⟩)
  | .queued call =>
    if call.previous.all s.completed then
      if s.isRevoked call.key then some (s.release i call.key,.finished call .revoked)
      else some (s.begin i call.key,.executing call)
    else none
  | .executing call =>
    if choice = .throws then some (s.release i call.key,.finished call .threw)
    else some (s.release i call.key,.finished call .returned)
  | .finished call outcome =>
    if call.previous.all s.completed then some (s.complete i,.ended call outcome) else none
  | .revokeAndWait network accountUuid =>
    let key := operationKey network accountUuid
    match s.revocations key with
    | some token =>
      if s.committedRevocations key then some (s,.draining key token true (s.tails key))
      else some (s,.alreadyStopping key)
    | none => some (s.revoke i key,.draining key i false (s.tails key))
  | .draining key token committed tail =>
    if tail.all s.completed then
      some (s,.revocation key token (if committed then .committed else .open))
    else none
  | .revocation key token .open =>
    if choice = .commit then some (s.commitRevocation key token,.revocation key token .committed)
    else if choice = .rollback then
      some (s.rollbackRevocation key token,.revocation key token .rolledBack)
    else none
  | .revocation key token status => some (s,.revocation key token status)
  | _ => none

/-- A call of `run` or `revokeAndWait` for an account. -/
def RegistryThread.initial : RegistryThread → Bool
  | .run _ _ | .revokeAndWait _ _ => true
  | _ => false

def registryThreads : Threads OperationRegistry RegistryThread RegistryChoice where
  initial := RegistryThread.initial
  advance := RegistryThread.advance

abbrev Registry := ThreadPool OperationRegistry RegistryThread

end CoppiceWallet.Migration
