import Mathlib.Data.List.Nodup
import Mathlib.Logic.Function.Basic

/-!
# Bounded caches of keys

Two caches that drop the oldest key when they are full: a set of keys, and a map from keys to the
instants at which they expire.
-/

namespace CoppiceWallet.Lib

variable {α η : Type}

/-- Drops the oldest keys while there are more than `maxLen`. -/
def evict (remove : α → η → η) (maxLen : Nat) : List α → η → List α × η
  | [], entries => ([],entries)
  | oldest :: order, entries =>
    if maxLen < order.length + 1 then evict remove maxLen order (remove oldest entries)
    else (oldest :: order,entries)

theorem evict_of_le {remove : α → η → η} {maxLen : Nat} {order : List α} {entries : η}
    (h : order.length ≤ maxLen) : evict remove maxLen order entries = (order,entries) := by
  cases order with
  | nil => rfl
  | cons oldest order =>
    have hlen : ¬ maxLen < order.length + 1 := by simpa using h
    simp [evict,hlen]

theorem evict_invariant {remove : α → η → η} {P : η → Prop}
    (hremove : ∀ a entries, P entries → P (remove a entries)) {maxLen : Nat} {order : List α}
    {entries : η} (h : P entries) : P (evict remove maxLen order entries).2 := by
  induction order generalizing entries with
  | nil => exact h
  | cons oldest order ih =>
    by_cases hlen : maxLen < order.length + 1
    · simp only [evict,hlen,if_true]
      exact ih (hremove oldest entries h)
    · simp only [evict,hlen,if_false]
      exact h

structure SeenCache (α : Type) where
  maxLen : Nat
  order : List α
  entries : List α
  deriving DecidableEq

namespace SeenCache

variable [DecidableEq α]

def new (maxLen : Nat) : SeenCache α := ⟨maxLen,[],[]⟩

def contains (cache : SeenCache α) (key : α) : Bool := decide (key ∈ cache.entries)

def insert (cache : SeenCache α) (key : α) : SeenCache α :=
  if cache.maxLen = 0 ∨ key ∈ cache.entries then cache
  else
    let kept := evict (fun oldest entries => entries.erase oldest) cache.maxLen
      (cache.order ++ [key]) (key :: cache.entries)
    { cache with order := kept.1, entries := kept.2 }

@[simp] theorem insert_maxLen (cache : SeenCache α) (key : α) :
    (cache.insert key).maxLen = cache.maxLen := by
  unfold insert
  split <;> rfl

/-- The cache has exactly these keys, from the oldest to the newest. -/
structure Holds (cache : SeenCache α) (keys : List α) : Prop where
  order : cache.order = keys
  entries : ∀ key, key ∈ cache.entries ↔ key ∈ keys

omit [DecidableEq α] in
theorem holds_new (maxLen : Nat) : (new maxLen : SeenCache α).Holds [] :=
  ⟨rfl,by simp [new]⟩

theorem Holds.contains_iff {cache : SeenCache α} {keys : List α} (h : cache.Holds keys) (key : α) :
    cache.contains key = true ↔ key ∈ keys := by
  simp [contains,h.entries]

theorem Holds.insert {cache : SeenCache α} {keys : List α} (h : cache.Holds keys) {key : α}
    (hnew : key ∉ keys) (hroom : keys.length < cache.maxLen) :
    (cache.insert key).Holds (keys ++ [key]) := by
  have hzero : ¬ (cache.maxLen = 0 ∨ key ∈ cache.entries) := by
    simp only [h.entries,hnew,or_false]
    omega
  have hkept : evict (fun oldest entries => entries.erase oldest) cache.maxLen
      (cache.order ++ [key]) (key :: cache.entries) = (keys ++ [key],key :: cache.entries) := by
    rw [h.order]
    apply evict_of_le
    simp
    omega
  have hinsert : cache.insert key =
      { cache with order := keys ++ [key], entries := key :: cache.entries } := by
    simp only [SeenCache.insert,hzero,if_false,hkept]
  rw [hinsert]
  constructor
  · rfl
  · intro other
    simp [h.entries,or_comm]

end SeenCache

structure TtlCache (α : Type) where
  maxLen : Nat
  ttl : Nat
  order : List α
  entries : α → Option Nat

namespace TtlCache

variable [DecidableEq α]

def new (maxLen ttl : Nat) : TtlCache α := ⟨maxLen,ttl,[],fun _ => none⟩

def remove (key : α) (entries : α → Option Nat) : α → Option Nat := Function.update entries key none

def isExpired (entries : α → Option Nat) (now : Nat) (key : α) : Bool :=
  match entries key with
  | some expiresAt => decide (expiresAt ≤ now)
  | none => true

def pruneFront (now : Nat) : List α → (α → Option Nat) → List α × (α → Option Nat)
  | [], entries => ([],entries)
  | oldest :: order, entries =>
    if isExpired entries now oldest then pruneFront now order (remove oldest entries)
    else (oldest :: order,entries)

def pruneExpired (cache : TtlCache α) (now : Nat) : TtlCache α :=
  let kept := pruneFront now cache.order cache.entries
  { cache with order := kept.1, entries := kept.2 }

def containsUnexpired (cache : TtlCache α) (key : α) (now : Nat) : Bool × TtlCache α :=
  let cache := cache.pruneExpired now
  match cache.entries key with
  | some expiresAt =>
    if now < expiresAt then (true,cache)
    else (false,{ cache with entries := remove key cache.entries })
  | none => (false,cache)

def insert (cache : TtlCache α) (key : α) (now : Nat) : TtlCache α :=
  if cache.maxLen = 0 then cache
  else
    let cache := cache.pruneExpired now
    let order := if cache.entries key = none then cache.order ++ [key] else cache.order
    let kept := evict remove cache.maxLen order
      (Function.update cache.entries key (some (now + cache.ttl)))
    { cache with order := kept.1, entries := kept.2 }

/-- Every key in the cache was put there with its instant, as `P` says. -/
def Sound (entries : α → Option Nat) (P : α → Nat → Prop) : Prop :=
  ∀ key expiresAt, entries key = some expiresAt → P key expiresAt

variable {P : α → Nat → Prop}

omit [DecidableEq α] in
theorem sound_new (maxLen ttl : Nat) : Sound (new maxLen ttl : TtlCache α).entries P := by
  intro key expiresAt h
  cases h

theorem Sound.remove {entries : α → Option Nat} (h : Sound entries P) (key : α) :
    Sound (remove key entries) P := by
  intro other expiresAt hother
  by_cases heq : other = key
  · simp [TtlCache.remove,heq] at hother
  · apply h
    simpa [TtlCache.remove,Function.update,heq] using hother

theorem Sound.put {entries : α → Option Nat} (h : Sound entries P) {key : α} {expiresAt : Nat}
    (hput : P key expiresAt) : Sound (Function.update entries key (some expiresAt)) P := by
  intro other at' hother
  by_cases heq : other = key
  · subst heq
    have hat : expiresAt = at' := by simpa using hother
    exact hat ▸ hput
  · apply h
    simpa [Function.update,heq] using hother

theorem Sound.pruneFront {now : Nat} {order : List α} {entries : α → Option Nat}
    (h : Sound entries P) : Sound (pruneFront now order entries).2 P := by
  induction order generalizing entries with
  | nil => exact h
  | cons oldest order ih =>
    by_cases hexpired : isExpired entries now oldest = true
    · simp only [TtlCache.pruneFront,hexpired,if_true]
      exact ih (h.remove oldest)
    · simp only [TtlCache.pruneFront,hexpired]
      exact h

theorem Sound.containsUnexpired {cache : TtlCache α} (h : Sound cache.entries P) (key : α)
    (now : Nat) : Sound (cache.containsUnexpired key now).2.entries P := by
  have hpruned : Sound (cache.pruneExpired now).entries P := h.pruneFront
  unfold TtlCache.containsUnexpired
  dsimp only
  split
  · split
    · exact hpruned
    · exact hpruned.remove key
  · exact hpruned

theorem Sound.found {cache : TtlCache α} (h : Sound cache.entries P) {key : α} {now : Nat}
    (hfound : (cache.containsUnexpired key now).1 = true) : ∃ expiresAt, now < expiresAt ∧
      P key expiresAt := by
  have hpruned : Sound (cache.pruneExpired now).entries P := h.pruneFront
  unfold TtlCache.containsUnexpired at hfound
  dsimp only at hfound
  split at hfound
  · rename_i expiresAt hentry
    split at hfound
    · rename_i hnow
      exact ⟨expiresAt,hnow,hpruned key expiresAt hentry⟩
    · cases hfound
  · cases hfound

theorem Sound.insert {cache : TtlCache α} (h : Sound cache.entries P) {key : α} {now : Nat}
    (hput : P key (now + cache.ttl)) : Sound (cache.insert key now).entries P := by
  have hpruned : Sound (cache.pruneExpired now).entries P := h.pruneFront
  unfold TtlCache.insert
  split
  · exact h
  · exact evict_invariant (P := fun entries => Sound entries P) (fun a _ hs => hs.remove a)
      (hpruned.put hput)

theorem containsUnexpired_ttl (cache : TtlCache α) (key : α) (now : Nat) :
    (cache.containsUnexpired key now).2.ttl = cache.ttl := by
  unfold containsUnexpired
  dsimp only
  split
  · split <;> rfl
  · rfl

theorem insert_ttl (cache : TtlCache α) (key : α) (now : Nat) :
    (cache.insert key now).ttl = cache.ttl := by
  unfold insert
  split <;> rfl

end TtlCache

end CoppiceWallet.Lib
