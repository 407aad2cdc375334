import Mathlib.Data.List.Basic

/-!
# Permit pools

A release hands its permit to the first of the waiters, which holds it before it resumes. Permits
are free, given or held, and none is free while someone waits.
-/

namespace CoppiceWallet.Lib

/-- The free permits, those who wait, and those who were given a permit and have not resumed. -/
structure PermitPool (κ : Type) where
  availablePermits : Nat
  waiters : List κ
  granted : List κ

namespace PermitPool

variable {κ : Type} {pool : PermitPool κ} {k : κ}

def ofPermits (permits : Nat) : PermitPool κ := ⟨permits,[],[]⟩

def acquire (pool : PermitPool κ) (k : κ) : PermitPool κ :=
  if 0 < pool.availablePermits then
    { pool with availablePermits := pool.availablePermits - 1, granted := k :: pool.granted }
  else { pool with waiters := pool.waiters ++ [k] }

/-- Resumes a holder, where it was given a permit. -/
def resume [DecidableEq κ] (pool : PermitPool κ) (k : κ) : Option (PermitPool κ) :=
  if k ∈ pool.granted then some { pool with granted := pool.granted.erase k } else none

def release (pool : PermitPool κ) : PermitPool κ :=
  match pool.waiters with
  | [] => { pool with availablePermits := pool.availablePermits + 1 }
  | k :: waiters => { pool with waiters, granted := k :: pool.granted }

/-- Every permit is free, given, or with one of the holders, and those who wait are queued once. -/
structure Accounts (pool : PermitPool κ) (permits : Nat) (holders : List κ) (waits : κ → Prop) :
    Prop where
  count : pool.availablePermits + pool.granted.length + holders.length = permits
  busy : pool.waiters ≠ [] → pool.availablePermits = 0
  nodup : (pool.waiters ++ pool.granted).Nodup
  waits : ∀ k, k ∈ pool.waiters ++ pool.granted ↔ waits k

variable {permits : Nat} {holders : List κ} {waits waits' : κ → Prop}

theorem accounts_ofPermits (hwaits : ∀ k, ¬ waits k) :
    (ofPermits permits).Accounts permits [] waits where
  count := by simp [ofPermits]
  busy h := absurd rfl h
  nodup := .nil
  waits k := by simp [ofPermits,hwaits]

theorem Accounts.congr (h : pool.Accounts permits holders waits) (hwaits : ∀ k, waits k ↔ waits' k) :
    pool.Accounts permits holders waits' :=
  ⟨h.count,h.busy,h.nodup,fun k => (h.waits k).trans (hwaits k)⟩

theorem Accounts.acquire (h : pool.Accounts permits holders waits) (hk : ¬ waits k)
    (hwaits : ∀ j, waits' j ↔ waits j ∨ j = k) :
    (pool.acquire k).Accounts permits holders waits' := by
  have hcount := h.count
  have hnot : k ∉ pool.waiters ++ pool.granted := fun hmem => hk ((h.waits k).mp hmem)
  have hnodup := h.nodup
  rw [List.mem_append,not_or] at hnot
  rw [PermitPool.acquire]
  split
  · rename_i hfree
    have hempty : pool.waiters = [] := by
      by_contra hne
      have hbusy := h.busy hne
      omega
    refine ⟨?_,fun hne => absurd hempty hne,?_,?_⟩
    · simp only [List.length_cons]
      omega
    · rw [hempty,List.nil_append] at hnodup
      simpa [hempty] using ⟨hnot.2,hnodup⟩
    · intro j
      rw [hwaits,← h.waits]
      simp [hempty,or_comm]
  · rename_i hnone
    refine ⟨hcount,fun _ => by dsimp only; omega,?_,?_⟩
    · have hperm : (pool.waiters ++ [k] ++ pool.granted).Perm (k :: (pool.waiters ++ pool.granted)) := by
        rw [List.append_assoc]
        exact List.perm_middle
      rw [hperm.nodup_iff]
      exact List.nodup_cons.mpr ⟨by simp [hnot],hnodup⟩
    · intro j
      rw [hwaits,← h.waits]
      simp only [List.mem_append,List.mem_singleton]
      tauto

theorem Accounts.resume [DecidableEq κ] {pool' : PermitPool κ}
    (h : pool.Accounts permits holders waits) (hresume : pool.resume k = some pool')
    (hwaits : ∀ j, waits' j ↔ waits j ∧ j ≠ k) :
    pool'.Accounts permits (k :: holders) waits' := by
  rw [PermitPool.resume] at hresume
  split at hresume
  · rename_i hgranted
    cases hresume
    have hcount := h.count
    have hnodup := List.nodup_append.mp h.nodup
    have hlength : 0 < pool.granted.length := List.length_pos_of_mem hgranted
    have herase : (pool.granted.erase k).length = pool.granted.length - 1 :=
      List.length_erase_of_mem hgranted
    have hnot : k ∉ pool.waiters := fun hmem => hnodup.2.2 k hmem k hgranted rfl
    refine ⟨?_,h.busy,?_,?_⟩
    · simp only [List.length_cons]
      omega
    · have hperm : (pool.waiters ++ pool.granted.erase k).Sublist (pool.waiters ++ pool.granted) :=
        List.Sublist.append_left List.erase_sublist _
      exact h.nodup.sublist hperm
    · intro j
      rw [hwaits,← h.waits]
      simp only [List.mem_append,hnodup.2.1.mem_erase_iff]
      constructor
      · intro hmem
        rcases hmem with hmem | hmem
        · exact ⟨.inl hmem,fun heq => hnot (heq ▸ hmem)⟩
        · exact ⟨.inr hmem.2,hmem.1⟩
      · intro hmem
        rcases hmem.1 with hwaiter | hgranted
        · exact .inl hwaiter
        · exact .inr ⟨hmem.2,hgranted⟩
  · cases hresume

theorem Accounts.release {holders' : List κ} (h : pool.Accounts permits holders waits)
    (hperm : holders.Perm (k :: holders')) : pool.release.Accounts permits holders' waits := by
  have hcount := h.count
  have hlength := hperm.length_eq
  rw [List.length_cons] at hlength
  rw [PermitPool.release]
  split
  · rename_i hempty
    refine ⟨?_,fun hne => absurd hempty hne,h.nodup,h.waits⟩
    dsimp only
    omega
  · rename_i first waiters hwaiters
    have hbusy := h.busy (by rw [hwaiters]; exact List.cons_ne_nil _ _)
    have hmoved : (pool.waiters ++ pool.granted).Perm (waiters ++ first :: pool.granted) := by
      rw [hwaiters]
      exact List.perm_middle.symm
    refine ⟨?_,fun _ => hbusy,hmoved.nodup_iff.mp h.nodup,?_⟩
    · simp only [List.length_cons]
      omega
    · intro j
      rw [← h.waits,hmoved.mem_iff]

theorem Accounts.progress (h : pool.Accounts permits holders waits) (hpermits : 0 < permits)
    (hk : waits k) : pool.granted ≠ [] ∨ holders ≠ [] := by
  have hcount := h.count
  by_cases hgranted : pool.granted = []
  · right
    have hmem := (h.waits k).mpr hk
    rw [hgranted,List.append_nil] at hmem
    have hbusy := h.busy (List.ne_nil_of_mem hmem)
    rw [hgranted,hbusy,List.length_nil] at hcount
    intro hnone
    rw [hnone,List.length_nil] at hcount
    omega
  · exact .inl hgranted

end PermitPool

end CoppiceWallet.Lib
