import Mathlib.Data.List.Induction
import Mathlib.Data.List.Nodup
import Mathlib.Logic.Function.Basic

/-!
# Lists grouped by a key

A hash map from keys to lists is filled by pushing one element after the other. For each key it then
holds the elements with this key in their order; only the order of the keys is open.
-/

namespace CoppiceWallet.Lib

variable {β κ α : Type} [DecidableEq κ]

/-- The keys in use, and the list of each. -/
structure Groups (κ α : Type) where
  keys : List κ
  get : κ → List α

namespace Groups

def empty : Groups κ α := ⟨[],fun _ => []⟩

/-- `entry(key).or_default().push(x)` -/
def push (groups : Groups κ α) (key : κ) (x : α) : Groups κ α where
  keys := if key ∈ groups.keys then groups.keys else groups.keys ++ [key]
  get := Function.update groups.get key (groups.get key ++ [x])

def lookup (groups : Groups κ α) (key : κ) : Option (List α) :=
  if key ∈ groups.keys then some (groups.get key) else none

def remove (groups : Groups κ α) (key : κ) : Groups κ α :=
  ⟨groups.keys.filter fun k => decide (k ≠ key),groups.get⟩

/-- Push the elements of a list that have a key. -/
def collect (f : β → Option (κ × α)) (items : List β) : Groups κ α :=
  items.foldl (fun groups item =>
    match f item with
    | some (key,x) => groups.push key x
    | none => groups) empty

end Groups

/-- The element has this key. -/
def withKey (f : β → Option (κ × α)) (key : κ) (item : β) : Option α :=
  match f item with
  | some (k,x) => if k = key then some x else none
  | none => none

variable {f : β → Option (κ × α)} {items : List β} {key : κ} {x : α}

theorem withKey_eq_some {item : β} : withKey f key item = some x ↔ f item = some (key,x) := by
  unfold withKey
  cases hf : f item with
  | none => simp
  | some p =>
    by_cases hkey : p.1 = key
    · simp [hkey,Prod.ext_iff]
    · simp [hkey,Prod.ext_iff]

namespace Groups

theorem lookup_remove_of_ne (groups : Groups κ α) {k key : κ} (h : k ≠ key) :
    (groups.remove key).lookup k = groups.lookup k := by
  simp [lookup,remove,h]

theorem collect_append (f : β → Option (κ × α)) (items : List β) (item : β) :
    collect f (items ++ [item]) =
      match f item with
      | some (key,x) => (collect f items).push key x
      | none => collect f items := by
  simp [collect,List.foldl_append]

theorem get_collect (f : β → Option (κ × α)) (items : List β) (key : κ) :
    (collect f items).get key = items.filterMap (withKey f key) := by
  induction items using List.reverseRecOn with
  | nil => rfl
  | append_singleton items item ih =>
    rw [collect_append,List.filterMap_append,← ih]
    cases hf : f item with
    | none => simp [withKey,hf]
    | some p =>
      by_cases hkey : p.1 = key
      · simp [withKey,hf,push,hkey]
      · simp [withKey,hf,push,hkey,Function.update_of_ne (Ne.symm hkey)]

theorem mem_keys_collect (f : β → Option (κ × α)) (items : List β) (key : κ) :
    key ∈ (collect f items).keys ↔ items.filterMap (withKey f key) ≠ [] := by
  induction items using List.reverseRecOn with
  | nil => simp [collect,empty]
  | append_singleton items item ih =>
    rw [collect_append,List.filterMap_append]
    cases hf : f item with
    | none => simp [withKey,hf,ih]
    | some p =>
      by_cases hkey : p.1 = key
      · simp [withKey,hf,push,hkey]
        split <;> simp_all
      · have hmem : key ∈ ((collect f items).push p.1 p.2).keys ↔ key ∈ (collect f items).keys := by
          simp only [push]
          split
          · rfl
          · simp [Ne.symm hkey]
        simp [withKey,hf,hkey,hmem,ih]

theorem keys_collect_nodup (f : β → Option (κ × α)) (items : List β) :
    (collect f items).keys.Nodup := by
  induction items using List.reverseRecOn with
  | nil => exact List.nodup_nil
  | append_singleton items item ih =>
    rw [collect_append]
    cases f item with
    | none => exact ih
    | some p =>
      simp only [push]
      split
      · exact ih
      · rename_i hnew
        refine List.nodup_append.mpr ⟨ih,List.nodup_singleton _,?_⟩
        intro k hk j hj heq
        obtain rfl := List.mem_singleton.mp hj
        exact hnew (heq ▸ hk)

theorem lookup_collect (f : β → Option (κ × α)) (items : List β) (key : κ) :
    (collect f items).lookup key =
      if items.filterMap (withKey f key) = [] then none
      else some (items.filterMap (withKey f key)) := by
  rw [lookup,get_collect]
  by_cases hnil : items.filterMap (withKey f key) = []
  · rw [if_pos hnil,if_neg fun hmem => (mem_keys_collect f items key).mp hmem hnil]
  · rw [if_neg hnil,if_pos ((mem_keys_collect f items key).mpr hnil)]

end Groups

end CoppiceWallet.Lib
