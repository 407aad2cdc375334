import Mathlib.Data.List.Nodup
import Mathlib.Data.List.Sort
import CoppiceWallet.Lib.Lists
import CoppiceWallet.Lib.Result

/-!
# Tables with a primary key

A table is a list of rows whose keys are distinct. An update cannot change a key, so distinctness
is kept by construction; only an insertion can violate it, and then it is refused.
-/

namespace CoppiceWallet.Lib

theorem find?_filterMap_key {α β κ : Type} [DecidableEq κ] {key : α → κ} {g : α → Option β}
    {xs : List α} (h : (xs.map key).Nodup) {x : α} (hx : x ∈ xs) :
    (xs.filterMap fun y => (g y).map fun b => (key y, b)).find? (fun p => decide (p.1 = key x)) =
      (g x).map fun b => (key x, b) := by
  induction xs with
  | nil => cases hx
  | cons y xs ih =>
    rw [List.map_cons,List.nodup_cons] at h
    rcases List.mem_cons.mp hx with rfl | hx
    · cases hg : g x with
      | some b => simp [hg]
      | none =>
        simp only [List.filterMap_cons,hg,Option.map_none,List.find?_eq_none,List.mem_filterMap,
          Option.map_eq_some_iff,decide_eq_true_eq]
        rintro _ ⟨y,hy,b,_,rfl⟩ hkey
        exact h.1 (hkey ▸ List.mem_map_of_mem hy)
    · have hne : key y ≠ key x := fun hkey => h.1 (hkey ▸ List.mem_map_of_mem hx)
      cases hg : g y with
      | none => simpa [hg] using ih h.2 hx
      | some b => simpa [hg,hne] using ih h.2 hx

structure Table (ρ κ : Type) (key : ρ → κ) where
  rows : List ρ
  keys_nodup : (rows.map key).Nodup

namespace Table

variable {ρ κ : Type} {key : ρ → κ}

def empty : Table ρ κ key := ⟨[],.nil⟩

def find? (t : Table ρ κ key) (p : ρ → Bool) : Option ρ := t.rows.find? p

def select (t : Table ρ κ key) (p : ρ → Bool) : List ρ := t.rows.filter p

def count (t : Table ρ κ key) (p : ρ → Bool) : Nat := t.rows.countP p

def length (t : Table ρ κ key) : Nat := t.rows.length

/-- Apply `f` to the rows that satisfy `p`. -/
def update (t : Table ρ κ key) (p : ρ → Bool) (f : ρ → ρ) (hf : ∀ r, key (f r) = key r) :
    Table ρ κ key where
  rows := t.rows.map fun r => if p r then f r else r
  keys_nodup := by
    have hkeys : (t.rows.map fun r => if p r then f r else r).map key = t.rows.map key := by
      rw [List.map_map]
      refine List.map_congr_left fun r _ => ?_
      simp only [Function.comp_apply]
      split
      · exact hf r
      · rfl
    rw [hkeys]
    exact t.keys_nodup

def delete (t : Table ρ κ key) (p : ρ → Bool) : Table ρ κ key where
  rows := t.rows.filter fun r => !p r
  keys_nodup := t.keys_nodup.sublist (List.filter_sublist.map key)

/-- Append a row, or refuse it when its key is taken. -/
def insert [DecidableEq κ] (t : Table ρ κ key) (r : ρ) : Option (Table ρ κ key) :=
  if h : key r ∈ t.rows.map key then none
  else some ⟨t.rows ++ [r],by
    rw [List.map_append,List.map_singleton]
    exact t.keys_nodup.append (List.nodup_singleton _) (by simpa using h)⟩

/-- Append a row in place of the one with its key. -/
def replace [DecidableEq κ] (t : Table ρ κ key) (r : ρ) : Table ρ κ key where
  rows := t.rows.filter (fun s => !decide (key s = key r)) ++ [r]
  keys_nodup := by
    rw [List.map_append,List.map_singleton]
    refine (t.delete fun s => decide (key s = key r)).keys_nodup.append (List.nodup_singleton _) ?_
    intro k hk hr
    rw [List.mem_singleton] at hr
    obtain ⟨s,hs,rfl⟩ := List.mem_map.mp hk
    simpa [hr] using (List.mem_filter.mp hs).2

/-- Put a row in the place of the one with its key. -/
def overwrite [DecidableEq κ] (t : Table ρ κ key) (r : ρ) : Table ρ κ key where
  rows := t.rows.map fun s => if key s = key r then r else s
  keys_nodup := by
    have hkeys : (t.rows.map fun s => if key s = key r then r else s).map key = t.rows.map key := by
      rw [List.map_map]
      refine List.map_congr_left fun s _ => ?_
      simp only [Function.comp_apply]
      split
      · exact Eq.symm ‹_›
      · rfl
    rw [hkeys]
    exact t.keys_nodup

/-- Rewrite every row with a function that may fail. -/
def rewrite {ε : Type} (t : Table ρ κ key) (f : ρ → Except ε ρ)
    (hf : ∀ r s, f r = .ok s → key s = key r) : Except ε (Table ρ κ key) :=
  match h : t.rows.mapM f with
  | .error e => .error e
  | .ok rows => .ok ⟨rows,by
    rw [forall₂_map_eq (mapM_ok h) fun r s => hf r s]
    exact t.keys_nodup⟩

/-- Rewrite every row, with a result beside each. -/
def traverse {ε β : Type} (t : Table ρ κ key) (f : ρ → Except ε (ρ × β))
    (hf : ∀ r s, f r = .ok s → key s.1 = key r) : Except ε (Table ρ κ key × List β) :=
  match h : t.rows.mapM f with
  | .error e => .error e
  | .ok results => .ok (⟨results.map Prod.fst,by
      have hkeys : results.map (key ∘ Prod.fst) = t.rows.map key :=
        forall₂_map_eq (mapM_ok h) fun r s hs => hf r s hs
      rw [List.map_map,hkeys]
      exact t.keys_nodup⟩,results.map Prod.snd)

def get [DecidableEq κ] (t : Table ρ κ key) (k : κ) : Option ρ :=
  t.find? fun r => decide (key r = k)

@[ext] theorem ext {t t' : Table ρ κ key} (h : t.rows = t'.rows) : t = t' := by
  cases t
  cases t'
  cases h
  rfl

theorem eq_of_key {t : Table ρ κ key} {r s : ρ} (hr : r ∈ t.rows) (hs : s ∈ t.rows)
    (h : key r = key s) : r = s :=
  List.inj_on_of_nodup_map t.keys_nodup hr hs h

theorem mem_update {t : Table ρ κ key} {p : ρ → Bool} {f : ρ → ρ} {hf : ∀ r, key (f r) = key r}
    {r : ρ} : r ∈ (t.update p f hf).rows ↔ ∃ s ∈ t.rows, (if p s then f s else s) = r :=
  List.mem_map

theorem mem_delete {t : Table ρ κ key} {p : ρ → Bool} {r : ρ} :
    r ∈ (t.delete p).rows ↔ r ∈ t.rows ∧ p r = false := by
  simp [delete,List.mem_filter]

theorem insert_eq_some [DecidableEq κ] {t t' : Table ρ κ key} {r : ρ} (h : t.insert r = some t') :
    t'.rows = t.rows ++ [r] ∧ key r ∉ t.rows.map key := by
  unfold insert at h
  split at h
  · cases h
  · cases h
    exact ⟨rfl,‹_›⟩

theorem insert_fresh [DecidableEq κ] {t : Table ρ κ key} {r : ρ} (h : key r ∉ t.rows.map key) :
    ∃ t', t.insert r = some t' ∧ t'.rows = t.rows ++ [r] := by
  unfold insert
  rw [dif_neg h]
  exact ⟨_,rfl,rfl⟩

theorem mem_replace [DecidableEq κ] {t : Table ρ κ key} {r s : ρ} :
    s ∈ (t.replace r).rows ↔ (s ∈ t.rows ∧ key s ≠ key r) ∨ s = r := by
  simp [replace,List.mem_filter]

theorem find?_eq_some {t : Table ρ κ key} {p : ρ → Bool} {r : ρ} (h : t.find? p = some r) :
    r ∈ t.rows ∧ p r = true :=
  ⟨List.mem_of_find?_eq_some h,List.find?_some h⟩

theorem find?_key [DecidableEq κ] {t : Table ρ κ key} {r : ρ} (hr : r ∈ t.rows) :
    t.find? (fun s => decide (key s = key r)) = some r := by
  cases h : t.find? (fun s => decide (key s = key r)) with
  | none =>
    have hnone := List.find?_eq_none.mp h r hr
    simp at hnone
  | some s =>
    obtain ⟨hs,hkey⟩ := find?_eq_some h
    rw [t.eq_of_key hs hr (of_decide_eq_true hkey)]

theorem update_congr {t : Table ρ κ key} {p : ρ → Bool} {f : ρ → ρ}
    {hf : ∀ r, key (f r) = key r} (h : ∀ r ∈ t.rows, p r = true → f r = r) :
    t.update p f hf = t := by
  refine ext ?_
  have hid : t.rows.map (fun r => if p r then f r else r) = t.rows.map id := by
    refine List.map_congr_left fun r hr => ?_
    split
    · exact h r hr ‹_›
    · rfl
  rw [List.map_id] at hid
  exact hid

theorem find?_update {t : Table ρ κ key} {p q : ρ → Bool} {f : ρ → ρ}
    (hf : ∀ r, key (f r) = key r) (hq : ∀ r, q (f r) = q r) :
    (t.update p f hf).find? q = (t.find? q).map fun r => if p r then f r else r := by
  have hsame : (q ∘ fun r => if p r then f r else r) = q := by
    funext r
    simp only [Function.comp_apply]
    split
    · exact hq r
    · rfl
  rw [find?,find?,update,List.find?_map,hsame]

theorem get_eq_some [DecidableEq κ] {t : Table ρ κ key} {k : κ} {r : ρ} :
    t.get k = some r ↔ r ∈ t.rows ∧ key r = k := by
  constructor
  · intro h
    exact (find?_eq_some h).imp_right of_decide_eq_true
  · rintro ⟨hr,rfl⟩
    exact find?_key hr

theorem get_eq_none [DecidableEq κ] {t : Table ρ κ key} {k : κ} :
    t.get k = none ↔ ∀ r ∈ t.rows, key r ≠ k := by
  simp [get,find?]

theorem mem_overwrite [DecidableEq κ] {t : Table ρ κ key} {r s : ρ} :
    s ∈ (t.overwrite r).rows ↔
      s ∈ t.rows ∧ key s ≠ key r ∨ s = r ∧ ∃ x ∈ t.rows, key x = key r := by
  rw [overwrite,List.mem_map]
  constructor
  · rintro ⟨x,hx,rfl⟩
    by_cases h : key x = key r
    · rw [if_pos h]
      exact .inr ⟨rfl,x,hx,h⟩
    · rw [if_neg h]
      exact .inl ⟨hx,h⟩
  · rintro (⟨hs,h⟩ | ⟨rfl,x,hx,h⟩)
    · exact ⟨s,hs,if_neg h⟩
    · exact ⟨x,hx,if_pos h⟩

theorem get_overwrite [DecidableEq κ] (t : Table ρ κ key) (r : ρ) (k : κ) :
    (t.overwrite r).get k = if key r = k then (t.get k).map fun _ => r else t.get k := by
  by_cases hk : key r = k
  · rw [if_pos hk]
    cases h : t.get k with
    | none =>
      rw [get_eq_none] at h
      refine get_eq_none.mpr fun s hs => ?_
      rcases mem_overwrite.mp hs with ⟨hs,_⟩ | ⟨_,x,hx,hxr⟩
      · exact h s hs
      · exact absurd (hxr.trans hk) (h x hx)
    | some x =>
      obtain ⟨hx,hxk⟩ := get_eq_some.mp h
      exact get_eq_some.mpr ⟨mem_overwrite.mpr (.inr ⟨rfl,x,hx,hxk.trans hk.symm⟩),hk⟩
  · rw [if_neg hk]
    cases h : t.get k with
    | none =>
      rw [get_eq_none] at h
      refine get_eq_none.mpr fun s hs => ?_
      rcases mem_overwrite.mp hs with ⟨hs,_⟩ | ⟨rfl,_⟩
      · exact h s hs
      · exact hk
    | some x =>
      obtain ⟨hx,hxk⟩ := get_eq_some.mp h
      exact get_eq_some.mpr ⟨mem_overwrite.mpr (.inl ⟨hx,hxk ▸ Ne.symm hk⟩),hxk⟩

/-- Where a condition holds of at most one row, overwriting the row found is a change of it alone. -/
theorem rows_overwrite_find [DecidableEq κ] {t : Table ρ κ key} {p : ρ → Bool} {f : ρ → ρ} {r : ρ}
    (hf : ∀ r, key (f r) = key r)
    (hp : ∀ r ∈ t.rows, ∀ s ∈ t.rows, p r = true → p s = true → r = s) (h : t.find? p = some r) :
    (t.overwrite (f r)).rows = t.rows.map fun s => if p s then f s else s := by
  obtain ⟨hr,hpr⟩ := find?_eq_some h
  refine List.map_congr_left fun s hs => ?_
  by_cases hps : p s = true
  · rw [hp s hs r hr hps hpr,if_pos (hf r).symm,if_pos hpr]
  · have hne : key s ≠ key (f r) := fun hkey => hps (t.eq_of_key hs hr (hkey.trans (hf r)) ▸ hpr)
    rw [if_neg hne,if_neg hps]

theorem rows_map_find_none {t : Table ρ κ key} {p : ρ → Bool} {f : ρ → ρ} (h : t.find? p = none) :
    (t.rows.map fun s => if p s then f s else s) = t.rows := by
  refine (List.map_congr_left fun s hs => ?_).trans (List.map_id _)
  rw [if_neg (List.find?_eq_none.mp h s hs),id]

theorem get_insert [DecidableEq κ] {t t' : Table ρ κ key} {r : ρ} (h : t.insert r = some t')
    (k : κ) : t'.get k = if key r = k then some r else t.get k := by
  obtain ⟨hrows,hfresh⟩ := insert_eq_some h
  by_cases hk : key r = k
  · rw [if_pos hk]
    exact get_eq_some.mpr ⟨by simp [hrows],hk⟩
  · rw [if_neg hk,get,find?,hrows,List.find?_append]
    simp [hk,get,find?]

theorem get_delete [DecidableEq κ] (t : Table ρ κ key) (p : ρ → Bool) (k : κ) :
    (t.delete p).get k = (t.get k).filter fun r => !p r := by
  cases h : t.get k with
  | none =>
    rw [get_eq_none] at h
    exact get_eq_none.mpr fun s hs => h s (mem_delete.mp hs).1
  | some x =>
    obtain ⟨hx,hxk⟩ := get_eq_some.mp h
    cases hp : p x with
    | false =>
      rw [Option.filter_some_pos (by simp [hp])]
      exact get_eq_some.mpr ⟨mem_delete.mpr ⟨hx,hp⟩,hxk⟩
    | true =>
      rw [Option.filter_some_neg (by simp [hp])]
      refine get_eq_none.mpr fun s hs hsk => ?_
      obtain ⟨hs,hps⟩ := mem_delete.mp hs
      rw [t.eq_of_key hs hx (hsk.trans hxk.symm),hp] at hps
      cases hps

theorem rewrite_ok {ε : Type} {t t' : Table ρ κ key} {f : ρ → Except ε ρ}
    {hf : ∀ r s, f r = .ok s → key s = key r} (h : t.rewrite f hf = .ok t') :
    List.Forall₂ (fun r s => f r = .ok s) t.rows t'.rows := by
  unfold rewrite at h
  split at h
  · cases h
  · cases h
    exact mapM_ok ‹_›

theorem traverse_ok {ε β : Type} {t t' : Table ρ κ key} {f : ρ → Except ε (ρ × β)}
    {hf : ∀ r s, f r = .ok s → key s.1 = key r} {results : List β}
    (h : t.traverse f hf = .ok (t',results)) :
    List.Forall₂ (fun r s => ∃ b, f r = .ok (s,b)) t.rows t'.rows := by
  unfold traverse at h
  split at h
  · cases h
  · rename_i pairs hpairs
    cases h
    refine List.forall₂_map_right_iff.mpr ((mapM_ok hpairs).imp fun r s hs => ?_)
    exact ⟨s.2,hs⟩

theorem get_rewrite [DecidableEq κ] {ε : Type} {t t' : Table ρ κ key} {f : ρ → Except ε ρ}
    {hf : ∀ r s, f r = .ok s → key s = key r} (h : t.rewrite f hf = .ok t') {k : κ} {r : ρ}
    (hr : t.get k = some r) : ∃ s, f r = .ok s ∧ t'.get k = some s := by
  obtain ⟨hr,hk⟩ := get_eq_some.mp hr
  obtain ⟨s,hs,hrs⟩ := forall₂_mem_left (rewrite_ok h) hr
  exact ⟨s,hrs,get_eq_some.mpr ⟨hs,(hf r s hrs).trans hk⟩⟩

section
variable [DecidableEq κ] {ε β : Type} {f : Table ρ κ key → β → Except ε (Table ρ κ key)}
  {S : ρ → β → Prop}

theorem foldlM_insert_append
    (hf : ∀ r x, S r x → ∀ acc acc', acc.insert r = some acc' → f acc x = .ok acc')
    {t acc : Table ρ κ key} {rows : List ρ} {xs : List β} (h : List.Forall₂ S rows xs)
    (hrows : acc.rows ++ rows = t.rows) : xs.foldlM f acc = .ok t := by
  induction h generalizing acc with
  | nil =>
    rw [List.append_nil] at hrows
    rw [Table.ext hrows]
    rfl
  | @cons r x rows xs hrx _ ih =>
    have hfresh : key r ∉ acc.rows.map key := by
      have hnodup := t.keys_nodup
      rw [← hrows,List.map_append,List.map_cons] at hnodup
      intro hmem
      exact (List.nodup_append.mp hnodup).2.2 _ hmem _ List.mem_cons_self rfl
    obtain ⟨acc',hacc'⟩ : ∃ acc', acc.insert r = some acc' := ⟨_,dif_neg hfresh⟩
    rw [List.foldlM_cons,hf r x hrx acc acc' hacc']
    refine ih ?_
    rw [(insert_eq_some hacc').1,List.append_assoc]
    exact hrows

theorem foldlM_insert (t : Table ρ κ key) {xs : List β} (h : List.Forall₂ S t.rows xs)
    (hf : ∀ r x, S r x → ∀ acc acc', acc.insert r = some acc' → f acc x = .ok acc') :
    xs.foldlM f empty = .ok t :=
  foldlM_insert_append hf h rfl

end

/-- The table has a row with the key, and the row satisfies `P`. -/
def Holds [DecidableEq κ] (t : Table ρ κ key) (k : κ) (P : ρ → Prop) : Prop :=
  ∃ r, t.get k = some r ∧ P r

variable [DecidableEq κ] {t t' : Table ρ κ key} {k : κ} {P : ρ → Prop}

theorem Holds.of_mem (h : t.Holds k P) {r : ρ} (hr : r ∈ t.rows) (hk : key r = k) : P r := by
  obtain ⟨x,hx,hP⟩ := h
  obtain ⟨hx,hxk⟩ := get_eq_some.mp hx
  rw [t.eq_of_key hr hx (hk.trans hxk.symm)]
  exact hP

theorem Holds.overwrite (h : t.Holds k P) {r : ρ} (hr : key r = k → P r) :
    (t.overwrite r).Holds k P := by
  obtain ⟨x,hx,hP⟩ := h
  by_cases hk : key r = k
  · exact ⟨r,by rw [get_overwrite,if_pos hk,hx,Option.map_some],hr hk⟩
  · exact ⟨x,by rw [get_overwrite,if_neg hk,hx],hP⟩

theorem Holds.insert (h : t.Holds k P) {r : ρ} (hr : t.insert r = some t') : t'.Holds k P := by
  obtain ⟨x,hx,hP⟩ := h
  have hk : key r ≠ k := by
    intro hk
    obtain ⟨hx,hxk⟩ := get_eq_some.mp hx
    exact (insert_eq_some hr).2 (hk ▸ hxk ▸ List.mem_map_of_mem hx)
  exact ⟨x,by rw [get_insert hr,if_neg hk,hx],hP⟩

theorem Holds.delete (h : t.Holds k P) {p : ρ → Bool}
    (hp : ∀ r ∈ t.rows, key r = k → p r = false) : (t.delete p).Holds k P := by
  obtain ⟨x,hx,hP⟩ := h
  obtain ⟨hmem,hxk⟩ := get_eq_some.mp hx
  refine ⟨x,?_,hP⟩
  rw [get_delete,hx,Option.filter_some_pos (by simp [hp x hmem hxk])]

theorem Holds.rewrite {ε : Type} {f : ρ → Except ε ρ} {hf : ∀ r s, f r = .ok s → key s = key r}
    {P' : ρ → Prop} (h : t.Holds k P) (ht : t.rewrite f hf = .ok t')
    (hP : ∀ r s, t.get k = some r → P r → f r = .ok s → P' s) : t'.Holds k P' := by
  obtain ⟨x,hx,hPx⟩ := h
  obtain ⟨s,hs,hget⟩ := get_rewrite ht hx
  exact ⟨s,hget,hP x s hx hPx hs⟩

end Table

end CoppiceWallet.Lib
