import CoppiceWallet.Zip321.Settings
import Mathlib.Data.List.Sort

/-! # The payments of a request -/

namespace CoppiceWallet.Zip321

open CoppiceWallet.Lib CoppiceWallet.Store CoppiceWallet.Quotes

def IsIndex (index : Text) : Prop := index = [] ∨ isParamIndex index = true

theorem isParamIndex_iff {index : Text} : isParamIndex index = true ↔
    index ≠ [] ∧ index.head? ≠ some '0' ∧ (∀ c ∈ index, c.isDigit = true) ∧ index.length ≤ 4 := by
  simp [isParamIndex,and_assoc]

theorem IsIndex.digits {index : Text} (h : IsIndex index) : ∀ c ∈ index, c.isDigit = true := by
  rcases h with rfl | h
  · simp
  · exact (isParamIndex_iff.mp h).2.2.1

theorem indexSortValue_injective {index index' : Text} (h : IsIndex index) (h' : IsIndex index')
    (heq : indexSortValue index = indexSortValue index') : index = index' := by
  have hpos : ∀ {cs : Text}, isParamIndex cs = true → 0 < indexSortValue cs ∧
      Nat.toDigits 10 (indexSortValue cs) = cs := by
    intro cs hcs
    obtain ⟨hne,hhead,hdigits,_⟩ := isParamIndex_iff.mp hcs
    rw [indexSortValue,if_neg hne]
    exact toDigits_digitsValue hdigits hne hhead
  have hzero : indexSortValue [] = 0 := rfl
  rcases h with rfl | h <;> rcases h' with rfl | h'
  · rfl
  · have := (hpos h').1
    omega
  · have := (hpos h).1
    omega
  · rw [← (hpos h).2,heq,(hpos h').2]

theorem parseParamName_index {raw name index : Text} (h : parseParamName raw = .ok (name,index)) :
    IsIndex index := by
  unfold parseParamName at h
  split at h
  · cases h
  · split at h
    · split at h
      · cases h
        exact .inl rfl
      · cases h
    · split at h
      · rename_i hname
        cases h
        exact .inr hname.2
      · cases h
    · cases h

def pathSettings (addressPart : Text) : List Setting :=
  if addressPart = [] then [] else [⟨.address,[],.plain addressPart⟩]

def settingsOf (parts : UriParts) : List Setting :=
  pathSettings parts.addressPart ++ parts.params.filterMap setting

/-- A URI of which every part is taken. -/
structure IsAccepted (parts : UriParts) : Prop where
  path : parts.addressPart = [] ∨ validateAddress parts.addressPart = .ok ()
  params : ∀ rawParam ∈ parts.params, ∃ x, acceptParam rawParam = .ok x
  keys : ((settingsOf parts).map Setting.key).Nodup

theorem initialState_iff {addressPart : Text} {state : ParseState} :
    initialState addressPart = .ok state ↔
      (addressPart = [] ∨ validateAddress addressPart = .ok ()) ∧
        state = (pathSettings addressPart).foldl ParseState.add ⟨[],[],false⟩ := by
  unfold initialState pathSettings
  by_cases hempty : addressPart = []
  · rw [if_pos hempty,if_pos hempty]
    simp [hempty,eq_comm]
  · rw [if_neg hempty,if_neg hempty]
    cases haddress : validateAddress addressPart with
    | error e =>
      constructor
      · intro h
        cases h
      · intro h
        cases h.1.resolve_left hempty
    | ok u =>
      constructor
      · intro h
        exact ⟨.inr rfl,(Except.ok.inj h).symm⟩
      · intro h
        rw [h.2]
        rfl

theorem pathSettings_collected (addressPart : Text) :
    Collected (pathSettings addressPart)
      ((pathSettings addressPart).foldl ParseState.add ⟨[],[],false⟩) := by
  unfold pathSettings
  split
  · exact collected_empty
  · exact collected_empty.add List.not_mem_nil

/-- The state after all parameters. -/
def collect (parts : UriParts) : DartResult ParseState := do
  let state ← initialState parts.addressPart
  parts.params.foldlM parseParam state

theorem collect_ok {parts : UriParts} {state : ParseState} (h : collect parts = .ok state) :
    IsAccepted parts ∧ Collected (settingsOf parts) state := by
  obtain ⟨initial,hinitial,hrun⟩ := bind_ok h
  obtain ⟨hpath,hstate⟩ := initialState_iff.mp hinitial
  rw [hstate] at hrun
  obtain ⟨hparams,hcollected⟩ := foldlM_collected (pathSettings_collected parts.addressPart) hrun
  exact ⟨⟨hpath,hparams,hcollected.keys⟩,hcollected⟩

theorem collect_exists {parts : UriParts} (h : IsAccepted parts) :
    ∃ state, collect parts = .ok state := by
  have hinitial := initialState_iff.mpr ⟨h.path,rfl⟩
  obtain ⟨state,hstate⟩ := foldlM_ok (pathSettings_collected parts.addressPart) h.params h.keys
  exact ⟨state,by rw [collect,hinitial,ok_bind,hstate]⟩

theorem acceptParam_some {rawParam : Text} {x : Setting} :
    acceptParam rawParam = .ok (some x) ↔
      parseParamName (rawName rawParam) = .ok (x.field.text.toList,x.index) ∧
        readValue x.field (rawValue rawParam) = .ok x.reading := by
  unfold acceptParam
  by_cases hempty : rawParam = []
  · rw [if_pos hempty,hempty]
    constructor
    · intro h
      cases h
    · intro h
      cases h.1
  rw [if_neg hempty]
  cases hname : parseParamName (rawName rawParam) with
  | error e =>
    constructor
    · intro h
      cases h
    · intro h
      cases h.1
  | ok parsed =>
    obtain ⟨name,index⟩ := parsed
    simp only [ok_bind]
    constructor
    · intro h
      cases hfield : recognize name with
      | none =>
        rw [hfield] at h
        simp only at h
        split at h <;> cases h
      | some field =>
        rw [hfield] at h
        obtain ⟨reading,hreading,hx⟩ := map_ok h
        cases hx
        exact ⟨by rw [recognize_some hfield],hreading⟩
    · intro h
      cases h.1
      rw [recognize_text]
      simp only [h.2]
      rfl

theorem settingsOf_isIndex {parts : UriParts} {x : Setting} (h : x ∈ settingsOf parts) :
    IsIndex x.index := by
  rcases List.mem_append.mp h with h | h
  · unfold pathSettings at h
    split at h
    · cases h
    · rw [List.mem_singleton.mp h]
      exact .inl rfl
  · obtain ⟨rawParam,_,hx⟩ := List.mem_filterMap.mp h
    unfold setting at hx
    split at hx
    · rename_i haccept
      subst hx
      exact parseParamName_index (acceptParam_some.mp haccept).1
    · cases hx

/-- What is left to do after the loop. -/
def finish (state : ParseState) : DartResult Zip321PaymentRequest :=
  if state.builders = [] then parseError "ZIP-321 request has no payment address."
  else do
    let entries ← sortBuilders state.builders
    let payments ← entries.mapM fun entry => toPayment entry.2
    .ok ⟨payments,unsupportedReason payments state.hasCustomAsset⟩

theorem parseParts_eq (parts : UriParts) : parseParts parts = collect parts >>= finish := by
  unfold parseParts collect
  rw [bind_assoc]
  rfl

section

variable {parts : UriParts} {state : ParseState} (h : Collected (settingsOf parts) state)
include h

theorem Collected.entry {entry : Text × Zip321PaymentBuilder} (hentry : entry ∈ state.builders) :
    IsIndex entry.1 ∧ entry.2 = builderOf (givenIn (settingsOf parts) entry.1) := by
  constructor
  · obtain ⟨x,hx,hindex⟩ := (h.mem_indices entry.1).mp (List.mem_map_of_mem hentry)
    rw [← hindex]
    exact settingsOf_isIndex hx
  · rw [h.builders] at hentry
    obtain ⟨index,_,heq⟩ := List.mem_map.mp hentry
    rw [← heq]

theorem Collected.sortBuilders_eq : sortBuilders state.builders =
    .ok (state.builders.insertionSort fun a b => indexSortValue a.1 ≤ indexSortValue b.1) := by
  rw [sortBuilders,if_pos]
  exact fun entry hentry => (h.entry hentry).1.digits

end

theorem sorted_pairwise (builders : List (Text × Zip321PaymentBuilder)) :
    (builders.insertionSort fun a b => indexSortValue a.1 ≤ indexSortValue b.1).Pairwise
      fun a b => indexSortValue a.1 ≤ indexSortValue b.1 :=
  List.pairwise_insertionSort (fun a b => indexSortValue a.1 ≤ indexSortValue b.1) builders

/-- The order of the settings does not matter. -/
theorem finish_perm {parts parts' : UriParts} {state state' : ParseState}
    (h : Collected (settingsOf parts) state) (h' : Collected (settingsOf parts') state')
    (hperm : (settingsOf parts).Perm (settingsOf parts')) : finish state = finish state' := by
  have hgiven : givenIn (settingsOf parts) = givenIn (settingsOf parts') := by
    funext index field
    apply Option.ext
    intro reading
    rw [givenIn_eq_some h.keys,givenIn_eq_some h'.keys,hperm.mem_iff]
  have hindices : (state.builders.map Prod.fst).Perm (state'.builders.map Prod.fst) := by
    apply (List.perm_ext_iff_of_nodup h.indices h'.indices).mpr
    intro index
    simp only [h.mem_indices,h'.mem_indices,hperm.mem_iff]
  have hbuilders : state.builders.Perm state'.builders := by
    rw [h.builders,h'.builders,hgiven]
    exact hindices.map _
  have hasset : state.hasCustomAsset = state'.hasCustomAsset := by
    rw [h.hasCustomAsset,h'.hasCustomAsset]
    exact hperm.any_eq
  have hsorted : state.builders.insertionSort (fun a b => indexSortValue a.1 ≤ indexSortValue b.1) =
      state'.builders.insertionSort fun a b => indexSortValue a.1 ≤ indexSortValue b.1 := by
    have hsort : (state.builders.insertionSort
        fun a b => indexSortValue a.1 ≤ indexSortValue b.1).Perm
        (state'.builders.insertionSort fun a b => indexSortValue a.1 ≤ indexSortValue b.1) :=
      (List.perm_insertionSort _ _).trans (hbuilders.trans (List.perm_insertionSort _ _).symm)
    apply List.Perm.eq_of_pairwise _ (sorted_pairwise _) (sorted_pairwise _) hsort
    intro a b ha hb hab hba
    obtain ⟨hindex,ha⟩ := h.entry ((List.mem_insertionSort _).mp ha)
    obtain ⟨hindex',hb⟩ := h'.entry ((List.mem_insertionSort _).mp hb)
    have hfst := indexSortValue_injective hindex hindex' (Nat.le_antisymm hab hba)
    apply Prod.ext hfst
    rw [ha,hb,hfst,hgiven]
  have hempty : state.builders = [] ↔ state'.builders = [] := by
    constructor
    · intro hnil
      exact List.perm_nil.mp (hnil ▸ hbuilders.symm)
    · intro hnil
      exact List.perm_nil.mp (hnil ▸ hbuilders)
  simp only [finish,hempty,h.sortBuilders_eq,h'.sortBuilders_eq,hsorted,hasset]

end CoppiceWallet.Zip321
