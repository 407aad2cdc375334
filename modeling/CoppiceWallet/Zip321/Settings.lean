import CoppiceWallet.Zip321.PaymentRequest

/-! # What the parameters set -/

namespace CoppiceWallet.Zip321

open CoppiceWallet.Lib CoppiceWallet.Store CoppiceWallet.Quotes

/-- A field of the payment with an index, and what it is set to. -/
structure Setting where
  field : Field
  index : Text
  reading : Reading

def Setting.key (x : Setting) : Text := seenKey x.field.text.toList x.index

def rawName (rawParam : Text) : Text := rawParam.takeWhile fun c => decide (c ≠ '=')

def rawValue (rawParam : Text) : Text := (rawParam.dropWhile fun c => decide (c ≠ '=')).tail

/-- A parameter that is taken, whichever came before, and what it sets. -/
def acceptParam (rawParam : Text) : DartResult (Option Setting) :=
  if rawParam = [] then .ok none
  else do
    let (name,index) ← parseParamName (rawName rawParam)
    match recognize name with
    | none =>
      if "req-".toList.isPrefixOf name then
        parseError ("Required ZIP-321 parameter " ++ String.ofList name ++ " is not supported.")
      else .ok none
    | some field =>
      (fun reading => some ⟨field,index,reading⟩) <$> readValue field (rawValue rawParam)

def setting (rawParam : Text) : Option Setting :=
  match acceptParam rawParam with
  | .ok x => x
  | .error _ => none

theorem setting_eq {rawParam : Text} {x : Option Setting} (h : acceptParam rawParam = .ok x) :
    setting rawParam = x := by
  rw [setting,h]

theorem recognize_some {name : Text} {field : Field} (h : recognize name = some field) :
    field.text.toList = name := by
  unfold recognize at h
  simpa using List.find?_some h

theorem recognize_text (field : Field) : recognize field.text.toList = some field := by
  cases field <;> decide

def ParseState.add (state : ParseState) (x : Setting) : ParseState :=
  ⟨putBuilder state.builders x.index x.field x.reading,state.seenKeys ++ [x.key],
    state.hasCustomAsset || decide (x.field = .reqAsset)⟩

variable {state : ParseState}

theorem parseParam_iff {state' : ParseState} {rawParam : Text} :
    parseParam state rawParam = .ok state' ↔ ∃ x, acceptParam rawParam = .ok x ∧
      (∀ y ∈ x, y.key ∉ state.seenKeys) ∧ state' = x.elim state state.add := by
  unfold parseParam acceptParam
  by_cases hempty : rawParam = []
  · rw [if_pos hempty,if_pos hempty]
    constructor
    · intro h
      exact ⟨none,rfl,by simp,(Except.ok.inj h).symm⟩
    · rintro ⟨x,hx,_,hstate⟩
      cases hx
      rw [hstate]
      rfl
  rw [if_neg hempty,if_neg hempty]
  change (parseParamName (rawName rawParam) >>= _) = _ ↔ _
  cases hname : parseParamName (rawName rawParam) with
  | error e =>
    constructor
    · intro h
      cases h
    · rintro ⟨x,hx,_⟩
      cases hx
  | ok parsed =>
    obtain ⟨name,index⟩ := parsed
    simp only [ok_bind]
    cases hfield : recognize name with
    | none =>
      simp only
      split
      · constructor
        · intro h
          cases h
        · rintro ⟨x,hx,_⟩
          cases hx
      · constructor
        · intro h
          exact ⟨none,rfl,by simp,(Except.ok.inj h).symm⟩
        · rintro ⟨x,hx,_,hstate⟩
          cases hx
          rw [hstate]
          rfl
    | some field =>
      have htext := recognize_some hfield
      simp only
      constructor
      · intro h
        split at h
        · cases h
        · rename_i hseen
          obtain ⟨reading,hreading,h⟩ := bind_ok h
          refine ⟨some ⟨field,index,reading⟩,by rw [rawValue,hreading]; rfl,?_,?_⟩
          · intro y hy
            cases hy
            rw [Setting.key,htext]
            exact hseen
          · rw [← Except.ok.inj h,Option.elim_some,ParseState.add,Setting.key,htext]
      · rintro ⟨x,hx,hseen,hstate⟩
        obtain ⟨reading,hreading,hx⟩ := map_ok hx
        subst hx
        have hkey := hseen _ rfl
        rw [Setting.key,htext] at hkey
        rw [rawValue] at hreading
        rw [if_neg hkey,hreading,hstate,Option.elim_some,ParseState.add,Setting.key,htext]
        rfl

/-- The builder with what was given. -/
def builderOf (given : Field → Option Reading) : Zip321PaymentBuilder :=
  ⟨(given .address).map Reading.text,(given .amount).map Reading.text,
    (given .label).map Reading.text,(given .message).map Reading.text,
    (given .memo).map Reading.text,(given .memo).bind Reading.memoText,
    (given .memo).any Reading.memoIsBinary,(given .reqAsset).map Reading.text⟩

theorem builderOf_set (given : Field → Option Reading) (field : Field) (reading : Reading) :
    (builderOf given).set field reading = builderOf (Function.update given field (some reading)) := by
  cases field <;> simp [builderOf,Zip321PaymentBuilder.set]

theorem builderOf_none : builderOf (fun _ => none) = Zip321PaymentBuilder.empty := rfl

/-- What was set first for a field. -/
def givenIn (settings : List Setting) (index : Text) (field : Field) : Option Reading :=
  (settings.find? fun x => decide (x.index = index ∧ x.field = field)).map Setting.reading

variable {settings : List Setting}

theorem givenIn_append {x : Setting} (h : x.key ∉ settings.map Setting.key) (index : Text) :
    givenIn (settings ++ [x]) index =
      if x.index = index then Function.update (givenIn settings index) x.field (some x.reading)
      else givenIn settings index := by
  funext field
  have hnone : x.index = index → x.field = field →
      settings.find? (fun y => decide (y.index = index ∧ y.field = field)) = none := by
    intro hindex hfield
    apply List.find?_eq_none.mpr
    intro y hy
    rw [decide_eq_true_eq,← hindex,← hfield]
    intro heq
    apply h
    rw [Setting.key,← heq.1,← heq.2]
    exact List.mem_map_of_mem hy
  unfold givenIn
  rw [List.find?_append]
  by_cases hindex : x.index = index
  · by_cases hfield : x.field = field
    · rw [hnone hindex hfield,if_pos hindex,← hfield,Function.update_self]
      simp [hindex]
    · rw [if_pos hindex,Function.update_of_ne (Ne.symm hfield)]
      simp [hfield]
  · rw [if_neg hindex]
    simp [hindex]

theorem givenIn_eq_some (hnodup : (settings.map Setting.key).Nodup) {index : Text} {field : Field}
    {reading : Reading} :
    givenIn settings index field = some reading ↔ ⟨field,index,reading⟩ ∈ settings := by
  induction settings using List.reverseRecOn with
  | nil => simp [givenIn]
  | append_singleton settings x ih =>
    rw [List.map_append,List.map_singleton,List.nodup_append] at hnodup
    have hfresh : x.key ∉ settings.map Setting.key := fun hmem =>
      hnodup.2.2 x.key hmem x.key (by simp) rfl
    have ih := ih hnodup.1
    rw [givenIn_append hfresh,List.mem_append,List.mem_singleton]
    obtain ⟨xfield,xindex,xreading⟩ := x
    by_cases hindex : xindex = index
    · subst hindex
      rw [if_pos rfl]
      by_cases hfield : xfield = field
      · subst hfield
        have hnot : ∀ r, ⟨xfield,xindex,r⟩ ∉ settings := fun r hmem =>
          hfresh (List.mem_map.mpr ⟨_,hmem,rfl⟩)
        rw [Function.update_self]
        simp [hnot,eq_comm]
      · rw [Function.update_of_ne (Ne.symm hfield),ih]
        simp [Ne.symm hfield]
    · rw [if_neg hindex,ih]
      simp [Ne.symm hindex]

/-- The state after some parameters were taken. -/
structure Collected (settings : List Setting) (state : ParseState) : Prop where
  keys : (settings.map Setting.key).Nodup
  seenKeys : state.seenKeys = settings.map Setting.key
  indices : (state.builders.map Prod.fst).Nodup
  mem_indices : ∀ index, index ∈ state.builders.map Prod.fst ↔ ∃ x ∈ settings, x.index = index
  builders : state.builders = (state.builders.map Prod.fst).map fun index =>
    (index,builderOf (givenIn settings index))
  hasCustomAsset : state.hasCustomAsset = settings.any fun x => decide (x.field = .reqAsset)

theorem collected_empty : Collected [] ⟨[],[],false⟩ where
  keys := .nil
  seenKeys := rfl
  indices := .nil
  mem_indices := by simp
  builders := rfl
  hasCustomAsset := rfl

theorem putBuilder_indices (builders : List (Text × Zip321PaymentBuilder)) (index : Text)
    (field : Field) (reading : Reading) :
    (putBuilder builders index field reading).map Prod.fst =
      if index ∈ builders.map Prod.fst then builders.map Prod.fst
      else builders.map Prod.fst ++ [index] := by
  unfold putBuilder
  by_cases hmem : index ∈ builders.map Prod.fst
  · rw [if_pos hmem,if_pos hmem,List.map_map]
    apply List.map_congr_left
    intro entry _
    simp only [Function.comp_apply]
    split <;> rfl
  · rw [if_neg hmem,if_neg hmem,List.map_append]
    rfl

theorem Collected.add (h : Collected settings state) {x : Setting}
    (hfresh : x.key ∉ state.seenKeys) : Collected (settings ++ [x]) (state.add x) := by
  rw [h.seenKeys] at hfresh
  have hgiven := givenIn_append hfresh
  have hindices := putBuilder_indices state.builders x.index x.field x.reading
  refine ⟨?_,?_,?_,?_,?_,?_⟩
  · rw [List.map_append,List.map_singleton,← List.concat_eq_append]
    exact h.keys.concat hfresh
  · simp [ParseState.add,h.seenKeys]
  · simp only [ParseState.add,hindices]
    split
    · exact h.indices
    · rename_i hmem
      rw [← List.concat_eq_append]
      exact h.indices.concat hmem
  · intro index
    have hmem := h.mem_indices index
    simp only [ParseState.add,hindices]
    split
    · rename_i hx
      rw [hmem]
      constructor
      · intro hex
        obtain ⟨y,hy,hindex⟩ := hex
        exact ⟨y,List.mem_append_left _ hy,hindex⟩
      · intro hex
        obtain ⟨y,hy,hindex⟩ := hex
        rcases List.mem_append.mp hy with hy | hy
        · exact ⟨y,hy,hindex⟩
        · rw [List.mem_singleton.mp hy] at hindex
          exact (h.mem_indices index).mp (hindex ▸ hx)
    · rw [List.mem_append,hmem,List.mem_singleton]
      simp only [List.mem_append,List.mem_singleton,or_and_right,exists_or,exists_eq_left]
      rw [eq_comm]
  · simp only [ParseState.add,hindices]
    unfold putBuilder
    split
    · -- the builder of the index is there
      conv_lhs => rw [h.builders]
      rw [List.map_map]
      apply List.map_congr_left
      intro index _
      simp only [Function.comp_apply,hgiven]
      by_cases hx : x.index = index
      · rw [if_pos hx,if_pos hx.symm,builderOf_set]
      · rw [if_neg hx,if_neg (Ne.symm hx)]
    · rename_i hmem
      have hnone : givenIn settings x.index = fun _ => none := by
        funext field
        rw [givenIn,Option.map_eq_none_iff,List.find?_eq_none]
        intro y hy
        have hne : y.index ≠ x.index := fun heq => hmem ((h.mem_indices _).mpr ⟨y,hy,heq⟩)
        simp [hne]
      rw [List.map_append,List.map_singleton,hgiven,if_pos rfl,hnone,← builderOf_set,builderOf_none]
      congr 1
      conv_lhs => rw [h.builders]
      apply List.map_congr_left
      intro index hindex
      have hx : x.index ≠ index := fun heq => hmem (heq ▸ hindex)
      rw [hgiven,if_neg hx]
  · simp [ParseState.add,h.hasCustomAsset]

theorem foldlM_collected {params : List Text} {state' : ParseState} (h : Collected settings state)
    (hrun : params.foldlM parseParam state = .ok state') :
    (∀ rawParam ∈ params, ∃ x, acceptParam rawParam = .ok x) ∧
      Collected (settings ++ params.filterMap setting) state' := by
  induction params generalizing settings state with
  | nil =>
    cases hrun
    simpa using h
  | cons rawParam params ih =>
    obtain ⟨next,hstep,hrun⟩ := bind_ok hrun
    obtain ⟨x,hx,hfresh,hnext⟩ := parseParam_iff.mp hstep
    have hcollected : Collected (settings ++ x.toList) next := by
      rw [hnext]
      cases x with
      | none => simpa using h
      | some x => exact h.add (hfresh x rfl)
    obtain ⟨haccept,hlast⟩ := ih hcollected hrun
    constructor
    · intro other hother
      rcases List.mem_cons.mp hother with rfl | hother
      · exact ⟨x,hx⟩
      · exact haccept other hother
    · rw [List.append_assoc] at hlast
      have hsettings : (rawParam :: params).filterMap setting =
          x.toList ++ params.filterMap setting := by
        rw [List.filterMap_cons,setting_eq hx]
        cases x <;> rfl
      rwa [hsettings]

theorem foldlM_ok {params : List Text} (h : Collected settings state)
    (haccept : ∀ rawParam ∈ params, ∃ x, acceptParam rawParam = .ok x)
    (hkeys : ((settings ++ params.filterMap setting).map Setting.key).Nodup) :
    ∃ state', params.foldlM parseParam state = .ok state' := by
  induction params generalizing settings state with
  | nil => exact ⟨state,rfl⟩
  | cons rawParam params ih =>
    obtain ⟨x,hx⟩ := haccept rawParam List.mem_cons_self
    have hrest : ∀ other ∈ params, ∃ y, acceptParam other = .ok y := fun other hother =>
      haccept other (List.mem_cons_of_mem _ hother)
    rw [List.foldlM_cons]
    rw [List.filterMap_cons,setting_eq hx] at hkeys
    cases x with
    | none =>
      have hstep : parseParam state rawParam = .ok state :=
        parseParam_iff.mpr ⟨none,hx,by simp,rfl⟩
      rw [hstep]
      exact ih h hrest hkeys
    | some x =>
      simp only [List.map_append,List.map_cons] at hkeys
      have hfresh : x.key ∉ state.seenKeys := by
        rw [h.seenKeys]
        intro hmem
        exact (List.nodup_append.mp hkeys).2.2 _ hmem _ List.mem_cons_self rfl
      have hstep : parseParam state rawParam = .ok (state.add x) :=
        parseParam_iff.mpr ⟨some x,hx,fun y hy => Option.some.inj hy ▸ hfresh,rfl⟩
      rw [hstep]
      apply ih (h.add hfresh) hrest
      simpa using hkeys

end CoppiceWallet.Zip321
