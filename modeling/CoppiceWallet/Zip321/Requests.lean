import CoppiceWallet.Lib.Lists
import CoppiceWallet.Quotes.BaseUnits
import CoppiceWallet.Zip321.Errors
import Mathlib.Tactic.NormNum

/-! # Requests that are accepted -/

namespace CoppiceWallet.Zip321

open CoppiceWallet.Lib CoppiceWallet.Store CoppiceWallet.Quotes

/-! ## Amounts below the supply

The limit is compared with an amount that was rounded. An amount has at most eight digits after the
point, so one above the limit is too far from it to be rounded down to it.
-/

theorem unitExponent_supply : binary64.unitExponent 21000000 = -28 := by
  have hlog : Int.log 2 (21000000 : ℚ) = 24 := by
    have hnat : Nat.log 2 21000000 = 24 := Nat.log_eq_of_pow_le_of_lt_pow (by decide) (by decide)
    rw [Int.log_ofNat,hnat]
    rfl
  rw [BinaryFormat.unitExponent,hlog]
  rfl

theorem supply_gap {m places : ℕ} (hplaces : places ≤ 8) :
    (m : ℚ) / 10 ^ places ≤ 21000000 ∨
      21000000 + (2 : ℚ) ^ (-28 : ℤ) / 2 < (m : ℚ) / 10 ^ places := by
  have hpow : (0 : ℚ) < 10 ^ places := pow_pos (by norm_num) _
  have hmono : (10 : ℚ) ^ places ≤ 10 ^ 8 := pow_le_pow_right₀ (by norm_num) hplaces
  rcases Nat.lt_or_ge (21000000 * 10 ^ places) m with hlt | hle
  · right
    have hstep : ((21000000 * 10 ^ places + 1 : ℕ) : ℚ) ≤ m := Nat.cast_le.mpr hlt
    push_cast at hstep
    rw [lt_div_iff₀ hpow]
    have hhalf : (2 : ℚ) ^ (-28 : ℤ) / 2 * 10 ^ 8 < 1 := by norm_num
    have hunit : (2 : ℚ) ^ (-28 : ℤ) / 2 * 10 ^ places ≤ (2 : ℚ) ^ (-28 : ℤ) / 2 * 10 ^ 8 :=
      mul_le_mul_of_nonneg_left hmono (by norm_num)
    linarith
  · left
    have hcast : (m : ℚ) ≤ ((21000000 * 10 ^ places : ℕ) : ℚ) := Nat.cast_le.mpr hle
    push_cast at hcast
    rwa [div_le_iff₀ hpow]

theorem le_supply_of_nearest {m places : ℕ} (hplaces : places ≤ 8)
    (h : ¬ ((21000000 : ℚ) : WithTop ℚ) < binary64.nearest ((m : ℚ) / 10 ^ places)) :
    (m : ℚ) / 10 ^ places ≤ 21000000 := by
  have hpow : (0 : ℚ) < 10 ^ places := pow_pos (by norm_num) _
  rcases Nat.eq_zero_or_pos m with rfl | hm
  · simp
  have hv : 0 < (m : ℚ) / 10 ^ places := div_pos (Nat.cast_pos.mpr hm) hpow
  have hmax : (21000000 : ℚ) < 2 ^ binary64.maxExponent := by
    have hmono : (2 : ℚ) ^ (25 : ℤ) ≤ 2 ^ (1024 : ℤ) := zpow_le_zpow_right₀ (by norm_num) (by decide)
    exact lt_of_lt_of_le (by norm_num) hmono
  have hk : (21000000 : ℚ) =
      (21000000 * 2 ^ 28 : ℤ) * (2 : ℚ) ^ binary64.unitExponent 21000000 := by
    rw [unitExponent_supply]
    norm_num
  have hgap : (m : ℚ) / 10 ^ places ≤ 21000000 ∨
      21000000 + (2 : ℚ) ^ binary64.unitExponent 21000000 / 2 < (m : ℚ) / 10 ^ places := by
    rw [unitExponent_supply]
    exact supply_gap hplaces
  rw [BinaryFormat.lt_nearest_iff (by norm_num) hmax hk hv hgap] at h
  exact not_lt.mp h

theorem validateAmount_ok {value : Text} (h : validateAmount value = .ok ()) :
    ∃ v : ℚ, Denotes value v ∧ v ≤ 21000000 := by
  unfold validateAmount at h
  split at h
  · cases h
  · split at h
    · rename_i hamount
      unfold isAmount at hamount
      unfold doubleTryParse at h
      split at hamount
      · rename_i whole hsplit
        simp only [Bool.and_eq_true,decide_eq_true_eq,List.all_eq_true] at hamount
        simp only [hsplit] at h
        split at h
        · cases h
        · rename_i hlimit
          rw [← div_one ((digitsValue whole : ℕ) : ℚ),← pow_zero (10 : ℚ)] at hlimit
          have hle := le_supply_of_nearest (by decide) hlimit
          rw [pow_zero,div_one] at hle
          refine ⟨_,⟨⟨.unsigned,whole,none,none,hamount.2,by simp⟩,?_,?_⟩,hle⟩
          · simp [Numeral.text,Numeral.fractionText,Numeral.exponentText,Sign.text,
              split_singleton hsplit]
          · simp [Numeral.value,Numeral.digits,Numeral.exponentValue,Numeral.places,
              Numeral.mantissa,Sign.factor,hamount.1]
      · rename_i whole fraction hsplit
        simp only [Bool.and_eq_true,decide_eq_true_eq,List.all_eq_true] at hamount
        obtain ⟨⟨⟨⟨hwhole,hwholeDigits⟩,_⟩,hfractionDigits⟩,hlength⟩ := hamount
        simp only [hsplit] at h
        split at h
        · cases h
        · rename_i hlimit
          have hle := le_supply_of_nearest hlength hlimit
          refine ⟨_,⟨⟨.unsigned,whole,some fraction,none,hwholeDigits,?_⟩,?_,?_⟩,hle⟩
          · intro cs hcs
            cases hcs
            exact hfractionDigits
          · simp [Numeral.text,Numeral.fractionText,Numeral.exponentText,Sign.text,
              split_pair hsplit]
          · simp [Numeral.value,Numeral.digits,Numeral.exponentValue,Numeral.places,
              Numeral.mantissa,Sign.factor,hwhole,div_eq_mul_inv]
      · cases hamount
    · cases h

/-- An empty parameter, or one with a name that is valid but neither recognised nor required. -/
def isIgnored (rawParam : Text) : Bool :=
  decide (rawParam = []) ||
    match parseParamName (rawName rawParam) with
    | .ok (name,_) => decide (recognize name = none) && !"req-".toList.isPrefixOf name
    | .error _ => false

theorem acceptParam_ignored {rawParam : Text} (h : isIgnored rawParam = true) :
    acceptParam rawParam = .ok none := by
  unfold isIgnored at h
  unfold acceptParam
  by_cases hempty : rawParam = []
  · rw [if_pos hempty]
  rw [if_neg hempty]
  simp only [hempty,decide_false,Bool.false_or] at h
  cases hname : parseParamName (rawName rawParam) with
  | error e =>
    rw [hname] at h
    cases h
  | ok parsed =>
    obtain ⟨name,index⟩ := parsed
    rw [hname] at h
    simp only [Bool.and_eq_true,decide_eq_true_eq,Bool.not_eq_true'] at h
    simp only [ok_bind,h.1]
    rw [if_neg (by rw [h.2]; decide)]

/-- The parameters that count. -/
def kept (params : List Text) : List Text := params.filter fun rawParam => !isIgnored rawParam

theorem filterMap_kept (params : List Text) :
    (kept params).filterMap setting = params.filterMap setting := by
  unfold kept
  induction params with
  | nil => rfl
  | cons rawParam params ih =>
    by_cases hignored : isIgnored rawParam = true
    · rw [List.filter_cons_of_neg (by simp [hignored]),List.filterMap_cons,
        setting_eq (acceptParam_ignored hignored)]
      exact ih
    · rw [List.filter_cons_of_pos (by simpa using hignored),List.filterMap_cons,
        List.filterMap_cons,ih]

theorem accepted_kept {params : List Text} :
    (∀ rawParam ∈ kept params, ∃ x, acceptParam rawParam = .ok x) ↔
      ∀ rawParam ∈ params, ∃ x, acceptParam rawParam = .ok x := by
  constructor
  · intro h rawParam hmem
    by_cases hignored : isIgnored rawParam = true
    · exact ⟨none,acceptParam_ignored hignored⟩
    · exact h rawParam (List.mem_filter.mpr ⟨hmem,by simpa using hignored⟩)
  · intro h rawParam hmem
    exact h rawParam (List.mem_filter.mp hmem).1

section

variable {parts parts' : UriParts} (haddress : parts.addressPart = parts'.addressPart)
  (hparams : (kept parts.params).Perm (kept parts'.params))
include haddress hparams

theorem settingsOf_perm : (settingsOf parts).Perm (settingsOf parts') := by
  have hperm := hparams.filterMap setting
  rw [filterMap_kept,filterMap_kept] at hperm
  rw [settingsOf,settingsOf,haddress]
  exact hperm.append_left _

theorem IsAccepted.perm (h : IsAccepted parts) : IsAccepted parts' := by
  refine ⟨haddress ▸ h.path,?_,?_⟩
  · apply accepted_kept.mp
    intro rawParam hmem
    exact accepted_kept.mpr h.params rawParam (hparams.mem_iff.mpr hmem)
  · exact ((settingsOf_perm haddress hparams).map Setting.key).nodup_iff.mp h.keys

theorem parseParts_perm {request : Zip321PaymentRequest} (h : parseParts parts = .ok request) :
    parseParts parts' = .ok request := by
  rw [parseParts_eq] at h ⊢
  obtain ⟨state,hstate,hfinish⟩ := bind_ok h
  obtain ⟨haccepted,hcollected⟩ := collect_ok hstate
  obtain ⟨state',hstate'⟩ := collect_exists (haccepted.perm haddress hparams)
  have hcollected' := (collect_ok hstate').2
  rw [hstate',ok_bind,← hfinish]
  exact (finish_perm hcollected hcollected' (settingsOf_perm haddress hparams)).symm

end

/-- The field and the index that a parameter is for. -/
def mention (rawParam : Text) : Option (Field × Text) :=
  match parseParamName (rawName rawParam) with
  | .ok (name,index) => (recognize name).map fun field => (field,index)
  | .error _ => none

/-- The path counts as an address of the first payment. -/
def mentions (parts : UriParts) : List (Field × Text) :=
  (if parts.addressPart = [] then [] else [(.address,[])]) ++ parts.params.filterMap mention

/-- What is given for a field of the payment with an index. -/
def GivenAt (parts : UriParts) (index : Text) (field : Field) (reading : Reading) : Prop :=
  (index = [] ∧ field = .address ∧ parts.addressPart ≠ [] ∧ reading = .plain parts.addressPart) ∨
    ∃ rawParam ∈ parts.params, mention rawParam = some (field,index) ∧
      readValue field (rawValue rawParam) = .ok reading

/-- The payment with what is given for its fields. -/
def paymentOf (given : Field → Option Reading) : Option Zip321Payment :=
  (given .address).map fun address =>
    ⟨address.text,(given .amount).map Reading.text,(given .label).map Reading.text,
      (given .message).map Reading.text,(given .memo).map Reading.text,
      (given .memo).bind Reading.memoText,(given .memo).any Reading.memoIsBinary,
      (given .reqAsset).map Reading.text⟩

theorem mention_iff {rawParam index : Text} {field : Field} : mention rawParam = some (field,index) ↔
    parseParamName (rawName rawParam) = .ok (field.text.toList,index) := by
  unfold mention
  cases hname : parseParamName (rawName rawParam) with
  | error e => simp
  | ok parsed =>
    obtain ⟨name,index'⟩ := parsed
    simp only [Option.map_eq_some_iff,Prod.mk.injEq]
    constructor
    · intro h
      obtain ⟨field',hfield,rfl,rfl⟩ := h
      rw [recognize_some hfield]
    · intro h
      cases h
      exact ⟨field,recognize_text field,rfl,rfl⟩

theorem mem_settingsOf {parts : UriParts} {index : Text} {field : Field} {reading : Reading} :
    ⟨field,index,reading⟩ ∈ settingsOf parts ↔ GivenAt parts index field reading := by
  have hparam : ∀ rawParam, setting rawParam = some ⟨field,index,reading⟩ ↔
      mention rawParam = some (field,index) ∧ readValue field (rawValue rawParam) = .ok reading := by
    intro rawParam
    rw [mention_iff,← acceptParam_some (x := ⟨field,index,reading⟩)]
    constructor
    · intro h
      unfold setting at h
      split at h
      · rename_i haccept
        rw [haccept,h]
      · cases h
    · exact setting_eq
  unfold settingsOf GivenAt pathSettings
  rw [List.mem_append,List.mem_filterMap]
  simp only [hparam]
  by_cases hpath : parts.addressPart = []
  · simp [hpath]
  · simp [hpath,and_left_comm]

theorem mention_setting {rawParam : Text} {x : Option Setting} (h : acceptParam rawParam = .ok x) :
    mention rawParam = x.map fun x => (x.field,x.index) := by
  cases x with
  | some x => exact mention_iff.mpr (acceptParam_some.mp h).1
  | none =>
    unfold acceptParam at h
    unfold mention
    split at h
    · rename_i hempty
      rw [hempty]
      rfl
    · obtain ⟨parsed,hname,h⟩ := bind_ok h
      obtain ⟨name,index⟩ := parsed
      simp only [hname]
      cases hfield : recognize name with
      | none => rfl
      | some field =>
        simp only [hfield] at h
        obtain ⟨reading,_,hx⟩ := map_ok h
        cases hx

theorem mentions_eq {parts : UriParts} (h : IsAccepted parts) :
    mentions parts = (settingsOf parts).map fun x => (x.field,x.index) := by
  unfold mentions settingsOf pathSettings
  rw [List.map_append,List.map_filterMap]
  congr 1
  · split <;> rfl
  · apply List.filterMap_congr
    intro rawParam hmem
    obtain ⟨x,hx⟩ := h.params rawParam hmem
    rw [mention_setting hx,setting_eq hx]

theorem toPayment_builderOf {given : Field → Option Reading} {payment : Zip321Payment}
    (h : toPayment (builderOf given) = .ok payment) :
    paymentOf given = some payment ∧ (given .amount = none ∨ given .reqAsset = none) := by
  unfold toPayment at h
  cases haddress : given .address with
  | none =>
    simp only [builderOf,haddress,Option.map_none] at h
    cases h
  | some address =>
    simp only [builderOf,haddress,Option.map_some,ne_eq,Option.map_eq_none_iff] at h
    split at h
    · cases h
    · rename_i hasset
      split at h
      · cases h
      · cases h
        rw [paymentOf,haddress]
        exact ⟨rfl,by rwa [not_and_or,not_not,not_not] at hasset⟩

/-- One payment for each index that is mentioned, in the order of the indices, with what is given
for its fields. -/
def ExactlyGiven (parts : UriParts) (payments : List Zip321Payment) : Prop :=
  ∃ indices : List Text, indices.Pairwise (fun a b => indexSortValue a < indexSortValue b) ∧
    (∀ index, index ∈ indices ↔ ∃ field, (field,index) ∈ mentions parts) ∧
    List.Forall₂ (fun index payment => ∃ given : Field → Option Reading,
      (∀ field reading, given field = some reading ↔ GivenAt parts index field reading) ∧
        paymentOf given = some payment) indices payments

/-- What holds of every URI that is accepted. -/
structure IsWellFormed (parts : UriParts) : Prop where
  names : ∀ rawParam ∈ parts.params, rawParam ≠ [] →
    ∃ name index, parseParamName (rawName rawParam) = .ok (name,index) ∧
      ("req-".toList.isPrefixOf name = true → name = "req-asset".toList)
  repeats : (mentions parts).Nodup
  address : ∀ field index, (field,index) ∈ mentions parts → (.address,index) ∈ mentions parts
  asset : ∀ index, (.amount,index) ∈ mentions parts → (.reqAsset,index) ∉ mentions parts
  amount : ∀ rawParam ∈ parts.params, ∀ index, mention rawParam = some (.amount,index) →
    ∃ v : ℚ, Denotes (rawValue rawParam) v ∧ v ≤ 21000000

/-- The indices of the builders in order, of each of which a payment is made. -/
structure Finished (parts : UriParts) (indices : List Text) (payments : List Zip321Payment) : Prop where
  accepted : IsAccepted parts
  ordered : indices.Pairwise fun a b => indexSortValue a < indexSortValue b
  mem_indices : ∀ index, index ∈ indices ↔ ∃ x ∈ settingsOf parts, x.index = index
  payments : List.Forall₂ (fun index payment =>
    toPayment (builderOf (givenIn (settingsOf parts) index)) = .ok payment) indices payments

theorem parseParts_finished {parts : UriParts} {request : Zip321PaymentRequest}
    (h : parseParts parts = .ok request) : ∃ indices, Finished parts indices request.payments := by
  rw [parseParts_eq] at h
  obtain ⟨state,hstate,h⟩ := bind_ok h
  obtain ⟨haccepted,hcollected⟩ := collect_ok hstate
  unfold finish at h
  split at h
  · cases h
  rw [hcollected.sortBuilders_eq,ok_bind] at h
  obtain ⟨payments,hpayments,h⟩ := bind_ok h
  cases h
  have hperm := List.perm_insertionSort (fun a b => indexSortValue a.1 ≤ indexSortValue b.1)
    state.builders
  have hsorted := sorted_pairwise state.builders
  generalize state.builders.insertionSort (fun a b => indexSortValue a.1 ≤ indexSortValue b.1) =
    entries at hperm hsorted hpayments
  have hentry : ∀ entry ∈ entries, IsIndex entry.1 ∧
      entry.2 = builderOf (givenIn (settingsOf parts) entry.1) := fun entry hmem =>
    hcollected.entry (hperm.mem_iff.mp hmem)
  have hentries : entries = (entries.map Prod.fst).map fun index =>
      (index,builderOf (givenIn (settingsOf parts) index)) := by
    rw [List.map_map]
    conv_lhs => rw [← List.map_id entries]
    apply List.map_congr_left
    intro entry hmem
    exact Prod.ext rfl (hentry entry hmem).2
  refine ⟨entries.map Prod.fst,haccepted,?_,?_,?_⟩
  · rw [List.pairwise_map]
    have hnodup : (entries.map Prod.fst).Nodup := (hperm.map Prod.fst).nodup_iff.mpr hcollected.indices
    have hne := List.pairwise_map.mp hnodup
    apply (hsorted.and hne).imp_of_mem
    intro a b ha hb hab
    apply Nat.lt_of_le_of_ne hab.1
    intro heq
    exact hab.2 (indexSortValue_injective (hentry a ha).1 (hentry b hb).1 heq)
  · intro index
    rw [(hperm.map Prod.fst).mem_iff]
    exact hcollected.mem_indices index
  · have hforall := mapM_ok hpayments
    rw [hentries,List.forall₂_map_left_iff] at hforall
    exact hforall

section

variable {parts : UriParts} {indices : List Text} {payments : List Zip321Payment}
  (h : Finished parts indices payments)
include h

theorem Finished.mem_mentions {field : Field} {index : Text} :
    (field,index) ∈ mentions parts ↔ ∃ reading, GivenAt parts index field reading := by
  rw [mentions_eq h.accepted,List.mem_map]
  constructor
  · intro hex
    obtain ⟨x,hx,heq⟩ := hex
    cases heq
    exact ⟨x.reading,mem_settingsOf.mp hx⟩
  · intro hex
    obtain ⟨reading,hgiven⟩ := hex
    exact ⟨_,mem_settingsOf.mpr hgiven,rfl⟩

theorem Finished.exactlyGiven : ExactlyGiven parts payments := by
  refine ⟨indices,h.ordered,?_,h.payments.imp ?_⟩
  · intro index
    rw [h.mem_indices,mentions_eq h.accepted]
    simp
  · intro index payment hpayment
    refine ⟨_,?_,(toPayment_builderOf hpayment).1⟩
    intro field reading
    rw [givenIn_eq_some h.accepted.keys,mem_settingsOf]

theorem Finished.payment {field : Field} {index : Text} (hmention : (field,index) ∈ mentions parts) :
    ∃ payment, toPayment (builderOf (givenIn (settingsOf parts) index)) = .ok payment := by
  have hindex : index ∈ indices := by
    rw [mentions_eq h.accepted,List.mem_map] at hmention
    obtain ⟨x,hx,heq⟩ := hmention
    cases heq
    exact (h.mem_indices _).mpr ⟨x,hx,rfl⟩
  obtain ⟨payment,_,hpayment⟩ := forall₂_mem_left h.payments hindex
  exact ⟨payment,hpayment⟩

theorem Finished.mem_iff_given {field : Field} {index : Text} :
    (field,index) ∈ mentions parts ↔ givenIn (settingsOf parts) index field ≠ none := by
  rw [h.mem_mentions,Option.ne_none_iff_exists']
  simp only [givenIn_eq_some h.accepted.keys,mem_settingsOf]

theorem Finished.isWellFormed : IsWellFormed parts := by
  refine ⟨?_,?_,?_,?_,?_⟩
  · intro rawParam hmem hne
    obtain ⟨x,hx⟩ := h.accepted.params rawParam hmem
    unfold acceptParam at hx
    rw [if_neg hne] at hx
    obtain ⟨parsed,hname,hx⟩ := bind_ok hx
    obtain ⟨name,index⟩ := parsed
    refine ⟨name,index,hname,?_⟩
    intro hreq
    cases hfield : recognize name with
    | none =>
      simp only [hfield,hreq,if_true] at hx
      cases hx
    | some field =>
      have htext := recognize_some hfield
      rw [← htext] at hreq ⊢
      revert hreq
      cases field <;> decide
  · have hkeys := h.accepted.keys
    have hkey : (settingsOf parts).map Setting.key =
        (mentions parts).map fun x => seenKey x.1.text.toList x.2 := by
      rw [mentions_eq h.accepted,List.map_map]
      rfl
    rw [hkey] at hkeys
    exact hkeys.of_map
  · intro field index hmention
    obtain ⟨payment,hpayment⟩ := h.payment hmention
    have haddress := (toPayment_builderOf hpayment).1
    rw [h.mem_iff_given]
    intro hnone
    rw [paymentOf,hnone] at haddress
    cases haddress
  · intro index hamount hasset
    obtain ⟨payment,hpayment⟩ := h.payment hamount
    rw [h.mem_iff_given] at hamount hasset
    rcases (toPayment_builderOf hpayment).2 with hnone | hnone
    · exact hamount hnone
    · exact hasset hnone
  · intro rawParam hmem index hmention
    obtain ⟨x,hx⟩ := h.accepted.params rawParam hmem
    rw [mention_setting hx] at hmention
    obtain ⟨x,rfl,heq⟩ := Option.map_eq_some_iff.mp hmention
    have hreading := (acceptParam_some.mp hx).2
    rw [(Prod.mk.inj heq).1] at hreading
    obtain ⟨u,hvalid,_⟩ := map_ok hreading
    exact validateAmount_ok hvalid

end

/-- Errors are the parser's own, what is accepted is well formed and read exactly, and neither the
order of parameters nor ignored ones make a difference once the ends of the input are trimmed. -/
theorem parse_exact :
    (∀ input e, parse input = .error e → ∃ message, e = .zip321Parse message) ∧
    (∀ input request, parse input = .ok request → ∃ parts, splitUri (trim input) = .ok parts ∧
      ExactlyGiven parts request.payments ∧ IsWellFormed parts) ∧
    ∀ input input' parts parts', splitUri (trim input) = .ok parts →
      splitUri (trim input') = .ok parts' → parts.addressPart = parts'.addressPart →
      (kept parts.params).Perm (kept parts'.params) →
      ∀ request, parse input = .ok request ↔ parse input' = .ok request := by
  refine ⟨parse_errors,?_,?_⟩
  · intro input request h
    obtain ⟨parts,hparts,h⟩ := bind_ok h
    obtain ⟨indices,hfinished⟩ := parseParts_finished h
    exact ⟨parts,hparts,hfinished.exactlyGiven,hfinished.isWellFormed⟩
  · intro input input' parts parts' hparts hparts' haddress hperm request
    rw [parse,parse,hparts,hparts',ok_bind,ok_bind]
    constructor
    · exact parseParts_perm haddress hperm
    · exact parseParts_perm haddress.symm hperm.symm

theorem parse_exact_reordered : parse "zcash:t1abc?message=y&x=1&&label=x".toList =
    .ok ⟨[⟨"t1abc".toList,none,some "x".toList,some "y".toList,none,none,false,none⟩],none⟩ :=
  (parse_exact.2.2 "zcash:t1abc?label=x&message=y".toList _
    ⟨"t1abc".toList,["label=x".toList,"message=y".toList]⟩
    ⟨"t1abc".toList,["message=y".toList,"x=1".toList,[],"label=x".toList]⟩ rfl rfl rfl
    (by decide) _).mp rfl

/-- White space after the last parameter is trimmed, so that another order shows it. -/
theorem parse_order_matters : ¬ ∀ input input' parts parts', splitUri input = .ok parts →
    splitUri input' = .ok parts' → parts.addressPart = parts'.addressPart →
    parts.params.Perm parts'.params →
    ∀ request, parse input = .ok request → parse input' = .ok request := by
  intro h
  have hfirst : parse "zcash:t1abc?label=x &message=y".toList =
      .ok ⟨[⟨"t1abc".toList,none,some "x ".toList,some "y".toList,none,none,false,none⟩],none⟩ := rfl
  have hsecond : parse "zcash:t1abc?message=y&label=x ".toList =
      .ok ⟨[⟨"t1abc".toList,none,some "x".toList,some "y".toList,none,none,false,none⟩],none⟩ := rfl
  have hsame := h _ "zcash:t1abc?message=y&label=x ".toList
    ⟨"t1abc".toList,["label=x ".toList,"message=y".toList]⟩
    ⟨"t1abc".toList,["message=y".toList,"label=x ".toList]⟩ rfl rfl rfl (.swap _ _ _) _ hfirst
  rw [hsecond] at hsame
  revert hsame
  decide

end CoppiceWallet.Zip321
