import CoppiceWallet.Activity.FundingSteps

/-! # The history as a whole -/

namespace CoppiceWallet.Activity

open CoppiceWallet.Lib
open CoppiceWallet.Store (Bytes Text)
open CoppiceWallet.Names (requiredBondZatoshis)

def summariesOf (bases : List TxBase) (outputsByTxid : Bytes → Option (List TxOutput))
    (account : Bytes) : Summaries :=
  bases.foldl (fun summaries base => Function.update summaries base.txid
    (some (summarizeActivityOutputs base ((outputsByTxid base.txid).getD []) account))) fun _ => none

/-- The rows of one transaction, before some are dropped. -/
def visibleRows (summaries : Summaries) (matched : SuppressedFundingStepFees)
    (namesByTxid : Bytes → Option String) (base : TxBase) : List ClassifiedTx :=
  match namesByTxid base.txid with
  | some kind => [buildClassifiedTx base (.names kind) requiredBondZatoshis .ironwood false 0]
  | none =>
    let summary := (summaries base.txid).getD .empty
    if base.transactionId ∈ matched.suppressedFundingTxids then []
    else
      classifyHistoryTx base summary
        (if summary.hasExternalTransparentSend then
          (matched.extraFeeByExternalTxid base.transactionId).getD 0
        else 0)

def isRetained (row : ClassifiedTx) : Bool :=
  decide (0 < row.info.displayAmount ∨ row.info.txKind = .unknown ∨ row.info.txKind = .shielded)

def compareRows (a b : ClassifiedTx) : Ordering :=
  (compare b.sortPendingRank a.sortPendingRank).then
    ((compare b.sortTimestamp a.sortTimestamp).then
      ((compare b.sortMinedHeight a.sortMinedHeight).then
        ((compare b.txIndex a.txIndex).then
          ((compare b.info.txidHex a.info.txidHex).then (compare a.rowOrder b.rowOrder)))))

def matchedFees (keyOrder : KeyOrder) (bases : List TxBase)
    (outputsByTxid : Bytes → Option (List TxOutput)) (account : Bytes) :
    SuppressedFundingStepFees :=
  let summaries := summariesOf bases outputsByTxid account
  buildSuppressedFundingStepFees keyOrder bases summaries (buildExternalSendKeys bases summaries)

def assembleHistoryWithNames (keyOrder : KeyOrder) (bases : List TxBase)
    (outputsByTxid : Bytes → Option (List TxOutput)) (account : Bytes) (limit : Option Nat)
    (namesByTxid : Bytes → Option String) : List TransactionInfo :=
  let visible := bases.flatMap (visibleRows (summariesOf bases outputsByTxid account)
    (matchedFees keyOrder bases outputsByTxid account) namesByTxid)
  let visible := (visible.filter isRetained).insertionSort fun a b => (compareRows a b).isLE = true
  let visible :=
    match limit with
    | some limit => visible.take limit
    | none => visible
  visible.map ClassifiedTx.info

/-- History rows of distinct transactions, whose outputs have a value. -/
structure HistoryRows where
  bases : List TxBase
  outputsByTxid : Bytes → Option (List TxOutput)
  transactionIds : (bases.map TxBase.transactionId).Nodup
  txids : (bases.map TxBase.txid).Nodup
  fees : ∀ base ∈ bases, base.fee < u64Limit
  values : ∀ base ∈ bases, ∀ output ∈ (outputsByTxid base.txid).getD [], 0 < output.value

namespace HistoryRows

variable (rows : HistoryRows) (account : Bytes)

def summary (base : TxBase) : ActivitySummary :=
  summarizeActivityOutputs base ((rows.outputsByTxid base.txid).getD []) account

def summaries : Summaries := summariesOf rows.bases rows.outputsByTxid account

def externalSendKeys : List FundingStepMatchKey :=
  buildExternalSendKeys rows.bases (rows.summaries account)

/-- The funding steps of a key that may be suppressed. -/
def fundingSteps (key : FundingStepMatchKey) : List TxBase :=
  rows.bases.filter fun base =>
    shouldSuppressFundingStep base (rows.summary account base) (rows.externalSendKeys account) &&
      decide (fundingStepKey base (rows.summary account base) = some key)

def externalSends (key : FundingStepMatchKey) : List TxBase :=
  rows.bases.filter fun base =>
    decide (externalSendKey base (rows.summary account base) = some key)

end HistoryRows

theorem summariesOf_eq {bases : List TxBase} (outputsByTxid : Bytes → Option (List TxOutput))
    (account : Bytes) (htxids : (bases.map TxBase.txid).Nodup) {base : TxBase} (h : base ∈ bases) :
    summariesOf bases outputsByTxid account base.txid =
      some (summarizeActivityOutputs base ((outputsByTxid base.txid).getD []) account) := by
  induction bases using List.reverseRecOn with
  | nil => cases h
  | append_singleton bases last ih =>
    rw [summariesOf,List.foldl_append,List.foldl_cons,List.foldl_nil]
    rw [List.map_append,List.nodup_append] at htxids
    rcases List.mem_append.mp h with h | h
    · have hne : base.txid ≠ last.txid :=
        htxids.2.2 base.txid (List.mem_map_of_mem h) last.txid (by simp)
      rw [Function.update_of_ne hne]
      exact ih htxids.1 h
    · obtain rfl := List.mem_singleton.mp h
      rw [Function.update_self]

section Differ

variable {base : TxBase} {account : Bytes} {summary : ActivitySummary}
  {externalSendKeys : List FundingStepMatchKey} {key : FundingStepMatchKey}

/-- A payment out of the account was found, so something was sent. -/
def ExternalIsSent (base : TxBase) (summary : ActivitySummary) : Prop :=
  summary.hasExternalTransparentSend = true → base.isShielding = false ∧ 0 < summary.sent.amount

theorem ExternalIsSent.step (h : ExternalIsSent base summary) {output : TxOutput}
    (hvalue : 0 < output.value) : ExternalIsSent base (summarizeOutput base account summary output) := by
  have hpos : ∀ amount, 0 < saturatingAdd amount output.value := by
    intro amount
    simp only [saturatingAdd,u64Limit]
    omega
  unfold ExternalIsSent summarizeOutput at *
  by_cases hshielding : base.isShielding = true
  · by_cases howned : (output.toOwn account && isShieldedPool output.outputPool) = true
    · simpa [hshielding,howned] using h
    · simpa [hshielding,howned] using h
  · by_cases htransition : isTransition base account output = true
    · simpa [hshielding,htransition] using h
    · by_cases hsent : visibleSent account output = true
      · simp [hshielding,htransition,hsent,hpos]
      · simpa [hshielding,htransition,hsent] using h

theorem externalIsSent (outputs : List TxOutput) (hvalues : ∀ output ∈ outputs, 0 < output.value) :
    ExternalIsSent base (summarizeActivityOutputs base outputs account) := by
  unfold summarizeActivityOutputs
  induction outputs using List.reverseRecOn with
  | nil =>
    intro h
    cases h
  | append_singleton outputs output ih =>
    rw [List.foldl_append]
    exact (ih fun o ho => hvalues o (List.mem_append_left _ ho)).step (hvalues output (by simp))

theorem hasExternal_of_key (h : externalSendKey base summary = some key) :
    summary.hasExternalTransparentSend = true := by
  unfold externalSendKey at h
  split at h
  · cases h
  · rename_i hnone
    simpa using fun hfalse => hnone (.inl hfalse)

theorem sent_zero_of_suppress
    (h : shouldSuppressFundingStep base summary externalSendKeys = true) :
    summary.sent.amount = 0 := by
  simp only [shouldSuppressFundingStep,Bool.and_eq_true,decide_eq_true_eq] at h
  exact h.1.1.1.2

end Differ

section Rows

variable {base : TxBase} {summary : ActivitySummary} {extraSentFee : Nat} {row : ClassifiedTx}

theorem classify_row (hrow : row ∈ classifyHistoryTx base summary extraSentFee) :
    row.info.txidHex = hexEncode base.txid ∧ (row.info.fee = base.fee ∨
      row.info.txKind = .sent ∧ row.info.fee = saturatingAdd base.fee extraSentFee) := by
  simp only [classifyHistoryTx] at hrow
  split at hrow
  · obtain rfl := List.mem_singleton.mp hrow
    exact ⟨rfl,.inl rfl⟩
  · split at hrow
    · obtain rfl := List.mem_singleton.mp hrow
      exact ⟨rfl,.inl rfl⟩
    · split at hrow
      · simp only [fallbackRows] at hrow
        split at hrow
        · obtain rfl := List.mem_singleton.mp hrow
          exact ⟨rfl,.inl rfl⟩
        · split at hrow
          · cases hrow
          · split at hrow
            · obtain rfl := List.mem_singleton.mp hrow
              exact ⟨rfl,.inl rfl⟩
            · obtain rfl := List.mem_singleton.mp hrow
              exact ⟨rfl,.inl rfl⟩
      · rcases List.mem_append.mp hrow with hrow | hrow
        · split at hrow
          · obtain rfl := List.mem_singleton.mp hrow
            exact ⟨rfl,.inr ⟨rfl,rfl⟩⟩
          · cases hrow
        · split at hrow
          · obtain rfl := List.mem_singleton.mp hrow
            exact ⟨rfl,.inl rfl⟩
          · cases hrow

theorem classify_sent (hshielding : base.isShielding = false) (hsent : 0 < summary.sent.amount) :
    (((classifyHistoryTx base summary extraSentFee).filter isRetained).map ClassifiedTx.info).filter
        (fun info => decide (info.txKind = .sent)) =
      [(buildClassifiedTxWithFee base .sent summary.sent.amount summary.sent.displayPool
        summary.sent.hasTransparent 1 (saturatingAdd base.fee extraSentFee)).info] := by
  have hinternal : isInternalIronwoodTransition base summary = false := by
    simp [isInternalIronwoodTransition,Nat.ne_of_gt hsent]
  have hreceiving : receivingTxKind base ≠ .sent := by
    rcases receivingTxKind_eq base with hkind | hkind <;> simp [hkind]
  by_cases hreceived : 0 < summary.received.amount
  · simp [classifyHistoryTx,hshielding,hinternal,amountRows,hsent,hreceived,isRetained,
      buildClassifiedTx,buildClassifiedTxWithFee,hreceiving]
  · simp [classifyHistoryTx,hshielding,hinternal,amountRows,hsent,hreceived,isRetained,
      buildClassifiedTxWithFee]

theorem digitChar_inj : ∀ a < 16, ∀ b < 16, Nat.digitChar a = Nat.digitChar b → a = b := by
  decide

theorem hexEncode_injective : Function.Injective hexEncode := by
  intro bytes bytes' h
  induction bytes generalizing bytes' with
  | nil =>
    cases bytes' with
    | nil => rfl
    | cons byte' bytes' => simp [hexEncode] at h
  | cons byte bytes ih =>
    cases bytes' with
    | nil => simp [hexEncode] at h
    | cons byte' bytes' =>
      simp only [hexEncode,List.flatMap_cons,List.cons_append,List.nil_append,List.cons.injEq] at h
      have hbyte : byte.toNat < 256 := byte.toNat_lt
      have hbyte' : byte'.toNat < 256 := byte'.toNat_lt
      have hhigh := digitChar_inj _ (by omega) _ (by omega) h.1
      have hlow := digitChar_inj _ (by omega) _ (by omega) h.2.1
      have heq : byte = byte' := UInt8.toNat_inj.mp (by omega)
      rw [heq,ih h.2.2]

end Rows

/-- What is suppressed and what fees are handed on, as pairs of the transaction ids of a funding step
and a later payment of the same key: nobody is in two pairs, and for no key there are more pairs. -/
structure FundingMatching (rows : HistoryRows) (account : Bytes)
    (matched : SuppressedFundingStepFees) (pairs : List (Int × Int)) : Prop where
  paired : ∀ pair ∈ pairs, pair.1 < pair.2 ∧ ∃ key, ∃ step ∈ rows.fundingSteps account key,
    ∃ send ∈ rows.externalSends account key,
      step.transactionId = pair.1 ∧ send.transactionId = pair.2
  steps_nodup : (pairs.map Prod.fst).Nodup
  sends_nodup : (pairs.map Prod.snd).Nodup
  apart : ∀ pair ∈ pairs, ∀ pair' ∈ pairs, pair.1 ≠ pair'.2
  maximum : ∀ key (other : Finset (Int × Int)),
    IsMatching ((rows.fundingSteps account key).map TxBase.transactionId)
      ((rows.externalSends account key).map TxBase.transactionId) other →
    other.card ≤ (pairs.filter fun pair => decide (pair.1 ∈
      (rows.fundingSteps account key).map TxBase.transactionId)).length
  suppressed : ∀ id, id ∈ matched.suppressedFundingTxids ↔ id ∈ pairs.map Prod.fst
  fees : ∀ pair ∈ pairs, ∀ base ∈ rows.bases, base.transactionId = pair.1 →
    matched.extraFeeByExternalTxid pair.2 = some base.fee
  unpaired : ∀ id, id ∉ pairs.map Prod.snd → matched.extraFeeByExternalTxid id = none

section Matching

variable (rows : HistoryRows) (account : Bytes) {key : FundingStepMatchKey} {base : TxBase}

theorem summaries_eq (h : base ∈ rows.bases) :
    ((rows.summaries account) base.txid).getD .empty = rows.summary account base := by
  rw [HistoryRows.summaries,summariesOf_eq rows.outputsByTxid account rows.txids h]
  rfl

theorem mem_fundingSteps {step : Int × Nat} : (∃ base ∈ rows.bases,
      fundingStep (rows.summaries account) (rows.externalSendKeys account) base = some (key,step)) ↔
    ∃ base ∈ rows.fundingSteps account key, step = (base.transactionId,base.fee) := by
  constructor
  · rintro ⟨base,hbase,h⟩
    obtain ⟨hstep,hsuppress,hkey⟩ := fundingStep_eq_some h
    rw [summaries_eq rows account hbase] at hsuppress hkey
    exact ⟨base,by simp [HistoryRows.fundingSteps,hbase,hsuppress,hkey],hstep⟩
  · rintro ⟨base,h,rfl⟩
    simp only [HistoryRows.fundingSteps,List.mem_filter,Bool.and_eq_true,decide_eq_true_eq] at h
    exact ⟨base,h.1,by simp [fundingStep,summaries_eq rows account h.1,h.2.1,h.2.2]⟩

theorem mem_externalSends {id : Int} : (∃ base ∈ rows.bases,
      externalSend (rows.summaries account) base = some (key,id)) ↔
    ∃ base ∈ rows.externalSends account key, id = base.transactionId := by
  simp only [externalSend_eq_some,HistoryRows.externalSends,List.mem_filter,decide_eq_true_eq]
  constructor
  · rintro ⟨base,hbase,hid,hkey⟩
    exact ⟨base,⟨hbase,by rwa [summaries_eq rows account hbase] at hkey⟩,hid⟩
  · rintro ⟨base,⟨hbase,hkey⟩,hid⟩
    exact ⟨base,hbase,hid,by rwa [summaries_eq rows account hbase]⟩

/-- The pairs of one key, and those of the keys in the order the hash map gives them. -/
def HistoryRows.keyPairs (key : FundingStepMatchKey) : List ((Int × Nat) × Int) :=
  Activity.keyPairs (rows.summaries account) (rows.externalSendKeys account) rows.bases key

def HistoryRows.allPairs (keyOrder : KeyOrder) : List ((Int × Nat) × Int) :=
  (keyOrder.order (Groups.collect (fundingStep (rows.summaries account)
    (rows.externalSendKeys account)) rows.bases).keys).flatMap (rows.keyPairs account)

variable (keyOrder : KeyOrder)

theorem matchedFees_eq : matchedFees keyOrder rows.bases rows.outputsByTxid account =
    (rows.allPairs account keyOrder).foldl SuppressedFundingStepFees.insert .empty :=
  buildSuppressedFundingStepFees_eq keyOrder rows.bases _ _

theorem keyPairs_sublist (key : FundingStepMatchKey) :
    (rows.keyPairs account key).Sublist (rows.allPairs account keyOrder) := by
  by_cases hkey : key ∈ keyOrder.order (Groups.collect (fundingStep (rows.summaries account)
      (rows.externalSendKeys account)) rows.bases).keys
  · rw [HistoryRows.allPairs,List.flatMap_def]
    exact List.sublist_flatten_of_mem (List.mem_map_of_mem hkey)
  · -- a key that is not in use has no funding step
    rw [(keyOrder.perm _).mem_iff,Groups.mem_keys_collect,not_not] at hkey
    have hnil : rows.keyPairs account key = [] := by
      rw [HistoryRows.keyPairs,Activity.keyPairs,sortedSteps,hkey]
      rfl
    rw [hnil]
    exact List.nil_sublist _

theorem mem_allPairs {pair : (Int × Nat) × Int} :
    pair ∈ rows.allPairs account keyOrder ↔ ∃ key, pair ∈ rows.keyPairs account key := by
  constructor
  · intro h
    obtain ⟨key,_,hpair⟩ := List.mem_flatMap.mp h
    exact ⟨key,hpair⟩
  · rintro ⟨key,hpair⟩
    exact (keyPairs_sublist rows account keyOrder key).subset hpair

theorem keyPairs_rows {pair : (Int × Nat) × Int} (h : pair ∈ rows.keyPairs account key) :
    pair.1.1 < pair.2 ∧ (∃ step ∈ rows.fundingSteps account key,
        pair.1 = (step.transactionId,step.fee)) ∧
      ∃ send ∈ rows.externalSends account key, pair.2 = send.transactionId := by
  obtain ⟨hstep,hsend⟩ := keyPairs_bases h
  exact ⟨stepPairs_lt h,(mem_fundingSteps rows account).mp hstep,
    (mem_externalSends rows account).mp hsend⟩

theorem fundingStep_ne_externalSend {key' : FundingStepMatchKey} {step send : TxBase}
    (hstep : step ∈ rows.fundingSteps account key) (hsend : send ∈ rows.externalSends account key') :
    step.transactionId ≠ send.transactionId := by
  simp only [HistoryRows.fundingSteps,HistoryRows.externalSends,List.mem_filter,Bool.and_eq_true,
    decide_eq_true_eq] at hstep hsend
  intro heq
  obtain rfl := eq_of_transactionId rows.transactionIds hstep.1 hsend.1 heq
  have hsent := externalIsSent _ (rows.values step hstep.1) (hasExternal_of_key hsend.2)
  exact absurd (sent_zero_of_suppress hstep.2.1) (Nat.ne_of_gt hsent.2)

theorem allPairs_nodup :
    ((rows.allPairs account keyOrder).map fun pair => pair.1.1).Nodup ∧
      ((rows.allPairs account keyOrder).map Prod.snd).Nodup := by
  have hkeys := (keyOrder.perm _).nodup_iff.mpr (Groups.keys_collect_nodup (fundingStep
    (rows.summaries account) (rows.externalSendKeys account)) rows.bases)
  exact ⟨allPairs_steps_nodup rows.transactionIds hkeys,
    allPairs_sends_nodup rows.transactionIds hkeys⟩

theorem card_le_pairs {other : Finset (Int × Int)}
    (h : IsMatching ((rows.fundingSteps account key).map TxBase.transactionId)
      ((rows.externalSends account key).map TxBase.transactionId) other) :
    other.card ≤ (rows.keyPairs account key).length := by
  refine card_le_keyPairs rows.transactionIds ⟨?_,?_,h.lt,h.low_inj,h.high_inj⟩
  · intro pair hpair
    obtain ⟨step,hstep,hid⟩ := List.mem_map.mp (h.low_mem pair hpair)
    have hmem := mem_sortedSteps.mpr ((mem_fundingSteps rows account).mpr ⟨step,hstep,rfl⟩)
    exact List.mem_map.mpr ⟨_,hmem,hid⟩
  · intro pair hpair
    obtain ⟨send,hsend,hid⟩ := List.mem_map.mp (h.high_mem pair hpair)
    exact mem_sortedSends.mpr ((mem_externalSends rows account).mpr ⟨send,hsend,hid.symm⟩)

theorem matchedFees_matching :
    FundingMatching rows account (matchedFees keyOrder rows.bases rows.outputsByTxid account)
      ((rows.allPairs account keyOrder).map fun pair => (pair.1.1,pair.2)) := by
  obtain ⟨hsteps,hsends⟩ := allPairs_nodup rows account keyOrder
  rw [matchedFees_eq]
  refine ⟨?_,by simpa [Function.comp_def] using hsteps,by simpa [Function.comp_def] using hsends,
    ?_,?_,?_,?_,?_⟩
  · intro pair hpair
    obtain ⟨p,hp,rfl⟩ := List.mem_map.mp hpair
    obtain ⟨key,hkey⟩ := (mem_allPairs rows account keyOrder).mp hp
    obtain ⟨hlt,⟨step,hstep,hid⟩,send,hsend,hid'⟩ := keyPairs_rows rows account hkey
    exact ⟨hlt,key,step,hstep,send,hsend,by rw [hid],hid'.symm⟩
  · intro pair hpair pair' hpair'
    obtain ⟨p,hp,rfl⟩ := List.mem_map.mp hpair
    obtain ⟨p',hp',rfl⟩ := List.mem_map.mp hpair'
    obtain ⟨key,hkey⟩ := (mem_allPairs rows account keyOrder).mp hp
    obtain ⟨key',hkey'⟩ := (mem_allPairs rows account keyOrder).mp hp'
    obtain ⟨_,⟨step,hstep,hid⟩,_⟩ := keyPairs_rows rows account hkey
    obtain ⟨_,_,send,hsend,hid'⟩ := keyPairs_rows rows account hkey'
    have hne := fundingStep_ne_externalSend rows account hstep hsend
    simpa [hid,hid'] using hne
  · intro key other hother
    have hall : ∀ pair ∈ rows.keyPairs account key,
        pair.1.1 ∈ (rows.fundingSteps account key).map TxBase.transactionId := by
      intro pair hpair
      obtain ⟨_,⟨step,hstep,hid⟩,_⟩ := keyPairs_rows rows account hpair
      exact List.mem_map.mpr ⟨step,hstep,by rw [hid]⟩
    have hsub := ((keyPairs_sublist rows account keyOrder key).map
      fun pair => (pair.1.1,pair.2)).filter fun pair => decide (pair.1 ∈
        (rows.fundingSteps account key).map TxBase.transactionId)
    have hkept : (((rows.keyPairs account key).map fun pair => (pair.1.1,pair.2)).filter fun pair =>
        decide (pair.1 ∈ (rows.fundingSteps account key).map TxBase.transactionId)) =
        (rows.keyPairs account key).map fun pair => (pair.1.1,pair.2) := by
      refine List.filter_eq_self.mpr ?_
      intro pair hpair
      obtain ⟨p,hp,rfl⟩ := List.mem_map.mp hpair
      exact decide_eq_true (hall p hp)
    have hle := hsub.length_le
    rw [hkept,List.length_map] at hle
    exact (card_le_pairs rows account hother).trans hle
  · intro id
    simp [mem_suppressed_foldl,SuppressedFundingStepFees.empty]
  · intro pair hpair base hbase hid
    obtain ⟨p,hp,rfl⟩ := List.mem_map.mp hpair
    obtain ⟨key,hkey⟩ := (mem_allPairs rows account keyOrder).mp hp
    obtain ⟨_,⟨step,hstep,hpairid⟩,_⟩ := keyPairs_rows rows account hkey
    have hmem : step ∈ rows.bases := List.mem_of_mem_filter hstep
    obtain rfl : base = step := eq_of_transactionId rows.transactionIds hbase hmem
      (by rw [hid,hpairid])
    rw [extraFee_foldl hsends hp rfl,hpairid]
    have hfee := rows.fees base hbase
    simp only [saturatingAdd]
    congr 1
    omega
  · intro id hid
    rw [extraFee_foldl_of_notMem (by simpa [Function.comp_def] using hid)]
    rfl

end Matching

section Order

theorem summariesOf_none {bases : List TxBase} (outputsByTxid : Bytes → Option (List TxOutput))
    (account : Bytes) {txid : Bytes} (h : txid ∉ bases.map TxBase.txid) :
    summariesOf bases outputsByTxid account txid = none := by
  induction bases using List.reverseRecOn with
  | nil => rfl
  | append_singleton bases last ih =>
    simp only [List.map_append,List.map_cons,List.map_nil,List.mem_append,List.mem_singleton,
      not_or] at h
    rw [summariesOf,List.foldl_append,List.foldl_cons,List.foldl_nil,Function.update_of_ne h.2]
    exact ih h.1

variable (rows : HistoryRows) (account : Bytes) {bases' : List TxBase}

/-- The same rows in another order. -/
def HistoryRows.reordered (bases' : List TxBase) (h : bases'.Perm rows.bases) : HistoryRows where
  bases := bases'
  outputsByTxid := rows.outputsByTxid
  transactionIds := (h.map TxBase.transactionId).nodup_iff.mpr rows.transactionIds
  txids := (h.map TxBase.txid).nodup_iff.mpr rows.txids
  fees base hbase := rows.fees base (h.subset hbase)
  values base hbase := rows.values base (h.subset hbase)

variable (h : bases'.Perm rows.bases)

theorem summaries_reordered : (rows.reordered bases' h).summaries account = rows.summaries account := by
  funext txid
  by_cases hmem : txid ∈ bases'.map TxBase.txid
  · obtain ⟨base,hbase,rfl⟩ := List.mem_map.mp hmem
    have htxids := (rows.reordered bases' h).txids
    exact (summariesOf_eq rows.outputsByTxid account htxids hbase).trans
      (summariesOf_eq rows.outputsByTxid account rows.txids (h.subset hbase)).symm
  · have hmem' : txid ∉ rows.bases.map TxBase.txid := fun hin =>
      hmem ((h.map TxBase.txid).mem_iff.mpr hin)
    exact (summariesOf_none rows.outputsByTxid account hmem).trans
      (summariesOf_none rows.outputsByTxid account hmem').symm

theorem keyPairs_reordered (key : FundingStepMatchKey) :
    (rows.reordered bases' h).keyPairs account key = rows.keyPairs account key := by
  have hkeys : ∀ key, key ∈ (rows.reordered bases' h).externalSendKeys account ↔
      key ∈ rows.externalSendKeys account := by
    intro key
    have hsummaries := summaries_reordered rows account h
    simp only [HistoryRows.externalSendKeys,buildExternalSendKeys,hsummaries]
    exact (h.filterMap _).mem_iff
  rw [HistoryRows.keyPairs,HistoryRows.keyPairs,summaries_reordered,keyPairs,sortedSteps,
    fundingStep_congr hkeys]
  exact keyPairs_perm rows.transactionIds h

theorem matchedFees_reordered (h : bases'.Perm rows.bases) (keyOrder keyOrder' : KeyOrder) :
    (∀ id, id ∈ (matchedFees keyOrder' bases' rows.outputsByTxid account).suppressedFundingTxids ↔
      id ∈ (matchedFees keyOrder rows.bases rows.outputsByTxid account).suppressedFundingTxids) ∧
    (matchedFees keyOrder' bases' rows.outputsByTxid account).extraFeeByExternalTxid =
      (matchedFees keyOrder rows.bases rows.outputsByTxid account).extraFeeByExternalTxid := by
  have heq : matchedFees keyOrder' bases' rows.outputsByTxid account =
      ((rows.reordered bases' h).allPairs account keyOrder').foldl
        SuppressedFundingStepFees.insert .empty :=
    matchedFees_eq (rows.reordered bases' h) account keyOrder'
  have hmem : ∀ pair, pair ∈ (rows.reordered bases' h).allPairs account keyOrder' ↔
      pair ∈ rows.allPairs account keyOrder := by
    intro pair
    simp only [mem_allPairs,keyPairs_reordered]
  rw [heq,matchedFees_eq]
  constructor
  · intro id
    simp only [mem_suppressed_foldl,hmem]
  · funext id
    by_cases hid : id ∈ (rows.allPairs account keyOrder).map Prod.snd
    · obtain ⟨pair,hpair,rfl⟩ := List.mem_map.mp hid
      rw [extraFee_foldl (allPairs_nodup rows account keyOrder).2 hpair rfl,
        extraFee_foldl (allPairs_nodup (rows.reordered bases' h) account keyOrder').2
          ((hmem pair).mpr hpair) rfl]
    · have hid' : id ∉ ((rows.reordered bases' h).allPairs account keyOrder').map Prod.snd := by
        intro hin
        obtain ⟨pair,hpair,rfl⟩ := List.mem_map.mp hin
        exact hid (List.mem_map_of_mem ((hmem pair).mp hpair))
      rw [extraFee_foldl_of_notMem hid,extraFee_foldl_of_notMem hid']

end Order

/-- Suppressed transactions have no row; each of their payments has one row for what it sent, with
both fees; every other row has the fee of its transaction. -/
structure FeesReattached (rows : HistoryRows) (pairs : List (Int × Int))
    (infos : List TransactionInfo) : Prop where
  shown : ∀ info ∈ infos, ∃ base ∈ rows.bases, info.txidHex = hexEncode base.txid
  hidden : ∀ pair ∈ pairs, ∀ step ∈ rows.bases, step.transactionId = pair.1 →
    ∀ info ∈ infos, info.txidHex ≠ hexEncode step.txid
  added : ∀ pair ∈ pairs, ∀ step ∈ rows.bases, ∀ send ∈ rows.bases, step.transactionId = pair.1 →
    send.transactionId = pair.2 → ∃ info, info.fee = saturatingAdd send.fee step.fee ∧
      infos.filter (fun info => decide (info.txidHex = hexEncode send.txid) &&
        decide (info.txKind = .sent)) = [info]
  kept : ∀ base ∈ rows.bases, ∀ info ∈ infos, info.txidHex = hexEncode base.txid →
    (info.txKind ≠ .sent ∨ base.transactionId ∉ pairs.map Prod.snd) → info.fee = base.fee

section Fees

variable (rows : HistoryRows) (account : Bytes) (keyOrder : KeyOrder)

/-- The rows that one transaction has in the end. -/
def shownRows (base : TxBase) : List TransactionInfo :=
  ((visibleRows (rows.summaries account)
    (matchedFees keyOrder rows.bases rows.outputsByTxid account) (fun _ => none) base).filter
      isRetained).map ClassifiedTx.info

theorem assemble_perm : (assembleHistoryWithNames keyOrder rows.bases rows.outputsByTxid account none
    fun _ => none).Perm (rows.bases.flatMap (shownRows rows account keyOrder)) := by
  refine ((List.perm_insertionSort _ _).map ClassifiedTx.info).trans ?_
  rw [List.filter_flatMap,List.map_flatMap]
  rfl

variable {base : TxBase} {info : TransactionInfo}

theorem mem_assemble : info ∈ assembleHistoryWithNames keyOrder rows.bases rows.outputsByTxid account
      none (fun _ => none) ↔ ∃ base ∈ rows.bases, info ∈ shownRows rows account keyOrder base := by
  rw [(assemble_perm rows account keyOrder).mem_iff,List.mem_flatMap]

theorem shownRows_of_suppressed (h : base.transactionId ∈
      (matchedFees keyOrder rows.bases rows.outputsByTxid account).suppressedFundingTxids) :
    shownRows rows account keyOrder base = [] := by
  simp [shownRows,visibleRows,h]

/-- The fee handed on to a transaction's row for what it sent. -/
def extraSentFee (base : TxBase) : Nat :=
  if (rows.summary account base).hasExternalTransparentSend then
    ((matchedFees keyOrder rows.bases rows.outputsByTxid account).extraFeeByExternalTxid
      base.transactionId).getD 0
  else 0

theorem shownRows_of_shown (hbase : base ∈ rows.bases) (h : base.transactionId ∉
      (matchedFees keyOrder rows.bases rows.outputsByTxid account).suppressedFundingTxids) :
    shownRows rows account keyOrder base = ((classifyHistoryTx base (rows.summary account base)
      (extraSentFee rows account keyOrder base)).filter isRetained).map ClassifiedTx.info := by
  simp [shownRows,visibleRows,h,summaries_eq rows account hbase,extraSentFee]

theorem shownRows_row (hbase : base ∈ rows.bases)
    (hinfo : info ∈ shownRows rows account keyOrder base) :
    info.txidHex = hexEncode base.txid ∧ (info.fee = base.fee ∨ info.txKind = .sent ∧
      info.fee = saturatingAdd base.fee (extraSentFee rows account keyOrder base)) := by
  by_cases h : base.transactionId ∈
      (matchedFees keyOrder rows.bases rows.outputsByTxid account).suppressedFundingTxids
  · rw [shownRows_of_suppressed rows account keyOrder h] at hinfo
    cases hinfo
  · rw [shownRows_of_shown rows account keyOrder hbase h] at hinfo
    obtain ⟨row,hrow,heq⟩ := List.mem_map.mp hinfo
    rw [← heq]
    exact classify_row (List.mem_of_mem_filter hrow)

theorem eq_of_hex {base' : TxBase} (hbase : base ∈ rows.bases) (hbase' : base' ∈ rows.bases)
    (h : hexEncode base.txid = hexEncode base'.txid) : base = base' :=
  List.inj_on_of_nodup_map rows.txids hbase hbase' (hexEncode_injective h)

theorem saturatingAdd_zero (hbase : base ∈ rows.bases) : saturatingAdd base.fee 0 = base.fee := by
  have hfee := rows.fees base hbase
  simp only [saturatingAdd]
  omega

theorem extraSentFee_unpaired (h : (matchedFees keyOrder rows.bases rows.outputsByTxid
      account).extraFeeByExternalTxid base.transactionId = none) :
    extraSentFee rows account keyOrder base = 0 := by
  simp [extraSentFee,h]

theorem sent_row {pairs : List (Int × Int)} (hmatching : FundingMatching rows account
      (matchedFees keyOrder rows.bases rows.outputsByTxid account) pairs)
    {pair : Int × Int} (hpair : pair ∈ pairs) {step send : TxBase} (hstep : step ∈ rows.bases)
    (hsend : send ∈ rows.bases) (hstepid : step.transactionId = pair.1)
    (hsendid : send.transactionId = pair.2) :
    ∃ info, info.fee = saturatingAdd send.fee step.fee ∧
      (shownRows rows account keyOrder send).filter
        (fun info => decide (info.txKind = .sent)) = [info] := by
  have hshown : send.transactionId ∉
      (matchedFees keyOrder rows.bases rows.outputsByTxid account).suppressedFundingTxids := by
    intro hin
    obtain ⟨pair',hpair',hid⟩ := List.mem_map.mp ((hmatching.suppressed _).mp hin)
    exact hmatching.apart pair' hpair' pair hpair (hid.trans hsendid)
  obtain ⟨_,key,_,_,send',hsend',_,hid⟩ := hmatching.paired pair hpair
  simp only [HistoryRows.externalSends,List.mem_filter,decide_eq_true_eq] at hsend'
  obtain rfl : send = send' := eq_of_transactionId rows.transactionIds hsend hsend'.1
    (hsendid.trans hid.symm)
  have hexternal := hasExternal_of_key hsend'.2
  have hsent : send.isShielding = false ∧ 0 < (rows.summary account send).sent.amount :=
    externalIsSent _ (rows.values send hsend) hexternal
  have hextra : extraSentFee rows account keyOrder send = step.fee := by
    simp [extraSentFee,hexternal,hsendid,hmatching.fees pair hpair step hstep hstepid]
  rw [shownRows_of_shown rows account keyOrder hsend hshown,
    classify_sent hsent.1 hsent.2,hextra]
  exact ⟨_,rfl,rfl⟩

theorem feesReattached {pairs : List (Int × Int)} (hmatching : FundingMatching rows account
      (matchedFees keyOrder rows.bases rows.outputsByTxid account) pairs) :
    FeesReattached rows pairs (assembleHistoryWithNames keyOrder rows.bases rows.outputsByTxid
      account none fun _ => none) where
  shown info hinfo := by
    obtain ⟨base,hbase,hin⟩ := (mem_assemble rows account keyOrder).mp hinfo
    exact ⟨base,hbase,(shownRows_row rows account keyOrder hbase hin).1⟩
  hidden pair hpair step hstep hid info hinfo hhex := by
    obtain ⟨base,hbase,hin⟩ := (mem_assemble rows account keyOrder).mp hinfo
    have hrow := shownRows_row rows account keyOrder hbase hin
    obtain rfl := eq_of_hex rows hbase hstep (hrow.1.symm.trans hhex)
    have hsuppressed := (hmatching.suppressed base.transactionId).mpr
      (List.mem_map.mpr ⟨pair,hpair,hid.symm⟩)
    rw [shownRows_of_suppressed rows account keyOrder hsuppressed] at hin
    cases hin
  added pair hpair step hstep send hsend hstepid hsendid := by
    obtain ⟨info,hfee,hrow⟩ := sent_row rows account keyOrder hmatching hpair hstep hsend hstepid
      hsendid
    refine ⟨info,hfee,List.perm_singleton.mp ?_⟩
    have hperm := (assemble_perm rows account keyOrder).filter fun info =>
      decide (info.txidHex = hexEncode send.txid) && decide (info.txKind = .sent)
    refine hperm.trans (List.Perm.of_eq ?_)
    rw [List.filter_flatMap,flatMap_eq_single (List.Nodup.of_map _ rows.txids) hsend]
    · rw [← hrow]
      refine List.filter_congr ?_
      intro own hown
      simp [(shownRows_row rows account keyOrder hsend hown).1]
    · intro base hbase hne
      refine List.filter_eq_nil_iff.mpr ?_
      intro own hown
      have hhex := (shownRows_row rows account keyOrder hbase hown).1
      simp only [Bool.and_eq_true,decide_eq_true_eq,not_and]
      intro heq
      exact absurd (eq_of_hex rows hbase hsend (hhex.symm.trans heq)) hne
  kept base hbase info hinfo hhex hkept := by
    obtain ⟨base',hbase',hin⟩ := (mem_assemble rows account keyOrder).mp hinfo
    have hrow := shownRows_row rows account keyOrder hbase' hin
    obtain rfl := eq_of_hex rows hbase' hbase (hrow.1.symm.trans hhex)
    rcases hrow.2 with hfee | ⟨hkind,hfee⟩
    · exact hfee
    · rcases hkept with hkept | hkept
      · exact absurd hkind hkept
      · rw [hfee,extraSentFee_unpaired rows account keyOrder (hmatching.unpaired _ hkept),
          saturatingAdd_zero rows hbase']

/-- The funding steps that are not shown are matched with later payments of the same key, as many as
can be and in no order's favour, and the fee of each is shown with its payment. -/
theorem fundingSteps_matched (rows : HistoryRows) (account : Bytes) :
    (∀ bases', bases'.Perm rows.bases → ∀ keyOrder keyOrder' : KeyOrder,
      (∀ id, id ∈ (matchedFees keyOrder' bases' rows.outputsByTxid account).suppressedFundingTxids ↔
        id ∈ (matchedFees keyOrder rows.bases rows.outputsByTxid account).suppressedFundingTxids) ∧
      (matchedFees keyOrder' bases' rows.outputsByTxid account).extraFeeByExternalTxid =
        (matchedFees keyOrder rows.bases rows.outputsByTxid account).extraFeeByExternalTxid) ∧
    ∀ keyOrder : KeyOrder, ∃ pairs,
      FundingMatching rows account (matchedFees keyOrder rows.bases rows.outputsByTxid account)
        pairs ∧
      FeesReattached rows pairs (assembleHistoryWithNames keyOrder rows.bases rows.outputsByTxid
        account none fun _ => none) := by
  constructor
  · intro bases' h keyOrder keyOrder'
    exact matchedFees_reordered rows account h keyOrder keyOrder'
  · intro keyOrder
    have hmatching := matchedFees_matching rows account keyOrder
    exact ⟨_,hmatching,feesReattached rows account keyOrder hmatching⟩

end Fees

end CoppiceWallet.Activity
