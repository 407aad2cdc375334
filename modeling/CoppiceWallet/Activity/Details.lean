import CoppiceWallet.Activity.History

/-! # Rows and their details -/

namespace CoppiceWallet.Activity

open CoppiceWallet.Store (Bytes)

def total (p : TxOutput → Bool) (outputs : List TxOutput) : Nat :=
  ((outputs.filter p).map TxOutput.value).sum

@[simp] theorem total_nil (p : TxOutput → Bool) : total p [] = 0 := rfl

theorem total_cons (p : TxOutput → Bool) (output : TxOutput) (outputs : List TxOutput) :
    total p (output :: outputs) = (if p output then output.value else 0) + total p outputs := by
  by_cases h : p output = true <;> simp [total,h]

theorem total_or {p q : TxOutput → Bool} (hdisjoint : ∀ output, p output = true → q output = false)
    (outputs : List TxOutput) :
    total (fun output => p output || q output) outputs = total p outputs + total q outputs := by
  induction outputs with
  | nil => rfl
  | cons output outputs ih =>
    rw [total_cons,total_cons,total_cons,ih]
    by_cases hp : p output = true
    · simp [hp,hdisjoint output hp]
      omega
    · simp [hp]
      omega

theorem total_mono {p q : TxOutput → Bool} (h : ∀ output, p output = true → q output = true)
    (outputs : List TxOutput) : total p outputs ≤ total q outputs := by
  induction outputs with
  | nil => rfl
  | cons output outputs ih =>
    rw [total_cons,total_cons]
    by_cases hp : p output = true
    · simp [hp,h output hp]
      omega
    · simp [hp]
      omega

theorem total_false (outputs : List TxOutput) : total (fun _ => false) outputs = 0 := by
  simp [total]

theorem total_congr {p q : TxOutput → Bool} (h : ∀ output, p output = q output)
    (outputs : List TxOutput) : total p outputs = total q outputs := by
  simp [total,funext h]

/-- A u64 stops at its greatest value. -/
def capped (n : Nat) : Nat := min n (u64Limit - 1)

theorem saturatingAdd_capped (a b : Nat) : saturatingAdd (capped a) b = capped (a + b) := by
  simp only [saturatingAdd,capped]
  omega

theorem capped_eq_iff {n : Nat} : capped n = n ↔ n < u64Limit := by
  simp only [capped,u64Limit]
  omega

@[simp] theorem capped_pos {n : Nat} : 0 < capped n ↔ 0 < n := by
  simp only [capped,u64Limit]
  omega

@[simp] theorem capped_eq_zero {n : Nat} : capped n = 0 ↔ n = 0 := by
  simp only [capped,u64Limit]
  omega

theorem amount_foldl (f : ActivitySummary → Nat) (p : TxOutput → Bool)
    {step : ActivitySummary → TxOutput → ActivitySummary}
    (hstep : ∀ summary output, f (step summary output) =
      if p output then saturatingAdd (f summary) output.value else f summary)
    (outputs : List TxOutput) (summary : ActivitySummary) (start : Nat)
    (hstart : f summary = capped start) :
    f (outputs.foldl step summary) = capped (start + total p outputs) := by
  induction outputs generalizing summary start with
  | nil => simpa using hstart
  | cons output outputs ih =>
    rw [List.foldl_cons,total_cons]
    by_cases hp : p output = true
    · have hnext := ih (step summary output) (start + output.value)
        (by rw [hstep,if_pos hp,hstart,saturatingAdd_capped])
      simpa [hp,Nat.add_assoc] using hnext
    · have hnext := ih (step summary output) start (by rw [hstep,if_neg hp,hstart])
      simpa [hp] using hnext

section Summary

variable (base : TxBase) (account : Bytes)

def addsToShielded (output : TxOutput) : Bool :=
  base.isShielding && (output.toOwn account && isShieldedPool output.outputPool)

def addsToTransition (output : TxOutput) : Bool :=
  !base.isShielding && isTransition base account output

def addsToSent (output : TxOutput) : Bool :=
  !base.isShielding && !isTransition base account output && visibleSent account output

def addsToReceived (output : TxOutput) : Bool :=
  !base.isShielding && !isTransition base account output && visibleReceived account output

variable {base account}

theorem summarizeOutput_amounts (summary : ActivitySummary) (output : TxOutput) :
    ((summarizeOutput base account summary output).shielded.amount =
      if addsToShielded base account output then
        saturatingAdd summary.shielded.amount output.value else summary.shielded.amount) ∧
    ((summarizeOutput base account summary output).internalIronwoodTransition.amount =
      if addsToTransition base account output then
        saturatingAdd summary.internalIronwoodTransition.amount output.value
      else summary.internalIronwoodTransition.amount) ∧
    ((summarizeOutput base account summary output).sent.amount =
      if addsToSent base account output then
        saturatingAdd summary.sent.amount output.value else summary.sent.amount) ∧
    (summarizeOutput base account summary output).received.amount =
      if addsToReceived base account output then
        saturatingAdd summary.received.amount output.value else summary.received.amount := by
  simp only [summarizeOutput,addsToShielded,addsToTransition,addsToSent,addsToReceived]
  by_cases hshielding : base.isShielding = true
  · by_cases howned : (output.toOwn account && isShieldedPool output.outputPool) = true
    · simp [hshielding,howned]
    · simp [hshielding,howned]
  · by_cases htransition : isTransition base account output = true
    · simp [hshielding,htransition]
    · simp [hshielding,htransition,apply_ite ActivityAmounts.amount]

variable (base account) (outputs : List TxOutput)

@[simp] theorem shielded_summarize : (summarizeActivityOutputs base outputs account).shielded.amount =
    capped (total (addsToShielded base account) outputs) := by
  have hfold := amount_foldl (fun summary => summary.shielded.amount) (addsToShielded base account)
    (fun summary output => (summarizeOutput_amounts summary output).1) outputs .empty 0 rfl
  simpa [summarizeActivityOutputs] using hfold

@[simp] theorem transition_summarize :
    (summarizeActivityOutputs base outputs account).internalIronwoodTransition.amount =
      capped (total (addsToTransition base account) outputs) := by
  have hfold := amount_foldl (fun summary => summary.internalIronwoodTransition.amount) (addsToTransition base account)
    (fun summary output => (summarizeOutput_amounts summary output).2.1) outputs .empty 0 rfl
  simpa [summarizeActivityOutputs] using hfold

@[simp] theorem sent_summarize : (summarizeActivityOutputs base outputs account).sent.amount =
    capped (total (addsToSent base account) outputs) := by
  have hfold := amount_foldl (fun summary => summary.sent.amount) (addsToSent base account)
    (fun summary output => (summarizeOutput_amounts summary output).2.2.1) outputs .empty 0 rfl
  simpa [summarizeActivityOutputs] using hfold

@[simp] theorem received_summarize : (summarizeActivityOutputs base outputs account).received.amount =
    capped (total (addsToReceived base account) outputs) := by
  have hfold := amount_foldl (fun summary => summary.received.amount) (addsToReceived base account)
    (fun summary output => (summarizeOutput_amounts summary output).2.2.2) outputs .empty 0 rfl
  simpa [summarizeActivityOutputs] using hfold

/-- The sum of the outputs shown in the details of a row. -/
def detailTotal (kind : TxKind) : Nat :=
  total (fun output => detailIncludesOutput base output account kind) outputs

theorem detailTotal_shielded : detailTotal base account outputs .shielded =
    total (addsToShielded base account) outputs := by
  apply total_congr
  intro output
  simp [detailIncludesOutput,addsToShielded,Bool.and_assoc]

theorem detailTotal_migration : detailTotal base account outputs .migration =
    total (addsToTransition base account) outputs := by
  apply total_congr
  intro output
  simp [detailIncludesOutput,addsToTransition,isTransition,Bool.and_assoc]

theorem detailTotal_sent : detailTotal base account outputs .sent =
    total (addsToSent base account) outputs +
      total (fun output => addsToTransition base account output && isUserVisibleSelfOutput output)
        outputs := by
  rw [← total_or]
  · apply total_congr
    intro output
    simp only [detailIncludesOutput,addsToSent,addsToTransition,isTransition,visibleSent]
    cases base.isShielding <;> cases output.fromOwn account <;> cases output.toOwn account <;>
      cases base.spentOrchardNote <;> cases isIronwoodOutput output <;>
      cases isUserVisibleSelfOutput output <;> rfl
  · intro output h
    simp only [addsToSent,Bool.and_eq_true,Bool.not_eq_true'] at h
    simp [addsToTransition,h.1.2]

theorem detailTotal_received {kind : TxKind} (hkind : kind = .received ∨ kind = .receiving) :
    detailTotal base account outputs kind = total (addsToReceived base account) outputs +
      total (fun output => addsToTransition base account output && isUserVisibleSelfOutput output)
        outputs := by
  rw [← total_or]
  · apply total_congr
    intro output
    rcases hkind with rfl | rfl
    all_goals
      simp only [detailIncludesOutput,addsToReceived,addsToTransition,isTransition,visibleReceived]
      cases base.isShielding <;> cases output.fromOwn account <;> cases output.toOwn account <;>
        cases base.spentOrchardNote <;> cases isIronwoodOutput output <;>
        cases isUserVisibleSelfOutput output <;> rfl
  · intro output h
    simp only [addsToReceived,Bool.and_eq_true,Bool.not_eq_true'] at h
    simp [addsToTransition,h.1.2]

theorem visibleTransition_le :
    total (fun output => addsToTransition base account output && isUserVisibleSelfOutput output)
      outputs ≤ total (addsToTransition base account) outputs := by
  apply total_mono
  intro output h
  exact (Bool.and_eq_true_iff.mp h).1

end Summary

/-- The row of this kind is built from output amounts. -/
def FromOutputs (summary : ActivitySummary) : TxKind → Prop
  | .shielded => 0 < summary.shielded.amount
  | .migration => 0 < summary.internalIronwoodTransition.amount
  | .sent => 0 < summary.sent.amount
  | .received | .receiving => 0 < summary.received.amount
  | .unknown | .names _ => False

/-- The kinds of the rows that a transaction may have. -/
def rowKinds (base : TxBase) : List TxKind :=
  [.shielded,.migration,.sent,receivingTxKind base]

/-- The details of every row built from outputs add up to its amount, and details without such a row
add up to nothing, unless the transaction is shown as a migration. -/
structure DetailsAgree (base : TxBase) (outputs : List TxOutput) (account : Bytes)
    (extraSentFee : Nat) : Prop where
  shown : ∀ row ∈ classifyHistoryTx base (summarizeActivityOutputs base outputs account) extraSentFee,
    FromOutputs (summarizeActivityOutputs base outputs account) row.info.txKind →
      detailTotal base account outputs row.info.txKind = row.info.displayAmount
  hidden : ∀ kind ∈ rowKinds base,
    (∀ row ∈ classifyHistoryTx base (summarizeActivityOutputs base outputs account) extraSentFee,
      row.info.txKind = kind →
        ¬FromOutputs (summarizeActivityOutputs base outputs account) kind) →
    detailTotal base account outputs kind = 0 ∨
      ∃ row ∈ classifyHistoryTx base (summarizeActivityOutputs base outputs account) extraSentFee,
        row.info.txKind = .migration

/-- No total exceeds a u64, and outputs that move from Orchard to Ironwood either have no value or
stand alone in a transaction that spends. -/
def TransitionsStandAlone (base : TxBase) (outputs : List TxOutput) (account : Bytes) : Prop :=
  (base.isShielding = true → total (addsToShielded base account) outputs < u64Limit) ∧
  (base.isShielding = false →
    total (addsToSent base account) outputs < u64Limit ∧
    total (addsToReceived base account) outputs < u64Limit ∧
    (total (addsToTransition base account) outputs = 0 ∨
      total (addsToTransition base account) outputs < u64Limit ∧ 0 < base.totalSpent ∧
        total (addsToSent base account) outputs = 0 ∧
        total (addsToReceived base account) outputs = 0))

section Agreement

variable {base : TxBase} {outputs : List TxOutput} {account : Bytes} {extraSentFee : Nat}

theorem receivingTxKind_eq (base : TxBase) :
    receivingTxKind base = .received ∨ receivingTxKind base = .receiving := by
  unfold receivingTxKind
  split
  · exact .inr rfl
  · exact .inl rfl

theorem total_addsTo_of_shielding (outputs : List TxOutput) (account : Bytes)
    (h : base.isShielding = true) :
    total (addsToTransition base account) outputs = 0 ∧
      total (addsToSent base account) outputs = 0 ∧
      total (addsToReceived base account) outputs = 0 := by
  refine ⟨?_,?_,?_⟩
  · exact (total_congr (by simp [addsToTransition,h]) outputs).trans (total_false outputs)
  · exact (total_congr (by simp [addsToSent,h]) outputs).trans (total_false outputs)
  · exact (total_congr (by simp [addsToReceived,h]) outputs).trans (total_false outputs)

theorem total_addsToShielded (h : base.isShielding = false) :
    total (addsToShielded base account) outputs = 0 :=
  (total_congr (by simp [addsToShielded,h]) outputs).trans (total_false outputs)

theorem detailsAgree_of_shielding (h : base.isShielding = true) :
    DetailsAgree base outputs account extraSentFee ↔
      total (addsToShielded base account) outputs < u64Limit := by
  obtain ⟨htransition,hsent,hreceived⟩ := total_addsTo_of_shielding outputs account h
  have hvisible := visibleTransition_le base account outputs
  constructor
  · intro hagree
    by_cases hzero : total (addsToShielded base account) outputs = 0
    · simp [hzero,u64Limit]
    · have hshown := hagree.shown (buildClassifiedTx base .shielded
        (capped (total (addsToShielded base account) outputs)) .shielded false 0)
        (by simp [classifyHistoryTx,h,Nat.pos_of_ne_zero hzero])
        (by simp [FromOutputs,buildClassifiedTx,buildClassifiedTxWithFee,Nat.pos_of_ne_zero hzero])
      rw [show (buildClassifiedTx base .shielded _ _ _ _).info.txKind = .shielded from rfl,
        detailTotal_shielded] at hshown
      exact capped_eq_iff.mp hshown.symm
  · intro hlt
    refine ⟨?_,?_⟩
    · intro row hrow hfrom
      simp only [classifyHistoryTx,h,if_true,List.mem_singleton] at hrow
      subst hrow
      have hpos : 0 < total (addsToShielded base account) outputs := by
        simpa [FromOutputs,buildClassifiedTx,buildClassifiedTxWithFee] using hfrom
      simp [buildClassifiedTx,buildClassifiedTxWithFee,detailTotal_shielded,hpos,
        capped_eq_iff.mpr hlt]
    · intro kind hkind hnone
      left
      simp only [rowKinds,List.mem_cons,List.not_mem_nil,or_false] at hkind
      rcases hkind with rfl | rfl | rfl | rfl
      · by_contra hne
        refine hnone _ (by simp only [classifyHistoryTx,h,if_true]; exact List.mem_singleton_self _)
          rfl ?_
        rw [detailTotal_shielded] at hne
        simpa [FromOutputs] using Nat.pos_of_ne_zero hne
      · rw [detailTotal_migration,htransition]
      · rw [detailTotal_sent]
        omega
      · rw [detailTotal_received base account outputs (receivingTxKind_eq base)]
        omega

theorem detailsAgree_of_migration
    (h : isInternalIronwoodTransition base (summarizeActivityOutputs base outputs account) = true) :
    DetailsAgree base outputs account extraSentFee ↔
      total (addsToTransition base account) outputs < u64Limit := by
  have hrows : classifyHistoryTx base (summarizeActivityOutputs base outputs account) extraSentFee =
      [buildClassifiedTx base .migration (capped (total (addsToTransition base account) outputs))
        .ironwood false 1] := by
    have hshielding : base.isShielding = false := by
      simp only [isInternalIronwoodTransition,Bool.and_eq_true,Bool.not_eq_true'] at h
      exact h.1.1.1.1.1
    simp [classifyHistoryTx,hshielding,h]
  have hpos : 0 < total (addsToTransition base account) outputs := by
    simp only [isInternalIronwoodTransition,Bool.and_eq_true,decide_eq_true_eq] at h
    simpa using h.1.1.2
  constructor
  · intro hagree
    have hshown := hagree.shown _ (by rw [hrows]; exact List.mem_singleton_self _)
      (by simpa [FromOutputs,buildClassifiedTx,buildClassifiedTxWithFee] using hpos)
    have hshown : detailTotal base account outputs .migration =
        capped (total (addsToTransition base account) outputs) := hshown
    rw [detailTotal_migration] at hshown
    exact capped_eq_iff.mp hshown.symm
  · intro hlt
    refine ⟨?_,?_⟩
    · intro row hrow _
      rw [hrows,List.mem_singleton] at hrow
      subst hrow
      show detailTotal base account outputs .migration = capped _
      rw [detailTotal_migration,capped_eq_iff.mpr hlt]
    · intro kind _ _
      exact .inr ⟨_,by rw [hrows]; exact List.mem_singleton_self _,rfl⟩

variable {summary : ActivitySummary}

theorem fromOutputs_receiving :
    FromOutputs summary (receivingTxKind base) ↔ 0 < summary.received.amount := by
  rcases receivingTxKind_eq base with hkind | hkind <;> simp [hkind,FromOutputs]

theorem classify_fromOutputs (hshielding : base.isShielding = false)
    (h : isInternalIronwoodTransition base summary = false) {row : ClassifiedTx}
    (hrow : row ∈ classifyHistoryTx base summary extraSentFee)
    (hfrom : FromOutputs summary row.info.txKind) :
    row.info.txKind = .sent ∧ row.info.displayAmount = summary.sent.amount ∨
      row.info.txKind = receivingTxKind base ∧ row.info.displayAmount = summary.received.amount := by
  simp only [classifyHistoryTx,hshielding,h,Bool.false_eq_true,if_false] at hrow
  by_cases hsent : 0 < summary.sent.amount
  · by_cases hreceived : 0 < summary.received.amount
    · simp [amountRows,hsent,hreceived] at hrow
      rcases hrow with rfl | rfl
      · exact .inl ⟨rfl,rfl⟩
      · exact .inr ⟨rfl,rfl⟩
    · simp [amountRows,hsent,hreceived] at hrow
      subst hrow
      exact .inl ⟨rfl,rfl⟩
  · by_cases hreceived : 0 < summary.received.amount
    · simp [amountRows,hsent,hreceived] at hrow
      subst hrow
      exact .inr ⟨rfl,rfl⟩
    · -- the rows that no output gave
      exfalso
      simp [amountRows,hsent,hreceived,fallbackRows] at hrow
      have hreceiving : ¬FromOutputs summary (receivingTxKind base) := fun hfrom =>
        hreceived (fromOutputs_receiving.mp hfrom)
      split at hrow
      · obtain rfl := List.mem_singleton.mp hrow
        exact hsent hfrom
      · split at hrow
        · cases hrow
        · split at hrow
          · obtain rfl := List.mem_singleton.mp hrow
            exact hreceiving hfrom
          · obtain rfl := List.mem_singleton.mp hrow
            exact hfrom

theorem classify_kind (extraSentFee : Nat) (hshielding : base.isShielding = false)
    (h : isInternalIronwoodTransition base summary = false) :
    ∀ row ∈ classifyHistoryTx base summary extraSentFee, row.info.txKind ≠ .migration := by
  have hreceiving : receivingTxKind base ≠ .migration := by
    rcases receivingTxKind_eq base with hkind | hkind <;> simp [hkind]
  intro row hrow
  simp only [classifyHistoryTx,hshielding,h,Bool.false_eq_true,if_false] at hrow
  split at hrow
  · simp only [fallbackRows] at hrow
    split at hrow
    · obtain rfl := List.mem_singleton.mp hrow
      simp [buildClassifiedTx,buildClassifiedTxWithFee]
    · split at hrow
      · cases hrow
      · split at hrow
        · obtain rfl := List.mem_singleton.mp hrow
          simpa [buildClassifiedTx,buildClassifiedTxWithFee] using hreceiving
        · obtain rfl := List.mem_singleton.mp hrow
          simp [buildClassifiedTx,buildClassifiedTxWithFee]
  · rcases List.mem_append.mp hrow with hrow | hrow
    · split at hrow
      · obtain rfl := List.mem_singleton.mp hrow
        simp [buildClassifiedTxWithFee]
      · cases hrow
    · split at hrow
      · obtain rfl := List.mem_singleton.mp hrow
        simpa [buildClassifiedTx,buildClassifiedTxWithFee] using hreceiving
      · cases hrow

theorem sent_mem_classify (extraSentFee : Nat) (hshielding : base.isShielding = false)
    (h : isInternalIronwoodTransition base summary = false) (hsent : 0 < summary.sent.amount) :
    ∃ row ∈ classifyHistoryTx base summary extraSentFee, row.info.txKind = .sent ∧
      row.info.displayAmount = summary.sent.amount := by
  refine ⟨buildClassifiedTxWithFee base .sent summary.sent.amount summary.sent.displayPool
    summary.sent.hasTransparent 1 (saturatingAdd base.fee extraSentFee),?_,rfl,rfl⟩
  simp [classifyHistoryTx,hshielding,h,amountRows,hsent]

theorem received_mem_classify (extraSentFee : Nat) (hshielding : base.isShielding = false)
    (h : isInternalIronwoodTransition base summary = false)
    (hreceived : 0 < summary.received.amount) :
    ∃ row ∈ classifyHistoryTx base summary extraSentFee,
      row.info.txKind = receivingTxKind base ∧
        row.info.displayAmount = summary.received.amount := by
  refine ⟨buildClassifiedTx base (receivingTxKind base) summary.received.amount
    summary.received.displayPool summary.received.hasTransparent 2,?_,rfl,rfl⟩
  simp [classifyHistoryTx,hshielding,h,amountRows,hreceived]

theorem add_eq_capped {n extra : Nat} : n + extra = capped n ↔ n < u64Limit ∧ extra = 0 := by
  simp only [capped,u64Limit]
  omega

theorem detailsAgree_of_amounts (hshielding : base.isShielding = false)
    (h : isInternalIronwoodTransition base (summarizeActivityOutputs base outputs account) = false) :
    DetailsAgree base outputs account extraSentFee ↔
      total (addsToSent base account) outputs < u64Limit ∧
      total (addsToReceived base account) outputs < u64Limit ∧
      total (addsToTransition base account) outputs = 0 := by
  have hvisible := visibleTransition_le base account outputs
  have hlimit : 0 < u64Limit := by simp [u64Limit]
  constructor
  · intro hagree
    refine ⟨?_,?_,?_⟩
    · rcases Nat.eq_zero_or_pos (total (addsToSent base account) outputs) with hzero | hpos
      · omega
      · obtain ⟨row,hrow,hkind,hamount⟩ := sent_mem_classify extraSentFee
          hshielding h (by simpa using hpos)
        have hshown := hagree.shown row hrow (by rw [hkind]; simpa [FromOutputs] using hpos)
        rw [hkind,hamount,detailTotal_sent,sent_summarize] at hshown
        exact (add_eq_capped.mp hshown).1
    · rcases Nat.eq_zero_or_pos (total (addsToReceived base account) outputs) with hzero | hpos
      · omega
      · obtain ⟨row,hrow,hkind,hamount⟩ := received_mem_classify extraSentFee
          hshielding h (by simpa using hpos)
        have hshown := hagree.shown row hrow (hkind ▸ fromOutputs_receiving.mpr (by simpa using hpos))
        rw [hkind,hamount,detailTotal_received base account outputs (receivingTxKind_eq base),
          received_summarize] at hshown
        exact (add_eq_capped.mp hshown).1
    · have hkinds := classify_kind extraSentFee hshielding h
      have hhidden := hagree.hidden .migration (by simp [rowKinds])
        (fun row hrow hkind => absurd hkind (hkinds row hrow))
      rw [detailTotal_migration] at hhidden
      refine hhidden.resolve_right ?_
      rintro ⟨row,hrow,hkind⟩
      exact hkinds row hrow hkind
  · rintro ⟨hsent,hreceived,htransition⟩
    have hnone : total (fun output => addsToTransition base account output &&
        isUserVisibleSelfOutput output) outputs = 0 := by omega
    refine ⟨?_,?_⟩
    · intro row hrow hfrom
      rcases classify_fromOutputs hshielding h hrow hfrom with ⟨hkind,hamount⟩ | ⟨hkind,hamount⟩
      · rw [hkind,hamount,detailTotal_sent,sent_summarize]
        exact add_eq_capped.mpr ⟨hsent,hnone⟩
      · rw [hkind,hamount,detailTotal_received base account outputs (receivingTxKind_eq base),
          received_summarize]
        exact add_eq_capped.mpr ⟨hreceived,hnone⟩
    · intro kind hkind habsent
      left
      simp only [rowKinds,List.mem_cons,List.not_mem_nil,or_false] at hkind
      rcases hkind with rfl | rfl | rfl | rfl
      · rw [detailTotal_shielded,total_addsToShielded hshielding]
      · rw [detailTotal_migration,htransition]
      · by_contra hne
        have hpos : 0 < total (addsToSent base account) outputs := by
          rw [detailTotal_sent] at hne
          omega
        obtain ⟨row,hrow,hkind,_⟩ := sent_mem_classify extraSentFee hshielding h
          (by simpa using hpos)
        exact habsent row hrow hkind (by simpa [FromOutputs] using hpos)
      · by_contra hne
        have hpos : 0 < total (addsToReceived base account) outputs := by
          rw [detailTotal_received base account outputs (receivingTxKind_eq base)] at hne
          omega
        obtain ⟨row,hrow,hkind,_⟩ := received_mem_classify extraSentFee
          hshielding h (by simpa using hpos)
        exact habsent row hrow hkind (fromOutputs_receiving.mpr (by simpa using hpos))

theorem spentOrchardNote_of_transition
    (h : 0 < total (addsToTransition base account) outputs) : base.spentOrchardNote = true := by
  by_contra hspent
  have hzero : total (addsToTransition base account) outputs = 0 :=
    (total_congr (by simp [addsToTransition,isTransition,hspent]) outputs).trans (total_false outputs)
  omega

theorem isInternalIronwoodTransition_iff (outputs : List TxOutput) (account : Bytes)
    (hshielding : base.isShielding = false) :
    isInternalIronwoodTransition base (summarizeActivityOutputs base outputs account) = true ↔
      0 < total (addsToTransition base account) outputs ∧ 0 < base.totalSpent ∧
        total (addsToSent base account) outputs = 0 ∧
        total (addsToReceived base account) outputs = 0 := by
  simp only [isInternalIronwoodTransition,hshielding,transition_summarize,sent_summarize,
    received_summarize,Bool.not_false,Bool.true_and,Bool.and_eq_true,decide_eq_true_eq,capped_pos,
    capped_eq_zero]
  constructor
  · rintro ⟨⟨⟨⟨_,hspent⟩,htransition⟩,hsent⟩,hreceived⟩
    exact ⟨htransition,hspent,hsent,hreceived⟩
  · rintro ⟨htransition,hspent,hsent,hreceived⟩
    exact ⟨⟨⟨⟨spentOrchardNote_of_transition htransition,hspent⟩,htransition⟩,hsent⟩,hreceived⟩

end Agreement

/-- Rows and details agree exactly where transitions stand alone and no total exceeds a u64. -/
theorem detailsAgree_iff (base : TxBase) (outputs : List TxOutput) (account : Bytes)
    (extraSentFee : Nat) :
    DetailsAgree base outputs account extraSentFee ↔ TransitionsStandAlone base outputs account := by
  cases hshielding : base.isShielding with
  | true => simp [TransitionsStandAlone,hshielding,detailsAgree_of_shielding hshielding]
  | false =>
    have hinternal := isInternalIronwoodTransition_iff outputs account hshielding
    have hlimit : 0 < u64Limit := by simp [u64Limit]
    simp only [TransitionsStandAlone,hshielding,Bool.false_eq_true,false_implies,true_and,true_implies]
    cases hmigration : isInternalIronwoodTransition base
        (summarizeActivityOutputs base outputs account) with
    | true =>
      obtain ⟨hpos,hspent,hsent,hreceived⟩ := hinternal.mp hmigration
      rw [detailsAgree_of_migration hmigration]
      omega
    | false =>
      have hnot : ¬(0 < total (addsToTransition base account) outputs ∧ 0 < base.totalSpent ∧
          total (addsToSent base account) outputs = 0 ∧
          total (addsToReceived base account) outputs = 0) := fun hall => by
        simp [hinternal.mpr hall] at hmigration
      rw [detailsAgree_of_amounts hshielding hmigration]
      omega

def ownAccount : Bytes := [7]

/-- A transaction that spends an Orchard note. -/
def mixedBase : TxBase where
  txid := [1]
  transactionId := 1
  minedHeight := some 121
  expiredUnmined := false
  accountBalanceDelta := -70000
  fee := 20000
  blockTime := 1800000000
  totalSpent := 170000
  totalReceived := 100000
  isShielding := false
  expiryHeight := some 160
  txIndex := 0
  created := none
  createdTime := 0
  spentOrchardNote := true

/-- It pays another wallet, and an Ironwood receiver of the account. -/
def mixedOutputs : List TxOutput :=
  [⟨saplingPool,some ownAccount,none,some "u-other",none,50000,none⟩,
    ⟨ironwoodPool,some ownAccount,some ownAccount,some "u-self",some 0,100000,none⟩]

/-- The row shows the payment, and its details the output to the account as well. -/
theorem mixedOutputs_disagree : ¬DetailsAgree mixedBase mixedOutputs ownAccount 0 := by
  intro hagree
  have hsent : total (addsToSent mixedBase ownAccount) mixedOutputs = 50000 := by decide
  have hdetails : detailTotal mixedBase ownAccount mixedOutputs .sent = 150000 := by decide
  have hinternal : isInternalIronwoodTransition mixedBase
      (summarizeActivityOutputs mixedBase mixedOutputs ownAccount) = false := by
    simp [isInternalIronwoodTransition,hsent]
  obtain ⟨row,hrow,hkind,hamount⟩ := sent_mem_classify 0 rfl hinternal (by simp [hsent])
  have hshown := hagree.shown row hrow (by rw [hkind]; simp [FromOutputs,hsent])
  rw [hkind,hamount,hdetails,sent_summarize,hsent] at hshown
  simp [capped,u64Limit] at hshown

end CoppiceWallet.Activity
