import CoppiceWallet.Planner.CheckedPreparation
import CoppiceWallet.Planner.Residuals

/-! # The layers of the planner are total -/

namespace CoppiceWallet.Planner

open CoppiceWallet.Lib

section
variable {α β : Type} {P : α → Prop} {Q : β → Prop} {c u : PrepResult α}
  {f g : α → PrepResult β}

/-- Both planners return the same result, of which `P` holds. -/
def Total (checked unchecked : PrepResult α) (P : α → Prop) : Prop :=
  ∃ a, checked = .ok a ∧ unchecked = .ok a ∧ P a

/-- Both planners return the same, and an error is one that the source returns. -/
structure Settles (checked unchecked : PrepResult α) (P : α → Prop) : Prop where
  same : checked = unchecked
  result : ∀ a, unchecked = .ok a → P a
  error : ∀ e, unchecked = .error e → e = .insufficientFunds ∨ e = .balanceInvalid

theorem Total.ok {a : α} (h : P a) : Total (.ok a) (.ok a) P := ⟨a,rfl,rfl,h⟩

theorem Total.mono {P' : α → Prop} (h : Total c u P) (hP : ∀ a, P a → P' a) : Total c u P' := by
  obtain ⟨a,hc,hu,ha⟩ := h
  exact ⟨a,hc,hu,hP a ha⟩

theorem Total.bind (h : Total c u P) (hf : ∀ a, P a → Total (f a) (g a) Q) :
    Total (c >>= f) (u >>= g) Q := by
  obtain ⟨a,rfl,rfl,ha⟩ := h
  exact hf a ha

theorem Total.bindSettles (h : Total c u P) (hf : ∀ a, P a → Settles (f a) (g a) Q) :
    Settles (c >>= f) (u >>= g) Q := by
  obtain ⟨a,rfl,rfl,ha⟩ := h
  exact hf a ha

theorem Settles.ok {a : α} (h : P a) : Settles (.ok a) (.ok a) P :=
  ⟨rfl,fun _ ha => (by cases ha; exact h),fun _ he => (by cases he)⟩

theorem Settles.insufficient : Settles (.error .insufficientFunds) (.error .insufficientFunds) P :=
  ⟨rfl,fun _ ha => (by cases ha),fun _ he => (by cases he; exact .inl rfl)⟩

theorem Settles.invalid : Settles (.error .balanceInvalid) (.error .balanceInvalid) P :=
  ⟨rfl,fun _ ha => (by cases ha),fun _ he => (by cases he; exact .inr rfl)⟩

theorem Settles.bind (h : Settles c u P)
    (hf : ∀ a, u = .ok a → P a → Settles (f a) (g a) Q) : Settles (c >>= f) (u >>= g) Q := by
  obtain ⟨rfl,hok,herror⟩ := h
  cases c with
  | ok a => exact hf a rfl (hok a rfl)
  | error e => exact ⟨rfl,fun _ ha => (by cases ha),fun e' he => herror e' (by cases he; rfl)⟩

end

theorem add_ok {a b : Nat} (h : a + b < u64Limit) : Checked.add a b = .ok (a + b) := by
  simp [Checked.add,checkedAdd,h,Checked.orPanic]

theorem sub_ok {a b : Nat} (h : b ≤ a) : Checked.sub a b = .ok (a - b) := by
  simp [Checked.sub,checkedSub,h,Checked.orPanic]

theorem sum_ok {values : List Nat} (h : values.sum < u64Limit) :
    Checked.sum values = .ok values.sum := by
  have hfold (start : Nat) (h : start + values.sum < u64Limit) :
      values.foldlM Checked.add start = .ok (start + values.sum) := by
    clear * - h
    induction values generalizing start with
    | nil => rfl
    | cons value values ih =>
      rw [List.sum_cons] at h
      rw [List.foldlM_cons,add_ok (by omega),ok_bind,ih _ (by omega),List.sum_cons,Nat.add_assoc]
  rw [Checked.sum,hfold 0 (by omega),Nat.zero_add]

theorem zat_total {v : Nat} (h : v ≤ maxMoney) : Total (zat v) (zat v) fun z => z.value = v := by
  have hzat : zat v = .ok ⟨v,h⟩ := by simp [zat,Zatoshis.fromU64,h]
  exact ⟨⟨v,h⟩,hzat,hzat,rfl⟩

theorem maxMoney_lt : 16 * maxMoney < u64Limit := by decide

def poolValue (notes : List PrepInput) : Nat := (notes.map (·.value.value)).sum

@[simp] theorem poolValue_nil : poolValue [] = 0 := rfl

@[simp] theorem poolValue_cons (note : PrepInput) (notes : List PrepInput) :
    poolValue (note :: notes) = note.value.value + poolValue notes := by
  simp [poolValue]

@[simp] theorem poolValue_append (notes notes' : List PrepInput) :
    poolValue (notes ++ notes') = poolValue notes + poolValue notes' := by
  simp [poolValue]

theorem poolValue_subperm {notes notes' : List PrepInput} (h : notes.Subperm notes') :
    poolValue notes ≤ poolValue notes' := by
  obtain ⟨kept,hperm,hsub⟩ := h
  rw [poolValue,← (hperm.map _).sum_eq]
  exact (hsub.map _).sum_le_sum fun _ _ => Nat.zero_le _

/-- A transaction pays its fee out of its inputs and stays within the action budget. -/
structure PrepTransaction.Balanced (fee : Nat) (tx : PrepTransaction) : Prop where
  value : poolValue tx.inputs = (tx.outputs.map (·.value.value)).sum + fee
  actions : tx.inputs.length + tx.outputs.length ≤ prepTxActions

def AllBalanced (fee : Nat) (txs : List PrepTransaction) : Prop := ∀ tx ∈ txs, tx.Balanced fee

theorem AllBalanced.nil (fee : Nat) : AllBalanced fee [] := by simp [AllBalanced]

variable {txs : List PrepTransaction}

theorem AllBalanced.append {fee : Nat} {txs' : List PrepTransaction} (h : AllBalanced fee txs)
    (h' : AllBalanced fee txs') : AllBalanced fee (txs ++ txs') :=
  fun tx htx => (List.mem_append.mp htx).elim (h tx) (h' tx)

theorem AllBalanced.snoc {fee : Nat} {tx : PrepTransaction} (h : AllBalanced fee txs)
    (htx : tx.Balanced fee) : AllBalanced fee (txs ++ [tx]) :=
  h.append fun _ hmem => List.mem_singleton.mp hmem ▸ htx

variable {layers : Layers}

theorem AllBalanced.layer {fee : Nat} (h : AllBalanced fee layers.flatten)
    (htxs : AllBalanced fee txs) : AllBalanced fee (layers ++ [txs]).flatten := by
  rw [List.flatten_append,List.flatten_singleton]
  exact h.append htxs

variable {sort : NoteSort} {fee layer : Nat}

theorem mem_consolidationBatchSizes {fuel n size : Nat} (hn : n ≠ 1)
    (h : size ∈ consolidationBatchSizes fuel n) : 2 ≤ size ∧ size ≤ consolidationInputsPerTx := by
  induction fuel generalizing n with
  | zero => simp [consolidationBatchSizes] at h
  | succ fuel ih =>
    cases n with
    | zero => simp [consolidationBatchSizes] at h
    | succ n =>
      simp only [consolidationBatchSizes] at h
      generalize htake : (if n + 1 ≤ consolidationInputsPerTx then n + 1
        else if n + 1 - consolidationInputsPerTx = 1 then consolidationInputsPerTx - 1
        else consolidationInputsPerTx) = take at h
      have hbounds : 2 ≤ take ∧ take ≤ consolidationInputsPerTx ∧ n + 1 - take ≠ 1 := by
        unfold consolidationInputsPerTx prepTxActions at htake ⊢
        split at htake
        · omega
        · split at htake <;> omega
      rcases List.mem_cons.mp h with rfl | h
      · exact ⟨hbounds.1,hbounds.2.1⟩
      · exact ih hbounds.2.2 h

/-- What a consolidation makes of a pool: feeders worth no more than the pool, and one note less
for every transaction. -/
structure Merged (fee : Nat) (pool : List PrepInput) (txs : List PrepTransaction)
    (next leftover : List PrepInput) (result : Consolidation) : Prop where
  value : poolValue result.next + poolValue result.leftover ≤
    poolValue pool + (poolValue next + poolValue leftover)
  count : result.txs.length + result.next.length + result.leftover.length ≤
    txs.length + next.length + leftover.length + pool.length
  grown : txs.length ≤ result.txs.length
  left : 0 < pool.length + next.length + leftover.length →
    0 < result.next.length + result.leftover.length
  balanced : AllBalanced fee txs → AllBalanced fee result.txs

theorem consolidateBatches_total {sizes : List Nat} {pool : List PrepInput}
    (txs : List PrepTransaction) (next leftover : List PrepInput)
    (hsizes : ∀ size ∈ sizes, 2 ≤ size ∧ size ≤ consolidationInputsPerTx)
    (hsum : sizes.sum = pool.length) (hvalue : poolValue pool ≤ maxMoney) :
    Total (Checked.consolidateBatches layer fee sizes pool txs next leftover)
      (consolidateBatches layer fee sizes pool txs next leftover)
      (Merged fee pool txs next leftover) := by
  induction sizes generalizing pool txs next leftover with
  | nil =>
    have hpool : pool = [] := List.eq_nil_of_length_eq_zero hsum.symm
    subst hpool
    exact .ok ⟨by simp,by simp,le_rfl,by simp,id⟩
  | cons size sizes ih =>
    obtain ⟨hsize,hsizes⟩ := List.forall_mem_cons.mp hsizes
    rw [List.sum_cons] at hsum
    have hsplit : poolValue (pool.take size) + poolValue (pool.drop size) = poolValue pool := by
      rw [← poolValue_append,List.take_append_drop]
    have htake : (pool.take size).length = size := List.length_take_of_le (by omega)
    have hdrop : (pool.drop size).length = pool.length - size := List.length_drop
    have hlimit := maxMoney_lt
    have hbatch : Checked.sum ((pool.take size).map (·.value.value)) =
        .ok (poolValue (pool.take size)) := sum_ok (by change poolValue _ < _; omega)
    simp only [Checked.consolidateBatches,consolidateBatches]
    rw [hbatch,ok_bind]
    change Total (if poolValue (pool.take size) ≤ fee then _ else _)
      (if poolValue (pool.take size) ≤ fee then _ else _) _
    by_cases hfee : poolValue (pool.take size) ≤ fee
    · rw [if_pos hfee,if_pos hfee]
      refine (ih txs next (leftover ++ pool.take size) hsizes (by omega) (by omega)).mono
        fun result h => ⟨?_,?_,h.grown,fun _ => h.left ?_,h.balanced⟩
      · have hv := h.value
        rw [poolValue_append] at hv
        omega
      · have hc := h.count
        rw [List.length_append] at hc
        omega
      · rw [List.length_append]
        omega
    · rw [if_neg hfee,if_neg hfee,sub_ok (by omega),ok_bind]
      change Total _ (zat (poolValue (pool.take size) - fee) >>= _) _
      refine (zat_total (by omega)).bind fun feeder hfeeder => ?_
      refine (ih _ _ leftover hsizes (by omega) (by omega)).mono
        fun result h => ⟨?_,?_,?_,fun _ => h.left ?_,fun hb => h.balanced (hb.snoc ⟨?_,?_⟩)⟩
      · have hv := h.value
        rw [poolValue_append,poolValue_cons,poolValue_nil,PrepInput.value,hfeeder] at hv
        omega
      · have hc := h.count
        rw [List.length_append,List.length_append,List.length_singleton,
          List.length_singleton] at hc
        omega
      · have hg := h.grown
        rw [List.length_append] at hg
        omega
      · rw [List.length_append,List.length_singleton]
        omega
      · simp only [List.map_singleton,List.sum_singleton,PrepOutput.value,hfeeder]
        omega
      · rw [htake]
        simp only [List.length_singleton]
        unfold consolidationInputsPerTx prepTxActions at *
        omega

theorem consolidate_total (sort : NoteSort) (fee : Nat) {pool : List PrepInput} (layer : Nat) (txs : List PrepTransaction)
    (next : List PrepInput) (hvalue : poolValue pool ≤ maxMoney) :
    Total (Checked.consolidate sort pool layer fee txs next)
      (consolidate sort pool layer fee txs next) (Merged fee pool txs next []) := by
  unfold Checked.consolidate consolidate
  by_cases hpool : pool.length < 2
  · rw [if_pos hpool,if_pos hpool]
    exact .ok ⟨by simp [Nat.add_comm],by simp,le_rfl,by simp; omega,id⟩
  · rw [if_neg hpool,if_neg hpool]
    have hperm := sort.perm pool
    have hsorted : poolValue (sort.sort pool) = poolValue pool :=
      (hperm.map fun note : PrepInput => note.value.value).sum_eq
    refine (consolidateBatches_total txs next []
      (fun size hsize => mem_consolidationBatchSizes (by omega) hsize)
      (by rw [consolidationBatchSizes_sum le_rfl,hperm.length_eq]) (by omega)).mono
        fun result h => ⟨?_,?_,h.grown,fun hpos => h.left ?_,h.balanced⟩
    · rw [← hsorted]
      exact h.value
    · rw [← hperm.length_eq]
      exact h.count
    · rwa [hperm.length_eq]

/-- A note pays for the funding values assigned to it and the fee. -/
structure PartialTx.Fits (fee : Nat) (p : PartialTx) : Prop where
  value : p.input.value.value = p.assigned.sum + p.leftover + fee
  count : p.assigned.length ≤ fundingOutputsPerTx
  assigned : p.assigned ≠ []

/-- What one note is assigned out of its budget. -/
structure Assigned (budget : Nat) (remaining : List Nat) (count used : Nat)
    (result : List Nat × List Nat × Nat) : Prop where
  total : result.2.2 = used + result.1.sum
  within : used ≤ budget → result.2.2 ≤ budget
  slots : count ≤ fundingOutputsPerTx → count + result.1.length ≤ fundingOutputsPerTx
  some : count < fundingOutputsPerTx → (∃ last ∈ remaining, used + last ≤ budget) → result.1 ≠ []

variable {remaining : List Nat}

theorem assignFunding_total {budget : Nat} (count used : Nat) (hbudget : budget ≤ maxMoney)
    (hused : used ≤ budget) (hremaining : remaining.sum ≤ maxMoney) :
    Total (Checked.assignFunding budget remaining count used)
      (.ok (assignFunding budget remaining count used)) (Assigned budget remaining count used) := by
  induction remaining generalizing count used with
  | nil => exact .ok ⟨by simp,id,id,by simp⟩
  | cons value remaining ih =>
    rw [List.sum_cons] at hremaining
    have hlimit := maxMoney_lt
    simp only [Checked.assignFunding,assignFunding]
    by_cases hcount : count < fundingOutputsPerTx
    · rw [if_pos hcount,if_pos hcount,add_ok (by omega),ok_bind]
      by_cases hfits : used + value ≤ budget
      · rw [if_pos hfits,if_pos hfits]
        obtain ⟨result,hc,hu,h⟩ := ih (count + 1) (used + value) hfits (by omega)
        cases hu
        rw [hc]
        refine .ok ⟨?_,fun _ => h.within hfits,fun _ => ?_,fun _ _ => List.cons_ne_nil _ _⟩
        · rw [h.total,List.sum_cons,Nat.add_assoc]
        · have hlength := h.slots hcount
          rw [List.length_cons]
          omega
      · rw [if_neg hfits,if_neg hfits]
        obtain ⟨result,hc,hu,h⟩ := ih count used hused (by omega)
        cases hu
        rw [hc]
        refine .ok ⟨h.total,h.within,h.slots,fun hlt hsome => h.some hlt ?_⟩
        obtain ⟨last,hlast,hle⟩ := hsome
        rcases List.mem_cons.mp hlast with rfl | hlast
        · exact absurd hle hfits
        · exact ⟨last,hlast,hle⟩
    · rw [if_neg hcount,if_neg hcount]
      exact .ok ⟨rfl,id,fun h => by simpa using h,fun h => absurd h hcount⟩

theorem tooSmall_ok (value fee smallest : Nat) : Checked.tooSmall value fee smallest =
    .ok (decide (value ≤ fee ∨ value - fee < smallest)) := by
  unfold Checked.tooSmall
  by_cases hfee : value ≤ fee
  · rw [if_pos hfee]
    simp [hfee]
  · rw [if_neg hfee,sub_ok (by omega),ok_bind]
    simp [hfee]

theorem assignPass_total (notes : List PrepInput) (hremaining : remaining.sum ≤ maxMoney) :
    Total (Checked.assignPass fee notes remaining) (.ok (assignPass fee notes remaining))
      fun result => ∀ p ∈ result.1, p.Fits fee := by
  induction notes generalizing remaining with
  | nil => exact .ok (by simp)
  | cons input notes ih =>
    simp only [Checked.assignPass,assignPass]
    cases hlast : remaining.getLast? with
    | none => exact ih hremaining
    | some smallest =>
      simp only [tooSmall_ok,ok_bind,decide_eq_true_eq]
      by_cases hsmall : input.value.value ≤ fee ∨ input.value.value - fee < smallest
      · rw [if_pos hsmall,if_pos hsmall]
        obtain ⟨result,hc,hu,h⟩ := ih hremaining
        cases hu
        rw [hc]
        exact .ok h
      · rw [if_neg hsmall,if_neg hsmall,sub_ok (by omega),ok_bind]
        have hmoney := input.value.le_maxMoney
        obtain ⟨result,hc,hu,h⟩ := assignFunding_total 0 0 (by omega : input.value.value - fee ≤ _)
          (Nat.zero_le _) hremaining
        cases hu
        have hperm := assignFunding_perm (input.value.value - fee) remaining 0 0
        have hkept := hperm.sum_eq
        rw [List.sum_append] at hkept
        have hbudget := h.within (Nat.zero_le _)
        obtain ⟨rest,hrc,hru,hrest⟩ :=
          ih (by omega : (assignFunding (input.value.value - fee) remaining 0 0).2.1.sum ≤ maxMoney)
        cases hru
        rw [hc,ok_bind]
        simp only [sub_ok hbudget,ok_bind,hrc]
        refine .ok (List.forall_mem_cons.mpr ⟨⟨?_,?_,?_⟩,hrest⟩)
        · have hused := h.total
          simp only at hused ⊢
          omega
        · have hcount := h.slots (Nat.zero_le _)
          simpa using hcount
        · refine h.some (by decide) ⟨smallest,List.mem_of_getLast? hlast,?_⟩
          omega

theorem mapM_zat_total (kind : Zatoshis → PrepOutput) (hkind : ∀ z, (kind z).value = z)
    {values : List Nat} (h : ∀ v ∈ values, v ≤ maxMoney) :
    ∃ outputs, values.mapM (fun v => kind <$> zat v) = .ok outputs ∧
      outputs.map (·.value.value) = values := by
  obtain ⟨outputs,houtputs,hall⟩ := mapM_exists (f := fun v => kind <$> zat v)
    (R := fun v (output : PrepOutput) => output.value.value = v) fun v hv => by
      obtain ⟨z,hz,_,hvalue⟩ := zat_total (h v hv)
      exact ⟨kind z,by rw [hz]; rfl,by rw [hkind,hvalue]⟩
  have hmap := forall₂_map_eq (f := id) (g := fun output : PrepOutput => output.value.value) hall
    fun _ _ h => h
  exact ⟨outputs,houtputs,by rw [hmap,List.map_id]⟩

theorem mem_le_sum {values : List Nat} {v : Nat} (h : v ∈ values) : v ≤ values.sum :=
  List.single_le_sum (fun _ _ => Nat.zero_le _) _ h

/-- What minting makes of the assigned notes. -/
structure Minted (fee : Nat) (partials : List PartialTx) (txs : List PrepTransaction)
    (next : List PrepInput) (result : List PrepTransaction × List PrepInput) : Prop where
  value : poolValue result.2 ≤ poolValue next + poolValue (partials.map PartialTx.input)
  made : result.1.length = txs.length + partials.length
  count : result.2.length ≤ next.length + partials.length
  balanced : AllBalanced fee txs → AllBalanced fee result.1

theorem mintPass_total {partials : List PartialTx} (txs : List PrepTransaction)
    (next : List PrepInput) (hfits : ∀ p ∈ partials, p.Fits fee) :
    Total (mintPass layer partials txs next) (mintPass layer partials txs next)
      (Minted fee partials txs next) := by
  induction partials generalizing txs next with
  | nil => exact .ok ⟨by simp,rfl,by simp,id⟩
  | cons p partials ih =>
    obtain ⟨input,assigned,leftover⟩ := p
    obtain ⟨hp,hrest⟩ := List.forall_mem_cons.mp hfits
    have hmoney := input.value.le_maxMoney
    have hvalue := hp.value
    have hcount := hp.count
    simp only at hvalue hcount
    have hassigned : ∀ v ∈ assigned, v ≤ maxMoney := fun v hv => by
      have hle := mem_le_sum hv
      omega
    obtain ⟨outputs,houtputs,hvalues⟩ := mapM_zat_total PrepOutput.funding (fun _ => rfl) hassigned
    have hsum := congrArg List.sum hvalues
    have hlength := congrArg List.length hvalues
    rw [List.length_map] at hlength
    unfold mintPass
    rw [houtputs,ok_bind]
    by_cases hleft : 0 < leftover
    · rw [if_pos hleft]
      refine (zat_total (by omega)).bind fun amount hamount => ?_
      refine (ih _ _ hrest).mono fun result h => ⟨?_,?_,?_,fun hb => h.balanced (hb.snoc ⟨?_,?_⟩)⟩
      · have hv := h.value
        rw [poolValue_append,poolValue_cons,poolValue_nil,PrepInput.value,hamount] at hv
        rw [List.map_cons,poolValue_cons]
        simp only
        omega
      · rw [h.made,List.length_append,List.length_singleton,List.length_cons]
        omega
      · have hn := h.count
        rw [List.length_append,List.length_singleton] at hn
        rw [List.length_cons]
        omega
      · rw [List.map_append,List.sum_append,hsum]
        simp only [poolValue_cons,poolValue_nil,List.map_singleton,List.sum_singleton,
          PrepOutput.value,hamount]
        omega
      · simp only [List.length_append,List.length_singleton,hlength]
        unfold fundingOutputsPerTx prepTxActions at *
        omega
    · rw [if_neg hleft]
      refine (ih _ _ hrest).mono fun result h => ⟨?_,?_,?_,fun hb => h.balanced (hb.snoc ⟨?_,?_⟩)⟩
      · have hv := h.value
        rw [List.map_cons,poolValue_cons]
        omega
      · rw [h.made,List.length_append,List.length_singleton,List.length_cons]
        omega
      · have hn := h.count
        rw [List.length_cons]
        omega
      · rw [hsum]
        simp only [poolValue_cons,poolValue_nil]
        omega
      · simp only [List.length_singleton,hlength]
        unfold fundingOutputsPerTx prepTxActions at *
        omega

theorem assigned_count {partials : List PartialTx} (h : ∀ p ∈ partials, p.Fits fee) :
    partials.length ≤ (partials.flatMap PartialTx.assigned).length := by
  induction partials with
  | nil => exact Nat.zero_le _
  | cons p partials ih =>
    obtain ⟨hp,hrest⟩ := List.forall_mem_cons.mp h
    have hpos := List.length_pos_iff.mpr hp.assigned
    have ih := ih hrest
    rw [List.flatMap_cons,List.length_append,List.length_cons]
    omega

theorem greedyLoop_settles {fuel : Nat} {current : List PrepInput}
    (hfuel : remaining.length + current.length < fuel) (hremaining : remaining.sum ≤ maxMoney)
    (hcurrent : poolValue current ≤ maxMoney) (hlayers : AllBalanced fee layers.flatten) :
    Settles (Checked.greedyLoop sort fee fuel remaining current layers)
      (greedyLoop sort fee fuel remaining current layers) fun r => AllBalanced fee r.flatten := by
  induction fuel generalizing remaining current layers with
  | zero => omega
  | succ fuel ih =>
    simp only [Checked.greedyLoop,greedyLoop]
    by_cases hdone : remaining = []
    · rw [if_pos hdone,if_pos hdone]
      exact .ok hlayers
    rw [if_neg hdone,if_neg hdone]
    by_cases hempty : current = []
    · rw [if_pos hempty,if_pos hempty]
      exact .insufficient
    rw [if_neg hempty,if_neg hempty]
    have hperm := assignPass_perm fee (sort.sort current) remaining
    have hsub := (assignPass_subperm fee (sort.sort current) remaining).trans
      (sort.perm current).subperm
    obtain ⟨assigned,hchecked,hassigned,hfits⟩ :=
      assignPass_total (sort.sort current) hremaining
    cases hassigned
    rw [hchecked,ok_bind]
    generalize assignPass fee (sort.sort current) remaining = assigned at hperm hsub hfits ⊢
    obtain ⟨partials,consolidatable,kept⟩ := assigned
    simp only at hperm hsub hfits ⊢
    have hvalue := poolValue_subperm hsub
    have hnotes := hsub.length_le
    have hsum := hperm.sum_eq
    have hvalues := hperm.length_eq
    have hcount := assigned_count hfits
    rw [poolValue_append] at hvalue
    rw [List.sum_append] at hsum
    rw [List.length_append,List.length_map] at hnotes
    rw [List.length_append] at hvalues
    refine (mintPass_total [] [] hfits).bindSettles fun minted hmint => ?_
    obtain ⟨txs,next⟩ := minted
    refine (consolidate_total sort fee layers.length txs next (by omega)).bindSettles fun merged hmerge => ?_
    obtain ⟨txs',next',leftover⟩ := merged
    simp only
    by_cases hidle : txs' = []
    · rw [if_pos hidle,if_pos hidle]
      exact .insufficient
    rw [if_neg hidle,if_neg hidle]
    -- Every transaction used up a funding value or merged two notes, so the fuel still covers.
    have hmade := List.length_pos_iff.mpr hidle
    have hmintValue := hmint.value
    have hmintMade := hmint.made
    have hmintCount := hmint.count
    have hmergeValue := hmerge.value
    have hmergeCount := hmerge.count
    have hmergeGrown := hmerge.grown
    simp only [List.length_nil,poolValue_nil] at hmintValue hmintMade hmintCount
    simp only [List.length_nil,poolValue_nil] at hmergeValue hmergeCount hmergeGrown
    refine ih (by omega) (by omega) (by omega) (hlayers.layer ?_)
    exact hmerge.balanced (hmint.balanced (.nil fee))

theorem covers_unconsumed (layers : Layers) : Covers layers (unconsumedFeeders layers) := by
  intro l t tx o v hcell ho hfree
  refine List.mem_filter.mpr ⟨mem_intermediateRefs.mpr
    ⟨l,t,tx,hcell,mem_feedersOf.mpr ⟨o,v,ho,rfl⟩⟩,?_⟩
  have hspent : (l,t,o) ∉ spentCoordinates layers := fun hmem => by
    obtain ⟨w,hw⟩ := mem_spentCoordinates.mp hmem
    exact hfree w hw
  simp [PrepInput.spentIn,PrepInput.priorCoordinate,hspent]

theorem Covers.subperm {pool : List PrepInput} (h : Covers layers pool) :
    (unconsumedFeeders layers).Subperm pool :=
  List.subperm_of_subset ((intermediateRefs_nodup layers).filter _) fun _ hi => h.unconsumed hi

theorem residualLoop_settles {fuel : Nat} (hfuel : (unconsumedFeeders layers).length < fuel)
    (hvalue : poolValue (unconsumedFeeders layers) ≤ maxMoney)
    (hlayers : AllBalanced fee layers.flatten) :
    Settles (Checked.residualLoop sort fee fuel layers) (residualLoop sort fee fuel layers)
      fun r => AllBalanced fee r.flatten := by
  induction fuel generalizing layers with
  | zero => omega
  | succ fuel ih =>
    simp only [Checked.residualLoop,residualLoop]
    by_cases hpool : (unconsumedFeeders layers).length ≤ 1
    · rw [if_pos hpool,if_pos hpool]
      exact .ok hlayers
    rw [if_neg hpool,if_neg hpool]
    obtain ⟨merged,hchecked,hrun,hmerge⟩ :=
      consolidate_total sort fee layers.length [] [] hvalue
    have hsub := (consolidate_covers (covers_unconsumed layers) hrun).subperm
    rw [hchecked,hrun,ok_bind,ok_bind]
    obtain ⟨txs,next,leftover⟩ := merged
    simp only at hsub ⊢
    by_cases hidle : txs = []
    · rw [if_pos hidle,if_pos hidle]
      exact .ok hlayers
    rw [if_neg hidle,if_neg hidle]
    have hmade := List.length_pos_iff.mpr hidle
    have hcount := hmerge.count
    have hleft := hmerge.value
    have hlength := hsub.length_le
    have hsum := poolValue_subperm hsub
    simp only [List.length_nil,poolValue_nil] at hcount hleft
    rw [List.length_append] at hlength
    rw [poolValue_append] at hsum
    exact ih (by omega) (by omega) (hlayers.layer (hmerge.balanced (.nil fee)))

/-- What the merges of the consolidating planner leave. -/
structure MergedAll (fee : Nat) (result : List PrepInput × Layers) : Prop where
  some : result.1 ≠ []
  value : poolValue result.1 ≤ maxMoney
  balanced : AllBalanced fee result.2.flatten

theorem mergeLoop_settles {fuel : Nat} {current : List PrepInput} (hfuel : current.length < fuel)
    (hsome : current ≠ []) (hvalue : poolValue current ≤ maxMoney)
    (hlayers : AllBalanced fee layers.flatten) :
    Settles (Checked.mergeLoop sort fee fuel current layers)
      (mergeLoop sort fee fuel current layers) (MergedAll fee) := by
  induction fuel generalizing current layers with
  | zero => omega
  | succ fuel ih =>
    simp only [Checked.mergeLoop,mergeLoop]
    by_cases hone : current.length ≤ 1
    · rw [if_pos hone,if_pos hone]
      exact .ok ⟨hsome,hvalue,hlayers⟩
    rw [if_neg hone,if_neg hone]
    refine (consolidate_total sort fee layers.length [] [] hvalue).bindSettles fun merged hmerge => ?_
    obtain ⟨txs,next,leftover⟩ := merged
    simp only
    by_cases hidle : txs = []
    · rw [if_pos hidle,if_pos hidle]
      exact .insufficient
    rw [if_neg hidle,if_neg hidle]
    have hmade := List.length_pos_iff.mpr hidle
    have hcount := hmerge.count
    have hleft := hmerge.value
    have hkept := hmerge.left
    simp only [List.length_nil,poolValue_nil] at hcount hleft hkept
    refine ih (by rw [List.length_append]; omega) (fun hnil => ?_)
      (by rw [poolValue_append]; omega) (hlayers.layer (hmerge.balanced (.nil fee)))
    have hlength := congrArg List.length hnil
    rw [List.length_append,List.length_nil] at hlength
    omega

end CoppiceWallet.Planner
