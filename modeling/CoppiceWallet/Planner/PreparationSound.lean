import CoppiceWallet.Lib.Lists
import CoppiceWallet.Lib.Result
import CoppiceWallet.Planner.Preparation
import Mathlib.Data.List.Perm.Subperm

/-! # The preparation graph spends each note once -/

namespace CoppiceWallet.Planner

open CoppiceWallet.Lib

theorem zat_ok {v : Nat} {z : Zatoshis} (h : zat v = .ok z) : z.value = v := by
  unfold zat at h
  split at h
  · cases h
    exact Zatoshis.fromU64_eq_some ‹_›
  · cases h

variable {input : PrepInput}

theorem mem_feedersOf {l t : Nat} {tx : PrepTransaction} : input ∈ feedersOf l t tx ↔
      ∃ o v, tx.outputs[o]? = some (.intermediate v) ∧ input = .prior l t o v := by
  simp only [feedersOf,List.mem_filterMap,Prod.exists,List.mem_zipIdx_iff_getElem?]
  constructor
  · rintro ⟨output,o,ho,h⟩
    split at h
    · cases h
      exact ⟨o,_,ho,rfl⟩
    · cases h
  · rintro ⟨o,v,ho,rfl⟩
    exact ⟨_,o,ho,rfl⟩

theorem feedersOf_nodup (l t : Nat) (tx : PrepTransaction) : (feedersOf l t tx).Nodup := by
  have hidx : (tx.outputs.zipIdx.map Prod.snd).Nodup := by
    rw [List.zipIdx_map_snd]
    exact List.nodup_range'
  refine List.Nodup.filterMap ?_ hidx.of_map
  rintro ⟨a,i⟩ ⟨b,j⟩ c ha hb
  simp only [Option.mem_def] at ha hb
  split at ha
  · split at hb
    · cases ha
      cases hb
      rfl
    · cases hb
  · cases ha

def consumed (layers : Layers) : List PrepInput := layers.flatten.flatMap PrepTransaction.inputs

/-- The note an input names exists with the value the input carries. -/
def Spendable (available : List Zatoshis) (used : List Bool) (layers : Layers) : PrepInput → Prop
  | .wallet index value => available[index]? = some value ∧ used[index]? = some false
  | .prior l t o value => ∃ tx, layers.cell l t = some tx ∧ tx.outputs[o]? = some (.intermediate value)

/-- The input may be spent in layer `l`. -/
def PrepInput.Before (l : Nat) : PrepInput → Prop
  | .wallet _ _ => True
  | .prior layer _ _ _ => layer < l

structure Sound (available : List Zatoshis) (used : List Bool) (layers : Layers)
    (pool : List PrepInput) : Prop where
  spent : ∀ l t tx, layers.cell l t = some tx →
    ∀ input ∈ tx.inputs, Spendable available used layers input ∧ input.Before l
  unspent : ∀ input ∈ pool, Spendable available used layers input
  nodup : (consumed layers ++ pool).Nodup

variable {available : List Zatoshis} {used : List Bool} {layers : Layers} {pool : List PrepInput}

theorem Spendable.mono {layers' : Layers} (h : Spendable available used layers input)
    (hcell : ∀ l t tx, layers.cell l t = some tx → layers'.cell l t = some tx) :
    Spendable available used layers' input := by
  cases input with
  | wallet index value => exact h
  | prior l t o value =>
    obtain ⟨tx,htx,ho⟩ := h
    exact ⟨tx,hcell l t tx htx,ho⟩

theorem Spendable.before (h : Spendable available used layers input) :
    input.Before layers.length := by
  cases input with
  | wallet index value => trivial
  | prior l t o value =>
    obtain ⟨tx,htx,_⟩ := h
    exact Grid.lt_length_of_cell htx

theorem Sound.consumed_spendable (h : Sound available used layers pool)
    (hi : input ∈ consumed layers) : Spendable available used layers input := by
  obtain ⟨tx,htx,hin⟩ := List.mem_flatMap.mp hi
  obtain ⟨l,t,hcell⟩ := Grid.mem_flatten.mp htx
  exact (h.spent l t tx hcell input hin).1

private theorem nodup_of_subperm {α : Type} {xs ys : List α} (h : xs.Subperm ys)
    (hys : ys.Nodup) : xs.Nodup := by
  obtain ⟨zs,hperm,hsub⟩ := h
  exact hperm.nodup_iff.mp (hys.sublist hsub)

theorem Sound.mono {pool' : List PrepInput} (h : Sound available used layers pool)
    (hsub : pool'.Subperm pool) : Sound available used layers pool' where
  spent := h.spent
  unspent input hi := h.unspent input (hsub.subset hi)
  nodup := nodup_of_subperm ((List.subperm_append_left (consumed layers)).mpr hsub) h.nodup

theorem Sound.congr {layers' : Layers} (h : Sound available used layers pool)
    (hcell : ∀ l t, layers'.cell l t = layers.cell l t)
    (hflat : layers'.flatten = layers.flatten) : Sound available used layers' pool where
  spent l t tx htx input hi := by
    rw [hcell] at htx
    have hs := h.spent l t tx htx input hi
    exact ⟨hs.1.mono (fun l t tx htx => by rw [hcell,htx]),hs.2⟩
  unspent input hi := (h.unspent input hi).mono (fun l t tx htx => by rw [hcell,htx])
  nodup := by
    rw [consumed,hflat]
    exact h.nodup

theorem Sound.pad (h : Sound available used layers pool) (i : Nat) :
    Sound available used (layers.pad i) pool :=
  h.congr (fun l t => Grid.cell_pad layers i l t) (Grid.flatten_pad layers i)

theorem consumed_push_perm (layers : Layers) (l : Nat) (tx : PrepTransaction) :
    (consumed (layers.push l tx)).Perm (tx.inputs ++ consumed layers) :=
  (Grid.flatten_push_perm layers l tx).flatMap_right PrepTransaction.inputs

/-- Spending pool notes in one new transaction keeps the layers sound, and the feeders of the
transaction join the pool. -/
theorem Sound.push (h : Sound available used layers pool) (l : Nat) (tx : PrepTransaction)
    (rest : List PrepInput) (hsub : (tx.inputs ++ rest).Subperm pool)
    (hbefore : ∀ input ∈ tx.inputs, input.Before l) :
    Sound available used (layers.push l tx)
      (rest ++ feedersOf l (layers.rowLength l) tx) := by
  have hmono : ∀ input, Spendable available used layers input →
      Spendable available used (layers.push l tx) input := fun input hs =>
    hs.mono (fun _ _ _ hc => Grid.cell_push_of_some hc)
  have hpool : ∀ input ∈ tx.inputs ++ rest, Spendable available used layers input :=
    fun input hi => h.unspent input (hsub.subset hi)
  refine ⟨?_,?_,?_⟩
  · intro k t tx' hcell input hi
    rw [Grid.cell_push] at hcell
    split at hcell
    · rename_i hkt
      cases hcell
      exact ⟨hmono input (hpool input (List.mem_append_left _ hi)),hkt.1 ▸ hbefore input hi⟩
    · exact ⟨hmono input (h.spent k t tx' hcell input hi).1,(h.spent k t tx' hcell input hi).2⟩
  · intro input hi
    rcases List.mem_append.mp hi with hi | hi
    · exact hmono input (hpool input (List.mem_append_right _ hi))
    · obtain ⟨o,v,ho,rfl⟩ := mem_feedersOf.mp hi
      exact ⟨tx,Grid.cell_push_self layers l tx,ho⟩
  · have hold : ((tx.inputs ++ consumed layers) ++ rest).Nodup := by
      have hs : ((tx.inputs ++ consumed layers) ++ rest).Subperm (consumed layers ++ pool) := by
        refine List.Perm.subperm_right ?_ |>.mp ((List.subperm_append_left (consumed layers)).mpr hsub)
        rw [← List.append_assoc]
        exact List.perm_append_comm.append_right rest
      exact nodup_of_subperm hs h.nodup
    have hperm := ((consumed_push_perm layers l tx).append_right
      (rest ++ feedersOf l (layers.rowLength l) tx))
    rw [hperm.nodup_iff,← List.append_assoc]
    refine List.Nodup.append hold (feedersOf_nodup _ _ _) ?_
    intro input hi hf
    -- A feeder of the new transaction names a coordinate that held nothing before.
    obtain ⟨o,v,_,rfl⟩ := mem_feedersOf.mp hf
    have hs : Spendable available used layers (.prior l (layers.rowLength l) o v) := by
      rcases List.mem_append.mp hi with hi | hi
      · rcases List.mem_append.mp hi with hi | hi
        · exact hpool _ (List.mem_append_left _ hi)
        · exact h.consumed_spendable hi
      · exact hpool _ (List.mem_append_right _ hi)
    obtain ⟨tx',htx',_⟩ := hs
    rw [Grid.cell_rowLength] at htx'
    cases htx'

variable {txs : List PrepTransaction}

theorem Sound.pushLast (h : Sound available used (layers ++ [txs]) pool) (tx : PrepTransaction)
    (rest : List PrepInput) (hsub : (tx.inputs ++ rest).Subperm pool)
    (hbefore : ∀ input ∈ tx.inputs, input.Before layers.length) :
    Sound available used (layers ++ [txs ++ [tx]])
      (rest ++ feedersOf layers.length txs.length tx) := by
  have hpush := h.push layers.length tx rest hsub hbefore
  rwa [Grid.push_last,Grid.rowLength_append_last] at hpush

theorem Sound.openLayer (h : Sound available used layers pool) :
    Sound available used (layers ++ [[]]) pool :=
  h.congr (fun l t => Grid.cell_append_nil layers l t) (by simp)

variable {sort : NoteSort} {fee l t : Nat}

theorem feedersOf_single (l t : Nat) (input : List PrepInput) (value : Zatoshis) :
    feedersOf l t ⟨input,[.intermediate value]⟩ = [.prior l t 0 value] := rfl

theorem consolidateBatches_sound {sizes : List Nat} {next leftover : List PrepInput}
    {result : Consolidation}
    (h : Sound available used (layers ++ [txs]) (pool ++ (next ++ leftover)))
    (hbefore : ∀ input ∈ pool, input.Before layers.length)
    (hrun : consolidateBatches layers.length fee sizes pool txs next leftover = .ok result) :
    Sound available used (layers ++ [result.txs]) (result.next ++ result.leftover) := by
  induction sizes generalizing pool txs next leftover with
  | nil =>
    cases hrun
    exact h.mono (List.sublist_append_right _ _).subperm
  | cons size sizes ih =>
    have hsplit : pool.take size ++ pool.drop size = pool := List.take_append_drop size pool
    have hdrop : ∀ input ∈ pool.drop size, input.Before layers.length :=
      fun input hi => hbefore input (List.mem_of_mem_drop hi)
    rw [← hsplit] at h
    simp only [consolidateBatches] at hrun
    split at hrun
    · refine ih (h.mono (List.Perm.subperm ?_)) hdrop hrun
      refine List.perm_iff_count.mpr fun a => ?_
      simp only [List.count_append]
      omega
    · obtain ⟨feeder,_,hrun⟩ := bind_ok hrun
      rw [List.append_assoc] at h
      have hpush := h.pushLast ⟨pool.take size,[.intermediate feeder]⟩ _ (List.Subperm.refl _)
        (fun input hi => hbefore input (List.mem_of_mem_take hi))
      refine ih (hpush.mono (List.Perm.subperm ?_)) hdrop hrun
      refine List.perm_iff_count.mpr fun a => ?_
      simp only [feedersOf_single,List.count_append]
      omega

theorem consolidate_sound (next : List PrepInput) {result : Consolidation}
    (h : Sound available used (layers ++ [txs]) (pool ++ next))
    (hbefore : ∀ input ∈ pool, input.Before layers.length)
    (hrun : consolidate sort pool layers.length fee txs next = .ok result) :
    Sound available used (layers ++ [result.txs]) (result.next ++ result.leftover) := by
  unfold consolidate at hrun
  split at hrun
  · cases hrun
    exact h.mono List.perm_append_comm.subperm
  · refine consolidateBatches_sound (h.mono (List.Perm.subperm ?_)) (fun input hi => ?_) hrun
    · rw [List.append_nil]
      exact (sort.perm pool).append_right next
    · exact hbefore input ((sort.perm pool).mem_iff.mp hi)

theorem consolidate_layer_sound {result : Consolidation} (h : Sound available used layers pool)
    (hrun : consolidate sort pool layers.length fee [] [] = .ok result) :
    Sound available used (layers ++ [result.txs]) (result.next ++ result.leftover) := by
  refine consolidate_sound [] ?_ (fun input hi => (h.unspent input hi).before) hrun
  rw [List.append_nil]
  exact h.openLayer

variable {fuel : Nat}

theorem mergeLoop_rule {P : Layers → List PrepInput → Prop}
    (hround : ∀ {layers current result}, P layers current →
      consolidate sort current (List.length layers) fee [] [] = .ok result →
        P (layers ++ [result.txs]) (result.next ++ result.leftover))
    {current : List PrepInput} {result : List PrepInput × Layers} (h : P layers current)
    (hrun : mergeLoop sort fee fuel current layers = .ok result) :
    P result.2 result.1 ∧ result.1.length ≤ 1 := by
  induction fuel generalizing current layers with
  | zero => cases hrun
  | succ fuel ih =>
    simp only [mergeLoop] at hrun
    split at hrun
    · cases hrun
      exact ⟨h,‹_›⟩
    · obtain ⟨⟨txs,next,leftover⟩,hc,hrun⟩ := bind_ok hrun
      simp only at hrun
      split at hrun
      · cases hrun
      · exact ih (hround h hc) hrun

theorem mergeLoop_sound {current : List PrepInput} {result : List PrepInput × Layers}
    (h : Sound available used layers current)
    (hrun : mergeLoop sort fee fuel current layers = .ok result) :
    Sound available used result.2 result.1 :=
  (mergeLoop_rule consolidate_layer_sound h hrun).1

theorem assignPass_subperm (fee : Nat) (notes : List PrepInput) (remaining : List Nat) :
    ((assignPass fee notes remaining).1.map PartialTx.input ++
      (assignPass fee notes remaining).2.1).Subperm notes := by
  induction notes generalizing remaining with
  | nil => exact List.Subperm.refl _
  | cons input notes ih =>
    simp only [assignPass]
    split
    · exact (ih remaining).cons_right input
    · split
      · exact List.perm_middle.subperm.trans ((List.subperm_cons input).mpr (ih remaining))
      · exact (List.subperm_cons input).mpr (ih _)

theorem mintPass_sound {partials : List PartialTx} {rest : List PrepInput}
    (next : List PrepInput) {next' : List PrepInput} {txs' : List PrepTransaction}
    (h : Sound available used (layers ++ [txs]) (partials.map PartialTx.input ++ (rest ++ next)))
    (hbefore : ∀ partialTx ∈ partials, partialTx.input.Before layers.length)
    (hrun : mintPass layers.length partials txs next = .ok (txs',next')) :
    Sound available used (layers ++ [txs']) (rest ++ next') := by
  induction partials generalizing txs next with
  | nil =>
    cases hrun
    exact h
  | cons partialTx partials ih =>
    obtain ⟨input,assigned,leftover⟩ := partialTx
    obtain ⟨outputs,_,hrun⟩ := bind_ok hrun
    have hrest : ∀ partialTx ∈ partials, partialTx.input.Before layers.length :=
      fun partialTx hp => hbefore partialTx (List.mem_cons_of_mem _ hp)
    have hpush (outputs : List PrepOutput) := h.pushLast ⟨[input],outputs⟩
      (partials.map PartialTx.input ++ (rest ++ next)) (List.Subperm.refl _) (fun i hi => by
        rw [List.mem_singleton.mp hi]
        exact hbefore _ (List.mem_cons_self ..))
    split at hrun
    · obtain ⟨amount,_,hrun⟩ := bind_ok hrun
      have hmem : PrepInput.prior layers.length txs.length outputs.length amount ∈
          feedersOf layers.length txs.length ⟨[input],outputs ++ [.intermediate amount]⟩ :=
        mem_feedersOf.mpr ⟨outputs.length,amount,by simp,rfl⟩
      refine ih _ ((hpush _).mono ?_) hrest hrun
      simp only [List.append_assoc,List.subperm_append_left,List.singleton_subperm_iff]
      exact hmem
    · refine ih _ ((hpush _).mono ?_) hrest hrun
      exact (List.sublist_append_left _ _).subperm

variable {result : Layers}

theorem greedyLoop_sound {remaining : List Nat} {current : List PrepInput}
    (h : Sound available used layers current)
    (hrun : greedyLoop sort fee fuel remaining current layers = .ok result) :
    Sound available used result [] := by
  induction fuel generalizing remaining current layers with
  | zero => cases hrun
  | succ fuel ih =>
    simp only [greedyLoop] at hrun
    split at hrun
    · cases hrun
      exact h.mono (List.nil_subperm)
    split at hrun
    · cases hrun
    obtain ⟨⟨txs,next⟩,hm,hrun⟩ := bind_ok hrun
    obtain ⟨⟨txs',next',leftover⟩,hc,hrun⟩ := bind_ok hrun
    simp only at hrun
    split at hrun
    · cases hrun
    have hassign := (assignPass_subperm fee (sort.sort current) remaining).trans
      (sort.perm current).subperm
    have hbefore : ∀ input ∈ (assignPass fee (sort.sort current) remaining).1.map PartialTx.input ++
        (assignPass fee (sort.sort current) remaining).2.1, input.Before layers.length :=
      fun input hi => (h.unspent input (hassign.subset hi)).before
    have hmint := mintPass_sound [] (by
        rw [List.append_nil]
        exact h.openLayer.mono hassign)
      (fun p hp => hbefore _ (List.mem_append_left _ (List.mem_map_of_mem hp))) hm
    have hcons := consolidate_sound next hmint
      (fun input hi => hbefore input (List.mem_append_right _ hi)) hc
    exact ih (hcons.mono (List.sublist_append_left _ _).subperm) hrun

/-- The references to consecutive outputs of one transaction. -/
def outputRefs (l t o : Nat) (amounts : List Zatoshis) : List PrepInput :=
  (amounts.zipIdx o).map fun (v, o) => .prior l t o v

theorem outputRefs_subperm (l t : Nat) (input : List PrepInput) (amounts : List Zatoshis)
    (extra : List PrepOutput) :
    (outputRefs l t 0 amounts).Subperm
      (feedersOf l t ⟨input,amounts.map PrepOutput.intermediate ++ extra⟩) := by
  refine List.Sublist.subperm ?_
  unfold feedersOf outputRefs
  rw [List.zipIdx_append,List.filterMap_append]
  refine List.Sublist.trans ?_ (List.sublist_append_left _ _)
  rw [List.zipIdx_map,List.filterMap_map,← List.filterMap_eq_map]
  exact List.Sublist.refl _

theorem buildChildren_sound {build : PrepInput → Nat → List Nat → Layers → PrepResult Layers}
    (hbuild : ∀ {child value group layers result pool},
      Sound available used layers (child :: pool) → child.Before (l + 1) →
      build child value group layers = .ok result → Sound available used result pool)
    {children : List (List Nat × Nat)} (amounts : List Zatoshis) {o : Nat}
    (hamounts : List.Forall₂ (fun child amount => zat child.2 = .ok amount) children amounts)
    (h : Sound available used layers (outputRefs l t o amounts ++ pool))
    (hrun : buildChildren build l t o children layers = .ok result) :
    Sound available used result pool := by
  induction hamounts generalizing o layers with
  | nil =>
    cases hrun
    exact h
  | @cons child amount children amounts hzat _ ih =>
    obtain ⟨group,childValue⟩ := child
    obtain ⟨value,hvalue,hrun⟩ := bind_ok hrun
    obtain ⟨layers',hchild,hrun⟩ := bind_ok hrun
    have hv : value = amount := Except.ok.inj (hvalue.symm.trans hzat)
    subst hv
    exact ih (hbuild h (Nat.lt_succ_self l) hchild) hrun

variable {values : List Nat}

private theorem mapM_outputs {kind : Zatoshis → PrepOutput} {outputs : List PrepOutput}
    (h : values.mapM (fun v => kind <$> zat v) = .ok outputs) :
    ∃ amounts, outputs = amounts.map kind ∧
      List.Forall₂ (fun v amount => zat v = .ok amount) values amounts := by
  have hall := mapM_ok h
  clear h
  induction hall with
  | nil => exact ⟨[],rfl,.nil⟩
  | cons hx _ ih =>
    obtain ⟨amounts,rfl,hamounts⟩ := ih
    obtain ⟨amount,hamount,rfl⟩ := map_ok hx
    exact ⟨amount :: amounts,rfl,.cons hamount hamounts⟩

theorem buildSplit_sound {source : PrepInput} {sourceValue : Nat} {targets : List Nat} {layer : Nat}
    (h : Sound available used layers (source :: pool)) (hbefore : source.Before layer)
    (hrun : buildSplit fee fuel source sourceValue targets layer layers = .ok result) :
    Sound available used result pool := by
  induction fuel generalizing source sourceValue targets layer layers result pool with
  | zero => cases hrun
  | succ fuel ih =>
    have hpush (outputs : List PrepOutput) := (h.pad layer).push layer ⟨[source],outputs⟩ pool
      (List.Subperm.refl _) (fun input hi => List.mem_singleton.mp hi ▸ hbefore)
    simp only [buildSplit] at hrun
    split at hrun
    · obtain ⟨outputs,_,hrun⟩ := bind_ok hrun
      obtain ⟨leftover,_,hrun⟩ := bind_ok hrun
      cases hrun
      exact (hpush _).mono (List.sublist_append_left _ _).subperm
    · obtain ⟨outputs,houtputs,hrun⟩ := bind_ok hrun
      obtain ⟨leftover,_,hrun⟩ := bind_ok hrun
      obtain ⟨amounts,rfl,hamounts⟩ := mapM_outputs houtputs
      refine buildChildren_sound (fun hc hb hr => ih hc hb hr) amounts ?_
        ((hpush _).mono ?_) hrun
      · rw [← List.map_prod_left_eq_zip,List.forall₂_map_left_iff]
        exact List.forall₂_map_left_iff.mp hamounts
      · refine List.perm_append_comm.subperm.trans ?_
        rw [List.subperm_append_left]
        exact outputRefs_subperm _ _ _ _ _

theorem spentCoordinates_eq (layers : Layers) :
    spentCoordinates layers = (consumed layers).filterMap PrepInput.priorCoordinate := by
  rw [spentCoordinates,consumed,List.filterMap_flatMap]

theorem mem_spentCoordinates {l t o : Nat} :
    (l,t,o) ∈ spentCoordinates layers ↔ ∃ v, PrepInput.prior l t o v ∈ consumed layers := by
  rw [spentCoordinates_eq,List.mem_filterMap]
  constructor
  · rintro ⟨input,hi,hc⟩
    cases input with
    | wallet index value => cases hc
    | prior l' t' o' v =>
      cases hc
      exact ⟨v,hi⟩
  · rintro ⟨v,hv⟩
    exact ⟨_,hv,rfl⟩

theorem mem_intermediateRefs : input ∈ intermediateRefs layers ↔
      ∃ l t tx, layers.cell l t = some tx ∧ input ∈ feedersOf l t tx := by
  rw [intermediateRefs,List.mem_flatten]
  simp only [Grid.mem_flatten,Grid.cell_mapIdx,Option.map_eq_some_iff]
  constructor
  · rintro ⟨_,⟨l,t,tx,htx,rfl⟩,hi⟩
    exact ⟨l,t,tx,htx,hi⟩
  · rintro ⟨l,t,tx,htx,hi⟩
    exact ⟨_,⟨l,t,tx,htx,rfl⟩,hi⟩

theorem intermediateRefs_nodup (layers : Layers) : (intermediateRefs layers).Nodup := by
  rw [intermediateRefs,List.nodup_flatten]
  constructor
  · intro refs hrefs
    obtain ⟨l,t,hcell⟩ := Grid.mem_flatten.mp hrefs
    rw [Grid.cell_mapIdx] at hcell
    obtain ⟨tx,_,rfl⟩ := Option.map_eq_some_iff.mp hcell
    exact feedersOf_nodup l t tx
  · refine Grid.pairwise_mapIdx fun l t tx l' t' tx' hne input hi hi' => hne ?_
    obtain ⟨o,v,_,rfl⟩ := mem_feedersOf.mp hi
    obtain ⟨o',v',_,heq⟩ := mem_feedersOf.mp hi'
    cases heq
    rfl

theorem unconsumedFeeders_sound (h : Sound available used layers []) :
    Sound available used layers (unconsumedFeeders layers) where
  spent := h.spent
  unspent input hi := by
    obtain ⟨l,t,tx,hcell,hf⟩ := mem_intermediateRefs.mp (List.mem_filter.mp hi).1
    obtain ⟨o,v,ho,rfl⟩ := mem_feedersOf.mp hf
    exact ⟨tx,hcell,ho⟩
  nodup := by
    have hconsumed : (consumed layers).Nodup := by simpa using h.nodup
    refine hconsumed.append ((intermediateRefs_nodup layers).filter _) ?_
    intro input hi hf
    obtain ⟨hr,hs⟩ := List.mem_filter.mp hf
    obtain ⟨l,t,tx,hcell,hf⟩ := mem_intermediateRefs.mp hr
    obtain ⟨o,v,ho,rfl⟩ := mem_feedersOf.mp hf
    have hmem : (l,t,o) ∈ spentCoordinates layers := mem_spentCoordinates.mpr ⟨v,hi⟩
    simp [PrepInput.spentIn,PrepInput.priorCoordinate,hmem] at hs

theorem residualLoop_rule {P : Layers → Prop}
    (hround : ∀ {layers result}, P layers → consolidate sort (unconsumedFeeders layers)
      (List.length layers) fee [] [] = .ok result → P (layers ++ [result.txs]))
    (h : P layers) (hrun : residualLoop sort fee fuel layers = .ok result) : P result := by
  induction fuel generalizing layers with
  | zero => cases hrun
  | succ fuel ih =>
    simp only [residualLoop] at hrun
    split at hrun
    · cases hrun
      exact h
    obtain ⟨⟨txs,next,leftover⟩,hc,hrun⟩ := bind_ok hrun
    simp only at hrun
    split at hrun
    · cases hrun
      exact h
    · exact ih (hround h hc) hrun

theorem residualLoop_sound (h : Sound available used layers [])
    (hrun : residualLoop sort fee fuel layers = .ok result) :
    Sound available used result [] :=
  residualLoop_rule (fun h hc =>
    (consolidate_layer_sound (unconsumedFeeders_sound h) hc).mono List.nil_subperm) h hrun

theorem relabelUnspent_cell (l t : Nat) : (relabelUnspent layers).cell l t =
    (layers.cell l t).map (relabelTransaction (spentCoordinates layers) l t) :=
  Grid.cell_mapIdx _ layers l t

theorem consumed_relabelUnspent (layers : Layers) :
    consumed (relabelUnspent layers) = consumed layers := by
  have hflat := Grid.map_flatten_mapIdx (f := relabelTransaction (spentCoordinates layers))
    (h := PrepTransaction.inputs) (k := PrepTransaction.inputs) (fun _ _ _ => rfl) layers
  rw [consumed,consumed,relabelUnspent,List.flatMap_def,List.flatMap_def,hflat]

theorem relabelOutput_intermediate {spent : List Coordinate} {l t o : Nat} {output : PrepOutput}
    {v : Zatoshis} : relabelOutput spent l t o output = .intermediate v ↔
      output = .intermediate v ∧ (l,t,o) ∈ spent := by
  cases output with
  | funding value => simp [relabelOutput]
  | change value => simp [relabelOutput]
  | intermediate value =>
    by_cases hs : (l,t,o) ∈ spent <;> simp [relabelOutput,hs]

theorem relabelUnspent_intermediate {l t o : Nat} {v : Zatoshis} :
    (∃ tx, (relabelUnspent layers).cell l t = some tx ∧
        tx.outputs[o]? = some (.intermediate v)) ↔
      (∃ tx, layers.cell l t = some tx ∧ tx.outputs[o]? = some (.intermediate v)) ∧
        (l,t,o) ∈ spentCoordinates layers := by
  rw [relabelUnspent_cell]
  cases layers.cell l t with
  | none => simp
  | some tx =>
    simp only [Option.map_some,Option.some.injEq,exists_eq_left',relabelTransaction,
      List.getElem?_map,List.getElem?_zipIdx,Option.map_map]
    cases tx.outputs[o]? with
    | none => simp
    | some output => simp [relabelOutput_intermediate]

theorem unusedPosition_spec {used : List Bool} {funding index : Nat}
    (h : unusedPosition values used funding = some index) :
    values[index]? = some funding ∧ used[index]? = some false := by
  obtain ⟨hlt,hp,_⟩ := List.findIdx?_eq_some_iff_getElem.mp h
  simp only [List.getElem_zip,Bool.and_eq_true,Bool.not_eq_true',beq_iff_eq] at hp
  rw [List.length_zip] at hlt
  rw [List.getElem?_eq_getElem (by omega),List.getElem?_eq_getElem (by omega)]
  exact ⟨congrArg some hp.2,congrArg some hp.1⟩

/-- Direct matches are distinct unused notes of exactly the matched value, now marked as used. -/
structure DirectSound (values : List Nat) (used used' : List Bool)
    (direct : List (Nat × Zatoshis)) : Prop where
  note : ∀ p ∈ direct, values[p.1]? = some p.2.value
  fresh : ∀ p ∈ direct, used[p.1]? = some false
  marked : ∀ p ∈ direct, used'[p.1]? = some true
  kept : ∀ i : Nat, used[i]? = some true → used'[i]? = some true
  nodup : (direct.map Prod.fst).Nodup

variable {direct : List (Nat × Zatoshis)}

theorem extractDirectFunding_sound {targets kept : List Nat} {used used' : List Bool}
    (h : extractDirectFunding values targets used = .ok (used',direct,kept)) :
    DirectSound values used used' direct := by
  induction targets generalizing used direct kept with
  | nil =>
    cases h
    exact ⟨by simp,by simp,by simp,fun _ hi => hi,by simp⟩
  | cons funding targets ih =>
    simp only [extractDirectFunding] at h
    split at h
    · rename_i index hpos
      obtain ⟨amount,hamount,h⟩ := bind_ok h
      obtain ⟨⟨used₁,direct₁,kept₁⟩,hrest,h⟩ := bind_ok h
      cases h
      obtain ⟨hvalue,hfree⟩ := unusedPosition_spec hpos
      have hrest := ih hrest
      have hlt : index < used.length := (List.getElem?_eq_some_iff.mp hfree).1
      have hset : (used.set index true)[index]? = some true := by simp [hlt]
      have hne : ∀ p ∈ direct₁, p.1 ≠ index := by
        rintro p hp rfl
        have hfalse := hrest.fresh p hp
        rw [hset] at hfalse
        cases hfalse
      refine ⟨?_,?_,?_,fun i hi => ?_,?_⟩
      · exact List.forall_mem_cons.mpr ⟨by rw [zat_ok hamount,hvalue],hrest.note⟩
      · refine List.forall_mem_cons.mpr ⟨hfree,fun p hp => ?_⟩
        rw [← List.getElem?_set_ne (hne p hp).symm]
        exact hrest.fresh p hp
      · exact List.forall_mem_cons.mpr ⟨hrest.kept index hset,hrest.marked⟩
      · refine hrest.kept i ?_
        by_cases hi' : index = i
        · exact hi' ▸ hset
        · rw [List.getElem?_set_ne hi']
          exact hi
      · refine List.nodup_cons.mpr ⟨fun hmem => ?_,hrest.nodup⟩
        obtain ⟨p,hp,hpi⟩ := List.mem_map.mp hmem
        exact hne p hp hpi
    · obtain ⟨⟨used₁,direct₁,kept₁⟩,hrest,h⟩ := bind_ok h
      cases h
      exact ih hrest

private theorem foldl_keepLargest {P : Nat → Nat → Prop} {notes : List ((Nat × Bool) × Nat)}
    {best : Option (Nat × Nat)} (hnotes : ∀ n ∈ notes, P n.2 n.1.1)
    (hbest : ∀ i v, best = some (i,v) → P i v) {i v : Nat}
    (h : notes.foldl keepLargest best = some (i,v)) : P i v := by
  induction notes generalizing best with
  | nil => exact hbest i v h
  | cons n notes ih =>
    obtain ⟨hn,hnotes⟩ := List.forall_mem_cons.mp hnotes
    refine ih hnotes (fun i v hk => ?_) h
    cases best with
    | none =>
      cases hk
      exact hn
    | some best =>
      simp only [keepLargest] at hk
      split at hk
      · cases hk
        exact hn
      · cases hk
        exact hbest _ _ rfl

theorem largestUnused_spec {used : List Bool} {index value : Nat}
    (h : largestUnused values used = some (index,value)) :
    values[index]? = some value ∧ used[index]? = some false := by
  refine foldl_keepLargest (P := fun i v => values[i]? = some v ∧ used[i]? = some false)
    (fun n hn => ?_) (by simp) h
  obtain ⟨hn,hfree⟩ := List.mem_filter.mp hn
  have hzip := List.mem_zipIdx_iff_getElem?.mp hn
  rw [List.getElem?_zip_eq_some] at hzip
  simp only [Bool.not_eq_true'] at hfree
  exact ⟨hzip.1,hfree ▸ hzip.2⟩

theorem mem_walletNotes {keep : Nat → Bool} :
    input ∈ walletNotes available used keep ↔ ∃ index value, input = .wallet index value ∧
      available[index]? = some value ∧ used[index]? = some false ∧ keep value.value = true := by
  simp only [walletNotes,List.mem_filterMap,Prod.exists,List.mem_zipIdx_iff_getElem?,
    List.getElem?_zip_eq_some,Option.ite_none_right_eq_some,Bool.and_eq_true,
    Bool.not_eq_true',Option.some.injEq]
  constructor
  · rintro ⟨value,_,index,⟨hvalue,hused⟩,⟨rfl,hkeep⟩,rfl⟩
    exact ⟨index,value,rfl,hvalue,hused,hkeep⟩
  · rintro ⟨index,value,rfl,hvalue,hused,hkeep⟩
    exact ⟨value,false,index,⟨hvalue,hused⟩,⟨rfl,hkeep⟩,rfl⟩

theorem walletNotes_nodup (keep : Nat → Bool) : (walletNotes available used keep).Nodup := by
  have hidx : ((available.zip used).zipIdx.map Prod.snd).Nodup := by
    rw [List.zipIdx_map_snd]
    exact List.nodup_range'
  refine List.Nodup.filterMap ?_ hidx.of_map
  rintro ⟨⟨a,u⟩,i⟩ ⟨⟨b,w⟩,j⟩ c ha hb
  simp only [Option.mem_def,Option.ite_none_right_eq_some,Bool.and_eq_true,
    Bool.not_eq_true',Option.some.injEq] at ha hb
  obtain ⟨⟨rfl,_⟩,rfl⟩ := ha
  obtain ⟨⟨rfl,_⟩,hb⟩ := hb
  cases hb
  rfl

theorem Sound.start {notes : List PrepInput} (hnodup : notes.Nodup)
    (hnotes : ∀ input ∈ notes, Spendable available used [] input) :
    Sound available used [] notes where
  spent l t tx h := by simp [Grid.cell] at h
  unspent := hnotes
  nodup := by simpa [consumed] using hnodup

theorem walletNotes_sound (keep : Nat → Bool) :
    Sound available used [] (walletNotes available used keep) := by
  refine Sound.start (walletNotes_nodup keep) fun input hi => ?_
  obtain ⟨index,value,rfl,hvalue,hused,_⟩ := mem_walletNotes.mp hi
  exact ⟨hvalue,hused⟩

/-- The notes a plan spends, and the direct notes, are spent once; every reference names what it
is said to name; every intermediate output is spent. -/
structure PreparationPlan.Sound (available : List Zatoshis) (plan : PreparationPlan) : Prop where
  spent : ∀ l t tx, plan.layers.cell l t = some tx → ∀ input ∈ tx.inputs, input.Before l
  wallet : ∀ index value, .wallet index value ∈ consumed plan.layers →
    available[index]? = some value ∧ index ∉ plan.directFunding.map Prod.fst
  intermediate : ∀ l t o v, .prior l t o v ∈ consumed plan.layers ↔
    ∃ tx, plan.layers.cell l t = some tx ∧ tx.outputs[o]? = some (.intermediate v)
  nodup : (consumed plan.layers).Nodup
  direct : ∀ p ∈ plan.directFunding, available[p.1]? = some p.2
  direct_nodup : (plan.directFunding.map Prod.fst).Nodup

theorem relabelUnspent_sound (h : Sound available used layers [])
    (hdirect : ∀ p ∈ direct, available[p.1]? = some p.2)
    (hused : ∀ p ∈ direct, used[p.1]? = some true) (hnodup : (direct.map Prod.fst).Nodup) :
    PreparationPlan.Sound available ⟨relabelUnspent layers,direct⟩ := by
  refine ⟨?_,?_,?_,?_,hdirect,hnodup⟩
  · intro l t tx hcell input hi
    rw [relabelUnspent_cell] at hcell
    obtain ⟨tx,htx,rfl⟩ := Option.map_eq_some_iff.mp hcell
    exact (h.spent l t tx htx input hi).2
  · intro index value hi
    rw [consumed_relabelUnspent] at hi
    obtain ⟨hvalue,hfree⟩ := h.consumed_spendable hi
    refine ⟨hvalue,fun hmem => ?_⟩
    obtain ⟨p,hp,rfl⟩ := List.mem_map.mp hmem
    rw [hused p hp] at hfree
    cases hfree
  · intro l t o v
    rw [consumed_relabelUnspent,relabelUnspent_intermediate]
    constructor
    · exact fun hi => ⟨h.consumed_spendable hi,mem_spentCoordinates.mpr ⟨v,hi⟩⟩
    · rintro ⟨⟨tx,htx,ho⟩,hspent⟩
      obtain ⟨w,hw⟩ := mem_spentCoordinates.mp hspent
      obtain ⟨tx',htx',ho'⟩ := h.consumed_spendable hw
      rw [htx] at htx'
      cases htx'
      rw [ho] at ho'
      cases ho'
      exact hw
  · rw [consumed_relabelUnspent]
    simpa using h.nodup

private theorem direct_available {values : List Zatoshis} {i : Nat} {v : Zatoshis}
    (h : (values.map Zatoshis.value)[i]? = some v.value) : values[i]? = some v := by
  rw [List.getElem?_map] at h
  obtain ⟨w,hw,hv⟩ := Option.map_eq_some_iff.mp h
  cases w
  cases v
  cases hv
  exact hw

private theorem plan_of_layers {values : List Zatoshis} {targets kept : List Nat}
    {used₀ : List Bool}
    (hd : extractDirectFunding (values.map Zatoshis.value) targets used₀ = .ok (used,direct,kept))
    (h : Sound values used layers []) :
    PreparationPlan.Sound values ⟨relabelUnspent layers,direct⟩ := by
  have hdirect := extractDirectFunding_sound hd
  exact relabelUnspent_sound h (fun p hp => direct_available (hdirect.note p hp)) hdirect.marked
    hdirect.nodup

/-- Either the split tree did all the work and the greedy loop stops at once, or the greedy loop
starts from no layer with every unused note. -/
theorem greedyLayers_sound {remaining remaining' : List Nat} {keep : Nat → Bool} {greedy : Layers}
    (hsplit : splitLargest fee (available.map Zatoshis.value) used remaining =
      .ok (remaining',layers))
    (hgreedy : greedyLoop sort fee (fuel + 1) remaining' (walletNotes available used keep) layers =
      .ok greedy) :
    Sound available used greedy [] := by
  rcases Decidable.em (layers = []) with rfl | hlayers
  · exact greedyLoop_sound (walletNotes_sound _) hgreedy
  · unfold splitLargest at hsplit
    split at hsplit
    · rename_i index big hbig
      split at hsplit
      · obtain ⟨value,hvalue,hsplit⟩ := bind_ok hsplit
        obtain ⟨built,hbuilt,hsplit⟩ := bind_ok hsplit
        cases hsplit
        obtain ⟨hnote,hfree⟩ := largestUnused_spec hbig
        rw [← zat_ok hvalue] at hnote
        have hstart : Sound available used [] [PrepInput.wallet index value] :=
          Sound.start (List.nodup_singleton _) (by
            simpa [Spendable] using ⟨direct_available hnote,hfree⟩)
        cases hgreedy
        exact buildSplit_sound hstart trivial hbuilt
      · cases hsplit
        exact absurd rfl hlayers
    · cases hsplit
      exact absurd rfl hlayers

variable {funding : List Zatoshis} {feePerTx : Zatoshis}

theorem planPreparationGreedy_sound {plan : PreparationPlan}
    (h : planPreparationGreedy sort available funding feePerTx = .ok plan) :
    plan.Sound available := by
  unfold planPreparationGreedy at h
  split at h
  · cases h
  obtain ⟨⟨used,direct,remaining⟩,hd,h⟩ := bind_ok h
  simp only at h
  split at h
  · cases h
    exact plan_of_layers hd (Sound.start .nil (by simp))
  obtain ⟨⟨remaining',layers⟩,hsplit,h⟩ := bind_ok h
  obtain ⟨greedy,hgreedy,h⟩ := bind_ok h
  obtain ⟨residual,hresidual,h⟩ := bind_ok h
  cases h
  exact plan_of_layers hd (residualLoop_sound (greedyLayers_sound hsplit hgreedy) hresidual)

theorem planPreparationViaConsolidation_sound {plan : PreparationPlan}
    (h : planPreparationViaConsolidation sort available funding feePerTx = .ok plan) :
    plan.Sound available := by
  unfold planPreparationViaConsolidation at h
  split at h
  · cases h
  obtain ⟨⟨used,direct,targets⟩,hd,h⟩ := bind_ok h
  simp only at h
  split at h
  · cases h
    exact plan_of_layers hd (Sound.start .nil (by simp))
  split at h
  · cases h
  obtain ⟨⟨current,layers⟩,hmerge,h⟩ := bind_ok h
  simp only at h
  split at h
  · cases h
  · rename_i source hlast
    split at h
    · cases h
    obtain ⟨built,hbuilt,h⟩ := bind_ok h
    cases h
    have hmerged := mergeLoop_sound (walletNotes_sound _) hmerge
    have hsource : Sound available used layers [source] :=
      hmerged.mono (List.singleton_subperm_iff.mpr (List.mem_of_getLast? hlast))
    exact plan_of_layers hd (buildSplit_sound hsource
      (hsource.unspent source (List.mem_singleton.mpr rfl)).before hbuilt)

theorem planPreparation_sound {plan : PreparationPlan}
    (h : planPreparation sort available funding feePerTx = .ok plan) : plan.Sound available := by
  unfold planPreparation at h
  split at h
  · exact planPreparationViaConsolidation_sound h
  · exact planPreparationGreedy_sound h

end CoppiceWallet.Planner
