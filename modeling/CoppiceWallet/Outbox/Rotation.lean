import Mathlib.Data.Finset.Dedup
import CoppiceWallet.Lib.RoundRobin
import CoppiceWallet.Outbox.Pauses

/-! # Turns between accounts and between endpoints -/

namespace CoppiceWallet.Outbox

open CoppiceWallet.Lib CoppiceWallet.Store

theorem mem_orderedKeys {keys : List Text} {key : Text} : key ∈ orderedKeys keys ↔ key ∈ keys := by
  rw [orderedKeys,List.mem_insertionSort,List.mem_dedup]

theorem orderedKeys_sorted (keys : List Text) : (orderedKeys keys).Pairwise (· < ·) := by
  have hsorted : (orderedKeys keys).Pairwise (· ≤ ·) := List.pairwise_insertionSort _ _
  have hnodup : (orderedKeys keys).Nodup :=
    (List.perm_insertionSort _ _).nodup_iff.mpr (List.nodup_dedup keys)
  exact (hsorted.and hnodup).imp fun h => lt_of_le_of_ne h.1 h.2

/-- The remembered key is there, or all keys that are there are on one side of it. -/
def KeepsTurn (last : Option Text) (keys : List Text) : Prop :=
  ∀ key ∈ last, key ∈ keys ∨ (∀ other ∈ keys, other ≤ key) ∨ ∀ other ∈ keys, key ≤ other

instance (last : Option Text) (keys : List Text) : Decidable (KeepsTurn last keys) :=
  inferInstanceAs (Decidable (∀ key ∈ last,
    key ∈ keys ∨ (∀ other ∈ keys, other ≤ key) ∨ ∀ other ∈ keys, key ≤ other))

theorem nextInTurn_mem {last : Option Text} {keys : List Text} {chosen : Text}
    (h : nextInTurn keys last = some chosen) : chosen ∈ keys := by
  unfold nextInTurn at h
  split at h <;> exact List.mem_of_getElem? h

theorem nextInTurn_exists (last : Option Text) {keys : List Text} (h : keys ≠ []) :
    ∃ chosen ∈ keys, nextInTurn keys last = some chosen := by
  have hpos := List.length_pos_iff.mpr h
  have hget : ∀ i, i < keys.length → ∃ chosen ∈ keys, keys[i]? = some chosen := by
    intro i hi
    exact ⟨keys[i],List.getElem_mem hi,List.getElem?_eq_getElem hi⟩
  cases hfound : last.bind fun key => keys.idxOf? key with
  | none =>
    simp only [nextInTurn,hfound]
    exact hget 0 hpos
  | some index =>
    simp only [nextInTurn,hfound]
    exact hget _ (Nat.mod_lt _ hpos)

theorem head_le {keys : List Text} {first : Text} (hsorted : keys.Pairwise (· < ·))
    (h : keys[0]? = some first) : ∀ key ∈ keys, first ≤ key := by
  cases keys with
  | nil => cases h
  | cons key keys =>
    cases h
    intro other hother
    rcases List.mem_cons.mp hother with rfl | hother
    · exact le_refl _
    · exact ((List.pairwise_cons.mp hsorted).1 other hother).le

theorem next_le {keys : List Text} {i : Nat} {last next : Text} (hsorted : keys.Pairwise (· < ·))
    (hlast : keys[i]? = some last) (hnext : keys[i + 1]? = some next) :
    last < next ∧ ∀ key ∈ keys, last < key → next ≤ key := by
  obtain ⟨hi,rfl⟩ := List.getElem?_eq_some_iff.mp hlast
  obtain ⟨hi',rfl⟩ := List.getElem?_eq_some_iff.mp hnext
  have hlt := List.pairwise_iff_getElem.mp hsorted
  refine ⟨hlt i (i + 1) hi hi' (Nat.lt_succ_self i),?_⟩
  intro key hkey hafter
  obtain ⟨j,hj,rfl⟩ := List.getElem_of_mem hkey
  rcases Nat.lt_trichotomy j (i + 1) with hji | hji | hji
  · rcases Nat.lt_succ_iff_lt_or_eq.mp hji with hji | hji
    · exact absurd hafter (hlt j i hj hi hji).asymm
    · subst hji
      exact absurd hafter (lt_irrefl _)
  · subst hji
    exact le_refl _
  · exact (hlt (i + 1) j hi' hj hji).le

theorem last_ge {keys : List Text} {i : Nat} {last : Text} (hsorted : keys.Pairwise (· < ·))
    (hlast : keys[i]? = some last) (hend : i + 1 = keys.length) : ∀ key ∈ keys, key ≤ last := by
  obtain ⟨hi,rfl⟩ := List.getElem?_eq_some_iff.mp hlast
  intro key hkey
  obtain ⟨j,hj,rfl⟩ := List.getElem_of_mem hkey
  rcases Nat.lt_or_ge j i with hji | hji
  · exact (List.pairwise_iff_getElem.mp hsorted j i hj hi hji).le
  · have hsame : j = i := by omega
    subst hsame
    exact le_refl _

theorem nextInTurn_inTurn {last : Option Text} {keys : List Text} {chosen : Text}
    (hsorted : keys.Pairwise (· < ·)) (hkeeps : KeepsTurn last keys)
    (h : nextInTurn keys last = some chosen) : InTurn last keys chosen := by
  cases last with
  | none => exact ⟨List.mem_of_getElem? h,head_le hsorted h⟩
  | some last =>
    cases hindex : keys.idxOf? last with
    | none =>
      simp only [nextInTurn,Option.bind_some,hindex] at h
      have habsent : last ∉ keys := List.idxOf?_eq_none_iff.mp hindex
      have hmem := List.mem_of_getElem? h
      refine ⟨hmem,?_⟩
      rcases hkeeps last rfl with hlast | hlast | hlast
      · exact absurd hlast habsent
      · exact .inr ⟨hlast,head_le hsorted h⟩
      · have hne : last ≠ chosen := fun hsame => habsent (hsame ▸ hmem)
        exact .inl ⟨lt_of_le_of_ne (hlast chosen hmem) hne,fun key hkey _ => head_le hsorted h key hkey⟩
    | some i =>
      simp only [nextInTurn,Option.bind_some,hindex] at h
      have hlast : keys[i]? = some last := by
        obtain ⟨hi,hget,_⟩ := List.idxOf?_eq_some_iff.mp hindex
        rw [List.getElem?_eq_getElem hi,hget]
      have hi : i < keys.length := (List.getElem?_eq_some_iff.mp hlast).1
      refine ⟨List.mem_of_getElem? h,?_⟩
      by_cases hend : i + 1 = keys.length
      · rw [hend,Nat.mod_self] at h
        exact .inr ⟨last_ge hsorted hlast hend,head_le hsorted h⟩
      · rw [Nat.mod_eq_of_lt (by omega)] at h
        exact .inl (next_le hsorted hlast h)

section Rotation

variable {C : Type} (last : C → Option Text) (keys : C → List Text)

/-- Each call remembers what the one before it chose. -/
def Remembering (calls : List C) : Prop :=
  calls.IsChain fun call next => last next = (nextInTurn (keys call) (last call)).or (last call)

theorem turns_of_remembering {calls : List C} (hsorted : ∀ call, (keys call).Pairwise (· < ·))
    (hremember : Remembering last keys calls)
    (hkeeps : ∀ call ∈ calls, KeepsTurn (last call) (keys call))
    (hfilled : ∀ call ∈ calls, keys call ≠ []) : ∀ first ∈ calls.head?, ∃ turns,
      Turns (last first) turns ∧ List.Forall₂ (fun call turn => turn.1 = keys call ∧
        nextInTurn (keys call) (last call) = some turn.2) calls turns := by
  induction calls with
  | nil =>
    intro first hfirst
    cases hfirst
  | cons call calls ih =>
    intro first hfirst
    cases hfirst
    obtain ⟨chosen,_,hchosen⟩ := nextInTurn_exists (last call) (hfilled call List.mem_cons_self)
    have hturn := nextInTurn_inTurn (hsorted call) (hkeeps call List.mem_cons_self) hchosen
    cases calls with
    | nil => exact ⟨[(keys call,chosen)],⟨hturn,trivial⟩,.cons ⟨rfl,hchosen⟩ .nil⟩
    | cons next calls =>
      obtain ⟨hlink,hrest⟩ := List.isChain_cons_cons.mp hremember
      obtain ⟨turns,hturns,hall⟩ := ih hrest (fun c hc => hkeeps c (List.mem_cons_of_mem _ hc))
        (fun c hc => hfilled c (List.mem_cons_of_mem _ hc)) next rfl
      rw [hlink,hchosen] at hturns
      exact ⟨(keys call,chosen) :: turns,⟨hturn,hturns⟩,.cons ⟨rfl,hchosen⟩ hall⟩

/-- The different keys that are there at some call. -/
def keysOfAny (calls : List C) : Finset Text := (calls.flatMap keys).toFinset

theorem rotation_reaches {calls : List C} {goal : Text} (hcalls : calls ≠ [])
    (hsorted : ∀ call, (keys call).Pairwise (· < ·)) (hremember : Remembering last keys calls)
    (hkeeps : ∀ call ∈ calls, KeepsTurn (last call) (keys call))
    (hmany : (keysOfAny keys calls).card ≤ calls.length) (hgoal : ∀ call ∈ calls, goal ∈ keys call) :
    ∃ call ∈ calls, nextInTurn (keys call) (last call) = some goal := by
  have hfilled : ∀ call ∈ calls, keys call ≠ [] := fun call hcall =>
    List.ne_nil_of_mem (hgoal call hcall)
  obtain ⟨first,hfirst⟩ := Option.ne_none_iff_exists'.mp (mt List.head?_eq_none_iff.mp hcalls)
  obtain ⟨turns,hturns,hall⟩ := turns_of_remembering last keys hsorted hremember hkeeps hfilled first
    hfirst
  have hamong : ∀ turn ∈ turns, ∀ key ∈ turn.1, key ∈ keysOfAny keys calls := by
    intro turn hturn key hkey
    obtain ⟨call,hcall,hsame,_⟩ := forall₂_mem_right hall hturn
    rw [hsame] at hkey
    exact List.mem_toFinset.mpr (List.mem_flatMap.mpr ⟨call,hcall,hkey⟩)
  have hpresent : ∀ turn ∈ turns, goal ∈ turn.1 := by
    intro turn hturn
    obtain ⟨call,hcall,hsame,_⟩ := forall₂_mem_right hall hturn
    rw [hsame]
    exact hgoal call hcall
  have hfirstMem := List.mem_of_mem_head? hfirst
  have hgoalMem : goal ∈ keysOfAny keys calls :=
    List.mem_toFinset.mpr (List.mem_flatMap.mpr ⟨first,hfirstMem,hgoal first hfirstMem⟩)
  have hlength : turns.length = calls.length := hall.length_eq.symm
  classical
  obtain ⟨turn,hturn,hfound⟩ := hturns.reaches hpresent hamong hgoalMem
    ((Finset.card_filter_le _ _).trans (hlength ▸ hmany))
  obtain ⟨call,hcall,_,hnext⟩ := forall₂_mem_right hall hturn
  exact ⟨call,hcall,hfound ▸ hnext⟩

end Rotation

structure SelectCall where
  snapshot : Snapshot
  remoteHeight : Nat
  endpoint : Option Text
  date : Date

namespace SelectCall

def last (call : SelectCall) : Option Text := call.snapshot.lastAttemptedScopeKey

/-- The scopes that have something due. -/
def dueScopes (call : SelectCall) : List Text :=
  orderedKeys ((call.snapshot.batches.filter
    (Batch.candidate call.remoteHeight call.endpoint call.date)).map Batch.scopeKey)

def result (call : SelectCall) : Option (Selection × Snapshot) :=
  call.snapshot.selectDue call.remoteHeight call.endpoint call.date

/-- The snapshot that the call leaves. -/
def after (call : SelectCall) : Snapshot := call.result.elim call.snapshot Prod.snd

def Selects (call : SelectCall) (scope : Text) : Prop :=
  ∃ selection s', call.result = some (selection,s') ∧ selection.scopeKey = scope

/-- Anything may happen between two calls, but only a call moves the remembered scope. -/
def Consecutive (calls : List SelectCall) : Prop :=
  calls.IsChain fun call next => next.last = call.after.lastAttemptedScopeKey

theorem select_of_candidate {remoteHeight : Nat} {endpoint : Option Text} {date : Date} {b : Batch}
    (h : b.candidate remoteHeight endpoint date = true) :
    ∃ selection, b.select remoteHeight date = some selection ∧ selection.scopeKey = b.scopeKey := by
  obtain ⟨x,hx,hdue⟩ := List.any_eq_true.mp (Bool.and_eq_true_iff.mp h).2
  have hmem : x ∈ (b.items.filter (Item.due remoteHeight date)).insertionSort Item.before :=
    (List.mem_insertionSort _).mpr (List.mem_filter.mpr ⟨hx,hdue⟩)
  cases hsorted : (b.items.filter (Item.due remoteHeight date)).insertionSort Item.before with
  | nil =>
    rw [hsorted] at hmem
    cases hmem
  | cons item items =>
    simp [Batch.select,hsorted]

theorem result_of_turn {call : SelectCall} {scope : Text}
    (h : nextInTurn call.dueScopes call.last = some scope) : ∃ selection,
      call.result = some (selection,{ call.snapshot with lastAttemptedScopeKey := some scope }) ∧
      selection.scopeKey = scope := by
  have hmem : scope ∈ call.dueScopes := nextInTurn_mem h
  obtain ⟨b,hb,hscope⟩ := List.mem_map.mp (mem_orderedKeys.mp hmem)
  cases hfind : (call.snapshot.batches.filter (Batch.candidate call.remoteHeight call.endpoint
      call.date)).find? fun batch => decide (batch.scopeKey = scope) with
  | none => exact absurd (decide_eq_true hscope) (List.find?_eq_none.mp hfind b hb)
  | some batch =>
    have hcandidate := (List.mem_filter.mp (List.mem_of_find?_eq_some hfind)).2
    have hbatch : batch.scopeKey = scope := by simpa using List.find?_some hfind
    obtain ⟨selection,hselection,hkey⟩ := select_of_candidate hcandidate
    refine ⟨selection,?_,hkey.trans hbatch⟩
    simp only [dueScopes,last] at h
    simp only [result,Snapshot.selectDue,h,hfind,hselection,Option.bind_eq_bind,Option.bind_some]
    rfl

theorem result_of_nothing {call : SelectCall} (h : nextInTurn call.dueScopes call.last = none) :
    call.result = none := by
  simp only [dueScopes,last] at h
  simp only [result,Snapshot.selectDue,h,Option.bind_eq_bind,Option.bind_none]

theorem after_last (call : SelectCall) : call.after.lastAttemptedScopeKey =
    (nextInTurn call.dueScopes call.last).or call.last := by
  cases h : nextInTurn call.dueScopes call.last with
  | none =>
    rw [after,result_of_nothing h]
    rfl
  | some scope =>
    obtain ⟨selection,hresult,_⟩ := result_of_turn h
    rw [after,hresult]
    rfl

end SelectCall

/-- The endpoints that have something to look at. -/
def Snapshot.endpoints (s : Snapshot) : List Text :=
  orderedKeys ((s.batches.filter fun batch =>
    batch.armedAt.isSome && ((batch.items.any fun item => decide (item.status = .armed)) ||
      (batch.nextProofHeight.isSome && batch.awaitsProofReadyAnnouncement))).map
    Batch.lightwalletdUrl)

theorem nextEndpointForInspection_eq (s : Snapshot) : s.nextEndpointForInspection =
    (nextInTurn s.endpoints s.lastInspectedEndpoint,{ s with
      lastInspectedEndpoint :=
        (nextInTurn s.endpoints s.lastInspectedEndpoint).or s.lastInspectedEndpoint }) := by
  simp only [Snapshot.nextEndpointForInspection,Snapshot.endpoints]
  cases nextInTurn _ s.lastInspectedEndpoint with
  | none => rfl
  | some selected => rfl

/-- Snapshots on which an endpoint is selected, one after the other. -/
def Snapshot.Inspections (snapshots : List Snapshot) : Prop :=
  snapshots.IsChain fun s next =>
    next.lastInspectedEndpoint = s.nextEndpointForInspection.2.lastInspectedEndpoint

/-- A scope that is due at every call is selected after as many calls as there are scopes due at
some of them, when at each call the remembered scope is due itself or has no due scopes on both of
its sides. The endpoints take turns in the same way. -/
theorem turns_reach_all (calls : List SelectCall) (snapshots : List Snapshot) :
    (calls ≠ [] → SelectCall.Consecutive calls →
      (∀ call ∈ calls, KeepsTurn call.last call.dueScopes) →
      (keysOfAny SelectCall.dueScopes calls).card ≤ calls.length →
      ∀ scope, (∀ call ∈ calls, scope ∈ call.dueScopes) → ∃ call ∈ calls, call.Selects scope) ∧
    (snapshots ≠ [] → Snapshot.Inspections snapshots →
      (∀ s ∈ snapshots, KeepsTurn s.lastInspectedEndpoint s.endpoints) →
      (keysOfAny Snapshot.endpoints snapshots).card ≤ snapshots.length →
      ∀ endpoint, (∀ s ∈ snapshots, endpoint ∈ s.endpoints) →
      ∃ s ∈ snapshots, s.nextEndpointForInspection.1 = some endpoint) := by
  constructor
  · intro hcalls hconsecutive hkeeps hmany scope hscope
    have hremember : Remembering SelectCall.last SelectCall.dueScopes calls :=
      List.IsChain.imp (fun call next h => h.trans call.after_last) hconsecutive
    obtain ⟨call,hcall,hnext⟩ := rotation_reaches SelectCall.last SelectCall.dueScopes hcalls
      (fun _ => orderedKeys_sorted _) hremember hkeeps hmany hscope
    obtain ⟨selection,hresult,hkey⟩ := SelectCall.result_of_turn hnext
    exact ⟨call,hcall,selection,_,hresult,hkey⟩
  · intro hsnapshots hinspections hkeeps hmany endpoint hendpoint
    have hremember : Remembering Snapshot.lastInspectedEndpoint Snapshot.endpoints snapshots := by
      apply List.IsChain.imp ?_ hinspections
      intro s next h
      rw [h,nextEndpointForInspection_eq]
    obtain ⟨s,hs,hnext⟩ := rotation_reaches Snapshot.lastInspectedEndpoint Snapshot.endpoints
      hsnapshots (fun _ => orderedKeys_sorted _) hremember hkeeps hmany hendpoint
    exact ⟨s,hs,by rw [nextEndpointForInspection_eq,hnext]⟩

def accountBatch (account : Char) : Batch :=
  { stagedBatch [account] [stagedItem [account] 0] with accountUuid := [account] }

/-- Three accounts with one armed item each. -/
def threeAccounts : List OutboxOperation :=
  [.stage (accountBatch 'a'),.stage (accountBatch 'b'),.stage (accountBatch 'c'),
    .armBatch ['a'] [(['a'],[])] 0,.armBatch ['b'] [(['b'],[])] 0,.armBatch ['c'] [(['c'],[])] 0]

/-- The first account fails and waits for a minute, then so does the second one. -/
def firstFails : List OutboxOperation :=
  threeAccounts ++ [.selectDue 10 none 0,.beginSubmission ['a'] [] 0,.recordUncertain ['a'] [] 0]

def secondFails : List OutboxOperation :=
  firstFails ++ [.selectDue 10 none 30,.beginSubmission ['b'] [] 30,.recordUncertain ['b'] [] 30]

theorem selectDue_starves : ∃ s₁ s₂ s₃,
    execute (OutboxOperation.apply noDigest) threeAccounts .empty = .ok s₁ ∧
    execute (OutboxOperation.apply noDigest) firstFails .empty = .ok s₂ ∧
    execute (OutboxOperation.apply noDigest) secondFails .empty = .ok s₃ ∧
    ∃ calls : List SelectCall, calls = [⟨s₁,10,none,0⟩,⟨s₂,10,none,30⟩,⟨s₃,10,none,60⟩] ∧
      SelectCall.Consecutive calls ∧ (keysOfAny SelectCall.dueScopes calls).card = calls.length ∧
      (∀ call ∈ calls, scopeKeyOf "main".toList ['c'] ∈ call.dueScopes) ∧
      ¬ ∃ call ∈ calls, call.Selects (scopeKeyOf "main".toList ['c']) := by
  refine ⟨_,_,_,rfl,rfl,rfl,_,rfl,?_,by decide,by decide,?_⟩
  · exact .cons_cons rfl (.cons_cons rfl (.singleton _))
  · intro h
    obtain ⟨call,hcall,selection,s',hresult,hscope⟩ := h
    have hother : call.result.map (fun result => result.1.scopeKey) ≠
        some (scopeKeyOf "main".toList ['c']) := by
      clear hresult
      revert call
      decide
    rw [hresult,Option.map_some,hscope] at hother
    exact hother rfl

/-- The calls that follow each other on a snapshot. -/
def callsFrom (s : Snapshot) : List SelectCall :=
  let first : SelectCall := ⟨s,10,none,0⟩
  let second : SelectCall := ⟨first.after,10,none,0⟩
  [first,second,⟨second.after,10,none,0⟩]

theorem turns_reach_all_three : ∃ s,
    execute (OutboxOperation.apply noDigest) threeAccounts .empty = .ok s ∧
    ∃ call ∈ callsFrom s, call.Selects (scopeKeyOf "main".toList ['c']) :=
  ⟨_,rfl,(turns_reach_all (callsFrom _) []).1 (List.cons_ne_nil _ _)
    (.cons_cons rfl (.cons_cons rfl (.singleton _))) (by decide) (by decide) _ (by decide)⟩

end CoppiceWallet.Outbox
