import CoppiceWallet.Proposals.Spending

/-! # The input locks of a proposal -/

namespace CoppiceWallet.Proposals

open CoppiceWallet.Lib
open CoppiceWallet.Store (WalletNetwork)

variable {W : Type} {db : OutputLockStore W} {id : Nat} {lock : StoredProposalLock}
  {s s' : State W} {input : Input W}

structure State.Sound (id : Nat) (lock : StoredProposalLock) (s : State W) : Prop where
  proposalId : s.proposalId = id
  store : StoreSound id lock s.world.store
  spend : ∀ spend, s.spend = some spend →
    spend.point.Sound lock spend.arguments.sendFlowId ∧ spend.point.Settled s.trace
  idle : s.spend = none → s.trace.outstanding = []
  calls : ∀ call ∈ s.calls, call.point.Sound lock call.sendFlowId
  target : s.world.targetHeight.getD 0 ≤ s.trace.highestTarget
  consumed : s.trace.consumed ≤ 1
  fresh : s.world.store.proposals id ≠ none → s.trace.consumed = 0

def State.Released (db : OutputLockStore W) (id : Nat) (lock : StoredProposalLock) (s : State W) :
    Prop :=
  s.world.store.locks id = none → s.trace.capabilityTaken = false → s.trace.handed = false →
    InputsReleased db lock s.world

def State.sends (s : State W) : Bool := s.spend.any fun spend => spend.point.sends

def State.Protected (db : OutputLockStore W) (id : Nat) (lock : StoredProposalLock) (s : State W) :
    Prop :=
  Proposals.Protected db id lock s.sends s.signing s.world s.trace

theorem State.advanceSpend_ok {answer : SpendAnswer W} (h : s.advanceSpend db answer = .ok s') :
    ∃ spend point world trace, s.spend = some spend ∧
      spend.point.advance db s.proposalId spend.path spend.arguments answer s.world s.trace =
        some (point,world,trace) ∧
      s' = { s with
        world := world
        spend := some { spend with point := point }
        trace := trace.note s.proposalId spend.point.takesCapability s.world.store
          world.store } := by
  unfold State.advanceSpend at h
  split at h
  · cases h
  · split at h
    · cases h
    · rename_i spend hspend _ point world trace hadvance
      cases h
      exact ⟨spend,point,world,trace,hspend,hadvance,rfl⟩

theorem State.advanceCall_ok {thread : Nat} {fault : Option UnlockFault}
    (h : s.advanceCall db thread fault = .ok s') :
    ∃ call point world, s.calls[thread]? = some call ∧
      call.point.advance db s.proposalId call.sendFlowId fault s.world = some (point,world) ∧
      s' = { s with
        world := world
        calls := s.calls.set thread { call with point := point }
        trace := s.trace.note s.proposalId call.point.takesCapability s.world.store
          world.store } := by
  unfold State.advanceCall at h
  split at h
  · cases h
  · split at h
    · cases h
    · rename_i call hcall _ point world hadvance
      cases h
      exact ⟨call,point,world,hcall,hadvance,rfl⟩

theorem State.start_ok (h : s.start input = .ok s') : s'.world = s.world ∧ s'.trace = s.trace ∧
    s'.proposalId = s.proposalId ∧
    ((s.spend = none ∧ s'.calls = s.calls ∧
        ∃ path arguments, s'.spend = some ⟨path,arguments,.consuming⟩) ∨
      (∃ old arguments, s.spend = some ⟨.pczt,old,.pcztCreated⟩ ∧ s'.calls = s.calls ∧
        s'.spend = some ⟨.pczt,arguments,.readingLockToSend⟩) ∨
      s'.spend = s.spend ∧ ∃ kind sendFlowId, s'.calls = s.calls ++ [⟨kind,sendFlowId,kind.start⟩]) := by
  cases input with
  | spend path arguments =>
    simp only [State.start] at h
    split at h
    · rename_i hspend
      cases h
      exact ⟨rfl,rfl,rfl,.inl ⟨hspend,rfl,path,arguments,rfl⟩⟩
    · cases h
  | sendSigned arguments =>
    simp only [State.start] at h
    split at h
    · rename_i old hspend
      cases h
      exact ⟨rfl,rfl,rfl,.inr (.inl ⟨old,arguments,hspend,rfl,rfl⟩)⟩
    · cases h
  | call kind sendFlowId =>
    cases h
    exact ⟨rfl,rfl,rfl,.inr (.inr ⟨rfl,kind,sendFlowId,rfl⟩)⟩
  | _ => cases h

theorem note_consumed {trace : Trace} (takes : Bool) {before after : ProposalStore}
    (hnone : before.proposals id = none → after.proposals id = none)
    (hconsumed : trace.consumed ≤ 1) (hfresh : before.proposals id ≠ none → trace.consumed = 0) :
    (trace.note id takes before after).consumed ≤ 1 ∧
      (after.proposals id ≠ none → (trace.note id takes before after).consumed = 0) := by
  cases hbefore : before.proposals id with
  | none => simp [Trace.note,hbefore,hnone hbefore,hconsumed]
  | some stored =>
    have hzero := hfresh (by simp [hbefore])
    cases hafter : after.proposals id with
    | none => simp [Trace.note,hbefore,hafter,hzero]
    | some stored' => simp [Trace.note,hbefore,hafter,hzero]

theorem kindStart_sound (kind : CallKind) (flow : String) : kind.start.Sound lock flow := by
  cases kind <;> trivial

theorem State.Sound.step (hs : s.Sound id lock) (h : State.step db input s = .ok s') :
    s'.Sound id lock := by
  obtain ⟨rfl,hstore,hspend,hidle,hcalls,htarget,hconsumed,hfresh⟩ := hs
  have hstart : s.start input = .ok s' → s'.Sound s.proposalId lock := by
    intro hstart
    obtain ⟨hworld,htrace,hid,hkind⟩ := State.start_ok hstart
    refine ⟨hid,by rw [hworld]; exact hstore,?_,?_,?_,by rw [hworld,htrace]; exact htarget,
      by rw [htrace]; exact hconsumed,by rw [hworld,htrace]; exact hfresh⟩
    · intro spend hspend'
      rw [htrace]
      rcases hkind with ⟨hnone,_,path,arguments,hnew⟩ | ⟨old,arguments,hold,_,hnew⟩ | ⟨hsame,_⟩
      · obtain rfl := Option.some.inj (hnew.symm.trans hspend')
        exact ⟨trivial,hidle hnone⟩
      · obtain rfl := Option.some.inj (hnew.symm.trans hspend')
        exact ⟨trivial,(hspend _ hold).2⟩
      · exact hspend spend (hsame ▸ hspend')
    · intro hnone
      rw [htrace]
      rcases hkind with ⟨_,_,path,arguments,hnew⟩ | ⟨old,arguments,_,_,hnew⟩ | ⟨hsame,_⟩
      · rw [hnew] at hnone
        cases hnone
      · rw [hnew] at hnone
        cases hnone
      · exact hidle (hsame ▸ hnone)
    · intro call hcall
      rcases hkind with ⟨_,hsame,_⟩ | ⟨_,_,_,hsame,_⟩ | ⟨_,kind,flow,hnew⟩
      · exact hcalls call (hsame ▸ hcall)
      · exact hcalls call (hsame ▸ hcall)
      · rw [hnew] at hcall
        rcases List.mem_append.mp hcall with hcall | hcall
        · exact hcalls call hcall
        · obtain rfl := List.mem_singleton.mp hcall
          exact kindStart_sound kind flow
  cases input with
  | advanceSpend answer =>
    obtain ⟨spend,point,world,trace,hsp,hadvance,rfl⟩ := State.advanceSpend_ok h
    obtain ⟨hp,hset⟩ := hspend spend hsp
    have hstep := SpendPoint.advance_step hstore hp hset hadvance
    have hcontinues := hstep.continues
    have hnote := note_consumed spend.point.takesCapability hstep.proposals (hcontinues.consumed ▸ hconsumed)
      (hcontinues.consumed ▸ hfresh)
    refine ⟨rfl,hstep.store,?_,(nomatch ·),hcalls,?_,hnote.1,hnote.2⟩
    · intro spend' hspend'
      cases hspend'
      exact ⟨hstep.sound,(settled_note _ _ _).mpr hstep.settled⟩
    · change world.targetHeight.getD 0 ≤ trace.highestTarget
      rw [hstep.targetHeight,hcontinues.highestTarget]
      exact htarget
  | advanceCall thread fault =>
    obtain ⟨call,point,world,hcall,hadvance,rfl⟩ := State.advanceCall_ok h
    have hmem := List.mem_of_getElem? hcall
    obtain ⟨heffect,hpoint⟩ := CallPoint.advance_effect hstore (hcalls call hmem) hadvance
    have hnote := note_consumed call.point.takesCapability heffect.proposals_none hconsumed hfresh
    refine ⟨rfl,heffect.storeSound hstore,?_,hidle,?_,?_,hnote.1,hnote.2⟩
    · intro spend hsp
      exact ⟨(hspend spend hsp).1,(settled_note _ _ _).mpr (hspend spend hsp).2⟩
    · intro call' hcall'
      rcases List.mem_or_eq_of_mem_set hcall' with hold | rfl
      · exact hcalls call' hold
      · exact hpoint
    · change world.targetHeight.getD 0 ≤ s.trace.highestTarget
      rw [heffect.targetHeight]
      exact htarget
  | restart =>
    cases h
    refine ⟨rfl,⟨by simp [State.restart,ProposalStore.empty],
      by simp [State.restart,ProposalStore.empty]⟩,?_,?_,by simp [State.restart],htarget,hconsumed,
      by simp [State.restart,ProposalStore.empty]⟩
    · intro spend hsp
      obtain ⟨old,_,rfl⟩ := Option.map_eq_some_iff.mp hsp
      exact ⟨trivial,trivial⟩
    · intro hnone
      exact hidle (Option.map_eq_none_iff.mp hnone)
  | recover fault =>
    cases h
    obtain ⟨hsame,htargetHeight,_⟩ := recover_frame db fault s.world
    refine ⟨rfl,?_,hspend,hidle,hcalls,?_,hconsumed,?_⟩
    · change StoreSound _ lock (recoverPreviousProcess db fault s.world).2.store
      rw [hsame]
      exact hstore
    · change (recoverPreviousProcess db fault s.world).2.targetHeight.getD 0 ≤ _
      rw [htargetHeight]
      exact htarget
    · change (recoverPreviousProcess db fault s.world).2.store.proposals s.proposalId ≠ none → _
      rw [hsame]
      exact hfresh
  | setTarget height =>
    cases h
    exact ⟨rfl,hstore,hspend,hidle,hcalls,le_max_right _ _,hconsumed,hfresh⟩
  | spend path arguments => exact hstart h
  | sendSigned arguments => exact hstart h
  | call kind flow => exact hstart h

theorem note_released {trace : Trace} {takes : Bool} {before after : ProposalStore}
    (h : (trace.note id takes before after).capabilityTaken = false)
    (hnone : after.locks id = none) :
    trace.capabilityTaken = false ∧ (takes = true → before.locks id = none) := by
  simp only [Trace.note,hnone,Option.isNone_none,Bool.and_true,Bool.or_eq_false_iff,
    Bool.and_eq_false_iff] at h
  refine ⟨h.1,fun htakes => ?_⟩
  simpa [htakes] using h.2

theorem State.Released.step (hs : s.Sound id lock) (hbefore : s.Released db id lock)
    (h : State.step db input s = .ok s') : s'.Released db id lock := by
  obtain ⟨rfl,hstore,hspend,hidle,hcalls,htarget,hconsumed,hfresh⟩ := hs
  have hstart : s.start input = .ok s' → s'.Released db s.proposalId lock := by
    intro hstart
    obtain ⟨hworld,htrace,_⟩ := State.start_ok hstart
    unfold State.Released
    rw [hworld,htrace]
    exact hbefore
  intro hnone htaken hhanded
  cases input with
  | advanceSpend answer =>
    obtain ⟨spend,point,world,trace,hsp,hadvance,rfl⟩ := State.advanceSpend_ok h
    obtain ⟨hp,hset⟩ := hspend spend hsp
    have hcontinues := (SpendPoint.advance_step hstore hp hset hadvance).continues
    obtain ⟨htaken,htakes⟩ := note_released htaken hnone
    rw [hcontinues.capabilityTaken] at htaken
    exact SpendPoint.advance_released hstore hp hset hadvance
      (fun hbeforeNone => hbefore hbeforeNone htaken (hcontinues.handed hhanded)) htakes hnone hhanded
  | advanceCall thread fault =>
    obtain ⟨call,point,world,hcall,hadvance,rfl⟩ := State.advanceCall_ok h
    have hmem := List.mem_of_getElem? hcall
    obtain ⟨heffect,_⟩ := CallPoint.advance_effect hstore (hcalls call hmem) hadvance
    obtain ⟨htaken,htakes⟩ := note_released htaken hnone
    exact heffect.released (fun hbeforeNone => hbefore hbeforeNone htaken hhanded) hnone htakes
  | restart =>
    cases h
    cases htaken
  | recover fault =>
    cases h
    obtain ⟨hsame,_,hrows,hholds⟩ := recover_frame db fault s.world
    have hgone := hbefore (by rw [← hsame]; exact hnone) htaken hhanded
    exact ⟨fun ref href => hholds _ _ (hgone.outputs ref href),
      fun row hrow => hgone.rows row (hrows row hrow)⟩
  | setTarget height =>
    cases h
    have hgone := hbefore hnone htaken hhanded
    exact ⟨hgone.outputs,hgone.rows⟩
  | spend path arguments => exact hstart h hnone htaken hhanded
  | sendSigned arguments => exact hstart h hnone htaken hhanded
  | call kind flow => exact hstart h hnone htaken hhanded

theorem InputsLocked.mono {expiry highest highest' : Nat} {wallet : W}
    (h : InputsLocked db lock expiry highest wallet) (hle : highest ≤ highest') :
    InputsLocked db lock expiry highest' wallet :=
  h.imp_left fun hreached => hreached.trans hle

theorem State.exposed_iff : s.exposed = true ↔ s.sends = true ∨ s.trace.unstored ≠ [] := by
  simp [State.exposed,State.sends]

theorem advanceCall_protected {call : Call} {world : World W} {thread : Nat}
    {fault : Option UnlockFault} (hstore : StoreSound s.proposalId lock s.world.store)
    (hcall : s.calls[thread]? = some call)
    (heffect : SectionEffect db s.proposalId lock call.sendFlowId s.world call.point fault world)
    (hguard : LeavesInputs (.advanceCall thread fault) s) (hbefore : s.Protected db s.proposalId lock) :
    Proposals.Protected db s.proposalId lock s.sends s.signing world s.trace := by
  have hunlocks : call.point = .unlocking → lock.sendFlowId = call.sendFlowId →
      s.world.store.locks s.proposalId = none ∨
        s.exposed = false ∧ (s.signing = false ∨ keepsInputs fault = true) := by
    intro hpoint hflow
    cases hlock : s.world.store.locks s.proposalId with
    | none => exact .inl rfl
    | some l =>
      obtain rfl := hstore.locks l hlock
      obtain ⟨kind,flow,point⟩ := call
      obtain rfl : point = .unlocking := hpoint
      right
      simpa [LeavesInputs,State.leavesInputs,State.unlocks,hcall,hlock,hflow] using hguard
  refine ⟨fun hexposed => ?_,fun hawaits => ?_⟩
  · have hwallet : world.wallet = s.world.wallet := heffect.wallet fun hpoint hflow => by
      refine (hunlocks hpoint hflow).resolve_right fun hfree => ?_
      rw [State.exposed_iff.mpr hexposed] at hfree
      cases hfree.1
    have hsecured := hbefore.exposed hexposed
    exact ⟨by rw [hwallet]; exact hsecured.1,heffect.rowsRetained hsecured.2⟩
  · obtain ⟨hkept,hlocked⟩ := hbefore.signing hawaits
    refine ⟨heffect.rowsRetained hkept,?_⟩
    have hwallet : world.wallet = s.world.wallet ∨ world.store.locks s.proposalId = none := by
      by_cases hfault : keepsInputs fault = true
      · exact heffect.wallet_or_none fun _ => hfault
      · refine .inl (heffect.wallet fun hpoint hflow => ?_)
        refine (hunlocks hpoint hflow).resolve_right fun hfree => ?_
        rcases hfree.2 with hsigning | hkeeps
        · rw [hawaits] at hsigning
          cases hsigning
        · exact hfault hkeeps
    rcases hwallet with hwallet | hnone
    · rw [hwallet]
      exact hlocked.imp_left heffect.locks_none
    · exact .inl hnone

theorem State.Protected.step (hs : s.Sound id lock) (hbefore : s.Protected db id lock)
    (hguard : LeavesInputs input s) (h : State.step db input s = .ok s') :
    s'.Protected db id lock := by
  obtain ⟨rfl,hstore,hspend,hidle,hcalls,htarget,hconsumed,hfresh⟩ := hs
  have hstart : s.start input = .ok s' → s'.Protected db s.proposalId lock := by
    intro hstart
    obtain ⟨hworld,htrace,_,hkind⟩ := State.start_ok hstart
    have hsends : s'.sends = true → s.sends = true := by
      rcases hkind with ⟨_,_,path,arguments,hnew⟩ | ⟨old,arguments,_,_,hnew⟩ | ⟨hsame,_⟩
      · simp [State.sends,hnew,SpendPoint.sends]
      · simp [State.sends,hnew,SpendPoint.sends]
      · simp [State.sends,hsame]
    have hsigning : s'.signing = true → s.signing = true := by
      rcases hkind with ⟨_,_,path,arguments,hnew⟩ | ⟨old,arguments,hold,_,hnew⟩ | ⟨hsame,_⟩
      · simp [State.signing,hnew,SpendPoint.awaitsSignatures]
      · simp [State.signing,hold,SpendPoint.awaitsSignatures]
      · simp [State.signing,hsame]
    unfold State.Protected
    rw [hworld,htrace]
    exact ⟨fun hexposed => hbefore.exposed (hexposed.imp_left hsends),
      fun hawaits => hbefore.signing (hsigning hawaits)⟩
  cases input with
  | advanceSpend answer =>
    obtain ⟨spend,point,world,trace,hsp,hadvance,rfl⟩ := State.advanceSpend_ok h
    obtain ⟨hp,hset⟩ := hspend spend hsp
    have hpoint : Proposals.Protected db s.proposalId lock spend.point.sends
        spend.point.awaitsSignatures s.world s.trace := by
      have hbefore := hbefore
      simpa [State.Protected,State.sends,State.signing,hsp] using hbefore
    have hnext := SpendPoint.advance_protected hstore hp hset hadvance hpoint
    exact ⟨hnext.exposed,hnext.signing⟩
  | advanceCall thread fault =>
    obtain ⟨call,point,world,hcall,hadvance,rfl⟩ := State.advanceCall_ok h
    have hmem := List.mem_of_getElem? hcall
    obtain ⟨heffect,_⟩ := CallPoint.advance_effect hstore (hcalls call hmem) hadvance
    have hnext := advanceCall_protected hstore hcall heffect hguard hbefore
    exact ⟨hnext.exposed,hnext.signing⟩
  | restart =>
    cases h
    refine ⟨fun hexposed => ?_,fun hawaits => ?_⟩
    · have hunstored : s.trace.unstored ≠ [] := by
        refine hexposed.resolve_left ?_
        cases hsp : s.spend <;> simp [State.sends,State.restart,hsp,SpendPoint.sends]
      exact hbefore.exposed (.inr hunstored)
    · cases hsp : s.spend <;>
        simp [State.signing,State.restart,hsp,SpendPoint.awaitsSignatures] at hawaits
  | recover fault =>
    cases h
    obtain ⟨hsame,_,hrows,_⟩ := recover_frame db fault s.world
    have hretained : ∀ expiry, RowsRetained lock expiry s.world.rows →
        RowsRetained lock expiry (recoverPreviousProcess db fault s.world).2.rows :=
      fun expiry hkept row hrow => hkept row (hrows row hrow)
    refine ⟨fun hexposed => ?_,fun hawaits => ?_⟩
    · have hsecured := hbefore.exposed hexposed
      exact ⟨recover_inputsLocked hsecured.1 hsecured.2 htarget,hretained _ hsecured.2⟩
    · obtain ⟨hkept,hlocked⟩ := hbefore.signing hawaits
      refine ⟨hretained _ hkept,hlocked.imp ?_ fun h => recover_inputsLocked h hkept htarget⟩
      intro hnone
      exact (congrArg (fun store => store.locks s.proposalId) hsame).trans hnone
  | setTarget height =>
    cases h
    refine ⟨fun hexposed => ?_,fun hawaits => ?_⟩
    · have hsecured := hbefore.exposed hexposed
      exact ⟨hsecured.1.mono (le_max_left _ _),hsecured.2⟩
    · obtain ⟨hkept,hlocked⟩ := hbefore.signing hawaits
      exact ⟨hkept,hlocked.imp_right fun h => h.mono (le_max_left _ _)⟩
  | spend path arguments => exact hstart h
  | sendSigned arguments => exact hstart h
  | call kind flow => exact hstart h

theorem State.Sound.world_of_flow_ne {flow : String} (hs : s.Sound id lock)
    (hflow : s.flowOf input = some flow) (hne : flow ≠ lock.sendFlowId)
    (h : State.step db input s = .ok s') : s'.world = s.world := by
  cases input with
  | advanceSpend answer =>
    obtain ⟨spend,point,world,trace,hsp,hadvance,rfl⟩ := State.advanceSpend_ok h
    obtain rfl : spend.arguments.sendFlowId = flow := by simpa [State.flowOf,hsp] using hflow
    obtain ⟨hp,hset⟩ := hs.spend spend hsp
    rw [hs.proposalId] at hadvance
    exact (SpendPoint.advance_step hs.store hp hset hadvance).frame hne
  | advanceCall thread fault =>
    obtain ⟨call,point,world,hcall,hadvance,rfl⟩ := State.advanceCall_ok h
    obtain rfl : call.sendFlowId = flow := by simpa [State.flowOf,hcall] using hflow
    have hmem := List.mem_of_getElem? hcall
    rw [hs.proposalId] at hadvance
    exact (CallPoint.advance_effect hs.store (hs.calls call hmem) hadvance).1.eq_of_flow_ne hne
  | spend path arguments =>
    have hstart : s.start (.spend path arguments) = .ok s' := h
    exact (State.start_ok hstart).1
  | sendSigned arguments =>
    have hstart : s.start (.sendSigned arguments) = .ok s' := h
    exact (State.start_ok hstart).1
  | call kind sendFlowId =>
    have hstart : s.start (.call kind sendFlowId) = .ok s' := h
    exact (State.start_ok hstart).1
  | _ => cases hflow

/-- A section of a discard. -/
def CallPoint.Discards : CallPoint → Prop
  | .discarding | .finishing true | .unlocking | .returned _ => True
  | _ => False

theorem unlockStoredProposal_ok {flow : String} {fault : Option UnlockFault} {world : World W}
    (h : (unlockStoredProposal db id flow fault world).1 = .ok ()) :
    (unlockStoredProposal db id flow fault world).2.store.locks id = none := by
  unfold unlockStoredProposal at h ⊢
  cases hlock : world.store.locks id with
  | none =>
    cases fault with
    | none => simp [hlock]
    | some fault => cases fault <;> simp_all
  | some current =>
    by_cases hflow : current.sendFlowId = flow
    · cases fault with
      | none => simp [hflow]
      | some fault => cases fault <;> simp [hlock,hflow] at h
    · cases fault with
      | none => simp [hlock,hflow] at h
      | some fault => cases fault <;> simp [hlock,hflow] at h

theorem Discards.advance {point point' : CallPoint} {flow : String} {fault : Option UnlockFault}
    {world world' : World W} (hd : point.Discards)
    (h : point.advance db id flow fault world = some (point',world')) :
    point'.Discards ∧ (point' = .returned (.ok ()) → world'.store.locks id = none) := by
  cases point with
  | discarding =>
    simp only [CallPoint.advance] at h
    split at h
    · split at h <;> cases h <;> exact ⟨trivial,fun hreturned => by cases hreturned⟩
    · split at h
      · split at h <;> cases h <;> exact ⟨trivial,fun hreturned => by cases hreturned⟩
      · cases h
        exact ⟨trivial,fun _ => ‹_›⟩
  | finishing releaseInputs =>
    cases releaseInputs with
    | false => cases hd
    | true =>
      simp only [CallPoint.advance] at h
      split at h
      · cases h
        exact ⟨trivial,fun _ => ‹_›⟩
      · split at h
        · cases h
          exact ⟨trivial,fun hreturned => by cases hreturned⟩
        · cases h
          exact ⟨trivial,fun hreturned => by cases hreturned⟩
  | unlocking =>
    cases h
    exact ⟨trivial,fun hreturned => unlockStoredProposal_ok (CallPoint.returned.inj hreturned)⟩
  | returned result => cases h
  | _ => cases hd

/-- Every discard under way is in one of its own sections. -/
def State.Discarding (s : State W) : Prop :=
  ∀ call ∈ s.calls, call.kind = .discard → call.point.Discards

/-- The step is the last of a discard, and the discard succeeds. -/
def DiscardReturned (input : Input W) (s s' : State W) : Prop :=
  ∃ thread fault call, input = .advanceCall thread fault ∧ s.calls[thread]? = some call ∧
    call.kind = .discard ∧ (s'.calls[thread]?).map Call.point = some (.returned (.ok ()))

theorem State.Discarding.step (hs : s.Discarding) (h : State.step db input s = .ok s') :
    s'.Discarding := by
  have hstart : s.start input = .ok s' → s'.Discarding := by
    intro hstart call hcall hkind
    obtain ⟨_,_,_,hcases⟩ := State.start_ok hstart
    rcases hcases with ⟨_,hsame,_⟩ | ⟨_,_,_,hsame,_⟩ | ⟨_,kind,flow,hnew⟩
    · exact hs call (hsame ▸ hcall) hkind
    · exact hs call (hsame ▸ hcall) hkind
    · rw [hnew] at hcall
      rcases List.mem_append.mp hcall with hcall | hcall
      · exact hs call hcall hkind
      · obtain rfl := List.mem_singleton.mp hcall
        obtain rfl : kind = .discard := hkind
        trivial
  cases input with
  | advanceSpend answer =>
    obtain ⟨spend,point,world,trace,_,_,rfl⟩ := State.advanceSpend_ok h
    exact hs
  | advanceCall thread fault =>
    obtain ⟨call,point,world,hcall,hadvance,rfl⟩ := State.advanceCall_ok h
    intro call' hcall' hkind
    rcases List.mem_or_eq_of_mem_set hcall' with hold | rfl
    · exact hs call' hold hkind
    · exact (Discards.advance (hs call (List.mem_of_getElem? hcall) hkind) hadvance).1
  | restart =>
    cases h
    intro call hcall
    cases hcall
  | recover fault =>
    cases h
    exact hs
  | setTarget height =>
    cases h
    exact hs
  | spend path arguments => exact hstart h
  | sendSigned arguments => exact hstart h
  | call kind flow => exact hstart h

theorem locks_none_of_discardReturned (hs : s.Discarding) (h : State.step db input s = .ok s')
    (hreturned : DiscardReturned input s s') : s'.world.store.locks s.proposalId = none := by
  obtain ⟨thread,fault,call,rfl,hcall,hkind,hpoint⟩ := hreturned
  obtain ⟨call',point,world,hcall',hadvance,rfl⟩ := State.advanceCall_ok h
  obtain rfl := Option.some.inj (hcall.symm.trans hcall')
  have hlt := (List.getElem?_eq_some_iff.mp hcall).1
  have hsame : point = .returned (.ok ()) := by simpa [hlt] using hpoint
  exact (Discards.advance (hs call (List.mem_of_getElem? hcall) hkind) hadvance).2 hsame

variable {accountId : String} {world : World W}

theorem proposed_sound (db : OutputLockStore W) (lock : StoredProposalLock) (accountId : String)
    (world : World W) : (State.proposed db lock accountId world).Sound world.store.nextId lock where
  proposalId := rfl
  store := by
    constructor <;> simp [State.proposed,exposeProposal]
  spend := by simp [State.proposed]
  idle := fun _ => rfl
  calls := by simp [State.proposed]
  target := le_refl _
  consumed := Nat.zero_le 1
  fresh := fun _ => rfl

theorem proposed_released (db : OutputLockStore W) (lock : StoredProposalLock) (accountId : String)
    (world : World W) :
    (State.proposed db lock accountId world).Released db world.store.nextId lock := by
  intro hnone
  simp [State.proposed,exposeProposal] at hnone

theorem proposed_protected (db : OutputLockStore W) (lock : StoredProposalLock) (accountId : String)
    (world : World W) :
    (State.proposed db lock accountId world).Protected db world.store.nextId lock :=
  protected_quiet rfl rfl rfl

theorem run_sound (h : Runs (State.step db) (State.proposed db lock accountId world) s) :
    s.Sound world.store.nextId lock ∧ s.Released db world.store.nextId lock ∧ s.Discarding := by
  refine h.invariant (P := fun s => s.Sound world.store.nextId lock ∧
    s.Released db world.store.nextId lock ∧ s.Discarding) ?_
    ⟨proposed_sound db lock accountId world,proposed_released db lock accountId world,
      by simp [State.Discarding,State.proposed]⟩
  intro input s s' hs hstep
  exact ⟨hs.1.step hstep,hs.2.1.step hs.1 hstep,hs.2.2.step hstep⟩

theorem run_protected
    (h : GuardedRuns (State.step db) LeavesInputs (State.proposed db lock accountId world) s) :
    s.Sound world.store.nextId lock ∧ s.Protected db world.store.nextId lock := by
  refine h.invariant (P := fun s => s.Sound world.store.nextId lock ∧
    s.Protected db world.store.nextId lock) ?_
    ⟨proposed_sound db lock accountId world,proposed_protected db lock accountId world⟩
  intro input s s' hs hguard hstep
  exact ⟨hs.1.step hstep,hs.2.step hs.1 hguard hstep⟩

/-- In every run from a new proposal, the proposal is taken from the store at most once, a call of
another flow changes nothing, and a discard that succeeds has released the inputs when nothing was
handed to the network and no section took the capability with the inputs locked. In every run in
which no call releases the inputs under a transaction, those of a transaction that was handed over,
not rejected and not stored stay locked by the owner until the recorded expiry. -/
theorem proposalInputs_locked (db : OutputLockStore W) (lock : StoredProposalLock)
    (accountId : String) (world : World W) :
    (∀ s, Runs (State.step db) (State.proposed db lock accountId world) s →
      s.trace.consumed ≤ 1 ∧
      (∀ input flow s', s.flowOf input = some flow → flow ≠ lock.sendFlowId →
        State.step db input s = .ok s' → s'.world = s.world) ∧
      ∀ input s', State.step db input s = .ok s' → DiscardReturned input s s' →
        s'.trace.handed = false → s'.trace.capabilityTaken = false →
        InputsReleased db lock s'.world) ∧
    ∀ s, GuardedRuns (State.step db) LeavesInputs (State.proposed db lock accountId world) s →
      ∀ index ∈ s.trace.outstanding, index ∉ s.trace.stored →
        InputsLocked db lock s.trace.recordedExpiry s.trace.highestTarget s.world.wallet := by
  refine ⟨fun s hrun => ?_,fun s hrun index houtstanding hstored => ?_⟩
  · obtain ⟨hsound,hreleased,hdiscarding⟩ := run_sound hrun
    refine ⟨hsound.consumed,fun input flow s' hflow hne => hsound.world_of_flow_ne hflow hne,?_⟩
    intro input s' hstep hreturned hhanded htaken
    have hnone := locks_none_of_discardReturned hdiscarding hstep hreturned
    rw [hsound.proposalId] at hnone
    exact hreleased.step hsound hstep hnone htaken hhanded
  · have hunstored : s.trace.unstored ≠ [] := by
      refine List.ne_nil_of_mem (a := index) ?_
      simp [Trace.unstored,houtstanding,hstored]
    exact ((run_protected hrun).2.exposed (.inr hunstored)).1

abbrev NoteLocks := OutputRef → Option (LockOwner × Nat)

/-- Locks kept as a function of the output. -/
def outputLocks : OutputLockStore NoteLocks where
  lockOf wallet := wallet
  lockOutputs wallet refs owner expiry ref := if ref ∈ refs then some (owner,expiry) else wallet ref
  unlockOutput wallet ref owner other :=
    if other = ref ∧ (wallet ref).map Prod.fst = some owner then none else wallet other
  lockOf_lockOutputs _ _ _ _ _ href := if_pos href
  lockOf_unlockOutput _ _ _ h := if_pos ⟨rfl,h⟩
  lockOf_unlockOutput_owner _ _ _ h := if_neg fun hand => h hand.2
  lockOf_unlockOutput_ne _ _ _ _ h := if_neg fun hand => h hand.1

def noteRef : OutputRef := ⟨"7d",.orchard,0⟩

def proposalLock : StoredProposalLock := ⟨⟨100,[noteRef]⟩,.main,"wallet.db",⟨7⟩,"send-1"⟩

def emptyWorld : World NoteLocks :=
  ⟨.empty,fun _ => none,.empty,0,some 99⟩

def proposedState : State NoteLocks :=
  State.proposed outputLocks proposalLock "account" emptyWorld

def spendArguments : SpendArguments := ⟨"wallet.db",.main,"send-1"⟩

/-- A PCZT is created, and its signatures are about to be prepared. -/
def untilPreparing : List (Input NoteLocks) :=
  [.spend .pczt spendArguments,.advanceSpend .section,.advanceSpend .section,
    .advanceSpend (.liveTip (.ok 100)),
    .advanceSpend (.create ⟨.ok (),.ok (),.ok (),.ok 1,fun _ => none,.ok ()⟩),
    .sendSigned spendArguments,.advanceSpend .section]

/-- The transaction is sent, its outcome stays unknown, it cannot be stored, and the lock is looked
up to be retained. -/
def untilRetaining : List (Input NoteLocks) :=
  [.advanceSpend (.prepare (.ready 0)),.advanceSpend (.sent .transportUnknown),
    .advanceSpend (.store (.failed "disk full")),.advanceSpend (.finish none)]

/-- After an uncertain broadcast a discard finds nothing to release, and neither does the next
process. -/
theorem uncertainBroadcast_locked :
    ∃ s : State NoteLocks, 0 ∈ s.trace.outstanding ∧ 0 ∉ s.trace.stored ∧ s.trace.highestTarget < 141 ∧
      s.trace.recordedExpiry = 141 ∧
      InputsLocked outputLocks proposalLock 141 s.trace.highestTarget s.world.wallet := by
  obtain ⟨s,hrun,houtstanding,hstored,htarget,hexpiry⟩ : ∃ s,
      guardedExecute (State.step outputLocks) LeavesInputs
        (untilPreparing ++ untilRetaining ++ [.advanceSpend (.finish none),.call .discard "send-1",
          .advanceCall 0 none,.restart,.recover none]) proposedState = some s ∧
      s.trace.outstanding = [0] ∧ s.trace.stored = [] ∧ s.trace.highestTarget = 99 ∧
      s.trace.recordedExpiry = 141 := ⟨_,rfl,rfl,rfl,rfl,rfl⟩
  have hlocked := (proposalInputs_locked outputLocks proposalLock "account" emptyWorld).2 s
    (guardedRuns_of_execute hrun) 0 (by simp [houtstanding]) (by simp [hstored])
  rw [hexpiry] at hlocked
  exact ⟨s,by simp [houtstanding],by simp [hstored],by omega,hexpiry,hlocked⟩

/-- A discard after a retained lock succeeds and releases nothing; a discard while the transaction is
being sent releases the inputs under it. -/
theorem proposalInputs_notLocked :
    (∃ s s' input, Runs (State.step outputLocks) proposedState s ∧
      State.step outputLocks input s = .ok s' ∧ DiscardReturned input s s' ∧
      s'.trace.handed = false ∧ ¬InputsReleased outputLocks proposalLock s'.world) ∧
    ∃ s, Runs (State.step outputLocks) proposedState s ∧ 0 ∈ s.trace.outstanding ∧
      0 ∉ s.trace.stored ∧
      ¬InputsLocked outputLocks proposalLock s.trace.recordedExpiry s.trace.highestTarget
        s.world.wallet := by
  constructor
  · obtain ⟨s,s',hrun,hstep,hcall,hreturned,hhanded,hlocked⟩ : ∃ s s' : State NoteLocks,
        execute (State.step outputLocks) [.call .retain "send-1",.advanceCall 0 none,
          .advanceCall 0 none,.call .discard "send-1"] proposedState = .ok s ∧
        State.step outputLocks (.advanceCall 1 none) s = .ok s' ∧
        s.calls[1]? = some ⟨.discard,"send-1",.discarding⟩ ∧
        (s'.calls[1]?).map Call.point = some (.returned (.ok ())) ∧ s'.trace.handed = false ∧
        s'.world.wallet noteRef = some (⟨7⟩,140) := ⟨_,_,rfl,rfl,rfl,rfl,rfl,rfl⟩
    refine ⟨s,s',_,runs_of_execute hrun,hstep,⟨1,none,_,rfl,hcall,rfl,hreturned⟩,hhanded,?_⟩
    intro hreleased
    refine hreleased.outputs noteRef (List.mem_singleton.mpr rfl) ?_
    simp [OutputLockStore.Holds,outputLocks,hlocked,proposalLock]
  · obtain ⟨s,hrun,houtstanding,hstored,htarget,hexpiry,hwallet⟩ : ∃ s,
        execute (State.step outputLocks)
          (untilPreparing ++ [.call .discard "send-1",.advanceCall 0 none,.advanceCall 0 none,
            .advanceCall 0 none] ++ untilRetaining) proposedState = .ok s ∧
        s.trace.outstanding = [0] ∧ s.trace.stored = [] ∧ s.trace.highestTarget = 99 ∧
        s.trace.recordedExpiry = 141 ∧ s.world.wallet noteRef = none :=
      ⟨_,rfl,rfl,rfl,rfl,rfl,rfl⟩
    refine ⟨s,runs_of_execute hrun,by simp [houtstanding],by simp [hstored],?_⟩
    intro hlocked
    rcases hlocked with hreached | hlocked
    · omega
    · have hnote := hlocked noteRef (List.mem_singleton.mpr rfl)
      change s.world.wallet noteRef = _ at hnote
      rw [hwallet] at hnote
      cases hnote

end CoppiceWallet.Proposals
