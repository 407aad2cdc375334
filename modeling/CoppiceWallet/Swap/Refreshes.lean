import CoppiceWallet.Swap.Holding

/-! # Refreshes keep the deposits -/

namespace CoppiceWallet.Swap

open CoppiceWallet.Lib

variable {request : Option SwapRequest} {start w : SwapWorld} {a : String} {α : Type}
  {caught : String → Code SwapWorld SwapRequest SwapRequest.Reply}

theorem sat_end (h : SwapAllowed request start w [] → SwapRan request start w []) :
    SwapSat request start .done w := by
  apply sat_done
  intro hallowed
  exact ⟨h hallowed,by simp⟩

theorem Segment.sat_end (h : Segment request start w) : SwapSat request start .done w :=
  CoppiceWallet.Swap.sat_end (h.ran w [] (.refl w))

theorem sat_wait {p : Pending SwapWorld SwapRequest SwapRequest.Reply}
    (hran : SwapAllowed request start w [p.request] → SwapRan request start w [p.request])
    (hkeeps : SwapAllowed request start w [p.request] → SwapKeeps p w) :
    SwapSat request start (.await p.request p.next) w := by
  apply sat_await
  intro hallowed
  refine ⟨hran hallowed,?_⟩
  intro q hq
  rw [List.nil_append,List.mem_singleton] at hq
  exact hq ▸ hkeeps hallowed

/-- A request that is no save leaves the world as it is. -/
def SwapCall.reads : SwapCall → Bool
  | .saveRecords _ _ _ => false
  | _ => true

variable {c : SwapCall}

theorem serve_reads {hold : Hold} (hc : c.reads = true) {answer : SwapAnswer} {r : c.Reply}
    {u : SwapWorld} (h : serveSwapRequest ⟨hold,c⟩ answer w = some (r,u)) : u = w := by
  cases c <;> cases answer <;> cases h <;> first | rfl | cases hc

theorem served_refl {q : SwapRequest} (h : w.Kept) : SwapServed q w w where
  kept := h
  others := ⟨w.stored,rfl⟩
  extends' _ := extends_of_subset fun _ hx => hx
  ledger _ _ := rfl
  stored _ _ := rfl

theorem keeps_call {hold : Hold} {next : c.Reply → Code SwapWorld SwapRequest SwapRequest.Reply}
    (hc : c.reads = true) (hnext : ∀ t answer r v, swapContract.rely ⟨hold,c⟩ w t →
      serveSwapRequest ⟨hold,c⟩ answer t = some (r,t) → swapContract.rely ⟨hold,c⟩ t v →
        SwapSat (some ⟨hold,c⟩) v (next r) v) :
    SwapKeeps ⟨⟨hold,c⟩,next⟩ w := by
  apply keeps_of_sat
  intro t ht answer r u hserve
  cases serve_reads hc hserve
  exact ⟨served_refl (swapContract_kept ht),fun v hv => hnext t answer r v ht hserve hv⟩

theorem sat_call {hold : Hold} {next : c.Reply → Code SwapWorld SwapRequest SwapRequest.Reply}
    (hc : c.reads = true) (hw : Segment request start w)
    (hnext : SwapAllowed request start w [⟨hold,c⟩] → ∀ t answer r v,
      swapContract.rely ⟨hold,c⟩ w t → serveSwapRequest ⟨hold,c⟩ answer t = some (r,t) →
        swapContract.rely ⟨hold,c⟩ t v → SwapSat (some ⟨hold,c⟩) v (next r) v) :
    SwapSat request start (.await (⟨hold,c⟩ : SwapRequest) next) w :=
  sat_wait (p := ⟨⟨hold,c⟩,next⟩) (hw.ran w _ (.refl w)) fun hallowed =>
    keeps_call hc (hnext hallowed)

theorem sat_call_shared {next : c.Reply → Code SwapWorld SwapRequest SwapRequest.Reply}
    (hc : c.reads = true) (hw : Segment request start w)
    (hnext : ∀ r v, SharedRely a w v → SwapSat (some ⟨.shared a,c⟩) v (next r) v) :
    SwapSat request start (.await (⟨.shared a,c⟩ : SwapRequest) next) w := by
  apply sat_call hc hw
  intro _ t _ r v ht _ hv
  exact hnext r v (SharedRely.trans ht hv)

theorem loaded_stored (h : w.Kept) (now : Nat) :
    Loaded a (ledger a (w.stored a)) ((w.stored a).map (swapIntentFromRecord now)) where
  wellKept := wellKept_records (h.stored a) now
  ledger := ledger_records now
  saved x hx := by
    obtain ⟨y,hy,rfl⟩ := List.mem_map.mp hx
    exact (alike_swapIntentFromRecord now).1.trans (h.saved a y hy)

theorem keeps_loadIntents (next : List SwapIntent → Code SwapWorld SwapRequest SwapRequest.Reply)
    (hnext : ∀ loaded v, SharedRely a w v → Loaded a (ledger a (w.stored a)) loaded →
      SwapSat (some ⟨.shared a,.loadRecords a⟩) v (next loaded) v) :
    SwapKeeps ⟨⟨.shared a,.loadRecords a⟩,fun records =>
      .get fun w => next (records.map (swapIntentFromRecord w.clock))⟩ w := by
  apply keeps_call rfl
  intro t answer r v ht hserve hv
  have hr' : r = t.stored a := by
    cases answer <;> cases hserve
    rfl
  subst hr'
  apply hnext _ v (SharedRely.trans ht hv)
  have hledger : ledger a (t.stored a) = ledger a (w.stored a) := SharedRely.ledger ht
  rw [← hledger]
  exact loaded_stored (swapContract_kept ht) _

theorem sat_loadIntents {next : List SwapIntent → Code SwapWorld SwapRequest SwapRequest.Reply}
    (hw : Segment request start w)
    (hnext : ∀ loaded v, SharedRely a w v → Loaded a (ledger a (w.stored a)) loaded →
      SwapSat (some ⟨.shared a,.loadRecords a⟩) v (next loaded) v) :
    SwapSat request start (loadIntents .shared (some a) next caught) w :=
  sat_wait (p := ⟨_,_⟩) (hw.ran w _ (.refl w)) fun _ => keeps_loadIntents next hnext

def SwapWorld.save (w : SwapWorld) (a : String) (records : List SwapIntent) : SwapWorld :=
  { w with stored := fun other => if other = a then records else w.stored other }

variable {records : List SwapIntent}

theorem serve_save {hold : Hold} {checkpoint : Option String} {answer : SwapAnswer} {r : Unit}
    {u : SwapWorld}
    (h : serveSwapRequest ⟨hold,.saveRecords a records checkpoint⟩ answer w = some (r,u)) :
    u = w.save a records := by
  cases answer <;> cases h
  rfl

@[simp] theorem stored_save : (w.save a records).stored a = records := by
  simp [SwapWorld.save]

theorem stored_save_of_ne {b : String} (h : b ≠ a) : (w.save a records).stored b = w.stored b := by
  simp [SwapWorld.save,h]

variable {intents : List SwapIntent}

theorem SwapWorld.Kept.save (h : w.Kept) (hwell : WellKept intents) :
    (w.save a (savedRecords a intents)).Kept where
  saved b x hx := by
    by_cases hb : b = a
    · subst hb
      rw [stored_save] at hx
      exact isPersistableIntent_saved x hx
    · rw [stored_save_of_ne hb] at hx
      exact h.saved b x hx
  stored b := by
    by_cases hb : b = a
    · subst hb
      rw [stored_save]
      exact hwell.savedRecords
    · rw [stored_save_of_ne hb]
      exact h.stored b
  memory := h.memory
  idle := h.idle

theorem served_save {q : SwapRequest} (hkept : w.Kept) (hwell : WellKept intents)
    (hhold : q.hold.holds a = true)
    (hextends : Extends (q.call.checkpoint a) (ledger a (w.stored a)) (ledger a intents))
    (hledger : q.hold = .exclusive a ∨ ledger a intents = ledger a (w.stored a)) :
    SwapServed q w (w.save a (savedRecords a intents)) where
  kept := hkept.save hwell
  others := ⟨_,rfl⟩
  extends' b := by
    by_cases hb : b = a
    · subst hb
      rw [stored_save,ledger_savedRecords]
      exact hextends
    · rw [stored_save_of_ne hb]
      exact extends_of_subset fun _ hx => hx
  ledger b hhold' := by
    by_cases hb : b = a
    · subst hb
      rw [stored_save,ledger_savedRecords]
      exact hledger.resolve_left hhold'
    · rw [stored_save_of_ne hb]
  stored b hb := stored_save_of_ne fun heq => hb (heq ▸ hhold)

theorem keeps_save_shared {next : Unit → Code SwapWorld SwapRequest SwapRequest.Reply}
    (hintents : Refreshed a (ledger a (w.stored a)) intents)
    (hnext : ∀ c v, SharedRely a w v → SwapSat (some ⟨.shared a,c⟩) v (next ()) v) :
    SwapKeeps ⟨⟨.shared a,.saveRecords a (savedRecords a intents) none⟩,next⟩ w := by
  apply keeps_of_sat
  intro t ht answer r u hserve
  cases serve_save hserve
  have ht : SharedRely a w t := ht
  have hledger := hintents.ledger.trans ht.ledger.symm
  constructor
  · apply served_save ht.kept hintents.wellKept (by simp) _ (.inr hledger)
    rw [hledger]
    exact extends_of_subset fun _ hx => hx
  · intro v hv
    have hv : SharedRely a (t.save a (savedRecords a intents)) v := hv
    apply hnext
    refine ⟨hv.kept,?_,hv.sync⟩
    rw [hv.ledger,stored_save,ledger_savedRecords]
    exact hintents.ledger

theorem sat_save_shared {next : Unit → Code SwapWorld SwapRequest SwapRequest.Reply}
    (hintents : SwapAllowed request start w
      [⟨.shared a,.saveRecords a (savedRecords a intents) none⟩] →
        Refreshed a (ledger a (w.stored a)) intents)
    (hran : SwapAllowed request start w
      [⟨.shared a,.saveRecords a (savedRecords a intents) none⟩] →
        SwapRan request start w [⟨.shared a,.saveRecords a (savedRecords a intents) none⟩])
    (hnext : ∀ c v, SharedRely a w v → SwapSat (some ⟨.shared a,c⟩) v (next ()) v) :
    SwapSat request start (saveIntents .shared none intents (some a) next caught) w :=
  sat_wait (p := ⟨⟨.shared a,.saveRecords a (savedRecords a intents) none⟩,next⟩) hran
    fun hallowed => keeps_save_shared (hintents hallowed) hnext

theorem alike_refreshed {x : SwapIntent} (haddress : x.Addressed)
    (snapshot : SwapIntentSnapshot) (timestamp : Nat) (checkedAt : Option Nat) (now : Nat) :
    Alike a x (updateSwapIntentFromSnapshot x snapshot timestamp checkedAt now) :=
  Alike.of_fields rfl rfl rfl (address_updateSwapIntentFromSnapshot haddress _ _ _ _) rfl rfl rfl rfl

variable {v : List DepositCard} {current : List SwapIntent}

theorem Refreshed.replaceOwn {x u : SwapIntent} (h : Refreshed a v intents)
    (hcurrent : Refreshed a v current) (hx : x ∈ current) (hxu : Alike a x u) (hid : u.id = x.id)
    (haddress : u.Addressed) : Refreshed a v (replaceSwapIntent intents x.id u) := by
  apply h.replace _ hid haddress
  intro y hy hyid
  have hyx := alike_of_ledger h.wellKept hcurrent.wellKept (hcurrent.ledger.trans h.ledger.symm) hy
    hx hyid.symm
  refine ⟨hxu.1.trans hyx.1,fun hsaved => ?_⟩
  rw [← hyx.1] at hsaved
  exact (hxu.2 hsaved).trans (hyx.2 (hyx.1 ▸ hsaved))

/-- A function that was resumed while it holds the list shared. -/
def Holding (a : String) (request : Option SwapRequest) (w : SwapWorld) : Prop :=
  w.InSync a ∧ ∃ c, request = some ⟨.shared a,c⟩

theorem SharedRely.holding {u : SwapWorld} (h : SharedRely a u w) :
    Holding a (some ⟨.shared a,c⟩) w :=
  ⟨h.sync,c,rfl⟩

variable {includeTerminal : Bool} {result : SwapActivityRefreshResult}
  {next : SwapActivityRefreshResult → Code SwapWorld SwapRequest SwapRequest.Reply}

theorem sat_refreshEach (hcurrent : Refreshed a v current)
    (hnext : ∀ request start w result, Segment request start w → ledger a (w.stored a) = v →
      Refreshed a v result.intents → (result.didRefresh = true → Holding a request w) →
        SwapSat request start (next result) w)
    {rest : List SwapIntent} (hrest : ∀ x ∈ rest, x ∈ current)
    (hresult : Refreshed a v result.intents)
    (hholding : result.didRefresh = true → Holding a request w) (hw : Segment request start w)
    (hledger : ledger a (w.stored a) = v) :
    SwapSat request start (refreshEach a includeTerminal rest result next caught) w := by
  induction rest generalizing result request start w with
  | nil => exact hnext request start w result hw hledger hresult hholding
  | cons x rest ih =>
    have hx := hrest x List.mem_cons_self
    have haddress := hcurrent.wellKept.addressed x hx
    have hrest' : ∀ y ∈ rest, y ∈ current := fun y hy => hrest y (List.mem_cons_of_mem _ hy)
    rw [refreshEach]
    split
    · exact ih hrest' hresult hholding hw hledger
    · apply sat_get
      refine sat_call_shared (c := .getStatus x.id) rfl hw ?_
      intro r u hu
      have hwu : Segment (some ⟨.shared a,.getStatus x.id⟩) u u := (resumed_shared hu).segment
      have hledger' := hu.ledger.trans hledger
      cases r with
      | ok snapshot =>
        apply sat_get
        apply ih hrest' _ (fun _ => hu.holding) hwu hledger'
        have halike := alike_refreshed haddress snapshot w.clock (some w.clock) u.clock (a := a)
        apply hresult.replaceOwn hcurrent hx (u := { updateSwapIntentFromSnapshot x snapshot w.clock
          (some w.clock) u.clock with statusError := none }) halike rfl
        have hsame := address_updateSwapIntentFromSnapshot haddress snapshot w.clock (some w.clock)
          u.clock
        exact haddress.of_fields hsame rfl rfl
      | error message =>
        apply ih hrest' _ (fun _ => hu.holding) hwu hledger'
        exact hresult.replaceOwn hcurrent hx (.of_fields rfl rfl rfl rfl rfl rfl rfl rfl) rfl
          (haddress.of_fields rfl rfl rfl)

theorem sat_refreshIntents (hcurrent : Refreshed a v current) {ids : List String}
    (hnext : ∀ request start w result, Segment request start w → ledger a (w.stored a) = v →
      Refreshed a v result.intents → (result.didRefresh = true → Holding a request w) →
        SwapSat request start (next result) w)
    (hw : Segment request start w) (hledger : ledger a (w.stored a) = v) :
    SwapSat request start (refreshIntents a current ids includeTerminal next caught) w := by
  simp only [refreshIntents,Async.bind_apply]
  apply sat_refreshEach hcurrent _ (fun _ hx => hx) hcurrent (fun h => by cases h) hw hledger
  intro request start w result hw hledger hresult hholding
  split
  · simp only [saveRefreshedIntents,Async.bind_apply]
    apply sat_loadIntents hw
    intro loaded u hu hloaded
    have hledger' := hu.ledger.trans hledger
    rw [hledger] at hloaded
    apply sat_save_shared
    · intro _
      rw [hledger']
      exact hresult.merge hloaded.toRefreshed _
    · exact (resumed_shared hu).segment.ran u _ (.refl u)
    · intro c x hx
      exact hnext _ _ _ _ (resumed_shared hx).segment (hx.ledger.trans hledger') hresult
        fun _ => hx.holding
  · exact hnext _ _ _ _ hw hledger hresult hholding

theorem sat_refreshOpenIntents (hcurrent : Refreshed a v current)
    (hnext : ∀ request start w result, Segment request start w → ledger a (w.stored a) = v →
      Refreshed a v result.intents → (result.didRefresh = true → Holding a request w) →
        SwapSat request start (next result) w)
    (hw : Segment request start w) (hledger : ledger a (w.stored a) = v) :
    SwapSat request start (refreshOpenIntents a current next caught) w := by
  simp only [refreshOpenIntents,Async.bind_apply]
  apply sat_loadIntents hw
  intro loaded u hu hloaded
  rw [hledger] at hloaded
  apply sat_refreshIntents _ hnext (resumed_shared hu).segment (hu.ledger.trans hledger)
  split
  · exact hcurrent
  · exact hloaded.toRefreshed

theorem sat_refreshOpenActivities {force : Bool} (hw : Segment request start w) :
    SwapSat request start (refreshOpenActivities a force).start w := by
  simp only [Async.start,refreshOpenActivities,Async.bind_apply,Async.get_apply]
  apply sat_get
  split
  · exact hw.sat_end
  · simp only [Async.bind_apply,Async.set_apply,Async.ensuring_apply]
    apply sat_set
    apply sat_loadIntents
    · exact hw.quiet ⟨rfl,rfl,rfl,rfl⟩ List.suffix_rfl
    · intro loaded u hu hloaded
      have hwu : Segment (some ⟨.shared a,.loadRecords a⟩) u u := (resumed_shared hu).segment
      split
      · apply Segment.sat_end
        exact hwu.quiet ⟨rfl,rfl,rfl,rfl⟩ List.suffix_rfl
      · simp only [Async.bind_apply,Async.pure_apply]
        apply sat_refreshIntents hloaded.toRefreshed _ hwu hu.ledger
        intro request start w result hw _ _ _
        apply Segment.sat_end
        exact hw.quiet ⟨rfl,rfl,rfl,rfl⟩ List.suffix_rfl

/-- The code asks for something that it does not change the world for, and holds the list. -/
def Asks (a : String) (code : Code SwapWorld SwapRequest SwapRequest.Reply) (w : SwapWorld) : Prop :=
  (code.run w).1 = w ∧ ∃ c next, (code.run w).2 = [⟨⟨.shared a,c⟩,next⟩]

theorem Asks.sat {code : Code SwapWorld SwapRequest SwapRequest.Reply} (h : Asks a code w)
    (hsat : ∀ c, SwapAllowed request start w [⟨.shared a,c⟩] → SwapSat request start code w) :
    SwapSat request start code w := by
  obtain ⟨hw,c,next,hleft⟩ := h
  intro hallowed
  apply hsat c _ hallowed
  rw [hw,hleft] at hallowed
  exact hallowed

theorem refreshEach_asks {rest : List SwapIntent} :
    Asks a (refreshEach a includeTerminal rest result next caught) w ∨
      refreshEach a includeTerminal rest result next caught = next result := by
  induction rest with
  | nil => exact .inr rfl
  | cons x rest ih =>
    rw [refreshEach]
    split
    · exact ih
    · exact .inl ⟨rfl,_,_,rfl⟩

theorem refreshIntents_asks {ids : List String} :
    Asks a (refreshIntents a current ids includeTerminal next caught) w ∨
      refreshIntents a current ids includeTerminal next caught = next ⟨current,ids,[],none⟩ :=
  refreshEach_asks

theorem refreshOpenIntents_asks : Asks a (refreshOpenIntents a current next caught) w :=
  ⟨rfl,_,_,rfl⟩

theorem useIntents_misuses (hsuffix : start.misuses <:+ w.misuses)
    (h : (w.useIntents (some a)).misuses = start.misuses) : w.inMemory a = true := by
  cases hin : w.inMemory a with
  | true => rfl
  | false =>
    have hlength := congrArg List.length h
    have hle := hsuffix.length_le
    simp [SwapWorld.useIntents,SwapWorld.noteIf,hin] at hlength
    omega

theorem Segment.inSync (h : Segment request start w)
    (hallowed : SwapAllowed request start w [⟨.shared a,c⟩]) : w.InSync a :=
  h.sync _ _ a hallowed (.inr ⟨_,List.mem_singleton_self _,Hold.holds_shared.mpr rfl⟩)

theorem Holding.reconciled {refreshed : List SwapIntent} (h : Holding a request w)
    (hw : Segment request start w) (hledger : ledger a (w.stored a) = v)
    (hrefreshed : Refreshed a v refreshed) (hin : w.inMemory a = true) (ids : List String) :
    Refreshed a (ledger a (w.stored a)) (reconcileRefreshedSwapIntents w.intents refreshed ids) := by
  subst hledger
  exact hrefreshed.reconcile ⟨hw.kept.memory,h.1 hin⟩ ids

theorem Holding.held {left : List SwapRequest} (h : Holding a request w) :
    SwapRequest.Held request left a := by
  obtain ⟨_,c,rfl⟩ := h
  exact .inl ⟨_,rfl,Hold.holds_shared.mpr rfl⟩

theorem sat_showRefreshed (hw : Segment request start w) (hledger : ledger a (w.stored a) = v)
    (hresult : Refreshed a v result.intents)
    (hholding : result.didRefresh = true → Holding a request w) :
    SwapSat request start ((do
      let w ← Async.get
      if !result.didRefresh || !w.isAccountActive (some a) then pure ()
      else
        let currentIntents ← useIntents (some a)
        let reconciledIntents :=
          reconcileRefreshedSwapIntents currentIntents result.intents result.requestedIds
        Async.modify fun w => { w with intents := reconciledIntents }
        if result.includesRemovedRequestedIntent reconciledIntents then
          persistIntentsForAccount .shared none (some a) reconciledIntents
        else pure () : SwapAsync Unit)
      (fun _ => .get fun w => .set { w with statusRefreshInFlight := false } .done) caught) w := by
  simp only [Async.bind_apply,Async.get_apply]
  apply sat_get
  split
  · simp only [Async.pure_apply]
    apply sat_get
    apply sat_set
    apply Segment.sat_end
    exact hw.quiet ⟨rfl,rfl,rfl,rfl⟩ List.suffix_rfl
  · rename_i hactive
    simp only [Bool.or_eq_true,Bool.not_eq_true',not_or,Bool.not_eq_false] at hactive
    have hhold := hholding hactive.1
    simp only [useIntents,Async.bind_apply,Async.modify_apply,Async.get_apply,Async.pure_apply]
    apply sat_get
    apply sat_set
    apply sat_get
    apply sat_get
    apply sat_set
    split
    · apply sat_save_shared
      · intro hallowed
        have hin := useIntents_misuses hw.misuses hallowed.misuses
        exact hhold.reconciled hw hledger hresult hin _
      · intro hallowed
        have hin := useIntents_misuses hw.misuses hallowed.misuses
        have hreconciled := hhold.reconciled hw hledger hresult hin result.requestedIds
        exact hw.ran_memory rfl rfl hreconciled.wellKept hin hhold.held (.inr hreconciled.ledger)
      · intro c x hx
        apply sat_get
        apply sat_set
        apply Segment.sat_end
        exact (resumed_shared hx).segment.quiet ⟨rfl,rfl,rfl,rfl⟩ List.suffix_rfl
    · simp only [Async.pure_apply]
      apply sat_get
      apply sat_set
      apply sat_end
      intro hallowed
      have hin := useIntents_misuses hw.misuses hallowed.misuses
      have hreconciled := hhold.reconciled hw hledger hresult hin result.requestedIds
      exact hw.ran_memory rfl rfl hreconciled.wellKept hin hhold.held (.inr hreconciled.ledger)

theorem sat_refreshIntentStatuses {ids : List String} (hw : Segment request start w) :
    SwapSat request start (refreshIntentStatuses ids includeTerminal).start w := by
  simp only [Async.start,refreshIntentStatuses,Async.bind_apply,Async.get_apply]
  apply sat_get
  cases hactive : w.activeAccountUuid with
  | none => exact hw.sat_end
  | some a =>
    dsimp only
    split
    · exact hw.sat_end
    · simp only [useIntents,Async.bind_apply,Async.modify_apply,Async.get_apply,Async.pure_apply,
        Async.ensuring_apply]
      apply sat_get
      apply sat_set
      apply sat_get
      apply sat_set
      apply sat_get
      have hsuffix : w.misuses <:+ (w.useIntents (some a)).misuses := by
        simp only [SwapWorld.useIntents,SwapWorld.noteIf]
        split
        · exact List.suffix_cons _ _
        · exact List.suffix_rfl
      have hwu : Segment request start ({ w with statusRefreshInFlight := true }.useIntents (some a)) :=
        hw.quiet ⟨rfl,rfl,rfl,rfl⟩ hsuffix
      have hcurrent (c : SwapCall) (hallowed : SwapAllowed request start
          ({ w with statusRefreshInFlight := true }.useIntents (some a)) [⟨.shared a,c⟩]) :
          Refreshed a (ledger a (w.stored a)) w.intents := by
        have hin : w.inMemory a = true := useIntents_misuses hw.misuses hallowed.misuses
        exact ⟨hw.kept.memory,hwu.inSync hallowed hin⟩
      split
      · rw [Async.bind_apply]
        rcases refreshIntents_asks with hasks | hend
        · apply hasks.sat
          intro c hallowed
          apply sat_refreshIntents (hcurrent c hallowed) _ hwu rfl
          intro request start w result hw hledger hresult hholding
          exact sat_showRefreshed hw hledger hresult hholding
        · rw [hend]
          apply sat_get
          simp only [SwapActivityRefreshResult.didRefresh]
          apply sat_get
          apply sat_set
          apply Segment.sat_end
          exact hwu.quiet ⟨rfl,rfl,rfl,rfl⟩ List.suffix_rfl
      · rw [Async.bind_apply]
        apply refreshOpenIntents_asks.sat
        intro c hallowed
        apply sat_refreshOpenIntents (hcurrent c hallowed) _ hwu rfl
        intro request start w result hw hledger hresult hholding
        exact sat_showRefreshed hw hledger hresult hholding

theorem sat_refreshOpenIntentStatuses (hw : Segment request start w) :
    SwapSat request start refreshOpenIntentStatuses.start w := by
  simp only [Async.start,refreshOpenIntentStatuses,Async.bind_apply,Async.get_apply]
  apply sat_get
  exact sat_refreshIntentStatuses hw

theorem sat_refreshSelectedIntentStatus (hw : Segment request start w) :
    SwapSat request start refreshSelectedIntentStatus.start w := by
  simp only [Async.start,refreshSelectedIntentStatus,Async.bind_apply,Async.get_apply]
  apply sat_get
  cases w.selectedIntentOrNull with
  | none => exact hw.sat_end
  | some selected => exact sat_refreshIntentStatuses hw

theorem sat_showRestored {loaded : List SwapIntent} {generation : Nat} {replaceExisting : Bool}
    (hkept : w.Kept) (hsync : w.InSync a) (hloaded : Refreshed a (ledger a (w.stored a)) loaded) :
    SwapSat (some ⟨.shared a,.loadRecords a⟩) w
      (showRestored a generation replaceExisting loaded (fun _ => .done) caught) w := by
  have hheld (left : List SwapRequest) :
      SwapRequest.Held (some ⟨.shared a,.loadRecords a⟩) left a :=
    .inl ⟨_,rfl,Hold.holds_shared.mpr rfl⟩
  have hw : Segment (some ⟨.shared a,.loadRecords a⟩) w w :=
    (resumed_shared (u := w) ⟨hkept,rfl,hsync⟩).segment
  simp only [showRestored,Async.bind_apply,Async.get_apply]
  apply sat_get
  split
  · exact hw.sat_end
  · rename_i hactive
    simp only [Bool.or_eq_true,Bool.not_eq_true',not_or,Bool.not_eq_false,isAccountActive_some]
      at hactive
    split
    · rename_i hempty
      simp only [Bool.and_eq_true,List.isEmpty_iff] at hempty
      apply sat_set
      apply Segment.sat_end
      by_cases hnone : w.intents.isEmpty
      · rw [List.isEmpty_iff] at hnone
        have hledger : ledger a w.intents = ledger a (w.stored a) := by
          rw [hnone,← hloaded.ledger,hempty.1]
        refine hw.memory rfl rfl hkept.memory ?_ hheld hledger List.suffix_rfl
        simp [SwapWorld.noteRestored,hnone,inMemory_iff,hactive.2]
      · refine hw.quiet ?_ List.suffix_rfl
        constructor <;> simp [SwapWorld.noteRestored,hnone]
    · have hrestored : Segment (some ⟨.shared a,.loadRecords a⟩) w
          (w.restore a loaded replaceExisting) := by
        refine hw.memory rfl rfl hloaded.wellKept ?_ hheld hloaded.ledger List.suffix_rfl
        simp [SwapWorld.restore,inMemory_iff,hactive.2]
      apply sat_set
      split
      · exact hrestored.sat_end
      · apply sat_fork_last
        exact sat_refreshOpenIntentStatuses hrestored

theorem keeps_restore {generation : Nat} {replaceExisting : Bool} :
    SwapKeeps ⟨⟨.shared a,.loadRecords a⟩,fun records => .get fun w =>
      showRestored a generation replaceExisting (records.map (swapIntentFromRecord w.clock))
        (fun _ => .done) caught⟩ w := by
  apply keeps_loadIntents
    fun loaded => showRestored a generation replaceExisting loaded (fun _ => .done) caught
  intro loaded v hv hloaded
  rw [← hv.ledger] at hloaded
  exact sat_showRestored hv.kept hv.sync hloaded.toRefreshed

theorem ran_switch {w' : SwapWorld} {next : Option String} {left : List SwapRequest} (hkept : w.Kept)
    (hne : w.activeAccountUuid ≠ next) (hstored : w'.stored = w.stored)
    (hmemory : WellKept w'.intents) (hactive : w'.activeAccountUuid = next)
    (hloaded : w'.loadedFor = w.loadedFor ∨ w'.loadedFor = none)
    (hidle : next = none → w'.loadedFor = none)
    (hin : ∀ p, w.activeAccountUuid = some p → w.inMemory p = true)
    (hheld : ∀ p, w.activeAccountUuid = some p → SwapRequest.Held none left p) :
    SwapRan none w w' left := by
  have hnone (b : String) : ¬w'.inMemory b = true := by
    intro hb
    rw [inMemory_iff] at hb
    rcases hloaded with hloaded | hloaded
    · rw [hloaded] at hb
      cases hprevious : w.activeAccountUuid with
      | none =>
        rw [hkept.idle hprevious] at hb
        cases hb.1
      | some p =>
        have hp := (inMemory_iff.mp (hin p hprevious)).1
        apply hne
        rw [hprevious,← hactive,hb.2,← hp,hb.1]
    · rw [hloaded] at hb
      cases hb.1
  constructor
  · refine ⟨hstored ▸ hkept.saved,hstored ▸ hkept.stored,hmemory,?_⟩
    rw [hactive]
    exact hidle
  · exact hstored
  · exact fun b _ => .inr fun hb => absurd hb (hnone b)
  · intro b hb
    have hfalse : ¬w.inMemory b = true := fun h => hb (hheld b (inMemory_iff.mp h).2)
    exact ⟨Bool.eq_iff_iff.mpr ⟨fun h => absurd h (hnone b),fun h => absurd h hfalse⟩,
      fun h => absurd h hfalse⟩

theorem leaveAccount_some {p : String} {next : Option String} (h : w.activeAccountUuid = some p) :
    w.leaveAccount next = { w.useIntents (some p) with activeAccountUuid := next } := by
  simp [SwapWorld.leaveAccount,h]

theorem leaveAccount_none {next : Option String} (h : w.activeAccountUuid = none) :
    w.leaveAccount next = { w with activeAccountUuid := next } := by
  simp [SwapWorld.leaveAccount,h]

theorem sat_switchAccount {next : Option String} (hkept : w.Kept) :
    SwapSat none w (switchAccount next).start w := by
  simp only [Async.start,switchAccount,Async.bind_apply,Async.get_apply]
  apply sat_get
  split
  · exact (resumed_none hkept).segment.sat_end
  · rename_i hne
    simp only [Async.bind_apply,Async.set_apply]
    apply sat_set
    cases hprevious : w.activeAccountUuid with
    | none =>
      rw [leaveAccount_none hprevious]
      cases next with
      | none => exact absurd hprevious hne
      | some n =>
        intro hallowed
        have hnone (p : String) : w.activeAccountUuid ≠ some p := by simp [hprevious]
        refine ⟨ran_switch hkept hne rfl hkept.memory rfl (.inl rfl) (fun h => by cases h)
          (fun p hp => absurd hp (hnone p)) fun p hp => absurd hp (hnone p),?_⟩
        intro q hq
        cases List.mem_singleton.mp hq
        exact keeps_restore
    | some p =>
      rw [leaveAccount_some hprevious]
      have hsome {q : String} (hq : w.activeAccountUuid = some q) : q = p := by
        rw [hprevious] at hq
        exact (Option.some.inj hq).symm
      have hheld (rest : List SwapRequest) (q : String) (hq : w.activeAccountUuid = some q) :
          SwapRequest.Held none (⟨.shared p,.saveRecords p (savedRecords p w.intents) none⟩ :: rest)
            q :=
        .inr ⟨_,List.mem_cons_self,Hold.holds_shared.mpr (hsome hq).symm⟩
      have hsave (hsync : ledger p w.intents = ledger p (w.stored p)) (u : SwapWorld)
          (hu : u.stored = w.stored) : SwapKeeps
            ⟨⟨.shared p,.saveRecords p (savedRecords p w.intents) none⟩,fun _ => .done⟩ u := by
        apply keeps_save_shared ⟨hkept.memory,hu ▸ hsync⟩
        exact fun c v hv => (resumed_shared hv).segment.sat_end
      cases next with
      | none =>
        intro hallowed
        have hin := useIntents_misuses (List.suffix_refl w.misuses) hallowed.misuses
        have hsync := hallowed.sync p ⟨_,List.mem_cons_self,Hold.holds_shared.mpr rfl⟩
          (fun _ h => by cases h) hin
        refine ⟨ran_switch hkept hne rfl ⟨List.nodup_nil,fun _ h => by cases h⟩ rfl (.inr rfl)
          (fun _ => rfl) (fun q hq => hsome hq ▸ hin) (hheld []),?_⟩
        intro q hq
        cases List.mem_singleton.mp hq
        exact hsave hsync _ rfl
      | some n =>
        intro hallowed
        have hin := useIntents_misuses (List.suffix_refl w.misuses) hallowed.misuses
        have hsync := hallowed.sync p ⟨_,List.mem_cons_self,Hold.holds_shared.mpr rfl⟩
          (fun _ h => by cases h) hin
        refine ⟨ran_switch hkept hne rfl hkept.memory rfl (.inl rfl) (fun h => by cases h)
          (fun q hq => hsome hq ▸ hin) (hheld _),?_⟩
        intro q hq
        rcases List.mem_cons.mp hq with rfl | hq
        · exact hsave hsync _ rfl
        · cases List.mem_singleton.mp hq
          exact keeps_restore

end CoppiceWallet.Swap
