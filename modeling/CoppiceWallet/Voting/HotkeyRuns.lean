import CoppiceWallet.Lib.Threads
import CoppiceWallet.Voting.Hotkeys

/-! # One hotkey per account and round -/

namespace CoppiceWallet.Voting

open CoppiceWallet.Lib

variable {s : HotkeyState}

/-- Everything that is known of a hotkey agrees with the store, and at most one ensure is about to
fill an empty slot. -/
structure Agrees (s : HotkeyState) : Prop where
  returned : ∀ (e : Nat) (ensure : Ensure) hotkey, s.ensures[e]? = some ensure →
    ensure.point = .returned hotkey → s.store ensure.key = some hotkey
  unwritten : ∀ (e : Nat) (ensure : Ensure) hotkey, s.ensures[e]? = some ensure →
    ensure.point = .write hotkey → s.store ensure.key = none
  single : ∀ (e e' : Nat) (ensure ensure' : Ensure) hotkey hotkey', s.ensures[e]? = some ensure →
    s.ensures[e']? = some ensure' → ensure.point = .write hotkey → ensure'.point = .write hotkey' →
      ensure.key = ensure'.key → e = e'
  joined : ∀ n k e, s.inFlight n k = some e → ∃ ensure, s.ensures[e]? = some ensure ∧ ensure.key = k
  awaited : ∀ (i : Nat) (action : HotkeyAction) e, s.actions[i]? = some action →
    action.point = .awaiting e → ∃ ensure, s.ensures[e]? = some ensure ∧ ensure.key = action.key
  held : ∀ (i : Nat) (action : HotkeyAction) hotkey, s.actions[i]? = some action →
    action.point = .holds hotkey → s.store action.key = some hotkey
  built : ∀ p ∈ s.built, s.store p.1 = some p.2

/-- What the point of an action at a key has to agree with. -/
def ActionPoint.Fits (s : HotkeyState) (key : HotkeyKey) : ActionPoint → Prop
  | .awaiting e => ∃ ensure, s.ensures[e]? = some ensure ∧ ensure.key = key
  | .holds hotkey => s.store key = some hotkey
  | _ => True

variable {action : HotkeyAction}

theorem Agrees.setAction (h : Agrees s) {i : Nat} {point : ActionPoint}
    (hpoint : point.Fits s action.key) : Agrees (s.setAction i action point) where
  returned := h.returned
  unwritten := h.unwritten
  single := h.single
  joined := h.joined
  built := h.built
  awaited j other e hj he := by
    rcases getElem?_advanced hj with ⟨_,rfl⟩ | ⟨_,hold⟩
    · have heq : point = .awaiting e := he
      subst heq
      exact hpoint
    · exact h.awaited j other e hold he
  held j other hotkey hj he := by
    rcases getElem?_advanced hj with ⟨_,rfl⟩ | ⟨_,hold⟩
    · have heq : point = .holds hotkey := he
      subst heq
      exact hpoint
    · exact h.held j other hotkey hold he

theorem Agrees.ensureHotkey (h : Agrees s) (notifier : Nat) (key : HotkeyKey)
    (alreadyBound : Bool) :
    Agrees (s.ensureHotkey notifier key alreadyBound).1 ∧
      ∃ ensure, (s.ensureHotkey notifier key alreadyBound).1.ensures[
        (s.ensureHotkey notifier key alreadyBound).2]? = some ensure ∧ ensure.key = key := by
  unfold HotkeyState.ensureHotkey
  cases hflight : s.inFlight notifier key with
  | some e => exact ⟨h,h.joined notifier key e hflight⟩
  | none =>
    have hkept {e : Nat} {ensure : Ensure} (he : s.ensures[e]? = some ensure) :
        (s.ensures ++ [⟨notifier,key,alreadyBound,.read⟩])[e]? = some ensure := by
      exact getElem?_append_of_some he
    have hnew : (s.ensures ++ [⟨notifier,key,alreadyBound,.read⟩])[s.ensures.length]? =
        some ⟨notifier,key,alreadyBound,.read⟩ := by simp
    refine ⟨⟨?_,?_,?_,?_,?_,h.held,h.built⟩,⟨_,hnew,rfl⟩⟩
    · intro e ensure hotkey he hpoint
      rcases getElem?_started he with hold | ⟨_,rfl⟩
      · exact h.returned e ensure hotkey hold hpoint
      · cases hpoint
    · intro e ensure hotkey he hpoint
      rcases getElem?_started he with hold | ⟨_,rfl⟩
      · exact h.unwritten e ensure hotkey hold hpoint
      · cases hpoint
    · intro e e' ensure ensure' hotkey hotkey' he he' hpoint hpoint' hkey
      rcases getElem?_started he with hold | ⟨_,rfl⟩
      · rcases getElem?_started he' with hold' | ⟨_,rfl⟩
        · exact h.single e e' ensure ensure' hotkey hotkey' hold hold' hpoint hpoint' hkey
        · cases hpoint'
      · cases hpoint
    · intro n k e he
      dsimp only at he
      split at he
      · rename_i hsame
        cases he
        exact ⟨_,hnew,hsame.2.symm⟩
      · obtain ⟨ensure,hensure,hkey⟩ := h.joined n k e he
        exact ⟨ensure,hkept hensure,hkey⟩
    · intro i action e hi he
      obtain ⟨ensure,hensure,hkey⟩ := h.awaited i action e hi he
      exact ⟨ensure,hkept hensure,hkey⟩

theorem Agrees.awaitEnsure (h : Agrees s) {i : Nat} (alreadyBound : Bool) :
    Agrees (s.awaitEnsure i action alreadyBound) := by
  obtain ⟨hensured,hfound⟩ :=
    h.ensureHotkey action.notifier action.key (alreadyBound || action.contextBound)
  exact hensured.setAction hfound

theorem awaitEnsure_store (i : Nat) (action : HotkeyAction) (alreadyBound : Bool) :
    (s.awaitEnsure i action alreadyBound).store = s.store := by
  unfold HotkeyState.awaitEnsure HotkeyState.ensureHotkey
  cases s.inFlight action.notifier action.key <;> rfl

theorem Agrees.startAction (h : Agrees s) {i : Nat} :
    Agrees (s.startAction i action) ∧ (s.startAction i action).store = s.store := by
  unfold HotkeyState.startAction
  cases action.kind with
  | castVotes =>
    cases hstored : s.store action.key with
    | some hotkey => exact ⟨h.setAction hstored,rfl⟩
    | none => exact ⟨h.awaitEnsure _,awaitEnsure_store ..⟩
  | delegatePendingBundles => exact ⟨h.awaitEnsure _,awaitEnsure_store ..⟩
  | delegatePendingBundlesWithKeystoneSignatures => exact ⟨h.awaitEnsure _,awaitEnsure_store ..⟩
  | prepareKeystoneSigning =>
    cases hstored : s.store action.key with
    | some hotkey => exact ⟨h.setAction hstored,rfl⟩
    | none =>
      by_cases hbound : (action.hasSignatures || action.planBound) = true
      · simp only [if_pos hbound]
        exact ⟨h.setAction trivial,rfl⟩
      · simp only [if_neg hbound]
        exact ⟨h.awaitEnsure _,awaitEnsure_store ..⟩

theorem Agrees.advanceAction (h : Agrees s) {t : HotkeyState} {i : Nat}
    (hi : s.actions[i]? = some action) (hstep : s.advanceAction i action = .ok t) :
    Agrees t ∧ t.store = s.store := by
  unfold HotkeyState.advanceAction at hstep
  cases hpoint : action.point with
  | started =>
    rw [hpoint] at hstep
    cases hstep
    exact h.startAction
  | awaiting e =>
    obtain ⟨ensure,hensure,hkey⟩ := h.awaited i action e hi hpoint
    rw [hpoint] at hstep
    dsimp only at hstep
    rw [hensure,Option.map_some] at hstep
    cases hend : ensure.point with
    | returned hotkey =>
      rw [hend] at hstep
      cases hstep
      have hstored := h.returned e ensure hotkey hensure hend
      rw [hkey] at hstored
      exact ⟨h.setAction hstored,rfl⟩
    | failed =>
      rw [hend] at hstep
      cases hstep
      exact ⟨h.setAction trivial,rfl⟩
    | read | generate | reread | write =>
      rw [hend] at hstep
      cases hstep
  | holds hotkey =>
    rw [hpoint] at hstep
    cases hstep
    refine ⟨⟨h.returned,h.unwritten,h.single,h.joined,h.awaited,h.held,?_⟩,rfl⟩
    exact List.forall_mem_cons.mpr ⟨h.held i action hotkey hi hpoint,h.built⟩
  | ended =>
    rw [hpoint] at hstep
    cases hstep

variable {ensure : Ensure}

theorem joined_of_moved {e : Nat} {point : EnsurePoint} {n : Nat} {k : HotkeyKey} {found : Nat}
    (h : (s.moveEnsure e ensure point).inFlight n k = some found) : s.inFlight n k = some found := by
  simp only [HotkeyState.moveEnsure] at h
  split at h
  · cases h
  · exact h

theorem moved_ensure {e : Nat} (point : EnsurePoint) (hensure : s.ensures[e]? = some ensure)
    {e' : Nat} {other : Ensure} (h : s.ensures[e']? = some other) :
    ∃ moved, (s.moveEnsure e ensure point).ensures[e']? = some moved ∧ moved.key = other.key := by
  by_cases he : e' = e
  · subst he
    rw [hensure] at h
    cases h
    refine ⟨{ ensure with point := point },?_,rfl⟩
    exact getElem?_set_own hensure
  · exact ⟨other,(getElem?_set_other he).trans h,rfl⟩

/-- What the new point of an ensure has to agree with. -/
structure EnsurePoint.Fits (s : HotkeyState) (e : Nat) (key : HotkeyKey) (point : EnsurePoint) :
    Prop where
  returned : ∀ hotkey, point = .returned hotkey → s.store key = some hotkey
  write : ∀ hotkey, point = .write hotkey → s.store key = none ∧
    ∀ (e' : Nat) (other : Ensure) hotkey', s.ensures[e']? = some other → other.key = key →
      other.point ≠ .write hotkey'

theorem Agrees.moveEnsure (h : Agrees s) {e : Nat} {point : EnsurePoint}
    (hensure : s.ensures[e]? = some ensure)
    (hstore : (s.moveEnsure e ensure point).store = s.store)
    (hpoint : point.Fits s e ensure.key) : Agrees (s.moveEnsure e ensure point) where
  returned e' other hotkey hother hend := by
    rw [hstore]
    rcases getElem?_advanced hother with ⟨_,rfl⟩ | ⟨_,hold⟩
    · exact hpoint.returned hotkey hend
    · exact h.returned e' other hotkey hold hend
  unwritten e' other hotkey hother hwrite := by
    rw [hstore]
    rcases getElem?_advanced hother with ⟨_,rfl⟩ | ⟨_,hold⟩
    · exact (hpoint.write hotkey hwrite).1
    · exact h.unwritten e' other hotkey hold hwrite
  single e₁ e₂ first second hotkey hotkey' hfirst hsecond hwrite hwrite' hkey := by
    rcases getElem?_advanced hfirst with ⟨he₁,rfl⟩ | ⟨_,hold⟩
    · rcases getElem?_advanced hsecond with ⟨he₂,rfl⟩ | ⟨_,hold'⟩
      · rw [he₁,he₂]
      · exact absurd hwrite' ((hpoint.write hotkey hwrite).2 e₂ second hotkey' hold' hkey.symm)
    · rcases getElem?_advanced hsecond with ⟨_,rfl⟩ | ⟨_,hold'⟩
      · exact absurd hwrite ((hpoint.write hotkey' hwrite').2 e₁ first hotkey hold hkey)
      · exact h.single e₁ e₂ first second hotkey hotkey' hold hold' hwrite hwrite' hkey
  joined n k found hfound := by
    obtain ⟨other,hother,hkey⟩ := h.joined n k found (joined_of_moved hfound)
    obtain ⟨moved,hmoved,hsame⟩ := moved_ensure point hensure hother
    exact ⟨moved,hmoved,hsame.trans hkey⟩
  awaited i action found hi hfound := by
    obtain ⟨other,hother,hkey⟩ := h.awaited i action found hi hfound
    obtain ⟨moved,hmoved,hsame⟩ := moved_ensure point hensure hother
    exact ⟨moved,hmoved,hsame.trans hkey⟩
  held i action hotkey hi hheld := by
    rw [hstore]
    exact h.held i action hotkey hi hheld
  built p hp := by
    rw [hstore]
    exact h.built p hp

theorem Agrees.writeHotkey (h : Agrees s) {e : Nat} {hotkey : Hotkey}
    (hensure : s.ensures[e]? = some ensure) (hwrite : ensure.point = .write hotkey) :
    Agrees (s.moveEnsure e ensure (.returned hotkey)) := by
  have hempty := h.unwritten e ensure hotkey hensure hwrite
  have hstore : (s.moveEnsure e ensure (.returned hotkey)).store =
      s.store.writeHotkey ensure.key hotkey := by
    simp [HotkeyState.moveEnsure,Ensure.writes,hwrite]
  have hother {k : HotkeyKey} {stored : Hotkey} (hk : s.store k = some stored) :
      (s.moveEnsure e ensure (.returned hotkey)).store k = some stored := by
    have hne : k ≠ ensure.key := by
      rintro rfl
      rw [hempty] at hk
      cases hk
    rw [hstore,HotkeyStore.writeHotkey,Function.update_of_ne hne]
    exact hk
  refine ⟨?_,?_,?_,?_,?_,?_,?_⟩
  · intro e' other stored hmoved hend
    rcases getElem?_advanced hmoved with ⟨_,rfl⟩ | ⟨_,hold⟩
    · have heq : hotkey = stored := by simpa using hend
      subst heq
      rw [hstore]
      exact Function.update_self ..
    · exact hother (h.returned e' other stored hold hend)
  · intro e' other pending hmoved hpending
    rcases getElem?_advanced hmoved with ⟨_,rfl⟩ | ⟨hne,hold⟩
    · cases hpending
    · have hkey : other.key ≠ ensure.key := fun hkey =>
        hne (h.single e' e other ensure pending hotkey hold hensure hpending hwrite hkey)
      rw [hstore,HotkeyStore.writeHotkey,Function.update_of_ne hkey]
      exact h.unwritten e' other pending hold hpending
  · intro e₁ e₂ first second pending pending' hfirst hsecond hpoint hpoint' hkey
    rcases getElem?_advanced hfirst with ⟨_,rfl⟩ | ⟨_,hold⟩
    · cases hpoint
    · rcases getElem?_advanced hsecond with ⟨_,rfl⟩ | ⟨_,hold'⟩
      · cases hpoint'
      · exact h.single e₁ e₂ first second pending pending' hold hold' hpoint hpoint' hkey
  · intro n k found hfound
    obtain ⟨other,hjoined,hkey⟩ := h.joined n k found (joined_of_moved hfound)
    obtain ⟨moved,hmoved,hsame⟩ := moved_ensure (.returned hotkey) hensure hjoined
    exact ⟨moved,hmoved,hsame.trans hkey⟩
  · intro i action found hi hfound
    obtain ⟨other,hawaited,hkey⟩ := h.awaited i action found hi hfound
    obtain ⟨moved,hmoved,hsame⟩ := moved_ensure (.returned hotkey) hensure hawaited
    exact ⟨moved,hmoved,hsame.trans hkey⟩
  · intro i action stored hi hheld
    exact hother (h.held i action stored hi hheld)
  · intro p hp
    exact hother (h.built p hp)

def Ensure.rereads (ensure : Ensure) : Bool :=
  match ensure.point with
  | .reread _ => true
  | _ => false

def Ensure.aboutToWrite (ensure : Ensure) : Bool :=
  match ensure.point with
  | .write _ => true
  | _ => false

/-- An ensure whose second read finds its slot empty does so while no other ensure of the same
account and round is between its own second read and its write. -/
def Exclusive (event : HotkeyEvent) (s : HotkeyState) : Prop :=
  match event with
  | .advanceEnsure e _ => ∀ ensure ∈ s.ensures[e]?, ensure.rereads = true →
      s.store ensure.key = none →
        ∀ other ∈ s.ensures, other.key = ensure.key → other.aboutToWrite = false
  | _ => True

instance (event : HotkeyEvent) (s : HotkeyState) : Decidable (Exclusive event s) := by
  cases event with
  | advanceEnsure e fresh =>
    exact inferInstanceAs (Decidable (∀ ensure ∈ s.ensures[e]?, ensure.rereads = true → _ → _))
  | clear | call | advanceAction | endAction | failEnsure => exact .isTrue trivial

def Stays (s t : HotkeyState) : Prop :=
  ∀ k hotkey, s.store k = some hotkey → t.store k = some hotkey

theorem Stays.of_eq {t : HotkeyState} (h : t.store = s.store) : Stays s t := fun k hotkey hk => by
  rw [h]
  exact hk

theorem moveEnsure_store {e : Nat} {point : EnsurePoint}
    (h : ∀ hotkey, ensure.point ≠ .write hotkey) :
    (s.moveEnsure e ensure point).store = s.store := by
  have hwrites : ensure.writes s.store = s.store := by
    unfold Ensure.writes
    split
    · exact absurd ‹_› (h _)
    · rfl
  simp [HotkeyState.moveEnsure,hwrites]

theorem Agrees.advanceEnsure (h : Agrees s) {e : Nat} (fresh : Hotkey)
    (hensure : s.ensures[e]? = some ensure) (hguard : Exclusive (.advanceEnsure e fresh) s)
    (hrunning : ensure.ended = false) :
    Agrees (s.moveEnsure e ensure (ensure.next s.store fresh)) ∧
      Stays s (s.moveEnsure e ensure (ensure.next s.store fresh)) := by
  have hquiet {point : EnsurePoint} (hpoint : ∀ hotkey, ensure.point ≠ .write hotkey)
      (hfits : point.Fits s e ensure.key) :
      Agrees (s.moveEnsure e ensure point) ∧ Stays s (s.moveEnsure e ensure point) :=
    ⟨h.moveEnsure hensure (moveEnsure_store hpoint) hfits,.of_eq (moveEnsure_store hpoint)⟩
  unfold Ensure.next
  cases hpoint : ensure.point with
  | read =>
    have hnot : ∀ hotkey, ensure.point ≠ .write hotkey := by simp [hpoint]
    cases hstored : s.store ensure.key with
    | some hotkey => exact hquiet hnot ⟨by simpa using hstored,by simp⟩
    | none =>
      by_cases hbound : ensure.alreadyBound = true
      · simp only [if_pos hbound]
        exact hquiet hnot ⟨by simp,by simp⟩
      · simp only [if_neg hbound]
        exact hquiet hnot ⟨by simp,by simp⟩
  | generate => exact hquiet (by simp [hpoint]) ⟨by simp,by simp⟩
  | reread hotkey =>
    have hnot : ∀ hotkey, ensure.point ≠ .write hotkey := by simp [hpoint]
    cases hstored : s.store ensure.key with
    | some stored => exact hquiet hnot ⟨by simpa using hstored,by simp⟩
    | none =>
      have halone := hguard ensure hensure (by rw [Ensure.rereads,hpoint]) hstored
      refine hquiet hnot ⟨by simp,fun _ _ => ⟨hstored,fun e' other pending hother hkey hwrite => ?_⟩⟩
      have hfalse := halone other (List.mem_of_getElem? hother) hkey
      rw [Ensure.aboutToWrite,hwrite] at hfalse
      cases hfalse
  | write hotkey =>
    refine ⟨h.writeHotkey hensure hpoint,fun k stored hk => ?_⟩
    have hne : k ≠ ensure.key := by
      rintro rfl
      rw [h.unwritten e ensure hotkey hensure hpoint] at hk
      cases hk
    simp only [HotkeyState.moveEnsure,Ensure.writes,hpoint,HotkeyStore.writeHotkey,reduceCtorEq,
      if_false,Function.update_of_ne hne]
    exact hk
  | returned hotkey => simp [Ensure.ended,hpoint] at hrunning
  | failed => simp [Ensure.ended,hpoint] at hrunning

theorem HotkeyEvent.step_agrees {event : HotkeyEvent} {t : HotkeyState} (h : Agrees s)
    (hguard : Exclusive event s) (hstep : event.step s = .ok t) : Agrees t ∧ Stays s t := by
  cases event with
  | clear notifier =>
    cases hstep
    refine ⟨⟨h.returned,h.unwritten,h.single,fun n k e he => ?_,h.awaited,h.held,h.built⟩,.of_eq rfl⟩
    dsimp only at he
    split at he
    · cases he
    · exact h.joined n k e he
  | call action =>
    simp only [HotkeyEvent.step] at hstep
    split at hstep
    · cases hstep
    rename_i hidle
    cases hstep
    simp only [Bool.or_eq_true,decide_eq_true_eq,not_or,not_not] at hidle
    obtain ⟨_,hstarted⟩ := hidle
    refine ⟨⟨h.returned,h.unwritten,h.single,h.joined,?_,?_,h.built⟩,.of_eq rfl⟩
    · intro i other e hi he
      rcases getElem?_started hi with hold | ⟨_,rfl⟩
      · exact h.awaited i other e hold he
      · rw [hstarted] at he
        cases he
    · intro i other hotkey hi he
      rcases getElem?_started hi with hold | ⟨_,rfl⟩
      · exact h.held i other hotkey hold he
      · rw [hstarted] at he
        cases he
  | advanceAction i =>
    simp only [HotkeyEvent.step] at hstep
    cases hi : s.actions[i]? with
    | none =>
      rw [hi] at hstep
      cases hstep
    | some action =>
      rw [hi] at hstep
      obtain ⟨hagrees,hstore⟩ := h.advanceAction hi hstep
      exact ⟨hagrees,.of_eq hstore⟩
  | endAction i =>
    simp only [HotkeyEvent.step] at hstep
    cases hi : s.actions[i]? with
    | none =>
      rw [hi] at hstep
      cases hstep
    | some action =>
      rw [hi] at hstep
      cases hstep
      exact ⟨h.setAction trivial,.of_eq rfl⟩
  | advanceEnsure e fresh =>
    simp only [HotkeyEvent.step] at hstep
    cases he : s.ensures[e]? with
    | none =>
      rw [he] at hstep
      cases hstep
    | some ensure =>
      rw [he] at hstep
      dsimp only at hstep
      by_cases hended : ensure.ended = true
      · rw [if_pos hended] at hstep
        cases hstep
      · rw [if_neg hended] at hstep
        cases hstep
        exact h.advanceEnsure fresh he hguard (by simpa using hended)
  | failEnsure e =>
    simp only [HotkeyEvent.step] at hstep
    cases he : s.ensures[e]? with
    | none =>
      rw [he] at hstep
      cases hstep
    | some ensure =>
      rw [he] at hstep
      dsimp only at hstep
      by_cases hended : ensure.ended = true
      · rw [if_pos hended] at hstep
        cases hstep
      · rw [if_neg hended] at hstep
        cases hstep
        have hstore : (s.moveEnsure e ensure .failed).store = s.store := by
          simp [HotkeyState.moveEnsure]
        exact ⟨h.moveEnsure he hstore ⟨by simp,by simp⟩,.of_eq hstore⟩

/-- Nothing runs and nothing has been built; the store holds whatever earlier runs left. -/
def HotkeyState.idle (store : HotkeyStore) : HotkeyState := ⟨store,fun _ _ => none,[],[],[]⟩

theorem idle_agrees (store : HotkeyStore) : Agrees (.idle store) := by
  constructor <;> intros <;> simp_all [HotkeyState.idle]

/-- In a run whose second reads are exclusive a stored hotkey is never replaced, and everything
built for an account and round used the hotkey that stays stored. -/
theorem hotkey_unique (store : HotkeyStore) {s t : HotkeyState}
    (hstart : GuardedRuns HotkeyEvent.step Exclusive (.idle store) s)
    (hrun : GuardedRuns HotkeyEvent.step Exclusive s t) :
    (∀ key hotkey, s.store key = some hotkey → t.store key = some hotkey) ∧
      ∀ p ∈ s.built, t.store p.1 = some p.2 := by
  have hagrees : Agrees s := hstart.invariant
    (fun _ _ _ hs hguard hstep => (HotkeyEvent.step_agrees hs hguard hstep).1) (idle_agrees store)
  have hstays : Agrees t ∧ Stays s t := hrun.invariant
    (P := fun t => Agrees t ∧ Stays s t) (fun event _ _ hs hguard hstep => by
      obtain ⟨hnext,hkept⟩ := HotkeyEvent.step_agrees hs.1 hguard hstep
      exact ⟨hnext,fun k hotkey hk => hkept k hotkey (hs.2 k hotkey hk)⟩)
    ⟨hagrees,fun _ _ hk => hk⟩
  exact ⟨hstays.2,fun p hp => hstays.2 p.1 p.2 (hagrees.built p hp)⟩

def sharedKey : HotkeyKey := ⟨['a'],['r']⟩

def firstHotkey : Hotkey := ⟨[1],by decide⟩

def secondHotkey : Hotkey := ⟨[2],by decide⟩

def delegationOf (notifier : Nat) : HotkeyAction :=
  ⟨notifier,sharedKey,.delegatePendingBundles,false,false,false,.started⟩

/-- Both ensures read the empty slot twice before either writes. -/
def sharedEnsures : List HotkeyEvent :=
  [.call (delegationOf 0),.call (delegationOf 1),.advanceAction 0,.advanceAction 1,
    .advanceEnsure 0 firstHotkey,.advanceEnsure 1 secondHotkey,
    .advanceEnsure 0 firstHotkey,.advanceEnsure 1 secondHotkey,
    .advanceEnsure 0 firstHotkey,.advanceEnsure 1 secondHotkey,
    .advanceEnsure 0 firstHotkey,.advanceAction 0,.advanceAction 0]

/-- The first delegation is built with a hotkey that the second write replaces. -/
theorem hotkey_replaced : ∃ s t,
    Runs HotkeyEvent.step (.idle fun _ => none) s ∧ Runs HotkeyEvent.step s t ∧
      s.store sharedKey = some firstHotkey ∧ (sharedKey,firstHotkey) ∈ s.built ∧
      t.store sharedKey = some secondHotkey ∧ firstHotkey ≠ secondHotkey := by
  obtain ⟨s,hs,hfirst,hbuilt,t,ht,hsecond⟩ : ∃ s,
      execute HotkeyEvent.step sharedEnsures (.idle fun _ => none) = .ok s ∧
      s.store sharedKey = some firstHotkey ∧ s.built = [(sharedKey,firstHotkey)] ∧
      ∃ t, execute HotkeyEvent.step [.advanceEnsure 1 secondHotkey] s = .ok t ∧
        t.store sharedKey = some secondHotkey := ⟨_,rfl,rfl,rfl,_,rfl,rfl⟩
  exact ⟨s,t,runs_of_execute hs,runs_of_execute ht,hfirst,hbuilt ▸ List.mem_cons_self,hsecond,
    by decide⟩

/-- The second ensure starts after the first has written, and finds its hotkey. -/
theorem hotkey_shared : ∃ s t,
    GuardedRuns HotkeyEvent.step Exclusive (.idle fun _ => none) s ∧
      s.built = [(sharedKey,firstHotkey),(sharedKey,firstHotkey)] ∧
      GuardedRuns HotkeyEvent.step Exclusive s t ∧
      ∀ p ∈ s.built, t.store p.1 = some p.2 := by
  obtain ⟨s,hs,hbuilt,t,ht⟩ : ∃ s,
      guardedExecute HotkeyEvent.step Exclusive
        [.call (delegationOf 0),.advanceAction 0,.advanceEnsure 0 firstHotkey,
          .advanceEnsure 0 firstHotkey,.advanceEnsure 0 firstHotkey,.advanceEnsure 0 firstHotkey,
          .advanceAction 0,.advanceAction 0,.call (delegationOf 1),.advanceAction 1,
          .advanceEnsure 1 secondHotkey,.advanceAction 1,.advanceAction 1]
        (.idle fun _ => none) = some s ∧
      s.built = [(sharedKey,firstHotkey),(sharedKey,firstHotkey)] ∧
      ∃ t, guardedExecute HotkeyEvent.step Exclusive [.clear 0] s = some t := ⟨_,rfl,rfl,_,rfl⟩
  have hstart := guardedRuns_of_execute hs
  have hrun := guardedRuns_of_execute ht
  exact ⟨s,t,hstart,hbuilt,hrun,(hotkey_unique (fun _ => none) hstart hrun).2⟩

end CoppiceWallet.Voting
