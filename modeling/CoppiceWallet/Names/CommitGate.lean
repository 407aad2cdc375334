import CoppiceWallet.Names.Lifecycle

/-! # The target of a draft and its COMMIT gate -/

namespace CoppiceWallet.Names

open CoppiceWallet.Lib CoppiceWallet.Store NamesProgram

variable {W Seed : Type} {parameters : NamesParameters} {name : Text}

/-- The windows of a name are not empty and follow one another with the epochs. -/
structure NamesParameters.Scheduled (parameters : NamesParameters) (name : Text) : Prop where
  nonempty : ∀ epoch window, parameters.window name epoch = .ok window → window.start < window.stop
  ordered : ∀ epoch epoch' window window', epoch < epoch' →
    parameters.window name epoch = .ok window → parameters.window name epoch' = .ok window' →
      window.stop ≤ window'.start

/-- A REVEAL takes a COMMIT that is mature and not expired. -/
def NamesParameters.AcceptsByAge (parameters : NamesParameters) : Prop :=
  ∀ commitHeight revealHeight, parameters.acceptsCommit commitHeight revealHeight = true ↔
    commitHeight ≤ revealHeight ∧ parameters.commitMaturityBlocks ≤ revealHeight - commitHeight ∧
      revealHeight - commitHeight < parameters.commitTtlBlocks

/-- No height or epoch on the way overflows: the windows from the epoch of `nextHeight` on are
defined up to one that ends after the earliest REVEAL. -/
structure NamesParameters.Reaches (parameters : NamesParameters) (name : Text)
    (nextHeight firstEpoch : Nat) : Prop where
  earliest : nextHeight + parameters.commitMaturityBlocks < u32Limit
  epoch : parameters.epoch (max nextHeight parameters.activationHeight) = .ok firstEpoch
  reach : ∃ last window, firstEpoch ≤ last ∧ last < u32Limit ∧
    parameters.window name last = .ok window ∧
    nextHeight + parameters.commitMaturityBlocks < window.stop ∧
    ∀ epoch, firstEpoch ≤ epoch → epoch ≤ last → ∃ w, parameters.window name epoch = .ok w

/-- A height in the window of a late enough epoch at which a COMMIT of `earliest` is mature. -/
def NamesParameters.Eligible (parameters : NamesParameters) (name : Text)
    (firstEpoch earliest epoch height : Nat) : Prop :=
  firstEpoch ≤ epoch ∧ earliest ≤ height ∧
    ∃ window, parameters.window name epoch = .ok window ∧ window.start ≤ height ∧
      height < window.stop

/-- The rounds before the result found no eligible height; the result is the least one of its own
window, and later windows start after it. -/
theorem targetRevealLoop_least (hschedule : parameters.Scheduled name) {earliest remaining : Nat}
    {first epoch found reveal : Nat} (hfirst : first ≤ epoch)
    (hpassed : ∀ height before, before < epoch →
      ¬ parameters.Eligible name first earliest before height)
    (h : targetRevealLoop parameters name earliest remaining epoch = .ok (found,reveal)) :
    parameters.Eligible name first earliest found reveal ∧
      ∀ other height, parameters.Eligible name first earliest other height → reveal ≤ height := by
  induction remaining generalizing epoch with
  | zero => cases h
  | succ remaining ih =>
    obtain ⟨window,hwindow,h⟩ := bind_ok h
    by_cases hmeets : max window.start earliest < window.stop
    · simp only [if_pos hmeets] at h
      cases h
      refine ⟨⟨hfirst,le_max_right _ _,window,hwindow,le_max_left _ _,hmeets⟩,?_⟩
      intro other height heligible
      have hother : found ≤ other :=
        not_lt.mp fun hbefore => hpassed height other hbefore heligible
      obtain ⟨_,hearliest,window',hwindow',hstart,_⟩ := heligible
      rcases Nat.eq_or_lt_of_le hother with rfl | hlater
      · rw [hwindow] at hwindow'
        cases hwindow'
        exact max_le hstart hearliest
      · have hordered := hschedule.ordered found other window window' hlater hwindow hwindow'
        omega
    · simp only [if_neg hmeets] at h
      refine ih (Nat.le_succ_of_le hfirst) ?_ h
      intro height before hbefore heligible
      rcases Nat.lt_succ_iff_lt_or_eq.mp hbefore with hearlier | rfl
      · exact hpassed height before hearlier heligible
      · obtain ⟨_,hearliest,window',hwindow',hstart,hstop⟩ := heligible
        rw [hwindow] at hwindow'
        cases hwindow'
        exact hmeets (max_lt_iff.mpr ⟨hstart.trans_lt hstop,hearliest.trans_lt hstop⟩)

theorem targetRevealLoop_ends (hschedule : parameters.Scheduled name) {earliest remaining : Nat}
    {epoch last : Nat} {window : Window} (hlast : epoch ≤ last) (hrounds : last < epoch + remaining)
    (hwindow : parameters.window name last = .ok window) (hstop : earliest < window.stop)
    (hdefined : ∀ e, epoch ≤ e → e ≤ last → ∃ w, parameters.window name e = .ok w) :
    ∃ found, targetRevealLoop parameters name earliest remaining epoch = .ok found := by
  induction remaining generalizing epoch with
  | zero => omega
  | succ remaining ih =>
    obtain ⟨current,hcurrent⟩ := hdefined epoch le_rfl hlast
    unfold targetRevealLoop
    simp only [hcurrent,ok_bind]
    by_cases hmeets : max current.start earliest < current.stop
    · rw [if_pos hmeets]
      exact ⟨_,rfl⟩
    · rw [if_neg hmeets]
      have hnext : epoch ≠ last := by
        rintro rfl
        rw [hwindow] at hcurrent
        cases hcurrent
        exact hmeets (max_lt_iff.mpr ⟨hschedule.nonempty _ _ hwindow,hstop⟩)
      exact ih (by omega) (by omega) fun e he => hdefined e (by omega)

theorem targetReveal_least (hschedule : parameters.Scheduled name) {nextHeight firstEpoch : Nat}
    (hreach : parameters.Reaches name nextHeight firstEpoch) :
    ∃ epoch reveal, targetReveal parameters name nextHeight = .ok (epoch,reveal) ∧
      parameters.Eligible name firstEpoch (nextHeight + parameters.commitMaturityBlocks) epoch
        reveal ∧
      ∀ other height, parameters.Eligible name firstEpoch
        (nextHeight + parameters.commitMaturityBlocks) other height → reveal ≤ height := by
  obtain ⟨last,window,hfirst,hlimit,hwindow,hstop,hdefined⟩ := hreach.reach
  obtain ⟨⟨epoch,reveal⟩,hloop⟩ := targetRevealLoop_ends hschedule
    hfirst (by omega : last < firstEpoch + (u32Limit - firstEpoch)) hwindow hstop hdefined
  have hrun : targetReveal parameters name nextHeight = .ok (epoch,reveal) := by
    have hearliest := hreach.earliest
    simp only [targetReveal,checkedAddU32,if_pos hearliest,hreach.epoch]
    exact hloop
  have hnone : ∀ height before, before < firstEpoch → ¬ parameters.Eligible name firstEpoch
      (nextHeight + parameters.commitMaturityBlocks) before height := by
    intro height before hbefore heligible
    exact absurd heligible.1 (not_le.mpr hbefore)
  exact ⟨epoch,reveal,hrun,targetRevealLoop_least hschedule le_rfl hnone hloop⟩

/-- What the proposal of a COMMIT does at a height. -/
inductive CommitAnswer
  | waitUntil (height : Nat)
  | propose
  | windowMissed
  | commitWindowMissed
  | outsideWindow
  deriving DecidableEq

def NamesParameters.commitAnswer (parameters : NamesParameters) (window : Window)
    (revealHeight commitHeight : Nat) : CommitAnswer :=
  if window.stop ≤ commitHeight then .windowMissed
  else if ¬(window.start ≤ revealHeight ∧ revealHeight < window.stop) then .outsideWindow
  else if parameters.acceptsCommit commitHeight revealHeight then .propose
  else if commitHeight < parameters.commitWindowStart revealHeight then
    .waitUntil (parameters.commitWindowStart revealHeight)
  else .commitWindowMissed

/-- Each answer is a program of its own. -/
def CommitAnswer.program (env : LifecycleEnv W Seed) (accountUuid sendFlowId name : Text)
    (seed : Seed) (r : StoredRegistration) : CommitAnswer → NamesProgram W Unit
  | .waitUntil height => fail s!"COMMIT window opens at height {height}"
  | .propose => proposeCommit env accountUuid sendFlowId name seed r
  | .windowMissed =>
    missRegistration env r .windowMissed
      "the draft's name window was missed; start this unbroadcast registration again"
  | .commitWindowMissed =>
    missRegistration env r .commitWindowMissed "the draft's COMMIT window was missed; start again"
  | .outsideWindow => fail "stored REVEAL target is outside its name window"

theorem commitWithinWindow_answer (env : LifecycleEnv W Seed) (accountUuid sendFlowId : Text)
    (seed : Seed) {r : StoredRegistration} {window : Window} (commitHeight : Nat)
    (hwindow : env.parameters.window name r.targetEpoch = .ok window) :
    commitWithinWindow env accountUuid sendFlowId name seed r commitHeight =
      (env.parameters.commitAnswer window r.targetRevealHeight commitHeight).program env accountUuid
        sendFlowId name seed r := by
  have hstart : commitWithinWindow env accountUuid sendFlowId name seed r commitHeight =
      (do
        let window ← ofResult (env.parameters.window name r.targetEpoch)
        (env.parameters.commitAnswer window r.targetRevealHeight commitHeight).program env
          accountUuid sendFlowId name seed r) := by
    unfold commitWithinWindow
    congr 1
    funext window
    unfold NamesParameters.commitAnswer
    split_ifs <;> rfl
  rw [hstart,hwindow]
  rfl

theorem commitAnswer_exact (haccepts : parameters.AcceptsByAge) {window : Window}
    {reveal commitHeight : Nat} (hstart : window.start ≤ reveal) (hstop : reveal < window.stop) :
    ((∃ height, parameters.commitAnswer window reveal commitHeight = .waitUntil height) ↔
      commitHeight + max parameters.commitTtlBlocks 1 ≤ reveal) ∧
    (parameters.commitAnswer window reveal commitHeight = .propose ↔
      commitHeight ≤ reveal ∧ parameters.commitMaturityBlocks ≤ reveal - commitHeight ∧
        reveal - commitHeight < parameters.commitTtlBlocks) ∧
    (parameters.commitAnswer window reveal commitHeight = .windowMissed ∨
      parameters.commitAnswer window reveal commitHeight = .commitWindowMissed ↔
        ¬ commitHeight + max parameters.commitTtlBlocks 1 ≤ reveal ∧
        ¬ (commitHeight ≤ reveal ∧ parameters.commitMaturityBlocks ≤ reveal - commitHeight ∧
          reveal - commitHeight < parameters.commitTtlBlocks)) := by
  have hage := haccepts commitHeight reveal
  have hinside : ¬ ¬ (window.start ≤ reveal ∧ reveal < window.stop) := not_not.mpr ⟨hstart,hstop⟩
  unfold NamesParameters.commitAnswer NamesParameters.commitWindowStart
  by_cases hover : window.stop ≤ commitHeight
  · rw [if_pos hover]
    simp
    omega
  rw [if_neg hover,if_neg hinside]
  by_cases haccept : parameters.acceptsCommit commitHeight reveal = true
  · have hinTime := hage.mp haccept
    rw [if_pos haccept]
    simp
    omega
  · have hnot := mt hage.mpr haccept
    rw [if_neg haccept]
    by_cases hearly : commitHeight < reveal - (parameters.commitTtlBlocks - 1)
    · rw [if_pos hearly]
      simp
      omega
    · rw [if_neg hearly]
      simp
      omega

/-- A draft aims at the least height that a REVEAL can be mined at. Against that target the
proposal of its COMMIT waits, proposes or reports a missed window by the age the COMMIT would have,
and some height proposes whenever a COMMIT matures before it expires. -/
theorem registrationTarget_exact (parameters : NamesParameters) (name : Text)
    (nextHeight firstEpoch : Nat) (hschedule : parameters.Scheduled name)
    (haccepts : parameters.AcceptsByAge) (hreach : parameters.Reaches name nextHeight firstEpoch) :
    ∃ epoch reveal window, targetReveal parameters name nextHeight = .ok (epoch,reveal) ∧
      parameters.window name epoch = .ok window ∧
      parameters.Eligible name firstEpoch (nextHeight + parameters.commitMaturityBlocks) epoch
        reveal ∧
      (∀ other height, parameters.Eligible name firstEpoch
        (nextHeight + parameters.commitMaturityBlocks) other height → reveal ≤ height) ∧
      (∀ commitHeight, nextHeight ≤ commitHeight →
        (∀ (W Seed : Type) (env : LifecycleEnv W Seed) (accountUuid sendFlowId : Text) (seed : Seed)
          (r : StoredRegistration), env.parameters = parameters → r.targetEpoch = epoch →
            r.targetRevealHeight = reveal →
              commitWithinWindow env accountUuid sendFlowId name seed r commitHeight =
                (parameters.commitAnswer window reveal commitHeight).program env accountUuid
                  sendFlowId name seed r) ∧
        ((∃ height, parameters.commitAnswer window reveal commitHeight = .waitUntil height) ↔
          commitHeight + max parameters.commitTtlBlocks 1 ≤ reveal) ∧
        (parameters.commitAnswer window reveal commitHeight = .propose ↔
          commitHeight ≤ reveal ∧ parameters.commitMaturityBlocks ≤ reveal - commitHeight ∧
            reveal - commitHeight < parameters.commitTtlBlocks) ∧
        (parameters.commitAnswer window reveal commitHeight = .windowMissed ∨
          parameters.commitAnswer window reveal commitHeight = .commitWindowMissed ↔
            ¬ commitHeight + max parameters.commitTtlBlocks 1 ≤ reveal ∧
            ¬ (commitHeight ≤ reveal ∧ parameters.commitMaturityBlocks ≤ reveal - commitHeight ∧
              reveal - commitHeight < parameters.commitTtlBlocks))) ∧
      (parameters.commitMaturityBlocks < parameters.commitTtlBlocks →
        ∃ commitHeight, nextHeight ≤ commitHeight ∧
          parameters.commitAnswer window reveal commitHeight = .propose) := by
  obtain ⟨epoch,reveal,hrun,heligible,hleast⟩ := targetReveal_least hschedule hreach
  obtain ⟨_,hearliest,window,hwindow,hstart,hstop⟩ := id heligible
  refine ⟨epoch,reveal,window,hrun,hwindow,heligible,hleast,?_,?_⟩
  · intro commitHeight _
    refine ⟨?_,commitAnswer_exact haccepts hstart hstop⟩
    intro W Seed env accountUuid sendFlowId seed r henv hepoch hreveal
    subst henv hepoch hreveal
    exact commitWithinWindow_answer env accountUuid sendFlowId seed commitHeight hwindow
  · intro hmatures
    refine ⟨reveal - parameters.commitMaturityBlocks,by omega,?_⟩
    obtain ⟨_,hpropose,_⟩ := commitAnswer_exact haccepts hstart hstop
    exact hpropose.mpr (by omega)

/-- Epochs of ten blocks with a window of six. -/
def tenBlockEpochs (commitTtlBlocks : Nat) : NamesParameters where
  activationHeight := 0
  commitMaturityBlocks := 4
  commitTtlBlocks := commitTtlBlocks
  cooldownBlocks := 20
  epoch height := .ok (height / 10)
  window _ epoch :=
    if 10 * epoch + 8 < u32Limit then .ok ⟨10 * epoch + 2, 10 * epoch + 8⟩
    else .error "Names window overflow"
  acceptsCommit commitHeight revealHeight :=
    decide (commitHeight ≤ revealHeight ∧ 4 ≤ revealHeight - commitHeight ∧
      revealHeight - commitHeight < commitTtlBlocks)

theorem tenBlockEpochs_window {ttl epoch : Nat} {window : Window}
    (h : (tenBlockEpochs ttl).window name epoch = .ok window) :
    window = ⟨10 * epoch + 2,10 * epoch + 8⟩ := by
  simp only [tenBlockEpochs] at h
  split at h
  · cases h
    rfl
  · cases h

theorem tenBlockEpochs_scheduled (ttl : Nat) : (tenBlockEpochs ttl).Scheduled name where
  nonempty epoch window h := by
    rw [tenBlockEpochs_window h]
    exact Nat.add_lt_add_left (by decide) _
  ordered epoch epoch' window window' hlt h h' := by
    rw [tenBlockEpochs_window h,tenBlockEpochs_window h']
    simp only
    omega

theorem tenBlockEpochs_accepts (ttl : Nat) : (tenBlockEpochs ttl).AcceptsByAge :=
  fun _ _ => decide_eq_true_iff

theorem tenBlockEpochs_reaches (ttl : Nat) : (tenBlockEpochs ttl).Reaches name 1 0 where
  earliest := show 1 + 4 < u32Limit by decide
  epoch := congrArg Except.ok (show max 1 0 / 10 = 0 by decide)
  reach := by
    refine ⟨0,⟨2,8⟩,le_rfl,by decide,rfl,show 1 + 4 < 8 by decide,?_⟩
    intro epoch _ hle
    have hzero : epoch = 0 := Nat.le_zero.mp hle
    subst hzero
    exact ⟨⟨2,8⟩,rfl⟩

/-- A COMMIT that never lives is reported as missed at the height of its REVEAL. -/
theorem commitWithoutTtl_missed :
    (tenBlockEpochs 0).Scheduled "alice".toList ∧ (tenBlockEpochs 0).AcceptsByAge ∧
      (tenBlockEpochs 0).Reaches "alice".toList 1 0 ∧
      targetReveal (tenBlockEpochs 0) "alice".toList 1 = .ok (0,5) ∧
      (tenBlockEpochs 0).window "alice".toList 0 = .ok ⟨2,8⟩ ∧
      5 ≤ 5 - (tenBlockEpochs 0).commitTtlBlocks ∧
      (tenBlockEpochs 0).commitAnswer ⟨2,8⟩ 5 5 = .commitWindowMissed :=
  ⟨tenBlockEpochs_scheduled 0,tenBlockEpochs_accepts 0,tenBlockEpochs_reaches 0,rfl,rfl,by decide,
    by decide⟩

theorem tenBlockTarget_exact :
    ∃ commitHeight, 1 ≤ commitHeight ∧
      (tenBlockEpochs 6).commitAnswer ⟨2,8⟩ 5 commitHeight = .propose := by
  obtain ⟨epoch,reveal,window,hrun,hwindow,_,_,_,hpropose⟩ := registrationTarget_exact
    (tenBlockEpochs 6) "alice".toList 1 0 (tenBlockEpochs_scheduled 6) (tenBlockEpochs_accepts 6)
    (tenBlockEpochs_reaches 6)
  have htarget : targetReveal (tenBlockEpochs 6) "alice".toList 1 = .ok (0,5) := rfl
  rw [htarget] at hrun
  cases hrun
  cases hwindow
  exact hpropose (by decide)

end CoppiceWallet.Names
