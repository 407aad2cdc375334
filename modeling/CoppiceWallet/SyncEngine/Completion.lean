import CoppiceWallet.Lib.Run
import CoppiceWallet.SyncEngine.Engine

/-! # A completed sync is real -/

namespace CoppiceWallet.SyncEngine

open CoppiceWallet.Lib

/-- The tip that the run under way accepted last. -/
def acceptedTip : List SyncEvent → Option Nat
  | [] => none
  | .started :: _ => none
  | .tipAccepted height :: _ => some height
  | .truncated _ :: older | .rescansQueued :: older | .witnessesChecked _ _ :: older
  | .finalCheck _ :: older | .completed _ :: older | .completionReported _ :: older
  | .statusInitialized _ _ :: older | .statusReturned _ :: older => acceptedTip older

/-- The event is that of a status read. -/
def SyncEvent.ofStatus : SyncEvent → Bool
  | .statusInitialized _ _ | .statusReturned _ => true
  | _ => false

/-- The event changes what a status read returns. -/
def SyncEvent.marks : SyncEvent → Bool
  | .started | .completed _ | .statusInitialized _ _ => true
  | _ => false

/-- The last thing the run did was to check a wallet that has scanned to the height, which is that
of the tip it accepted last. -/
def Checked (height : Nat) (history : List SyncEvent) : Prop :=
  ∃ newer wallet older, history = newer ++ .finalCheck wallet :: older ∧
    (∀ e ∈ newer, e.ofStatus = true) ∧ ScannedTo wallet height ∧ acceptedTip older = some height

/-- The run has marked the height as completed, and has only reported since. -/
def MarkedCompleted (height : Nat) (history : List SyncEvent) : Prop :=
  ∃ newer older, history = newer ++ .completed height :: older ∧
    ∀ e ∈ newer, e.ofStatus = true ∨ e = .completionReported height

/-- The last run that wrote its start marker completed at the height. -/
def LastRunCompleted (height : Nat) (history : List SyncEvent) : Prop :=
  ∃ newer middle older, history = newer ++ .completed height :: (middle ++ .started :: older) ∧
    (∀ e ∈ newer, e.marks = false) ∧ .started ∉ middle

/-- No run has written its start marker, and the first status read that found no policy was passed
the height as a tip that the wallet had scanned fully. -/
def FullyScannedBefore (height : Nat) (history : List SyncEvent) : Prop :=
  ∃ newer scannedHeight older,
    history = newer ++ .statusInitialized scannedHeight height :: older ∧
    (∀ e ∈ newer ++ older, e.marks = false) ∧ 0 < height ∧ height ≤ scannedHeight

/-- What an event says of the events before it. -/
def Justified : SyncEvent → List SyncEvent → Prop
  | .completed height,older => Checked height older ∧ .started ∈ older
  | .completionReported height,older => MarkedCompleted height older
  | .statusInitialized _ _,older => ∀ e ∈ older, e.marks = false
  | .statusReturned (some height),older =>
    LastRunCompleted height older ∨ FullyScannedBefore height older
  | _,_ => True

/-- The completed height that the marks of a history leave to be read. -/
def markedHeight : List SyncEvent → Option Nat
  | [] => none
  | .started :: _ => none
  | .completed height :: _ => some height
  | .statusInitialized scannedHeight chainTipHeight :: _ =>
    legacyCompletedHeight scannedHeight chainTipHeight
  | .tipAccepted _ :: older | .truncated _ :: older | .rescansQueued :: older
  | .witnessesChecked _ _ :: older | .finalCheck _ :: older | .completionReported _ :: older
  | .statusReturned _ :: older => markedHeight older

/-- The rows say what the history says. -/
inductive RowsSound (rows : SyncMeta) (history : List SyncEvent) : Prop
  | unmarked (hversion : rows.syncCompletionPolicyVersion = none)
      (hprogress : rows.syncInProgress = none) (hheight : rows.lastCompletedSyncHeight = none)
      (hmarks : ∀ e ∈ history, e.marks = false)
  | marked (hversion : rows.syncCompletionPolicyVersion = some syncCompletionPolicyVersion)
      (hheight : rows.completedUnlessInProgress = markedHeight history)

theorem markedHeight_cons {e : SyncEvent} {history : List SyncEvent} (h : e.marks = false) :
    markedHeight (e :: history) = markedHeight history := by
  cases e <;> first | rfl | cases h

theorem acceptedTip_cons_status {e : SyncEvent} {history : List SyncEvent}
    (h : e.ofStatus = true) : acceptedTip (e :: history) = acceptedTip history := by
  cases e <;> first | rfl | cases h

variable {rows : SyncMeta} {history : List SyncEvent}

theorem RowsSound.record {e : SyncEvent} (h : RowsSound rows history) (he : e.marks = false) :
    RowsSound rows (e :: history) := by
  cases h with
  | unmarked hversion hprogress hheight hmarks =>
    refine .unmarked hversion hprogress hheight fun e' he' => ?_
    rcases List.mem_cons.mp he' with rfl | he'
    · exact he
    · exact hmarks e' he'
  | marked hversion hheight => exact .marked hversion (by rw [hheight,markedHeight_cons he])

theorem RowsSound.clean (h : RowsSound rows history) (height : Nat) :
    RowsSound (rows.markWitnessCheckClean height) history := by
  cases h with
  | unmarked hversion hprogress hheight hmarks => exact .unmarked hversion hprogress hheight hmarks
  | marked hversion hheight => exact .marked hversion hheight

theorem RowsSound.started : RowsSound rows.markSyncStarted (.started :: history) :=
  .marked rfl rfl

theorem RowsSound.completed (height : Nat) :
    RowsSound (rows.markSyncCompleted height) (.completed height :: history) :=
  .marked rfl rfl

theorem RowsSound.policyWritten (h : RowsSound rows history) (scannedHeight chainTipHeight : Nat)
    (hnone : rows.syncCompletionPolicyVersion = none) :
    RowsSound
      (rows.initializeSyncCompletionPolicy (legacyCompletedHeight scannedHeight chainTipHeight))
      (.statusInitialized scannedHeight chainTipHeight :: history) := by
  cases h with
  | marked hversion _ =>
    rw [hnone] at hversion
    cases hversion
  | unmarked hversion hprogress hheight hmarks =>
    refine .marked ?_ ?_
    · simp [SyncMeta.initializeSyncCompletionPolicy,hversion]
    · simp only [SyncMeta.initializeSyncCompletionPolicy,hversion,markedHeight,
        SyncMeta.completedUnlessInProgress,SyncMeta.inProgress,hprogress,hheight]
      cases legacyCompletedHeight scannedHeight chainTipHeight <;> rfl

theorem RowsSound.unmarked_of_none (h : RowsSound rows history)
    (hnone : rows.syncCompletionPolicyVersion = none) : ∀ e ∈ history, e.marks = false := by
  cases h with
  | unmarked _ _ _ hmarks => exact hmarks
  | marked hversion _ =>
    rw [hnone] at hversion
    cases hversion

theorem LastRunCompleted.record {height : Nat} {e : SyncEvent}
    (h : LastRunCompleted height history) (he : e.marks = false) :
    LastRunCompleted height (e :: history) := by
  obtain ⟨newer,middle,older,rfl,hnewer,hmiddle⟩ := h
  refine ⟨e :: newer,middle,older,rfl,?_,hmiddle⟩
  intro e' he'
  rcases List.mem_cons.mp he' with rfl | he'
  · exact he
  · exact hnewer e' he'

theorem FullyScannedBefore.record {height : Nat} {e : SyncEvent}
    (h : FullyScannedBefore height history) (he : e.marks = false) :
    FullyScannedBefore height (e :: history) := by
  obtain ⟨newer,scannedHeight,older,rfl,hmarks,hheight⟩ := h
  refine ⟨e :: newer,scannedHeight,older,rfl,?_,hheight⟩
  intro e' he'
  rcases List.mem_cons.mp he' with rfl | he'
  · exact he
  · exact hmarks e' he'

theorem legacyCompletedHeight_some {scannedHeight chainTipHeight height : Nat}
    (h : legacyCompletedHeight scannedHeight chainTipHeight = some height) :
    chainTipHeight = height ∧ 0 < height ∧ height ≤ scannedHeight := by
  unfold legacyCompletedHeight at h
  split at h
  · rename_i hscanned
    cases h
    exact ⟨rfl,hscanned⟩
  · cases h

/-- A completed height to be read is one that the last run left, or one that was there before any
run. -/
theorem markedHeight_some (hground : Grounded Justified history) {height : Nat}
    (h : markedHeight history = some height) :
    LastRunCompleted height history ∨ FullyScannedBefore height history := by
  induction history with
  | nil => cases h
  | cons e history ih =>
    have hevent := hground [] e history rfl
    have hground : Grounded Justified history :=
      Grounded.older (show Grounded Justified ([e] ++ history) from hground)
    by_cases he : e.marks = true
    · cases e with
      | started => cases h
      | completed height' =>
        cases h
        obtain ⟨middle,older,hsplit,hmiddle⟩ := List.eq_append_cons_of_mem hevent.2
        refine .inl ⟨[],middle,older,by rw [hsplit]; rfl,?_,hmiddle⟩
        simp
      | statusInitialized scannedHeight chainTipHeight =>
        obtain ⟨rfl,hheight⟩ := legacyCompletedHeight_some h
        exact .inr ⟨[],scannedHeight,history,rfl,hevent,hheight⟩
      | tipAccepted | truncated | rescansQueued | witnessesChecked | finalCheck
      | completionReported | statusReturned => cases he
    · have he : e.marks = false := by simpa using he
      rw [markedHeight_cons he] at h
      rcases ih hground h with hlast | hbefore
      · exact .inl (hlast.record he)
      · exact .inr (hbefore.record he)

/-- The run has accepted a tip. -/
def SyncPoint.tipKnown : SyncPoint → Bool
  | .starting | .waiting | .connecting | .rewinding .initialTip _
  | .requeueing .initialTip _ _ => false
  | _ => true

/-- The run has written its start marker. -/
def SyncPoint.isStarted : SyncPoint → Bool
  | .starting | .waiting => false
  | _ => true

/-- The run has not passed its last check. -/
def SyncPoint.unchecked : SyncPoint → Bool
  | .completing _ | .reporting _ | .reported _ => false
  | _ => true

theorem isStarted_of_tipKnown {point : SyncPoint} (h : point.tipKnown = true) :
    point.isStarted = true := by
  cases point <;> first | rfl | cases h

structure RunSound (run : SyncRun) (history : List SyncEvent) : Prop where
  tip : run.point.tipKnown = true → acceptedTip history = some run.currentTipHeight
  started : run.point.isStarted = true → .started ∈ history
  checked : ∀ height, run.point = .completing height → Checked height history
  completed : ∀ height, run.point = .reporting height ∨ run.point = .reported height →
    MarkedCompleted height history

theorem RunSound.of_unchecked {run : SyncRun} (hpoint : run.point.unchecked = true)
    (htip : run.point.tipKnown = true → acceptedTip history = some run.currentTipHeight)
    (hstarted : run.point.isStarted = true → .started ∈ history) : RunSound run history where
  tip := htip
  started := hstarted
  checked height h := by
    rw [h] at hpoint
    cases hpoint
  completed height h := by
    rcases h with h | h <;> rw [h] at hpoint <;> cases hpoint

theorem Checked.record {height : Nat} {e : SyncEvent} (h : Checked height history)
    (he : e.ofStatus = true) : Checked height (e :: history) := by
  obtain ⟨newer,wallet,older,rfl,hnewer,hscanned⟩ := h
  refine ⟨e :: newer,wallet,older,rfl,?_,hscanned⟩
  intro e' he'
  rcases List.mem_cons.mp he' with rfl | he'
  · exact he
  · exact hnewer e' he'

theorem MarkedCompleted.record {height : Nat} {e : SyncEvent} (h : MarkedCompleted height history)
    (he : e.ofStatus = true ∨ e = .completionReported height) :
    MarkedCompleted height (e :: history) := by
  obtain ⟨newer,older,rfl,hnewer⟩ := h
  refine ⟨e :: newer,older,rfl,?_⟩
  intro e' he'
  rcases List.mem_cons.mp he' with rfl | he'
  · exact he
  · exact hnewer e' he'

theorem RunSound.status {run : SyncRun} {e : SyncEvent} (h : RunSound run history)
    (he : e.ofStatus = true) : RunSound run (e :: history) where
  tip hpoint := by rw [acceptedTip_cons_status he,h.tip hpoint]
  started hpoint := List.mem_cons_of_mem e (h.started hpoint)
  checked height hpoint := (h.checked height hpoint).record he
  completed height hpoint := (h.completed height hpoint).record (.inl he)

structure Engine.Sound (s : Engine) : Prop where
  run : ∀ run, s.run = some run → RunSound run s.history
  rows : RowsSound s.rows s.history
  history : Grounded Justified s.history
  rereading : .rereading ∈ s.readers → s.rows.syncCompletionPolicyVersion ≠ none

namespace Engine

variable {s : Engine} {run : SyncRun}

theorem init_sound (wallet : WalletView) : (init wallet).Sound where
  run run h := by cases h
  rows := .unmarked rfl rfl rfl (by simp [init])
  history := grounded_nil
  rereading hread := by simp [init] at hread

theorem Sound.endRun (h : s.Sound) : s.endRun.Sound where
  run run hrun := by cases hrun
  rows := h.rows
  history := h.history
  rereading := h.rereading

theorem Sound.setWallet (h : s.Sound) (wallet : WalletView) :
    ({ s with wallet := wallet } : Engine).Sound := ⟨h.run,h.rows,h.history,h.rereading⟩

theorem Sound.goOn (h : s.Sound) (hrun : RunSound run s.history) : (s.goOn run).Sound where
  run run' h' := by
    cases h'
    exact hrun
  rows := h.rows
  history := h.history
  rereading := h.rereading

theorem Sound.attemptFailed (h : s.Sound) (run : SyncRun) (error : SyncError) :
    (s.attemptFailed run error).Sound := by
  have hwaits : (s.goto { run with attempt := run.attempt + 1 } .waiting).Sound :=
    h.goOn (.of_unchecked rfl nofun nofun)
  unfold Engine.attemptFailed
  cases error.recoveryStrategy with
  | fatal => exact h.endRun
  | retryWithBackoff | rewind =>
    by_cases hlast : run.attempt = maxRetries
    · simpa [hlast] using h.endRun
    · simpa [hlast] using hwaits

theorem Sound.moves (h : s.Sound) (hs : s.run = some run) {run' : SyncRun}
    (hunchecked : run'.point.unchecked = true)
    (htip : run'.currentTipHeight = run.currentTipHeight)
    (hknown : run'.point.tipKnown = true → run.point.tipKnown = true)
    (hstarted : run'.point.isStarted = true → run.point.isStarted = true) :
    (s.goOn run').Sound := by
  have hrun := h.run run hs
  refine h.goOn (.of_unchecked hunchecked (fun hpoint => ?_) fun hpoint => ?_)
  · rw [htip]
    exact hrun.tip (hknown hpoint)
  · exact hrun.started (hstarted hpoint)

theorem Sound.movesOn (h : s.Sound) (hs : s.run = some run) (hknown : run.point.tipKnown = true)
    {run' : SyncRun} (hunchecked : run'.point.unchecked = true)
    (htip : run'.currentTipHeight = run.currentTipHeight) : (s.goOn run').Sound :=
  h.moves hs hunchecked htip (fun _ => hknown) fun _ => isStarted_of_tipKnown hknown

theorem Sound.recordEvent (h : s.Sound) (hs : s.run = some run)
    (hunchecked : run.point.unchecked = true) {e : SyncEvent} (hmarks : e.marks = false)
    (htip : acceptedTip (e :: s.history) = acceptedTip s.history)
    (hjustified : Justified e s.history) : (s.record e).Sound where
  run run' hs' := by
    have hrun := h.run run hs
    rw [show (s.record e).run = s.run from rfl,hs] at hs'
    cases hs'
    refine .of_unchecked hunchecked (fun hpoint => ?_) fun hpoint => ?_
    · exact htip.trans (hrun.tip hpoint)
    · exact List.mem_cons_of_mem e (hrun.started hpoint)
  rows := h.rows.record hmarks
  history := h.history.cons hjustified
  rereading := h.rereading

theorem Sound.acceptTip (h : s.Sound) (hstarted : .started ∈ s.history) (wallet : WalletView)
    (tipHeight : Nat) (validationRequired : Bool) {point : SyncPoint}
    (hpoint : point.unchecked = true) :
    (s.acceptTip run wallet tipHeight validationRequired point).Sound where
  run run' hs' := by
    cases hs'
    exact .of_unchecked hpoint (fun _ => rfl) fun _ => List.mem_cons_of_mem _ hstarted
  rows := h.rows.record rfl
  history := h.history.cons trivial
  rereading := h.rereading

theorem Sound.rewindForConfirmedTipReorg (h : s.Sound) (hs : s.run = some run)
    {path : RewindPath} (hpath : path ≠ .initialTip → run.point.tipKnown = true)
    (hstarted : run.point.isStarted = true) (tipHeight : Nat) :
    (s.rewindForConfirmedTipReorg run path tipHeight).Sound := by
  unfold Engine.rewindForConfirmedTipReorg
  by_cases hbudget : maxRewindsPerRun ≤ run.mainRewindsThisRun
  · simpa [hbudget] using h.attemptFailed run _
  · simp only [hbudget,if_false]
    refine h.moves hs rfl rfl (fun hknown => hpath ?_) fun _ => hstarted
    rintro rfl
    cases hknown

theorem initialTip_sound (h : s.Sound) (hs : s.run = some run) (hpoint : run.point = .connecting)
    (answers : TipAnswers) : (s.initialTip run answers).Sound := by
  have hstarted : .started ∈ s.history := (h.run run hs).started (by rw [hpoint]; rfl)
  unfold Engine.initialTip
  split
  · exact h.attemptFailed run _
  split
  · exact h.attemptFailed run _
  · exact h.attemptFailed run _
  · exact h.rewindForConfirmedTipReorg hs (fun hpath => absurd rfl hpath) (by rw [hpoint]; rfl) _
  split
  · exact h.attemptFailed run _
  · exact h.acceptTip hstarted _ _ _ rfl

theorem truncate_sound (h : s.Sound) (hs : s.run = some run) {path : RewindPath}
    {tipHeight : Nat} (hpoint : run.point = .rewinding path tipHeight)
    (first again : TruncateAnswer) : (s.truncate run path tipHeight first again).Sound := by
  have hunchecked : run.point.unchecked = true := by rw [hpoint]; rfl
  have hmoves {s : Engine} (h : s.Sound) (hs : s.run = some run) (actualHeight : Nat) :
      (s.goto run (.requeueing path tipHeight actualHeight)).Sound := by
    refine h.moves hs rfl rfl (fun hknown => ?_) fun _ => by rw [hpoint]; rfl
    rw [hpoint]
    cases path <;> first | rfl | cases hknown
  unfold Engine.truncate
  split
  · exact h.attemptFailed run _
  dsimp only
  cases (truncateWalletWith _ first again).1 with
  | none =>
    split
    · exact h.attemptFailed run _
    · exact hmoves h hs _
  | some wallet =>
    have h' := (h.setWallet wallet).recordEvent (e := .truncated path) hs hunchecked rfl rfl trivial
    split
    · exact h'.attemptFailed run _
    · exact hmoves h' hs _

theorem requeue_sound (h : s.Sound) (hs : s.run = some run) {path : RewindPath}
    {tipHeight actualHeight : Nat} (hpoint : run.point = .requeueing path tipHeight actualHeight)
    (wallet : WalletView) : (s.requeue run path tipHeight actualHeight wallet).Sound := by
  have hstarted : .started ∈ s.history := (h.run run hs).started (by rw [hpoint]; rfl)
  have hfails := (h.setWallet wallet).attemptFailed
  cases path with
  | initialTip =>
    unfold Engine.requeue
    dsimp only
    split
    · exact hfails run _
    · exact h.acceptTip hstarted _ _ _ rfl
  | periodicTip | queueDrainTip | postBatchTip =>
    unfold Engine.requeue
    dsimp only
    split
    · exact hfails run _
    · exact h.acceptTip hstarted _ _ _ rfl
  | scan | anchorRepair =>
    unfold Engine.requeue
    dsimp only
    split
    · exact hfails run _
    · exact (h.setWallet wallet).movesOn hs (by rw [hpoint]; rfl) rfl rfl

theorem prepare_sound (h : s.Sound) (hs : s.run = some run) (hpoint : run.point = .preparing)
    (wallet : WalletView) : (s.prepare run wallet).Sound :=
  (h.setWallet wallet).movesOn hs (by rw [hpoint]; rfl) rfl rfl

theorem refreshTip_sound (h : s.Sound) (hs : s.run = some run)
    (hknown : run.point.tipKnown = true) (path : RewindPath) {next afterAdvance : SyncPoint} (hnext : next.unchecked = true)
    (hafter : afterAdvance.unchecked = true) (updateRequired : Bool) (answers : TipAnswers) :
    (s.refreshTip run path next afterAdvance updateRequired answers).Sound := by
  have hstarted := isStarted_of_tipKnown hknown
  have hmem : .started ∈ s.history := (h.run run hs).started hstarted
  have hmoves (required : Bool) :
      (s.goto { run with completionTipValidationRequired := required } next).Sound :=
    h.movesOn hs hknown hnext rfl
  unfold Engine.refreshTip
  split
  · exact h.attemptFailed run _
  split
  · exact h.attemptFailed run _
  · exact hmoves false
  · exact hmoves true
  · exact h.attemptFailed run _
  · exact h.rewindForConfirmedTipReorg hs (fun _ => hknown) hstarted _
  split
  · exact h.acceptTip hmem _ _ _ hafter
  · split
    · exact h.attemptFailed run _
    · exact hmoves true

theorem periodicRefresh_sound (h : s.Sound) (hs : s.run = some run)
    (hpoint : run.point = .loopStart) (age : Nat) (answers : Option TipAnswers) :
    (s.periodicRefresh run age answers).Sound := by
  have hknown : run.point.tipKnown = true := by rw [hpoint]; rfl
  unfold Engine.periodicRefresh
  split
  · exact h.movesOn hs hknown rfl rfl
  cases answers with
  | none => exact h.movesOn hs hknown rfl rfl
  | some answers => exact refreshTip_sound h hs hknown _ rfl rfl _ answers

theorem pickRange_sound (h : s.Sound) (hs : s.run = some run) (hpoint : run.point = .picking)
    (baseBatchSize : Nat) : (s.pickRange run baseBatchSize).Sound := by
  have hmoves {point : SyncPoint} (hunchecked : point.unchecked = true) :
      (s.goto { run with queuedRanges := none } point).Sound :=
    h.movesOn hs (by rw [hpoint]; rfl) hunchecked rfl
  unfold Engine.pickRange
  dsimp only
  split
  · exact hmoves rfl
  split
  · exact h.attemptFailed _ _
  split
  · exact hmoves rfl
  · exact hmoves rfl

theorem drainRefresh_sound (h : s.Sound) (hs : s.run = some run) (hpoint : run.point = .drained)
    (validationAge : Nat) (answers : TipAnswers) :
    (s.drainRefresh run validationAge answers).Sound := by
  have hknown : run.point.tipKnown = true := by rw [hpoint]; rfl
  unfold Engine.drainRefresh
  split
  · exact refreshTip_sound h hs hknown _ rfl rfl _ answers
  · exact h.movesOn hs hknown rfl rfl

theorem checkWitnesses_sound (h : s.Sound) (hs : s.run = some run)
    (hpoint : run.point = .checkingWitnesses) (readable : Bool) (answer : WitnessAnswer) :
    (s.checkWitnesses run readable answer).Sound := by
  have hunchecked : run.point.unchecked = true := by rw [hpoint]; rfl
  have hknown : run.point.tipKnown = true := by rw [hpoint]; rfl
  unfold Engine.checkWitnesses
  split
  · exact h.movesOn hs hknown rfl rfl
  cases answer with
  | clean marked =>
    have hrows : RowsSound
        (if marked then s.rows.markWitnessCheckClean run.currentTipHeight else s.rows) s.history := by
      cases marked with
      | true => exact h.rows.clean _
      | false => exact h.rows
    have hrereading : .rereading ∈ s.readers → (if marked then
        s.rows.markWitnessCheckClean run.currentTipHeight else s.rows).syncCompletionPolicyVersion ≠
          none := by
      cases marked with
      | true => exact h.rereading
      | false => exact h.rereading
    have h' : Engine.Sound { s with
        rows := if marked then s.rows.markWitnessCheckClean run.currentTipHeight else s.rows } :=
      ⟨h.run,hrows,h.history,hrereading⟩
    have hchecked := h'.recordEvent
      (e := .witnessesChecked (s.wallet.pending == 0) true) hs hunchecked rfl rfl trivial
    exact hchecked.movesOn hs hknown rfl rfl
  | rescan wallet =>
    have hchecked := h.recordEvent
      (e := .witnessesChecked (s.wallet.pending == 0) false) hs hunchecked rfl rfl trivial
    have hqueued := (hchecked.setWallet wallet).recordEvent
      (e := .rescansQueued) hs hunchecked rfl rfl trivial
    dsimp only
    split
    · exact hchecked.attemptFailed run _
    split
    · exact hqueued.attemptFailed _ _
    · exact hqueued.movesOn hs hknown rfl rfl

theorem compareAnchorRoots_sound (h : s.Sound) (hs : s.run = some run)
    (hpoint : run.point = .comparingAnchor) (mismatchedAnchor : Option Nat) :
    (s.compareAnchorRoots run mismatchedAnchor).Sound := by
  have hknown : run.point.tipKnown = true := by rw [hpoint]; rfl
  cases mismatchedAnchor with
  | none => exact h.movesOn hs hknown rfl rfl
  | some anchorHeight => exact h.movesOn hs hknown rfl rfl

theorem repairAnchorRoot_sound (h : s.Sound) (hs : s.run = some run) {anchorHeight : Nat}
    (hpoint : run.point = .repairingAnchor anchorHeight) (truncated : Option WalletView) :
    (s.repairAnchorRoot run anchorHeight truncated).Sound := by
  have hunchecked : run.point.unchecked = true := by rw [hpoint]; rfl
  have hknown : run.point.tipKnown = true := by rw [hpoint]; rfl
  unfold Engine.repairAnchorRoot
  split
  · exact h.attemptFailed run _
  cases truncated with
  | none => exact h.movesOn hs hknown rfl rfl
  | some wallet =>
    have h' := (h.setWallet wallet).recordEvent
      (e := .truncated (.anchorRepair anchorHeight)) hs hunchecked rfl rfl trivial
    exact h'.movesOn hs hknown rfl rfl

theorem checkCompletion_sound (h : s.Sound) (hs : s.run = some run)
    (hpoint : run.point = .checkingCompletion) : (s.checkCompletion run).Sound := by
  unfold Engine.checkCompletion
  split
  · exact h.attemptFailed run _
  · exact h.movesOn hs (by rw [hpoint]; rfl) rfl rfl

theorem scanBatch_sound (h : s.Sound) (hs : s.run = some run) {range : ScanRange}
    (hpoint : run.point = .scanning range) (result : Except SyncError WalletView) :
    (s.scanBatch run range result).Sound := by
  have hknown : run.point.tipKnown = true := by rw [hpoint]; rfl
  cases result with
  | ok wallet => exact (h.setWallet wallet).movesOn hs hknown rfl rfl
  | error error =>
    unfold Engine.scanBatch
    dsimp only
    split
    · unfold Engine.rewindAfterScan
      split
      · split
        · exact h.attemptFailed run _
        · exact h.movesOn hs hknown rfl rfl
      · split
        · exact h.attemptFailed run _
        · exact h.movesOn hs hknown rfl rfl
    · exact h.attemptFailed run _
    · exact h.attemptFailed run _

theorem postBatchRefresh_sound (h : s.Sound) (hs : s.run = some run)
    (hpoint : run.point = .afterBatch) (enhanced : WalletView) (answers : Option TipAnswers) :
    (s.postBatchRefresh run enhanced answers).Sound := by
  have hknown : run.point.tipKnown = true := by rw [hpoint]; rfl
  have h' := h.setWallet enhanced
  cases answers with
  | none => exact h'.movesOn hs hknown rfl rfl
  | some answers => exact refreshTip_sound h' hs hknown _ rfl rfl _ answers

theorem finalCheck_sound (h : s.Sound) (hs : s.run = some run) (hpoint : run.point = .finishing) :
    (s.finalCheck run).Sound := by
  unfold Engine.finalCheck
  split
  · exact h.attemptFailed run _
  · rename_i fullyScannedHeight finalTipHeight hcheck
    obtain ⟨hheights,hscanned⟩ := ensureCompleteScanState_ok hcheck
    obtain rfl : finalTipHeight = run.currentTipHeight := (Prod.ext_iff.mp hheights).2
    have hrun := h.run run hs
    have htip := hrun.tip (by rw [hpoint]; rfl)
    have h' := h.recordEvent (e := .finalCheck s.wallet) hs (by rw [hpoint]; rfl) rfl rfl trivial
    refine h'.goOn ⟨fun _ => htip,fun _ => ?_,fun height hheight => ?_,fun height hheight => ?_⟩
    · exact List.mem_cons_of_mem _ (hrun.started (by rw [hpoint]; rfl))
    · cases hheight
      exact ⟨[],s.wallet,s.history,rfl,by simp,hscanned,htip⟩
    · rcases hheight with hheight | hheight <;> cases hheight

theorem markSyncCompleted_sound (h : s.Sound) (hs : s.run = some run) {finalTipHeight : Nat}
    (hpoint : run.point = .completing finalTipHeight) :
    (s.markSyncCompleted run finalTipHeight).Sound := by
  have hrun := h.run run hs
  have hstarted : .started ∈ s.history := hrun.started (by rw [hpoint]; rfl)
  refine ⟨?_,.completed finalTipHeight,
    h.history.cons ⟨hrun.checked finalTipHeight hpoint,hstarted⟩,nofun⟩
  intro run' hs'
  cases hs'
  refine ⟨fun _ => hrun.tip (by rw [hpoint]; rfl),fun _ => List.mem_cons_of_mem _ hstarted,
    fun height hheight => ?_,fun height hheight => ?_⟩
  · cases hheight
  · rcases hheight with hheight | hheight
    · cases hheight
      exact ⟨[],s.history,rfl,by simp⟩
    · cases hheight

theorem reportCompletion_sound (h : s.Sound) (hs : s.run = some run) {finalTipHeight : Nat}
    (hpoint : run.point = .reporting finalTipHeight ∨ run.point = .reported finalTipHeight) :
    (s.reportCompletion run finalTipHeight).Sound := by
  have hrun := h.run run hs
  have hcompleted := hrun.completed finalTipHeight hpoint
  have hknown : run.point.tipKnown = true := by rcases hpoint with hp | hp <;> rw [hp] <;> rfl
  have hstarted : run.point.isStarted = true := by rcases hpoint with hp | hp <;> rw [hp] <;> rfl
  refine ⟨?_,h.rows.record rfl,h.history.cons hcompleted,h.rereading⟩
  intro run' hs'
  cases hs'
  refine ⟨fun _ => hrun.tip hknown,fun _ => List.mem_cons_of_mem _ (hrun.started hstarted),
    fun height hheight => ?_,fun height hheight => ?_⟩
  · cases hheight
  · rcases hheight with hheight | hheight
    · cases hheight
    · cases hheight
      exact hcompleted.record (.inr rfl)

theorem runStep_sound (h : s.Sound) (hs : s.run = some run) {input : SyncInput} {s' : Engine}
    (hstep : s.runStep run input run.point = .ok s') : s'.Sound := by
  generalize hpoint : run.point = point at hstep
  unfold Engine.runStep at hstep
  split at hstep
  · split at hstep
    · cases hstep
      exact h.endRun
    · cases hstep
  · split at hstep
    · cases hstep
      exact h.attemptFailed run _
    · cases hstep
  · cases hstep
    exact h.goOn (.of_unchecked rfl nofun nofun)
  · cases hstep
    refine ⟨?_,.started,h.history.cons trivial,nofun⟩
    intro run' hs'
    cases hs'
    exact .of_unchecked rfl nofun fun _ => List.mem_cons_self
  · split at hstep
    · cases hstep
      exact initialTip_sound h hs hpoint _
    · cases hstep
  · cases hstep
    exact truncate_sound h hs hpoint _ _
  · cases hstep
    exact requeue_sound h hs hpoint _
  · cases hstep
    exact prepare_sound h hs hpoint _
  · split at hstep
    · cases hstep
      exact periodicRefresh_sound h hs hpoint _ _
    · cases hstep
  · cases hstep
    exact pickRange_sound h hs hpoint _
  · split at hstep
    · cases hstep
      exact drainRefresh_sound h hs hpoint _ _
    · cases hstep
  · cases hstep
    exact checkWitnesses_sound h hs hpoint _ _
  · cases hstep
    exact compareAnchorRoots_sound h hs hpoint _
  · cases hstep
    exact repairAnchorRoot_sound h hs hpoint _
  · cases hstep
    exact checkCompletion_sound h hs hpoint
  · cases hstep
    exact scanBatch_sound h hs hpoint _
  · split at hstep
    · cases hstep
      exact postBatchRefresh_sound h hs hpoint _ _
    · cases hstep
  · cases hstep
    exact finalCheck_sound h hs hpoint
  · cases hstep
    exact markSyncCompleted_sound h hs hpoint
  · cases hstep
    exact reportCompletion_sound h hs (.inl hpoint)
  · cases hstep
    exact reportCompletion_sound h hs (.inr hpoint)
  · cases hstep
    exact h.endRun
  · cases hstep

theorem Sound.returned (h : s.Sound) (hversion : s.rows.syncCompletionPolicyVersion ≠ none) :
    Justified (.statusReturned s.rows.completedUnlessInProgress) s.history := by
  cases h.rows with
  | unmarked hnone => exact absurd hnone hversion
  | marked _ hheight =>
    cases hreturned : s.rows.completedUnlessInProgress with
    | none => trivial
    | some height => exact markedHeight_some h.history (hheight.symm.trans hreturned)

theorem Sound.statusReturned (h : s.Sound) {completedHeight : Option Nat}
    (hjustified : Justified (.statusReturned completedHeight) s.history) (reader : Nat) :
    (Engine.record { s with readers := s.readers.eraseIdx reader }
      (.statusReturned completedHeight)).Sound where
  run run hs := (h.run run hs).status rfl
  rows := h.rows.record rfl
  history := h.history.cons hjustified
  rereading hread := h.rereading (List.mem_of_mem_eraseIdx hread)

theorem advanceStatus_sound (h : s.Sound) {reader : Nat} {s' : Engine}
    (hstep : s.advanceStatus reader = .ok s') : s'.Sound := by
  unfold Engine.advanceStatus at hstep
  split at hstep
  · cases hstep
  rename_i read hread
  have hmem : read ∈ s.readers := List.mem_of_getElem? hread
  cases read with
  | reading scannedHeight chainTipHeight =>
    cases hversion : s.rows.syncCompletionPolicyVersion with
    | none =>
      simp only [StatusRead.advance,hversion] at hstep
      cases hstep
      refine ⟨h.run,h.rows,h.history,fun hread => h.rereading ?_⟩
      rcases List.mem_or_eq_of_mem_set hread with hread | hread
      · exact hread
      · cases hread
    | some version =>
      have hreturned := h.returned (by rw [hversion]; exact nofun)
      by_cases hcurrent : version = syncCompletionPolicyVersion
      · simp only [StatusRead.advance,hversion,if_pos hcurrent] at hstep
        cases hstep
        exact h.statusReturned hreturned reader
      · simp only [StatusRead.advance,hversion,if_neg hcurrent] at hstep
        cases hstep
        have hnothing : Justified (.statusReturned none) s.history := trivial
        exact h.statusReturned hnothing reader
  | initializing scannedHeight chainTipHeight =>
    cases hversion : s.rows.syncCompletionPolicyVersion with
    | none =>
      have hmarks := h.rows.unmarked_of_none hversion
      simp only [StatusRead.advance,hversion] at hstep
      cases hstep
      refine ⟨fun run hs => (h.run run hs).status rfl,h.rows.policyWritten _ _ hversion,
        h.history.cons hmarks,fun _ => ?_⟩
      simp [Engine.record,SyncMeta.initializeSyncCompletionPolicy,hversion]
    | some version =>
      simp only [StatusRead.advance,SyncMeta.initializeSyncCompletionPolicy,hversion] at hstep
      cases hstep
      exact ⟨h.run,h.rows,h.history,fun _ => by simp [hversion]⟩
  | rereading =>
    cases hstep
    exact h.statusReturned (h.returned (h.rereading hmem)) reader

theorem step_sound (h : s.Sound) {input : SyncInput} {s' : Engine}
    (hstep : Engine.step input s = .ok s') : s'.Sound := by
  unfold Engine.step at hstep
  split at hstep
  · split at hstep
    · cases hstep
      exact h.goOn (.of_unchecked rfl nofun nofun)
    · cases hstep
  · cases hstep
    exact h.endRun
  · cases hstep
    refine ⟨h.run,h.rows,h.history,fun hread => h.rereading ?_⟩
    simpa using hread
  · exact advanceStatus_sound h hstep
  · split at hstep
    · cases hstep
    · rename_i run hs
      exact runStep_sound h hs hstep

theorem run_sound {wallet : WalletView} (h : Runs step (init wallet) s) : s.Sound :=
  h.invariant (P := Sound) (fun _ _ _ hs hstep => step_sound hs hstep) (init_sound wallet)

end Engine

section Runs

def tipHash (byte : UInt8) : BlockHash := ⟨List.replicate 32 byte,by simp⟩

/-- A wallet with one range to scan, below a tip. -/
def queuedWallet (start tip : Nat) (h : start < tip + 1) : WalletView where
  suggestScanRanges := [⟨start,tip + 1,.chainTip,h⟩]
  walletScanHeights := some (start - 1,tip)
  getBlockHash _ := none

def unscannedWallet : WalletView := queuedWallet 1 100 (by decide)

def scannedWallet (tip : Nat) (hash : BlockHash) : WalletView where
  suggestScanRanges := []
  walletScanHeights := some (tip,tip)
  getBlockHash height := if height = tip then some hash else none

def emptyWallet : WalletView := ⟨[],none,fun _ => none⟩

def tipAnswers (height : Nat) (hash : BlockHash) (wallet : WalletView) : TipAnswers :=
  ⟨⟨height,hash.val⟩,.ok hash,.updated wallet⟩

/-- From an empty queue to the completed event, with nothing to repair. -/
def completes (tip : TipAnswers) (answer : WitnessAnswer) : List SyncInput :=
  [.periodicRefresh 0 none,.pickRange 2000,.drainRefresh 0 tip,.checkWitnesses true answer,
    .compareAnchorRoots none,.checkCompletion,.finalCheck,.markSyncCompleted,.reportCompletion,
    .finishRun]

/-- A run that scans a new wallet to its tip. -/
def firstSync : List SyncInput :=
  let queued := unscannedWallet
  let scanned := scannedWallet 100 (tipHash 1)
  [.runSyncInner,.markSyncStarted,.initialTip (tipAnswers 100 (tipHash 1) queued),.prepare queued,
    .periodicRefresh 0 none,.pickRange 2000,.scanBatch (.ok scanned),
    .postBatchRefresh scanned (some (tipAnswers 100 (tipHash 1) scanned))] ++
    completes (tipAnswers 100 (tipHash 1) scanned) (.clean true)

/-- A server without blocks, and a wallet that knows no heights. -/
def emptySync : List SyncInput :=
  [.runSyncInner,.markSyncStarted,.initialTip (tipAnswers 0 (tipHash 1) emptyWallet),
    .prepare emptyWallet] ++ completes (tipAnswers 0 (tipHash 1) emptyWallet) (.clean true)

end Runs

end CoppiceWallet.SyncEngine
