import CoppiceWallet.SyncEngine.Completion

/-! # Witness checks after rewinds -/

namespace CoppiceWallet.SyncEngine

open CoppiceWallet.Lib

/-- Since the last rewind and the last queued rescan, the witnesses were checked on an empty queue
and found clean. -/
def witnessed : List SyncEvent → Bool
  | [] => true
  | .witnessesChecked queueEmpty clean :: older => (queueEmpty && clean) || witnessed older
  | .truncated _ :: _ | .rescansQueued :: _ => false
  | .started :: older | .tipAccepted _ :: older | .finalCheck _ :: older | .completed _ :: older
  | .completionReported _ :: older | .statusInitialized _ _ :: older
  | .statusReturned _ :: older => witnessed older

/-- Since the last clean check, a tip rewound the wallet, or a run started after one that had left a
rewind or a rescan unchecked. -/
def signalLost : List SyncEvent → Bool
  | [] => false
  | .witnessesChecked queueEmpty clean :: older => !(queueEmpty && clean) && signalLost older
  | .truncated path :: older => path.isTipReorg || signalLost older
  | .started :: older => !witnessed older || signalLost older
  | .rescansQueued :: older | .tipAccepted _ :: older | .finalCheck _ :: older
  | .completed _ :: older | .completionReported _ :: older | .statusInitialized _ _ :: older
  | .statusReturned _ :: older => signalLost older

/-- The check is not skipped once the signal for it is lost, and it runs on an empty queue unless
nothing is left to be checked. -/
def keepsSignal (input : SyncInput) (s : Engine) : Bool :=
  match input,s.run with
  | .checkWitnesses readable _,some run =>
    match witnessCheckDecision s.rows readable run.currentTipHeight
        run.forceWitnessCheckThisRun with
    | .skip _ _ => !signalLost s.history
    | .run _ => s.wallet.pending == 0 || witnessed s.history
  | _,_ => true

def KeepsSignal (input : SyncInput) (s : Engine) : Prop := keepsSignal input s = true

instance (input : SyncInput) (s : Engine) : Decidable (KeepsSignal input s) :=
  inferInstanceAs (Decidable (keepsSignal input s = true))

/-- What a completion says of the events before it. -/
def WitnessedCompletion : SyncEvent → List SyncEvent → Prop
  | .completed _,older => witnessed older = true
  | _,_ => True

/-- The witnesses need no check any more. -/
def SyncPoint.pastWitnesses : SyncPoint → Bool
  | .comparingAnchor | .checkingCompletion | .completing _ | .reporting _ | .reported _ => true
  | _ => false

/-- The witnesses are still to be checked in this run. -/
def SyncPoint.beforeWitnesses : SyncPoint → Bool
  | .connecting | .preparing | .loopStart | .picking | .drained | .checkingWitnesses
  | .scanning _ | .afterBatch => true
  | .requeueing path _ _ => path.isTipReorg
  | _ => false

/-- A list of ranges may be waiting to be picked from, or is about to be replaced. -/
def SyncPoint.holdsRanges : SyncPoint → Bool
  | .waiting | .loopStart | .picking => true
  | .rewinding path _ | .requeueing path _ _ => path == .periodicTip
  | _ => false

/-- Nothing is left to be checked, or the check is forced, or its signal is lost. -/
def Signalled (run : SyncRun) (history : List SyncEvent) : Prop :=
  witnessed history = true ∨ signalLost history = true ∨ run.forceWitnessCheckThisRun = true

/-- The ranges to pick from are pending only while ranges of the wallet are. -/
def RangesKnown (run : SyncRun) (wallet : WalletView) : Prop :=
  ∀ ranges, run.queuedRanges = some ranges → pendingScanBlocks ranges ≠ 0 → wallet.pending ≠ 0

structure RunWitnessed (run : SyncRun) (wallet : WalletView) (history : List SyncEvent) :
    Prop where
  past : run.point.pastWitnesses = true → witnessed history = true
  finishing : run.point = .finishing → wallet.pending = 0 → witnessed history = true
  before : run.point.beforeWitnesses = true → Signalled run history
  queued : run.point.holdsRanges = false → run.queuedRanges = none
  ranges : run.point = .loopStart ∨ run.point = .picking → RangesKnown run wallet

structure Engine.Witnessed (s : Engine) : Prop where
  run : ∀ run, s.run = some run → RunWitnessed run s.wallet s.history
  history : Grounded WitnessedCompletion s.history

theorem not_forced_of_skip {rows : SyncMeta} {readable : Bool} {currentTipHeight : Nat}
    {forceCheck : Bool} {lastCleanHeight ageBlocks : Nat}
    (h : witnessCheckDecision rows readable currentTipHeight forceCheck =
      .skip lastCleanHeight ageBlocks) : forceCheck = false := by
  unfold witnessCheckDecision at h
  split at h
  · cases forceCheck with
    | false => rfl
    | true =>
      rw [decideWitnessCheck_forced] at h
      cases h
  · cases h

variable {run : SyncRun} {wallet : WalletView} {history : List SyncEvent}

theorem rangesKnown_none (h : run.queuedRanges = none) : RangesKnown run wallet := by
  intro ranges hranges
  rw [h] at hranges
  cases hranges

theorem pastWitnesses_of_before {point : SyncPoint} (h : point.beforeWitnesses = true) :
    point.pastWitnesses = false := by
  cases point <;> first | rfl | cases h

theorem RunWitnessed.of_before (hpoint : run.point.beforeWitnesses = true)
    (hsignal : Signalled run history) (hranges : RangesKnown run wallet)
    (hqueued : run.point.holdsRanges = false → run.queuedRanges = none) :
    RunWitnessed run wallet history where
  past h := by
    rw [pastWitnesses_of_before hpoint] at h
    cases h
  finishing h := by
    rw [h] at hpoint
    cases hpoint
  before _ := hsignal
  queued := hqueued
  ranges _ := hranges

theorem RunWitnessed.of_past (hwitnessed : witnessed history = true)
    (hpoint : run.point.holdsRanges = false) (hqueued : run.queuedRanges = none) :
    RunWitnessed run wallet history where
  past _ := hwitnessed
  finishing _ _ := hwitnessed
  before _ := .inl hwitnessed
  queued _ := hqueued
  ranges h := by rcases h with hp | hp <;> rw [hp] at hpoint <;> cases hpoint

theorem RunWitnessed.of_other (hpast : run.point.pastWitnesses = false)
    (hfinishing : run.point ≠ .finishing) (hbefore : run.point.beforeWitnesses = false)
    (hqueued : run.point.holdsRanges = false → run.queuedRanges = none) :
    RunWitnessed run wallet history where
  past h := by
    rw [hpast] at h
    cases h
  finishing h := absurd h hfinishing
  before h := by
    rw [hbefore] at h
    cases h
  queued := hqueued
  ranges h := by rcases h with hp | hp <;> rw [hp] at hbefore <;> cases hbefore

namespace Engine

variable {s : Engine}

theorem init_witnessed (wallet : WalletView) : (init wallet).Witnessed where
  run run h := by cases h
  history := grounded_nil

theorem Witnessed.endRun (h : s.Witnessed) : s.endRun.Witnessed where
  run run hrun := by cases hrun
  history := h.history

theorem Witnessed.goOn (h : s.Witnessed) (hrun : RunWitnessed run s.wallet s.history) :
    (s.goOn run).Witnessed where
  run run' h' := by
    cases h'
    exact hrun
  history := h.history

theorem attemptFailed_witnessed (h : Grounded WitnessedCompletion s.history) (run : SyncRun)
    (error : SyncError) : (s.attemptFailed run error).Witnessed := by
  have hends : s.endRun.Witnessed := ⟨nofun,h⟩
  have hwaits : (s.goto { run with attempt := run.attempt + 1 } .waiting).Witnessed := by
    refine ⟨fun run' h' => ?_,h⟩
    cases h'
    exact .of_other rfl nofun rfl nofun
  unfold Engine.attemptFailed
  cases error.recoveryStrategy with
  | fatal => exact hends
  | retryWithBackoff | rewind =>
    by_cases hlast : run.attempt = maxRetries
    · simpa [hlast] using hends
    · simpa [hlast] using hwaits

theorem rewindForConfirmedTipReorg_witnessed (h : s.Witnessed) {path : RewindPath}
    {run : SyncRun} (hqueued : path ≠ .periodicTip → run.queuedRanges = none) (tipHeight : Nat) :
    (s.rewindForConfirmedTipReorg run path tipHeight).Witnessed := by
  unfold Engine.rewindForConfirmedTipReorg
  by_cases hbudget : maxRewindsPerRun ≤ run.mainRewindsThisRun
  · simpa [hbudget] using attemptFailed_witnessed h.history run _
  · simp only [hbudget,if_false]
    refine h.goOn (.of_other rfl nofun rfl fun hholds => hqueued ?_)
    rintro rfl
    cases hholds

theorem initialTip_witnessed (h : s.Witnessed) (hs : s.run = some run)
    (hpoint : run.point = .connecting) (answers : TipAnswers) :
    (s.initialTip run answers).Witnessed := by
  have hrun := h.run run hs
  have hsignal := hrun.before (by rw [hpoint]; rfl)
  have hqueued := hrun.queued (by rw [hpoint]; rfl)
  unfold Engine.initialTip
  split
  · exact attemptFailed_witnessed h.history run _
  split
  · exact attemptFailed_witnessed h.history run _
  · exact attemptFailed_witnessed h.history run _
  · exact rewindForConfirmedTipReorg_witnessed h (fun _ => hqueued) _
  split
  · exact attemptFailed_witnessed h.history run _
  · refine ⟨fun run' hs' => ?_,h.history.cons trivial⟩
    cases hs'
    exact .of_before rfl hsignal (rangesKnown_none hqueued) fun _ => hqueued

theorem truncateWalletWith_ok {validate : Nat → Except SyncError Nat}
    {first again : TruncateAnswer} {height : Nat}
    (h : (truncateWalletWith validate first again).2 = .ok height) :
    ∃ wallet, (truncateWalletWith validate first again).1 = some wallet := by
  unfold truncateWalletWith at h ⊢
  split at h
  · exact ⟨_,rfl⟩
  · cases h
  · cases h
  · split at h
    · cases h
    · split at h
      · exact ⟨_,rfl⟩
      · cases h
      · cases h

theorem truncate_witnessed (h : s.Witnessed) (hs : s.run = some run) {path : RewindPath}
    {tipHeight : Nat} (hpoint : run.point = .rewinding path tipHeight)
    (first again : TruncateAnswer) : (s.truncate run path tipHeight first again).Witnessed := by
  have hqueued := (h.run run hs).queued
  rw [hpoint] at hqueued
  unfold Engine.truncate
  split
  · exact attemptFailed_witnessed h.history run _
  dsimp only
  generalize hanswer : truncateWalletWith _ first again = answer
  cases hwallet : answer.1 with
  | none =>
    split
    · exact attemptFailed_witnessed h.history run _
    · rename_i actualHeight hok
      rw [← hanswer] at hok hwallet
      obtain ⟨wallet,hsome⟩ := truncateWalletWith_ok hok
      rw [hwallet] at hsome
      cases hsome
  | some wallet =>
    have hhistory : Grounded WitnessedCompletion (.truncated path :: s.history) :=
      h.history.cons trivial
    split
    · exact attemptFailed_witnessed hhistory run _
    · refine ⟨fun run' hs' => ?_,hhistory⟩
      cases hs'
      refine ⟨nofun,nofun,fun hpath => .inr (.inl ?_),hqueued,by simp⟩
      have hpath : path.isTipReorg = true := hpath
      show (path.isTipReorg || signalLost s.history) = true
      rw [hpath,Bool.true_or]

theorem requeue_witnessed (h : s.Witnessed) (hs : s.run = some run) {path : RewindPath}
    {tipHeight actualHeight : Nat} (hpoint : run.point = .requeueing path tipHeight actualHeight)
    (wallet : WalletView) : (s.requeue run path tipHeight actualHeight wallet).Witnessed := by
  have hbefore := (h.run run hs).before
  have hqueued := (h.run run hs).queued
  rw [hpoint] at hbefore hqueued
  have hfails (error : SyncError) :
      (Engine.attemptFailed { s with wallet := wallet } run error).Witnessed :=
    attemptFailed_witnessed (s := { s with wallet := wallet }) h.history run error
  cases path with
  | initialTip =>
    unfold Engine.requeue
    dsimp only
    split
    · exact hfails _
    · refine ⟨fun run' hs' => ?_,h.history.cons trivial⟩
      cases hs'
      have hqueued := hqueued rfl
      exact .of_before rfl (hbefore rfl) (rangesKnown_none hqueued) fun _ => hqueued
  | periodicTip | queueDrainTip | postBatchTip =>
    unfold Engine.requeue
    dsimp only
    split
    · exact hfails _
    · refine ⟨fun run' hs' => ?_,h.history.cons trivial⟩
      cases hs'
      refine .of_before rfl (hbefore rfl) (fun ranges hranges hpending => ?_) nofun
      cases hranges
      exact hpending
  | scan | anchorRepair =>
    have hqueued := hqueued rfl
    unfold Engine.requeue
    dsimp only
    split
    · exact hfails _
    · refine ⟨fun run' hs' => ?_,h.history⟩
      cases hs'
      exact .of_before rfl (.inr (.inr rfl)) (rangesKnown_none hqueued) fun _ => hqueued

theorem prepare_witnessed (h : s.Witnessed) (hs : s.run = some run)
    (hpoint : run.point = .preparing) (wallet : WalletView) :
    (s.prepare run wallet).Witnessed := by
  have hsignal := (h.run run hs).before (by rw [hpoint]; rfl)
  refine ⟨fun run' hs' => ?_,h.history⟩
  cases hs'
  refine .of_before rfl hsignal (fun ranges hranges hpending => ?_) nofun
  cases hranges
  exact hpending

theorem RangesKnown.advance {wallet' : WalletView} (h : RangesKnown run wallet)
    (hkeeps : (UpdateAnswer.updated wallet').KeepsPending wallet) : RangesKnown run wallet' :=
  fun ranges hranges hpending => hkeeps (h ranges hranges hpending)

theorem refreshTip_witnessed (h : s.Witnessed) (hsignal : Signalled run s.history)
    (hranges : RangesKnown run s.wallet) {path : RewindPath}
    (hpath : path ≠ .periodicTip → run.queuedRanges = none) {next afterAdvance : SyncPoint}
    (hnext : next.beforeWitnesses = true) (hafter : afterAdvance.beforeWitnesses = true)
    (hqueued : next.holdsRanges = false ∨ afterAdvance.holdsRanges = false →
      run.queuedRanges = none)
    {updateRequired : Bool} {answers : TipAnswers}
    (hkeeps : answers.update.KeepsPending s.wallet) :
    (s.refreshTip run path next afterAdvance updateRequired answers).Witnessed := by
  have hmoves (required : Bool) :
      (s.goto { run with completionTipValidationRequired := required } next).Witnessed :=
    h.goOn (.of_before hnext hsignal hranges fun hholds => hqueued (.inl hholds))
  unfold Engine.refreshTip
  split
  · exact attemptFailed_witnessed h.history run _
  split
  · exact attemptFailed_witnessed h.history run _
  · exact hmoves false
  · exact hmoves true
  · exact attemptFailed_witnessed h.history run _
  · exact rewindForConfirmedTipReorg_witnessed h hpath _
  split
  · rename_i wallet hupdate
    rw [hupdate] at hkeeps
    refine ⟨fun run' hs' => ?_,h.history.cons trivial⟩
    cases hs'
    exact .of_before hafter hsignal (RangesKnown.advance hranges hkeeps) fun hholds => hqueued (.inr hholds)
  · split
    · exact attemptFailed_witnessed h.history run _
    · exact hmoves true

theorem periodicRefresh_witnessed (h : s.Witnessed) (hs : s.run = some run)
    (hpoint : run.point = .loopStart) {age : Nat} {answers : Option TipAnswers}
    (hkeeps : ∀ tip, answers = some tip → tip.update.KeepsPending s.wallet) :
    (s.periodicRefresh run age answers).Witnessed := by
  have hsignal := (h.run run hs).before (by rw [hpoint]; rfl)
  have hranges := (h.run run hs).ranges (.inl hpoint)
  unfold Engine.periodicRefresh
  split
  · exact h.goOn (.of_before rfl hsignal hranges nofun)
  cases answers with
  | none => exact h.goOn (.of_before rfl hsignal hranges nofun)
  | some tip =>
    exact refreshTip_witnessed h hsignal hranges (fun hpath => absurd rfl hpath) rfl rfl
      (fun hholds => by rcases hholds with hholds | hholds <;> cases hholds) (hkeeps tip rfl)

theorem pickRange_witnessed (h : s.Witnessed) (hs : s.run = some run)
    (hpoint : run.point = .picking) (baseBatchSize : Nat) :
    (s.pickRange run baseBatchSize).Witnessed := by
  have hsignal := (h.run run hs).before (by rw [hpoint]; rfl)
  have hranges := (h.run run hs).ranges (.inr hpoint)
  unfold Engine.pickRange
  dsimp only
  split
  · exact h.goOn (.of_before rfl hsignal (rangesKnown_none rfl) fun _ => rfl)
  rename_i range hfound
  split
  · exact attemptFailed_witnessed h.history _ _
  split
  · have hpending : s.wallet.pending ≠ 0 := by
      have hmem := List.mem_of_find?_eq_some hfound
      have hrange := List.find?_some hfound
      cases hqueued : run.queuedRanges with
      | none =>
        rw [hqueued] at hmem
        intro hzero
        rw [pendingScanBlocks_eq_zero.mp hzero range hmem] at hrange
        cases hrange
      | some ranges =>
        rw [hqueued] at hmem
        refine hranges ranges hqueued fun hzero => ?_
        rw [pendingScanBlocks_eq_zero.mp hzero range hmem] at hrange
        cases hrange
    exact h.goOn ⟨nofun,fun _ hzero => absurd hzero hpending,nofun,fun _ => rfl,by simp⟩
  · exact h.goOn (.of_before rfl hsignal (rangesKnown_none rfl) fun _ => rfl)

theorem drainRefresh_witnessed (h : s.Witnessed) (hs : s.run = some run)
    (hpoint : run.point = .drained) {validationAge : Nat} {answers : TipAnswers}
    (hkeeps : answers.update.KeepsPending s.wallet) :
    (s.drainRefresh run validationAge answers).Witnessed := by
  have hsignal := (h.run run hs).before (by rw [hpoint]; rfl)
  have hqueued := (h.run run hs).queued (by rw [hpoint]; rfl)
  unfold Engine.drainRefresh
  split
  · exact refreshTip_witnessed h hsignal (rangesKnown_none hqueued) (fun _ => hqueued) rfl rfl
      (fun _ => hqueued) hkeeps
  · exact h.goOn (.of_before rfl hsignal (rangesKnown_none hqueued) fun _ => hqueued)

theorem checkWitnesses_witnessed (h : s.Witnessed) (hs : s.run = some run)
    (hpoint : run.point = .checkingWitnesses) {readable : Bool} {answer : WitnessAnswer}
    (hguard : KeepsSignal (.checkWitnesses readable answer) s) :
    (s.checkWitnesses run readable answer).Witnessed := by
  have hsignal := (h.run run hs).before (by rw [hpoint]; rfl)
  have hqueued := (h.run run hs).queued (by rw [hpoint]; rfl)
  unfold KeepsSignal keepsSignal at hguard
  rw [hs] at hguard
  dsimp only at hguard
  unfold Engine.checkWitnesses
  cases hdecision : witnessCheckDecision s.rows readable run.currentTipHeight
      run.forceWitnessCheckThisRun with
  | skip lastCleanHeight ageBlocks =>
    rw [hdecision] at hguard
    have hforce := not_forced_of_skip hdecision
    have hwitnessed : witnessed s.history = true := by
      rcases hsignal with hsignal | hsignal | hsignal
      · exact hsignal
      · simp [hsignal] at hguard
      · exact absurd hsignal (by rw [hforce]; exact Bool.false_ne_true)
    exact h.goOn (.of_past hwitnessed rfl hqueued)
  | run reason =>
    rw [hdecision] at hguard
    cases answer with
    | clean marked =>
      have hwitnessed : witnessed
          (.witnessesChecked (s.wallet.pending == 0) true :: s.history) = true := by
        simpa [witnessed] using hguard
      refine ⟨fun run' hs' => ?_,h.history.cons trivial⟩
      cases hs'
      exact .of_past hwitnessed rfl hqueued
    | rescan wallet =>
      have hchecked : Grounded WitnessedCompletion
          (.witnessesChecked (s.wallet.pending == 0) false :: s.history) := h.history.cons trivial
      have hqueue : Grounded WitnessedCompletion
          (.rescansQueued :: .witnessesChecked (s.wallet.pending == 0) false :: s.history) :=
        hchecked.cons trivial
      dsimp only
      split
      · exact attemptFailed_witnessed hchecked run _
      split
      · exact attemptFailed_witnessed hqueue _ _
      · refine ⟨fun run' hs' => ?_,hqueue⟩
        cases hs'
        exact .of_before rfl (.inr (.inr rfl)) (rangesKnown_none hqueued) fun _ => hqueued

theorem compareAnchorRoots_witnessed (h : s.Witnessed) (hs : s.run = some run)
    (hpoint : run.point = .comparingAnchor) (mismatchedAnchor : Option Nat) :
    (s.compareAnchorRoots run mismatchedAnchor).Witnessed := by
  have hwitnessed := (h.run run hs).past (by rw [hpoint]; rfl)
  have hqueued := (h.run run hs).queued (by rw [hpoint]; rfl)
  cases mismatchedAnchor with
  | none => exact h.goOn (.of_past hwitnessed rfl hqueued)
  | some anchorHeight => exact h.goOn (.of_other rfl nofun rfl fun _ => hqueued)

theorem repairAnchorRoot_witnessed (h : s.Witnessed) (hs : s.run = some run) {anchorHeight : Nat}
    (hpoint : run.point = .repairingAnchor anchorHeight) (truncated : Option WalletView) :
    (s.repairAnchorRoot run anchorHeight truncated).Witnessed := by
  have hqueued := (h.run run hs).queued (by rw [hpoint]; rfl)
  unfold Engine.repairAnchorRoot
  split
  · exact attemptFailed_witnessed h.history run _
  cases truncated with
  | none => exact h.goOn (.of_other rfl nofun rfl fun _ => hqueued)
  | some wallet =>
    refine ⟨fun run' hs' => ?_,h.history.cons trivial⟩
    cases hs'
    exact .of_other rfl nofun rfl fun _ => hqueued

theorem checkCompletion_witnessed (h : s.Witnessed) (hs : s.run = some run)
    (hpoint : run.point = .checkingCompletion) : (s.checkCompletion run).Witnessed := by
  have hwitnessed := (h.run run hs).past (by rw [hpoint]; rfl)
  have hqueued := (h.run run hs).queued (by rw [hpoint]; rfl)
  unfold Engine.checkCompletion
  split
  · exact attemptFailed_witnessed h.history run _
  · exact h.goOn (.of_past hwitnessed rfl hqueued)

theorem scanBatch_witnessed (h : s.Witnessed) (hs : s.run = some run) {range : ScanRange}
    (hpoint : run.point = .scanning range) (result : Except SyncError WalletView) :
    (s.scanBatch run range result).Witnessed := by
  have hsignal := (h.run run hs).before (by rw [hpoint]; rfl)
  have hqueued := (h.run run hs).queued (by rw [hpoint]; rfl)
  cases result with
  | ok wallet =>
    refine ⟨fun run' hs' => ?_,h.history⟩
    cases hs'
    exact .of_before rfl hsignal (rangesKnown_none hqueued) fun _ => hqueued
  | error error =>
    unfold Engine.scanBatch
    dsimp only
    split
    · unfold Engine.rewindAfterScan
      split
      · split
        · exact attemptFailed_witnessed h.history run _
        · exact h.goOn (.of_other rfl nofun rfl fun _ => hqueued)
      · split
        · exact attemptFailed_witnessed h.history run _
        · exact h.goOn (.of_other rfl nofun rfl fun _ => hqueued)
    · exact attemptFailed_witnessed h.history run _
    · exact attemptFailed_witnessed h.history run _

theorem postBatchRefresh_witnessed (h : s.Witnessed) (hs : s.run = some run)
    (hpoint : run.point = .afterBatch) {enhanced : WalletView} {answers : Option TipAnswers}
    (hkeeps : ∀ tip, answers = some tip → tip.update.KeepsPending enhanced) :
    (s.postBatchRefresh run enhanced answers).Witnessed := by
  have hsignal := (h.run run hs).before (by rw [hpoint]; rfl)
  have hqueued := (h.run run hs).queued (by rw [hpoint]; rfl)
  have h' : Engine.Witnessed { s with wallet := enhanced } := by
    refine ⟨fun run' hs' => ?_,h.history⟩
    rw [hs] at hs'
    cases hs'
    exact .of_before (by rw [hpoint]; rfl) hsignal (rangesKnown_none hqueued) fun _ => hqueued
  unfold Engine.postBatchRefresh
  cases answers with
  | none => exact h'.goOn (.of_before rfl hsignal (rangesKnown_none hqueued) nofun)
  | some tip =>
    exact refreshTip_witnessed h' hsignal (rangesKnown_none hqueued) (fun _ => hqueued) rfl rfl
      (fun _ => hqueued) (hkeeps tip rfl)

theorem finalCheck_witnessed (h : s.Witnessed) (hs : s.run = some run)
    (hpoint : run.point = .finishing) : (s.finalCheck run).Witnessed := by
  have hqueued := (h.run run hs).queued (by rw [hpoint]; rfl)
  unfold Engine.finalCheck
  split
  · exact attemptFailed_witnessed h.history run _
  · rename_i fullyScannedHeight finalTipHeight hcheck
    have hdrained := (ensureCompleteScanState_ok hcheck).2.drained
    have hwitnessed := (h.run run hs).finishing hpoint (pendingScanBlocks_eq_zero.mpr hdrained)
    refine ⟨fun run' hs' => ?_,h.history.cons trivial⟩
    cases hs'
    exact .of_past hwitnessed rfl hqueued

theorem markSyncCompleted_witnessed (h : s.Witnessed) (hs : s.run = some run)
    {finalTipHeight : Nat} (hpoint : run.point = .completing finalTipHeight) :
    (s.markSyncCompleted run finalTipHeight).Witnessed := by
  have hwitnessed := (h.run run hs).past (by rw [hpoint]; rfl)
  have hqueued := (h.run run hs).queued (by rw [hpoint]; rfl)
  refine ⟨fun run' hs' => ?_,h.history.cons hwitnessed⟩
  cases hs'
  exact .of_past hwitnessed rfl hqueued

theorem reportCompletion_witnessed (h : s.Witnessed) (hs : s.run = some run)
    {finalTipHeight : Nat}
    (hpoint : run.point = .reporting finalTipHeight ∨ run.point = .reported finalTipHeight) :
    (s.reportCompletion run finalTipHeight).Witnessed := by
  have hpast : run.point.pastWitnesses = true := by rcases hpoint with hp | hp <;> rw [hp] <;> rfl
  have hholds : run.point.holdsRanges = false := by rcases hpoint with hp | hp <;> rw [hp] <;> rfl
  refine ⟨fun run' hs' => ?_,h.history.cons trivial⟩
  cases hs'
  exact .of_past ((h.run run hs).past hpast) rfl ((h.run run hs).queued hholds)

theorem started_signalled (run : SyncRun) (history : List SyncEvent) :
    Signalled run (.started :: history) := by
  unfold Signalled
  simp only [witnessed,signalLost]
  cases witnessed history <;> simp

theorem runStep_witnessed (h : s.Witnessed) (hs : s.run = some run) {input : SyncInput}
    (hguard : KeepsSignal input s) {s' : Engine}
    (hstep : s.runStep run input run.point = .ok s') : s'.Witnessed := by
  generalize hpoint : run.point = point at hstep
  unfold Engine.runStep at hstep
  split at hstep
  · split at hstep
    · cases hstep
      exact h.endRun
    · cases hstep
  · split at hstep
    · cases hstep
      exact attemptFailed_witnessed h.history run _
    · cases hstep
  · cases hstep
    exact h.goOn (.of_other rfl nofun rfl fun _ => rfl)
  · cases hstep
    have hqueued := (h.run run hs).queued (by rw [hpoint]; rfl)
    refine ⟨fun run' hs' => ?_,h.history.cons trivial⟩
    cases hs'
    exact .of_before rfl (started_signalled run s.history) (rangesKnown_none hqueued)
      fun _ => hqueued
  · split at hstep
    · cases hstep
      exact initialTip_witnessed h hs hpoint _
    · cases hstep
  · cases hstep
    exact truncate_witnessed h hs hpoint _ _
  · cases hstep
    exact requeue_witnessed h hs hpoint _
  · cases hstep
    exact prepare_witnessed h hs hpoint _
  · split at hstep
    · rename_i answers hkeeps
      cases hstep
      refine periodicRefresh_witnessed h hs hpoint fun tip htip => ?_
      subst htip
      exact of_decide_eq_true hkeeps
    · cases hstep
  · cases hstep
    exact pickRange_witnessed h hs hpoint _
  · split at hstep
    · rename_i hkeeps
      cases hstep
      exact drainRefresh_witnessed h hs hpoint hkeeps
    · cases hstep
  · cases hstep
    exact checkWitnesses_witnessed h hs hpoint hguard
  · cases hstep
    exact compareAnchorRoots_witnessed h hs hpoint _
  · cases hstep
    exact repairAnchorRoot_witnessed h hs hpoint _
  · cases hstep
    exact checkCompletion_witnessed h hs hpoint
  · cases hstep
    exact scanBatch_witnessed h hs hpoint _
  · split at hstep
    · rename_i enhanced answers hkeeps
      cases hstep
      refine postBatchRefresh_witnessed h hs hpoint fun tip htip => ?_
      subst htip
      exact of_decide_eq_true hkeeps
    · cases hstep
  · cases hstep
    exact finalCheck_witnessed h hs hpoint
  · cases hstep
    exact markSyncCompleted_witnessed h hs hpoint
  · cases hstep
    exact reportCompletion_witnessed h hs (.inl hpoint)
  · cases hstep
    exact reportCompletion_witnessed h hs (.inr hpoint)
  · cases hstep
    exact h.endRun
  · cases hstep

theorem Witnessed.status (h : s.Witnessed) {rows : SyncMeta} {readers : List StatusRead}
    {e : SyncEvent} (he : e.ofStatus = true) :
    Engine.Witnessed
      { s with rows := rows, readers := readers, history := e :: s.history } := by
  refine ⟨fun run hs => ?_,h.history.cons ?_⟩
  · have hrun := h.run run hs
    cases e with
    | statusInitialized => exact ⟨hrun.past,hrun.finishing,hrun.before,hrun.queued,hrun.ranges⟩
    | statusReturned => exact ⟨hrun.past,hrun.finishing,hrun.before,hrun.queued,hrun.ranges⟩
    | started | tipAccepted | truncated | rescansQueued | witnessesChecked | finalCheck | completed
    | completionReported => cases he
  · cases e <;> trivial

theorem advanceStatus_witnessed (h : s.Witnessed) {reader : Nat} {s' : Engine}
    (hstep : s.advanceStatus reader = .ok s') : s'.Witnessed := by
  unfold Engine.advanceStatus at hstep
  split at hstep
  · cases hstep
  dsimp only at hstep
  split at hstep
  · cases hstep
    exact h.status rfl
  · split at hstep
    · cases hstep
      exact h.status rfl
    · cases hstep
      exact ⟨h.run,h.history⟩

theorem step_witnessed (h : s.Witnessed) {input : SyncInput} (hguard : KeepsSignal input s)
    {s' : Engine} (hstep : Engine.step input s = .ok s') : s'.Witnessed := by
  unfold Engine.step at hstep
  split at hstep
  · split at hstep
    · cases hstep
      exact h.goOn (.of_other rfl nofun rfl fun _ => rfl)
    · cases hstep
  · cases hstep
    exact h.endRun
  · cases hstep
    exact ⟨h.run,h.history⟩
  · exact advanceStatus_witnessed h hstep
  · split at hstep
    · cases hstep
    · rename_i run hs
      exact runStep_witnessed h hs hguard hstep

end Engine

/-- In every run of the engine in which no check is skipped after its signal was lost, and each check
that is still due runs on an empty queue, every completion is preceded by a clean check of the
witnesses since the last rewind and the last queued rescan. -/
theorem completion_witnessed (wallet : WalletView) {s : Engine}
    (h : GuardedRuns Engine.step KeepsSignal (.init wallet) s) {newer older : List SyncEvent}
    {height : Nat} (hcompleted : s.history = newer ++ .completed height :: older) :
    witnessed older = true := by
  have hrun : s.Witnessed := h.invariant (P := Engine.Witnessed)
    (fun _ _ _ hs hguard hstep => Engine.step_witnessed hs hguard hstep)
    (Engine.init_witnessed wallet)
  exact hrun.history newer _ older hcompleted

section Runs

/-- A run that meets a continuity error, rewinds the wallet and scans to the tip again. -/
def rewoundSync : List SyncInput :=
  let queued := unscannedWallet
  let rewound := queuedWallet 41 100 (by decide)
  let scanned := scannedWallet 100 (tipHash 1)
  [.runSyncInner,.markSyncStarted,.initialTip (tipAnswers 100 (tipHash 1) queued),.prepare queued,
    .periodicRefresh 0 none,.pickRange 2000,.scanBatch (.error (.continuity 50)),
    .truncate (.truncated 40 rewound) (.failed false),.requeue rewound,.periodicRefresh 0 none,
    .pickRange 2000,.scanBatch (.ok scanned),
    .postBatchRefresh scanned (some (tipAnswers 100 (tipHash 1) scanned))] ++
    completes (tipAnswers 100 (tipHash 1) scanned) (.clean true)

/-- A run whose first tip has the height of the wallet's and another hash. -/
def reorgSync : List SyncInput :=
  let rewound := queuedWallet 100 100 (by decide)
  let scanned := scannedWallet 100 (tipHash 2)
  [.runSyncInner,.markSyncStarted,.initialTip (tipAnswers 100 (tipHash 2) scanned),
    .truncate (.truncated 99 rewound) (.failed false),.requeue rewound,.prepare rewound,
    .periodicRefresh 0 none,.pickRange 2000,.scanBatch (.ok scanned),
    .postBatchRefresh scanned (some (tipAnswers 100 (tipHash 2) scanned))] ++
    completes (tipAnswers 100 (tipHash 2) scanned) (.clean true)

end Runs

theorem rewoundSync_witnessed : ∃ s wallet older,
    GuardedRuns Engine.step KeepsSignal (.init emptyWallet) s ∧
    s.history = .completionReported 100 :: .completed 100 :: .finalCheck wallet ::
      .witnessesChecked true true :: .truncated .scan :: older ∧
    witnessed (.finalCheck wallet :: .witnessesChecked true true :: .truncated .scan :: older) =
      true := by
  obtain ⟨s,hs,wallet,older,hhistory⟩ : ∃ s,
      guardedExecute Engine.step KeepsSignal rewoundSync (.init emptyWallet) = some s ∧
      ∃ wallet older, s.history = .completionReported 100 :: .completed 100 ::
        .finalCheck wallet :: .witnessesChecked true true :: .truncated .scan :: older :=
    ⟨_,rfl,_,_,rfl⟩
  have hruns := guardedRuns_of_execute hs
  have hsplit : s.history = [.completionReported 100] ++ .completed 100 ::
      .finalCheck wallet :: .witnessesChecked true true :: .truncated .scan :: older := hhistory
  exact ⟨s,wallet,older,hruns,hhistory,completion_witnessed emptyWallet hruns hsplit⟩

/-- A tip proves a reorg and the wallet is rewound; the clean marker of the run before lets this run
complete without a check. -/
theorem reorgCompletion_unwitnessed : ∃ s wallet older,
    Runs Engine.step (.init emptyWallet) s ∧
    s.history = .completionReported 100 :: .completed 100 :: .finalCheck wallet ::
      .tipAccepted 100 :: .truncated .initialTip :: .started :: older ∧
    witnessed (.finalCheck wallet :: .tipAccepted 100 :: .truncated .initialTip :: .started ::
      older) = false := by
  obtain ⟨s,hs,wallet,older,hhistory⟩ : ∃ s,
      execute Engine.step (firstSync ++ reorgSync) (.init emptyWallet) = .ok s ∧
      ∃ wallet older, s.history = .completionReported 100 :: .completed 100 ::
        .finalCheck wallet :: .tipAccepted 100 :: .truncated .initialTip :: .started :: older :=
    ⟨_,rfl,_,_,rfl⟩
  exact ⟨s,wallet,older,runs_of_execute hs,hhistory,rfl⟩

end CoppiceWallet.SyncEngine
