import Mathlib.Data.List.Dedup
import CoppiceWallet.Lib.Run
import CoppiceWallet.Store.Schedule

/-!
# Retention of anchor checkpoints

The ledger records which run refers to which checkpoint, and which row of a height owns the
retention in the tree. A height to release is staged under the sentinel run before the tree is
changed; the process may stop between any two calls, so the calls come in any order.
-/

namespace CoppiceWallet.Store

open CoppiceWallet.Lib

structure AnchorReference where
  network : WalletNetwork
  runId : Text
  checkpointHeight : Nat
  ownsRetention : Bool
deriving DecidableEq

def AnchorReference.key (r : AnchorReference) : WalletNetwork × Text × Nat :=
  (r.network,r.runId,r.checkpointHeight)

abbrev RetainedAnchors := Table AnchorReference (WalletNetwork × Text × Nat) AnchorReference.key

def retentionReleaseSentinelRunId : Text := []

/-- The anchors librustzcash retains by itself: the ZIP 318 grid from an activation height on. -/
structure AnchorRetention where
  nu63Activation : WalletNetwork → Option Nat
  blockCount : Nat

def isWalletDurableAnchor (retention : AnchorRetention) (network : WalletNetwork) (height : Nat) :
    Bool :=
  (retention.nu63Activation network).any (fun floor => decide (floor ≤ height)) &&
    decide (height % retention.blockCount = 0)

/-- A set, by its elements in the order of iteration. -/
structure DistinctList (α : Type) where
  toList : List α
  nodup : toList.Nodup

def ownsHeight (network : WalletNetwork) (height : Nat) (r : AnchorReference) : Bool :=
  decide (r.network = network) && decide (r.checkpointHeight = height) && r.ownsRetention

def currentlyOwned (network : WalletNetwork) (refs : RetainedAnchors) : List Nat :=
  (((refs.select fun r => decide (r.network = network)).filter
    AnchorReference.ownsRetention).map AnchorReference.checkpointHeight).dedup.insertionSort (· ≤ ·)

def releasedHeights (retention : AnchorRetention) (network : WalletNetwork)
    (desired : DistinctList (Text × Nat)) (refs : RetainedAnchors) : List Nat :=
  ((currentlyOwned network refs).filter fun height =>
    !(desired.toList.map Prod.snd).contains height).filter fun height =>
      !isWalletDurableAnchor retention network height

/-- The migration takes over a height that it owns, that nobody retained before, or that only a
build without the ledger can have retained. -/
def migrationOwns (retention : AnchorRetention) (network : WalletNetwork) (owned : List Nat)
    (retainedBefore : DistinctList Nat) (height : Nat) : Bool :=
  owned.contains height || !retainedBefore.toList.contains height ||
    !isWalletDurableAnchor retention network height

def recordReferences (network : WalletNetwork) (owns : Nat → Bool) :
    List (Text × Nat) → List Nat → RetainedAnchors → StoreResult RetainedAnchors
  | [], _, refs => .ok refs
  | (runId,checkpointHeight) :: desired, ownerAssigned, refs => do
    let ownsRetention := owns checkpointHeight && !ownerAssigned.contains checkpointHeight
    let refs ← okOr (refs.insert ⟨network,runId,checkpointHeight,ownsRetention⟩)
      "Record migration anchor retention reference"
    recordReferences network owns desired
      (if ownsRetention then checkpointHeight :: ownerAssigned else ownerAssigned) refs

def stageReleases (network : WalletNetwork) :
    List Nat → RetainedAnchors → StoreResult RetainedAnchors
  | [], refs => .ok refs
  | checkpointHeight :: release, refs => do
    let refs ← okOr (refs.insert ⟨network,retentionReleaseSentinelRunId,checkpointHeight,true⟩)
      "Stage migration anchor retention release"
    stageReleases network release refs

def stageMigrationAnchorRetentionReferences (retention : AnchorRetention)
    (network : WalletNetwork) (desired : DistinctList (Text × Nat))
    (retainedBeforeMaintenance : DistinctList Nat) (refs : RetainedAnchors) :
    StoreResult (List Nat × RetainedAnchors) := do
  let owned := currentlyOwned network refs
  let release := releasedHeights retention network desired refs
  let cleared := refs.delete fun r => decide (r.network = network)
  let recorded ← recordReferences network
    (migrationOwns retention network owned retainedBeforeMaintenance) desired.toList [] cleared
  let staged ← stageReleases network release recorded
  return (release,staged)

def isStagedRelease (network : WalletNetwork) (height : Nat) (r : AnchorReference) : Bool :=
  decide (r.network = network) && decide (r.runId = retentionReleaseSentinelRunId) &&
    decide (r.checkpointHeight = height)

def finishMigrationAnchorRetentionReleases (network : WalletNetwork) (released : List Nat)
    (refs : RetainedAnchors) : RetainedAnchors :=
  released.foldl (fun refs height => refs.delete (isStagedRelease network height)) refs

/-- The rows of the desired references, the first of a height owning it. -/
def referenceRows (network : WalletNetwork) (owns : Nat → Bool) :
    List (Text × Nat) → List Nat → List AnchorReference
  | [], _ => []
  | (runId,checkpointHeight) :: desired, ownerAssigned =>
    let ownsRetention := owns checkpointHeight && !ownerAssigned.contains checkpointHeight
    ⟨network,runId,checkpointHeight,ownsRetention⟩ :: referenceRows network owns desired
      (if ownsRetention then checkpointHeight :: ownerAssigned else ownerAssigned)

def releaseRow (network : WalletNetwork) (checkpointHeight : Nat) : AnchorReference :=
  ⟨network,retentionReleaseSentinelRunId,checkpointHeight,true⟩

variable {retention : AnchorRetention} {network : WalletNetwork} {owns : Nat → Bool}
  {refs refs' : RetainedAnchors} {desired : DistinctList (Text × Nat)}
  {retainedBefore : DistinctList Nat} {height : Nat}

theorem mem_currentlyOwned :
    height ∈ currentlyOwned network refs ↔ ∃ r ∈ refs.rows, ownsHeight network height r = true := by
  rw [currentlyOwned,List.mem_insertionSort,List.mem_dedup,List.mem_map]
  simp only [Table.select,List.mem_filter,ownsHeight,Bool.and_eq_true,decide_eq_true_eq]
  constructor
  · rintro ⟨r,⟨⟨hr,hnetwork⟩,howns⟩,hheight⟩
    exact ⟨r,hr,⟨hnetwork,hheight⟩,howns⟩
  · rintro ⟨r,hr,⟨hnetwork,hheight⟩,howns⟩
    exact ⟨r,⟨⟨hr,hnetwork⟩,howns⟩,hheight⟩

theorem mem_releasedHeights :
    height ∈ releasedHeights retention network desired refs ↔
      (∃ r ∈ refs.rows, ownsHeight network height r = true) ∧
      height ∉ desired.toList.map Prod.snd ∧
      isWalletDurableAnchor retention network height = false := by
  rw [releasedHeights,List.mem_filter,List.mem_filter,mem_currentlyOwned,and_assoc]
  simp

theorem releasedHeights_nodup : (releasedHeights retention network desired refs).Nodup := by
  refine (List.Nodup.filter _ (List.Nodup.filter _ ?_))
  exact (List.perm_insertionSort _ _).nodup_iff.mpr (List.nodup_dedup _)

theorem mem_referenceRows {entries : List (Text × Nat)} {assigned : List Nat}
    {r : AnchorReference} (hr : r ∈ referenceRows network owns entries assigned) :
    r.network = network ∧ r.checkpointHeight ∈ entries.map Prod.snd := by
  induction entries generalizing assigned with
  | nil => cases hr
  | cons entry entries ih =>
    rw [referenceRows,List.mem_cons] at hr
    rcases hr with rfl | hr
    · exact ⟨rfl,List.mem_cons_self⟩
    · exact (ih hr).imp_right (List.mem_cons_of_mem _)

theorem recordReferences_ok {entries : List (Text × Nat)} (owns : Nat → Bool)
    (assigned : List Nat)
    (hnodup : entries.Nodup)
    (hfresh : ∀ entry ∈ entries, (network,entry.1,entry.2) ∉ refs.rows.map AnchorReference.key) :
    ∃ refs', recordReferences network owns entries assigned refs = .ok refs' ∧
      refs'.rows = refs.rows ++ referenceRows network owns entries assigned := by
  induction entries generalizing assigned refs with
  | nil => exact ⟨refs,rfl,(List.append_nil _).symm⟩
  | cons entry entries ih =>
    obtain ⟨hentry,hnodup⟩ := List.nodup_cons.mp hnodup
    rw [List.forall_mem_cons] at hfresh
    obtain ⟨added,hadded,hrows⟩ := Table.insert_fresh (t := refs)
      (r := ⟨network,entry.1,entry.2,owns entry.2 && !assigned.contains entry.2⟩) hfresh.1
    have hnext : ∀ e ∈ entries, (network,e.1,e.2) ∉ added.rows.map AnchorReference.key := by
      intro e he hmem
      simp only [hrows,List.map_append,List.map_singleton,List.mem_append,List.mem_singleton,
        AnchorReference.key,Prod.mk.injEq,true_and] at hmem
      rcases hmem with hmem | ⟨hrun,hheight⟩
      · exact hfresh.2 e he hmem
      · exact hentry (Prod.ext hrun hheight ▸ he)
    obtain ⟨refs',hrest,hrest_rows⟩ := ih _ hnodup hnext
    refine ⟨refs',?_,?_⟩
    · rw [recordReferences,hadded,okOr_some,ok_bind]
      exact hrest
    · rw [hrest_rows,hrows,List.append_assoc]
      rfl

theorem stageReleases_ok {release : List Nat} (hnodup : release.Nodup)
    (hfresh : ∀ r ∈ refs.rows, r.network = network → r.checkpointHeight ∉ release) :
    ∃ refs', stageReleases network release refs = .ok refs' ∧
      refs'.rows = refs.rows ++ release.map (releaseRow network) := by
  induction release generalizing refs with
  | nil => exact ⟨refs,rfl,(List.append_nil _).symm⟩
  | cons checkpointHeight release ih =>
    obtain ⟨hheight,hnodup⟩ := List.nodup_cons.mp hnodup
    have hkey : AnchorReference.key (releaseRow network checkpointHeight) ∉
        refs.rows.map AnchorReference.key := by
      intro hmem
      obtain ⟨r,hr,hkey⟩ := List.mem_map.mp hmem
      simp only [AnchorReference.key,releaseRow,Prod.mk.injEq] at hkey
      exact hfresh r hr hkey.1 (by simp [hkey.2.2])
    obtain ⟨added,hadded,hrows⟩ := Table.insert_fresh hkey
    have hnext : ∀ r ∈ added.rows, r.network = network → r.checkpointHeight ∉ release := by
      intro r hr hnetwork hmem
      rw [hrows,List.mem_append,List.mem_singleton] at hr
      rcases hr with hr | rfl
      · exact hfresh r hr hnetwork (List.mem_cons_of_mem _ hmem)
      · exact hheight hmem
    obtain ⟨refs',hrest,hrest_rows⟩ := ih hnodup hnext
    refine ⟨refs',?_,?_⟩
    · rw [stageReleases]
      change okOr (refs.insert (releaseRow network checkpointHeight)) _ >>= _ = _
      rw [hadded,okOr_some,ok_bind]
      exact hrest
    · rw [hrest_rows,hrows,List.append_assoc]
      rfl

theorem stage_rows (retention : AnchorRetention) (network : WalletNetwork)
    (desired : DistinctList (Text × Nat)) (retainedBefore : DistinctList Nat)
    (refs : RetainedAnchors) :
    ∃ staged, stageMigrationAnchorRetentionReferences retention network desired retainedBefore
        refs = .ok (releasedHeights retention network desired refs,staged) ∧
      staged.rows = refs.rows.filter (fun r => !decide (r.network = network)) ++
        referenceRows network (migrationOwns retention network (currentlyOwned network refs)
          retainedBefore) desired.toList [] ++
        (releasedHeights retention network desired refs).map (releaseRow network) := by
  have hcleared : ∀ r ∈ (refs.delete fun r => decide (r.network = network)).rows,
      r.network ≠ network := by
    intro r hr
    exact of_decide_eq_false (Table.mem_delete.mp hr).2
  have hfresh : ∀ entry ∈ desired.toList, (network,entry.1,entry.2) ∉
      (refs.delete fun r => decide (r.network = network)).rows.map AnchorReference.key := by
    intro entry _ hmem
    obtain ⟨r,hr,hkey⟩ := List.mem_map.mp hmem
    exact hcleared r hr (Prod.mk.inj hkey).1
  obtain ⟨recorded,hrecorded,hrows⟩ := recordReferences_ok
    (migrationOwns retention network (currentlyOwned network refs) retainedBefore) []
    desired.nodup hfresh
  have hreleasable : ∀ r ∈ recorded.rows, r.network = network →
      r.checkpointHeight ∉ releasedHeights retention network desired refs := by
    intro r hr hnetwork hrelease
    rw [hrows,List.mem_append] at hr
    rcases hr with hr | hr
    · exact hcleared r hr hnetwork
    · exact (mem_releasedHeights.mp hrelease).2.1 (mem_referenceRows hr).2
  obtain ⟨staged,hstaged,hstaged_rows⟩ := stageReleases_ok releasedHeights_nodup hreleasable
  refine ⟨staged,?_,?_⟩
  · unfold stageMigrationAnchorRetentionReferences
    dsimp only
    rw [hrecorded,ok_bind,hstaged]
    rfl
  · rw [hstaged_rows,hrows]
    rfl

theorem referenceRows_owners (owns : Nat → Bool) (entries : List (Text × Nat))
    (assigned : List Nat) :
    (referenceRows network owns entries assigned).countP (ownsHeight network height) =
      if owns height = true ∧ height ∉ assigned ∧ height ∈ entries.map Prod.snd then 1 else 0 := by
  induction entries generalizing assigned with
  | nil => simp [referenceRows]
  | cons entry entries ih =>
    obtain ⟨runId,checkpointHeight⟩ := entry
    rw [referenceRows,List.countP_cons,ih]
    by_cases hheight : checkpointHeight = height
    · subst hheight
      by_cases howns : owns checkpointHeight = true <;>
        by_cases hassigned : checkpointHeight ∈ assigned <;> simp [ownsHeight,howns,hassigned]
    · have hne : height ≠ checkpointHeight := Ne.symm hheight
      have hassigned : ∀ c : Bool, height ∈ (if c = true then checkpointHeight :: assigned
          else assigned) ↔ height ∈ assigned := by
        intro c
        cases c <;> simp [hne]
      have hmem : height ∈ ((runId,checkpointHeight) :: entries).map Prod.snd ↔
          height ∈ entries.map Prod.snd := by
        rw [List.map_cons,List.mem_cons]
        exact or_iff_right hne
      simp only [hassigned,hmem]
      simp [ownsHeight,hheight]

theorem releaseRow_owners (release : List Nat) :
    (release.map (releaseRow network)).countP (ownsHeight network height) =
      release.count height := by
  rw [List.countP_map,List.count]
  refine List.countP_congr fun h _ => ?_
  simp only [ownsHeight,releaseRow,Function.comp_apply,decide_true,Bool.true_and,Bool.and_true,
    beq_iff_eq]
  exact decide_eq_true_iff

theorem stage_owners {release : List Nat} {staged : RetainedAnchors}
    (h : stageMigrationAnchorRetentionReferences retention network desired retainedBefore refs =
      .ok (release,staged)) (other : WalletNetwork) (height : Nat) :
    staged.count (ownsHeight other height) =
      if other ≠ network then refs.count (ownsHeight other height)
      else if height ∈ desired.toList.map Prod.snd then
        if migrationOwns retention network (currentlyOwned network refs) retainedBefore height
        then 1 else 0
      else if height ∈ release then 1 else 0 := by
  obtain ⟨staged',hstaged,hrows⟩ := stage_rows retention network desired retainedBefore refs
  rw [h] at hstaged
  cases hstaged
  rw [Table.count,hrows,List.countP_append,List.countP_append,List.countP_filter]
  by_cases hother : other = network
  · subst hother
    have hkept : refs.rows.countP (fun r => ownsHeight other height r &&
        !decide (r.network = other)) = 0 := by
      rw [List.countP_eq_zero]
      intro r _
      by_cases hr : r.network = other <;> simp [ownsHeight,hr]
    rw [hkept,referenceRows_owners,releaseRow_owners,List.Nodup.count releasedHeights_nodup]
    simp only [ne_eq,not_true_eq_false,if_false,List.not_mem_nil,not_false_eq_true,true_and,
      Nat.zero_add]
    by_cases hdesired : height ∈ desired.toList.map Prod.snd
    · have hrelease : height ∉ releasedHeights retention other desired refs :=
        fun hmem => (mem_releasedHeights.mp hmem).2.1 hdesired
      simp [hdesired,hrelease]
    · simp [hdesired]
  · have hkept : refs.rows.countP (fun r => ownsHeight other height r &&
        !decide (r.network = network)) = refs.count (ownsHeight other height) := by
      refine List.countP_congr fun r _ => ?_
      by_cases hr : r.network = other <;> simp [ownsHeight,hr,hother]
    have hreferences : (referenceRows network (migrationOwns retention network
        (currentlyOwned network refs) retainedBefore) desired.toList []).countP
          (ownsHeight other height) = 0 := by
      rw [List.countP_eq_zero]
      intro r hr
      simp [ownsHeight,(mem_referenceRows hr).1,Ne.symm hother]
    have hreleases : ((releasedHeights retention network desired refs).map
        (releaseRow network)).countP (ownsHeight other height) = 0 := by
      rw [List.countP_map,List.countP_eq_zero]
      intro h _
      simp [ownsHeight,releaseRow,Ne.symm hother]
    rw [hkept,hreferences,hreleases,if_pos hother,Nat.add_zero]

theorem finish_owners_le (released : List Nat) (refs : RetainedAnchors) (other : WalletNetwork)
    (height : Nat) :
    (finishMigrationAnchorRetentionReleases network released refs).count
      (ownsHeight other height) ≤ refs.count (ownsHeight other height) := by
  induction released generalizing refs with
  | nil => exact le_refl _
  | cons h released ih =>
    apply le_trans (ih _)
    exact List.Sublist.countP_le List.filter_sublist

theorem finish_owners_of_not_mem {released : List Nat} (refs : RetainedAnchors)
    {other : WalletNetwork} (hnot : other = network → height ∉ released) :
    (finishMigrationAnchorRetentionReleases network released refs).count
      (ownsHeight other height) = refs.count (ownsHeight other height) := by
  induction released generalizing refs with
  | nil => rfl
  | cons h released ih =>
    have hrest : other = network → height ∉ released :=
      fun hsame hmem => hnot hsame (List.mem_cons_of_mem _ hmem)
    rw [finishMigrationAnchorRetentionReleases,List.foldl_cons,← finishMigrationAnchorRetentionReleases,
      ih _ hrest,Table.count,Table.delete,List.countP_filter]
    refine List.countP_congr fun r _ => ?_
    by_cases howns : ownsHeight other height r = true
    · have hkept : isStagedRelease network h r = false := by
        simp only [ownsHeight,Bool.and_eq_true,decide_eq_true_eq] at howns
        by_cases hsame : other = network
        · have hne : height ≠ h := fun heq => hnot hsame (heq ▸ List.mem_cons_self)
          simp [isStagedRelease,howns.1.2,hne]
        · simp [isStagedRelease,howns.1.1,hsame]
      simp [howns,hkept]
    · simp [howns]

/-- The calls of the maintenance, with the arguments they are given. The tree is changed between
them and by nothing here; a call that stops before its commit is no step. -/
inductive AnchorRetentionCall
  | stage (network : WalletNetwork) (desired : DistinctList (Text × Nat))
      (retainedBeforeMaintenance : DistinctList Nat)
  | finish (network : WalletNetwork) (released : List Nat)

namespace AnchorRetentionCall

def apply (retention : AnchorRetention) (call : AnchorRetentionCall) (refs : RetainedAnchors) :
    StoreResult RetainedAnchors :=
  match call with
  | .stage network desired retainedBefore =>
    Prod.snd <$>
      stageMigrationAnchorRetentionReferences retention network desired retainedBefore refs
  | .finish network released =>
    .ok (finishMigrationAnchorRetentionReleases network released refs)

def finishes (network : WalletNetwork) (height : Nat) : AnchorRetentionCall → Prop
  | .stage .. => False
  | .finish other released => network = other ∧ height ∈ released

/-- One owner at most, of every height of every network. -/
def OwnedOnce (refs : RetainedAnchors) : Prop :=
  ∀ network height, refs.count (ownsHeight network height) ≤ 1

theorem apply_ownedOnce {call : AnchorRetentionCall} (honce : OwnedOnce refs)
    (h : call.apply retention refs = .ok refs') : OwnedOnce refs' := by
  intro other height
  cases call with
  | stage network desired retainedBefore =>
    obtain ⟨⟨release,staged⟩,hstage,rfl⟩ := map_ok h
    rw [stage_owners hstage other height]
    split
    · exact honce other height
    · split <;> split <;> omega
  | finish network released =>
    cases h
    exact le_trans (finish_owners_le _ _ _ _) (honce other height)

end AnchorRetentionCall

/-- The migration owns a height through one of its rows. -/
def OwnsRetention (refs : RetainedAnchors) (network : WalletNetwork) (height : Nat) : Prop :=
  ∃ r ∈ refs.rows, ownsHeight network height r = true

theorem ownsRetention_iff :
    OwnsRetention refs network height ↔ 0 < refs.count (ownsHeight network height) := by
  rw [Table.count,List.countP_pos_iff]
  rfl

/-- What a stage call offers for release: the owned heights, but for what is wanted again and for
what the wallet retains by itself. -/
theorem mem_release {release : List Nat} {staged : RetainedAnchors}
    (h : stageMigrationAnchorRetentionReferences retention network desired retainedBefore refs =
      .ok (release,staged)) :
    height ∈ release ↔ OwnsRetention refs network height ∧
      height ∉ desired.toList.map Prod.snd ∧
      isWalletDurableAnchor retention network height = false := by
  obtain ⟨staged',hstaged,_⟩ := stage_rows retention network desired retainedBefore refs
  rw [h] at hstaged
  cases hstaged
  exact mem_releasedHeights

theorem AnchorRetentionCall.apply_ownsRetention {call : AnchorRetentionCall}
    (howns : OwnsRetention refs network height)
    (hdurable : isWalletDurableAnchor retention network height = false)
    (hfinish : ¬ call.finishes network height) (h : call.apply retention refs = .ok refs') :
    OwnsRetention refs' network height := by
  rw [ownsRetention_iff] at howns ⊢
  cases call with
  | stage other desired retainedBefore =>
    obtain ⟨⟨release,staged⟩,hstage,rfl⟩ := map_ok h
    rw [stage_owners hstage network height]
    by_cases hother : network = other
    · subst hother
      rw [if_neg (not_not.mpr rfl)]
      by_cases hdesired : height ∈ desired.toList.map Prod.snd
      · have hmigration : migrationOwns retention network (currentlyOwned network refs)
            retainedBefore height = true := by
          rw [migrationOwns,hdurable,Bool.not_false,Bool.or_true]
        rw [if_pos hdesired,if_pos hmigration]
        exact Nat.one_pos
      · have hrelease : height ∈ release :=
          (mem_release hstage).mpr ⟨ownsRetention_iff.mpr howns,hdesired,hdurable⟩
        rw [if_neg hdesired,if_pos hrelease]
        exact Nat.one_pos
    · rw [if_pos hother]
      exact howns
  | finish other released =>
    cases h
    rw [finish_owners_of_not_mem refs fun hsame hmem => hfinish ⟨hsame,hmem⟩]
    exact howns

/-- Over any calls, in any order and with any arguments: what is offered for release is neither
wanted nor durable, a height has one owner at most, and the migration keeps an owned height until
it is finished, offering it again with every stage call that does not want it. -/
theorem anchorRetention_accounted
    (h : Runs (AnchorRetentionCall.apply retention) Table.empty refs) :
    (∀ network desired retainedBefore, ∃ release staged,
      stageMigrationAnchorRetentionReferences retention network desired retainedBefore refs =
        .ok (release,staged) ∧
      ∀ height ∈ release, height ∉ desired.toList.map Prod.snd ∧
        isWalletDurableAnchor retention network height = false) ∧
    (∀ network height, refs.count (ownsHeight network height) ≤ 1) ∧
    ∀ network height later, OwnsRetention refs network height →
      isWalletDurableAnchor retention network height = false →
      GuardedRuns (AnchorRetentionCall.apply retention)
        (fun call _ => ¬ call.finishes network height) refs later →
      OwnsRetention later network height ∧
      ∀ desired retainedBefore release staged,
        stageMigrationAnchorRetentionReferences retention network desired retainedBefore later =
          .ok (release,staged) →
        height ∈ desired.toList.map Prod.snd ∨ height ∈ release := by
  refine ⟨?_,?_,?_⟩
  · intro network desired retainedBefore
    obtain ⟨staged,hstaged,_⟩ := stage_rows retention network desired retainedBefore refs
    exact ⟨_,staged,hstaged,fun height hmem => ((mem_release hstaged).mp hmem).2⟩
  · have hempty : AnchorRetentionCall.OwnedOnce Table.empty := fun _ _ => Nat.zero_le 1
    exact h.invariant (fun _ _ _ honce hstep => AnchorRetentionCall.apply_ownedOnce honce hstep)
      hempty
  · intro network height later howns hdurable hlater
    have hkept : OwnsRetention later network height := by
      refine hlater.invariant (P := fun refs => OwnsRetention refs network height) ?_ howns
      intro call before after howns hfinish hstep
      exact AnchorRetentionCall.apply_ownsRetention howns hdurable hfinish hstep
    refine ⟨hkept,fun desired retainedBefore release staged hstage => ?_⟩
    by_cases hdesired : height ∈ desired.toList.map Prod.snd
    · exact .inl hdesired
    · exact .inr ((mem_release hstage).mpr ⟨hkept,hdesired,hdurable⟩)

/-! The run of a checkpoint that was pinned, then dropped, in a process that stopped before it
removed the pin. -/

def regtestRetention : AnchorRetention := ⟨fun _ => some 2,144⟩

def noReferences : DistinctList (Text × Nat) := ⟨[],.nil⟩

def pinnedReferences : DistinctList (Text × Nat) :=
  ⟨[("run".toList,100),("run".toList,144)],by decide⟩

def interruptedRelease : List AnchorRetentionCall :=
  [.stage .regtest pinnedReferences ⟨[144],by decide⟩,.stage .regtest noReferences ⟨[],.nil⟩]

theorem interruptedRelease_accounted : ∃ refs,
    execute (AnchorRetentionCall.apply regtestRetention) interruptedRelease Table.empty =
      .ok refs ∧
    ∃ release staged, stageMigrationAnchorRetentionReferences regtestRetention .regtest
      noReferences ⟨[],.nil⟩ refs = .ok (release,staged) ∧ 100 ∈ release ∧ 144 ∉ release := by
  obtain ⟨refs,hrefs,howns⟩ : ∃ refs,
      execute (AnchorRetentionCall.apply regtestRetention) interruptedRelease Table.empty =
        .ok refs ∧ OwnsRetention refs .regtest 100 := ⟨_,rfl,_,List.mem_cons_self,rfl⟩
  obtain ⟨hstage,_,howned⟩ := anchorRetention_accounted (runs_of_execute hrefs)
  obtain ⟨release,staged,hstaged,hsound⟩ := hstage .regtest noReferences ⟨[],.nil⟩
  obtain ⟨_,hoffered⟩ := howned .regtest 100 refs howns rfl (.refl _)
  refine ⟨refs,hrefs,release,staged,hstaged,?_,fun hmem => ?_⟩
  · exact (hoffered _ _ _ _ hstaged).resolve_left List.not_mem_nil
  · exact absurd (hsound 144 hmem).2 (by decide)

end CoppiceWallet.Store
