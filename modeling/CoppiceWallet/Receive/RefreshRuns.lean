import CoppiceWallet.Lib.Gather
import CoppiceWallet.Lib.Result
import CoppiceWallet.Receive.RefreshPass

/-! # What a pass over the refreshes leaves -/

namespace CoppiceWallet.Receive

open CoppiceWallet.Lib

variable {O E : Type} {tipHeight : Nat}

theorem prioritize_perm (active : Option String) (pending : List TransparentRefresh) :
    (prioritizePendingTransparentRefreshes active pending).Perm pending := by
  cases active with
  | none => exact .refl _
  | some uuid =>
    rw [prioritizePendingTransparentRefreshes]
    split
    · exact List.mergeSort_perm _ _
    · exact .refl _

theorem prioritize_filter {active : Option String} {keep : TransparentRefresh → Bool}
    (hkeep : ∀ refresh, keep refresh = true → ∀ uuid ∈ active, refresh.accountUuid ≠ uuid)
    (pending : List TransparentRefresh) :
    (prioritizePendingTransparentRefreshes active pending).filter keep = pending.filter keep := by
  cases active with
  | none => rfl
  | some uuid =>
    rw [prioritizePendingTransparentRefreshes]
    split
    · have hsub : (pending.filter keep).Sublist (pending.mergeSort fun a b =>
          decide (a.accountUuid = uuid) || !decide (b.accountUuid = uuid)) := by
        apply List.sublist_mergeSort _ _ _ List.filter_sublist
        · intro a b c hab hbc
          simp only [Bool.or_eq_true,Bool.not_eq_true',decide_eq_true_eq,decide_eq_false_iff_not] at *
          tauto
        · intro a b
          by_cases ha : a.accountUuid = uuid <;> simp [ha]
        · apply List.Pairwise.imp_of_mem (R := fun _ _ => True) ?_ (List.pairwise_of_forall fun _ _ => trivial)
          intro a b _ hb _
          have hother := hkeep b (List.mem_filter.mp hb).2 uuid rfl
          simp [hother]
      have hkept := hsub.filter keep
      simp only [List.filter_filter,Bool.and_self] at hkept
      exact (hkept.eq_of_length ((List.mergeSort_perm _ _).filter _).length_eq.symm).symm
    · rfl

/-- The download belongs to the refresh. -/
def DownloadOf (refresh : TransparentRefresh) (downloaded : DownloadedTransparentRefresh O) : Prop :=
  downloaded.refresh = refresh.asked

/-- A download that was stopped has no result. -/
def StoppedOrOf (refresh : TransparentRefresh) (result : Option (DownloadedTransparentRefresh O)) :
    Prop :=
  ∀ downloaded ∈ result, DownloadOf refresh downloaded

/-- The batches are those of the groups, refresh for refresh. -/
def BatchesOf (groups : List (List TransparentRefresh))
    (batches : List (List (DownloadedTransparentRefresh O))) : Prop :=
  List.Forall₂ (List.Forall₂ DownloadOf) groups batches

/-- The groups before the last one are stored and marked; the last one is under way. -/
structure UnderWay (taken : List (List TransparentRefresh))
    (stored : List (List (DownloadedTransparentRefresh O)))
    (marked : List (DownloadedTransparentRefresh O)) (group : List TransparentRefresh) : Prop where
  groups : ∃ groups, taken = groups ++ [group] ∧ BatchesOf groups stored
  marked : marked = stored.flatten

namespace RefreshPass

def PhaseHolds (s : RefreshPass O E) : Prop :=
  match s.phase with
  | .top => BatchesOf s.taken s.stored ∧ s.marked = s.stored.flatten ∧ s.begun = s.taken.flatten
  | .downloading queued inFlight finished => ∃ group, UnderWay s.taken s.stored s.marked group ∧
    Gathers StoppedOrOf group (queued ++ inFlight) finished ∧
    inFlight.length ≤ maxConcurrentTransparentUtxoStreams ∧
    s.begun ++ queued.map Prod.fst = s.taken.flatten
  | .downloaded result => ∃ group, UnderWay s.taken s.stored s.marked group ∧ ∀ results, result = .ok results →
    List.Forall₂ StoppedOrOf group results ∧ s.begun = s.taken.flatten
  | .persisting batch => ∃ group, UnderWay s.taken s.stored s.marked group ∧ List.Forall₂ DownloadOf group batch ∧
    s.begun = s.taken.flatten
  | .marking rest => BatchesOf s.taken s.stored ∧ s.marked ++ rest = s.stored.flatten ∧
    s.begun = s.taken.flatten
  | .returned result => s.marked = s.stored.flatten ∧
    (∃ groups rest, s.taken = groups ++ rest ∧ rest.length ≤ 1 ∧ BatchesOf groups s.stored) ∧
    (result = .ok .completed → s.pending = [] ∧ BatchesOf s.taken s.stored)

structure Holds (tipHeight : Nat) (refreshes : List TransparentRefresh) (s : RefreshPass O E) :
    Prop where
  perm : (s.taken.flatten ++ s.pending).Perm refreshes
  begun : s.begun <+: s.taken.flatten
  phase : s.PhaseHolds
  database : s.database = s.stored.flatten.flatMap (·.outputs)
  cache : s.cache = s.marked.flatMap (updateTransparentRefreshCacheMetadata tipHeight)

variable {refreshes : List TransparentRefresh} {s t : RefreshPass O E}

theorem holds_initial (tipHeight : Nat) (refreshes : List TransparentRefresh) :
    (initial refreshes : RefreshPass O E).Holds tipHeight refreshes where
  perm := .refl _
  begun := List.prefix_rfl
  phase := ⟨.nil,rfl,rfl⟩
  database := rfl
  cache := rfl

theorem returned_of_underWay {group : List TransparentRefresh} (h : UnderWay s.taken s.stored s.marked group) :
    ∃ groups rest, s.taken = groups ++ rest ∧ rest.length ≤ 1 ∧ BatchesOf groups s.stored := by
  obtain ⟨groups,htaken,hbatches⟩ := h.groups
  exact ⟨groups,[group],htaken,le_refl _,hbatches⟩

theorem holds_turn {active : Option String} (hs : s.Holds tipHeight refreshes)
    (h : s.turn active = .ok t) : t.Holds tipHeight refreshes := by
  have hphase := hs.phase
  unfold turn at h
  split at h
  · rename_i htop
    rw [PhaseHolds,htop] at hphase
    obtain ⟨hbatches,hmarked,hbegun⟩ := hphase
    have hreturned : ∃ groups rest, s.taken = groups ++ rest ∧ rest.length ≤ 1 ∧
        BatchesOf groups s.stored := ⟨s.taken,[],by simp,by simp,hbatches⟩
    have hperm := prioritize_perm active s.pending
    dsimp only at h
    split at h
    · cases h
      exact { hs with phase := ⟨hmarked,hreturned,by simp⟩ }
    · split at h
      · rename_i hempty
        cases h
        have hnone : prioritizePendingTransparentRefreshes active s.pending = [] := by
          simpa [maxConcurrentTransparentUtxoStreams] using hempty
        exact { hs with
          perm := (hperm.append_left _).trans hs.perm
          phase := ⟨hmarked,hreturned,fun _ => ⟨hnone,hbatches⟩⟩ }
      · cases h
        obtain ⟨pending,hpending⟩ : ∃ pending,
          pending = prioritizePendingTransparentRefreshes active s.pending := ⟨_,rfl⟩
        simp only [← hpending] at hperm ⊢
        exact {
          perm := by
            simp only [List.flatten_append,List.flatten_cons,List.flatten_nil,List.append_nil,
              List.append_assoc,List.take_append_drop]
            exact (hperm.append_left _).trans hs.perm
          begun := by
            rw [hbegun]
            simp
          phase := ⟨pending.take maxConcurrentTransparentUtxoStreams,⟨⟨s.taken,rfl,hbatches⟩,hmarked⟩,
            by simpa using Gathers.begin _ _,by simp,by simp [hbegun]⟩
          database := hs.database
          cache := hs.cache }
  · cases h

theorem holds_start (hs : s.Holds tipHeight refreshes) (h : s.start = .ok t) :
    t.Holds tipHeight refreshes := by
  have hphase := hs.phase
  unfold start at h
  split at h
  · rename_i next queued inFlight finished hdownloading
    rw [PhaseHolds,hdownloading] at hphase
    obtain ⟨group,hunder,hgathers,_,hbegun⟩ := hphase
    split at h
    · rename_i hroom
      cases h
      have hnext : s.begun ++ [next.1] ++ queued.map Prod.fst = s.taken.flatten := by
        simpa using hbegun
      exact { hs with
        begun := ⟨queued.map Prod.fst,hnext⟩
        phase := ⟨group,hunder,hgathers.perm (by
          rw [← List.append_assoc]
          exact List.perm_append_singleton _ _),by
            rw [List.length_append]
            exact hroom,hnext⟩ }
    · cases h
  · cases h

theorem holds_finish {position : Nat} {outcome : Except E (Option (List O))}
    (hs : s.Holds tipHeight refreshes) (h : s.finish position outcome = .ok t) :
    t.Holds tipHeight refreshes := by
  have hphase := hs.phase
  unfold finish at h
  split at h
  · rename_i queued inFlight finished hdownloading
    rw [PhaseHolds,hdownloading] at hphase
    obtain ⟨group,hunder,hgathers,hroom,hbegun⟩ := hphase
    split at h
    · cases h
    · rename_i refresh found hfind
      have hfound : found = position := by simpa using List.find?_some hfind
      subst hfound
      split at h
      · cases h
        exact { hs with phase := ⟨group,hunder,by
          intro results habsurd
          cases habsurd⟩ }
      · rename_i outputs
        cases h
        have hopen : ((refresh,found) :: (queued ++ inFlight.eraseP fun download =>
            decide (download.2 = found))).Perm (queued ++ inFlight) :=
          (List.perm_middle.symm.trans ((perm_cons_eraseP hfind).symm.append_left queued))
        have hresult : StoppedOrOf refresh
            (outputs.map fun outputs => (⟨refresh.asked,outputs⟩ : DownloadedTransparentRefresh O)) := by
          intro downloaded hdownloaded
          obtain ⟨outputs,_,rfl⟩ := Option.map_eq_some_iff.mp hdownloaded
          rfl
        exact { hs with phase := ⟨group,hunder,
          (hgathers.perm hopen).finish hresult,(List.length_eraseP_le).trans hroom,hbegun⟩ }
  · cases h

theorem holds_join (hs : s.Holds tipHeight refreshes) (h : s.join = .ok t) :
    t.Holds tipHeight refreshes := by
  have hphase := hs.phase
  unfold join at h
  split at h
  · rename_i finished hdownloading
    rw [PhaseHolds,hdownloading] at hphase
    obtain ⟨group,hunder,hgathers,_,hbegun⟩ := hphase
    cases h
    exact { hs with phase := ⟨group,hunder,by
      intro results hresults
      cases hresults
      exact ⟨hgathers.collect,by simpa using hbegun⟩⟩ }
  · cases h

theorem forall₂_of_mapM {group : List TransparentRefresh}
    {results : List (Option (DownloadedTransparentRefresh O))}
    {batch : List (DownloadedTransparentRefresh O)} (h : List.Forall₂ StoppedOrOf group results)
    (hbatch : results.mapM id = some batch) : List.Forall₂ DownloadOf group batch := by
  induction h generalizing batch with
  | nil =>
    cases hbatch
    exact .nil
  | cons hfirst _ ih =>
    rw [List.mapM_cons] at hbatch
    obtain ⟨downloaded,hdownloaded,hbatch⟩ := Option.bind_eq_some_iff.mp hbatch
    obtain ⟨rest,hrest,hbatch⟩ := Option.bind_eq_some_iff.mp hbatch
    cases hbatch
    exact .cons (hfirst downloaded hdownloaded) (ih hrest)

theorem holds_inspect (hs : s.Holds tipHeight refreshes) (h : s.inspect = .ok t) :
    t.Holds tipHeight refreshes := by
  have hphase := hs.phase
  unfold inspect at h
  split at h
  · rename_i result hdownloaded
    rw [PhaseHolds,hdownloaded] at hphase
    obtain ⟨group,hunder,hresults⟩ := hphase
    split at h
    · cases h
      exact { hs with phase := ⟨hunder.marked,returned_of_underWay hunder,by simp⟩ }
    · split at h
      · cases h
        exact { hs with phase := ⟨hunder.marked,returned_of_underWay hunder,by simp⟩ }
      · obtain ⟨hgroup,hbegun⟩ := hresults _ rfl
        split at h
        · cases h
          exact { hs with phase := ⟨hunder.marked,returned_of_underWay hunder,by simp⟩ }
        · rename_i batch hbatch
          cases h
          exact { hs with phase := ⟨group,hunder,
            forall₂_of_mapM hgroup hbatch,hbegun⟩ }
  · cases h

theorem storeTransparentOutputs_ok {outcome : Except E Unit} {database database' : List O}
    {batch : List (DownloadedTransparentRefresh O)}
    (h : storeTransparentOutputs outcome batch database = .ok database') :
    database' = database ++ batch.flatMap (·.outputs) := by
  unfold storeTransparentOutputs at h
  split at h
  · rename_i hempty
    cases h
    have hnone : batch.flatMap (·.outputs) = [] := by
      simpa [List.flatMap_eq_nil_iff] using hempty
    rw [hnone,List.append_nil]
  · obtain ⟨_,_,h⟩ := bind_ok h
    cases h
    rfl

theorem holds_store {outcome : Except E Unit} (hs : s.Holds tipHeight refreshes)
    (h : s.store outcome = .ok t) : t.Holds tipHeight refreshes := by
  have hphase := hs.phase
  unfold store at h
  split at h
  · rename_i batch hpersisting
    rw [PhaseHolds,hpersisting] at hphase
    obtain ⟨group,hunder,hbatch,hbegun⟩ := hphase
    split at h
    · cases h
      exact { hs with phase := ⟨hunder.marked,returned_of_underWay hunder,by simp⟩ }
    · rename_i database hdatabase
      cases h
      obtain ⟨groups,htaken,hbatches⟩ := hunder.groups
      exact { hs with
        phase := ⟨by
          rw [htaken]
          exact List.rel_append hbatches (.cons hbatch .nil),by simp [hunder.marked],hbegun⟩
        database := by
          rw [storeTransparentOutputs_ok hdatabase,hs.database]
          simp }
  · cases h

theorem holds_mark (hs : s.Holds tipHeight refreshes) (h : s.mark tipHeight = .ok t) :
    t.Holds tipHeight refreshes := by
  have hphase := hs.phase
  unfold mark at h
  split at h
  · rename_i downloaded rest hmarking
    rw [PhaseHolds,hmarking] at hphase
    obtain ⟨hbatches,hmarked,hbegun⟩ := hphase
    cases h
    exact { hs with
      phase := ⟨hbatches,by simpa using hmarked,hbegun⟩
      cache := by simp [hs.cache] }
  · rename_i hmarking
    rw [PhaseHolds,hmarking] at hphase
    obtain ⟨hbatches,hmarked,hbegun⟩ := hphase
    cases h
    exact { hs with phase := ⟨hbatches,by simpa using hmarked,hbegun⟩ }
  · cases h

theorem holds_step {event : PassEvent O E} (hs : s.Holds tipHeight refreshes)
    (h : step tipHeight event s = .ok t) : t.Holds tipHeight refreshes := by
  cases event with
  | exit =>
    cases h
    exact { hs with phase := hs.phase }
  | turn => exact holds_turn hs h
  | start => exact holds_start hs h
  | finish => exact holds_finish hs h
  | join => exact holds_join hs h
  | inspect => exact holds_inspect hs h
  | store => exact holds_store hs h
  | mark => exact holds_mark hs h

/-- What has been taken and what is pending, in this order. -/
def queue (s : RefreshPass O E) : List TransparentRefresh := s.taken.flatten ++ s.pending

theorem queue_eq {event : PassEvent O E} (hevent : ∀ active, event ≠ .turn active)
    (h : step tipHeight event s = .ok t) : t.taken = s.taken ∧ t.pending = s.pending := by
  cases event with
  | turn active => exact absurd rfl (hevent active)
  | exit =>
    cases h
    exact ⟨rfl,rfl⟩
  | start | finish | join | inspect | store | mark =>
    simp only [step,start,finish,join,inspect,store,mark] at h
    (repeat' split at h) <;> cases h <;> exact ⟨rfl,rfl⟩

theorem queue_filter {keep : TransparentRefresh → Bool} {event : PassEvent O E}
    (hkeep : ∀ refresh, keep refresh = true → ∀ uuid ∈ event.active, refresh.accountUuid ≠ uuid)
    (h : step tipHeight event s = .ok t) : t.queue.filter keep = s.queue.filter keep := by
  by_cases hturn : ∃ active, event = .turn active
  · obtain ⟨active,rfl⟩ := hturn
    have hfilter := prioritize_filter hkeep s.pending
    simp only [PassEvent.active] at hfilter
    simp only [step,turn] at h
    split at h
    · split at h
      · cases h
        rfl
      · split at h
        · cases h
          simp only [queue,List.filter_append,hfilter]
        · cases h
          simp only [queue,List.flatten_append,List.flatten_cons,List.flatten_nil,List.append_nil,
            List.append_assoc,List.take_append_drop,List.filter_append,hfilter]
    · cases h
  · obtain ⟨htaken,hpending⟩ := queue_eq (fun active h => hturn ⟨active,h⟩) h
    rw [queue,htaken,hpending,queue]

/-- A bound on what the loop still has to do. -/
def work (s : RefreshPass O E) : Nat :=
  9 * s.pending.length + match s.phase with
    | .top => 1
    | .downloading queued inFlight finished =>
      3 * queued.length + 2 * inFlight.length + finished.length + 6
    | .downloaded (.ok results) => results.length + 5
    | .downloaded (.error _) => 5
    | .persisting batch => batch.length + 4
    | .marking rest => rest.length + 3
    | .returned _ => 0

theorem mapM_length {results : List (Option (DownloadedTransparentRefresh O))}
    {batch : List (DownloadedTransparentRefresh O)} (h : results.mapM id = some batch) :
    batch.length = results.length := by
  induction results generalizing batch with
  | nil =>
    cases h
    rfl
  | cons first results ih =>
    rw [List.mapM_cons] at h
    obtain ⟨downloaded,_,h⟩ := Option.bind_eq_some_iff.mp h
    obtain ⟨rest,hrest,h⟩ := Option.bind_eq_some_iff.mp h
    cases h
    rw [List.length_cons,List.length_cons,ih hrest]

theorem work_turn {active : Option String} (h : s.turn active = .ok t) : t.work < s.work := by
  unfold turn at h
  split at h
  · rename_i htop
    have hlength := (prioritize_perm active s.pending).length_eq
    dsimp only at h
    split at h
    · cases h
      simp [work,htop]
    · split at h
      · cases h
        simp [work,htop,hlength]
      · rename_i hgroup
        cases h
        have hsome : prioritizePendingTransparentRefreshes active s.pending ≠ [] := by
          simpa [maxConcurrentTransparentUtxoStreams] using hgroup
        have hpos := List.length_pos_iff.mpr hsome
        simp only [work,htop,List.length_drop,List.length_zipIdx,List.length_take,List.length_nil]
        simp only [maxConcurrentTransparentUtxoStreams]
        omega
  · cases h

theorem work_step {event : PassEvent O E} (h : step tipHeight event s = .ok t) :
    t.work + (if event.isExit then 0 else 1) ≤ s.work := by
  cases event with
  | exit =>
    cases h
    exact le_refl _
  | turn active => exact work_turn h
  | start =>
    simp only [step,start] at h
    split at h
    · rename_i hdownloading
      split at h
      · cases h
        simp only [work,hdownloading,PassEvent.isExit,List.length_append,List.length_cons,
          List.length_nil,Bool.false_eq_true,if_false]
        omega
      · cases h
    · cases h
  | finish position outcome =>
    simp only [step,finish] at h
    split at h
    · rename_i hdownloading
      split at h
      · cases h
      · rename_i hfind
        have hlength := (perm_cons_eraseP hfind).length_eq
        simp only [List.length_cons] at hlength
        split at h
        · cases h
          simp only [work,hdownloading,PassEvent.isExit,Bool.false_eq_true,if_false]
          omega
        · cases h
          simp only [work,hdownloading,PassEvent.isExit,List.length_append,List.length_cons,
            List.length_nil,Bool.false_eq_true,if_false]
          omega
    · cases h
  | join =>
    simp only [step,join] at h
    split at h
    · rename_i hdownloading
      cases h
      simp only [work,hdownloading,PassEvent.isExit,Bool.false_eq_true,if_false,List.length_map,
        List.length_insertionSort,List.length_nil]
      omega
    · cases h
  | inspect =>
    simp only [step,inspect] at h
    split at h
    · rename_i result hdownloaded
      have hpositive : 9 * s.pending.length + 5 ≤ s.work := by
        cases result <;> simp [work,hdownloaded]
      split at h
      · cases h
        simp only [work,PassEvent.isExit,Bool.false_eq_true,if_false] at hpositive ⊢
        omega
      · split at h
        · cases h
          simp only [work,PassEvent.isExit,Bool.false_eq_true,if_false] at hpositive ⊢
          omega
        · split at h
          · cases h
            simp only [work,PassEvent.isExit,Bool.false_eq_true,if_false] at hpositive ⊢
            omega
          · rename_i hbatch
            cases h
            simp only [work,hdownloaded,PassEvent.isExit,mapM_length hbatch,Bool.false_eq_true,
              if_false]
            omega
    · cases h
  | store outcome =>
    simp only [step,store] at h
    split at h
    · rename_i hpersisting
      split at h <;> cases h <;>
        simp only [work,hpersisting,PassEvent.isExit,Bool.false_eq_true,if_false] <;> omega
    · cases h
  | mark =>
    simp only [step,mark] at h
    split at h
    · rename_i hmarking
      cases h
      simp only [work,hmarking,PassEvent.isExit,Bool.false_eq_true,if_false,List.length_cons]
      omega
    · rename_i hmarking
      cases h
      simp [work,hmarking,PassEvent.isExit]
    · cases h

theorem work_execute {events : List (PassEvent O E)} (h : execute (step tipHeight) events s = .ok t) :
    t.work + (events.filter fun event => !event.isExit).length ≤ s.work := by
  induction events generalizing s with
  | nil =>
    cases h
    exact le_refl _
  | cons event events ih =>
    obtain ⟨u,hu,h⟩ := bind_ok h
    have hstep := work_step hu
    have hrest := ih h
    cases hexit : event.isExit <;> simp [hexit] at hstep ⊢ <;> omega

/-- A pass that has not returned can go on. -/
theorem exists_step (s : RefreshPass O E) (hphase : ∀ result, s.phase ≠ .returned result) :
    ∃ event t, event.isExit = false ∧ step tipHeight event s = .ok t := by
  cases h : s.phase with
  | returned result => exact absurd h (hphase result)
  | top =>
    refine ⟨.turn none,?_⟩
    simp only [step,turn,h,PassEvent.isExit,true_and]
    split
    · exact ⟨_,rfl⟩
    · split <;> exact ⟨_,rfl⟩
  | downloading queued inFlight finished =>
    cases inFlight with
    | cons download inFlight =>
      refine ⟨.finish download.2 (.ok none),?_⟩
      simp [step,finish,h,PassEvent.isExit]
    | nil =>
      cases queued with
      | nil =>
        refine ⟨.join,?_⟩
        simp [step,join,h,PassEvent.isExit]
      | cons next queued =>
        refine ⟨.start,?_⟩
        simp [step,start,h,PassEvent.isExit,maxConcurrentTransparentUtxoStreams]
  | downloaded result =>
    refine ⟨.inspect,?_⟩
    simp only [step,inspect,h,PassEvent.isExit,true_and]
    split
    · exact ⟨_,rfl⟩
    · cases result with
      | error e => exact ⟨_,rfl⟩
      | ok results => cases hbatch : results.mapM id <;> simp [hbatch]
  | persisting batch =>
    refine ⟨.store (.ok ()),?_⟩
    simp only [step,store,h,PassEvent.isExit,true_and]
    split <;> exact ⟨_,rfl⟩
  | marking rest =>
    refine ⟨.mark,?_⟩
    cases rest <;> simp [step,mark,h,PassEvent.isExit]

/-- The pass has come to where nothing more is stored: it has returned, or the downloads of its group
have ended and the exit signal is up, or one of them failed or was stopped. -/
def Ending (s : RefreshPass O E) : Prop :=
  match s.phase with
  | .returned _ => True
  | .downloaded result => s.shouldExit = true ∨ (∃ e, result = .error e) ∨
    ∃ results, result = .ok results ∧ none ∈ results
  | _ => False

theorem mapM_none {results : List (Option (DownloadedTransparentRefresh O))} (h : none ∈ results) :
    results.mapM id = none := by
  induction results with
  | nil => cases h
  | cons first results ih =>
    rw [List.mapM_cons]
    cases first with
    | none => rfl
    | some downloaded =>
      have hrest := ih (by simpa using h)
      simp [hrest]

/-- What has been stored and marked. -/
def Kept (s t : RefreshPass O E) : Prop :=
  t.stored = s.stored ∧ t.database = s.database ∧ t.marked = s.marked ∧ t.cache = s.cache

theorem ending_step {event : PassEvent O E} (hs : s.Ending) (h : step tipHeight event s = .ok t) :
    t.Ending ∧ s.Kept t := by
  cases hphase : s.phase with
  | returned result =>
    cases event <;> simp only [step,turn,start,finish,join,inspect,store,mark,hphase] at h <;> cases h
    exact ⟨by simp [Ending],rfl,rfl,rfl,rfl⟩
  | downloaded result =>
    simp only [Ending,hphase] at hs
    cases event with
    | exit =>
      cases h
      exact ⟨by simp [Ending,hphase],rfl,rfl,rfl,rfl⟩
    | inspect =>
      simp only [step,inspect,hphase] at h
      split at h
      · cases h
        exact ⟨trivial,rfl,rfl,rfl,rfl⟩
      · rename_i hexit
        rcases hs with hs | ⟨e,rfl⟩ | ⟨results,rfl,hnone⟩
        · exact absurd hs hexit
        · cases h
          exact ⟨trivial,rfl,rfl,rfl,rfl⟩
        · simp only [mapM_none hnone] at h
          cases h
          exact ⟨trivial,rfl,rfl,rfl,rfl⟩
    | turn | start | finish | join | store | mark =>
      simp only [step,turn,start,finish,join,store,mark,hphase] at h
      cases h
  | top | downloading | persisting | marking =>
    simp only [Ending,hphase] at hs

theorem ending_execute {events : List (PassEvent O E)} (hs : s.Ending)
    (h : execute (step tipHeight) events s = .ok t) : s.Kept t := by
  have hrun : t.Ending ∧ s.Kept t := by
    apply execute_invariant (P := fun u => u.Ending ∧ s.Kept u) ?_ h ⟨hs,rfl,rfl,rfl,rfl⟩
    intro event _ u v hu hstep
    obtain ⟨hending,hstored,hdatabase,hmarked,hcache⟩ := ending_step hu.1 hstep
    obtain ⟨hstored',hdatabase',hmarked',hcache'⟩ := hu.2
    exact ⟨hending,hstored.trans hstored',hdatabase.trans hdatabase',hmarked.trans hmarked',
      hcache.trans hcache'⟩
  exact hrun.2

/-- What holds at every moment of a pass over `refreshes` in which these events happened. -/
structure CleanPrefix (tipHeight : Nat) (refreshes : List TransparentRefresh)
    (events : List (PassEvent O E)) (s : RefreshPass O E) : Prop where
  /-- The loop does a bounded number of things, and it can go on until it returns. -/
  finite : (events.filter fun event => !event.isExit).length ≤ 9 * refreshes.length + 1
  goesOn : (∀ result, s.phase ≠ .returned result) →
    ∃ event t, event.isExit = false ∧ step tipHeight event s = .ok t
  inFlight : s.inFlight.length ≤ 4
  /-- A refresh is downloaded at most once. -/
  begun : s.begun.Subperm refreshes
  taken : (s.taken.flatten ++ s.pending).Perm refreshes
  /-- The stored batches are those of the groups taken first, all but the last one at least. -/
  stored : ∃ groups rest, s.taken = groups ++ rest ∧ rest.length ≤ 1 ∧ BatchesOf groups s.stored
  database : s.database = s.stored.flatten.flatMap (·.outputs)
  /-- What is marked was stored before. -/
  marked : s.marked <+: s.stored.flatten
  cache : s.cache = s.marked.flatMap (updateTransparentRefreshCacheMetadata tipHeight)
  /-- Nothing is stored or marked any more after an exit or a failed or stopped download. -/
  ended : s.Ending → ∀ later t, execute (step tipHeight) later s = .ok t → s.Kept t
  completed : s.phase = .returned (.ok .completed) → s.marked = s.stored.flatten ∧
    (s.marked.map (·.refresh)).Perm (refreshes.map TransparentRefresh.asked)
  /-- The accounts that never became active keep the order of their refreshes. -/
  order : (s.taken.flatten ++ s.pending).filter
      (fun refresh => !(events.filterMap PassEvent.active).contains refresh.accountUuid) =
    refreshes.filter
      fun refresh => !(events.filterMap PassEvent.active).contains refresh.accountUuid

theorem Holds.inFlight (hs : s.Holds tipHeight refreshes) : s.inFlight.length ≤ 4 := by
  have hphase := hs.phase
  unfold RefreshPass.inFlight
  split
  · rename_i hdownloading
    rw [PhaseHolds,hdownloading] at hphase
    obtain ⟨_,_,_,hroom,_⟩ := hphase
    exact hroom
  · exact Nat.zero_le _

theorem Holds.stored (hs : s.Holds tipHeight refreshes) :
    ∃ groups rest, s.taken = groups ++ rest ∧ rest.length ≤ 1 ∧ BatchesOf groups s.stored := by
  have hall : BatchesOf s.taken s.stored → ∃ groups rest, s.taken = groups ++ rest ∧
      rest.length ≤ 1 ∧ BatchesOf groups s.stored := fun h => ⟨s.taken,[],by simp,by simp,h⟩
  have hphase := hs.phase
  cases h : s.phase with
  | top => exact hall (by simp only [PhaseHolds,h] at hphase; exact hphase.1)
  | marking => exact hall (by simp only [PhaseHolds,h] at hphase; exact hphase.1)
  | returned =>
    simp only [PhaseHolds,h] at hphase
    exact hphase.2.1
  | downloading | downloaded | persisting =>
    simp only [PhaseHolds,h] at hphase
    obtain ⟨_,hunder,_⟩ := hphase
    exact returned_of_underWay hunder

theorem Holds.marked (hs : s.Holds tipHeight refreshes) : s.marked <+: s.stored.flatten := by
  have hphase := hs.phase
  cases h : s.phase with
  | top =>
    simp only [PhaseHolds,h] at hphase
    simp only [hphase.2.1,List.prefix_rfl]
  | marking =>
    simp only [PhaseHolds,h] at hphase
    exact ⟨_,hphase.2.1⟩
  | returned =>
    simp only [PhaseHolds,h] at hphase
    simp only [hphase.1,List.prefix_rfl]
  | downloading | downloaded | persisting =>
    simp only [PhaseHolds,h] at hphase
    obtain ⟨_,hunder,_⟩ := hphase
    simp only [hunder.marked,List.prefix_rfl]

theorem asked_of_batches {groups : List (List TransparentRefresh)}
    {batches : List (List (DownloadedTransparentRefresh O))} (h : BatchesOf groups batches) :
    batches.flatten.map (·.refresh) = groups.flatten.map TransparentRefresh.asked := by
  induction h with
  | nil => rfl
  | cons hfirst _ ih =>
    have hbatch := forall₂_map_eq (f := TransparentRefresh.asked)
      (g := DownloadedTransparentRefresh.refresh) hfirst fun _ _ hd => hd
    simp only [List.flatten_cons,List.map_append,hbatch,ih]

/-- However the downloads of a pass end, whatever the store answers, whoever becomes active and
whenever the exit signal is raised, the pass comes to an end and leaves a clean prefix of what it was
asked for. -/
theorem refreshPass_clean (tipHeight : Nat) (refreshes : List TransparentRefresh)
    (events : List (PassEvent O E)) (s : RefreshPass O E)
    (h : execute (step tipHeight) events (initial refreshes) = .ok s) :
    CleanPrefix tipHeight refreshes events s := by
  have hs : s.Holds tipHeight refreshes :=
    (runs_of_execute h).invariant (fun _ _ _ hs hstep => holds_step hs hstep) (holds_initial _ _)
  exact {
    finite := by
      have hwork := work_execute h
      simp only [work,initial] at hwork
      omega
    goesOn := exists_step s
    inFlight := hs.inFlight
    begun := by
      have hsub : s.begun.Sublist (s.taken.flatten ++ s.pending) :=
        hs.begun.sublist.trans (List.sublist_append_left _ _)
      exact hsub.subperm.trans hs.perm.subperm
    taken := hs.perm
    stored := hs.stored
    database := hs.database
    marked := hs.marked
    cache := hs.cache
    ended := fun hending _ _ hlater => ending_execute hending hlater
    completed := by
      intro hcompleted
      have hphase := hs.phase
      simp only [PhaseHolds,hcompleted] at hphase
      obtain ⟨hmarked,_,hall⟩ := hphase
      obtain ⟨hpending,hbatches⟩ := hall trivial
      refine ⟨hmarked,?_⟩
      rw [hmarked,asked_of_batches hbatches]
      have hperm := hs.perm
      rw [hpending,List.append_nil] at hperm
      exact hperm.map _
    order := by
      apply execute_invariant (P := fun u : RefreshPass O E => u.queue.filter _ =
        refreshes.filter _) ?_ h rfl
      intro event hevent u v hu hstep
      rw [← hu]
      apply queue_filter ?_ hstep
      intro refresh hkeep uuid huuid hsame
      have hactive : uuid ∈ events.filterMap PassEvent.active :=
        List.mem_filterMap.mpr ⟨event,hevent,huuid⟩
      rw [hsame] at hkeep
      simp [hactive] at hkeep }

/-- One refresh of an account, downloaded, stored and marked. -/
def oneRefresh : List TransparentRefresh := [⟨["t1"],5,"transparent UTXOs","a",some ⟨[0],none⟩⟩]

def oneRefreshEvents : List (PassEvent Nat String) :=
  [.turn none,.start,.finish 0 (.ok (some [7])),.join,.inspect,.store (.ok ()),.mark,.mark,.turn none]

theorem refreshPass_clean_one : ∃ s, execute (step 20) oneRefreshEvents (initial oneRefresh) = .ok s ∧
    s.cache = [.dirty "a",.batchComplete "a" [0] 21 none] ∧
    CleanPrefix 20 oneRefresh oneRefreshEvents s :=
  ⟨_,rfl,rfl,refreshPass_clean 20 oneRefresh oneRefreshEvents _ rfl⟩

end RefreshPass

end CoppiceWallet.Receive
