import CoppiceWallet.Store.Model

/-!
# Anchor buckets

The candidates for a note are enumerated downwards from the latest boundary, tested one by one, and
announced by the height from which a note has one; the three follow the same rule. The number of
confirmations of a trusted note is a parameter.
-/

namespace CoppiceWallet.Store

open CoppiceWallet.Lib

def zip318AnchorBucketModulus : Nat := 144
def regtestAnchorBucketModulus : Nat := 1
def fastTestnetAnchorBucketModulus : Nat := 12
def zip318AnchorAgeCap : Nat := 4

def anchorBucketModulus (network : WalletNetwork) (timingPolicy : MigrationTimingPolicy) : Nat :=
  match network, timingPolicy with
  | .regtest, .fastTestnet => fastTestnetAnchorBucketModulus
  | .regtest, _ => regtestAnchorBucketModulus
  | .test, .fastTestnet => fastTestnetAnchorBucketModulus
  | _, _ => zip318AnchorBucketModulus

def anchorBucketMinAge (network : WalletNetwork) (timingPolicy : MigrationTimingPolicy) : Nat :=
  match network, timingPolicy with
  | .regtest, .fastTestnet => 1
  -- empty regtest blocks add no checkpoints
  | .regtest, _ => 0
  | .test, .fastTestnet => 1
  | _, .standard90MinutesLatestAnchor => 0
  | _, _ => 1

def checkedMulU32 (a b : Nat) : Option Nat := if a * b < u32Limit then some (a * b) else none

/-- How far the trusted anchor lies behind the scanned height. -/
def confirmationLag (trusted : Nat) : Nat := trusted - 1

def anchorBoundaryContainingNoteWithPolicy (network : WalletNetwork)
    (timingPolicy : MigrationTimingPolicy) (minedHeight : Nat) : StoreResult Nat :=
  let modulus := anchorBucketModulus network timingPolicy
  let remainder := minedHeight % modulus
  if remainder = 0 then .ok minedHeight
  else okOr (checkedAddU32 minedHeight (modulus - remainder)) "Migration anchor boundary overflow"

def proofReadyHeightForNoteMinedHeight (trusted : Nat) (network : WalletNetwork)
    (timingPolicy : MigrationTimingPolicy) (minedHeight : Nat) : StoreResult Nat := do
  let modulus := anchorBucketModulus network timingPolicy
  let containingBoundary ←
    anchorBoundaryContainingNoteWithPolicy network timingPolicy minedHeight
  let agingBlocks ← okOr (checkedMulU32 modulus (anchorBucketMinAge network timingPolicy))
    "Migration proof readiness height overflow"
  okOr ((checkedAddU32 containingBoundary agingBlocks).bind fun height =>
      checkedAddU32 height (confirmationLag trusted))
    "Migration proof readiness height overflow"

def zip318AnchorBoundaryAtOrBeforeWithPolicy (network : WalletNetwork)
    (timingPolicy : MigrationTimingPolicy) (height : Nat) : Option Nat :=
  let boundary := height - height % anchorBucketModulus network timingPolicy
  if 0 < boundary then some boundary else none

def zip318AnchorBoundaryAge (network : WalletNetwork) (timingPolicy : MigrationTimingPolicy)
    (latestBoundary anchorBoundary : Nat) : Option Nat :=
  if latestBoundary < anchorBoundary then none
  else
    (checkedSub latestBoundary anchorBoundary).bind fun delta =>
      let modulus := anchorBucketModulus network timingPolicy
      if delta % modulus ≠ 0 then none
      else
        let age := delta / modulus
        if anchorBucketMinAge network timingPolicy ≤ age ∧ age ≤ zip318AnchorAgeCap then some age
        else none

/-- The boundaries of the given ages, up to the first that is too low. -/
def candidateBoundariesOfAges (modulus latestBoundary lowerBound : Nat) : List Nat → List Nat
  | [] => []
  | age :: ages =>
    match checkedMulU32 age modulus with
    | none => []
    | some distance =>
      match checkedSub latestBoundary distance with
      | none => []
      | some boundary =>
        if boundary < lowerBound then []
        else boundary :: candidateBoundariesOfAges modulus latestBoundary lowerBound ages

def zip318AnchorCandidateBoundariesWithPolicy (network : WalletNetwork)
    (timingPolicy : MigrationTimingPolicy)
    (observedAnchorHeight noteMinedHeight nu63ActivationHeight : Nat) : List Nat :=
  match zip318AnchorBoundaryAtOrBeforeWithPolicy network timingPolicy observedAnchorHeight with
  | none => []
  | some latestBoundary =>
    let lowerBound := max noteMinedHeight (saturatingAddU32 nu63ActivationHeight 1)
    let minAge := anchorBucketMinAge network timingPolicy
    candidateBoundariesOfAges (anchorBucketModulus network timingPolicy) latestBoundary lowerBound
      (List.range' minAge (zip318AnchorAgeCap + 1 - minAge))

def zip318AnchorBoundaryIsCandidateWithPolicy (network : WalletNetwork)
    (timingPolicy : MigrationTimingPolicy)
    (anchorBoundary observedAnchorHeight noteMinedHeight nu63ActivationHeight : Nat) : Bool :=
  if anchorBoundary = 0 ∨ anchorBoundary % anchorBucketModulus network timingPolicy ≠ 0 then false
  else if anchorBoundary < noteMinedHeight ∨ anchorBoundary ≤ nu63ActivationHeight then false
  else
    match zip318AnchorBoundaryAtOrBeforeWithPolicy network timingPolicy observedAnchorHeight with
    | none => false
    | some latestBoundary =>
      (zip318AnchorBoundaryAge network timingPolicy latestBoundary anchorBoundary).isSome

theorem anchorBucketModulus_pos (network : WalletNetwork) (timingPolicy : MigrationTimingPolicy) :
    0 < anchorBucketModulus network timingPolicy := by
  cases network <;> cases timingPolicy <;> decide

theorem anchorBucketModulus_le (network : WalletNetwork) (timingPolicy : MigrationTimingPolicy) :
    anchorBucketModulus network timingPolicy ≤ 144 := by
  cases network <;> cases timingPolicy <;> decide

theorem anchorBucketMinAge_le (network : WalletNetwork) (timingPolicy : MigrationTimingPolicy) :
    anchorBucketMinAge network timingPolicy ≤ 1 := by
  cases network <;> cases timingPolicy <;> decide

variable {network : WalletNetwork} {timingPolicy : MigrationTimingPolicy}

variable {boundary latest : Nat}

theorem mem_candidateBoundariesOfAges {modulus lowerBound age count : Nat}
    (hsmall : (age + count) * modulus < u32Limit) :
    boundary ∈ candidateBoundariesOfAges modulus latest lowerBound (List.range' age count) ↔
      ∃ k, age ≤ k ∧ k < age + count ∧ boundary + k * modulus = latest ∧ lowerBound ≤ boundary := by
  induction count generalizing age with
  | zero =>
    constructor
    · intro h
      exact absurd h List.not_mem_nil
    · intro ⟨k,hge,hlt,_⟩
      omega
  | succ count ih =>
    have hstep : (age + 1 + count) * modulus < u32Limit := by
      rwa [Nat.add_assoc,Nat.add_comm 1]
    have hlater : ∀ k, age ≤ k → age * modulus ≤ k * modulus :=
      fun k hk => Nat.mul_le_mul_right modulus hk
    have hage : age * modulus < u32Limit := by
      have := hlater (age + (count + 1)) (by omega)
      omega
    have htoolow : latest < lowerBound + age * modulus → ¬∃ k, age ≤ k ∧ k < age + (count + 1) ∧
        boundary + k * modulus = latest ∧ lowerBound ≤ boundary := by
      intro hlow ⟨k,hge,_,heq,hbound⟩
      have := hlater k hge
      omega
    rw [List.range'_succ,candidateBoundariesOfAges,checkedMulU32,if_pos hage]
    dsimp only
    by_cases hfits : age * modulus ≤ latest
    · rw [checkedSub,if_pos hfits]
      dsimp only
      split
      · rename_i hlow
        exact iff_of_false List.not_mem_nil (htoolow (by omega))
      · rw [List.mem_cons,ih hstep]
        constructor
        · intro h
          rcases h with h | ⟨k,hge,hlt,hk⟩
          · exact ⟨age,le_rfl,by omega,by omega,by omega⟩
          · exact ⟨k,by omega,by omega,hk⟩
        · intro ⟨k,hge,hlt,heq,hlow⟩
          rcases Nat.eq_or_lt_of_le hge with rfl | hgt
          · exact .inl (by omega)
          · exact .inr ⟨k,hgt,by omega,heq,hlow⟩
    · rw [checkedSub,if_neg hfits]
      exact iff_of_false List.not_mem_nil (htoolow (by omega))

theorem zip318AnchorBoundaryAtOrBefore_eq_some {height : Nat}
    (h : zip318AnchorBoundaryAtOrBeforeWithPolicy network timingPolicy height = some latest) :
    anchorBucketModulus network timingPolicy ∣ latest ∧ 0 < latest ∧ latest ≤ height := by
  rw [zip318AnchorBoundaryAtOrBeforeWithPolicy] at h
  split at h
  · rename_i hpos
    cases h
    exact ⟨Nat.dvd_sub_mod height,hpos,Nat.sub_le ..⟩
  · cases h

theorem zip318AnchorBoundaryAge_isSome :
    (zip318AnchorBoundaryAge network timingPolicy latest boundary).isSome = true ↔
      ∃ k, anchorBucketMinAge network timingPolicy ≤ k ∧ k ≤ zip318AnchorAgeCap ∧
        boundary + k * anchorBucketModulus network timingPolicy = latest := by
  have hpos := anchorBucketModulus_pos network timingPolicy
  constructor
  · intro h
    rw [zip318AnchorBoundaryAge] at h
    split at h
    · cases h
    · rename_i hle
      rw [checkedSub,if_pos (by omega),Option.bind_some] at h
      dsimp only at h
      split at h
      · cases h
      · rename_i hdvd
        split at h
        · rename_i hage
          refine ⟨_,hage.1,hage.2,?_⟩
          rw [Nat.div_mul_cancel (Nat.dvd_of_mod_eq_zero (not_not.mp hdvd))]
          omega
        · cases h
  · intro ⟨k,hmin,hcap,heq⟩
    have hdelta : latest - boundary = k * anchorBucketModulus network timingPolicy := by omega
    rw [zip318AnchorBoundaryAge,if_neg (by omega),checkedSub,if_pos (by omega),Option.bind_some]
    dsimp only
    rw [hdelta,Nat.mul_mod_left,if_neg (not_not.mpr rfl),Nat.mul_div_cancel _ hpos,
      if_pos ⟨hmin,hcap⟩]
    rfl

theorem anchorAges_small (network : WalletNetwork) (timingPolicy : MigrationTimingPolicy) :
    anchorBucketMinAge network timingPolicy +
        (zip318AnchorAgeCap + 1 - anchorBucketMinAge network timingPolicy) =
      zip318AnchorAgeCap + 1 ∧
    (zip318AnchorAgeCap + 1) * anchorBucketModulus network timingPolicy < u32Limit := by
  have := anchorBucketMinAge_le network timingPolicy
  have := anchorBucketModulus_le network timingPolicy
  simp only [zip318AnchorAgeCap,u32Limit]
  omega

variable {activation noteHeight : Nat}

theorem mem_anchorCandidates_age {observed : Nat} (hactivation : activation < u32Limit - 1) :
    boundary ∈ zip318AnchorCandidateBoundariesWithPolicy network timingPolicy observed noteHeight
        activation ↔
      ∃ latest, zip318AnchorBoundaryAtOrBeforeWithPolicy network timingPolicy observed =
          some latest ∧
        noteHeight ≤ boundary ∧ activation < boundary ∧
        ∃ k, anchorBucketMinAge network timingPolicy ≤ k ∧ k ≤ zip318AnchorAgeCap ∧
          boundary + k * anchorBucketModulus network timingPolicy = latest := by
  rw [zip318AnchorCandidateBoundariesWithPolicy]
  cases zip318AnchorBoundaryAtOrBeforeWithPolicy network timingPolicy observed with
  | none => simp
  | some latest =>
    have hnext : saturatingAddU32 activation 1 = activation + 1 := by
      simp only [saturatingAddU32]
      omega
    obtain ⟨hcap,hsmall⟩ := anchorAges_small network timingPolicy
    dsimp only
    rw [mem_candidateBoundariesOfAges (by rwa [hcap]),hcap,hnext]
    constructor
    · intro ⟨k,hge,hlt,heq,hlow⟩
      rw [max_le_iff] at hlow
      exact ⟨latest,rfl,hlow.1,hlow.2,k,hge,Nat.le_of_lt_succ hlt,heq⟩
    · intro ⟨other,hlatest,hnote,hact,k,hge,hle,heq⟩
      cases hlatest
      exact ⟨k,hge,Nat.lt_succ_of_le hle,heq,max_le hnote hact⟩

/-- The enumeration and the test agree. -/
theorem mem_anchorCandidates_iff {observed : Nat} (hactivation : activation < u32Limit - 1) :
    boundary ∈ zip318AnchorCandidateBoundariesWithPolicy network timingPolicy observed noteHeight
        activation ↔
      zip318AnchorBoundaryIsCandidateWithPolicy network timingPolicy boundary observed noteHeight
        activation = true := by
  rw [mem_anchorCandidates_age hactivation,zip318AnchorBoundaryIsCandidateWithPolicy]
  cases hlatest : zip318AnchorBoundaryAtOrBeforeWithPolicy network timingPolicy observed with
  | none => simp
  | some latest =>
    obtain ⟨hdvd,_,_⟩ := zip318AnchorBoundaryAtOrBefore_eq_some hlatest
    simp only [Bool.if_false_left,Bool.and_eq_true,Bool.not_eq_true',decide_eq_false_iff_not,
      zip318AnchorBoundaryAge_isSome,not_or,not_lt,not_le,not_not]
    constructor
    · intro ⟨other,hother,hnote,hact,k,hge,hle,heq⟩
      cases hother
      have hboundary : anchorBucketModulus network timingPolicy ∣ boundary := by
        rw [← heq] at hdvd
        exact (Nat.dvd_add_left (Dvd.intro_left k rfl)).mp hdvd
      exact ⟨⟨by omega,Nat.mod_eq_zero_of_dvd hboundary⟩,⟨hnote,hact⟩,k,hge,hle,heq⟩
    · intro ⟨_,⟨hnote,hact⟩,k,hge,hle,heq⟩
      exact ⟨latest,rfl,hnote,hact,k,hge,hle,heq⟩

theorem candidateBoundariesOfAges_pairwise {modulus lowerBound age count : Nat} (hpos : 0 < modulus)
    (hsmall : (age + count) * modulus < u32Limit) :
    (candidateBoundariesOfAges modulus latest lowerBound (List.range' age count)).Pairwise
      (· > ·) := by
  induction count generalizing age with
  | zero => exact .nil
  | succ count ih =>
    have hstep : (age + 1 + count) * modulus < u32Limit := by
      rwa [Nat.add_assoc,Nat.add_comm 1]
    have hage : age * modulus < u32Limit := by
      have := Nat.mul_le_mul_right modulus (Nat.le_add_right age (count + 1))
      omega
    rw [List.range'_succ,candidateBoundariesOfAges,checkedMulU32,if_pos hage]
    dsimp only
    by_cases hfits : age * modulus ≤ latest
    · rw [checkedSub,if_pos hfits]
      dsimp only
      split
      · exact .nil
      · refine List.pairwise_cons.mpr ⟨?_,ih hstep⟩
        intro boundary hboundary
        obtain ⟨k,hge,_,heq,_⟩ := (mem_candidateBoundariesOfAges hstep).mp hboundary
        have := Nat.mul_le_mul_right modulus hge
        rw [Nat.add_mul,Nat.one_mul] at this
        omega
    · rw [checkedSub,if_neg hfits]
      exact .nil

theorem anchorCandidates_pairwise {observed : Nat} :
    (zip318AnchorCandidateBoundariesWithPolicy network timingPolicy observed noteHeight
      activation).Pairwise (· > ·) := by
  rw [zip318AnchorCandidateBoundariesWithPolicy]
  split
  · exact .nil
  · obtain ⟨hcap,hsmall⟩ := anchorAges_small network timingPolicy
    apply candidateBoundariesOfAges_pairwise (anchorBucketModulus_pos network timingPolicy)
    rwa [hcap]

theorem anchorBoundaryContainingNote_ok {minedHeight containing : Nat}
    (h : anchorBoundaryContainingNoteWithPolicy network timingPolicy minedHeight = .ok containing) :
    anchorBucketModulus network timingPolicy ∣ containing ∧ minedHeight ≤ containing ∧
      containing < minedHeight + anchorBucketModulus network timingPolicy := by
  have hpos := anchorBucketModulus_pos network timingPolicy
  have hlt := Nat.mod_lt minedHeight hpos
  rw [anchorBoundaryContainingNoteWithPolicy] at h
  split at h
  · rename_i hzero
    cases h
    exact ⟨Nat.dvd_of_mod_eq_zero hzero,le_rfl,by omega⟩
  · rename_i hne
    obtain ⟨hsum,_⟩ := checkedAddU32_eq_some.mp (okOr_ok h)
    have hdvd : anchorBucketModulus network timingPolicy ∣
        minedHeight - minedHeight % anchorBucketModulus network timingPolicy :=
      Nat.dvd_sub_mod minedHeight
    have hle := Nat.mod_le minedHeight (anchorBucketModulus network timingPolicy)
    have heq : containing = minedHeight - minedHeight % anchorBucketModulus network timingPolicy +
        anchorBucketModulus network timingPolicy := by omega
    exact ⟨heq ▸ Nat.dvd_add_self_right.mpr hdvd,by omega,by omega⟩

theorem proofReadyHeight_ok {trusted minedHeight ready : Nat}
    (h : proofReadyHeightForNoteMinedHeight trusted network timingPolicy minedHeight = .ok ready) :
    ∃ containing, anchorBucketModulus network timingPolicy ∣ containing ∧
      minedHeight ≤ containing ∧
      containing < minedHeight + anchorBucketModulus network timingPolicy ∧
      ready = containing + anchorBucketMinAge network timingPolicy *
        anchorBucketModulus network timingPolicy + confirmationLag trusted := by
  rw [proofReadyHeightForNoteMinedHeight] at h
  obtain ⟨containing,hcontaining,h⟩ := bind_ok h
  obtain ⟨aging,haging,h⟩ := bind_ok h
  obtain ⟨height,hheight,hready⟩ := Option.bind_eq_some_iff.mp (okOr_ok h)
  have haging := okOr_ok haging
  obtain ⟨hdvd,hle,hlt⟩ := anchorBoundaryContainingNote_ok hcontaining
  rw [checkedMulU32] at haging
  split at haging
  · cases haging
    obtain ⟨rfl,_⟩ := checkedAddU32_eq_some.mp hheight
    obtain ⟨rfl,_⟩ := checkedAddU32_eq_some.mp hready
    exact ⟨containing,hdvd,hle,hlt,by rw [Nat.mul_comm]⟩
  · cases haging

theorem anchorCandidates_before {trusted ready scanned : Nat}
    (hactivation : activation < u32Limit - 1)
    (hready : proofReadyHeightForNoteMinedHeight trusted network timingPolicy noteHeight = .ok ready)
    (hscanned : scanned < ready) :
    zip318AnchorCandidateBoundariesWithPolicy network timingPolicy
      (scanned - confirmationLag trusted) noteHeight activation = [] := by
  obtain ⟨containing,hdvd,hle,hlt,rfl⟩ := proofReadyHeight_ok hready
  rw [List.eq_nil_iff_forall_not_mem]
  intro boundary hmem
  obtain ⟨latest,hlatest,hnote,_,k,hmin,_,heq⟩ := (mem_anchorCandidates_age hactivation).mp hmem
  obtain ⟨hlatestDvd,hlatestPos,hobserved⟩ := zip318AnchorBoundaryAtOrBefore_eq_some hlatest
  have hboundary : anchorBucketModulus network timingPolicy ∣ boundary := by
    rw [← heq] at hlatestDvd
    exact (Nat.dvd_add_left (Dvd.intro_left k rfl)).mp hlatestDvd
  have hage := Nat.mul_le_mul_right (anchorBucketModulus network timingPolicy) hmin
  -- a boundary below the containing one is a whole bucket below it
  have hbelow : boundary < containing := by omega
  have hbucket := Nat.le_of_dvd (by omega) (Nat.dvd_sub hdvd hboundary)
  omega

theorem anchorCandidates_at {trusted ready : Nat} (hactivation : activation < u32Limit - 1)
    (hnote : activation < noteHeight)
    (hready : proofReadyHeightForNoteMinedHeight trusted network timingPolicy noteHeight =
      .ok ready) :
    zip318AnchorCandidateBoundariesWithPolicy network timingPolicy
      (ready - confirmationLag trusted) noteHeight activation ≠ [] := by
  obtain ⟨containing,hdvd,hle,_,rfl⟩ := proofReadyHeight_ok hready
  have hmod : (containing + anchorBucketMinAge network timingPolicy *
      anchorBucketModulus network timingPolicy) % anchorBucketModulus network timingPolicy = 0 := by
    rw [Nat.add_mul_mod_self_right]
    exact Nat.mod_eq_zero_of_dvd hdvd
  have hlatest : zip318AnchorBoundaryAtOrBeforeWithPolicy network timingPolicy
      (containing + anchorBucketMinAge network timingPolicy *
        anchorBucketModulus network timingPolicy) =
      some (containing + anchorBucketMinAge network timingPolicy *
        anchorBucketModulus network timingPolicy) := by
    rw [zip318AnchorBoundaryAtOrBeforeWithPolicy,hmod,Nat.sub_zero]
    exact if_pos (by omega)
  have hmin := anchorBucketMinAge_le network timingPolicy
  have hmem : containing ∈ zip318AnchorCandidateBoundariesWithPolicy network timingPolicy
      (containing + anchorBucketMinAge network timingPolicy *
        anchorBucketModulus network timingPolicy) noteHeight activation := by
    refine (mem_anchorCandidates_age hactivation).mpr ⟨_,hlatest,hle,by omega,_,le_rfl,?_,rfl⟩
    exact hmin.trans (by decide)
  rw [Nat.add_sub_cancel]
  exact List.ne_nil_of_mem hmem

/-- The candidates are the boundaries that pass the test, in descending order, and a note mined
after the activation has its first one at its ready height. -/
theorem anchorCandidates_agree (trusted : Nat) (network : WalletNetwork)
    (timingPolicy : MigrationTimingPolicy) (noteHeight activation : Nat)
    (hactivation : activation < u32Limit - 1) :
    (∀ observed,
      (zip318AnchorCandidateBoundariesWithPolicy network timingPolicy observed noteHeight
        activation).Pairwise (· > ·) ∧
      ∀ boundary, boundary ∈ zip318AnchorCandidateBoundariesWithPolicy network timingPolicy observed
          noteHeight activation ↔
        zip318AnchorBoundaryIsCandidateWithPolicy network timingPolicy boundary observed noteHeight
          activation = true) ∧
    ∀ ready, activation < noteHeight →
      proofReadyHeightForNoteMinedHeight trusted network timingPolicy noteHeight = .ok ready →
        (∀ scanned, scanned < ready → zip318AnchorCandidateBoundariesWithPolicy network timingPolicy
          (scanned - confirmationLag trusted) noteHeight activation = []) ∧
        zip318AnchorCandidateBoundariesWithPolicy network timingPolicy
          (ready - confirmationLag trusted) noteHeight activation ≠ [] := by
  constructor
  · intro observed
    exact ⟨anchorCandidates_pairwise,fun boundary => mem_anchorCandidates_iff hactivation⟩
  · intro ready hnote hready
    constructor
    · intro scanned hscanned
      exact anchorCandidates_before hactivation hready hscanned
    · exact anchorCandidates_at hactivation hnote hready

/-- A note mined at 5600 is ready when the boundary 5616 is one bucket old and trusted. -/
theorem anchorCandidates_agree_main :
    (∀ scanned, scanned < 5762 → zip318AnchorCandidateBoundariesWithPolicy .main .standard
      (scanned - confirmationLag 3) 5600 5000 = []) ∧
    zip318AnchorCandidateBoundariesWithPolicy .main .standard (5762 - confirmationLag 3) 5600 5000 ≠
      [] :=
  (anchorCandidates_agree 3 .main .standard 5600 5000 (by decide)).2 5762 (by decide) rfl

example : zip318AnchorCandidateBoundariesWithPolicy .test .standard 5700 5000 5000 =
    [5472,5328,5184,5040] := rfl

end CoppiceWallet.Store
