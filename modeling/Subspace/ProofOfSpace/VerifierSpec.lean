import Subspace.ProofOfSpace.Verifier
import Mathlib.Tactic.IntervalCases

/-!
# What the proof-of-space verifier accepts

1. `hasMatch_iff`: `has_match` holds exactly when the right value's place in
   its bucket is one of the targets `calculate_left_targets` gives for the left
   value. The bucket itself is not compared, so every pair the tables match
   passes (`hasMatch_of_findMatchesRelation`), and pairs from other buckets do
   too.
2. `verifyOnly_eq_true_iff`: `verify_only` accepts a proof exactly when, at
   each of the six levels of the proof's tree (`proofTable`), every pair passes
   `has_match`, and the first `K` bits of the root are the challenge's.
3. `verify_only_accepts_exactly_target_matches` states 1 and 2 together.
-/

namespace Subspace.ProofOfSpace

section Targets

/-- The targets of `has_match` are those `calculate_left_targets` tabulates. -/
theorem hasMatch_iff (leftY rightY : ℕ) :
    hasMatch leftY rightY = true ↔
      rightY % paramBC ∈ calculateLeftTargets ((leftY / paramBC) % 2) (leftY % paramBC) := by
  unfold hasMatch calculateLeftTargets
  rw [List.mem_mergeSort]
  exact List.contains_iff_mem

/-- Every pair the tables match passes `has_match`. -/
theorem hasMatch_of_findMatchesRelation {leftY rightY : ℕ}
    (matched : FindMatchesRelation leftY rightY) : hasMatch leftY rightY = true :=
  (hasMatch_iff leftY rightY).mpr matched.2

end Targets

variable (hashes : PosHashes) (k : ℕ)

/-- The leaves of a proof's tree: `f1` of each `x`, with the `x` as metadata. -/
def proofLeaves (proofOfSpace : List ℕ) : List (ℕ × ℕ) :=
  (List.range 64).map fun offset =>
    let x := proofX k proofOfSpace offset
    (computeF1 hashes k x, x)

/-- One level of the tree up, whether the pairs match or not. -/
def nextLevel (tableNumber : ℕ) (ysAndMetadata : List (ℕ × ℕ)) : List (ℕ × ℕ) :=
  (pairs ysAndMetadata).map fun pair => hashes.computeFn tableNumber pair.1.1 pair.1.2 pair.2.2

/-- Table `t` of a proof's tree, for `t = 1, …, 7`. -/
def proofTable (proofOfSpace : List ℕ) : ℕ → List (ℕ × ℕ)
  | 0 => []
  | 1 => proofLeaves hashes k proofOfSpace
  | t + 2 => nextLevel hashes (t + 2) (proofTable proofOfSpace (t + 1))

/-- Every pair of a level passes `has_match`. -/
def PairsMatch (ysAndMetadata : List (ℕ × ℕ)) : Prop :=
  ∀ pair ∈ pairs ysAndMetadata, hasMatch pair.1.1 pair.2.1 = true

section Levels

variable {hashes}

theorem collectPairs_of_match {tableNumber : ℕ} {ps : List ((ℕ × ℕ) × (ℕ × ℕ))}
    (matched : ∀ pair ∈ ps, hasMatch pair.1.1 pair.2.1 = true) :
    collectPairs hashes tableNumber ps =
      some (ps.map fun pair => hashes.computeFn tableNumber pair.1.1 pair.1.2 pair.2.2) := by
  induction ps with
  | nil => rfl
  | cons pair rest ih =>
    have here := matched pair List.mem_cons_self
    have later := ih fun pair' mem => matched pair' (List.mem_cons_of_mem pair mem)
    simp [collectPairs, here, later]

theorem collectPairs_of_not_match {tableNumber : ℕ} {ps : List ((ℕ × ℕ) × (ℕ × ℕ))}
    (unmatched : ∃ pair ∈ ps, hasMatch pair.1.1 pair.2.1 = false) :
    collectPairs hashes tableNumber ps = none := by
  induction ps with
  | nil =>
    obtain ⟨_, member, -⟩ := unmatched
    cases member
  | cons pair rest ih =>
    by_cases here : hasMatch pair.1.1 pair.2.1 = false
    · simp [collectPairs, here]
    · -- the failing pair is further on
      obtain ⟨pair', member, failed⟩ := unmatched
      have later : pair' ∈ rest := by
        rcases List.mem_cons.mp member with rfl | later
        · exact absurd failed here
        · exact later
      simp only [Bool.not_eq_false] at here
      simp [collectPairs, here, ih ⟨pair', later, failed⟩]

theorem collectYsAndMetadata_of_match {tableNumber : ℕ} {ysAndMetadata : List (ℕ × ℕ)}
    (matched : PairsMatch ysAndMetadata) :
    collectYsAndMetadata hashes tableNumber ysAndMetadata =
      nextLevel hashes tableNumber ysAndMetadata := by
  rw [collectYsAndMetadata, collectPairs_of_match matched, Option.getD_some, nextLevel]

theorem collectYsAndMetadata_of_not_match {tableNumber : ℕ} {ysAndMetadata : List (ℕ × ℕ)}
    (unmatched : ¬PairsMatch ysAndMetadata) :
    collectYsAndMetadata hashes tableNumber ysAndMetadata = [] := by
  have failing : ∃ pair ∈ pairs ysAndMetadata, hasMatch pair.1.1 pair.2.1 = false := by
    unfold PairsMatch at unmatched
    push Not at unmatched
    simpa using unmatched
  rw [collectYsAndMetadata, collectPairs_of_not_match failing, Option.getD_none]

variable (hashes)

/-- The levels `verify_only` computes, one table after the other. -/
def checkLevels (tableNumbers : List ℕ) (ysAndMetadata : List (ℕ × ℕ)) : List (ℕ × ℕ) :=
  tableNumbers.foldl (fun level tableNumber => collectYsAndMetadata hashes tableNumber level)
    ysAndMetadata

/-- The same levels without the checks. -/
def plainLevels (tableNumbers : List ℕ) (ysAndMetadata : List (ℕ × ℕ)) : List (ℕ × ℕ) :=
  tableNumbers.foldl (fun level tableNumber => nextLevel hashes tableNumber level) ysAndMetadata

/-- The pairs of every level match, from `ysAndMetadata` up. -/
def MatchesAlong : List ℕ → List (ℕ × ℕ) → Prop
  | [], _ => True
  | tableNumber :: tableNumbers, ysAndMetadata =>
    PairsMatch ysAndMetadata ∧ MatchesAlong tableNumbers (nextLevel hashes tableNumber ysAndMetadata)

variable {hashes}

theorem checkLevels_nil (tableNumbers : List ℕ) : checkLevels hashes tableNumbers [] = [] := by
  induction tableNumbers with
  | nil => rfl
  | cons tableNumber tableNumbers ih => exact ih

/-- The checked levels end in a value exactly when every level's pairs match
and the plain levels end in it. The induction is on the tables still to
build: a failing level empties every later one. -/
theorem head_checkLevels_iff (tableNumbers : List ℕ) (ysAndMetadata : List (ℕ × ℕ))
    (v : ℕ × ℕ) :
    (checkLevels hashes tableNumbers ysAndMetadata).head? = some v ↔
      MatchesAlong hashes tableNumbers ysAndMetadata ∧
        (plainLevels hashes tableNumbers ysAndMetadata).head? = some v := by
  induction tableNumbers generalizing ysAndMetadata with
  | nil => simp [checkLevels, plainLevels, MatchesAlong]
  | cons tableNumber tableNumbers ih =>
    have unfolded : checkLevels hashes (tableNumber :: tableNumbers) ysAndMetadata =
        checkLevels hashes tableNumbers (collectYsAndMetadata hashes tableNumber ysAndMetadata) :=
      rfl
    by_cases matched : PairsMatch ysAndMetadata
    · rw [unfolded, collectYsAndMetadata_of_match matched, ih]
      simp only [MatchesAlong, matched, true_and]
      rfl
    · rw [unfolded, collectYsAndMetadata_of_not_match matched, checkLevels_nil]
      simp [MatchesAlong, matched]

/-- The levels over tables `2` to `7`, written out; stated for any first
level, so that no proof unfolds the leaves of a proof. -/
theorem checkLevels_tables (ysAndMetadata : List (ℕ × ℕ)) :
    checkLevels hashes [2, 3, 4, 5, 6, 7] ysAndMetadata =
      collectYsAndMetadata hashes 7 (collectYsAndMetadata hashes 6 (collectYsAndMetadata hashes 5
        (collectYsAndMetadata hashes 4 (collectYsAndMetadata hashes 3
          (collectYsAndMetadata hashes 2 ysAndMetadata))))) := by
  simp only [checkLevels, List.foldl_cons, List.foldl_nil]

theorem plainLevels_tables (ysAndMetadata : List (ℕ × ℕ)) :
    plainLevels hashes [2, 3, 4, 5, 6, 7] ysAndMetadata =
      nextLevel hashes 7 (nextLevel hashes 6 (nextLevel hashes 5
        (nextLevel hashes 4 (nextLevel hashes 3 (nextLevel hashes 2 ysAndMetadata))))) := by
  simp only [plainLevels, List.foldl_cons, List.foldl_nil]

end Levels

/-- The six checked levels are tables `1` to `6` of the proof's tree. -/
theorem matchesAlong_iff (proofOfSpace : List ℕ) :
    MatchesAlong hashes [2, 3, 4, 5, 6, 7] (proofLeaves hashes k proofOfSpace) ↔
      ∀ t, 1 ≤ t → t ≤ 6 → PairsMatch (proofTable hashes k proofOfSpace t) := by
  simp only [MatchesAlong, and_true]
  constructor
  · rintro ⟨one, two, three, four, five, six⟩ t low high
    interval_cases t
    exacts [one, two, three, four, five, six]
  · intro all
    exact ⟨all 1 le_rfl (by omega), all 2 (by omega) (by omega), all 3 (by omega) (by omega),
      all 4 (by omega) (by omega), all 5 (by omega) (by omega), all 6 (by omega) le_rfl⟩

/-- The six levels of the source are `checkLevels` over tables `2` to `7`. -/
theorem verifyOnly_eq_firstKBitsMatch (firstChallengeBytes proofOfSpace : List ℕ) :
    verifyOnly hashes k firstChallengeBytes proofOfSpace =
      firstKBitsMatch (fromBeBytes firstChallengeBytes / 2 ^ (32 - k))
        (checkLevels hashes [2, 3, 4, 5, 6, 7] (proofLeaves hashes k proofOfSpace)) := by
  rw [checkLevels_tables]
  unfold verifyOnly proofLeaves
  rfl

/-- `verify_only` accepts a proof exactly when every pair of tables `1` to `6`
of its tree passes `has_match` and the root's first `K` bits are the
challenge's. -/
theorem verifyOnly_eq_true_iff (firstChallengeBytes proofOfSpace : List ℕ) :
    verifyOnly hashes k firstChallengeBytes proofOfSpace = true ↔
      (∀ t, 1 ≤ t → t ≤ 6 → PairsMatch (proofTable hashes k proofOfSpace t)) ∧
      ∃ y metadata, (proofTable hashes k proofOfSpace 7).head? = some (y, metadata) ∧
        firstKBits y = fromBeBytes firstChallengeBytes / 2 ^ (32 - k) := by
  have root : plainLevels hashes [2, 3, 4, 5, 6, 7] (proofLeaves hashes k proofOfSpace) =
      proofTable hashes k proofOfSpace 7 := by
    rw [plainLevels_tables]
    rfl
  rw [verifyOnly_eq_firstKBitsMatch, ← matchesAlong_iff, ← root, firstKBitsMatch]
  cases checked : (checkLevels hashes [2, 3, 4, 5, 6, 7] (proofLeaves hashes k proofOfSpace)).head?
    with
  | none =>
    simp only [Bool.false_eq_true, false_iff, not_and, not_exists]
    intro matched y metadata plain
    have reached := (head_checkLevels_iff _ _ (y, metadata)).mpr ⟨matched, plain⟩
    rw [checked] at reached
    cases reached
  | some v =>
    obtain ⟨matched, plain⟩ := (head_checkLevels_iff _ _ v).mp checked
    obtain ⟨y, metadata⟩ := v
    simp only [beq_iff_eq]
    constructor
    · intro bits
      exact ⟨matched, y, metadata, plain, bits⟩
    · rintro ⟨-, y', metadata', plain', bits⟩
      rw [plain] at plain'
      cases plain'
      exact bits

/-- `verify_only` accepts a proof exactly when, at each of the six levels,
every pair's right value sits at one of the targets `calculate_left_targets`
gives for its left value, and the first `K` bits of the root are those of the
challenge. Whether the right value is in the bucket after the left value's is
not part of it. -/
theorem verify_only_accepts_exactly_target_matches (hashes : PosHashes) (k : ℕ)
    (firstChallengeBytes proofOfSpace : List ℕ) :
    verifyOnly hashes k firstChallengeBytes proofOfSpace = true ↔
      (∀ t, 1 ≤ t → t ≤ 6 → ∀ pair ∈ pairs (proofTable hashes k proofOfSpace t),
        pair.2.1 % paramBC ∈ calculateLeftTargets ((pair.1.1 / paramBC) % 2) (pair.1.1 % paramBC)) ∧
      ∃ y metadata, (proofTable hashes k proofOfSpace 7).head? = some (y, metadata) ∧
        firstKBits y = fromBeBytes firstChallengeBytes / 2 ^ (32 - k) := by
  rw [verifyOnly_eq_true_iff]
  simp only [PairsMatch, hasMatch_iff]

/-- Hashes that are zero everywhere; ChaCha8 and BLAKE3 are abstract, so these
are among the functions the verifier is stated for. -/
def zeroHashes : PosHashes where
  chacha8Word _ _ := 0
  computeFn _ _ _ _ := (0, 0)

end Subspace.ProofOfSpace
